import Mathlib.Data.List.Count
import PipelineManager.Proofs.Validation.Judgement

/-!
# How often an error is reported

An id that is declared again is reported once, however often that happens. A reference to an id that
is not declared is reported each time it is written. So the problems with ids are reported once each
exactly when every such reference is written only once under its batch and its execution.
-/

namespace PipelineManager

variable {d : Descriptor} {catalogue : List CatalogueEntry}

/-! ## References -/

/-- A reference to a test, with the ids of the batch and the execution that it stands in. -/
structure Reference where
  batch : Int
  execution : Int
  testcase : Int
deriving DecidableEq

/-- The error of a reference to a test that is not declared. -/
def Reference.error (r : Reference) : SemanticError :=
  .undeclaredTestcase r.batch r.execution r.testcase

/-- Different references are reported by different errors. -/
theorem Reference.error_injective : Function.Injective Reference.error := by
  intro r s h
  cases r
  cases s
  simpa [Reference.error] using h

/-- The references of a descriptor, each as often as it is written. -/
def Descriptor.references (d : Descriptor) : List Reference :=
  d.execution.flatMap fun b => b.executions.flatMap fun e => e.testcaseIds.map fun id =>
    ⟨b.id, e.id, id⟩

/-- The undeclared references are reported one by one. -/
theorem undeclaredErrors_eq (d : Descriptor) :
    undeclaredErrors d =
      (d.references.filter fun r => !d.declaredIds.contains r.testcase).map Reference.error := by
  simp only [undeclaredErrors, Descriptor.references, List.filter_flatMap, List.map_flatMap,
    List.filter_map, List.map_map]
  rfl

/-! ## The number of errors of each kind -/

/-- Nothing is found repeated twice: what was reported is not reported again. -/
theorem nodup_repeatedFrom {seen reported ids : List Int} (hreported : ∀ i ∈ reported, i ∈ seen) :
    (repeatedFrom seen reported ids).Nodup := by
  induction ids generalizing seen reported with
  | nil => exact List.nodup_nil
  | cons i ids ih =>
    unfold repeatedFrom
    split
    · next hseen =>
      split
      · exact ih hreported
      · have hreported' : ∀ j ∈ i :: reported, j ∈ seen :=
          List.forall_mem_cons.mpr ⟨List.contains_iff_mem.mp hseen, hreported⟩
        refine List.nodup_cons.mpr ⟨fun hi => ?_, ih hreported'⟩
        exact ((mem_repeatedFrom_iff hreported').mp hi).1 List.mem_cons_self
    · exact ih fun j hj => List.mem_cons_of_mem i (hreported j hj)

/-- A repeated id is listed once. -/
theorem nodup_repeated (ids : List Int) : (repeated ids).Nodup :=
  nodup_repeatedFrom (List.forall_mem_nil _)

/-- A duplicate is reported once. -/
theorem count_duplicateErrors (d : Descriptor) (id : Int) :
    (duplicateErrors d).count (.duplicateTestcase id) = if 2 ≤ d.declaredIds.count id then 1
      else 0 := by
  have hinjective : Function.Injective SemanticError.duplicateTestcase :=
    fun i j h => by simpa using h
  rw [duplicateErrors, List.count_map_of_injective _ _ hinjective, (nodup_repeated _).count]
  exact if_congr mem_repeated_iff rfl rfl

/-- An undeclared testcase is reported as often as it is referenced. -/
theorem count_undeclaredErrors (d : Descriptor) (r : Reference) :
    (undeclaredErrors d).count r.error = if r.testcase ∈ d.declaredIds then 0
      else d.references.count r := by
  rw [undeclaredErrors_eq, List.count_map_of_injective _ _ Reference.error_injective]
  split
  · next hdeclared =>
    refine List.count_eq_zero.mpr fun hr => ?_
    simp [hdeclared] at hr
  · next hundeclared => exact List.count_filter (by simpa using hundeclared)

/-- What the catalogue objects to is a problem with a name or a parameter, never with an id. -/
theorem ne_of_mem_testErrors {error : SemanticError}
    (h : error ∈ d.executed.flatMap (testErrors catalogue)) :
    (∀ id, error ≠ .duplicateTestcase id) ∧ ∀ r : Reference, error ≠ r.error := by
  obtain ⟨t, -, ⟨-, rfl⟩ | ⟨v, -, hv⟩⟩ := mem_flatMap_testErrors_iff.mp h
  · exact ⟨fun _ => nofun, fun _ => nofun⟩
  · rcases mem_variableErrors_iff.mp hv with ⟨-, -, rfl⟩ | ⟨-, -, -, -, rfl⟩
    · exact ⟨fun _ => nofun, fun _ => nofun⟩
    · exact ⟨fun _ => nofun, fun _ => nofun⟩

/-- An id that is declared twice or more often is reported once. -/
theorem count_semanticErrors_duplicate (d : Descriptor) (catalogue : List CatalogueEntry)
    (id : Int) :
    (semanticErrors d catalogue).count (.duplicateTestcase id) =
      if 2 ≤ d.declaredIds.count id then 1 else 0 := by
  have hundeclared : (undeclaredErrors d).count (.duplicateTestcase id) = 0 := by
    refine List.count_eq_zero.mpr fun h => ?_
    obtain ⟨_, _, _, _, _, _, _, herror⟩ := mem_undeclaredErrors_iff.mp h
    cases herror
  have htests : (d.executed.flatMap (testErrors catalogue)).count (.duplicateTestcase id) = 0 :=
    List.count_eq_zero.mpr fun h => (ne_of_mem_testErrors h).1 id rfl
  rw [semanticErrors, List.count_append, List.count_append, count_duplicateErrors, hundeclared,
    htests]
  rfl

/-- An id that is not declared is reported as often as it is referenced. -/
theorem count_semanticErrors_undeclared (d : Descriptor) (catalogue : List CatalogueEntry)
    (r : Reference) :
    (semanticErrors d catalogue).count r.error =
      if r.testcase ∈ d.declaredIds then 0 else d.references.count r := by
  have hduplicate : (duplicateErrors d).count r.error = 0 := by
    refine List.count_eq_zero.mpr fun h => ?_
    obtain ⟨_, _, herror⟩ := mem_duplicateErrors_iff.mp h
    cases herror
  have htests : (d.executed.flatMap (testErrors catalogue)).count r.error = 0 :=
    List.count_eq_zero.mpr fun h => (ne_of_mem_testErrors h).2 r rfl
  rw [semanticErrors, List.count_append, List.count_append, hduplicate, count_undeclaredErrors,
    htests, Nat.zero_add]
  rfl

/-! ## Errors that are reported once -/

/-- Whether no problem with ids is reported twice: neither a repeated declaration of one id nor an
undeclared id under one batch and execution. -/
structure ReportedOnce (errors : List SemanticError) : Prop where
  duplicate (id : Int) : errors.count (.duplicateTestcase id) ≤ 1
  undeclared (batch execution testcase : Int) :
    errors.count (.undeclaredTestcase batch execution testcase) ≤ 1

/-- An id that is declared again is reported once, and one that is not declared as often as it is
referenced under a batch and an execution. So nothing is reported twice exactly when every reference
to an id that is not declared is written only once. -/
theorem reportedOnce_iff (d : Descriptor) (catalogue : List CatalogueEntry) :
    (∀ id, (semanticErrors d catalogue).count (.duplicateTestcase id) =
      if 2 ≤ d.declaredIds.count id then 1 else 0) ∧
    (∀ batch execution testcase,
      (semanticErrors d catalogue).count (.undeclaredTestcase batch execution testcase) =
        if testcase ∈ d.declaredIds then 0 else d.references.count ⟨batch, execution, testcase⟩) ∧
    (ReportedOnce (semanticErrors d catalogue) ↔
      ∀ r ∈ d.references, r.testcase ∉ d.declaredIds → d.references.count r = 1) := by
  have hduplicate := count_semanticErrors_duplicate d catalogue
  have hundeclared := count_semanticErrors_undeclared d catalogue
  refine ⟨hduplicate, fun b e id => hundeclared ⟨b, e, id⟩, ?_⟩
  constructor
  · intro h r hr hid
    have hcount := hundeclared r
    rw [if_neg hid] at hcount
    have hpos : 0 < d.references.count r := List.count_pos_iff.mpr hr
    have hle : (semanticErrors d catalogue).count r.error ≤ 1 :=
      h.undeclared r.batch r.execution r.testcase
    omega
  · intro h
    refine ⟨fun id => ?_, fun b e id => ?_⟩
    · rw [hduplicate]
      split <;> omega
    · have hcount := hundeclared ⟨b, e, id⟩
      rw [Reference.error] at hcount
      rw [hcount]
      split
      · exact Nat.zero_le 1
      · next hid =>
        by_cases hr : (⟨b, e, id⟩ : Reference) ∈ d.references
        · exact Nat.le_of_eq (h _ hr hid)
        · rw [List.count_eq_zero.mpr hr]
          exact Nat.zero_le 1

/-- A descriptor that declares no test and references one twice in the same execution. -/
def twiceReferring : Descriptor where
  info := ⟨"tb", "app", "net", none⟩
  setup := ⟨[], [], none⟩
  execution := [⟨1, "all", [⟨1, none, [9, 9]⟩]⟩]

/-- Two errors are reported for one undeclared id of one batch and execution. -/
theorem reported_twice :
    semanticErrors twiceReferring [] = [.undeclaredTestcase 1 1 9, .undeclaredTestcase 1 1 9] ∧
      ¬ ReportedOnce (semanticErrors twiceReferring []) := by
  have herrors :
      semanticErrors twiceReferring [] =
          [.undeclaredTestcase 1 1 9, .undeclaredTestcase 1 1 9] := by
    decide
  refine ⟨herrors, fun h => ?_⟩
  have hle := h.undeclared 1 1 9
  rw [herrors] at hle
  exact absurd hle (by decide)

end PipelineManager
