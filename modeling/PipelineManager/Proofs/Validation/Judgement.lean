import Mathlib.Data.List.Nodup
import PipelineManager.Validation.Semantics

/-!
# What a judgement finds

`Justified` says what makes an error one of a descriptor, without saying how errors are looked for.
The judgement finds exactly the justified errors. It looks at a predefined test only if some
execution references it, so that all other tests can be at fault for repeated ids alone.
-/

namespace PipelineManager

/-! ## Justified errors -/

/-- The first element of a list with a property. -/
def IsFirst {α : Type} (P : α → Prop) (xs : List α) (x : α) : Prop :=
  ∃ before after, xs = before ++ x :: after ∧ P x ∧ ∀ y ∈ before, ¬ P y

/-- Whether some execution of a descriptor references an id. -/
def Descriptor.References (d : Descriptor) (id : Int) : Prop :=
  ∃ b ∈ d.execution, ∃ e ∈ b.executions, id ∈ e.testcaseIds

/-- A test that is declared, referenced and predefined. Only such a test is judged by the
catalogue. -/
structure Descriptor.Judges (d : Descriptor) (t : Testcase) : Prop where
  declared : t ∈ d.setup.testcases
  referenced : d.References t.id
  predefined : t.kind = .predefined

/-- A variable that a test is judged by: one of the first entry of its name. -/
def IsJudgedBy (catalogue : List CatalogueEntry) (t : Testcase) (v : Variable) : Prop :=
  ∃ e, IsFirst (fun e => e.name = t.name) catalogue e ∧ v ∈ e.vars

/-- What makes an error one of a descriptor against a catalogue. -/
inductive Justified (d : Descriptor) (catalogue : List CatalogueEntry) : SemanticError → Prop where
  | duplicate {id : Int} (htwice : 2 ≤ d.setup.testcases.countP fun t => t.id = id) :
      Justified d catalogue (.duplicateTestcase id)
  | undeclared {b : Batch} {e : Execution} {id : Int} (hbatch : b ∈ d.execution)
      (hexecution : e ∈ b.executions) (hid : id ∈ e.testcaseIds)
      (hundeclared : ∀ t ∈ d.setup.testcases, t.id ≠ id) :
      Justified d catalogue (.undeclaredTestcase b.id e.id id)
  | unknown {t : Testcase} (ht : d.Judges t) (hunknown : ∀ e ∈ catalogue, e.name ≠ t.name) :
      Justified d catalogue (.unknownTest t.name)
  | missing {t : Testcase} {v : Variable} (ht : d.Judges t) (hv : IsJudgedBy catalogue t v)
      (hmandatory : v.mandatory = true) (hmissing : ∀ p ∈ t.parameters, p.key ≠ v.name) :
      Justified d catalogue (.missingParameter t.name v.name)
  | invalid {t : Testcase} {v : Variable} {p : Parameter} (ht : d.Judges t)
      (hv : IsJudgedBy catalogue t v)
      (hp : IsFirst (fun p => p.key = v.name) t.parameters p) (hoptions : v.options ≠ [])
      (htext : p.text ∉ v.options) : Justified d catalogue (.invalidOption t.name v.name)

/-! ## Repeated ids -/

/-- An id is found repeated if it was not reported before and occurs again behind what was seen. -/
theorem mem_repeatedFrom_iff {seen reported ids : List Int} (hreported : ∀ i ∈ reported, i ∈ seen)
    {id : Int} :
    id ∈ repeatedFrom seen reported ids ↔
      id ∉ reported ∧ (id ∈ seen ∧ id ∈ ids ∨ 2 ≤ ids.count id) := by
  induction ids generalizing seen reported with
  | nil => simp [repeatedFrom]
  | cons i ids ih =>
    by_cases hseen : i ∈ seen
    · by_cases hi : i ∈ reported
      · rw [repeatedFrom, if_pos (by simpa using hseen), if_pos (by simpa using hi), ih hreported]
        refine and_congr_right fun hid => ?_
        have hne : i ≠ id := fun heq => hid (heq ▸ hi)
        rw [List.count_cons_of_ne hne, List.mem_cons, or_iff_right hne.symm]
      · have hreported' : ∀ j ∈ i :: reported, j ∈ seen :=
          List.forall_mem_cons.mpr ⟨hseen, hreported⟩
        rw [repeatedFrom, if_pos (by simpa using hseen), if_neg (by simpa using hi), List.mem_cons,
          ih hreported']
        by_cases hne : i = id
        · subst hne
          simp [hi, hseen]
        · rw [List.count_cons_of_ne hne, List.mem_cons, List.mem_cons]
          simp [Ne.symm hne]
    · have hi : i ∉ reported := fun h => hseen (hreported i h)
      have hreported' : ∀ j ∈ reported, j ∈ i :: seen :=
        fun j hj => List.mem_cons_of_mem i (hreported j hj)
      rw [repeatedFrom, if_neg (by simpa using hseen), ih hreported']
      refine and_congr_right fun _ => ?_
      by_cases hne : i = id
      · subst hne
        have hcount : 2 ≤ ids.count i → i ∈ ids := fun h => List.count_pos_iff.mp (by omega)
        have hcons : 2 ≤ (i :: ids).count i ↔ i ∈ ids := by
          rw [List.count_cons_self, ← List.count_pos_iff]
          omega
        simpa [hseen, hcons] using hcount
      · rw [List.count_cons_of_ne hne, List.mem_cons, List.mem_cons]
        simp [Ne.symm hne]

/-- The repeated ids are those that occur twice at least. -/
theorem mem_repeated_iff {ids : List Int} {id : Int} : id ∈ repeated ids ↔ 2 ≤ ids.count id := by
  rw [repeated, mem_repeatedFrom_iff (List.forall_mem_nil _)]
  simp

/-! ## Each kind of error -/

variable {d : Descriptor} {catalogue : List CatalogueEntry} {t : Testcase} {error : SemanticError}

/-- What is found is the first that meets the condition. -/
theorem find?_eq_some_iff_isFirst {α : Type} {P : α → Prop} [DecidablePred P] {xs : List α}
    {x : α} :
    xs.find? (fun y => P y) = some x ↔ IsFirst P xs x := by
  rw [List.find?_eq_some_iff_append]
  simp [IsFirst]
  tauto

/-- A testcase is reported as a duplicate iff its id is declared twice at least. -/
theorem mem_duplicateErrors_iff :
    error ∈ duplicateErrors d ↔
      ∃ id, 2 ≤ d.setup.testcases.countP (fun t => t.id = id) ∧ error = .duplicateTestcase id := by
  have hcount (id : Int) :
      d.declaredIds.count id = d.setup.testcases.countP fun t => t.id = id := by
    rw [Descriptor.declaredIds, List.count, List.countP_map]
    rfl
  simp only [duplicateErrors, List.mem_map, mem_repeated_iff, hcount]
  exact exists_congr fun id => and_congr_right fun _ => eq_comm

/-- A testcase is reported as undeclared iff an execution refers to it and none is declared. -/
theorem mem_undeclaredErrors_iff :
    error ∈ undeclaredErrors d ↔ ∃ b ∈ d.execution, ∃ e ∈ b.executions, ∃ id ∈ e.testcaseIds,
      (∀ t ∈ d.setup.testcases, t.id ≠ id) ∧ error = .undeclaredTestcase b.id e.id id := by
  have hundeclared (id : Int) :
      (!d.declaredIds.contains id) = true ↔ ∀ t ∈ d.setup.testcases, t.id ≠ id := by
    simp [Descriptor.declaredIds]
  simp only [undeclaredErrors, List.mem_flatMap, List.mem_map, List.mem_filter, hundeclared,
    and_assoc, @eq_comm _ error]

/-- The tests executed are the declared ones that are referenced. -/
theorem mem_executed_iff : t ∈ d.executed ↔ t ∈ d.setup.testcases ∧ d.References t.id := by
  simp [Descriptor.executed, Descriptor.referencedIds, Descriptor.References]

/-- A variable is reported iff it is mandatory and missing, or its first value is no option. -/
theorem mem_variableErrors_iff {v : Variable} :
    error ∈ variableErrors t v ↔
      (v.mandatory = true ∧ (∀ p ∈ t.parameters, p.key ≠ v.name) ∧
        error = .missingParameter t.name v.name) ∨
      ∃ p, IsFirst (fun p => p.key = v.name) t.parameters p ∧ v.options ≠ [] ∧ p.text ∉ v.options ∧
        error = .invalidOption t.name v.name := by
  have hfirst (p : Parameter) : t.parameter? v.name = some p ↔
      IsFirst (fun p => p.key = v.name) t.parameters p :=
    find?_eq_some_iff_isFirst
  have hnone : t.parameter? v.name = none ↔ ∀ p ∈ t.parameters, p.key ≠ v.name := by
    simp [Testcase.parameter?]
  simp only [← hfirst, ← hnone]
  cases hp : t.parameter? v.name with
  | none => by_cases hmandatory : v.mandatory = true <;> simp [variableErrors, hp, hmandatory]
  | some p =>
    have hrefuses : v.accepts p.text = false ↔ v.options ≠ [] ∧ p.text ∉ v.options := by
      rw [Variable.accepts, Bool.or_eq_false_iff, List.isEmpty_eq_false_iff, List.any_eq_false]
      simp only [decide_eq_true_eq, List.forall_mem_ne']
    have herrors : error ∈ variableErrors t v ↔
        v.accepts p.text = false ∧ error = .invalidOption t.name v.name := by
      cases haccepts : v.accepts p.text <;> simp [variableErrors, hp, haccepts]
    rw [herrors, hrefuses]
    simp [and_assoc]

/-- A predefined test is reported iff the catalogue lacks it or judges a variable of it. -/
theorem mem_testErrors_iff (hkind : t.kind = .predefined) :
    error ∈ testErrors catalogue t ↔
      (∀ e ∈ catalogue, e.name ≠ t.name) ∧ error = .unknownTest t.name ∨
      ∃ v, IsJudgedBy catalogue t v ∧ error ∈ variableErrors t v := by
  have hfirst (e : CatalogueEntry) :
      entryNamed? catalogue t.name = some e ↔ IsFirst (fun e => e.name = t.name) catalogue e :=
    find?_eq_some_iff_isFirst
  have hnone : entryNamed? catalogue t.name = none ↔ ∀ e ∈ catalogue, e.name ≠ t.name := by
    simp [entryNamed?]
  simp only [IsJudgedBy, ← hfirst, ← hnone]
  cases hentry : entryNamed? catalogue t.name <;> simp [testErrors, hkind, hentry]

/-- An error on a test is that of one of the tests that are judged. -/
theorem mem_flatMap_testErrors_iff :
    error ∈ d.executed.flatMap (testErrors catalogue) ↔
      ∃ t, d.Judges t ∧ ((∀ e ∈ catalogue, e.name ≠ t.name) ∧ error = .unknownTest t.name ∨
        ∃ v, IsJudgedBy catalogue t v ∧ error ∈ variableErrors t v) := by
  rw [List.mem_flatMap]
  constructor
  · rintro ⟨t, ht, herror⟩
    obtain ⟨hdeclared, hreferenced⟩ := mem_executed_iff.mp ht
    cases hkind : t.kind with
    | predefined => exact ⟨t, ⟨hdeclared, hreferenced, hkind⟩, (mem_testErrors_iff hkind).mp herror⟩
    | developerDefined => simp [testErrors, hkind] at herror
  · rintro ⟨t, ht, herror⟩
    have hexecuted := mem_executed_iff.mpr ⟨ht.declared, ht.referenced⟩
    exact ⟨t, hexecuted, (mem_testErrors_iff ht.predefined).mpr herror⟩

/-! ## All errors -/

/-- The judgement finds the justified errors and no other. -/
theorem mem_semanticErrors_iff :
    error ∈ semanticErrors d catalogue ↔ Justified d catalogue error := by
  rw [semanticErrors, List.mem_append, List.mem_append, mem_duplicateErrors_iff,
    mem_undeclaredErrors_iff, mem_flatMap_testErrors_iff]
  constructor
  · rintro ((⟨id, htwice, rfl⟩ | ⟨b, hb, e, he, id, hid, hundeclared, rfl⟩) | ⟨t, ht, herror⟩)
    · exact .duplicate htwice
    · exact .undeclared hb he hid hundeclared
    · rcases herror with ⟨hunknown, rfl⟩ | ⟨v, hv, herror⟩
      · exact .unknown ht hunknown
      · rcases mem_variableErrors_iff.mp herror with
          ⟨hmandatory, hmissing, rfl⟩ | ⟨p, hp, hoptions, htext, rfl⟩
        · exact .missing ht hv hmandatory hmissing
        · exact .invalid ht hv hp hoptions htext
  · intro h
    cases h with
    | duplicate htwice => exact Or.inl (Or.inl ⟨_, htwice, rfl⟩)
    | undeclared hb he hid hundeclared =>
      exact Or.inl (Or.inr ⟨_, hb, _, he, _, hid, hundeclared, rfl⟩)
    | unknown ht hunknown => exact Or.inr ⟨_, ht, Or.inl ⟨hunknown, rfl⟩⟩
    | missing ht hv hmandatory hmissing =>
      have herror := mem_variableErrors_iff.mpr (Or.inl ⟨hmandatory, hmissing, rfl⟩)
      exact Or.inr ⟨_, ht, Or.inr ⟨_, hv, herror⟩⟩
    | invalid ht hv hp hoptions htext =>
      have herror := mem_variableErrors_iff.mpr (Or.inr ⟨_, hp, hoptions, htext, rfl⟩)
      exact Or.inr ⟨_, ht, Or.inr ⟨_, hv, herror⟩⟩

/-- No duplicate is reported iff the declared ids are distinct. -/
theorem duplicateErrors_eq_nil_iff : duplicateErrors d = [] ↔ d.declaredIds.Nodup := by
  rw [duplicateErrors, List.map_eq_nil_iff, List.eq_nil_iff_forall_not_mem,
    List.nodup_iff_count_le_one]
  refine forall_congr' fun id => ?_
  rw [mem_repeated_iff]
  omega

/-- No testcase is reported as undeclared iff all that are referenced are declared. -/
theorem undeclaredErrors_eq_nil_iff :
    undeclaredErrors d = [] ↔ ∀ id, d.References id → id ∈ d.declaredIds := by
  simp only [undeclaredErrors, List.flatMap_eq_nil_iff, List.map_eq_nil_iff, List.filter_eq_nil_iff,
    Bool.not_eq_true', Bool.not_eq_false, List.contains_iff_mem]
  exact ⟨fun h id ⟨b, hb, e, he, hid⟩ => h b hb e he id hid,
    fun h b hb e he id hid => h id ⟨b, hb, e, he, hid⟩⟩

/-- A descriptor without errors declares its tests once and those that it references, and none of
the executed ones is at fault. -/
theorem semanticErrors_eq_nil_iff :
    semanticErrors d catalogue = [] ↔
      d.declaredIds.Nodup ∧ (∀ id, d.References id → id ∈ d.declaredIds) ∧
        d.executed.flatMap (testErrors catalogue) = [] := by
  rw [semanticErrors, List.append_eq_nil_iff, List.append_eq_nil_iff, duplicateErrors_eq_nil_iff,
    undeclaredErrors_eq_nil_iff, and_assoc]

/-- The descriptor with other declared tests. -/
def Descriptor.withTestcases (d : Descriptor) (testcases : List Testcase) : Descriptor :=
  { d with setup := { d.setup with testcases := testcases } }

/-- Without a test that is not judged, the same tests are judged. -/
theorem Descriptor.Judges.of_insert {before after : List Testcase} {other : Testcase}
    (hother : t.kind = .developerDefined ∨ ¬ d.References t.id)
    (h : (d.withTestcases (before ++ t :: after)).Judges other) :
    (d.withTestcases (before ++ after)).Judges other := by
  have hne : other ≠ t := by
    rintro rfl
    rcases hother with hkind | hreferenced
    · exact nomatch hkind.symm.trans h.predefined
    · exact hreferenced h.referenced
  have hdeclared : other ∈ before ++ t :: after := h.declared
  rw [List.mem_append, List.mem_cons, or_iff_right hne, ← List.mem_append] at hdeclared
  exact ⟨hdeclared, h.referenced, h.predefined⟩

/-- A test that is not judged is to blame for its repeated id and for nothing else. -/
theorem Justified.of_insert {before after : List Testcase}
    (hother : t.kind = .developerDefined ∨ ¬ d.References t.id)
    (h : Justified (d.withTestcases (before ++ t :: after)) catalogue error) :
    error = .duplicateTestcase t.id ∨
      Justified (d.withTestcases (before ++ after)) catalogue error := by
  cases h with
  | @duplicate id htwice =>
    by_cases hid : t.id = id
    · exact Or.inl (hid ▸ rfl)
    · have hcount : 2 ≤ (before ++ t :: after).countP fun t => t.id = id := htwice
      rw [List.countP_append, List.countP_cons_of_neg (by simpa using hid), ← List.countP_append]
        at hcount
      exact Or.inr (.duplicate hcount)
  | undeclared hb he hid hundeclared =>
    refine Or.inr (.undeclared hb he hid fun t' ht' => hundeclared t' ?_)
    exact (List.sublist_cons_self t after).append_left before |>.subset ht'
  | unknown ht hunknown => exact Or.inr (.unknown (ht.of_insert hother) hunknown)
  | missing ht hv hmandatory hmissing =>
    exact Or.inr (.missing (ht.of_insert hother) hv hmandatory hmissing)
  | invalid ht hv hp hoptions htext =>
    exact Or.inr (.invalid (ht.of_insert hother) hv hp hoptions htext)

/-- The judgement of a descriptor finds the justified errors and no other. Another developer-defined
test, or another test that no execution references, adds no error but that of a repeated id. -/
theorem semanticErrors_justified (d : Descriptor) (catalogue : List CatalogueEntry) :
    (∀ error, error ∈ semanticErrors d catalogue ↔ Justified d catalogue error) ∧
      ∀ (before after : List Testcase) (t : Testcase),
        t.kind = .developerDefined ∨ ¬ d.References t.id →
        ∀ error ∈ semanticErrors (d.withTestcases (before ++ t :: after)) catalogue,
          error = .duplicateTestcase t.id ∨
            error ∈ semanticErrors (d.withTestcases (before ++ after)) catalogue := by
  refine ⟨fun error => mem_semanticErrors_iff, fun before after t ht error herror => ?_⟩
  rw [mem_semanticErrors_iff] at herror ⊢
  exact herror.of_insert ht

/-- An id that is declared twice and one that is not declared. Neither the developer's test nor the
one that is not referenced is looked for in the catalogue. -/
example :
    semanticErrors
      { info := ⟨"tb", "app", "net", none⟩
        setup :=
          ⟨[],
            [⟨1, "ping", .predefined, "all", none, []⟩,
              ⟨1, "own", .developerDefined, "all", none, []⟩,
              ⟨2, "idle", .predefined, "all", none, []⟩],
            none⟩
        execution := [⟨1, "all", [⟨1, none, [1, 3]⟩]⟩] } [] =
      [.duplicateTestcase 1, .undeclaredTestcase 1 1 3, .unknownTest "ping"] := by decide

end PipelineManager
