import Mathlib.Logic.Relation
import PipelineManager.Pipeline.Script
import PipelineManager.Proofs.Validation.Judgement

/-!
# Rearranging a descriptor

What a descriptor executes depends on the set of its references: neither their order nor their
number matters, nor the execution that they stand in. Declarations that nothing refers to do not
matter either. `Rearranges` lists such changes of a descriptor. `Alike` says what the script and the
judgement depend on; each change preserves it, and so does any number of changes.
-/

namespace PipelineManager

/-! ## Changes of lists -/

section Lists

variable {α β : Type}

/-- Two lists that differ in one element, which is related to the element in its place. -/
inductive AtOnePlace (R : α → α → Prop) : List α → List α → Prop where
  | intro (before after : List α) {x y : α} (h : R x y) :
    AtOnePlace R (before ++ x :: after) (before ++ y :: after)

/-- A list into which further elements are inserted, in their order and at any places. -/
inductive Inserted : List α → List α → List α → Prop where
  | nil : Inserted [] [] []
  | kept (x : α) {extra old new : List α} (h : Inserted extra old new) :
    Inserted extra (x :: old) (x :: new)
  | added (x : α) {extra old new : List α} (h : Inserted extra old new) :
    Inserted (x :: extra) old (x :: new)

namespace Inserted

variable {extra old new : List α}

/-- What is inserted is added, up to the order. -/
theorem perm (h : Inserted extra old new) : new.Perm (extra ++ old) := by
  induction h with
  | nil => exact .refl _
  | kept x _ ih => exact (ih.cons x).trans List.perm_middle.symm
  | added x _ ih => exact ih.cons x

/-- What is inserted does not show in a selection that leaves it out. -/
theorem filter_eq (h : Inserted extra old new) {p : α → Bool} (hextra : ∀ x ∈ extra, p x = false) :
    new.filter p = old.filter p := by
  induction h with
  | nil => rfl
  | kept x _ ih =>
    rw [List.filter_cons, List.filter_cons, ih hextra]
  | added x _ ih =>
    obtain ⟨hx, hrest⟩ := List.forall_mem_cons.mp hextra
    rw [List.filter_cons_of_neg (by simp [hx]), ih hrest]

end Inserted

/-- Where one element changes, what the elements of a list contain changes in the same way. -/
theorem AtOnePlace.mem_flatMap_iff {R : α → α → Prop} {f : α → List β} {xs ys : List α} {p : Prop}
    {i : β} (hR : ∀ x y, R x y → (i ∈ f y ↔ p ∨ i ∈ f x)) (h : AtOnePlace R xs ys) :
    i ∈ ys.flatMap f ↔ p ∨ i ∈ xs.flatMap f := by
  obtain ⟨before, after, hxy⟩ := h
  simp only [List.flatMap_append, List.flatMap_cons, List.mem_append, hR _ _ hxy]
  tauto

end Lists

/-! ## Changes of a descriptor -/

/-- A batch with other executions, which are related to those it had. -/
inductive Batch.Changes (R : List Execution → List Execution → Prop) (b : Batch) :
    Batch → Prop where
  | intro {executions : List Execution} (h : R b.executions executions) :
    b.Changes R { b with executions }

/-- An execution with other references, which are related to those it had. -/
inductive Execution.Changes (R : List Int → List Int → Prop) (e : Execution) :
    Execution → Prop where
  | intro {testcaseIds : List Int} (h : R e.testcaseIds testcaseIds) :
    e.Changes R { e with testcaseIds }

/-- Batches of which one has its executions changed. -/
def InOneBatch (R : List Execution → List Execution → Prop) : List Batch → List Batch → Prop :=
  AtOnePlace (Batch.Changes R)

/-- Batches of which one execution has its references changed. -/
def InOneExecution (R : List Int → List Int → Prop) : List Batch → List Batch → Prop :=
  InOneBatch (AtOnePlace (Execution.Changes R))

/-- A list with one more element. -/
def Adds (id : Int) (old new : List Int) : Prop := Inserted [id] old new

namespace Descriptor

/-- The descriptor with other batches. -/
def withExecution (d : Descriptor) (execution : List Batch) : Descriptor := { d with execution }

/-- The changes of a descriptor that do not matter. References are permuted, repeated or moved, and
tests that nothing refers to are declared. -/
inductive Rearranges (d : Descriptor) : Descriptor → Prop where
  /-- The batches are permuted. -/
  | batches {bs : List Batch} (h : d.execution.Perm bs) : d.Rearranges (d.withExecution bs)
  /-- The executions of a batch are permuted. -/
  | executions {bs : List Batch} (h : InOneBatch List.Perm d.execution bs) :
      d.Rearranges (d.withExecution bs)
  /-- The references of an execution are permuted. -/
  | ids {bs : List Batch} (h : InOneExecution List.Perm d.execution bs) :
    d.Rearranges (d.withExecution bs)
  /-- Something that is referenced is referenced once more, by any execution. -/
  | repetition {bs : List Batch} {id : Int} (hid : d.References id)
      (h : InOneExecution (Adds id) d.execution bs) :
      d.Rearranges (d.withExecution bs)
  /-- A reference is taken from an execution and put into one. -/
  | move {rest bs : List Batch} {id : Int} (hsource : InOneExecution (Adds id) rest d.execution)
      (htarget : InOneExecution (Adds id) rest bs) : d.Rearranges (d.withExecution bs)
  /-- Further tests are declared, at any places, that are neither declared nor referenced. -/
  | testcases {extra ts : List Testcase} (h : Inserted extra d.setup.testcases ts)
      (hdistinct : (extra.map (·.id)).Nodup)
      (hfresh : ∀ t ∈ extra, t.id ∉ d.declaredIds ∧ ¬ d.References t.id) :
        d.Rearranges (d.withTestcases ts)

/-! ## What is preserved -/

/-- Two descriptors that the script and the judgement cannot tell apart. -/
structure Alike (d d' : Descriptor) : Prop where
  info : d'.info = d.info
  executed : d'.executed = d.executed
  metrics : d'.metricsBlocks = d.metricsBlocks
  distinct : d'.declaredIds.Nodup ↔ d.declaredIds.Nodup
  declared : (∀ id, d'.References id → id ∈ d'.declaredIds) ↔ ∀ id,
    d.References id → id ∈ d.declaredIds

variable {d d' d'' : Descriptor}

/-- A descriptor is like itself. -/
theorem Alike.refl (d : Descriptor) : d.Alike d := ⟨rfl, rfl, rfl, Iff.rfl, Iff.rfl⟩

/-- Likeness of descriptors is symmetric. -/
theorem Alike.symm (h : d.Alike d') : d'.Alike d :=
  ⟨h.info.symm, h.executed.symm, h.metrics.symm, h.distinct.symm, h.declared.symm⟩

/-- Likeness of descriptors is transitive. -/
theorem Alike.trans (h : d.Alike d') (h' : d'.Alike d'') : d.Alike d'' :=
  ⟨h'.info.trans h.info, h'.executed.trans h.executed, h'.metrics.trans h.metrics,
    h'.distinct.trans h.distinct, h'.declared.trans h.declared⟩

/-- The ids that some batches refer to. -/
def refers (bs : List Batch) : List Int := bs.flatMap fun b => b.executions.flatMap (·.testcaseIds)

/-- An id is referenced iff some batch refers to it. -/
theorem references_iff {id : Int} : d.References id ↔ id ∈ refers d.execution := by
  simp [References, refers]

/-- What a change in one batch does to the ids in it, it does to those of all batches. -/
theorem mem_refers_of_inOneBatch {R : List Execution → List Execution → Prop} {p : Prop} {id : Int}
    (hR : ∀ es es',
      R es es' → (id ∈ es'.flatMap (·.testcaseIds) ↔ p ∨ id ∈ es.flatMap (·.testcaseIds)))
    {bs bs' : List Batch} (h : InOneBatch R bs bs') : id ∈ refers bs' ↔ p ∨ id ∈ refers bs :=
  h.mem_flatMap_iff fun _ _ ⟨hb⟩ => hR _ _ hb

/-- What a change in one execution does to its ids, it does to those of all batches. -/
theorem mem_refers_of_inOneExecution {R : List Int → List Int → Prop} {p : Prop} {id : Int}
    (hR : ∀ ids ids', R ids ids' → (id ∈ ids' ↔ p ∨ id ∈ ids)) {bs bs' : List Batch}
    (h : InOneExecution R bs bs') : id ∈ refers bs' ↔ p ∨ id ∈ refers bs :=
  mem_refers_of_inOneBatch (fun _ _ hes => hes.mem_flatMap_iff fun _ _ ⟨he⟩ => hR _ _ he) h

/-- One more reference is to one more id, at most. -/
theorem mem_refers_of_adds {id other : Int} {bs bs' : List Batch}
    (h : InOneExecution (Adds id) bs bs') :
    other ∈ refers bs' ↔ other = id ∨ other ∈ refers bs :=
  mem_refers_of_inOneExecution (fun _ _ hadds => (Inserted.perm hadds).mem_iff.trans List.mem_cons)
    h

/-- Descriptors that refer to the same ids are alike. -/
theorem Alike.of_refers {bs : List Batch} (h : ∀ id, id ∈ refers bs ↔ id ∈ refers d.execution) :
    d.Alike (d.withExecution bs) where
  info := rfl
  executed := by
    refine List.filter_congr fun t _ => ?_
    rw [Bool.eq_iff_iff, List.contains_iff_mem, List.contains_iff_mem]
    exact h t.id
  metrics := rfl
  distinct := Iff.rfl
  declared := by
    refine forall_congr' fun id => ?_
    rw [references_iff, references_iff]
    exact imp_congr_left (h id)

/-- Further declarations of ids of their own leave a descriptor alike if nothing refers to them. -/
theorem Alike.of_inserted {extra ts : List Testcase} (h : Inserted extra d.setup.testcases ts)
    (hdistinct : (extra.map (·.id)).Nodup)
    (hfresh : ∀ t ∈ extra, t.id ∉ d.declaredIds ∧ ¬ d.References t.id) :
    d.Alike (d.withTestcases ts) := by
  have hids : (d.withTestcases ts).declaredIds.Perm (extra.map (·.id) ++ d.declaredIds) := by
    rw [declaredIds, declaredIds, ← List.map_append]
    exact h.perm.map _
  refine ⟨rfl, ?_, rfl, ?_, ?_⟩
  · refine h.filter_eq fun t ht => ?_
    rw [List.contains_eq_mem, decide_eq_false_iff_not]
    exact fun hid => (hfresh t ht).2 (references_iff.mpr hid)
  · rw [hids.nodup_iff, List.nodup_append]
    refine ⟨fun hall => hall.2.1, fun hold => ⟨hdistinct, hold, ?_⟩⟩
    rintro id hid _ hdeclared rfl
    obtain ⟨t, ht, rfl⟩ := List.mem_map.mp hid
    exact (hfresh t ht).1 hdeclared
  · refine forall₂_congr fun id hid => ?_
    have hreferenced : d.References id := hid
    rw [hids.mem_iff, List.mem_append, or_iff_right]
    intro hextra
    obtain ⟨t, ht, rfl⟩ := List.mem_map.mp hextra
    exact (hfresh t ht).2 hreferenced

/-- A single change leaves a descriptor alike. -/
theorem Rearranges.alike (h : d.Rearranges d') : d.Alike d' := by
  cases h with
  | batches h => exact .of_refers fun id => ((h.flatMap_right _).mem_iff).symm
  | executions h =>
    refine .of_refers fun id =>
      (mem_refers_of_inOneBatch (fun es es' hperm => ?_) h).trans (Iff.of_eq (false_or _))
    rw [false_or, (hperm.flatMap_right _).mem_iff]
  | ids h =>
    refine .of_refers fun id =>
      (mem_refers_of_inOneExecution (fun ids ids' hperm => ?_) h).trans (Iff.of_eq (false_or _))
    rw [false_or, hperm.mem_iff]
  | repetition hid h =>
    refine .of_refers fun other => ?_
    rw [mem_refers_of_adds h, or_iff_right_of_imp]
    rintro rfl
    exact references_iff.mp hid
  | move hsource htarget =>
    exact .of_refers fun other =>
      (mem_refers_of_adds htarget).trans (mem_refers_of_adds hsource).symm
  | testcases h hdistinct hfresh => exact .of_inserted h hdistinct hfresh

/-- Any number of changes, made or undone, leaves a descriptor alike. -/
theorem alike_of_rearranges (h : Relation.EqvGen Rearranges d d') : d.Alike d' := by
  induction h with
  | rel d d' h => exact h.alike
  | refl d => exact .refl d
  | symm d d' _ ih => exact ih.symm
  | trans d d' d'' _ _ ih ih' => exact ih.trans ih'

/-! ## The script and the judgement -/

/-- The request for the script of a descriptor. -/
def scriptRequest (d : Descriptor) (catalogue : List CatalogueEntry) (contract : MetricsContract)
    (runId : Int) :
    ScriptRequest where
  tests := d.executedTests
  catalogue := catalogue
  metrics := d.metricsBlocks
  contract := contract
  runId := runId
  testbedId := d.info.testbedId

/-- Like descriptors are accepted alike. -/
theorem Alike.semanticErrors_eq_nil_iff (h : d.Alike d') (catalogue : List CatalogueEntry) :
    semanticErrors d' catalogue = [] ↔ semanticErrors d catalogue = [] := by
  rw [PipelineManager.semanticErrors_eq_nil_iff, PipelineManager.semanticErrors_eq_nil_iff,
    h.distinct, h.declared, h.executed]

/-- Like descriptors request the same script. -/
theorem Alike.scriptRequest_eq (h : d.Alike d') (catalogue : List CatalogueEntry)
    (contract : MetricsContract) (runId : Int) :
    d'.scriptRequest catalogue contract runId = d.scriptRequest catalogue contract runId := by
  rw [scriptRequest, scriptRequest, executedTests, executedTests, h.info, h.executed, h.metrics]

/-- However a descriptor is rearranged, its script is the same, or there is none for the same
reason, and the judgement finds an error in all arrangements or in none. -/
theorem rearranged_alike (h : Relation.EqvGen Rearranges d d') (catalogue : List CatalogueEntry) :
    (∀ (template : Template) (s : ScriptSettings) (contract : MetricsContract) (runId : Int),
      renderScript template s (d'.scriptRequest catalogue contract runId) =
        renderScript template s (d.scriptRequest catalogue contract runId)) ∧
      (semanticErrors d' catalogue = [] ↔ semanticErrors d catalogue = []) := by
  have halike := alike_of_rearranges h
  refine ⟨fun template s contract runId => ?_, halike.semanticErrors_eq_nil_iff catalogue⟩
  rw [halike.scriptRequest_eq]

/-- A descriptor with two executed tests. -/
def pair : Descriptor where
  info := ⟨"testbed", "netapp", "ns", none⟩
  setup :=
    ⟨[],
      [⟨1, "ping", .developerDefined, "all", none, []⟩,
        ⟨2, "load", .developerDefined, "all", none, []⟩],
      none⟩
  execution := [⟨1, "all", [⟨1, none, [1, 2]⟩]⟩, ⟨2, "all", [⟨1, none, []⟩]⟩]

/-- A test that is not executed. -/
def idle : Testcase := ⟨3, "idle", .predefined, "all", none, []⟩

/-- The same tests under other references, and an idle test between them. -/
def shuffledPair : Descriptor where
  info := ⟨"testbed", "netapp", "ns", none⟩
  setup := ⟨[], [⟨1, "ping", .developerDefined, "all", none, []⟩, idle,
    ⟨2, "load", .developerDefined, "all", none, []⟩], none⟩
  execution := [⟨2, "all", [⟨1, none, [2]⟩]⟩, ⟨1, "all", [⟨1, none, [1, 1]⟩]⟩]

/-- The pair of tests is accepted and run as before with its sections shuffled. -/
theorem rearranged_alike_pair :
    Relation.EqvGen Rearranges pair shuffledPair ∧
      renderScript ⟨[]⟩ default (shuffledPair.scriptRequest [] default 1) =
        renderScript ⟨[]⟩ default (pair.scriptRequest [] default 1) ∧
      semanticErrors shuffledPair [] = [] := by
  let rest : List Batch := [⟨2, "all", [⟨1, none, []⟩]⟩, ⟨1, "all", [⟨1, none, [1]⟩]⟩]
  let swapped : List Batch := [⟨2, "all", [⟨1, none, []⟩]⟩, ⟨1, "all", [⟨1, none, [1, 2]⟩]⟩]
  let moved : List Batch := [⟨2, "all", [⟨1, none, [2]⟩]⟩, ⟨1, "all", [⟨1, none, [1]⟩]⟩]
  have hswapped : pair.Rearranges (pair.withExecution swapped) := .batches (.swap _ _ _)
  have hsource : InOneExecution (Adds 2) rest swapped :=
    .intro [_] [] ⟨.intro [] [] ⟨.kept 1 (.added 2 .nil)⟩⟩
  have htarget : InOneExecution (Adds 2) rest moved := .intro [] [_] ⟨.intro [] [] ⟨.added 2 .nil⟩⟩
  have hmoved : (pair.withExecution swapped).Rearranges (pair.withExecution moved) :=
    .move hsource htarget
  have hagain : InOneExecution (Adds 1) moved shuffledPair.execution :=
    .intro [_] [] ⟨.intro [] [] ⟨.kept 1 (.added 1 .nil)⟩⟩
  have hrepeated :
      (pair.withExecution moved).Rearranges (pair.withExecution shuffledPair.execution) :=
    .repetition (references_iff.mpr (by decide)) hagain
  have hinserted : Inserted [idle] pair.setup.testcases shuffledPair.setup.testcases :=
    .kept _ (.added _ (.kept _ .nil))
  have hdeclared : (pair.withExecution shuffledPair.execution).Rearranges shuffledPair := by
    refine .testcases hinserted (List.nodup_singleton _)
      (List.forall_mem_singleton.mpr ⟨by decide, ?_⟩)
    exact mt references_iff.mp (by decide)
  have h : Relation.EqvGen Rearranges pair shuffledPair :=
    .trans _ _ _ (.rel _ _ hswapped) (.trans _ _ _ (.rel _ _ hmoved)
      (.trans _ _ _ (.rel _ _ hrepeated) (.rel _ _ hdeclared)))
  obtain ⟨hscript, hjudged⟩ := rearranged_alike h []
  exact ⟨h, hscript ⟨[]⟩ default default 1, hjudged.mpr (by decide)⟩

end Descriptor
end PipelineManager
