import Mathlib.Data.List.TakeWhile
import Mathlib.Data.Prod.Lex
import PipelineManager.Catalogue.Import
import PipelineManager.Proofs.Catalogue.Row
import PipelineManager.Proofs.Document.Table
import PipelineManager.Proofs.Store.History
import PipelineManager.Proofs.Text.ByteOrder

/-!
# The catalogue of a store

The store holds the testbed that was stored last under each identifier, and the entry that was
stored last under each pair of a testbed and a test. `Deposits` lists what was stored in order,
whichever way it came: as a single row, or by an import of files, which may stop halfway.
-/

namespace PipelineManager

/-! ## What was stored -/

/-- What is done to a store: an operation, or an import of catalogue files. -/
inductive Store.Change where
  | operation (op : Store.Operation)
  | importCatalogue (testbeds tests : SourceFile)

/-- The store after a change. -/
def Store.change (s : Store) : Store.Change → Store
  | .operation op => s.perform op
  | .importCatalogue testbeds tests => (s.importCatalogue testbeds tests).1

/-- The fault of a file without contents that can be used: it cannot be read, or not be
understood. -/
def SourceFile.fault (file : SourceFile) (malformed : ImportFault) : ImportFault :=
  if file.text.isNone then .unreadable file.path else malformed

/-- The testbeds and tests that were stored, in order. -/
structure Deposits where
  testbeds : List Testbed := []
  tests : List CatalogueEntry := []

namespace Deposits

variable (L : Deposits)

/-- The testbed that was stored last under an identifier. -/
def testbed? (id : String) : Option Testbed := Table.last? Testbed.id id L.testbeds

/-- The entry that was stored last under a pair of a testbed and a test. -/
def test? (testbedId testId : String) : Option CatalogueEntry :=
  (L.tests.filter fun e => e.testbedId = testbedId ∧ e.testId = testId).getLast?

/-- Stores testbeds. -/
def withTestbeds (ts : List Testbed) : Deposits := { L with testbeds := L.testbeds ++ ts }

/-- Stores entries up to the first one of an unknown testbed. -/
def withTests (es : List CatalogueEntry) : Deposits :=
  { L with tests := L.tests ++ es.takeWhile fun e => (L.testbed? e.testbedId).isSome }

/-- What was stored after a change. -/
def change : Store.Change → Deposits
  | .operation (.putTestbed t) => L.withTestbeds [t]
  | .operation (.putTest e) => L.withTests [e]
  | .operation _ => L
  | .importCatalogue testbeds tests =>
    match testbeds.text.bind Testbed.ofYaml? with
    | none => L
    | some ts =>
      match tests.text.bind CatalogueEntry.ofYaml? with
      | none => L.withTestbeds ts
      | some es => (L.withTestbeds ts).withTests es

end Deposits

/-! ## What the store holds -/

/-- The key of a row: its testbed first, then its test. -/
def CatalogueRow.key (r : CatalogueRow) : String ×ₗ String := toLex (r.testbedId, r.testId)

/-- The stored testbeds are keyed by their ids. -/
theorem isKeyed_testbeds :
    Table.IsKeyed Testbed.id (fun a b => a.id = b.id) (fun a b => a.id < b.id) Testbed.renewed where
  same_iff a b := decide_eq_true_iff
  before_iff a b := decide_eq_true_iff
  renew_eq known new h := by
    rw [Testbed.renewed, ← h]

/-- The stored tests are keyed by their testbed and their id. -/
theorem isKeyed_tests :
    Table.IsKeyed CatalogueRow.key CatalogueRow.sameKey CatalogueRow.before
      CatalogueRow.renewed where
  same_iff a b := by
    simp [CatalogueRow.sameKey, CatalogueRow.key, Prod.ext_iff]
  before_iff a b := by
    simp [CatalogueRow.before, CatalogueRow.key, Prod.Lex.toLex_lt_toLex]
  renew_eq known new h := by
    obtain ⟨htestbed, htest⟩ := Prod.mk.inj (toLex.injective h)
    rw [CatalogueRow.renewed, ← htestbed, ← htest]

/-- Whether a store holds what was stored last, and nothing else. -/
structure Store.Holds (s : Store) (L : Deposits) : Prop where
  testbeds : Table.Keeps Testbed.id s.testbeds L.testbeds
  tests : Table.Keeps CatalogueRow.key s.tests (L.tests.map CatalogueEntry.toRow)

namespace Deposits

/-- The last row of a key is that of the last test deposited under it. -/
theorem last?_rows (L : Deposits) (testbedId testId : String) :
    Table.last? CatalogueRow.key (toLex (testbedId, testId)) (L.tests.map CatalogueEntry.toRow) =
      (L.test? testbedId testId).map CatalogueEntry.toRow := by
  have hkey :
    (fun e => decide ((CatalogueRow.key ∘ CatalogueEntry.toRow) e = toLex (testbedId, testId))) =
      fun e => decide (e.testbedId = testbedId ∧ e.testId = testId) := by
    funext e
    simp [CatalogueRow.key, CatalogueEntry.toRow, Prod.ext_iff]
  rw [Table.last?_map, Table.last?, hkey, test?]

/-- A test that is looked up has the key it is looked up by. -/
theorem key_of_test? {L : Deposits} {testbedId testId : String} {e : CatalogueEntry}
    (h : L.test? testbedId testId = some e) : e.testbedId = testbedId ∧ e.testId = testId := by
  have hmem := List.mem_of_getLast? h
  simpa using (List.mem_filter.mp hmem).2

/-- Testbeds are deposited one after the other. -/
theorem withTestbeds_cons (L : Deposits) (t : Testbed) (rest : List Testbed) :
    L.withTestbeds (t :: rest) = (L.withTestbeds [t]).withTestbeds rest := by
  simp [withTestbeds]

/-- Depositing no tests changes nothing. -/
theorem withTests_nil (L : Deposits) : L.withTests [] = L := by
  simp [withTests]

/-- The deposits with an entry stored last. -/
def withTest (L : Deposits) (e : CatalogueEntry) : Deposits := { L with tests := L.tests ++ [e] }

/-- Entries of known testbeds are stored one after the other. -/
theorem withTests_cons {L : Deposits} {e : CatalogueEntry} (h : (L.testbed? e.testbedId).isSome)
    (rest : List CatalogueEntry) : L.withTests (e :: rest) = (L.withTest e).withTests rest := by
  have htake : (e :: rest).takeWhile (fun e => (L.testbed? e.testbedId).isSome) =
      e :: rest.takeWhile fun e => (L.testbed? e.testbedId).isSome := List.takeWhile_cons_of_pos h
  rw [withTests, htake, List.append_cons]
  rfl

/-- Stores testbeds and entries that all have a testbed. -/
def withFiles (L : Deposits) (ts : List Testbed) (es : List CatalogueEntry) : Deposits where
  testbeds := L.testbeds ++ ts
  tests := L.tests ++ es

/-- Entries of known testbeds are all stored. -/
theorem withTests_of_known {L : Deposits} {ts : List Testbed} {es : List CatalogueEntry}
    (h : ∀ e ∈ es, ((L.withTestbeds ts).testbed? e.testbedId).isSome) :
    (L.withTestbeds ts).withTests es = L.withFiles ts es := by
  rw [withTests, List.takeWhile_eq_self_iff.mpr h]
  rfl

/-- What was stored last is the same when it is stored once more. -/
theorem testbed?_withFiles_again (L : Deposits) (ts : List Testbed) (es : List CatalogueEntry)
    (id : String) :
    ((L.withFiles ts es).withFiles ts es).testbed? id = (L.withFiles ts es).testbed? id :=
  Table.getLast?_filter_again _ L.testbeds ts

/-- Depositing files a second time changes no test that is looked up. -/
theorem test?_withFiles_again (L : Deposits) (ts : List Testbed) (es : List CatalogueEntry)
    (testbedId testId : String) :
    ((L.withFiles ts es).withFiles ts es).test? testbedId testId =
      (L.withFiles ts es).test? testbedId testId :=
  Table.getLast?_filter_again _ L.tests es

/-- Nothing is stored from an entry of an unknown testbed on. -/
theorem withTests_of_unknown {L : Deposits} {e : CatalogueEntry}
    (h : (L.testbed? e.testbedId).isSome = false) (rest : List CatalogueEntry) :
    L.withTests (e :: rest) = L := by
  simp [withTests, h]

end Deposits

namespace Store

variable {s : Store} {L : Deposits}

/-- The empty store holds what was never deposited. -/
theorem Holds.empty : Holds {} {} := ⟨Table.Keeps.nil, Table.Keeps.nil⟩

/-- A testbed is known by what was stored last. -/
theorem Holds.testbed?_eq (h : Holds s L) (id : String) : s.testbed? id = L.testbed? id :=
  h.testbeds.find? id

/-- A store has the testbeds that were deposited. -/
theorem Holds.hasTestbed_eq (h : Holds s L) (id : String) :
    s.hasTestbed id = (L.testbed? id).isSome := by
  rw [hasTestbed, h.testbed?_eq]

/-- Storing a testbed deposits it. -/
theorem Holds.putTestbed (h : Holds s L) (t : Testbed) :
    Holds (s.putTestbed t) (L.withTestbeds [t]) :=
  ⟨h.testbeds.upsert isKeyed_testbeds t, h.tests⟩

/-- Storing testbeds deposits them in order. -/
theorem Holds.putTestbeds (h : Holds s L) (ts : List Testbed) :
    Holds (s.putTestbeds ts) (L.withTestbeds ts) := by
  rw [Store.putTestbeds]
  induction ts generalizing s L with
  | nil => exact ⟨by simpa [Deposits.withTestbeds] using h.testbeds, h.tests⟩
  | cons t rest ih =>
    rw [Deposits.withTestbeds_cons]
    exact ih (h.putTestbed t)

/-- The store with an entry put into its table. -/
def withTest (s : Store) (e : CatalogueEntry) : Store :=
  { s with tests := Table.upsert CatalogueRow.sameKey CatalogueRow.before .renewed e.toRow s.tests }

/-- Storing a test deposits it. -/
theorem Holds.withTest (h : Holds s L) (e : CatalogueEntry) :
    Holds (s.withTest e) (L.withTest e) := by
  have hkeeps := h.tests.upsert isKeyed_tests e.toRow
  rw [← List.map_singleton, ← List.map_append] at hkeeps
  exact ⟨h.testbeds, hkeeps⟩

/-- An entry of a known testbed is stored, and any other one is refused. -/
theorem putTest_eq (s : Store) (e : CatalogueEntry) :
    s.putTest e = if s.hasTestbed e.testbedId then .ok (s.withTest e)
      else .error (.testNotStored e.testId e.testbedId) :=
  rfl

/-- A test is stored iff its testbed was deposited. -/
theorem Holds.putTest_eq (h : Holds s L) (e : CatalogueEntry) :
    s.putTest e = if (L.testbed? e.testbedId).isSome then .ok (s.withTest e)
      else .error (.testNotStored e.testId e.testbedId) := by
  rw [Store.putTest_eq, h.hasTestbed_eq]

/-- Entries are stored up to the first one of an unknown testbed, and an answer tells whether
there is none. -/
theorem Holds.putTests (h : Holds s L) (es : List CatalogueEntry) :
    Holds (s.putTests es).1 (L.withTests es) ∧
      ((s.putTests es).2 = .ok () ↔ ∀ e ∈ es, (L.testbed? e.testbedId).isSome) := by
  induction es generalizing s L with
  | nil =>
    rw [Deposits.withTests_nil]
    exact ⟨h, by simp [Store.putTests]⟩
  | cons e rest ih =>
    rw [Store.putTests, h.putTest_eq]
    by_cases hknown : (L.testbed? e.testbedId).isSome
    · rw [if_pos hknown, Deposits.withTests_cons hknown]
      obtain ⟨hholds, hall⟩ := ih (h.withTest e)
      refine ⟨hholds, hall.trans ?_⟩
      rw [List.forall_mem_cons]
      exact ⟨fun hrest => ⟨hknown, hrest⟩, fun hall => hall.2⟩
    · rw [if_neg hknown, Deposits.withTests_of_unknown (by simpa using hknown)]
      refine ⟨h, iff_of_false (by simp) ?_⟩
      exact fun hall => hknown (hall e List.mem_cons_self)

/-! ## What is read -/

/-- Rows that were written are read. -/
theorem readTests_of_rows {entries : List CatalogueEntry}
    (h : s.tests = entries.map CatalogueEntry.toRow) (testbedId : String) :
    s.readTests testbedId = .ok (entries.filter fun e => e.testbedId = testbedId) := by
  have hrows :
      s.testRows testbedId =
          (entries.filter fun e => e.testbedId = testbedId).map CatalogueEntry.toRow := by
    rw [testRows, h, List.filter_map]
    rfl
  have hread (read : CatalogueRow → Except StoreFault CatalogueEntry)
      (h : ∀ e, read e.toRow = .ok e) :
      read ∘ CatalogueEntry.toRow = fun e => pure (id e) := funext h
  rw [readTests, hrows, List.mapM_map, hread, List.mapM_pure, List.map_id]
  · rfl
  · intro e
    rw [e.entry?_toRow]

/-- All rows of a store were written for entries. -/
theorem Holds.exists_entries (h : Holds s L) : ∃ entries : List CatalogueEntry,
    s.tests = entries.map CatalogueEntry.toRow := by
  have hwritten : ∀ r ∈ s.tests, ∃ e : CatalogueEntry, e.toRow = r := by
    intro r hr
    have hlast := (h.tests.mem_iff r).mp hr
    have hmem : r ∈ L.tests.map CatalogueEntry.toRow :=
      List.mem_of_mem_filter (List.mem_of_getLast? hlast)
    obtain ⟨e, -, he⟩ := List.mem_map.mp hmem
    exact ⟨e, he⟩
  generalize s.tests = rows at hwritten
  induction rows with
  | nil => exact ⟨[], rfl⟩
  | cons r rest ih =>
    obtain ⟨e, rfl⟩ := hwritten r List.mem_cons_self
    obtain ⟨entries, rfl⟩ := ih fun r hr => hwritten r (List.mem_cons_of_mem _ hr)
    exact ⟨e :: entries, rfl⟩

/-- The tests of a testbed are the entries that were stored last, in the order of their
identifiers. -/
theorem Holds.readTests (h : Holds s L) (testbedId : String) :
    ∃ es, s.readTests testbedId = .ok es ∧ s.testsOf testbedId = es ∧
      (es.map fun e => Text.bytes e.testId).Pairwise (· < ·) ∧ ∀ e,
        e ∈ es ↔ L.test? testbedId e.testId = some e := by
  obtain ⟨entries, hentries⟩ := h.exists_entries
  have hread := readTests_of_rows hentries testbedId
  refine ⟨_, hread, by rw [testsOf, hread]; rfl, ?_, ?_⟩
  · have hordered := h.tests.ordered
    rw [hentries, List.pairwise_map] at hordered
    rw [List.pairwise_map]
    refine (hordered.filter _).imp_of_mem ?_
    intro a b ha hb hlt
    have ha : a.testbedId = testbedId := by simpa using (List.mem_filter.mp ha).2
    have hb : b.testbedId = testbedId := by simpa using (List.mem_filter.mp hb).2
    rw [← Text.lt_iff_bytes_lt]
    rcases Prod.Lex.toLex_lt_toLex.mp hlt with hbefore | ⟨-, hbefore⟩
    · have hsame : a.testbedId < b.testbedId := hbefore
      rw [ha, hb] at hsame
      exact absurd hsame (lt_irrefl _)
    · exact hbefore
  · intro e
    have hmem : e ∈ entries ↔ L.test? e.testbedId e.testId = some e := by
      have hrow := h.tests.mem_iff e.toRow
      have hkey : e.toRow.key = toLex (e.testbedId, e.testId) := rfl
      rw [hentries, List.mem_map_of_injective CatalogueEntry.toRow_injective, hkey,
        Deposits.last?_rows, Option.map_eq_some_iff] at hrow
      rw [hrow]
      constructor
      · rintro ⟨e', he', hsame⟩
        rwa [CatalogueEntry.toRow_injective hsame] at he'
      · exact fun he => ⟨e, he, rfl⟩
    rw [List.mem_filter, hmem]
    constructor
    · rintro ⟨he, htestbed⟩
      rwa [of_decide_eq_true htestbed] at he
    · intro he
      obtain ⟨htestbed, -⟩ := Deposits.key_of_test? he
      exact ⟨by rw [htestbed]; exact he, decide_eq_true htestbed⟩

/-! ## Imports -/

/-- What an import does with the contents of its files: it stops where a file cannot be read, else
it stores the testbeds and then the entries. -/
theorem importCatalogue_cases (s : Store) (testbeds tests : SourceFile) :
    (testbeds.text.bind Testbed.ofYaml? = none ∧
        s.importCatalogue testbeds tests = (s, .error (testbeds.fault .malformedTestbeds))) ∨
      ∃ ts, testbeds.text.bind Testbed.ofYaml? = some ts ∧
        ((tests.text.bind CatalogueEntry.ofYaml? = none ∧
            s.importCatalogue testbeds tests =
              (s.putTestbeds ts, .error (tests.fault .malformedTests))) ∨
          ∃ es, tests.text.bind CatalogueEntry.ofYaml? = some es ∧
            s.importCatalogue testbeds tests = (((s.putTestbeds ts).putTests es).1,
              ((s.putTestbeds ts).putTests es).2.map fun _ => (ts.length, es.length))) := by
  unfold importCatalogue importTests SourceFile.fault
  cases testbeds.text with
  | none => exact .inl ⟨rfl, rfl⟩
  | some text =>
    dsimp only [Option.bind_some]
    cases Testbed.ofYaml? text with
    | none => exact .inl ⟨rfl, rfl⟩
    | some ts =>
      refine .inr ⟨ts, rfl, ?_⟩
      cases tests.text with
      | none => exact .inl ⟨rfl, rfl⟩
      | some text =>
        dsimp only [Option.bind_some]
        cases CatalogueEntry.ofYaml? text with
        | none => exact .inl ⟨rfl, rfl⟩
        | some es =>
          refine .inr ⟨es, rfl, ?_⟩
          dsimp only
          rcases (s.putTestbeds ts).putTests es with ⟨s', _ | _⟩ <;> rfl

/-- What is kept when a testbed or a test is stored is kept by an import, wherever it stops. -/
theorem importCatalogue_invariant {holds : Store → Prop}
    (htestbed : ∀ s t, holds s → holds (s.putTestbed t))
    (htest : ∀ s e s', s.putTest e = .ok s' → holds s → holds s') {s : Store} (hs : holds s)
    (testbeds tests : SourceFile) : holds (s.importCatalogue testbeds tests).1 := by
  have hbeds (ts : List Testbed) : holds (s.putTestbeds ts) := by
    rw [putTestbeds]
    induction ts generalizing s with
    | nil => exact hs
    | cons t rest ih => exact ih (htestbed s t hs)
  have hentries (entries : List CatalogueEntry) : ∀ s, holds s → holds (s.putTests entries).1 := by
    induction entries with
    | nil => exact fun s hs => hs
    | cons e rest ih =>
      intro s hs
      rw [putTests]
      cases hput : s.putTest e with
      | error _ => exact hs
      | ok s' => exact ih s' (htest s e s' hput hs)
  rcases s.importCatalogue_cases testbeds tests with
    ⟨-, hstops⟩ | ⟨ts, -, ⟨-, hstops⟩ | ⟨es, -, hends⟩⟩
  · rw [hstops]
    exact hs
  · rw [hstops]
    exact hbeds ts
  · rw [hends]
    exact hentries es _ (hbeds ts)

/-- An import leads from reachable stores to reachable ones, also when it fails. -/
theorem Reachable.importCatalogue {s : Store} (h : s.Reachable) (testbeds tests : SourceFile) :
    (s.importCatalogue testbeds tests).1.Reachable := by
  refine importCatalogue_invariant (fun s t hs => hs.perform (.putTestbed t))
    (fun s e s' hput hs => ?_) h testbeds tests
  have hperformed := hs.perform (.putTest e)
  rw [Store.perform, hput] at hperformed
  exact hperformed

/-- An import deposits its files up to the first that is refused. -/
theorem Holds.importCatalogue (h : Holds s L) (testbeds tests : SourceFile) :
    Holds (s.importCatalogue testbeds tests).1 (L.change (.importCatalogue testbeds tests)) := by
  rcases s.importCatalogue_cases testbeds tests with ⟨hbeds, hstops⟩ |
      ⟨ts, hbeds, ⟨htests, hstops⟩ | ⟨es, htests, hends⟩⟩
  · simp only [hstops, Deposits.change, hbeds]
    exact h
  · simp only [hstops, Deposits.change, hbeds, htests]
    exact h.putTestbeds ts
  · simp only [hends, Deposits.change, hbeds, htests]
    exact ((h.putTestbeds ts).putTests es).1

/-- What a store keeps besides its catalogue is kept by an import. -/
theorem importCatalogue_rest (s : Store) (testbeds tests : SourceFile) :
    { (s.importCatalogue testbeds tests).1 with testbeds := s.testbeds, tests := s.tests } = s := by
  let kept (x : Store) : Prop := { x with testbeds := s.testbeds, tests := s.tests } = s
  show kept (s.importCatalogue testbeds tests).1
  apply importCatalogue_invariant
  · exact fun _ _ h => h
  · intro x e x' hput h
    unfold putTest at hput
    split at hput
    · obtain rfl := Except.ok.inj hput
      exact h
    · cases hput
  · rfl

/-- Two stores that differ in their catalogue at most are the same when what was stored last is. -/
theorem Holds.unique {s' : Store} {L' : Deposits} (h : Holds s L) (h' : Holds s' L')
    (hrest : { s' with testbeds := s.testbeds, tests := s.tests } = s)
    (htestbeds : ∀ id, L'.testbed? id = L.testbed? id)
    (htests : ∀ testbedId testId, L'.test? testbedId testId = L.test? testbedId testId) :
    s' = s := by
  have hbeds : s'.testbeds = s.testbeds := h'.testbeds.unique h.testbeds htestbeds
  have hrows : s'.tests = s.tests := by
    apply h'.tests.unique h.tests
    intro k
    obtain ⟨testbedId, testId⟩ := k
    exact (L'.last?_rows testbedId testId).trans
      (by rw [htests]; exact (L.last?_rows testbedId testId).symm)
  rw [← hrest, ← hbeds, ← hrows]

/-- Testbeds and entries are all stored when every entry has its testbed. -/
theorem Holds.putFiles (h : Holds s L) (ts : List Testbed) (es : List CatalogueEntry)
    (hknown : ∀ e ∈ es, ((L.withFiles ts es).testbed? e.testbedId).isSome) :
    ((s.putTestbeds ts).putTests es).2 = .ok () ∧
      Holds ((s.putTestbeds ts).putTests es).1 (L.withFiles ts es) := by
  obtain ⟨hholds, hall⟩ := (h.putTestbeds ts).putTests es
  rw [Deposits.withTests_of_known hknown] at hholds
  exact ⟨hall.mpr hknown, hholds⟩

/-- An import succeeds when both files are read and every entry finds its testbed. -/
theorem importCatalogue_eq_ok_iff {testbeds tests : SourceFile} {s' : Store} {counts : Nat × Nat} :
    s.importCatalogue testbeds tests = (s', .ok counts) ↔
      ∃ ts es, testbeds.text.bind Testbed.ofYaml? = some ts ∧
        tests.text.bind CatalogueEntry.ofYaml? = some es ∧
        (s.putTestbeds ts).putTests es = (s', .ok ()) ∧ counts = (ts.length, es.length) := by
  rcases s.importCatalogue_cases testbeds tests with ⟨hbeds, hstops⟩ |
      ⟨ts, hbeds, ⟨htests, hstops⟩ | ⟨es, htests, hends⟩⟩
  · simp [hstops, hbeds]
  · simp [hstops, htests]
  · rw [hends, hbeds, htests]
    constructor
    · intro himported
      obtain ⟨hstore, hcounts⟩ := Prod.mk.inj himported
      rcases hput : (s.putTestbeds ts).putTests es with ⟨_, e | _⟩ <;> rw [hput] at hstore hcounts
      · cases hcounts
      · exact ⟨ts, es, rfl, rfl, by rw [← hstore, hput], (Except.ok.inj hcounts).symm⟩
    · rintro ⟨ts', es', hts, hes, hput, rfl⟩
      obtain rfl := Option.some.inj hts
      obtain rfl := Option.some.inj hes
      rw [hput]
      rfl

/-- Files that were imported are imported again with the same answer, and nothing changes. -/
theorem Holds.importCatalogue_again (h : Holds s L) {testbeds tests : SourceFile} {s' : Store}
    {counts : Nat × Nat} (himported : s.importCatalogue testbeds tests = (s', .ok counts)) :
    s'.importCatalogue testbeds tests = (s', .ok counts) := by
  obtain ⟨ts, es, hbeds, htests, hput, rfl⟩ := importCatalogue_eq_ok_iff.mp himported
  have hknown : ∀ e ∈ es, ((L.withFiles ts es).testbed? e.testbedId).isSome :=
    ((h.putTestbeds ts).putTests es).2.mp (congrArg Prod.snd hput)
  obtain ⟨-, hholds⟩ := h.putFiles ts es hknown
  rw [hput] at hholds
  obtain ⟨hdone, hagain⟩ :=
    hholds.putFiles ts es (by simpa only [L.testbed?_withFiles_again ts es] using hknown)
  obtain ⟨s'', hs''⟩ : ∃ s'', (s'.putTestbeds ts).putTests es = (s'', .ok ()) :=
    ⟨_, Prod.ext rfl hdone⟩
  have hsecond := importCatalogue_eq_ok_iff.mpr ⟨ts, es, hbeds, htests, hs'', rfl⟩
  have hrest := importCatalogue_rest s' testbeds tests
  rw [hs''] at hagain
  rw [hsecond] at hrest
  have hsame : s'' = s' :=
    hholds.unique hagain hrest (L.testbed?_withFiles_again ts es) (L.test?_withFiles_again ts es)
  rw [hsecond, hsame]

/-! ## Changes -/

/-- Operations that store no testbed and no test leave the catalogue as it is. -/
theorem catalogue_perform (s : Store) {op : Operation} (htestbed : ∀ t, op ≠ .putTestbed t)
    (htest : ∀ e, op ≠ .putTest e) :
    (s.perform op).testbeds = s.testbeds ∧ (s.perform op).tests = s.tests := by
  cases op with
  | putTestbed t => exact absurd rfl (htestbed t)
  | putTest e => exact absurd rfl (htest e)
  | addAgent testbedId url username password =>
    simp only [perform, addAgent]
    split
    · exact ⟨rfl, rfl⟩
    · split <;> exact ⟨rfl, rfl⟩
  | createRun new now =>
    simp only [perform, createRun]
    split <;> exact ⟨rfl, rfl⟩
  | setRunAgent id agentId =>
    simp only [perform, setRunAgent]
    split <;> exact ⟨rfl, rfl⟩
  | appendStatus q =>
    rw [perform]
    rcases s.request_store q with hsame | ⟨-, row, -, hrow⟩
    · rw [hsame]
      exact ⟨rfl, rfl⟩
    · rw [hrow]
      exact ⟨rfl, rfl⟩
  | addRunTest runId new =>
    simp only [perform, addRunTest]
    split <;> exact ⟨rfl, rfl⟩
  | _ => exact ⟨rfl, rfl⟩

/-- An operation that does not concern the catalogue keeps what it holds. -/
theorem Holds.of_catalogue_eq {s' : Store} (h : Holds s L)
    (hsame : s'.testbeds = s.testbeds ∧ s'.tests = s.tests) :
    Holds s' L :=
  ⟨by rw [hsame.1]; exact h.testbeds, by rw [hsame.2]; exact h.tests⟩

/-- A change of the catalogue deposits what it brings. -/
theorem Holds.change (h : Holds s L) (c : Change) : Holds (s.change c) (L.change c) := by
  cases c with
  | importCatalogue testbeds tests => exact h.importCatalogue testbeds tests
  | operation op =>
    cases op with
    | putTestbed t => exact h.putTestbed t
    | putTest e =>
      have hsame : s.perform (.putTest e) = (s.putTests [e]).1 := by
        simp only [perform, Store.putTests]
        cases s.putTest e <;> rfl
      have hholds := (h.putTests [e]).1
      rwa [← hsame] at hholds
    | _ => exact h.of_catalogue_eq (s.catalogue_perform (by simp) (by simp))

/-- Whether a store answers with what was stored last. -/
structure AnswersLast (s : Store) (L : Deposits) : Prop where
  testbed : ∀ id, s.testbed? id = L.testbed? id
  tests : ∀ testbedId, ∃ es, s.readTests testbedId = .ok es ∧ s.testsOf testbedId = es ∧
    (es.map fun e => Text.bytes e.testId).Pairwise (· < ·) ∧ ∀ e,
      e ∈ es ↔ L.test? testbedId e.testId = some e
  refused : ∀ e : CatalogueEntry, L.testbed? e.testbedId = none →
    s.putTest e = .error (.testNotStored e.testId e.testbedId) ∧
      s.change (.operation (.putTest e)) = s
  again : ∀ testbeds tests s' counts, s.importCatalogue testbeds tests = (s', .ok counts) →
    s'.importCatalogue testbeds tests = (s', .ok counts)

/-- Whatever is done to a store that is empty at first, it answers with what was stored last: the
testbed of an identifier, and the tests of a testbed in the order of the bytes of their
identifiers. A test of an unknown testbed is refused, and files that were imported can be imported
again without an effect. -/
theorem catalogue_is_last_stored (changes : List Change) :
    AnswersLast (changes.foldl Store.change {}) (changes.foldl Deposits.change {}) := by
  have hholds : ∀ (s : Store) (L : Deposits), Holds s L →
      Holds (changes.foldl Store.change s) (changes.foldl Deposits.change L) := by
    induction changes with
    | nil => exact fun _ _ h => h
    | cons c rest ih => exact fun s L h => ih _ _ (h.change c)
  have h := hholds {} {} Holds.empty
  refine ⟨h.testbed?_eq, h.readTests, ?_,
    fun _ _ _ _ himported => h.importCatalogue_again himported⟩
  intro e hunknown
  have hrefused := h.putTest_eq e
  rw [hunknown] at hrefused
  refine ⟨hrefused, ?_⟩
  rw [Store.change, perform, hrefused]
  rfl

end Store
end PipelineManager
