import PipelineManager.Proofs.Store.Catalogue

/-!
# Imports that stop

An import is a sequence of separate writes with checks between them, and nothing is taken back where
a check fails. So an import that fails has stored what stands in front of the place where it
stopped: nothing if the testbeds cannot be read, the testbeds if the tests cannot be, and otherwise
the testbeds and the tests in front of the first one of an unknown testbed.
-/

namespace PipelineManager
namespace Store

variable {s s' : Store} {ts : List Testbed} {es : List CatalogueEntry} {e : ImportFault}
  {testbeds tests : SourceFile}

/-! ## Testbeds -/

/-- Testbeds that are stored are found by what was stored last, and all others as before. -/
theorem testbed?_putTestbeds (s : Store) (ts : List Testbed) (id : String) :
    (s.putTestbeds ts).testbed? id = (Table.last? Testbed.id id ts).or (s.testbed? id) := by
  have htable : (s.putTestbeds ts).testbeds =
      ts.foldl
        (fun table t =>
          Table.upsert (fun a b => a.id = b.id) (fun a b => a.id < b.id) .renewed t table)
        s.testbeds := by
    rw [putTestbeds]
    induction ts generalizing s with
    | nil => rfl
    | cons t rest ih => exact ih (s.putTestbed t)
  rw [testbed?, htable]
  exact Table.find?_foldl_upsert isKeyed_testbeds ts s.testbeds id

/-- There is a last testbed of an id iff the id is among those listed. -/
theorem isSome_last?_iff {id : String} :
    (Table.last? Testbed.id id ts).isSome = true ↔ id ∈ ts.map (·.id) := by
  rw [Table.last?, Option.isSome_iff_ne_none, Ne, List.getLast?_eq_none_iff, List.filter_eq_nil_iff]
  simp

/-- The testbeds that are known then are those of before and those that were stored. -/
theorem hasTestbed_putTestbeds_iff {id : String} :
    (s.putTestbeds ts).hasTestbed id = true ↔ id ∈ ts.map (·.id) ∨ s.hasTestbed id = true := by
  rw [hasTestbed, testbed?_putTestbeds, Option.isSome_or, Bool.or_eq_true, isSome_last?_iff,
    hasTestbed]

/-- Storing testbeds leaves the tests. -/
theorem tests_putTestbeds (s : Store) (ts : List Testbed) : (s.putTestbeds ts).tests = s.tests := by
  rw [putTestbeds]
  induction ts generalizing s with
  | nil => rfl
  | cons t rest ih => exact ih (s.putTestbed t)

/-! ## Tests -/

/-- Storing tests leaves the testbeds alone. -/
theorem testbeds_putTests (s : Store) (es : List CatalogueEntry) :
    (s.putTests es).1.testbeds = s.testbeds := by
  induction es generalizing s with
  | nil => rfl
  | cons entry rest ih =>
    rw [putTests, putTest_eq]
    cases s.hasTestbed entry.testbedId with
    | true => exact ih (s.withTest entry)
    | false => rfl

/-- Tests of known testbeds are found by what was stored last, and all others as before. -/
theorem find?_putTests (h : ∀ entry ∈ es, s.hasTestbed entry.testbedId = true)
    (k : String ×ₗ String) :
    ((s.putTests es).1.tests.find? fun r => r.key = k) =
      (Table.last? CatalogueRow.key k (es.map CatalogueEntry.toRow)).or
        (s.tests.find? fun r => r.key = k) := by
  have htable : (s.putTests es).1.tests = (es.map CatalogueEntry.toRow).foldl
      (fun table r => Table.upsert CatalogueRow.sameKey CatalogueRow.before .renewed r table)
          s.tests := by
    induction es generalizing s with
    | nil => rfl
    | cons entry rest ih =>
      obtain ⟨hknown, hrest⟩ := List.forall_mem_cons.mp h
      rw [putTests, putTest_eq, if_pos hknown]
      exact ih (s := s.withTest entry) hrest
  rw [htable]
  exact Table.find?_foldl_upsert isKeyed_tests _ s.tests k

/-- Tests that are not all stored are stored up to the first one of an unknown testbed. -/
theorem exists_of_putTests_eq_error (h : s.putTests es = (s', .error e)) : ∃ stored entry rest,
    es = stored ++ entry :: rest ∧ (∀ x ∈ stored, s.hasTestbed x.testbedId = true) ∧
      s.hasTestbed entry.testbedId = false ∧ e = .unknownTestbed entry.testId entry.testbedId ∧
      s.putTests stored = (s', .ok ()) := by
  induction es generalizing s with
  | nil => cases (Prod.mk.inj h).2
  | cons entry rest ih =>
    rw [putTests, putTest_eq] at h
    cases hknown : s.hasTestbed entry.testbedId with
    | true =>
      rw [hknown, if_pos rfl] at h
      obtain ⟨stored, unknown, later, rfl, hstored, hunknown, he, hput⟩ := ih h
      refine ⟨entry :: stored, unknown, later, rfl, List.forall_mem_cons.mpr ⟨hknown, hstored⟩,
        hunknown, he, ?_⟩
      rw [putTests, putTest_eq, if_pos hknown]
      exact hput
    | false =>
      rw [hknown, if_neg (by decide)] at h
      obtain ⟨rfl, he⟩ := Prod.mk.inj h
      exact ⟨[], entry, rest, rfl, List.forall_mem_nil _, hknown, (Except.error.inj he).symm, rfl⟩

/-- A count of what was stored does not hide a failure. -/
theorem eq_error_of_map_eq_error {outcome : Store × Except ImportFault Unit}
    {count : Unit → Nat × Nat} (h : (outcome.1, outcome.2.map count) = (s', .error e)) :
    outcome = (s', .error e) := by
  obtain ⟨hstore, he⟩ := Prod.mk.inj h
  rcases outcome with ⟨s'', e' | _⟩
  · exact Prod.ext hstore (congrArg Except.error (Except.error.inj he))
  · cases he

/-! ## Where an import stops -/

/-- Whether an import that fails has left a store as it should. If the testbeds cannot be read, it
is the same as before. Otherwise all of them are stored, and the tests are the same as before if
they cannot be read, or have those in front of the first one of an unknown testbed stored. Nothing
else changes. -/
structure StopsHalfway (s : Store) (testbeds tests : SourceFile) (s' : Store)
    (e : ImportFault) : Prop where
  unread : testbeds.text.bind Testbed.ofYaml? = none →
    s' = s ∧ e = testbeds.fault .malformedTestbeds
  untested : ∀ ts,
    testbeds.text.bind Testbed.ofYaml? = some ts → tests.text.bind CatalogueEntry.ofYaml? = none →
    s' = s.putTestbeds ts ∧ s'.tests = s.tests ∧ e = tests.fault .malformedTests
  interrupted : ∀ ts es, testbeds.text.bind Testbed.ofYaml? = some ts →
    tests.text.bind CatalogueEntry.ofYaml? = some es → ∃ stored entry rest,
      es = stored ++ entry :: rest ∧
      (∀ x ∈ stored, x.testbedId ∈ ts.map (·.id) ∨ s.hasTestbed x.testbedId = true) ∧
      ¬ (entry.testbedId ∈ ts.map (·.id) ∨ s.hasTestbed entry.testbedId = true) ∧
      e = .unknownTestbed entry.testId entry.testbedId ∧
      (s.putTestbeds ts).putTests stored = (s', .ok ()) ∧
      ∀ k, (s'.tests.find? fun r => r.key = k) =
        (Table.last? CatalogueRow.key k (stored.map CatalogueEntry.toRow)).or
          (s.tests.find? fun r => r.key = k)
  found : ∀ ts, testbeds.text.bind Testbed.ofYaml? = some ts → ∀ id,
    s'.testbed? id = (Table.last? Testbed.id id ts).or (s.testbed? id)
  rest : { s' with testbeds := s.testbeds, tests := s.tests } = s

/-- An import that fails keeps what stands in front of the place where it stops, whatever the store
has held before. -/
theorem stopsHalfway_of_importCatalogue_eq_error
    (h : s.importCatalogue testbeds tests = (s', .error e)) :
    s.StopsHalfway testbeds tests s' e := by
  have hrest := s.importCatalogue_rest testbeds tests
  rw [h] at hrest
  rcases s.importCatalogue_cases testbeds tests with
    ⟨hbeds, hstops⟩ | ⟨ts, hbeds, ⟨htests, hstops⟩ | ⟨es, htests, hends⟩⟩
  · obtain ⟨rfl, he⟩ := Prod.mk.inj (h.symm.trans hstops)
    exact {
      unread := fun _ => ⟨rfl, Except.error.inj he⟩
      untested := fun _ hts => by simp [hbeds] at hts
      interrupted := fun _ _ hts => by simp [hbeds] at hts
      found := fun _ hts => by simp [hbeds] at hts
      rest := hrest }
  · obtain ⟨rfl, he⟩ := Prod.mk.inj (h.symm.trans hstops)
    refine ⟨fun hno => by simp [hbeds] at hno, ?_, fun _ _ _ hes => by simp [htests] at hes, ?_,
      hrest⟩ <;> intro ts' hts
    all_goals obtain rfl := Option.some.inj (hbeds.symm.trans hts)
    · exact fun _ => ⟨rfl, tests_putTestbeds s ts, Except.error.inj he⟩
    · exact testbed?_putTestbeds s ts
  · have hput := eq_error_of_map_eq_error (hends.symm.trans h)
    refine ⟨fun hno => by simp [hbeds] at hno, fun _ _ hno => by simp [htests] at hno, ?_, ?_,
      hrest⟩
    · intro ts' es' hts hes
      obtain rfl := Option.some.inj (hbeds.symm.trans hts)
      obtain rfl := Option.some.inj (htests.symm.trans hes)
      obtain ⟨stored, entry, later, rfl, hstored, hunknown, he, hput⟩ :=
        exists_of_putTests_eq_error hput
      refine ⟨stored, entry, later, rfl, fun x hx => hasTestbed_putTestbeds_iff.mp (hstored x hx),
        ?_, he, hput, ?_⟩
      · rw [← hasTestbed_putTestbeds_iff, hunknown]
        decide
      · intro k
        have hfound := find?_putTests hstored k
        rwa [hput, tests_putTestbeds] at hfound
    · intro ts' hts id
      obtain rfl := Option.some.inj (hbeds.symm.trans hts)
      have hstored := testbeds_putTests (s.putTestbeds ts) es
      rw [hput] at hstored
      rw [← testbed?_putTestbeds, testbed?, hstored, testbed?]

/-! ## A file with an unknown testbed -/

/-- A file of one testbed. -/
def oneTestbed : SourceFile := ⟨"testbeds.yaml", some "testbeds: \x7btb: \x7bname: T\x7d\x7d"⟩

/-- A file of a test of that testbed and, behind it, one of another. -/
def strayTest : SourceFile := ⟨"tests.yaml", some
  "tests: \x7btb: \x7ba: \x7bid: a, name: a, ftp_base_location: l, test_filename: f\x7d\x7d,
    zz: \x7bq: \x7bid: q, name: q, ftp_base_location: l, test_filename: f\x7d\x7d\x7d"⟩

/-- The store that the import of both leaves. -/
def strayStore : Store where
  testbeds := [⟨"tb", "T", ""⟩]
  tests :=
    [CatalogueEntry.toRow
      { testbedId := "tb", testId := "a", name := "a", location := "l", filename := "f" }]

/-- The import of a stray test stops after its testbed. -/
theorem importCatalogue_stray :
    ({} : Store).importCatalogue oneTestbed strayTest =
      (strayStore, .error (.unknownTestbed "q" "zz")) := by
  decide +kernel

/-- The import of the stray test fails, and has stored the testbed and the test in front. -/
theorem stopsHalfway_stray :
    ({} : Store).importCatalogue oneTestbed strayTest =
      (strayStore, .error (.unknownTestbed "q" "zz")) ∧
      ({} : Store).StopsHalfway oneTestbed strayTest strayStore (.unknownTestbed "q" "zz") :=
  ⟨importCatalogue_stray, stopsHalfway_of_importCatalogue_eq_error importCatalogue_stray⟩

/-- An import is not all or nothing: it may fail when testbeds and tests were stored. -/
theorem importCatalogue_not_atomic :
    ¬ ∀ (s : Store) (testbeds tests : SourceFile) (e : ImportFault),
    (s.importCatalogue testbeds tests).2 = .error e →
      (s.importCatalogue testbeds tests).1.testbeds = s.testbeds ∧
        (s.importCatalogue testbeds tests).1.tests = s.tests := by
  intro h
  obtain ⟨hbeds, -⟩ :=
    h {} oneTestbed strayTest (.unknownTestbed "q" "zz") (congrArg Prod.snd importCatalogue_stray)
  rw [importCatalogue_stray] at hbeds
  cases hbeds

end Store
end PipelineManager
