import PipelineManager.CommandLine.Run
import PipelineManager.Proofs.Store.Catalogue

/-!
# Checks without a store

The command line judges a descriptor by the entries of the tests file, in the order of their keys
there. A submission judges it by the entries of the store, of which there is one for each
identifier of a test, in the order of these. Both take the first entry of a name, so they agree
exactly when, for each name, these two entries find the same wrong with every test.
-/

namespace PipelineManager

/-! ## The two catalogues -/

/-- A catalogue file of a tree. -/
def FileTree.source (t : FileTree) (path : String) : SourceFile := ⟨path, t.readText path⟩

/-- The catalogue of a testbed as the command line reads it from a tree. -/
def CommandLine.catalogueIn (t : FileTree) (config : Config) (testbedId : String) :
    Except CommandLine.Fault (List CatalogueEntry) :=
  (((readTests FileTree.access config testbedId).run.run {}).run t).1.1

/-- A file of tests that can be read gives its entries of the testbed, in the order of the file. -/
theorem CommandLine.catalogueIn_eq {t : FileTree} {config : Config} {es : List CatalogueEntry}
    (h : (t.readText config.testsPath).bind CatalogueEntry.ofYaml? = some es) (testbedId : String) :
    catalogueIn t config testbedId = .ok (es.filter fun e => e.testbedId = testbedId) := by
  obtain ⟨text, htext, hes⟩ := Option.bind_eq_some_iff.mp h
  have hread : catalogueIn t config testbedId =
      ((((orFail (t.readText config.testsPath) (.testsUnreadable config.testsPath) : Shell
        (StateM FileTree) String) >>=
        fun text => orFail (CatalogueEntry.ofYaml? text) .testsMalformed >>= fun entries =>
          return entries.filter fun e => e.testbedId = testbedId).run.run {}).run t).1.1 := rfl
  rw [hread, htext]
  simp only [orFail, pure_bind, hes]
  rfl

/-- Whether an entry is the last one of its identifier, so that a store that got all entries in
order keeps it. -/
def CatalogueEntry.IsKept (entries : List CatalogueEntry) (e : CatalogueEntry) : Prop :=
  (entries.filter fun x => x.testId = e.testId).getLast? = some e

/-- Whether an entry is the first one of a name among those that are kept, in the order of their
identifiers. -/
structure CatalogueEntry.IsFirstKept (entries : List CatalogueEntry) (name : String)
    (e : CatalogueEntry) : Prop where
  named : e.name = name
  kept : e.IsKept entries
  first : ∀ x : CatalogueEntry, x.IsKept entries → x.name = name → x = e ∨ e.testId < x.testId

/-- An entry that is kept is one of the entries. -/
theorem CatalogueEntry.IsKept.mem {entries : List CatalogueEntry} {e : CatalogueEntry}
    (h : e.IsKept entries) :
    e ∈ entries :=
  List.mem_of_mem_filter (List.mem_of_getLast? h)

/-- The entry that a test is matched with is the least of its name when the entries are ordered. -/
theorem entryNamed?_eq_some_iff {entries : List CatalogueEntry}
    (h : entries.Pairwise fun a b => a.testId < b.testId) (name : String) (e : CatalogueEntry) :
    entryNamed? entries name = some e ↔
      e ∈ entries ∧ e.name = name ∧ ∀ x ∈ entries, x.name = name → x = e ∨ e.testId < x.testId := by
  rw [entryNamed?]
  induction entries with
  | nil => simp
  | cons a rest ih =>
    obtain ⟨ha, hrest⟩ := List.pairwise_cons.mp h
    by_cases hname : a.name = name
    · rw [List.find?_cons_of_pos (by simpa using hname), Option.some_inj]
      constructor
      · rintro rfl
        refine ⟨List.mem_cons_self, hname, fun x hx _ => ?_⟩
        rcases List.mem_cons.mp hx with rfl | hx
        · exact .inl rfl
        · exact .inr (ha x hx)
      · rintro ⟨he, -, hfirst⟩
        rcases hfirst a List.mem_cons_self hname with heq | hlt
        · exact heq
        · rcases List.mem_cons.mp he with rfl | he
          · rfl
          · exact absurd (ha e he) (lt_asymm hlt)
    · rw [List.find?_cons_of_neg (by simpa using hname), ih hrest]
      constructor
      · rintro ⟨he, hnamed, hfirst⟩
        refine ⟨List.mem_cons_of_mem a he, hnamed, ?_⟩
        exact List.forall_mem_cons.mpr ⟨fun hnamed => absurd hnamed hname, hfirst⟩
      · rintro ⟨he, hnamed, hfirst⟩
        refine ⟨?_, hnamed, (List.forall_mem_cons.mp hfirst).2⟩
        rcases List.mem_cons.mp he with rfl | he
        · exact absurd hnamed hname
        · exact he

/-- What a store that was empty tells of a testbed after an import: the entries of the file
that are kept. -/
theorem Store.readTests_imported {testbeds tests : SourceFile} {s : Store} {counts : Nat × Nat}
    (h : ({} : Store).importCatalogue testbeds tests = (s, .ok counts)) (testbedId : String) :
    ∃ es online,
      tests.text.bind CatalogueEntry.ofYaml? = some es ∧ s.readTests testbedId = .ok online ∧
      (online.Pairwise fun a b => a.testId < b.testId) ∧
      ∀ e, e ∈ online ↔ e.IsKept (es.filter fun e => e.testbedId = testbedId) := by
  obtain ⟨ts, es, -, htests, hput, -⟩ := importCatalogue_eq_ok_iff.mp h
  obtain ⟨hholds, hall⟩ := (Holds.empty.putTestbeds ts).putTests es
  rw [Deposits.withTests_of_known (hall.mp (congrArg Prod.snd hput)), hput] at hholds
  obtain ⟨online, hread, -, hordered, hmem⟩ := hholds.readTests testbedId
  refine ⟨es, online, htests, hread, ?_, fun e => ?_⟩
  · rw [List.pairwise_map] at hordered
    exact hordered.imp (Text.lt_iff_bytes_lt _ _).mpr
  · have hkey :
      (fun x : CatalogueEntry => decide (x.testId = e.testId) && decide (x.testbedId = testbedId)) =
        fun x => decide (x.testbedId = testbedId ∧ x.testId = e.testId) := by
      funext x
      rw [Bool.and_comm, Bool.decide_and]
    rw [hmem, CatalogueEntry.IsKept, List.filter_filter, hkey]
    rfl

/-! ## What the catalogues find -/

/-- Whether two entries find the same wrong with every test of a name. -/
def CatalogueEntry.FindsAlike (name : String) (a e : CatalogueEntry) : Prop :=
  ∀ t : Testcase,
    t.name = name → a.vars.flatMap (variableErrors t) = e.vars.flatMap (variableErrors t)

/-- A descriptor that executes one test. -/
def Testcase.alone (t : Testcase) (testbedId : String) : Descriptor where
  info := ⟨testbedId, "app", "net", none⟩
  setup := ⟨[], [t], none⟩
  execution := [⟨1, "all", [⟨1, none, [t.id]⟩]⟩]

/-- A descriptor with one test has the errors of the test. -/
theorem Testcase.semanticErrors_alone (t : Testcase) (testbedId : String)
    (catalogue : List CatalogueEntry) :
    semanticErrors (t.alone testbedId) catalogue = testErrors catalogue t := by
  have hduplicate : duplicateErrors (t.alone testbedId) = [] := rfl
  have hundeclared : undeclaredErrors (t.alone testbedId) = [] := by
    simp [undeclaredErrors, Descriptor.declaredIds, alone]
  have hexecuted : (t.alone testbedId).executed = [t] := by
    simp [Descriptor.executed, Descriptor.referencedIds, alone]
  rw [semanticErrors, hduplicate, hundeclared, hexecuted, List.flatMap_singleton]
  rfl

/-- A test of the catalogue is judged by the variables of the entry of its name. -/
theorem testErrors_of_entry {catalogue : List CatalogueEntry} {e : CatalogueEntry} {t : Testcase}
    (h : entryNamed? catalogue t.name = some e) :
    testErrors catalogue { t with kind := .predefined } = e.vars.flatMap (variableErrors t) := by
  simp only [testErrors, h]
  rfl

/-- A test that the catalogue lacks is reported as unknown, and as nothing else. -/
theorem testErrors_of_no_entry {catalogue : List CatalogueEntry} {t : Testcase}
    (h : entryNamed? catalogue t.name = none) :
    testErrors catalogue { t with kind := .predefined } = [.unknownTest t.name] := by
  simp only [testErrors, h]

/-- A variable never objects that the test is unknown. -/
theorem unknownTest_notMem_variableErrors (t : Testcase) (vars : List Variable) (name : String) :
    .unknownTest name ∉ vars.flatMap (variableErrors t) := by
  intro hmem
  obtain ⟨v, -, hv⟩ := List.mem_flatMap.mp hmem
  unfold variableErrors at hv
  split at hv <;> split at hv <;> simp at hv

/-- Two catalogues find the same wrong with every descriptor exactly when the entries that they
match the tests of a name with do. -/
theorem semanticErrors_agree_iff {offline online : List CatalogueEntry} (testbedId : String)
    (hnone : ∀ name, entryNamed? offline name = none → entryNamed? online name = none) :
    (∀ d : Descriptor,
      d.info.testbedId = testbedId → semanticErrors d offline = semanticErrors d online) ↔
      ∀ name a, entryNamed? offline name = some a → ∃ e,
        entryNamed? online name = some e ∧ a.FindsAlike name e := by
  constructor
  · intro hagree name a ha
    have htest (t : Testcase) : testErrors offline t = testErrors online t := by
      have halone := hagree (t.alone testbedId) rfl
      rwa [t.semanticErrors_alone, t.semanticErrors_alone] at halone
    have hpredefined (t : Testcase) (hname : t.name = name) :
        a.vars.flatMap (variableErrors t) = testErrors online { t with kind := .predefined } := by
      rw [← htest, testErrors_of_entry (hname ▸ ha)]
    cases he : entryNamed? online name with
    | none =>
      let t : Testcase := ⟨1, name, .predefined, "", none, []⟩
      have hunknown : a.vars.flatMap (variableErrors t) = [.unknownTest name] := by
        rw [hpredefined t rfl, testErrors_of_no_entry he]
      exact absurd (hunknown ▸ List.mem_singleton_self _)
        (unknownTest_notMem_variableErrors t a.vars name)
    | some e =>
      refine ⟨e, rfl, fun t hname => ?_⟩
      rw [hpredefined t hname, testErrors_of_entry (hname ▸ he)]
  · intro hfinds d _
    have htest : testErrors offline = testErrors online := by
      funext t
      rw [testErrors, testErrors]
      cases t.kind with
      | developerDefined => rfl
      | predefined =>
        cases ha : entryNamed? offline t.name with
        | none => rw [hnone t.name ha]
        | some a =>
          obtain ⟨e, he, halike⟩ := hfinds t.name a ha
          rw [he]
          exact halike t rfl
    rw [semanticErrors, semanticErrors, htest]

namespace CommandLine

/-- The import of the configured files into an empty store. -/
def freshImport (t : FileTree) (config : Config) : Store × Except ImportFault (Nat × Nat) :=
  ({} : Store).importCatalogue (t.source config.testbedsPath) (t.source config.testsPath)

/-- After an import into an empty store, the command line and a submission find the same wrong with
every descriptor of a testbed exactly when, for each name, the first entry in the order of the keys
of the file and the first kept one in the order of the identifiers find the same wrong with every
test of that name. -/
theorem offlineCheck_agrees_iff {t : FileTree} {config : Config} {s : Store} {counts : Nat × Nat}
    (h : freshImport t config = (s, .ok counts)) (testbedId : String) :
    ∃ offline online,
      catalogueIn t config testbedId = .ok offline ∧ s.readTests testbedId = .ok online ∧
      ((∀ d : Descriptor,
        d.info.testbedId = testbedId → semanticErrors d offline = semanticErrors d online) ↔
        ∀ name a, entryNamed? offline name = some a → ∃ e,
          e.IsFirstKept offline name ∧ a.FindsAlike name e) := by
  obtain ⟨es, online, htests, hread, hordered, hkept⟩ := Store.readTests_imported h testbedId
  refine ⟨_, online, catalogueIn_eq htests testbedId, hread, ?_⟩
  set offline := es.filter fun e => e.testbedId = testbedId
  have hfirst (name : String) (e : CatalogueEntry) : entryNamed? online name = some e ↔
      e.IsFirstKept offline name := by
    rw [entryNamed?_eq_some_iff hordered]
    simp only [hkept]
    constructor
    · exact fun ⟨hkept, hnamed, hleast⟩ => ⟨hnamed, hkept, hleast⟩
    · exact fun ⟨hnamed, hkept, hleast⟩ => ⟨hkept, hnamed, hleast⟩
  have hnone (name : String) (hno : entryNamed? offline name = none) :
      entryNamed? online name = none := by
    rw [entryNamed?, List.find?_eq_none] at hno ⊢
    exact fun e he => hno e ((hkept e).mp he).mem
  rw [semanticErrors_agree_iff testbedId hnone]
  simp only [hfirst]

/-- A tree with a file for a testbed and one for its tests. -/
def catalogueTree (tests : String) : FileTree :=
  (({ directories := [[]] } : FileTree).withText "testbeds.yaml"
    "testbeds: {tb: {name: T}}").withText "tests.yaml" tests

/-- The configuration that names these files. -/
def catalogueConfig : Config := { testbedsPath := "testbeds.yaml", testsPath := "tests.yaml" }

/-- The testbed of these files. -/
def catalogueTestbed : Testbed := ⟨"tb", "T", ""⟩

/-- An entry of that testbed. -/
def plainEntry (testId name : String) : CatalogueEntry where
  testbedId := "tb"
  testId
  name
  location := "l"
  filename := "f"

/-- A store that holds this testbed and some of its tests. -/
def catalogueStore (entries : List CatalogueEntry) : Store where
  testbeds := [catalogueTestbed]
  tests := entries.map CatalogueEntry.toRow

/-- Two tests of one name, whose keys are in another order than their identifiers. -/
def sameNameTests : String :=
  "tests: \x7btb: \x7ba: \x7bid: q, name: n, ftp_base_location: l, test_filename: f\x7d, " ++
    "b: \x7bid: p, name: n, ftp_base_location: l, test_filename: f\x7d\x7d\x7d"

/-- They are judged alike: the command line matches with the first, a submission with the second. -/
theorem offlineCheck_agrees_sameName :
    let s := catalogueStore [plainEntry "p" "n", plainEntry "q" "n"]
    freshImport (catalogueTree sameNameTests) catalogueConfig = (s, .ok (1, 2)) ∧
    ∃ offline online,
    catalogueIn (catalogueTree sameNameTests) catalogueConfig "tb" = .ok offline ∧
    s.readTests "tb" = .ok online ∧
    ∀ d : Descriptor,
        d.info.testbedId = "tb" → semanticErrors d offline = semanticErrors d online := by
  have htestbeds :
    ((catalogueTree sameNameTests).readText catalogueConfig.testbedsPath).bind Testbed.ofYaml? =
      some [catalogueTestbed] := by decide +kernel
  have htests :
    ((catalogueTree sameNameTests).readText catalogueConfig.testsPath).bind CatalogueEntry.ofYaml? =
      some [plainEntry "q" "n", plainEntry "p" "n"] := by decide +kernel
  have hput : (({} : Store).putTestbeds [catalogueTestbed]).putTests
    [plainEntry "q" "n", plainEntry "p" "n"] =
      (catalogueStore [plainEntry "p" "n", plainEntry "q" "n"], .ok ()) := rfl
  have himported : freshImport (catalogueTree sameNameTests) catalogueConfig = (_, .ok (1, 2)) :=
    Store.importCatalogue_eq_ok_iff.mpr ⟨_, _, htestbeds, htests, hput, rfl⟩
  obtain ⟨offline, online, hoffline, honline, hagree⟩ := offlineCheck_agrees_iff himported "tb"
  have hentries : offline = [plainEntry "q" "n", plainEntry "p" "n"] := by
    rw [catalogueIn_eq htests] at hoffline
    rw [← Except.ok.inj hoffline]
    rfl
  refine ⟨himported, offline, online, hoffline, honline, hagree.mpr ?_⟩
  intro name a ha
  rw [hentries] at ha ⊢
  have hmem : a = plainEntry "q" "n" ∨ a = plainEntry "p" "n" := by
    simpa using List.mem_of_find?_eq_some ha
  have hname : a.name = name := by simpa using List.find?_some ha
  refine ⟨plainEntry "p" "n", ⟨?_, rfl, ?_⟩, ?_⟩
  · rcases hmem with rfl | rfl <;> exact hname
  · intro x hkept _
    have hx : x = plainEntry "q" "n" ∨ x = plainEntry "p" "n" := by simpa using hkept.mem
    rcases hx with rfl | rfl
    · exact .inr (by decide)
    · exact .inl rfl
  · intro t _
    rcases hmem with rfl | rfl <;> rfl

/-- Two tests of one identifier, the later of which replaces the earlier in a store. -/
def sameIdTests : String :=
  "tests: \x7btb: \x7ba: \x7bid: p, name: n, ftp_base_location: l, test_filename: f\x7d, " ++
    "b: \x7bid: p, name: m, ftp_base_location: l, test_filename: f\x7d\x7d\x7d"

/-- The command line finds nothing wrong with a test that a submission does not know. -/
theorem offlineCheck_misses_replaced :
    let s := catalogueStore [plainEntry "p" "m"]
    freshImport (catalogueTree sameIdTests) catalogueConfig = (s, .ok (1, 2)) ∧
    ∃ (offline online : List CatalogueEntry) (d : Descriptor),
    catalogueIn (catalogueTree sameIdTests) catalogueConfig "tb" = .ok offline ∧
    s.readTests "tb" = .ok online ∧
    d.info.testbedId = "tb" ∧ semanticErrors d offline = [] ∧
      semanticErrors d online = [.unknownTest "n"] := by
  have htestbeds :
    ((catalogueTree sameIdTests).readText catalogueConfig.testbedsPath).bind Testbed.ofYaml? =
      some [catalogueTestbed] := by decide +kernel
  have htests :
    ((catalogueTree sameIdTests).readText catalogueConfig.testsPath).bind CatalogueEntry.ofYaml? =
      some [plainEntry "p" "n", plainEntry "p" "m"] := by decide +kernel
  have hput : (({} : Store).putTestbeds [catalogueTestbed]).putTests
    [plainEntry "p" "n", plainEntry "p" "m"] =
      (catalogueStore [plainEntry "p" "m"], .ok ()) := rfl
  have himported : freshImport (catalogueTree sameIdTests) catalogueConfig = (_, .ok (1, 2)) :=
    Store.importCatalogue_eq_ok_iff.mpr ⟨_, _, htestbeds, htests, hput, rfl⟩
  let t : Testcase := ⟨1, "n", .predefined, "s", none, []⟩
  refine ⟨himported, _, _, t.alone "tb", catalogueIn_eq htests "tb",
    Store.readTests_of_rows rfl "tb", rfl, ?_, ?_⟩
  · rw [t.semanticErrors_alone]
    decide
  · rw [t.semanticErrors_alone]
    decide

end CommandLine
end PipelineManager
