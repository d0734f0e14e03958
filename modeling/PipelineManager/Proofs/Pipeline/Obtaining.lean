import PipelineManager.Proofs.Pipeline.TestCommands
import PipelineManager.Proofs.Text.Trimming

/-!
# Where tests are obtained and run

The tests of a script are obtained one after the other. A developer-defined test has its archive
downloaded; a predefined one has the place of its catalogue entry fetched, unless a test before it
has. Fetches are compared as commands and directories are put together from the location as it is,
and both go by the place: the location without the slashes around it. So each place is fetched once,
and a test runs in a directory that is fetched.
-/

namespace PipelineManager

/-! ## Places -/

namespace Command

/-- The path of a place below a base; that of the base when the place has no name. -/
def below (base place : String) : String := if place = "" then base else base ++ "/" ++ place

/-- Joining a path to a base leads below the base. -/
theorem joinPath_eq_below {base path place : String} (h : Text.Trims path place) :
    joinPath base path = below base place := by
  rw [joinPath, Text.trims_iff.mp h, below]
  simp only [String.isEmpty_iff]

/-- A path is fetched by the command for its place, and different places are fetched by
different commands. -/
theorem fetch_eq_iff {path path' place place' : String} (h : Text.Trims path place)
    (h' : Text.Trims path' place') :
    fetch path = fetch path' ↔ place = place' := by
  rw [fetch, fetch, Text.trims_iff.mp h, Text.trims_iff.mp h', sh, sh]
  rw [String.append_left_inj, String.append_right_inj, String.append_right_inj]

end Command

/-- Whether a predefined test is that of a catalogue entry, whose files are at a place. -/
structure ScriptRequest.Finds (r : ScriptRequest) (t : ExecutedTest) (e : CatalogueEntry)
    (place : String) : Prop where
  kind : t.testcase.kind = .predefined
  entry : entryAt? r.catalogue r.testbedId t.testcase.name = some e
  place : Text.Trims e.location place

/-- Whether tests are obtained by some commands, behind those that are there already. -/
inductive ScriptRequest.Obtains (r : ScriptRequest) (s : ScriptSettings) :
    List String → List ExecutedTest → List String → Prop
  | done (emitted : List String) : Obtains r s emitted [] []
  | download {emitted later : List String} {t : ExecutedTest} {tests : List ExecutedTest}
      (kind : t.testcase.kind = .developerDefined)
      (rest : Obtains r s (emitted ++ t.download s r) tests later) :
      Obtains r s emitted (t :: tests) (t.download s r ++ later)
  | fetch {emitted later : List String} {t : ExecutedTest} {tests : List ExecutedTest}
      {e : CatalogueEntry}
      {place : String} (finds : r.Finds t e place) (new : Command.fetch e.location ∉ emitted)
      (rest : Obtains r s (emitted ++ [Command.fetch e.location]) tests later) :
      Obtains r s emitted (t :: tests) (Command.fetch e.location :: later)
  | fetched {emitted later : List String} {t : ExecutedTest} {tests : List ExecutedTest}
      {e : CatalogueEntry}
      {place : String} (finds : r.Finds t e place) (known : Command.fetch e.location ∈ emitted)
      (rest : Obtains r s emitted tests later) : Obtains r s emitted (t :: tests) later

/-- Whether a command is one that obtains a test: its download, or the fetch of its place. -/
def ScriptRequest.IsObtainedBy (r : ScriptRequest) (s : ScriptSettings) (t : ExecutedTest)
    (command : String) : Prop :=
  t.testcase.kind = .developerDefined ∧ command ∈ t.download s r ∨
    ∃ e place, r.Finds t e place ∧ command = Command.fetch e.location

/-- Whether a command runs a test where it is obtained: a developer-defined one in its own
directory, a predefined one at a place that is fetched. -/
inductive ScriptRequest.RunsAt (r : ScriptRequest) (s : ScriptSettings) (obtained : List String)
    (t : ExecutedTest) :
    String → Prop
  | developed (kind : t.testcase.kind = .developerDefined) :
      RunsAt r s obtained t (Command.runTest s t.testcase.name t.testcase.parameters
        (Command.developerDir ++ "/" ++ t.fullName) (Command.developerDir ++ "/" ++ t.fullName)
          t.fullName)
  | catalogued {e : CatalogueEntry} {place file : String} (finds : r.Finds t e place)
      (fetched : Command.fetch e.location ∈ obtained) (target : Text.Trims e.filename file) :
      RunsAt r s obtained t (Command.runTest s t.testcase.name t.testcase.parameters
        (Command.below Command.repositoryDir place)
        (Command.below (Command.below Command.repositoryDir place) file) t.fullName)

section Blocks

variable {s : ScriptSettings} {r : ScriptRequest} {t : ExecutedTest} {tests : List ExecutedTest}
  {obtained performed obtained' performed' emitted later : List String} {place path : String}

/-! ## Test by test -/

/-- What is fetched already is not fetched again. -/
theorem addObtain_fetch_of_mem {command : String} (h : command ∈ emitted) :
    addObtain emitted .predefined [command] = emitted := by
  simp [addObtain, h]

/-- What is not fetched yet is fetched last. -/
theorem addObtain_fetch_of_notMem {command : String} (h : command ∉ emitted) :
    addObtain emitted .predefined [command] = emitted ++ [command] := by
  simp [addObtain, h]

/-- A predefined test runs below its place and not below the path as the catalogue has it. -/
theorem ScriptRequest.Finds.runsAt {e : CatalogueEntry} (h : r.Finds t e place)
    (hfetched : Command.fetch e.location ∈ obtained) :
    r.RunsAt s obtained t (Command.runTest s t.testcase.name t.testcase.parameters
      (Command.joinPath Command.repositoryDir e.location)
      (Command.joinPath (Command.joinPath Command.repositoryDir e.location) e.filename)
        t.fullName) := by
  have htarget := Text.trims_trimSlashes e.filename
  rw [Command.joinPath_eq_below h.place, Command.joinPath_eq_below htarget]
  exact .catalogued h hfetched htarget

/-- One test is obtained behind those before it, and is run where it is obtained. -/
theorem exists_obtains_cons {plan : TestPlan} (hplan : planTest s r t = .ok plan)
    (emitted : List String) :
    ∃ added, addObtain emitted t.testcase.kind plan.obtain = emitted ++ added ∧
      (∀ {tests later},
        r.Obtains s (emitted ++ added) tests later →
        r.Obtains s emitted (t :: tests) (added ++ later)) ∧
      ∀ {obtained}, emitted ++ added ⊆ obtained → r.RunsAt s obtained t
        (Command.runTest s t.testcase.name t.testcase.parameters plan.workDir plan.target
          t.fullName) := by
  rcases (planTest_eq_ok hplan).2 with ⟨hkind, rfl⟩ | ⟨hkind, e, he, rfl⟩
  · rw [hkind]
    exact ⟨t.download s r, rfl, fun h => .download hkind h, fun _ => .developed hkind⟩
  · have hfinds : r.Finds t e (Text.trimSlashes e.location) := ⟨hkind, he, Text.trims_trimSlashes _⟩
    rw [hkind]
    dsimp only
    by_cases hknown : Command.fetch e.location ∈ emitted
    · refine ⟨[], (addObtain_fetch_of_mem hknown).trans (List.append_nil emitted).symm, fun h => ?_,
        fun hsub => ?_⟩
      · rw [List.append_nil] at h
        exact .fetched hfinds hknown h
      · exact hfinds.runsAt (hsub (List.mem_append_left _ hknown))
    · refine ⟨[Command.fetch e.location], addObtain_fetch_of_notMem hknown,
        fun h => .fetch hfinds hknown h, fun hsub => ?_⟩
      exact hfinds.runsAt (hsub (List.mem_append_right _ List.mem_cons_self))

/-- All tests are obtained behind what is there already, and each is run where it is obtained. -/
theorem exists_obtains
    (h : testBlocksFrom s r obtained performed tests = .ok (obtained', performed')) :
    ∃ later commands, obtained' = obtained ++ later ∧ performed' = performed ++ commands ∧
      r.Obtains s obtained tests later ∧ List.Forall₂ (r.RunsAt s obtained') tests commands := by
  induction tests generalizing obtained performed with
  | nil =>
    obtain ⟨rfl, rfl⟩ := Prod.mk.inj (Except.ok.inj h)
    exact ⟨[], [], (List.append_nil _).symm, (List.append_nil _).symm, .done _, .nil⟩
  | cons t tests ih =>
    obtain ⟨plan, hplan, hrest⟩ := testBlocksFrom_cons_eq_ok h
    obtain ⟨added, hadded, hobtains, hruns⟩ := exists_obtains_cons hplan obtained
    rw [hadded] at hrest
    obtain ⟨later, commands, rfl, rfl, hlater, hcommands⟩ := ih hrest
    refine ⟨added ++ later, _ :: commands, List.append_assoc .., List.append_assoc ..,
      hobtains hlater, ?_⟩
    exact .cons (hruns (List.subset_append_left _ _)) hcommands

/-! ## Fetches -/

/-- A download does not fetch. -/
theorem fetch_notMem_download (path : String) : Command.fetch path ∉ t.download s r := by
  intro hmem
  obtain ⟨request, unpack, hdownload, hrequest, hunpack⟩ :=
    Command.exists_download s.managerUrl r.runId t.testcase.name t.fullName
  rw [ExecutedTest.download, hdownload] at hmem
  have hfetch := Command.verb_fetch path
  rcases List.mem_pair.mp hmem with heq | heq
  · exact absurd (hfetch.symm.trans (heq ▸ hrequest)) (by decide)
  · exact absurd (hfetch.symm.trans (heq ▸ hunpack)) (by decide)

/-- A fetch is among the commands once at most, if it was before. -/
theorem ScriptRequest.Obtains.count_fetch_le (h : r.Obtains s emitted tests later) (path : String)
    (hemitted : emitted.count (Command.fetch path) ≤ 1) :
    (emitted ++ later).count (Command.fetch path) ≤ 1 := by
  induction h with
  | done emitted => rwa [List.append_nil]
  | download kind rest ih =>
    rw [← List.append_assoc]
    refine ih ?_
    rwa [List.count_append, List.count_eq_zero.mpr (fetch_notMem_download path)]
  | @fetch emitted later t tests e place finds new rest ih =>
    rw [← List.singleton_append, ← List.append_assoc]
    refine ih ?_
    rw [List.count_append]
    by_cases hsame : Command.fetch e.location = Command.fetch path
    · rw [← hsame, List.count_eq_zero.mpr new, List.count_singleton_self]
    · rwa [List.count_singleton, if_neg (by simpa using hsame), Nat.add_zero]
  | fetched finds known rest ih => exact ih hemitted

/-- Every command that is added obtains one of the tests. -/
theorem ScriptRequest.Obtains.exists_isObtainedBy (h : r.Obtains s emitted tests later)
    {command : String} (hcommand : command ∈ later) : ∃ t ∈ tests, r.IsObtainedBy s t command := by
  induction h with
  | done emitted => cases hcommand
  | @download emitted later t tests kind rest ih =>
    rcases List.mem_append.mp hcommand with hnew | hlater
    · exact ⟨t, List.mem_cons_self, .inl ⟨kind, hnew⟩⟩
    · exact (ih hlater).imp fun _ ⟨ht, h⟩ => ⟨List.mem_cons_of_mem _ ht, h⟩
  | @fetch emitted later t tests e place finds new rest ih =>
    rcases List.mem_cons.mp hcommand with rfl | hlater
    · exact ⟨t, List.mem_cons_self, .inr ⟨e, place, finds, rfl⟩⟩
    · exact (ih hlater).imp fun _ ⟨ht, h⟩ => ⟨List.mem_cons_of_mem _ ht, h⟩
  | fetched finds known rest ih =>
    exact (ih hcommand).imp fun _ ⟨ht, h⟩ => ⟨List.mem_cons_of_mem _ ht, h⟩

/-- The place of every predefined test is fetched. -/
theorem ScriptRequest.Obtains.fetch_mem (h : r.Obtains s emitted tests later) (ht : t ∈ tests)
    {e : CatalogueEntry} (hfinds : r.Finds t e place) :
    Command.fetch e.location ∈ emitted ++ later := by
  induction h with
  | done emitted => cases ht
  | download kind rest ih =>
    rw [← List.append_assoc]
    rcases List.mem_cons.mp ht with rfl | ht
    · cases kind.symm.trans hfinds.kind
    · exact ih ht
  | @fetch emitted later first tests e' place' finds new rest ih =>
    rcases List.mem_cons.mp ht with rfl | ht
    · obtain rfl := Option.some.inj (hfinds.entry.symm.trans finds.entry)
      exact List.mem_append_right _ List.mem_cons_self
    · rw [← List.singleton_append, ← List.append_assoc]
      exact ih ht
  | @fetched emitted later first tests e' place' finds known rest ih =>
    rcases List.mem_cons.mp ht with rfl | ht
    · obtain rfl := Option.some.inj (hfinds.entry.symm.trans finds.entry)
      exact List.mem_append_left _ known
    · exact ih ht

/-! ## All tests -/

/-- Whether the blocks of a script are those of its tests. The tests are run in order behind the
installation of modules, each where it is obtained. They are obtained in order behind the directory
of developer-defined tests, and by nothing but their downloads and fetches. The fetch of a place
goes by the place, and there is one for each place that some test is at. -/
structure ScriptRequest.IsPrepared (r : ScriptRequest) (s : ScriptSettings)
    (obtained performed : List String) :
    Prop where
  runs : ∃ commands, performed = Command.installTestModules s :: commands ∧
    List.Forall₂ (r.RunsAt s obtained) r.tests commands
  obtains : ∃ later, obtained = Command.sh ("mkdir -p " ++ Command.developerDir) :: later ∧
    r.Obtains s [Command.sh ("mkdir -p " ++ Command.developerDir)] r.tests later ∧
    ∀ command ∈ later, ∃ t ∈ r.tests, r.IsObtainedBy s t command
  once : ∀ path place, Text.Trims path place → (∃ t ∈ r.tests, ∃ e, r.Finds t e place) →
    obtained.count (Command.fetch path) = 1
  places : ∀ path path' place place', Text.Trims path place → Text.Trims path' place' →
    (Command.fetch path = Command.fetch path' ↔ place = place')

/-- Whatever the tests and the catalogue, and whatever slashes stand around the locations in it, the
blocks of a script fetch each place once and run the tests there. -/
theorem isPrepared_of_testBlocks (h : testBlocks s r = .ok (obtained, performed)) :
    r.IsPrepared s obtained performed := by
  obtain ⟨later, commands, rfl, rfl, hobtains, hcommands⟩ := exists_obtains h
  refine ⟨⟨commands, rfl, hcommands⟩, ⟨later, rfl, hobtains, fun _ => hobtains.exists_isObtainedBy⟩,
    ?_, fun _ _ _ _ => Command.fetch_eq_iff⟩
  rintro path place hplace ⟨t, ht, e, hfinds⟩
  have hmkdir : Command.fetch path ∉ [Command.sh ("mkdir -p " ++ Command.developerDir)] := by
    intro hmem
    have hverb := Command.verb_fetch path
    rw [List.mem_singleton.mp hmem, Command.verb_createDirectory] at hverb
    exact absurd hverb (by decide)
  have hmost :=
    hobtains.count_fetch_le path (by rw [List.count_eq_zero.mpr hmkdir]; exact Nat.zero_le 1)
  have hleast := hobtains.fetch_mem ht hfinds
  rw [(Command.fetch_eq_iff hfinds.place hplace).mpr rfl] at hleast
  exact Nat.le_antisymm hmost (List.count_pos_iff.mpr hleast)

end Blocks

/-- A request of four tests: two at one place, written in different ways, one at the top, and one of
the developer. -/
def fourTests : ScriptRequest where
  tests :=
    [⟨1, "ping", .predefined, "all", none, []⟩, ⟨2, "own", .developerDefined, "all", none, []⟩,
      ⟨3, "load", .predefined, "all", none, []⟩,
      ⟨4, "top", .predefined, "all", none, []⟩].map .ofTestcase
  catalogue := [
    { testbedId := "tb", testId := "p", name := "ping", location := "/net/base//",
      filename := "ping.robot" },
    { testbedId := "tb", testId := "l", name := "load", location := "net/base",
      filename := "/load.robot" },
    { testbedId := "tb", testId := "t", name := "top", location := "//", filename := "top.robot" }]
  metrics := []
  contract := { location := "metrics", filename := "collect.robot" }
  runId := 7
  testbedId := "tb"

/-- The four tests are obtained by two fetches and one download, behind the directory. -/
theorem isPrepared_fourTests : ∃ obtained performed,
    testBlocks default fourTests = .ok (obtained, performed) ∧ obtained.length = 5 ∧
    performed.length = 5 ∧
      fourTests.IsPrepared default obtained performed := by
  have hlengths :
      (testBlocks default fourTests).toOption.map (fun b => (b.1.length, b.2.length)) =
          some (5, 5) := by
    decide +kernel
  rcases hblocks : testBlocks default fourTests with e | ⟨obtained, performed⟩
  · rw [hblocks] at hlengths
    cases hlengths
  · rw [hblocks] at hlengths
    obtain ⟨hobtained, hperformed⟩ := Prod.mk.inj (Option.some.inj hlengths)
    exact ⟨obtained, performed, rfl, hobtained, hperformed, isPrepared_of_testBlocks hblocks⟩

end PipelineManager
