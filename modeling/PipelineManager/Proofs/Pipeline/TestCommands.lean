import PipelineManager.Proofs.Pipeline.Rendering
import PipelineManager.Proofs.Service.Names

/-!
# The commands of tests

The blocks of a script obtain and perform its tests. Behind the installation of modules there is one
command for each test, in order, which writes below the full name of the test. And the archives that
are downloaded are those of the developer-defined tests: a download names the test and its full
name, and neither holds a quotation mark, so that it can be told for which test it is.
-/

namespace PipelineManager

/-! ## Full names -/

/-- The names of tests have no other characters than those of names. -/
theorem isNameChar_of_isTestName {name : List Char} (h : isTestName name = true) :
    ∀ c ∈ name, isNameChar c = true := by
  cases name with
  | nil => exact List.forall_mem_nil _
  | cons c rest =>
    obtain ⟨hc, hrest⟩ := Bool.and_eq_true_iff.mp h
    have hname : isNameChar c = true := by simp [isNameChar, show c.isAlphanum = true from hc]
    exact List.forall_mem_cons.mpr ⟨hname, List.all_eq_true.mp hrest⟩

/-- Whatever dashes, digits and separators a name holds, and whether its kind is marked in front of
it, a full name tells the identifier of its test. -/
theorem Testcase.id_eq_of_fullName_eq {t t' : Testcase} (h : t.fullName = t'.fullName) :
    t.id = t'.id := by
  have htext (t : Testcase) : ∃ front,
      t.fullName.toList = front ++ 'd' :: '-' :: (Json.intText t.id).toList := by
    obtain ⟨front, hfront⟩ : ∃ front, t.fullName = front ++ "-test-id-" ++ Json.intText t.id :=
      ⟨_, rfl⟩
    exact ⟨front.toList ++ "-test-i".toList, by simp [hfront]⟩
  obtain ⟨front, hfront⟩ := htext t
  obtain ⟨front', hfront'⟩ := htext t'
  have hlists := congrArg String.toList h
  rw [hfront, hfront'] at hlists
  have hids :=
    eq_of_append_separator (Json.letter_notMem_dash_intText t.id)
      (Json.letter_notMem_dash_intText t'.id) hlists
  exact Json.intText_injective (String.toList_inj.mp (List.cons.inj hids).2)

/-- Neither the kind nor the name is told. -/
example : (Testcase.mk 3 "dev-defined-a" .predefined "all" none []).fullName =
    (Testcase.mk 3 "a" .developerDefined "all" none []).fullName := by decide

/-- A full name has no other characters than those of names. -/
theorem Testcase.isNameChar_of_mem_fullName {t : Testcase} (h : isTestName t.name.toList = true) :
    ∀ c ∈ t.fullName.toList, isNameChar c = true := by
  have hname := isNameChar_of_isTestName h
  have hid : ∀ c ∈ (Json.intText t.id).toList, isNameChar c = true := by
    intro c hc
    rcases Json.mem_intText hc with rfl | hdigit
    · decide
    · simp [isNameChar, Char.isAlphanum, hdigit]
  have hmiddle : ∀ c ∈ "-test-id-".toList, isNameChar c = true := List.all_eq_true.mp (by decide)
  have hkind : ∀ c ∈ "dev-defined-".toList, isNameChar c = true := List.all_eq_true.mp (by decide)
  cases hcase : t.kind <;> simp only [fullName, hcase, String.toList_append, List.forall_mem_append]
  · exact ⟨⟨⟨List.forall_mem_nil _, hname⟩, hmiddle⟩, hid⟩
  · exact ⟨⟨⟨hkind, hname⟩, hmiddle⟩, hid⟩

/-- No quote stands in a full name. -/
theorem Testcase.quote_notMem_fullName {t : Testcase} (h : isTestName t.name.toList = true) :
    '"' ∉ t.fullName.toList :=
  fun hmem => absurd (isNameChar_of_mem_fullName h _ hmem) (by decide)

/-- No slash stands in a full name. -/
theorem Testcase.slash_notMem_fullName {t : Testcase} (h : isTestName t.name.toList = true) :
    '/' ∉ t.fullName.toList :=
  fun hmem => absurd (isNameChar_of_mem_fullName h _ hmem) (by decide)

namespace Command

/-! ## Downloads -/

/-- How the command of a shell step begins. -/
def verb (command : String) : List Char := (command.toList.drop 4).take 2

/-- The verb of a shell step is what its text starts with. -/
theorem verb_sh {text : List Char} (htext : 2 ≤ text.length) (rest : String) :
    verb (sh (String.ofList text ++ rest)) = text.take 2 := by
  have hopen : "sh '".toList = ['s', 'h', ' ', '\''] := String.toList_ofList
  simp only [verb, sh, String.toList_append, String.toList_ofList, hopen, List.append_assoc]
  exact List.take_append_of_le_length htext

/-- The verb of creating a directory. -/
theorem verb_createDirectory : verb (sh ("mkdir -p " ++ developerDir)) = ['m', 'k'] :=
  verb_sh (by decide) _

/-- The verb of fetching. -/
theorem verb_fetch (dir : String) : verb (fetch dir) = ['w', 'g'] := by
  simp only [fetch, String.append_assoc]
  exact verb_sh (by decide) _

/-- A download requests an archive and unpacks it. -/
theorem exists_download (managerUrl : String) (runId : Int) (name fullName : String) :
    ∃ request unpack, download managerUrl runId name fullName = [request, unpack] ∧
      verb request = ['c', 'u'] ∧ verb unpack = ['c', 'd'] := by
  refine ⟨_, _, rfl, ?_, ?_⟩
  all_goals
    simp only [String.append_assoc]
    exact verb_sh (by decide) _

/-- A request tells which archive it is for. -/
theorem download_inj {managerUrl name name' fullName fullName' : String} {runId : Int}
    (hquote : '"' ∉ fullName.toList) (hquote' : '"' ∉ fullName'.toList)
    (h : (download managerUrl runId name fullName).head? =
      (download managerUrl runId name' fullName').head?) :
    name = name' ∧ fullName = fullName' := by
  have htext := congrArg String.toList (Option.some.inj h)
  simp only [sh, String.toList_append, List.append_assoc, List.append_cancel_left_eq] at htext
  have hmark : "\"\x7d\\' ".toList = '"' :: "\x7d\\' ".toList := rfl
  rw [hmark, List.cons_append, List.cons_append] at htext
  obtain ⟨hfull, hrest⟩ := append_separator_inj hquote hquote' htext
  simp only [List.append_cancel_left_eq, List.append_cancel_right_eq] at hrest
  exact ⟨String.toList_inj.mp hrest, String.toList_inj.mp hfull⟩

end Command

/-! ## Blocks -/

/-- The command that runs a test: with its parameters, and below its full name in the directory of
results. -/
def ExecutedTest.IsRunBy (s : ScriptSettings) (t : ExecutedTest) (command : String) : Prop :=
  ∃ workDir target,
    command = Command.runTest s t.testcase.name t.testcase.parameters workDir target t.fullName

/-- The archive of a developer-defined test, as a block of commands. -/
def ExecutedTest.download (s : ScriptSettings) (r : ScriptRequest) (t : ExecutedTest) :
    List String :=
  Command.download s.managerUrl r.runId t.testcase.name t.fullName

section Blocks

variable {s : ScriptSettings} {r : ScriptRequest} {t : ExecutedTest} {tests : List ExecutedTest}
  {obtained performed obtained' performed' : List String}

/-- The plan of a test is the archive of the developer, or the place that the catalogue gives. -/
theorem planTest_eq_ok {plan : TestPlan} (h : planTest s r t = .ok plan) :
    isTestName t.testcase.name.toList = true ∧
      (t.testcase.kind = .developerDefined ∧
          plan = ⟨t.download s r, Command.developerDir ++ "/" ++ t.fullName,
            Command.developerDir ++ "/" ++ t.fullName⟩ ∨
        t.testcase.kind = .predefined ∧ ∃ e,
          entryAt? r.catalogue r.testbedId t.testcase.name = some e ∧
          plan = ⟨[Command.fetch e.location], Command.joinPath Command.repositoryDir e.location,
            Command.joinPath (Command.joinPath Command.repositoryDir e.location) e.filename⟩) := by
  unfold planTest at h
  dsimp only at h
  split at h
  · cases h
  · next hname =>
    refine ⟨by simpa using hname, ?_⟩
    split at h
    · next hkind => exact .inl ⟨hkind, (Except.ok.inj h).symm⟩
    · next hkind =>
      split at h
      · cases h
      · next e he => exact .inr ⟨hkind, e, he, (Except.ok.inj h).symm⟩

/-- The blocks of tests are those behind the first test, which adds what its plan says. -/
theorem testBlocksFrom_cons_eq_ok
    (h : testBlocksFrom s r obtained performed (t :: tests) = .ok (obtained', performed')) :
    ∃ plan, planTest s r t = .ok plan ∧
      testBlocksFrom s r (addObtain obtained t.testcase.kind plan.obtain)
        (performed ++
          [Command.runTest s t.testcase.name t.testcase.parameters plan.workDir plan.target
            t.fullName]) tests =
        .ok (obtained', performed') := by
  rw [testBlocksFrom] at h
  cases hplan : planTest s r t with
  | error e =>
    rw [hplan] at h
    cases h
  | ok plan =>
    rw [hplan] at h
    exact ⟨plan, rfl, h⟩

/-- There is one more command for each test, in order. -/
theorem performed_testBlocksFrom
    (h : testBlocksFrom s r obtained performed tests = .ok (obtained', performed')) :
    ∃ commands, performed' = performed ++ commands ∧
      List.Forall₂ (ExecutedTest.IsRunBy s) tests commands := by
  induction tests generalizing obtained performed with
  | nil =>
    obtain ⟨-, rfl⟩ := Prod.mk.inj (Except.ok.inj h)
    exact ⟨[], (List.append_nil performed).symm, .nil⟩
  | cons t tests ih =>
    obtain ⟨plan, -, hrest⟩ := testBlocksFrom_cons_eq_ok h
    obtain ⟨commands, rfl, hcommands⟩ := ih hrest
    exact ⟨_ :: commands, by simp, .cons ⟨plan.workDir, plan.target, rfl⟩ hcommands⟩

/-- Blocks are made for tests with admitted names only. -/
theorem isTestName_of_testBlocksFrom
    (h : testBlocksFrom s r obtained performed tests = .ok (obtained', performed')) :
    ∀ t ∈ tests, isTestName t.testcase.name.toList = true := by
  induction tests generalizing obtained performed with
  | nil => exact List.forall_mem_nil _
  | cons t tests ih =>
    obtain ⟨plan, hplan, hrest⟩ := testBlocksFrom_cons_eq_ok h
    exact List.forall_mem_cons.mpr ⟨(planTest_eq_ok hplan).1, ih hrest⟩

/-- What is obtained is added behind what was. -/
theorem prefix_addObtain (obtained : List String) (kind : TestKind) (commands : List String) :
    obtained <+: addObtain obtained kind commands := by
  cases kind <;> exact List.prefix_append _ _

/-- Further tests leave what was obtained in front. -/
theorem prefix_testBlocksFrom
    (h : testBlocksFrom s r obtained performed tests = .ok (obtained', performed')) :
    obtained <+: obtained' := by
  induction tests generalizing obtained performed with
  | nil =>
    obtain ⟨rfl, -⟩ := Prod.mk.inj (Except.ok.inj h)
    exact List.prefix_rfl
  | cons t tests ih =>
    obtain ⟨plan, -, hrest⟩ := testBlocksFrom_cons_eq_ok h
    exact (prefix_addObtain obtained _ _).trans (ih hrest)

/-- The archive of every developer-defined test is downloaded. -/
theorem infix_testBlocksFrom
    (h : testBlocksFrom s r obtained performed tests = .ok (obtained', performed')) (ht : t ∈ tests)
    (hkind : t.testcase.kind = .developerDefined) : t.download s r <:+: obtained' := by
  induction tests generalizing obtained performed with
  | nil => cases ht
  | cons first tests ih =>
    obtain ⟨plan, hplan, hrest⟩ := testBlocksFrom_cons_eq_ok h
    rcases List.mem_cons.mp ht with rfl | ht
    · rcases (planTest_eq_ok hplan).2 with ⟨-, rfl⟩ | ⟨hother, -⟩
      · have hadded : t.download s r <:+ addObtain obtained t.testcase.kind (t.download s r) := by
          rw [hkind]
          exact List.suffix_append obtained _
        exact hadded.isInfix.trans (prefix_testBlocksFrom hrest).isInfix
      · cases hkind.symm.trans hother
    · exact ih hrest ht

/-- What is obtained besides is fetched from the testbed's file server. -/
theorem mem_testBlocksFrom
    (h : testBlocksFrom s r obtained performed tests = .ok (obtained', performed'))
    {command : String} (hcommand : command ∈ obtained') :
    command ∈ obtained ∨ (∃ dir, command = Command.fetch dir) ∨
      ∃ t ∈ tests, t.testcase.kind = .developerDefined ∧ command ∈ t.download s r := by
  induction tests generalizing obtained performed with
  | nil =>
    obtain ⟨rfl, -⟩ := Prod.mk.inj (Except.ok.inj h)
    exact .inl hcommand
  | cons t tests ih =>
    obtain ⟨plan, hplan, hrest⟩ := testBlocksFrom_cons_eq_ok h
    rcases ih hrest with hadded | hfetch | ⟨t', ht', hdownload⟩
    · rcases (planTest_eq_ok hplan).2 with ⟨hkind, rfl⟩ | ⟨hkind, e, -, rfl⟩
      · rw [hkind, addObtain, List.mem_append] at hadded
        exact hadded.imp_right fun hmem => .inr ⟨t, List.mem_cons_self, hkind, hmem⟩
      · rw [hkind, addObtain, List.mem_append] at hadded
        refine hadded.imp_right fun hmem => .inl ⟨e.location, ?_⟩
        exact List.mem_singleton.mp (List.mem_of_mem_filter hmem)
    · exact .inr (.inl hfetch)
    · exact .inr (.inr ⟨t', List.mem_cons_of_mem t ht', hdownload⟩)

/-- The archives that are downloaded are those of the developer-defined tests. -/
theorem download_infix_iff (h : testBlocks s r = .ok (obtained, performed)) {name fullName : String}
    (hfull : ∀ t ∈ r.tests, '"' ∉ t.fullName.toList) (hquote : '"' ∉ fullName.toList) :
    Command.download s.managerUrl r.runId name fullName <:+: obtained ↔
      ∃ t ∈ r.tests,
        t.testcase.kind = .developerDefined ∧ t.testcase.name = name ∧ t.fullName = fullName := by
  constructor
  · intro hinfix
    obtain ⟨request, unpack, hdownload, hverb, -⟩ :=
      Command.exists_download s.managerUrl r.runId name fullName
    have hmem : request ∈ obtained := hinfix.subset (hdownload ▸ List.mem_cons_self)
    rcases mem_testBlocksFrom h hmem with hfirst | ⟨dir, rfl⟩ | ⟨t, ht, hkind, hrequest⟩
    · rw [List.mem_singleton.mp hfirst, Command.verb_createDirectory] at hverb
      exact absurd hverb (by decide)
    · rw [Command.verb_fetch] at hverb
      exact absurd hverb (by decide)
    · obtain ⟨request', unpack', hdownload', -, hverb'⟩ :=
        Command.exists_download s.managerUrl r.runId t.testcase.name t.fullName
      rw [ExecutedTest.download, hdownload'] at hrequest
      rcases List.mem_pair.mp hrequest with rfl | rfl
      · have hsame := Command.download_inj (hfull t ht) hquote
          ((congrArg List.head? hdownload').trans (congrArg List.head? hdownload).symm)
        exact ⟨t, ht, hkind, hsame⟩
      · exact absurd (hverb.symm.trans hverb') (by decide)
  · rintro ⟨t, ht, hkind, rfl, rfl⟩
    exact infix_testBlocksFrom h ht hkind

end Blocks
end PipelineManager
