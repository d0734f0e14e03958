import Mathlib.Algebra.BigOperators.Group.List.Basic
import Mathlib.Algebra.GroupWithZero.Nat
import PipelineManager.Proofs.Pipeline.Rendering
import PipelineManager.Proofs.Pipeline.ShellSteps

/-!
# The line ends of a script

A script holds as many line feeds as the same script without parameters: a line feed in a value is
written as an escape. A carriage return is written as it is, so that a script has one more line end
for each that is exported. Hence two scripts that differ in parameters alone have the same number of
line ends exactly when their parameters hold the same number of carriage returns.
-/

namespace PipelineManager

/-! ## Lines -/

namespace Text

/-- Text in front of the first line of another text joins it, if that line is not empty. -/
theorem lines_append {back : List Char} (hback : ∃ c ∈ back.head?, c ≠ '\n') :
    ∃ first rest, ∀ front, '\n' ∉ front → lines (front ++ back) = (front ++ first) :: rest := by
  obtain ⟨c, hc, hne⟩ := hback
  obtain ⟨cs, rfl⟩ : ∃ cs, back = c :: cs := ⟨back.tail, (List.cons_head?_tail hc).symm⟩
  obtain ⟨text, ended, rest, hsplit⟩ :
      ∃ text ended rest, splitLines (c :: cs) = ⟨c :: text, ended⟩ :: rest := by
    rw [splitLines, if_neg hne]
    cases splitLines cs with
    | nil => exact ⟨[], false, [], rfl⟩
    | cons l rest => exact ⟨l.text, l.ended, rest, rfl⟩
  have hfront : ∀ front, '\n' ∉ front →
      splitLines (front ++ c :: cs) = ⟨front ++ c :: text, ended⟩ :: rest := by
    intro front hnone
    induction front with
    | nil => exact hsplit
    | cons d front ih =>
      rw [List.mem_cons, not_or] at hnone
      rw [List.cons_append, splitLines, if_neg (Ne.symm hnone.1), ih hnone.2]
      rfl
  refine ⟨Line.content ⟨c :: text, ended⟩, rest.map Line.content, fun front hnone => ?_⟩
  rw [lines, hfront front hnone, List.map_cons]
  congr 1
  simp only [Line.content, List.getLast?_append_of_ne_nil _ (List.cons_ne_nil c text)]
  split
  · exact List.dropLast_append_of_ne_nil (List.cons_ne_nil c text)
  · rfl

end Text

/-- Joined lists have the characters of the lists and those of the separators. -/
theorem count_intercalate (c : Char) (separator : List Char) (ls : List (List Char)) :
    (List.intercalate separator ls).count c =
      ls.flatten.count c + (ls.length - 1) * separator.count c := by
  induction ls with
  | nil => simp
  | cons l ls ih =>
    cases ls with
    | nil => simp
    | cons m ls =>
      simp only [List.intercalate_cons_cons, List.count_append, ih, List.flatten_cons,
        List.length_cons, Nat.add_sub_cancel, Nat.succ_mul]
      omega

/-- Indented lines have the characters of the lines and those of the indents. -/
theorem count_flatten_map_append (c : Char) (indent : List Char) (ls : List (List Char)) :
    (ls.map (indent ++ ·)).flatten.count c = ls.length * indent.count c + ls.flatten.count c := by
  induction ls with
  | nil => simp
  | cons l ls ih =>
    simp only [List.map_cons, List.flatten_cons, List.count_append, ih, List.length_cons,
      Nat.succ_mul]
    omega

/-- The lines of some commands. -/
def linesOf (commands : List String) : List (List Char) :=
  commands.flatMap fun c => Text.lines c.toList

/-- Some commands have as many lines as others, and in them a number of characters more. -/
structure Exceeds (c : Char) (number : Nat) (commands others : List String) : Prop where
  length_eq : (linesOf commands).length = (linesOf others).length
  count_eq : (linesOf commands).flatten.count c = (linesOf others).flatten.count c + number

namespace Exceeds

variable {c : Char} {m n : Nat} {commands commands' others others' : List String}

/-- Commands exceed themselves by nothing. -/
theorem refl (c : Char) (commands : List String) : Exceeds c 0 commands commands := ⟨rfl, rfl⟩

/-- Excesses add up over commands in sequence. -/
theorem append (h : Exceeds c m commands others) (h' : Exceeds c n commands' others') :
    Exceeds c (m + n) (commands ++ commands') (others ++ others') where
  length_eq := by
    simp only [linesOf, List.flatMap_append, List.length_append]
    exact congrArg₂ (· + ·) h.length_eq h'.length_eq
  count_eq := by
    have hcount := h.count_eq
    have hcount' := h'.count_eq
    simp only [linesOf, List.flatMap_append, List.flatten_append, List.count_append]
      at hcount hcount' ⊢
    omega

/-- Commands that are made alike exceed one another by the sum over what they are made of. -/
theorem map {α : Type} {number : α → Nat} {f g : α → String}
    (h : ∀ x, Exceeds c (number x) [f x] [g x]) (xs : List α) :
    Exceeds c (xs.map number).sum (xs.map f) (xs.map g) := by
  induction xs with
  | nil => exact refl c []
  | cons x xs ih =>
    rw [List.map_cons, List.map_cons, List.map_cons, List.sum_cons]
    exact (h x).append ih

/-- Indentation and the line feeds between lines depend on the number of lines alone. -/
theorem count_indented (h : Exceeds c n commands others) (indent : List Char) :
    (Template.indented indent commands).count c =
      (Template.indented indent others).count c + n := by
  have hlength := h.length_eq
  have hcount := h.count_eq
  unfold linesOf at hlength hcount
  simp only [Template.indented, count_intercalate, count_flatten_map_append, List.length_map,
    hlength, hcount]
  omega

end Exceeds

/-! ## Exports -/

/-- No line feed stands in a shell word. -/
theorem newline_notMem_shellWord (cs : List Char) : '\n' ∉ shellWord cs := by
  have hescape (c : Char) : '\n' ∉ escapeShellChar c := by
    unfold escapeShellChar
    split_ifs with hexpand hbackslash hquote hnewline
    · rcases hexpand with rfl | rfl | rfl <;> decide
    · decide
    · decide
    · decide
    · exact fun h => hnewline (List.mem_singleton.mp h).symm
  rcases shellWord_cases cs with ⟨hsafe, hword⟩ | hword
  · rw [hword]
    exact fun h => absurd (hsafe _ h) (by decide)
  · have hinside : '\n' ∉ cs.flatMap escapeShellChar := by
      intro h
      obtain ⟨c, -, hc⟩ := List.mem_flatMap.mp h
      exact hescape c hc
    simp [hword, hinside]

/-- A carriage return stays what it is in a word. -/
theorem count_return_shellWord (cs : List Char) : (shellWord cs).count '\r' = cs.count '\r' := by
  have hescape (c : Char) : (escapeShellChar c).count '\r' = [c].count '\r' := by
    unfold escapeShellChar
    split_ifs with hexpand hbackslash hquote hnewline
    · rcases hexpand with rfl | rfl | rfl <;> decide
    · rw [hbackslash]
      decide
    · rw [hquote]
      decide
    · rw [hnewline]
      decide
    · rfl
  have hinside : ∀ cs : List Char, (cs.flatMap escapeShellChar).count '\r' = cs.count '\r' := by
    intro cs
    induction cs with
    | nil => rfl
    | cons c cs ih =>
      rw [List.flatMap_cons, List.count_append, hescape, ih, ← List.count_append,
        List.singleton_append]
  rcases shellWord_cases cs with ⟨-, hword⟩ | hword
  · rw [hword]
  · simp [hword, hinside]

/-- The carriage returns in the texts of some parameters. -/
def carriageReturns (parameters : List Parameter) : Nat :=
  (parameters.map fun p => p.text.toList.count '\r').sum

/-- No line feed stands in the text of exports. -/
theorem newline_notMem_exportsText (scope : String) (parameters : List Parameter) :
    '\n' ∉ (Command.exportsText scope parameters).toList := by
  induction parameters with
  | nil => exact List.not_mem_nil
  | cons p parameters ih =>
    have hname : '\n' ∉ (Command.parameterVariable scope p.key).toList := fun h =>
      absurd (isVariableChar_of_mem_variableName h) (by decide)
    have hvalue := newline_notMem_shellWord p.text.toList
    simp [exportsText_cons, Command.exportOf, hname, hvalue, ih]

/-- The text of exports has the carriage returns of the parameters. -/
theorem count_return_exportsText (scope : String) (parameters : List Parameter) :
    (Command.exportsText scope parameters).toList.count '\r' = carriageReturns parameters := by
  induction parameters with
  | nil => rfl
  | cons p parameters ih =>
    have hname : (Command.parameterVariable scope p.key).toList.count '\r' = 0 :=
      List.count_eq_zero.mpr fun h => absurd (isVariableChar_of_mem_variableName h) (by decide)
    have hvalue := count_return_shellWord p.text.toList
    simp [exportsText_cons, Command.exportOf, List.count_append, hname, hvalue, ih, carriageReturns]

/-- The exports of a command stand in its first line, in front of what is there without them. -/
theorem TakesExports.exceeds {scope : String} {command : List Parameter → String}
    (h : TakesExports scope command) (c : Char) (parameters : List Parameter) :
    Exceeds c ((Command.exportsText scope parameters).toList.count c) [command parameters]
      [command []] := by
  obtain ⟨tail, ⟨d, hd, hne⟩, hcommand⟩ := h
  have hback : ∃ d ∈ (tail.toList ++ ['\'']).head?, d ≠ '\n' := by
    refine ⟨d, ?_, hne⟩
    rw [List.head?_append, hd]
    rfl
  obtain ⟨first, rest, hlines⟩ := Text.lines_append hback
  have hcommand' (parameters : List Parameter) : Text.lines (command parameters).toList =
      ("sh '".toList ++ (Command.exportsText scope parameters).toList ++ first) :: rest := by
    have hfront : '\n' ∉ "sh '".toList ++ (Command.exportsText scope parameters).toList := by
      rw [List.mem_append, not_or]
      exact ⟨by decide, newline_notMem_exportsText scope parameters⟩
    rw [← hlines _ hfront, hcommand]
    simp [Command.sh]
  have hnone : (Command.exportsText scope []).toList = [] := rfl
  constructor
  · simp only [linesOf, List.flatMap_singleton, hcommand', List.length_cons]
  · simp only [linesOf, List.flatMap_singleton, hcommand', hnone, List.flatten_cons,
      List.count_append, List.count_nil]
    omega

/-! ## The commands of a request -/

/-- The test with no parameters. -/
def ExecutedTest.withoutParameters (t : ExecutedTest) : ExecutedTest :=
  { t with testcase := { t.testcase with parameters := [] } }

/-- The request with no parameters of tests and metrics blocks. -/
def ScriptRequest.withoutParameters (r : ScriptRequest) : ScriptRequest :=
  { r with
    tests := r.tests.map (·.withoutParameters), metrics := r.metrics.map (·.withParameters []) }

/-- The number of a character in the exports of a test. -/
def ExecutedTest.exported (c : Char) (t : ExecutedTest) : Nat :=
  (Command.exportsText t.testcase.name t.testcase.parameters).toList.count c

/-- The number of a character in the exports of a metrics block. -/
def MetricsBlock.exported (c : Char) (m : MetricsBlock) : Nat :=
  (Command.exportsText "metrics_collection" m.parameters).toList.count c

/-- The number of a character in the exports of a slot. -/
def ScriptRequest.exported (c : Char) (r : ScriptRequest) : Slot → Nat
  | .performTests => (r.tests.map (·.exported c)).sum
  | .startMetrics | .endMetrics => (r.metrics.map (·.exported c)).sum
  | _ => 0

variable {c : Char} {s : ScriptSettings} {r : ScriptRequest}

/-- The commands for metrics exceed those without parameters by what is exported. -/
theorem exceeds_metrics (c : Char) (s : ScriptSettings) (contract : MetricsContract)
    (blocks : List MetricsBlock) (action : Command.MetricsAction) :
    Exceeds c (blocks.map (·.exported c)).sum (Command.metrics s contract blocks action)
      (Command.metrics s contract (blocks.map (·.withParameters [])) action) := by
  have hblock (m : MetricsBlock) : Exceeds c (m.exported c) [Command.runMetrics s contract action m]
      [Command.runMetrics s contract action (m.withParameters [])] :=
    (takesExports_runMetrics s contract action m).exceeds c m.parameters
  unfold Command.metrics
  cases blocks with
  | nil => exact .refl c _
  | cons m blocks =>
    have hinstall := Exceeds.refl c [Command.install s.metricsModules]
    have hall := hinstall.append (Exceeds.map hblock (m :: blocks))
    rw [Nat.zero_add] at hall
    rw [List.map_map]
    exact hall

/-- Without parameters the tests have the same plans, and each is run without its exports. -/
theorem exceeds_testBlocksFrom {tests : List ExecutedTest} {n : Nat}
    {obtained performed bare obtained' performed' : List String}
    (hperformed : Exceeds c n performed bare)
    (h : testBlocksFrom s r obtained performed tests = .ok (obtained', performed')) :
    ∃ bare', testBlocksFrom s r.withoutParameters obtained bare (tests.map (·.withoutParameters)) =
        .ok (obtained', bare') ∧
      Exceeds c (n + (tests.map (·.exported c)).sum) performed' bare' := by
  induction tests generalizing n obtained performed bare with
  | nil =>
    obtain ⟨rfl, rfl⟩ := Prod.mk.inj (Except.ok.inj h)
    exact ⟨bare, rfl, hperformed⟩
  | cons t tests ih =>
    have hplan : planTest s r.withoutParameters t.withoutParameters = planTest s r t := rfl
    rw [testBlocksFrom] at h
    rw [List.map_cons, testBlocksFrom, hplan, List.map_cons, List.sum_cons, ← Nat.add_assoc]
    cases hcase : planTest s r t with
    | error e =>
      rw [hcase] at h
      cases h
    | ok plan =>
      rw [hcase] at h
      have htest :=
        (takesExports_runTest s t.testcase.name plan.workDir plan.target t.fullName).exceeds c
        t.testcase.parameters
      exact ih (hperformed.append htest) h

/-- The blocks of tests exceed those without parameters by what is exported. -/
theorem exceeds_testBlocks {obtained performed : List String}
    (h : testBlocks s r = .ok (obtained, performed)) :
    ∃ bare, testBlocks s r.withoutParameters = .ok (obtained, bare) ∧
      Exceeds c (r.tests.map (·.exported c)).sum performed bare := by
  obtain ⟨bare, htests, hexceeds⟩ := exceeds_testBlocksFrom (Exceeds.refl c _) h
  rw [Nat.zero_add] at hexceeds
  exact ⟨bare, htests, hexceeds⟩

/-- Every slot has the commands that it has without parameters, and exports in front of some. -/
theorem exceeds_scriptBlocks {obtained performed bare : List String}
    (h : Exceeds c (r.tests.map (·.exported c)).sum performed bare) (slot : Slot) :
    Exceeds c (r.exported c slot) (scriptBlocks s r obtained performed slot)
      (scriptBlocks s r.withoutParameters obtained bare slot) := by
  cases slot with
  | performTests => exact h
  | startMetrics => exact exceeds_metrics c s r.contract r.metrics .start
  | endMetrics => exact exceeds_metrics c s r.contract r.metrics .stop
  | _ => exact .refl c _

/-! ## Scripts -/

namespace Template

variable {blocks blocks' : Slot → List String} {values : Placeholder → Option String}
  {number : Slot → Nat}

/-- Only the line of a slot is filled differently with other commands. -/
theorem count_fillSegment {l : Text.Line} (h : MarkersPermitted l.text l.text)
    (hblocks : ∀ slot, Exceeds c (number slot) (blocks slot) (blocks' slot)) {out out' : List Char}
    (hout : LineFilled blocks values l out) (hout' : LineFilled blocks' values l out') :
    out.count c = out'.count c + ((slotsIn l.text).map number).sum := by
  rw [← fillSegment_lineSegment_eq_ok_iff h] at hout hout'
  rcases line_cases h with ⟨slot, indent, trailing, hline, hindent, -, -, hslots⟩ | hslots
  · rw [lineSegment_of_slot hline hindent hslots, fillSegment] at hout hout'
    split at hout
    · cases hout
    · split at hout'
      · cases hout'
      · obtain rfl := Except.ok.inj hout
        obtain rfl := Except.ok.inj hout'
        rw [List.count_append, List.count_append, (hblocks slot).count_indented, hslots,
          List.map_singleton, List.sum_singleton]
        omega
  · rw [lineSegment_of_text hslots] at hout hout'
    obtain rfl := Except.ok.inj (hout.symm.trans hout')
    simp [hslots]

/-- Filled lines exceed those filled with other blocks by what the slots among them bring. -/
theorem count_lines {lines : List Text.Line} (h : ∀ l ∈ lines, MarkersPermitted l.text l.text)
    (hblocks : ∀ slot, Exceeds c (number slot) (blocks slot) (blocks' slot))
    {outs outs' : List (List Char)} (houts : List.Forall₂ (LineFilled blocks values) lines outs)
    (houts' : List.Forall₂ (LineFilled blocks' values) lines outs') :
    outs.flatten.count c = outs'.flatten.count c + ((slotsOf lines).map number).sum := by
  induction houts generalizing outs' with
  | nil =>
    cases houts'
    rfl
  | @cons l out lines outs hout _ ih =>
    cases houts' with
    | @cons _ out' _ outs' hout' houts' =>
      obtain ⟨hl, hlines⟩ := List.forall_mem_cons.mp h
      have hfirst := count_fillSegment hl hblocks hout hout'
      have hrest := ih hlines houts'
      simp only [List.flatten_cons, List.count_append, slotsOf, List.flatMap_cons, List.map_append,
        List.sum_append] at hrest ⊢
      omega

/-- The slots of a template stand in it in some order. -/
theorem perm_slotsOf_of_parse {text : String} {t : Template} (h : parse text = .ok t) :
    (slotsOf (Text.splitLines text.toList)).Perm Slot.all := by
  obtain ⟨hpasses, hall⟩ := (wellFormed_iff text).mp ((exists_parse_iff text).mp ⟨t, h⟩)
  have hnodup : Passes [] (Text.splitLines text.toList) ↔ _ := passes_iff List.nodup_nil
  exact (List.perm_ext_iff_of_nodup (hnodup.mp hpasses).2 (by decide)).mpr fun slot =>
    iff_of_true (hall slot) slot.mem_all

/-- With more of a character in the commands there is as much more of it in the script. -/
theorem count_fill {text : String} {t : Template} (ht : parse text = .ok t)
    (hblocks : ∀ slot, Exceeds c (number slot) (blocks slot) (blocks' slot))
    {script script' : String} (h : t.fill blocks values = .ok script)
    (h' : t.fill blocks' values = .ok script') :
    script.toList.count c = script'.toList.count c + (Slot.all.map number).sum := by
  obtain ⟨outs, houts, rfl⟩ := (fill_eq_ok_iff ht).mp h
  obtain ⟨outs', houts', rfl⟩ := (fill_eq_ok_iff ht).mp h'
  rw [String.toList_ofList, String.toList_ofList,
    count_lines (permitted_of_parse ht) hblocks houts houts',
    ((perm_slotsOf_of_parse ht).map number).sum_eq]

end Template

variable {text : String} {template : Template} {script bare : String}

/-- A script holds of a character what it holds without parameters, and what is exported. -/
theorem count_renderScript (htemplate : Template.parse text = .ok template)
    (h : renderScript template s r = .ok script)
    (hbare : renderScript template s r.withoutParameters = .ok bare) (c : Char) :
    script.toList.count c = bare.toList.count c + (Slot.all.map (r.exported c)).sum := by
  obtain ⟨obtained, performed, htests, hfill⟩ := renderScript_eq_ok_iff.mp h
  obtain ⟨obtained', bare', hbareTests, hbareFill⟩ := renderScript_eq_ok_iff.mp hbare
  obtain ⟨_, htests', hexceeds⟩ := exceeds_testBlocks (c := c) htests
  obtain ⟨rfl, rfl⟩ := Prod.mk.inj (Except.ok.inj (hbareTests.symm.trans htests'))
  exact Template.count_fill htemplate (exceeds_scriptBlocks hexceeds) hfill hbareFill

/-- A request that is rendered is rendered without parameters too. -/
theorem exists_renderScript_withoutParameters (htemplate : Template.parse text = .ok template)
    (h : renderScript template s r = .ok script) :
    ∃ bare, renderScript template s r.withoutParameters = .ok bare := by
  obtain ⟨obtained, performed, htests, -⟩ := renderScript_eq_ok_iff.mp h
  obtain ⟨bare, hbare, -⟩ := exceeds_testBlocks (c := '\n') htests
  rcases renderScript_cases htemplate s r.withoutParameters with hscript | ⟨e, herror, -⟩
  · exact hscript
  · cases hbare.symm.trans herror

/-- The line ends of a text, for a reader to whom a line feed ends a line, and a carriage return. -/
def lineEnds (text : String) : Nat := text.toList.count '\n' + text.toList.count '\r'

/-- The carriage returns that the script of a request has of its parameters. Metrics blocks are run
for both ends of the monitoring. -/
def ScriptRequest.carriageReturns (r : ScriptRequest) : Nat :=
  (r.tests.map fun t => PipelineManager.carriageReturns t.testcase.parameters).sum +
    2 * (r.metrics.map fun m => PipelineManager.carriageReturns m.parameters).sum

/-- Over all slots, tests are exported once and metrics twice. -/
theorem sum_exported (c : Char) (r : ScriptRequest) :
    (Slot.all.map (r.exported c)).sum =
      (r.tests.map (·.exported c)).sum + 2 * (r.metrics.map (·.exported c)).sum := by
  simp only [Slot.all, ScriptRequest.exported, List.map_cons, List.map_nil, List.sum_cons,
    List.sum_nil]
  omega

/-- No line feed is exported. -/
theorem sum_exported_newline (r : ScriptRequest) : (Slot.all.map (r.exported '\n')).sum = 0 := by
  have hnone (scope : String) (parameters : List Parameter) :
      (Command.exportsText scope parameters).toList.count '\n' = 0 :=
    List.count_eq_zero.mpr (newline_notMem_exportsText scope parameters)
  simp [sum_exported, ExecutedTest.exported, MetricsBlock.exported, hnone]

/-- What is exported has the carriage returns of the request. -/
theorem sum_exported_return (r : ScriptRequest) :
    (Slot.all.map (r.exported '\r')).sum = r.carriageReturns := by
  simp only [sum_exported, ExecutedTest.exported, MetricsBlock.exported, count_return_exportsText,
    ScriptRequest.carriageReturns]

/-- The line feeds of a script do not depend on parameters, and of carriage returns it has those of
the parameters besides. -/
theorem counts_renderScript (htemplate : Template.parse text = .ok template)
    (h : renderScript template s r = .ok script)
    (hbare : renderScript template s r.withoutParameters = .ok bare) :
    script.toList.count '\n' = bare.toList.count '\n' ∧
      lineEnds script = lineEnds bare + r.carriageReturns := by
  have hfeeds := count_renderScript htemplate h hbare '\n'
  have hreturns := count_renderScript htemplate h hbare '\r'
  rw [sum_exported_newline] at hfeeds
  rw [sum_exported_return] at hreturns
  unfold lineEnds
  omega

/-- Of two requests that differ in parameters alone the scripts have the same number of line
feeds, and the same number of line ends exactly when the parameters hold the same number of
carriage returns. -/
theorem lineEnds_renderScript_iff (htemplate : Template.parse text = .ok template)
    (s : ScriptSettings) {r r' : ScriptRequest} (hsame : r.withoutParameters = r'.withoutParameters)
    {script script' : String} (h : renderScript template s r = .ok script)
    (h' : renderScript template s r' = .ok script') :
    script.toList.count '\n' = script'.toList.count '\n' ∧
      (lineEnds script = lineEnds script' ↔ r.carriageReturns = r'.carriageReturns) := by
  obtain ⟨bare, hbare⟩ := exists_renderScript_withoutParameters htemplate h
  obtain ⟨hfeeds, hends⟩ := counts_renderScript htemplate h hbare
  rw [hsame] at hbare
  obtain ⟨hfeeds', hends'⟩ := counts_renderScript htemplate h' hbare
  exact ⟨hfeeds.trans hfeeds'.symm, by omega⟩

/-- A request for a test that is given a mode. -/
def modeRequest (mode : String) : ScriptRequest :=
  ⟨[.ofTestcase (modeTest [mode])], [modeEntry], [], default, 1, "tb"⟩

/-- Without its parameters, the request does not depend on the mode. -/
theorem withoutParameters_modeRequest (mode mode' : String) :
    (modeRequest mode).withoutParameters = (modeRequest mode').withoutParameters := rfl

/-- A script is rendered for the request with any mode. -/
theorem exists_renderScript_modeRequest (mode : String) :
    ∃ script, renderScript bareTemplate modeSettings (modeRequest mode) = .ok script := by
  have hname : isTestName "ping".toList = true := by decide
  refine exists_renderScript parse_bareText (List.forall_mem_singleton.mpr ⟨hname, fun _ => ?_⟩)
  exact ⟨modeEntry, List.mem_singleton.mpr rfl, rfl, rfl⟩

/-- A line feed in a mode makes no difference. -/
theorem lineEnds_renderScript_iff_mode :
    ∃ script script', Template.parse bareText = .ok bareTemplate ∧
      (modeRequest "A\nB").withoutParameters = (modeRequest "'").withoutParameters ∧
      renderScript bareTemplate modeSettings (modeRequest "A\nB") = .ok script ∧
      renderScript bareTemplate modeSettings (modeRequest "'") = .ok script' ∧
      lineEnds script = lineEnds script' := by
  obtain ⟨script, h⟩ := exists_renderScript_modeRequest "A\nB"
  obtain ⟨script', h'⟩ := exists_renderScript_modeRequest "'"
  have hreturns : (modeRequest "A\nB").carriageReturns = (modeRequest "'").carriageReturns := by
    decide
  have hsame := withoutParameters_modeRequest "A\nB" "'"
  exact ⟨script, script', parse_bareText, hsame, h, h',
    (lineEnds_renderScript_iff parse_bareText modeSettings hsame h h').2.mpr hreturns⟩

/-- A carriage return in a mode ends a line of the script. -/
theorem lineEnds_renderScript_return :
    ∃ script script', Template.parse bareText = .ok bareTemplate ∧
      (modeRequest "A\rB").withoutParameters = (modeRequest "AB").withoutParameters ∧
      renderScript bareTemplate modeSettings (modeRequest "A\rB") = .ok script ∧
      renderScript bareTemplate modeSettings (modeRequest "AB") = .ok script' ∧
      lineEnds script ≠ lineEnds script' := by
  obtain ⟨script, h⟩ := exists_renderScript_modeRequest "A\rB"
  obtain ⟨script', h'⟩ := exists_renderScript_modeRequest "AB"
  obtain ⟨bare, hbare⟩ := exists_renderScript_withoutParameters parse_bareText h
  have hends := (counts_renderScript parse_bareText h hbare).2
  have hsame := withoutParameters_modeRequest "A\rB" "AB"
  rw [hsame] at hbare
  have hends' := (counts_renderScript parse_bareText h' hbare).2
  have hreturns : (modeRequest "A\rB").carriageReturns = 1 := by decide
  have hreturns' : (modeRequest "AB").carriageReturns = 0 := by decide
  exact ⟨script, script', parse_bareText, hsame, h, h', by omega⟩

end PipelineManager
