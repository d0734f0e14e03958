import PipelineManager.Proofs.Pipeline.ShellReading
import PipelineManager.Pipeline.Script
import PipelineManager.Validation.Semantics

/-!
# What a test sees of its parameters

A test is run with one export for every parameter, in order, under a name in which all but letters
and digits are underscores. So a later parameter replaces an earlier one of the same name, and of
any name that comes out the same. Validation reads the first parameter of the very name
of a variable. The two agree on a variable exactly when the last parameter that comes out as its
name is the one that was validated, or would have been accepted too.
-/

namespace PipelineManager

/-! ## The exports of a test -/

/-- A character that is replaced is one of variables. -/
theorem isVariableChar_replaced (c : Char) :
    isVariableChar (if isVariableChar c then c else '_') = true := by
  by_cases hc : isVariableChar c
  · rw [if_pos hc, hc]
  · rw [if_neg hc]
    decide

/-- The names of variables have no other characters than those of variables. -/
theorem isVariableChar_of_mem_variableName {raw : String} {c : Char}
    (hc : c ∈ (variableName raw).toList) :
    isVariableChar c = true := by
  have hreplaced : ∀ d ∈ raw.toList.map fun c => if isVariableChar c then c else '_',
      isVariableChar d = true := by
    intro d hd
    obtain ⟨c, -, rfl⟩ := List.mem_map.mp hd
    exact isVariableChar_replaced c
  unfold variableName at hc
  simp only at hc
  split at hc
  · obtain rfl : c = '_' := by simpa using hc
    decide
  · rename_i first rest heq
    split at hc
    · rw [String.toList_ofList] at hc
      rcases List.mem_cons.mp hc with rfl | hc
      · decide
      · exact hreplaced c hc
    · rw [String.toList_ofList] at hc
      exact hreplaced c hc

/-- What a parameter is exported as. -/
def exportBinding (scope : String) (p : Parameter) : Shell.Binding :=
  (Command.parameterVariable scope p.key, p.text)

/-- The exports of some parameters are a text, with a separator behind it. -/
theorem exportsText_of_cons (scope : String) (p : Parameter) (rest : List Parameter) :
    Command.exportsText scope (p :: rest) =
      String.intercalate " ; " (Command.exportParameters scope (p :: rest)) ++ " ; " := by
  have hne : String.intercalate " ; " (Command.exportParameters scope (p :: rest)) ≠ "" := by
    intro h
    cases rest <;> simp [Command.exportParameters, Command.exportOf] at h
  rw [Command.exportsText, if_neg (by simpa using hne)]

/-- The exports of parameters start with that of the first. -/
theorem exportsText_cons (scope : String) (p : Parameter) (rest : List Parameter) :
    Command.exportsText scope (p :: rest) =
      Command.exportOf (Command.parameterVariable scope p.key) p.text ++ " ; " ++
      Command.exportsText scope rest := by
  cases rest with
  | nil =>
    rw [exportsText_of_cons]
    simp [Command.exportParameters, Command.exportsText]
  | cons q rest =>
    rw [exportsText_of_cons, exportsText_of_cons]
    simp [Command.exportParameters, String.append_assoc]

/-- What an export is after the script engine. -/
theorem scriptText_exportOf {name : String} (hname : ∀ c ∈ name.toList, isVariableChar c = true)
    (value : String) (rest : List Char) :
    scriptText ((Command.exportOf name value).toList ++ rest) =
      "export ".toList ++
      (name.toList ++ '=' :: (Shell.quotedWord value.toList ++ scriptText rest)) := by
  have hlead : ∀ c ∈ "export ".toList, isPlain c = true := List.all_eq_true.mp rfl
  have hequals : ∀ c ∈ "=".toList, isPlain c = true := List.all_eq_true.mp rfl
  have hplain : ∀ c ∈ name.toList, isPlain c = true :=
    fun c hc => isPlain_of_class isVariableChar rfl rfl (hname c hc)
  simp only [Command.exportOf, String.toList_append, String.toList_ofList, List.append_assoc]
  rw [scriptText_append hlead, scriptText_append hplain, scriptText_append hequals,
    scriptText_shellWord]
  rfl

/-- The exports in front of a command are read back as the parameters, in order. -/
theorem exports_scriptText (scope : String) (parameters : List Parameter) (rest : List Char) :
    Shell.exports (scriptText ((Command.exportsText scope parameters).toList ++ rest)) =
      parameters.map (exportBinding scope) ++ Shell.exports (scriptText rest) := by
  induction parameters with
  | nil => simp [Command.exportsText, Command.exportParameters]
  | cons p parameters ih =>
    let next := scriptText ((Command.exportsText scope parameters).toList ++ rest)
    have hname : ∀ c ∈ (Command.parameterVariable scope p.key).toList, isVariableChar c = true :=
      fun c hc => isVariableChar_of_mem_variableName hc
    have hseparator : ∀ c ∈ " ; ".toList, isPlain c = true := List.all_eq_true.mp rfl
    have hread :
      Shell.export? (scriptText ((Command.exportsText scope (p :: parameters)).toList ++ rest)) =
        some (exportBinding scope p, " ; ".toList ++ next) := by
      rw [exportsText_cons, String.toList_append, String.toList_append, List.append_assoc,
        List.append_assoc,
        scriptText_exportOf hname, scriptText_append hseparator,
        Shell.export?_append hname _ (by simp; decide)]
      simp [exportBinding, next]
    rw [Shell.exports_cons hread, ih, List.map_cons, List.cons_append]

/-- A text that does not start with an export has none. -/
theorem Shell.exports_eq_nil {cs : List Char} (h : "export ".toList.isPrefixOf? cs = none) :
    exports cs = [] := by
  have hnone : export? cs = none := by
    rw [export?, h]
    rfl
  rw [exports.eq_def]
  split
  · rfl
  · rename_i hsome
    rw [hnone] at hsome
    cases hsome

/-- The command that runs a test begins with the export of every parameter, in order, and no
other export. -/
theorem commandExports_runTest (s : ScriptSettings) (scope : String) (parameters : List Parameter)
    (workDir target fullName : String) :
    commandExports (Command.runTest s scope parameters workDir target fullName) =
      parameters.map (exportBinding scope) := by
  have hlead : ∀ c ∈ "cd ".toList, isPlain c = true := List.all_eq_true.mp rfl
  have hnone (rest : List Char) : Shell.exports (scriptText ("cd ".toList ++ rest)) = [] := by
    rw [scriptText_append hlead]
    exact Shell.exports_eq_nil rfl
  simp only [commandExports, Command.runTest, Command.sh, String.toList_append, List.append_assoc,
    isPrefixOf?_append, exports_scriptText, hnone, List.append_nil]

/-! ## The environment of a test -/

namespace Shell

/-- The value of every variable that is set. -/
abbrev Environment := String → Option String

/-- Sets a variable, whatever it was before. -/
def Environment.set (env : Environment) (b : Binding) : Environment :=
  fun name => if name = b.1 then some b.2 else env name

/-- The environment after exports, carried out in order. -/
def Environment.after (env : Environment) (bindings : List Binding) : Environment :=
  bindings.foldl set env

/-- The environment before any export. -/
def Environment.empty : Environment := fun _ => none

/-- A variable has the value of its last export, or else the one that it had. -/
theorem Environment.after_apply (env : Environment) (bindings : List Binding) (name : String) :
    env.after bindings name =
      ((bindings.filter fun b => b.1 = name).getLast?.map (·.2)).or (env name) := by
  induction bindings generalizing env with
  | nil => simp [after]
  | cons b bindings ih =>
    have hstep : env.after (b :: bindings) name = (env.set b).after bindings name := rfl
    rw [hstep, ih]
    by_cases hb : b.1 = name
    · rw [List.filter_cons_of_pos (by simpa using hb), List.getLast?_cons]
      cases (bindings.filter fun b => b.1 = name).getLast? <;> simp [set, hb]
    · rw [List.filter_cons_of_neg (by simpa using hb)]
      simp [set, Ne.symm hb]

end Shell

/-- The last parameter that is exported under the variable of a name. -/
def Testcase.exportedLast? (t : Testcase) (key : String) : Option Parameter :=
  (t.parameters.filter fun p =>
    Command.parameterVariable t.name p.key = Command.parameterVariable t.name key).getLast?

/-- The environment that the command of a test runs it in, as far as its exports say. -/
def Testcase.environment (t : Testcase) (s : ScriptSettings) (workDir target : String) :
    Shell.Environment :=
  Shell.Environment.empty.after
    (commandExports (Command.runTest s t.name t.parameters workDir target t.fullName))

/-- A test sees the last parameter that is exported under a variable. -/
theorem Testcase.environment_apply (t : Testcase) (s : ScriptSettings)
    (workDir target key : String) :
    t.environment s workDir target (Command.parameterVariable t.name key) =
      (t.exportedLast? key).map Parameter.text := by
  rw [environment, commandExports_runTest, Shell.Environment.after_apply, List.filter_map,
    List.getLast?_map, Option.map_map]
  simp only [Shell.Environment.empty, Option.or_none]
  rfl

/-- What validation says of a parameter of an executed predefined test: its value is accepted. -/
theorem Variable.accepts_of_semanticErrors {d : Descriptor} {catalogue : List CatalogueEntry}
    (hvalid : semanticErrors d catalogue = []) {t : Testcase} (ht : t ∈ d.executed)
    (hkind : t.kind = .predefined) {e : CatalogueEntry} (he : entryNamed? catalogue t.name = some e)
    {v : Variable} (hv : v ∈ e.vars) {p : Parameter} (hp : t.parameter? v.name = some p) :
    v.accepts p.text = true := by
  have htest : testErrors catalogue t = [] :=
    List.flatMap_eq_nil_iff.mp (List.append_eq_nil_iff.mp hvalid).2 t ht
  simp only [testErrors, hkind, he] at htest
  have hvariable : variableErrors t v = [] := List.flatMap_eq_nil_iff.mp htest v hv
  cases haccepts : v.accepts p.text with
  | true => rfl
  | false => simp [variableErrors, hp, haccepts] at hvariable

/-- A test that validation has let through sees an accepted value of a variable with options exactly
when the last parameter that is exported under it is the validated one or has an option as its text
as well. -/
theorem Testcase.sees_accepted_iff {d : Descriptor} {catalogue : List CatalogueEntry}
    (hvalid : semanticErrors d catalogue = []) {t : Testcase} (ht : t ∈ d.executed)
    (hkind : t.kind = .predefined) {e : CatalogueEntry} (he : entryNamed? catalogue t.name = some e)
    {v : Variable} (hv : v ∈ e.vars) (hoptions : v.options ≠ []) (s : ScriptSettings)
    (workDir target : String) :
    (∀ text, t.environment s workDir target (Command.parameterVariable t.name v.name) = some text →
      v.accepts text = true) ↔
    ∀ p, t.exportedLast? v.name = some p → t.parameter? v.name = some p ∨ p.text ∈ v.options := by
  have haccepts (text : String) : v.accepts text = true ↔ text ∈ v.options := by
    simp [Variable.accepts, hoptions]
  simp only [t.environment_apply, haccepts]
  constructor
  · intro hsees p hlast
    exact Or.inr (hsees p.text (by rw [hlast, Option.map_some]))
  · intro hlast text htext
    obtain ⟨p, hp, rfl⟩ := Option.map_eq_some_iff.mp htext
    rcases hlast p hp with hfirst | hoption
    · exact (haccepts p.text).mp (Variable.accepts_of_semanticErrors hvalid ht hkind he hv hfirst)
    · exact hoption

/-! ## A repeated parameter -/

/-- A test that is given a mode several times. -/
def modeTest (modes : List String) : Testcase :=
  ⟨1, "ping", .predefined, "all", none, modes.map fun mode => ⟨"mode", .str mode⟩⟩

/-- A mode that is one of two. -/
def modeVariable : Variable := { name := "mode", options := ["A", "B"] }

/-- The entry of the test. -/
def modeEntry : CatalogueEntry :=
  ⟨"tb", "ping", "ping", "", "ping", "ping.robot", "", [modeVariable]⟩

/-- A descriptor that executes the test. -/
def modeDescriptor (modes : List String) : Descriptor where
  info := ⟨"tb", "app", "net", none⟩
  setup := ⟨[], [modeTest modes], none⟩
  execution := [⟨1, "all", [⟨1, none, [1]⟩]⟩]

/-- The settings that the test is run with. -/
def modeSettings : ScriptSettings :=
  ⟨"http://manager", "http://metrics", "metrics", "6.0.2", [], []⟩

/-- A test with one value for its mode sees an accepted one. -/
theorem Testcase.sees_accepted_iff_mode :
    semanticErrors (modeDescriptor ["A", "B"]) [modeEntry] = [] ∧
      modeTest ["A", "B"] ∈ (modeDescriptor ["A", "B"]).executed ∧
      (modeTest ["A", "B"]).kind = .predefined ∧
      entryNamed? [modeEntry] (modeTest ["A", "B"]).name = some modeEntry ∧
      modeVariable ∈ modeEntry.vars ∧
      modeVariable.options ≠ [] ∧
      ((∀ text, (modeTest ["A", "B"]).environment modeSettings "ping" "ping/ping.robot"
          (Command.parameterVariable "ping" "mode") = some text →
            modeVariable.accepts text = true) ↔
        ∀ p, (modeTest ["A", "B"]).exportedLast? "mode" = some p →
          (modeTest ["A", "B"]).parameter? "mode" = some p ∨ p.text ∈ modeVariable.options) := by
  have hvalid : semanticErrors (modeDescriptor ["A", "B"]) [modeEntry] = [] := by decide
  have hexecuted : modeTest ["A", "B"] ∈ (modeDescriptor ["A", "B"]).executed :=
    List.mem_singleton.mpr rfl
  have hvariable : modeVariable ∈ modeEntry.vars := List.mem_singleton.mpr rfl
  exact ⟨hvalid, hexecuted, rfl, rfl, hvariable, by decide,
    Testcase.sees_accepted_iff hvalid hexecuted rfl rfl hvariable (by decide) modeSettings "ping"
    "ping/ping.robot"⟩

/-- Validation lets through a mode that is accepted first and refused later, and the test sees the
refused one. -/
theorem Testcase.sees_refused_mode :
    semanticErrors (modeDescriptor ["A", "C"]) [modeEntry] = [] ∧
      modeTest ["A", "C"] ∈ (modeDescriptor ["A", "C"]).executed ∧
      (modeTest ["A", "C"]).kind = .predefined ∧
      entryNamed? [modeEntry] (modeTest ["A", "C"]).name = some modeEntry ∧
      modeVariable ∈ modeEntry.vars ∧
      modeVariable.options ≠ [] ∧
      ¬ ∀ text, (modeTest ["A", "C"]).environment modeSettings "ping" "ping/ping.robot"
        (Command.parameterVariable "ping" "mode") = some text →
          modeVariable.accepts text = true := by
  refine ⟨by decide, List.mem_singleton.mpr rfl, rfl, rfl, List.mem_singleton.mpr rfl, by decide,
    fun hsees => ?_⟩
  have hseen : (modeTest ["A", "C"]).environment modeSettings "ping" "ping/ping.robot"
      (Command.parameterVariable "ping" "mode") = some "C" := by
    rw [show "ping" = (modeTest ["A", "C"]).name from rfl, Testcase.environment_apply]
    decide
  exact absurd (hsees "C" hseen) (by decide)

end PipelineManager
