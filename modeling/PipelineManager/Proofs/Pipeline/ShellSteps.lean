import Mathlib.Data.List.Forall2
import PipelineManager.Proofs.Pipeline.Exports

/-!
# Shell steps and their parameters

A shell step is a command in a single-quoted script string. Exports of parameters stand in front of
the commands that take them. Whatever is exported, it leaves no escape open and closes no string, so
that a command with parameters is one shell step exactly when the same command without them is.
-/

namespace PipelineManager

/-- Whether a text may stand between the quotes of a script string: a backslash takes the next
character with it, and no character that is not taken is a quote. -/
def isStringBody : List Char → Bool
  | [] => true
  | ['\\'] => false
  | '\\' :: _ :: rest => isStringBody rest
  | c :: rest => c ≠ '\'' && isStringBody rest

/-- Whether a command is one shell step, its string closed by its last character and by no other. -/
def IsShellStep (command : String) : Prop :=
  ∃ body, command.toList = "sh '".toList ++ (body ++ ['\'']) ∧ isStringBody body = true

/-! ## Bodies of script strings -/

/-- A plain character does not end a string. -/
theorem isStringBody_cons {c : Char} (hc : isPlain c = true) (rest : List Char) :
    isStringBody (c :: rest) = isStringBody rest := by
  have hplain : c ≠ '\\' ∧ c ≠ '\'' := by simpa [isPlain] using hc
  rw [isStringBody.eq_def]
  split
  · contradiction
  · rename_i heq
    exact absurd (List.cons.inj heq).1 hplain.1
  · rename_i heq
    exact absurd (List.cons.inj heq).1 hplain.1
  · rename_i heq
    obtain ⟨rfl, rfl⟩ := List.cons.inj heq
    simp [hplain.2]

/-- Behind a body it makes no difference that the body was there. -/
theorem isStringBody_append {front : List Char} (h : isStringBody front = true) (rest : List Char) :
    isStringBody (front ++ rest) = isStringBody rest := by
  fun_induction isStringBody front with
  | case1 => rfl
  | case2 => cases h
  | case3 c front ih => exact ih h
  | case4 c front hnone hescape ih =>
    obtain ⟨hquote, hfront⟩ : c ≠ '\'' ∧ isStringBody front = true := by simpa using h
    have hbackslash : c ≠ '\\' := by
      rintro rfl
      cases front with
      | nil => exact hnone rfl rfl
      | cons d front => exact hescape d front rfl rfl
    have hplain : isPlain c = true := by simp [isPlain, hbackslash, hquote]
    rw [List.cons_append, isStringBody_cons hplain, ih hfront]

/-- Plain characters make the body of a string. -/
theorem isStringBody_of_plain {cs : List Char} (h : ∀ c ∈ cs, isPlain c = true) :
    isStringBody cs = true := by
  induction cs with
  | nil => rfl
  | cons c cs ih =>
    obtain ⟨hc, hcs⟩ := List.forall_mem_cons.mp h
    rw [isStringBody_cons hc, ih hcs]

/-- Bodies of strings in sequence make the body of a string. -/
theorem isStringBody_flatMap {f : Char → List Char} (h : ∀ c, isStringBody (f c) = true)
    (cs : List Char) :
    isStringBody (cs.flatMap f) = true := by
  induction cs with
  | nil => rfl
  | cons c cs ih => rw [List.flatMap_cons, isStringBody_append (h c), ih]

/-- An escaped character is the body of a string. -/
theorem isStringBody_escapeShellChar (c : Char) : isStringBody (escapeShellChar c) = true := by
  unfold escapeShellChar
  split_ifs with hexpand hbackslash hquote hnewline
  · rcases hexpand with rfl | rfl | rfl <;> rfl
  · rfl
  · rfl
  · rfl
  · have hplain : isPlain c = true := by simp [isPlain, hbackslash, hquote]
    exact isStringBody_cons hplain []

/-- A word is a text of safe characters as it is, or the escaped text in double quotes. -/
theorem shellWord_cases (cs : List Char) :
    ((∀ c ∈ cs, isShellSafe c = true) ∧ shellWord cs = cs) ∨
      shellWord cs = '"' :: (cs.flatMap escapeShellChar ++ ['"']) := by
  unfold shellWord
  split
  · rename_i hbare
    exact Or.inl ⟨by simpa using (Bool.and_eq_true_iff.mp hbare).2, rfl⟩
  · exact Or.inr rfl

/-- A word is a body, whatever text it is made of. -/
theorem isStringBody_shellWord (cs : List Char) : isStringBody (shellWord cs) = true := by
  rcases shellWord_cases cs with ⟨hsafe, hword⟩ | hword
  · rw [hword]
    exact isStringBody_of_plain fun c hc => isPlain_of_class isShellSafe rfl rfl (hsafe c hc)
  · have hquote : isPlain '"' = true := rfl
    rw [hword, isStringBody_cons hquote,
      isStringBody_append (isStringBody_flatMap isStringBody_escapeShellChar cs)]
    rfl

/-- A backslash in front of a quote does not lead out of a word. -/
example : isStringBody "\\'".toList = true ∧ isStringBody "\\\\'".toList = false ∧
    isStringBody (shellWord "\\\\'".toList) = true := by decide

/-- An export is the body of a string. -/
theorem isStringBody_exportOf (scope key value : String) :
    isStringBody (Command.exportOf (Command.parameterVariable scope key) value).toList = true := by
  have hlead : ∀ c ∈ "export ".toList, isPlain c = true := List.all_eq_true.mp rfl
  have hequals : ∀ c ∈ "=".toList, isPlain c = true := List.all_eq_true.mp rfl
  have hname : ∀ c ∈ (Command.parameterVariable scope key).toList, isPlain c = true :=
    fun c hc => isPlain_of_class isVariableChar rfl rfl (isVariableChar_of_mem_variableName hc)
  simp only [Command.exportOf, String.toList_append, String.toList_ofList, List.append_assoc]
  rw [isStringBody_append (isStringBody_of_plain hlead),
    isStringBody_append (isStringBody_of_plain hname),
    isStringBody_append (isStringBody_of_plain hequals), isStringBody_shellWord]

/-- The exports in front of a command are a body, whatever is exported. -/
theorem isStringBody_exportsText (scope : String) (parameters : List Parameter) :
    isStringBody (Command.exportsText scope parameters).toList = true := by
  induction parameters with
  | nil => rfl
  | cons p parameters ih =>
    have hseparator : ∀ c ∈ " ; ".toList, isPlain c = true := List.all_eq_true.mp rfl
    rw [exportsText_cons, String.toList_append, String.toList_append, List.append_assoc,
      isStringBody_append (isStringBody_exportOf _ _ _),
      isStringBody_append (isStringBody_of_plain hseparator), ih]

/-! ## Commands that take parameters -/

/-- A command that begins with the exports of its parameters and goes on in the same line in a way
that does not depend on them. -/
def TakesExports (scope : String) (command : List Parameter → String) : Prop :=
  ∃ tail : String, (∃ c ∈ tail.toList.head?, c ≠ '\n') ∧
    ∀ parameters, command parameters = Command.sh (Command.exportsText scope parameters ++ tail)

/-- A test is run behind the exports of its parameters. -/
theorem takesExports_runTest (s : ScriptSettings) (scope workDir target fullName : String) :
    TakesExports scope
      fun parameters => Command.runTest s scope parameters workDir target fullName := by
  simp only [TakesExports, Command.runTest, String.append_assoc]
  refine ⟨_, ⟨'c', ?_, by decide⟩, fun parameters => rfl⟩
  rw [String.toList_append]
  rfl

/-- Exports that are joined start with those of the parameters. -/
theorem intercalate_exportParameters_append (scope : String) (parameters : List Parameter)
    (e : String) (exports : List String) :
    String.intercalate " ; " (Command.exportParameters scope parameters ++ e :: exports) =
      Command.exportsText scope parameters ++ String.intercalate " ; " (e :: exports) := by
  induction parameters with
  | nil => simp [Command.exportParameters, Command.exportsText]
  | cons p parameters ih =>
    rw [exportsText_cons, String.append_assoc, ← ih]
    cases parameters <;> simp [Command.exportParameters, String.append_assoc]

/-- The block with other parameters. -/
def MetricsBlock.withParameters (m : MetricsBlock) (parameters : List Parameter) : MetricsBlock :=
  { m with parameters := parameters }

/-- The metrics bundle is run for a block behind the exports of its parameters. -/
theorem takesExports_runMetrics (s : ScriptSettings) (c : MetricsContract)
    (action : Command.MetricsAction) (m : MetricsBlock) :
    TakesExports "metrics_collection" fun parameters =>
      Command.runMetrics s c action (m.withParameters parameters) := by
  simp only [TakesExports, Command.runMetrics, Command.metricsExports, MetricsBlock.withParameters,
    intercalate_exportParameters_append, String.append_assoc]
  refine ⟨_, ⟨'e', ?_, by decide⟩, fun parameters => rfl⟩
  simp only [String.intercalate_cons_cons, String.toList_append, List.append_assoc]
  rfl

/-- A text is a shell step iff what follows the body in front is the body of a string. -/
theorem isShellStep_sh_iff {front tail : String} (h : isStringBody front.toList = true) :
    IsShellStep (Command.sh (front ++ tail)) ↔ isStringBody tail.toList = true := by
  have hsh : (Command.sh (front ++ tail)).toList =
      "sh '".toList ++ ((front ++ tail).toList ++ ['\'']) := by
    simp [Command.sh]
  have hbody : isStringBody (front ++ tail).toList = isStringBody tail.toList := by
    rw [String.toList_append, isStringBody_append h]
  rw [← hbody, IsShellStep, hsh]
  constructor
  · rintro ⟨body, heq, hbody⟩
    rwa [List.append_cancel_right (List.append_cancel_left heq)]
  · intro htail
    exact ⟨_, rfl, htail⟩

/-- Whatever its parameters, a command is a shell step if it is one without them. -/
theorem TakesExports.isShellStep_iff {scope : String} {command : List Parameter → String}
    (h : TakesExports scope command) (parameters : List Parameter) :
    IsShellStep (command parameters) ↔ IsShellStep (command []) := by
  obtain ⟨tail, -, heq⟩ := h
  rw [heq, heq, isShellStep_sh_iff (isStringBody_exportsText scope parameters),
    isShellStep_sh_iff (isStringBody_exportsText scope [])]

/-- Parameters do not change the structure of a command. Whatever is exported, the command that runs
a test is one shell step exactly when it is one without parameters, and so is every command that
starts or stops the collection of metrics. -/
theorem isShellStep_iff_without_parameters (s : ScriptSettings) :
    (∀ (scope : String) (parameters : List Parameter) (workDir target fullName : String),
      IsShellStep (Command.runTest s scope parameters workDir target fullName) ↔
        IsShellStep (Command.runTest s scope [] workDir target fullName)) ∧
    ∀ (c : MetricsContract) (blocks : List MetricsBlock) (action : Command.MetricsAction),
      List.Forall₂ (fun command bare => IsShellStep command ↔ IsShellStep bare)
        (Command.metrics s c blocks action)
        (Command.metrics s c (blocks.map fun m => m.withParameters []) action) := by
  refine ⟨fun scope parameters workDir target fullName =>
    (takesExports_runTest s scope workDir target fullName).isShellStep_iff parameters,
      fun c blocks action => ?_⟩
  unfold Command.metrics
  cases blocks with
  | nil => exact List.forall₂_same.mpr fun _ _ => Iff.rfl
  | cons m blocks =>
    refine .cons Iff.rfl ?_
    rw [List.map_map, List.forall₂_map_left_iff, List.forall₂_map_right_iff]
    exact List.forall₂_same.mpr fun m _ =>
      (takesExports_runMetrics s c action m).isShellStep_iff m.parameters

end PipelineManager
