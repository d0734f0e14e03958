import PipelineManager.Proofs.Pipeline.BuiltinLines
import PipelineManager.Proofs.Pipeline.ShellReading
import PipelineManager.Proofs.Text.Search

/-!
# What the stages of a script report

A stage of a pipeline ends with a command that posts its outcome to the manager. The command is read
as the agent does it: the script engine takes away one level of backslashes, and the shell puts the
data together from texts and from the variables of the stage. What is left are the state and the
outcome that are reported. The built-in template reports in its stages the states of an agent, one
in each stage and in their order.
-/

namespace PipelineManager

/-! ## Pieces of script strings -/

/-- What a piece of a script string stands for, if it leaves no escape open and has no quote that
closes the string. -/
def scriptPiece? : List Char → Option (List Char)
  | [] => some []
  | ['\\'] => none
  | '\\' :: c :: rest =>
    match scriptEscape? c with
    | some d => (scriptPiece? rest).map (d :: ·)
    | none => none
  | c :: rest => if c = '\'' then none else (scriptPiece? rest).map (c :: ·)

/-- A piece is read for itself, whatever stands behind it. -/
theorem scriptText_append_of_piece {front text : List Char} (h : scriptPiece? front = some text)
    (rest : List Char) :
    scriptText (front ++ rest) = text ++ scriptText rest := by
  fun_induction scriptPiece? front generalizing text with
  | case1 =>
    obtain rfl := Option.some.inj h
    rfl
  | case2 => cases h
  | case3 c front d hd ih =>
    obtain ⟨text, htext, rfl⟩ := Option.map_eq_some_iff.mp h
    rw [List.cons_append, List.cons_append, scriptText_escape hd, ih htext, List.cons_append]
  | case4 => cases h
  | case5 => cases h
  | case6 c front hnone hescape hquote ih =>
    obtain ⟨text, htext, rfl⟩ := Option.map_eq_some_iff.mp h
    have hbackslash : c ≠ '\\' := by
      rintro rfl
      cases front with
      | nil => exact hnone rfl rfl
      | cons d front => exact hescape d front rfl rfl
    have hplain : isPlain c = true := by simp [isPlain, hbackslash, hquote]
    rw [List.cons_append, scriptText_cons hplain, ih htext, List.cons_append]

/-- Plain characters of a script stand for themselves. -/
theorem scriptPiece?_of_plain {cs : List Char} (h : ∀ c ∈ cs, isPlain c = true) :
    scriptPiece? cs = some cs := by
  induction cs with
  | nil => rfl
  | cons c cs ih =>
    obtain ⟨hc, hcs⟩ := List.forall_mem_cons.mp h
    have hplain : c ≠ '\\' ∧ c ≠ '\'' := by simpa [isPlain] using hc
    rw [scriptPiece?.eq_def]
    split
    · contradiction
    · rename_i heq
      exact absurd (List.cons.inj heq).1 hplain.1
    · rename_i heq
      exact absurd (List.cons.inj heq).1 hplain.1
    · rename_i heq
      obtain ⟨rfl, rfl⟩ := List.cons.inj heq
      rw [if_neg hplain.2, ih hcs, Option.map_some]

/-! ## Words with variables -/

namespace Shell

/-- A part of a word: a text, or a variable whose value takes its place. -/
inductive Part where
  | text (cs : List Char)
  | value (name : List Char)
deriving DecidableEq, Repr

/-- Where a word is being read: outside of quotes, or between two of them behind some characters. -/
inductive Quoting where
  | outside
  | single (cs : List Char)
  | double (cs : List Char)

/-- The parts of a word that stands in quotes, up to the blank behind it. Single quotes keep a text;
double quotes are read only if a variable stands between them and nothing else. -/
def parts? : Quoting → List Char → Option (List Part)
  | .outside, [] => some []
  | .outside, c :: rest =>
    if c = ' ' then some []
    else if c = '\'' then parts? (.single []) rest
    else if c = '"' then parts? (.double []) rest
    else none
  | .single _, [] => none
  | .single cs, c :: rest =>
    if c = '\'' then (parts? .outside rest).map (.text cs :: ·)
      else parts? (.single (cs ++ [c])) rest
  | .double _, [] => none
  | .double cs, c :: rest =>
    if c = '"' then
      match cs with
      | '$' :: name =>
        if name.all isVariableChar then (parts? .outside rest).map (.value name :: ·) else none
      | _ => none
    else parts? (.double (cs ++ [c])) rest

namespace Part

/-- A part as it is written in a word. -/
def written : Part → List Char
  | text cs => '\'' :: (cs ++ ['\''])
  | value name => '"' :: '$' :: (name ++ ['"'])

/-- Whether a part means itself when it is written between quotes. -/
def IsQuotable : Part → Prop
  | text cs => '\'' ∉ cs
  | value name => ∀ c ∈ name, isVariableChar c = true

/-- A text is kept up to the closing quote. -/
theorem parts?_text {cs : List Char} (h : '\'' ∉ cs) (before rest : List Char) :
    parts? (.single before) (cs ++ '\'' :: rest) =
      (parts? .outside rest).map (.text (before ++ cs) :: ·) := by
  induction cs generalizing before with
  | nil => simp [parts?]
  | cons c cs ih =>
    obtain ⟨hc, hcs⟩ : '\'' ≠ c ∧ '\'' ∉ cs := by simpa using h
    rw [List.cons_append, parts?, if_neg (Ne.symm hc), ih hcs, List.append_assoc,
      List.singleton_append]

/-- A variable is read by its name, up to the closing quote. -/
theorem parts?_variable {name before : List Char} (hname : ∀ c ∈ name, isVariableChar c = true)
    (hbefore : ∀ c ∈ before, isVariableChar c = true) (rest : List Char) :
    parts? (.double ('$' :: before)) (name ++ '"' :: rest) =
      (parts? .outside rest).map (.value (before ++ name) :: ·) := by
  induction name generalizing before with
  | nil =>
    have hall : before.all isVariableChar = true := List.all_eq_true.mpr hbefore
    simp [parts?, hall]
  | cons c name ih =>
    obtain ⟨hc, hname⟩ := List.forall_mem_cons.mp hname
    have hquote : c ≠ '"' := by
      rintro rfl
      exact absurd hc (by decide)
    have hlonger : ∀ d ∈ before ++ [c], isVariableChar d = true :=
      List.forall_mem_append.mpr ⟨hbefore, List.forall_mem_singleton.mpr hc⟩
    rw [List.cons_append, parts?, if_neg hquote, List.cons_append, ih hname hlonger,
      List.append_assoc, List.singleton_append]

/-- A part that can be quoted is read back. -/
theorem parts?_written {p : Part} (h : p.IsQuotable) (rest : List Char) :
    parts? .outside (p.written ++ rest) = (parts? .outside rest).map (p :: ·) := by
  cases p with
  | text cs =>
    have hread := parts?_text h [] rest
    rw [written, List.cons_append, List.append_assoc]
    exact hread
  | value name =>
    have hread := parts?_variable h (List.forall_mem_nil _) rest
    rw [written, List.cons_append, List.cons_append, List.append_assoc]
    exact hread

/-- The parts of a word are read back. -/
theorem parts?_flatMap_written {ps : List Part} (h : ∀ p ∈ ps, p.IsQuotable) (rest : List Char) :
    parts? .outside (ps.flatMap written ++ ' ' :: rest) = some ps := by
  induction ps with
  | nil => rfl
  | cons p ps ih =>
    obtain ⟨hp, hps⟩ := List.forall_mem_cons.mp h
    rw [List.flatMap_cons, List.append_assoc, parts?_written hp, ih hps, Option.map_some]

end Part
end Shell

/-! ## Status reports -/

/-- The data of a report on a run, up to what is reported. -/
def reportHead : List Shell.Part :=
  [.text "\x7b\"communication_token\":\"".toList, .value "comm_token".toList,
    .text "\",\"test_id\":".toList, .value "test_id".toList]

/-- The state and the outcome in the data of a report, behind the token and the run. -/
def reportFields? (cs : List Char) : Option (RunState × Bool) := do
  let outcome ← Text.behind? ",\"success\":".toList cs
  let (success, rest) ← ((Text.behind? "true".toList outcome).map fun rest => (true, rest)).or
    ((Text.behind? "false".toList outcome).map fun rest => (false, rest))
  let name ← Text.behind? ",\"state\":\"".toList rest
  let state ← RunState.ofName? (String.ofList (name.takeWhile (· ≠ '"')))
  if name.dropWhile (· ≠ '"') = "\"\x7d".toList then return (state, success) else none

/-- The state and the outcome that a shell command posts with the token and the run of its stage. -/
def statusReport? (command : List Char) : Option (RunState × Bool) := do
  let data ← Text.behind? Template.requestCommand command
  match ← Shell.parts? .outside data with
  | [a, b, c, d, .text fields] => if [a, b, c, d] = reportHead then reportFields? fields else none
  | _ => none

/-- The name of a state is made of capital letters and dashes. -/
theorem mem_stateName {state : RunState} {c : Char} (h : c ∈ state.name.toList) :
    c = '_' ∨ c.isUpper = true := by
  have hall {text : List Char} (h : text.all (fun c => c = '_' || c.isUpper) = true) :
      ∀ c ∈ (String.ofList text).toList, c = '_' ∨ c.isUpper = true := by
    rw [String.toList_ofList]
    simpa using h
  cases state <;> exact hall (by decide) c h

namespace Template

/-- The fields of a report are read as what it says. -/
theorem reportFields?_reportText (state : RunState) (success : Bool) :
    reportFields? (",".toList ++ ((reportText state success).toList ++ "\x7d".toList)) =
      some (state, success) := by
  have hname : ∀ c ∈ state.name.toList, decide (c ≠ '"') = true := by
    intro c hc
    apply decide_eq_true
    rintro rfl
    rcases mem_stateName hc with h | h <;> exact absurd h (by decide)
  have hrest : ",".toList ++ ((reportText state success).toList ++ "\x7d".toList) =
      ",\"success\":".toList ++ ((if success then "true" else "false" : String).toList ++
        (",\"state\":\"".toList ++ (state.name.toList ++ "\"\x7d".toList))) := by
    simp [reportText]
  have houtcome (rest : List Char) :
      ((Text.behind? "true".toList
        ((if success then "true" else "false" : String).toList ++ rest)).map
          fun rest => (true, rest)).or
        ((Text.behind? "false".toList
          ((if success then "true" else "false" : String).toList ++ rest)).map
          fun rest => (false, rest)) = some (success, rest) := by
    cases success <;> rfl
  have htake : (state.name.toList ++ "\"\x7d".toList).takeWhile (· ≠ '"') = state.name.toList := by
    rw [List.takeWhile_append_of_pos hname]
    exact List.append_nil _
  have hdrop : (state.name.toList ++ "\"\x7d".toList).dropWhile (· ≠ '"') = "\"\x7d".toList := by
    rw [List.dropWhile_append_of_pos hname]
    rfl
  rw [hrest, reportFields?, Text.behind?_append, Option.bind_eq_bind, Option.bind_some, houtcome,
    Option.bind_eq_bind, Option.bind_some]
  dsimp only
  rw [Text.behind?_append, Option.bind_eq_bind, Option.bind_some, htake, hdrop,
    String.ofList_toList, RunState.ofName?_name]
  rfl

/-! ## Commands -/

/-- The token and the run in the data of a request, as the shell is given them. -/
def shellData : List Char :=
  "'\x7b\"communication_token\":\"'\"$comm_token\"'\",\"test_id\":'\"$test_id\"',".toList

/-- What the script engine makes of a request, up to where it goes. -/
theorem scriptText_request {fields text : List Char} (h : scriptPiece? fields = some text)
    (rest : List Char) :
    scriptText (requestCommand ++ (requestData ++ (fields ++ (requestEnd ++ rest)))) =
      requestCommand ++ (shellData ++ (text ++ ("\x7d' ".toList ++ scriptText rest))) := by
  have hcommand : scriptPiece? requestCommand = some requestCommand := by decide +kernel
  have hdata : scriptPiece? requestData = some shellData := by decide +kernel
  have hend : scriptPiece? requestEnd = some "\x7d' ".toList := by decide +kernel
  rw [scriptText_append_of_piece hcommand, scriptText_append_of_piece hdata,
    scriptText_append_of_piece h, scriptText_append_of_piece hend]

/-- The shell reads the data of a request as the head of a report and what is written behind it. -/
theorem parts?_request {fields : List Char} {ps : List Shell.Part} (h : ∀ p ∈ ps, p.IsQuotable)
    (hfields : ps.flatMap Shell.Part.written = "',".toList ++ (fields ++ "\x7d'".toList))
    (rest : List Char) :
    Shell.parts? .outside (shellData ++ (fields ++ ("\x7d' ".toList ++ rest))) =
      some (reportHead ++ ps) := by
  have hhead : ∀ p ∈ reportHead, p.IsQuotable := by
    simp only [reportHead, List.forall_mem_cons, Shell.Part.IsQuotable]
    exact ⟨by decide, List.all_eq_true.mp (by decide), by decide, List.all_eq_true.mp (by decide),
      List.forall_mem_nil _⟩
  have hdata : shellData = reportHead.flatMap Shell.Part.written ++ "',".toList := by decide +kernel
  have hend : "\x7d' ".toList = "\x7d'".toList ++ [' '] := rfl
  have hword : shellData ++ (fields ++ ("\x7d' ".toList ++ rest)) =
      (reportHead ++ ps).flatMap Shell.Part.written ++ ' ' :: rest := by
    rw [hdata, hend, List.flatMap_append, hfields]
    simp only [List.append_assoc, List.singleton_append]
  rw [hword]
  exact Shell.Part.parts?_flatMap_written (List.forall_mem_append.mpr ⟨hhead, h⟩) rest

/-- The command of a report posts what it says, wherever it goes. -/
theorem statusReport?_report (state : RunState) (success : Bool) (rest : List Char) :
    statusReport? (scriptText (requestCommand ++
      (requestData ++ ((reportText state success).toList ++ (requestEnd ++ rest))))) = some (state,
      success) := by
  have hchars : ∀ c ∈ (reportText state success).toList, isPlain c = true := by
    have hname : ∀ c ∈ state.name.toList, isPlain c = true := by
      intro c hc
      have hplain : c ≠ '\\' ∧ c ≠ '\'' := by
        constructor
        all_goals
          rintro rfl
          rcases mem_stateName hc with h | h <;> exact absurd h (by decide)
      simpa [isPlain] using hplain
    have houtcome : ∀ c ∈ (if success then "true" else "false" : String).toList,
        isPlain c = true := by
      cases success <;> exact List.all_eq_true.mp (by decide)
    have hfront : ∀ c ∈ "\"success\":".toList, isPlain c = true := List.all_eq_true.mp (by decide)
    have hmiddle : ∀ c ∈ ",\"state\":\"".toList, isPlain c = true := List.all_eq_true.mp (by decide)
    simp only [reportText, String.toList_append, List.forall_mem_append]
    exact ⟨⟨⟨⟨hfront, houtcome⟩, hmiddle⟩, hname⟩, List.all_eq_true.mp (by decide)⟩
  let fields := Shell.Part.text (",".toList ++ ((reportText state success).toList ++ "\x7d".toList))
  have hquotable : fields.IsQuotable := by
    have hquote : '\'' ∉ (reportText state success).toList :=
      fun h => absurd (hchars _ h) (by decide)
    have hall : '\'' ∉ ",".toList ++ ((reportText state success).toList ++ "\x7d".toList) := by
      simp [hquote]
    exact hall
  have hwritten :
      [fields].flatMap Shell.Part.written =
          "',".toList ++ ((reportText state success).toList ++ "\x7d'".toList) := by
    simp [fields, Shell.Part.written]
  rw [scriptText_request (scriptPiece?_of_plain hchars), statusReport?, Text.behind?_append,
    Option.bind_eq_bind,
    Option.bind_some, parts?_request (List.forall_mem_singleton.mpr hquotable) hwritten]
  exact reportFields?_reportText state success

/-- The command that asks for the results to be published posts no status. -/
theorem statusReport?_publish (rest : List Char) :
    statusReport? (scriptText (requestCommand ++
      (requestData ++
        ("\"ftp_results_directory\":\"\\'\"$JOB_NAME\"\\'\"".toList ++ (requestEnd ++ rest))))) =
      none := by
  let text := "\"ftp_results_directory\":\"'\"$JOB_NAME\"'\"".toList
  let ps : List Shell.Part :=
    [.text ",\"ftp_results_directory\":\"".toList, .value "JOB_NAME".toList, .text "\"\x7d".toList]
  have hpiece :
      scriptPiece? "\"ftp_results_directory\":\"\\'\"$JOB_NAME\"\\'\"".toList = some text := by
        decide +kernel
  have hquotable : ∀ p ∈ ps, p.IsQuotable := by
    simp only [ps, List.forall_mem_cons, Shell.Part.IsQuotable]
    exact ⟨by decide, List.all_eq_true.mp (by decide), by decide, List.forall_mem_nil _⟩
  have hwritten : ps.flatMap Shell.Part.written = "',".toList ++ (text ++ "\x7d'".toList) := by
    decide +kernel
  rw [scriptText_request hpiece, statusReport?, Text.behind?_append, Option.bind_eq_bind,
    Option.bind_some, parts?_request hquotable hwritten]
  rfl

end Template

/-! ## Marks -/

/-- What a line of a script tells of the reports: a stage begins, what follows is done when the
stage had an outcome, or a report is posted. -/
inductive StageMark where
  | stage (title : String)
  | outcome (success : Bool)
  | report (state : RunState) (success : Bool)
deriving DecidableEq, Repr

/-- What a line tells of the reports, if it does. -/
def stageMark? (text : List Char) : Option StageMark :=
  let line := text.dropWhile Text.isBlank
  ((Text.behind? "stage('".toList line).map fun rest =>
    .stage (String.ofList (rest.takeWhile (· ≠ '\'')))).or <|
    ((Text.behind? "failure \x7b".toList line).map fun _ => .outcome false).or <|
      ((Text.behind? "success \x7b".toList line).map fun _ => .outcome true).or <|
        (Text.behind? "sh '".toList line).bind fun rest =>
          (statusReport? (scriptText rest)).map fun r => .report r.1 r.2

/-- A status report that a stage posts, and for which outcome of the stage it does. -/
structure StatusPost where
  onOutcome : Option Bool
  state : RunState
  success : Bool
deriving DecidableEq, Repr

/-- A stage with the status reports that it may post. -/
structure StageReports where
  title : String
  posts : List StatusPost
deriving DecidableEq, Repr

/-- The posts of the stage that has begun, and the stages behind it. -/
def stagesFrom (onOutcome : Option Bool) : List StageMark → List StatusPost × List StageReports
  | [] => ([], [])
  | .stage title :: rest => ([], ⟨title, (stagesFrom none rest).1⟩ :: (stagesFrom none rest).2)
  | .outcome success :: rest => stagesFrom (some success) rest
  | .report state success :: rest =>
    (⟨onOutcome, state, success⟩ :: (stagesFrom onOutcome rest).1, (stagesFrom onOutcome rest).2)

/-- The stages that marks tell of. -/
def stagesOf (marks : List StageMark) : List StageReports := (stagesFrom none marks).2

/-- What a stage of the built-in template may post: its state, with the outcome that it had. -/
def Stage.reports (s : Stage) : StageReports where
  title := s.title
  posts := [⟨some false, s.state, false⟩, ⟨some true, s.state, true⟩]

/-- The stages of the built-in template. The last one reports the end of the run, whatever
happened. -/
def builtinStages : List StageReports :=
  Stage.all.map Stage.reports ++ [⟨"End Testing Process", [⟨none, .testEnded, true⟩]⟩]

/-- The marks of a stage. -/
def Stage.marks (s : Stage) : List StageMark :=
  [.stage s.title, .outcome false, .report s.state false, .outcome true, .report s.state true]

/-- The marks of the built-in template. -/
def builtinMarks : List StageMark :=
  Stage.all.flatMap Stage.marks ++ [.stage "End Testing Process", .report .testEnded true]

/-- The stages of the built-in marks are the built-in stages. -/
theorem stagesOf_builtinMarks : stagesOf builtinMarks = builtinStages := by decide

/-- The indent of a line does not change its mark. -/
theorem stageMark?_indent {indent : List Char} (hindent : IsIndent indent) (text : List Char) :
    stageMark? (indent ++ text) = stageMark? text := by
  simp only [stageMark?, List.dropWhile_append_of_pos hindent.isBlank]

namespace Template

section Lines

variable {s : ScriptSettings} {runId : Int}

/-- A command is marked by the report that it posts. -/
theorem stageMark?_command {indent : List Char} (hindent : IsIndent indent) (body : List Char) :
    stageMark? (indent ++ ("sh '".toList ++ body)) =
      (statusReport? (scriptText body)).map fun r => .report r.1 r.2 := by
  rw [stageMark?_indent hindent]
  rfl

/-- A request is marked by what it posts, wherever it goes. -/
theorem request_marks {indent fields : String} (hindent : IsIndent indent.toList)
    (hfields : IsPlain fields.toList) {posted : Option (RunState × Bool)} (p : Placeholder)
    (hposted : ∀ rest,
      statusReport?
        (scriptText (requestCommand ++ (requestData ++ (fields.toList ++ (requestEnd ++ rest)))))
        = posted) :
    LinesRead stageMark? (scriptValues s runId) [indent ++ Stage.request fields p] []
      (posted.map fun r => StageMark.report r.1 r.2).toList := by
  obtain ⟨v, hv⟩ := Option.isSome_iff_exists.mp (scriptValues_isSome s runId p)
  have hread : LinesRead stageMark? (scriptValues s runId) [_] [] _ :=
    .placeholder (toList_request indent fields p) (isPlain_requestFront hindent hfields)
      (.ofList (by decide)) hv
  simp only [requestFront, List.append_assoc] at hread
  rwa [stageMark?_command hindent, hposted] at hread

/-- A line that reports a state has the mark of the report. -/
theorem report_marks {indent : String} (hindent : IsIndent indent.toList) (state : RunState)
    (success : Bool) :
    LinesRead stageMark? (scriptValues s runId) [indent ++ Stage.report state success] []
      [.report state success] :=
  request_marks hindent (isPlain_reportText state success) .statusUrl
    (statusReport?_report state success)

/-- The line that publishes has no mark. -/
theorem publish_marks {indent : String} (hindent : IsIndent indent.toList) :
    LinesRead stageMark? (scriptValues s runId) [indent ++ Stage.publish] [] [] :=
  request_marks hindent (.ofList (by decide)) .publishUrl statusReport?_publish

/-- The title of a stage is read up to its closing quote. -/
theorem title_marks {title : String} (h : IsPlain title.toList) (hquote : '\'' ∉ title.toList) :
    LinesRead stageMark? (scriptValues s runId) ["        stage('" ++ title ++ "') \x7b"] []
      [.stage title] := by
  have hindent : IsIndent "        ".toList := .ofList (by decide)
  have hopen : "        stage('".toList = "        ".toList ++ "stage('".toList :=
    toList_literal rfl
  have hline : ("        stage('" ++ title ++ "') \x7b").toList =
      "        ".toList ++ ("stage('".toList ++ (title.toList ++ "') \x7b".toList)) := by
    simp only [String.toList_append, hopen, List.append_assoc]
  have hplain : IsPlain ("        stage('" ++ title ++ "') \x7b").toList := by
    rw [hline]
    exact hindent.isPlain.append (.append (.ofList (by decide)) (h.append (.ofList (by decide))))
  have hchars : ∀ c ∈ title.toList, decide (c ≠ '\'') = true :=
    fun c hc => decide_eq_true fun heq => hquote (heq ▸ hc)
  have htitle :
      (title.toList ++ ("') \x7b".toList ++ ['\n'])).takeWhile (· ≠ '\'') = title.toList := by
    rw [List.takeWhile_append_of_pos hchars]
    exact List.append_nil _
  have hmark :
      stageMark? ("stage('".toList ++ (title.toList ++ ("') \x7b".toList ++ ['\n']))) =
          some (.stage title) := by
    have hbegins (rest : List Char) :
        ("stage('".toList ++ rest).dropWhile Text.isBlank = "stage('".toList ++ rest := rfl
    rw [stageMark?, hbegins, Text.behind?_append, Option.map_some, htitle, String.ofList_toList]
    rfl
  have hread : LinesRead stageMark? (scriptValues s runId) [_] [] _ := .plain hplain
  rw [hline, List.append_assoc, List.append_assoc, List.append_assoc, stageMark?_indent hindent,
    hmark] at hread
  exact hread

/-- What binds the token and the run is not marked. -/
theorem binding_marks {front back : String} {p : Placeholder} (hfront : IsPlain front.toList)
    (hback : IsPlain back.toList) (hunmarked : ∀ rest, stageMark? (front.toList ++ rest) = none) :
    LinesRead stageMark? (scriptValues s runId) [front ++ p.marker ++ back] [] [] := by
  obtain ⟨v, hv⟩ := Option.isSome_iff_exists.mp (scriptValues_isSome s runId p)
  have hline :
      (front ++ p.marker ++ back).toList = front.toList ++ (p.marker.toList ++ back.toList) := by
    simp only [String.toList_append, List.append_assoc]
  have hread : LinesRead stageMark? (scriptValues s runId) [_] [] _ :=
    .placeholder hline hfront hback hv
  rwa [hunmarked] at hread

/-- The lines that open a stage are marked by its title. -/
theorem opening_marks {title : String} (h : IsPlain title.toList) (hquote : '\'' ∉ title.toList)
    (environment : Option Slot) :
    LinesRead stageMark? (scriptValues s runId) (Stage.opening title environment)
      environment.toList [.stage title] := by
  have hopen : LinesRead stageMark? (scriptValues s runId) ["            environment \x7b"] [] [] :=
    .silent (by decide)
  have hclose : LinesRead stageMark? (scriptValues s runId) ["            \x7d"] [] [] :=
    .silent (by decide)
  have htoken : LinesRead stageMark? (scriptValues s runId)
      ["                comm_token = credentials('" ++ Placeholder.tokenCredential.marker ++ "')"]
      [] [] :=
    binding_marks (.ofList (by decide)) (.ofList (by decide)) fun _ => rfl
  have hrun : LinesRead stageMark? (scriptValues s runId)
      ["                test_id = " ++ Placeholder.testId.marker] [] [] := by
    have hempty : "                test_id = " ++ Placeholder.testId.marker =
        "                test_id = " ++ Placeholder.testId.marker ++ "" := by simp
    rw [hempty]
    exact binding_marks (.ofList (by decide)) (.ofList (by decide)) fun _ => rfl
  have hbound := htoken.cons (hrun.cons hclose)
  cases environment with
  | none => exact ((title_marks h hquote).cons hopen).append hbound
  | some slot =>
    exact (((title_marks h hquote).cons hopen).append (.slot isIndent_environment slot)).append
      hbound

/-- The lines of a stage are marked by its title and by what it posts for each outcome. -/
theorem stage_marks {stage : Stage} (h : IsPlain stage.title.toList)
    (hquote : '\'' ∉ stage.title.toList) :
    LinesRead stageMark? (scriptValues s runId) stage.lines
      (stage.environment.toList ++ [stage.steps]) stage.marks := by
  have hindent : IsIndent "                    ".toList := .ofList (by decide)
  have hbrace : LinesRead stageMark? (scriptValues s runId) ["                \x7d"] [] [] :=
    .silent (by decide)
  have hend : LinesRead stageMark? (scriptValues s runId) ["            \x7d"] [] [] :=
    .silent (by decide)
  have hsteps : LinesRead stageMark? (scriptValues s runId)
      ["            steps \x7b",
        "                catchError(buildResult: 'SUCCESS', stageResult: 'FAILURE') \x7b",
        "                    " ++ stage.steps.marker, "                \x7d", "            \x7d"]
      [stage.steps] [] :=
    .cons (.silent (by decide)) (.cons (.silent (by decide))
      (.cons (.slot hindent stage.steps) (hbrace.cons hend)))
  have hfailing : LinesRead stageMark? (scriptValues s runId) ["                failure \x7b"] []
      [.outcome false] :=
    .literal (by decide)
  have hfailure : LinesRead stageMark? (scriptValues s runId)
      ["            post \x7b", "                failure \x7b",
        "                    " ++ Stage.report stage.state false, "                \x7d"] []
      [.outcome false, .report stage.state false] :=
    .cons (.silent (by decide))
      (hfailing.cons ((report_marks hindent stage.state false).cons hbrace))
  have hsucceeding : LinesRead stageMark? (scriptValues s runId) ["                success \x7b"] []
      [.outcome true] :=
    .literal (by decide)
  have hsuccess : LinesRead stageMark? (scriptValues s runId)
      ["                success \x7b", "                    " ++ Stage.report stage.state true,
        "                \x7d", "            \x7d", "        \x7d"] []
      [.outcome true, .report stage.state true] :=
    hsucceeding.cons
      ((report_marks hindent stage.state true).cons (hbrace.cons (hend.cons (.silent (by decide)))))
  exact (opening_marks h hquote stage.environment).append (hsteps.append (hfailure.append hsuccess))

/-- The last lines have the marks of the last stage and its report. -/
theorem lastLines_marks :
    LinesRead stageMark? (scriptValues s runId) Stage.lastLines []
      [.stage "End Testing Process", .report .testEnded true] := by
  exact (opening_marks (.ofList (by decide)) (by decide) none).append (.cons (.silent (by decide))
    ((report_marks isIndent_environment .testEnded true).cons
      ((publish_marks isIndent_environment).cons
      (.cons (.silent (by decide)) (.silent (by decide))))))

/-- The lines of the built-in template are marked by its stages. -/
theorem builtinLines_marks : LinesRead stageMark? (scriptValues s runId) builtinLines Slot.all
      builtinMarks := by
  have htitles : ∀ stage ∈ Stage.all, IsPlain stage.title.toList ∧ '\'' ∉ stage.title.toList := by
    simp only [Stage.all, List.forall_mem_cons]
    refine ⟨?_, ?_, ?_, ?_, ?_, ?_, ?_, ?_, List.forall_mem_nil _⟩
    all_goals exact ⟨.ofList (by decide), by decide⟩
  have hstages : LinesRead stageMark? (scriptValues s runId) (Stage.all.flatMap Stage.lines)
      Slot.all (Stage.all.flatMap Stage.marks) :=
    .flatMap fun stage hstage => stage_marks (htitles stage hstage).1 (htitles stage hstage).2
  have hopen : LinesRead stageMark? (scriptValues s runId)
      ["pipeline \x7b", "    agent any", "    stages \x7b"] [] [] :=
    .cons (.silent (by decide)) (.cons (.silent (by decide)) (.silent (by decide)))
  have hclose : LinesRead stageMark? (scriptValues s runId) ["    \x7d", "\x7d"] [] [] :=
    .cons (.silent (by decide)) (.silent (by decide))
  exact ((hopen.append hstages).append lastLines_marks).append hclose

end Lines

/-- The stages of a script of the built-in template, read in its text between the slots, are those
of the template. -/
theorem stagesOf_builtin {s : ScriptSettings} {runId : Int} {blocks : Slot → List String}
    {outs : List (List Char)}
    (h : List.Forall₂ (LineFilled blocks (scriptValues s runId))
      (Text.splitLines builtinText.toList) outs) :
    stagesOf (readings stageMark? (Text.splitLines builtinText.toList) outs) = builtinStages := by
  rw [splitLines_builtinText] at h ⊢
  rw [builtinLines_marks.gives blocks outs h, stagesOf_builtinMarks]

end Template
end PipelineManager
