import PipelineManager.Pipeline.Builtin
import PipelineManager.Proofs.Pipeline.Rendering
import PipelineManager.Proofs.Service.Names
import PipelineManager.Text.Search

/-!
# What the built-in template declares

A stage of a pipeline declares in its environment which credential holds the communication token and
which run is reported. The built-in template is read line by line: a line is plain, holds a slot, or
holds one placeholder between plain texts. Hence it is a template, and its text declares in every
stage the credential and the identifier that it is filled with, and nothing besides.
-/

namespace PipelineManager

/-! ## Literals

The lemmas on `String.ofList` apply to literals, whose characters are then at hand. To evaluate
`toList` on a literal takes much longer. -/

/-- The characters of a literal are those of its parts. -/
theorem toList_literal {text front back : List Char} (h : text = front ++ back) :
    (String.ofList text).toList = (String.ofList front).toList ++ (String.ofList back).toList := by
  simp only [String.toList_ofList, h]

/-! ## Plain text -/

/-- A text that has no opening bracket and no line feed. -/
def IsPlain (text : List Char) : Prop := ∀ c ∈ text, c ≠ '<' ∧ c ≠ '\n'

instance (text : List Char) : Decidable (IsPlain text) :=
  List.decidableBAll (fun c => c ≠ '<' ∧ c ≠ '\n') text

namespace IsPlain

variable {text text' : List Char}

/-- A plain text behind a plain text is plain. -/
theorem append (h : IsPlain text) (h' : IsPlain text') : IsPlain (text ++ text') :=
  List.forall_mem_append.mpr ⟨h, h'⟩

/-- A plain text does not go across lines. -/
theorem newline_notMem (h : IsPlain text) : '\n' ∉ text := fun hmem => (h _ hmem).2 rfl

/-- The markers behind a plain text are the only ones. -/
theorem markerNames_append (h : IsPlain text) (rest : List Char) :
    markerNames (text ++ rest) = markerNames rest := by
  induction text with
  | nil => rfl
  | cons c text ih =>
    obtain ⟨hc, htext⟩ := List.forall_mem_cons.mp h
    rw [List.cons_append, markerNames_char fun heq => absurd heq hc.1, ih htext]

/-- A plain text has no marker. -/
theorem markerNames_eq (h : IsPlain text) : markerNames text = [] := by
  have hrest := h.markerNames_append []
  rwa [List.append_nil, markerNames_nil] at hrest

/-- A literal is plain when its characters are. -/
theorem ofList (h : IsPlain text) : IsPlain (String.ofList text).toList := by
  rw [String.toList_ofList]
  exact h

end IsPlain

/-- A text of blanks alone, as stands in front of a line. -/
def IsIndent (text : List Char) : Prop := ∀ c ∈ text, c = ' '

instance (text : List Char) : Decidable (IsIndent text) :=
  List.decidableBAll (fun c => c = ' ') text

namespace IsIndent

variable {text : List Char}

/-- An indent is blank. -/
theorem isBlank (h : IsIndent text) : ∀ c ∈ text, Text.isBlank c = true := by
  intro c hc
  rw [h c hc]
  rfl

/-- An indent is plain. -/
theorem isPlain (h : IsIndent text) : IsPlain text := by
  intro c hc
  rw [h c hc]
  decide

/-- A literal is an indent when its characters are blanks. -/
theorem ofList (h : IsIndent text) : IsIndent (String.ofList text).toList := by
  rw [String.toList_ofList]
  exact h

end IsIndent

/-! ## Declarations -/

/-- What a line of a pipeline declares: a stage, or in its environment the communication token or
the run. Each with the text behind the keyword. -/
inductive Declaration where
  | stage (text : String)
  | token (text : String)
  | testId (text : String)
deriving DecidableEq, Repr

/-- The keywords, and what they declare. -/
def Declaration.keywords : List (String × (String → Declaration)) :=
  [("stage(", stage), ("comm_token = ", token), ("test_id = ", testId)]

/-- What a text declares at its beginning, up to the end of the line. -/
def declaration? (text : List Char) : Option Declaration :=
  Declaration.keywords.findSome? fun (word, declare) =>
    (Text.behind? word.toList (text.dropWhile Text.isBlank)).map fun rest =>
      declare (String.ofList (rest.takeWhile (· ≠ '\n')))

namespace Template

/-- What is read in the text of a template between its slots, line by line, as the lines of the
template are filled. -/
def readings {β : Type} (read : List Char → Option β) (lines : List Text.Line)
    (outs : List (List Char)) : List β :=
  (lines.zip outs).flatMap fun (l, out) => if slotsIn l.text = [] then (read out).toList else []

/-- What the text of a template declares between its slots, as the lines of the template
are filled. -/
def declarations (lines : List Text.Line) (outs : List (List Char)) : List Declaration :=
  readings declaration? lines outs

end Template

/-- Blanks in front of a line do not change what it declares. -/
theorem declaration?_indent {indent : List Char} (hindent : IsIndent indent) (text : List Char) :
    declaration? (indent ++ text) = declaration? text := by
  simp only [declaration?, List.dropWhile_append_of_pos hindent.isBlank]

/-- What stands in front of the end of a line is the line. -/
theorem takeWhile_line {text : List Char} (h : '\n' ∉ text) :
    (text ++ ['\n']).takeWhile (· ≠ '\n') = text := by
  have hall : ∀ c ∈ text, decide (c ≠ '\n') = true :=
    fun c hc => decide_eq_true fun heq => h (heq ▸ hc)
  rw [List.takeWhile_append_of_pos hall]
  simp

/-- A line that begins with a keyword declares what is behind it. -/
theorem declaration?_keyword {word : String} {declare : String → Declaration}
    (hword : (word, declare) ∈ Declaration.keywords) {indent rest : List Char}
    (hindent : IsIndent indent) (hrest : '\n' ∉ rest) :
    declaration? (indent ++ (word.toList ++ (rest ++ ['\n']))) =
      some (declare (String.ofList rest)) := by
  have hdeclare : some (declare (String.ofList ((rest ++ ['\n']).takeWhile (· ≠ '\n')))) =
      some (declare (String.ofList rest)) := by rw [takeWhile_line hrest]
  rw [declaration?_indent hindent, ← hdeclare]
  simp only [Declaration.keywords, List.mem_cons, Prod.mk.injEq, List.not_mem_nil, or_false]
    at hword
  rcases hword with ⟨rfl, rfl⟩ | ⟨rfl, rfl⟩ | ⟨rfl, rfl⟩ <;> rfl

/-- A command declares nothing. -/
theorem declaration?_command {indent : List Char} (hindent : IsIndent indent) (rest : List Char) :
    declaration? (indent ++ ("sh '".toList ++ rest)) = none := by
  rw [declaration?_indent hindent]
  rfl

/-! ## Filled text -/

/-- The name of a placeholder may stand in a marker. -/
theorem Placeholder.isMarkerName (p : Placeholder) : IsMarkerName p.name.toList := by
  have hchars : p.name.toList.all isMarkerChar = true := by cases p <;> decide
  cases p <;> exact ⟨⟨_, _, rfl, rfl⟩, List.all_eq_true.mp hchars⟩

/-- The marker of a placeholder is its name in brackets. -/
theorem Placeholder.marker_toList (p : Placeholder) :
    p.marker.toList = '<' :: (p.name.toList ++ ['>']) := by
  simp [marker]

namespace Template

variable {blocks : Slot → List String} {values : Placeholder → Option String} {text out : List Char}

/-- A plain text at the beginning stays as it is when placeholders are replaced. -/
theorem Replaced.exists_of_plain_append (h : IsPlain text) {rest : List Char}
    (hout : Replaced values (text ++ rest) out) :
    ∃ out', out = text ++ out' ∧ Replaced values rest out' := by
  induction text generalizing out with
  | nil => exact ⟨out, rfl, hout⟩
  | cons c text ih =>
    obtain ⟨hc, htext⟩ := List.forall_mem_cons.mp h
    cases hout with
    | char _ hrest =>
      obtain ⟨out', rfl, hout'⟩ := ih htext hrest
      exact ⟨out', rfl, hout'⟩
    | placeholder hat _ _ => exact absurd (List.cons.inj hat.eq).1 hc.1

/-- A plain text stays as it is when placeholders are replaced. -/
theorem Replaced.eq_of_plain (h : IsPlain text) (hout : Replaced values text out) : out = text := by
  rw [← List.append_nil text] at hout
  obtain ⟨_, rfl, hrest⟩ := hout.exists_of_plain_append h
  cases hrest with
  | nil => exact List.append_nil text
  | placeholder hat _ _ => cases hat.eq

/-- A placeholder at the beginning is replaced by its value. -/
theorem Replaced.exists_of_marker_append {p : Placeholder} {rest : List Char}
    (hout : Replaced values (p.marker.toList ++ rest) out) :
    ∃ v out', values p = some v ∧ out = v.toList ++ out' ∧ Replaced values rest out' := by
  have hmarker : p.marker.toList ++ rest = '<' :: (p.name.toList ++ '>' :: rest) := by
    simp [p.marker_toList]
  rw [hmarker, ← substitute_eq_ok_iff, substitute_marker p.isMarkerName, joined_eq_ok_iff] at hout
  obtain ⟨value, out', hvalue, hrest, rfl⟩ := hout
  obtain ⟨v, hv, rfl⟩ := fillPiece_eq_ok_iff.mp hvalue
  exact ⟨v, out', hv, rfl, substitute_eq_ok_iff.mp hrest⟩

/-! ## Lines -/

/-- A line as it stands in a template. -/
def lineOf (line : String) : Text.Line := ⟨line.toList, true⟩

/-- In one line is read what it says, unless it is that of a slot. -/
theorem readings_singleton {β : Type} (read : List Char → Option β) (l : Text.Line)
    (out : List Char) :
    readings read [l] [out] = if slotsIn l.text = [] then (read out).toList else [] := by
  simp [readings]

/-- A text whose markers are all placeholders has no slot. -/
theorem slotsIn_of_placeholders {text : List Char}
    (h : ∀ name ∈ markerNames text, ∃ p : Placeholder, name = p.name) :
    slotsIn text = [] := by
  refine List.filterMap_eq_nil_iff.mpr fun name hname => ?_
  obtain ⟨p, rfl⟩ := h name hname
  exact p.slot_ofName?_name

/-- A placeholder between plain texts is the only marker of a line. -/
theorem markerNames_placeholder {front back : List Char} (hfront : IsPlain front)
    (hback : IsPlain back) (p : Placeholder) :
    markerNames (front ++ (p.marker.toList ++ back)) = [p.name] := by
  rw [hfront.markerNames_append, p.marker_toList]
  simp [markerNames_marker p.isMarkerName, hback.markerNames_eq]

/-- An indented slot is alone in its line. -/
theorem slotsIn_slot {indent : String} (hindent : IsIndent indent.toList) (s : Slot) :
    markerNames (indent ++ s.marker).toList = [s.name] ∧
      Text.trim (indent ++ s.marker).toList = s.marker.toList ∧
      slotsIn (indent ++ s.marker).toList = [s] := by
  have htrim : Text.trim (indent ++ s.marker).toList = s.marker.toList := by
    rw [String.toList_append, Text.trim, Text.trimWhile,
      List.dropWhile_append_of_pos hindent.isBlank]
    exact trim_marker s
  have hnames := markerNames_of_trim_eq htrim
  refine ⟨hnames, htrim, ?_⟩
  rw [slotsIn, hnames, List.filterMap_cons_some s.ofName?_name, List.filterMap_nil]

/-- Lines that may stand in a template, with their slots and what is read between these, however
they are filled. -/
structure LinesRead {β : Type} (read : List Char → Option β) (values : Placeholder → Option String)
    (lines : List String) (slots : List Slot) (given : List β) : Prop where
  newline : ∀ line ∈ lines, '\n' ∉ line.toList
  permitted : ∀ line ∈ lines, MarkersPermitted line.toList line.toList
  slots_eq : slotsOf (lines.map lineOf) = slots
  gives : ∀ blocks outs, List.Forall₂ (LineFilled blocks values) (lines.map lineOf) outs →
    readings read (lines.map lineOf) outs = given

namespace LinesRead

variable {β : Type} {read : List Char → Option β} {line : String} {lines lines' : List String}
  {slots slots' : List Slot} {given given' : List β}

/-- In no lines is read nothing. -/
theorem nil : LinesRead read values [] [] [] where
  newline := List.forall_mem_nil _
  permitted := List.forall_mem_nil _
  slots_eq := rfl
  gives _ _ _ := rfl

/-- What is read in lines and in those behind them is read one after the other. -/
theorem append (h : LinesRead read values lines slots given)
    (h' : LinesRead read values lines' slots' given') :
    LinesRead read values (lines ++ lines') (slots ++ slots') (given ++ given') where
  newline := List.forall_mem_append.mpr ⟨h.newline, h'.newline⟩
  permitted := List.forall_mem_append.mpr ⟨h.permitted, h'.permitted⟩
  slots_eq := by
    rw [← h.slots_eq, ← h'.slots_eq, List.map_append, slotsOf, List.flatMap_append, slotsOf,
      slotsOf]
  gives := by
    intro blocks outs houts
    rw [List.map_append] at houts ⊢
    have hfront := List.forall₂_take (lines.map lineOf).length houts
    have hback := List.forall₂_drop (lines.map lineOf).length houts
    rw [List.take_left] at hfront
    rw [List.drop_left] at hback
    rw [← List.take_append_drop (lines.map lineOf).length outs, readings,
      List.zip_append hfront.length_eq, List.flatMap_append]
    exact congrArg₂ (· ++ ·) (h.gives blocks _ hfront) (h'.gives blocks _ hback)

/-- One line may stand in front of others. -/
theorem cons (h : LinesRead read values [line] slots given)
    (h' : LinesRead read values lines slots' given') :
    LinesRead read values (line :: lines) (slots ++ slots') (given ++ given') := h.append h'

/-- Lines that are made of the members of a list are read member by member. -/
theorem flatMap {α : Type} {xs : List α} {lines : α → List String} {slots : α → List Slot}
    {given : α → List β} (h : ∀ x ∈ xs, LinesRead read values (lines x) (slots x) (given x)) :
    LinesRead read values (xs.flatMap lines) (xs.flatMap slots) (xs.flatMap given) := by
  induction xs with
  | nil => exact nil
  | cons x xs ih =>
    obtain ⟨hx, hxs⟩ := List.forall_mem_cons.mp h
    simp only [List.flatMap_cons]
    exact hx.append (ih hxs)

/-- A line without slot may stand in a template when all its markers are placeholders. In it is read
what is read in its text with the values in it. -/
theorem of_text (hnewline : '\n' ∉ line.toList)
    (hmarkers : ∀ name ∈ markerNames line.toList, ∃ p : Placeholder, name = p.name)
    (hout : ∀ out, Replaced values line.toList out → (read (out ++ ['\n'])).toList = given) :
    LinesRead read values [line] [] given := by
  have hslots : slotsIn line.toList = [] := slotsIn_of_placeholders hmarkers
  refine ⟨by simpa using hnewline, ?_, by simp [slotsOf, lineOf, hslots],
    fun blocks outs houts => ?_⟩
  · rw [List.forall_mem_singleton, markersPermitted_iff]
    exact fun name hname => .inl (hmarkers name hname)
  · obtain ⟨out, _, hline, hnil, rfl⟩ := List.forall₂_cons_left_iff.mp houts
    cases hnil
    cases hline with
    | block hline _ _ _ => exact absurd (mem_slotsIn_of_line hline) (by simp [lineOf, hslots])
    | text hreplaced =>
      rw [List.map_singleton, readings_singleton]
      exact (if_pos hslots).trans (hout _ hreplaced)

/-- In a plain line is read what it says. -/
theorem plain (h : IsPlain line.toList) :
    LinesRead read values [line] [] (read (line.toList ++ ['\n'])).toList := by
  refine of_text h.newline_notMem (by simp [h.markerNames_eq]) fun out hout => ?_
  rw [hout.eq_of_plain h]

/-- What is read in a plain line that is a literal can be evaluated. -/
theorem literal {text : List Char} (h : IsPlain text ∧ (read (text ++ ['\n'])).toList = given) :
    LinesRead read values [String.ofList text] [] given := by
  have hread : LinesRead read values [String.ofList text] [] _ := plain h.1.ofList
  rwa [String.toList_ofList, h.2] at hread

/-- A plain line in which nothing is read. -/
theorem silent {text : List Char} (h : IsPlain text ∧ (read (text ++ ['\n'])).toList = []) :
    LinesRead read values [String.ofList text] [] [] := literal h

/-- In a line with a placeholder is read what it says with the value in its place. -/
theorem placeholder {front back : List Char} {p : Placeholder} {v : String}
    (hline : line.toList = front ++ (p.marker.toList ++ back)) (hfront : IsPlain front)
    (hback : IsPlain back) (hv : values p = some v) :
    LinesRead read values [line] [] (read (front ++ (v.toList ++ (back ++ ['\n'])))).toList := by
  have hmarker : IsPlain p.name.toList := by cases p <;> decide
  have hnames : markerNames line.toList = [p.name] := by
    rw [hline]
    exact markerNames_placeholder hfront hback p
  refine of_text ?_ (by simp [hnames]) fun out hout => ?_
  · simp [hline, p.marker_toList, hfront.newline_notMem, hback.newline_notMem,
      hmarker.newline_notMem]
  · rw [hline] at hout
    obtain ⟨_, rfl, hrest⟩ := hout.exists_of_plain_append hfront
    obtain ⟨v', _, hv', rfl, htail⟩ := hrest.exists_of_marker_append
    obtain rfl := Option.some.inj (hv.symm.trans hv')
    obtain rfl := htail.eq_of_plain hback
    rw [List.append_assoc, List.append_assoc]

/-- In the line of a slot nothing is read. -/
theorem slot {indent : String} (hindent : IsIndent indent.toList) (s : Slot) :
    LinesRead read values [indent ++ s.marker] [s] [] := by
  obtain ⟨hnames, htrim, hslots⟩ := slotsIn_slot hindent s
  have hone : slotsOf ([indent ++ s.marker].map lineOf) = [s] := by
    simp only [slotsOf, lineOf, List.map_singleton, List.flatMap_singleton, hslots]
  refine ⟨?_, ?_, hone, fun blocks outs houts => ?_⟩
  · simp [hindent.isPlain.newline_notMem, newline_notMem_marker s]
  · rw [List.forall_mem_singleton, markersPermitted_iff, hnames]
    exact List.forall_mem_singleton.mpr (.inr ⟨s, rfl, htrim⟩)
  · obtain ⟨out, _, -, hnil, rfl⟩ := List.forall₂_cons_left_iff.mp houts
    cases hnil
    rw [List.map_singleton, readings_singleton, if_neg]
    exact hslots ▸ List.cons_ne_nil s []

/-- A line that begins with a keyword declares what is behind it, with the value in its place. -/
theorem keyword {word front back : String} {declare : String → Declaration} {p : Placeholder}
    {v : String} (hword : (word, declare) ∈ Declaration.keywords) {indent : List Char}
    (hindent : IsIndent indent)
    (hline : line.toList = indent ++ (word.toList ++ (front ++ p.marker ++ back).toList))
    (hplain : IsPlain (word.toList ++ front.toList)) (hback : IsPlain back.toList)
    (hv : values p = some v) (hnewline : '\n' ∉ v.toList) :
    LinesRead declaration? values [line] [] [declare (front ++ v ++ back)] := by
  have hline' :
      line.toList =
          indent ++ (word.toList ++ front.toList) ++ (p.marker.toList ++ back.toList) := by
    simp [hline]
  have hrest : '\n' ∉ (front ++ v ++ back).toList := by
    have hfront : '\n' ∉ front.toList := fun h => hplain.newline_notMem (List.mem_append_right _ h)
    simp [hfront, hnewline, hback.newline_notMem]
  have hdeclares :
    declaration?
      (indent ++ (word.toList ++ front.toList) ++ (v.toList ++ (back.toList ++ ['\n']))) =
      some (declare (front ++ v ++ back)) := by
    have hkeyword := declaration?_keyword hword hindent hrest
    rw [String.ofList_toList] at hkeyword
    rw [← hkeyword]
    simp
  have hread : LinesRead declaration? values [line] [] _ :=
    placeholder hline' (hindent.isPlain.append hplain) hback hv
  rwa [hdeclares] at hread

end LinesRead

/-! ## Stages -/

section Stages

/-- What a stage declares. -/
def stageDeclarations (title credential runId : String) : List Declaration :=
  [.stage ("'" ++ title ++ "') \x7b"), .token ("credentials('" ++ credential ++ "')"),
    .testId runId]

/-- A number does not go across lines. -/
theorem newline_notMem_intText (n : Int) : '\n' ∉ (Json.intText n).toList := by
  intro h
  rcases Json.mem_intText h with h | h <;> exact absurd h (by decide)

/-- The title of a stage. -/
theorem title_reads {title : String} (h : IsPlain title.toList) :
    LinesRead declaration? values ["        stage('" ++ title ++ "') \x7b"] []
      [.stage ("'" ++ title ++ "') \x7b")] := by
  have hindent : IsIndent "        ".toList := .ofList (by decide)
  have hopen : "        stage('".toList = "        ".toList ++ "stage('".toList :=
    toList_literal rfl
  have hquote : "stage('".toList = "stage(".toList ++ "'".toList := toList_literal rfl
  have hrest : IsPlain ("'" ++ title ++ "') \x7b").toList := by
    simp only [String.toList_append]
    exact (IsPlain.append (.ofList (by decide)) h).append (.ofList (by decide))
  have hline : ("        stage('" ++ title ++ "') \x7b").toList =
      "        ".toList ++ ("stage(".toList ++ ("'" ++ title ++ "') \x7b").toList) := by
    simp only [String.toList_append, hopen, hquote, List.append_assoc]
  have hword : ("stage(", Declaration.stage) ∈ Declaration.keywords := by
    simp [Declaration.keywords]
  have hdeclares := declaration?_keyword hword hindent hrest.newline_notMem
  have hplain : IsPlain ("        stage('" ++ title ++ "') \x7b").toList := by
    rw [hline]
    exact hindent.isPlain.append (.append (.ofList (by decide)) hrest)
  have hread : LinesRead declaration? values [_] [] _ := LinesRead.plain hplain
  rw [hline, List.append_assoc, List.append_assoc, hdeclares, String.ofList_toList] at hread
  exact hread

variable {s : ScriptSettings} {runId : Int}

/-- The name of a credential does not go across lines. -/
theorem newline_notMem_tokenCredential (runId : Int) : '\n' ∉ (tokenCredential runId).toList := by
  have hprefix : IsPlain "communication_token_".toList := .ofList (by decide)
  unfold tokenCredential
  rw [String.toList_append]
  exact List.not_mem_append hprefix.newline_notMem (newline_notMem_intText runId)

/-- The indentation of what a stage binds and of what it does. -/
theorem isIndent_environment : IsIndent "                ".toList := .ofList (by decide)

/-- The credential of the communication token. -/
theorem token_reads :
    LinesRead declaration? (scriptValues s runId)
      ["                comm_token = credentials('" ++ Placeholder.tokenCredential.marker ++ "')"]
      [] [.token ("credentials('" ++ tokenCredential runId ++ "')")] := by
  have hword : ("comm_token = ", Declaration.token) ∈ Declaration.keywords := by
    simp [Declaration.keywords]
  have hopen : "                comm_token = credentials('".toList =
      "                ".toList ++ "comm_token = credentials('".toList := toList_literal rfl
  have hquote :
      "comm_token = credentials('".toList = "comm_token = ".toList ++ "credentials('".toList :=
    toList_literal rfl
  have hplain : IsPlain ("comm_token = ".toList ++ "credentials('".toList) :=
    .append (.ofList (by decide)) (.ofList (by decide))
  have hvalue : scriptValues s runId .tokenCredential = some (tokenCredential runId) := rfl
  have hback : IsPlain "')".toList := .ofList (by decide)
  refine .keyword hword isIndent_environment ?_ hplain hback hvalue
    (newline_notMem_tokenCredential runId)
  simp only [String.toList_append, hopen, hquote, List.append_assoc]

/-- The run that is reported. -/
theorem testId_reads :
    LinesRead declaration? (scriptValues s runId)
      ["                test_id = " ++ Placeholder.testId.marker] []
      [.testId (Json.intText runId)] := by
  have hword : ("test_id = ", Declaration.testId) ∈ Declaration.keywords := by
    simp [Declaration.keywords]
  have hopen :
      "                test_id = ".toList = "                ".toList ++ "test_id = ".toList :=
    toList_literal rfl
  have hplain : IsPlain ("test_id = ".toList ++ "".toList) :=
    .append (.ofList (by decide)) (.ofList (by decide))
  have hname : "" ++ Json.intText runId ++ "" = Json.intText runId := by simp
  rw [← hname]
  have hvalue : scriptValues s runId .testId = some (Json.intText runId) := rfl
  refine .keyword hword isIndent_environment ?_ hplain (.ofList (by decide)) hvalue
    (newline_notMem_intText runId)
  simp only [String.toList_append, hopen, String.toList_empty, List.append_assoc, List.nil_append,
    List.append_nil]

/-- How a request begins in a script: with the program that makes it. -/
def requestCommand : List Char :=
  "curl --retry 5 --header \"Content-Type: application/json\" --request POST --data ".toList

/-- The token and the run in the data of a request, as a script writes them. -/
def requestData : List Char :=
  "\\'\x7b\"communication_token\":\"\\'\"$comm_token\"\\'\",\"test_id\":\\'\"$test_id\"\\',".toList

/-- How the data of a request end. -/
def requestEnd : List Char := "\x7d\\' ".toList

/-- The beginning of a request is plain. -/
theorem isPlain_requestCommand : IsPlain requestCommand := .ofList (by decide)

/-- The token and the run in a request are plain. -/
theorem isPlain_requestData : IsPlain requestData := .ofList (by decide)

/-- The end of the data of a request is plain. -/
theorem isPlain_requestEnd : IsPlain requestEnd := .ofList (by decide)

/-- The line of a request, up to where it goes. -/
def requestFront (indent fields : String) : List Char :=
  indent.toList ++
    ("sh '".toList ++ (requestCommand ++ (requestData ++ (fields.toList ++ requestEnd))))

/-- A request is plain up to where it goes, when its further fields are. -/
theorem isPlain_requestFront {indent fields : String} (hindent : IsIndent indent.toList)
    (hfields : IsPlain fields.toList) :
    IsPlain (requestFront indent fields) :=
  hindent.isPlain.append (.append (.ofList (by decide)) (isPlain_requestCommand.append
    (isPlain_requestData.append (hfields.append isPlain_requestEnd))))

/-- A request is its front, the place where it goes and a quote. -/
theorem toList_request (indent fields : String) (p : Placeholder) :
    (indent ++ Stage.request fields p).toList =
      requestFront indent fields ++ (p.marker.toList ++ "'".toList) := by
  have hcommand :
      "sh 'curl --retry 5 --header \"Content-Type: application/json\" --request POST --data ".toList
        = "sh '".toList ++ requestCommand := toList_literal rfl
  unfold Stage.request
  simp only [String.toList_append, hcommand, requestFront, List.append_assoc]
  rfl

/-- A request to the manager declares nothing. -/
theorem request_reads {indent fields : String} (hindent : IsIndent indent.toList)
    (hfields : IsPlain fields.toList) (p : Placeholder) :
    LinesRead declaration? (scriptValues s runId) [indent ++ Stage.request fields p] [] [] := by
  obtain ⟨v, hv⟩ := Option.isSome_iff_exists.mp (scriptValues_isSome s runId p)
  have hread : LinesRead declaration? (scriptValues s runId) [_] [] _ :=
    .placeholder (toList_request indent fields p) (isPlain_requestFront hindent hfields)
      (.ofList (by decide)) hv
  rwa [requestFront, List.append_assoc, List.append_assoc, declaration?_command hindent] at hread

/-- The name of a state is plain. -/
theorem isPlain_stateName (state : RunState) : IsPlain state.name.toList := by
  cases state <;> exact .ofList (by decide)

/-- What a report says, as a script writes it. -/
def reportText (state : RunState) (success : Bool) : String :=
  "\"success\":" ++ (if success then "true" else "false") ++ ",\"state\":\"" ++ state.name ++ "\""

/-- What a report says is plain. -/
theorem isPlain_reportText (state : RunState) (success : Bool) :
    IsPlain (reportText state success).toList := by
  have houtcome : IsPlain (if success then "true" else "false" : String).toList := by
    cases success <;> exact .ofList (by decide)
  simp only [reportText, String.toList_append, List.append_assoc]
  exact .append (.ofList (by decide)) (houtcome.append
    (.append (.ofList (by decide)) ((isPlain_stateName state).append (.ofList (by decide)))))

/-- A report of a state declares nothing. -/
theorem report_reads {indent : String} (hindent : IsIndent indent.toList) (state : RunState)
    (success : Bool) :
    LinesRead declaration? (scriptValues s runId) [indent ++ Stage.report state success] [] [] :=
  request_reads hindent (isPlain_reportText state success) .statusUrl

/-- The request to publish declares nothing. -/
theorem publish_reads {indent : String} (hindent : IsIndent indent.toList) :
    LinesRead declaration? (scriptValues s runId) [indent ++ Stage.publish] [] [] :=
  request_reads hindent (.ofList (by decide)) .publishUrl

/-- The lines that open a stage declare it, its token and its run. -/
theorem opening_reads {title : String} (h : IsPlain title.toList) (environment : Option Slot) :
    LinesRead declaration? (scriptValues s runId) (Stage.opening title environment)
      environment.toList
      (stageDeclarations title (tokenCredential runId) (Json.intText runId)) := by
  have hopen :
      LinesRead declaration? (scriptValues s runId) ["            environment \x7b"] [] [] :=
    .silent (by decide)
  have hclose : LinesRead declaration? (scriptValues s runId) ["            \x7d"] [] [] :=
    .silent (by decide)
  have hdeclared := token_reads.cons (testId_reads.cons hclose)
  cases environment with
  | none => exact ((title_reads h).cons hopen).append hdeclared
  | some slot =>
    exact (((title_reads h).cons hopen).append (.slot isIndent_environment slot)).append hdeclared

/-- The lines of a stage have its slots, and declare nothing but what opens it. -/
theorem stage_reads {stage : Stage} (h : IsPlain stage.title.toList) :
    LinesRead declaration? (scriptValues s runId) stage.lines
      (stage.environment.toList ++ [stage.steps])
      (stageDeclarations stage.title (tokenCredential runId) (Json.intText runId)) := by
  have hindent : IsIndent "                    ".toList := .ofList (by decide)
  have hbrace : LinesRead declaration? (scriptValues s runId) ["                \x7d"] [] [] :=
    .silent (by decide)
  have hend : LinesRead declaration? (scriptValues s runId) ["            \x7d"] [] [] :=
    .silent (by decide)
  have hsteps : LinesRead declaration? (scriptValues s runId)
      ["            steps \x7b",
        "                catchError(buildResult: 'SUCCESS', stageResult: 'FAILURE') \x7b",
        "                    " ++ stage.steps.marker, "                \x7d",
            "            \x7d"] [stage.steps] [] :=
    .cons (.silent (by decide))
      (.cons (.silent (by decide)) (.cons (.slot hindent stage.steps) (hbrace.cons hend)))
  have hfailure : LinesRead declaration? (scriptValues s runId)
      ["            post \x7b", "                failure \x7b",
        "                    " ++ Stage.report stage.state false, "                \x7d"] [] [] :=
    .cons (.silent (by decide))
      (.cons (.silent (by decide)) ((report_reads hindent stage.state false).cons hbrace))
  have hsuccess : LinesRead declaration? (scriptValues s runId)
      ["                success \x7b", "                    " ++ Stage.report stage.state true,
        "                \x7d", "            \x7d", "        \x7d"] [] [] :=
    .cons (.silent (by decide)) ((report_reads hindent stage.state true).cons
      (hbrace.cons (hend.cons (.silent (by decide)))))
  exact (opening_reads h stage.environment).append (hsteps.append (hfailure.append hsuccess))

/-- The lines of the last stage. -/
theorem lastLines_read :
    LinesRead declaration? (scriptValues s runId) Stage.lastLines []
      (stageDeclarations "End Testing Process" (tokenCredential runId) (Json.intText runId)) := by
  exact (opening_reads (.ofList (by decide)) none).append (.cons (.silent (by decide))
    ((report_reads isIndent_environment .testEnded true).cons
      ((publish_reads isIndent_environment).cons
      (.cons (.silent (by decide)) (.silent (by decide))))))

/-- The titles of the stages, in order. -/
def stageTitles : List String := Stage.all.map (·.title) ++ ["End Testing Process"]

/-- What a pipeline of these stages declares. -/
def pipelineDeclarations (credential runId : String) : List Declaration :=
  stageTitles.flatMap fun title => stageDeclarations title credential runId

/-- The built-in template has every slot in order, and declares in every stage the same
token and run. -/
theorem builtinLines_read :
    LinesRead declaration? (scriptValues s runId) builtinLines Slot.all
      (pipelineDeclarations (tokenCredential runId) (Json.intText runId)) := by
  have htitles : ∀ stage ∈ Stage.all, IsPlain stage.title.toList := by
    simp only [Stage.all, List.forall_mem_cons]
    refine ⟨?_, ?_, ?_, ?_, ?_, ?_, ?_, ?_, List.forall_mem_nil _⟩
    all_goals exact .ofList (by decide)
  have hstages :
    LinesRead declaration? (scriptValues s runId) (Stage.all.flatMap Stage.lines) Slot.all
      (Stage.all.flatMap fun stage =>
        stageDeclarations stage.title (tokenCredential runId) (Json.intText runId)) :=
    .flatMap fun stage hstage => stage_reads (htitles stage hstage)
  have hopen :
      LinesRead declaration? (scriptValues s runId)
          ["pipeline \x7b", "    agent any", "    stages \x7b"] [] [] :=
    .cons (.silent (by decide)) (.cons (.silent (by decide)) (.silent (by decide)))
  have hclose : LinesRead declaration? (scriptValues s runId) ["    \x7d", "\x7d"] [] [] :=
    .cons (.silent (by decide)) (.silent (by decide))
  exact ((hopen.append hstages).append lastLines_read).append hclose

end Stages

/-! ## The built-in template -/

/-- The lines of the built-in text are those that it was made of. -/
theorem splitLines_builtinText : Text.splitLines builtinText.toList = builtinLines.map lineOf := by
  have hread : LinesRead declaration? (scriptValues default 0) builtinLines Slot.all _ :=
    builtinLines_read
  have htext : builtinText.toList = (builtinLines.map String.toList).flatMap (· ++ ['\n']) := by
    simp [builtinText, List.flatMap_map]
  rw [htext, Text.splitLines_flatMap (List.forall_mem_map.mpr hread.newline), List.map_map]
  rfl

/-- The built-in template is one. -/
theorem exists_builtin : ∃ t, builtin = .ok t := by
  have hread : LinesRead declaration? (scriptValues default 0) builtinLines Slot.all _ :=
    builtinLines_read
  have hpasses : Passes [] (builtinLines.map lineOf) := by
    have hnone : (slotsOf []).Nodup := List.nodup_nil
    refine (passes_iff hnone).mpr ⟨List.forall_mem_map.mpr hread.permitted, ?_⟩
    rw [List.nil_append, hread.slots_eq]
    decide
  rw [builtin, exists_parse_iff, wellFormed_iff, splitLines_builtinText, hread.slots_eq]
  exact ⟨hpasses, Slot.mem_all⟩

/-- A script of the built-in template declares in every stage the token and the run that it was
filled with, in its text between the slots. -/
theorem declarations_builtin {s : ScriptSettings} {runId : Int} {outs : List (List Char)}
    (h : List.Forall₂ (LineFilled blocks (scriptValues s runId))
      (Text.splitLines builtinText.toList) outs) :
    declarations (Text.splitLines builtinText.toList) outs =
      pipelineDeclarations (tokenCredential runId) (Json.intText runId) := by
  rw [splitLines_builtinText] at h ⊢
  exact builtinLines_read.gives blocks outs h

end Template
end PipelineManager
