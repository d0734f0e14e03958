import Mathlib.Data.List.Basic
import PipelineManager.Pipeline.Template
import PipelineManager.Proofs.Text.Search

/-!
# Marked-up text

A document is a text of elements that are nested in each other, with character data between their
tags. `read?` reads a text strictly: a tag is written in one way only, every tag is closed in its
place, and comments and other declarations are refused. What it accepts has the same
elements for any reader of such documents. `read?_written` says that a proper document is read back
from its text.
-/

namespace PipelineManager.Markup

/-- What a tag says: the name of an element and its attributes. -/
structure Tag where
  name : String
  attributes : List (String × String)
deriving DecidableEq

/-- A node of a document. Character data is kept as it is written. -/
inductive Node where
  | data (text : String)
  | instruction (text : String)
  | empty (tag : Tag)
  | element (tag : Tag) (children : List Node)

/-- A piece of the text of a document. -/
inductive Token where
  | data (text : String)
  | instruction (text : String)
  | sole (tag : Tag)
  | opening (tag : Tag)
  | closing (name : String)
deriving DecidableEq

/-! ## Reading -/

/-- Whether a character may stand in a name. -/
def isTagChar (c : Char) : Bool := c.isAlphanum || c = '-' || c = '_' || c = '.' || c = ':'

/-- Whether a text is the name of an element or of an attribute. -/
def isTagName (cs : List Char) : Bool := !cs.isEmpty && cs.all isTagChar

/-- Reads the attributes of a tag up to its end. The other part is whether the tag closes itself. -/
def attributes? : List Char → Option (List (String × String) × Bool)
  | [] => some ([], false)
  | ['/'] => some ([], true)
  | ' ' :: cs =>
    match _hkey : Text.cut? ['=', '"'] cs with
    | none => none
    | some (key, rest) =>
      match _hvalue : Text.cut? ['"'] rest with
      | none => none
      | some (value, behind) =>
        if isTagName key then
          (attributes? behind).map fun r => ((String.ofList key, String.ofList value) :: r.1, r.2)
        else none
  | _ => none
termination_by cs => cs.length
decreasing_by
  simp only [Text.append_of_cut? _hkey, Text.append_of_cut? _hvalue, List.length_append,
    List.length_cons]
  omega

/-- Reads what stands between two angle brackets. -/
def token? : List Char → Option Token
  | '/' :: name => if isTagName name then some (.closing (String.ofList name)) else none
  | '?' :: text =>
    if text.getLast? = some '?' then some (.instruction (String.ofList text.dropLast)) else none
  | inside =>
    if isTagName (inside.takeWhile isTagChar) then
      (attributes? (inside.dropWhile isTagChar)).map fun r =>
        let tag : Tag := ⟨String.ofList (inside.takeWhile isTagChar), r.1⟩
        if r.2 then .sole tag else .opening tag
    else none

/-- Cuts a text into its tokens. -/
def tokens? : List Char → Option (List Token)
  | [] => some []
  | '<' :: rest =>
    match _hmarkup : Text.cut? ['>'] rest with
    | none => none
    | some (inside, behind) => (token? inside).bind fun t => (tokens? behind).map (t :: ·)
  | c :: rest =>
    (tokens? (rest.dropWhile (· ≠ '<'))).map
      (.data (String.ofList (c :: rest.takeWhile (· ≠ '<'))) :: ·)
termination_by cs => cs.length
decreasing_by
  · simp only [Text.append_of_cut? _hmarkup, List.length_append, List.length_cons]
    omega
  · have hlength := length_dropWhile_le (· ≠ '<') rest
    simp only [List.length_cons]
    omega

/-- Puts tokens together behind `nodes`. The tags that are open are in `stack`, the innermost first,
each with the nodes in front of it. -/
def assemble (stack : List (Tag × List Node)) (nodes : List Node) : List Token → Option (List Node)
  | [] => if stack.isEmpty then some nodes else none
  | .data text :: rest => assemble stack (nodes ++ [.data text]) rest
  | .instruction text :: rest => assemble stack (nodes ++ [.instruction text]) rest
  | .sole tag :: rest => assemble stack (nodes ++ [.empty tag]) rest
  | .opening tag :: rest => assemble ((tag, nodes) :: stack) [] rest
  | .closing name :: rest =>
    match stack with
    | [] => none
    | (tag, before) :: stack =>
      if tag.name = name then assemble stack (before ++ [.element tag nodes]) rest else none

/-- The nodes of a document, if its text is one. -/
def read? (text : String) : Option (List Node) := (tokens? text.toList).bind (assemble [] [])

/-! ## Writing -/

/-- An attribute of a tag. -/
def attributeText (a : String × String) : List Char :=
  ' ' :: a.1.toList ++ '=' :: '"' :: a.2.toList ++ ['"']

/-- What a tag says, as it is written. -/
def Tag.text (tag : Tag) : List Char := tag.name.toList ++ tag.attributes.flatMap attributeText

mutual
/-- The text of a node. -/
def Node.text : Node → List Char
  | .data text => text.toList
  | .instruction text => '<' :: '?' :: text.toList ++ ['?', '>']
  | .empty tag => '<' :: tag.text ++ ['/', '>']
  | .element tag children =>
    '<' :: tag.text ++ '>' :: written children ++ '<' :: '/' :: tag.name.toList ++ ['>']

/-- The text of nodes. -/
def written : List Node → List Char
  | [] => []
  | n :: rest => n.text ++ written rest
end

mutual
/-- The tokens of a node. -/
def Node.tokens : Node → List Token
  | .data text => [.data text]
  | .instruction text => [.instruction text]
  | .empty tag => [.sole tag]
  | .element tag children => .opening tag :: tokensOf children ++ [.closing tag.name]

/-- The tokens of nodes. -/
def tokensOf : List Node → List Token
  | [] => []
  | n :: rest => n.tokens ++ tokensOf rest
end

/-- A tag that can be told from the text around it. -/
structure Tag.IsProper (tag : Tag) : Prop where
  name : isTagName tag.name.toList = true
  attributes : ∀ a ∈ tag.attributes,
    isTagName a.1.toList = true ∧ '"' ∉ a.2.toList ∧ '>' ∉ a.2.toList

/-- Whether a node is character data. -/
def Node.isData : Node → Bool
  | .data _ => true
  | _ => false

mutual
/-- A node that can be told from the text around it. -/
def Node.IsProper : Node → Prop
  | .data text => text ≠ "" ∧ '<' ∉ text.toList
  | .instruction text => '>' ∉ text.toList
  | .empty tag => tag.IsProper
  | .element tag children => tag.IsProper ∧ AreProper children

/-- Nodes that can be told from each other: character data does not stand next to other
character data. -/
def AreProper : List Node → Prop
  | [] => True
  | n :: rest =>
    n.IsProper ∧ (n.isData = true → ∀ m ∈ rest.head?, m.isData = false) ∧ AreProper rest
end

/-! ## Tokens are read back -/

/-- The names of tags have no other characters than those of tags. -/
theorem isTagChar_of_isTagName {cs : List Char} (h : isTagName cs = true) {c : Char} (hc : c ∈ cs) :
    isTagChar c = true :=
  List.all_eq_true.mp (Bool.and_eq_true_iff.mp h).2 c hc

/-- A character that stands in no name. -/
theorem notMem_of_isTagName {cs : List Char} (h : isTagName cs = true) {c : Char}
    (hc : isTagChar c = false) : c ∉ cs :=
  fun hmem => absurd (isTagChar_of_isTagName h hmem) (by simp [hc])

/-- A written attribute is read, and those behind it. -/
theorem attributes?_attributeText {a : String × String} (hname : isTagName a.1.toList = true)
    (hvalue : '"' ∉ a.2.toList) (rest : List Char) :
    attributes? (attributeText a ++ rest) = (attributes? rest).map fun r => (a :: r.1, r.2) := by
  let behind := a.2.toList ++ ['"'] ++ rest
  have htext : attributeText a ++ rest = ' ' :: (a.1.toList ++ ['=', '"'] ++ behind) := by
    simp [attributeText, behind]
  have hcutKey :
      Text.cut? ['=', '"'] (a.1.toList ++ ['=', '"'] ++ behind) = some (a.1.toList, behind) :=
    Text.cut?_append (notMem_of_isTagName hname rfl) ['"'] behind
  have hcutValue : Text.cut? ['"'] behind = some (a.2.toList, rest) :=
    Text.cut?_append hvalue [] rest
  rw [htext, attributes?]
  split
  · next hnone => exact nomatch hcutKey.symm.trans hnone
  · next key behind' hkey =>
    obtain ⟨rfl, rfl⟩ := Prod.mk.inj (Option.some.inj (hcutKey.symm.trans hkey))
    split
    · next hnone => exact nomatch hcutValue.symm.trans hnone
    · next value rest' hvalue =>
      obtain ⟨rfl, rfl⟩ := Prod.mk.inj (Option.some.inj (hcutValue.symm.trans hvalue))
      rw [if_pos hname, String.ofList_toList, String.ofList_toList]

/-- Written attributes are read back. -/
theorem attributes?_flatMap {attributes : List (String × String)}
    (h : ∀ a ∈ attributes, isTagName a.1.toList = true ∧ '"' ∉ a.2.toList ∧ '>' ∉ a.2.toList)
    {ending : List Char} {closed : Bool} (hending : attributes? ending = some ([], closed)) :
    attributes? (attributes.flatMap attributeText ++ ending) = some (attributes, closed) := by
  induction attributes with
  | nil => exact hending
  | cons a attributes ih =>
    obtain ⟨⟨hname, hquote, -⟩, hattributes⟩ := List.forall_mem_cons.mp h
    rw [List.flatMap_cons, List.append_assoc, attributes?_attributeText hname hquote,
      ih hattributes, Option.map_some]

/-- The name of a tag ends where no character of a name follows. -/
theorem token?_tag {tag : Tag} (h : tag.IsProper) {ending : List Char} {closed : Bool}
    (hending : attributes? ending = some ([], closed))
    (hhead : ∀ c ∈ ending.head?, isTagChar c = false) :
    token? (tag.text ++ ending) = some (if closed then .sole tag else .opening tag) := by
  let behind := tag.attributes.flatMap attributeText ++ ending
  have htext : tag.text ++ ending = tag.name.toList ++ behind := List.append_assoc ..
  have hbehind : ∀ c ∈ behind.head?, isTagChar c = false := by
    cases hattributes : tag.attributes with
    | nil => simpa [behind, hattributes] using hhead
    | cons a attributes =>
      intro c hc
      obtain rfl : ' ' = c := by simpa [behind, hattributes, attributeText] using hc
      rfl
  obtain ⟨htake, hdrop⟩ :=
    Text.takeWhile_dropWhile_append (fun c => isTagChar_of_isTagName h.name) hbehind
  have hread := attributes?_flatMap h.attributes hending
  have hfirst (c : Char) (rest : List Char) (hcons : tag.name.toList ++ behind = c :: rest) :
      isTagChar c = true := by
    cases hname : tag.name.toList with
    | nil => exact absurd h.name (by simp [hname, isTagName])
    | cons d cs =>
      rw [hname, List.cons_append] at hcons
      obtain rfl := (List.cons.inj hcons).1
      exact isTagChar_of_isTagName h.name (hname ▸ List.mem_cons_self)
  rw [htext, token?.eq_def]
  split
  · next hslash => exact absurd (hfirst _ _ hslash) Bool.noConfusion
  · next hquestion => exact absurd (hfirst _ _ hquestion) Bool.noConfusion
  · rw [htake, hdrop, if_pos h.name, hread]
    simp

/-- A written closing tag is read back. -/
theorem token?_closing {name : String} (h : isTagName name.toList = true) :
    token? ('/' :: name.toList) = some (.closing name) := by
  rw [token?, if_pos h, String.ofList_toList]

/-- A written instruction is read back. -/
theorem token?_instruction (text : String) :
    token? ('?' :: text.toList ++ ['?']) = some (.instruction text) := by
  simp [token?]

/-! ## Documents are read back -/

/-- No tag holds a bracket that would close it early. -/
theorem Tag.IsProper.bracket_notMem {tag : Tag} (h : tag.IsProper) : '>' ∉ tag.text := by
  intro hmem
  rcases List.mem_append.mp hmem with hname | hattributes
  · exact notMem_of_isTagName h.name rfl hname
  · obtain ⟨a, ha, hmem⟩ := List.mem_flatMap.mp hattributes
    obtain ⟨hname, -, hvalue⟩ := h.attributes a ha
    have hkey := notMem_of_isTagName hname (c := '>') rfl
    simp [attributeText, hkey, hvalue] at hmem

/-- Markup in front is read as one token. -/
theorem tokens?_markup {inside : List Char} (hinside : '>' ∉ inside) {t : Token}
    (ht : token? inside = some t) (rest : List Char) :
    tokens? ('<' :: inside ++ '>' :: rest) = (tokens? rest).map (t :: ·) := by
  have hcut : Text.cut? ['>'] (inside ++ ['>'] ++ rest) = some (inside, rest) :=
    Text.cut?_append hinside [] rest
  rw [List.append_cons, List.cons_append, List.cons_append, tokens?]
  split
  · next hnone => exact nomatch hcut.symm.trans hnone
  · next inside' behind hmarkup =>
    obtain ⟨rfl, rfl⟩ := Prod.mk.inj (Option.some.inj (hcut.symm.trans hmarkup))
    rw [ht, Option.bind_some]

/-- Whether a text is empty or begins with markup. -/
def BeginsWithMarkup (cs : List Char) : Prop := ∀ c ∈ cs.head?, c = '<'

/-- Data in front are read as one token, up to the markup behind. -/
theorem tokens?_data {text : String} (hne : text ≠ "") (h : '<' ∉ text.toList) {rest : List Char}
    (hrest : BeginsWithMarkup rest) :
    tokens? (text.toList ++ rest) = (tokens? rest).map (.data text :: ·) := by
  cases htext : text.toList with
  | nil => exact absurd (String.toList_eq_nil_iff.mp htext) hne
  | cons c cs =>
    obtain ⟨hc, hcs⟩ := not_or.mp (mt List.mem_cons.mpr (htext ▸ h))
    have hfront : ∀ d ∈ cs, decide (d ≠ '<') = true := fun d hd => by
      simpa using fun heq : d = '<' => hcs (heq ▸ hd)
    have hhead : ∀ d ∈ rest.head?, decide (d ≠ '<') = false := fun d hd => by simpa using hrest d hd
    obtain ⟨htake, hdrop⟩ := Text.takeWhile_dropWhile_append hfront hhead
    rw [List.cons_append, tokens?.eq_def]
    split
    · contradiction
    · next heq => exact absurd (List.cons.inj heq).1.symm hc
    · next heq =>
      obtain ⟨rfl, rfl⟩ := List.cons.inj heq
      rw [htake, hdrop, ← htext, String.ofList_toList]

/-- A node that is no data begins with markup. -/
theorem beginsWithMarkup_of_isData {n : Node} (h : n.isData = false) (rest : List Char) :
    BeginsWithMarkup (n.text ++ rest) := by
  cases n <;> simp_all [BeginsWithMarkup, Node.text, Node.isData]

mutual
/-- The text of a node is cut into its tokens. -/
theorem tokens?_text (n : Node) (h : n.IsProper) (rest : List Char)
    (hrest : n.isData = true → BeginsWithMarkup rest) :
    tokens? (n.text ++ rest) = (tokens? rest).map (n.tokens ++ ·) := by
  match n, h with
  | .data text, h => exact tokens?_data h.1 h.2 (hrest rfl)
  | .instruction text, h =>
    have hbracket : '>' ∉ text.toList := h
    have hinside : '>' ∉ '?' :: text.toList ++ ['?'] := by simpa using hbracket
    have htext :
        (Node.instruction text).text ++ rest =
            '<' :: ('?' :: text.toList ++ ['?']) ++ '>' :: rest := by
      simp [Node.text]
    rw [htext, tokens?_markup hinside (token?_instruction text)]
    rfl
  | .empty tag, h =>
    have hproper : tag.IsProper := h
    have hinside : '>' ∉ tag.text ++ ['/'] := by simpa using hproper.bracket_notMem
    have htext : (Node.empty tag).text ++ rest = '<' :: (tag.text ++ ['/']) ++ '>' :: rest := by
      simp [Node.text]
    have hending : attributes? ['/'] = some ([], true) := by simp [attributes?]
    have hhead : ∀ c ∈ ['/'].head?, isTagChar c = false := by
      rintro c ⟨rfl⟩
      rfl
    have htag := token?_tag hproper hending hhead
    rw [htext, tokens?_markup hinside htag]
    rfl
  | .element tag children, ⟨hproper, hchildren⟩ =>
    let closing := '<' :: ('/' :: tag.name.toList) ++ '>' :: rest
    have htext :
        (Node.element tag children).text ++ rest =
            '<' :: tag.text ++ '>' :: (written children ++ closing) := by
      simp [Node.text, closing]
    have hopening : token? tag.text = some (.opening tag) := by
      have hending : attributes? [] = some ([], false) := by simp [attributes?]
      simpa using token?_tag hproper hending (by simp)
    have hname : '>' ∉ '/' :: tag.name.toList := by simpa using notMem_of_isTagName hproper.name rfl
    have hclosing : BeginsWithMarkup closing := by simp [BeginsWithMarkup, closing]
    rw [htext, tokens?_markup hproper.bracket_notMem hopening,
      tokens?_written children hchildren closing hclosing,
      tokens?_markup hname (token?_closing hproper.name)]
    simp [Node.tokens, Function.comp_def]

/-- The text of nodes is cut into their tokens. -/
theorem tokens?_written (nodes : List Node) (h : AreProper nodes) (rest : List Char)
    (hrest : BeginsWithMarkup rest) :
    tokens? (written nodes ++ rest) = (tokens? rest).map (tokensOf nodes ++ ·) := by
  match nodes, h with
  | [], _ => simp [written, tokensOf]
  | n :: nodes, ⟨hn, hnext, hnodes⟩ =>
    have hbehind : n.isData = true → BeginsWithMarkup (written nodes ++ rest) := by
      intro hdata
      cases nodes with
      | nil => exact hrest
      | cons m nodes =>
        rw [written, List.append_assoc]
        exact beginsWithMarkup_of_isData (hnext hdata m rfl) _
    rw [written, List.append_assoc, tokens?_text n hn _ hbehind,
      tokens?_written nodes hnodes rest hrest]
    simp [tokensOf, Function.comp_def]
end

mutual
/-- The tokens of a node make the node. -/
theorem assemble_tokens (n : Node) (stack : List (Tag × List Node)) (before : List Node)
    (rest : List Token) :
    assemble stack before (n.tokens ++ rest) = assemble stack (before ++ [n]) rest := by
  match n with
  | .data _ | .instruction _ | .empty _ => rfl
  | .element tag children =>
    have htokens : (Node.element tag children).tokens ++ rest =
        .opening tag :: (tokensOf children ++ .closing tag.name :: rest) := by simp [Node.tokens]
    rw [htokens, assemble, assemble_tokensOf children, assemble, if_pos rfl, List.nil_append]

/-- The tokens of nodes make the nodes. -/
theorem assemble_tokensOf (nodes : List Node) (stack : List (Tag × List Node)) (before : List Node)
    (rest : List Token) :
    assemble stack before (tokensOf nodes ++ rest) = assemble stack (before ++ nodes) rest := by
  match nodes with
  | [] => simp [tokensOf]
  | n :: nodes =>
    rw [tokensOf, List.append_assoc, assemble_tokens n, assemble_tokensOf nodes]
    simp
end

/-- A proper document is read back from its text. -/
theorem read?_written {nodes : List Node} (h : AreProper nodes) {text : String}
    (htext : text.toList = written nodes) :
    read? text = some nodes := by
  have htokens : tokens? text.toList = some (tokensOf nodes) := by
    simpa [htext, tokens?] using tokens?_written nodes h [] (by simp [BeginsWithMarkup])
  have hassemble : assemble [] [] (tokensOf nodes) = some nodes := by
    simpa [assemble] using assemble_tokensOf nodes [] [] []
  rw [read?, htokens, Option.bind_some, hassemble]

/-! ## Elements -/

/-- The character data of an element with the given nodes inside, if it holds nothing else. -/
def dataOf? : List Node → Option String
  | [] => some ""
  | [.data text] => some text
  | _ => none

mutual
/-- For each element of a name in a node, what `dataOf?` says of it. -/
def Node.contents (name : String) : Node → List (Option String)
  | .data _ | .instruction _ => []
  | .empty tag => if tag.name = name then [some ""] else []
  | .element tag children =>
    (if tag.name = name then [dataOf? children] else []) ++ contentsIn name children

/-- For each element of a name in some nodes, what `dataOf?` says of it. -/
def contentsIn (name : String) : List Node → List (Option String)
  | [] => []
  | n :: rest => n.contents name ++ contentsIn name rest
end

end PipelineManager.Markup
