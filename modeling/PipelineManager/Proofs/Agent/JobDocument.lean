import PipelineManager.Agent.Job
import PipelineManager.Proofs.Agent.Markup

/-!
# The elements of a job definition

Whatever the description and the script of a job are, its definition has the same elements, one of
them for the description and one for the script. The character data of the two gives back the texts,
and nothing else of the document depends on them.
-/

namespace PipelineManager.Job

open Markup

/-! ## Character data -/

/-- The characters that have an entity, with it. They do not stand for themselves. -/
def entities : List (Char × List Char) := [
  ('&', ['&', 'a', 'm', 'p', ';']),
  ('<', ['&', 'l', 't', ';']),
  ('>', ['&', 'g', 't', ';']),
  ('"', ['&', 'q', 'u', 'o', 't', ';']),
  ('\'', ['&', '#', 'x', '2', '7', ';'])]

/-- What character data stands for. -/
def decode? : List Char → Option (List Char)
  | [] => some []
  | '&' :: 'a' :: 'm' :: 'p' :: ';' :: rest => (decode? rest).map ('&' :: ·)
  | '&' :: 'l' :: 't' :: ';' :: rest => (decode? rest).map ('<' :: ·)
  | '&' :: 'g' :: 't' :: ';' :: rest => (decode? rest).map ('>' :: ·)
  | '&' :: 'q' :: 'u' :: 'o' :: 't' :: ';' :: rest => (decode? rest).map ('"' :: ·)
  | '&' :: '#' :: 'x' :: '2' :: '7' :: ';' :: rest => (decode? rest).map ('\'' :: ·)
  | c :: rest => if entities.any (·.1 = c) then none else (decode? rest).map (c :: ·)

/-- A character that stands for itself is decoded to itself. -/
theorem decode?_cons {c : Char} (hc : ∀ e ∈ entities, e.1 ≠ c) (rest : List Char) :
    decode? (c :: rest) = (decode? rest).map (c :: ·) := by
  have hne : c ≠ '&' := (hc _ List.mem_cons_self).symm
  have hnone : ¬ entities.any (·.1 = c) = true := by
    rw [List.any_eq_true]
    rintro ⟨e, he, hname⟩
    exact hc e he (by simpa using hname)
  rw [decode?.eq_def]
  split
  · contradiction
  · next heq => exact absurd (List.cons.inj heq).1 hne
  · next heq => exact absurd (List.cons.inj heq).1 hne
  · next heq => exact absurd (List.cons.inj heq).1 hne
  · next heq => exact absurd (List.cons.inj heq).1 hne
  · next heq => exact absurd (List.cons.inj heq).1 hne
  · next heq =>
    obtain ⟨rfl, rfl⟩ := List.cons.inj heq
    rw [if_neg hnone]

/-- An entity stands for its character. -/
theorem decode?_entity {e : Char × List Char} (he : e ∈ entities) (rest : List Char) :
    decode? (e.2 ++ rest) = (decode? rest).map (e.1 :: ·) := by
  simp only [entities, List.mem_cons, List.not_mem_nil, or_false] at he
  rcases he with rfl | rfl | rfl | rfl | rfl <;> rfl

/-- A character is written as its entity, or as itself when it has none. -/
theorem escapeChar_cases (c : Char) :
    (∃ e ∈ entities, e.1 = c ∧ escapeChar c = e.2) ∨
      (∀ e ∈ entities, e.1 ≠ c) ∧ escapeChar c = [c] := by
  unfold escapeChar
  split_ifs with hamp hlt hgt hquot hapos
  · exact .inl ⟨('&', _), by simp [entities], hamp.symm, String.toList_ofList⟩
  · exact .inl ⟨('<', _), by simp [entities], hlt.symm, String.toList_ofList⟩
  · exact .inl ⟨('>', _), by simp [entities], hgt.symm, String.toList_ofList⟩
  · exact .inl ⟨('"', _), by simp [entities], hquot.symm, String.toList_ofList⟩
  · exact .inl ⟨('\'', _), by simp [entities], hapos.symm, String.toList_ofList⟩
  · exact .inr ⟨by simp [entities, hamp, hlt, hgt, hquot, hapos, eq_comm], rfl⟩

/-- What is written as character data is decoded. -/
theorem decode?_escape (text : String) : decode? (escape text).toList = some text.toList := by
  have hflatMap (cs : List Char) : decode? (cs.flatMap escapeChar) = some cs := by
    induction cs with
    | nil => rfl
    | cons c cs ih =>
      rw [List.flatMap_cons]
      rcases escapeChar_cases c with ⟨e, he, rfl, hescape⟩ | ⟨hnone, hescape⟩
      · rw [hescape, decode?_entity he, ih, Option.map_some]
      · rw [hescape, List.singleton_append, decode?_cons hnone, ih, Option.map_some]
  rw [escape, String.toList_ofList, hflatMap]

/-- No character data begins a tag. -/
theorem bracket_notMem_escape (text : String) : '<' ∉ (escape text).toList := by
  rw [escape, String.toList_ofList, List.mem_flatMap]
  rintro ⟨c, -, hmem⟩
  rcases escapeChar_cases c with ⟨e, he, -, hescape⟩ | ⟨hnone, hescape⟩
  · have hentities : ∀ e ∈ entities, '<' ∉ e.2 := by decide
    exact hentities e he (hescape ▸ hmem)
  · rw [hescape, List.mem_singleton] at hmem
    exact hnone ('<', ['&', 'l', 't', ';']) (by simp [entities]) hmem

/-! ## The document -/

/-- Character data as nodes. An empty text makes none. -/
def dataNodes (data : String) : List Node := if data = "" then [] else [.data data]

/-- An element without attributes that holds character data only. -/
def leaf (name data : String) : Node := .element ⟨name, []⟩ (dataNodes data)

/-- Nodes with the same blanks in front of each, and other blanks behind the last. -/
def block (indent : String) (nodes : List Node) (ending : String) : List Node :=
  nodes.flatMap (fun n => [.data indent, n]) ++ [.data ending]

/-- The document of a job definition, given the character data of its description and of
its script. -/
def document (description script : String) : List Node := [
  .instruction "xml version='1.1' encoding='UTF-8'",
  .data "\n",
  .element ⟨"flow-definition", [("plugin", "workflow-job")]⟩ (block "\n  " [
      leaf "description" description,
      leaf "keepDependencies" "false",
      .empty ⟨"properties", []⟩,
      .element ⟨"definition", [("class", "org.jenkinsci.plugins.workflow.cps.CpsFlowDefinition"),
          ("plugin", "workflow-cps")]⟩
        (block "\n    " [leaf "script" script, leaf "sandbox" "true"] "\n  "),
      .empty ⟨"triggers", []⟩,
      leaf "disabled" "false"]
    "\n")]

/-- Data are written as they are. -/
theorem written_dataNodes (data : String) : written (dataNodes data) = data.toList := by
  unfold dataNodes
  split
  · next h => rw [h, written]; rfl
  · simp [written, Node.text]

/-- Data are read back from their nodes. -/
theorem dataOf?_dataNodes (data : String) : dataOf? (dataNodes data) = some data := by
  unfold dataNodes
  split
  · next h => rw [h, dataOf?]
  · rw [dataOf?]

/-- A leaf is proper if its data have no bracket. -/
theorem isProper_leaf {name data : String} (hname : isTagName name.toList = true)
    (hdata : '<' ∉ data.toList) :
    (leaf name data).IsProper := by
  have hnodes : AreProper (dataNodes data) := by
    unfold dataNodes
    split
    · trivial
    · next hne => exact ⟨⟨hne, hdata⟩, by simp, trivial⟩
  exact ⟨⟨hname, List.forall_mem_nil _⟩, hnodes⟩

/-- Proper elements make a proper block. -/
theorem areProper_block {indent ending : String} (hindent : indent ≠ "" ∧ '<' ∉ indent.toList)
    (hending : ending ≠ "" ∧ '<' ∉ ending.toList) {nodes : List Node}
    (h : ∀ n ∈ nodes, n.isData = false ∧ n.IsProper) : AreProper (block indent nodes ending) := by
  induction nodes with
  | nil => exact ⟨hending, by simp, trivial⟩
  | cons n nodes ih =>
    obtain ⟨⟨hnode, hproper⟩, hnodes⟩ := List.forall_mem_cons.mp h
    have hnext : ∀ m ∈ (n :: block indent nodes ending).head?, m.isData = false := by
      simpa using hnode
    exact ⟨hindent, fun _ => hnext, hproper, by simp [hnode], ih hnodes⟩

/-- A block is written as its elements, each behind its indent, and the ending. -/
theorem written_block (indent : String) (nodes : List Node) (ending : String) :
    written (block indent nodes ending) =
      nodes.flatMap (fun n => indent.toList ++ n.text) ++ ending.toList := by
  induction nodes with
  | nil => simp [block, written, Node.text]
  | cons n nodes ih =>
    have hblock :
        block indent (n :: nodes) ending = .data indent :: n :: block indent nodes ending := rfl
    rw [hblock, written, written, ih]
    simp [Node.text]

/-! A literal is `String.ofList` of its characters, so that these lemmas apply to it. -/

/-- The name of a tag is one as a list of characters. -/
theorem isTagName_ofList {cs : List Char} (h : isTagName cs = true) :
    isTagName (String.ofList cs).toList = true := by
  rwa [String.toList_ofList]

/-- A text has the characters of its list. -/
theorem notMem_ofList {c : Char} {cs : List Char} (h : c ∉ cs) : c ∉ (String.ofList cs).toList := by
  rwa [String.toList_ofList]

/-- An attribute is proper if its name is one of a tag and its value ends nothing. -/
theorem isProper_attribute {name value : List Char} (hname : isTagName name = true)
    (hvalue : '"' ∉ value ∧ '>' ∉ value) :
    isTagName (String.ofList name).toList = true ∧
      '"' ∉ (String.ofList value).toList ∧ '>' ∉ (String.ofList value).toList :=
  ⟨isTagName_ofList hname, notMem_ofList hvalue.1, notMem_ofList hvalue.2⟩

/-- The document is proper if its two texts have no bracket. -/
theorem areProper_document {description script : String} (hdescription : '<' ∉ description.toList)
    (hscript : '<' ∉ script.toList) : AreProper (document description script) := by
  have hflow : Tag.IsProper ⟨"flow-definition", [("plugin", "workflow-job")]⟩ := by
    refine ⟨isTagName_ofList rfl, ?_⟩
    simp only [List.forall_mem_cons]
    exact ⟨isProper_attribute rfl (by decide), List.forall_mem_nil _⟩
  have hdefinition : Tag.IsProper ⟨"definition",
      [("class", "org.jenkinsci.plugins.workflow.cps.CpsFlowDefinition"),
          ("plugin", "workflow-cps")]⟩ := by
    refine ⟨isTagName_ofList rfl, ?_⟩
    simp only [List.forall_mem_cons]
    exact ⟨isProper_attribute rfl (by decide), isProper_attribute rfl (by decide),
      List.forall_mem_nil _⟩
  have hempty {name : List Char} (h : isTagName name = true) :
      (Node.empty ⟨String.ofList name, []⟩).IsProper :=
    ⟨isTagName_ofList h, List.forall_mem_nil _⟩
  have hnewline : "\n" ≠ "" ∧ '<' ∉ "\n".toList := ⟨by decide, notMem_ofList (by decide)⟩
  have hindent : "\n  " ≠ "" ∧ '<' ∉ "\n  ".toList := ⟨by decide, notMem_ofList (by decide)⟩
  refine ⟨notMem_ofList (by decide), by simp [Node.isData], hnewline, by simp [Node.isData],
    ⟨hflow, areProper_block hindent hnewline ?_⟩, by simp [Node.isData], trivial⟩
  simp only [List.forall_mem_cons]
  refine ⟨⟨rfl, isProper_leaf (isTagName_ofList rfl) hdescription⟩,
    ⟨rfl, isProper_leaf (isTagName_ofList rfl) (notMem_ofList (by decide))⟩, ⟨rfl, hempty rfl⟩,
    ⟨rfl, hdefinition, areProper_block ⟨by decide, notMem_ofList (by decide)⟩ hindent ?_⟩,
    ⟨rfl, hempty rfl⟩,
    ⟨rfl, isProper_leaf (isTagName_ofList rfl) (notMem_ofList (by decide))⟩, List.forall_mem_nil _⟩
  simp only [List.forall_mem_cons]
  exact ⟨⟨rfl, isProper_leaf (isTagName_ofList rfl) hscript⟩,
    ⟨rfl, isProper_leaf (isTagName_ofList rfl) (notMem_ofList (by decide))⟩, List.forall_mem_nil _⟩

/-- Texts that are joined have the characters of all. -/
theorem toList_foldl_append (first : String) (rest : List String) :
    (rest.foldl (· ++ ·) first).toList = first.toList ++ rest.flatMap String.toList := by
  induction rest generalizing first with
  | nil => simp
  | cons s rest ih => simp [ih]

set_option maxRecDepth 4000 in
/-- The document is written as its head, the texts and what stands around them. -/
theorem written_document (description script : String) :
    written (document description script) =
      (head ++ description ++ middle ++ script ++ tail).toList := by
  have hdefinition : (head ++ description ++ middle ++ script ++ tail).toList = _ :=
    toList_foldl_append head [description, middle, script, tail]
  have hhead : head.toList = _ := toList_foldl_append _ [_, _]
  have hmiddle : middle.toList = _ := toList_foldl_append _ [_, _, _, _, _]
  have htail : tail.toList = _ := toList_foldl_append _ [_, _, _, _, _]
  rw [hdefinition]
  simp only [document, written, Node.text, leaf, written_block, written_dataNodes, Tag.text,
    attributeText, List.flatMap_cons, List.flatMap_nil, hhead, hmiddle, htail]
  -- The characters of the literals come first: to move a literal whose characters are not at hand
  -- takes long.
  repeat rw [String.toList_ofList]
  simp only [List.append_assoc, List.cons_append, List.nil_append]

/-! ## Its elements -/

/-- What a name holds in a block is what it holds in its elements. -/
theorem contentsIn_block (name indent : String) (nodes : List Node) (ending : String) :
    contentsIn name (block indent nodes ending) = nodes.flatMap (Node.contents name) := by
  induction nodes with
  | nil => simp [block, contentsIn, Node.contents]
  | cons n nodes ih =>
    have hblock :
        block indent (n :: nodes) ending = .data indent :: n :: block indent nodes ending := rfl
    rw [hblock, contentsIn, contentsIn, ih]
    simp [Node.contents]

/-- A leaf holds its data under its name. -/
theorem contents_leaf (name other data : String) :
    (leaf other data).contents name = if other = name then [some data] else [] := by
  have hnone : contentsIn name (dataNodes data) = [] := by
    unfold dataNodes
    split <;> simp [contentsIn, Node.contents]
  rw [leaf, Node.contents, hnone, dataOf?_dataNodes, List.append_nil]

/-- The document holds one description, the given one. -/
theorem contentsIn_description (description script : String) :
    contentsIn "description" (document description script) = [some description] := by
  simp [document, contentsIn, Node.contents, contentsIn_block, contents_leaf]

/-- The document holds one script, the given one. -/
theorem contentsIn_script (description script : String) :
    contentsIn "script" (document description script) = [some script] := by
  simp [document, contentsIn, Node.contents, contentsIn_block, contents_leaf]

/-- Whatever the description and the script are, the definition of a job is read as the same
document, in which one element is the description's and one is the script's. The character data of
the two stands for the two texts, and all other text is fixed. -/
theorem definition_encloses (description script : String) :
    ∃ d s : String,
      definition description script = head ++ d ++ middle ++ s ++ tail ∧
      Markup.read? (definition description script) = some (document d s) ∧
      Markup.contentsIn "description" (document d s) = [some d] ∧
      Markup.contentsIn "script" (document d s) = [some s] ∧
      decode? d.toList = some description.toList ∧ decode? s.toList = some script.toList := by
  let d := escape description
  let s := escape script
  have hdefinition : definition description script = head ++ d ++ middle ++ s ++ tail := rfl
  have hproper : AreProper (document d s) :=
    areProper_document (bracket_notMem_escape description) (bracket_notMem_escape script)
  have hread : Markup.read? (definition description script) = some (document d s) :=
    read?_written hproper (hdefinition ▸ (written_document d s).symm)
  exact ⟨d, s, hdefinition, hread, contentsIn_description d s, contentsIn_script d s,
    decode?_escape description, decode?_escape script⟩

/-- A text that looks like markup, or like an entity, is one of data. -/
example : escape "</script>&lt;" = "&lt;/script&gt;&amp;lt;" ∧
    decode? "</script>".toList = none := by decide

end PipelineManager.Job
