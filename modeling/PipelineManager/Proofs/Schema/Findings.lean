import Mathlib.Data.List.Induction
import Mathlib.Data.List.Lex
import Mathlib.Data.List.Nodup
import Mathlib.Data.String.Basic
import PipelineManager.Proofs.Schema.Conformance

/-!
# What a check reports

A rule and a value are walked side by side. `Reaches` says which rule meets which node, and `Breaks`
what is wrong there; together they say which findings hold. `Finding.Before` is the order in which
findings are reported. A check lists the violations of exactly the findings that hold, in that
order, and no other list does.
-/

namespace PipelineManager.Schema

/-! ## Findings -/

/-- A move to a node inside: to a field by its place among the declared ones, or to an item. -/
inductive Move where
  | field (place : Nat) (name : String)
  | item (index : Nat)
deriving DecidableEq

/-- The step in the document that a move makes. -/
def Move.step : Move → Step
  | field _ name => .field name
  | item index => .item index

/-- What is wrong with a node. A field that is missing or undeclared is wrong with the
dictionary. -/
inductive Breach where
  | null
  | wrongType (expected : FieldType)
  | notAllowed (text : String) (allowed : List String)
  | mismatch (text source : String)
  | missing (place : Nat) (name : String)
  | unknown (key : String)
deriving DecidableEq

/-- The violation that is reported for a breach, seen from its node. -/
def Breach.violation : Breach → Violation
  | null => .here .null
  | wrongType expected => .here (.wrongType expected)
  | notAllowed text allowed => .here (.notAllowed text allowed)
  | mismatch text source => .here (.mismatch text source)
  | missing _ name => ⟨[.field name], .missing⟩
  | unknown key => ⟨[.field key], .unknown⟩

/-- A breach at the node that a walk from the root leads to. -/
structure Finding where
  walk : List Move
  breach : Breach
deriving DecidableEq

namespace Finding

/-- The violation that is reported for a finding: the walk gives the position of its node. -/
def violation (f : Finding) : Violation :=
  ⟨f.walk.map Move.step ++ f.breach.violation.position, f.breach.violation.fault⟩

/-- The same finding seen from one node further out. -/
def under (m : Move) (f : Finding) : Finding := { f with walk := m :: f.walk }

end Finding

/-- The rule and the node that a walk leads to. Only a dictionary under a rule for dictionaries and
a list under a rule for lists are entered, so every node on the way is well typed and not null. -/
inductive Reaches : Rule → Value → List Move → Rule → Value → Prop
  | here (rule : Rule) (value : Value) : Reaches rule value [] rule value
  | field {rule inner r : Rule} {fields : List (String × Rule)} {entries : List (String × Value)}
      {place : Nat} {name : String} {v w : Value} {walk : List Move}
      (hkind : rule.kind = .dict fields) (hfield : fields[place]? = some (name, inner))
      (hvalue : Value.lookup entries name = some v) (hrest : Reaches inner v walk r w) :
      Reaches rule (.dict entries) (.field place name :: walk) r w
  | item {rule inner r : Rule} {items : List Value} {index : Nat} {v w : Value} {walk : List Move}
      (hkind : rule.kind = .list (some inner)) (hvalue : items[index]? = some v)
      (hrest : Reaches inner v walk r w) :
      Reaches rule (.list items) (.item index :: walk) r w

/-- What is wrong with a node by its rule. A null or wrongly typed node has no other breach. -/
inductive Breaks : Rule → Value → Breach → Prop
  | null (rule : Rule) : Breaks rule .null .null
  | wrongType {rule : Rule} {value : Value} (hnull : value ≠ .null)
      (htype : rule.kind.type.admits value = false) : Breaks rule value (.wrongType rule.kind.type)
  | notAllowed {rule : Rule} {s : String} (htype : rule.kind.type.admits (.str s) = true)
      (hsome : rule.allowedTexts ≠ []) (hnot : s ∉ rule.allowedTexts) :
      Breaks rule (.str s) (.notAllowed s rule.allowedTexts)
  | mismatch {rule : Rule} {s : String} {p : Pattern}
      (htype : rule.kind.type.admits (.str s) = true)
      (hpattern : rule.pattern? = some p) (hnot : p.accepts s.toList = false) :
      Breaks rule (.str s) (.mismatch s p.source)
  | missing {rule inner : Rule} {fields : List (String × Rule)} {entries : List (String × Value)}
      {place : Nat} {name : String} (hkind : rule.kind = .dict fields)
      (hfield : fields[place]? = some (name, inner)) (hrequired : inner.isRequired = true)
      (habsent : Value.lookup entries name = none) :
        Breaks rule (.dict entries) (.missing place name)
  | unknown {rule : Rule} {fields : List (String × Rule)} {entries : List (String × Value)}
      {key : String} (hkind : rule.kind = .dict fields) (hkey : key ∈ entries.map (·.1))
      (hnot : ∀ f ∈ fields, f.1 ≠ key) : Breaks rule (.dict entries) (.unknown key)

/-- Whether the walk of a finding leads to a node with its breach. -/
def Finding.Holds (rule : Rule) (value : Value) (f : Finding) : Prop :=
  ∃ r v, Reaches rule value f.walk r v ∧ Breaks r v f.breach

/-! ## Paths -/

/-- What is written for a way through a document, step by step. A field is set off by a point where
something stands before it, and an item is put in brackets. -/
inductive IsPath : Position → String → Prop
  | root : IsPath [] ""
  | first {position : Position} (h : IsPath position "") (name : String) :
      IsPath (position ++ [.field name]) name
  | field {position : Position} {path : String} (h : IsPath position path) (hpath : path ≠ "")
      (name : String) : IsPath (position ++ [.field name]) (path ++ "." ++ name)
  | item {position : Position} {path : String} (h : IsPath position path) (index : Nat) :
      IsPath (position ++ [.item index]) (path ++ "[" ++ Nat.repr index ++ "]")

/-- Whether a violation is shown under a text: the path that is written for its position, or the
root if nothing is written. -/
def Violation.IsShownUnder (v : Violation) (text : String) : Prop :=
  ∃ path, IsPath v.position path ∧ text = if path = "" then "<root>" else path

/-- One path is written for a position. -/
theorem isPath_iff {position : Position} {path : String} :
    IsPath position path ↔ path = position.foldl Step.extend "" := by
  constructor
  · intro h
    induction h with
    | root => rfl
    | first _ name ih => simp [List.foldl_append, ← ih, Step.extend]
    | field _ hpath name ih =>
      simp [List.foldl_append, ← ih, Step.extend, String.isEmpty_iff, hpath]
    | item _ index ih => simp [List.foldl_append, ← ih, Step.extend]
  · rintro rfl
    induction position using List.reverseRecOn with
    | nil => exact .root
    | append_singleton position step ih =>
      rw [List.foldl_append, List.foldl_cons, List.foldl_nil]
      cases step with
      | item index => exact .item ih index
      | field name =>
        by_cases hpath : position.foldl Step.extend "" = ""
        · rw [hpath] at ih ⊢
          exact .first ih name
        · rw [Step.extend, if_neg (by simpa [String.isEmpty_iff] using hpath)]
          exact .field ih hpath name

/-- A violation is shown under the text of its position and no other. -/
theorem text_eq_iff {v : Violation} {text : String} :
    v.position.text = text ↔ v.IsShownUnder text := by
  simp only [Violation.IsShownUnder, isPath_iff, exists_eq_left, Position.text, String.isEmpty_iff]
  exact eq_comm

/-! ## The order of reports -/

/-- The rank of what is reported at a node or inside it: its own faults, its declared fields, its
unknown keys and its items. -/
inductive Rank where
  | fault (number : Nat)
  | field (place : Nat)
  | key (name : String)
  | item (index : Nat)

namespace Rank

/-- The group of a rank. -/
def group : Rank → Nat
  | fault _ => 0
  | field _ => 1
  | key _ => 2
  | item _ => 3

/-- Groups come one after the other, and each is in the order of its numbers or keys. -/
def Before : Rank → Rank → Prop
  | fault m, fault n => m < n
  | field m, field n => m < n
  | key a, key b => a < b
  | item m, item n => m < n
  | r, s => r.group < s.group

instance : Std.Asymm Before where
  asymm r s hrs hsr := by
    cases r <;> cases s <;> simp only [Before, group] at hrs hsr
    case key.key a b => exact lt_asymm hrs hsr
    all_goals omega

end Rank

/-- The rank of a move. -/
def Move.rank : Move → Rank
  | field place _ => .field place
  | item index => .item index

/-- The rank of a breach. A missing field stands at its place among the declared ones. -/
def Breach.rank : Breach → Rank
  | null => .fault 0
  | wrongType _ => .fault 1
  | notAllowed .. => .fault 2
  | mismatch .. => .fault 3
  | missing place _ => .field place
  | unknown key => .key key

namespace Finding

/-- The ranks on the way to a breach. -/
def ranks (f : Finding) : List Rank := f.walk.map Move.rank ++ [f.breach.rank]

/-- Whether a finding is reported before another. -/
def Before (f g : Finding) : Prop := List.Lex Rank.Before f.ranks g.ranks

instance : Std.Asymm Before where
  asymm _ _ hfg hgf := List.Lex.asymm Rank.Before |>.asymm _ _ hfg hgf

/-- The order of findings is the same from further out. -/
theorem Before.under {f g : Finding} (h : f.Before g) (m : Move) : (f.under m).Before (g.under m) :=
  List.Lex.cons h

/-- The rank that decides between findings of different parts of a node. -/
def head (f : Finding) : Rank := (f.walk.head?.map Move.rank).getD f.breach.rank

/-- Findings of different parts of a node are in the order of the parts. -/
theorem before_of_head {f g : Finding} (h : f.head.Before g.head) : f.Before g := by
  obtain ⟨fwalk, fbreach⟩ := f
  obtain ⟨gwalk, gbreach⟩ := g
  cases fwalk <;> cases gwalk <;> exact List.Lex.rel h

end Finding

/-! ## Lists of reports -/

/-- The violations report each finding with a property once, in order, and nothing else. -/
def Reports (violations : List Violation) (holds : Finding → Prop) : Prop :=
  ∃ found : List Finding, found.Pairwise Finding.Before ∧ (∀ f, f ∈ found ↔ holds f) ∧
    violations = found.map Finding.violation

namespace Reports

variable {vs ws : List Violation} {S T : Finding → Prop}

/-- The findings that are reported may be said in another way. -/
theorem congr (h : Reports vs S) (hST : ∀ f, S f ↔ T f) : Reports vs T := by
  obtain ⟨found, hsorted, hmem, heq⟩ := h
  exact ⟨found, hsorted, fun f => (hmem f).trans (hST f), heq⟩

/-- A set of findings is reported by one list only. -/
theorem unique (h : Reports vs S) (h' : Reports ws S) : vs = ws := by
  obtain ⟨found, hsorted, hmem, rfl⟩ := h
  obtain ⟨found', hsorted', hmem', rfl⟩ := h'
  have hperm : found.Perm found' :=
    (List.perm_ext_iff_of_nodup hsorted.nodup hsorted'.nodup).mpr fun f =>
      (hmem f).trans (hmem' f).symm
  rw [hperm.eq_of_pairwise (fun f g _ _ hfg hgf => absurd hgf (Std.Asymm.asymm f g hfg))
    hsorted hsorted']

/-- Where nothing holds, nothing is reported. -/
theorem nil (h : ∀ f, ¬ S f) : Reports [] S :=
  ⟨[], List.Pairwise.nil,
    fun f => ⟨fun hf => absurd hf List.not_mem_nil, fun hf => absurd hf (h f)⟩, rfl⟩

/-- One finding is reported by its violation. -/
theorem singleton (f : Finding) : Reports [f.violation] (· = f) :=
  ⟨[f], List.pairwise_singleton _ _, fun _ => List.mem_singleton, rfl⟩

/-- Findings that come behind others are reported behind them. -/
theorem append (h : Reports vs S) (h' : Reports ws T) (hbefore : ∀ f g, S f → T g → f.Before g) :
    Reports (vs ++ ws) fun f => S f ∨ T f := by
  obtain ⟨found, hsorted, hmem, rfl⟩ := h
  obtain ⟨found', hsorted', hmem', rfl⟩ := h'
  refine ⟨found ++ found', ?_, fun f => ?_, List.map_append.symm⟩
  · exact List.pairwise_append.mpr
      ⟨hsorted, hsorted', fun f hf g hg => hbefore f g ((hmem f).mp hf) ((hmem' g).mp hg)⟩
  · rw [List.mem_append, hmem, hmem']

/-- What is found inside a node is reported with the move to it. -/
theorem under (h : Reports vs S) (m : Move) :
    Reports (vs.map (·.under m.step)) fun f => ∃ g, S g ∧ f = g.under m := by
  obtain ⟨found, hsorted, hmem, rfl⟩ := h
  refine ⟨found.map (·.under m), List.pairwise_map.mpr (hsorted.imp fun hfg => hfg.under m),
    fun f => ?_, ?_⟩
  · simp only [List.mem_map, hmem]
    exact exists_congr fun g => and_congr_right' eq_comm
  · rw [List.map_map, List.map_map]
    rfl

/-- The reports of several parts, one after the other. -/
theorem flatten {parts : List (List Violation)} {S : Nat → Finding → Prop}
    (h : ∀ i vs, parts[i]? = some vs → Reports vs (S i))
    (hbefore : ∀ i j f g, i < j → S i f → S j g → f.Before g) :
    Reports parts.flatten fun f => ∃ i < parts.length, S i f := by
  induction parts generalizing S with
  | nil => exact nil fun f ⟨i, hi, _⟩ => Nat.not_lt_zero i hi
  | cons vs parts ih =>
    have hrest : Reports parts.flatten fun f => ∃ i < parts.length, S (i + 1) f :=
      ih (fun i vs hi => h (i + 1) vs (by simpa using hi))
        fun i j f g hij => hbefore (i + 1) (j + 1) f g (Nat.succ_lt_succ hij)
    refine ((h 0 vs rfl).append hrest ?_).congr fun f => ?_
    · rintro f g hf ⟨i, -, hg⟩
      exact hbefore 0 (i + 1) f g (Nat.succ_pos i) hf hg
    · constructor
      · rintro (hf | ⟨i, hi, hf⟩)
        · exact ⟨0, Nat.succ_pos _, hf⟩
        · exact ⟨i + 1, Nat.succ_lt_succ hi, hf⟩
      · rintro ⟨i, hi, hf⟩
        cases i with
        | zero => exact Or.inl hf
        | succ i => exact Or.inr ⟨i, Nat.lt_of_succ_lt_succ hi, hf⟩

/-- A finding that is reported on a condition. -/
theorem guarded (f : Finding) (c : Prop) [Decidable c] :
    Reports (if c then [f.violation] else []) fun g => c ∧ g = f := by
  by_cases hc : c
  · rw [if_pos hc]
    exact (singleton f).congr fun g => (and_iff_right hc).symm
  · rw [if_neg hc]
    exact nil fun g hg => hc hg.1

end Reports

/-! ## The findings of a node -/

section Node

variable {kind : Kind} {required : Bool} {allowed : List String} {pattern : Option Pattern}
  {f : Finding}

/-- With a null nothing is wrong but that it is one. -/
theorem holds_null_iff (rule : Rule) : f.Holds rule .null ↔ f = ⟨[], .null⟩ := by
  constructor
  · rintro ⟨r, v, hreach, hbreak⟩
    obtain ⟨walk, breach⟩ := f
    cases hreach
    cases hbreak with
    | null => rfl
    | wrongType hnull => exact absurd rfl hnull
  · rintro rfl
    exact ⟨rule, .null, .here _ _, .null _⟩

/-- With a node of the wrong type nothing else is wrong. -/
theorem holds_wrongType_iff {rule : Rule} {value : Value} (hnull : value ≠ .null)
    (htype : rule.kind.type.admits value = false) :
    f.Holds rule value ↔ f = ⟨[], .wrongType rule.kind.type⟩ := by
  constructor
  · rintro ⟨r, v, hreach, hbreak⟩
    obtain ⟨walk, breach⟩ := f
    cases hreach with
    | here =>
      cases hbreak with
      | null => exact absurd rfl hnull
      | wrongType => rfl
      | notAllowed htype' | mismatch htype' =>
        exact absurd (htype'.symm.trans htype) Bool.noConfusion
      | missing hkind | unknown hkind => simp [hkind, Kind.type, FieldType.admits] at htype
    | field hkind | item hkind => simp [hkind, Kind.type, FieldType.admits] at htype
  · rintro rfl
    exact ⟨rule, value, .here _ _, .wrongType hnull htype⟩

/-- A text is not allowed, or does not match, or both. -/
theorem holds_text_iff {s : String} (htype : kind.type.admits (.str s) = true) :
    f.Holds (.mk kind required allowed pattern) (.str s) ↔
      ((allowed ≠ [] ∧ s ∉ allowed) ∧ f = ⟨[], .notAllowed s allowed⟩) ∨
        ∃ p, pattern = some p ∧ p.accepts s.toList = false ∧ f = ⟨[], .mismatch s p.source⟩ := by
  constructor
  · rintro ⟨r, v, hreach, hbreak⟩
    obtain ⟨walk, breach⟩ := f
    cases hreach
    cases hbreak with
    | wrongType _ htype' => exact absurd (htype.symm.trans htype') Bool.noConfusion
    | notAllowed _ hsome hnot => exact Or.inl ⟨⟨hsome, hnot⟩, rfl⟩
    | mismatch _ hpattern hnot => exact Or.inr ⟨_, hpattern, hnot, rfl⟩
  · rintro (⟨⟨hsome, hnot⟩, rfl⟩ | ⟨p, hpattern, hnot, rfl⟩)
    · exact ⟨_, _, .here _ _, .notAllowed htype hsome hnot⟩
    · exact ⟨_, _, .here _ _, .mismatch htype hpattern hnot⟩

/-- The findings of one declared field: it is missing, or there are findings inside it. -/
def FieldHolds (fields : List (String × Rule)) (entries : List (String × Value)) (place : Nat)
    (f : Finding) : Prop :=
  ∃ name inner, fields[place]? = some (name, inner) ∧
    ((Value.lookup entries name = none ∧ inner.isRequired = true ∧ f = ⟨[], .missing place name⟩) ∨
      ∃ v, Value.lookup entries name = some v ∧
        ∃ g : Finding, g.Holds inner v ∧ f = g.under (.field place name))

/-- In a dictionary something is wrong with a declared field, or a key is undeclared. -/
theorem holds_dict_iff {fields : List (String × Rule)} {entries : List (String × Value)} :
    f.Holds (.mk (.dict fields) required allowed pattern) (.dict entries) ↔
      (∃ place < fields.length, FieldHolds fields entries place f) ∨
        ∃ key ∈ unknownKeys fields entries, f = ⟨[], .unknown key⟩ := by
  constructor
  · rintro ⟨r, v, hreach, hbreak⟩
    obtain ⟨walk, breach⟩ := f
    cases hreach with
    | here =>
      cases hbreak with
      | wrongType _ htype => simp [Rule.kind, Kind.type, FieldType.admits] at htype
      | missing hkind hfield hrequired habsent =>
        cases hkind
        exact Or.inl ⟨_, (List.getElem?_eq_some_iff.mp hfield).1, _, _, hfield,
          Or.inl ⟨habsent, hrequired, rfl⟩⟩
      | unknown hkind hkey hnot =>
        cases hkind
        refine Or.inr ⟨_, List.mem_filter.mpr ⟨hkey, ?_⟩, rfl⟩
        simpa using hnot
    | field hkind hfield hvalue hrest =>
      cases hkind
      exact Or.inl ⟨_, (List.getElem?_eq_some_iff.mp hfield).1, _, _, hfield,
        Or.inr ⟨_, hvalue, ⟨_, breach⟩, ⟨r, v, hrest, hbreak⟩, rfl⟩⟩
  · rintro (⟨place, -, name, inner, hfield, ⟨habsent, hrequired, rfl⟩ | ⟨v, hvalue, g, hg, rfl⟩⟩ |
      ⟨key, hkey, rfl⟩)
    · exact ⟨_, _, .here _ _, .missing rfl hfield hrequired habsent⟩
    · obtain ⟨r, w, hreach, hbreak⟩ := hg
      exact ⟨r, w, .field rfl hfield hvalue hreach, hbreak⟩
    · obtain ⟨hkey, hnot⟩ := List.mem_filter.mp hkey
      exact ⟨_, _, .here _ _, .unknown rfl hkey (by simpa using hnot)⟩

/-- In a list something is wrong with an item. -/
theorem holds_list_iff {item : Rule} {items : List Value} :
    f.Holds (.mk (.list (some item)) required allowed pattern) (.list items) ↔
      ∃ index < items.length, ∃ v, items[index]? = some v ∧
        ∃ g : Finding, g.Holds item v ∧ f = g.under (.item index) := by
  constructor
  · rintro ⟨r, v, hreach, hbreak⟩
    obtain ⟨walk, breach⟩ := f
    cases hreach with
    | here =>
      cases hbreak with
      | wrongType _ htype => simp [Rule.kind, Kind.type, FieldType.admits] at htype
    | item hkind hvalue hrest =>
      cases hkind
      exact ⟨_, (List.getElem?_eq_some_iff.mp hvalue).1, _, hvalue, ⟨_, breach⟩,
        ⟨r, v, hrest, hbreak⟩, rfl⟩
  · rintro ⟨index, -, v, hvalue, g, ⟨r, w, hreach, hbreak⟩, rfl⟩
    exact ⟨r, w, .item rfl hvalue hreach, hbreak⟩

/-- A node that is not entered: no dictionary under declared fields, no list under an item rule. -/
structure IsClosed (kind : Kind) (value : Value) : Prop where
  dict : ∀ fields entries, kind = .dict fields → value ≠ .dict entries
  list : ∀ item items, kind = .list (some item) → value ≠ .list items

/-- A node that is not entered has no violations inside. -/
theorem IsClosed.checkKind_eq {value : Value} (h : IsClosed kind value) :
    checkKind kind value = [] := by
  unfold checkKind
  split
  · exact absurd rfl (h.dict _ _ rfl)
  · exact absurd rfl (h.list _ _ rfl)
  · rfl

/-- There is nothing to find in a well-typed node that is no text and is not entered. -/
theorem IsClosed.not_holds {value : Value} (h : IsClosed kind value) (hnull : value ≠ .null)
    (htype : kind.type.admits value = true) (htext : ∀ s, value ≠ .str s) :
    ¬ f.Holds (.mk kind required allowed pattern) value := by
  rintro ⟨r, v, hreach, hbreak⟩
  obtain ⟨walk, breach⟩ := f
  cases hreach with
  | here =>
    cases hbreak with
    | null => exact hnull rfl
    | wrongType _ htype' => exact absurd (htype.symm.trans htype') Bool.noConfusion
    | notAllowed | mismatch => exact htext _ rfl
    | missing hkind | unknown hkind => exact h.dict _ _ hkind rfl
  | field hkind => exact h.dict _ _ hkind rfl
  | item hkind => exact h.list _ _ hkind rfl

/-! ## The reports of a node -/

/-- The faults of a text are reported. -/
theorem reports_textFaults (allowed : List String) (pattern : Option Pattern) (s : String) :
    Reports ((textFaults allowed pattern s).map .here) fun f =>
      ((allowed ≠ [] ∧ s ∉ allowed) ∧ f = ⟨[], .notAllowed s allowed⟩) ∨
        ∃ p, pattern = some p ∧ p.accepts s.toList = false ∧ f = ⟨[], .mismatch s p.source⟩ := by
  unfold textFaults
  rw [List.map_append]
  refine Reports.append ?_ ?_ ?_
  · have h := Reports.guarded ⟨[], .notAllowed s allowed⟩ (allowed ≠ [] ∧ s ∉ allowed)
    convert h using 1
    by_cases hempty : allowed = [] <;> by_cases hmem : s ∈ allowed <;>
      simp [hempty, hmem, Finding.violation, Breach.violation, Violation.here]
  · cases pattern with
    | none => exact Reports.nil fun f ⟨p, hp, _⟩ => nomatch hp
    | some p =>
      have h := Reports.guarded ⟨[], .mismatch s p.source⟩ (p.accepts s.toList = false)
      have hlist :
        (if p.accepts s.toList then [] else [Fault.mismatch s p.source]).map Violation.here =
          if p.accepts s.toList = false then [(⟨[], .mismatch s p.source⟩ : Finding).violation]
              else [] := by
        cases p.accepts s.toList <;> rfl
      rw [hlist]
      refine h.congr fun f => ?_
      simp
  · rintro f g ⟨-, rfl⟩ ⟨p, -, -, rfl⟩
    exact Finding.before_of_head (Nat.lt_succ_self 2)

/-- The violations of a declared field are its findings. -/
theorem reports_fieldViolations {fields : List (String × Rule)} {entries : List (String × Value)}
    {place : Nat} {declared : String × Rule} (hfield : fields[place]? = some declared)
    (ih : ∀ v, Value.lookup entries declared.1 = some v →
      Reports (check declared.2 v) (Finding.Holds declared.2 v)) :
    Reports (fieldViolations entries declared) (FieldHolds fields entries place) := by
  obtain ⟨name, inner⟩ := declared
  unfold fieldViolations
  cases hlookup : Value.lookup entries name with
  | none =>
    refine (Reports.guarded ⟨[], .missing place name⟩ (inner.isRequired = true)).congr fun f => ?_
    simp [FieldHolds, hfield, hlookup]
  | some v =>
    refine ((ih v hlookup).under (.field place name)).congr fun f => ?_
    simp [FieldHolds, hfield, hlookup]

/-- A finding of a declared field has the rank of the field. -/
theorem head_of_fieldHolds {fields : List (String × Rule)} {entries : List (String × Value)}
    {place : Nat} (h : FieldHolds fields entries place f) : f.head = .field place := by
  obtain ⟨name, inner, -, ⟨-, -, rfl⟩ | ⟨v, -, g, -, rfl⟩⟩ := h <;> rfl

/-- Undeclared keys are reported in their order. -/
theorem reports_unknownKeys (fields : List (String × Rule)) {entries : List (String × Value)}
    (hsorted : (entries.map (·.1)).Pairwise (· < ·)) :
    Reports ((unknownKeys fields entries).map fun key => ⟨[.field key], .unknown⟩)
      fun f => ∃ key ∈ unknownKeys fields entries, f = ⟨[], .unknown key⟩ := by
  refine ⟨(unknownKeys fields entries).map fun key => ⟨[], .unknown key⟩, ?_, fun f => ?_, ?_⟩
  · refine List.pairwise_map.mpr ((hsorted.filter _).imp fun hlt => ?_)
    exact Finding.before_of_head hlt
  · simp only [List.mem_map]
    exact exists_congr fun key => and_congr_right' eq_comm
  · rw [List.map_map]
    rfl

/-- The violations inside a dictionary are its findings. -/
theorem reports_dict {fields : List (String × Rule)} {entries : List (String × Value)}
    (hsorted : (entries.map (·.1)).Pairwise (· < ·))
    (ih : ∀ declared ∈ fields, ∀ v, Value.lookup entries declared.1 = some v →
      Reports (check declared.2 v) (Finding.Holds declared.2 v)) :
    Reports (checkKind (.dict fields) (.dict entries))
      (Finding.Holds (.mk (.dict fields) required allowed pattern) (.dict entries)) := by
  rw [checkKind, checkFields_eq, List.flatMap_def]
  have hfields : Reports (fields.map (fieldViolations entries)).flatten
      fun f => ∃ place < (fields.map (fieldViolations entries)).length,
          FieldHolds fields entries place f := by
    refine Reports.flatten (fun place vs hvs => ?_) fun i j f g hij hf hg => ?_
    · rw [List.getElem?_map] at hvs
      obtain ⟨declared, hfield, rfl⟩ := Option.map_eq_some_iff.mp hvs
      exact reports_fieldViolations hfield (ih declared (List.mem_of_getElem? hfield))
    · refine Finding.before_of_head ?_
      rw [head_of_fieldHolds hf, head_of_fieldHolds hg]
      exact hij
  refine (hfields.append (reports_unknownKeys fields hsorted) ?_).congr fun f => ?_
  · rintro f g ⟨place, -, hf⟩ ⟨key, -, rfl⟩
    refine Finding.before_of_head ?_
    rw [head_of_fieldHolds hf]
    exact Nat.lt_succ_self 1
  · rw [List.length_map, holds_dict_iff]

/-- The violations inside a list are its findings. -/
theorem reports_list {item : Rule} {items : List Value}
    (ih : ∀ v ∈ items, Reports (check item v) (Finding.Holds item v)) :
    Reports (checkKind (.list (some item)) (.list items))
      (Finding.Holds (.mk (.list (some item)) required allowed pattern) (.list items)) := by
  rw [checkKind]
  have hitems : Reports (items.mapIdx fun i v => (check item v).map (·.under (.item i))).flatten
      fun f => ∃ index < (items.mapIdx fun i v => (check item v).map (·.under (.item i))).length,
        ∃ v, items[index]? = some v ∧ ∃ g : Finding,
            g.Holds item v ∧ f = g.under (.item index) := by
    refine Reports.flatten (fun index vs hvs => ?_) fun i j f g hij hf hg => ?_
    · rw [List.getElem?_mapIdx] at hvs
      obtain ⟨v, hv, rfl⟩ := Option.map_eq_some_iff.mp hvs
      refine ((ih v (List.mem_of_getElem? hv)).under (.item index)).congr fun f => ?_
      simp [hv]
    · obtain ⟨v, -, f, -, rfl⟩ := hf
      obtain ⟨w, -, g, -, rfl⟩ := hg
      exact Finding.before_of_head hij
  refine hitems.congr fun f => ?_
  rw [List.length_mapIdx, holds_list_iff]

/-! ## The reports of a check -/

/-- The violations of a node that is not entered are its findings. -/
theorem reports_closed {value : Value} (hclosed : IsClosed kind value) (hnull : value ≠ .null)
    (htype : kind.type.admits value = true) :
    Reports ((nodeFaults allowed pattern value).map .here ++ checkKind kind value)
      (Finding.Holds (.mk kind required allowed pattern) value) := by
  rw [hclosed.checkKind_eq, List.append_nil]
  by_cases htext : ∃ s, value = .str s
  · obtain ⟨s, rfl⟩ := htext
    exact (reports_textFaults allowed pattern s).congr fun f => (holds_text_iff htype).symm
  · have htext' : ∀ s, value ≠ .str s := fun s hs => htext ⟨s, hs⟩
    have hfaults : nodeFaults allowed pattern value = [] := by
      unfold nodeFaults
      split
      · exact absurd rfl (htext' _)
      · rfl
    rw [hfaults]
    exact Reports.nil fun f => hclosed.not_holds hnull htype htext'

end Node

/-- A check reports the findings that hold, and nothing else. -/
theorem reports_check (rule : Rule) {value : Value} (hvalue : value.Canonical) :
    Reports (check rule value) (Finding.Holds rule value) := by
  induction rule generalizing value with
  | mk kind required allowed pattern ihFields ihItem =>
    by_cases hnull : value = .null
    · subst hnull
      rw [check]
      exact (Reports.singleton ⟨[], .null⟩).congr fun f => (holds_null_iff _).symm
    rw [check_of_ne_null hnull]
    by_cases htype : kind.type.admits value = true
    · rw [if_pos htype]
      by_cases hdict : ∃ fields entries, kind = .dict fields ∧ value = .dict entries
      · obtain ⟨fields, entries, rfl, rfl⟩ := hdict
        exact reports_dict hvalue.1 fun declared hdeclared v hv =>
          ihFields fields rfl declared hdeclared (hvalue.of_lookup hv)
      by_cases hlist : ∃ item items, kind = .list (some item) ∧ value = .list items
      · obtain ⟨item, items, rfl, rfl⟩ := hlist
        exact reports_list fun v hv => ihItem item rfl (Value.CanonicalItems.of_mem hvalue hv)
      exact reports_closed
        ⟨fun fields entries hkind heq => hdict ⟨fields, entries, hkind, heq⟩,
          fun item items hkind heq => hlist ⟨item, items, hkind, heq⟩⟩ hnull htype
    · rw [if_neg htype]
      have htype' : (Rule.mk kind required allowed pattern).kind.type.admits value = false :=
        Bool.eq_false_iff.mpr htype
      refine (Reports.singleton ⟨[], .wrongType kind.type⟩).congr fun f => ?_
      exact (holds_wrongType_iff hnull htype').symm

/-- A check finds nothing exactly in the values that conform, and else lists exactly the findings
that hold, each once and in order. What it lists is shown under the paths of the findings. -/
theorem check_reports_exactly (rule : Rule) (value : Value) :
    (check rule value = [] ↔ Conforms rule value) ∧
      (value.Canonical → ∀ violations,
        Reports violations (Finding.Holds rule value) ↔ violations = check rule value) ∧
      ∀ v ∈ check rule value, ∀ text, v.position.text = text ↔ v.IsShownUnder text := by
  refine ⟨check_eq_nil_iff rule value, fun hvalue violations => ?_, fun v _ text => text_eq_iff⟩
  have hcheck := reports_check rule hvalue
  constructor
  · exact fun h => h.unique hcheck
  · rintro rfl
    exact hcheck

/-- A rule with a required number and a list of labels. -/
def labelledRule : Rule :=
  .dict [("id", Rule.integer.required), ("labels", .listOf (Rule.string.allowing ["a", "b"]))]

/-- A value without the number, with two bad labels and an undeclared key. -/
def mislabelled : Value := .dict [("extra", .null), ("labels", .list [.str "a", .str "c", .null])]

/-- The mislabelled value is canonical. -/
theorem mislabelled_canonical : mislabelled.Canonical := by
  refine ⟨by decide, trivial, ⟨trivial, trivial, trivial, trivial⟩, trivial⟩

/-- The mislabelled value has four violations, each shown under its path. -/
theorem check_reports_exactly_mislabelled :
    mislabelled.Canonical ∧
      (check labelledRule mislabelled = [] ↔ Conforms labelledRule mislabelled) ∧
      (∀ violations, Reports violations (Finding.Holds labelledRule mislabelled) ↔
        violations = [
          ⟨[.field "id"], .missing⟩,
          ⟨[.field "labels", .item 1], .notAllowed "c" ["a", "b"]⟩,
          ⟨[.field "labels", .item 2], .null⟩,
          ⟨[.field "extra"], .unknown⟩]) ∧
      List.Forall₂ Violation.IsShownUnder (check labelledRule mislabelled)
        ["id", "labels[1]", "labels[2]", "extra"] := by
  obtain ⟨hconforms, hreports, hshown⟩ := check_reports_exactly labelledRule mislabelled
  refine ⟨mislabelled_canonical, hconforms, hreports mislabelled_canonical, ?_⟩
  have htexts : (check labelledRule mislabelled).map (·.position.text) =
      ["id", "labels[1]", "labels[2]", "extra"] := by
    decide
  rw [← htexts, List.forall₂_map_right_iff]
  exact List.forall₂_same.mpr fun v hv => (hshown v hv _).mp rfl

end PipelineManager.Schema
