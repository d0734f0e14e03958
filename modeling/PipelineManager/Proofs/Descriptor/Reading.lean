import PipelineManager.Proofs.Descriptor.Content
import PipelineManager.Proofs.Schema.Findings

/-!
# Reading a descriptor

The schema and the readers describe one format twice. A tree that follows the schema is read exactly
when its integers are in the range of identifiers, and what is read holds exactly the data of the
tree. The readers are taken apart by the rules of `ReadsWhen`, one for each way in which a reader is
put together, and `Agrees` sets a reader against the rule of its nodes.
-/

namespace PipelineManager

open Schema

/-! ## Readers -/

/-- A reading that succeeds exactly on a condition, and gives only what is right. -/
structure ReadsWhen {α : Type} (condition : Prop) (reading : Option α)
    (right : α → Prop) : Prop where
  succeeds : condition → ∃ x, reading = some x
  sound : ∀ x, reading = some x → condition ∧ right x

namespace ReadsWhen

variable {α β : Type} {p q : Prop} {reading : Option α} {right : α → Prop}

/-- A reading that succeeds is as described when its result is. -/
theorem of_some {x : α} (hp : p) (h : right x) : ReadsWhen p (some x) right :=
  ⟨fun _ => ⟨x, rfl⟩, fun _ heq => ⟨hp, Option.some.inj heq ▸ h⟩⟩

/-- A reading that fails is as described where it should not succeed. -/
theorem of_none (h : ¬ p) : ReadsWhen p none right :=
  ⟨fun hp => absurd hp h, fun _ heq => nomatch heq⟩

/-- One reading behind another succeeds when both do. -/
theorem bind {next : α → Option β} {right' : β → Prop} (h : ReadsWhen p reading right)
    (hnext : ∀ x, right x → ReadsWhen q (next x) right') :
    ReadsWhen (p ∧ q) (reading >>= next) right' where
  succeeds := by
    rintro ⟨hp, hq⟩
    obtain ⟨x, hx⟩ := h.succeeds hp
    obtain ⟨y, hy⟩ := (hnext x (h.sound x hx).2).succeeds hq
    exact ⟨y, by rw [hx]; exact hy⟩
  sound := by
    intro y hy
    obtain ⟨x, hx, hy⟩ := Option.bind_eq_some_iff.mp hy
    obtain ⟨hp, hright⟩ := h.sound x hx
    obtain ⟨hq, hright'⟩ := (hnext x hright).sound y hy
    exact ⟨⟨hp, hq⟩, hright'⟩

/-- When a reading succeeds may be said in another way. -/
theorem congr (h : ReadsWhen p reading right) (hpq : p ↔ q) : ReadsWhen q reading right :=
  ⟨fun hq => h.succeeds (hpq.mpr hq), fun x hx => ⟨hpq.mp (h.sound x hx).1, (h.sound x hx).2⟩⟩

/-- What a reading gives may be described more loosely. -/
theorem mono {right' : α → Prop} (h : ReadsWhen p reading right)
    (hright : ∀ x, right x → right' x) :
    ReadsWhen p reading right' :=
  ⟨h.succeeds, fun x hx => ⟨(h.sound x hx).1, hright x (h.sound x hx).2⟩⟩

/-- A list is read when each of its items is. -/
theorem mapM {read : α → Option β} {isIn : β → α → Prop} {condition : α → Prop} {items : List α}
    (h : ∀ v ∈ items, ReadsWhen (condition v) (read v) (isIn · v)) :
    ReadsWhen (∀ v ∈ items, condition v) (items.mapM read) (List.Forall₂ isIn · items) := by
  induction items with
  | nil => exact of_some (List.forall_mem_nil _) List.Forall₂.nil
  | cons v items ih =>
    obtain ⟨hv, hitems⟩ := List.forall_mem_cons.mp h
    have hcons : ReadsWhen (condition v ∧ (∀ w ∈ items, condition w) ∧ True)
        (read v >>= fun x => items.mapM read >>= fun xs => some (x :: xs))
        (List.Forall₂ isIn · (v :: items)) :=
      hv.bind fun x hx => (ih hitems).bind fun xs hxs => of_some trivial (List.Forall₂.cons hx hxs)
    rw [List.mapM_cons]
    exact hcons.congr (by rw [List.forall_mem_cons, and_true])

end ReadsWhen

/-! ## The range of identifiers -/

/-- What stands at a path of field names. Every item of a list on the way is entered. -/
inductive Value.At : Value → List String → Value → Prop where
  | here (v : Value) : v.At [] v
  | field {v w u : Value} {name : String} {path : List String} (hvalue : v.field? name = some w)
      (hrest : w.At path u) : v.At (name :: path) u
  | item {items : List Value} {w u : Value} {path : List String} (hvalue : w ∈ items)
      (hrest : w.At path u) : (Value.list items).At path u

namespace Schema

mutual
/-- The paths to the integers of a rule. -/
def integerPaths : Rule → List (List String)
  | .mk .integer _ _ _ => [[]]
  | .mk (.dict fields) _ _ _ => fieldIntegerPaths fields
  | .mk (.list (some item)) _ _ _ => integerPaths item
  | _ => []

/-- The paths to the integers of some fields. -/
def fieldIntegerPaths : List (String × Rule) → List (List String)
  | [] => []
  | (name, rule) :: fields => (integerPaths rule).map (name :: ·) ++ fieldIntegerPaths fields
end

/-- The way to an integer in some fields begins with the name of one of them. -/
theorem mem_fieldIntegerPaths_iff {fields : List (String × Rule)} {path : List String} :
    path ∈ fieldIntegerPaths fields ↔ ∃ f ∈ fields, ∃ rest ∈ integerPaths f.2,
      path = f.1 :: rest := by
  induction fields with
  | nil => simp [fieldIntegerPaths]
  | cons f fields ih => simp [fieldIntegerPaths, ih, eq_comm]

/-- Nothing but the kind of a rule says where its integers are. -/
theorem integerPaths_congr {rule rule' : Rule} (hkind : rule.kind = rule'.kind) :
    integerPaths rule = integerPaths rule' := by
  obtain ⟨kind, _, _, _⟩ := rule
  obtain ⟨kind', _, _, _⟩ := rule'
  obtain rfl : kind = kind' := hkind
  unfold integerPaths
  cases kind with
  | list item => cases item <;> rfl
  | _ => rfl

/-- Whether every integer of a value, where the rule has one, is in the range of identifiers. -/
def InRange (rule : Rule) (v : Value) : Prop :=
  ∀ path ∈ integerPaths rule, ∀ n, v.At path (.int n) → Word.isSigned n = true

/-- Whether the integers of a field are in range. -/
def FieldInRange (v : Value) (f : String × Rule) : Prop :=
  ∀ w, v.field? f.1 = some w → InRange f.2 w

/-- A field that is there is in range when what it holds is. -/
theorem fieldInRange_iff {rule : Rule} {name : String} {v w : Value} (hw : v.field? name = some w) :
    FieldInRange v (name, rule) ↔ InRange rule w := by
  simp [FieldInRange, hw]

/-- A field that is not there is in range. -/
theorem fieldInRange_of_absent {rule : Rule} {name : String} {v : Value}
    (hw : v.field? name = none) :
    FieldInRange v (name, rule) :=
  fun _ hw' => absurd (hw.symm.trans hw') nofun

/-- Where a rule has no integer, everything is in range. -/
theorem inRange_of_integerPaths_eq_nil {rule : Rule} (h : integerPaths rule = []) (v : Value) :
    InRange rule v := by
  intro path hpath
  rw [h] at hpath
  exact absurd hpath List.not_mem_nil

/-- An integer is in range when it has 64 bits. -/
theorem inRange_integer_iff (n : Int) : InRange .integer (.int n) ↔ Word.isSigned n = true := by
  constructor
  · exact fun h => h [] List.mem_cons_self n (.here _)
  · intro h path hpath m hat
    obtain rfl := List.mem_singleton.mp hpath
    cases hat
    exact h

/-- A dictionary is in range when its fields are. -/
theorem inRange_dict_iff (fields : List (String × Rule)) (entries : List (String × Value)) :
    InRange (.dict fields) (.dict entries) ↔ ∀ f ∈ fields, FieldInRange (.dict entries) f := by
  constructor
  · intro h f hf w hw path hpath n hat
    exact h _ (mem_fieldIntegerPaths_iff.mpr ⟨f, hf, path, hpath, rfl⟩) n (.field hw hat)
  · intro h path hpath n hat
    obtain ⟨f, hf, rest, hrest, rfl⟩ := mem_fieldIntegerPaths_iff.mp hpath
    cases hat with
    | field hw hat => exact h f hf _ hw rest hrest n hat

/-- A list is in range when its items are. -/
theorem inRange_list_iff (item : Rule) (items : List Value) :
    InRange (.listOf item) (.list items) ↔ ∀ v ∈ items, InRange item v := by
  constructor
  · exact fun h v hv path hpath n hat => h path hpath n (.item hv hat)
  · intro h path hpath n hat
    cases hat with
    | field hw => exact nomatch hw
    | item hv hat => exact h _ hv path hpath n hat

/-! ### What conforms -/

/-- A dictionary that has its required fields, whose declared fields conform, and without other
keys. -/
structure Follows (fields : List (String × Rule)) (v : Value) : Prop where
  required : ∀ f ∈ fields, f.2.isRequired = true → ∃ w, v.field? f.1 = some w
  conforms : ∀ f ∈ fields, ∀ w, v.field? f.1 = some w → Conforms f.2 w
  only : v.HasOnly (fields.map (·.1))

namespace Conforms

variable {rule : Rule} {v : Value}

/-- What follows a rule is not null. -/
theorem ne_null (h : Conforms rule v) : v ≠ .null := by
  obtain ⟨_, _, _, _⟩ := rule
  exact h.1

/-- What follows a rule is of its type. -/
theorem admits (h : Conforms rule v) : rule.kind.type.admits v = true := by
  obtain ⟨_, _, _, _⟩ := rule
  exact h.2.1

/-- What follows a rule for texts is a text. -/
theorem exists_str (h : Conforms rule v) (hkind : rule.kind = .string) : ∃ s, v = .str s := by
  have htype := h.admits
  rw [hkind] at htype
  cases v with
  | str s => exact ⟨s, rfl⟩
  | _ => exact absurd htype Bool.noConfusion

/-- What follows a rule for integers is an integer. -/
theorem exists_int (h : Conforms rule v) (hkind : rule.kind = .integer) : ∃ n, v = .int n := by
  have htype := h.admits
  rw [hkind] at htype
  cases v with
  | int n => exact ⟨n, rfl⟩
  | _ => exact absurd htype Bool.noConfusion

/-- What follows a rule for dictionaries follows the rules of its fields. -/
theorem follows (h : Conforms rule v) {fields : List (String × Rule)}
    (hkind : rule.kind = .dict fields) :
    Follows fields v := by
  have htype := h.admits
  obtain ⟨kind, _, _, _⟩ := rule
  obtain rfl : kind = .dict fields := hkind
  cases v with
  | dict entries =>
    obtain ⟨-, -, -, -, hfields, hkeys⟩ := h
    rw [fieldsConform_iff] at hfields
    refine ⟨fun f hf hrequired => ?_, fun f hf => (hfields f hf).2, entries, rfl, fun e he => ?_⟩
    · exact Option.isSome_iff_exists.mp ((hfields f hf).1 hrequired)
    · obtain ⟨f, hf, hname⟩ := hkeys e he
      exact List.mem_map.mpr ⟨f, hf, hname⟩
  | _ => exact absurd htype Bool.noConfusion

/-- What follows a rule for lists is a list of items that follow the rule of items. -/
theorem exists_list (h : Conforms rule v) {item : Rule} (hkind : rule.kind = .list (some item)) :
    ∃ items, v = .list items ∧ ∀ w ∈ items, Conforms item w := by
  have htype := h.admits
  obtain ⟨kind, _, _, _⟩ := rule
  obtain rfl : kind = .list (some item) := hkind
  cases v with
  | list items => exact ⟨items, rfl, h.2.2.2.2⟩
  | _ => exact absurd htype Bool.noConfusion

end Conforms
end Schema

/-! ## Readers that agree with a rule -/

/-- A reader agrees with a rule when of what follows the rule it reads exactly what is in range, and
reads what is there. -/
def Agrees {α : Type} (rule : Rule) (read : Value → Option α) (isIn : α → Value → Prop) : Prop :=
  ∀ v, Conforms rule v → ReadsWhen (InRange rule v) (read v) (isIn · v)

/-- Texts are read as their rule allows. -/
theorem text_agrees : Agrees Rule.string Value.text? textIsIn := by
  intro v hv
  obtain ⟨s, rfl⟩ := hv.exists_str rfl
  exact .of_some (inRange_of_integerPaths_eq_nil rfl _) rfl

/-- Test names match the pattern of the schema. -/
theorem name_agrees : Agrees (Rule.string.required.matching testName) Value.text? nameIsIn := by
  intro v hv
  obtain ⟨s, rfl⟩ := hv.exists_str rfl
  have hname : isTestName s.toList = true := hv.2.2.2.1 s testName rfl rfl
  exact .of_some (inRange_of_integerPaths_eq_nil rfl _) ⟨rfl, hname⟩

/-- Each of the names is that of a kind. -/
theorem TestKind.ofName?_of_mem_names {name : String} (h : name ∈ TestKind.names) :
    ∃ k : TestKind, TestKind.ofName? name = some k ∧ k.name = name := by
  rcases List.mem_cons.mp h with rfl | h
  · exact ⟨.predefined, rfl, rfl⟩
  · obtain rfl := List.mem_singleton.mp h
    exact ⟨.developerDefined, rfl, rfl⟩

/-- The schema allows the names of kinds only. -/
theorem kind_agrees : Agrees (Rule.string.required.allowing TestKind.names)
    (fun k => k.text?.bind TestKind.ofName?) kindIsIn := by
  intro v hv
  obtain ⟨s, rfl⟩ := hv.exists_str rfl
  obtain ⟨k, hk, rfl⟩ := TestKind.ofName?_of_mem_names (hv.2.2.1 s rfl nofun)
  change ReadsWhen _ (TestKind.ofName? k.name) _
  rw [hk]
  exact .of_some (inRange_of_integerPaths_eq_nil rfl _) rfl

/-- What may be anything is read as it is. -/
theorem any_agrees : Agrees Rule.any some fun w v => v = w := by
  intro v _
  exact .of_some (inRange_of_integerPaths_eq_nil rfl v) rfl

/-- Identifiers are read as their rule allows, if they have 64 bits. -/
theorem id_agrees : Agrees Rule.integer Value.id? idIsIn := by
  intro v hv
  obtain ⟨n, rfl⟩ := hv.exists_int rfl
  by_cases hn : Word.isSigned n = true
  · rw [Value.id?, if_pos hn]
    exact .of_some ((inRange_integer_iff n).mpr hn) rfl
  · rw [Value.id?, if_neg hn]
    exact .of_none (by rwa [inRange_integer_iff])

namespace Agrees

variable {α : Type} {rule : Rule} {read : Value → Option α} {isIn : α → Value → Prop}

/-- A reader that agrees with a rule agrees with it where the node must be there. -/
theorem required (h : Agrees rule read isIn) : Agrees rule.required read isIn := by
  intro v hv
  have hconforms : Conforms rule v := by
    obtain ⟨_, _, _, _⟩ := rule
    exact hv
  have hkind : rule.kind = rule.required.kind := by
    obtain ⟨_, _, _, _⟩ := rule
    rfl
  refine (h v hconforms).congr ?_
  rw [InRange, InRange, integerPaths_congr hkind]

/-- A reader that agrees with the rule of items reads lists as their rule allows. -/
theorem list (h : Agrees rule read isIn) :
    Agrees (Rule.listOf rule) (Value.itemsBy? read) fun xs v => v.Lists isIn xs := by
  intro v hv
  obtain ⟨items, rfl, hitems⟩ := hv.exists_list rfl
  have hread := ReadsWhen.mapM fun w hw => h w (hitems w hw)
  exact (hread.congr (inRange_list_iff rule items).symm).mono fun xs hxs => ⟨items, rfl, hxs⟩

variable {fields : List (String × Rule)} {v : Value}

/-- A reader that takes a record apart agrees with the rule of its fields. -/
theorem record
    (h : ∀ v, Follows fields v → ReadsWhen (∀ f ∈ fields, FieldInRange v f) (read v) (isIn · v)) :
    Agrees (Rule.dict fields) read isIn := by
  intro v hv
  have hfollows := hv.follows rfl
  obtain ⟨entries, rfl, -⟩ := hfollows.only
  exact (h _ hfollows).congr (inRange_dict_iff fields entries).symm

/-- A reader that agrees with the rule of a field reads it where it must be there. -/
theorem require (h : Agrees rule read isIn) (name : String) (hv : Follows fields v)
    (hfield : (name, rule) ∈ fields) (hrequired : rule.isRequired = true) :
    ReadsWhen (FieldInRange v (name, rule)) (v.require name read)
      (Value.Present isIn · (v.field? name)) := by
  obtain ⟨w, hw⟩ := hv.required _ hfield hrequired
  have hread := h w (hv.conforms _ hfield w hw)
  rw [Value.require, hw, Option.bind_some]
  exact (hread.congr (fieldInRange_iff hw).symm).mono fun x hx => ⟨w, rfl, hx⟩

/-- A reader that agrees with the rule of a field reads it where it may be absent. -/
theorem optional (h : Agrees rule read isIn) (name : String) (hv : Follows fields v)
    (hfield : (name, rule) ∈ fields) :
    ReadsWhen (FieldInRange v (name, rule)) (v.optional? name read)
      (Option.Rel isIn · (v.field? name)) := by
  cases hw : v.field? name with
  | none =>
    have hread : v.optional? name read = some none := by rw [Value.optional?, hw]
    rw [hread]
    exact .of_some (fieldInRange_of_absent hw) .none
  | some w =>
    have hconforms := hv.conforms _ hfield w hw
    have hread : v.optional? name read = read w >>= fun x => some (some x) := by
      unfold Value.optional?
      rw [hw]
      cases w with
      | null => exact absurd rfl hconforms.ne_null
      | _ => exact Option.map_eq_bind
    rw [hread]
    refine ((h w hconforms).bind fun x hx => .of_some trivial (.some hx)).congr ?_
    rw [and_true, fieldInRange_iff hw]

/-- A reader that agrees with the rule of a list reads an absent one as empty. -/
theorem itemsOrNone (h : Agrees rule (Value.itemsBy? read) fun xs v => v.Lists isIn xs)
    (name : String) (hv : Follows fields v) (hfield : (name, rule) ∈ fields) :
    ReadsWhen (FieldInRange v (name, rule)) (v.itemsOrNone? name read)
      (Value.ListsIfPresent isIn · (v.field? name)) := by
  cases hw : v.field? name with
  | none =>
    have hread : v.itemsOrNone? name read = some [] := by rw [Value.itemsOrNone?, hw]
    rw [hread]
    exact .of_some (fieldInRange_of_absent hw) rfl
  | some w =>
    have hread : v.itemsOrNone? name read = w.itemsBy? read := by rw [Value.itemsOrNone?, hw]
    rw [hread]
    exact (h w (hv.conforms _ hfield w hw)).congr (fieldInRange_iff hw).symm

/-- A required list is present, so that it makes no difference that its reader would do without. -/
theorem itemsOrNone_required (h : Agrees rule (Value.itemsBy? read) fun xs v => v.Lists isIn xs)
    (name : String) (hv : Follows fields v) (hfield : (name, rule) ∈ fields)
    (hrequired : rule.isRequired = true) :
    ReadsWhen (FieldInRange v (name, rule)) (v.itemsOrNone? name read)
      (Value.Present (fun xs w => w.Lists isIn xs) · (v.field? name)) := by
  obtain ⟨w, hw⟩ := hv.required _ hfield hrequired
  have hread : v.itemsOrNone? name read = v.require name (Value.itemsBy? read) := by
    rw [Value.itemsOrNone?, Value.require, hw, Option.bind_some]
  rw [hread]
  exact h.require name hv hfield hrequired

end Agrees
end PipelineManager
