import Mathlib.Logic.Basic
import PipelineManager.Schema.Check

/-!
# Conformance

`Conforms` says by recursion on a rule which values follow it. It names no violation and no
position; the list of violations is empty exactly for the values that conform.
-/

namespace PipelineManager.Schema

/-- What passes from the rules inside a rule to the rule itself holds of every rule. -/
@[elab_as_elim, induction_eliminator]
theorem Rule.induct {motive : Rule → Prop}
    (mk : ∀ kind required allowed pattern,
      (∀ fields, kind = .dict fields → ∀ f ∈ fields, motive f.2) →
      (∀ item, kind = .list (some item) → motive item) →
      motive (.mk kind required allowed pattern)) :
    ∀ rule, motive rule
  | .mk kind required allowed pattern =>
    mk kind required allowed pattern
      (fun _ _hkind f _hf => Rule.induct mk f.2) (fun item _hkind => Rule.induct mk item)
termination_by rule => sizeOf rule
decreasing_by
  · have hlt := List.sizeOf_lt_of_mem _hf
    cases f
    simp only [_hkind, Rule.mk.sizeOf_spec, Kind.dict.sizeOf_spec, Prod.mk.sizeOf_spec] at hlt ⊢
    omega
  · simp only [_hkind, Rule.mk.sizeOf_spec, Kind.list.sizeOf_spec, Option.some.sizeOf_spec]
    omega

/-! ## Conformance -/

mutual
/-- Whether a value follows a rule: it is not null, it is of the rule's type, a text is allowed and
matches, and what is inside follows the rules inside. -/
def Conforms : Rule → Value → Prop
  | .mk kind _ allowed pattern, value =>
    value ≠ .null ∧ kind.type.admits value = true ∧
      (∀ s, value = .str s → allowed ≠ [] → s ∈ allowed) ∧
      (∀ s p, value = .str s → pattern = some p → p.accepts s.toList = true) ∧
      ConformsInside kind value

/-- Whether a dictionary follows the rules of its fields and has no undeclared key, or every item of
a list follows the rule of items. -/
def ConformsInside : Kind → Value → Prop
  | .dict fields, .dict entries =>
    FieldsConform fields entries ∧ ∀ e ∈ entries, ∃ f ∈ fields, f.1 = e.1
  | .list (some item), .list items => ∀ v ∈ items, Conforms item v
  | _, _ => True

/-- Whether every required field is present, and every declared field that is present follows its
rule. -/
def FieldsConform : List (String × Rule) → List (String × Value) → Prop
  | [], _ => True
  | (name, rule) :: fields, entries =>
    (rule.isRequired = true → (Value.lookup entries name).isSome) ∧
      (∀ v, Value.lookup entries name = some v → Conforms rule v) ∧ FieldsConform fields entries
end

/-! ## The violations inside a node -/

/-- The violations of one declared field. -/
def fieldViolations (entries : List (String × Value)) (f : String × Rule) : List Violation :=
  match Value.lookup entries f.1 with
  | some v => (check f.2 v).map (·.under (.field f.1))
  | none => if f.2.isRequired then [⟨[.field f.1], .missing⟩] else []

/-- The fields are checked one by one. -/
theorem checkFields_eq (fields : List (String × Rule)) (entries : List (String × Value)) :
    checkFields fields entries = fields.flatMap (fieldViolations entries) := by
  induction fields with
  | nil => simp [checkFields]
  | cons f fields ih =>
    rw [checkFields, ih, List.flatMap_cons]
    rfl

/-- Fields conform iff each one does: it is there if required, and conforms if it is there. -/
theorem fieldsConform_iff (fields : List (String × Rule)) (entries : List (String × Value)) :
    FieldsConform fields entries ↔ ∀ f ∈ fields,
      (f.2.isRequired = true → (Value.lookup entries f.1).isSome) ∧
        ∀ v, Value.lookup entries f.1 = some v → Conforms f.2 v := by
  induction fields with
  | nil => simp [FieldsConform]
  | cons f fields ih =>
    rw [FieldsConform, ih, List.forall_mem_cons]
    exact and_assoc.symm

/-- There are no unknown keys iff each key is that of a field. -/
theorem unknownKeys_eq_nil_iff (fields : List (String × Rule)) (entries : List (String × Value)) :
    unknownKeys fields entries = [] ↔ ∀ e ∈ entries, ∃ f ∈ fields, f.1 = e.1 := by
  simp [unknownKeys]

/-- A field has no violations iff it is there if required, and conforms if it is there. -/
theorem fieldViolations_eq_nil_iff {entries : List (String × Value)} {f : String × Rule}
    (ih : ∀ v, check f.2 v = [] ↔ Conforms f.2 v) :
    fieldViolations entries f = [] ↔
      (f.2.isRequired = true → (Value.lookup entries f.1).isSome) ∧
        ∀ v, Value.lookup entries f.1 = some v → Conforms f.2 v := by
  unfold fieldViolations
  cases hlookup : Value.lookup entries f.1 with
  | none => simp
  | some v => simp [ih]

/-- A text has no fault iff it is allowed and matches the pattern. -/
theorem nodeFaults_eq_nil_iff (allowed : List String) (pattern : Option Pattern) (value : Value) :
    nodeFaults allowed pattern value = [] ↔
      (∀ s, value = .str s → allowed ≠ [] → s ∈ allowed) ∧
        ∀ s p, value = .str s → pattern = some p → p.accepts s.toList = true := by
  cases value with
  | str s => cases pattern <;> simp [nodeFaults, textFaults, Decidable.or_iff_not_imp_left]
  | _ => simp [nodeFaults]

/-- The check of a node that is not null. -/
theorem check_of_ne_null {kind : Kind} {value : Value} (hvalue : value ≠ .null) (required : Bool)
    (allowed : List String) (pattern : Option Pattern) :
    check (.mk kind required allowed pattern) value =
      if kind.type.admits value then
        (nodeFaults allowed pattern value).map .here ++ checkKind kind value
      else [.here (.wrongType kind.type)] := by
  cases value with
  | null => exact absurd rfl hvalue
  | _ => simp [check]

/-- A dictionary has no violations iff it conforms inside. -/
theorem checkKind_dict_eq_nil_iff {fields : List (String × Rule)} (entries : List (String × Value))
    (ih : ∀ f ∈ fields, ∀ v, check f.2 v = [] ↔ Conforms f.2 v) :
    checkKind (.dict fields) (.dict entries) = [] ↔
      ConformsInside (.dict fields) (.dict entries) := by
  rw [checkKind, ConformsInside, List.append_eq_nil_iff, checkFields_eq, fieldsConform_iff,
    List.flatMap_eq_nil_iff, List.map_eq_nil_iff, unknownKeys_eq_nil_iff]
  exact and_congr_left' (forall₂_congr fun f hf => fieldViolations_eq_nil_iff (ih f hf))

/-- A list has no violations iff it conforms inside. -/
theorem checkKind_list_eq_nil_iff {item : Rule} (items : List Value)
    (ih : ∀ v, check item v = [] ↔ Conforms item v) :
    checkKind (.list (some item)) (.list items) = [] ↔
      ConformsInside (.list (some item)) (.list items) := by
  rw [checkKind, ConformsInside, List.flatten_eq_nil_iff]
  simp only [← ih]
  constructor
  · intro h v hv
    obtain ⟨i, hi, rfl⟩ := List.mem_iff_getElem.mp hv
    have hnil := h _ (List.mem_mapIdx.mpr ⟨i, hi, rfl⟩)
    exact List.map_eq_nil_iff.mp hnil
  · intro h vs hvs
    obtain ⟨i, hi, rfl⟩ := List.mem_mapIdx.mp hvs
    rw [h _ (List.getElem_mem hi), List.map_nil]

/-- A check finds nothing exactly in the values that conform. -/
theorem check_eq_nil_iff (rule : Rule) (value : Value) :
    check rule value = [] ↔ Conforms rule value := by
  induction rule generalizing value with
  | mk kind required allowed pattern ihFields ihItem =>
    have hinside : checkKind kind value = [] ↔ ConformsInside kind value := by
      cases kind with
      | dict fields =>
        cases value with
        | dict entries => exact checkKind_dict_eq_nil_iff entries (ihFields fields rfl)
        | _ => simp [checkKind, ConformsInside]
      | list item? =>
        cases item? with
        | none => simp [checkKind, ConformsInside]
        | some item =>
          cases value with
          | list items => exact checkKind_list_eq_nil_iff items (ihItem item rfl)
          | _ => simp [checkKind, ConformsInside]
      | _ => simp [checkKind, ConformsInside]
    rw [Conforms]
    by_cases hnull : value = .null
    · simp [hnull, check]
    · rw [check_of_ne_null hnull]
      by_cases htype : kind.type.admits value = true
      · rw [if_pos htype, List.append_eq_nil_iff, List.map_eq_nil_iff, hinside,
          nodeFaults_eq_nil_iff]
        simp [hnull, htype, and_assoc]
      · simp [htype]

end PipelineManager.Schema
