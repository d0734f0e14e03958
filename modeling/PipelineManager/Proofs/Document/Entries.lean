import Mathlib.Data.List.Sort
import Mathlib.Data.String.Basic
import PipelineManager.Document.Field
import PipelineManager.Proofs.Document.Table

/-!
# Entries of dictionaries

A dictionary whose keys increase is given by what it holds under each key. The changes of a
dictionary here leave its keys in order: some keys are kept and the others dropped, the value under
a key is changed, or an empty list is put under a key that is absent.
-/

namespace PipelineManager.Value

/-! ## Looking up -/

variable {entries : List (String × Value)} {key other : String} {v : Value}

/-- The first entry is found under its key. -/
theorem lookup_cons_self : lookup ((key, v) :: entries) key = some v := by simp [lookup]

/-- An entry of another key is passed over. -/
theorem lookup_cons_of_ne (h : other ≠ key) :
    lookup ((other, v) :: entries) key = lookup entries key := by
  simp [lookup, h]

/-- No value is found iff no entry has the key. -/
theorem lookup_eq_none_iff : lookup entries key = none ↔ ∀ e ∈ entries, e.1 ≠ key := by
  simp [lookup]

/-- Among entries with different keys, each is found under its key. -/
theorem lookup_eq_some_iff (h : (entries.map (·.1)).Pairwise (· < ·)) :
    lookup entries key = some v ↔ (key, v) ∈ entries := by
  refine ⟨mem_of_lookup, fun hmem => ?_⟩
  induction entries with
  | nil => cases hmem
  | cons e entries ih =>
    obtain ⟨hfirst, hrest⟩ := List.pairwise_cons.mp h
    rcases List.mem_cons.mp hmem with rfl | hmem
    · exact lookup_cons_self
    · have hne : e.1 ≠ key := (hfirst key (List.mem_map_of_mem hmem)).ne
      exact (lookup_cons_of_ne hne).trans (ih hrest hmem)

/-- Entries in order that hold the same under every key are the same. -/
theorem entries_ext {entries' : List (String × Value)} (h : (entries.map (·.1)).Pairwise (· < ·))
    (h' : (entries'.map (·.1)).Pairwise (· < ·))
    (hlookup : ∀ key, lookup entries key = lookup entries' key) :
    entries = entries' := by
  have hirrefl : Std.Irrefl fun a b : String × Value => a.1 < b.1 := ⟨fun a => lt_irrefl a.1⟩
  have hantisymm : Std.Antisymm fun a b : String × Value => a.1 < b.1 :=
    ⟨fun a b hab hba => absurd hba (lt_asymm hab)⟩
  refine (List.pairwise_map.mp h).eq_of_mem_iff (List.pairwise_map.mp h') fun e => ?_
  rw [← lookup_eq_some_iff h, ← lookup_eq_some_iff h', hlookup]

/-! ## Lists -/

/-- A list is read back when each of its items is. -/
theorem itemsBy?_map {α : Type} {item : Value → Option α} {tree : α → Value} {as : List α}
    (h : ∀ a ∈ as, item (tree a) = some a) : (list (as.map tree)).itemsBy? item = some as := by
  show (as.map tree).mapM item = some as
  induction as with
  | nil => rfl
  | cons a as ih =>
    obtain ⟨ha, has⟩ := List.forall_mem_cons.mp h
    rw [List.map_cons, List.mapM_cons, ha, ih has]
    rfl

/-! ## Canonical trees -/

/-- Items are canonical iff each of them is. -/
theorem canonicalItems_iff {items : List Value} : CanonicalItems items ↔ ∀ v ∈ items,
    v.Canonical := by
  refine ⟨fun h v hv => h.of_mem hv, fun h => ?_⟩
  induction items with
  | nil => trivial
  | cons v items ih =>
    obtain ⟨hv, hitems⟩ := List.forall_mem_cons.mp h
    exact ⟨hv, ih hitems⟩

/-- Entries are canonical iff the value of each is. -/
theorem canonicalEntries_iff : CanonicalEntries entries ↔ ∀ e ∈ entries, e.2.Canonical := by
  refine ⟨fun h e he => h.of_mem he, fun h => ?_⟩
  induction entries with
  | nil => trivial
  | cons e entries ih =>
    obtain ⟨he, hentries⟩ := List.forall_mem_cons.mp h
    exact ⟨he, ih hentries⟩

/-! ## Changes -/

/-- Drops all keys but the given ones. -/
def keep (names : List String) : Value → Value
  | dict entries => dict (entries.filter fun e => names.contains e.1)
  | v => v

/-- Changes what stands under a key, if anything does. -/
def modify (key : String) (f : Value → Value) : Value → Value
  | dict entries => dict (entries.map fun e => if e.1 = key then (e.1, f e.2) else e)
  | v => v

/-- Changes every item of a list. -/
def mapItems (f : Value → Value) : Value → Value
  | list items => list (items.map f)
  | v => v

/-- Puts an empty list under a key that is absent. -/
def withList (key : String) : Value → Value
  | dict entries =>
    if (lookup entries key).isSome then dict entries else dict (insert key (list []) entries)
  | v => v

/-- The fields that are kept are those of the given names. -/
theorem field?_keep (names : List String) (v : Value) (key : String) :
    (v.keep names).field? key = if key ∈ names then v.field? key else none := by
  cases v with
  | dict entries =>
    show lookup (entries.filter fun e => names.contains e.1) key = if key ∈ names then
      lookup entries key else none
    induction entries with
    | nil => simp [lookup]
    | cons e entries ih =>
      obtain ⟨name, w⟩ := e
      by_cases hname : name ∈ names
      · rw [List.filter_cons_of_pos (by simpa using hname)]
        by_cases hkey : name = key
        · rw [← hkey, lookup_cons_self, lookup_cons_self, if_pos hname]
        · rw [lookup_cons_of_ne hkey, lookup_cons_of_ne hkey, ih]
      · rw [List.filter_cons_of_neg (by simpa using hname), ih]
        by_cases hkey : name = key
        · rw [← hkey, if_neg hname, if_neg hname]
        · rw [lookup_cons_of_ne hkey]
  | _ => simp [keep, field?]

/-- The field of the given name is changed, and no other. -/
theorem field?_modify (name : String) (f : Value → Value) (v : Value) (key : String) :
    (v.modify name f).field? key = if key = name then (v.field? key).map f else v.field? key := by
  cases v with
  | dict entries =>
    show lookup (entries.map _) key = if key = name then (lookup entries key).map f
      else lookup entries key
    induction entries with
    | nil => simp [lookup]
    | cons e entries ih =>
      obtain ⟨other, w⟩ := e
      by_cases hkey : other = key
      · subst hkey
        by_cases hname : other = name <;> simp [lookup, hname]
      · have hmap : ((fun e => if e.1 = name then (e.1, f e.2) else e) (other, w)).1 = other := by
          dsimp only
          split <;> rfl
        rw [List.map_cons, lookup_cons_of_ne hkey, ← ih]
        exact lookup_cons_of_ne (hmap.trans_ne hkey)
  | _ => simp [modify, field?]

/-- Inserting an entry is an upsert by its key. -/
theorem insert_eq_upsert (key : String) (v : Value) (entries : List (String × Value)) :
    insert key v entries =
      Table.upsert (fun a b => a.1 = b.1) (fun a b => a.1 < b.1) (fun _ new => new) (key, v)
        entries := by
  induction entries with
  | nil => rfl
  | cons e entries ih => simp only [insert, Table.upsert, decide_eq_true_eq, ih]

/-- Entries are keyed by their keys. -/
theorem isKeyed_entries :
    Table.IsKeyed (fun e : String × Value => e.1) (fun a b => a.1 = b.1) (fun a b => a.1 < b.1)
    (fun _ new => new) where
  same_iff _ _ := decide_eq_true_iff
  before_iff _ _ := decide_eq_true_iff
  renew_eq _ _ _ := rfl

/-- Entries stay in the order of their keys. -/
theorem pairwise_insert (h : (entries.map (·.1)).Pairwise (· < ·)) (key : String) (v : Value) :
    ((insert key v entries).map (·.1)).Pairwise (· < ·) := by
  rw [insert_eq_upsert]
  exact List.pairwise_map.mpr (Table.ordered_upsert isKeyed_entries (List.pairwise_map.mp h) _)

/-- After an insertion there are the new entry and those of other keys. -/
theorem mem_insert_iff (h : (entries.map (·.1)).Pairwise (· < ·)) (key : String) (v : Value)
    (e : String × Value) :
    e ∈ insert key v entries ↔ e = (key, v) ∨ e ∈ entries ∧ e.1 ≠ key := by
  rw [insert_eq_upsert]
  exact Table.mem_upsert_iff isKeyed_entries (List.pairwise_map.mp h) _ _

/-- The inserted value is found under its key, and under others what was. -/
theorem lookup_insert (h : (entries.map (·.1)).Pairwise (· < ·)) (name : String) (v : Value)
    (key : String) :
    lookup (insert name v entries) key = if key = name then some v else lookup entries key := by
  refine Option.ext fun w => ?_
  rw [lookup_eq_some_iff (pairwise_insert h name v), mem_insert_iff h]
  by_cases hkey : key = name
  · simp [hkey, eq_comm]
  · simp [hkey, lookup_eq_some_iff h]

/-- A key that is made sure of has what it had, or an empty list. -/
theorem field?_withList (h : (dict entries).Canonical) (name key : String) :
    ((dict entries).withList name).field? key =
      if key = name then some ((lookup entries name).getD (list [])) else lookup entries key := by
  cases hlookup : lookup entries name with
  | some w =>
    have hsame : (dict entries).withList name = dict entries := by
      rw [withList, hlookup, Option.isSome_some, if_pos rfl]
    rw [hsame]
    split
    · next hkey => exact hkey ▸ hlookup
    · rfl
  | none =>
    have hput : (dict entries).withList name = dict (insert name (list []) entries) := by
      rw [withList, hlookup, if_neg (by simp)]
    rw [hput]
    exact lookup_insert h.1 name (list []) key

/-! ### Canonical trees stay canonical -/

variable {f : Value → Value}

/-- A canonical value is canonical with fewer fields. -/
theorem Canonical.keep (h : v.Canonical) (names : List String) : (v.keep names).Canonical := by
  cases v with
  | dict entries =>
    refine ⟨h.1.sublist (List.filter_sublist.map _), canonicalEntries_iff.mpr fun e he => ?_⟩
    exact h.2.of_mem (List.mem_of_mem_filter he)
  | _ => exact h

/-- A canonical value is canonical with one value changed for a canonical one. -/
theorem Canonical.modify (h : v.Canonical) (key : String)
    (hf : ∀ w, w.Canonical → (f w).Canonical) :
    (v.modify key f).Canonical := by
  cases v with
  | dict entries =>
    have hkeys :
        (entries.map fun e => if e.1 = key then (e.1, f e.2) else e).map (·.1) =
            entries.map (·.1) := by
      rw [List.map_map]
      refine List.map_congr_left fun e _ => ?_
      rw [Function.comp_apply]
      split <;> rfl
    refine ⟨hkeys ▸ h.1, canonicalEntries_iff.mpr fun e he => ?_⟩
    obtain ⟨e, hmem, rfl⟩ := List.mem_map.mp he
    split
    · exact hf _ (h.2.of_mem hmem)
    · exact h.2.of_mem hmem
  | _ => exact h

/-- A canonical list is canonical with its items changed for canonical ones. -/
theorem Canonical.mapItems (h : v.Canonical) (hf : ∀ w, w.Canonical → (f w).Canonical) :
    (v.mapItems f).Canonical := by
  cases v with
  | list items =>
    refine canonicalItems_iff.mpr fun w hw => ?_
    obtain ⟨w, hmem, rfl⟩ := List.mem_map.mp hw
    exact hf w (CanonicalItems.of_mem h hmem)
  | _ => exact h

/-- A canonical value is canonical with a list in place of nothing. -/
theorem Canonical.withList (h : v.Canonical) (key : String) : (v.withList key).Canonical := by
  cases v with
  | dict entries =>
    rw [Value.withList]
    split
    · exact h
    · refine ⟨pairwise_insert h.1 _ _, canonicalEntries_iff.mpr fun e he => ?_⟩
      rcases (mem_insert_iff h.1 _ _ e).mp he with rfl | ⟨he, -⟩
      · exact trivial
      · exact h.2.of_mem he
  | _ => exact h

end PipelineManager.Value
