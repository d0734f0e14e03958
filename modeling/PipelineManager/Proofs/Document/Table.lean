import Mathlib.Data.List.Sort
import PipelineManager.Document.Table

/-!
# What an ordered table holds

A table that is written by `upsert` holds under each key the row that was put there last, whatever
was put in between, in the order of the keys. So it depends on nothing but the last rows.
-/

namespace PipelineManager.Table

variable {α κ : Type} [LinearOrder κ]

/-- Whether rows are compared by a key, and a row that is renewed by one of its key becomes
that one. -/
structure IsKeyed (key : α → κ) (same before : α → α → Bool) (renew : α → α → α) : Prop where
  same_iff : ∀ a b, same a b = true ↔ key a = key b
  before_iff : ∀ a b, before a b = true ↔ key a < key b
  renew_eq : ∀ known new, key new = key known → renew known new = new

/-- The row that was put last under a key. -/
def last? (key : α → κ) (k : κ) (rows : List α) : Option α :=
  (rows.filter fun r => key r = k).getLast?

/-- Whether a table holds the last of some rows under each key, in the order of the keys. -/
structure Keeps (key : α → κ) (table rows : List α) : Prop where
  ordered : table.Pairwise fun a b => key a < key b
  mem_iff : ∀ r, r ∈ table ↔ last? key (key r) rows = some r

section Last

variable {key : α → κ} {k : κ} {rows : List α} {r : α}

/-- The last row of a key has the key. -/
theorem key_of_last? (h : last? key k rows = some r) : key r = k := by
  have hmem : r ∈ rows.filter fun r => key r = k := List.mem_of_getLast? h
  simpa using (List.mem_filter.mp hmem).2

/-- The last row of a key is one of the later ones, or else one of those before. -/
theorem last?_append (key : α → κ) (k : κ) (rows later : List α) :
    last? key k (rows ++ later) = (last? key k later).or (last? key k rows) := by
  rw [last?, List.filter_append, List.getLast?_append]
  rfl

/-- A row is the last of its key. -/
theorem last?_singleton (key : α → κ) (k : κ) (r : α) :
    last? key k [r] = if key r = k then some r else none := by
  by_cases h : key r = k <;> simp [last?, h]

/-- Rows that are put again in the same order change nothing. -/
theorem getLast?_filter_again (p : α → Bool) (rows later : List α) :
    ((rows ++ later ++ later).filter p).getLast? = ((rows ++ later).filter p).getLast? := by
  simp only [List.filter_append, List.getLast?_append]
  cases (later.filter p).getLast? <;> rfl

/-- The last row of a key is the image of the last that has it. -/
theorem last?_map {β : Type} {tree : β → α} {key : α → κ} {k : κ} {rows : List β} :
    last? key k (rows.map tree) = (last? (key ∘ tree) k rows).map tree := by
  rw [last?, List.filter_map, List.getLast?_map]
  rfl

end Last

section Keeps

variable {key : α → κ} {table rows : List α}

/-- The empty table keeps no rows. -/
theorem Keeps.nil : Keeps key ([] : List α) [] := ⟨List.Pairwise.nil, fun r => by simp [last?]⟩

/-- Two tables that hold the last rows are the same when these are. -/
theorem Keeps.unique {table' rows' : List α} (h : Keeps key table rows)
    (h' : Keeps key table' rows') (hlast : ∀ k, last? key k rows = last? key k rows') :
    table = table' := by
  have hasymm : Std.Asymm fun a b : α => key a < key b := ⟨fun a b hab hba => lt_asymm hab hba⟩
  have hirrefl : Std.Irrefl fun a b : α => key a < key b := ⟨fun a => lt_irrefl (key a)⟩
  have hantisymm : Std.Antisymm fun a b : α => key a < key b :=
    ⟨fun a b hab hba => absurd hba (lt_asymm hab)⟩
  apply h.ordered.eq_of_mem_iff h'.ordered
  intro r
  rw [h.mem_iff, h'.mem_iff, hlast]

/-- The row under a key is the last one. -/
theorem Keeps.find? (h : Keeps key table rows) (k : κ) :
    (table.find? fun r => key r = k) = last? key k rows := by
  cases hfind : table.find? fun r => key r = k with
  | some r =>
    have hk : key r = k := by simpa using List.find?_some hfind
    have hmem : r ∈ table := List.mem_of_find?_eq_some hfind
    rw [← (h.mem_iff r).mp hmem, hk]
  | none =>
    cases hlast : last? key k rows with
    | none => rfl
    | some r =>
      have hk := key_of_last? hlast
      have hmem : r ∈ table := (h.mem_iff r).mpr (by rw [hk, hlast])
      have hnot := List.find?_eq_none.mp hfind r hmem
      simp [hk] at hnot

variable {same before : α → α → Bool} {renew : α → α → α} (hkeyed : IsKeyed key same before renew)

include hkeyed

/-- How a row is put in front of a table, and what happens to it in each case. -/
theorem upsert_cons (row r : α) (rest : List α) :
    key row = key r ∧ upsert same before renew row (r :: rest) = row :: rest ∨
      key row < key r ∧ upsert same before renew row (r :: rest) = row :: r :: rest ∨
      key r < key row ∧
        upsert same before renew row (r :: rest) = r :: upsert same before renew row rest := by
  have hsame := hkeyed.same_iff row r
  have hbefore := hkeyed.before_iff row r
  rw [upsert]
  rcases lt_trichotomy (key row) (key r) with hlt | heq | hgt
  · have hnot : ¬ same row r = true := fun h => hlt.ne (hsame.mp h)
    rw [if_neg hnot, if_pos (hbefore.mpr hlt)]
    exact .inr (.inl ⟨hlt, rfl⟩)
  · rw [if_pos (hsame.mpr heq), hkeyed.renew_eq r row heq]
    exact .inl ⟨heq, rfl⟩
  · have hnot : ¬ same row r = true := fun h => hgt.ne' (hsame.mp h)
    have hnotBefore : ¬ before row r = true := fun h => hgt.asymm (hbefore.mp h)
    rw [if_neg hnot, if_neg hnotBefore]
    exact .inr (.inr ⟨hgt, rfl⟩)

/-- A row that is put into a table is found under its key, and under other keys the same rows as
before are found, whether or not the table was in order. -/
theorem find?_upsert (table : List α) (row : α) (k : κ) :
    ((upsert same before renew row table).find? fun r => key r = k) =
      if key row = k then some row else table.find? fun r => key r = k := by
  induction table with
  | nil => by_cases hk : key row = k <;> simp [upsert, hk]
  | cons r rest ih =>
    rcases upsert_cons hkeyed row r rest with ⟨heq, hput⟩ | ⟨-, hput⟩ | ⟨hgt, hput⟩
    · rw [hput, List.find?_cons, List.find?_cons, ← heq]
      by_cases hk : key row = k <;> simp [hk]
    · rw [hput, List.find?_cons]
      by_cases hk : key row = k <;> simp [hk]
    · rw [hput, List.find?_cons, List.find?_cons, ih]
      by_cases hr : key r = k
      · simp [hr, (hr ▸ hgt).ne']
      · simp [hr]

/-- The rows that are put into a table one after the other are found instead of those from
before. -/
theorem find?_foldl_upsert (rows table : List α) (k : κ) :
    ((rows.foldl (fun t row => upsert same before renew row t) table).find? fun r => key r = k) =
      (last? key k rows).or (table.find? fun r => key r = k) := by
  induction rows generalizing table with
  | nil => rfl
  | cons row rest ih =>
    rw [List.foldl_cons, ih, find?_upsert hkeyed, ← List.singleton_append, last?_append,
      last?_singleton, Option.or_assoc]
    by_cases hk : key row = k <;> simp [hk]

/-- A table then holds the row that was put and all rows of other keys. -/
theorem mem_upsert_iff (hordered : table.Pairwise fun a b => key a < key b) (row x : α) :
    x ∈ upsert same before renew row table ↔ x = row ∨ x ∈ table ∧ key x ≠ key row := by
  induction table with
  | nil => simp [upsert]
  | cons r rest ih =>
    obtain ⟨hr, hrest⟩ := List.pairwise_cons.mp hordered
    rcases upsert_cons hkeyed row r rest with ⟨heq, hput⟩ | ⟨hlt, hput⟩ | ⟨hgt, hput⟩
    · have hothers : x ∈ rest → key x ≠ key row := fun hx => heq ▸ (hr x hx).ne'
      rw [hput, List.mem_cons, List.mem_cons]
      constructor
      · rintro (hx | hx)
        · exact .inl hx
        · exact .inr ⟨.inr hx, hothers hx⟩
      · rintro (hx | ⟨rfl | hx, hne⟩)
        · exact .inl hx
        · exact absurd heq.symm hne
        · exact .inr hx
    · have hothers : x ∈ r :: rest → key x ≠ key row := by
        intro hx
        rcases List.mem_cons.mp hx with rfl | hx
        · exact hlt.ne'
        · exact (hlt.trans (hr x hx)).ne'
      rw [hput, List.mem_cons]
      exact or_congr_right ⟨fun hx => ⟨hx, hothers hx⟩, fun hx => hx.1⟩
    · rw [hput, List.mem_cons, ih hrest, List.mem_cons]
      constructor
      · rintro (rfl | hx | ⟨hx, hne⟩)
        · exact .inr ⟨.inl rfl, hgt.ne⟩
        · exact .inl hx
        · exact .inr ⟨.inr hx, hne⟩
      · rintro (hx | ⟨rfl | hx, hne⟩)
        · exact .inr (.inl hx)
        · exact .inl rfl
        · exact .inr (.inr ⟨hx, hne⟩)

/-- A table stays in the order of its keys. -/
theorem ordered_upsert (hordered : table.Pairwise fun a b => key a < key b) (row : α) :
    (upsert same before renew row table).Pairwise fun a b => key a < key b := by
  induction table with
  | nil => exact List.pairwise_singleton _ _
  | cons r rest ih =>
    obtain ⟨hr, hrest⟩ := List.pairwise_cons.mp hordered
    rcases upsert_cons hkeyed row r rest with ⟨heq, hput⟩ | ⟨hlt, hput⟩ | ⟨hgt, hput⟩
    · rw [hput]
      exact List.pairwise_cons.mpr ⟨fun x hx => heq ▸ hr x hx, hrest⟩
    · rw [hput]
      refine List.pairwise_cons.mpr ⟨?_, hordered⟩
      intro x hx
      rcases List.mem_cons.mp hx with rfl | hx
      · exact hlt
      · exact hlt.trans (hr x hx)
    · rw [hput]
      refine List.pairwise_cons.mpr ⟨?_, ih hrest⟩
      intro x hx
      rcases (mem_upsert_iff hkeyed hrest row x).mp hx with rfl | ⟨hx, -⟩
      · exact hgt
      · exact hr x hx

/-- A row that is put into a table is the last one under its key. -/
theorem Keeps.upsert (h : Keeps key table rows) (row : α) :
    Keeps key (upsert same before renew row table) (rows ++ [row]) := by
  refine ⟨ordered_upsert hkeyed h.ordered row, fun x => ?_⟩
  rw [mem_upsert_iff hkeyed h.ordered, h.mem_iff, last?_append, last?_singleton]
  by_cases hx : key row = key x
  · rw [if_pos hx, Option.some_or, Option.some_inj]
    constructor
    · rintro (rfl | ⟨-, hne⟩)
      · rfl
      · exact absurd hx.symm hne
    · exact fun heq => .inl heq.symm
  · rw [if_neg hx, Option.none_or]
    constructor
    · rintro (rfl | ⟨hlast, -⟩)
      · exact absurd rfl hx
      · exact hlast
    · exact fun hlast => .inr ⟨hlast, Ne.symm hx⟩

end Keeps
end PipelineManager.Table
