import PipelineManager.Number.Binary64
import PipelineManager.Number.Word

/-!
# Document trees

A document is a tree of scalars, lists and dictionaries. `Value.lookup` reads a dictionary by
key, `Value.canonical` sorts the keys of every dictionary and keeps the last of repeated ones,
and `Value.Canonical` says that a tree is in that form and its integers are in range.
-/

namespace PipelineManager

/-- A document tree. Integers are those from `-2^63` to `2^64 - 1`; numbers outside that range
or with a fraction are `real`. -/
inductive Value where
  | null
  | bool (b : Bool)
  | int (n : Int)
  | real (x : Binary64)
  | str (s : String)
  | list (items : List Value)
  | dict (entries : List (String × Value))
deriving Repr, Inhabited, BEq

namespace Value

/-- The least integer of a document. -/
def minInteger : Int := Word.least

/-- The greatest integer of a document. -/
def maxInteger : Int := Word.greatestUnsigned

/-- The value that the first entry named `key` holds. -/
def lookup (entries : List (String × Value)) (key : String) : Option Value :=
  (entries.find? fun e => e.1 = key).map (·.2)

/-- The field `key` of a dictionary. -/
def field? (key : String) : Value → Option Value
  | dict entries => lookup entries key
  | _ => none

/-- Puts an entry at its place among sorted entries, replacing one of the same key. -/
def insert (key : String) (v : Value) : List (String × Value) → List (String × Value)
  | [] => [(key, v)]
  | e :: rest =>
    if key = e.1 then (key, v) :: rest
    else if key < e.1 then (key, v) :: e :: rest
    else e :: insert key v rest

/-- Sorts entries by key, the last of repeated keys winning. -/
def sorted (entries : List (String × Value)) : List (String × Value) :=
  entries.foldl (fun acc e => insert e.1 e.2 acc) []

/-- A dictionary of the given entries, in the order of their keys. -/
def ofEntries (entries : List (String × Value)) : Value := dict (sorted entries)

mutual
/-- Sorts the keys of every dictionary, the last of repeated keys winning. -/
def canonical : Value → Value
  | list items => list (canonicalItems items)
  | dict entries => dict (sorted (canonicalEntries entries))
  | v => v

/-- `canonical` on every item. -/
def canonicalItems : List Value → List Value
  | [] => []
  | v :: rest => v.canonical :: canonicalItems rest

/-- `canonical` on the value of every entry. -/
def canonicalEntries : List (String × Value) → List (String × Value)
  | [] => []
  | (k, v) :: rest => (k, v.canonical) :: canonicalEntries rest
end

mutual
/-- A tree as the readers produce it: the keys of every dictionary strictly increase, and
integers are in range. -/
def Canonical : Value → Prop
  | int n => minInteger ≤ n ∧ n ≤ maxInteger
  | list items => CanonicalItems items
  | dict entries => (entries.map (·.1)).Pairwise (· < ·) ∧ CanonicalEntries entries
  | _ => True

/-- Every item is canonical. -/
def CanonicalItems : List Value → Prop
  | [] => True
  | v :: rest => v.Canonical ∧ CanonicalItems rest

/-- The value of every entry is canonical. -/
def CanonicalEntries : List (String × Value) → Prop
  | [] => True
  | (_, v) :: rest => v.Canonical ∧ CanonicalEntries rest
end

/-- Each of canonical items is canonical. -/
theorem CanonicalItems.of_mem {items : List Value} (h : CanonicalItems items) {v : Value}
    (hv : v ∈ items) :
    v.Canonical := by
  induction items with
  | nil => exact absurd hv List.not_mem_nil
  | cons w rest ih =>
    obtain ⟨hw, hrest⟩ := h
    rcases List.mem_cons.1 hv with rfl | hv
    · exact hw
    · exact ih hrest hv

/-- The value of each of canonical entries is canonical. -/
theorem CanonicalEntries.of_mem {entries : List (String × Value)} (h : CanonicalEntries entries)
    {e : String × Value} (he : e ∈ entries) : e.2.Canonical := by
  induction entries with
  | nil => exact absurd he List.not_mem_nil
  | cons d rest ih =>
    obtain ⟨hd, hrest⟩ := h
    rcases List.mem_cons.1 he with rfl | he
    · exact hd
    · exact ih hrest he

/-- A value that is found is that of an entry. -/
theorem mem_of_lookup {entries : List (String × Value)} {key : String} {v : Value}
    (h : lookup entries key = some v) : (key, v) ∈ entries := by
  obtain ⟨⟨k, w⟩, hfind, rfl⟩ := Option.map_eq_some_iff.1 h
  obtain rfl : k = key := by simpa using List.find?_some hfind
  exact List.mem_of_find?_eq_some hfind

/-- The fields of a canonical dictionary are canonical. -/
theorem Canonical.of_lookup {entries : List (String × Value)} (h : (dict entries).Canonical)
    {key : String} {v : Value} (hv : lookup entries key = some v) : v.Canonical :=
  CanonicalEntries.of_mem h.2 (mem_of_lookup hv)

end Value
end PipelineManager
