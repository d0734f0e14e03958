import PipelineManager.Document.Value

/-!
# Fields of records

A record is a dictionary with known fields. The readers here read a field by its name and type; a
field that is missing or of another type makes no record, unless it may be left out.
-/

namespace PipelineManager.Value

/-- The text of a text node. -/
def text? : Value → Option String
  | str s => some s
  | _ => none

/-- The identifier of an integer node: an integer from `-2^63` to `2^63 - 1`. -/
def id? : Value → Option Int
  | int n => if Word.isSigned n then some n else none
  | _ => none

/-- The items of a list, each read by `item`. -/
def itemsBy? {α : Type} (item : Value → Option α) : Value → Option (List α)
  | list items => items.mapM item
  | _ => none

/-- A field that must be present. -/
def require {α : Type} (key : String) (read : Value → Option α) (v : Value) : Option α :=
  (v.field? key).bind read

/-- A field that may be absent or null. -/
def optional? {α : Type} (key : String) (read : Value → Option α) (v : Value) : Option (Option α) :=
  match v.field? key with
  | none | some null => some none
  | some w => (read w).map some

/-- A list field that is empty when absent. -/
def itemsOrNone? {α : Type} (key : String) (item : Value → Option α) (v : Value) :
    Option (List α) :=
  match v.field? key with
  | none => some []
  | some w => w.itemsBy? item

/-- The entry of an optional text field. -/
def textEntry (key : String) : Option String → List (String × Value)
  | some s => [(key, str s)]
  | none => []

/-- A truth value. -/
def bool? : Value → Option Bool
  | bool b => some b
  | _ => none

/-- A field that takes a default when absent. -/
def fieldOr {α : Type} (key : String) (default : α) (read : Value → Option α) (v : Value) :
    Option α :=
  match v.field? key with
  | none => some default
  | some w => read w

/-- An optional text as a tree. -/
def textOrNull (s : Option String) : Value := (s.map str).getD null

/-- A natural number. -/
def nat? : Value → Option Nat
  | int n => if 0 ≤ n then some n.toNat else none
  | _ => none

end PipelineManager.Value
