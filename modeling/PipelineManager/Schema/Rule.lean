import PipelineManager.Document.Value

/-!
# Schema rules

A rule says what a node of a document may be: its kind, whether it must be present, which texts
are allowed and which pattern a text matches. Dictionaries have a rule for each known field, in
declaration order; lists have one rule for every item.
-/

namespace PipelineManager.Schema

/-- The type that a rule asks of a node. -/
inductive FieldType where
  | string
  | integer
  | dict
  | list
  | any
deriving DecidableEq, Repr, Inhabited

/-- The name of a type in messages. -/
def FieldType.name : FieldType → String
  | string => "string"
  | integer => "integer"
  | dict => "dict"
  | list => "list"
  | any => "any"

/-- Whether a value is of the type. Every value is of type `any`. -/
def FieldType.admits : FieldType → Value → Bool
  | string, .str _ => true
  | integer, .int _ => true
  | dict, .dict _ => true
  | list, .list _ => true
  | any, _ => true
  | _, _ => false

/-- A pattern of texts with its written form. -/
structure Pattern where
  source : String
  accepts : List Char → Bool

mutual
/-- The kind of a node and what it contains. A list without an item rule may hold anything. -/
inductive Kind where
  | string
  | integer
  | any
  | dict (fields : List (String × Rule))
  | list (item : Option Rule)

/-- A node of the schema. No allowed texts means that every text is allowed. -/
inductive Rule where
  | mk (kind : Kind) (required : Bool) (allowed : List String) (pattern : Option Pattern)
end

instance : Inhabited Rule := ⟨.mk .any false [] none⟩

/-- The type of a kind. -/
def Kind.type : Kind → FieldType
  | string => .string
  | integer => .integer
  | any => .any
  | dict _ => .dict
  | list _ => .list

namespace Rule

/-- The kind of the node. -/
def kind : Rule → Kind
  | mk k _ _ _ => k

/-- Whether the node must be present. -/
def isRequired : Rule → Bool
  | mk _ r _ _ => r

/-- The texts that are allowed. -/
def allowedTexts : Rule → List String
  | mk _ _ a _ => a

/-- The pattern that a text matches. -/
def pattern? : Rule → Option Pattern
  | mk _ _ _ p => p

/-- An optional node of a kind, without constraints on its text. -/
def ofKind (k : Kind) : Rule := mk k false [] none

/-- An optional text. -/
def string : Rule := ofKind .string

/-- An optional integer. -/
def integer : Rule := ofKind .integer

/-- An optional value of any type. -/
def any : Rule := ofKind .any

/-- An optional dictionary with the given fields. -/
def dict (fields : List (String × Rule)) : Rule := ofKind (.dict fields)

/-- An optional list with a rule for its items. -/
def listOf (item : Rule) : Rule := ofKind (.list (some item))

/-- The same rule for a node that must be present. -/
def required : Rule → Rule
  | mk k _ a p => mk k true a p

/-- The same rule with a choice of texts. -/
def allowing (texts : List String) : Rule → Rule
  | mk k r _ p => mk k r texts p

/-- The same rule with a pattern for texts. -/
def matching (pattern : Pattern) : Rule → Rule
  | mk k r a _ => mk k r a (some pattern)

end Rule
end PipelineManager.Schema
