import PipelineManager.Schema.Rule

/-!
# Checking a document against a rule

`check` walks a rule and a document side by side and lists every violation with its position.
A null or wrongly typed node is reported and not entered. `conforms` is the same judgement said
without a list of errors.
-/

namespace PipelineManager.Schema

/-- One step from a node to a node inside it. -/
inductive Step where
  | field (name : String)
  | item (index : Nat)
deriving DecidableEq, Repr

/-- The way from the root of a document to a node. -/
abbrev Position := List Step

/-- The text of a position one step further on. A field is set off by a point, except after an
empty text. -/
def Step.extend (path : String) : Step → String
  | field name => if path.isEmpty then name else path ++ "." ++ name
  | item index => path ++ "[" ++ Nat.repr index ++ "]"

/-- The text of a position; an empty text is shown as the root. -/
def Position.text (position : Position) : String :=
  let path := position.foldl Step.extend ""
  if path.isEmpty then "<root>" else path

/-- What is wrong at a position. -/
inductive Fault where
  | missing
  | wrongType (expected : FieldType)
  | null
  | notAllowed (value : String) (allowed : List String)
  | mismatch (value : String) (pattern : String)
  | unknown
  | malformed
deriving DecidableEq, Repr

/-- The wording of a fault. -/
def Fault.message : Fault → String
  | missing => "required field"
  | wrongType expected => "must be of " ++ expected.name ++ " type"
  | null => "null value not allowed"
  | notAllowed value allowed =>
    "unallowed value '" ++ value ++ "', expected one of: " ++ String.intercalate ", " allowed
  | mismatch value pattern => "value '" ++ value ++ "' does not match " ++ pattern
  | unknown => "unknown field"
  | malformed => "malformed document"

/-- A fault at a position of the document. -/
structure Violation where
  position : Position
  fault : Fault
deriving DecidableEq, Repr

/-- The wording of a violation. -/
def Violation.message (v : Violation) : String := v.position.text ++ ": " ++ v.fault.message

/-- The same violation seen from one node further out. -/
def Violation.under (step : Step) (v : Violation) : Violation :=
  { v with position := step :: v.position }

/-- The violation of a document that cannot be read as a whole. -/
def Violation.malformed : Violation := ⟨[], .malformed⟩

/-- A violation at the node itself. -/
def Violation.here (fault : Fault) : Violation := ⟨[], fault⟩

/-- The faults of a text: it is not among the allowed texts, or it does not match the pattern. -/
def textFaults (allowed : List String) (pattern : Option Pattern) (s : String) : List Fault :=
  (if allowed.isEmpty || allowed.contains s then [] else [.notAllowed s allowed]) ++
  match pattern with
  | some p => if p.accepts s.toList then [] else [.mismatch s p.source]
  | none => []

/-- The faults of a node that is not null and has the right type. -/
def nodeFaults (allowed : List String) (pattern : Option Pattern) : Value → List Fault
  | .str s => textFaults allowed pattern s
  | _ => []

/-- The keys of a dictionary that no field declares. -/
def unknownKeys (fields : List (String × Rule)) (entries : List (String × Value)) : List String :=
  (entries.map (·.1)).filter fun key => !(fields.any fun f => f.1 = key)

mutual
/-- Every violation of a rule in a value: those of the node, then of declared fields in their
order, then unknown keys in key order; in a list those of the items in their order. -/
def check : Rule → Value → List Violation
  | .mk kind _ allowed pattern, value =>
    match value with
    | .null => [.here .null]
    | value =>
      if kind.type.admits value then
        (nodeFaults allowed pattern value).map .here ++ checkKind kind value
      else [.here (.wrongType kind.type)]

/-- The violations inside a well-typed node. -/
def checkKind : Kind → Value → List Violation
  | .dict fields, .dict entries =>
    checkFields fields entries ++
      (unknownKeys fields entries).map fun key => ⟨[.field key], .unknown⟩
  | .list (some item), .list items =>
    (items.mapIdx fun i v => (check item v).map (·.under (.item i))).flatten
  | _, _ => []

/-- The violations of declared fields. -/
def checkFields : List (String × Rule) → List (String × Value) → List Violation
  | [], _ => []
  | (name, rule) :: fields, entries =>
    (match Value.lookup entries name with
      | some v => (check rule v).map (·.under (.field name))
      | none => if rule.isRequired then [⟨[.field name], .missing⟩] else []) ++
    checkFields fields entries
end

end PipelineManager.Schema
