import PipelineManager.Document.Value

/-!
# TOML documents

A document is a sequence of statements: entries, headers of tables and headers of tables in
arrays. `Item.ofStatements?` carries them out in order. A table may be defined only once, and
dotted keys may not reach into a table that a header has defined; otherwise there is no document.
-/

namespace PipelineManager.Toml

/-- How a table came to be: by a header, as the parent of a header, as part of a dotted key, or
written between braces. -/
inductive Origin where
  | header
  | parent
  | dottedKey
  | inline
deriving DecidableEq, Repr, Inhabited

/-- A value of a document. -/
inductive Item where
  | text (s : String)
  | integer (n : Int)
  | truth (b : Bool)
  | real (x : Option Binary64)
  | moment (written : String)
  | array (items : List Item)
  | tables (items : List Item)
  | table (origin : Origin) (entries : List (String × Item))
deriving Repr, Inhabited

/-- A path of keys: those in front and the last one. -/
structure KeyPath where
  parents : List String
  key : String
deriving DecidableEq, Repr, Inhabited

/-- All keys of a path. -/
def KeyPath.keys (p : KeyPath) : List String := p.parents ++ [p.key]

/-- A statement of a document. -/
inductive Statement where
  | entry (path : KeyPath) (value : Item)
  | header (path : KeyPath)
  | arrayHeader (path : KeyPath)
deriving Repr, Inhabited

namespace Item

/-- The entries of a table with their origin. -/
abbrev Table := Origin × List (String × Item)

/-- The entry of a key. -/
def find? (key : String) (entries : List (String × Item)) : Option Item :=
  (entries.find? fun e => e.1 = key).map (·.2)

/-- Replaces the entry of a key. -/
def replace (key : String) (item : Item) (entries : List (String × Item)) : List (String × Item) :=
  entries.map fun e => if e.1 = key then (key, item) else e

/-- Whether a path of keys may go through a table. -/
def isOpen (dotted : Bool) : Origin → Bool
  | .inline => false
  | .header => !dotted
  | _ => true

/-- Changes the table at a path of keys. Missing tables are made on the way, and an array of
tables stands for its last one. `dotted` says that the keys are those of an entry. -/
def alterAt (dotted : Bool) (change : Table → Option (List (String × Item))) :
    List String → Table → Option (List (String × Item))
  | [], t => change t
  | key :: path, (_, entries) =>
    match find? key entries with
    | none => do
      let origin := if dotted then Origin.dottedKey else .parent
      return entries ++ [(key, .table origin (← alterAt dotted change path (origin, [])))]
    | some (.table origin inner) => do
      if !isOpen dotted origin then none
      return replace key (.table origin (← alterAt dotted change path (origin, inner))) entries
    | some (.tables ts) =>
      match ts.getLast? with
      | some (.table origin inner) => do
        let last := Item.table origin (← alterAt dotted change path (origin, inner))
        return replace key (.tables (ts.dropLast ++ [last])) entries
      | _ => none
    | some _ => none

/-- Adds an entry to a table. Its key must be new, and a dotted key ends in a table of dotted
keys. -/
def addEntry (path : KeyPath) (value : Item) (t : Table) : Option (List (String × Item)) :=
  alterAt true (fun (origin, entries) =>
    if (origin == .dottedKey) == path.parents.isEmpty then none
    else if (find? path.key entries).isSome then none
    else some (entries ++ [(path.key, value)])) path.parents t

/-- Defines the table of a header. -/
def openTable (key : String) (t : Table) : Option (List (String × Item)) :=
  match find? key t.2 with
  | none => some (t.2 ++ [(key, .table .header [])])
  | some (.table .parent inner) => some (replace key (.table .header inner) t.2)
  | some _ => none

/-- Adds a table to the array of a header. -/
def openElement (key : String) (t : Table) : Option (List (String × Item)) :=
  match find? key t.2 with
  | none => some (t.2 ++ [(key, .tables [.table .header []])])
  | some (.tables ts) => some (replace key (.tables (ts ++ [.table .header []])) t.2)
  | some _ => none

/-- Carries out statements on a document whose latest header is `current`. -/
def run (current : List String) (root : List (String × Item)) :
    List Statement → Option (List (String × Item))
  | [] => some root
  | .entry path value :: rest => do
    run current (← alterAt false (addEntry path value) current (.header, root)) rest
  | .header path :: rest => do
    run path.keys (← alterAt false (openTable path.key) path.parents (.header, root)) rest
  | .arrayHeader path :: rest => do
    run path.keys (← alterAt false (openElement path.key) path.parents (.header, root)) rest

/-- The document that statements make. -/
def ofStatements? (statements : List Statement) : Option Item :=
  (run [] [] statements).map (.table .header)

/-- A table between braces. -/
def ofPairs? (pairs : List (KeyPath × Item)) : Option Item :=
  (pairs.foldlM (fun entries p => addEntry p.1 p.2 (.inline, entries)) []).map (.table .inline)

mutual
/-- The tree of an item. A date or time is a dictionary with its written form under no name, and
infinite numbers count as zero. -/
def toValue : Item → Value
  | text s => .str s
  | integer n => .int n
  | truth b => .bool b
  | real x => .real (x.getD (.zero false))
  | moment written => .dict [("", .str written)]
  | array items => .list (itemValues items)
  | tables items => .list (itemValues items)
  | table _ entries => .dict (Value.sorted (entryValues entries))

/-- The tree of every item. -/
def itemValues : List Item → List Value
  | [] => []
  | i :: rest => i.toValue :: itemValues rest

/-- The tree of every entry. -/
def entryValues : List (String × Item) → List (String × Value)
  | [] => []
  | (k, i) :: rest => (k, i.toValue) :: entryValues rest
end

end Item
end PipelineManager.Toml
