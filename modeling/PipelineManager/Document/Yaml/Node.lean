import PipelineManager.Document.Yaml.Token

/-!
# YAML nodes

Builds the tree of a document from its tokens. Aliases stay in the tree as references; the
document keeps the nodes that anchors name. A text holds at most one document.
-/

namespace PipelineManager.Yaml

/-- A node of a document. -/
inductive Node where
  | scalar (tag : Option String) (style : Style) (text : String)
  | list (tag : Option String) (items : List Node)
  | dict (tag : Option String) (entries : List (Node × Node))
  | reference (id : Nat)
deriving Repr, Inhabited

namespace Node

/-- The scalar of a place where nothing stands. -/
def empty : Node := scalar none .plain ""

mutual
/-- How many parts a node is written in: one for a scalar or an alias, and two beside their
contents for a list or a dictionary. -/
def size : Node → Nat
  | scalar .. | reference _ => 1
  | list _ items => itemsSize items + 2
  | dict _ entries => entriesSize entries + 2

/-- The parts of all items. -/
def itemsSize : List Node → Nat
  | [] => 0
  | n :: rest => n.size + itemsSize rest

/-- The parts of all entries. -/
def entriesSize : List (Node × Node) → Nat
  | [] => 0
  | (k, v) :: rest => k.size + v.size + entriesSize rest
end

end Node

/-- The state of building: the tokens that are left, what the tag handles stand for, and the
anchors. An anchor's name leads to an identifier; an identifier leads to the node that was
started last under it, which is kept under the number of its start. -/
structure Build where
  tokens : List Token
  handles : List (String × String)
  names : List (String × Nat) := []
  starts : List (Nat × Nat) := []
  started : Nat := 0
  nodes : List (Nat × Node) := []

namespace Build

/-- The next token. -/
def peek (b : Build) : Token := b.tokens.head?.getD .streamEnd

/-- Moves over the next token. -/
def next (b : Build) : Build := { b with tokens := b.tokens.drop 1 }

/-- Starts a node under an anchor. The identifier is the number of different names so far. -/
def start (b : Build) (name : String) : Build :=
  let id := b.names.length
  { b with
    names := (name, id) :: b.names.filter (fun n => n.1 ≠ name)
    starts := (id, b.started) :: b.starts.filter (fun s => s.1 ≠ id)
    started := b.started + 1 }

/-- Keeps a node that was started under a number. -/
def keep (b : Build) (number : Option Nat) (n : Node) : Build :=
  match number with
  | some k => { b with nodes := (k, n) :: b.nodes }
  | none => b

/-- The tag that a handle and a suffix name. -/
def resolveTag? (b : Build) (handle suffix : String) : Option String :=
  if handle.isEmpty then some suffix
  else (b.handles.find? fun h => h.1 = handle).map fun h => h.2 ++ suffix

/-- The anchor and the tag in front of a node, in either order. -/
def properties? (b : Build) : Option (Option String × Option String × Build) :=
  match b.peek with
  | .anchor name =>
    match b.next.peek with
    | .tag handle suffix =>
      (b.resolveTag? handle suffix).map fun t => (some name, some t, b.next.next)
    | _ => some (some name, none, b.next)
  | .tag handle suffix =>
    match b.resolveTag? handle suffix with
    | none => none
    | some t =>
      match b.next.peek with
      | .anchor name => some (some name, some t, b.next.next)
      | _ => some (none, some t, b.next)
  | _ => some (none, none, b)

mutual
/-- Reads a node. Block collections may only stand outside brackets, and a block list at the
indentation of its parent only as a key or a value. -/
def node : Nat → Bool → Bool → Build → Option (Node × Build)
  | 0, _, _, _ => none
  | fuel + 1, block, unindented, b =>
    match b.peek with
    | .reference name => (b.names.find? fun n => n.1 = name).map fun n => (.reference n.2, b.next)
    | _ => do
      let (anchor, tag, b) ← b.properties?
      let number := anchor.map fun _ => b.started
      let b := match anchor with
        | some name => b.start name
        | none => b
      let (n, b) ← match b.peek with
        | .blockItem =>
          if unindented then (unindentedItems fuel b).map fun r => (Node.list tag r.1, r.2)
          else if anchor.isSome || tag.isSome then some (.scalar tag .plain "", b)
          else none
        | .scalar text style =>
          some (.scalar (if tag = some "!" then none else tag) style text, b.next)
        | .openList => (flowItems fuel true b.next).map fun r => (Node.list tag r.1, r.2)
        | .openDict => (flowEntries fuel true b.next).map fun r => (Node.dict tag r.1, r.2)
        | .openBlockList =>
          if block then (blockItems fuel b.next).map fun r => (Node.list tag r.1, r.2)
          else if anchor.isSome || tag.isSome then some (.scalar tag .plain "", b)
          else none
        | .openBlockDict =>
          if block then (blockEntries fuel b.next).map fun r => (Node.dict tag r.1, r.2)
          else if anchor.isSome || tag.isSome then some (.scalar tag .plain "", b)
          else none
        | _ => if anchor.isSome || tag.isSome then some (.scalar tag .plain "", b) else none
      return (n, b.keep number n)

/-- Reads the items of a block list and its end. -/
def blockItems : Nat → Build → Option (List Node × Build)
  | 0, _ => none
  | fuel + 1, b =>
    match b.peek with
    | .blockItem => do
      let b := b.next
      let (n, b) ← match b.peek with
        | .blockItem | .closeBlock => some (Node.empty, b)
        | _ => node fuel true false b
      let (ns, b) ← blockItems fuel b
      return (n :: ns, b)
    | .closeBlock => some ([], b.next)
    | _ => none

/-- Reads the items of a block list that is not indented. -/
def unindentedItems : Nat → Build → Option (List Node × Build)
  | 0, _ => none
  | fuel + 1, b =>
    match b.peek with
    | .blockItem => do
      let b := b.next
      let (n, b) ← match b.peek with
        | .blockItem | .key | .value | .closeBlock => some (Node.empty, b)
        | _ => node fuel true false b
      let (ns, b) ← unindentedItems fuel b
      return (n :: ns, b)
    | _ => some ([], b)

/-- Reads the entries of a block dictionary and its end. -/
def blockEntries : Nat → Build → Option (List (Node × Node) × Build)
  | 0, _ => none
  | fuel + 1, b =>
    match b.peek with
    | .key => do
      let (k, b) ← blockPart fuel b.next
      let (v, b) ← match b.peek with
        | .value => blockPart fuel b.next
        | _ => some (Node.empty, b)
      let (es, b) ← blockEntries fuel b
      return ((k, v) :: es, b)
    | .closeBlock => some ([], b.next)
    | _ => none

/-- Reads the key or the value of a block dictionary's entry after its mark. -/
def blockPart : Nat → Build → Option (Node × Build)
  | 0, _ => none
  | fuel + 1, b =>
    match b.peek with
    | .key | .value | .closeBlock => some (Node.empty, b)
    | _ => node fuel true true b

/-- Reads the items of a bracketed list and its end. An item with a key is a dictionary of one
entry. -/
def flowItems : Nat → Bool → Build → Option (List Node × Build)
  | 0, _, _ => none
  | fuel + 1, first, b =>
    match b.peek with
    | .closeList => some ([], b.next)
    | t => do
      let b ← if first then some b else if t = .comma then some b.next else none
      match b.peek with
      | .closeList => return ([], b.next)
      | .key =>
        let (e, b) ← flowPair fuel b.next
        let (ns, b) ← flowItems fuel false b
        return (.dict none [e] :: ns, b)
      | _ =>
        let (n, b) ← node fuel false false b
        let (ns, b) ← flowItems fuel false b
        return (n :: ns, b)

/-- Reads an entry that stands as an item of a bracketed list. Where its key is missing the mark
of the value is taken for the key, so that nothing but the end of the entry may follow. -/
def flowPair : Nat → Build → Option ((Node × Node) × Build)
  | 0, _ => none
  | fuel + 1, b => do
    let (k, b) ← match b.peek with
      | .value | .comma | .closeList => some (Node.empty, b.next)
      | _ => node fuel false false b
    match b.peek with
    | .value =>
      match b.next.peek with
      | .comma | .closeList => return ((k, Node.empty), b.next)
      | _ =>
        let (v, b) ← node fuel false false b.next
        return ((k, v), b)
    | _ => return ((k, Node.empty), b)

/-- Reads the entries of a dictionary in braces and its end. -/
def flowEntries : Nat → Bool → Build → Option (List (Node × Node) × Build)
  | 0, _, _ => none
  | fuel + 1, first, b =>
    match b.peek with
    | .closeDict => some ([], b.next)
    | t => do
      let b ← if first then some b else if t = .comma then some b.next else none
      match b.peek with
      | .closeDict => return ([], b.next)
      | .key =>
        let (k, b) ← flowPart fuel b.next
        let (v, b) ← match b.peek with
          | .value => flowPart fuel b.next
          | _ => some (Node.empty, b)
        let (es, b) ← flowEntries fuel false b
        return ((k, v) :: es, b)
      | _ =>
        let (k, b) ← node fuel false false b
        let (es, b) ← flowEntries fuel false b
        return ((k, Node.empty) :: es, b)

/-- Reads the key or the value of an entry in braces after its mark. -/
def flowPart : Nat → Build → Option (Node × Build)
  | 0, _ => none
  | fuel + 1, b =>
    match b.peek with
    | .value | .comma | .closeDict => some (Node.empty, b)
    | _ => node fuel false false b
end

/-- Reads the directives in front of a document: at most one version, which is 1.1 or 1.2, and
no handle twice. -/
def directives :
    Nat → Bool → List (String × String) → Build → Option (List (String × String) × Build)
  | 0, _, _, _ => none
  | fuel + 1, versioned, handles, b =>
    match b.peek with
    | .version major minor =>
      if versioned || major ≠ 1 || (minor ≠ 1 && minor ≠ 2) then none
      else directives fuel true handles b.next
    | .tagAlias handle expansion =>
      if handles.any fun h => h.1 = handle then none
      else directives fuel versioned ((handle, expansion) :: handles) b.next
    | _ => some (handles, b)

/-- The tag handles that every document knows. -/
def knownHandles : List (String × String) := [("!", "!"), ("!!", "tag:yaml.org,2002:")]

end Build

/-- A document: its tree, if there is one, and what its aliases stand for. -/
structure Document where
  root : Option Node
  anchors : List (Nat × Node)
deriving Inhabited

/-- The node of an alias. -/
def Document.target? (d : Document) (id : Nat) : Option Node :=
  (d.anchors.find? fun a => a.1 = id).map (·.2)

/-- The anchors of a finished document, by identifier. -/
def Build.targets (b : Build) : List (Nat × Node) :=
  b.starts.filterMap fun s => (b.nodes.find? fun n => n.1 = s.2).map fun n => (s.1, n.2)

/-- Reads the one document of a token list. A document without marker starts at once; after one
with a marker nothing may stand. -/
def Document.ofTokens? (tokens : List Token) : Option Document := do
  let fuel := 4 * tokens.length + 8
  let b : Build := { tokens, handles := [] }
  match b.peek with
  | .streamEnd => return { root := none, anchors := [] }
  | first =>
    let explicit : Bool := match first with
      | .version .. | .tagAlias .. | .documentStart => true
      | _ => false
    let (handles, b) ← b.directives fuel false []
    let b := { b with handles := handles ++ Build.knownHandles }
    let b ← if explicit then (if b.peek = .documentStart then some b.next else none) else some b
    let (n, b) ← match explicit, b.peek with
      | true, .version .. | true, .tagAlias .. | true, .documentStart | true, .documentEnd
      | true, .streamEnd => some (Node.empty, b)
      | _, _ => b.node fuel true false
    let rest := b.tokens.dropWhile (· = .documentEnd)
    match rest with
    | [] | [.streamEnd] => return { root := some n, anchors := b.targets }
    | _ => none

/-- Reads a text as one document. -/
def Document.read? (text : String) : Option Document := do
  Document.ofTokens? (← tokens? text)

end PipelineManager.Yaml
