/-!
# Media types

The type of a body as it is declared: a type, a subtype and parameters. `isJson` says whether it
declares JSON text.
-/

namespace PipelineManager.Http

/-- A character of a name in a media type. -/
def isTokenChar (c : Char) : Bool := c.isAlphanum || "!#$%&'*+-.^_\x60|~".toList.contains c

/-- A character of a quoted value. A quote is one only as the first. -/
def isQuotedChar (c : Char) : Bool := 32 ≤ c.toNat && c.toNat < 127

/-- A parameter or what is left of one while it is read. -/
inductive ParameterPart where
  | start
  | name
  | valueStart
  | value
  | quotedStart
  | quoted
  | afterQuoted
deriving DecidableEq, Repr

/-- Whether parameters are well-formed, from a part of one on. -/
def wellFormedFrom : ParameterPart → List Char → Bool
  | .start, [] | .valueStart, [] | .value, [] | .afterQuoted, [] => true
  | .name, [] | .quotedStart, [] | .quoted, [] => false
  | .start, c :: cs =>
    if c = ' ' then wellFormedFrom .start cs else isTokenChar c && wellFormedFrom .name cs
  | .name, c :: cs =>
    if c = '=' then wellFormedFrom .valueStart cs else isTokenChar c && wellFormedFrom .name cs
  | .valueStart, c :: cs =>
    if c = '"' then wellFormedFrom .quotedStart cs else isTokenChar c && wellFormedFrom .value cs
  | .value, c :: cs =>
    if c = ';' then wellFormedFrom .start cs else isTokenChar c && wellFormedFrom .value cs
  | .quotedStart, c :: cs => isQuotedChar c && wellFormedFrom .quoted cs
  | .quoted, c :: cs =>
    if c = '"' then wellFormedFrom .afterQuoted cs else isQuotedChar c && wellFormedFrom .quoted cs
  | .afterQuoted, c :: cs =>
    if c = ';' then wellFormedFrom .start cs else c = ' ' && wellFormedFrom .afterQuoted cs

/-- Whether a subtype is that of JSON text, on its own or behind its last plus. -/
def isJsonSubtype (cs : List Char) : Bool :=
  let suffix := (cs.reverse.takeWhile (· ≠ '+')).reverse
  let front := cs.take (cs.length - suffix.length - 1)
  if suffix.length < cs.length && !front.isEmpty then
    suffix = "json".toList || front = "json".toList
  else cs = "json".toList

/-- Whether a declared media type is that of JSON text. -/
def isJson (declared : String) : Bool :=
  let cs := declared.toList.map Char.toLower
  let type := cs.takeWhile (· ≠ '/')
  let rest := (cs.dropWhile (· ≠ '/')).drop 1
  let subtype := rest.takeWhile (· ≠ ';')
  let parameters := (rest.dropWhile (· ≠ ';')).drop 1
  type = "application".toList && subtype.all isTokenChar && isJsonSubtype subtype &&
    wellFormedFrom .start parameters

end PipelineManager.Http
