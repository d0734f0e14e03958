import PipelineManager.Text.Blank
import PipelineManager.Text.Parts

/-!
# Addresses

An address has an origin, a path and perhaps a query. `Address.read` splits a text into them and
writes the characters that may not stand there as percent codes. `Address.child` puts names below
an address; a name stays one segment of the path, whatever its characters.
-/

namespace PipelineManager.BuildServer

/-! ## Percent codes -/

/-- An upper-case hexadecimal digit. -/
def hexDigit (n : Nat) : Char :=
  if n < 10 then Char.ofNat ('0'.toNat + n) else Char.ofNat ('A'.toNat + (n - 10))

/-- The percent code of a byte. -/
def percentCode (b : UInt8) : List Char := ['%', hexDigit (b.toNat / 16), hexDigit (b.toNat % 16)]

/-- A character as the percent codes of its bytes. -/
def percentCodes (c : Char) : List Char := (String.utf8EncodeChar c).flatMap percentCode

/-- A text with the characters that are not plain as percent codes. -/
def encode (isPlain : Char → Bool) (cs : List Char) : List Char :=
  cs.flatMap fun c => if isPlain c then [c] else percentCodes c

/-- The characters that stand for themselves in a query: the visible ones that do not delimit. -/
def isPlainInQuery (c : Char) : Bool := 32 < c.toNat && c.toNat < 127 && !"\"#<>'".toList.contains c

/-- The characters that stand for themselves in a path. -/
def isPlainInPath (c : Char) : Bool :=
  32 < c.toNat && c.toNat < 127 && !"\"#<>?^\x60\x7b\x7d".toList.contains c

/-- The characters that stand for themselves in a name below an address. -/
def isPlainInName (c : Char) : Bool := isPlainInPath c && !"/%\\".toList.contains c

/-- The characters that stand for themselves in a form. -/
def isPlainInForm (c : Char) : Bool := c.isAlphanum || "*-._".toList.contains c

/-- A text in a form, with a plus for each space. -/
def formText (text : String) : List Char :=
  text.toList.flatMap fun c => if c = ' ' then ['+'] else encode isPlainInForm [c]

/-- Pairs of name and value as a form. -/
def form (pairs : List (String × String)) : String :=
  String.ofList (Text.joinParts '&' (pairs.map fun p => formText p.1 ++ '=' :: formText p.2))

/-! ## Addresses -/

/-- Where a request goes. -/
structure Address where
  origin : String
  path : String
  query : Option String
deriving DecidableEq, Repr, Inhabited

/-- Whether a segment stands for the directory it is in. -/
def isHere (segment : List Char) : Bool :=
  let s := segment.map Char.toLower
  s = ".".toList || s = "%2e".toList

/-- Whether a segment stands for the directory above. -/
def isAbove (segment : List Char) : Bool :=
  let s := segment.map Char.toLower
  s = "..".toList || s = ".%2e".toList || s = "%2e.".toList || s = "%2e%2e".toList

/-- Follows the segments of a path from the directories `above`, the nearest first. -/
def follow (above : List (List Char)) : List (List Char) → List (List Char)
  | [] => above.reverse
  | [last] =>
    if isAbove last then ([] :: above.drop 1).reverse
    else if isHere last then ([] :: above).reverse
    else (last :: above).reverse
  | s :: rest =>
    if isAbove s then follow (above.drop 1) rest
    else if isHere s then follow above rest
    else follow (s :: above) rest

/-- Whether a character ends an origin. A backslash is as good as a slash. -/
def endsOrigin (c : Char) : Bool := c = '/' || c = '\\' || c = '?' || c = '#'

/-- Whether a character ends a path. -/
def endsPath (c : Char) : Bool := c = '?' || c = '#'

/-- Whether a character is left out of addresses wherever it stands. -/
def isLineBreak (c : Char) : Bool := c = '\t' || c = '\n' || c = '\r'

namespace Address

/-- The text behind the scheme and its slashes, with the scheme. -/
def splitScheme (cs : List Char) : List Char × List Char :=
  let scheme := cs.takeWhile fun c => c ≠ ':' && !endsOrigin c
  match cs.drop scheme.length with
  | ':' :: rest => (scheme ++ "://".toList, rest.dropWhile fun c => c = '/' || c = '\\')
  | _ => ([], cs)

/-- The path of an address as it is sent. -/
def readPath (cs : List Char) : String :=
  let slashed := cs.map fun c => if c = '\\' then '/' else c
  let segments := follow [] (Text.parts '/' (slashed.drop 1))
  String.ofList ('/' :: Text.joinParts '/' (segments.map (encode isPlainInPath)))

/-- Reads an address. What follows a number sign is no part of it, and neither are line breaks. -/
def read (text : String) : Address :=
  let kept := (Text.trimWhile (·.toNat ≤ 32) text.toList).filter (!isLineBreak ·)
  let (scheme, rest) := splitScheme kept
  let host := rest.takeWhile (!endsOrigin ·)
  let rest := rest.drop host.length
  let path := rest.takeWhile (!endsPath ·)
  let query := match rest.drop path.length with
    | '?' :: rest => some (String.ofList (encode isPlainInQuery (rest.takeWhile (· ≠ '#'))))
    | _ => none
  { origin := String.ofList (scheme ++ host), path := readPath path, query }

/-- The segment of a path for a name. -/
def segment (name : String) : String :=
  String.ofList (encode isPlainInName (name.toList.filter (!isLineBreak ·)))

/-- The path without an empty last segment. -/
def directory (a : Address) : String :=
  match a.path.toList.reverse with
  | '/' :: front => String.ofList front.reverse
  | _ => a.path

/-- The address that a sequence of names leads to from an address. Names of one or two dots lead
nowhere. -/
def child (a : Address) (names : List String) : Address :=
  let led := names.filter fun n => n ≠ "." && n ≠ ".."
  { a with path := led.foldl (fun path n => path ++ "/" ++ segment n) a.directory }

/-- The address with a form behind its query. -/
def withForm (a : Address) (pairs : List (String × String)) : Address :=
  { a with query := some (match a.query with
      | some q => q ++ "&" ++ form pairs
      | none => form pairs) }

/-- The path and the query, as they are sent. -/
def target (a : Address) : String :=
  match a.query with
  | some q => a.path ++ "?" ++ q
  | none => a.path

/-- Whether an address names a host, where it has a scheme. -/
def hasHost (a : Address) : Bool := !"://".toList.isSuffixOf a.origin.toList

/-- Whether what is exchanged with an address is not read by others. -/
def isSecure (a : Address) : Bool := "https://".toList.isPrefixOf a.origin.toList

/-- An address as others may see it, without the credentials in its origin. -/
def shown (a : Address) : String :=
  let (scheme, rest) := splitScheme a.origin.toList
  String.ofList (scheme ++ (rest.reverse.takeWhile (· ≠ '@')).reverse) ++ a.target

end Address
end PipelineManager.BuildServer
