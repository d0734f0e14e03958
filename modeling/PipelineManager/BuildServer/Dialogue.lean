import PipelineManager.BuildServer.Address
import PipelineManager.Text.Search

/-!
# Dialogues with a build server

A `Dialogue` is a sequence of requests, each depending on the replies to those before. It can be
held with any server, also one that drops connections or cannot be reached, and leaves a record of
its exchanges. A request is sent on, hop by hop, as long as the replies redirect it: the last reply
is what comes of it.
-/

namespace PipelineManager.BuildServer

/-- The methods of requests. -/
inductive Method where
  | get
  | post
deriving DecidableEq, Repr, Inhabited

/-- The name of a method. -/
def Method.name : Method → String
  | get => "GET"
  | post => "POST"

/-- A request with the credentials of its sender, which are left out when it is not signed. Headers
that are the same for all requests are not listed. -/
structure Request where
  method : Method
  address : Address
  username : String
  password : String
  headers : List (String × String) := []
  body : String := ""
  isSigned : Bool := true
deriving DecidableEq, Repr, Inhabited

/-- What comes of a request: it does not get to the server, nothing comes back, or an answer, the
body of which may break off. -/
inductive Reply where
  | unreached
  | lost
  | answered (status : Nat) (headers : List (String × String)) (body : Option ByteArray)
deriving Inhabited

/-- Whether the server got the request. -/
def Reply.isReceipt : Reply → Bool
  | unreached => false
  | _ => true

/-- A request that was sent and what came back. -/
structure Hop where
  request : Request
  reply : Reply
deriving Inhabited

/-- A request that was made, what came of it, and the hops that it took. -/
structure Exchange where
  request : Request
  reply : Reply
  hops : List Hop
deriving Inhabited

/-- Where a location leads: it cannot be read, cannot be requested, or is an address. -/
inductive Lead where
  | nowhere
  | barred
  | to (address : Address)
deriving DecidableEq, Repr, Inhabited

/-- What the requests of a client meet: the reply to each by the hops before, and where the
locations lead that a reply from an address names. -/
structure Server where
  reply : List Hop → Request → Reply
  lead : Address → String → Lead

/-- The server that no request gets to. -/
def Server.unreachable : Server where
  reply _ _ := .unreached
  lead _ _ := .nowhere

/-! ## Headers -/

/-- A character of the name of a header. -/
def isHeaderNameChar (c : Char) : Bool := c.isAlphanum || "!#$%&'*+-.^_\x60|~".toList.contains c

/-- Whether a header can be sent: its name is not empty, and its value has no control character
other than a tabulator. -/
def isSendable (header : String × String) : Bool :=
  !header.1.isEmpty && header.1.toList.all isHeaderNameChar &&
    header.2.toList.all fun c => c = '\t' || (32 ≤ c.toNat && c.toNat ≠ 127)

/-- Whether a header has one of some names, which are in lower case. -/
def isNamed (names : List String) (header : String × String) : Bool :=
  names.contains (header.1.map Char.toLower)

/-! ## Cookies -/

/-- The cookie that a header of a reply sets. -/
def setCookie? (header : String × String) : Option (String × String) :=
  if isNamed ["set-cookie"] header then
    let pair := header.2.toList.takeWhile (· ≠ ';')
    let name := Text.trim (pair.takeWhile (· ≠ '='))
    let value := Text.trim ((pair.dropWhile (· ≠ '=')).drop 1)
    if name.isEmpty || !pair.contains '=' then none
    else some (String.ofList name, String.ofList value)
  else none

/-- Keeps a cookie, instead of one with its name. -/
def keepCookie (cookies : List (String × String)) (cookie : String × String) :
    List (String × String) :=
  cookies.filter (fun c => c.1 ≠ cookie.1) ++ [cookie]

/-- The cookies that a reply sets. -/
def Reply.cookies : Reply → List (String × String)
  | answered _ headers _ => headers.filterMap setCookie?
  | _ => []

/-- The header that sends cookies back. -/
def cookieHeader (cookies : List (String × String)) : List (String × String) :=
  if cookies.isEmpty then []
  else [("cookie", String.intercalate "; " (cookies.map fun c => c.1 ++ "=" ++ c.2))]

/-- The request with cookies. -/
def Request.withCookies (r : Request) (cookies : List (String × String)) : Request :=
  { r with headers := r.headers ++ cookieHeader cookies }

/-! ## Redirections -/

/-- How a request is redirected: it is made anew as one that only reads, or repeated. -/
inductive Redirection where
  | anew
  | again
deriving DecidableEq, Repr, Inhabited

/-- The redirection of a status. -/
def redirection? (status : Nat) : Option Redirection :=
  if status = 301 ∨ status = 302 ∨ status = 303 then some .anew
  else if status = 307 ∨ status = 308 then some .again
  else none

/-- The headers that describe a body. -/
def contentHeaders : List String :=
  ["content-type", "content-length", "content-encoding", "transfer-encoding"]

/-- The headers that are for one host alone. -/
def privateHeaders : List String :=
  ["authorization", "cookie", "cookie2", "proxy-authorization", "www-authenticate"]

/-- The header that tells from where a request was redirected. A secure address is not told to one
that is not. -/
def refererHeader (source target : Address) : List (String × String) :=
  if source.isSecure && !target.isSecure then [] else [("referer", source.shown)]

/-- A request as it is redirected to an address. Another host gets neither the credentials nor what
else is private. -/
def Request.redirected (r : Request) (kind : Redirection) (address : Address) : Request :=
  let isSame := address.origin = r.address.origin
  let kept := r.headers.filter fun h =>
    !(isNamed ["referer"] h || !isSame && isNamed privateHeaders h ||
      kind = .anew && isNamed contentHeaders h)
  { r with
    method := match kind with
      | .anew => .get
      | .again => r.method
    address
    headers := kept ++ refererHeader r.address address
    body := match kind with
      | .anew => ""
      | .again => r.body
    isSigned := r.isSigned && isSame }

/-- The location that headers name. -/
def location? (headers : List (String × String)) : Option String :=
  (headers.find? (isNamed ["location"])).map (·.2)

/-- What a client makes of a reply to a request: it is what comes of the request, or the request is
sent on. -/
inductive Reaction where
  | settle (reply : Reply)
  | follow (r : Request)

/-- The reaction to a reply. A redirection without a location that can be read is an answer. -/
def Server.react (server : Server) (r : Request) (reply : Reply) : Reaction :=
  match reply with
  | .answered status headers _ =>
    match redirection? status, location? headers with
    | some kind, some location =>
      match server.lead r.address location with
      | .nowhere => .settle reply
      | .barred => .settle .lost
      | .to address => .follow (r.redirected kind address)
    | _, _ => .settle reply
  | _ => .settle reply

/-! ## Hops -/

/-- The hops of a request so far and the cookies that the server set. -/
structure Trail where
  hops : List Hop := []
  cookies : List (String × String) := []
deriving Inhabited

/-- The trail behind another hop. Cookies are kept for the origin that a request is made to. -/
def Trail.extend (origin : String) (trail : Trail) (h : Hop) : Trail where
  hops := trail.hops ++ [h]
  cookies :=
    if h.request.address.origin = origin then h.reply.cookies.foldl keepCookie trail.cookies
    else trail.cookies

/-- A hop to wherever a request is addressed. -/
def Server.hop (server : Server) (origin : String) (past : List Hop) (trail : Trail) (r : Request) :
    Hop :=
  let r := if r.address.origin = origin then r.withCookies trail.cookies else r
  ⟨r, server.reply (past ++ trail.hops) r⟩

/-- How many redirections of a request are followed. -/
def maxRedirections : Nat := 10

/-- Sends a request and follows its redirections, of which so many are left. -/
def Server.travel (server : Server) (origin : String) (past : List Hop) :
    Nat → Trail → Request → Trail × Reply
  | left, trail, r =>
    let h := server.hop origin past trail r
    let trail := trail.extend origin h
    match server.react r h.reply, left with
    | .settle reply, _ => (trail, reply)
    | .follow _, 0 => (trail, .lost)
    | .follow r, left + 1 => server.travel origin past left trail r

/-! ## Dialogues -/

/-- A sequence of requests that ends with a result. -/
inductive Dialogue (α : Type) where
  | done (a : α)
  | send (r : Request) (next : Reply → Dialogue α)

/-- The exchanges of a dialogue so far and the cookies that the server set. -/
structure Record where
  exchanges : List Exchange := []
  cookies : List (String × String) := []
deriving Inhabited

/-- The hops of all requests. -/
def Record.hops (r : Record) : List Hop := r.exchanges.flatMap (·.hops)

/-- The requests that were made. -/
def Record.requests (r : Record) : List Request := r.exchanges.map (·.request)

/-- The requests that the server got. -/
def Record.received (r : Record) : List Request :=
  (r.hops.filter (·.reply.isReceipt)).map (·.request)

namespace Dialogue

variable {α β : Type}

/-- One dialogue after the other. -/
def bind : Dialogue α → (α → Dialogue β) → Dialogue β
  | done a, next => next a
  | send r answered, next => send r fun reply => (answered reply).bind next

instance : Monad Dialogue where
  pure := done
  bind := bind

/-- A single request. One with a header that cannot be sent gets nowhere. -/
def request (r : Request) : Dialogue Reply :=
  if r.headers.all isSendable then send r done else done .unreached

/-- Holds a dialogue with a server. -/
def hold (server : Server) : Dialogue α → Record → α × Record
  | done a, past => (a, past)
  | send r next, past =>
    let (trail, reply) :=
      server.travel r.address.origin past.hops maxRedirections { cookies := past.cookies } r
    (next reply).hold server {
      exchanges := past.exchanges ++ [⟨r, reply, trail.hops⟩]
      cookies := trail.cookies }

/-- A sequence of dialogues is held one after the other. -/
theorem hold_bind (server : Server) (d : Dialogue α) (next : α → Dialogue β) (past : Record) :
    (d.bind next).hold server past =
      (next (d.hold server past).1).hold server (d.hold server past).2 := by
  induction d generalizing past with
  | done a => rfl
  | send r answered ih => exact ih _ _

end Dialogue
end PipelineManager.BuildServer
