import PipelineManager.Document.Value

/-!
# Requests and responses

The requests of the programming interface and the responses to them. Documents are answered in an
envelope of a message, whether the request succeeded, data and errors.
-/

namespace PipelineManager.Http

/-- A request. The target is the path with the query. -/
structure Request where
  method : String
  target : String
  contentType : Option String
  body : ByteArray
deriving Inhabited

/-- What a response holds. -/
inductive Content where
  | document (v : Value)
  | bytes (type : String) (contents : ByteArray)
  | nothing
deriving Inhabited

/-- A response. The content type is kept when the content is left out. -/
structure Response where
  status : Nat
  contentType : Option String
  content : Content
deriving Inhabited

namespace Response

/-- The media type of documents. -/
def jsonType : String := "application/json"

/-- Whether a status is one of success. -/
def isSuccess (status : Nat) : Bool := 200 ≤ status && status < 300

/-- A document in its envelope. -/
def envelope (status : Nat) (message : String) (data : Value) (errors : List String) :
    Response where
  status := status
  contentType := some jsonType
  content := .document (.dict [
    ("data", data),
    ("errors", .list (errors.map .str)),
    ("message", .str message),
    ("success", .bool (isSuccess status))])

/-- An answer to a request that succeeded. -/
def ok (message : String) (data : Value) : Response := envelope 200 message data []

/-- An answer to a request that is refused with one error. -/
def failure (status : Nat) (error : String) : Response := envelope status "" .null [error]

/-- A file. -/
def file (type : String) (contents : ByteArray) : Response := ⟨200, some type, .bytes type contents⟩

/-- A refusal without content. -/
def refusal (status : Nat) : Response := ⟨status, none, .nothing⟩

/-- The response without its content. -/
def withoutContent (r : Response) : Response := { r with content := .nothing }

end Response

namespace Request

/-- The characters of a target in front of a fragment. -/
def visibleTarget (r : Request) : List Char := r.target.toList.takeWhile (· ≠ '#')

/-- The path of a request. -/
def path (r : Request) : List Char := r.visibleTarget.takeWhile (· ≠ '?')

/-- The query of a request. -/
def query (r : Request) : List Char := (r.visibleTarget.dropWhile (· ≠ '?')).drop 1

end Request
end PipelineManager.Http
