import LoanClosing.Http.MediaType
import LoanClosing.Json.Decode

/-!
# Requests and responses

What the service is asked, and what it answers. A body that is read has to be JSON by its media type
and by its text; text after a complete value does not matter.
-/

namespace LoanClosing.Http

/-- The method of a request. -/
inductive Method where
  | get
  | head
  | post
  /-- A method that nothing is served for. -/
  | unserved
  deriving DecidableEq, Repr

/-- The method of a name. -/
def Method.ofName : String → Method
  | "GET" => .get
  | "HEAD" => .head
  | "POST" => .post
  | _ => .unserved

/-- A request. -/
structure Request where
  method : Method
  /-- The path, with a query behind a question mark. -/
  target : String
  contentType : Option String
  body : String
  deriving DecidableEq, Repr

/-- What an answer holds. -/
inductive Content where
  | empty
  | json (value : Json)
  | text (mediaType : String) (content : String)
  deriving DecidableEq, Repr

/-- An answer. -/
structure Response where
  status : Nat
  content : Content
  deriving DecidableEq, Repr

namespace Response

/-- An answer that is a status only. -/
def bare (status : Nat) : Response := ⟨status, .empty⟩

/-- An answer that holds JSON. -/
def json (status : Nat) (value : Json) : Response := ⟨status, .json value⟩

/-- An answer that tells about an error. -/
def error (status : Nat) (message : String) : Response :=
  .json status (.object [("error", .text message)])

/-- The answer to one who wants to know its head only. -/
def headOnly (response : Response) : Response :=
  match response.content with
  | .empty | .json _ => .bare response.status
  | .text mediaType _ => ⟨response.status, .text mediaType ""⟩

end Response

/-- Whether the body of a request is said to be JSON. -/
def Request.saysJson (request : Request) : Bool :=
  match request.contentType.bind MediaType.read? with
  | some mediaType => mediaType.isJson
  | none => false

/-- The status that tells what is wrong with a body: not well-formed, or of the wrong shape. -/
def bodyStatus (error : Json.DecodeError) : Nat :=
  match error.category with
  | .data => 422
  | .malformed | .early => 400

/-- The data in the body of a request, or the status that tells what is wrong with it. -/
def Request.data {α : Type} (request : Request) (decode : Json.Decoder α) : Except Nat α :=
  if request.saysJson then
    (decode .text (Json.Node.ofString request.body).1).mapError bodyStatus
  else .error 415

end LoanClosing.Http
