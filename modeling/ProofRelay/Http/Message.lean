import ProofRelay.Http.Headers
import ProofRelay.Http.Status
import ProofRelay.Http.Uri

/-!
HTTP messages: a method, requests and responses with whole bodies, and bodies that arrive in frames.
-/

namespace ProofRelay.Http

/-- The method of a request. -/
structure Method where
  name : String
deriving DecidableEq, Repr

namespace Method

def get : Method := ⟨"GET"⟩
def post : Method := ⟨"POST"⟩
def head : Method := ⟨"HEAD"⟩
def connect : Method := ⟨"CONNECT"⟩

end Method

/-- A request with a whole body. -/
structure Request where
  method : Method
  uri : Uri
  headers : Headers
  body : Bytes
deriving DecidableEq, Repr

/-- A response with a whole body. -/
structure Response where
  status : Status
  headers : Headers
  body : Bytes
deriving DecidableEq, Repr

/-- The status and the headers of a response. -/
structure Head where
  status : Status
  headers : Headers
deriving DecidableEq, Repr

/-- A piece of a body as it arrives. -/
inductive Frame
  | data (bytes : Bytes)
  /-- Headers after the body. -/
  | trailers
deriving DecidableEq, Repr

/-- A body as it arrives: its frames, and whether the connection failed after them. -/
structure Incoming where
  frames : List Frame
  failed : Bool
deriving DecidableEq, Repr

/-- The bytes of the frames that carry data. -/
def Incoming.bytes (b : Incoming) : Bytes :=
  b.frames.flatMap fun
    | .data bytes => bytes
    | .trailers => []

/-- What comes of an exchange: a head and an arriving body, or nothing if the network fails before a head is
complete. -/
abbrev Reply := Option (Head × Incoming)

/-- The reply as a response with a whole body, unless the network fails. -/
def Response.ofReply? : Reply → Option Response
  | none => none
  | some (head, body) => if body.failed then none else some ⟨head.status, head.headers, body.bytes⟩

end ProofRelay.Http
