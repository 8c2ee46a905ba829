import ProofRelay.Channel
import ProofRelay.EventStream.Decoder
import ProofRelay.Http.Message

/-!
Proof channels over event streams.  A channel asks for an event stream at its address; once a success head of
the right content type has come it is open, and it yields the messages of the body as they complete.  `Feed`
is a channel with what it has still to read, and `Feed.next` reads one item: a message that is complete comes
before any further frame is read.
-/

namespace ProofRelay.EventStream

/-- The content type of event streams. -/
def mime : String := "text/event-stream"

def address (url : String) : Except ChannelError Http.Uri :=
  match Http.Uri.parse? url with
  | some uri => .ok uri
  | none => .error (.invalidUrl url)

def request (uri : Http.Uri) : Http.Request where
  method := .get
  uri
  headers := (Http.Headers.empty.append .accept (.ofText mime)).append .cacheControl (.ofText "no-cache")
  body := []

/-- Whether a content type is accepted: it must begin with that of event streams. -/
def accepts (contentType : String) : Bool := contentType.startsWith mime

/-- Why the head of a response opens no channel, if it does not. -/
def refusal? (head : Http.Head) : Option ChannelError :=
  if !head.status.isSuccess then some (.status head.status)
  else
    let contentType := head.headers.text? .contentType
    if contentType.any accepts then none else some (.contentType contentType)

/-- A channel and what it has still to read. -/
inductive Feed
  /-- The request has been sent. -/
  | connecting (reply : Http.Reply)
  | streaming (decoder : Decoder) (body : Http.Incoming)
  | finished
deriving DecidableEq, Repr

namespace Feed

/-- Reads frames until a message is complete. -/
def nextMessage (failed : Bool) (d : Decoder) : List Http.Frame → Item × Feed
  | [] =>
    match d.next? with
    | some (message, d) => (.message message, streaming d ⟨[], failed⟩)
    | none => (if failed then .failed (.connection .network) else .ended, finished)
  | frame :: frames =>
    match d.next? with
    | some (message, d) => (.message message, streaming d ⟨frame :: frames, failed⟩)
    | none =>
      match frame with
      | .data bytes => nextMessage failed (d.push bytes) frames
      | .trailers => nextMessage failed d frames

/-- Reads an item; after a failure there is only the end. -/
def next : Feed → Item × Feed
  | connecting none => (.failed (.connection .network), finished)
  | connecting (some (head, body)) =>
    match refusal? head with
    | some error => (.failed error, finished)
    | none => (.opened, streaming {} body)
  | streaming d body => nextMessage body.failed d body.frames
  | finished => (.ended, finished)

/-- The items up to the end, at most `steps` of them. -/
def take : (steps : Nat) → Feed → List Item
  | 0, _ => []
  | steps + 1, feed =>
    match feed.next with
    | (.ended, _) => [.ended]
    | (item, feed) => item :: take steps feed

/-- All items that come of a reply.  A message takes a byte, so there are not more of them than bytes. -/
def items (reply : Http.Reply) : List Item :=
  take ((reply.map fun (_, body) => body.bytes.length).getD 0 + 3) (connecting reply)

end Feed
end ProofRelay.EventStream
