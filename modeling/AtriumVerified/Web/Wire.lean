import AtriumVerified.Lib.InsertionMap
import AtriumVerified.Lib.Schema

/-!
# The wire of the web client

The model of the schemas of `apps/web/src/lib/realtime.ts`: the entries of a room as they travel,
the frames that pass `ServerFrame.safeParse`, and the frames the client sends.
-/

namespace Web

/-! ## Entries -/

structure WireActor where
  kind : String
  userId : Option String
  model : Option String
  deriving DecidableEq, Repr

/-- The event of an entry: a loose object of which the client reads these fields. The last two are
present when they are strings. -/
structure WireBody where
  id : String
  /-- `event.at`. -/
  at_ : String
  type : String
  sessionId : Option String
  clientMessageId : Option String
  deriving DecidableEq, Repr

/-- `RoomEventEnvelope`. -/
structure Envelope where
  roomId : String
  roomSeq : Nat
  seq : Nat
  actor : WireActor
  event : WireBody
  issues : List String
  deriving DecidableEq, Repr

/-- `RoomTombstone`. -/
structure Tombstone where
  roomId : String
  roomSeq : Nat
  seq : Nat
  reason : String
  deriving DecidableEq, Repr

inductive RoomEntry where
  | event (envelope : Envelope)
  | tombstone (row : Tombstone)
  deriving DecidableEq, Repr

namespace RoomEntry

def roomId : RoomEntry → String
  | .event envelope => envelope.roomId
  | .tombstone row => row.roomId

def roomSeq : RoomEntry → Nat
  | .event envelope => envelope.roomSeq
  | .tombstone row => row.roomSeq

/-- `!isTombstone(entry) && entry.issues.length === 0`. -/
def shown : RoomEntry → Option Envelope
  | .event envelope => if envelope.issues = [] then some envelope else none
  | .tombstone _ => none

end RoomEntry

def WireBody.settled (body : WireBody) : Option String :=
  if body.type = "session_settled" ∨ body.type = "session_failed" then body.sessionId else none

/-! ## Frames from the server -/

inductive ProgressKind where
  | heartbeat
  | diffDelta
  deriving DecidableEq, Repr

/-- `ProgressFrame`: what the client reads of a `session_heartbeat` or a `session_diff_delta`. -/
structure ProgressFrame where
  kind : ProgressKind
  roomId : String
  sessionId : String
  progressSeq : Nat
  at_ : String
  deriving DecidableEq, Repr

/-- A `catchup` frame. An entry that is neither an envelope nor a tombstone is `none`, and every other
one is of the frame's room. -/
structure CatchupPage where
  roomId : String
  first : Nat
  last : Nat
  head : Nat
  more : Bool
  entries : List (Option RoomEntry)
  sameRoom : ∀ entry, some entry ∈ entries → entry.roomId = roomId

inductive ServerFrame where
  | welcome
  | pong
  | subscribed (roomId : String) (head seenSeq : Nat) (progress : List (String × Nat))
  | unsubscribed (roomId : String)
  | event (entry : Envelope)
  | tombstone (entry : Tombstone)
  | head (roomId : String) (head : Nat)
  | catchup (page : CatchupPage)
  | ack (commandId : String) (roomSeq : Option Nat) (issues : List String)
  | nack (commandId code message : String)
  | presence (roomId userId state : String)
  | typing (roomId userId : String) (typing : Bool)
  | projectionChanged (roomId : String)
  | progress (frame : ProgressFrame)
  | seen (roomId userId : String) (seenSeq : Nat)
  | error (message : String)

def ServerFrame.entries : ServerFrame → List RoomEntry
  | .event entry => [.event entry]
  | .tombstone entry => [.tombstone entry]
  | .catchup page => page.entries.filterMap id
  | _ => []

/-! ## Frames from the client -/

inductive MessageKind where
  | sendMessage (replyToId : Option String)
  | answerMessage (questionId : String)
  deriving DecidableEq, Repr

inductive ClientCommand where
  | message (roomId body clientMessageId : String) (kind : MessageKind)
      (attachments references : List Js.Json)
  /-- A command that touches no state of the client. -/
  | other (name roomId : String)

inductive ClientFrame where
  | subscribe (roomId : String)
  | unsubscribe (roomId : String)
  | since (roomId : String) (roomSeq : Nat) (limit : Option Nat)
  | ackHead (roomId : String) (roomSeq : Nat)
  | command (commandId : String) (command : ClientCommand)

end Web
