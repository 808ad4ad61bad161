import AtriumVerified.Web.Client

/-!
# The messages of a client

A realtime client with the messages it was given that have not come back, and those that the server
acknowledged.
-/

namespace Web

/-- The message that an event brings back to its author. -/
def Envelope.returned (userId : String) (entry : Envelope) : Option String :=
  if entry.event.type = "message_posted" ∧ entry.actor.userId = some userId then
    entry.event.clientMessageId
  else none

/-- The message that an entry brings back to its author. -/
def RoomEntry.returned (userId : String) : RoomEntry → Option String
  | .event entry => entry.returned userId
  | .tombstone _ => none

namespace Client

variable {σ : Type} (options : ClientOptions σ) (client : Client σ)

/-- The room and the id of the message that a step sends. -/
def posted : Step → Option (String × String)
  | .sendMessage roomId _ _ _ _ semantic now => some (roomId, client.freshMessageId options semantic now)
  | .answerMessage roomId _ _ _ now => some (roomId, client.freshMessageId options false now)
  | _ => none

def acknowledged : Step → Option (String × String)
  | .frame (.ack commandId _ _) _ =>
    (client.inFlight.get commandId).map fun message => (message.roomId, message.clientMessageId)
  | _ => none

/-- A step leaves the room of a message, or applies the event that brings it back. -/
def retires (taken : Step) (message : String × String) : Bool :=
  (match taken with
    | .leave roomId => roomId == message.1
    | _ => false) ||
  (client.applied options taken).any fun entry =>
    entry.roomId == message.1 && entry.returned options.userId == some message.2

/-- `retryMessage` sends the message again. -/
def retries (roomId clientMessageId : String) : Bool :=
  let room := (client.view options roomId).1
  match room.pending.find? fun item => item.clientMessageId == clientMessageId with
  | none => false
  | some item =>
    item.status = .failed ∧ item.retryable = some true ∧ client.status = .open_ ∧
      room.subscribed = true

end Client

/-- A client, the messages it owes and those that were acknowledged. -/
structure Outbox (σ : Type) where
  client : Client σ
  owed : List (String × String)
  acked : List (String × String)

namespace Outbox

variable {σ : Type} (box : Outbox σ) (options : ClientOptions σ)

def initial (store : σ) : Outbox σ := ⟨.initial store, [], []⟩

def step (taken : Client.Step) : Outbox σ where
  client := box.client.step options taken
  owed := (box.owed ++ (box.client.posted options taken).toList).filter fun message =>
    !box.client.retires options taken message
  acked := box.acked ++ (box.client.acknowledged taken).toList

def run (steps : List Client.Step) : Outbox σ := steps.foldl (step · options) box

end Outbox

end Web
