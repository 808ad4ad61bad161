import AtriumVerified.Core.Common

/-!
# The wire of the loop

The model of `apps/loop/src/protocol.ts`: the room events the loop reads, the frames the server
sends, what is left of a frame once it is parsed, and the commands the loop sends.
-/

namespace Loop

open Core

/-! ## Events -/

inductive EventBody where
  | messagePosted (messageId : Id) (body : String) (replyToId clientMessageId causeMessageId : Option Id)
  | planOpened (planId agentUserId : Id) (title : String) (causeMessageId : Option Id)
  | planSettled (planId : Id)
  | planRlimitSet (planId : Id) (slice : Nat)
  | sessionOpened (sessionId planId : Id) (causeMessageId : Option Id)
  | drawRefused (planId : Id) (slice authorizedDraws : Nat)
  | sessionSettled (sessionId : Id)
  | sessionFailed (sessionId : Id)
  | sessionSignaled (sessionId signalId : Id) (kind : String) (causeMessageId : Option Id)
  /-- A type the loop does not route on. -/
  | other (type : String)
  deriving DecidableEq, Repr

structure RoomEvent where
  id : Id
  at_ : Timestamp
  roomId : Id
  body : EventBody
  deriving DecidableEq, Repr

/-- `WireEvent`: a row that could be read. A row with issues was refused by the reducer. -/
structure WireEvent where
  roomId : Id
  roomSeq : Nat
  seq : Nat
  actor : Actor
  event : RoomEvent
  issues : List String
  deriving DecidableEq, Repr

/-- `WireEntry`, as the server sends it: an event, or a position whose row could not be read. -/
inductive WireEntry where
  | event (entry : WireEvent)
  | tombstone (roomId : Id) (roomSeq seq : Nat) (reason : String)
  deriving DecidableEq, Repr

def WireEntry.roomSeq : WireEntry → Nat
  | .event entry => entry.roomSeq
  | .tombstone _ roomSeq _ _ => roomSeq

def WireEntry.delivered : WireEntry → Option WireEvent
  | .event entry => if entry.issues = [] then some entry else none
  | .tombstone _ _ _ _ => none

def WireEntry.Clean (entry : WireEntry) : Prop := entry.delivered ≠ none

instance (entry : WireEntry) : Decidable entry.Clean := inferInstanceAs (Decidable (_ ≠ _))

/-! ## Frames -/

inductive DrawOutcome where
  | granted (sessionId : Id)
  | refused (slice authorizedDraws : Nat)
  deriving DecidableEq, Repr

/-- `AckFrame` or `NackFrame`. -/
inductive Answer where
  | ack (draw : Option DrawOutcome)
  | nack (code message : String)
  deriving DecidableEq, Repr

inductive ServerFrame where
  | welcome (userId : Id)
  | subscribed (roomId : Id) (head : Nat)
  | event (entry : WireEvent)
  | tombstone (roomId : Id) (roomSeq seq : Nat) (reason : String)
  | catchup (roomId : Id) (first last : Nat) (more : Bool) (entries : List WireEntry)
  | head (roomId : Id) (head : Nat)
  | answer (commandId : String) (answer : Answer)
  | other
  deriving DecidableEq, Repr

/-- A frame as `parseServerFrame` returns it. -/
inductive Frame where
  | welcome (userId : Id)
  | subscribed (roomId : Id) (head : Nat)
  | event (entry : WireEvent)
  | catchup (roomId : Id) (first last : Nat) (more : Bool) (entries : List WireEvent)
  /-- `OtherFrame` of a `catchup`: the type is known, and every other field was stripped. -/
  | bareCatchup
  | head (roomId : Id) (head : Nat)
  | answer (commandId : String) (answer : Answer)
  | unknown
  deriving DecidableEq, Repr

/-- `WireEvent.safeParse`. -/
def WireEntry.asEvent : WireEntry → Option WireEvent
  | .event entry => some entry
  | .tombstone _ _ _ _ => none

/-- `parseServerFrame`. A page with an entry that is no event fails as a `CatchupFrame`, passes as an
`OtherFrame`, and has a type that is known. -/
def parseServerFrame : ServerFrame → Frame
  | .welcome userId => .welcome userId
  | .subscribed roomId head => .subscribed roomId head
  | .event entry => .event entry
  | .tombstone _ _ _ _ => .unknown
  | .catchup roomId first last more entries =>
    match entries.mapM WireEntry.asEvent with
    | some events => .catchup roomId first last more events
    | none => .bareCatchup
  | .head roomId head => .head roomId head
  | .answer commandId answer => .answer commandId answer
  | .other => .unknown

def ServerFrame.entries : ServerFrame → List WireEntry
  | .event entry => [.event entry]
  | .tombstone roomId roomSeq seq reason => [.tombstone roomId roomSeq seq reason]
  | .catchup _ _ _ _ entries => entries
  | _ => []

/-! ## Commands -/

/-- `LoopCommand`. Every one is sent to the loop's room. -/
inductive Command where
  | openPlan (agentUserId : Id) (title : String) (causeMessageId : Id)
  | openSession (planId : Id) (harness model : String) (causeMessageId : Id)
  | settlePlan (planId : Id)
  | signalSession (sessionId : Id) (body : String) (causeMessageId : Id)
  | sendMessage (body : String) (clientMessageId : String) (causeMessageId : Id)
  deriving DecidableEq, Repr

end Loop
