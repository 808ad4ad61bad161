import AtriumVerified.Core.Reduce

/-!
# The events of a room

The model of `apps/server/src/room-events.ts`: the six kinds the reducer folds and the thirteen that
only the server knows, and the room an event is appended to.
-/

namespace Server

open Core Js

inductive ServerEventType where
  | messagePosted
  | attentionResolved
  | planOpened
  | planSettled
  | sessionOpened
  | sessionSettled
  | sessionFailed
  | signalRaised
  | planRlimitSet
  | drawRefused
  | sessionSignaled
  | sessionSubscribed
  | sessionPhaseChanged
  deriving DecidableEq, Repr

/-- `ServerEvent`: what the ledger itself reads of one, and the other fields of its kind. -/
structure ServerEvent where
  id : Id
  /-- `event.at`. -/
  at_ : Timestamp
  type : ServerEventType
  roomId : Id
  fields : List (String × Json)

inductive RoomEvent where
  /-- A core event; `proposal_recorded` also carries the session that drafted it. -/
  | core (event : CoreEvent) (sessionId : Option Id)
  | server (event : ServerEvent)

def RoomEvent.id : RoomEvent → Id
  | .core event _ => event.id
  | .server event => event.id

def RoomEvent.at_ : RoomEvent → Timestamp
  | .core event _ => event.at_
  | .server event => event.at_

def isCoreEvent : RoomEvent → Bool
  | .core _ _ => true
  | .server _ => false

def declaredRoomId : RoomEvent → Option Id
  | .server event => some event.roomId
  | .core event _ =>
    match event.body with
    | .proposalRecorded proposal => some proposal.stored.roomId
    | .objectAccepted object => some object.roomId
    | .relationAdded relation => some relation.roomId
    | .proposalRejected _ _ | .proposalSuperseded _ _ _ | .objectCorrected _ => none

inductive CommandError where
  /-- `new CommandError('invalid', message)`. -/
  | invalid (message : String)
  /-- A property of `undefined` was read. -/
  | typeError (reading : String)
  deriving DecidableEq, Repr

/-- What the state knows of the room of an event's subject: `fromState`. A property that
`Object.prototype` has is found and has no room to read. -/
def subjectRoom {α : Type} (slot : Slot α) (room : α → Id) (subject : String) (authorized : Id) :
    Except CommandError Id :=
  match slot with
  | .inherited => .error (.typeError "roomId")
  | .absent => .error (.invalid s!"unknown {subject}")
  | .own record =>
    if room record = authorized then .ok (room record)
    else .error (.invalid
      s!"target belongs to room \"{room record}\" but the command was authorized for room \"{authorized}\"")

/-- `resolveRoomId` of the ledger: the room an event is appended to is the one the command was
authorized for. -/
def resolveRoomId (event : RoomEvent) (authorized : Id) (state : CoreState) :
    Except CommandError Id :=
  match declaredRoomId event with
  | some declared =>
    if declared = authorized then .ok declared
    else .error (.invalid
      s!"event names room \"{declared}\" but the command was authorized for room \"{authorized}\"")
  | none =>
    match event with
    | .server _ => .error (.invalid "event declares no room")
    | .core event _ =>
      match event.body with
      | .proposalRejected proposalId _ | .proposalSuperseded proposalId _ _ =>
        subjectRoom (state.proposals.get proposalId) (fun record => record.proposal.roomId)
          s!"proposal \"{proposalId}\"" authorized
      | .objectCorrected correction =>
        subjectRoom (state.objects.get correction.objectId) (fun record => record.object.roomId)
          s!"object \"{correction.objectId}\"" authorized
      | _ => .error (.invalid "event declares no room")

end Server
