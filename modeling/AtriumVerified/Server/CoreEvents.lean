import AtriumVerified.Server.Clock
import AtriumVerified.Server.RoomEvents

/-!
# The table of the ledger

The model of `core_events` (`packages/db/src/schema.ts` and the migrations up to 0049): its columns,
its `CHECK` constraints, the two triggers that run before an insert, and the unique event id. Every
writer goes through them, whichever code it runs.
-/

namespace Server

open Core Js Postgres

/-! ## Columns -/

inductive CoreEventType where
  | proposalRecorded
  | proposalRejected
  | proposalSuperseded
  | objectAccepted
  | objectCorrected
  | relationAdded
  deriving DecidableEq, Repr

inductive EventType where
  | core (type : CoreEventType)
  | server (type : ServerEventType)
  deriving DecidableEq, Repr

/-- `type::text`. -/
def EventType.text : EventType → String
  | .core .proposalRecorded => "proposal_recorded"
  | .core .proposalRejected => "proposal_rejected"
  | .core .proposalSuperseded => "proposal_superseded"
  | .core .objectAccepted => "object_accepted"
  | .core .objectCorrected => "object_corrected"
  | .core .relationAdded => "relation_added"
  | .server .messagePosted => "message_posted"
  | .server .attentionResolved => "attention_resolved"
  | .server .planOpened => "plan_opened"
  | .server .planSettled => "plan_settled"
  | .server .sessionOpened => "session_opened"
  | .server .sessionSettled => "session_settled"
  | .server .sessionFailed => "session_failed"
  | .server .signalRaised => "signal_raised"
  | .server .planRlimitSet => "plan_rlimit_set"
  | .server .drawRefused => "draw_refused"
  | .server .sessionSignaled => "session_signaled"
  | .server .sessionSubscribed => "session_subscribed"
  | .server .sessionPhaseChanged => "session_phase_changed"

inductive ActorKind where
  | human
  | agent
  | model
  | system
  deriving DecidableEq, Repr

inductive PrincipalKind where
  | human
  | agent
  deriving DecidableEq, Repr

/-- The actor kinds whose label is also a label of `principal_kind`. -/
def ActorKind.principal : ActorKind → Option PrincipalKind
  | .human => some .human
  | .agent => some .agent
  | .model | .system => none

/-- The arguments of `atrium_append_core_event`. -/
structure NewRow where
  roomId : Uuid
  id : String
  type : EventType
  actorKind : ActorKind
  actorId : Option String
  payload : Json
  occurredAt : TimestampTz

/-- A row of `core_events`. -/
structure CoreEventRow extends NewRow where
  seq : Nat
  roomSeq : Nat
  trustedMessages : Option Json

/-- What the triggers read of the other tables at the time of an insert. -/
structure Neighbours where
  /-- `users.principal_kind`. -/
  principalKind : Uuid → Option PrincipalKind
  /-- Whether `memberships` has the room and the user. -/
  isMember : Uuid → Uuid → Bool
  /-- Whether `messages` has the room and the message. -/
  hasMessage : Uuid → Uuid → Bool
  /-- `atrium_receipt_window`. -/
  receiptWindow : Uuid → ActorKind → Json → Option (List ProvenanceMessage)

/-! ## The constraints of one row -/

inductive RoomPath where
  | proposal
  | object
  | relation
  | top
  deriving DecidableEq, Repr

/-- `payload->'proposal'->>'roomId'` and its siblings. -/
def roomAt (payload : Json) : RoomPath → Option String
  | .proposal => (jsonbGet payload "proposal").bind (jsonbGetText · "roomId")
  | .object => (jsonbGet payload "object").bind (jsonbGetText · "roomId")
  | .relation => (jsonbGet payload "relation").bind (jsonbGetText · "roomId")
  | .top => jsonbGetText payload "roomId"

/-- The room-bearing keys that the shape of a kind declares; `none` is a kind the `CASE` does not
enumerate. -/
def declaredRoomPaths (type : String) : Option (List RoomPath) :=
  if type = "proposal_recorded" then some [.proposal]
  else if type = "object_accepted" then some [.object]
  else if type = "relation_added" then some [.relation]
  else if ["message_posted", "attention_resolved", "plan_opened", "plan_settled", "session_opened",
      "session_settled", "session_failed", "signal_raised", "plan_rlimit_set", "draw_refused",
      "session_signaled", "session_subscribed", "session_phase_changed"].contains type then
    some [.top]
  else if ["proposal_rejected", "proposal_superseded", "object_corrected"].contains type then some []
  else none

/-- `core_events_payload_room_matches`, with its `coalesce(…, false)`. -/
def payloadRoomMatches (row : NewRow) : Bool :=
  match (jsonbGetText row.payload "type").bind declaredRoomPaths with
  | none => false
  | some paths =>
    let present := [RoomPath.proposal, .object, .relation, .top].filter fun path =>
      (roomAt row.payload path).isSome
    present == paths && paths.all fun path => roomAt row.payload path == some (uuidText row.roomId)

/-- `core_events_payload_at_matches`; `none` is a failed cast. -/
def payloadAtMatches (row : NewRow) : Option (Option Bool) :=
  match jsonbGetText row.payload "at" with
  | none => some none
  | some text => (timestamptz text).map fun value => some (decide (value = row.occurredAt))

/-- The `CHECK` constraints of `core_events` on what a writer supplies. -/
def checks (row : NewRow) : Bool :=
  let actorId := row.actorId
  check ((jsonbGetText row.payload "id").map (· == row.id)) &&
    check ((jsonbGetText row.payload "type").map (· == row.type.text)) &&
    jsonbExists row.payload "at" &&
    check ((jsonbGetText row.payload "at").map canonicalTimestamp) &&
    (match payloadAtMatches row with
      | none => false
      | some condition => check condition) &&
    (idCharset row.id && row.id.length ≤ 256) &&
    payloadRoomMatches row &&
    !jsonbExists row.payload "actor" &&
    ((row.actorKind = .system : Bool) == actorId.isNone) &&
    (actorId.isNone || actorId != some "")

/-! ## The triggers -/

/-- The pattern of a user id: 8, 4, 4, 4 and 12 hexadecimal digits between hyphens. -/
def isUuidText (text : String) : Bool :=
  text.toList.length == 36 && text.toList.zipIdx.all fun (c, i) =>
    if [8, 13, 18, 23].contains i then c == '-' else isHexDigit c

/-- Part (a) of `atrium_core_events_invariants`: an actor that carries an identity is one, of the
kind it claims, and a member of the room. -/
def actorAuthorized (around : Neighbours) (row : NewRow) : Bool :=
  match row.actorKind.principal with
  | none => true
  | some kind =>
    match (row.actorId.filter isUuidText).bind uuid with
    | none => false
    | some user => around.principalKind user == some kind && around.isMember row.roomId user

def subjectRooms (rows : List CoreEventRow) (minted : CoreEventType) (key : String)
    (subject : Option String) : List Uuid :=
  ((rows.filter fun row => row.type == .core minted &&
    (subject.isSome && (jsonbGet row.payload key).bind (jsonbGetText · "id") == subject)).map
      fun row => row.roomId).dedup

/-- Part (b): an event that names a subject lands in the one room its subject was minted in. -/
def subjectRoomMatches (rows : List CoreEventRow) (row : NewRow) : Bool :=
  let lands (minted : CoreEventType) (key subjectKey : String) : Bool :=
    subjectRooms rows minted key (jsonbGetText row.payload subjectKey) == [row.roomId]
  match jsonbGetText row.payload "type" with
  | some "proposal_rejected" => lands .proposalRecorded "proposal" "proposalId"
  | some "proposal_superseded" => lands .proposalRecorded "proposal" "proposalId"
  | some "object_corrected" => lands .objectAccepted "object" "objectId"
  | _ => true

/-- A position of the ledger: `occurred_at` and `id`. -/
abbrev Position := TimestampTz × String

def NewRow.position (row : NewRow) : Position := (row.occurredAt, row.id)

/-- `a` sorts strictly after `b` by `occurred_at` and then by `id COLLATE "C"`. -/
def SortsAfter (a b : Position) : Prop :=
  b.1 < a.1 ∨ (a.1 = b.1 ∧ collateC b.2 < collateC a.2)

instance (a b : Position) : Decidable (SortsAfter a b) := inferInstanceAs (Decidable (_ ∨ _))

/-- `ORDER BY occurred_at DESC, id COLLATE "C" DESC LIMIT 1`. -/
def newest : List CoreEventRow → Option CoreEventRow
  | [] => none
  | row :: rest =>
    match newest rest with
    | none => some row
    | some top => if SortsAfter top.position row.position then some top else some row

/-- Part (c): the reducer's ordering gate, in SQL. -/
def orderGate (rows : List CoreEventRow) (row : NewRow) : Bool :=
  match newest rows with
  | none => true
  | some top => decide (SortsAfter row.position top.position)

/-- The `room_seq` values of the rows of a room. -/
def roomSeqs (rows : List CoreEventRow) (roomId : Uuid) : List Nat :=
  (rows.filter fun row => row.roomId == roomId).map CoreEventRow.roomSeq

/-- Part (d): `coalesce(max(room_seq), 0) + 1` over the rows of the room. -/
def nextRoomSeq (rows : List CoreEventRow) (roomId : Uuid) : Nat :=
  (roomSeqs rows roomId).max?.getD 0 + 1

/-- `atrium_core_events_routing_cause_same_room`. -/
def routingCauseInRoom (around : Neighbours) (row : NewRow) : Bool :=
  match jsonbGetText row.payload "type" with
  | some type =>
    if ["message_posted", "plan_opened", "session_opened", "session_signaled"].contains type then
      match jsonbGetText row.payload "causeMessageId" with
      | none => true
      | some cause => match uuid cause with
        | none => false
        | some message => around.hasMessage row.roomId message
    else true
  | none => true

/-- The `jsonb` array that `atrium_receipt_window` builds. -/
def windowJson (window : List ProvenanceMessage) : Json :=
  .array (window.map fun message => .object
    [("id", .string message.id), ("authorId", .string message.authorId),
      ("body", .string message.body)])

/-- The row an insert leaves behind: `room_seq` and `trusted_messages` are derived, `seq` comes from
the sequence. -/
def insertedRow (around : Neighbours) (rows : List CoreEventRow) (seq : Nat) (row : NewRow) :
    CoreEventRow :=
  { row with
    seq := seq
    roomSeq := nextRoomSeq rows row.roomId
    trustedMessages := (around.receiptWindow row.roomId row.actorKind row.payload).map windowJson }

/-- Whether a row gets past the triggers, the constraints and the unique index on `id`. -/
def admits (around : Neighbours) (rows : List CoreEventRow) (row : NewRow) : Bool :=
  actorAuthorized around row && subjectRoomMatches rows row && orderGate rows row &&
    routingCauseInRoom around row && checks row && rows.all fun held => held.id != row.id

/-- The contents `core_events` can have: rows inserted one after the other, by any writer, under the
ledger lock. The sequence starts at 1, only grows, and may skip numbers. -/
inductive Inserted : List CoreEventRow → Prop
  | empty : Inserted []
  | insert {rows : List CoreEventRow} (around : Neighbours) (seq : Nat) (row : NewRow) :
      Inserted rows → 0 < seq → (∀ held ∈ rows, held.seq < seq) → admits around rows row = true →
      Inserted (rows ++ [insertedRow around rows seq row])

end Server
