import AtriumVerified.Server.RoomEvents

/-!
# The receipt window

The model of `atrium_receipt_window` (`packages/db/drizzle/0011`): the messages a non-human
acceptance is checked against, derived by the database from the row itself.
-/

namespace Server

open Core

/-- A row of `messages`, as far as a window reads it. -/
structure MessageRow where
  seq : Nat
  id : Id
  /-- `NULL` once the author was deleted. -/
  authorId : Option Id
  body : String
  deriving DecidableEq, Repr

/-- The object `jsonb_build_object` builds of a message. -/
def MessageRow.provenance (row : MessageRow) : ProvenanceMessage :=
  ⟨row.id, row.authorId.getD "", row.body⟩

/-- The messages of one room, in the room's own order. -/
structure RoomHistory where
  messages : List MessageRow
  ordered : messages.Pairwise fun a b => a.seq < b.seq

/-- What the whole room said, as `laterRevision` takes it. -/
def RoomHistory.provenance (room : RoomHistory) : List ProvenanceMessage :=
  room.messages.map MessageRow.provenance

/-- `c_later_messages_carried`. -/
def laterMessagesCarried : Nat := 201

/-- The two arms of the union: the cited messages, and the next ones after the newest of them. -/
def windowRows (room : RoomHistory) (ids : List Id) : List MessageRow :=
  let cited := room.messages.filter fun row => ids.contains row.id
  let later := match (cited.map MessageRow.seq).max? with
    | none => []
    | some lastCitedSeq =>
      (room.messages.filter fun row => lastCitedSeq < row.seq).take laterMessagesCarried
  cited ++ later

def atriumReceiptWindow (room : RoomHistory) (actor : Actor) (body : EventBody) :
    Option (List ProvenanceMessage) :=
  if actor.kind = "human" then none
  else match body with
    | .objectAccepted object =>
      let ids := object.provenance.messageIds
      if ids.isEmpty then none
      else some (((windowRows room ids).mergeSort fun a b => a.seq ≤ b.seq).map
        MessageRow.provenance)
    | _ => none

/-! ## What the window leaves out -/

/-- The scan found a later message that corrects the statement. -/
def IsRevision (result : LaterRevision) : Prop := ∃ message added, result = .revision message added

section Unread

variable [Unicode] (statement : Text) (citedIds : List Id) (messages : List ProvenanceMessage)

/-- The messages behind the scan floor of the whole room that no window carries, in room order: those
from the floor to the first citation, and the uncited ones between the first and the last citation.
The first cited message is among them when an earlier message bears the statement, because a window
starts with it and the scan starts behind the first message. -/
def unreadMessages : List ProvenanceMessage :=
  let cited (message : ProvenanceMessage) : Bool := citedIds.contains message.id
  match messages.findIdx? cited, lastIndex cited messages with
  | some firstCited, some lastCited =>
    (messages.take (firstCited + 1)).drop (scanFloor statement messages firstCited + 1) ++
      ((messages.take (lastCited + 1)).drop (firstCited + 1)).filter fun message => !cited message
  | _, _ => []

/-- How many messages the scan of the whole room would read. -/
def scanLength : Nat :=
  match messages.findIdx? fun message => citedIds.contains message.id with
  | some firstCited => messages.length - (scanFloor statement messages firstCited + 1)
  | none => 0

/-- The room is too long to scan, or what decides the scan of the unread messages (the first of them
that stops it) is not a revision. -/
def UnreadIsClean : Prop :=
  receiptPolicy.maxLaterMessagesScanned < scanLength statement citedIds messages ∨
    ∀ message added, (unreadMessages statement citedIds messages).findSome?
        (scanMessage statement (routingTokens statement) receiptPolicy) ≠
      some (.revision message added)

end Unread

end Server
