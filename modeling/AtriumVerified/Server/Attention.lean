import AtriumVerified.Core.Attention
import AtriumVerified.Server.RoomEvents
import AtriumVerified.Server.Clock

/-!
# The attention table and its writers

The model of `apps/server/src/attention-projection.ts` and of the branches of
`apps/server/src/projections.ts` that write `attention_items`. A worker reads the rows of a room,
computes, and writes all of them back in a later transaction, while commands write the same rows in
transactions of their own. A transaction keeps the rows it wrote locked until it commits, so it is
one step here; a constraint that reaches outside the table can only make a step fail.
-/

namespace Server

open Core Js Postgres

/-! ## Rows -/

/-- The columns of `attention_items_user_subject_class_key`. Both ids are values of type `uuid`. -/
structure AttentionKey where
  userId : Uuid
  subjectKind : AttentionSubjectKind
  subjectId : Uuid
  cls : AttentionClass
  userId_text : uuid (uuidText userId) = some userId
  subjectId_text : uuid (uuidText subjectId) = some subjectId
  deriving DecidableEq

/-- The key of a row whose ids are written as texts. -/
def attentionKey (userId : Id) (subjectKind : AttentionSubjectKind) (subjectId : Id)
    (cls : AttentionClass) : Option AttentionKey :=
  match hu : uuid userId, hs : uuid subjectId with
  | some user, some subject =>
    some ⟨user, subjectKind, subject, cls, uuid_uuidText hu, uuid_uuidText hs⟩
  | _, _ => none

/-- A row of `attention_items`, without the columns of its unique key. -/
structure AttentionItemRow where
  id : Uuid
  roomId : Uuid
  reason : RationaleReason
  status : AttentionStatus
  createdAt : Int
  resolvedAt : Option Int
  deriving DecidableEq, Repr

/-- `attention_items`. -/
abbrev AttentionTable := Table AttentionKey AttentionItemRow

def AttentionItemRow.Settled (row : AttentionItemRow) : Prop := row.status ≠ .pending

/-! ## Commands -/

def raiseAttention (table : AttentionTable) (fresh : Uuid) (roomId userId : Id)
    (subjectKind : AttentionSubjectKind) (subjectId : Id) (cls : AttentionClass)
    (reason : RationaleReason) (at_ : Timestamp) : Option AttentionTable := do
  let key ← attentionKey userId subjectKind subjectId cls
  let room ← uuid roomId
  let createdAt ← date at_
  return table.insertIfAbsent key ⟨fresh, room, reason, .pending, createdAt, none⟩

/-- The reference of `projectMessagePosted` to somebody. -/
def projectMention (table : AttentionTable) (fresh : Uuid) (roomId targetId messageId : Id)
    (body : String) (at_ : Timestamp) : Option AttentionTable :=
  raiseAttention table fresh roomId targetId .message messageId .mention (.mention body) at_

def projectSignalRaised (table : AttentionTable) (fresh : Uuid) (roomId targetUserId : Id)
    (subjectKind : AttentionSubjectKind) (subjectId : Id) (cls : AttentionClass)
    (reason : RationaleReason) (at_ : Timestamp) : Option AttentionTable :=
  raiseAttention table fresh roomId targetUserId subjectKind subjectId cls reason at_

/-- What a person may say about an item: `z.enum(['resolved', 'dismissed'])`. -/
inductive Settlement where
  | resolved
  | dismissed
  deriving DecidableEq, Repr

def Settlement.status : Settlement → AttentionStatus
  | .resolved => .resolved
  | .dismissed => .dismissed

/-- The rows the update of `projectAttentionResolved` selects. -/
def ownedItem (attentionId room owner : Uuid) (key : AttentionKey) (row : AttentionItemRow) : Bool :=
  row.id == attentionId && row.roomId == room && key.userId == owner

/-- `projectAttentionResolved`: an actor without an identity owns no item, and an update that
touches no row aborts the append. -/
def projectAttentionResolved (table : AttentionTable) (actor : Actor) (roomId attentionId : Id)
    (settlement : Settlement) (at_ : Timestamp) : Option AttentionTable := do
  let owner ← actorUserId actor
  let owner ← uuid owner
  let id ← uuid attentionId
  let room ← uuid roomId
  let resolvedAt ← date at_
  if (table.selectWhere (ownedItem id room owner)).entries.isEmpty then none
  else some (table.updateWhere (ownedItem id room owner) fun row => { row with
    status := settlement.status
    resolvedAt := some resolvedAt })

/-- The rows that the answer of an object settles. -/
def pendingAbout (room subject : Uuid) (key : AttentionKey) (row : AttentionItemRow) : Bool :=
  row.roomId == room && key.subjectKind == .object && key.subjectId == subject &&
    row.status == .pending

/-- The update of `projectRelationAdded` for an `answers` edge. -/
def projectAnswered (table : AttentionTable) (roomId fromObjectId : Id) (at_ : Timestamp) :
    Option AttentionTable := do
  let room ← uuid roomId
  let subject ← uuid fromObjectId
  let resolvedAt ← date at_
  return table.updateWhere (pendingAbout room subject) fun row => { row with
    status := .resolved
    resolvedAt := some resolvedAt }

/-! ## The worker -/

/-- `attentionItemId` of a row's columns. -/
def AttentionKey.itemId (key : AttentionKey) : Id :=
  attentionItemId (uuidText key.userId) key.subjectKind (uuidText key.subjectId) key.cls

def storedItem (key : AttentionKey) (row : AttentionItemRow) : AttentionItem where
  id := key.itemId
  roomId := uuidText row.roomId
  userId := uuidText key.userId
  objectId := uuidText key.subjectId
  subjectKind := key.subjectKind
  cls := key.cls
  reason := row.reason
  status := row.status
  createdAt := toISOString row.createdAt

/-- `SELECT * FROM attention_items WHERE room_id = …`. -/
def storedRows (table : AttentionTable) (roomId : Id) : Option AttentionTable := do
  let room ← uuid roomId
  return table.selectWhere fun _ row => row.roomId == room

def storedItems (rows : AttentionTable) : List AttentionItem :=
  rows.entries.map fun entry => storedItem entry.1 entry.2

def itemKey (item : AttentionItem) : Option AttentionKey :=
  attentionKey item.userId item.subjectKind item.objectId item.cls

/-- `item.status === 'pending' ? null : new Date(input.now)`. -/
def resolvedDate (status : AttentionStatus) (now : Timestamp) : Option (Option Int) :=
  if status = .pending then some none else (date now).map some

def writeItem (now : Timestamp) (fresh : AttentionKey → Uuid) (table : AttentionTable)
    (item : AttentionItem) : Option AttentionTable := do
  let key ← itemKey item
  let room ← uuid item.roomId
  let createdAt ← date item.createdAt
  let resolvedAt ← resolvedDate item.status now
  return table.upsertRow key ⟨fresh key, room, item.reason, item.status, createdAt, resolvedAt⟩
    fun row => { row with reason := item.reason, status := item.status, resolvedAt }

/-- The transaction of `reconcileStoredAttention`, given the rows that were read before it. -/
def writeReconciled (stored : AttentionTable) (projection : AttentionProjection) (now : Timestamp)
    (fresh : AttentionKey → Uuid) (table : AttentionTable) : Option AttentionTable :=
  (reconcileAttention (storedItems stored) projection).foldlM
    (fun table item => writeItem now fresh table item.toAttentionItem) table

/-! ## Runs -/

/-- The table, and what every worker that has read and not yet written has read. -/
structure AttentionSystem where
  table : AttentionTable
  reading : List AttentionTable

def AttentionSystem.initial : AttentionSystem := ⟨∅, []⟩

inductive AttentionStep where
  /-- `reconcileStoredAttention` reads the rows of a room. -/
  | read (roomId : Id)
  /-- A worker that has read writes back. What it computed and the ids of new rows are arbitrary. -/
  | write (worker : Nat) (projection : AttentionProjection) (now : Timestamp)
      (fresh : AttentionKey → Uuid)
  /-- A worker that has read gives up. -/
  | abandon (worker : Nat)
  | mentioned (fresh : Uuid) (roomId targetId messageId : Id) (body : String) (at_ : Timestamp)
  | signalRaised (fresh : Uuid) (roomId targetUserId : Id) (subjectKind : AttentionSubjectKind)
      (subjectId : Id) (cls : AttentionClass) (reason : RationaleReason) (at_ : Timestamp)
  | attentionResolved (actor : Actor) (roomId attentionId : Id) (settlement : Settlement)
      (at_ : Timestamp)
  | answered (roomId fromObjectId : Id) (at_ : Timestamp)

/-- One step; `none` is a transaction that was rolled back. -/
def AttentionSystem.step (system : AttentionSystem) : AttentionStep → Option AttentionSystem
  | .read roomId => do
    let stored ← storedRows system.table roomId
    return { system with reading := system.reading ++ [stored] }
  | .write worker projection now fresh => do
    let stored ← system.reading[worker]?
    let table ← writeReconciled stored projection now fresh system.table
    return ⟨table, system.reading.eraseIdx worker⟩
  | .abandon worker => some { system with reading := system.reading.eraseIdx worker }
  | .mentioned fresh roomId targetId messageId body at_ => do
    let table ← projectMention system.table fresh roomId targetId messageId body at_
    return { system with table }
  | .signalRaised fresh roomId targetUserId subjectKind subjectId cls reason at_ => do
    let table ← projectSignalRaised system.table fresh roomId targetUserId subjectKind subjectId cls
      reason at_
    return { system with table }
  | .attentionResolved actor roomId attentionId settlement at_ => do
    let table ← projectAttentionResolved system.table actor roomId attentionId settlement at_
    return { system with table }
  | .answered roomId fromObjectId at_ => do
    let table ← projectAnswered system.table roomId fromObjectId at_
    return { system with table }

/-- The systems reached from another one, by steps that were all `allowed` where they were taken. -/
inductive AttentionRun (allowed : AttentionSystem → AttentionStep → Prop) (start : AttentionSystem) :
    AttentionSystem → Prop
  | refl : AttentionRun allowed start start
  | step {system next : AttentionSystem} (taken : AttentionStep) :
      AttentionRun allowed start system → allowed system taken → system.step taken = some next →
      AttentionRun allowed start next

/-! ## What a settled row is owed -/

def AttentionItemRow.Says (later row : AttentionItemRow) : Prop :=
  later.id = row.id ∧ later.status = row.status ∧ later.resolvedAt = row.resolvedAt

/-- Every settled row of a table is there afterwards, with its id, its status and its date. -/
def KeepsSettled (table next : AttentionTable) : Prop :=
  ∀ key row, table.lookup key = some row → row.Settled →
    ∃ later, next.lookup key = some later ∧ later.Says row

/-- A worker writes a row when it has read one under its key or computed an item for it. -/
def Writes (stored : AttentionTable) (projection : AttentionProjection) (key : AttentionKey) : Prop :=
  (∃ seen, stored.lookup key = some seen) ∨
    ∃ item ∈ projection.items, itemKey item.toAttentionItem = some key

/-- Each settled row that a worker writes was read with the status it has, was settled at the
instant of the write, and is computed under the id it is stored under. -/
def WriteUndisturbed (table stored : AttentionTable) (projection : AttentionProjection)
    (now : Timestamp) : Prop :=
  ∀ key row, table.lookup key = some row → row.Settled → Writes stored projection key →
    (∃ seen, stored.lookup key = some seen ∧ seen.status = row.status) ∧
      row.resolvedAt = date now ∧
      ∀ item ∈ projection.items, itemKey item.toAttentionItem = some key → item.id = key.itemId

/-- A settled row that its owner settles has that status and that date already. -/
def ResolveUndisturbed (table : AttentionTable) (actor : Actor) (roomId attentionId : Id)
    (settlement : Settlement) (at_ : Timestamp) : Prop :=
  ∀ owner id room, (actorUserId actor).bind uuid = some owner → uuid attentionId = some id →
    uuid roomId = some room → ∀ key row, table.lookup key = some row → row.Settled →
      ownedItem id room owner key row = true →
      row.status = settlement.status ∧ row.resolvedAt = date at_

def Undisturbed (system : AttentionSystem) : AttentionStep → Prop
  | .write worker projection now _ => ∀ stored, system.reading[worker]? = some stored →
      WriteUndisturbed system.table stored projection now
  | .attentionResolved actor roomId attentionId settlement at_ =>
      ResolveUndisturbed system.table actor roomId attentionId settlement at_
  | _ => True

end Server
