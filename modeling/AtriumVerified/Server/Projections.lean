import AtriumVerified.Server.Clock
import AtriumVerified.Server.RoomEvents

/-!
# The read model

The model of `apps/server/src/projections.ts`: the tables that are rebuilt from the ledger one event
at a time. A projection that fails takes the append down with it.
-/

namespace Server

open Core Js Postgres

/-! ## Tables -/

def date? : Option Timestamp → Option (Option Int)
  | none => some none
  | some at_ => (date at_).map some

/-- A nullable `uuid` column. -/
def uuid? : Option Id → Option (Option Uuid)
  | none => some none
  | some id => (uuid id).map some

/-- A row of `accepted_objects`, without its key. -/
structure ObjectRow where
  roomId : Uuid
  type : AcceptedObjectType
  payload : Payload
  objectiveId : Option Uuid
  proposalId : Option Uuid
  revision : Nat
  retractedAt : Option Int
  supersededById : Option Uuid
  acceptedBy : Option Uuid
  acceptedByKind : String
  humanTouchedAt : Option Int
  createdAt : Int
  updatedAt : Int
  deriving DecidableEq, Repr

/-- A row of `proposals`, without its key. -/
structure ProposalRow where
  roomId : Uuid
  interpretationId : Option Uuid
  type : AcceptedObjectType
  payload : Payload
  confidence : Number
  proposer : Proposer
  /-- `staged_by_kind` and `staged_by_id`. -/
  stagedBy : String × Option String
  quote : Option String
  status : ProposalStatus
  sessionId : Option Uuid
  decidedBy : Option Uuid
  decidedAt : Option Int
  rejectedReason : Option String
  createdAt : Int
  deriving DecidableEq, Repr

/-- A row of `corrections`. -/
structure CorrectionRow where
  roomId : Uuid
  objectId : Uuid
  action : CorrectionAction
  before : CorrectionView
  after : CorrectionView
  byUserId : Option Uuid
  note : Option String
  eventId : Id
  deriving DecidableEq, Repr

/-- `targetColumns`: where an edge points, one column for each kind of target. -/
structure TargetColumns where
  toObjectId : Option Uuid
  toMessageId : Option Uuid
  toUrl : Option String
  toFileKey : Option String
  deriving DecidableEq, Repr

/-- A row of `relations`, without its key. -/
structure RelationRow where
  roomId : Uuid
  kind : RelationKind
  fromObjectId : Uuid
  target : TargetColumns
  note : Option String
  createdBy : Option Uuid
  createdAt : Int
  deriving DecidableEq, Repr

/-- The columns of `attention_items` that a projection of a core event reads or writes. -/
structure AttentionRow where
  roomId : Uuid
  subjectKind : String
  subjectId : Uuid
  status : String
  resolvedAt : Option Int
  deriving DecidableEq, Repr

/-- The tables core events are projected into. A constraint that reaches outside them can only make
an append fail that is described here as succeeding. -/
structure ReadModel where
  acceptedObjects : Table Uuid ObjectRow
  proposals : Table Uuid ProposalRow
  objectRelations : Table Uuid RelationRow
  /-- Keyed by the id of the event. -/
  corrections : Table Id CorrectionRow
  /-- Object, message and room. -/
  objectSources : Table (Uuid × Uuid) Uuid
  /-- Proposal, message and room. -/
  proposalSources : Table (Uuid × Uuid) Uuid
  attentionItems : Table Uuid AttentionRow

def emptyModel : ReadModel := ⟨∅, ∅, ∅, ∅, ∅, ∅, ∅⟩

structure ProjectionContext where
  roomId : Id
  actor : Actor
  before : CoreState
  after : CoreState

/-! ## Actors -/

def humanId : Actor → Option Id
  | .human userId => some userId
  | _ => none

def actorId : Actor → Option String
  | .human userId => some userId
  | .agent userId => some userId
  | .model model => some model
  | .system => none

/-! ## Writing rows -/

def insertSources (room subject : Uuid) :
    Table (Uuid × Uuid) Uuid → List Id → Option (Table (Uuid × Uuid) Uuid)
  | table, [] => some table
  | table, messageId :: rest => do
    let message ← uuid messageId
    let table ← table.insertRow (subject, message) room
    insertSources room subject table rest

/-- The update of one `proposals` row. -/
def updateProposal (model : ReadModel) (roomId proposalId : Id) (change : ProposalRow → ProposalRow) :
    Option ReadModel := do
  let key ← uuid proposalId
  let room ← uuid roomId
  return { model with
    proposals := model.proposals.updateRow key (fun row => row.roomId == room) change }

/-- The update of one `accepted_objects` row. -/
def updateObject (model : ReadModel) (roomId objectId : Id) (change : ObjectRow → ObjectRow) :
    Option ReadModel := do
  let key ← uuid objectId
  let room ← uuid roomId
  return { model with
    acceptedObjects := model.acceptedObjects.updateRow key (fun row => row.roomId == room) change }

/-! ## Proposals -/

def proposalRow (room : Uuid) (record : ProposalRecord) (sessionId : Option Id) :
    Option ProposalRow := do
  let proposal := record.proposal
  let interpretationId ← uuid? proposal.interpretationId
  let sessionId ← uuid? sessionId
  let createdAt ← date proposal.createdAt
  return {
    roomId := room
    interpretationId
    type := proposal.type
    payload := proposal.payload
    confidence := proposal.confidence
    proposer := proposal.proposer
    stagedBy := (record.stagedBy.kind, actorId record.stagedBy)
    quote := proposal.quote
    status := record.status
    sessionId
    decidedBy := none
    decidedAt := none
    rejectedReason := none
    createdAt }

/-- The writes of `projectProposalRecorded`. -/
def insertProposal (model : ReadModel) (roomId id : Id) (record : ProposalRecord)
    (sessionId : Option Id) : Option ReadModel := do
  let key ← uuid id
  let room ← uuid roomId
  let row ← proposalRow room record sessionId
  let proposals ← model.proposals.insertRow key row
  let proposalSources ← insertSources room key model.proposalSources record.proposal.provenance
  return { model with proposals, proposalSources }

def projectProposalRecorded (context : ProjectionContext) (model : ReadModel) (id : Id)
    (sessionId : Option Id) : Option ReadModel :=
  match context.after.proposals.get id, context.before.proposals.get id with
  | .absent, _ | _, .own _ | _, .inherited => some model
  | .own record, .absent => insertProposal model context.roomId id record sessionId
  | .inherited, .absent => none

def projectProposalRejected (context : ProjectionContext) (model : ReadModel) (at_ : Timestamp)
    (proposalId : Id) : Option ReadModel :=
  match context.after.proposal? proposalId with
  | none => some model
  | some record =>
    if record.status ≠ .rejected then some model
    else if (context.before.proposal? proposalId).map ProposalRecord.status = some .rejected then
      some model
    else do
      let decidedBy ← uuid? (humanId context.actor)
      let decidedAt ← date at_
      updateProposal model context.roomId proposalId fun row => { row with
        status := .rejected
        rejectedReason := record.rejectedReason
        decidedBy
        decidedAt := some decidedAt }

def projectProposalSuperseded (context : ProjectionContext) (model : ReadModel) (proposalId : Id) :
    Option ReadModel :=
  match context.after.proposal? proposalId with
  | none => some model
  | some record =>
    if record.status ≠ .superseded then some model
    else if (context.before.proposal? proposalId).map ProposalRecord.status = some .superseded then
      some model
    else updateProposal model context.roomId proposalId fun row => { row with status := .superseded }

/-! ## Objects -/

def objectRow (room : Uuid) (record : ObjectRecord) (actor : Actor) : Option ObjectRow := do
  let object := record.object
  let objectiveId ← uuid? object.objectiveId
  let proposalId ← uuid? object.provenance.proposalId
  let acceptedBy ← uuid? (humanId actor)
  let humanTouchedAt ← date? record.humanTouchedAt
  let createdAt ← date object.createdAt
  let updatedAt ← date record.updatedAt
  return {
    roomId := room
    type := object.type
    payload := object.payload
    objectiveId
    proposalId
    revision := record.revision
    retractedAt := none
    supersededById := none
    acceptedBy
    acceptedByKind := record.acceptedBy.kind
    humanTouchedAt
    createdAt
    updatedAt }

def settleProposal (context : ProjectionContext) (model : ReadModel) (at_ : Timestamp) :
    Option Id → Option ReadModel
  | none => some model
  | some proposalId => do
    let decidedBy ← uuid? (humanId context.actor)
    let decidedAt ← date at_
    updateProposal model context.roomId proposalId fun row => { row with
      status := .accepted
      decidedBy
      decidedAt := some decidedAt }

/-- The writes of `projectObjectAccepted`. -/
def insertObject (context : ProjectionContext) (model : ReadModel) (at_ : Timestamp) (id : Id)
    (record : ObjectRecord) : Option ReadModel := do
  let key ← uuid id
  let room ← uuid context.roomId
  let row ← objectRow room record context.actor
  let acceptedObjects ← model.acceptedObjects.insertRow key row
  let objectSources ← insertSources room key model.objectSources record.object.provenance.messageIds
  settleProposal context { model with acceptedObjects, objectSources } at_
    record.object.provenance.proposalId

def projectObjectAccepted (context : ProjectionContext) (model : ReadModel) (at_ : Timestamp)
    (id : Id) : Option ReadModel :=
  match context.after.objects.get id, context.before.objects.get id with
  | .absent, _ | _, .own _ | _, .inherited => some model
  | .own record, .absent => insertObject context model at_ id record
  | .inherited, .absent => none

/-- The writes of `projectObjectCorrected`. -/
def writeCorrection (context : ProjectionContext) (model : ReadModel) (eventId objectId : Id)
    (correction : CorrectionRecord) (record : ObjectRecord) : Option ReadModel := do
  let retractedAt ← date? record.retractedAt
  let supersededById ← uuid? record.supersededById
  let humanTouchedAt ← date? record.humanTouchedAt
  let updatedAt ← date record.updatedAt
  let model ← updateObject model context.roomId objectId fun row => { row with
    type := record.object.type
    payload := record.object.payload
    revision := record.revision
    retractedAt
    supersededById
    acceptedByKind := record.acceptedBy.kind
    humanTouchedAt
    updatedAt }
  let room ← uuid context.roomId
  let object ← uuid objectId
  let byUserId ← uuid? (humanId context.actor)
  let corrections ← model.corrections.insertRow eventId {
    roomId := room
    objectId := object
    action := correction.action
    before := correction.before
    after := correction.after
    byUserId
    note := correction.note
    eventId }
  return { model with corrections }

def projectObjectCorrected (context : ProjectionContext) (model : ReadModel) (eventId objectId : Id) :
    Option ReadModel :=
  if context.after.corrections.length = context.before.corrections.length then some model
  else match context.after.corrections.getLast? with
    | none => some model
    | some correction =>
      if correction.eventId ≠ eventId then some model
      else match context.after.objects.get objectId with
        | .absent => some model
        | .inherited => none
        | .own record => writeCorrection context model eventId objectId correction record

/-! ## Relations -/

def targetColumns : RelationTarget → Option TargetColumns
  | .object objectId => (uuid objectId).map fun id => ⟨some id, none, none, none⟩
  | .message messageId => (uuid messageId).map fun id => ⟨none, some id, none, none⟩
  | .url url => some ⟨none, none, some url, none⟩
  | .file fileKey => some ⟨none, none, none, some fileKey⟩

def syncObjectRow (model : ReadModel) (roomId : Id) (state : CoreState) (objectId : Id) :
    Option ReadModel :=
  match state.objects.get objectId with
  | .absent => some model
  | .inherited => none
  | .own record => do
    let retractedAt ← date? record.retractedAt
    let supersededById ← uuid? record.supersededById
    let updatedAt ← date record.updatedAt
    updateObject model roomId objectId fun row => { row with
      type := record.object.type
      payload := record.object.payload
      revision := record.revision
      retractedAt
      supersededById
      updatedAt }

/-- `syncObjectRow` for the target of an edge, when it is an object. -/
def syncTarget (model : ReadModel) (roomId : Id) (state : CoreState) (target : RelationTarget) :
    Option ReadModel :=
  match target.objectId? with
  | some objectId => syncObjectRow model roomId state objectId
  | none => some model

def resolveAttention (model : ReadModel) (roomId : Id) (at_ : Timestamp) (relation : Relation) :
    Option ReadModel :=
  if relation.kind ≠ .answers then some model
  else do
    let room ← uuid roomId
    let subject ← uuid relation.fromObjectId
    let resolvedAt ← date at_
    let pending (row : AttentionRow) : Bool :=
      row.roomId == room && row.subjectKind == "object" && row.subjectId == subject &&
        row.status == "pending"
    return { model with attentionItems := model.attentionItems.keys.foldl (fun table key =>
      table.updateRow key pending fun row => { row with
        status := "resolved", resolvedAt := some resolvedAt }) model.attentionItems }

def relationRow (room : Uuid) (relation : Relation) (actor : Actor) : Option RelationRow := do
  let fromObjectId ← uuid relation.fromObjectId
  let target ← targetColumns relation.target
  let createdBy ← uuid? (humanId actor)
  let createdAt ← date relation.createdAt
  return {
    roomId := room
    kind := relation.kind
    fromObjectId
    target
    note := relation.note
    createdBy
    createdAt }

/-- `relations_edge_key`: between two objects there is one edge of a kind. -/
def edgeTaken (table : Table Uuid RelationRow) (row : RelationRow) : Bool :=
  row.target.toObjectId.isSome && table.entries.any fun entry =>
    entry.2.fromObjectId == row.fromObjectId && entry.2.kind == row.kind &&
      entry.2.target.toObjectId == row.target.toObjectId

/-- The insert into `relations`. -/
def insertEdge (table : Table Uuid RelationRow) (key : Uuid) (row : RelationRow) :
    Option (Table Uuid RelationRow) :=
  if edgeTaken table row then none else table.insertRow key row

/-- The writes of `projectRelationAdded`. -/
def insertRelation (context : ProjectionContext) (model : ReadModel) (at_ : Timestamp)
    (relation : Relation) : Option ReadModel := do
  let key ← uuid relation.id
  let room ← uuid context.roomId
  let row ← relationRow room relation context.actor
  let objectRelations ← insertEdge model.objectRelations key row
  let model ← syncObjectRow { model with objectRelations } context.roomId context.after
    relation.fromObjectId
  let model ← syncTarget model context.roomId context.after relation.target
  resolveAttention model context.roomId at_ relation

def projectRelationAdded (context : ProjectionContext) (model : ReadModel) (at_ : Timestamp)
    (relation : Relation) : Option ReadModel :=
  let landed := context.after.relations.any fun existing => existing.id == relation.id
  let existed := context.before.relations.any fun existing => existing.id == relation.id
  if !landed || existed then some model
  else insertRelation context model at_ relation

/-- `projectRoomEvent`, for the kinds the reducer folds. -/
def projectRoomEvent (context : ProjectionContext) (model : ReadModel) (event : CoreEvent)
    (sessionId : Option Id) : Option ReadModel :=
  match event.body with
  | .proposalRecorded proposal =>
    projectProposalRecorded context model proposal.stored.id sessionId
  | .proposalRejected proposalId _ =>
    projectProposalRejected context model event.at_ proposalId
  | .proposalSuperseded proposalId _ _ => projectProposalSuperseded context model proposalId
  | .objectAccepted object => projectObjectAccepted context model event.at_ object.id
  | .objectCorrected correction =>
    projectObjectCorrected context model event.id correction.objectId
  | .relationAdded relation => projectRelationAdded context model event.at_ relation

/-! ## Runs -/

/-- The reducer's state and the tables beside it. -/
structure Deployment where
  state : CoreState
  model : ReadModel

/-- Append one core event and project it in the same transaction; a failure of any part leaves
nothing behind. -/
def appendAndProject [Unicode] (deployment : Deployment) (authorized : Id) (entry : AuthoredEvent)
    (sessionId : Option Id) : Option Deployment := do
  let roomId ← (resolveRoomId (.core entry.event sessionId) authorized deployment.state).toOption
  let (outcome, after) ← (step deployment.state entry).toOption
  if wasConsumed outcome then
    let context := ⟨roomId, entry.trusted.actor, deployment.state, after⟩
    let model ← projectRoomEvent context deployment.model entry.event sessionId
    return ⟨after, model⟩
  else none

/-- Append the events of a log one after the other, all authorized for one room. -/
def appendAll [Unicode] (authorized : Id) : List AuthoredEvent → Deployment → Option Deployment
  | [], deployment => some deployment
  | entry :: rest, deployment => do
    let next ← appendAndProject deployment authorized entry none
    appendAll authorized rest next

/-- The deployments reached by appending events one after the other, where every core event
appended was `allowed` in the state it met. The events only the server knows touch no table of
facts; an attention item may change with them. -/
inductive Projected [Unicode] (allowed : CoreState → AuthoredEvent → Prop) : Deployment → Prop
  | start : Projected allowed ⟨emptyState, emptyModel⟩
  | core {deployment next : Deployment} (authorized : Id) (entry : AuthoredEvent)
      (sessionId : Option Id) : Projected allowed deployment → allowed deployment.state entry →
      appendAndProject deployment authorized entry sessionId = some next →
      Projected allowed next
  | server {deployment : Deployment} (attentionItems : Table Uuid AttentionRow) :
      Projected allowed deployment →
      Projected allowed ⟨deployment.state, { deployment.model with attentionItems }⟩

/-! ## Agreement -/

/-- A row of `accepted_objects` says what the record says. -/
structure ObjectAgrees (record : ObjectRecord) (row : ObjectRow) : Prop where
  type : row.type = record.object.type
  payload : row.payload = record.object.payload
  revision : row.revision = record.revision
  retractedAt : date? record.retractedAt = some row.retractedAt
  supersededById : uuid? record.supersededById = some row.supersededById
  acceptedByKind : row.acceptedByKind = record.acceptedBy.kind
  humanTouchedAt : date? record.humanTouchedAt = some row.humanTouchedAt
  updatedAt : date record.updatedAt = some row.updatedAt

/-- A row of `proposals` has the status of the record. -/
def ProposalAgrees (record : ProposalRecord) (row : ProposalRow) : Prop := row.status = record.status

/-- The read model equals the fold: a row for exactly the objects and the proposals of the state,
each of which agrees with its record. -/
def ReadModelAgrees (deployment : Deployment) : Prop :=
  Mirrors uuid ObjectAgrees deployment.state.object?
      (fun key => deployment.model.acceptedObjects.lookup key) ∧
    Mirrors uuid ProposalAgrees deployment.state.proposal?
      (fun key => deployment.model.proposals.lookup key)

end Server
