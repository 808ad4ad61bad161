import AtriumVerified.Lib.Drafts
import AtriumVerified.Core.Reduce

/-!
# The handlers on the draft

The handlers of `packages/core/src/reduce.ts` as they are written there: each changes the draft state
in place, one assignment after the other, and returns early after it has recorded a refusal. Nothing
takes an assignment back. The checks are those of the handlers in `Core.Reduce`.
-/

namespace Core

open Checked Js
open CoreState (fail)

abbrev Handler (α : Type) : Type := Draft CoreState TypeError α

/-- A check of the handler of an event: a refusal goes through `fail`. -/
def ask {α : Type} (eventId : Id) (check : CoreState → Except Stop α) : Handler α :=
  Draft.ask (fun reason state => fail state eventId reason) TypeError.mk check

def assign (change : CoreState → CoreState) : Handler Unit := Draft.write change

def assignProposal (id : Id) (change : ProposalRecord → ProposalRecord) : Handler Unit :=
  assign fun state =>
    match state.proposal? id with
    | none => state
    | some record => state.setProposal id (change record)

def assignObject (id : Id) (change : ObjectRecord → ObjectRecord) : Handler Unit :=
  assign fun state =>
    match state.object? id with
    | none => state
    | some record => state.setObject id (change record)

variable [Unicode]

namespace InPlace

/-! ## Proposals -/

def applyProposalRecorded (eventId : Id) (proposal : Proposal) (actor : Actor) : Handler Unit := do
  let id := proposal.stored.id
  ask eventId fun state =>
    refuseIf (state.proposals.get id != .absent) s!"proposal \"{id}\" already recorded"
  if proposal.status ≠ .proposed then
    assign fun state => fail state eventId
      s!"proposal \"{id}\" was recorded with status \"{proposal.status.name}\" — forced to \"proposed\"; only an acceptance or rejection event may move a proposal"
  assign fun state => state.setProposal id {
    proposal := proposal.stored
    stagedBy := actor
    status := .proposed
    acceptedObjectId := none
    rejectedReason := none
    supersededByProposalId := none
    supersededReason := none }

def applyProposalRejected (eventId proposalId : Id) (reason : Option String) (actor : Actor) :
    Handler Unit := do
  let _ ← ask eventId fun state => Core.applyProposalRejected state proposalId reason actor
  assignProposal proposalId fun record => { record with status := .rejected }
  assignProposal proposalId fun record => { record with rejectedReason := reason }

def applyProposalSuperseded (eventId proposalId : Id) (byId : Option Id) (reason : Option String)
    (actor : Actor) : Handler Unit := do
  let _ ← ask eventId fun state => Core.applyProposalSuperseded state proposalId byId reason actor
  assignProposal proposalId fun record => { record with status := .superseded }
  assignProposal proposalId fun record => { record with supersededByProposalId := byId }
  assignProposal proposalId fun record => { record with supersededReason := reason }

/-! ## Objects -/

def applyObjectAccepted (eventId : Id) (at_ : Timestamp) (object : AcceptedObject) (actor : Actor)
    (messages : Option (List ProvenanceMessage)) : Handler Unit := do
  let proposal ← ask eventId fun state => checkAcceptance state object actor messages
  assign fun state => state.setObject object.id (freshRecord object at_ actor)
  match object.provenance.proposalId, proposal with
  | some proposalId, some _ => do
    assignProposal proposalId fun record => { record with status := .accepted }
    assignProposal proposalId fun record => { record with acceptedObjectId := some object.id }
  | _, _ => pure ()

def afterCommit (objectId : Id) (at_ : Timestamp) (plan : CorrectionPlan) : Handler Unit :=
  match plan.afterCommit with
  | .nothing => pure ()
  | .releaseSupersessions => assign fun state => releaseSupersessions state plan.object.id at_
  | .reapplySupersessions => assign fun state => reapplySupersessions state plan.object.id at_
  | .keepAnswers answers => assignObject objectId fun record => { record with
      reopenedFromAnswers :=
        answers.foldl (fun held id => if held.contains id then held else held ++ [id])
          record.reopenedFromAnswers }

def commitPlan (eventId : Id) (correction : ObjectCorrected) (at_ : Timestamp)
    (record : ObjectRecord) (actor : Actor) (plan : CorrectionPlan) : Handler Unit := do
  let id := correction.objectId
  assign fun state => { state with corrections := state.corrections ++
    [correctionRecord eventId correction at_ record actor plan] }
  assignObject id fun record => { record with object := plan.object }
  assignObject id fun record =>
    { record with retractedAt := plan.retractedAt.getD record.retractedAt }
  assignObject id fun record => { record with updatedAt := at_ }
  assignObject id fun record => { record with revision := record.revision + 1 }
  assignObject id fun record => { record with
    humanTouchedAt :=
      if record.humanTouchedAt.isNone && isHuman actor then some at_ else record.humanTouchedAt }
  afterCommit id at_ plan

def applyObjectCorrected (eventId : Id) (at_ : Timestamp) (correction : ObjectCorrected)
    (actor : Actor) : Handler Unit := do
  let slot ← ask eventId fun state => .ok (state.objects.get correction.objectId)
  ask eventId fun _ => refuseAbsent slot s!"unknown object \"{correction.objectId}\""
  let record ← ask eventId fun _ => stored slot "type"
  let verifying := (match lookupField correction.patch "verification" with
      | some (.string "verified") => true
      | _ => false) &&
    (record.object.type == .claim || correction.toType == some .claim)
  ask eventId fun _ => refuseIf (!isHuman actor)
    (humanOnlyRefusal (if verifying then .claimVerification else .correction) actor
      s!"object \"{correction.objectId}\"" none)
  match ← ask eventId fun state => planCorrection state correction at_ record with
  | .noop reason => assign fun state => fail state eventId reason
  | .plan plan => do
    let committed ← ask eventId fun state => checkPlan state correction record actor plan
    commitPlan eventId correction at_ record actor committed

/-! ## Relations -/

/-- What `applyRelationAdded` assigns to the target of a `supersedes` edge. -/
def assignSuperseded (targetId fromId : Id) (at_ : Timestamp) : Handler Unit := do
  assignObject targetId fun record => { record with supersededById := some fromId }
  assignObject targetId fun record => { record with updatedAt := at_ }
  assignObject targetId fun record =>
    match record.object.payload with
    | .decision payload => { record with object := { record.object with
        payload := .decision { payload with status := .superseded }, updatedAt := at_ } }
    | _ => record

/-- What `applyRelationAdded` assigns to the question an `answers` edge comes from. -/
def assignAnswered (fromId : Id) (payload : OpenQuestionPayload) (at_ : Timestamp) :
    Handler Unit := do
  assignObject fromId fun record => { record with object := { record.object with
    payload := .openQuestion { payload with status := .answered }, updatedAt := at_ } }
  assignObject fromId fun record => { record with updatedAt := at_ }

def applyRelationAdded (eventId : Id) (at_ : Timestamp) (relation : Relation) (actor : Actor) :
    Handler Unit := do
  let ends ← ask eventId fun state => checkRelation state relation actor
  assign fun state => { state with relations := state.relations ++ [relation] }
  match relation.kind, ends.target with
  | .supersedes, some (targetId, _) => assignSuperseded targetId relation.fromObjectId at_
  | .answers, _ =>
    match ends.source.object.payload with
    | .openQuestion payload => assignAnswered relation.fromObjectId payload at_
    | _ => pure ()
  | _, _ => pure ()

/-! ## Consuming an event -/

def dispatch (entry : AuthoredEvent) : Handler Unit :=
  let event := entry.event
  let actor := entry.trusted.actor
  match event.body with
  | .proposalRecorded proposal => applyProposalRecorded event.id proposal actor
  | .proposalRejected proposalId reason => applyProposalRejected event.id proposalId reason actor
  | .proposalSuperseded proposalId byId reason =>
    applyProposalSuperseded event.id proposalId byId reason actor
  | .objectAccepted object =>
    applyObjectAccepted event.id event.at_ object actor entry.trusted.messages
  | .objectCorrected correction => applyObjectCorrected event.id event.at_ correction actor
  | .relationAdded relation => applyRelationAdded event.id event.at_ relation actor

/-- `consume`: the position moves on whatever draft the handler left, whether it applied or not. -/
def consume (draft : CoreState) (entry : AuthoredEvent) :
    Except TypeError (EventOutcome × CoreState) :=
  let event := entry.event
  let actor := entry.trusted.actor
  let issuesBefore := draft.issues.length
  match resolveRoomId draft event with
  | .error (.raised reading) => .error ⟨reading⟩
  | .error (.refused reason) => .error ⟨reason⟩
  | .ok roomId =>
    match dispatch entry draft with
    | .error e => .error e
    | .ok (applied, left) =>
      let moved := advance left roomId event
      let explained :=
        if applied.isNone && moved.issues.length == issuesBefore then
          fail moved event.id s!"event \"{event.id}\" did not apply and recorded no reason"
        else moved
      let issues := explained.issues.drop issuesBefore
      .ok (if issues.isEmpty then .applied event actor else .appliedWithIssue event actor issues,
        explained)

def appendEvent {Raw : Type} (schema : EventSchema Raw) (state : CoreState) (row : Row Raw) :
    Except TypeError (EventOutcome × CoreState) :=
  match schema.safeParse row.event with
  | .error issues => .ok (.malformed row.trusted.actor (parseFailureDetail issues), state)
  | .ok event =>
    match rejectionFor state event with
    | some (reason, detail) => .ok (.rejected event row.trusted.actor reason detail, state)
    | none => consume state ⟨event, row.trusted⟩

/-- The handler of the event refuses it, whatever draft it leaves by then. -/
def Refuses (state : CoreState) (entry : AuthoredEvent) : Prop :=
  ∃ left, dispatch entry state = .ok (none, left)

end InPlace

/-! ## Events that change no fact -/

def ChangesNothing (state : CoreState) (entry : AuthoredEvent) : Prop :=
  ∃ correction record reason, entry.event.body = .objectCorrected correction ∧
    state.object? correction.objectId = some record ∧
    planCorrection state correction entry.event.at_ record = .ok (.noop reason)

/-- Only the position in the log moved, to the event, and at least one issue was recorded. -/
structure OnlyPositionMoved (state next : CoreState) (event : CoreEvent) : Prop where
  objects : next.objects = state.objects
  relations : next.relations = state.relations
  proposals : next.proposals = state.proposals
  corrections : next.corrections = state.corrections
  cursor : next.cursor = some (cursorOf event)
  /-- The watermark of the event's room, when it has one. -/
  watermarks : ∃ roomId, resolveRoomId state event = .ok roomId ∧
    next.watermarks = match roomId with
      | none => state.watermarks
      | some room => state.watermarks.set room (cursorOf event)
  consumedEventIds : next.consumedEventIds = state.consumedEventIds ++ [event.id]
  issues : ∃ issue more, next.issues = state.issues ++ issue :: more

end Core
