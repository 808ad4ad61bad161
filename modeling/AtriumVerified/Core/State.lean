import AtriumVerified.Lib.PlainObject
import AtriumVerified.Core.Events

/-!
# The reducer's state

The model of `packages/core/src/state.ts`: what is known of every object and proposal, the edges,
the correction log, the recorded refusals, and how far the log was consumed.
-/

namespace Core

open Js (PlainObject)

structure ObjectRecord where
  object : AcceptedObject
  acceptedAt : Timestamp
  updatedAt : Timestamp
  acceptedBy : Actor
  humanTouchedAt : Option Timestamp
  revision : Nat
  retractedAt : Option Timestamp
  supersededById : Option Id
  reopenedFromAnswers : List Id
  deriving DecidableEq, Repr

structure ProposalRecord where
  proposal : StoredProposal
  stagedBy : Actor
  status : ProposalStatus
  acceptedObjectId : Option Id
  rejectedReason : Option String
  supersededByProposalId : Option Id
  supersededReason : Option String
  deriving DecidableEq, Repr

/-- The `before` and `after` of a correction, one constructor for each shape the verbs write. -/
inductive CorrectionView where
  | retracted (retracted : Bool)
  | payload (payload : Payload)
  | typed (type : AcceptedObjectType) (payload : Payload)
  | answered (answeredBy : List Id)
  | reopened (priorAnswers : List Id)
  | commitmentStatus (status : CommitmentStatus)
  deriving DecidableEq, Repr

structure CorrectionRecord where
  eventId : Id
  objectId : Id
  /-- The type the object had before the correction. -/
  objectType : AcceptedObjectType
  action : CorrectionAction
  before : CorrectionView
  after : CorrectionView
  actor : Actor
  provenance : Provenance
  note : Option String
  at_ : Timestamp
  deriving DecidableEq, Repr

structure ReducerIssue where
  eventId : Id
  reason : String
  deriving DecidableEq, Repr

structure EventCursor where
  at_ : Timestamp
  id : Id
  deriving DecidableEq, Repr

structure CoreState where
  objects : PlainObject ObjectRecord
  relations : List Relation
  proposals : PlainObject ProposalRecord
  corrections : List CorrectionRecord
  issues : List ReducerIssue
  consumedEventIds : List Id
  cursor : Option EventCursor
  watermarks : PlainObject EventCursor

def emptyState : CoreState where
  objects := .empty
  relations := []
  proposals := .empty
  corrections := []
  issues := []
  consumedEventIds := []
  cursor := none
  watermarks := .empty

namespace CoreState

/-- `state.objects[id]?.…`, where an inherited property reads like a missing one. -/
def object? (state : CoreState) (id : Id) : Option ObjectRecord := state.objects.own? id

/-- `state.proposals[id]?.…`, where an inherited property reads like a missing one. -/
def proposal? (state : CoreState) (id : Id) : Option ProposalRecord := state.proposals.own? id

def setObject (state : CoreState) (id : Id) (record : ObjectRecord) : CoreState :=
  { state with objects := state.objects.set id record }

def setProposal (state : CoreState) (id : Id) (record : ProposalRecord) : CoreState :=
  { state with proposals := state.proposals.set id record }

/-- `fail`: record why an event was refused. -/
def fail (state : CoreState) (eventId : Id) (reason : String) : CoreState :=
  { state with issues := state.issues ++ [⟨eventId, reason⟩] }

end CoreState

end Core
