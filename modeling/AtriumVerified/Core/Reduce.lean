import AtriumVerified.Lib.Checked
import AtriumVerified.Core.Authority
import AtriumVerified.Core.State

/-!
# The reducer

The model of `packages/core/src/reduce.ts`. Every row goes through the same three steps: the schema,
the position gate (`rejectionFor`), and `consume`, which hands the event to the handler of its type
and then moves the cursor whether or not the handler applied it. A handler refuses by recording an
issue; it raises when it reads through a key that only `Object.prototype` has, and then the whole
call raises and its caller keeps the state it had.
-/

namespace Core

open Checked Js
open CoreState (fail)

variable [Unicode]

/-! ## Proposals -/

/-- `applyProposalRecorded`. A status other than `proposed` is recorded as an issue and forced. -/
def applyProposalRecorded (state : CoreState) (eventId : Id) (proposal : Proposal)
    (actor : Actor) : Except Stop CoreState := do
  let id := proposal.stored.id
  refuseIf (state.proposals.get id != .absent) s!"proposal \"{id}\" already recorded"
  let noted :=
    if proposal.status = .proposed then state
    else fail state eventId
      s!"proposal \"{id}\" was recorded with status \"{proposal.status.name}\" — forced to \"proposed\"; only an acceptance or rejection event may move a proposal"
  return noted.setProposal id {
    proposal := proposal.stored
    stagedBy := actor
    status := .proposed
    acceptedObjectId := none
    rejectedReason := none
    supersededByProposalId := none
    supersededReason := none }

def applyProposalRejected (state : CoreState) (proposalId : Id) (reason : Option String)
    (actor : Actor) : Except Stop CoreState := do
  let slot := state.proposals.get proposalId
  refuseAbsent slot s!"unknown proposal \"{proposalId}\""
  let record ← stored slot "proposer"
  refuseIf (!actorMatchesProposer actor record.proposal.proposer)
    (proposalBindingRefusal .rejectionBinding actor record.proposal.proposer proposalId)
  refuseIf (record.status == .accepted) s!"proposal \"{proposalId}\" was already accepted"
  refuseIf (record.status == .rejected) s!"proposal \"{proposalId}\" was already rejected"
  refuseIf (record.status == .superseded) s!"proposal \"{proposalId}\" was already superseded"
  return state.setProposal proposalId { record with status := .rejected, rejectedReason := reason }

/-- The replacement a `proposal_superseded` event names must be another proposal of the same room. -/
def checkReplacement (state : CoreState) (record : ProposalRecord) (proposalId : Id) :
    Option Id → Except Stop Unit
  | none => .ok ()
  | some byId => do
    refuseIf (byId == proposalId) s!"proposal \"{proposalId}\" cannot supersede itself"
    let slot := state.proposals.get byId
    refuseAbsent slot s!"proposal \"{proposalId}\" is superseded by unknown proposal \"{byId}\""
    let replacement ← stored slot "roomId"
    refuseIf (replacement.proposal.roomId != record.proposal.roomId)
      s!"proposal \"{byId}\" is in room \"{replacement.proposal.roomId}\", not \"{record.proposal.roomId}\" — a re-reading cannot cross rooms"

def applyProposalSuperseded (state : CoreState) (proposalId : Id)
    (supersededByProposalId : Option Id) (reason : Option String) (actor : Actor) :
    Except Stop CoreState := do
  let slot := state.proposals.get proposalId
  refuseAbsent slot s!"unknown proposal \"{proposalId}\""
  let record ← stored slot "proposer"
  refuseIf (!actorMatchesProposer actor record.proposal.proposer)
    (proposalBindingRefusal .supersessionBinding actor record.proposal.proposer proposalId)
  refuseIf (record.status != .proposed)
    s!"proposal \"{proposalId}\" was already {record.status.name}"
  checkReplacement state record proposalId supersededByProposalId
  return state.setProposal proposalId { record with
    status := .superseded, supersededByProposalId, supersededReason := reason }

/-! ## Acceptance -/

def checkReceipt (record : ProposalRecord) (object : AcceptedObject) (proposalId : Id)
    (actor : Actor) (messages : Option (List ProvenanceMessage)) : Except Stop Unit :=
  if isHuman actor then .ok ()
  else do
    refuseWith ((acceptanceReceiptRefusal actor proposalId record.proposal object messages).map
      AcceptanceReceiptRefusal.detail)
    refuseIf (belowFloor object.type record.proposal.confidence)
      (confidenceFloorRefusal actor object.type proposalId record.proposal.confidence)
    refuseIf (!typeCertifiableFromText object.type
        (normalizeForReceipt object.payload.text.toList))
      (uncertifiedTypeRefusal actor object.type s!"object \"{object.id}\"")

/-- The checks of `applyObjectAccepted` on the proposal an object cites. -/
def checkCitedProposal (state : CoreState) (object : AcceptedObject) (proposalId : Id)
    (actor : Actor) (messages : Option (List ProvenanceMessage)) :
    Except Stop ProposalRecord := do
  let slot := state.proposals.get proposalId
  refuseAbsent slot s!"object \"{object.id}\" cites unknown proposal \"{proposalId}\""
  -- An inherited property has no `status`, and its `acceptedObjectId` is `undefined`, not `null`.
  refuseIf (slot == .inherited)
    s!"proposal \"{proposalId}\" was already accepted as object \"undefined\""
  let record ← stored slot "status"
  refuseIf (record.status == .rejected) s!"proposal \"{proposalId}\" was already rejected"
  let acceptedAs := record.acceptedObjectId.getD "null"
  refuseIf (record.status == .accepted || record.acceptedObjectId.isSome)
    s!"proposal \"{proposalId}\" was already accepted as object \"{acceptedAs}\""
  let newer := record.supersededByProposalId.getD "a newer reading"
  refuseIf (record.status == .superseded)
    s!"proposal \"{proposalId}\" was already superseded by \"{newer}\" — accept the reading that replaced it"
  refuseIf (!actorMatchesProposer actor record.proposal.proposer)
    (proposalBindingRefusal .acceptanceBinding actor record.proposal.proposer proposalId)
  refuseIf (record.proposal.type != object.type)
    s!"proposal \"{proposalId}\" is a {record.proposal.type.name}, cannot be accepted as a {object.type.name}"
  refuseIf (record.proposal.roomId != object.roomId)
    s!"proposal \"{proposalId}\" belongs to room \"{record.proposal.roomId}\", object \"{object.id}\" to room \"{object.roomId}\""
  checkReceipt record object proposalId actor messages
  return record

/-- The proposal an object cites, after its checks; an object may cite none. -/
def citedProposal (state : CoreState) (object : AcceptedObject) (actor : Actor)
    (messages : Option (List ProvenanceMessage)) : Except Stop (Option ProposalRecord) :=
  match object.provenance.proposalId with
  | none => .ok none
  | some proposalId => do
    let record ← checkCitedProposal state object proposalId actor messages
    return some record

/-- The checks of `applyObjectAccepted` on the objective an object is filed under. -/
def checkObjective (state : CoreState) (object : AcceptedObject) : Except Stop Unit :=
  match object.objectiveId with
  | none => .ok ()
  | some objectiveId => do
    let slot := state.objects.get objectiveId
    refuseAbsent slot
      s!"object \"{object.id}\" belongs to objective \"{objectiveId}\", which does not exist"
    let objective ← stored slot "type"
    refuseIf (objective.object.type != .objective)
      s!"object \"{object.id}\" belongs to \"{objectiveId}\", which is a {objective.object.type.name}, not an objective"
    refuseIf (objective.object.roomId != object.roomId)
      s!"object \"{object.id}\" is in room \"{object.roomId}\" but its objective \"{objectiveId}\" is in room \"{objective.object.roomId}\""

def Payload.owner? : Payload → Option Id
  | .commitment p => some p.owner
  | _ => none

def Payload.verifiedClaimant? : Payload → Option Id
  | .claim p => if p.verification = .verified then some p.claimant else none
  | _ => none

/-- All checks of `applyObjectAccepted`; returns the proposal that was accepted, if one was cited. -/
def checkAcceptance (state : CoreState) (object : AcceptedObject) (actor : Actor)
    (messages : Option (List ProvenanceMessage)) : Except Stop (Option ProposalRecord) := do
  refuseIf (state.objects.get object.id != .absent) s!"object \"{object.id}\" already accepted"
  let subject := s!"object \"{object.id}\""
  refuseWith (if isHuman actor then none else
    (modelMintingGate object.type).map fun gate => humanOnlyRefusal gate actor subject none)
  refuseIf (object.payload.verified && !isHuman actor)
    (humanOnlyRefusal .claimVerification actor subject none)
  refuseIf (object.provenance.proposalId.isNone && !isHuman actor)
    (humanOnlyRefusal .directAcceptance actor subject none)
  let proposal ← citedProposal state object actor messages
  let stagedBy := (proposal.map ProposalRecord.stagedBy).getD actor
  refuseWith (selfStagedReadingRefusal actor object.provenance.proposalId
    (proposal.map fun record => record.proposal.proposer) stagedBy
    (payloadAttributions object.payload))
  refuseWith (object.payload.verifiedClaimant?.bind fun claimant =>
    selfVerificationRefusal actor claimant (some stagedBy))
  refuseWith (object.payload.owner?.bind fun owner => ownerConfirmRefusal actor owner)
  refuseWith (proposal.bind fun record =>
    acceptanceAttributionRefusal actor object.id (object.provenance.proposalId.getD "")
      { object with payload := record.proposal.payload } object)
  checkObjective state object
  return proposal

def freshRecord (object : AcceptedObject) (at_ : Timestamp) (actor : Actor) : ObjectRecord where
  object := object
  acceptedAt := at_
  updatedAt := at_
  acceptedBy := actor
  humanTouchedAt := if isHuman actor then some at_ else none
  revision := 0
  retractedAt := none
  supersededById := none
  reopenedFromAnswers := []

/-- What an acceptance writes: the object, and the proposal it settles. -/
def commitAcceptance (state : CoreState) (at_ : Timestamp) (object : AcceptedObject)
    (actor : Actor) (proposal : Option ProposalRecord) : CoreState :=
  let accepted := state.setObject object.id (freshRecord object at_ actor)
  match object.provenance.proposalId, proposal with
  | some proposalId, some record =>
    accepted.setProposal proposalId { record with
      status := .accepted, acceptedObjectId := some object.id }
  | _, _ => accepted

def applyObjectAccepted (state : CoreState) (at_ : Timestamp) (object : AcceptedObject)
    (actor : Actor) (messages : Option (List ProvenanceMessage)) : Except Stop CoreState := do
  let proposal ← checkAcceptance state object actor messages
  return commitAcceptance state at_ object actor proposal

/-! ## Corrections -/

/-- What a correction does after its record was written (`afterCommit`). -/
inductive AfterCommit where
  | nothing
  | releaseSupersessions
  | reapplySupersessions
  | keepAnswers (answers : List Id)

structure CorrectionPlan where
  object : AcceptedObject
  before : CorrectionView
  after : CorrectionView
  /-- The new `retractedAt`, when the verb sets it. -/
  retractedAt : Option (Option Timestamp)
  afterCommit : AfterCommit

/-- `CorrectionOutcome`: a plan, or a correction that changes nothing, with its issue. -/
inductive CorrectionOutcome where
  | plan (plan : CorrectionPlan)
  | noop (reason : String)

/-- `applyPayloadPatch`: the payload with the patch over it, parsed again. -/
def applyPayloadPatch (object : AcceptedObject) (patch : List (String × Json)) :
    Schema.Parsed Payload :=
  parsePayload object.type (object.payload.fields ++ patch)

def describeIssues (issues : List Schema.Issue) : String :=
  Js.join "; " (issues.map Schema.describeIssue)

def quotedList (ids : List String) : String :=
  Js.join ", " (ids.map fun id => "\"" ++ id ++ "\"")

/-- Which fields a verb may touch: `reattribute` exactly the attribution field, `amend` any other. -/
def checkEditedFields (correction : ObjectCorrected) (object : AcceptedObject) :
    Except Stop Unit :=
  let keys := (correction.patch.map Prod.fst).dedup
  let type := object.type.name
  if correction.action = .reattribute then
    match attributionField object.type with
    | none =>
      refuse s!"a {type} has no attribution field — nothing to reattribute; use \"amend\""
    | some field => do
      refuseIf keys.isEmpty
        s!"\"reattribute\" on object \"{correction.objectId}\" changed nothing — it must set \"{field}\""
      let strays := keys.filter fun key => key != field
      let strayList := quotedList strays
      refuseIf (!strays.isEmpty)
        s!"\"reattribute\" on object \"{correction.objectId}\" may only change \"{field}\", not {strayList} — use \"amend\" for those"
  else
    match attributionField object.type with
    | none => .ok ()
    | some field =>
      refuseIf (keys.contains field)
        s!"\"amend\" on object \"{correction.objectId}\" may not change \"{field}\" — moving a {type} onto or off a person is a \"reattribute\", so the correction log can be read by verb"

def planPayloadEdit (correction : ObjectCorrected) (at_ : Timestamp) (record : ObjectRecord) :
    Except Stop CorrectionOutcome := do
  let verb := correction.action.name
  checkEditedFields correction record.object
  match applyPayloadPatch record.object correction.patch with
  | .error issues =>
    let error := describeIssues issues
    refuse (if correction.action = .amend then
        s!"invalid amendment to \"{correction.objectId}\": {error}"
      else s!"invalid {verb} of \"{correction.objectId}\": {error}")
  | .ok after =>
    if after = record.object.payload then
      return .noop s!"\"{verb}\" on object \"{correction.objectId}\" changed nothing — no correction was recorded and the revision did not move; an edit that matches what is already there is a no-op, not history"
    else
      return .plan {
        object := { record.object with payload := after, updatedAt := at_ }
        before := .payload record.object.payload
        after := .payload after
        retractedAt := none
        afterCommit := .nothing }

/-- `liveAnswers`: the `answers` edges that no reopening has put aside. -/
def liveAnswers (state : CoreState) : List Relation :=
  state.relations.filter fun relation =>
    relation.kind == .answers &&
      !(((state.object? relation.fromObjectId).map ObjectRecord.reopenedFromAnswers).getD []).contains
        relation.id

def retypeStructuralRefusal (state : CoreState) (object : AcceptedObject)
    (toType : AcceptedObjectType) : Option String :=
  let filed := (Js.sort state.objects.keys).filter fun id =>
    (state.object? id).any fun record => record.object.objectiveId == some object.id
  let answersFrom := (liveAnswers state).filter fun relation => relation.fromObjectId == object.id
  let answersTo := (liveAnswers state).filter fun relation =>
    relation.target.objectId? == some object.id
  let firstId (relations : List Relation) : String := (relations.head?.map Relation.id).getD ""
  let fromFirst := firstId answersFrom
  let toFirst := firstId answersTo
  let filedList := quotedList filed
  let filedText :=
    if filed.length = 1 then s!"object {filedList} is"
    else s!"{filed.length} objects ({filedList}) are"
  let them := if filed.length = 1 then "it" else "them"
  let fromText :=
    if answersFrom.length = 1 then s!"relation \"{fromFirst}\" answers it"
    else s!"{answersFrom.length} relations answer it"
  let toText :=
    if answersTo.length = 1 then s!"relation \"{toFirst}\" points at it as an answer"
    else s!"{answersTo.length} relations point at it as an answer"
  if object.type = .objective ∧ toType ≠ .objective ∧ filed ≠ [] then
    some s!"objective \"{object.id}\" cannot be retyped to a {toType.name} — {filedText} filed under it, and an acceptance that pointed at a {toType.name} this way is refused; move {them} to another objective first"
  else if !answersFrom.isEmpty && toType != .openQuestion then
    some s!"open question \"{object.id}\" cannot be retyped to a {toType.name} — {fromText}, and an \"answers\" edge may only originate from an open question; reopen it first, so the room can see the question stopped being settled before it stopped being a question"
  else if !answersTo.isEmpty && toType != .decision && toType != .claim then
    some s!"object \"{object.id}\" cannot be retyped to a {toType.name} — {toText}, and an \"answers\" edge may only target a decision or a claim; reopen the question it settles first"
  else none

/-- The person a retype carries over to the new type, if both types name one. -/
def carriedPerson (payload : Payload) (toType : AcceptedObjectType) : Option Id :=
  match attributionField toType with
  | none => none
  | some _ => payload.attribution.filter fun userId => userId != ""

def retypeCarryOver (payload : Payload) (toType : AcceptedObjectType) : List (String × Json) :=
  (textField toType, .string payload.text) ::
    match attributionField toType, carriedPerson payload toType with
    | some field, some userId => [(field, .string userId)]
    | _, _ => []

/-- A retype may not move the sentence onto another person. -/
def checkCarriedPerson (correction : ObjectCorrected) (payload : Payload)
    (toType : AcceptedObjectType) : Except Stop Unit :=
  match attributionField toType, carriedPerson payload toType with
  | some field, some userId =>
    match lookupField correction.patch field with
    | none => .ok ()
    | some (.string proposed) =>
      refuseIf (proposed != userId)
        s!"\"retype\" on object \"{correction.objectId}\" may not change \"{field}\" from \"{userId}\" to \"{proposed}\" — a retype says how the sentence was read, not who it is on; moving a {toType.name} onto or off a person is a \"reattribute\", so the correction log can be read by verb"
    | some other =>
      match other.display with
      | none => .error (.raised "toString")
      | some proposed =>
        refuse s!"\"retype\" on object \"{correction.objectId}\" may not change \"{field}\" from \"{userId}\" to \"{proposed}\" — a retype says how the sentence was read, not who it is on; moving a {toType.name} onto or off a person is a \"reattribute\", so the correction log can be read by verb"
  | _, _ => .ok ()

/-- `planRetype`. The envelope was parsed when the object entered the state, so only the payload can
fail to parse. -/
def planRetype (state : CoreState) (correction : ObjectCorrected) (at_ : Timestamp)
    (record : ObjectRecord) : Except Stop CorrectionOutcome := do
  let object := record.object
  match correction.toType with
  | none =>
    refuse s!"\"retype\" on object \"{correction.objectId}\" did not say what to retype it to — set \"toType\""
  | some toType =>
    refuseIf (toType == object.type)
      s!"object \"{correction.objectId}\" is already a {toType.name} — a retype to the same type is not a correction; use \"amend\""
    refuseWith (retypeStructuralRefusal state object toType)
    checkCarriedPerson correction object.payload toType
    match parsePayload toType (retypeCarryOver object.payload toType ++ correction.patch) with
    | .error issues =>
      let error := describeIssues
        (issues.map fun issue => { issue with path := "payload" :: issue.path })
      refuse s!"cannot retype \"{correction.objectId}\" from {object.type.name} to {toType.name}: {error}"
    | .ok payload =>
      return .plan {
        object := { object with payload, updatedAt := at_ }
        before := .typed object.type object.payload
        after := .typed toType payload
        retractedAt := none
        afterCommit := .nothing }

def planReopen (state : CoreState) (correction : ObjectCorrected) (at_ : Timestamp)
    (record : ObjectRecord) : Except Stop CorrectionOutcome :=
  let object := record.object
  match object.payload with
  | .openQuestion payload =>
    if payload.status ≠ .answered then
      refuse s!"open question \"{correction.objectId}\" is already open"
    else
      let answers := (state.relations.filter fun relation =>
        relation.kind == .answers && relation.fromObjectId == object.id).map Relation.id
      .ok (.plan {
        object := { object with
          payload := .openQuestion { payload with status := .open }, updatedAt := at_ }
        before := .answered answers
        after := .reopened answers
        retractedAt := none
        afterCommit := .keepAnswers answers })
  | .commitment payload =>
    if payload.status = .open then
      refuse s!"commitment \"{correction.objectId}\" is already open"
    else
      .ok (.plan {
        object := { object with
          payload := .commitment { payload with status := .open }, updatedAt := at_ }
        before := .commitmentStatus payload.status
        after := .commitmentStatus .open
        retractedAt := none
        afterCommit := .nothing })
  | _ =>
    refuse s!"a {object.type.name} cannot be reopened — only an answered question or a closed commitment can; a superseded decision is reopened by retracting the decision that replaced it"

/-- A retracted object has to be restored before it is edited. -/
def checkLive (correction : ObjectCorrected) (record : ObjectRecord) : Except Stop Unit :=
  let verb := correction.action.name
  let doing := if correction.action = .amend then "amending" else s!"applying \"{verb}\""
  refuseIf record.retractedAt.isSome
    s!"object \"{correction.objectId}\" is retracted — restore it before {doing}"

def planCorrection (state : CoreState) (correction : ObjectCorrected) (at_ : Timestamp)
    (record : ObjectRecord) : Except Stop CorrectionOutcome := do
  match correction.action with
  | .retract =>
    refuseIf record.retractedAt.isSome s!"object \"{correction.objectId}\" is already retracted"
    return .plan {
      object := record.object
      before := .retracted false
      after := .retracted true
      retractedAt := some (some at_)
      afterCommit := .releaseSupersessions }
  | .restore =>
    refuseIf record.retractedAt.isNone s!"object \"{correction.objectId}\" is not retracted"
    return .plan {
      object := record.object
      before := .retracted true
      after := .retracted false
      retractedAt := some none
      afterCommit := .reapplySupersessions }
  | .retype =>
    checkLive correction record
    planRetype state correction at_ record
  | .reopen =>
    checkLive correction record
    planReopen state correction at_ record
  | .reattribute =>
    checkLive correction record
    planPayloadEdit correction at_ record
  | .amend =>
    checkLive correction record
    planPayloadEdit correction at_ record

/-- A verified claim whose sentence or claimant a correction changes stops being verified. -/
def lapseVerification (before : AcceptedObject) (plan : CorrectionPlan) : CorrectionPlan :=
  match before.payload, plan.object.payload with
  | .claim held, .claim next =>
    if held.verification = .verified ∧ next.verification = .verified ∧
        (normalizeForReceipt next.statement.toList ≠ normalizeForReceipt held.statement.toList ∨
          next.claimant ≠ held.claimant) then
      let lapsed := Payload.claim { next with verification := .unverified }
      { plan with object := { plan.object with payload := lapsed }, after := .payload lapsed }
    else plan
  | _, _ => plan

/-! ### Supersession pointers -/

/-- `supersessionEdges`: the targets of the `supersedes` edges of an object, in order. -/
def supersessionEdges (state : CoreState) (supersederId : Id) : List Id :=
  (state.relations.filter fun relation =>
    relation.kind == .supersedes && relation.fromObjectId == supersederId).filterMap fun relation =>
      relation.target.objectId?

def supersedersOf (state : CoreState) (targetId : Id) : List Id :=
  (state.relations.filter fun relation =>
    relation.kind == .supersedes && relation.target.objectId? == some targetId).map
      Relation.fromObjectId

/-- `setSuperseded`: a decision's status follows its pointer. -/
def setSuperseded (target : ObjectRecord) (supersededById : Option Id) (at_ : Timestamp) :
    ObjectRecord :=
  let moved := { target with supersededById, updatedAt := at_ }
  match target.object.payload with
  | .decision payload =>
    { moved with object := { target.object with
        payload := .decision { payload with
          status := if supersededById.isNone then .active else .superseded }
        updatedAt := at_ } }
  | _ => moved

/-- The live superseder a released target falls back to (`stillLive`). -/
def stillLive (state : CoreState) (supersederId targetId : Id) : Option Id :=
  (supersedersOf state targetId).find? fun id =>
    id != supersederId && (state.object? id).any fun record => record.retractedAt.isNone

/-- One round of `releaseSupersessions`. -/
def releaseTarget (supersederId : Id) (at_ : Timestamp) (state : CoreState) (targetId : Id) :
    CoreState :=
  match state.object? targetId with
  | none => state
  | some target =>
    if target.supersededById = some supersederId then
      state.setObject targetId
        (setSuperseded target (stillLive state supersederId target.object.id) at_)
    else state

def releaseSupersessions (state : CoreState) (supersederId : Id) (at_ : Timestamp) : CoreState :=
  (supersessionEdges state supersederId).foldl (releaseTarget supersederId at_) state

/-- One round of `reapplySupersessions`. -/
def reapplyTarget (supersederId : Id) (at_ : Timestamp) (state : CoreState) (targetId : Id) :
    CoreState :=
  match state.object? targetId with
  | none => state
  | some target =>
    if target.supersededById = none then
      state.setObject targetId (setSuperseded target (some supersederId) at_)
    else state

def reapplySupersessions (state : CoreState) (supersederId : Id) (at_ : Timestamp) : CoreState :=
  (supersessionEdges state supersederId).foldl (reapplyTarget supersederId at_) state

/-- The loop of `supersessionWouldCycle`: every round adds an id to `seen`, so one more than the
objects is fuel enough. -/
def wouldCycleLoop (state : CoreState) (targetId : Id) : Nat → List Id → Option Id → Bool
  | _, _, none => false
  | 0, _, some _ => true
  | fuel + 1, seen, some cursor =>
    if cursor = targetId then true
    else if seen.contains cursor then true
    else wouldCycleLoop state targetId fuel (cursor :: seen)
      ((state.object? cursor).bind ObjectRecord.supersededById)

def supersessionWouldCycle (state : CoreState) (fromId targetId : Id) : Bool :=
  wouldCycleLoop state targetId (state.objects.keys.length + 2) [] (some fromId)

/-! ### Committing a correction -/

/-- The record of a corrected object, before `afterCommit`. -/
def correctedRecord (record : ObjectRecord) (at_ : Timestamp) (actor : Actor)
    (plan : CorrectionPlan) : ObjectRecord :=
  { record with
    object := plan.object
    retractedAt := plan.retractedAt.getD record.retractedAt
    updatedAt := at_
    revision := record.revision + 1
    humanTouchedAt :=
      if record.humanTouchedAt.isNone && isHuman actor then some at_ else record.humanTouchedAt
    reopenedFromAnswers :=
      match plan.afterCommit with
      | .keepAnswers answers =>
        answers.foldl (fun held id => if held.contains id then held else held ++ [id])
          record.reopenedFromAnswers
      | _ => record.reopenedFromAnswers }

def correctionRecord (eventId : Id) (correction : ObjectCorrected) (at_ : Timestamp)
    (record : ObjectRecord) (actor : Actor) (plan : CorrectionPlan) : CorrectionRecord where
  eventId := eventId
  objectId := record.object.id
  objectType := record.object.type
  action := correction.action
  before := plan.before
  after := plan.after
  actor := actor
  provenance := correction.provenance
  note := correction.note
  at_ := at_

def commitPlan (state : CoreState) (eventId : Id) (correction : ObjectCorrected) (at_ : Timestamp)
    (record : ObjectRecord) (actor : Actor) (plan : CorrectionPlan) : CoreState :=
  let logged := { state with corrections := state.corrections ++
    [correctionRecord eventId correction at_ record actor plan] }
  let written := logged.setObject correction.objectId (correctedRecord record at_ actor plan)
  match plan.afterCommit with
  | .releaseSupersessions => releaseSupersessions written plan.object.id at_
  | .reapplySupersessions => reapplySupersessions written plan.object.id at_
  | _ => written

/-- The checks of `applyObjectCorrected` on a plan, and the plan it commits. -/
def checkPlan (state : CoreState) (correction : ObjectCorrected) (record : ObjectRecord)
    (actor : Actor) (plan : CorrectionPlan) : Except Stop CorrectionPlan := do
  let before := record.object
  refuseWith (correctionAttributionRefusal actor correction.objectId correction.action.name before
    plan.object)
  refuseWith (if before.payload.owner?.isSome then none else
    plan.object.payload.owner?.bind fun owner => ownerConfirmRefusal actor owner)
  let lapsed := lapseVerification before plan
  let stagedBy := (lapsed.object.provenance.proposalId.bind state.proposal?).map
    ProposalRecord.stagedBy
  refuseWith (if before.payload.verified then none else
    lapsed.object.payload.verifiedClaimant?.bind fun claimant =>
      selfVerificationRefusal actor claimant stagedBy)
  refuseWith (if correction.action = .retract then retractVerifiedClaimRefusal actor before
    else none)
  return lapsed

def applyObjectCorrected (state : CoreState) (eventId : Id) (at_ : Timestamp)
    (correction : ObjectCorrected) (actor : Actor) : Except Stop CoreState := do
  let slot := state.objects.get correction.objectId
  refuseAbsent slot s!"unknown object \"{correction.objectId}\""
  let record ← stored slot "type"
  let verifying := (match lookupField correction.patch "verification" with
      | some (.string "verified") => true
      | _ => false) &&
    (record.object.type == .claim || correction.toType == some .claim)
  refuseIf (!isHuman actor)
    (humanOnlyRefusal (if verifying then .claimVerification else .correction) actor
      s!"object \"{correction.objectId}\"" none)
  match ← planCorrection state correction at_ record with
  | .noop reason => return fail state eventId reason
  | .plan plan =>
    let committed ← checkPlan state correction record actor plan
    return commitPlan state eventId correction at_ record actor committed

/-! ## Relations -/

/-- `epistemicStateOf(record) === 'confirmed'`. -/
def confirmed (record : ObjectRecord) : Bool :=
  isHuman record.acceptedBy || record.humanTouchedAt.isSome

/-- The checks of an `answers` edge. -/
def checkAnswers (relation : Relation) (source : ObjectRecord) (target : Option ObjectRecord)
    (actor : Actor) : Except Stop Unit := do
  refuseIf (!isHuman actor)
    (humanOnlyRefusal .answerRelation actor s!"relation \"{relation.id}\"" none)
  refuseIf (source.object.type != .openQuestion)
    s!"relation \"answers\" must originate from an open_question, got \"{source.object.type.name}\""
  refuseWith (target.bind fun record =>
    if record.object.type = .decision ∨ record.object.type = .claim then none
    else some s!"relation \"answers\" must target a decision or a claim, got \"{record.object.type.name}\"")
  refuseIf source.retractedAt.isSome
    s!"open question \"{source.object.id}\" is retracted — restore it before answering, or an edge would mark a withdrawn question settled"
  refuseWith (match source.object.payload with
    | .openQuestion payload =>
      if payload.status = .open then none
      else some s!"open question \"{source.object.id}\" is already answered — reopen it before binding a different answer, so the room can see that it was settled twice"
    | _ => none)

/-- The checks of a `supersedes` edge. -/
def checkSupersedes (state : CoreState) (relation : Relation) (target : ObjectRecord)
    (actor : Actor) : Except Stop Unit := do
  let retired := target.object.type
  let subject := s!"relation \"{relation.id}\""
  refuseIf ((decideSupersession retired).1 == .requiresHuman && !isHuman actor)
    (humanOnlyRefusal .supersession actor subject (some retired))
  refuseIf (!isHuman actor)
    (humanOnlyRefusal (if confirmed target then .confirmedSupersession else .unconfirmedSupersession)
      actor subject (some retired))
  refuseWith (target.supersededById.map fun byId =>
    s!"object \"{target.object.id}\" is already superseded by \"{byId}\"")
  refuseIf (supersessionWouldCycle state relation.fromObjectId target.object.id)
    s!"\"{relation.fromObjectId}\" cannot supersede \"{target.object.id}\" — it is already superseded by it, directly or transitively"

structure Endpoints where
  source : ObjectRecord
  /-- The target, when it is an object. -/
  target : Option (Id × ObjectRecord)

/-- Refuse an edge to an object that does not exist. -/
def refuseUnknownTarget (state : CoreState) (target : RelationTarget) : Except Stop Unit :=
  match target.objectId? with
  | none => .ok ()
  | some objectId =>
    refuseAbsent (state.objects.get objectId) s!"unknown target object \"{objectId}\""

/-- The lookups of `applyRelationAdded`: both ends must exist before either is read. -/
def relationEndpoints (state : CoreState) (relation : Relation) : Except Stop Endpoints := do
  let fromSlot := state.objects.get relation.fromObjectId
  refuseAbsent fromSlot s!"unknown source object \"{relation.fromObjectId}\""
  refuseUnknownTarget state relation.target
  let source ← stored fromSlot "roomId"
  refuseIf (source.object.roomId != relation.roomId)
    s!"relation \"{relation.id}\" is in room \"{relation.roomId}\" but its source object \"{relation.fromObjectId}\" is in room \"{source.object.roomId}\""
  match relation.target.objectId? with
  | none => return ⟨source, none⟩
  | some objectId =>
    let target ← stored (state.objects.get objectId) "roomId"
    refuseIf (target.object.roomId != relation.roomId)
      s!"relation \"{relation.id}\" is in room \"{relation.roomId}\" but its target object \"{target.object.id}\" is in room \"{target.object.roomId}\""
    return ⟨source, some (objectId, target)⟩

def checkKind (state : CoreState) (relation : Relation) (ends : Endpoints) (actor : Actor) :
    Except Stop Unit :=
  match relation.kind, ends.target with
  | .answers, target => checkAnswers relation ends.source (target.map Prod.snd) actor
  | .supersedes, some (_, target) => checkSupersedes state relation target actor
  | _, _ => .ok ()

/-- All checks of `applyRelationAdded`. -/
def checkRelation (state : CoreState) (relation : Relation) (actor : Actor) :
    Except Stop Endpoints := do
  refuseIf (state.relations.any fun existing => existing.id == relation.id)
    s!"relation \"{relation.id}\" already exists"
  refuseWith (relationShapeError relation)
  let ends ← relationEndpoints state relation
  checkKind state relation ends actor
  return ends

def commitRelation (state : CoreState) (at_ : Timestamp) (relation : Relation)
    (ends : Endpoints) : CoreState :=
  let added := { state with relations := state.relations ++ [relation] }
  match relation.kind, ends.target with
  | .supersedes, some (targetId, target) =>
    added.setObject targetId (setSuperseded target (some relation.fromObjectId) at_)
  | .answers, _ =>
    match ends.source.object.payload with
    | .openQuestion payload =>
      added.setObject relation.fromObjectId { ends.source with
        object := { ends.source.object with
          payload := .openQuestion { payload with status := .answered }, updatedAt := at_ }
        updatedAt := at_ }
    | _ => added
  | _, _ => added

def applyRelationAdded (state : CoreState) (at_ : Timestamp) (relation : Relation)
    (actor : Actor) : Except Stop CoreState := do
  let ends ← checkRelation state relation actor
  return commitRelation state at_ relation ends

/-! ## The gate and the log -/

def cursorOf (event : CoreEvent) : EventCursor := ⟨event.at_, event.id⟩

/-- `compareCursor`: by instant, then by id. -/
def compareCursor (a b : EventCursor) : Ordering :=
  let ka := instantKey a.at_
  let kb := instantKey b.at_
  if ka = kb then Js.compare a.id b.id else Js.compare ka kb

inductive RejectionReason where
  | outOfOrder
  | duplicate
  deriving DecidableEq, Repr

inductive EventOutcome where
  | applied (event : CoreEvent) (actor : Actor)
  | appliedWithIssue (event : CoreEvent) (actor : Actor) (issues : List ReducerIssue)
  | rejected (event : CoreEvent) (actor : Actor) (reason : RejectionReason) (detail : String)
  | malformed (actor : Actor) (detail : String)

def wasConsumed : EventOutcome → Bool
  | .applied _ _ | .appliedWithIssue _ _ _ => true
  | .rejected _ _ _ _ | .malformed _ _ => false

/-- `rejectionFor`: a row must sort strictly after the cursor and carry a fresh id. -/
def rejectionFor (state : CoreState) (event : CoreEvent) : Option (RejectionReason × String) :=
  let spent := state.consumedEventIds.contains event.id
  let duplicate : Option (RejectionReason × String) :=
    if spent then
      some (.duplicate,
        s!"event \"{event.id}\" was consumed already — rejected as a redelivery, whatever timestamp it now carries and whatever the first delivery made of it")
    else none
  match state.cursor with
  | none => duplicate
  | some cursor =>
    if compareCursor (cursorOf event) cursor ≠ .gt then
      let also :=
        if spent then
          "; its id was consumed already too, so this is a redelivery — do not re-mint it"
        else ""
      some (.outOfOrder,
        s!"event ({event.at_}, {event.id}) does not sort strictly after the consumed position ({cursor.at_}, {cursor.id}) — rejected, not applied and not recorded{also}")
    else duplicate

/-- `resolveRoomId`: the room whose watermark an event moves. -/
def resolveRoomId (state : CoreState) (event : CoreEvent) : Except Stop (Option Id) :=
  let roomOf {α : Type} (slot : Slot α) (room : α → Id) : Except Stop (Option Id) :=
    match slot with
    | .own record => .ok (some (room record))
    | .inherited => .error (.raised "roomId")
    | .absent => .ok none
  match event.body with
  | .proposalRecorded proposal => .ok (some proposal.stored.roomId)
  | .proposalRejected proposalId _ | .proposalSuperseded proposalId _ _ =>
    roomOf (state.proposals.get proposalId) fun record => record.proposal.roomId
  | .objectAccepted object => .ok (some object.roomId)
  | .objectCorrected correction =>
    roomOf (state.objects.get correction.objectId) fun record => record.object.roomId
  | .relationAdded relation => .ok (some relation.roomId)

def dispatch (state : CoreState) (entry : AuthoredEvent) : Except Stop CoreState :=
  let event := entry.event
  let actor := entry.trusted.actor
  match event.body with
  | .proposalRecorded proposal => applyProposalRecorded state event.id proposal actor
  | .proposalRejected proposalId reason => applyProposalRejected state proposalId reason actor
  | .proposalSuperseded proposalId byId reason =>
    applyProposalSuperseded state proposalId byId reason actor
  | .objectAccepted object =>
    applyObjectAccepted state event.at_ object actor entry.trusted.messages
  | .objectCorrected correction => applyObjectCorrected state event.id event.at_ correction actor
  | .relationAdded relation => applyRelationAdded state event.at_ relation actor

/-- A property of `undefined` was read, or a `toString` that cannot be called. -/
structure TypeError where
  /-- The property. -/
  reading : String
  deriving DecidableEq, Repr

/-- What `dispatch` leaves behind and whether the event applied: a refusal is an issue. -/
def settle (state : CoreState) (entry : AuthoredEvent) : Except TypeError (CoreState × Bool) :=
  match dispatch state entry with
  | .ok next => .ok (next, true)
  | .error (.refused reason) => .ok (fail state entry.event.id reason, false)
  | .error (.raised reading) => .error ⟨reading⟩

/-- The cursor, the watermark of the room and the consumed ids after an event. -/
def advance (state : CoreState) (roomId : Option Id) (event : CoreEvent) : CoreState :=
  { state with
    cursor := some (cursorOf event)
    watermarks := match roomId with
      | none => state.watermarks
      | some room => state.watermarks.set room (cursorOf event)
    consumedEventIds := state.consumedEventIds ++ [event.id] }

def consume (state : CoreState) (entry : AuthoredEvent) :
    Except TypeError (EventOutcome × CoreState) :=
  let event := entry.event
  let actor := entry.trusted.actor
  match resolveRoomId state event with
  | .error (.raised reading) => .error ⟨reading⟩
  | .error (.refused reason) => .error ⟨reason⟩
  | .ok roomId =>
    match settle state entry with
    | .error e => .error e
    | .ok (next, applied) =>
      let moved := advance next roomId event
      let explained :=
        if !applied && moved.issues.length == state.issues.length then
          fail moved event.id s!"event \"{event.id}\" did not apply and recorded no reason"
        else moved
      let issues := explained.issues.drop state.issues.length
      .ok (if issues.isEmpty then .applied event actor else .appliedWithIssue event actor issues,
        explained)

def parseFailureDetail (issues : List Schema.Issue) : String :=
  let forgedActor := issues.any fun issue => issue.path.head? == some "actor"
  let preamble :=
    if forgedActor then "event payload carries an actor and was refused at the boundary"
    else "event payload does not parse as a CoreEvent and was refused at the boundary"
  let described := describeIssues issues
  s!"{preamble} — not consumed, not recorded, nothing folded: {described}"

section Log

variable {Raw : Type} (schema : EventSchema Raw)

/-- One parsed row against the state: rejected, or consumed. -/
def step (state : CoreState) (entry : AuthoredEvent) :
    Except TypeError (EventOutcome × CoreState) :=
  match rejectionFor state entry.event with
  | some (reason, detail) =>
    .ok (.rejected entry.event entry.trusted.actor reason detail, state)
  | none => consume state entry

/-- `appendEvent`: the outcome and the state it returns. -/
def appendEvent (state : CoreState) (row : Row Raw) :
    Except TypeError (EventOutcome × CoreState) :=
  match schema.safeParse row.event with
  | .error issues => .ok (.malformed row.trusted.actor (parseFailureDetail issues), state)
  | .ok event => step state ⟨event, row.trusted⟩

def orderEvents (log : List AuthoredEvent) : List AuthoredEvent :=
  log.mergeSort fun a b => compareCursor (cursorOf a.event) (cursorOf b.event) != .gt

def parsedRows (log : List (Row Raw)) : List AuthoredEvent :=
  log.filterMap fun row =>
    match schema.safeParse row.event with
    | .ok event => some ⟨event, row.trusted⟩
    | .error _ => none

def malformedOutcomes (log : List (Row Raw)) : List EventOutcome :=
  log.filterMap fun row =>
    match schema.safeParse row.event with
    | .ok _ => none
    | .error issues => some (.malformed row.trusted.actor (parseFailureDetail issues))

/-- The loop of `foldEvents` over the ordered rows. -/
def foldRows (state : CoreState) : List AuthoredEvent →
    Except TypeError (List EventOutcome × CoreState)
  | [] => .ok ([], state)
  | entry :: rest => do
    let (outcome, next) ← step state entry
    let (outcomes, last) ← foldRows next rest
    return (outcome :: outcomes, last)

def foldEvents (log : List (Row Raw)) (initial : CoreState) :
    Except TypeError (List EventOutcome × CoreState) := do
  let (outcomes, state) ← foldRows initial (orderEvents (parsedRows schema log))
  return (malformedOutcomes schema log ++ outcomes, state)

def reduce (log : List (Row Raw)) (initial : CoreState) : Except TypeError CoreState := do
  let (_, state) ← foldEvents schema log initial
  return state

end Log

end Core
