import Mathlib.Data.Set.Function
import AtriumVerified.Lib.Runs
import AtriumVerified.Core.Runs

/-!
# What holds in the states of a run

The cross-record facts that the handlers of the reducer keep, each as a property of a state, and for
those that only some runs keep, what an event has to meet.
-/

namespace Core

open Js PointerGraph

def anyEvent (_ : CoreState) (_ : AuthoredEvent) : Prop := True

def Applies [Unicode] (state : CoreState) (entry : AuthoredEvent) : Prop :=
  ∃ next, dispatch state entry = .ok next

/-! ## Referential integrity -/

def objectivePointer (state : CoreState) (id : Id) : Option Id :=
  (state.object? id).bind fun record => record.object.objectiveId

def JoinsRoom (state : CoreState) (relation : Relation) : Prop :=
  ∃ targetId source target, relation.target.objectId? = some targetId ∧
    state.object? relation.fromObjectId = some source ∧ state.object? targetId = some target ∧
    source.object.roomId = relation.roomId ∧ target.object.roomId = relation.roomId

/-- The types at the ends of an `answers` edge. -/
def AnswersQuestion (state : CoreState) (relation : Relation) : Prop :=
  ∃ targetId source target, relation.target.objectId? = some targetId ∧
    state.object? relation.fromObjectId = some source ∧ state.object? targetId = some target ∧
    source.object.type = .openQuestion ∧
    (target.object.type = .decision ∨ target.object.type = .claim)

/-- Everything that names another record names one that is there and fits. -/
structure Integrity (state : CoreState) : Prop where
  /-- An object is filed under an objective of its room. -/
  objectives : ∀ id record objectiveId, state.object? id = some record →
    record.object.objectiveId = some objectiveId → ∃ objective,
      state.object? objectiveId = some objective ∧ objective.object.type = .objective ∧
      objective.object.roomId = record.object.roomId
  filing : Acyclic (objectivePointer state)
  relationIds : (state.relations.map Relation.id).Nodup
  structural : ∀ relation ∈ state.relations, relation.kind.structural = true →
    JoinsRoom state relation
  evidence : ∀ relation ∈ state.relations, relation.kind = .evidence →
    relation.target.objectId? = none
  answers : ∀ relation ∈ liveAnswers state, AnswersQuestion state relation
  /-- A proposal is superseded by a proposal of its room. -/
  replacements : ∀ id record byId, state.proposal? id = some record →
    record.supersededByProposalId = some byId → ∃ replacement,
      state.proposal? byId = some replacement ∧
      replacement.proposal.roomId = record.proposal.roomId

/-! ## Supersession pointers -/

/-- A recorded `supersedes` edge from one object to another. -/
def Supersedes (state : CoreState) (fromId targetId : Id) : Prop :=
  ∃ relation ∈ state.relations, relation.kind = .supersedes ∧ relation.fromObjectId = fromId ∧
    relation.target.objectId? = some targetId

def Live (state : CoreState) (id : Id) : Prop :=
  ∃ record, state.object? id = some record ∧ record.retractedAt = none

/-- An object has no pointer exactly when no live object supersedes it, and a pointer it has names a
live object that does. -/
def PointersTrackEdges (state : CoreState) : Prop :=
  ∀ id record, state.object? id = some record →
    (record.supersededById = none ↔ ∀ fromId, Supersedes state fromId id → ¬ Live state fromId) ∧
    ∀ byId, record.supersededById = some byId → Live state byId ∧ Supersedes state byId id

/-- If the event is a `supersedes` edge that applies, the object it comes from is not retracted. -/
def SourceLive [Unicode] (state : CoreState) (entry : AuthoredEvent) : Prop :=
  ∀ relation, entry.event.body = .relationAdded relation → relation.kind = .supersedes →
    Applies state entry → Live state relation.fromObjectId

/-! ## Statuses that repeat other facts -/

def statusOfPointer (supersededById : Option Id) : DecisionStatus :=
  if supersededById.isSome then .superseded else .active

/-- A decision is `superseded` exactly when it has a supersession pointer. -/
def DecisionStatusesAgree (state : CoreState) : Prop :=
  ∀ id record payload, state.object? id = some record → record.object.payload = .decision payload →
    (payload.status = .superseded ↔ record.supersededById ≠ none)

/-- If the event applies, the decision status it writes by itself is the one of the pointer: a new
decision is `active`, an amendment does not change the status of a decision, and what becomes a
decision gets the status of the pointer it has. -/
structure WritesPointerStatus [Unicode] (state : CoreState) (entry : AuthoredEvent) : Prop where
  accepted : ∀ object payload, entry.event.body = .objectAccepted object →
    object.payload = .decision payload → Applies state entry → payload.status = .active
  amended : ∀ correction record payload status,
    entry.event.body = .objectCorrected correction → correction.action = .amend →
    state.object? correction.objectId = some record → record.object.payload = .decision payload →
    lookupField correction.patch "status" = some status → Applies state entry →
    status = .string (literal decisionStatuses payload.status)
  retyped : ∀ correction record, entry.event.body = .objectCorrected correction →
    correction.action = .retype → correction.toType = some .decision →
    state.object? correction.objectId = some record → Applies state entry →
    (lookupField correction.patch "status").getD (.string "active") =
      .string (literal decisionStatuses (statusOfPointer record.supersededById))

/-- The answers to a question that no reopening has put aside. -/
def answersOf (state : CoreState) (id : Id) : List Relation :=
  (liveAnswers state).filter fun relation => relation.fromObjectId == id

/-- A question is `answered` exactly when it has one live answer, and `open` exactly when it has
none. -/
def QuestionStatusesAgree (state : CoreState) : Prop :=
  ∀ id record payload, state.object? id = some record →
    record.object.payload = .openQuestion payload →
    (payload.status = .answered ↔ (answersOf state id).length = 1) ∧
    (payload.status = .open ↔ answersOf state id = [])

def Answered (state : CoreState) (id : Id) : Prop :=
  ∃ record payload, state.object? id = some record ∧
    record.object.payload = .openQuestion payload ∧ payload.status = .answered

/-- If the event applies, it does not settle a question by itself: a new question is `open`, an
amendment does not change the status of a question, and what becomes a question is `open`. -/
structure SettlesByAnswer [Unicode] (state : CoreState) (entry : AuthoredEvent) : Prop where
  accepted : ∀ object payload, entry.event.body = .objectAccepted object →
    object.payload = .openQuestion payload → Applies state entry → payload.status = .open
  amended : ∀ correction record payload status,
    entry.event.body = .objectCorrected correction → correction.action = .amend →
    state.object? correction.objectId = some record →
    record.object.payload = .openQuestion payload →
    lookupField correction.patch "status" = some status → Applies state entry →
    status = .string (literal questionStatuses payload.status)
  retyped : ∀ correction, entry.event.body = .objectCorrected correction →
    correction.action = .retype → correction.toType = some .openQuestion →
    Applies state entry →
    (lookupField correction.patch "status").getD (.string "open") = .string "open"

/-! ## Runs with the events they applied -/

/-- The row, if it passes the gate and its handler applies it. -/
def appliedRow [Unicode] (state : CoreState) (entry : AuthoredEvent) : List AuthoredEvent :=
  match rejectionFor state entry.event with
  | some _ => []
  | none =>
    match dispatch state entry with
    | .ok _ => [entry]
    | .error _ => []

/-- The states a run reaches, with the events it has applied so far, in order. -/
inductive ReachedBy [Unicode] : List AuthoredEvent → CoreState → Prop
  | start : ReachedBy [] emptyState
  | next {log : List AuthoredEvent} {state state' : CoreState} {entry : AuthoredEvent}
      {outcome : EventOutcome} :
      ReachedBy log state → step state entry = .ok (outcome, state') →
      ReachedBy (log ++ appliedRow state entry) state'

def Next [Unicode] (state next : CoreState) : Prop :=
  ∃ entry outcome, step state entry = .ok (outcome, next)

def Later [Unicode] : CoreState → CoreState → Prop := Relation.ReflTransGen Next

/-! ## The life of a proposal -/

def acceptedProposals (state : CoreState) : Set Id :=
  { id | ∃ record, state.proposal? id = some record ∧ record.status = .accepted }

def mintedObjects (state : CoreState) : Set Id :=
  { id | ∃ record, state.object? id = some record ∧
    record.object.provenance.proposalId.isSome = true }

def acceptedAs (state : CoreState) (proposalId : Id) : Id :=
  ((state.proposal? proposalId).bind ProposalRecord.acceptedObjectId).getD ""

/-- How the proposals of a state and the objects that came out of them hang together, after the events
of a log. -/
structure Lifecycle (log : List AuthoredEvent) (state : CoreState) : Prop where
  /-- A proposal names an object exactly when it was accepted. -/
  settled : ∀ id record, state.proposal? id = some record →
    (record.status = .accepted ↔ record.acceptedObjectId ≠ none)
  /-- Every accepted proposal came out as an object of its own, and every object that cites a proposal
  came out of one. -/
  bijection : Set.BijOn (acceptedAs state) (acceptedProposals state) (mintedObjects state)
  /-- The object cites the proposal and is in its room. -/
  rooms : ∀ id record, state.proposal? id = some record → record.status = .accepted →
    ∃ minted, state.object? (acceptedAs state id) = some minted ∧
      minted.object.provenance.proposalId = some id ∧
      minted.object.roomId = record.proposal.roomId
  /-- The object was accepted, and had the proposed type then. -/
  types : ∀ id record, state.proposal? id = some record → record.status = .accepted →
    (∃ entry ∈ log, ∃ object, entry.event.body = .objectAccepted object ∧
      object.id = acceptedAs state id) ∧
    ∀ entry ∈ log, ∀ object, entry.event.body = .objectAccepted object →
      object.id = acceptedAs state id → object.type = record.proposal.type

/-! ## Lookups -/

/-- The ids of an event that its handler looks up among the objects. -/
def namedObjects (event : CoreEvent) : List Id :=
  match event.body with
  | .objectAccepted object => object.id :: object.objectiveId.toList
  | .objectCorrected correction => [correction.objectId]
  | .relationAdded relation => relation.fromObjectId :: relation.target.objectId?.toList
  | _ => []

/-- The ids of an event that its handler looks up among the proposals. -/
def namedProposals (event : CoreEvent) : List Id :=
  match event.body with
  | .proposalRecorded proposal => [proposal.stored.id]
  | .proposalRejected proposalId _ => [proposalId]
  | .proposalSuperseded proposalId byId _ => proposalId :: byId.toList
  | .objectAccepted object => object.provenance.proposalId.toList
  | _ => []

/-- The event names no property of `Object.prototype` where its handler looks ids up. -/
def Ordinary (event : CoreEvent) : Prop :=
  ∀ id ∈ namedObjects event ++ namedProposals event, id ∉ prototypeKeys

/-- A person retypes a live object that names somebody, and the patch has a value without a text in
that person's place: `planRetype` raises while it words its refusal. -/
structure Unwordable (state : CoreState) (entry : AuthoredEvent) (correction : ObjectCorrected)
    (record : ObjectRecord) (toType : AcceptedObjectType) (field : String) (value : Json) : Prop where
  after : ∀ cursor, state.cursor = some cursor →
    compareCursor (cursorOf entry.event) cursor = .gt
  fresh : entry.event.id ∉ state.consumedEventIds
  human : isHuman entry.trusted.actor = true
  body : entry.event.body = .objectCorrected correction
  action : correction.action = .retype
  retypes : correction.toType = some toType
  held : state.object? correction.objectId = some record
  live : record.retractedAt = none
  other : toType ≠ record.object.type
  unlinked : retypeStructuralRefusal state record.object toType = none
  names : attributionField toType = some field
  carried : (carriedPerson record.object.payload toType).isSome
  patched : lookupField correction.patch field = some value
  textless : value.Textless

/-- No refusal of the event has to show a value without a text. -/
def Wordable (state : CoreState) (entry : AuthoredEvent) : Prop :=
  ∀ correction record toType field value,
    ¬ Unwordable state entry correction record toType field value

/-- Every event of a log, when its turn comes, names ordinary ids and can be refused in words. -/
def Foldable [Unicode] (log : List AuthoredEvent) : Prop :=
  Runs.Allowed (fun state entry => some (offer state entry))
    (fun state entry => Ordinary entry.event ∧ Wordable state entry) emptyState log

/-- The ids that are looked up among the objects: those of the event, the ends of the structural edges,
and the supersession pointers. -/
def objectLookups (state : CoreState) (event : CoreEvent) : Set Id :=
  { id | id ∈ namedObjects event ∨
    (∃ relation ∈ state.relations, relation.kind.structural = true ∧
      (relation.fromObjectId = id ∨ relation.target.objectId? = some id)) ∨
    ∃ other, pointer state other = some id }

/-- The ids that are looked up among the proposals: those of the event, and those the objects cite. -/
def proposalLookups (state : CoreState) (event : CoreEvent) : Set Id :=
  { id | id ∈ namedProposals event ∨
    ∃ objectId record, state.object? objectId = some record ∧
      record.object.provenance.proposalId = some id }

def CreatedObject (log : List AuthoredEvent) (id : Id) : Prop :=
  ∃ entry ∈ log, ∃ object, entry.event.body = .objectAccepted object ∧ object.id = id

def CreatedProposal (log : List AuthoredEvent) (id : Id) : Prop :=
  ∃ entry ∈ log, ∃ proposal, entry.event.body = .proposalRecorded proposal ∧
    proposal.stored.id = id

/-- Every lookup that finds something finds a record that an applied event created under that very
id, so an id that was never recorded is free. -/
structure LookupsSound (log : List AuthoredEvent) (state : CoreState) (event : CoreEvent) : Prop where
  objects : ∀ id ∈ objectLookups state event, state.objects.get id ≠ .absent →
    (∃ record, state.objects.get id = .own record ∧ record.object.id = id) ∧ CreatedObject log id
  proposals : ∀ id ∈ proposalLookups state event, state.proposals.get id ≠ .absent →
    (∃ record, state.proposals.get id = .own record ∧ record.proposal.id = id) ∧
      CreatedProposal log id
  /-- The duplicate check of an acceptance passes for an id that was never accepted. -/
  acceptable : ∀ object, event.body = .objectAccepted object → ¬ CreatedObject log object.id →
    state.objects.get object.id = .absent
  /-- The duplicate check of a recording passes for an id that was never recorded. -/
  recordable : ∀ proposal, event.body = .proposalRecorded proposal →
    ¬ CreatedProposal log proposal.stored.id → state.proposals.get proposal.stored.id = .absent

/-! ## Authority -/

def RelationKind.humanOnly (kind : RelationKind) : Bool := kind == .supersedes || kind == .answers

/-- A record that a machine may mint: a question or an unverified claim, out of a reading the machine
proposed itself, that was still `proposed` and not below the floor. -/
def MintedByMachine (state : CoreState) (actor : Actor) (record : ObjectRecord) : Prop :=
  (record.object.type = .openQuestion ∨
    ∃ claim, record.object.payload = .claim claim ∧ claim.verification ≠ .verified) ∧
  ∃ proposalId proposal, record.object.provenance.proposalId = some proposalId ∧
    state.proposal? proposalId = some proposal ∧ proposal.status = .proposed ∧
    actorMatchesProposer actor proposal.proposal.proposer = true ∧
    belowFloor record.object.type proposal.proposal.confidence = false

structure MachineFrame (actor : Actor) (state next : CoreState) : Prop where
  objects : ∀ id record, state.object? id = some record → next.object? id = some record
  corrections : next.corrections = state.corrections
  edges : next.relations.filter (fun relation => relation.kind.humanOnly) =
    state.relations.filter fun relation => relation.kind.humanOnly
  /-- Whatever was not there as it is now was minted. -/
  minted : ∀ id record, next.object? id = some record → state.object? id ≠ some record →
    MintedByMachine state actor record

def Names (object : AcceptedObject) (userId : Id) : Prop :=
  userId ∈ payloadAttributions object.payload

def NamedBefore (state : CoreState) (id : Id) (object : AcceptedObject) (userId : Id) : Prop :=
  ∃ before, state.object? id = some before ∧ Names before.object userId ∧
    objectStatement before.object = objectStatement object

/-- The event accepts the object, no commitment, out of a reading that somebody else staged and that
names the person with the same sentence. -/
def NamedByReading (state : CoreState) (event : CoreEvent) (actor : Actor) (object : AcceptedObject)
    (userId : Id) : Prop :=
  event.body = .objectAccepted object ∧ object.type ≠ .commitment ∧
    ∃ proposalId proposal, object.provenance.proposalId = some proposalId ∧
      state.proposal? proposalId = some proposal ∧ proposal.stagedBy ≠ actor ∧
      userId ∈ payloadAttributions proposal.proposal.payload ∧
      proposal.proposal.payload.text = objectStatement object

/-! ## Receipts -/

def PayloadsParsed {Raw : Type} (schema : EventSchema Raw) : Prop :=
  ∀ raw event object, schema.safeParse raw = .ok event → event.body = .objectAccepted object →
    ∃ fields, parsePayload object.type fields = .ok object.payload

/-- What a machine's acceptance rests on: a message of the window that the proposal cites, with the
quote and the object's text read out of it. -/
structure ReceiptContract [Unicode] (proposal : StoredProposal) (object : AcceptedObject)
    (window : List ProvenanceMessage) (quote : String) (message : ProvenanceMessage) : Prop where
  held : message ∈ window
  cited : message.id ∈ proposal.provenance
  /-- The object says what the message says, token by token. -/
  sameTokens : significant (objectStatement object).toList = significant message.text
  quoted : proposal.quote = some quote
  sameText : normalizeForReceipt quote.toList = normalizeForReceipt (objectStatement object).toList
  longEnough : receiptPolicy.minQuoteLength ≤ Js.length (normalizeForReceipt quote.toList)
  links : (linkStructures (objectStatement object).toList).Subperm (linkStructures message.text)
  blocks : (blockStructures (objectStatement object).toList ++
      breakStructures (objectStatement object).toList).Subperm
    (blockStructures message.text ++ breakStructures message.text)
  /-- Whatever the citations lead to and bears the quote has the one author. -/
  oneAuthor : ∀ id ∈ proposal.provenance, ∀ other, messageById window id = some other →
    bears quote.toList other = true → other.authorId = message.authorId
  /-- Where no two messages share an id, that is whatever is cited. -/
  oneAuthorOfCited : (window.map ProvenanceMessage.id).Nodup → ∀ other ∈ window,
    other.id ∈ proposal.provenance → bears quote.toList other = true →
    other.authorId = message.authorId
  claimant : ∀ claim, object.payload = .claim claim → message.authorId = claim.claimant
  /-- Nothing behind the newest citation counts as a revision of the text. -/
  unrevised : ∀ before later after, window = before ++ later :: after →
    (∀ other ∈ later :: after, other.id ∉ proposal.provenance) →
    scanMessage (objectStatement object).toList (routingTokens (objectStatement object).toList)
      receiptPolicy later = none

end Core
