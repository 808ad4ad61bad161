import AtriumVerified.Core.Invariants

/-!
# The history of a run

What is said of a run as a whole and not of one of its states: what a state keeps of the earlier ones,
what the correction log has of an object, which event made a claim verified, whom an object has named.
-/

namespace Core

open Js (Json lookupField)

/-- The state after the first `n` rows of a log were offered. -/
def stateAt [Unicode] (log : List AuthoredEvent) (n : Nat) : CoreState := offerAll (log.take n)

/-! ## What is kept -/

structure SameOrigin (before after : ObjectRecord) : Prop where
  envelope : after.object.id = before.object.id ∧ after.object.roomId = before.object.roomId ∧
    after.object.provenance = before.object.provenance ∧
    after.object.objectiveId = before.object.objectiveId ∧
    after.object.createdAt = before.object.createdAt
  acceptedAt : after.acceptedAt = before.acceptedAt
  acceptedBy : after.acceptedBy = before.acceptedBy

structure HistoryKept (state later : CoreState) : Prop where
  objects : ∀ id record, state.object? id = some record →
    ∃ after, later.object? id = some after ∧ SameOrigin record after
  proposals : ∀ id record, state.proposal? id = some record → ∃ after, later.proposal? id = some after
  relations : state.relations <+: later.relations
  corrections : state.corrections <+: later.corrections
  issues : state.issues <+: later.issues
  consumedEventIds : state.consumedEventIds <+: later.consumedEventIds

def correctionsOf (state : CoreState) (id : Id) : List CorrectionRecord :=
  state.corrections.filter fun record => record.objectId == id

/-- The counters and the standing of every object follow from the correction log. -/
structure Accounted (state : CoreState) : Prop where
  revision : ∀ id record, state.object? id = some record →
    record.revision = (correctionsOf state record.object.id).length
  standing : ∀ id record, state.object? id = some record →
    (confirmed record = true ↔ isHuman record.acceptedBy = true ∨ 0 < record.revision)

/-! ## Whom an object names -/

def namedPerson (payload : Payload) : Option Id := payload.attribution.filter fun userId => userId != ""

def patchedPerson (correction : ObjectCorrected) : Option Id :=
  match correction.toType.bind attributionField with
  | none => none
  | some field =>
    match lookupField correction.patch field with
    | some (.string userId) => some userId
    | _ => none

/-- The person the latest retype to find one found on the object, unless it was reattributed since.
The correction records of the object come newest first. -/
def personBeforeRetypes : List CorrectionRecord → Option Id
  | [] => none
  | record :: older =>
    if record.action = .reattribute then none
    else
      match record.before with
      | .typed _ payload => (namedPerson payload).or (personBeforeRetypes older)
      | _ => personBeforeRetypes older

/-- If the event is a retype that applies, it puts no other person on the object than the one an
earlier retype found there. -/
def RetypeKeepsPerson [Unicode] (state : CoreState) (entry : AuthoredEvent) : Prop :=
  ∀ correction, entry.event.body = .objectCorrected correction → correction.action = .retype →
    Applies state entry → ∀ held put,
    personBeforeRetypes (correctionsOf state correction.objectId).reverse = some held →
    patchedPerson correction = some put → put = held

/-! ## Who verified a claim -/

def Payload.verifiedClaim? : Payload → Option ClaimPayload
  | .claim p => if p.verification = .verified then some p else none
  | _ => none

def verifiedClaim? (state : CoreState) (id : Id) : Option ClaimPayload :=
  (state.object? id).bind fun record => record.object.payload.verifiedClaim?

/-- What a verification stands for: the claimant, and the sentence up to the spelling that
`normalizeForReceipt` folds. -/
def SameVouch (a b : ClaimPayload) : Prop :=
  a.claimant = b.claimant ∧
    normalizeForReceipt a.statement.toList = normalizeForReceipt b.statement.toList

/-- The actor is a human, not the claimant, and did not stage the proposal the object under the id was
accepted from. -/
def SecondPerson (state next : CoreState) (entry : AuthoredEvent) (id : Id) (claim : ClaimPayload) :
    Prop :=
  ∃ userId, entry.trusted.actor = .human userId ∧ userId ≠ claim.claimant ∧
    ∀ record proposalId proposal, next.object? id = some record →
      record.object.provenance.proposalId = some proposalId →
      state.proposal? proposalId = some proposal → proposal.stagedBy ≠ .human userId

end Core
