import AtriumVerified.Core.Receipt

/-!
# Authority: who may do what

The model of `packages/core/src/authority.ts`: the acts only a human may perform, whose readings a
non-human may accept, the rules that keep one person from speaking for another, and the receipt a
non-human acceptance needs. Every function returns the text of its refusal, as the reducer records
it.
-/

namespace Core

/-- The acts that need a human. -/
inductive HumanOnlyGate where
  | directAcceptance
  | decisionAcceptance
  | commitmentAcceptance
  | objectiveAcceptance
  | claimVerification
  | supersession
  | confirmedSupersession
  | unconfirmedSupersession
  | answerRelation
  | correction
  deriving DecidableEq, Repr

/-- The gate before a machine's acceptance of a type. -/
def modelMintingGate : AcceptedObjectType → Option HumanOnlyGate
  | .decision => some .decisionAcceptance
  | .commitment => some .commitmentAcceptance
  | .objective => some .objectiveAcceptance
  | .claim | .openQuestion => none

def isHuman : Actor → Bool
  | .human _ => true
  | _ => false

/-- `/^[aeiou]/.test(kind) ? 'an' : 'a'`. -/
def article (actor : Actor) : String :=
  if (actor.kind.toList.head?.any fun c => "aeiou".toList.contains c) then "an" else "a"

def humanOnlyRefusal (gate : HumanOnlyGate) (actor : Actor) (subject : String)
    (retiredType : Option AcceptedObjectType) : String :=
  let kind := actor.kind
  let a := article actor
  let retired := (retiredType.map AcceptedObjectType.name).getD "object"
  let why := match retiredType with
    | none => "this type needs a human"
    | some type => (decideSupersession type).2
  match gate with
  | .directAcceptance =>
    s!"{subject} was accepted with no proposal by {a} {kind} actor — only a human may accept an object directly; {a} {kind} actor must record a proposal and have it accepted"
  | .decisionAcceptance =>
    s!"{subject} is a decision accepted by {a} {kind} actor — a decision never auto-accepts (issue #4): {a} {kind} actor may propose one, but only a human may accept it"
  | .commitmentAcceptance =>
    s!"{subject} is a commitment accepted by {a} {kind} actor — accepting it writes an obligation onto a named person who never agreed to it, and #4's rule is that nobody gets committed by someone else's sentence; {a} {kind} actor may propose the commitment and let the person it names — its owner, and only its owner (#67) — confirm it"
  | .objectiveAcceptance =>
    s!"{subject} is an objective accepted by {a} {kind} actor — an objective is what everything else in the room is filed under, and retiring one already needs a person (#4's supersession split), so minting one does too; {a} {kind} actor may propose it and let a person accept"
  | .claimVerification =>
    s!"{subject} would become a verified claim on {a} {kind} actor's word — only a human may move a claim to \"verified\"; {a} {kind} actor may accept it as unverified or disputed"
  | .supersession =>
    s!"{subject} retires an accepted {retired} on {a} {kind} actor's word — {why}; {a} {kind} actor may propose the replacement and let a person retire it"
  | .confirmedSupersession =>
    s!"{subject} retires an object a person has already confirmed, on a {kind} actor's word — a non-human may never retire anything the room has confirmed (#95), whatever its type: the ✓ is a person's judgement and unmaking it is the same act as making it; a {kind} actor may draft a superseding reading (~) and let a person retire the old one"
  | .unconfirmedSupersession =>
    s!"{subject} supersedes an accepted {retired} on a {kind} actor's word — a non-human may never retire a standing accepted object by superseding it (#95), even an unconfirmed reading another machine accepted; a {kind} actor may draft a superseding reading (~) and let a person retire the old one"
  | .answerRelation =>
    s!"{subject} declares an open question answered on {a} {kind} actor's word — only a human may bind an answer (#4: a decision reaches the room through answer-binding or an explicit accept, never through inference); {a} {kind} actor may propose the answer and let a person bind it"
  | .correction =>
    s!"{subject} was corrected by {a} {kind} actor — corrections (amend, retract, restore) are human-only in v1: a correction rewrites what the room already accepted"

def actorName : Actor → String
  | .human userId => s!"user \"{userId}\""
  | .agent userId => s!"agent \"{userId}\""
  | .model model => s!"model \"{model}\""
  | .system => "the system actor"

def proposerName : Proposer → String
  | .model model => s!"model \"{model}\""
  | .agent userId => s!"agent \"{userId}\""
  | .human userId => s!"user \"{userId}\""

/-- `actorMatchesProposer`: a human may act on any reading, a machine only on its own. -/
def actorMatchesProposer : Actor → Proposer → Bool
  | .human _, _ => true
  | .model model, .model staged => staged == model
  | .agent userId, .agent staged => staged == userId
  | _, _ => false

/-- What an actor tries to do to a proposal. -/
inductive ProposalBindingGate where
  | acceptanceBinding
  | rejectionBinding
  | supersessionBinding

def proposalBindingRefusal (gate : ProposalBindingGate) (actor : Actor) (proposer : Proposer)
    (proposalId : Id) : String :=
  let who := actorName actor
  let whose := proposerName proposer
  match gate with
  | .acceptanceBinding =>
    s!"proposal \"{proposalId}\" was staged by {whose} and {who} tried to accept it — a non-human actor may only accept its own reading; accepting somebody else's is minting their judgement"
  | .rejectionBinding =>
    s!"proposal \"{proposalId}\" was staged by {whose} and {who} tried to reject it — a non-human actor may only withdraw its own reading; only a human may reject another's"
  | .supersessionBinding =>
    s!"proposal \"{proposalId}\" was staged by {whose} and {who} tried to supersede it — a non-human actor may only retire its own reading with a newer one"

/-! ## Speaking for somebody else -/

/-- Why a human may not accept a reading of their own staging. -/
def selfStagedReadingRefusal (actor : Actor) (proposalId : Option Id) (proposer : Option Proposer)
    (stagedBy : Actor) (attributedTo : List Id) : Option String :=
  match actor with
  | .human userId =>
    if stagedBy != .human userId then none
    else
      let who := actorName actor
      let cites := match proposalId with
        | none => "no proposal"
        | some id => s!"proposal \"{id}\""
      match proposer.filter proposerIsMachine with
      | some machine =>
        let machineName := proposerName machine
        some s!"{who} accepted {cites}, which they staged themselves as a reading by {machineName} — a human acceptance is the receipt for a machine's reading only when the person accepting is not the person who staged it; nobody validates their own attribution to a machine. It needs somebody else in the room to accept it, or a non-human acceptance, which is checked against the messages it cites"
      | none =>
        (attributedTo.find? fun named => named != userId).map fun named =>
          s!"{who} accepted {cites}, which they staged themselves and which puts user \"{named}\"'s name on it — nobody gets committed, or quoted, by someone else's sentence (#4), and a person confirming their own sentence is that sentence agreeing with itself. It waits for \"{named}\" — and if it names them as a commitment's owner, only \"{named}\" may confirm it (#67); a claim somebody else names, any other member may accept"
  | _ => none

/-- The user is not the actor. -/
def isForeign (actor : Actor) (userId : Id) : Bool := actor != .human userId

/-- Why a correction may not touch another's name. -/
def correctionAttributionRefusal (actor : Actor) (objectId : Id) (action : String)
    (before after : AcceptedObject) : Option String :=
  let who := actorName actor
  let namedBefore := payloadAttributions before.payload
  let namedAfter := payloadAttributions after.payload
  match namedAfter.find? fun userId => !namedBefore.contains userId && isForeign actor userId with
  | some gained =>
    some s!"{who} applied \"{action}\" to object \"{objectId}\", putting user \"{gained}\"'s name on it — nobody gets committed, or quoted, by someone else's sentence (#4), and a correction is one person's act with no second party in it, so it may only put that person's own name on something. It waits for \"{gained}\" to take it, or retract this and stage a reading somebody else can accept"
  | none =>
    if objectStatement after = objectStatement before then none
    else
      (namedAfter.find? (isForeign actor)).map fun quoted =>
        s!"{who} applied \"{action}\" to object \"{objectId}\", rewording a sentence that stands under user \"{quoted}\"'s name — nobody gets committed, or quoted, by someone else's sentence (#4), and a correction is one person's act with no second party in it, so it may only reword a sentence that names nobody but that person. It waits for \"{quoted}\" to reword it, or retract this and stage a reading somebody else can accept"

/-- Why a human may not verify a claim. -/
def selfVerificationRefusal (actor : Actor) (claimant : Id) (stagedBy : Option Actor) :
    Option String :=
  let who := actorName actor
  match actor with
  | .human userId =>
    if userId = claimant then
      some s!"{who} would mark a claim verified that names them as its claimant — verification is a second pair of eyes (#68, #95), and the person a claim quotes may not be the one who vouches it is true: that is the sentence agreeing with itself. It waits for another member to verify it"
    else if stagedBy = some (.human userId) then
      some s!"{who} would mark a claim verified that they staged the reading of — verification is a second pair of eyes (#68, #95): the member who staged a reading may not be the one who confirms it true. It waits for another member to verify it"
    else none
  | _ => none

/-- Why a human may not accept a commitment. -/
def ownerConfirmRefusal (actor : Actor) (owner : Id) : Option String :=
  let who := actorName actor
  match actor with
  | .human userId =>
    if userId = owner then none
    else
      some s!"{who} accepted a commitment owned by user \"{owner}\", who is somebody else — a third-party commitment is confirmed by the person it names, not by any member on their behalf (#67, #95): nobody gets committed by someone else's sentence, and confirming for them is that same act one step removed. It waits for \"{owner}\" to confirm it, or a member may leave the reading staged for them"
  | _ => none

def Payload.verified : Payload → Bool
  | .claim p => p.verification == .verified
  | _ => false

def retractVerifiedClaimRefusal (actor : Actor) (object : AcceptedObject) : Option String :=
  let who := actorName actor
  if isHuman actor && object.payload.verified then
    some s!"{who} would withdraw a ✓ verified claim by retracting it — a claim a second, disinterested member vouched is true (#68, #95). Unmaking that verification is a judgement act, the mirror of the rule that a member may not retire a confirmed object by superseding it (#96), and it is not done by a silent withdrawal: the vouch stays on the record and is unmade in the open through a re-verification. A machine's unconfirmed reading (`~`) or an unverified object may still be removed"
  else none

/-- Why a human may not change a reading on acceptance. -/
def acceptanceAttributionRefusal (actor : Actor) (objectId proposalId : Id)
    (staged object : AcceptedObject) : Option String :=
  let who := actorName actor
  let namedStaged := payloadAttributions staged.payload
  let namedMinted := payloadAttributions object.payload
  if !isHuman actor then none
  else
    match namedMinted.find? fun userId =>
      !namedStaged.contains userId && isForeign actor userId with
    | some gained =>
      some s!"{who} accepted proposal \"{proposalId}\" but minted object \"{objectId}\" with user \"{gained}\"'s name on a sentence the staged reading did not carry — a human acceptance may fix a reading's wording, but nobody gets committed, or quoted, by someone else's sentence (#4, #81): it may mint only the accepter's own name. Accept it as staged, or stage a reading \"{gained}\" can accept"
    | none =>
      if objectStatement object = objectStatement staged then none
      else
        (namedMinted.find? (isForeign actor)).map fun quoted =>
          s!"{who} accepted proposal \"{proposalId}\" but minted object \"{objectId}\" restating a sentence that stands under user \"{quoted}\"'s name — a human acceptance may fix a reading's wording only when it names nobody but the accepter; nobody gets quoted by someone else's sentence (#4, #81). Accept it as staged, or stage a reading \"{quoted}\" can accept"

/-! ## The receipt of a non-human acceptance -/

def confidenceFloorRefusal (actor : Actor) (type : AcceptedObjectType) (proposalId : Id)
    (confidence : Js.Number) : String :=
  let who := actorName actor
  let floor := floorText type
  s!"{who} accepted {type.name} proposal \"{proposalId}\" at confidence {confidence.text}, below the floor of {floor} for that type — a non-human actor may not mint an object from a reading it does not stand behind; propose it and let a human accept"

def uncertifiedTypeRefusal (actor : Actor) (type : AcceptedObjectType) (subject : String) :
    String :=
  let a := article actor
  s!"{subject} was accepted as a {type.name} by {a} {actor.kind} actor, and the quoted words read as something somebody is undertaking to do as easily as something they are asserting — a receipt proves who wrote a sentence, not what kind of act it was, so which of the two this is is the proposal's own word; {a} {actor.kind} actor may propose it and let a person accept it as a {type.name} or as a commitment"

/-- The checks of a non-human acceptance. -/
inductive AcceptanceReceiptGate where
  | payloadBinding
  | provenanceBinding
  | missingReceiptContext
  | missingQuote
  | receiptFailed
  | receiptNotCertifiable
  | thirdPartyConfirm
  deriving DecidableEq, Repr

structure AcceptanceReceiptRefusal where
  gate : AcceptanceReceiptGate
  detail : String

variable [Unicode]

/-- Why a window cannot be checked against, if it cannot. -/
def missingWindow (messages : Option (List ProvenanceMessage)) : Option String :=
  match messages with
  | none => some "no message window supplied"
  | some [] => some "an empty message window supplied"
  | some window =>
    if window.any fun message => hasContent (some message.text) then none
    else
      let plural := if window.length = 1 then "" else "s"
      some s!"a message window of {window.length} message{plural} with nothing in any of their bodies"

/-- The person a non-human acceptance puts a sentence on. -/
def Payload.attributedTo : Payload → Option Id
  | .claim p => some p.claimant
  | .commitment p => some p.owner
  | _ => none

def problemDetails (problems : List ProvenanceProblem) : String :=
  Js.join "; " (problems.map fun problem => problem.detail)

/-- The receipt a proposal puts forward for an object, as `validateProposalProvenance` takes it. -/
def receiptSubject (proposal : StoredProposal) (object : AcceptedObject) : ProvenanceSubject where
  type := proposal.type
  provenance := proposal.provenance
  quote := proposal.quote.map String.toList
  proposer := some proposal.proposer
  attributedTo := object.payload.attributedTo
  statement := some (objectStatement object).toList

/-- The first check that a non-human acceptance fails. -/
def acceptanceReceiptRefusal (actor : Actor) (proposalId : Id) (proposal : StoredProposal)
    (object : AcceptedObject) (messages : Option (List ProvenanceMessage)) :
    Option AcceptanceReceiptRefusal :=
  let who := actorName actor
  let objectCites := Js.sort object.provenance.messageIds
  let proposalCites := Js.sort proposal.provenance
  if object.payload != proposal.payload then
    some ⟨.payloadBinding,
      s!"object \"{object.id}\" cites proposal \"{proposalId}\" but does not carry its payload — {who} may only accept the reading that was staged, not mint a different one behind a citation that says a person could have checked it"⟩
  else if objectCites != proposalCites then
    let objectList := Js.join ", " objectCites
    let proposalList := Js.join ", " proposalCites
    some ⟨.provenanceBinding,
      s!"object \"{object.id}\" cites messages [{objectList}] but proposal \"{proposalId}\" was staged against [{proposalList}] — the receipt may not change on the way through acceptance; it is what the attribution rules are computed over"⟩
  else
    match missingWindow messages with
    | some how =>
      some ⟨.missingReceiptContext,
        s!"{who} accepted proposal \"{proposalId}\" with {how}, so its receipt could not be checked — a reading whose citation cannot be verified is refused, never accepted on trust; a window with no words in it is not a window, it is the same absence written differently"⟩
    | none =>
      if isBlank (proposal.quote.map String.toList) then
        some ⟨.missingQuote,
          s!"{who} accepted {object.type.name} proposal \"{proposalId}\", which quotes nothing — a receipt names the sentence it rests on and only the quote identifies it, so a model-minted {object.type.name} with an absent or empty quote is refused rather than resting on whoever happens to be in the citation list"⟩
      else
        let problems := validateProposalProvenance (receiptSubject proposal object)
          (messages.getD []) receiptPolicy
        let rejecting := rejectingProblems problems
        let referring := referringProblems problems
        let rejectingText := problemDetails rejecting
        let referringText := problemDetails referring
        if !rejecting.isEmpty then
          some ⟨.receiptFailed,
            s!"{who} accepted proposal \"{proposalId}\" on a receipt that does not hold: {rejectingText}"⟩
        else if !referring.isEmpty then
          some ⟨.receiptNotCertifiable,
            s!"{who} accepted proposal \"{proposalId}\" on a receipt this check declines to rule on: {referringText}"⟩
        else
          (problems.find? fun problem => problem.kind == .attributedPersonNotAuthor).map
            fun thirdParty =>
              ⟨.thirdPartyConfirm,
                s!"{who} accepted proposal \"{proposalId}\" as a commitment for somebody who did not write it: {thirdParty.detail}. Nobody gets committed by someone else's sentence (#4) — it waits for the named owner to confirm, and only a human acceptance can carry that confirmation"⟩

end Core
