import AtriumVerified.Core.Receipt
import AtriumVerified.Core.State

/-!
# The acceptance engine

The model of `decideAcceptance` in `packages/core/src/acceptance.ts` and of the configuration it reads
(`AcceptanceConfig` in `policy.ts`): what becomes of a staged reading, who is shown it, and which rule
said so.
-/

namespace Core

/-! ## The configuration -/

structure AcceptanceRule where
  thetaAuto : Js.Number
  thetaMin : Js.Number
  autoAccept : Bool
  deriving DecidableEq, Repr

/-- `z.number().min(0).max(1)`. -/
def inUnit (theta : Js.Number) : Bool :=
  Js.Number.le (Js.Number.ofInt 0) theta && Js.Number.le theta (Js.Number.ofInt 1)

/-- What the schema of `AcceptanceConfig` asks of the rule of a type. -/
structure AcceptanceRule.Admitted (type : AcceptedObjectType) (rule : AcceptanceRule) : Prop where
  autoInUnit : inUnit rule.thetaAuto
  minInUnit : inUnit rule.thetaMin
  /-- The pending band is not inverted. -/
  ordered : ¬ Js.Number.lt rule.thetaAuto rule.thetaMin
  /-- No type is switched on that is off by default. -/
  mayAutoAccept : rule.autoAccept → autoAcceptable type
  /-- The engine may be stricter than the floor of the reducer, never looser. -/
  aboveFloor : rule.autoAccept → ∀ floor, modelAcceptanceFloor type = some floor →
    ¬ Js.Number.lt rule.thetaAuto floor

/-- `AcceptanceConfig`: a table that parsed. -/
structure AcceptanceConfig where
  rules : AcceptedObjectType → AcceptanceRule
  admitted : ∀ type, (rules type).Admitted type

/-- `DEFAULT_ACCEPTANCE_RULES[type].thetaMin`. -/
def thetaMin : AcceptedObjectType → Js.Number
  | .decision => ⟨5, 1⟩
  | .commitment => ⟨5, 1⟩
  | .openQuestion => ⟨4, 1⟩
  | .claim => ⟨5, 1⟩
  | .objective => ⟨5, 1⟩

def defaultAcceptanceRules (type : AcceptedObjectType) : AcceptanceRule :=
  ⟨thetaAuto type, thetaMin type, autoAcceptable type⟩

def defaultAcceptanceConfig : AcceptanceConfig where
  rules := defaultAcceptanceRules
  admitted type := by
    constructor
    · cases type <;> decide
    · cases type <;> decide
    · cases type <;> decide
    · exact id
    · intro hauto floor hfloor
      have hsame : floor = thetaAuto type := by
        have hon : autoAcceptable type = true := hauto
        unfold modelAcceptanceFloor at hfloor
        rw [if_pos hon] at hfloor
        exact (Option.some.inj hfloor).symm
      rw [hsame]
      cases type <;> decide

/-! ## Verdicts -/

inductive CommitmentAttribution where
  | self
  | thirdParty
  deriving DecidableEq, Repr

inductive AcceptanceVerdict where
  | autoAccept
  | pending
  | discard
  deriving DecidableEq, Repr

inductive AcceptanceVisibility where
  | accepted
  | quiet
  | needsYou
  | none
  deriving DecidableEq, Repr

inductive AcceptanceRuleName where
  | missingMessageContext
  | provenanceFailed
  | receiptNotCertifiable
  | duplicateOfAccepted
  | belowThetaMin
  | thetaBand
  | autoAccept
  | neverAutoAccepts
  | typeNotCertified
  | thirdPartyCommitment
  | humanProposer
  deriving DecidableEq, Repr

def AcceptanceRuleName.name : AcceptanceRuleName → String
  | .missingMessageContext => "missing_message_context"
  | .provenanceFailed => "provenance_failed"
  | .receiptNotCertifiable => "receipt_not_certifiable"
  | .duplicateOfAccepted => "duplicate_of_accepted"
  | .belowThetaMin => "below_theta_min"
  | .thetaBand => "theta_band"
  | .autoAccept => "auto_accept"
  | .neverAutoAccepts => "never_auto_accepts"
  | .typeNotCertified => "type_not_certified"
  | .thirdPartyCommitment => "third_party_commitment"
  | .humanProposer => "human_proposer"

structure AcceptanceDecision where
  verdict : AcceptanceVerdict
  visibility : AcceptanceVisibility
  awaitingConfirmFrom : Option Id
  rule : AcceptanceRuleName
  reason : String
  thetaAuto : Js.Number
  autoAcceptAvailable : Bool
  thetaMin : Js.Number
  attribution : Option CommitmentAttribution
  duplicateOf : Option Id
  about : ProblemSubject
  deriving DecidableEq, Repr

/-! ## Duplicates -/

structure AcceptedObjectRef where
  objectId : Id
  payload : Payload
  messageIds : List Id
  retractedAt : Option Timestamp
  supersededById : Option Id
  deriving DecidableEq, Repr

/-- `payload[key] ?? null`: every field of a payload is a text or `null`. -/
def Payload.field? (payload : Payload) (key : String) : Option String :=
  payload.fields.findSome? fun entry =>
    match entry.2 with
    | .string text => if entry.1 = key then some text else none
    | _ => none

/-- `payloadsMatch`: every field but the sentence is the same. -/
def payloadsMatch (type : AcceptedObjectType) (a b : Payload) : Bool :=
  let keys := (a.fields ++ b.fields).map Prod.fst
  keys.all fun key => key == textField type || a.field? key == b.field? key

section Engine

variable [Unicode]

def findDuplicate (payload : Payload) (messageIds : List Id) (accepted : List AcceptedObjectRef) :
    Option AcceptedObjectRef :=
  let wanted := orderedTokens payload.text.toList
  if wanted.isEmpty then none
  else accepted.find? fun candidate =>
    let tokensHeld := orderedTokens candidate.payload.text.toList
    candidate.payload.type == payload.type && candidate.retractedAt.isNone &&
      candidate.supersededById.isNone && (candidate.messageIds.any fun id => messageIds.contains id) &&
      !tokensHeld.isEmpty && (alignTokens tokensHeld wanted receiptPolicy).borne &&
      payloadsMatch payload.type candidate.payload payload

/-! ## The engine -/

structure AcceptanceContext where
  config : Option AcceptanceConfig
  messages : Option (List ProvenanceMessage)
  acceptedObjects : Option (List AcceptedObjectRef)

def payloadAttributedTo (payload : Payload) : Option Id := (payloadAttributions payload).head?

def bearingMessage (quote : Text) (messages : List ProvenanceMessage) : Option ProvenanceMessage :=
  let borne := bearingMessages quote messages
  if (authorsOf borne).length = 1 then borne.head? else none

def commitmentAttribution (owner : Id) (citedMessageIds : List Id)
    (messages : Option (List ProvenanceMessage)) (quote : Option Text) : CommitmentAttribution :=
  let window := messages.getD []
  if !(window.any fun message => hasContent (some message.text)) then .thirdParty
  else if !hasContent quote then .thirdParty
  else
    let cited := window.filter fun message => citedMessageIds.contains message.id
    match bearingMessage (quote.getD []) cited with
    | some bearing => if bearing.authorId = owner then .self else .thirdParty
    | none => .thirdParty

def isAboutTheWindow (problems : List ProvenanceProblem) : Bool :=
  problems.any fun problem => problem.about == .theWindow

/-- Why a machine's reading has no window to be checked against, if it has none. -/
def absentWindow (messages : Option (List ProvenanceMessage)) : Option String :=
  match messages with
  | none =>
    some "no message window was supplied, so the receipt could not be checked — a machine reading is never accepted on trust; supply the messages it cites"
  | some [] =>
    some "an empty message window was supplied, so the receipt could not be checked — an empty window is not a window; a machine reading is never accepted on trust"
  | some window =>
    if window.any fun message => hasContent (some message.text) then none
    else
      let plural := if window.length = 1 then "" else "s"
      some s!"a message window of {window.length} message{plural} was supplied and not one of them has any words in it, so the receipt could not be checked — a window with nothing in it is not a window; a machine reading is never accepted on trust"

/-- The receipt of a proposal, as `validateProposalProvenance` takes it. -/
def proposalSubject (proposal : StoredProposal) : ProvenanceSubject where
  type := proposal.type
  provenance := proposal.provenance
  quote := proposal.quote.map String.toList
  proposer := some proposal.proposer
  attributedTo := payloadAttributedTo proposal.payload
  statement := some proposal.payload.text.toList

/-- The problems of a proposal's receipt; a window without messages has nothing to check against. -/
def proposalProblems (proposal : StoredProposal) (messages : Option (List ProvenanceMessage)) :
    List ProvenanceProblem :=
  match messages with
  | some (first :: rest) =>
    validateProposalProvenance (proposalSubject proposal) (first :: rest) receiptPolicy
  | _ => []

/-- The part of `decideAcceptance` behind the receipt: the bar, then the type. -/
def decideReading (proposal : StoredProposal) (rule : AcceptanceRule) (base : AcceptanceDecision) :
    AcceptanceDecision :=
  let type := proposal.type.name
  let confidence := proposal.confidence.text
  let thetaMinText := rule.thetaMin.text
  let thetaAutoText := rule.thetaAuto.text
  let attributedTo := payloadAttributedTo proposal.payload
  let owner := attributedTo.getD "null"
  if Js.Number.lt proposal.confidence rule.thetaMin then
    { base with
      verdict := .discard, visibility := .none, rule := .belowThetaMin
      reason := s!"confidence {confidence} is below θ_min {thetaMinText} for {type} — discarded rather than shown; an unconvincing \"~\" still costs someone's attention, and its receipt held, so nothing is being thrown away except a weak reading" }
  else if Js.Number.lt proposal.confidence rule.thetaAuto then
    { base with
      verdict := .pending, visibility := .quiet, rule := .thetaBand
      reason := s!"confidence {confidence} is between θ_min {thetaMinText} and θ_auto {thetaAutoText} for {type} — shown quietly in current state as unconfirmed, never in Needs-you unless it blocks something" }
  else if proposal.type == .commitment && base.attribution == some .thirdParty then
    { base with
      verdict := .pending, visibility := .needsYou, rule := .thirdPartyCommitment
      awaitingConfirmFrom := attributedTo
      reason := s!"\"{owner}\" is named as owner but did not write the message this was read out of — surfaced to them to confirm, and accepted only on that confirm; nobody gets committed by someone else's sentence (#4)" }
  else if !rule.autoAccept then
    { base with
      verdict := .pending, visibility := .needsYou, rule := .neverAutoAccepts
      reason := s!"a {type} never auto-accepts at any confidence (#4) — at {confidence} the pass is confident, so it goes to Needs-you for a person to accept or decline; the room's current state is unsettled until somebody rules on it" }
  else if !typeCertifiableFromText proposal.type
      (normalizeForReceipt proposal.payload.text.toList) then
    { base with
      verdict := .pending, visibility := .needsYou, rule := .typeNotCertified
      reason := s!"the quoted words read as something somebody is undertaking to do as easily as something they are asserting, and a receipt proves who wrote a sentence rather than what kind of act it was — filed as a {type} it would be accepted on the proposal's own word for the one thing the record cannot settle, so at {confidence} it goes to Needs-you with its quote for a person to accept or decline" }
  else
    { base with
      verdict := .autoAccept, visibility := .accepted, rule := .autoAccept
      reason := s!"confidence {confidence} is at or above θ_auto {thetaAutoText} for {type} — accepted as \"~\"; nothing model-accepted renders as a fact" }

/-- What a person's own staging comes to: it waits for the room, or for the owner it names. -/
def decideHumanStaging (proposal : StoredProposal) (staged : Id) (base : AcceptanceDecision) :
    AcceptanceDecision :=
  let named := (payloadAttributedTo proposal.payload).filter fun userId =>
    proposal.type == .commitment && userId != staged
  { base with
    verdict := .pending, visibility := .needsYou, rule := .humanProposer
    attribution :=
      if proposal.type = .commitment then some (if named.isSome then .thirdParty else .self) else none
    awaitingConfirmFrom := named
    reason := match named with
      | some owner =>
        s!"staged by user \"{staged}\", who named \"{owner}\" as owner — it waits for \"{owner}\" to confirm; nobody gets committed by someone else's sentence (#4), whoever wrote it"
      | none =>
        s!"staged by user \"{staged}\" — a person's reading goes to the room to be accepted, not through θ" }

def decideAcceptance (proposal : StoredProposal) (context : AcceptanceContext) :
    AcceptanceDecision :=
  let rule := (context.config.getD defaultAcceptanceConfig).rules proposal.type
  -- Every branch sets the verdict, the visibility, the rule and the reason.
  let base : AcceptanceDecision :=
    { verdict := .discard, visibility := .none, awaitingConfirmFrom := none
      rule := .missingMessageContext, reason := "", thetaAuto := rule.thetaAuto
      autoAcceptAvailable := rule.autoAccept, thetaMin := rule.thetaMin, attribution := none
      duplicateOf := none, about := .theReading }
  match (absentWindow context.messages).filter fun _ => proposerIsMachine proposal.proposer with
  | some reason =>
    { base with
      about := .theWindow, verdict := .discard, visibility := .none
      rule := .missingMessageContext, reason }
  | none =>
    let problems := proposalProblems proposal context.messages
    let rejecting := rejectingProblems problems
    let referring := referringProblems problems
    let rejectingText := Js.join "; " (rejecting.map fun problem => problem.detail)
    let referringText := Js.join "; " (referring.map fun problem => problem.detail)
    let aboutOf (found : List ProvenanceProblem) : ProblemSubject :=
      if isAboutTheWindow found then .theWindow else .theReading
    if !rejecting.isEmpty then
      { base with
        about := aboutOf rejecting, verdict := .discard, visibility := .none
        rule := .provenanceFailed, reason := s!"demoted below θ_min: {rejectingText}" }
    else
      let attribution :=
        if proposal.type = .commitment then
          some (commitmentAttribution ((payloadAttributedTo proposal.payload).getD "")
            proposal.provenance context.messages (proposal.quote.map String.toList))
        else none
      if !referring.isEmpty then
        { base with
          about := aboutOf referring, attribution, verdict := .pending, visibility := .quiet
          rule := .receiptNotCertifiable
          reason := s!"not accepted on a machine's word, and not thrown away: {referringText}" }
      else
        match context.acceptedObjects.bind (findDuplicate proposal.payload proposal.provenance) with
        | some duplicate =>
          { base with
            attribution, verdict := .discard, visibility := .none, rule := .duplicateOfAccepted
            duplicateOf := some duplicate.objectId
            reason := s!"the room already accepted \"{duplicate.objectId}\" from the same messages, saying the same thing" }
        | none =>
          match proposal.proposer with
          | .human staged => decideHumanStaging proposal staged base
          | _ => decideReading proposal rule { base with attribution }

end Engine

/-! ## Acting on a verdict -/

def proposingActor : Proposer → Actor
  | .model model => .model model
  | .human userId => .human userId
  | .agent userId => .agent userId

/-- The object accepts the proposal as it was staged: its payload and its receipt, in its room and
under no objective. -/
structure AcceptsAsStaged (proposalId : Id) (proposal : StoredProposal) (object : AcceptedObject) :
    Prop where
  cites : object.provenance.proposalId = some proposalId
  payload : object.payload = proposal.payload
  messageIds : object.provenance.messageIds = proposal.provenance
  roomId : object.roomId = proposal.roomId
  unfiled : object.objectiveId = none

end Core
