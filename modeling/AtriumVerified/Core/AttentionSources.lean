import AtriumVerified.Core.Acceptance
import AtriumVerified.Core.Attention
import AtriumVerified.Core.Reduce

/-!
# The attention projection

The model of the computing half of `packages/core/src/attention.ts`: the four sources of
`projectAttention`, what each of them raises, which proposals it declines to judge, and about which
subjects it reached a conclusion. Spreading the roster of a room raises when the room is called like
a property of `Object.prototype`; nothing else in the projection does.
-/

namespace Core

open Js (PlainObject)

/-! ## What a source produces -/

/-- The argument of `item`, without the id, which every source makes of the other fields. -/
structure Need where
  roomId : Id
  userId : Id
  objectId : Id
  subjectKind : AttentionSubjectKind
  cls : AttentionClass
  priority : Nat
  createdAt : Timestamp
  reason : RationaleReason
  deriving DecidableEq, Repr

def Need.id (need : Need) : Id :=
  attentionItemId need.userId need.subjectKind need.objectId need.cls

def item (need : Need) : ComputedAttentionItem where
  id := need.id
  roomId := need.roomId
  userId := need.userId
  objectId := need.objectId
  subjectKind := need.subjectKind
  cls := need.cls
  reason := need.reason
  status := .pending
  createdAt := need.createdAt
  priority := need.priority

structure AttentionSource where
  items : List Need
  refusals : List AttentionRefusal
  examined : List ExaminedSubject
  deriving DecidableEq, Repr

/-- `sources.flatMap(…)`, field by field. -/
def AttentionSource.gather (sources : List AttentionSource) : AttentionSource where
  items := sources.flatMap AttentionSource.items
  refusals := sources.flatMap AttentionSource.refusals
  examined := sources.flatMap AttentionSource.examined

/-- The first need of every id (`seen`). -/
def firstById (needs : List Need) : List Need :=
  needs.foldl (fun out need => if out.any fun held => held.id == need.id then out else out ++ [need])
    []

structure MentionSignal where
  roomId : Id
  subjectKind : Option AttentionSubjectKind
  objectId : Id
  userId : Id
  request : String
  deriving DecidableEq, Repr

structure QuestionMentionSignal where
  questionObjectId : Id
  userId : Id
  deriving DecidableEq, Repr

structure AttentionContext where
  now : Timestamp
  /-- Room membership, room by room. -/
  members : Option (PlainObject (List Id))
  messages : Option (List ProvenanceMessage)
  config : Option AcceptanceConfig
  mentions : List MentionSignal
  questionMentions : List QuestionMentionSignal

/-- `[...(ctx.members?.[roomId] ?? [])].sort()`. -/
def rosterOf (ctx : AttentionContext) (roomId : Id) : Except TypeError (List Id) :=
  match ctx.members with
  | none => .ok []
  | some members =>
    match members.get roomId with
    | .own roster => .ok (Js.sort roster)
    | .inherited => .error ⟨"Symbol.iterator"⟩
    | .absent => .ok []

def isLive (record : ObjectRecord) : Bool :=
  record.retractedAt.isNone && record.supersededById.isNone

/-! ## Staged proposals -/

inductive NeedsYouOutcome where
  | raise (items : List Need)
  | refuse (reason : String)
  deriving DecidableEq, Repr

def raiseOrRefuse (items : List Need) (reasonIfNobody : String) : NeedsYouOutcome :=
  if items.isEmpty then .refuse reasonIfNobody else .raise items

def classOf (type : AcceptedObjectType) : AttentionClass :=
  if type = .commitment then .ownedCommitment else .needsDecision

def conclude (proposal : StoredProposal) : List ExaminedSubject :=
  [⟨classOf proposal.type, .proposal, proposal.id, .stagedProposal⟩]

def concludeReview (proposal : StoredProposal) : List ExaminedSubject :=
  if classOf proposal.type = .needsDecision then []
  else [⟨.needsDecision, .proposal, proposal.id, .stagedProposal⟩]

def concludeSettled (proposal : StoredProposal) : List ExaminedSubject :=
  conclude proposal ++ concludeReview proposal

/-- A need about a proposal that goes to one person, who decides what the words were. -/
def decisionNeed (ctx : AttentionContext) (proposal : StoredProposal) (reason : RationaleReason)
    (userId : Id) : Need where
  roomId := proposal.roomId
  userId := userId
  objectId := proposal.id
  subjectKind := .proposal
  cls := .needsDecision
  priority := 0
  createdAt := ctx.now
  reason := reason

/-- A need about a proposal that goes to the owner it names. -/
def confirmNeed (ctx : AttentionContext) (proposal : StoredProposal) (reason : RationaleReason)
    (owner : Id) : Need where
  roomId := proposal.roomId
  userId := owner
  objectId := proposal.id
  subjectKind := .proposal
  cls := .ownedCommitment
  priority := 3
  createdAt := ctx.now
  reason := reason

def readingReviewOutcome (proposal : StoredProposal) (ctx : AttentionContext) :
    Except TypeError NeedsYouOutcome := do
  let type := proposal.type.name
  let reviewStatement := proposal.payload.text
  let shown := clip reviewStatement.toList 140
  if reviewStatement.isEmpty then
    return .refuse s!"a {type} reading needs human review, but its payload carries no text — there is nothing honest to put in front of a person"
  else
    let room ← rosterOf ctx proposal.roomId
    return raiseOrRefuse
      (room.map (decisionNeed ctx proposal (.receiptReview reviewStatement proposal.type)))
      s!"a machine staged this {type} reading for human review, but no member list was supplied for room \"{proposal.roomId}\" — nobody can be asked to inspect it: \"{shown}\""

section Proposals

variable [Unicode]

/-- `needsYouOutcome`, once the roster of the room was read. -/
def needsYouAmong (room : List Id) (proposal : StoredProposal) (verdict : AcceptanceDecision)
    (ctx : AttentionContext) : NeedsYouOutcome :=
  let type := proposal.type.name
  let statement := proposal.payload.text
  let shown := clip statement.toList 140
  match proposal.payload with
  | .decision payload =>
    let audience := match payload.decidedBy with
      | some named => [named]
      | none => room
    raiseOrRefuse
      (audience.map (decisionNeed ctx proposal
        (.decisionPending payload.statement payload.decidedBy.isSome)))
      s!"nobody is named as having decided this and no member list was supplied for room \"{proposal.roomId}\", so there is no one to put it in front of — a decision is never accepted by inference, so it stays staged until somebody is asked: \"{shown}\""
  | .commitment payload =>
    let owner := verdict.awaitingConfirmFrom.getD payload.owner
    let reason : RationaleReason :=
      if verdict.awaitingConfirmFrom.isSome then .commitmentConfirm payload.statement
      else .commitmentSelfStated payload.statement
    raiseOrRefuse
      (if hasContent (some owner.toList) then [confirmNeed ctx proposal reason owner] else [])
      s!"no owner is named on this commitment, so there is nobody who can confirm or decline it — nobody gets committed by someone else's sentence, and nobody can be asked about one that names no one: \"{shown}\""
  | _ =>
    if statement.isEmpty then
      .refuse s!"a {type} was staged for a person to rule on, but its payload carries no text — there is nothing to show anybody, and an attention item that cannot quote what it is about is not one"
    else
      raiseOrRefuse
        (room.map (decisionNeed ctx proposal (.readingPending statement proposal.type)))
        s!"a machine read this as a {type} and nothing in the words settles that it was one, so it is staged rather than accepted — but no member list was supplied for room \"{proposal.roomId}\", so there is nobody to put it in front of: \"{shown}\""

def needsYouOutcome (proposal : StoredProposal) (verdict : AcceptanceDecision)
    (ctx : AttentionContext) : Except TypeError NeedsYouOutcome := do
  let room ← rosterOf ctx proposal.roomId
  return needsYouAmong room proposal verdict ctx

/-- What one staged proposal raises after its verdict, in the order the loop of `proposalItems` asks. -/
def judgedSource (proposal : StoredProposal) (verdict : AcceptanceDecision)
    (ctx : AttentionContext) : Except TypeError AttentionSource :=
  let refusal (reason : String) : AttentionSource := ⟨[], [⟨proposal.id, reason⟩], []⟩
  let rule := verdict.rule.name
  if verdict.rule = .missingMessageContext then
    .ok (refusal "no message window was supplied, so this proposal could not be judged — raising it anyway would ask somebody to confirm a commitment nobody can show they were named in")
  else if verdict.about = .theWindow then
    .ok (refusal s!"the bounded window did not establish a conclusion about this proposal, so the verdict that came back ({rule}) is a fact about the window rather than about the reading and nothing here judged the proposal: {verdict.reason}")
  else if verdict.rule = .receiptNotCertifiable then do
    match ← readingReviewOutcome proposal ctx with
    | .raise items =>
      return ⟨items, [⟨proposal.id, verdict.reason⟩], conclude proposal ++ concludeReview proposal⟩
    | .refuse reason => return refusal s!"{verdict.reason}; {reason}"
  else if verdict.visibility ≠ .needsYou then .ok ⟨[], [], conclude proposal⟩
  else do
    match ← needsYouOutcome proposal verdict ctx with
    | .refuse reason => return refusal reason
    | .raise items => return ⟨items, [], conclude proposal ++ concludeReview proposal⟩

/-- How `proposalItems` has a proposal judged. -/
def verdictOn (proposal : StoredProposal) (ctx : AttentionContext) : AcceptanceDecision :=
  decideAcceptance proposal ⟨ctx.config, ctx.messages, none⟩

/-- The body of the loop of `proposalItems`. -/
def proposalSource (record : ProposalRecord) (ctx : AttentionContext) :
    Except TypeError AttentionSource :=
  if record.status ≠ .proposed then .ok ⟨[], [], concludeSettled record.proposal⟩
  else judgedSource record.proposal (verdictOn record.proposal ctx) ctx

def proposalItems (state : CoreState) (ctx : AttentionContext) : Except TypeError AttentionSource := do
  let records := (Js.sort state.proposals.keys).filterMap state.proposal?
  let sources ← records.mapM fun record => proposalSource record ctx
  return .gather sources

end Proposals

/-! ## Commitments -/

def commitmentNeed (ctx : AttentionContext) (record : ObjectRecord) : Option Need :=
  match record.object.payload with
  | .commitment payload =>
    if isLive record && payload.status == .open then
      let late := payload.due.filter fun due => Js.lt due ctx.now
      some {
        roomId := record.object.roomId
        userId := payload.owner
        objectId := record.object.id
        subjectKind := .object
        cls := .ownedCommitment
        priority := if late.isSome then 1 else 4
        createdAt := ctx.now
        reason := match late with
          | some due => .commitmentOverdue payload.statement due ctx.now
          | none => .commitmentOpen payload.statement payload.due }
    else none
  | _ => none

def commitmentItems (state : CoreState) (ctx : AttentionContext) : AttentionSource :=
  let ids := Js.sort state.objects.keys
  { items := (ids.filterMap state.object?).filterMap (commitmentNeed ctx)
    refusals := []
    examined := ids.map fun subjectId => ⟨.ownedCommitment, .object, subjectId, .openCommitment⟩ }

/-! ## Blocking questions -/

/-- `openQuestion`: the record of a live open question, with its text. -/
def openQuestionAt (state : CoreState) (id : Id) : Option (ObjectRecord × String) :=
  match state.object? id with
  | none => none
  | some record =>
    match record.object.payload with
    | .openQuestion payload =>
      if isLive record && payload.status == .open then some (record, payload.question) else none
    | _ => none

/-- The need of one person about an open question. -/
def questionNeed (ctx : AttentionContext) (question : ObjectRecord) (reason : RationaleReason)
    (userId : Id) : Need where
  roomId := question.object.roomId
  userId := userId
  objectId := question.object.id
  subjectKind := .object
  cls := .blockingQuestion
  priority := 2
  createdAt := ctx.now
  reason := reason

def compareQuestionMention (a b : QuestionMentionSignal) : Ordering :=
  if a.questionObjectId ≠ b.questionObjectId then
    if Js.lt a.questionObjectId b.questionObjectId then .lt else .gt
  else Js.compare a.userId b.userId

def namedQuestionNeeds (state : CoreState) (ctx : AttentionContext) : List Need :=
  let signals := ctx.questionMentions.mergeSort fun a b => compareQuestionMention a b != .gt
  signals.filterMap fun signal =>
    (openQuestionAt state signal.questionObjectId).map fun (question, text) =>
      questionNeed ctx question (.questionNamesYou text) signal.userId

/-- The needs one `blocks` relation raises. -/
def blockedNeeds (state : CoreState) (ctx : AttentionContext) (relation : Relation) :
    Except TypeError (List Need) :=
  let blocked := relation.target.objectId?.bind fun id => (state.object? id).filter isLive
  let question := openQuestionAt state relation.fromObjectId
  match relation.kind, question, blocked with
  | .blocks, some (question, text), some blocked =>
    match blocked.object.payload with
    | .commitment payload =>
      .ok [questionNeed ctx question (.questionBlocksCommitment text payload.statement)
        payload.owner]
    | .objective payload => do
      let room ← rosterOf ctx question.object.roomId
      return room.map (questionNeed ctx question (.questionBlocksObjective text payload.title))
    | _ => .ok []
  | _, _, _ => .ok []

/-- What `blockingQuestionItems` says it examined. -/
def questionsExamined (state : CoreState) : List ExaminedSubject :=
  (Js.sort state.objects.keys).flatMap fun subjectId =>
    ⟨.blockingQuestion, .object, subjectId, .blockingRelation⟩ ::
      (if (openQuestionAt state subjectId).isNone then
        [⟨.blockingQuestion, .object, subjectId, .namedQuestion⟩]
      else [])

def blockingQuestionItems (state : CoreState) (ctx : AttentionContext) :
    Except TypeError AttentionSource := do
  let relations := state.relations.mergeSort fun a b => Js.compare a.id b.id != .gt
  let blocking ← relations.mapM (blockedNeeds state ctx)
  return {
    items := firstById (namedQuestionNeeds state ctx ++ blocking.flatten)
    refusals := []
    examined := questionsExamined state }

/-! ## Mentions -/

/-- The order in which `mentionItems` reads its signals. -/
def compareMention (a b : MentionSignal) : Ordering :=
  if a.objectId ≠ b.objectId then if Js.lt a.objectId b.objectId then .lt else .gt
  else if a.userId ≠ b.userId then if Js.lt a.userId b.userId then .lt else .gt
  else Js.compare a.request b.request

def mentionNeed (ctx : AttentionContext) (signal : MentionSignal) : Need where
  roomId := signal.roomId
  userId := signal.userId
  objectId := signal.objectId
  subjectKind := signal.subjectKind.getD .object
  cls := .mention
  priority := 5
  createdAt := ctx.now
  reason := .mention signal.request

/-- `mentionItems`: a source that reads signals concludes about nothing. -/
def mentionItems (ctx : AttentionContext) : AttentionSource :=
  let signals := ctx.mentions.mergeSort fun a b => compareMention a b != .gt
  ⟨firstById (signals.map (mentionNeed ctx)), [], []⟩

/-! ## The projection -/

theorem named_of_mem_sort {needs : List Need} {entry : ComputedAttentionItem}
    (h : entry ∈ sortAttention (needs.map item)) : entry.toAttentionItem.Named := by
  unfold sortAttention at h
  rw [List.mem_mergeSort, List.mem_map] at h
  obtain ⟨need, -, rfl⟩ := h
  rfl

variable [Unicode]

def projectAttention (state : CoreState) (ctx : AttentionContext) :
    Except TypeError AttentionProjection := do
  let proposals ← proposalItems state ctx
  let questions ← blockingQuestionItems state ctx
  let all := AttentionSource.gather
    [proposals, commitmentItems state ctx, questions, mentionItems ctx]
  return {
    items := sortAttention (all.items.map item)
    refusals := all.refusals
    examined := all.examined
    named := fun _ hentry => named_of_mem_sort hentry }

end Core
