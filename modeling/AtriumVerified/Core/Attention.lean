import AtriumVerified.Core.Objects

/-!
# Attention items

The model of the reconciling half of `packages/core/src/attention.ts`: what an attention item is, how
its id is made, which half of a projection raised it, and how a freshly computed list is folded
against the stored one.
-/

namespace Core

inductive AttentionClass where
  | needsDecision
  | ownedCommitment
  | mention
  | blockingQuestion
  deriving DecidableEq, Repr

def AttentionClass.name : AttentionClass → String
  | .needsDecision => "needs_decision"
  | .ownedCommitment => "owned_commitment"
  | .mention => "mention"
  | .blockingQuestion => "blocking_question"

inductive AttentionStatus where
  | pending
  | resolved
  | dismissed
  deriving DecidableEq, Repr

inductive AttentionSubjectKind where
  | object
  | proposal
  | message
  | session
  deriving DecidableEq, Repr

def AttentionSubjectKind.name : AttentionSubjectKind → String
  | .object => "object"
  | .proposal => "proposal"
  | .message => "message"
  | .session => "session"

inductive RationaleReason where
  | decisionPending (statement : String) (assigned : Bool)
  | commitmentOverdue (statement : String) (due now : Timestamp)
  | commitmentOpen (statement : String) (due : Option Timestamp)
  | commitmentConfirm (statement : String)
  | commitmentSelfStated (statement : String)
  | questionBlocksCommitment (question commitment : String)
  | questionBlocksObjective (question objective : String)
  | questionNamesYou (question : String)
  | mention (request : String)
  | subscriptionExpired (source matcher : String) (expiresAt : Timestamp)
  | readingPending (statement : String) (proposedType : AcceptedObjectType)
  | receiptReview (statement : String) (proposedType : AcceptedObjectType)
  deriving DecidableEq, Repr

/-! ## Ids -/

/-- `value.replace(/c/g, text)`. -/
def replaceChar (c : Char) (text : String) (value : List Char) : List Char :=
  value.flatMap fun d => if d = c then text.toList else [d]

def escapeIdPart (value : String) : String :=
  String.ofList (replaceChar ':' "%3A" (replaceChar '%' "%25" value.toList))

/-- `attentionItemId`, whose class is any text. -/
def attentionIdText (userId : Id) (subjectKind : AttentionSubjectKind) (subjectId : Id)
    (cls : String) : Id :=
  "attn:" ++ escapeIdPart userId ++ ":" ++ subjectKind.name ++ ":" ++ escapeIdPart subjectId ++
    ":" ++ cls

/-- `attentionItemId`, on the classes of items. -/
def attentionItemId (userId : Id) (subjectKind : AttentionSubjectKind) (subjectId : Id)
    (cls : AttentionClass) : Id :=
  "attn:" ++ escapeIdPart userId ++ ":" ++ subjectKind.name ++ ":" ++ escapeIdPart subjectId ++
    ":" ++ cls.name

structure AttentionItem where
  id : Id
  roomId : Id
  userId : Id
  /-- The subject: an object, a proposal, a message or a session. -/
  objectId : Id
  subjectKind : AttentionSubjectKind
  cls : AttentionClass
  reason : RationaleReason
  status : AttentionStatus
  createdAt : Timestamp
  deriving DecidableEq, Repr

/-- The id is the one the item's own fields make. -/
def AttentionItem.Named (item : AttentionItem) : Prop :=
  item.id = attentionItemId item.userId item.subjectKind item.objectId item.cls

/-! ## Priority -/

def fallbackPriority : AttentionClass → Nat
  | .needsDecision => 0
  | .ownedCommitment => 4
  | .blockingQuestion => 2
  | .mention => 5

structure ComputedAttentionItem extends AttentionItem where
  priority : Nat
  deriving DecidableEq, Repr

/-- The order of `sortAttention`. -/
def compareAttention (a b : ComputedAttentionItem) : Ordering :=
  if a.priority ≠ b.priority then compare a.priority b.priority
  else if a.createdAt ≠ b.createdAt then if Js.lt a.createdAt b.createdAt then .lt else .gt
  else if a.userId ≠ b.userId then if Js.lt a.userId b.userId then .lt else .gt
  else Js.compare a.id b.id

/-- `sortAttention`, on items that have their priority. -/
def sortAttention (items : List ComputedAttentionItem) : List ComputedAttentionItem :=
  items.mergeSort fun a b => compareAttention a b != .gt

/-! ## Producers -/

inductive AttentionProducer where
  | stagedProposal
  | openCommitment
  | blockingRelation
  | namedQuestion
  | mentionSignal
  | subscriptionSignal
  deriving DecidableEq, Repr

def AttentionProducer.name : AttentionProducer → String
  | .stagedProposal => "staged_proposal"
  | .openCommitment => "open_commitment"
  | .blockingRelation => "blocking_relation"
  | .namedQuestion => "named_question"
  | .mentionSignal => "mention_signal"
  | .subscriptionSignal => "subscription_signal"

def producerOf : RationaleReason → AttentionProducer
  | .decisionPending _ _ | .commitmentConfirm _ | .commitmentSelfStated _ | .readingPending _ _
  | .receiptReview _ _ => .stagedProposal
  | .commitmentOverdue _ _ _ | .commitmentOpen _ _ => .openCommitment
  | .questionBlocksCommitment _ _ | .questionBlocksObjective _ _ => .blockingRelation
  | .questionNamesYou _ => .namedQuestion
  | .mention _ => .mentionSignal
  | .subscriptionExpired _ _ _ => .subscriptionSignal

structure ExaminedSubject where
  cls : AttentionClass
  subjectKind : AttentionSubjectKind
  subjectId : Id
  producer : AttentionProducer
  deriving DecidableEq, Repr

def examinedKey (entry : ExaminedSubject) : String :=
  entry.cls.name ++ ":" ++ entry.subjectKind.name ++ ":" ++ escapeIdPart entry.subjectId ++ ":" ++
    entry.producer.name

structure AttentionRefusal where
  proposalId : Id
  reason : String
  deriving DecidableEq, Repr

/-- `AttentionProjection`: every source makes the id of an item out of its fields. -/
structure AttentionProjection where
  items : List ComputedAttentionItem
  refusals : List AttentionRefusal
  examined : List ExaminedSubject
  named : ∀ item ∈ items, item.toAttentionItem.Named

/-! ## Reconciling -/

/-- `new Map(stored.map((entry) => [entry.id, entry])).get(id)`. -/
def storedById (stored : List AttentionItem) (id : Id) : Option AttentionItem :=
  stored.reverse.find? fun entry => entry.id == id

def keepStatus (stored : List AttentionItem) (entry : ComputedAttentionItem) :
    ComputedAttentionItem :=
  match storedById stored entry.id with
  | some previous => { entry with status := previous.status }
  | none => entry

def AttentionItem.subject (entry : AttentionItem) : ExaminedSubject :=
  ⟨entry.cls, entry.subjectKind, entry.objectId, producerOf entry.reason⟩

/-- A stored item that is no longer computed: done if the cycle examined its subject. -/
def concludeStored (cycle : AttentionProjection) (entry : AttentionItem) : ComputedAttentionItem :=
  let concluded := (cycle.examined.map examinedKey).contains (examinedKey entry.subject)
  { entry with
    status := if entry.status = .pending ∧ concluded then .resolved else entry.status
    priority := fallbackPriority entry.cls }

def reconcileAttention (stored : List AttentionItem) (cycle : AttentionProjection) :
    List ComputedAttentionItem :=
  let computedIds := cycle.items.map fun entry => entry.id
  sortAttention (cycle.items.map (keepStatus stored) ++
    (stored.filter fun entry => !computedIds.contains entry.id).map (concludeStored cycle))

end Core
