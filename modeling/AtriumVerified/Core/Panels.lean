import AtriumVerified.Core.AttentionSources

/-!
# Panels over whole runs

A panel is the stored list of attention items. Every cycle of the projection is reconciled with the
panel the cycle before left, so what is asked of reconciliation is asked of whole sequences of cycles.
-/

namespace Core

def UniqueIds (panel : List AttentionItem) : Prop := (panel.map AttentionItem.id).Nodup

def AttentionProjection.ids (cycle : AttentionProjection) : List Id :=
  cycle.items.map fun entry => entry.id

/-- The panel a cycle leaves, as the next one reads it. -/
def panelAfter (stored : List AttentionItem) (cycle : AttentionProjection) : List AttentionItem :=
  (reconcileAttention stored cycle).map ComputedAttentionItem.toAttentionItem

/-- The panel after the first `n` cycles. -/
def panelAt (stored : List AttentionItem) (cycles : List AttentionProjection) (n : Nat) :
    List AttentionItem :=
  (cycles.take n).foldl panelAfter stored

/-- What reconciliation owes a panel over a whole sequence of cycles. -/
structure Reconciled (stored : List AttentionItem) (cycles : List AttentionProjection) : Prop where
  unique : ∀ n, UniqueIds (panelAt stored cycles n)
  /-- No id is ever lost. -/
  keeps : ∀ m n, m ≤ n → ∀ held ∈ panelAt stored cycles m,
    ∃ later ∈ panelAt stored cycles n, later.id = held.id
  /-- No computed id is ever lost. -/
  raises : ∀ m n cycle, cycles[m]? = some cycle → m < n → ∀ id ∈ cycle.ids,
    ∃ later ∈ panelAt stored cycles n, later.id = id
  /-- A settled item never changes its status again. -/
  settled : ∀ m n, m ≤ n → ∀ held ∈ panelAt stored cycles m, held.status ≠ .pending →
    ∀ later ∈ panelAt stored cycles n, later.id = held.id → later.status = held.status
  /-- A pending item is resolved only by a cycle that examined its subject and did not raise it. -/
  concluded : ∀ n cycle, cycles[n]? = some cycle → ∀ held ∈ panelAt stored cycles n,
    held.status = .pending → ∀ later ∈ panelAt stored cycles (n + 1), later.id = held.id →
      later.status = .resolved → held.subject ∈ cycle.examined ∧ held.id ∉ cycle.ids
  /-- The same cycle once more changes nothing. -/
  again : ∀ n cycle, cycles[n]? = some cycle →
    reconcileAttention (panelAt stored cycles (n + 1)) cycle =
      reconcileAttention (panelAt stored cycles n) cycle

/-! ## Needs that come back -/

/-- The person an item is for, and what it is about. -/
structure Concern where
  userId : Id
  subjectKind : AttentionSubjectKind
  subjectId : Id
  deriving DecidableEq, Repr

def AttentionItem.concern (entry : AttentionItem) : Concern :=
  ⟨entry.userId, entry.subjectKind, entry.objectId⟩

def SettledIn (panel : List AttentionItem) (id : Id) : Prop :=
  ∃ previous, storedById panel id = some previous ∧ previous.status ≠ .pending

/-- A pending item for a person about a subject stands in the panel. -/
def Owed (panel : List AttentionItem) (concern : Concern) : Prop :=
  ∃ entry ∈ panel, entry.status = .pending ∧ entry.concern = concern

/-- A cycle that `projectAttention` computed. -/
def Projected [Unicode] (cycle : AttentionProjection) : Prop :=
  ∃ state ctx, projectAttention state ctx = .ok cycle

/-- Cycle `m` resolved a pending item, and the later cycle `n` computes a need for the same person
about the same subject. -/
structure Reraised (stored : List AttentionItem) (cycles : List AttentionProjection) (m n : Nat)
    (entry : AttentionItem) (cycle : AttentionProjection) : Prop where
  later : m < n
  held : entry ∈ panelAt stored cycles m
  pending : entry.status = .pending
  resolved : ∃ done ∈ panelAt stored cycles (m + 1), done.id = entry.id ∧ done.status = .resolved
  offered : cycles[n]? = some cycle
  raised : ∃ need ∈ cycle.items, need.concern = entry.concern

/-- The cycle raises a need of that concern under an id that is not settled in the panel, or the
panel holds a pending item of that concern which the cycle neither raises nor examined. -/
def Unsettled (panel : List AttentionItem) (cycle : AttentionProjection) (concern : Concern) : Prop :=
  (∃ need ∈ cycle.items, need.concern = concern ∧ ¬ SettledIn panel need.id) ∨
    ∃ held ∈ panel, held.status = .pending ∧ held.concern = concern ∧ held.id ∉ cycle.ids ∧
      held.subject ∉ cycle.examined

/-! ## Windows that lose messages -/

def Misses (window : List ProvenanceMessage) (proposal : StoredProposal) : Prop :=
  ∃ id ∈ proposal.provenance, messageById window id = none

variable [Unicode]

structure RaisedFor (record : ProposalRecord) (ctx : AttentionContext) (entry : AttentionItem) :
    Prop where
  pending : entry.status = .pending
  raised : ∃ source, proposalSource record ctx = .ok source ∧
    ∃ need ∈ source.items, need.id = entry.id ∧ (item need).subject = entry.subject

/-- What is left of the window contradicts a machine's reading: one author bears the quote in it, and
the message taken to bear it has not all the Markdown of the statement. -/
structure Discredited (proposal : StoredProposal) (window : List ProvenanceMessage) : Prop where
  machine : proposerIsMachine proposal.proposer = true
  worded : absentWindow (some window) = none
  /-- The quote stands in the whole text of a cited message. -/
  standing : ∃ cited ∈ citedMessages proposal.provenance window,
    Js.includes (normalizeForReceipt cited.text)
      (normalizeForReceipt (proposalSubject proposal).trimmedQuote) = true
  contradicted : ∃ message, bearingOf (bearingMessages (proposalSubject proposal).trimmedQuote
      (citedMessages proposal.provenance window)) = some message ∧
    (addedLinkStructure message.text proposal.payload.text.toList ≠ [] ∨
      addedBlockStructure message.text proposal.payload.text.toList ≠ []) ∧
    -- A claim that somebody else made is refused for that, which is said of the window.
    (proposal.type = .claim → ∀ claimant, (proposalSubject proposal).attributed = some claimant →
      message.authorId = claimant)

end Core
