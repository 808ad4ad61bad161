import AtriumVerified.Core.Proofs.BlindProofs

/-!
# No open proposal falls silent

Every pass over a proposal that is still staged ends with an item, a refusal or an examination, and
`projectAttention` keeps what its passes said.
-/

namespace Core

/-! ## What is heard of a proposal -/

def AttentionProjection.Raises (cycle : AttentionProjection) (proposalId : Id) : Prop :=
  ∃ entry ∈ cycle.items, entry.subjectKind = .proposal ∧ entry.objectId = proposalId ∧
    producerOf entry.reason = .stagedProposal

def AttentionProjection.Refuses (cycle : AttentionProjection) (proposalId : Id) : Prop :=
  ∃ refusal ∈ cycle.refusals, refusal.proposalId = proposalId

def AttentionProjection.Examines (cycle : AttentionProjection) (proposalId : Id) : Prop :=
  ∃ seen ∈ cycle.examined, seen.subjectKind = .proposal ∧ seen.subjectId = proposalId ∧
    seen.producer = .stagedProposal

section Passes

variable {proposal : StoredProposal} {ctx : AttentionContext} {items : List Need}

structure MadeOf (proposal : StoredProposal) (need : Need) : Prop where
  kind : need.subjectKind = .proposal
  subject : need.objectId = proposal.id
  producer : producerOf need.reason = .stagedProposal
  urgent : need.priority < 5

def AskedAbout (proposal : StoredProposal) (items : List Need) : Prop :=
  items ≠ [] ∧ ∀ need ∈ items, MadeOf proposal need

theorem askedAbout_of_raised {needs : List Need} {reason : String}
    (hneeds : ∀ need ∈ needs, MadeOf proposal need) (h : raiseOrRefuse needs reason = .raise items) :
    AskedAbout proposal items := by
  unfold raiseOrRefuse at h
  split at h
  · cases h
  · next hsome =>
    cases h
    exact ⟨fun hnil => hsome (List.isEmpty_iff.mpr hnil), hneeds⟩

theorem decisionNeeds_about (audience : List Id) {reason : RationaleReason}
    (hreason : producerOf reason = .stagedProposal) :
    ∀ need ∈ audience.map (decisionNeed ctx proposal reason), MadeOf proposal need := by
  intro need hneed
  obtain ⟨userId, -, rfl⟩ := List.mem_map.mp hneed
  exact ⟨rfl, rfl, hreason, Nat.zero_lt_succ 4⟩

theorem readingReviewOutcome_asks (h : readingReviewOutcome proposal ctx = .ok (.raise items)) :
    AskedAbout proposal items := by
  unfold readingReviewOutcome at h
  dsimp only at h
  split at h
  · cases h
  · obtain ⟨room, -, h⟩ := Except.bind_ok h
    exact askedAbout_of_raised (decisionNeeds_about room rfl) (Except.ok.inj h)

variable [Unicode]

theorem needsYouAmong_askedAbout {room : List Id} {verdict : AcceptanceDecision}
    (h : needsYouAmong room proposal verdict ctx = .raise items) : AskedAbout proposal items := by
  unfold needsYouAmong at h
  dsimp only at h
  split at h
  · exact askedAbout_of_raised (decisionNeeds_about _ rfl) h
  · next payload _ =>
    refine askedAbout_of_raised ?_ h
    intro need hneed
    split at hneed
    · obtain rfl := List.mem_singleton.mp hneed
      refine ⟨rfl, rfl, ?_, show 3 < 5 by decide⟩
      unfold confirmNeed
      dsimp only
      split <;> rfl
    · cases hneed
  · split at h
    · cases h
    · exact askedAbout_of_raised (decisionNeeds_about room rfl) h

/-- What a pass over a proposal says: whatever the verdict it says something, and when the verdict is
that the proposal needs a person it asks somebody or says why it does not. -/
structure Heard (proposal : StoredProposal) (verdict : AcceptanceDecision)
    (source : AttentionSource) : Prop where
  items : ∀ need ∈ source.items, MadeOf proposal need
  refusals : ∀ refusal ∈ source.refusals, refusal.proposalId = proposal.id
  speaks : source.items ≠ [] ∨ source.refusals ≠ [] ∨
    ⟨classOf proposal.type, .proposal, proposal.id, .stagedProposal⟩ ∈ source.examined
  asks : verdict.visibility = .needsYou → source.items ≠ [] ∨ source.refusals ≠ []

omit [Unicode] in
theorem heard_refusal (proposal : StoredProposal) (verdict : AcceptanceDecision) (reason : String) :
    Heard proposal verdict ⟨[], [⟨proposal.id, reason⟩], []⟩ where
  items _ hneed := nomatch hneed
  refusals refusal hrefusal := by
    rw [List.mem_singleton.mp hrefusal]
  speaks := .inr (.inl (List.cons_ne_nil _ _))
  asks _ := .inr (List.cons_ne_nil _ _)

theorem heard_judged {verdict : AcceptanceDecision} {source : AttentionSource}
    (h : judgedSource proposal verdict ctx = .ok source) : Heard proposal verdict source := by
  unfold judgedSource at h
  dsimp only at h
  split at h
  · cases h
    exact heard_refusal _ _ _
  · split at h
    · cases h
      exact heard_refusal _ _ _
    · split at h
      · obtain ⟨outcome, houtcome, h⟩ := Except.bind_ok h
        cases outcome with
        | refuse reason =>
          cases h
          exact heard_refusal _ _ _
        | raise items =>
          cases h
          obtain ⟨hsome, habout⟩ := readingReviewOutcome_asks houtcome
          refine ⟨habout, ?_, .inl hsome, fun _ => .inl hsome⟩
          intro refusal hrefusal
          rw [List.mem_singleton.mp hrefusal]
      · split at h
        · next hquiet =>
          cases h
          exact ⟨fun _ hneed => (nomatch hneed), fun _ hrefusal => (nomatch hrefusal),
            .inr (.inr (List.mem_singleton.mpr rfl)), fun hasks => absurd hasks hquiet⟩
        · obtain ⟨outcome, houtcome, h⟩ := Except.bind_ok h
          cases outcome with
          | refuse reason =>
            cases h
            exact heard_refusal _ _ _
          | raise items =>
            cases h
            obtain ⟨room, -, hamong⟩ := Except.bind_ok houtcome
            obtain ⟨hsome, habout⟩ := needsYouAmong_askedAbout (Except.ok.inj hamong)
            exact ⟨habout, fun _ hrefusal => (nomatch hrefusal), .inl hsome, fun _ => .inl hsome⟩

end Passes

/-! ## The whole projection -/

section Cycle

variable [Unicode] {state : CoreState} {ctx : AttentionContext} {cycle : AttentionProjection}

/-- The cycle has what the pass over a record said. -/
theorem heard_of_projected {proposalId : Id} {record : ProposalRecord}
    (hrecord : state.proposal? proposalId = some record) (hstatus : record.status = .proposed)
    (h : projectAttention state ctx = .ok cycle) :
    ∃ source, Heard record.proposal (verdictOn record.proposal ctx) source ∧
      (∀ need ∈ source.items, item need ∈ cycle.items) ∧
      (∀ refusal ∈ source.refusals, refusal ∈ cycle.refusals) ∧
      ∀ seen ∈ source.examined, seen ∈ cycle.examined := by
  obtain ⟨proposals, hproposals, h⟩ := Except.bind_ok h
  obtain ⟨questions, -, h⟩ := Except.bind_ok h
  cases h
  obtain ⟨sources, hsources, hgathered⟩ := Except.bind_ok hproposals
  cases hgathered
  have hlisted : record ∈ (Js.sort state.proposals.keys).filterMap state.proposal? := by
    refine List.mem_filterMap.mpr ⟨proposalId, ?_, hrecord⟩
    rw [(Js.sort_perm _).mem_iff, Js.PlainObject.mem_keys]
    exact Option.isSome_iff_exists.mpr ⟨record, hrecord⟩
  obtain ⟨source, hsource, hpass⟩ := (Except.mem_of_mapM hsources).2 record hlisted
  rw [proposalSource_proposed hstatus] at hpass
  refine ⟨source, heard_judged hpass, ?_, ?_, ?_⟩
  · intro need hneed
    refine mem_sortAttention.mpr (List.mem_map_of_mem ?_)
    exact List.mem_flatMap.mpr ⟨_, List.mem_cons_self, List.mem_flatMap.mpr ⟨source, hsource, hneed⟩⟩
  · intro refusal hrefusal
    exact List.mem_flatMap.mpr
      ⟨_, List.mem_cons_self, List.mem_flatMap.mpr ⟨source, hsource, hrefusal⟩⟩
  · intro seen hseen
    exact List.mem_flatMap.mpr ⟨_, List.mem_cons_self, List.mem_flatMap.mpr ⟨source, hsource, hseen⟩⟩

/-- The rosters can be read: no room without a roster is called like a property of
`Object.prototype`. -/
def RostersRead (ctx : AttentionContext) : Prop :=
  ∀ roomId, ∃ room, rosterOf ctx roomId = .ok room

omit [Unicode] in
theorem exists_readingReviewOutcome (hread : RostersRead ctx) (proposal : StoredProposal) :
    ∃ outcome, readingReviewOutcome proposal ctx = .ok outcome := by
  obtain ⟨room, hroom⟩ := hread proposal.roomId
  unfold readingReviewOutcome
  dsimp only
  rw [hroom]
  split
  · exact ⟨_, rfl⟩
  · exact ⟨_, rfl⟩

theorem exists_judgedSource (hread : RostersRead ctx) (proposal : StoredProposal)
    (verdict : AcceptanceDecision) : ∃ source, judgedSource proposal verdict ctx = .ok source := by
  obtain ⟨review, hreview⟩ := exists_readingReviewOutcome hread proposal
  obtain ⟨room, hroom⟩ := hread proposal.roomId
  have houtcome : needsYouOutcome proposal verdict ctx =
      .ok (needsYouAmong room proposal verdict ctx) := by
    unfold needsYouOutcome
    rw [hroom]
    rfl
  unfold judgedSource
  dsimp only
  rw [hreview, houtcome]
  split
  · exact ⟨_, rfl⟩
  · split
    · exact ⟨_, rfl⟩
    · split
      · cases review with
        | raise items => exact ⟨_, rfl⟩
        | refuse reason => exact ⟨_, rfl⟩
      · split
        · exact ⟨_, rfl⟩
        · cases needsYouAmong room proposal verdict ctx with
          | raise items => exact ⟨_, rfl⟩
          | refuse reason => exact ⟨_, rfl⟩

omit [Unicode] in
theorem exists_blockedNeeds (hread : RostersRead ctx) (state : CoreState) (relation : Relation) :
    ∃ needs, blockedNeeds state ctx relation = .ok needs := by
  unfold blockedNeeds
  dsimp only
  split
  · next question _ _ _ _ _ =>
    obtain ⟨room, hroom⟩ := hread question.object.roomId
    split
    · exact ⟨_, rfl⟩
    · rw [hroom]
      exact ⟨_, rfl⟩
    · exact ⟨_, rfl⟩
  · exact ⟨_, rfl⟩

theorem exists_projectAttention (hread : RostersRead ctx) (state : CoreState) :
    ∃ cycle, projectAttention state ctx = .ok cycle := by
  have hpass (record : ProposalRecord) : ∃ source, proposalSource record ctx = .ok source := by
    unfold proposalSource
    split
    · exact ⟨_, rfl⟩
    · exact exists_judgedSource hread _ _
  obtain ⟨sources, hsources⟩ := Except.exists_mapM_ok
    (l := (Js.sort state.proposals.keys).filterMap state.proposal?) fun record _ => hpass record
  obtain ⟨blocking, hblocking⟩ := Except.exists_mapM_ok
    (l := state.relations.mergeSort fun a b => Js.compare a.id b.id != .gt)
    fun relation _ => exists_blockedNeeds hread state relation
  unfold projectAttention proposalItems blockingQuestionItems
  dsimp only
  rw [hsources, hblocking]
  exact ⟨_, rfl⟩

end Cycle

/-- Every proposal that is still staged is heard of in every cycle: by an item, a refusal or an
examination, and by one of the first two when its verdict needs a person. The cycle is there when the
rosters can be read. -/
theorem no_open_proposal_silent [Unicode] :
    (∀ state ctx, RostersRead ctx → ∃ cycle, projectAttention state ctx = .ok cycle) ∧
    ∀ (state : CoreState) (ctx : AttentionContext) (cycle : AttentionProjection),
      Reached anyEvent state → projectAttention state ctx = .ok cycle →
      ∀ proposalId record, state.proposal? proposalId = some record → record.status = .proposed →
        (cycle.Raises proposalId ∨ cycle.Refuses proposalId ∨ cycle.Examines proposalId) ∧
        ((verdictOn record.proposal ctx).visibility = .needsYou →
          cycle.Raises proposalId ∨ cycle.Refuses proposalId) := by
  refine ⟨fun state ctx hread => exists_projectAttention hread state, ?_⟩
  intro state ctx cycle hreached hcycle proposalId record hrecord hstatus
  obtain ⟨log, hlog⟩ := hreached.exists_log
  have hid : record.proposal.id = proposalId := (hlog.recorded.proposals proposalId record hrecord).2.1
  obtain ⟨source, hheard, hitems, hrefusals, hexamined⟩ := heard_of_projected hrecord hstatus hcycle
  have hraises (hsome : source.items ≠ []) : cycle.Raises proposalId := by
    obtain ⟨need, hneed⟩ := List.exists_mem_of_ne_nil _ hsome
    have hmade := hheard.items need hneed
    exact ⟨item need, hitems need hneed, hmade.kind, hmade.subject.trans hid, hmade.producer⟩
  have hrefuses (hsome : source.refusals ≠ []) : cycle.Refuses proposalId := by
    obtain ⟨refusal, hrefusal⟩ := List.exists_mem_of_ne_nil _ hsome
    exact ⟨refusal, hrefusals refusal hrefusal, (hheard.refusals refusal hrefusal).trans hid⟩
  constructor
  · rcases hheard.speaks with hsome | hsome | hseen
    · exact .inl (hraises hsome)
    · exact .inr (.inl (hrefuses hsome))
    · exact .inr (.inr ⟨_, hexamined _ hseen, rfl, hid, rfl⟩)
  · intro hasks
    exact (hheard.asks hasks).imp hraises hrefuses

theorem rostersRead_plain : RostersRead plainContext := fun _ => ⟨[], rfl⟩

/-- A decision nobody is named on, in a room without a roster. -/
theorem staged_decision_heard : ∃ cycle,
    @projectAttention Unicode.ascii (@offerAll Unicode.ascii stagedDecision) plainContext = .ok cycle ∧
      (cycle.Raises "p" ∨ cycle.Refuses "p") := by
  let _ : Unicode := Unicode.ascii
  have hreached : Reached anyEvent (offerAll stagedDecision) :=
    reached_offerAll fun _ _ _ => trivial
  obtain ⟨cycle, hcycle⟩ := no_open_proposal_silent.1 (offerAll stagedDecision) plainContext
    rostersRead_plain
  have hstaged : (((offerAll stagedDecision).proposal? "p").any fun record =>
      record.status == .proposed &&
        (verdictOn record.proposal plainContext).visibility == .needsYou) = true := by
    decide +kernel
  obtain ⟨record, hrecord, hrest⟩ := (Option.any_eq_true _ _).mp hstaged
  obtain ⟨hstatus, hverdict⟩ := Bool.and_eq_true_iff.mp hrest
  exact ⟨cycle, hcycle, (no_open_proposal_silent.2 _ _ cycle hreached hcycle "p" record hrecord
    (eq_of_beq hstatus)).2 (eq_of_beq hverdict)⟩

end Core
