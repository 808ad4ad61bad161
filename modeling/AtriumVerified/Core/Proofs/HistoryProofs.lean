import Mathlib.Data.List.Infix
import AtriumVerified.Core.History
import AtriumVerified.Core.Proofs.LifecycleProofs

/-!
# What a run keeps

`Touched` says what one applied event can make of one record, together with what the correction log
says about it. Everything the history of an object is made of follows from it, event by event.
-/

namespace Core

open Checked Js
open CoreState (fail)

/-! ## One record under one event -/

section Records

variable {state next : CoreState} {entry : AuthoredEvent} {id : Id}
  {before after : ObjectRecord} {news : List CorrectionRecord}

/-- What an applied event can make of the record of an object, with the correction records of the
object that it leaves. -/
inductive Touched [Unicode] (state : CoreState) (entry : AuthoredEvent) (id : Id) (before : ObjectRecord) :
    ObjectRecord → List CorrectionRecord → Prop
  | repointed {after : ObjectRecord} (hrepointed : Repointed before after) :
      Touched state entry id before after []
  | answered {payload : OpenQuestionPayload}
      (hpayload : before.object.payload = .openQuestion payload) :
      Touched state entry id before
        { before with
          object := { before.object with
            payload := .openQuestion { payload with status := .answered }
            updatedAt := entry.event.at_ }
          updatedAt := entry.event.at_ } []
  | corrected {correction : ObjectCorrected} {planned committed : CorrectionPlan}
      {after : ObjectRecord} (hbody : entry.event.body = .objectCorrected correction)
      (hid : correction.objectId = id) (hhuman : isHuman entry.trusted.actor = true)
      (hplan : planCorrection state correction entry.event.at_ before = .ok (.plan planned))
      (hcheck : checkPlan state correction before entry.trusted.actor planned = .ok committed)
      (hrepointed :
        Repointed (correctedRecord before entry.event.at_ entry.trusted.actor committed) after) :
      Touched state entry id before after
        [correctionRecord entry.event.id correction entry.event.at_ before entry.trusted.actor
          committed]

theorem Touched.untouched [Unicode] (state : CoreState) (entry : AuthoredEvent) (id : Id)
    (before : ObjectRecord) : Touched state entry id before before [] :=
  .repointed (Repointed.refl before)

theorem commitPlan_corrections {eventId : Id} {correction : ObjectCorrected} {at_ : Timestamp}
    {record : ObjectRecord} {actor : Actor} {plan : CorrectionPlan} :
    (commitPlan state eventId correction at_ record actor plan).corrections =
      state.corrections ++ [correctionRecord eventId correction at_ record actor plan] := by
  rw [commitPlan_frame]

theorem commitRelation_corrections {at_ : Timestamp} {relation : Relation} {ends : Endpoints} :
    (commitRelation state at_ relation ends).corrections = state.corrections := by
  rw [commitRelation_frame]

theorem commitPlan_issues {eventId : Id} {correction : ObjectCorrected} {at_ : Timestamp}
    {record : ObjectRecord} {actor : Actor} {plan : CorrectionPlan} :
    (commitPlan state eventId correction at_ record actor plan).issues = state.issues := by
  rw [commitPlan_frame]

theorem commitRelation_issues {at_ : Timestamp} {relation : Relation} {ends : Endpoints} :
    (commitRelation state at_ relation ends).issues = state.issues := by
  rw [commitRelation_frame]

theorem correctionsOf_congr (h : next.corrections = state.corrections) (id : Id) :
    correctionsOf next id = correctionsOf state id := by
  unfold correctionsOf
  rw [h]

theorem commitPlan_correctionsOf {correction : ObjectCorrected} {record : ObjectRecord}
    (eventId : Id) (at_ : Timestamp) (actor : Actor) (plan : CorrectionPlan) (hk : Keyed state)
    (hown : state.object? correction.objectId = some record) (id : Id) :
    correctionsOf (commitPlan state eventId correction at_ record actor plan) id =
      correctionsOf state id ++
        if correction.objectId = id then [correctionRecord eventId correction at_ record actor plan]
        else [] := by
  have hnamed : record.object.id = correction.objectId := hk _ _ hown
  unfold correctionsOf
  rw [commitPlan_corrections, List.filter_append]
  simp only [List.filter_cons, List.filter_nil, correctionRecord, hnamed, beq_iff_eq]

variable [Unicode]

/-- Every record that was there is there after an event, and what became of it is `Touched`. -/
theorem Applied.touched (h : Applied state entry next) (hk : Keyed state)
    (hown : state.object? id = some before) :
    ∃ after news, next.object? id = some after ∧
      correctionsOf next id = correctionsOf state id ++ news ∧
      Touched state entry id before after news := by
  have hsame : ∀ {unmoved : CoreState}, unmoved.objects = state.objects →
      unmoved.corrections = state.corrections →
      ∃ after news, unmoved.object? id = some after ∧
        correctionsOf unmoved id = correctionsOf state id ++ news ∧
        Touched state entry id before after news := by
    intro unmoved hobjects hcorrections
    refine ⟨before, [], ?_, ?_, Touched.untouched state entry id before⟩
    · unfold CoreState.object?
      rw [hobjects]
      exact hown
    · rw [correctionsOf_congr hcorrections, List.append_nil]
  cases h with
  | recorded hbody hfree hnoted => exact hsame hnoted.1 hnoted.2.2.2
  | rejected hbody hheld hmatch hopen => exact hsame rfl rfl
  | superseded hbody hheld hmatch hopen hreplacement => exact hsame rfl rfl
  | unchanged hbody hhuman => exact hsame rfl rfl
  | accepted hbody hfree hcheck =>
    refine ⟨before, [], ?_, ?_, Touched.untouched state entry id before⟩
    · rw [commitAcceptance_object? hfree, if_neg]
      · exact hown
      · rintro rfl
        rw [PlainObject.get_eq_own.mpr hown] at hfree
        cases hfree
    · rw [correctionsOf_congr commitAcceptance_corrections, List.append_nil]
  | @corrected correction record planned committed hbody hhuman hheld hplan hcheck =>
    have hrel := commitPlan_object? entry.event.id entry.event.at_ entry.trusted.actor committed
      hheld id
    have hlog := commitPlan_correctionsOf entry.event.id entry.event.at_ entry.trusted.actor
      committed hk hheld id
    by_cases hid : id = correction.objectId
    · subst hid
      rw [hheld] at hown
      cases hown
      rw [if_pos rfl] at hrel
      rw [if_pos rfl] at hlog
      obtain ⟨after, hafter, hrepointed⟩ := exists_of_rel hrel
      exact ⟨after, _, hafter, hlog, .corrected hbody rfl hhuman hplan hcheck hrepointed⟩
    · rw [if_neg hid, hown] at hrel
      rw [if_neg (Ne.symm hid)] at hlog
      obtain ⟨after, hafter, hrepointed⟩ := exists_of_rel hrel
      exact ⟨after, _, hafter, hlog, .repointed hrepointed⟩
  | @related relation ends hbody hcheck =>
    have hlog : correctionsOf (commitRelation state entry.event.at_ relation ends) id =
        correctionsOf state id ++ [] := by
      rw [correctionsOf_congr commitRelation_corrections, List.append_nil]
    rcases commitRelation_cases entry.event.at_ hcheck with
      ⟨targetId, target, -, -, htarget, -, heq⟩ | ⟨payload, -, hsource, hpayload, -, -, -, heq⟩ |
      ⟨-, -, heq⟩
    · by_cases hid : id = targetId
      · subst hid
        obtain rfl : target = before := Option.some.inj (htarget.symm.trans hown)
        refine ⟨setSuperseded target (some relation.fromObjectId) entry.event.at_, [], ?_, hlog,
          .repointed (Or.inr ⟨_, _, rfl⟩)⟩
        rw [heq, object?_setObject (object?_ne_proto htarget), if_pos rfl]
      · refine ⟨before, [], ?_, hlog, Touched.untouched state entry id before⟩
        rw [heq, object?_setObject (object?_ne_proto htarget), if_neg hid]
        exact hown
    · by_cases hid : id = relation.fromObjectId
      · subst hid
        obtain rfl : ends.source = before := Option.some.inj (hsource.symm.trans hown)
        refine ⟨_, [], ?_, hlog, .answered hpayload⟩
        rw [heq, object?_setObject (object?_ne_proto hsource), if_pos rfl]
      · refine ⟨before, [], ?_, hlog, Touched.untouched state entry id before⟩
        rw [heq, object?_setObject (object?_ne_proto hsource), if_neg hid]
        exact hown
    · refine ⟨before, [], ?_, hlog, Touched.untouched state entry id before⟩
      rw [heq]
      exact hown

/-- A record that was not there before an event was accepted by it. -/
theorem Applied.minted (h : Applied state entry next) (hnone : state.object? id = none)
    (hsome : next.object? id = some after) :
    ∃ object proposal, entry.event.body = .objectAccepted object ∧ object.id = id ∧
      checkAcceptance state object entry.trusted.actor entry.trusted.messages = .ok proposal ∧
      after = freshRecord object entry.event.at_ entry.trusted.actor ∧
      next.corrections = state.corrections := by
  have hstill : ∀ {unmoved : CoreState}, unmoved.objects = state.objects →
      unmoved.object? id ≠ some after := by
    intro unmoved hobjects
    unfold CoreState.object? at hnone ⊢
    rw [hobjects, hnone]
    rintro ⟨⟩
  cases h with
  | recorded hbody hfree hnoted => exact absurd hsome (hstill hnoted.1)
  | rejected hbody hheld hmatch hopen => exact absurd hsome (hstill rfl)
  | superseded hbody hheld hmatch hopen hreplacement => exact absurd hsome (hstill rfl)
  | unchanged hbody hhuman => exact absurd hsome (hstill rfl)
  | @accepted object proposal hbody hfree hcheck =>
    rw [commitAcceptance_object? hfree] at hsome
    by_cases hid : id = object.id
    · rw [if_pos hid, Option.some.injEq] at hsome
      exact ⟨object, proposal, hbody, hid.symm, hcheck, hsome.symm, commitAcceptance_corrections⟩
    · rw [if_neg hid, hnone] at hsome
      cases hsome
  | corrected hbody hhuman hheld hplan hcheck =>
    obtain ⟨before, hbefore, -⟩ :=
      (commitPlan_carriedOver entry.event.id hheld hplan hcheck).back id after hsome
    rw [hnone] at hbefore
    cases hbefore
  | related hbody hcheck =>
    obtain ⟨before, hbefore, -⟩ :=
      (commitRelation_carriedOver entry.event.at_ hcheck).back id after hsome
    rw [hnone] at hbefore
    cases hbefore

end Records

/-! ## What stays -/

section Kept

variable {state next later : CoreState} {before after : ObjectRecord}

theorem SameOrigin.refl (record : ObjectRecord) : SameOrigin record record :=
  ⟨⟨rfl, rfl, rfl, rfl, rfl⟩, rfl, rfl⟩

theorem SameOrigin.trans {a b c : ObjectRecord} (h : SameOrigin a b) (h' : SameOrigin b c) :
    SameOrigin a c where
  envelope := by
    obtain ⟨hid, hroom, hprovenance, hobjective, hcreated⟩ := h.envelope
    obtain ⟨hid', hroom', hprovenance', hobjective', hcreated'⟩ := h'.envelope
    exact ⟨hid'.trans hid, hroom'.trans hroom, hprovenance'.trans hprovenance,
      hobjective'.trans hobjective, hcreated'.trans hcreated⟩
  acceptedAt := h'.acceptedAt.trans h.acceptedAt
  acceptedBy := h'.acceptedBy.trans h.acceptedBy

theorem Repointed.accounts (h : Repointed before after) :
    SameOrigin before after ∧ after.revision = before.revision ∧
      after.humanTouchedAt = before.humanTouchedAt := by
  rcases h with rfl | ⟨new, at_, rfl⟩
  · exact ⟨SameOrigin.refl after, rfl, rfl⟩
  · unfold setSuperseded
    split
    · exact ⟨⟨⟨rfl, rfl, rfl, rfl, rfl⟩, rfl, rfl⟩, rfl, rfl⟩
    · exact ⟨⟨⟨rfl, rfl, rfl, rfl, rfl⟩, rfl, rfl⟩, rfl, rfl⟩

theorem SameOrigin.of_envelope (h : SameEnvelope after.object before.object)
    (hat : after.acceptedAt = before.acceptedAt) (hby : after.acceptedBy = before.acceptedBy) :
    SameOrigin before after := by
  obtain ⟨hid, hroom, hobjective, hprovenance, hcreated⟩ := h
  exact ⟨⟨hid, hroom, hprovenance, hobjective, hcreated⟩, hat, hby⟩

theorem HistoryKept.refl (state : CoreState) : HistoryKept state state where
  objects _ record hrecord := ⟨record, hrecord, SameOrigin.refl record⟩
  proposals _ record hrecord := ⟨record, hrecord⟩
  relations := List.prefix_refl _
  corrections := List.prefix_refl _
  issues := List.prefix_refl _
  consumedEventIds := List.prefix_refl _

theorem HistoryKept.trans (h : HistoryKept state next) (h' : HistoryKept next later) :
    HistoryKept state later where
  objects id record hrecord := by
    obtain ⟨mid, hmid, horigin⟩ := h.objects id record hrecord
    obtain ⟨last, hlast, horigin'⟩ := h'.objects id mid hmid
    exact ⟨last, hlast, horigin.trans horigin'⟩
  proposals id record hrecord := by
    obtain ⟨mid, hmid⟩ := h.proposals id record hrecord
    exact h'.proposals id mid hmid
  relations := h.relations.trans h'.relations
  corrections := h.corrections.trans h'.corrections
  issues := h.issues.trans h'.issues
  consumedEventIds := h.consumedEventIds.trans h'.consumedEventIds

variable [Unicode] {entry : AuthoredEvent} {id : Id} {news : List CorrectionRecord}
  {outcome : EventOutcome}

/-- An event leaves an object its origin, and counts a correction of it once. -/
theorem Touched.accounts (h : Touched state entry id before after news) :
    SameOrigin before after ∧ after.revision = before.revision + news.length ∧
      (news = [] → after.humanTouchedAt = before.humanTouchedAt) ∧
      (news ≠ [] → after.humanTouchedAt.isSome = true) := by
  cases h with
  | repointed hrepointed =>
    obtain ⟨horigin, hrevision, htouched⟩ := hrepointed.accounts
    exact ⟨horigin, hrevision, fun _ => htouched, fun hnews => absurd rfl hnews⟩
  | answered hpayload =>
    exact ⟨⟨⟨rfl, rfl, rfl, rfl, rfl⟩, rfl, rfl⟩, rfl, fun _ => rfl, fun hnews => absurd rfl hnews⟩
  | @corrected correction planned committed after hbody hid hhuman hplan hcheck hrepointed =>
    obtain ⟨horigin, hrevision, htouched⟩ := hrepointed.accounts
    have henvelope : SameEnvelope committed.object before.object := by
      obtain ⟨⟨hid, hroom, hobjective, hprovenance, hcreated⟩, -⟩ := planCorrection_ok hplan
      rw [checkPlan_ok hcheck]
      obtain ⟨⟨hid', hroom', hobjective', hprovenance', hcreated'⟩, -, -⟩ :=
        lapseVerification_envelope before.object planned
      exact ⟨hid'.trans hid, hroom'.trans hroom, hobjective'.trans hobjective,
        hprovenance'.trans hprovenance, hcreated'.trans hcreated⟩
    have hcorrected : SameOrigin before
        (correctedRecord before entry.event.at_ entry.trusted.actor committed) :=
      SameOrigin.of_envelope henvelope rfl rfl
    refine ⟨hcorrected.trans horigin, hrevision, ?_, ?_⟩
    · intro hnews
      cases hnews
    · intro _
      rw [htouched]
      -- corrections are human-only, so a correction leaves the record touched
      unfold correctedRecord
      dsimp only
      cases before.humanTouchedAt with
      | none => simp [hhuman]
      | some at_ => simp

theorem dispatch_issues (h : dispatch state entry = .ok next) : state.issues <+: next.issues := by
  unfold dispatch at h
  dsimp only at h
  split at h
  · obtain ⟨-, noted, hnoted, rfl⟩ := applyProposalRecorded_ok h
    rcases hnoted with rfl | ⟨text, rfl⟩
    · exact List.prefix_refl _
    · exact List.prefix_append _ _
  · obtain ⟨record, -, -, -, rfl⟩ := applyProposalRejected_ok h
    exact List.prefix_refl _
  · obtain ⟨record, -, -, -, -, rfl⟩ := applyProposalSuperseded_ok h
    exact List.prefix_refl _
  · obtain ⟨-, proposal, -, rfl⟩ := applyObjectAccepted_ok h
    unfold commitAcceptance
    split
    · exact List.prefix_refl _
    · exact List.prefix_refl _
  · obtain ⟨record, -, -, h⟩ := applyObjectCorrected_ok h
    rcases h with ⟨reason, -, rfl⟩ | ⟨plan, committed, -, -, rfl⟩
    · exact List.prefix_append _ _
    · rw [commitPlan_issues]
  · obtain ⟨ends, -, rfl⟩ := applyRelationAdded_ok h
    rw [commitRelation_issues]

/-- The proposals are still there after an applied event. -/
theorem Applied.proposals_kept (h : Applied state entry next) {record : ProposalRecord}
    (hown : state.proposal? id = some record) : ∃ after, next.proposal? id = some after := by
  have hset : ∀ {noted : CoreState} {proposalId : Id} (written : ProposalRecord),
      noted.proposals = state.proposals → proposalId ≠ "__proto__" →
      ∃ after, (noted.setProposal proposalId written).proposal? id = some after := by
    intro noted proposalId written hnoted hproto
    rw [proposal?_setProposal hproto]
    by_cases hid : id = proposalId
    · exact ⟨written, if_pos hid⟩
    · refine ⟨record, ?_⟩
      rw [if_neg hid]
      unfold CoreState.proposal?
      rw [hnoted]
      exact hown
  cases h with
  | recorded hbody hfree hnoted =>
    exact hset _ hnoted.2.2.1 (PlainObject.ne_proto_of_absent hfree)
  | rejected hbody hheld hmatch hopen => exact hset _ rfl (proposal?_ne_proto hheld)
  | superseded hbody hheld hmatch hopen hreplacement => exact hset _ rfl (proposal?_ne_proto hheld)
  | accepted hbody hfree hcheck =>
    rcases commitAcceptance_proposal? entry.event.at_ hcheck with
      ⟨-, -, hsame⟩ | ⟨proposalId, cited, -, -, -, hwritten⟩
    · exact ⟨record, (hsame id).trans hown⟩
    · rw [hwritten]
      by_cases hid : id = proposalId
      · exact ⟨_, if_pos hid⟩
      · exact ⟨record, by rw [if_neg hid, hown]⟩
  | unchanged hbody hhuman => exact ⟨record, hown⟩
  | corrected hbody hhuman hheld hplan hcheck =>
    refine ⟨record, ?_⟩
    unfold CoreState.proposal?
    rw [commitPlan_proposals]
    exact hown
  | related hbody hcheck =>
    refine ⟨record, ?_⟩
    unfold CoreState.proposal?
    rw [commitRelation_proposals]
    exact hown

theorem Applied.logs_kept (h : Applied state entry next) :
    state.relations <+: next.relations ∧ state.corrections <+: next.corrections := by
  cases h with
  | recorded hbody hfree hnoted =>
    obtain ⟨-, hrelations, -, hcorrections⟩ := hnoted
    rw [← hrelations, ← hcorrections]
    exact ⟨List.prefix_refl _, List.prefix_refl _⟩
  | rejected hbody hheld hmatch hopen => exact ⟨List.prefix_refl _, List.prefix_refl _⟩
  | superseded hbody hheld hmatch hopen hreplacement =>
    exact ⟨List.prefix_refl _, List.prefix_refl _⟩
  | accepted hbody hfree hcheck =>
    rw [commitAcceptance_relations, commitAcceptance_corrections]
    exact ⟨List.prefix_refl _, List.prefix_refl _⟩
  | unchanged hbody hhuman => exact ⟨List.prefix_refl _, List.prefix_refl _⟩
  | corrected hbody hhuman hheld hplan hcheck =>
    rw [commitPlan_relations, commitPlan_corrections]
    exact ⟨List.prefix_refl _, List.prefix_append _ _⟩
  | related hbody hcheck =>
    rw [commitRelation_relations, commitRelation_corrections]
    exact ⟨List.prefix_append _ _, List.prefix_refl _⟩

theorem dispatch_kept (hk : Keyed state) (h : dispatch state entry = .ok next) :
    HistoryKept state next where
  objects id record hrecord := by
    obtain ⟨after, news, hafter, -, htouched⟩ := (dispatch_applied h).touched hk hrecord
    exact ⟨after, hafter, htouched.accounts.1⟩
  proposals id record hrecord := (dispatch_applied h).proposals_kept hrecord
  relations := (dispatch_applied h).logs_kept.1
  corrections := (dispatch_applied h).logs_kept.2
  issues := dispatch_issues h
  consumedEventIds := by
    rw [(dispatch_position h).2.1]

theorem step_kept (hk : Keyed state) (h : step state entry = .ok (outcome, next)) :
    HistoryKept state next := by
  unfold step at h
  split at h
  · cases h
    exact HistoryKept.refl state
  · obtain ⟨roomId, settled, applied, -, hsettle, -, hnext⟩ := consume_ok h
    have hsettled : HistoryKept state settled := by
      rcases settle_ok hsettle with ⟨hdispatch, -⟩ | ⟨reason, -, -, rfl⟩
      · exact dispatch_kept hk hdispatch
      · exact { HistoryKept.refl state with issues := List.prefix_append _ _ }
    have hadvanced : HistoryKept settled (advance settled roomId entry.event) :=
      { HistoryKept.refl settled with consumedEventIds := List.prefix_append _ _ }
    rcases hnext with rfl | ⟨reason, rfl⟩
    · exact hsettled.trans hadvanced
    · exact hsettled.trans { hadvanced with issues := List.prefix_append _ _ }

end Kept

/-! ## What the correction log accounts for -/

section Accounts

variable {state next : CoreState}

/-- What the records of a state and its correction log say about each other. -/
structure LogAccounts (state : CoreState) : Prop where
  records : ∀ id record, state.object? id = some record →
    record.revision = (correctionsOf state id).length ∧
      (record.humanTouchedAt.isSome = true ↔
        isHuman record.acceptedBy = true ∨ 0 < record.revision)
  /-- What was never accepted was never corrected. -/
  unknown : ∀ id, state.object? id = none → correctionsOf state id = []

theorem LogAccounts.sameFacts (h : LogAccounts state) (hsame : SameFacts next state) :
    LogAccounts next := by
  obtain ⟨hobjects, -, -, hcorrections⟩ := hsame
  have hobject : next.object? = state.object? := by
    funext id
    unfold CoreState.object?
    rw [hobjects]
  constructor
  · intro id record hrecord
    rw [correctionsOf_congr hcorrections]
    rw [hobject] at hrecord
    exact h.records id record hrecord
  · intro id hnone
    rw [correctionsOf_congr hcorrections]
    rw [hobject] at hnone
    exact h.unknown id hnone

variable [Unicode] {entry : AuthoredEvent} {id : Id}

theorem Applied.unlogged (h : Applied state entry next) (hk : Keyed state)
    (hnone : next.object? id = none) : correctionsOf next id = correctionsOf state id := by
  cases h with
  | recorded hbody hfree hnoted => exact correctionsOf_congr hnoted.2.2.2 id
  | rejected hbody hheld hmatch hopen => rfl
  | superseded hbody hheld hmatch hopen hreplacement => rfl
  | accepted hbody hfree hcheck => exact correctionsOf_congr commitAcceptance_corrections id
  | unchanged hbody hhuman => rfl
  | @corrected correction record planned committed hbody hhuman hheld hplan hcheck =>
    rw [commitPlan_correctionsOf _ _ _ _ hk hheld, if_neg, List.append_nil]
    rintro rfl
    obtain ⟨after, hafter, -⟩ :=
      (commitPlan_carriedOver entry.event.id hheld hplan hcheck).forth _ _ hheld
    rw [hnone] at hafter
    cases hafter
  | related hbody hcheck => exact correctionsOf_congr commitRelation_corrections id

theorem Applied.logAccounts (h : Applied state entry next) (hk : Keyed state)
    (haccounts : LogAccounts state) : LogAccounts next := by
  constructor
  · intro id after hafter
    cases hown : state.object? id with
    | none =>
      obtain ⟨object, proposal, -, -, -, rfl, hcorrections⟩ := h.minted hown hafter
      rw [correctionsOf_congr hcorrections, haccounts.unknown id hown]
      refine ⟨rfl, ?_⟩
      unfold freshRecord
      cases isHuman entry.trusted.actor <;> simp
    | some before =>
      obtain ⟨held, news, hheld, hlog, htouched⟩ := h.touched hk hown
      obtain rfl : held = after := Option.some.inj (hheld.symm.trans hafter)
      obtain ⟨horigin, hrevision, hquiet, hloud⟩ := htouched.accounts
      obtain ⟨hcount, hstanding⟩ := haccounts.records id before hown
      refine ⟨by rw [hrevision, hcount, hlog, List.length_append], ?_⟩
      rw [horigin.acceptedBy, hrevision]
      by_cases hnews : news = []
      · rw [hquiet hnews, hnews]
        exact hstanding
      · have hpositive : 0 < news.length := List.length_pos_iff.mpr hnews
        constructor
        · intro _
          exact Or.inr (by omega)
        · intro _
          exact hloud hnews
  · intro id hnone
    rw [h.unlogged hk hnone]
    apply haccounts.unknown
    cases hown : state.object? id with
    | none => rfl
    | some before =>
      obtain ⟨held, news, hheld, -⟩ := h.touched hk hown
      rw [hnone] at hheld
      cases hheld

theorem Reached.logAccounts {allowed : CoreState → AuthoredEvent → Prop}
    (h : Reached allowed state) : LogAccounts state := by
  suffices hboth : Keyed state ∧ LogAccounts state from hboth.2
  refine h.invariant (fun state => Keyed state ∧ LogAccounts state) ?_ ?_ ?_
  · refine ⟨?_, ⟨?_, fun _ _ => rfl⟩⟩
    · rintro id record ⟨⟩
    · rintro id record ⟨⟩
  · rintro a b hsame ⟨hk, haccounts⟩
    exact ⟨hk.congr hsame.1, haccounts.sameFacts hsame⟩
  · rintro state next entry ⟨hk, haccounts⟩ - hdispatch
    have happlied := dispatch_applied hdispatch
    exact ⟨happlied.keyed hk, happlied.logAccounts hk haccounts⟩

theorem Reached.accounted {allowed : CoreState → AuthoredEvent → Prop} (h : Reached allowed state) :
    Accounted state := by
  have hk := h.keyed_integrity.1
  have haccounts := h.logAccounts
  constructor
  · intro id record hrecord
    rw [hk id record hrecord]
    exact (haccounts.records id record hrecord).1
  · intro id record hrecord
    obtain ⟨-, hstanding⟩ := haccounts.records id record hrecord
    unfold confirmed
    rw [Bool.or_eq_true, hstanding]
    constructor
    · rintro (hhuman | hstands)
      · exact Or.inl hhuman
      · exact hstands
    · exact Or.inr

theorem offer_kept (hk : Keyed state) (entry : AuthoredEvent) :
    HistoryKept state (offer state entry) := by
  unfold offer
  split
  · rename_i hstep
    exact step_kept hk hstep
  · exact HistoryKept.refl state

theorem reached_offered (log : List AuthoredEvent) : Reached anyEvent (offerAll log) :=
  reached_offerAll fun _ _ _ => trivial

theorem offerAll_snoc (log : List AuthoredEvent) (entry : AuthoredEvent) :
    offerAll (log ++ [entry]) = offer (offerAll log) entry := by
  unfold offerAll
  rw [List.foldl_append]
  rfl

theorem offered_kept (log more : List AuthoredEvent) :
    HistoryKept (offerAll log) (offerAll (log ++ more)) := by
  induction more generalizing log with
  | nil =>
    rw [List.append_nil]
    exact HistoryKept.refl _
  | cons entry rest ih =>
    have hlog : log ++ entry :: rest = (log ++ [entry]) ++ rest := by simp
    have hfirst : HistoryKept (offerAll log) (offerAll (log ++ [entry])) := by
      rw [offerAll_snoc]
      exact offer_kept (reached_offered log).keyed_integrity.1 entry
    rw [hlog]
    exact hfirst.trans (ih (log ++ [entry]))

/-- History is never erased: whatever rows are offered after a log, the state keeps every object with
its origin, every proposal and every entry of its logs; and in every state the revision of an object
is the number of its correction records, and an object is confirmed exactly when a human accepted it
or it was corrected. -/
theorem history_never_erased (log more : List AuthoredEvent) :
    HistoryKept (offerAll log) (offerAll (log ++ more)) ∧ Accounted (offerAll (log ++ more)) :=
  ⟨offered_kept log more, (reached_offered (log ++ more)).accounted⟩

end Accounts

end Core
