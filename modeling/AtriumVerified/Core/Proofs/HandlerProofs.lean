import AtriumVerified.Core.Reduce

/-!
# What the handlers can do

One inversion lemma for each handler of the reducer: from a handler that applied its event, the
checks it passed and the state it left. Everything that is proved about runs goes through these
lemmas and never unfolds a handler.
-/

namespace Core

open Checked Js
open CoreState (fail)

variable {state next : CoreState}

/-! ## Frames of the state updates -/

section Frames

variable {id : Id} {record : ObjectRecord} {proposal : ProposalRecord} {reason : String}

@[simp] theorem setProposal_objects : (state.setProposal id proposal).objects = state.objects := rfl

@[simp] theorem fail_consumed :
    (fail state id reason).consumedEventIds = state.consumedEventIds := rfl

end Frames

theorem object?_setObject {id : Id} (h : id ≠ "__proto__") (record : ObjectRecord) (other : Id) :
    (state.setObject id record).object? other =
      if other = id then some record else state.object? other :=
  PlainObject.own?_set _ _ _ h _

theorem object?_ne_proto {id : Id} {record : ObjectRecord} (h : state.object? id = some record) :
    id ≠ "__proto__" :=
  PlainObject.ne_proto_of_own h

/-! ## Supersession updates -/

theorem releaseTarget_cases (state : CoreState) (supersederId : Id) (at_ : Timestamp) (targetId : Id) :
    releaseTarget supersederId at_ state targetId = state ∨
      ∃ target, state.object? targetId = some target ∧
        target.supersededById = some supersederId ∧
        releaseTarget supersederId at_ state targetId = state.setObject targetId
          (setSuperseded target (stillLive state supersederId target.object.id) at_) := by
  unfold releaseTarget
  split
  · exact Or.inl rfl
  · rename_i target htarget
    split
    · rename_i hsup
      exact Or.inr ⟨target, htarget, hsup, rfl⟩
    · exact Or.inl rfl

theorem reapplyTarget_cases (state : CoreState) (supersederId : Id) (at_ : Timestamp) (targetId : Id) :
    reapplyTarget supersederId at_ state targetId = state ∨
      ∃ target, state.object? targetId = some target ∧ target.supersededById = none ∧
        reapplyTarget supersederId at_ state targetId =
          state.setObject targetId (setSuperseded target (some supersederId) at_) := by
  unfold reapplyTarget
  split
  · exact Or.inl rfl
  · rename_i target htarget
    split
    · rename_i hsup
      exact Or.inr ⟨target, htarget, hsup, rfl⟩
    · exact Or.inl rfl

theorem release_frame (state : CoreState) (supersederId : Id) (at_ : Timestamp) (targets : List Id) :
    let released := targets.foldl (releaseTarget supersederId at_) state
    released = { state with objects := released.objects } := by
  induction targets generalizing state with
  | nil => rfl
  | cons targetId rest ih =>
    rcases releaseTarget_cases state supersederId at_ targetId with h | ⟨t, -, -, h⟩
    · simpa only [List.foldl_cons, h] using ih state
    · simp only [List.foldl_cons, h]
      rw [ih]
      rfl

theorem reapply_frame (state : CoreState) (supersederId : Id) (at_ : Timestamp) (targets : List Id) :
    let reapplied := targets.foldl (reapplyTarget supersederId at_) state
    reapplied = { state with objects := reapplied.objects } := by
  induction targets generalizing state with
  | nil => rfl
  | cons targetId rest ih =>
    rcases reapplyTarget_cases state supersederId at_ targetId with h | ⟨t, -, -, h⟩
    · simpa only [List.foldl_cons, h] using ih state
    · simp only [List.foldl_cons, h]
      rw [ih]
      rfl

/-! ## Proposals -/

section Proposals

variable {eventId proposalId : Id} {proposal : Proposal} {actor : Actor} {reason : Option String}

theorem applyProposalRecorded_ok (h : applyProposalRecorded state eventId proposal actor = .ok next) :
    state.proposals.get proposal.stored.id = .absent ∧
      ∃ noted, (noted = state ∨ ∃ text, noted = fail state eventId text) ∧
        next = noted.setProposal proposal.stored.id
          ⟨proposal.stored, actor, .proposed, none, none, none, none⟩ := by
  simp only [applyProposalRecorded, bind_eq_ok, refuseIf_eq_ok, bne_eq_false_iff_eq, pure,
    Except.pure, Except.ok.injEq, exists_const] at h
  obtain ⟨habsent, rfl⟩ := h
  refine ⟨habsent, _, ?_, rfl⟩
  split
  · exact Or.inl rfl
  · exact Or.inr ⟨_, rfl⟩

theorem applyProposalRejected_ok
    (h : applyProposalRejected state proposalId reason actor = .ok next) :
    ∃ record, state.proposals.get proposalId = .own record ∧
      actorMatchesProposer actor record.proposal.proposer = true ∧ record.status = .proposed ∧
      next = state.setProposal proposalId
        { record with status := .rejected, rejectedReason := reason } := by
  simp only [applyProposalRejected, bind_eq_ok, refuseIf_eq_ok, refuseAbsent_eq_ok, stored_eq_ok,
    pure, Except.pure, Except.ok.injEq, exists_const] at h
  obtain ⟨-, record, hrecord, hmatch, haccepted, hrejected, hsuperseded, rfl⟩ := h
  refine ⟨record, hrecord, by simpa using hmatch, ?_, rfl⟩
  cases hstatus : record.status with
  | proposed => rfl
  | accepted => simp [hstatus] at haccepted
  | rejected => simp [hstatus] at hrejected
  | superseded => simp [hstatus] at hsuperseded

theorem applyProposalSuperseded_ok {byId : Option Id}
    (h : applyProposalSuperseded state proposalId byId reason actor = .ok next) :
    ∃ record, state.proposals.get proposalId = .own record ∧
      actorMatchesProposer actor record.proposal.proposer = true ∧ record.status = .proposed ∧
      checkReplacement state record proposalId byId = .ok () ∧
      next = state.setProposal proposalId { record with
        status := .superseded, supersededByProposalId := byId, supersededReason := reason } := by
  simp only [applyProposalSuperseded, bind_eq_ok, refuseIf_eq_ok, refuseAbsent_eq_ok, stored_eq_ok,
    pure, Except.pure, Except.ok.injEq, exists_const] at h
  obtain ⟨-, record, hrecord, hmatch, hstatus, ⟨⟩, hreplacement, rfl⟩ := h
  exact ⟨record, hrecord, by simpa using hmatch, by simpa using hstatus, hreplacement, rfl⟩

theorem checkReplacement_ok {record : ProposalRecord} {byId : Id}
    (h : checkReplacement state record proposalId (some byId) = .ok ()) :
    byId ≠ proposalId ∧ ∃ replacement, state.proposals.get byId = .own replacement ∧
      replacement.proposal.roomId = record.proposal.roomId := by
  simp only [checkReplacement, bind_eq_ok, refuseIf_eq_ok, refuseAbsent_eq_ok, stored_eq_ok,
    exists_const] at h
  obtain ⟨hne, -, replacement, hown, hroom⟩ := h
  exact ⟨by simpa using hne, replacement, hown, by simpa using hroom⟩

end Proposals

/-! ## Acceptance -/

section Acceptance

variable {object : AcceptedObject} {actor : Actor} {at_ : Timestamp}
  {messages : Option (List ProvenanceMessage)} {proposal : Option ProposalRecord}

@[simp] theorem commitAcceptance_objects :
    (commitAcceptance state at_ object actor proposal).objects =
      state.objects.set object.id (freshRecord object at_ actor) := by
  unfold commitAcceptance
  split <;> rfl

@[simp] theorem commitAcceptance_relations :
    (commitAcceptance state at_ object actor proposal).relations = state.relations := by
  unfold commitAcceptance
  split <;> rfl

@[simp] theorem commitAcceptance_corrections :
    (commitAcceptance state at_ object actor proposal).corrections = state.corrections := by
  unfold commitAcceptance
  split <;> rfl

@[simp] theorem commitAcceptance_consumed :
    (commitAcceptance state at_ object actor proposal).consumedEventIds =
      state.consumedEventIds := by
  unfold commitAcceptance
  split <;> rfl

theorem proposerIsMachine_of_matches {proposer : Proposer} (hactor : isHuman actor = false)
    (h : actorMatchesProposer actor proposer = true) : proposerIsMachine proposer = true := by
  cases actor with
  | human userId => cases hactor
  | agent userId => cases proposer <;> simp_all [actorMatchesProposer, proposerIsMachine]
  | model model => cases proposer <;> simp_all [actorMatchesProposer, proposerIsMachine]
  | system => simp [actorMatchesProposer] at h

theorem checkObjective_ok {objectiveId : Id} (h : checkObjective state object = .ok ())
    (hfiled : object.objectiveId = some objectiveId) :
    ∃ objective, state.object? objectiveId = some objective ∧
      objective.object.type = .objective ∧ objective.object.roomId = object.roomId := by
  simp only [checkObjective, hfiled, bind_eq_ok, refuseIf_eq_ok, refuseAbsent_eq_ok, stored_eq_ok,
    exists_const] at h
  obtain ⟨-, objective, hown, htype, hroom⟩ := h
  exact ⟨objective, PlainObject.get_eq_own.mp hown, by simpa using htype, by simpa using hroom⟩

variable [Unicode]

theorem checkAcceptance_ok (h : checkAcceptance state object actor messages = .ok proposal) :
    state.objects.get object.id = .absent ∧
      citedProposal state object actor messages = .ok proposal := by
  simp only [checkAcceptance, bind_eq_ok, refuseIf_eq_ok, refuseWith_eq_ok, bne_eq_false_iff_eq,
    pure, Except.pure, Except.ok.injEq, exists_const] at h
  obtain ⟨habsent, -, -, -, cited, hcited, -, -, -, -, -, -, rfl⟩ := h
  exact ⟨habsent, hcited⟩

theorem checkCitedProposal_ok {proposalId : Id} {record : ProposalRecord}
    (h : checkCitedProposal state object proposalId actor messages = .ok record) :
    state.proposals.get proposalId = .own record ∧ record.status = .proposed ∧
      record.acceptedObjectId = none ∧
      actorMatchesProposer actor record.proposal.proposer = true ∧
      record.proposal.type = object.type ∧ record.proposal.roomId = object.roomId ∧
      checkReceipt record object proposalId actor messages = .ok () := by
  simp only [checkCitedProposal, bind_eq_ok, refuseIf_eq_ok, refuseAbsent_eq_ok, stored_eq_ok,
    pure, Except.pure, Except.ok.injEq, exists_const] at h
  obtain ⟨-, -, record', hown, hrejected, haccepted, hsuperseded, hmatch, htype, hroom, ⟨⟩, hreceipt,
    rfl⟩ := h
  refine ⟨hown, ?_, ?_, by simpa using hmatch, by simpa using htype, by simpa using hroom, hreceipt⟩
  · cases hstatus : record'.status with
    | proposed => rfl
    | accepted => simp [hstatus] at haccepted
    | rejected => simp [hstatus] at hrejected
    | superseded => simp [hstatus] at hsuperseded
  · cases hid : record'.acceptedObjectId with
    | none => rfl
    | some id => simp [hid] at haccepted

theorem citedProposal_ok (h : citedProposal state object actor messages = .ok proposal) :
    (object.provenance.proposalId = none ∧ proposal = none) ∨
      ∃ proposalId record, object.provenance.proposalId = some proposalId ∧
        proposal = some record ∧
        checkCitedProposal state object proposalId actor messages = .ok record := by
  unfold citedProposal at h
  split at h
  · rename_i hnone
    cases h
    exact Or.inl ⟨hnone, rfl⟩
  · rename_i proposalId hsome
    simp only [bind_eq_ok, pure, Except.pure, Except.ok.injEq] at h
    obtain ⟨record, hcheck, rfl⟩ := h
    exact Or.inr ⟨proposalId, record, hsome, rfl, hcheck⟩

theorem checkAcceptance_gates (h : checkAcceptance state object actor messages = .ok proposal) :
    (isHuman actor = false → modelMintingGate object.type = none ∧
        object.payload.verified = false ∧ object.provenance.proposalId.isSome = true) ∧
      selfStagedReadingRefusal actor object.provenance.proposalId
        (proposal.map fun record => record.proposal.proposer)
        ((proposal.map ProposalRecord.stagedBy).getD actor)
        (payloadAttributions object.payload) = none ∧
      (∀ owner, object.payload.owner? = some owner → ownerConfirmRefusal actor owner = none) ∧
      (∀ record, proposal = some record → acceptanceAttributionRefusal actor object.id
        (object.provenance.proposalId.getD "") { object with payload := record.proposal.payload }
        object = none) ∧
      checkObjective state object = .ok () := by
  simp only [checkAcceptance, bind_eq_ok, refuseIf_eq_ok, refuseWith_eq_ok, pure, Except.pure,
    Except.ok.injEq, exists_const] at h
  obtain ⟨-, hgate, hverified, hdirect, cited, -, hstaged, -, howner, hreading, ⟨⟩, hobjective,
    rfl⟩ := h
  refine ⟨?_, hstaged, ?_, ?_, hobjective⟩
  · intro hmachine
    refine ⟨?_, ?_, ?_⟩
    · simpa [hmachine] using hgate
    · simpa [hmachine] using hverified
    · simpa [hmachine, Option.isSome_iff_ne_none] using hdirect
  · intro owner hheld
    simpa [hheld] using howner
  · rintro record rfl
    simpa using hreading

theorem applyObjectAccepted_ok
    (h : applyObjectAccepted state at_ object actor messages = .ok next) :
    state.objects.get object.id = .absent ∧ ∃ proposal,
      citedProposal state object actor messages = .ok proposal ∧
      next = commitAcceptance state at_ object actor proposal := by
  simp only [applyObjectAccepted, bind_eq_ok, pure, Except.pure, Except.ok.injEq] at h
  obtain ⟨proposal, hcheck, rfl⟩ := h
  obtain ⟨habsent, hcited⟩ := checkAcceptance_ok hcheck
  exact ⟨habsent, proposal, hcited, rfl⟩

end Acceptance

/-! ## Corrections -/

section Corrections

variable {eventId : Id} {at_ : Timestamp} {correction : ObjectCorrected} {actor : Actor}
  {record : ObjectRecord} {plan committed : CorrectionPlan}

theorem applyObjectCorrected_ok
    (h : applyObjectCorrected state eventId at_ correction actor = .ok next) :
    ∃ record, state.objects.get correction.objectId = .own record ∧ isHuman actor = true ∧
      ((∃ reason, planCorrection state correction at_ record = .ok (.noop reason) ∧
          next = fail state eventId reason) ∨
        ∃ plan committed, planCorrection state correction at_ record = .ok (.plan plan) ∧
          checkPlan state correction record actor plan = .ok committed ∧
          next = commitPlan state eventId correction at_ record actor committed) := by
  simp only [applyObjectCorrected, bind_eq_ok, refuseIf_eq_ok, refuseAbsent_eq_ok, stored_eq_ok,
    exists_const] at h
  obtain ⟨-, record, hown, hhuman, outcome, hplan, h⟩ := h
  refine ⟨record, hown, by simpa using hhuman, ?_⟩
  cases outcome with
  | noop reason =>
    simp only [pure, Except.pure, Except.ok.injEq] at h
    exact Or.inl ⟨reason, hplan, h.symm⟩
  | plan plan =>
    simp only [bind_eq_ok, pure, Except.pure, Except.ok.injEq] at h
    obtain ⟨committed, hcheck, rfl⟩ := h
    exact Or.inr ⟨plan, committed, hplan, hcheck, rfl⟩

def SameEnvelope (a b : AcceptedObject) : Prop :=
  a.id = b.id ∧ a.roomId = b.roomId ∧ a.objectiveId = b.objectiveId ∧
    a.provenance = b.provenance ∧ a.createdAt = b.createdAt

theorem lapseVerification_envelope (before : AcceptedObject) (plan : CorrectionPlan) :
    SameEnvelope (lapseVerification before plan).object plan.object ∧
      (lapseVerification before plan).retractedAt = plan.retractedAt ∧
      (lapseVerification before plan).afterCommit = plan.afterCommit := by
  unfold lapseVerification
  split
  · split
    · exact ⟨⟨rfl, rfl, rfl, rfl, rfl⟩, rfl, rfl⟩
    · exact ⟨⟨rfl, rfl, rfl, rfl, rfl⟩, rfl, rfl⟩
  · exact ⟨⟨rfl, rfl, rfl, rfl, rfl⟩, rfl, rfl⟩

theorem checkPlan_ok (h : checkPlan state correction record actor plan = .ok committed) :
    committed = lapseVerification record.object plan := by
  simp only [checkPlan, bind_eq_ok, refuseWith_eq_ok, pure, Except.pure, Except.ok.injEq,
    exists_const] at h
  obtain ⟨-, -, -, -, rfl⟩ := h
  rfl

theorem checkLive_ok {u : Unit} :
    checkLive correction record = .ok u ↔ record.retractedAt = none := by
  simp [checkLive]

/-- The plans of the verbs, with what each had checked. -/
inductive Planned (state : CoreState) (correction : ObjectCorrected) (at_ : Timestamp)
    (record : ObjectRecord) : CorrectionPlan → Prop
  | retracted (haction : correction.action = .retract) (hlive : record.retractedAt = none) :
      Planned state correction at_ record
        ⟨record.object, .retracted false, .retracted true, some (some at_), .releaseSupersessions⟩
  | restored (haction : correction.action = .restore) (hgone : record.retractedAt.isSome = true) :
      Planned state correction at_ record
        ⟨record.object, .retracted true, .retracted false, some none, .reapplySupersessions⟩
  | retyped (haction : correction.action = .retype) (hlive : record.retractedAt = none)
      {toType : AcceptedObjectType} {payload : Payload} (hto : correction.toType = some toType)
      (hother : toType ≠ record.object.type)
      (hstructure : retypeStructuralRefusal state record.object toType = none)
      (hparse : parsePayload toType
        (retypeCarryOver record.object.payload toType ++ correction.patch) = .ok payload) :
      Planned state correction at_ record
        ⟨{ record.object with payload, updatedAt := at_ },
          .typed record.object.type record.object.payload, .typed toType payload, none, .nothing⟩
  | reopenedQuestion (haction : correction.action = .reopen) (hlive : record.retractedAt = none)
      {payload : OpenQuestionPayload} (hpayload : record.object.payload = .openQuestion payload)
      (hanswered : payload.status = .answered) {answers : List Id}
      (hanswers : answers = (state.relations.filter fun relation =>
        relation.kind == .answers && relation.fromObjectId == record.object.id).map Relation.id) :
      Planned state correction at_ record
        ⟨{ record.object with
            payload := .openQuestion { payload with status := .open }, updatedAt := at_ },
          .answered answers, .reopened answers, none, .keepAnswers answers⟩
  | reopenedCommitment (haction : correction.action = .reopen) (hlive : record.retractedAt = none)
      {payload : CommitmentPayload} (hpayload : record.object.payload = .commitment payload) :
      Planned state correction at_ record
        ⟨{ record.object with
            payload := .commitment { payload with status := .open }, updatedAt := at_ },
          .commitmentStatus payload.status, .commitmentStatus .open, none, .nothing⟩
  | edited (haction : correction.action = .amend ∨ correction.action = .reattribute)
      (hlive : record.retractedAt = none)
      (hfields : checkEditedFields correction record.object = .ok ()) {after : Payload}
      (hparse : applyPayloadPatch record.object correction.patch = .ok after)
      (hchanged : after ≠ record.object.payload) :
      Planned state correction at_ record
        ⟨{ record.object with payload := after, updatedAt := at_ },
          .payload record.object.payload, .payload after, none, .nothing⟩

theorem planPayloadEdit_planned
    (haction : correction.action = .amend ∨ correction.action = .reattribute)
    (hlive : record.retractedAt = none)
    (h : planPayloadEdit correction at_ record = .ok (.plan plan)) :
    Planned state correction at_ record plan := by
  simp only [planPayloadEdit, bind_eq_ok] at h
  obtain ⟨⟨⟩, hfields, h⟩ := h
  split at h
  · simp at h
  · rename_i after hparse
    split at h
    · simp [pure, Except.pure] at h
    · rename_i hchanged
      simp only [pure, Except.pure, Except.ok.injEq, CorrectionOutcome.plan.injEq] at h
      rw [← h]
      exact .edited haction hlive hfields hparse hchanged

theorem planRetype_planned (haction : correction.action = .retype)
    (hlive : record.retractedAt = none)
    (h : planRetype state correction at_ record = .ok (.plan plan)) :
    Planned state correction at_ record plan := by
  unfold planRetype at h
  split at h
  · simp at h
  · rename_i toType hto
    simp only [bind_eq_ok, refuseIf_eq_ok, refuseWith_eq_ok, exists_const] at h
    obtain ⟨hother, hstructure, -, -, h⟩ := h
    split at h
    · simp at h
    · rename_i payload hparse
      simp only [pure, Except.pure, Except.ok.injEq, CorrectionOutcome.plan.injEq] at h
      rw [← h]
      exact .retyped haction hlive hto (by simpa using hother) hstructure hparse

theorem planReopen_planned (haction : correction.action = .reopen)
    (hlive : record.retractedAt = none)
    (h : planReopen state correction at_ record = .ok (.plan plan)) :
    Planned state correction at_ record plan := by
  unfold planReopen at h
  dsimp only at h
  split at h
  · rename_i payload hpayload
    split at h
    · simp at h
    · rename_i hanswered
      simp only [Except.ok.injEq, CorrectionOutcome.plan.injEq] at h
      rw [← h]
      exact .reopenedQuestion haction hlive hpayload (not_not.mp hanswered) rfl
  · rename_i payload hpayload
    split at h
    · simp at h
    · simp only [Except.ok.injEq, CorrectionOutcome.plan.injEq] at h
      rw [← h]
      exact .reopenedCommitment haction hlive hpayload
  · simp at h

theorem planCorrection_planned (h : planCorrection state correction at_ record = .ok (.plan plan)) :
    Planned state correction at_ record plan := by
  cases haction : correction.action with
  | retract =>
    simp only [planCorrection, haction, bind_eq_ok, refuseIf_eq_ok, Option.isSome_eq_false_iff,
      Option.isNone_iff_eq_none, pure, Except.pure, Except.ok.injEq, CorrectionOutcome.plan.injEq,
      exists_const] at h
    obtain ⟨hlive, rfl⟩ := h
    exact .retracted haction hlive
  | restore =>
    simp only [planCorrection, haction, bind_eq_ok, refuseIf_eq_ok, Option.isNone_eq_false_iff,
      pure, Except.pure, Except.ok.injEq, CorrectionOutcome.plan.injEq, exists_const] at h
    obtain ⟨hgone, rfl⟩ := h
    exact .restored haction hgone
  | retype =>
    simp only [planCorrection, haction, bind_eq_ok, checkLive_ok, exists_const] at h
    exact planRetype_planned haction h.1 h.2
  | reopen =>
    simp only [planCorrection, haction, bind_eq_ok, checkLive_ok, exists_const] at h
    exact planReopen_planned haction h.1 h.2
  | reattribute =>
    simp only [planCorrection, haction, bind_eq_ok, checkLive_ok, exists_const] at h
    exact planPayloadEdit_planned (Or.inr haction) h.1 h.2
  | amend =>
    simp only [planCorrection, haction, bind_eq_ok, checkLive_ok, exists_const] at h
    exact planPayloadEdit_planned (Or.inl haction) h.1 h.2

/-- What a verb's plan changes apart from the payload: only `retract` and `restore` move
`retractedAt` and touch the supersession pointers. -/
theorem planCorrection_ok (h : planCorrection state correction at_ record = .ok (.plan plan)) :
    SameEnvelope plan.object record.object ∧
      ((correction.action = .retract ∧ record.retractedAt = none ∧
          plan.retractedAt = some (some at_) ∧ plan.afterCommit = .releaseSupersessions ∧
          plan.object = record.object) ∨
        (correction.action = .restore ∧ record.retractedAt.isSome = true ∧
          plan.retractedAt = some none ∧ plan.afterCommit = .reapplySupersessions ∧
          plan.object = record.object) ∨
        (correction.action ≠ .retract ∧ correction.action ≠ .restore ∧
          record.retractedAt = none ∧ plan.retractedAt = none ∧
          (plan.afterCommit = .nothing ∨ ∃ answers, plan.afterCommit = .keepAnswers answers) ∧
          plan.object.updatedAt = at_)) := by
  cases planCorrection_planned h with
  | retracted haction hlive =>
    exact ⟨⟨rfl, rfl, rfl, rfl, rfl⟩, Or.inl ⟨haction, hlive, rfl, rfl, rfl⟩⟩
  | restored haction hgone =>
    exact ⟨⟨rfl, rfl, rfl, rfl, rfl⟩, Or.inr (Or.inl ⟨haction, hgone, rfl, rfl, rfl⟩)⟩
  | retyped haction hlive =>
    exact ⟨⟨rfl, rfl, rfl, rfl, rfl⟩,
      Or.inr (Or.inr ⟨by simp [haction], by simp [haction], hlive, rfl, Or.inl rfl, rfl⟩)⟩
  | reopenedQuestion haction hlive =>
    exact ⟨⟨rfl, rfl, rfl, rfl, rfl⟩,
      Or.inr (Or.inr ⟨by simp [haction], by simp [haction], hlive, rfl, Or.inr ⟨_, rfl⟩, rfl⟩)⟩
  | reopenedCommitment haction hlive =>
    exact ⟨⟨rfl, rfl, rfl, rfl, rfl⟩,
      Or.inr (Or.inr ⟨by simp [haction], by simp [haction], hlive, rfl, Or.inl rfl, rfl⟩)⟩
  | edited haction hlive =>
    rcases haction with haction | haction <;>
      exact ⟨⟨rfl, rfl, rfl, rfl, rfl⟩,
        Or.inr (Or.inr ⟨by simp [haction], by simp [haction], hlive, rfl, Or.inl rfl, rfl⟩)⟩

end Corrections

/-! ## Relations -/

section Relations

variable {relation : Relation} {actor : Actor} {at_ : Timestamp} {ends : Endpoints}

theorem relationEndpoints_ok (h : relationEndpoints state relation = .ok ends) :
    state.objects.get relation.fromObjectId = .own ends.source ∧
      ends.source.object.roomId = relation.roomId ∧
      ((relation.target.objectId? = none ∧ ends.target = none) ∨
        ∃ objectId target, relation.target.objectId? = some objectId ∧
          ends.target = some (objectId, target) ∧ state.objects.get objectId = .own target ∧
          target.object.roomId = relation.roomId) := by
  simp only [relationEndpoints, bind_eq_ok, refuseIf_eq_ok, refuseAbsent_eq_ok, stored_eq_ok,
    exists_const] at h
  obtain ⟨-, -, -, source, hsource, hroom, h⟩ := h
  split at h
  · rename_i hnone
    simp only [pure, Except.pure, Except.ok.injEq] at h
    subst h
    exact ⟨hsource, by simpa using hroom, Or.inl ⟨hnone, rfl⟩⟩
  · rename_i objectId hsome
    simp only [bind_eq_ok, refuseIf_eq_ok, stored_eq_ok, pure, Except.pure, Except.ok.injEq,
      exists_const] at h
    obtain ⟨target, htarget, hroom', rfl⟩ := h
    exact ⟨hsource, by simpa using hroom, Or.inr ⟨objectId, target, hsome, rfl, htarget,
      by simpa using hroom'⟩⟩

theorem checkRelation_ok (h : checkRelation state relation actor = .ok ends) :
    (∀ existing ∈ state.relations, existing.id ≠ relation.id) ∧
      relationShapeError relation = none ∧ relationEndpoints state relation = .ok ends ∧
      checkKind state relation ends actor = .ok () := by
  simp only [checkRelation, bind_eq_ok, refuseIf_eq_ok, refuseWith_eq_ok, pure, Except.pure,
    Except.ok.injEq, exists_const] at h
  obtain ⟨hfresh, hshape, ends', hends, ⟨⟩, hkind, rfl⟩ := h
  refine ⟨?_, hshape, hends, hkind⟩
  intro existing hmem heq
  rw [List.any_eq_false] at hfresh
  exact hfresh existing hmem (by simp [heq])

theorem applyRelationAdded_ok (h : applyRelationAdded state at_ relation actor = .ok next) :
    ∃ ends, checkRelation state relation actor = .ok ends ∧
      next = commitRelation state at_ relation ends := by
  simp only [applyRelationAdded, bind_eq_ok, pure, Except.pure, Except.ok.injEq] at h
  obtain ⟨ends, hcheck, rfl⟩ := h
  exact ⟨ends, hcheck, rfl⟩

theorem checkSupersedes_ok {target : ObjectRecord}
    (h : checkSupersedes state relation target actor = .ok ()) :
    isHuman actor = true ∧ target.supersededById = none ∧
      supersessionWouldCycle state relation.fromObjectId target.object.id = false := by
  simp only [checkSupersedes, bind_eq_ok, refuseIf_eq_ok, refuseWith_eq_ok, exists_const] at h
  obtain ⟨-, hhuman, hfree, hcycle⟩ := h
  exact ⟨by simpa using hhuman, by simpa using hfree, hcycle⟩

end Relations

/-! ## The position in the log -/

/-- The part of the state that says how far the log was consumed. -/
def SamePosition (a b : CoreState) : Prop :=
  a.cursor = b.cursor ∧ a.consumedEventIds = b.consumedEventIds ∧ a.watermarks = b.watermarks

theorem release_position (supersederId : Id) (at_ : Timestamp) :
    SamePosition (releaseSupersessions state supersederId at_) state := by
  unfold releaseSupersessions
  rw [release_frame]
  exact ⟨rfl, rfl, rfl⟩

theorem reapply_position (supersederId : Id) (at_ : Timestamp) :
    SamePosition (reapplySupersessions state supersederId at_) state := by
  unfold reapplySupersessions
  rw [reapply_frame]
  exact ⟨rfl, rfl, rfl⟩

theorem commitPlan_position {eventId : Id} {correction : ObjectCorrected} {at_ : Timestamp}
    {record : ObjectRecord} {actor : Actor} {plan : CorrectionPlan} :
    SamePosition (commitPlan state eventId correction at_ record actor plan) state := by
  unfold commitPlan
  dsimp only
  split
  · exact release_position _ _
  · exact reapply_position _ _
  · exact ⟨rfl, rfl, rfl⟩

theorem commitRelation_position {at_ : Timestamp} {relation : Relation} {ends : Endpoints} :
    SamePosition (commitRelation state at_ relation ends) state := by
  unfold commitRelation
  dsimp only
  split
  · exact ⟨rfl, rfl, rfl⟩
  · split
    · exact ⟨rfl, rfl, rfl⟩
    · exact ⟨rfl, rfl, rfl⟩
  · exact ⟨rfl, rfl, rfl⟩

theorem dispatch_position [Unicode] {entry : AuthoredEvent} (h : dispatch state entry = .ok next) :
    SamePosition next state := by
  unfold dispatch at h
  dsimp only at h
  split at h
  · obtain ⟨-, noted, hnoted, rfl⟩ := applyProposalRecorded_ok h
    rcases hnoted with rfl | ⟨text, rfl⟩
    · exact ⟨rfl, rfl, rfl⟩
    · exact ⟨rfl, rfl, rfl⟩
  · obtain ⟨record, -, -, -, rfl⟩ := applyProposalRejected_ok h
    exact ⟨rfl, rfl, rfl⟩
  · obtain ⟨record, -, -, -, -, rfl⟩ := applyProposalSuperseded_ok h
    exact ⟨rfl, rfl, rfl⟩
  · obtain ⟨-, proposal, -, rfl⟩ := applyObjectAccepted_ok h
    unfold commitAcceptance
    split
    · exact ⟨rfl, rfl, rfl⟩
    · exact ⟨rfl, rfl, rfl⟩
  · obtain ⟨record, -, -, h⟩ := applyObjectCorrected_ok h
    rcases h with ⟨reason, -, rfl⟩ | ⟨plan, committed, -, -, rfl⟩
    · exact ⟨rfl, rfl, rfl⟩
    · exact commitPlan_position
  · obtain ⟨ends, -, rfl⟩ := applyRelationAdded_ok h
    exact commitRelation_position

/-! ## One consumed row -/

section Consume

variable [Unicode] {entry : AuthoredEvent} {outcome : EventOutcome}

theorem settle_ok {applied : Bool} (h : settle state entry = .ok (next, applied)) :
    (dispatch state entry = .ok next ∧ applied = true) ∨
      ∃ reason, dispatch state entry = .error (.refused reason) ∧ applied = false ∧
        next = fail state entry.event.id reason := by
  unfold settle at h
  split at h
  · rename_i s hs
    cases h
    exact Or.inl ⟨hs, rfl⟩
  · rename_i reason hs
    cases h
    exact Or.inr ⟨reason, hs, rfl, rfl⟩
  · cases h

theorem settle_position {applied : Bool} (h : settle state entry = .ok (next, applied)) :
    SamePosition next state := by
  rcases settle_ok h with ⟨hd, -⟩ | ⟨reason, -, -, rfl⟩
  · exact dispatch_position hd
  · exact ⟨rfl, rfl, rfl⟩

theorem consume_ok (h : consume state entry = .ok (outcome, next)) :
    ∃ roomId settled applied, resolveRoomId state entry.event = .ok roomId ∧
      settle state entry = .ok (settled, applied) ∧ wasConsumed outcome = true ∧
      (next = advance settled roomId entry.event ∨
        ∃ reason, next = fail (advance settled roomId entry.event) entry.event.id reason) := by
  unfold consume at h
  dsimp only at h
  split at h
  · cases h
  · cases h
  · rename_i roomId hroom
    split at h
    · cases h
    · rename_i settled applied hsettle
      simp only [Except.ok.injEq, Prod.mk.injEq] at h
      obtain ⟨houtcome, hnext⟩ := h
      rw [hnext] at houtcome
      refine ⟨roomId, settled, applied, hroom, hsettle, ?_, ?_⟩
      · rw [← houtcome]
        split
        · rfl
        · rfl
      · rw [← hnext]
        split
        · exact Or.inr ⟨_, rfl⟩
        · exact Or.inl rfl

/-- The part of the state that says what the room holds. -/
def SameFacts (a b : CoreState) : Prop :=
  a.objects = b.objects ∧ a.relations = b.relations ∧ a.proposals = b.proposals ∧
    a.corrections = b.corrections

theorem consume_applied {event : CoreEvent} {actor : Actor}
    (h : consume state entry = .ok (.applied event actor, next)) :
    event = entry.event ∧ ∃ settled, dispatch state entry = .ok settled ∧ SameFacts next settled ∧
      next.cursor = some (cursorOf entry.event) := by
  unfold consume at h
  dsimp only at h
  split at h
  · cases h
  · cases h
  · split at h
    · cases h
    · rename_i roomId hroom settled applied hsettle
      simp only [Except.ok.injEq, Prod.mk.injEq] at h
      obtain ⟨houtcome, rfl⟩ := h
      rcases settle_ok hsettle with ⟨hdispatch, -⟩ | ⟨reason, -, rfl, rfl⟩
      · generalize hclean : (List.drop _ _).isEmpty = clean at houtcome ⊢
        cases clean with
        | true =>
          cases houtcome
          refine ⟨rfl, settled, hdispatch, ?_⟩
          split
          · exact ⟨⟨rfl, rfl, rfl, rfl⟩, rfl⟩
          · exact ⟨⟨rfl, rfl, rfl, rfl⟩, rfl⟩
        | false => cases houtcome
      · simp [advance, CoreState.fail] at houtcome

theorem appendEvent_of_parse {Raw : Type} {schema : EventSchema Raw} {row : Row Raw}
    {event : CoreEvent} (h : schema.safeParse row.event = .ok event) :
    appendEvent schema state row = step state ⟨event, row.trusted⟩ := by
  unfold appendEvent
  rw [h]

theorem appendEvent_applied {Raw : Type} {schema : EventSchema Raw} {row : Row Raw}
    {event : CoreEvent} {actor : Actor}
    (h : appendEvent schema state row = .ok (.applied event actor, next)) :
    schema.safeParse row.event = .ok event ∧ rejectionFor state event = none ∧
      ∃ settled, dispatch state ⟨event, row.trusted⟩ = .ok settled ∧ SameFacts next settled ∧
        next.cursor = some (cursorOf event) := by
  unfold appendEvent at h
  split at h
  · cases h
  · rename_i parsed hparse
    unfold step at h
    split at h
    · cases h
    · rename_i hnot
      obtain ⟨rfl, hfacts⟩ := consume_applied h
      exact ⟨hparse, hnot, hfacts⟩

theorem step_facts (h : step state entry = .ok (outcome, next)) :
    SameFacts next state ∨ ∃ settled, dispatch state entry = .ok settled ∧ SameFacts next settled := by
  unfold step at h
  split at h
  · cases h
    exact Or.inl ⟨rfl, rfl, rfl, rfl⟩
  · obtain ⟨roomId, settled, applied, -, hsettle, -, hnext⟩ := consume_ok h
    have hkept : SameFacts next settled := by
      rcases hnext with rfl | ⟨reason, rfl⟩
      · exact ⟨rfl, rfl, rfl, rfl⟩
      · exact ⟨rfl, rfl, rfl, rfl⟩
    rcases settle_ok hsettle with ⟨hd, -⟩ | ⟨reason, -, -, rfl⟩
    · exact Or.inr ⟨settled, hd, hkept⟩
    · exact Or.inl hkept

end Consume

end Core
