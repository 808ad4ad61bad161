import Mathlib.Data.List.Dedup
import AtriumVerified.Core.Proofs.IntegrityProofs

/-!
# Statuses that repeat other facts

The status of a decision repeats its supersession pointer, and the status of a question repeats
whether a live answer goes from it. The events that move the fact write the status with it; an
acceptance, an amendment and a retype can write the status alone.
-/

namespace Core

open Checked Js
open CoreState (fail)

/-! ## The status a schema reads -/

section Schemas

example : literal decisionStatuses .superseded = "superseded" := by decide +kernel

theorem Payload.decision_of_type {payload : Payload} (h : payload.type = .decision) :
    ∃ held, payload = .decision held := by
  cases payload with
  | decision held => exact ⟨held, rfl⟩
  | _ => cases h

theorem Payload.openQuestion_of_type {payload : Payload} (h : payload.type = .openQuestion) :
    ∃ held, payload = .openQuestion held := by
  cases payload with
  | openQuestion held => exact ⟨held, rfl⟩
  | _ => cases h

variable {fields : List (String × Json)}

theorem parsePayload_decision {payload : DecisionPayload}
    (h : parsePayload .decision fields = .ok (.decision payload)) :
    Schema.withDefault .active (Schema.enum decisionStatuses) (lookupField fields "status") =
      .ok payload.status := by
  obtain ⟨f, status, hpart, hstatus, hpayload⟩ := Schema.both_eq_ok.mp h
  obtain ⟨statement, decidedBy, -, -, rfl⟩ := Schema.both_eq_ok.mp hpart
  cases hpayload
  exact Schema.field_eq_ok.mp hstatus

theorem parsePayload_openQuestion {payload : OpenQuestionPayload}
    (h : parsePayload .openQuestion fields = .ok (.openQuestion payload)) :
    Schema.withDefault .open (Schema.enum questionStatuses) (lookupField fields "status") =
      .ok payload.status := by
  obtain ⟨question, status, -, hstatus, hpayload⟩ := Schema.both_eq_ok.mp h
  cases hpayload
  exact Schema.field_eq_ok.mp hstatus

theorem enum_decisionStatuses (status : DecisionStatus) :
    Schema.enum decisionStatuses (some (.string (literal decisionStatuses status))) =
      .ok status := by
  cases status with
  | active => rfl
  | superseded => rfl

theorem enum_questionStatuses (status : QuestionStatus) :
    Schema.enum questionStatuses (some (.string (literal questionStatuses status))) =
      .ok status := by
  cases status with
  | «open» => rfl
  | answered => rfl

theorem retypeCarryOver_status (payload : Payload) (toType : AcceptedObjectType) :
    lookupField (retypeCarryOver payload toType) "status" = none := by
  unfold retypeCarryOver
  cases toType with
  | decision => cases carriedPerson payload .decision <;> rfl
  | commitment => cases carriedPerson payload .commitment <;> rfl
  | openQuestion => rfl
  | claim => cases carriedPerson payload .claim <;> rfl
  | objective => rfl

end Schemas

/-! ## What a correction makes of a status -/

section Edits

variable {correction : ObjectCorrected} {object : AcceptedObject}

/-- A `reattribute` sets the attribution field and nothing else. -/
theorem checkEditedFields_status (h : checkEditedFields correction object = .ok ())
    (haction : correction.action = .reattribute) :
    lookupField correction.patch "status" = none := by
  have hfield : ∀ field, attributionField object.type = some field → field ≠ "status" := by
    intro field hsome
    cases htype : object.type <;> rw [htype] at hsome <;> simp [attributionField] at hsome <;>
      simp [← hsome]
  unfold checkEditedFields at h
  dsimp only at h
  rw [if_pos haction] at h
  split at h
  · simp at h
  · rename_i field hsome
    simp only [bind_eq_ok, refuseIf_eq_ok, exists_const] at h
    obtain ⟨-, hstrays⟩ := h
    unfold lookupField
    rw [Option.map_eq_none_iff, List.find?_eq_none]
    intro entry hentry hstatus
    have hmem : entry.1 ∈ (correction.patch.map Prod.fst).dedup := by
      rw [List.mem_dedup]
      exact List.mem_map_of_mem (List.mem_reverse.mp hentry)
    have hne : (entry.1 != field) = true := by
      rw [bne_iff_ne, beq_iff_eq.mp hstatus]
      exact (hfield field hsome).symm
    have hnone : ((correction.patch.map Prod.fst).dedup.filter fun key => key != field) = [] := by
      simpa using hstrays
    have hstray : entry.1 ∈ (correction.patch.map Prod.fst).dedup.filter fun key =>
        key != field := List.mem_filter.mpr ⟨hmem, hne⟩
    rw [hnone] at hstray
    cases hstray

theorem applyPayloadPatch_decision {before after : DecisionPayload} {patch : List (String × Json)}
    (hbefore : object.payload = .decision before)
    (hparse : applyPayloadPatch object patch = .ok (.decision after))
    (hpatch : ∀ status, lookupField patch "status" = some status →
      status = .string (literal decisionStatuses before.status)) :
    after.status = before.status := by
  unfold applyPayloadPatch AcceptedObject.type at hparse
  rw [hbefore] at hparse
  have hread := parsePayload_decision hparse
  have hlookup : lookupField ((Payload.decision before).fields ++ patch) "status" =
      some (.string (literal decisionStatuses before.status)) := by
    rw [lookupField_append]
    cases hstatus : lookupField patch "status" with
    | none => rfl
    | some status =>
      rw [hpatch status hstatus]
      rfl
  rw [hlookup] at hread
  have hsame := hread.symm.trans (enum_decisionStatuses before.status)
  exact Except.ok.inj hsame

theorem applyPayloadPatch_openQuestion {before after : OpenQuestionPayload}
    {patch : List (String × Json)} (hbefore : object.payload = .openQuestion before)
    (hparse : applyPayloadPatch object patch = .ok (.openQuestion after))
    (hpatch : ∀ status, lookupField patch "status" = some status →
      status = .string (literal questionStatuses before.status)) :
    after.status = before.status := by
  unfold applyPayloadPatch AcceptedObject.type at hparse
  rw [hbefore] at hparse
  have hread := parsePayload_openQuestion hparse
  have hlookup : lookupField ((Payload.openQuestion before).fields ++ patch) "status" =
      some (.string (literal questionStatuses before.status)) := by
    rw [lookupField_append]
    cases hstatus : lookupField patch "status" with
    | none => rfl
    | some status =>
      rw [hpatch status hstatus]
      rfl
  rw [hlookup] at hread
  have hsame := hread.symm.trans (enum_questionStatuses before.status)
  exact Except.ok.inj hsame

theorem retype_decision_status {payload : Payload} {after : DecisionPayload}
    {status : DecisionStatus}
    (hparse : parsePayload .decision (retypeCarryOver payload .decision ++ correction.patch) =
      .ok (.decision after))
    (hpatch : (lookupField correction.patch "status").getD (.string "active") =
      .string (literal decisionStatuses status)) :
    after.status = status := by
  have hread := parsePayload_decision hparse
  rw [lookupField_append, retypeCarryOver_status, Option.or_none] at hread
  cases hstatus : lookupField correction.patch "status" with
  | none =>
    rw [hstatus] at hread hpatch
    have hactive : after.status = .active := (Except.ok.inj hread).symm
    cases status with
    | active => exact hactive
    | superseded => simp [literal, decisionStatuses] at hpatch
  | some given =>
    rw [hstatus] at hread hpatch
    obtain rfl : given = .string (literal decisionStatuses status) := hpatch
    exact (Except.ok.inj ((enum_decisionStatuses status).symm.trans hread)).symm

theorem retype_openQuestion_status {payload : Payload} {after : OpenQuestionPayload}
    (hparse : parsePayload .openQuestion
      (retypeCarryOver payload .openQuestion ++ correction.patch) = .ok (.openQuestion after))
    (hpatch : (lookupField correction.patch "status").getD (.string "open") = .string "open") :
    after.status = .open := by
  have hread := parsePayload_openQuestion hparse
  rw [lookupField_append, retypeCarryOver_status, Option.or_none] at hread
  cases hstatus : lookupField correction.patch "status" with
  | none =>
    rw [hstatus] at hread
    exact (Except.ok.inj hread).symm
  | some given =>
    rw [hstatus] at hread hpatch
    obtain rfl : given = .string "open" := hpatch
    exact (Except.ok.inj ((enum_questionStatuses .open).symm.trans hread)).symm

end Edits

/-! ## Decisions -/

section Decisions

variable {state next : CoreState}

/-- The status of a record, if it is a decision, agrees with its pointer. -/
def Agrees (record : ObjectRecord) : Prop :=
  ∀ payload, record.object.payload = .decision payload →
    (payload.status = .superseded ↔ record.supersededById ≠ none)

theorem statusOfPointer_eq_superseded (supersededById : Option Id) :
    statusOfPointer supersededById = .superseded ↔ supersededById ≠ none := by
  cases supersededById with
  | none => simp [statusOfPointer]
  | some id => simp [statusOfPointer]

theorem Agrees.repointed {before after : ObjectRecord} (h : Agrees before)
    (hrepointed : Repointed before after) : Agrees after := by
  rcases hrepointed with rfl | ⟨new, at_, rfl⟩
  · exact h
  · intro payload hpayload
    rw [setSuperseded_pointer]
    unfold setSuperseded at hpayload
    cases hbefore : before.object.payload with
    | decision held =>
      simp only [hbefore] at hpayload
      cases hpayload
      cases new with
      | none => simp
      | some id => simp
    | commitment held => simp [hbefore] at hpayload
    | openQuestion held => simp [hbefore] at hpayload
    | claim held => simp [hbefore] at hpayload
    | objective held => simp [hbefore] at hpayload

theorem lapseVerification_payload (before : AcceptedObject) (plan : CorrectionPlan) :
    (lapseVerification before plan).object.payload = plan.object.payload ∨
      ∃ held, plan.object.payload = .claim held ∧
        (lapseVerification before plan).object.payload =
          .claim { held with verification := .unverified } := by
  unfold lapseVerification
  split
  · rename_i hclaim
    split
    · exact Or.inr ⟨_, hclaim, rfl⟩
    · exact Or.inl rfl
  · exact Or.inl rfl

variable {entry : AuthoredEvent} {correction : ObjectCorrected} {record : ObjectRecord}
  {plan : CorrectionPlan} [Unicode]

theorem Planned.decision_agrees (hagrees : Agrees record)
    (hwrites : WritesPointerStatus state entry)
    (hbody : entry.event.body = .objectCorrected correction) (happlies : Applies state entry)
    (hown : state.object? correction.objectId = some record)
    (h : Planned state correction entry.event.at_ record plan) {payload : DecisionPayload}
    (hpayload : plan.object.payload = .decision payload) :
    payload.status = .superseded ↔ record.supersededById ≠ none := by
  cases h with
  | retracted haction hlive => exact hagrees payload hpayload
  | restored haction hgone => exact hagrees payload hpayload
  | @retyped haction hlive toType parsed hto hother hstructure hparse =>
    obtain rfl : parsed = .decision payload := hpayload
    obtain rfl : toType = .decision := (parsePayload_type hparse).symm
    rw [retype_decision_status hparse
      (hwrites.retyped correction record hbody haction hto hown happlies)]
    exact statusOfPointer_eq_superseded _
  | reopenedQuestion haction hlive hquestion hanswered hanswers => cases hpayload
  | reopenedCommitment haction hlive hcommitment => cases hpayload
  | @edited haction hlive hfields after hparse hchanged =>
    obtain rfl : after = .decision payload := hpayload
    obtain ⟨before, hbefore⟩ := Payload.decision_of_type (parsePayload_type hparse).symm
    have hstatus : payload.status = before.status := by
      refine applyPayloadPatch_decision hbefore hparse ?_
      intro status hgiven
      rcases haction with hamend | hreattribute
      · exact hwrites.amended correction record before status hbody hamend hown hbefore hgiven
          happlies
      · rw [checkEditedFields_status hfields hreattribute] at hgiven
        cases hgiven
    rw [hstatus]
    exact hagrees before hbefore

theorem correctedRecord_agrees (hagrees : Agrees record)
    (hwrites : WritesPointerStatus state entry)
    (hbody : entry.event.body = .objectCorrected correction) (happlies : Applies state entry)
    (hown : state.object? correction.objectId = some record)
    (h : Planned state correction entry.event.at_ record plan) (actor : Actor) :
    Agrees (correctedRecord record entry.event.at_ actor
      (lapseVerification record.object plan)) := by
  intro payload hpayload
  have hplanned : plan.object.payload = .decision payload := by
    rcases lapseVerification_payload record.object plan with hsame | ⟨held, -, hlapsed⟩
    · exact hsame.symm.trans hpayload
    · have hclaim := hlapsed.symm.trans hpayload
      cases hclaim
  exact h.decision_agrees hagrees hwrites hbody happlies hown hplanned

/-- An applied event keeps the statuses of the decisions on their pointers. -/
theorem dispatch_decisionStatuses (hstate : DecisionStatusesAgree state)
    (hwrites : WritesPointerStatus state entry) (h : dispatch state entry = .ok next) :
    DecisionStatusesAgree next := by
  have happlies : Applies state entry := ⟨next, h⟩
  cases dispatch_applied h with
  | recorded hbody hfree hnoted =>
    intro id record payload hrecord
    unfold CoreState.object? at hrecord
    rw [setProposal_objects, hnoted.1] at hrecord
    exact hstate id record payload hrecord
  | rejected hbody hown hmatch hopen => exact hstate
  | superseded hbody hown hmatch hopen hreplacement => exact hstate
  | @accepted object proposal hbody hfree hcheck =>
    intro id record payload hrecord hpayload
    rw [commitAcceptance_object? hfree] at hrecord
    split at hrecord
    · cases hrecord
      have hactive : payload.status = .active :=
        hwrites.accepted object payload hbody hpayload happlies
      simp [hactive, freshRecord]
    · exact hstate id record payload hrecord hpayload
  | unchanged hbody hhuman => exact hstate
  | @corrected correction record planned committed hbody hhuman hown hplan hcheck =>
    intro id after payload hafter hpayload
    obtain rfl := checkPlan_ok hcheck
    have hrel := commitPlan_object? entry.event.id entry.event.at_ entry.trusted.actor
      (lapseVerification record.object planned) hown id
    rw [hafter] at hrel
    split at hrel
    · cases hrel with
      | some hrepointed =>
        have hagrees := correctedRecord_agrees (hstate _ record · hown) hwrites hbody happlies hown
          (planCorrection_planned hplan) entry.trusted.actor
        exact hagrees.repointed hrepointed payload hpayload
    · obtain ⟨before, hbefore, hrepointed⟩ := exists_before_of_rel hrel
      have hagrees : Agrees before := (hstate id before · hbefore)
      exact hagrees.repointed hrepointed payload hpayload
  | @related relation ends hbody hcheck =>
    intro id after payload hafter hpayload
    rcases commitRelation_cases entry.event.at_ hcheck with ⟨targetId, target, -, -, htarget, -, heq⟩ |
      ⟨question, -, hsource, hquestion, -, -, -, heq⟩ | ⟨-, -, heq⟩
    · rw [heq, object?_setObject (object?_ne_proto htarget)] at hafter
      split at hafter
      · cases hafter
        have hagrees : Agrees target := (hstate _ target · htarget)
        exact hagrees.repointed (Or.inr ⟨_, _, rfl⟩) payload hpayload
      · exact hstate id after payload hafter hpayload
    · rw [heq, object?_setObject (object?_ne_proto hsource)] at hafter
      split at hafter
      · cases hafter
        cases hpayload
      · exact hstate id after payload hafter hpayload
    · rw [heq] at hafter
      exact hstate id after payload hafter hpayload

/-- In every run whose events write no decision status against the pointer, every decision is
`superseded` exactly when it has a supersession pointer. -/
theorem decision_statuses_agree (h : Reached WritesPointerStatus state) :
    DecisionStatusesAgree state := by
  refine h.invariant DecisionStatusesAgree ?_ ?_ ?_
  · rintro id record payload ⟨⟩
  · intro a b hsame hstate id record payload hrecord
    unfold CoreState.object? at hrecord
    rw [hsame.1] at hrecord
    exact hstate id record payload hrecord
  · intro state next entry hstate hwrites hdispatch
    exact dispatch_decisionStatuses hstate hwrites hdispatch

end Decisions

section DecisionRuns

def plainDecision (id statement : String) : AcceptedObject :=
  filedObject id none (.decision ⟨statement, none, .active⟩)

/-- A decision, and an amendment that marks it superseded. -/
def markedLog : List AuthoredEvent :=
  [humanEvent "e1" "2026-01-01T00:00:01.000Z" (.objectAccepted (plainDecision "d" "Ship it")),
    humanEvent "e2" "2026-01-01T00:00:02.000Z" (.objectCorrected
      { plainCorrection "d" .amend with patch := [("status", .string "superseded")] })]

/-- The amendment applies, and nothing supersedes the decision. -/
theorem marked_superseded_reached :
    ∃ state, @Reached Unicode.ascii anyEvent state ∧ ¬ DecisionStatusesAgree state := by
  let _ : Unicode := Unicode.ascii
  have hpayload : ((offerAll markedLog).object? "d").map (fun record => record.object.payload) =
      some (.decision ⟨"Ship it", none, .superseded⟩) := by decide +kernel
  have hpointer : pointer (offerAll markedLog) "d" = none := by decide +kernel
  refine ⟨offerAll markedLog, reached_offerAll fun _ _ _ => trivial, ?_⟩
  intro hagree
  obtain ⟨record, hrecord, hheld⟩ := Option.map_eq_some_iff.mp hpayload
  unfold pointer at hpointer
  rw [hrecord] at hpointer
  exact (hagree "d" record _ hrecord hheld).mp rfl hpointer

/-- `d` supersedes `c`, and is retracted. -/
def replacedLog : List AuthoredEvent :=
  [humanEvent "e1" "2026-01-01T00:00:01.000Z" (.objectAccepted (plainDecision "c" "Ship now")),
    humanEvent "e2" "2026-01-01T00:00:02.000Z" (.objectAccepted (plainDecision "d" "Ship it")),
    humanEvent "e3" "2026-01-01T00:00:03.000Z" (.relationAdded (supersedesEdge "r" "d" "c")),
    humanEvent "e4" "2026-01-01T00:00:04.000Z" (.objectCorrected (plainCorrection "d" .retract))]

/-- The statuses of a run that supersedes a decision and takes that back. -/
theorem replaced_statuses_agree :
    ((@offerAll Unicode.ascii (replacedLog.take 3)).object? "c").map
        (fun record => record.object.payload) = some (.decision ⟨"Ship now", none, .superseded⟩) ∧
      ((@offerAll Unicode.ascii replacedLog).object? "c").map
        (fun record => record.object.payload) = some (.decision ⟨"Ship now", none, .active⟩) ∧
      DecisionStatusesAgree (@offerAll Unicode.ascii replacedLog) := by
  let _ : Unicode := Unicode.ascii
  refine and_assoc.mp ⟨by decide +kernel, decision_statuses_agree (reached_offerAll ?_)⟩
  intro entry hentry state
  simp only [replacedLog, List.mem_cons, List.not_mem_nil, or_false] at hentry
  rcases hentry with rfl | rfl | rfl | rfl
  · exact ⟨by rintro object payload ⟨⟩ ⟨⟩ -; rfl, by rintro correction _ _ _ ⟨⟩,
      by rintro correction _ ⟨⟩⟩
  · exact ⟨by rintro object payload ⟨⟩ ⟨⟩ -; rfl, by rintro correction _ _ _ ⟨⟩,
      by rintro correction _ ⟨⟩⟩
  · exact ⟨by rintro object payload ⟨⟩, by rintro correction _ _ _ ⟨⟩, by rintro correction _ ⟨⟩⟩
  · exact ⟨by rintro object payload ⟨⟩, by rintro correction _ _ _ ⟨⟩ ⟨⟩,
      by rintro correction _ ⟨⟩ ⟨⟩⟩

end DecisionRuns

/-! ## Questions -/

section Answers

variable {state next : CoreState}

/-- The answers a reopening of an object has put aside. -/
def reopenedOf (state : CoreState) (id : Id) : List Id :=
  ((state.object? id).map ObjectRecord.reopenedFromAnswers).getD []

theorem answersOf_eq (state : CoreState) (id : Id) :
    answersOf state id = state.relations.filter fun relation =>
      relation.kind == .answers && relation.fromObjectId == id &&
        !(reopenedOf state id).contains relation.id := by
  unfold answersOf liveAnswers
  rw [List.filter_filter]
  refine List.filter_congr ?_
  intro relation _
  by_cases hid : relation.fromObjectId = id
  · rw [hid]
    simp [reopenedOf]
  · rw [beq_eq_false_iff_ne.mpr hid]
    simp

theorem answersOf_congr {id : Id} (hrelations : next.relations = state.relations)
    (hreopened : reopenedOf next id = reopenedOf state id) :
    answersOf next id = answersOf state id := by
  rw [answersOf_eq, answersOf_eq, hrelations, hreopened]

theorem answersOf_append {relation : Relation} {id : Id}
    (hrelations : next.relations = state.relations ++ [relation])
    (hreopened : reopenedOf next id = reopenedOf state id) :
    answersOf next id = answersOf state id ++
      if relation.kind = .answers ∧ relation.fromObjectId = id ∧
          relation.id ∉ reopenedOf state id then [relation] else [] := by
  rw [answersOf_eq, answersOf_eq, hrelations, hreopened, List.filter_append]
  congr 1
  rw [List.filter_cons, List.filter_nil]
  by_cases hlive : relation.kind = .answers ∧ relation.fromObjectId = id ∧
      relation.id ∉ reopenedOf state id
  · rw [if_pos hlive, if_pos]
    simp [hlive]
  · rw [if_neg hlive, if_neg]
    simpa [and_assoc] using hlive

theorem Integrity.answersOf_eq_nil (h : Integrity state) {id : Id} {record : ObjectRecord}
    (hrecord : state.object? id = some record) (htype : record.object.type ≠ .openQuestion) :
    answersOf state id = [] := by
  rw [answersOf, List.filter_eq_nil_iff]
  intro relation hlive hfrom
  obtain ⟨-, source, -, -, hsource, -, hquestion, -⟩ := h.answers relation hlive
  rw [beq_iff_eq.mp hfrom, hrecord] at hsource
  cases hsource
  exact htype hquestion

theorem Integrity.answersOf_absent (h : Integrity state) {id : Id}
    (hnone : state.object? id = none) : answersOf state id = [] := by
  rw [answersOf, List.filter_eq_nil_iff]
  intro relation hlive hfrom
  obtain ⟨-, source, -, -, hsource, -⟩ := h.answers relation hlive
  rw [beq_iff_eq.mp hfrom, hnone] at hsource
  cases hsource

/-- What was put aside are edges of the state, and the statuses of the questions agree with the live
ones. -/
structure QuestionsTrack (state : CoreState) : Prop where
  reopened : ∀ id, reopenedOf state id ⊆ state.relations.map Relation.id
  statuses : QuestionStatusesAgree state

theorem agree_of_open {payload : OpenQuestionPayload} {answers : List Relation}
    (hopen : payload.status = .open) (hnone : answers = []) :
    (payload.status = .answered ↔ answers.length = 1) ∧ (payload.status = .open ↔ answers = []) := by
  simp [hopen, hnone]

theorem agree_of_answered {payload : OpenQuestionPayload} {relation : Relation}
    (hanswered : payload.status = .answered) :
    (payload.status = .answered ↔ [relation].length = 1) ∧
      (payload.status = .open ↔ [relation] = []) := by
  simp [hanswered]

theorem QuestionsTrack.sameFacts (h : QuestionsTrack state)
    (hsame : next.objects = state.objects ∧ next.relations = state.relations) :
    QuestionsTrack next := by
  obtain ⟨hobjects, hrelations⟩ := hsame
  have hobject : next.object? = state.object? := by
    funext id
    unfold CoreState.object?
    rw [hobjects]
  have hreopened : ∀ id, reopenedOf next id = reopenedOf state id := by
    intro id
    unfold reopenedOf
    rw [hobject]
  refine ⟨?_, ?_⟩
  · intro id
    rw [hreopened, hrelations]
    exact h.reopened id
  · intro id record payload hrecord hpayload
    rw [hobject] at hrecord
    rw [answersOf_congr hrelations (hreopened id)]
    exact h.statuses id record payload hrecord hpayload

theorem answered_congr {id : Id} (hobjects : next.objects = state.objects)
    (h : Answered next id) : Answered state id := by
  obtain ⟨record, payload, hrecord, hpayload, hanswered⟩ := h
  unfold CoreState.object? at hrecord
  rw [hobjects] at hrecord
  exact ⟨record, payload, hrecord, hpayload, hanswered⟩

end Answers

section Questions

variable {state next : CoreState} {correction : ObjectCorrected} {record : ObjectRecord}
  {plan : CorrectionPlan}

theorem Repointed.openQuestion {before after : ObjectRecord} {payload : OpenQuestionPayload}
    (h : Repointed before after) (hpayload : after.object.payload = .openQuestion payload) :
    before.object.payload = .openQuestion payload := by
  rcases h with rfl | ⟨new, at_, rfl⟩
  · exact hpayload
  · unfold setSuperseded at hpayload
    cases hbefore : before.object.payload with
    | decision held => simp [hbefore] at hpayload
    | commitment held => simp [hbefore] at hpayload
    | openQuestion held => simpa [hbefore] using hpayload
    | claim held => simp [hbefore] at hpayload
    | objective held => simp [hbefore] at hpayload

theorem commitPlan_reopenedOf (eventId : Id) (at_ : Timestamp) (actor : Actor)
    (plan : CorrectionPlan) (hown : state.object? correction.objectId = some record) (id : Id) :
    reopenedOf (commitPlan state eventId correction at_ record actor plan) id =
      if id = correction.objectId then (correctedRecord record at_ actor plan).reopenedFromAnswers
      else reopenedOf state id := by
  unfold reopenedOf
  rw [commitPlan_map (fun _ _ h => h.carried.2.2) eventId at_ actor plan hown id]
  split <;> rfl

theorem correctedRecord_reopened_of_nothing (record : ObjectRecord) (at_ : Timestamp) (actor : Actor)
    (hplan : ∀ answers, plan.afterCommit ≠ .keepAnswers answers) :
    (correctedRecord record at_ actor plan).reopenedFromAnswers = record.reopenedFromAnswers := by
  unfold correctedRecord
  dsimp only
  split
  · rename_i answers hanswers
    exact absurd hanswers (hplan answers)
  · rfl

theorem mem_correctedRecord_reopened (record : ObjectRecord) (at_ : Timestamp) (actor : Actor)
    {answers : List Id} (hplan : plan.afterCommit = .keepAnswers answers) (id : Id) :
    id ∈ (correctedRecord record at_ actor plan).reopenedFromAnswers ↔
      id ∈ record.reopenedFromAnswers ∨ id ∈ answers := by
  unfold correctedRecord
  rw [hplan]
  exact mem_keepAnswers answers record.reopenedFromAnswers id

theorem reopenedOf_of_object? {id : Id} (h : state.object? id = some record) :
    reopenedOf state id = record.reopenedFromAnswers := by
  unfold reopenedOf
  rw [h]
  rfl

theorem Planned.keepAnswers {at_ : Timestamp} (h : Planned state correction at_ record plan)
    {answers : List Id} (hafter : plan.afterCommit = .keepAnswers answers) :
    answers = (state.relations.filter fun relation =>
      relation.kind == .answers && relation.fromObjectId == record.object.id).map Relation.id := by
  cases h with
  | @reopenedQuestion haction hlive payload hpayload hanswered held hanswers =>
    cases hafter
    exact hanswers
  | retracted haction hlive => cases hafter
  | restored haction hgone => cases hafter
  | retyped haction hlive hto hother hstructure hparse => cases hafter
  | reopenedCommitment haction hlive hpayload => cases hafter
  | edited haction hlive hfields hparse hchanged => cases hafter

theorem commitPlan_reopened (htrack : QuestionsTrack state) (eventId : Id) (at_ : Timestamp)
    (actor : Actor) (hown : state.object? correction.objectId = some record)
    (h : Planned state correction at_ record plan) (id : Id) :
    reopenedOf (commitPlan state eventId correction at_ record actor
      (lapseVerification record.object plan)) id ⊆ state.relations.map Relation.id := by
  obtain ⟨-, -, hafter⟩ := lapseVerification_envelope record.object plan
  have hheld : record.reopenedFromAnswers ⊆ state.relations.map Relation.id := by
    rw [← reopenedOf_of_object? hown]
    exact htrack.reopened correction.objectId
  rw [commitPlan_reopenedOf eventId at_ actor _ hown]
  split
  · by_cases hkeeps : ∃ answers, plan.afterCommit = .keepAnswers answers
    · obtain ⟨answers, hanswers⟩ := hkeeps
      intro relationId hmem
      rw [mem_correctedRecord_reopened record at_ actor (hafter.trans hanswers)] at hmem
      rcases hmem with hmem | hmem
      · exact hheld hmem
      · rw [h.keepAnswers hanswers] at hmem
        obtain ⟨relation, hrelation, rfl⟩ := List.mem_map.mp hmem
        exact List.mem_map_of_mem (List.mem_filter.mp hrelation).1
    · rw [correctedRecord_reopened_of_nothing]
      · exact hheld
      · intro answers hanswers
        exact hkeeps ⟨answers, hafter.symm.trans hanswers⟩
  · exact htrack.reopened id

theorem reopened_of_append {relation : Relation} (htrack : QuestionsTrack state)
    (hrelations : next.relations = state.relations ++ [relation])
    (hreopened : ∀ id, reopenedOf next id = reopenedOf state id) (id : Id) :
    reopenedOf next id ⊆ next.relations.map Relation.id := by
  rw [hreopened, hrelations, List.map_append]
  exact List.Subset.trans (htrack.reopened id) (List.subset_append_left _ _)

theorem reopenedOf_setObject {added : CoreState} {id : Id} {before after : ObjectRecord}
    (hadded : added.objects = state.objects) (hheld : state.object? id = some before)
    (hsame : after.reopenedFromAnswers = before.reopenedFromAnswers) (other : Id) :
    reopenedOf (added.setObject id after) other = reopenedOf state other := by
  unfold reopenedOf
  rw [object?_setObject (object?_ne_proto hheld)]
  split
  · rename_i hid
    rw [hid, hheld, Option.map_some, Option.map_some, hsame]
  · unfold CoreState.object?
    rw [hadded]

/-- The statuses of the questions agree with their live answers after a new edge. -/
theorem commitRelation_tracks {relation : Relation} {ends : Endpoints} {actor : Actor}
    (htrack : QuestionsTrack state) (at_ : Timestamp)
    (hcheck : checkRelation state relation actor = .ok ends) :
    QuestionsTrack (commitRelation state at_ relation ends) := by
  have hrelations : (commitRelation state at_ relation ends).relations =
      state.relations ++ [relation] := commitRelation_relations
  obtain ⟨hfresh, -⟩ := checkRelation_ok hcheck
  rcases commitRelation_cases at_ hcheck with ⟨targetId, target, hkind, -, htarget, -, heq⟩ |
    ⟨question, hkind, hsource, hquestion, hopen, -, -, heq⟩ | ⟨-, hkind, heq⟩
  · have hrepointed : Repointed target (setSuperseded target (some relation.fromObjectId) at_) :=
      Or.inr ⟨_, _, rfl⟩
    have hreopened : ∀ id, reopenedOf (commitRelation state at_ relation ends) id =
        reopenedOf state id := by
      intro id
      rw [heq]
      exact reopenedOf_setObject rfl htarget hrepointed.carried.2.2 id
    refine ⟨reopened_of_append htrack hrelations hreopened, ?_⟩
    intro id after payload hafter hpayload
    rw [answersOf_append hrelations (hreopened id), if_neg (by simp [hkind]), List.append_nil]
    rw [heq, object?_setObject (object?_ne_proto htarget)] at hafter
    split at hafter
    · rename_i hid
      cases hafter
      rw [hid]
      exact htrack.statuses _ target payload htarget (hrepointed.openQuestion hpayload)
    · exact htrack.statuses id after payload hafter hpayload
  · have hreopened : ∀ id, reopenedOf (commitRelation state at_ relation ends) id =
        reopenedOf state id := by
      intro id
      rw [heq]
      refine reopenedOf_setObject ?_ hsource ?_ id
      · rfl
      · rfl
    refine ⟨reopened_of_append htrack hrelations hreopened, ?_⟩
    intro id after payload hafter hpayload
    rw [answersOf_append hrelations (hreopened id)]
    rw [heq, object?_setObject (object?_ne_proto hsource)] at hafter
    split at hafter
    · rename_i hid
      cases hafter
      cases hpayload
      -- The question was open, so it had no live answer; the new edge was never put aside.
      have hnone : answersOf state id = [] := by
        rw [hid]
        exact (htrack.statuses _ ends.source question hsource hquestion).2.mp hopen
      have hnew : relation.id ∉ reopenedOf state id := by
        intro haside
        obtain ⟨existing, hmem, hsame⟩ := List.mem_map.mp (htrack.reopened id haside)
        exact hfresh existing hmem hsame
      rw [hnone, if_pos ⟨hkind, hid.symm, hnew⟩, List.nil_append]
      exact agree_of_answered rfl
    · rename_i hid
      rw [if_neg, List.append_nil]
      · exact htrack.statuses id after payload hafter hpayload
      · rintro ⟨-, hfrom, -⟩
        exact hid hfrom.symm
  · have hreopened : ∀ id, reopenedOf (commitRelation state at_ relation ends) id =
        reopenedOf state id := by
      intro id
      rw [heq]
      rfl
    refine ⟨reopened_of_append htrack hrelations hreopened, ?_⟩
    intro id after payload hafter hpayload
    rw [answersOf_append hrelations (hreopened id), if_neg (by simp [hkind]), List.append_nil]
    rw [heq] at hafter
    exact htrack.statuses id after payload hafter hpayload

variable {entry : AuthoredEvent} [Unicode]

/-- The question a correction plans: the one it was, with its status; a new one, which is open; or the
one it was, reopened. -/
theorem Planned.question (hsettles : SettlesByAnswer state entry)
    (hbody : entry.event.body = .objectCorrected correction) (happlies : Applies state entry)
    (hown : state.object? correction.objectId = some record)
    (h : Planned state correction entry.event.at_ record plan) {payload : OpenQuestionPayload}
    (hpayload : plan.object.payload = .openQuestion payload) :
    (∃ held, record.object.payload = .openQuestion held ∧ held.status = payload.status ∧
        ∀ answers, plan.afterCommit ≠ .keepAnswers answers) ∨
      (payload.status = .open ∧ record.object.type ≠ .openQuestion ∧
        ∀ answers, plan.afterCommit ≠ .keepAnswers answers) ∨
      (payload.status = .open ∧ ∃ answers, plan.afterCommit = .keepAnswers answers) := by
  cases h with
  | retracted haction hlive => exact Or.inl ⟨payload, hpayload, rfl, by rintro answers ⟨⟩⟩
  | restored haction hgone => exact Or.inl ⟨payload, hpayload, rfl, by rintro answers ⟨⟩⟩
  | @retyped haction hlive toType parsed hto hother hstructure hparse =>
    obtain rfl : parsed = .openQuestion payload := hpayload
    obtain rfl : toType = .openQuestion := (parsePayload_type hparse).symm
    have hopen := retype_openQuestion_status hparse
      (hsettles.retyped correction hbody haction hto happlies)
    exact Or.inr (Or.inl ⟨hopen, hother.symm, by rintro answers ⟨⟩⟩)
  | @reopenedQuestion haction hlive held hquestion hanswered answers hanswers =>
    cases hpayload
    exact Or.inr (Or.inr ⟨rfl, answers, rfl⟩)
  | reopenedCommitment haction hlive hcommitment => cases hpayload
  | @edited haction hlive hfields after hparse hchanged =>
    obtain rfl : after = .openQuestion payload := hpayload
    obtain ⟨before, hbefore⟩ := Payload.openQuestion_of_type (parsePayload_type hparse).symm
    refine Or.inl ⟨before, hbefore, (applyPayloadPatch_openQuestion hbefore hparse ?_).symm,
      by rintro answers ⟨⟩⟩
    intro status hgiven
    rcases haction with hamend | hreattribute
    · exact hsettles.amended correction record before status hbody hamend hown hbefore hgiven
        happlies
    · rw [checkEditedFields_status hfields hreattribute] at hgiven
      cases hgiven

/-- The statuses of the questions agree with their live answers after a correction. -/
theorem commitPlan_tracks (hk : Keyed state) (hintegrity : Integrity state)
    (htrack : QuestionsTrack state) (hsettles : SettlesByAnswer state entry)
    (hbody : entry.event.body = .objectCorrected correction) (happlies : Applies state entry)
    (hown : state.object? correction.objectId = some record)
    (h : Planned state correction entry.event.at_ record plan) (actor : Actor) :
    QuestionsTrack (commitPlan state entry.event.id correction entry.event.at_ record actor
      (lapseVerification record.object plan)) := by
  obtain ⟨-, -, hafter⟩ := lapseVerification_envelope record.object plan
  have hreopened := commitPlan_reopenedOf entry.event.id entry.event.at_ actor
    (lapseVerification record.object plan) hown
  refine ⟨?_, ?_⟩
  · intro id
    rw [commitPlan_relations]
    exact commitPlan_reopened htrack entry.event.id entry.event.at_ actor hown h id
  · intro id after payload hid hpayload
    have hrel := commitPlan_object? entry.event.id entry.event.at_ actor
      (lapseVerification record.object plan) hown id
    rw [hid] at hrel
    by_cases hself : id = correction.objectId
    · subst hself
      rw [if_pos rfl] at hrel
      have hplanned : plan.object.payload = .openQuestion payload := by
        cases hrel with
        | some hrepointed =>
          have hcorrected := hrepointed.openQuestion hpayload
          rcases lapseVerification_payload record.object plan with hsame | ⟨held, -, hlapsed⟩
          · exact hsame.symm.trans hcorrected
          · have hclaim := hlapsed.symm.trans hcorrected
            cases hclaim
      -- Where nothing is put aside, the live answers are those there were.
      have hkept (hno : ∀ answers, plan.afterCommit ≠ .keepAnswers answers) :
          answersOf (commitPlan state entry.event.id correction entry.event.at_ record actor
            (lapseVerification record.object plan)) correction.objectId =
            answersOf state correction.objectId := by
        refine answersOf_congr commitPlan_relations ?_
        rw [hreopened, if_pos rfl, correctedRecord_reopened_of_nothing,
          reopenedOf_of_object? hown]
        intro answers hanswers
        exact hno answers (hafter.symm.trans hanswers)
      rcases h.question hsettles hbody happlies hown hplanned with
        ⟨held, hheld, hstatus, hno⟩ | ⟨hopen, htype, hno⟩ | ⟨hopen, answers, hanswers⟩
      · rw [hkept hno, ← hstatus]
        exact htrack.statuses _ record held hown hheld
      · exact agree_of_open hopen ((hkept hno).trans (hintegrity.answersOf_eq_nil hown htype))
      · refine agree_of_open hopen ?_
        rw [answersOf_eq, List.filter_eq_nil_iff, commitPlan_relations]
        intro relation hmem hlive
        simp only [Bool.and_eq_true, beq_iff_eq, Bool.not_eq_true', List.contains_eq_mem,
          decide_eq_false_iff_not] at hlive
        obtain ⟨⟨hkind, hfrom⟩, hnot⟩ := hlive
        rw [hreopened, if_pos rfl,
          mem_correctedRecord_reopened record entry.event.at_ actor (hafter.trans hanswers)] at hnot
        refine hnot (Or.inr ?_)
        rw [h.keepAnswers hanswers]
        refine List.mem_map_of_mem (List.mem_filter.mpr ⟨hmem, ?_⟩)
        simp [hkind, hfrom, hk _ record hown]
    · rw [if_neg hself] at hrel
      have hsame : answersOf (commitPlan state entry.event.id correction entry.event.at_ record actor
          (lapseVerification record.object plan)) id = answersOf state id := by
        refine answersOf_congr commitPlan_relations ?_
        rw [hreopened, if_neg hself]
      rw [hsame]
      obtain ⟨before, hbefore, hrepointed⟩ := exists_before_of_rel hrel
      exact htrack.statuses id before payload hbefore (hrepointed.openQuestion hpayload)

/-- The statuses of the questions agree with their live answers after an acceptance. -/
theorem commitAcceptance_tracks {object : AcceptedObject} {proposal : Option ProposalRecord}
    (hintegrity : Integrity state) (htrack : QuestionsTrack state)
    (hsettles : SettlesByAnswer state entry)
    (hbody : entry.event.body = .objectAccepted object) (happlies : Applies state entry)
    (hfree : state.objects.get object.id = .absent) (at_ : Timestamp) (actor : Actor) :
    QuestionsTrack (commitAcceptance state at_ object actor proposal) := by
  have hnone : state.object? object.id = none := (PlainObject.get_eq_absent.mp hfree).1
  have hreopened : ∀ id, reopenedOf (commitAcceptance state at_ object actor proposal) id =
      reopenedOf state id := by
    intro id
    unfold reopenedOf
    rw [commitAcceptance_object? hfree]
    split
    · rename_i hid
      rw [hid, hnone]
      rfl
    · rfl
  refine ⟨?_, ?_⟩
  · intro id
    rw [hreopened, commitAcceptance_relations]
    exact htrack.reopened id
  · intro id after payload hafter hpayload
    rw [answersOf_congr commitAcceptance_relations (hreopened id)]
    rw [commitAcceptance_object? hfree] at hafter
    split at hafter
    · rename_i hid
      cases hafter
      refine agree_of_open (hsettles.accepted object payload hbody hpayload happlies) ?_
      rw [hid]
      exact hintegrity.answersOf_absent hnone
    · exact htrack.statuses id after payload hafter hpayload

theorem dispatch_tracks (hk : Keyed state) (hintegrity : Integrity state)
    (htrack : QuestionsTrack state) (hsettles : SettlesByAnswer state entry)
    (h : dispatch state entry = .ok next) : QuestionsTrack next := by
  have happlies : Applies state entry := ⟨next, h⟩
  cases dispatch_applied h with
  | recorded hbody hfree hnoted => exact htrack.sameFacts ⟨hnoted.1, hnoted.2.1⟩
  | rejected hbody hown hmatch hopen => exact htrack.sameFacts ⟨rfl, rfl⟩
  | superseded hbody hown hmatch hopen hreplacement => exact htrack.sameFacts ⟨rfl, rfl⟩
  | accepted hbody hfree hcheck =>
    exact commitAcceptance_tracks hintegrity htrack hsettles hbody happlies hfree _ _
  | unchanged hbody hhuman => exact htrack.sameFacts ⟨rfl, rfl⟩
  | corrected hbody hhuman hown hplan hcheck =>
    obtain rfl := checkPlan_ok hcheck
    exact commitPlan_tracks hk hintegrity htrack hsettles hbody happlies hown
      (planCorrection_planned hplan) _
  | related hbody hcheck => exact commitRelation_tracks htrack _ hcheck

theorem Reached.tracks (h : Reached SettlesByAnswer state) : QuestionsTrack state := by
  suffices hall : (Keyed state ∧ Integrity state) ∧ QuestionsTrack state from hall.2
  refine h.invariant (fun state => (Keyed state ∧ Integrity state) ∧ QuestionsTrack state) ?_ ?_ ?_
  · refine ⟨(Reached.start : Reached anyEvent emptyState).keyed_integrity, ?_, ?_⟩
    · rintro id relationId ⟨⟩
    · rintro id record payload ⟨⟩
  · rintro a b hsame ⟨⟨hk, hintegrity⟩, htrack⟩
    exact ⟨⟨hk.congr hsame.1, hintegrity.sameFacts hsame⟩, htrack.sameFacts ⟨hsame.1, hsame.2.1⟩⟩
  · rintro state next entry ⟨⟨hk, hintegrity⟩, htrack⟩ hsettles hdispatch
    have happlied := dispatch_applied hdispatch
    exact ⟨⟨happlied.keyed hk, happlied.integrity hk hintegrity⟩,
      dispatch_tracks hk hintegrity htrack hsettles hdispatch⟩

theorem dispatch_answered (hsettles : SettlesByAnswer state entry)
    (h : dispatch state entry = .ok next) {id : Id} (hafter : Answered next id)
    (hbefore : ¬ Answered state id) : isHuman entry.trusted.actor = true := by
  have happlies : Applies state entry := ⟨next, h⟩
  cases dispatch_applied h with
  | recorded hbody hfree hnoted => exact absurd (answered_congr hnoted.1 hafter) hbefore
  | rejected hbody hown hmatch hopen => exact absurd (answered_congr rfl hafter) hbefore
  | superseded hbody hown hmatch hopen hreplacement =>
    exact absurd (answered_congr rfl hafter) hbefore
  | @accepted object proposal hbody hfree hcheck =>
    obtain ⟨record, payload, hrecord, hpayload, hanswered⟩ := hafter
    rw [commitAcceptance_object? hfree] at hrecord
    split at hrecord
    · cases hrecord
      rw [hsettles.accepted object payload hbody hpayload happlies] at hanswered
      cases hanswered
    · exact absurd ⟨record, payload, hrecord, hpayload, hanswered⟩ hbefore
  | unchanged hbody hhuman => exact hhuman
  | corrected hbody hhuman hown hplan hcheck => exact hhuman
  | @related relation ends hbody hcheck =>
    rcases commitRelation_cases entry.event.at_ hcheck with ⟨targetId, target, -, -, -, hsup, -⟩ |
      ⟨question, -, -, -, -, -, hhuman, -⟩ | ⟨-, -, heq⟩
    · exact (checkSupersedes_ok hsup).1
    · exact hhuman
    · rw [heq] at hafter
      exact absurd (answered_congr rfl hafter) hbefore

/-- In every run whose events settle questions by `answers` edges alone, every question is `answered`
exactly when it has one live answer and `open` exactly when it has none, and whatever settles a
question comes from a human. -/
theorem question_statuses_agree (h : Reached SettlesByAnswer state) :
    QuestionStatusesAgree state ∧
      ∀ entry outcome next, SettlesByAnswer state entry → step state entry = .ok (outcome, next) →
        ∀ id, Answered next id → ¬ Answered state id → isHuman entry.trusted.actor = true := by
  refine ⟨h.tracks.statuses, ?_⟩
  intro entry outcome next hsettles hstep id hafter hbefore
  rcases step_facts hstep with hsame | ⟨settled, hdispatch, hsame⟩
  · exact absurd (answered_congr hsame.1 hafter) hbefore
  · exact dispatch_answered hsettles hdispatch (answered_congr hsame.1 hafter) hbefore

end Questions

section QuestionRuns

def bornAnsweredLog : List AuthoredEvent :=
  [humanEvent "e1" "2026-01-01T00:00:01.000Z" (.objectAccepted
    (filedObject "q" none (.openQuestion ⟨"When do we ship?", .answered⟩)))]

/-- The acceptance applies, and nothing answers the question. -/
theorem born_answered_reached :
    ∃ state, @Reached Unicode.ascii anyEvent state ∧ ¬ QuestionStatusesAgree state := by
  let _ : Unicode := Unicode.ascii
  have hpayload : ((offerAll bornAnsweredLog).object? "q").map (fun record => record.object.payload) =
      some (.openQuestion ⟨"When do we ship?", .answered⟩) := by decide +kernel
  have hnone : (answersOf (offerAll bornAnsweredLog) "q").length = 0 := by decide +kernel
  refine ⟨offerAll bornAnsweredLog, reached_offerAll fun _ _ _ => trivial, ?_⟩
  intro hagree
  obtain ⟨record, hrecord, hheld⟩ := Option.map_eq_some_iff.mp hpayload
  have hone := (hagree "q" record _ hrecord hheld).1.mp rfl
  rw [hnone] at hone
  cases hone

def reopenQ : AuthoredEvent :=
  humanEvent "e5" "2026-01-01T00:00:05.000Z" (.objectCorrected (plainCorrection "q" .reopen))

/-- A question that is answered and reopened. -/
theorem reopened_statuses_agree :
    ((answersOf (@offerAll Unicode.ascii answeredLog) "q").map Relation.id = ["r"]) ∧
      ((answersOf (@offerAll Unicode.ascii (answeredLog ++ [reopenQ])) "q").map Relation.id = []) ∧
      QuestionStatusesAgree (@offerAll Unicode.ascii (answeredLog ++ [reopenQ])) := by
  let _ : Unicode := Unicode.ascii
  refine and_assoc.mp ⟨by decide +kernel, (question_statuses_agree (reached_offerAll ?_)).1⟩
  intro entry hentry state
  simp only [answeredLog, List.cons_append, List.nil_append, List.mem_cons, List.not_mem_nil,
    or_false] at hentry
  rcases hentry with rfl | rfl | rfl | rfl | rfl
  · exact ⟨by rintro object payload ⟨⟩ ⟨⟩, by rintro correction _ _ _ ⟨⟩, by rintro correction ⟨⟩⟩
  · exact ⟨by rintro object payload ⟨⟩ ⟨⟩, by rintro correction _ _ _ ⟨⟩, by rintro correction ⟨⟩⟩
  · exact ⟨by rintro object payload ⟨⟩ ⟨⟩ -; rfl, by rintro correction _ _ _ ⟨⟩,
      by rintro correction ⟨⟩⟩
  · exact ⟨by rintro object payload ⟨⟩, by rintro correction _ _ _ ⟨⟩, by rintro correction ⟨⟩⟩
  · exact ⟨by rintro object payload ⟨⟩, by rintro correction _ _ _ ⟨⟩ ⟨⟩,
      by rintro correction ⟨⟩ ⟨⟩⟩

end QuestionRuns

end Core
