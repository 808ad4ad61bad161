import Mathlib.Data.Option.Basic
import AtriumVerified.Core.Proofs.SupersessionProofs

/-!
# What an applied event did

`Applied` lists what the reducer can do to the facts of a room, one case for each handler, with
everything the handler had checked, as `Planned` does for the verbs of a correction. An invariant
of the runs is shown case by case over these two.
-/

namespace Core

open Checked Js
open CoreState (fail)

theorem proposal?_setProposal {s : CoreState} {id : Id} (h : id ≠ "__proto__")
    (record : ProposalRecord) (other : Id) :
    (s.setProposal id record).proposal? other =
      if other = id then some record else s.proposal? other :=
  PlainObject.own?_set _ _ _ h _

theorem proposal?_ne_proto {state : CoreState} {id : Id} {record : ProposalRecord}
    (h : state.proposal? id = some record) : id ≠ "__proto__" :=
  PlainObject.ne_proto_of_own h

theorem parsePayload_type {type : AcceptedObjectType} {fields : List (String × Json)}
    {payload : Payload} (h : parsePayload type fields = .ok payload) : payload.type = type := by
  unfold parsePayload at h
  cases type with
  | decision =>
    obtain ⟨f, status, -, -, rfl⟩ := Schema.both_eq_ok.mp h
    rfl
  | commitment =>
    obtain ⟨f, status, -, -, rfl⟩ := Schema.both_eq_ok.mp h
    rfl
  | openQuestion =>
    obtain ⟨question, status, -, -, rfl⟩ := Schema.both_eq_ok.mp h
    rfl
  | claim =>
    obtain ⟨f, verification, -, -, rfl⟩ := Schema.both_eq_ok.mp h
    rfl
  | objective =>
    obtain ⟨title, status, -, -, rfl⟩ := Schema.both_eq_ok.mp h
    rfl

/-! ## Events, kind by kind -/

section Events

variable [Unicode] {state next : CoreState} {entry : AuthoredEvent}

inductive Applied (state : CoreState) (entry : AuthoredEvent) : CoreState → Prop
  | recorded {proposal : Proposal} {noted : CoreState}
      (hbody : entry.event.body = .proposalRecorded proposal)
      (hfree : state.proposals.get proposal.stored.id = .absent) (hnoted : SameFacts noted state) :
      Applied state entry (noted.setProposal proposal.stored.id
        ⟨proposal.stored, entry.trusted.actor, .proposed, none, none, none, none⟩)
  | rejected {proposalId : Id} {reason : Option String} {record : ProposalRecord}
      (hbody : entry.event.body = .proposalRejected proposalId reason)
      (hown : state.proposal? proposalId = some record)
      (hmatch : actorMatchesProposer entry.trusted.actor record.proposal.proposer = true)
      (hopen : record.status = .proposed) :
      Applied state entry
        (state.setProposal proposalId { record with status := .rejected, rejectedReason := reason })
  | superseded {proposalId : Id} {byId : Option Id} {reason : Option String}
      {record : ProposalRecord}
      (hbody : entry.event.body = .proposalSuperseded proposalId byId reason)
      (hown : state.proposal? proposalId = some record)
      (hmatch : actorMatchesProposer entry.trusted.actor record.proposal.proposer = true)
      (hopen : record.status = .proposed)
      (hreplacement : checkReplacement state record proposalId byId = .ok ()) :
      Applied state entry (state.setProposal proposalId { record with
        status := .superseded, supersededByProposalId := byId, supersededReason := reason })
  | accepted {object : AcceptedObject} {proposal : Option ProposalRecord}
      (hbody : entry.event.body = .objectAccepted object)
      (hfree : state.objects.get object.id = .absent)
      (hcheck : checkAcceptance state object entry.trusted.actor entry.trusted.messages =
        .ok proposal) :
      Applied state entry
        (commitAcceptance state entry.event.at_ object entry.trusted.actor proposal)
  | unchanged {correction : ObjectCorrected} {reason : String}
      (hbody : entry.event.body = .objectCorrected correction)
      (hhuman : isHuman entry.trusted.actor = true) :
      Applied state entry (fail state entry.event.id reason)
  | corrected {correction : ObjectCorrected} {record : ObjectRecord}
      {planned committed : CorrectionPlan}
      (hbody : entry.event.body = .objectCorrected correction)
      (hhuman : isHuman entry.trusted.actor = true)
      (hown : state.object? correction.objectId = some record)
      (hplan : planCorrection state correction entry.event.at_ record = .ok (.plan planned))
      (hcheck : checkPlan state correction record entry.trusted.actor planned = .ok committed) :
      Applied state entry (commitPlan state entry.event.id correction entry.event.at_ record
        entry.trusted.actor committed)
  | related {relation : Relation} {ends : Endpoints}
      (hbody : entry.event.body = .relationAdded relation)
      (hcheck : checkRelation state relation entry.trusted.actor = .ok ends) :
      Applied state entry (commitRelation state entry.event.at_ relation ends)

theorem dispatch_applied (h : dispatch state entry = .ok next) : Applied state entry next := by
  unfold dispatch at h
  dsimp only at h
  split at h
  · rename_i proposal hbody
    obtain ⟨hfree, noted, hnoted, rfl⟩ := applyProposalRecorded_ok h
    refine .recorded hbody hfree ?_
    rcases hnoted with rfl | ⟨text, rfl⟩
    · exact ⟨rfl, rfl, rfl, rfl⟩
    · exact ⟨rfl, rfl, rfl, rfl⟩
  · rename_i hbody
    obtain ⟨record, hown, hmatch, hopen, rfl⟩ := applyProposalRejected_ok h
    exact .rejected hbody (PlainObject.get_eq_own.mp hown) hmatch hopen
  · rename_i hbody
    obtain ⟨record, hown, hmatch, hopen, hreplacement, rfl⟩ := applyProposalSuperseded_ok h
    exact .superseded hbody (PlainObject.get_eq_own.mp hown) hmatch hopen hreplacement
  · rename_i object hbody
    simp only [applyObjectAccepted, bind_eq_ok, pure, Except.pure, Except.ok.injEq] at h
    obtain ⟨proposal, hcheck, rfl⟩ := h
    exact .accepted hbody (checkAcceptance_ok hcheck).1 hcheck
  · rename_i correction hbody
    obtain ⟨record, hown, hhuman, hcases⟩ := applyObjectCorrected_ok h
    rcases hcases with ⟨reason, -, rfl⟩ | ⟨planned, committed, hplan, hcheck, rfl⟩
    · exact .unchanged hbody hhuman
    · exact .corrected hbody hhuman (PlainObject.get_eq_own.mp hown) hplan hcheck
  · rename_i relation hbody
    obtain ⟨ends, hcheck, rfl⟩ := applyRelationAdded_ok h
    exact .related hbody hcheck

theorem Reached.invariant {allowed : CoreState → AuthoredEvent → Prop} (Inv : CoreState → Prop)
    (hstart : Inv emptyState) (hfacts : ∀ {a b : CoreState}, SameFacts a b → Inv b → Inv a)
    (hstep : ∀ {state next : CoreState} {entry : AuthoredEvent}, Inv state → allowed state entry →
      dispatch state entry = .ok next → Inv next)
    {state : CoreState} (h : Reached allowed state) : Inv state := by
  induction h with
  | start => exact hstart
  | next _ hallowed hrow ih =>
    rcases step_facts hrow with hsame | ⟨settled, hdispatch, hsame⟩
    · exact hfacts hsame ih
    · exact hfacts hsame (hstep ih hallowed hdispatch)

end Events

/-! ## The facts after an acceptance -/

section Acceptance

variable {state : CoreState} {object : AcceptedObject} {at_ : Timestamp} {actor : Actor}
  {proposal : Option ProposalRecord}

theorem commitAcceptance_object? (hfree : state.objects.get object.id = .absent) (id : Id) :
    (commitAcceptance state at_ object actor proposal).object? id =
      if id = object.id then some (freshRecord object at_ actor) else state.object? id := by
  unfold CoreState.object?
  rw [commitAcceptance_objects]
  exact PlainObject.own?_set _ _ _ (PlainObject.ne_proto_of_absent hfree) _

theorem commitAcceptance_proposal? [Unicode] {messages : Option (List ProvenanceMessage)}
    (at_ : Timestamp) (hcheck : checkAcceptance state object actor messages = .ok proposal) :
    (object.provenance.proposalId = none ∧ proposal = none ∧ ∀ id,
        (commitAcceptance state at_ object actor proposal).proposal? id = state.proposal? id) ∨
      ∃ proposalId record, object.provenance.proposalId = some proposalId ∧
        proposal = some record ∧
        checkCitedProposal state object proposalId actor messages = .ok record ∧ ∀ id,
        (commitAcceptance state at_ object actor proposal).proposal? id =
          if id = proposalId then
            some { record with status := .accepted, acceptedObjectId := some object.id }
          else state.proposal? id := by
  rcases citedProposal_ok (checkAcceptance_ok hcheck).2 with
    ⟨hnone, rfl⟩ | ⟨proposalId, record, hsome, rfl, hchecked⟩
  · refine Or.inl ⟨hnone, rfl, fun id => ?_⟩
    unfold commitAcceptance
    rw [hnone]
    rfl
  · refine Or.inr ⟨proposalId, record, hsome, rfl, hchecked, fun id => ?_⟩
    obtain ⟨hown, -⟩ := checkCitedProposal_ok hchecked
    unfold commitAcceptance
    rw [hsome]
    exact proposal?_setProposal (proposal?_ne_proto (PlainObject.get_eq_own.mp hown)) _ _

end Acceptance

/-! ## What the supersession loops leave of a record -/

section Repointing

variable {state : CoreState} {at_ : Timestamp} {supersederId : Id}

theorem exists_of_rel {α : Type} {R : α → α → Prop} {a : α} {x : Option α}
    (h : Option.Rel R (some a) x) : ∃ b, x = some b ∧ R a b := by
  cases h with
  | some hab => exact ⟨_, rfl, hab⟩

theorem exists_before_of_rel {α : Type} {R : α → α → Prop} {b : α} {x : Option α}
    (h : Option.Rel R x (some b)) : ∃ a, x = some a ∧ R a b := by
  cases h with
  | some hab => exact ⟨_, rfl, hab⟩

/-- A record, or the record with its pointer moved and a decision's status with it. -/
def Repointed (before after : ObjectRecord) : Prop :=
  after = before ∨ ∃ new at_, after = setSuperseded before new at_

theorem setSuperseded_setSuperseded (record : ObjectRecord) (first second : Option Id)
    (at_ at' : Timestamp) :
    setSuperseded (setSuperseded record first at_) second at' = setSuperseded record second at' := by
  unfold setSuperseded
  cases hpayload : record.object.payload with
  | decision payload => rfl
  | commitment payload => simp only [hpayload]
  | openQuestion payload => simp only [hpayload]
  | claim payload => simp only [hpayload]
  | objective payload => simp only [hpayload]

theorem Repointed.refl (record : ObjectRecord) : Repointed record record := Or.inl rfl

theorem Repointed.trans {a b c : ObjectRecord} (h : Repointed a b) (h' : Repointed b c) :
    Repointed a c := by
  rcases h' with rfl | ⟨new, at_, rfl⟩
  · exact h
  · rcases h with rfl | ⟨old, at', rfl⟩
    · exact Or.inr ⟨new, at_, rfl⟩
    · exact Or.inr ⟨new, at_, setSuperseded_setSuperseded a old new at' at_⟩

/-- The objects of two states, one for one, the second with some pointers moved. -/
def SameButPointers (a b : CoreState) : Prop :=
  ∀ id, Option.Rel Repointed (a.object? id) (b.object? id)

theorem SameButPointers.refl (state : CoreState) : SameButPointers state state := by
  intro id
  cases state.object? id with
  | none => exact .none
  | some record => exact .some (Repointed.refl record)

theorem SameButPointers.trans {a b c : CoreState} (h : SameButPointers a b)
    (h' : SameButPointers b c) : SameButPointers a c := by
  intro id
  have hab := h id
  have hbc := h' id
  cases ha : a.object? id with
  | none =>
    rw [ha] at hab
    cases hb : b.object? id with
    | none => rwa [hb] at hbc
    | some record =>
      rw [hb] at hab
      cases hab
  | some first =>
    rw [ha] at hab
    obtain ⟨second, hb, hfirst⟩ := exists_of_rel hab
    rw [hb] at hbc
    obtain ⟨third, hc, hsecond⟩ := exists_of_rel hbc
    rw [hc]
    exact .some (hfirst.trans hsecond)

theorem SameButPointers.setSuperseded {targetId : Id} {target : ObjectRecord} (new : Option Id)
    (at_ : Timestamp) (h : state.object? targetId = some target) :
    SameButPointers state (state.setObject targetId (setSuperseded target new at_)) := by
  intro id
  rw [object?_setObject (object?_ne_proto h)]
  by_cases hid : id = targetId
  · rw [if_pos hid, hid, h]
    exact .some (Or.inr ⟨new, at_, rfl⟩)
  · rw [if_neg hid]
    exact SameButPointers.refl state id

theorem releaseSupersessions_objects (state : CoreState) (supersederId : Id) (at_ : Timestamp) :
    SameButPointers state (releaseSupersessions state supersederId at_) := by
  refine List.foldlRecOn _ _ (SameButPointers.refl state) fun moved hmoved targetId _ => ?_
  rcases releaseTarget_cases moved supersederId at_ targetId with hsame | ⟨target, htarget, -, hset⟩
  · rwa [hsame]
  · rw [hset]
    exact hmoved.trans (SameButPointers.setSuperseded _ at_ htarget)

theorem reapplySupersessions_objects (state : CoreState) (supersederId : Id) (at_ : Timestamp) :
    SameButPointers state (reapplySupersessions state supersederId at_) := by
  refine List.foldlRecOn _ _ (SameButPointers.refl state) fun moved hmoved targetId _ => ?_
  rcases reapplyTarget_cases moved supersederId at_ targetId with hsame | ⟨target, htarget, -, hset⟩
  · rwa [hsame]
  · rw [hset]
    exact hmoved.trans (SameButPointers.setSuperseded _ at_ htarget)

end Repointing

/-! ## The facts after a correction and after an edge -/

section Facts

variable {state : CoreState} {eventId : Id} {correction : ObjectCorrected} {at_ : Timestamp}
  {record : ObjectRecord} {actor : Actor} {plan : CorrectionPlan}

/-- A correction is recorded and rewrites objects; the rest of the state stays. -/
theorem commitPlan_frame : commitPlan state eventId correction at_ record actor plan = { state with
    objects := (commitPlan state eventId correction at_ record actor plan).objects
    corrections := state.corrections ++
      [correctionRecord eventId correction at_ record actor plan] } := by
  rw [commitPlan_eq]
  split
  · unfold releaseSupersessions
    rw [release_frame]
    rfl
  · unfold reapplySupersessions
    rw [reapply_frame]
    rfl
  · rfl

theorem commitPlan_relations : (commitPlan state eventId correction at_ record actor plan).relations =
    state.relations := by
  rw [commitPlan_frame]

theorem commitPlan_proposals : (commitPlan state eventId correction at_ record actor plan).proposals =
    state.proposals := by
  rw [commitPlan_frame]

theorem commitPlan_objects : SameButPointers
    (writtenState state eventId correction at_ record actor plan)
    (commitPlan state eventId correction at_ record actor plan) := by
  rw [commitPlan_eq]
  split
  · exact releaseSupersessions_objects _ _ _
  · exact reapplySupersessions_objects _ _ _
  · exact SameButPointers.refl _

theorem commitPlan_object? (eventId : Id) (at_ : Timestamp) (actor : Actor) (plan : CorrectionPlan)
    (hown : state.object? correction.objectId = some record) (id : Id) :
    Option.Rel Repointed
      (if id = correction.objectId then some (correctedRecord record at_ actor plan)
        else state.object? id)
      ((commitPlan state eventId correction at_ record actor plan).object? id) := by
  have hrel : Option.Rel Repointed
      ((writtenState state eventId correction at_ record actor plan).object? id)
      ((commitPlan state eventId correction at_ record actor plan).object? id) :=
    commitPlan_objects id
  rwa [written_object? hown] at hrel

/-- What a re-pointing leaves of a record is written at the correction's object only. -/
theorem commitPlan_map {β : Type} {f : ObjectRecord → β}
    (hf : ∀ before after, Repointed before after → f after = f before) (eventId : Id)
    (at_ : Timestamp) (actor : Actor) (plan : CorrectionPlan)
    (hown : state.object? correction.objectId = some record) (id : Id) :
    ((commitPlan state eventId correction at_ record actor plan).object? id).map f =
      if id = correction.objectId then some (f (correctedRecord record at_ actor plan))
      else (state.object? id).map f := by
  have hrel := commitPlan_object? eventId at_ actor plan hown id
  have hmap : ∀ {a b : Option ObjectRecord}, Option.Rel Repointed a b → b.map f = a.map f := by
    rintro _ _ (hab | _)
    · exact congrArg some (hf _ _ hab)
    · rfl
  rw [hmap hrel]
  split <;> rfl

variable {relation : Relation} {ends : Endpoints}

/-- An edge is added and can rewrite an object; the rest of the state stays. -/
theorem commitRelation_frame : commitRelation state at_ relation ends = { state with
    objects := (commitRelation state at_ relation ends).objects
    relations := state.relations ++ [relation] } := by
  unfold commitRelation
  dsimp only
  split
  · rfl
  · split
    · rfl
    · rfl
  · rfl

theorem commitRelation_relations :
    (commitRelation state at_ relation ends).relations = state.relations ++ [relation] := by
  rw [commitRelation_frame]

theorem commitRelation_proposals :
    (commitRelation state at_ relation ends).proposals = state.proposals := by
  rw [commitRelation_frame]

theorem relationShapeError_none (h : relationShapeError relation = none) :
    (relation.kind.structural = true → ∃ targetId, relation.target.objectId? = some targetId ∧
        targetId ≠ relation.fromObjectId) ∧
      (relation.kind = .evidence → relation.target.objectId? = none) := by
  unfold relationShapeError at h
  split at h
  · cases h
  · rename_i hobject
    split at h
    · cases h
    · rename_i hevidence
      split at h
      · cases h
      · rename_i hself
        refine ⟨?_, ?_⟩
        · intro hstructural
          cases htarget : relation.target.objectId? with
          | none => simp [hstructural, htarget] at hobject
          | some targetId =>
            refine ⟨targetId, rfl, ?_⟩
            rintro rfl
            simp [hstructural, htarget] at hself
        · intro hkind
          cases htarget : relation.target.objectId? with
          | none => rfl
          | some targetId => simp [hkind, htarget] at hevidence

theorem checkAnswers_ok {source : ObjectRecord} {target : Option ObjectRecord}
    (h : checkAnswers relation source target actor = .ok ()) :
    isHuman actor = true ∧ source.retractedAt = none ∧
      (∃ payload, source.object.payload = .openQuestion payload ∧ payload.status = .open) ∧
      ∀ record, target = some record →
        record.object.type = .decision ∨ record.object.type = .claim := by
  simp only [checkAnswers, bind_eq_ok, refuseIf_eq_ok, refuseWith_eq_ok, exists_const] at h
  obtain ⟨hhuman, htype, htarget, hlive, hopen⟩ := h
  refine ⟨by simpa using hhuman, by simpa using hlive, ?_, ?_⟩
  · have hquestion : source.object.payload.type = .openQuestion := by
      rw [bne_eq_false_iff_eq] at htype
      exact htype
    cases hpayload : source.object.payload with
    | openQuestion payload =>
      refine ⟨payload, rfl, ?_⟩
      by_contra hanswered
      simp [hpayload, hanswered] at hopen
    | decision payload => simp [hpayload, Payload.type] at hquestion
    | commitment payload => simp [hpayload, Payload.type] at hquestion
    | claim payload => simp [hpayload, Payload.type] at hquestion
    | objective payload => simp [hpayload, Payload.type] at hquestion
  · rintro record rfl
    by_contra hother
    simp [hother] at htarget

/-- What adding an edge does to the objects: a `supersedes` edge sets the pointer of its target, an
`answers` edge settles the question it comes from, any other edge does nothing. -/
theorem commitRelation_cases (at_ : Timestamp)
    (hcheck : checkRelation state relation actor = .ok ends) :
    (∃ targetId target, relation.kind = .supersedes ∧
        relation.target.objectId? = some targetId ∧ state.object? targetId = some target ∧
        checkSupersedes state relation target actor = .ok () ∧
        commitRelation state at_ relation ends =
          CoreState.setObject { state with relations := state.relations ++ [relation] } targetId
            (setSuperseded target (some relation.fromObjectId) at_)) ∨
      (∃ payload, relation.kind = .answers ∧
        state.object? relation.fromObjectId = some ends.source ∧
        ends.source.object.payload = .openQuestion payload ∧ payload.status = .open ∧
        ends.source.retractedAt = none ∧ isHuman actor = true ∧
        commitRelation state at_ relation ends =
          CoreState.setObject { state with relations := state.relations ++ [relation] }
            relation.fromObjectId { ends.source with
              object := { ends.source.object with
                payload := .openQuestion { payload with status := .answered }, updatedAt := at_ }
              updatedAt := at_ }) ∨
      (relation.kind ≠ .supersedes ∧ relation.kind ≠ .answers ∧
        commitRelation state at_ relation ends =
          { state with relations := state.relations ++ [relation] }) := by
  obtain ⟨-, hshape, hends, hkind⟩ := checkRelation_ok hcheck
  obtain ⟨hsource, -, htarget⟩ := relationEndpoints_ok hends
  unfold commitRelation
  dsimp only
  split
  · rename_i targetId target hsupersedes hsome
    refine Or.inl ⟨targetId, target, hsupersedes, ?_⟩
    rcases htarget with ⟨-, hnone⟩ | ⟨objectId, held, hobject, hheld, hget, -⟩
    · rw [hnone] at hsome
      cases hsome
    · rw [hheld] at hsome
      cases hsome
      simp only [checkKind, hsupersedes, hheld] at hkind
      exact ⟨hobject, PlainObject.get_eq_own.mp hget, hkind, rfl⟩
  · rename_i hanswers
    simp only [checkKind, hanswers] at hkind
    obtain ⟨hhuman, hlive, ⟨payload, hpayload, hopen⟩, -⟩ := checkAnswers_ok hkind
    refine Or.inr (Or.inl ⟨payload, hanswers, PlainObject.get_eq_own.mp hsource, hpayload, hopen,
      hlive, hhuman, ?_⟩)
    rw [hpayload]
  · rename_i hnotAnswers hnotSupersedes
    refine Or.inr (Or.inr ⟨?_, hnotAnswers, rfl⟩)
    intro hsupersedes
    obtain ⟨targetId, hobject, -⟩ :=
      (relationShapeError_none hshape).1 (by rw [hsupersedes]; rfl)
    rcases htarget with ⟨hnone, -⟩ | ⟨objectId, held, -, hheld, -⟩
    · rw [hnone] at hobject
      cases hobject
    · exact hnotSupersedes objectId held hsupersedes hheld

end Facts

end Core
