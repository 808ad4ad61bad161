import AtriumVerified.Core.Proofs.LiveEdgeProofs
import AtriumVerified.Core.Proofs.LifecycleProofs
import AtriumVerified.Core.Proofs.ReplayProofs

/-!
# Lookups of ids

The maps of the state are plain objects, so an id that is a property name of `Object.prototype` is
found although nothing was recorded under it. No record is ever stored under such an id. A call whose
event names none of them finds only what was recorded, and it raises only where a refused retype has to
show a value without a text.
-/

namespace Core

open Checked Js PointerGraph
open CoreState (fail)

/-! ## What is recorded in a state -/

section Recorded

/-- No record is stored under a property of `Object.prototype`, and every proposal was recorded under
its own id. -/
structure Recorded (log : List AuthoredEvent) (state : CoreState) : Prop where
  objects : ∀ id record, state.object? id = some record → id ∉ prototypeKeys
  proposals : ∀ id record, state.proposal? id = some record →
    id ∉ prototypeKeys ∧ record.proposal.id = id ∧ CreatedProposal log id

variable {log : List AuthoredEvent} {state next : CoreState} {entry : AuthoredEvent}

theorem CreatedProposal.snoc {id : Id} (h : CreatedProposal log id) (entry : AuthoredEvent) :
    CreatedProposal (log ++ [entry]) id := by
  obtain ⟨row, hrow, hbody⟩ := h
  exact ⟨row, List.mem_append_left _ hrow, hbody⟩

theorem Recorded.snoc (h : Recorded log state) (entry : AuthoredEvent)
    (hobjects : ∀ id record, next.object? id = some record → ∃ held, state.object? id = some held)
    (hproposals : ∀ id record, next.proposal? id = some record → ∃ held,
      state.proposal? id = some held ∧ record.proposal = held.proposal) :
    Recorded (log ++ [entry]) next where
  objects := by
    intro id record hrecord
    obtain ⟨held, hheld⟩ := hobjects id record hrecord
    exact h.objects id held hheld
  proposals := by
    intro id record hrecord
    obtain ⟨held, hheld, hsame⟩ := hproposals id record hrecord
    obtain ⟨hordinary, hid, hcreated⟩ := h.proposals id held hheld
    exact ⟨hordinary, by rw [hsame]; exact hid, hcreated.snoc entry⟩

theorem held_of_setProposal {proposalId id : Id} {before after record : ProposalRecord}
    (hown : state.proposal? proposalId = some before)
    (h : (state.setProposal proposalId after).proposal? id = some record)
    (hsame : after.proposal = before.proposal) :
    ∃ held, state.proposal? id = some held ∧ record.proposal = held.proposal := by
  rw [proposal?_setProposal (proposal?_ne_proto hown)] at h
  split at h
  · rename_i hid
    cases h
    exact ⟨before, by rw [hid]; exact hown, hsame⟩
  · exact ⟨record, h, rfl⟩

theorem held_of_proposals {id : Id} {record : ProposalRecord}
    (hsame : next.proposals = state.proposals) (h : next.proposal? id = some record) :
    ∃ held, state.proposal? id = some held ∧ record.proposal = held.proposal := by
  unfold CoreState.proposal? at h
  rw [hsame] at h
  exact ⟨record, h, rfl⟩

variable [Unicode]

/-- An applied event records under ordinary ids only. -/
theorem dispatch_recorded (h : Recorded log state) (hdispatch : dispatch state entry = .ok next) :
    Recorded (log ++ [entry]) next := by
  cases dispatch_applied hdispatch with
  | @recorded proposal noted hbody hfree hnoted =>
    refine ⟨?_, ?_⟩
    · intro id record hrecord
      unfold CoreState.object? at hrecord
      rw [setProposal_objects, hnoted.1] at hrecord
      exact h.objects id record hrecord
    · intro id record hrecord
      rw [proposal?_setProposal (PlainObject.ne_proto_of_absent hfree)] at hrecord
      split at hrecord
      · rename_i hid
        cases hrecord
        refine ⟨?_, hid.symm, entry, ?_, proposal, hbody, hid.symm⟩
        · rw [hid]
          exact (PlainObject.get_eq_absent.mp hfree).2
        · exact List.mem_append_right _ (List.mem_singleton_self entry)
      · unfold CoreState.proposal? at hrecord
        rw [hnoted.2.2.1] at hrecord
        obtain ⟨hordinary, hid, hcreated⟩ := h.proposals id record hrecord
        exact ⟨hordinary, hid, hcreated.snoc entry⟩
  | rejected hbody hown hmatch hopen =>
    exact h.snoc entry (fun id record hrecord => ⟨record, hrecord⟩)
      fun id record hrecord => held_of_setProposal hown hrecord rfl
  | superseded hbody hown hmatch hopen hreplacement =>
    exact h.snoc entry (fun id record hrecord => ⟨record, hrecord⟩)
      fun id record hrecord => held_of_setProposal hown hrecord rfl
  | @accepted object proposal hbody hfree hcheck =>
    refine ⟨?_, ?_⟩
    · intro id record hrecord
      rw [commitAcceptance_object? hfree] at hrecord
      split at hrecord
      · rename_i hid
        rw [hid]
        exact (PlainObject.get_eq_absent.mp hfree).2
      · exact h.objects id record hrecord
    · intro id record hrecord
      have hheld : ∃ held, state.proposal? id = some held ∧ record.proposal = held.proposal := by
        rcases commitAcceptance_proposal? entry.event.at_ hcheck with
          ⟨-, -, hsame⟩ | ⟨proposalId, cited, -, -, hchecked, hset⟩
        · rw [hsame] at hrecord
          exact ⟨record, hrecord, rfl⟩
        · obtain ⟨hown, -⟩ := checkCitedProposal_ok hchecked
          rw [hset] at hrecord
          split at hrecord
          · rename_i hid
            cases hrecord
            exact ⟨cited, by rw [hid]; exact PlainObject.get_eq_own.mp hown, rfl⟩
          · exact ⟨record, hrecord, rfl⟩
      obtain ⟨held, hheld, hsame⟩ := hheld
      obtain ⟨hordinary, hid, hcreated⟩ := h.proposals id held hheld
      exact ⟨hordinary, by rw [hsame]; exact hid, hcreated.snoc entry⟩
  | unchanged hbody hhuman =>
    exact h.snoc entry (fun id record hrecord => ⟨record, hrecord⟩)
      fun id record hrecord => held_of_proposals rfl hrecord
  | corrected hbody hhuman hown hplan hcheck =>
    refine h.snoc entry ?_ fun id record hrecord => held_of_proposals commitPlan_proposals hrecord
    intro id record hrecord
    obtain ⟨before, hbefore, -⟩ :=
      (commitPlan_carriedOver _ hown hplan hcheck).back id record hrecord
    exact ⟨before, hbefore⟩
  | related hbody hcheck =>
    refine h.snoc entry ?_ fun id record hrecord => held_of_proposals commitRelation_proposals hrecord
    intro id record hrecord
    obtain ⟨before, hbefore, -⟩ := (commitRelation_carriedOver _ hcheck).back id record hrecord
    exact ⟨before, hbefore⟩

theorem ReachedBy.recorded (h : ReachedBy log state) : Recorded log state := by
  refine h.invariant Recorded ⟨?_, ?_⟩ ?_ ?_
  · rintro id record ⟨⟩
  · rintro id record ⟨⟩
  · rintro log a b ⟨hobjects, -, hproposals, -⟩ ⟨hordinary, hcreated⟩
    refine ⟨?_, ?_⟩
    · unfold CoreState.object?
      rw [hobjects]
      exact hordinary
    · unfold CoreState.proposal?
      rw [hproposals]
      exact hcreated
  · intro log state next entry hrecorded hdispatch
    exact dispatch_recorded hrecorded hdispatch

/-- Nothing is recorded, and the id is found. -/
example : emptyState.objects.get "constructor" = .inherited := by decide +kernel

end Recorded

/-! ## Handlers that do not raise -/

section Returns

variable {state : CoreState} {actor : Actor}

theorem get_ne_inherited {α : Type} {o : PlainObject α} {id : Id} (h : id ∉ prototypeKeys) :
    o.get id ≠ .inherited := by
  intro hinherited
  exact h (PlainObject.get_eq_inherited.mp hinherited).2

/-- A key that is found is the object's own, when it is no prototype key or is held. -/
theorem own_of_found {α : Type} {o : PlainObject α} {id : Id}
    (hid : id ∉ prototypeKeys ∨ (o.own? id).isSome = true) (hfound : o.get id ≠ .absent) :
    ∃ value, o.own? id = some value := by
  rcases hid with hordinary | hheld
  · cases hslot : o.get id with
    | own value => exact ⟨value, PlainObject.get_eq_own.mp hslot⟩
    | inherited => exact absurd hslot (get_ne_inherited hordinary)
    | absent => exact absurd hslot hfound
  · exact Option.isSome_iff_exists.mp hheld

theorem returns_guard {α : Type} {condition : Bool} {reason : String} {rest : Unit → Except Stop α}
    (h : Returns (rest ())) : Returns (refuseIf condition reason >>= rest) :=
  returns_bind (returns_refuseIf _ _) fun _ _ => h

theorem returns_gate {α : Type} {reason : Option String} {rest : Unit → Except Stop α}
    (h : Returns (rest ())) : Returns (refuseWith reason >>= rest) :=
  returns_bind (returns_refuseWith _) fun _ _ => h

theorem returns_checked {α β : Type} {slot : Slot α} {reason reading : String}
    {rest : α → Except Stop β} (hown : slot ≠ .inherited) (hrest : ∀ record, Returns (rest record)) :
    Returns (do
      refuseAbsent slot reason
      let record ← stored slot reading
      rest record) := by
  refine returns_bind (returns_refuseAbsent slot reason) ?_
  intro _ hheld
  exact returns_bind (returns_stored reading (refuseAbsent_eq_ok.mp hheld) hown)
    fun record _ => hrest record

theorem applyProposalRecorded_returns (eventId : Id) (proposal : Proposal) :
    Returns (applyProposalRecorded state eventId proposal actor) :=
  returns_guard (returns_ok _)

theorem applyProposalRejected_returns {proposalId : Id} (reason : Option String)
    (hid : proposalId ∉ prototypeKeys) :
    Returns (applyProposalRejected state proposalId reason actor) := by
  refine returns_checked (get_ne_inherited hid) fun record => ?_
  refine returns_guard ?_
  refine returns_guard ?_
  refine returns_guard ?_
  exact returns_guard (returns_ok _)

theorem checkReplacement_returns (record : ProposalRecord) (proposalId : Id) {byId : Option Id}
    (hid : ∀ id, byId = some id → id ∉ prototypeKeys) :
    Returns (checkReplacement state record proposalId byId) := by
  cases byId with
  | none => exact returns_ok ()
  | some id =>
    refine returns_guard ?_
    exact returns_checked (get_ne_inherited (hid id rfl)) fun _ => returns_refuseIf _ _

theorem applyProposalSuperseded_returns {proposalId : Id} {byId : Option Id}
    (reason : Option String) (hid : proposalId ∉ prototypeKeys)
    (hby : ∀ id, byId = some id → id ∉ prototypeKeys) :
    Returns (applyProposalSuperseded state proposalId byId reason actor) := by
  refine returns_checked (get_ne_inherited hid) fun record => ?_
  refine returns_guard ?_
  refine returns_guard ?_
  exact returns_bind (checkReplacement_returns record proposalId hby) fun _ _ => returns_ok _

theorem checkObjective_returns {object : AcceptedObject}
    (hid : ∀ id, object.objectiveId = some id → id ∉ prototypeKeys) :
    Returns (checkObjective state object) := by
  unfold checkObjective
  cases hobjective : object.objectiveId with
  | none => exact returns_ok ()
  | some objectiveId =>
    refine returns_checked (get_ne_inherited (hid objectiveId hobjective)) fun objective => ?_
    exact returns_guard (returns_refuseIf _ _)

theorem relationEndpoints_returns {relation : Relation}
    (hsource : relation.fromObjectId ∉ prototypeKeys)
    (htarget : ∀ id, relation.target.objectId? = some id → id ∉ prototypeKeys) :
    Returns (relationEndpoints state relation) := by
  unfold relationEndpoints
  refine returns_bind (returns_refuseAbsent _ _) fun _ hheld => ?_
  refine returns_bind ?_ fun _ htargetHeld => ?_
  · unfold refuseUnknownTarget
    cases relation.target.objectId? with
    | none => exact returns_ok ()
    | some objectId => exact returns_refuseAbsent _ _
  · refine returns_bind (returns_stored _ (refuseAbsent_eq_ok.mp hheld) (get_ne_inherited hsource))
      fun source _ => ?_
    refine returns_guard ?_
    unfold refuseUnknownTarget at htargetHeld
    cases hobject : relation.target.objectId? with
    | none => exact returns_ok _
    | some objectId =>
      rw [hobject] at htargetHeld
      refine returns_bind (returns_stored _ (refuseAbsent_eq_ok.mp htargetHeld)
        (get_ne_inherited (htarget objectId hobject))) fun target _ => ?_
      exact returns_guard (returns_ok _)

theorem checkKind_returns (relation : Relation) (ends : Endpoints) :
    Returns (checkKind state relation ends actor) := by
  unfold checkKind
  split
  · unfold checkAnswers
    refine returns_guard ?_
    refine returns_guard ?_
    refine returns_gate ?_
    exact returns_guard (returns_refuseWith _)
  · unfold checkSupersedes
    refine returns_guard ?_
    refine returns_guard ?_
    exact returns_gate (returns_refuseIf _ _)
  · exact returns_ok ()

theorem applyRelationAdded_returns {relation : Relation} (at_ : Timestamp)
    (hsource : relation.fromObjectId ∉ prototypeKeys)
    (htarget : ∀ id, relation.target.objectId? = some id → id ∉ prototypeKeys) :
    Returns (applyRelationAdded state at_ relation actor) := by
  refine returns_bind ?_ fun _ _ => returns_ok _
  refine returns_guard ?_
  refine returns_gate ?_
  refine returns_bind (relationEndpoints_returns hsource htarget) fun ends _ => ?_
  exact returns_bind (checkKind_returns relation ends) fun _ _ => returns_ok _

theorem planPayloadEdit_returns (correction : ObjectCorrected) (at_ : Timestamp)
    (record : ObjectRecord) : Returns (planPayloadEdit correction at_ record) := by
  unfold planPayloadEdit
  refine returns_bind ?_ fun _ _ => ?_
  · unfold checkEditedFields
    dsimp only
    split
    · split
      · exact returns_refuse _
      · exact returns_guard (returns_refuseIf _ _)
    · split
      · exact returns_ok ()
      · exact returns_refuseIf _ _
  · split
    · exact returns_refuse _
    · split
      · exact returns_ok _
      · exact returns_ok _

/-- The check of the carried person raises exactly when its refusal has to show a value without a
text. -/
theorem checkCarriedPerson_raised {correction : ObjectCorrected} {payload : Payload}
    {toType : AcceptedObjectType} {reading : String} :
    checkCarriedPerson correction payload toType = .error (.raised reading) ↔
      reading = "toString" ∧ ∃ field value, attributionField toType = some field ∧
        (carriedPerson payload toType).isSome ∧ lookupField correction.patch field = some value ∧
        value.Textless := by
  unfold checkCarriedPerson
  cases hfield : attributionField toType with
  | none => simp
  | some field =>
    cases hperson : carriedPerson payload toType with
    | none => simp
    | some userId =>
      cases hpatch : lookupField correction.patch field with
      | none => simp [hpatch]
      | some value =>
        have hvalue : (∃ other value', some field = some other ∧
            (some userId).isSome ∧ lookupField correction.patch other = some value' ∧
            value'.Textless) ↔ value.display = none := by
          simp [hpatch, value.display_eq_none]
        rw [hvalue]
        dsimp only
        rw [hpatch]
        cases value with
        | string proposed => simp [Json.display]
        | null => simp [Json.display]
        | bool b => simp [Json.display]
        | number n => simp [Json.display]
        | array items => cases htext : (Json.array items).display <;> simp [htext, @eq_comm _ reading]
        | object fields => cases htext : (Json.object fields).display <;> simp [htext, @eq_comm _ reading]

theorem planRetype_raised {correction : ObjectCorrected} {at_ : Timestamp} {record : ObjectRecord}
    {reading : String} :
    planRetype state correction at_ record = .error (.raised reading) ↔
      ∃ toType, correction.toType = some toType ∧ toType ≠ record.object.type ∧
        retypeStructuralRefusal state record.object toType = none ∧
        checkCarriedPerson correction record.object.payload toType = .error (.raised reading) := by
  unfold planRetype
  cases hto : correction.toType with
  | none => simp
  | some toType =>
    simp only [bind_eq_raised, refuseIf_ne_raised, refuseIf_eq_ok, refuseWith_ne_raised,
      refuseWith_eq_ok, false_or, exists_const, beq_eq_false_iff_ne, Option.some.injEq,
      exists_eq_left']
    refine and_congr_right fun _ => and_congr_right fun _ => or_iff_left ?_
    rintro ⟨-, -, h⟩
    split at h
    · simp at h
    · cases h

theorem planReopen_returns (correction : ObjectCorrected) (at_ : Timestamp)
    (record : ObjectRecord) : Returns (planReopen state correction at_ record) := by
  unfold planReopen
  dsimp only
  split
  · split
    · exact returns_refuse _
    · exact returns_ok _
  · split
    · exact returns_refuse _
    · exact returns_ok _
  · exact returns_refuse _

theorem planCorrection_raised {correction : ObjectCorrected} {at_ : Timestamp}
    {record : ObjectRecord} {reading : String} :
    planCorrection state correction at_ record = .error (.raised reading) ↔
      correction.action = .retype ∧ record.retractedAt = none ∧
        planRetype state correction at_ record = .error (.raised reading) := by
  have hlive : ∀ {plan : Except Stop CorrectionOutcome},
      (checkLive correction record >>= fun _ => plan) = .error (.raised reading) ↔
        record.retractedAt = none ∧ plan = .error (.raised reading) := by
    intro plan
    simp [bind_eq_raised, checkLive]
  unfold planCorrection
  cases haction : correction.action with
  | retract => simp [bind_eq_raised, pure, Except.pure]
  | restore => simp [bind_eq_raised, pure, Except.pure]
  | retype => simp [hlive]
  | reopen => simp [hlive, planReopen_returns correction at_ record reading]
  | amend => simp [hlive, planPayloadEdit_returns correction at_ record reading]
  | reattribute => simp [hlive, planPayloadEdit_returns correction at_ record reading]

theorem checkPlan_returns (correction : ObjectCorrected) (record : ObjectRecord)
    (plan : CorrectionPlan) : Returns (checkPlan state correction record actor plan) := by
  refine returns_gate ?_
  refine returns_gate ?_
  refine returns_gate ?_
  exact returns_gate (returns_ok _)

theorem applyObjectCorrected_raised {correction : ObjectCorrected} {eventId : Id} {at_ : Timestamp}
    {reading : String} (hid : correction.objectId ∉ prototypeKeys) :
    applyObjectCorrected state eventId at_ correction actor = .error (.raised reading) ↔
      isHuman actor = true ∧ ∃ record, state.object? correction.objectId = some record ∧
        planCorrection state correction at_ record = .error (.raised reading) := by
  unfold applyObjectCorrected
  cases hslot : state.objects.get correction.objectId with
  | inherited => exact absurd hslot (get_ne_inherited hid)
  | absent =>
    have hnone : state.object? correction.objectId = none := (PlainObject.get_eq_absent.mp hslot).1
    simp [bind_eq_raised, refuseAbsent, hnone, refuse]
  | own record =>
    have hsome : state.object? correction.objectId = some record := PlainObject.get_eq_own.mp hslot
    simp only [bind_eq_raised, false_or, refuseAbsent, stored, refuseIf_ne_raised, refuseIf_eq_ok,
      Bool.not_eq_false', reduceCtorEq, Except.ok.injEq, exists_const, exists_eq_left', true_and,
      hsome, Option.some.injEq]
    refine and_congr_right fun _ => or_iff_left ?_
    rintro ⟨outcome, -, h⟩
    cases outcome with
    | noop reason => exact returns_ok _ reading h
    | plan plan =>
      exact returns_bind (checkPlan_returns correction record plan) (fun _ _ => returns_ok _)
        reading h

variable [Unicode]

theorem checkReceipt_returns (record : ProposalRecord) (object : AcceptedObject) (proposalId : Id)
    (messages : Option (List ProvenanceMessage)) :
    Returns (checkReceipt record object proposalId actor messages) := by
  unfold checkReceipt
  split
  · exact returns_ok ()
  · refine returns_gate ?_
    exact returns_guard (returns_refuseIf _ _)

theorem checkCitedProposal_returns (object : AcceptedObject) {proposalId : Id}
    (messages : Option (List ProvenanceMessage)) (hid : proposalId ∉ prototypeKeys) :
    Returns (checkCitedProposal state object proposalId actor messages) := by
  refine returns_bind (returns_refuseAbsent _ _) fun _ hheld => ?_
  refine returns_guard ?_
  refine returns_bind (returns_stored _ (refuseAbsent_eq_ok.mp hheld) (get_ne_inherited hid))
    fun record _ => ?_
  refine returns_guard ?_
  refine returns_guard ?_
  refine returns_guard ?_
  refine returns_guard ?_
  refine returns_guard ?_
  refine returns_guard ?_
  exact returns_bind (checkReceipt_returns record object proposalId messages) fun _ _ => returns_ok _

theorem applyObjectAccepted_returns {object : AcceptedObject} (at_ : Timestamp)
    (messages : Option (List ProvenanceMessage))
    (hproposal : ∀ id, object.provenance.proposalId = some id → id ∉ prototypeKeys)
    (hobjective : ∀ id, object.objectiveId = some id → id ∉ prototypeKeys) :
    Returns (applyObjectAccepted state at_ object actor messages) := by
  refine returns_bind ?_ fun _ _ => returns_ok _
  refine returns_guard ?_
  refine returns_gate ?_
  refine returns_guard ?_
  refine returns_guard ?_
  refine returns_bind ?_ fun proposal _ => ?_
  · unfold citedProposal
    cases hcited : object.provenance.proposalId with
    | none => exact returns_ok none
    | some proposalId =>
      exact returns_bind (checkCitedProposal_returns object messages (hproposal proposalId hcited))
        fun _ _ => returns_ok _
  · refine returns_gate ?_
    refine returns_gate ?_
    refine returns_gate ?_
    refine returns_gate ?_
    exact returns_bind (checkObjective_returns hobjective) fun _ _ => returns_ok _

variable {entry : AuthoredEvent}

theorem dispatch_raised {reading : String} (h : Ordinary entry.event) :
    dispatch state entry = .error (.raised reading) ↔
      isHuman entry.trusted.actor = true ∧ ∃ correction record,
        entry.event.body = .objectCorrected correction ∧
        state.object? correction.objectId = some record ∧
        planCorrection state correction entry.event.at_ record = .error (.raised reading) := by
  unfold dispatch
  dsimp only
  split
  · rename_i hbody
    exact iff_of_false (applyProposalRecorded_returns _ _ reading) (by simp [hbody])
  · rename_i hbody
    simp only [Ordinary, namedObjects, namedProposals, hbody, List.nil_append, List.mem_singleton,
      forall_eq] at h
    exact iff_of_false (applyProposalRejected_returns _ h reading) (by simp [hbody])
  · rename_i hbody
    simp only [Ordinary, namedObjects, namedProposals, hbody, List.nil_append, List.mem_cons,
      Option.mem_toList, forall_eq_or_imp] at h
    exact iff_of_false (applyProposalSuperseded_returns _ h.1 h.2 reading) (by simp [hbody])
  · rename_i hbody
    simp only [Ordinary, namedObjects, namedProposals, hbody, List.mem_append, List.mem_cons,
      Option.mem_toList, or_imp, forall_and] at h
    exact iff_of_false (applyObjectAccepted_returns _ _ h.2 h.1.2 reading) (by simp [hbody])
  · rename_i hbody
    simp only [Ordinary, namedObjects, namedProposals, hbody, List.append_nil, List.mem_singleton,
      forall_eq] at h
    rw [applyObjectCorrected_raised h]
    simp [hbody]
  · rename_i hbody
    simp only [Ordinary, namedObjects, namedProposals, hbody, List.append_nil, List.mem_cons,
      Option.mem_toList, forall_eq_or_imp] at h
    exact iff_of_false (applyRelationAdded_returns _ h.1 h.2 reading) (by simp [hbody])

omit [Unicode] in
theorem resolveRoomId_returns (state : CoreState) (h : Ordinary entry.event) :
    ∃ roomId, resolveRoomId state entry.event = .ok roomId := by
  unfold resolveRoomId
  dsimp only
  split
  · exact ⟨_, rfl⟩
  · rename_i proposalId reason hbody
    simp only [Ordinary, namedObjects, namedProposals, hbody, List.nil_append, List.mem_singleton,
      forall_eq] at h
    cases hslot : state.proposals.get proposalId with
    | own record => exact ⟨_, rfl⟩
    | inherited => exact absurd hslot (get_ne_inherited h)
    | absent => exact ⟨_, rfl⟩
  · rename_i proposalId byId reason hbody
    simp only [Ordinary, namedObjects, namedProposals, hbody, List.nil_append, List.mem_cons,
      forall_eq_or_imp] at h
    cases hslot : state.proposals.get proposalId with
    | own record => exact ⟨_, rfl⟩
    | inherited => exact absurd hslot (get_ne_inherited h.1)
    | absent => exact ⟨_, rfl⟩
  · exact ⟨_, rfl⟩
  · rename_i correction hbody
    simp only [Ordinary, namedObjects, namedProposals, hbody, List.append_nil, List.mem_singleton,
      forall_eq] at h
    cases hslot : state.objects.get correction.objectId with
    | own record => exact ⟨_, rfl⟩
    | inherited => exact absurd hslot (get_ne_inherited h)
    | absent => exact ⟨_, rfl⟩
  · exact ⟨_, rfl⟩

/-- Where the position admits the event, a call raises exactly when the handler does. -/
theorem step_raises (h : Ordinary entry.event) :
    (¬ ∃ outcome next, step state entry = .ok (outcome, next)) ↔
      rejectionFor state entry.event = none ∧
        ∃ reading, dispatch state entry = .error (.raised reading) := by
  obtain ⟨roomId, hroom⟩ := resolveRoomId_returns state h
  unfold step
  cases hposition : rejectionFor state entry.event with
  | some rejection => simp
  | none =>
    unfold consume settle
    dsimp only
    rw [hroom]
    cases hdispatch : dispatch state entry with
    | ok next => simp
    | error stop =>
      cases stop with
      | refused reason => simp
      | raised reading => simp

/-- An event that names no property of `Object.prototype` gets an outcome exactly when no refusal has
to show a value without a text. -/
theorem step_returns_iff (h : Ordinary entry.event) :
    (∃ outcome next, step state entry = .ok (outcome, next)) ↔ Wordable state entry := by
  rw [← not_iff_not, step_raises h, rejectionFor_eq_none]
  simp only [dispatch_raised h, planCorrection_raised, planRetype_raised,
    checkCarriedPerson_raised]
  unfold Wordable
  simp only [not_forall, not_not]
  constructor
  · rintro ⟨⟨hafter, hfresh⟩, reading, hhuman, correction, record, hbody, hheld, haction, hlive,
      toType, hto, hother, hunlinked, -, field, value, hfield, hperson, hpatch, htext⟩
    refine ⟨correction, record, toType, field, value, ?_⟩
    exact {
      after := fun cursor hcursor => compareCursor_eq_gt.mpr (hafter cursor hcursor)
      fresh := hfresh
      human := hhuman
      body := hbody
      action := haction
      retypes := hto
      held := hheld
      live := hlive
      other := hother
      unlinked := hunlinked
      names := hfield
      carried := hperson
      patched := hpatch
      textless := htext }
  · rintro ⟨correction, record, toType, field, value, h⟩
    exact ⟨⟨fun cursor hcursor => compareCursor_eq_gt.mp (h.after cursor hcursor), h.fresh⟩, _,
      h.human, correction, record, h.body, h.held, h.action, h.live, toType, h.retypes, h.other,
      h.unlinked, rfl, field, value, h.names, h.carried, h.patched, h.textless⟩

/-- A log whose events meet the condition in turn is folded to its end. -/
theorem foldRows_returns {entries : List AuthoredEvent}
    (h : Runs.Allowed (fun state entry => some (offer state entry))
      (fun state entry => Ordinary entry.event ∧ Wordable state entry) state entries) :
    ∃ outcomes last, foldRows state entries = .ok (outcomes, last) ∧
      outcomes.length = entries.length := by
  induction entries generalizing state with
  | nil => exact ⟨[], state, rfl, rfl⟩
  | cons entry rest ih =>
    obtain ⟨⟨hordinary, hwordable⟩, hrest⟩ := h
    obtain ⟨outcome, mid, hstep⟩ := (step_returns_iff hordinary).mpr hwordable
    have hoffer : offer state entry = mid := by
      unfold offer
      rw [hstep]
    obtain ⟨outcomes, last, hfold, hlength⟩ := ih (hrest mid (congrArg some hoffer))
    exact ⟨outcome :: outcomes, last, foldRows_cons_ok.mpr ⟨outcome, mid, outcomes, hstep, hfold, rfl⟩,
      congrArg Nat.succ hlength⟩

end Returns

/-! ## Pointers -/

section Pointers

variable {state next : CoreState}

theorem repointings_edges (correction : ObjectCorrected) {id byId : Id}
    (h : changeAll (pointer state) (repointings state correction) id = some byId) :
    pointer state id = some byId ∨ Supersedes state byId id := by
  unfold repointings at h
  dsimp only at h
  split at h
  · rw [changeAll_loopChanges] at h
    · split at h
      · exact Or.inr (stillLive_eq_some h).2.1
      · exact Or.inl h
    · intro target
      rw [beq_eq_false_iff_ne]
      exact fun hself => (stillLive_eq_some hself).1 rfl
  · rw [changeAll_loopChanges] at h
    · split at h
      · rename_i htaken
        cases h
        exact Or.inr (mem_supersessionEdges.mp htaken.1)
      · exact Or.inl h
    · intro target
      rw [Option.isNone_some, Bool.and_false]
  · exact Or.inl h

variable [Unicode] {entry : AuthoredEvent}

def PointersOnEdges (state : CoreState) : Prop :=
  ∀ id byId, pointer state id = some byId → Supersedes state byId id

theorem dispatch_pointersOnEdges (hk : Keyed state) (h : PointersOnEdges state)
    (hdispatch : dispatch state entry = .ok next) : PointersOnEdges next := by
  intro id byId hpointer
  cases dispatch_applied hdispatch with
  | recorded hbody hfree hnoted =>
    have hobjects := pointer_congr hnoted.1
    have hedge := h id byId (by rw [← hobjects]; exact hpointer)
    exact (supersedes_congr hnoted.2.1 byId id).mpr hedge
  | rejected hbody hown hmatch hopen => exact h id byId hpointer
  | superseded hbody hown hmatch hopen hreplacement => exact h id byId hpointer
  | accepted hbody hfree hcheck =>
    rw [supersedes_congr commitAcceptance_relations]
    unfold pointer at hpointer
    rw [commitAcceptance_object? hfree] at hpointer
    split at hpointer
    · cases hpointer
    · exact h id byId hpointer
  | unchanged hbody hhuman => exact h id byId hpointer
  | corrected hbody hhuman hown hplan hcheck =>
    rw [supersedes_congr commitPlan_relations]
    rw [(commitPlan_pointers entry.event.id hk hown hplan hcheck).2] at hpointer
    rcases repointings_edges _ hpointer with hold | hedge
    · exact h id byId hold
    · exact hedge
  | @related relation ends hbody hcheck =>
    rw [supersedes_append commitRelation_relations]
    rcases commitRelation_cases entry.event.at_ hcheck with
      ⟨targetId, target, hkind, hobject, htarget, -, heq⟩ | ⟨payload, -, hheld, -, -, -, -, heq⟩ |
      ⟨-, -, heq⟩
    · rw [heq, pointer_setObject _ (object?_ne_proto htarget), setSuperseded_pointer] at hpointer
      by_cases hid : id = targetId
      · rw [hid, Function.update_self] at hpointer
        cases hpointer
        exact Or.inr ⟨hkind, rfl, by rw [hid]; exact hobject⟩
      · rw [Function.update_of_ne hid] at hpointer
        exact Or.inl (h id byId hpointer)
    · have hsame : pointer (commitRelation state entry.event.at_ relation ends) = pointer state := by
        rw [heq]
        exact pointer_setObject_same hheld rfl
      rw [hsame] at hpointer
      exact Or.inl (h id byId hpointer)
    · rw [heq] at hpointer
      exact Or.inl (h id byId hpointer)

theorem Reached.pointersOnEdges {allowed : CoreState → AuthoredEvent → Prop}
    (h : Reached allowed state) : PointersOnEdges state := by
  suffices hboth : Keyed state ∧ PointersOnEdges state from hboth.2
  refine h.invariant (fun state => Keyed state ∧ PointersOnEdges state) ?_ ?_ ?_
  · refine ⟨?_, ?_⟩
    · rintro id record ⟨⟩
    · rintro id byId ⟨⟩
  · rintro a b hsame ⟨hk, hedges⟩
    refine ⟨hk.congr hsame.1, ?_⟩
    intro id byId hpointer
    rw [pointer_congr hsame.1] at hpointer
    exact (supersedes_congr hsame.2.1 byId id).mpr (hedges id byId hpointer)
  · rintro state next entry ⟨hk, hedges⟩ - hdispatch
    exact ⟨(dispatch_applied hdispatch).keyed hk, dispatch_pointersOnEdges hk hedges hdispatch⟩

end Pointers

/-! ## Whole calls -/

section Calls

variable [Unicode] {log : List AuthoredEvent} {state : CoreState} {event : CoreEvent}

theorem ReachedBy.object_found (h : ReachedBy log state) {id : Id}
    (hid : id ∉ prototypeKeys ∨ (state.object? id).isSome = true)
    (hfound : state.objects.get id ≠ .absent) :
    (∃ record, state.objects.get id = .own record ∧ record.object.id = id) ∧
      CreatedObject log id := by
  obtain ⟨record, hrecord⟩ := own_of_found hid hfound
  refine ⟨⟨record, PlainObject.get_eq_own.mpr hrecord, ?_⟩, h.linked.origin id record hrecord⟩
  exact h.reached.keyed_integrity.1 id record hrecord

theorem ReachedBy.proposal_found (h : ReachedBy log state) {id : Id}
    (hid : id ∉ prototypeKeys ∨ (state.proposal? id).isSome = true)
    (hfound : state.proposals.get id ≠ .absent) :
    (∃ record, state.proposals.get id = .own record ∧ record.proposal.id = id) ∧
      CreatedProposal log id := by
  obtain ⟨record, hrecord⟩ := own_of_found hid hfound
  obtain ⟨-, hsame, hcreated⟩ := h.recorded.proposals id record hrecord
  exact ⟨⟨record, PlainObject.get_eq_own.mpr hrecord, hsame⟩, hcreated⟩

theorem ReachedBy.lookupsSound (h : ReachedBy log state) (hordinary : Ordinary event) :
    LookupsSound log state event := by
  have hintegrity := h.reached.keyed_integrity.2
  have hnamedObject : ∀ id ∈ namedObjects event, id ∉ prototypeKeys :=
    fun id hid => hordinary id (List.mem_append_left _ hid)
  have hnamedProposal : ∀ id ∈ namedProposals event, id ∉ prototypeKeys :=
    fun id hid => hordinary id (List.mem_append_right _ hid)
  have hobjects : ∀ id ∈ objectLookups state event, state.objects.get id ≠ .absent →
      (∃ record, state.objects.get id = .own record ∧ record.object.id = id) ∧
        CreatedObject log id := by
    intro id hid hfound
    refine h.object_found ?_ hfound
    rcases hid with hnamed | ⟨relation, hmem, hkind, hend⟩ | ⟨other, hpointer⟩
    · exact Or.inl (hnamedObject id hnamed)
    · obtain ⟨targetId, source, target, htarget, hsource, hheld, -⟩ :=
        hintegrity.structural relation hmem hkind
      rcases hend with rfl | hid
      · exact Or.inr (by rw [hsource]; rfl)
      · rw [htarget] at hid
        cases hid
        exact Or.inr (by rw [hheld]; rfl)
    · exact Or.inr (hintegrity.supersedes_ends (h.reached.pointersOnEdges other id hpointer)).1
  have hproposals : ∀ id ∈ proposalLookups state event, state.proposals.get id ≠ .absent →
      (∃ record, state.proposals.get id = .own record ∧ record.proposal.id = id) ∧
        CreatedProposal log id := by
    intro id hid hfound
    refine h.proposal_found ?_ hfound
    rcases hid with hnamed | ⟨objectId, record, hrecord, hcites⟩
    · exact Or.inl (hnamedProposal id hnamed)
    · obtain ⟨held, hheld, -⟩ := h.linked.cited objectId record id hrecord hcites
      exact Or.inr (by rw [hheld]; rfl)
  refine ⟨hobjects, hproposals, ?_, ?_⟩
  · intro object hbody hfresh
    by_contra hfound
    refine hfresh (hobjects object.id (Or.inl ?_) hfound).2
    simp [namedObjects, hbody]
  · intro proposal hbody hfresh
    by_contra hfound
    refine hfresh (hproposals proposal.stored.id (Or.inl ?_) hfound).2
    simp [namedProposals, hbody]

theorem ReachedBy.ordinary_of_lookupsSound (h : ReachedBy log state)
    (hsound : LookupsSound log state event) : Ordinary event := by
  intro id hid hproto
  rcases List.mem_append.mp hid with hnamed | hnamed
  · have hfound : state.objects.get id ≠ .absent := by
      intro habsent
      exact (PlainObject.get_eq_absent.mp habsent).2 hproto
    obtain ⟨⟨record, hown, -⟩, -⟩ := hsound.objects id (Or.inl hnamed) hfound
    exact h.recorded.objects id record (PlainObject.get_eq_own.mp hown) hproto
  · have hfound : state.proposals.get id ≠ .absent := by
      intro habsent
      exact (PlainObject.get_eq_absent.mp habsent).2 hproto
    obtain ⟨⟨record, hown, -⟩, -⟩ := hsound.proposals id (Or.inl hnamed) hfound
    exact (h.recorded.proposals id record (PlainObject.get_eq_own.mp hown)).1 hproto

/-- In every state a run reaches, offering a row that parses returns and finds only recorded ids
exactly when the event names no property of `Object.prototype` and no refusal has to show a value
without a text. -/
theorem append_sound_iff_ordinary {Raw : Type} (schema : EventSchema Raw) (h : ReachedBy log state)
    (row : Row Raw) (hparse : schema.safeParse row.event = .ok event) :
    ((∃ outcome next, appendEvent schema state row = .ok (outcome, next)) ∧
      LookupsSound log state event) ↔
      Ordinary event ∧ Wordable state ⟨event, row.trusted⟩ := by
  have hcall : appendEvent schema state row = step state ⟨event, row.trusted⟩ := by
    unfold appendEvent
    rw [hparse]
  rw [hcall]
  constructor
  · rintro ⟨hreturns, hsound⟩
    have hordinary := h.ordinary_of_lookupsSound hsound
    exact ⟨hordinary, (step_returns_iff hordinary).mp hreturns⟩
  · rintro ⟨hordinary, hwordable⟩
    exact ⟨(step_returns_iff hordinary).mpr hwordable, h.lookupsSound hordinary⟩

end Calls

section Prototype

/-- A rejection of the proposal `constructor`. -/
def rejectsConstructor : Row CoreEvent :=
  ⟨⟨"e1", "2026-01-01T00:00:01.000Z", .proposalRejected "constructor" none⟩, ⟨.human "u", none⟩⟩

/-- A recording of a proposal with the id `constructor`. -/
def recordsConstructor : Row CoreEvent :=
  ⟨⟨"e1", "2026-01-01T00:00:01.000Z", .proposalRecorded
    (stagedReading "constructor" "u" (.openQuestion ⟨"When do we ship?", .open⟩))⟩,
    ⟨.human "u", none⟩⟩

/-- A commitment of `u`. -/
def owedLog : List AuthoredEvent :=
  [humanEvent "e1" "2026-01-01T00:00:01.000Z" (.objectAccepted
    (filedObject "o" none (.commitment ⟨"I will ship it", "u", none, .open⟩)))]

/-- The commitment is read as a claim, by somebody whom `claimant` names. -/
def claimed (claimant : Json) : Row CoreEvent :=
  ⟨⟨"e2", "2026-01-01T00:00:02.000Z",
    .objectCorrected ⟨"o", .retype, [("claimant", claimant)], some .claim, emptyProvenance, none⟩⟩,
    ⟨.human "u", none⟩⟩

/-- `constructor` is an id. In the empty state, rejecting a proposal of that id raises, and recording
one finds it recorded already. Where a commitment is held, a retype that puts an object with a
`toString` in the place of its owner raises. -/
theorem prototype_id_found : @ReachedBy Unicode.ascii [] emptyState ∧
    idSchema (some (.string "constructor")) = .ok "constructor" ∧
    ¬ (∃ outcome next, @appendEvent Unicode.ascii _ parsedSchema emptyState rejectsConstructor =
      .ok (outcome, next)) ∧
    ¬ LookupsSound [] emptyState recordsConstructor.event ∧
    ¬ (∃ outcome next, @appendEvent Unicode.ascii _ parsedSchema
      (@offerAll Unicode.ascii owedLog) (claimed (.object [("toString", .null)])) =
        .ok (outcome, next)) := by
  let _ : Unicode := Unicode.ascii
  refine ⟨ReachedBy.start, by decide +kernel, ?_, ?_, ?_⟩
  · rintro ⟨outcome, next, h⟩
    cases h
  · intro hsound
    have hfree := hsound.recordable _ rfl (by rintro ⟨entry, ⟨⟩, -⟩)
    exact absurd hfree (by decide +kernel)
  · have hraised : appendEvent parsedSchema (offerAll owedLog)
        (claimed (.object [("toString", .null)])) = .error ⟨"toString"⟩ := by rfl
    rw [hraised]
    rintro ⟨outcome, next, ⟨⟩⟩

/-- Where the commitment is held, the retype is refused when it names a list with nobody in it. -/
theorem append_sound_settled : ∃ log, @ReachedBy Unicode.ascii log (@offerAll Unicode.ascii owedLog) ∧
    (∃ outcome next, @appendEvent Unicode.ascii _ parsedSchema (@offerAll Unicode.ascii owedLog)
      (claimed (.array [.null, .object []])) = .ok (outcome, next)) ∧
    LookupsSound log (@offerAll Unicode.ascii owedLog) (claimed (.array [.null, .object []])).event := by
  let _ : Unicode := Unicode.ascii
  have hreached : Reached anyEvent (offerAll owedLog) := reached_offerAll fun _ _ _ => trivial
  obtain ⟨log, hlog⟩ := hreached.exists_log
  let row := claimed (.array [.null, .object []])
  have hordinary : Ordinary row.event := by
    unfold Ordinary
    decide
  have hwordable : Wordable (offerAll owedLog) ⟨row.event, row.trusted⟩ := by
    intro correction record toType field value h
    have htext := value.display_eq_none.mpr h.textless
    have hpatched := h.patched
    cases h.body
    cases h.retypes
    cases h.names
    cases hpatched
    cases htext
  exact ⟨log, hlog,
    (append_sound_iff_ordinary parsedSchema hlog row rfl).mpr ⟨hordinary, hwordable⟩⟩

end Prototype

end Core
