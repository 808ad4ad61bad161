import AtriumVerified.Core.Proofs.SupersessionProofs
import AtriumVerified.Server.Projections

/-!
# The read model over runs

Every projection writes the rows of the records its event changed, except that a retraction or a
restoration changes the records of other objects through their supersession pointers and rewrites no
row but its own. The tables agree with the state as long as that does not happen.
-/

namespace Server

open Checked Core Js Postgres

variable {deployment next : Deployment} {state after settled : CoreState} {model model' : ReadModel}

/-! ## The invariant -/

/-- What the rows keep of an object: everything the claim of agreement is about, and the room, which
every update selects by. -/
def ObjectMirrored (record : ObjectRecord) (row : ObjectRow) : Prop :=
  ObjectAgrees record row ∧ uuid record.object.roomId = some row.roomId

def ProposalMirrored (record : ProposalRecord) (row : ProposalRow) : Prop :=
  ProposalAgrees record row ∧ uuid record.proposal.roomId = some row.roomId

/-- The rows of `accepted_objects` mirror a map of records. -/
def ObjectRows (held : Id → Option ObjectRecord) (table : Table Uuid ObjectRow) : Prop :=
  Mirrors uuid ObjectMirrored held fun key => table.lookup key

/-- The rows of `proposals` mirror a map of records. -/
def ProposalRows (held : Id → Option ProposalRecord) (table : Table Uuid ProposalRow) : Prop :=
  Mirrors uuid ProposalMirrored held fun key => table.lookup key

structure InStep (state : CoreState) (model : ReadModel) : Prop where
  keyed : Keyed state
  objects : ObjectRows state.object? model.acceptedObjects
  proposals : ProposalRows state.proposal? model.proposals

theorem InStep.congr (h : InStep settled model) (hfacts : SameFacts after settled) :
    InStep after model := by
  obtain ⟨hobjects, -, hproposals, -⟩ := hfacts
  refine ⟨h.keyed.congr hobjects, ?_, ?_⟩
  · have hsame : after.object? = settled.object? := by
      funext id
      simp [CoreState.object?, hobjects]
    rw [hsame]
    exact h.objects
  · have hsame : after.proposal? = settled.proposal? := by
      funext id
      simp [CoreState.proposal?, hproposals]
    rw [hsame]
    exact h.proposals

/-! ## State updates as updates of maps -/

theorem object?_setObject_eq {id : Id} (h : id ≠ "__proto__") (record : ObjectRecord) :
    (state.setObject id record).object? = Function.update state.object? id (some record) := by
  funext other
  rw [object?_setObject h]
  by_cases hid : other = id
  · simp [hid]
  · simp [hid]

theorem proposal?_setProposal_eq {id : Id} (h : id ≠ "__proto__") (record : ProposalRecord) :
    (state.setProposal id record).proposal? =
      Function.update state.proposal? id (some record) := by
  funext other
  have hset := PlainObject.own?_set state.proposals id record h other
  by_cases hid : other = id
  · simpa [CoreState.setProposal, CoreState.proposal?, hid] using hset
  · simpa [CoreState.setProposal, CoreState.proposal?, hid] using hset

/-! ## Row updates -/

theorem updateProposal_mirrors {held : Id → Option ProposalRecord} {roomId proposalId : Id}
    {record : ProposalRecord} (record' : ProposalRecord) {change : ProposalRow → ProposalRow}
    (h : ProposalRows held model.proposals) (hheld : held proposalId = some record)
    (hroom : record.proposal.roomId = roomId) (hproposal : record'.proposal = record.proposal)
    (hstatus : ∀ row, (change row).status = record'.status)
    (hkept : ∀ row, (change row).roomId = row.roomId)
    (hupdate : updateProposal model roomId proposalId change = some model') :
    ProposalRows (Function.update held proposalId (some record')) model'.proposals ∧
      model'.acceptedObjects = model.acceptedObjects := by
  simp only [updateProposal, Option.bind_eq_bind, Option.bind_eq_some_iff, Option.pure_def,
    Option.some.injEq] at hupdate
  obtain ⟨key, hkey, room, huuid, rfl⟩ := hupdate
  refine ⟨Mirrors.updateRow h hheld hkey ?_ ?_, rfl⟩
  · rintro row ⟨-, hrowRoom⟩
    exact beq_iff_eq.mpr (Option.some.inj (hrowRoom.symm.trans (hroom ▸ huuid)))
  · rintro row ⟨-, hrowRoom⟩
    refine ⟨hstatus row, ?_⟩
    rw [hproposal, hkept]
    exact hrowRoom

theorem updateObject_mirrors {held : Id → Option ObjectRecord} {roomId objectId : Id}
    {record : ObjectRecord} (record' : ObjectRecord) {change : ObjectRow → ObjectRow}
    (h : ObjectRows held model.acceptedObjects) (hheld : held objectId = some record)
    (hroom : record.object.roomId = roomId)
    (hroom' : record'.object.roomId = record.object.roomId)
    (hagrees : ∀ row, ObjectAgrees record row → ObjectAgrees record' (change row))
    (hkept : ∀ row, (change row).roomId = row.roomId)
    (hupdate : updateObject model roomId objectId change = some model') :
    ObjectRows (Function.update held objectId (some record')) model'.acceptedObjects ∧
      model'.proposals = model.proposals := by
  simp only [updateObject, Option.bind_eq_bind, Option.bind_eq_some_iff, Option.pure_def,
    Option.some.injEq] at hupdate
  obtain ⟨key, hkey, room, huuid, rfl⟩ := hupdate
  refine ⟨Mirrors.updateRow h hheld hkey ?_ ?_, rfl⟩
  · rintro row ⟨-, hrowRoom⟩
    exact beq_iff_eq.mpr (Option.some.inj (hrowRoom.symm.trans (hroom ▸ huuid)))
  · rintro row ⟨hrowAgrees, hrowRoom⟩
    refine ⟨hagrees row hrowAgrees, ?_⟩
    rw [hroom', hkept]
    exact hrowRoom

/-! ## Proposals -/

section Proposals

variable {roomId id : Id} {actor : Actor} {sessionId : Option Id} {at_ : Timestamp}

theorem insertProposal_mirrors {held : Id → Option ProposalRecord} {record : ProposalRecord}
    (h : ProposalRows held model.proposals) (hroom : record.proposal.roomId = roomId)
    (hinsert : insertProposal model roomId id record sessionId = some model') :
    ProposalRows (Function.update held id (some record)) model'.proposals ∧
      model'.acceptedObjects = model.acceptedObjects := by
  simp only [insertProposal, proposalRow, Option.bind_eq_bind, Option.bind_eq_some_iff,
    Option.pure_def, Option.some.injEq, Table.insertRow_eq_some] at hinsert
  obtain ⟨key, hkey, room, huuid, row, ⟨_, -, _, -, _, -, rfl⟩, proposals, ⟨hfree, rfl⟩, _, -, rfl⟩ :=
    hinsert
  refine ⟨?_, rfl⟩
  unfold ProposalRows
  rw [Table.lookup_insert_eq]
  refine Mirrors.add h hkey hfree ⟨rfl, ?_⟩
  rw [hroom]
  exact huuid

theorem subjectRoom_ok {α : Type} {record : α} {room : α → Id} {subject : String} {authorized : Id}
    (h : subjectRoom (.own record) room subject authorized = .ok roomId) : room record = roomId := by
  simp only [subjectRoom] at h
  split at h
  · exact Except.ok.inj h
  · cases h

theorem resolveRoomId_declared {event : RoomEvent} {declared authorized : Id}
    (hdeclared : declaredRoomId event = some declared)
    (h : resolveRoomId event authorized state = .ok roomId) : declared = roomId := by
  simp only [resolveRoomId, hdeclared] at h
  split at h
  · exact Except.ok.inj h
  · cases h

theorem InStep.recorded {proposal : Proposal} {eventId : Id} (h : InStep state model)
    (hroom : proposal.stored.roomId = roomId)
    (happly : applyProposalRecorded state eventId proposal actor = .ok settled)
    (hproject : projectProposalRecorded ⟨roomId, actor, state, settled⟩ model proposal.stored.id
      sessionId = some model') : InStep settled model' := by
  obtain ⟨habsent, noted, hnoted, rfl⟩ := applyProposalRecorded_ok happly
  have hne : proposal.stored.id ≠ "__proto__" := PlainObject.ne_proto_of_absent habsent
  have hsame : noted.objects = state.objects ∧ noted.proposals = state.proposals := by
    rcases hnoted with rfl | ⟨text, rfl⟩
    · exact ⟨rfl, rfl⟩
    · exact ⟨rfl, rfl⟩
  have hheld : noted.proposal? = state.proposal? := by
    funext other
    simp [CoreState.proposal?, hsame.2]
  have hobject : ∀ record, (noted.setProposal proposal.stored.id record).object? =
      state.object? := by
    intro record
    funext other
    simp [CoreState.object?, hsame.1]
  have hown : ∀ record, (noted.setProposal proposal.stored.id record).proposals.get
      proposal.stored.id = .own record := by
    intro record
    refine PlainObject.get_eq_own.mpr ?_
    simp [CoreState.setProposal, PlainObject.own?_set _ _ _ hne]
  simp only [projectProposalRecorded, hown, habsent] at hproject
  obtain ⟨hrows, hobjects⟩ := insertProposal_mirrors h.proposals (by exact hroom) hproject
  refine ⟨h.keyed.congr ?_, ?_, ?_⟩
  · rw [setProposal_objects, hsame.1]
  · rw [hobject, hobjects]
    exact h.objects
  · rw [proposal?_setProposal_eq hne, hheld]
    exact hrows

theorem InStep.decided {proposalId : Id} {record record' : ProposalRecord}
    {change : ProposalRow → ProposalRow} (h : InStep state model)
    (hown : state.proposals.get proposalId = .own record) (hroom : record.proposal.roomId = roomId)
    (hproposal : record'.proposal = record.proposal)
    (hstatus : ∀ row, (change row).status = record'.status)
    (hkept : ∀ row, (change row).roomId = row.roomId)
    (hupdate : updateProposal model roomId proposalId change = some model') :
    InStep (state.setProposal proposalId record') model' := by
  have hheld : state.proposal? proposalId = some record := PlainObject.get_eq_own.mp hown
  have hne : proposalId ≠ "__proto__" := PlainObject.ne_proto_of_own hheld
  obtain ⟨hrows, hobjects⟩ :=
    updateProposal_mirrors record' h.proposals hheld hroom hproposal hstatus hkept hupdate
  refine ⟨h.keyed.congr rfl, ?_, ?_⟩
  · rw [hobjects]
    exact h.objects
  · rw [proposal?_setProposal_eq hne]
    exact hrows

theorem proposal?_setProposal_self {proposalId : Id} {record : ProposalRecord}
    (hown : state.proposals.get proposalId = .own record) (record' : ProposalRecord) :
    (state.setProposal proposalId record').proposal? proposalId = some record' := by
  have hne := PlainObject.ne_proto_of_own (PlainObject.get_eq_own.mp hown)
  rw [proposal?_setProposal_eq hne, Function.update_self]

theorem InStep.rejected {proposalId : Id} {reason : Option String} {record : ProposalRecord}
    (h : InStep state model) (hown : state.proposals.get proposalId = .own record)
    (hroom : record.proposal.roomId = roomId)
    (happly : applyProposalRejected state proposalId reason actor = .ok settled)
    (hproject : projectProposalRejected ⟨roomId, actor, state, settled⟩ model at_ proposalId =
      some model') : InStep settled model' := by
  obtain ⟨record', hown', -, hproposed, rfl⟩ := applyProposalRejected_ok happly
  rw [hown] at hown'
  cases hown'
  have hbefore : state.proposal? proposalId = some record := PlainObject.get_eq_own.mp hown
  simp only [projectProposalRejected, proposal?_setProposal_self hown, hbefore, hproposed,
    Option.map_some, Option.some.injEq, reduceCtorEq, ne_eq, not_true_eq_false, if_false,
    Option.bind_eq_bind, Option.bind_eq_some_iff] at hproject
  obtain ⟨decidedBy, -, decidedAt, -, hupdate⟩ := hproject
  refine h.decided hown hroom ?_ ?_ ?_ hupdate
  · rfl
  · intro row
    rfl
  · intro row
    rfl

theorem InStep.superseded {proposalId : Id} {byId : Option Id} {reason : Option String}
    {record : ProposalRecord} (h : InStep state model)
    (hown : state.proposals.get proposalId = .own record) (hroom : record.proposal.roomId = roomId)
    (happly : applyProposalSuperseded state proposalId byId reason actor = .ok settled)
    (hproject : projectProposalSuperseded ⟨roomId, actor, state, settled⟩ model proposalId =
      some model') : InStep settled model' := by
  obtain ⟨record', hown', -, hproposed, -, rfl⟩ := applyProposalSuperseded_ok happly
  rw [hown] at hown'
  cases hown'
  have hbefore : state.proposal? proposalId = some record := PlainObject.get_eq_own.mp hown
  simp only [projectProposalSuperseded, proposal?_setProposal_self hown, hbefore, hproposed,
    Option.map_some, Option.some.injEq, reduceCtorEq, ne_eq, not_true_eq_false, if_false] at hproject
  refine h.decided hown hroom ?_ ?_ ?_ hproject
  · rfl
  · intro row
    rfl
  · intro row
    rfl

end Proposals

/-! ## Acceptance -/

section Acceptance

variable {roomId id : Id} {actor : Actor} {at_ : Timestamp}

theorem insertObject_mirrors {held : Id → Option ObjectRecord} {record : ObjectRecord}
    (h : ObjectRows held model.acceptedObjects) (hroom : record.object.roomId = roomId)
    (hfresh : record.retractedAt = none ∧ record.supersededById = none)
    (hinsert : insertObject ⟨roomId, actor, state, after⟩ model at_ id record = some model') :
    ∃ inserted, ObjectRows (Function.update held id (some record)) inserted.acceptedObjects ∧
      inserted.proposals = model.proposals ∧
      settleProposal ⟨roomId, actor, state, after⟩ inserted at_
        record.object.provenance.proposalId = some model' := by
  simp only [insertObject, objectRow, Option.bind_eq_bind, Option.bind_eq_some_iff, Option.pure_def,
    Option.some.injEq, Table.insertRow_eq_some] at hinsert
  obtain ⟨key, hkey, room, huuid, row, ⟨_, -, _, -, _, -, touched, htouched, _, -, updated, hupdated,
    rfl⟩, _, ⟨hfree, rfl⟩, sources, -, hsettle⟩ := hinsert
  refine ⟨_, ?_, ?_, hsettle⟩
  · unfold ObjectRows
    rw [Table.lookup_insert_eq]
    refine Mirrors.add h hkey hfree ⟨?_, ?_⟩
    · refine ⟨rfl, rfl, rfl, ?_, ?_, rfl, htouched, hupdated⟩
      · rw [hfresh.1]
        rfl
      · rw [hfresh.2]
        rfl
    · rw [hroom]
      exact huuid
  · rfl

theorem InStep.accepted [Unicode] {object : AcceptedObject} {messages : Option (List ProvenanceMessage)}
    (h : InStep state model) (hroom : object.roomId = roomId)
    (happly : applyObjectAccepted state at_ object actor messages = .ok settled)
    (hproject : projectObjectAccepted ⟨roomId, actor, state, settled⟩ model at_ object.id =
      some model') : InStep settled model' := by
  obtain ⟨habsent, proposal, hcited, rfl⟩ := applyObjectAccepted_ok happly
  have hne : object.id ≠ "__proto__" := PlainObject.ne_proto_of_absent habsent
  have hobject : (commitAcceptance state at_ object actor proposal).object? =
      Function.update state.object? object.id (some (freshRecord object at_ actor)) := by
    rw [← object?_setObject_eq hne]
    funext other
    simp [CoreState.object?, CoreState.setObject]
  have hkeyed : Keyed (commitAcceptance state at_ object actor proposal) :=
    (h.keyed.setObject hne rfl : Keyed (state.setObject object.id _)).congr commitAcceptance_objects
  have hown : (commitAcceptance state at_ object actor proposal).objects.get object.id =
      .own (freshRecord object at_ actor) := by
    refine PlainObject.get_eq_own.mpr ?_
    have hself := congrFun hobject object.id
    rw [Function.update_self] at hself
    exact hself
  simp only [projectObjectAccepted, hown, habsent] at hproject
  obtain ⟨inserted, hrows, hproposals, hsettle⟩ :=
    insertObject_mirrors h.objects (by exact hroom) ⟨rfl, rfl⟩ hproject
  have hheld : ProposalRows state.proposal? inserted.proposals := by
    rw [hproposals]
    exact h.proposals
  rcases citedProposal_ok hcited with
    ⟨hnone, rfl⟩ | ⟨proposalId, record, hsome, rfl, hchecked⟩
  · have hmodel : inserted = model' := by
      simpa [settleProposal, freshRecord, hnone] using hsettle
    subst hmodel
    refine ⟨hkeyed, ?_, ?_⟩
    · rw [hobject]
      exact hrows
    · have hproposal : (commitAcceptance state at_ object actor none).proposal? =
          state.proposal? := by
        simp only [commitAcceptance, hnone]
        rfl
      rw [hproposal]
      exact hheld
  · obtain ⟨hownProposal, -, -, -, -, hsameRoom, -⟩ := checkCitedProposal_ok hchecked
    have hprop : state.proposal? proposalId = some record := PlainObject.get_eq_own.mp hownProposal
    simp only [settleProposal, freshRecord, hsome, Option.bind_eq_bind, Option.bind_eq_some_iff]
      at hsettle
    obtain ⟨decidedBy, -, decidedAt, -, hupdate⟩ := hsettle
    obtain ⟨hrows', hkeptObjects⟩ := updateProposal_mirrors
      { record with status := .accepted, acceptedObjectId := some object.id }
      hheld hprop (hsameRoom.trans hroom) rfl (by intro row; rfl) (by intro row; rfl) hupdate
    refine ⟨hkeyed, ?_, ?_⟩
    · rw [hobject, hkeptObjects]
      exact hrows
    · have hproposal : (commitAcceptance state at_ object actor (some record)).proposal? =
          Function.update state.proposal? proposalId
            (some { record with status := .accepted, acceptedObjectId := some object.id }) := by
        rw [← proposal?_setProposal_eq (PlainObject.ne_proto_of_own hprop)]
        simp only [commitAcceptance, hsome]
        rfl
      rw [hproposal]
      exact hrows'

end Acceptance

/-! ## Corrections -/

section Corrections

variable {roomId eventId : Id} {actor : Actor} {at_ : Timestamp} {correction : ObjectCorrected}
  {record : ObjectRecord} {planned plan : CorrectionPlan}

theorem foldl_nothing {write : CoreState → Id → CoreState} {condition : Id → Option Id → Bool}
    {new : Id → Option Id} (targets : List Id)
    (hskip : ∀ target, condition target (pointer state target) = false → write state target = state)
    (h : loopChanges condition new (pointer state) targets = []) :
    targets.foldl write state = state := by
  induction targets with
  | nil => rfl
  | cons targetId rest ih =>
    unfold loopChanges at h
    split at h
    · cases h
    · next hcondition =>
      rw [List.foldl_cons, hskip targetId (by simpa using hcondition)]
      exact ih h

theorem release_nothing (supersederId : Id) (at_ : Timestamp) (new : Id → Option Id)
    (targets : List Id)
    (h : loopChanges (fun _ current => current == some supersederId) new (pointer state) targets =
      []) : targets.foldl (releaseTarget supersederId at_) state = state := by
  refine foldl_nothing targets (fun targetId hcondition => ?_) h
  rcases releaseTarget_cases state supersederId at_ targetId with hsame | ⟨target, ht, hsup, -⟩
  · exact hsame
  · simp [pointer, ht, hsup] at hcondition

theorem reapply_nothing (supersederId : Id) (at_ : Timestamp) (known : Id → Bool)
    (targets : List Id) (hknown : ∀ target, (state.object? target).isSome = known target)
    (h : loopChanges (fun target current => known target && current.isNone)
      (fun _ => some supersederId) (pointer state) targets = []) :
    targets.foldl (reapplyTarget supersederId at_) state = state := by
  refine foldl_nothing targets (fun targetId hcondition => ?_) h
  rcases reapplyTarget_cases state supersederId at_ targetId with hsame | ⟨target, ht, hsup, -⟩
  · exact hsame
  · simp [pointer, ht, hsup, ← hknown] at hcondition

/-- A correction that moves no supersession pointer writes its own record and nothing else. -/
theorem commitPlan_of_no_repointing (hk : Keyed state)
    (hown : state.object? correction.objectId = some record)
    (hplan : planCorrection state correction at_ record = .ok (.plan planned))
    (hcheck : checkPlan state correction record actor planned = .ok plan)
    (hnone : repointings state correction = []) :
    commitPlan state eventId correction at_ record actor plan =
      writtenState state eventId correction at_ record actor plan := by
  obtain rfl := checkPlan_ok hcheck
  obtain ⟨henvelope, -, hafter⟩ := lapseVerification_envelope record.object planned
  obtain ⟨henv, hverb⟩ := planCorrection_ok hplan
  have hid : (lapseVerification record.object planned).object.id = correction.objectId :=
    (henvelope.1.trans henv.1).trans (hk _ _ hown)
  rw [commitPlan_eq, hafter, hid]
  rcases hverb with ⟨haction, -, -, hrel, -⟩ | ⟨haction, -, -, hrea, -⟩ | ⟨-, -, -, -, hno, -⟩
  · rw [hrel]
    simp only [repointings, haction] at hnone
    refine release_nothing _ _ (stillLive state correction.objectId) _ ?_
    rw [written_pointer hown]
    exact hnone
  · rw [hrea]
    simp only [repointings, haction] at hnone
    refine reapply_nothing _ _ (fun target => (state.object? target).isSome) _
      (written_isSome hown) ?_
    rw [written_pointer hown]
    exact hnone
  · rcases hno with hno | ⟨answers, hno⟩
    · rw [hno]
    · rw [hno]

theorem projectObjectCorrected_logged {objectId : Id} (entry : CorrectionRecord)
    (hlog : after.corrections = state.corrections ++ [entry]) (hevent : entry.eventId = eventId)
    (hget : after.objects.get objectId = .own record) :
    projectObjectCorrected ⟨roomId, actor, state, after⟩ model eventId objectId =
      writeCorrection ⟨roomId, actor, state, after⟩ model eventId objectId entry record := by
  have hgrown : ¬ after.corrections.length = state.corrections.length := by
    rw [hlog, List.length_append, List.length_singleton]
    omega
  have hlast : after.corrections.getLast? = some entry := by
    rw [hlog]
    exact List.getLast?_concat
  unfold projectObjectCorrected
  rw [if_neg hgrown, hlast]
  simp only [hevent, ne_eq, not_true_eq_false, if_false, hget]

theorem InStep.corrected (h : InStep state model)
    (hown : state.objects.get correction.objectId = .own record)
    (hroom : record.object.roomId = roomId)
    (hclear : repointings state correction = [])
    (happly : applyObjectCorrected state eventId at_ correction actor = .ok settled)
    (hproject : projectObjectCorrected ⟨roomId, actor, state, settled⟩ model eventId
      correction.objectId = some model') : InStep settled model' := by
  obtain ⟨record', hown', -, hcases⟩ := applyObjectCorrected_ok happly
  rw [hown] at hown'
  cases hown'
  have hheld : state.object? correction.objectId = some record := PlainObject.get_eq_own.mp hown
  rcases hcases with ⟨reason, -, rfl⟩ | ⟨planned, plan, hplan, hcheck, rfl⟩
  · -- An edit that matches what is there is recorded as an issue; no row is written.
    simp only [projectObjectCorrected, CoreState.fail, if_true, Option.some.injEq] at hproject
    subst hproject
    exact h.congr ⟨rfl, rfl, rfl, rfl⟩
  · obtain ⟨henvelope, -, -⟩ := lapseVerification_envelope record.object planned
    obtain ⟨henv, -⟩ := planCorrection_ok hplan
    have hplanEq := checkPlan_ok hcheck
    have hsameRoom : plan.object.roomId = record.object.roomId := by
      rw [hplanEq]
      exact henvelope.2.1.trans henv.2.1
    have hsameId : plan.object.id = record.object.id := by
      rw [hplanEq]
      exact henvelope.1.trans henv.1
    rw [commitPlan_of_no_repointing h.keyed hheld hplan hcheck hclear] at hproject ⊢
    have hobject : (writtenState state eventId correction at_ record actor plan).object? =
        Function.update state.object? correction.objectId
          (some (correctedRecord record at_ actor plan)) :=
      object?_setObject_eq (object?_ne_proto hheld) _
    have hget : (writtenState state eventId correction at_ record actor plan).objects.get
        correction.objectId = .own (correctedRecord record at_ actor plan) := by
      refine PlainObject.get_eq_own.mpr ?_
      have hself := congrFun hobject correction.objectId
      rw [Function.update_self] at hself
      exact hself
    have hevent : (correctionRecord eventId correction at_ record actor plan).eventId = eventId := rfl
    rw [projectObjectCorrected_logged _ rfl hevent hget] at hproject
    simp only [writeCorrection, Option.bind_eq_bind, Option.bind_eq_some_iff, Option.pure_def,
      Option.some.injEq] at hproject
    obtain ⟨retractedAt, hret, supersededById, hsup, touched, htouched, updated, hupdated, written,
      hwrite, -, -, -, -, -, -, corrections, -, rfl⟩ := hproject
    obtain ⟨hrows, hproposals⟩ := updateObject_mirrors
      (correctedRecord record at_ actor plan) h.objects hheld hroom hsameRoom
      (by
        intro row _
        exact ⟨rfl, rfl, rfl, hret, hsup, rfl, htouched, hupdated⟩)
      (by
        intro row
        rfl)
      hwrite
    refine ⟨written_keyed eventId at_ actor h.keyed hheld hsameId, ?_, ?_⟩
    · rw [hobject]
      exact hrows
    · have hprop : (writtenState state eventId correction at_ record actor plan).proposal? =
          state.proposal? := rfl
      rw [hprop]
      show ProposalRows state.proposal? written.proposals
      rw [hproposals]
      exact h.proposals

end Corrections

/-! ## Relations -/

section Relations

variable {roomId : Id} {actor : Actor} {at_ : Timestamp} {relation : Relation} {ends : Endpoints}

def SameCertificate (a b : ObjectRecord) : Prop :=
  a.object.id = b.object.id ∧ a.object.roomId = b.object.roomId ∧ a.acceptedBy = b.acceptedBy ∧
    a.humanTouchedAt = b.humanTouchedAt

theorem SameCertificate.refl (a : ObjectRecord) : SameCertificate a a := ⟨rfl, rfl, rfl, rfl⟩

theorem setSuperseded_certificate (target : ObjectRecord) (new : Option Id) (at_ : Timestamp) :
    SameCertificate (setSuperseded target new at_) target := by
  unfold setSuperseded
  dsimp only
  split
  · exact ⟨rfl, rfl, rfl, rfl⟩
  · exact ⟨rfl, rfl, rfl, rfl⟩

/-- An edge changes the record of at most one of its ends. -/
theorem commitRelation_objects (at_ : Timestamp)
    (hends : relationEndpoints state relation = .ok ends) :
    ((commitRelation state at_ relation ends).object? = state.object? ∨
      ∃ id record record', (id = relation.fromObjectId ∨ relation.target.objectId? = some id) ∧
        state.object? id = some record ∧ SameCertificate record' record ∧
        (commitRelation state at_ relation ends).object? =
          Function.update state.object? id (some record')) ∧
      (commitRelation state at_ relation ends).proposal? = state.proposal? ∧
      (commitRelation state at_ relation ends).relations = state.relations ++ [relation] := by
  obtain ⟨hsource, -, htarget⟩ := relationEndpoints_ok hends
  have hsourceOwn : state.object? relation.fromObjectId = some ends.source :=
    PlainObject.get_eq_own.mp hsource
  unfold commitRelation
  dsimp only
  split
  · rename_i targetId target hsup hsome
    rcases htarget with ⟨-, hnone⟩ | ⟨objectId, target', hid, hsome', hget, -⟩
    · rw [hnone] at hsome
      cases hsome
    · rw [hsome'] at hsome
      cases hsome
      have hown : state.object? targetId = some target := PlainObject.get_eq_own.mp hget
      refine ⟨Or.inr ⟨targetId, target, _, Or.inr hid, hown,
        setSuperseded_certificate target (some relation.fromObjectId) at_, ?_⟩, rfl, rfl⟩
      exact object?_setObject_eq (object?_ne_proto hown) _
  · split
    · refine ⟨Or.inr ⟨relation.fromObjectId, ends.source, _, Or.inl rfl, hsourceOwn, ?_,
        object?_setObject_eq (object?_ne_proto hsourceOwn) _⟩, rfl, rfl⟩
      exact ⟨rfl, rfl, rfl, rfl⟩
    · exact ⟨Or.inl rfl, rfl, rfl⟩
  · exact ⟨Or.inl rfl, rfl, rfl⟩

theorem syncObjectRow_mirrors {held : Id → Option ObjectRecord} {objectId : Id}
    {record record' : ObjectRecord} (h : ObjectRows held model.acceptedObjects)
    (hheld : held objectId = some record) (hroom : record.object.roomId = roomId)
    (hafter : after.object? objectId = some record') (hsame : SameCertificate record' record)
    (hsync : syncObjectRow model roomId after objectId = some model') :
    ObjectRows (Function.update held objectId (some record')) model'.acceptedObjects ∧
      model'.proposals = model.proposals := by
  obtain ⟨-, hsameRoom, haccepted, htouched⟩ := hsame
  simp only [syncObjectRow, PlainObject.get_eq_own.mpr hafter, Option.bind_eq_bind,
    Option.bind_eq_some_iff] at hsync
  obtain ⟨retractedAt, hret, supersededById, hsup, updated, hupdated, hupdate⟩ := hsync
  refine updateObject_mirrors record' h hheld hroom hsameRoom ?_ ?_ hupdate
  · intro row hrow
    refine ⟨rfl, rfl, rfl, hret, hsup, ?_, ?_, hupdated⟩
    · rw [haccepted]
      exact hrow.acceptedByKind
    · rw [htouched]
      exact hrow.humanTouchedAt
  · intro row
    rfl

theorem resolveAttention_tables
    (h : resolveAttention model roomId at_ relation = some model') :
    model'.acceptedObjects = model.acceptedObjects ∧ model'.proposals = model.proposals := by
  unfold resolveAttention at h
  split at h
  · cases h
    exact ⟨rfl, rfl⟩
  · simp only [Option.bind_eq_bind, Option.bind_eq_some_iff, Option.pure_def, Option.some.injEq] at h
    obtain ⟨room, -, subject, -, resolvedAt, -, rfl⟩ := h
    exact ⟨rfl, rfl⟩

theorem commitRelation_certificate (hends : relationEndpoints state relation = .ok ends) {id : Id}
    {record : ObjectRecord} (h : state.object? id = some record) :
    ∃ record', (commitRelation state at_ relation ends).object? id = some record' ∧
      SameCertificate record' record := by
  obtain ⟨hchange, -, -⟩ := commitRelation_objects at_ hends
  rcases hchange with hsame | ⟨other, old, new, -, hold, hcert, hupdate⟩
  · rw [hsame]
    exact ⟨record, h, SameCertificate.refl record⟩
  · rw [hupdate]
    by_cases hid : id = other
    · rw [hid, hold] at h
      cases h
      exact ⟨new, by rw [hid, Function.update_self], hcert⟩
    · rw [Function.update_of_ne hid]
      exact ⟨record, h, SameCertificate.refl record⟩

theorem commitRelation_elsewhere (hends : relationEndpoints state relation = .ok ends) {id : Id}
    (hfrom : id ≠ relation.fromObjectId) (hto : relation.target.objectId? ≠ some id) :
    (commitRelation state at_ relation ends).object? id = state.object? id := by
  obtain ⟨hchange, -, -⟩ := commitRelation_objects at_ hends
  rcases hchange with hsame | ⟨other, old, new, hother, -, -, hupdate⟩
  · rw [hsame]
  · rw [hupdate, Function.update_of_ne]
    rintro rfl
    rcases hother with hother | hother
    · exact hfrom hother
    · exact hto hother

/-- Rewriting the rows of both ends of an edge gives the rows of the state after it. -/
theorem syncEnds_mirrors {synced synced' : ReadModel}
    (hends : relationEndpoints state relation = .ok ends)
    (h : ObjectRows state.object? model.acceptedObjects)
    (hfrom : syncObjectRow model relation.roomId (commitRelation state at_ relation ends)
      relation.fromObjectId = some synced)
    (hto : syncTarget synced relation.roomId (commitRelation state at_ relation ends)
      relation.target = some synced') :
    ObjectRows (commitRelation state at_ relation ends).object? synced'.acceptedObjects ∧
      synced'.proposals = model.proposals := by
  obtain ⟨hsource, hsourceRoom, htarget⟩ := relationEndpoints_ok hends
  have hsourceOwn : state.object? relation.fromObjectId = some ends.source :=
    PlainObject.get_eq_own.mp hsource
  obtain ⟨source', hsource', hsourceCert⟩ := commitRelation_certificate hends hsourceOwn
  obtain ⟨hrows, hproposals⟩ :=
    syncObjectRow_mirrors h hsourceOwn hsourceRoom hsource' hsourceCert hfrom
  rcases htarget with ⟨hnone, -⟩ | ⟨targetId, target, hsome, -, hget, htargetRoom⟩
  · simp only [syncTarget, hnone, Option.some.injEq] at hto
    subst hto
    refine ⟨?_, hproposals⟩
    have hafter : (commitRelation state at_ relation ends).object? =
        Function.update state.object? relation.fromObjectId (some source') := by
      funext id
      by_cases hid : id = relation.fromObjectId
      · rw [hid, Function.update_self]
        exact hsource'
      · rw [Function.update_of_ne hid]
        exact commitRelation_elsewhere hends hid (by simp [hnone])
    rw [hafter]
    exact hrows
  · have htargetOwn : state.object? targetId = some target := PlainObject.get_eq_own.mp hget
    obtain ⟨target', htarget', htargetCert⟩ := commitRelation_certificate hends htargetOwn
    simp only [syncTarget, hsome] at hto
    -- The target may be the source, whose row was already rewritten.
    have hheld : ∃ current,
        Function.update state.object? relation.fromObjectId (some source') targetId = some current ∧
          current.object.roomId = relation.roomId ∧ SameCertificate target' current := by
      by_cases hid : targetId = relation.fromObjectId
      · rw [hid, hsource'] at htarget'
        cases htarget'
        refine ⟨source', by rw [hid, Function.update_self], ?_, SameCertificate.refl source'⟩
        exact hsourceCert.2.1.trans hsourceRoom
      · exact ⟨target, by rw [Function.update_of_ne hid]; exact htargetOwn, htargetRoom, htargetCert⟩
    obtain ⟨current, hcurrent, hcurrentRoom, hcurrentCert⟩ := hheld
    obtain ⟨hrows', hproposals'⟩ :=
      syncObjectRow_mirrors hrows hcurrent hcurrentRoom htarget' hcurrentCert hto
    refine ⟨?_, hproposals'.trans hproposals⟩
    have hafter : (commitRelation state at_ relation ends).object? =
        Function.update (Function.update state.object? relation.fromObjectId (some source'))
          targetId (some target') := by
      funext id
      by_cases hid : id = targetId
      · rw [hid, Function.update_self]
        exact htarget'
      · rw [Function.update_of_ne hid]
        by_cases hid' : id = relation.fromObjectId
        · rw [hid', Function.update_self]
          exact hsource'
        · rw [Function.update_of_ne hid']
          refine commitRelation_elsewhere hends hid' ?_
          rw [hsome]
          rintro ⟨⟩
          exact hid rfl
    rw [hafter]
    exact hrows'

theorem InStep.related (h : InStep state model) (hroom : relation.roomId = roomId)
    (happly : applyRelationAdded state at_ relation actor = .ok settled)
    (hproject : projectRelationAdded ⟨roomId, actor, state, settled⟩ model at_ relation =
      some model') : InStep settled model' := by
  obtain ⟨ends, hcheck, rfl⟩ := applyRelationAdded_ok happly
  obtain ⟨hfresh, -, hends, -⟩ := checkRelation_ok hcheck
  obtain ⟨-, hproposal, hrelations⟩ := commitRelation_objects at_ hends
  have hkeyed := (commitRelation_pointers at_ h.keyed hcheck).1
  have hexisted : (state.relations.any fun existing => existing.id == relation.id) = false := by
    rw [List.any_eq_false]
    intro existing hmem
    simpa using hfresh existing hmem
  have hlanded : ((state.relations ++ [relation]).any fun existing => existing.id == relation.id) =
      true := by
    simp
  subst hroom
  simp only [projectRelationAdded, hrelations, hlanded, hexisted, Bool.not_true, Bool.or_false,
    Bool.false_eq_true, if_false] at hproject
  simp only [insertRelation, Option.bind_eq_bind, Option.bind_eq_some_iff] at hproject
  obtain ⟨-, -, -, -, -, -, edges, -, synced, hfrom, synced', hto, hattention⟩ := hproject
  obtain ⟨hrows, hproposals⟩ := syncEnds_mirrors hends (by exact h.objects) hfrom hto
  obtain ⟨hkeptObjects, hkeptProposals⟩ := resolveAttention_tables hattention
  refine ⟨hkeyed, ?_, ?_⟩
  · rw [hkeptObjects]
    exact hrows
  · rw [hproposal, hkeptProposals, hproposals]
    exact h.proposals

end Relations

/-! ## Whole runs -/

section Runs

variable {roomId authorized : Id} {sessionId : Option Id}

theorem projectRoomEvent_same {actor : Actor} {event : CoreEvent} (hsame : SameFacts after state)
    (hproject : projectRoomEvent ⟨roomId, actor, state, after⟩ model event sessionId =
      some model') : model' = model := by
  obtain ⟨hobjects, hrelations, hproposals, hcorrections⟩ := hsame
  unfold projectRoomEvent at hproject
  split at hproject
  · rename_i proposal _
    simp only [projectProposalRecorded, hproposals] at hproject
    cases hslot : state.proposals.get proposal.stored.id <;> simp_all
  · rename_i proposalId reason _
    simp only [projectProposalRejected, CoreState.proposal?, hproposals] at hproject
    split at hproject
    · simp_all
    · rename_i record hrecord
      by_cases hstatus : record.status = .rejected
      · simp_all
      · simp_all
  · rename_i proposalId byId reason _
    simp only [projectProposalSuperseded, CoreState.proposal?, hproposals] at hproject
    split at hproject
    · simp_all
    · rename_i record hrecord
      by_cases hstatus : record.status = .superseded
      · simp_all
      · simp_all
  · rename_i object _
    simp only [projectObjectAccepted, hobjects] at hproject
    cases hslot : state.objects.get object.id <;> simp_all
  · simp only [projectObjectCorrected, hcorrections, if_true, Option.some.injEq] at hproject
    exact hproject.symm
  · rename_i relation _
    simp only [projectRelationAdded, hrelations, Bool.not_or_self, if_true, Option.some.injEq]
      at hproject
    exact hproject.symm

theorem projectRoomEvent_congr {actor : Actor} {event : CoreEvent} (hsame : SameFacts after settled) :
    projectRoomEvent ⟨roomId, actor, state, after⟩ model event sessionId =
      projectRoomEvent ⟨roomId, actor, state, settled⟩ model event sessionId := by
  obtain ⟨hobjects, hrelations, hproposals, hcorrections⟩ := hsame
  obtain ⟨objects, relations, proposals, corrections, _, _, _, _⟩ := after
  obtain ⟨_, _, _, _, _, _, _, _⟩ := settled
  dsimp only at hobjects hrelations hproposals hcorrections
  subst hobjects hrelations hproposals hcorrections
  unfold projectRoomEvent
  split
  · rfl
  · rfl
  · rfl
  · rfl
  · rfl
  · rfl

variable [Unicode] {entry : AuthoredEvent}

/-- One applied event and its projection keep the tables in step. -/
theorem InStep.dispatch (h : InStep state model) (hclear : NoRepointing state entry)
    (hroom : resolveRoomId (.core entry.event sessionId) authorized state = .ok roomId)
    (hdispatch : dispatch state entry = .ok settled)
    (hproject : projectRoomEvent ⟨roomId, entry.trusted.actor, state, settled⟩ model entry.event
      sessionId = some model') : InStep settled model' := by
  have happly := hdispatch
  unfold Core.dispatch at happly
  unfold projectRoomEvent at hproject
  cases hbody : entry.event.body with
  | proposalRecorded proposal =>
    simp only [hbody] at happly hproject
    refine h.recorded (resolveRoomId_declared ?_ hroom) happly hproject
    simp [declaredRoomId, hbody]
  | proposalRejected proposalId reason =>
    simp only [hbody] at happly hproject
    obtain ⟨record, hown, -⟩ := applyProposalRejected_ok happly
    simp only [resolveRoomId, declaredRoomId, hbody, hown] at hroom
    have hsame := subjectRoom_ok hroom
    exact h.rejected hown hsame happly hproject
  | proposalSuperseded proposalId byId reason =>
    simp only [hbody] at happly hproject
    obtain ⟨record, hown, -⟩ := applyProposalSuperseded_ok happly
    simp only [resolveRoomId, declaredRoomId, hbody, hown] at hroom
    have hsame := subjectRoom_ok hroom
    exact h.superseded hown hsame happly hproject
  | objectAccepted object =>
    simp only [hbody] at happly hproject
    refine h.accepted (resolveRoomId_declared ?_ hroom) happly hproject
    simp [declaredRoomId, hbody]
  | objectCorrected correction =>
    simp only [hbody] at happly hproject
    obtain ⟨record, hown, -⟩ := applyObjectCorrected_ok happly
    simp only [resolveRoomId, declaredRoomId, hbody, hown] at hroom
    have hsame := subjectRoom_ok hroom
    exact h.corrected hown hsame
      (hclear correction hbody ⟨settled, hdispatch⟩) happly hproject
  | relationAdded relation =>
    simp only [hbody] at happly hproject
    refine h.related (resolveRoomId_declared ?_ hroom) happly hproject
    simp [declaredRoomId, hbody]

theorem InStep.append (h : InStep deployment.state deployment.model)
    (hclear : NoRepointing deployment.state entry)
    (happend : appendAndProject deployment authorized entry sessionId = some next) :
    InStep next.state next.model := by
  simp only [appendAndProject, Option.bind_eq_bind, Option.bind_eq_some_iff] at happend
  obtain ⟨roomId, hroom, ⟨outcome, after⟩, hstep, happend⟩ := happend
  have hroom' : resolveRoomId (.core entry.event sessionId) authorized deployment.state =
      .ok roomId := by
    cases hr : resolveRoomId (.core entry.event sessionId) authorized deployment.state with
    | ok room => simpa [hr, Except.toOption] using hroom
    | error e => simp [hr, Except.toOption] at hroom
  have hstep' : step deployment.state entry = .ok (outcome, after) := by
    cases hs : step deployment.state entry with
    | ok result => simpa [hs, Except.toOption] using hstep
    | error e => simp [hs, Except.toOption] at hstep
  split at happend
  · simp only [Option.bind_eq_some_iff, Option.pure_def, Option.some.injEq] at happend
    obtain ⟨model, hproject, rfl⟩ := happend
    rcases step_facts hstep' with hsame | ⟨settled, hdispatch, hsame⟩
    · rw [projectRoomEvent_same hsame hproject]
      exact h.congr hsame
    · rw [projectRoomEvent_congr hsame] at hproject
      exact (h.dispatch hclear hroom' hdispatch hproject).congr hsame
  · cases happend

/-- In every run in which no retraction and no restoration moves a supersession pointer, the read
model equals the fold after every event. -/
theorem read_model_agrees (h : Projected NoRepointing deployment) : ReadModelAgrees deployment := by
  suffices hinv : InStep deployment.state deployment.model by
    refine ⟨hinv.objects.mono ?_, hinv.proposals.mono ?_⟩
    · intro record row hrow
      exact hrow.1
    · intro record row hrow
      exact hrow.1
  induction h with
  | start =>
    refine ⟨?_, ?_, ?_⟩
    · intro id record hrecord
      simp [CoreState.object?, emptyState] at hrecord
    · have hheld : emptyState.object? = fun _ => none := by
        funext id
        simp [CoreState.object?, emptyState]
      rw [hheld]
      exact mirrors_none
    · have hheld : emptyState.proposal? = fun _ => none := by
        funext id
        simp [CoreState.proposal?, emptyState]
      rw [hheld]
      exact mirrors_none
  | core authorized entry sessionId _ hallowed happend ih => exact ih.append hallowed happend
  | server attentionItems _ ih => exact ⟨ih.keyed, ih.objects, ih.proposals⟩

theorem Projected.appendAll {allowed : CoreState → AuthoredEvent → Prop} {log : List AuthoredEvent}
    (h : Projected allowed deployment) (hallowed : ∀ entry ∈ log, ∀ state, allowed state entry)
    (happend : appendAll authorized log deployment = some next) : Projected allowed next := by
  induction log generalizing deployment with
  | nil =>
    cases happend
    exact h
  | cons entry rest ih =>
    simp only [Server.appendAll, Option.bind_eq_bind, Option.bind_eq_some_iff] at happend
    obtain ⟨middle, hfirst, hrest⟩ := happend
    have hstep := Projected.core authorized entry none h
      (hallowed entry List.mem_cons_self deployment.state) hfirst
    exact ih hstep (fun e he => hallowed e (List.mem_cons_of_mem _ he)) hrest

end Runs

/-! ## A retraction that leaves a row behind -/

section Stale

def exampleRoom : Id := "00000000-0000-4000-8000-000000000000"

def firstQuestion : Id := "00000000-0000-4000-8000-00000000000a"

def secondQuestion : Id := "00000000-0000-4000-8000-00000000000b"

def exampleEdge : Relation :=
  { supersedesEdge "00000000-0000-4000-8000-00000000000c" firstQuestion secondQuestion with
    roomId := exampleRoom }

def memberEvent (id at_ : String) (body : EventBody) : AuthoredEvent :=
  ⟨⟨id, at_, body⟩, ⟨.human "00000000-0000-4000-8000-00000000000d", none⟩⟩

/-- Two questions, and the first supersedes the second. -/
def supersededLog : List AuthoredEvent :=
  [memberEvent "e1" "2026-01-01T00:00:01.000Z"
      (.objectAccepted { openQuestion firstQuestion "Ship it?" with roomId := exampleRoom }),
    memberEvent "e2" "2026-01-01T00:00:02.000Z"
      (.objectAccepted { openQuestion secondQuestion "Ship now?" with roomId := exampleRoom }),
    memberEvent "e3" "2026-01-01T00:00:03.000Z" (.relationAdded exampleEdge)]

def retraction (objectId : Id) : AuthoredEvent :=
  memberEvent "e4" "2026-01-01T00:00:04.000Z" (.objectCorrected (plainCorrection objectId .retract))

/-- The record of an object has no supersession pointer and its row has one. -/
def rowLeftBehind (objectId : Id) (deployment : Deployment) : Bool :=
  (deployment.state.object? objectId).map ObjectRecord.supersededById = some none &&
    (((uuid objectId).bind deployment.model.acceptedObjects.lookup).bind
      ObjectRow.supersededById).isSome

theorem not_agrees_of_rowLeftBehind {objectId : Id}
    (h : rowLeftBehind objectId deployment = true) : ¬ ReadModelAgrees deployment := by
  rintro ⟨hobjects, -⟩
  simp only [rowLeftBehind, Bool.and_eq_true, decide_eq_true_eq, Option.map_eq_some_iff] at h
  obtain ⟨⟨record, hrecord, hfree⟩, hrow⟩ := h
  obtain ⟨key, row, hkey, hlookup, hagrees⟩ := hobjects.row_of objectId record hrecord
  have hpointer := hagrees.supersededById
  rw [hfree] at hpointer
  have hnone : row.supersededById = none := (Option.some.inj hpointer).symm
  rw [hkey, Option.bind_some, hlookup, Option.bind_some, hnone] at hrow
  cases hrow

theorem superseded_run : ∃ middle,
    @appendAll Unicode.ascii exampleRoom supersededLog ⟨emptyState, emptyModel⟩ = some middle ∧
    repointings middle.state (plainCorrection secondQuestion .retract) = [] ∧
    (∃ next, @appendAndProject Unicode.ascii middle exampleRoom (retraction secondQuestion) none =
      some next) ∧
    ∃ next, @appendAndProject Unicode.ascii middle exampleRoom (retraction firstQuestion) none =
      some next ∧ rowLeftBehind secondQuestion next = true := by
  let _ : Unicode := Unicode.ascii
  have hrun : (appendAll exampleRoom supersededLog ⟨emptyState, emptyModel⟩).any (fun middle =>
      repointings middle.state (plainCorrection secondQuestion .retract) = [] &&
        ((appendAndProject middle exampleRoom (retraction secondQuestion) none).isSome &&
          (appendAndProject middle exampleRoom (retraction firstQuestion) none).any
            (rowLeftBehind secondQuestion))) = true := by
    decide +kernel
  simpa only [Option.any_eq_true, Bool.and_eq_true, decide_eq_true_eq, Option.isSome_iff_exists]
    using hrun

/-- Retracting the first question releases the second in the state, and its row keeps the pointer. -/
theorem retraction_leaves_row_behind : ∃ deployment,
    @Projected Unicode.ascii (fun _ _ => True) deployment ∧ ¬ ReadModelAgrees deployment := by
  let _ : Unicode := Unicode.ascii
  obtain ⟨middle, happend, -, -, deployment, hretract, hstale⟩ := superseded_run
  refine ⟨deployment, ?_, not_agrees_of_rowLeftBehind hstale⟩
  exact (Projected.start.appendAll (fun _ _ _ => trivial) happend).core exampleRoom _ none trivial
    hretract

/-- Retracting the second question, which supersedes nothing, keeps the read model in agreement. -/
theorem read_model_agrees_retracted : ∃ deployment,
    (@appendAll Unicode.ascii exampleRoom supersededLog ⟨emptyState, emptyModel⟩).bind
        (fun d => @appendAndProject Unicode.ascii d exampleRoom (retraction secondQuestion) none) =
      some deployment ∧ ReadModelAgrees deployment := by
  let _ : Unicode := Unicode.ascii
  obtain ⟨middle, happend, hclear, ⟨deployment, hretract⟩, -⟩ := superseded_run
  refine ⟨deployment, Option.bind_eq_some_iff.mpr ⟨middle, happend, hretract⟩, ?_⟩
  have hmiddle : Projected NoRepointing middle := by
    refine Projected.start.appendAll ?_ happend
    intro entry hentry state correction hbody
    simp only [supersededLog, List.mem_cons, List.not_mem_nil, or_false] at hentry
    rcases hentry with rfl | rfl | rfl <;> cases hbody
  refine read_model_agrees (Projected.core exampleRoom _ none hmiddle ?_ hretract)
  intro correction hbody _
  obtain rfl : plainCorrection secondQuestion .retract = correction :=
    EventBody.objectCorrected.inj hbody
  exact hclear

end Stale

end Server
