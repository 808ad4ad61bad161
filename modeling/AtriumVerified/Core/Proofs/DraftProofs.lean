import AtriumVerified.Core.Drafts
import AtriumVerified.Core.Proofs.StepProofs

/-!
# Refusals leave nothing behind

The handlers write the draft in place and nothing is rolled back, so that a refused event leaves the
facts of a room alone is a property of the order of their assignments: every check of a handler comes
before its first assignment. Each handler on the draft is compared with its counterpart that computes
the next state, and the whole of `appendEvent` with the reducer of `Core.Reduce`.
-/

namespace Core

open Checked Js
open CoreState (fail)

def HandlesAs (eventId : Id) (program : Handler Unit) (state : CoreState)
    (result : Except Stop CoreState) : Prop :=
  Draft.Settles (fun reason state => fail state eventId reason) TypeError.mk program state result

section Assignments

variable {α : Type} {state left : CoreState} {eventId id : Id}

theorem setObject_setObject (state : CoreState) (id : Id) (first second : ObjectRecord) :
    (state.setObject id first).setObject id second = state.setObject id second := by
  unfold CoreState.setObject PlainObject.set
  by_cases hproto : id = "__proto__"
  · simp only [hproto, dite_true]
  · simp only [hproto, dite_false, AList.insert_insert]

theorem setProposal_setProposal (state : CoreState) (id : Id) (first second : ProposalRecord) :
    (state.setProposal id first).setProposal id second = state.setProposal id second := by
  unfold CoreState.setProposal PlainObject.set
  by_cases hproto : id = "__proto__"
  · simp only [hproto, dite_true]
  · simp only [hproto, dite_false, AList.insert_insert]

theorem bind_of_done {first : Handler Unit} {program : Unit → Handler α}
    (h : first state = .ok (some (), left)) : (first >>= program) state = program () left := by
  simp [bind, h]

theorem assign_done (change : CoreState → CoreState) (state : CoreState) :
    assign change state = .ok (some (), change state) := rfl

theorem assignObject_done {record : ObjectRecord} (h : state.object? id = some record)
    (change : ObjectRecord → ObjectRecord) :
    assignObject id change state = .ok (some (), state.setObject id (change record)) := by
  unfold assignObject
  rw [assign_done, h]

theorem assignObject_again {record : ObjectRecord} (hproto : id ≠ "__proto__")
    (change : ObjectRecord → ObjectRecord) :
    assignObject id change (state.setObject id record) =
      .ok (some (), state.setObject id (change record)) := by
  have hheld : (state.setObject id record).object? id = some record := by
    rw [object?_setObject hproto, if_pos rfl]
  rw [assignObject_done hheld, setObject_setObject]

theorem assignProposal_done {record : ProposalRecord} (h : state.proposal? id = some record)
    (change : ProposalRecord → ProposalRecord) :
    assignProposal id change state = .ok (some (), state.setProposal id (change record)) := by
  unfold assignProposal
  rw [assign_done, h]

theorem assignProposal_again {record : ProposalRecord} (hproto : id ≠ "__proto__")
    (change : ProposalRecord → ProposalRecord) :
    assignProposal id change (state.setProposal id record) =
      .ok (some (), state.setProposal id (change record)) := by
  have hheld : (state.setProposal id record).proposal? id = some record := by
    rw [proposal?_setProposal hproto, if_pos rfl]
  rw [assignProposal_done hheld, setProposal_setProposal]

theorem handlesAs_ask {check : CoreState → Except Stop α} {program : α → Handler Unit}
    {result : α → Except Stop CoreState}
    (h : ∀ a, check state = .ok a → HandlesAs eventId (program a) state (result a)) :
    HandlesAs eventId (ask eventId check >>= program) state (check state >>= result) :=
  Draft.settles_ask h

end Assignments

/-! ## Handler by handler -/

section Handlers

variable {state : CoreState} {eventId : Id} {at_ : Timestamp} {actor : Actor}

theorem applyProposalRecorded_inPlace (proposal : Proposal) :
    HandlesAs eventId (InPlace.applyProposalRecorded eventId proposal actor) state
      (applyProposalRecorded state eventId proposal actor) := by
  unfold InPlace.applyProposalRecorded applyProposalRecorded
  apply handlesAs_ask
  intro _ _
  by_cases hstatus : proposal.status = .proposed
  · simp only [hstatus, ne_eq, not_true_eq_false, if_false, if_true]
    rfl
  · simp only [hstatus, ne_eq, not_false_eq_true, if_false, if_true]
    rfl

theorem applyProposalRejected_inPlace (proposalId : Id) (reason : Option String) :
    HandlesAs eventId (InPlace.applyProposalRejected eventId proposalId reason actor) state
      (applyProposalRejected state proposalId reason actor) := by
  have hresult : applyProposalRejected state proposalId reason actor =
      (applyProposalRejected state proposalId reason actor >>= Except.ok) := by
    cases applyProposalRejected state proposalId reason actor <;> rfl
  rw [hresult]
  unfold InPlace.applyProposalRejected
  apply handlesAs_ask
  intro next hnext
  obtain ⟨record, hown, -, -, rfl⟩ := applyProposalRejected_ok hnext
  have hheld := PlainObject.get_eq_own.mp hown
  unfold HandlesAs Draft.Settles
  rw [bind_of_done (assignProposal_done hheld _), assignProposal_again (proposal?_ne_proto hheld)]

theorem applyProposalSuperseded_inPlace (proposalId : Id) (byId : Option Id)
    (reason : Option String) :
    HandlesAs eventId (InPlace.applyProposalSuperseded eventId proposalId byId reason actor) state
      (applyProposalSuperseded state proposalId byId reason actor) := by
  have hresult : applyProposalSuperseded state proposalId byId reason actor =
      (applyProposalSuperseded state proposalId byId reason actor >>= Except.ok) := by
    cases applyProposalSuperseded state proposalId byId reason actor <;> rfl
  rw [hresult]
  unfold InPlace.applyProposalSuperseded
  apply handlesAs_ask
  intro next hnext
  obtain ⟨record, hown, -, -, -, rfl⟩ := applyProposalSuperseded_ok hnext
  have hheld := PlainObject.get_eq_own.mp hown
  have hproto := proposal?_ne_proto hheld
  unfold HandlesAs Draft.Settles
  rw [bind_of_done (assignProposal_done hheld _), bind_of_done (assignProposal_again hproto _),
    assignProposal_again hproto]

theorem commitPlan_inPlace {correction : ObjectCorrected} {record : ObjectRecord}
    {plan : CorrectionPlan} (hown : state.object? correction.objectId = some record) :
    InPlace.commitPlan eventId correction at_ record actor plan state =
      .ok (some (), commitPlan state eventId correction at_ record actor plan) := by
  have hproto := object?_ne_proto hown
  have hlogged : CoreState.object? { state with corrections := state.corrections ++
      [correctionRecord eventId correction at_ record actor plan] } correction.objectId =
      some record := hown
  unfold InPlace.commitPlan
  rw [bind_of_done (assign_done _ _), bind_of_done (assignObject_done hlogged _),
    bind_of_done (assignObject_again hproto _), bind_of_done (assignObject_again hproto _),
    bind_of_done (assignObject_again hproto _), bind_of_done (assignObject_again hproto _)]
  unfold InPlace.afterCommit commitPlan correctedRecord
  cases hafter : plan.afterCommit with
  | nothing => rfl
  | releaseSupersessions => rfl
  | reapplySupersessions => rfl
  | keepAnswers answers =>
    dsimp only
    rw [assignObject_again hproto]

theorem applyObjectCorrected_inPlace (correction : ObjectCorrected) :
    HandlesAs eventId (InPlace.applyObjectCorrected eventId at_ correction actor) state
      (applyObjectCorrected state eventId at_ correction actor) := by
  unfold InPlace.applyObjectCorrected applyObjectCorrected
  -- reading the slot cannot stop, and the one-step handler reads it in place
  refine @handlesAs_ask _ _ _ _ _ (fun _ => _) ?_
  rintro slot ⟨⟩
  apply handlesAs_ask
  intro _ _
  apply handlesAs_ask
  intro record hstored
  apply handlesAs_ask
  intro _ _
  apply handlesAs_ask
  intro outcome hplan
  have hown : state.object? correction.objectId = some record :=
    PlainObject.get_eq_own.mp (stored_eq_ok.mp hstored)
  cases outcome with
  | noop reason => exact Draft.settles_write rfl
  | plan plan =>
    apply handlesAs_ask
    intro committed _
    exact commitPlan_inPlace hown

theorem assignSuperseded_done {targetId : Id} {target : ObjectRecord}
    (h : state.object? targetId = some target) (fromId : Id) :
    InPlace.assignSuperseded targetId fromId at_ state =
      .ok (some (), state.setObject targetId (setSuperseded target (some fromId) at_)) := by
  have hproto := object?_ne_proto h
  unfold InPlace.assignSuperseded
  rw [bind_of_done (assignObject_done h _), bind_of_done (assignObject_again hproto _),
    assignObject_again hproto]
  unfold setSuperseded
  cases target.object.payload <;> rfl

theorem applyRelationAdded_inPlace (relation : Relation) :
    HandlesAs eventId (InPlace.applyRelationAdded eventId at_ relation actor) state
      (applyRelationAdded state at_ relation actor) := by
  unfold InPlace.applyRelationAdded applyRelationAdded
  apply handlesAs_ask
  intro ends hcheck
  obtain ⟨-, -, hends, -⟩ := checkRelation_ok hcheck
  obtain ⟨hsource, -, htarget⟩ := relationEndpoints_ok hends
  -- the edge is added before its ends are written, and leaves them alone
  have hadded : ∀ id, CoreState.object? { state with relations := state.relations ++ [relation] } id =
      state.object? id := fun _ => rfl
  have hfrom := (hadded relation.fromObjectId).trans (PlainObject.get_eq_own.mp hsource)
  unfold HandlesAs Draft.Settles
  rw [bind_of_done (assign_done _ _)]
  rcases commitRelation_cases at_ hcheck with
    ⟨targetId, target, hkind, hobject, hheld, -, heq⟩ | ⟨payload, hkind, -, hpayload, -, -, -, heq⟩ |
    ⟨hsupersedes, hanswers, heq⟩
  · rcases htarget with ⟨hnone, -⟩ | ⟨objectId, found, hsome, hfound, -⟩
    · rw [hnone] at hobject
      cases hobject
    · obtain rfl : targetId = objectId := Option.some.inj (hobject.symm.trans hsome)
      rw [heq]
      simp only [hkind, hfound]
      exact assignSuperseded_done ((hadded targetId).trans hheld) relation.fromObjectId
  · rw [heq]
    simp only [hkind, hpayload]
    unfold InPlace.assignAnswered
    rw [bind_of_done (assignObject_done hfrom _), assignObject_again (object?_ne_proto hfrom)]
    rfl
  · rw [heq]
    cases hkind : relation.kind with
    | supersedes => exact absurd hkind hsupersedes
    | answers => exact absurd hkind hanswers
    | _ => rfl

variable [Unicode]

theorem applyObjectAccepted_inPlace (object : AcceptedObject)
    (messages : Option (List ProvenanceMessage)) :
    HandlesAs eventId (InPlace.applyObjectAccepted eventId at_ object actor messages) state
      (applyObjectAccepted state at_ object actor messages) := by
  unfold InPlace.applyObjectAccepted applyObjectAccepted
  apply handlesAs_ask
  intro proposal hcheck
  unfold HandlesAs Draft.Settles
  rw [bind_of_done (assign_done _ _)]
  rcases citedProposal_ok (checkAcceptance_ok hcheck).2 with
    ⟨hnone, rfl⟩ | ⟨proposalId, record, hsome, rfl, hchecked⟩
  · simp only [hnone, commitAcceptance]
    rfl
  · obtain ⟨hown, -⟩ := checkCitedProposal_ok hchecked
    have hheld : (state.setObject object.id (freshRecord object at_ actor)).proposal? proposalId =
        some record := PlainObject.get_eq_own.mp hown
    simp only [hsome, commitAcceptance]
    rw [bind_of_done (assignProposal_done hheld _), assignProposal_again (proposal?_ne_proto hheld)]
    rfl

theorem dispatch_inPlace (entry : AuthoredEvent) :
    HandlesAs entry.event.id (InPlace.dispatch entry) state (dispatch state entry) := by
  unfold InPlace.dispatch dispatch
  dsimp only
  cases entry.event.body with
  | proposalRecorded proposal => exact applyProposalRecorded_inPlace proposal
  | proposalRejected proposalId reason => exact applyProposalRejected_inPlace proposalId reason
  | proposalSuperseded proposalId byId reason =>
    exact applyProposalSuperseded_inPlace proposalId byId reason
  | objectAccepted object => exact applyObjectAccepted_inPlace object entry.trusted.messages
  | objectCorrected correction => exact applyObjectCorrected_inPlace correction
  | relationAdded relation => exact applyRelationAdded_inPlace relation

end Handlers

/-! ## Whole calls -/

section Calls

variable {state next : CoreState} {entry : AuthoredEvent} {outcome : EventOutcome}

theorem onlyPositionMoved {roomId : Option Id} {reason : String} (event : CoreEvent)
    (hroom : resolveRoomId state event = .ok roomId)
    (hnext : next = advance (fail state event.id reason) roomId event ∨
      ∃ more, next = fail (advance (fail state event.id reason) roomId event) event.id more) :
    OnlyPositionMoved state next event := by
  rcases hnext with rfl | ⟨more, rfl⟩
  · exact ⟨rfl, rfl, rfl, rfl, rfl, ⟨roomId, hroom, rfl⟩, rfl, ⟨_, [], rfl⟩⟩
  · refine ⟨rfl, rfl, rfl, rfl, rfl, ⟨roomId, hroom, rfl⟩, rfl, ⟨⟨event.id, reason⟩,
      [⟨event.id, more⟩], ?_⟩⟩
    show (state.issues ++ [_]) ++ [_] = _
    rw [List.append_assoc]
    rfl

variable [Unicode]

theorem consume_inPlace (state : CoreState) (entry : AuthoredEvent) :
    InPlace.consume state entry = consume state entry := by
  have hdispatch : InPlace.dispatch entry state = _ := dispatch_inPlace entry
  unfold InPlace.consume consume settle
  dsimp only
  rw [hdispatch]
  cases resolveRoomId state entry.event with
  | error stop => cases stop <;> rfl
  | ok roomId =>
    cases dispatch state entry with
    | ok next => rfl
    | error stop =>
      cases stop with
      | refused reason => rfl
      | raised reading => rfl

theorem refuses_iff : InPlace.Refuses state entry ↔
    ∃ reason, dispatch state entry = .error (.refused reason) := by
  have hdispatch : InPlace.dispatch entry state = _ := dispatch_inPlace entry
  unfold InPlace.Refuses
  rw [hdispatch]
  cases dispatch state entry with
  | ok next => simp
  | error stop => cases stop <;> simp

theorem dispatch_of_changesNothing (h : ChangesNothing state entry) {settled : CoreState}
    (hdispatch : dispatch state entry = .ok settled) :
    ∃ reason, settled = fail state entry.event.id reason := by
  obtain ⟨correction, record, reason, hbody, hown, hnoop⟩ := h
  unfold dispatch at hdispatch
  simp only [hbody] at hdispatch
  obtain ⟨held, hheld, -, hcases⟩ := applyObjectCorrected_ok hdispatch
  have hsame := (PlainObject.get_eq_own.mp hheld).symm.trans hown
  rw [Option.some.injEq] at hsame
  subst hsame
  rcases hcases with ⟨reason', -, rfl⟩ | ⟨planned, committed, hplan, -, -⟩
  · exact ⟨reason', rfl⟩
  · rw [hnoop] at hplan
    cases hplan

/-- Refusals are atomic: an event that is consumed but refused by its handler, or is a correction that
changes nothing, leaves every fact as it was; only the position moves, and at least one issue is
recorded. -/
theorem refusals_are_atomic {Raw : Type} (schema : EventSchema Raw) {row : Row Raw}
    {event : CoreEvent} (hparse : schema.safeParse row.event = .ok event)
    (happend : InPlace.appendEvent schema state row = .ok (outcome, next))
    (hconsumed : wasConsumed outcome = true)
    (hidle : InPlace.Refuses state ⟨event, row.trusted⟩ ∨
      ChangesNothing state ⟨event, row.trusted⟩) :
    OnlyPositionMoved state next event := by
  have hconsume : consume state ⟨event, row.trusted⟩ = .ok (outcome, next) := by
    unfold InPlace.appendEvent at happend
    simp only [hparse] at happend
    split at happend
    · cases happend
      cases hconsumed
    · rw [consume_inPlace] at happend
      exact happend
  obtain ⟨roomId, settled, applied, hroom, hsettle, -, hnext⟩ := consume_ok hconsume
  rcases settle_ok hsettle with ⟨hdispatch, -⟩ | ⟨reason, hdispatch, -, rfl⟩
  · rcases hidle with hrefuses | hnothing
    · obtain ⟨reason, hrefused⟩ := refuses_iff.mp hrefuses
      rw [hdispatch] at hrefused
      cases hrefused
    · obtain ⟨reason, rfl⟩ := dispatch_of_changesNothing hnothing hdispatch
      exact onlyPositionMoved event hroom hnext
  · exact onlyPositionMoved event hroom hnext

end Calls

/-! ## A refused row and an idle one -/

section Idle

/-- A restoration of a question that was not retracted. -/
def restoresLive : Row CoreEvent :=
  (humanEvent "e2" "2026-01-01T00:00:02.000Z"
    (.objectCorrected (plainCorrection "a" .restore))).row

/-- An amendment to the words the question has already. -/
def amendsToItself : Row CoreEvent :=
  (humanEvent "e2" "2026-01-01T00:00:02.000Z" (.objectCorrected
    { plainCorrection "a" .amend with patch := [("question", .string "Ship it?")] })).row

def askedLog : List AuthoredEvent :=
  [humanEvent "e1" "2026-01-01T00:00:01.000Z" (.objectAccepted (openQuestion "a" "Ship it?"))]

def consumes (result : Except TypeError (EventOutcome × CoreState)) : Bool :=
  match result with
  | .ok (outcome, _) => wasConsumed outcome
  | .error _ => false

theorem exists_of_consumes {result : Except TypeError (EventOutcome × CoreState)}
    (h : consumes result = true) :
    ∃ outcome next, result = .ok (outcome, next) ∧ wasConsumed outcome = true := by
  unfold consumes at h
  split at h
  · exact ⟨_, _, rfl, h⟩
  · cases h

/-- Both rows are consumed and move the position only: the first is refused, the second has nothing to
change. -/
theorem idle_rows_move_position :
    let _ : Unicode := Unicode.ascii
    (∃ outcome next, InPlace.appendEvent parsedSchema (offerAll askedLog) restoresLive =
        .ok (outcome, next) ∧ OnlyPositionMoved (offerAll askedLog) next restoresLive.event) ∧
      ∃ outcome next, InPlace.appendEvent parsedSchema (offerAll askedLog) amendsToItself =
        .ok (outcome, next) ∧ OnlyPositionMoved (offerAll askedLog) next amendsToItself.event := by
  intro _
  have hrestore : consumes (InPlace.appendEvent parsedSchema (offerAll askedLog) restoresLive) =
      true := by decide +kernel
  have hamend : consumes (InPlace.appendEvent parsedSchema (offerAll askedLog) amendsToItself) =
      true := by decide +kernel
  have hrefused : dispatch (offerAll askedLog) ⟨restoresLive.event, restoresLive.trusted⟩ =
      .error (.refused "object \"a\" is not retracted") := rfl
  obtain ⟨outcome, next, happend, hconsumed⟩ := exists_of_consumes hrestore
  obtain ⟨outcome', next', happend', hconsumed'⟩ := exists_of_consumes hamend
  refine ⟨⟨outcome, next, happend, refusals_are_atomic parsedSchema rfl happend hconsumed
    (Or.inl (refuses_iff.mpr ⟨_, hrefused⟩))⟩, ⟨outcome', next', happend',
      refusals_are_atomic parsedSchema rfl happend' hconsumed' (Or.inr ?_)⟩⟩
  refine ⟨_, freshRecord (openQuestion "a" "Ship it?") "2026-01-01T00:00:01.000Z" (.human "u"), _,
    rfl, ?_, rfl⟩
  decide +kernel

end Idle

end Core
