import AtriumVerified.Core.AnswerBinding
import AtriumVerified.Core.Proofs.DraftProofs
import AtriumVerified.Core.Proofs.ReplayProofs
import AtriumVerified.Lib.ExceptBind

/-!
# A bound answer

The checks of the command are those that the reducer makes of its two events, so what the command
refuses the reducer does not apply. A binding that succeeds adds the answer and the edge and settles
the question; one that fails leaves the state.
-/

namespace Core

open Js Checked

/-! ## The command -/

theorem not_checked_of_refusal {state : CoreState} {command : AnswerBindingCommand}
    {actor : Actor} {refusal : String}
    (h : answerBindingRefusal state command actor = .ok (some refusal)) :
    checkAnswerBinding state command actor ≠ .ok () := by
  intro hcheck
  rw [answerBindingRefusal, hcheck] at h
  cases h

/-! ## The two events -/

section Binding

variable [Unicode] {Raw : Type} {schema : EventSchema Raw} {state next : CoreState}
  {command : AnswerBindingCommand} {actor : Actor}

def KeepsEvents (schema : EventSchema Raw) : Prop :=
  ∀ event parsed, schema.safeParse (schema.value event) = .ok parsed → parsed = event

def BothApplied (schema : EventSchema Raw) (state : CoreState) (command : AnswerBindingCommand)
    (actor : Actor) (next : CoreState) : Prop :=
  ∃ held first second firstActor secondActor,
    appendEvent schema state (authoredRow schema ⟨command.accepts, ⟨actor, none⟩⟩) =
      .ok (.applied first firstActor, held) ∧
    appendEvent schema held (authoredRow schema ⟨command.relates, ⟨actor, none⟩⟩) =
      .ok (.applied second secondActor, next)

/-- What a bound answer leaves: the answer and its edge are new, the question is answered, and every
other object is as it was. -/
structure Bound (state : CoreState) (command : AnswerBindingCommand) (actor : Actor)
    (next : CoreState) : Prop where
  fresh : state.objects.get command.answerObjectId = .absent
  answer : next.object? command.answerObjectId =
    some (freshRecord command.object command.at_ actor)
  question : ∃ before after payload, state.object? command.questionObjectId = some before ∧
    next.object? command.questionObjectId = some after ∧
    before.object.payload = .openQuestion payload ∧
    after.object.payload = .openQuestion { payload with status := .answered }
  others : ∀ id, id ≠ command.answerObjectId → id ≠ command.questionObjectId →
    next.object? id = state.object? id
  relations : next.relations = state.relations ++ [command.relation]
  newRelation : ∀ relation ∈ state.relations, relation.id ≠ command.relationId

theorem accepts_applied (hschema : KeepsEvents schema) {event : CoreEvent} {applier : Actor}
    (h : appendEvent schema state (authoredRow schema ⟨command.accepts, ⟨actor, none⟩⟩) =
      .ok (.applied event applier, next)) :
    state.objects.get command.answerObjectId = .absent ∧
      (∀ id, next.object? id = if id = command.answerObjectId then
        some (freshRecord command.object command.at_ actor) else state.object? id) ∧
      next.relations = state.relations ∧ next.cursor = some ⟨command.at_, command.acceptEventId⟩ := by
  obtain ⟨hparse, -, settled, hdispatch, hfacts, hcursor⟩ := appendEvent_applied h
  obtain rfl := hschema _ _ hparse
  obtain ⟨hfree, proposal, hcited, rfl⟩ := applyObjectAccepted_ok hdispatch
  refine ⟨hfree, fun id => ?_, ?_, hcursor⟩
  · have hobjects : next.object? id = (commitAcceptance state command.at_ command.object actor
        proposal).object? id := by
      unfold CoreState.object?
      rw [hfacts.1]
      rfl
    rw [hobjects]
    exact commitAcceptance_object? hfree id
  · rw [hfacts.2.1]
    exact commitAcceptance_relations

/-- The edge, where it is applied. -/
theorem relates_applied (hschema : KeepsEvents schema) {event : CoreEvent} {applier : Actor}
    (h : appendEvent schema state (authoredRow schema ⟨command.relates, ⟨actor, none⟩⟩) =
      .ok (.applied event applier, next)) :
    ∃ source payload, state.object? command.questionObjectId = some source ∧
      source.object.roomId = command.roomId ∧ source.retractedAt = none ∧
      source.object.payload = .openQuestion payload ∧ payload.status = .open ∧
      isHuman actor = true ∧ command.answerObjectId ≠ command.questionObjectId ∧
      (∀ relation ∈ state.relations, relation.id ≠ command.relationId) ∧
      (∀ cursor, state.cursor = some cursor →
        Before cursor ⟨command.at_, command.relationEventId⟩) ∧
      next.relations = state.relations ++ [command.relation] ∧
      ∀ id, next.object? id = if id = command.questionObjectId then
        some { source with
          object := { source.object with
            payload := .openQuestion { payload with status := .answered }, updatedAt := command.at_ }
          updatedAt := command.at_ } else state.object? id := by
  obtain ⟨hparse, hnot, settled, hdispatch, hfacts, -⟩ := appendEvent_applied h
  obtain rfl := hschema _ _ hparse
  obtain ⟨ends, hcheck, rfl⟩ := applyRelationAdded_ok hdispatch
  obtain ⟨hfresh, hshape, hends, -⟩ := checkRelation_ok hcheck
  obtain ⟨hsource, hroom, -⟩ := relationEndpoints_ok hends
  obtain ⟨targetId, htarget, hself⟩ := (relationShapeError_none hshape).1 rfl
  have hanswer : targetId = command.answerObjectId := (Option.some.inj htarget).symm
  subst hanswer
  rcases commitRelation_cases command.at_ hcheck with
    ⟨-, -, hkind, -⟩ | ⟨payload, -, hown, hpayload, hopen, hlive, hhuman, hcommit⟩ | ⟨-, hkind, -⟩
  · cases hkind
  · refine ⟨ends.source, payload, hown, hroom, hlive, hpayload, hopen, hhuman, hself, hfresh,
      fun cursor hcursor => (rejectionFor_eq_none.mp hnot).1 cursor hcursor, ?_, fun id => ?_⟩
    · rw [hfacts.2.1]
      exact commitRelation_relations
    · have hobjects : next.object? id =
          (commitRelation state command.at_ command.relation ends).object? id := by
        unfold CoreState.object?
        rw [hfacts.1]
        rfl
      rw [hobjects, hcommit]
      exact object?_setObject (object?_ne_proto hown) _ id
  · exact absurd rfl hkind

/-- Two events that are applied bind the answer, and the command has passed its checks. -/
theorem bound_of_applied (hschema : KeepsEvents schema)
    (h : BothApplied schema state command actor next) :
    Bound state command actor next ∧ checkAnswerBinding state command actor = .ok () := by
  obtain ⟨held, first, second, firstActor, secondActor, haccepts, hrelates⟩ := h
  obtain ⟨hfree, hobjects, hrelations, hcursor⟩ := accepts_applied hschema haccepts
  obtain ⟨source, payload, hsource, hroom, hlive, hpayload, hopen, hhuman, hself, hfresh, hbefore,
    hnext, hwritten⟩ := relates_applied hschema hrelates
  have hquestion : state.object? command.questionObjectId = some source := by
    rw [← hsource, hobjects, if_neg hself.symm]
  refine ⟨⟨hfree, ?_, ?_, ?_, ?_, ?_⟩, ?_⟩
  · rw [hwritten, if_neg hself, hobjects, if_pos rfl]
  · exact ⟨source, _, payload, hquestion, by rw [hwritten, if_pos rfl], hpayload, rfl⟩
  · intro id hanswer hother
    rw [hwritten, if_neg hother, hobjects, if_neg hanswer]
  · rw [hnext, hrelations]
  · rw [← hrelations]
    exact hfresh
  · have hordered : compareCursor ⟨command.at_, command.acceptEventId⟩
        ⟨command.at_, command.relationEventId⟩ = .lt := hbefore _ hcursor
    have hget : state.objects.get command.questionObjectId = .own source :=
      PlainObject.get_eq_own.mpr hquestion
    have htype : source.object.type = .openQuestion := by
      unfold AcceptedObject.type
      rw [hpayload]
      rfl
    simp [checkAnswerBinding, bind_eq_ok, hhuman, hget, htype, hlive, hpayload, hopen, hroom, hfree,
      hordered]

/-! ## The binding -/

theorem applyEvents_ok (h : applyEvents schema command state (answerBindingEvents command actor) =
    .ok (.ok next)) : BothApplied schema state command actor next := by
  rw [answerBindingEvents, applyEvents] at h
  split at h
  · cases h
  · rename_i first firstActor held hfirst
    rw [applyEvents] at h
    split at h
    · cases h
    · rename_i second secondActor last hsecond
      rw [applyEvents] at h
      cases h
      exact ⟨held, first, second, firstActor, secondActor, hfirst, hsecond⟩
    · cases h
  · cases h

theorem applyAnswerBinding_cases {result : AnswerBinding}
    (h : applyAnswerBinding schema state command actor = .ok result) :
    (∃ next, result = .bound next (answerBindingEvents command actor) ∧
      BothApplied schema state command actor next) ∨ ∃ refusal, result = .refused state refusal := by
  obtain ⟨bound, hbound, h⟩ := Except.bind_ok h
  cases bound with
  | error refusal =>
    cases h
    exact Or.inr ⟨refusal, rfl⟩
  | ok events =>
    obtain ⟨applied, happlied, h⟩ := Except.bind_ok h
    have hevents : events = answerBindingEvents command actor := by
      obtain ⟨refusal, -, hevents⟩ := Except.bind_ok hbound
      cases refusal with
      | some refusal => cases hevents
      | none =>
        cases hevents
        rfl
    subst hevents
    cases applied with
    | error refusal =>
      cases h
      exact Or.inr ⟨refusal, rfl⟩
    | ok last =>
      cases h
      exact Or.inl ⟨last, rfl, applyEvents_ok happlied⟩

/-- Binding an answer is all or nothing, and it refuses no command whose events the reducer applies. -/
theorem answer_bound_or_untouched (hschema : KeepsEvents schema) (state : CoreState)
    (command : AnswerBindingCommand) (actor : Actor) :
    (∀ next events, applyAnswerBinding schema state command actor = .ok (.bound next events) →
      events = answerBindingEvents command actor ∧ BothApplied schema state command actor next ∧
        Bound state command actor next) ∧
      (∀ kept refusal, applyAnswerBinding schema state command actor = .ok (.refused kept refusal) →
        kept = state) ∧
      ∀ refusal, answerBindingRefusal state command actor = .ok (some refusal) →
        ∀ next, ¬ BothApplied schema state command actor next := by
  refine ⟨fun next events h => ?_, fun kept refusal h => ?_, fun refusal h next happlied => ?_⟩
  · rcases applyAnswerBinding_cases h with ⟨last, heq, happlied⟩ | ⟨refusal, heq⟩
    · cases heq
      exact ⟨rfl, happlied, (bound_of_applied hschema happlied).1⟩
    · cases heq
  · rcases applyAnswerBinding_cases h with ⟨last, heq, -⟩ | ⟨other, heq⟩
    · cases heq
    · cases heq
      rfl
  · exact not_checked_of_refusal h (bound_of_applied hschema happlied).2

end Binding

def shipsIt : AnswerBindingCommand where
  at_ := "2026-01-01T00:00:02.000Z"
  roomId := "room"
  questionObjectId := "a"
  answerObjectId := "d"
  answer := .decision ⟨"Ship it.", none, .active⟩
  messageIds := ["m1"]
  acceptEventId := "e2"
  relationEventId := "e3"
  relationId := "r1"
  objectiveId := none

def boundState : Except TypeError AnswerBinding → Option CoreState
  | .ok (.bound next _) => some next
  | _ => none

theorem boundState_eq_some {result : Except TypeError AnswerBinding} {next : CoreState}
    (h : boundState result = some next) : ∃ events, result = .ok (.bound next events) := by
  unfold boundState at h
  split at h
  · cases h
    exact ⟨_, rfl⟩
  · cases h

/-- The decision is new and settles the question. -/
theorem shipsIt_bound :
    let _ : Unicode := Unicode.ascii
    ∃ next events, applyAnswerBinding parsedSchema (offerAll askedLog) shipsIt (.human "u") =
      .ok (.bound next events) ∧ BothApplied parsedSchema (offerAll askedLog) shipsIt (.human "u") next ∧
        Bound (offerAll askedLog) shipsIt (.human "u") next := by
  intro _
  have hbound : (boundState (applyAnswerBinding parsedSchema (offerAll askedLog) shipsIt
      (.human "u"))).isSome = true := by decide +kernel
  obtain ⟨next, hnext⟩ := Option.isSome_iff_exists.mp hbound
  obtain ⟨events, heq⟩ := boundState_eq_some hnext
  have hkeeps : KeepsEvents parsedSchema := fun event parsed h => (Except.ok.inj h).symm
  obtain ⟨-, happlied, hleft⟩ := (answer_bound_or_untouched hkeeps (offerAll askedLog) shipsIt
    (.human "u")).1 next events heq
  exact ⟨next, events, heq, happlied, hleft⟩

end Core
