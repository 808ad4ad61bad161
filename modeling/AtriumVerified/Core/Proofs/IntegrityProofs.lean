import AtriumVerified.Core.Invariants
import AtriumVerified.Core.Proofs.StepProofs

/-!
# Referential integrity over runs

An object keeps its envelope through every correction, so what names it by its room or its objective
keeps holding. Its type can change, and `retypeStructuralRefusal` refuses exactly the changes that
something else depends on.
-/

namespace Core

open Checked Js PointerGraph
open CoreState (fail)

/-! ## What a retype may not break -/

section Retype

variable {state : CoreState} {object : AcceptedObject} {toType : AcceptedObjectType}

theorem retypeStructuralRefusal_none (h : retypeStructuralRefusal state object toType = none) :
    (object.type = .objective → toType ≠ .objective → ∀ id record,
        state.object? id = some record → record.object.objectiveId ≠ some object.id) ∧
      (toType ≠ .openQuestion → ∀ relation ∈ liveAnswers state,
        relation.fromObjectId ≠ object.id) ∧
      (toType ≠ .decision → toType ≠ .claim → ∀ relation ∈ liveAnswers state,
        relation.target.objectId? ≠ some object.id) := by
  unfold retypeStructuralRefusal at h
  dsimp only at h
  split at h
  · cases h
  · rename_i hfiled
    split at h
    · cases h
    · rename_i hfrom
      split at h
      · cases h
      · rename_i hto
        refine ⟨?_, ?_, ?_⟩
        · intro htype hother id record hrecord hobjective
          refine hfiled ⟨htype, hother, ?_⟩
          refine List.ne_nil_of_mem (a := id) (List.mem_filter.mpr ⟨?_, ?_⟩)
          · rw [(sort_perm _).mem_iff, PlainObject.mem_keys]
            exact Option.isSome_iff_exists.mpr ⟨record, hrecord⟩
          · rw [hrecord]
            simpa using hobjective
        · intro hother relation hrelation hsource
          refine hfrom ?_
          have hne : ((liveAnswers state).filter fun relation =>
              relation.fromObjectId == object.id) ≠ [] :=
            List.ne_nil_of_mem (List.mem_filter.mpr ⟨hrelation, beq_iff_eq.mpr hsource⟩)
          simp [hne, hother]
        · intro hdecision hclaim relation hrelation htarget
          refine hto ?_
          have hne : ((liveAnswers state).filter fun relation =>
              relation.target.objectId? == some object.id) ≠ [] :=
            List.ne_nil_of_mem (List.mem_filter.mpr ⟨hrelation, beq_iff_eq.mpr htarget⟩)
          simp [hne, hdecision, hclaim]

end Retype

/-! ## What every event carries over -/

section Carried

variable {state next : CoreState}

/-- A record keeps its envelope, and the answers a reopening has put aside stay aside. -/
def Carried (before after : ObjectRecord) : Prop :=
  SameEnvelope after.object before.object ∧
    before.reopenedFromAnswers ⊆ after.reopenedFromAnswers

theorem Carried.refl (record : ObjectRecord) : Carried record record :=
  ⟨⟨rfl, rfl, rfl, rfl, rfl⟩, List.Subset.refl _⟩

theorem Carried.trans {a b c : ObjectRecord} (h : Carried a b) (h' : Carried b c) : Carried a c := by
  obtain ⟨⟨hid, hroom, hobjective, hprovenance, hcreated⟩, hreopened⟩ := h
  obtain ⟨⟨hid', hroom', hobjective', hprovenance', hcreated'⟩, hreopened'⟩ := h'
  exact ⟨⟨hid'.trans hid, hroom'.trans hroom, hobjective'.trans hobjective,
    hprovenance'.trans hprovenance, hcreated'.trans hcreated⟩, List.Subset.trans hreopened hreopened'⟩

theorem Repointed.carried {before after : ObjectRecord} (h : Repointed before after) :
    Carried before after ∧ after.object.type = before.object.type ∧
      after.reopenedFromAnswers = before.reopenedFromAnswers := by
  rcases h with rfl | ⟨new, at_, rfl⟩
  · exact ⟨Carried.refl after, rfl, rfl⟩
  · unfold setSuperseded
    cases hpayload : before.object.payload with
    | decision payload =>
      refine ⟨⟨⟨rfl, rfl, rfl, rfl, rfl⟩, List.Subset.refl _⟩, ?_, rfl⟩
      unfold AcceptedObject.type
      rw [hpayload]
      rfl
    | commitment payload => exact ⟨⟨⟨rfl, rfl, rfl, rfl, rfl⟩, List.Subset.refl _⟩, rfl, rfl⟩
    | openQuestion payload => exact ⟨⟨⟨rfl, rfl, rfl, rfl, rfl⟩, List.Subset.refl _⟩, rfl, rfl⟩
    | claim payload => exact ⟨⟨⟨rfl, rfl, rfl, rfl, rfl⟩, List.Subset.refl _⟩, rfl, rfl⟩
    | objective payload => exact ⟨⟨⟨rfl, rfl, rfl, rfl, rfl⟩, List.Subset.refl _⟩, rfl, rfl⟩

/-- The same objects, each carried over, and none retyped against `retypeStructuralRefusal`. -/
structure CarriedOver (state next : CoreState) : Prop where
  forth : ∀ id before, state.object? id = some before →
    ∃ after, next.object? id = some after ∧ Carried before after
  back : ∀ id after, next.object? id = some after →
    ∃ before, state.object? id = some before ∧ Carried before after
  types : ∀ id before after, state.object? id = some before → next.object? id = some after →
    after.object.type = before.object.type ∨
      retypeStructuralRefusal state before.object after.object.type = none

theorem CarriedOver.of_records (hnone : ∀ id, state.object? id = none → next.object? id = none)
    (h : ∀ id before, state.object? id = some before → ∃ after, next.object? id = some after ∧
      Carried before after ∧ (after.object.type = before.object.type ∨
        retypeStructuralRefusal state before.object after.object.type = none)) :
    CarriedOver state next where
  forth := by
    intro id before hbefore
    obtain ⟨after, hafter, hcarried, -⟩ := h id before hbefore
    exact ⟨after, hafter, hcarried⟩
  back := by
    intro id after hafter
    cases hbefore : state.object? id with
    | none =>
      rw [hnone id hbefore] at hafter
      cases hafter
    | some before =>
      obtain ⟨held, hheld, hcarried, -⟩ := h id before hbefore
      rw [hafter] at hheld
      cases hheld
      exact ⟨before, rfl, hcarried⟩
  types := by
    intro id before after hbefore hafter
    obtain ⟨held, hheld, -, htypes⟩ := h id before hbefore
    rw [hafter] at hheld
    cases hheld
    exact htypes

theorem CarriedOver.of_objects (h : next.objects = state.objects) : CarriedOver state next := by
  have hobject : next.object? = state.object? := by
    funext id
    unfold CoreState.object?
    rw [h]
  refine CarriedOver.of_records ?_ ?_
  · intro id hnone
    rw [hobject]
    exact hnone
  · intro id held hheld
    rw [hobject]
    exact ⟨held, hheld, Carried.refl held, Or.inl rfl⟩

theorem CarriedOver.objectivePointer (h : CarriedOver state next) :
    objectivePointer next = objectivePointer state := by
  funext id
  unfold Core.objectivePointer
  cases hbefore : state.object? id with
  | none =>
    cases hafter : next.object? id with
    | none => rfl
    | some after =>
      obtain ⟨before, hsome, -⟩ := h.back id after hafter
      rw [hbefore] at hsome
      cases hsome
  | some before =>
    obtain ⟨after, hafter, ⟨-, -, hobjective, -⟩, -⟩ := h.forth id before hbefore
    rw [hafter]
    exact hobjective

theorem JoinsRoom.carried {relation : Relation} (h : JoinsRoom state relation)
    (hover : CarriedOver state next) : JoinsRoom next relation := by
  obtain ⟨targetId, source, target, htarget, hsource, hheld, hsourceRoom, htargetRoom⟩ := h
  obtain ⟨source', hsource', ⟨-, hroom, -⟩, -⟩ := hover.forth _ source hsource
  obtain ⟨target', htarget', ⟨-, hroom', -⟩, -⟩ := hover.forth _ target hheld
  exact ⟨targetId, source', target', htarget, hsource', htarget', hroom.trans hsourceRoom,
    hroom'.trans htargetRoom⟩

theorem CarriedOver.live (h : CarriedOver state next) {relation : Relation}
    (hmem : relation ∈ state.relations) (hlive : relation ∈ liveAnswers next) :
    relation ∈ liveAnswers state := by
  unfold liveAnswers at hlive ⊢
  obtain ⟨-, hlive⟩ := List.mem_filter.mp hlive
  refine List.mem_filter.mpr ⟨hmem, ?_⟩
  rw [Bool.and_eq_true, Bool.not_eq_true'] at hlive ⊢
  refine ⟨hlive.1, ?_⟩
  cases hsource : state.object? relation.fromObjectId with
  | none => rfl
  | some before =>
    obtain ⟨after, hafter, -, hreopened⟩ := h.forth _ before hsource
    have hnot := hlive.2
    rw [hafter, Option.map_some, Option.getD_some, List.contains_eq_mem, decide_eq_false_iff_not]
      at hnot
    rw [Option.map_some, Option.getD_some, List.contains_eq_mem, decide_eq_false_iff_not]
    exact fun hold => hnot (hreopened hold)

theorem AnswersQuestion.carried {relation : Relation} (hk : Keyed state)
    (h : AnswersQuestion state relation) (hlive : relation ∈ liveAnswers state)
    (hover : CarriedOver state next) : AnswersQuestion next relation := by
  obtain ⟨targetId, source, target, htarget, hsource, hheld, hquestion, hanswer⟩ := h
  obtain ⟨source', hsource', -⟩ := hover.forth _ source hsource
  obtain ⟨target', htarget', -⟩ := hover.forth _ target hheld
  refine ⟨targetId, source', target', htarget, hsource', htarget', ?_, ?_⟩
  · rcases hover.types _ source source' hsource hsource' with hsame | hrefusal
    · rw [hsame, hquestion]
    · by_contra hother
      obtain ⟨-, hfrom, -⟩ := retypeStructuralRefusal_none hrefusal
      exact hfrom hother relation hlive (hk _ source hsource).symm
  · rcases hover.types _ target target' hheld htarget' with hsame | hrefusal
    · rw [hsame]
      exact hanswer
    · by_contra hother
      obtain ⟨-, -, hto⟩ := retypeStructuralRefusal_none hrefusal
      refine hto (fun hd => hother (Or.inl hd)) (fun hc => hother (Or.inr hc)) relation hlive ?_
      rw [htarget, hk _ target hheld]

/-- Integrity survives an event that carries the objects over, touches no proposal and adds only
edges that fit. -/
theorem Integrity.carried (h : Integrity state) (hk : Keyed state) (hover : CarriedOver state next)
    (new : List Relation) (hrelations : next.relations = state.relations ++ new)
    (hids : (next.relations.map Relation.id).Nodup) (hproposals : next.proposals = state.proposals)
    (hstructural : ∀ relation ∈ new, relation.kind.structural = true → JoinsRoom state relation)
    (hevidence : ∀ relation ∈ new, relation.kind = .evidence → relation.target.objectId? = none)
    (hanswers : ∀ relation ∈ new, relation.kind = .answers → AnswersQuestion next relation) :
    Integrity next where
  objectives := by
    intro id after objectiveId hafter hobjective
    obtain ⟨before, hbefore, ⟨-, hroom, hsame, -⟩, -⟩ := hover.back id after hafter
    rw [hsame] at hobjective
    obtain ⟨objective, hheld, htype, hobjectiveRoom⟩ :=
      h.objectives id before objectiveId hbefore hobjective
    obtain ⟨objective', hheld', ⟨-, hroom', -⟩, -⟩ := hover.forth _ objective hheld
    refine ⟨objective', hheld', ?_, hroom'.trans (hobjectiveRoom.trans hroom.symm)⟩
    rcases hover.types _ objective objective' hheld hheld' with hkept | hrefusal
    · rw [hkept, htype]
    · by_contra hother
      obtain ⟨hfiled, -, -⟩ := retypeStructuralRefusal_none hrefusal
      refine hfiled htype hother id before hbefore ?_
      rw [hobjective, hk _ objective hheld]
  filing := by
    rw [hover.objectivePointer]
    exact h.filing
  relationIds := hids
  structural := by
    intro relation hmem hkind
    rw [hrelations] at hmem
    rcases List.mem_append.mp hmem with hold | hnew
    · exact (h.structural relation hold hkind).carried hover
    · exact (hstructural relation hnew hkind).carried hover
  evidence := by
    intro relation hmem hkind
    rw [hrelations] at hmem
    rcases List.mem_append.mp hmem with hold | hnew
    · exact h.evidence relation hold hkind
    · exact hevidence relation hnew hkind
  answers := by
    intro relation hlive
    have hmem := (List.mem_filter.mp hlive).1
    rw [hrelations] at hmem
    rcases List.mem_append.mp hmem with hold | hnew
    · have hbefore := hover.live hold hlive
      exact (h.answers relation hbefore).carried hk hbefore hover
    · refine hanswers relation hnew ?_
      have hkind := (List.mem_filter.mp hlive).2
      rw [Bool.and_eq_true, beq_iff_eq] at hkind
      exact hkind.1
  replacements := by
    unfold CoreState.proposal?
    rw [hproposals]
    exact h.replacements

end Carried

/-! ## Corrections -/

section Corrections

variable {state : CoreState} {correction : ObjectCorrected} {at_ : Timestamp}
  {record : ObjectRecord} {actor : Actor} {plan : CorrectionPlan}

theorem lapseVerification_type (before : AcceptedObject) (plan : CorrectionPlan) :
    (lapseVerification before plan).object.type = plan.object.type := by
  unfold lapseVerification
  split
  · rename_i hclaim
    split
    · unfold AcceptedObject.type
      rw [hclaim]
      rfl
    · rfl
  · rfl

theorem mem_keepAnswers (answers held : List Id) (id : Id) :
    id ∈ answers.foldl (fun held id => if held.contains id then held else held ++ [id]) held ↔
      id ∈ held ∨ id ∈ answers := by
  induction answers generalizing held with
  | nil => simp
  | cons first rest ih =>
    rw [List.foldl_cons, ih]
    split
    · rename_i hheld
      rw [List.contains_eq_mem, decide_eq_true_eq] at hheld
      rw [List.mem_cons]
      constructor
      · rintro (h | h)
        · exact Or.inl h
        · exact Or.inr (Or.inr h)
      · rintro (h | rfl | h)
        · exact Or.inl h
        · exact Or.inl hheld
        · exact Or.inr h
    · rw [List.mem_append, List.mem_singleton, List.mem_cons, or_assoc]

theorem correctedRecord_reopened (record : ObjectRecord) (at_ : Timestamp) (actor : Actor)
    (plan : CorrectionPlan) :
    record.reopenedFromAnswers ⊆ (correctedRecord record at_ actor plan).reopenedFromAnswers := by
  unfold correctedRecord
  dsimp only
  split
  · exact fun id hid => (mem_keepAnswers _ _ id).mpr (Or.inl hid)
  · exact List.Subset.refl _

theorem Planned.carried (h : Planned state correction at_ record plan) :
    SameEnvelope plan.object record.object ∧
      (plan.object.type = record.object.type ∨
        retypeStructuralRefusal state record.object plan.object.type = none) := by
  cases h with
  | retracted haction hlive => exact ⟨⟨rfl, rfl, rfl, rfl, rfl⟩, Or.inl rfl⟩
  | restored haction hgone => exact ⟨⟨rfl, rfl, rfl, rfl, rfl⟩, Or.inl rfl⟩
  | @retyped haction hlive toType payload hto hother hstructure hparse =>
    refine ⟨⟨rfl, rfl, rfl, rfl, rfl⟩, Or.inr ?_⟩
    have htype : payload.type = toType := parsePayload_type hparse
    unfold AcceptedObject.type
    rw [htype]
    exact hstructure
  | @reopenedQuestion haction hlive payload hpayload hanswered answers hanswers =>
    refine ⟨⟨rfl, rfl, rfl, rfl, rfl⟩, Or.inl ?_⟩
    unfold AcceptedObject.type
    rw [hpayload]
    rfl
  | @reopenedCommitment haction hlive payload hpayload =>
    refine ⟨⟨rfl, rfl, rfl, rfl, rfl⟩, Or.inl ?_⟩
    unfold AcceptedObject.type
    rw [hpayload]
    rfl
  | @edited haction hlive hfields after hparse hchanged =>
    refine ⟨⟨rfl, rfl, rfl, rfl, rfl⟩, Or.inl ?_⟩
    exact parsePayload_type hparse

theorem commitPlan_carriedOver {committed : CorrectionPlan} (eventId : Id)
    (hown : state.object? correction.objectId = some record)
    (hplan : planCorrection state correction at_ record = .ok (.plan plan))
    (hcheck : checkPlan state correction record actor plan = .ok committed) :
    CarriedOver state (commitPlan state eventId correction at_ record actor committed) := by
  obtain rfl := checkPlan_ok hcheck
  obtain ⟨henvelope, htype⟩ := (planCorrection_planned hplan).carried
  obtain ⟨hlapsed, -, -⟩ := lapseVerification_envelope record.object plan
  -- What the correction makes of its own object, before the pointers move.
  have hcorrected : Carried record (correctedRecord record at_ actor
      (lapseVerification record.object plan)) :=
    ⟨⟨hlapsed.1.trans henvelope.1, hlapsed.2.1.trans henvelope.2.1,
      hlapsed.2.2.1.trans henvelope.2.2.1, hlapsed.2.2.2.1.trans henvelope.2.2.2.1,
      hlapsed.2.2.2.2.trans henvelope.2.2.2.2⟩, correctedRecord_reopened _ _ _ _⟩
  have hkind : (correctedRecord record at_ actor
      (lapseVerification record.object plan)).object.type = plan.object.type :=
    lapseVerification_type record.object plan
  refine CarriedOver.of_records ?_ ?_
  · intro id hnone
    have hrel := commitPlan_object? eventId at_ actor (lapseVerification record.object plan) hown id
    have hne : id ≠ correction.objectId := by
      rintro rfl
      rw [hown] at hnone
      cases hnone
    rw [if_neg hne, hnone] at hrel
    cases hafter : (commitPlan state eventId correction at_ record actor
        (lapseVerification record.object plan)).object? id with
    | none => rfl
    | some after =>
      rw [hafter] at hrel
      cases hrel
  · intro id before hbefore
    have hrel := commitPlan_object? eventId at_ actor (lapseVerification record.object plan) hown id
    by_cases hid : id = correction.objectId
    · rw [hid, hown] at hbefore
      cases hbefore
      rw [if_pos hid] at hrel
      obtain ⟨after, hafter, hrepointed⟩ := exists_of_rel hrel
      obtain ⟨hcarried, hsame, -⟩ := hrepointed.carried
      refine ⟨after, hafter, hcorrected.trans hcarried, ?_⟩
      rw [hsame, hkind]
      exact htype
    · rw [if_neg hid, hbefore] at hrel
      obtain ⟨after, hafter, hrepointed⟩ := exists_of_rel hrel
      obtain ⟨hcarried, hsame, -⟩ := hrepointed.carried
      exact ⟨after, hafter, hcarried, Or.inl hsame⟩

end Corrections

/-! ## Edges -/

section Relations

variable {state : CoreState} {relation : Relation} {actor : Actor} {ends : Endpoints}
  {at_ : Timestamp}

theorem CarriedOver.setObject {added : CoreState} {id : Id} {before after : ObjectRecord}
    (hadded : added.objects = state.objects) (hheld : state.object? id = some before)
    (hcarried : Carried before after) (htype : after.object.type = before.object.type) :
    CarriedOver state (added.setObject id after) := by
  have hobject : ∀ other, (added.setObject id after).object? other =
      if other = id then some after else state.object? other := by
    intro other
    rw [object?_setObject (object?_ne_proto hheld)]
    unfold CoreState.object?
    rw [hadded]
  refine CarriedOver.of_records ?_ ?_
  · intro other hnone
    rw [hobject, if_neg]
    · exact hnone
    · rintro rfl
      rw [hheld] at hnone
      cases hnone
  · intro other held hother
    rw [hobject]
    by_cases hid : other = id
    · rw [hid, hheld] at hother
      cases hother
      exact ⟨after, if_pos hid, hcarried, Or.inl htype⟩
    · exact ⟨held, by rw [if_neg hid, hother], Carried.refl held, Or.inl rfl⟩

theorem commitRelation_carriedOver (at_ : Timestamp)
    (hcheck : checkRelation state relation actor = .ok ends) :
    CarriedOver state (commitRelation state at_ relation ends) := by
  rcases commitRelation_cases at_ hcheck with ⟨targetId, target, -, -, htarget, -, heq⟩ |
    ⟨payload, -, hsource, hpayload, -, -, -, heq⟩ | ⟨-, -, heq⟩
  · rw [heq]
    obtain ⟨hcarried, htype, -⟩ :=
      Repointed.carried (Or.inr ⟨some relation.fromObjectId, at_, rfl⟩ :
        Repointed target (setSuperseded target (some relation.fromObjectId) at_))
    exact CarriedOver.setObject rfl htarget hcarried htype
  · rw [heq]
    refine CarriedOver.setObject rfl hsource ⟨⟨rfl, rfl, rfl, rfl, rfl⟩, List.Subset.refl _⟩ ?_
    unfold AcceptedObject.type
    rw [hpayload]
    rfl
  · rw [heq]
    exact CarriedOver.of_objects rfl

def TypesKept (state next : CoreState) : Prop :=
  ∀ id before after, state.object? id = some before → next.object? id = some after →
    after.object.type = before.object.type

theorem TypesKept.setObject {added : CoreState} {id : Id} {before after : ObjectRecord}
    (hadded : added.objects = state.objects) (hheld : state.object? id = some before)
    (htype : after.object.type = before.object.type) :
    TypesKept state (added.setObject id after) := by
  intro other first second hfirst hsecond
  rw [object?_setObject (object?_ne_proto hheld)] at hsecond
  split at hsecond
  · rename_i hid
    rw [hid, hheld] at hfirst
    cases hfirst
    cases hsecond
    exact htype
  · unfold CoreState.object? at hfirst hsecond
    rw [hadded, hfirst] at hsecond
    cases hsecond
    rfl

theorem commitRelation_typesKept (at_ : Timestamp)
    (hcheck : checkRelation state relation actor = .ok ends) :
    TypesKept state (commitRelation state at_ relation ends) := by
  rcases commitRelation_cases at_ hcheck with ⟨targetId, target, -, -, htarget, -, heq⟩ |
    ⟨payload, -, hsource, hpayload, -, -, -, heq⟩ | ⟨-, -, heq⟩
  · rw [heq]
    obtain ⟨-, htype, -⟩ :=
      Repointed.carried (Or.inr ⟨some relation.fromObjectId, at_, rfl⟩ :
        Repointed target (setSuperseded target (some relation.fromObjectId) at_))
    exact TypesKept.setObject rfl htarget htype
  · rw [heq]
    refine TypesKept.setObject rfl hsource ?_
    unfold AcceptedObject.type
    rw [hpayload]
    rfl
  · rw [heq]
    intro id before after hbefore hafter
    have hsame : state.object? id = some after := hafter
    rw [hbefore] at hsame
    cases hsame
    rfl

theorem AnswersQuestion.typesKept {next : CoreState} (h : AnswersQuestion state relation)
    (hover : CarriedOver state next) (htypes : TypesKept state next) :
    AnswersQuestion next relation := by
  obtain ⟨targetId, source, target, htarget, hsource, hheld, hquestion, hanswer⟩ := h
  obtain ⟨source', hsource', -⟩ := hover.forth _ source hsource
  obtain ⟨target', htarget', -⟩ := hover.forth _ target hheld
  refine ⟨targetId, source', target', htarget, hsource', htarget', ?_, ?_⟩
  · rw [htypes _ source source' hsource hsource', hquestion]
  · rw [htypes _ target target' hheld htarget']
    exact hanswer

theorem checkRelation_joins (hcheck : checkRelation state relation actor = .ok ends)
    (hstructural : relation.kind.structural = true) : JoinsRoom state relation := by
  obtain ⟨-, hshape, hends, -⟩ := checkRelation_ok hcheck
  obtain ⟨hsource, hsourceRoom, htarget⟩ := relationEndpoints_ok hends
  obtain ⟨targetId, hobject, -⟩ := (relationShapeError_none hshape).1 hstructural
  rcases htarget with ⟨hnone, -⟩ | ⟨objectId, target, hsome, -, hget, htargetRoom⟩
  · rw [hnone] at hobject
    cases hobject
  · exact ⟨objectId, ends.source, target, hsome, PlainObject.get_eq_own.mp hsource,
      PlainObject.get_eq_own.mp hget, hsourceRoom, htargetRoom⟩

theorem checkRelation_answers (hcheck : checkRelation state relation actor = .ok ends)
    (hanswers : relation.kind = .answers) : AnswersQuestion state relation := by
  obtain ⟨-, hshape, hends, hkind⟩ := checkRelation_ok hcheck
  obtain ⟨hsource, -, htarget⟩ := relationEndpoints_ok hends
  obtain ⟨targetId, hobject, -⟩ :=
    (relationShapeError_none hshape).1 (by rw [hanswers]; rfl)
  simp only [checkKind, hanswers] at hkind
  obtain ⟨-, -, ⟨payload, hpayload, -⟩, htypes⟩ := checkAnswers_ok hkind
  rcases htarget with ⟨hnone, -⟩ | ⟨objectId, target, hsome, hends', hget, -⟩
  · rw [hnone] at hobject
    cases hobject
  · refine ⟨objectId, ends.source, target, hsome, PlainObject.get_eq_own.mp hsource,
      PlainObject.get_eq_own.mp hget, ?_, ?_⟩
    · unfold AcceptedObject.type
      rw [hpayload]
      rfl
    · refine htypes target ?_
      rw [hends']
      rfl

end Relations

/-! ## Acceptances -/

section Acceptances

variable {state next : CoreState}

def Kept (state next : CoreState) : Prop :=
  ∀ id record, state.object? id = some record → next.object? id = some record

theorem JoinsRoom.kept {relation : Relation} (h : JoinsRoom state relation)
    (hkept : Kept state next) : JoinsRoom next relation := by
  obtain ⟨targetId, source, target, htarget, hsource, hheld, hrooms⟩ := h
  exact ⟨targetId, source, target, htarget, hkept _ _ hsource, hkept _ _ hheld, hrooms⟩

theorem AnswersQuestion.kept {relation : Relation} (h : AnswersQuestion state relation)
    (hkept : Kept state next) : AnswersQuestion next relation := by
  obtain ⟨targetId, source, target, htarget, hsource, hheld, htypes⟩ := h
  exact ⟨targetId, source, target, htarget, hkept _ _ hsource, hkept _ _ hheld, htypes⟩

theorem Integrity.live_kept (h : Integrity state) (hkept : Kept state next)
    (hrelations : next.relations = state.relations) {relation : Relation}
    (hlive : relation ∈ liveAnswers next) : relation ∈ liveAnswers state := by
  unfold liveAnswers at hlive ⊢
  rw [hrelations] at hlive
  obtain ⟨hmem, hlive⟩ := List.mem_filter.mp hlive
  refine List.mem_filter.mpr ⟨hmem, ?_⟩
  have hkind : relation.kind = .answers := by
    rw [Bool.and_eq_true, beq_iff_eq] at hlive
    exact hlive.1
  obtain ⟨-, source, -, -, hsource, -⟩ := h.structural relation hmem (by rw [hkind]; rfl)
  rw [hkept _ _ hsource] at hlive
  rw [hsource]
  exact hlive

theorem Integrity.filing_fresh (h : Integrity state) {id : Id} (hfree : state.object? id = none)
    {filed : Option Id} (hfiled : ∀ objectiveId, filed = some objectiveId → objectiveId ≠ id) :
    Acyclic (Function.update (objectivePointer state) id filed) := by
  refine acyclic_update h.filing ?_
  intro objectiveId hobjective hlead
  rcases Relation.ReflTransGen.cases_tail hlead with hself | ⟨last, -, hedge⟩
  · exact hfiled objectiveId hobjective hself.symm
  · unfold Edge objectivePointer at hedge
    obtain ⟨record, hrecord, hpoints⟩ := Option.bind_eq_some_iff.mp hedge
    obtain ⟨objective, hheld, -⟩ := h.objectives last record id hrecord hpoints
    rw [hfree] at hheld
    cases hheld

/-- Writing one proposal keeps the replacements when its room stays and its own replacement fits. -/
theorem Integrity.replacements_written (h : Integrity state) {proposalId : Id}
    {written : ProposalRecord}
    (hset : ∀ id, next.proposal? id =
      if id = proposalId then some written else state.proposal? id)
    (hroom : ∀ record, state.proposal? proposalId = some record →
      written.proposal.roomId = record.proposal.roomId)
    (hpoints : ∀ byId, written.supersededByProposalId = some byId → ∃ replacement,
      state.proposal? byId = some replacement ∧
      replacement.proposal.roomId = written.proposal.roomId) :
    ∀ id record byId, next.proposal? id = some record →
      record.supersededByProposalId = some byId → ∃ replacement,
        next.proposal? byId = some replacement ∧
        replacement.proposal.roomId = record.proposal.roomId := by
  intro id record byId hrecord hby
  have hbefore : ∃ replacement, state.proposal? byId = some replacement ∧
      replacement.proposal.roomId = record.proposal.roomId := by
    rw [hset] at hrecord
    split at hrecord
    · cases hrecord
      exact hpoints byId hby
    · exact h.replacements id record byId hrecord hby
  obtain ⟨replacement, hheld, hsame⟩ := hbefore
  rw [hset]
  by_cases hself : byId = proposalId
  · rw [hself] at hheld
    exact ⟨written, if_pos hself, (hroom replacement hheld).trans hsame⟩
  · exact ⟨replacement, (if_neg hself).trans hheld, hsame⟩

variable {object : AcceptedObject} {actor : Actor} {messages : Option (List ProvenanceMessage)}
  {proposal : Option ProposalRecord}

theorem commitAcceptance_kept (at_ : Timestamp) (hfree : state.objects.get object.id = .absent) :
    Kept state (commitAcceptance state at_ object actor proposal) := by
  intro id record hrecord
  rw [commitAcceptance_object? hfree, if_neg]
  · exact hrecord
  · rintro rfl
    have hnone : state.object? object.id = none := (PlainObject.get_eq_absent.mp hfree).1
    rw [hnone] at hrecord
    cases hrecord

/-- An acceptance adds one object, which nothing names yet, and settles one proposal. -/
theorem Integrity.accepted [Unicode] (h : Integrity state) (at_ : Timestamp)
    (hfree : state.objects.get object.id = .absent)
    (hcheck : checkAcceptance state object actor messages = .ok proposal) :
    Integrity (commitAcceptance state at_ object actor proposal) := by
  have hkept : Kept state (commitAcceptance state at_ object actor proposal) :=
    commitAcceptance_kept at_ hfree
  have hrelations : (commitAcceptance state at_ object actor proposal).relations =
      state.relations := commitAcceptance_relations
  have hnone : state.object? object.id = none := (PlainObject.get_eq_absent.mp hfree).1
  obtain ⟨-, -, -, -, hobjective⟩ := checkAcceptance_gates hcheck
  refine ⟨?_, ?_, ?_, ?_, ?_, ?_, ?_⟩
  · intro id record objectiveId hrecord hfiled
    rw [commitAcceptance_object? hfree] at hrecord
    have hbefore : ∃ objective, state.object? objectiveId = some objective ∧
        objective.object.type = .objective ∧ objective.object.roomId = record.object.roomId := by
      split at hrecord
      · cases hrecord
        exact checkObjective_ok hobjective hfiled
      · exact h.objectives id record objectiveId hrecord hfiled
    obtain ⟨objective, hheld, htype, hroom⟩ := hbefore
    exact ⟨objective, hkept _ _ hheld, htype, hroom⟩
  · have hpointer : objectivePointer (commitAcceptance state at_ object actor proposal) =
        Function.update (objectivePointer state) object.id object.objectiveId := by
      funext id
      unfold objectivePointer
      rw [commitAcceptance_object? hfree]
      by_cases hid : id = object.id
      · rw [if_pos hid, hid, Function.update_self]
        rfl
      · rw [if_neg hid, Function.update_of_ne hid]
    rw [hpointer]
    refine h.filing_fresh hnone ?_
    rintro objectiveId hfiled rfl
    obtain ⟨objective, hheld, -⟩ := checkObjective_ok hobjective hfiled
    rw [hnone] at hheld
    cases hheld
  · rw [hrelations]
    exact h.relationIds
  · rw [hrelations]
    exact fun relation hmem hkind => (h.structural relation hmem hkind).kept hkept
  · rw [hrelations]
    exact h.evidence
  · intro relation hlive
    exact (h.answers relation (h.live_kept hkept hrelations hlive)).kept hkept
  · rcases commitAcceptance_proposal? at_ hcheck with
      ⟨-, -, hsame⟩ | ⟨proposalId, record, -, -, hchecked, hset⟩
    · intro id record byId
      rw [hsame, hsame]
      exact h.replacements id record byId
    · obtain ⟨hown, -⟩ := checkCitedProposal_ok hchecked
      have hheld : state.proposal? proposalId = some record := PlainObject.get_eq_own.mp hown
      refine h.replacements_written hset ?_ ?_
      · intro held hsame
        rw [hheld] at hsame
        cases hsame
        rfl
      · exact fun byId hby => h.replacements proposalId record byId hheld hby

end Acceptances

/-! ## Whole runs -/

section Runs

variable {state next : CoreState}

theorem CarriedOver.keyed (h : CarriedOver state next) (hk : Keyed state) : Keyed next := by
  intro id after hafter
  obtain ⟨before, hbefore, ⟨hid, -⟩, -⟩ := h.back id after hafter
  exact hid.trans (hk id before hbefore)

/-- Writing a proposal leaves everything else of the integrity alone. -/
theorem Integrity.setProposal (h : Integrity state) (hobjects : next.objects = state.objects)
    (hrelations : next.relations = state.relations)
    (hreplacements : ∀ id record byId, next.proposal? id = some record →
      record.supersededByProposalId = some byId → ∃ replacement,
        next.proposal? byId = some replacement ∧
        replacement.proposal.roomId = record.proposal.roomId) : Integrity next := by
  have hobject : next.object? = state.object? := by
    funext id
    unfold CoreState.object?
    rw [hobjects]
  have hkept : Kept state next := by
    intro id record hrecord
    rw [hobject]
    exact hrecord
  refine ⟨?_, ?_, ?_, ?_, ?_, ?_, hreplacements⟩
  · rw [hobject]
    exact h.objectives
  · unfold objectivePointer
    rw [hobject]
    exact h.filing
  · rw [hrelations]
    exact h.relationIds
  · rw [hrelations]
    exact fun relation hmem hkind => (h.structural relation hmem hkind).kept hkept
  · rw [hrelations]
    exact h.evidence
  · intro relation hlive
    exact (h.answers relation (h.live_kept hkept hrelations hlive)).kept hkept

theorem Integrity.sameFacts (h : Integrity state) (hsame : SameFacts next state) :
    Integrity next := by
  obtain ⟨hobjects, hrelations, hproposals, -⟩ := hsame
  refine h.setProposal hobjects hrelations ?_
  unfold CoreState.proposal?
  rw [hproposals]
  exact h.replacements

theorem integrity_empty : Integrity emptyState := by
  refine ⟨?_, ?_, List.nodup_nil, ?_, ?_, ?_, ?_⟩
  · rintro id record objectiveId ⟨⟩
  · exact acyclic_none
  · rintro relation ⟨⟩
  · rintro relation ⟨⟩
  · rintro relation ⟨⟩
  · rintro id record byId ⟨⟩

variable [Unicode] {entry : AuthoredEvent}

theorem Applied.keyed (h : Applied state entry next) (hk : Keyed state) : Keyed next := by
  cases h with
  | recorded hbody hfree hnoted => exact hk.congr hnoted.1
  | rejected hbody hown hmatch hopen => exact hk
  | superseded hbody hown hmatch hopen hreplacement => exact hk
  | @accepted object proposal hbody hfree hcheck =>
    intro id record hrecord
    rw [commitAcceptance_object? hfree] at hrecord
    split at hrecord
    · rename_i hid
      cases hrecord
      exact hid.symm
    · exact hk id record hrecord
  | unchanged hbody hhuman => exact hk
  | corrected hbody hhuman hown hplan hcheck =>
    exact (commitPlan_carriedOver entry.event.id hown hplan hcheck).keyed hk
  | related hbody hcheck => exact (commitRelation_carriedOver entry.event.at_ hcheck).keyed hk

theorem Applied.integrity (h : Applied state entry next) (hk : Keyed state)
    (hintegrity : Integrity state) : Integrity next := by
  cases h with
  | @recorded proposal noted hbody hfree hnoted =>
    have hnoted' := hintegrity.sameFacts hnoted
    refine hnoted'.setProposal rfl rfl (hnoted'.replacements_written
      (proposal?_setProposal (PlainObject.ne_proto_of_absent hfree) _) ?_ ?_)
    · intro record hheld
      have hnone : noted.proposal? proposal.stored.id = none := by
        unfold CoreState.proposal?
        rw [hnoted.2.2.1]
        exact (PlainObject.get_eq_absent.mp hfree).1
      rw [hnone] at hheld
      cases hheld
    · rintro byId ⟨⟩
  | @rejected proposalId reason record hbody hown hmatch hopen =>
    refine hintegrity.setProposal rfl rfl (hintegrity.replacements_written
      (proposal?_setProposal (proposal?_ne_proto hown) _) ?_ ?_)
    · intro held hheld
      rw [hown] at hheld
      cases hheld
      rfl
    · exact fun byId hby => hintegrity.replacements proposalId record byId hown hby
  | @superseded proposalId byId reason record hbody hown hmatch hopen hreplacement =>
    refine hintegrity.setProposal rfl rfl (hintegrity.replacements_written
      (proposal?_setProposal (proposal?_ne_proto hown) _) ?_ ?_)
    · intro held hheld
      rw [hown] at hheld
      cases hheld
      rfl
    · rintro replacementId rfl
      obtain ⟨-, replacement, hget, hroom⟩ := checkReplacement_ok hreplacement
      exact ⟨replacement, PlainObject.get_eq_own.mp hget, hroom⟩
  | accepted hbody hfree hcheck => exact hintegrity.accepted entry.event.at_ hfree hcheck
  | unchanged hbody hhuman => exact hintegrity.sameFacts ⟨rfl, rfl, rfl, rfl⟩
  | corrected hbody hhuman hown hplan hcheck =>
    refine hintegrity.carried hk (commitPlan_carriedOver entry.event.id hown hplan hcheck) []
      ?_ ?_ commitPlan_proposals ?_ ?_ ?_
    · rw [commitPlan_relations, List.append_nil]
    · rw [commitPlan_relations]
      exact hintegrity.relationIds
    · rintro relation ⟨⟩
    · rintro relation ⟨⟩
    · rintro relation ⟨⟩
  | @related relation ends hbody hcheck =>
    obtain ⟨hfresh, hshape, -⟩ := checkRelation_ok hcheck
    have hover := commitRelation_carriedOver entry.event.at_ hcheck
    refine hintegrity.carried hk hover [relation] commitRelation_relations ?_
      commitRelation_proposals ?_ ?_ ?_
    · rw [commitRelation_relations, List.map_append, List.nodup_append]
      refine ⟨hintegrity.relationIds, List.nodup_singleton _, ?_⟩
      intro id hid other hother
      obtain ⟨existing, hmem, rfl⟩ := List.mem_map.mp hid
      obtain rfl : other = relation.id := by simpa using hother
      exact hfresh existing hmem
    · intro new hnew hkind
      obtain rfl : new = relation := by simpa using hnew
      exact checkRelation_joins hcheck hkind
    · intro new hnew hkind
      obtain rfl : new = relation := by simpa using hnew
      exact (relationShapeError_none hshape).2 hkind
    · intro new hnew hkind
      obtain rfl : new = relation := by simpa using hnew
      exact (checkRelation_answers hcheck hkind).typesKept hover
        (commitRelation_typesKept entry.event.at_ hcheck)

theorem Reached.keyed_integrity {allowed : CoreState → AuthoredEvent → Prop}
    (h : Reached allowed state) : Keyed state ∧ Integrity state := by
  refine h.invariant (fun state => Keyed state ∧ Integrity state) ?_ ?_ ?_
  · refine ⟨?_, integrity_empty⟩
    rintro id record ⟨⟩
  · rintro a b hsame ⟨hk, hintegrity⟩
    exact ⟨hk.congr hsame.1, hintegrity.sameFacts hsame⟩
  · rintro state next entry ⟨hk, hintegrity⟩ - hdispatch
    have happlied := dispatch_applied hdispatch
    exact ⟨happlied.keyed hk, happlied.integrity hk hintegrity⟩

/-- In every state a run reaches, whatever names another record names one that is there and fits. -/
theorem reached_integrity (h : Reached anyEvent state) : Integrity state :=
  h.keyed_integrity.2

end Runs

/-! ## An answered question of an objective -/

section Answered

def filedObject (id : Id) (objectiveId : Option Id) (payload : Payload) : AcceptedObject where
  id := id
  roomId := "room"
  objectiveId := objectiveId
  provenance := emptyProvenance
  createdAt := "2026-01-01T00:00:00.000Z"
  updatedAt := "2026-01-01T00:00:00.000Z"
  payload := payload

/-- A decision and a question of one objective, and the decision answers the question. -/
def answeredLog : List AuthoredEvent :=
  [humanEvent "e1" "2026-01-01T00:00:01.000Z" (.objectAccepted
      (filedObject "o" none (.objective ⟨"Ship the exporter", .open⟩))),
    humanEvent "e2" "2026-01-01T00:00:02.000Z" (.objectAccepted
      (filedObject "d" (some "o") (.decision ⟨"Ship on Friday", none, .active⟩))),
    humanEvent "e3" "2026-01-01T00:00:03.000Z" (.objectAccepted
      (filedObject "q" (some "o") (.openQuestion ⟨"When do we ship?", .open⟩))),
    humanEvent "e4" "2026-01-01T00:00:04.000Z" (.relationAdded
      { supersedesEdge "r" "q" "d" with kind := .answers })]

theorem answeredLog_integrity :
    (liveAnswers (@offerAll Unicode.ascii answeredLog)).map Relation.id = ["r"] ∧
      objectivePointer (@offerAll Unicode.ascii answeredLog) "q" = some "o" ∧
      Integrity (@offerAll Unicode.ascii answeredLog) := by
  let _ : Unicode := Unicode.ascii
  exact ⟨by decide +kernel, by decide +kernel,
    reached_integrity (reached_offerAll fun _ _ _ => trivial)⟩

end Answered

end Core
