import AtriumVerified.Core.Proofs.AuthorityProofs
import AtriumVerified.Core.Proofs.HistoryProofs

/-!
# Whom an object names over a run

Only a `reattribute` moves an object from one person to another: an `amend` may not touch the field, and
a `retype` carries the person over. But a retype to a type without such a field drops the person, and
a later retype may put any other one on, without a `reattribute` in the log.
-/

namespace Core

open Checked Js

/-! ## The attribution field through the schema -/

section Fields

variable {type toType : AcceptedObjectType} {fields : List (String × Json)} {payload : Payload}

theorem string_eq_ok {checks : List (String → Option String)} {value : Option Json} {text : String}
    (h : Schema.string checks value = .ok text) : value = some (.string text) := by
  unfold Schema.string at h
  split at h
  · split at h
    · cases h
      rfl
    · cases h
  · cases h

def textOf : Option Json → Option String
  | some (.string text) => some text
  | _ => none

theorem nullableId_eq_ok {value : Option Json} {userId : Option Id}
    (h : Schema.withDefault none (Schema.nullable idSchema) value = .ok userId) :
    userId = textOf value := by
  unfold Schema.withDefault at h
  split at h
  · cases h
    rfl
  · unfold Schema.nullable at h
    split at h
    · cases h
      rfl
    · cases hid : idSchema value with
      | error issues =>
        rw [hid] at h
        cases h
      | ok text =>
        rw [hid] at h
        cases h
        rw [string_eq_ok hid]
        rfl

theorem parsePayload_attribution (h : parsePayload type fields = .ok payload) :
    payload.attribution = (attributionField type).bind fun field => textOf (lookupField fields field) := by
  unfold parsePayload at h
  cases type with
  | decision =>
    obtain ⟨f, status, hf, -, rfl⟩ := Schema.both_eq_ok.mp h
    obtain ⟨statement, userId, -, huser, rfl⟩ := Schema.both_eq_ok.mp hf
    exact nullableId_eq_ok (Schema.field_eq_ok.mp huser)
  | commitment =>
    obtain ⟨f, status, hf, -, rfl⟩ := Schema.both_eq_ok.mp h
    obtain ⟨g, due, hg, -, rfl⟩ := Schema.both_eq_ok.mp hf
    obtain ⟨statement, owner, -, howner, rfl⟩ := Schema.both_eq_ok.mp hg
    have hread := string_eq_ok (Schema.field_eq_ok.mp howner)
    simp only [Payload.attribution, attributionField, Option.bind_some, hread, textOf]
  | openQuestion =>
    obtain ⟨question, status, -, -, rfl⟩ := Schema.both_eq_ok.mp h
    rfl
  | claim =>
    obtain ⟨f, verification, hf, -, rfl⟩ := Schema.both_eq_ok.mp h
    obtain ⟨statement, claimant, -, hclaimant, rfl⟩ := Schema.both_eq_ok.mp hf
    have hread := string_eq_ok (Schema.field_eq_ok.mp hclaimant)
    simp only [Payload.attribution, attributionField, Option.bind_some, hread, textOf]
  | objective =>
    obtain ⟨title, status, -, -, rfl⟩ := Schema.both_eq_ok.mp h
    rfl

theorem fields_attribution (payload : Payload) :
    ((attributionField payload.type).bind fun field => textOf (lookupField payload.fields field)) =
      payload.attribution := by
  cases payload with
  | decision p => cases hdecided : p.decidedBy <;> simp [Payload.type, attributionField,
      Payload.fields, lookupField, hdecided, optionalString, textOf, Payload.attribution]
  | commitment p => rfl
  | openQuestion p => rfl
  | claim p => rfl
  | objective p => rfl

theorem carryOver_attribution {field : String} (h : attributionField toType = some field)
    (payload : Payload) :
    lookupField (retypeCarryOver payload toType) field =
      (carriedPerson payload toType).map Json.string := by
  unfold retypeCarryOver
  rw [h]
  cases hcarried : carriedPerson payload toType with
  | none => cases toType <;> cases h <;> rfl
  | some userId => cases toType <;> cases h <;> rfl

theorem carriedPerson_eq {field : String} (h : attributionField toType = some field)
    (payload : Payload) : carriedPerson payload toType = namedPerson payload := by
  unfold carriedPerson
  rw [h]
  rfl

end Fields

/-! ## One correction -/

section Verbs

variable {state : CoreState} {correction : ObjectCorrected} {at_ : Timestamp}
  {record : ObjectRecord} {plan : CorrectionPlan}

theorem mem_payloadAttributions {payload : Payload} {userId : Id} :
    userId ∈ payloadAttributions payload ↔ namedPerson payload = some userId := by
  unfold payloadAttributions namedPerson
  exact Option.mem_toList

theorem amend_attribution {after : Payload} (haction : correction.action = .amend)
    (hfields : checkEditedFields correction record.object = .ok ())
    (hparse : applyPayloadPatch record.object correction.patch = .ok after) :
    after.attribution = record.object.payload.attribution := by
  unfold applyPayloadPatch at hparse
  rw [parsePayload_attribution hparse, ← fields_attribution record.object.payload]
  cases hfield : attributionField record.object.type with
  | none =>
    have hfield' : attributionField record.object.payload.type = none := hfield
    rw [hfield']
    rfl
  | some field =>
    have hfield' : attributionField record.object.payload.type = some field := hfield
    have huntouched : lookupField correction.patch field = none := by
      unfold checkEditedFields at hfields
      simp only [haction, reduceCtorEq, if_false, hfield, refuseIf_eq_ok] at hfields
      have hnot : field ∉ (correction.patch.map Prod.fst).dedup := by simpa using hfields
      exact lookupField_eq_none.mpr fun hmem => hnot (List.mem_dedup.mpr hmem)
    rw [hfield', Option.bind_some, Option.bind_some, lookupField_append, huntouched, Option.none_or]

theorem retype_planned (haction : correction.action = .retype)
    (h : planCorrection state correction at_ record = .ok (.plan plan)) :
    ∃ toType, correction.toType = some toType ∧
      checkCarriedPerson correction record.object.payload toType = .ok () ∧
      parsePayload toType (retypeCarryOver record.object.payload toType ++ correction.patch) =
        .ok plan.object.payload ∧
      plan.before = .typed record.object.type record.object.payload := by
  simp only [planCorrection, haction, bind_eq_ok, checkLive_ok, exists_const] at h
  obtain ⟨-, h⟩ := h
  unfold planRetype at h
  split at h
  · simp at h
  · rename_i toType hto
    simp only [bind_eq_ok, refuseIf_eq_ok, refuseWith_eq_ok, exists_const] at h
    obtain ⟨-, -, ⟨⟩, hperson, h⟩ := h
    split at h
    · simp at h
    · rename_i payload hparse
      simp only [pure, Except.pure, Except.ok.injEq, CorrectionOutcome.plan.injEq] at h
      rw [← h]
      exact ⟨toType, hto, hperson, hparse, rfl⟩

/-- A retype of an object that names somebody names the same person or nobody. -/
theorem retype_keeps_person {held : Id} (haction : correction.action = .retype)
    (h : planCorrection state correction at_ record = .ok (.plan plan))
    (hheld : namedPerson record.object.payload = some held) :
    namedPerson plan.object.payload = some held ∨ namedPerson plan.object.payload = none := by
  obtain ⟨toType, -, hperson, hparse, -⟩ := retype_planned haction h
  have hread := parsePayload_attribution hparse
  cases hfield : attributionField toType with
  | none =>
    rw [hfield] at hread
    refine Or.inr ?_
    unfold namedPerson
    rw [hread]
    rfl
  | some field =>
    have hcarried := (carriedPerson_eq hfield record.object.payload).trans hheld
    have hcarry := carryOver_attribution hfield record.object.payload
    rw [hcarried] at hcarry
    rw [hfield, Option.bind_some, lookupField_append, hcarry] at hread
    have hattribution : plan.object.payload.attribution = some held := by
      unfold checkCarriedPerson at hperson
      simp only [hfield, hcarried] at hperson
      cases hpatch : lookupField correction.patch field with
      | none =>
        rw [hread, hpatch]
        rfl
      | some value =>
        rw [hpatch] at hperson
        split at hperson
        · next heq => cases heq
        · next proposed heq =>
          cases heq
          rw [hread, hpatch, bne_eq_false_iff_eq.mp (refuseIf_eq_ok.mp hperson)]
          rfl
        · -- Another value is refused, or has no text to be refused with.
          split at hperson
          · cases hperson
          · cases hperson
    refine Or.inl ?_
    unfold namedPerson at hheld ⊢
    rw [hattribution]
    exact Option.filter_eq_some_iff.mpr ⟨rfl, (Option.filter_eq_some_iff.mp hheld).2⟩

theorem retype_puts_person {put : Id} (haction : correction.action = .retype)
    (h : planCorrection state correction at_ record = .ok (.plan plan))
    (hnobody : namedPerson record.object.payload = none)
    (hput : namedPerson plan.object.payload = some put) : patchedPerson correction = some put := by
  obtain ⟨toType, hto, -, hparse, -⟩ := retype_planned haction h
  have hread := parsePayload_attribution hparse
  unfold namedPerson at hput
  obtain ⟨hput, -⟩ := Option.filter_eq_some_iff.mp hput
  cases hfield : attributionField toType with
  | none =>
    rw [hfield, hput] at hread
    cases hread
  | some field =>
    have hcarry := carryOver_attribution hfield record.object.payload
    rw [carriedPerson_eq hfield, hnobody] at hcarry
    rw [hfield, Option.bind_some, lookupField_append, hcarry, hput, Option.map_none,
      Option.or_none] at hread
    unfold patchedPerson
    rw [hto, Option.bind_some, hfield]
    exact hread.symm

theorem SameSentence.namedPerson {a b : AcceptedObject} (h : SameSentence a b) :
    namedPerson a.payload = namedPerson b.payload := by
  apply Option.ext
  intro userId
  rw [← mem_payloadAttributions, ← mem_payloadAttributions, h.1]

theorem planned_namedPerson (h : planCorrection state correction at_ record = .ok (.plan plan))
    (hreattribute : correction.action ≠ .reattribute) (hretype : correction.action ≠ .retype) :
    namedPerson plan.object.payload = namedPerson record.object.payload ∧
      ∀ type payload, plan.before ≠ .typed type payload := by
  have hplanned := planCorrection_planned h
  cases hplanned with
  | retracted haction hlive => exact ⟨rfl, by simp⟩
  | restored haction hgone => exact ⟨rfl, by simp⟩
  | retyped haction hlive hto hother hstructure hparse => exact absurd haction hretype
  | reopenedQuestion haction hlive hpayload hanswered hanswers =>
    refine ⟨?_, by simp⟩
    unfold namedPerson
    rw [hpayload]
    rfl
  | reopenedCommitment haction hlive hpayload =>
    refine ⟨?_, by simp⟩
    unfold namedPerson
    rw [hpayload]
    rfl
  | edited haction hlive hfields hparse hchanged =>
    rcases haction with hamend | haction
    · refine ⟨?_, by simp⟩
      unfold namedPerson
      rw [amend_attribution hamend hfields hparse]
    · exact absurd haction hreattribute

theorem lapsed_before (object : AcceptedObject) (plan : CorrectionPlan) :
    (lapseVerification object plan).before = plan.before := by
  unfold lapseVerification
  split
  · split
    · rfl
    · rfl
  · rfl

example (record : CorrectionRecord) (older : List CorrectionRecord)
    (h : record.action = .reattribute) : personBeforeRetypes (record :: older) = none := by
  simp [personBeforeRetypes, h]

theorem personBeforeRetypes_skip {record : CorrectionRecord} {older : List CorrectionRecord}
    (haction : record.action ≠ .reattribute)
    (hbefore : ∀ type payload, record.before ≠ .typed type payload) :
    personBeforeRetypes (record :: older) = personBeforeRetypes older := by
  rw [personBeforeRetypes, if_neg haction]
  cases hview : record.before with
  | typed type payload => exact absurd hview (hbefore type payload)
  | _ => rfl

end Verbs

/-! ## One event -/

section Events

variable [Unicode] {state : CoreState} {entry : AuthoredEvent} {id : Id}
  {before after : ObjectRecord} {news : List CorrectionRecord}

/-- Where the person an object named is found later: on the object, or in the retype that took it off,
unless there was a reattribution. -/
def Followed (held : Id) (payload : Payload) (older news : List CorrectionRecord) : Prop :=
  (∃ record ∈ news, record.action = .reattribute) ∨ namedPerson payload = some held ∨
    namedPerson payload = none ∧ personBeforeRetypes (older ++ news).reverse = some held

/-- An event does not lose the person, if its retype puts no other one on. -/
theorem Touched.followed {held : Id} {older : List CorrectionRecord}
    (h : Touched state entry id before after news)
    (hkeeps : ∀ correction, entry.event.body = .objectCorrected correction →
      correction.action = .retype → correction.objectId = id → ∀ put,
      personBeforeRetypes older.reverse = some held → patchedPerson correction = some put →
      put = held)
    (hheld : namedPerson before.object.payload = some held ∨
      namedPerson before.object.payload = none ∧ personBeforeRetypes older.reverse = some held) :
    Followed held after.object.payload older news := by
  cases h with
  | repointed hrepointed =>
    unfold Followed
    rw [← hrepointed.sameSentence.namedPerson, List.append_nil]
    exact Or.inr hheld
  | answered hpayload =>
    unfold Followed
    have hnobody : namedPerson before.object.payload = none := by
      unfold namedPerson
      rw [hpayload]
      rfl
    rw [hnobody] at hheld
    rw [List.append_nil]
    exact Or.inr (Or.inr ⟨rfl, by simpa using hheld⟩)
  | @corrected correction planned committed after hbody hid hhuman hplan hcheck hrepointed =>
    have hcommitted := checkPlan_ok hcheck
    have hnamed : namedPerson after.object.payload = namedPerson planned.object.payload := by
      have hlapsed := lapseVerification_sameSentence before.object planned
      rw [← hcommitted] at hlapsed
      rw [← hrepointed.sameSentence.namedPerson, hlapsed.namedPerson]
      rfl
    have hview : (correctionRecord entry.event.id correction entry.event.at_ before
        entry.trusted.actor committed).before = planned.before := by
      show committed.before = planned.before
      rw [hcommitted, lapsed_before]
    by_cases hreattribute : correction.action = .reattribute
    · exact Or.inl ⟨_, List.mem_singleton_self _, hreattribute⟩
    refine Or.inr ?_
    rw [hnamed, List.reverse_append, List.reverse_singleton, List.singleton_append]
    by_cases hretype : correction.action = .retype
    · obtain ⟨toType, -, -, -, htyped⟩ := retype_planned hretype hplan
      have hlog : personBeforeRetypes (correctionRecord entry.event.id correction entry.event.at_
          before entry.trusted.actor committed :: older.reverse) =
          (namedPerson before.object.payload).or (personBeforeRetypes older.reverse) := by
        have hother : (correctionRecord entry.event.id correction entry.event.at_ before
            entry.trusted.actor committed).action ≠ .reattribute := hreattribute
        rw [personBeforeRetypes, if_neg hother, hview, htyped]
      rw [hlog]
      rcases hheld with hperson | ⟨hnobody, hdropped⟩
      · rw [hperson, Option.some_or]
        rcases retype_keeps_person hretype hplan hperson with hsame | hgone
        · exact Or.inl hsame
        · exact Or.inr ⟨hgone, rfl⟩
      · rw [hnobody, Option.none_or]
        cases hput : namedPerson planned.object.payload with
        | none => exact Or.inr ⟨rfl, hdropped⟩
        | some put =>
          have hpatched := retype_puts_person hretype hplan hnobody hput
          rw [hkeeps correction hbody hretype hid put hdropped hpatched]
          exact Or.inl rfl
    · obtain ⟨hsame, huntyped⟩ := planned_namedPerson hplan hreattribute hretype
      rw [hsame, personBeforeRetypes_skip hreattribute (by rw [hview]; exact huntyped)]
      exact hheld

end Events

/-! ## Runs -/

section Runs

variable [Unicode] {log : List AuthoredEvent} {state next : CoreState} {entry : AuthoredEvent} {id : Id}

theorem stateAt_succ (log : List AuthoredEvent) (n : Nat) :
    stateAt log (n + 1) =
      match log[n]? with
      | some entry => offer (stateAt log n) entry
      | none => stateAt log n := by
  unfold stateAt
  rw [List.take_add_one]
  cases log[n]? with
  | none => rw [Option.toList_none, List.append_nil]
  | some entry => exact offerAll_snoc _ entry

/-- One row offered: the row is applied and what became of the record is `Touched`, or the record and
its corrections are as they were. -/
theorem offer_touched (hk : Keyed state) {before : ObjectRecord}
    (hown : state.object? id = some before) (entry : AuthoredEvent) :
    ∃ after news, (offer state entry).object? id = some after ∧
      correctionsOf (offer state entry) id = correctionsOf state id ++ news ∧
      (Applies state entry ∧ Touched state entry id before after news ∨
        after = before ∧ news = []) := by
  have hsame : ∀ {unmoved : CoreState}, SameFacts unmoved state →
      ∃ after news, unmoved.object? id = some after ∧
        correctionsOf unmoved id = correctionsOf state id ++ news ∧
        (Applies state entry ∧ Touched state entry id before after news ∨
          after = before ∧ news = []) := by
    rintro unmoved ⟨hobjects, -, -, hcorrections⟩
    refine ⟨before, [], ?_, ?_, Or.inr ⟨rfl, rfl⟩⟩
    · unfold CoreState.object?
      rw [hobjects]
      exact hown
    · rw [correctionsOf_congr hcorrections, List.append_nil]
  unfold offer
  split
  · rename_i outcome next hstep
    rcases step_facts hstep with hfacts | ⟨settled, hdispatch, hobjects, -, -, hcorrections⟩
    · exact hsame hfacts
    · obtain ⟨after, news, hafter, hlog, htouched⟩ := (dispatch_applied hdispatch).touched hk hown
      refine ⟨after, news, ?_, ?_, Or.inl ⟨⟨settled, hdispatch⟩, htouched⟩⟩
      · unfold CoreState.object? at hafter ⊢
        rw [hobjects]
        exact hafter
      · rw [correctionsOf_congr hcorrections]
        exact hlog
  · exact hsame ⟨rfl, rfl, rfl, rfl⟩

theorem offer_minted {after : ObjectRecord} (hnone : state.object? id = none)
    (hafter : (offer state entry).object? id = some after) :
    ∃ object proposal,
      checkAcceptance state object entry.trusted.actor entry.trusted.messages = .ok proposal ∧
      after = freshRecord object entry.event.at_ entry.trusted.actor := by
  have hsame : ∀ {unmoved : CoreState}, unmoved.objects = state.objects →
      unmoved.object? id ≠ some after := by
    intro unmoved hobjects
    unfold CoreState.object? at hnone ⊢
    rw [hobjects, hnone]
    rintro ⟨⟩
  unfold offer at hafter
  split at hafter
  · rename_i outcome next hstep
    rcases step_facts hstep with hfacts | ⟨settled, hdispatch, hobjects, -⟩
    · exact absurd hafter (hsame hfacts.1)
    · unfold CoreState.object? at hafter
      rw [hobjects] at hafter
      obtain ⟨object, proposal, -, -, hcheck, hfresh, -⟩ :=
        (dispatch_applied hdispatch).minted hnone hafter
      exact ⟨object, proposal, hcheck, hfresh⟩
  · exact absurd hafter (hsame rfl)

/-- Over a run whose retypes keep the person, the person is followed. -/
theorem followed_run (hsteps : ∀ n entry, log[n]? = some entry →
      RetypeKeepsPerson (stateAt log n) entry) {m : Nat} {before : ObjectRecord} {held : Id}
    (hbefore : (stateAt log m).object? id = some before)
    (hheld : namedPerson before.object.payload = some held) (k : Nat) :
    ∃ after news, (stateAt log (m + k)).object? id = some after ∧
      correctionsOf (stateAt log (m + k)) id = correctionsOf (stateAt log m) id ++ news ∧
      Followed held after.object.payload (correctionsOf (stateAt log m) id) news := by
  induction k with
  | zero => exact ⟨before, [], hbefore, by simp, Or.inr (Or.inl hheld)⟩
  | succ k ih =>
    obtain ⟨record, news, hrecord, hlog, hfollowed⟩ := ih
    rw [← Nat.add_assoc, stateAt_succ]
    cases hentry : log[m + k]? with
    | none => exact ⟨record, news, hrecord, hlog, hfollowed⟩
    | some entry =>
      have hk : Keyed (stateAt log (m + k)) := (reached_offered _).keyed_integrity.1
      obtain ⟨after, more, hafter, hlog', htouched⟩ := offer_touched hk hrecord entry
      refine ⟨after, news ++ more, hafter, ?_, ?_⟩
      · rw [← List.append_assoc, ← hlog]
        exact hlog'
      · rcases hfollowed with ⟨moved, hmem, haction⟩ | hstill
        · exact Or.inl ⟨moved, List.mem_append_left _ hmem, haction⟩
        rw [← hlog] at hstill
        have hstep : Followed held after.object.payload (correctionsOf (stateAt log (m + k)) id)
            more := by
          rcases htouched with ⟨happlies, htouched⟩ | ⟨rfl, rfl⟩
          · refine htouched.followed ?_ hstill
            rintro correction hbody haction rfl put hdropped hput
            exact hsteps _ entry hentry correction hbody haction happlies held put hdropped hput
          · unfold Followed
            rw [List.append_nil]
            exact Or.inr hstill
        rcases hstep with ⟨moved, hmem, haction⟩ | hperson | ⟨hnobody, hdropped⟩
        · exact Or.inl ⟨moved, List.mem_append_right _ hmem, haction⟩
        · exact Or.inr (Or.inl hperson)
        · rw [hlog, List.append_assoc] at hdropped
          exact Or.inr (Or.inr ⟨hnobody, hdropped⟩)

theorem stateAt_kept (log : List AuthoredEvent) {m n : Nat} (h : m ≤ n) :
    HistoryKept (stateAt log m) (stateAt log n) := by
  unfold stateAt
  obtain ⟨k, rfl⟩ := Nat.exists_eq_add_of_le h
  rw [List.take_add]
  exact offered_kept _ _

/-- A change of the named person is a reattribution, in every run whose retypes put nobody on an
object but the person an earlier retype took off it. -/
theorem renamed_by_reattribution (hsteps : ∀ n entry, log[n]? = some entry →
      RetypeKeepsPerson (stateAt log n) entry) {m n : Nat} (hmn : m ≤ n)
    {before after : ObjectRecord} {p q : Id}
    (hbefore : (stateAt log m).object? id = some before) (hp : Names before.object p)
    (hafter : (stateAt log n).object? id = some after) (hq : Names after.object q) (hpq : p ≠ q) :
    ∃ record ∈ (stateAt log n).corrections.drop (stateAt log m).corrections.length,
      record.objectId = id ∧ record.action = .reattribute := by
  obtain ⟨k, rfl⟩ := Nat.exists_eq_add_of_le hmn
  obtain ⟨found, news, hfound, hlog, hfollowed⟩ :=
    followed_run hsteps hbefore (mem_payloadAttributions.mp hp) k
  obtain rfl : found = after := Option.some.inj (hfound.symm.trans hafter)
  have hnamed := mem_payloadAttributions.mp hq
  rcases hfollowed with ⟨record, hmem, haction⟩ | hsame | ⟨hnobody, -⟩
  · obtain ⟨more, hmore⟩ := (stateAt_kept log hmn).corrections
    have hnews : news = more.filter fun record => record.objectId == id := by
      unfold correctionsOf at hlog
      rw [← hmore, List.filter_append] at hlog
      exact (List.append_cancel_left hlog).symm
    rw [hnews] at hmem
    obtain ⟨hmem, hid⟩ := List.mem_filter.mp hmem
    refine ⟨record, ?_, beq_iff_eq.mp hid, haction⟩
    rw [← hmore, List.drop_left]
    exact hmem
  · rw [hsame] at hnamed
    exact absurd (Option.some.inj hnamed) hpq
  · rw [hnobody] at hnamed
    cases hnamed

end Runs

/-! ## A commitment that changes hands -/

section Handover

def eventBy (userId id at_ : String) (body : EventBody) : AuthoredEvent :=
  ⟨⟨id, at_, body⟩, ⟨.human userId, none⟩⟩

def retypeTo (objectId : Id) (toType : AcceptedObjectType) (patch : List (String × Json)) : EventBody :=
  .objectCorrected { plainCorrection objectId .retype with toType := some toType, patch := patch }

def aliceCommits : AuthoredEvent :=
  eventBy "alice" "e1" "2026-01-01T00:00:01.000Z" (.objectAccepted
    (filedObject "o" none (.commitment ⟨"I will write the migration", "alice", none, .open⟩)))

/-- Mallory reads the commitment as a question, and then the question as a commitment of her own. -/
def takenOverLog : List AuthoredEvent :=
  [aliceCommits,
    eventBy "mallory" "e2" "2026-01-01T00:00:02.000Z" (retypeTo "o" .openQuestion []),
    eventBy "mallory" "e3" "2026-01-01T00:00:03.000Z"
      (retypeTo "o" .commitment [("owner", .string "mallory")])]

def namedAt (state : CoreState) (id : Id) : List Id :=
  ((state.object? id).map fun record => payloadAttributions record.object.payload).getD []

theorem exists_of_namedAt {state : CoreState} {id userId : Id} (h : userId ∈ namedAt state id) :
    ∃ record, state.object? id = some record ∧ Names record.object userId := by
  unfold namedAt at h
  cases hrecord : state.object? id with
  | none =>
    rw [hrecord] at h
    cases h
  | some record =>
    rw [hrecord] at h
    exact ⟨record, rfl, h⟩

/-- The commitment is Alice's in one state and Mallory's in a later one, and nothing was reattributed. -/
theorem taken_over_without_reattribution :
    let _ : Unicode := Unicode.ascii
    (∃ before, (stateAt takenOverLog 1).object? "o" = some before ∧ Names before.object "alice") ∧
      (∃ after, (stateAt takenOverLog 3).object? "o" = some after ∧ Names after.object "mallory") ∧
      ¬ ∃ record ∈ (stateAt takenOverLog 3).corrections.drop (stateAt takenOverLog 1).corrections.length,
        record.objectId = "o" ∧ record.action = .reattribute := by
  intro _
  exact ⟨exists_of_namedAt (by decide +kernel), exists_of_namedAt (by decide +kernel),
    by decide +kernel⟩

/-- Alice's commitment, read as a claim of hers, and then put on Bob by himself. -/
def handedOverLog : List AuthoredEvent :=
  [aliceCommits, eventBy "alice" "e2" "2026-01-01T00:00:02.000Z" (retypeTo "o" .claim []),
    eventBy "bob" "e3" "2026-01-01T00:00:03.000Z" (.objectCorrected
      { plainCorrection "o" .reattribute with patch := [("claimant", .string "bob")] })]

theorem handed_over_by_reattribution :
    let _ : Unicode := Unicode.ascii
    "alice" ∈ namedAt (stateAt handedOverLog 2) "o" ∧ "bob" ∈ namedAt (stateAt handedOverLog 3) "o" ∧
      ∃ record ∈ (stateAt handedOverLog 3).corrections.drop
          (stateAt handedOverLog 2).corrections.length,
        record.objectId = "o" ∧ record.action = .reattribute := by
  intro _
  have halice : "alice" ∈ namedAt (stateAt handedOverLog 2) "o" := by decide +kernel
  have hbob : "bob" ∈ namedAt (stateAt handedOverLog 3) "o" := by decide +kernel
  obtain ⟨before, hbefore, hp⟩ := exists_of_namedAt halice
  obtain ⟨after, hafter, hq⟩ := exists_of_namedAt hbob
  refine ⟨halice, hbob, renamed_by_reattribution ?_ (by decide) hbefore hp hafter hq (by decide)⟩
  intro n entry hentry correction hbody haction _ held put _ hput
  have hmem : entry ∈ handedOverLog := List.mem_of_getElem? hentry
  simp only [handedOverLog, List.mem_cons, List.not_mem_nil, or_false] at hmem
  rcases hmem with rfl | rfl | rfl
  · cases hbody
  · cases hbody
    cases hput
  · cases hbody
    cases haction

end Handover

end Core
