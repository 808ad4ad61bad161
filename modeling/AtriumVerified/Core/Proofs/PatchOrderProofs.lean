import Mathlib.Data.List.Dedup
import AtriumVerified.Core.Runs

/-!
# The order of the keys of a patch

A correction comes back from `jsonb` with the keys of its patch in another order. The reducer looks the
keys of a patch up, so the order shows in one place only: where a `reattribute` is refused, and the
refusal lists two keys or more.
-/

namespace Core

open Checked Js

section Handler

variable {state : CoreState} {correction : ObjectCorrected} {patch : List (String × Json)}

/-- A payload is read flatly. -/
theorem parsePayload_reordered {fields fields' : List (String × Json)}
    (h : Json.Reordered (.object fields) (.object fields')) (type : AcceptedObjectType) :
    parsePayload type fields = parsePayload type fields' := by
  have htext : Schema.Flat nonEmptyString := Schema.flat_string _
  have hid : Schema.Flat idSchema := Schema.flat_string _
  have htime : Schema.Flat timestampSchema := Schema.flat_string _
  unfold parsePayload
  cases type with
  | decision =>
    dsimp only
    rw [htext.field h, (hid.nullable.withDefault none).field h,
      ((Schema.flat_enum decisionStatuses).withDefault .active).field h]
  | commitment =>
    dsimp only
    rw [htext.field h, hid.field h, (htime.nullable.withDefault none).field h,
      ((Schema.flat_enum commitmentStatuses).withDefault .open).field h]
  | openQuestion =>
    dsimp only
    rw [htext.field h, ((Schema.flat_enum questionStatuses).withDefault .open).field h]
  | claim =>
    dsimp only
    rw [htext.field h, hid.field h,
      ((Schema.flat_enum verifications).withDefault .unverified).field h]
  | objective =>
    dsimp only
    rw [htext.field h, ((Schema.flat_enum objectiveStatuses).withDefault .open).field h]

theorem checkCarriedPerson_reordered
    (h : Json.Reordered (.object correction.patch) (.object patch)) (payload : Payload)
    (toType : AcceptedObjectType) :
    checkCarriedPerson { correction with patch := patch } payload toType =
      checkCarriedPerson correction payload toType := by
  obtain ⟨hkeys, hvalues⟩ := h.fields
  unfold checkCarriedPerson
  cases hfield : attributionField toType with
  | none => rfl
  | some field =>
    cases carriedPerson payload toType with
    | none => rfl
    | some userId =>
      dsimp only
      cases hvalue : lookupField correction.patch field with
      | none => rw [(hkeys field).mp hvalue]
      | some value =>
        obtain ⟨value', hvalue', hsame⟩ := hvalues field value hvalue
        have hdisplay := hsame.display
        rw [hvalue']
        rcases hsame.cases_kind with rfl | ⟨_, _, rfl, rfl⟩ | ⟨_, _, rfl, rfl⟩
        · rfl
        · dsimp only
          rw [hdisplay]
        · dsimp only
          rw [hdisplay]

/-- Lists without duplicates that have the same elements, at most one of them. -/
theorem eq_of_mem_iff {keys keys' : List String} (hkeys : keys.Nodup) (hkeys' : keys'.Nodup)
    (hmem : ∀ key, key ∈ keys ↔ key ∈ keys')
    (hone : ∀ key ∈ keys, ∀ other ∈ keys, key = other) : keys = keys' := by
  have hperm : keys'.Perm keys :=
    (List.perm_ext_iff_of_nodup hkeys' hkeys).mpr fun key => (hmem key).symm
  match keys, hkeys, hone with
  | [], _, _ => rw [hperm.eq_nil]
  | [key], _, _ => rw [List.perm_singleton.mp hperm]
  | key :: other :: rest, hkeys, hone =>
    refine absurd (hone key List.mem_cons_self other ?_) ?_
    · exact List.mem_cons_of_mem _ List.mem_cons_self
    · rintro rfl
      exact (List.nodup_cons.mp hkeys).1 List.mem_cons_self

theorem checkEditedFields_reordered
    (h : Json.Reordered (.object correction.patch) (.object patch)) {object : AcceptedObject}
    (hfew : correction.action = .reattribute → ∀ field, attributionField object.type = some field →
      ∀ key ∈ correction.patch.map Prod.fst, ∀ other ∈ correction.patch.map Prod.fst,
        key ≠ field → other ≠ field → key = other) :
    checkEditedFields { correction with patch := patch } object =
      checkEditedFields correction object := by
  obtain ⟨hkeys, -⟩ := h.fields
  have hmem : ∀ key, key ∈ (correction.patch.map Prod.fst).dedup ↔
      key ∈ (patch.map Prod.fst).dedup := by
    intro key
    have hkey := hkeys key
    rw [lookupField_eq_none, lookupField_eq_none, not_iff_not] at hkey
    rw [List.mem_dedup, List.mem_dedup]
    exact hkey
  have hempty : ((patch.map Prod.fst).dedup).isEmpty =
      ((correction.patch.map Prod.fst).dedup).isEmpty := by
    rw [Bool.eq_iff_iff, List.isEmpty_iff, List.isEmpty_iff, List.eq_nil_iff_forall_not_mem,
      List.eq_nil_iff_forall_not_mem]
    exact forall_congr' fun key => not_congr (hmem key).symm
  have hcontains : ∀ field, ((patch.map Prod.fst).dedup).contains field =
      ((correction.patch.map Prod.fst).dedup).contains field := by
    intro field
    rw [Bool.eq_iff_iff, List.contains_iff_mem, List.contains_iff_mem]
    exact (hmem field).symm
  unfold checkEditedFields
  dsimp only
  by_cases haction : correction.action = .reattribute
  · rw [if_pos haction, if_pos haction]
    cases hfield : attributionField object.type with
    | none => rfl
    | some field =>
      have hstrays : ((correction.patch.map Prod.fst).dedup).filter (fun key => key != field) =
          ((patch.map Prod.fst).dedup).filter fun key => key != field := by
        refine eq_of_mem_iff ((List.nodup_dedup _).filter _) ((List.nodup_dedup _).filter _) ?_ ?_
        · intro key
          rw [List.mem_filter, List.mem_filter, hmem key]
        · intro key hkey other hother
          obtain ⟨hkey, hne⟩ := List.mem_filter.mp hkey
          obtain ⟨hother, hne'⟩ := List.mem_filter.mp hother
          exact hfew haction field hfield key (List.mem_dedup.mp hkey) other
            (List.mem_dedup.mp hother) (by simpa using hne) (by simpa using hne')
      dsimp only
      rw [hempty, hstrays]
  · rw [if_neg haction, if_neg haction]
    cases attributionField object.type with
    | none => rfl
    | some field =>
      dsimp only
      rw [hcontains field]

theorem planCorrection_reordered
    (h : Json.Reordered (.object correction.patch) (.object patch)) (at_ : Timestamp)
    {record : ObjectRecord}
    (hfew : correction.action = .reattribute →
      ∀ field, attributionField record.object.type = some field →
      ∀ key ∈ correction.patch.map Prod.fst, ∀ other ∈ correction.patch.map Prod.fst,
        key ≠ field → other ≠ field → key = other) :
    planCorrection state { correction with patch := patch } at_ record =
      planCorrection state correction at_ record := by
  have hlive : checkLive { correction with patch := patch } record = checkLive correction record :=
    rfl
  have hedit : planPayloadEdit { correction with patch := patch } at_ record =
      planPayloadEdit correction at_ record := by
    unfold planPayloadEdit applyPayloadPatch
    rw [checkEditedFields_reordered h hfew, parsePayload_reordered h.append]
  have hretype : planRetype state { correction with patch := patch } at_ record =
      planRetype state correction at_ record := by
    have hperson : ∀ toType,
        checkCarriedPerson { correction with patch := patch } record.object.payload toType =
          checkCarriedPerson correction record.object.payload toType :=
      checkCarriedPerson_reordered h record.object.payload
    unfold planRetype
    simp only [hperson, parsePayload_reordered h.append]
  have hreopen : planReopen state { correction with patch := patch } at_ record =
      planReopen state correction at_ record := rfl
  unfold planCorrection
  simp only [hlive, hedit, hretype, hreopen]

theorem applyObjectCorrected_reordered
    (h : Json.Reordered (.object correction.patch) (.object patch)) (eventId : Id)
    (at_ : Timestamp) (actor : Actor)
    (hfew : ∀ record, state.object? correction.objectId = some record →
      correction.action = .reattribute → ∀ field, attributionField record.object.type = some field →
      ∀ key ∈ correction.patch.map Prod.fst, ∀ other ∈ correction.patch.map Prod.fst,
        key ≠ field → other ≠ field → key = other) :
    applyObjectCorrected state eventId at_ { correction with patch := patch } actor =
      applyObjectCorrected state eventId at_ correction actor := by
  unfold applyObjectCorrected
  cases hslot : state.objects.get correction.objectId with
  | absent => rfl
  | inherited => rfl
  | own record =>
    have hrecord : state.object? correction.objectId = some record := PlainObject.get_eq_own.mp hslot
    simp only [refuseAbsent, stored, bind, Except.bind,
      planCorrection_reordered h at_ (hfew record hrecord)]
    -- What is left of the patch is whether it sets `verification` to `verified`.
    obtain ⟨hkeys, hvalues⟩ := h.fields
    cases hvalue : lookupField correction.patch "verification" with
    | none =>
      rw [(hkeys _).mp hvalue]
      rfl
    | some value =>
      obtain ⟨value', hvalue', hsame⟩ := hvalues _ value hvalue
      rw [hvalue']
      rcases hsame.cases_kind with rfl | ⟨_, _, rfl, rfl⟩ | ⟨_, _, rfl, rfl⟩
      · rfl
      · rfl
      · rfl

end Handler

section Call

variable [Unicode] {state next : CoreState} {event event' : CoreEvent} {trusted : TrustedContext}
  {outcome : EventOutcome}

/-- The event that comes back has the effect of the one that was folded, unless its refusal lists
several keys. -/
theorem step_reordered (h : event.Reordered event') (hfew : ¬ SeveralStrays state event)
    (hstep : step state ⟨event, trusted⟩ = .ok (outcome, next)) :
    ∃ outcome', step state ⟨event', trusted⟩ = .ok (outcome', next) := by
  cases h with
  | same => exact ⟨outcome, hstep⟩
  | @corrected id at_ correction patch hpatch =>
    have happly : applyObjectCorrected state id at_ { correction with patch := patch }
        trusted.actor = applyObjectCorrected state id at_ correction trusted.actor := by
      refine applyObjectCorrected_reordered hpatch id at_ trusted.actor ?_
      intro record hrecord haction field hfield key hkey other hother hne hne'
      by_contra hdistinct
      exact hfew ⟨correction, record, field, key, other, rfl, haction, hrecord, hfield, hkey, hother,
        hdistinct, hne, hne'⟩
    have hsettle : settle state ⟨⟨id, at_, .objectCorrected { correction with patch := patch }⟩,
        trusted⟩ = settle state ⟨⟨id, at_, .objectCorrected correction⟩, trusted⟩ := by
      unfold settle dispatch
      dsimp only
      rw [happly]
    have hposition : rejectionFor state ⟨id, at_, .objectCorrected { correction with patch := patch }⟩ =
        rejectionFor state ⟨id, at_, .objectCorrected correction⟩ := rfl
    have hroom : resolveRoomId state ⟨id, at_, .objectCorrected { correction with patch := patch }⟩ =
        resolveRoomId state ⟨id, at_, .objectCorrected correction⟩ := rfl
    unfold step at hstep ⊢
    dsimp only at hstep ⊢
    rw [hposition]
    cases hgate : rejectionFor state ⟨id, at_, .objectCorrected correction⟩ with
    | some rejection =>
      rw [hgate] at hstep
      cases hstep
      exact ⟨_, rfl⟩
    | none =>
      rw [hgate] at hstep
      dsimp only at hstep ⊢
      unfold consume at hstep ⊢
      dsimp only at hstep ⊢
      rw [hroom, hsettle]
      cases hresolved : resolveRoomId state ⟨id, at_, .objectCorrected correction⟩ with
      | error stop =>
        rw [hresolved] at hstep
        cases stop <;> cases hstep
      | ok roomId =>
        rw [hresolved] at hstep
        cases hsettled : settle state ⟨⟨id, at_, .objectCorrected correction⟩, trusted⟩ with
        | error e =>
          rw [hsettled] at hstep
          cases hstep
        | ok result =>
          obtain ⟨left, applied⟩ := result
          rw [hsettled] at hstep
          cases hstep
          exact ⟨_, rfl⟩

end Call

end Core
