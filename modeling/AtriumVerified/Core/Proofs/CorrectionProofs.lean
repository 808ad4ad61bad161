import AtriumVerified.Core.Corrections
import AtriumVerified.Core.Proofs.NamingProofs

/-!
# Proofs: correction rates

The log names the type an object had before a correction, the state the type it has now. The two
differ for the objects whose last correction was a retype, and for no others.
-/

namespace Core

open Js (Json)

/-! ## The last correction and the type -/

section Types

variable {state next : CoreState}

theorem Planned.type_kept_iff {correction : ObjectCorrected} {at_ : Timestamp} {record : ObjectRecord}
    {plan : CorrectionPlan} (h : Planned state correction at_ record plan) :
    plan.object.type = record.object.type ↔ correction.action ≠ .retype := by
  cases h with
  | retracted haction hlive => simp [haction]
  | restored haction hgone => simp [haction]
  | @retyped haction hlive toType payload hto hother hstructure hparse =>
    have htype : payload.type = toType := parsePayload_type hparse
    unfold AcceptedObject.type
    dsimp only
    rw [htype]
    exact ⟨fun h => absurd h hother, fun h => absurd haction h⟩
  | @reopenedQuestion haction hlive payload hpayload hanswered answers hanswers =>
    unfold AcceptedObject.type
    rw [hpayload]
    simp [haction, Payload.type]
  | @reopenedCommitment haction hlive payload hpayload =>
    unfold AcceptedObject.type
    rw [hpayload]
    simp [haction, Payload.type]
  | @edited haction hlive hfields after hparse hchanged =>
    have htype : after.type = record.object.payload.type := parsePayload_type hparse
    refine ⟨fun _ => ?_, fun _ => htype⟩
    rcases haction with haction | haction
    · simp [haction]
    · simp [haction]

/-- An object has the type it had before its last correction, unless that was a retype. -/
def LastTyped (state : CoreState) : Prop :=
  ∀ id record last, state.object? id = some record → lastCorrection state id = some last →
    (record.object.type = last.objectType ↔ last.action ≠ .retype)

variable [Unicode] {entry : AuthoredEvent}

theorem Touched.lastTyped {id : Id} {before after : ObjectRecord} {news : List CorrectionRecord}
    (h : Touched state entry id before after news) (htyped : ∀ last,
      lastCorrection state id = some last →
        (before.object.type = last.objectType ↔ last.action ≠ .retype)) :
    ∀ last, (correctionsOf state id ++ news).getLast? = some last →
      (after.object.type = last.objectType ↔ last.action ≠ .retype) := by
  intro last hlast
  cases h with
  | repointed hrepointed =>
    rw [List.append_nil] at hlast
    rw [hrepointed.carried.2.1]
    exact htyped last hlast
  | answered hpayload =>
    rw [List.append_nil] at hlast
    rw [← htyped last hlast]
    unfold AcceptedObject.type
    rw [hpayload]
    rfl
  | @corrected correction planned committed _ hbody hid hhuman hplan hcheck hrepointed =>
    rw [List.getLast?_concat, Option.some.injEq] at hlast
    rw [hrepointed.carried.2.1, ← hlast]
    have hkept := (planCorrection_planned hplan).type_kept_iff
    have hcommitted : committed.object.type = planned.object.type := by
      rw [checkPlan_ok hcheck]
      exact lapseVerification_type before.object planned
    rw [← hcommitted] at hkept
    exact hkept

theorem Applied.lastTyped (h : Applied state entry next) (hk : Keyed state)
    (haccounts : LogAccounts state) (htyped : LastTyped state) : LastTyped next := by
  intro id after last hafter hlast
  cases hown : state.object? id with
  | none =>
    obtain ⟨object, proposal, -, -, -, -, hcorrections⟩ := h.minted hown hafter
    unfold lastCorrection at hlast
    rw [correctionsOf_congr hcorrections, haccounts.unknown id hown] at hlast
    cases hlast
  | some before =>
    obtain ⟨held, news, hheld, hlog, htouched⟩ := h.touched hk hown
    obtain rfl : held = after := Option.some.inj (hheld.symm.trans hafter)
    unfold lastCorrection at hlast
    rw [hlog] at hlast
    exact htouched.lastTyped (htyped id before · hown) last hlast

omit [Unicode] in
theorem LastTyped.sameFacts {settled : CoreState} (h : LastTyped state)
    (hsame : SameFacts settled state) : LastTyped settled := by
  obtain ⟨hobjects, -, -, hcorrections⟩ := hsame
  intro id record last hrecord hlast
  unfold CoreState.object? at hrecord
  unfold lastCorrection at hlast
  rw [hobjects] at hrecord
  rw [correctionsOf_congr hcorrections] at hlast
  exact h id record last hrecord hlast

theorem Reached.lastTyped {allowed : CoreState → AuthoredEvent → Prop} (h : Reached allowed state) :
    LastTyped state := by
  suffices hall : Keyed state ∧ LogAccounts state ∧ LastTyped state from hall.2.2
  refine h.invariant (fun state => Keyed state ∧ LogAccounts state ∧ LastTyped state) ?_ ?_ ?_
  · refine ⟨?_, ⟨?_, fun _ _ => rfl⟩, ?_⟩
    · rintro id record ⟨⟩
    · rintro id record ⟨⟩
    · rintro id record last ⟨⟩
  · rintro a b hsame ⟨hk, haccounts, htyped⟩
    exact ⟨hk.congr hsame.1, haccounts.sameFacts hsame, htyped.sameFacts hsame⟩
  · rintro state next entry ⟨hk, haccounts, htyped⟩ - hdispatch
    have happlied := dispatch_applied hdispatch
    exact ⟨happlied.keyed hk, happlied.logAccounts hk haccounts,
      happlied.lastTyped hk haccounts htyped⟩

end Types

/-! ## Counting -/

section Counts

variable {state : CoreState} {type : AcceptedObjectType}

theorem correctedByType_get (corrections : List CorrectionRecord) (id : Id) :
    (corrections.foldl (fun held correction => held.set correction.objectId correction.objectType)
      (Js.Map.empty : Js.Map Id AcceptedObjectType)).get id =
      ((corrections.filter fun record => record.objectId == id).getLast?).map
        CorrectionRecord.objectType := by
  induction corrections using List.reverseRecOn with
  | nil => rfl
  | append_singleton earlier last ih =>
    rw [List.foldl_append, List.foldl_cons, List.foldl_nil, Js.Map.get_set, List.filter_append, ih]
    by_cases hid : id = last.objectId
    · have hown : [last].filter (fun record => record.objectId == id) = [last] := by simp [hid]
      rw [if_pos hid, hown, List.getLast?_concat]
      rfl
    · have hother : [last].filter (fun record => record.objectId == id) = [] := by
        simp [Ne.symm hid]
      rw [if_neg hid, hother, List.append_nil]

def lastReadAs (state : CoreState) (type : AcceptedObjectType) : List Id :=
  state.objects.keys.filter fun id =>
    (lastCorrection state id).any fun last => last.objectType == type

theorem corrected_eq (haccounts : LogAccounts state) :
    (correctionRateByType state type).corrected = (lastReadAs state type).length := by
  have hget (id : Id) : (correctedByType state).get id =
      (lastCorrection state id).map CorrectionRecord.objectType := correctedByType_get _ id
  have hcount : (correctionRateByType state type).corrected =
      (((correctedByType state).entries.filter fun entry =>
        entry.2 == type).map Prod.fst).length := by
    unfold correctionRateByType
    dsimp only
    rw [List.countP_map, List.countP_eq_length_filter, List.length_map]
    rfl
  rw [hcount]
  refine List.Perm.length_eq ((List.perm_ext_iff_of_nodup ?_ ?_).mpr ?_)
  · exact (correctedByType state).nodup.sublist (List.filter_sublist.map _)
  · exact state.objects.entries.keys_nodup.filter _
  · intro id
    unfold lastReadAs
    simp only [List.mem_map, List.mem_filter, Option.any_eq_true, beq_iff_eq, Prod.exists,
      exists_and_right, exists_eq_right]
    constructor
    · intro hmem
      have hread := Js.Map.get_of_mem hmem
      rw [hget, Option.map_eq_some_iff] at hread
      obtain ⟨last, hlast, hsame⟩ := hread
      refine ⟨?_, last, hlast, hsame⟩
      rw [Js.PlainObject.mem_keys, Option.isSome_iff_ne_none]
      intro hnone
      unfold lastCorrection at hlast
      rw [haccounts.unknown id hnone] at hlast
      cases hlast
    · rintro ⟨-, last, hlast, rfl⟩
      refine Js.Map.mem_of_get ?_
      rw [hget, hlast]
      rfl

theorem accepted_eq : (correctionRateByType state type).accepted =
    (state.objects.keys.filter fun id =>
      (state.object? id).any fun record => record.object.type == type).length := by
  unfold correctionRateByType
  dsimp only
  rw [List.countP_filterMap, List.countP_eq_length_filter]
  congr 2
  funext id
  cases state.object? id with
  | none => rfl
  | some record => rfl

example : (correctionRateByType emptyState .claim).accepted = 0 := by decide +kernel

theorem countP_eq_add {α : Type} {p q r : α → Bool} {l : List α}
    (h : ∀ a ∈ l, p a = (q a || r a) ∧ ¬ (q a = true ∧ r a = true)) :
    l.countP p = l.countP q + l.countP r := by
  induction l with
  | nil => rfl
  | cons a rest ih =>
    obtain ⟨hsplit, hapart⟩ := h a List.mem_cons_self
    have hrest := ih fun b hb => h b (List.mem_cons_of_mem a hb)
    rw [List.countP_cons, List.countP_cons, List.countP_cons, hrest, hsplit]
    cases hq : q a with
    | false =>
      cases hr : r a with
      | false => simp
      | true => simp; omega
    | true =>
      cases hr : r a with
      | false => simp; omega
      | true => exact absurd ⟨hq, hr⟩ hapart

/-- Both counts have the objects of the type whose last correction was no retype. -/
theorem counts_shared (htyped : LastTyped state) : ∃ shared,
    (lastReadAs state type).length = (retypedFrom state type).length + shared ∧
    (state.objects.keys.filter fun id => (state.object? id).any fun record =>
      record.object.type == type).length = (readAs state type).length + shared := by
  let edited (id : Id) : Bool := (lastCorrection state id).any fun last =>
    last.action != .retype && last.objectType == type
  refine ⟨state.objects.keys.countP edited, ?_, ?_⟩
  · unfold lastReadAs retypedFrom
    rw [← List.countP_eq_length_filter, ← List.countP_eq_length_filter]
    refine countP_eq_add fun id _ => ?_
    dsimp only [edited]
    cases lastCorrection state id with
    | none => simp
    | some last =>
      by_cases haction : last.action = .retype
      · simp [haction]
      · have hedited : (last.action == .retype) = false := beq_eq_false_iff_ne.mpr haction
        simp [bne, hedited]
  · unfold readAs
    rw [← List.countP_eq_length_filter, ← List.countP_eq_length_filter]
    refine countP_eq_add fun id hid => ?_
    dsimp only [edited]
    obtain ⟨record, hrecord⟩ := Option.isSome_iff_exists.mp (Js.PlainObject.mem_keys.mp hid)
    have hown : state.object? id = some record := hrecord
    rw [hown]
    cases hlast : lastCorrection state id with
    | none => simp
    | some last =>
      have hsame := htyped id record last hown hlast
      by_cases haction : last.action = .retype
      · simp [haction]
      · have hedited : (last.action == .retype) = false := beq_eq_false_iff_ne.mpr haction
        simp [bne, hedited, hsame.mpr haction]

/-- A type has no more corrected objects than accepted ones exactly when last corrections retyped no
more objects away from it than it has objects never corrected or retyped into it last. -/
theorem rate_is_rate_iff {allowed : CoreState → AuthoredEvent → Prop} [Unicode]
    (hreached : Reached allowed state) (type : AcceptedObjectType) :
    ((correctionRateByType state type).corrected ≤ (correctionRateByType state type).accepted ∧
      0 ≤ (correctionRateByType state type).rate ∧ (correctionRateByType state type).rate ≤ 1) ↔
      (retypedFrom state type).length ≤ (readAs state type).length := by
  obtain ⟨shared, hcorrected, haccepted⟩ := @counts_shared state type hreached.lastTyped
  have hle : (correctionRateByType state type).corrected ≤
      (correctionRateByType state type).accepted ↔
        (retypedFrom state type).length ≤ (readAs state type).length := by
    rw [corrected_eq hreached.logAccounts, accepted_eq, hcorrected, haccepted]
    exact Nat.add_le_add_iff_right
  have hrate : (correctionRateByType state type).rate =
      if (correctionRateByType state type).accepted = 0 then 0
      else ((correctionRateByType state type).corrected : Rat) /
        (correctionRateByType state type).accepted := rfl
  rw [← hle, hrate]
  refine ⟨fun h => h.1, fun h => ⟨h, ?_, ?_⟩⟩
  · split
    · exact le_refl _
    · exact div_nonneg (Nat.cast_nonneg _) (Nat.cast_nonneg _)
  · split
    · exact zero_le_one
    · exact div_le_one_of_le₀ (Nat.cast_le.mpr h) (Nat.cast_nonneg _)

end Counts

/-- Three commitments of Alice's, of which two are read as questions. -/
def twoRetyped : List AuthoredEvent :=
  [aliceCommits,
    eventBy "alice" "e2" "2026-01-01T00:00:02.000Z" (.objectAccepted
      (filedObject "o2" none (.commitment ⟨"I will review it", "alice", none, .open⟩))),
    eventBy "alice" "e3" "2026-01-01T00:00:03.000Z" (.objectAccepted
      (filedObject "o3" none (.commitment ⟨"I will ship it", "alice", none, .open⟩))),
    eventBy "mallory" "e4" "2026-01-01T00:00:04.000Z" (retypeTo "o" .openQuestion []),
    eventBy "mallory" "e5" "2026-01-01T00:00:05.000Z" (retypeTo "o2" .openQuestion [])]

/-- Both questions were commitments before, so that none of the two counts as corrected. -/
theorem questions_not_corrected :
    let _ : Unicode := Unicode.ascii
    let rates := correctionRateByType (offerAll twoRetyped) .openQuestion
    rates.corrected ≤ rates.accepted ∧ 0 ≤ rates.rate ∧ rates.rate ≤ 1 := by
  let _ : Unicode := Unicode.ascii
  have hreached : Reached anyEvent (offerAll twoRetyped) := reached_offerAll fun _ _ _ => trivial
  have hfew : (retypedFrom (offerAll twoRetyped) .openQuestion).length ≤
      (readAs (offerAll twoRetyped) .openQuestion).length := by decide +kernel
  exact (rate_is_rate_iff hreached .openQuestion).mpr hfew

theorem two_of_one_corrected :
    ¬ ∀ (state : CoreState) (type : AcceptedObjectType), @Reached Unicode.ascii anyEvent state →
      (correctionRateByType state type).corrected ≤ (correctionRateByType state type).accepted ∧
        (correctionRateByType state type).rate ≤ 1 := by
  let _ : Unicode := Unicode.ascii
  intro h
  have hreached : Reached anyEvent (offerAll twoRetyped) := reached_offerAll fun _ _ _ => trivial
  have hcounts : (correctionRateByType (offerAll twoRetyped) .commitment).corrected = 2 ∧
      (correctionRateByType (offerAll twoRetyped) .commitment).accepted = 1 := by decide +kernel
  obtain ⟨hle, -⟩ := h _ .commitment hreached
  rw [hcounts.1, hcounts.2] at hle
  omega

end Core
