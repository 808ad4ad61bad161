import AtriumVerified.Core.Proofs.IntegrityProofs

/-!
# Supersession pointers and live edges

A retraction releases what its object supersedes, a restoration takes back what is free, and an edge
sets the pointer of its target. The first two look at which superseders are live; adding an edge does
not look at its source, so a run keeps the pointers on the live edges when the sources of its edges
are not retracted.
-/

namespace Core

open Checked Js PointerGraph
open CoreState (fail)

/-! ## The loops in closed form -/

section Loops

variable {applies : Id → Option Id → Bool} {new : Id → Option Id}

theorem changeAll_loopChanges (hstable : ∀ target, applies target (new target) = false)
    (ptr : Id → Option Id) (targets : List Id) (id : Id) :
    changeAll ptr (loopChanges applies new ptr targets) id =
      if id ∈ targets ∧ applies id (ptr id) = true then new id else ptr id := by
  induction targets generalizing ptr with
  | nil => simp [loopChanges, changeAll]
  | cons target rest ih =>
    unfold loopChanges
    by_cases happlies : applies target (ptr target) = true
    · rw [if_pos happlies, changeAll, ih]
      by_cases hid : id = target
      · subst hid
        rw [Function.update_self, hstable]
        simp [happlies]
      · rw [Function.update_of_ne hid]
        simp [hid]
    · rw [if_neg happlies, ih]
      by_cases hid : id = target
      · subst hid
        simp [happlies]
      · simp [hid]

end Loops

section Edges

variable {state : CoreState} {fromId targetId : Id}

theorem mem_supersessionEdges :
    targetId ∈ supersessionEdges state fromId ↔ Supersedes state fromId targetId := by
  unfold supersessionEdges Supersedes
  simp only [List.mem_filterMap, List.mem_filter, Bool.and_eq_true, beq_iff_eq, and_assoc]

theorem mem_supersedersOf :
    fromId ∈ supersedersOf state targetId ↔ Supersedes state fromId targetId := by
  unfold supersedersOf Supersedes
  simp only [List.mem_map, List.mem_filter, Bool.and_eq_true, beq_iff_eq, and_assoc]
  constructor
  · rintro ⟨relation, hmem, hkind, htarget, hfrom⟩
    exact ⟨relation, hmem, hkind, hfrom, htarget⟩
  · rintro ⟨relation, hmem, hkind, hfrom, htarget⟩
    exact ⟨relation, hmem, hkind, htarget, hfrom⟩

theorem live_iff_any (state : CoreState) (id : Id) :
    ((state.object? id).any fun record => record.retractedAt.isNone) = true ↔ Live state id := by
  unfold Live
  cases state.object? id with
  | none => simp
  | some record => simp

theorem stillLive_eq_some {supersederId byId : Id}
    (h : stillLive state supersederId targetId = some byId) :
    byId ≠ supersederId ∧ Supersedes state byId targetId ∧ Live state byId := by
  unfold stillLive at h
  have hmem := List.mem_of_find?_eq_some h
  have hfound := List.find?_some h
  rw [Bool.and_eq_true, bne_iff_ne, live_iff_any] at hfound
  exact ⟨hfound.1, mem_supersedersOf.mp hmem, hfound.2⟩

theorem stillLive_eq_none {supersederId byId : Id}
    (h : stillLive state supersederId targetId = none) (hne : byId ≠ supersederId)
    (hedge : Supersedes state byId targetId) : ¬ Live state byId := by
  intro hlive
  unfold stillLive at h
  have hnot := List.find?_eq_none.mp h byId (mem_supersedersOf.mpr hedge)
  rw [Bool.and_eq_true, bne_iff_ne, live_iff_any] at hnot
  exact hnot ⟨hne, hlive⟩

theorem Integrity.supersedes_ends (h : Integrity state) (hedge : Supersedes state fromId targetId) :
    (state.object? fromId).isSome = true ∧ (state.object? targetId).isSome = true := by
  obtain ⟨relation, hmem, hkind, rfl, htarget⟩ := hedge
  obtain ⟨objectId, source, target, hobject, hsource, hheld, -⟩ :=
    h.structural relation hmem (by rw [hkind]; rfl)
  rw [htarget] at hobject
  cases hobject
  exact ⟨by rw [hsource]; rfl, by rw [hheld]; rfl⟩

end Edges

/-! ## What an event does to edges and retractions -/

section Changes

variable {state next : CoreState}

theorem supersedes_congr (h : next.relations = state.relations) (fromId targetId : Id) :
    Supersedes next fromId targetId ↔ Supersedes state fromId targetId := by
  unfold Supersedes
  rw [h]

theorem live_iff_retractedAt (state : CoreState) (id : Id) :
    Live state id ↔ (state.object? id).map ObjectRecord.retractedAt = some none := by
  unfold Live
  rw [Option.map_eq_some_iff]

theorem Repointed.retractedAt {before after : ObjectRecord} (h : Repointed before after) :
    after.retractedAt = before.retractedAt := by
  rcases h with rfl | ⟨new, at_, rfl⟩
  · rfl
  · exact (setSuperseded_envelope before new at_).2.2

variable {correction : ObjectCorrected} {record : ObjectRecord}

theorem commitPlan_retractedAt (eventId : Id) (at_ : Timestamp) (actor : Actor)
    (plan : CorrectionPlan) (hown : state.object? correction.objectId = some record) (id : Id) :
    ((commitPlan state eventId correction at_ record actor plan).object? id).map
        ObjectRecord.retractedAt =
      if id = correction.objectId then some (plan.retractedAt.getD record.retractedAt)
      else (state.object? id).map ObjectRecord.retractedAt :=
  commitPlan_map (fun _ _ h => h.retractedAt) eventId at_ actor plan hown id

theorem commitPlan_live_of_none (eventId : Id) (at_ : Timestamp) (actor : Actor)
    {plan : CorrectionPlan} (hown : state.object? correction.objectId = some record)
    (hplan : plan.retractedAt = none) (id : Id) :
    Live (commitPlan state eventId correction at_ record actor plan) id ↔ Live state id := by
  rw [live_iff_retractedAt, live_iff_retractedAt, commitPlan_retractedAt _ _ _ _ hown]
  split
  · rename_i hid
    rw [hid, hown, hplan]
    rfl
  · rfl

variable {at_ : Timestamp} {actor : Actor} {planned committed : CorrectionPlan}

/-- The pointers follow the live edges through a retraction. -/
theorem commitPlan_follows_retract (eventId : Id) (hk : Keyed state)
    (hfollows : Follows (pointer state) (Supersedes state) (Live state))
    (hown : state.object? correction.objectId = some record)
    (hplan : planCorrection state correction at_ record = .ok (.plan planned))
    (hcheck : checkPlan state correction record actor planned = .ok committed)
    (haction : correction.action = .retract)
    (hretracted : committed.retractedAt = some (some at_)) :
    Follows (pointer (commitPlan state eventId correction at_ record actor committed))
      (Supersedes state) (Live (commitPlan state eventId correction at_ record actor committed)) := by
  obtain ⟨-, hpointer⟩ := commitPlan_pointers eventId hk hown hplan hcheck
  have hclosed : ∀ id, pointer (commitPlan state eventId correction at_ record actor committed) id =
      if id ∈ supersessionEdges state correction.objectId ∧
          (pointer state id == some correction.objectId) = true
      then stillLive state correction.objectId id else pointer state id := by
    intro id
    rw [hpointer]
    unfold repointings
    rw [haction]
    refine changeAll_loopChanges ?_ _ _ _
    intro target
    rw [beq_eq_false_iff_ne]
    exact fun hself => (stillLive_eq_some hself).1 rfl
  refine hfollows.release (x := correction.objectId) (fun t s => stillLive_eq_some)
    (fun t s => stillLive_eq_none) ?_ ?_ ?_
  · intro t ht
    rw [hclosed, if_pos ⟨mem_supersessionEdges.mpr (hfollows.named t _ ht).1, beq_iff_eq.mpr ht⟩]
  · intro t ht
    rw [hclosed, if_neg]
    rintro ⟨-, hself⟩
    exact ht (beq_iff_eq.mp hself)
  · intro s
    rw [live_iff_retractedAt, live_iff_retractedAt, commitPlan_retractedAt _ _ _ _ hown]
    by_cases hs : s = correction.objectId
    · simp [hs, hretracted]
    · simp [hs]

/-- The pointers follow the live edges through a restoration. -/
theorem commitPlan_follows_restore (eventId : Id) (hk : Keyed state) (hintegrity : Integrity state)
    (hfollows : Follows (pointer state) (Supersedes state) (Live state))
    (hown : state.object? correction.objectId = some record)
    (hplan : planCorrection state correction at_ record = .ok (.plan planned))
    (hcheck : checkPlan state correction record actor planned = .ok committed)
    (haction : correction.action = .restore) (hgone : record.retractedAt.isSome = true)
    (hrestored : committed.retractedAt = some none) :
    Follows (pointer (commitPlan state eventId correction at_ record actor committed))
      (Supersedes state) (Live (commitPlan state eventId correction at_ record actor committed)) := by
  obtain ⟨-, hpointer⟩ := commitPlan_pointers eventId hk hown hplan hcheck
  have hclosed : ∀ id, pointer (commitPlan state eventId correction at_ record actor committed) id =
      if id ∈ supersessionEdges state correction.objectId ∧
          ((state.object? id).isSome && (pointer state id).isNone) = true
      then some correction.objectId else pointer state id := by
    intro id
    rw [hpointer]
    unfold repointings
    rw [haction]
    refine changeAll_loopChanges ?_ _ _ _
    intro target
    rw [Option.isNone_some, Bool.and_false]
  refine hfollows.reapply (x := correction.objectId) ?_ ?_ ?_ ?_
  · rintro ⟨held, hheld, hlive⟩
    rw [hown] at hheld
    cases hheld
    rw [hlive] at hgone
    cases hgone
  · intro t hfree hedge
    rw [hclosed, if_pos]
    refine ⟨mem_supersessionEdges.mpr hedge, ?_⟩
    rw [(hintegrity.supersedes_ends hedge).2, hfree]
    rfl
  · intro t ht
    rw [hclosed, if_neg]
    rintro ⟨hmem, happlies⟩
    rw [Bool.and_eq_true, Option.isNone_iff_eq_none] at happlies
    exact ht ⟨happlies.2, mem_supersessionEdges.mp hmem⟩
  · intro s
    rw [live_iff_retractedAt, live_iff_retractedAt, commitPlan_retractedAt _ _ _ _ hown]
    by_cases hs : s = correction.objectId
    · simp [hs, hrestored]
    · simp [hs]

theorem commitPlan_follows (eventId : Id) (hk : Keyed state) (hintegrity : Integrity state)
    (hfollows : Follows (pointer state) (Supersedes state) (Live state))
    (hown : state.object? correction.objectId = some record)
    (hplan : planCorrection state correction at_ record = .ok (.plan planned))
    (hcheck : checkPlan state correction record actor planned = .ok committed) :
    Follows (pointer (commitPlan state eventId correction at_ record actor committed))
      (Supersedes state) (Live (commitPlan state eventId correction at_ record actor committed)) := by
  obtain ⟨-, hkept, -⟩ := lapseVerification_envelope record.object planned
  have hcommitted : committed.retractedAt = planned.retractedAt := by
    rw [checkPlan_ok hcheck]
    exact hkept
  obtain ⟨-, hverb⟩ := planCorrection_ok hplan
  rcases hverb with ⟨haction, -, hretracted, -⟩ | ⟨haction, hgone, hrestored, -⟩ |
    ⟨hretract, hrestore, -, hnone, -⟩
  · exact commitPlan_follows_retract eventId hk hfollows hown hplan hcheck haction
      (hcommitted.trans hretracted)
  · exact commitPlan_follows_restore eventId hk hintegrity hfollows hown hplan hcheck haction hgone
      (hcommitted.trans hrestored)
  · obtain ⟨-, hpointer⟩ := commitPlan_pointers eventId hk hown hplan hcheck
    have hempty : repointings state correction = [] := by
      unfold repointings
      cases haction : correction.action <;> simp_all
    rw [hempty] at hpointer
    refine hfollows.congr hpointer (fun s t => Iff.rfl) ?_
    intro s t _
    exact commitPlan_live_of_none eventId at_ actor hown (hcommitted.trans hnone) s

theorem commitAcceptance_follows {object : AcceptedObject} {proposal : Option ProposalRecord}
    (hintegrity : Integrity state)
    (hfollows : Follows (pointer state) (Supersedes state) (Live state))
    (hfree : state.objects.get object.id = .absent) :
    Follows (pointer (commitAcceptance state at_ object actor proposal))
      (Supersedes (commitAcceptance state at_ object actor proposal))
      (Live (commitAcceptance state at_ object actor proposal)) := by
  have hnone : state.object? object.id = none := (PlainObject.get_eq_absent.mp hfree).1
  refine hfollows.congr ?_ (supersedes_congr commitAcceptance_relations) ?_
  · funext id
    unfold pointer
    rw [commitAcceptance_object? hfree]
    split
    · rename_i hid
      rw [hid, hnone]
      rfl
    · rfl
  · intro s t hedge
    have hs := (hintegrity.supersedes_ends hedge).1
    unfold Live
    rw [commitAcceptance_object? hfree, if_neg]
    rintro rfl
    rw [hnone] at hs
    cases hs

theorem live_setObject {added : CoreState} {id : Id} {before after : ObjectRecord}
    (hadded : added.objects = state.objects) (hheld : state.object? id = some before)
    (hsame : after.retractedAt = before.retractedAt) (other : Id) :
    Live (added.setObject id after) other ↔ Live state other := by
  rw [live_iff_retractedAt, live_iff_retractedAt, object?_setObject (object?_ne_proto hheld)]
  split
  · rename_i hid
    rw [hid, hheld, Option.map_some, Option.map_some, hsame]
  · unfold CoreState.object?
    rw [hadded]

theorem supersedes_append {relation : Relation}
    (h : next.relations = state.relations ++ [relation]) (fromId targetId : Id) :
    Supersedes next fromId targetId ↔ Supersedes state fromId targetId ∨
      (relation.kind = .supersedes ∧ relation.fromObjectId = fromId ∧
        relation.target.objectId? = some targetId) := by
  unfold Supersedes
  rw [h]
  constructor
  · rintro ⟨held, hmem, hedge⟩
    rcases List.mem_append.mp hmem with hold | hnew
    · exact Or.inl ⟨held, hold, hedge⟩
    · obtain rfl : held = relation := by simpa using hnew
      exact Or.inr hedge
  · rintro (⟨held, hold, hedge⟩ | hedge)
    · exact ⟨held, List.mem_append_left _ hold, hedge⟩
    · exact ⟨relation, List.mem_append_right _ (List.mem_singleton_self relation), hedge⟩

/-- The pointers follow the live edges through a new edge, when the source of a `supersedes` edge is
live. -/
theorem commitRelation_follows {relation : Relation} {ends : Endpoints} (at_ : Timestamp)
    (hfollows : Follows (pointer state) (Supersedes state) (Live state))
    (hcheck : checkRelation state relation actor = .ok ends)
    (hsource : relation.kind = .supersedes → Live state relation.fromObjectId) :
    Follows (pointer (commitRelation state at_ relation ends))
      (Supersedes (commitRelation state at_ relation ends))
      (Live (commitRelation state at_ relation ends)) := by
  have hedges : ∀ fromId targetId, Supersedes (commitRelation state at_ relation ends) fromId
      targetId ↔ Supersedes state fromId targetId ∨ (relation.kind = .supersedes ∧
        relation.fromObjectId = fromId ∧ relation.target.objectId? = some targetId) :=
    supersedes_append commitRelation_relations
  rcases commitRelation_cases at_ hcheck with ⟨targetId, target, hkind, hobject, htarget, -, heq⟩ |
    ⟨payload, hkind, hheld, -, -, -, -, heq⟩ | ⟨hkind, -, heq⟩
  · have hpointer : pointer (commitRelation state at_ relation ends) =
        Function.update (pointer state) targetId (some relation.fromObjectId) := by
      rw [heq, pointer_setObject _ (object?_ne_proto htarget), setSuperseded_pointer]
      rfl
    have hlive : ∀ id, Live (commitRelation state at_ relation ends) id ↔ Live state id := by
      intro id
      rw [heq]
      exact live_setObject rfl htarget (setSuperseded_envelope target _ at_).2.2 id
    have hadded : Follows (Function.update (pointer state) targetId (some relation.fromObjectId))
        (Supersedes (commitRelation state at_ relation ends)) (Live state) := by
      refine hfollows.add (hsource hkind) ?_
      intro s t
      rw [hedges, hobject, Option.some.injEq]
      constructor
      · rintro (hold | ⟨-, hs, ht⟩)
        · exact Or.inl hold
        · exact Or.inr ⟨hs.symm, ht.symm⟩
      · rintro (hold | ⟨hs, ht⟩)
        · exact Or.inl hold
        · exact Or.inr ⟨hkind, hs.symm, ht.symm⟩
    exact hadded.congr hpointer (fun s t => Iff.rfl) fun s t _ => hlive s
  · refine hfollows.congr ?_ ?_ ?_
    · rw [heq]
      exact pointer_setObject_same hheld rfl
    · intro s t
      rw [hedges, hkind]
      simp
    · intro s t _
      rw [heq]
      refine live_setObject ?_ hheld ?_ s
      · rfl
      · rfl
  · refine hfollows.congr ?_ ?_ ?_
    · rw [heq]
      rfl
    · intro s t
      rw [hedges]
      simp [hkind]
    · intro s t _
      rw [heq]
      exact Iff.rfl

end Changes

/-! ## Whole runs -/

section Runs

variable {state next : CoreState}

theorem follows_sameFacts (hsame : SameFacts next state)
    (h : Follows (pointer state) (Supersedes state) (Live state)) :
    Follows (pointer next) (Supersedes next) (Live next) := by
  obtain ⟨hobjects, hrelations, -⟩ := hsame
  refine h.congr (pointer_congr hobjects) (supersedes_congr hrelations) ?_
  intro s t _
  unfold Live CoreState.object?
  rw [hobjects]

theorem pointersTrackEdges_of_follows
    (h : Follows (pointer state) (Supersedes state) (Live state)) : PointersTrackEdges state := by
  intro id record hrecord
  have hpointer : pointer state id = record.supersededById := by
    unfold pointer
    rw [hrecord]
    rfl
  refine ⟨?_, ?_⟩
  · rw [← hpointer]
    exact h.none_iff id
  · intro byId hby
    obtain ⟨hedge, hlive⟩ := h.named id byId (hpointer.trans hby)
    exact ⟨hlive, hedge⟩

variable [Unicode] {entry : AuthoredEvent}

theorem dispatch_follows (hk : Keyed state) (hintegrity : Integrity state)
    (hfollows : Follows (pointer state) (Supersedes state) (Live state))
    (hsource : SourceLive state entry) (h : dispatch state entry = .ok next) :
    Follows (pointer next) (Supersedes next) (Live next) := by
  have happlies : Applies state entry := ⟨next, h⟩
  cases dispatch_applied h with
  | recorded hbody hfree hnoted =>
    have hkept := follows_sameFacts hnoted hfollows
    exact hkept
  | rejected hbody hown hmatch hopen => exact hfollows
  | superseded hbody hown hmatch hopen hreplacement => exact hfollows
  | accepted hbody hfree hcheck => exact commitAcceptance_follows hintegrity hfollows hfree
  | unchanged hbody hhuman => exact hfollows
  | corrected hbody hhuman hown hplan hcheck =>
    have hcommitted := commitPlan_follows entry.event.id hk hintegrity hfollows hown hplan hcheck
    exact hcommitted.congr rfl (supersedes_congr commitPlan_relations) fun s t _ => Iff.rfl
  | related hbody hcheck =>
    exact commitRelation_follows entry.event.at_ hfollows hcheck fun hkind =>
      hsource _ hbody hkind happlies

theorem Reached.follows (h : Reached SourceLive state) :
    Follows (pointer state) (Supersedes state) (Live state) := by
  suffices hall : (Keyed state ∧ Integrity state) ∧
      Follows (pointer state) (Supersedes state) (Live state) from hall.2
  refine h.invariant (fun state => (Keyed state ∧ Integrity state) ∧
    Follows (pointer state) (Supersedes state) (Live state)) ?_ ?_ ?_
  · refine ⟨(Reached.start : Reached anyEvent emptyState).keyed_integrity, ?_, ?_⟩
    · rintro t s ⟨⟩
    · rintro t s - ⟨relation, ⟨⟩, -⟩
  · rintro a b hsame ⟨⟨hk, hintegrity⟩, hfollows⟩
    exact ⟨⟨hk.congr hsame.1, hintegrity.sameFacts hsame⟩, follows_sameFacts hsame hfollows⟩
  · rintro state next entry ⟨⟨hk, hintegrity⟩, hfollows⟩ hsource hdispatch
    have happlied := dispatch_applied hdispatch
    exact ⟨⟨happlied.keyed hk, happlied.integrity hk hintegrity⟩,
      dispatch_follows hk hintegrity hfollows hsource hdispatch⟩

/-- In every run whose `supersedes` edges come from objects that are not retracted, the supersession
pointers track the live edges. -/
theorem pointers_track_edges_of_sourceLive (h : Reached SourceLive state) :
    PointersTrackEdges state :=
  pointersTrackEdges_of_follows h.follows

end Runs

/-! ## A superseder that was retracted before -/

section Retracted

/-- `a` and `b` are questions of the room. -/
def questionsLog : List AuthoredEvent :=
  [humanEvent "e1" "2026-01-01T00:00:01.000Z" (.objectAccepted (openQuestion "a" "Ship it?")),
    humanEvent "e2" "2026-01-01T00:00:02.000Z" (.objectAccepted (openQuestion "b" "Ship now?"))]

/-- `a` is retracted, and supersedes `b` after that. -/
def retractedSourceLog : List AuthoredEvent :=
  questionsLog ++
    [humanEvent "e3" "2026-01-01T00:00:03.000Z" (.objectCorrected (plainCorrection "a" .retract)),
      humanEvent "e4" "2026-01-01T00:00:04.000Z" (.relationAdded (supersedesEdge "r1" "a" "b"))]

/-- The edge of a retracted object is recorded, and the pointer of `b` names it. -/
theorem retracted_superseder_reached :
    ∃ state, @Reached Unicode.ascii anyEvent state ∧ ¬ PointersTrackEdges state := by
  let _ : Unicode := Unicode.ascii
  have hrun : pointer (offerAll retractedSourceLog) "b" = some "a" ∧
      ¬ ((offerAll retractedSourceLog).object? "a").any
        (fun record => record.retractedAt.isNone) = true := by
    decide +kernel
  obtain ⟨hpointer, hgone⟩ := hrun
  refine ⟨offerAll retractedSourceLog, reached_offerAll fun _ _ _ => trivial, ?_⟩
  intro htrack
  obtain ⟨record, hrecord, hby⟩ := Option.bind_eq_some_iff.mp hpointer
  exact hgone ((live_iff_any _ _).mpr ((htrack "b" record hrecord).2 "a" hby).1)

/-- A run whose superseder is retracted only after it superseded, and restored again. -/
theorem pointers_track_edges_restored :
    pointer (@offerAll Unicode.ascii (edgeLog ++ [retractA])) "b" = none ∧
      pointer (@offerAll Unicode.ascii (edgeLog ++ [retractA] ++ [restoreA])) "b" = some "a" ∧
      PointersTrackEdges (@offerAll Unicode.ascii (edgeLog ++ [retractA] ++ [restoreA])) := by
  let _ : Unicode := Unicode.ascii
  have hquestions : Reached SourceLive (offerAll questionsLog) := by
    refine reached_offerAll ?_
    intro entry hentry state relation hbody
    simp only [questionsLog, List.mem_cons, List.not_mem_nil, or_false] at hentry
    rcases hentry with rfl | rfl <;> cases hbody
  have hedge : Reached SourceLive (offerAll edgeLog) := by
    refine hquestions.snoc ?_
    intro relation hbody _ _
    obtain rfl : supersedesEdge "r1" "a" "b" = relation := EventBody.relationAdded.inj hbody
    exact (live_iff_any _ _).mp (by decide +kernel)
  have hretracted : Reached SourceLive (offerAll (edgeLog ++ [retractA])) := by
    refine hedge.snoc ?_
    rintro relation ⟨⟩
  have hrestored : Reached SourceLive (offerAll (edgeLog ++ [retractA] ++ [restoreA])) := by
    refine hretracted.snoc ?_
    rintro relation ⟨⟩
  exact and_assoc.mp ⟨by decide +kernel, pointers_track_edges_of_sourceLive hrestored⟩

end Retracted

end Core
