import AtriumVerified.Core.Runs
import AtriumVerified.Core.Proofs.HandlerProofs

/-!
# The supersession graph over runs

Every event changes the supersession pointers by a list of changes that can be read off the state
before it. Adding an edge is guarded by `supersessionWouldCycle`; the changes of a retraction or a
restoration are not, so a run keeps the graph acyclic as long as those are clear.
-/

namespace Core

open Checked Js PointerGraph
open CoreState (fail)

variable {state next : CoreState}

/-- Every record is stored under the id of its object. -/
def Keyed (state : CoreState) : Prop :=
  ∀ id record, state.object? id = some record → record.object.id = id

theorem Keyed.congr {a b : CoreState} (h : a.objects = b.objects) (hb : Keyed b) : Keyed a := by
  intro id record hrecord
  unfold CoreState.object? at hrecord
  rw [h] at hrecord
  exact hb id record hrecord

theorem pointer_congr {a b : CoreState} (h : a.objects = b.objects) : pointer a = pointer b := by
  funext id
  unfold pointer CoreState.object?
  rw [h]

/-! ## The cycle check -/

theorem wouldCycleLoop_sound {targetId : Id} (fuel : Nat) {seen : List Id} {cursor : Id}
    (h : wouldCycleLoop state targetId fuel seen (some cursor) = false) :
    ¬ Leads (pointer state) cursor targetId := by
  induction fuel generalizing seen cursor with
  | zero => simp [wouldCycleLoop] at h
  | succ fuel ih =>
    unfold wouldCycleLoop at h
    split at h
    · cases h
    · rename_i hne
      split at h
      · cases h
      · intro hlead
        rcases Relation.ReflTransGen.cases_head hlead with heq | ⟨following, hedge, hrest⟩
        · exact hne heq
        · have hptr : (state.object? cursor).bind ObjectRecord.supersededById = some following :=
            hedge
          rw [hptr] at h
          exact ih h hrest

theorem supersessionWouldCycle_sound {fromId targetId : Id}
    (h : supersessionWouldCycle state fromId targetId = false) :
    ¬ Leads (pointer state) fromId targetId :=
  wouldCycleLoop_sound _ h

example : supersessionWouldCycle emptyState "a" "a" = true := by decide +kernel

/-! ## Writing one record -/

theorem setSuperseded_pointer (target : ObjectRecord) (new : Option Id) (at_ : Timestamp) :
    (setSuperseded target new at_).supersededById = new := by
  unfold setSuperseded
  dsimp only
  split
  · rfl
  · rfl

theorem setSuperseded_envelope (target : ObjectRecord) (new : Option Id) (at_ : Timestamp) :
    (setSuperseded target new at_).object.id = target.object.id ∧
      (setSuperseded target new at_).object.roomId = target.object.roomId ∧
      (setSuperseded target new at_).retractedAt = target.retractedAt := by
  unfold setSuperseded
  dsimp only
  split
  · exact ⟨rfl, rfl, rfl⟩
  · exact ⟨rfl, rfl, rfl⟩

theorem pointer_setObject (state : CoreState) {id : Id} (h : id ≠ "__proto__") (record : ObjectRecord) :
    pointer (state.setObject id record) =
      Function.update (pointer state) id record.supersededById := by
  funext other
  unfold pointer
  rw [object?_setObject h]
  by_cases ho : other = id
  · rw [ho, Function.update_self]
    simp
  · rw [Function.update_of_ne ho]
    simp [ho]

theorem pointer_setObject_same {id : Id} {old record : ObjectRecord}
    (h : state.object? id = some old) (hsame : record.supersededById = old.supersededById) :
    pointer (state.setObject id record) = pointer state := by
  rw [pointer_setObject _ (object?_ne_proto h)]
  have hold : record.supersededById = pointer state id := by
    rw [hsame]
    simp [pointer, h]
  rw [hold, Function.update_eq_self]

theorem Keyed.setObject (hk : Keyed state) {id : Id} {record : ObjectRecord}
    (h : id ≠ "__proto__") (hid : record.object.id = id) : Keyed (state.setObject id record) := by
  intro other found hfound
  rw [object?_setObject h] at hfound
  split at hfound
  · rename_i ho
    cases hfound
    rw [ho, hid]
  · exact hk other found hfound

/-! ## The loops of a retraction and a restoration -/

def SameLive (a b : CoreState) : Prop :=
  a.relations = b.relations ∧
    ∀ id, (a.object? id).map ObjectRecord.retractedAt = (b.object? id).map ObjectRecord.retractedAt

theorem SameLive.any_live {a b : CoreState} (h : SameLive a b) (id : Id) :
    ((a.object? id).any fun record => record.retractedAt.isNone) =
      (b.object? id).any fun record => record.retractedAt.isNone := by
  have hid := h.2 id
  cases ha : a.object? id with
  | none =>
    cases hb : b.object? id with
    | none => rfl
    | some rb => simp [ha, hb] at hid
  | some ra =>
    cases hb : b.object? id with
    | none => simp [ha, hb] at hid
    | some rb =>
      simp only [ha, hb, Option.map_some, Option.some.injEq] at hid
      simp [hid]

theorem SameLive.stillLive {a b : CoreState} (h : SameLive a b) (supersederId targetId : Id) :
    stillLive a supersederId targetId = stillLive b supersederId targetId := by
  unfold Core.stillLive supersedersOf
  rw [h.1]
  congr 1
  funext id
  rw [h.any_live]

theorem SameLive.setSuperseded {targetId : Id} {target : ObjectRecord} (new : Option Id)
    (at_ : Timestamp) (h : state.object? targetId = some target) :
    SameLive (state.setObject targetId (setSuperseded target new at_)) state := by
  refine ⟨rfl, fun id => ?_⟩
  rw [object?_setObject (object?_ne_proto h)]
  split
  · rename_i hid
    rw [hid, h, Option.map_some, Option.map_some, (setSuperseded_envelope target new at_).2.2]
  · rfl

/-- The pointers after the loop of a retraction. -/
theorem release_pointers (supersederId : Id) (at_ : Timestamp) (new : Id → Option Id)
    (targets : List Id) (hk : Keyed state)
    (hnew : ∀ target, stillLive state supersederId target = new target) :
    pointer (targets.foldl (releaseTarget supersederId at_) state) =
        changeAll (pointer state) (loopChanges (fun _ current => current == some supersederId) new
          (pointer state) targets) ∧
      Keyed (targets.foldl (releaseTarget supersederId at_) state) := by
  induction targets generalizing state with
  | nil => exact ⟨rfl, hk⟩
  | cons targetId rest ih =>
    rw [List.foldl_cons]
    cases htarget : state.object? targetId with
    | none =>
      have hsame : releaseTarget supersederId at_ state targetId = state := by
        simp [releaseTarget, htarget]
      have hptr : pointer state targetId = none := by simp [pointer, htarget]
      rw [hsame]
      simpa [loopChanges, hptr] using ih hk hnew
    | some target =>
      have hptr : pointer state targetId = target.supersededById := by simp [pointer, htarget]
      by_cases hsup : target.supersededById = some supersederId
      · have hid : target.object.id = targetId := hk targetId target htarget
        have hstep : releaseTarget supersederId at_ state targetId =
            state.setObject targetId (setSuperseded target (new targetId) at_) := by
          simp [releaseTarget, htarget, hsup, hid, hnew]
        have hlive := SameLive.setSuperseded (new targetId) at_ htarget
        have hkeyed : Keyed (state.setObject targetId (setSuperseded target (new targetId) at_)) :=
          hk.setObject (object?_ne_proto htarget)
            ((setSuperseded_envelope target (new targetId) at_).1.trans hid)
        have hrest := ih hkeyed fun x => (hlive.stillLive supersederId x).trans (hnew x)
        rw [hstep]
        rw [pointer_setObject _ (object?_ne_proto htarget), setSuperseded_pointer] at hrest
        refine ⟨?_, hrest.2⟩
        rw [hrest.1]
        simp [loopChanges, hptr, hsup, changeAll]
      · have hsame : releaseTarget supersederId at_ state targetId = state := by
          simp [releaseTarget, htarget, hsup]
        rw [hsame]
        simpa [loopChanges, hptr, hsup] using ih hk hnew

/-- The pointers after the loop of a restoration. -/
theorem reapply_pointers (supersederId : Id) (at_ : Timestamp) (known : Id → Bool)
    (targets : List Id) (hk : Keyed state)
    (hknown : ∀ target, (state.object? target).isSome = known target) :
    pointer (targets.foldl (reapplyTarget supersederId at_) state) =
        changeAll (pointer state) (loopChanges
          (fun target current => known target && current.isNone) (fun _ => some supersederId)
          (pointer state) targets) ∧
      Keyed (targets.foldl (reapplyTarget supersederId at_) state) := by
  induction targets generalizing state with
  | nil => exact ⟨rfl, hk⟩
  | cons targetId rest ih =>
    rw [List.foldl_cons]
    cases htarget : state.object? targetId with
    | none =>
      have hsame : reapplyTarget supersederId at_ state targetId = state := by
        simp [reapplyTarget, htarget]
      have hunknown : known targetId = false := by
        rw [← hknown, htarget]
        rfl
      rw [hsame]
      simpa [loopChanges, hunknown] using ih hk hknown
    | some target =>
      have hptr : pointer state targetId = target.supersededById := by simp [pointer, htarget]
      have hisknown : known targetId = true := by
        rw [← hknown, htarget]
        rfl
      by_cases hsup : target.supersededById = none
      · have hid : target.object.id = targetId := hk targetId target htarget
        have hstep : reapplyTarget supersederId at_ state targetId =
            state.setObject targetId (setSuperseded target (some supersederId) at_) := by
          simp [reapplyTarget, htarget, hsup]
        have hkeyed : Keyed
            (state.setObject targetId (setSuperseded target (some supersederId) at_)) :=
          hk.setObject (object?_ne_proto htarget)
            ((setSuperseded_envelope target (some supersederId) at_).1.trans hid)
        have hrest := ih hkeyed fun x => by
          rw [object?_setObject (object?_ne_proto htarget), ← hknown]
          by_cases hx : x = targetId
          · simp [hx, htarget]
          · simp [hx]
        rw [hstep]
        rw [pointer_setObject _ (object?_ne_proto htarget), setSuperseded_pointer] at hrest
        refine ⟨?_, hrest.2⟩
        rw [hrest.1]
        simp [loopChanges, hptr, hsup, hisknown, changeAll]
      · have hsame : reapplyTarget supersederId at_ state targetId = state := by
          simp [reapplyTarget, htarget, hsup]
        have hnone : target.supersededById.isNone = false := by
          rw [Option.isNone_eq_false_iff]
          exact Option.isSome_iff_ne_none.mpr hsup
        rw [hsame]
        simpa [loopChanges, hptr, hnone] using ih hk hknown

/-! ## One event -/

/-- The state between the log entry of a correction and its supersession loop. -/
def writtenState (state : CoreState) (eventId : Id) (correction : ObjectCorrected)
    (at_ : Timestamp) (record : ObjectRecord) (actor : Actor) (plan : CorrectionPlan) : CoreState :=
  CoreState.setObject { state with corrections := state.corrections ++
      [correctionRecord eventId correction at_ record actor plan] }
    correction.objectId (correctedRecord record at_ actor plan)

section Written

variable {eventId : Id} {correction : ObjectCorrected} {at_ : Timestamp} {record : ObjectRecord}
  {actor : Actor} {plan : CorrectionPlan}

theorem commitPlan_eq : commitPlan state eventId correction at_ record actor plan =
    match plan.afterCommit with
    | .releaseSupersessions => releaseSupersessions
        (writtenState state eventId correction at_ record actor plan) plan.object.id at_
    | .reapplySupersessions => reapplySupersessions
        (writtenState state eventId correction at_ record actor plan) plan.object.id at_
    | _ => writtenState state eventId correction at_ record actor plan := rfl

theorem written_object? (h : state.object? correction.objectId = some record) (id : Id) :
    (writtenState state eventId correction at_ record actor plan).object? id =
      if id = correction.objectId then some (correctedRecord record at_ actor plan)
      else state.object? id :=
  object?_setObject (object?_ne_proto h) _ id

theorem written_pointer (h : state.object? correction.objectId = some record) :
    pointer (writtenState state eventId correction at_ record actor plan) = pointer state := by
  funext id
  unfold pointer
  rw [written_object? h]
  split
  · rename_i hid
    rw [hid, h]
    rfl
  · rfl

theorem written_keyed (eventId : Id) (at_ : Timestamp) (actor : Actor) (hk : Keyed state)
    (h : state.object? correction.objectId = some record)
    (henv : plan.object.id = record.object.id) :
    Keyed (writtenState state eventId correction at_ record actor plan) := by
  intro id found hfound
  rw [written_object? h] at hfound
  split at hfound
  · rename_i hid
    cases hfound
    rw [hid]
    exact henv.trans (hk _ _ h)
  · exact hk id found hfound

theorem written_stillLive (h : state.object? correction.objectId = some record) (target : Id) :
    stillLive (writtenState state eventId correction at_ record actor plan) correction.objectId
      target = stillLive state correction.objectId target := by
  unfold stillLive
  have hsups : supersedersOf (writtenState state eventId correction at_ record actor plan) target =
      supersedersOf state target := rfl
  rw [hsups]
  congr 1
  funext id
  rw [written_object? h]
  by_cases hid : id = correction.objectId
  · simp [hid]
  · simp [hid]

theorem written_isSome (h : state.object? correction.objectId = some record) (target : Id) :
    ((writtenState state eventId correction at_ record actor plan).object? target).isSome =
      (state.object? target).isSome := by
  rw [written_object? h]
  split
  · rename_i hid
    rw [hid, h]
    rfl
  · rfl

theorem commitPlan_pointers (eventId : Id) {planned : CorrectionPlan} (hk : Keyed state)
    (hown : state.object? correction.objectId = some record)
    (hplan : planCorrection state correction at_ record = .ok (.plan planned))
    (hcheck : checkPlan state correction record actor planned = .ok plan) :
    Keyed (commitPlan state eventId correction at_ record actor plan) ∧
      pointer (commitPlan state eventId correction at_ record actor plan) =
        changeAll (pointer state) (repointings state correction) := by
  obtain rfl := checkPlan_ok hcheck
  obtain ⟨henvelope, -, hafter⟩ := lapseVerification_envelope record.object planned
  obtain ⟨henv, hverb⟩ := planCorrection_ok hplan
  have hid : (lapseVerification record.object planned).object.id = correction.objectId :=
    (henvelope.1.trans henv.1).trans (hk _ _ hown)
  have hkw := written_keyed eventId at_ actor hk hown
    (henvelope.1.trans henv.1)
  rw [commitPlan_eq, hafter, hid]
  rcases hverb with ⟨haction, -, -, hrel, -⟩ | ⟨haction, -, -, hrea, -⟩ | ⟨hret, hres, -, -, hno, -⟩
  · rw [hrel]
    obtain ⟨hptr, hkeyed⟩ := release_pointers correction.objectId at_ (stillLive state correction.objectId)
      (supersessionEdges state correction.objectId) hkw (written_stillLive hown)
    refine ⟨hkeyed, ?_⟩
    have hlist : repointings state correction =
        loopChanges (fun _ current => current == some correction.objectId)
          (stillLive state correction.objectId) (pointer state)
          (supersessionEdges state correction.objectId) := by
      simp [repointings, haction]
    rw [written_pointer hown] at hptr
    rw [hlist]
    exact hptr
  · rw [hrea]
    obtain ⟨hptr, hkeyed⟩ := reapply_pointers correction.objectId at_
      (fun target => (state.object? target).isSome)
      (supersessionEdges state correction.objectId) hkw (written_isSome hown)
    refine ⟨hkeyed, ?_⟩
    have hlist : repointings state correction =
        loopChanges (fun target current => (state.object? target).isSome && current.isNone)
          (fun _ => some correction.objectId) (pointer state)
          (supersessionEdges state correction.objectId) := by
      simp [repointings, haction]
    rw [written_pointer hown] at hptr
    rw [hlist]
    exact hptr
  · have hnone : repointings state correction = [] := by
      cases haction : correction.action <;> simp_all [repointings]
    rw [hnone]
    rcases hno with hno | ⟨answers, hno⟩
    · rw [hno]
      exact ⟨hkw, written_pointer hown⟩
    · rw [hno]
      exact ⟨hkw, written_pointer hown⟩

end Written

/-- What adding an edge does to the pointers: a `supersedes` edge sets one, after the cycle check. -/
theorem commitRelation_pointers {relation : Relation} {actor : Actor} {ends : Endpoints}
    (at_ : Timestamp) (hk : Keyed state) (hcheck : checkRelation state relation actor = .ok ends) :
    Keyed (commitRelation state at_ relation ends) ∧
      (pointer (commitRelation state at_ relation ends) = pointer state ∨
        ∃ targetId, pointer (commitRelation state at_ relation ends) =
            Function.update (pointer state) targetId (some relation.fromObjectId) ∧
          ¬ Leads (pointer state) relation.fromObjectId targetId) := by
  obtain ⟨-, -, hends, hkind⟩ := checkRelation_ok hcheck
  obtain ⟨hsource, -, htarget⟩ := relationEndpoints_ok hends
  have hsourceOwn := PlainObject.get_eq_own.mp hsource
  unfold commitRelation
  dsimp only
  split
  · rename_i targetId target hsup hsome
    have hown : state.object? targetId = some target := by
      rcases htarget with ⟨-, hnone⟩ | ⟨objectId, target', -, hsome', hget, -⟩
      · rw [hnone] at hsome
        cases hsome
      · rw [hsome'] at hsome
        cases hsome
        exact PlainObject.get_eq_own.mp hget
    have hid : target.object.id = targetId := hk targetId target hown
    simp only [checkKind, hsup, hsome] at hkind
    obtain ⟨-, -, hcycle⟩ := checkSupersedes_ok hkind
    rw [hid] at hcycle
    have hne : targetId ≠ "__proto__" := object?_ne_proto hown
    refine ⟨?_, Or.inr ⟨targetId, ?_, supersessionWouldCycle_sound hcycle⟩⟩
    · exact Keyed.setObject hk hne ((setSuperseded_envelope target _ at_).1.trans hid)
    · rw [pointer_setObject _ hne, setSuperseded_pointer]
      rfl
  · split
    · have hne := object?_ne_proto hsourceOwn
      have hid : ends.source.object.id = relation.fromObjectId := hk _ _ hsourceOwn
      refine ⟨?_, Or.inl ?_⟩
      · exact Keyed.setObject hk hne hid
      · exact pointer_setObject_same hsourceOwn rfl
    · exact ⟨hk, Or.inl rfl⟩
  · exact ⟨hk, Or.inl rfl⟩

theorem dispatch_pointers [Unicode] {entry : AuthoredEvent} (hk : Keyed state)
    (h : dispatch state entry = .ok next) :
    Keyed next ∧
      (pointer next = pointer state ∨
        (∃ targetId fromId, pointer next = Function.update (pointer state) targetId (some fromId) ∧
          ¬ Leads (pointer state) fromId targetId) ∨
        ∃ correction, entry.event.body = .objectCorrected correction ∧
          pointer next = changeAll (pointer state) (repointings state correction)) := by
  unfold dispatch at h
  dsimp only at h
  split at h
  · obtain ⟨-, noted, hnoted, rfl⟩ := applyProposalRecorded_ok h
    rcases hnoted with rfl | ⟨text, rfl⟩
    · exact ⟨hk, Or.inl rfl⟩
    · exact ⟨hk, Or.inl rfl⟩
  · obtain ⟨record, -, -, -, rfl⟩ := applyProposalRejected_ok h
    exact ⟨hk, Or.inl rfl⟩
  · obtain ⟨record, -, -, -, -, rfl⟩ := applyProposalSuperseded_ok h
    exact ⟨hk, Or.inl rfl⟩
  · rename_i object _
    obtain ⟨habsent, proposal, -, rfl⟩ := applyObjectAccepted_ok h
    have hne : object.id ≠ "__proto__" := PlainObject.ne_proto_of_absent habsent
    have hfree : state.object? object.id = none := (PlainObject.get_eq_absent.mp habsent).1
    have hobjects : ∀ id, (commitAcceptance state entry.event.at_ object entry.trusted.actor
        proposal).object? id = (state.setObject object.id
          (freshRecord object entry.event.at_ entry.trusted.actor)).object? id := by
      intro id
      unfold CoreState.object?
      rw [commitAcceptance_objects]
      rfl
    refine ⟨?_, Or.inl ?_⟩
    · intro id record hrecord
      rw [hobjects] at hrecord
      exact hk.setObject hne rfl id record hrecord
    · have hptr := pointer_setObject state hne
        (freshRecord object entry.event.at_ entry.trusted.actor)
      have hnone : (freshRecord object entry.event.at_ entry.trusted.actor).supersededById =
          pointer state object.id := by
        simp [pointer, hfree, freshRecord]
      rw [hnone, Function.update_eq_self] at hptr
      rw [← hptr]
      funext id
      unfold pointer
      rw [hobjects]
  · rename_i correction hbody
    obtain ⟨record, hown, -, hcases⟩ := applyObjectCorrected_ok h
    rcases hcases with ⟨reason, -, rfl⟩ | ⟨planned, committed, hplan, hcheck, rfl⟩
    · exact ⟨hk, Or.inl rfl⟩
    · obtain ⟨hkeyed, hptr⟩ := commitPlan_pointers entry.event.id hk
        (PlainObject.get_eq_own.mp hown) hplan hcheck
      exact ⟨hkeyed, Or.inr (Or.inr ⟨correction, hbody, hptr⟩)⟩
  · rename_i relation hbody
    obtain ⟨ends, hcheck, rfl⟩ := applyRelationAdded_ok h
    obtain ⟨hkeyed, hsame | ⟨targetId, hptr, hclear⟩⟩ :=
      commitRelation_pointers entry.event.at_ hk hcheck
    · exact ⟨hkeyed, Or.inl hsame⟩
    · exact ⟨hkeyed, Or.inr (Or.inl ⟨targetId, relation.fromObjectId, hptr, hclear⟩)⟩

/-! ## Whole runs -/

section Runs

variable [Unicode] {entry : AuthoredEvent} {outcome : EventOutcome}

theorem step_acyclic (hk : Keyed state) (hacyclic : Acyclic (pointer state))
    (hclear : RepointingsClear state entry) (h : step state entry = .ok (outcome, next)) :
    Keyed next ∧ Acyclic (pointer next) := by
  rcases step_facts h with ⟨hsame, -⟩ | ⟨settled, hd, hsame, -⟩
  · exact ⟨hk.congr hsame, by rw [pointer_congr hsame]; exact hacyclic⟩
  · obtain ⟨hkeyed, hptr⟩ := dispatch_pointers hk hd
    refine ⟨hkeyed.congr hsame, ?_⟩
    rw [pointer_congr hsame]
    rcases hptr with hptr | ⟨targetId, fromId, hptr, hnot⟩ | ⟨correction, hbody, hptr⟩
    · rw [hptr]
      exact hacyclic
    · rw [hptr]
      refine acyclic_update hacyclic ?_
      rintro s hs
      cases hs
      exact hnot
    · rw [hptr]
      exact acyclic_changeAll hacyclic (hclear correction hbody ⟨settled, hd⟩)

/-- In every run whose retractions and restorations set no pointer that leads back to the object it
is set at, the supersession graph is acyclic in every state reached. -/
theorem supersession_acyclic_of_clear {state : CoreState} (h : Reached RepointingsClear state) :
    Acyclic (pointer state) := by
  suffices hboth : Keyed state ∧ Acyclic (pointer state) from hboth.2
  induction h with
  | start =>
    refine ⟨?_, ?_⟩
    · intro id record hrecord
      simp [CoreState.object?, emptyState] at hrecord
    · have hempty : pointer emptyState = fun _ => none := by
        funext id
        simp [pointer, CoreState.object?, emptyState]
      rw [hempty]
      exact acyclic_none
  | next _ hallowed hstep ih =>
    obtain ⟨hk, hacyclic⟩ := ih
    exact step_acyclic hk hacyclic hallowed hstep

theorem Reached.offer {allowed : CoreState → AuthoredEvent → Prop} (h : Reached allowed state)
    (hallowed : allowed state entry) : Reached allowed (offer state entry) := by
  unfold Core.offer
  split
  · rename_i hstep
    exact h.next hallowed hstep
  · exact h

theorem reached_offerAll {allowed : CoreState → AuthoredEvent → Prop} {log : List AuthoredEvent}
    (hallowed : ∀ entry ∈ log, ∀ state, allowed state entry) : Reached allowed (offerAll log) := by
  suffices hrun : ∀ state, Reached allowed state → Reached allowed (log.foldl Core.offer state) from
    hrun emptyState Reached.start
  induction log with
  | nil => exact fun state h => h
  | cons entry rest ih =>
    intro state h
    have hrest := ih fun e he => hallowed e (List.mem_cons_of_mem _ he)
    exact hrest _ (h.offer (hallowed entry List.mem_cons_self state))

theorem Reached.snoc {allowed : CoreState → AuthoredEvent → Prop} {log : List AuthoredEvent}
    (h : Reached allowed (offerAll log)) (hallowed : allowed (offerAll log) entry) :
    Reached allowed (offerAll (log ++ [entry])) := by
  unfold offerAll
  rw [List.foldl_append]
  exact h.offer hallowed

end Runs

/-! ## A run that closes a cycle -/

section Cycle

def openQuestion (id question : String) : AcceptedObject where
  id := id
  roomId := "room"
  objectiveId := none
  provenance := emptyProvenance
  createdAt := "2026-01-01T00:00:00.000Z"
  updatedAt := "2026-01-01T00:00:00.000Z"
  payload := .openQuestion ⟨question, .open⟩

/-- A `supersedes` edge of the room. -/
def supersedesEdge (id source target : String) : Relation where
  id := id
  roomId := "room"
  kind := .supersedes
  fromObjectId := source
  target := .object target
  note := none
  createdAt := "2026-01-01T00:00:00.000Z"

def plainCorrection (objectId : String) (action : CorrectionAction) : ObjectCorrected where
  objectId := objectId
  action := action
  patch := []
  toType := none
  provenance := emptyProvenance
  note := none

def humanEvent (id at_ : String) (body : EventBody) : AuthoredEvent :=
  ⟨⟨id, at_, body⟩, ⟨.human "u", none⟩⟩

/-- Two questions, and `a` supersedes `b`. -/
def edgeLog : List AuthoredEvent :=
  [humanEvent "e1" "2026-01-01T00:00:01.000Z" (.objectAccepted (openQuestion "a" "Ship it?")),
    humanEvent "e2" "2026-01-01T00:00:02.000Z" (.objectAccepted (openQuestion "b" "Ship now?")),
    humanEvent "e3" "2026-01-01T00:00:03.000Z" (.relationAdded (supersedesEdge "r1" "a" "b"))]

/-- `a` is retracted. -/
def retractA : AuthoredEvent :=
  humanEvent "e4" "2026-01-01T00:00:04.000Z" (.objectCorrected (plainCorrection "a" .retract))

/-- `a` is restored. -/
def restoreA : AuthoredEvent :=
  humanEvent "e6" "2026-01-01T00:00:06.000Z" (.objectCorrected (plainCorrection "a" .restore))

/-- While `a` is retracted, `b` supersedes `a`; then `a` is restored. -/
def cycleLog : List AuthoredEvent :=
  edgeLog ++ [retractA] ++
    [humanEvent "e5" "2026-01-01T00:00:05.000Z" (.relationAdded (supersedesEdge "r2" "b" "a"))] ++
    [restoreA]

/-- The restoration of `a` points `b` at `a` again, which by then is superseded by `b`. -/
theorem supersession_cycle_reached : ∃ state, @Reached Unicode.ascii (fun _ _ => True) state ∧
    Relation.TransGen (Edge (pointer state)) "a" "a" := by
  let _ : Unicode := Unicode.ascii
  have hpointers : pointer (offerAll cycleLog) "a" = some "b" ∧
      pointer (offerAll cycleLog) "b" = some "a" := by
    decide +kernel
  refine ⟨offerAll cycleLog, reached_offerAll fun _ _ _ => trivial, ?_⟩
  exact Relation.TransGen.tail (Relation.TransGen.single hpointers.1) hpointers.2

theorem clear_singleton {t s : Id} (h : supersessionWouldCycle state s t = false) :
    Clear (pointer state) [(t, some s)] := by
  refine ⟨?_, trivial⟩
  rintro s' hs'
  cases hs'
  exact supersessionWouldCycle_sound h

/-- A run that retracts and restores a superseder and stays acyclic. -/
theorem supersession_acyclic_restored :
    pointer (@offerAll Unicode.ascii (edgeLog ++ [retractA] ++ [restoreA])) "b" = some "a" ∧
      Acyclic (pointer (@offerAll Unicode.ascii (edgeLog ++ [retractA] ++ [restoreA]))) := by
  let _ : Unicode := Unicode.ascii
  have hretract : repointings (offerAll edgeLog) (plainCorrection "a" .retract) =
      [("b", none)] := by decide +kernel
  have hrestore : repointings (offerAll (edgeLog ++ [retractA])) (plainCorrection "a" .restore) =
      [("b", some "a")] := by decide +kernel
  have hcheck : supersessionWouldCycle (offerAll (edgeLog ++ [retractA])) "a" "b" = false := by
    decide +kernel
  have hedge : Reached RepointingsClear (offerAll edgeLog) := by
    refine reached_offerAll ?_
    intro entry hentry state correction hbody
    simp only [edgeLog, List.mem_cons, List.not_mem_nil, or_false] at hentry
    rcases hentry with rfl | rfl | rfl <;> cases hbody
  have hretracted : Reached RepointingsClear (offerAll (edgeLog ++ [retractA])) := by
    refine hedge.snoc ?_
    intro correction hbody _
    obtain rfl : plainCorrection "a" .retract = correction := EventBody.objectCorrected.inj hbody
    rw [hretract]
    exact ⟨by rintro s ⟨⟩, trivial⟩
  have hrestored : Reached RepointingsClear (offerAll (edgeLog ++ [retractA] ++ [restoreA])) := by
    refine hretracted.snoc ?_
    intro correction hbody _
    obtain rfl : plainCorrection "a" .restore = correction := EventBody.objectCorrected.inj hbody
    rw [hrestore]
    exact clear_singleton hcheck
  exact ⟨by decide +kernel, supersession_acyclic_of_clear hrestored⟩

end Cycle

end Core
