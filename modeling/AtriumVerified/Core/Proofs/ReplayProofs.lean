import AtriumVerified.Lib.OrderedLog
import AtriumVerified.Core.Proofs.HandlerProofs
import AtriumVerified.Core.Runs

/-!
# The live fold is the replay

`appendEvent` and `foldEvents` are the two ways into the state: one row at a time as rows arrive, and
a whole log, sorted. Both put every row through the same gate, so `appendEvent` is an instance of a
log behind a position gate, and the list of rows it consumed is already in the order `foldEvents`
sorts them into.
-/

namespace Core

open Js

/-! ## The order of cursors -/

theorem lt_iff {a b : String} : Js.lt a b = true ↔ utf16 a < utf16 b := by
  simp [Js.lt]

theorem compare_eq_lt {a b : String} : Js.compare a b = .lt ↔ utf16 a < utf16 b := by
  unfold Js.compare
  rw [← lt_iff]
  split <;> rename_i h
  · simp [h]
  · split <;> simp [h]

theorem compare_eq_gt {a b : String} : Js.compare a b = .gt ↔ utf16 b < utf16 a := by
  unfold Js.compare
  rw [← lt_iff]
  split <;> rename_i h
  · have hab : utf16 a < utf16 b := lt_iff.mp h
    have hba : ¬ utf16 b < utf16 a := List.lt_asymm hab
    simpa [lt_iff] using hba
  · split <;> rename_i h' <;> simp [h']

/-- `a` comes strictly before `b`. -/
def Before (a b : EventCursor) : Prop := compareCursor a b = .lt

theorem before_iff {a b : EventCursor} :
    Before a b ↔ utf16 (instantKey a.at_) < utf16 (instantKey b.at_) ∨
      instantKey a.at_ = instantKey b.at_ ∧ utf16 a.id < utf16 b.id := by
  unfold Before compareCursor
  by_cases h : instantKey a.at_ = instantKey b.at_
  · simp [h, compare_eq_lt]
  · simp [h, compare_eq_lt]

theorem compareCursor_eq_gt {a b : EventCursor} : compareCursor a b = .gt ↔ Before b a := by
  rw [before_iff]
  unfold compareCursor
  by_cases h : instantKey a.at_ = instantKey b.at_
  · simp [h, compare_eq_gt]
  · have h' : ¬ instantKey b.at_ = instantKey a.at_ := fun he => h he.symm
    simp [h, h', compare_eq_gt]

theorem Before.trans {a b c : EventCursor} (hab : Before a b) (hbc : Before b c) : Before a c := by
  rw [before_iff] at *
  rcases hab with hab | ⟨hab, hid⟩
  · rcases hbc with hbc | ⟨hbc, -⟩
    · exact Or.inl (List.lt_trans hab hbc)
    · exact Or.inl (hbc ▸ hab)
  · rcases hbc with hbc | ⟨hbc, hid'⟩
    · exact Or.inl (hab ▸ hbc)
    · exact Or.inr ⟨hab.trans hbc, List.lt_trans hid hid'⟩

theorem Before.irrefl (a : EventCursor) : ¬ Before a a := by
  rw [before_iff]
  rintro (h | ⟨-, h⟩)
  · exact List.lt_irrefl _ h
  · exact List.lt_irrefl _ h

/-! ## One row -/

theorem rejectionFor_eq_none {state : CoreState} {event : CoreEvent} :
    rejectionFor state event = none ↔
      (∀ c, state.cursor = some c → Before c (cursorOf event)) ∧
        event.id ∉ state.consumedEventIds := by
  unfold rejectionFor
  cases hcursor : state.cursor with
  | none => simp
  | some c =>
    by_cases hgt : compareCursor (cursorOf event) c = .gt
    · have hbefore : Before c (cursorOf event) := compareCursor_eq_gt.mp hgt
      simp [hgt, hbefore]
    · have hbefore : ¬ Before c (cursorOf event) := fun h => hgt (compareCursor_eq_gt.mpr h)
      simp [hgt, hbefore]

theorem orderEvents_of_increasing {entries : List AuthoredEvent}
    (h : entries.Pairwise fun a b => Before (cursorOf a.event) (cursorOf b.event)) :
    orderEvents entries = entries := by
  unfold orderEvents
  apply List.mergeSort_of_pairwise
  refine h.imp ?_
  intro a b hab
  have hlt : compareCursor (cursorOf a.event) (cursorOf b.event) = .lt := hab
  simp [hlt]

def asRow {Raw : Type} (schema : EventSchema Raw) (entry : AuthoredEvent) : Row Raw := ⟨schema.value entry.event, entry.trusted⟩

theorem parsedRows_asRow {Raw : Type} (schema : EventSchema Raw) {rows : List (Row Raw)} :
    parsedRows schema ((parsedRows schema rows).map (asRow schema)) = parsedRows schema rows := by
  induction rows with
  | nil => rfl
  | cons row rest ih =>
    cases hparse : schema.safeParse row.event with
    | error issues =>
      have hrows : parsedRows schema (row :: rest) = parsedRows schema rest := by
        simp [parsedRows, hparse]
      rw [hrows]
      exact ih
    | ok event =>
      have hrows : parsedRows schema (row :: rest) =
          ⟨event, row.trusted⟩ :: parsedRows schema rest := by
        simp [parsedRows, hparse]
      have hagain := schema.reparse row.event event hparse
      rw [hrows, List.map_cons]
      simp only [parsedRows, asRow, List.filterMap_cons, hagain] at ih ⊢
      rw [ih]

variable [Unicode] {state next : CoreState} {entry : AuthoredEvent} {outcome : EventOutcome}

theorem consume_position (h : consume state entry = .ok (outcome, next)) :
    wasConsumed outcome = true ∧ next.cursor = some (cursorOf entry.event) ∧
      next.consumedEventIds = state.consumedEventIds ++ [entry.event.id] := by
  obtain ⟨roomId, settled, applied, -, hsettle, hcons, hnext⟩ := consume_ok h
  obtain ⟨-, hconsumed, -⟩ := settle_position hsettle
  rcases hnext with rfl | ⟨reason, rfl⟩
  · exact ⟨hcons, rfl, by simp [advance, hconsumed]⟩
  · exact ⟨hcons, rfl, by simp [advance, hconsumed]⟩

theorem step_consumed (h : step state entry = .ok (outcome, next))
    (hc : wasConsumed outcome = true) :
    (∀ c, state.cursor = some c → Before c (cursorOf entry.event)) ∧
      entry.event.id ∉ state.consumedEventIds ∧ next.cursor = some (cursorOf entry.event) ∧
      next.consumedEventIds = state.consumedEventIds ++ [entry.event.id] := by
  unfold step at h
  split at h
  · cases h
    cases hc
  · rename_i hgate
    obtain ⟨hbefore, hfresh⟩ := rejectionFor_eq_none.mp hgate
    obtain ⟨-, hcursor, hspent⟩ := consume_position h
    exact ⟨hbefore, hfresh, hcursor, hspent⟩

theorem step_not_consumed (h : step state entry = .ok (outcome, next))
    (hc : wasConsumed outcome = false) : next = state := by
  unfold step at h
  split at h
  · cases h
    rfl
  · obtain ⟨hcons, -, -⟩ := consume_position h
    rw [hc] at hcons
    cases hcons

theorem step_of_offer {entry : AuthoredEvent} {taken : Bool}
    (h : ((step state entry).map fun result => (wasConsumed result.1, result.2)) = .ok (taken, next)) :
    ∃ outcome, step state entry = .ok (outcome, next) ∧ wasConsumed outcome = taken := by
  cases hstep : step state entry with
  | error err => simp [hstep, Except.map] at h
  | ok result =>
    simp only [hstep, Except.map, Except.ok.injEq, Prod.mk.injEq] at h
    exact ⟨result.1, congrArg _ (Prod.ext rfl h.2), h.1⟩

def coreLog : OrderedLog CoreState AuthoredEvent EventCursor Id TypeError where
  offer state entry := (step state entry).map fun result => (wasConsumed result.1, result.2)
  cursor := CoreState.cursor
  spent := CoreState.consumedEventIds
  position entry := cursorOf entry.event
  ident entry := entry.event.id
  before := Before
  before_trans := Before.trans
  taken := by
    intro s e s' h
    obtain ⟨outcome, hstep, hconsumed⟩ := step_of_offer h
    exact step_consumed hstep hconsumed
  passed := by
    intro s e s' h
    obtain ⟨outcome, hstep, hconsumed⟩ := step_of_offer h
    exact step_not_consumed hstep hconsumed

/-! ## Whole logs -/

section Log

variable {Raw : Type} (schema : EventSchema Raw)

/-- A sequence of `appendEvent` calls, each on the state the last one returned: the final state and
the rows consumed. A call that raises returns nothing, and its caller keeps the state it has. -/
def appendAll : CoreState → List (Row Raw) → CoreState × List (Row Raw)
  | state, [] => (state, [])
  | state, row :: rest =>
    match appendEvent schema state row with
    | .error _ => appendAll state rest
    | .ok (outcome, next) =>
      let (last, consumed) := appendAll next rest
      (last, if wasConsumed outcome then row :: consumed else consumed)

theorem appendEvent_not_consumed {row : Row Raw}
    (h : appendEvent schema state row = .ok (outcome, next)) (hc : wasConsumed outcome = false) :
    next = state := by
  unfold appendEvent at h
  split at h
  · cases h
    rfl
  · exact step_not_consumed h hc

/-- The calls go through the gate one parsed row at a time. -/
theorem appendAll_live (state : CoreState) (calls : List (Row Raw)) :
    (appendAll schema state calls).1 = (coreLog.live state (parsedRows schema calls)).1 ∧
      parsedRows schema (appendAll schema state calls).2 =
        (coreLog.live state (parsedRows schema calls)).2 := by
  induction calls generalizing state with
  | nil => exact ⟨rfl, rfl⟩
  | cons row rest ih =>
    cases hparse : schema.safeParse row.event with
    | error issues =>
      have hrows : parsedRows schema (row :: rest) = parsedRows schema rest := by
        simp [parsedRows, hparse]
      rw [hrows]
      simp only [appendAll, appendEvent, hparse, wasConsumed]
      exact ih state
    | ok event =>
      have hrows : ∀ tail, parsedRows schema (row :: tail) =
          ⟨event, row.trusted⟩ :: parsedRows schema tail := by
        intro tail
        simp [parsedRows, hparse]
      rw [hrows]
      cases hstep : step state ⟨event, row.trusted⟩ with
      | error err =>
        simp only [appendAll, appendEvent, hparse, hstep, OrderedLog.live, coreLog, Except.map]
        exact ih state
      | ok result =>
        obtain ⟨outcome, next⟩ := result
        obtain ⟨hstate, hconsumed⟩ := ih next
        cases hc : wasConsumed outcome with
        | false =>
          simp only [appendAll, appendEvent, hparse, hstep, OrderedLog.live, coreLog, Except.map, hc]
          exact ⟨hstate, hconsumed⟩
        | true =>
          simp only [appendAll, appendEvent, hparse, hstep, OrderedLog.live, coreLog, Except.map, hc,
            if_true, hrows]
          exact ⟨hstate, congrArg _ hconsumed⟩

theorem foldRows_cons_ok {rest : List AuthoredEvent} {outcomes : List EventOutcome} :
    foldRows state (entry :: rest) = .ok (outcomes, next) ↔
      ∃ outcome mid later, step state entry = .ok (outcome, mid) ∧
        foldRows mid rest = .ok (later, next) ∧ outcomes = outcome :: later := by
  simp only [foldRows, bind, Except.bind, pure, Except.pure]
  cases hstep : step state entry with
  | error err => simp
  | ok result =>
    obtain ⟨outcome, mid⟩ := result
    dsimp only
    cases hrest : foldRows mid rest with
    | error err =>
      constructor
      · intro h
        cases h
      · rintro ⟨o, m, later, heq, hrest', -⟩
        cases heq
        rw [hrest] at hrest'
        cases hrest'
    | ok result =>
      obtain ⟨later, last⟩ := result
      constructor
      · intro h
        cases h
        exact ⟨outcome, mid, later, rfl, hrest, rfl⟩
      · rintro ⟨o, m, later', heq, hrest', rfl⟩
        cases heq
        rw [hrest] at hrest'
        cases hrest'
        rfl

theorem foldRows_append_ok {first second : List AuthoredEvent} {outcomes : List EventOutcome} :
    foldRows state (first ++ second) = .ok (outcomes, next) ↔
      ∃ before mid after, foldRows state first = .ok (before, mid) ∧
        foldRows mid second = .ok (after, next) ∧ outcomes = before ++ after := by
  induction first generalizing state outcomes with
  | nil =>
    constructor
    · intro h
      exact ⟨[], state, outcomes, rfl, h, rfl⟩
    · rintro ⟨before, mid, after, hfirst, hsecond, rfl⟩
      cases hfirst
      exact hsecond
  | cons entry rest ih =>
    rw [List.cons_append, foldRows_cons_ok]
    constructor
    · rintro ⟨outcome, mid, later, hstep, hrest, rfl⟩
      obtain ⟨before, mid', after, hfirst, hsecond, rfl⟩ := ih.mp hrest
      exact ⟨outcome :: before, mid', after,
        foldRows_cons_ok.mpr ⟨outcome, mid, before, hstep, hfirst, rfl⟩, hsecond, rfl⟩
    · rintro ⟨before, mid', after, hfirst, hsecond, rfl⟩
      obtain ⟨outcome, mid, later, hstep, hrest, rfl⟩ := foldRows_cons_ok.mp hfirst
      exact ⟨outcome, mid, later ++ after, hstep, ih.mpr ⟨later, mid', after, hrest, hsecond, rfl⟩,
        rfl⟩

theorem foldRows_of_replay {entries : List AuthoredEvent}
    (h : coreLog.replay state entries = some next) :
    ∃ outcomes, foldRows state entries = .ok (outcomes, next) := by
  induction entries generalizing state with
  | nil =>
    cases h
    exact ⟨[], rfl⟩
  | cons entry rest ih =>
    simp only [OrderedLog.replay, coreLog] at h
    cases hstep : step state entry with
    | error err => simp [hstep, Except.map] at h
    | ok result =>
      obtain ⟨outcome, mid⟩ := result
      simp only [hstep, Except.map] at h
      split at h
      · rename_i heq
        simp only [Except.ok.injEq, Prod.mk.injEq] at heq
        obtain ⟨-, rfl⟩ := heq
        obtain ⟨outcomes, hrest⟩ := ih h
        exact ⟨outcome :: outcomes, by simp [foldRows, hstep, hrest, bind, Except.bind, pure,
          Except.pure]⟩
      · cases h

theorem reduce_of_parsedRows {rows : List (Row Raw)} {calls : List AuthoredEvent}
    (h : parsedRows schema rows = (coreLog.live state calls).2) :
    reduce schema rows state = .ok (coreLog.live state calls).1 := by
  have hsorted : orderEvents (parsedRows schema rows) = parsedRows schema rows := by
    apply orderEvents_of_increasing
    rw [h]
    exact coreLog.live_increasing state calls
  obtain ⟨outcomes, hfold⟩ := foldRows_of_replay (coreLog.replay_live state calls)
  simp only [reduce, foldEvents, hsorted]
  rw [h, hfold]
  rfl

/-- The live fold is the replay: however rows arrive, reducing the rows that were consumed (as they
were handed in, or as they were parsed) gives the live state; the consumed rows are strictly
increasing and carry distinct ids; and a call that does not consume its row returns the state it was
given. -/
theorem live_fold_eq_reduce (calls : List (Row Raw)) :
    let live := (appendAll schema emptyState calls).1
    let rows := (appendAll schema emptyState calls).2
    let consumed := parsedRows schema rows
    reduce schema rows emptyState = .ok live ∧
      reduce schema (consumed.map (asRow schema)) emptyState = .ok live ∧
      consumed.Pairwise (fun a b =>
        compareCursor (cursorOf a.event) (cursorOf b.event) = .lt) ∧
      (consumed.map fun entry => entry.event.id).Nodup ∧
      ∀ state row outcome next, appendEvent schema state row = .ok (outcome, next) →
        wasConsumed outcome = false → next = state := by
  obtain ⟨hstate, hconsumed⟩ := appendAll_live schema emptyState calls
  dsimp only
  refine ⟨?_, ?_, ?_, ?_, fun state row outcome next => appendEvent_not_consumed schema⟩
  · rw [hstate]
    exact reduce_of_parsedRows schema hconsumed
  · rw [hstate]
    exact reduce_of_parsedRows schema ((parsedRows_asRow schema).trans hconsumed)
  · rw [hconsumed]
    exact coreLog.live_increasing emptyState _
  · rw [hconsumed]
    have hfresh := coreLog.live_fresh (s := emptyState) List.nodup_nil (parsedRows schema calls)
    exact (List.nodup_append.mp hfresh).2.1

/-- Rows that are delivered again change nothing, whenever they come, however often, and whatever they
carry beside an id that was consumed: neither the state nor what is consumed of the rows behind
them. -/
theorem redelivery_changes_nothing (first again rest : List (Row Raw))
    (h : ∀ row ∈ again, ∀ event, schema.safeParse row.event = .ok event →
      ∃ held ∈ parsedRows schema (appendAll schema emptyState first).2, held.event.id = event.id) :
    (appendAll schema emptyState (first ++ again ++ rest)).1 =
        (appendAll schema emptyState (first ++ rest)).1 ∧
      parsedRows schema (appendAll schema emptyState (first ++ again ++ rest)).2 =
        parsedRows schema (appendAll schema emptyState (first ++ rest)).2 := by
  have hsame : coreLog.live emptyState (parsedRows schema (first ++ again ++ rest)) =
      coreLog.live emptyState (parsedRows schema (first ++ rest)) := by
    unfold parsedRows
    rw [List.filterMap_append, List.filterMap_append, List.filterMap_append]
    refine coreLog.live_insert_redelivered _ fun entry hentry => ?_
    obtain ⟨row, hrow, hparsed⟩ := List.mem_filterMap.mp hentry
    rw [(appendAll_live schema emptyState first).2] at h
    split at hparsed
    · rename_i event hevent
      cases hparsed
      exact h row hrow event hevent
    · cases hparsed
  obtain ⟨hstate, hconsumed⟩ := appendAll_live schema emptyState (first ++ again ++ rest)
  obtain ⟨hstate', hconsumed'⟩ := appendAll_live schema emptyState (first ++ rest)
  rw [hstate, hstate', hconsumed, hconsumed', hsame]
  exact ⟨rfl, rfl⟩

end Log

def rejectionAt (id : Id) (at_ : Timestamp) : Row CoreEvent :=
  ⟨⟨id, at_, .proposalRejected "p" none⟩, ⟨.human "u", none⟩⟩

omit [Unicode] in
/-- A rejection comes again under a later date, in front of another one. -/
theorem redated_rejection_ignored :
    let first := [rejectionAt "e1" "2026-01-01T00:00:01.000Z"]
    let again := [rejectionAt "e1" "2026-01-01T00:00:02.000Z"]
    let rest := [rejectionAt "e2" "2026-01-01T00:00:03.000Z"]
    (@appendAll Unicode.ascii _ parsedSchema emptyState (first ++ again ++ rest)).1 =
      (@appendAll Unicode.ascii _ parsedSchema emptyState (first ++ rest)).1 := by
  let _ : Unicode := Unicode.ascii
  have hconsumed : (parsedRows parsedSchema (appendAll parsedSchema emptyState
      [rejectionAt "e1" "2026-01-01T00:00:01.000Z"]).2).map (fun held => held.event.id) = ["e1"] := by
    decide +kernel
  refine (redelivery_changes_nothing parsedSchema _ _ _ fun row hrow event hevent => ?_).1
  cases List.mem_singleton.mp hrow
  cases hevent
  exact List.mem_map.mp (hconsumed ▸ List.mem_cons_self)

end Core
