import Mathlib.Order.RelClasses
import AtriumVerified.Core.Proofs.InstantProofs
import AtriumVerified.Core.Proofs.ReplayProofs
import AtriumVerified.Core.Proofs.SupersessionProofs

/-!
# Replay and the order of the rows

`reduce` sorts the rows it parsed before it folds them, so the order in which a log is stored does not
matter, and a log can be reduced in two parts when the first lies before the second. The sort key is the
instant and the id; on canonical timestamps an instant has one spelling, so rows of one key have one
`(at, id)`.
-/

namespace Core

open Js

/-! ## The sort key -/

section Keys

variable {a b c : EventCursor}

theorem Before.asymm (h : Before a b) : ¬ Before b a := fun h' => Before.irrefl a (h.trans h')

theorem key_eq_of_not_before (hab : ¬ Before a b) (hba : ¬ Before b a) :
    instantKey a.at_ = instantKey b.at_ ∧ a.id = b.id := by
  rw [before_iff, not_or] at hab hba
  obtain ⟨hkey, hid⟩ := hab
  obtain ⟨hkey', hid'⟩ := hba
  have hinstant : instantKey a.at_ = instantKey b.at_ :=
    utf16_inj.mp (List.le_antisymm (List.not_lt.mp hkey') (List.not_lt.mp hkey))
  refine ⟨hinstant, ?_⟩
  have hnot : ¬ utf16 a.id < utf16 b.id := fun hlt => hid ⟨hinstant, hlt⟩
  have hnot' : ¬ utf16 b.id < utf16 a.id := fun hlt => hid' ⟨hinstant.symm, hlt⟩
  exact utf16_inj.mp (List.le_antisymm (List.not_lt.mp hnot') (List.not_lt.mp hnot))

theorem compareCursor_eq_eq :
    compareCursor a b = .eq ↔ instantKey a.at_ = instantKey b.at_ ∧ a.id = b.id := by
  constructor
  · intro h
    refine key_eq_of_not_before ?_ ?_
    · intro hbefore
      cases hbefore.symm.trans h
    · intro hbefore
      cases (compareCursor_eq_gt.mpr hbefore).symm.trans h
  · rintro ⟨hkey, hid⟩
    cases hcompare : compareCursor a b with
    | eq => rfl
    | lt =>
      have hbefore : Before a b := hcompare
      rw [before_iff, hkey, hid] at hbefore
      exact (hbefore.elim (List.lt_irrefl _) fun h => List.lt_irrefl _ h.2).elim
    | gt =>
      have hbefore : Before b a := compareCursor_eq_gt.mp hcompare
      rw [before_iff, hkey, hid] at hbefore
      exact (hbefore.elim (List.lt_irrefl _) fun h => List.lt_irrefl _ h.2).elim

theorem Before.of_not_before (hca : Before c a) (hba : ¬ Before b a) : Before c b := by
  by_cases hab : Before a b
  · exact hca.trans hab
  · obtain ⟨hinstant, hid⟩ := key_eq_of_not_before hab hba
    rw [before_iff] at hca ⊢
    rw [← hinstant, ← hid]
    exact hca

theorem canonical_unique {s t : Timestamp} (hs : canonicalTimestamp s = true)
    (ht : canonicalTimestamp t = true) (h : instantKey s = instantKey t) : s = t := by
  obtain ⟨d, hd, hsd⟩ := exists_date hs
  obtain ⟨e, he, hte⟩ := exists_date ht
  have hde : d = e := Calendar.DateTime.eq_of_millis_eq hd he ((instantKey_eq_iff hd he hsd hte).mp h)
  apply String.toList_inj.mp
  rw [hsd, hte, hde]

end Keys

abbrev CanonicalCursor := { cursor : EventCursor // canonicalTimestamp cursor.at_ = true }

/-- The sort key, the text and the calendar order canonical timestamps in one way, and cursors with
such timestamps are strictly and totally ordered. -/
theorem event_order_chronological :
    (∀ text, canonicalTimestamp text = true ↔
      ∃ d : Calendar.DateTime, d.Valid ∧ text.toList = d.isoText) ∧
    (∀ (a b : Timestamp) (d e : Calendar.DateTime), d.Valid → e.Valid → a.toList = d.isoText →
      b.toList = e.isoText →
        (Js.lt (instantKey a) (instantKey b) = true ↔ d.Earlier e) ∧
        (Js.lt a b = true ↔ d.Earlier e) ∧ (d.Earlier e ↔ d.millis < e.millis) ∧
        (instantKey a = instantKey b ↔ a = b)) ∧
    IsStrictTotalOrder CanonicalCursor (fun a b => compareCursor a b = .lt) ∧
    ∀ a b : CanonicalCursor, (compareCursor a b = .eq ↔ a = b) ∧
      (compareCursor a b = .gt ↔ compareCursor b a = .lt) := by
  have hequal : ∀ a b : CanonicalCursor, compareCursor a b = .eq ↔ a = b := by
    intro a b
    rw [compareCursor_eq_eq]
    constructor
    · rintro ⟨hkey, hid⟩
      have hat := canonical_unique a.2 b.2 hkey
      obtain ⟨⟨at_, id⟩, _⟩ := a
      obtain ⟨⟨at', id'⟩, _⟩ := b
      obtain rfl : at_ = at' := hat
      obtain rfl : id = id' := hid
      rfl
    · rintro rfl
      exact ⟨rfl, rfl⟩
  refine ⟨?_, ?_, ?_, fun a b => ⟨hequal a b, compareCursor_eq_gt⟩⟩
  · intro text
    constructor
    · exact exists_date
    · rintro ⟨d, hd, htext⟩
      exact canonicalTimestamp_isoText hd htext
  · intro a b d e hd he ha hb
    have hmillis := Calendar.DateTime.earlier_iff_millis hd he
    refine ⟨?_, ?_, hmillis, ?_⟩
    · rw [lt_iff, instantKey_lt_iff hd he ha hb, hmillis]
    · rw [lt_iff, utf16_isoText ha, utf16_isoText hb, isoText_lt_iff hd he]
    · constructor
      · exact canonical_unique (canonicalTimestamp_isoText hd ha) (canonicalTimestamp_isoText he hb)
      · rintro rfl
        rfl
  · refine { trichotomous := ?_, irrefl := ?_, trans := ?_ }
    · intro a b hab hba
      refine (hequal a b).mp (compareCursor_eq_eq.mpr (key_eq_of_not_before hab hba))
    · intro a
      exact Before.irrefl a.1
    · intro a b c hab hbc
      exact Before.trans hab hbc

/-! ## The sort -/

section Rows

/-- What `orderEvents` compares by. -/
def notAfter (a b : AuthoredEvent) : Bool :=
  compareCursor (cursorOf a.event) (cursorOf b.event) != .gt

theorem notAfter_iff {a b : AuthoredEvent} :
    notAfter a b = true ↔ ¬ Before (cursorOf b.event) (cursorOf a.event) := by
  unfold notAfter
  rw [bne_iff_ne, ne_eq, compareCursor_eq_gt]

theorem notAfter_trans (a b c : AuthoredEvent) (hab : notAfter a b) (hbc : notAfter b c) :
    notAfter a c := by
  rw [notAfter_iff] at *
  intro hca
  exact hbc (hca.of_not_before hab)

theorem notAfter_total (a b : AuthoredEvent) : notAfter a b || notAfter b a := by
  rw [Bool.or_eq_true, notAfter_iff, notAfter_iff]
  by_cases h : Before (cursorOf a.event) (cursorOf b.event)
  · exact Or.inl h.asymm
  · exact Or.inr h

variable {first second : List AuthoredEvent}

theorem orderEvents_perm (hperm : first.Perm second)
    (hsame : ∀ a ∈ first, ∀ b ∈ first, instantKey a.event.at_ = instantKey b.event.at_ →
      a.event.id = b.event.id → a = b) : orderEvents first = orderEvents second := by
  apply OrderedLog.mergeSort_eq_of_perm notAfter_trans notAfter_total hperm
  intro a ha b hb hab hba
  obtain ⟨hinstant, hid⟩ := key_eq_of_not_before (notAfter_iff.mp hba) (notAfter_iff.mp hab)
  exact hsame a ha b hb hinstant hid

theorem orderEvents_append
    (hbefore : ∀ a ∈ first, ∀ b ∈ second, Before (cursorOf a.event) (cursorOf b.event)) :
    orderEvents (first ++ second) = orderEvents first ++ orderEvents second := by
  apply OrderedLog.mergeSort_append notAfter_trans notAfter_total
  intro a ha b hb
  exact notAfter_iff.mpr (hbefore a ha b hb).asymm

end Rows

/-! ## Whole logs -/

section Logs

variable {Raw : Type} (schema : EventSchema Raw)

theorem mem_parsedRows {log : List (Row Raw)} {entry : AuthoredEvent}
    (h : entry ∈ parsedRows schema log) :
    ∃ row ∈ log, schema.safeParse row.event = .ok entry.event ∧ entry.trusted = row.trusted := by
  unfold parsedRows at h
  obtain ⟨row, hrow, hentry⟩ := List.mem_filterMap.mp h
  refine ⟨row, hrow, ?_⟩
  split at hentry
  · rename_i event hparse
    cases hentry
    exact ⟨hparse, rfl⟩
  · cases hentry

/-- The schema reads the timestamp of an event with the schema of timestamps. -/
def TimestampsParsed : Prop :=
  ∀ raw event, schema.safeParse raw = .ok event → canonicalTimestamp event.at_ = true

variable [Unicode]

theorem foldRows_append (state : CoreState) (first second : List AuthoredEvent) :
    foldRows state (first ++ second) = (do
      let (before, mid) ← foldRows state first
      let (after, last) ← foldRows mid second
      return (before ++ after, last)) := by
  induction first generalizing state with
  | nil =>
    simp only [List.nil_append, foldRows, bind, Except.bind, pure, Except.pure]
    cases foldRows state second with
    | error e => rfl
    | ok result => rfl
  | cons entry rest ih =>
    simp only [List.cons_append, foldRows, bind, Except.bind, pure, Except.pure] at ih ⊢
    cases step state entry with
    | error e => rfl
    | ok result =>
      obtain ⟨outcome, next⟩ := result
      dsimp only
      rw [ih next]
      cases foldRows next rest with
      | error e => rfl
      | ok result =>
        obtain ⟨before, mid⟩ := result
        dsimp only
        cases foldRows mid second with
        | error e => rfl
        | ok result => rfl

theorem reduce_eq (log : List (Row Raw)) (initial : CoreState) :
    reduce schema log initial =
      (foldRows initial (orderEvents (parsedRows schema log))).map Prod.snd := by
  unfold reduce foldEvents
  cases foldRows initial (orderEvents (parsedRows schema log)) with
  | error e => rfl
  | ok result => rfl

/-- Replay ignores the order in which rows are stored, where rows of one `(at, id)` are identical, and
a log can be replayed in two parts when every row of the first sorts before every row of the second. -/
theorem replay_ignores_storage (hschema : TimestampsParsed schema) (initial : CoreState) :
    (∀ log stored : List (Row Raw),
      (∀ a ∈ parsedRows schema log, ∀ b ∈ parsedRows schema log, a.event.at_ = b.event.at_ →
        a.event.id = b.event.id → a = b) →
      log.Perm stored → reduce schema stored initial = reduce schema log initial) ∧
    ∀ first second : List (Row Raw),
      (∀ a ∈ parsedRows schema first, ∀ b ∈ parsedRows schema second,
        compareCursor (cursorOf a.event) (cursorOf b.event) = .lt) →
      (reduce schema first initial >>= reduce schema second) =
        reduce schema (first ++ second) initial := by
  constructor
  · intro log stored hsame hperm
    have hrows : (parsedRows schema log).Perm (parsedRows schema stored) := hperm.filterMap _
    have horder : orderEvents (parsedRows schema log) = orderEvents (parsedRows schema stored) := by
      apply orderEvents_perm hrows
      intro a ha b hb hinstant hid
      obtain ⟨row, -, hparse, -⟩ := mem_parsedRows schema ha
      obtain ⟨row', -, hparse', -⟩ := mem_parsedRows schema hb
      exact hsame a ha b hb
        (canonical_unique (hschema _ _ hparse) (hschema _ _ hparse') hinstant) hid
    rw [reduce_eq, reduce_eq, horder]
  · intro first second hbefore
    have hrows : parsedRows schema (first ++ second) =
        parsedRows schema first ++ parsedRows schema second := List.filterMap_append
    rw [reduce_eq schema (first ++ second), hrows, orderEvents_append hbefore, foldRows_append,
      reduce_eq schema first]
    simp only [bind, Except.bind, pure, Except.pure]
    cases foldRows initial (orderEvents (parsedRows schema first)) with
    | error e => rfl
    | ok result =>
      obtain ⟨outcomes, mid⟩ := result
      simp only [Except.map]
      rw [reduce_eq]
      cases foldRows mid (orderEvents (parsedRows schema second)) with
      | error e => rfl
      | ok result => rfl

end Logs

/-! ## Two rows, stored the other way round -/

section Stored

/-- The schema of rows that are events already, with their timestamps checked. -/
def stampedSchema : EventSchema CoreEvent where
  safeParse event := if canonicalTimestamp event.at_ then .ok event else .error []
  value event := event
  reparse := by
    intro raw event h
    split at h
    · rename_i hcanonical
      cases h
      exact if_pos hcanonical
    · cases h

theorem stampedSchema_timestamps : TimestampsParsed stampedSchema := by
  intro raw event h
  unfold stampedSchema at h
  dsimp only at h
  split at h
  · rename_i hcanonical
    cases h
    exact hcanonical
  · cases h

def askRow : Row CoreEvent :=
  (humanEvent "e1" "2026-01-01T00:00:01.000Z" (.objectAccepted (openQuestion "a" "Ship it?"))).row

def retractRow : Row CoreEvent :=
  (humanEvent "e2" "2026-01-01T00:00:02.000Z"
    (.objectCorrected (plainCorrection "a" .retract))).row

theorem stored_rows_replay :
    let _ : Unicode := Unicode.ascii
    reduce stampedSchema [retractRow, askRow] emptyState =
        reduce stampedSchema [askRow, retractRow] emptyState ∧
      (reduce stampedSchema [askRow] emptyState >>= reduce stampedSchema [retractRow]) =
        reduce stampedSchema ([askRow] ++ [retractRow]) emptyState := by
  intro _
  obtain ⟨hperm, hsplit⟩ := replay_ignores_storage stampedSchema stampedSchema_timestamps emptyState
  have hask : parsedRows stampedSchema [askRow] = [⟨askRow.event, askRow.trusted⟩] := rfl
  have hretract : parsedRows stampedSchema [retractRow] = [⟨retractRow.event, retractRow.trusted⟩] :=
    rfl
  have hboth : parsedRows stampedSchema [askRow, retractRow] =
      [⟨askRow.event, askRow.trusted⟩, ⟨retractRow.event, retractRow.trusted⟩] := rfl
  have hids : askRow.event.id ≠ retractRow.event.id := by decide
  constructor
  · refine hperm _ _ ?_ (List.Perm.swap retractRow askRow [])
    rw [hboth]
    intro a ha b hb _ hid
    simp only [List.mem_cons, List.not_mem_nil, or_false] at ha hb
    rcases ha with rfl | rfl
    · rcases hb with rfl | rfl
      · rfl
      · exact absurd hid hids
    · rcases hb with rfl | rfl
      · exact absurd hid.symm hids
      · rfl
  · refine hsplit _ _ ?_
    rw [hask, hretract]
    intro a ha b hb
    rw [List.mem_singleton.mp ha, List.mem_singleton.mp hb]
    decide

end Stored

end Core
