import Mathlib.Data.List.DropRight
import Mathlib.Order.Defs.LinearOrder
import Mathlib.Order.Lattice

/-!
# Sliding windows

The times of a log that lie behind a cutoff. A limiter that only ever asks whether a window holds
fewer than `n` times need not keep more than the last `n` of them: in a log that never goes back,
cutting the window and keeping the last `n` commute, and stay right as the log grows.
-/

namespace SlidingWindow

section Last

variable {α : Type} {items first second : List α} {n : Nat}

theorem length_rtake : (items.rtake n).length = min n items.length := by
  unfold List.rtake
  rw [List.length_drop]
  omega

theorem rtake_append_of_le (h : n ≤ second.length) :
    (first ++ second).rtake n = second.rtake n := by
  unfold List.rtake
  rw [List.length_append, List.drop_append, List.drop_eq_nil_of_le (by omega), List.nil_append]
  congr 1
  omega

theorem rtake_append_of_ge (h : second.length ≤ n) :
    ∃ rest, (first ++ second).rtake n = rest ++ second ∧ ∀ item ∈ rest, item ∈ first := by
  unfold List.rtake
  rw [List.length_append, List.drop_append]
  refine ⟨first.drop (first.length + second.length - n), ?_, fun item => List.mem_of_mem_drop⟩
  rw [show first.length + second.length - n - first.length = 0 by omega, List.drop_zero]

end Last

variable {α : Type} [LinearOrder α]

def recent (cutoff : α) (times : List α) : List α := times.filter fun time => cutoff < time

variable {cutoff cutoff' time : α} {times first second kept : List α} {n : Nat}

theorem recent_append :
    recent cutoff (first ++ second) = recent cutoff first ++ recent cutoff second :=
  List.filter_append first second

theorem recent_eq_self : recent cutoff times = times ↔ ∀ time ∈ times, cutoff < time := by
  unfold recent
  rw [List.filter_eq_self]
  exact forall₂_congr fun time _ => decide_eq_true_iff

theorem recent_eq_nil : recent cutoff times = [] ↔ ∀ time ∈ times, time ≤ cutoff := by
  unfold recent
  rw [List.filter_eq_nil_iff]
  refine forall₂_congr fun time _ => ?_
  rw [decide_eq_true_iff, not_lt]

/-- A later cutoff sees no more of what an earlier one has left. -/
theorem recent_recent (h : cutoff ≤ cutoff') :
    recent cutoff' (recent cutoff times) = recent cutoff' times := by
  unfold recent
  rw [List.filter_filter]
  refine List.filter_congr fun time _ => ?_
  by_cases htime : cutoff' < time
  · simp [htime, h.trans_lt htime]
  · simp [htime]

theorem length_recent_mono (h : cutoff ≤ cutoff') :
    (recent cutoff' times).length ≤ (recent cutoff times).length := by
  rw [← recent_recent h]
  exact List.length_filter_le _ _

/-- A log that never goes back ends in its window. -/
theorem exists_append_recent (h : times.Pairwise (· ≤ ·)) :
    ∃ old, times = old ++ recent cutoff times ∧ ∀ time ∈ old, time ≤ cutoff := by
  induction times with
  | nil => exact ⟨[], rfl, fun _ hmem => absurd hmem List.not_mem_nil⟩
  | cons first rest ih =>
    obtain ⟨hfirst, hrest⟩ := List.pairwise_cons.mp h
    by_cases hnew : cutoff < first
    · refine ⟨[], ?_, fun _ hmem => absurd hmem List.not_mem_nil⟩
      rw [List.nil_append, recent_eq_self.mpr]
      intro time hmem
      rcases List.mem_cons.mp hmem with rfl | hmem
      · exact hnew
      · exact hnew.trans_le (hfirst time hmem)
    · obtain ⟨old, hold, hle⟩ := ih hrest
      refine ⟨first :: old, ?_, ?_⟩
      · have hdrop : recent cutoff (first :: rest) = recent cutoff rest :=
          List.filter_cons_of_neg (by simpa using hnew)
        rw [hdrop, List.cons_append, ← hold]
      · intro time hmem
        rcases List.mem_cons.mp hmem with rfl | hmem
        · exact not_lt.mp hnew
        · exact hle time hmem

/-- Cutting the window and keeping the last times commute. -/
theorem recent_rtake (h : times.Pairwise (· ≤ ·)) (n : Nat) :
    recent cutoff (times.rtake n) = (recent cutoff times).rtake n := by
  obtain ⟨old, hold, hle⟩ : ∃ old, times = old ++ recent cutoff times ∧
      ∀ time ∈ old, time ≤ cutoff := exists_append_recent h
  generalize hwindow : recent cutoff times = window at hold
  have hin : ∀ time ∈ window, cutoff < time := by
    intro time hmem
    rw [← hwindow] at hmem
    exact of_decide_eq_true (List.mem_filter.mp hmem).2
  rw [hold]
  rcases Nat.le_total n window.length with hshort | hlong
  · rw [rtake_append_of_le hshort, recent_eq_self]
    exact fun time hmem => hin time (List.mem_of_mem_drop hmem)
  · obtain ⟨rest, hrest, hmem⟩ : ∃ rest, (old ++ window).rtake n = rest ++ window ∧
        ∀ time ∈ rest, time ∈ old := rtake_append_of_ge hlong
    rw [hrest, recent_append, recent_eq_nil.mpr fun time htime => hle time (hmem time htime),
      recent_eq_self.mpr hin]
    unfold List.rtake
    rw [Nat.sub_eq_zero_of_le hlong]
    rfl

/-- `kept` holds the last `n` times of every window of `times` from `cutoff` on. -/
def Keeps (n : Nat) (cutoff : α) (kept times : List α) : Prop :=
  ∀ cutoff', cutoff ≤ cutoff' → recent cutoff' kept = (recent cutoff' times).rtake n

theorem Keeps.later (h : Keeps n cutoff kept times) (hle : cutoff ≤ cutoff') :
    Keeps n cutoff' kept times :=
  fun later hlater => h later (hle.trans hlater)

theorem keeps_nil : Keeps n cutoff ([] : List α) [] := by
  intro later _
  exact (List.rtake_nil _).symm

/-- Whether a window is full can be read off what was kept. -/
theorem Keeps.full_iff (h : Keeps n cutoff kept times) :
    n ≤ (recent cutoff kept).length ↔ n ≤ (recent cutoff times).length := by
  rw [h cutoff (le_refl _), length_rtake]
  omega

/-- What is kept when a time comes in: the window, without its first time when it is full. -/
def push (n : Nat) (cutoff time : α) (kept : List α) : List α :=
  let window := recent cutoff kept
  (if n ≤ window.length then window.tail else window) ++ [time]

theorem Keeps.push (h : Keeps (n + 1) cutoff kept times)
    (hlog : (times ++ [time]).Pairwise (· ≤ ·)) :
    Keeps (n + 1) cutoff (push (n + 1) cutoff time kept) (times ++ [time]) := by
  have hsorted : times.Pairwise (· ≤ ·) := (List.pairwise_append.mp hlog).1
  have hlast : ∀ old ∈ times, old ≤ time := fun old hold =>
    (List.pairwise_append.mp hlog).2.2 old hold time (List.mem_singleton_self time)
  have hwindow := h cutoff (le_refl _)
  have hcut : (if n + 1 ≤ (recent cutoff kept).length then (recent cutoff kept).tail
      else recent cutoff kept) = (recent cutoff times).rtake n := by
    rw [hwindow, length_rtake]
    unfold List.rtake
    split
    · rw [List.tail_drop]
      congr 1
      omega
    · rw [Nat.sub_eq_zero_of_le (by omega), Nat.sub_eq_zero_of_le (by omega)]
  intro later hlater
  unfold SlidingWindow.push
  dsimp only
  rw [hcut, recent_append, recent_append]
  by_cases hnew : later < time
  · have hone : recent later [time] = [time] :=
      recent_eq_self.mpr fun other hother => by rwa [List.mem_singleton.mp hother]
    have hcutSorted : (recent cutoff times).Pairwise (· ≤ ·) := hsorted.filter _
    rw [hone, List.rtake_concat_succ, recent_rtake hcutSorted, recent_recent hlater]
  · have hnone : ∀ list : List α, (∀ other ∈ list, other ≤ time) → recent later list = [] :=
      fun list hlist => recent_eq_nil.mpr fun other hother =>
        (hlist other hother).trans (not_lt.mp hnew)
    rw [hnone [time] fun other hother => le_of_eq (List.mem_singleton.mp hother), hnone times hlast,
      hnone]
    · exact (List.rtake_nil _).symm
    · intro other hother
      exact hlast other (List.mem_of_mem_filter (List.mem_of_mem_drop hother))

/-- Where the window is full, what was kept of the end of a log is what would be kept of it all. -/
theorem Keeps.extend {old : List α} (h : Keeps n cutoff kept times)
    (hlog : (old ++ times).Pairwise (· ≤ ·)) (hfull : n ≤ (recent cutoff times).length) :
    Keeps n cutoff kept (old ++ times) := by
  intro later hlater
  rw [h later hlater, recent_append]
  by_cases hold : recent later old = []
  · rw [hold, List.nil_append]
  · -- An old time is still in the window, and so are all of the end.
    obtain ⟨first, hfirst⟩ := List.exists_mem_of_ne_nil _ hold
    obtain ⟨hmem, hnew⟩ := List.mem_filter.mp hfirst
    have hall : recent later times = times := by
      rw [recent_eq_self]
      intro time htime
      have hle := (List.pairwise_append.mp hlog).2.2 first hmem time htime
      exact (of_decide_eq_true hnew).trans_le hle
    have hcount : (recent cutoff times).length ≤ times.length := List.length_filter_le _ _
    rw [hall, rtake_append_of_le (hfull.trans hcount)]

end SlidingWindow
