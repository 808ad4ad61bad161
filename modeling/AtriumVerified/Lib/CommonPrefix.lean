import Mathlib.Tactic.Common

/-!
# What an edit leaves in place

The longest common prefix of two lists, the longest common suffix of what remains behind it, and the
slices that lie wholly within the one or the other: the first keep their place, the second are
shifted by the difference of the lengths.
-/

namespace Diff

variable {α : Type} {before after : List α} {start stop n : Nat}

/-- `list.slice(start, stop)`, for indices that are not negative. -/
def slice (list : List α) (start stop : Nat) : List α := (list.drop start).take (stop - start)

theorem slice_eq (list : List α) (start stop : Nat) :
    slice list start stop = (list.take stop).drop start := List.drop_take.symm

/-- What stands before a place, a slice from there, and what stands behind it make up the list. -/
theorem drop_eq_slice_append (list : List α) (hle : start ≤ stop) :
    list.drop start = slice list start stop ++ list.drop stop := by
  have hdrop : (list.drop start).drop (stop - start) = list.drop stop := by
    rw [List.drop_drop]
    congr 1
    omega
  rw [slice, ← hdrop, List.take_append_drop]

variable [DecidableEq α]

def commonPrefix : List α → List α → Nat
  | a :: before, b :: after => if a = b then commonPrefix before after + 1 else 0
  | _, _ => 0

example : commonPrefix [1, 2] [1, 3] = 1 := by simp [commonPrefix]

theorem commonPrefix_le_left (before after : List α) :
    commonPrefix before after ≤ before.length := by
  fun_induction commonPrefix before after with
  | case1 a before after ih =>
    rw [List.length_cons]
    omega
  | case2 => exact Nat.zero_le _
  | case3 => exact Nat.zero_le _

theorem take_commonPrefix (before after : List α) :
    before.take (commonPrefix before after) = after.take (commonPrefix before after) := by
  fun_induction commonPrefix before after with
  | case1 a before after ih => rw [List.take_succ_cons, List.take_succ_cons, ih]
  | case2 => rfl
  | case3 => rfl

theorem commonPrefix_le_right (before after : List α) :
    commonPrefix before after ≤ after.length := by
  have hlen := congrArg List.length (take_commonPrefix before after)
  have hleft := commonPrefix_le_left before after
  simp only [List.length_take] at hlen
  omega

theorem le_commonPrefix (h : before.take n = after.take n) (hn : n ≤ before.length) :
    n ≤ commonPrefix before after := by
  induction n generalizing before after with
  | zero => exact Nat.zero_le _
  | succ n ih =>
    match before, after, h, hn with
    | a :: before, [], h, _ => cases h
    | a :: before, b :: after, h, hn =>
      rw [List.take_succ_cons, List.take_succ_cons] at h
      obtain ⟨rfl, htail⟩ := List.cons.inj h
      rw [commonPrefix, if_pos rfl]
      exact Nat.succ_le_succ (ih htail (Nat.le_of_succ_le_succ hn))

@[simp] theorem commonPrefix_self (list : List α) : commonPrefix list list = list.length :=
  Nat.le_antisymm (commonPrefix_le_left list list) (le_commonPrefix rfl (Nat.le_refl _))

/-- The length of the longest common suffix of what remains behind the longest common prefix. -/
def commonRest (before after : List α) : Nat :=
  commonPrefix (before.drop (commonPrefix before after)).reverse
    (after.drop (commonPrefix before after)).reverse

theorem commonRest_le_left (before after : List α) :
    commonPrefix before after + commonRest before after ≤ before.length := by
  have hrest := commonPrefix_le_left (before.drop (commonPrefix before after)).reverse
    (after.drop (commonPrefix before after)).reverse
  have hfront := commonPrefix_le_left before after
  rw [List.length_reverse, List.length_drop] at hrest
  unfold commonRest
  omega

theorem commonRest_le_right (before after : List α) :
    commonPrefix before after + commonRest before after ≤ after.length := by
  have hrest := commonPrefix_le_right (before.drop (commonPrefix before after)).reverse
    (after.drop (commonPrefix before after)).reverse
  have hfront := commonPrefix_le_right before after
  rw [List.length_reverse, List.length_drop] at hrest
  unfold commonRest
  omega

/-- The common suffix stands at the end of both. -/
theorem drop_commonRest (before after : List α) :
    before.drop (before.length - commonRest before after)
      = after.drop (after.length - commonRest before after) := by
  have hsame := take_commonPrefix (before.drop (commonPrefix before after)).reverse
    (after.drop (commonPrefix before after)).reverse
  have hleft := commonRest_le_left before after
  have hright := commonRest_le_right before after
  change List.take (commonRest before after) _ = List.take (commonRest before after) _ at hsame
  rw [List.take_reverse, List.take_reverse, List.reverse_inj, List.drop_drop, List.drop_drop,
    List.length_drop, List.length_drop] at hsame
  have hb : commonPrefix before after + (before.length - commonPrefix before after
      - commonRest before after) = before.length - commonRest before after := by omega
  have ha : commonPrefix before after + (after.length - commonPrefix before after
      - commonRest before after) = after.length - commonRest before after := by omega
  rwa [hb, ha] at hsame

theorem slice_of_le (h : stop ≤ commonPrefix before after) :
    slice after start stop = slice before start stop := by
  have htake : after.take stop = before.take stop := by
    have hmin : min stop (commonPrefix before after) = stop := Nat.min_eq_left h
    have hsame := congrArg (List.take stop) (take_commonPrefix before after)
    rw [List.take_take, List.take_take, hmin] at hsame
    exact hsame.symm
  rw [slice_eq, slice_eq, htake]

/-- A slice within the common suffix is shifted by the difference of the lengths. -/
theorem slice_of_ge (h : before.length - commonRest before after ≤ start) (hle : start ≤ stop) :
    slice after (start + after.length - before.length) (stop + after.length - before.length)
      = slice before start stop := by
  have hleft := commonRest_le_left before after
  have hright := commonRest_le_right before after
  have hdrop := congrArg
    (List.drop (start - (before.length - commonRest before after))) (drop_commonRest before after)
  rw [List.drop_drop, List.drop_drop] at hdrop
  have hb : before.length - commonRest before after
      + (start - (before.length - commonRest before after)) = start := by omega
  have ha : after.length - commonRest before after
      + (start - (before.length - commonRest before after))
      = start + after.length - before.length := by omega
  have hlen : stop + after.length - before.length - (start + after.length - before.length)
      = stop - start := by omega
  rw [hb, ha] at hdrop
  rw [slice, slice, hlen, hdrop]

end Diff
