import Mathlib.Data.List.Basic

/-!
# Lists that are taken apart

A list may be taken apart into a part that is kept and a part that is removed, each in its order.
-/

/-- The whole is made of what is kept and what is removed, each in its order. -/
inductive Interleaved {α : Type} : List α → List α → List α → Prop where
  | nil : Interleaved [] [] []
  | kept {a : α} {kept removed whole : List α} (h : Interleaved kept removed whole) :
      Interleaved (a :: kept) removed (a :: whole)
  | removed {a : α} {kept removed whole : List α} (h : Interleaved kept removed whole) :
      Interleaved kept (a :: removed) (a :: whole)

namespace Interleaved

variable {α : Type} {kept removed whole : List α}

theorem all_removed (whole : List α) : Interleaved [] whole whole := by
  induction whole with
  | nil => exact .nil
  | cons a rest ih => exact ih.removed

theorem removed_sublist (h : Interleaved kept removed whole) : removed.Sublist whole := by
  induction h with
  | nil => exact List.Sublist.slnil
  | kept h ih => exact ih.cons _
  | removed h ih => exact ih.cons_cons _

end Interleaved
