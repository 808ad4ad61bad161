import Mathlib.Data.List.Sort
import Mathlib.Order.Basic

/-!
# Pages of a sorted table

`ORDER BY … LIMIT n` over rows whose keys are distinct: the rows a page holds are those with fewer
than `n` rows in front of them.
-/

namespace SortedPage

variable {α κ : Type} [LinearOrder κ] {key : α → κ} {rows : List α} {row : α}

def before (key : α → κ) (rows : List α) (row : α) : List α :=
  rows.filter fun other => decide (key other < key row)

/-- In a table in strict order the page of `n` rows holds a row of the table exactly when fewer than
`n` rows stand in front of it. -/
theorem mem_take_iff (hsorted : rows.Pairwise fun a b => key a < key b) {n : Nat} :
    row ∈ rows.take n ↔ row ∈ rows ∧ (before key rows row).length < n := by
  induction rows generalizing n with
  | nil => simp
  | cons first rest ih =>
    obtain ⟨hfirst, hrest⟩ := List.pairwise_cons.mp hsorted
    cases n with
    | zero => simp
    | succ n =>
      rw [List.take_succ_cons, List.mem_cons, List.mem_cons, ih hrest]
      -- Nothing stands in front of the first row, and it stands in front of every other one.
      have hnone : before key (first :: rest) first = [] := by
        unfold before
        rw [List.filter_eq_nil_iff]
        intro other hother
        rw [decide_eq_true_eq, not_lt]
        rcases List.mem_cons.mp hother with rfl | hother
        · exact le_rfl
        · exact le_of_lt (hfirst other hother)
      have hsome (hrow : row ∈ rest) :
          before key (first :: rest) row = first :: before key rest row := by
        unfold before
        rw [List.filter_cons_of_pos (by simpa using hfirst row hrow)]
      constructor
      · rintro (rfl | ⟨hrow, hlt⟩)
        · rw [hnone]
          exact ⟨Or.inl rfl, Nat.succ_pos n⟩
        · rw [hsome hrow]
          exact ⟨Or.inr hrow, Nat.succ_lt_succ hlt⟩
      · rintro ⟨rfl | hrow, hlt⟩
        · exact Or.inl rfl
        · rw [hsome hrow] at hlt
          exact Or.inr ⟨hrow, Nat.lt_of_succ_lt_succ hlt⟩

/-- The same for a page of the rows that a condition selects. -/
theorem mem_take_filter_iff (hsorted : rows.Pairwise fun a b => key a < key b) {p : α → Bool}
    {n : Nat} : row ∈ (rows.filter p).take n ↔
      (row ∈ rows ∧ p row = true) ∧ (before key (rows.filter p) row).length < n := by
  rw [mem_take_iff (hsorted.filter p), List.mem_filter]

/-- A weaker condition selects more rows in front of a row. -/
theorem before_filter_mono {p q : α → Bool} (h : ∀ other ∈ rows, p other = true → q other = true) :
    (before key (rows.filter p) row).length ≤ (before key (rows.filter q) row).length := by
  unfold before
  rw [List.filter_filter, List.filter_filter, ← List.countP_eq_length_filter,
    ← List.countP_eq_length_filter]
  apply List.countP_mono_left
  intro other hother hboth
  rw [Bool.and_eq_true] at hboth ⊢
  exact ⟨hboth.1, h other hother hboth.2⟩

/-- Rows of one table, each list in the order of the table: those that are all among the others stand
in the same order there. -/
theorem sublist_of_subset {first second : List α} (hfirst : first.Pairwise fun a b => key a < key b)
    (hsecond : second.Pairwise fun a b => key a < key b) (h : ∀ row ∈ first, row ∈ second) :
    first.Sublist second := by
  have hirrefl : Std.Irrefl fun a b : α => key a < key b := ⟨fun a => lt_irrefl _⟩
  have hasymm : Std.Antisymm fun a b : α => key a < key b :=
    ⟨fun a b hab hba => absurd (lt_trans hab hba) (lt_irrefl _)⟩
  exact List.sublist_of_subperm_of_pairwise (List.subperm_of_subset hfirst.nodup h) hfirst hsecond

end SortedPage
