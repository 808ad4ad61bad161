import Mathlib.Init

/-!
# Computations that may fail

What a computation that succeeds consists of.
-/

namespace Except

variable {ε α β : Type}

/-- A sequence that succeeds succeeds in both of its parts. -/
theorem bind_ok {x : Except ε α} {f : α → Except ε β} {b : β} (h : (x >>= f) = .ok b) :
    ∃ a, x = .ok a ∧ f a = .ok b := by
  cases x with
  | error reason => cases h
  | ok a => exact ⟨a, rfl, h⟩

/-- A result that is mapped. -/
theorem map_eq_ok_iff {f : α → β} {x : Except ε α} {b : β} :
    x.map f = .ok b ↔ ∃ a, x = .ok a ∧ f a = b := by
  cases x with
  | error reason => simp [Except.map]
  | ok a => simp [Except.map]

/-- A loop that succeeds succeeds in its first pass and in the rest. -/
theorem mapM_cons_ok {f : α → Except ε β} {a : α} {l : List α} {out : List β}
    (h : (a :: l).mapM f = .ok out) : ∃ b bs, f a = .ok b ∧ l.mapM f = .ok bs ∧ out = b :: bs := by
  rw [List.mapM_cons] at h
  obtain ⟨b, hb, h⟩ := bind_ok h
  obtain ⟨bs, hbs, h⟩ := bind_ok h
  cases h
  exact ⟨b, bs, hb, hbs, rfl⟩

/-- The results of a loop that may raise are those of its passes. -/
theorem mem_of_mapM {f : α → Except ε β} {l : List α} {out : List β} (h : l.mapM f = .ok out) :
    (∀ b ∈ out, ∃ a ∈ l, f a = .ok b) ∧ ∀ a ∈ l, ∃ b ∈ out, f a = .ok b := by
  induction l generalizing out with
  | nil =>
    cases h
    simp
  | cons first rest ih =>
    obtain ⟨b, bs, hfirst, hrest, rfl⟩ := mapM_cons_ok h
    obtain ⟨hfrom, hto⟩ := ih hrest
    refine ⟨?_, ?_⟩
    · intro c hc
      rcases List.mem_cons.mp hc with rfl | hc
      · exact ⟨first, List.mem_cons_self, hfirst⟩
      · obtain ⟨a, ha, hfa⟩ := hfrom c hc
        exact ⟨a, List.mem_cons_of_mem _ ha, hfa⟩
    · intro a ha
      rcases List.mem_cons.mp ha with rfl | ha
      · exact ⟨b, List.mem_cons_self, hfirst⟩
      · obtain ⟨c, hc, hfa⟩ := hto a ha
        exact ⟨c, List.mem_cons_of_mem _ hc, hfa⟩

/-- A loop succeeds when all of its passes do. -/
theorem exists_mapM_ok {f : α → Except ε β} {l : List α} (h : ∀ a ∈ l, ∃ b, f a = .ok b) :
    ∃ out, l.mapM f = .ok out := by
  induction l with
  | nil => exact ⟨[], rfl⟩
  | cons first rest ih =>
    obtain ⟨b, hb⟩ := h first List.mem_cons_self
    obtain ⟨bs, hbs⟩ := ih fun a ha => h a (List.mem_cons_of_mem _ ha)
    refine ⟨b :: bs, ?_⟩
    rw [List.mapM_cons, hb, hbs]
    rfl

end Except
