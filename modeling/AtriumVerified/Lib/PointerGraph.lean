import Mathlib.Logic.Relation
import Mathlib.Logic.Function.Basic

/-!
# Graphs of single pointers

Every node has at most one outgoing pointer. Changing one pointer keeps such a graph acyclic exactly
when the new pointer does not lead back to the node it was changed at, and a list of changes keeps it
acyclic when that holds for each of them on the pointers the earlier ones left.
-/

namespace PointerGraph

variable {α : Type}

def Edge (ptr : α → Option α) (a b : α) : Prop := ptr a = some b

/-- Following the pointers from `a`, in any number of steps, leads to `b`. -/
def Leads (ptr : α → Option α) : α → α → Prop := Relation.ReflTransGen (Edge ptr)

/-- Following the pointers from a node never returns to it. -/
def Acyclic (ptr : α → Option α) : Prop := ∀ a, ¬ Relation.TransGen (Edge ptr) a a

theorem acyclic_none : Acyclic (fun _ : α => none) := by
  intro a h
  obtain ⟨b, hab, -⟩ := Relation.TransGen.head'_iff.mp h
  cases hab

/-! ## Pointers that follow live edges -/

/-- Every pointer names the source of an edge to its node, one that is live, and a node has no pointer
only when all its sources are dead. -/
structure Follows (ptr : α → Option α) (edge : α → α → Prop) (live : α → Prop) : Prop where
  named : ∀ t s, ptr t = some s → edge s t ∧ live s
  missing : ∀ t s, ptr t = none → edge s t → ¬ live s

section Follows

variable {ptr ptr' : α → Option α} {edge edge' : α → α → Prop} {live live' : α → Prop}

theorem Follows.none_iff (h : Follows ptr edge live) (t : α) :
    ptr t = none ↔ ∀ s, edge s t → ¬ live s := by
  constructor
  · intro hnone s
    exact h.missing t s hnone
  · intro hdead
    cases hptr : ptr t with
    | none => rfl
    | some s =>
      obtain ⟨hedge, hlive⟩ := h.named t s hptr
      exact absurd hlive (hdead s hedge)

/-- Only the liveness of sources of edges matters. -/
theorem Follows.congr (h : Follows ptr edge live) (hptr : ptr' = ptr)
    (hedge : ∀ s t, edge' s t ↔ edge s t) (hlive : ∀ s t, edge s t → (live' s ↔ live s)) :
    Follows ptr' edge' live' where
  named := by
    intro t s hs
    rw [hptr] at hs
    obtain ⟨he, hl⟩ := h.named t s hs
    exact ⟨(hedge s t).mpr he, (hlive s t he).mpr hl⟩
  missing := by
    intro t s hnone he hl
    rw [hptr] at hnone
    have hold : edge s t := (hedge s t).mp he
    exact h.missing t s hnone hold ((hlive s t hold).mp hl)

/-- A node dies, and what pointed at it falls back to another live source, or to none. -/
theorem Follows.release (h : Follows ptr edge live) {x : α} {fallback : α → Option α}
    (hsome : ∀ t s, fallback t = some s → s ≠ x ∧ edge s t ∧ live s)
    (hnone : ∀ t s, fallback t = none → s ≠ x → edge s t → ¬ live s)
    (hmoved : ∀ t, ptr t = some x → ptr' t = fallback t)
    (hkept : ∀ t, ptr t ≠ some x → ptr' t = ptr t)
    (hlive : ∀ s, live' s ↔ live s ∧ s ≠ x) : Follows ptr' edge live' where
  named := by
    intro t s hs
    by_cases hx : ptr t = some x
    · rw [hmoved t hx] at hs
      obtain ⟨hne, hedge, hsource⟩ := hsome t s hs
      exact ⟨hedge, (hlive s).mpr ⟨hsource, hne⟩⟩
    · rw [hkept t hx] at hs
      obtain ⟨hedge, hsource⟩ := h.named t s hs
      refine ⟨hedge, (hlive s).mpr ⟨hsource, ?_⟩⟩
      rintro rfl
      exact hx hs
  missing := by
    intro t s ht hedge hsource
    obtain ⟨hs, hne⟩ := (hlive s).mp hsource
    by_cases hx : ptr t = some x
    · rw [hmoved t hx] at ht
      exact hnone t s ht hne hedge hs
    · rw [hkept t hx] at ht
      exact h.missing t s ht hedge hs

/-- A dead node comes back, and takes the nodes it has an edge to and that have no pointer. -/
theorem Follows.reapply (h : Follows ptr edge live) {x : α} (hdead : ¬ live x)
    (htaken : ∀ t, ptr t = none → edge x t → ptr' t = some x)
    (hkept : ∀ t, ¬ (ptr t = none ∧ edge x t) → ptr' t = ptr t)
    (hlive : ∀ s, live' s ↔ live s ∨ s = x) : Follows ptr' edge live' where
  named := by
    intro t s hs
    by_cases hx : ptr t = none ∧ edge x t
    · rw [htaken t hx.1 hx.2] at hs
      cases hs
      exact ⟨hx.2, (hlive x).mpr (Or.inr rfl)⟩
    · rw [hkept t hx] at hs
      obtain ⟨hedge, hsource⟩ := h.named t s hs
      exact ⟨hedge, (hlive s).mpr (Or.inl hsource)⟩
  missing := by
    intro t s ht hedge hsource
    by_cases hx : ptr t = none ∧ edge x t
    · rw [htaken t hx.1 hx.2] at ht
      cases ht
    · rw [hkept t hx] at ht
      rcases (hlive s).mp hsource with hs | rfl
      · exact h.missing t s ht hedge hs
      · exact hx ⟨ht, hedge⟩

end Follows

variable [DecidableEq α]

/-- A new edge from a live node, to a node without a pointer, sets the pointer. -/
theorem Follows.add {ptr : α → Option α} {edge edge' : α → α → Prop} {live : α → Prop}
    (h : Follows ptr edge live) {x y : α} (hlive : live x)
    (hedge : ∀ s t, edge' s t ↔ edge s t ∨ (s = x ∧ t = y)) :
    Follows (Function.update ptr y (some x)) edge' live where
  named := by
    intro t s hs
    by_cases ht : t = y
    · rw [ht, Function.update_self] at hs
      cases hs
      exact ⟨(hedge x t).mpr (Or.inr ⟨rfl, ht⟩), hlive⟩
    · rw [Function.update_of_ne ht] at hs
      obtain ⟨hold, hsource⟩ := h.named t s hs
      exact ⟨(hedge s t).mpr (Or.inl hold), hsource⟩
  missing := by
    intro t s hnone hs
    by_cases ht : t = y
    · rw [ht, Function.update_self] at hnone
      cases hnone
    · rw [Function.update_of_ne ht] at hnone
      rcases (hedge s t).mp hs with hold | ⟨-, hy⟩
      · exact h.missing t s hnone hold
      · exact absurd hy ht

/-! ## Changing a pointer -/

/-- An edge that does not start at `t` survives a change of the pointer at `t`. -/
theorem edge_of_update {ptr : α → Option α} {t : α} {new : Option α} {a b : α} (hat : a ≠ t)
    (h : Edge (Function.update ptr t new) a b) : Edge ptr a b := by
  unfold Edge at h ⊢
  rwa [Function.update_of_ne hat] at h

/-- A path after a change of the pointer at `t` is an old path, or has an old beginning that leads to
`t`. -/
theorem leads_of_update {ptr : α → Option α} {t : α} {new : Option α} {a b : α}
    (h : Leads (Function.update ptr t new) a b) : Leads ptr a b ∨ Leads ptr a t := by
  induction h using Relation.ReflTransGen.head_induction_on with
  | refl => exact Or.inl Relation.ReflTransGen.refl
  | @head a c hac _ ih =>
    by_cases hat : a = t
    · exact Or.inr (hat ▸ Relation.ReflTransGen.refl)
    · have hedge : Edge ptr a c := edge_of_update hat hac
      rcases ih with hcb | hct
      · exact Or.inl (Relation.ReflTransGen.head hedge hcb)
      · exact Or.inr (Relation.ReflTransGen.head hedge hct)

/-- A proper path after a change of the pointer at `t` is an old one, or an old path to `t` followed
by the new pointer. -/
theorem trans_of_update {ptr : α → Option α} {t : α} {new : Option α} {a b : α}
    (h : Relation.TransGen (Edge (Function.update ptr t new)) a b) :
    Relation.TransGen (Edge ptr) a b ∨
      ∃ s, new = some s ∧ Leads ptr a t ∧ Leads (Function.update ptr t new) s b := by
  have hstart : ∀ {c}, Edge (Function.update ptr t new) t c → new = some c := by
    intro c hc
    unfold Edge at hc
    rwa [Function.update_self] at hc
  induction h using Relation.TransGen.head_induction_on with
  | @single a hab =>
    by_cases hat : a = t
    · subst hat
      exact Or.inr ⟨b, hstart hab, Relation.ReflTransGen.refl, Relation.ReflTransGen.refl⟩
    · exact Or.inl (Relation.TransGen.single (edge_of_update hat hab))
  | @head a c hac hcb ih =>
    by_cases hat : a = t
    · subst hat
      exact Or.inr ⟨c, hstart hac, Relation.ReflTransGen.refl, hcb.to_reflTransGen⟩
    · have hedge : Edge ptr a c := edge_of_update hat hac
      rcases ih with hold | ⟨s, hs, hct, hsb⟩
      · exact Or.inl (Relation.TransGen.head hedge hold)
      · exact Or.inr ⟨s, hs, Relation.ReflTransGen.head hedge hct, hsb⟩

/-- Dropping a pointer, or changing it to a node that does not lead back, closes no cycle. -/
theorem acyclic_update {ptr : α → Option α} (hptr : Acyclic ptr) {t : α} {new : Option α}
    (hnew : ∀ s, new = some s → ¬ Leads ptr s t) : Acyclic (Function.update ptr t new) := by
  intro a ha
  rcases trans_of_update ha with hold | ⟨s, hs, hat, hsa⟩
  · exact hptr a hold
  · rcases leads_of_update hsa with h | h
    · exact hnew s hs (Relation.ReflTransGen.trans h hat)
    · exact hnew s hs h

/-! ## Lists of changes -/

def changeAll (ptr : α → Option α) : List (α × Option α) → α → Option α
  | [] => ptr
  | (t, new) :: rest => changeAll (Function.update ptr t new) rest

/-- Each change of a list sets a pointer that does not lead back to where it is set, on the pointers
the earlier changes left. -/
def Clear (ptr : α → Option α) : List (α × Option α) → Prop
  | [] => True
  | (t, new) :: rest =>
    (∀ s, new = some s → ¬ Leads ptr s t) ∧ Clear (Function.update ptr t new) rest

theorem acyclic_changeAll {ptr : α → Option α} {changes : List (α × Option α)}
    (hptr : Acyclic ptr) (hclear : Clear ptr changes) : Acyclic (changeAll ptr changes) := by
  induction changes generalizing ptr with
  | nil => exact hptr
  | cons change rest ih =>
    obtain ⟨t, new⟩ := change
    obtain ⟨hnew, hrest⟩ := hclear
    exact ih (acyclic_update hptr hnew) hrest

end PointerGraph
