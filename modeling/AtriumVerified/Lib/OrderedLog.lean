import Mathlib.Data.List.Basic
import Mathlib.Data.List.Nodup

/-!
# Logs behind a position gate

A consumer takes the entries of a log one at a time. Its gate lets an entry through only when the
entry's position lies strictly after everything taken so far and its identifier is fresh; what does
not pass leaves the state alone. Whatever arrives, in whatever order, the entries taken are strictly
increasing, and offering exactly them again from the start goes through the same states.
-/

structure OrderedLog (σ ε κ ι err : Type) where
  /-- Offer one entry: whether it was taken, and the next state. -/
  offer : σ → ε → Except err (Bool × σ)
  /-- The position of the last entry taken. -/
  cursor : σ → Option κ
  /-- The identifiers taken so far. -/
  spent : σ → List ι
  /-- The position of an entry. -/
  position : ε → κ
  /-- The identifier of an entry. -/
  ident : ε → ι
  /-- The strict order of positions. -/
  before : κ → κ → Prop
  before_trans : ∀ {a b c}, before a b → before b c → before a c
  /-- What is taken comes after the cursor, is fresh, and moves the cursor. -/
  taken : ∀ {s e s'}, offer s e = .ok (true, s') →
    (∀ c, cursor s = some c → before c (position e)) ∧ ident e ∉ spent s ∧
      cursor s' = some (position e) ∧ spent s' = spent s ++ [ident e]
  /-- What is not taken changes nothing. -/
  passed : ∀ {s e s'}, offer s e = .ok (false, s') → s' = s

namespace OrderedLog

variable {σ ε κ ι err : Type} (log : OrderedLog σ ε κ ι err)

/-- Offer a list of entries, keeping the state when an offer raises: the final state and the entries
taken. -/
def live : σ → List ε → σ × List ε
  | s, [] => (s, [])
  | s, e :: rest =>
    match log.offer s e with
    | .error _ => live s rest
    | .ok (false, next) => live next rest
    | .ok (true, next) =>
      let (last, entries) := live next rest
      (last, e :: entries)

example (s : σ) : log.live s [] = (s, []) := by
  unfold live
  rfl

/-- Offer a list of entries where every one has to be taken. -/
def replay : σ → List ε → Option σ
  | s, [] => some s
  | s, e :: rest =>
    match log.offer s e with
    | .ok (true, next) => replay next rest
    | _ => none

/-- Replaying what was taken goes through the same states. -/
theorem replay_live (s : σ) (entries : List ε) :
    log.replay s (log.live s entries).2 = some (log.live s entries).1 := by
  induction entries generalizing s with
  | nil => rfl
  | cons e rest ih =>
    unfold live
    split
    · exact ih s
    · rename_i next h
      obtain rfl := log.passed h
      exact ih next
    · rename_i next h
      simp only [replay, h]
      exact ih next

/-- Everything taken lies after the cursor the run started from. -/
theorem live_after_cursor {s : σ} {c : κ} (hc : log.cursor s = some c) (entries : List ε) :
    ∀ e ∈ (log.live s entries).2, log.before c (log.position e) := by
  induction entries generalizing s c with
  | nil => simp [live]
  | cons e rest ih =>
    unfold live
    split
    · exact ih hc
    · rename_i next h
      obtain rfl := log.passed h
      exact ih hc
    · rename_i next h
      obtain ⟨hafter, -, hcursor, -⟩ := log.taken h
      have hce : log.before c (log.position e) := hafter c hc
      intro e' he'
      rcases List.mem_cons.mp he' with rfl | he'
      · exact hce
      · exact log.before_trans hce (ih hcursor e' he')

theorem live_increasing (s : σ) (entries : List ε) :
    (log.live s entries).2.Pairwise fun a b => log.before (log.position a) (log.position b) := by
  induction entries generalizing s with
  | nil => simp [live]
  | cons e rest ih =>
    unfold live
    split
    · exact ih s
    · exact ih _
    · rename_i next h
      obtain ⟨-, -, hcursor, -⟩ := log.taken h
      exact List.pairwise_cons.mpr ⟨log.live_after_cursor hcursor rest, ih next⟩

/-- The identifiers taken are distinct, from each other and from those spent before. -/
theorem live_fresh {s : σ} (hs : (log.spent s).Nodup) (entries : List ε) :
    (log.spent s ++ (log.live s entries).2.map log.ident).Nodup := by
  induction entries generalizing s with
  | nil => simpa [live] using hs
  | cons e rest ih =>
    unfold live
    split
    · exact ih hs
    · rename_i next h
      obtain rfl := log.passed h
      exact ih hs
    · rename_i next h
      obtain ⟨-, hfresh, -, hspent⟩ := log.taken h
      have hnext : (log.spent next).Nodup := by
        rw [hspent]
        exact List.nodup_append.mpr ⟨hs, List.nodup_singleton _, by
          rintro a ha b hb rfl
          exact hfresh (List.mem_singleton.mp hb ▸ ha)⟩
      have hrest := ih hnext
      rw [hspent] at hrest
      simpa using hrest

theorem live_append (s : σ) (first rest : List ε) :
    log.live s (first ++ rest) = ((log.live (log.live s first).1 rest).1,
      (log.live s first).2 ++ (log.live (log.live s first).1 rest).2) := by
  induction first generalizing s with
  | nil => rfl
  | cons e first ih =>
    rw [List.cons_append, live, live]
    cases log.offer s e with
    | error _ => exact ih s
    | ok result =>
      obtain ⟨wasTaken, next⟩ := result
      cases wasTaken with
      | false => exact ih next
      | true =>
        dsimp only
        rw [ih next]
        rfl

theorem spent_live (s : σ) (entries : List ε) :
    log.spent (log.live s entries).1 = log.spent s ++ (log.live s entries).2.map log.ident := by
  induction entries generalizing s with
  | nil => exact (List.append_nil _).symm
  | cons e rest ih =>
    unfold live
    split
    · exact ih s
    · rename_i next h
      obtain rfl := log.passed h
      exact ih next
    · rename_i next h
      obtain ⟨-, -, -, hspent⟩ := log.taken h
      rw [ih next, hspent, List.append_assoc]
      rfl

theorem live_redelivered {s : σ} {again : List ε} (h : ∀ e ∈ again, log.ident e ∈ log.spent s) :
    log.live s again = (s, []) := by
  induction again with
  | nil => rfl
  | cons e rest ih =>
    obtain ⟨hspent, hrest⟩ := List.forall_mem_cons.mp h
    unfold live
    split
    · exact ih hrest
    · rename_i next hoffer
      obtain rfl := log.passed hoffer
      exact ih hrest
    · rename_i next hoffer
      exact absurd hspent (log.taken hoffer).2.1

theorem live_insert_redelivered {s : σ} {first again : List ε} (rest : List ε)
    (h : ∀ e ∈ again, ∃ held ∈ (log.live s first).2, log.ident held = log.ident e) :
    log.live s (first ++ again ++ rest) = log.live s (first ++ rest) := by
  have hagain : log.live (log.live s first).1 again = ((log.live s first).1, []) := by
    refine log.live_redelivered fun e he => ?_
    obtain ⟨held, hheld, hident⟩ := h e he
    rw [spent_live, ← hident]
    exact List.mem_append_right _ (List.mem_map_of_mem hheld)
  rw [live_append, log.live_append s first again, log.live_append s first rest, hagain,
    List.append_nil]

end OrderedLog

/-! ## Sorting a log

A log is brought into order by a stable sort. Where rows that compare equal are one row, the order of
the rows does not matter; and a log whose first part lies before its second is sorted part by part,
even where rows compare equal. -/

namespace OrderedLog

section Sorting

variable {α : Type} {le : α → α → Bool}

/-- Sorting forgets the order of the rows, where rows that compare equal are identical. -/
theorem mergeSort_eq_of_perm (htrans : ∀ a b c, le a b → le b c → le a c)
    (htotal : ∀ a b, le a b || le b a) {first second : List α} (hperm : first.Perm second)
    (hsame : ∀ a ∈ first, ∀ b ∈ first, le a b → le b a → a = b) :
    first.mergeSort le = second.mergeSort le := by
  refine List.Perm.eq_of_pairwise ?_ (List.pairwise_mergeSort htrans htotal first)
    (List.pairwise_mergeSort htrans htotal second) ?_
  · intro a b ha hb hab hba
    have hb' : b ∈ first := hperm.mem_iff.mpr (List.mem_mergeSort.mp hb)
    exact hsame a (List.mem_mergeSort.mp ha) b hb' hab hba
  · exact ((List.mergeSort_perm first le).trans hperm).trans (List.mergeSort_perm second le).symm

/-- A list splits in one way into a part without a property and a part with it. -/
theorem split_unique {p : α → Bool} {l₁ l₂ m₁ m₂ : List α} (h : l₁ ++ l₂ = m₁ ++ m₂)
    (hl₁ : ∀ a ∈ l₁, p a = false) (hl₂ : ∀ a ∈ l₂, p a = true) (hm₁ : ∀ a ∈ m₁, p a = false)
    (hm₂ : ∀ a ∈ m₂, p a = true) : l₁ = m₁ ∧ l₂ = m₂ := by
  have hsplit : ∀ {u v : List α}, (∀ a ∈ u, p a = false) → (∀ a ∈ v, p a = true) →
      (u ++ v).filter (fun a => !p a) = u ∧ (u ++ v).filter p = v := by
    intro u v hu hv
    rw [List.filter_append, List.filter_append]
    have hu' : u.filter (fun a => !p a) = u := List.filter_eq_self.mpr fun a ha => by simp [hu a ha]
    have hv' : v.filter (fun a => !p a) = [] :=
      List.filter_eq_nil_iff.mpr fun a ha => by simp [hv a ha]
    have hu'' : u.filter p = [] := List.filter_eq_nil_iff.mpr fun a ha => by simp [hu a ha]
    have hv'' : v.filter p = v := List.filter_eq_self.mpr hv
    rw [hu', hv', hu'', hv'']
    exact ⟨List.append_nil u, List.nil_append v⟩
  obtain ⟨hleft, hright⟩ := hsplit hl₁ hl₂
  obtain ⟨hleft', hright'⟩ := hsplit hm₁ hm₂
  rw [h] at hleft hright
  exact ⟨hleft.symm.trans hleft', hright.symm.trans hright'⟩

/-- A log whose first part lies before its second is sorted part by part. -/
theorem mergeSort_append (htrans : ∀ a b c, le a b → le b c → le a c)
    (htotal : ∀ a b, le a b || le b a) {first second : List α}
    (hbefore : ∀ a ∈ first, ∀ b ∈ second, le a b) :
    (first ++ second).mergeSort le = first.mergeSort le ++ second.mergeSort le := by
  induction first with
  | nil => simp
  | cons a rest ih =>
    have hrest := ih fun c hc => hbefore c (List.mem_cons_of_mem a hc)
    -- both sides put `a` before the first row that is not before it
    obtain ⟨l₁, l₂, hwhole, hwhole', hl₁⟩ := List.mergeSort_cons htrans htotal a (rest ++ second)
    obtain ⟨m₁, m₂, hpart, hpart', hm₁⟩ := List.mergeSort_cons htrans htotal a rest
    have hl₂ : ∀ b ∈ l₂, le a b = true := by
      have hsorted := List.pairwise_mergeSort htrans htotal (a :: (rest ++ second))
      rw [hwhole, List.pairwise_append, List.pairwise_cons] at hsorted
      exact hsorted.2.1.1
    have hm₂ : ∀ b ∈ m₂, le a b = true := by
      have hsorted := List.pairwise_mergeSort htrans htotal (a :: rest)
      rw [hpart, List.pairwise_append, List.pairwise_cons] at hsorted
      exact hsorted.2.1.1
    have hsame : l₁ ++ l₂ = m₁ ++ (m₂ ++ second.mergeSort le) := by
      rw [← hwhole', hrest, hpart', List.append_assoc]
    have hlater : ∀ b ∈ m₂ ++ second.mergeSort le, le a b = true := by
      intro b hb
      rcases List.mem_append.mp hb with hb | hb
      · exact hm₂ b hb
      · exact hbefore a List.mem_cons_self b (List.mem_mergeSort.mp hb)
    obtain ⟨rfl, rfl⟩ := split_unique hsame (fun b hb => by simpa using hl₁ b hb) hl₂
      (fun b hb => by simpa using hm₁ b hb) hlater
    rw [List.cons_append, hwhole, hpart]
    simp

end Sorting

end OrderedLog
