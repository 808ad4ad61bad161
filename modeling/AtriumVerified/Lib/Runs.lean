import Mathlib.Data.List.Infix

/-!
# Runs of a system

A system takes one step for each label, or cannot take it. A run takes the steps of a list of labels
one after the other. What holds in every state of a run is proved from one step: an invariant that
every step keeps, or a property that a step keeps exactly when it meets a condition on the state
before it.
-/

namespace Runs

variable {σ α : Type} (step : σ → α → Option σ)

/-- Take the steps of a list one after the other. -/
def run (s : σ) : List α → Option σ
  | [] => some s
  | a :: rest => (step s a).bind fun next => run next rest

/-- Every step of a run is allowed in the state it is taken in. -/
def Allowed (ok : σ → α → Prop) (s : σ) : List α → Prop
  | [] => True
  | a :: rest => ok s a ∧ ∀ next, step s a = some next → Allowed ok next rest

/-- What holds in every state that a run goes through. -/
def Throughout (P : σ → Prop) (s : σ) (steps : List α) : Prop :=
  ∀ before, before <+: steps → ∀ between, run step s before = some between → P between

variable {step} {s next last : σ} {a : α} {rest steps : List α} {ok : σ → α → Prop}
  {Inv Good P : σ → Prop}

theorem run_cons (h : step s a = some next) : run step s (a :: rest) = run step next rest := by
  rw [run, h]
  rfl

theorem run_append (first rest : List α) :
    run step s (first ++ rest) = (run step s first).bind fun next => run step next rest := by
  induction first generalizing s with
  | nil => rfl
  | cons a first ih =>
    rw [List.cons_append, run, run, Option.bind_assoc]
    exact Option.bind_congr fun next _ => ih

/-- An invariant of every step is one of every run. -/
theorem invariant (hstep : ∀ {s a next}, Inv s → step s a = some next → Inv next) (h : Inv s)
    (hrun : run step s steps = some last) : Inv last := by
  induction steps generalizing s with
  | nil =>
    cases hrun
    exact h
  | cons a rest ih =>
    obtain ⟨next, hnext, hrest⟩ := Option.bind_eq_some_iff.mp hrun
    exact ih (hstep h hnext) hrest

theorem Throughout.imp (h : Throughout step P s steps) (hle : ∀ {s}, P s → Good s) :
    Throughout step Good s steps :=
  fun before hbefore between hrun => hle (h before hbefore between hrun)

theorem throughout_nil : Throughout step P s [] ↔ P s := by
  constructor
  · intro h
    exact h [] (List.prefix_refl _) s rfl
  · intro h before hbefore between hrun
    rw [List.prefix_nil.mp hbefore] at hrun
    cases hrun
    exact h

/-- A run goes through its first state and those of the run behind its first step. -/
theorem throughout_cons (h : step s a = some next) :
    Throughout step P s (a :: rest) ↔ P s ∧ Throughout step P next rest := by
  constructor
  · intro hall
    refine ⟨hall [] List.nil_prefix s rfl, ?_⟩
    intro before hbefore between hrun
    refine hall (a :: before) (List.cons_prefix_cons.mpr ⟨rfl, hbefore⟩) between ?_
    rw [run_cons h]
    exact hrun
  · rintro ⟨hs, hrest⟩ before hbefore between hrun
    cases before with
    | nil =>
      cases hrun
      exact hs
    | cons b before =>
      obtain ⟨rfl, hshort⟩ := List.cons_prefix_cons.mp hbefore
      rw [run_cons h] at hrun
      exact hrest before hshort between hrun

theorem allowed_cons (h : step s a = some next) :
    Allowed step ok s (a :: rest) ↔ ok s a ∧ Allowed step ok next rest := by
  constructor
  · rintro ⟨hok, hrest⟩
    exact ⟨hok, hrest next h⟩
  · rintro ⟨hok, hrest⟩
    refine ⟨hok, ?_⟩
    intro other hother
    cases h.symm.trans hother
    exact hrest

variable (step) in
/-- Run the steps of a list, and check each of them. -/
def passes (check : σ → α → Bool) (s : σ) : List α → Bool
  | [] => true
  | a :: rest => check s a &&
    match step s a with
    | none => true
    | some next => passes check next rest

theorem allowed_of_passes {check : σ → α → Bool} (hcheck : ∀ s a, check s a = true → ok s a)
    (h : passes step check s steps = true) : Allowed step ok s steps := by
  induction steps generalizing s with
  | nil => trivial
  | cons a rest ih =>
    obtain ⟨ha, hrest⟩ := Bool.and_eq_true_iff.mp h
    refine ⟨hcheck s a ha, ?_⟩
    intro next hnext
    rw [hnext] at hrest
    exact ih hrest

theorem allowed_of_forall (h : ∀ a ∈ steps, ∀ s, ok s a) : Allowed step ok s steps := by
  induction steps generalizing s with
  | nil => trivial
  | cons a rest ih =>
    obtain ⟨hhead, htail⟩ := List.forall_mem_cons.mp h
    exact ⟨hhead s, fun _ _ => ih htail⟩

theorem Allowed.throughout (hallowed : Allowed step ok s steps) (h : Inv s)
    (hstep : ∀ {s a next}, Inv s → ok s a → step s a = some next → Inv next) :
    Throughout step Inv s steps := by
  induction steps generalizing s with
  | nil => exact throughout_nil.mpr h
  | cons a rest ih =>
    cases hnext : step s a with
    | none =>
      intro before hbefore between hrun
      cases before with
      | nil =>
        cases hrun
        exact h
      | cons b before =>
        obtain ⟨rfl, -⟩ := List.cons_prefix_cons.mp hbefore
        rw [run, hnext] at hrun
        cases hrun
    | some next =>
      obtain ⟨hok, hrest⟩ := hallowed
      rw [throughout_cons hnext]
      exact ⟨h, ih (hrest next hnext) (hstep h hok hnext)⟩

/-- Where a step keeps a property exactly when it is allowed, a run goes only through states that
have the property exactly when all of its steps are allowed. -/
theorem allowed_iff_throughout
    (hstep : ∀ {s a next}, Inv s → step s a = some next →
      Inv next ∧ (Good s → (ok s a ↔ Good next)))
    (h : Inv s) (hgood : Good s) (hrun : run step s steps = some last) :
    Allowed step ok s steps ↔ Throughout step Good s steps := by
  induction steps generalizing s with
  | nil => exact ⟨fun _ => throughout_nil.mpr hgood, fun _ => trivial⟩
  | cons a rest ih =>
    obtain ⟨next, hnext, hrest⟩ := Option.bind_eq_some_iff.mp hrun
    obtain ⟨hinv, hiff⟩ := hstep h hnext
    rw [allowed_cons hnext, throughout_cons hnext, hiff hgood]
    constructor
    · rintro ⟨hgoodNext, hallowed⟩
      exact ⟨hgood, (ih hinv hgoodNext hrest).mp hallowed⟩
    · rintro ⟨-, hall⟩
      have hgoodNext : Good next := hall [] List.nil_prefix next rfl
      exact ⟨hgoodNext, (ih hinv hgoodNext hrest).mpr hall⟩

/-- Where no step mends a property, a run that ends with it goes only through states that have
it. -/
theorem throughout_of_last
    (hstep : ∀ {s a next}, Inv s → step s a = some next → Inv next ∧ (Good next → Good s))
    (h : Inv s) (hrun : run step s steps = some last) (hlast : Good last) :
    Throughout step Good s steps := by
  induction steps generalizing s with
  | nil =>
    cases hrun
    exact throughout_nil.mpr hlast
  | cons a rest ih =>
    obtain ⟨next, hnext, hrest⟩ := Option.bind_eq_some_iff.mp hrun
    obtain ⟨hinv, hback⟩ := hstep h hnext
    have hall := ih hinv hrest
    rw [throughout_cons hnext]
    exact ⟨hback (hall [] List.nil_prefix next rfl), hall⟩

end Runs
