import AtriumVerified.Lib.Checked

/-!
# Programs that write a draft in place

A program reads and writes a draft. It may stop early, and what it has written by then stays in the
draft: nothing is rolled back. `ask` makes a check on the draft as it is and stops the program when the
check refuses, after `note` has recorded the reason; `write` changes the draft. `Settles` compares such
a program with a function that computes the next state, or refuses, without writing anything.
-/

open Checked

/-- A program over drafts `σ`: it raises, or leaves a draft with a value, or with none when it stopped
early. -/
def Draft (σ ε α : Type) : Type := σ → Except ε (Option α × σ)

namespace Draft

variable {σ ε α β : Type}

instance : Monad (Draft σ ε) where
  pure a state := .ok (some a, state)
  bind program next state :=
    match program state with
    | .error e => .error e
    | .ok (none, left) => .ok (none, left)
    | .ok (some a, left) => next a left

section Programs

variable (note : String → σ → σ) (raise : String → ε)

def settled (state : σ) : Except Stop α → Except ε (Option α × σ)
  | .ok a => .ok (some a, state)
  | .error (.refused reason) => .ok (none, note reason state)
  | .error (.raised reading) => .error (raise reading)

def ask (check : σ → Except Stop α) : Draft σ ε α := fun state =>
  settled note raise state (check state)

def write (change : σ → σ) : Draft σ ε Unit := fun state => .ok (some (), change state)

/-- Started on the state, the program does what the function says: the draft it leaves is the next
state, or the state with the refusal noted. -/
def Settles (program : Draft σ ε Unit) (state : σ) (result : Except Stop σ) : Prop :=
  program state =
    match result with
    | .ok next => .ok (some (), next)
    | .error (.refused reason) => .ok (none, note reason state)
    | .error (.raised reading) => .error (raise reading)

variable {note raise}

/-- A check before the writes. -/
theorem settles_ask {check : σ → Except Stop α} {program : α → Draft σ ε Unit} {state : σ}
    {result : α → Except Stop σ}
    (h : ∀ a, check state = .ok a → Settles note raise (program a) state (result a)) :
    Settles note raise (ask note raise check >>= program) state (check state >>= result) := by
  unfold Settles
  cases hcheck : check state with
  | ok a =>
    have hprogram := h a hcheck
    unfold Settles at hprogram
    simpa [bind, ask, settled, hcheck, Except.bind] using hprogram
  | error stop =>
    cases stop with
    | refused reason => simp [bind, ask, settled, hcheck, Except.bind]
    | raised reading => simp [bind, ask, settled, hcheck, Except.bind]

theorem settles_write {change : σ → σ} {state next : σ} (h : change state = next) :
    Settles note raise (write change) state (.ok next) := by
  unfold Settles write
  rw [h]

end Programs

end Draft
