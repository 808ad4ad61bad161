import AtriumVerified.Lib.PlainObject

/-!
# Computations that may refuse or raise

A handler that checks its input either refuses it with a reason, which its caller records, or raises,
which ends the whole call. The lemmas at the end take a successful run of such a handler apart, one
check at a time.
-/

namespace Checked

open Js

inductive Stop where
  /-- It refused its input and said why. -/
  | refused (reason : String)
  /-- It read a property of `undefined`, or asked a value for a text it does not have. -/
  | raised (reading : String)
  deriving DecidableEq, Repr

variable {α β : Type}

def refuse (reason : String) : Except Stop α := .error (.refused reason)

def refuseIf (condition : Bool) (reason : String) : Except Stop Unit :=
  if condition then refuse reason else .ok ()

def refuseWith : Option String → Except Stop Unit
  | some reason => refuse reason
  | none => .ok ()

/-- `if (!slot) refuse`: an inherited property is truthy. -/
def refuseAbsent (slot : Slot α) (reason : String) : Except Stop Unit :=
  match slot with
  | .absent => refuse reason
  | _ => .ok ()

def stored (slot : Slot α) (reading : String) : Except Stop α :=
  match slot with
  | .own value => .ok value
  | _ => .error (.raised reading)

theorem bind_eq_ok {x : Except Stop α} {f : α → Except Stop β} {b : β} :
    x >>= f = .ok b ↔ ∃ a, x = .ok a ∧ f a = .ok b := by
  cases x with
  | error e => simp [bind, Except.bind]
  | ok a => simp [bind, Except.bind]

@[simp] theorem refuse_ne_ok {reason : String} {a : α} :
    (refuse reason : Except Stop α) = .ok a ↔ False := by
  simp [refuse]

@[simp] theorem refuseIf_eq_ok {condition : Bool} {reason : String} {u : Unit} :
    refuseIf condition reason = .ok u ↔ condition = false := by
  cases condition <;> simp [refuseIf]

@[simp] theorem refuseWith_eq_ok {reason : Option String} {u : Unit} :
    refuseWith reason = .ok u ↔ reason = none := by
  cases reason <;> simp [refuseWith]

@[simp] theorem refuseAbsent_eq_ok {slot : Slot α} {reason : String} {u : Unit} :
    refuseAbsent slot reason = .ok u ↔ slot ≠ .absent := by
  cases slot <;> simp [refuseAbsent]

@[simp] theorem stored_eq_ok {slot : Slot α} {reading : String} {value : α} :
    stored slot reading = .ok value ↔ slot = .own value := by
  cases slot <;> simp [stored]

/-! ## Computations that raise -/

theorem bind_eq_raised {x : Except Stop α} {f : α → Except Stop β} {reading : String} :
    x >>= f = .error (.raised reading) ↔
      x = .error (.raised reading) ∨ ∃ a, x = .ok a ∧ f a = .error (.raised reading) := by
  cases x with
  | error e => simp [bind, Except.bind]
  | ok a => simp [bind, Except.bind]

@[simp] theorem refuse_ne_raised {reason reading : String} :
    (refuse reason : Except Stop α) = .error (.raised reading) ↔ False := by
  simp [refuse]

@[simp] theorem refuseIf_ne_raised {condition : Bool} {reason reading : String} :
    refuseIf condition reason = .error (.raised reading) ↔ False := by
  cases condition <;> simp [refuseIf, refuse]

@[simp] theorem refuseWith_ne_raised {reason : Option String} {reading : String} :
    refuseWith reason = .error (.raised reading) ↔ False := by
  cases reason <;> simp [refuseWith, refuse]

/-! ## Computations that do not raise -/

def Returns (x : Except Stop α) : Prop := ∀ reading, x ≠ .error (.raised reading)

theorem returns_ok (a : α) : Returns (.ok a : Except Stop α) := by
  rintro reading ⟨⟩

theorem returns_refuse (reason : String) : Returns (refuse reason : Except Stop α) := by
  rintro reading ⟨⟩

theorem returns_refuseIf (condition : Bool) (reason : String) :
    Returns (refuseIf condition reason) := by
  unfold refuseIf
  split
  · exact returns_refuse reason
  · exact returns_ok ()

theorem returns_refuseWith (reason : Option String) : Returns (refuseWith reason) := by
  cases reason with
  | none => exact returns_ok ()
  | some reason => exact returns_refuse reason

theorem returns_refuseAbsent (slot : Slot α) (reason : String) :
    Returns (refuseAbsent slot reason) := by
  cases slot with
  | own value => exact returns_ok ()
  | inherited => exact returns_ok ()
  | absent => exact returns_refuse reason

/-- Reading through a slot does not raise when the slot is neither missing nor inherited. -/
theorem returns_stored {slot : Slot α} (reading : String) (hheld : slot ≠ .absent)
    (hown : slot ≠ .inherited) : Returns (stored slot reading) := by
  cases slot with
  | own value => exact returns_ok value
  | inherited => exact absurd rfl hown
  | absent => exact absurd rfl hheld

theorem returns_bind {x : Except Stop α} {f : α → Except Stop β} (hx : Returns x)
    (hf : ∀ a, x = .ok a → Returns (f a)) : Returns (x >>= f) := by
  cases x with
  | ok a => exact hf a rfl
  | error stop =>
    cases stop with
    | refused reason =>
      rintro reading ⟨⟩
    | raised reading => exact absurd rfl (hx reading)

end Checked
