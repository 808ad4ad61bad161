import AtriumVerified.Lib.Schema

/-!
# Values that are written as JSON and read back

A codec writes the values of a type as JSON values and reads them back, as `JSON.stringify` and a
schema behind `JSON.parse` do. It says which values its schema admits, and proves that these come back
as they were. A value of a kind that the schema refuses is read as `none`.
-/

namespace Js

def maxSafeInteger : Nat := 2 ^ 53 - 1

structure Codec (α : Type) where
  write : α → Json
  read : Json → Option α
  /-- The values the schema admits. -/
  Admits : α → Prop
  read_write : ∀ a, Admits a → read (write a) = some a

namespace Codec

variable {α β : Type}

/-! ## Plain values -/

def string : Codec String where
  write := .string
  read
    | .string text => some text
    | _ => none
  Admits _ := True
  read_write _ _ := rfl

/-- `z.string().min(1)`. -/
def nonEmpty : Codec String where
  write := .string
  read
    | .string text => if text = "" then none else some text
    | _ => none
  Admits text := text ≠ ""
  read_write _ h := if_neg h

def boolean : Codec Bool where
  write := .bool
  read
    | .bool value => some value
    | _ => none
  Admits _ := True
  read_write _ _ := rfl

/-- `z.number().int().nonnegative()`: a safe integer. -/
def nat : Codec Nat where
  write n := .number (.ofInt n)
  read
    | .number ⟨.ofNat n, 0⟩ => if n ≤ maxSafeInteger then some n else none
    | _ => none
  Admits n := n ≤ maxSafeInteger
  read_write _ h := if_pos h

/-- `z.literal(n)`. -/
def literalNat (n : Nat) : Codec Unit where
  write _ := .number (.ofInt n)
  read
    | .number ⟨.ofNat m, 0⟩ => if m = n then some () else none
    | _ => none
  Admits _ := True
  read_write _ _ := if_pos rfl

/-- `z.enum(…)`, by the names of the values. -/
def enum (values : List α) (name : α → String)
    (hnamed : ∀ a, (values.find? fun other => name other == name a) = some a) : Codec α where
  write a := .string (name a)
  read
    | .string text => values.find? fun other => name other == text
    | _ => none
  Admits _ := True
  read_write a _ := hnamed a

/-! ## Arrays -/

def readAll (read : Json → Option α) : List Json → Option (List α)
  | [] => some []
  | item :: rest => do return (← read item) :: (← readAll read rest)

example (read : Json → Option α) : readAll read [] = some [] := by simp [readAll]

theorem readAll_map (codec : Codec α) {values : List α} (h : ∀ a ∈ values, codec.Admits a) :
    readAll codec.read (values.map codec.write) = some values := by
  induction values with
  | nil => rfl
  | cons a rest ih =>
    have hrest := ih fun b hb => h b (List.mem_cons_of_mem _ hb)
    rw [List.map_cons]
    unfold readAll
    rw [codec.read_write a (h a List.mem_cons_self), hrest]
    rfl

/-- `z.array(…)`. -/
def array (codec : Codec α) : Codec (List α) where
  write values := .array (values.map codec.write)
  read
    | .array items => readAll codec.read items
    | _ => none
  Admits values := ∀ a ∈ values, codec.Admits a
  read_write _ h := readAll_map codec h

/-- `z.tuple([…, …])`. -/
def pair (first : Codec α) (second : Codec β) : Codec (α × β) where
  write value := .array [first.write value.1, second.write value.2]
  read
    | .array [a, b] => do return (← first.read a, ← second.read b)
    | _ => none
  Admits value := first.Admits value.1 ∧ second.Admits value.2
  read_write value h := by
    show (do return (← first.read _, ← second.read _)) = _
    rw [first.read_write _ h.1, second.read_write _ h.2]
    rfl

/-! ## Objects -/

def required (codec : Codec α) (fields : List (String × Json)) (key : String) : Option α :=
  (lookupField fields key).bind codec.read

def optional (codec : Codec α) (fields : List (String × Json)) (key : String) : Option (Option α) :=
  match lookupField fields key with
  | none => some none
  | some value => (codec.read value).map some

def written (codec : Codec α) (key : String) (value : Option α) : List (String × Json) :=
  match value with
  | none => []
  | some a => [(key, codec.write a)]

/-- `z.object(…)`, by how its fields are written and read. -/
def object (write : α → List (String × Json)) (read : List (String × Json) → Option α)
    (Admits : α → Prop) (h : ∀ a, Admits a → read (write a) = some a) : Codec α where
  write a := .object (write a)
  read
    | .object fields => read fields
    | _ => none
  Admits
  read_write := h

theorem required_eq (codec : Codec α) {fields : List (String × Json)} {key : String} {a : α}
    (h : lookupField fields key = some (codec.write a)) (hadmits : codec.Admits a) :
    codec.required fields key = some a := by
  unfold required
  rw [h]
  exact codec.read_write a hadmits

theorem optional_eq (codec : Codec α) {fields : List (String × Json)} {key : String}
    {value : Option α} (h : lookupField fields key = value.map codec.write)
    (hadmits : ∀ a, value = some a → codec.Admits a) :
    codec.optional fields key = some value := by
  unfold optional
  rw [h]
  cases value with
  | none => rfl
  | some a => exact congrArg (Option.map some) (codec.read_write a (hadmits a rfl))

end Codec

end Js
