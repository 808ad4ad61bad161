import Mathlib.Data.List.AList

/-!
# Plain JavaScript objects used as maps

A JavaScript object literal that is indexed by strings is not a map: a key that was never written
still reads as something when `Object.prototype` has a property of that name, and writing the key
`__proto__` changes the prototype instead of adding a property. `PlainObject` keeps the own
properties, and `get` reports which of the three answers a read gives.
-/

namespace Js

/-- What reading one key of a plain object gives. -/
inductive Slot (α : Type) where
  /-- The object has the property itself. -/
  | own (value : α)
  /-- The object does not have it, but `Object.prototype` does: a function or an object, hence
  truthy, with none of the properties of a stored record. -/
  | inherited
  /-- `undefined`. -/
  | absent
  deriving DecidableEq, Repr

/-- The property names of `Object.prototype`. -/
def prototypeKeys : List String :=
  ["constructor", "__defineGetter__", "__defineSetter__", "hasOwnProperty", "__lookupGetter__",
    "__lookupSetter__", "isPrototypeOf", "propertyIsEnumerable", "toString", "valueOf", "__proto__",
    "toLocaleString"]

/-- The own properties of a plain object. `__proto__` is never one of them: assigning it goes to the
accessor on `Object.prototype`. -/
structure PlainObject (α : Type) where
  /-- The own properties. -/
  entries : AList (fun _ : String => α)
  /-- No own property is called `__proto__`. -/
  proto_free : "__proto__" ∉ entries

namespace PlainObject

variable {α β : Type}

/-- The object literal `{}`. -/
def empty : PlainObject α := ⟨∅, AList.notMem_empty _⟩

/-- The own property `key`, if there is one (`Object.hasOwn` and a read). -/
def own? (o : PlainObject α) (key : String) : Option α := o.entries.lookup key

/-- `object[key]`. -/
def get (o : PlainObject α) (key : String) : Slot α :=
  match o.own? key with
  | some value => .own value
  | none => if key ∈ prototypeKeys then .inherited else .absent

/-- `object[key] = value`. -/
def set (o : PlainObject α) (key : String) (value : α) : PlainObject α :=
  if h : key = "__proto__" then o
  else ⟨o.entries.insert key value, by
    rw [AList.mem_insert]
    rintro (h' | h')
    · exact h h'.symm
    · exact o.proto_free h'⟩

/-- The names of the own properties (`Object.keys`, up to order). -/
def keys (o : PlainObject α) : List String := o.entries.keys

@[simp] theorem own?_empty (key : String) : (empty : PlainObject α).own? key = none :=
  AList.lookup_empty key

/-- The `__proto__` slot is never an own property. -/
@[simp] theorem own?_proto (o : PlainObject α) : o.own? "__proto__" = none :=
  AList.lookup_eq_none.mpr o.proto_free

theorem own?_set (o : PlainObject α) (key : String) (value : α) (h : key ≠ "__proto__")
    (k : String) : (o.set key value).own? k = if k = key then some value else o.own? k := by
  unfold set own?
  rw [dif_neg h]
  split
  · rename_i hk
    rw [hk]
    exact AList.lookup_insert _
  · rename_i hk
    exact AList.lookup_insert_ne hk

/-- Overwriting an own property never meets the `__proto__` accessor. -/
theorem ne_proto_of_own {o : PlainObject α} {key : String} {value : α}
    (h : o.own? key = some value) : key ≠ "__proto__" := by
  rintro rfl
  simp at h

theorem mem_keys {o : PlainObject α} {key : String} : key ∈ o.keys ↔ (o.own? key).isSome := by
  unfold keys own?
  rw [AList.lookup_isSome]
  exact AList.mem_keys.symm

theorem get_eq_own {o : PlainObject α} {key : String} {value : α} :
    o.get key = .own value ↔ o.own? key = some value := by
  unfold get
  cases h : o.own? key with
  | some v => simp
  | none => by_cases hk : key ∈ prototypeKeys <;> simp [hk]

/-- A key that reads as `undefined` is neither an own property nor one of `Object.prototype`. -/
theorem get_eq_absent {o : PlainObject α} {key : String} :
    o.get key = .absent ↔ o.own? key = none ∧ key ∉ prototypeKeys := by
  unfold get
  cases h : o.own? key with
  | some v => simp
  | none => by_cases hk : key ∈ prototypeKeys <;> simp [hk]

/-- A key reads as inherited when it is a property of `Object.prototype` and no own one. -/
theorem get_eq_inherited {o : PlainObject α} {key : String} :
    o.get key = .inherited ↔ o.own? key = none ∧ key ∈ prototypeKeys := by
  unfold get
  cases h : o.own? key with
  | some v => simp
  | none => by_cases hk : key ∈ prototypeKeys <;> simp [hk]

theorem ne_proto_of_absent {o : PlainObject α} {key : String} (h : o.get key = .absent) :
    key ≠ "__proto__" := by
  rintro rfl
  exact (get_eq_absent.mp h).2 (by decide)

end PlainObject

end Js
