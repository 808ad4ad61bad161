import Mathlib.Algebra.Group.Int.Defs
import Mathlib.Algebra.Group.Nat.Defs
import AtriumVerified.Lib.Text

/-!
# JSON values and schema validation

The part of a zod-like validator that the modelled schemas use. A schema reads one value, which may
be missing, and either returns the parsed value or the list of everything that is wrong with it; an
object schema reads all its fields before it reports, drops the keys it does not know, and applies
defaults to the keys that are missing. The issue texts are those of zod's English locale.
-/

namespace Js

/-- A finite number, as its shortest decimal `mantissa * 10 ^ -exponent`. Two doubles are ordered as
their shortest decimals are, since each decimal lies in the rounding interval of its double. -/
structure Number where
  /-- The digits, with the sign. -/
  mantissa : Int
  /-- How many of the digits stand after the decimal point. -/
  exponent : Nat
  deriving DecidableEq, Repr

namespace Number

/-- `a < b`. -/
def lt (a b : Number) : Bool := a.mantissa * 10 ^ b.exponent < b.mantissa * 10 ^ a.exponent

/-- `a <= b`. -/
def le (a b : Number) : Bool := a.mantissa * 10 ^ b.exponent ≤ b.mantissa * 10 ^ a.exponent

def ofInt (n : Int) : Number := ⟨n, 0⟩

/-- The decimal digits of the number, for a reader. -/
def text (a : Number) : String :=
  let sign := if a.mantissa < 0 then "-" else ""
  let whole := a.mantissa.natAbs / 10 ^ a.exponent
  let rest := toString (a.mantissa.natAbs % 10 ^ a.exponent)
  if a.exponent = 0 then sign ++ toString whole
  else
    sign ++ toString whole ++ "." ++ String.ofList (List.replicate (a.exponent - rest.length) '0') ++
      rest

end Number

inductive Json where
  | null
  | bool (value : Bool)
  | number (value : Number)
  | string (value : String)
  | array (items : List Json)
  | object (fields : List (String × Json))

mutual

/-- `String(value)`, or `none` where it throws: `toString` is asked before the text is written, and
nothing in a JSON value can be called. -/
def Json.display : Json → Option String
  | .null => some "null"
  | .bool value => some (if value then "true" else "false")
  | .number value => some value.text
  | .string value => some value
  | .array items => (displayItems items).map ",".intercalate
  | .object fields =>
    if "toString" ∈ fields.map Prod.fst then none else some "[object Object]"

/-- The elements of an array as `Array.prototype.join` prints them: `null` as nothing. -/
def displayItems : List Json → Option (List String)
  | [] => some []
  | .null :: rest => (displayItems rest).map ("" :: ·)
  | item :: rest => (Json.display item).bind fun text => (displayItems rest).map (text :: ·)

end

theorem displayItems_cons (item : Json) (rest : List Json) :
    displayItems (item :: rest) =
      ((match item with | .null => some "" | item => item.display).bind fun text =>
        (displayItems rest).map (text :: ·)) := by
  cases item with
  | null => rfl
  | _ =>
    rw [displayItems]
    rintro ⟨⟩

/-- An object with a `toString` of its own, or an array that holds one somewhere. -/
inductive Json.Textless : Json → Prop where
  | object {fields : List (String × Json)} (h : "toString" ∈ fields.map Prod.fst) :
      Textless (.object fields)
  | array {items : List Json} {item : Json} (hmem : item ∈ items) (h : Textless item) :
      Textless (.array items)

theorem displayItems_cons_eq_none (item : Json) (rest : List Json) :
    displayItems (item :: rest) = none ↔ item.display = none ∨ displayItems rest = none := by
  have hbind : ∀ text : Option String,
      (text.bind fun text => (displayItems rest).map (text :: ·)) = none ↔
        text = none ∨ displayItems rest = none := by
    intro text
    cases text <;> simp
  rw [displayItems_cons]
  cases item with
  | null => simp [Json.display]
  | _ => exact hbind _

mutual

theorem Json.display_eq_none : (value : Json) → (value.display = none ↔ value.Textless)
  | .null => by simpa [Json.display] using fun h => by cases h
  | .bool value => by simpa [Json.display] using fun h => by cases h
  | .number value => by simpa [Json.display] using fun h => by cases h
  | .string value => by simpa [Json.display] using fun h => by cases h
  | .array items => by
    rw [Json.display, Option.map_eq_none_iff, displayItems_eq_none items]
    constructor
    · rintro ⟨item, hmem, h⟩
      exact .array hmem h
    · rintro (_ | ⟨hmem, h⟩)
      exact ⟨_, hmem, h⟩
  | .object fields => by
    rw [Json.display]
    constructor
    · intro h
      by_contra hnot
      rw [if_neg fun hown => hnot (.object hown)] at h
      cases h
    · rintro (hown | _)
      exact if_pos hown

theorem displayItems_eq_none : (items : List Json) →
    (displayItems items = none ↔ ∃ item ∈ items, item.Textless)
  | [] => by simp [displayItems]
  | item :: rest => by
    rw [displayItems_cons_eq_none, item.display_eq_none, displayItems_eq_none rest]
    exact (List.exists_mem_cons_iff ..).symm

end

/-- A list of key-value pairs read as an object literal: the last pair of a key wins. -/
def lookupField (fields : List (String × Json)) (key : String) : Option Json :=
  (fields.reverse.find? fun field => field.1 == key).map Prod.snd

/-- Of two literals written one behind the other, the second wins where it has the key. -/
theorem lookupField_append (first second : List (String × Json)) (key : String) :
    lookupField (first ++ second) key = (lookupField second key).or (lookupField first key) := by
  unfold lookupField
  rw [List.reverse_append, List.find?_append]
  cases second.reverse.find? fun field => field.1 == key with
  | none => rfl
  | some field => rfl

theorem lookupField_eq_none {fields : List (String × Json)} {key : String} :
    lookupField fields key = none ↔ key ∉ fields.map Prod.fst := by
  unfold lookupField
  rw [Option.map_eq_none_iff, List.find?_eq_none]
  constructor
  · intro h hmem
    obtain ⟨field, hfield, hkey⟩ := List.mem_map.mp hmem
    exact h field (List.mem_reverse.mpr hfield) (beq_iff_eq.mpr hkey)
  · intro h field hfield hkey
    exact h (List.mem_map.mpr ⟨field, List.mem_reverse.mp hfield, beq_iff_eq.mp hkey⟩)

/-- The same value, but the keys of its objects may stand in another order. -/
inductive Json.Reordered : Json → Json → Prop where
  | same (value : Json) : Reordered value value
  | array {items items' : List Json} (hlength : items.length = items'.length)
      (hitems : ∀ (i : Nat) (item item' : Json), items[i]? = some item → items'[i]? = some item' →
        Reordered item item') :
      Reordered (.array items) (.array items')
  | object {fields fields' : List (String × Json)}
      (hkeys : ∀ key, lookupField fields key = none ↔ lookupField fields' key = none)
      (hvalues : ∀ (key : String) (value value' : Json), lookupField fields key = some value →
        lookupField fields' key = some value' → Reordered value value') :
      Reordered (.object fields) (.object fields')

/-- Only an array or an object can come back as another value. -/
theorem Json.Reordered.cases_kind {a b : Json} (h : Json.Reordered a b) :
    a = b ∨ (∃ items items', a = .array items ∧ b = .array items') ∨
      ∃ fields fields', a = .object fields ∧ b = .object fields' := by
  cases h with
  | same => exact Or.inl rfl
  | array hlength hitems => exact Or.inr (Or.inl ⟨_, _, rfl, rfl⟩)
  | object hkeys hvalues => exact Or.inr (Or.inr ⟨_, _, rfl, rfl⟩)

theorem displayItems_congr {items items' : List Json} (hlength : items.length = items'.length)
    (h : ∀ (i : Nat) (item item' : Json), items[i]? = some item → items'[i]? = some item' →
      Json.Reordered item item' ∧ item.display = item'.display) :
    displayItems items = displayItems items' := by
  induction items generalizing items' with
  | nil => rw [List.length_eq_zero_iff.mp hlength.symm]
  | cons item rest ih =>
    cases items' with
    | nil => cases hlength
    | cons item' rest' =>
      have hrest : displayItems rest = displayItems rest' := ih (Nat.succ.inj hlength)
        fun i a b ha hb => h (i + 1) a b (by simpa using ha) (by simpa using hb)
      obtain ⟨hsame, hdisplay⟩ := h 0 item item' rfl rfl
      rw [displayItems_cons, displayItems_cons, hrest]
      rcases hsame.cases_kind with rfl | ⟨_, _, rfl, rfl⟩ | ⟨_, _, rfl, rfl⟩
      · rfl
      · dsimp only
        rw [hdisplay]
      · dsimp only
        rw [hdisplay]

/-- The order of the keys does not show in the text. -/
theorem Json.Reordered.display {a b : Json} (h : Json.Reordered a b) : a.display = b.display := by
  induction h with
  | same => rfl
  | array hlength hitems ih =>
    rw [Json.display, Json.display,
      displayItems_congr hlength fun i a b ha hb => ⟨hitems i a b ha hb, ih i a b ha hb⟩]
  | object hkeys hvalues ih =>
    rw [Json.display, Json.display]
    have hown := hkeys "toString"
    rw [lookupField_eq_none, lookupField_eq_none, not_iff_not] at hown
    exact if_congr hown rfl rfl

/-- The two have the same keys, and under each of them the same value again. -/
theorem Json.Reordered.fields {fields fields' : List (String × Json)}
    (h : Json.Reordered (.object fields) (.object fields')) :
    (∀ key, lookupField fields key = none ↔ lookupField fields' key = none) ∧
      ∀ key value, lookupField fields key = some value →
        ∃ value', lookupField fields' key = some value' ∧ Json.Reordered value value' := by
  cases h with
  | same => exact ⟨fun _ => Iff.rfl, fun key value hvalue => ⟨value, hvalue, .same value⟩⟩
  | object hkeys hvalues =>
    refine ⟨hkeys, ?_⟩
    intro key value hvalue
    cases hvalue' : lookupField fields' key with
    | none =>
      rw [(hkeys key).mpr hvalue'] at hvalue
      cases hvalue
    | some value' => exact ⟨value', rfl, hvalues key value value' hvalue hvalue'⟩

/-- A permutation of the fields, where no key stands twice. -/
theorem Json.Reordered.of_perm {fields fields' : List (String × Json)} (h : fields.Perm fields')
    (hnodup : (fields.map Prod.fst).Nodup) : Json.Reordered (.object fields) (.object fields') := by
  have hmem : ∀ {fields : List (String × Json)} {key value}, lookupField fields key = some value →
      (key, value) ∈ fields := by
    intro fields key value hvalue
    obtain ⟨field, hfield, rfl⟩ := Option.map_eq_some_iff.mp hvalue
    have hkey : field.1 = key := by simpa using List.find?_some hfield
    rw [← hkey]
    exact List.mem_reverse.mp (List.mem_of_find?_eq_some hfield)
  refine .object ?_ ?_
  · intro key
    rw [lookupField_eq_none, lookupField_eq_none, (h.map Prod.fst).mem_iff]
  · intro key value value' hvalue hvalue'
    have hsame := List.inj_on_of_nodup_map hnodup (hmem hvalue) (h.mem_iff.mpr (hmem hvalue')) rfl
    cases hsame
    exact .same value

theorem Json.Reordered.append {first second second' : List (String × Json)}
    (h : Json.Reordered (.object second) (.object second')) :
    Json.Reordered (.object (first ++ second)) (.object (first ++ second')) := by
  obtain ⟨hkeys, hvalues⟩ := h.fields
  refine .object ?_ ?_
  · intro key
    rw [lookupField_append, lookupField_append, Option.or_eq_none_iff, Option.or_eq_none_iff,
      hkeys key]
  · intro key value value' hvalue hvalue'
    rw [lookupField_append] at hvalue hvalue'
    cases hsecond : lookupField second key with
    | none =>
      rw [hsecond, Option.none_or] at hvalue
      rw [(hkeys key).mp hsecond, Option.none_or, hvalue] at hvalue'
      cases hvalue'
      exact .same value
    | some held =>
      obtain ⟨held', hheld', hsame⟩ := hvalues key held hsecond
      rw [hsecond, Option.some_or] at hvalue
      rw [hheld', Option.some_or] at hvalue'
      cases hvalue
      cases hvalue'
      exact hsame

end Js

namespace Schema

open Js

/-- One thing that is wrong with a value, and where. -/
structure Issue where
  /-- The keys that lead to the value. -/
  path : List String
  /-- What is wrong. -/
  message : String
  deriving DecidableEq, Repr

abbrev Parsed (α : Type) := Except (List Issue) α

/-- A schema: `none` is a missing key. -/
abbrev Reader (α : Type) := Option Json → Parsed α

variable {α β γ : Type}

/-- Combine two results, keeping the issues of both. -/
def both (f : α → β → γ) : Parsed α → Parsed β → Parsed γ
  | .ok a, .ok b => .ok (f a b)
  | .ok _, .error e => .error e
  | .error e, .ok _ => .error e
  | .error e, .error e' => .error (e ++ e')

def received : Option Json → String
  | none => "undefined"
  | some .null => "null"
  | some (.bool _) => "boolean"
  | some (.number _) => "number"
  | some (.string _) => "string"
  | some (.array _) => "array"
  | some (.object _) => "object"

def wrongType (expected : String) (value : Option Json) : List Issue :=
  [⟨[], "Invalid input: expected " ++ expected ++ ", received " ++ received value⟩]

/-- A string that passes all of `checks`; each failing check gives its own issue. -/
def string (checks : List (String → Option String)) : Reader String
  | some (.string s) =>
    match checks.filterMap fun check => check s with
    | [] => .ok s
    | messages => .error (messages.map fun message => ⟨[], message⟩)
  | value => .error (wrongType "string" value)

/-- `.min(n)` on a string. -/
def minLength (n : Nat) (s : String) : Option String :=
  if utf16Length s < n then
    some ("Too small: expected string to have >=" ++ toString n ++ " characters")
  else none

/-- `.max(n)` on a string. -/
def maxLength (n : Nat) (s : String) : Option String :=
  if n < utf16Length s then
    some ("Too big: expected string to have <=" ++ toString n ++ " characters")
  else none

/-- `.regex(pattern, message)` on a string. -/
def pattern (accepts : String → Bool) (message : String) (s : String) : Option String :=
  if accepts s then none else some message

def enum (values : List (String × α)) (value : Option Json) : Parsed α :=
  match (match value with
    | some (.string s) => (values.find? fun (v : String × α) => v.1 == s).map Prod.snd
    | _ => none) with
  | some a => .ok a
  | none =>
    .error [⟨[], "Invalid option: expected one of " ++
      "|".intercalate (values.map fun (v : String × α) => "\"" ++ v.1 ++ "\"")⟩]

def nullable (schema : Reader α) : Reader (Option α)
  | some .null => .ok none
  | value => (schema value).map some

/-- `.default(value)`. -/
def withDefault (fallback : α) (schema : Reader α) : Reader α
  | none => .ok fallback
  | value => schema value

def field (fields : List (String × Json)) (key : String) (schema : Reader α) : Parsed α :=
  match schema (lookupField fields key) with
  | .ok a => .ok a
  | .error issues => .error (issues.map fun issue => { issue with path := key :: issue.path })

theorem both_eq_ok {f : α → β → γ} {first : Parsed α} {second : Parsed β} {value : γ} :
    both f first second = .ok value ↔ ∃ a b, first = .ok a ∧ second = .ok b ∧ f a b = value := by
  cases first with
  | error e => cases second <;> simp [both]
  | ok a => cases second <;> simp [both]

theorem field_eq_ok {fields : List (String × Json)} {key : String} {schema : Reader α} {a : α} :
    field fields key schema = .ok a ↔ schema (lookupField fields key) = .ok a := by
  unfold field
  cases schema (lookupField fields key) with
  | ok b => simp
  | error issues => simp

/-! ## The order of keys -/

/-- A schema that does not look into arrays and objects. -/
def Flat (schema : Reader α) : Prop :=
  ∀ a b : Json, Json.Reordered a b → schema (some a) = schema (some b)

theorem flat_string (checks : List (String → Option String)) : Flat (string checks) := by
  intro a b h
  rcases h.cases_kind with rfl | ⟨_, _, rfl, rfl⟩ | ⟨_, _, rfl, rfl⟩
  · rfl
  · rfl
  · rfl

theorem flat_enum (values : List (String × α)) : Flat (enum values) := by
  intro a b h
  rcases h.cases_kind with rfl | ⟨_, _, rfl, rfl⟩ | ⟨_, _, rfl, rfl⟩
  · rfl
  · rfl
  · rfl

theorem Flat.nullable {schema : Reader α} (hflat : Flat schema) : Flat (nullable schema) := by
  intro a b h
  have hread := congrArg (Except.map some) (hflat a b h)
  rcases h.cases_kind with rfl | ⟨_, _, rfl, rfl⟩ | ⟨_, _, rfl, rfl⟩
  · rfl
  · exact hread
  · exact hread

theorem Flat.withDefault {schema : Reader α} (fallback : α) (hflat : Flat schema) :
    Flat (withDefault fallback schema) := hflat

/-- A field that is read flatly is the same whatever the order of the keys. -/
theorem Flat.field {schema : Reader α} (hflat : Flat schema) {fields fields' : List (String × Json)}
    (h : Json.Reordered (.object fields) (.object fields')) (key : String) :
    field fields key schema = field fields' key schema := by
  have hread : schema (lookupField fields key) = schema (lookupField fields' key) := by
    cases h with
    | same => rfl
    | object hkeys hvalues =>
      cases hvalue : lookupField fields key with
      | none => rw [(hkeys key).mp hvalue]
      | some value =>
        cases hvalue' : lookupField fields' key with
        | none => rw [(hkeys key).mpr hvalue'] at hvalue; cases hvalue
        | some value' => exact hflat value value' (hvalues key value value' hvalue hvalue')
  unfold Schema.field
  rw [hread]

/-- `path: message`, as the callers print an issue. -/
def describeIssue (issue : Issue) : String :=
  if issue.path.isEmpty then issue.message
  else ".".intercalate issue.path ++ ": " ++ issue.message

end Schema
