import AtriumVerified.Lib.Schema

/-!
# Schemas of objects and arrays

The schemas that are made of others: optional and nullish values, arrays, integers, and objects,
where a strict one refuses the keys it does not know.
-/

namespace Schema

open Js

variable {α β : Type}

def optional (schema : Reader α) : Reader (Option α)
  | none => .ok none
  | value => (schema value).map some

def nullish (schema : Reader α) : Reader (Option α)
  | none => .ok none
  | some .null => .ok none
  | value => (schema value).map some

def under (key : String) (issues : List Issue) : List Issue :=
  issues.map fun issue => { issue with path := key :: issue.path }

def items (schema : Reader α) : Nat → List Json → Parsed (List α)
  | _, [] => .ok []
  | index, item :: rest =>
    both List.cons ((schema (some item)).mapError (under (toString index))) (items schema (index + 1) rest)

/-- `z.array(schema)`. -/
def array (schema : Reader α) : Reader (List α)
  | some (.array values) => items schema 0 values
  | value => .error (wrongType "array" value)

/-- `.min(n)` on an array. -/
def minItems (n : Nat) (schema : Reader (List α)) : Reader (List α) := fun value =>
  match schema value with
  | .ok values =>
    if values.length < n then
      .error [⟨[], "Too small: expected array to have >=" ++ toString n ++ " items"⟩]
    else .ok values
  | .error issues => .error issues

/-- `.max(n)` on an array. -/
def maxItems (n : Nat) (schema : Reader (List α)) : Reader (List α) := fun value =>
  match schema value with
  | .ok values =>
    if n < values.length then
      .error [⟨[], "Too big: expected array to have <=" ++ toString n ++ " items"⟩]
    else .ok values
  | .error issues => .error issues

def boolean : Reader Bool
  | some (.bool value) => .ok value
  | value => .error (wrongType "boolean" value)

/-- `z.number().int()`. -/
def integer : Reader Int
  | some (.number value) =>
    let n := value.mantissa / 10 ^ value.exponent
    if value.mantissa % 10 ^ value.exponent ≠ 0 then
      .error [⟨[], "Invalid input: expected int, received number"⟩]
    else if -(2 ^ 53) < n ∧ n < 2 ^ 53 then .ok n
    else if 0 < n then .error [⟨[], "Too big: expected int to be <=9007199254740991"⟩]
    else .error [⟨[], "Too small: expected int to be >=-9007199254740991"⟩]
  | value => .error (wrongType "number" value)

def nonnegative (schema : Reader Int) : Reader Nat := fun value =>
  match schema value with
  | .ok n => if n < 0 then .error [⟨[], "Too small: expected number to be >=0"⟩] else .ok n.toNat
  | .error issues => .error issues

/-- `z.object(shape)`, where `read` reads the shape in the properties. -/
def object (read : List (String × Json) → Parsed α) : Reader α
  | some (.object fields) => read fields
  | value => .error (wrongType "object" value)

/-- The issue of the keys that an object has and a shape has not. -/
def unrecognized (keys : List String) (fields : List (String × Json)) : Parsed Unit :=
  match (fields.map Prod.fst).dedup.filter fun key => !keys.contains key with
  | [] => .ok ()
  | [key] => .error [⟨[], "Unrecognized key: \"" ++ key ++ "\""⟩]
  | others => .error [⟨[], "Unrecognized keys: " ++
      ", ".intercalate (others.map fun key => "\"" ++ key ++ "\"")⟩]

/-- `z.strictObject(shape)`. -/
def strictObject (keys : List String) (read : List (String × Json) → Parsed α) : Reader α
  | some (.object fields) => both (fun a _ => a) (read fields) (unrecognized keys fields)
  | value => .error (wrongType "object" value)

end Schema
