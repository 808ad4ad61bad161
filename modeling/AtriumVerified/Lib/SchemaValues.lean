import AtriumVerified.Lib.SchemaObjects

/-!
# Schemas that return JSON values

A schema need not build a typed value: it may return JSON again, without the keys that no shape names
and with the defaults filled in. Such a schema is stable when it accepts what it returns.
-/

open Js

/-- A schema that returns a JSON value, or nothing where a key stays missing. -/
abbrev JsonSchema := Schema.Reader (Option Json)

namespace JsonSchema

open Schema

def Accepts (schema : JsonSchema) (value : Option Json) : Prop := ∃ out, schema value = .ok out

def Stable (schema : JsonSchema) : Prop := ∀ value out, schema value = .ok out → schema.Accepts out

/-! ## Values -/

def string (checks : List (String → Option String)) : JsonSchema := fun value =>
  (Schema.string checks value).map fun text => some (.string text)

/-- `z.literal(text)`. -/
def literal (text : String) : JsonSchema
  | some (.string other) =>
    if other = text then .ok (some (.string other))
    else .error [⟨[], "Invalid input: expected \"" ++ text ++ "\""⟩]
  | _ => .error [⟨[], "Invalid input: expected \"" ++ text ++ "\""⟩]

/-- `z.enum(texts)`. -/
def choice (texts : List String) : JsonSchema := fun value =>
  (Schema.enum (texts.map fun text => (text, text)) value).map fun text => some (.string text)

def isInfinite (value : Number) : Bool :=
  (2 ^ 1024 - 2 ^ 970) * 10 ^ value.exponent ≤ value.mantissa.natAbs

def number : JsonSchema
  | some (.number value) =>
    if isInfinite value then .error [⟨[], "Invalid input: expected number, received Infinity"⟩]
    else .ok (some (.number value))
  | value => .error (wrongType "number" value)

/-- `z.number().int()`. -/
def integer : JsonSchema := fun value =>
  (Schema.integer value).map fun n => some (.number (.ofInt n))

/-- `z.number().int().nonnegative()`. -/
def natural : JsonSchema := fun value =>
  (Schema.nonnegative Schema.integer value).map fun (n : Nat) => some (.number (.ofInt n))

def boolean : JsonSchema := fun value => (Schema.boolean value).map fun held => some (.bool held)

def unknown : JsonSchema := .ok

/-! ## Schemas of schemas -/

def nullable (schema : JsonSchema) : JsonSchema
  | some .null => .ok (some .null)
  | value => schema value

/-- `.default(fallback)`. -/
def withDefault (fallback : Json) (schema : JsonSchema) : JsonSchema
  | none => .ok (some fallback)
  | value => schema value

def optional (schema : JsonSchema) : JsonSchema
  | none => .ok none
  | value => schema value

/-- `z.array(schema)`. An item that is nothing becomes `null` as `JSON.stringify` writes it. -/
def array (schema : JsonSchema) : JsonSchema := fun value =>
  (Schema.array schema value).map fun items => some (.array (items.map fun item => item.getD .null))

def readShape (fields : List (String × Json)) :
    List (String × JsonSchema) → Parsed (List (String × Json))
  | [] => .ok []
  | (key, schema) :: rest =>
    both (fun value read => (value.toList.map fun held => (key, held)) ++ read)
      (field fields key schema) (readShape fields rest)

/-- `z.object(shape)`. -/
def object (shape : List (String × JsonSchema)) : JsonSchema
  | some (.object fields) => (readShape fields shape).map fun read => some (.object read)
  | value => .error (wrongType "object" value)

/-- `z.union([first, second])`. -/
def union (first second : JsonSchema) : JsonSchema := fun value =>
  match first value with
  | .ok out => .ok out
  | .error _ =>
    match second value with
    | .ok out => .ok out
    | .error _ => .error [⟨[], "Invalid input"⟩]

/-- `z.discriminatedUnion(key, options)`, where each option stands under its literal. -/
def tagged (key : String) (options : List (String × JsonSchema)) : JsonSchema
  | some (.object fields) =>
    match lookupField fields key with
    | some (.string tag) =>
      match options.find? fun option => option.1 == tag with
      | some option => option.2 (some (.object fields))
      | none => .error [⟨[key], "Invalid input"⟩]
    | _ => .error [⟨[key], "Invalid input"⟩]
  | value => .error (wrongType "object" value)

end JsonSchema
