import AtriumVerified.Lib.Schema
import AtriumVerified.Lib.Uri

/-!
# JSON texts

The text that `JSON.stringify` writes for a value, and the value that `JSON.parse` reads in a text.
What is written for a value without numbers is read as that value.
-/

namespace Js

/-! ## Writing -/

def hexDigit (n : Nat) : Char := Char.ofNat (if n < 10 then '0'.toNat + n else 'a'.toNat + (n - 10))

/-- What stands for a character between the quotes. -/
def escapeChar (c : Char) : List Char :=
  if c = '"' then ['\\', '"']
  else if c = '\\' then ['\\', '\\']
  else if c = '\x08' then ['\\', 'b']
  else if c = '\t' then ['\\', 't']
  else if c = '\n' then ['\\', 'n']
  else if c = '\x0C' then ['\\', 'f']
  else if c = '\r' then ['\\', 'r']
  else if c.toNat < 0x20 then
    ['\\', 'u', '0', '0', hexDigit (c.toNat / 16), hexDigit (c.toNat % 16)]
  else [c]

def quoted (text : String) : List Char := '"' :: (text.toList.flatMap escapeChar ++ ['"'])

/-- `JSON.stringify(text)`. -/
def quote (text : String) : String := String.ofList (quoted text)

mutual

def Json.write : Json → List Char
  | .null => "null".toList
  | .bool true => "true".toList
  | .bool false => "false".toList
  | .number value => value.text.toList
  | .string value => quoted value
  | .array items => '[' :: writeItems items
  | .object fields => '\x7b' :: writeFields fields

def writeItems : List Json → List Char
  | [] => [']']
  | item :: rest => item.write ++ writeMoreItems rest

def writeMoreItems : List Json → List Char
  | [] => [']']
  | item :: rest => ',' :: (item.write ++ writeMoreItems rest)

def writeFields : List (String × Json) → List Char
  | [] => ['\x7d']
  | (key, value) :: rest => quoted key ++ ':' :: (value.write ++ writeMoreFields rest)

def writeMoreFields : List (String × Json) → List Char
  | [] => ['\x7d']
  | (key, value) :: rest => ',' :: (quoted key ++ ':' :: (value.write ++ writeMoreFields rest))

end

/-- `JSON.stringify(value)`. -/
def Json.stringify (value : Json) : String := String.ofList value.write

/-! ## Reading -/

def isJsonSpace (c : Char) : Bool := c == ' ' || c == '\t' || c == '\n' || c == '\r'

def readUnit : List Char → Option (Nat × List Char)
  | a :: b :: c :: d :: rest => do
    let a ← hexValue a
    let b ← hexValue b
    let c ← hexValue c
    let d ← hexValue d
    return (4096 * a + 256 * b + 16 * c + d, rest)
  | _ => none

def simpleEscape : Char → Option Char
  | '"' => some '"'
  | '\\' => some '\\'
  | '/' => some '/'
  | 'b' => some '\x08'
  | 'f' => some '\x0C'
  | 'n' => some '\n'
  | 'r' => some '\r'
  | 't' => some '\t'
  | _ => none

/-- The second half of a character that is escaped as a surrogate pair. -/
def readLowSurrogate (high : Nat) : List Char → Option (Char × List Char)
  | '\\' :: 'u' :: rest => do
    let (low, rest) ← readUnit rest
    if 0xDC00 ≤ low ∧ low < 0xE000 then
      some (Char.ofNat (0x10000 + (high - 0xD800) * 0x400 + (low - 0xDC00)), rest)
    else none
  | _ => none

/-- What follows a backslash. The strings with an unpaired surrogate are left out. -/
def readEscape : List Char → Option (Char × List Char)
  | [] => none
  | c :: rest =>
    if c = 'u' then do
      let (unit, rest) ← readUnit rest
      if 0xD800 ≤ unit ∧ unit < 0xDC00 then readLowSurrogate unit rest
      else if 0xDC00 ≤ unit ∧ unit < 0xE000 then none
      else some (Char.ofNat unit, rest)
    else (simpleEscape c).map fun decoded => (decoded, rest)

/-- The characters of a string and what follows its closing quote; each takes one of `fuel`. -/
def readString : Nat → List Char → Option (List Char × List Char)
  | 0, _ => none
  | _ + 1, [] => none
  | fuel + 1, c :: rest =>
    if c = '"' then some ([], rest)
    else if c = '\\' then do
      let (decoded, rest) ← readEscape rest
      let (tail, rest) ← readString fuel rest
      return (decoded :: tail, rest)
    else if c.toNat < 0x20 then none
    else do
      let (tail, rest) ← readString fuel rest
      return (c :: tail, rest)

def readDigits (text : List Char) : Option (List Char × List Char) :=
  if (text.takeWhile isDigit).isEmpty then none
  else some (text.takeWhile isDigit, text.dropWhile isDigit)

/-- The whole part of a number: one zero, or digits that do not begin with one. -/
def readWhole : List Char → Option (List Char × List Char)
  | '0' :: rest => some (['0'], rest)
  | text => readDigits text

def readFraction : List Char → Option (List Char × List Char)
  | '.' :: rest => readDigits rest
  | text => some ([], text)

def readExponent : List Char → Option (Int × List Char)
  | c :: rest =>
    if c = 'e' ∨ c = 'E' then
      match rest with
      | '-' :: rest => (readDigits rest).map fun found => (-(numberOf found.1 : Int), found.2)
      | '+' :: rest => (readDigits rest).map fun found => ((numberOf found.1 : Int), found.2)
      | rest => (readDigits rest).map fun found => ((numberOf found.1 : Int), found.2)
    else some (0, c :: rest)
  | [] => some (0, [])

def readNumber (text : List Char) : Option (Number × List Char) := do
  let negative := text.head? = some '-'
  let (whole, rest) ← readWhole (if negative then text.drop 1 else text)
  let (fraction, rest) ← readFraction rest
  let (exponent, rest) ← readExponent rest
  let digits : Int := numberOf (whole ++ fraction) * 10 ^ (exponent - fraction.length).toNat
  return (⟨if negative then -digits else digits, (fraction.length - exponent).toNat⟩, rest)

def dropLiteral (literal : String) (text : List Char) : Option (List Char) :=
  if literal.toList.isPrefixOf text then some (text.drop literal.toList.length) else none

mutual

/-- A value and what follows it; each value, item and property takes one of `fuel`. -/
def readValue : Nat → List Char → Option (Json × List Char)
  | 0, _ => none
  | fuel + 1, text =>
    match text.dropWhile isJsonSpace with
    | '"' :: rest =>
      (readString (rest.length + 1) rest).map fun found => (.string (String.ofList found.1), found.2)
    | '[' :: rest =>
      match rest.dropWhile isJsonSpace with
      | ']' :: rest => some (.array [], rest)
      | rest => (readItems fuel rest).map fun found => (.array found.1, found.2)
    | '\x7b' :: rest =>
      match rest.dropWhile isJsonSpace with
      | '\x7d' :: rest => some (.object [], rest)
      | rest => (readFields fuel rest).map fun found => (.object found.1, found.2)
    | 'n' :: rest => (dropLiteral "ull" rest).map fun rest => (.null, rest)
    | 't' :: rest => (dropLiteral "rue" rest).map fun rest => (.bool true, rest)
    | 'f' :: rest => (dropLiteral "alse" rest).map fun rest => (.bool false, rest)
    | text => (readNumber text).map fun found => (.number found.1, found.2)

/-- Items, the end of the array, and what follows it. -/
def readItems : Nat → List Char → Option (List Json × List Char)
  | 0, _ => none
  | fuel + 1, text => do
    let (item, rest) ← readValue fuel text
    match rest.dropWhile isJsonSpace with
    | ']' :: rest => return ([item], rest)
    | ',' :: rest =>
      let (items, rest) ← readItems fuel rest
      return (item :: items, rest)
    | _ => none

/-- Properties, the end of the object, and what follows it. -/
def readFields : Nat → List Char → Option (List (String × Json) × List Char)
  | 0, _ => none
  | fuel + 1, text =>
    match text.dropWhile isJsonSpace with
    | '"' :: rest => do
      let (key, rest) ← readString (rest.length + 1) rest
      match rest.dropWhile isJsonSpace with
      | ':' :: rest =>
        let (value, rest) ← readValue fuel rest
        match rest.dropWhile isJsonSpace with
        | '\x7d' :: rest => return ([(String.ofList key, value)], rest)
        | ',' :: rest =>
          let (fields, rest) ← readFields fuel rest
          return ((String.ofList key, value) :: fields, rest)
        | _ => none
      | _ => none
    | _ => none

end

/-- `JSON.parse(text)`: `none` where it throws. -/
def Json.parse (text : String) : Option Json :=
  match readValue (text.length + 1) text.toList with
  | some (value, rest) => if rest.all isJsonSpace then some value else none
  | none => none

end Js
