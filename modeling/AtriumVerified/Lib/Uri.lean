import AtriumVerified.Lib.Text

/-!
# Components of URIs

What `decodeURIComponent` reads: characters as they stand, and the UTF-8 bytes of others as `%XX`.
-/

namespace Js

def hexValue (c : Char) : Option Nat :=
  if '0' ≤ c ∧ c ≤ '9' then some (c.toNat - '0'.toNat)
  else if 'a' ≤ c ∧ c ≤ 'f' then some (c.toNat - 'a'.toNat + 10)
  else if 'A' ≤ c ∧ c ≤ 'F' then some (c.toNat - 'A'.toNat + 10)
  else none

/-- The byte that a text begins with, which is written `%XX`, and what follows it. -/
def percentByte : List Char → Option (Nat × List Char)
  | '%' :: high :: low :: rest => do
    let high ← hexValue high
    let low ← hexValue low
    return (16 * high + low, rest)
  | _ => none

/-- How many bytes follow the first one of a character, its own bits, and the least character that
needs that many. -/
def leadByte (byte : Nat) : Option (Nat × Nat × Nat) :=
  if byte < 0x80 then some (0, byte, 0)
  else if byte / 32 = 0b110 then some (1, byte % 32, 0x80)
  else if byte / 16 = 0b1110 then some (2, byte % 16, 0x800)
  else if byte / 8 = 0b11110 then some (3, byte % 8, 0x10000)
  else none

/-- The bits of the bytes `10xxxxxx` that follow. -/
def followBytes : Nat → Nat → List Char → Option (Nat × List Char)
  | 0, bits, rest => some (bits, rest)
  | more + 1, bits, text => do
    let (byte, rest) ← percentByte text
    if byte / 64 = 0b10 then followBytes more (64 * bits + byte % 64) rest else none

/-- The character whose UTF-8 bytes a text begins with, and what follows them. -/
def percentChar (text : List Char) : Option (Char × List Char) := do
  let (byte, rest) ← percentByte text
  let (more, bits, least) ← leadByte byte
  let (code, rest) ← followBytes more bits rest
  if code.isValidChar ∧ least ≤ code then some (Char.ofNat code, rest) else none

/-- Every character of a text; each takes at least one of `fuel`. -/
def decodeFrom : Nat → List Char → Option (List Char)
  | 0, _ => some []
  | _ + 1, [] => some []
  | fuel + 1, c :: rest =>
    if c = '%' then do
      let (decoded, rest) ← percentChar (c :: rest)
      let tail ← decodeFrom fuel rest
      return decoded :: tail
    else do
      let tail ← decodeFrom fuel rest
      return c :: tail

/-- `decodeURIComponent(text)`: `none` where it throws. -/
def decodeURIComponent (text : List Char) : Option (List Char) := decodeFrom text.length text

/-- What is not empty decodes to something. -/
theorem decodeURIComponent_ne_nil {text decoded : List Char} (h : text ≠ [])
    (hdecoded : decodeURIComponent text = some decoded) : decoded ≠ [] := by
  cases text with
  | nil => exact absurd rfl h
  | cons c rest =>
    unfold decodeURIComponent at hdecoded
    rw [List.length_cons, decodeFrom] at hdecoded
    split at hdecoded
    · obtain ⟨⟨first, after⟩, -, hdecoded⟩ := Option.bind_eq_some_iff.mp hdecoded
      obtain ⟨tail, -, hdecoded⟩ := Option.bind_eq_some_iff.mp hdecoded
      cases hdecoded
      exact List.cons_ne_nil _ _
    · obtain ⟨tail, -, hdecoded⟩ := Option.bind_eq_some_iff.mp hdecoded
      cases hdecoded
      exact List.cons_ne_nil _ _

example : decodeURIComponent "caf%C3%A9".toList = some "café".toList := by decide +kernel

end Js
