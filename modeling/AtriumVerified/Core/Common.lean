import AtriumVerified.Lib.Calendar
import AtriumVerified.Lib.Schema

/-!
# Ids, timestamps, actors and provenance

The model of `packages/core/src/common.ts`: what an id and a timestamp may look like, the sort key
of an instant, who acted and what an object was read out of.
-/

namespace Core

/-- An id, as every record stores it. Whether a string is one is decided by `idIssues`. -/
abbrev Id := String

/-- A timestamp, as every record stores it. Whether a string is one is decided by
`canonicalTimestamp`. -/
abbrev Timestamp := String

/-- `ID_CHARSET`: printable ASCII without the space. -/
def idCharset (text : String) : Bool :=
  !text.toList.isEmpty && text.toList.all fun c => '\x21' ≤ c && c ≤ '\x7E'

def idMaxLength : Nat := 256

/-- `Id`: the strings the schema admits. -/
def isId (text : String) : Bool :=
  1 ≤ Js.utf16Length text && Js.utf16Length text ≤ idMaxLength && idCharset text

/-- The schema `Id`. -/
def idSchema : Schema.Reader Id :=
  Schema.string [Schema.minLength 1, Schema.maxLength idMaxLength, Schema.pattern idCharset
    "an id must be printable ASCII with no spaces: the canonical (at, id) order is evaluated by JavaScript in one place and by Postgres `COLLATE \"C\"` in another, and the two agree only inside that subset"]

/-! ## Timestamps -/

/-- The leap years among four digits, as `CANONICAL_TIMESTAMP` spells them: `\d\d[2468][048]`,
`\d\d[13579][26]`, `\d\d0[48]`, `[02468][048]00` and `[13579][26]00`. -/
def leapDigits (y1 y2 y3 y4 : Char) : Bool :=
  ("2468".toList.contains y3 && "048".toList.contains y4) ||
    ("13579".toList.contains y3 && "26".toList.contains y4) ||
    (y3 == '0' && "48".toList.contains y4) ||
    ("02468".toList.contains y1 && "048".toList.contains y2 && y3 == '0' && y4 == '0') ||
    ("13579".toList.contains y1 && "26".toList.contains y2 && y3 == '0' && y4 == '0')

/-- `0[1-9]|[12]\d`: the days 01 to 29. -/
def dayTo29 (d1 d2 : Char) : Bool :=
  (d1 == '0' && '1' ≤ d2 && d2 ≤ '9') || ((d1 == '1' || d1 == '2') && Js.isDigit d2)

/-- The month and day alternatives of `CANONICAL_TIMESTAMP` for a year that is not leap. -/
def monthDay (m1 m2 d1 d2 : Char) : Bool :=
  (((m1 == '0' && "13578".toList.contains m2) || (m1 == '1' && "02".toList.contains m2)) &&
      (dayTo29 d1 d2 || (d1 == '3' && "01".toList.contains d2))) ||
    (((m1 == '0' && "469".toList.contains m2) || (m1 == '1' && m2 == '1')) &&
      (dayTo29 d1 d2 || (d1 == '3' && d2 == '0'))) ||
    (m1 == '0' && m2 == '2' &&
      (dayTo29 d1 d2 && !(d1 == '2' && d2 == '9')))

/-- `CANONICAL_TIMESTAMP`: exactly `YYYY-MM-DDTHH:MM:SS.mmmZ`, naming a real instant. -/
def canonicalTimestamp (text : String) : Bool :=
  match text.toList with
  | [y1, y2, y3, y4, c1, m1, m2, c2, d1, d2, c3, h1, h2, c4, n1, n2, c5, s1, s2, c6, f1, f2, f3,
      c7] =>
    c1 == '-' && c2 == '-' && c3 == 'T' && c4 == ':' && c5 == ':' && c6 == '.' && c7 == 'Z' &&
      [y1, y2, y3, y4].all Js.isDigit &&
      ((leapDigits y1 y2 y3 y4 && m1 == '0' && m2 == '2' && d1 == '2' && d2 == '9') ||
        monthDay m1 m2 d1 d2) &&
      (((h1 == '0' || h1 == '1') && Js.isDigit h2) || (h1 == '2' && '0' ≤ h2 && h2 ≤ '3')) &&
      ('0' ≤ n1 && n1 ≤ '5') && Js.isDigit n2 && ('0' ≤ s1 && s1 ≤ '5') && Js.isDigit s2 &&
      [f1, f2, f3].all Js.isDigit
  | _ => false

/-- The schema `Timestamp`. -/
def timestampSchema : Schema.Reader Timestamp :=
  Schema.string [Schema.pattern canonicalTimestamp
    "a timestamp must be spelled exactly YYYY-MM-DDTHH:MM:SS.mmmZ and name a real instant — what Date#toISOString produces, and the only spelling core_events_payload_at_is_canonical_utc admits: two spellings of one instant make string order and timestamptz order disagree about which of two events came first"]

/-- The groups of `ISO_INSTANT`. -/
structure IsoInstant where
  year : Nat
  month : Nat
  day : Nat
  hour : Nat
  minute : Nat
  second : Nat
  /-- The digits after the point, empty when there is none. -/
  fraction : List Char
  /-- The zone's distance from UTC. -/
  offsetMinutes : Int
  deriving DecidableEq, Repr

/-- The end of `ISO_INSTANT`: `[Zz]` or `[+-]\d{2}:\d{2}`. -/
def isoZone : List Char → Option Int
  | ['Z'] => some 0
  | ['z'] => some 0
  | [sign, o1, o2, colon, p1, p2] =>
    if (sign == '+' || sign == '-') && colon == ':' && [o1, o2, p1, p2].all Js.isDigit then
      let distance : Int := Js.numberOf [o1, o2] * 60 + Js.numberOf [p1, p2]
      some (if sign == '-' then -distance else distance)
    else none
  | _ => none

/-- The optional fraction of `ISO_INSTANT` and what follows it. -/
def isoFraction : List Char → Option (List Char × List Char)
  | '.' :: rest =>
    let digits := rest.takeWhile Js.isDigit
    if digits.isEmpty then none else some (digits, rest.dropWhile Js.isDigit)
  | rest => some ([], rest)

/-- `ISO_INSTANT.exec(at)`. -/
def isoInstant (text : List Char) : Option IsoInstant :=
  match text with
  | y1 :: y2 :: y3 :: y4 :: c1 :: m1 :: m2 :: c2 :: d1 :: d2 :: c3 :: h1 :: h2 :: c4 :: n1 :: n2 ::
      c5 :: s1 :: s2 :: rest =>
    if c1 == '-' && c2 == '-' && (c3 == 'T' || c3 == 't') && c4 == ':' && c5 == ':' &&
        [y1, y2, y3, y4, m1, m2, d1, d2, h1, h2, n1, n2, s1, s2].all Js.isDigit then do
      let (fraction, zone) ← isoFraction rest
      let offsetMinutes ← isoZone zone
      return {
        year := Js.numberOf [y1, y2, y3, y4]
        month := Js.numberOf [m1, m2]
        day := Js.numberOf [d1, d2]
        hour := Js.numberOf [h1, h2]
        minute := Js.numberOf [n1, n2]
        second := Js.numberOf [s1, s2]
        fraction, offsetMinutes }
    else none
  | _ => none

/-- The whole seconds of an instant since 0000-01-01, in milliseconds. `Date.UTC` maps the years 0
to 99 onto the twentieth century, so those are shifted by one Gregorian cycle and back. -/
def IsoInstant.biased (instant : IsoInstant) : Int :=
  let cycle : Int := if instant.year < 100 then 12622780800000 else 0
  let utcMillis :=
    Calendar.dateUTC (instant.year + if cycle = 0 then 0 else 400) (instant.month - 1) instant.day
      instant.hour instant.minute instant.second - cycle - instant.offsetMinutes * 60000
  utcMillis + 62167219200000

/-- `instantKey`: a string whose order is the order of the instants. -/
def instantKey (at' : Timestamp) : String :=
  match isoInstant at'.toList with
  | none => "?" ++ at'
  | some instant =>
    String.ofList (Js.padStart 16 '0' (toString instant.biased).toList ++
      '.' :: Js.padEnd 9 '0' instant.fraction)

/-! ## Actors and provenance -/

inductive Actor where
  | human (userId : Id)
  | agent (userId : Id)
  | model (model : String)
  | system
  deriving DecidableEq, Repr

def Actor.kind : Actor → String
  | .human _ => "human"
  | .agent _ => "agent"
  | .model _ => "model"
  | .system => "system"

def actorUserId : Actor → Option Id
  | .human userId => some userId
  | .agent userId => some userId
  | .model _ => none
  | .system => none

structure Provenance where
  messageIds : List Id
  proposalId : Option Id
  interpretationId : Option Id
  deriving DecidableEq, Repr

def emptyProvenance : Provenance := ⟨[], none, none⟩

end Core
