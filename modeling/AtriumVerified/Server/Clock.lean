import AtriumVerified.Lib.Postgres
import AtriumVerified.Core.Common

/-!
# Instants of the server and of the database

Dates as the server reads and prints them, and as Postgres reads a timestamp.
-/

namespace Server

open Core Postgres

/-- `new Date(at)`, in milliseconds since 1970; `none` is an invalid date, which cannot be stored. -/
def date (at_ : Timestamp) : Option Int :=
  (isoInstant at_.toList).map fun instant =>
    instant.biased - 62167219200000 + Js.numberOf (Js.padEnd 3 '0' (instant.fraction.take 3))

/-- `new Date(ms).toISOString()`, for the years 0 to 9999. -/
def toISOString (ms : Int) : Timestamp := String.ofList (Calendar.fromMillis ms).isoText

/-- `MAX_AT_MS`: `Date.parse('9999-12-31T23:59:59.999Z')`. -/
def maxAtMs : Int := 253402300799999

def lastInstant : TimestampTz := TimestampTz.finite (maxAtMs * 1000)

/-- `text::timestamptz` for a text that `CANONICAL_TIMESTAMP` admits; `none` is a failed cast.
Postgres has no year 0. -/
def timestamptz (text : String) : Option TimestampTz := do
  let instant ← isoInstant text.toList
  let ms ← date text
  if instant.year = 0 then none else some (TimestampTz.finite (ms * 1000))

end Server
