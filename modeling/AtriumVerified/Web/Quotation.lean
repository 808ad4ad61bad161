import AtriumVerified.Lib.Decimal
import AtriumVerified.Lib.InsertionMap
import AtriumVerified.Lib.JsonText

/-!
# Records that are quoted

The model of what `apps/web/src/components/model/quotation.ts` does with the records of messages: how
a record is read from data that is not trusted, the fingerprint of a record, and the ledger of the
records of a page. Attachments stay the JSON values they came as.
-/

namespace Web.Quotation

open Js

/-! ## Records -/

inductive MessageOrigin where
  | typed
  | seeded
  | chosen
  deriving DecidableEq, Repr

def MessageOrigin.text : MessageOrigin → String
  | .typed => "typed"
  | .seeded => "seeded"
  | .chosen => "chosen"

def origins : List MessageOrigin := [.typed, .seeded, .chosen]

inductive ParticipantKind where
  | human
  | agent
  | unknown
  deriving DecidableEq, Repr

def ParticipantKind.text : ParticipantKind → String
  | .human => "human"
  | .agent => "agent"
  | .unknown => "unknown"

structure MessageRecord where
  id : String
  at_ : String
  actor : String
  text : String
  origin : MessageOrigin
  authorKind : Option ParticipantKind := none
  room : Option String := none
  attachments : Option (List Json) := none

/-! ## Reading -/

def participantKindOf (value : Option Json) : ParticipantKind :=
  match value with
  | some (.string text) =>
    if text = "human" then .human else if text = "agent" then .agent else .unknown
  | _ => .unknown

/-- `nonEmptyString`: the string, if the value is one with more than white space. -/
def nonEmptyString (value : Option Json) : Option String :=
  match value with
  | some (.string text) => if trim text.toList = [] then none else some text
  | _ => none

def isSafePositive (value : Number) : Bool :=
  value.mantissa % 10 ^ value.exponent == 0 &&
    decide (0 < value.mantissa / 10 ^ value.exponent) &&
    decide (value.mantissa / 10 ^ value.exponent < 2 ^ 53)

/-- `attachment[key]`. -/
def property (attachment : Json) (key : String) : Option Json :=
  match attachment with
  | .object fields => lookupField fields key
  | _ => none

/-- What `parseMessageRecord` asks of an attachment. -/
def isAttachment (attachment : Json) : Bool :=
  (nonEmptyString (property attachment "key")).isSome &&
    (nonEmptyString (property attachment "name")).isSome &&
    (nonEmptyString (property attachment "contentType")).isSome &&
    match property attachment "size" with
    | some (.number size) => isSafePositive size
    | _ => false

def orThrow {α : Type} (value : Option α) (message : String) : Except String α :=
  match value with
  | some value => .ok value
  | none => .error ("parseMessageRecord: " ++ message)

def asString : Option Json → Option String
  | some (.string text) => some text
  | _ => none

/-- The properties of a value that is an object; those of an array are not asked for. -/
def fieldsOf : Json → Option (List (String × Json))
  | .object fields => some fields
  | .array _ => some []
  | _ => none

/-- `room`, where it is there. -/
def readRoom (value : Option Json) : Except String (Option String) :=
  match value with
  | none => .ok none
  | value => (orThrow (nonEmptyString value) "room, when present, names a room").map some

/-- `attachments`, where they are there. -/
def readAttachments (value : Option Json) : Except String (Option (List Json)) :=
  let refusal := "parseMessageRecord: attachments must carry key, name, type and size"
  match value with
  | none => .ok none
  | some (.array items) => if items.all isAttachment then .ok (some items) else .error refusal
  | some _ => .error refusal

def parseMessageRecord (value : Json) : Except String MessageRecord := do
  let fields ← orThrow (fieldsOf value) "not an object"
  let id ← orThrow (nonEmptyString (lookupField fields "id")) "a message needs an id"
  let at_ ← orThrow (asString (lookupField fields "at")) "a message needs a timestamp"
  let actor ← orThrow (nonEmptyString (lookupField fields "actor")) "a message needs an actor"
  let text ← orThrow (asString (lookupField fields "text")) "a message needs text"
  let origin ← orThrow ((asString (lookupField fields "origin")).bind fun origin =>
      origins.find? fun known => known.text == origin)
    ("origin must be one of " ++ ", ".intercalate (origins.map MessageOrigin.text) ++
      " — an unlabelled message cannot be told from a page-authored one")
  let room ← readRoom (lookupField fields "room")
  let attachments ← readAttachments (lookupField fields "attachments")
  return ⟨id, at_, actor, text, origin, some (participantKindOf (lookupField fields "authorKind")),
    room, attachments⟩

/-! ## Fingerprints -/

/-- `JSON.stringify(record.attachments ?? [])`. -/
def attachmentText (record : MessageRecord) : String :=
  (Json.array (record.attachments.getD [])).stringify

def fingerprintParts (record : MessageRecord) : List String :=
  [record.id, record.origin.text, record.at_, record.actor, record.text,
    (record.authorKind.getD .unknown).text, record.room.getD "∅", attachmentText record]

def recordFingerprint (record : MessageRecord) : String :=
  "|".intercalate ((fingerprintParts record).map fun part => String.ofList (sized part.toList))

/-! ## The ledger -/

def hold (ledger : Map String MessageRecord) (record : MessageRecord) :
    Except String (Map String MessageRecord) :=
  match ledger.get record.id with
  | none => .ok (ledger.set record.id record)
  | some existing =>
    if recordFingerprint existing = recordFingerprint record then .ok ledger
    else .error ("messageLedger: two DIFFERENT records both claim the id " ++ quote record.id ++
      " — a citation resolved against this ledger could name either of them.\n  already held: " ++
      recordFingerprint existing ++ "\n  offered:      " ++ recordFingerprint record ++
      "\n  Re-delivering a record this page already holds is fine; changing what it says is not.")

/-- `messageLedger`, where `recordFor` is `get`. -/
def messageLedger (records : List MessageRecord) : Except String (Map String MessageRecord) :=
  records.foldlM hold Map.empty

end Web.Quotation
