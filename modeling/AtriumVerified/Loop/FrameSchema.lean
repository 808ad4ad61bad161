import AtriumVerified.Lib.JsonText
import AtriumVerified.Lib.SchemaValues

/-!
# The schemas of the frames

The schemas of `apps/loop/src/protocol.ts` with all their fields, and `parseServerFrame` from the text
of a frame to the object it returns. The model of the client takes the frames it acts on from there.
-/

namespace Loop.FrameSchema

open Js

/-! ## Events -/

def id : JsonSchema := .string [Schema.minLength 1]

def timestamp : JsonSchema := .string [Schema.minLength 1]

/-- `z.string()`. -/
def text : JsonSchema := .string []

/-- `Id.nullable().default(null)`. -/
def idOrNull : JsonSchema := .withDefault .null (.nullable id)

def actor : JsonSchema := .tagged "kind"
  [("human", .object [("kind", .literal "human"), ("userId", id)]),
    ("agent", .object [("kind", .literal "agent"), ("userId", id)]),
    ("model", .object [("kind", .literal "model"), ("model", .string [Schema.minLength 1])]),
    ("system", .object [("kind", .literal "system")])]

/-- The fields of every event. -/
def eventBase : List (String × JsonSchema) := [("id", id), ("at", timestamp), ("roomId", id)]

def messagePosted : JsonSchema := .object (eventBase ++
  [("type", .literal "message_posted"), ("messageId", id), ("body", text), ("replyToId", idOrNull),
    ("clientMessageId", .withDefault .null (.nullable text)), ("causeMessageId", idOrNull)])

def planOpened : JsonSchema := .object (eventBase ++
  [("type", .literal "plan_opened"), ("planId", id), ("agentUserId", id), ("title", text),
    ("causeMessageId", idOrNull)])

def planSettled : JsonSchema := .object (eventBase ++
  [("type", .literal "plan_settled"), ("planId", id)])

def planRlimitSet : JsonSchema := .object (eventBase ++
  [("type", .literal "plan_rlimit_set"), ("planId", id), ("slice", .natural)])

def sessionOpened : JsonSchema := .object (eventBase ++
  [("type", .literal "session_opened"), ("sessionId", id), ("planId", id),
    ("causeMessageId", idOrNull)])

def drawRefused : JsonSchema := .object (eventBase ++
  [("type", .literal "draw_refused"), ("planId", id), ("reason", .literal "budget"),
    ("slice", .natural), ("authorizedDraws", .natural)])

def sessionExit : List (String × JsonSchema) := eventBase ++
  [("sessionId", id), ("exitSummary", .withDefault .null (.nullable text)),
    ("artifact", .withDefault .null (.nullable .unknown))]

def sessionSettled : JsonSchema :=
  .object (sessionExit ++ [("type", JsonSchema.literal "session_settled")])

def sessionFailed : JsonSchema :=
  .object (sessionExit ++ [("type", JsonSchema.literal "session_failed")])

def sessionSignaled : JsonSchema := .object (eventBase ++
  [("type", .literal "session_signaled"), ("sessionId", id), ("signalId", id),
    ("kind", .choice ["steer", "interrupt", "resume"]), ("causeMessageId", idOrNull)])

/-- The events that the loop acts on. -/
def handledEvent : JsonSchema := .tagged "type"
  [("message_posted", messagePosted), ("plan_opened", planOpened), ("plan_settled", planSettled),
    ("plan_rlimit_set", planRlimitSet), ("session_opened", sessionOpened),
    ("draw_refused", drawRefused), ("session_settled", sessionSettled),
    ("session_failed", sessionFailed), ("session_signaled", sessionSignaled)]

/-- Any other event. -/
def otherEvent : JsonSchema := .object (eventBase ++ [("type", text)])

def roomEvent : JsonSchema := .union handledEvent otherEvent

/-- An entry of a room's ledger. -/
def wireEvent : JsonSchema := .object
  [("roomId", id), ("roomSeq", .natural), ("seq", .natural), ("actor", actor), ("event", roomEvent),
    ("issues", .withDefault (.array []) (.array text))]

/-! ## Frames -/

/-- What became of a draw. -/
def drawOutcome : JsonSchema := .union
  (.object [("outcome", .literal "granted"), ("sessionId", id)])
  (.object [("outcome", .literal "refused"), ("reason", .literal "budget"), ("slice", .natural),
    ("authorizedDraws", .natural)])

def welcomeFrame : JsonSchema := .object
  [("type", .literal "welcome"), ("connectionId", text), ("userId", id),
    ("heartbeatIntervalMs", .number)]

def subscribedFrame : JsonSchema := .object
  [("type", .literal "subscribed"), ("roomId", id), ("head", .natural), ("seenSeq", .integer)]

def eventFrame : JsonSchema := .object [("type", .literal "event"), ("entry", wireEvent)]

def catchupFrame : JsonSchema := .object
  [("type", .literal "catchup"), ("roomId", id), ("from", .natural), ("to", .natural),
    ("head", .natural), ("more", .boolean), ("entries", .array wireEvent)]

def headFrame : JsonSchema := .object
  [("type", .literal "head"), ("roomId", id), ("head", .natural)]

def ackFrame : JsonSchema := .object
  [("type", .literal "ack"), ("commandId", text), ("roomId", .nullable id),
    ("seq", .nullable .integer), ("roomSeq", .nullable .integer), ("eventId", .nullable id),
    ("issues", .withDefault (.array []) (.array text)), ("draw", .optional drawOutcome)]

def nackFrame : JsonSchema := .object
  [("type", .literal "nack"), ("commandId", text), ("code", text), ("message", text)]

/-- The frames that the loop acts on. -/
def knownFrame : JsonSchema := .tagged "type"
  [("welcome", welcomeFrame), ("subscribed", subscribedFrame), ("event", eventFrame),
    ("catchup", catchupFrame), ("head", headFrame), ("ack", ackFrame), ("nack", nackFrame)]

def otherFrame : JsonSchema := .object [("type", text)]

/-- Any frame. -/
def serverFrame : JsonSchema := .union knownFrame otherFrame

/-! ## The parser -/

def knownTypes : List String := ["welcome", "subscribed", "event", "catchup", "head", "ack", "nack"]

def typeOf : Json → Option String
  | .object fields =>
    match lookupField fields "type" with
    | some (.string type) => some type
    | _ => none
  | _ => none

def isKnownFrame (frame : Json) : Bool := (typeOf frame).any fun type => knownTypes.contains type

/-- `{ type: 'unknown' }`. -/
def unknownFrame : Json := .object [("type", .string "unknown")]

/-- What `parseServerFrame` throws. -/
inductive Thrown where
  /-- `JSON.parse` throws. -/
  | notJson
  /-- `unreadable server frame: …`. -/
  | unreadable (issues : List Schema.Issue)

/-- Reads the text of a frame. -/
def parseServerFrame (raw : String) : Except Thrown Json :=
  match Json.parse raw with
  | none => .error .notJson
  | some json =>
    match serverFrame (some json) with
    | .error issues => .error (.unreadable issues)
    | .ok parsed =>
      let frame := parsed.getD .null
      if isKnownFrame frame then .ok frame else .ok unknownFrame

end Loop.FrameSchema
