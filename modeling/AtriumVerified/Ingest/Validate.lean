import AtriumVerified.Ingest.Text
import AtriumVerified.Lib.SchemaObjects

/-!
# Corpora

The model of `packages/ingest/src/validate.ts` and `jsonl.ts`: the schema of a message, the
canonical order, the checks of a whole corpus, how a corpus is written and how it is read.
-/

namespace Ingest

open Js Core

/-! ## Messages -/

structure IngestMessage where
  id : Id
  author : String
  ts : Timestamp
  text : String
  replyTo : Option Id := none
  attachments : Option (List IngestAttachment) := none
  deriving DecidableEq, Repr

inductive CorpusIssueCode where
  | invalidJson
  | schema
  | duplicateId
  | danglingReply
  | forwardReply
  | selfReply
  | outOfOrder
  deriving DecidableEq, Repr

structure CorpusIssue where
  line : Nat
  code : CorpusIssueCode
  message : String
  deriving DecidableEq, Repr

/-! ## Order -/

def compareMessages (a b : IngestMessage) : Ordering :=
  if a.ts ≠ b.ts then if lt a.ts b.ts then .lt else .gt
  else if a.id ≠ b.id then if lt a.id b.id then .lt else .gt
  else .eq

def sortMessages (messages : List IngestMessage) : List IngestMessage :=
  messages.mergeSort fun a b => compareMessages a b != .gt

/-! ## Checks -/

section Checks

variable (messages : List IngestMessage) (lineOf : Nat → Nat)

/-- `seen.get(id)`, once every message was seen: the first message of an id. -/
def firstOf (id : Id) : Option Nat := messages.findIdx? fun message => message.id == id

/-- The issue of a message whose id an earlier one has. -/
def duplicateIssue (i : Nat) (message : IngestMessage) : Option CorpusIssue :=
  (firstOf messages message.id).bind fun previous =>
    if previous < i then
      some ⟨lineOf i, .duplicateId,
        s!"duplicate id {message.id} (first seen on line {lineOf previous})"⟩
    else none

def replyIssue (i : Nat) (message : IngestMessage) : Option CorpusIssue :=
  message.replyTo.bind fun parent =>
    if parent = message.id then
      some ⟨lineOf i, .selfReply, s!"message {message.id} replies to itself"⟩
    else
      match firstOf messages parent with
      | none => some ⟨lineOf i, .danglingReply,
          s!"reply_to {parent} does not resolve to a message in this file"⟩
      | some parentIndex =>
        if i < parentIndex then
          some ⟨lineOf i, .forwardReply,
            s!"reply_to {parent} points forward, to line {lineOf parentIndex}"⟩
        else none

def orderIssue (i : Nat) (previous current : IngestMessage) : Option CorpusIssue :=
  if compareMessages previous current = .gt then
    some ⟨lineOf i, .outOfOrder,
      s!"line is not in canonical (ts, id) order after {previous.id}"⟩
  else none

/-- The last loop of `checkCorpus`, from the message `i` on, which follows `previous`. -/
def orderIssues (previous : IngestMessage) : Nat → List IngestMessage → List CorpusIssue
  | _, [] => []
  | i, current :: rest =>
    (orderIssue lineOf i previous current).toList ++ orderIssues current (i + 1) rest

def checkCorpus : List CorpusIssue :=
  (messages.zipIdx.filterMap fun entry => duplicateIssue messages lineOf entry.2 entry.1) ++
    (messages.zipIdx.filterMap fun entry => replyIssue messages lineOf entry.2 entry.1) ++
    match messages with
    | [] => []
    | first :: rest => orderIssues lineOf first 1 rest

end Checks

/-! ## Schema -/

section Schemas

variable (platform : Platform)

/-- `z.url({ protocol: /^https?$/ })`. -/
def urlSchema : Schema.Reader String
  | some (.string url) =>
    match platform.readUrl url with
    | some url => .ok url
    | none => .error [⟨[], "Invalid URL"⟩]
  | value => .error (Schema.wrongType "string" value)

/-- `z.string().min(1)`. -/
def filled : Schema.Reader String := Schema.string [Schema.minLength 1]

/-- `IngestAttachment`. -/
def attachmentSchema : Schema.Reader IngestAttachment :=
  Schema.strictObject ["name", "url", "contentType"] fun fields =>
    Schema.both (fun (f : Option String → IngestAttachment) contentType => f contentType)
      (Schema.both (fun name url contentType => ⟨name, url, contentType⟩)
        (Schema.field fields "name" filled) (Schema.field fields "url" (urlSchema platform)))
      (Schema.field fields "contentType" (Schema.optional filled))

/-- `IngestMessage`. -/
def messageSchema : Schema.Reader IngestMessage :=
  Schema.strictObject ["id", "author", "ts", "text", "reply_to", "attachments"] fun fields =>
    Schema.both (fun f attachments => f attachments)
      (Schema.both (fun f replyTo => f replyTo)
        (Schema.both (fun f text => f text)
          (Schema.both (fun f ts => f ts)
            (Schema.both (fun id author ts text replyTo attachments =>
                (⟨id, author, ts, text, replyTo, attachments⟩ : IngestMessage))
              (Schema.field fields "id" idSchema) (Schema.field fields "author" filled))
            (Schema.field fields "ts" timestampSchema))
          (Schema.field fields "text" (Schema.string [])))
        (Schema.field fields "reply_to" (Schema.optional idSchema)))
      (Schema.field fields "attachments"
        (Schema.optional (Schema.minItems 1 (Schema.array (attachmentSchema platform)))))

end Schemas

/-! ## Writing -/

def attachmentFields (attachment : IngestAttachment) : List (String × Json) :=
  [("name", Json.string attachment.name), ("url", Json.string attachment.url)] ++
    attachment.contentType.toList.map fun contentType => ("contentType", Json.string contentType)

def serializeAttachment (attachment : IngestAttachment) : Json :=
  .object (attachmentFields attachment)

def messageFields (message : IngestMessage) (attachments : Option (List IngestAttachment)) :
    List (String × Json) :=
  [("id", Json.string message.id), ("author", Json.string message.author),
    ("ts", Json.string message.ts), ("text", Json.string message.text)] ++
    (message.replyTo.toList.map fun replyTo => ("reply_to", Json.string replyTo)) ++
    attachments.toList.map fun attachments =>
      ("attachments", Json.array (attachments.map serializeAttachment))

def asJson (message : IngestMessage) : Json := .object (messageFields message message.attachments)

/-- `ordered` of `serializeMessage`. -/
def orderedJson (message : IngestMessage) : Json :=
  .object (messageFields message (message.attachments.filter fun attachments => !attachments.isEmpty))

def serializeMessage (message : IngestMessage) : String := (orderedJson message).stringify

structure CorpusValidationError where
  issues : List CorpusIssue
  context : String
  deriving DecidableEq, Repr

def pathText (issue : Schema.Issue) : String := ".".intercalate issue.path

section Corpora

variable (platform : Platform)

/-- The issues that the schema finds in the message `i`. -/
def messageIssues (i : Nat) (message : IngestMessage) : List CorpusIssue :=
  match messageSchema platform (some (asJson message)) with
  | .ok _ => []
  | .error issues => issues.map fun issue => ⟨i + 1, .schema, pathText issue ++ ": " ++ issue.message⟩

def assertValidCorpus (messages : List IngestMessage) (context : String) :
    Except CorpusValidationError Unit :=
  let issues := checkCorpus messages (· + 1) ++
    messages.zipIdx.flatMap fun entry => messageIssues platform entry.2 entry.1
  if issues.isEmpty then .ok () else .error ⟨issues, context⟩

def corpusText (sorted : List IngestMessage) : String :=
  if sorted.isEmpty then "" else "\n".intercalate (sorted.map serializeMessage) ++ "\n"

def serializeCorpus (messages : List IngestMessage) (context : String) :
    Except CorpusValidationError String := do
  assertValidCorpus platform (sortMessages messages) context
  return corpusText (sortMessages messages)

/-! ## Reading -/

def readLine (lineNumber : Nat) (raw : String) : Except (List CorpusIssue) IngestMessage :=
  match Json.parse raw with
  | none => .error [⟨lineNumber, .invalidJson, platform.syntaxError raw⟩]
  | some json =>
    match messageSchema platform (some json) with
    | .ok message => .ok message
    | .error issues =>
      .error (issues.map fun issue => ⟨lineNumber, .schema, Schema.describeIssue issue⟩)

/-- The loop of `validateCorpusText` from the line `i` on: the issues, and the messages with their
line numbers. The blank line behind the last newline is skipped. -/
def readLines : Nat → List String → List CorpusIssue × List (IngestMessage × Nat)
  | _, [] => ([], [])
  | i, raw :: rest =>
    if (trim raw.toList).isEmpty then
      if rest.isEmpty then ([], [])
      else (⟨i + 1, .invalidJson, "blank line"⟩ :: (readLines (i + 1) rest).1,
        (readLines (i + 1) rest).2)
    else
      match readLine platform (i + 1) raw with
      | .error issues => (issues ++ (readLines (i + 1) rest).1, (readLines (i + 1) rest).2)
      | .ok message => ((readLines (i + 1) rest).1, (message, i + 1) :: (readLines (i + 1) rest).2)

structure CorpusReadResult where
  messages : List IngestMessage
  issues : List CorpusIssue
  deriving DecidableEq, Repr

/-- `text.split('\n')`. -/
def splitLines (text : String) : List String := (text.toList.splitOn '\n').map String.ofList

def validateCorpusText (text : String) : CorpusReadResult :=
  let (issues, found) := readLines platform 0 (splitLines text)
  let messages := found.map Prod.fst
  let lineNumbers := found.map Prod.snd
  { messages
    issues := (issues ++ checkCorpus messages fun i => (lineNumbers[i]?).getD (i + 1)).mergeSort
      fun a b => decide (a.line ≤ b.line) }

end Corpora

end Ingest
