import AtriumVerified.Server.CoreEvents

/-!
# The ledger of one instance

The model of `apps/server/src/ledger.ts`: how a row is read, how an instance folds the rows it has
not seen (`catchUp`), and how one event of a batch is minted, folded and inserted inside the
transaction of `appendBatch`. What an instance keeps in memory is advanced by both.
-/

namespace Server

open Core Js Postgres

/-! ## Reading a row -/

/-- What the ledger reads and writes rows with: the validator, the JSON printer and the date parser
that the language runtime and its libraries supply. -/
structure Codec where
  /-- `RoomEvent.safeParse`. -/
  roomEvent : Json → Schema.Parsed RoomEvent
  /-- `CoreEvent.safeParse`, on an event that is a `RoomEvent`. -/
  coreEvent : EventSchema RoomEvent
  /-- `JSON.stringify(event)::jsonb`. -/
  payload : RoomEvent → Json
  /-- `Date.parse` of the text the driver returns for a `timestamptz`; `none` is `NaN`. -/
  dateParse : TimestampTz → Option Int
  /-- Every variant of `RoomEvent` reads the id with `Id` and the instant with `Timestamp`. -/
  roomEvent_reads : ∀ json event, roomEvent json = .ok event →
    jsonbGet json "id" = some (.string event.id) ∧ jsonbGet json "at" = some (.string event.at_)
  /-- So does every variant of `CoreEvent`. -/
  coreEvent_reads : ∀ event core, coreEvent.safeParse event = .ok core →
    core.id = event.id ∧ core.at_ = event.at_
  /-- From 1970 to the last canonical instant, `Date.parse` reads what the driver printed, and cuts
  it to milliseconds. -/
  dateParse_eq : ∀ micros, 0 ≤ micros → micros ≤ maxAtMs * 1000 →
    dateParse (TimestampTz.finite micros) = some (micros / 1000)

inductive LedgerEntry where
  | malformed (seq roomSeq : Nat) (roomId : Uuid) (reason : String)
  | event (seq roomSeq : Nat) (roomId : Uuid) (event : RoomEvent) (actor : Actor)
      (issues : List String)

structure LedgerRow where
  entry : LedgerEntry
  trustedMessages : Option (List ProvenanceMessage)
  occurredAt : TimestampTz

def describeParseFailure (issues : List Schema.Issue) : String :=
  let describe (issue : Schema.Issue) : String :=
    let path := Js.join "." issue.path
    (if path = "" then "<root>" else path) ++ ": " ++ issue.message
  let detail := Js.join "; " (issues.map describe)
  if 500 < utf16Length detail then String.ofList (takeUnits 500 detail.toList) ++ "…" else detail

/-- `actorFromColumns`; the column is an enumeration, so its kind is never unknown. -/
def actorFromColumns (kind : ActorKind) (id : Option String) : Actor :=
  match kind with
  | .human => .human (id.getD "")
  | .agent => .agent (id.getD "")
  | .model => .model (id.getD "")
  | .system => .system

def actorToColumns : Actor → ActorKind × Option String
  | .human userId => (.human, some userId)
  | .agent userId => (.agent, some userId)
  | .model model => (.model, some model)
  | .system => (.system, none)

/-- One message of a `TrustedWindow`. -/
def trustedMessage : Json → Schema.Parsed ProvenanceMessage
  | .object fields =>
    Schema.both (fun (ids : Id × Id) body => ⟨ids.1, ids.2, body⟩)
      (Schema.both Prod.mk (Schema.field fields "id" (Schema.string []))
        (Schema.field fields "authorId" (Schema.string [])))
      (Schema.field fields "body" (Schema.string []))
  | value => .error (Schema.wrongType "object" (some value))

/-- The messages of a `TrustedWindow`, from position `index` on. -/
def trustedItems (index : Nat) : List Json → Schema.Parsed (List ProvenanceMessage)
  | [] => .ok []
  | item :: rest =>
    Schema.both List.cons
      ((trustedMessage item).mapError fun issues =>
        issues.map fun issue => { issue with path := toString index :: issue.path })
      (trustedItems (index + 1) rest)

/-- `TrustedWindow.safeParse`; a `NULL` column reads as `null`. -/
def trustedWindow : Option Json → Schema.Parsed (Option (List ProvenanceMessage))
  | none | some .null => .ok none
  | some (.array items) => (trustedItems 0 items).map some
  | some value => .error (Schema.wrongType "array" (some value))

/-- `parsed.data.type === 'object_accepted'`. -/
def RoomEvent.isAcceptance : RoomEvent → Bool
  | .core event _ => match event.body with
    | .objectAccepted _ => true
    | _ => false
  | .server _ => false

section Instance

variable (codec : Codec)

def parseRow (row : CoreEventRow) : LedgerRow :=
  let malformed (reason : String) : LedgerRow :=
    ⟨.malformed row.seq row.roomSeq row.roomId reason, none, row.occurredAt⟩
  match codec.roomEvent row.payload with
  | .error issues => malformed ("payload: " ++ describeParseFailure issues)
  | .ok event =>
    let actor := actorFromColumns row.actorKind row.actorId
    let entry := LedgerEntry.event row.seq row.roomSeq row.roomId event actor []
    match trustedWindow row.trustedMessages with
    | .ok window => ⟨entry, window, row.occurredAt⟩
    | .error issues =>
      if event.isAcceptance then malformed ("trusted_messages: " ++ describeParseFailure issues)
      else ⟨entry, none, row.occurredAt⟩

/-- What a row contributes to the fold: nothing when it is malformed or the reducer does not fold
its kind. -/
def coreRow (row : CoreEventRow) : Option (Row RoomEvent) :=
  let parsed := parseRow codec row
  match parsed.entry with
  | .malformed _ _ _ _ => none
  | .event _ _ _ event actor _ =>
    if isCoreEvent event then some ⟨event, ⟨actor, parsed.trustedMessages⟩⟩ else none

/-! ## Catching up -/

structure Memory where
  state : CoreState
  lastSeq : Nat
  lastAtMs : Int
  /-- The rows that parsed as a `RoomEvent` and not as a `CoreEvent`. -/
  coreMalformedReasonBySeq : List (Nat × String)

def emptyMemory : Memory := ⟨emptyState, 0, 0, []⟩

inductive LedgerError where
  /-- A `CommandError`, with its code. -/
  | command (code message : String)
  /-- A property of `undefined` was read. -/
  | typeError (reading : String)
  /-- `ledger integrity: …`. -/
  | integrity (eventId : Id)
  /-- The database refused a statement or the connection was lost. -/
  | database
  deriving DecidableEq, Repr

/-- `outcome.outcome === 'rejected'`. -/
def isRejected : EventOutcome → Bool
  | .rejected _ _ _ _ => true
  | _ => false

/-- `PAGE`. -/
def pageSize : Nat := 500

/-- The rows `catchUp` reads next: those behind `lastSeq` in order, at most one page. -/
def nextPage (rows : List CoreEventRow) (lastSeq : Nat) : List CoreEventRow :=
  (rows.filter fun row => lastSeq < row.seq).take pageSize

/-- `lastAtMs = Math.max(lastAtMs, Date.parse(occurredAt))`, unless that is `NaN`. -/
def raiseWatermark (lastAtMs : Int) (row : CoreEventRow) : Int :=
  match codec.dateParse row.occurredAt with
  | some atMs => max lastAtMs atMs
  | none => lastAtMs

/-- `lastAtMs` of an instance that has read these rows. -/
def watermark (rows : List CoreEventRow) : Int := rows.foldl (raiseWatermark codec) 0

/-- `coreMalformed`: why a row of the page does not parse as a `CoreEvent`, with its event id. -/
def coreMalformed (page : List CoreEventRow) : List (Id × String) :=
  page.filterMap fun row => (coreRow codec row).bind fun core =>
    match codec.coreEvent.safeParse core.event with
    | .ok _ => none
    | .error issues => some (core.event.id, parseFailureDetail issues)

def issuesFor (state : CoreState) (eventId : Id) : List String :=
  (state.issues.filter fun issue => issue.eventId == eventId).map ReducerIssue.reason

/-- What `catchUp` returns for a row it has folded, and the reason it notes for a malformed one. -/
def foldedEntry (state : CoreState) (reasons : List (Id × String)) (row : CoreEventRow) :
    LedgerEntry × Option (Nat × String) :=
  match (parseRow codec row).entry with
  | .malformed seq roomSeq roomId reason => (.malformed seq roomSeq roomId reason, none)
  | .event seq roomSeq roomId event actor _ =>
    match reasons.find? fun entry => entry.1 == event.id with
    | some (_, detail) =>
      let reason := "core: " ++ detail
      (.malformed seq roomSeq roomId reason, some (seq, reason))
    | none => (.event seq roomSeq roomId event actor (issuesFor state event.id), none)

variable [Unicode]

/-- One page of `catchUp`: the memory afterwards, and the entries or the error. The state is replaced
before a rejected outcome is noticed; a raised `TypeError` leaves everything as it was. -/
def foldPage (memory : Memory) (page : List CoreEventRow) :
    Memory × Except LedgerError (List LedgerEntry) :=
  match foldEvents codec.coreEvent (page.filterMap (coreRow codec)) memory.state with
  | .error e => (memory, .error (.typeError e.reading))
  | .ok (outcomes, state) =>
    match outcomes.find? isRejected with
    | some (.rejected event _ _ _) => ({ memory with state }, .error (.integrity event.id))
    | _ =>
      let entries := page.map (foldedEntry codec state (coreMalformed codec page))
      ({ state
         lastSeq := page.foldl (fun seq row => max seq row.seq) memory.lastSeq
         lastAtMs := page.foldl (raiseWatermark codec) memory.lastAtMs
         coreMalformedReasonBySeq :=
           memory.coreMalformedReasonBySeq ++ entries.filterMap Prod.snd },
        .ok (entries.map Prod.fst))

end Instance

end Server
