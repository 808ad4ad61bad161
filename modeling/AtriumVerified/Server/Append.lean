import AtriumVerified.Server.Ledger

/-!
# Appending a batch

The model of `appendBatch` of `apps/server/src/ledger.ts`, from the moment its transaction holds the
ledger lock and has caught up: the retry key, the events of the batch one after the other, and the
receipt of the retry key at the end.
-/

namespace Server

open Core Js Postgres

/-! ## Requests -/

structure Idempotency where
  commandName : String
  key : String
  fingerprint : String
  expectedEventTypes : List EventType
  deriving DecidableEq, Repr

/-- `AppendBatchRequest`. The three callbacks run inside the transaction; whether they throw is up to
them. -/
structure Request where
  roomId : Id
  actor : Actor
  idempotency : Option Idempotency
  requireClean : Bool
  builds : List (Id → Timestamp → Json)

/-- A row of `command_receipts`. -/
structure Receipt where
  roomId : Uuid
  actorKind : ActorKind
  actorId : String
  commandName : String
  idempotencyKey : String
  payloadFingerprint : String
  firstRoomSeq : Nat
  lastRoomSeq : Nat
  eventCount : Nat
  deriving DecidableEq, Repr

def RoomEvent.type : RoomEvent → EventType
  | .core event _ => .core (match event.body with
    | .proposalRecorded _ => .proposalRecorded
    | .proposalRejected _ _ => .proposalRejected
    | .proposalSuperseded _ _ _ => .proposalSuperseded
    | .objectAccepted _ => .objectAccepted
    | .objectCorrected _ => .objectCorrected
    | .relationAdded _ => .relationAdded)
  | .server event => .server event.type

/-! ## Staging one event -/

/-- What one pass of the loop over `request.builds` draws from outside: the wall clock, a random id,
the other tables when the window is read and when the row is inserted, the next number of the
sequence, and whether `request.project` returns. -/
structure Draw where
  now : Int
  id : Id
  aroundWindow : Neighbours
  aroundInsert : Neighbours
  seq : Nat
  projected : Bool

/-- `results`, `stagedState`, `stagedAtMs` and `stagedSeq`: what a transaction has built so far. The
rows are inserted and not committed. -/
structure Staging where
  rows : List CoreEventRow
  state : CoreState
  atMs : Int
  seq : Nat

/-- The instant a batch mints: `Math.min(MAX_AT_MS, Math.max(Date.now(), stagedAtMs + 1))`. -/
def mintAtMs (now stagedAtMs : Int) : Int := min maxAtMs (max now (stagedAtMs + 1))

/-- `sameWindow`: windows are compared as texts in which every part carries its length. -/
def windowText : Option (List ProvenanceMessage) → Option String
  | none => none
  | some window =>
    let part (value : String) : String := toString (utf16Length value) ++ ":" ++ value
    some (String.join (window.map fun message =>
      part message.id ++ part message.authorId ++ part message.body))

def rejectionName : RejectionReason → String
  | .outOfOrder => "out_of_order"
  | .duplicate => "duplicate"

def demand (condition : Bool) (error : LedgerError) : Except LedgerError Unit :=
  if condition then .ok () else .error error

/-- A value that a cast of the database may fail to give. -/
def cast {α : Type} (value : Option α) : Except LedgerError α :=
  match value with
  | some a => .ok a
  | none => .error .database

/-- A `CommandError` of the room, as the ledger throws it. -/
def CommandError.thrown : CommandError → LedgerError
  | .invalid message => .command "invalid" message
  | .typeError reading => .typeError reading

/-- `built.id === id && built.at === at`. -/
def usesPosition (built : Json) (id : Id) (at_ : Timestamp) : Bool :=
  match jsonbGet built "id", jsonbGet built "at" with
  | some (.string builtId), some (.string builtAt) => builtId == id && builtAt == at_
  | _, _ => false

section Append

variable (codec : Codec)

/-- `RoomEvent.safeParse(built)`, and the refusal. -/
def guardEvent (built : Json) : Except LedgerError RoomEvent :=
  match codec.roomEvent built with
  | .ok event => .ok event
  | .error issues => .error (.command "invalid"
      ("refusing to append a payload that does not satisfy RoomEvent: " ++
        describeParseFailure issues))

/-- The row handed to `atrium_append_core_event`. -/
def rowFor (event : RoomEvent) (actor : Actor) (roomId : Id) : Except LedgerError NewRow := do
  let room ← cast (uuid roomId)
  let occurredAt ← cast (timestamptz event.at_)
  return {
    roomId := room
    id := event.id
    type := event.type
    actorKind := (actorToColumns actor).1
    actorId := (actorToColumns actor).2
    payload := codec.payload event
    occurredAt }

variable [Unicode]

/-- Fold a staged core event: the state after it. A row that the reducer would not consume is not
inserted, nor one with an issue when the request has to be clean. -/
def foldStaged (requireClean : Bool) (before : CoreState) (row : Row RoomEvent) :
    Except LedgerError CoreState :=
  match appendEvent codec.coreEvent before row with
  | .error e => .error (.typeError e.reading)
  | .ok (.rejected _ _ reason detail, _) => .error (.command "rejected"
      (rejectionName reason ++ ": " ++ detail ++
        " — re-mint the command at the current position and retry"))
  | .ok (.malformed _ detail, _) => .error (.command "invalid" detail)
  | .ok (.appliedWithIssue _ _ issues, after) =>
    if requireClean then
      .error (.command "invalid"
        ("atomic command refused: " ++ Js.join "; " (issues.map ReducerIssue.reason)))
    else .ok after
  | .ok (.applied _ _, after) => .ok after

def foldOrSkip (request : Request) (before : CoreState) (event : RoomEvent)
    (window : Option (List ProvenanceMessage)) :
    Except LedgerError (CoreState × Option (Option (List ProvenanceMessage))) :=
  if isCoreEvent event then do
    let after ← foldStaged codec request.requireClean before ⟨event, ⟨request.actor, window⟩⟩
    return (after, some window)
  else .ok (before, none)

/-- Whether the row was inserted with the window its event was folded under. -/
def keepsWindow (inserted : Option (List ProvenanceMessage)) :
    Option (Option (List ProvenanceMessage)) → Bool
  | none => true
  | some folded => windowText folded == windowText inserted

/-- One pass of the loop over `request.builds`, on top of the committed rows. -/
def stageBuild (request : Request) (rows : List CoreEventRow) (staging : Staging)
    (build : Id → Timestamp → Json) (draw : Draw) : Except LedgerError Staging := do
  let atMs := mintAtMs draw.now staging.atMs
  let at_ := toISOString atMs
  let built := build draw.id at_
  demand (usesPosition built draw.id at_) (.command "invalid"
    "a command may not choose its own ledger position — build() must use the assigned id and at")
  let event ← guardEvent codec built
  let roomId ← (resolveRoomId event request.roomId staging.state).mapError CommandError.thrown
  let row ← rowFor codec event request.actor roomId
  let (after, folded) ← foldOrSkip codec request staging.state event
    (draw.aroundWindow.receiptWindow row.roomId row.actorKind row.payload)
  demand (admits draw.aroundInsert (rows ++ staging.rows) row) .database
  demand (keepsWindow (draw.aroundInsert.receiptWindow row.roomId row.actorKind row.payload) folded)
    (.command "conflict"
      "the receipt window this event folded under is not the one the ledger recorded — refusing the append rather than storing a row that replays differently than it applied")
  demand draw.projected .database
  return {
    rows := staging.rows ++ [insertedRow draw.aroundInsert (rows ++ staging.rows) draw.seq row]
    state := after
    atMs
    seq := draw.seq }

end Append

/-! ## Retry keys -/

/-- Whether a receipt is the one a request looks for. -/
def Receipt.answers (receipt : Receipt) (room : Uuid) (actorKind : ActorKind) (actorId : String)
    (idempotency : Idempotency) : Bool :=
  receipt.roomId == room && receipt.actorKind == actorKind && receipt.actorId == actorId &&
    receipt.commandName == idempotency.commandName && receipt.idempotencyKey == idempotency.key

/-- What a retry key finds: nothing, or the batch it has paid for. -/
inductive RetryKey where
  | unused
  | replayed (entries : List LedgerEntry)

/-- The rows of the interval a receipt names, which have to be events of the expected types. -/
def recoverBatch (codec : Codec) (rows : List CoreEventRow) (receipt : Receipt)
    (idempotency : Idempotency) (state : CoreState) : Except LedgerError RetryKey := do
  let interval := rows.filter fun row => row.roomId == receipt.roomId &&
    receipt.firstRoomSeq ≤ row.roomSeq && row.roomSeq ≤ receipt.lastRoomSeq
  let recovered ← interval.mapM fun row =>
    match (parseRow codec row).entry with
    | .event seq roomSeq roomId event actor _ => .ok (seq, roomSeq, roomId, event, actor)
    | .malformed seq _ _ _ => .error (.command "conflict"
        s!"the durable command receipt resolves to a malformed row (seq {seq}) that cannot be verified")
  demand (recovered.length == receipt.eventCount &&
      recovered.map (fun entry => entry.2.2.2.1.type) == idempotency.expectedEventTypes)
    (.command "conflict" "the durable command receipt does not resolve to its exact ledger batch")
  return .replayed (recovered.map fun (seq, roomSeq, roomId, event, actor) =>
    .event seq roomSeq roomId event actor (issuesFor state event.id))

/-- The look-up of a retry key, before anything is built. -/
def checkRetryKey (codec : Codec) (request : Request) (rows : List CoreEventRow)
    (receipts : List Receipt) (state : CoreState) : Except LedgerError RetryKey :=
  match request.idempotency with
  | none => .ok .unused
  | some idempotency =>
    match (actorToColumns request.actor).2 with
    | none => .error (.command "invalid" "a system command cannot claim a retry key")
    | some actorId => do
      let room ← cast (uuid request.roomId)
      match receipts.find? fun receipt =>
          receipt.answers room (actorToColumns request.actor).1 actorId idempotency with
      | none => return .unused
      | some receipt =>
        demand (receipt.payloadFingerprint == idempotency.fingerprint)
          (.command "conflict" "that retry key already names a different command payload")
        recoverBatch codec rows receipt idempotency state

/-- The receipt a batch with a retry key leaves behind, inserted before the commit. -/
def mintReceipt (request : Request) (receipts : List Receipt) (staged : List CoreEventRow) :
    Except LedgerError (List Receipt) :=
  match request.idempotency with
  | none => .ok receipts
  | some idempotency =>
    match staged.head?, staged.getLast?, (actorToColumns request.actor).2 with
    | some first, some last, some actorId => do
      demand (staged.map (fun row => row.type) == idempotency.expectedEventTypes)
        (.command "conflict" "the atomic command built an unexpected event batch")
      let room ← cast (uuid request.roomId)
      let receipt : Receipt := {
        roomId := room
        actorKind := (actorToColumns request.actor).1
        actorId
        commandName := idempotency.commandName
        idempotencyKey := idempotency.key
        payloadFingerprint := idempotency.fingerprint
        firstRoomSeq := first.roomSeq
        lastRoomSeq := last.roomSeq
        eventCount := staged.length }
      demand (!receipts.any fun held => held.answers room receipt.actorKind actorId idempotency)
        .database
      return receipts ++ [receipt]
    | _, _, _ => .error (.command "conflict" "the atomic command produced no receipt interval")

end Server
