import AtriumVerified.Lib.Calendar
import AtriumVerified.Lib.PlainObject
import AtriumVerified.Web.Journal

/-!
# The realtime client

The model of `createRealtimeClient` of `apps/web/src/lib/realtime.ts`: the rooms a client looks at,
the journal behind them, the frames it handles and sends, its sockets and the messages it has not
seen come back. Listeners only look, so telling them is the reading of the room that `changed` does.
A timer is a step that may be taken at any time.
-/

namespace Web

/-! ## Rooms -/

/-- `PendingMessage.status`. -/
inductive PendingStatus where
  | pending
  | failed
  deriving DecidableEq, Repr

structure PendingMessage where
  clientMessageId : String
  body : String
  /-- `item.at`. -/
  at_ : String
  status : PendingStatus
  error : Option String
  attachments : List Js.Json
  references : List Js.Json
  retryable : Option Bool
  roomSeq : Option Nat
  kind : MessageKind

structure RoomView where
  roomId : String
  lastSeq : Nat
  head : Nat
  seenSeq : Nat
  events : List Envelope
  pending : List PendingMessage
  presence : Js.Map String String
  typing : List String
  subscribed : Bool
  progress : Js.Map String ProgressFrame
  settledSessions : List String
  progressFloor : Js.Map String Nat

/-- Reading a property of an object literal: `Object.prototype` answers for a key it has. -/
def property {α : Type} (object : Js.Map String α) (key : String) : Js.Slot α :=
  match object.get key with
  | some value => .own value
  | none => if key ∈ Js.prototypeKeys then .inherited else .absent

/-- `object[key] = value`: without an own property of that name, `__proto__` goes to the accessor. -/
def assign {α : Type} (object : Js.Map String α) (key : String) (value : α) : Js.Map String α :=
  if key = "__proto__" ∧ object.get key = none then object else object.set key value

def addToSet (set : List String) (element : String) : List String :=
  if element ∈ set then set else set ++ [element]

def changeFirst {α : Type} (condition : α → Bool) (change : α → α) : List α → List α
  | [] => []
  | item :: rest =>
    if condition item then change item :: rest else item :: changeFirst condition change rest

/-- The room that `view` makes out of what the journal holds. -/
def resumedRoom (roomId : String) (held : HeldRoom) : RoomView :=
  let events := held.events.filterMap RoomEntry.shown
  { roomId
    lastSeq := held.lastSeq
    head := held.lastSeq
    seenSeq := 0
    events
    pending := []
    presence := Js.Map.empty
    typing := []
    subscribed := false
    progress := Js.Map.empty
    settledSessions := (events.filterMap fun entry => entry.event.settled).foldl addToSet []
    progressFloor := Js.Map.empty }

/-! ## The client -/

structure ClientOptions (σ : Type) where
  userId : String
  journal : RoomJournal σ
  catchUpPageSize : Option Nat
  maxStalledCatchups : Nat
  /-- Whether a dropped socket is replaced. -/
  reconnect : Bool

inductive ConnectionStatus where
  | idle
  | connecting
  | open_
  | reconnecting
  | closed
  deriving DecidableEq, Repr

structure StalledGap where
  first : Nat
  last : Nat
  interval : Nat
  nextProbeAt : Nat
  deriving DecidableEq, Repr

structure InFlight where
  roomId : String
  clientMessageId : String
  deriving DecidableEq, Repr

/-- The state of a client. Sockets are numbered in the order in which they were attached. -/
structure Client (σ : Type) where
  store : σ
  rooms : Js.Map String RoomView
  inFlight : Js.Map String InFlight
  stalled : Js.Map String Nat
  stalledGap : Js.Map String StalledGap
  socket : Option Nat
  /-- How many sockets were attached. -/
  attached : Nat
  /-- The sockets whose `readyState` is `OPEN`. -/
  openSockets : List Nat
  /-- The calls of `connect` that wait for the URL. -/
  connecting : Nat
  status : ConnectionStatus
  attempts : Nat
  closedByUs : Bool
  nextCommandId : Nat
  /-- Every frame that was sent, with the socket it left on. -/
  sent : List (Nat × ClientFrame)
  /-- The messages given to `onError`. -/
  errors : List String

/-- `createRealtimeClient`. -/
def Client.initial {σ : Type} (store : σ) : Client σ where
  store := store
  rooms := Js.Map.empty
  inFlight := Js.Map.empty
  stalled := Js.Map.empty
  stalledGap := Js.Map.empty
  socket := none
  attached := 0
  openSockets := []
  connecting := 0
  status := .idle
  attempts := 0
  closedByUs := false
  nextCommandId := 0
  sent := []
  errors := []

namespace Client

variable {σ : Type} (options : ClientOptions σ) (client : Client σ)

def view (roomId : String) : RoomView × Client σ :=
  match client.rooms.get roomId with
  | some existing => (existing, client)
  | none =>
    let (held, store) := options.journal.load client.store roomId
    let room := resumedRoom roomId held
    (room, { client with store, rooms := client.rooms.set roomId room })

def changed (roomId : String) : Client σ := (client.view options roomId).2

def modifyRoom (roomId : String) (change : RoomView → RoomView) : Client σ :=
  let (room, client) := client.view options roomId
  { client with rooms := client.rooms.set roomId (change room) }

def fail (message : String) : Client σ := { client with errors := client.errors ++ [message] }

def send (frame : ClientFrame) : Client σ :=
  match client.socket with
  | none => client
  | some socket =>
    if socket ∈ client.openSockets then { client with sent := client.sent ++ [(socket, frame)] }
    else client

def requestSince (roomId : String) : Client σ :=
  let (room, client) := client.view options roomId
  client.send (.since roomId room.lastSeq options.catchUpPageSize)

def acknowledgeHead (roomId : String) : Client σ :=
  let (room, client) := client.view options roomId
  client.send (.ackHead roomId room.lastSeq)

/-! ## Entries -/

/-- The message of an entry that came back is no longer pending: `reconcilePending`. -/
def reconcilePending (userId : String) (entry : Envelope) (pending : List PendingMessage) :
    List PendingMessage :=
  match entry.event.clientMessageId with
  | none => pending
  | some clientMessageId =>
    if entry.event.type ≠ "message_posted" then pending
    else if entry.actor.userId ≠ some userId then pending
    else pending.filter fun item => item.clientMessageId != clientMessageId

/-- The message that stands at the position of a tombstone can not be read back. -/
def failMalformed (roomSeq : Nat) : List PendingMessage → List PendingMessage :=
  changeFirst (fun item => item.roomSeq == some roomSeq && item.status == .pending) fun item =>
    { item with
      status := .failed
      error := some "the message could not be read back from the ledger (malformed row)"
      retryable := some false }

def settleSession (sessionId : String) (room : RoomView) : RoomView :=
  { room with
    settledSessions := addToSet room.settledSessions sessionId
    progress := room.progress.delete sessionId }

def applyEvent (userId : String) (entry : Envelope) (room : RoomView) : RoomView :=
  let shown := if entry.issues ≠ [] then room else
    let room := { room with events := room.events ++ [entry] }
    match entry.event.settled with
    | some sessionId => settleSession sessionId room
    | none => room
  { shown with
    lastSeq := entry.roomSeq
    head := max shown.head entry.roomSeq
    pending := reconcilePending userId entry shown.pending }

def applyTombstone (row : Tombstone) (room : RoomView) : RoomView :=
  { room with
    lastSeq := row.roomSeq
    head := max room.head row.roomSeq
    pending := failMalformed row.roomSeq room.pending }

def applyNext (userId : String) : RoomEntry → RoomView → RoomView
  | .event entry => applyEvent userId entry
  | .tombstone row => applyTombstone row

def applyEntry (entry : RoomEntry) : Client σ :=
  let (room, client) := client.view options entry.roomId
  if entry.roomSeq ≤ room.lastSeq then client
  else if room.lastSeq + 1 < entry.roomSeq then client.requestSince options entry.roomId
  else
    let client := { client with
      store := options.journal.commit client.store entry.roomId entry entry.roomSeq }
    (client.modifyRoom options entry.roomId (applyNext options.userId entry)).changed options
      entry.roomId

/-! ## Progress -/

/-- One snapshot of `recoverProgress`: the floor, the previews and whether either moved. -/
def raiseFloor (state : Js.Map String Nat × Js.Map String ProgressFrame × Bool)
    (snapshot : String × Nat) : Js.Map String Nat × Js.Map String ProgressFrame × Bool :=
  let (floor, progress, raised) := state
  let (sessionId, progressSeq) := snapshot
  let raises : Bool := match property floor sessionId with
    | .absent => true
    | .own prior => prior < progressSeq
    -- A number is not greater than a function.
    | .inherited => false
  let superseded : Bool := match property progress sessionId with
    | .own held => held.progressSeq < progressSeq
    -- `undefined` is not less than a number.
    | .absent | .inherited => false
  (if raises then assign floor sessionId progressSeq else floor,
    if superseded then progress.delete sessionId else progress, raised || raises || superseded)

def recoverProgress (roomId : String) (snapshots : List (String × Nat)) : Client σ :=
  if snapshots = [] then client
  else
    let (room, client) := client.view options roomId
    let (floor, progress, raised) :=
      snapshots.foldl raiseFloor (room.progressFloor, room.progress, false)
    -- The previews are dropped as they are found, the floor is written at the end.
    let client := client.modifyRoom options roomId fun room => { room with progress }
    if raised then
      (client.modifyRoom options roomId fun room => { room with progressFloor := floor }).changed
        options roomId
    else client

/-- `floor !== undefined && frame.progressSeq <= floor`. -/
def staleProgress (floors : Js.Map String Nat) (frame : ProgressFrame) : Bool :=
  match property floors frame.sessionId with
  | .own floor => frame.progressSeq ≤ floor
  | .absent | .inherited => false

def handleProgress (frame : ProgressFrame) : Client σ :=
  let (room, client) := client.view options frame.roomId
  if frame.sessionId ∈ room.settledSessions then client
  else
    if staleProgress room.progressFloor frame then client
    else (client.modifyRoom options frame.roomId fun room => { room with
      progress := room.progress.set frame.sessionId frame
      progressFloor := room.progressFloor.set frame.sessionId frame.progressSeq }).changed options
        frame.roomId

/-! ## Catching up -/

def stallReprobeBaseMs : Nat := 4000

def stallReprobeCapMs : Nat := 180000

/-- The `subscribed` frame. A cursor past the head means that the journal is not of this room. -/
def handleSubscribed (roomId : String) (head seenSeq : Nat) (progress : List (String × Nat)) :
    Client σ :=
  let (room, client) := client.view options roomId
  let client := client.modifyRoom options roomId fun room => { room with subscribed := true }
  let client := if room.lastSeq ≤ head then client else
    let client := client.fail
      s!"room \"{roomId}\" resumed at {room.lastSeq} but the server says its head is {head}; the stored journal is not this room's history and has been discarded"
    let client := { client with store := options.journal.reset client.store roomId }
    client.modifyRoom options roomId fun room => { room with events := [], lastSeq := 0, pending := [] }
  let client := client.modifyRoom options roomId fun room => { room with head, seenSeq }
  let client := (client.changed options roomId).changed options roomId
  (client.recoverProgress options roomId progress).requestSince options roomId

/-- The `head` frame, at a time. A gap that did not close is asked for again less and less often. -/
def handleHead (roomId : String) (head now : Nat) : Client σ :=
  let client := client.modifyRoom options roomId fun room => { room with head := max room.head head }
  let (room, client) := client.view options roomId
  let client :=
    if room.lastSeq < room.head then
      match client.stalledGap.get roomId with
      | some latch =>
        if latch.first = room.lastSeq then
          if now < latch.nextProbeAt then client
          else
            let interval := min (latch.interval * 2) stallReprobeCapMs
            { client with
              stalledGap := client.stalledGap.set roomId
                { latch with interval, nextProbeAt := now + interval } }.requestSince options roomId
        else { client with stalledGap := client.stalledGap.delete roomId }.requestSince options roomId
      | none => client.requestSince options roomId
    else client
  (client.acknowledgeHead options roomId).changed options roomId

/-- The entries of a page, of which those that can not be read are counted. -/
def applyPage (entries : List (Option RoomEntry)) : Client σ × Nat :=
  entries.foldl (fun (client, skipped) entry => match entry with
    | some entry => (client.applyEntry options entry, skipped)
    | none => (client, skipped + 1)) (client, 0)

/-- Count the pages in a row that brought nothing. -/
def countRound (roomId : String) (progressed : Bool) : Nat × Client σ :=
  let rounds := if progressed then 0 else (client.stalled.get roomId).getD 0 + 1
  (rounds, { client with
    stalledGap := if progressed then client.stalledGap.delete roomId else client.stalledGap
    stalled := client.stalled.set roomId rounds })

/-- A gap that does not close is reported once, and asked for less often. -/
def latchGap (roomId : String) (room : RoomView) (rounds now : Nat) : Client σ :=
  if (client.stalledGap.get roomId).map StalledGap.first = some room.lastSeq then client
  else
    let client := client.fail
      s!"catch-up for room \"{roomId}\" stalled at {room.lastSeq} of {room.head} after {rounds} rounds with no progress"
    { client with
      stalledGap := client.stalledGap.set roomId
        ⟨room.lastSeq, room.head, stallReprobeBaseMs, now + stallReprobeBaseMs⟩ }

/-- A page that leaves a gap: ask again, or give up for a while. -/
def pursueGap (roomId : String) (room : RoomView) (before now : Nat) : Client σ :=
  let (rounds, client) := client.countRound roomId (before < room.lastSeq)
  if options.maxStalledCatchups ≤ rounds then client.latchGap roomId room rounds now
  else client.requestSince options roomId

def closeGap (roomId : String) : Client σ :=
  { client with
    stalled := client.stalled.delete roomId
    stalledGap := client.stalledGap.delete roomId }.acknowledgeHead options roomId

/-- The entries of a page that could not be read are reported. -/
def reportSkipped (roomId : String) (skipped : Nat) : Client σ :=
  if skipped = 0 then client
  else
    let entries := if skipped = 1 then "y" else "ies"
    client.fail
      s!"catch-up for room \"{roomId}\" contained {skipped} entr{entries} this client could not read; they were skipped"

/-- The `catchup` frame, at a time. -/
def handleCatchup (page : CatchupPage) (now : Nat) : Client σ :=
  let (room, client) := client.view options page.roomId
  let before := room.lastSeq
  let client := client.modifyRoom options page.roomId fun room =>
    { room with head := max room.head page.head }
  let (client, skipped) := client.applyPage options page.entries
  let client := client.reportSkipped page.roomId skipped
  let (room, client) := client.view options page.roomId
  let client :=
    if room.lastSeq < room.head ∨ page.more then
      client.pursueGap options page.roomId room before now
    else client.closeGap options page.roomId
  client.changed options page.roomId

/-! ## Other frames -/

def changePending (dispatched : InFlight) (change : PendingMessage → PendingMessage) : Client σ :=
  client.modifyRoom options dispatched.roomId fun room => { room with
    pending := changeFirst (fun item => item.clientMessageId == dispatched.clientMessageId) change
      room.pending }

def answered (commandId : String) : Client σ :=
  { client with inFlight := client.inFlight.delete commandId }

def dispatched (commandId : String) (message : InFlight) : Client σ :=
  { client with inFlight := client.inFlight.set commandId message }

/-- The `ack` frame. -/
def handleAck (commandId : String) (roomSeq : Option Nat) (issues : List String) : Client σ :=
  let dispatched := client.inFlight.get commandId
  let client := client.answered commandId
  let client := match dispatched, roomSeq with
    | some dispatched, some roomSeq =>
      client.changePending options dispatched fun item => { item with roomSeq := some roomSeq }
    | _, _ => client
  if issues = [] then client
  else
    let list := "; ".intercalate issues
    client.fail s!"the server accepted the command with issues: {list}"

/-- The `nack` frame. -/
def handleNack (commandId code message : String) : Client σ :=
  let dispatched := client.inFlight.get commandId
  let client := client.answered commandId
  let client := match dispatched with
    | some dispatched =>
      (client.changePending options dispatched fun item => { item with
        status := .failed
        error := some message
        retryable := some (code == "retry") }).changed options dispatched.roomId
    | none => client
  client.fail s!"{code}: {message}"

/-- `handleFrame`, at a time. -/
def handleFrame (frame : ServerFrame) (now : Nat) : Client σ :=
  match frame with
  | .welcome | .pong => client
  | .subscribed roomId head seenSeq progress =>
    client.handleSubscribed options roomId head seenSeq progress
  | .unsubscribed roomId =>
    client.modifyRoom options roomId fun room => { room with subscribed := false }
  | .event entry => client.applyEntry options (.event entry)
  | .tombstone entry => client.applyEntry options (.tombstone entry)
  | .head roomId head => client.handleHead options roomId head now
  | .catchup page => client.handleCatchup options page now
  | .ack commandId roomSeq issues => client.handleAck options commandId roomSeq issues
  | .nack commandId code message => client.handleNack options commandId code message
  | .presence roomId userId state => client.modifyRoom options roomId fun room => { room with
      presence := room.presence.set userId state }
  | .typing roomId userId typing => client.modifyRoom options roomId fun room =>
      let others := room.typing.filter fun id => id != userId
      { room with typing := if typing then others ++ [userId] else others }
  | .projectionChanged roomId => client.changed options roomId
  | .progress frame => client.handleProgress options frame
  | .seen roomId userId seenSeq =>
    if userId ≠ options.userId then client
    else client.modifyRoom options roomId fun room => { room with seenSeq }
  | .error message => client.fail message

/-! ## Sockets -/

/-- The current socket is open: `isConnected`. -/
def connected : Bool :=
  match client.socket with
  | some socket => socket ∈ client.openSockets
  | none => false

/-- A message that has no answer when the connection drops can be sent again. -/
def dropMessage (item : PendingMessage) : PendingMessage :=
  if item.status = .pending then { item with
    status := .failed
    error := some "the connection dropped before the server answered"
    retryable := some true }
  else item

def dropRoom (room : RoomView) : RoomView :=
  { room with
    subscribed := false
    presence := Js.Map.empty
    typing := []
    progress := Js.Map.empty }

/-- A command whose answer was lost with the connection. -/
def dropCommand (entry : String × InFlight) : Client σ :=
  (client.changePending options entry.2 dropMessage).answered entry.1

def dropVolatileState : Client σ :=
  let client := client.inFlight.entries.foldl (dropCommand options) client
  { client with
    rooms := client.rooms.mapValues fun _ => dropRoom
    stalled := client.rooms.keys.foldl Js.Map.delete client.stalled
    stalledGap := client.rooms.keys.foldl Js.Map.delete client.stalledGap }

/-- `connect`, up to the URL. -/
def connect : Client σ :=
  if client.socket.isSome then client
  else { client with
    closedByUs := false
    status := if client.attempts = 0 then .connecting else .reconnecting
    connecting := client.connecting + 1 }

/-- The URL is there: `attach`. -/
def attach : Client σ :=
  if client.connecting = 0 then client
  else { client with
    connecting := client.connecting - 1
    socket := some client.attached
    attached := client.attached + 1 }

def connectFailed (message : String) : Client σ :=
  if client.connecting = 0 then client
  else { client with connecting := client.connecting - 1, status := .closed }.fail message

/-- `onopen` of a socket. -/
def onOpen (socket : Nat) : Client σ :=
  let client := { client with
    openSockets := socket :: client.openSockets
    attempts := 0
    status := .open_ }
  client.rooms.keys.foldl (fun client roomId =>
    (client.modifyRoom options roomId fun room => { room with subscribed := false }).send
      (.subscribe roomId)) client

/-- `onclose` of a socket. -/
def onClose (socket : Nat) : Client σ :=
  let client := { client with
    openSockets := client.openSockets.filter fun other => other != socket
    socket := none }
  let client := client.dropVolatileState options
  if client.closedByUs ∨ options.reconnect = false then { client with status := .closed }
  else { client with status := .reconnecting, attempts := client.attempts + 1 }

def close : Client σ :=
  let openSockets := match client.socket with
    | some socket => client.openSockets.filter fun other => other != socket
    | none => client.openSockets
  let client := { client with closedByUs := true, openSockets, socket := none }
  { client.dropVolatileState options with status := .closed }

/-! ## What a person does -/

def join (roomId : String) : Client σ := (client.changed options roomId).send (.subscribe roomId)

def leave (roomId : String) : Client σ :=
  let client := client.send (.unsubscribe roomId)
  { client with
    rooms := client.rooms.delete roomId
    stalled := client.stalled.delete roomId
    stalledGap := client.stalledGap.delete roomId }

def command (command : ClientCommand) : String × Client σ :=
  let commandId := "c" ++ toString (client.nextCommandId + 1)
  (commandId, { client with nextCommandId := client.nextCommandId + 1 }.send
    (.command commandId command))

/-- The digits of `Number.prototype.toString(36)`. -/
def digits36 : Nat → Nat → List Char → List Char
  | 0, _, digits => digits
  | fuel + 1, n, digits =>
    let d := n % 36
    let digit := Char.ofNat (if d < 10 then 48 + d else 87 + d)
    if n / 36 = 0 then digit :: digits else digits36 fuel (n / 36) (digit :: digits)

def freshMessageId (semantic : Bool) (now : Nat) : String :=
  (if semantic then "semantic:" else "") ++ options.userId ++ ":" ++ toString now ++ ":" ++
    String.ofList (digits36 (client.nextCommandId + 2) (client.nextCommandId + 1) [])

/-- What `sendMessage` and `answerMessage` do. -/
def postMessage (roomId body : String) (kind : MessageKind) (attachments references : List Js.Json)
    (semantic : Bool) (now : Nat) : Client σ :=
  let clientMessageId := client.freshMessageId options semantic now
  let client := client.modifyRoom options roomId fun room => { room with
    pending := room.pending ++ [{
      clientMessageId, body
      at_ := String.ofList (Calendar.fromMillis now).isoText
      status := .pending
      error := none
      attachments, references
      retryable := none
      roomSeq := none
      kind }] }
  let (commandId, client) :=
    client.command (.message roomId body clientMessageId kind attachments references)
  (client.dispatched commandId ⟨roomId, clientMessageId⟩).changed options roomId

def sendMessage (roomId body : String) (replyToId : Option String)
    (attachments references : List Js.Json) (semantic : Bool) (now : Nat) : Client σ :=
  client.postMessage options roomId body (.sendMessage replyToId) attachments references semantic now

def answerMessage (roomId questionId body : String) (attachments : List Js.Json) (now : Nat) :
    Client σ :=
  client.postMessage options roomId body (.answerMessage questionId) attachments [] false now

def retryMessage (roomId clientMessageId : String) : Client σ :=
  let (room, client) := client.view options roomId
  match room.pending.find? fun item => item.clientMessageId == clientMessageId with
  | none => client
  | some item =>
    if item.status = .failed ∧ item.retryable = some true ∧ client.status = .open_ ∧
        room.subscribed then
      let references := match item.kind with
        | .sendMessage _ => item.references
        | .answerMessage _ => []
      let (commandId, client) := client.command (.message roomId item.body item.clientMessageId
        item.kind item.attachments references)
      let client := client.changePending options ⟨roomId, clientMessageId⟩ fun item => { item with
        status := .pending
        error := none
        retryable := none }
      (client.dispatched commandId ⟨roomId, clientMessageId⟩).changed options roomId
    else client

/-! ## Runs -/

inductive Step where
  /-- A socket that is attached delivers a frame that could be read. -/
  | frame (frame : ServerFrame) (now : Nat)
  /-- A frame that is no JSON or does not parse, or a socket error. -/
  | failed (message : String)
  | connect
  | attach
  | connectFailed (message : String)
  | opened (socket : Nat)
  | closed (socket : Nat)
  | close
  | join (roomId : String)
  | leave (roomId : String)
  /-- `room`, `lastSeq` and whatever else reads a room. -/
  | look (roomId : String)
  | sendMessage (roomId body : String) (replyToId : Option String)
      (attachments references : List Js.Json) (semantic : Bool) (now : Nat)
  | answerMessage (roomId questionId body : String) (attachments : List Js.Json) (now : Nat)
  | retryMessage (roomId clientMessageId : String)
  | command (command : ClientCommand)
  | recoverProgress (roomId : String) (snapshots : List (String × Nat))

def step : Step → Client σ
  | .frame frame now => client.handleFrame options frame now
  | .failed message => client.fail message
  | .connect => client.connect
  | .attach => client.attach
  | .connectFailed message => client.connectFailed message
  | .opened socket => client.onOpen options socket
  | .closed socket => client.onClose options socket
  | .close => client.close options
  | .join roomId => client.join options roomId
  | .leave roomId => client.leave roomId
  | .look roomId => client.changed options roomId
  | .sendMessage roomId body replyToId attachments references semantic now =>
    client.sendMessage options roomId body replyToId attachments references semantic now
  | .answerMessage roomId questionId body attachments now =>
    client.answerMessage options roomId questionId body attachments now
  | .retryMessage roomId clientMessageId => client.retryMessage options roomId clientMessageId
  | .command command => (client.command command).2
  | .recoverProgress roomId snapshots => client.recoverProgress options roomId snapshots

def run (steps : List Step) : Client σ := steps.foldl (step options) client

end Client

/-! ## What a step applies -/

/-- The entries of a list that are applied one after the other from a cursor on. -/
def inPlace : Nat → List RoomEntry → List RoomEntry
  | _, [] => []
  | cursor, entry :: rest =>
    if entry.roomSeq = cursor + 1 then entry :: inPlace entry.roomSeq rest else inPlace cursor rest

def Client.applied {σ : Type} (options : ClientOptions σ) (client : Client σ) :
    Client.Step → List RoomEntry
  | .frame (.event entry) _ => inPlace (client.view options entry.roomId).1.lastSeq [.event entry]
  | .frame (.tombstone row) _ => inPlace (client.view options row.roomId).1.lastSeq [.tombstone row]
  | .frame (.catchup page) _ =>
    inPlace (client.view options page.roomId).1.lastSeq (page.entries.filterMap id)
  | _ => []

end Web
