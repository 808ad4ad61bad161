import AtriumVerified.Web.Proofs.TimelineProofs

/-!
# A client and the server behind its sockets

The model of the part of `apps/server/src/ws-server.ts` that a client of rooms meets: its connections,
the hub, the handlers of `subscribe` and `since` that are suspended at an `await`, and the frames that
were sent on a socket and did not arrive yet. Every suspension is a state of its own, so that anything
may happen between two of them: appends, broadcasts, other handlers and whatever the client does.
-/

namespace Realtime

open Web

/-! ## The ledger -/

/-- `head`: `coalesce(max(room_seq), 0)`. -/
def head (rows : List RoomEntry) : Nat := (rows.map RoomEntry.roomSeq).foldl max 0

theorem roomId_of_mem {ledgers : Ledgers} {roomId : String} {entry : RoomEntry}
    (h : entry ∈ ledgers.rows roomId) : entry.roomId = roomId := by
  obtain ⟨i, hi⟩ := List.getElem?_of_mem h
  exact (ledgers.located roomId i entry hi).1

/-- `catchUpPage`: the rows behind a position, and where the room stands. -/
def catchUpPage (ledgers : Ledgers) (roomId : String) (roomSeq limit : Nat) : CatchupPage :=
  let entries := ((ledgers.rows roomId).filter fun entry => roomSeq < entry.roomSeq).take limit
  let head := head (ledgers.rows roomId)
  let last := (entries.getLast?.map RoomEntry.roomSeq).getD roomSeq
  { roomId, first := roomSeq, last, head, more := last < head, entries := entries.map some
    sameRoom := by
      intro entry hentry
      obtain ⟨row, hrow, hsame⟩ := List.mem_map.mp hentry
      cases hsame
      exact roomId_of_mem (List.mem_filter.mp (List.mem_of_mem_take hrow)).1 }

def appendRow (ledgers : Ledgers) (entry : RoomEntry)
    (hnext : entry.roomSeq = (ledgers.rows entry.roomId).length + 1) : Ledgers where
  rows roomId :=
    if roomId = entry.roomId then ledgers.rows roomId ++ [entry] else ledgers.rows roomId
  located := by
    intro roomId i row hrow
    by_cases hroom : roomId = entry.roomId
    · rw [if_pos hroom] at hrow
      rcases Nat.lt_trichotomy i (ledgers.rows roomId).length with hlt | heq | hgt
      · rw [List.getElem?_append_left hlt] at hrow
        exact ledgers.located roomId i row hrow
      · rw [List.getElem?_append_right (by omega), heq, Nat.sub_self] at hrow
        cases hrow
        refine ⟨hroom.symm, ?_⟩
        rw [hnext, heq, hroom]
      · rw [List.getElem?_append_right (by omega), List.getElem?_eq_none (by simp; omega)] at hrow
        cases hrow
    · rw [if_neg hroom] at hrow
      exact ledgers.located roomId i row hrow

def liveFrame : RoomEntry → ServerFrame
  | .event envelope => .event envelope
  | .tombstone row => .tombstone row

/-- What is asked of a journal: it returns no position past those it was given. -/
structure Bounded {σ : Type} (journal : RoomJournal σ) where
  /-- The last position that was committed for a room. -/
  cursor : σ → String → Nat
  load : ∀ store roomId, (journal.load store roomId).1.lastSeq ≤ cursor store roomId
  loaded : ∀ store roomId other,
    cursor (journal.load store roomId).2 other ≤ cursor store other
  committed : ∀ store roomId entry lastSeq other,
    cursor (journal.commit store roomId entry lastSeq) other ≤
      if other = roomId then max (cursor store other) lastSeq else cursor store other
  emptied : ∀ store roomId other, cursor (journal.reset store roomId) other ≤ cursor store other

/-! ## The server -/

/-- A handler of the server, at the `await` it is suspended at. -/
inductive Handling where
  /-- `handleSubscribe`, at `requireMembership`. -/
  | joining (roomId : String)
  /-- The connection is in the hub: at `progressSnapshot`. -/
  | joined (roomId : String) (seenSeq : Nat)
  /-- At `ledger.head`. -/
  | progressRead (roomId : String) (seenSeq : Nat) (progress : List (String × Nat))
  /-- The head was read and the reply is not sent yet. -/
  | headRead (roomId : String) (seenSeq : Nat) (progress : List (String × Nat)) (head : Nat)
  /-- `handleSince`, before its page is read. -/
  | asking (roomId : String) (roomSeq : Nat) (limit : Option Nat)
  /-- The page was read and is not sent yet. -/
  | pageRead (page : CatchupPage)

/-- A handler, and the connection whose frame it handles. -/
structure Task where
  connection : Nat
  handling : Handling

/-- A connection. Connections are numbered as the client numbers its sockets. -/
structure Connection where
  /-- Whether the server finds its socket open. -/
  live : Bool
  /-- The rooms whose subscribers it is among. -/
  rooms : List String
  /-- What was sent on it and did not arrive, the oldest frame first. -/
  frames : List ServerFrame

def Connection.fresh : Connection := ⟨false, [], []⟩

/-- The client, the server and what is under way. -/
structure System (σ : Type) where
  ledgers : Ledgers
  client : Client σ
  connections : Nat → Connection
  tasks : List Task
  /-- The sockets that were opened. -/
  opened : List Nat
  /-- The sockets of which the client still receives messages. -/
  receiving : List Nat

inductive Event where
  /-- The client does something that is neither to receive a frame nor about a socket. -/
  | client (taken : Client.Step)
  | opened (socket : Nat)
  | closed (socket : Nat)
  | close
  | append (entry : RoomEntry)
  /-- The `subscribe` frame of a client arrives. -/
  | subscribe (connection : Nat) (roomId : String)
  /-- The `since` frame. -/
  | since (connection : Nat) (roomId : String) (roomSeq : Nat) (limit : Option Nat)
  /-- The `unsubscribe` frame, or an expulsion. -/
  | unsubscribe (connection : Nat) (roomId : String)
  /-- The server finds the socket closed. -/
  | dropped (connection : Nat)
  /-- `requireMembership` answers. -/
  | admitted (task : Nat) (seenSeq : Nat)
  | progressRead (task : Nat) (progress : List (String × Nat))
  | headRead (task : Nat)
  | pageRead (task : Nat)
  /-- A handler sends what it has read, and ends. -/
  | replied (task : Nat)
  /-- A handler ends with an error. -/
  | failed (task : Nat) (message : String)
  /-- `hub.broadcast` reaches a subscriber. -/
  | broadcast (connection : Nat) (entry : RoomEntry)
  /-- A frame that carries no entry and answers no `subscribe`. -/
  | told (connection : Nat) (frame : ServerFrame)
  /-- The oldest frame on a connection arrives. -/
  | deliver (connection : Nat) (now : Nat)

/-- A frame that carries no entry and answers no `subscribe`. -/
def quiet (frame : ServerFrame) : Bool :=
  frame.entries.isEmpty &&
    match frame with
    | .subscribed _ _ _ _ => false
    | _ => true

/-- The steps of the client that concern neither frames nor sockets. -/
def ownStep : Client.Step → Bool
  | .frame _ _ | .opened _ | .closed _ | .close => false
  | _ => true

namespace System

variable {σ : Type} (options : ClientOptions σ) (system : System σ)

def setConnection (connection : Nat) (change : Connection → Connection) : System σ :=
  { system with connections := fun other =>
      if other = connection then change (system.connections other) else system.connections other }

/-- `send`: a socket that is not open takes nothing. -/
def send (connection : Nat) (frame : ServerFrame) : System σ :=
  system.setConnection connection fun held =>
    if held.live then { held with frames := held.frames ++ [frame] } else held

def stopReceiving (socket : Nat) : System σ :=
  { system with receiving := system.receiving.filter fun other => other != socket }

def asked (connection : Nat) (wanted : ClientFrame → Bool) : Bool :=
  system.client.sent.any fun (socket, frame) => socket == connection && wanted frame

/-- A handler, from one suspension to the next: `none` when that is not what comes next. -/
def advance (index : Nat) (resume : Handling → Option Handling) : Option (System σ) := do
  let task ← system.tasks[index]?
  let next ← resume task.handling
  return { system with tasks := system.tasks.set index ⟨task.connection, next⟩ }

def reply : Handling → Option ServerFrame
  | .headRead roomId seenSeq progress head => some (.subscribed roomId head seenSeq progress)
  | .pageRead page => some (.catchup page)
  | _ => none

/-- One event: `none` when it can not happen. -/
def step : Event → Option (System σ)
  | .client taken =>
    if ownStep taken then some { system with client := system.client.step options taken } else none
  | .opened socket =>
    if socket < system.client.attached ∧ socket ∉ system.opened then
      some ({ system with
        client := system.client.onOpen options socket
        opened := socket :: system.opened
        receiving := socket :: system.receiving }.setConnection socket fun held =>
          { held with live := true })
    else none
  | .closed socket =>
    some ({ system with client := system.client.onClose options socket }.stopReceiving socket)
  | .close =>
    let closed : System σ := { system with client := system.client.close options }
    some (match system.client.socket with
      | some socket => closed.stopReceiving socket
      | none => closed)
  | .append entry =>
    if hnext : entry.roomSeq = (system.ledgers.rows entry.roomId).length + 1 then
      some { system with ledgers := appendRow system.ledgers entry hnext }
    else none
  | .subscribe connection roomId =>
    if (system.connections connection).live ∧
        system.asked connection (fun frame => match frame with
          | .subscribe other => other == roomId
          | _ => false) then
      some { system with tasks := system.tasks ++ [⟨connection, .joining roomId⟩] }
    else none
  | .since connection roomId roomSeq limit =>
    if (system.connections connection).live ∧
        system.asked connection (fun frame => match frame with
          | .since other position count => other == roomId && position == roomSeq && count == limit
          | _ => false) then
      some { system with tasks := system.tasks ++ [⟨connection, .asking roomId roomSeq limit⟩] }
    else none
  | .unsubscribe connection roomId =>
    some ((system.setConnection connection fun held =>
      { held with rooms := held.rooms.filter fun other => other != roomId }).send connection
        (.unsubscribed roomId))
  | .dropped connection =>
    some (system.setConnection connection fun held => { held with live := false, rooms := [] })
  | .admitted index seenSeq =>
    match system.tasks[index]? with
    | some ⟨connection, .joining roomId⟩ =>
      -- `hub.subscribe` comes right behind the membership.
      some ({ system with
        tasks := system.tasks.set index ⟨connection, .joined roomId seenSeq⟩ }.setConnection
          connection fun held => { held with rooms := roomId :: held.rooms })
    | _ => none
  | .progressRead index progress =>
    system.advance index fun
      | .joined roomId seenSeq => some (.progressRead roomId seenSeq progress)
      | _ => none
  | .headRead index =>
    system.advance index fun
      | .progressRead roomId seenSeq progress =>
        some (.headRead roomId seenSeq progress (head (system.ledgers.rows roomId)))
      | _ => none
  | .pageRead index =>
    system.advance index fun
      | .asking roomId roomSeq limit =>
        some (.pageRead (catchUpPage system.ledgers roomId roomSeq (limit.getD 1000)))
      | _ => none
  | .replied index => do
    let task ← system.tasks[index]?
    let frame ← reply task.handling
    return { system with tasks := system.tasks.eraseIdx index }.send task.connection frame
  | .failed index message => do
    let task ← system.tasks[index]?
    return { system with tasks := system.tasks.eraseIdx index }.send task.connection
      (.error message)
  | .broadcast connection entry =>
    if entry ∈ system.ledgers.rows entry.roomId ∧
        entry.roomId ∈ (system.connections connection).rooms then
      some (system.send connection (liveFrame entry))
    else none
  | .told connection frame => if quiet frame then some (system.send connection frame) else none
  | .deliver connection now =>
    match (system.connections connection).frames with
    | [] => none
    | frame :: rest =>
      if connection ∈ system.receiving then
        some ({ system with client := system.client.handleFrame options frame now }.setConnection
          connection fun held => { held with frames := rest })
      else none

/-- A client that was just created, over what its journal holds. -/
def start (ledgers : Ledgers) (store : σ) : System σ where
  ledgers := ledgers
  client := Client.initial store
  connections := fun _ => .fresh
  tasks := []
  opened := []
  receiving := []

/-! ## Runs -/

/-- A check of every event of a run, in the state it meets. -/
def along (check : System σ → Event → Bool) : System σ → List Event → Bool
  | _, [] => true
  | system, event :: rest =>
    check system event &&
      match system.step options event with
      | some next => next.along check rest
      | none => true

/-- The event makes the client throw the history of a room away. -/
def discards : Event → Bool
  | .deliver connection _ =>
    system.receiving.contains connection &&
      match (system.connections connection).frames with
      | .subscribed roomId head _ _ :: _ =>
        head < (system.client.view options roomId).1.lastSeq
      | _ => false
  | _ => false

/-! ## Heads that were read -/

def unsentHeads (connection : Nat) (roomId : String) : List Nat :=
  system.tasks.filterMap fun task => match task.handling with
    | .headRead other _ _ head =>
      if task.connection = connection ∧ other = roomId then some head else none
    | _ => none

def sentHeads (connection : Nat) (roomId : String) : List Nat :=
  (system.connections connection).frames.filterMap fun
    | .subscribed other head _ _ => if other = roomId then some head else none
    | _ => none

/-- An entry that is sent on a connection now could be received before a reply that carries a head
below it. -/
def overtakes (connection : Nat) (entry : RoomEntry) : Bool :=
  system.receiving.any fun other =>
    (system.unsentHeads other entry.roomId ++
      if other = connection then [] else system.sentHeads other entry.roomId).any fun head =>
        head < entry.roomSeq

/-- No entry that the event sends overtakes a reply. -/
def orderly : Event → Bool
  | .broadcast connection entry => !system.overtakes connection entry
  | .replied index => match system.tasks[index]? with
    | some ⟨connection, .pageRead page⟩ =>
      (page.entries.filterMap id).all fun entry => !system.overtakes connection entry
    | _ => true
  | _ => true

end System

end Realtime
