import AtriumVerified.Lib.InsertionMap
import AtriumVerified.Loop.Protocol

/-!
# The client of the loop

The model of the frame handling and the ordered delivery of `apps/loop/src/client.ts`, on a socket
that is open. The handler of an event is asynchronous: frames arrive while it runs, and `settle` is
the moment its promise resolves. The handler that the daemon registers never rejects.
-/

namespace Loop

open Core

inductive Sent where
  | ackHead (roomId : Id) (roomSeq : Nat)
  | since (roomId : Id) (roomSeq : Nat)
  deriving DecidableEq, Repr

/-- A request of `backfill` that has no answer yet, and whether `onHead` started it. -/
structure CatchupWaiter where
  roomId : Id
  first : Nat
  onHead : Bool
  deriving DecidableEq, Repr

/-- `LoopClient`. -/
structure Client where
  ownUserId : Id
  pendingCommands : List String
  subscribeWaiters : List Id
  catchupWaiters : List CatchupWaiter
  /-- Whether a handler is registered. -/
  handler : Bool
  deliveredThrough : Nat
  pending : Js.Map Nat WireEvent
  /-- The event whose handler runs: `pumping`. -/
  running : Option WireEvent
  catchingUp : Bool
  sent : List Sent
  /-- The calls of the handler so far. -/
  calls : List WireEvent
  /-- An exception left the frame listener, and the process is gone. -/
  crashed : Bool

/-- `new LoopClient(…)`. -/
def Client.initial : Client where
  ownUserId := ""
  pendingCommands := []
  subscribeWaiters := []
  catchupWaiters := []
  handler := false
  deliveredThrough := 0
  pending := Js.Map.empty
  running := none
  catchingUp := false
  sent := []
  calls := []
  crashed := false

namespace Client

def setEventHandler (client : Client) (resumeAfterRoomSeq : Nat) : Client :=
  { client with handler := true, deliveredThrough := resumeAfterRoomSeq }

/-- One turn of the loop of `pump`, up to the `await`. -/
def pumpNext (client : Client) : Client :=
  match client.pending.get (client.deliveredThrough + 1) with
  | none => { client with running := none }
  | some next => { client with
      pending := client.pending.delete next.roomSeq
      running := some next
      calls := client.calls ++ [next] }

def pump (client : Client) : Client :=
  if client.running.isSome || !client.handler then client else client.pumpNext

def settle (client : Client) : Client :=
  match client.running with
  | none => client
  | some entry => { client with deliveredThrough := entry.roomSeq }.pumpNext

def enqueue (client : Client) (entry : WireEvent) : Client :=
  if entry.issues ≠ [] then client
  else if entry.roomSeq ≤ client.deliveredThrough then client
  else if (client.pending.get entry.roomSeq).isSome then client
  else { client with pending := client.pending.set entry.roomSeq entry }.pump

/-- `since`, as `backfill` calls it. -/
def since (client : Client) (roomId : Id) (first : Nat) (onHead : Bool) : Client :=
  { client with
    catchupWaiters := client.catchupWaiters ++ [⟨roomId, first, onHead⟩]
    sent := client.sent ++ [Sent.since roomId first] }

/-- What `backfill` does with a page: ask for the next one, or be done. -/
def backfilled (client : Client) (waiter : CatchupWaiter) (last : Nat) (more : Bool) : Client :=
  if more then client.since waiter.roomId last waiter.onHead
  else if waiter.onHead then { client with catchingUp := false }
  else client

def onHead (client : Client) (roomId : Id) (head : Nat) : Client :=
  let client := { client with sent := client.sent ++ [Sent.ackHead roomId client.deliveredThrough] }
  if client.deliveredThrough < head ∧ client.catchingUp = false then
    { client with catchingUp := true }.since roomId client.deliveredThrough true
  else client

/-- `onFrame`, after parsing. The iteration over the entries of a page that has none raises. -/
def onFrame (client : Client) : Frame → Client
  | .welcome userId => { client with ownUserId := userId }
  | .subscribed roomId _ => { client with subscribeWaiters := client.subscribeWaiters.erase roomId }
  | .answer commandId _ => { client with pendingCommands := client.pendingCommands.erase commandId }
  | .catchup roomId first last more entries =>
    let waiting (waiter : CatchupWaiter) : Bool := waiter.roomId == roomId && waiter.first == first
    let enqueued := entries.foldl enqueue { client with
      catchupWaiters := client.catchupWaiters.eraseP waiting }
    -- The promise of the page resolves after the listener has returned.
    match client.catchupWaiters.find? waiting with
    | some waiter => enqueued.backfilled waiter last more
    | none => enqueued
  | .bareCatchup => { client with running := none, crashed := true }
  | .event entry => client.enqueue entry
  | .head roomId head => client.onHead roomId head
  | .unknown => client

inductive Step where
  | frame (frame : ServerFrame)
  | settle
  deriving DecidableEq, Repr

def step (client : Client) (taken : Step) : Client :=
  if client.crashed then client
  else match taken with
    | .frame frame => client.onFrame (parseServerFrame frame)
    | .settle => client.settle

def run (client : Client) (steps : List Step) : Client := steps.foldl step client

/-- The handlers of everything that can be delivered have run. -/
def drain (client : Client) : Client :=
  (fun client : Client => client.step .settle)^[client.pending.entries.length + 1] client

end Client

/-! ## Deliveries -/

/-- The ledger of a room: its rows stand at the positions 1, 2, 3 and so on. -/
structure Ledger where
  rows : List WireEntry
  contiguous : ∀ i entry, rows[i]? = some entry → entry.roomSeq = i + 1

/-- The events up to a position that were read and not refused. -/
def Ledger.deliverable (ledger : Ledger) (n : Nat) : List WireEvent :=
  (ledger.rows.take n).filterMap WireEntry.delivered

/-- The frames of a run are drawn from the ledger up to a position and carry all of it. -/
structure Carries (ledger : Ledger) (n : Nat) (steps : List Client.Step) : Prop where
  drawn : ∀ frame, .frame frame ∈ steps → ∀ entry ∈ frame.entries,
    entry ∈ ledger.rows ∧ entry.roomSeq ≤ n
  all : ∀ position, 1 ≤ position → position ≤ n →
    ∃ frame, .frame frame ∈ steps ∧ ∃ entry ∈ frame.entries, entry.roomSeq = position

/-- The handler was called once for every event that was read and not refused, in their order, and
everything is delivered. -/
structure DeliversAll (ledger : Ledger) (n : Nat) (client : Client) : Prop where
  idle : client.running = none
  calls : client.calls = ledger.deliverable n
  delivered : client.deliveredThrough = n

end Loop
