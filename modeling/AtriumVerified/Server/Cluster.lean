import AtriumVerified.Core.Runs
import AtriumVerified.Server.Append

/-!
# Instances over one ledger

Any number of instances of the server over one `core_events` table. On each instance `runExclusive`
lets one piece of work run at a time; across instances `pg_advisory_xact_lock` lets one append
transaction run at a time, and whoever else writes to the table takes the same lock. Everything else
interleaves, and an append can fail between any two of its steps, also after its commit.
-/

namespace Server

open Core Js Postgres

/-- Where an `appendBatch` call stands. -/
inductive Phase where
  /-- Waiting for the ledger lock. -/
  | waiting
  /-- Holding the lock and running `catchUp(tx)`. -/
  | catchingUp
  /-- Caught up, with what is staged so far and the builds to come. -/
  | staging (staged : Staging) (remaining : List (Id → Timestamp → Json))
  /-- Committed, and not yet adopted. -/
  | committed (staged : Staging)

inductive Work where
  | idle
  /-- `catchUp(db)`, for `hydrate` and `sync`, or for `foldThrough(through)` of `since` and
  `catchUpPage`. -/
  | reading (through : Option Nat)
  | appending (request : Request) (phase : Phase)

/-- A finished `appendBatch` call. -/
inductive Call where
  /-- It returned its batch. -/
  | returned (request : Request) (batch : List CoreEventRow)
  /-- It returned the batch that its retry key had paid for before. -/
  | replayed
  /-- It threw, and its transaction was rolled back with the rows that had drawn these numbers. -/
  | failed (drawn : List Nat)
  /-- Its connection was lost when its transaction had committed, so it threw as well. -/
  | lostAfterCommit (request : Request) (batch : List CoreEventRow)

/-- The database and the instances, by their names `ι`. -/
structure Cluster (ι : Type) where
  /-- The committed rows of `core_events`. -/
  rows : List CoreEventRow
  receipts : List Receipt
  /-- The last number the sequence has handed out, also to rows that were rolled back. -/
  sequence : Nat
  /-- Who holds the ledger lock. -/
  lock : Option ι
  memory : ι → Memory
  work : ι → Work
  calls : List Call

inductive Action (ι : Type) where
  /-- A writer that is not an instance commits rows, under the lock. -/
  | foreign (batch : List (Neighbours × Nat × NewRow))
  /-- `hydrate` or `sync` starts. -/
  | sync (i : ι)
  /-- `since` or `catchUpPage` has read its page, and calls `foldThrough` with the last `seq` of it. -/
  | foldThrough (i : ι) (roomId : Uuid) (roomSeq limit : Nat)
  /-- `catchUp` reads and folds a page. -/
  | page (i : ι)
  | append (i : ι) (request : Request)
  | lock (i : ι)
  /-- Stage the next event of the batch. -/
  | stage (i : ι) (draw : Draw)
  | commit (i : ι)
  /-- The state, `lastSeq` and `lastAtMs` of the batch become those of the instance. -/
  | adopt (i : ι)
  /-- Anything throws, or the connection is lost: authorization, a cast, a constraint, a projection,
  the network. -/
  | fail (i : ι)
  /-- The transaction commits and its connection is lost. -/
  | commitAndLose (i : ι)

section Step

variable {ι : Type} [DecidableEq ι]

def Cluster.setMemory (cluster : Cluster ι) (i : ι) (memory : Memory) : Cluster ι :=
  { cluster with memory := Function.update cluster.memory i memory }

def Cluster.setWork (cluster : Cluster ι) (i : ι) (work : Work) : Cluster ι :=
  { cluster with work := Function.update cluster.work i work }

/-- The rows a batch of a foreign writer adds, which have to get past the table one by one. -/
def insertAll (rows : List CoreEventRow) (sequence : Nat) :
    List (Neighbours × Nat × NewRow) → Option (List CoreEventRow × Nat)
  | [] => some (rows, sequence)
  | (around, seq, row) :: rest =>
    if sequence < seq ∧ admits around rows row = true then
      insertAll (rows ++ [insertedRow around rows seq row]) seq rest
    else none

/-- The last `seq` of the page `since` or `catchUpPage` reads, or 0. -/
def lastSeqOfPage (rows : List CoreEventRow) (roomId : Uuid) (roomSeq limit : Nat) : Nat :=
  (((rows.filter fun row => row.roomId == roomId && roomSeq < row.roomSeq).take limit).getLast?.map
    fun row => row.seq).getD 0

/-- The end of a call that threw before its commit: the transaction is rolled back. -/
def Cluster.rollback (cluster : Cluster ι) (i : ι) (drawn : List Nat) : Cluster ι :=
  { cluster.setWork i .idle with
    lock := if cluster.lock = some i then none else cluster.lock
    calls := .failed drawn :: cluster.calls }

def Cluster.land (cluster : Cluster ι) (staged : Staging) (receipts : List Receipt) : Cluster ι :=
  { cluster with rows := cluster.rows ++ staged.rows, receipts, lock := none }

variable [Unicode] (codec : Codec)

/-- Fold the next page of an instance. When the page is the last one of `catchUp`, reading ends, and
an append goes on to its retry key; a fold that throws ends the work. -/
def Cluster.foldNext (cluster : Cluster ι) (i : ι) : Cluster ι :=
  let memory := cluster.memory i
  let page := nextPage cluster.rows memory.lastSeq
  let (next, result) := foldPage codec memory page
  let moved := cluster.setMemory i next
  match cluster.work i, result with
  | .reading _, .error _ => moved.setWork i .idle
  | .reading through, .ok _ => if page.length < pageSize then moved.setWork i .idle
      else moved.setWork i (.reading through)
  | .appending _ _, .error _ => moved.rollback i []
  | .appending request _, .ok _ =>
    if page.length < pageSize then
      match checkRetryKey codec request moved.rows moved.receipts next.state with
      | .error _ => moved.rollback i []
      | .ok (.replayed _) =>
        { moved.setWork i .idle with lock := none, calls := .replayed :: moved.calls }
      | .ok .unused =>
        moved.setWork i (.appending request
          (.staging ⟨[], next.state, next.lastAtMs, next.lastSeq⟩ request.builds))
    else moved
  | .idle, _ => cluster

/-- What an action makes of a cluster; `none` when it cannot happen there. -/
def Cluster.step (cluster : Cluster ι) : Action ι → Option (Cluster ι)
  | .foreign batch =>
    match cluster.lock, insertAll cluster.rows cluster.sequence batch with
    | none, some (rows, sequence) => some { cluster with rows, sequence }
    | _, _ => none
  | .sync i =>
    match cluster.work i with
    | .idle => some (cluster.setWork i (.reading none))
    | _ => none
  | .foldThrough i roomId roomSeq limit =>
    let through := lastSeqOfPage cluster.rows roomId roomSeq limit
    match cluster.work i with
    | .idle => if through ≤ (cluster.memory i).lastSeq then some cluster
        else some (cluster.setWork i (.reading (some through)))
    | _ => none
  | .page i =>
    match cluster.work i with
    | .reading _ => some (cluster.foldNext codec i)
    | .appending _ .catchingUp => some (cluster.foldNext codec i)
    | _ => none
  | .append i request =>
    match cluster.work i with
    | .idle => if request.builds.isEmpty then none
        else some (cluster.setWork i (.appending request .waiting))
    | _ => none
  | .lock i =>
    match cluster.work i, cluster.lock with
    | .appending request .waiting, none =>
      some { cluster.setWork i (.appending request .catchingUp) with lock := some i }
    | _, _ => none
  | .stage i draw =>
    match cluster.work i with
    | .appending request (.staging staged (build :: remaining)) =>
      if cluster.sequence < draw.seq then
        let cluster := { cluster with sequence := draw.seq }
        match stageBuild codec request cluster.rows staged build draw with
        | .ok next => some (cluster.setWork i (.appending request (.staging next remaining)))
        | .error _ => some (cluster.rollback i (staged.rows.map CoreEventRow.seq ++ [draw.seq]))
      else none
    | _ => none
  | .commit i =>
    match cluster.work i with
    | .appending request (.staging staged []) =>
      match mintReceipt request cluster.receipts staged.rows with
      | .ok receipts =>
        some ((cluster.land staged receipts).setWork i (.appending request (.committed staged)))
      | .error _ => some (cluster.rollback i (staged.rows.map CoreEventRow.seq))
    | _ => none
  | .adopt i =>
    match cluster.work i with
    | .appending request (.committed staged) =>
      let memory := cluster.memory i
      let adopted : Memory := { memory with
        state := staged.state
        lastSeq := max memory.lastSeq staged.seq
        lastAtMs := max memory.lastAtMs staged.atMs }
      some { (cluster.setMemory i adopted).setWork i .idle with
        calls := .returned request staged.rows :: cluster.calls }
    | _ => none
  | .fail i =>
    match cluster.work i with
    | .reading _ => some (cluster.setWork i .idle)
    | .appending _ .waiting | .appending _ .catchingUp => some (cluster.rollback i [])
    | .appending _ (.staging staged _) => some (cluster.rollback i (staged.rows.map CoreEventRow.seq))
    | _ => none
  | .commitAndLose i =>
    match cluster.work i with
    | .appending request (.staging staged []) =>
      match mintReceipt request cluster.receipts staged.rows with
      | .ok receipts => some { (cluster.land staged receipts).setWork i .idle with
          calls := .lostAfterCommit request staged.rows :: cluster.calls }
      | .error _ => some (cluster.rollback i (staged.rows.map CoreEventRow.seq))
    | _ => none

def emptyCluster (ι : Type) : Cluster ι where
  rows := []
  receipts := []
  sequence := 0
  lock := none
  memory := fun _ => emptyMemory
  work := fun _ => .idle
  calls := []

/-- The event again, as the database returns it: `jsonb` keeps the keys of an object in its own
order. An event of the server is not folded. -/
inductive RoomEvent.Reordered : RoomEvent → RoomEvent → Prop
  | core {event event' : CoreEvent} (sessionId : Option Id) (h : event.Reordered event') :
      Reordered (.core event sessionId) (.core event' sessionId)
  | server (event event' : ServerEvent) : Reordered (.server event) (.server event')

/-- What `JSON.stringify`, `jsonb` and the two schemas document: an event that parses is stored and
read back as the event again. -/
structure Codec.BringsBack : Prop where
  roomEvent : ∀ json event, codec.roomEvent json = .ok event →
    ∃ event', codec.roomEvent (codec.payload event) = .ok event' ∧ event.Reordered event'
  coreEvent : ∀ event event' core, event.Reordered event' →
    codec.coreEvent.safeParse event = .ok core →
    ∃ core', codec.coreEvent.safeParse event' = .ok core' ∧ core.Reordered core'

/-- The action stages a `reattribute` that is refused for several keys. -/
def Cluster.ListsStrays (cluster : Cluster ι) (action : Action ι) : Prop :=
  ∃ i draw request staged build remaining event core, action = .stage i draw ∧
    cluster.work i = .appending request (.staging staged (build :: remaining)) ∧
    codec.roomEvent (build draw.id (toISOString (mintAtMs draw.now staged.atMs))) = .ok event ∧
    codec.coreEvent.safeParse event = .ok core ∧ SeveralStrays staged.state core

/-- The clusters that runs reach in which every action was `allowed` where it was taken. -/
inductive Cluster.Reached (allowed : Cluster ι → Action ι → Prop) : Cluster ι → Prop
  | start : Reached allowed (emptyCluster ι)
  | next {cluster after : Cluster ι} (action : Action ι) : Reached allowed cluster →
      allowed cluster action → cluster.step codec action = some after → Reached allowed after

/-- The cluster a list of actions leads to, one after the other. -/
def Cluster.run (cluster : Cluster ι) : List (Action ι) → Option (Cluster ι)
  | [] => some cluster
  | action :: rest => (cluster.step codec action).bind fun after => after.run rest

/-! ## The fold of the ledger -/

/-- The rows that have drawn a number up to `n`. -/
def upTo (rows : List CoreEventRow) (n : Nat) : List CoreEventRow :=
  rows.filter fun row => row.seq ≤ n

def readableCore (rows : List CoreEventRow) : List AuthoredEvent :=
  parsedRows codec.coreEvent (rows.filterMap (coreRow codec))

def foldLedger (rows : List CoreEventRow) : Except TypeError CoreState :=
  (foldRows emptyState (readableCore codec rows)).map Prod.snd

end Step

/-! ## What a batch leaves in the ledger -/

/-- A finished call left the whole batch of its request in the ledger, or nothing of it. -/
def Call.AllOrNone (rows : List CoreEventRow) : Call → Prop
  | .returned request batch | .lostAfterCommit request batch =>
    batch.length = request.builds.length ∧ ∀ row ∈ batch, row ∈ rows
  | .replayed => True
  | .failed drawn => ∀ n ∈ drawn, ∀ row ∈ rows, row.seq ≠ n

def Work.AllOrNone (rows : List CoreEventRow) : Work → Prop
  | .appending _ (.staging staged _) => ∀ row ∈ staged.rows, ∀ held ∈ rows, held.seq ≠ row.seq
  | .appending request (.committed staged) =>
    staged.rows.length = request.builds.length ∧ ∀ row ∈ staged.rows, row ∈ rows
  | _ => True

end Server
