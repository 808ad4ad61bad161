import AtriumVerified.Server.Cluster

/-!
# What the callers of the ledger are given

The instances over one ledger once more, together with what each call of the ledger hands to its
caller: the rows `sync` returns to the fan-out, the pages of `since` and `catchUpPage`, and the
entries of `appendBatch`, which are broadcast unless a retry key had paid for them before. The
actions are those of the cluster; a page is read at one moment and answered at a later one, when the
instance has folded through its last row.
-/

namespace Server

open Core Js Postgres

/-! ## Entries -/

/-- The `seq` of an entry. -/
def LedgerEntry.seq : LedgerEntry → Nat
  | .malformed seq _ _ _ | .event seq _ _ _ _ _ => seq

def withIssues (state : CoreState) : LedgerEntry → LedgerEntry
  | .event seq roomSeq roomId event actor _ =>
    .event seq roomSeq roomId event actor (issuesFor state event.id)
  | entry => entry

section Doors

variable (codec : Codec)

/-- `readDoorEntry` of a row of a page. -/
def readDoorEntry (memory : Memory) (row : CoreEventRow) : LedgerEntry :=
  match (parseRow codec row).entry with
  | .event seq roomSeq roomId event actor issues =>
    match memory.coreMalformedReasonBySeq.find? fun noted => noted.1 == seq with
    | some (_, reason) => .malformed seq roomSeq roomId reason
    | none => withIssues memory.state (.event seq roomSeq roomId event actor issues)
  | entry => entry

/-- The rows that `since` and `catchUpPage` read. -/
def roomPage (rows : List CoreEventRow) (roomId : Uuid) (roomSeq limit : Nat) : List CoreEventRow :=
  (rows.filter fun row => row.roomId == roomId && roomSeq < row.roomSeq).take limit

/-- `results.push(…)`: the entry of an event that was just staged, before its verdict. The room is
written as its row has it. -/
def stagedResult (request : Request) (staged next : Staging) (build : Id → Timestamp → Json)
    (draw : Draw) : Option LedgerEntry :=
  match codec.roomEvent (build draw.id (toISOString (mintAtMs draw.now staged.atMs))),
      next.rows.getLast? with
  | .ok event, some row => some (.event row.seq row.roomSeq row.roomId event request.actor [])
  | _, _ => none

end Doors

/-! ## Answers -/

inductive Answer where
  /-- `sync`: the rows it has folded, for `fanOut`. -/
  | synced (entries : List LedgerEntry)
  /-- `since` or `catchUpPage`. -/
  | page (entries : List LedgerEntry)
  /-- `appendBatch`, with `replayed`. -/
  | appended (request : Request) (entries : List LedgerEntry) (replayed : Bool)

/-- What `sync` has returned, call after call. -/
def syncedEntries (answers : List Answer) : List LedgerEntry :=
  answers.flatMap fun answer => match answer with
    | .synced entries => entries
    | _ => []

structure Batch where
  request : Request
  rows : List CoreEventRow

/-- A cluster, with what its calls hold and have returned. -/
structure Observed (ι : Type) where
  cluster : Cluster ι
  /-- `folded` of the `catchUp` that runs on an instance. -/
  folded : ι → List LedgerEntry
  /-- `results` of the transaction that runs on an instance. -/
  results : ι → List LedgerEntry
  /-- The pages that were read on an instance and not answered yet. -/
  pages : ι → List (List CoreEventRow)
  /-- The committed batches in order, with their instances. -/
  committed : List (ι × Batch)
  /-- The answers of an instance in order. -/
  answers : ι → List Answer

inductive Occurrence (ι : Type) where
  | act (action : Action ι)
  /-- `since` or `catchUpPage` reads its page. -/
  | read (i : ι) (roomId : Uuid) (roomSeq limit : Nat)
  /-- `foldThrough` has returned, and the page with this index is answered. -/
  | answer (i : ι) (index : Nat)

/-- A cluster whose calls have returned nothing yet. -/
def watching {ι : Type} (cluster : Cluster ι) : Observed ι where
  cluster
  folded := fun _ => []
  results := fun _ => []
  pages := fun _ => []
  committed := []
  answers := fun _ => []

section Observe

variable {ι : Type} [DecidableEq ι]

def Observed.give (observed : Observed ι) (i : ι) (answer : Answer) : Observed ι :=
  { observed with answers := Function.update observed.answers i (observed.answers i ++ [answer]) }

/-- `catchUp` of an instance begins: `folded = []`. -/
def Observed.beginFold (observed : Observed ι) (i : ι) : Observed ι :=
  { observed with folded := Function.update observed.folded i [] }

/-- What an instance has in `results`. -/
def Observed.setResults (observed : Observed ι) (i : ι) (results : List LedgerEntry) : Observed ι :=
  { observed with results := Function.update observed.results i results }

def Observed.noteBatch (observed : Observed ι) (i : ι) (batch : Batch) : Observed ι :=
  { observed with committed := observed.committed ++ [(i, batch)] }

def Observed.committedBy (observed : Observed ι) (i : ι) : List CoreEventRow :=
  (observed.committed.filter fun held => held.1 = i).flatMap fun held => held.2.rows

variable [Unicode] (codec : Codec)

/-- What the page that `before` reads next holds, or how its fold throws. -/
def Observed.nextFold (before : Observed ι) (i : ι) : Except LedgerError (List LedgerEntry) :=
  let memory := before.cluster.memory i
  (foldPage codec memory (nextPage before.cluster.rows memory.lastSeq)).2

/-- `catchUp` has folded a page. With the last one it ends: `sync` returns what was folded, an append
finds its retry key spent or begins its batch. -/
def Observed.notePage (before : Observed ι) (after : Cluster ι) (i : ι) : Observed ι :=
  match before.nextFold codec i with
  | .error _ => { before with cluster := after }
  | .ok entries =>
    let folded := before.folded i ++ entries
    let seen := { before with
      cluster := after, folded := Function.update before.folded i folded }
    match before.cluster.work i, after.work i with
    | .reading none, .idle => seen.give i (.synced folded)
    | .appending request .catchingUp, .idle =>
      match checkRetryKey codec request after.rows after.receipts (after.memory i).state with
      | .ok (.replayed batch) => seen.give i (.appended request batch true)
      | _ => seen
    | .appending _ .catchingUp, .appending _ (.staging _ _) => seen.setResults i []
    | _, _ => seen

/-- What an action that led to `after` has handed out. -/
def Observed.note (before : Observed ι) (after : Cluster ι) : Action ι → Observed ι
  | .page i => before.notePage codec after i
  | .sync i | .foldThrough i _ _ _ | .lock i => { before with cluster := after }.beginFold i
  | .stage i draw =>
    let moved := { before with cluster := after }
    match before.cluster.work i, after.work i with
    | .appending request (.staging staged (build :: _)), .appending _ (.staging next _) =>
      moved.setResults i
        (before.results i ++ (stagedResult codec request staged next build draw).toList)
    | _, _ => moved
  | .commit i | .commitAndLose i =>
    let moved := { before with cluster := after }
    match before.cluster.work i with
    | .appending request (.staging staged _) =>
      match mintReceipt request before.cluster.receipts staged.rows with
      | .ok _ => moved.noteBatch i ⟨request, staged.rows⟩
      | .error _ => moved
    | _ => moved
  | .adopt i =>
    let moved := { before with cluster := after }
    match before.cluster.work i with
    | .appending request _ =>
      moved.give i
        (.appended request ((before.results i).map (withIssues (after.memory i).state)) false)
    | _ => moved
  | .foreign _ | .append _ _ | .fail _ => { before with cluster := after }

/-- What happens next; `none` when it cannot. -/
def Observed.step (before : Observed ι) : Occurrence ι → Option (Observed ι)
  | .act action => (before.cluster.step codec action).map fun after => before.note codec after action
  | .read i roomId roomSeq limit =>
    let page := roomPage before.cluster.rows roomId roomSeq limit
    some { before with pages := Function.update before.pages i (before.pages i ++ [page]) }
  | .answer i index =>
    let memory := before.cluster.memory i
    match (before.pages i)[index]? with
    | none => none
    | some page =>
      if (page.getLast?.map fun row => row.seq).getD 0 ≤ memory.lastSeq then
        let answered := before.give i (.page (page.map (readDoorEntry codec memory)))
        some { answered with
          pages := Function.update before.pages i ((before.pages i).eraseIdx index) }
      else none

end Observe

end Server
