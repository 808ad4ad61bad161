import AtriumVerified.Web.Journal

/-!
# The journal in the local storage

The model of `localStorageJournal` of `apps/web/src/lib/realtime.ts`, and of the tabs of one origin
that share its records. What the browser does during one call of a journal is a `Browser`, which
may be another one at every call. Every record is written as a whole, so a record is kept as the
history it is the text of.
-/

namespace Web

/-! ## The browser -/

inductive Thrown where
  /-- An error of the name `QuotaExceededError` or `NS_ERROR_DOM_QUOTA_REACHED`. -/
  | quota
  | other (message : String)
  /-- A value of which `String` makes no text. -/
  | unprintable
  deriving DecidableEq, Repr

/-- `describeStorageError`: nothing when it throws itself. -/
def describeStorageError : Thrown → Option String
  | .quota => some
    "localStorage is full — this room is now kept in memory and will be re-read from the server on the next load"
  | .other message => some ("localStorage is unusable (" ++ message ++
    ") — this room is now kept in memory")
  | .unprintable => none

/-- What comes of reading the global `localStorage`. -/
inductive Access where
  | available
  | absent
  | refused (error : Thrown)
  deriving DecidableEq, Repr

/-- What the browser does while a journal is called: what its functions throw, if they do. -/
structure Browser where
  /-- The access of `commit` and of `reset`. -/
  access : Access
  /-- The access of `readDurable`. -/
  readAccess : Access
  getItem : Option Thrown
  setItem : List RoomEntry → Option Thrown
  removeItem : Option Thrown

def Browser.healthy : Browser := ⟨.available, .available, none, fun _ => none, none⟩

inductive Store where
  | available
  | missing (reason : String)
  deriving DecidableEq, Repr

/-- `storage`: nothing when it throws. -/
def Access.storage : Access → Option Store
  | .available => some .available
  | .absent => some (.missing "localStorage is not available in this environment")
  | .refused error => (describeStorageError error).map .missing

/-! ## Records -/

def increasing : List RoomEntry → Bool
  | first :: second :: rest => first.roomSeq < second.roomSeq && increasing (second :: rest)
  | _ => true

def lastPosition (events : List RoomEntry) : Nat := (events.getLast?.map RoomEntry.roomSeq).getD 0

/-- `StoredRoom`, and that every entry is of the room. -/
def HeldRoom.accepted (record : HeldRoom) (roomId : String) : Bool :=
  increasing record.events && record.lastSeq == lastPosition record.events &&
    record.events.all fun entry => entry.roomId == roomId

/-- What a store has of a room. A record that is not a history is read as none. -/
def storedRoom (storage : Js.Map String HeldRoom) (roomId : String) : HeldRoom :=
  match storage.get roomId with
  | none => ⟨[], 0⟩
  | some record => if record.accepted roomId then record else ⟨[], 0⟩

def defaultJournalMaxEvents : Nat := 500

def retained (maxEvents : Option Nat) : Nat := max 1 (maxEvents.getD defaultJournalMaxEvents)

def trim (maxEvents : Option Nat) (events : List RoomEntry) : List RoomEntry :=
  if events.length ≤ retained maxEvents then events
  else events.drop (events.length - retained maxEvents)

def newerHalf (kept : List RoomEntry) : List RoomEntry := kept.drop ((kept.length + 1) / 2)

theorem length_newerHalf {kept : List RoomEntry} (h : 1 < kept.length) :
    (newerHalf kept).length < kept.length := by
  unfold newerHalf
  rw [List.length_drop]
  omega

/-- The loop of `commit`: the entries that were written, or what the last write threw. -/
def Browser.persist (browser : Browser) (kept : List RoomEntry) : Except Thrown (List RoomEntry) :=
  match browser.setItem kept with
  | none => .ok kept
  | some error =>
    if _h : 1 < kept.length then browser.persist (newerHalf kept) else .error error
termination_by kept.length
decreasing_by exact length_newerHalf _h

/-! ## The journal -/

structure JournalMemory where
  fallback : MemoryStore
  /-- Rooms this journal has stopped being durable for. -/
  degraded : List String
  /-- What was reported of them. -/
  reports : List (String × String)

def JournalMemory.initial : JournalMemory := ⟨Js.Map.empty, [], []⟩

structure LocalJournal where
  storage : Js.Map String HeldRoom
  memory : JournalMemory

namespace JournalMemory

variable (memory : JournalMemory)

def load (roomId : String) : HeldRoom × JournalMemory :=
  let (held, fallback) := memoryJournal.load memory.fallback roomId
  (held, { memory with fallback })

def commit (roomId : String) (entry : RoomEntry) (lastSeq : Nat) : JournalMemory :=
  { memory with fallback := memoryJournal.commit memory.fallback roomId entry lastSeq }

def reset (roomId : String) : JournalMemory :=
  { memory with fallback := memoryJournal.reset memory.fallback roomId }

/-- `degrade`. A reporter that throws is not heard. -/
def degrade (roomId : String) (events : List RoomEntry) (reason : String) : JournalMemory :=
  if roomId ∈ memory.degraded then memory
  else
    let memory := { memory with degraded := memory.degraded ++ [roomId] }
    let memory := events.foldl (fun memory event => memory.commit roomId event event.roomSeq) memory
    { memory with reports := memory.reports ++ [(roomId, reason)] }

/-- `degrade`, with what the memory holds itself. -/
def degradeHeld (roomId reason : String) : JournalMemory :=
  let (held, memory) := memory.load roomId
  memory.degrade roomId held.events reason

end JournalMemory

namespace LocalJournal

variable (journal : LocalJournal) (browser : Browser)

def loadDegraded (roomId reason : String) : HeldRoom × LocalJournal :=
  let (held, memory) := (journal.memory.degradeHeld roomId reason).load roomId
  (held, { journal with memory })

/-- `readDurable`: nothing when it throws. -/
def readDurable (roomId : String) : Option HeldRoom × LocalJournal :=
  match browser.readAccess.storage with
  | none => (none, journal)
  | some (.missing reason) =>
    let (held, journal) := journal.loadDegraded roomId reason
    (some held, journal)
  | some .available =>
    match browser.getItem with
    | none => (some (storedRoom journal.storage roomId), journal)
    | some error =>
      match describeStorageError error with
      | none => (none, { journal with memory := (journal.memory.load roomId).2 })
      | some reason =>
        let (held, journal) := journal.loadDegraded roomId reason
        (some held, journal)

/-- `load`: nothing when it throws. -/
def load (roomId : String) : Option HeldRoom × LocalJournal :=
  if roomId ∈ journal.memory.degraded then
    let (held, memory) := journal.memory.load roomId
    (some held, { journal with memory })
  else journal.readDurable browser roomId

def remember (entry : RoomEntry) (lastSeq : Nat) (roomId : String) : LocalJournal :=
  { journal with memory := journal.memory.commit roomId entry lastSeq }

/-- `commit`: false when it throws. -/
def commit (maxEvents : Option Nat) (roomId : String) (entry : RoomEntry) (lastSeq : Nat) :
    Bool × LocalJournal :=
  match browser.access.storage with
  | none => (false, journal)
  | some (.missing reason) =>
    (true, { journal with memory :=
      (journal.memory.degradeHeld roomId reason).commit roomId entry lastSeq })
  | some .available =>
    if roomId ∈ journal.memory.degraded then (true, journal.remember entry lastSeq roomId)
    else
      match journal.readDurable browser roomId with
      | (none, journal) => (false, journal)
      | (some current, journal) =>
        if roomId ∈ journal.memory.degraded then (true, journal.remember entry lastSeq roomId)
        else
          let events := current.events ++ [entry]
          match browser.persist (trim maxEvents events) with
          | .ok kept => (true, { journal with storage := journal.storage.set roomId ⟨kept, lastSeq⟩ })
          | .error error =>
            match describeStorageError error with
            | none => (false, journal)
            | some reason =>
              (true, { journal with memory := journal.memory.degrade roomId events reason })

/-- `reset`: false when it throws. -/
def reset (roomId : String) : Bool × LocalJournal :=
  let journal := { journal with memory := journal.memory.reset roomId }
  match browser.access.storage with
  | none => (false, journal)
  | some (.missing _) => (true, journal)
  | some .available =>
    match browser.removeItem with
    | none => (true, { journal with storage := journal.storage.delete roomId })
    | some _ =>
      match browser.setItem [] with
      | none => (true, { journal with storage := journal.storage.set roomId ⟨[], 0⟩ })
      | some error =>
        match describeStorageError error with
        | none => (false, journal)
        | some reason => (true, { journal with memory := journal.memory.degrade roomId [] reason })

end LocalJournal

/-- The records, the journal of a page, how often it was called and what it answered. -/
structure CalledJournal where
  journal : LocalJournal
  calls : Nat
  /-- Every room that was loaded, as it was. -/
  answers : List (String × HeldRoom)

def CalledJournal.initial : CalledJournal := ⟨⟨Js.Map.empty, .initial⟩, 0, []⟩

/-- The page is loaded again, with a new journal over the same records. -/
def CalledJournal.reload (store : CalledJournal) : CalledJournal :=
  { store with journal := ⟨store.journal.storage, .initial⟩ }

/-- `localStorageJournal`, in a browser that may be another one at every call. The calls of a
`RoomJournal` do not throw, as those of this one do not where what is thrown can be described. -/
def localStorageJournal (browsers : Nat → Browser) (maxEvents : Option Nat) :
    RoomJournal CalledJournal where
  load store roomId :=
    let (answer, journal) := store.journal.load (browsers store.calls) roomId
    let held := answer.getD ⟨[], 0⟩
    (held, ⟨journal, store.calls + 1, store.answers ++ [(roomId, held)]⟩)
  commit store roomId entry lastSeq :=
    { store with
      journal := (store.journal.commit (browsers store.calls) maxEvents roomId entry lastSeq).2
      calls := store.calls + 1 }
  reset store roomId :=
    { store with
      journal := (store.journal.reset (browsers store.calls) roomId).2
      calls := store.calls + 1 }

/-! ## Tabs -/

/-- A page that is open: the cursors of the rooms it looks at and the memory of its journal. -/
structure Tab where
  cursors : String → Option Nat
  memory : JournalMemory

def Tab.initial : Tab := ⟨fun _ => none, .initial⟩

/-- The tabs of one origin, which share its records. -/
structure Origin where
  storage : Js.Map String HeldRoom
  tabs : Nat → Tab
  /-- Whether a call of a journal threw. -/
  thrown : Bool

def Origin.initial : Origin := ⟨Js.Map.empty, fun _ => .initial, false⟩

inductive TabAct where
  /-- `view`: a room that is not open is loaded. -/
  | look (roomId : String)
  /-- `applyEntry`: an entry in the next place is committed before the cursor moves. -/
  | apply (entry : RoomEntry)
  /-- The history is discarded, as the `subscribed` frame does. -/
  | discard (roomId : String)
  | leave (roomId : String)
  /-- The page is loaded again, with a new journal. -/
  | reload

structure TabEvent where
  /-- The number of the tab. -/
  tab : Nat
  browser : Browser
  act : TabAct

namespace Origin

variable (origin : Origin) (maxEvents : Nat → Option Nat)

def journal (tab : Nat) : LocalJournal := ⟨origin.storage, (origin.tabs tab).memory⟩

/-- The journal and the cursors of a tab after a call that did not throw. -/
def moved (tab : Nat) (journal : LocalJournal) (cursors : String → Option Nat) : Origin :=
  { origin with
    storage := journal.storage
    tabs := Function.update origin.tabs tab ⟨cursors, journal.memory⟩ }

def failed (tab : Nat) (journal : LocalJournal) : Origin :=
  { origin.moved tab journal (origin.tabs tab).cursors with thrown := true }

def step (event : TabEvent) : Origin :=
  let journal := origin.journal event.tab
  let cursors := (origin.tabs event.tab).cursors
  match event.act with
  | .look roomId =>
    match cursors roomId with
    | some _ => origin
    | none =>
      match journal.load event.browser roomId with
      | (none, journal) => origin.failed event.tab journal
      | (some held, journal) =>
        origin.moved event.tab journal (Function.update cursors roomId (some held.lastSeq))
  | .apply entry =>
    if (cursors entry.roomId).map (· + 1) = some entry.roomSeq then
      match journal.commit event.browser (maxEvents event.tab) entry.roomId entry entry.roomSeq with
      | (false, journal) => origin.failed event.tab journal
      | (true, journal) =>
        origin.moved event.tab journal (Function.update cursors entry.roomId (some entry.roomSeq))
    else origin
  | .discard roomId =>
    match cursors roomId with
    | none => origin
    | some _ =>
      match journal.reset event.browser roomId with
      | (false, journal) => origin.failed event.tab journal
      | (true, journal) =>
        origin.moved event.tab journal (Function.update cursors roomId (some 0))
  | .leave roomId => origin.moved event.tab journal (Function.update cursors roomId none)
  | .reload => origin.moved event.tab ⟨origin.storage, .initial⟩ fun _ => none

def run (events : List TabEvent) : Origin := events.foldl (step · maxEvents) origin

end Origin

end Web
