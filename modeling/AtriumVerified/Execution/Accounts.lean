import AtriumVerified.Execution.Commands

/-!
# The accounts of a plan

What the events say of a plan: the draws it was granted, the slice in force, the messages its draws
name; and what is promised of the tables, over every run of commands.
-/

namespace Execution

open Core Postgres Server

/-! ## Runs -/

structure Books where
  tables : Tables
  events : List Event

def emptyBooks : Books := ⟨emptyTables, []⟩

/-- A command and what surrounds it. Its transaction may still be lost when it is not `durable`. -/
structure Attempt where
  caller : Caller
  command : Command
  early : Surroundings
  around : Surroundings
  draw : Draw
  durable : Bool

def openerOf (events : List Event) (eventId : Id) : Option Id :=
  (events.find? fun event => event.id == eventId).bind fun event => (actorToColumns event.actor).2

variable (check : ArtifactCheck)

def Books.answer (books : Books) (attempt : Attempt) : Except LedgerError (Tables × Event) :=
  execute attempt.around books.tables attempt.caller attempt.draw attempt.early check
    (openerOf books.events) attempt.command

def Books.attempt (books : Books) (attempt : Attempt) : Books :=
  match books.answer check attempt with
  | .ok (tables, event) => if attempt.durable then ⟨tables, books.events ++ [event]⟩ else books
  | .error _ => books

def Books.after (books : Books) (attempts : List Attempt) : Books :=
  attempts.foldl (Books.attempt check) books

/-! ## What an event does -/

def Event.opens (plan : Uuid) (event : Event) : Bool :=
  match event.payload with
  | .sessionOpened _ planId _ _ _ _ _ => uuid planId == some plan
  | _ => false

def Event.resumed (event : Event) : Option Uuid :=
  match event.payload with
  | .sessionSignaled sessionId _ .resume _ _ _ _ => uuid sessionId
  | _ => none

def Event.resumesInto (tables : Tables) (plan : Uuid) (event : Event) : Bool :=
  (event.resumed.bind fun session => tables.sessions.lookup session).any fun row =>
    row.planId == plan

def Event.exited (event : Event) : Option Uuid :=
  match event.payload with
  | .sessionExit _ sessionId _ => uuid sessionId
  | _ => none

def Event.slices (event : Event) : Option (Uuid × Nat) :=
  match event.payload with
  | .planRlimitSet planId slice => (uuid planId).map fun plan => (plan, slice)
  | _ => none

def causeOf (roomId : Id) (causeMessageId : Option Id) : Option (Uuid × Uuid) :=
  (uuid roomId).bind fun room => (causeMessageId.bind uuid).map fun cause => (room, cause)

def Event.drawCause (event : Event) : Option (Uuid × Uuid) :=
  match event.payload with
  | .sessionOpened _ _ _ _ _ _ causeMessageId => causeOf event.roomId causeMessageId
  | .sessionSignaled _ _ .resume _ causeMessageId _ _ => causeOf event.roomId causeMessageId
  | _ => none

def Event.planCause (event : Event) : Option (Uuid × Uuid) :=
  match event.payload with
  | .planOpened _ _ _ _ causeMessageId => causeOf event.roomId causeMessageId
  | _ => none

/-! ## Accounts -/

/-- The draws that a plan was granted: the sessions opened under it and the resumes of its
sessions. -/
def Books.draws (books : Books) (plan : Uuid) : Nat :=
  books.events.countP (Event.opens plan) +
    books.events.countP (Event.resumesInto books.tables plan)

def Books.slices (books : Books) (plan : Uuid) : List Nat :=
  ((books.events.filterMap Event.slices).filter fun entry => entry.1 == plan).map Prod.snd

/-- The slice in force: the last one that was set, and 0 where none was. -/
def Books.slice (books : Books) (plan : Uuid) : Nat := (books.slices plan).getLast?.getD 0

def Books.Grants (books : Books) (plan : Uuid) (event : Event) : Prop :=
  event.opens plan = true ∨ event.resumesInto books.tables plan = true

def Command.draws : Command → Bool
  | .openSession _ | .resumeSession _ => true
  | _ => false

def Event.refused (event : Event) : Option Uuid :=
  match event.payload with
  | .drawRefused planId _ _ _ _ => uuid planId
  | _ => none

/-! ## What is promised -/

structure Balanced (books : Books) : Prop where
  /-- The counter of a plan is the number of draws it was granted. -/
  draws : ∀ plan row, books.tables.plans.lookup plan = some row →
    row.authorizedDraws = books.draws plan
  /-- The ceiling of a plan is the slice in force. -/
  slices : ∀ plan row, books.tables.plans.lookup plan = some row →
    row.rlimitSlice.getD 0 = books.slice plan
  /-- At most one granted draw names a message. -/
  drawCauses : ∀ cause, (books.events.filter fun event => event.drawCause = some cause).length ≤ 1
  /-- At most one plan names a message. -/
  planCauses : ∀ cause, (books.events.filter fun event => event.planCause = some cause).length ≤ 1
  /-- A settled plan has no open session. -/
  settled : ∀ plan row, books.tables.plans.lookup plan = some row → row.status = .settled →
    ∀ session child, books.tables.sessions.lookup session = some child → child.planId = plan →
      child.status ≠ .opened
  /-- A session has at most one exit. -/
  exits : ∀ session, (books.events.filter fun event => event.exited = some session).length ≤ 1
  /-- A wait that is still waiting belongs to an open session. -/
  waits : ∀ wait row, books.tables.subscriptions.lookup wait = some row → row.status = .waiting →
    ∃ session, books.tables.sessions.lookup row.sessionId = some session ∧
      session.status = .opened

structure Settles (before after : Books) : Prop where
  /-- A settled plan stays as it is, and is given neither a session nor a slice. -/
  plans : ∀ plan row, before.tables.plans.lookup plan = some row → row.status = .settled →
    after.tables.plans.lookup plan = some row ∧ after.draws plan = before.draws plan ∧
      after.slices plan = before.slices plan ∧
      after.events.countP (Event.opens plan) = before.events.countP (Event.opens plan)
  /-- A wait that is not waiting any more keeps its disposition. -/
  waits : ∀ wait row, before.tables.subscriptions.lookup wait = some row →
    row.status ≠ .waiting → after.tables.subscriptions.lookup wait = some row

structure Funded (books : Books) (command : Command) (tables : Tables) (event : Event) : Prop where
  /-- A draw is granted below the slice in force only. -/
  below : ∀ plan, Books.Grants ⟨tables, books.events⟩ plan event → books.draws plan < books.slice plan
  /-- A command that takes a draw is granted one, or is answered by a refusal that changes no row
  where the plan has no draw left. -/
  answered : command.draws = true →
    (∃ plan, Books.Grants ⟨tables, books.events⟩ plan event) ∨
      ∃ plan row, event.refused = some plan ∧ tables = books.tables ∧
        books.tables.plans.lookup plan = some row ∧ books.slice plan ≤ books.draws plan

end Execution
