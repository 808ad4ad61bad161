import AtriumVerified.Server.Append

/-!
# Plans, sessions and their events

The tables `plans`, `sessions`, `session_signals`, `session_subscriptions` and `funded_arms`
(`packages/db/src/schema.ts`) and the events of `apps/server/src/room-events.ts` that are projected
onto them. A plan groups the sessions of an agent; a session is one run of a harness.
-/

namespace Execution

open Core Postgres Server

/-! ## Columns -/

inductive PlanStatus where
  | opened
  | settled
  deriving DecidableEq, Repr

/-- `plan_status::text`. -/
def PlanStatus.text : PlanStatus → String
  | .opened => "open"
  | .settled => "settled"

inductive SessionStatus where
  | opened
  | settled
  | failed
  deriving DecidableEq, Repr

/-- `session_status::text`. -/
def SessionStatus.text : SessionStatus → String
  | .opened => "open"
  | .settled => "settled"
  | .failed => "failed"

/-- The two spellings of an exit, which `outcome` of a settle chooses. -/
inductive Outcome where
  | settled
  | failed
  deriving DecidableEq, Repr

/-- `outcome` as a text. -/
def Outcome.text : Outcome → String
  | .settled => "settled"
  | .failed => "failed"

def Outcome.status : Outcome → SessionStatus
  | .settled => .settled
  | .failed => .failed

inductive SubscriptionStatus where
  | waiting
  | matched
  | expired
  | disposed
  deriving DecidableEq, Repr

inductive SignalKind where
  | steer
  | interrupt
  | resume
  deriving DecidableEq, Repr

inductive ExecutionMode where
  | provider
  | external
  deriving DecidableEq, Repr

inductive Arm where
  | spawn
  | continue
  deriving DecidableEq, Repr

/-- `arm` as a text. -/
def Arm.text : Arm → String
  | .spawn => "spawn"
  | .continue => "continue"

/-- A fill of the context window, between 0 and 1. -/
structure ContextPct where
  value : Js.Number
  nonneg : Js.Number.le (Js.Number.ofInt 0) value = true
  le_one : Js.Number.le value (Js.Number.ofInt 1) = true

structure ExecutionArtifact where
  branch : String
  commit : String
  remote : String
  diff : Option Js.Json := none
  tests : Option Js.Json := none

structure Receipt where
  exitSummary : Option String
  spendMicros : Option Nat
  contextPct : Option ContextPct
  artifact : Option ExecutionArtifact

/-! ## Rows -/

/-- A row of `plans`. -/
structure PlanRow where
  roomId : Uuid
  agentUserId : Uuid
  title : String
  status : PlanStatus := .opened
  budgetLimitMicros : Option Nat
  rlimitSlice : Option Nat := none
  authorizedDraws : Nat := 0
  causeMessageId : Option Uuid
  openedByEventId : Id
  settledByEventId : Option Id := none

/-- `SessionArtifact`: the artifact of an exit without its `remote`. -/
structure SessionArtifact where
  branch : String
  commit : String
  diff : Option Js.Json
  tests : Option Js.Json

/-- A row of `sessions`. -/
structure SessionRow where
  roomId : Uuid
  planId : Uuid
  harness : String
  model : String
  status : SessionStatus := .opened
  exitSummary : Option String := none
  spendMicros : Nat := 0
  contextPct : Option ContextPct := none
  artifact : Option SessionArtifact := none
  openedByEventId : Id
  settledByEventId : Option Id := none
  executionMode : ExecutionMode
  executionOwner : Option String
  executionAuthority : Option String
  executionClaimedAt : Option Int := none
  causeMessageId : Option Uuid

/-- A row of `session_signals`. -/
structure SignalRow where
  roomId : Uuid
  sessionId : Uuid
  kind : SignalKind
  body : Option String
  causeMessageId : Option Uuid
  supersedesEventId : Option Id
  subscriptionId : Option Uuid
  raisedByUserId : Option Uuid
  signaledByEventId : Id

/-- A row of `session_subscriptions`. -/
structure SubscriptionRow where
  roomId : Uuid
  sessionId : Uuid
  source : String
  matcher : String
  expiresAt : Timestamp
  status : SubscriptionStatus := .waiting
  matchedByEventId : Option Id := none
  raisedByUserId : Option Uuid
  subscribedByEventId : Id

/-- A row of `funded_arms`, whose key is the room and the message. -/
structure FundedArmRow where
  arm : Arm
  sessionId : Uuid
  drawnByEventId : Id

structure Tables where
  plans : Table Uuid PlanRow
  sessions : Table Uuid SessionRow
  signals : Table Uuid SignalRow
  subscriptions : Table Uuid SubscriptionRow
  fundedArms : Table (Uuid × Uuid) FundedArmRow

def emptyTables : Tables := ⟨∅, ∅, ∅, ∅, ∅⟩

/-! ## Events -/

/-- The fields of an event beside its position and its room. -/
inductive Payload where
  | planOpened (planId agentUserId : Id) (title : String) (budgetLimitMicros : Option Nat)
      (causeMessageId : Option Id)
  | planSettled (planId : Id)
  | sessionOpened (sessionId planId : Id) (harness model : String) (executionMode : ExecutionMode)
      (executionOwner : Option String) (causeMessageId : Option Id)
  /-- `session_settled` and `session_failed`. -/
  | sessionExit (outcome : Outcome) (sessionId : Id) (receipt : Receipt)
  | planRlimitSet (planId : Id) (slice : Nat)
  /-- `draw_refused`, whose `reason` is always `budget`. -/
  | drawRefused (planId : Id) (slice authorizedDraws : Nat) (harness model : String)
  | sessionSignaled (sessionId signalId : Id) (kind : SignalKind) (body : Option String)
      (causeMessageId supersedesEventId subscriptionId : Option Id)
  | sessionSubscribed (sessionId subscriptionId : Id) (source matcher : String)
      (expiresAt : Timestamp)

structure Event where
  id : Id
  roomId : Id
  actor : Actor
  payload : Payload

structure Surroundings where
  /-- Whether `authorizer.authorize` finds a membership of the user in the room. -/
  isMember : Id → Id → Bool
  /-- Whether a room has a message with this id. -/
  hasMessage : Uuid → Uuid → Bool
  /-- `agents.owner_user_id`. -/
  ownerOf : Uuid → Option Uuid

/-- `SELECT … WHERE id = key AND room_id = roomId`. -/
def rowIn {ρ : Type} (table : Table Uuid ρ) (room : ρ → Uuid) (key roomId : Id) :
    Except LedgerError (Option ρ) := do
  let key ← cast (uuid key)
  let roomId ← cast (uuid roomId)
  return (table.lookup key).filter fun row => room row == roomId

def planIn (tables : Tables) (planId roomId : Id) : Except LedgerError (Option PlanRow) :=
  rowIn tables.plans PlanRow.roomId planId roomId

def sessionIn (tables : Tables) (sessionId roomId : Id) : Except LedgerError (Option SessionRow) :=
  rowIn tables.sessions SessionRow.roomId sessionId roomId

end Execution
