import AtriumVerified.Execution.Projections

/-!
# Commands on plans and sessions

The model of `execute` of `apps/server/src/commands.ts` for the commands that open, fund, run and
settle plans and sessions. A command is one append transaction under the ledger lock: it is
authorized, the event is built, and the event is projected.
-/

namespace Execution

open Core Postgres Server

/-! ## Commands -/

/-- `Session`, which is who sends the command. -/
structure Caller where
  userId : Id
  principalKind : PrincipalKind

structure OpenPlan where
  roomId : Id
  agentUserId : Id
  title : String
  budgetLimitMicros : Option Nat
  causeMessageId : Option Id

structure SettlePlan where
  roomId : Id
  planId : Id

structure OpenSession where
  roomId : Id
  planId : Id
  harness : String
  model : String
  causeMessageId : Option Id

structure SettleSession where
  roomId : Id
  sessionId : Id
  outcome : Outcome
  receipt : Receipt
  authority : Option String

structure SetPlanRlimit where
  roomId : Id
  planId : Id
  slice : Nat

/-- The two kinds of `signal_session`. -/
inductive Nudge where
  | steer
  | interrupt
  deriving DecidableEq, Repr

def Nudge.kind : Nudge → SignalKind
  | .steer => .steer
  | .interrupt => .interrupt

structure SignalSession where
  roomId : Id
  sessionId : Id
  kind : Nudge
  body : Option String
  causeMessageId : Option Id
  supersedesEventId : Option Id

structure ResumeSession where
  roomId : Id
  sessionId : Id
  body : Option String
  causeMessageId : Option Id
  supersedesEventId : Option Id
  subscriptionId : Option Id

structure SubscribeSession where
  roomId : Id
  sessionId : Id
  source : String
  matcher : String
  expiresAt : Timestamp

inductive Command where
  | openPlan (command : OpenPlan)
  | settlePlan (command : SettlePlan)
  | openSession (command : OpenSession)
  | settleSession (command : SettleSession)
  | setPlanRlimit (command : SetPlanRlimit)
  | signalSession (command : SignalSession)
  | resumeSession (command : ResumeSession)
  | subscribeSession (command : SubscribeSession)

def Command.roomId : Command → Id
  | .openPlan command => command.roomId
  | .settlePlan command => command.roomId
  | .openSession command => command.roomId
  | .settleSession command => command.roomId
  | .setPlanRlimit command => command.roomId
  | .signalSession command => command.roomId
  | .resumeSession command => command.roomId
  | .subscribeSession command => command.roomId

/-- What a command draws from outside: the id of its event, the id it makes for a plan, a session, a
signal or a wait, the token it makes, the clock, what the verifier of artifacts says, and the
execution instance of this process. -/
structure Draw where
  eventId : Id
  entityId : Id
  authority : String
  now : Timestamp
  verified : Bool
  executionInstanceId : Option String

/-- What is wrong with an artifact, if `ExecutionArtifact.safeParse` refuses it. -/
abbrev ArtifactCheck := ExecutionArtifact → List Schema.Issue

def actorOf (caller : Caller) : Actor :=
  match caller.principalKind with
  | .human => .human caller.userId
  | .agent => .agent caller.userId

/-! ## Guards -/

/-- `new CommandError('invalid', message)`. -/
def invalid {α : Type} (message : String) : Except LedgerError α := .error (.command "invalid" message)

def requireMembership (around : Surroundings) (caller : Caller) (roomId : Id) :
    Except LedgerError Unit :=
  demand (around.isMember roomId caller.userId)
    (.command "not_a_member" s!"no membership for room \"{roomId}\"")

def requireSameRoomCause (around : Surroundings) (roomId : Id) (causeMessageId : Option Id) :
    Except LedgerError Unit :=
  match causeMessageId with
  | none => .ok ()
  | some causeMessageId => do
    let cause ← cast (uuid causeMessageId)
    let room ← cast (uuid roomId)
    demand (around.hasMessage room cause) (.command "invalid"
      s!"causeMessageId \"{causeMessageId}\" names no message in room \"{roomId}\" — a routing receipt's provenance edge is same-room by construction (the projection lands it on a composite (room_id, message_id) foreign key), so a cause from another room is not a cause this room can show. Nothing was appended")

def requirePlanCauseUnclaimed (tables : Tables) (roomId : Id) (causeMessageId : Option Id) :
    Except LedgerError Unit :=
  match causeMessageId with
  | none => .ok ()
  | some causeMessageId => do
    let room ← cast (uuid roomId)
    let cause ← cast (uuid causeMessageId)
    demand (Table.selectWhere tables.plans fun _ plan =>
        plan.roomId == room && plan.causeMessageId == some cause).keys.isEmpty (.command "invalid"
      s!"cause message \"{causeMessageId}\" has already opened a plan in room \"{roomId}\" — one routed channel message opens at most ONE board, so a second open_plan from it is a daemon retry of a plan already opened. Nothing was appended. A plan takes no funded-arm claim (a plan is not a draw); this is the board's own idempotency, and its authority is plans_room_cause_routed_key")

def requireUnfundedCause (tables : Tables) (roomId : Id) (causeMessageId : Option Id) :
    Except LedgerError Unit :=
  match causeMessageId with
  | none => .ok ()
  | some causeMessageId => do
    let room ← cast (uuid roomId)
    let cause ← cast (uuid causeMessageId)
    demand (tables.fundedArms.lookup (room, cause)).isNone (.command "invalid"
      s!"cause message \"{causeMessageId}\" has already funded a draw in room \"{roomId}\" — one channel message funds at most ONE arm (a spawn or a continue), so a second draw from it is a daemon retry of work the slice already paid for. Nothing was appended. If the first arm was wrong, settle or fail it and route the new work from a new message")

def requireOpenTarget (target : Option SignalTarget) (verb : String) (sessionId roomId : Id) :
    Except LedgerError SignalTarget :=
  match target with
  | none => invalid
      s!"\"{verb}\" names session \"{sessionId}\", which does not exist in room \"{roomId}\" — a refused draw opens no session and is not a signal target. Nothing was appended"
  | some target =>
    if target.status = .opened then .ok target
    else invalid
      s!"\"{verb}\" targets session \"{sessionId}\", which is {target.status.text}, not open — a signal is control sent DOWN into a running process, and a process that has published its exit receipt is not running. Nothing was appended. An interrupt requests; an exit concludes, and this one already did"

def requireSessionControl (target : SignalTarget) (caller : Caller) (verb : String)
    (sessionId : Id) : Except LedgerError Unit :=
  demand (caller.userId == uuidText target.agentUserId ||
      caller.userId == uuidText target.ownerUserId) (.command "invalid"
    s!"\"{verb}\" is control over session \"{sessionId}\"'s running process, and only that session's agent principal or the human who owns that agent may send it — a room member may STEER a session (that append is public, receipted, and powerless over covenant and purse) and may not stop or continue somebody else's process. Nothing was appended")

def requireSupersededSignal (tables : Tables) (roomId sessionId : Id)
    (supersedesEventId : Option Id) : Except LedgerError Unit :=
  match supersedesEventId with
  | none => .ok ()
  | some supersedesEventId => do
    let room ← cast (uuid roomId)
    let session ← cast (uuid sessionId)
    demand (!(Table.selectWhere tables.signals fun _ signal =>
        signal.signaledByEventId == supersedesEventId && signal.roomId == room &&
          signal.sessionId == session).keys.isEmpty) (.command "invalid"
      s!"supersedesEventId \"{supersedesEventId}\" is not an earlier session_signaled for session \"{sessionId}\" in this room — a revision is forward-only and NAMES the append it replaces, because the ledger is append-only and the tail-discard is the harness's act. Nothing was appended")

def requireWaitingSubscription (tables : Tables) (roomId sessionId : Id)
    (subscriptionId : Option Id) : Except LedgerError Unit :=
  match subscriptionId with
  | none => .ok ()
  | some subscriptionId => do
    let found ← rowIn tables.subscriptions SubscriptionRow.roomId subscriptionId roomId
    let session ← cast (uuid sessionId)
    demand (found.any fun row => row.sessionId == session && row.status == .waiting)
      (.command "invalid"
        s!"subscriptionId \"{subscriptionId}\" is not a waiting subscription of session \"{sessionId}\" in this room — a continuation pays out a wait that is still waiting; one already matched, expired or disposed has had its disposition. Nothing was appended")

/-! ## Opening and funding -/

section Commands

variable (around : Surroundings) (tables : Tables) (caller : Caller) (draw : Draw)

/-- The event that a command of this caller appends, and the tables after its projection. -/
def append (actor : Actor) (roomId : Id) (payload : Payload) :
    Except LedgerError (Tables × Event) := do
  let event : Event := { id := draw.eventId, roomId, actor, payload }
  let tables ← projectRoomEvent around draw.authority tables event
  return (tables, event)

def openPlan (command : OpenPlan) : Except LedgerError (Tables × Event) := do
  requireMembership around caller command.roomId
  requireSameRoomCause around command.roomId command.causeMessageId
  requirePlanCauseUnclaimed tables command.roomId command.causeMessageId
  append around tables draw (actorOf caller) command.roomId (.planOpened draw.entityId
    command.agentUserId command.title command.budgetLimitMicros command.causeMessageId)

def settlePlan (command : SettlePlan) : Except LedgerError (Tables × Event) := do
  requireMembership around caller command.roomId
  append around tables draw (actorOf caller) command.roomId (.planSettled command.planId)

def setPlanRlimit (command : SetPlanRlimit) : Except LedgerError (Tables × Event) := do
  requireMembership around caller command.roomId
  append around tables draw (actorOf caller) command.roomId
    (.planRlimitSet command.planId command.slice)

/-- Whether a draw of an open plan would exceed its slice. A slice nobody set is 0. -/
def isSpent (slice : Option Nat) (authorizedDraws : Nat) : Bool :=
  decide (slice.getD 0 < authorizedDraws + 1)

def openSession (command : OpenSession) : Except LedgerError (Tables × Event) := do
  requireMembership around caller command.roomId
  requireSameRoomCause around command.roomId command.causeMessageId
  requireUnfundedCause tables command.roomId command.causeMessageId
  let plan ← planIn tables command.planId command.roomId
  match plan.filter fun plan =>
      plan.status == .opened && isSpent plan.rlimitSlice plan.authorizedDraws with
  | some plan =>
    append around tables draw (actorOf caller) command.roomId (.drawRefused command.planId
      (plan.rlimitSlice.getD 0) plan.authorizedDraws command.harness command.model)
  | none =>
    append around tables draw (actorOf caller) command.roomId (.sessionOpened draw.entityId
      command.planId command.harness command.model
      (if draw.executionInstanceId.isSome then .provider else .external) draw.executionInstanceId
      command.causeMessageId)

/-! ## Settling a session -/

/-- `SettleReceiptBounds`: the numbers of a receipt carry their bounds, so the length of the summary
is what can be wrong. -/
def receiptIssues (receipt : Receipt) : List Schema.Issue :=
  match receipt.exitSummary.bind (Schema.maxLength 4000) with
  | some message => [⟨["exitSummary"], message⟩]
  | none => []

/-- The issues of a refused receipt or artifact as one text. -/
def issuesText (issues : List Schema.Issue) : String :=
  Js.join "; " (issues.map fun issue =>
    (if issue.path.isEmpty then "(root)" else ".".intercalate issue.path) ++ ": " ++ issue.message)

/-- `tokenAuthorized`: the token of a provider's session was presented. -/
def isTokenAuthorized (session : SessionRow) (authority : Option String) : Bool :=
  session.executionMode == .provider && session.executionAuthority.isSome &&
    authority == session.executionAuthority

/-- Who may write an exit without a token: a member who opened the session, which is not a
provider's. `openerOf` is the actor of an event. -/
def requireOpener (openerOf : Id → Option Id) (session : SessionRow) (roomId sessionId : Id) :
    Except LedgerError Unit := do
  requireMembership around caller roomId
  demand (openerOf session.openedByEventId == some caller.userId) (.command "invalid"
    s!"\"settle_session\" writes session \"{sessionId}\"'s exit receipt, and only the party that OPENED that session may write it — a session's exit is a fact about a process you are not running, and a member fabricating one would stand in the ledger as that process's receipt. Nothing was appended. If the session is wedged, it is reconciled at startup, not settled from the outside")
  demand (session.executionMode != .provider) (.command "invalid"
    s!"\"settle_session\" of session \"{sessionId}\" is owned by its execution provider — its terminal (settled or failed) comes from the provider's verified report, carried on a capability minted for the session that a room member does not hold. Nothing was appended. A wedged provider session is driven to a receipt by reconciliation, not settled from the outside")

/-- Who may write an exit: the bearer of the token, or the opener. -/
def requireSettler (openerOf : Id → Option Id) (session : SessionRow) (command : SettleSession) :
    Except LedgerError Unit :=
  if isTokenAuthorized session command.authority then .ok ()
  else requireOpener around caller openerOf session command.roomId command.sessionId

/-- The receipt with `verifiedArtifact`: the artifact, where the verifier confirms it. -/
def verifiedReceipt (verified : Bool) (receipt : Receipt) : Receipt :=
  { receipt with artifact := if verified then receipt.artifact else none }

/-- `settle_session`. The record of the session's authority is written once, when it is opened. -/
def settleSession (check : ArtifactCheck) (openerOf : Id → Option Id) (command : SettleSession) :
    Except LedgerError (Tables × Event) := do
  demand (receiptIssues command.receipt).isEmpty (.command "invalid"
    ("settle_session receipt is out of bounds and would break replay: " ++
      issuesText (receiptIssues command.receipt)))
  demand ((command.receipt.artifact.map check).getD []).isEmpty (.command "invalid"
    ("settle_session artifact is malformed and would break replay: " ++
      issuesText ((command.receipt.artifact.map check).getD [])))
  let found ← sessionIn tables command.sessionId command.roomId
  match found with
  | none =>
    invalid s!"no session \"{command.sessionId}\" to settle in room \"{command.roomId}\" — it does not exist here"
  | some session =>
    requireSettler around caller openerOf session command
    demand (!(session.executionMode == .provider && command.outcome == .settled &&
        (verifiedReceipt draw.verified command.receipt).artifact.isNone))
      (.command "invalid"
        s!"refusing a clean settle of session \"{command.sessionId}\" with no provider-verified artifact — a settled session must reference a real branch/commit the execution provider produced; a failure with no artifact settles as outcome:\"failed\"")
    append around tables draw
      (if isTokenAuthorized session command.authority then .system else actorOf caller)
      command.roomId (.sessionExit command.outcome command.sessionId
        (verifiedReceipt draw.verified command.receipt))

/-! ## Signals and waits -/

def requireInterruptControl (target : SignalTarget) (command : SignalSession) :
    Except LedgerError Unit :=
  if command.kind = .interrupt then
    requireSessionControl target caller "signal_session" command.sessionId
  else .ok ()

def signalSession (command : SignalSession) : Except LedgerError (Tables × Event) := do
  requireMembership around caller command.roomId
  let found ← readSignalTarget around tables command.roomId command.sessionId
  let target ← requireOpenTarget found "signal_session" command.sessionId command.roomId
  requireInterruptControl caller target command
  requireSameRoomCause around command.roomId command.causeMessageId
  requireSupersededSignal tables command.roomId command.sessionId command.supersedesEventId
  append around tables draw (actorOf caller) command.roomId (.sessionSignaled command.sessionId
    draw.entityId command.kind.kind command.body command.causeMessageId command.supersedesEventId
    none)

def resumeSession (command : ResumeSession) : Except LedgerError (Tables × Event) := do
  requireMembership around caller command.roomId
  let found ← readSignalTarget around tables command.roomId command.sessionId
  let target ← requireOpenTarget found "resume_session" command.sessionId command.roomId
  requireSessionControl target caller "resume_session" command.sessionId
  requireSameRoomCause around command.roomId command.causeMessageId
  requireUnfundedCause tables command.roomId command.causeMessageId
  requireSupersededSignal tables command.roomId command.sessionId command.supersedesEventId
  requireWaitingSubscription tables command.roomId command.sessionId command.subscriptionId
  if isSpent target.slice target.authorizedDraws then
    append around tables draw (actorOf caller) command.roomId (.drawRefused
      (uuidText target.planId) (target.slice.getD 0) target.authorizedDraws target.harness
      target.model)
  else
    append around tables draw (actorOf caller) command.roomId (.sessionSignaled command.sessionId
      draw.entityId .resume command.body command.causeMessageId command.supersedesEventId
      command.subscriptionId)

/-- `Date.parse(expiresAt) > Date.parse(now)`. -/
def isFuture (expiresAt now : Timestamp) : Bool :=
  match date expiresAt, date now with
  | some expiresAt, some now => decide (now < expiresAt)
  -- A comparison with `NaN` is false, so the horizon is not refused.
  | _, _ => true

def subscribeSession (command : SubscribeSession) : Except LedgerError (Tables × Event) := do
  requireMembership around caller command.roomId
  let found ← readSignalTarget around tables command.roomId command.sessionId
  let target ← requireOpenTarget found "subscribe_session" command.sessionId command.roomId
  requireSessionControl target caller "subscribe_session" command.sessionId
  demand (isFuture command.expiresAt draw.now) (.command "invalid"
    s!"expiresAt \"{command.expiresAt}\" is not in the future (it is now {draw.now}) — a subscription's expiry is mandatory because an unmatched wait must become owed ATTENTION rather than a forever-open session silently blocking its plan's settle, and a wait born past its horizon owes it immediately. Nothing was appended")
  append around tables draw (actorOf caller) command.roomId (.sessionSubscribed command.sessionId
    draw.entityId command.source command.matcher command.expiresAt)

/-! ## Every command -/

/-- What `execute` refuses before the transaction: a caller who is no member, where the command does
not check that itself, and a machine that would fund a plan. -/
def authorizeEarly (early : Surroundings) : Command → Except LedgerError Unit
  | .settleSession _ => .ok ()
  | .setPlanRlimit command => do
    requireMembership early caller command.roomId
    demand (caller.principalKind == .human) (.command "invalid"
      "\"set_plan_rlimit\" authorizes spend — it sets a plan's rlimit slice — and this session is a agent principal; a plan's budget is set by a person (human = init), and no machine may raise its own or any plan's ceiling. Nothing was appended. Ask a person in the room to fund the plan")
  | command => requireMembership early caller command.roomId

def transact (check : ArtifactCheck) (openerOf : Id → Option Id) :
    Command → Except LedgerError (Tables × Event)
  | .openPlan command => openPlan around tables caller draw command
  | .settlePlan command => settlePlan around tables caller draw command
  | .openSession command => openSession around tables caller draw command
  | .settleSession command => settleSession around tables caller draw check openerOf command
  | .setPlanRlimit command => setPlanRlimit around tables caller draw command
  | .signalSession command => signalSession around tables caller draw command
  | .resumeSession command => resumeSession around tables caller draw command
  | .subscribeSession command => subscribeSession around tables caller draw command

def execute (early : Surroundings) (check : ArtifactCheck) (openerOf : Id → Option Id)
    (command : Command) : Except LedgerError (Tables × Event) := do
  authorizeEarly caller early command
  transact around tables caller draw check openerOf command

end Commands

end Execution
