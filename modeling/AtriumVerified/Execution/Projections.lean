import AtriumVerified.Execution.Tables

/-!
# Projecting an event onto plans and sessions

The model of the lifecycle half of `apps/server/src/projections.ts`. A projection runs in the
transaction that appends its event: where it throws, there is no event either. The constraints of
the tables that the projections do not rely on are left out; they only refuse.
-/

namespace Execution

open Core Postgres Server

/-! ## Statements -/

section Statements

variable {ρ : Type} (table : Table Uuid ρ)

/-- `INSERT`. -/
def insertIn (key : Id) (row : ρ) : Except LedgerError (Table Uuid ρ) := do
  let key ← cast (uuid key)
  cast (table.insertRow key row)

/-- `UPDATE … WHERE id = key AND room_id = roomId AND condition RETURNING id`: without a row to
update it throws. -/
def updateIn (room : ρ → Uuid) (key roomId : Id) (condition : ρ → Bool) (change : ρ → ρ)
    (refusal : String) : Except LedgerError (Table Uuid ρ) := do
  let found ← rowIn table room key roomId
  let key ← cast (uuid key)
  match found.filter condition with
  | none => .error (.command "invalid" refusal)
  | some row => return table.insert key (change row)

end Statements

/-- A nullable `uuid`. -/
def uuidOrNull : Option Id → Except LedgerError (Option Uuid)
  | none => .ok none
  | some id => (cast (uuid id)).map some

def actorUserId : Actor → Option Id
  | .human userId | .agent userId => some userId
  | .model _ | .system => none

/-! ## Plans -/

def projectPlanOpened (tables : Tables) (event : Event) (planId agentUserId : Id) (title : String)
    (budgetLimitMicros : Option Nat) (causeMessageId : Option Id) : Except LedgerError Tables := do
  let roomId ← cast (uuid event.roomId)
  let agentUserId ← cast (uuid agentUserId)
  let causeMessageId ← uuidOrNull causeMessageId
  let plans ← insertIn tables.plans planId
    { roomId, agentUserId, title, budgetLimitMicros, causeMessageId, openedByEventId := event.id }
  return { tables with plans }

def openChildren (tables : Tables) (planId roomId : Uuid) : List Uuid :=
  (Table.selectWhere tables.sessions fun _ session =>
    session.planId == planId && session.roomId == roomId && session.status == .opened).keys

def projectPlanSettled (tables : Tables) (event : Event) (planId : Id) :
    Except LedgerError Tables := do
  let plan ← cast (uuid planId)
  let roomId ← cast (uuid event.roomId)
  demand (openChildren tables plan roomId).isEmpty (.command "invalid"
    (s!"plan \"{planId}\" has {(openChildren tables plan roomId).length} open child session(s) and may not settle — every session must settle or fail first, so the plan's receipt can index its children's receipts"))
  let plans ← updateIn tables.plans PlanRow.roomId planId event.roomId
    (fun row => row.status == .opened)
    (fun row => { row with status := .settled, settledByEventId := some event.id })
    s!"no open plan \"{planId}\" to settle in room \"{event.roomId}\" — it does not exist here or has already settled"
  return { tables with plans }

def projectPlanRlimitSet (tables : Tables) (event : Event) (planId : Id) (slice : Nat) :
    Except LedgerError Tables := do
  let plans ← updateIn tables.plans PlanRow.roomId planId event.roomId
    (fun row => row.status == .opened) (fun row => { row with rlimitSlice := some slice })
    s!"no open plan \"{planId}\" to set an rlimit slice on in room \"{event.roomId}\" — it does not exist here or has already settled"
  return { tables with plans }

/-! ## Draws -/

def claimFundedArm (tables : Tables) (event : Event) (arm : Arm) (sessionId : Uuid)
    (causeMessageId : Option Id) : Except LedgerError Tables :=
  match causeMessageId with
  | none => .ok tables
  | some causeMessageId => do
    let roomId ← cast (uuid event.roomId)
    let cause ← cast (uuid causeMessageId)
    match tables.fundedArms.lookup (roomId, cause) with
    | some claimed => .error (.command "invalid"
        s!"message \"{causeMessageId}\" already funded a {claimed.arm.text} into session \"{uuidText claimed.sessionId}\" — refused at the PROJECTION's funded-arm claim, which is the guard that binds a writer appending a draw without passing open_session or resume_session")
    | none =>
      return { tables with
        fundedArms := tables.fundedArms.insert (roomId, cause)
          { arm, sessionId, drawnByEventId := event.id } }

def countDraw (tables : Tables) (planId : Uuid) : Tables :=
  { tables with
    plans := Table.updateRow tables.plans planId (fun _ => true)
      fun row => { row with authorizedDraws := row.authorizedDraws + 1 } }

/-- `projectSessionOpened`. The slice is not read here again. `authority` is the `randomUUID()` that
becomes the token of a provider's session. -/
def projectSessionOpened (tables : Tables) (authority : String) (event : Event)
    (sessionId planId : Id) (harness model : String) (executionMode : ExecutionMode)
    (executionOwner : Option String) (causeMessageId : Option Id) : Except LedgerError Tables := do
  let parent ← planIn tables planId event.roomId
  match parent with
  | none => .error (.command "invalid"
      s!"no plan \"{planId}\" to open a session under in room \"{event.roomId}\" — it does not exist here")
  | some parent =>
    demand (parent.status == .opened) (.command "invalid"
      s!"plan \"{planId}\" is {parent.status.text}, not open — a session may open only under an open plan, and this plan's receipt has already closed")
    let roomId ← cast (uuid event.roomId)
    let plan ← cast (uuid planId)
    let session ← cast (uuid sessionId)
    let cause ← uuidOrNull causeMessageId
    let sessions ← insertIn tables.sessions sessionId
      { roomId
        planId := plan
        harness
        model
        openedByEventId := event.id
        executionMode
        executionOwner := if executionMode = .provider then executionOwner else none
        executionAuthority := if executionMode = .provider then some authority else none
        causeMessageId := cause }
    let tables ← claimFundedArm { tables with sessions } event .spawn session causeMessageId
    return countDraw tables plan

/-! ## Exits -/

def SessionRow.exit (eventId : Id) (outcome : Outcome) (receipt : Receipt) (row : SessionRow) :
    SessionRow :=
  { row with
    status := outcome.status
    exitSummary := receipt.exitSummary
    spendMicros := receipt.spendMicros.getD 0
    contextPct := receipt.contextPct
    artifact := receipt.artifact.map fun artifact =>
      { branch := artifact.branch, commit := artifact.commit, diff := artifact.diff,
        tests := artifact.tests }
    settledByEventId := some eventId }

def disposeWaits (tables : Tables) (roomId sessionId : Uuid) : Tables :=
  { tables with
    subscriptions := Table.updateWhere tables.subscriptions
      (fun _ row => row.roomId == roomId && row.sessionId == sessionId && row.status == .waiting)
      fun row => { row with status := .disposed } }

def projectSessionExit (tables : Tables) (event : Event) (outcome : Outcome) (sessionId : Id)
    (receipt : Receipt) : Except LedgerError Tables := do
  let sessions ← updateIn tables.sessions SessionRow.roomId sessionId event.roomId
    (fun row => row.status == .opened) (SessionRow.exit event.id outcome receipt)
    s!"no open session \"{sessionId}\" to {outcome.text} in room \"{event.roomId}\" — it does not exist here or has already exited"
  let session ← cast (uuid sessionId)
  let roomId ← cast (uuid event.roomId)
  return disposeWaits { tables with sessions } roomId session

/-! ## Signals and waits -/

/-- The slice is read again for a resume, which is a draw. -/
def requireSlice (tables : Tables) (event : Event) (sessionId : Id) (planId : Uuid) :
    Except LedgerError Unit := do
  let roomId ← cast (uuid event.roomId)
  match (tables.plans.lookup planId).filter fun row => row.roomId == roomId with
  | none => .error (.command "invalid"
      s!"no plan \"{uuidText planId}\" in room \"{event.roomId}\" to draw against — refused at the PROJECTION's slice re-check; a continuation is a draw and a draw needs a plan")
  | some funding =>
    demand (decide (funding.authorizedDraws + 1 ≤ funding.rlimitSlice.getD 0)) (.command "invalid"
      s!"resuming session \"{sessionId}\" would take draw {funding.authorizedDraws + 1} of a slice of {funding.rlimitSlice.getD 0} — refused at the PROJECTION's slice re-check, which is the guard that binds a writer appending a resume without passing resume_session")

def payOut (tables : Tables) (event : Event) (sessionId : Id) (session : Uuid)
    (subscriptionId : Option Id) : Except LedgerError Tables :=
  match subscriptionId with
  | none => .ok tables
  | some subscriptionId => do
    let subscriptions ← updateIn tables.subscriptions SubscriptionRow.roomId subscriptionId
      event.roomId (fun row => row.sessionId == session && row.status == .waiting)
      (fun row => { row with status := .matched, matchedByEventId := some event.id })
      s!"subscription \"{subscriptionId}\" is not a waiting subscription of session \"{sessionId}\" in room \"{event.roomId}\" — a continuation pays out a wait that is still waiting"
    return { tables with subscriptions }

def projectSessionSignaled (tables : Tables) (event : Event) (sessionId signalId : Id)
    (kind : SignalKind) (body : Option String)
    (causeMessageId supersedesEventId subscriptionId : Option Id) : Except LedgerError Tables := do
  let target ← sessionIn tables sessionId event.roomId
  match target with
  | none => .error (.command "invalid"
      s!"no session \"{sessionId}\" in room \"{event.roomId}\" to signal — refused at the PROJECTION; a signal names a process this room is running")
  | some target =>
    demand (target.status == .opened) (.command "invalid"
      s!"session \"{sessionId}\" is {target.status.text}, not open — refused at the PROJECTION, which is the guard that binds a writer reaching this table without passing the command")
    if kind = .resume then requireSlice tables event sessionId target.planId
    let roomId ← cast (uuid event.roomId)
    let session ← cast (uuid sessionId)
    let cause ← uuidOrNull causeMessageId
    let subscription ← uuidOrNull subscriptionId
    let raisedByUserId ← uuidOrNull (actorUserId event.actor)
    let signals ← insertIn tables.signals signalId
      { roomId
        sessionId := session
        kind
        body
        causeMessageId := cause
        supersedesEventId
        subscriptionId := subscription
        raisedByUserId
        signaledByEventId := event.id }
    if kind = .resume then
      let tables ← claimFundedArm { tables with signals } event .continue session causeMessageId
      payOut (countDraw tables target.planId) event sessionId session subscriptionId
    else return { tables with signals }

/-- `SignalTarget`: a session with its plan and the owner of the plan's agent. -/
structure SignalTarget where
  status : SessionStatus
  planId : Uuid
  harness : String
  model : String
  agentUserId : Uuid
  ownerUserId : Uuid
  slice : Option Nat
  authorizedDraws : Nat

def readSignalTarget (around : Surroundings) (tables : Tables) (roomId sessionId : Id) :
    Except LedgerError (Option SignalTarget) := do
  let found ← sessionIn tables sessionId roomId
  return found.bind fun session =>
    ((tables.plans.lookup session.planId).filter fun plan => plan.roomId == session.roomId).bind
      fun plan => (around.ownerOf plan.agentUserId).map fun ownerUserId =>
        { status := session.status, planId := session.planId, harness := session.harness,
          model := session.model, agentUserId := plan.agentUserId, ownerUserId,
          slice := plan.rlimitSlice, authorizedDraws := plan.authorizedDraws }

def projectSessionSubscribed (around : Surroundings) (tables : Tables) (event : Event)
    (sessionId subscriptionId : Id) (source matcher : String) (expiresAt : Timestamp) :
    Except LedgerError Tables := do
  let target ← readSignalTarget around tables event.roomId sessionId
  match target with
  | none => .error (.command "invalid"
      s!"no session \"{sessionId}\" in room \"{event.roomId}\" to subscribe — a wait names a process this room is running")
  | some target =>
    demand (target.status == .opened) (.command "invalid"
      s!"session \"{sessionId}\" is {target.status.text}, not open — a wait registered against a process that has already exited can never be matched, only escalated")
    demand (actorUserId event.actor == some (uuidText target.agentUserId) ||
        actorUserId event.actor == some (uuidText target.ownerUserId)) (.command "invalid"
      s!"the wait registered on session \"{sessionId}\" names a raiser who neither holds nor owns the process — refused at the PROJECTION, which is the guard that binds a writer registering a wait without passing subscribe_session")
    let roomId ← cast (uuid event.roomId)
    let session ← cast (uuid sessionId)
    let raisedByUserId ← uuidOrNull (actorUserId event.actor)
    let subscriptions ← insertIn tables.subscriptions subscriptionId
      { roomId
        sessionId := session
        source
        matcher
        expiresAt
        raisedByUserId
        subscribedByEventId := event.id }
    return { tables with subscriptions }

/-! ## Every event -/

/-- `projectRoomEvent`, for the events of this file. -/
def projectRoomEvent (around : Surroundings) (authority : String) (tables : Tables)
    (event : Event) : Except LedgerError Tables :=
  match event.payload with
  | .planOpened planId agentUserId title budgetLimitMicros causeMessageId =>
    projectPlanOpened tables event planId agentUserId title budgetLimitMicros causeMessageId
  | .planSettled planId => projectPlanSettled tables event planId
  | .sessionOpened sessionId planId harness model executionMode executionOwner causeMessageId =>
    projectSessionOpened tables authority event sessionId planId harness model executionMode
      executionOwner causeMessageId
  | .sessionExit outcome sessionId receipt =>
    projectSessionExit tables event outcome sessionId receipt
  | .planRlimitSet planId slice => projectPlanRlimitSet tables event planId slice
  -- `projectDrawRefused` writes nothing: the event is the whole receipt.
  | .drawRefused _ _ _ _ _ => .ok tables
  | .sessionSignaled sessionId signalId kind body causeMessageId supersedesEventId
      subscriptionId =>
    projectSessionSignaled tables event sessionId signalId kind body causeMessageId
      supersedesEventId subscriptionId
  | .sessionSubscribed sessionId subscriptionId source matcher expiresAt =>
    projectSessionSubscribed around tables event sessionId subscriptionId source matcher expiresAt

end Execution
