import AtriumVerified.Lib.Text
import AtriumVerified.Loop.Journal
import AtriumVerified.Loop.Protocol

/-!
# The daemon of the loop

The model of `apps/loop/src/conductor.ts` and `daemon.ts`: the route of a message, and what the
daemon sends and records for one event of its room. The server is what answers the commands: it may
refuse one, and a command may get no answer at all, which halts the daemon in the middle of its turn.
-/

namespace Loop

open Core

/-! ## The conductor -/

inductive Route where
  | openWork (ticket : String)
  | steer (sessionId : Id)
  | answer
  | ignore
  deriving DecidableEq, Repr

structure InboundMessage where
  messageId : Id
  body : String
  replyToId : Option Id
  authorUserId : Option Id
  deriving DecidableEq, Repr

/-- `TICKET.exec(body)?.[1]`: the digits behind the first `#` that has one. -/
def ticketOf : List Char → Option String
  | [] => none
  | c :: rest =>
    let digits := rest.takeWhile Js.isDigit
    if c = '#' ∧ digits ≠ [] then some (String.ofList digits) else ticketOf rest

/-- The second half of `classify`: what the body of a message is. -/
def routeOfBody (body : String) : Route :=
  match ticketOf body.toList with
  | some ticket => .openWork ticket
  | none => if (Js.trim body.toList).getLast? = some '?' then .answer else .ignore

def classify (message : InboundMessage) (ownUserId : Id)
    (runningSessionForGoal : Id → Option Id) : Route :=
  if message.authorUserId = some ownUserId then .ignore
  else match message.replyToId.bind runningSessionForGoal with
    | some sessionId => .steer sessionId
    | none => routeOfBody message.body

def answerClientMessageId (causeMessageId : Id) : String := "loop-answer:" ++ causeMessageId

def actorUserId : Actor → Option Id
  | .human userId | .agent userId => some userId
  | .model _ | .system => none

/-! ## Turns -/

/-- The options of a daemon that its commands carry, and the user it is logged in as. -/
structure LoopDaemon where
  userId : Id
  harness : Option String
  model : Option String
  deriving DecidableEq, Repr

/-- What has happened in the turn of an event so far. -/
structure Turn where
  journal : JournalState
  records : List JournalRecord
  sent : List (Command × Answer)

def Turn.begin (journal : JournalState) : Turn := ⟨journal, [], []⟩

def Turn.record (turn : Turn) (roomSeq : Nat) (outcome : Outcome) : Turn :=
  { turn with
    journal := turn.journal.reduce ⟨roomSeq, outcome⟩
    records := turn.records ++ [⟨roomSeq, outcome⟩] }

def Turn.answered (turn : Turn) (command : Command) (answer : Answer) : Turn :=
  { turn with sent := turn.sent ++ [(command, answer)] }

/-- How a turn ended: an exception halts the daemon. -/
structure Ended where
  turn : Turn
  halted : Bool

/-- What the server answers a command after the answers it gave in the turn: nothing, when the
command times out or the socket closes. -/
abbrev Server := List (Command × Answer) → Command → Option Answer

/-- `await client.command(…)`, and what is done with the answer. -/
def command (server : Server) (turn : Turn) (command : Command) (next : Answer → Turn → Turn) :
    Ended :=
  match server turn.sent command with
  | none => ⟨turn, true⟩
  | some answer => ⟨next answer (turn.answered command answer), false⟩

/-! ## Arms -/

def isFundedArmRefusal (code message : String) : Bool :=
  code == "invalid" && Js.includes message.toList "has already funded a draw".toList

def isPlanClaimedRefusal (code message : String) : Bool :=
  code == "invalid" && Js.includes message.toList "has already opened a plan".toList

def answerBody : String :=
  "The channel loop received your message. Run-zero answers are acknowledgements only " ++
    "(a model conductor is out of scope); heavy work is opened as a session from a goal that " ++
    "names a ticket."

section Arms

variable (daemon : LoopDaemon) (server : Server) (roomSeq : Nat)

/-- What `openWork` records. -/
def openWorkOutcome (cause : Id) : Answer → Outcome
  | .nack code message =>
    if isPlanClaimedRefusal code message then .planRequested cause else .ignored cause
  | .ack _ => .planRequested cause

/-- `openWork`. A surrogate pair at the end of the title that is cut in half is left out. -/
def openWork (turn : Turn) (cause : Id) (body : String) : Ended :=
  let title := String.ofList (Js.takeUnits 200 body.toList)
  command server turn (.openPlan daemon.userId title cause) fun answer turn =>
    turn.record roomSeq (openWorkOutcome cause answer)

def steer (turn : Turn) (cause sessionId : Id) (body : String) : Ended :=
  command server turn (.signalSession sessionId body cause) fun _ turn =>
    turn.record roomSeq (.steered cause sessionId)

def answer (turn : Turn) (cause : Id) : Ended :=
  let clientMessageId := answerClientMessageId cause
  command server turn (.sendMessage answerBody clientMessageId cause) fun _ turn =>
    turn.record roomSeq (.answered cause clientMessageId)

/-- What `takeDraw` records. -/
def drawOutcome (cause planId : Id) (retry : Bool) : Answer → Outcome
  | .nack code message =>
    if isFundedArmRefusal code message then
      .fundedTerminal cause planId (if retry then some true else none)
    else .drawRefused cause planId (if retry then some true else none)
  | .ack (some (.refused _ _)) => .drawRefused cause planId (if retry then some true else none)
  | .ack _ => .drawTaken cause planId retry

def takeDraw (turn : Turn) (cause planId : Id) (retry : Bool) : Ended :=
  let harness := daemon.harness.getD "atrium-loop"
  let model := daemon.model.getD "run-zero"
  command server turn (.openSession planId harness model cause) fun answer turn =>
    turn.record roomSeq (drawOutcome cause planId retry answer)

/-- The plan has sessions, and all of them are terminal. -/
def settleable (plan : PlanState) : Bool :=
  !plan.settled && !plan.sessions.isEmpty &&
    plan.sessions.all fun sessionId => plan.terminal.contains sessionId

def maybeSettlePlan (turn : Turn) (planId : Id) : Ended :=
  match turn.journal.plans.get planId with
  | none => ⟨turn, false⟩
  | some plan =>
    if settleable plan then
      command server turn (.settlePlan planId) fun _ turn =>
        turn.record roomSeq (.planSettled planId)
    else ⟨turn, false⟩

end Arms

/-! ## Events -/

def runningSessionForGoal (journal : JournalState) (goalMessageId : Id) : Option Id :=
  match journal.causes.get goalMessageId with
  | none => none
  | some cause =>
    if cause.routeClass ≠ .draw ∨ isCauseSettled cause = false then none
    else match (cause.planId.filter fun planId => planId ≠ "").bind journal.plans.get with
      | none => none
      | some plan => plan.sessions.find? fun sessionId => !plan.terminal.contains sessionId

section Events

variable (daemon : LoopDaemon) (server : Server) (entry : WireEvent)

def advance (turn : Turn) : Ended := ⟨turn.record entry.roomSeq .advance, false⟩

/-- The event is one the daemon's own user made, for a cause. -/
def ownCause (cause : Option Id) : Option Id :=
  if actorUserId entry.actor = some daemon.userId then cause.filter fun id => id ≠ "" else none

def onMessage (turn : Turn) (cause : Id) (body : String) (replyToId : Option Id) : Ended :=
  if (turn.journal.causes.get cause).isSome then advance entry turn
  else
    let message : InboundMessage := ⟨cause, body, replyToId, actorUserId entry.actor⟩
    match classify message daemon.userId (runningSessionForGoal turn.journal) with
    | .openWork _ => openWork daemon server entry.roomSeq turn cause body
    | .steer sessionId => steer server entry.roomSeq turn cause sessionId body
    | .answer => answer server entry.roomSeq turn cause
    | .ignore => ⟨turn.record entry.roomSeq (.ignored cause), false⟩

def onPlanOpened (turn : Turn) (planId agentUserId : Id) (causeMessageId : Option Id) : Ended :=
  match ownCause daemon entry causeMessageId with
  | none => advance entry turn
  | some cause =>
    let step := (turn.journal.causes.get cause).map CauseState.step
    if agentUserId = daemon.userId ∧ step = some .planRequested then
      takeDraw daemon server entry.roomSeq turn cause planId false
    else advance entry turn

def onSessionOpened (turn : Turn) (sessionId planId : Id) (causeMessageId : Option Id) : Ended :=
  match ownCause daemon entry causeMessageId with
  | none => advance entry turn
  | some cause =>
    if (turn.journal.causes.get cause).isNone ∨ (turn.journal.sessions.get sessionId).isSome then
      advance entry turn
    else ⟨turn.record entry.roomSeq (.sessionOpened cause sessionId planId), false⟩

def onSessionTerminal (turn : Turn) (sessionId : Id) : Ended :=
  match (turn.journal.sessions.get sessionId).filter fun planId => planId ≠ "" with
  | none => advance entry turn
  | some planId =>
    let terminal := ((turn.journal.plans.get planId).map PlanState.terminal).getD []
    if sessionId ∈ terminal then advance entry turn
    else maybeSettlePlan server entry.roomSeq
      (turn.record entry.roomSeq (.sessionTerminal sessionId planId)) planId

/-- A draw that the funding of a plan takes up again. -/
def reroutable (journal : JournalState) (planId cause : Id) : Bool :=
  match journal.causes.get cause with
  | none => false
  | some state =>
    state.routeClass == .draw && state.step == .drawRefused && state.planId == some planId &&
      !state.retried

/-- The loop of `onFunding` over the causes. -/
def reroute (planId : Id) : List Id → Turn → Ended
  | [], turn => ⟨turn, false⟩
  | cause :: rest, turn =>
    if reroutable turn.journal planId cause then
      let ended := takeDraw daemon server entry.roomSeq turn cause planId true
      if ended.halted then ended else reroute planId rest ended.turn
    else reroute planId rest turn

def onFunding (turn : Turn) (planId : Id) : Ended :=
  let ended := reroute daemon server entry planId turn.journal.causes.keys turn
  if ended.halted then ended else advance entry ended.turn

/-- The types of events that are parsed once more before they are handled. -/
def handledTypes : List String :=
  ["message_posted", "plan_opened", "session_opened", "session_settled", "session_failed",
    "plan_rlimit_set"]

/-- `handleEvent`: an event of a handled type whose fields were not read raises. -/
def handleEvent (journal : JournalState) : Ended :=
  let turn := Turn.begin journal
  match entry.event.body with
  | .messagePosted messageId body replyToId _ _ =>
    onMessage daemon server entry turn messageId body replyToId
  | .planOpened planId agentUserId _ causeMessageId =>
    onPlanOpened daemon server entry turn planId agentUserId causeMessageId
  | .sessionOpened sessionId planId causeMessageId =>
    onSessionOpened daemon entry turn sessionId planId causeMessageId
  | .sessionSettled sessionId | .sessionFailed sessionId =>
    onSessionTerminal server entry turn sessionId
  | .planRlimitSet planId _ => onFunding daemon server entry turn planId
  | .planSettled _ | .drawRefused _ _ _ | .sessionSignaled _ _ _ _ => advance entry turn
  | .other type => if type ∈ handledTypes then ⟨turn, true⟩ else advance entry turn

end Events

end Loop
