import AtriumVerified.Execution.Accounts

/-!
# The execution coordinator

The model of `runGranted` of `apps/server/src/execution/coordinator.ts`, of the claim of
`apps/server/src/execution/configure.ts`, and of the transactions in between. A call claims its
session, resolves a workspace, runs the provider, and settles the session; where that settle throws,
it settles it as failed. A transaction can commit and still throw: its reply may be lost, or what
follows its commit may fail.
-/

namespace Execution

open Core Postgres Server

/-! ## Reports -/

structure Terminal where
  ok : Bool
  exitCode : Option Int
  detail : Option String

/-- `ExecutionReport`. The summary of its receipt is never `null`. -/
structure ExecutionReport where
  terminal : Terminal
  receipt : Receipt

/-- `z.number().int()`. -/
def readInt : Js.Json → Option Int
  | .number value =>
    let n := value.mantissa / 10 ^ value.exponent
    if value.mantissa % 10 ^ value.exponent = 0 ∧ -(2 ^ 53) < n ∧ n < 2 ^ 53 then some n else none
  | _ => none

/-- `z.number().int().nonnegative()`. -/
def readMicros (json : Js.Json) : Option Nat :=
  (readInt json).bind fun n => if 0 ≤ n then some n.toNat else none

/-- `z.number().min(0).max(1)`. -/
def readContextPct : Js.Json → Option ContextPct
  | .number value =>
    if h : Js.Number.le (Js.Number.ofInt 0) value = true ∧
        Js.Number.le value (Js.Number.ofInt 1) = true then
      some ⟨value, h.1, h.2⟩
    else none
  | _ => none

/-- `z.string().max(4000)`. -/
def readSummary : Js.Json → Option String
  | .string text => if (Schema.maxLength 4000 text).isNone then some text else none
  | _ => none

/-- `.nullable()`. -/
def readNullable {α : Type} (read : Js.Json → Option α) : Js.Json → Option (Option α)
  | .null => some none
  | json => (read json).map some

def readBool : Js.Json → Option Bool
  | .bool value => some value
  | _ => none

def readOptionalText : Option Js.Json → Option (Option String)
  | none => some none
  | some (.string text) => some (some text)
  | some _ => none

def readObject : Js.Json → Option (List (String × Js.Json))
  | .object fields => some fields
  | _ => none

section Reports

variable (readArtifact : Js.Json → Option ExecutionArtifact)

/-- `ReportSchema.terminal`. -/
def readTerminal (json : Js.Json) : Option Terminal := do
  let fields ← readObject json
  let ok ← (Js.lookupField fields "ok").bind readBool
  let exitCode ← (Js.lookupField fields "exitCode").bind (readNullable readInt)
  let detail ← readOptionalText (Js.lookupField fields "detail")
  return { ok, exitCode, detail }

/-- `ReportSchema.receipt`. -/
def readReceipt (json : Js.Json) : Option Receipt := do
  let fields ← readObject json
  let exitSummary ← (Js.lookupField fields "exitSummary").bind readSummary
  let spendMicros ← (Js.lookupField fields "spendMicros").bind (readNullable readMicros)
  let contextPct ← (Js.lookupField fields "contextPct").bind (readNullable readContextPct)
  let artifact ← (Js.lookupField fields "artifact").bind (readNullable readArtifact)
  return { exitSummary := some exitSummary, spendMicros, contextPct, artifact }

/-- `ReportSchema.parse` of what the provider returns, where `none` is `undefined`: a report, or it
throws. -/
def parseReport (value : Option Js.Json) : Option ExecutionReport := do
  let fields ← value.bind readObject
  let terminal ← (Js.lookupField fields "terminal").bind readTerminal
  let receipt ← (Js.lookupField fields "receipt").bind (readReceipt readArtifact)
  return { terminal, receipt }

def erroredReport (providerKind : String) : ExecutionReport where
  terminal := { ok := false, exitCode := none, detail := some "provider error" }
  receipt := {
    exitSummary := some s!"execution provider ({providerKind}) errored"
    spendMicros := none
    contextPct := none
    artifact := none }

/-- The report of a run: `none` is a provider that throws. -/
def reportOf (providerKind : String) (result : Option (Option Js.Json)) : ExecutionReport :=
  (result.bind (parseReport readArtifact)).getD (erroredReport providerKind)

end Reports

/-- `report.terminal.ok ? 'settled' : 'failed'`. -/
def ExecutionReport.outcome (report : ExecutionReport) : Outcome :=
  if report.terminal.ok then .settled else .failed

/-! ## The claim -/

structure GrantedSession where
  sessionId : Id
  roomId : Id
  planId : Id
  harness : String
  model : String

structure ClaimedSession where
  planId : Uuid
  harness : String
  model : String
  authority : String

def isClaimable (instanceId : String) (row : SessionRow) : Bool :=
  row.status == .opened && row.executionMode == .provider && row.executionOwner == some instanceId &&
    row.executionClaimedAt.isNone

def claim (tables : Tables) (instanceId : String) (now : Int) (sessionId roomId : Id) :
    Except LedgerError (Tables × Option ClaimedSession) := do
  let found ← sessionIn tables sessionId roomId
  let key ← cast (uuid sessionId)
  match found.filter (isClaimable instanceId) with
  | none => return (tables, none)
  | some row =>
    return ({ tables with
        sessions := tables.sessions.insert key { row with executionClaimedAt := some now } },
      row.executionAuthority.map fun authority =>
        { planId := row.planId, harness := row.harness, model := row.model, authority })

/-! ## Calls -/

/-- What `runGranted` is called with, and the instance it runs on. -/
structure Job where
  caller : Caller
  instanceId : String
  granted : GrantedSession

/-- `ExecutionOutcome` of a granted session. -/
structure ExecutionOutcome where
  kind : Outcome
  sessionId : Id
  artifact : Option ExecutionArtifact

/-- Where a call of `runGranted` is. -/
inductive Phase where
  | idle
  /-- Before the claim. -/
  | claiming (job : Job)
  /-- Before `provider.resolve` returns. -/
  | resolving (job : Job) (claimed : ClaimedSession)
  /-- `provider.run` was invoked and has not returned. -/
  | running (job : Job) (claimed : ClaimedSession)
  /-- Before the settle of the report. -/
  | settling (job : Job) (authority : String) (report : ExecutionReport)
  /-- That settle threw; before the settle that says so. -/
  | retrying (job : Job) (authority : String) (report : ExecutionReport) (message : String)
  | returned (job : Job) (outcome : ExecutionOutcome)

inductive Fate where
  /-- It is answered. -/
  | answered
  /-- It throws after its commit. -/
  | unheard
  /-- It throws without a commit. -/
  | undone
  deriving DecidableEq, Repr

/-- What a settle draws from outside. `message` is that of an error which is not a refusal. -/
structure Circumstances where
  around : Surroundings
  draw : Draw
  fate : Fate
  message : String

/-- An event of the ledger, and the call that appended it. -/
structure Entry (ι : Type) where
  event : Event
  author : Option ι

/-- The tables, the ledger, the calls, and what is recorded of them to be spoken about: which call
was given which session, and for which session a call invoked `provider.run`. -/
structure World (ι : Type) where
  tables : Tables
  ledger : List (Entry ι)
  calls : ι → Phase
  claims : List (ι × Id)
  ran : List (ι × Id)

def emptyWorld {ι : Type} : World ι := ⟨emptyTables, [], fun _ => .idle, [], []⟩

def World.books {ι : Type} (w : World ι) : Books := ⟨w.tables, w.ledger.map Entry.event⟩

def thrownMessage (message : String) : LedgerError → String
  | .command _ refusal => refusal
  | _ => message

/-- `receipt` of the settle that follows one that threw. -/
def fallbackReceipt (outcome : Outcome) (message : String) : Receipt where
  exitSummary := some (s!"execution completed ({outcome.text}) but the settle failed: " ++
    String.ofList (Js.takeUnits 500 message.toList))
  spendMicros := none
  contextPct := none
  artifact := none

def settleCommand (job : Job) (authority : String) (outcome : Outcome) (receipt : Receipt) :
    SettleSession where
  roomId := job.granted.roomId
  sessionId := job.granted.sessionId
  outcome
  receipt
  authority := some authority

section Calls

variable {ι : Type} [DecidableEq ι] (check : ArtifactCheck)
  (readArtifact : Js.Json → Option ExecutionArtifact) (providerKind : String)

def World.moves (w : World ι) (i : ι) (phase : Phase) : World ι :=
  { w with calls := fun j => if j = i then phase else w.calls j }

/-- The transaction of a settle, in these tables. -/
def World.settles (w : World ι) (job : Job) (c : Circumstances) (command : SettleSession) :
    Except LedgerError (Tables × Event) :=
  settleSession c.around w.tables job.caller c.draw check (openerOf w.books.events) command

/-- `settleOrThrow`: the world afterwards, and the message of what it throws. -/
def World.settleOrThrow (w : World ι) (i : ι) (job : Job) (c : Circumstances)
    (command : SettleSession) : World ι × Option String :=
  if c.fate = .undone then (w, some c.message)
  else
    match w.settles check job c command with
    | .error error => (w, some (thrownMessage c.message error))
    | .ok (tables, event) =>
      ({ w with tables, ledger := w.ledger ++ [⟨event, some i⟩] },
        if c.fate = .answered then none else some c.message)

/-- What a call returns that settled its session as `terminal`. -/
def outcomeOf (job : Job) (report : ExecutionReport) (terminal : Outcome) : ExecutionOutcome where
  kind := terminal
  sessionId := job.granted.sessionId
  artifact := if terminal = report.outcome then report.receipt.artifact else none

def notRun (job : Job) : ExecutionOutcome := ⟨.failed, job.granted.sessionId, none⟩

inductive Happening (ι : Type) where
  /-- `runGranted` is called. -/
  | call (i : ι) (job : Job)
  | claim (i : ι) (now : Int) (fate : Fate)
  /-- `provider.resolve` returns or throws. -/
  | resolve (i : ι) (ok : Bool)
  /-- `provider.run` returns a value, or throws. -/
  | finish (i : ι) (result : Option (Option Js.Json))
  | settle (i : ι) (c : Circumstances)
  | retry (i : ι) (c : Circumstances)
  /-- A command of anybody else. -/
  | elsewhere (attempt : Attempt)

def World.claim (w : World ι) (i : ι) (job : Job) (now : Int) (fate : Fate) : World ι :=
  match Execution.claim w.tables job.instanceId now job.granted.sessionId job.granted.roomId with
  | .error _ => w.moves i (.returned job (notRun job))
  | .ok (tables, claimed) =>
    match fate, claimed with
    | .undone, _ => w.moves i (.returned job (notRun job))
    | .unheard, _ => { w with tables }.moves i (.returned job (notRun job))
    | .answered, none => { w with tables }.moves i (.returned job (notRun job))
    | .answered, some claimed =>
      { w with tables, claims := w.claims ++ [(i, job.granted.sessionId)] }.moves i
        (.resolving job claimed)

/-- The world after something happens, which may be impossible. -/
def World.step (w : World ι) : Happening ι → Option (World ι)
  | .call i job =>
    match w.calls i with
    | .idle => some (w.moves i (.claiming job))
    | _ => none
  | .claim i now fate =>
    match w.calls i with
    | .claiming job => some (w.claim i job now fate)
    | _ => none
  | .resolve i ok =>
    match w.calls i with
    | .resolving job claimed =>
      some (if ok then
          { w with ran := w.ran ++ [(i, job.granted.sessionId)] }.moves i (.running job claimed)
        else w.moves i (.settling job claimed.authority (erroredReport providerKind)))
    | _ => none
  | .finish i result =>
    match w.calls i with
    | .running job claimed =>
      some (w.moves i
        (.settling job claimed.authority (reportOf readArtifact providerKind result)))
    | _ => none
  | .settle i c =>
    match w.calls i with
    | .settling job authority report =>
      match w.settleOrThrow check i job c
          (settleCommand job authority report.outcome report.receipt) with
      | (after, none) => some (after.moves i (.returned job (outcomeOf job report report.outcome)))
      | (after, some message) => some (after.moves i (.retrying job authority report message))
    | _ => none
  | .retry i c =>
    match w.calls i with
    | .retrying job authority report message =>
      some ((w.settleOrThrow check i job c (settleCommand job authority .failed
        (fallbackReceipt report.outcome message))).1.moves i
          (.returned job (outcomeOf job report .failed)))
    | _ => none
  | .elsewhere attempt =>
    let after := w.books.attempt check attempt
    some { w with
      tables := after.tables
      ledger := w.ledger ++ (after.events.drop w.ledger.length).map fun event => ⟨event, none⟩ }

end Calls

/-! ## What is promised -/

section Promise

variable {ι : Type} [DecidableEq ι]

def World.Wrote (w : World ι) (i : ι) (outcome : Outcome) (artifact : Option ExecutionArtifact) :
    Prop :=
  ∃ entry ∈ w.ledger, entry.author = some i ∧ ∃ sessionId receipt,
    entry.event.payload = .sessionExit outcome sessionId receipt ∧ receipt.artifact = artifact

/-- The provider runs at most once for a session, a session has at most one exit, and a call returns
the exit that it wrote. -/
structure World.Truthful (w : World ι) : Prop where
  runs : ∀ session, (w.ran.filter fun entry => uuid entry.2 = some session).length ≤ 1
  exits : ∀ session, (w.ledger.filter fun entry => entry.event.exited = some session).length ≤ 1
  reported : ∀ i job outcome, w.calls i = .returned job outcome → ∀ kind artifact,
    w.Wrote i kind artifact → outcome.kind = kind ∧ outcome.artifact = artifact

/-- No settle goes wrong: one of a clean run that commits is also heard of; the verifier does not
reject the artifact of a failed run that is recorded; and a failed run whose first settle has not
committed has no artifact for the second to drop. -/
def World.Heard (check : ArtifactCheck) (w : World ι) : Happening ι → Prop
  | .settle i c => ∀ job authority report, w.calls i = .settling job authority report →
      c.fate ≠ .undone →
      (w.settles check job c
        (settleCommand job authority report.outcome report.receipt)).toOption.isSome →
      if report.terminal.ok then c.fate = .answered
      else report.receipt.artifact.isSome → c.draw.verified = true
  | .retry i c => ∀ job authority report message, w.calls i = .retrying job authority report message →
      c.fate ≠ .undone →
      (w.settles check job c (settleCommand job authority .failed
        (fallbackReceipt report.outcome message))).toOption.isSome →
      report.terminal.ok = true ∨ report.receipt.artifact = none
  | _ => True

def World.Finished (w : World ι) : Prop :=
  ∀ i job authority report message, w.calls i ≠ .retrying job authority report message

end Promise

end Execution
