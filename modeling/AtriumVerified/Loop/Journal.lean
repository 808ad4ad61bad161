import AtriumVerified.Core.Common
import AtriumVerified.Lib.Codec
import AtriumVerified.Lib.InsertionMap

/-!
# The outcome journal of the loop

The model of `apps/loop/src/journal.ts`: the outcomes the loop records, the state they are reduced to,
the file that holds the records as lines of JSON, and its compaction. Between two operations on files
the process may crash; the files stay as they are then.
-/

namespace Loop

open Core

/-! ## Outcomes -/

inductive RouteClass where
  | draw
  | steer
  | answer
  | ignore
  deriving DecidableEq, Repr

inductive OutcomeKind where
  | planRequested
  | drawTaken
  | drawRefused
  | fundedTerminal
  | sessionOpened
  | steered
  | answered
  | ignored
  | sessionTerminal
  | planSettled
  | advance
  | snapshot
  deriving DecidableEq, Repr

structure CauseState where
  routeClass : RouteClass
  step : OutcomeKind
  planId : Option Id
  sessionId : Option Id
  clientMessageId : Option String
  /-- Whether a refused draw has spent its retry. -/
  retried : Bool
  deriving DecidableEq, Repr

/-- `PlanState`. The sets are in the order in which their elements came in. -/
structure PlanState where
  cause : Id
  sessions : List Id
  terminal : List Id
  settled : Bool
  deriving DecidableEq, Repr

structure SnapshotState where
  cursor : Nat
  causes : List (Id × CauseState)
  plans : List (Id × PlanState)
  sessions : List (Id × Id)
  deriving DecidableEq, Repr

inductive Outcome where
  | planRequested (cause : Id)
  | drawTaken (cause planId : Id) (retry : Bool)
  | drawRefused (cause planId : Id) (retry : Option Bool)
  | fundedTerminal (cause planId : Id) (retry : Option Bool)
  | sessionOpened (cause sessionId planId : Id)
  | steered (cause sessionId : Id)
  | answered (cause : Id) (clientMessageId : String)
  | ignored (cause : Id)
  | sessionTerminal (sessionId planId : Id)
  | planSettled (planId : Id)
  | advance
  | snapshot (state : SnapshotState)
  deriving DecidableEq, Repr

structure JournalRecord where
  roomSeq : Nat
  outcome : Outcome
  deriving DecidableEq, Repr

/-- `isCauseSettled`, with `TERMINAL_STEPS`. -/
def isCauseSettled (state : CauseState) : Bool :=
  match state.step with
  | .drawTaken | .fundedTerminal | .drawRefused | .steered | .answered | .ignored => true
  | _ => false

/-! ## The reduced state -/

structure JournalState where
  cursor : Nat
  causes : Js.Map Id CauseState
  plans : Js.Map Id PlanState
  sessions : Js.Map Id Id

namespace JournalState

def initial : JournalState := ⟨0, Js.Map.empty, Js.Map.empty, Js.Map.empty⟩

/-- `set.add(…)`. -/
def addTo (set : List Id) (element : Id) : List Id :=
  if element ∈ set then set else set ++ [element]

/-- `new Map(entries)`. -/
def mapOf {α : Type} (entries : List (Id × α)) : Js.Map Id α :=
  entries.foldl (fun held entry => held.set entry.1 entry.2) Js.Map.empty

/-- `new Set(elements)`. -/
def setOf (elements : List Id) : List Id := elements.foldl addTo []

def serialize (state : JournalState) : SnapshotState where
  cursor := state.cursor
  causes := state.causes.entries
  plans := state.plans.entries
  sessions := state.sessions.entries

def loadSnapshot (state : SnapshotState) : JournalState where
  cursor := state.cursor
  causes := mapOf state.causes
  plans := mapOf (state.plans.map fun (planId, plan) =>
    (planId, { plan with sessions := setOf plan.sessions, terminal := setOf plan.terminal }))
  sessions := mapOf state.sessions

/-- `upsertCause`: a field that is not given keeps its value. -/
def upsertCause (state : JournalState) (cause : Id) (routeClass : RouteClass) (step : OutcomeKind)
    (planId sessionId : Option Id) (clientMessageId : Option String) (retried : Option Bool) :
    JournalState :=
  let existing := state.causes.get cause
  { state with causes := state.causes.set cause {
      routeClass, step
      planId := planId.or (existing.bind CauseState.planId)
      sessionId := sessionId.or (existing.bind CauseState.sessionId)
      clientMessageId := clientMessageId.or (existing.bind CauseState.clientMessageId)
      retried := (retried.or (existing.map CauseState.retried)).getD false } }

/-- `ensurePlan`. The empty string stands for no cause. -/
def ensurePlan (state : JournalState) (planId : Id) (cause : Option Id) : JournalState :=
  match state.plans.get planId with
  | none => { state with plans := state.plans.set planId ⟨cause.getD "", [], [], false⟩ }
  | some plan =>
    if cause.getD "" ≠ "" ∧ plan.cause = "" then
      { state with plans := state.plans.set planId { plan with cause := cause.getD "" } }
    else state

/-- Change the plan that `ensurePlan` has returned. -/
def modifyPlan (state : JournalState) (planId : Id) (change : PlanState → PlanState) :
    JournalState :=
  match state.plans.get planId with
  | none => state
  | some plan => { state with plans := state.plans.set planId (change plan) }

/-- What a draw is recorded as: `draw_taken`, `draw_refused` or `funded_terminal`. -/
def recordDraw (state : JournalState) (step : OutcomeKind) (cause planId : Id)
    (retry : Option Bool) : JournalState :=
  let retried := if retry = some true then some true else none
  (state.upsertCause cause .draw step (some planId) none none retried).ensurePlan planId (some cause)

/-- The switch of `reduce`. -/
def apply (state : JournalState) : Outcome → JournalState
  | .snapshot held => loadSnapshot held
  | .planRequested cause => state.upsertCause cause .draw .planRequested none none none none
  | .drawTaken cause planId retry => state.recordDraw .drawTaken cause planId (some retry)
  | .drawRefused cause planId retry => state.recordDraw .drawRefused cause planId retry
  | .fundedTerminal cause planId retry => state.recordDraw .fundedTerminal cause planId retry
  | .sessionOpened cause sessionId planId =>
    let state := (state.upsertCause cause .draw .drawTaken (some planId) none none none).ensurePlan
      planId (some cause)
    let state := state.modifyPlan planId fun plan =>
      { plan with sessions := addTo plan.sessions sessionId }
    { state with sessions := state.sessions.set sessionId planId }
  | .steered cause sessionId => state.upsertCause cause .steer .steered none (some sessionId) none none
  | .answered cause clientMessageId =>
    state.upsertCause cause .answer .answered none none (some clientMessageId) none
  | .ignored cause => state.upsertCause cause .ignore .ignored none none none none
  | .sessionTerminal sessionId planId =>
    let state := (state.ensurePlan planId none).modifyPlan planId fun plan =>
      { plan with terminal := addTo plan.terminal sessionId }
    { state with sessions := state.sessions.set sessionId planId }
  | .planSettled planId =>
    (state.ensurePlan planId none).modifyPlan planId fun plan => { plan with settled := true }
  | .advance => state

def reduce (state : JournalState) (record : JournalRecord) : JournalState :=
  { state with cursor := max state.cursor record.roomSeq }.apply record.outcome

end JournalState

/-! ## The schema of the lines -/

section Schema

open Js

/-- The names of `RouteClass`. -/
def RouteClass.name : RouteClass → String
  | .draw => "draw"
  | .steer => "steer"
  | .answer => "answer"
  | .ignore => "ignore"

/-- `OUTCOME_KINDS`. -/
def OutcomeKind.name : OutcomeKind → String
  | .planRequested => "plan_requested"
  | .drawTaken => "draw_taken"
  | .drawRefused => "draw_refused"
  | .fundedTerminal => "funded_terminal"
  | .sessionOpened => "session_opened"
  | .steered => "steered"
  | .answered => "answered"
  | .ignored => "ignored"
  | .sessionTerminal => "session_terminal"
  | .planSettled => "plan_settled"
  | .advance => "advance"
  | .snapshot => "snapshot"

def routeClassCodec : Codec RouteClass :=
  .enum [.draw, .steer, .answer, .ignore] RouteClass.name (by intro a; cases a <;> rfl)

/-- `OutcomeKindEnum`. -/
def outcomeKindCodec : Codec OutcomeKind :=
  .enum [.planRequested, .drawTaken, .drawRefused, .fundedTerminal, .sessionOpened, .steered,
    .answered, .ignored, .sessionTerminal, .planSettled, .advance, .snapshot] OutcomeKind.name
    (by intro a; cases a <;> rfl)

/-- The fields of a cause. A field that is `undefined` is not written. -/
def CauseState.fields (state : CauseState) : List (String × Json) :=
  [("class", routeClassCodec.write state.routeClass), ("step", outcomeKindCodec.write state.step)] ++
    Codec.string.written "planId" state.planId ++
    Codec.string.written "sessionId" state.sessionId ++
    Codec.string.written "clientMessageId" state.clientMessageId ++
    [("retried", Codec.boolean.write state.retried)]

def CauseState.ofFields (fields : List (String × Json)) : Option CauseState := do
  return {
    routeClass := ← routeClassCodec.required fields "class"
    step := ← outcomeKindCodec.required fields "step"
    planId := ← Codec.string.optional fields "planId"
    sessionId := ← Codec.string.optional fields "sessionId"
    clientMessageId := ← Codec.string.optional fields "clientMessageId"
    retried := ← Codec.boolean.required fields "retried" }

theorem CauseState.ofFields_fields (state : CauseState) : ofFields state.fields = some state := by
  obtain ⟨routeClass, step, planId, sessionId, clientMessageId, retried⟩ := state
  have hclass : lookupField (fields ⟨routeClass, step, planId, sessionId, clientMessageId, retried⟩)
      "class" = some (routeClassCodec.write routeClass) := by
    cases planId <;> cases sessionId <;> cases clientMessageId <;> rfl
  have hstep : lookupField (fields ⟨routeClass, step, planId, sessionId, clientMessageId, retried⟩)
      "step" = some (outcomeKindCodec.write step) := by
    cases planId <;> cases sessionId <;> cases clientMessageId <;> rfl
  have hplan : lookupField (fields ⟨routeClass, step, planId, sessionId, clientMessageId, retried⟩)
      "planId" = planId.map Codec.string.write := by
    cases planId <;> cases sessionId <;> cases clientMessageId <;> rfl
  have hsession : lookupField (fields ⟨routeClass, step, planId, sessionId, clientMessageId, retried⟩)
      "sessionId" = sessionId.map Codec.string.write := by
    cases planId <;> cases sessionId <;> cases clientMessageId <;> rfl
  have hmessage : lookupField (fields ⟨routeClass, step, planId, sessionId, clientMessageId, retried⟩)
      "clientMessageId" = clientMessageId.map Codec.string.write := by
    cases planId <;> cases sessionId <;> cases clientMessageId <;> rfl
  have hretried : lookupField (fields ⟨routeClass, step, planId, sessionId, clientMessageId, retried⟩)
      "retried" = some (Codec.boolean.write retried) := by
    cases planId <;> cases sessionId <;> cases clientMessageId <;> rfl
  unfold ofFields
  rw [routeClassCodec.required_eq hclass trivial, outcomeKindCodec.required_eq hstep trivial,
    Codec.string.optional_eq hplan fun _ _ => trivial,
    Codec.string.optional_eq hsession fun _ _ => trivial,
    Codec.string.optional_eq hmessage fun _ _ => trivial,
    Codec.boolean.required_eq hretried trivial]
  rfl

/-- `SerializedCauseState`. -/
def causeCodec : Codec CauseState :=
  .object CauseState.fields CauseState.ofFields (fun _ => True) fun state _ =>
    state.ofFields_fields

def PlanState.fields (plan : PlanState) : List (String × Json) :=
  [("cause", Codec.string.write plan.cause), ("sessions", Codec.string.array.write plan.sessions),
    ("terminal", Codec.string.array.write plan.terminal),
    ("settled", Codec.boolean.write plan.settled)]

def PlanState.ofFields (fields : List (String × Json)) : Option PlanState := do
  return {
    cause := ← Codec.string.required fields "cause"
    sessions := ← Codec.string.array.required fields "sessions"
    terminal := ← Codec.string.array.required fields "terminal"
    settled := ← Codec.boolean.required fields "settled" }

theorem PlanState.ofFields_fields (plan : PlanState) : ofFields plan.fields = some plan := by
  have hcause : lookupField plan.fields "cause" = some (Codec.string.write plan.cause) := rfl
  have hsessions : lookupField plan.fields "sessions" =
    some (Codec.string.array.write plan.sessions) := rfl
  have hterminal : lookupField plan.fields "terminal" =
    some (Codec.string.array.write plan.terminal) := rfl
  have hsettled : lookupField plan.fields "settled" = some (Codec.boolean.write plan.settled) := rfl
  unfold ofFields
  rw [Codec.string.required_eq hcause trivial,
    Codec.string.array.required_eq hsessions fun _ _ => trivial,
    Codec.string.array.required_eq hterminal fun _ _ => trivial,
    Codec.boolean.required_eq hsettled trivial]
  rfl

/-- `SerializedPlanState`. -/
def planCodec : Codec PlanState :=
  .object PlanState.fields PlanState.ofFields (fun _ => True) fun plan _ => plan.ofFields_fields

def SnapshotState.fields (state : SnapshotState) : List (String × Json) :=
  [("cursor", Codec.nat.write state.cursor),
    ("causes", (Codec.string.pair causeCodec).array.write state.causes),
    ("plans", (Codec.string.pair planCodec).array.write state.plans),
    ("sessions", (Codec.string.pair Codec.string).array.write state.sessions)]

def SnapshotState.ofFields (fields : List (String × Json)) : Option SnapshotState := do
  return {
    cursor := ← Codec.nat.required fields "cursor"
    causes := ← (Codec.string.pair causeCodec).array.required fields "causes"
    plans := ← (Codec.string.pair planCodec).array.required fields "plans"
    sessions := ← (Codec.string.pair Codec.string).array.required fields "sessions" }

theorem SnapshotState.ofFields_fields (state : SnapshotState)
    (hcursor : state.cursor ≤ maxSafeInteger) : ofFields state.fields = some state := by
  have hfirst : lookupField state.fields "cursor" = some (Codec.nat.write state.cursor) := rfl
  have hcauses : lookupField state.fields "causes" =
    some ((Codec.string.pair causeCodec).array.write state.causes) := rfl
  have hplans : lookupField state.fields "plans" =
    some ((Codec.string.pair planCodec).array.write state.plans) := rfl
  have hsessions : lookupField state.fields "sessions" =
    some ((Codec.string.pair Codec.string).array.write state.sessions) := rfl
  unfold ofFields
  rw [Codec.nat.required_eq hfirst hcursor,
    Codec.required_eq _ hcauses fun _ _ => ⟨trivial, trivial⟩,
    Codec.required_eq _ hplans fun _ _ => ⟨trivial, trivial⟩,
    Codec.required_eq _ hsessions fun _ _ => ⟨trivial, trivial⟩]
  rfl

/-- `SnapshotState`, as a schema. -/
def snapshotCodec : Codec SnapshotState :=
  .object SnapshotState.fields SnapshotState.ofFields (fun state => state.cursor ≤ maxSafeInteger)
    fun state => state.ofFields_fields

def Outcome.kind : Outcome → OutcomeKind
  | .planRequested _ => .planRequested
  | .drawTaken _ _ _ => .drawTaken
  | .drawRefused _ _ _ => .drawRefused
  | .fundedTerminal _ _ _ => .fundedTerminal
  | .sessionOpened _ _ _ => .sessionOpened
  | .steered _ _ => .steered
  | .answered _ _ => .answered
  | .ignored _ => .ignored
  | .sessionTerminal _ _ => .sessionTerminal
  | .planSettled _ => .planSettled
  | .advance => .advance
  | .snapshot _ => .snapshot

def Outcome.rest : Outcome → List (String × Json)
  | .planRequested cause | .ignored cause => [("cause", Codec.string.write cause)]
  | .drawTaken cause planId retry =>
    [("cause", Codec.string.write cause), ("planId", Codec.string.write planId),
      ("retry", Codec.boolean.write retry)]
  | .drawRefused cause planId retry | .fundedTerminal cause planId retry =>
    [("cause", Codec.string.write cause), ("planId", Codec.string.write planId)] ++
      Codec.boolean.written "retry" retry
  | .sessionOpened cause sessionId planId =>
    [("cause", Codec.string.write cause), ("sessionId", Codec.string.write sessionId),
      ("planId", Codec.string.write planId)]
  | .steered cause sessionId =>
    [("cause", Codec.string.write cause), ("sessionId", Codec.string.write sessionId)]
  | .answered cause clientMessageId =>
    [("cause", Codec.string.write cause), ("clientMessageId", Codec.string.write clientMessageId)]
  | .sessionTerminal sessionId planId =>
    [("sessionId", Codec.string.write sessionId), ("planId", Codec.string.write planId)]
  | .planSettled planId => [("planId", Codec.string.write planId)]
  | .advance => []
  | .snapshot state => [("state", snapshotCodec.write state)]

def Outcome.fields (outcome : Outcome) : List (String × Json) :=
  ("kind", outcomeKindCodec.write outcome.kind) :: outcome.rest

/-- Read the fields of an outcome: `z.discriminatedUnion('kind', …)`. -/
def Outcome.ofFields (fields : List (String × Json)) : Option Outcome := do
  let text (key : String) : Option String := Codec.string.required fields key
  match ← outcomeKindCodec.required fields "kind" with
  | .planRequested => return .planRequested (← text "cause")
  | .drawTaken =>
    let retry ← Codec.boolean.required fields "retry"
    return .drawTaken (← text "cause") (← text "planId") retry
  | .drawRefused =>
    let retry ← Codec.boolean.optional fields "retry"
    return .drawRefused (← text "cause") (← text "planId") retry
  | .fundedTerminal =>
    let retry ← Codec.boolean.optional fields "retry"
    return .fundedTerminal (← text "cause") (← text "planId") retry
  | .sessionOpened => return .sessionOpened (← text "cause") (← text "sessionId") (← text "planId")
  | .steered => return .steered (← text "cause") (← text "sessionId")
  | .answered => return .answered (← text "cause") (← text "clientMessageId")
  | .ignored => return .ignored (← text "cause")
  | .sessionTerminal => return .sessionTerminal (← text "sessionId") (← text "planId")
  | .planSettled => return .planSettled (← text "planId")
  | .advance => return .advance
  | .snapshot => return .snapshot (← snapshotCodec.required fields "state")

/-- The outcomes the schema admits: the cursor of a snapshot is a safe integer. -/
def Outcome.Admitted : Outcome → Prop
  | .snapshot state => state.cursor ≤ maxSafeInteger
  | _ => True

theorem Outcome.ofFields_fields (outcome : Outcome) (h : outcome.Admitted) :
    ofFields outcome.fields = some outcome := by
  cases outcome with
  | snapshot state =>
    have hstate : lookupField (fields (.snapshot state)) "state" =
      some (snapshotCodec.write state) := rfl
    have hread := snapshotCodec.required_eq hstate h
    show (snapshotCodec.required (fields (.snapshot state)) "state").bind
      (fun held => some (Outcome.snapshot held)) = _
    rw [hread]
    rfl
  | drawRefused cause planId retry =>
    cases retry with
    | none => rfl
    | some retry => rfl
  | fundedTerminal cause planId retry =>
    cases retry with
    | none => rfl
    | some retry => rfl
  | _ => rfl

/-- `OutcomeSchema`. -/
def outcomeCodec : Codec Outcome :=
  .object Outcome.fields Outcome.ofFields Outcome.Admitted Outcome.ofFields_fields

/-- The records the schema admits: positions are safe integers. -/
def JournalRecord.Admitted (record : JournalRecord) : Prop :=
  record.roomSeq ≤ maxSafeInteger ∧ record.outcome.Admitted

/-- `JournalRecordSchema`. -/
def recordCodec : Codec JournalRecord :=
  .object
    (fun record => [("roomSeq", Codec.nat.write record.roomSeq),
      ("outcome", outcomeCodec.write record.outcome)])
    (fun fields => do
      return ⟨← Codec.nat.required fields "roomSeq", ← outcomeCodec.required fields "outcome"⟩)
    JournalRecord.Admitted
    (by
      intro record h
      have hseq : lookupField [("roomSeq", Codec.nat.write record.roomSeq),
        ("outcome", outcomeCodec.write record.outcome)] "roomSeq" =
          some (Codec.nat.write record.roomSeq) := rfl
      have houtcome : lookupField [("roomSeq", Codec.nat.write record.roomSeq),
        ("outcome", outcomeCodec.write record.outcome)] "outcome" =
          some (outcomeCodec.write record.outcome) := rfl
      rw [Codec.nat.required_eq hseq h.1, outcomeCodec.required_eq houtcome h.2]
      rfl)

/-- `JournalHeaderSchema`, by the room it names. -/
def headerCodec : Codec String :=
  .object
    (fun roomId => [("v", (Codec.literalNat 1).write ()), ("roomId", Codec.nonEmpty.write roomId)])
    (fun fields => do
      let _ ← (Codec.literalNat 1).required fields "v"
      Codec.nonEmpty.required fields "roomId")
    (fun roomId => roomId ≠ "")
    (by
      intro roomId h
      have hroom : lookupField [("v", (Codec.literalNat 1).write ()),
        ("roomId", Codec.nonEmpty.write roomId)] "roomId" = some (Codec.nonEmpty.write roomId) := rfl
      have hversion : (Codec.literalNat 1).required [("v", (Codec.literalNat 1).write ()),
        ("roomId", Codec.nonEmpty.write roomId)] "v" = some () := rfl
      rw [hversion, Codec.nonEmpty.required_eq hroom h]
      rfl)

end Schema

/-! ## The file -/

/-- `replay` behind the header: a record that does not parse or that moves backward makes it throw. -/
def replayRecords (state : JournalState) (highWater : Nat) :
    List Js.Json → Option (JournalState × Nat)
  | [] => some (state, highWater)
  | line :: rest => do
    let record ← recordCodec.read line
    if record.roomSeq < highWater then none
    else replayRecords (state.reduce record) record.roomSeq rest

/-- `replay`: `none` when it throws. -/
def replay (roomId : String) : List Js.Json → Option JournalState
  | [] => none
  | headerLine :: recordLines => do
    let named ← headerCodec.read headerLine
    if named ≠ roomId then none
    else return (← replayRecords .initial 0 recordLines).1

/-- The files of a journal. A line stands for the text that `JSON.stringify` writes for it. -/
structure Disk where
  /-- The lines of the live file, when there is one. -/
  live : Option (List Js.Json)
  /-- The lines of the temporary file of a compaction. -/
  compacting : Option (List Js.Json)

/-- An open `OutcomeJournal`, and what it does. -/
structure OutcomeJournal where
  roomId : String
  compactEvery : Js.Number
  appendsSinceCompaction : Nat
  state : JournalState

/-- What a journal is about to do with its files. -/
inductive Stage where
  /-- It is not open, and `open` has not begun. -/
  | closed
  /-- `open` has discarded the temporary file and read the lines of the live one. -/
  | opening (lines : List Js.Json)
  /-- `open` has made sure that there is a live file. -/
  | opened (lines : List Js.Json)
  /-- Nothing. -/
  | idle (journal : OutcomeJournal)
  /-- `compact`: the temporary file is not there yet. -/
  | compacting (journal : OutcomeJournal)
  /-- The temporary file is empty. -/
  | created (journal : OutcomeJournal)
  /-- The header is in the temporary file. -/
  | headed (journal : OutcomeJournal)
  /-- The temporary file is complete and synced. -/
  | complete (journal : OutcomeJournal)
  /-- `open` has thrown. -/
  | refused

/-- The files, and the process that works with them. -/
structure Journaling where
  disk : Disk
  stage : Stage

inductive FileEvent where
  /-- The next operation on the files. -/
  | advance
  /-- `record`, when nothing else is under way. -/
  | record (record : JournalRecord)
  /-- The process ends, whatever it is at, and is started again. -/
  | crash
  deriving DecidableEq, Repr

/-- `this.compactEvery > 0 && this.appendsSinceCompaction >= this.compactEvery`. -/
def OutcomeJournal.compactionDue (journal : OutcomeJournal) : Bool :=
  Js.Number.lt (.ofInt 0) journal.compactEvery &&
    Js.Number.le journal.compactEvery (.ofInt journal.appendsSinceCompaction)

/-- The line of the snapshot that `compact` writes. -/
def OutcomeJournal.snapshotLine (journal : OutcomeJournal) : Js.Json :=
  recordCodec.write ⟨journal.state.cursor, .snapshot journal.state.serialize⟩

namespace Journaling

/-- One operation of `open` or `compact`. -/
def advance (roomId : String) (compactEvery : Js.Number) (journaling : Journaling) : Journaling :=
  let disk := journaling.disk
  match journaling.stage with
  | .closed =>
    ⟨{ disk with compacting := none }, .opening (disk.live.getD [])⟩
  | .opening lines => ⟨{ disk with live := some (disk.live.getD []) }, .opened lines⟩
  | .opened lines =>
    if lines = [] then
      ⟨{ disk with live := some (disk.live.getD [] ++ [headerCodec.write roomId]) },
        .idle ⟨roomId, compactEvery, 0, .initial⟩⟩
    else match replay roomId lines with
      | some state => ⟨disk, .idle ⟨roomId, compactEvery, 0, state⟩⟩
      | none => ⟨disk, .refused⟩
  | .compacting journal => ⟨{ disk with compacting := some [] }, .created journal⟩
  | .created journal =>
    ⟨{ disk with compacting := some [headerCodec.write journal.roomId] }, .headed journal⟩
  | .headed journal =>
    ⟨{ disk with compacting := some (disk.compacting.getD [] ++ [journal.snapshotLine]) },
      .complete journal⟩
  | .complete journal =>
    ⟨⟨disk.compacting, none⟩, .idle { journal with appendsSinceCompaction := 0 }⟩
  | .idle _ | .refused => journaling

/-- `record`: the line is written and synced, and then reduced. -/
def record (journaling : Journaling) (record : JournalRecord) : Journaling :=
  match journaling.stage with
  | .idle journal =>
    let journal := { journal with
      state := journal.state.reduce record
      appendsSinceCompaction := journal.appendsSinceCompaction + 1 }
    ⟨{ journaling.disk with
        live := some (journaling.disk.live.getD [] ++ [recordCodec.write record]) },
      if journal.compactionDue then .compacting journal else .idle journal⟩
  | _ => journaling

def step (roomId : String) (compactEvery : Js.Number) (journaling : Journaling) :
    FileEvent → Journaling
  | .advance => journaling.advance roomId compactEvery
  | .record record => journaling.record record
  | .crash => { journaling with stage := .closed }

def run (roomId : String) (compactEvery : Js.Number) (journaling : Journaling)
    (events : List FileEvent) : Journaling :=
  events.foldl (step roomId compactEvery) journaling

def start : Journaling := ⟨⟨none, none⟩, .closed⟩

/-- What the events record: a record that comes while something else is under way is not taken. -/
def recorded (roomId : String) (compactEvery : Js.Number) :
    Journaling → List FileEvent → List JournalRecord
  | _, [] => []
  | journaling, event :: rest =>
    let later := recorded roomId compactEvery (journaling.step roomId compactEvery event) rest
    match event, journaling.stage with
    | .record record, .idle _ => record :: later
    | _, _ => later

def inMemory (journaling : Journaling) : Option OutcomeJournal :=
  match journaling.stage with
  | .idle journal | .compacting journal | .created journal | .headed journal | .complete journal =>
    some journal
  | .closed | .opening _ | .opened _ | .refused => none

/-- `open`, to its end. -/
def reopen (roomId : String) (compactEvery : Js.Number) (journaling : Journaling) : Journaling :=
  journaling.run roomId compactEvery [.crash, .advance, .advance, .advance]

end Journaling

end Loop
