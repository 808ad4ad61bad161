import AtriumVerified.Core.Reduce

/-!
# Binding an answer

The model of the answer binding of `packages/core/src/acceptance.ts`: a person answers an open question
with one command, which makes two events, and either both are applied or the state is the one the
caller had.
-/

namespace Core

open Js Checked

inductive AnswerPayload where
  | decision (payload : DecisionPayload)
  | claim (payload : ClaimPayload)
  deriving DecidableEq, Repr

def AnswerPayload.payload : AnswerPayload → Payload
  | .decision payload => .decision payload
  | .claim payload => .claim payload

structure AnswerBindingCommand where
  at_ : Timestamp
  roomId : Id
  questionObjectId : Id
  /-- `answer.objectId`. -/
  answerObjectId : Id
  answer : AnswerPayload
  messageIds : List Id
  acceptEventId : Id
  relationEventId : Id
  relationId : Id
  objectiveId : Option Id
  deriving DecidableEq, Repr

/-- The checks of `answerBindingRefusal`. -/
def checkAnswerBinding (state : CoreState) (command : AnswerBindingCommand) (actor : Actor) :
    Except Stop Unit := do
  refuseIf (!isHuman actor)
    "answer-binding is a person answering a question — only a human may bind an answer, and a model must go through a proposal"
  let slot := state.objects.get command.questionObjectId
  refuseAbsent slot s!"unknown open question \"{command.questionObjectId}\""
  let record ← stored slot "type"
  refuseIf (record.object.type != .openQuestion)
    s!"object \"{command.questionObjectId}\" is a {record.object.type.name}, not an open question — only a question can be answered"
  refuseIf record.retractedAt.isSome
    s!"open question \"{command.questionObjectId}\" is retracted — restore it before answering"
  refuseWith (match record.object.payload with
    | .openQuestion payload =>
      if payload.status = .open then none
      else some s!"open question \"{command.questionObjectId}\" is already answered — reopen it before binding a different answer, so the room can see that it was settled twice"
    | _ => none)
  refuseIf (record.object.roomId != command.roomId)
    s!"open question \"{command.questionObjectId}\" is in room \"{record.object.roomId}\", not \"{command.roomId}\""
  refuseIf (state.objects.get command.answerObjectId != .absent)
    s!"object \"{command.answerObjectId}\" already exists"
  refuseIf (compareCursor ⟨command.at_, command.acceptEventId⟩
      ⟨command.at_, command.relationEventId⟩ != .lt)
    s!"answer-binding event ids are out of order: the acceptance \"{command.acceptEventId}\" must sort strictly before the relation \"{command.relationEventId}\" at {command.at_}, or the edge arrives before the object it points at and the question is left open beside its own answer — pick ids whose order matches"

def answerBindingRefusal (state : CoreState) (command : AnswerBindingCommand) (actor : Actor) :
    Except TypeError (Option String) :=
  match checkAnswerBinding state command actor with
  | .ok () => .ok none
  | .error (.refused reason) => .ok (some reason)
  | .error (.raised reading) => .error ⟨reading⟩

/-! ## The events -/

namespace AnswerBindingCommand

def object (command : AnswerBindingCommand) : AcceptedObject where
  id := command.answerObjectId
  roomId := command.roomId
  objectiveId := command.objectiveId
  provenance := ⟨command.messageIds, none, none⟩
  createdAt := command.at_
  updatedAt := command.at_
  payload := command.answer.payload

def relation (command : AnswerBindingCommand) : Relation where
  id := command.relationId
  roomId := command.roomId
  kind := .answers
  fromObjectId := command.questionObjectId
  target := .object command.answerObjectId
  note := none
  createdAt := command.at_

def accepts (command : AnswerBindingCommand) : CoreEvent :=
  ⟨command.acceptEventId, command.at_, .objectAccepted command.object⟩

def relates (command : AnswerBindingCommand) : CoreEvent :=
  ⟨command.relationEventId, command.at_, .relationAdded command.relation⟩

end AnswerBindingCommand

def answerBindingEvents (command : AnswerBindingCommand) (actor : Actor) : List AuthoredEvent :=
  [⟨command.accepts, ⟨actor, none⟩⟩, ⟨command.relates, ⟨actor, none⟩⟩]

/-- `bindAnswer`: the events, or why there are none. -/
def bindAnswer (state : CoreState) (command : AnswerBindingCommand) (actor : Actor) :
    Except TypeError (Except String (List AuthoredEvent)) := do
  match ← answerBindingRefusal state command actor with
  | some refusal => return .error refusal
  | none => return .ok (answerBindingEvents command actor)

/-! ## The binding -/

/-- `result.outcome`. -/
def EventOutcome.name : EventOutcome → String
  | .applied _ _ => "applied"
  | .appliedWithIssue _ _ _ => "applied_with_issue"
  | .rejected _ _ _ _ => "rejected"
  | .malformed _ _ => "malformed"

def EventOutcome.why : EventOutcome → String
  | .rejected _ _ _ detail => detail
  | .malformed _ detail => detail
  | .appliedWithIssue _ _ issues => "; ".intercalate (issues.map ReducerIssue.reason)
  | .applied _ _ => ""

/-- What `applyAnswerBinding` returns. -/
inductive AnswerBinding where
  | bound (state : CoreState) (events : List AuthoredEvent)
  | refused (state : CoreState) (refusal : String)

section Log

variable [Unicode] {Raw : Type} (schema : EventSchema Raw)

def authoredRow (entry : AuthoredEvent) : Row Raw := ⟨schema.value entry.event, entry.trusted⟩

/-- The loop of `applyAnswerBinding`: the state behind the last event, or the refusal. -/
def applyEvents (command : AnswerBindingCommand) :
    CoreState → List AuthoredEvent → Except TypeError (Except String CoreState)
  | next, [] => .ok (.ok next)
  | next, entry :: rest =>
    match appendEvent schema next (authoredRow schema entry) with
    | .error e => .error e
    | .ok (.applied _ _, state) => applyEvents command state rest
    | .ok (outcome, _) => .ok (.error
        s!"answer-binding \"{command.acceptEventId}\" was rolled back: event \"{entry.event.id}\" {outcome.name} — {outcome.why}")

def applyAnswerBinding (state : CoreState) (command : AnswerBindingCommand) (actor : Actor) :
    Except TypeError AnswerBinding := do
  match ← bindAnswer state command actor with
  | .error refusal => return .refused state refusal
  | .ok events =>
    match ← applyEvents schema command state events with
    | .error refusal => return .refused state refusal
    | .ok next => return .bound next events

end Log

end Core
