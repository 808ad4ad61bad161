import AtriumVerified.Core.Common

/-!
# Accepted objects

The model of `packages/core/src/objects.ts` and of the field roles of `attribution.ts`: the five
kinds of object, their payloads, the schemas the payloads are parsed with, and which field of a
payload carries its sentence and which one names a person.
-/

namespace Core

open Js (Json)

inductive AcceptedObjectType where
  | decision
  | commitment
  | openQuestion
  | claim
  | objective
  deriving DecidableEq, Repr

def AcceptedObjectType.name : AcceptedObjectType → String
  | .decision => "decision"
  | .commitment => "commitment"
  | .openQuestion => "open_question"
  | .claim => "claim"
  | .objective => "objective"

inductive DecisionStatus where
  | active
  | superseded
  deriving DecidableEq, Repr

inductive CommitmentStatus where
  | «open»
  | done
  | dropped
  deriving DecidableEq, Repr

inductive QuestionStatus where
  | «open»
  | answered
  deriving DecidableEq, Repr

inductive Verification where
  | unverified
  | verified
  | disputed
  deriving DecidableEq, Repr

inductive ObjectiveStatus where
  | «open»
  | achieved
  | abandoned
  deriving DecidableEq, Repr

structure DecisionPayload where
  statement : String
  decidedBy : Option Id
  status : DecisionStatus
  deriving DecidableEq, Repr

structure CommitmentPayload where
  statement : String
  owner : Id
  due : Option Timestamp
  status : CommitmentStatus
  deriving DecidableEq, Repr

structure OpenQuestionPayload where
  question : String
  status : QuestionStatus
  deriving DecidableEq, Repr

structure ClaimPayload where
  statement : String
  claimant : Id
  verification : Verification
  deriving DecidableEq, Repr

structure ObjectivePayload where
  title : String
  status : ObjectiveStatus
  deriving DecidableEq, Repr

/-- The payload of an object, tagged with its type. -/
inductive Payload where
  | decision (payload : DecisionPayload)
  | commitment (payload : CommitmentPayload)
  | openQuestion (payload : OpenQuestionPayload)
  | claim (payload : ClaimPayload)
  | objective (payload : ObjectivePayload)
  deriving DecidableEq, Repr

def Payload.type : Payload → AcceptedObjectType
  | .decision _ => .decision
  | .commitment _ => .commitment
  | .openQuestion _ => .openQuestion
  | .claim _ => .claim
  | .objective _ => .objective

/-- `AcceptedObject`: the envelope and the payload. -/
structure AcceptedObject where
  id : Id
  roomId : Id
  objectiveId : Option Id
  provenance : Provenance
  createdAt : Timestamp
  updatedAt : Timestamp
  payload : Payload
  deriving DecidableEq, Repr

def AcceptedObject.type (object : AcceptedObject) : AcceptedObjectType := object.payload.type

/-! ## Field roles -/

/-- `TEXT_FIELD`: the field that holds the sentence. -/
def textField : AcceptedObjectType → String
  | .decision => "statement"
  | .commitment => "statement"
  | .openQuestion => "question"
  | .claim => "statement"
  | .objective => "title"

/-- `ATTRIBUTION_FIELD`: the field that names a person, if the type has one. -/
def attributionField : AcceptedObjectType → Option String
  | .decision => some "decidedBy"
  | .commitment => some "owner"
  | .openQuestion => none
  | .claim => some "claimant"
  | .objective => none

/-- `payloadText`: the sentence of a payload. -/
def Payload.text : Payload → String
  | .decision p => p.statement
  | .commitment p => p.statement
  | .openQuestion p => p.question
  | .claim p => p.statement
  | .objective p => p.title

def Payload.attribution : Payload → Option Id
  | .decision p => p.decidedBy
  | .commitment p => some p.owner
  | .openQuestion _ => none
  | .claim p => some p.claimant
  | .objective _ => none

/-- `payloadAttributions`: the people a payload names; an empty string names nobody. -/
def payloadAttributions (payload : Payload) : List Id :=
  (payload.attribution.filter fun userId => userId != "").toList

def objectStatement (object : AcceptedObject) : String := object.payload.text

/-! ## Payload schemas -/

def decisionStatuses : List (String × DecisionStatus) :=
  [("active", .active), ("superseded", .superseded)]

def commitmentStatuses : List (String × CommitmentStatus) :=
  [("open", .open), ("done", .done), ("dropped", .dropped)]

def questionStatuses : List (String × QuestionStatus) := [("open", .open), ("answered", .answered)]

def verifications : List (String × Verification) :=
  [("unverified", .unverified), ("verified", .verified), ("disputed", .disputed)]

def objectiveStatuses : List (String × ObjectiveStatus) :=
  [("open", .open), ("achieved", .achieved), ("abandoned", .abandoned)]

def literal {α : Type} [DecidableEq α] (values : List (String × α)) (value : α) : String :=
  ((values.find? fun v => v.2 == value).map Prod.fst).getD ""

/-- `z.string().min(1)`. -/
def nonEmptyString : Schema.Reader String := Schema.string [Schema.minLength 1]

/-- `objectPayloadByType[type].safeParse(fields)`. -/
def parsePayload (type : AcceptedObjectType) (fields : List (String × Json)) :
    Schema.Parsed Payload :=
  let field {α : Type} (key : String) (schema : Schema.Reader α) := Schema.field fields key schema
  match type with
  | .decision =>
    Schema.both (fun f status => .decision (f status))
      (Schema.both DecisionPayload.mk (field "statement" nonEmptyString)
        (field "decidedBy" (Schema.withDefault none (Schema.nullable idSchema))))
      (field "status" (Schema.withDefault .active (Schema.enum decisionStatuses)))
  | .commitment =>
    Schema.both (fun f status => .commitment (f status))
      (Schema.both (fun f due => f due)
        (Schema.both CommitmentPayload.mk (field "statement" nonEmptyString)
          (field "owner" idSchema))
        (field "due" (Schema.withDefault none (Schema.nullable timestampSchema))))
      (field "status" (Schema.withDefault .open (Schema.enum commitmentStatuses)))
  | .openQuestion =>
    Schema.both (fun question status => .openQuestion ⟨question, status⟩)
      (field "question" nonEmptyString)
      (field "status" (Schema.withDefault .open (Schema.enum questionStatuses)))
  | .claim =>
    Schema.both (fun f verification => .claim (f verification))
      (Schema.both ClaimPayload.mk (field "statement" nonEmptyString) (field "claimant" idSchema))
      (field "verification" (Schema.withDefault .unverified (Schema.enum verifications)))
  | .objective =>
    Schema.both (fun title status => .objective ⟨title, status⟩)
      (field "title" nonEmptyString)
      (field "status" (Schema.withDefault .open (Schema.enum objectiveStatuses)))

/-- `null` or the string. -/
def optionalString : Option String → Json
  | none => .null
  | some text => .string text

def Payload.fields : Payload → List (String × Json)
  | .decision p =>
    [("statement", .string p.statement), ("decidedBy", optionalString p.decidedBy),
      ("status", .string (literal decisionStatuses p.status))]
  | .commitment p =>
    [("statement", .string p.statement), ("owner", .string p.owner), ("due", optionalString p.due),
      ("status", .string (literal commitmentStatuses p.status))]
  | .openQuestion p =>
    [("question", .string p.question), ("status", .string (literal questionStatuses p.status))]
  | .claim p =>
    [("statement", .string p.statement), ("claimant", .string p.claimant),
      ("verification", .string (literal verifications p.verification))]
  | .objective p =>
    [("title", .string p.title), ("status", .string (literal objectiveStatuses p.status))]

end Core
