import AtriumVerified.Core.Objects

/-!
# Proposals and relations

The model of `packages/core/src/proposal.ts` and `relations.ts`: a staged reading with its
receipt, and the typed edges between accepted objects.
-/

namespace Core

/-- `Proposer`: who staged a reading. -/
inductive Proposer where
  | model (model : String)
  | human (userId : Id)
  | agent (userId : Id)
  deriving DecidableEq, Repr

def proposerIsMachine : Proposer → Bool
  | .human _ => false
  | _ => true

inductive ProposalStatus where
  | proposed
  | accepted
  | rejected
  | superseded
  deriving DecidableEq, Repr

def ProposalStatus.name : ProposalStatus → String
  | .proposed => "proposed"
  | .accepted => "accepted"
  | .rejected => "rejected"
  | .superseded => "superseded"

/-- `StoredProposal`: a proposal without its status, which lives in the record. -/
structure StoredProposal where
  id : Id
  roomId : Id
  confidence : Js.Number
  proposer : Proposer
  /-- The cited messages. -/
  provenance : List Id
  quote : Option String
  interpretationId : Option Id
  createdAt : Timestamp
  payload : Payload
  deriving DecidableEq, Repr

def StoredProposal.type (proposal : StoredProposal) : AcceptedObjectType := proposal.payload.type

/-- `Proposal`: a staged reading as an event carries it. -/
structure Proposal where
  /-- `storeProposal(proposal)`. -/
  stored : StoredProposal
  status : ProposalStatus
  deriving DecidableEq, Repr

/-! ## Relations -/

inductive RelationKind where
  | supersedes
  | dependsOn
  | blocks
  | answers
  | evidence
  deriving DecidableEq, Repr

def RelationKind.name : RelationKind → String
  | .supersedes => "supersedes"
  | .dependsOn => "depends_on"
  | .blocks => "blocks"
  | .answers => "answers"
  | .evidence => "evidence"

inductive RelationTarget where
  | object (objectId : Id)
  | message (messageId : Id)
  | url (url : String)
  | file (fileKey : String)
  deriving DecidableEq, Repr

def RelationTarget.kind : RelationTarget → String
  | .object _ => "object"
  | .message _ => "message"
  | .url _ => "url"
  | .file _ => "file"

def RelationTarget.objectId? : RelationTarget → Option Id
  | .object objectId => some objectId
  | _ => none

structure Relation where
  id : Id
  roomId : Id
  kind : RelationKind
  fromObjectId : Id
  /-- `relation.to`. -/
  target : RelationTarget
  note : Option String
  createdAt : Timestamp
  deriving DecidableEq, Repr

/-- `objectToObjectKinds.includes(kind)`. -/
def RelationKind.structural (kind : RelationKind) : Bool :=
  [RelationKind.supersedes, .dependsOn, .blocks, .answers].contains kind

def relationShapeError (relation : Relation) : Option String :=
  if relation.kind.structural && relation.target.objectId?.isNone then
    some s!"relation \"{relation.kind.name}\" must target an object, got \"{relation.target.kind}\""
  else if relation.kind == .evidence && relation.target.objectId?.isSome then
    some "relation \"evidence\" must target a message, url, or file"
  else if relation.kind.structural && relation.target.objectId? == some relation.fromObjectId then
    some s!"relation \"{relation.kind.name}\" cannot point an object at itself"
  else none

end Core
