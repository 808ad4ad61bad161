import Mathlib.Data.List.Sort
import AtriumVerified.Core.Proposal
import AtriumVerified.Server.ReceiptWindow

/-!
# The interpretation worker

The model of what one pass of `jobs/interpret.ts` reads and what it makes of it: the messages it
claims, the context it judges them in, and how `jobs/extraction.ts` turns a reading of the provider
into a proposal. The hash behind a proposal's id and the random ids of new rows are parameters.
-/

namespace Server

open Core

/-! ## Interpretations -/

inductive InterpretationStatus where
  | pending
  | succeeded
  | failed
  deriving DecidableEq, Repr

/-- A row of `interpretations`, as far as the worker reads it. -/
structure InterpretationRow where
  id : Id
  messageId : Id
  interpretationVersion : Nat
  status : InterpretationStatus
  deriving DecidableEq, Repr

/-- Two rows that `interpretations_message_version_key` keeps apart. -/
def InterpretationRow.Apart (a b : InterpretationRow) : Prop :=
  a.messageId = b.messageId → a.interpretationVersion ≠ b.interpretationVersion

instance (a b : InterpretationRow) : Decidable (a.Apart b) :=
  inferInstanceAs (Decidable (a.messageId = b.messageId → _))

/-- The table `interpretations`. -/
structure Interpretations where
  rows : List InterpretationRow
  unique : rows.Pairwise InterpretationRow.Apart

namespace Interpretations

def rowsOf (table : Interpretations) (messageId : Id) : List InterpretationRow :=
  table.rows.filter fun row => row.messageId == messageId

/-- `ORDER BY x.interpretation_version DESC LIMIT 1`. -/
def newest (table : Interpretations) (messageId : Id) : Option InterpretationRow :=
  ((table.rowsOf messageId).insertionSort fun a b =>
    b.interpretationVersion ≤ a.interpretationVersion).head?

def has (table : Interpretations) (messageId : Id) (version : Nat) : Bool :=
  table.rows.any fun row => row.messageId == messageId && row.interpretationVersion == version

theorem apart_of_not_has {table : Interpretations} {messageId : Id} {version : Nat}
    (h : table.has messageId version = false) {row : InterpretationRow} (hrow : row ∈ table.rows)
    (hmessage : row.messageId = messageId) : row.interpretationVersion ≠ version := by
  intro hversion
  rw [has, List.any_eq_false] at h
  apply h row hrow
  rw [hmessage, hversion, beq_self_eq_true, beq_self_eq_true]
  rfl

/-- An insert with `ON CONFLICT DO NOTHING`. -/
def insert (table : Interpretations) (row : InterpretationRow) : Interpretations :=
  if h : table.has row.messageId row.interpretationVersion = false then
    ⟨table.rows ++ [row], by
      rw [List.pairwise_append]
      refine ⟨table.unique, List.pairwise_singleton _ _, ?_⟩
      intro held hheld new hnew hmessage
      rw [List.mem_singleton.mp hnew] at hmessage ⊢
      exact apart_of_not_has h hheld hmessage⟩
  else table

def stageReinterpretation (table : Interpretations) (messageId newId : Id) : Interpretations :=
  let newestVersion := ((table.rowsOf messageId).map InterpretationRow.interpretationVersion).max?
  table.insert ⟨newId, messageId, newestVersion.getD 0 + 1, .pending⟩

def markSucceeded (table : Interpretations) (ids : List Id) : Interpretations where
  rows := table.rows.map fun row =>
    if ids.contains row.id then { row with status := .succeeded } else row
  unique := by
    rw [List.pairwise_map]
    refine table.unique.imp ?_
    intro a b hapart hmessage
    have hfields (row : InterpretationRow) (ids : List Id) :
        (if ids.contains row.id then { row with status := .succeeded } else row).messageId =
            row.messageId ∧
          (if ids.contains row.id then { row with status := .succeeded } else
            row).interpretationVersion = row.interpretationVersion := by
      split
      · exact ⟨rfl, rfl⟩
      · exact ⟨rfl, rfl⟩
    rw [(hfields a ids).1, (hfields b ids).1] at hmessage
    rw [(hfields a ids).2, (hfields b ids).2]
    exact hapart hmessage

end Interpretations

/-! ## Claiming -/

/-- The messages of one room, whose ids are a primary key. -/
structure RoomMessages extends RoomHistory where
  distinct : (messages.map MessageRow.id).Nodup

structure InterpretConfig where
  maxWindowMessages : Nat
  contextMessagesBefore : Nat
  deriving DecidableEq, Repr

structure Candidate where
  message : ProvenanceMessage
  seq : Nat
  interpretationId : Id
  interpretationVersion : Nat
  /-- Prior interpretations of the message, newest first. -/
  priorInterpretationIds : List Id
  deriving DecidableEq, Repr

/-- `i.id IS NULL OR i.status = 'pending'`. -/
def isUnread (table : Interpretations) (row : MessageRow) : Bool :=
  match table.newest row.id with
  | none => true
  | some newest => newest.status == .pending

/-- The drain query of `claimWindow`. -/
def pendingRows (room : RoomMessages) (table : Interpretations) (config : InterpretConfig) :
    List MessageRow :=
  (room.messages.filter (isUnread table)).take config.maxWindowMessages

/-- The table after `claimWindow` inserted version 1 of the messages that had no interpretation. -/
def claimInserted (rows : List MessageRow) (seen current : Interpretations) (newId : Id → Id) :
    Interpretations :=
  (rows.filter fun row => (seen.newest row.id).isNone).foldl
    (fun table row => table.insert ⟨newId row.id, row.id, 1, .pending⟩) current

/-- `attachPriorVersions`, for one candidate. -/
def attachPriorVersions (table : Interpretations) (candidate : Candidate) : Candidate :=
  if candidate.interpretationVersion ≤ 1 then candidate
  else
    let earlier := (table.rowsOf candidate.message.id).filter fun row =>
      row.interpretationVersion < candidate.interpretationVersion
    { candidate with
      priorInterpretationIds := (earlier.insertionSort fun a b =>
        b.interpretationVersion ≤ a.interpretationVersion).map InterpretationRow.id }

/-- What the loop of `claimWindow` makes of one row: another worker may have inserted the first
version of the message since the drain query. -/
def claimRow (seen current : Interpretations) (newId : Id → Id) (row : MessageRow) :
    Option Candidate :=
  match seen.newest row.id with
  | some own => some ⟨row.provenance, row.seq, own.id, own.interpretationVersion, []⟩
  | none =>
    if current.has row.id 1 then none else some ⟨row.provenance, row.seq, newId row.id, 1, []⟩

/-- `claimWindow`: the drain query reads one state of the table, and the insert finds another. -/
def claimWindow (room : RoomMessages) (seen current : Interpretations) (newId : Id → Id)
    (config : InterpretConfig) : List Candidate × Interpretations :=
  let rows := pendingRows room seen config
  let table := claimInserted rows seen current newId
  ((rows.filterMap (claimRow seen current newId)).map (attachPriorVersions table), table)

/-! ## The context -/

def readContext (room : RoomMessages) (claimed : List Candidate) (config : InterpretConfig) :
    List ProvenanceMessage :=
  match (claimed.map Candidate.seq).min? with
  | none => []
  | some first =>
    let start := first - config.contextMessagesBefore
    ((room.messages.filter fun row => start ≤ row.seq).take
      (config.contextMessagesBefore + config.maxWindowMessages * 2)).map MessageRow.provenance

/-! ## Readings -/

structure ExtractedReading where
  type : AcceptedObjectType
  text : String
  subject : Option String
  confidence : Js.Number
  quote : String
  messageIds : List Id
  deriving DecidableEq, Repr

structure ReadingContext where
  roomId : Id
  interpretationId : Id
  model : String
  createdAt : Timestamp
  messages : List ProvenanceMessage

inductive MintedPayload where
  | commitment (statement : String) (owner : Id)
  | claim (statement : String) (claimant : Id)
  | decision (statement : String)
  | openQuestion (question : String)
  | objective (title : String)
  deriving DecidableEq, Repr

/-- `ProposalInput`, as `mintProposal` fills it in. -/
structure ProposalInput where
  id : Id
  roomId : Id
  confidence : Js.Number
  /-- The model of the proposer. -/
  model : String
  provenance : List Id
  quote : String
  interpretationId : Id
  createdAt : Timestamp
  payload : MintedPayload
  deriving DecidableEq, Repr

inductive UnmintableReading where
  | citesNothing (messageIds : List Id)
  | namesNobody (type : AcceptedObjectType) (subject : Option String)
  deriving DecidableEq, Repr

def citationsIn (messages : List ProvenanceMessage) (messageIds : List Id) : List Id :=
  messageIds.filter fun id => messages.any fun message => message.id == id

def resolveSubject (subject : Option String) (cited : List Id) (messages : List ProvenanceMessage) :
    Option Id :=
  let authorsOf (messages : List ProvenanceMessage) : List Id :=
    (messages.map ProvenanceMessage.authorId).filter fun id => !id.isEmpty
  match subject.filter fun name => !(Js.trim name.toList).isEmpty with
  | some name => if (authorsOf messages).contains name then some name else none
  | none =>
    match (authorsOf (messages.filter fun message => cited.contains message.id)).eraseDups with
    | [author] => some author
    | _ => none

def mintProposal (proposalId : Id → ExtractedReading → Id) (reading : ExtractedReading)
    (context : ReadingContext) : Except UnmintableReading ProposalInput :=
  let cited := citationsIn context.messages reading.messageIds
  let base (payload : MintedPayload) : ProposalInput :=
    { id := proposalId context.interpretationId reading
      roomId := context.roomId
      confidence := reading.confidence
      model := context.model
      provenance := cited
      quote := reading.quote
      interpretationId := context.interpretationId
      createdAt := context.createdAt
      payload := payload }
  let named (payload : Id → MintedPayload) : Except UnmintableReading ProposalInput :=
    match resolveSubject reading.subject cited context.messages with
    | none => .error (.namesNobody reading.type reading.subject)
    | some subject => .ok (base (payload subject))
  if cited.isEmpty then .error (.citesNothing reading.messageIds)
  else match reading.type with
    | .commitment => named (.commitment reading.text)
    | .claim => named (.claim reading.text)
    | .decision => .ok (base (.decision reading.text))
    | .openQuestion => .ok (base (.openQuestion reading.text))
    | .objective => .ok (base (.objective reading.text))

def candidateFor (reading : ExtractedReading) (claimed : List Candidate) : Option Candidate :=
  reading.messageIds.findSome? fun id => claimed.find? fun candidate => candidate.message.id == id

/-- What the loop of `runInterpretation` makes of a reading before it is checked as a proposal. -/
inductive ReadingStep where
  | uncited
  | unmintable (problem : UnmintableReading)
  | minted (proposal : ProposalInput)
  deriving DecidableEq, Repr

/-- The head of the loop of `runInterpretation`. -/
def readingStep (proposalId : Id → ExtractedReading → Id) (roomId : Id) (model : String)
    (startedAt : Timestamp) (claimed : List Candidate) (context : List ProvenanceMessage)
    (reading : ExtractedReading) : ReadingStep :=
  match candidateFor reading claimed with
  | none => .uncited
  | some candidate =>
    match mintProposal proposalId reading
      ⟨roomId, candidate.interpretationId, model, startedAt, context⟩ with
    | .error problem => .unmintable problem
    | .ok proposal => .minted proposal

end Server
