import AtriumVerified.Core.Escalation

/-!
# Events

The model of `packages/core/src/events.ts`: the six kinds of event, the context the server trusts,
and the schema every row passes before it is looked at.
-/

namespace Core

open Js (Json)

inductive CorrectionAction where
  | amend
  | retract
  | restore
  | retype
  | reattribute
  | reopen
  deriving DecidableEq, Repr

def CorrectionAction.name : CorrectionAction → String
  | .amend => "amend"
  | .retract => "retract"
  | .restore => "restore"
  | .retype => "retype"
  | .reattribute => "reattribute"
  | .reopen => "reopen"

/-- The fields of an `object_corrected` event. -/
structure ObjectCorrected where
  objectId : Id
  action : CorrectionAction
  /-- The keys to overwrite in the payload. -/
  patch : List (String × Json)
  /-- What a `retype` retypes to. -/
  toType : Option AcceptedObjectType
  provenance : Provenance
  note : Option String

/-- What an event says, by `event.type`. -/
inductive EventBody where
  | proposalRecorded (proposal : Proposal)
  | proposalRejected (proposalId : Id) (reason : Option String)
  | proposalSuperseded (proposalId : Id) (supersededByProposalId : Option Id)
      (reason : Option String)
  | objectAccepted (object : AcceptedObject)
  | objectCorrected (correction : ObjectCorrected)
  | relationAdded (relation : Relation)

/-- `CoreEvent`, as the schema returns it. -/
structure CoreEvent where
  id : Id
  /-- `event.at`. -/
  at_ : Timestamp
  body : EventBody

/-- The event again, but the keys of a patch may stand in another order. -/
inductive CoreEvent.Reordered : CoreEvent → CoreEvent → Prop where
  | same (event : CoreEvent) : Reordered event event
  | corrected (id : Id) (at_ : Timestamp) (correction : ObjectCorrected)
      {patch : List (String × Json)}
      (h : Json.Reordered (.object correction.patch) (.object patch)) :
      Reordered ⟨id, at_, .objectCorrected correction⟩
        ⟨id, at_, .objectCorrected { correction with patch := patch }⟩

/-- `TrustedContext`: what is derived from the session, never from the payload. -/
structure TrustedContext where
  actor : Actor
  /-- The message window a non-human acceptance is checked against. -/
  messages : Option (List ProvenanceMessage)

/-- `AuthoredEvent`: a parsed event with its context. -/
structure AuthoredEvent where
  event : CoreEvent
  trusted : TrustedContext

/-- The event schema of the validator library, over whatever values rows are. -/
structure EventSchema (Raw : Type) where
  /-- `CoreEvent.safeParse`. -/
  safeParse : Raw → Schema.Parsed CoreEvent
  /-- A parsed event as the value it is. -/
  value : CoreEvent → Raw
  /-- Parsing an already parsed event returns it unchanged. -/
  reparse : ∀ raw event, safeParse raw = .ok event → safeParse (value event) = .ok event

/-- A row as a caller hands it in: any value, with the context the server derived. -/
structure Row (Raw : Type) where
  event : Raw
  trusted : TrustedContext

end Core
