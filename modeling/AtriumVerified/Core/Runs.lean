import AtriumVerified.Lib.PointerGraph
import AtriumVerified.Core.Reduce

/-!
# Runs of the reducer and the supersession graph

What is proved about the reducer is proved about the states its runs reach. The supersession pointers
of a state form a graph of single pointers; a retraction and a restoration change several of them in
one event, without the cycle check that adding an edge makes.
-/

namespace Core

open PointerGraph

/-- The states reached from the empty state by offering rows one after the other, where every row
offered was `allowed` in the state it met. -/
inductive Reached [Unicode] (allowed : CoreState → AuthoredEvent → Prop) : CoreState → Prop
  | start : Reached allowed emptyState
  | next {state state' : CoreState} {entry : AuthoredEvent} {outcome : EventOutcome} :
      Reached allowed state → allowed state entry → step state entry = .ok (outcome, state') →
      Reached allowed state'

/-- Offer one row; when the call raises, its caller keeps the state it has. -/
def offer [Unicode] (state : CoreState) (entry : AuthoredEvent) : CoreState :=
  match step state entry with
  | .ok (_, next) => next
  | .error _ => state

/-- A `reattribute` with two keys or more beside the attribution field of its object: its refusal
lists them in the order they have. -/
def SeveralStrays (state : CoreState) (event : CoreEvent) : Prop :=
  ∃ correction record field key other, event.body = .objectCorrected correction ∧
    correction.action = .reattribute ∧ state.object? correction.objectId = some record ∧
    attributionField record.object.type = some field ∧
    key ∈ correction.patch.map Prod.fst ∧ other ∈ correction.patch.map Prod.fst ∧
    key ≠ other ∧ key ≠ field ∧ other ≠ field

def parsedSchema : EventSchema CoreEvent := ⟨fun event => .ok event, fun event => event, by
  rintro raw event ⟨⟩
  rfl⟩

/-- The schema of such rows that also parses the payload of an accepted object. -/
def checkedSchema : EventSchema CoreEvent where
  safeParse event :=
    match event.body with
    | .objectAccepted object =>
      match parsePayload object.type object.payload.fields with
      | .ok payload => if payload = object.payload then .ok event else .error []
      | .error issues => .error issues
    | _ => .ok event
  value event := event
  reparse := by
    intro raw event h
    have hsame : event = raw := by
      split at h
      · split at h
        · split at h
          · cases h
            rfl
          · cases h
        · cases h
      · cases h
        rfl
    rw [hsame] at h ⊢
    exact h

def AuthoredEvent.row (entry : AuthoredEvent) : Row CoreEvent := ⟨entry.event, entry.trusted⟩

def offerAll [Unicode] (log : List AuthoredEvent) : CoreState := log.foldl offer emptyState

def pointer (state : CoreState) (id : Id) : Option Id :=
  (state.object? id).bind ObjectRecord.supersededById

/-- The pointer changes of a loop over some targets: where `applies` holds of the target and the
pointer it has by then, the pointer becomes `new`. -/
def loopChanges (applies : Id → Option Id → Bool) (new : Id → Option Id) :
    (Id → Option Id) → List Id → List (Id × Option Id)
  | _, [] => []
  | ptr, target :: rest =>
    if applies target (ptr target) then
      (target, new target) :: loopChanges applies new (Function.update ptr target (new target)) rest
    else loopChanges applies new ptr rest

/-- The pointers a retraction or a restoration changes, in order. A retraction hands the targets of
the object to another live superseder, or to none; a restoration takes the free ones back. -/
def repointings (state : CoreState) (correction : ObjectCorrected) : List (Id × Option Id) :=
  let id := correction.objectId
  match correction.action with
  | .retract =>
    loopChanges (fun _ current => current == some id) (stillLive state id) (pointer state)
      (supersessionEdges state id)
  | .restore =>
    loopChanges (fun target current => (state.object? target).isSome && current.isNone)
      (fun _ => some id) (pointer state) (supersessionEdges state id)
  | _ => []

/-- If the event is a correction that applies, none of the pointers it changes leads back to the
object it is changed at. -/
def RepointingsClear [Unicode] (state : CoreState) (entry : AuthoredEvent) : Prop :=
  ∀ correction, entry.event.body = .objectCorrected correction →
    (∃ next, dispatch state entry = .ok next) →
    Clear (pointer state) (repointings state correction)

/-- If the event is a correction that applies, it moves no supersession pointer. -/
def NoRepointing [Unicode] (state : CoreState) (entry : AuthoredEvent) : Prop :=
  ∀ correction, entry.event.body = .objectCorrected correction →
    (∃ settled, dispatch state entry = .ok settled) → repointings state correction = []

end Core
