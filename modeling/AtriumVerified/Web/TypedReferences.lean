import AtriumVerified.Server.MessageReferences

/-!
# References in the composer and on the screen

The model of `apps/web/src/lib/typed-references.ts`, which carries references across an edit and
makes them ready to be sent, and of `typedReferenceBody` in `apps/web/lib/replay-view.ts`, which
cuts a stored body into the segments that are shown.
-/

namespace Web

open Server Diff

/-! ## The composer -/

/-- What becomes of one reference in `reconcileMessageReferences`: it stays, it is shifted, or it is
dropped. A reference that is shifted stands behind `before.length - commonRest before after`, so no
subtraction is cut off. -/
def carry (before after : Units) (reference : MessageReference) : List MessageReference :=
  if reference.stop ≤ commonPrefix before after then [reference]
  else if before.length - commonRest before after ≤ reference.start then
    [{ reference with
        start := reference.start + after.length - before.length
        stop := reference.stop + after.length - before.length }]
  else []

def reconcileMessageReferences (before after : Units) (references : List MessageReference) :
    List MessageReference :=
  if before = after then references else references.flatMap (carry before after)

def normalizeMessageReferences (body : Units) (references : List MessageReference) :
    List MessageReference :=
  ((references.mergeSort spanLe).filter fun reference =>
      slice body reference.start reference.stop == reference.surface).mapIdx
    fun ordinal reference => { reference with ordinal }

/-! ## The screen -/

inductive BodySegment where
  | text (text : Units)
  | code (text : Units)
  | mention (text : Units) (referenceKind : Option MessageReferenceKind) (targetId : Option String)
      (resolution : Option String)
  deriving DecidableEq

def segmentText : BodySegment → Units
  | .text text => text
  | .code text => text
  | .mention text _ _ _ => atSign :: text

def bodyText (body : List BodySegment) : Units := body.flatMap segmentText

/-- `ReferenceResolution` without the target it repeats. -/
structure ReferenceResolution where
  label : Option String
  state : Option String

def kindName : MessageReferenceKind → String
  | .human => "human"
  | .agent => "agent"
  | .attachment => "attachment"
  | .proposal => "proposal"
  | .object => "object"

/-- `[label, state].filter(Boolean).join(' · ')`. -/
def resolutionText (resolution : ReferenceResolution) : String :=
  " · ".intercalate
    ((resolution.label.toList ++ resolution.state.toList).filter fun part => part != "")

variable (resolve : MessageReferenceKind → String → Option ReferenceResolution)

def mentionOf (reference : MessageReference) : BodySegment :=
  .mention (if startsWithAt reference.surface then reference.surface.tail else reference.surface)
    (some reference.kind) (some reference.targetId)
    (some (match resolve reference.kind reference.targetId with
      | none => kindName reference.kind ++ " unavailable"
      | some resolution => resolutionText resolution))

/-- The loop of `typedReferenceBody`, from a cursor on. -/
def segments (text : Units) : Nat → List MessageReference → Option (List BodySegment)
  | cursor, [] => some (if cursor < text.length then [.text (text.drop cursor)] else [])
  | cursor, reference :: rest =>
    if !startsWithAt reference.surface || decide (reference.start < cursor) ||
        decide (reference.stop ≤ reference.start) || decide (text.length < reference.stop) ||
        slice text reference.start reference.stop != reference.surface then none
    else
      (segments text reference.stop rest).map fun more =>
        (if cursor < reference.start then [.text (slice text cursor reference.start)] else []) ++
          mentionOf resolve reference :: more

/-- `left.ordinal - right.ordinal`, as an order. -/
def ordinalLe (left right : MessageReference) : Bool := left.ordinal ≤ right.ordinal

/-- `typedReferenceBody`; `none` is `undefined`. -/
def typedReferenceBody (text : Units) (references : List MessageReference) :
    Option (List BodySegment) :=
  if references = [] then none
  else segments resolve text 0 (references.mergeSort ordinalLe)

end Web
