import AtriumVerified.Lib.CommonPrefix

/-!
# References of a posted message

The model of the reference checks of `post_message` in `apps/server/src/commands.ts`. A text is the
list of its UTF-16 code units, which is what offsets count. What the tables say of a target is a
parameter.
-/

namespace Server

abbrev Units := List UInt16

/-- The code unit of `@`. -/
def atSign : UInt16 := 64

inductive MessageReferenceKind where
  | human
  | agent
  | attachment
  | proposal
  | object
  deriving DecidableEq, Repr

/-- `MessageReference`. Its schema lets no negative number pass. -/
structure MessageReference where
  ordinal : Nat
  kind : MessageReferenceKind
  targetId : String
  start : Nat
  stop : Nat
  surface : Units
  deriving DecidableEq, Repr

/-- `left.start - right.start || left.end - right.end`, as an order. -/
def spanLe (left right : MessageReference) : Bool :=
  left.start < right.start || left.start == right.start && left.stop ≤ right.stop

/-- `surface.startsWith('@')`. -/
def startsWithAt (surface : Units) : Bool := surface.head? == some atSign

/-- The loop of `validateMessageReferences` over the ordered references. -/
def spanChecks (body : Units) : List Nat → Int → Nat → List MessageReference → Bool
  | _, _, _, [] => true
  | ordinals, priorEnd, index, reference :: rest =>
    if ordinals.contains reference.ordinal || reference.ordinal != index ||
        decide (body.length < reference.stop) || decide (reference.stop ≤ reference.start) ||
        decide ((reference.start : Int) < priorEnd) || !startsWithAt reference.surface ||
        Diff.slice body reference.start reference.stop != reference.surface then false
    else spanChecks body (reference.ordinal :: ordinals) reference.stop (index + 1) rest

/-- The span checks of `validateMessageReferences`. -/
def spansAccepted (body : Units) (references : List MessageReference) : Bool :=
  spanChecks body [] (-1) 0 (references.mergeSort spanLe)

/-- `validateMessageReferences`, where `available` is what the tables and the uploads say of a
target: the error it raises, if it does. -/
def validateMessageReferences (available : MessageReferenceKind → String → Bool) (body : Units)
    (references : List MessageReference) : Except String Unit :=
  if !spansAccepted body references then .error "reference is unavailable"
  else if references.any fun reference => !available reference.kind reference.targetId then
    .error "reference is unavailable"
  else .ok ()

end Server
