import Mathlib.Algebra.Order.Field.Rat
import AtriumVerified.Lib.InsertionMap
import AtriumVerified.Core.History

/-!
# How often each type is corrected

The model of the measurement in `packages/core/src/corrections.ts`. A rate is a fraction here, not a
rounded one.
-/

namespace Core

structure CorrectionRate where
  accepted : Nat
  corrected : Nat
  /-- `corrected / accepted`, or 0 when nothing of this type was accepted. -/
  rate : Rat
  deriving DecidableEq, Repr

/-- `correctedByType`: the type every corrected object had before its last correction. -/
def correctedByType (state : CoreState) : Js.Map Id AcceptedObjectType :=
  state.corrections.foldl (fun held correction => held.set correction.objectId correction.objectType)
    Js.Map.empty

/-- `correctionRateByType(state)[type]`. -/
def correctionRateByType (state : CoreState) (type : AcceptedObjectType) : CorrectionRate :=
  let accepted := (state.objects.keys.filterMap state.object?).countP fun record =>
    record.object.type == type
  let corrected := ((correctedByType state).entries.map Prod.snd).countP (· == type)
  { accepted, corrected, rate := if accepted = 0 then 0 else corrected / accepted }

/-! ## What the rates count -/

def lastCorrection (state : CoreState) (id : Id) : Option CorrectionRecord :=
  (correctionsOf state id).getLast?

/-- The objects that their last correction read as another type than this one. -/
def retypedFrom (state : CoreState) (type : AcceptedObjectType) : List Id :=
  state.objects.keys.filter fun id => (lastCorrection state id).any fun last =>
    last.action == .retype && last.objectType == type

/-- The objects of the type that were never corrected, or whose last correction read them as one. -/
def readAs (state : CoreState) (type : AcceptedObjectType) : List Id :=
  state.objects.keys.filter fun id => ((state.object? id).any fun record =>
    record.object.type == type) && (lastCorrection state id).all fun last => last.action == .retype

end Core
