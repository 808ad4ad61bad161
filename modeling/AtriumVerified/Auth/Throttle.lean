import Mathlib.Data.Int.Order.Basic
import AtriumVerified.Lib.InsertionMap
import AtriumVerified.Lib.SlidingWindow

/-!
# The rate limiter

The model of `packages/auth/src/throttle.ts`: per key the times of its last attempts, a key that is
put at the end of the map by every attempt, and the eviction of the keys that are worth least while
the map holds more than `maxKeys`. Times are milliseconds, and every operation is given the time the
clock shows when it runs.
-/

namespace Auth

open SlidingWindow

/-- `ThrottleOptions`, with the defaults of `createThrottle`. -/
structure ThrottleOptions where
  limit : Nat
  windowMs : Int
  maxKeys : Nat := 10000
  protectAfter : Nat := limit

/-- `hits`: the times recorded for a key, in the order of eviction. -/
abbrev Hits := Js.Map String (List Int)

namespace Throttle

variable (options : ThrottleOptions)

/-- Whether an entry has fewer than `protectAfter` times in the window. -/
def unprotected (cutoff : Int) (entry : String × List Int) : Bool :=
  (recent cutoff entry.2).length < options.protectAfter

def leastValuableKey (cutoff : Int) (hits : Hits) : Option String :=
  match hits.entries.find? (unprotected options cutoff) with
  | some entry => some entry.1
  | none => hits.entries.head?.map Prod.fst

/-- The loop of `evict`; every round deletes a key, so the keys are rounds enough. -/
def evictLoop (cutoff : Int) : Nat → Hits → Hits
  | 0, hits => hits
  | fuel + 1, hits =>
    if options.maxKeys < hits.entries.length then
      match leastValuableKey options cutoff hits with
      | none => hits
      | some victim => evictLoop cutoff fuel (hits.delete victim)
    else hits

def evict (at_ : Int) (hits : Hits) : Hits :=
  evictLoop options (at_ - options.windowMs) hits.entries.length hits

/-- `record`: the map afterwards, and whether the attempt is allowed. -/
def record (hits : Hits) (key : String) (at_ : Int) : Hits × Bool :=
  let cutoff := at_ - options.windowMs
  let previous := recent cutoff ((hits.get key).getD [])
  let others := hits.delete key
  if options.limit ≤ previous.length then
    -- A refused attempt still counts.
    (evict options at_ (others.set key (previous.tail ++ [at_])), false)
  else (evict options at_ (others.set key (previous ++ [at_])), true)

/-- `attemptAll`, with the time of every record. -/
def attemptAll (hits : Hits) (keys : List (Option String × Int)) : Hits × Bool :=
  (keys.filterMap fun (key, at_) =>
      (key.filter fun text => text != "").map fun text => (text, at_)).foldl
    (fun (held, allowed) (key, at_) =>
      let (next, fresh) := record options held key at_
      (next, fresh && allowed))
    (hits, true)

def reset (hits : Hits) (key : String) : Hits := hits.delete key

def resetAll (hits : Hits) (keys : List (Option String)) : Hits :=
  (keys.filterMap fun key => key.filter fun text => text != "").foldl reset hits

/-! ## Runs -/

inductive Operation where
  | attempt (key : String) (at_ : Int)
  | reset (key : String)
  deriving DecidableEq, Repr

def apply (hits : Hits) : Operation → Hits
  | .attempt key at_ => (record options hits key at_).1
  | .reset key => reset hits key

def after (operations : List Operation) : Hits := operations.foldl (apply options) .empty

def allows (operations : List Operation) (key : String) (at_ : Int) : Bool :=
  (record options (after options operations) key at_).2

def times (operations : List Operation) : List Int :=
  operations.filterMap fun operation => match operation with
    | .attempt _ at_ => some at_
    | .reset _ => none

def Timely (operations : List Operation) : Prop := (times operations).Pairwise (· ≤ ·)

instance (operations : List Operation) : Decidable (Timely operations) :=
  inferInstanceAs (Decidable (List.Pairwise _ _))

def attempted (operations : List Operation) : List String :=
  (operations.filterMap fun operation => match operation with
    | .attempt key _ => some key
    | .reset _ => none).dedup

/-- The full log of a key: the times of all attempts on it, of either verdict, since it was last
reset. -/
def log (key : String) (operations : List Operation) : List Int :=
  operations.foldl (fun held operation => match operation with
    | .attempt other at_ => if other = key then held ++ [at_] else held
    | .reset other => if other = key then [] else held) []

/-- The other keys that hold `limit` attempts inside the window. -/
def holders (key : String) (at_ : Int) (hits : Hits) : List String :=
  (hits.entries.filter fun entry => entry.1 != key &&
    options.limit ≤ (recent (at_ - options.windowMs) entry.2).length).map Prod.fst

/-- There is room for a key that is not stored: the map is not full, or it has a key to drop, or one
attempt already protects a key. -/
def Room (hits : Hits) (at_ : Int) : Prop :=
  hits.entries.length < options.maxKeys ∨
    (∃ entry ∈ hits.entries, unprotected options (at_ - options.windowMs) entry = true) ∨
    (options.protectAfter ≤ 1 ∧ 0 < options.maxKeys)

end Throttle

end Auth
