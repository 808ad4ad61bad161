import AtriumVerified.Lib.Runs
import AtriumVerified.Server.Answers

/-!
# The fan-out of an instance

What `sync` returns is broadcast to the clients of an instance (`pass` of the reconciler, `fanOut`),
and nothing else is: an append folds the rows of its peers as well, and so does the `foldThrough` of
a page, but neither returns them. So each row of a peer should come out of exactly one `sync`.
-/

namespace Server

section FanOut

variable {ι : Type} [DecidableEq ι]

/-- The number of a row that another instance has committed. -/
def Observed.PeerRow (observed : Observed ι) (i : ι) (seq : Nat) : Prop :=
  ∃ j, j ≠ i ∧ ∃ row ∈ observed.committedBy j, row.seq = seq

/-- What the `sync` that runs on an instance has folded and not returned yet. -/
def Observed.inHand (observed : Observed ι) (i : ι) : List LedgerEntry :=
  match observed.cluster.work i with
  | .reading none => observed.folded i
  | _ => []

/-- An instance has not folded a row yet, or its `sync` has it in hand. -/
def Observed.Ahead (observed : Observed ι) (i : ι) (seq : Nat) : Prop :=
  (observed.cluster.memory i).lastSeq < seq ∨ ∃ entry ∈ observed.inHand i, entry.seq = seq

/-- How often the calls of `sync` of an instance have returned a row. -/
def Observed.timesReturned (observed : Observed ι) (i : ι) (seq : Nat) : Nat :=
  (syncedEntries (observed.answers i)).countP fun entry => entry.seq == seq

/-- The row of a peer is never returned twice, and it has been returned once it is not ahead. -/
def Observed.ReturnsOnce (observed : Observed ι) : Prop :=
  ∀ i seq, observed.PeerRow i seq → observed.timesReturned i seq ≤ 1 ∧
    (¬ observed.Ahead i seq → observed.timesReturned i seq = 1)

variable [Unicode] (codec : Codec)

/-- No row of a peer gets lost: the page that an append or a `foldThrough` folds has none, nor has
what a `sync` that throws had in hand. -/
def Observed.Hands (before : Observed ι) : Occurrence ι → Prop
  | .act (.page i) =>
    match before.nextFold codec i, before.cluster.work i with
    | .error _, _ => ∀ entry ∈ before.inHand i, ¬ before.PeerRow i entry.seq
    | .ok _, .reading (some _) | .ok _, .appending _ _ =>
      ∀ row ∈ nextPage before.cluster.rows (before.cluster.memory i).lastSeq,
        ¬ before.PeerRow i row.seq
    | _, _ => True
  | .act (.fail i) => ∀ entry ∈ before.inHand i, ¬ before.PeerRow i entry.seq
  | _ => True

end FanOut

end Server
