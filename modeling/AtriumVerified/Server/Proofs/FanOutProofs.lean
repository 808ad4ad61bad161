import AtriumVerified.Server.FanOut
import AtriumVerified.Server.Proofs.AnswerProofs

/-!
# When every row of a peer is returned by one sync

What the calls of `sync` have returned, with what the running one has in hand, is strictly
increasing and stays behind `lastSeq`, whatever happens, so no row is returned twice. Whether every
row of a peer behind `lastSeq` is among it depends on who folded the row.
-/

namespace Server

open Core Js Postgres

section Handled

variable {ι : Type} {codec : Codec} {before after : Observed ι}
  {new : List CoreEventRow} {i : ι} {who : Option ι}

/-- What `sync` has returned and what it has in hand. -/
def Observed.handled (observed : Observed ι) (i : ι) : List Nat :=
  (syncedEntries (observed.answers i) ++ observed.inHand i).map LedgerEntry.seq

/-- One instance has acted, or none: the others keep what they had, and new rows of the ledger are
at most those that it has committed. -/
structure Acts (before after : Observed ι) (who : Option ι) (new : List CoreEventRow) : Prop where
  rows : after.cluster.rows = before.cluster.rows ++ new
  committed : after.committed = before.committed ∨ ∃ i request, who = some i ∧
    after.committed = before.committed ++ [(i, ⟨request, new⟩)]
  others : ∀ j, who ≠ some j → after.handled j = before.handled j ∧
    after.cluster.work j = before.cluster.work j ∧
    after.cluster.memory j = before.cluster.memory j

theorem Acts.behind [Unicode] (h : Acts before after who new) (hbefore : Placed codec before.cluster)
    (hafter : Placed codec after.cluster) {row : CoreEventRow} (hrow : row ∈ new) :
    (∀ held ∈ before.cluster.rows, held.seq < row.seq) ∧
      ∀ j, (before.cluster.memory j).lastSeq < row.seq := by
  have hordered := hafter.ordered
  rw [h.rows] at hordered
  refine ⟨?_, fun j => (hbefore.holds j).behind hordered row hrow⟩
  intro held hheld
  exact (List.pairwise_append.mp hordered.seqs).2.2 held hheld row hrow

variable [DecidableEq ι]

/-- Every row of a peer behind `lastSeq` was folded by a `sync`. -/
def Observed.Complete (observed : Observed ι) : Prop :=
  ∀ i seq, observed.PeerRow i seq → seq ≤ (observed.cluster.memory i).lastSeq →
    seq ∈ observed.handled i

structure Tracked [Unicode] (codec : Codec) (observed : Observed ι) : Prop where
  placed : Placed codec observed.cluster
  committed : ∀ i, ∀ row ∈ observed.committedBy i, row ∈ observed.cluster.rows
  increasing : ∀ i, (observed.handled i).Pairwise (· < ·)
  behind : ∀ i, ∀ seq ∈ observed.handled i, seq ≤ (observed.cluster.memory i).lastSeq
  adopting : ∀ i request staged, observed.cluster.work i = .appending request (.committed staged) →
    ∀ row ∈ staged.rows, ¬ observed.PeerRow i row.seq

theorem committedBy_append (committed : List (ι × Batch)) (j : ι) (request : Request) :
    Observed.committedBy { before with committed := committed ++ [(j, ⟨request, new⟩)] } i =
      Observed.committedBy { before with committed } i ++ if j = i then new else [] := by
  unfold Observed.committedBy
  rw [List.filter_append, List.flatMap_append]
  congr 1
  by_cases hj : j = i
  · simp [hj]
  · simp [hj]

theorem Acts.committedBy (h : Acts before after who new) (j : ι) :
    after.committedBy j = before.committedBy j ∨
      who = some j ∧ after.committedBy j = before.committedBy j ++ new := by
  rcases h.committed with hsame | ⟨i, request, hwho, hmore⟩
  · left
    unfold Observed.committedBy
    rw [hsame]
  · have hafter : after.committedBy j =
        Observed.committedBy { before with committed := before.committed ++ [(i, ⟨request, new⟩)] }
          j := by
      unfold Observed.committedBy
      rw [hmore]
    rw [hafter, committedBy_append]
    by_cases hj : i = j
    · right
      rw [if_pos hj, ← hj]
      exact ⟨hwho, rfl⟩
    · left
      rw [if_neg hj, List.append_nil]

theorem Acts.peerRow (h : Acts before after who new) {seq : Nat} (hpeer : before.PeerRow i seq) :
    after.PeerRow i seq := by
  obtain ⟨j, hj, row, hrow, hseq⟩ := hpeer
  refine ⟨j, hj, row, ?_, hseq⟩
  rcases h.committedBy j with hsame | ⟨-, hmore⟩
  · rw [hsame]
    exact hrow
  · rw [hmore]
    exact List.mem_append_left _ hrow

theorem Acts.peerRow_cases (h : Acts before after who new) {seq : Nat}
    (hpeer : after.PeerRow i seq) :
    before.PeerRow i seq ∨ who ≠ some i ∧ ∃ row ∈ new, row.seq = seq := by
  obtain ⟨j, hj, row, hrow, hseq⟩ := hpeer
  rcases h.committedBy j with hsame | ⟨hwho, hmore⟩
  · rw [hsame] at hrow
    exact Or.inl ⟨j, hj, row, hrow, hseq⟩
  · rw [hmore] at hrow
    rcases List.mem_append.mp hrow with hrow | hrow
    · exact Or.inl ⟨j, hj, row, hrow, hseq⟩
    · refine Or.inr ⟨?_, row, hrow, hseq⟩
      rw [hwho]
      exact fun heq => hj (Option.some.inj heq)

variable [Unicode]

theorem Tracked.peerRow_mem (h : Tracked codec before) {seq : Nat} (hpeer : before.PeerRow i seq) :
    ∃ row ∈ before.cluster.rows, row.seq = seq := by
  obtain ⟨j, -, row, hrow, hseq⟩ := hpeer
  exact ⟨row, h.committed j row hrow, hseq⟩

/-- After an action of one instance: what holds of it has to be shown for it alone. -/
theorem Tracked.next (h : Tracked codec before) (hacts : Acts before after who new)
    (hplaced : Placed codec after.cluster)
    (hown : ∀ i, who = some i → (after.handled i).Pairwise (· < ·) ∧
      (∀ seq ∈ after.handled i, seq ≤ (after.cluster.memory i).lastSeq) ∧
      ∀ request staged, after.cluster.work i = .appending request (.committed staged) →
        staged.rows = new) : Tracked codec after where
  placed := hplaced
  committed := by
    intro j row hrow
    rw [hacts.rows]
    rcases hacts.committedBy j with hsame | ⟨-, hmore⟩
    · rw [hsame] at hrow
      exact List.mem_append_left _ (h.committed j row hrow)
    · rw [hmore] at hrow
      rcases List.mem_append.mp hrow with hrow | hrow
      · exact List.mem_append_left _ (h.committed j row hrow)
      · exact List.mem_append_right _ hrow
  increasing := by
    intro j
    by_cases hj : who = some j
    · exact (hown j hj).1
    · rw [(hacts.others j hj).1]
      exact h.increasing j
  behind := by
    intro j
    by_cases hj : who = some j
    · exact (hown j hj).2.1
    · rw [(hacts.others j hj).1, (hacts.others j hj).2.2]
      exact h.behind j
  adopting := by
    intro j request staged hwork row hrow hpeer
    rcases hacts.peerRow_cases hpeer with hpeer | ⟨hj, added, hadded, hseq⟩
    · by_cases hj : who = some j
      · -- The batch is new, and the row of a peer was there before.
        rw [(hown j hj).2.2 request staged hwork] at hrow
        obtain ⟨held, hheld, hsame⟩ := h.peerRow_mem hpeer
        have hlt := (hacts.behind h.placed hplaced hrow).1 held hheld
        omega
      · rw [(hacts.others j hj).2.1] at hwork
        exact h.adopting j request staged hwork row hrow hpeer
    · rw [(hacts.others j hj).2.1] at hwork
      have hat := h.placed.work j
      rw [hwork] at hat
      have hlt := (hacts.behind h.placed hplaced hadded).1 row (hat.2.batch row hrow)
      omega

theorem Tracked.complete_iff (h : Tracked codec before) (hacts : Acts before after who new)
    (hplaced : Placed codec after.cluster) (hcomplete : before.Complete) :
    after.Complete ↔ ∀ i, who = some i → ∀ seq, before.PeerRow i seq →
      seq ≤ (after.cluster.memory i).lastSeq → seq ∈ after.handled i := by
  constructor
  · intro hafter i _ seq hpeer hle
    exact hafter i seq (hacts.peerRow hpeer) hle
  · intro hown i seq hpeer hle
    by_cases hi : who = some i
    · rcases hacts.peerRow_cases hpeer with hpeer | ⟨hne, -⟩
      · exact hown i hi seq hpeer hle
      · exact absurd hi hne
    · obtain ⟨hhandled, -, hmemory⟩ := hacts.others i hi
      rw [hhandled]
      rw [hmemory] at hle
      rcases hacts.peerRow_cases hpeer with hpeer | ⟨-, row, hrow, hseq⟩
      · exact hcomplete i seq hpeer hle
      · have hlt := (hacts.behind h.placed hplaced hrow).2 i
        omega

/-- What has been returned is what the statement counts. -/
theorem Tracked.returnsOnce_iff (h : Tracked codec before) :
    before.ReturnsOnce ↔ before.Complete := by
  have hcount : ∀ i seq, before.timesReturned i seq =
      ((syncedEntries (before.answers i)).map LedgerEntry.seq).count seq := by
    intro i seq
    unfold Observed.timesReturned
    rw [List.count, List.countP_map]
    rfl
  have hsplit : ∀ i, before.handled i = (syncedEntries (before.answers i)).map LedgerEntry.seq ++
      (before.inHand i).map LedgerEntry.seq := by
    intro i
    exact List.map_append
  have honce : ∀ i seq, before.timesReturned i seq ≤ 1 := by
    intro i seq
    have hincreasing := h.increasing i
    rw [hsplit, List.pairwise_append] at hincreasing
    rw [hcount]
    exact List.nodup_iff_count_le_one.mp (hincreasing.1.imp fun hlt => ne_of_lt hlt) seq
  constructor
  · intro hreturns i seq hpeer hle
    rw [hsplit, List.mem_append]
    by_cases hahead : before.Ahead i seq
    · rcases hahead with hlt | ⟨entry, hentry, hseq⟩
      · omega
      · right
        rw [← hseq]
        exact List.mem_map_of_mem hentry
    · left
      have hone := (hreturns i seq hpeer).2 hahead
      rw [hcount] at hone
      exact List.count_pos_iff.mp (by omega)
  · intro hcomplete i seq hpeer
    refine ⟨honce i seq, ?_⟩
    intro hahead
    have hle : seq ≤ (before.cluster.memory i).lastSeq := by
      by_contra hlt
      exact hahead (Or.inl (by omega))
    have hmem := hcomplete i seq hpeer hle
    rw [hsplit, List.mem_append] at hmem
    rcases hmem with hmem | hmem
    · have hpos := List.count_pos_iff.mpr hmem
      have hatMost := honce i seq
      rw [hcount] at hatMost ⊢
      omega
    · obtain ⟨entry, hentry, hseq⟩ := List.mem_map.mp hmem
      exact absurd (Or.inr ⟨entry, hentry, hseq⟩) hahead

end Handled

/-! ## One step -/

section Step

variable {ι : Type} {codec : Codec} {before after : Observed ι} {cluster : Cluster ι} {i : ι}

theorem handled_eq : before.handled i = (syncedEntries (before.answers i)).map LedgerEntry.seq ++
    (before.inHand i).map LedgerEntry.seq := List.map_append

theorem handled_congr (hanswers : after.answers i = before.answers i)
    (hfolded : after.folded i = before.folded i)
    (hwork : after.cluster.work i = before.cluster.work i) :
    after.handled i = before.handled i := by
  unfold Observed.handled Observed.inHand
  rw [hanswers, hfolded, hwork]

theorem inHand_sync (hwork : before.cluster.work i = .reading none) :
    before.inHand i = before.folded i := by
  unfold Observed.inHand
  rw [hwork]

theorem inHand_nil (hwork : before.cluster.work i ≠ .reading none) : before.inHand i = [] := by
  unfold Observed.inHand
  split
  · rename_i hsync
    exact absurd hsync hwork
  · rfl

theorem handled_outside (hbefore : before.cluster.work i ≠ .reading none)
    (hafter : after.cluster.work i ≠ .reading none)
    (hanswers : syncedEntries (after.answers i) = syncedEntries (before.answers i)) :
    after.handled i = before.handled i := by
  rw [handled_eq, handled_eq, inHand_nil hbefore, inHand_nil hafter, hanswers]

variable [Unicode]

/-- The rows a page moves `lastSeq` over. -/
theorem page_between {rows : List CoreEventRow} {memory next : Memory} {entries : List LedgerEntry}
    (hseqs : rows.Pairwise fun a b => a.seq < b.seq)
    (hpage : foldPage codec memory (nextPage rows memory.lastSeq) = (next, .ok entries)) :
    memory.lastSeq ≤ next.lastSeq ∧
      (∀ row ∈ nextPage rows memory.lastSeq, memory.lastSeq < row.seq ∧ row.seq ≤ next.lastSeq) ∧
      (∀ row ∈ rows, row.seq ≤ next.lastSeq →
        row.seq ≤ memory.lastSeq ∨ row ∈ nextPage rows memory.lastSeq) ∧
      (entries.map LedgerEntry.seq).Pairwise (· < ·) := by
  obtain ⟨hupTo, hle, -, -⟩ := upTo_nextPage hseqs memory.lastSeq
  have hsub : (nextPage rows memory.lastSeq).Sublist rows :=
    (List.take_sublist _ _).trans List.filter_sublist
  rcases foldPage_cases hpage with ⟨error, hresult, -⟩ | ⟨outcomes, -, hlastSeq, -, -, -⟩
  · cases hresult
  · rw [← hlastSeq] at hupTo hle
    refine ⟨hle, ?_, ?_, ?_⟩
    · intro row hrow
      have hahead := (List.mem_filter.mp (List.mem_of_mem_take hrow)).2
      have hread : row ∈ upTo rows next.lastSeq := by
        rw [hupTo]
        exact List.mem_append_right _ hrow
      exact ⟨of_decide_eq_true hahead, (mem_upTo.mp hread).2⟩
    · intro row hrow hrowLe
      have hread : row ∈ upTo rows next.lastSeq := mem_upTo.mpr ⟨hrow, hrowLe⟩
      rw [hupTo, List.mem_append] at hread
      exact hread.imp_left fun hbefore => (mem_upTo.mp hbefore).2
    · rw [foldPage_seqs hpage, List.pairwise_map]
      exact hseqs.sublist hsub

variable [DecidableEq ι]

theorem Tracked.quiet (h : Tracked codec before) {who : Option ι} {new : List CoreEventRow}
    (hacts : Acts before after who new) (hplaced : Placed codec after.cluster)
    (hsame : ∀ i, who = some i → after.handled i = before.handled i ∧
      (after.cluster.memory i).lastSeq = (before.cluster.memory i).lastSeq ∧
      ∀ request staged, after.cluster.work i = .appending request (.committed staged) →
        staged.rows = new) :
    Tracked codec after ∧ (before.Complete → after.Complete) := by
  constructor
  · refine h.next hacts hplaced ?_
    intro i hi
    obtain ⟨hhandled, hlastSeq, hwork⟩ := hsame i hi
    rw [hhandled, hlastSeq]
    exact ⟨h.increasing i, h.behind i, hwork⟩
  · intro hcomplete
    refine (h.complete_iff hacts hplaced hcomplete).mpr ?_
    intro i hi seq hpeer hle
    obtain ⟨hhandled, hlastSeq, -⟩ := hsame i hi
    rw [hlastSeq] at hle
    rw [hhandled]
    exact hcomplete i seq hpeer hle

variable {action : Action ι} {new : List CoreEventRow}

theorem acts_of_stepped (hstepped : before.cluster.Stepped codec action cluster)
    (hrows : cluster.rows = before.cluster.rows ++ new)
    (hcommitted : (before.note codec cluster action).committed = before.committed ∨
      ∃ i request, action.who = some i ∧ (before.note codec cluster action).committed =
        before.committed ++ [(i, ⟨request, new⟩)]) :
    Acts before (before.note codec cluster action) action.who new where
  rows := by rw [note_cluster, hrows]
  committed := hcommitted
  others := by
    intro j hj
    have hnoted : (before.note codec cluster action).answers j = before.answers j ∧
        (before.note codec cluster action).folded j = before.folded j ∧ _ := note_others hj
    obtain ⟨hwork, hmemory⟩ := hstepped.others hj
    have hcluster : (before.note codec cluster action).cluster = cluster := note_cluster action
    rw [hcluster]
    refine ⟨handled_congr hnoted.1 hnoted.2.1 ?_, hwork, hmemory⟩
    rw [hcluster]
    exact hwork

theorem Tracked.drop (h : Tracked codec before) (hacts : Acts before after (some i) [])
    (hplaced : Placed codec after.cluster) (hanswers : after.answers i = before.answers i)
    (hidle : after.cluster.work i = .idle)
    (hlastSeq : (after.cluster.memory i).lastSeq = (before.cluster.memory i).lastSeq) :
    Tracked codec after ∧ (before.Complete →
      ((∀ entry ∈ before.inHand i, ¬ before.PeerRow i entry.seq) ↔ after.Complete)) := by
  have hnil : after.inHand i = [] := inHand_nil (by rw [hidle]; exact Work.noConfusion)
  have hhandled : after.handled i = (syncedEntries (before.answers i)).map LedgerEntry.seq := by
    rw [handled_eq, hnil, hanswers, List.map_nil, List.append_nil]
  have hincreasing := h.increasing i
  have hbehind := h.behind i
  rw [handled_eq] at hincreasing hbehind
  have hpairs := List.pairwise_append.mp hincreasing
  constructor
  · refine h.next hacts hplaced ?_
    rintro j ⟨⟩
    rw [hhandled, hlastSeq]
    refine ⟨hpairs.1, fun seq hseq => hbehind seq (List.mem_append_left _ hseq), ?_⟩
    intro request staged hwork
    rw [hidle] at hwork
    cases hwork
  · intro hcomplete
    rw [h.complete_iff hacts hplaced hcomplete]
    constructor
    · rintro hhands j ⟨⟩ seq hpeer hle
      rw [hlastSeq] at hle
      have hmem := hcomplete i seq hpeer hle
      rw [handled_eq, List.mem_append] at hmem
      rw [hhandled]
      rcases hmem with hmem | hmem
      · exact hmem
      · obtain ⟨entry, hentry, rfl⟩ := List.mem_map.mp hmem
        exact absurd hpeer (hhands entry hentry)
    · intro hown entry hentry hpeer
      have hmem : entry.seq ∈ (before.inHand i).map LedgerEntry.seq := List.mem_map_of_mem hentry
      have hle := hbehind entry.seq (List.mem_append_right _ hmem)
      rw [← hlastSeq] at hle
      have hreturned := hown i rfl entry.seq hpeer hle
      rw [hhandled] at hreturned
      exact absurd (hpairs.2.2 entry.seq hreturned entry.seq hmem) (lt_irrefl _)

variable {next : Memory} {entries : List LedgerEntry}

/-- A page folded for `sync` comes behind what was handled before. -/
theorem Tracked.folds (h : Tracked codec before) (hacts : Acts before after (some i) [])
    (hplaced : Placed codec after.cluster)
    (hpage : foldPage codec (before.cluster.memory i)
      (nextPage before.cluster.rows (before.cluster.memory i).lastSeq) = (next, .ok entries))
    (hhandled : after.handled i = before.handled i ++ entries.map LedgerEntry.seq)
    (hmemory : after.cluster.memory i = next)
    (hwork : ∀ request phase, after.cluster.work i ≠ .appending request phase) :
    Tracked codec after ∧ (before.Complete → after.Complete) := by
  obtain ⟨hle, hahead, hover, hincreasing⟩ := page_between h.placed.ordered.seqs hpage
  have hseqs := foldPage_seqs hpage
  have hnew : ∀ seq ∈ entries.map LedgerEntry.seq,
      (before.cluster.memory i).lastSeq < seq ∧ seq ≤ next.lastSeq := by
    intro seq hseq
    rw [hseqs] at hseq
    obtain ⟨row, hrow, rfl⟩ := List.mem_map.mp hseq
    exact hahead row hrow
  constructor
  · refine h.next hacts hplaced ?_
    rintro j ⟨⟩
    rw [hhandled, hmemory]
    refine ⟨?_, ?_, fun request staged hphase => absurd hphase (hwork _ _)⟩
    · rw [List.pairwise_append]
      refine ⟨h.increasing i, hincreasing, ?_⟩
      intro old hold seq hseq
      exact (h.behind i old hold).trans_lt (hnew seq hseq).1
    · intro seq hseq
      rcases List.mem_append.mp hseq with hold | hseq
      · exact (h.behind i seq hold).trans hle
      · exact (hnew seq hseq).2
  · intro hcomplete
    refine (h.complete_iff hacts hplaced hcomplete).mpr ?_
    rintro j ⟨⟩ seq hpeer hseq
    rw [hmemory] at hseq
    rw [hhandled, List.mem_append]
    obtain ⟨row, hrow, rfl⟩ := h.peerRow_mem hpeer
    rcases hover row hrow hseq with hold | hpaged
    · exact Or.inl (hcomplete i row.seq hpeer hold)
    · refine Or.inr ?_
      rw [hseqs]
      exact List.mem_map_of_mem hpaged

/-- A page that anyone else has folded is handed to nobody. -/
theorem Tracked.skips (h : Tracked codec before) (hacts : Acts before after (some i) [])
    (hplaced : Placed codec after.cluster)
    (hpage : foldPage codec (before.cluster.memory i)
      (nextPage before.cluster.rows (before.cluster.memory i).lastSeq) = (next, .ok entries))
    (hhandled : after.handled i = before.handled i) (hmemory : after.cluster.memory i = next)
    (hwork : ∀ request staged, after.cluster.work i ≠ .appending request (.committed staged)) :
    Tracked codec after ∧ (before.Complete →
      ((∀ row ∈ nextPage before.cluster.rows (before.cluster.memory i).lastSeq,
        ¬ before.PeerRow i row.seq) ↔ after.Complete)) := by
  obtain ⟨hle, hahead, hover, -⟩ := page_between h.placed.ordered.seqs hpage
  constructor
  · refine h.next hacts hplaced ?_
    rintro j ⟨⟩
    rw [hhandled, hmemory]
    exact ⟨h.increasing i, fun seq hseq => (h.behind i seq hseq).trans hle,
      fun request staged hphase => absurd hphase (hwork _ _)⟩
  · intro hcomplete
    rw [h.complete_iff hacts hplaced hcomplete]
    constructor
    · rintro hhands j ⟨⟩ seq hpeer hseq
      rw [hmemory] at hseq
      rw [hhandled]
      obtain ⟨row, hrow, rfl⟩ := h.peerRow_mem hpeer
      rcases hover row hrow hseq with hold | hpaged
      · exact hcomplete i row.seq hpeer hold
      · exact absurd hpeer (hhands row hpaged)
    · intro hown row hrow hpeer
      obtain ⟨hlt, hrowLe⟩ := hahead row hrow
      rw [← hmemory] at hrowLe
      have hmem := hown i rfl row.seq hpeer hrowLe
      rw [hhandled] at hmem
      exact absurd (h.behind i row.seq hmem) (not_le_of_gt hlt)

/-- A batch that is adopted moves `lastSeq` over its own rows only. -/
theorem Tracked.adopts (h : Tracked codec before) {request : Request} {staged : Staging}
    (hwork : before.cluster.work i = .appending request (.committed staged))
    (hacts : Acts before after (some i) []) (hplaced : Placed codec after.cluster)
    (hhandled : after.handled i = before.handled i) (hidle : after.cluster.work i = .idle)
    (hlastSeq : (after.cluster.memory i).lastSeq =
      max (before.cluster.memory i).lastSeq staged.seq) :
    Tracked codec after ∧ (before.Complete → after.Complete) := by
  have hat := h.placed.work i
  rw [hwork] at hat
  constructor
  · refine h.next hacts hplaced ?_
    rintro j ⟨⟩
    rw [hhandled, hlastSeq]
    refine ⟨h.increasing i, fun seq hseq => (h.behind i seq hseq).trans (le_max_left _ _), ?_⟩
    intro request staged hphase
    rw [hidle] at hphase
    cases hphase
  · intro hcomplete
    refine (h.complete_iff hacts hplaced hcomplete).mpr ?_
    rintro j ⟨⟩ seq hpeer hseq
    rw [hlastSeq] at hseq
    rw [hhandled]
    by_cases hold : seq ≤ (before.cluster.memory i).lastSeq
    · exact hcomplete i seq hpeer hold
    · obtain ⟨row, hrow, rfl⟩ := h.peerRow_mem hpeer
      have hmine := hat.2.own row hrow (by omega) (by omega)
      exact absurd hpeer (h.adopting i request staged hwork row hmine)

theorem thrown_lastSeq {memory : Memory} {page : List CoreEventRow} {error : LedgerError}
    (h : foldPage codec memory page = (next, .error error)) : next.lastSeq = memory.lastSeq := by
  rcases foldPage_cases h with ⟨-, -, hsame⟩ | ⟨-, -, -, -, -, hresult⟩
  · rw [hsame]
  · cases hresult

theorem hands_thrown {error : LedgerError} (h : before.nextFold codec i = .error error) :
    before.Hands codec (.act (.page i)) =
      ∀ entry ∈ before.inHand i, ¬ before.PeerRow i entry.seq := by
  simp only [Observed.Hands]
  rw [h]

theorem hands_synced (h : before.nextFold codec i = .ok entries)
    (hwork : before.cluster.work i = .reading none) :
    before.Hands codec (.act (.page i)) = True := by
  simp only [Observed.Hands]
  rw [h, hwork]

theorem hands_skipped (h : before.nextFold codec i = .ok entries)
    (hwork : (∃ through, before.cluster.work i = .reading (some through)) ∨
      ∃ request, before.cluster.work i = .appending request .catchingUp) :
    before.Hands codec (.act (.page i)) =
      ∀ row ∈ nextPage before.cluster.rows (before.cluster.memory i).lastSeq,
        ¬ before.PeerRow i row.seq := by
  simp only [Observed.Hands]
  rcases hwork with ⟨through, hwork⟩ | ⟨request, hwork⟩
  · rw [h, hwork]
  · rw [h, hwork]

/-- What a step has to show: the invariant, and that it keeps the rows of peers handled exactly when
it loses none. -/
def Settles (codec : Codec) (before : Observed ι) (occurrence : Occurrence ι)
    (after : Observed ι) : Prop :=
  Tracked codec after ∧
    (before.Complete → (before.Hands codec occurrence ↔ after.Complete))

theorem Tracked.page_thrown (h : Tracked codec before) {error : LedgerError}
    (hacts : Acts before after (some i) []) (hplaced : Placed codec after.cluster)
    (hpage : foldPage codec (before.cluster.memory i)
      (nextPage before.cluster.rows (before.cluster.memory i).lastSeq) = (next, .error error))
    (hanswers : after.answers i = before.answers i) (hmemory : after.cluster.memory i = next)
    (hidle : after.cluster.work i = .idle) : Settles codec before (.act (.page i)) after := by
  unfold Settles
  rw [hands_thrown (nextFold_eq hpage)]
  refine h.drop hacts hplaced hanswers hidle ?_
  rw [hmemory]
  exact thrown_lastSeq hpage

theorem Tracked.page_synced (h : Tracked codec before) (hacts : Acts before after (some i) [])
    (hplaced : Placed codec after.cluster)
    (hpage : foldPage codec (before.cluster.memory i)
      (nextPage before.cluster.rows (before.cluster.memory i).lastSeq) = (next, .ok entries))
    (hwork : before.cluster.work i = .reading none)
    (hhandled : syncedEntries (after.answers i) ++ after.inHand i =
      syncedEntries (before.answers i) ++ (before.folded i ++ entries))
    (hmemory : after.cluster.memory i = next)
    (hphase : ∀ request phase, after.cluster.work i ≠ .appending request phase) :
    Settles codec before (.act (.page i)) after := by
  have hmore : after.handled i = before.handled i ++ entries.map LedgerEntry.seq := by
    unfold Observed.handled
    rw [hhandled, inHand_sync hwork, ← List.append_assoc, List.map_append]
  obtain ⟨htracked, hcomplete⟩ := h.folds hacts hplaced hpage hmore hmemory hphase
  unfold Settles
  rw [hands_synced (nextFold_eq hpage) hwork]
  exact ⟨htracked, fun hbefore => ⟨fun _ => hcomplete hbefore, fun _ => trivial⟩⟩

theorem Tracked.page_skipped (h : Tracked codec before) (hacts : Acts before after (some i) [])
    (hplaced : Placed codec after.cluster)
    (hpage : foldPage codec (before.cluster.memory i)
      (nextPage before.cluster.rows (before.cluster.memory i).lastSeq) = (next, .ok entries))
    (hwork : (∃ through, before.cluster.work i = .reading (some through)) ∨
      ∃ request, before.cluster.work i = .appending request .catchingUp)
    (hanswers : syncedEntries (after.answers i) = syncedEntries (before.answers i))
    (hmemory : after.cluster.memory i = next) (hreading : after.cluster.work i ≠ .reading none)
    (hphase : ∀ request staged, after.cluster.work i ≠ .appending request (.committed staged)) :
    Settles codec before (.act (.page i)) after := by
  have hbefore : before.cluster.work i ≠ .reading none := by
    rcases hwork with ⟨through, hwork⟩ | ⟨request, hwork⟩
    · rw [hwork]
      rintro ⟨⟩
    · rw [hwork]
      rintro ⟨⟩
  unfold Settles
  rw [hands_skipped (nextFold_eq hpage) hwork]
  exact h.skips hacts hplaced hpage (handled_outside hbefore hreading hanswers) hmemory hphase

/-- Folding a page: `sync` hands it to its caller, anyone else to nobody. -/
theorem Tracked.page (h : Tracked codec before)
    (hstepped : before.cluster.Stepped codec (.page i) cluster) (hplaced : Placed codec cluster) :
    Settles codec before (.act (.page i)) (before.note codec cluster (.page i)) := by
  have hrows : cluster.rows = before.cluster.rows := by
    cases hstepped with
    | receiptRefused haction => rcases haction with haction | haction <;> cases haction
    | _ => rfl
  have hacts : Acts before (before.note codec cluster (.page i)) (some i) [] :=
    acts_of_stepped hstepped (by rw [hrows, List.append_nil]) (Or.inl notePage_rest.2.1)
  have hcluster : (before.note codec cluster (.page i)).cluster = cluster := note_cluster _
  rw [← hcluster] at hplaced
  have hgive {observed : Observed ι} {request : Request} {batch : List LedgerEntry} :
      syncedEntries ((observed.give i (.appended request batch true)).answers i) =
        syncedEntries (observed.answers i) := by
    unfold Observed.give
    dsimp only
    rw [Function.update_self, syncedEntries_append]
    exact List.append_nil _
  cases hstepped with
  | @readingThrown _ through next error hwork hpage =>
    have hnote : before.note codec ((before.cluster.setMemory i next).setWork i .idle) (.page i) =
        { before with cluster := (before.cluster.setMemory i next).setWork i .idle } :=
      notePage_thrown (nextFold_eq hpage)
    rw [hnote] at hacts hplaced ⊢
    exact h.page_thrown hacts hplaced hpage rfl (setMemory_self _ _ _) (setWork_self _ _ _)
  | @catchUpThrown _ request next error hwork hpage =>
    have hnote : before.note codec ((before.cluster.setMemory i next).rollback i []) (.page i) =
        { before with cluster := (before.cluster.setMemory i next).rollback i [] } :=
      notePage_thrown (nextFold_eq hpage)
    rw [hnote] at hacts hplaced ⊢
    exact h.page_thrown hacts hplaced hpage rfl (setMemory_self _ _ _) (setWork_self _ _ _)
  | @paged _ next entries hwork hpage hfull =>
    have hnote : before.note codec (before.cluster.setMemory i next) (.page i) =
        before.saw (before.cluster.setMemory i next) i entries :=
      notePage_same (nextFold_eq hpage) rfl hwork
    have hself : (before.cluster.setMemory i next).memory i = next := setMemory_self _ _ _
    rw [hnote] at hacts hplaced ⊢
    rcases hwork with ⟨through, hwork⟩ | ⟨request, hwork⟩
    · cases through with
      | none =>
        refine h.page_synced hacts hplaced hpage hwork ?_ hself fun request phase hphase => ?_
        · have hsync : (before.saw (before.cluster.setMemory i next) i entries).cluster.work i =
              .reading none := hwork
          rw [inHand_sync hsync]
          unfold Observed.saw
          dsimp only
          rw [Function.update_self]
        · cases hwork.symm.trans hphase
      | some n =>
        refine h.page_skipped hacts hplaced hpage (Or.inl ⟨n, hwork⟩) rfl hself ?_ ?_
        · intro hreading
          cases hwork.symm.trans hreading
        · intro request staged hphase
          cases hwork.symm.trans hphase
    · refine h.page_skipped hacts hplaced hpage (Or.inr ⟨request, hwork⟩) rfl hself ?_ ?_
      · intro hreading
        cases hwork.symm.trans hreading
      · intro request staged hphase
        cases hwork.symm.trans hphase
  | @read _ through next entries hwork hpage hlast =>
    have hself : ((before.cluster.setMemory i next).setWork i .idle).memory i = next :=
      setMemory_self _ _ _
    have hidle : ((before.cluster.setMemory i next).setWork i .idle).work i = .idle :=
      setWork_self _ _ _
    cases through with
    | none =>
      have hnote : before.note codec ((before.cluster.setMemory i next).setWork i .idle) (.page i) =
          (before.saw ((before.cluster.setMemory i next).setWork i .idle) i entries).give i
            (.synced (before.folded i ++ entries)) :=
        notePage_synced (nextFold_eq hpage) hwork hidle
      rw [hnote] at hacts hplaced ⊢
      refine h.page_synced hacts hplaced hpage hwork ?_ hself fun request phase hphase => ?_
      · rw [inHand_nil (fun hreading => by cases hidle.symm.trans hreading), List.append_nil]
        unfold Observed.give
        dsimp only
        rw [Function.update_self, syncedEntries_append, syncedEntries_synced]
        rfl
      · cases hidle.symm.trans hphase
    | some n =>
      have hnote : before.note codec ((before.cluster.setMemory i next).setWork i .idle) (.page i) =
          before.saw ((before.cluster.setMemory i next).setWork i .idle) i entries :=
        notePage_through (nextFold_eq hpage) hwork
      rw [hnote] at hacts hplaced ⊢
      exact h.page_skipped hacts hplaced hpage (Or.inl ⟨n, hwork⟩) rfl hself
        (fun hreading => by cases hidle.symm.trans hreading)
        fun request staged hphase => by cases hidle.symm.trans hphase
  | @keyRefused _ request next entries error hwork hpage hlast hkey =>
    have hself : ((before.cluster.setMemory i next).rollback i []).memory i = next :=
      setMemory_self _ _ _
    have hidle : ((before.cluster.setMemory i next).rollback i []).work i = .idle :=
      setWork_self _ _ _
    have hnote : before.note codec ((before.cluster.setMemory i next).rollback i []) (.page i) =
        before.saw ((before.cluster.setMemory i next).rollback i []) i entries :=
      notePage_refused (nextFold_eq hpage) hwork hidle (by rw [hself]; exact hkey)
    rw [hnote] at hacts hplaced ⊢
    exact h.page_skipped hacts hplaced hpage (Or.inr ⟨request, hwork⟩) rfl hself
      (fun hreading => by cases hidle.symm.trans hreading)
      fun request staged hphase => by cases hidle.symm.trans hphase
  | @replayed _ request next entries batch hwork hpage hlast hkey =>
    generalize hcluster' : ({ (before.cluster.setMemory i next).setWork i .idle with
      lock := none, calls := .replayed :: before.cluster.calls } : Cluster ι) = cluster at *
    have hself : cluster.memory i = next := by
      rw [← hcluster']
      exact setMemory_self _ _ _
    have hidle : cluster.work i = .idle := by
      rw [← hcluster']
      exact setWork_self _ _ _
    have hkeyAfter : checkRetryKey codec request cluster.rows cluster.receipts
        (cluster.memory i).state = .ok (.replayed batch) := by
      rw [hself, ← hcluster']
      exact hkey
    have hnote : before.note codec cluster (.page i) =
        (before.saw cluster i entries).give i (.appended request batch true) :=
      notePage_replayed (nextFold_eq hpage) hwork hidle hkeyAfter
    rw [hnote] at hacts hplaced ⊢
    exact h.page_skipped hacts hplaced hpage (Or.inr ⟨request, hwork⟩) hgive hself
      (fun hreading => by cases hidle.symm.trans hreading)
      fun request staged hphase => by cases hidle.symm.trans hphase
  | @begun _ request next entries hwork hpage hlast hkey =>
    generalize hstaging : Work.appending request
      (.staging ⟨[], next.state, next.lastAtMs, next.lastSeq⟩ request.builds) = work at *
    have hself : ((before.cluster.setMemory i next).setWork i work).memory i = next :=
      setMemory_self _ _ _
    have hwork' : ((before.cluster.setMemory i next).setWork i work).work i = work :=
      setWork_self _ _ _
    have hnote : before.note codec ((before.cluster.setMemory i next).setWork i work) (.page i) =
        (before.saw ((before.cluster.setMemory i next).setWork i work) i entries).setResults i [] :=
      notePage_begun (nextFold_eq hpage) hwork (hwork'.trans hstaging.symm)
    rw [hnote] at hacts hplaced ⊢
    rw [← hstaging] at hwork'
    refine h.page_skipped hacts hplaced hpage (Or.inr ⟨request, hwork⟩) rfl hself ?_ ?_
    · intro hreading
      cases hwork'.symm.trans (hstaging ▸ hreading)
    · intro request staged hphase
      cases hwork'.symm.trans (hstaging ▸ hphase)
  | receiptRefused haction => rcases haction with haction | haction <;> cases haction

theorem Tracked.settles (h : Tracked codec before) {occurrence : Occurrence ι} {who : Option ι}
    (hacts : Acts before after who new) (hplaced : Placed codec after.cluster)
    (hhands : before.Hands codec occurrence)
    (hsame : ∀ i, who = some i → after.handled i = before.handled i ∧
      (after.cluster.memory i).lastSeq = (before.cluster.memory i).lastSeq ∧
      ∀ request staged, after.cluster.work i = .appending request (.committed staged) →
        staged.rows = new) : Settles codec before occurrence after := by
  obtain ⟨htracked, hcomplete⟩ := h.quiet hacts hplaced hsame
  exact ⟨htracked, fun hbefore => ⟨fun _ => hcomplete hbefore, fun _ => hhands⟩⟩

/-- An action of an instance that leaves its memory alone and is not at work for `sync`. -/
theorem Tracked.outside (h : Tracked codec before)
    (hstepped : before.cluster.Stepped codec action cluster) (hplaced : Placed codec cluster)
    (hwho : action.who = some i) (hrows : cluster.rows = before.cluster.rows ++ new)
    (hcommitted : (before.note codec cluster action).committed = before.committed ∨
      ∃ request, (before.note codec cluster action).committed =
        before.committed ++ [(i, ⟨request, new⟩)])
    (hanswers : syncedEntries ((before.note codec cluster action).answers i) =
      syncedEntries (before.answers i))
    (hmemory : (cluster.memory i).lastSeq = (before.cluster.memory i).lastSeq)
    (hhands : before.Hands codec (.act action)) (hwork : before.cluster.work i ≠ .reading none)
    {work : Work} (hnext : cluster.work i = work)
    (hreading : work ≠ .reading none ∨ (before.note codec cluster action).folded i = [])
    (hphase : ∀ request staged, work = .appending request (.committed staged) →
      staged.rows = new) :
    Settles codec before (.act action) (before.note codec cluster action) := by
  have hcluster : (before.note codec cluster action).cluster = cluster := note_cluster action
  have hacts : Acts before (before.note codec cluster action) action.who new := by
    refine acts_of_stepped hstepped hrows ?_
    rcases hcommitted with hsame | ⟨request, hmore⟩
    · exact Or.inl hsame
    · exact Or.inr ⟨i, request, hwho, hmore⟩
  have hafter : (before.note codec cluster action).inHand i = [] := by
    by_cases hsync : (before.note codec cluster action).cluster.work i = .reading none
    · rcases hreading with hne | hfolded
      · rw [hcluster] at hsync
        exact absurd (hnext.symm.trans hsync) hne
      · rw [inHand_sync hsync, hfolded]
    · exact inHand_nil hsync
  refine h.settles hacts (by rw [hcluster]; exact hplaced) hhands ?_
  intro j hj
  cases hwho.symm.trans hj
  rw [hcluster, handled_eq, handled_eq, inHand_nil hwork, hafter, hanswers]
  exact ⟨rfl, hmemory, fun request staged heq => hphase request staged (hnext.symm.trans heq)⟩

theorem hands_fail : before.Hands codec (.act (.fail i)) =
    ∀ entry ∈ before.inHand i, ¬ before.PeerRow i entry.seq := rfl

/-- A step of the cluster. -/
theorem Tracked.act (h : Tracked codec before)
    (hstep : before.cluster.step codec action = some cluster) :
    Settles codec before (.act action) (before.note codec cluster action) := by
  have hplaced := h.placed.step hstep
  have hstepped := Cluster.stepped hstep
  have hnil := (List.append_nil before.cluster.rows).symm
  have hcases := hstepped
  cases hcases with
  | foreign hfree hinsert =>
    obtain ⟨new, hrows, -⟩ := insertAll_ok h.placed.ordered h.placed.bounded hinsert
    refine h.settles (acts_of_stepped hstepped hrows (Or.inl rfl)) hplaced trivial ?_
    rintro i ⟨⟩
  | sync hwork =>
    refine h.outside hstepped hplaced rfl hnil (Or.inl rfl) rfl rfl trivial
      (by rw [hwork]; rintro ⟨⟩) (setWork_self _ _ _) (Or.inr (Function.update_self _ _ _)) ?_
    rintro request staged ⟨⟩
  | covered hwork =>
    refine h.outside hstepped hplaced rfl hnil (Or.inl rfl) rfl rfl trivial
      (by rw [hwork]; rintro ⟨⟩) hwork (Or.inr (Function.update_self _ _ _)) ?_
    rintro request staged ⟨⟩
  | foldThrough through hwork =>
    refine h.outside hstepped hplaced rfl hnil (Or.inl rfl) rfl rfl trivial
      (by rw [hwork]; rintro ⟨⟩) (setWork_self _ _ _) (Or.inr (Function.update_self _ _ _)) ?_
    rintro request staged ⟨⟩
  | readingThrown | catchUpThrown | paged | read | keyRefused | replayed | begun =>
    exact h.page hstepped hplaced
  | append hwork =>
    refine h.outside hstepped hplaced rfl hnil (Or.inl rfl) rfl rfl trivial
      (by rw [hwork]; rintro ⟨⟩) (setWork_self _ _ _) (Or.inl (by rintro ⟨⟩)) ?_
    rintro request staged ⟨⟩
  | lock hwork hfree =>
    refine h.outside hstepped hplaced rfl hnil (Or.inl rfl) rfl rfl trivial
      (by rw [hwork]; rintro ⟨⟩) (setWork_self _ _ _) (Or.inl (by rintro ⟨⟩)) ?_
    rintro request staged ⟨⟩
  | @staged i draw request staged next build remaining hwork hdraw hnext =>
    have hself := setWork_self { before.cluster with sequence := draw.seq } i
      (.appending request (.staging next remaining))
    refine h.outside hstepped hplaced rfl hnil (Or.inl ?_) ?_ rfl trivial
      (by rw [hwork]; rintro ⟨⟩) hself (Or.inl (by rintro ⟨⟩)) ?_
    · rw [note_staged hwork hself]
      rfl
    · rw [note_staged hwork hself]
      rfl
    · rintro request staged ⟨⟩
  | @buildRefused i draw request staged build remaining hwork hdraw =>
    refine h.outside hstepped hplaced rfl hnil (Or.inl ?_) ?_ rfl trivial
      (by rw [hwork]; rintro ⟨⟩) (rollback_self _ _ _) (Or.inl (by rintro ⟨⟩)) ?_
    · rw [note_buildRefused (rollback_self _ _ _)]
    · rw [note_buildRefused (rollback_self _ _ _)]
    · rintro request staged ⟨⟩
  | @committed i request staged receipts hwork hreceipts =>
    have hself := setWork_self (before.cluster.land staged receipts) i
      (.appending request (.committed staged))
    refine h.outside hstepped hplaced rfl rfl (Or.inr ⟨request, ?_⟩) ?_ rfl trivial
      (by rw [hwork]; rintro ⟨⟩) hself (Or.inl (by rintro ⟨⟩)) ?_
    · rw [note_committed (Or.inl rfl) hwork hreceipts]
      rfl
    · rw [note_committed (Or.inl rfl) hwork hreceipts]
      rfl
    · rintro request staged ⟨⟩
      rfl
  | @receiptRefused i action request staged error haction hwork hreceipts =>
    have hself := setWork_self before.cluster i .idle
    refine h.outside hstepped hplaced ?_ hnil (Or.inl ?_) ?_ rfl ?_
      (by rw [hwork]; rintro ⟨⟩) hself (Or.inl (by rintro ⟨⟩)) ?_
    · rcases haction with rfl | rfl <;> rfl
    · rw [note_receiptRefused haction hwork hreceipts]
    · rw [note_receiptRefused haction hwork hreceipts]
    · rcases haction with rfl | rfl <;> trivial
    · rintro request staged ⟨⟩
  | @adopted i request staged hwork =>
    generalize hnext : ({ (before.cluster.setMemory i { before.cluster.memory i with
        state := staged.state
        lastSeq := max (before.cluster.memory i).lastSeq staged.seq
        lastAtMs := max (before.cluster.memory i).lastAtMs staged.atMs }).setWork i .idle with
      calls := .returned request staged.rows :: before.cluster.calls } : Cluster ι) = cluster at *
    have hidle : cluster.work i = .idle := by
      rw [← hnext]
      exact setWork_self _ _ _
    have hlastSeq : (cluster.memory i).lastSeq = max (before.cluster.memory i).lastSeq staged.seq := by
      rw [← hnext]
      exact congrArg Memory.lastSeq (setMemory_self _ i _)
    have hrows : cluster.rows = before.cluster.rows ++ [] := by
      rw [← hnext]
      exact hnil
    have hcluster : (before.note codec cluster (.adopt i)).cluster = cluster := note_cluster _
    have hacts := acts_of_stepped hstepped hrows (Or.inl (by rw [note_adopted hwork]; rfl))
    have hhandled : (before.note codec cluster (.adopt i)).handled i = before.handled i := by
      refine handled_outside (by rw [hwork]; rintro ⟨⟩) (by rw [hcluster, hidle]; rintro ⟨⟩) ?_
      rw [note_adopted hwork]
      unfold Observed.give
      dsimp only
      rw [Function.update_self, syncedEntries_append]
      exact List.append_nil _
    rw [← hcluster] at hplaced hidle hlastSeq
    obtain ⟨htracked, hcomplete⟩ := h.adopts hwork hacts hplaced hhandled hidle hlastSeq
    exact ⟨htracked, fun hbefore => ⟨fun _ => hcomplete hbefore, fun _ => trivial⟩⟩
  | @readingFailed i through hwork =>
    have hacts : Acts before (before.note codec _ (.fail i)) (some i) [] :=
      acts_of_stepped hstepped hnil (Or.inl rfl)
    exact h.drop hacts hplaced rfl (setWork_self _ _ _) rfl
  | @callFailed i request hwork =>
    have hreading : before.cluster.work i ≠ .reading none := by
      rcases hwork with hwork | hwork
      · rw [hwork]
        rintro ⟨⟩
      · rw [hwork]
        rintro ⟨⟩
    refine h.outside hstepped hplaced rfl hnil (Or.inl rfl) rfl rfl ?_ hreading
      (setWork_self _ _ _) (Or.inl (by rintro ⟨⟩)) ?_
    · rw [hands_fail, inHand_nil hreading]
      exact fun entry hentry => absurd hentry List.not_mem_nil
    · rintro request staged ⟨⟩
  | @batchFailed i request staged remaining hwork =>
    have hreading : before.cluster.work i ≠ .reading none := by
      rw [hwork]
      rintro ⟨⟩
    refine h.outside hstepped hplaced rfl hnil (Or.inl rfl) rfl rfl ?_ hreading
      (setWork_self _ _ _) (Or.inl (by rintro ⟨⟩)) ?_
    · rw [hands_fail, inHand_nil hreading]
      exact fun entry hentry => absurd hentry List.not_mem_nil
    · rintro request staged ⟨⟩
  | @lost i request staged receipts hwork hreceipts =>
    have hself := setWork_self (before.cluster.land staged receipts) i .idle
    refine h.outside hstepped hplaced rfl rfl (Or.inr ⟨request, ?_⟩) ?_ rfl trivial
      (by rw [hwork]; rintro ⟨⟩) hself (Or.inl (by rintro ⟨⟩)) ?_
    · rw [note_committed (Or.inr rfl) hwork hreceipts]
      rfl
    · rw [note_committed (Or.inr rfl) hwork hreceipts]
      rfl
    · rintro request staged ⟨⟩

theorem Tracked.still (h : Tracked codec before) {occurrence : Occurrence ι}
    (hcluster : after.cluster = before.cluster) (hcommitted : after.committed = before.committed)
    (hanswers : ∀ j, syncedEntries (after.answers j) = syncedEntries (before.answers j))
    (hfolded : after.folded = before.folded) (hhands : before.Hands codec occurrence) :
    Settles codec before occurrence after := by
  have hacts : Acts before after none [] := by
    refine ⟨by rw [hcluster, List.append_nil], Or.inl hcommitted, ?_⟩
    intro j _
    refine ⟨?_, by rw [hcluster], by rw [hcluster]⟩
    unfold Observed.handled Observed.inHand
    rw [hanswers, hcluster, hfolded]
  refine h.settles hacts (by rw [hcluster]; exact h.placed) hhands ?_
  rintro j ⟨⟩

theorem Tracked.step (h : Tracked codec before) {occurrence : Occurrence ι}
    (hstep : before.step codec occurrence = some after) :
    Settles codec before occurrence after := by
  cases occurrence with
  | act action =>
    simp only [Observed.step] at hstep
    obtain ⟨cluster, hcluster, rfl⟩ := Option.map_eq_some_iff.mp hstep
    exact h.act hcluster
  | read i roomId roomSeq limit =>
    cases hstep
    exact h.still rfl rfl (fun _ => rfl) rfl trivial
  | answer i index =>
    simp only [Observed.step] at hstep
    split at hstep
    · cases hstep
    · split at hstep
      · cases hstep
        refine h.still rfl rfl ?_ rfl trivial
        intro j
        unfold Observed.give
        dsimp only
        by_cases hj : j = i
        · rw [hj, Function.update_self, syncedEntries_append]
          exact List.append_nil _
        · rw [Function.update_of_ne hj]
      · cases hstep

/-- Only the last page of a `sync` makes it return. -/
theorem note_synced (hstepped : before.cluster.Stepped codec action cluster)
    (hanswer : (before.note codec cluster action).answers i =
      before.answers i ++ [Answer.synced entries]) :
    ∃ next page, action = .page i ∧
      foldPage codec (before.cluster.memory i)
        (nextPage before.cluster.rows (before.cluster.memory i).lastSeq) = (next, .ok page) ∧
      (nextPage before.cluster.rows (before.cluster.memory i).lastSeq).length < pageSize ∧
      cluster = (before.cluster.setMemory i next).setWork i .idle := by
  by_cases hwho : action.who = some i
  · cases hstepped with
    | foreign => cases hwho
    | sync | covered | foldThrough | append | lock | readingFailed | callFailed | batchFailed =>
      exact absurd hanswer (answers_unchanged rfl)
    | staged hwork =>
      cases hwho
      rw [note_staged hwork (setWork_self _ _ _)] at hanswer
      exact absurd hanswer (answers_unchanged rfl)
    | buildRefused =>
      cases hwho
      rw [note_buildRefused (rollback_self _ _ _)] at hanswer
      exact absurd hanswer (answers_unchanged rfl)
    | committed hwork hreceipts =>
      rw [note_committed (Or.inl rfl) hwork hreceipts] at hanswer
      exact absurd hanswer (answers_unchanged rfl)
    | lost hwork hreceipts =>
      rw [note_committed (Or.inr rfl) hwork hreceipts] at hanswer
      exact absurd hanswer (answers_unchanged rfl)
    | receiptRefused haction hwork hreceipts =>
      rw [note_receiptRefused haction hwork hreceipts] at hanswer
      exact absurd hanswer (answers_unchanged rfl)
    | adopted hwork =>
      cases hwho
      rw [note_adopted hwork, give_answers] at hanswer
      cases List.append_cancel_left hanswer
    | readingThrown hwork hpage | catchUpThrown hwork hpage =>
      cases hwho
      simp only [Observed.note] at hanswer
      rw [notePage_thrown (nextFold_eq hpage)] at hanswer
      exact absurd hanswer (answers_unchanged rfl)
    | paged hwork hpage =>
      cases hwho
      simp only [Observed.note] at hanswer
      rw [notePage_same (nextFold_eq hpage) (by rfl) hwork] at hanswer
      exact absurd hanswer (answers_unchanged rfl)
    | @read _ through next page hwork hpage hlast =>
      cases hwho
      exact ⟨next, page, rfl, hpage, hlast, rfl⟩
    | @keyRefused _ request next page error hwork hpage hlast hkey =>
      cases hwho
      have hself : ((before.cluster.setMemory i next).rollback i []).memory i = next :=
        setMemory_self _ _ _
      simp only [Observed.note] at hanswer
      rw [notePage_refused (nextFold_eq hpage) hwork (rollback_self _ _ _)
        (by rw [hself]; exact hkey)] at hanswer
      exact absurd hanswer (answers_unchanged rfl)
    | @replayed _ request next page batch hwork hpage hlast hkey =>
      cases hwho
      generalize hcluster' : ({ (before.cluster.setMemory i next).setWork i .idle with
        lock := none, calls := .replayed :: before.cluster.calls } : Cluster ι) = cluster at *
      have hkeyAfter : checkRetryKey codec request cluster.rows cluster.receipts
          (cluster.memory i).state = .ok (.replayed batch) := by
        rw [← hcluster', show ((before.cluster.setMemory i next).setWork i .idle).memory i = next
          from setMemory_self _ _ _]
        exact hkey
      have hidle : cluster.work i = .idle := by
        rw [← hcluster']
        exact setWork_self _ _ _
      simp only [Observed.note] at hanswer
      rw [notePage_replayed (nextFold_eq hpage) hwork hidle hkeyAfter, give_answers] at hanswer
      cases List.append_cancel_left hanswer
    | begun hwork hpage =>
      cases hwho
      simp only [Observed.note] at hanswer
      rw [notePage_begun (nextFold_eq hpage) hwork (setWork_self _ _ _)] at hanswer
      exact absurd hanswer (answers_unchanged rfl)
  · exact absurd hanswer (answers_unchanged (note_others hwho).1)

/-- Nothing is ahead of a `sync` that has returned. -/
theorem Tracked.returned (h : Tracked codec before) {occurrence : Occurrence ι}
    (hstep : before.step codec occurrence = some after)
    (hanswer : after.answers i = before.answers i ++ [Answer.synced entries]) :
    ∀ row ∈ after.cluster.rows, ¬ after.Ahead i row.seq := by
  cases occurrence with
  | act action =>
    simp only [Observed.step] at hstep
    obtain ⟨cluster, hcluster, rfl⟩ := Option.map_eq_some_iff.mp hstep
    obtain ⟨next, page, rfl, hpage, hlast, hafter⟩ := note_synced (Cluster.stepped hcluster) hanswer
    have hmemory : cluster.memory i = next := by
      rw [hafter]
      exact setMemory_self _ _ _
    have hidle : cluster.work i = .idle := by
      rw [hafter]
      exact setWork_self _ _ _
    have hall : upTo before.cluster.rows next.lastSeq = before.cluster.rows := by
      obtain ⟨-, -, -, hshort⟩ := upTo_nextPage h.placed.ordered.seqs (before.cluster.memory i).lastSeq
      rcases foldPage_cases hpage with ⟨error, hresult, -⟩ | ⟨outcomes, -, hlastSeq, -⟩
      · cases hresult
      · rw [hlastSeq]
        exact hshort hlast
    rw [note_cluster]
    intro row hrow hahead
    rw [hafter] at hrow
    have hread : row ∈ upTo before.cluster.rows next.lastSeq := by
      rw [hall]
      exact hrow
    rcases hahead with hlt | ⟨entry, hentry, -⟩
    · rw [note_cluster, hmemory] at hlt
      exact absurd (mem_upTo.mp hread).2 (not_le_of_gt hlt)
    · rw [inHand_nil (by rw [note_cluster, hidle]; rintro ⟨⟩)] at hentry
      exact absurd hentry List.not_mem_nil
  | read j roomId roomSeq limit =>
    cases hstep
    exact absurd hanswer (answers_unchanged rfl)
  | answer j index =>
    simp only [Observed.step] at hstep
    split at hstep
    · cases hstep
    · split at hstep
      · cases hstep
        by_cases hj : i = j
        · rw [hj] at hanswer
          cases List.append_cancel_left ((give_answers _).symm.trans hanswer)
        · exact absurd hanswer (answers_unchanged (Function.update_of_ne hj _ _))
      · cases hstep

/-! ## Whole runs -/

omit [Unicode] [DecidableEq ι] in
theorem watching_handled : (watching cluster).handled i = [] := by
  have hnil : (watching cluster).inHand i = [] := by
    unfold Observed.inHand
    split
    · rfl
    · rfl
  rw [handled_eq, hnil]
  rfl

omit [Unicode] in
theorem watching_peerRow {seq : Nat} : ¬ (watching cluster).PeerRow i seq := by
  rintro ⟨j, -, row, hrow, -⟩
  exact absurd hrow List.not_mem_nil

theorem tracked_watching (h : Placed codec cluster) : Tracked codec (watching cluster) where
  placed := h
  committed := fun _ row hrow => absurd hrow List.not_mem_nil
  increasing := by
    intro i
    rw [watching_handled]
    exact List.Pairwise.nil
  behind := by
    intro i seq hseq
    rw [watching_handled] at hseq
    exact absurd hseq List.not_mem_nil
  adopting := fun _ _ _ _ _ _ => watching_peerRow

variable {last : Observed ι} {steps : List (Occurrence ι)}

/-- Over any run of instances that share a ledger, each row of a peer is returned by exactly one
`sync` exactly when no append and no `foldThrough` folds one and no `sync` that throws had one in
hand. A `sync` that returns leaves nothing ahead of itself. -/
theorem peer_rows_returned_once (codec : Codec) (h : cluster.Reached codec fun _ _ => True)
    (hrun : Runs.run (Observed.step codec) (watching cluster) steps = some last) :
    (Runs.Allowed (Observed.step codec) (Observed.Hands codec) (watching cluster) steps ↔
      Runs.Throughout (Observed.step codec) Observed.ReturnsOnce (watching cluster) steps) ∧
    ∀ occurrence after i entries, last.step codec occurrence = some after →
      after.answers i = last.answers i ++ [Answer.synced entries] →
      ∀ row ∈ after.cluster.rows, ¬ after.Ahead i row.seq := by
  have hstart := tracked_watching h.placed
  constructor
  · refine Runs.allowed_iff_throughout ?_ hstart ?_ hrun
    · intro before occurrence after htracked hstep
      obtain ⟨hnext, hsettled⟩ := htracked.step hstep
      refine ⟨hnext, ?_⟩
      rw [htracked.returnsOnce_iff, hnext.returnsOnce_iff]
      exact hsettled
    · intro i seq hpeer
      exact absurd hpeer watching_peerRow
  · intro occurrence after i entries hstep hanswer
    have htracked : Tracked codec last :=
      Runs.invariant (fun hbefore hnext => (hbefore.step hnext).1) hstart hrun
    exact htracked.returned hstep hanswer

end Step

/-! ## A row that an append folds -/

section Swallowed

def appendsHello (i : Bool) (seq : Nat) (id : Id) : List (Occurrence Bool) :=
  ([.append i helloRequest, .lock i, .page i, .stage i (quietDraw emptyNeighbours seq id),
    .commit i, .adopt i] : List (Action Bool)).map .act

/-- `sync` of an instance. -/
def syncs (i : Bool) : List (Occurrence Bool) := [.act (.sync i), .act (.page i)]

/-- An instance has folded the row of its peer for an append of its own, before its `sync`. -/
def swallowedRun : List (Occurrence Bool) :=
  appendsHello true 1 "event-1" ++ appendsHello false 2 "event-2" ++ syncs false

/-- An instance syncs after its peer has appended, and then appends itself. -/
def handedRun : List (Occurrence Bool) :=
  appendsHello true 1 "event-1" ++ syncs false ++ appendsHello false 2 "event-2"

/-- What a run comes to: the rows of the peer, `lastSeq`, and what the calls of `sync` have
returned. -/
def syncSummary (steps : List (Occurrence Bool)) : Option (List Nat × Nat × List Nat × Nat) :=
  let _ : Unicode := Unicode.ascii
  (Runs.run (Observed.step messageCodec) (watching (emptyCluster Bool)) steps).map fun last =>
    ((last.committedBy true).map CoreEventRow.seq, (last.cluster.memory false).lastSeq,
      (syncedEntries (last.answers false)).map LedgerEntry.seq, (last.inHand false).length)

theorem exists_summary {steps : List (Occurrence Bool)} {lastSeq : Nat} {returned : List Nat}
    (h : syncSummary steps = some ([1], lastSeq, returned, 0)) : let _ : Unicode := Unicode.ascii
    ∃ last : Observed Bool,
      Runs.run (Observed.step messageCodec) (watching (emptyCluster Bool)) steps = some last ∧
        last.PeerRow false 1 ∧ (1 ≤ lastSeq → ¬ last.Ahead false 1) ∧
          last.timesReturned false 1 = returned.count 1 := by
  intro _
  obtain ⟨last, hrun, hsummary⟩ := Option.map_eq_some_iff.mp h
  simp only [Prod.mk.injEq] at hsummary
  obtain ⟨hrows, hlastSeq, hreturned, hinHand⟩ := hsummary
  refine ⟨last, hrun, ?_, ?_, ?_⟩
  · have hmem : 1 ∈ (last.committedBy true).map CoreEventRow.seq := by
      rw [hrows]
      exact List.mem_singleton_self 1
    exact ⟨true, Bool.noConfusion, List.mem_map.mp hmem⟩
  · rintro hle (hlt | ⟨entry, hentry, -⟩)
    · omega
    · rw [List.eq_nil_of_length_eq_zero hinHand] at hentry
      exact absurd hentry List.not_mem_nil
  · unfold Observed.timesReturned
    rw [← hreturned, List.count, List.countP_map]
    rfl

/-- An append folds the row of its peer, and no `sync` returns it. -/
theorem append_swallows_peer_row : let _ : Unicode := Unicode.ascii
    ∃ last : Observed Bool,
      Runs.run (Observed.step messageCodec) (watching (emptyCluster Bool)) swallowedRun =
        some last ∧
      last.PeerRow false 1 ∧ ¬ last.Ahead false 1 ∧ last.timesReturned false 1 = 0 := by
  intro _
  have hsummary : syncSummary swallowedRun = some ([1], 2, [], 0) := by decide +kernel
  obtain ⟨last, hrun, hpeer, hahead, hreturned⟩ := exists_summary hsummary
  exact ⟨last, hrun, hpeer, hahead (by omega), hreturned⟩

/-- A run in which the row of a peer is handed out before an append. -/
theorem handed_row_is_returned : let _ : Unicode := Unicode.ascii
    ∃ last : Observed Bool,
      Runs.run (Observed.step messageCodec) (watching (emptyCluster Bool)) handedRun = some last ∧
      last.timesReturned false 1 = 1 ∧
      (Runs.Allowed (Observed.step messageCodec) (Observed.Hands messageCodec)
          (watching (emptyCluster Bool)) handedRun ↔
        Runs.Throughout (Observed.step messageCodec) Observed.ReturnsOnce
          (watching (emptyCluster Bool)) handedRun) := by
  intro _
  have hsummary : syncSummary handedRun = some ([1], 2, [1], 0) := by decide +kernel
  obtain ⟨last, hrun, -, -, hreturned⟩ := exists_summary hsummary
  exact ⟨last, hrun, hreturned, (peer_rows_returned_once messageCodec .start hrun).1⟩

end Swallowed

end Server
