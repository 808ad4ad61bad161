import AtriumVerified.Server.Proofs.AppendProofs

/-!
# Every instance holds a fold of a prefix of the ledger

The state of an instance moves in two places: a page of rows folded by `catchUp`, and a staged batch
adopted after its commit. Both keep one invariant, that the memory is that of the committed rows up
to `lastSeq`; whoever holds the ledger lock has seen every row, and what it stages extends all of
them. What an instance holds of those rows is a parameter of the invariant; here it is their fold.
-/

namespace Server

open Core Js Postgres

/-! ## Rows up to a number of the sequence -/

section UpTo

variable {rows first second : List CoreEventRow} {n : Nat}

theorem mem_upTo {row : CoreEventRow} : row ∈ upTo rows n ↔ row ∈ rows ∧ row.seq ≤ n := by
  unfold upTo
  rw [List.mem_filter, decide_eq_true_eq]

theorem upTo_append (hfirst : ∀ row ∈ first, row.seq ≤ n) (hsecond : ∀ row ∈ second, n < row.seq) :
    upTo (first ++ second) n = first := by
  unfold upTo
  rw [List.filter_append, List.filter_eq_self.mpr, List.filter_eq_nil_iff.mpr, List.append_nil]
  · intro row hrow
    have hlt := hsecond row hrow
    rw [decide_eq_true_eq]
    omega
  · intro row hrow
    exact decide_eq_true (hfirst row hrow)

theorem upTo_append_above (h : rows.Pairwise fun a b => a.seq < b.seq) (n : Nat) :
    upTo rows n ++ rows.filter (fun row => n < row.seq) = rows := by
  induction rows with
  | nil => rfl
  | cons row rest ih =>
    obtain ⟨hlt, hrest⟩ := List.pairwise_cons.mp h
    unfold upTo at ih ⊢
    by_cases hrow : row.seq ≤ n
    · rw [List.filter_cons_of_pos (by simpa using hrow),
        List.filter_cons_of_neg (by simpa using hrow), List.cons_append, ih hrest]
    · have hnone : rest.filter (fun row => row.seq ≤ n) = [] := by
        rw [List.filter_eq_nil_iff]
        intro other hother
        have hother := hlt other hother
        rw [decide_eq_true_eq]
        omega
      have hall : rest.filter (fun row => n < row.seq) = rest := by
        rw [List.filter_eq_self]
        intro other hother
        have hother := hlt other hother
        rw [decide_eq_true_eq]
        omega
      rw [List.filter_cons_of_neg (by simpa using hrow),
        List.filter_cons_of_pos (by simpa using hrow), hnone, hall]
      rfl

end UpTo

/-! ## Folding a page -/

section Fold

variable {codec : Codec} {rows : List CoreEventRow} {memory : Memory}

theorem readableCore_append (first second : List CoreEventRow) :
    readableCore codec (first ++ second) =
      readableCore codec first ++ readableCore codec second := by
  rw [readableCore_eq, readableCore_eq, readableCore_eq, List.filterMap_append]

theorem watermark_append (first second : List CoreEventRow) :
    watermark codec (first ++ second) =
      second.foldl (raiseWatermark codec) (watermark codec first) :=
  List.foldl_append

theorem foldl_raiseWatermark_mono {page : List CoreEventRow} {a b cap : Int} (h : min cap a ≤ b) :
    min cap (page.foldl (raiseWatermark codec) a) ≤ page.foldl (raiseWatermark codec) b := by
  induction page generalizing a b with
  | nil => exact h
  | cons row rest ih =>
    refine ih ?_
    unfold raiseWatermark
    split
    · omega
    · exact h

theorem Ordered.sublist {first : List CoreEventRow} (h : Ordered rows) (hsub : first.Sublist rows) :
    Ordered first where
  positions := h.positions.sublist hsub
  ids := h.ids.sublist hsub
  seqs := h.seqs.sublist hsub
  positive := fun row hrow => h.positive row (hsub.subset hrow)
  checks := fun row hrow => h.checks row (hsub.subset hrow)

theorem foldl_max_seq {page : List CoreEventRow} {n : Nat}
    (horder : page.Pairwise fun a b => a.seq < b.seq) (habove : ∀ row ∈ page, n < row.seq) :
    let m := page.foldl (fun seq row => max seq row.seq) n
    (∀ row ∈ page, row.seq ≤ m) ∧ n ≤ m ∧ (page = [] ∧ m = n ∨ ∃ row ∈ page, row.seq = m) := by
  induction page generalizing n with
  | nil => exact ⟨by simp, le_refl _, Or.inl ⟨rfl, rfl⟩⟩
  | cons first rest ih =>
    obtain ⟨hlt, hrest⟩ := List.pairwise_cons.mp horder
    have hfirst := habove first List.mem_cons_self
    rw [List.foldl_cons, max_eq_right (le_of_lt hfirst)]
    obtain ⟨hall, hle, hlast⟩ := ih hrest hlt
    refine ⟨?_, by omega, Or.inr ?_⟩
    · intro row hrow
      rcases List.mem_cons.mp hrow with rfl | hrow
      · exact hle
      · exact hall row hrow
    · rcases hlast with ⟨-, hm⟩ | ⟨row, hrow, hm⟩
      · exact ⟨first, List.mem_cons_self, hm.symm⟩
      · exact ⟨row, List.mem_cons_of_mem _ hrow, hm⟩

/-- The rows of a page come right behind those an instance has read. -/
theorem upTo_nextPage (h : rows.Pairwise fun a b => a.seq < b.seq) (n : Nat) :
    let page := nextPage rows n
    let m := page.foldl (fun seq row => max seq row.seq) n
    upTo rows m = upTo rows n ++ page ∧ n ≤ m ∧ (m = n ∨ ∃ row ∈ rows, row.seq = m) ∧
      (page.length < pageSize → upTo rows m = rows) := by
  have hsplit := upTo_append_above h n
  unfold nextPage
  generalize hfirst : upTo rows n = first at hsplit
  generalize habove : rows.filter (fun row => n < row.seq) = above at hsplit
  have hbehind : ∀ row ∈ above, n < row.seq := by
    intro row hrow
    rw [← habove] at hrow
    exact of_decide_eq_true (List.mem_filter.mp hrow).2
  have hread : ∀ row ∈ first, row.seq ≤ n := by
    intro row hrow
    rw [← hfirst] at hrow
    exact of_decide_eq_true (List.mem_filter.mp hrow).2
  have hparts : above.take pageSize ++ above.drop pageSize = above := List.take_append_drop _ _
  have hshort : (above.take pageSize).length < pageSize → above.drop pageSize = [] := by
    intro hlt
    rw [List.length_take] at hlt
    rw [List.drop_eq_nil_iff]
    omega
  generalize above.take pageSize = page at hparts hshort ⊢
  generalize above.drop pageSize = rest at hparts hshort
  have hpageAbove : ∀ row ∈ page, n < row.seq := fun row hrow =>
    hbehind row (by rw [← hparts]; exact List.mem_append_left _ hrow)
  rw [← hparts, ← List.append_assoc] at hsplit
  have hseqs := h
  rw [← hsplit, List.append_assoc, List.pairwise_append, List.pairwise_append] at hseqs
  obtain ⟨-, ⟨hpageSeqs, -, hpageRest⟩, -⟩ := hseqs
  obtain ⟨hall, hle, hlast⟩ := foldl_max_seq hpageSeqs hpageAbove
  dsimp only
  generalize page.foldl (fun seq row => max seq row.seq) n = m at hall hle hlast ⊢
  have hrestBehind : ∀ row ∈ rest, m < row.seq := by
    intro row hrow
    rcases hlast with ⟨-, hm⟩ | ⟨held, hheld, hm⟩
    · rw [hm]
      exact hbehind row (by rw [← hparts]; exact List.mem_append_right _ hrow)
    · rw [← hm]
      exact hpageRest held hheld row hrow
  have hupTo : upTo rows m = first ++ page := by
    rw [← hsplit]
    refine upTo_append ?_ hrestBehind
    intro row hrow
    rcases List.mem_append.mp hrow with hrow | hrow
    · exact (hread row hrow).trans hle
    · exact hall row hrow
  refine ⟨hupTo, hle, ?_, ?_⟩
  · rcases hlast with ⟨-, hm⟩ | ⟨held, hheld, hm⟩
    · exact Or.inl hm
    · refine Or.inr ⟨held, ?_, hm⟩
      rw [← hsplit]
      exact List.mem_append_left _ (List.mem_append_right _ hheld)
  · -- A page that is not full leaves nothing behind it.
    intro hlt
    rw [hupTo, ← hsplit, hshort hlt, List.append_nil]

variable [Unicode]

theorem foldLedger_ok {state : CoreState} : foldLedger codec rows = .ok state ↔
    ∃ outcomes, foldRows emptyState (readableCore codec rows) = .ok (outcomes, state) := by
  unfold foldLedger
  cases foldRows emptyState (readableCore codec rows) with
  | error e =>
    constructor
    · intro h
      cases h
    · rintro ⟨outcomes, h⟩
      cases h
  | ok result =>
    constructor
    · intro h
      cases h
      exact ⟨result.1, rfl⟩
    · rintro ⟨outcomes, h⟩
      cases h
      rfl

theorem foldLedger_append {first second : List CoreEventRow} {mid state : CoreState}
    {outcomes : List EventOutcome} (hfirst : foldLedger codec first = .ok mid)
    (hsecond : foldRows mid (readableCore codec second) = .ok (outcomes, state)) :
    foldLedger codec (first ++ second) = .ok state := by
  obtain ⟨before, hbefore⟩ := foldLedger_ok.mp hfirst
  rw [foldLedger_ok, readableCore_append]
  exact ⟨before ++ outcomes, foldRows_append_ok.mpr ⟨before, mid, outcomes, hbefore, hsecond, rfl⟩⟩

theorem Ordered.not_rejected {start : CoreState} {first page : List CoreEventRow}
    (h : Ordered (first ++ page)) (hfirst : foldLedger codec first = .ok start)
    {outcomes : List EventOutcome} {state : CoreState}
    (hpage : foldEvents codec.coreEvent (page.filterMap (coreRow codec)) start =
      .ok (outcomes, state)) : ∀ outcome ∈ outcomes, isRejected outcome = false := by
  obtain ⟨consumed, hrows, rfl⟩ :=
    (h.sublist (List.sublist_append_right first page)).foldEvents_ok.mp hpage
  obtain ⟨before, hbefore⟩ := foldLedger_ok.mp hfirst
  have hwhole : foldRows emptyState (readableCore codec (first ++ page)) =
      .ok (before ++ consumed, state) := by
    rw [readableCore_append]
    exact foldRows_append_ok.mpr ⟨before, start, consumed, hbefore, hrows, rfl⟩
  intro outcome houtcome
  rcases List.mem_append.mp houtcome with hmalformed | hconsumed
  · exact malformed_not_rejected hmalformed
  · have hwas := h.foldRows_consumed hwhole outcome (List.mem_append_right _ hconsumed)
    exact not_rejected_of_consumed hwas

/-- What folding a page does: a fold that throws may have replaced the state and nothing else; one
that returns moves the memory behind the page. -/
theorem foldPage_cases {page : List CoreEventRow} {next : Memory}
    {result : Except LedgerError (List LedgerEntry)}
    (h : foldPage codec memory page = (next, result)) :
    (∃ error, result = .error error ∧ next = { memory with state := next.state }) ∨
      ∃ outcomes, foldEvents codec.coreEvent (page.filterMap (coreRow codec)) memory.state =
          .ok (outcomes, next.state) ∧
        next.lastSeq = page.foldl (fun seq row => max seq row.seq) memory.lastSeq ∧
        next.lastAtMs = page.foldl (raiseWatermark codec) memory.lastAtMs ∧
        next.coreMalformedReasonBySeq = memory.coreMalformedReasonBySeq ++
          page.filterMap (fun row =>
            (foldedEntry codec next.state (coreMalformed codec page) row).2) ∧
        result = .ok (page.map fun row =>
          (foldedEntry codec next.state (coreMalformed codec page) row).1) := by
  unfold foldPage at h
  cases hfold : foldEvents codec.coreEvent (page.filterMap (coreRow codec)) memory.state with
  | error e =>
    rw [hfold] at h
    cases h
    exact Or.inl ⟨_, rfl, rfl⟩
  | ok folded =>
    obtain ⟨outcomes, state⟩ := folded
    rw [hfold] at h
    dsimp only at h
    split at h
    · cases h
      exact Or.inl ⟨_, rfl, rfl⟩
    · cases h
      refine Or.inr ⟨outcomes, rfl, rfl, rfl, ?_, ?_⟩
      · dsimp only
        rw [List.filterMap_map]
        rfl
      · rw [List.map_map]
        rfl

/-- Relations between rows and a state after them: `P` for what an instance holds, which every page
it folds has to keep, and `S` for what it stages on top of that. -/
structure Folds (codec : Codec) (P S : List CoreEventRow → CoreState → Prop) : Prop where
  empty : P [] emptyState
  page : ∀ {memory next : Memory} {first page : List CoreEventRow}
    {result : Except LedgerError (List LedgerEntry)}, Ordered (first ++ page) →
    P first memory.state → foldPage codec memory page = (next, result) →
    P (if result.isOk then first ++ page else first) next.state
  start : ∀ {rows : List CoreEventRow} {state : CoreState}, P rows state → S rows state

def FoldOf (codec : Codec) (rows : List CoreEventRow) (state : CoreState) : Prop :=
  foldLedger codec rows = .ok state

theorem foldOf_page {next : Memory} {first page : List CoreEventRow}
    {result : Except LedgerError (List LedgerEntry)} (h : Ordered (first ++ page))
    (hfirst : FoldOf codec first memory.state)
    (hpage : foldPage codec memory page = (next, result)) :
    FoldOf codec (if result.isOk then first ++ page else first) next.state := by
  have hthrown : ∀ error, result = .error error → next = memory := by
    intro error hresult
    unfold foldPage at hpage
    cases hfold : foldEvents codec.coreEvent (page.filterMap (coreRow codec)) memory.state with
    | error e =>
      rw [hfold] at hpage
      cases hpage
      rfl
    | ok folded =>
      have hnone : folded.1.find? isRejected = none := by
        rw [List.find?_eq_none]
        intro outcome houtcome
        rw [h.not_rejected hfirst hfold outcome houtcome]
        exact Bool.false_ne_true
      rw [hfold] at hpage
      dsimp only at hpage
      rw [hnone, hresult] at hpage
      cases hpage
  rcases foldPage_cases hpage with ⟨error, rfl, -⟩ | ⟨outcomes, hfold, -, -, -, rfl⟩
  · rw [hthrown error rfl]
    exact hfirst
  · obtain ⟨consumed, hrows, -⟩ :=
      (h.sublist (List.sublist_append_right first page)).foldEvents_ok.mp hfold
    exact foldLedger_append hfirst hrows

theorem folds_fold : Folds codec (FoldOf codec) (FoldOf codec) where
  empty := rfl
  page := foldOf_page
  start := fun h => h

variable {P S : List CoreEventRow → CoreState → Prop}

/-- The memory of an instance is that of the committed rows up to its `lastSeq`. -/
structure Holds (codec : Codec) (P : List CoreEventRow → CoreState → Prop)
    (rows : List CoreEventRow) (memory : Memory) : Prop where
  state : P (upTo rows memory.lastSeq) memory.state
  seen : memory.lastSeq = 0 ∨ ∃ row ∈ rows, row.seq = memory.lastSeq
  reached : min maxAtMs (watermark codec (upTo rows memory.lastSeq)) ≤ memory.lastAtMs

theorem foldPage_holds (hfolds : Folds codec P S) (horder : Ordered rows)
    (h : Holds codec P rows memory) {next : Memory} {result : Except LedgerError (List LedgerEntry)}
    (hpage : foldPage codec memory (nextPage rows memory.lastSeq) = (next, result)) :
    Holds codec P rows next ∧ (result.isOk → (nextPage rows memory.lastSeq).length < pageSize →
      ∀ row ∈ rows, row.seq ≤ next.lastSeq) := by
  obtain ⟨hupTo, -, hlast, hshort⟩ := upTo_nextPage horder.seqs memory.lastSeq
  have hordered : Ordered (upTo rows memory.lastSeq ++ nextPage rows memory.lastSeq) := by
    rw [← hupTo]
    exact horder.sublist List.filter_sublist
  have hstate := hfolds.page hordered h.state hpage
  rcases foldPage_cases hpage with ⟨error, rfl, hsame⟩ | ⟨outcomes, -, hlastSeq, hlastAtMs, -, rfl⟩
  · rw [hsame]
    exact ⟨⟨hstate, h.seen, h.reached⟩, fun hok => absurd hok Bool.false_ne_true⟩
  · rw [← hlastSeq] at hupTo hlast hshort
    refine ⟨⟨?_, ?_, ?_⟩, ?_⟩
    · rw [hupTo]
      exact hstate
    · rcases hlast with hm | hm
      · rw [hm]
        exact h.seen
      · exact Or.inr hm
    · rw [hupTo, watermark_append, hlastAtMs]
      exact foldl_raiseWatermark_mono h.reached
    · intro _ hlt row hrow
      rw [← hshort hlt] at hrow
      exact (mem_upTo.mp hrow).2

end Fold

/-! ## Finished calls -/

section Calls

variable {ι : Type} {cluster after : Cluster ι} {new : List CoreEventRow}

/-- The rows an instance has inserted and not committed. -/
def stagedRows : Work → List CoreEventRow
  | .appending _ (.staging staged _) => staged.rows
  | _ => []

/-- A finished call left all of its rows in the ledger or none of them. -/
def Kept (cluster : Cluster ι) : Call → Prop
  | .returned request batch | .lostAfterCommit request batch =>
    batch.length = request.builds.length ∧ ∀ row ∈ batch, row ∈ cluster.rows
  | .replayed => True
  | .failed drawn => ∀ n ∈ drawn, n ≤ cluster.sequence ∧ (∀ row ∈ cluster.rows, row.seq ≠ n) ∧
      ∀ i, ∀ row ∈ stagedRows (cluster.work i), row.seq ≠ n

/-- Rows that come into the ledger or are staged were staged before or drew a new number, so the
numbers of a failed call stay unused. -/
theorem Kept.next {call : Call} (h : Kept cluster call) (hrows : after.rows = cluster.rows ++ new)
    (hsequence : cluster.sequence ≤ after.sequence)
    (hnew : ∀ row ∈ new, (∃ j, row ∈ stagedRows (cluster.work j)) ∨ cluster.sequence < row.seq)
    (hstaged : ∀ j, ∀ row ∈ stagedRows (after.work j),
      (∃ k, row ∈ stagedRows (cluster.work k)) ∨ cluster.sequence < row.seq) :
    Kept after call := by
  cases call with
  | returned request batch =>
    refine ⟨h.1, ?_⟩
    intro row hrow
    rw [hrows]
    exact List.mem_append_left _ (h.2 row hrow)
  | lostAfterCommit request batch =>
    refine ⟨h.1, ?_⟩
    intro row hrow
    rw [hrows]
    exact List.mem_append_left _ (h.2 row hrow)
  | replayed => trivial
  | failed drawn =>
    intro n hn
    obtain ⟨hle, happart, hheld⟩ := h n hn
    have hfresh : ∀ row, (∃ j, row ∈ stagedRows (cluster.work j)) ∨ cluster.sequence < row.seq →
        row.seq ≠ n := by
      rintro row (⟨j, hrow⟩ | hlt)
      · exact hheld j row hrow
      · omega
    refine ⟨hle.trans hsequence, ?_, fun j row hrow => hfresh row (hstaged j row hrow)⟩
    intro row hrow
    rw [hrows] at hrow
    rcases List.mem_append.mp hrow with hrow | hrow
    · exact happart row hrow
    · exact hfresh row (hnew row hrow)

/-- The table admits the rows of a foreign writer one by one. -/
theorem insertAll_ok {sequence sequence' : Nat} {batch : List (Neighbours × Nat × NewRow)}
    {rows rows' : List CoreEventRow} (hordered : Ordered rows)
    (hbounded : ∀ row ∈ rows, row.seq ≤ sequence)
    (h : insertAll rows sequence batch = some (rows', sequence')) :
    ∃ new, rows' = rows ++ new ∧ Ordered rows' ∧ sequence ≤ sequence' ∧
      ∀ row ∈ new, sequence < row.seq ∧ row.seq ≤ sequence' := by
  induction batch generalizing rows sequence with
  | nil =>
    cases h
    exact ⟨[], (List.append_nil _).symm, hordered, le_refl _, by simp⟩
  | cons first rest ih =>
    obtain ⟨around, seq, row⟩ := first
    unfold insertAll at h
    split at h
    · rename_i hadmitted
      obtain ⟨hlt, hadmits⟩ := hadmitted
      have hbehind : ∀ held ∈ rows, held.seq < seq := fun held hheld =>
        (hbounded held hheld).trans_lt hlt
      have hinserted : Ordered (rows ++ [insertedRow around rows seq row]) :=
        hordered.insert (Nat.zero_lt_of_lt hlt) hbehind (admitted_of_admits hadmits)
      have hnext : ∀ held ∈ rows ++ [insertedRow around rows seq row], held.seq ≤ seq := by
        intro held hheld
        rcases List.mem_append.mp hheld with hheld | hheld
        · exact le_of_lt (hbehind held hheld)
        · rw [List.mem_singleton.mp hheld]
          exact le_refl _
      obtain ⟨new, hrows, hordered', hle, hnew⟩ := ih hinserted hnext h
      refine ⟨insertedRow around rows seq row :: new, ?_, hordered', by omega, ?_⟩
      · rw [hrows, List.append_assoc]
        rfl
      · intro held hheld
        rcases List.mem_cons.mp hheld with rfl | hheld
        · exact ⟨hlt, hle⟩
        · obtain ⟨habove, hbelow⟩ := hnew held hheld
          exact ⟨hlt.trans habove, hbelow⟩
    · cases h

end Calls

/-! ## The invariant -/

section Invariant

variable {ι : Type} (codec : Codec) (P S : List CoreEventRow → CoreState → Prop)

structure Staged (rows : List CoreEventRow) (memory : Memory) (staged : Staging) : Prop where
  ordered : Ordered (rows ++ staged.rows)
  caughtUp : ∀ row ∈ rows, row.seq ≤ memory.lastSeq
  state : S (rows ++ staged.rows) staged.state
  reached : min maxAtMs (watermark codec (rows ++ staged.rows)) ≤ staged.atMs
  seq : staged.rows = [] ∧ staged.seq = memory.lastSeq ∨
    (∃ row ∈ staged.rows, row.seq = staged.seq) ∧ ∀ row ∈ staged.rows, row.seq ≤ staged.seq

/-- What has been committed and not adopted is the memory of the rows up to it. -/
structure Landed (rows : List CoreEventRow) (memory : Memory) (staged : Staging) : Prop where
  holds : Holds codec P rows { memory with
    state := staged.state, lastSeq := staged.seq, lastAtMs := staged.atMs }
  le : memory.lastSeq ≤ staged.seq
  batch : ∀ row ∈ staged.rows, row ∈ rows
  own : ∀ row ∈ rows, memory.lastSeq < row.seq → row.seq ≤ staged.seq → row ∈ staged.rows

/-- What the work of an instance has established. Only the holder of the lock is past waiting and
before its commit. -/
def AtWork (rows : List CoreEventRow) (sequence : Nat) (lock : Option ι) (i : ι) (memory : Memory) :
    Work → Prop
  | .idle | .reading _ | .appending _ .waiting => True
  | .appending _ .catchingUp => lock = some i
  | .appending request (.staging staged remaining) =>
    lock = some i ∧ staged.rows.length + remaining.length = request.builds.length ∧
      Staged codec S rows memory staged ∧ ∀ row ∈ staged.rows, row.seq ≤ sequence
  | .appending request (.committed staged) =>
    staged.rows.length = request.builds.length ∧ Landed codec P rows memory staged

structure Consistent (cluster : Cluster ι) : Prop where
  ordered : Ordered cluster.rows
  bounded : ∀ row ∈ cluster.rows, row.seq ≤ cluster.sequence
  holds : ∀ i, Holds codec P cluster.rows (cluster.memory i)
  work : ∀ i, AtWork codec P S cluster.rows cluster.sequence cluster.lock i
    (cluster.memory i) (cluster.work i)
  calls : ∀ call ∈ cluster.calls, Kept cluster call

variable {codec} {P S} {rows new : List CoreEventRow} {memory : Memory} {staged : Staging}

theorem Holds.behind (h : Holds codec P rows memory) (hordered : Ordered (rows ++ new)) :
    ∀ row ∈ new, memory.lastSeq < row.seq := by
  intro row hrow
  rcases h.seen with hzero | ⟨held, hheld, hseq⟩
  · rw [hzero]
    exact hordered.positive row (List.mem_append_right _ hrow)
  · rw [← hseq]
    exact (List.pairwise_append.mp hordered.seqs).2.2 held hheld row hrow

theorem Holds.extend (h : Holds codec P rows memory) (hordered : Ordered (rows ++ new)) :
    Holds codec P (rows ++ new) memory := by
  have hbehind := h.behind hordered
  have hsame : upTo (rows ++ new) memory.lastSeq = upTo rows memory.lastSeq := by
    have hnil : new.filter (fun row => row.seq ≤ memory.lastSeq) = [] := by
      rw [List.filter_eq_nil_iff]
      intro row hrow
      have hlt := hbehind row hrow
      rw [decide_eq_true_eq]
      omega
    unfold upTo
    rw [List.filter_append, hnil, List.append_nil]
  refine ⟨?_, ?_, ?_⟩
  · rw [hsame]
    exact h.state
  · rcases h.seen with hzero | ⟨held, hheld, hseq⟩
    · exact Or.inl hzero
    · exact Or.inr ⟨held, List.mem_append_left _ hheld, hseq⟩
  · rw [hsame]
    exact h.reached

theorem Landed.extend (h : Landed codec P rows memory staged) (hordered : Ordered (rows ++ new)) :
    Landed codec P (rows ++ new) memory staged where
  holds := h.holds.extend hordered
  le := h.le
  batch := fun row hrow => List.mem_append_left _ (h.batch row hrow)
  own := by
    intro row hrow hlt hle
    rcases List.mem_append.mp hrow with hrow | hrow
    · exact h.own row hrow hlt hle
    · exact absurd hle (not_le_of_gt (h.holds.behind hordered row hrow))

theorem AtWork.offLock {sequence sequence' : Nat} {lock lock' : Option ι} {i : ι} {work : Work}
    (h : AtWork codec P S rows sequence lock i memory work) (hlock : lock ≠ some i)
    (hordered : Ordered (rows ++ new)) :
    AtWork codec P S (rows ++ new) sequence' lock' i memory work := by
  match work, h with
  | .idle, _ => trivial
  | .reading _, _ => trivial
  | .appending _ .waiting, _ => trivial
  | .appending _ .catchingUp, h => exact absurd h hlock
  | .appending _ (.staging _ _), h => exact absurd h.1 hlock
  | .appending _ (.committed _), h => exact ⟨h.1, h.2.extend hordered⟩

/-- A committed batch is the end of the ledger. -/
theorem Staged.landed (h : Staged codec S rows memory staged) (hholds : Holds codec P rows memory)
    (hstate : P (rows ++ staged.rows) staged.state) :
    Landed codec P (rows ++ staged.rows) memory staged := by
  have hle : memory.lastSeq ≤ staged.seq := by
    rcases h.seq with ⟨-, hseq⟩ | ⟨⟨row, hrow, hseq⟩, -⟩
    · exact le_of_eq hseq.symm
    · rw [← hseq]
      exact le_of_lt (hholds.behind h.ordered row hrow)
  have hall : ∀ row ∈ rows ++ staged.rows, row.seq ≤ staged.seq := by
    intro row hrow
    rcases List.mem_append.mp hrow with hrow | hrow
    · exact (h.caughtUp row hrow).trans hle
    · rcases h.seq with ⟨hnil, -⟩ | ⟨-, hmax⟩
      · rw [hnil] at hrow
        cases hrow
      · exact hmax row hrow
  have hupTo : upTo (rows ++ staged.rows) staged.seq = rows ++ staged.rows := by
    unfold upTo
    rw [List.filter_eq_self]
    intro row hrow
    exact decide_eq_true (hall row hrow)
  refine ⟨⟨?_, ?_, ?_⟩, hle, fun row hrow => List.mem_append_right _ hrow, ?_⟩
  · show P (upTo (rows ++ staged.rows) staged.seq) staged.state
    rw [hupTo]
    exact hstate
  · show staged.seq = 0 ∨ ∃ row ∈ rows ++ staged.rows, row.seq = staged.seq
    rcases h.seq with ⟨hnil, hseq⟩ | ⟨⟨row, hrow, hseq⟩, -⟩
    · rw [hseq, hnil, List.append_nil]
      exact hholds.seen
    · exact Or.inr ⟨row, List.mem_append_right _ hrow, hseq⟩
  · show min maxAtMs (watermark codec (upTo (rows ++ staged.rows) staged.seq)) ≤ staged.atMs
    rw [hupTo]
    exact h.reached
  · intro row hrow hlt _
    rcases List.mem_append.mp hrow with hrow | hrow
    · exact absurd (h.caughtUp row hrow) (not_le_of_gt hlt)
    · exact hrow

theorem Landed.adopt (h : Landed codec P rows memory staged) :
    Holds codec P rows { memory with
      state := staged.state
      lastSeq := max memory.lastSeq staged.seq
      lastAtMs := max memory.lastAtMs staged.atMs } := by
  have hseq : max memory.lastSeq staged.seq = staged.seq := max_eq_right h.le
  rw [hseq]
  exact ⟨h.holds.state, h.holds.seen, h.holds.reached.trans (le_max_right _ _)⟩

theorem staged_start [Unicode] (hfolds : Folds codec P S) (hordered : Ordered rows)
    (hholds : Holds codec P rows memory) (hcaught : ∀ row ∈ rows, row.seq ≤ memory.lastSeq) :
    Staged codec S rows memory ⟨[], memory.state, memory.lastAtMs, memory.lastSeq⟩ := by
  have hupTo : upTo rows memory.lastSeq = rows := by
    unfold upTo
    rw [List.filter_eq_self]
    intro row hrow
    exact decide_eq_true (hcaught row hrow)
  have hstate := hholds.state
  have hreached := hholds.reached
  rw [hupTo] at hstate hreached
  refine ⟨?_, hcaught, ?_, ?_, Or.inl ⟨rfl, rfl⟩⟩
  · rw [List.append_nil]
    exact hordered
  · rw [List.append_nil]
    exact hfolds.start hstate
  · rw [List.append_nil]
    exact hreached

theorem Staged.stage [Unicode] (h : Staged codec S rows memory staged) {request : Request}
    {next : Staging} {build : Id → Timestamp → Json} {draw : Draw} (hpos : 0 < draw.seq)
    (hseq : ∀ row ∈ rows ++ staged.rows, row.seq < draw.seq)
    (hnext : stageBuild codec request rows staged build draw = .ok next)
    (hstate : S (rows ++ next.rows) next.state) :
    Staged codec S rows memory next ∧
      ∃ row, next.rows = staged.rows ++ [row] ∧ row.seq = draw.seq := by
  obtain ⟨event, roomId, row, after, folded, hparse, hat, hrow, hfold, hadmits, hwindow, rfl⟩ :=
    stageBuild_ok hnext
  obtain ⟨-, -, -, hoccurred⟩ := rowFor_ok hrow
  refine ⟨⟨?_, h.caughtUp, hstate, ?_, Or.inr ⟨?_, ?_⟩⟩, _, rfl, rfl⟩
  · rw [← List.append_assoc]
    exact h.ordered.insert hpos hseq (admitted_of_admits hadmits)
  · have hpositive := lastAtMs_nonneg h.reached
    rw [hat, timestamptz_mint draw.now hpositive, Option.some.injEq] at hoccurred
    rw [← List.append_assoc, watermark_append]
    exact mint_reaches h.reached hoccurred.symm
  · exact ⟨_, List.mem_append_right _ (List.mem_singleton_self _), rfl⟩
  · intro held hheld
    rcases List.mem_append.mp hheld with hheld | hheld
    · exact le_of_lt (hseq held (List.mem_append_right _ hheld))
    · rw [List.mem_singleton.mp hheld]
      exact le_refl _

theorem foldOf_stage [Unicode] {request : Request} {next : Staging} {build : Id → Timestamp → Json}
    {draw : Draw} (hback : codec.BringsBack)
    (hfew : ∀ event core,
      codec.roomEvent (build draw.id (toISOString (mintAtMs draw.now staged.atMs))) = .ok event →
      codec.coreEvent.safeParse event = .ok core → ¬ SeveralStrays staged.state core)
    (hnext : stageBuild codec request rows staged build draw = .ok next)
    (hstate : FoldOf codec (rows ++ staged.rows) staged.state) :
    FoldOf codec (rows ++ next.rows) next.state := by
  obtain ⟨event, roomId, row, after, folded, hparse, -, hrow, hfold, -, hwindow, rfl⟩ :=
    stageBuild_ok hnext
  obtain ⟨outcomes, hfolded⟩ := foldRows_inserted (rows ++ staged.rows) draw.seq hback hparse
    (fun core hcore => hfew event core hparse hcore) hrow hfold hwindow
  show foldLedger codec (rows ++ (staged.rows ++ _)) = _
  rw [← List.append_assoc]
  exact foldLedger_append hstate hfolded

variable {cluster after : Cluster ι} {i : ι}

theorem AtWork.later {sequence sequence' : Nat} {lock : Option ι} {work : Work}
    (h : AtWork codec P S rows sequence lock i memory work) (hle : sequence ≤ sequence') :
    AtWork codec P S rows sequence' lock i memory work := by
  match work, h with
  | .idle, _ => trivial
  | .reading _, _ => trivial
  | .appending _ .waiting, _ => trivial
  | .appending _ .catchingUp, h => exact h
  | .appending _ (.staging _ _), ⟨hlock, hlength, hstaged, hbounded⟩ =>
    exact ⟨hlock, hlength, hstaged, fun row hrow => (hbounded row hrow).trans hle⟩
  | .appending _ (.committed _), h => exact h

/-- What one instance does keeps the invariant when it does for the instance itself: either it
leaves the rows and the lock alone, or nobody else has the lock. -/
theorem Consistent.next (h : Consistent codec P S cluster) (i : ι)
    (hrows : after.rows = cluster.rows ++ new) (hordered : Ordered after.rows)
    (hsequence : cluster.sequence ≤ after.sequence)
    (hbounded : ∀ row ∈ new, row.seq ≤ after.sequence)
    (hfrom : ∀ row ∈ new ++ stagedRows (after.work i),
      row ∈ stagedRows (cluster.work i) ∨ cluster.sequence < row.seq)
    (hothers : ∀ j, j ≠ i → after.memory j = cluster.memory j ∧ after.work j = cluster.work j)
    (hlock : new = [] ∧ after.lock = cluster.lock ∨ ∀ j, j ≠ i → cluster.lock ≠ some j)
    (hholds : Holds codec P after.rows (after.memory i))
    (hwork : AtWork codec P S after.rows after.sequence after.lock i (after.memory i)
      (after.work i))
    (hcalls : ∀ call ∈ after.calls, call ∈ cluster.calls ∨ Kept after call) :
    Consistent codec P S after where
  ordered := hordered
  bounded := by
    intro row hrow
    rw [hrows] at hrow
    rcases List.mem_append.mp hrow with hrow | hrow
    · exact (h.bounded row hrow).trans hsequence
    · exact hbounded row hrow
  holds := by
    intro j
    by_cases hj : j = i
    · rw [hj]
      exact hholds
    · rw [(hothers j hj).1, hrows]
      rw [hrows] at hordered
      exact (h.holds j).extend hordered
  work := by
    intro j
    by_cases hj : j = i
    · rw [hj]
      exact hwork
    · rw [(hothers j hj).1, (hothers j hj).2]
      rcases hlock with ⟨hnil, hsame⟩ | hfree
      · rw [hrows, hnil, List.append_nil, hsame]
        exact (h.work j).later hsequence
      · rw [hrows] at hordered ⊢
        exact (h.work j).offLock (hfree j hj) hordered
  calls := by
    intro call hcall
    rcases hcalls call hcall with hold | hkept
    · refine (h.calls call hold).next hrows hsequence ?_ ?_
      · intro row hrow
        exact (hfrom row (List.mem_append_left _ hrow)).imp_left fun hrow => ⟨i, hrow⟩
      · intro j row hrow
        by_cases hj : j = i
        · rw [hj] at hrow
          exact (hfrom row (List.mem_append_right _ hrow)).imp_left fun hrow => ⟨i, hrow⟩
        · rw [(hothers j hj).2] at hrow
          exact Or.inl ⟨j, hrow⟩
    · exact hkept

theorem Consistent.stagedRows_nil (h : Consistent codec P S cluster)
    (hlock : cluster.lock ≠ some i) : stagedRows (cluster.work i) = [] := by
  have hwork := h.work i
  match hmatch : cluster.work i, hwork with
  | .idle, _ => rfl
  | .reading _, _ => rfl
  | .appending _ .waiting, _ => rfl
  | .appending _ .catchingUp, _ => rfl
  | .appending _ (.staging _ _), hwork => exact absurd hwork.1 hlock
  | .appending _ (.committed _), _ => rfl

theorem Consistent.draw (h : Consistent codec P S cluster) {n : Nat}
    (hlt : cluster.sequence < n) : Consistent codec P S { cluster with sequence := n } where
  ordered := h.ordered
  bounded := fun row hrow => (h.bounded row hrow).trans (le_of_lt hlt)
  holds := h.holds
  work := fun j => (h.work j).later (le_of_lt hlt)
  calls := fun call hcall => (h.calls call hcall).next (List.append_nil _).symm (le_of_lt hlt)
    (by simp) fun j _ hrow => Or.inl ⟨j, hrow⟩

theorem Consistent.staged_apart (h : Consistent codec P S cluster) {request : Request}
    {staged : Staging} {remaining : List (Id → Timestamp → Json)}
    (hwork : cluster.work i = .appending request (.staging staged remaining)) :
    ∀ n ∈ staged.rows.map CoreEventRow.seq,
      n ≤ cluster.sequence ∧ ∀ row ∈ cluster.rows, row.seq ≠ n := by
  have hat := h.work i
  rw [hwork] at hat
  obtain ⟨-, -, hstaged, hbounded⟩ := hat
  intro n hn
  obtain ⟨row, hrow, rfl⟩ := List.mem_map.mp hn
  refine ⟨hbounded row hrow, ?_⟩
  intro held hheld
  have hlt := (List.pairwise_append.mp hstaged.ordered.seqs).2.2 held hheld row hrow
  exact ne_of_lt hlt

theorem Consistent.lock_of_staging (h : Consistent codec P S cluster) {request : Request}
    {staged : Staging} {remaining : List (Id → Timestamp → Json)}
    (hwork : cluster.work i = .appending request (.staging staged remaining)) :
    cluster.lock = some i := by
  have hat := h.work i
  rw [hwork] at hat
  exact hat.1

theorem Consistent.foreign (h : Consistent codec P S cluster) (hfree : cluster.lock = none)
    {batch : List (Neighbours × Nat × NewRow)} {sequence' : Nat} {rows' : List CoreEventRow}
    (hinsert : insertAll cluster.rows cluster.sequence batch = some (rows', sequence')) :
    Consistent codec P S { cluster with rows := rows', sequence := sequence' } := by
  obtain ⟨new, hrows, hordered, hle, hnew⟩ := insertAll_ok h.ordered h.bounded hinsert
  subst hrows
  have hlock : ∀ j, cluster.lock ≠ some j := by
    intro j
    rw [hfree]
    exact (Option.some_ne_none j).symm
  refine ⟨hordered, ?_, ?_, ?_, ?_⟩
  · intro row hrow
    rcases List.mem_append.mp hrow with hrow | hrow
    · exact (h.bounded row hrow).trans hle
    · exact (hnew row hrow).2
  · exact fun j => (h.holds j).extend hordered
  · exact fun j => (h.work j).offLock (hlock j) hordered
  · intro call hcall
    refine (h.calls call hcall).next rfl hle ?_ fun j _ hrow => Or.inl ⟨j, hrow⟩
    exact fun row hrow => Or.inr (hnew row hrow).1

theorem consistent_empty (hempty : P [] emptyState) :
    Consistent codec P S (emptyCluster ι) where
  ordered := Inserted.empty.ordered
  bounded := by simp [emptyCluster]
  holds := fun _ => ⟨hempty, Or.inl rfl, by show min maxAtMs 0 ≤ 0; exact min_le_right _ _⟩
  work := fun _ => trivial
  calls := by simp [emptyCluster]

end Invariant

/-! ## Every action keeps the invariant -/

section Step

variable {ι : Type} {codec : Codec} {P S : List CoreEventRow → CoreState → Prop}
  {cluster after : Cluster ι} {i : ι}

theorem ne_of_lock {j : ι} (hlock : cluster.lock = some i) (hj : j ≠ i) :
    cluster.lock ≠ some j := by
  rw [hlock]
  intro heq
  exact hj (Option.some.inj heq).symm

/-- What an action has to do for the relations: what it stages is related to the rows with it, and
what it commits is related as what an instance holds. -/
structure Carries [Unicode] (codec : Codec) (P S : List CoreEventRow → CoreState → Prop)
    (cluster : Cluster ι) (action : Action ι) : Prop where
  stages : ∀ i request staged build remaining draw next, action = .stage i draw →
    cluster.work i = .appending request (.staging staged (build :: remaining)) →
    stageBuild codec request cluster.rows staged build draw = .ok next →
    S (cluster.rows ++ staged.rows) staged.state → S (cluster.rows ++ next.rows) next.state
  commits : ∀ i request staged, action = .commit i →
    cluster.work i = .appending request (.staging staged []) →
    S (cluster.rows ++ staged.rows) staged.state → P (cluster.rows ++ staged.rows) staged.state

theorem carries_fold [Unicode] {action : Action ι}
    (hback : codec.BringsBack) (hfew : ¬ cluster.ListsStrays codec action) :
    Carries codec (FoldOf codec) (FoldOf codec) cluster action where
  stages := by
    rintro i request staged build remaining draw next rfl hwork hnext hstate
    refine foldOf_stage hback ?_ hnext hstate
    intro event core hevent hcore hstrays
    exact hfew ⟨i, draw, request, staged, build, remaining, event, core, rfl, hwork, hevent, hcore,
      hstrays⟩
  commits := fun _ _ _ _ _ hstate => hstate

variable [DecidableEq ι]

theorem setWork_others (cluster : Cluster ι) (i : ι) (work : Work) (j : ι) (hj : j ≠ i) :
    (cluster.setWork i work).work j = cluster.work j := Function.update_of_ne hj _ _

theorem setWork_self (cluster : Cluster ι) (i : ι) (work : Work) :
    (cluster.setWork i work).work i = work := Function.update_self _ _ _

theorem setWork_same {work : Work} (hwork : cluster.work i = work) :
    cluster.setWork i work = cluster := by
  unfold Cluster.setWork
  rw [← hwork, Function.update_eq_self]

theorem rollback_self (cluster : Cluster ι) (i : ι) (drawn : List Nat) :
    (cluster.rollback i drawn).work i = .idle := Function.update_self _ _ _

theorem setMemory_self (cluster : Cluster ι) (i : ι) (memory : Memory) :
    (cluster.setMemory i memory).memory i = memory := Function.update_self _ _ _

theorem Consistent.setWork (h : Consistent codec P S cluster) {work : Work}
    (hwork : AtWork codec P S cluster.rows cluster.sequence cluster.lock i
      (cluster.memory i) work)
    (hstaged : stagedRows work = []) : Consistent codec P S (cluster.setWork i work) := by
  refine h.next i (List.append_nil _).symm h.ordered (le_refl _) (by simp) ?_ ?_ (Or.inl ⟨rfl, rfl⟩)
    (h.holds i) ?_ (fun call hcall => Or.inl hcall)
  · intro row hrow
    rw [setWork_self, hstaged] at hrow
    cases hrow
  · intro j hj
    exact ⟨rfl, setWork_others cluster i work j hj⟩
  · rw [setWork_self]
    exact hwork

theorem Consistent.setMemory (h : Consistent codec P S cluster) {memory : Memory}
    (hholds : Holds codec P cluster.rows memory)
    (hwork : AtWork codec P S cluster.rows cluster.sequence cluster.lock i memory
      (cluster.work i)) :
    Consistent codec P S (cluster.setMemory i memory) := by
  refine h.next i (List.append_nil _).symm h.ordered (le_refl _) (by simp) ?_ ?_ (Or.inl ⟨rfl, rfl⟩)
    ?_ ?_ (fun call hcall => Or.inl hcall)
  · intro row hrow
    exact Or.inl hrow
  · intro j hj
    exact ⟨Function.update_of_ne hj _ _, rfl⟩
  · rw [setMemory_self]
    exact hholds
  · rw [setMemory_self]
    exact hwork

theorem Consistent.finish (h : Consistent codec P S cluster) {lock : Option ι} {call : Call}
    (hlock : lock = cluster.lock ∨ cluster.lock = some i)
    (hkept : Kept { cluster.setWork i .idle with lock, calls := call :: cluster.calls } call) :
    Consistent codec P S
      { cluster.setWork i .idle with lock, calls := call :: cluster.calls } := by
  have hidle : (cluster.setWork i .idle).work i = .idle := setWork_self cluster i .idle
  refine h.next i (List.append_nil _).symm h.ordered (le_refl _) (by simp) ?_ ?_ ?_ (h.holds i) ?_
    ?_
  · intro row hrow
    dsimp only at hrow
    rw [hidle] at hrow
    cases hrow
  · intro j hj
    exact ⟨rfl, setWork_others cluster i .idle j hj⟩
  · rcases hlock with hsame | hheld
    · exact Or.inl ⟨rfl, hsame⟩
    · exact Or.inr fun j hj => ne_of_lock hheld hj
  · dsimp only
    rw [hidle]
    trivial
  · intro call' hcall
    rcases List.mem_cons.mp hcall with rfl | hcall
    · exact Or.inr hkept
    · exact Or.inl hcall

theorem Consistent.rollback (h : Consistent codec P S cluster) {drawn : List Nat}
    (hlock : drawn = [] ∨ cluster.lock = some i)
    (hdrawn : ∀ n ∈ drawn, n ≤ cluster.sequence ∧ ∀ row ∈ cluster.rows, row.seq ≠ n) :
    Consistent codec P S (cluster.rollback i drawn) := by
  refine h.finish ?_ ?_
  · by_cases hheld : cluster.lock = some i
    · exact Or.inr hheld
    · exact Or.inl (if_neg hheld)
  · intro n hn
    obtain ⟨hle, hrows⟩ := hdrawn n hn
    refine ⟨hle, hrows, ?_⟩
    intro j row hrow
    dsimp only at hrow
    by_cases hj : j = i
    · rw [hj, setWork_self] at hrow
      cases hrow
    · rw [setWork_others cluster i .idle j hj] at hrow
      rcases hlock with hnil | hheld
      · rw [hnil] at hn
        cases hn
      · rw [h.stagedRows_nil (ne_of_lock hheld hj)] at hrow
        cases hrow

theorem Consistent.takeLock (h : Consistent codec P S cluster) {request : Request}
    (hfree : cluster.lock = none) :
    Consistent codec P S
      { cluster.setWork i (.appending request .catchingUp) with lock := some i } := by
  have hself := setWork_self cluster i (.appending request .catchingUp)
  refine h.next i (List.append_nil _).symm h.ordered (le_refl _) (by simp) ?_ ?_ ?_ (h.holds i) ?_
    (fun call hcall => Or.inl hcall)
  · intro row hrow
    dsimp only at hrow
    rw [hself] at hrow
    cases hrow
  · intro j hj
    exact ⟨rfl, setWork_others cluster i _ j hj⟩
  · refine Or.inr ?_
    intro j _
    rw [hfree]
    exact (Option.some_ne_none j).symm
  · dsimp only
    rw [hself]
    exact rfl

/-- A batch is committed, and its instance goes on to `work`. -/
theorem Consistent.land (h : Consistent codec P S cluster) {request : Request}
    {staged : Staging} {receipts : List Receipt} {work : Work} {calls : List Call}
    (hwork : cluster.work i = .appending request (.staging staged []))
    (hnext : staged.rows.length = request.builds.length →
      AtWork codec P S (cluster.rows ++ staged.rows) cluster.sequence none i
        (cluster.memory i) work)
    (hnone : stagedRows work = [])
    (hcalls : ∀ call ∈ calls, call ∈ cluster.calls ∨ call = .lostAfterCommit request staged.rows) :
    Consistent codec P S { (cluster.land staged receipts).setWork i work with calls } := by
  have hat := h.work i
  rw [hwork] at hat
  obtain ⟨hlock, hlength, hstaged, hbounded⟩ := hat
  have hself := setWork_self (cluster.land staged receipts) i work
  refine h.next i rfl hstaged.ordered (le_refl _) hbounded ?_ ?_
    (Or.inr fun j hj => ne_of_lock hlock hj) ((h.holds i).extend hstaged.ordered) ?_ ?_
  · intro row hrow
    dsimp only at hrow
    rw [hself, hnone, List.append_nil] at hrow
    rw [hwork]
    exact Or.inl hrow
  · intro j hj
    exact ⟨rfl, setWork_others (cluster.land staged receipts) i work j hj⟩
  · dsimp only
    rw [hself]
    exact hnext hlength
  · intro call hcall
    rcases hcalls call hcall with hold | rfl
    · exact Or.inl hold
    · exact Or.inr ⟨hlength, fun row hrow => List.mem_append_right _ hrow⟩

theorem Consistent.adopt (h : Consistent codec P S cluster) {request : Request}
    {staged : Staging} (hwork : cluster.work i = .appending request (.committed staged)) :
    Consistent codec P S { (cluster.setMemory i { cluster.memory i with
        state := staged.state
        lastSeq := max (cluster.memory i).lastSeq staged.seq
        lastAtMs := max (cluster.memory i).lastAtMs staged.atMs }).setWork i .idle with
      calls := .returned request staged.rows :: cluster.calls } := by
  have hat := h.work i
  rw [hwork] at hat
  obtain ⟨hlength, hlanded⟩ := hat
  refine h.next i (List.append_nil _).symm h.ordered (le_refl _) (by simp) ?_ ?_
    (Or.inl ⟨rfl, rfl⟩) ?_ ?_ ?_
  · intro row hrow
    dsimp only at hrow
    rw [setWork_self] at hrow
    cases hrow
  · intro j hj
    exact ⟨Function.update_of_ne hj _ _, setWork_others _ i .idle j hj⟩
  · have hself : ∀ memory, ((cluster.setMemory i memory).setWork i .idle).memory i = memory :=
      setMemory_self cluster i
    dsimp only
    rw [hself]
    exact Landed.adopt hlanded
  · dsimp only
    rw [setWork_self]
    trivial
  · intro call hcall
    rcases List.mem_cons.mp hcall with rfl | hcall
    · exact Or.inr ⟨hlength, hlanded.batch⟩
    · exact Or.inl hcall

variable [Unicode]

inductive Cluster.Stepped (codec : Codec) (cluster : Cluster ι) : Action ι → Cluster ι → Prop
  | foreign {batch : List (Neighbours × Nat × NewRow)} {rows : List CoreEventRow} {sequence : Nat}
      (hfree : cluster.lock = none)
      (hinsert : insertAll cluster.rows cluster.sequence batch = some (rows, sequence)) :
      Stepped codec cluster (.foreign batch) { cluster with rows, sequence }
  | sync {i : ι} (hidle : cluster.work i = .idle) :
      Stepped codec cluster (.sync i) (cluster.setWork i (.reading none))
  | covered {i : ι} {roomId : Uuid} {roomSeq limit : Nat} (hidle : cluster.work i = .idle) :
      Stepped codec cluster (.foldThrough i roomId roomSeq limit) cluster
  | foldThrough {i : ι} {roomId : Uuid} {roomSeq limit : Nat} (through : Nat)
      (hidle : cluster.work i = .idle) :
      Stepped codec cluster (.foldThrough i roomId roomSeq limit)
        (cluster.setWork i (.reading (some through)))
  | readingThrown {i : ι} {through : Option Nat} {next : Memory} {error : LedgerError}
      (hwork : cluster.work i = .reading through)
      (hpage : foldPage codec (cluster.memory i)
        (nextPage cluster.rows (cluster.memory i).lastSeq) = (next, .error error)) :
      Stepped codec cluster (.page i) ((cluster.setMemory i next).setWork i .idle)
  | catchUpThrown {i : ι} {request : Request} {next : Memory} {error : LedgerError}
      (hwork : cluster.work i = .appending request .catchingUp)
      (hpage : foldPage codec (cluster.memory i)
        (nextPage cluster.rows (cluster.memory i).lastSeq) = (next, .error error)) :
      Stepped codec cluster (.page i) ((cluster.setMemory i next).rollback i [])
  | paged {i : ι} {next : Memory} {entries : List LedgerEntry}
      (hwork : (∃ through, cluster.work i = .reading through) ∨
        ∃ request, cluster.work i = .appending request .catchingUp)
      (hpage : foldPage codec (cluster.memory i)
        (nextPage cluster.rows (cluster.memory i).lastSeq) = (next, .ok entries))
      (hfull : ¬ (nextPage cluster.rows (cluster.memory i).lastSeq).length < pageSize) :
      Stepped codec cluster (.page i) (cluster.setMemory i next)
  | read {i : ι} {through : Option Nat} {next : Memory} {entries : List LedgerEntry}
      (hwork : cluster.work i = .reading through)
      (hpage : foldPage codec (cluster.memory i)
        (nextPage cluster.rows (cluster.memory i).lastSeq) = (next, .ok entries))
      (hlast : (nextPage cluster.rows (cluster.memory i).lastSeq).length < pageSize) :
      Stepped codec cluster (.page i) ((cluster.setMemory i next).setWork i .idle)
  | keyRefused {i : ι} {request : Request} {next : Memory} {entries : List LedgerEntry}
      {error : LedgerError} (hwork : cluster.work i = .appending request .catchingUp)
      (hpage : foldPage codec (cluster.memory i)
        (nextPage cluster.rows (cluster.memory i).lastSeq) = (next, .ok entries))
      (hlast : (nextPage cluster.rows (cluster.memory i).lastSeq).length < pageSize)
      (hkey : checkRetryKey codec request cluster.rows cluster.receipts next.state =
        .error error) :
      Stepped codec cluster (.page i) ((cluster.setMemory i next).rollback i [])
  | replayed {i : ι} {request : Request} {next : Memory} {entries batch : List LedgerEntry}
      (hwork : cluster.work i = .appending request .catchingUp)
      (hpage : foldPage codec (cluster.memory i)
        (nextPage cluster.rows (cluster.memory i).lastSeq) = (next, .ok entries))
      (hlast : (nextPage cluster.rows (cluster.memory i).lastSeq).length < pageSize)
      (hkey : checkRetryKey codec request cluster.rows cluster.receipts next.state =
        .ok (.replayed batch)) :
      Stepped codec cluster (.page i) { (cluster.setMemory i next).setWork i .idle with
        lock := none, calls := .replayed :: cluster.calls }
  | begun {i : ι} {request : Request} {next : Memory} {entries : List LedgerEntry}
      (hwork : cluster.work i = .appending request .catchingUp)
      (hpage : foldPage codec (cluster.memory i)
        (nextPage cluster.rows (cluster.memory i).lastSeq) = (next, .ok entries))
      (hlast : (nextPage cluster.rows (cluster.memory i).lastSeq).length < pageSize)
      (hkey : checkRetryKey codec request cluster.rows cluster.receipts next.state =
        .ok .unused) :
      Stepped codec cluster (.page i) ((cluster.setMemory i next).setWork i (.appending request
        (.staging ⟨[], next.state, next.lastAtMs, next.lastSeq⟩ request.builds)))
  | append {i : ι} {request : Request} (hidle : cluster.work i = .idle) :
      Stepped codec cluster (.append i request) (cluster.setWork i (.appending request .waiting))
  | lock {i : ι} {request : Request} (hwork : cluster.work i = .appending request .waiting)
      (hfree : cluster.lock = none) :
      Stepped codec cluster (.lock i)
        { cluster.setWork i (.appending request .catchingUp) with lock := some i }
  | staged {i : ι} {draw : Draw} {request : Request} {staged next : Staging}
      {build : Id → Timestamp → Json} {remaining : List (Id → Timestamp → Json)}
      (hwork : cluster.work i = .appending request (.staging staged (build :: remaining)))
      (hdraw : cluster.sequence < draw.seq)
      (hnext : stageBuild codec request cluster.rows staged build draw = .ok next) :
      Stepped codec cluster (.stage i draw)
        (Cluster.setWork { cluster with sequence := draw.seq } i
          (.appending request (.staging next remaining)))
  | buildRefused {i : ι} {draw : Draw} {request : Request} {staged : Staging}
      {build : Id → Timestamp → Json} {remaining : List (Id → Timestamp → Json)}
      (hwork : cluster.work i = .appending request (.staging staged (build :: remaining)))
      (hdraw : cluster.sequence < draw.seq) :
      Stepped codec cluster (.stage i draw)
        (Cluster.rollback { cluster with sequence := draw.seq } i
          (staged.rows.map CoreEventRow.seq ++ [draw.seq]))
  | committed {i : ι} {request : Request} {staged : Staging} {receipts : List Receipt}
      (hwork : cluster.work i = .appending request (.staging staged []))
      (hreceipts : mintReceipt request cluster.receipts staged.rows = .ok receipts) :
      Stepped codec cluster (.commit i)
        ((cluster.land staged receipts).setWork i (.appending request (.committed staged)))
  | receiptRefused {i : ι} {action : Action ι} {request : Request} {staged : Staging}
      {error : LedgerError} (haction : action = .commit i ∨ action = .commitAndLose i)
      (hwork : cluster.work i = .appending request (.staging staged []))
      (hreceipts : mintReceipt request cluster.receipts staged.rows = .error error) :
      Stepped codec cluster action (cluster.rollback i (staged.rows.map CoreEventRow.seq))
  | adopted {i : ι} {request : Request} {staged : Staging}
      (hwork : cluster.work i = .appending request (.committed staged)) :
      Stepped codec cluster (.adopt i) { (cluster.setMemory i { cluster.memory i with
          state := staged.state
          lastSeq := max (cluster.memory i).lastSeq staged.seq
          lastAtMs := max (cluster.memory i).lastAtMs staged.atMs }).setWork i .idle with
        calls := .returned request staged.rows :: cluster.calls }
  | readingFailed {i : ι} {through : Option Nat} (hwork : cluster.work i = .reading through) :
      Stepped codec cluster (.fail i) (cluster.setWork i .idle)
  | callFailed {i : ι} {request : Request}
      (hwork : cluster.work i = .appending request .waiting ∨
        cluster.work i = .appending request .catchingUp) :
      Stepped codec cluster (.fail i) (cluster.rollback i [])
  | batchFailed {i : ι} {request : Request} {staged : Staging}
      {remaining : List (Id → Timestamp → Json)}
      (hwork : cluster.work i = .appending request (.staging staged remaining)) :
      Stepped codec cluster (.fail i) (cluster.rollback i (staged.rows.map CoreEventRow.seq))
  | lost {i : ι} {request : Request} {staged : Staging} {receipts : List Receipt}
      (hwork : cluster.work i = .appending request (.staging staged []))
      (hreceipts : mintReceipt request cluster.receipts staged.rows = .ok receipts) :
      Stepped codec cluster (.commitAndLose i) { (cluster.land staged receipts).setWork i .idle with
        calls := .lostAfterCommit request staged.rows :: cluster.calls }

/-- The page an instance folds next, by how it ends. -/
theorem Cluster.stepped_page (hreading : (∃ through, cluster.work i = .reading through) ∨
    ∃ request, cluster.work i = .appending request .catchingUp) :
    cluster.Stepped codec (.page i) (cluster.foldNext codec i) := by
  unfold Cluster.foldNext
  dsimp only
  cases hpage : foldPage codec (cluster.memory i)
      (nextPage cluster.rows (cluster.memory i).lastSeq) with
  | mk next result =>
    rcases hreading with ⟨through, hwork⟩ | ⟨request, hwork⟩
    · rw [hwork]
      cases result with
      | error error => exact .readingThrown hwork hpage
      | ok entries =>
        dsimp only
        split
        · rename_i hlast
          exact .read hwork hpage hlast
        · rename_i hfull
          have hsame : (cluster.setMemory i next).work i = .reading through := hwork
          rw [setWork_same hsame]
          exact .paged (Or.inl ⟨through, hwork⟩) hpage hfull
    · rw [hwork]
      cases result with
      | error error => exact .catchUpThrown hwork hpage
      | ok entries =>
        dsimp only
        split
        · rename_i hlast
          split
          · rename_i error hkey
            exact .keyRefused hwork hpage hlast hkey
          · rename_i batch hkey
            exact .replayed hwork hpage hlast hkey
          · rename_i hkey
            exact .begun hwork hpage hlast hkey
        · rename_i hfull
          exact .paged (Or.inr ⟨request, hwork⟩) hpage hfull

theorem Cluster.stepped {action : Action ι} (hstep : cluster.step codec action = some after) :
    cluster.Stepped codec action after := by
  cases action with
  | foreign batch =>
    simp only [Cluster.step] at hstep
    split at hstep
    · rename_i hfree hinsert
      cases hstep
      exact .foreign hfree hinsert
    · cases hstep
  | sync i =>
    simp only [Cluster.step] at hstep
    split at hstep
    · rename_i hidle
      cases hstep
      exact .sync hidle
    · cases hstep
  | foldThrough i roomId roomSeq limit =>
    simp only [Cluster.step] at hstep
    split at hstep
    · rename_i hidle
      split at hstep
      · cases hstep
        exact .covered hidle
      · cases hstep
        exact .foldThrough _ hidle
    · cases hstep
  | page i =>
    simp only [Cluster.step] at hstep
    split at hstep
    · rename_i through hwork
      cases hstep
      exact Cluster.stepped_page (Or.inl ⟨through, hwork⟩)
    · rename_i request hwork
      cases hstep
      exact Cluster.stepped_page (Or.inr ⟨request, hwork⟩)
    · cases hstep
  | append i request =>
    simp only [Cluster.step] at hstep
    split at hstep
    · rename_i hidle
      split at hstep
      · cases hstep
      · cases hstep
        exact .append hidle
    · cases hstep
  | lock i =>
    simp only [Cluster.step] at hstep
    split at hstep
    · rename_i hwork hfree
      cases hstep
      exact .lock hwork hfree
    · cases hstep
  | stage i draw =>
    simp only [Cluster.step] at hstep
    split at hstep
    · rename_i hwork
      split at hstep
      · rename_i hdraw
        split at hstep
        · rename_i hnext
          cases hstep
          exact .staged hwork hdraw hnext
        · cases hstep
          exact .buildRefused hwork hdraw
      · cases hstep
    · cases hstep
  | commit i =>
    simp only [Cluster.step] at hstep
    split at hstep
    · rename_i hwork
      split at hstep
      · rename_i hreceipts
        cases hstep
        exact .committed hwork hreceipts
      · rename_i hreceipts
        cases hstep
        exact .receiptRefused (Or.inl rfl) hwork hreceipts
    · cases hstep
  | adopt i =>
    simp only [Cluster.step] at hstep
    split at hstep
    · rename_i hwork
      cases hstep
      exact .adopted hwork
    · cases hstep
  | fail i =>
    simp only [Cluster.step] at hstep
    split at hstep
    · rename_i hwork
      cases hstep
      exact .readingFailed hwork
    · rename_i hwork
      cases hstep
      exact .callFailed (Or.inl hwork)
    · rename_i hwork
      cases hstep
      exact .callFailed (Or.inr hwork)
    · rename_i hwork
      cases hstep
      exact .batchFailed hwork
    · cases hstep
  | commitAndLose i =>
    simp only [Cluster.step] at hstep
    split at hstep
    · rename_i hwork
      split at hstep
      · rename_i hreceipts
        cases hstep
        exact .lost hwork hreceipts
      · rename_i hreceipts
        cases hstep
        exact .receiptRefused (Or.inr rfl) hwork hreceipts
    · cases hstep

theorem Consistent.stage (h : Consistent codec P S cluster) {request : Request}
    {staged next : Staging} {build : Id → Timestamp → Json}
    {remaining : List (Id → Timestamp → Json)} {draw : Draw}
    (hwork : cluster.work i = .appending request (.staging staged (build :: remaining)))
    (hlt : cluster.sequence < draw.seq)
    (hnext : stageBuild codec request cluster.rows staged build draw = .ok next)
    (hstate : S (cluster.rows ++ next.rows) next.state) :
    Consistent codec P S (Cluster.setWork { cluster with sequence := draw.seq } i
      (.appending request (.staging next remaining))) := by
  have hat := h.work i
  rw [hwork] at hat
  obtain ⟨hlock, hlength, hstaged, hbounded⟩ := hat
  have hbehind : ∀ row ∈ cluster.rows ++ staged.rows, row.seq < draw.seq := by
    intro row hrow
    rcases List.mem_append.mp hrow with hrow | hrow
    · exact (h.bounded row hrow).trans_lt hlt
    · exact (hbounded row hrow).trans_lt hlt
  obtain ⟨hnextStaged, row, hrows, hseq⟩ :=
    hstaged.stage (Nat.zero_lt_of_lt hlt) hbehind hnext hstate
  have hself := setWork_self { cluster with sequence := draw.seq } i
    (.appending request (.staging next remaining))
  refine h.next i (List.append_nil _).symm h.ordered (le_of_lt hlt) (by simp) ?_ ?_
    (Or.inl ⟨rfl, rfl⟩) (h.holds i) ?_ (fun call hcall => Or.inl hcall)
  · intro held hheld
    rw [hself, hwork] at *
    change held ∈ next.rows at hheld
    rw [hrows] at hheld
    rcases List.mem_append.mp hheld with hheld | hheld
    · exact Or.inl hheld
    · rw [List.mem_singleton.mp hheld, hseq]
      exact Or.inr hlt
  · intro j hj
    exact ⟨rfl, setWork_others { cluster with sequence := draw.seq } i _ j hj⟩
  · rw [hself]
    have hnextLength : next.rows.length + remaining.length = request.builds.length := by
      rw [hrows, List.length_append, List.length_singleton]
      rw [List.length_cons] at hlength
      omega
    refine ⟨hlock, hnextLength, hnextStaged, ?_⟩
    intro held hheld
    rw [hrows] at hheld
    rcases List.mem_append.mp hheld with hheld | hheld
    · exact (hbounded held hheld).trans (le_of_lt hlt)
    · rw [List.mem_singleton.mp hheld, hseq]
      exact le_refl _

theorem Consistent.page (h : Consistent codec P S cluster) (hfolds : Folds codec P S)
    (hreading : (∃ through, cluster.work i = .reading through) ∨
      ∃ request, cluster.work i = .appending request .catchingUp)
    {next : Memory} {result : Except LedgerError (List LedgerEntry)}
    (hpage : foldPage codec (cluster.memory i)
      (nextPage cluster.rows (cluster.memory i).lastSeq) = (next, result)) :
    Consistent codec P S (cluster.setMemory i next) := by
  refine h.setMemory (foldPage_holds hfolds h.ordered (h.holds i) hpage).1 ?_
  have hwork := h.work i
  rcases hreading with ⟨through, hthrough⟩ | ⟨request, hrequest⟩
  · rw [hthrough]
    trivial
  · rw [hrequest] at hwork ⊢
    exact hwork

/-- Whatever happens next, the invariant holds. -/
theorem Consistent.step (h : Consistent codec P S cluster) (hfolds : Folds codec P S)
    {action : Action ι} (hcarries : Carries codec P S cluster action)
    (hstep : cluster.step codec action = some after) :
    Consistent codec P S after := by
  have hlockOf : ∀ {i request}, cluster.work i = .appending request .catchingUp →
      cluster.lock = some i := by
    intro i request hwork
    have hat := h.work i
    rw [hwork] at hat
    exact hat
  cases Cluster.stepped hstep with
  | foreign hfree hinsert => exact h.foreign hfree hinsert
  | sync hidle => exact h.setWork trivial rfl
  | covered hidle => exact h
  | foldThrough through hidle => exact h.setWork trivial rfl
  | @readingThrown i through next error hwork hpage =>
    exact (h.page hfolds (Or.inl ⟨through, hwork⟩) hpage).setWork trivial rfl
  | @catchUpThrown i request next error hwork hpage =>
    exact (h.page hfolds (Or.inr ⟨request, hwork⟩) hpage).rollback (Or.inl rfl) (by simp)
  | paged hwork hpage hfull => exact h.page hfolds hwork hpage
  | @read i through next entries hwork hpage hlast =>
    exact (h.page hfolds (Or.inl ⟨through, hwork⟩) hpage).setWork trivial rfl
  | @keyRefused i request next entries error hwork hpage hlast hkey =>
    exact (h.page hfolds (Or.inr ⟨request, hwork⟩) hpage).rollback (Or.inl rfl) (by simp)
  | @replayed i request next entries batch hwork hpage hlast hkey =>
    exact (h.page hfolds (Or.inr ⟨request, hwork⟩) hpage).finish (Or.inr (hlockOf hwork)) trivial
  | @begun i request next entries hwork hpage hlast hkey =>
    have hmoved := h.page hfolds (Or.inr ⟨request, hwork⟩) hpage
    obtain ⟨hholds, hcaught⟩ := foldPage_holds hfolds h.ordered (h.holds i) hpage
    refine hmoved.setWork ?_ rfl
    have hself : (cluster.setMemory i next).memory i = next := setMemory_self cluster i next
    rw [hself]
    exact ⟨hlockOf hwork, Nat.zero_add _,
      staged_start hfolds hmoved.ordered hholds (hcaught rfl hlast), by simp⟩
  | @append i request hidle => exact h.setWork trivial rfl
  | lock hwork hfree => exact h.takeLock hfree
  | @staged i draw request staged next build remaining hwork hdraw hnext =>
    have hat := h.work i
    rw [hwork] at hat
    obtain ⟨-, -, hstaged, -⟩ := hat
    have hstate := hcarries.stages i request staged build remaining draw next rfl hwork hnext
      hstaged.state
    exact h.stage hwork hdraw hnext hstate
  | buildRefused hwork hdraw =>
    -- The number this pass has drawn is lost with those of the rows before it.
    refine (h.draw hdraw).rollback (Or.inr (h.lock_of_staging hwork)) ?_
    intro n hn
    rcases List.mem_append.mp hn with hn | hn
    · obtain ⟨hle, hapart⟩ := h.staged_apart hwork n hn
      exact ⟨hle.trans (le_of_lt hdraw), hapart⟩
    · rw [List.mem_singleton.mp hn]
      refine ⟨le_refl _, ?_⟩
      intro row hrow
      exact ne_of_lt ((h.bounded row hrow).trans_lt hdraw)
  | @committed i request staged receipts hwork hreceipts =>
    have hat := h.work i
    rw [hwork] at hat
    obtain ⟨-, -, hstaged, -⟩ := hat
    have hlanded := hstaged.landed (h.holds i)
      (hcarries.commits i request staged rfl hwork hstaged.state)
    exact h.land hwork (fun hlength => ⟨hlength, hlanded⟩) rfl fun call hcall => Or.inl hcall
  | receiptRefused haction hwork hreceipts =>
    exact h.rollback (Or.inr (h.lock_of_staging hwork)) (h.staged_apart hwork)
  | adopted hwork => exact h.adopt hwork
  | readingFailed hwork => exact h.setWork trivial rfl
  | callFailed hwork => exact h.rollback (Or.inl rfl) (by simp)
  | batchFailed hwork =>
    exact h.rollback (Or.inr (h.lock_of_staging hwork)) (h.staged_apart hwork)
  | lost hwork hreceipts =>
    refine h.land hwork (fun _ => trivial) rfl ?_
    intro call hcall
    exact (List.mem_cons.mp hcall).symm

theorem Cluster.Reached.consistent (hback : codec.BringsBack)
    (h : cluster.Reached codec fun cluster action => ¬ cluster.ListsStrays codec action) :
    Consistent codec (FoldOf codec) (FoldOf codec) cluster := by
  induction h with
  | start => exact consistent_empty folds_fold.empty
  | next action _ hfew hstep ih => exact ih.step folds_fold (carries_fold hback hfew) hstep

/-- Where the rows are, without the states. -/
abbrev Placed (codec : Codec) (cluster : Cluster ι) : Prop :=
  Consistent codec (fun _ _ => True) (fun _ _ => True) cluster

theorem Placed.step {action : Action ι} (h : Placed codec cluster)
    (hstep : cluster.step codec action = some after) : Placed codec after :=
  Consistent.step h ⟨trivial, fun _ _ _ => trivial, fun _ => trivial⟩
    ⟨fun _ _ _ _ _ _ _ _ _ _ _ => trivial, fun _ _ _ _ _ _ => trivial⟩ hstep

theorem Cluster.Reached.placed {allowed : Cluster ι → Action ι → Prop}
    (h : cluster.Reached codec allowed) : Placed codec cluster := by
  induction h with
  | start => exact consistent_empty trivial
  | next action _ _ hstep ih => exact ih.step hstep

theorem Cluster.Reached.run {allowed : Cluster ι → Action ι → Prop} {actions : List (Action ι)}
    (h : cluster.Reached codec allowed)
    (hallowed : Runs.Allowed (Cluster.step codec) allowed cluster actions)
    (hrun : cluster.run codec actions = some after) : after.Reached codec allowed := by
  induction actions generalizing cluster with
  | nil =>
    cases hrun
    exact h
  | cons action rest ih =>
    obtain ⟨mid, hstep, hrest⟩ := Option.bind_eq_some_iff.mp hrun
    exact ih (h.next action hallowed.1 hstep) (hallowed.2 mid hstep) hrest

theorem Cluster.Reached.observed {allowed : Cluster ι → Action ι → Prop}
    {actions : List (Action ι)} {α : Type} (h : cluster.Reached codec allowed)
    (hallowed : Runs.Allowed (Cluster.step codec) allowed cluster actions)
    {observe : Cluster ι → α} {value : α}
    (hrun : (cluster.run codec actions).map observe = some value) :
    ∃ after : Cluster ι, after.Reached codec allowed ∧ observe after = value := by
  obtain ⟨after, hafter, hvalue⟩ := Option.map_eq_some_iff.mp hrun
  exact ⟨after, h.run hallowed hafter, hvalue⟩

end Step

/-! ## A patch in the order of `jsonb` -/

section Codec

/-- What the codec of the messages and the decision stores, it reads back. -/
theorem messageCodec_bringsBack : messageCodec.BringsBack where
  roomEvent := by
    intro json event h
    obtain ⟨id, at_, -, -, hid, hat, hreads⟩ := messageEvent_reads h
    cases hreads with
    | message roomId messageId body hmessage =>
      refine ⟨_, ?_, .server _ ⟨id, at_, .messagePosted, roomId,
        [("messageId", .string messageId), ("body", .string body)]⟩⟩
      simp [messageCodec, messageEvent, readBody, payloadOf, jsonbGet, lookupField, hid, hat,
        hmessage]
    | acceptance =>
      refine ⟨_, ?_, .core none (.same _)⟩
      simp [messageCodec, messageEvent, readBody, acceptancePayload, payloadOf, jsonbGet,
        lookupField, hid, hat]
    | @correction action haction patch hnodup =>
      have hperm := List.perm_insertionSort (fun a b => jsonbKeyLe a.1 b.1) patch
      refine ⟨_, ?_, .core none (.corrected id at_ (correctionOf action patch)
        (.of_perm hperm.symm hnodup))⟩
      have hsorted := (hperm.map Prod.fst).nodup_iff.mpr hnodup
      rcases haction with rfl | rfl
      · simp [messageCodec, messageEvent, readBody, correctionPayload, payloadOf, jsonbGet,
          lookupField, hid, hat, hsorted, correctionOf, CorrectionAction.name]
      · simp [messageCodec, messageEvent, readBody, correctionPayload, payloadOf, jsonbGet,
          lookupField, hid, hat, hsorted, correctionOf, CorrectionAction.name]
  coreEvent := by
    rintro event event' core h hcore
    cases h with
    | @core held held' sessionId h =>
      cases hcore
      exact ⟨held', rfl, h⟩
    | server held held' => cases hcore

end Codec

/-! ## A batch whose answer is lost -/

section Lost

def helloRequest : Request where
  roomId := uuidText demoRoom
  actor := .system
  idempotency := none
  requireClean := false
  builds := [fun id at_ => messagePayload id (.string at_) (uuidText demoRoom)]

/-- An event of the member. -/
def memberRequest (build : String → String → Json) : Request where
  roomId := uuidText demoRoom
  actor := .human (uuidText memberId)
  idempotency := none
  requireClean := false
  builds := [build]

/-- What a pass of the loop draws while nothing else happens. -/
def quietDraw (around : Neighbours) (seq : Nat) (id : Id) : Draw :=
  ⟨1767323045678, id, around, around, seq, true⟩

/-- The event of the member on one instance. -/
def memberRun {ι : Type} (i : ι) (seq : Nat) (id : Id) (build : String → String → Json) :
    List (Action ι) :=
  [.append i (memberRequest build), .lock i, .page i, .stage i (quietDraw memberNeighbours seq id),
    .commit i, .adopt i]

/-- A message whose answer is lost. -/
def helloLost {ι : Type} (i : ι) (seq : Nat) (id : Id) : List (Action ι) :=
  [.append i helloRequest, .lock i, .page i, .stage i (quietDraw emptyNeighbours seq id),
    .commitAndLose i]

/-- The member accepts the decision, and another instance syncs. The member amends two fields, in an
order that is not that of `jsonb`; the other instance appends a message and loses its connection at
the commit; and the first one syncs. -/
def lostRun : List (Action Bool) :=
  memberRun true 1 "event-1" acceptancePayload ++ [.sync false, .page false] ++
    memberRun true 2 "event-2" (correctionPayload .amend
      [("statement", .string "Ship it now."), ("status", .string "active")]) ++
    helloLost false 3 "event-3" ++ [.sync true, .page true]

/-- Whether the next event to stage is none or no `reattribute`. -/
def stagesPlainly {ι : Type} (cluster : Cluster ι) (action : Action ι) : Bool :=
  match action with
  | .stage i draw =>
    match cluster.work i with
    | .appending _ (.staging staged (build :: _)) =>
      match messageEvent (build draw.id (toISOString (mintAtMs draw.now staged.atMs))) with
      | .ok (.core ⟨_, _, .objectCorrected correction⟩ _) => correction.action != .reattribute
      | _ => true
    | _ => true
  | _ => true

theorem not_listsStrays {ι : Type} (cluster : Cluster ι) (action : Action ι)
    (h : stagesPlainly cluster action = true) : ¬ cluster.ListsStrays messageCodec action := by
  rintro ⟨i, draw, request, staged, build, remaining, event, core, rfl, hwork, hevent, hcore,
    correction, record, field, key, other, hbody, haction, -⟩
  have hread : messageEvent (build draw.id (toISOString (mintAtMs draw.now staged.atMs))) =
      .ok event := hevent
  unfold stagesPlainly at h
  dsimp only at h
  rw [hwork] at h
  dsimp only at h
  rw [hread] at h
  cases event with
  | core held sessionId =>
    cases hcore
    obtain ⟨id, at_, body⟩ := core
    cases hbody
    simp [haction] at h
  | server held => cases hcore

theorem lostRun_allowed : let _ : Unicode := Unicode.ascii
    Runs.Allowed (Cluster.step messageCodec)
      (fun cluster action => ¬ cluster.ListsStrays messageCodec action) (emptyCluster Bool)
      lostRun := by
  intro _
  refine Runs.allowed_of_passes not_listsStrays ?_
  decide +kernel

/-- A `reattribute` with two keys that are not `decidedBy`, which `jsonb` puts the other way round. -/
def strayRun : List (Action Unit) :=
  memberRun () 1 "event-1" acceptancePayload ++ memberRun () 2 "event-2" (correctionPayload
    .reattribute (("statement", .string "Ship it now.") :: [("due", .null)]))

def issueTexts (state : CoreState) : List String := state.issues.map ReducerIssue.reason

/-- Whether the last finished call lost the answer to a batch. -/
def lostItsAnswer (cluster : Cluster Unit) : Bool :=
  match cluster.calls with
  | .lostAfterCommit _ (_ :: _) :: _ => true
  | _ => false

/-- The issues an instance holds and those of the fold of the rows it has seen. -/
def bothIssues (cluster : Cluster Unit) : List String × Except TypeError (List String) :=
  let _ : Unicode := Unicode.ascii
  (issueTexts (cluster.memory ()).state,
    (foldLedger messageCodec (upTo cluster.rows (cluster.memory ()).lastSeq)).map issueTexts)

end Lost

end Server
