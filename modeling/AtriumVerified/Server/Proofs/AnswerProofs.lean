import AtriumVerified.Server.Answers
import AtriumVerified.Server.Proofs.ClusterProofs

/-!
# What a step of the cluster hands out

For every way a step of the cluster can go, what the calls of the ledger hold and have returned
after it.
-/

namespace Server

open Core Js Postgres

/-! ## Entries of a page -/

section Entries

variable {codec : Codec}

theorem parseRow_seq (row : CoreEventRow) : (parseRow codec row).entry.seq = row.seq := by
  unfold parseRow
  split
  · rfl
  · dsimp only
    split
    · rfl
    · split
      · rfl
      · rfl

theorem foldedEntry_seq (state : CoreState) (reasons : List (Id × String)) (row : CoreEventRow) :
    (foldedEntry codec state reasons row).1.seq = row.seq := by
  have hseq : (parseRow codec row).entry.seq = row.seq := parseRow_seq row
  unfold foldedEntry
  split
  · rename_i seq _ _ _ hentry
    rw [hentry] at hseq
    exact hseq
  · rename_i hentry
    rw [hentry] at hseq
    split
    · exact hseq
    · exact hseq

theorem foldPage_seqs [Unicode] {memory next : Memory} {page : List CoreEventRow}
    {entries : List LedgerEntry} (h : foldPage codec memory page = (next, .ok entries)) :
    entries.map LedgerEntry.seq = page.map fun row => row.seq := by
  rcases foldPage_cases h with ⟨error, hresult, -⟩ | ⟨outcomes, -, -, -, -, hresult⟩
  · cases hresult
  · cases hresult
    rw [List.map_map]
    exact List.map_congr_left fun row _ => foldedEntry_seq _ _ row

theorem syncedEntries_append (first second : List Answer) :
    syncedEntries (first ++ second) = syncedEntries first ++ syncedEntries second :=
  List.flatMap_append

theorem syncedEntries_synced (entries : List LedgerEntry) :
    syncedEntries [.synced entries] = entries := by
  unfold syncedEntries
  rw [List.flatMap_singleton]

end Entries

/-! ## Notes -/

section Notes

theorem answers_unchanged {ι : Type} {before after : Observed ι} {i : ι} {answer : Answer}
    (hsame : after.answers i = before.answers i) :
    after.answers i ≠ before.answers i ++ [answer] := by
  rw [hsame]
  exact fun heq => List.cons_ne_nil _ _ (List.self_eq_append_right.mp heq)

theorem give_answers {ι : Type} [DecidableEq ι] {before : Observed ι} {i : ι} (answer : Answer) :
    (before.give i answer).answers i = before.answers i ++ [answer] :=
  Function.update_self _ _ _

variable {ι : Type} [Unicode] {codec : Codec} {before : Observed ι} {after : Cluster ι} {i : ι}
  {request : Request} {entries batch : List LedgerEntry}

theorem nextFold_eq {next : Memory} {result : Except LedgerError (List LedgerEntry)}
    (h : foldPage codec (before.cluster.memory i)
      (nextPage before.cluster.rows (before.cluster.memory i).lastSeq) = (next, result)) :
    before.nextFold codec i = result := by
  unfold Observed.nextFold
  dsimp only
  rw [h]

variable [DecidableEq ι]

/-- What a page adds to `folded`. -/
def Observed.saw (before : Observed ι) (after : Cluster ι) (i : ι) (entries : List LedgerEntry) :
    Observed ι :=
  { before with
    cluster := after, folded := Function.update before.folded i (before.folded i ++ entries) }

theorem notePage_thrown {error : LedgerError} (h : before.nextFold codec i = .error error) :
    before.notePage codec after i = { before with cluster := after } := by
  unfold Observed.notePage
  rw [h]

theorem notePage_same (h : before.nextFold codec i = .ok entries)
    (hwork : after.work i = before.cluster.work i)
    (hreading : (∃ through, before.cluster.work i = .reading through) ∨
      ∃ request, before.cluster.work i = .appending request .catchingUp) :
    before.notePage codec after i = before.saw after i entries := by
  unfold Observed.notePage
  rw [h]
  dsimp only
  rw [hwork]
  rcases hreading with ⟨through, hreading⟩ | ⟨request, hreading⟩
  · rw [hreading]
    cases through with
    | none => rfl
    | some n => rfl
  · rw [hreading]
    rfl

theorem notePage_synced (h : before.nextFold codec i = .ok entries)
    (hwork : before.cluster.work i = .reading none) (hafter : after.work i = .idle) :
    before.notePage codec after i =
      (before.saw after i entries).give i (.synced (before.folded i ++ entries)) := by
  unfold Observed.notePage
  rw [h]
  dsimp only
  rw [hwork, hafter]
  rfl

theorem notePage_through {through : Nat} (h : before.nextFold codec i = .ok entries)
    (hwork : before.cluster.work i = .reading (some through)) :
    before.notePage codec after i = before.saw after i entries := by
  unfold Observed.notePage
  rw [h]
  dsimp only
  rw [hwork]
  rfl

theorem notePage_refused {error : LedgerError} (h : before.nextFold codec i = .ok entries)
    (hwork : before.cluster.work i = .appending request .catchingUp) (hafter : after.work i = .idle)
    (hkey : checkRetryKey codec request after.rows after.receipts (after.memory i).state =
      .error error) : before.notePage codec after i = before.saw after i entries := by
  unfold Observed.notePage
  rw [h]
  dsimp only
  rw [hwork, hafter]
  dsimp only
  rw [hkey]
  rfl

theorem notePage_replayed (h : before.nextFold codec i = .ok entries)
    (hwork : before.cluster.work i = .appending request .catchingUp) (hafter : after.work i = .idle)
    (hkey : checkRetryKey codec request after.rows after.receipts (after.memory i).state =
      .ok (.replayed batch)) :
    before.notePage codec after i =
      (before.saw after i entries).give i (.appended request batch true) := by
  unfold Observed.notePage
  rw [h]
  dsimp only
  rw [hwork, hafter]
  dsimp only
  rw [hkey]
  rfl

theorem notePage_begun {staged : Staging} {remaining : List (Id → Timestamp → Json)}
    (h : before.nextFold codec i = .ok entries)
    (hwork : before.cluster.work i = .appending request .catchingUp)
    (hafter : after.work i = .appending request (.staging staged remaining)) :
    before.notePage codec after i = (before.saw after i entries).setResults i [] := by
  unfold Observed.notePage
  rw [h]
  dsimp only
  rw [hwork, hafter]
  rfl

def Action.who : Action ι → Option ι
  | .foreign _ => none
  | .sync i | .foldThrough i _ _ _ | .page i | .append i _ | .lock i | .stage i _ | .commit i
  | .adopt i | .fail i | .commitAndLose i => some i

omit [Unicode] in
theorem update_other {β : Type} (f : ι → β) {i j : ι} (value : β) (h : some i ≠ some j) :
    Function.update f i value j = f j :=
  Function.update_of_ne (fun heq => h (congrArg some heq.symm)) _ _

theorem Cluster.Stepped.others {cluster : Cluster ι} {action : Action ι}
    (h : cluster.Stepped codec action after) {j : ι} (hj : action.who ≠ some j) :
    after.work j = cluster.work j ∧ after.memory j = cluster.memory j := by
  cases h with
  | foreign | covered => exact ⟨rfl, rfl⟩
  | sync | foldThrough | append | lock | staged | buildRefused | committed | readingFailed
    | callFailed | batchFailed | lost => exact ⟨update_other _ _ hj, rfl⟩
  | paged => exact ⟨rfl, update_other _ _ hj⟩
  | readingThrown | catchUpThrown | read | keyRefused | replayed | begun | adopted =>
    exact ⟨update_other _ _ hj, update_other _ _ hj⟩
  | receiptRefused haction =>
    rcases haction with rfl | rfl
    · exact ⟨update_other _ _ hj, rfl⟩
    · exact ⟨update_other _ _ hj, rfl⟩

theorem notePage_others {j : ι} (hj : i ≠ j) :
    (before.notePage codec after i).answers j = before.answers j ∧
      (before.notePage codec after i).folded j = before.folded j ∧
      (before.notePage codec after i).results j = before.results j := by
  have hupdate : ∀ {β : Type} (f : ι → β) (value : β), Function.update f i value j = f j :=
    fun f value => Function.update_of_ne hj.symm _ _
  unfold Observed.notePage Observed.give Observed.setResults
  split
  · exact ⟨rfl, rfl, rfl⟩
  · dsimp only
    split
    · exact ⟨hupdate _ _, hupdate _ _, rfl⟩
    · split
      · exact ⟨hupdate _ _, hupdate _ _, rfl⟩
      · exact ⟨rfl, hupdate _ _, rfl⟩
    · exact ⟨rfl, hupdate _ _, hupdate _ _⟩
    · exact ⟨rfl, hupdate _ _, rfl⟩

theorem notePage_rest : (before.notePage codec after i).cluster = after ∧
    (before.notePage codec after i).committed = before.committed ∧
    (before.notePage codec after i).pages = before.pages := by
  unfold Observed.notePage Observed.give Observed.setResults
  split
  · exact ⟨rfl, rfl, rfl⟩
  · dsimp only
    split
    · exact ⟨rfl, rfl, rfl⟩
    · split
      · exact ⟨rfl, rfl, rfl⟩
      · exact ⟨rfl, rfl, rfl⟩
    · exact ⟨rfl, rfl, rfl⟩
    · exact ⟨rfl, rfl, rfl⟩

theorem note_cluster (action : Action ι) : (before.note codec after action).cluster = after := by
  unfold Observed.note
  split
  · exact notePage_rest.1
  · rfl
  · rfl
  · rfl
  · dsimp only
    split
    · rfl
    · rfl
  · dsimp only
    split
    · split
      · rfl
      · rfl
    · rfl
  · dsimp only
    split
    · split
      · rfl
      · rfl
    · rfl
  · dsimp only
    split
    · rfl
    · rfl
  · rfl
  · rfl
  · rfl

theorem note_committed {action : Action ι} {staged : Staging} {receipts : List Receipt}
    (haction : action = .commit i ∨ action = .commitAndLose i)
    (hwork : before.cluster.work i = .appending request (.staging staged []))
    (hreceipts : mintReceipt request before.cluster.receipts staged.rows = .ok receipts) :
    before.note codec after action =
      ({ before with cluster := after } : Observed ι).noteBatch i ⟨request, staged.rows⟩ := by
  rcases haction with rfl | rfl
  · simp only [Observed.note]
    rw [hwork]
    dsimp only
    rw [hreceipts]
  · simp only [Observed.note]
    rw [hwork]
    dsimp only
    rw [hreceipts]

theorem note_receiptRefused {action : Action ι} {staged : Staging} {error : LedgerError}
    (haction : action = .commit i ∨ action = .commitAndLose i)
    (hwork : before.cluster.work i = .appending request (.staging staged []))
    (hreceipts : mintReceipt request before.cluster.receipts staged.rows = .error error) :
    before.note codec after action = { before with cluster := after } := by
  rcases haction with rfl | rfl
  · simp only [Observed.note]
    rw [hwork]
    dsimp only
    rw [hreceipts]
  · simp only [Observed.note]
    rw [hwork]
    dsimp only
    rw [hreceipts]

theorem note_adopted {phase : Phase} (hwork : before.cluster.work i = .appending request phase) :
    before.note codec after (.adopt i) = ({ before with cluster := after } : Observed ι).give i
      (.appended request ((before.results i).map (withIssues (after.memory i).state)) false) := by
  simp only [Observed.note]
  rw [hwork]

theorem note_staged {draw : Draw} {request' : Request} {staged next : Staging}
    {build : Id → Timestamp → Json} {remaining remaining' : List (Id → Timestamp → Json)}
    (hwork : before.cluster.work i = .appending request (.staging staged (build :: remaining)))
    (hafter : after.work i = .appending request' (.staging next remaining')) :
    before.note codec after (.stage i draw) =
      ({ before with cluster := after } : Observed ι).setResults i
        (before.results i ++ (stagedResult codec request staged next build draw).toList) := by
  simp only [Observed.note]
  rw [hwork, hafter]

theorem note_buildRefused {draw : Draw} (hafter : after.work i = .idle) :
    before.note codec after (.stage i draw) = { before with cluster := after } := by
  simp only [Observed.note]
  rw [hafter]
  split
  · rename_i hphase
    cases hphase
  · rfl

/-- An action hands out nothing on the other instances. -/
theorem note_others {action : Action ι} {j : ι} (hj : action.who ≠ some j) :
    (before.note codec after action).answers j = before.answers j ∧
      (before.note codec after action).folded j = before.folded j ∧
      (before.note codec after action).results j = before.results j := by
  cases action with
  | page i => exact notePage_others fun heq => hj (congrArg some heq)
  | sync i | lock i => exact ⟨rfl, update_other _ _ hj, rfl⟩
  | foldThrough i roomId roomSeq limit => exact ⟨rfl, update_other _ _ hj, rfl⟩
  | stage i draw =>
    unfold Observed.note
    dsimp only
    split
    · exact ⟨rfl, rfl, update_other _ _ hj⟩
    · exact ⟨rfl, rfl, rfl⟩
  | commit i | commitAndLose i =>
    unfold Observed.note
    dsimp only
    split
    · split
      · exact ⟨rfl, rfl, rfl⟩
      · exact ⟨rfl, rfl, rfl⟩
    · exact ⟨rfl, rfl, rfl⟩
  | adopt i =>
    unfold Observed.note
    dsimp only
    split
    · exact ⟨update_other _ _ hj, rfl, rfl⟩
    · exact ⟨rfl, rfl, rfl⟩
  | foreign batch => exact ⟨rfl, rfl, rfl⟩
  | append i request => exact ⟨rfl, rfl, rfl⟩
  | fail i => exact ⟨rfl, rfl, rfl⟩

end Notes

end Server
