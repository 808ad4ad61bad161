import AtriumVerified.Server.Attention
import AtriumVerified.Core.Proofs.AttentionProofs

/-!
# Proofs: what the writers of the attention table leave of a settled row

A worker writes back what it read before its transaction, and a settlement does not ask whether the
item is pending. Where neither meets a row that is settled already, every settled row keeps its
status and its date.
-/

namespace Server

open Core Js Postgres

/-! ## Keys -/

theorem attentionKey_eq_some {userId subjectId : Id} {kind : AttentionSubjectKind}
    {cls : AttentionClass} {key : AttentionKey} (h : attentionKey userId kind subjectId cls = some key) :
    uuid userId = some key.userId ∧ kind = key.subjectKind ∧ uuid subjectId = some key.subjectId ∧
      cls = key.cls := by
  unfold attentionKey at h
  split at h
  · next user subject hu hs =>
    cases h
    exact ⟨hu, rfl, hs, rfl⟩
  · cases h

theorem AttentionKey.eq_of_fields {a b : AttentionKey} (huser : a.userId = b.userId)
    (hkind : a.subjectKind = b.subjectKind) (hsubject : a.subjectId = b.subjectId)
    (hcls : a.cls = b.cls) : a = b := by
  cases a
  cases b
  cases huser
  cases hkind
  cases hsubject
  cases hcls
  rfl

theorem key_of_itemKey_storedItem {key k : AttentionKey} {row : AttentionItemRow}
    (h : itemKey (storedItem k row) = some key) : k = key := by
  obtain ⟨huser, hkind, hsubject, hcls⟩ := attentionKey_eq_some h
  have hu : some k.userId = some key.userId := k.userId_text.symm.trans huser
  have hs : some k.subjectId = some key.subjectId := k.subjectId_text.symm.trans hsubject
  exact AttentionKey.eq_of_fields (Option.some.inj hu) hkind (Option.some.inj hs) hcls

theorem AttentionKey.itemId_inj {a b : AttentionKey} (h : a.itemId = b.itemId) : a = b := by
  obtain ⟨huser, hkind, hsubject, hcls⟩ := attentionItemId_inj h
  have hu := a.userId_text
  rw [huser, b.userId_text] at hu
  have hs := a.subjectId_text
  rw [hsubject, b.subjectId_text] at hs
  exact AttentionKey.eq_of_fields (Option.some.inj hu).symm hkind (Option.some.inj hs).symm hcls

theorem mem_storedItems {stored : AttentionTable} {item : AttentionItem} :
    item ∈ storedItems stored ↔ ∃ key row, stored.lookup key = some row ∧ storedItem key row = item := by
  unfold storedItems
  rw [List.mem_map]
  constructor
  · rintro ⟨⟨key, row⟩, hentry, heq⟩
    exact ⟨key, row, AList.mem_lookup_iff.mpr hentry, heq⟩
  · rintro ⟨key, row, hlookup, heq⟩
    exact ⟨⟨key, row⟩, AList.mem_lookup_iff.mp hlookup, heq⟩

theorem storedById_itemId {stored : AttentionTable} {key : AttentionKey} {seen : AttentionItemRow}
    (h : stored.lookup key = some seen) :
    storedById (storedItems stored) key.itemId = some (storedItem key seen) := by
  obtain ⟨previous, hprevious⟩ := storedById_isSome (mem_storedItems.mpr ⟨key, seen, h, rfl⟩)
  have hid : (storedItem key seen).id = key.itemId := rfl
  rw [hid] at hprevious
  obtain ⟨hmem, hsame⟩ := storedById_mem hprevious
  obtain ⟨k, row, hrow, rfl⟩ := mem_storedItems.mp hmem
  obtain rfl := AttentionKey.itemId_inj hsame
  rw [h] at hrow
  cases hrow
  exact hprevious

/-! ## One step -/

section Row

variable {table next : AttentionTable} {key : AttentionKey} {row : AttentionItemRow}

def RowKept (key : AttentionKey) (row : AttentionItemRow) (table : AttentionTable) : Prop :=
  ∃ later, table.lookup key = some later ∧ later.Says row

theorem rowKept_of_lookup (h : table.lookup key = some row) : RowKept key row table :=
  ⟨row, h, rfl, rfl, rfl⟩

def Agrees (now : Timestamp) (row : AttentionItemRow) (item : AttentionItem) : Prop :=
  item.status = row.status ∧
    ∀ resolvedAt, resolvedDate item.status now = some resolvedAt → resolvedAt = row.resolvedAt

theorem kept_writeItem {now : Timestamp} {fresh : AttentionKey → Uuid} {item : AttentionItem}
    (h : writeItem now fresh table item = some next) (hkept : RowKept key row table)
    (hagrees : itemKey item = some key → Agrees now row item) : RowKept key row next := by
  unfold writeItem at h
  simp only [Option.bind_eq_bind, Option.bind_eq_some_iff, Option.pure_def, Option.some.injEq] at h
  obtain ⟨k, hk, room, -, createdAt, -, resolvedAt, hresolved, rfl⟩ := h
  obtain ⟨later, hlater, hid, hstatus, hdate⟩ := hkept
  by_cases hkey : key = k
  · subst hkey
    obtain ⟨hsame, hsettled⟩ := hagrees hk
    exact ⟨_, Table.lookup_upsertRow_held hlater _ _, hid, hsame, hsettled _ hresolved⟩
  · exact ⟨later, by rw [Table.lookup_upsertRow_ne hkey, hlater], hid, hstatus, hdate⟩

theorem kept_writeItems {now : Timestamp} {fresh : AttentionKey → Uuid}
    {items : List ComputedAttentionItem}
    (h : items.foldlM (fun table item => writeItem now fresh table item.toAttentionItem) table =
      some next) (hkept : RowKept key row table)
    (hagrees : ∀ item ∈ items, itemKey item.toAttentionItem = some key →
      Agrees now row item.toAttentionItem) : RowKept key row next := by
  induction items generalizing table with
  | nil =>
    cases h
    exact hkept
  | cons item items ih =>
    rw [List.foldlM_cons, Option.bind_eq_bind, Option.bind_eq_some_iff] at h
    obtain ⟨middle, hitem, hrest⟩ := h
    have hmiddle := kept_writeItem hitem hkept (hagrees item List.mem_cons_self)
    exact ih hrest hmiddle fun other hother => hagrees other (List.mem_cons_of_mem _ hother)

theorem kept_insertIfAbsent (h : table.lookup key = some row) (k : AttentionKey)
    (other : AttentionItemRow) : RowKept key row (table.insertIfAbsent k other) :=
  rowKept_of_lookup (Table.lookup_insertIfAbsent h k other)

theorem kept_updateWhere {condition : AttentionKey → AttentionItemRow → Bool}
    {change : AttentionItemRow → AttentionItemRow} (h : table.lookup key = some row)
    (hkeeps : condition key row = true → (change row).Says row) :
    RowKept key row (table.updateWhere condition change) := by
  refine ⟨if condition key row then change row else row, ?_, ?_⟩
  · rw [Table.lookup_updateWhere, h, Option.map_some]
  · by_cases hcondition : condition key row = true
    · rw [if_pos hcondition]
      exact hkeeps hcondition
    · rw [if_neg hcondition]
      exact ⟨rfl, rfl, rfl⟩

end Row

/-- What a worker writes over a settled row agrees with it, if nothing disturbed the row. -/
theorem agrees_of_undisturbed {table stored : AttentionTable} {projection : AttentionProjection}
    {now : Timestamp} (hcalm : WriteUndisturbed table stored projection now) {key : AttentionKey}
    {row : AttentionItemRow} (hrow : table.lookup key = some row) (hsettled : row.Settled)
    {item : ComputedAttentionItem} (hitem : item ∈ reconcileAttention (storedItems stored) projection)
    (hkey : itemKey item.toAttentionItem = some key) : Agrees now row item.toAttentionItem := by
  have hagrees (hwrites : Writes stored projection key) (hstatus : item.status = row.status) :
      Agrees now row item.toAttentionItem := by
    refine ⟨hstatus, ?_⟩
    intro resolvedAt hresolved
    obtain ⟨-, hdate, -⟩ := hcalm key row hrow hsettled hwrites
    unfold resolvedDate at hresolved
    rw [hstatus, if_neg hsettled, Option.map_eq_some_iff] at hresolved
    obtain ⟨ms, hms, rfl⟩ := hresolved
    rw [hdate, hms]
  rcases mem_reconcileAttention hitem with ⟨entry, hentry, rfl⟩ | ⟨entry, hentry, -, rfl⟩
  · -- A computed item has the status of the row that was read under its id.
    obtain ⟨status, hfields⟩ := keepStatus_fields (storedItems stored) entry
    have hentryKey : itemKey entry.toAttentionItem = some key := by
      rw [hfields] at hkey
      exact hkey
    have hwrites : Writes stored projection key := Or.inr ⟨entry, hentry, hentryKey⟩
    obtain ⟨⟨seen, hseen, hsame⟩, -, hid⟩ := hcalm key row hrow hsettled hwrites
    have hprevious := storedById_itemId hseen
    rw [← hid entry hentry hentryKey] at hprevious
    refine hagrees hwrites ?_
    rw [keepStatus_status hprevious]
    exact hsame
  · -- A stored item was settled when it was read, and so is left as it was.
    obtain ⟨k, seen, hseen, rfl⟩ := mem_storedItems.mp hentry
    have hstoredKey : itemKey (storedItem k seen) = some key := hkey
    obtain rfl := key_of_itemKey_storedItem hstoredKey
    have hwrites : Writes stored projection k := Or.inl ⟨seen, hseen⟩
    obtain ⟨⟨seen', hseen', hsame⟩, -, -⟩ := hcalm k row hrow hsettled hwrites
    rw [hseen] at hseen'
    cases hseen'
    refine hagrees hwrites ?_
    have hread : (storedItem k seen).status = row.status := hsame
    rw [concludeStored_status (by rw [hread]; exact hsettled), hread]

theorem keepsSettled_refl (table : AttentionTable) : KeepsSettled table table :=
  fun _ _ hrow _ => rowKept_of_lookup hrow

theorem KeepsSettled.trans {a b c : AttentionTable} (hab : KeepsSettled a b)
    (hbc : KeepsSettled b c) : KeepsSettled a c := by
  intro key row hrow hsettled
  obtain ⟨middle, hmiddle, hid, hstatus, hdate⟩ := hab key row hrow hsettled
  have hsettled' : middle.Settled := by
    unfold AttentionItemRow.Settled
    rw [hstatus]
    exact hsettled
  obtain ⟨later, hlater, hid', hstatus', hdate'⟩ := hbc key middle hmiddle hsettled'
  exact ⟨later, hlater, hid'.trans hid, hstatus'.trans hstatus, hdate'.trans hdate⟩

theorem keepsSettled_raiseAttention {table next : AttentionTable} {fresh : Uuid}
    {roomId userId subjectId : Id} {kind : AttentionSubjectKind} {cls : AttentionClass}
    {reason : RationaleReason} {at_ : Timestamp}
    (h : raiseAttention table fresh roomId userId kind subjectId cls reason at_ = some next) :
    KeepsSettled table next := by
  unfold raiseAttention at h
  simp only [Option.bind_eq_bind, Option.bind_eq_some_iff, Option.pure_def, Option.some.injEq] at h
  obtain ⟨k, -, room, -, createdAt, -, rfl⟩ := h
  exact fun key row hrow _ => kept_insertIfAbsent hrow k _

theorem keepsSettled_projectAnswered {table next : AttentionTable} {roomId fromObjectId : Id}
    {at_ : Timestamp} (h : projectAnswered table roomId fromObjectId at_ = some next) :
    KeepsSettled table next := by
  unfold projectAnswered at h
  simp only [Option.bind_eq_bind, Option.bind_eq_some_iff, Option.pure_def, Option.some.injEq] at h
  obtain ⟨room, -, subject, -, resolvedAt, -, rfl⟩ := h
  intro key row hrow hsettled
  refine kept_updateWhere hrow ?_
  intro hpending
  unfold pendingAbout at hpending
  simp only [Bool.and_eq_true, beq_iff_eq] at hpending
  exact absurd hpending.2 hsettled

theorem keepsSettled_projectAttentionResolved {table next : AttentionTable} {actor : Actor}
    {roomId attentionId : Id} {settlement : Settlement} {at_ : Timestamp}
    (h : projectAttentionResolved table actor roomId attentionId settlement at_ = some next)
    (hcalm : ResolveUndisturbed table actor roomId attentionId settlement at_) :
    KeepsSettled table next := by
  unfold projectAttentionResolved at h
  simp only [Option.bind_eq_bind, Option.bind_eq_some_iff] at h
  obtain ⟨user, huser, owner, howner, id, hid, room, hroom, resolvedAt, hdate, h⟩ := h
  split at h
  · cases h
  · cases h
    intro key row hrow hsettled
    refine kept_updateWhere hrow ?_
    intro howned
    have howner' : (actorUserId actor).bind uuid = some owner := by
      rw [huser]
      exact howner
    obtain ⟨hstatus, hat⟩ := hcalm owner id room howner' hid hroom key row hrow hsettled howned
    exact ⟨rfl, hstatus.symm, by rw [hat, hdate]⟩

/-- One step that disturbs no settled row keeps them all. -/
theorem keepsSettled_step {system next : AttentionSystem} {taken : AttentionStep}
    (h : system.step taken = some next) (hcalm : Undisturbed system taken) :
    KeepsSettled system.table next.table := by
  cases taken with
  | read roomId =>
    simp only [AttentionSystem.step, Option.bind_eq_bind, Option.bind_eq_some_iff, Option.pure_def,
      Option.some.injEq] at h
    obtain ⟨stored, -, rfl⟩ := h
    exact keepsSettled_refl _
  | write worker projection now fresh =>
    simp only [AttentionSystem.step, Option.bind_eq_bind, Option.bind_eq_some_iff, Option.pure_def,
      Option.some.injEq] at h
    obtain ⟨stored, hstored, table, hwrite, rfl⟩ := h
    intro key row hrow hsettled
    refine kept_writeItems hwrite (rowKept_of_lookup hrow) ?_
    intro item hitem hkey
    exact agrees_of_undisturbed (hcalm stored hstored) hrow hsettled hitem hkey
  | abandon worker =>
    cases h
    exact keepsSettled_refl _
  | mentioned fresh roomId targetId messageId body at_ =>
    simp only [AttentionSystem.step, Option.bind_eq_bind, Option.bind_eq_some_iff, Option.pure_def,
      Option.some.injEq] at h
    obtain ⟨table, hraise, rfl⟩ := h
    exact keepsSettled_raiseAttention hraise
  | signalRaised fresh roomId targetUserId subjectKind subjectId cls reason at_ =>
    simp only [AttentionSystem.step, Option.bind_eq_bind, Option.bind_eq_some_iff, Option.pure_def,
      Option.some.injEq] at h
    obtain ⟨table, hraise, rfl⟩ := h
    exact keepsSettled_raiseAttention hraise
  | attentionResolved actor roomId attentionId settlement at_ =>
    simp only [AttentionSystem.step, Option.bind_eq_bind, Option.bind_eq_some_iff, Option.pure_def,
      Option.some.injEq] at h
    obtain ⟨table, hresolve, rfl⟩ := h
    exact keepsSettled_projectAttentionResolved hresolve hcalm
  | answered roomId fromObjectId at_ =>
    simp only [AttentionSystem.step, Option.bind_eq_bind, Option.bind_eq_some_iff, Option.pure_def,
      Option.some.injEq] at h
    obtain ⟨table, hanswer, rfl⟩ := h
    exact keepsSettled_projectAnswered hanswer

/-! ## Runs -/

/-- A row that is settled keeps its status and its date, along every run in which no worker and no
settlement writes over a settled row it has not seen. -/
theorem settled_stays {start later : AttentionSystem} (h : AttentionRun Undisturbed start later) :
    KeepsSettled start.table later.table := by
  induction h with
  | refl => exact keepsSettled_refl _
  | step taken _ hcalm hstep ih => exact ih.trans (keepsSettled_step hstep hcalm)

/-! ### A mention that its reader dismisses -/

def mentionKey : AttentionKey :=
  ⟨"00000000000040008000000000000001", .message, "00000000000040008000000000000002", .mention,
    by decide, by decide⟩

example : attentionKey (uuidText mentionKey.userId) mentionKey.subjectKind
    (uuidText mentionKey.subjectId) mentionKey.cls = some mentionKey := by decide +kernel

def mentionTable (status : AttentionStatus) (resolvedAt : Option Int) : AttentionTable :=
  AList.singleton mentionKey ⟨"00000000000040008000000000000003",
    "00000000000040008000000000000004", .mention "could you look?", status, 0, resolvedAt⟩

def mentionRoom : Id := "00000000-0000-4000-8000-000000000004"

example : mentionKey.itemId ≠ mentionRoom := by decide +kernel

theorem nothing_named : ∀ entry ∈ ([] : List ComputedAttentionItem), entry.toAttentionItem.Named := by
  simp

/-- A cycle of the worker that finds nothing to raise and has examined nothing. -/
def nothingComputed : AttentionProjection := ⟨[], [], [], nothing_named⟩

def mentionPosted : AttentionStep :=
  .mentioned "00000000000040008000000000000003" mentionRoom "00000000-0000-4000-8000-000000000001"
    "00000000-0000-4000-8000-000000000002" "could you look?" "1970-01-01T00:00:00.000Z"

def mentionDismissed : AttentionStep :=
  .attentionResolved (.human "00000000-0000-4000-8000-000000000001") mentionRoom
    "00000000-0000-4000-8000-000000000003" .dismissed "1970-01-01T00:00:01.000Z"

def nothingWritten (now : Timestamp) : AttentionStep :=
  .write 0 nothingComputed now fun _ => "00000000000040008000000000000005"

theorem mentionRoom_uuid : uuid mentionRoom = some "00000000000040008000000000000004" := by
  decide +kernel

theorem step_mentionPosted :
    AttentionSystem.initial.step mentionPosted = some ⟨mentionTable .pending none, []⟩ := by
  have hkey : attentionKey "00000000-0000-4000-8000-000000000001" .message
      "00000000-0000-4000-8000-000000000002" .mention = some mentionKey := by
    decide +kernel
  have hdate : date "1970-01-01T00:00:00.000Z" = some 0 := by
    decide +kernel
  simp only [mentionPosted, AttentionSystem.step, projectMention, raiseAttention, hkey, hdate,
    mentionRoom_uuid, Option.bind_eq_bind, Option.bind_some, Option.pure_def]
  rfl

theorem step_read (status : AttentionStatus) (resolvedAt : Option Int) :
    AttentionSystem.step ⟨mentionTable status resolvedAt, []⟩ (.read mentionRoom) =
      some ⟨mentionTable status resolvedAt, [mentionTable status resolvedAt]⟩ := by
  simp only [AttentionSystem.step, storedRows, mentionRoom_uuid, Option.bind_eq_bind,
    Option.bind_some, Option.pure_def]
  rfl

theorem step_mentionDismissed (reading : List AttentionTable) :
    AttentionSystem.step ⟨mentionTable .pending none, reading⟩ mentionDismissed =
      some ⟨mentionTable .dismissed (some 1000), reading⟩ := by
  have huser : uuid "00000000-0000-4000-8000-000000000001" =
      some "00000000000040008000000000000001" := by
    decide +kernel
  have hid : uuid "00000000-0000-4000-8000-000000000003" =
      some "00000000000040008000000000000003" := by
    decide +kernel
  have hdate : date "1970-01-01T00:00:01.000Z" = some 1000 := by
    decide +kernel
  simp only [mentionDismissed, AttentionSystem.step, projectAttentionResolved, actorUserId, huser, hid,
    hdate, mentionRoom_uuid, Option.bind_eq_bind, Option.bind_some, Option.pure_def]
  rfl

theorem step_nothingWritten {status read : AttentionStatus} {resolvedAt seen : Option Int}
    {now : Timestamp} {ms : Int} (hnow : date now = some ms) :
    AttentionSystem.step ⟨mentionTable status resolvedAt, [mentionTable read seen]⟩
      (nothingWritten now) =
        some ⟨mentionTable read (if read = .pending then none else some ms), []⟩ := by
  have hroom : uuid (uuidText "00000000000040008000000000000004") =
      some "00000000000040008000000000000004" := by
    decide +kernel
  have hdate : date (toISOString 0) = some 0 := by
    decide +kernel
  have hkey : attentionKey (uuidText mentionKey.userId) mentionKey.subjectKind
      (uuidText mentionKey.subjectId) mentionKey.cls = some mentionKey := by
    decide +kernel
  have hreconciled : reconcileAttention (storedItems (mentionTable read seen)) nothingComputed =
      [concludeStored nothingComputed (storedItem mentionKey ⟨"00000000000040008000000000000003",
        "00000000000040008000000000000004", .mention "could you look?", read, 0, seen⟩)] := by
    exact List.mergeSort_singleton _
  have hstatus (entry : AttentionItem) : (concludeStored nothingComputed entry).status =
      entry.status := by
    simp [concludeStored, nothingComputed]
  have hresolved : resolvedDate read now = some (if read = .pending then none else some ms) := by
    unfold resolvedDate
    split
    · rfl
    · rw [hnow, Option.map_some]
  have hwrite (fresh : AttentionKey → Uuid) :
      writeReconciled (mentionTable read seen) nothingComputed now fresh
        (mentionTable status resolvedAt) =
          some (mentionTable read (if read = .pending then none else some ms)) := by
    unfold writeReconciled
    rw [hreconciled, List.foldlM_cons]
    unfold writeItem itemKey
    rw [hstatus]
    simp only [concludeStored, storedItem, hkey, hroom, hdate, hresolved, Option.bind_eq_bind,
      Option.bind_some, Option.pure_def, List.foldlM_nil]
    rfl
  unfold nothingWritten AttentionSystem.step
  simp only [List.getElem?_cons_zero, hwrite, Option.bind_eq_bind, Option.bind_some,
    Option.pure_def]
  rfl

/-- The worker read the mention while it was pending, its reader dismissed it, and the worker writes
it back: it is pending again and its date is gone. -/
theorem dismissed_mention_returns :
    AttentionRun (fun _ _ => True) .initial
      ⟨mentionTable .dismissed (some 1000), [mentionTable .pending none]⟩ ∧
    AttentionRun (fun _ _ => True)
      ⟨mentionTable .dismissed (some 1000), [mentionTable .pending none]⟩
      ⟨mentionTable .pending none, []⟩ ∧
    ¬ KeepsSettled (mentionTable .dismissed (some 1000)) (mentionTable .pending none) := by
  refine ⟨?_, ?_, ?_⟩
  · have hposted : AttentionRun (fun _ _ => True) .initial ⟨mentionTable .pending none, []⟩ :=
      AttentionRun.step mentionPosted AttentionRun.refl trivial step_mentionPosted
    have hread := AttentionRun.step (.read mentionRoom) hposted trivial (step_read _ _)
    exact AttentionRun.step mentionDismissed hread trivial (step_mentionDismissed _)
  · have hnow : date "1970-01-01T00:00:02.000Z" = some 2000 := by
      decide +kernel
    exact AttentionRun.step _ AttentionRun.refl trivial (step_nothingWritten hnow)
  · intro hkeeps
    obtain ⟨later, hlater, -, hstatus, -⟩ := hkeeps mentionKey _ (AList.lookup_insert ∅)
      (by unfold AttentionItemRow.Settled; decide)
    have hpending : later.status = .pending := by
      have hrow := hlater.symm.trans (AList.lookup_insert ∅)
      rw [Option.some.inj hrow]
    rw [hpending] at hstatus
    cases hstatus

/-- A dismissed mention that the worker reads and writes at the instant of its dismissal. -/
theorem dismissed_mention_stays :
    AttentionRun Undisturbed ⟨mentionTable .dismissed (some 1000), []⟩
      ⟨mentionTable .dismissed (some 1000), []⟩ ∧
    KeepsSettled (mentionTable .dismissed (some 1000)) (mentionTable .dismissed (some 1000)) := by
  have hnow : date "1970-01-01T00:00:01.000Z" = some 1000 := by
    decide +kernel
  have hcalm : WriteUndisturbed (mentionTable .dismissed (some 1000))
      (mentionTable .dismissed (some 1000)) nothingComputed "1970-01-01T00:00:01.000Z" := by
    intro key row hrow _ _
    have hentry := AList.mem_lookup_iff.mp hrow
    obtain ⟨rfl, hrow'⟩ := Sigma.mk.inj (List.mem_singleton.mp hentry)
    cases hrow'
    exact ⟨⟨_, hrow, rfl⟩, hnow.symm, by simp [nothingComputed]⟩
  have hrun : AttentionRun Undisturbed ⟨mentionTable .dismissed (some 1000), []⟩
      ⟨mentionTable .dismissed (some 1000), []⟩ := by
    have hread : AttentionRun Undisturbed ⟨mentionTable .dismissed (some 1000), []⟩
        ⟨mentionTable .dismissed (some 1000), [mentionTable .dismissed (some 1000)]⟩ :=
      AttentionRun.step (.read mentionRoom) AttentionRun.refl trivial (step_read _ _)
    refine AttentionRun.step (nothingWritten "1970-01-01T00:00:01.000Z") hread ?_
      (step_nothingWritten hnow)
    intro stored hstored
    cases hstored
    exact hcalm
  exact ⟨hrun, settled_stays hrun⟩

end Server
