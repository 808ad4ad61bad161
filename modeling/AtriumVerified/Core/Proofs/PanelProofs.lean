import Mathlib.Data.Prod.Lex
import Mathlib.Order.Lattice.Nat
import AtriumVerified.Lib.OrderedLog
import AtriumVerified.Core.Panels
import AtriumVerified.Core.Proofs.AttentionProofs
import AtriumVerified.Core.Proofs.NamingProofs
import AtriumVerified.Core.Proofs.ReplayProofs

/-!
# Proofs: panels over whole runs

One cycle is described once: every item of the new panel is a computed item under the status the panel
had for its id, or a stored item that was not computed, concluded if the cycle examined its subject.
What a whole run keeps follows by induction over the cycles.
-/

namespace Core

open Js

/-! ## Examinations -/

theorem AttentionClass.colon_notMem_name (cls : AttentionClass) : ':' ∉ cls.name.toList := by
  cases cls <;> decide

theorem AttentionProducer.name_inj {a b : AttentionProducer} (h : a.name = b.name) : a = b := by
  cases a <;> cases b <;> first | rfl | exact absurd h (by decide)

theorem examinedKey_inj {a b : ExaminedSubject} (h : examinedKey a = examinedKey b) : a = b := by
  have hassoc (e : ExaminedSubject) : examinedKey e = e.cls.name ++ ":" ++ (e.subjectKind.name ++
      ":" ++ (escapeIdPart e.subjectId ++ ":" ++ e.producer.name)) := by
    unfold examinedKey
    simp only [String.append_assoc]
  rw [hassoc, hassoc] at h
  obtain ⟨hcls, h⟩ := colon_append_inj a.cls.colon_notMem_name b.cls.colon_notMem_name h
  obtain ⟨hkind, h⟩ :=
    colon_append_inj a.subjectKind.colon_notMem_name b.subjectKind.colon_notMem_name h
  obtain ⟨hsubject, hproducer⟩ := colon_append_inj (colon_notMem_escapeIdPart a.subjectId)
    (colon_notMem_escapeIdPart b.subjectId) h
  have hcls := AttentionClass.name_inj hcls
  have hkind := AttentionSubjectKind.name_inj hkind
  have hsubject := escapeIdPart_inj hsubject
  have hproducer := AttentionProducer.name_inj hproducer
  obtain ⟨cls, kind, subject, producer⟩ := a
  obtain ⟨cls', kind', subject', producer'⟩ := b
  simp only at hcls hkind hsubject hproducer
  rw [hcls, hkind, hsubject, hproducer]

example : examinedKey ⟨.mention, .message, "m:1", .mentionSignal⟩ =
    "mention:message:m%3A1:mention_signal" := by decide +kernel

theorem contains_examinedKey {examined : List ExaminedSubject} {subject : ExaminedSubject} :
    (examined.map examinedKey).contains (examinedKey subject) = true ↔ subject ∈ examined := by
  rw [List.contains_iff_mem, List.mem_map]
  constructor
  · rintro ⟨entry, hentry, hkey⟩
    rw [← examinedKey_inj hkey]
    exact hentry
  · intro h
    exact ⟨subject, h, rfl⟩

theorem concludeStored_status_eq (cycle : AttentionProjection) (held : AttentionItem) :
    (concludeStored cycle held).status =
      if held.status = .pending ∧ held.subject ∈ cycle.examined then .resolved
      else held.status := by
  unfold concludeStored
  simp only [contains_examinedKey]

theorem concludeStored_again (cycle : AttentionProjection) (held : AttentionItem) :
    concludeStored cycle (concludeStored cycle held).toAttentionItem = concludeStored cycle held := by
  have hstatus := concludeStored_status_eq cycle (concludeStored cycle held).toAttentionItem
  have hsubject : (concludeStored cycle held).toAttentionItem.subject = held.subject := rfl
  rw [hsubject, concludeStored_status_eq cycle held] at hstatus
  have hkept : (concludeStored cycle (concludeStored cycle held).toAttentionItem).status =
      (concludeStored cycle held).status := by
    rw [hstatus, concludeStored_status_eq cycle held]
    by_cases h : held.status = .pending ∧ held.subject ∈ cycle.examined
    · simp [h]
    · rw [if_neg h, if_neg h]
  unfold concludeStored at hkept ⊢
  dsimp only at hkept ⊢
  rw [hkept]

/-! ## The order of a panel -/

def sortKey (entry : ComputedAttentionItem) : ℕ ×ₗ List ℕ ×ₗ List ℕ ×ₗ List ℕ :=
  toLex (entry.priority, toLex (utf16 entry.createdAt, toLex (utf16 entry.userId, utf16 entry.id)))

theorem compareAttention_le {a b : ComputedAttentionItem} :
    (compareAttention a b != .gt) = true ↔ sortKey a ≤ sortKey b := by
  unfold sortKey
  rw [bne_iff_ne, Prod.Lex.toLex_le_toLex, Prod.Lex.toLex_le_toLex, Prod.Lex.toLex_le_toLex]
  unfold compareAttention
  by_cases hpriority : a.priority = b.priority
  · by_cases hcreated : a.createdAt = b.createdAt
    · by_cases huser : a.userId = b.userId
      · simp only [hpriority, hcreated, huser, ne_eq, not_true_eq_false, if_false, lt_self_iff_false,
          true_and, false_or, compare_eq_gt, not_lt]
      · have hne : utf16 a.userId ≠ utf16 b.userId := fun h => huser (utf16_inj.mp h)
        by_cases hlt : utf16 a.userId < utf16 b.userId
        · simp [hpriority, hcreated, huser, lt_iff, hlt]
        · simp [hpriority, hcreated, huser, lt_iff, hlt, hne]
    · have hne : utf16 a.createdAt ≠ utf16 b.createdAt := fun h => hcreated (utf16_inj.mp h)
      by_cases hlt : utf16 a.createdAt < utf16 b.createdAt
      · simp [hpriority, hcreated, lt_iff, hlt]
      · simp [hpriority, hcreated, lt_iff, hlt, hne]
  · simp only [hpriority, ne_eq, not_false_eq_true, if_true, false_and, or_false]
    rw [Nat.compare_eq_gt]
    omega

theorem id_eq_of_sortKey {a b : ComputedAttentionItem} (h : sortKey a = sortKey b) : a.id = b.id := by
  unfold sortKey at h
  simp only [EmbeddingLike.apply_eq_iff_eq, Prod.mk.injEq] at h
  exact utf16_inj.mp h.2.2.2

theorem sortAttention_eq_of_perm {first second : List ComputedAttentionItem}
    (hperm : first.Perm second) (hunique : (first.map fun entry => entry.id).Nodup) :
    sortAttention first = sortAttention second := by
  unfold sortAttention
  apply OrderedLog.mergeSort_eq_of_perm
  · intro a b c hab hbc
    rw [compareAttention_le] at hab hbc ⊢
    exact le_trans hab hbc
  · intro a b
    rw [Bool.or_eq_true, compareAttention_le, compareAttention_le]
    exact le_total _ _
  · exact hperm
  · intro a ha b hb hab hba
    rw [compareAttention_le] at hab hba
    exact List.inj_on_of_nodup_map hunique ha hb (id_eq_of_sortKey (le_antisymm hab hba))

example (entry : ComputedAttentionItem) : sortAttention [entry] = [entry] := by simp [sortAttention]

/-! ## One cycle -/

section Cycle

variable {stored : List AttentionItem} {cycle : AttentionProjection}

def leftOver (stored : List AttentionItem) (cycle : AttentionProjection) : List AttentionItem :=
  stored.filter fun held => !cycle.ids.contains held.id

theorem mem_leftOver {held : AttentionItem} :
    held ∈ leftOver stored cycle ↔ held ∈ stored ∧ held.id ∉ cycle.ids := by
  simp [leftOver]

theorem reconcileAttention_perm (stored : List AttentionItem) (cycle : AttentionProjection) :
    (reconcileAttention stored cycle).Perm
      (cycle.items.map (keepStatus stored) ++ (leftOver stored cycle).map (concludeStored cycle)) :=
  List.mergeSort_perm _ _

theorem keepStatus_id (entry : ComputedAttentionItem) : (keepStatus stored entry).id = entry.id := by
  obtain ⟨status, heq⟩ := keepStatus_fields stored entry
  rw [heq]

theorem mem_panelAfter {later : AttentionItem} :
    later ∈ panelAfter stored cycle ↔
      (∃ entry ∈ cycle.items, (keepStatus stored entry).toAttentionItem = later) ∨
        ∃ held ∈ stored, held.id ∉ cycle.ids ∧
          (concludeStored cycle held).toAttentionItem = later := by
  unfold panelAfter
  rw [((reconcileAttention_perm stored cycle).map _).mem_iff, List.map_append, List.mem_append,
    List.map_map, List.map_map, List.mem_map, List.mem_map]
  simp only [mem_leftOver, Function.comp_apply, and_assoc]

theorem panelAfter_ids (stored : List AttentionItem) (cycle : AttentionProjection) :
    ((panelAfter stored cycle).map AttentionItem.id).Perm
      (cycle.ids ++ (leftOver stored cycle).map AttentionItem.id) := by
  unfold panelAfter
  refine (((reconcileAttention_perm stored cycle).map _).map _).trans ?_
  rw [List.map_append, List.map_append, List.map_map, List.map_map, List.map_map, List.map_map]
  have hcomputed : cycle.items.map
      ((AttentionItem.id ∘ ComputedAttentionItem.toAttentionItem) ∘ keepStatus stored) =
        cycle.ids := by
    unfold AttentionProjection.ids
    apply List.map_congr_left
    intro entry _
    exact keepStatus_id entry
  rw [hcomputed]
  exact List.Perm.refl _

theorem unique_panelAfter_iff (hstored : UniqueIds stored) :
    UniqueIds (panelAfter stored cycle) ↔ cycle.ids.Nodup := by
  unfold UniqueIds
  rw [(panelAfter_ids stored cycle).nodup_iff, List.nodup_append']
  constructor
  · intro h
    exact h.1
  · intro h
    refine ⟨h, ?_, ?_⟩
    · exact hstored.sublist (List.filter_sublist.map _)
    · intro id hcomputed hleft
      rw [List.mem_map] at hleft
      obtain ⟨held, hheld, rfl⟩ := hleft
      exact (mem_leftOver.mp hheld).2 hcomputed

theorem mem_ids_panelAfter {id : Id} (h : id ∈ stored.map AttentionItem.id ∨ id ∈ cycle.ids) :
    ∃ later ∈ panelAfter stored cycle, later.id = id := by
  have hmem : id ∈ (panelAfter stored cycle).map AttentionItem.id := by
    rw [(panelAfter_ids stored cycle).mem_iff, List.mem_append]
    by_cases hcomputed : id ∈ cycle.ids
    · exact Or.inl hcomputed
    · rcases h with h | h
      · obtain ⟨held, hheld, rfl⟩ := List.mem_map.mp h
        exact Or.inr (List.mem_map.mpr ⟨held, mem_leftOver.mpr ⟨hheld, hcomputed⟩, rfl⟩)
      · exact absurd h hcomputed
  obtain ⟨later, hlater, heq⟩ := List.mem_map.mp hmem
  exact ⟨later, hlater, heq⟩

theorem storedById_unique (hstored : UniqueIds stored) {held : AttentionItem} (h : held ∈ stored) :
    storedById stored held.id = some held := by
  obtain ⟨previous, hprevious⟩ := storedById_isSome h
  obtain ⟨hmem, hid⟩ := storedById_mem hprevious
  rw [hprevious, List.inj_on_of_nodup_map hstored hmem h hid]

theorem panelAfter_traces (hstored : UniqueIds stored) {held later : AttentionItem}
    (hheld : held ∈ stored) (hlater : later ∈ panelAfter stored cycle) (hid : later.id = held.id) :
    (held.id ∈ cycle.ids ∧ later.status = held.status) ∨
      (held.id ∉ cycle.ids ∧ later.status = (concludeStored cycle held).status) := by
  rcases mem_panelAfter.mp hlater with ⟨entry, hentry, rfl⟩ | ⟨left, hleft, hnot, rfl⟩
  · have hsame : entry.id = held.id := (keepStatus_id entry).symm.trans hid
    refine Or.inl ⟨List.mem_map.mpr ⟨entry, hentry, hsame⟩, ?_⟩
    apply keepStatus_status
    rw [hsame]
    exact storedById_unique hstored hheld
  · have hsame : left = held := List.inj_on_of_nodup_map hstored hleft hheld hid
    rw [hsame] at hnot ⊢
    exact Or.inr ⟨hnot, rfl⟩

theorem keepStatus_again (hunique : UniqueIds (panelAfter stored cycle))
    {entry : ComputedAttentionItem} (hentry : entry ∈ cycle.items) :
    keepStatus (panelAfter stored cycle) entry = keepStatus stored entry := by
  have hmem : (keepStatus stored entry).toAttentionItem ∈ panelAfter stored cycle :=
    mem_panelAfter.mpr (Or.inl ⟨entry, hentry, rfl⟩)
  have hfound := storedById_unique hunique hmem
  rw [keepStatus_id] at hfound
  obtain ⟨status, hfields⟩ := keepStatus_fields stored entry
  obtain ⟨status', hfields'⟩ := keepStatus_fields (panelAfter stored cycle) entry
  have hstatus := keepStatus_status hfound
  rw [hfields', hfields] at hstatus ⊢
  simp only at hstatus
  rw [hstatus]

theorem leftOver_panelAfter (stored : List AttentionItem) (cycle : AttentionProjection) :
    (leftOver (panelAfter stored cycle) cycle).Perm
      ((leftOver stored cycle).map fun held =>
        (concludeStored cycle held).toAttentionItem) := by
  unfold leftOver panelAfter
  refine (((reconcileAttention_perm stored cycle).map _).filter _).trans ?_
  rw [List.map_append, List.filter_append, List.map_map, List.map_map]
  have hnone : (cycle.items.map (ComputedAttentionItem.toAttentionItem ∘ keepStatus stored)).filter
      (fun held => !cycle.ids.contains held.id) = [] := by
    rw [List.filter_eq_nil_iff]
    intro held hheld
    obtain ⟨entry, hentry, rfl⟩ := List.mem_map.mp hheld
    have hcomputed : entry.id ∈ cycle.ids := List.mem_map.mpr ⟨entry, hentry, rfl⟩
    simpa [keepStatus_id] using hcomputed
  have hall : ((leftOver stored cycle).map
      (ComputedAttentionItem.toAttentionItem ∘ concludeStored cycle)).filter
      (fun held => !cycle.ids.contains held.id) = (leftOver stored cycle).map
        (ComputedAttentionItem.toAttentionItem ∘ concludeStored cycle) := by
    rw [List.filter_eq_self]
    intro held hheld
    obtain ⟨left, hleft, rfl⟩ := List.mem_map.mp hheld
    simpa [concludeStored] using (mem_leftOver.mp hleft).2
  rw [hnone, hall, List.nil_append]
  exact List.Perm.refl _

theorem reconcileAttention_again (hunique : UniqueIds (panelAfter stored cycle)) :
    reconcileAttention (panelAfter stored cycle) cycle = reconcileAttention stored cycle := by
  have hkept : cycle.items.map (keepStatus (panelAfter stored cycle)) =
      cycle.items.map (keepStatus stored) :=
    List.map_congr_left fun _ hentry => keepStatus_again hunique hentry
  have hconcluded : ((leftOver (panelAfter stored cycle) cycle).map (concludeStored cycle)).Perm
      ((leftOver stored cycle).map (concludeStored cycle)) := by
    refine ((leftOver_panelAfter stored cycle).map _).trans ?_
    rw [List.map_map]
    apply List.Perm.of_eq
    apply List.map_congr_left
    intro held _
    exact concludeStored_again cycle held
  have hperm : (cycle.items.map (keepStatus stored) ++
      (leftOver stored cycle).map (concludeStored cycle)).Perm
        (cycle.items.map (keepStatus (panelAfter stored cycle)) ++
          (leftOver (panelAfter stored cycle) cycle).map (concludeStored cycle)) := by
    rw [hkept]
    exact List.Perm.append_left _ hconcluded.symm
  symm
  apply sortAttention_eq_of_perm hperm
  have hids := ((reconcileAttention_perm stored cycle).map fun entry => entry.id).nodup_iff
  apply hids.mp
  unfold UniqueIds panelAfter at hunique
  rwa [List.map_map] at hunique

end Cycle

/-! ## Runs -/

section Runs

variable {stored : List AttentionItem} {cycles : List AttentionProjection} {m n : Nat}

theorem panelAt_succ {cycle : AttentionProjection} (h : cycles[n]? = some cycle) :
    panelAt stored cycles (n + 1) = panelAfter (panelAt stored cycles n) cycle := by
  unfold panelAt
  rw [List.take_add_one, h]
  simp

theorem panelAt_end (h : cycles[n]? = none) :
    panelAt stored cycles (n + 1) = panelAt stored cycles n := by
  unfold panelAt
  rw [List.take_add_one, h]
  simp

example : panelAt stored [] 3 = stored := by simp [panelAt]

theorem panelAt_induction {P : List AttentionItem → Prop} (hstart : P (panelAt stored cycles m))
    (hstep : ∀ k cycle, m ≤ k → cycles[k]? = some cycle → P (panelAt stored cycles k) →
      P (panelAfter (panelAt stored cycles k) cycle)) (hle : m ≤ n) : P (panelAt stored cycles n) := by
  induction n, hle using Nat.le_induction with
  | base => exact hstart
  | succ k hk ih =>
    cases hcycle : cycles[k]? with
    | none =>
      rw [panelAt_end hcycle]
      exact ih
    | some cycle =>
      rw [panelAt_succ hcycle]
      exact hstep k cycle hk hcycle ih

theorem unique_panelAt (hstored : UniqueIds stored) (hcycles : ∀ cycle ∈ cycles, cycle.ids.Nodup)
    (n : Nat) : UniqueIds (panelAt stored cycles n) := by
  refine panelAt_induction ?_ ?_ (Nat.zero_le n)
  · exact hstored
  · intro k cycle _ hcycle hunique
    exact (unique_panelAfter_iff hunique).mpr (hcycles cycle (List.mem_of_getElem? hcycle))

theorem id_mem_panelAt {id : Id} (h : ∃ held ∈ panelAt stored cycles m, held.id = id) (hle : m ≤ n) :
    ∃ later ∈ panelAt stored cycles n, later.id = id := by
  refine panelAt_induction (P := fun panel => ∃ later ∈ panel, later.id = id) h ?_ hle
  rintro k cycle _ _ ⟨held, hheld, rfl⟩
  exact mem_ids_panelAfter (Or.inl (List.mem_map.mpr ⟨held, hheld, rfl⟩))

theorem settled_panelAt (hunique : ∀ k, UniqueIds (panelAt stored cycles k)) {held : AttentionItem}
    (hheld : held ∈ panelAt stored cycles m) (hsettled : held.status ≠ .pending) (hle : m ≤ n) :
    ∀ later ∈ panelAt stored cycles n, later.id = held.id → later.status = held.status := by
  have hkept : ∃ later ∈ panelAt stored cycles n, later.id = held.id ∧
      later.status = held.status := by
    refine panelAt_induction (P := fun panel =>
      ∃ later ∈ panel, later.id = held.id ∧ later.status = held.status)
      ⟨held, hheld, rfl, rfl⟩ ?_ hle
    rintro k cycle _ _ ⟨mid, hmid, hid, hstatus⟩
    obtain ⟨later, hlater, hsame⟩ :
        ∃ later ∈ panelAfter (panelAt stored cycles k) cycle, later.id = mid.id :=
      mem_ids_panelAfter (Or.inl (List.mem_map.mpr ⟨mid, hmid, rfl⟩))
    refine ⟨later, hlater, hsame.trans hid, ?_⟩
    rcases panelAfter_traces (hunique k) hmid hlater hsame with ⟨-, hkept⟩ | ⟨-, hkept⟩
    · exact hkept.trans hstatus
    · rw [hkept, concludeStored_status (hstatus ▸ hsettled)]
      exact hstatus
  intro later hlater hid
  obtain ⟨kept, hkept, hsame, hstatus⟩ := hkept
  rw [List.inj_on_of_nodup_map (hunique n) hlater hkept (hid.trans hsame.symm)]
  exact hstatus

theorem concluded_panelAfter {cycle : AttentionProjection} (hstored : UniqueIds stored)
    {held later : AttentionItem} (hheld : held ∈ stored) (hpending : held.status = .pending)
    (hlater : later ∈ panelAfter stored cycle) (hid : later.id = held.id)
    (hresolved : later.status = .resolved) : held.subject ∈ cycle.examined ∧ held.id ∉ cycle.ids := by
  rcases panelAfter_traces hstored hheld hlater hid with ⟨-, hkept⟩ | ⟨hnot, hconcluded⟩
  · rw [hresolved, hpending] at hkept
    cases hkept
  · refine ⟨?_, hnot⟩
    by_contra hblind
    rw [hresolved, concludeStored_status_eq, if_neg (fun h => hblind h.2), hpending] at hconcluded
    cases hconcluded

/-- Over every sequence of cycles the panel keeps every id it held or a cycle computed, its ids stay
unique, settled items stay as they are, pending ones are resolved only by a cycle that looked and did
not raise them, and a cycle run twice is a cycle run once: exactly when no cycle computes two items
under one id. -/
theorem panels_reconciled_iff (stored : List AttentionItem) (hstored : UniqueIds stored)
    (cycles : List AttentionProjection) :
    Reconciled stored cycles ↔ ∀ cycle ∈ cycles, cycle.ids.Nodup := by
  constructor
  · intro h cycle hcycle
    obtain ⟨n, hn⟩ := List.mem_iff_getElem?.mp hcycle
    have hnext := h.unique (n + 1)
    rw [panelAt_succ hn] at hnext
    exact (unique_panelAfter_iff (h.unique n)).mp hnext
  · intro hcycles
    have hunique := unique_panelAt hstored hcycles
    refine ⟨hunique, ?_, ?_, ?_, ?_, ?_⟩
    · intro m n hle held hheld
      exact id_mem_panelAt ⟨held, hheld, rfl⟩ hle
    · intro m n cycle hcycle hlt id hid
      refine id_mem_panelAt ?_ (Nat.succ_le_of_lt hlt)
      rw [panelAt_succ hcycle]
      exact mem_ids_panelAfter (Or.inr hid)
    · intro m n hle held hheld hsettled
      exact settled_panelAt hunique hheld hsettled hle
    · intro n cycle hcycle held hheld hpending later hlater hid hresolved
      rw [panelAt_succ hcycle] at hlater
      exact concluded_panelAfter (hunique n) hheld hpending hlater hid hresolved
    · intro n cycle hcycle
      have hnext := hunique (n + 1)
      rw [panelAt_succ hcycle] at hnext ⊢
      exact reconcileAttention_again hnext

end Runs

/-! ## Cycles that were projected -/

example (held : AttentionItem) : storedById [held] held.id = some held := by simp [storedById]

theorem keepStatus_concern (stored : List AttentionItem) (entry : ComputedAttentionItem) :
    (keepStatus stored entry).concern = entry.concern := by
  obtain ⟨status, heq⟩ := keepStatus_fields stored entry
  rw [heq]
  rfl

theorem keepStatus_pending {stored : List AttentionItem} {need : Need} :
    (keepStatus stored (item need)).status = .pending ↔ ¬ SettledIn stored need.id := by
  unfold SettledIn
  cases hprevious : storedById stored need.id with
  | none =>
    have hfresh : keepStatus stored (item need) = item need := by
      unfold keepStatus
      have hid : (item need).id = need.id := rfl
      rw [hid, hprevious]
    rw [hfresh]
    simp [item]
  | some previous =>
    have hkept : (keepStatus stored (item need)).status = previous.status :=
      keepStatus_status hprevious
    rw [hkept]
    simp

def sourcesOf (state : CoreState) (ctx : AttentionContext) (proposals questions : AttentionSource) :
    AttentionSource :=
  .gather [proposals, commitmentItems state ctx, questions, mentionItems ctx]

theorem ids_perm {state : CoreState} {ctx : AttentionContext} {cycle : AttentionProjection}
    {proposals questions : AttentionSource}
    (h : cycle.items = sortAttention ((sourcesOf state ctx proposals questions).items.map item)) :
    cycle.ids.Perm ((sourcesOf state ctx proposals questions).items.map Need.id) := by
  unfold AttentionProjection.ids
  rw [h]
  refine ((List.mergeSort_perm _ _).map _).trans ?_
  rw [List.map_map]
  exact List.Perm.refl _

section Projection

variable [Unicode] {state : CoreState} {ctx : AttentionContext} {cycle : AttentionProjection}

theorem projectAttention_eq_ok (h : projectAttention state ctx = .ok cycle) :
    ∃ proposals questions, proposalItems state ctx = .ok proposals ∧
      blockingQuestionItems state ctx = .ok questions ∧
      cycle.items = sortAttention ((sourcesOf state ctx proposals questions).items.map item) ∧
      cycle.examined = (sourcesOf state ctx proposals questions).examined := by
  unfold projectAttention at h
  cases hproposals : proposalItems state ctx with
  | error e =>
    rw [hproposals] at h
    cases h
  | ok proposals =>
    rw [hproposals] at h
    cases hquestions : blockingQuestionItems state ctx with
    | error e =>
      rw [hquestions] at h
      cases h
    | ok questions =>
      rw [hquestions] at h
      cases h
      exact ⟨proposals, questions, rfl, rfl, rfl, rfl⟩

theorem Projected.exists_need (h : Projected cycle) {entry : ComputedAttentionItem}
    (hentry : entry ∈ cycle.items) : ∃ need, entry = item need := by
  obtain ⟨state, ctx, hcycle⟩ := h
  obtain ⟨proposals, questions, -, -, hitems, -⟩ := projectAttention_eq_ok hcycle
  rw [hitems, mem_sortAttention, List.mem_map] at hentry
  obtain ⟨need, -, rfl⟩ := hentry
  exact ⟨need, rfl⟩

theorem owed_panelAfter_iff (h : Projected cycle) {stored : List AttentionItem} {concern : Concern} :
    Owed (panelAfter stored cycle) concern ↔ Unsettled stored cycle concern := by
  unfold Owed Unsettled
  constructor
  · rintro ⟨later, hlater, hpending, hconcern⟩
    rcases mem_panelAfter.mp hlater with ⟨entry, hentry, rfl⟩ | ⟨held, hheld, hnot, rfl⟩
    · obtain ⟨need, rfl⟩ := h.exists_need hentry
      rw [keepStatus_concern] at hconcern
      exact Or.inl ⟨item need, hentry, hconcern, keepStatus_pending.mp hpending⟩
    · rw [concludeStored_status_eq] at hpending
      by_cases hconcluded : held.status = .pending ∧ held.subject ∈ cycle.examined
      · rw [if_pos hconcluded] at hpending
        cases hpending
      · rw [if_neg hconcluded] at hpending
        exact Or.inr ⟨held, hheld, hpending, hconcern, hnot, fun hseen => hconcluded ⟨hpending, hseen⟩⟩
  · rintro (⟨entry, hentry, hconcern, hfresh⟩ | ⟨held, hheld, hpending, hconcern, hnot, hblind⟩)
    · obtain ⟨need, rfl⟩ := h.exists_need hentry
      exact ⟨_, mem_panelAfter.mpr (Or.inl ⟨item need, hentry, rfl⟩), keepStatus_pending.mpr hfresh,
        (keepStatus_concern stored (item need)).trans hconcern⟩
    · refine ⟨_, mem_panelAfter.mpr (Or.inr ⟨held, hheld, hnot, rfl⟩), ?_, hconcern⟩
      rw [concludeStored_status_eq, if_neg (fun h => hblind h.2)]
      exact hpending

/-- An item was resolved, and a later cycle computes a need for the same person about the same
subject: after that cycle the panel owes them an item exactly when the cycle raises one under an id
that is not settled, or the panel holds another pending one that the cycle neither raises nor
examined. -/
theorem reraised_owed_iff {stored : List AttentionItem} {cycles : List AttentionProjection}
    (hcycles : ∀ cycle ∈ cycles, Projected cycle) {m n : Nat} {entry : AttentionItem}
    (h : Reraised stored cycles m n entry cycle) :
    Owed (panelAt stored cycles (n + 1)) entry.concern ↔
      Unsettled (panelAt stored cycles n) cycle entry.concern := by
  have hprojected := hcycles cycle (List.mem_of_getElem? h.offered)
  rw [panelAt_succ h.offered]
  exact owed_panelAfter_iff hprojected

end Projection

/-! ## Witnesses -/

section Witnesses

/-- A cycle without messages, rosters and signals. -/
def plainContext : AttentionContext where
  now := "2026-01-02T00:00:00.000Z"
  members := none
  messages := none
  config := none
  mentions := []
  questionMentions := []

def doubledRoster : AttentionContext :=
  { plainContext with members := some (PlainObject.empty.set "room" ["bob", "bob"]) }

def stagedDecision : List AuthoredEvent :=
  [eventBy "alice" "e1" "2026-01-01T00:00:01.000Z" (.proposalRecorded
    ⟨⟨"p", "room", ⟨1, 0⟩, .human "alice", [], none, none, "2026-01-01T00:00:00.000Z",
      .decision ⟨"Ship on Friday", none, .active⟩⟩, .proposed⟩)]

/-- The needs a computation raised about staged proposals, one by one. -/
def needIds (result : Except TypeError AttentionSource) : List Id :=
  match result with
  | .ok source => source.items.map Need.id
  | .error _ => []

/-- A roster that names one member twice is asked twice under one id. -/
theorem doubled_roster_doubles_ids :
    ¬ ∀ (stored : List AttentionItem) (cycles : List AttentionProjection), UniqueIds stored →
      (∀ cycle ∈ cycles, @Projected Unicode.ascii cycle) → Reconciled stored cycles := by
  let _ : Unicode := Unicode.ascii
  intro h
  have hok : (projectAttention (offerAll stagedDecision) doubledRoster).isOk = true := by
    decide +kernel
  have hids : needIds (proposalItems (offerAll stagedDecision) doubledRoster) =
      ["attn:bob:proposal:p:needs_decision", "attn:bob:proposal:p:needs_decision"] := by
    decide +kernel
  cases hcycle : projectAttention (offerAll stagedDecision) doubledRoster with
  | error e =>
    rw [hcycle] at hok
    cases hok
  | ok cycle =>
    have hprojected : ∀ other ∈ [cycle], Projected other := by
      intro other hother
      rw [List.mem_singleton.mp hother]
      exact ⟨_, _, hcycle⟩
    have hempty : UniqueIds [] := List.nodup_nil
    have hunique := (h [] [cycle] hempty hprojected).unique 1
    have hnodup : cycle.ids.Nodup := (unique_panelAfter_iff hempty).mp hunique
    obtain ⟨proposals, questions, hproposals, -, hitems, -⟩ := projectAttention_eq_ok hcycle
    rw [hproposals] at hids
    rw [(ids_perm hitems).nodup_iff] at hnodup
    unfold sourcesOf AttentionSource.gather at hnodup
    rw [List.flatMap_cons, List.map_append] at hnodup
    have hproposed : (proposals.items.map Need.id).Nodup := (List.nodup_append'.mp hnodup).1
    have htwice : proposals.items.map Need.id =
        ["attn:bob:proposal:p:needs_decision", "attn:bob:proposal:p:needs_decision"] := hids
    rw [htwice] at hproposed
    exact absurd hproposed (by decide)

def openCommitmentNeed : Need where
  roomId := "room"
  userId := "alice"
  objectId := "o"
  subjectKind := .object
  cls := .ownedCommitment
  priority := 4
  createdAt := "2026-01-02T00:00:00.000Z"
  reason := .commitmentOpen "I will write the migration" none

def openedCycle : AttentionProjection :=
  ⟨[item openCommitmentNeed], [], [(item openCommitmentNeed).subject], by
    intro entry hentry
    rw [List.mem_singleton.mp hentry]
    rfl⟩

def closedCycle : AttentionProjection :=
  ⟨[], [], [(item openCommitmentNeed).subject], by simp⟩

/-- A commitment that is raised, found closed, and found closed once more. -/
theorem closed_commitment_reconciled : UniqueIds [] ∧
    Reconciled [] [openedCycle, closedCycle, closedCycle] := by
  refine ⟨List.nodup_nil, (panels_reconciled_iff [] List.nodup_nil _).mpr ?_⟩
  intro cycle hcycle
  have hcases : cycle = openedCycle ∨ cycle = closedCycle := by
    simpa using hcycle
  rcases hcases with rfl | rfl
  · decide
  · decide

def raisesJust (needs : List Need) (subject : ExaminedSubject)
    (result : Except TypeError AttentionProjection) : Bool :=
  match result with
  | .ok cycle => cycle.items == needs.map item && cycle.examined.contains subject
  | .error _ => false

theorem exists_of_raisesJust {needs : List Need} {subject : ExaminedSubject}
    {result : Except TypeError AttentionProjection} (h : raisesJust needs subject result = true) :
    ∃ cycle, result = .ok cycle ∧ cycle.items = needs.map item ∧ subject ∈ cycle.examined := by
  unfold raisesJust at h
  split at h
  · next cycle =>
    rw [Bool.and_eq_true, beq_iff_eq, List.contains_iff_mem] at h
    exact ⟨cycle, rfl, h.1, h.2⟩
  · cases h

def closedLog : List AuthoredEvent :=
  [aliceCommits,
    eventBy "alice" "e2" "2026-01-01T00:00:02.000Z" (.objectCorrected
      { plainCorrection "o" .amend with patch := [("status", .string "done")] })]

def reopenedLog : List AuthoredEvent :=
  closedLog ++ [eventBy "alice" "e3" "2026-01-01T00:00:03.000Z"
    (.objectCorrected (plainCorrection "o" .reopen))]

def mentioned : AttentionContext :=
  { plainContext with mentions := [⟨"room", none, "o", "alice", "Is this still done?"⟩] }

def raisedCommitment : AttentionItem := (item openCommitmentNeed).toAttentionItem

def closedCommitment : AttentionItem := { raisedCommitment with status := .resolved }

section Reopening

variable {opened closed again : AttentionProjection}

theorem panels_of_closing (hopened : opened.items = [item openCommitmentNeed])
    (hclosed : closed.items = []) (hseen : raisedCommitment.subject ∈ closed.examined) :
    panelAt [] [opened, closed, again] 1 = [raisedCommitment] ∧
      panelAt [] [opened, closed, again] 2 = [closedCommitment] := by
  have hfresh : keepStatus [] (item openCommitmentNeed) = item openCommitmentNeed := rfl
  have hone : panelAt [] [opened, closed, again] 1 = [raisedCommitment] := by
    have hstep : panelAt [] [opened, closed, again] 1 = panelAfter [] opened := rfl
    rw [hstep]
    unfold panelAfter reconcileAttention sortAttention
    simp [hopened, hfresh, raisedCommitment]
  refine ⟨hone, ?_⟩
  have hstep : panelAt [] [opened, closed, again] 2 =
      panelAfter (panelAt [] [opened, closed, again] 1) closed := rfl
  have hstatus := concludeStored_status_eq closed raisedCommitment
  rw [if_pos ⟨rfl, hseen⟩] at hstatus
  have hconcluded : (concludeStored closed raisedCommitment).toAttentionItem =
      { raisedCommitment with status := (concludeStored closed raisedCommitment).status } := rfl
  rw [hstep, hone]
  unfold panelAfter reconcileAttention sortAttention
  simp only [hclosed, List.map_nil, List.nil_append, List.contains_nil, Bool.not_false,
    List.filter_true, List.map_cons, List.mergeSort_singleton]
  rw [hconcluded, hstatus]
  rfl

theorem reraised_commitment (hopened : opened.items = [item openCommitmentNeed])
    (hclosed : closed.items = []) (hseen : raisedCommitment.subject ∈ closed.examined)
    (hagain : ∃ need ∈ again.items, need.concern = raisedCommitment.concern) :
    Reraised [] [opened, closed, again] 1 2 raisedCommitment again := by
  obtain ⟨hone, htwo⟩ : panelAt [] [opened, closed, again] 1 = [raisedCommitment] ∧
      panelAt [] [opened, closed, again] 2 = [closedCommitment] :=
    panels_of_closing hopened hclosed hseen
  refine ⟨by decide, ?_, rfl, ?_, rfl, hagain⟩
  · rw [hone]
    exact List.mem_singleton.mpr rfl
  · rw [htwo]
    exact ⟨closedCommitment, List.mem_singleton.mpr rfl, rfl, rfl⟩

end Reopening

theorem closing_cycles : ∃ opened closed : AttentionProjection,
    @Projected Unicode.ascii opened ∧ @Projected Unicode.ascii closed ∧
      opened.items = [item openCommitmentNeed] ∧ closed.items = [] ∧
      raisedCommitment.subject ∈ closed.examined := by
  let _ : Unicode := Unicode.ascii
  obtain ⟨opened, hopened, hfirst, -⟩ := exists_of_raisesJust
    (show raisesJust [openCommitmentNeed] raisedCommitment.subject
      (projectAttention (offerAll [aliceCommits]) plainContext) = true by decide +kernel)
  obtain ⟨closed, hclosed, hsecond, hseen⟩ := exists_of_raisesJust
    (show raisesJust [] raisedCommitment.subject
      (projectAttention (offerAll closedLog) plainContext) = true by decide +kernel)
  exact ⟨opened, closed, ⟨_, _, hopened⟩, ⟨_, _, hclosed⟩, hfirst, hsecond, hseen⟩

theorem projected_cycles [Unicode] {first second third : AttentionProjection}
    (hfirst : Projected first) (hsecond : Projected second) (hthird : Projected third) :
    ∀ cycle ∈ [first, second, third], Projected cycle := by
  intro cycle hcycle
  simp only [List.mem_cons, List.not_mem_nil, or_false] at hcycle
  rcases hcycle with rfl | rfl | rfl
  · exact hfirst
  · exact hsecond
  · exact hthird

/-- A commitment that was closed and opened again is computed again, and its item stays resolved. -/
theorem reopened_commitment_stays_resolved :
    ¬ ∀ (stored : List AttentionItem) (cycles : List AttentionProjection) (m n : Nat)
      (entry : AttentionItem) (cycle : AttentionProjection),
      (∀ cycle ∈ cycles, @Projected Unicode.ascii cycle) → Reraised stored cycles m n entry cycle →
      Owed (panelAt stored cycles (n + 1)) entry.concern := by
  let _ : Unicode := Unicode.ascii
  intro h
  obtain ⟨opened, closed, hopened, hclosed, hfirst, hsecond, hseen⟩ := closing_cycles
  obtain ⟨again, hagain, hthird, -⟩ := exists_of_raisesJust
    (show raisesJust [openCommitmentNeed] raisedCommitment.subject
      (projectAttention (offerAll reopenedLog) plainContext) = true by decide +kernel)
  have hraised : ∃ need ∈ again.items, need.concern = raisedCommitment.concern := by
    rw [hthird]
    exact ⟨item openCommitmentNeed, List.mem_singleton.mpr rfl, rfl⟩
  have hprojected := projected_cycles hopened hclosed ⟨_, _, hagain⟩
  obtain ⟨-, htwo⟩ := panels_of_closing hfirst hsecond hseen
  have howed := h [] [opened, closed, again] 1 2 raisedCommitment again hprojected
    (reraised_commitment hfirst hsecond hseen hraised)
  have hstep : panelAt [] [opened, closed, again] 3 =
      panelAfter (panelAt [] [opened, closed, again] 2) again := rfl
  rw [hstep, htwo, owed_panelAfter_iff ⟨_, _, hagain⟩, Unsettled] at howed
  rcases howed with ⟨need, hneed, -, hfresh⟩ | ⟨held, hheld, hpending, -⟩
  · rw [hthird] at hneed
    rw [List.mem_singleton.mp hneed] at hfresh
    exact hfresh ⟨closedCommitment, by decide +kernel, by decide⟩
  · rw [List.mem_singleton.mp hheld] at hpending
    cases hpending

/-- After the commitment was closed somebody mentions Alice on it: an item of another class. -/
theorem mention_on_closed_commitment_owed : ∃ opened closed mention : AttentionProjection,
    Reraised [] [opened, closed, mention] 1 2 raisedCommitment mention ∧
      Owed (panelAt [] [opened, closed, mention] 3) raisedCommitment.concern := by
  let _ : Unicode := Unicode.ascii
  obtain ⟨opened, closed, hopened, hclosed, hfirst, hsecond, hseen⟩ := closing_cycles
  obtain ⟨mention, hmention, hthird, -⟩ := exists_of_raisesJust
    (show raisesJust (mentioned.mentions.map (mentionNeed mentioned)) raisedCommitment.subject
      (projectAttention (offerAll closedLog) mentioned) = true by decide +kernel)
  have hneed : item (mentionNeed mentioned ⟨"room", none, "o", "alice", "Is this still done?"⟩) ∈
      mention.items := by
    rw [hthird]
    exact List.mem_singleton.mpr rfl
  have hprojected := projected_cycles hopened hclosed ⟨_, _, hmention⟩
  obtain ⟨-, htwo⟩ := panels_of_closing hfirst hsecond hseen
  have hreraised := reraised_commitment hfirst hsecond hseen ⟨_, hneed, rfl⟩
  refine ⟨opened, closed, mention, hreraised, (reraised_owed_iff hprojected hreraised).mpr ?_⟩
  rw [htwo]
  refine Or.inl ⟨_, hneed, rfl, ?_⟩
  rintro ⟨previous, hprevious, -⟩
  have hnone : storedById [closedCommitment] (mentionNeed mentioned
      ⟨"room", none, "o", "alice", "Is this still done?"⟩).id = none := by decide +kernel
  have hfound : (none : Option AttentionItem) = some previous := hnone.symm.trans hprevious
  cases hfound

end Witnesses

end Core
