import Mathlib.Data.List.Lex
import Mathlib.Data.Prod.Lex
import AtriumVerified.Ingest.Validate

/-!
# When a corpus is written

The canonical order is a linear order of keys, so sorting brings any corpus into it, and the checks
of a sorted corpus find nothing exactly when its ids are different and its replies come behind what
they reply to.
-/

namespace Ingest

open Js Core

/-! ## The canonical order -/

def messageKey (message : IngestMessage) : List Nat ×ₗ List Nat :=
  toLex (utf16 message.ts, utf16 message.id)

theorem lt_iff {a b : String} : lt a b = true ↔ utf16 a < utf16 b := decide_eq_true_iff

theorem messageKey_lt_iff {a b : IngestMessage} :
    messageKey a < messageKey b ↔
      lt a.ts b.ts = true ∨ a.ts = b.ts ∧ lt a.id b.id = true := by
  rw [messageKey, messageKey, Prod.Lex.toLex_lt_toLex, lt_iff, lt_iff, utf16_inj]

/-- `compareMessages` compares the keys. -/
theorem compareMessages_eq_gt_iff {a b : IngestMessage} :
    compareMessages a b = .gt ↔ messageKey b < messageKey a := by
  rw [messageKey_lt_iff, lt_iff, lt_iff]
  unfold compareMessages
  by_cases hts : a.ts = b.ts
  · rw [if_neg (not_not.mpr hts), hts]
    by_cases hid : a.id = b.id
    · simp [hid]
    · rw [if_pos hid]
      have hne : utf16 a.id ≠ utf16 b.id := fun h => hid (utf16_inj.mp h)
      cases hlt : lt a.id b.id with
      | true =>
        have hnot := (lt_iff.mp hlt).not_gt
        simp [hnot]
      | false =>
        have hge : ¬ utf16 a.id < utf16 b.id := fun h => by
          rw [lt_iff.mpr h] at hlt
          cases hlt
        simp [lt_of_le_of_ne (not_lt.mp hge) hne.symm]
  · rw [if_pos hts]
    have hne : utf16 a.ts ≠ utf16 b.ts := fun h => hts (utf16_inj.mp h)
    cases hlt : lt a.ts b.ts with
    | true =>
      have hnot := (lt_iff.mp hlt).not_gt
      simp [hnot, Ne.symm hts]
    | false =>
      have hge : ¬ utf16 a.ts < utf16 b.ts := fun h => by
        rw [lt_iff.mpr h] at hlt
        cases hlt
      simp [lt_of_le_of_ne (not_lt.mp hge) hne.symm]

theorem compareMessages_ne_gt_iff {a b : IngestMessage} :
    compareMessages a b ≠ .gt ↔ messageKey a ≤ messageKey b := by
  rw [Ne, compareMessages_eq_gt_iff, not_lt]

def Canonical (messages : List IngestMessage) : Prop :=
  messages.Pairwise fun a b => messageKey a ≤ messageKey b

theorem sortMessages_perm (messages : List IngestMessage) :
    (sortMessages messages).Perm messages :=
  List.mergeSort_perm _ _

theorem canonical_sortMessages (messages : List IngestMessage) :
    Canonical (sortMessages messages) := by
  have hle (a b : IngestMessage) :
      (compareMessages a b != .gt) = true ↔ messageKey a ≤ messageKey b := by
    rw [bne_iff_ne, compareMessages_ne_gt_iff]
  refine (List.pairwise_mergeSort ?_ ?_ messages).imp fun h => (hle _ _).mp h
  · intro a b c hab hbc
    exact (hle a c).mpr (((hle a b).mp hab).trans ((hle b c).mp hbc))
  · intro a b
    rw [Bool.or_eq_true, hle, hle]
    exact le_total _ _

/-! ## Checks that find nothing -/

structure WellFormed (messages : List IngestMessage) : Prop where
  ids : messages.Pairwise fun a b => a.id ≠ b.id
  replies : ∀ message ∈ messages, ∀ parent, message.replyTo = some parent →
    ∃ other ∈ messages, other.id = parent ∧ messageKey other < messageKey message
  canonical : Canonical messages

section Checks

variable {messages : List IngestMessage} {lineOf : Nat → Nat} {i j : Nat}
  {message other : IngestMessage}

theorem firstOf_some {id : Id} (h : firstOf messages id = some j) :
    ∃ found, messages[j]? = some found ∧ found.id = id := by
  obtain ⟨hj, hid, -⟩ := List.findIdx?_eq_some_iff_getElem.mp h
  exact ⟨_, List.getElem?_eq_getElem hj, beq_iff_eq.mp hid⟩

theorem firstOf_le (hother : messages[i]? = some other) :
    ∃ first, firstOf messages other.id = some first ∧ first ≤ i := by
  obtain ⟨hi, rfl⟩ := List.getElem?_eq_some_iff.mp hother
  cases hfirst : firstOf messages messages[i].id with
  | none =>
    have hnone := List.findIdx?_eq_none_iff.mp hfirst messages[i] (List.getElem_mem hi)
    rw [beq_self_eq_true] at hnone
    cases hnone
  | some first =>
    refine ⟨first, rfl, ?_⟩
    obtain ⟨_, _, hmin⟩ := List.findIdx?_eq_some_iff_getElem.mp hfirst
    by_contra hlt
    exact hmin i (not_le.mp hlt) (beq_self_eq_true _)

theorem index_unique (hids : messages.Pairwise fun a b => a.id ≠ b.id)
    (hi : messages[i]? = some message) (hj : messages[j]? = some other)
    (hid : message.id = other.id) : i = j := by
  obtain ⟨hilt, rfl⟩ := List.getElem?_eq_some_iff.mp hi
  obtain ⟨hjlt, rfl⟩ := List.getElem?_eq_some_iff.mp hj
  have hne := List.pairwise_iff_getElem.mp hids
  rcases lt_trichotomy i j with hlt | heq | hgt
  · exact absurd hid (hne i j hilt hjlt hlt)
  · exact heq
  · exact absurd hid.symm (hne j i hjlt hilt hgt)

theorem duplicateIssue_eq_none_iff :
    (∀ entry ∈ messages.zipIdx, duplicateIssue messages lineOf entry.2 entry.1 = none) ↔
      messages.Pairwise fun a b => a.id ≠ b.id := by
  constructor
  · intro h
    refine List.pairwise_iff_getElem.mpr fun i j hi hj hlt hid => ?_
    have hnone := h (messages[j], j) (List.mk_mem_zipIdx_iff_getElem?.mpr
      (List.getElem?_eq_getElem hj))
    obtain ⟨first, hfirst, hle⟩ := firstOf_le (List.getElem?_eq_getElem hi)
    rw [hid] at hfirst
    simp only [duplicateIssue, hfirst, Option.bind_some] at hnone
    rw [if_pos (by omega)] at hnone
    cases hnone
  · rintro hids ⟨message, j⟩ hentry
    have hj := List.mk_mem_zipIdx_iff_getElem?.mp hentry
    obtain ⟨first, hfirst, -⟩ := firstOf_le hj
    obtain ⟨found, hfound, hid⟩ := firstOf_some hfirst
    have heq := index_unique hids hfound hj hid
    simp only [duplicateIssue, hfirst, Option.bind_some]
    rw [if_neg (by omega)]

theorem replyIssue_eq_none_iff :
    replyIssue messages lineOf i message = none ↔ ∀ parent, message.replyTo = some parent →
      parent ≠ message.id ∧ ∃ first, firstOf messages parent = some first ∧ first ≤ i := by
  unfold replyIssue
  cases hreply : message.replyTo with
  | none => simp
  | some parent =>
    simp only [Option.bind_some, Option.some.injEq, forall_eq']
    by_cases hself : parent = message.id
    · simp [hself]
    · rw [if_neg hself]
      cases firstOf messages parent with
      | none => simp
      | some first => simp [hself]

theorem key_ne_of_id_ne (h : message.id ≠ other.id) : messageKey message ≠ messageKey other := by
  intro heq
  have hids : utf16 message.id = utf16 other.id := congrArg (fun key => (ofLex key).2) heq
  exact h (utf16_inj.mp hids)

theorem orderIssues_eq_nil_iff {previous : IngestMessage} {rest : List IngestMessage} :
    orderIssues lineOf previous i rest = [] ↔ Canonical (previous :: rest) := by
  have hchain : orderIssues lineOf previous i rest = [] ↔
      List.IsChain (fun a b => messageKey a ≤ messageKey b) (previous :: rest) := by
    induction rest generalizing previous i with
    | nil => simp [orderIssues]
    | cons current rest ih =>
      rw [orderIssues, List.append_eq_nil_iff, ih, List.isChain_cons_cons]
      refine and_congr_left fun _ => ?_
      unfold orderIssue
      rw [← compareMessages_ne_gt_iff]
      split
      · rename_i hgt
        simp [hgt]
      · rename_i hle
        simp [hle]
  have htrans : Trans (fun a b : IngestMessage => messageKey a ≤ messageKey b)
      (fun a b => messageKey a ≤ messageKey b) (fun a b => messageKey a ≤ messageKey b) :=
    ⟨fun hab hbc => hab.trans hbc⟩
  rw [hchain, List.isChain_iff_pairwise]
  rfl

theorem checkCorpus_eq_nil_iff : checkCorpus messages lineOf = [] ↔ WellFormed messages := by
  unfold checkCorpus
  rw [List.append_eq_nil_iff, List.append_eq_nil_iff, List.filterMap_eq_nil_iff,
    List.filterMap_eq_nil_iff, duplicateIssue_eq_none_iff]
  refine Iff.trans (and_congr_right (c := Canonical messages) fun _ => ?_) ?_
  · cases messages with
    | nil => simp [Canonical]
    | cons first rest => exact orderIssues_eq_nil_iff
  constructor
  · rintro ⟨⟨hids, hreplies⟩, hcanonical⟩
    refine ⟨hids, ?_, hcanonical⟩
    intro message hmem parent hparent
    obtain ⟨i, hi⟩ := List.mem_iff_getElem?.mp hmem
    have hnone := replyIssue_eq_none_iff.mp
      (hreplies (message, i) (List.mk_mem_zipIdx_iff_getElem?.mpr hi)) parent hparent
    obtain ⟨hself, first, hfirst, hle⟩ := hnone
    obtain ⟨found, hfound, rfl⟩ := firstOf_some hfirst
    refine ⟨found, List.mem_of_getElem? hfound, rfl, ?_⟩
    refine lt_of_le_of_ne ?_ (key_ne_of_id_ne hself)
    obtain ⟨hflt, rfl⟩ := List.getElem?_eq_some_iff.mp hfound
    obtain ⟨hilt, rfl⟩ := List.getElem?_eq_some_iff.mp hi
    have hne : first ≠ i := fun heq => hself (by subst heq; rfl)
    exact List.pairwise_iff_getElem.mp hcanonical first i hflt hilt (by omega)
  · intro h
    refine ⟨⟨h.ids, ?_⟩, h.canonical⟩
    rintro ⟨message, i⟩ hentry
    have hi := List.mk_mem_zipIdx_iff_getElem?.mp hentry
    refine replyIssue_eq_none_iff.mpr fun parent hparent => ?_
    obtain ⟨other, hother, rfl, hlt⟩ := h.replies message (List.mem_of_getElem? hi) parent hparent
    obtain ⟨k, hk⟩ := List.mem_iff_getElem?.mp hother
    obtain ⟨first, hfirst, hle⟩ := firstOf_le hk
    obtain ⟨found, hfound, hid⟩ := firstOf_some hfirst
    obtain rfl := index_unique h.ids hfound hk hid
    refine ⟨?_, first, hfirst, ?_⟩
    · intro hid
      obtain rfl := index_unique h.ids hk hi hid
      obtain rfl := Option.some.inj (hk.symm.trans hi)
      exact lt_irrefl _ hlt
    · by_contra hgt
      obtain ⟨hklt, rfl⟩ := List.getElem?_eq_some_iff.mp hk
      obtain ⟨hilt, rfl⟩ := List.getElem?_eq_some_iff.mp hi
      have hkey := List.pairwise_iff_getElem.mp h.canonical i first hilt hklt (not_le.mp hgt)
      exact absurd hkey (not_le.mpr hlt)

/-- The ids and the replies of a corpus, in whatever order it is. -/
structure Linked (messages : List IngestMessage) : Prop where
  ids : messages.Pairwise fun a b => a.id ≠ b.id
  replies : ∀ message ∈ messages, ∀ parent, message.replyTo = some parent →
    ∃ other ∈ messages, other.id = parent ∧ messageKey other < messageKey message

theorem Linked.perm {first second : List IngestMessage} (h : Linked first)
    (hperm : first.Perm second) : Linked second where
  ids := (hperm.pairwise_iff fun hne => Ne.symm hne).mp h.ids
  replies message hmem parent hparent := by
    obtain ⟨other, hother, hid, hlt⟩ := h.replies message (hperm.mem_iff.mpr hmem) parent hparent
    exact ⟨other, hperm.mem_iff.mp hother, hid, hlt⟩

theorem wellFormed_sortMessages_iff : WellFormed (sortMessages messages) ↔ Linked messages := by
  have hperm := sortMessages_perm messages
  constructor
  · intro h
    exact (Linked.mk h.ids h.replies).perm hperm
  · intro h
    have hsorted := h.perm hperm.symm
    exact ⟨hsorted.ids, hsorted.replies, canonical_sortMessages messages⟩

end Checks

end Ingest
