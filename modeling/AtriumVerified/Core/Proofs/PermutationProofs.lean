import Mathlib.Data.List.Nodup
import Mathlib.Data.List.Sort
import Mathlib.Data.Prod.Lex
import AtriumVerified.Core.Proofs.AttentionIdProofs
import AtriumVerified.Core.Proofs.SilenceProofs

/-!
# The attention projection and the order of its inputs

Every source sorts what it reads. Where two signals tie, they make one need or two needs that differ
in their id, and the panel is sorted by everything up to the id.
-/

namespace Core

open Js (PlainObject)

/-! ## The same inputs in another order -/

def SameEntries {α : Type} (first second : PlainObject α) : Prop :=
  first.entries.entries.Perm second.entries.entries

structure CoreState.Reordered (first second : CoreState) : Prop where
  objects : SameEntries first.objects second.objects
  proposals : SameEntries first.proposals second.proposals
  relations : first.relations.Perm second.relations

/-- The same signals, and the same members of every room. -/
structure AttentionContext.Reordered (first second : AttentionContext) : Prop where
  now : first.now = second.now
  messages : first.messages = second.messages
  config : first.config = second.config
  members : Option.Rel (fun rosters rosters' => ∀ roomId,
    Option.Rel List.Perm (rosters.own? roomId) (rosters'.own? roomId)) first.members second.members
  mentions : first.mentions.Perm second.mentions
  questionMentions : first.questionMentions.Perm second.questionMentions

def RoomsAgree (mentions : List MentionSignal) : Prop :=
  ∀ a ∈ mentions, ∀ b ∈ mentions, a.objectId = b.objectId →
    a.subjectKind.getD .object = b.subjectKind.getD .object → a.roomId = b.roomId

section Maps

variable {α : Type} {first second : PlainObject α}

theorem SameEntries.own? (h : SameEntries first second) : first.own? = second.own? := by
  funext key
  exact AList.perm_lookup h

theorem lt_eq_false_iff {a b : String} : Js.lt b a = false ↔ Js.utf16 a ≤ Js.utf16 b := by
  rw [Bool.eq_false_iff, ne_eq, lt_iff, not_lt]

theorem sort_eq_of_perm {a b : List String} (h : a.Perm b) : Js.sort a = Js.sort b := by
  have htotal : Std.Total fun a b : String => Js.lt b a = false := by
    refine ⟨fun a b => ?_⟩
    rw [lt_eq_false_iff, lt_eq_false_iff]
    exact le_total _ _
  have htrans : IsTrans String fun a b => Js.lt b a = false := by
    refine ⟨fun a b c hab hbc => ?_⟩
    rw [lt_eq_false_iff] at hab hbc ⊢
    exact le_trans hab hbc
  refine List.Perm.eq_of_pairwise ?_ (List.pairwise_insertionSort _ a)
    (List.pairwise_insertionSort _ b) ((Js.sort_perm a).trans (h.trans (Js.sort_perm b).symm))
  intro x y _ _ hxy hyx
  rw [lt_eq_false_iff] at hxy hyx
  exact Js.utf16_inj.mp (le_antisymm hxy hyx)

theorem SameEntries.sort_keys (h : SameEntries first second) :
    Js.sort first.keys = Js.sort second.keys :=
  sort_eq_of_perm (h.map Sigma.fst)

end Maps

section Contexts

variable {first second : AttentionContext}

theorem AttentionContext.Reordered.rosterOf (h : first.Reordered second) :
    rosterOf first = rosterOf second := by
  funext roomId
  have hmembers := h.members
  unfold Core.rosterOf
  generalize first.members = members at hmembers ⊢
  generalize second.members = members' at hmembers ⊢
  cases hmembers with
  | none => rfl
  | @some rosters rosters' hrooms =>
    have hroom := hrooms roomId
    dsimp only
    unfold PlainObject.get
    generalize rosters.own? roomId = roster at hroom ⊢
    generalize rosters'.own? roomId = roster' at hroom ⊢
    cases hroom with
    | none => rfl
    | some hperm => exact congrArg Except.ok (sort_eq_of_perm hperm)

theorem AttentionContext.Reordered.decisionNeed (h : first.Reordered second) :
    decisionNeed first = decisionNeed second := by
  unfold Core.decisionNeed
  rw [h.now]

theorem AttentionContext.Reordered.confirmNeed (h : first.Reordered second) :
    confirmNeed first = confirmNeed second := by
  unfold Core.confirmNeed
  rw [h.now]

theorem AttentionContext.Reordered.questionNeed (h : first.Reordered second) :
    questionNeed first = questionNeed second := by
  unfold Core.questionNeed
  rw [h.now]

theorem AttentionContext.Reordered.commitmentNeed (h : first.Reordered second) :
    commitmentNeed first = commitmentNeed second := by
  unfold Core.commitmentNeed
  rw [h.now]

theorem AttentionContext.Reordered.proposalSource [Unicode] (h : first.Reordered second)
    (record : ProposalRecord) : proposalSource record first = proposalSource record second := by
  unfold Core.proposalSource judgedSource verdictOn readingReviewOutcome needsYouOutcome
    needsYouAmong
  rw [h.messages, h.config, h.rosterOf, h.decisionNeed, h.confirmNeed]

end Contexts

/-! ## The sources -/

section Sources

variable {state other : CoreState} {first second : AttentionContext}

theorem proposalItems_reordered [Unicode] (hstate : state.Reordered other)
    (hctx : first.Reordered second) : proposalItems state first = proposalItems other second := by
  have hproposal : state.proposal? = other.proposal? := hstate.proposals.own?
  have hsource : (fun record => proposalSource record first) =
      fun record => proposalSource record second := funext hctx.proposalSource
  unfold proposalItems
  rw [hstate.proposals.sort_keys, hproposal, hsource]

theorem CoreState.Reordered.object? (h : state.Reordered other) : state.object? = other.object? :=
  h.objects.own?

theorem commitmentItems_reordered (hstate : state.Reordered other)
    (hctx : first.Reordered second) : commitmentItems state first = commitmentItems other second := by
  unfold commitmentItems
  rw [hstate.objects.sort_keys, hstate.object?, hctx.commitmentNeed]

theorem sorted_by_key {α κ : Type} [LinearOrder κ] {key : α → κ} {le : α → α → Bool}
    (hle : ∀ a b, le a b = true ↔ key a ≤ key b) {rows rows' : List α} (h : rows.Perm rows')
    (hsame : ∀ a ∈ rows, ∀ b ∈ rows, key a = key b → a = b) :
    rows.mergeSort le = rows'.mergeSort le := by
  refine OrderedLog.mergeSort_eq_of_perm ?_ ?_ h ?_
  · intro a b c hab hbc
    rw [hle] at hab hbc ⊢
    exact le_trans hab hbc
  · intro a b
    rw [Bool.or_eq_true, hle, hle]
    exact le_total _ _
  · intro a ha b hb hab hba
    rw [hle] at hab hba
    exact hsame a ha b hb (le_antisymm hab hba)

theorem compare_ne_gt_iff {a b : String} :
    (Js.compare a b != .gt) = true ↔ Js.utf16 a ≤ Js.utf16 b := by
  rw [bne_iff_ne, ne_eq, compare_eq_gt, not_lt]

theorem openQuestionAt_reordered (h : state.Reordered other) :
    openQuestionAt state = openQuestionAt other := by
  unfold openQuestionAt
  rw [h.object?]

theorem blockedNeeds_reordered (hstate : state.Reordered other) (hctx : first.Reordered second) :
    blockedNeeds state first = blockedNeeds other second := by
  unfold blockedNeeds
  rw [openQuestionAt_reordered hstate, hstate.object?, hctx.questionNeed, hctx.rosterOf]

def questionSortKey (signal : QuestionMentionSignal) : List ℕ ×ₗ List ℕ :=
  toLex (Js.utf16 signal.questionObjectId, Js.utf16 signal.userId)

theorem ifLt_ne_gt_iff {a b : String} :
    ((if Js.lt a b then Ordering.lt else .gt) != .gt) = true ↔ Js.utf16 a < Js.utf16 b := by
  by_cases hlt : Js.lt a b = true
  · rw [if_pos hlt]
    exact ⟨fun _ => lt_iff.mp hlt, fun _ => rfl⟩
  · rw [if_neg hlt]
    exact ⟨fun h => (by cases h), fun h => absurd (lt_iff.mpr h) hlt⟩

theorem compareQuestionMention_le (a b : QuestionMentionSignal) :
    (compareQuestionMention a b != .gt) = true ↔ questionSortKey a ≤ questionSortKey b := by
  unfold questionSortKey compareQuestionMention
  rw [Prod.Lex.toLex_le_toLex]
  dsimp only
  by_cases hquestion : a.questionObjectId = b.questionObjectId
  · rw [if_neg (not_not_intro hquestion), compare_ne_gt_iff, hquestion]
    simp only [lt_self_iff_false, true_and, false_or]
  · have hne : Js.utf16 a.questionObjectId ≠ Js.utf16 b.questionObjectId :=
      fun h => hquestion (Js.utf16_inj.mp h)
    rw [if_pos hquestion, ifLt_ne_gt_iff]
    simp only [hne, false_and, or_false]

theorem eq_of_questionSortKey {a b : QuestionMentionSignal}
    (h : questionSortKey a = questionSortKey b) : a = b := by
  unfold questionSortKey at h
  simp only [EmbeddingLike.apply_eq_iff_eq, Prod.mk.injEq, Js.utf16_inj] at h
  obtain ⟨questionId, userId⟩ := a
  obtain ⟨questionId', userId'⟩ := b
  obtain ⟨rfl, rfl⟩ := h
  rfl

theorem namedQuestionNeeds_reordered (hstate : state.Reordered other)
    (hctx : first.Reordered second) :
    namedQuestionNeeds state first = namedQuestionNeeds other second := by
  have hsignals := sorted_by_key compareQuestionMention_le hctx.questionMentions
    fun a _ b _ => eq_of_questionSortKey
  unfold namedQuestionNeeds
  rw [hsignals, openQuestionAt_reordered hstate, hctx.questionNeed]

theorem blockingQuestionItems_reordered (hstate : state.Reordered other)
    (hctx : first.Reordered second) (hunique : (state.relations.map Relation.id).Nodup) :
    blockingQuestionItems state first = blockingQuestionItems other second := by
  have hids (a b : Relation) : (Js.compare a.id b.id != .gt) = true ↔
      Js.utf16 a.id ≤ Js.utf16 b.id := compare_ne_gt_iff
  have hrelations := sorted_by_key hids hstate.relations
    fun a ha b hb hkey => List.inj_on_of_nodup_map hunique ha hb (Js.utf16_inj.mp hkey)
  unfold blockingQuestionItems questionsExamined
  rw [hrelations, blockedNeeds_reordered hstate hctx, namedQuestionNeeds_reordered hstate hctx,
    hstate.objects.sort_keys, openQuestionAt_reordered hstate]

end Sources

/-! ## Mentions -/

section Mentions

def mentionSortKey (signal : MentionSignal) : List ℕ ×ₗ List ℕ ×ₗ List ℕ :=
  toLex (Js.utf16 signal.objectId, toLex (Js.utf16 signal.userId, Js.utf16 signal.request))

theorem compareMention_le (a b : MentionSignal) :
    (compareMention a b != .gt) = true ↔ mentionSortKey a ≤ mentionSortKey b := by
  unfold mentionSortKey compareMention
  rw [Prod.Lex.toLex_le_toLex, Prod.Lex.toLex_le_toLex]
  dsimp only
  by_cases hobject : a.objectId = b.objectId
  · by_cases huser : a.userId = b.userId
    · rw [if_neg (not_not_intro hobject), if_neg (not_not_intro huser), compare_ne_gt_iff, hobject,
        huser]
      simp only [lt_self_iff_false, true_and, false_or]
    · have hne : Js.utf16 a.userId ≠ Js.utf16 b.userId := fun h => huser (Js.utf16_inj.mp h)
      rw [if_neg (not_not_intro hobject), if_pos huser, ifLt_ne_gt_iff, hobject]
      simp only [lt_self_iff_false, true_and, false_or, hne, false_and, or_false]
  · have hne : Js.utf16 a.objectId ≠ Js.utf16 b.objectId := fun h => hobject (Js.utf16_inj.mp h)
    rw [if_pos hobject, ifLt_ne_gt_iff]
    simp only [hne, false_and, or_false]

theorem mem_firstById_iff {needs : List Need} {need : Need} :
    need ∈ firstById needs ↔ needs.find? (fun held => held.id == need.id) = some need := by
  have hkept (out rest : List Need) : need ∈ rest.foldl (fun out need =>
      if out.any fun held => held.id == need.id then out else out ++ [need]) out ↔
      need ∈ out ∨ (out.any fun held => held.id == need.id) = false ∧
        rest.find? (fun held => held.id == need.id) = some need := by
    induction rest generalizing out with
    | nil => simp
    | cons first rest ih =>
      rw [List.foldl_cons, ih, List.find?_cons]
      by_cases hsame : first.id = need.id
      · rw [hsame, beq_self_eq_true]
        dsimp only
        by_cases hheld : (out.any fun held => held.id == need.id) = true
        · rw [if_pos hheld, hheld]
          simp
        · rw [if_neg hheld, List.any_append, List.mem_append, List.mem_singleton]
          rw [Bool.not_eq_true] at hheld
          simp [hheld, hsame, eq_comm]
      · have hother : (first.id == need.id) = false := beq_eq_false_iff_ne.mpr hsame
        have hne : need ≠ first := fun h => hsame (h ▸ rfl)
        rw [hother]
        dsimp only
        split
        · rfl
        · rw [List.any_append, List.mem_append, List.mem_singleton]
          simp [hother, hne]
  have hall := hkept [] needs
  simpa [firstById] using hall

theorem find?_map_sorted {α β κ : Type} [Preorder κ] {key : α → κ} {l : List α}
    (hsorted : l.Pairwise fun a b => key a ≤ key b) {f : α → β} {p : β → Bool} {y : β}
    (h : (l.map f).find? p = some y) :
    ∃ a ∈ l, f a = y ∧ ∀ b ∈ l, p (f b) = true → key a ≤ key b := by
  induction l with
  | nil => cases h
  | cons first rest ih =>
    obtain ⟨hfirst, hrest⟩ := List.pairwise_cons.mp hsorted
    rw [List.map_cons, List.find?_cons] at h
    split at h
    · cases h
      refine ⟨first, List.mem_cons_self, rfl, ?_⟩
      intro b hb _
      rcases List.mem_cons.mp hb with rfl | hb
      · exact le_refl _
      · exact hfirst b hb
    · next hnot =>
      obtain ⟨a, ha, hy, hall⟩ := ih hrest h
      refine ⟨a, List.mem_cons_of_mem _ ha, hy, ?_⟩
      intro b hb hp
      rcases List.mem_cons.mp hb with rfl | hb
      · rw [hp] at hnot
        cases hnot
      · exact hall b hb hp

variable {first second : AttentionContext}

theorem sorted_mentions (mentions : List MentionSignal) :
    (mentions.mergeSort fun a b => compareMention a b != .gt).Pairwise fun a b =>
      mentionSortKey a ≤ mentionSortKey b := by
  refine (List.pairwise_mergeSort ?_ ?_ mentions).imp fun h => (compareMention_le _ _).mp h
  · intro a b c hab hbc
    rw [compareMention_le] at hab hbc ⊢
    exact le_trans hab hbc
  · intro a b
    rw [Bool.or_eq_true, compareMention_le, compareMention_le]
    exact le_total _ _

/-- Of the signals that make one id, the one with the least text is kept. -/
theorem kept_mention (hctx : first.Reordered second) (hrooms : RoomsAgree first.mentions)
    {need : Need} (h : need ∈ (mentionItems first).items) : need ∈ (mentionItems second).items := by
  unfold mentionItems at h ⊢
  rw [mem_firstById_iff] at h ⊢
  have hneed : mentionNeed second = mentionNeed first := by
    unfold mentionNeed
    rw [hctx.now]
  obtain ⟨signal, hsignal, rfl, hleast⟩ :=
    find?_map_sorted (sorted_mentions first.mentions) h
  have hperm := (List.mergeSort_perm first.mentions fun a b => compareMention a b != .gt).trans
    (hctx.mentions.trans (List.mergeSort_perm _ fun a b => compareMention a b != .gt).symm)
  rw [hneed]
  cases hfound : ((second.mentions.mergeSort fun a b => compareMention a b != .gt).map
      (mentionNeed first)).find? fun held => held.id == (mentionNeed first signal).id with
  | none =>
    have hnone := List.find?_eq_none.mp hfound (mentionNeed first signal)
      (List.mem_map_of_mem (hperm.mem_iff.mp hsignal))
    simp at hnone
  | some kept =>
    have hid : kept.id = (mentionNeed first signal).id := by
      simpa using List.find?_some hfound
    obtain ⟨twin, htwin, rfl, hleast'⟩ :=
      find?_map_sorted (sorted_mentions second.mentions) hfound
    have hkey : mentionSortKey signal = mentionSortKey twin :=
      le_antisymm (hleast twin (hperm.mem_iff.mpr htwin) (beq_iff_eq.mpr hid))
        (hleast' signal (hperm.mem_iff.mp hsignal) (beq_self_eq_true _))
    unfold mentionSortKey at hkey
    simp only [EmbeddingLike.apply_eq_iff_eq, Prod.mk.injEq, Js.utf16_inj] at hkey
    obtain ⟨hobject, huser, hrequest⟩ := hkey
    have hkind : twin.subjectKind.getD .object = signal.subjectKind.getD .object :=
      (Need.id_inj hid).2.1
    have hroom : signal.roomId = twin.roomId :=
      hrooms signal (List.mem_mergeSort.mp hsignal) twin
        (List.mem_mergeSort.mp (hperm.mem_iff.mpr htwin)) hobject hkind.symm
    unfold mentionNeed
    rw [hobject, huser, hrequest, hroom, hkind]

theorem AttentionContext.Reordered.symm (h : first.Reordered second) : second.Reordered first where
  now := h.now.symm
  messages := h.messages.symm
  config := h.config.symm
  members := by
    have hmembers := h.members
    generalize first.members = members at hmembers ⊢
    generalize second.members = members' at hmembers ⊢
    cases hmembers with
    | none => exact .none
    | @some rosters rosters' hrooms =>
      refine .some fun roomId => ?_
      have hroom := hrooms roomId
      generalize rosters.own? roomId = roster at hroom ⊢
      generalize rosters'.own? roomId = roster' at hroom ⊢
      cases hroom with
      | none => exact .none
      | some hperm => exact .some hperm.symm
  mentions := h.mentions.symm
  questionMentions := h.questionMentions.symm

theorem mentionItems_perm (hctx : first.Reordered second) (hrooms : RoomsAgree first.mentions) :
    (mentionItems first).items.Perm (mentionItems second).items := by
  have hrooms' : RoomsAgree second.mentions := fun a ha b hb =>
    hrooms a (hctx.mentions.mem_iff.mpr ha) b (hctx.mentions.mem_iff.mpr hb)
  have hfirst : (mentionItems first).items.Nodup := distinct_mentionItems.of_map _
  have hsecond : (mentionItems second).items.Nodup := distinct_mentionItems.of_map _
  refine (List.perm_ext_iff_of_nodup hfirst hsecond).mpr fun need => ?_
  exact ⟨kept_mention hctx hrooms, kept_mention hctx.symm hrooms'⟩

end Mentions

/-! ## The panel -/

section Panel

variable {state other : CoreState} {first second ctx : AttentionContext}

theorem commitmentItems_urgent : ∀ need ∈ (commitmentItems state ctx).items, need.priority < 5 := by
  intro need hneed
  obtain ⟨record, -, hraised⟩ := List.mem_filterMap.mp hneed
  unfold commitmentNeed at hraised
  split at hraised
  · dsimp only at hraised
    split at hraised
    · cases hraised
      dsimp only
      split <;> decide
    · cases hraised
  · cases hraised

theorem proposalItems_urgent [Unicode] {proposals : AttentionSource}
    (h : proposalItems state ctx = .ok proposals) : ∀ need ∈ proposals.items, need.priority < 5 := by
  obtain ⟨sources, hsources, h⟩ := Except.bind_ok h
  cases h
  intro need hneed
  obtain ⟨source, hsource, hneed⟩ := List.mem_flatMap.mp hneed
  obtain ⟨record, -, hpass⟩ := (Except.mem_of_mapM hsources).1 source hsource
  unfold proposalSource at hpass
  split at hpass
  · cases hpass
    cases hneed
  · exact ((heard_judged hpass).items need hneed).urgent

/-- Mentions come last in a panel, and no two of them under one id. -/
theorem sortAttention_mentions {urgent mentions mentions' : List Need}
    (hurgent : ∀ need ∈ urgent, need.priority < 5)
    (hmentions : ∀ need ∈ mentions, need.priority = 5) (hperm : mentions.Perm mentions')
    (hdistinct : Distinct mentions) :
    sortAttention ((urgent ++ mentions).map item) =
      sortAttention ((urgent ++ mentions').map item) := by
  have htrans (a b c : ComputedAttentionItem) (hab : (compareAttention a b != .gt) = true)
      (hbc : (compareAttention b c != .gt) = true) : (compareAttention a c != .gt) = true := by
    rw [compareAttention_le] at hab hbc ⊢
    exact le_trans hab hbc
  have htotal (a b : ComputedAttentionItem) :
      (compareAttention a b != .gt || compareAttention b a != .gt) = true := by
    rw [Bool.or_eq_true, compareAttention_le, compareAttention_le]
    exact le_total _ _
  have hbefore {last : List Need} (hlast : ∀ need ∈ last, need.priority = 5) :
      ∀ a ∈ urgent.map item, ∀ b ∈ last.map item, (compareAttention a b != .gt) = true := by
    intro a ha b hb
    obtain ⟨need, hneed, rfl⟩ := List.mem_map.mp ha
    obtain ⟨mention, hmention, rfl⟩ := List.mem_map.mp hb
    rw [compareAttention_le]
    refine le_of_lt (Prod.Lex.toLex_lt_toLex.mpr (.inl ?_))
    have hfive := hlast mention hmention
    have hless := hurgent need hneed
    show need.priority < mention.priority
    omega
  have hmentions' : ∀ need ∈ mentions', need.priority = 5 :=
    fun need hneed => hmentions need (hperm.mem_iff.mpr hneed)
  have hids : ((mentions.map item).map fun entry => entry.id).Nodup := by
    rw [List.map_map]
    exact hdistinct
  rw [List.map_append, List.map_append]
  unfold sortAttention
  rw [OrderedLog.mergeSort_append htrans htotal (hbefore hmentions),
    OrderedLog.mergeSort_append htrans htotal (hbefore hmentions')]
  exact congrArg _ (sortAttention_eq_of_perm (hperm.map item) hids)

theorem mentionItems_last : ∀ need ∈ (mentionItems ctx).items, need.priority = 5 := by
  intro need hneed
  obtain ⟨signal, -, rfl⟩ := List.mem_map.mp (mem_firstById hneed)
  rfl

theorem AttentionProjection.eq_of_fields {a b : AttentionProjection} (hitems : a.items = b.items)
    (hrefusals : a.refusals = b.refusals) (hexamined : a.examined = b.examined) : a = b := by
  obtain ⟨items, refusals, examined, _⟩ := a
  obtain ⟨items', refusals', examined', _⟩ := b
  obtain rfl : items = items' := hitems
  obtain rfl : refusals = refusals' := hrefusals
  obtain rfl : examined = examined' := hexamined
  rfl

/-- The result of the projection does not depend on the order of the maps and of the relations of a
reached state, nor on the order of the rosters and of the signals, when the signals about one subject
agree on its room. -/
theorem attention_ignores_order [Unicode] (hreached : Reached anyEvent state)
    (hstate : state.Reordered other) (hctx : first.Reordered second)
    (hrooms : RoomsAgree first.mentions) :
    projectAttention other second = projectAttention state first := by
  obtain ⟨-, hintegrity⟩ := hreached.keyed_integrity
  have hproposals := proposalItems_reordered hstate hctx
  have hcommitments := commitmentItems_reordered hstate hctx
  have hquestions := blockingQuestionItems_reordered hstate hctx hintegrity.relationIds
  unfold projectAttention
  rw [← hproposals, ← hquestions]
  cases hfirst : proposalItems state first with
  | error e => simp only [bind, Except.bind]
  | ok proposals =>
    cases hblocking : blockingQuestionItems state first with
    | error e => simp only [bind, Except.bind]
    | ok questions =>
      have hurgent : ∀ need ∈ proposals.items ++ ((commitmentItems state first).items ++
          questions.items), need.priority < 5 := by
        intro need hneed
        rcases List.mem_append.mp hneed with hneed | hneed
        · exact proposalItems_urgent hfirst need hneed
        · rcases List.mem_append.mp hneed with hneed | hneed
          · exact commitmentItems_urgent need hneed
          · obtain ⟨question, reason, userId, rfl⟩ :=
              blockingQuestionItems_asked hblocking need hneed
            exact show 2 < 5 by decide
      have hsorted := sortAttention_mentions hurgent mentionItems_last
        (mentionItems_perm hctx hrooms) distinct_mentionItems
      have hsources (commitments mentions : AttentionSource) :
          (AttentionSource.gather [proposals, commitments, questions, mentions]).items =
            (proposals.items ++ (commitments.items ++ questions.items)) ++ mentions.items := by
        simp [AttentionSource.gather]
      have hquiet (ctx : AttentionContext) :
          (mentionItems ctx).refusals = [] ∧ (mentionItems ctx).examined = [] := ⟨rfl, rfl⟩
      refine congrArg Except.ok (AttentionProjection.eq_of_fields ?_ ?_ ?_)
      · dsimp only
        rw [hsources, hsources, ← hcommitments]
        exact hsorted.symm
      · simp only [AttentionSource.gather, List.flatMap_cons, ← hcommitments, (hquiet _).1]
      · simp only [AttentionSource.gather, List.flatMap_cons, ← hcommitments, (hquiet _).2]

end Panel

def mentionedTwice : List MentionSignal :=
  [⟨"room", none, "o", "bob", "look at this"⟩, ⟨"room", some .object, "o", "bob", "and again"⟩]

def mentionContext (mentions : List MentionSignal) : AttentionContext :=
  { plainContext with mentions := mentions }

theorem mentions_swapped :
    @projectAttention Unicode.ascii (@offerAll Unicode.ascii stagedDecision)
        (mentionContext mentionedTwice.reverse) =
      @projectAttention Unicode.ascii (@offerAll Unicode.ascii stagedDecision)
        (mentionContext mentionedTwice) := by
  let _ : Unicode := Unicode.ascii
  have hreached : Reached anyEvent (offerAll stagedDecision) :=
    reached_offerAll fun _ _ _ => trivial
  have hrooms : RoomsAgree mentionedTwice := by
    unfold RoomsAgree
    decide
  exact attention_ignores_order hreached ⟨.refl _, .refl _, .refl _⟩
    ⟨rfl, rfl, rfl, .none, (List.reverse_perm _).symm, .refl _⟩ hrooms

end Core
