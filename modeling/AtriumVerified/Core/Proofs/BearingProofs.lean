import AtriumVerified.Lib.RegexLanguage
import AtriumVerified.Core.Proofs.MatchingProofs

/-!
# Proofs: a statement is borne when the normal forms agree

The tokens of a text are its normal form cut up, so two texts with the same normal form have the same
tokens and the other way round. The alignment declines an empty run of tokens, so what is left to show
is that a text with content keeps some of it: no fold takes away a character that is neither deleted,
nor spacing, nor a mark of a link.
-/

namespace Core

open Regex Unicode

/-! ## Characters that no fold takes away -/

section Lasting

/-- A character is neither deleted, nor spacing, nor a mark of a link. -/
def lasting (c : Char) : Bool :=
  !deletable c && !isWhiteSpace c && !"[]()\"".toList.contains c

variable {c : Char} {text : Text}

theorem lasting_iff : lasting c = true ↔
    deletable c = false ∧ isWhiteSpace c = false ∧ c ∉ "[]()\"".toList := by
  unfold lasting
  simp only [Bool.and_eq_true, Bool.not_eq_true', and_assoc, ← List.contains_iff_mem,
    Bool.not_eq_true]

theorem not_isSpace_of_lasting (h : lasting c = true) : Js.isSpace c = false := by
  obtain ⟨hkept, hspace, -⟩ := lasting_iff.mp h
  by_contra hblank
  rw [isWhiteSpace_of_isSpace (by simpa using hblank) hkept] at hspace
  cases hspace

theorem mem_trim (hc : c ∈ text) (h : lasting c = true) : c ∈ Js.trim text := by
  obtain ⟨lead, tail, htext, hlead, htail⟩ := trim_split text
  have hspace := not_isSpace_of_lasting h
  rw [htext, List.mem_append, List.mem_append] at hc
  rcases hc with hc | hc | hc
  · exact absurd hc (not_mem_space hlead hspace)
  · exact hc
  · exact absurd hc (not_mem_space htail hspace)

theorem mem_foldMarks (hc : c ∈ text) (h : lasting c = true) :
    ∃ d ∈ foldMarks text, lasting d = true := by
  have hkept : deletable c = false := (lasting_iff.mp h).1
  refine ⟨_, List.mem_map_of_mem (List.mem_filter.mpr ⟨hc, by rw [hkept]; rfl⟩), ?_⟩
  split
  · decide
  · exact h

theorem mem_squeeze {accepts : Char → Bool} {d : Char} (inRun : Bool) (hc : c ∈ text)
    (h : accepts c = false) : c ∈ squeeze accepts d inRun text := by
  induction text generalizing inRun with
  | nil => cases hc
  | cons e rest ih =>
    unfold squeeze
    split
    · rename_i he
      have hrest : c ∈ rest := by
        rcases List.mem_cons.mp hc with rfl | hrest
        · rw [h] at he
          cases he
        · exact hrest
      split
      · exact ih true hrest
      · exact List.mem_cons_of_mem _ (ih true hrest)
    · rcases List.mem_cons.mp hc with rfl | hrest
      · exact List.mem_cons_self
      · exact List.mem_cons_of_mem _ (ih false hrest)

theorem lasting_of_code (h : (48 ≤ c.toNat ∧ c.toNat ≤ 57) ∨ (65 ≤ c.toNat ∧ c.toNat ≤ 90) ∨
    (97 ≤ c.toNat ∧ c.toNat ≤ 122) ∨ (0x1F1E6 ≤ c.toNat ∧ c.toNat ≤ 0x1F1FF)) :
    lasting c = true := by
  have hmark : c ∉ "[]()\"".toList := by
    intro hmem
    have hcodes : ∀ d ∈ "[]()\"".toList,
        d.toNat = 91 ∨ d.toNat = 93 ∨ d.toNat = 40 ∨ d.toNat = 41 ∨ d.toNat = 34 := by decide
    have hcode := hcodes c hmem
    omega
  refine lasting_iff.mpr ⟨?_, ?_, hmark⟩
  · unfold deletable
    simp only [List.contains_eq_mem, List.mem_cons, List.not_mem_nil, or_false,
      decide_eq_false_iff_not, not_or]
    omega
  · unfold isWhiteSpace
    simp only [Bool.or_eq_false_iff, Bool.and_eq_false_iff, beq_eq_false_iff_ne,
      decide_eq_false_iff_not]
    omega

end Lasting

/-! ## Links -/

section Links

variable {c : Char} {text : Text} {groups : List (Nat × Text)}

/-- The parts of a link: the mark of an image, the label, the target and the caption. -/
theorem link_reading (h : Reading markdownLink text groups) :
    ∃ bang label lead target middle tail captions,
      text = bang ++ ("[".toList ++ (label ++ ("](".toList ++ (lead ++ (target ++ (middle ++
        (tail ++ ")".toList))))))) ∧
      groups = captions ++ [(3, target), (2, label), (1, bang)] ∧
      (∀ c ∈ lead, Js.isSpace c = true) ∧ (∀ c ∈ tail, Js.isSpace c = true) ∧
      ((middle = [] ∧ captions = []) ∨ ∃ gap caption, middle = gap ++ ("\"".toList ++ (caption ++
        "\"".toList)) ∧ (∀ c ∈ gap, Js.isSpace c = true) ∧ captions = [(4, caption)]) := by
  obtain ⟨bang, _, _, _, rfl, rfl, ⟨inBang, rfl, hbang⟩, h⟩ := h
  obtain ⟨_, _, _, _, rfl, rfl, hopen, h⟩ := h
  obtain ⟨label, _, _, _, rfl, rfl, ⟨inLabel, rfl, hlabel⟩, h⟩ := h
  obtain ⟨_, _, _, _, rfl, rfl, hturn, h⟩ := h
  obtain ⟨lead, _, _, _, rfl, rfl, hlead, h⟩ := h
  obtain ⟨target, _, _, _, rfl, rfl, ⟨inTarget, rfl, htarget⟩, h⟩ := h
  obtain ⟨middle, _, captions, _, rfl, rfl, hmiddle, h⟩ := h
  obtain ⟨tail, _, _, _, rfl, rfl, htail, h⟩ := h
  obtain ⟨_, _, _, _, rfl, rfl, hclose, rfl, rfl⟩ := h
  obtain ⟨rfl, rfl⟩ := reading_lit.mp hopen
  obtain ⟨rfl, rfl⟩ := reading_lit.mp hturn
  obtain ⟨rfl, rfl⟩ := reading_lit.mp hclose
  obtain ⟨-, rfl⟩ := reading_rep_one hlabel
  obtain ⟨-, rfl⟩ := reading_rep_one htarget
  obtain ⟨hleading, rfl⟩ := reading_rep_one hlead
  obtain ⟨htrailing, rfl⟩ := reading_rep_one htail
  have hnone : inBang = [] := by
    rcases reading_opt hbang with ⟨-, rfl⟩ | hbang
    · rfl
    · exact (reading_lit.mp hbang).2
  subst hnone
  refine ⟨bang, label, lead, target, middle, tail, captions, by simp, by simp, hleading, htrailing, ?_⟩
  rcases reading_opt hmiddle with hempty | hcaption
  · exact Or.inl hempty
  · obtain ⟨gap, _, _, _, rfl, rfl, hgap, h⟩ := hcaption
    obtain ⟨_, _, _, _, rfl, rfl, hquote, h⟩ := h
    obtain ⟨caption, _, _, _, rfl, rfl, ⟨inCaption, rfl, hcaption⟩, h⟩ := h
    obtain ⟨_, _, _, _, rfl, rfl, hunquote, rfl, rfl⟩ := h
    obtain ⟨rfl, rfl⟩ := reading_lit.mp hquote
    obtain ⟨rfl, rfl⟩ := reading_lit.mp hunquote
    obtain ⟨-, rfl⟩ := reading_rep_one hcaption
    obtain ⟨hspaces, rfl⟩ := reading_rep_one hgap
    exact Or.inr ⟨gap, caption, by simp, hspaces, rfl⟩

/-- The parts of a link are parts of the unfolded one; a target that repeats the label is left out. -/
theorem mem_unfoldLink {hit : Hit}
    (h : c ∈ (hit.group? 1).getD [] ∨ c ∈ Js.trim ((hit.group? 2).getD []) ∨
      c ∈ Js.trim ((hit.group? 3).getD []) ∨ c ∈ Js.trim ((hit.group? 4).getD [])) :
    c ∈ unfoldLink hit := by
  unfold unfoldLink
  dsimp only
  generalize Js.trim ((hit.group? 2).getD []) = label at h ⊢
  generalize Js.trim ((hit.group? 3).getD []) = target at h ⊢
  generalize Js.trim ((hit.group? 4).getD []) = caption at h ⊢
  have hlinked : c ∈ label ∨ c ∈ target →
      c ∈ if (target.isEmpty || label == target) = true then label else label ++ ' ' :: target := by
    intro hc
    split
    · rename_i hsame
      rcases Bool.or_eq_true_iff.mp hsame with hempty | hsame
      · rw [List.isEmpty_iff.mp hempty] at hc
        simpa using hc
      · rw [beq_iff_eq.mp hsame] at hc ⊢
        simpa using hc
    · simp only [List.mem_append, List.mem_cons]
      exact hc.imp_right Or.inr
  rw [List.mem_append]
  rcases h with hbang | hlabel | htarget | hcaption
  · exact Or.inl hbang
  · refine Or.inr ?_
    split
    · exact hlinked (Or.inl hlabel)
    · exact List.mem_append_left _ (hlinked (Or.inl hlabel))
  · refine Or.inr ?_
    split
    · exact hlinked (Or.inr htarget)
    · exact List.mem_append_left _ (hlinked (Or.inr htarget))
  · refine Or.inr ?_
    split
    · rename_i hempty
      rw [List.isEmpty_iff.mp hempty] at hcaption
      cases hcaption
    · exact List.mem_append_right _ (List.mem_cons_of_mem _ hcaption)

/-- What is lost of a link is the marks around its parts and the spacing between them. -/
theorem mem_unfoldLink_of_reading {hit : Hit} (hread : Reading markdownLink hit.matched hit.groups)
    (hc : c ∈ hit.matched) (h : lasting c = true) : c ∈ unfoldLink hit := by
  obtain ⟨bang, label, lead, target, middle, tail, captions, htext, hgroups, hlead, htail, hcaption⟩ :=
    link_reading hread
  have hspace := not_isSpace_of_lasting h
  have hmark : c ∉ "[]()\"".toList := (lasting_iff.mp h).2.2
  have hmarks : c ∉ "[".toList ∧ c ∉ "](".toList ∧ c ∉ ")".toList ∧ c ∉ "\"".toList := by
    simp at hmark ⊢
    tauto
  obtain ⟨hopen, hturn, hclose, hquote⟩ := hmarks
  have hlead' := not_mem_space hlead hspace
  have htail' := not_mem_space htail hspace
  rw [htext] at hc
  simp only [List.mem_append, hopen, hturn, hclose, hlead', htail', false_or, or_false] at hc
  apply mem_unfoldLink
  unfold Hit.group?
  rw [hgroups]
  rcases hcaption with ⟨rfl, rfl⟩ | ⟨gap, caption, rfl, hgap, rfl⟩
  · rcases hc with hc | hc | hc | hc
    · exact Or.inl hc
    · exact Or.inr (Or.inl (mem_trim hc h))
    · exact Or.inr (Or.inr (Or.inl (mem_trim hc h)))
    · cases hc
  · have hgap' := not_mem_space hgap hspace
    simp only [List.mem_append, hquote, hgap', false_or, or_false] at hc
    rcases hc with hc | hc | hc | hc
    · exact Or.inl hc
    · exact Or.inr (Or.inl (mem_trim hc h))
    · exact Or.inr (Or.inr (Or.inl (mem_trim hc h)))
    · exact Or.inr (Or.inr (Or.inr (mem_trim hc h)))

theorem mem_replace_unfoldLink (hc : c ∈ text) (h : lasting c = true) :
    c ∈ replace markdownLink unfoldLink text :=
  mem_replace (fun _ hread hmem => mem_unfoldLink_of_reading hread hmem h) hc

theorem exists_mem_foldProse (hc : c ∈ text) (h : lasting c = true) :
    ∃ d ∈ foldProse text, lasting d = true := by
  obtain ⟨d, hd, hlasting⟩ := mem_foldMarks hc h
  refine ⟨d, ?_, hlasting⟩
  rw [foldProse_eq]
  exact mem_squeeze false (mem_replace_unfoldLink hd hlasting) (lasting_iff.mp hlasting).2.1

theorem exists_mem_normalizeForReceipt (hc : c ∈ text) (h : lasting c = true) :
    ∃ d ∈ normalizeForReceipt text, lasting d = true := by
  rw [← scan_cut codeSpan text] at hc
  have hsegment : ∃ segment ∈ splitKeeping codeSpan text, c ∈ segment.2 := by
    unfold splitKeeping
    rcases List.mem_append.mp hc with hc | hc
    · obtain ⟨hit, hhit, hc⟩ := List.mem_flatMap.mp hc
      rcases List.mem_append.mp hc with hc | hc
      · refine ⟨(false, hit.skipped), List.mem_append_left _ (List.mem_flatMap.mpr ⟨hit, hhit, ?_⟩), hc⟩
        exact List.mem_cons_self
      · refine ⟨(true, hit.matched), List.mem_append_left _ (List.mem_flatMap.mpr ⟨hit, hhit, ?_⟩), hc⟩
        exact List.mem_cons_of_mem _ List.mem_cons_self
    · exact ⟨(false, (scan codeSpan text).2), List.mem_append_right _ List.mem_cons_self, hc⟩
  obtain ⟨⟨isCode, segment⟩, hmem, hc⟩ := hsegment
  obtain ⟨d, hd, hlasting⟩ : ∃ d ∈ foldSegment (isCode, segment), lasting d = true := by
    cases isCode with
    | true => exact ⟨c, hc, h⟩
    | false => exact exists_mem_foldProse hc h
  refine ⟨d, ?_, hlasting⟩
  rw [normalizeForReceipt_eq]
  exact mem_trim (List.mem_flatMap.mpr ⟨_, hmem, hd⟩) hlasting

end Links

/-! ## Bearing -/

section Bearing

variable {policy : ReceiptPolicy}

theorem alignTokens_borne {tokens tokens' : List Text} (htokens : tokens.isEmpty = false)
    (htokens' : tokens'.isEmpty = false) (hlength : tokens.length ≤ policy.maxAlignedTokens)
    (hlength' : tokens'.length ≤ policy.maxAlignedTokens) :
    (alignTokens tokens tokens' policy).borne = true ↔ tokens = tokens' := by
  have hfits : ¬ (policy.maxAlignedTokens < tokens.length ||
      policy.maxAlignedTokens < tokens'.length) = true := by
    simp only [Bool.or_eq_true, decide_eq_true_eq]
    omega
  unfold alignTokens
  rw [if_neg (by simp [htokens]), if_neg (by simp [htokens']), if_neg hfits]
  exact beq_iff_eq

variable [Unicode] {quote statement : Text}

/-- The tables of a database that agree with its small properties: a letter, a number or a pictograph
is not deleted, is no spacing and is no mark of a link. -/
def TablesAgree : Prop :=
  ∀ c, (isLetter c || isNumber c || isExtendedPictographic c) = true → lasting c = true

theorem lasting_of_contentful (htables : TablesAgree) {c : Char} (h : contentful c = true) :
    lasting c = true := by
  unfold contentful at h
  rcases Bool.or_eq_true_iff.mp h with hlisted | hindicator
  · exact htables c hlisted
  · unfold isRegionalIndicator at hindicator
    have hcode : 0x1F1E6 ≤ c.toNat ∧ c.toNat ≤ 0x1F1FF := by simpa using hindicator
    exact lasting_of_code (Or.inr (Or.inr (Or.inr hcode)))

theorem orderedTokens_ne_nil (htables : TablesAgree) {text : Text}
    (h : isBlank (some text) = false) : (orderedTokens text).isEmpty = false := by
  have hcontent : ∃ c ∈ text, contentful c = true := by
    simpa [isBlank, hasContent] using h
  obtain ⟨c, hc, hcontentful⟩ := hcontent
  obtain ⟨d, hd, -⟩ :=
    exists_mem_normalizeForReceipt hc (lasting_of_contentful htables hcontentful)
  rw [List.isEmpty_eq_false_iff]
  intro hnone
  rw [← orderedTokens_flatten, hnone] at hd
  cases hd

theorem orderedTokens_eq_iff :
    orderedTokens quote = orderedTokens statement ↔
      normalizeForReceipt quote = normalizeForReceipt statement := by
  constructor
  · intro h
    rw [← orderedTokens_flatten, ← orderedTokens_flatten, h]
  · intro h
    unfold orderedTokens
    rw [h]

/-- The tokens of every text joined are its normal form, and of two texts with content that are not
longer than the aligner reads, one bears the other exactly when their normal forms are the same. -/
theorem tokens_agree_with_normal_form (htables : TablesAgree) :
    (∀ text, (orderedTokens text).flatten = normalizeForReceipt text) ∧
      ∀ quote statement policy, isBlank (some quote) = false → isBlank (some statement) = false →
        (orderedTokens quote).length ≤ policy.maxAlignedTokens →
        (orderedTokens statement).length ≤ policy.maxAlignedTokens →
        ((statementBearing quote statement policy).borne = true ↔
          normalizeForReceipt quote = normalizeForReceipt statement) := by
  refine ⟨orderedTokens_flatten, ?_⟩
  intro quote statement policy hquote hstatement hlength hlength'
  unfold statementBearing
  rw [hquote, hstatement, if_neg Bool.false_ne_true, if_neg Bool.false_ne_true,
    alignTokens_borne (orderedTokens_ne_nil htables hquote)
      (orderedTokens_ne_nil htables hstatement) hlength hlength']
  exact orderedTokens_eq_iff

end Bearing

theorem ascii_agrees : @TablesAgree Unicode.ascii := by
  intro c hc
  have hascii : (c.isAlpha || Js.isDigit c) = true := by
    have hlisted : ((c.isAlpha || Js.isDigit c) || false) = true := hc
    rwa [Bool.or_false] at hlisted
  apply lasting_of_code
  delta Char.isAlpha Char.isUpper Char.isLower at hascii
  simp only [Js.isDigit, Bool.or_eq_true,
    Bool.and_eq_true, decide_eq_true_eq, Char.le_def, UInt32.le_iff_toNat_le, ge_iff_le] at hascii
  have hnat : c.val.toNat = c.toNat := rfl
  simp at hascii
  omega

theorem linked_words_borne :
    (@statementBearing Unicode.ascii "[We ship](now)".toList "We ship now".toList
      receiptPolicy).borne = true := by
  let _ : Unicode := Unicode.ascii
  have hsame : normalizeForReceipt "[We ship](now)".toList =
      normalizeForReceipt "We ship now".toList := by decide +kernel
  exact ((tokens_agree_with_normal_form ascii_agrees).2 _ _ receiptPolicy (by decide) (by decide)
    (by decide +kernel) (by decide +kernel)).mpr hsame

end Core
