import AtriumVerified.Lib.RegexCut
import AtriumVerified.Core.Proofs.BearingProofs

/-!
# Proofs: the marks of a text that is cut in two

The marks of a text are the tokens of its normal form that are no spacing. Cut at some spacing, a text
has the marks of its two pieces, one after the other, as long as the cut does not go through a code
span or a link: the folds go segment by segment and link by link, and no token lies across spacing.
-/

namespace Core

open Regex Unicode

/-! ## Marks -/

section Marks

variable [Unicode] {text x y space : Text}

def WordsUnspaced : Prop := ∀ c, wordChar c = true → isWhiteSpace c = false

def tokenPattern : Pattern := .alt word (.one fun _ => true)

def marks (text : Text) : List Text :=
  (matchAll tokenPattern text).filter fun token => !isWhitespaceToken token

theorem significant_eq (text : Text) : significant text = marks (normalizeForReceipt text) := rfl

theorem tokenPattern_progress : Progress tokenPattern :=
  progress_alt (progress_seq (progress_rep progress_one)) progress_one

theorem tokenPattern_plain : tokenPattern.plain = true := by rfl

theorem word_unspaced (hwords : WordsUnspaced) (h : Language word text) :
    text ≠ [] ∧ ∀ c ∈ text, isWhiteSpace c = false := by
  obtain ⟨front, back, rfl, hfront, -, -, rfl, ⟨parts, rfl, -, hparts⟩, rfl⟩ := h
  obtain ⟨hlength, hfront⟩ := language_rep_one.mp hfront
  refine ⟨?_, ?_⟩
  · intro hempty
    rw [(List.append_eq_nil_iff.mp hempty).1] at hlength
    cases hlength
  · intro c hc
    rw [List.append_nil] at hc
    rcases List.mem_append.mp hc with hc | hc
    · exact hwords c (hfront c hc)
    · obtain ⟨part, hpart, hin⟩ := List.mem_flatten.mp hc
      obtain ⟨mark, _, rfl, hmark, letters, _, rfl, hletters, rfl⟩ := hparts part hpart
      rcases List.mem_append.mp hin with hmem | hmem
      · rw [language_lit.mp hmark] at hmem
        rw [List.mem_singleton.mp hmem]
        decide
      · rw [List.append_nil] at hmem
        exact hwords c ((language_rep_one.mp hletters).2 c hmem)

theorem token_unspaced (hwords : WordsUnspaced) {hit : Hit}
    (h : hit ∈ (scan tokenPattern text).1) :
    hit.matched ≠ [] ∧ (hit.matched.length = 1 ∨ ∀ c ∈ hit.matched, isWhiteSpace c = false) := by
  rcases (scan_matched tokenPattern text hit h).1 with hword | ⟨c, -, hone⟩
  · obtain ⟨hne, hnone⟩ := word_unspaced hwords hword
    exact ⟨hne, Or.inr hnone⟩
  · rw [hone]
    exact ⟨List.cons_ne_nil c [], Or.inl rfl⟩

theorem marks_cut (hwords : WordsUnspaced)
    (h : x.getLast?.any isWhiteSpace = true ∨ y.head?.any isWhiteSpace = true) :
    marks (x ++ y) = marks x ++ marks y := by
  have hapart : Apart (scan tokenPattern (x ++ y)).1 x y := by
    rintro hit hhit u v hmatched hu hv ⟨before, rfl⟩ ⟨after, rfl⟩
    obtain ⟨start, last, rfl⟩ := (List.eq_nil_or_concat u).resolve_left hu
    obtain ⟨first, rest, rfl⟩ := List.exists_cons_of_ne_nil hv
    rcases (token_unspaced hwords hhit).2 with hlength | hnone
    · rw [hmatched] at hlength
      simp at hlength
      omega
    · rw [hmatched] at hnone
      have hlast := hnone last (by simp)
      have hfirst := hnone first (by simp)
      rcases h with h | h
      · simp [hlast] at h
      · simp [hfirst] at h
  unfold marks
  rw [matchAll_cut tokenPattern_plain tokenPattern_progress hapart, List.filter_append]

theorem marks_space (hwords : WordsUnspaced) (hspace : ∀ c ∈ space, isWhiteSpace c = true) :
    marks space = [] := by
  unfold marks
  rw [List.filter_eq_nil_iff]
  intro token htoken
  obtain ⟨hit, hhit, rfl⟩ := List.mem_map.mp htoken
  have hinside : ∀ c ∈ hit.matched, isWhiteSpace c = true := by
    intro c hc
    refine hspace c ?_
    rw [← scan_cut tokenPattern space]
    exact List.mem_append_left _ (List.mem_flatMap.mpr ⟨hit, hhit, List.mem_append_right _ hc⟩)
  have hne := (token_unspaced hwords hhit).1
  have htoken : isWhitespaceToken hit.matched = true := by
    unfold isWhitespaceToken
    rw [List.isEmpty_eq_false_iff.mpr hne, List.all_eq_true.mpr hinside]
    rfl
  rw [htoken]
  exact Bool.false_ne_true

theorem marks_prepend (hwords : WordsUnspaced) (hspace : ∀ c ∈ space, isWhiteSpace c = true) :
    marks (space ++ text) = marks text := by
  rcases List.eq_nil_or_concat space with rfl | ⟨start, last, rfl⟩
  · rfl
  · have hlast : (start ++ [last]).getLast?.any isWhiteSpace = true := by
      rw [List.getLast?_concat]
      exact hspace last (by simp)
    rw [marks_cut hwords (Or.inl (by simpa using hlast)), marks_space hwords hspace, List.nil_append]

theorem marks_append (hwords : WordsUnspaced) (hspace : ∀ c ∈ space, isWhiteSpace c = true) :
    marks (text ++ space) = marks text := by
  cases space with
  | nil => rw [List.append_nil]
  | cons first rest =>
    have hfirst : (first :: rest).head?.any isWhiteSpace = true := hspace first List.mem_cons_self
    rw [marks_cut hwords (Or.inr hfirst), marks_space hwords hspace, List.append_nil]

end Marks

/-! ## Margins -/

section Clean

variable {text : Text} {c : Char}

/-- What is spacing for `trim` is white space. -/
def Clean (text : Text) : Prop := ∀ c ∈ text, Js.isSpace c = true → isWhiteSpace c = true

theorem mem_of_mem_unfoldLink {hit : Hit} (hread : Reading markdownLink hit.matched hit.groups)
    (hc : c ∈ unfoldLink hit) : c = ' ' ∨ c ∈ hit.matched := by
  have hgroup : ∀ i, c ∈ (hit.group? i).getD [] → c ∈ hit.matched := by
    intro i hmem
    unfold Hit.group? at hmem
    cases hfind : hit.groups.find? fun g => g.1 == i with
    | none =>
      rw [hfind] at hmem
      cases hmem
    | some g =>
      rw [hfind] at hmem
      exact mem_of_captured hread g (List.mem_of_find?_eq_some hfind) c hmem
  have htrimmed : ∀ i, c ∈ Js.trim ((hit.group? i).getD []) → c ∈ hit.matched := by
    intro i hmem
    obtain ⟨lead, tail, htext, -, -⟩ := trim_split ((hit.group? i).getD [])
    refine hgroup i ?_
    rw [htext]
    exact List.mem_append_right _ (List.mem_append_left _ hmem)
  have hjoined : ∀ {front : Text} (i : Nat), (c ∈ front → c = ' ' ∨ c ∈ hit.matched) →
      c ∈ front ++ ' ' :: Js.trim ((hit.group? i).getD []) → c = ' ' ∨ c ∈ hit.matched := by
    intro front i hfront hmem
    rcases List.mem_append.mp hmem with hmem | hmem
    · exact hfront hmem
    · exact (List.mem_cons.mp hmem).imp_right (htrimmed i)
  unfold unfoldLink at hc
  dsimp only at hc
  rcases List.mem_append.mp hc with hc | hc
  · exact Or.inr (hgroup 1 hc)
  · have htext := fun h => Or.inr (a := c = ' ') (htrimmed 2 h)
    split at hc
    · split at hc
      · exact htext hc
      · exact hjoined 3 htext hc
    · refine hjoined 4 (fun hlinked => ?_) hc
      split at hlinked
      · exact htext hlinked
      · exact hjoined 3 htext hlinked

theorem mem_of_mem_squeeze {accepts : Char → Bool} {d : Char} {inRun : Bool}
    (hc : c ∈ squeeze accepts d inRun text) : c = d ∨ c ∈ text := by
  induction text generalizing inRun with
  | nil => cases hc
  | cons e rest ih =>
    unfold squeeze at hc
    split at hc
    · split at hc
      · exact (ih hc).imp_right (List.mem_cons_of_mem e)
      · rcases List.mem_cons.mp hc with rfl | hc
        · exact Or.inl rfl
        · exact (ih hc).imp_right (List.mem_cons_of_mem e)
    · rcases List.mem_cons.mp hc with rfl | hc
      · exact Or.inr List.mem_cons_self
      · exact (ih hc).imp_right (List.mem_cons_of_mem e)

theorem clean_foldMarks (text : Text) : Clean (foldMarks text) := by
  intro c hc hspace
  obtain ⟨d, hd, rfl⟩ := List.mem_map.mp hc
  have hkept : deletable d = false := by simpa using List.of_mem_filter hd
  split at hspace
  · exact absurd hspace (by decide)
  · next hplain =>
    rw [if_neg hplain]
    exact isWhiteSpace_of_isSpace hspace hkept

theorem clean_foldProse (text : Text) : Clean (foldProse text) := by
  intro c hc hspace
  have hblank : isWhiteSpace ' ' = true := by decide
  rw [foldProse_eq] at hc
  rcases mem_of_mem_squeeze hc with rfl | hc
  · exact hblank
  · unfold replace at hc
    dsimp only at hc
    have hfolded : c ∈ foldMarks text → isWhiteSpace c = true :=
      fun hmem => clean_foldMarks text c hmem hspace
    rw [← scan_cut markdownLink (foldMarks text)] at hfolded
    rcases List.mem_append.mp hc with hc | hc
    · obtain ⟨hit, hhit, hc⟩ := List.mem_flatMap.mp hc
      rcases List.mem_append.mp hc with hc | hc
      · exact hfolded (List.mem_append_left _ (List.mem_flatMap.mpr
          ⟨hit, hhit, List.mem_append_left _ hc⟩))
      · rcases mem_of_mem_unfoldLink (scan_reading _ _ hit hhit) hc with rfl | hc
        · exact hblank
        · exact hfolded (List.mem_append_left _ (List.mem_flatMap.mpr
            ⟨hit, hhit, List.mem_append_right _ hc⟩))
    · exact hfolded (List.mem_append_right _ hc)

end Clean

/-! ## The folded text -/

section Folded

variable {text : Text}

/-- The normal form before its margins are trimmed. -/
def folded (text : Text) : Text := (splitKeeping codeSpan text).flatMap foldSegment

/-- What the code spans and the prose before each of them fold to. -/
def foldedHits (hits : List Hit) : Text :=
  hits.flatMap fun hit => foldProse hit.skipped ++ hit.matched

theorem foldedHits_nil : foldedHits [] = [] := rfl

theorem folded_eq (text : Text) :
    folded text = foldedHits (scan codeSpan text).1 ++ foldProse (scan codeSpan text).2 := by
  unfold folded splitKeeping foldedHits
  simp only [List.flatMap_append, List.flatMap_assoc, List.flatMap_cons, List.flatMap_nil,
    List.append_nil]
  rfl

theorem codeSpan_progress : Progress codeSpan := by
  have hmark : ∀ rest, Progress (.seq (.one (· == '`')) rest) := fun _ => progress_seq progress_one
  exact progress_alt (progress_seq (hmark _)) (progress_alt (progress_seq (hmark _))
    (progress_seq (hmark _)))

theorem codeSpan_margins {hit : Hit} (h : hit ∈ (scan codeSpan text).1) :
    hit.matched.head? = some '`' ∧ hit.matched.getLast? = some '`' := by
  have hlanguage := (scan_matched codeSpan text hit h).1
  have hone : ∀ marks : String, ∀ inner, hit.matched = marks.toList ++ (inner ++ marks.toList) →
      marks.toList.head? = some '`' → marks.toList.getLast? = some '`' →
        hit.matched.head? = some '`' ∧ hit.matched.getLast? = some '`' := by
    intro marks inner hmatched hfirst hlast
    rw [hmatched, List.head?_append, hfirst, ← List.append_assoc, List.getLast?_append, hlast]
    exact ⟨rfl, rfl⟩
  rcases hlanguage with h | h | h
  · obtain ⟨first, _, htext, hfirst, inner, _, rfl, -, last, _, rfl, hlast, rfl⟩ := h
    rw [language_lit.mp hfirst, language_lit.mp hlast, List.append_nil] at htext
    exact hone "```" inner htext rfl rfl
  · obtain ⟨first, _, htext, hfirst, inner, _, rfl, -, last, _, rfl, hlast, rfl⟩ := h
    rw [language_lit.mp hfirst, language_lit.mp hlast, List.append_nil] at htext
    exact hone "``" inner htext rfl rfl
  · obtain ⟨first, _, htext, hfirst, inner, _, rfl, -, last, _, rfl, hlast, rfl⟩ := h
    rw [language_lit.mp hfirst, language_lit.mp hlast, List.append_nil] at htext
    exact hone "`" inner htext rfl rfl

theorem within_clean {front back lead rest : Text} {c : Char} (hclean : Clean front)
    (hc : Js.isSpace c = false) (hlead : ∀ c ∈ lead, Js.isSpace c = true)
    (h : front ++ c :: back = lead ++ rest) : ∀ c ∈ lead, isWhiteSpace c = true := by
  rcases List.append_eq_append_iff.mp h with ⟨more, hlong, hback⟩ | ⟨more, hlong, -⟩
  · cases more with
    | nil =>
      rw [List.append_nil] at hlong
      intro d hd
      exact hclean d (hlong ▸ hd) (hlead d hd)
    | cons e more =>
      rw [List.cons_append, List.cons.injEq] at hback
      have hspace := hlead e (hlong ▸ List.mem_append_right _ List.mem_cons_self)
      rw [← hback.1, hc] at hspace
      cases hspace
  · intro d hd
    exact hclean d (hlong ▸ List.mem_append_left _ hd) (hlead d hd)

theorem margin_spaced {lead tail rest : Text} (hlead : ∀ c ∈ lead, Js.isSpace c = true)
    (htail : ∀ c ∈ tail, Js.isSpace c = true) (h : folded text = lead ++ (rest ++ tail)) :
    (∀ c ∈ lead, isWhiteSpace c = true) ∧ ∀ c ∈ tail, isWhiteSpace c = true := by
  rw [folded_eq] at h
  refine ⟨?_, ?_⟩
  · cases hscan : (scan codeSpan text).1 with
    | nil =>
      rw [hscan] at h
      intro c hc
      refine clean_foldProse (scan codeSpan text).2 c ?_ (hlead c hc)
      have hmem : c ∈ lead ++ (rest ++ tail) := List.mem_append_left _ hc
      rwa [← h, foldedHits_nil, List.nil_append] at hmem
    | cons hit hits =>
      have hmark := (codeSpan_margins (hscan ▸ List.mem_cons_self)).1
      obtain ⟨inner, hmatched⟩ : ∃ inner, hit.matched = '`' :: inner :=
        List.head?_eq_some_iff.mp hmark
      rw [hscan] at h
      have hsplit : foldProse hit.skipped ++ '`' :: (inner ++ foldedHits hits ++
          foldProse (scan codeSpan text).2) = lead ++ (rest ++ tail) := by
        rw [← h]
        simp [foldedHits, hmatched]
      exact within_clean (clean_foldProse hit.skipped) (by decide) hlead hsplit
  · rcases List.eq_nil_or_concat (scan codeSpan text).1 with hscan | ⟨hits, hit, hscan⟩
    · rw [hscan] at h
      intro c hc
      refine clean_foldProse (scan codeSpan text).2 c ?_ (htail c hc)
      have hmem : c ∈ lead ++ (rest ++ tail) :=
        List.mem_append_right _ (List.mem_append_right _ hc)
      rwa [← h, foldedHits_nil, List.nil_append] at hmem
    · have hmem : hit ∈ (scan codeSpan text).1 := by
        rw [hscan, List.concat_eq_append]
        exact List.mem_append_right _ List.mem_cons_self
      obtain ⟨inner, hmatched⟩ : ∃ inner, hit.matched = inner ++ ['`'] :=
        List.getLast?_eq_some_iff.mp (codeSpan_margins hmem).2
      rw [hscan] at h
      -- the same from the other end
      have hsplit : (foldProse (scan codeSpan text).2).reverse ++ '`' ::
          (foldedHits hits ++ (foldProse hit.skipped ++ inner)).reverse =
            tail.reverse ++ (lead ++ rest).reverse := by
        rw [← List.reverse_append, List.append_assoc, ← h]
        simp [foldedHits, hmatched]
      have hclean : Clean (foldProse (scan codeSpan text).2).reverse := fun c hc =>
        clean_foldProse (scan codeSpan text).2 c (List.mem_reverse.mp hc)
      intro c hc
      exact within_clean hclean (by decide) (fun c hc => htail c (List.mem_reverse.mp hc)) hsplit c
        (List.mem_reverse.mpr hc)

variable [Unicode]

theorem marks_trim (hwords : WordsUnspaced) (text : Text) :
    marks (Js.trim (folded text)) = marks (folded text) := by
  obtain ⟨lead, tail, htext, hlead, htail⟩ := trim_split (folded text)
  obtain ⟨hlead, htail⟩ := margin_spaced hlead htail htext
  calc marks (Js.trim (folded text))
      = marks (Js.trim (folded text) ++ tail) := (marks_append hwords htail).symm
    _ = marks (lead ++ (Js.trim (folded text) ++ tail)) := (marks_prepend hwords hlead).symm
    _ = marks (folded text) := by rw [← htext]

theorem significant_folded (hwords : WordsUnspaced) (text : Text) :
    significant text = marks (folded text) := marks_trim hwords text

end Folded

/-! ## Squeezing around a run -/

section Runs

variable {accepts : Char → Bool} {d e : Char} {space rest : Text} {inRun : Bool}

theorem squeeze_of_accepts (he : accepts e = true) :
    squeeze accepts d inRun (e :: rest) =
      if inRun then squeeze accepts d true rest else d :: squeeze accepts d true rest := by
  conv => lhs; unfold squeeze
  rw [if_pos he]

theorem squeeze_of_not_accepts (he : ¬ accepts e = true) :
    squeeze accepts d inRun (e :: rest) = e :: squeeze accepts d false rest := by
  conv => lhs; unfold squeeze
  rw [if_neg he]

/-- Behind a run of the class the squeezed text goes on as from within a run. -/
theorem squeeze_cut (hspace : ∀ c ∈ space, accepts c = true) (hne : space ≠ []) (inRun : Bool)
    (front back : Text) :
    squeeze accepts d inRun (front ++ (space ++ back)) =
      squeeze accepts d inRun (front ++ space) ++ squeeze accepts d true back := by
  induction front generalizing inRun with
  | nil =>
    rw [List.nil_append, List.nil_append]
    induction space generalizing inRun with
    | nil => exact absurd rfl hne
    | cons e rest ih =>
      have he := hspace e List.mem_cons_self
      have hgoes : squeeze accepts d true (rest ++ back) =
          squeeze accepts d true rest ++ squeeze accepts d true back := by
        by_cases hempty : rest = []
        · rw [hempty]
          rfl
        · exact ih (fun c hc => hspace c (List.mem_cons_of_mem e hc)) hempty true
      rw [List.cons_append, squeeze_of_accepts he, squeeze_of_accepts he, hgoes]
      cases inRun with
      | true => rfl
      | false => rfl
  | cons e rest ih =>
    rw [List.cons_append, List.cons_append]
    by_cases he : accepts e = true
    · rw [squeeze_of_accepts he, squeeze_of_accepts he, ih true]
      cases inRun with
      | true => rfl
      | false => rfl
    · rw [squeeze_of_not_accepts he, squeeze_of_not_accepts he, ih false, List.cons_append]

/-- What a text that ends in the class leaves at its end. -/
theorem getLast_squeeze (hspace : ∀ c ∈ space, accepts c = true) (hne : space ≠ [])
    (front : Text) : (squeeze accepts d false (front ++ space)).getLast? = some d := by
  have hend : ∀ inRun, (squeeze accepts d inRun (front ++ space) = [] ∧ inRun = true) ∨
      (squeeze accepts d inRun (front ++ space)).getLast? = some d := by
    intro inRun
    induction front generalizing inRun with
    | nil =>
      rw [List.nil_append]
      obtain ⟨e, rest, rfl⟩ := List.exists_cons_of_ne_nil hne
      have htail : squeeze accepts d true rest = [] := by
        rw [squeeze_true, List.dropWhile_eq_nil_iff.mpr fun c hc =>
          hspace c (List.mem_cons_of_mem e hc)]
        rfl
      rw [squeeze_of_accepts (hspace e List.mem_cons_self), htail]
      cases inRun with
      | true => exact Or.inl ⟨rfl, rfl⟩
      | false => exact Or.inr rfl
    | cons e rest ih =>
      rw [List.cons_append]
      by_cases he : accepts e = true
      · rw [squeeze_of_accepts he]
        cases inRun with
        | true => exact ih true
        | false =>
          refine Or.inr ?_
          rcases ih true with ⟨hnone, -⟩ | hlast
          · simp [hnone]
          · simp [List.getLast?_cons, hlast]
      · rw [squeeze_of_not_accepts he]
        refine Or.inr ?_
        rcases ih false with ⟨-, hrun⟩ | hlast
        · cases hrun
        · simp [List.getLast?_cons, hlast]
  rcases hend false with ⟨-, hrun⟩ | hlast
  · cases hrun
  · exact hlast

end Runs

/-! ## Cuts -/

section Cuts

variable {text front space back : Text}

def terminator (c : Char) : Bool := ".!?…。？！".toList.contains c

/-- A text has a place where sentences are parted: a line break, or white space behind the end of a
sentence. -/
def holdsBreak : Text → Bool
  | [] => false
  | [c] => lineBreak c
  | c :: d :: rest => lineBreak c || (terminator c && isWhiteSpace d) || holdsBreak (d :: rest)

example : holdsBreak "Yes. No".toList = true := by decide +kernel

/-- No code span and no link of a text has such a place in it. -/
def unbroken (text : Text) : Bool :=
  (splitKeeping codeSpan text).all fun (isCode, segment) =>
    if isCode then !holdsBreak segment
    else (matchAll markdownLink (foldMarks segment)).all fun link => !holdsBreak link

theorem holdsBreak_append_right (h : holdsBreak back = true) : holdsBreak (front ++ back) = true := by
  induction front with
  | nil => exact h
  | cons c rest ih =>
    rw [List.cons_append]
    cases hrest : rest ++ back with
    | nil =>
      rw [(List.append_eq_nil_iff.mp hrest).2] at h
      cases h
    | cons d more =>
      rw [hrest] at ih
      unfold holdsBreak
      rw [ih, Bool.or_true]

/-- Whether the text goes on after `front` behind a place where sentences are parted. -/
def Parts (front space : Text) : Prop :=
  space.head?.any lineBreak = true ∨
    (front.getLast?.any terminator = true ∧ space.head?.any isWhiteSpace = true)

theorem holdsBreak_of_parts {u v : Text} (hparts : Parts u v) : holdsBreak (u ++ v) = true := by
  cases v with
  | nil =>
    rcases hparts with hbreak | ⟨-, hspace⟩
    · cases hbreak
    · cases hspace
  | cons d rest =>
    rcases hparts with hbreak | ⟨hend, hspace⟩
    · refine holdsBreak_append_right ?_
      have hd : lineBreak d = true := hbreak
      cases rest with
      | nil => exact hd
      | cons e more =>
        unfold holdsBreak
        rw [hd]
        rfl
    · rcases List.eq_nil_or_concat u with rfl | ⟨start, last, rfl⟩
      · cases hend
      · have hlast : terminator last = true := by simpa using hend
        have hd : isWhiteSpace d = true := hspace
        rw [List.concat_eq_append, List.append_assoc]
        refine holdsBreak_append_right ?_
        rw [List.singleton_append]
        unfold holdsBreak
        rw [hlast, hd]
        simp

theorem Parts.suffix {u v rest : Text} (h : Parts front rest) (hu : u ≠ []) (hv : v ≠ [])
    (hsuffix : u <:+ front) (hbegins : v <+: rest) : Parts u v := by
  obtain ⟨before, rfl⟩ := hsuffix
  obtain ⟨after, rfl⟩ := hbegins
  have hlast : (before ++ u).getLast? = u.getLast? := List.getLast?_append_of_ne_nil _ hu
  have hhead : (v ++ after).head? = v.head? := List.head?_append_of_ne_nil _ hv
  unfold Parts at *
  rwa [hlast, hhead] at h

theorem apart_of_parts {hits : List Hit} {rest : Text}
    (hfree : ∀ hit ∈ hits, holdsBreak hit.matched = false) (hparts : front ≠ [] → Parts front rest) :
    Apart hits front rest := by
  intro hit hhit u v hmatched hu hv hsuffix hbegins
  have hfront : front ≠ [] := by
    rintro rfl
    exact hu (List.suffix_nil.mp hsuffix)
  have hbreak := holdsBreak_of_parts ((hparts hfront).suffix hu hv hsuffix hbegins)
  rw [← hmatched, hfree hit hhit] at hbreak
  cases hbreak

def LinksWhole (prose : Text) : Prop :=
  ∀ hit ∈ (scan markdownLink (foldMarks prose)).1, holdsBreak hit.matched = false

theorem unbroken_iff : unbroken text = true ↔
    (∀ hit ∈ (scan codeSpan text).1, LinksWhole hit.skipped ∧ holdsBreak hit.matched = false) ∧
      LinksWhole (scan codeSpan text).2 := by
  unfold unbroken splitKeeping LinksWhole matchAll
  simp [List.all_flatMap]

/-- A text cut outside its code spans: the spans before the cut and those behind it stay what they are,
and the prose around the cut is cut with it. -/
theorem folded_cut (hspace : ∀ c ∈ space, isWhiteSpace c = true) (hne : space ≠ [])
    (hparts : front ≠ [] → Parts front space)
    (h : unbroken (front ++ (space ++ back)) = true) :
    ∃ before prose prose' after, folded front = before ++ foldProse prose ∧
      folded back = foldProse prose' ++ after ∧
      folded (front ++ (space ++ back)) =
        before ++ (foldProse (prose ++ (space ++ prose')) ++ after) ∧
      (prose ≠ [] → Parts prose space) ∧ LinksWhole (prose ++ (space ++ prose')) ∧
      (LinksWhole prose' → unbroken back = true) := by
  obtain ⟨hhits, hlast⟩ := unbroken_iff.mp h
  have hstarts : Starts (fun c => c ∉ space) codeSpan := by
    refine codeSpan_starts.mono ?_
    rintro c rfl hmem
    exact absurd (hspace _ hmem) (by decide)
  have hapart : Apart (scan codeSpan (front ++ (space ++ back))).1 front (space ++ back) := by
    refine apart_of_parts (fun hit hhit => (hhits hit hhit).2) fun hfront => ?_
    have hhead : (space ++ back).head? = space.head? := List.head?_append_of_ne_nil _ hne
    have hcut := hparts hfront
    unfold Parts at *
    rwa [hhead]
  have hscan := scan_cut_at codeSpan_plain codeSpan_progress hapart
  rw [scan_prepend codeSpan_plain hstarts] at hscan
  have hprose : (scan codeSpan front).2 ≠ [] → Parts (scan codeSpan front).2 space := by
    intro hprose
    have hsuffix : (scan codeSpan front).2 <:+ front := ⟨_, scan_cut codeSpan front⟩
    have hfront : front ≠ [] := by
      rintro rfl
      exact hprose (List.suffix_nil.mp hsuffix)
    exact (hparts hfront).suffix hprose hne hsuffix (List.prefix_refl space)
  cases hback : scan codeSpan back with
  | mk hits rest =>
    cases hits with
    | nil =>
      rw [hback] at hscan
      refine ⟨foldedHits (scan codeSpan front).1, (scan codeSpan front).2, rest, [], folded_eq front,
        ?_, ?_, hprose, ?_, ?_⟩
      · rw [folded_eq, hback]
        simp [foldedHits]
      · rw [folded_eq, hscan]
        simp [followedBy, skipping]
      · rw [hscan] at hlast
        exact hlast
      · intro hwhole
        rw [unbroken_iff, hback]
        exact ⟨fun hit hhit => (by cases hhit), hwhole⟩
    | cons hit hits =>
      rw [hback] at hscan
      refine ⟨foldedHits (scan codeSpan front).1, (scan codeSpan front).2, hit.skipped,
        hit.matched ++ (foldedHits hits ++ foldProse rest), folded_eq front, ?_, ?_, hprose, ?_, ?_⟩
      · rw [folded_eq, hback]
        simp [foldedHits]
      · rw [folded_eq, hscan]
        simp [followedBy, skipping, foldedHits]
      · rw [hscan] at hhits
        exact (hhits _ (List.mem_append_right _ List.mem_cons_self)).1
      · intro hwhole
        rw [hscan] at hhits hlast
        rw [unbroken_iff, hback]
        refine ⟨List.forall_mem_cons.mpr ⟨⟨hwhole, ?_⟩, fun other hother => ?_⟩, hlast⟩
        · exact (hhits _ (List.mem_append_right _ List.mem_cons_self)).2
        · exact hhits other (List.mem_append_right _ (List.mem_cons_of_mem _ hother))

theorem markdownLink_progress : Progress markdownLink := by
  intro p q hq
  obtain ⟨text, groups, hread, hafter, -, -⟩ := results_via markdownLink p q hq
  obtain ⟨bang, label, lead, target, middle, tail, captions, rfl, -⟩ := link_reading hread
  rw [hafter]
  simp
  omega

theorem foldMarks_of_unchanged {c : Char} (h : isWhiteSpace c = true ∨ terminator c = true) :
    foldMarks [c] = [c] := by
  rcases h with hspace | hend
  · have hkept : deletable c = false := by
      unfold isWhiteSpace at hspace
      unfold deletable
      simp only [Bool.or_eq_true, Bool.and_eq_true, decide_eq_true_eq, beq_iff_eq,
        List.contains_eq_mem, List.mem_cons, List.not_mem_nil, or_false, decide_eq_false_iff_not,
        not_or] at hspace ⊢
      omega
    have hplain : (c == '’' || c == 'ʼ') = false := by
      by_contra hmark
      rw [Bool.not_eq_false, Bool.or_eq_true, beq_iff_eq, beq_iff_eq] at hmark
      rcases hmark with rfl | rfl
      · exact absurd hspace (by decide)
      · exact absurd hspace (by decide)
    unfold foldMarks
    rw [List.filter_cons_of_pos (by rw [hkept]; rfl), List.filter_nil, List.map_singleton, hplain]
    rfl
  · have hall : ∀ d ∈ ".!?…。？！".toList, foldMarks [d] = [d] := by decide
    exact hall c (List.contains_iff_mem.mp hend)

theorem foldMarks_space_eq (hspace : ∀ c ∈ space, isWhiteSpace c = true) :
    foldMarks space = space := by
  induction space with
  | nil => rfl
  | cons c rest ih =>
    have hc := foldMarks_of_unchanged (Or.inl (hspace c List.mem_cons_self))
    have hrest := ih fun d hd => hspace d (List.mem_cons_of_mem c hd)
    calc foldMarks (c :: rest) = foldMarks [c] ++ foldMarks rest := foldMarks_append [c] rest
      _ = c :: rest := by rw [hc, hrest]; rfl

theorem Parts.foldMarks (h : Parts front space) : Parts (foldMarks front) space := by
  rcases h with hbreak | ⟨hend, hspace⟩
  · exact Or.inl hbreak
  · refine Or.inr ⟨?_, hspace⟩
    rcases List.eq_nil_or_concat front with rfl | ⟨start, last, rfl⟩
    · cases hend
    · have hlast : terminator last = true := by simpa using hend
      rw [List.concat_eq_append, foldMarks_append, foldMarks_of_unchanged (Or.inr hlast)]
      simpa using hlast

/-- Prose cut at a place where sentences are parted, when no link has such a place in it. -/
theorem foldProse_cut {prose prose' : Text} (hspace : ∀ c ∈ space, isWhiteSpace c = true)
    (hne : space ≠ []) (hparts : prose ≠ [] → Parts prose space)
    (hwhole : LinksWhole (prose ++ (space ++ prose'))) :
    LinksWhole prose' ∧ ∃ front back, foldProse (prose ++ (space ++ prose')) = front ++ back ∧
      front.getLast? = some ' ' ∧ (front = foldProse prose ∨ front = foldProse prose ++ [' ']) ∧
      (foldProse prose' = back ∨ foldProse prose' = ' ' :: back) := by
  have hmarks : foldMarks (prose ++ (space ++ prose')) =
      foldMarks prose ++ (space ++ foldMarks prose') := by
    rw [foldMarks_append, foldMarks_append, foldMarks_space_eq hspace]
  have hstarts : Starts (fun c => c ∉ space) markdownLink := by
    refine markdownLink_starts.mono ?_
    rintro c (rfl | rfl) hmem
    · exact absurd (hspace _ hmem) (by decide)
    · exact absurd (hspace _ hmem) (by decide)
  unfold LinksWhole at hwhole
  rw [hmarks] at hwhole
  have hapart : Apart (scan markdownLink (foldMarks prose ++ (space ++ foldMarks prose'))).1
      (foldMarks prose) (space ++ foldMarks prose') := by
    refine apart_of_parts hwhole fun hfront => ?_
    have hprose : prose ≠ [] := by
      rintro rfl
      exact hfront rfl
    have hhead : (space ++ foldMarks prose').head? = space.head? :=
      List.head?_append_of_ne_nil _ hne
    have hcut := (hparts hprose).foldMarks
    unfold Parts at *
    rwa [hhead]
  refine ⟨?_, ?_⟩
  · have hlist : ∀ link ∈ (scan markdownLink (foldMarks prose ++
        (space ++ foldMarks prose'))).1.map Hit.matched, holdsBreak link = false :=
      List.forall_mem_map.mpr hwhole
    rw [scan_cut_at markdownLink_plain markdownLink_progress hapart, matched_followedBy,
      scan_prepend markdownLink_plain hstarts, matched_skipping] at hlist
    intro hit hhit
    exact hlist hit.matched (List.mem_append_right _ (List.mem_map_of_mem hhit))
  · have hreplaced : replace markdownLink unfoldLink (foldMarks prose ++
        (space ++ foldMarks prose')) = replace markdownLink unfoldLink (foldMarks prose) ++
          (space ++ replace markdownLink unfoldLink (foldMarks prose')) := by
      rw [replace_cut markdownLink_plain markdownLink_progress (fun _ _ => rfl) hapart,
        replace_prepend markdownLink_plain hstarts fun _ _ => rfl]
    refine ⟨squeeze isWhiteSpace ' ' false (replace markdownLink unfoldLink (foldMarks prose) ++ space),
      squeeze isWhiteSpace ' ' true (replace markdownLink unfoldLink (foldMarks prose')), ?_, ?_, ?_, ?_⟩
    · rw [foldProse_eq, hmarks, hreplaced]
      exact squeeze_cut hspace hne false _ _
    · exact getLast_squeeze hspace hne _
    · rw [foldProse_eq]
      exact squeeze_append hspace false _
    · rw [foldProse_eq]
      exact squeeze_false _

variable [Unicode]

/-- A text cut at a place where sentences are parted has the marks of its pieces, when no code span
and no link has such a place in it. -/
theorem significant_cut (hwords : WordsUnspaced) (hspace : ∀ c ∈ space, isWhiteSpace c = true)
    (hne : space ≠ []) (hparts : front ≠ [] → Parts front space)
    (h : unbroken (front ++ (space ++ back)) = true) :
    significant (front ++ (space ++ back)) = significant front ++ significant back ∧
      unbroken back = true := by
  obtain ⟨before, prose, prose', after, hfront, hback, hwhole, hprose, hlinks, hrest⟩ :=
    folded_cut hspace hne hparts h
  obtain ⟨hlinks', first, second, hcut, hblank, hfirst, hsecond⟩ :=
    foldProse_cut hspace hne hprose hlinks
  have hone : ∀ c ∈ [' '], isWhiteSpace c = true := by decide
  have hfront' : marks (before ++ first) = marks (before ++ foldProse prose) := by
    rcases hfirst with rfl | rfl
    · rfl
    · rw [← List.append_assoc, marks_append hwords hone]
  have hback' : marks (foldProse prose' ++ after) = marks (second ++ after) := by
    rcases hsecond with hsame | hmore
    · rw [hsame]
    · rw [hmore]
      exact marks_prepend hwords hone
  have hsplit : (before ++ first).getLast?.any isWhiteSpace = true := by
    have hspaced : isWhiteSpace ' ' = true := by decide
    rw [List.getLast?_append, hblank]
    exact hspaced
  refine ⟨?_, hrest hlinks'⟩
  rw [significant_folded hwords, significant_folded hwords, significant_folded hwords, hwhole, hcut,
    hfront, hback, hback', ← hfront', ← marks_cut hwords (Or.inl hsplit)]
  simp only [List.append_assoc]

end Cuts

end Core
