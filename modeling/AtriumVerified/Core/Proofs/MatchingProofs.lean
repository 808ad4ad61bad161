import AtriumVerified.Lib.RegexScan
import AtriumVerified.Core.Matching

/-!
# Normal forms and tokens

The normal form of a text forgets the spacing at its margins, so it does not matter whether a quote is
trimmed before it is normalized; and the tokens of a text are its normal form, cut up.
-/

namespace Core

open Regex Unicode

/-! ## Margins -/

section Margins

theorem trim_prepend {lead : Text} (hlead : ∀ c ∈ lead, Js.isSpace c = true) (text : Text) :
    Js.trim (lead ++ text) = Js.trim text := by
  unfold Js.trim
  rw [List.dropWhile_append_of_pos hlead]

theorem trim_append {tail : Text} (htail : ∀ c ∈ tail, Js.isSpace c = true) (text : Text) :
    Js.trim (text ++ tail) = Js.trim text := by
  unfold Js.trim
  rw [List.dropWhile_append]
  split
  · rename_i hempty
    have hnone : tail.dropWhile Js.isSpace = [] := List.dropWhile_eq_nil_iff.mpr htail
    rw [List.isEmpty_iff.mp hempty, hnone]
  · rw [List.reverse_append, List.dropWhile_append_of_pos]
    intro c hc
    exact htail c (List.mem_reverse.mp hc)

theorem trim_split (text : Text) : ∃ lead tail, text = lead ++ (Js.trim text ++ tail) ∧
    (∀ c ∈ lead, Js.isSpace c = true) ∧ ∀ c ∈ tail, Js.isSpace c = true := by
  refine ⟨text.takeWhile Js.isSpace,
    ((text.dropWhile Js.isSpace).reverse.takeWhile Js.isSpace).reverse, ?_, ?_, ?_⟩
  · unfold Js.trim
    rw [← List.reverse_append, List.takeWhile_append_dropWhile, List.reverse_reverse,
      List.takeWhile_append_dropWhile]
  · intro c hc
    exact List.mem_takeWhile_imp hc
  · intro c hc
    exact List.mem_takeWhile_imp (List.mem_reverse.mp hc)

end Margins

/-! ## The patterns of the fold -/

section Patterns

theorem codeSpan_plain : codeSpan.plain = true := by rfl

theorem codeSpan_starts : Starts (fun c => c = '`') codeSpan := by
  have hone : Starts (fun c => c = '`') (.one (· == '`')) := starts_one fun c hc => by simpa using hc
  exact starts_alt (starts_seq (starts_seq hone))
    (starts_alt (starts_seq (starts_seq hone)) (starts_seq (starts_seq hone)))

theorem codeSpan_ends : Ends (fun c => c = '`') codeSpan := by
  have hone : Ends (fun c => c = '`') (.seq (.one (· == '`')) .empty) :=
    ends_seq_empty (ends_one fun c hc => by simpa using hc)
  exact ends_alt (ends_seq (ends_seq (ends_seq_empty (ends_seq (ends_seq hone)))))
    (ends_alt (ends_seq (ends_seq (ends_seq_empty (ends_seq hone))))
      (ends_seq (ends_seq (ends_seq_empty hone))))

theorem markdownLink_plain : markdownLink.plain = true := by rfl

theorem markdownLink_starts : Starts (fun c => c = '!' ∨ c = '[') markdownLink := by
  have hbang : Starts (fun c => c = '!' ∨ c = '[') (.one (· == '!')) :=
    starts_one fun c hc => Or.inl (by simpa using hc)
  have hbracket : Starts (fun c => c = '!' ∨ c = '[') (.one (· == '[')) :=
    starts_one fun c hc => Or.inr (by simpa using hc)
  refine starts_seq_optional ?_ (starts_seq (starts_seq hbracket))
  intro p q hq
  obtain ⟨inner, hinner, rfl⟩ := List.mem_map.mp hq
  rcases mem_results_rep_zero hinner with rfl | ⟨middle, hmiddle⟩
  · exact Or.inl rfl
  · exact Or.inr (starts_seq hbang p middle hmiddle)

theorem markdownLink_ends : Ends (fun c => c = ')') markdownLink := by
  have hone : Ends (fun c => c = ')') (.seq (.one (· == ')')) .empty) :=
    ends_seq_empty (ends_one fun c hc => by simpa using hc)
  exact ends_seq (ends_seq (ends_seq (ends_seq (ends_seq (ends_seq (ends_seq (ends_seq (ends_seq_empty hone))))))))

end Patterns

/-! ## The normal form of a receipt -/

section NormalForm

theorem isWhiteSpace_of_isSpace {c : Char} (h : Js.isSpace c = true) (hkept : deletable c = false) :
    isWhiteSpace c = true := by
  unfold Js.isSpace at h
  unfold deletable at hkept
  unfold isWhiteSpace
  simp only [Bool.or_eq_true, Bool.and_eq_true, decide_eq_true_eq, beq_iff_eq, List.contains_eq_mem,
    List.mem_cons, List.not_mem_nil, or_false, decide_eq_false_iff_not, not_or] at h hkept ⊢
  omega

theorem foldMarks_append (text text' : Text) :
    foldMarks (text ++ text') = foldMarks text ++ foldMarks text' := by
  unfold foldMarks
  rw [List.filter_append, List.map_append]

theorem foldMarks_space {space : Text} (hspace : ∀ c ∈ space, Js.isSpace c = true) :
    ∀ c ∈ foldMarks space, Js.isSpace c = true ∧ isWhiteSpace c = true := by
  intro c hc
  obtain ⟨d, hd, rfl⟩ := List.mem_map.mp hc
  have hspace' := hspace d (List.mem_of_mem_filter hd)
  have hkept : deletable d = false := by simpa using List.of_mem_filter hd
  have hplain : (d == '’' || d == 'ʼ') = false := by
    by_contra hmark
    rw [Bool.not_eq_false, Bool.or_eq_true, beq_iff_eq, beq_iff_eq] at hmark
    rcases hmark with rfl | rfl
    · exact absurd hspace' (by decide)
    · exact absurd hspace' (by decide)
  rw [hplain, if_neg Bool.false_ne_true]
  exact ⟨hspace', isWhiteSpace_of_isSpace hspace' hkept⟩

variable {space : Text}

theorem not_mem_space (hspace : ∀ c ∈ space, Js.isSpace c = true) {c : Char}
    (hc : Js.isSpace c = false) : c ∉ space := by
  intro hmem
  rw [hspace c hmem] at hc
  cases hc

theorem codeSpan_starts_outside (hspace : ∀ c ∈ space, Js.isSpace c = true) :
    Starts (fun c => c ∉ space) codeSpan := by
  refine codeSpan_starts.mono ?_
  rintro c rfl
  exact not_mem_space hspace (by decide)

theorem codeSpan_ends_outside (hspace : ∀ c ∈ space, Js.isSpace c = true) :
    Ends (fun c => c ∉ space) codeSpan := by
  refine codeSpan_ends.mono ?_
  rintro c rfl
  exact not_mem_space hspace (by decide)

theorem markdownLink_starts_outside (hspace : ∀ c ∈ space, Js.isSpace c = true) :
    Starts (fun c => c ∉ space) markdownLink := by
  refine markdownLink_starts.mono ?_
  rintro c (rfl | rfl)
  · exact not_mem_space hspace (by decide)
  · exact not_mem_space hspace (by decide)

theorem markdownLink_ends_outside (hspace : ∀ c ∈ space, Js.isSpace c = true) :
    Ends (fun c => c ∉ space) markdownLink := by
  refine markdownLink_ends.mono ?_
  rintro c rfl
  exact not_mem_space hspace (by decide)

theorem trim_cons_space (text : Text) : Js.trim (' ' :: text) = Js.trim text := by
  have hspace : ∀ c ∈ [' '], Js.isSpace c = true := by decide
  exact trim_prepend hspace text

theorem trim_snoc_space (text : Text) : Js.trim (text ++ [' ']) = Js.trim text := by
  have hspace : ∀ c ∈ [' '], Js.isSpace c = true := by decide
  exact trim_append hspace text

theorem foldProse_eq (text : Text) :
    foldProse text =
      squeeze isWhiteSpace ' ' false (replace markdownLink unfoldLink (foldMarks text)) :=
  replace_many1_one _

theorem trim_foldProse_prepend (hspace : ∀ c ∈ space, Js.isSpace c = true) (text rest : Text) :
    Js.trim (foldProse (space ++ text) ++ rest) = Js.trim (foldProse text ++ rest) := by
  have hfolded := foldMarks_space hspace
  rw [foldProse_eq, foldProse_eq, foldMarks_append, replace_prepend markdownLink_plain
    (markdownLink_starts_outside fun c hc => (hfolded c hc).1) fun hit skipped => rfl]
  generalize replace markdownLink unfoldLink (foldMarks text) = folded
  rcases squeeze_prepend (fun c hc => (hfolded c hc).2) folded with hsame | hmore
  · rw [hsame]
  · have hstart : squeeze isWhiteSpace ' ' false folded = squeeze isWhiteSpace ' ' true folded ∨
        squeeze isWhiteSpace ' ' false folded = ' ' :: squeeze isWhiteSpace ' ' true folded :=
      squeeze_false folded
    rw [hmore]
    rcases hstart with hrun | hrun
    · rw [hrun, List.cons_append, trim_cons_space]
    · rw [hrun]

theorem trim_foldProse_append (hspace : ∀ c ∈ space, Js.isSpace c = true) (lead text : Text) :
    Js.trim (lead ++ foldProse (text ++ space)) = Js.trim (lead ++ foldProse text) := by
  have hfolded := foldMarks_space hspace
  have hspaces : ∀ c ∈ foldMarks space, Js.isSpace c = true := fun c hc => (hfolded c hc).1
  rw [foldProse_eq, foldProse_eq, foldMarks_append, replace_append markdownLink_plain
    (markdownLink_ends_outside hspaces) (markdownLink_starts_outside hspaces)]
  generalize replace markdownLink unfoldLink (foldMarks text) = folded
  rcases squeeze_append (fun c hc => (hfolded c hc).2) false folded with hsame | hmore
  · rw [hsame]
  · rw [hmore, ← List.append_assoc, trim_snoc_space]

def foldSegment (segment : Bool × Text) : Text :=
  if segment.1 then segment.2 else foldProse segment.2

theorem normalizeForReceipt_eq (text : Text) :
    normalizeForReceipt text = Js.trim ((splitKeeping codeSpan text).flatMap foldSegment) := rfl

theorem normalizeForReceipt_prepend (hspace : ∀ c ∈ space, Js.isSpace c = true) (text : Text) :
    normalizeForReceipt (space ++ text) = normalizeForReceipt text := by
  rw [normalizeForReceipt_eq, normalizeForReceipt_eq]
  unfold splitKeeping
  rw [scan_prepend codeSpan_plain (codeSpan_starts_outside hspace)]
  cases hscan : scan codeSpan text with
  | mk hits rest =>
    cases hits with
    | nil =>
      have hmargin := trim_foldProse_prepend hspace rest []
      simpa [skipping, foldSegment] using hmargin
    | cons hit hits =>
      simp only [skipping, List.flatMap_cons, List.cons_append, List.nil_append]
      exact trim_foldProse_prepend hspace hit.skipped _

theorem normalizeForReceipt_append (hspace : ∀ c ∈ space, Js.isSpace c = true) (text : Text) :
    normalizeForReceipt (text ++ space) = normalizeForReceipt text := by
  rw [normalizeForReceipt_eq, normalizeForReceipt_eq]
  unfold splitKeeping
  rw [scan_append codeSpan_plain (codeSpan_ends_outside hspace) (codeSpan_starts_outside hspace)]
  simp only [List.flatMap_append, List.flatMap_singleton]
  exact trim_foldProse_append hspace _ _

theorem normalizeForReceipt_trim (text : Text) :
    normalizeForReceipt (Js.trim text) = normalizeForReceipt text := by
  obtain ⟨lead, tail, htext, hlead, htail⟩ := trim_split text
  calc normalizeForReceipt (Js.trim text)
      = normalizeForReceipt (Js.trim text ++ tail) := (normalizeForReceipt_append htail _).symm
    _ = normalizeForReceipt (lead ++ (Js.trim text ++ tail)) :=
        (normalizeForReceipt_prepend hlead _).symm
    _ = normalizeForReceipt text := by rw [← htext]

end NormalForm

/-! ## Tokens -/

section Tokens

variable [Unicode]

theorem orderedTokens_flatten (text : Text) :
    (orderedTokens text).flatten = normalizeForReceipt text := by
  refine matchAll_flatten ?_ ?_ _
  · intro p hp
    cases hafter : p.after with
    | nil => exact absurd hafter hp
    | cons c rest =>
      have hone : results (.one fun _ => true) p = [⟨c :: p.before, rest, p.groups⟩] := by
        unfold results
        rw [hafter]
        rfl
      unfold results
      rw [hone]
      simp
  · exact progress_alt (progress_seq (progress_rep progress_one)) progress_one

end Tokens

end Core
