import Mathlib.Data.List.Infix
import AtriumVerified.Core.Escalation
import AtriumVerified.Core.Proofs.CutProofs

/-!
# Proofs: a quote that is a whole body, sentence by sentence

A quote covers a body when the two have the same marks, and spans whole sentences of it when it has the
marks of some sentences in a row. The sentences of a body have its marks, one after the other, when no
code span and no link of it is parted; a parted one folds to other marks than the whole.
-/

namespace Core

open Regex Unicode

/-! ## The places where sentences are parted -/

section Breaks

variable {p q : Position}

theorem sentenceBreak_progress : Progress sentenceBreak :=
  progress_alt (progress_seq_right (progress_rep progress_one)) (progress_rep progress_one)

theorem isWhiteSpace_of_lineBreak {c : Char} (h : lineBreak c = true) : isWhiteSpace c = true := by
  unfold lineBreak at h
  unfold isWhiteSpace
  simp only [Bool.or_eq_true, Bool.and_eq_true, decide_eq_true_eq, beq_iff_eq, List.contains_eq_mem,
    List.mem_cons, List.not_mem_nil, or_false] at h ⊢
  omega

/-- What parts two sentences is white space, and begins with a line break or stands behind the end of
a sentence. -/
theorem mem_results_sentenceBreak (h : q ∈ results sentenceBreak p) :
    ∃ space, space ≠ [] ∧ (∀ c ∈ space, isWhiteSpace c = true) ∧ p.after = space ++ q.after ∧
      q.before = space.reverse ++ p.before ∧
      (space.head?.any lineBreak = true ∨
        (p.before.head?.any terminator = true ∧ space.head?.any isWhiteSpace = true)) := by
  have hrun : ∀ {accepts : Char → Bool} {middle : Position}, q ∈ results (many1 (.one accepts)) middle →
      ∃ space, space ≠ [] ∧ (∀ c ∈ space, accepts c = true) ∧ middle.after = space ++ q.after ∧
        q.before = space.reverse ++ middle.before ∧ space.head?.any accepts = true := by
    intro accepts middle hq
    obtain ⟨space, groups, hread, hafter, hbefore, -⟩ := results_via _ middle q hq
    obtain ⟨hlength, hall⟩ := language_rep_one.mp (language_of_reading hread).1
    have hne : space ≠ [] := List.length_pos_iff.mp hlength
    refine ⟨space, hne, hall, hafter, hbefore, ?_⟩
    obtain ⟨c, rest, rfl⟩ := List.exists_cons_of_ne_nil hne
    exact hall c List.mem_cons_self
  rcases List.mem_append.mp h with h | h
  · obtain ⟨middle, hmiddle, hq⟩ := List.mem_flatMap.mp h
    unfold results at hmiddle
    split at hmiddle
    · next hend =>
      cases List.mem_singleton.mp hmiddle
      obtain ⟨space, hne, hall, hafter, hbefore, hhead⟩ := hrun hq
      exact ⟨space, hne, hall, hafter, hbefore, Or.inr ⟨hend, hhead⟩⟩
    · cases hmiddle
  · obtain ⟨space, hne, hall, hafter, hbefore, hhead⟩ := hrun h
    exact ⟨space, hne, fun c hc => isWhiteSpace_of_lineBreak (hall c hc), hafter, hbefore,
      Or.inl hhead⟩

variable [Unicode]

/-- The pieces between such places have the marks of the text, one after the other. -/
theorem significant_pieces (hwords : WordsUnspaced) :
    ∀ (fuel : Nat) (before text : Text), text.length < fuel → unbroken text = true →
      ((scanFrom sentenceBreak fuel before text).1.map Hit.skipped ++
        [(scanFrom sentenceBreak fuel before text).2]).flatMap significant = significant text
  | 0, before, text, hfuel, _ => by omega
  | fuel + 1, before, text, hfuel, hunbroken => by
    cases hsearch : search sentenceBreak before text with
    | none =>
      rw [scanFrom_of_none hsearch]
      simp
    | some found =>
      obtain ⟨first, last⟩ := found
      obtain ⟨⟨skipped, hskipped, hfirst⟩, hlast⟩ := search_some hsearch
      obtain ⟨space, hne, hspace, hafter, hbefore, hbreak⟩ := mem_results_sentenceBreak hlast
      have htext : text = skipped ++ (space ++ last.after) := by rw [← hafter]; exact hfirst
      have hparts : skipped ≠ [] → Parts skipped space := by
        intro hskip
        have hhead : first.before.head? = skipped.getLast? := by
          rw [hskipped, List.head?_append_of_ne_nil _ (by simpa using hskip), List.head?_reverse]
        rw [hhead] at hbreak
        exact hbreak
      rw [htext] at hunbroken
      obtain ⟨hcut, hrest⟩ := significant_cut hwords hspace hne hparts hunbroken
      have hshort : last.after.length < fuel := by
        have hlength := List.length_pos_iff.mpr hne
        rw [htext, List.length_append, List.length_append] at hfuel
        omega
      rw [scanFrom_of_some fuel hsearch sentenceBreak_progress hskipped hbefore]
      dsimp only
      rw [List.map_cons, List.cons_append, List.flatMap_cons,
        significant_pieces hwords fuel last.before last.after hshort hrest, htext, hcut]

theorem significant_trim (text : Text) : significant (Js.trim text) = significant text := by
  rw [significant_eq, significant_eq, normalizeForReceipt_trim]

theorem significant_nil : significant [] = [] := by
  have hempty : normalizeForReceipt [] = [] := by decide +kernel
  rw [significant_eq, hempty]
  rfl

theorem significant_sentences (hwords : WordsUnspaced) {body : Text} (h : unbroken body = true) :
    (sentencesOf body).flatMap significant = significant body := by
  have hkept : ∀ pieces : List Text,
      ((pieces.map Js.trim).filter fun sentence => !sentence.isEmpty).flatMap significant =
        pieces.flatMap significant := by
    intro pieces
    induction pieces with
    | nil => rfl
    | cons piece rest ih =>
      rw [List.map_cons, List.flatMap_cons, ← ih, ← significant_trim piece]
      cases htrim : Js.trim piece with
      | nil => rw [significant_nil]; rfl
      | cons c more => rfl
  unfold sentencesOf
  rw [hkept]
  exact significant_pieces hwords _ [] body (Nat.lt_succ_self _) h

end Breaks

/-! ## Runs of sentences -/

section Spans

variable {wanted run : List Text}

/-- The loop over the ends of a run finds the sentences whose marks make up what is wanted. -/
theorem spansFrom_flatten {taken : List (List Text)} (hne : taken ≠ [])
    (hwanted : run ++ taken.flatten = wanted) : spansFrom wanted run taken = true := by
  induction taken generalizing run with
  | nil => exact absurd rfl hne
  | cons sentence rest ih =>
    unfold spansFrom
    dsimp only
    rw [List.flatten_cons, ← List.append_assoc] at hwanted
    have hlength : wanted.length = (run ++ sentence).length + rest.flatten.length := by
      rw [← hwanted, List.length_append]
    have hshort : ¬ wanted.length < (run ++ sentence).length := by omega
    rw [if_neg hshort]
    cases rest with
    | nil =>
      rw [List.flatten_nil, List.append_nil] at hwanted
      rw [beq_iff_eq.mpr hwanted]
      rfl
    | cons next more => rw [ih (List.cons_ne_nil _ _) hwanted, Bool.or_true]

variable [Unicode] {quote body : Text} {policy : ReceiptPolicy}

theorem spans_of_sentences (hwanted : significant quote ≠ [])
    (hlimit : (sentencesOf body).length ≤ policy.maxScannedSentences)
    (hsame : (sentencesOf body).flatMap significant = significant quote) :
    quoteSpansWholeSentences quote body policy = true := by
  unfold quoteSpansWholeSentences
  dsimp only
  rw [if_neg (by simpa using hwanted), if_neg (by omega), List.any_eq_true]
  refine ⟨_, (List.mem_tails _ _).mpr List.suffix_rfl, spansFrom_flatten ?_ ?_⟩
  · intro hnone
    rw [List.map_eq_nil_iff.mp hnone] at hsame
    exact hwanted hsame.symm
  · rw [← List.flatMap_def]
    exact hsame

/-- A quote that covers a body of which no code span and no link is parted spans whole sentences of it:
all of them. -/
theorem whole_body_spans (hwords : WordsUnspaced) (hunbroken : unbroken body = true)
    (hcovers : quoteCoversOwnText quote body = true)
    (hlimit : (sentencesOf body).length ≤ policy.maxScannedSentences) :
    quoteSpansWholeSentences quote body policy = true := by
  unfold quoteCoversOwnText at hcovers
  dsimp only at hcovers
  rw [Bool.and_eq_true, beq_iff_eq] at hcovers
  obtain ⟨hwanted, hsame⟩ := hcovers
  refine spans_of_sentences (by simpa using hwanted) hlimit ?_
  rw [significant_sentences hwords hunbroken, hsame]

end Spans

theorem ascii_words_unspaced : @WordsUnspaced Unicode.ascii := by
  intro c hc
  -- the database of ASCII has no marks and no pictographs, so the two lists are the same
  have hlisted : (c.isAlpha || Js.isDigit c || false) = true := hc
  exact (lasting_iff.mp (ascii_agrees c hlisted)).2.1

theorem two_sentences_spanned :
    @quoteSpansWholeSentences Unicode.ascii "We ship. The rest waits.".toList
      "We ship.  The rest waits.".toList receiptPolicy = true := by
  let _ : Unicode := Unicode.ascii
  have hcovers : quoteCoversOwnText "We ship. The rest waits.".toList
      "We ship.  The rest waits.".toList = true := by decide +kernel
  have hunbroken : unbroken "We ship.  The rest waits.".toList = true := by decide +kernel
  exact whole_body_spans ascii_words_unspaced hunbroken hcovers (by decide +kernel)

def linkedBody : Text := "[We ship on Monday. The rest waits](http://x.y)".toList

/-- Quoted with all that was written, it is no run of its own sentences. -/
theorem linkedBody_called_fragment :
    ((lines linkedBody).all fun line => !test blockquoteLine line) = true ∧
      (sentencesOf linkedBody).length ≤ receiptPolicy.maxScannedSentences ∧
      @quoteCoversOwnText Unicode.ascii linkedBody linkedBody = true ∧
      @quoteSpansWholeSentences Unicode.ascii linkedBody linkedBody receiptPolicy = false := by
  refine ⟨?_, ?_, ?_, ?_⟩
  · decide +kernel
  · decide +kernel
  · decide +kernel
  · decide +kernel

end Core
