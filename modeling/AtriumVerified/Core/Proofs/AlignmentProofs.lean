import AtriumVerified.Core.Matching
import AtriumVerified.Lib.Interleaving

/-!
# The diagnosis of an alignment

What the loop of `alignTokens` puts aside on either side is what keeps the two sides from being equal:
without it, and without the spacing, they are the same tokens in the same order.
-/

namespace Core

def words (tokens : List Text) : List Text := tokens.filter fun token => !isWhitespaceToken token

/-- What a run of the loop adds to what was put aside before. -/
structure Aligned (quote statement : List Text) (before after : Leftovers) : Prop where
  common : ∃ kept inQuote inStatement, after.inQuote = before.inQuote ++ inQuote ∧
    after.inStatement = before.inStatement ++ inStatement ∧
    Interleaved kept inQuote (words quote) ∧ Interleaved kept inStatement (words statement)
  flagged : before.whitespaceDiffers = true → after.whitespaceDiffers = true
  nothing : quote = statement → after = before
  equal : after = before → before.whitespaceDiffers = false → quote = statement

section Leftovers

variable {left : Leftovers} {token : Text} {quote statement : List Text}

theorem words_cons_space (h : isWhitespaceToken token = true) (tokens : List Text) :
    words (token :: tokens) = words tokens := by
  rw [words, List.filter_cons, h]
  rfl

theorem words_cons_word (h : isWhitespaceToken token = false) (tokens : List Text) :
    words (token :: tokens) = token :: words tokens := by
  rw [words, List.filter_cons, h]
  rfl

theorem foldl_statement (statement : List Text) (left : Leftovers) :
    (statement.foldl Leftovers.statement left).inQuote = left.inQuote ∧
      (statement.foldl Leftovers.statement left).inStatement =
        left.inStatement ++ words statement ∧
      (left.whitespaceDiffers = true →
        (statement.foldl Leftovers.statement left).whitespaceDiffers = true) ∧
      (statement.foldl Leftovers.statement left = left → left.whitespaceDiffers = false →
        statement = []) := by
  induction statement generalizing left with
  | nil => simp [words]
  | cons token rest ih =>
    rw [List.foldl_cons]
    obtain ⟨hquote, hstatement, hflag, hsame⟩ := ih (left.statement token)
    cases hspace : isWhitespaceToken token with
    | true =>
      have hput : left.statement token = { left with whitespaceDiffers := true } := by
        rw [Leftovers.statement, hspace, if_pos rfl]
      rw [hput] at hquote hstatement hflag ⊢
      refine ⟨hquote, ?_, fun _ => hflag rfl, fun heq hclear => ?_⟩
      · rw [words_cons_space hspace]
        exact hstatement
      · have hset := hflag rfl
        rw [heq, hclear] at hset
        cases hset
    | false =>
      have hput : left.statement token =
          { left with inStatement := left.inStatement ++ [token] } := by
        rw [Leftovers.statement, hspace, if_neg Bool.false_ne_true]
      rw [hput] at hquote hstatement hflag ⊢
      refine ⟨hquote, ?_, hflag, fun heq _ => ?_⟩
      · rw [words_cons_word hspace, hstatement, List.append_assoc]
        rfl
      · rw [heq] at hstatement
        have hlength := congrArg List.length hstatement
        simp at hlength

def Leftovers.swap (left : Leftovers) : Leftovers :=
  ⟨left.inStatement, left.inQuote, left.whitespaceDiffers⟩

theorem swap_quote (left : Leftovers) (token : Text) :
    (left.quote token).swap = left.swap.statement token := by
  unfold Leftovers.quote Leftovers.statement
  split <;> rfl

theorem swap_foldl_quote (quote : List Text) (left : Leftovers) :
    (quote.foldl Leftovers.quote left).swap = quote.foldl Leftovers.statement left.swap := by
  induction quote generalizing left with
  | nil => rfl
  | cons token rest ih => rw [List.foldl_cons, ih, swap_quote, List.foldl_cons]

/-! ## One round -/

section Rounds

variable {before after : Leftovers} {qt st : Text}

theorem Aligned.both (h : Aligned quote statement before after) :
    Aligned (token :: quote) (token :: statement) before after where
  common := by
    obtain ⟨kept, inQuote, inStatement, hquote, hstatement, hkept, hother⟩ := h.common
    cases hspace : isWhitespaceToken token with
    | true =>
      rw [words_cons_space hspace, words_cons_space hspace]
      exact ⟨kept, inQuote, inStatement, hquote, hstatement, hkept, hother⟩
    | false =>
      rw [words_cons_word hspace, words_cons_word hspace]
      exact ⟨token :: kept, inQuote, inStatement, hquote, hstatement, hkept.kept, hother.kept⟩
  flagged := h.flagged
  nothing := fun heq => h.nothing (List.cons.inj heq).2
  equal := fun heq hclear => by rw [h.equal heq hclear]

theorem statement_ne (left : Leftovers) (token : Text) :
    (left.statement token).whitespaceDiffers = true ∨
      (left.statement token).inStatement = left.inStatement ++ [token] := by
  unfold Leftovers.statement
  split
  · exact Or.inl rfl
  · exact Or.inr rfl

theorem Aligned.putStatement (hne : qt ≠ st)
    (h : Aligned (qt :: quote) statement (before.statement st) after) :
    Aligned (qt :: quote) (st :: statement) before after where
  common := by
    obtain ⟨kept, inQuote, inStatement, hquote, hstatement, hkept, hother⟩ := h.common
    unfold Leftovers.statement at hquote hstatement
    cases hspace : isWhitespaceToken st with
    | true =>
      rw [hspace, if_pos rfl] at hquote hstatement
      rw [words_cons_space hspace]
      exact ⟨kept, inQuote, inStatement, hquote, hstatement, hkept, hother⟩
    | false =>
      rw [hspace, if_neg Bool.false_ne_true] at hquote hstatement
      rw [words_cons_word hspace]
      refine ⟨kept, inQuote, st :: inStatement, hquote, ?_, hkept, hother.removed⟩
      rw [hstatement, List.append_assoc]
      rfl
  flagged := fun hset => h.flagged (by
    unfold Leftovers.statement
    split
    · rfl
    · exact hset)
  nothing := fun heq => absurd (List.cons.inj heq).1 hne
  equal := fun heq hclear => by
    rcases statement_ne before st with hflag | hlonger
    · have hset := h.flagged hflag
      rw [heq, hclear] at hset
      cases hset
    · obtain ⟨kept, inQuote, inStatement, -, hstatement, -, -⟩ := h.common
      rw [heq, hlonger] at hstatement
      have hlength := congrArg List.length hstatement
      simp at hlength

theorem Aligned.swap (h : Aligned quote statement before after) :
    Aligned statement quote before.swap after.swap where
  common := by
    obtain ⟨kept, inQuote, inStatement, hquote, hstatement, hkept, hother⟩ := h.common
    exact ⟨kept, inStatement, inQuote, hstatement, hquote, hother, hkept⟩
  flagged := h.flagged
  nothing := fun heq => congrArg Leftovers.swap (h.nothing heq.symm)
  equal := fun heq hclear => (h.equal (congrArg Leftovers.swap heq) hclear).symm

theorem Aligned.putQuote (hne : qt ≠ st)
    (h : Aligned quote (st :: statement) (before.quote qt) after) :
    Aligned (qt :: quote) (st :: statement) before after := by
  have hswap := h.swap
  rw [swap_quote] at hswap
  exact (Aligned.putStatement hne.symm hswap).swap

end Rounds

/-! ## The loop -/

theorem aligned_nil_left (statement : List Text) (left : Leftovers) :
    Aligned [] statement left (statement.foldl Leftovers.statement left) := by
  obtain ⟨hquote, hstatement, hflag, hsame⟩ := foldl_statement statement left
  refine ⟨⟨[], [], words statement, ?_, hstatement, .nil, .all_removed _⟩, hflag, ?_, ?_⟩
  · rw [hquote, List.append_nil]
  · rintro rfl
    rfl
  · intro heq hclear
    exact (hsame heq hclear).symm

theorem aligned_nil_right (quote : List Text) (left : Leftovers) :
    Aligned quote [] left (quote.foldl Leftovers.quote left) := by
  have h := (aligned_nil_left quote left.swap).swap
  rw [← swap_foldl_quote] at h
  exact h

/-- The loop comes to the end of both sides, and what it puts aside is what keeps them apart. -/
theorem alignLoop_aligned (fuel : Nat) (quote statement : List Text) (left : Leftovers)
    (hfuel : quote.length + statement.length < fuel) :
    Aligned quote statement left (alignLoop fuel quote statement left) := by
  induction fuel generalizing quote statement left with
  | zero => exact absurd hfuel (Nat.not_lt_zero _)
  | succ fuel ih =>
    cases quote with
    | nil =>
      rw [alignLoop]
      exact aligned_nil_left statement left
    | cons qt quote =>
      cases statement with
      | nil =>
        rw [alignLoop]
        · exact aligned_nil_right (qt :: quote) left
        · exact List.cons_ne_nil _ _
      | cons st statement =>
        rw [List.length_cons, List.length_cons] at hfuel
        -- Which token is put aside does not matter: each of the rounds drops one of a side.
        have hquote (hne : qt ≠ st) : Aligned (qt :: quote) (st :: statement) left
            (alignLoop fuel quote (st :: statement) (left.quote qt)) :=
          Aligned.putQuote hne (ih quote (st :: statement) _ (by rw [List.length_cons]; omega))
        have hstatement (hne : qt ≠ st) : Aligned (qt :: quote) (st :: statement) left
            (alignLoop fuel (qt :: quote) statement (left.statement st)) :=
          Aligned.putStatement hne (ih (qt :: quote) statement _ (by rw [List.length_cons]; omega))
        rw [alignLoop]
        by_cases heq : qt = st
        · subst heq
          rw [if_pos (beq_self_eq_true qt)]
          exact (ih quote statement left (by omega)).both
        rw [if_neg (by simpa using heq)]
        split
        · rename_i hspace
          have hqt := (Bool.and_eq_true_iff.mp hspace).1
          have hput : left.quote qt = { left with whitespaceDiffers := true } := by
            rw [Leftovers.quote, hqt, if_pos rfl]
          rw [← hput]
          exact hquote heq
        split
        · rename_i hspace
          have hst := (Bool.and_eq_true_iff.mp hspace).1
          have hput : left.statement st = { left with whitespaceDiffers := true } := by
            rw [Leftovers.statement, hst, if_pos rfl]
          rw [← hput]
          exact hstatement heq
        split
        · exact hquote heq
        · exact hstatement heq

end Leftovers

/-! ## The diagnosis -/

/-- The diagnosis is an edit script: without the tokens it names, and without the spacing, the two
sides are equal, and it names nothing exactly when they are equal as they stand. -/
structure EditScript (quote statement : List Text) (bearing : StatementBearing) : Prop where
  borne : bearing.borne = true ↔ bearing.unmatchedInQuote = [] ∧ bearing.unmatchedInStatement = [] ∧
    bearing.whitespaceDiffers = false
  common : ∃ kept, Interleaved kept bearing.unmatchedInQuote (words quote) ∧
    Interleaved kept bearing.unmatchedInStatement (words statement)
  inQuote : bearing.unmatchedInQuote.Sublist (words quote)
  inStatement : bearing.unmatchedInStatement.Sublist (words statement)

/-- Neither side is empty, and both are within the limit. -/
def Alignable (quote statement : List Text) (policy : ReceiptPolicy) : Prop :=
  quote ≠ [] ∧ statement ≠ [] ∧ quote.length ≤ policy.maxAlignedTokens ∧
    statement.length ≤ policy.maxAlignedTokens

/-- The diagnosis of a pair that is aligned. -/
def diagnosis (quote statement : List Text) : StatementBearing :=
  let left := alignLoop (quote.length + statement.length + 1) quote statement ⟨[], [], false⟩
  ⟨quote == statement, left.inStatement, left.inQuote, left.whitespaceDiffers, none⟩

theorem alignTokens_cases (quote statement : List Text) (policy : ReceiptPolicy) :
    Alignable quote statement policy ∧
        alignTokens quote statement policy = diagnosis quote statement ∨
      ¬ Alignable quote statement policy ∧
        ∃ reason, alignTokens quote statement policy = declined reason := by
  unfold alignTokens Alignable
  cases quote with
  | nil => exact Or.inr ⟨fun h => h.1 rfl, _, rfl⟩
  | cons qt quote =>
    cases statement with
    | nil => exact Or.inr ⟨fun h => h.2.1 rfl, _, rfl⟩
    | cons st statement =>
      rw [if_neg (by simp), if_neg (by simp)]
      split
      · rename_i hlong
        rw [Bool.or_eq_true, decide_eq_true_eq, decide_eq_true_eq] at hlong
        exact Or.inr ⟨fun h => by omega, _, rfl⟩
      · rename_i hshort
        rw [Bool.or_eq_true, decide_eq_true_eq, decide_eq_true_eq] at hshort
        exact Or.inl ⟨⟨List.cons_ne_nil _ _, List.cons_ne_nil _ _, by omega, by omega⟩, rfl⟩

theorem diagnosis_edits (quote statement : List Text) :
    EditScript quote statement (diagnosis quote statement) := by
  unfold diagnosis
  have haligned := alignLoop_aligned (quote.length + statement.length + 1) quote statement
    ⟨[], [], false⟩ (Nat.lt_succ_self _)
  obtain ⟨kept, inQuote, inStatement, hleftQuote, hleftStatement, hkept, hother⟩ := haligned.common
  rw [List.nil_append] at hleftQuote hleftStatement
  rw [← hleftQuote] at hkept
  rw [← hleftStatement] at hother
  refine ⟨?_, ⟨kept, hkept, hother⟩, hkept.removed_sublist, hother.removed_sublist⟩
  · dsimp only
    rw [beq_iff_eq]
    constructor
    · intro heq
      rw [haligned.nothing heq]
      exact ⟨rfl, rfl, rfl⟩
    · rintro ⟨hnoQuote, hnoStatement, hclear⟩
      refine haligned.equal ?_ rfl
      cases hleft : alignLoop (quote.length + statement.length + 1) quote statement ⟨[], [], false⟩
      rw [hleft] at hnoQuote hnoStatement hclear
      dsimp only at hnoQuote hnoStatement hclear
      rw [hnoQuote, hnoStatement, hclear]

/-- An empty side or a side over the limit is declined, is not borne and has nothing named; every other
pair gets an edit script. -/
theorem alignTokens_edits (quote statement : List Text) (policy : ReceiptPolicy) :
    ((alignTokens quote statement policy).undecidable = none ↔
        Alignable quote statement policy) ∧
      (¬ Alignable quote statement policy →
        ∃ reason, alignTokens quote statement policy = ⟨false, [], [], false, some reason⟩) ∧
      (Alignable quote statement policy →
        EditScript quote statement (alignTokens quote statement policy)) := by
  rcases alignTokens_cases quote statement policy with ⟨halignable, hsame⟩ | ⟨hnot, reason, hdeclined⟩
  · rw [hsame]
    exact ⟨⟨fun _ => halignable, fun _ => rfl⟩, fun hnot => absurd halignable hnot,
      fun _ => diagnosis_edits quote statement⟩
  · rw [hdeclined]
    exact ⟨⟨nofun, fun h => absurd h hnot⟩, fun _ => ⟨reason, rfl⟩, fun h => absurd h hnot⟩

/-- One word stands between two others. -/
theorem interposed_edits :
    EditScript ["we".toList, " ".toList, "ship".toList] ["we".toList, " ".toList, "not".toList,
        " ".toList, "ship".toList]
      (alignTokens ["we".toList, " ".toList, "ship".toList] ["we".toList, " ".toList, "not".toList,
        " ".toList, "ship".toList] receiptPolicy) :=
  (alignTokens_edits _ _ _).2.2
    ⟨List.cons_ne_nil _ _, List.cons_ne_nil _ _, by decide +kernel, by decide +kernel⟩

/-- An alignment that is not made names nothing and is not borne. -/
theorem declined_unborne : ¬ ∀ quote statement policy,
    EditScript quote statement (alignTokens quote statement policy) := by
  intro h
  exact Bool.noConfusion ((h [] [] receiptPolicy).borne.mpr ⟨rfl, rfl, rfl⟩)

end Core
