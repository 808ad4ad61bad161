import AtriumVerified.Execution.GitDiff
import AtriumVerified.Lib.Decimal

/-!
# Counts and caps

The counts that git prints are read back as they are, and the loops of the merge keep the hunks that
begin and the lines that stand within the budget.
-/

namespace Execution

open Js

/-! ## The counts -/

section Counts

example : parseCount ['4', '2'] = 42 := by decide +kernel

theorem digits_of_toDigits (n : Nat) : ∀ c ∈ Nat.toDigits 10 n, isDigit c = true := by
  intro c hc
  have hpadded := padded_digits 0 n c
  have htext : (toString n).toList = Nat.toDigits 10 n := Nat.toList_repr
  simp only [padded, padStart, htext, Nat.zero_sub, List.replicate_zero, List.nil_append] at hpadded
  exact hpadded hc

theorem isSpace_of_isDigit {c : Char} (h : isDigit c = true) : isSpace c = false := by
  rw [isDigit_iff] at h
  simp [isSpace]
  omega

/-- A count is read back. -/
theorem parseCount_toDigits (n : Nat) : parseCount (Nat.toDigits 10 n) = n := by
  have hdigits := digits_of_toDigits n
  have hnumber : numberOf (Nat.toDigits 10 n) = n := by
    rw [numberOf_eq, Nat.ofDigitChars_ten_toDigits]
  have hall : (Nat.toDigits 10 n).takeWhile isDigit = Nat.toDigits 10 n :=
    List.takeWhile_eq_self_iff.mpr hdigits
  unfold parseCount
  cases hlist : Nat.toDigits 10 n with
  | nil =>
    rw [hlist] at hnumber
    simpa using hnumber
  | cons c rest =>
    rw [hlist] at hdigits hall hnumber
    have hc := hdigits c List.mem_cons_self
    have hspace := isSpace_of_isDigit hc
    rw [List.dropWhile_cons, hspace]
    have hminus : c ≠ '-' := by
      rintro rfl
      exact absurd hc (by decide)
    have hplus : c ≠ '+' := by
      rintro rfl
      exact absurd hc (by decide)
    split
    · rename_i heq
      exact absurd (List.cons.inj heq).1 hminus
    · rename_i heq
      exact absurd (List.cons.inj heq).1 hplus
    · simp only [Bool.false_eq_true, if_false]
      rw [hall, hnumber]

theorem printCount_chars (counts : Option Nat) :
    ∀ c ∈ printCount counts, isDigit c = true ∨ c = '-' := by
  intro c hc
  cases counts with
  | none => exact Or.inr (List.mem_singleton.mp hc)
  | some n => exact Or.inl (digits_of_toDigits n c hc)

theorem notMem_printCount {counts : Option Nat} {c : Char} (hdigit : isDigit c = false)
    (hdash : c ≠ '-') : c ∉ printCount counts := by
  intro hc
  rcases printCount_chars counts c hc with h | h
  · rw [hdigit] at h
    cases h
  · exact hdash h

theorem printCount_ne_nil (counts : Option Nat) : printCount counts ≠ [] := by
  cases counts with
  | none => exact List.cons_ne_nil _ _
  | some n => exact Nat.toDigits_ne_nil

theorem printCount_eq_dash_iff {counts : Option Nat} : printCount counts = ['-'] ↔ counts = none := by
  cases counts with
  | none => exact iff_of_true rfl rfl
  | some n =>
    refine iff_of_false (fun h => ?_) (by simp)
    have hdash := digits_of_toDigits n '-' (by
      rw [show Nat.toDigits 10 n = ['-'] from h]
      exact List.mem_singleton_self _)
    exact absurd hdash (by decide)

theorem cutAtTab_append {before : List Char} (h : '\t' ∉ before) (after : List Char) :
    cutAtTab (before ++ '\t' :: after) = some (before, after) := by
  have hne : ∀ c ∈ before, (c != '\t') = true := by
    intro c hc
    rw [bne_iff_ne]
    rintro rfl
    exact h hc
  unfold cutAtTab
  rw [if_pos (by simp), List.takeWhile_append_of_pos hne, List.dropWhile_append_of_pos hne]
  simp

def GitCount.entry (count : GitCount) : NumstatEntry where
  path := count.path.text
  oldPath := count.old.map GitPath.text
  additions := ((count.counts.map Prod.fst).getD 0 : Nat)
  deletions := ((count.counts.map Prod.snd).getD 0 : Nat)
  binary := count.counts.isNone

theorem countsOf_printed (adds dels : Option Nat) (rest : List Char) :
    countsOf (printCount adds ++ '\t' :: (printCount dels ++ '\t' :: rest)) =
      some (printCount adds, printCount dels, rest) := by
  have htab : ∀ counts : Option Nat, '\t' ∉ printCount counts := fun counts =>
    notMem_printCount (by decide) (by decide)
  unfold countsOf
  rw [cutAtTab_append (htab adds)]
  simp only [Option.bind_some]
  rw [cutAtTab_append (htab dels)]
  rfl

/-- The tokens of an entry are read as the entry. -/
theorem numstatFrom_text (count : GitCount) (rest : List Char) :
    numstatFrom 0 ((count.text ++ rest).splitOn '\x00') =
      count.entry :: numstatFrom 0 (rest.splitOn '\x00') := by
  obtain ⟨path, old, counts⟩ := count
  have hnul : ∀ counts : Option Nat, '\x00' ∉ printCount counts := fun counts =>
    notMem_printCount (by decide) (by decide)
  have hbinary : (printCount (counts.map Prod.fst) == ['-'] &&
      printCount (counts.map Prod.snd) == ['-']) = counts.isNone := by
    cases counts with
    | none => rfl
    | some pair =>
      have hfirst : printCount (some pair.1) ≠ ['-'] := fun h => by
        cases printCount_eq_dash_iff.mp h
      simp [hfirst]
  have hcount : ∀ f : Nat × Nat → Nat, (if counts.isNone then 0
      else parseCount (printCount (counts.map f))) = ((counts.map f).getD 0 : Nat) := by
    intro f
    cases counts with
    | none => rfl
    | some pair => exact parseCount_toDigits _
  cases old with
  | none =>
    have htext : (⟨path, none, counts⟩ : GitCount).text ++ rest =
        (printCount (counts.map Prod.fst) ++ '\t' :: (printCount (counts.map Prod.snd) ++
          '\t' :: path.text)) ++ '\x00' :: rest := by
      simp [GitCount.text]
    have hhead : '\x00' ∉ printCount (counts.map Prod.fst) ++ '\t' ::
        (printCount (counts.map Prod.snd) ++ '\t' :: path.text) := by
      simp [hnul, path.noNul]
    rw [htext, List.splitOn_append_cons_self_of_not_mem hhead, numstatFrom, countsOf_printed]
    simp only [hbinary, hcount, if_neg path.nonempty]
    rfl
  | some old =>
    have htext : (⟨path, some old, counts⟩ : GitCount).text ++ rest =
        (printCount (counts.map Prod.fst) ++ '\t' :: (printCount (counts.map Prod.snd) ++
          '\t' :: [])) ++ '\x00' :: (old.text ++ '\x00' :: (path.text ++ '\x00' :: rest)) := by
      simp [GitCount.text]
    have hhead : '\x00' ∉ printCount (counts.map Prod.fst) ++ '\t' ::
        (printCount (counts.map Prod.snd) ++ '\t' :: []) := by
      simp [hnul]
    rw [htext, List.splitOn_append_cons_self_of_not_mem hhead,
      List.splitOn_append_cons_self_of_not_mem old.noNul,
      List.splitOn_append_cons_self_of_not_mem path.noNul, numstatFrom, countsOf_printed]
    simp only [hbinary, hcount]
    rfl

theorem numstatFrom_numstatOut (counts : List GitCount) :
    numstatFrom 0 ((numstatOut counts).splitOn '\x00') = counts.map GitCount.entry := by
  induction counts with
  | nil => decide
  | cons count rest ih =>
    rw [numstatOut, List.flatMap_cons, numstatFrom_text, List.map_cons]
    exact congrArg (count.entry :: ·) ih

theorem trim_numstatOut (counts : List GitCount) : trim (numstatOut counts) = numstatOut counts := by
  have hnul : isSpace '\x00' = false := by decide
  have hends : ∀ count : GitCount, ∃ front, count.text = front ++ ['\x00'] := by
    rintro ⟨path, old, counts⟩
    cases old with
    | none =>
      exact ⟨_, by simp only [GitCount.text, ← List.append_assoc, ← List.cons_append]; rfl⟩
    | some old =>
      exact ⟨_, by simp only [GitCount.text, ← List.append_assoc, ← List.cons_append]; rfl⟩
  rcases counts.eq_nil_or_concat with rfl | ⟨front, last, rfl⟩
  · rfl
  · obtain ⟨before, hbefore⟩ := hends last
    have hlast : numstatOut (front.concat last) = (front.flatMap GitCount.text ++ before) ++ ['\x00'] := by
      simp [numstatOut, hbefore]
    obtain ⟨c, tail, hhead, hc⟩ : ∃ c tail, numstatOut (front.concat last) = c :: tail ∧
        isSpace c = false := by
      obtain ⟨first, others, hcounts⟩ := List.exists_cons_of_ne_nil (l := front.concat last) (by simp)
      obtain ⟨c, digits, hdigits⟩ := List.exists_cons_of_ne_nil
        (printCount_ne_nil (first.counts.map Prod.fst))
      rw [hcounts, numstatOut, List.flatMap_cons, GitCount.text, hdigits]
      refine ⟨c, _, rfl, ?_⟩
      rcases printCount_chars (first.counts.map Prod.fst) c (by rw [hdigits]; simp) with h | rfl
      · exact isSpace_of_isDigit h
      · decide
    have hblanks : ∀ b ∈ ([] : List Char), isSpace b = true := by simp
    have htrim := trim_append hhead hc hlast hnul hblanks
    rwa [List.append_nil] at htrim

theorem parseNumstatZ_numstatOut (counts : List GitCount) :
    parseNumstatZ (trim (numstatOut counts)) = counts.map GitCount.entry := by
  rw [trim_numstatOut]
  exact numstatFrom_numstatOut counts

end Counts

/-! ## Texts within a length -/

section Lengths

theorem length_sliceUnits_le (limit : Nat) (text : List Char) :
    Js.length (sliceUnits limit text) ≤ limit := by
  induction text generalizing limit with
  | nil => exact Nat.zero_le _
  | cons c rest ih =>
    rw [sliceUnits]
    split
    · rename_i hsize
      rw [length_cons]
      have hrest := ih (limit - (utf16Units c).length)
      omega
    split
    · exact Nat.zero_le _
    · have hone : Js.length ['\uFFFD'] = 1 := by decide
      rw [hone]
      omega

theorem length_append (front back : List Char) :
    Js.length (front ++ back) = Js.length front + Js.length back := by
  simp [Js.length]

theorem length_trimTo_le (limit : Nat) (text : List Char) :
    Js.length (trimTo limit text) ≤ limit + 1 := by
  unfold trimTo
  split
  · rw [length_append]
    have hslice := length_sliceUnits_le limit text
    have hone : Js.length ['…'] = 1 := by decide
    omega
  · omega

end Lengths

/-! ## What is kept -/

def linesOf (hunks : List DiffHunk) : List (List Char) := hunks.flatMap DiffHunk.lines

/-- The hunks that begin within a number of lines, each with what is left of it. -/
def begun : Nat → List DiffHunk → List (Nat × DiffHunk)
  | _, [] => []
  | 0, _ :: _ => []
  | lineBudget + 1, hunk :: rest =>
    (lineBudget + 1, hunk) :: begun (lineBudget + 1 - hunk.lines.length) rest

def trimHunk (lineBudget : Nat) (hunk : DiffHunk) : DiffHunk where
  header := trimTo maxDiffHeaderLen hunk.header
  lines := (hunk.lines.take lineBudget).map (trimTo maxDiffLineLen)

section Loops

theorem keepLines_kept (lineBudget : Nat) (lines : List (List Char)) :
    (keepLines lineBudget lines).kept = (lines.take lineBudget).map (trimTo maxDiffLineLen) := by
  induction lines generalizing lineBudget with
  | nil => simp [keepLines]
  | cons raw rest ih =>
    cases lineBudget with
    | zero => rfl
    | succ lineBudget => rw [keepLines, ih, List.take_succ_cons, List.map_cons]

theorem keepLines_lineBudget (lineBudget : Nat) (lines : List (List Char)) :
    (keepLines lineBudget lines).lineBudget = lineBudget - lines.length := by
  induction lines generalizing lineBudget with
  | nil => rw [keepLines, List.length_nil, Nat.sub_zero]
  | cons raw rest ih =>
    cases lineBudget with
    | zero => exact (Nat.zero_sub _).symm
    | succ lineBudget =>
      rw [keepLines, ih, List.length_cons]
      omega

theorem keepLines_truncated (lineBudget : Nat) (lines : List (List Char)) :
    (keepLines lineBudget lines).truncated = false ↔
      lines.length ≤ lineBudget ∧ ∀ line ∈ lines, Js.length line ≤ maxDiffLineLen := by
  induction lines generalizing lineBudget with
  | nil => simp [keepLines]
  | cons raw rest ih =>
    cases lineBudget with
    | zero => simp [keepLines]
    | succ lineBudget =>
      rw [keepLines]
      dsimp only
      rw [Bool.or_eq_false_iff, ih, decide_eq_false_iff_not, Nat.not_lt, List.length_cons,
        Nat.add_le_add_iff_right, List.forall_mem_cons]
      exact and_left_comm

theorem keepHunks_kept (lineBudget : Nat) (hunks : List DiffHunk) :
    (keepHunks lineBudget hunks).kept =
      (begun lineBudget hunks).map fun (lineBudget, hunk) => trimHunk lineBudget hunk := by
  induction hunks generalizing lineBudget with
  | nil => simp [keepHunks, begun]
  | cons hunk rest ih =>
    cases lineBudget with
    | zero => rfl
    | succ lineBudget =>
      rw [keepHunks, begun, List.map_cons, keepLines_lineBudget, ih, keepLines_kept]
      rfl

theorem keepHunks_lineBudget (lineBudget : Nat) (hunks : List DiffHunk) :
    (keepHunks lineBudget hunks).lineBudget = lineBudget - (linesOf hunks).length := by
  induction hunks generalizing lineBudget with
  | nil => simp [keepHunks, linesOf]
  | cons hunk rest ih =>
    cases lineBudget with
    | zero => exact (Nat.zero_sub _).symm
    | succ lineBudget =>
      rw [keepHunks, ih, keepLines_lineBudget, linesOf, linesOf, List.flatMap_cons,
        List.length_append, Nat.sub_sub]

theorem linesOf_keepHunks (lineBudget : Nat) (hunks : List DiffHunk) :
    linesOf (keepHunks lineBudget hunks).kept =
      ((linesOf hunks).take lineBudget).map (trimTo maxDiffLineLen) := by
  induction hunks generalizing lineBudget with
  | nil => simp [keepHunks, linesOf]
  | cons hunk rest ih =>
    cases lineBudget with
    | zero => simp [keepHunks, linesOf]
    | succ lineBudget =>
      have hrest := ih (lineBudget + 1 - hunk.lines.length)
      unfold linesOf at hrest ⊢
      rw [keepHunks, List.flatMap_cons, List.flatMap_cons, keepLines_lineBudget, hrest,
        keepLines_kept, List.take_append, List.map_append]

theorem keepHunks_truncated (lineBudget : Nat) {hunks : List DiffHunk}
    (hlines : ∀ hunk ∈ hunks, hunk.lines ≠ []) :
    (keepHunks lineBudget hunks).truncated = false ↔ (linesOf hunks).length ≤ lineBudget ∧
      ∀ line ∈ linesOf hunks, Js.length line ≤ maxDiffLineLen := by
  induction hunks generalizing lineBudget with
  | nil => simp [keepHunks, linesOf]
  | cons hunk rest ih =>
    obtain ⟨hhunk, hrest⟩ := List.forall_mem_cons.mp hlines
    have hpos := List.length_pos_iff.mpr hhunk
    have hlength : (linesOf (hunk :: rest)).length = hunk.lines.length + (linesOf rest).length := by
      rw [linesOf, List.flatMap_cons, List.length_append]
      rfl
    have hmem : (∀ line ∈ linesOf (hunk :: rest), Js.length line ≤ maxDiffLineLen) ↔
        (∀ line ∈ hunk.lines, Js.length line ≤ maxDiffLineLen) ∧
          ∀ line ∈ linesOf rest, Js.length line ≤ maxDiffLineLen := by
      rw [linesOf, List.flatMap_cons, List.forall_mem_append]
      rfl
    rw [hlength, hmem]
    cases lineBudget with
    | zero =>
      refine iff_of_false (by simp [keepHunks]) (fun h => ?_)
      omega
    | succ lineBudget =>
      rw [keepHunks]
      dsimp only
      rw [Bool.or_eq_false_iff, keepLines_truncated, keepLines_lineBudget, ih _ hrest]
      constructor
      · rintro ⟨⟨hfirst, hshort⟩, hlater, hothers⟩
        exact ⟨by omega, hshort, hothers⟩
      · rintro ⟨hboth, hshort, hothers⟩
        exact ⟨⟨by omega, hshort⟩, by omega, hothers⟩

end Loops

/-! ## The files that are kept -/

/-- Files with the lines that may be kept of each. -/
def allotted : Nat → List (NumstatEntry × Option PatchFile) →
    List (Nat × NumstatEntry × Option PatchFile)
  | _, [] => []
  | lineBudget, (entry, patchFile) :: rest =>
    (lineBudget, entry, patchFile) ::
      allotted (lineBudget - (linesOf (hunksOf entry patchFile)).length) rest

def keptFile : Nat × NumstatEntry × Option PatchFile → DiffFile
  | (lineBudget, entry, patchFile) =>
    diffFile entry patchFile (keepHunks lineBudget (hunksOf entry patchFile)).kept

section Files

variable {patch : Js.Map (List Char) PatchFile}

theorem keepFiles_kept (room lineBudget : Nat) (entries : List NumstatEntry) :
    (keepFiles patch room lineBudget entries).kept =
      (allotted lineBudget ((entries.take room).map fun entry =>
        (entry, patch.get entry.path))).map keptFile := by
  induction entries generalizing room lineBudget with
  | nil => simp [keepFiles, allotted]
  | cons entry rest ih =>
    cases room with
    | zero => simp [keepFiles, allotted]
    | succ room =>
      rw [keepFiles, List.take_succ_cons, List.map_cons, allotted, List.map_cons,
        keepHunks_lineBudget, ih]
      rfl

theorem keepFiles_truncated (room lineBudget : Nat) (entries : List NumstatEntry) :
    (keepFiles patch room lineBudget entries).truncated = false ↔ entries.length ≤ room ∧
      ∀ file ∈ allotted lineBudget (entries.map fun entry => (entry, patch.get entry.path)),
        (keepHunks file.1 (hunksOf file.2.1 file.2.2)).truncated = false := by
  induction entries generalizing room lineBudget with
  | nil => simp [keepFiles, allotted]
  | cons entry rest ih =>
    cases room with
    | zero => simp [keepFiles]
    | succ room =>
      rw [keepFiles, List.map_cons, allotted, List.forall_mem_cons, List.length_cons,
        Nat.add_le_add_iff_right]
      dsimp only
      rw [Bool.or_eq_false_iff, keepHunks_lineBudget, ih]
      exact and_left_comm

theorem length_allotted (lineBudget : Nat) (files : List (NumstatEntry × Option PatchFile)) :
    (allotted lineBudget files).length = files.length := by
  induction files generalizing lineBudget with
  | nil => rfl
  | cons file rest ih =>
    rw [allotted, List.length_cons, List.length_cons, ih]

theorem map_allotted (lineBudget : Nat) (files : List (NumstatEntry × Option PatchFile)) :
    (allotted lineBudget files).map Prod.snd = files := by
  induction files generalizing lineBudget with
  | nil => rfl
  | cons file rest ih =>
    rw [allotted, List.map_cons, ih]

theorem sum_allotted_le (lineBudget : Nat) (files : List (NumstatEntry × Option PatchFile)) :
    ((allotted lineBudget files).map fun file =>
      (linesOf (keptFile file).hunks).length).sum ≤ lineBudget := by
  induction files generalizing lineBudget with
  | nil => exact Nat.zero_le _
  | cons file rest ih =>
    have hrest := ih (lineBudget - (linesOf (hunksOf file.1 file.2)).length)
    have hfirst : (linesOf (keptFile (lineBudget, file.1, file.2)).hunks).length =
        min lineBudget (linesOf (hunksOf file.1 file.2)).length := by
      have hkept : (keptFile (lineBudget, file.1, file.2)).hunks =
          (keepHunks lineBudget (hunksOf file.1 file.2)).kept := rfl
      rw [hkept, linesOf_keepHunks, List.length_map, List.length_take]
    rw [allotted, List.map_cons, List.sum_cons, hfirst]
    omega

end Files

end Execution
