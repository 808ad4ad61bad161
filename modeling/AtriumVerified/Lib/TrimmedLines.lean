import AtriumVerified.Lib.Split

/-!
# The lines of a trimmed text

A program prints lines, and its reader trims the whole output before it splits it: the lines at the
end that are space are gone, and the last of the others has lost the space behind it.
-/

namespace Js

/-! ## Space at the end -/

def trimEnd (text : List Char) : List Char := (text.reverse.dropWhile isSpace).reverse

example : trimEnd ['a', ' '] = ['a'] := by decide +kernel

theorem trim_eq_trimEnd {c : Char} (rest : List Char) (hc : isSpace c = false) :
    trim (c :: rest) = trimEnd (c :: rest) := by
  rw [trim, List.dropWhile_cons, hc]
  rfl

theorem trimEnd_append (front back : List Char) : trimEnd (front ++ back) =
    if trimEnd back = [] then trimEnd front else front ++ trimEnd back := by
  unfold trimEnd
  rw [List.reverse_append, List.dropWhile_append]
  simp only [List.isEmpty_iff, List.reverse_eq_nil_iff]
  split
  · rfl
  · rw [List.reverse_append, List.reverse_reverse]

theorem prefix_trimEnd (text : List Char) : trimEnd text <+: text := by
  have hsuffix : text.reverse.dropWhile isSpace <:+ text.reverse := List.dropWhile_suffix _
  rw [← List.reverse_prefix, List.reverse_reverse] at hsuffix
  exact hsuffix

theorem trimEnd_eq_self_iff {text : List Char} :
    trimEnd text = text ↔ ∀ c ∈ text.getLast?, isSpace c = false := by
  rw [trimEnd, ← List.reverse_inj, List.reverse_reverse, ← List.head?_reverse]
  cases text.reverse with
  | nil => simp
  | cons c rest =>
    rw [List.dropWhile_cons]
    cases hc : isSpace c with
    | true =>
      simp only [if_true, List.head?_cons, Option.mem_some_iff, forall_eq', hc, Bool.true_eq_false,
        iff_false]
      intro h
      have hlength := congrArg List.length h
      have hle := (List.dropWhile_suffix isSpace (l := rest)).length_le
      rw [List.length_cons] at hlength
      omega
    | false => simp [hc]

theorem length_trimEnd_lt {text : List Char} (h : trimEnd text ≠ text) :
    (trimEnd text).length < text.length := by
  have hbegins := prefix_trimEnd text
  exact lt_of_le_of_ne hbegins.length_le fun hlength => h (hbegins.eq_of_length hlength)

theorem trimEnd_cons_ne_nil {c : Char} (rest : List Char) (hc : isSpace c = false) :
    trimEnd (c :: rest) ≠ [] := by
  have hsplit : c :: rest = [c] ++ rest := rfl
  have hsingle : trimEnd [c] = [c] := by
    rw [trimEnd_eq_self_iff]
    simpa using hc
  rw [hsplit, trimEnd_append, hsingle]
  split
  · exact List.cons_ne_nil _ _
  · simp

/-! ## Lines -/

def printLines (lines : List (List Char)) : List Char := lines.flatMap fun line => line ++ ['\n']

def trimLines : List (List Char) → List (List Char)
  | [] => []
  | line :: rest =>
    if trimLines rest = [] then if trimEnd line = [] then [] else [trimEnd line]
    else line :: trimLines rest

theorem trimLines_append (front back : List (List Char)) : trimLines (front ++ back) =
    if trimLines back = [] then trimLines front else front ++ trimLines back := by
  induction front with
  | nil =>
    rw [List.nil_append, List.nil_append]
    split
    · assumption
    · rfl
  | cons line front ih =>
    rw [List.cons_append, trimLines, trimLines, ih]
    by_cases hback : trimLines back = []
    · simp only [hback, if_true]
    · simp [hback]

/-- A line at the end that is no space. -/
theorem trimLines_concat (front : List (List Char)) (line : List Char) :
    trimLines (front ++ [line]) =
      if trimEnd line = [] then trimLines front else front ++ [trimEnd line] := by
  have hline : trimLines [line] = if trimEnd line = [] then [] else [trimEnd line] := by
    simp [trimLines]
  rw [trimLines_append, hline]
  by_cases hblank : trimEnd line = []
  · simp [hblank]
  · simp [hblank]

theorem mem_trimLines {line : List Char} {lines : List (List Char)} (h : line ∈ trimLines lines) :
    ∃ held ∈ lines, line <+: held := by
  induction lines with
  | nil => cases h
  | cons first rest ih =>
    rw [trimLines] at h
    split at h
    · split at h
      · cases h
      · rw [List.mem_singleton.mp h]
        exact ⟨first, List.mem_cons_self, prefix_trimEnd first⟩
    · rcases List.mem_cons.mp h with rfl | h
      · exact ⟨line, List.mem_cons_self, List.prefix_refl line⟩
      · obtain ⟨held, hheld, hbegins⟩ := ih h
        exact ⟨held, List.mem_cons_of_mem _ hheld, hbegins⟩

theorem trimLines_ne_nil {line : List Char} {lines : List (List Char)} (hmem : line ∈ lines)
    (hline : trimEnd line ≠ []) : trimLines lines ≠ [] := by
  induction lines with
  | nil => cases hmem
  | cons first rest ih =>
    rw [trimLines]
    split
    · rename_i hrest
      rcases List.mem_cons.mp hmem with rfl | hmem
      · rw [if_neg hline]
        exact List.cons_ne_nil _ _
      · exact absurd hrest (ih hmem)
    · exact List.cons_ne_nil _ _

theorem intercalate_trimLines_ne_nil {lines : List (List Char)} (h : trimLines lines ≠ []) :
    ['\n'].intercalate (trimLines lines) ≠ [] := by
  cases lines with
  | nil => exact absurd rfl h
  | cons line rest =>
    rw [trimLines] at h ⊢
    split
    · rename_i hrest
      rw [if_pos hrest] at h
      split
      · rename_i hline
        rw [if_pos hline] at h
        exact absurd rfl h
      · rename_i hline
        simpa using hline
    · rename_i hrest
      obtain ⟨second, others, heq⟩ := List.exists_cons_of_ne_nil hrest
      rw [heq, List.intercalate_cons_cons]
      simp

theorem trimEnd_printLines (lines : List (List Char)) :
    trimEnd (printLines lines) = ['\n'].intercalate (trimLines lines) := by
  induction lines with
  | nil => rfl
  | cons line rest ih =>
    have hend : trimEnd (line ++ ['\n']) = trimEnd line := by
      rw [trimEnd_append, if_pos (by decide)]
    have hprint : printLines (line :: rest) = (line ++ ['\n']) ++ printLines rest := by
      rw [printLines, List.flatMap_cons]
      rfl
    rw [hprint, trimEnd_append, ih, hend, trimLines]
    by_cases hrest : trimLines rest = []
    · rw [hrest, if_pos rfl, if_pos (by simp)]
      split
      · rename_i hline
        rw [hline]
        rfl
      · simp
    · rw [if_neg (intercalate_trimLines_ne_nil hrest), if_neg hrest]
      obtain ⟨second, others, heq⟩ := List.exists_cons_of_ne_nil hrest
      rw [heq, List.intercalate_cons_cons, List.append_assoc]

/-- The lines of the text are these. -/
theorem splitOn_trim_printLines {c : Char} {first : List Char} {rest : List (List Char)}
    (hc : isSpace c = false) (hlines : ∀ line ∈ (c :: first) :: rest, '\n' ∉ line) :
    (trim (printLines ((c :: first) :: rest))).splitOn '\n' = trimLines ((c :: first) :: rest) ∧
      trim (printLines ((c :: first) :: rest)) ≠ [] := by
  have hhead : printLines ((c :: first) :: rest) = c :: (first ++ '\n' :: printLines rest) := by
    simp [printLines]
  have htrim : trim (printLines ((c :: first) :: rest)) =
      ['\n'].intercalate (trimLines ((c :: first) :: rest)) := by
    rw [← trimEnd_printLines, hhead]
    exact trim_eq_trimEnd _ hc
  have hne : trimLines ((c :: first) :: rest) ≠ [] := by
    exact trimLines_ne_nil List.mem_cons_self (trimEnd_cons_ne_nil first hc)
  rw [htrim]
  refine ⟨List.splitOn_intercalate _ (fun line hline hbreak => ?_) hne, intercalate_trimLines_ne_nil hne⟩
  obtain ⟨held, hheld, hbegins⟩ := mem_trimLines hline
  exact hlines held hheld (hbegins.subset hbreak)

/-- Nothing is gone where the last line does not end in space. -/
theorem trimLines_eq_self {front : List (List Char)} {line : List Char} (hne : line ≠ [])
    (hline : trimEnd line = line) : trimLines (front ++ [line]) = front ++ [line] := by
  rw [trimLines_concat, hline, if_neg hne]

theorem length_trimLines_le (lines : List (List Char)) : (trimLines lines).length ≤ lines.length := by
  induction lines with
  | nil => exact le_rfl
  | cons line rest ih =>
    rw [trimLines]
    split
    · split
      · exact Nat.zero_le _
      · exact Nat.succ_le_succ (Nat.zero_le _)
    · exact Nat.succ_le_succ ih

theorem trimLines_eq_self_iff {front : List (List Char)} {line : List Char} (hne : line ≠ []) :
    trimLines (front ++ [line]) = front ++ [line] ↔ trimEnd line = line := by
  refine ⟨fun h => ?_, trimLines_eq_self hne⟩
  rw [trimLines_concat] at h
  split at h
  · have hlength := congrArg List.length h
    have hle := length_trimLines_le front
    rw [List.length_append, List.length_singleton] at hlength
    omega
  · exact List.singleton_inj.mp (List.append_cancel_left h)

end Js
