import Mathlib.Data.List.DropRight
import Mathlib.Data.List.Infix
import Mathlib.Data.List.TakeWhile
import AtriumVerified.Lib.Text

/-!
# Cutting a text

`split` at a separator of several characters and the cut at the last occurrence of a character, with
what they make of a text whose occurrences of the separator are known.
-/

namespace Js

/-! ## Pieces -/

section Pieces

variable {α : Type} [DecidableEq α] {x : α}

/-- The pieces between the separators have no separator. -/
theorem notMem_of_mem_splitOn {items piece : List α} (h : piece ∈ items.splitOn x) : x ∉ piece := by
  induction items generalizing piece with
  | nil =>
    rw [List.splitOn_nil, List.mem_singleton] at h
    rw [h]
    exact List.not_mem_nil
  | cons item rest ih =>
    rw [List.splitOn_cons_eq_if_modifyHead] at h
    split at h
    · rcases List.mem_cons.mp h with rfl | h
      · exact List.not_mem_nil
      · exact ih h
    · rename_i hne
      cases hpieces : rest.splitOn x with
      | nil => exact absurd hpieces (List.splitOn_ne_nil x rest)
      | cons first others =>
        rw [hpieces] at h ih
        rcases List.mem_cons.mp h with rfl | h
        · intro hmem
          rcases List.mem_cons.mp hmem with rfl | hmem
          · exact hne (beq_self_eq_true x)
          · exact ih List.mem_cons_self hmem
        · exact ih (List.mem_cons_of_mem _ h)

/-- A piece consists of what was cut. -/
theorem mem_of_mem_splitOn {items piece : List α} {item : α} (h : piece ∈ items.splitOn x)
    (hitem : item ∈ piece) : item ∈ items := by
  induction items generalizing piece with
  | nil =>
    rw [List.splitOn_nil, List.mem_singleton] at h
    rw [h] at hitem
    cases hitem
  | cons head rest ih =>
    rw [List.splitOn_cons_eq_if_modifyHead] at h
    split at h
    · rcases List.mem_cons.mp h with rfl | h
      · cases hitem
      · exact List.mem_cons_of_mem _ (ih h hitem)
    · cases hpieces : rest.splitOn x with
      | nil => exact absurd hpieces (List.splitOn_ne_nil x rest)
      | cons first others =>
        rw [hpieces] at h ih
        rcases List.mem_cons.mp h with rfl | h
        · rcases List.mem_cons.mp hitem with rfl | hitem
          · exact List.mem_cons_self
          · exact List.mem_cons_of_mem _ (ih List.mem_cons_self hitem)
        · exact List.mem_cons_of_mem _ (ih (List.mem_cons_of_mem _ h) hitem)

/-- A cut at a separator of joined pieces is a cut between pieces. -/
theorem pieces_of_intercalate_eq {pieces : List (List α)} {front back : List α}
    (hpieces : ∀ piece ∈ pieces, x ∉ piece) (hne : pieces ≠ [])
    (h : [x].intercalate pieces = front ++ x :: back) :
    pieces = front.splitOn x ++ back.splitOn x := by
  rw [← List.splitOn_intercalate x hpieces hne, h, List.splitOn_append_cons_self]

end Pieces

/-! ## Trimming -/

/-- What `trim` takes away is space at both ends. -/
theorem exists_trim (text : List Char) :
    ∃ front back, text = front ++ (trim text ++ back) ∧ (∀ c ∈ front, isSpace c = true) ∧
      ∀ c ∈ back, isSpace c = true := by
  refine ⟨text.takeWhile isSpace,
    ((text.dropWhile isSpace).reverse.takeWhile isSpace).reverse, ?_, ?_, ?_⟩
  · unfold trim
    rw [← List.reverse_append, List.takeWhile_append_dropWhile, List.reverse_reverse,
      List.takeWhile_append_dropWhile]
  · intro c hc
    exact List.mem_takeWhile_imp hc
  · intro c hc
    exact List.mem_takeWhile_imp (List.mem_reverse.mp hc)

theorem trim_of_no_space {text : List Char} (h : ∀ c ∈ text, isSpace c = false) :
    trim text = text := by
  obtain ⟨front, back, htext, hfront, hback⟩ := exists_trim text
  have hnone : ∀ c ∈ text, isSpace c ≠ true := fun c hc => by rw [h c hc]; exact Bool.false_ne_true
  have hnil : front = [] ∧ back = [] := by
    constructor
    · refine List.eq_nil_iff_forall_not_mem.mpr fun c hc => hnone c ?_ (hfront c hc)
      rw [htext]
      exact List.mem_append_left _ hc
    · refine List.eq_nil_iff_forall_not_mem.mpr fun c hc => hnone c ?_ (hback c hc)
      rw [htext]
      exact List.mem_append_right _ (List.mem_append_right _ hc)
  rw [hnil.1, hnil.2, List.nil_append, List.append_nil] at htext
  exact htext.symm

/-- A text that begins and ends with other characters loses the space after it. -/
theorem trim_append {c d : Char} {text rest front blanks : List Char} (hhead : text = c :: rest)
    (hc : isSpace c = false) (hlast : text = front ++ [d]) (hd : isSpace d = false)
    (hblanks : ∀ b ∈ blanks, isSpace b = true) : trim (text ++ blanks) = text := by
  have hdrop : (text ++ blanks).dropWhile isSpace = text ++ blanks := by
    rw [hhead, List.cons_append, List.dropWhile_cons, hc]
    rfl
  have hrev : (text ++ blanks).reverse.dropWhile isSpace = text.reverse := by
    rw [List.reverse_append, List.dropWhile_append_of_pos
      (fun b hb => hblanks b (List.mem_reverse.mp hb)), hlast, List.reverse_append,
      List.reverse_singleton, List.singleton_append, List.dropWhile_cons, hd]
    rfl
  rw [trim, hdrop, hrev, List.reverse_reverse]

/-- A text that begins with no space keeps its beginning. -/
theorem trim_cons {c : Char} (rest : List Char) (hc : isSpace c = false) :
    ∃ kept back, trim (c :: rest) = c :: kept ∧ rest = kept ++ back ∧
      ∀ b ∈ back, isSpace b = true := by
  obtain ⟨front, back, htext, hfront, hback⟩ := exists_trim (c :: rest)
  cases front with
  | cons d front =>
    have hd := hfront d List.mem_cons_self
    obtain ⟨rfl, -⟩ := List.cons.inj htext
    rw [hc] at hd
    cases hd
  | nil =>
    rw [List.nil_append] at htext
    cases htrim : trim (c :: rest) with
    | nil =>
      rw [htrim, List.nil_append] at htext
      have hd := hback c (htext ▸ List.mem_cons_self)
      rw [hc] at hd
      cases hd
    | cons d kept =>
      rw [htrim, List.cons_append] at htext
      obtain ⟨rfl, hrest⟩ := List.cons.inj htext
      exact ⟨kept, back, rfl, hrest, hback⟩

theorem trim_trim (text : List Char) : trim (trim text) = trim text := by
  have hhead : (trim text).dropWhile isSpace = trim text := by
    cases h : text.dropWhile isSpace with
    | nil =>
      rw [trim, h]
      rfl
    | cons c rest =>
      have hc : isSpace c = false := by
        have hne : text.dropWhile isSpace ≠ [] := by simp [h]
        simpa only [h, List.head_cons] using List.head_dropWhile_not isSpace hne
      have hsame : trim text = trim (c :: rest) := by
        rw [trim, trim, h, List.dropWhile_cons, hc]
        rfl
      obtain ⟨kept, back, hkept, -, -⟩ := trim_cons rest hc
      rw [hsame, hkept, List.dropWhile_cons, hc]
      rfl
  have hlast : (trim text).reverse.dropWhile isSpace = (trim text).reverse := by
    rw [trim, List.reverse_reverse, List.dropWhile_idempotent]
  rw [trim, hhead, hlast, List.reverse_reverse]

/-! ## The last occurrence of a character -/

/-- `[text.slice(0, i), text.slice(i + 1)]` for `i = text.lastIndexOf(c)`, when there is one. -/
def splitAtLast (c : Char) : List Char → Option (List Char × List Char)
  | [] => none
  | d :: rest =>
    match splitAtLast c rest with
    | some (before, after) => some (d :: before, after)
    | none => if d = c then some ([], rest) else none

theorem splitAtLast_of_notMem {c : Char} {text : List Char} (h : c ∉ text) :
    splitAtLast c text = none := by
  induction text with
  | nil => rfl
  | cons d rest ih =>
    rw [List.mem_cons, not_or] at h
    rw [splitAtLast, ih h.2]
    exact if_neg (Ne.symm h.1)

theorem splitAtLast_append {c : Char} (before : List Char) {after : List Char} (h : c ∉ after) :
    splitAtLast c (before ++ c :: after) = some (before, after) := by
  induction before with
  | nil =>
    rw [List.nil_append, splitAtLast, splitAtLast_of_notMem h]
    exact if_pos rfl
  | cons d rest ih => rw [List.cons_append, splitAtLast, ih]

theorem notMem_of_splitAtLast {c : Char} {text : List Char} (h : splitAtLast c text = none) :
    c ∉ text := by
  induction text with
  | nil => exact List.not_mem_nil
  | cons d rest ih =>
    rw [splitAtLast] at h
    split at h
    · cases h
    · rename_i hrest
      split at h
      · cases h
      · rename_i hne
        rw [List.mem_cons, not_or]
        exact ⟨fun heq => hne heq.symm, ih hrest⟩

theorem splitAtLast_some {c : Char} {text before after : List Char}
    (h : splitAtLast c text = some (before, after)) : text = before ++ c :: after ∧ c ∉ after := by
  induction text generalizing before with
  | nil => cases h
  | cons d rest ih =>
    rw [splitAtLast] at h
    split at h
    · rename_i front back hrest
      cases h
      obtain ⟨rfl, hnot⟩ := ih hrest
      exact ⟨rfl, hnot⟩
    · rename_i hrest
      split at h
      · rename_i heq
        cases h
        subst heq
        exact ⟨rfl, notMem_of_splitAtLast hrest⟩
      · cases h

/-! ## One separating character -/

/-- `text ? text.split(c) : []`. -/
def pieces (c : Char) (text : List Char) : List (List Char) :=
  if text = [] then [] else text.splitOn c

/-- `parts.join(c)`. -/
def joined (c : Char) (parts : List (List Char)) : List Char := [c].intercalate parts

variable {c : Char}

@[simp] theorem joined_nil : joined c [] = [] := rfl

theorem joined_cons_cons (part next : List Char) (parts : List (List Char)) :
    joined c (part :: next :: parts) = part ++ c :: joined c (next :: parts) := by
  simp [joined, List.intercalate, List.intersperse]

@[simp] theorem joined_singleton (part : List Char) : joined c [part] = part := by
  simp [joined, List.intercalate, List.intersperse]

theorem joined_pieces (text : List Char) : joined c (pieces c text) = text := by
  unfold pieces
  split
  · rename_i hempty
    rw [hempty, joined_nil]
  · exact List.intercalate_splitOn c

theorem mem_joined {parts : List (List Char)} {d : Char} (h : d ∈ joined c parts) :
    d = c ∨ ∃ part ∈ parts, d ∈ part := by
  induction parts with
  | nil => cases h
  | cons part rest ih =>
    cases rest with
    | nil =>
      rw [joined_singleton] at h
      exact .inr ⟨part, List.mem_cons_self, h⟩
    | cons next rest =>
      rw [joined_cons_cons, List.mem_append, List.mem_cons] at h
      rcases h with h | rfl | h
      · exact .inr ⟨part, List.mem_cons_self, h⟩
      · exact .inl rfl
      · rcases ih h with rfl | ⟨other, hother, hmem⟩
        · exact .inl rfl
        · exact .inr ⟨other, List.mem_cons_of_mem _ hother, hmem⟩

/-- Parts that are not empty and do not hold the separator. -/
def Plain (c : Char) (parts : List (List Char)) : Prop := ∀ part ∈ parts, part ≠ [] ∧ c ∉ part

theorem joined_ne_nil {parts : List (List Char)} (hplain : Plain c parts) (h : parts ≠ []) :
    joined c parts ≠ [] := by
  obtain ⟨part, rest, rfl⟩ := List.exists_cons_of_ne_nil h
  have hpart := (hplain part List.mem_cons_self).1
  cases rest with
  | nil => rwa [joined_singleton]
  | cons next rest =>
    rw [joined_cons_cons]
    simp

theorem pieces_joined {parts : List (List Char)} (hplain : Plain c parts) :
    pieces c (joined c parts) = parts := by
  by_cases h : parts = []
  · subst h
    rfl
  · rw [pieces, if_neg (joined_ne_nil hplain h)]
    exact List.splitOn_intercalate c (fun part hpart => (hplain part hpart).2) h

theorem not_infix_append {part rest : List Char} (hpart : c ∉ part) (h : ¬ [c, c] <:+: rest) :
    ¬ [c, c] <:+: part ++ rest := by
  induction part with
  | nil => exact h
  | cons d part ih =>
    rw [List.mem_cons, not_or] at hpart
    rw [List.cons_append, List.infix_cons_iff, not_or]
    refine ⟨fun hocc => ?_, ih hpart.2⟩
    obtain ⟨back, hback⟩ := hocc
    exact hpart.1 (List.cons.inj hback).1

theorem joined_not_begins {parts : List (List Char)} (hplain : Plain c parts) (h : parts ≠ [])
    (back : List Char) : ¬ [c] <+: joined c parts ++ back := by
  obtain ⟨part, rest, rfl⟩ := List.exists_cons_of_ne_nil h
  obtain ⟨hne, hmem⟩ := hplain part List.mem_cons_self
  obtain ⟨d, part, rfl⟩ := List.exists_cons_of_ne_nil hne
  rw [List.mem_cons, not_or] at hmem
  have hbegin : ∃ more, joined c ((d :: part) :: rest) ++ back = d :: more := by
    cases rest with
    | nil => exact ⟨part ++ back, by rw [joined_singleton, List.cons_append]⟩
    | cons next rest =>
      exact ⟨_, by rw [joined_cons_cons, List.cons_append, List.cons_append]⟩
  rintro ⟨more, hmore⟩
  obtain ⟨other, hother⟩ := hbegin
  rw [hother] at hmore
  exact hmem.1 (List.cons.inj hmore).1

/-- A text of plain parts does not hold the separator twice in a row, and does not end in it. -/
theorem joined_not_within {parts : List (List Char)} (hplain : Plain c parts) :
    ¬ [c, c] <:+: joined c parts ++ [c] := by
  have hsingle : ¬ [c, c] <:+: [c] := by
    intro hocc
    have hlen := hocc.length_le
    simp at hlen
  induction parts with
  | nil => exact hsingle
  | cons part rest ih =>
    obtain ⟨-, hpart⟩ := hplain part List.mem_cons_self
    have hplain' : Plain c rest := fun other hother => hplain other (List.mem_cons_of_mem _ hother)
    cases rest with
    | nil =>
      rw [joined_singleton]
      exact not_infix_append hpart hsingle
    | cons next rest =>
      rw [joined_cons_cons, List.append_assoc]
      refine not_infix_append hpart ?_
      rw [List.cons_append, List.infix_cons_iff, not_or]
      refine ⟨fun hocc => ?_, ih hplain'⟩
      rw [List.cons_prefix_cons] at hocc
      exact joined_not_begins hplain' (List.cons_ne_nil next rest) [c] hocc.2

theorem joined_not_within' {parts : List (List Char)} (hplain : Plain c parts) :
    ¬ [c, c] <:+: joined c parts := fun hocc =>
  joined_not_within hplain (List.infix_append_of_infix_left hocc)

/-! ## A separator of several characters -/

/-- `text.split(separator)` for a separator that is not empty; every round takes characters away, so
the characters are rounds enough. -/
def splitRounds (separator : List Char) : Nat → List Char → List (List Char)
  | 0, text => [text]
  | fuel + 1, text =>
    match splitAtFirst separator [] text with
    | none => [text]
    | some (before, after) => before.reverse :: splitRounds separator fuel after

/-- `text.split(separator)`. -/
def split (separator text : List Char) : List (List Char) :=
  splitRounds separator text.length text

variable {separator : List Char}

theorem splitRounds_ne_nil (fuel : Nat) (text : List Char) :
    splitRounds separator fuel text ≠ [] := by
  cases fuel with
  | zero => simp [splitRounds]
  | succ fuel =>
    rw [splitRounds]
    split <;> simp

theorem splitAtFirst_of_not_within (hsep : separator ≠ []) {text : List Char}
    (before : List Char) (h : ¬ separator <:+: text) :
    splitAtFirst separator before text = none := by
  induction text generalizing before with
  | nil =>
    have hempty : separator.isEmpty = false := by simpa using hsep
    simp [splitAtFirst, hempty]
  | cons c rest ih =>
    rw [List.infix_cons_iff, not_or] at h
    have hpre : separator.isPrefixOf (c :: rest) = false := by
      rw [Bool.eq_false_iff, ne_eq, List.isPrefixOf_iff_prefix]
      exact h.1
    rw [splitAtFirst, hpre]
    exact ih (c :: before) h.2

/-- The first occurrence is the one before which the text and the beginning of the separator hold
none. -/
theorem splitAtFirst_append (hsep : separator ≠ []) {front : List Char} (before back : List Char)
    (h : ¬ separator <:+: front ++ separator.dropLast) :
    splitAtFirst separator before (front ++ (separator ++ back))
      = some (front.reverse ++ before, back) := by
  induction front generalizing before with
  | nil =>
    obtain ⟨c, rest, rfl⟩ := List.exists_cons_of_ne_nil hsep
    have hpre : (c :: rest).isPrefixOf (c :: (rest ++ back)) = true := by
      rw [List.isPrefixOf_iff_prefix]
      exact ⟨back, rfl⟩
    rw [List.nil_append, List.cons_append, splitAtFirst, hpre]
    simp
  | cons c rest ih =>
    rw [List.cons_append, List.infix_cons_iff, not_or] at h
    have hpre : separator.isPrefixOf (c :: (rest ++ (separator ++ back))) = false := by
      rw [Bool.eq_false_iff, ne_eq, List.isPrefixOf_iff_prefix]
      intro hocc
      have hshort : c :: (rest ++ separator.dropLast) <+: c :: (rest ++ (separator ++ back)) := by
        obtain ⟨last, hlast⟩ := List.dropLast_prefix separator
        exact ⟨last ++ back, by
          rw [List.cons_append, List.append_assoc, ← List.append_assoc separator.dropLast, hlast]⟩
      refine h.1 (List.prefix_of_prefix_length_le hocc hshort ?_)
      simp only [List.length_cons, List.length_append, List.length_dropLast]
      omega
    rw [List.cons_append, splitAtFirst, hpre]
    have := ih (c :: before) h.2
    simpa using this

/-- A cut at the first occurrence is one. -/
theorem splitAtFirst_some (hsep : separator ≠ []) {text before x back : List Char}
    (h : splitAtFirst separator before text = some (x, back)) :
    ∃ front, x = front.reverse ++ before ∧ text = front ++ (separator ++ back) ∧
      ¬ separator <:+: front ++ separator.dropLast := by
  induction text generalizing before with
  | nil =>
    have hempty : separator.isEmpty = false := by simpa using hsep
    simp [splitAtFirst, hempty] at h
  | cons c rest ih =>
    rw [splitAtFirst] at h
    split at h
    · rename_i hpre
      cases h
      rw [List.isPrefixOf_iff_prefix] at hpre
      obtain ⟨back, hback⟩ := hpre
      refine ⟨[], rfl, by rw [← hback]; simp, fun hocc => ?_⟩
      have hlen := hocc.length_le
      have hpos := List.length_pos_iff.mpr hsep
      rw [List.nil_append, List.length_dropLast] at hlen
      omega
    · rename_i hpre
      obtain ⟨front, rfl, rfl, hfirst⟩ := ih h
      refine ⟨c :: front, by simp, by simp, fun hocc => ?_⟩
      rw [List.cons_append, List.infix_cons_iff] at hocc
      rcases hocc with hocc | hocc
      · refine hpre ?_
        rw [List.isPrefixOf_iff_prefix]
        refine hocc.trans ?_
        obtain ⟨last, hlast⟩ := List.dropLast_prefix separator
        exact ⟨last ++ back, by
          rw [List.cons_append, List.append_assoc, ← List.append_assoc separator.dropLast, hlast]⟩
      · exact hfirst hocc

theorem not_infix_of_splitAtFirst {text before : List Char} (hsep : separator ≠ [])
    (h : splitAtFirst separator before text = none) : ¬ separator <:+: text := by
  induction text generalizing before with
  | nil => simpa using hsep
  | cons c rest ih =>
    rw [splitAtFirst] at h
    split at h
    · cases h
    · rename_i hpre
      rw [List.isPrefixOf_iff_prefix] at hpre
      rw [List.infix_cons_iff, not_or]
      exact ⟨hpre, ih h⟩

theorem splitRounds_of_not_within (hsep : separator ≠ []) (fuel : Nat) {text : List Char}
    (h : ¬ separator <:+: text) : splitRounds separator fuel text = [text] := by
  cases fuel with
  | zero => rfl
  | succ fuel => rw [splitRounds, splitAtFirst_of_not_within hsep [] h]

theorem split_of_not_within (hsep : separator ≠ []) {text : List Char}
    (h : ¬ separator <:+: text) : split separator text = [text] :=
  splitRounds_of_not_within hsep _ h

theorem splitRounds_append (hsep : separator ≠ []) (fuel : Nat) {front : List Char}
    (back : List Char) (h : ¬ separator <:+: front ++ separator.dropLast) :
    splitRounds separator (fuel + 1) (front ++ (separator ++ back))
      = front :: splitRounds separator fuel back := by
  rw [splitRounds, splitAtFirst_append hsep [] back h]
  simp

/-- A text with two occurrences that do not overlap splits into more than two. -/
theorem two_lt_length_split (hsep : separator ≠ []) {front back : List Char}
    (h : ¬ separator <:+: front ++ separator.dropLast) (hback : separator <:+: back) :
    2 < (split separator (front ++ (separator ++ back))).length := by
  have hlen := hback.length_le
  have hpos := List.length_pos_iff.mpr hsep
  obtain ⟨fuel, hfuel⟩ : ∃ fuel, (front ++ (separator ++ back)).length = fuel + 2 :=
    ⟨(front ++ (separator ++ back)).length - 2, by simp only [List.length_append]; omega⟩
  rw [split, hfuel, splitRounds_append hsep (fuel + 1) back h, splitRounds]
  cases hcut : splitAtFirst separator [] back with
  | none => exact absurd hback (not_infix_of_splitAtFirst hsep hcut)
  | some pair =>
    have hne : splitRounds separator fuel pair.2 ≠ [] := splitRounds_ne_nil fuel pair.2
    have hrest := List.length_pos_iff.mpr hne
    simp only [List.length_cons]
    omega

theorem split_append (hsep : separator ≠ []) {front back : List Char}
    (h : ¬ separator <:+: front ++ separator.dropLast) (hback : ¬ separator <:+: back) :
    split separator (front ++ (separator ++ back)) = [front, back] := by
  have hpos := List.length_pos_iff.mpr hsep
  obtain ⟨fuel, hfuel⟩ : ∃ fuel, (front ++ (separator ++ back)).length = fuel + 1 :=
    ⟨(front ++ (separator ++ back)).length - 1, by simp only [List.length_append]; omega⟩
  rw [split, hfuel, splitRounds_append hsep fuel back h, splitRounds_of_not_within hsep fuel hback]

theorem exists_first_occurrence (hsep : separator ≠ []) {text : List Char}
    (h : separator <:+: text) :
    ∃ front back, text = front ++ (separator ++ back) ∧
      ¬ separator <:+: front ++ separator.dropLast := by
  cases hcut : splitAtFirst separator [] text with
  | none => exact absurd h (not_infix_of_splitAtFirst hsep hcut)
  | some pair =>
    obtain ⟨front, -, htext, hfirst⟩ := splitAtFirst_some hsep hcut
    exact ⟨front, pair.2, htext, hfirst⟩

end Js
