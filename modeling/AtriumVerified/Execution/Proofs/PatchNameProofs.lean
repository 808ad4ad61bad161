import AtriumVerified.Execution.Proofs.PatchReadProofs

/-!
# The names in a patch

A name in the two lines of the images is read as the path when it is neither quoted nor has a space,
and a name in the line of a binary file when, moreover, nothing in it looks like the word between two
names.
-/

namespace Execution

open Js

/-! ## Quotes -/

section Quotes

variable {c : Char} {path : List Char}

theorem escapeChar_plain (h : isPlainChar c = true) : escapeChar c = [c] := by
  simp only [isPlainChar, Bool.and_eq_true, bne_iff_ne, ne_eq, decide_eq_true_eq] at h
  obtain ⟨⟨⟨hquote, hslash⟩, hlow⟩, hdelete⟩ := h
  have hne (d : Char) (hd : d.toNat < 32) : c ≠ d := by
    rintro rfl
    omega
  unfold escapeChar
  rw [if_neg (by simp [hquote, hslash]), if_neg (hne _ (by decide)), if_neg (hne _ (by decide)),
    if_neg (hne _ (by decide)), if_neg (hne _ (by decide)), if_neg (hne _ (by decide)),
    if_neg (hne _ (by decide)), if_neg (hne _ (by decide)), if_neg (by omega)]

/-- Another character is a backslash and what is printed. -/
theorem escapeChar_other (h : isPlainChar c = false) :
    ∃ first rest, escapeChar c = '\\' :: first :: rest ∧ ∀ d ∈ first :: rest, 32 < d.toNat := by
  have hone {d : Char} (hd : 32 < d.toNat) : ∀ e ∈ [d], 32 < e.toNat := by simpa using hd
  unfold escapeChar
  split
  · rename_i hc
    refine ⟨c, [], rfl, hone ?_⟩
    rcases hc with rfl | rfl <;> decide
  split
  · exact ⟨_, _, rfl, hone (by decide)⟩
  split
  · exact ⟨_, _, rfl, hone (by decide)⟩
  split
  · exact ⟨_, _, rfl, hone (by decide)⟩
  split
  · exact ⟨_, _, rfl, hone (by decide)⟩
  split
  · exact ⟨_, _, rfl, hone (by decide)⟩
  split
  · exact ⟨_, _, rfl, hone (by decide)⟩
  split
  · exact ⟨_, _, rfl, hone (by decide)⟩
  split
  · have hdigits : ∀ d ∈ padStart 3 '0' (Nat.toDigits 8 c.toNat), 32 < d.toNat := by
      intro d hmem
      rcases List.mem_append.mp hmem with hzero | hdigit
      · rw [List.eq_of_mem_replicate hzero]
        decide
      · have hd := Nat.isDigit_of_mem_toDigits (by decide) (by decide) hdigit
        unfold Char.isDigit at hd
        rw [Bool.and_eq_true, decide_eq_true_eq, ge_iff_le, UInt32.le_iff_toNat_le] at hd
        exact lt_of_lt_of_le (by decide) hd.1
    obtain ⟨first, rest, hlist⟩ := List.exists_cons_of_ne_nil
      (l := padStart 3 '0' (Nat.toDigits 8 c.toNat)) (by simp [padStart, Nat.toDigits_ne_nil])
    rw [hlist] at hdigits ⊢
    exact ⟨first, rest, rfl, hdigits⟩
  · rename_i hquote _ _ _ _ _ _ _ hrange
    simp only [isPlainChar, not_or] at h hquote hrange
    simp [hquote, hrange] at h

theorem length_escape_le (path : List Char) : path.length ≤ (path.flatMap escapeChar).length := by
  induction path with
  | nil => exact le_rfl
  | cons c rest ih =>
    have hc : 1 ≤ (escapeChar c).length := by
      cases h : isPlainChar c with
      | true =>
        rw [escapeChar_plain h]
        exact le_rfl
      | false =>
        obtain ⟨first, tail, heq, -⟩ := escapeChar_other h
        rw [heq, List.length_cons]
        omega
    rw [List.flatMap_cons, List.length_append, List.length_cons]
    omega

theorem quotePath_plain (h : path.all isPlainChar = true) : quotePath path = path := if_pos h

example : quotePath "a\tb".toList = "\"a\\tb\"".toList := by decide +kernel

theorem quotePath_other (h : path.all isPlainChar = false) :
    quotePath path = '"' :: (path.flatMap escapeChar ++ ['"']) :=
  if_neg (by rw [h]; exact Bool.false_ne_true)

theorem quotePath_eq_self_iff : quotePath path = path ↔ path.all isPlainChar = true := by
  cases h : path.all isPlainChar with
  | true => exact iff_of_true (quotePath_plain h) rfl
  | false =>
    refine iff_of_false (fun heq => ?_) Bool.false_ne_true
    have hlength := congrArg List.length heq
    have hle := length_escape_le path
    rw [quotePath_other h, List.length_cons, List.length_append] at hlength
    omega

end Quotes

theorem break_notMem_quotePath (path : List Char) : '\n' ∉ quotePath path := by
  have hbreak : isPlainChar '\n' = false := by decide
  cases h : path.all isPlainChar with
  | true =>
    rw [quotePath_plain h]
    intro hmem
    rw [List.all_eq_true] at h
    rw [h '\n' hmem] at hbreak
    cases hbreak
  | false =>
    rw [quotePath_other h]
    simp only [List.mem_cons, List.mem_append, List.mem_flatMap, List.not_mem_nil, or_false, not_or,
      not_exists, not_and]
    refine ⟨by decide, fun c _ hmem => ?_, by decide⟩
    cases hc : isPlainChar c with
    | true =>
      rw [escapeChar_plain hc, List.mem_singleton] at hmem
      rw [hmem, hc] at hbreak
      cases hbreak
    | false =>
      obtain ⟨first, rest, heq, hprinted⟩ := escapeChar_other hc
      rw [heq] at hmem
      rcases List.mem_cons.mp hmem with hslash | hmem
      · exact absurd hslash (by decide)
      · exact absurd (hprinted _ hmem) (by decide)

/-! ## Names of images -/

/-- The name of an image, which `a/` or `b/` begins. -/
def imageOf (side : Char) (path : GitPath) : List Char := quotePath (side :: '/' :: path.text)

section Images

variable {side : Char} {path : GitPath}

theorem ne_devNull {text : List Char} (h : text.head? ≠ some '/') : text ≠ devNull := by
  rintro rfl
  exact h rfl

theorem strip_image (hside : side = 'a' ∨ side = 'b') (text : List Char) :
    stripImagePrefix (side :: '/' :: text) = text := by
  have hne : side :: '/' :: text ≠ devNull := by
    refine ne_devNull ?_
    rcases hside with rfl | rfl <;> simp
  have hstarts : (startsWith "a/" (side :: '/' :: text) || startsWith "b/" (side :: '/' :: text)) =
      true := by
    rcases hside with rfl | rfl
    · rw [Bool.or_eq_true]
      exact Or.inl (startsWith_append "a/" text)
    · rw [Bool.or_eq_true]
      exact Or.inr (startsWith_append "b/" text)
  rw [stripImagePrefix, if_neg hne, if_pos hstarts]
  rfl

theorem strip_quoted (text : List Char) : stripImagePrefix ('"' :: text) = '"' :: text := by
  have hne : '"' :: text ≠ devNull := ne_devNull (by simp)
  rw [stripImagePrefix, if_neg hne,
    @startsWith_of_head "a/" text '"' 'a' rfl (by decide),
    @startsWith_of_head "b/" text '"' 'b' rfl (by decide)]
  rfl

theorem all_image (hside : side = 'a' ∨ side = 'b') (text : List Char) :
    (side :: '/' :: text).all isPlainChar = text.all isPlainChar := by
  rcases hside with rfl | rfl
  · rw [List.all_cons, List.all_cons]
    rfl
  · rw [List.all_cons, List.all_cons]
    rfl

theorem strip_imageName (hside : side = 'a' ∨ side = 'b') :
    stripImagePrefix (imageName (imageOf side path)) ≠ devNull ∧
      (stripImagePrefix (imageName (imageOf side path)) = path.text ↔
        path.text.all isPlainChar = true ∧ ' ' ∉ path.text) := by
  have hall := all_image hside path.text
  have hpath : path.text.head? ≠ some '/' := path.relative
  unfold imageOf imageName
  cases hplain : path.text.all isPlainChar with
  | true =>
    rw [hplain] at hall
    rw [quotePath_plain hall]
    have hmem : ' ' ∈ side :: '/' :: path.text ↔ ' ' ∈ path.text := by
      rcases hside with rfl | rfl <;> simp
    by_cases hspace : ' ' ∈ path.text
    · have htab : side :: '/' :: path.text ++ ['\t'] = side :: '/' :: (path.text ++ ['\t']) := rfl
      rw [if_pos (hmem.mpr hspace), htab, strip_image hside]
      refine ⟨ne_devNull ?_, iff_of_false (fun heq => ?_) fun h => h.2 hspace⟩
      · obtain ⟨c, rest, hlist⟩ := List.exists_cons_of_ne_nil path.nonempty
        rw [hlist] at hpath ⊢
        exact hpath
      · have hlength := congrArg List.length heq
        rw [List.length_append] at hlength
        simp at hlength
    · rw [if_neg (mt hmem.mp hspace), strip_image hside]
      exact ⟨ne_devNull hpath, iff_of_true rfl ⟨rfl, hspace⟩⟩
  | false =>
    rw [hplain] at hall
    rw [quotePath_other hall]
    have hle := length_escape_le (side :: '/' :: path.text)
    have hquoted : ∀ behind, stripImagePrefix ('"' :: ((side :: '/' :: path.text).flatMap escapeChar ++
        ['"'] ++ behind)) ≠ devNull ∧ stripImagePrefix ('"' ::
          ((side :: '/' :: path.text).flatMap escapeChar ++ ['"'] ++ behind)) ≠ path.text := by
      intro behind
      rw [strip_quoted]
      refine ⟨ne_devNull (by simp), fun heq => ?_⟩
      have hlength := congrArg List.length heq
      simp only [List.length_cons, List.length_append] at hlength hle
      omega
    split
    · obtain ⟨hnull, hne⟩ := hquoted ['\t']
      exact ⟨hnull, iff_of_false hne fun h => Bool.false_ne_true h.1⟩
    · obtain ⟨hnull, hne⟩ := hquoted []
      rw [List.append_nil] at hnull hne
      exact ⟨hnull, iff_of_false hne fun h => Bool.false_ne_true h.1⟩

end Images

/-! ## Names of a binary file -/

def andText : List Char := " and ".toList

section Between

variable {text rest back : List Char}

theorem includes_cons (c : Char) (rest : List Char) :
    includes (c :: rest) andText = (andText.isPrefixOf (c :: rest) || includes rest andText) := by
  simp [includes]

theorem behindLast_eq_none_iff : behindLast andText text = none ↔ includes text andText = false := by
  induction text with
  | nil => exact iff_of_true rfl (by decide)
  | cons c rest ih =>
    rw [behindLast, includes_cons, Bool.or_eq_false_iff, ← ih]
    cases behindLast andText rest with
    | some behind => simp
    | none =>
      dsimp only
      cases andText.isPrefixOf (c :: rest) with
      | true => simp
      | false => simp

theorem behindLast_append {behind : List Char} (h : behindLast andText back = some behind)
    (front : List Char) : behindLast andText (front ++ back) = some behind := by
  induction front with
  | nil => exact h
  | cons c front ih => rw [List.cons_append, behindLast, ih]

theorem includes_of_suffix (hsuffix : back <:+ text) (h : includes back andText = true) :
    includes text andText = true := by
  obtain ⟨front, rfl⟩ := hsuffix
  induction front with
  | nil => exact h
  | cons c front ih => rw [List.cons_append, includes_cons, ih, Bool.or_true]

/-- Nothing behind it is like it. -/
theorem behindLast_some {behind : List Char} (h : behindLast andText text = some behind) :
    includes behind andText = false ∧ behind.length < text.length := by
  induction text with
  | nil => cases h
  | cons c rest ih =>
    rw [behindLast] at h
    cases hrest : behindLast andText rest with
    | some found =>
      rw [hrest] at h
      cases h
      obtain ⟨hnone, hlength⟩ := ih hrest
      exact ⟨hnone, hlength.trans (Nat.lt_succ_self _)⟩
    | none =>
      rw [hrest] at h
      dsimp only at h
      split at h
      · cases h
        have hdrop : (c :: rest).drop andText.length = rest.drop 4 := rfl
        rw [hdrop]
        refine ⟨?_, ?_⟩
        · rw [Bool.eq_false_iff]
          intro hincludes
          have hheld := includes_of_suffix (List.drop_suffix 4 rest) hincludes
          rw [behindLast_eq_none_iff.mp hrest] at hheld
          cases hheld
        · rw [List.length_drop, List.length_cons]
          omega
      · cases h

/-- It stands at the end. -/
theorem behindLast_eq_nil_iff :
    behindLast andText text = some [] ↔ andText.isSuffixOf text = true := by
  rw [List.isSuffixOf_iff_suffix]
  constructor
  · intro h
    induction text with
    | nil => cases h
    | cons c rest ih =>
      rw [behindLast] at h
      cases hrest : behindLast andText rest with
      | some found =>
        rw [hrest] at h
        cases h
        exact (ih hrest).trans (List.suffix_cons c rest)
      | none =>
        rw [hrest] at h
        dsimp only at h
        split at h
        · rename_i hbegins
          obtain ⟨tail, htail⟩ := List.isPrefixOf_iff_prefix.mp hbegins
          rw [← htail, List.drop_left] at h
          cases h
          rw [List.append_nil] at htail
          rw [htail]
        · cases h
  · rintro ⟨front, rfl⟩
    exact behindLast_append rfl front

/-- Between two names, the second of which does not begin like it. -/
theorem behindLast_between (front : List Char) (hback : back.head? ≠ some 'a') :
    behindLast andText (front ++ andText ++ back) =
      some ((behindLast andText back).getD back) := by
  rw [List.append_assoc]
  cases hbehind : behindLast andText back with
  | some behind =>
    rw [← List.append_assoc]
    exact behindLast_append hbehind _
  | none =>
    refine behindLast_append ?_ front
    have hspace : andText.isPrefixOf (' ' :: back) = false := by
      cases back with
      | nil => rfl
      | cons c back =>
        have hne : ¬ 'a' = c := fun heq => hback (by rw [heq]; rfl)
        simp [andText, List.isPrefixOf, hne]
    have hlast : behindLast andText (' ' :: back) = none := by
      rw [behindLast, hbehind]
      dsimp only
      rw [hspace]
      rfl
    have hlist : andText ++ back = ' ' :: 'a' :: 'n' :: 'd' :: ' ' :: back := rfl
    have hd : andText.isPrefixOf ('d' :: ' ' :: back) = false := rfl
    have hn : andText.isPrefixOf ('n' :: 'd' :: ' ' :: back) = false := rfl
    have ha : andText.isPrefixOf ('a' :: 'n' :: 'd' :: ' ' :: back) = false := rfl
    have hall : andText.isPrefixOf (' ' :: 'a' :: 'n' :: 'd' :: ' ' :: back) = true := by
      rw [List.isPrefixOf_iff_prefix]
      exact ⟨back, rfl⟩
    rw [hlist, behindLast, behindLast, behindLast, behindLast, hlast]
    simp only [hd, hn, ha, hall, Bool.false_eq_true, if_false, if_true]
    rfl

theorem binaryName_eq (before : List Char) {behind : List Char} (hbehind : behind.head? ≠ some 'a') :
    binaryName ("Binary files ".toList ++ before ++ andText ++ behind ++ " differ".toList) =
      if before.any isLineTerminator || behind.any isLineTerminator then none
      else some ((behindLast andText behind).getD behind) := by
  have hline : "Binary files ".toList ++ before ++ andText ++ behind ++ " differ".toList =
      "Binary files ".toList ++ (before ++ andText ++ behind ++ " differ".toList) := by
    simp only [List.append_assoc]
  have hsuffix : " differ".toList.isSuffixOf (before ++ andText ++ behind ++ " differ".toList) =
      true := List.isSuffixOf_iff_suffix.mpr ⟨_, rfl⟩
  have htake : (before ++ andText ++ behind ++ " differ".toList).take
      ((before ++ andText ++ behind ++ " differ".toList).length - " differ".toList.length) =
        before ++ andText ++ behind := by
    rw [List.length_append, Nat.add_sub_cancel, List.take_left]
  have hterminators : (before ++ andText ++ behind ++ " differ".toList).any isLineTerminator =
      (before.any isLineTerminator || behind.any isLineTerminator) := by
    have hand : andText.any isLineTerminator = false := by decide
    have hdiffer : " differ".toList.any isLineTerminator = false := by decide
    rw [List.any_append, List.any_append, List.any_append, hand, hdiffer, Bool.or_false,
      Bool.or_false]
  rw [hline, binaryName]
  simp only [startsWith_append, sliceBehind_append, hsuffix, hterminators, htake, Bool.true_and]
  rw [show " and ".toList = andText from rfl, behindLast_between before hbehind]
  cases before.any isLineTerminator || behind.any isLineTerminator <;> rfl

end Between

section Quoted

variable {text : List Char} {path : GitPath}

theorem includes_append_of_notMem {front : List Char} (h : ' ' ∉ front) (back : List Char) :
    includes (front ++ back) andText = includes back andText := by
  induction front with
  | nil => rfl
  | cons c front ih =>
    rw [List.mem_cons, not_or] at h
    have hfalse : andText.isPrefixOf (c :: (front ++ back)) = false := by
      simp [andText, List.isPrefixOf, h.1]
    rw [List.cons_append, includes_cons, hfalse, Bool.false_or, ih h.2]

theorem prefix_of_escaped {needle : List Char} (hneedle : needle.all isPlainChar = true)
    (h : needle <+: text.flatMap escapeChar ++ ['"']) : needle <+: text := by
  induction needle generalizing text with
  | nil => exact List.nil_prefix
  | cons d needle ih =>
    rw [List.all_cons, Bool.and_eq_true] at hneedle
    have hne (e : Char) (he : isPlainChar e = false) : d ≠ e := by
      rintro rfl
      rw [he] at hneedle
      cases hneedle.1
    cases text with
    | nil => exact absurd (List.cons_prefix_cons.mp h).1 (hne _ (by decide))
    | cons e text =>
      cases he : isPlainChar e with
      | true =>
        rw [List.flatMap_cons, escapeChar_plain he] at h
        obtain ⟨rfl, hrest⟩ := List.cons_prefix_cons.mp h
        exact List.cons_prefix_cons.mpr ⟨rfl, ih hneedle.2 hrest⟩
      | false =>
        obtain ⟨first, rest, heq, -⟩ := escapeChar_other he
        rw [List.flatMap_cons, heq] at h
        exact absurd (List.cons_prefix_cons.mp h).1 (hne _ (by decide))

theorem includes_of_escaped (h : includes (text.flatMap escapeChar ++ ['"']) andText = true) :
    includes text andText = true := by
  induction text with
  | nil => exact absurd h (by decide)
  | cons c text ih =>
    rw [includes_cons, Bool.or_eq_true]
    cases hc : isPlainChar c with
    | true =>
      rw [List.flatMap_cons, escapeChar_plain hc] at h
      rcases Bool.or_eq_true_iff.mp ((includes_cons c _).symm.trans h) with hbegins | hrest
      · refine Or.inl (List.isPrefixOf_iff_prefix.mpr (prefix_of_escaped (by decide) ?_))
        rw [List.flatMap_cons, escapeChar_plain hc]
        exact List.isPrefixOf_iff_prefix.mp hbegins
      · exact Or.inr (ih hrest)
    | false =>
      obtain ⟨first, rest, heq, hprinted⟩ := escapeChar_other hc
      have hspace : ' ' ∉ '\\' :: first :: rest := by
        rw [List.mem_cons, not_or]
        exact ⟨by decide, fun hmem => absurd (hprinted ' ' hmem) (by decide)⟩
      rw [List.flatMap_cons, heq, List.append_assoc, includes_append_of_notMem hspace] at h
      exact Or.inr (ih h)

def binaryPath (start : List Char) (name : Option (List Char)) : List Char :=
  match name with
  | some (c :: name) => stripImagePrefix (c :: name)
  | _ => start

theorem strip_suffix (text : List Char) : stripImagePrefix text <:+ text := by
  unfold stripImagePrefix
  split
  · exact List.suffix_refl text
  split
  · exact List.drop_suffix 2 text
  · exact List.suffix_refl text

theorem head_imageOf (path : GitPath) : (imageOf 'b' path).head? ≠ some 'a' := by
  unfold imageOf quotePath
  split
  · simp
  · simp

theorem binaryPath_quoted (hpath : path.text.all isPlainChar = false) {start : List Char}
    (hstart : start ≠ path.text) (name : Option (List Char))
    (hname : ∀ found ∈ name,
      found = (behindLast andText (imageOf 'b' path)).getD (imageOf 'b' path)) :
    binaryPath start name ≠ path.text := by
  have hall : ('b' :: '/' :: path.text).all isPlainChar = false :=
    (all_image (Or.inr rfl) path.text).trans hpath
  have hquoted : imageOf 'b' path =
      '"' :: (('b' :: '/' :: path.text).flatMap escapeChar ++ ['"']) := quotePath_other hall
  unfold binaryPath
  split
  · rename_i c found
    have hfound := hname _ rfl
    cases hbehind : behindLast andText (imageOf 'b' path) with
    | none =>
      rw [hbehind, Option.getD_none, hquoted] at hfound
      rw [hfound, strip_quoted, ← hquoted]
      intro heq
      have hlength := congrArg List.length heq
      have hle := length_escape_le ('b' :: '/' :: path.text)
      rw [hquoted, List.length_cons, List.length_append] at hlength
      simp only [List.length_cons] at hlength hle
      omega
    | some behind =>
      rw [hbehind, Option.getD_some] at hfound
      obtain ⟨hnone, -⟩ := behindLast_some hbehind
      intro heq
      -- The path has the word between names, and what is read of the quotes has not.
      have hincludes : includes path.text andText = true := by
        have himage : includes (imageOf 'b' path) andText = true := by
          refine Bool.eq_true_of_not_eq_false fun hnone => ?_
          rw [behindLast_eq_none_iff.mpr hnone] at hbehind
          cases hbehind
        have hquote : includes (imageOf 'b' path) andText =
            includes (('b' :: '/' :: path.text).flatMap escapeChar ++ ['"']) andText := by
          rw [hquoted]
          exact @includes_append_of_notMem ['"'] (by decide) _
        rw [hquote] at himage
        have hside : includes ('b' :: '/' :: path.text) andText = includes path.text andText :=
          @includes_append_of_notMem ['b', '/'] (by decide) _
        rw [← hside]
        exact includes_of_escaped himage
      have hsuffix := strip_suffix (c :: found)
      rw [heq, hfound] at hsuffix
      rw [includes_of_suffix hsuffix hincludes] at hnone
      cases hnone
  · exact hstart

/-- A path that is not in quotes is read where nothing in it looks like the word between names, and
where nothing is read it is what was there. -/
theorem binaryPath_plain (hpath : path.text.all isPlainChar = true) (start : List Char)
    (terminated : Bool) :
    binaryPath start (if terminated then none
        else some ((behindLast andText (imageOf 'b' path)).getD (imageOf 'b' path))) = path.text ↔
      (terminated = true ∨ andText.isSuffixOf path.text = true) ∧ start = path.text ∨
        terminated = false ∧ includes path.text andText = false := by
  have hall : ('b' :: '/' :: path.text).all isPlainChar = true :=
    (all_image (Or.inr rfl) path.text).trans hpath
  have himage : imageOf 'b' path = 'b' :: '/' :: path.text := quotePath_plain hall
  have hbehind : behindLast andText (imageOf 'b' path) = behindLast andText path.text := by
    rw [himage, behindLast, behindLast]
    cases behindLast andText path.text with
    | some behind => rfl
    | none => rfl
  cases terminated with
  | true => simp [binaryPath]
  | false =>
    simp only [Bool.false_eq_true, if_false, false_or, true_and, hbehind]
    cases hheld : behindLast andText path.text with
    | none =>
      have hnone := behindLast_eq_none_iff.mp hheld
      refine iff_of_true ?_ (Or.inr hnone)
      rw [Option.getD_none, himage]
      exact strip_image (Or.inr rfl) path.text
    | some behind =>
      have hincludes : includes path.text andText ≠ false := by
        intro hnone
        rw [behindLast_eq_none_iff.mpr hnone] at hheld
        cases hheld
      rw [Option.getD_some, or_iff_left hincludes, ← behindLast_eq_nil_iff, hheld]
      cases behind with
      | nil => simp [binaryPath]
      | cons c behind =>
        refine iff_of_false (fun heq => ?_) (by simp)
        have hlt := (behindLast_some hheld).2
        have hle := (strip_suffix (c :: behind)).length_le
        have hlength : (stripImagePrefix (c :: behind)).length = path.text.length :=
          congrArg List.length heq
        omega

end Quoted

end Execution
