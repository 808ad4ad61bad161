import Mathlib.Tactic.Ring
import AtriumVerified.Lib.Text

/-!
# Decimal digits in a fixed width

Numbers written with leading zeros in one width sort as strings the way they sort as numbers.
-/

namespace Js

/-! ## Lexicographic order of concatenations -/

theorem append_lt_append_iff {a b x y : List Nat} (h : a.length = b.length) :
    a ++ x < b ++ y ↔ a < b ∨ a = b ∧ x < y := by
  induction a generalizing b with
  | nil =>
    have hb : b = [] := List.length_eq_zero_iff.mp h.symm
    subst hb
    simp
  | cons m a ih =>
    cases b with
    | nil => simp at h
    | cons n b =>
      have hlen : a.length = b.length := by simpa using h
      rw [List.cons_append, List.cons_append, List.cons_lt_cons_iff, List.cons_lt_cons_iff, ih hlen]
      constructor
      · rintro (hmn | ⟨rfl, hab | ⟨rfl, hxy⟩⟩)
        · exact Or.inl (Or.inl hmn)
        · exact Or.inl (Or.inr ⟨rfl, hab⟩)
        · exact Or.inr ⟨rfl, hxy⟩
      · rintro ((hmn | ⟨rfl, hab⟩) | ⟨heq, hxy⟩)
        · exact Or.inl hmn
        · exact Or.inr ⟨rfl, Or.inl hab⟩
        · cases heq
          exact Or.inr ⟨rfl, Or.inr ⟨rfl, hxy⟩⟩

/-! ## Digits and the numbers they write -/

theorem isDigit_iff {c : Char} : isDigit c = true ↔ 48 ≤ c.toNat ∧ c.toNat ≤ 57 := by
  unfold isDigit
  rw [Bool.and_eq_true, decide_eq_true_eq, decide_eq_true_eq]
  exact Iff.rfl

theorem numberOf_eq (digits : List Char) : numberOf digits = Nat.ofDigitChars 10 digits 0 := rfl

theorem numberOf_cons (c : Char) (digits : List Char) :
    numberOf (c :: digits) = 10 ^ digits.length * digitValue c + numberOf digits := by
  rw [numberOf_eq, numberOf_eq, Nat.ofDigitChars_cons, Nat.ofDigitChars_eq_ofDigitChars_zero,
    Nat.mul_zero, Nat.zero_add]
  rfl

theorem numberOf_append (a b : List Char) :
    numberOf (a ++ b) = 10 ^ b.length * numberOf a + numberOf b := by
  rw [numberOf_eq, numberOf_eq, numberOf_eq, Nat.ofDigitChars_append,
    Nat.ofDigitChars_eq_ofDigitChars_zero]

theorem digitValue_lt {c : Char} (h : isDigit c = true) : digitValue c < 10 := by
  have hrange := isDigit_iff.mp h
  have hzero : '0'.toNat = 48 := rfl
  unfold digitValue
  omega

theorem numberOf_lt {digits : List Char} (h : ∀ c ∈ digits, isDigit c = true) :
    numberOf digits < 10 ^ digits.length := by
  induction digits with
  | nil => decide
  | cons c digits ih =>
    have hc := digitValue_lt (h c List.mem_cons_self)
    have hrest := ih fun d hd => h d (List.mem_cons_of_mem _ hd)
    rw [numberOf_cons, List.length_cons, Nat.pow_succ]
    have hle : 10 ^ digits.length * digitValue c ≤ 10 ^ digits.length * 9 :=
      Nat.mul_le_mul_left _ (by omega)
    omega

/-- In one width, digits sort as the numbers they write. -/
theorem digits_lt_iff {a b : List Char} (hlen : a.length = b.length)
    (ha : ∀ c ∈ a, isDigit c = true) (hb : ∀ c ∈ b, isDigit c = true) :
    a.map Char.toNat < b.map Char.toNat ↔ numberOf a < numberOf b := by
  induction a generalizing b with
  | nil =>
    have hnil : b = [] := List.length_eq_zero_iff.mp hlen.symm
    subst hnil
    simp
  | cons c a ih =>
    cases b with
    | nil => simp at hlen
    | cons d b =>
      have hlen' : a.length = b.length := by simpa using hlen
      have ha' : ∀ c ∈ a, isDigit c = true := fun x hx => ha x (List.mem_cons_of_mem _ hx)
      have hb' : ∀ c ∈ b, isDigit c = true := fun x hx => hb x (List.mem_cons_of_mem _ hx)
      have hc := isDigit_iff.mp (ha c List.mem_cons_self)
      have hd := isDigit_iff.mp (hb d List.mem_cons_self)
      have hzero : '0'.toNat = 48 := rfl
      have hna := numberOf_lt ha'
      have hnb := numberOf_lt hb'
      rw [hlen'] at hna
      rw [List.map_cons, List.map_cons, List.cons_lt_cons_iff, ih hlen' ha' hb', numberOf_cons,
        numberOf_cons, hlen']
      unfold digitValue
      rcases Nat.lt_trichotomy c.toNat d.toNat with hlt | heq | hgt
      · have hstep : 10 ^ b.length * (c.toNat - '0'.toNat) + 10 ^ b.length ≤
            10 ^ b.length * (d.toNat - '0'.toNat) := by
          rw [← Nat.mul_succ]
          exact Nat.mul_le_mul_left _ (by omega)
        constructor
        · intro _
          omega
        · intro _
          exact Or.inl hlt
      · rw [heq]
        constructor
        · rintro (hlt | ⟨-, hlt⟩)
          · omega
          · omega
        · intro hlt
          exact Or.inr ⟨rfl, by omega⟩
      · have hstep : 10 ^ b.length * (d.toNat - '0'.toNat) + 10 ^ b.length ≤
            10 ^ b.length * (c.toNat - '0'.toNat) := by
          rw [← Nat.mul_succ]
          exact Nat.mul_le_mul_left _ (by omega)
        constructor
        · rintro (hlt | ⟨heq, -⟩)
          · omega
          · omega
        · intro hlt
          omega

/-- In one width, a number has one spelling. -/
theorem digits_inj {a b : List Char} (hlen : a.length = b.length)
    (ha : ∀ c ∈ a, isDigit c = true) (hb : ∀ c ∈ b, isDigit c = true)
    (h : numberOf a = numberOf b) : a = b := by
  have hab := digits_lt_iff hlen ha hb
  have hba := digits_lt_iff hlen.symm hb ha
  have hmap : a.map Char.toNat = b.map Char.toNat := by
    refine List.le_antisymm ?_ ?_
    · intro hlt
      have hn := hba.mp hlt
      omega
    · intro hlt
      have hn := hab.mp hlt
      omega
  exact List.map_injective_iff.mpr (fun c d hcd => Char.toNat_inj.mp hcd) hmap

/-! ## Leading zeros -/

def padded (width n : Nat) : List Char := padStart width '0' (toString n).toList

theorem padded_length (width n : Nat) (hw : 0 < width) (h : n < 10 ^ width) :
    (padded width n).length = width := by
  have htext : (toString n).toList = Nat.toDigits 10 n := Nat.toList_repr
  have hlen : (toString n).toList.length ≤ width := by
    rw [htext]
    exact (Nat.length_toDigits_le_iff (by decide) hw).mpr h
  unfold padded padStart
  rw [List.length_append, List.length_replicate]
  omega

theorem padded_digits (width n : Nat) : ∀ c ∈ padded width n, isDigit c = true := by
  intro c hc
  rw [isDigit_iff]
  unfold padded padStart at hc
  rcases List.mem_append.mp hc with hzero | hdigit
  · rw [List.eq_of_mem_replicate hzero]
    decide
  · have htext : (toString n).toList = Nat.toDigits 10 n := Nat.toList_repr
    rw [htext] at hdigit
    have hd := Nat.isDigit_of_mem_toDigits (by decide) (by decide) hdigit
    unfold Char.isDigit at hd
    rw [Bool.and_eq_true, decide_eq_true_eq, decide_eq_true_eq, ge_iff_le,
      UInt32.le_iff_toNat_le, UInt32.le_iff_toNat_le] at hd
    exact hd

theorem padded_units {width n : Nat} {c : Char} (hc : c ∈ padded width n) : c.toNat < 0x10000 := by
  have hrange := isDigit_iff.mp (padded_digits width n c hc)
  omega

theorem numberOf_padded (width n : Nat) : numberOf (padded width n) = n := by
  unfold padded padStart
  have htext : (toString n).toList = Nat.toDigits 10 n := Nat.toList_repr
  rw [numberOf_eq, Nat.ofDigitChars_append, Nat.ofDigitChars_replicate_zero, Nat.mul_zero, htext,
    Nat.ofDigitChars_ten_toDigits]

/-- Numbers written in one width sort as numbers, and then by what follows them. -/
theorem padded_append_lt_iff {width m n : Nat} (hwidth : 0 < width) (hm : m < 10 ^ width)
    (hn : n < 10 ^ width) (x y : List Char) :
    (padded width m ++ x).map Char.toNat < (padded width n ++ y).map Char.toNat ↔
      m < n ∨ m = n ∧ x.map Char.toNat < y.map Char.toNat := by
  have hmlen := padded_length width m hwidth hm
  have hnlen := padded_length width n hwidth hn
  have hdigits := digits_lt_iff (hmlen.trans hnlen.symm) (padded_digits _ _) (padded_digits _ _)
  rw [numberOf_padded, numberOf_padded] at hdigits
  have hsame : (padded width m).map Char.toNat = (padded width n).map Char.toNat ↔ m = n := by
    constructor
    · intro heq
      have hchars := List.map_injective_iff.mpr (fun c d hcd => Char.toNat_inj.mp hcd) heq
      have hnumber := congrArg numberOf hchars
      rwa [numberOf_padded, numberOf_padded] at hnumber
    · intro heq
      rw [heq]
  rw [List.map_append, List.map_append,
    append_lt_append_iff (by rw [List.length_map, List.length_map, hmlen, hnlen]), hdigits, hsame]

theorem padded_cons_lt_iff {width m n : Nat} (hwidth : 0 < width) (hm : m < 10 ^ width)
    (hn : n < 10 ^ width) (c : Char) (x y : List Char) :
    (padded width m ++ c :: x).map Char.toNat < (padded width n ++ c :: y).map Char.toNat ↔
      m < n ∨ m = n ∧ x.map Char.toNat < y.map Char.toNat := by
  rw [padded_append_lt_iff hwidth hm hn, List.map_cons, List.map_cons, List.cons_lt_cons_iff]
  simp only [lt_irrefl, false_or, true_and]

/-! ## Code units -/

theorem utf16_ofList {text : List Char} (h : ∀ c ∈ text, c.toNat < 0x10000) :
    utf16 (String.ofList text) = text.map Char.toNat := by
  unfold utf16
  rw [String.toList_ofList]
  induction text with
  | nil => rfl
  | cons c text ih =>
    have hc := h c List.mem_cons_self
    have hrest := ih fun d hd => h d (List.mem_cons_of_mem _ hd)
    rw [List.flatMap_cons, hrest, List.map_cons]
    unfold utf16Units
    rw [if_pos hc]
    rfl

/-! ## Texts that carry their length -/

theorem utf16Units_pos (c : Char) : 0 < (utf16Units c).length := by
  unfold utf16Units
  split
  · exact Nat.one_pos
  · exact Nat.two_pos

theorem length_cons (c : Char) (text : List Char) :
    length (c :: text) = (utf16Units c).length + length text := by
  unfold length
  rw [List.flatMap_cons, List.length_append]

/-- Two texts of one length that begin the same are the same beginning. -/
theorem append_inj_of_length {a b x y : List Char} (h : a ++ x = b ++ y)
    (hlen : length a = length b) : a = b ∧ x = y := by
  induction a generalizing b with
  | nil =>
    cases b with
    | nil => exact ⟨rfl, h⟩
    | cons d b =>
      have hpos := utf16Units_pos d
      have hzero : length ([] : List Char) = 0 := rfl
      rw [length_cons] at hlen
      omega
  | cons c a ih =>
    cases b with
    | nil =>
      have hpos := utf16Units_pos c
      have hzero : length ([] : List Char) = 0 := rfl
      rw [length_cons] at hlen
      omega
    | cons d b =>
      rw [List.cons_append, List.cons_append, List.cons.injEq] at h
      obtain ⟨rfl, h⟩ := h
      rw [length_cons, length_cons] at hlen
      obtain ⟨rfl, hxy⟩ := ih h (by omega)
      exact ⟨rfl, hxy⟩

def sized (text : List Char) : List Char := Nat.toDigits 10 (length text) ++ ':' :: text

theorem colon_notMem_toDigits (n : Nat) : ':' ∉ Nat.toDigits 10 n := by
  intro h
  have hdigit := Nat.isDigit_of_mem_toDigits (by decide) (by decide) h
  cases hdigit

/-- A list is cut at the first occurrence of an element in one way. -/
theorem append_cons_inj {α : Type} {c : α} {a b x y : List α} (ha : c ∉ a) (hb : c ∉ b)
    (h : a ++ c :: x = b ++ c :: y) : a = b ∧ x = y := by
  induction a generalizing b with
  | nil =>
    cases b with
    | nil => exact ⟨rfl, (List.cons.inj h).2⟩
    | cons d b =>
      obtain ⟨rfl, -⟩ := List.cons.inj h
      exact absurd List.mem_cons_self hb
  | cons d a ih =>
    cases b with
    | nil =>
      obtain ⟨rfl, -⟩ := List.cons.inj h
      exact absurd List.mem_cons_self ha
    | cons e b =>
      obtain ⟨rfl, hrest⟩ := List.cons.inj h
      obtain ⟨rfl, hxy⟩ := ih (fun hc => ha (List.mem_cons_of_mem _ hc))
        (fun hc => hb (List.mem_cons_of_mem _ hc)) hrest
      exact ⟨rfl, hxy⟩

/-- What follows a text that carries its length can be told from it. -/
theorem sized_append_inj {a b x y : List Char} (h : sized a ++ x = sized b ++ y) :
    a = b ∧ x = y := by
  unfold sized at h
  rw [List.append_assoc, List.append_assoc, List.cons_append, List.cons_append] at h
  obtain ⟨hdigits, hrest⟩ :=
    append_cons_inj (colon_notMem_toDigits _) (colon_notMem_toDigits _) h
  have hlen : length a = length b := by
    have hnumber := congrArg (fun digits => Nat.ofDigitChars 10 digits 0) hdigits
    simpa using hnumber
  exact append_inj_of_length hrest hlen

end Js
