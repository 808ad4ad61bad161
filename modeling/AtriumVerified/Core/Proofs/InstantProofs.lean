import AtriumVerified.Core.Common

/-!
# Canonical timestamps and the instants they name

`CANONICAL_TIMESTAMP` is a pattern over characters. What it accepts is exactly the texts of the dates
of the years 0 to 9999, and on these texts the order of `instantKey` is the order of the instants.
-/

namespace Core

open Js Calendar

/-! ## Digits -/

theorem padded_two {n : Nat} (h : n < 100) : ∃ a b, padded 2 n = [a, b] ∧ isDigit a = true ∧
    isDigit b = true ∧ numberOf [a, b] = n := by
  have hlen := padded_length 2 n (by decide) h
  have hdigits := padded_digits 2 n
  have hnumber := numberOf_padded 2 n
  obtain ⟨a, b, heq⟩ := List.length_eq_two.mp hlen
  rw [heq] at hdigits hnumber
  exact ⟨a, b, heq, hdigits a (by simp), hdigits b (by simp), hnumber⟩

theorem padded_three {n : Nat} (h : n < 1000) : ∃ a b c, padded 3 n = [a, b, c] ∧
    isDigit a = true ∧ isDigit b = true ∧ isDigit c = true ∧ numberOf [a, b, c] = n := by
  have hlen := padded_length 3 n (by decide) h
  have hdigits := padded_digits 3 n
  have hnumber := numberOf_padded 3 n
  obtain ⟨a, b, c, heq⟩ := List.length_eq_three.mp hlen
  rw [heq] at hdigits hnumber
  exact ⟨a, b, c, heq, hdigits a (by simp), hdigits b (by simp), hdigits c (by simp), hnumber⟩

theorem padded_four {n : Nat} (h : n < 10000) : ∃ a b c d, padded 4 n = [a, b, c, d] ∧
    isDigit a = true ∧ isDigit b = true ∧ isDigit c = true ∧ isDigit d = true ∧
    numberOf [a, b, c, d] = n := by
  have hlen := padded_length 4 n (by decide) h
  have hdigits := padded_digits 4 n
  have hnumber := numberOf_padded 4 n
  match heq : padded 4 n, hlen with
  | [a, b, c, d], _ =>
    rw [heq] at hdigits hnumber
    exact ⟨a, b, c, d, rfl, hdigits a (by simp), hdigits b (by simp), hdigits c (by simp),
      hdigits d (by simp), hnumber⟩

theorem padded_numberOf {width : Nat} {digits : List Char} (hpos : 0 < width)
    (hlen : digits.length = width) (h : ∀ c ∈ digits, isDigit c = true) :
    padded width (numberOf digits) = digits := by
  have hlt := numberOf_lt h
  rw [hlen] at hlt
  have hwidth := padded_length width (numberOf digits) hpos hlt
  exact digits_inj (hwidth.trans hlen.symm) (padded_digits _ _) h (numberOf_padded _ _)

theorem padded_pair {a b : Char} (ha : isDigit a = true) (hb : isDigit b = true) :
    padded 2 (numberOf [a, b]) = [a, b] :=
  padded_numberOf (by decide) rfl (by simp [ha, hb])

/-! ## The parts of the pattern -/

theorem char_le_iff {a b : Char} : a ≤ b ↔ a.toNat ≤ b.toNat := Iff.rfl

theorem char_beq_iff {a b : Char} : (a == b) = true ↔ a.toNat = b.toNat := by
  rw [beq_iff_eq, Char.toNat_inj]

theorem numberOf_two (a b : Char) : numberOf [a, b] = 10 * (a.toNat - 48) + (b.toNat - 48) := by
  simp [numberOf, digitValue]

theorem hour_iff {a b : Char} :
    (((a == '0' || a == '1') && isDigit b) || (a == '2' && '0' ≤ b && b ≤ '3')) = true ↔
      isDigit a = true ∧ isDigit b = true ∧ numberOf [a, b] < 24 := by
  simp only [Bool.or_eq_true, Bool.and_eq_true, decide_eq_true_eq, char_beq_iff, char_le_iff,
    isDigit_iff, numberOf_two, Char.reduceToNat]
  omega

theorem sixty_iff {a b : Char} :
    (('0' ≤ a && a ≤ '5') && isDigit b) = true ↔
      isDigit a = true ∧ isDigit b = true ∧ numberOf [a, b] < 60 := by
  simp only [Bool.and_eq_true, decide_eq_true_eq, char_le_iff, isDigit_iff, numberOf_two,
    Char.reduceToNat]
  omega

theorem digit_eq {c : Char} (h : isDigit c = true) :
    ∃ n : Fin 10, c = Char.ofNat (48 + n) ∧ digitValue c = n := by
  obtain ⟨hlow, hhigh⟩ := isDigit_iff.mp h
  refine ⟨⟨c.toNat - 48, by omega⟩, ?_, rfl⟩
  have hsum : 48 + (c.toNat - 48) = c.toNat := by omega
  show c = Char.ofNat (48 + (c.toNat - 48))
  rw [hsum, Char.ofNat_toNat]

theorem digits_test (test : Char → Char → Bool) (number : Nat → Bool)
    (h : ∀ m n : Fin 10,
      test (Char.ofNat (48 + m)) (Char.ofNat (48 + n)) = number (10 * m.val + n.val))
    {a b : Char} (ha : isDigit a = true) (hb : isDigit b = true) :
    test a b = number (numberOf [a, b]) := by
  obtain ⟨m, rfl, hm⟩ := digit_eq ha
  obtain ⟨n, rfl, hn⟩ := digit_eq hb
  rw [h m n]
  simp [numberOf, hm, hn]

theorem leapDigits_eq {a b c d : Char} (ha : isDigit a = true) (hb : isDigit b = true)
    (hc : isDigit c = true) (hd : isDigit d = true) :
    leapDigits a b c d = leapYear (numberOf [a, b, c, d]) := by
  have hyear : numberOf [a, b, c, d] = 100 * numberOf [a, b] + numberOf [c, d] :=
    numberOf_append [a, b] [c, d]
  have hshort := digits_test
    (fun c d => ("2468".toList.contains c && "048".toList.contains d) ||
      ("13579".toList.contains c && "26".toList.contains d) || (c == '0' && "48".toList.contains d))
    (fun n => n % 4 == 0 && n != 0) (by decide) hc hd
  have hcentury := digits_test
    (fun a b => ("02468".toList.contains a && "048".toList.contains b) ||
      ("13579".toList.contains a && "26".toList.contains b)) (fun n => n % 4 == 0) (by decide) ha hb
  have hzero := digits_test (fun c d => c == '0' && d == '0') (fun n => n == 0) (by decide) hc hd
  have hsmall : numberOf [c, d] < 100 := numberOf_lt (by simp [hc, hd])
  have hsplit : leapDigits a b c d =
      ((numberOf [c, d] % 4 == 0 && numberOf [c, d] != 0) ||
        (numberOf [a, b] % 4 == 0 && numberOf [c, d] == 0)) := by
    rw [← hshort, ← hcentury, ← hzero]
    simp only [leapDigits, Bool.and_or_distrib_right, Bool.or_assoc, Bool.and_assoc]
  rw [hsplit, hyear, Bool.eq_iff_iff]
  unfold leapYear
  simp only [Bool.and_eq_true, Bool.or_eq_true, beq_iff_eq, bne_iff_ne, ne_eq]
  omega

theorem isDigit_of_contains {text : List Char} (hall : text.all isDigit = true) {c : Char}
    (h : text.contains c = true) : isDigit c = true :=
  List.all_eq_true.mp hall c (List.contains_iff_mem.mp h)

theorem dayTo29_digits {a b : Char} (h : dayTo29 a b = true) :
    isDigit a = true ∧ isDigit b = true := by
  simp only [dayTo29, Bool.or_eq_true, Bool.and_eq_true, decide_eq_true_eq, char_beq_iff,
    char_le_iff, isDigit_iff, Char.reduceToNat] at h ⊢
  omega

theorem monthDay_digits {m1 m2 d1 d2 : Char} (h : monthDay m1 m2 d1 d2 = true) :
    (isDigit m1 = true ∧ isDigit m2 = true) ∧ isDigit d1 = true ∧ isDigit d2 = true := by
  simp only [monthDay, Bool.or_eq_true, Bool.and_eq_true, beq_iff_eq] at h
  rcases h with (⟨hmonth, hday⟩ | ⟨hmonth, hday⟩) | ⟨⟨rfl, rfl⟩, hday, -⟩
  · refine ⟨?_, ?_⟩
    · rcases hmonth with ⟨rfl, hm⟩ | ⟨rfl, hm⟩
      · exact ⟨rfl, isDigit_of_contains rfl hm⟩
      · exact ⟨rfl, isDigit_of_contains rfl hm⟩
    · rcases hday with hd | ⟨rfl, hd⟩
      · exact dayTo29_digits hd
      · exact ⟨rfl, isDigit_of_contains rfl hd⟩
  · refine ⟨?_, ?_⟩
    · rcases hmonth with ⟨rfl, hm⟩ | ⟨rfl, rfl⟩
      · exact ⟨rfl, isDigit_of_contains rfl hm⟩
      · exact ⟨rfl, rfl⟩
    · rcases hday with hd | ⟨rfl, rfl⟩
      · exact dayTo29_digits hd
      · exact ⟨rfl, rfl⟩
  · exact ⟨⟨rfl, rfl⟩, dayTo29_digits hday⟩

theorem monthDay_iff (leap : Bool) {m1 m2 d1 d2 : Char} (hm1 : isDigit m1 = true)
    (hm2 : isDigit m2 = true) (hd1 : isDigit d1 = true) (hd2 : isDigit d2 = true) :
    ((leap && m1 == '0' && m2 == '2' && d1 == '2' && d2 == '9') || monthDay m1 m2 d1 d2) = true ↔
      (1 ≤ numberOf [m1, m2] ∧ numberOf [m1, m2] ≤ 12) ∧
        1 ≤ numberOf [d1, d2] ∧ numberOf [d1, d2] ≤ daysInMonth leap (numberOf [m1, m2] - 1) := by
  have hlong := digits_test (fun a b => (a == '0' && "13578".toList.contains b) ||
      (a == '1' && "02".toList.contains b)) (fun n => [1, 3, 5, 7, 8, 10, 12].contains n)
    (by decide) hm1 hm2
  have hshort := digits_test (fun a b => (a == '0' && "469".toList.contains b) ||
      (a == '1' && b == '1')) (fun n => [4, 6, 9, 11].contains n) (by decide) hm1 hm2
  have hfebruary := digits_test (fun a b => a == '0' && b == '2') (fun n => n == 2) (by decide)
    hm1 hm2
  have hday29 := digits_test dayTo29 (fun n => decide (1 ≤ n) && decide (n ≤ 29)) (by decide) hd1 hd2
  have hday31 := digits_test (fun a b => a == '3' && "01".toList.contains b)
    (fun n => n == 30 || n == 31) (by decide) hd1 hd2
  have hday30 := digits_test (fun a b => a == '3' && b == '0') (fun n => n == 30) (by decide) hd1 hd2
  have hlast := digits_test (fun a b => a == '2' && b == '9') (fun n => n == 29) (by decide) hd1 hd2
  have hsplit : ((leap && m1 == '0' && m2 == '2' && d1 == '2' && d2 == '9') ||
      monthDay m1 m2 d1 d2) = ((leap && (m1 == '0' && m2 == '2') && (d1 == '2' && d2 == '9')) ||
        monthDay m1 m2 d1 d2) := by
    simp only [Bool.and_assoc]
  rw [hsplit]
  unfold monthDay
  rw [hlong, hshort, hday29, hday31, hday30, hlast, hfebruary]
  generalize numberOf [m1, m2] = month
  generalize numberOf [d1, d2] = day
  by_cases hmonth : 1 ≤ month ∧ month ≤ 12
  · obtain ⟨hlow, hhigh⟩ := hmonth
    interval_cases month <;> cases leap <;> simp [daysInMonth] <;> omega
  · simp
    omega

/-! ## The texts of dates -/

theorem day_lt {d : DateTime} (h : d.Valid) : d.day < 100 := by
  have hle := h.day.2
  have hmonth : daysInMonth (leapYear d.year) (d.month - 1) ≤ 31 := by
    unfold daysInMonth
    split
    · split <;> omega
    all_goals omega
  omega

theorem isoText_chars {d : DateTime} (h : d.Valid) : ∃ y1 y2 y3 y4 m1 m2 d1 d2 h1 h2 n1 n2 s1 s2 f1
    f2 f3, d.isoText = [y1, y2, y3, y4, '-', m1, m2, '-', d1, d2, 'T', h1, h2, ':', n1, n2, ':', s1,
      s2, '.', f1, f2, f3, 'Z'] ∧
    (∀ c ∈ [y1, y2, y3, y4, m1, m2, d1, d2, h1, h2, n1, n2, s1, s2, f1, f2, f3],
      isDigit c = true) ∧
    numberOf [y1, y2, y3, y4] = d.year ∧ numberOf [m1, m2] = d.month ∧ numberOf [d1, d2] = d.day ∧
    numberOf [h1, h2] = d.hour ∧ numberOf [n1, n2] = d.minute ∧ numberOf [s1, s2] = d.second ∧
    padded 3 d.millisecond = [f1, f2, f3] := by
  obtain ⟨y1, y2, y3, y4, hy, hy1, hy2, hy3, hy4, hyear⟩ := padded_four h.year
  obtain ⟨m1, m2, hm, hm1, hm2, hmonth⟩ := padded_two (n := d.month) (by have := h.month; omega)
  obtain ⟨d1, d2, hd, hd1, hd2, hdate⟩ := padded_two (day_lt h)
  obtain ⟨h1, h2, hh, hh1, hh2, hhour⟩ := padded_two (n := d.hour) (by have := h.hour; omega)
  obtain ⟨n1, n2, hn, hn1, hn2, hminute⟩ := padded_two (n := d.minute) (by have := h.minute; omega)
  obtain ⟨s1, s2, hs, hs1, hs2, hsecond⟩ := padded_two (n := d.second) (by have := h.second; omega)
  obtain ⟨f1, f2, f3, hf, hf1, hf2, hf3, -⟩ := padded_three h.millisecond
  refine ⟨y1, y2, y3, y4, m1, m2, d1, d2, h1, h2, n1, n2, s1, s2, f1, f2, f3, ?_, ?_, hyear, hmonth,
    hdate, hhour, hminute, hsecond, hf⟩
  · unfold DateTime.isoText
    rw [hy, hm, hd, hh, hn, hs, hf]
    rfl
  · simp [hy1, hy2, hy3, hy4, hm1, hm2, hd1, hd2, hh1, hh2, hn1, hn2, hs1, hs2, hf1, hf2, hf3]

theorem isoText_ascii {d : DateTime} : ∀ c ∈ d.isoText, c.toNat < 0x10000 := by
  intro c hc
  unfold DateTime.isoText at hc
  simp only [List.mem_append, List.mem_cons, List.not_mem_nil, or_false] at hc
  rcases hc with hc | rfl | hc | rfl | hc | rfl | hc | rfl | hc | rfl | hc | rfl | hc | rfl
  all_goals first | exact padded_units hc | decide

theorem isoText_lt_iff {d e : DateTime} (hd : d.Valid) (he : e.Valid) :
    d.isoText.map Char.toNat < e.isoText.map Char.toNat ↔ d.Earlier e := by
  have hdmonth : d.month < 10 ^ 2 := by
    have hmonth := hd.month
    omega
  have hemonth : e.month < 10 ^ 2 := by
    have hmonth := he.month
    omega
  have hwide {n bound : Nat} (hn : n < bound) (hbound : bound ≤ 10 ^ 2) : n < 10 ^ 2 :=
    lt_of_lt_of_le hn hbound
  rw [DateTime.earlier_iff]
  unfold DateTime.isoText
  rw [padded_cons_lt_iff (by decide) hd.year he.year,
    padded_cons_lt_iff (by decide) hdmonth hemonth,
    padded_cons_lt_iff (by decide) (day_lt hd) (day_lt he),
    padded_cons_lt_iff (by decide) (hwide hd.hour (by decide)) (hwide he.hour (by decide)),
    padded_cons_lt_iff (by decide) (hwide hd.minute (by decide)) (hwide he.minute (by decide)),
    padded_cons_lt_iff (by decide) (hwide hd.second (by decide)) (hwide he.second (by decide)),
    padded_append_lt_iff (by decide) hd.millisecond he.millisecond]
  have hirrefl : ¬ ['Z'].map Char.toNat < ['Z'].map Char.toNat := List.lt_irrefl _
  simp only [hirrefl, and_false, or_false]

theorem utf16_isoText {text : String} {d : DateTime} (heq : text.toList = d.isoText) :
    utf16 text = d.isoText.map Char.toNat := by
  rw [← utf16_ofList isoText_ascii, ← heq, String.ofList_toList]

theorem canonicalTimestamp_isoText {text : String} {d : DateTime} (h : d.Valid)
    (heq : text.toList = d.isoText) : canonicalTimestamp text = true := by
  obtain ⟨y1, y2, y3, y4, m1, m2, d1, d2, h1, h2, n1, n2, s1, s2, f1, f2, f3, hchars, hdigits, hyear,
    hmonth, hday, hhour, hminute, hsecond, -⟩ := isoText_chars h
  simp only [List.mem_cons, List.not_mem_nil, or_false, forall_eq_or_imp, forall_eq] at hdigits
  obtain ⟨hy1, hy2, hy3, hy4, hm1, hm2, hd1, hd2, hh1, hh2, hn1, hn2, hs1, hs2, hf1, hf2, hf3⟩ :=
    hdigits
  have hdate := (monthDay_iff (leapDigits y1 y2 y3 y4) hm1 hm2 hd1 hd2).mpr (by
    rw [leapDigits_eq hy1 hy2 hy3 hy4, hyear, hmonth, hday]
    exact ⟨h.month, h.day⟩)
  have hclock := hour_iff.mpr ⟨hh1, hh2, hhour ▸ h.hour⟩
  have hminutes := sixty_iff.mpr ⟨hn1, hn2, hminute ▸ h.minute⟩
  have hseconds := sixty_iff.mpr ⟨hs1, hs2, hsecond ▸ h.second⟩
  unfold canonicalTimestamp
  rw [heq, hchars]
  dsimp only
  rw [hdate, hclock]
  simp only [Bool.and_eq_true] at hminutes hseconds
  simp only [List.all_cons, List.all_nil, hy1, hy2, hy3, hy4, hf1, hf2, hf3, hminutes, hseconds,
    beq_self_eq_true, Bool.and_self]

theorem exists_date {text : String} (h : canonicalTimestamp text = true) :
    ∃ d : DateTime, d.Valid ∧ text.toList = d.isoText := by
  unfold canonicalTimestamp at h
  split at h
  case h_2 => cases h
  case h_1 y1 y2 y3 y4 c1 m1 m2 c2 d1 d2 c3 h1 h2 c4 n1 n2 c5 s1 s2 c6 f1 f2 f3 c7 heq =>
    simp only [Bool.and_eq_true, beq_iff_eq, List.all_cons, List.all_nil] at h
    obtain ⟨⟨⟨⟨⟨⟨⟨⟨⟨⟨⟨⟨⟨⟨rfl, rfl⟩, rfl⟩, rfl⟩, rfl⟩, rfl⟩, rfl⟩, hy1, hy2, hy3, hy4, -⟩, hdate⟩, hhour⟩,
      hn1⟩, hn2⟩, hs1⟩, hs2⟩, hf1, hf2, hf3, -⟩ := h
    have hmonthDigits : (isDigit m1 = true ∧ isDigit m2 = true) ∧
        isDigit d1 = true ∧ isDigit d2 = true := by
      rcases Bool.or_eq_true _ _ ▸ hdate with hleap | hmonthDay
      · simp only [Bool.and_eq_true, beq_iff_eq] at hleap
        obtain ⟨⟨⟨⟨-, rfl⟩, rfl⟩, rfl⟩, rfl⟩ := hleap
        exact ⟨⟨rfl, rfl⟩, rfl, rfl⟩
      · exact monthDay_digits hmonthDay
    obtain ⟨⟨hm1, hm2⟩, hd1, hd2⟩ := hmonthDigits
    obtain ⟨hmonth, hday⟩ := (monthDay_iff (leapDigits y1 y2 y3 y4) hm1 hm2 hd1 hd2).mp hdate
    rw [leapDigits_eq hy1 hy2 hy3 hy4] at hday
    obtain ⟨hh1, hh2, hhour⟩ := hour_iff.mp hhour
    obtain ⟨hn1, hn2, hminute⟩ := sixty_iff.mp (by
      rw [Bool.and_eq_true, Bool.and_eq_true]
      exact ⟨hn1, hn2⟩)
    obtain ⟨hs1, hs2, hsecond⟩ := sixty_iff.mp (by
      rw [Bool.and_eq_true, Bool.and_eq_true]
      exact ⟨hs1, hs2⟩)
    have hyear : numberOf [y1, y2, y3, y4] < 10 ^ 4 := numberOf_lt (by simp [hy1, hy2, hy3, hy4])
    have hmillis : numberOf [f1, f2, f3] < 10 ^ 3 := numberOf_lt (by simp [hf1, hf2, hf3])
    refine ⟨⟨numberOf [y1, y2, y3, y4], numberOf [m1, m2], numberOf [d1, d2], numberOf [h1, h2],
      numberOf [n1, n2], numberOf [s1, s2], numberOf [f1, f2, f3]⟩, ?_, ?_⟩
    · exact ⟨by simpa using hyear, hmonth, hday, hhour, hminute, hsecond, by simpa using hmillis⟩
    · have hy : padded 4 (numberOf [y1, y2, y3, y4]) = [y1, y2, y3, y4] :=
        padded_numberOf (by decide) rfl (by simp [hy1, hy2, hy3, hy4])
      have hf : padded 3 (numberOf [f1, f2, f3]) = [f1, f2, f3] :=
        padded_numberOf (by decide) rfl (by simp [hf1, hf2, hf3])
      unfold DateTime.isoText
      rw [heq, hy, padded_pair hm1 hm2, padded_pair hd1 hd2, padded_pair hh1 hh2,
        padded_pair hn1 hn2, padded_pair hs1 hs2, hf]
      rfl

/-! ## The instants -/

theorem isoInstant_isoText {d : DateTime} (h : d.Valid) :
    isoInstant d.isoText = some ⟨d.year, d.month, d.day, d.hour, d.minute, d.second,
      padded 3 d.millisecond, 0⟩ := by
  obtain ⟨y1, y2, y3, y4, m1, m2, d1, d2, h1, h2, n1, n2, s1, s2, f1, f2, f3, hchars, hdigits, hyear,
    hmonth, hday, hhour, hminute, hsecond, hfraction⟩ := isoText_chars h
  simp only [List.mem_cons, List.not_mem_nil, or_false, forall_eq_or_imp, forall_eq] at hdigits
  obtain ⟨hy1, hy2, hy3, hy4, hm1, hm2, hd1, hd2, hh1, hh2, hn1, hn2, hs1, hs2, hf1, hf2, hf3⟩ :=
    hdigits
  have hend : isoFraction ['.', f1, f2, f3, 'Z'] = some ([f1, f2, f3], ['Z']) := by
    have hz : isDigit 'Z' = false := by decide
    simp [isoFraction, List.takeWhile, List.dropWhile, hf1, hf2, hf3, hz]
  rw [hchars, hfraction, ← hyear, ← hmonth, ← hday, ← hhour, ← hminute, ← hsecond]
  simp [isoInstant, hend, isoZone, hy1, hy2, hy3, hy4, hm1, hm2, hd1, hd2, hh1, hh2, hn1, hn2, hs1,
    hs2]

theorem makeDay_eq (year date : Int) {month : Nat} (h : 1 ≤ month ∧ month ≤ 12) :
    makeDay year ((month : Int) - 1) date =
      dayFromYear year + daysBeforeMonth (leapYear year) (month - 1) + date - 1 := by
  have hdiv : ((month : Int) - 1) / 12 = 0 := by omega
  have hmod : (((month : Int) - 1) % 12).toNat = month - 1 := by omega
  unfold makeDay
  dsimp only
  rw [hdiv, hmod, Int.add_zero]

theorem makeDay_cycle (year month date : Int) :
    makeDay (year + 400) month date = makeDay year month date + 146097 := by
  have hleap : leapYear (year + 400 + month / 12) = leapYear (year + month / 12) := by
    rw [Bool.eq_iff_iff]
    unfold leapYear
    simp only [Bool.and_eq_true, Bool.or_eq_true, beq_iff_eq, bne_iff_ne, ne_eq]
    omega
  unfold makeDay
  dsimp only
  rw [hleap]
  unfold dayFromYear
  omega

theorem biased_isoText {d : DateTime} (h : d.Valid) :
    (IsoInstant.mk d.year d.month d.day d.hour d.minute d.second (padded 3 d.millisecond) 0).biased =
      d.wholeSeconds - firstMs := by
  have hday := makeDay_eq d.year d.day h.month
  unfold IsoInstant.biased DateTime.wholeSeconds firstMs dateUTC
  dsimp only
  by_cases hyear : d.year < 100
  · have hcycle : ¬ ((12622780800000 : Int) = 0) := by decide
    have hfull : ¬ (0 ≤ (d.year : Int) + 400 ∧ (d.year : Int) + 400 ≤ 99) := by omega
    rw [if_pos hyear, if_neg hcycle, if_neg hfull, makeDay_cycle, hday]
    omega
  · have hfull : ¬ (0 ≤ (d.year : Int) + 0 ∧ (d.year : Int) + 0 ≤ 99) := by omega
    rw [if_neg hyear, if_pos rfl, if_neg hfull, Int.add_zero, hday]
    omega

/-! ## The sort key -/

theorem instantKey_isoText {text : String} {d : DateTime} (h : d.Valid)
    (heq : text.toList = d.isoText) :
    instantKey text = String.ofList (padded 16 (d.wholeSeconds - firstMs).toNat ++
      '.' :: (padded 3 d.millisecond ++ List.replicate 6 '0')) := by
  obtain ⟨hfirst, -⟩ := millis_bounds h
  have hlen := padded_length 3 d.millisecond (by decide) (by have := h.millisecond; omega)
  have hnat : toString (d.wholeSeconds - firstMs) = toString (d.wholeSeconds - firstMs).toNat := by
    conv_lhs => rw [← Int.toNat_of_nonneg (show 0 ≤ d.wholeSeconds - firstMs by omega)]
    rfl
  unfold instantKey
  rw [heq, isoInstant_isoText h]
  dsimp only
  rw [biased_isoText h, hnat]
  unfold padEnd
  rw [hlen]
  rfl

theorem utf16_instantKey {text : String} {d : DateTime} (h : d.Valid)
    (heq : text.toList = d.isoText) :
    utf16 (instantKey text) = (padded 16 (d.wholeSeconds - firstMs).toNat ++
      '.' :: (padded 3 d.millisecond ++ List.replicate 6 '0')).map Char.toNat := by
  rw [instantKey_isoText h heq, utf16_ofList]
  intro c hc
  rcases List.mem_append.mp hc with hc | hc
  · exact padded_units hc
  · rcases List.mem_cons.mp hc with rfl | hc
    · decide
    · rcases List.mem_append.mp hc with hc | hc
      · exact padded_units hc
      · rw [List.eq_of_mem_replicate hc]
        decide

theorem wholeSeconds_bounds {d : DateTime} (h : d.Valid) :
    (d.wholeSeconds - firstMs).toNat < 10 ^ 16 ∧ (d.wholeSeconds - firstMs) % 1000 = 0 ∧
      firstMs ≤ d.wholeSeconds := by
  obtain ⟨hfirst, hlast⟩ := millis_bounds h
  refine ⟨?_, ?_, hfirst⟩
  · unfold firstMs lastMs at *
    omega
  · unfold DateTime.wholeSeconds makeTime firstMs
    omega

section Order

variable {a b : String} {d e : DateTime}

theorem instantKey_lt_iff (hd : d.Valid) (he : e.Valid) (ha : a.toList = d.isoText)
    (hb : b.toList = e.isoText) :
    utf16 (instantKey a) < utf16 (instantKey b) ↔ d.millis < e.millis := by
  obtain ⟨hd16, hdmod, hdfirst⟩ := wholeSeconds_bounds hd
  obtain ⟨he16, hemod, hefirst⟩ := wholeSeconds_bounds he
  have hdms := hd.millisecond
  have hems := he.millisecond
  rw [utf16_instantKey hd ha, utf16_instantKey he hb, padded_cons_lt_iff (by decide) hd16 he16,
    padded_append_lt_iff (by decide) hdms hems]
  have hzeros : ¬ (List.replicate 6 '0').map Char.toNat < (List.replicate 6 '0').map Char.toNat :=
    List.lt_irrefl _
  simp only [hzeros, and_false, or_false]
  unfold DateTime.millis
  omega

theorem instantKey_eq_iff (hd : d.Valid) (he : e.Valid) (ha : a.toList = d.isoText)
    (hb : b.toList = e.isoText) : instantKey a = instantKey b ↔ d.millis = e.millis := by
  have hlt := instantKey_lt_iff hd he ha hb
  have hgt := instantKey_lt_iff he hd hb ha
  constructor
  · intro heq
    rw [heq] at hlt hgt
    have hnot : ¬ utf16 (instantKey b) < utf16 (instantKey b) := List.lt_irrefl _
    have hle := mt hlt.mpr hnot
    have hge := mt hgt.mpr hnot
    omega
  · intro heq
    obtain ⟨-, hdmod, -⟩ := wholeSeconds_bounds hd
    obtain ⟨-, hemod, -⟩ := wholeSeconds_bounds he
    have hdms := hd.millisecond
    have hems := he.millisecond
    unfold DateTime.millis at heq
    have hseconds : d.wholeSeconds = e.wholeSeconds := by omega
    have hmillis : d.millisecond = e.millisecond := by omega
    rw [instantKey_isoText hd ha, instantKey_isoText he hb, hseconds, hmillis]

end Order

end Core
