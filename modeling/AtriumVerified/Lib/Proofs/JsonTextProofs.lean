import Mathlib.Tactic.IntervalCases
import AtriumVerified.Lib.JsonText

/-!
# What is written is read again

`JSON.parse` of what `JSON.stringify` writes for a value without numbers is that value, and the text
has no line break.
-/

namespace Js

/-! ## Strings -/

theorem hexValue_hexDigit {n : Nat} (h : n < 16) : hexValue (hexDigit n) = some n := by
  interval_cases n <;> rfl

theorem toNat_eq_of_small (c : Char) : Char.ofNat (16 * (c.toNat / 16) + c.toNat % 16) = c := by
  rw [Nat.div_add_mod]
  exact Char.ofNat_toNat c

theorem readString_escapeChar (fuel : Nat) (c : Char) (rest : List Char) :
    readString (fuel + 1) (escapeChar c ++ rest) =
      (readString fuel rest).map fun found => (c :: found.1, found.2) := by
  have hbind (o : Option (List Char × List Char)) (d : Char) :
      (o.bind fun found => some (d :: found.1, found.2)) =
        o.map fun found => (d :: found.1, found.2) := by
    cases o <;> rfl
  unfold escapeChar
  split
  case isTrue h => subst h; exact hbind _ _
  split
  case isTrue h => subst h; exact hbind _ _
  split
  case isTrue h => subst h; exact hbind _ _
  split
  case isTrue h => subst h; exact hbind _ _
  split
  case isTrue h => subst h; exact hbind _ _
  split
  case isTrue h => subst h; exact hbind _ _
  split
  case isTrue h => subst h; exact hbind _ _
  split
  case isTrue h =>
    -- The two digits are those of the code point.
    have hhigh := hexValue_hexDigit (n := c.toNat / 16) (by omega)
    have hlow := hexValue_hexDigit (n := c.toNat % 16) (by omega)
    have hunit : readUnit ('0' :: '0' :: hexDigit (c.toNat / 16) :: hexDigit (c.toNat % 16) :: rest) =
        some (16 * (c.toNat / 16) + c.toNat % 16, rest) := by
      simp only [readUnit, hhigh, hlow, Option.bind_eq_bind, Option.bind_some]
      simp [hexValue]
    have hescape : readEscape ('u' :: '0' :: '0' :: hexDigit (c.toNat / 16) ::
        hexDigit (c.toNat % 16) :: rest) = some (c, rest) := by
      rw [readEscape, if_pos rfl, hunit]
      have hsmall : 16 * (c.toNat / 16) + c.toNat % 16 < 0x20 := by omega
      simp only [Option.bind_eq_bind, Option.bind_some]
      rw [if_neg (by omega), if_neg (by omega), toNat_eq_of_small]
    have hnot : ('\\' : Char) ≠ '"' := by decide
    simp only [List.cons_append, List.nil_append]
    rw [readString, if_neg hnot, if_pos rfl, hescape]
    exact hbind _ _
  case isFalse h1 h2 h3 h4 h5 h6 h7 h8 =>
    rw [List.singleton_append, readString, if_neg h1, if_neg h2, if_neg h8]
    exact hbind _ _

theorem readString_quoted (text rest : List Char) {fuel : Nat} (h : text.length < fuel) :
    readString fuel (text.flatMap escapeChar ++ '"' :: rest) = some (text, rest) := by
  induction text generalizing fuel with
  | nil =>
    cases fuel with
    | zero => cases h
    | succ fuel => rfl
  | cons c text ih =>
    cases fuel with
    | zero => cases h
    | succ fuel =>
      rw [List.flatMap_cons, List.append_assoc, readString_escapeChar,
        ih (Nat.lt_of_succ_lt_succ h)]
      rfl

theorem length_le_flatMap_escapeChar (text : List Char) :
    text.length ≤ (text.flatMap escapeChar).length := by
  induction text with
  | nil => exact Nat.le_refl _
  | cons c text ih =>
    have hpos : 1 ≤ (escapeChar c).length := by
      unfold escapeChar
      repeat' split
      all_goals exact Nat.le_add_left _ _
    rw [List.flatMap_cons, List.length_append, List.length_cons]
    omega

/-! ## Values -/

mutual

def Json.isNumberless : Json → Bool
  | .null | .bool _ | .string _ => true
  | .number _ => false
  | .array items => areNumberless items
  | .object fields => areFieldsNumberless fields

def areNumberless : List Json → Bool
  | [] => true
  | item :: rest => item.isNumberless && areNumberless rest

def areFieldsNumberless : List (String × Json) → Bool
  | [] => true
  | (_, value) :: rest => value.isNumberless && areFieldsNumberless rest

end

/-- What is written for a value does not begin with white space or the end of an array. -/
theorem write_eq_cons {value : Json} (h : value.isNumberless = true) :
    ∃ c text, value.write = c :: text ∧ isJsonSpace c = false ∧ c ≠ ']' := by
  cases value with
  | null => exact ⟨'n', _, rfl, rfl, by decide⟩
  | bool value =>
    cases value with
    | true => exact ⟨'t', _, rfl, rfl, by decide⟩
    | false => exact ⟨'f', _, rfl, rfl, by decide⟩
  | number value => cases h
  | string value => exact ⟨'"', _, rfl, rfl, by decide⟩
  | array items => exact ⟨'[', _, rfl, rfl, by decide⟩
  | object fields => exact ⟨'\x7b', _, rfl, rfl, by decide⟩

theorem dropWhile_write {value : Json} (h : value.isNumberless = true) (rest : List Char) :
    (value.write ++ rest).dropWhile isJsonSpace = value.write ++ rest := by
  obtain ⟨c, text, heq, hspace, -⟩ := write_eq_cons h
  rw [heq, List.cons_append, List.dropWhile_cons_of_neg (by simp [hspace])]

/-- The quoted text behind its opening quote. -/
theorem readString_value (text : String) (rest : List Char) :
    readString ((text.toList.flatMap escapeChar ++ '"' :: rest).length + 1)
      (text.toList.flatMap escapeChar ++ '"' :: rest) = some (text.toList, rest) := by
  refine readString_quoted text.toList rest ?_
  have hle := length_le_flatMap_escapeChar text.toList
  rw [List.length_append]
  omega

theorem quoted_append (text : String) (rest : List Char) :
    quoted text ++ rest = '"' :: (text.toList.flatMap escapeChar ++ '"' :: rest) := by
  rw [quoted, List.cons_append, List.append_assoc]
  rfl

mutual

/-- A value without numbers is read as it was written, whatever follows it. -/
theorem readValue_write (value : Json) (h : value.isNumberless = true) (rest : List Char)
    (fuel : Nat) (hfuel : value.write.length ≤ fuel) :
    readValue fuel (value.write ++ rest) = some (value, rest) := by
  cases fuel with
  | zero =>
    obtain ⟨c, text, heq, -⟩ := write_eq_cons h
    rw [heq] at hfuel
    cases hfuel
  | succ fuel =>
    rw [readValue, dropWhile_write h]
    match value with
    | .null => rfl
    | .bool true => rfl
    | .bool false => rfl
    | .number _ => cases h
    | .string text =>
      rw [Json.write, quoted_append]
      simp only [readString_value, Option.map_some, String.ofList_toList]
    | .array [] => rfl
    | .array (item :: items) =>
      simp only [Json.isNumberless, areNumberless, Bool.and_eq_true] at h
      obtain ⟨c, text, heq, -, hend⟩ := write_eq_cons h.1
      have hread := readItems_write item items h.1 h.2 rest fuel
        (Nat.le_of_succ_le_succ hfuel)
      rw [Json.write, writeItems]
      simp only [List.cons_append, List.append_assoc, dropWhile_write h.1]
      rw [heq] at hread ⊢
      split
      · rename_i htext
        exact absurd (List.cons.inj htext).1 hend
      · rw [hread]
        rfl
    | .object [] => rfl
    | .object ((key, item) :: fields) =>
      simp only [Json.isNumberless, areFieldsNumberless, Bool.and_eq_true] at h
      have hread := readFields_write key item fields h.1 h.2 rest fuel
        (Nat.le_of_succ_le_succ hfuel)
      rw [Json.write, writeFields]
      simp only [List.cons_append, List.append_assoc]
      rw [quoted_append] at hread ⊢
      rw [List.dropWhile_cons_of_neg (by decide)]
      split
      · rename_i htext
        exact absurd (List.cons.inj htext).1 (by decide)
      · rw [hread]
        rfl
termination_by fuel

theorem readItems_write (item : Json) (items : List Json) (h : item.isNumberless = true)
    (hitems : areNumberless items = true) (rest : List Char) (fuel : Nat)
    (hfuel : (item.write ++ writeMoreItems items).length ≤ fuel) :
    readItems fuel (item.write ++ (writeMoreItems items ++ rest)) = some (item :: items, rest) := by
  rw [List.length_append] at hfuel
  cases fuel with
  | zero =>
    obtain ⟨c, text, heq, -⟩ := write_eq_cons h
    rw [heq, List.length_cons] at hfuel
    omega
  | succ fuel =>
    match items with
    | [] =>
      have hread := readValue_write item h (']' :: rest) fuel
        (by rw [writeMoreItems, List.length_singleton] at hfuel; omega)
      rw [readItems, writeMoreItems, List.singleton_append, hread]
      rfl
    | next :: items =>
      simp only [areNumberless, Bool.and_eq_true] at hitems
      rw [writeMoreItems, List.length_cons] at hfuel
      have hread := readValue_write item h
        (',' :: (next.write ++ (writeMoreItems items ++ rest))) fuel (by omega)
      have hmore := readItems_write next items hitems.1 hitems.2 rest fuel (by omega)
      rw [readItems, writeMoreItems, List.cons_append, List.append_assoc, hread]
      simp only [Option.bind_eq_bind, Option.bind_some]
      rw [List.dropWhile_cons_of_neg (by decide)]
      simp only [hmore, Option.bind_some]
      rfl
termination_by fuel

/-- Properties are read as they were written. -/
theorem readFields_write (key : String) (value : Json) (fields : List (String × Json))
    (h : value.isNumberless = true) (hfields : areFieldsNumberless fields = true) (rest : List Char)
    (fuel : Nat) (hfuel : (quoted key ++ ':' :: (value.write ++ writeMoreFields fields)).length ≤ fuel) :
    readFields fuel (quoted key ++ ':' :: (value.write ++ (writeMoreFields fields ++ rest))) =
      some ((key, value) :: fields, rest) := by
  rw [List.length_append, List.length_cons, List.length_append] at hfuel
  cases fuel with
  | zero => omega
  | succ fuel =>
    match fields with
    | [] =>
      have hread := readValue_write value h ('\x7d' :: rest) fuel
        (by rw [writeMoreFields, List.length_singleton] at hfuel; omega)
      rw [readFields, quoted_append, List.dropWhile_cons_of_neg (by decide)]
      simp only [readString_value, Option.bind_eq_bind, Option.bind_some]
      rw [List.dropWhile_cons_of_neg (by decide)]
      simp only [writeMoreFields, List.singleton_append, hread, Option.bind_some]
      rw [List.dropWhile_cons_of_neg (by decide)]
      simp only [String.ofList_toList]
      rfl
    | (name, next) :: fields =>
      simp only [areFieldsNumberless, Bool.and_eq_true] at hfields
      rw [writeMoreFields, List.length_cons] at hfuel
      have hread := readValue_write value h (',' :: (quoted name ++ ':' ::
        (next.write ++ (writeMoreFields fields ++ rest)))) fuel (by omega)
      have hmore := readFields_write name next fields hfields.1 hfields.2 rest fuel
        (by omega)
      rw [readFields, quoted_append, List.dropWhile_cons_of_neg (by decide)]
      simp only [readString_value, Option.bind_eq_bind, Option.bind_some]
      rw [List.dropWhile_cons_of_neg (by decide)]
      simp only [writeMoreFields, List.cons_append, List.append_assoc, hread, Option.bind_some]
      rw [List.dropWhile_cons_of_neg (by decide)]
      simp only [hmore, Option.bind_some, String.ofList_toList]
      rfl
termination_by fuel

end

/-- `JSON.parse(JSON.stringify(value))`, for a value without numbers. -/
theorem parse_stringify {value : Json} (h : value.isNumberless = true) :
    Json.parse value.stringify = some value := by
  have hread := readValue_write value h [] (value.stringify.length + 1) (by
    rw [Json.stringify, String.length_ofList]
    omega)
  rw [List.append_nil] at hread
  rw [Json.parse, Json.stringify, String.toList_ofList]
  rw [Json.stringify] at hread
  rw [hread]
  rfl

/-! ## Lines -/

theorem hexDigit_ne_newline {n : Nat} (h : n < 16) : hexDigit n ≠ '\n' := by
  interval_cases n <;> decide

theorem newline_notMem_escapeChar (c : Char) : '\n' ∉ escapeChar c := by
  have hpair (d : Char) (h : d ≠ '\n') : '\n' ∉ ['\\', d] := by
    intro hmem
    rcases List.mem_cons.mp hmem with heq | hmem
    · exact absurd heq (by decide)
    · exact h (List.mem_singleton.mp hmem).symm
  unfold escapeChar
  split
  · exact hpair _ (by decide)
  split
  · exact hpair _ (by decide)
  split
  · exact hpair _ (by decide)
  split
  · exact hpair _ (by decide)
  split
  · exact hpair _ (by decide)
  split
  · exact hpair _ (by decide)
  split
  · exact hpair _ (by decide)
  split
  · have hhigh := hexDigit_ne_newline (n := c.toNat / 16) (by omega)
    have hlow := hexDigit_ne_newline (n := c.toNat % 16) (by omega)
    simp [hhigh.symm, hlow.symm]
  · rename_i hnewline _ _ _
    exact fun hmem => hnewline (List.mem_singleton.mp hmem).symm

theorem newline_notMem_quoted (text : String) : '\n' ∉ quoted text := by
  intro hmem
  rcases List.mem_cons.mp hmem with heq | hmem
  · exact absurd heq (by decide)
  rcases List.mem_append.mp hmem with hmem | hmem
  · obtain ⟨c, -, hc⟩ := List.mem_flatMap.mp hmem
    exact newline_notMem_escapeChar c hc
  · exact absurd (List.mem_singleton.mp hmem) (by decide)

mutual

/-- The text of a value without numbers is one line. -/
theorem newline_notMem_write (value : Json) (h : value.isNumberless = true) :
    '\n' ∉ value.write := by
  match value with
  | .null => decide
  | .bool true => decide
  | .bool false => decide
  | .number _ => cases h
  | .string text => exact newline_notMem_quoted text
  | .array [] => decide
  | .array (item :: items) =>
    simp only [Json.isNumberless, areNumberless, Bool.and_eq_true] at h
    have hitem := newline_notMem_write item h.1
    have hitems := newline_notMem_items items h.2
    simp [Json.write, writeItems, hitem, hitems]
  | .object [] => decide
  | .object ((key, item) :: fields) =>
    simp only [Json.isNumberless, areFieldsNumberless, Bool.and_eq_true] at h
    have hkey := newline_notMem_quoted key
    have hitem := newline_notMem_write item h.1
    have hfields := newline_notMem_fields fields h.2
    simp [Json.write, writeFields, hkey, hitem, hfields]

theorem newline_notMem_items (items : List Json) (h : areNumberless items = true) :
    '\n' ∉ writeMoreItems items := by
  match items with
  | [] => decide
  | item :: items =>
    simp only [areNumberless, Bool.and_eq_true] at h
    have hitem := newline_notMem_write item h.1
    have hitems := newline_notMem_items items h.2
    simp [writeMoreItems, hitem, hitems]

theorem newline_notMem_fields (fields : List (String × Json))
    (h : areFieldsNumberless fields = true) : '\n' ∉ writeMoreFields fields := by
  match fields with
  | [] => decide
  | (key, item) :: fields =>
    simp only [areFieldsNumberless, Bool.and_eq_true] at h
    have hkey := newline_notMem_quoted key
    have hitem := newline_notMem_write item h.1
    have hfields := newline_notMem_fields fields h.2
    simp [writeMoreFields, hkey, hitem, hfields]

end

end Js
