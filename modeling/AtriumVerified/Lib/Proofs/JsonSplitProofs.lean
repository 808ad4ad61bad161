import AtriumVerified.Lib.Decimal
import AtriumVerified.Lib.Proofs.JsonTextProofs

/-!
# JSON texts can be taken apart

The text of an array says how each of its items was written, and the text of an object how each of
its properties was: a text begins with what tells its kind, and what follows a value cannot go on
with it.
-/

namespace Js

/-! ## What a text begins with -/

/-- The kind of a value that begins with a character; what begins no value is another. -/
def kindOfChar (c : Char) : Nat :=
  if c = 'n' then 0
  else if c = 't' then 1
  else if c = 'f' then 2
  else if c = '"' then 3
  else if c = '[' then 4
  else if c = '\x7b' then 5
  else if isDigit c ∨ c = '-' then 6
  else 7

def kindOf : Json → Nat
  | .null => 0
  | .bool true => 1
  | .bool false => 2
  | .string _ => 3
  | .array _ => 4
  | .object _ => 5
  | .number _ => 6

def isNumberChar (c : Char) : Bool := isDigit c || c == '-' || c == '.'

theorem kindOfChar_digit {c : Char} (h : isDigit c = true ∨ c = '-') : kindOfChar c = 6 := by
  have hother : c ≠ 'n' ∧ c ≠ 't' ∧ c ≠ 'f' ∧ c ≠ '"' ∧ c ≠ '[' ∧ c ≠ '\x7b' := by
    refine ⟨?_, ?_, ?_, ?_, ?_, ?_⟩ <;>
    · rintro rfl
      revert h
      decide
  obtain ⟨h1, h2, h3, h4, h5, h6⟩ := hother
  unfold kindOfChar
  rw [if_neg h1, if_neg h2, if_neg h3, if_neg h4, if_neg h5, if_neg h6, if_pos h]

theorem digits_toString (n : Nat) : ∀ c ∈ (toString n).toList, isDigit c = true := by
  intro c hc
  exact padded_digits 0 n c (by
    unfold padded padStart
    exact List.mem_append_right _ hc)

theorem exists_digit (n : Nat) :
    ∃ c rest, (toString n).toList = c :: rest ∧ isDigit c = true := by
  cases h : (toString n).toList with
  | nil => exact absurd (String.toList_inj.mp h) Nat.repr_ne_empty
  | cons c rest => exact ⟨c, rest, rfl, digits_toString n c (h ▸ List.mem_cons_self)⟩

/-- A number is written with the characters of numbers, and begins with a digit or the sign. -/
theorem text_number (value : Number) :
    (∀ c ∈ value.text.toList, isNumberChar c = true) ∧
      ∃ c rest, value.text.toList = c :: rest ∧ kindOfChar c = 6 := by
  obtain ⟨sign, tail, htext, hsign, htail⟩ : ∃ sign tail : List Char,
      value.text.toList =
        sign ++ ((toString (value.mantissa.natAbs / 10 ^ value.exponent)).toList ++ tail) ∧
      (sign = [] ∨ sign = ['-']) ∧ ∀ c ∈ tail, isNumberChar c = true := by
    have hsign : (if value.mantissa < 0 then "-" else "").toList = [] ∨
        (if value.mantissa < 0 then "-" else "").toList = ['-'] := by
      split
      · exact Or.inr rfl
      · exact Or.inl rfl
    unfold Number.text
    dsimp only
    split
    · refine ⟨_, [], ?_, hsign, fun c hc => (by cases hc)⟩
      rw [String.toList_append, List.append_nil]
    · refine ⟨_, '.' :: (List.replicate (value.exponent -
        (toString (value.mantissa.natAbs % 10 ^ value.exponent)).length) '0' ++
        (toString (value.mantissa.natAbs % 10 ^ value.exponent)).toList), ?_, hsign, ?_⟩
      · simp only [String.toList_append, String.toList_ofList, List.append_assoc]
        rfl
      · refine List.forall_mem_cons.mpr ⟨rfl, List.forall_mem_append.mpr ⟨fun c hc => ?_,
          fun c hc => ?_⟩⟩
        · rw [List.eq_of_mem_replicate hc]
          rfl
        · rw [isNumberChar, digits_toString _ c hc]
          rfl
  obtain ⟨first, rest, hfirst, hdigit⟩ := exists_digit
    (value.mantissa.natAbs / 10 ^ value.exponent)
  constructor
  · rw [htext]
    refine List.forall_mem_append.mpr ⟨fun c hc => ?_, List.forall_mem_append.mpr
      ⟨fun c hc => ?_, htail⟩⟩
    · rcases hsign with rfl | rfl
      · cases hc
      · rw [List.mem_singleton.mp hc]
        rfl
    · rw [isNumberChar, digits_toString _ c hc]
      rfl
  · rw [htext, hfirst]
    rcases hsign with rfl | rfl
    · exact ⟨first, _, rfl, kindOfChar_digit (Or.inl hdigit)⟩
    · exact ⟨'-', _, rfl, kindOfChar_digit (Or.inr rfl)⟩

/-- The first character says the kind. -/
theorem write_kind (value : Json) :
    ∃ c rest, value.write = c :: rest ∧ kindOfChar c = kindOf value := by
  cases value with
  | null => exact ⟨'n', _, rfl, rfl⟩
  | bool value =>
    cases value with
    | true => exact ⟨'t', _, rfl, rfl⟩
    | false => exact ⟨'f', _, rfl, rfl⟩
  | number value =>
    obtain ⟨-, c, rest, htext, hkind⟩ := text_number value
    exact ⟨c, rest, htext, hkind⟩
  | string value => exact ⟨'"', _, rfl, rfl⟩
  | array items => exact ⟨'[', _, rfl, rfl⟩
  | object fields => exact ⟨'\x7b', _, rfl, rfl⟩

/-! ## What follows a value -/

/-- A text that can follow a value: it is empty, or begins with a comma or a closing bracket. -/
def Follows (text : List Char) : Prop := ∀ c, text.head? = some c → c = ',' ∨ c = ']' ∨ c = '\x7d'

theorem follows_cons {c : Char} (h : c = ',' ∨ c = ']' ∨ c = '\x7d') (text : List Char) :
    Follows (c :: text) := by
  rintro d ⟨⟩
  exact h

theorem Follows.not_number {text : List Char} (h : Follows text) :
    ∀ c, text.head? = some c → isNumberChar c = false := by
  intro c hc
  rcases h c hc with rfl | rfl | rfl <;> rfl

/-- Two runs of a class that end where they must are the same. -/
theorem run_append_inj {P : Char → Bool} {a b x y : List Char} (ha : ∀ c ∈ a, P c = true)
    (hb : ∀ c ∈ b, P c = true) (hx : ∀ c, x.head? = some c → P c = false)
    (hy : ∀ c, y.head? = some c → P c = false) (h : a ++ x = b ++ y) : a = b ∧ x = y := by
  have hrun {a x : List Char} (ha : ∀ c ∈ a, P c = true)
      (hx : ∀ c, x.head? = some c → P c = false) : (a ++ x).takeWhile P = a := by
    rw [List.takeWhile_append_of_pos ha]
    cases x with
    | nil => rw [List.takeWhile_nil, List.append_nil]
    | cons c x => rw [List.takeWhile_cons_of_neg (by simp [hx c rfl]), List.append_nil]
  have hab : a = b := by rw [← hrun ha hx, h, hrun hb hy]
  subst hab
  exact ⟨rfl, List.append_cancel_left h⟩

theorem quoted_append_inj {a b : String} {x y : List Char} (h : quoted a ++ x = quoted b ++ y) :
    a = b ∧ x = y := by
  rw [quoted_append, quoted_append] at h
  have htail := (List.cons.inj h).2
  have ha := readString_value a x
  have hb := readString_value b y
  rw [htail, hb] at ha
  obtain ⟨htext, hrest⟩ := Prod.mk.inj (Option.some.inj ha)
  exact ⟨(String.toList_inj.mp htext).symm, hrest.symm⟩

theorem follows_writeMoreItems (items : List Json) (rest : List Char) :
    Follows (writeMoreItems items ++ rest) := by
  cases items with
  | nil => exact follows_cons (Or.inr (Or.inl rfl)) rest
  | cons item items => exact follows_cons (Or.inl rfl) _

theorem follows_writeMoreFields (fields : List (String × Json)) (rest : List Char) :
    Follows (writeMoreFields fields ++ rest) := by
  cases fields with
  | nil => exact follows_cons (Or.inr (Or.inr rfl)) rest
  | cons field fields => exact follows_cons (Or.inl rfl) _

/-- The properties with their values as they are written. -/
def written (fields : List (String × Json)) : List (String × List Char) :=
  fields.map fun field => (field.1, field.2.write)

/-! ## Values -/

/-- Values that are written the same at the beginning are of one kind. -/
theorem kindOf_eq {a b : Json} {x y : List Char} (h : a.write ++ x = b.write ++ y) :
    kindOf a = kindOf b := by
  obtain ⟨c, rest, hc, hkind⟩ := write_kind a
  obtain ⟨d, other, hd, hkind'⟩ := write_kind b
  rw [hc, hd, List.cons_append, List.cons_append] at h
  rw [← hkind, ← hkind', (List.cons.inj h).1]

/-- A closing bracket begins no value. -/
theorem write_ne_close {a : Json} {c : Char} {x y : List Char} (hc : kindOfChar c = 7)
    (h : a.write ++ x = c :: y) : False := by
  obtain ⟨d, rest, hd, hkind⟩ := write_kind a
  rw [hd, List.cons_append] at h
  rw [(List.cons.inj h).1, hc] at hkind
  cases a with
  | bool value => cases value <;> cases hkind
  | _ => cases hkind

mutual

/-- A value is cut off from what follows it in one way. -/
theorem write_append_inj (a b : Json) {x y : List Char} (hx : Follows x) (hy : Follows y)
    (h : a.write ++ x = b.write ++ y) : a.write = b.write ∧ x = y := by
  have hkind := kindOf_eq h
  match a, b with
  | .null, .null => exact ⟨rfl, List.append_cancel_left h⟩
  | .bool true, .bool true => exact ⟨rfl, List.append_cancel_left h⟩
  | .bool false, .bool false => exact ⟨rfl, List.append_cancel_left h⟩
  | .number n, .number m =>
    exact run_append_inj (text_number n).1 (text_number m).1 hx.not_number hy.not_number h
  | .string s, .string t =>
    obtain ⟨rfl, hrest⟩ := quoted_append_inj h
    exact ⟨rfl, hrest⟩
  | .array items, .array others =>
    obtain ⟨hitems, -, hrest⟩ := writeItems_append_inj items others (List.cons.inj h).2
    exact ⟨congrArg ('[' :: ·) hitems, hrest⟩
  | .object fields, .object others =>
    obtain ⟨hfields, -, hrest⟩ := writeFields_append_inj fields others (List.cons.inj h).2
    exact ⟨congrArg ('\x7b' :: ·) hfields, hrest⟩
termination_by (sizeOf a, 0)

/-- The items of an array, too, one by one. -/
theorem writeItems_append_inj (items others : List Json) {x y : List Char}
    (h : writeItems items ++ x = writeItems others ++ y) :
    writeItems items = writeItems others ∧ items.map Json.write = others.map Json.write ∧ x = y := by
  match items, others with
  | [], [] => exact ⟨rfl, rfl, (List.cons.inj h).2⟩
  | [], other :: others =>
    rw [writeItems, writeItems, List.append_assoc, List.singleton_append] at h
    exact (write_ne_close (by decide) h.symm).elim
  | item :: items, [] =>
    rw [writeItems, writeItems, List.append_assoc, List.singleton_append] at h
    exact (write_ne_close (by decide) h).elim
  | item :: items, other :: others =>
    rw [writeItems, writeItems, List.append_assoc, List.append_assoc] at h
    obtain ⟨hitem, hrest⟩ := write_append_inj item other (follows_writeMoreItems items x)
      (follows_writeMoreItems others y) h
    obtain ⟨hmore, hitems, hxy⟩ := writeMoreItems_append_inj items others hrest
    refine ⟨?_, ?_, hxy⟩
    · rw [writeItems, writeItems, hitem, hmore]
    · rw [List.map_cons, List.map_cons, hitem, hitems]
termination_by (sizeOf items, 0)

/-- The items behind one. -/
theorem writeMoreItems_append_inj (items others : List Json) {x y : List Char}
    (h : writeMoreItems items ++ x = writeMoreItems others ++ y) :
    writeMoreItems items = writeMoreItems others ∧
      items.map Json.write = others.map Json.write ∧ x = y := by
  match items, others with
  | [], [] => exact ⟨rfl, rfl, (List.cons.inj h).2⟩
  | [], other :: others => exact absurd (List.cons.inj h).1 (by decide)
  | item :: items, [] => exact absurd (List.cons.inj h).1 (by decide)
  | item :: items, other :: others =>
    obtain ⟨hsame, hrest⟩ :=
      writeItems_append_inj (item :: items) (other :: others) (List.cons.inj h).2
    exact ⟨congrArg (',' :: ·) hsame, hrest⟩
termination_by (sizeOf items, 1)

/-- The properties of an object, one by one. -/
theorem writeFields_append_inj (fields others : List (String × Json)) {x y : List Char}
    (h : writeFields fields ++ x = writeFields others ++ y) :
    writeFields fields = writeFields others ∧ written fields = written others ∧ x = y := by
  match fields, others with
  | [], [] => exact ⟨rfl, rfl, (List.cons.inj h).2⟩
  | [], (key, value) :: others => exact absurd (List.cons.inj h).1 (by decide)
  | (key, value) :: fields, [] => exact absurd (List.cons.inj h).1 (by decide)
  | (key, value) :: fields, (key', value') :: others =>
    rw [writeFields, writeFields, List.append_assoc, List.append_assoc] at h
    obtain ⟨rfl, hvalue⟩ := quoted_append_inj h
    have htail : value.write ++ writeMoreFields fields ++ x =
        value'.write ++ writeMoreFields others ++ y := (List.cons.inj hvalue).2
    rw [List.append_assoc, List.append_assoc] at htail
    obtain ⟨hitem, hrest⟩ := write_append_inj value value' (follows_writeMoreFields fields x)
      (follows_writeMoreFields others y) htail
    obtain ⟨hmore, hfields, hxy⟩ := writeMoreFields_append_inj fields others hrest
    refine ⟨?_, ?_, hxy⟩
    · rw [writeFields, writeFields, hitem, hmore]
    · rw [written, written, List.map_cons, List.map_cons, hitem]
      exact congrArg _ hfields
termination_by (sizeOf fields, 0)

/-- The properties behind one. -/
theorem writeMoreFields_append_inj (fields others : List (String × Json)) {x y : List Char}
    (h : writeMoreFields fields ++ x = writeMoreFields others ++ y) :
    writeMoreFields fields = writeMoreFields others ∧ written fields = written others ∧ x = y := by
  match fields, others with
  | [], [] => exact ⟨rfl, rfl, (List.cons.inj h).2⟩
  | [], (key, value) :: others => exact absurd (List.cons.inj h).1 (by decide)
  | (key, value) :: fields, [] => exact absurd (List.cons.inj h).1 (by decide)
  | (key, value) :: fields, (key', value') :: others =>
    obtain ⟨hsame, hrest⟩ := writeFields_append_inj ((key, value) :: fields)
      ((key', value') :: others) (List.cons.inj h).2
    exact ⟨congrArg (',' :: ·) hsame, hrest⟩
termination_by (sizeOf fields, 1)

end

/-- Arrays that are written the same have items that are written the same. -/
theorem items_of_stringify_eq {items others : List Json}
    (h : (Json.array items).stringify = (Json.array others).stringify) :
    items.map Json.write = others.map Json.write := by
  have hwrite := congrArg String.toList h
  rw [Json.stringify, Json.stringify, String.toList_ofList, String.toList_ofList, Json.write,
    Json.write] at hwrite
  have hitems : writeItems items ++ [] = writeItems others ++ [] := by
    rw [(List.cons.inj hwrite).2]
  exact (writeItems_append_inj items others hitems).2.1

/-- Objects that are written the same have properties that are written the same. -/
theorem written_of_write_eq {fields others : List (String × Json)}
    (h : (Json.object fields).write = (Json.object others).write) :
    written fields = written others := by
  rw [Json.write, Json.write] at h
  have hfields : writeFields fields ++ [] = writeFields others ++ [] := by
    rw [(List.cons.inj h).2]
  exact (writeFields_append_inj fields others hfields).2.1

/-- What a property is written as. -/
theorem write_lookupField (fields : List (String × Json)) (key : String) :
    (lookupField fields key).map Json.write =
      ((written fields).reverse.find? fun field => field.1 == key).map Prod.snd := by
  unfold lookupField written
  rw [← List.map_reverse, List.find?_map, Option.map_map, Option.map_map]
  rfl

end Js
