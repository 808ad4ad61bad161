import Mathlib.Data.List.Sort

/-!
# JavaScript strings

Length, order and padding of strings as JavaScript computes them: over UTF-16 code units. A `String`
here is a sequence of Unicode scalar values, so the strings with an unpaired surrogate are left out.
-/

namespace Js

/-- What holds of every character of a text is decided along the text, not by running through
`Char`. -/
instance (priority := 1100) decidableAlong {α : Type} (p : α → Prop) [DecidablePred p]
    (text : List α) : Decidable (∀ c ∈ text, p c) := List.decidableBAll p text

def utf16Units (c : Char) : List Nat :=
  if c.toNat < 0x10000 then [c.toNat]
  else [0xD800 + (c.toNat - 0x10000) / 0x400, 0xDC00 + (c.toNat - 0x10000) % 0x400]

def utf16 (text : String) : List Nat := text.toList.flatMap utf16Units

/-- `String.prototype.length`. -/
def utf16Length (text : String) : Nat := (utf16 text).length

/-- `length` of a text given as its characters. -/
def length (text : List Char) : Nat := (text.flatMap utf16Units).length

/-- The longest beginning of a text that has at most `limit` code units. -/
def takeUnits : Nat → List Char → List Char
  | _, [] => []
  | limit, c :: rest =>
    let size := (utf16Units c).length
    if size ≤ limit then c :: takeUnits (limit - size) rest else []

/-- `a < b` on strings: the order of the code units, the shorter string first. -/
def lt (a b : String) : Bool := decide (utf16 a < utf16 b)

/-- `a < b ? -1 : a > b ? 1 : 0`. -/
def compare (a b : String) : Ordering := if lt a b then .lt else if lt b a then .gt else .eq

/-- `text.padStart(width, fill)` for a text and a fill of one code unit characters. -/
def padStart (width : Nat) (fill : Char) (text : List Char) : List Char :=
  List.replicate (width - text.length) fill ++ text

/-- `text.padEnd(width, fill)` for a text and a fill of one code unit characters. -/
def padEnd (width : Nat) (fill : Char) (text : List Char) : List Char :=
  text ++ List.replicate (width - text.length) fill

def digitValue (c : Char) : Nat := c.toNat - '0'.toNat

/-- `\d`. -/
def isDigit (c : Char) : Bool := '0' ≤ c && c ≤ '9'

/-- `Number(digits)` for a run of decimal digits. -/
def numberOf (digits : List Char) : Nat := digits.foldl (fun n c => 10 * n + digitValue c) 0

/-- `haystack.includes(needle)`. -/
def includes (haystack needle : List Char) : Bool :=
  haystack.tails.any fun rest => needle.isPrefixOf rest

/-- What stands before the first occurrence of `needle`, nearest character first, and what stands
after it. -/
def splitAtFirst (needle : List Char) : List Char → List Char → Option (List Char × List Char)
  | before, [] => if needle.isEmpty then some (before, []) else none
  | before, c :: rest =>
    if needle.isPrefixOf (c :: rest) then some (before, (c :: rest).drop needle.length)
    else splitAtFirst needle (c :: before) rest

/-- `\s`, which is also what `trim` removes: the Unicode space separators, the line terminators and
U+FEFF, but not U+0085. -/
def isSpace (c : Char) : Bool :=
  let n := c.toNat
  (0x09 ≤ n && n ≤ 0x0D) || n == 0x20 || n == 0xA0 || n == 0x1680 || (0x2000 ≤ n && n ≤ 0x200A) ||
    n == 0x2028 || n == 0x2029 || n == 0x202F || n == 0x205F || n == 0x3000 || n == 0xFEFF

def trim (text : List Char) : List Char :=
  ((text.dropWhile isSpace).reverse.dropWhile isSpace).reverse

/-- `strings.join(separator)`. -/
def join (separator : String) (strings : List String) : String := separator.intercalate strings

def sort (strings : List String) : List String :=
  strings.insertionSort fun a b => lt b a = false

theorem sort_perm (strings : List String) : (sort strings).Perm strings :=
  List.perm_insertionSort _ _

/-! ## Strings are their code units -/

/-- No code unit sequence begins with two characters. -/
theorem utf16Units_append_inj {c d : Char} {u v : List Nat}
    (h : utf16Units c ++ u = utf16Units d ++ v) : c = d ∧ u = v := by
  have hc : c.toNat < 0xD800 ∨ (0xDFFF < c.toNat ∧ c.toNat < 0x110000) := c.valid
  have hd : d.toNat < 0xD800 ∨ (0xDFFF < d.toNat ∧ d.toNat < 0x110000) := d.valid
  rw [← Char.toNat_inj]
  unfold utf16Units at h
  by_cases hlow : c.toNat < 0x10000
  · by_cases hlow' : d.toNat < 0x10000
    · simp only [hlow, hlow', if_true, List.cons_append, List.nil_append, List.cons.injEq] at h
      exact h
    · simp only [hlow, hlow', if_true, if_false, List.cons_append, List.nil_append,
        List.cons.injEq] at h
      obtain ⟨hunit, -⟩ := h
      omega
  · by_cases hlow' : d.toNat < 0x10000
    · simp only [hlow, hlow', if_true, if_false, List.cons_append, List.nil_append,
        List.cons.injEq] at h
      obtain ⟨hunit, -⟩ := h
      omega
    · simp only [hlow, hlow', if_false, List.cons_append, List.nil_append, List.cons.injEq] at h
      obtain ⟨hhigh, hlow, hrest⟩ := h
      exact ⟨by omega, hrest⟩

theorem flatMap_utf16Units_inj {a b : List Char} (h : a.flatMap utf16Units = b.flatMap utf16Units) :
    a = b := by
  have hne : ∀ c, utf16Units c ≠ [] := by
    intro c
    unfold utf16Units
    split <;> simp
  induction a generalizing b with
  | nil =>
    cases b with
    | nil => rfl
    | cons d rest => simp [hne d] at h
  | cons c rest ih =>
    cases b with
    | nil => simp [hne c] at h
    | cons d rest' =>
      rw [List.flatMap_cons, List.flatMap_cons] at h
      obtain ⟨rfl, hrest⟩ := utf16Units_append_inj h
      rw [ih hrest]

theorem utf16_inj {a b : String} : utf16 a = utf16 b ↔ a = b := by
  constructor
  · intro h
    exact String.toList_inj.mp (flatMap_utf16Units_inj h)
  · rintro rfl
    rfl

end Js
