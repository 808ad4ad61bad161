import AtriumVerified.Lib.Split

/-!
# IP addresses

What the texts of IP addresses denote, as bytes, and when two addresses agree in their first bits.
An address is four bytes or sixteen; the IPv4-mapped spelling of a dotted quad stands for the four
bytes of the quad.
-/

namespace IpAddress

open Js

/-- An address as its bytes, the most significant first. -/
abbrev Bytes := List (BitVec 8)

/-! ## Digits -/

/-- `[0-9a-fA-F]`. -/
def isHexDigit (c : Char) : Bool :=
  isDigit c || ('a' ≤ c && c ≤ 'f') || ('A' ≤ c && c ≤ 'F')

def hexDigitValue (c : Char) : Nat :=
  if isDigit c then digitValue c
  else if 'a' ≤ c then c.toNat - 'a'.toNat + 10
  else c.toNat - 'A'.toNat + 10

def hexValue (digits : List Char) : Nat :=
  digits.foldl (fun n c => 16 * n + hexDigitValue c) 0

/-- An octet: one to three decimal digits for a number up to 255. -/
def IsOctet (text : List Char) : Prop :=
  (1 ≤ text.length ∧ text.length ≤ 3 ∧ ∀ c ∈ text, isDigit c = true) ∧ numberOf text ≤ 255

def IsGroup (text : List Char) : Prop :=
  1 ≤ text.length ∧ text.length ≤ 4 ∧ ∀ c ∈ text, isHexDigit c = true

instance (text : List Char) : Decidable (IsOctet text) := inferInstanceAs (Decidable (_ ∧ _))

instance (text : List Char) : Decidable (IsGroup text) := inferInstanceAs (Decidable (_ ∧ _))

def octetByte (text : List Char) : BitVec 8 := BitVec.ofNat 8 (numberOf text)

def groupBytes (text : List Char) : Bytes :=
  [BitVec.ofNat 8 (hexValue text / 256), BitVec.ofNat 8 (hexValue text)]

/-! ## What a text denotes -/

inductive Quad : List Char → Bytes → Prop where
  | octets {octets : List (List Char)} (hlen : octets.length = 4) (hall : ∀ o ∈ octets, IsOctet o) :
      Quad (joined '.' octets) (octets.map octetByte)

/-- `::ffff:`, in either case. -/
def IsMappedPrefix (text : List Char) : Prop := text.map Char.toLower = "::ffff:".toList

/-- The texts for an IPv4 address: dotted quads and their IPv4-mapped spellings. -/
inductive V4 : List Char → Bytes → Prop where
  | quad {text : List Char} {bytes : Bytes} (h : Quad text bytes) : V4 text bytes
  | mapped {front text : List Char} {bytes : Bytes} (hfront : IsMappedPrefix front)
      (h : Quad text bytes) : V4 (front ++ text) bytes

/-- A text with one `::` between groups that number `count` together, and the bytes it has when the
`::` stands for as many zero groups as eight groups need. -/
inductive Gap (count : Nat) : List Char → Bytes → Prop where
  | groups {left right : List (List Char)} (hleft : ∀ g ∈ left, IsGroup g)
      (hright : ∀ g ∈ right, IsGroup g) (hcount : left.length + right.length = count) :
      Gap count (joined ':' left ++ (':' :: ':' :: joined ':' right))
        ((left ++ List.replicate (8 - count) ['0'] ++ right).flatMap groupBytes)

/-- The texts for an IPv6 address: eight groups, or one `::` for at least one zero group. -/
inductive V6 : List Char → Bytes → Prop where
  | full {groups : List (List Char)} (hall : ∀ g ∈ groups, IsGroup g) (hlen : groups.length = 8) :
      V6 (joined ':' groups) (groups.flatMap groupBytes)
  | gap {count : Nat} {text : List Char} {bytes : Bytes} (hcount : count ≤ 7)
      (h : Gap count text bytes) : V6 text bytes

/-- An address in brackets, with or without a port, and with blanks after it. -/
inductive Bracketed : List Char → List Char → Prop where
  | bare (address : List Char) {blanks : List Char} (hblanks : ∀ b ∈ blanks, isSpace b = true) :
      Bracketed ('[' :: (address ++ ']' :: blanks)) address
  | port (address : List Char) {digits blanks : List Char} (hne : digits ≠ [])
      (hdigits : ∀ d ∈ digits, isDigit d = true) (hblanks : ∀ b ∈ blanks, isSpace b = true) :
      Bracketed ('[' :: (address ++ ']' :: ':' :: (digits ++ blanks))) address

/-- A text for an address, or an address in brackets. -/
def Spells (denotes : List Char → Bytes → Prop) (text : List Char) (bytes : Bytes) : Prop :=
  denotes text bytes ∨ ∃ address, Bracketed text address ∧ denotes address bytes

/-- A way to write an address: the text of the address, in brackets or bare, with a port or without.
A bare text for an IPv6 address has no port. -/
structure Spelling where
  address : List Char
  bytes : Bytes
  bracketed : Bool
  port : Option (List Char)
  denotes : V4 address bytes ∨ V6 address bytes
  digits : ∀ ds, port = some ds → ds ≠ [] ∧ ∀ d ∈ ds, isDigit d = true
  bare : bracketed = false → port ≠ none → V4 address bytes

def Spelling.portText (spelling : Spelling) : List Char :=
  match spelling.port with
  | some digits => ':' :: digits
  | none => []

def Spelling.text (spelling : Spelling) : List Char :=
  if spelling.bracketed then '[' :: (spelling.address ++ ']' :: spelling.portText)
  else spelling.address ++ spelling.portText

/-! ## Agreement in the first bits -/

/-- The bits of an address, the most significant first. -/
def bits (bytes : Bytes) : List Bool :=
  bytes.flatMap fun byte => (List.range 8).map byte.getMsbD

/-- Two addresses of one length agree in their first `count` bits. -/
def AgreeUpTo (count : Nat) (a b : Bytes) : Prop :=
  a.length = b.length ∧ (bits a).take count = (bits b).take count

/-! ## The characters of the texts -/

theorem isHexDigit_of_isDigit {c : Char} (h : isDigit c = true) : isHexDigit c = true := by
  simp [isHexDigit, h]

theorem IsOctet.plain {text : List Char} (h : IsOctet text) {c : Char} (hc : isDigit c = false) :
    text ≠ [] ∧ c ∉ text := by
  obtain ⟨⟨hpos, -, hall⟩, -⟩ := h
  refine ⟨List.length_pos_iff.mp hpos, fun hmem => ?_⟩
  rw [hall c hmem] at hc
  cases hc

theorem IsGroup.plain {text : List Char} (h : IsGroup text) {c : Char} (hc : isHexDigit c = false) :
    text ≠ [] ∧ c ∉ text := by
  obtain ⟨hpos, -, hall⟩ := h
  refine ⟨List.length_pos_iff.mp hpos, fun hmem => ?_⟩
  rw [hall c hmem] at hc
  cases hc

theorem plain_of_octets {octets : List (List Char)} (hall : ∀ o ∈ octets, IsOctet o) :
    Plain '.' octets := fun o ho => (hall o ho).plain (by decide)

theorem plain_of_groups {groups : List (List Char)} (hall : ∀ g ∈ groups, IsGroup g) :
    Plain ':' groups := fun g hg => (hall g hg).plain (by decide)

/-- A dotted quad is made of digits and dots. -/
theorem Quad.chars {text : List Char} {bytes : Bytes} (h : Quad text bytes) {c : Char}
    (hc : c ∈ text) : c = '.' ∨ isDigit c = true := by
  cases h with
  | octets hlen hall =>
    rcases mem_joined hc with rfl | ⟨o, ho, hmem⟩
    · exact .inl rfl
    · exact .inr ((hall o ho).1.2.2 c hmem)

theorem Quad.dot_mem {text : List Char} {bytes : Bytes} (h : Quad text bytes) : '.' ∈ text := by
  cases h with
  | octets hlen hall =>
    rename_i octets
    match octets, hlen with
    | first :: second :: rest, _ =>
      rw [joined_cons_cons]
      simp

theorem Quad.ne_nil {text : List Char} {bytes : Bytes} (h : Quad text bytes) : text ≠ [] := by
  cases h with
  | octets hlen hall =>
    refine joined_ne_nil (plain_of_octets hall) fun hnil => ?_
    rw [hnil] at hlen
    cases hlen

theorem Quad.length_bytes {text : List Char} {bytes : Bytes} (h : Quad text bytes) :
    bytes.length = 4 := by
  cases h with
  | octets hlen hall => rw [List.length_map, hlen]

/-- A character is its own lower case unless it is a capital letter. -/
theorem toLower_cases (c : Char) :
    c.toLower = c ∨ (65 ≤ c.toNat ∧ c.toNat ≤ 90 ∧ c.toLower.toNat = c.toNat + 32) := by
  by_cases hupper : c.val ≥ 'A'.val ∧ c.val ≤ 'Z'.val
  · obtain ⟨hlow, hhigh⟩ := hupper
    have hlow' : 65 ≤ c.toNat := hlow
    have hhigh' : c.toNat ≤ 90 := hhigh
    refine .inr ⟨hlow', hhigh', ?_⟩
    have hlower : c.toLower.val = c.val + ('a'.val - 'A'.val) := by
      unfold Char.toLower
      rw [dif_pos ⟨hlow, hhigh⟩]
    have hshift : ('a'.val - 'A'.val).toNat = 32 := by decide
    calc c.toLower.toNat = (c.val + ('a'.val - 'A'.val)).toNat := by rw [← hlower]; rfl
      _ = (c.toNat + 32) % 2 ^ 32 := by rw [UInt32.toNat_add, hshift]; rfl
      _ = c.toNat + 32 := Nat.mod_eq_of_lt (by omega)
  · refine .inl ?_
    unfold Char.toLower
    exact dif_neg hupper

theorem colon_of_toLower {c : Char} (h : c.toLower = ':') : c = ':' := by
  rcases toLower_cases c with hsame | ⟨hlow, -, hlower⟩
  · rw [← hsame, h]
  · rw [h] at hlower
    have hcolon : (':' : Char).toNat = 58 := by decide
    omega

theorem IsMappedPrefix.chars {text : List Char} (h : IsMappedPrefix text) {c : Char}
    (hc : c ∈ text) : c = ':' ∨ isHexDigit c = true := by
  have hlower : c.toLower ∈ "::ffff:".toList := by
    rw [← h]
    exact List.mem_map_of_mem hc
  have hletters : ∀ d ∈ "::ffff:".toList, d = ':' ∨ d = 'f' := by decide
  rcases hletters _ hlower with hcolon | hletter
  · exact .inl (colon_of_toLower hcolon)
  · right
    rcases toLower_cases c with hsame | ⟨-, -, hupper⟩
    · rw [← hsame, hletter]
      decide
    · rw [hletter] at hupper
      have hf : ('f' : Char).toNat = 102 := by decide
      have hcapital : c = 'F' := by
        rw [← Char.toNat_inj]
        have hF : ('F' : Char).toNat = 70 := by decide
        omega
      rw [hcapital]
      decide

theorem IsMappedPrefix.length_eq {text : List Char} (h : IsMappedPrefix text) :
    text.length = 7 := by
  rw [← List.length_map Char.toLower, h]
  rfl

theorem IsMappedPrefix.cons {text : List Char} (h : IsMappedPrefix text) :
    ∃ rest, text = ':' :: ':' :: rest := by
  have hlen := h.length_eq
  match text, hlen with
  | c :: d :: rest, _ =>
    obtain ⟨hfirst, hrest⟩ := List.cons.inj h
    exact ⟨rest, by rw [colon_of_toLower hfirst, colon_of_toLower (List.cons.inj hrest).1]⟩

def IsAddressChar (c : Char) : Prop := c = '.' ∨ c = ':' ∨ isHexDigit c = true

theorem V4.chars {text : List Char} {bytes : Bytes} (h : V4 text bytes) {c : Char} (hc : c ∈ text) :
    IsAddressChar c := by
  cases h with
  | quad h =>
    rcases h.chars hc with hdot | hdigit
    · exact .inl hdot
    · exact .inr (.inr (isHexDigit_of_isDigit hdigit))
  | mapped hfront h =>
    rcases List.mem_append.mp hc with hc | hc
    · exact .inr (hfront.chars hc)
    · rcases h.chars hc with hdot | hdigit
      · exact .inl hdot
      · exact .inr (.inr (isHexDigit_of_isDigit hdigit))

theorem V4.dot_mem {text : List Char} {bytes : Bytes} (h : V4 text bytes) : '.' ∈ text := by
  cases h with
  | quad h => exact h.dot_mem
  | mapped hfront h => exact List.mem_append_right _ h.dot_mem

theorem groups_chars {groups : List (List Char)} (hall : ∀ g ∈ groups, IsGroup g) {c : Char}
    (hc : c ∈ joined ':' groups) : c = ':' ∨ isHexDigit c = true := by
  rcases mem_joined hc with hcolon | ⟨g, hg, hmem⟩
  · exact .inl hcolon
  · exact .inr ((hall g hg).2.2 c hmem)

theorem Gap.chars {count : Nat} {text : List Char} {bytes : Bytes} (h : Gap count text bytes)
    {c : Char} (hc : c ∈ text) : c = ':' ∨ isHexDigit c = true := by
  cases h with
  | groups hleft hright hcount =>
    rcases List.mem_append.mp hc with hc | hc
    · exact groups_chars hleft hc
    · rcases List.mem_cons.mp hc with hcolon | hc
      · exact .inl hcolon
      · rcases List.mem_cons.mp hc with hcolon | hc
        · exact .inl hcolon
        · exact groups_chars hright hc

theorem V6.chars {text : List Char} {bytes : Bytes} (h : V6 text bytes) {c : Char} (hc : c ∈ text) :
    c = ':' ∨ isHexDigit c = true := by
  cases h with
  | full hall hlen => exact groups_chars hall hc
  | gap hcount h => exact h.chars hc

theorem V4.length_bytes {text : List Char} {bytes : Bytes} (h : V4 text bytes) :
    bytes.length = 4 := by
  cases h with
  | quad h => exact h.length_bytes
  | mapped hfront h => exact h.length_bytes

theorem length_flatMap_groupBytes (groups : List (List Char)) :
    (groups.flatMap groupBytes).length = 2 * groups.length := by
  induction groups with
  | nil => rfl
  | cons g rest ih =>
    rw [List.flatMap_cons, List.length_append, ih]
    simp only [groupBytes, List.length_cons, List.length_nil]
    omega

theorem Gap.length_bytes {count : Nat} {text : List Char} {bytes : Bytes}
    (h : Gap count text bytes) (hcount : count ≤ 8) : bytes.length = 16 := by
  cases h with
  | groups hleft hright hsum =>
    rw [length_flatMap_groupBytes]
    simp only [List.length_append, List.length_replicate]
    omega

theorem V6.length_bytes {text : List Char} {bytes : Bytes} (h : V6 text bytes) :
    bytes.length = 16 := by
  cases h with
  | full hall hlen => rw [length_flatMap_groupBytes, hlen]
  | gap hcount h => exact h.length_bytes (by omega)

end IpAddress
