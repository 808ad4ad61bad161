import AtriumVerified.Lib.Text

/-!
# Unicode properties

The character properties and string mappings that depend on the tables of the Unicode character
database, as a parameter. The small properties are written out.
-/

/-- A version of the Unicode character database. -/
class Unicode where
  /-- `\p{L}`. -/
  isLetter : Char → Bool
  /-- `\p{N}`. -/
  isNumber : Char → Bool
  /-- `\p{M}`. -/
  isMark : Char → Bool
  /-- `\p{P}`. -/
  isPunctuation : Char → Bool
  /-- `\p{S}`. -/
  isSymbol : Char → Bool
  /-- `\p{Extended_Pictographic}`. -/
  isExtendedPictographic : Char → Bool
  /-- `text.normalize('NFKC')`. -/
  nfkc : List Char → List Char
  /-- `text.toLowerCase()`. -/
  toLowerCase : List Char → List Char

namespace Unicode

/-- `\p{White_Space}`. -/
def isWhiteSpace (c : Char) : Bool :=
  let n := c.toNat
  (0x09 ≤ n && n ≤ 0x0D) || n == 0x20 || n == 0x85 || n == 0xA0 || n == 0x1680 ||
    (0x2000 ≤ n && n ≤ 0x200A) || n == 0x2028 || n == 0x2029 || n == 0x202F || n == 0x205F ||
    n == 0x3000

/-- `\p{Regional_Indicator}`. -/
def isRegionalIndicator (c : Char) : Bool := 0x1F1E6 ≤ c.toNat && c.toNat ≤ 0x1F1FF

/-- The database restricted to ASCII, where every one of its mappings is the obvious one. -/
@[reducible] def ascii : Unicode where
  isLetter c := c.isAlpha
  isNumber c := Js.isDigit c
  isMark _ := false
  isPunctuation c := "!\"#%&'()*,-./:;?@[\\]_\x7b\x7d".toList.contains c
  isSymbol c := "$+<=>^`|~".toList.contains c
  isExtendedPictographic _ := false
  nfkc text := text
  toLowerCase text := text.map Char.toLower

end Unicode
