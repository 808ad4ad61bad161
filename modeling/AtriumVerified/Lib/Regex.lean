import AtriumVerified.Lib.Text

/-!
# Backtracking regular expressions

The fragment of ECMAScript regular expressions that the modelled sources use, with the matching
order of the standard: alternatives left to right, greedy repetitions longest first, lazy ones
shortest first, and an iteration of a repetition that consumes nothing is not taken. A matcher is a
function from a position and a continuation, so backtracking is the failure of the continuation.
-/

namespace Regex

/-- A place in a text: what stands before it (nearest first), what stands after it, and the groups
captured on the way. -/
structure Position where
  /-- The characters before the position, nearest first. -/
  before : List Char
  /-- The characters after the position. -/
  after : List Char
  /-- The captured groups, latest first. -/
  groups : List (Nat × List Char)

abbrev Matcher := Position → (Position → Option Position) → Option Position

inductive Pattern where
  /-- The empty pattern. -/
  | empty
  /-- One character of a class. -/
  | one (accepts : Char → Bool)
  /-- One after the other. -/
  | seq (first second : Pattern)
  /-- The first that leads to a match. -/
  | alt (first second : Pattern)
  /-- At least `min` and at most `max` times. -/
  | rep (min : Nat) (max : Option Nat) (greedy : Bool) (body : Pattern)
  /-- `[class]{0,max}` of a pattern without the `u` flag: `max` counts UTF-16 code units. -/
  | units (max : Nat) (greedy : Bool) (accepts : Char → Bool)
  /-- A numbered capturing group. -/
  | group (index : Nat) (body : Pattern)
  /-- `(?=body)`. -/
  | ahead (body : Pattern)
  /-- `(?!body)`. -/
  | notAhead (body : Pattern)
  /-- `(?<=[class])`: the character before the position. -/
  | behind (accepts : Char → Bool)
  /-- `\b` for a class of word characters. -/
  | boundary (isWord : Char → Bool)
  /-- `^` without the `m` flag. -/
  | start
  /-- `$` without the `m` flag. -/
  | finish

/-- Repetition of a matcher. An optional iteration must consume something, so `fuel` bounds the
iterations by the required ones and the length of the rest of the text. -/
def repeatMatch (body : Matcher) (greedy : Bool) : Nat → Nat → Option Nat → Matcher
  | 0, min, _, p, k => if min = 0 then k p else none
  | fuel + 1, min + 1, max, p, k =>
    body p fun q => repeatMatch body greedy fuel min (max.map (· - 1)) q k
  | fuel + 1, 0, max, p, k =>
    if max = some 0 then k p
    else
      let more := body p fun q =>
        if q.after.length < p.after.length then
          repeatMatch body greedy fuel 0 (max.map (· - 1)) q k
        else none
      if greedy then more <|> k p else k p <|> more

/-- At most `budget` code units of a class. -/
def unitsMatch (accepts : Char → Bool) (greedy : Bool) :
    Nat → List Char → List Char → List (Nat × List Char) → (Position → Option Position) →
      Option Position
  | _, before, [], groups, k => k ⟨before, [], groups⟩
  | budget, before, c :: rest, groups, k =>
    let size := (Js.utf16Units c).length
    let here := k ⟨before, c :: rest, groups⟩
    if accepts c && size ≤ budget then
      let more := unitsMatch accepts greedy (budget - size) (c :: before) rest groups k
      if greedy then more <|> here else here <|> more
    else here

/-- Whether a word boundary of the class `isWord` stands at the position. -/
def atBoundary (isWord : Char → Bool) (p : Position) : Bool :=
  (p.before.head?.any isWord) != (p.after.head?.any isWord)

def consumed (p q : Position) : List Char :=
  (q.before.take (q.before.length - p.before.length)).reverse

def run : Pattern → Matcher
  | .empty => fun p k => k p
  | .one accepts => fun p k =>
    match p.after with
    | [] => none
    | c :: rest => if accepts c then k { p with before := c :: p.before, after := rest } else none
  | .seq first second => fun p k => run first p fun q => run second q k
  | .alt first second => fun p k => run first p k <|> run second p k
  | .rep min max greedy body => fun p k =>
    repeatMatch (run body) greedy (min + p.after.length + 1) min max p k
  | .units max greedy accepts => fun p k =>
    unitsMatch accepts greedy max p.before p.after p.groups k
  | .group index body => fun p k =>
    run body p fun q => k { q with groups := (index, consumed p q) :: q.groups }
  | .ahead body => fun p k => if (run body p some).isSome then k p else none
  | .notAhead body => fun p k => if (run body p some).isSome then none else k p
  | .behind accepts => fun p k => if p.before.head?.any accepts then k p else none
  | .boundary isWord => fun p k => if atBoundary isWord p then k p else none
  | .start => fun p k => if p.before.isEmpty then k p else none
  | .finish => fun p k => if p.after.isEmpty then k p else none

/-- The leftmost match from a position on: where it starts and where it ends. -/
def search (r : Pattern) : List Char → List Char → Option (Position × Position)
  | before, [] => (run r ⟨before, [], []⟩ some).map fun q => (⟨before, [], []⟩, q)
  | before, c :: rest =>
    match run r ⟨before, c :: rest, []⟩ some with
    | some q => some (⟨before, c :: rest, []⟩, q)
    | none => search r (c :: before) rest

structure Hit where
  /-- The text between the previous match and this one. -/
  skipped : List Char
  /-- The matched text. -/
  matched : List Char
  /-- The captured groups. -/
  groups : List (Nat × List Char)

/-- The text a group captured, or `undefined`. -/
def Hit.group? (hit : Hit) (index : Nat) : Option (List Char) :=
  (hit.groups.find? fun g => g.1 == index).map Prod.snd

/-- All successive matches and the text after the last one. The scanned patterns match no empty
text. -/
def scanFrom (r : Pattern) : Nat → List Char → List Char → List Hit × List Char
  | 0, _, after => ([], after)
  | fuel + 1, before, after =>
    match search r before after with
    | none => ([], after)
    | some (first, last) =>
      if last.after.length < first.after.length then
        let (hits, rest) := scanFrom r fuel last.before last.after
        (⟨consumed ⟨before, after, []⟩ first, consumed first last, last.groups⟩ :: hits, rest)
      else ([], after)

/-- All successive matches in a text and the text after the last one. -/
def scan (r : Pattern) (text : List Char) : List Hit × List Char :=
  scanFrom r (text.length + 1) [] text

/-- `pattern.test(text)`. -/
def test (r : Pattern) (text : List Char) : Bool := (search r [] text).isSome

/-- `text.match(pattern) ?? []` for a global pattern. -/
def matchAll (r : Pattern) (text : List Char) : List (List Char) :=
  (scan r text).1.map Hit.matched

/-- `text.replace(pattern, replacement)` for a global pattern. -/
def replace (r : Pattern) (replacement : Hit → List Char) (text : List Char) : List Char :=
  let (hits, rest) := scan r text
  hits.flatMap (fun hit => hit.skipped ++ replacement hit) ++ rest

/-- `text.split(pattern)` for a pattern without groups. -/
def split (r : Pattern) (text : List Char) : List (List Char) :=
  let (hits, rest) := scan r text
  hits.map Hit.skipped ++ [rest]

/-- `text.split(pattern)` for a pattern that is one capturing group: the pieces and the matches
alternate. The flag says that a piece is a match. -/
def splitKeeping (r : Pattern) (text : List Char) : List (Bool × List Char) :=
  let (hits, rest) := scan r text
  hits.flatMap (fun hit => [(false, hit.skipped), (true, hit.matched)]) ++ [(false, rest)]

/-! ## Writing patterns -/

def lit (text : String) : Pattern :=
  text.toList.foldr (fun c r => .seq (.one (· == c)) r) .empty

/-- A literal text under the `i` flag, for ASCII letters. -/
def litCI (text : String) : Pattern :=
  text.toList.foldr (fun c r => .seq (.one fun d => d.toLower == c.toLower) r) .empty

def all (parts : List Pattern) : Pattern := parts.foldr .seq .empty

def any : List Pattern → Pattern
  | [] => .one fun _ => false
  | [r] => r
  | r :: rest => .alt r (any rest)

/-- `body*`. -/
def many (body : Pattern) : Pattern := .rep 0 none true body

/-- `body+`. -/
def many1 (body : Pattern) : Pattern := .rep 1 none true body

/-- `body?`. -/
def opt (body : Pattern) : Pattern := .rep 0 (some 1) true body

/-- `[a-z]`-like range. -/
def inRange (lo hi : Char) (c : Char) : Bool := lo ≤ c && c ≤ hi

/-- `\w`. -/
def isWordChar (c : Char) : Bool :=
  inRange 'a' 'z' c || inRange 'A' 'Z' c || Js.isDigit c || c == '_'

/-- `\b`. -/
def wordBoundary : Pattern := .boundary isWordChar

end Regex
