import AtriumVerified.Core.Common
import AtriumVerified.Lib.JsonText
import AtriumVerified.Lib.Regex
import AtriumVerified.Lib.Unicode

/-!
# Bodies, attachments and timestamps

The model of `packages/ingest/src/text.ts`: how a pasted document is prepared for its parser, which
attachments a body names, and how a timestamp is brought to UTC. What `new URL` and `new Date` read
is a parameter.
-/

namespace Ingest

open Js Regex

/-- What a URL consists of, as far as it is asked for. -/
structure Url where
  protocol : String
  hostname : String
  pathname : String

/-- What the platform and the schema library read. -/
structure Platform where
  /-- `new URL(text)`: `none` where it throws. -/
  parseUrl : String → Option Url
  /-- `z.url({ protocol: /^https?$/ })`: what it returns for a text it accepts. -/
  readUrl : String → Option String
  /-- `new Date(text).getTime()`: `none` is `NaN`. -/
  parseDate : String → Option Int
  /-- The message of what `JSON.parse` throws. -/
  syntaxError : String → String

/-! ## Documents -/

/-- `\r\n?`. -/
def lineEnding : Pattern := all [lit "\r", opt (lit "\n")]

def normalizeDocument (input : List Char) : List Char :=
  let withoutBom := if input.head?.any fun c => c.toNat == 0xFEFF then input.drop 1 else input
  replace lineEnding (fun _ => ['\n']) withoutBom

/-- `[ \t]`. -/
def isBlank (c : Char) : Bool := c == ' ' || c == '\t'

/-- `text.replace(pattern, '')` for a pattern without the `g` flag. -/
def removeFirst (r : Pattern) (text : List Char) : List Char :=
  match search r [] text with
  | some (first, last) => first.before.reverse ++ last.after
  | none => text

/-- `^(?:[ \t]*\n)+`. -/
def leadingBlankLines : Pattern := all [.start, many1 (all [many (.one isBlank), lit "\n"])]

/-- `(?:\n[ \t]*)+$`. -/
def trailingBlankLines : Pattern := all [many1 (all [lit "\n", many (.one isBlank)]), .finish]

def trimBlockBody (input : List Char) : List Char :=
  removeFirst trailingBlankLines (removeFirst leadingBlankLines input)

/-! ## Patterns of attachments -/

/-- `([^\]\n]*)`. -/
def bracketed (index : Nat) : Pattern := .group index (many (.one fun c => c != ']' && c != '\n'))

/-- `https?:\/\/` and at least one character that does not end the URL. -/
def httpUrl (ends : Char → Bool) : Pattern :=
  all [lit "http", opt (lit "s"), lit "://", many1 (.one fun c => !ends c)]

/-- `\(\s*<?(https?:\/\/[^\s)>]+)>?[^)]*\)`. -/
def inlineTarget (index : Nat) : Pattern :=
  all [lit "(", many (.one isSpace), opt (lit "<"),
    .group index (httpUrl fun c => isSpace c || c == ')' || c == '>'),
    opt (lit ">"), many (.one (· != ')')), lit ")"]

/-- `(^|[^!])`. -/
def noBang (index : Nat) : Pattern := .group index (.alt .start (.one (· != '!')))

def inlineImage : Pattern := all [lit "![", bracketed 1, lit "]", inlineTarget 2]

def inlineLink : Pattern := all [noBang 1, lit "[", bracketed 2, lit "]", inlineTarget 3]

def referenceImage : Pattern :=
  all [lit "![", bracketed 1, lit "]", opt (all [lit "[", bracketed 2, lit "]"])]

def referenceLink : Pattern := all [noBang 1, lit "[", bracketed 2, lit "][", bracketed 3, lit "]"]

/-- What ends a line for `^` and `$` under the `m` flag. -/
def isLineTerminator (c : Char) : Bool :=
  c == '\n' || c == '\r' || c.toNat == 0x2028 || c.toNat == 0x2029

/-- `^` under the `m` flag. -/
def lineStart : Pattern := .alt .start (.behind isLineTerminator)

/-- `$` under the `m` flag. -/
def lineFinish : Pattern := .alt .finish (.ahead (.one isLineTerminator))

def referenceDefinition : Pattern :=
  all [lineStart, .rep 0 (some 3) true (.one isBlank), lit "[",
    .group 1 (many1 (.one fun c => c != ']' && c != '\n')), lit "]:", many (.one isBlank),
    opt (lit "<"), .group 2 (.rep 1 none false (.one fun c => !isSpace c)), opt (lit ">"),
    many (.one isBlank),
    opt (.alt (all [lit "\"", many (.one (· != '"')), lit "\""])
      (all [lit "'", many (.one (· != '\'')), lit "'"])),
    many (.one isBlank), lineFinish]

def htmlImageTag : Pattern := all [litCI "<img", wordBoundary, many (.one (· != '>')), lit ">"]

/-- `["']`. -/
def isQuote (c : Char) : Bool := c == '"' || c == '\''

def htmlSrc : Pattern :=
  all [wordBoundary, litCI "src=", opt (.one isQuote),
    .group 1 (many1 (.one fun c => !(isQuote c || isSpace c || c == '>'))), opt (.one isQuote)]

def htmlAlt : Pattern :=
  all [wordBoundary, litCI "alt=", .one isQuote, .group 1 (many (.one fun c => !isQuote c)),
    .one isQuote]

def autolink : Pattern :=
  all [lit "<", .group 1 (httpUrl fun c => c == '>' || isSpace c), lit ">"]

def bareUrl : Pattern := httpUrl fun c => isSpace c || "<>()[]\"'`".toList.contains c

def trailingPunctuation : Pattern :=
  all [many1 (.one fun c => ".,;:!?".toList.contains c), .finish]

/-! ## Attachments -/

structure IngestAttachment where
  name : String
  url : String
  contentType : Option String := none
  deriving DecidableEq, Repr

structure Candidate where
  /-- Its place in the body. -/
  at_ : Nat
  alt : String
  url : String

/-- Matches with their places, when the first has `start` characters before it and what is skipped
ahead of it. -/
def placed : Nat → List Hit → List (Nat × Hit)
  | _, [] => []
  | start, hit :: rest =>
    (start + hit.skipped.length, hit) ::
      placed (start + hit.skipped.length + hit.matched.length) rest

/-- `body.matchAll(pattern)`. -/
def matchesOf (r : Pattern) (body : String) : List (Nat × Hit) := placed 0 (scan r body.toList).1

/-- What a group captured, and the empty text for `undefined`. -/
def captured (hit : Hit) (index : Nat) : String := String.ofList ((hit.group? index).getD [])

/-- `pattern.exec(text)?.[index]`. -/
def execGroup (r : Pattern) (index : Nat) (text : List Char) : Option String :=
  (search r [] text).bind fun found =>
    (found.2.groups.find? fun g => g.1 == index).map fun g => String.ofList g.2

def attachmentHosts : List String :=
  ["user-images.githubusercontent.com", "private-user-images.githubusercontent.com",
    "raw.githubusercontent.com", "objects.githubusercontent.com", "media.githubusercontent.com"]

def attachmentPaths : List (String × List String) :=
  [("github.com", ["/user-attachments/"]), ("www.github.com", ["/user-attachments/"])]

/-- `candidates` of one syntax, without those of no URL. -/
def candidatesOf (r : Pattern) (read : Nat → Hit → Option Candidate) (body : String) :
    List Candidate :=
  ((matchesOf r body).filterMap fun found => read found.1 found.2).filter fun candidate =>
    candidate.url != ""

section Attachments

variable [Unicode] (platform : Platform)

def isAttachmentUrl (url : String) : Bool :=
  match platform.parseUrl url with
  | none => false
  | some parsed =>
    if parsed.protocol ≠ "https:" ∧ parsed.protocol ≠ "http:" then false
    else
      let host := String.ofList (Unicode.toLowerCase parsed.hostname.toList)
      attachmentHosts.contains host ||
        ((attachmentPaths.lookup host).getD []).any fun start =>
          start.toList.isPrefixOf parsed.pathname.toList

/-- The last segment of the path of a URL, decoded. -/
def fileNameOf (url : String) : Option String := do
  let parsed ← platform.parseUrl url
  let last ← ((parsed.pathname.toList.splitOn '/').filter fun segment => !segment.isEmpty).getLast?
  let decoded ← decodeURIComponent last
  return String.ofList decoded

def nameFor (alt url : String) : String :=
  if trim alt.toList ≠ [] then String.ofList (trim alt.toList)
  else (fileNameOf platform url).getD "attachment"

/-- `text.trim().toLowerCase()`. -/
def labelOf (text : String) : List Char := Unicode.toLowerCase (trim text.toList)

/-- `referenceDefinitions`: the entries of the map. -/
def referenceDefinitions (body : String) : List (List Char × String) :=
  (matchesOf referenceDefinition body).foldl (fun definitions found =>
    let label := labelOf (captured found.2 1)
    if label ≠ [] ∧ (definitions.lookup label).isNone then
      definitions ++ [(label, captured found.2 2)]
    else definitions) []

/-- The URL that a reference resolves to: an empty label means the text. -/
def resolve (definitions : List (List Char × String)) (alt label : String) : Option String :=
  definitions.lookup (labelOf (if trim label.toList = [] then alt else label))

def inlineImages : String → List Candidate :=
  candidatesOf inlineImage fun place hit => some ⟨place, captured hit 1, captured hit 2⟩

def inlineLinks : String → List Candidate :=
  candidatesOf inlineLink fun place hit =>
    some ⟨place + (captured hit 1).length, captured hit 2, captured hit 3⟩

/-- The reference-style images of a body. One without a label that is followed by `(` is an inline
image. -/
def referenceImages (body : String) : List Candidate :=
  candidatesOf referenceImage (fun place hit =>
    if (hit.group? 2).isNone ∧ (body.toList.drop (place + hit.matched.length)).head? = some '(' then
      none
    else
      (resolve (referenceDefinitions body) (captured hit 1) (captured hit 2)).map fun url =>
        ⟨place, captured hit 1, url⟩) body

def referenceLinks (body : String) : List Candidate :=
  candidatesOf referenceLink (fun place hit =>
    (resolve (referenceDefinitions body) (captured hit 2) (captured hit 3)).map fun url =>
      ⟨place + (captured hit 1).length, captured hit 2, url⟩) body

def htmlImages : String → List Candidate :=
  candidatesOf htmlImageTag fun place hit =>
    (execGroup htmlSrc 1 hit.matched).map fun url =>
      ⟨place, (execGroup htmlAlt 1 hit.matched).getD "", url⟩

def autolinks : String → List Candidate :=
  candidatesOf autolink fun place hit => some ⟨place, "", captured hit 1⟩

/-- The bare URLs of a body, without the punctuation behind them. -/
def bareUrls : String → List Candidate :=
  candidatesOf bareUrl fun place hit =>
    some ⟨place, "", String.ofList (removeFirst trailingPunctuation hit.matched)⟩

def uploads (found : List Candidate) : List Candidate :=
  found.filter fun candidate => isAttachmentUrl platform candidate.url

/-- `candidates`, syntax by syntax. -/
def candidates (body : String) : List Candidate :=
  inlineImages body ++ uploads platform (inlineLinks body) ++ referenceImages body ++
    uploads platform (referenceLinks body) ++ htmlImages body ++
    uploads platform (autolinks body) ++ uploads platform (bareUrls body)

/-- `found`: the first candidate of each URL. -/
def firstOfEach (found : List Candidate) : List IngestAttachment :=
  found.foldl (fun kept candidate =>
    if kept.any fun attachment => attachment.url == candidate.url then kept
    else kept ++ [{ name := nameFor platform candidate.alt candidate.url, url := candidate.url }]) []

def extractAttachments (body : String) : List IngestAttachment :=
  firstOfEach platform
    ((candidates platform body).mergeSort fun a b => decide (a.at_ ≤ b.at_))

end Attachments

/-! ## Timestamps -/

def isoWithOffset : Pattern :=
  let two := [Pattern.one isDigit, Pattern.one isDigit]
  let sign := Pattern.one fun c => c == '+' || c == '-'
  all ([Pattern.start, Pattern.one isDigit, Pattern.one isDigit] ++ two ++ [lit "-"] ++ two ++
    [lit "-"] ++ two ++ [lit "T"] ++ two ++ [lit ":"] ++ two ++ [lit ":"] ++ two ++
    [opt (all [lit ".", many1 (Pattern.one isDigit)]),
      Pattern.alt (lit "Z") (all ([sign] ++ two ++ [opt (lit ":")] ++ two)), Pattern.finish])

/-- The milliseconds of the 400 years after which the calendar repeats itself. -/
def calendarCycle : Int := 146097 * 86400000

/-- `date.toISOString()`: the years outside 0 to 9999 have a sign and six digits. -/
def toISOString (ms : Int) : String :=
  if Calendar.firstMs ≤ ms ∧ ms ≤ Calendar.lastMs then
    String.ofList (Calendar.fromMillis ms).isoText
  else
    let cycles := (ms - Calendar.firstMs) / calendarCycle
    let date := Calendar.fromMillis (ms - cycles * calendarCycle)
    let year := (date.year : Int) + 400 * cycles
    String.ofList ((if year < 0 then '-' else '+') :: padded 6 year.natAbs ++ date.isoText.drop 4)

/-- `normalizeTimestamp`, or the message of what it throws. -/
def normalizeTimestamp (platform : Platform) (value : String) : Except String String :=
  if test isoWithOffset (trim value.toList) then
    match platform.parseDate (String.ofList (trim value.toList)) with
    | some ms => .ok (toISOString ms)
    | none => .error ("unparseable timestamp: " ++ quote value)
  else .error ("timestamp is not ISO-8601 with an offset: " ++ quote value)

end Ingest
