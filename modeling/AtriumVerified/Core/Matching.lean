import AtriumVerified.Lib.Regex
import AtriumVerified.Lib.Unicode
import AtriumVerified.Core.Common

/-!
# Matching a quote against a message

The model of `packages/core/src/matching.ts`: the two normal forms of a text (for a receipt and for
routing), the Markdown structure a text carries, its tokens and sentences, and the alignment of two
token runs.
-/

namespace Core

open Regex Unicode

abbrev Text := List Char

variable [Unicode]

def contentful (c : Char) : Bool :=
  isLetter c || isNumber c || isExtendedPictographic c || isRegionalIndicator c

/-- `hasContent`; a missing text has none. -/
def hasContent (text : Option Text) : Bool := text.any fun t => t.any contentful

def isBlank (text : Option Text) : Bool := !hasContent text

/-- `DELETABLE`: the zero-width characters that carry nothing. -/
def deletable (c : Char) : Bool :=
  [0x200B, 0x2060, 0x2061, 0x2062, 0x2063, 0x2064, 0xFEFF].contains c.toNat

/-- The characters of `LINE_BREAK`. -/
def lineBreak (c : Char) : Bool :=
  [0x0A, 0x0B, 0x0C, 0x0D, 0x85, 0x2028, 0x2029].contains c.toNat

/-- `text.replace(DELETABLE, '').replace(/[’ʼ]/g, "'")`. -/
def foldMarks (text : Text) : Text :=
  (text.filter fun c => !deletable c).map fun c => if c == '’' || c == 'ʼ' then '\'' else c

/-- `text.replace(WHITESPACE_RUN, ' ')`. -/
def collapseWhitespace (text : Text) : Text :=
  replace (many1 (.one isWhiteSpace)) (fun _ => [' ']) text

def markdownLink : Pattern :=
  all [.group 1 (opt (lit "!")), lit "[", .group 2 (many (.one (· != ']'))), lit "](",
    many (.one Js.isSpace), .group 3 (many (.one fun c => c != ')' && !Js.isSpace c)),
    opt (all [many1 (.one Js.isSpace), lit "\"", .group 4 (many (.one (· != '"'))), lit "\""]),
    many (.one Js.isSpace), lit ")"]

/-- `unfoldLink`: a link as its label, destination and title in a row. -/
def unfoldLink (hit : Hit) : Text :=
  let bang := (hit.group? 1).getD []
  let text := Js.trim ((hit.group? 2).getD [])
  let target := Js.trim ((hit.group? 3).getD [])
  let caption := Js.trim ((hit.group? 4).getD [])
  let linked := if target.isEmpty || text == target then text else text ++ ' ' :: target
  bang ++ if caption.isEmpty then linked else linked ++ ' ' :: caption

def codeSpan : Pattern :=
  any [all [lit "```", .rep 0 none false (.one fun _ => true), lit "```"],
    all [lit "``", .rep 0 none false (.one fun _ => true), lit "``"],
    all [lit "`", many (.one fun c => c != '`' && c != '\n'), lit "`"]]

def foldProse (text : Text) : Text :=
  collapseWhitespace (replace markdownLink unfoldLink (foldMarks text))

/-- `normalizeForReceipt`: prose is folded, code is kept as it is. -/
def normalizeForReceipt (text : Text) : Text :=
  Js.trim ((splitKeeping codeSpan text).flatMap fun (isCode, segment) =>
    if isCode then segment else foldProse segment)

/-! ## Markdown structure -/

/-- `collapse`: one line without its spacing. -/
def collapse (text : Text) : Text := Js.trim (collapseWhitespace text)

/-- `linkStructures`: the links of a text, sorted. -/
def linkStructures (text : Text) : List String :=
  Js.sort ((splitKeeping codeSpan text).flatMap fun (isCode, segment) =>
    if isCode then []
    else (scan markdownLink (foldMarks segment)).1.map fun hit =>
      let caption := match hit.group? 4 with
        | none => []
        | some title => " \"".toList ++ collapse title ++ ['"']
      String.ofList ((hit.group? 1).getD [] ++ '[' :: collapse ((hit.group? 2).getD []) ++
        "](".toList ++ collapse ((hit.group? 3).getD []) ++ caption ++ [')']))

/-- `addedStructure`: what `statement` has and `authored` has not, with multiplicity. -/
def addedStructure (authored statement : List String) : List String :=
  match statement with
  | [] => []
  | structure' :: rest =>
    if authored.contains structure' then addedStructure (authored.erase structure') rest
    else structure' :: addedStructure authored rest

def addedLinkStructure (authored statement : Text) : List String :=
  addedStructure (linkStructures authored) (linkStructures statement)

/-- `(?=[ \t]|$)`. -/
def beforeBlank : Pattern := .ahead (any [.one fun c => c == ' ' || c == '\t', .finish])

def blockMarker : Pattern :=
  all [.start, any [
    all [.rep 1 (some 6) true (lit "#"), beforeBlank],
    lit ">",
    all [.one fun c => c == '-' || c == '+' || c == '*', beforeBlank],
    all [.rep 1 (some 9) true (.one Js.isDigit), .one fun c => c == '.' || c == ')', beforeBlank],
    all [lit "<", .one fun c =>
      inRange 'a' 'z' c || inRange 'A' 'Z' c || c == '!' || c == '/' || c == '?'],
    all [lit "[", many (.one (· != ']')), lit "]:"],
    lit "|"]]

def thematicBreak : Pattern :=
  all [.start, .rep 3 none true (all [.one fun c => c == '-' || c == '*' || c == '_',
    opt (lit " ")]), .finish]

def setextUnderline : Pattern := all [.start, many1 (lit "="), .finish]

def codeFence : Pattern :=
  all [.start, .rep 0 (some 3) true (lit " "),
    any [.rep 3 none true (lit "`"), .rep 3 none true (lit "~")]]

def lineBreakSplit : Pattern := any [lit "\r\n", .one lineBreak]

/-- The column after the leading spaces and tabs of a line, and the rest of the line. -/
def indentation : Nat → Text → Nat × Text
  | column, ' ' :: rest => indentation (column + 1) rest
  | column, '\t' :: rest => indentation (column + (4 - column % 4)) rest
  | column, rest => (column, rest)

def blockOpener (line : Text) : Option Text :=
  let (column, afterIndent) := indentation 0 line
  let rest := collapse afterIndent
  if rest.isEmpty then none
  else if 4 ≤ column then some ("    ".toList ++ rest)
  else if test thematicBreak rest || test setextUnderline rest then some rest
  else if test blockMarker rest then some rest
  else none

/-- The block openers of the segments between code spans: a segment's first line counts only when
it starts a line of the text. -/
def segmentOpeners : Bool → List (Bool × Text) → List Text
  | _, [] => []
  | atLineStart, (isCode, segment) :: rest =>
    let lines := split lineBreakSplit (foldMarks segment)
    let openers :=
      if isCode then []
      else (if atLineStart then lines else lines.drop 1).filterMap blockOpener
    let next := match segment.getLast? with
      | none => atLineStart
      | some c => lineBreak c
    openers ++ segmentOpeners next rest

def blockStructures (text : Text) : List String :=
  let fences := (split lineBreakSplit (foldMarks text)).filter (test codeFence)
  Js.sort ((fences.map collapse ++ segmentOpeners true (splitKeeping codeSpan text)).map
    String.ofList)

def isBlankLine (line : Text) : Bool := line.all isWhiteSpace

def hardLineBreak : Pattern := all [any [.rep 2 none true (lit " "), lit "\\"], .finish]

/-- The breaks before the lines of a text: `previous` is the last line that is not blank, with
whether it stands directly above. -/
def breaksBefore : Option (Text × Bool) → List Text → List Text
  | _, [] => []
  | previous, line :: rest =>
    if isBlankLine line then breaksBefore (previous.map fun p => (p.1, false)) rest
    else
      let found := match previous with
        | none => []
        | some (above, adjacent) =>
          if !adjacent then ["blank line before \"".toList ++ collapse line ++ ['"']]
          else if test hardLineBreak above then
            ["hard line break after \"".toList ++ collapse above ++ ['"']]
          else []
      found ++ breaksBefore (some (line, true)) rest

def breakStructures (text : Text) : List String :=
  Js.sort ((breaksBefore none (split lineBreakSplit (foldMarks text))).map String.ofList)

def addedBlockStructure (authored statement : Text) : List String :=
  addedStructure (blockStructures authored ++ breakStructures authored)
    (blockStructures statement ++ breakStructures statement)

/-! ## Tokens and sentences -/

def normalizeForRouting (text : Text) : Text :=
  let quotes := (nfkc text).map fun c => if c == '’' || c == 'ʼ' then '\'' else c
  let unfolded := replace markdownLink unfoldLink quotes
  let plain := replace (many1 (.one fun c => c == '*' || c == '_' || c == '`')) (fun _ => [' '])
    unfolded
  toLowerCase (collapse (plain.filter fun c => !deletable c))

/-- `[\p{L}\p{N}\p{M}]`. -/
def wordChar (c : Char) : Bool := isLetter c || isNumber c || isMark c

def word : Pattern :=
  all [many1 (.one wordChar), many (all [lit "'", many1 (.one wordChar)])]

def orderedTokens (text : Text) : List Text :=
  matchAll (.alt word (.one fun _ => true)) (normalizeForReceipt text)

def isWhitespaceToken (token : Text) : Bool := !token.isEmpty && token.all isWhiteSpace

def routingTokens (text : Text) : List Text :=
  matchAll (.alt word (.one fun c => !Js.isSpace c)) (normalizeForRouting text)

def sentenceBreak : Pattern :=
  .alt (.seq (.behind fun c => ".!?…。？！".toList.contains c) (many1 (.one isWhiteSpace)))
    (many1 (.one lineBreak))

def sentencesOf (text : Text) : List Text :=
  ((split sentenceBreak text).map Js.trim).filter fun sentence => !sentence.isEmpty

/-! ## Alignment -/

structure ReceiptPolicy where
  minQuoteLength : Nat
  maxAlignedTokens : Nat
  maxScannedSentences : Nat
  maxLaterMessagesScanned : Nat
  maxLaterMessagesCarried : Nat

def receiptPolicy : ReceiptPolicy where
  minQuoteLength := 24
  maxAlignedTokens := 800
  maxScannedSentences := 200
  maxLaterMessagesScanned := 200
  maxLaterMessagesCarried := 201

inductive Undecidable where
  | emptyQuote
  | emptyStatement
  | tooLong
  deriving DecidableEq, Repr

structure StatementBearing where
  borne : Bool
  unmatchedInStatement : List Text
  unmatchedInQuote : List Text
  whitespaceDiffers : Bool
  undecidable : Option Undecidable
  deriving DecidableEq, Repr

def declined (undecidable : Undecidable) : StatementBearing :=
  ⟨false, [], [], false, some undecidable⟩

/-- What the alignment loop has put aside so far. -/
structure Leftovers where
  inQuote : List Text
  inStatement : List Text
  whitespaceDiffers : Bool

/-- `unaccounted(token, unmatchedInQuote)`. -/
def Leftovers.quote (left : Leftovers) (token : Text) : Leftovers :=
  if isWhitespaceToken token then { left with whitespaceDiffers := true }
  else { left with inQuote := left.inQuote ++ [token] }

/-- `unaccounted(token, unmatchedInStatement)`. -/
def Leftovers.statement (left : Leftovers) (token : Text) : Leftovers :=
  if isWhitespaceToken token then { left with whitespaceDiffers := true }
  else { left with inStatement := left.inStatement ++ [token] }

/-- The loops of `alignTokens`. Each round drops a token of one of the two runs, so their joint
length is fuel enough. -/
def alignLoop : Nat → List Text → List Text → Leftovers → Leftovers
  | 0, _, _, left => left
  | _ + 1, [], statement, left => statement.foldl Leftovers.statement left
  | _ + 1, quote, [], left => quote.foldl Leftovers.quote left
  | fuel + 1, qt :: quote, st :: statement, left =>
    if qt == st then alignLoop fuel quote statement left
    else if isWhitespaceToken qt && !isWhitespaceToken st then
      alignLoop fuel quote (st :: statement) { left with whitespaceDiffers := true }
    else if isWhitespaceToken st && !isWhitespaceToken qt then
      alignLoop fuel (qt :: quote) statement { left with whitespaceDiffers := true }
    else if quote.contains st then alignLoop fuel quote (st :: statement) (left.quote qt)
    else alignLoop fuel (qt :: quote) statement (left.statement st)

def alignTokens (quote statement : List Text) (policy : ReceiptPolicy) : StatementBearing :=
  if quote.isEmpty then declined .emptyQuote
  else if statement.isEmpty then declined .emptyStatement
  else if policy.maxAlignedTokens < quote.length || policy.maxAlignedTokens < statement.length then
    declined .tooLong
  else
    let left := alignLoop (quote.length + statement.length + 1) quote statement ⟨[], [], false⟩
    ⟨quote == statement, left.inStatement, left.inQuote, left.whitespaceDiffers, none⟩

def statementBearing (quote statement : Text) (policy : ReceiptPolicy) : StatementBearing :=
  if isBlank (some quote) then declined .emptyQuote
  else if isBlank (some statement) then declined .emptyStatement
  else alignTokens (orderedTokens quote) (orderedTokens statement) policy

def significant (text : Text) : List Text :=
  (orderedTokens text).filter fun token => !isWhitespaceToken token

/-- Whether the run extended by some of the sentences is exactly what is wanted. -/
def spansFrom (wanted : List Text) : List Text → List (List Text) → Bool
  | _, [] => false
  | run, sentence :: rest =>
    let longer := run ++ sentence
    if wanted.length < longer.length then false
    else longer == wanted || spansFrom wanted longer rest

def quoteSpansWholeSentences (quote ownText : Text) (policy : ReceiptPolicy) : Bool :=
  let wanted := significant quote
  let sentences := sentencesOf ownText
  if wanted.isEmpty then false
  else if policy.maxScannedSentences < sentences.length then false
  else (sentences.map significant).tails.any fun rest => spansFrom wanted [] rest

def quoteCoversOwnText (quote ownText : Text) : Bool :=
  let wanted := significant quote
  !wanted.isEmpty && significant ownText == wanted

/-! ## Questions -/

def questionMarks : List Nat :=
  [0x003F, 0x00BF, 0x037E, 0x055E, 0x061F, 0x1367, 0x1945, 0x2047, 0x2048, 0x2049, 0x203D, 0x2753,
    0x2754, 0x2CFA, 0x2CFB, 0x2E18, 0x2E2E, 0x2E54, 0xA60F, 0xA6F7, 0xFE16, 0xFE56, 0xFF1F, 0x11143,
    0x1E95F]

/-- `isAssertion`: no mark that looks like a question mark, the Cham danda included. -/
def isAssertion (text : Text) : Bool :=
  !text.any fun c => questionMarks.contains c.toNat || c.toNat == 0xAA5D

def readsAsQuestion (text : Text) : Bool := text.any fun c => questionMarks.contains c.toNat

end Core
