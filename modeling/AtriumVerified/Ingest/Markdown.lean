import AtriumVerified.Ingest.Validate

/-!
# Pasted transcripts

The model of `packages/ingest/src/markdown.ts`: the lines of a document become blocks, a header and
what follows it, and the blocks become messages.
-/

namespace Ingest

open Js Core Regex

/-! ## Headers -/

/-- `.`. -/
def dot : Pattern := .one fun c => !isLineTerminator c

/-- `\s`. -/
def space : Pattern := .one isSpace

/-- `\d{n}`. -/
def digits (n : Nat) : Pattern := .rep n (some n) true (.one isDigit)

def heading : Pattern :=
  all [.start, .rep 1 (some 6) true (.one (· == '#')), many1 space,
    .group 1 (.rep 1 none false dot), many space, .finish]

def fence : Pattern :=
  all [.start, .rep 0 (some 3) true (.one (· == ' ')),
    .group 1 (.alt (all [lit "``", many1 (.one (· == '`'))])
      (all [lit "~~", many1 (.one (· == '~'))]))]

def boldAuthor : Pattern :=
  all [.start, lit "**", .group 1 (many1 (.one (· != '*'))), lit "**", many space,
    .group 2 (.rep 0 none false dot), many space, .finish]

def replyMarker : Pattern :=
  all [.alt
      (all [.one fun c => c == '(' || c == '[', many space, opt (all [litCI "in", many1 space]),
        litCI "repl", .alt (litCI "y") (litCI "ying"), many1 space, litCI "to", many1 space, lit "#",
        .group 1 (many1 (.one isDigit)), many space, .one fun c => c == ')' || c == ']'])
      (all [lit "↳", many space, lit "#", .group 2 (many1 (.one isDigit))]),
    many space, .finish]

/-- `TIMESTAMP`. -/
def timestampPattern : Pattern :=
  all [.group 1 (all [digits 4, lit "-", digits 2, lit "-", digits 2]),
    opt (all [.one fun c => c == 'T' || c == ' ', .group 2 (digits 2), lit ":",
      .group 3 (digits 2), opt (all [lit ":", .group 4 (digits 2)])]),
    many space,
    opt (.group 5 (any [lit "Z", lit "z",
      all [.one fun c => c == '+' || c == '-', digits 2, opt (lit ":"), digits 2]]))]

def authorTrim : Pattern :=
  .alt (all [.start, many1 (.one fun c => isSpace c || "-–—·|@[(".toList.contains c)])
    (all [many1 (.one fun c => isSpace c || "-–—·|:,[]()".toList.contains c), .finish])

/-- What a group of an executed pattern captured. -/
def groupOf (index : Nat) (groups : List (Nat × List Char)) : Option (List Char) :=
  (groups.find? fun g => g.1 == index).map Prod.snd

structure HeaderCandidate where
  author : Option (List Char)
  rest : List Char
  requiresTimestamp : Bool

def headingCandidate (line : List Char) : Option HeaderCandidate :=
  (search heading [] line).map fun found =>
    ⟨none, (groupOf 1 found.2.groups).getD [], false⟩

def headerCandidate (line : List Char) : Option HeaderCandidate :=
  match search boldAuthor [] line with
  | none => headingCandidate line
  | some (_, last) =>
    let author := trim ((groupOf 1 last.groups).getD [])
    let rest := (groupOf 2 last.groups).getD []
    if author.isEmpty then headingCandidate line
    else some ⟨some author, rest, trim rest != [] && trim rest != [':']⟩

/-- `Number.parseInt(digits, 10)`, where it is finite. -/
def finiteOrdinal (text : List Char) : Option Nat :=
  if numberOf text < 2 ^ 1024 - 2 ^ 970 then some (numberOf text) else none

/-- The ordinal of the reply marker at the end of a text, and the text before the marker. -/
def splitReply (rest : List Char) : Option Nat × List Char :=
  match search replyMarker [] rest with
  | none => (none, rest)
  | some (first, last) =>
    (finiteOrdinal ((groupOf 1 last.groups).getD ((groupOf 2 last.groups).getD [])),
      first.before.reverse)

/-- The text that `buildTimestamp` normalizes. -/
def timestampText (groups : List (Nat × List Char)) (defaultOffset : String) : String :=
  let part (index : Nat) : List Char := (groupOf index groups).getD ['0', '0']
  let zone :=
    match groupOf 5 groups with
    | none => defaultOffset.toList
    | some offset => if offset = ['z'] then ['Z'] else offset
  String.ofList ((groupOf 1 groups).getD [] ++ 'T' :: part 2 ++ ':' :: part 3 ++ ':' :: part 4 ++ zone)

/-! ## Blocks -/

/-- `MarkdownOptions`, with the defaults. -/
structure MarkdownOptions where
  sourceId : String := "transcript"
  defaultOffset : String := "Z"
  defaultTs : Option String := none

structure MarkdownIssue where
  line : Nat
  message : String
  deriving DecidableEq, Repr

structure Block where
  line : Nat
  author : String
  ts : Option Timestamp
  replyOrdinal : Option Nat
  body : List String
  deriving DecidableEq, Repr

/-- What a header says, and what is wrong with its time. -/
structure Header where
  author : String
  ts : Option Timestamp
  replyOrdinal : Option Nat
  problem : Option String

/-- What the line is, where it is not in a fence. A header that has no author is one too. -/
def readHeader (platform : Platform) (defaultOffset : String) (line : String) : Option Header :=
  (headerCandidate line.toList).bind fun candidate =>
    let (replyOrdinal, rest) := splitReply candidate.rest
    match search timestampPattern [] rest with
    | none =>
      if candidate.requiresTimestamp then none
      else some ⟨authorOf candidate rest, none, replyOrdinal, none⟩
    | some (first, last) =>
      let author := authorOf candidate (first.before.reverse ++ ' ' :: last.after)
      match normalizeTimestamp platform (timestampText last.groups defaultOffset) with
      | .ok ts => some ⟨author, some ts, replyOrdinal, none⟩
      | .error message => some ⟨author, none, replyOrdinal, some message⟩
where
  /-- The author, without what people put around a name. -/
  authorOf (candidate : HeaderCandidate) (rest : List Char) : String :=
    String.ofList (trim (replace authorTrim (fun _ => []) (candidate.author.getD rest)))

/-- Where the line loop is. `current` is the last of the blocks, where it is open. -/
structure Reading where
  blocks : List Block := []
  current : Option Block := none
  insideFence : Bool := false
  issues : List MarkdownIssue := []

def Reading.allBlocks (reading : Reading) : List Block := reading.blocks ++ reading.current.toList

/-- `if (current) current.body.push(line)`. -/
def Reading.push (reading : Reading) (line : String) : Reading :=
  { reading with current := reading.current.map fun block => { block with body := block.body ++ [line] } }

def Reading.start (reading : Reading) (lineNumber : Nat) (header : Header) : Reading :=
  let issues := reading.issues ++ header.problem.toList.map fun message => ⟨lineNumber, message⟩
  if header.author = "" then
    { reading with
      blocks := reading.allBlocks
      current := none
      issues := issues ++ [⟨lineNumber, "header has no author"⟩] }
  else
    { reading with
      blocks := reading.allBlocks
      current := some ⟨lineNumber, header.author, header.ts, header.replyOrdinal, []⟩
      issues }

def Reading.step (platform : Platform) (defaultOffset : String) (reading : Reading)
    (lineNumber : Nat) (line : String) : Reading :=
  if test fence line.toList then
    { reading with insideFence := !reading.insideFence }.push line
  else if reading.insideFence then reading.push line
  else
    match readHeader platform defaultOffset line with
    | none => reading.push line
    | some header => reading.start lineNumber header

def Reading.run (platform : Platform) (defaultOffset : String) (reading : Reading) :
    Nat → List String → Reading
  | _, [] => reading
  | lineNumber, line :: rest =>
    (reading.step platform defaultOffset lineNumber line).run platform defaultOffset
      (lineNumber + 1) rest

def documentLines (source : String) : List String :=
  ((normalizeDocument source.toList).splitOn '\n').map String.ofList

/-! ## Messages -/

section Messages

variable [Unicode] (platform : Platform)

def ordinalWidth (count : Nat) : Nat := max 4 (toString count).length

def idFor (sourceId : String) (width ordinal : Nat) : Id :=
  "md:" ++ sourceId ++ ":" ++ String.ofList (padded width ordinal)

def Block.text (block : Block) : String :=
  String.ofList (trimBlockBody ("\n".intercalate block.body).toList)

def Block.message (block : Block) (sourceId : String) (width ordinal : Nat) (ts : Timestamp) :
    IngestMessage :=
  let attachments := extractAttachments platform block.text
  { id := idFor sourceId width ordinal
    author := block.author
    ts
    text := block.text
    replyTo := block.replyOrdinal.map (idFor sourceId width)
    attachments := if attachments.isEmpty then none else some attachments }

/-- A message with the ordinal and the line of its block. -/
structure Emitted where
  message : IngestMessage
  ordinal : Nat
  line : Nat

def emit (sourceId : String) (width : Nat) (defaultTs : Option Timestamp) :
    Nat → Option Timestamp → List Block → List MarkdownIssue × List Emitted
  | _, _, [] => ([], [])
  | ordinal, previousTs, block :: rest =>
    match (block.ts.or previousTs).or defaultTs with
    | none =>
      let (issues, emitted) := emit sourceId width defaultTs (ordinal + 1) previousTs rest
      (⟨block.line,
        "message has no timestamp, no predecessor to inherit one from, and no defaultTs"⟩ :: issues,
        emitted)
    | some ts =>
      let (issues, emitted) := emit sourceId width defaultTs (ordinal + 1) (some ts) rest
      match block.replyOrdinal.filter fun reply => reply < 1 || ordinal ≤ reply with
      | some reply =>
        (⟨block.line, s!"reply marker #{reply} must refer to an earlier message (1..{ordinal - 1})"⟩
          :: issues, emitted)
      | none =>
        (issues, ⟨block.message platform sourceId width ordinal ts, ordinal, block.line⟩ :: emitted)

def replyOrderIssue (messages : List IngestMessage) (emitted : Emitted) : Option MarkdownIssue :=
  emitted.message.replyTo.bind fun parent =>
    (messages.reverse.find? fun message => message.id == parent).bind fun found =>
      if lt emitted.message.ts found.ts then
        some ⟨emitted.line, s!"message #{emitted.ordinal} is timestamped {emitted.message.ts} but replies to {parent}, " ++
          s!"timestamped {found.ts} — in canonical (ts, id) order the reply would come before its parent"⟩
      else none

def replyOrderIssues (emitted : List Emitted) : List MarkdownIssue :=
  emitted.filterMap (replyOrderIssue (emitted.map Emitted.message))

def readDefaultTs (defaultTs : Option String) : List MarkdownIssue × Option Timestamp :=
  match defaultTs.map (normalizeTimestamp platform) with
  | none => ([], none)
  | some (.ok ts) => ([], some ts)
  | some (.error message) => ([⟨0, message⟩], none)

/-- The blocks of a document, and the issues found on the way. -/
def readBlocks (source : String) (options : MarkdownOptions) : Reading :=
  Reading.run platform options.defaultOffset {} 1 (documentLines source)

/-- `markdownToMessages`, or the issues of the `MarkdownConversionError`. -/
def markdownToMessages (source : String) (options : MarkdownOptions) :
    Except (List MarkdownIssue) (List IngestMessage) :=
  let (defaultIssues, defaultTs) := readDefaultTs platform options.defaultTs
  let reading := readBlocks platform source options
  let blocks := reading.allBlocks
  let issues := defaultIssues ++ reading.issues
  if blocks.isEmpty then .error (issues ++ [⟨1, "no message headers found"⟩])
  else
    let (emitIssues, emitted) := emit platform options.sourceId (ordinalWidth blocks.length)
      defaultTs 1 none blocks
    let issues := issues ++ emitIssues ++ replyOrderIssues emitted
    if issues.isEmpty then .ok (emitted.map Emitted.message) else .error issues

end Messages

end Ingest
