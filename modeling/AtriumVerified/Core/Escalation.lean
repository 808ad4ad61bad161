import AtriumVerified.Core.Policy
import AtriumVerified.Core.Proposal

/-!
# Receipts: checking a reading against the messages it cites

The model of the provenance half of `packages/core/src/escalation.ts`: the own text of a message,
the scan of later messages for a correction of a sentence, and the problems of a proposal's receipt.
-/

namespace Core

open Regex

structure ProvenanceMessage where
  id : Id
  authorId : Id
  body : String
  deriving DecidableEq, Repr

/-! ## The own text of a message -/

def blockquoteLine : Pattern := all [.start, many (.one Js.isSpace), lit ">"]

def lines (text : Text) : List Text := split (.one lineBreak) text

def stripReplyBlockquotes (text : Text) : Text :=
  ['\n'].intercalate ((lines text).filter fun line => !test blockquoteLine line)

def ProvenanceMessage.text (message : ProvenanceMessage) : Text := message.body.toList

/-- What the author of a message wrote, without the lines that quote somebody. -/
def ProvenanceMessage.ownText (message : ProvenanceMessage) : Text :=
  stripReplyBlockquotes message.text

def elision : Pattern := any [lit "...", lit "…"]

def retractionMarkers : List String :=
  ["i was wrong", "i'm wrong", "i am wrong", "i stand corrected", "correction", "corrected",
    "never mind", "nevermind", "scratch that", "disregard that", "i take that back", "withdrawn"]

def sedCorrection : Pattern :=
  let part (c : Char) : Bool := c != '/' && c != '\n'
  all [wordBoundary, lit "s/", many1 (.one part), lit "/", many (.one part), lit "/"]

/-- `isWordChar`. -/
def markerWordChar (c : Char) : Bool := inRange 'a' 'z' c || Js.isDigit c

/-- `containsPhrase`: whether the first occurrence of the phrase stands between characters that
belong to no word. -/
def containsPhrase (normalized phrase : Text) : Bool :=
  match Js.splitAtFirst phrase [] normalized with
  | none => false
  | some (before, after) => !before.head?.any markerWordChar && !after.head?.any markerWordChar

def clip (text : Text) (limit : Nat) : String :=
  let flat := Js.trim (replace spaces (fun _ => [' ']) text)
  String.ofList (if Js.length flat ≤ limit then flat else Js.takeUnits (limit - 1) flat ++ ['…'])

/-- Hexadecimal digits of a number, at least four of them. -/
def hexadecimal (n : Nat) : String :=
  String.ofList (Js.padStart 4 '0' ((Nat.toDigits 16 n).map Char.toUpper))

variable [Unicode]

/-- `token`: a token as a message prints it. -/
def token (value : Text) : String :=
  let printable := !value.isEmpty && value.all fun c =>
    Unicode.isLetter c || Unicode.isNumber c || Unicode.isMark c || Unicode.isPunctuation c ||
      Unicode.isSymbol c
  if printable then "\"" ++ String.ofList value ++ "\""
  else Js.join "+" (value.map fun c => "U+" ++ hexadecimal c.toNat)

def tokens (values : List Text) : String := Js.join ", " (values.map token)

/-! ## Later revisions -/

inductive Unscanned where
  | noStatementToScanFor
  | noCitationInTheWindow
  | statementTooLong
  | windowEndsAtTheCitations
  | windowCarriesFewerThanThisCheckReads
  | tooManyMessages
  | tooManySentences
  | tooManyTokensInASentence
  deriving DecidableEq, Repr

inductive LaterRevision where
  | revision (message : ProvenanceMessage) (added : List Text)
  | unscanned (why : Unscanned)
  | none (scannedAfterCitations : Nat)
  deriving DecidableEq, Repr

/-- What the sentences of one message say about the statement. -/
inductive SentenceScan where
  /-- None of them comes near it, or some are it (`restated`). -/
  | clean (restated : Bool)
  | found (result : LaterRevision)

/-- The loop over the sentences of one later message. -/
def scanSentences (message : ProvenanceMessage) (wanted : List Text) (policy : ReceiptPolicy) :
    Bool → List Text → SentenceScan
  | restated, [] => .clean restated
  | restated, sentence :: rest =>
    let aligned := alignTokens (routingTokens sentence) wanted policy
    match aligned.undecidable with
    | some .tooLong => .found (.unscanned .tooManyTokensInASentence)
    | some _ => scanSentences message wanted policy restated rest
    | none =>
      if aligned.borne then scanSentences message wanted policy true rest
      else if aligned.unmatchedInStatement.isEmpty || aligned.unmatchedInQuote.isEmpty then
        let changed :=
          if aligned.unmatchedInQuote.isEmpty then aligned.unmatchedInStatement
          else aligned.unmatchedInQuote
        .found (.revision message (if changed.isEmpty then ["whitespace".toList] else changed))
      else scanSentences message wanted policy restated rest

/-- The body of the loop over the later messages: `none` when the scan goes on. -/
def scanMessage (statement : Text) (wanted : List Text) (policy : ReceiptPolicy)
    (message : ProvenanceMessage) : Option LaterRevision :=
  let own := message.ownText
  let normalized := normalizeForRouting own
  let sentences := sentencesOf own
  match retractionMarkers.find? fun marker => containsPhrase normalized marker.toList with
  | some marker => some (.revision message [marker.toList])
  | none =>
    if test sedCorrection normalized then some (.revision message ["s/…/…/".toList])
    else if policy.maxScannedSentences < sentences.length then
      some (.unscanned .tooManySentences)
    else
      match scanSentences message wanted policy false sentences with
      | .found result => some result
      | .clean restated =>
        if restated && !quoteCoversOwnText statement own then
          let around := sentences.filter fun sentence =>
            !(alignTokens (routingTokens sentence) wanted policy).borne
          let added := around.flatMap routingTokens
          some (.revision message (if added.isEmpty then ["surrounding text".toList] else added))
        else none

/-- The loop over the later messages: the first that stops the scan decides. -/
def scanLater (statement : Text) (wanted : List Text) (policy : ReceiptPolicy)
    (later : List ProvenanceMessage) : LaterRevision :=
  match later.findSome? (scanMessage statement wanted policy) with
  | some result => result
  | none => .none later.length

def bears (statement : Text) (message : ProvenanceMessage) : Bool :=
  Js.includes (normalizeForReceipt message.ownText) (normalizeForReceipt statement)

def lastIndex {α : Type} (p : α → Bool) (items : List α) : Option Nat :=
  (items.reverse.findIdx? p).map fun i => items.length - 1 - i

/-- The position behind which the scan starts: the first cited message, or an earlier one that bears
the statement. -/
def scanFloor (statement : Text) (messages : List ProvenanceMessage) (firstCited : Nat) : Nat :=
  match messages.findIdx? (bears statement) with
  | none => firstCited
  | some earliestBearing => min firstCited earliestBearing

def laterRevision (statement : Text) (citedIds : List Id) (messages : List ProvenanceMessage)
    (policy : ReceiptPolicy) : LaterRevision :=
  let wanted := routingTokens statement
  let cited (message : ProvenanceMessage) : Bool := citedIds.contains message.id
  if isBlank (some statement) then .unscanned .noStatementToScanFor
  else if wanted.isEmpty then .unscanned .noStatementToScanFor
  else if policy.maxAlignedTokens < wanted.length then .unscanned .statementTooLong
  else
    match messages.findIdx? cited, lastIndex cited messages with
    | some firstCited, some lastCited =>
      let floor := scanFloor statement messages firstCited
      let afterCitations := messages.drop (lastCited + 1)
      let later := messages.drop (floor + 1)
      if !afterCitations.any fun message => !cited message then
        .unscanned .windowEndsAtTheCitations
      else if policy.maxLaterMessagesCarried ≤ afterCitations.length &&
          policy.maxLaterMessagesCarried ≤ policy.maxLaterMessagesScanned then
        .unscanned .windowCarriesFewerThanThisCheckReads
      else if policy.maxLaterMessagesScanned < later.length then .unscanned .tooManyMessages
      else scanLater statement wanted policy later
    | _, _ => .unscanned .noCitationInTheWindow

def unscannedDetail (why : Unscanned) (policy : ReceiptPolicy) : String :=
  match why with
  | .noStatementToScanFor =>
    "the sentence being minted carries no word this scan can route on, so there was nothing to look for a later correction *of* — whether a later message takes this back was never established, and a check that declined to run is not a check that passed"
  | .noCitationInTheWindow =>
    "not one of the messages this proposal cites is in the window, so there is no quoted sentence in it to find a correction of — nothing about what came after was read either way, and an unread window is not a clean one"
  | .statementTooLong =>
    s!"the sentence being minted is longer than the {policy.maxAlignedTokens} tokens this check will align, so it was never compared against any later message — whether one of them takes it back was never established, and a check that declined to run is not a check that passed"
  | .windowEndsAtTheCitations =>
    "the window carries nothing after the newest message this proposal cites, so the correction scan read no evidence about what came after the quoted sentence — whether a later message takes it back was never established, and a window that ends at the citations cannot answer that (see `AcceptanceContext.messages`)"
  | .windowCarriesFewerThanThisCheckReads =>
    s!"the window stopped at the {policy.maxLaterMessagesCarried} messages its supplier carries after the newest citation, which is not more than the {policy.maxLaterMessagesScanned} this check reads — so a window the room outgrew and a room that simply ended are the same bytes from in here, and everything past that ceiling was never supplied and never read; the supplier's bound has to exceed this check's or the scan reports \"nothing corrects this\" about messages it was never handed (see `RECEIPT_POLICY.maxLaterMessagesCarried` and `drizzle/0011`)"
  | .tooManyMessages =>
    s!"the window carries more after this citation than this check will read ({policy.maxLaterMessagesScanned} messages, {policy.maxScannedSentences} sentences each, {policy.maxAlignedTokens} tokens a sentence), so whether one of them corrects the quoted sentence was never established — an unread window is not a clean one, and a check that declined to run is not a check that passed"
  | .tooManySentences =>
    s!"a message after this citation holds more than the {policy.maxScannedSentences} sentences this check will read, so whether it corrects the quoted sentence was never established — an unread message is not a clean one, and a check that declined to run is not a check that passed"
  | .tooManyTokensInASentence =>
    s!"a sentence after this citation is longer than the {policy.maxAlignedTokens} tokens this check will align, so whether it restates the quoted sentence with something changed was never established — a check that declined to run is not a check that passed"

end Core
