import AtriumVerified.Core.Escalation

/-!
# The problems of a receipt

The model of `validateProposalProvenance`: everything that is wrong, or cannot be established, about
the citation and the quote a proposal rests on, in the order the source reports it.
-/

namespace Core

open Regex

inductive ProvenanceProblemKind where
  | noProvenance
  | unknownMessage
  | missingQuote
  | quoteNotFound
  | quoteOnlyInReplyBlockquote
  | elidedQuote
  | quoteTooShort
  | quoteDoesNotBearStatement
  | quoteCarriesMoreThanStatement
  | statementRespacesTheQuote
  | quoteIsAFragment
  | quoteSpanUnscanned
  | quoteOmitsSurroundingText
  | supersededByLaterMessage
  | statementIsNotAnAssertion
  | statementIsNotAQuestion
  | statementUncheckable
  | statementAddsLinkStructure
  | statementAddsBlockStructure
  | ambiguousQuote
  | attributedPersonNotAuthor
  deriving DecidableEq, Repr

inductive ProvenanceSeverity where
  | reject
  | refer
  | reclassify
  deriving DecidableEq, Repr

/-- `Finding`: a problem before it is said what it is about. -/
structure Finding where
  kind : ProvenanceProblemKind
  severity : ProvenanceSeverity
  detail : String
  messageId : Option Id

inductive ProblemSubject where
  | theReading
  | theWindow
  deriving DecidableEq, Repr

structure ProvenanceProblem extends Finding where
  about : ProblemSubject

inductive ProblemEvidence where
  | theProposal
  | theCitedMessages
  | theWindow

def problemEvidence : ProvenanceProblemKind → ProblemEvidence
  | .noProvenance => .theProposal
  | .unknownMessage => .theWindow
  | .missingQuote => .theProposal
  | .quoteNotFound => .theCitedMessages
  | .quoteOnlyInReplyBlockquote => .theCitedMessages
  | .elidedQuote => .theCitedMessages
  | .quoteTooShort => .theProposal
  | .quoteDoesNotBearStatement => .theProposal
  | .quoteCarriesMoreThanStatement => .theProposal
  | .statementRespacesTheQuote => .theProposal
  | .quoteIsAFragment => .theCitedMessages
  | .quoteSpanUnscanned => .theCitedMessages
  | .quoteOmitsSurroundingText => .theCitedMessages
  | .supersededByLaterMessage => .theWindow
  | .statementIsNotAnAssertion => .theProposal
  | .statementIsNotAQuestion => .theProposal
  | .statementUncheckable => .theProposal
  | .statementAddsLinkStructure => .theProposal
  | .statementAddsBlockStructure => .theProposal
  | .ambiguousQuote => .theCitedMessages
  | .attributedPersonNotAuthor => .theCitedMessages

def problemSubject (kind : ProvenanceProblemKind) (windowHoldsEveryCitation : Bool) :
    ProblemSubject :=
  match problemEvidence kind with
  | .theProposal => .theReading
  | .theWindow => .theWindow
  | .theCitedMessages => if windowHoldsEveryCitation then .theReading else .theWindow

structure ProvenanceSubject where
  type : AcceptedObjectType
  provenance : List Id
  quote : Option Text
  /-- Who proposed, when that is known. -/
  proposer : Option Proposer
  attributedTo : Option Id
  statement : Option Text

def ProvenanceSubject.fromMachine (subject : ProvenanceSubject) : Bool :=
  subject.proposer.any proposerIsMachine

/-- `attributedTo`, when it is not empty. -/
def ProvenanceSubject.attributed (subject : ProvenanceSubject) : Option Id :=
  subject.attributedTo.filter fun userId => userId != ""

/-- `new Map(messages.map((message) => [message.id, message])).get(id)`. -/
def messageById (messages : List ProvenanceMessage) (id : Id) : Option ProvenanceMessage :=
  messages.reverse.find? fun message => message.id == id

def citedMessages (provenance : List Id) (messages : List ProvenanceMessage) :
    List ProvenanceMessage :=
  provenance.filterMap (messageById messages)

variable [Unicode]

/-- The quote without its margins, empty when it says nothing. -/
def ProvenanceSubject.trimmedQuote (subject : ProvenanceSubject) : Text :=
  if hasContent subject.quote then Js.trim (subject.quote.getD []) else []

def bearingMessages (quote : Text) (messages : List ProvenanceMessage) : List ProvenanceMessage :=
  let normalized := normalizeForReceipt quote
  if normalized.isEmpty then []
  else messages.filter fun message => Js.includes (normalizeForReceipt message.ownText) normalized

/-- The distinct authors of some messages, in order of appearance. -/
def authorsOf (messages : List ProvenanceMessage) : List Id :=
  (messages.map ProvenanceMessage.authorId).reverse.dedup.reverse

/-- The one message that bears the quote: none when its bearers have several authors. -/
def bearingOf (inOwnText : List ProvenanceMessage) : Option ProvenanceMessage :=
  if 1 < (authorsOf inOwnText).length then none else inOwnText.head?

def unknownMessageFindings (subject : ProvenanceSubject) (messages : List ProvenanceMessage) :
    List Finding :=
  (subject.provenance.filter fun id => (messageById messages id).isNone).map fun id =>
    ⟨.unknownMessage, .refer,
      s!"cites message \"{id}\", which is not in the window — the window supplied does not reach that message, so nothing about this citation was checked either way; an unread window is not a clean one, and a check that declined to run is not a check that passed",
      some id⟩

def missingQuoteFindings (subject : ProvenanceSubject) : List Finding :=
  if subject.fromMachine && (normalizeForReceipt subject.trimmedQuote).isEmpty then
    let named := match subject.attributed with
      | none => ""
      | some userId => s!" or which one named \"{userId}\""
    [⟨.missingQuote, .reject,
      s!"a model {subject.type.name} proposal must quote the message that carries it — with no quote nothing identifies which message this was read out of{named}, and the honest reading of no answer is that nobody did",
      none⟩]
  else []

/-- Where the quote stands: in nobody's words, in somebody else's, or in several people's. -/
def locationFindings (quote : Text) (inFullText inOwnText : List ProvenanceMessage) :
    List Finding :=
  let shown := clip quote 80
  let place :=
    match inOwnText, inFullText with
    | [], first :: _ =>
      [⟨.quoteOnlyInReplyBlockquote, .reject,
        s!"the quote appears in message \"{first.id}\" only inside a reply-blockquote — its author was quoting someone else, so this citation attributes the words to the wrong person",
        some first.id⟩]
    | _, [] =>
      if test elision quote then
        [⟨.elidedQuote, .reject,
          s!"the quote was shortened with an ellipsis and does not appear verbatim in any cited message: \"{shown}\"",
          none⟩]
      else
        [⟨.quoteNotFound, .reject, s!"the quote appears in none of the cited messages: \"{shown}\"",
          none⟩]
    | _, _ => []
  let authors := authorsOf inOwnText
  let quoted := Js.join ", " ((Js.sort authors).map fun author => "\"" ++ author ++ "\"")
  let ambiguous :=
    if 1 < authors.length then
      [⟨.ambiguousQuote, .reject,
        s!"the quote appears in the own text of {inOwnText.length} cited messages written by different people ({quoted}) — nothing says which of them said it, and picking the first in window order would attribute it by accident",
        none⟩]
    else []
  place ++ ambiguous

/-- Whether the quote is long enough, and whole sentences, and the whole of its message. -/
def spanFindings (quote : Text) (bearing : Option ProvenanceMessage) (policy : ReceiptPolicy) :
    List Finding :=
  let size := Js.length (normalizeForReceipt quote)
  let shown := clip quote 40
  let short :=
    if size < policy.minQuoteLength then
      [⟨.quoteTooShort, .reject,
        s!"the quote \"{shown}\" is {size} characters, below the {policy.minQuoteLength} a receipt needs — a span that short occurs in any thread, so it identifies the conversation rather than the sentence",
        bearing.map ProvenanceMessage.id⟩]
    else []
  let span :=
    match bearing with
    | none => []
    | some message =>
      if policy.maxScannedSentences < (sentencesOf message.ownText).length then
        [⟨.quoteSpanUnscanned, .refer,
          s!"message \"{message.id}\" holds more than the {policy.maxScannedSentences} sentences this check will read, so whether the quote is whole sentences of it or a span cut out of the middle of one was never established — an unread message is not a clean one, and a check that declined to run is not a check that passed",
          some message.id⟩]
      else if !quoteSpansWholeSentences quote message.ownText policy then
        [⟨.quoteIsAFragment, .refer,
          s!"the quote is a span cut out of the middle of a sentence in message \"{message.id}\" rather than one or more whole sentences of it — the words on either side of the cut may qualify or reverse it (\"it is not true that …\"), and nothing here can read them, so this reading is not accepted on a machine's word",
          some message.id⟩]
      else if !quoteCoversOwnText quote message.text then
        [⟨.quoteOmitsSurroundingText, .refer,
          s!"the quote is whole sentences of message \"{message.id}\" but not the whole of it — there is more in that message, and a neighbouring line can reverse, condition or withdraw the one being quoted (\"… Not.\", \"Unless CI is red.\", \"Correction: …\") in a way no rule about the quoted span can see, so this reading is not accepted on a machine's word",
          some message.id⟩]
      else []
  short ++ span

/-- What the later messages of the window say about the statement. -/
def revisionFindings (subject : ProvenanceSubject) (messages : List ProvenanceMessage)
    (policy : ReceiptPolicy) : List Finding :=
  if hasContent subject.statement then
    match laterRevision (subject.statement.getD []) subject.provenance messages policy with
    | .unscanned why =>
      [⟨.supersededByLaterMessage, .refer, unscannedDetail why policy, none⟩]
    | .revision message added =>
      let carried := tokens added
      [⟨.supersededByLaterMessage, .refer,
        s!"message \"{message.id}\" comes after the messages this cites and carries {carried} — a later message restates the quoted sentence with something changed, takes something back, or is the same author returning to this subject, and whether that reverses this reading, narrows it or leaves it alone is not something a machine may decide from the words",
        some message.id⟩]
    | .none _ => []
  else []

/-- Whether the statement is of the kind its type says. -/
def moodFindings (subject : ProvenanceSubject) (bearing : Option ProvenanceMessage) :
    List Finding :=
  let statement := normalizeForReceipt (subject.statement.getD [])
  let questionFloor := Js.Number.text (thetaAuto .openQuestion)
  let claimFloor := Js.Number.text (thetaAuto .claim)
  if subject.type == .openQuestion then
    if readsAsQuestion statement then []
    else
      [⟨.statementIsNotAQuestion, .refer,
        s!"the open question being minted carries no question mark — an open question is the type with the lowest bar a machine may accept at (θ_auto {questionFloor} against a claim's {claimFloor}), and a declarative sentence filed under it is a reading routed around its own threshold rather than an unresolved question",
        bearing.map ProvenanceMessage.id⟩]
  else if isAssertion statement then []
  else
    [⟨.statementIsNotAnAssertion, .refer,
      s!"the {subject.type.name} being minted carries a question mark — a question quoted verbatim is an open question or a referral, never an assertion about what somebody holds, and nothing here can tell a rhetorical question from a real one",
      bearing.map ProvenanceMessage.id⟩]

def structuresText (structures : List String) : String :=
  Js.join ", " (structures.map fun structure' => "`" ++ clip structure'.toList 60 ++ "`")

/-- Markdown the statement has and the message has not. -/
def structureFindings (subject : ProvenanceSubject) (bearing : Option ProvenanceMessage) :
    List Finding :=
  let statement := subject.statement.getD []
  let authored := (bearing.map ProvenanceMessage.text).getD []
  let wrote := match bearing with
    | none => "any message in this window"
    | some message => s!"message \"{message.id}\""
  let added := addedLinkStructure authored statement
  let built := addedBlockStructure authored statement
  let addedText := structuresText added
  let builtText := structuresText built
  (if added.isEmpty then [] else
    [⟨.statementAddsLinkStructure, .reject,
      s!"the {subject.type.name} being minted carries link markup {wrote} does not — {addedText} — so the record would store markup its named author never wrote, assembled out of their own words: a link's text, destination and title normalize to the same words whether or not the brackets are there, which is why every other check on this receipt passes",
      bearing.map ProvenanceMessage.id⟩]) ++
  (if built.isEmpty then [] else
    [⟨.statementAddsBlockStructure, .reject,
      s!"the {subject.type.name} being minted carries Markdown structure {wrote} does not — {builtText} — so the record would store block structure its named author never wrote, built by putting a line break where they put a space: a run of whitespace normalizes to one space whichever characters it is made of, which is why every other check on this receipt passes",
      bearing.map ProvenanceMessage.id⟩])

/-- Whether the quote is the statement, token by token. -/
def bearingFindings (subject : ProvenanceSubject) (quote : Text)
    (bearing : Option ProvenanceMessage) (policy : ReceiptPolicy) : List Finding :=
  let statement := subject.statement.getD []
  let result := statementBearing quote statement policy
  let shown := clip statement 60
  let messageId := bearing.map ProvenanceMessage.id
  match result.undecidable with
  | some .emptyStatement =>
    [⟨.statementUncheckable, .reject,
      s!"the {subject.type.name} asserts nothing that can be checked against its quote — with no statement there is no sentence for the receipt to bear, and an unchecked receipt is not a passed one",
      messageId⟩]
  | some .tooLong =>
    [⟨.statementUncheckable, .refer,
      s!"the quote or the statement runs past the {policy.maxAlignedTokens} tokens this check will align, so it was never checked — not accepted on a machine's word, and not thrown away either: a person can read a long message, and this one may be perfectly quoted",
      messageId⟩]
  | some .emptyQuote =>
    [⟨.statementUncheckable, .reject,
      "the quote carries no words at all, so nothing could be checked against the statement",
      messageId⟩]
  | none =>
    if result.borne then []
    else if !result.unmatchedInStatement.isEmpty then
      let quoteTokens := orderedTokens quote
      let absent := result.unmatchedInStatement.filter fun w => !quoteTokens.contains w
      let absentText := tokens absent
      let unmatchedText := tokens result.unmatchedInStatement
      let against :=
        if result.unmatchedInQuote.isEmpty then "the quote" else tokens result.unmatchedInQuote
      [⟨.quoteDoesNotBearStatement, .reject,
        if absent.isEmpty then
          s!"\"{shown}\" uses only words the quote contains and puts them in a different order — {unmatchedText} could not be lined up against {against} — and swapping two words is one of the ways a sentence is reversed, so this is not the sentence that was quoted"
        else
          s!"\"{shown}\" asserts {absentText}, which the quote does not say — the quoted span is from a cited message but it is not this sentence, so the citation leads a reader somewhere that does not say this",
        messageId⟩]
    else if !result.unmatchedInQuote.isEmpty then
      let extra := tokens result.unmatchedInQuote
      let them := if result.unmatchedInQuote.length = 1 then "it" else "them"
      [⟨.quoteCarriesMoreThanStatement, .refer,
        s!"the quote says {extra} and \"{shown}\" drops {them} — those words may be an aside or may reverse the sentence, and nothing here can tell which, so this reading is not accepted on a machine's word; a person has to read the quote",
        messageId⟩]
    else if result.whitespaceDiffers then
      [⟨.statementRespacesTheQuote, .reject,
        s!"\"{shown}\" holds the marks of the quote in the same order and spaces them differently, so it is not the text that is in the message — a code literal respaced is a literal changed (`rm -rf / tmp/cache` is not `rm -rf /tmp/cache`), and in prose the spacing is the only thing the fold has already forgiven, so what is left is a difference the author did not write",
        messageId⟩]
    else
      [⟨.statementUncheckable, .reject,
        s!"the bearing check refused \"{shown}\" against its quote and named no difference — that is a contradiction in this package, not a finding about the reading, and an answer nothing can explain is not an answer a machine may act on",
        messageId⟩]

/-- Whether the named person wrote the message that bears the quote. -/
def attributionFindings (subject : ProvenanceSubject) (cited : List ProvenanceMessage)
    (bearing : Option ProvenanceMessage) (ambiguous : Bool) : List Finding :=
  match subject.attributed, attributionField subject.type with
  | some attributed, some field =>
    let supported := match bearing with
      | some message => message.authorId == attributed
      | none => !subject.fromMachine && cited.any fun message => message.authorId == attributed
    if cited.isEmpty || supported then []
    else
      let asksTheNamedPerson := subject.type == .commitment || subject.type == .decision
      let authors := Js.join ", " (cited.map fun message => "\"" ++ message.authorId ++ "\"")
      let place := match bearing with
        | some message =>
          s!"the message bearing it (\"{message.id}\") was written by \"{message.authorId}\""
        | none =>
          if ambiguous then
            "more than one cited author carries the quote, so no message can be said to bear it"
          else if subject.fromMachine then
            "no cited message bears the quote, so nothing identifies the message that named them"
          else s!"authored none of the cited messages ({authors})"
      [⟨.attributedPersonNotAuthor, if asksTheNamedPerson then .reclassify else .reject,
        if asksTheNamedPerson then
          s!"{field} \"{attributed}\" {place} — this is third-party attribution, not a self-statement, so it needs their confirm"
        else
          s!"{field} \"{attributed}\" {place} — the receipt does not support \"X said Y\"",
        bearing.map ProvenanceMessage.id⟩]
  | _, _ => []

def validateProposalProvenance (subject : ProvenanceSubject) (messages : List ProvenanceMessage)
    (policy : ReceiptPolicy) : List ProvenanceProblem :=
  let windowHoldsEveryCitation := subject.provenance.all fun id => (messageById messages id).isSome
  let sealed (findings : List Finding) : List ProvenanceProblem :=
    findings.map fun finding =>
      { finding with about := problemSubject finding.kind windowHoldsEveryCitation }
  if subject.provenance.isEmpty then
    sealed (if subject.fromMachine then
      [⟨.noProvenance, .reject, "a model proposal must cite at least one source message", none⟩]
    else [])
  else
    let cited := citedMessages subject.provenance messages
    let quote := subject.trimmedQuote
    let normalizedQuote := normalizeForReceipt quote
    let quoted := !normalizedQuote.isEmpty && !cited.isEmpty
    let inFullText := cited.filter fun message =>
      Js.includes (normalizeForReceipt message.text) normalizedQuote
    let inOwnText := bearingMessages quote cited
    let bearing := if quoted then bearingOf inOwnText else none
    let ambiguous := quoted && 1 < (authorsOf inOwnText).length
    sealed (unknownMessageFindings subject messages ++ missingQuoteFindings subject ++
      (if quoted then
        locationFindings quote inFullText inOwnText ++
          (if subject.fromMachine then
            spanFindings quote bearing policy ++ revisionFindings subject messages policy ++
              moodFindings subject bearing ++ structureFindings subject bearing ++
              bearingFindings subject quote bearing policy
          else [])
      else []) ++
      attributionFindings subject cited bearing ambiguous)

def rejectingProblems (problems : List ProvenanceProblem) : List ProvenanceProblem :=
  problems.filter fun problem => problem.severity == .reject

def referringProblems (problems : List ProvenanceProblem) : List ProvenanceProblem :=
  problems.filter fun problem => problem.severity == .refer

end Core
