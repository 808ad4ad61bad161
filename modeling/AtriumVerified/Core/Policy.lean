import AtriumVerified.Core.Matching
import AtriumVerified.Core.Objects

/-!
# The acceptance policy

The model of the parts of `packages/core/src/policy.ts` the reducer uses: the confidence floors, what
kind of act a text may be read as, and who may retire an accepted object.
-/

namespace Core

open Regex

/-- `DEFAULT_ACCEPTANCE_RULES[type].thetaAuto`. -/
def thetaAuto : AcceptedObjectType → Js.Number
  | .decision => ⟨7, 1⟩
  | .commitment => ⟨75, 2⟩
  | .openQuestion => ⟨6, 1⟩
  | .claim => ⟨7, 1⟩
  | .objective => ⟨75, 2⟩

/-- `autoAcceptable`: `DEFAULT_ACCEPTANCE_RULES[type].autoAccept`. -/
def autoAcceptable : AcceptedObjectType → Bool
  | .decision => false
  | .commitment => false
  | .openQuestion => true
  | .claim => true
  | .objective => false

/-- `MODEL_ACCEPTANCE_FLOOR`; `none` is positive infinity. -/
def modelAcceptanceFloor (type : AcceptedObjectType) : Option Js.Number :=
  if autoAcceptable type then some (thetaAuto type) else none

/-- `confidence < MODEL_ACCEPTANCE_FLOOR[type]`. -/
def belowFloor (type : AcceptedObjectType) (confidence : Js.Number) : Bool :=
  match modelAcceptanceFloor type with
  | none => true
  | some floor => Js.Number.lt confidence floor

def floorText (type : AcceptedObjectType) : String :=
  match modelAcceptanceFloor type with
  | none => "Infinity"
  | some floor => Js.Number.text floor

/-! ## Reading a text as a commitment -/

section Shapes

/-- `\s+`. -/
def spaces : Pattern := many1 (.one Js.isSpace)

def oneOf (texts : List String) : Pattern := any (texts.map litCI)

/-- The words of a phrase with `\s+` between them. -/
def phrase (words : List Pattern) : Pattern :=
  match words with
  | [] => .empty
  | [w] => w
  | w :: rest => .seq w (.seq spaces (phrase rest))

/-- `\b … \b`. -/
def bounded (body : Pattern) : Pattern := all [wordBoundary, body, wordBoundary]

/-- `[^.!?]`. -/
def notSentenceEnd (c : Char) : Bool := c != '.' && c != '!' && c != '?'

def agent : Pattern :=
  any [oneOf ["i", "we", "you", "he", "she", "they", "everyone", "everybody", "someone", "somebody",
      "anyone"],
    all [lit "@", many1 (.one fun c => isWordChar c || c == '.' || c == '-')]]

/-- The word characters of `\b` under the flags `iu`: also the two that fold to ASCII letters. -/
def foldedWordChar (c : Char) : Bool := isWordChar c || c.toNat == 0x17F || c.toNat == 0x212A

variable [Unicode]

/-- `\p{L}` under the flags `iu`: also U+0345, which folds to a letter. -/
def foldedLetter (c : Char) : Bool := Unicode.isLetter c || c.toNat == 0x345

/-- `\p{L}+ing\b` under the flags `iu`. -/
def ingWord : Pattern :=
  all [many1 (.one foldedLetter), litCI "ing", .boundary foldedWordChar]

def commitmentShapes : List Pattern :=
  [bounded (litCI "will"),
    bounded (litCI "won't"),
    bounded (litCI "shall"),
    bounded (oneOf ["'ll", "’ll"]),
    bounded (litCI "gonna"),
    bounded (phrase [oneOf ["am", "is", "are", "was", "were", "'m", "'re", "'s"], litCI "going",
      litCI "to"]),
    bounded (phrase [oneOf ["plan", "plans", "planning", "intend", "intends", "aim", "aims"],
      litCI "to"]),
    all [wordBoundary, agent, spaces,
      any [litCI "must", phrase [litCI "has", litCI "to"], phrase [litCI "have", litCI "to"],
        phrase [all [litCI "need", opt (litCI "s")], litCI "to"]],
      spaces, .notAhead (all [litCI "be", wordBoundary])],
    bounded (phrase [oneOf ["i", "we"],
      oneOf ["promise", "promises", "commit", "commits", "undertake", "undertakes", "pledge",
        "pledges", "guarantee", "guarantees", "swear", "swears"]]),
    bounded (phrase [oneOf ["i", "we"], litCI "owe"]),
    bounded (phrase [litCI "count", litCI "on", oneOf ["me", "us"]]),
    bounded (phrase [all [oneOf ["i", "we"], opt (litCI "'ve")], oneOf ["got", "have got"],
      oneOf ["this", "it", "that", "these", "those"]]),
    all [wordBoundary, litCI "consider", spaces, .units 60 false notSentenceEnd,
      bounded (oneOf ["done", "handled", "sorted", "covered", "taken care of"])],
    bounded (phrase [oneOf ["done", "handled", "sorted", "covered"], litCI "by",
      oneOf ["me", "us"]]),
    all [wordBoundary, litCI "leave", spaces, .units 60 false notSentenceEnd,
      bounded (phrase [oneOf ["to", "with"], oneOf ["me", "us"]])],
    all [.boundary foldedWordChar, phrase [oneOf ["i", "we"], oneOf ["am", "are"], ingWord]],
    all [.boundary foldedWordChar, oneOf ["i", "we"], lit "'", oneOf ["m", "re"], spaces, ingWord],
    all [bounded (oneOf ["i", "we"]), .units 80 true notSentenceEnd,
      bounded (any [litCI "tomorrow", litCI "tonight",
        phrase [litCI "next", oneOf ["week", "month", "sprint", "monday", "tuesday", "wednesday",
          "thursday", "friday"]],
        phrase [oneOf ["on", "by", "before"],
          any [oneOf ["monday", "tuesday", "wednesday", "thursday", "friday", "saturday", "sunday",
              "eod", "eow", "noon"],
            phrase [litCI "the", litCI "release"], phrase [litCI "the", litCI "deploy"]]]])],
    bounded (phrase [oneOf ["i", "we", "i'll", "we'll"], oneOf ["can", "could"],
      oneOf ["do", "take", "handle", "own", "land", "ship"]])]

def readsAsCommitment (text : Text) : Bool := commitmentShapes.any fun shape => test shape text

def typeCertifiableFromText (type : AcceptedObjectType) (text : Text) : Bool :=
  match type with
  | .openQuestion => true
  | .claim => !readsAsCommitment text
  | .commitment | .decision | .objective => false

end Shapes

/-! ## Supersession -/

inductive SupersessionAuthority where
  | autoAccept
  | requiresHuman
  deriving DecidableEq, Repr

def decideSupersession : AcceptedObjectType → SupersessionAuthority × String
  | .claim =>
    (.autoAccept,
      "retiring a claim is a newer reading replacing an older one, and cheap to correct (#4)")
  | .openQuestion =>
    (.autoAccept,
      "retiring an open question is cheap to correct, and a stale question costs recall (#4)")
  | .decision =>
    (.requiresHuman,
      "retiring an accepted decision needs the same human hand that accepting one needed (#4) — otherwise the decision gate is a front door with the back door open")
  | .commitment =>
    (.requiresHuman,
      "a commitment is an obligation with a name on it — #4 does not put it in the auto-accept row, and dropping someone's obligation quietly is not a cheap correction")
  | .objective =>
    (.requiresHuman,
      "an objective is what everything else is filed under — #4 does not put it in the auto-accept row, and retiring one silently re-files the room")

end Core
