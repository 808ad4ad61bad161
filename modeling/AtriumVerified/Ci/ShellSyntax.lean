import AtriumVerified.Ci.ShellCommand

/-!
# The shell language

The subset that scripts are written in: simple commands, pipelines, lists, subshells, brace groups
and the compounds `if`, `while`, `until`, `for` and `case`. A piece of a script is a simple command,
with whether it runs in the background, or what stands around commands.
-/

namespace Ci

/-! ## Simple commands -/

inductive Part where
  | word (word : Word)
  | redirection (op : String) (target : Word)
  deriving DecidableEq, Repr

/-- The word means something to the shell where a command is expected. -/
def Word.isReserved (word : Word) : Bool :=
  keywords.contains word.value || clauseKeywords.contains word.value || word.value == "function"

def Word.assignment? (word : Word) : Option Assignment :=
  if word.expandable then none else Ci.assignment? word.value

def Part.isPlain : Part → Bool
  | .word _ => true
  | .redirection op _ => redirects.contains op

/-- The parts of a simple command: assignments and redirections, and from the first other word on,
which is not reserved, arguments and redirections. -/
def isSimple : List Part → Bool
  | [] => true
  | .redirection op _ :: rest => redirects.contains op && isSimple rest
  | .word word :: rest =>
    !word.isReserved && if word.assignment?.isSome then isSimple rest else rest.all Part.isPlain

structure Simple where
  parts : List Part
  nonempty : parts ≠ []
  simple : isSimple parts = true

def Command.add (command : Command) : Part → Command
  | .redirection op target =>
    { command with redirections := command.redirections ++ [⟨op, target⟩] }
  | .word word =>
    match (if command.words = [] then word.assignment? else none) with
    | some assignment => { command with assignments := command.assignments ++ [assignment] }
    | none => { command with words := command.words ++ [word] }

def Simple.command (simple : Simple) : Command := simple.parts.foldl Command.add {}

/-! ## Lists and compounds -/

/-- What joins commands to pipelines and and-or lists. -/
inductive Connector where
  | pipe
  | pipeBoth
  | and
  | or
  deriving DecidableEq, Repr

def Connector.op : Connector → String
  | .pipe => "|"
  | .pipeBoth => "|&"
  | .and => "&&"
  | .or => "||"

inductive Terminator where
  | semicolon
  | newline
  | ampersand
  deriving DecidableEq, Repr

def Terminator.op : Terminator → String
  | .semicolon => ";"
  | .newline => "\n"
  | .ampersand => "&"

/-- The pattern of an arm of `case`, with or without the opening parenthesis. -/
structure Pattern where
  opened : Bool
  first : Word
  others : List Word

mutual

inductive Node where
  | simple (command : Simple)
  /-- `( … )`. -/
  | subshell (body : Lines)
  /-- `{ …; }`. -/
  | group (body : Body)
  /-- `if …; fi`. -/
  | conditional (branches : Branches)
  /-- `while …; do …; done`. -/
  | whileDo (condition body : Body)
  /-- `until …; do …; done`. -/
  | untilDo (condition body : Body)
  /-- `for name in words; do …; done`, with a semicolon or a newline, and further newlines. -/
  | forDo (name : Word) (words : List Word) (newline : Bool) (breaks : Nat) (body : Body)
  /-- `case word in … esac`, with newlines ahead of the first arm. -/
  | caseOf (word : Word) (breaks : Nat) (arms : Arms)

/-- `…; then …;`, with what comes until `fi`. -/
inductive Branches where
  | only (condition body : Body)
  | otherwise (condition body other : Body)
  | elif (condition body : Body) (rest : Branches)

/-- `pattern) …`, with what comes until `esac`. Behind `;;` there may be newlines. -/
inductive Arms where
  | bare (pattern : Pattern) (body : Body)
  | last (pattern : Pattern) (body : Lines) (breaks : Nat)
  | arm (pattern : Pattern) (body : Lines) (breaks : Nat) (rest : Arms)

/-- An element of a list: commands and connectors, with newlines behind these. -/
inductive Chain where
  | one (node : Node)
  | link (node : Node) (connector : Connector) (breaks : Nat) (rest : Chain)

/-- A list whose elements are all terminated, with newlines ahead of them and behind the last. -/
inductive Body where
  | one (breaks : Nat) (chain : Chain) (ends : Terminator) (after : Nat)
  | more (breaks : Nat) (chain : Chain) (ends : Terminator) (rest : Body)

/-- A list whose last element need not be terminated. -/
inductive Lines where
  | closed (body : Body)
  | last (breaks : Nat) (chain : Chain)
  | behind (body : Body) (chain : Chain)

end

/-! ## Pieces -/

inductive Piece where
  | simple (command : Simple) (background : Bool)
  | keyword (word : String)
  /-- The words of a clause, which are no commands. -/
  | clause (word : String) (words : List Word)
  | pattern (word : Word)
  | op (op : String)

def Part.tokens : Part → List Token
  | .word written => [.word written]
  | .redirection op target => [.op op, .word target]

def Piece.tokens : Piece → List Token
  | .simple command _ => command.parts.flatMap Part.tokens
  | .keyword word => [.word ⟨word, false⟩]
  | .clause word words => .word ⟨word, false⟩ :: words.map .word
  | .pattern word => [.word word]
  | .op operator => [.op operator]

def newlines (count : Nat) : List Piece := List.replicate count (.op "\n")

def Pattern.pieces (pattern : Pattern) : List Piece :=
  pattern.others.flatMap (fun word => [Piece.op "|", Piece.pattern word]) ++ [Piece.op ")"]

/-- A pattern. Where it stands in the line of `case`, whose words are given, its first word belongs to
the clause unless it is opened. -/
def Pattern.piecesBehind (pattern : Pattern) : Option (List Word) → List Piece
  | some header =>
    if pattern.opened then
      .clause "case" header :: .op "(" :: .pattern pattern.first :: pattern.pieces
    else .clause "case" (header ++ [pattern.first]) :: pattern.pieces
  | none =>
    if pattern.opened then .op "(" :: .pattern pattern.first :: pattern.pieces
    else .pattern pattern.first :: pattern.pieces

mutual

def Node.pieces (background : Bool) : Node → List Piece
  | .simple command => [.simple command background]
  | .subshell body => .op "(" :: (body.pieces background ++ [.op ")"])
  | .group body => .keyword "\x7b" :: (body.pieces background ++ [.keyword "\x7d"])
  | .conditional branches => .keyword "if" :: (branches.pieces background ++ [.keyword "fi"])
  | .whileDo condition body =>
    .keyword "while" :: (condition.pieces background ++
      .keyword "do" :: (body.pieces background ++ [.keyword "done"]))
  | .untilDo condition body =>
    .keyword "until" :: (condition.pieces background ++
      .keyword "do" :: (body.pieces background ++ [.keyword "done"]))
  | .forDo name words newline breaks body =>
    .clause "for" (name :: ⟨"in", false⟩ :: words) :: .op (if newline then "\n" else ";") ::
      (newlines breaks ++ .keyword "do" :: (body.pieces background ++ [.keyword "done"]))
  | .caseOf word 0 arms =>
    arms.pieces background (some [word, ⟨"in", false⟩]) ++ [.keyword "esac"]
  | .caseOf word (breaks + 1) arms =>
    .clause "case" [word, ⟨"in", false⟩] :: (newlines (breaks + 1) ++
      (arms.pieces background none ++ [.keyword "esac"]))

/-- The pieces of the branches of an `if`. -/
def Branches.pieces (background : Bool) : Branches → List Piece
  | .only condition body =>
    condition.pieces background ++ .keyword "then" :: body.pieces background
  | .otherwise condition body other =>
    condition.pieces background ++ .keyword "then" :: (body.pieces background ++
      .keyword "else" :: other.pieces background)
  | .elif condition body rest =>
    condition.pieces background ++ .keyword "then" :: (body.pieces background ++
      .keyword "elif" :: rest.pieces background)

/-- The pieces of the arms of a `case`, the first of which may stand in its line. -/
def Arms.pieces (background : Bool) : Arms → Option (List Word) → List Piece
  | .bare pattern body, header => pattern.piecesBehind header ++ body.pieces background
  | .last pattern body breaks, header =>
    pattern.piecesBehind header ++ (body.pieces background ++ .op ";;" :: newlines breaks)
  | .arm pattern body breaks rest, header =>
    pattern.piecesBehind header ++ (body.pieces background ++
      .op ";;" :: (newlines breaks ++ rest.pieces background none))

def Chain.pieces (background : Bool) : Chain → List Piece
  | .one node => node.pieces background
  | .link node connector breaks rest =>
    node.pieces background ++ .op connector.op :: (newlines breaks ++ rest.pieces background)

/-- The pieces of a list. An element that `&` terminates runs in the background, with all that is in
it. -/
def Body.pieces (background : Bool) : Body → List Piece
  | .one breaks chain ends after =>
    newlines breaks ++ (chain.pieces (background || ends == .ampersand) ++
      .op ends.op :: newlines after)
  | .more breaks chain ends rest =>
    newlines breaks ++ (chain.pieces (background || ends == .ampersand) ++
      .op ends.op :: rest.pieces background)

/-- The pieces of a list whose last element need not be terminated. -/
def Lines.pieces (background : Bool) : Lines → List Piece
  | .closed body => body.pieces background
  | .last breaks chain => newlines breaks ++ chain.pieces background
  | .behind body chain => body.pieces background ++ chain.pieces background

end

def Lines.tokens (script : Lines) : List Token := (script.pieces false).flatMap Piece.tokens

end Ci
