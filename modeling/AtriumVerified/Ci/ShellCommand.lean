import AtriumVerified.Lib.Text

/-!
# Shell commands

The model of `scripts/ci/shell-command.mjs`: the tokens of a script, the simple commands they make,
which of them are in the background, and which command a launcher or a package manager runs.
-/

namespace Ci

open Js

/-! ## Operators and words -/

/-- `OPERATORS`, longest first. -/
def operators : List String :=
  ["<<<", "<<-", "&&", "||", ";;", "|&", ">>", ">&", "&>", ">|", "<<", ";", "|", "&", "(", ")", "<",
    ">", "\n"]

def redirects : List String := ["<<<", "<<-", "<<", ">>", ">&", "&>", ">|", "<", ">"]

def heredocs : List String := ["<<", "<<-"]

def keywords : List String :=
  ["if", "then", "elif", "else", "fi", "while", "until", "do", "done", "esac", "!", "\x7b", "\x7d",
    "time", "coproc"]

def clauseKeywords : List String := ["for", "case", "select"]

/-- `[A-Za-z_]`. -/
def isNameStart (c : Char) : Bool := isAsciiLetter c || c == '_'
where
  /-- `[A-Za-z]`. -/
  isAsciiLetter (c : Char) : Bool := ('a' ≤ c && c ≤ 'z') || ('A' ≤ c && c ≤ 'Z')

/-- `[A-Za-z0-9_]`. -/
def isNameChar (c : Char) : Bool := isNameStart c || isDigit c

structure Assignment where
  name : String
  value : String
  deriving DecidableEq, Repr

/-- `ASSIGNMENT.exec(word)`, with the text behind the match. -/
def assignment? (word : String) : Option Assignment :=
  let name := word.toList.takeWhile isNameChar
  if name.head?.any isNameStart then
    match word.toList.dropWhile isNameChar with
    | '=' :: value => some ⟨String.ofList name, String.ofList value⟩
    | '+' :: '=' :: value => some ⟨String.ofList name, String.ofList value⟩
    | _ => none
  else none

def isBlank (c : Char) : Bool := c == ' ' || c == '\t' || c == '\r'

/-- `operatorAt`, in what is left of the source. -/
def operatorAt (source : List Char) : Option String :=
  operators.find? fun operator => operator.toList.isPrefixOf source

def afterBacktick : List Char → List Char
  | [] => []
  | ['\\'] => []
  | '\\' :: _ :: rest => afterBacktick rest
  | c :: rest => if c = '`' then rest else afterBacktick rest

/-- What is left behind `$(…)`, with this depth of parentheses to close, inside of this quote. -/
def afterParens : Option Char → Nat → List Char → List Char
  | _, 0, source => source
  | _, _ + 1, [] => []
  | some mark, depth + 1, c :: rest =>
    if c = mark then afterParens none (depth + 1) rest else afterParens (some mark) (depth + 1) rest
  | none, _ + 1, ['\\'] => []
  | none, depth + 1, '\\' :: _ :: rest => afterParens none (depth + 1) rest
  | none, depth + 1, c :: rest =>
    if c = '\'' ∨ c = '"' then afterParens (some c) (depth + 1) rest
    else if c = '(' then afterParens none (depth + 2) rest
    else if c = ')' then afterParens none depth rest
    else afterParens none (depth + 1) rest

/-- What is left behind `${…}`, with this depth of braces to close. -/
def afterBraces : Nat → List Char → List Char
  | 0, source => source
  | _ + 1, [] => []
  | _ + 1, ['\\'] => []
  | depth + 1, '\\' :: _ :: rest => afterBraces (depth + 1) rest
  | depth + 1, c :: rest =>
    if c = '\x7b' then afterBraces (depth + 2) rest
    else if c = '\x7d' then afterBraces depth rest
    else afterBraces (depth + 1) rest

/-- What is left behind `$NAME`, `$1`, `$$` or a bare `$`, behind the `$`. -/
def afterName : List Char → List Char
  | [] => []
  | c :: rest =>
    if isNameStart c then rest.dropWhile isNameChar
    else if isDigit c || "@*#?$!-".toList.contains c then rest
    else c :: rest

def afterExpansion : List Char → List Char
  | '`' :: rest => afterBacktick rest
  | '$' :: '(' :: rest => afterParens none 1 rest
  | '$' :: '\x7b' :: rest => afterBraces 1 rest
  | '$' :: rest => afterName rest
  | source => source

/-- `readExpansion`: the text, and what is left. -/
def readExpansion (source : List Char) : List Char × List Char :=
  (source.take (source.length - (afterExpansion source).length), afterExpansion source)

/-- What was read of a word: its value, whether it expands, and what is left. -/
structure Reading where
  value : List Char
  expandable : Bool
  rest : List Char
  deriving DecidableEq, Repr

def Reading.after (text : List Char) (reading : Reading) : Reading :=
  { reading with value := text ++ reading.value }

def Reading.afterExpanding (text : List Char) (reading : Reading) : Reading :=
  { reading with value := text ++ reading.value, expandable := true }

/-- The text between double quotes, behind the opening one. -/
def readDouble : Nat → List Char → Reading
  | 0, source => ⟨[], false, source⟩
  | _ + 1, [] => ⟨[], false, []⟩
  | _ + 1, '"' :: rest => ⟨[], false, rest⟩
  | _ + 1, ['\\'] => ⟨[], false, []⟩
  | fuel + 1, '\\' :: c :: rest =>
    if c = '\n' then readDouble fuel rest else (readDouble fuel rest).after [c]
  | fuel + 1, c :: rest =>
    if c = '$' ∨ c = '`' then
      (readDouble fuel (afterExpansion (c :: rest))).afterExpanding (readExpansion (c :: rest)).1
    else (readDouble fuel rest).after [c]

def readWord : Nat → List Char → Reading
  | 0, source => ⟨[], false, source⟩
  | _ + 1, [] => ⟨[], false, []⟩
  | _ + 1, ['\\'] => ⟨[], false, []⟩
  | fuel + 1, '\\' :: c :: rest =>
    -- a backslash and a newline: the word goes on in the next line
    if c = '\n' then readWord fuel rest else (readWord fuel rest).after [c]
  | fuel + 1, '\'' :: rest =>
    (readWord fuel ((rest.dropWhile (· != '\'')).drop 1)).after (rest.takeWhile (· != '\''))
  | fuel + 1, '"' :: rest =>
    let quoted := readDouble fuel rest
    let reading := readWord fuel quoted.rest
    ⟨quoted.value ++ reading.value, quoted.expandable || reading.expandable, reading.rest⟩
  | fuel + 1, c :: rest =>
    if c = '$' ∨ c = '`' then
      (readWord fuel (afterExpansion (c :: rest))).afterExpanding (readExpansion (c :: rest)).1
    else if isBlank c || (operatorAt (c :: rest)).isSome then ⟨[], false, c :: rest⟩
    else (readWord fuel rest).after [c]

/-! ## Tokens -/

structure Word where
  value : String
  expandable : Bool
  deriving DecidableEq, Repr

inductive Token where
  | op (operator : String)
  | word (word : Word)
  deriving DecidableEq, Repr

structure Heredoc where
  delimiter : String
  strip : Bool
  deriving DecidableEq, Repr

def Heredoc.endsWith (heredoc : Heredoc) (line : List Char) : Bool :=
  (if heredoc.strip then line.dropWhile (· == '\t') else line) == heredoc.delimiter.toList

/-- What is left behind the body of a here-document, of whose current line this was read. -/
def skipBody (heredoc : Heredoc) (line : List Char) : List Char → List Char
  | [] => []
  | c :: rest =>
    if c = '\n' then
      if heredoc.endsWith line.reverse then rest else skipBody heredoc [] rest
    else skipBody heredoc (c :: line) rest

def skipHeredocBodies (source : List Char) (pending : List Heredoc) : List Char :=
  pending.foldl (fun source heredoc => skipBody heredoc [] source) source

def heredocOf (previous : Option Token) (word : Word) : List Heredoc :=
  match previous with
  | some (.op operator) =>
    if heredocs.contains operator then [⟨word.value, operator == "<<-"⟩] else []
  | _ => []

/-- What is left behind `^\d+(?=[<>])`, where it matches. -/
def afterDescriptor (source : List Char) : Option (List Char) :=
  if source.head?.any isDigit ∧
      (source.dropWhile isDigit).head?.any (fun c => c == '<' || c == '>') then
    some (source.dropWhile isDigit)
  else none

/-- The loop of `tokenize`. -/
def tokenizeFrom : Nat → List Char → Bool → List Heredoc → Option Token → List Token
  | 0, _, _, _, _ => []
  | _ + 1, [], _, _, _ => []
  | fuel + 1, c :: rest, atTokenStart, pending, previous =>
    if c = '\\' ∧ rest.head? = some '\n' then
      tokenizeFrom fuel (rest.drop 1) atTokenStart pending previous
    else if isBlank c then tokenizeFrom fuel rest true pending previous
    else if c = '#' ∧ atTokenStart then
      tokenizeFrom fuel ((c :: rest).dropWhile (· != '\n')) atTokenStart pending previous
    else
      match (if atTokenStart then afterDescriptor (c :: rest) else none) with
      | some rest => tokenizeFrom fuel rest atTokenStart pending previous
      | none =>
        match operatorAt (c :: rest) with
        | some operator =>
          let left := (c :: rest).drop operator.length
          .op operator ::
            if operator = "\n" ∧ pending ≠ [] then
              tokenizeFrom fuel (skipHeredocBodies left pending) true [] (some (.op operator))
            else tokenizeFrom fuel left true pending (some (.op operator))
        | none =>
          let reading := readWord (rest.length + 2) (c :: rest)
          let word : Word := ⟨String.ofList reading.value, reading.expandable⟩
          .word word :: tokenizeFrom fuel reading.rest false (pending ++ heredocOf previous word)
            (some (.word word))

def tokenize (source : String) : List Token :=
  tokenizeFrom (source.toList.length + 1) source.toList true [] none

/-! ## Simple commands -/

structure Redirection where
  op : String
  target : Word
  deriving DecidableEq, Repr

structure Command where
  words : List Word := []
  assignments : List Assignment := []
  redirections : List Redirection := []
  background : Bool := false
  deriving DecidableEq, Repr

def Command.raw (command : Command) : List String := command.words.map Word.value

def Command.isSubstantial (command : Command) : Bool :=
  command.words != [] || command.assignments != [] || command.redirections != []

/-- The state of the loop of `parseScript`. -/
structure Parser where
  commands : List Command := []
  functions : List String := []
  /-- The starts of the enclosing lists, nearest first. -/
  listStarts : List Nat := []
  listStart : Nat := 0
  current : Command := {}
  pendingRedirect : Option String := none
  discarding : Bool := false
  deriving DecidableEq, Repr

def Parser.flush (parser : Parser) : Parser :=
  { parser with
    commands := if parser.current.isSubstantial then parser.commands ++ [parser.current]
      else parser.commands
    current := {}
    pendingRedirect := none }

/-- `background()`: the commands from `listStart` on. -/
def Parser.background (parser : Parser) : Parser :=
  { parser with
    commands := parser.commands.take parser.listStart ++
      (parser.commands.drop parser.listStart).map fun command =>
        { command with background := true } }

def Parser.operator (parser : Parser) (op : String) : Parser :=
  if redirects.contains op then { parser with pendingRedirect := some op }
  else if op = "(" then
    let parser := parser.flush
    { parser with
      listStarts := parser.listStart :: parser.listStarts
      listStart := parser.commands.length
      discarding := false }
  else if op = ")" then
    let parser := parser.flush
    { parser with
      listStarts := parser.listStarts.tail
      listStart := parser.listStarts.head?.getD 0
      discarding := false }
  else if op = "&" then
    let parser := parser.flush.background
    { parser with listStart := parser.commands.length, discarding := false }
  else
    let parser := parser.flush
    { parser with
      listStart := if op = ";" ∨ op = ";;" ∨ op = "\n" then parser.commands.length
        else parser.listStart
      discarding := false }

def Parser.push (parser : Parser) (word : Word) : Parser :=
  { parser with current := { parser.current with words := parser.current.words ++ [word] } }

/-- A word that begins no definition of a function. -/
def Parser.word (parser : Parser) (word : Word) : Parser :=
  if parser.current.words = [] then
    if keywords.contains word.value then parser
    else if clauseKeywords.contains word.value then { parser with discarding := true }
    else
      match (if word.expandable then none else assignment? word.value) with
      | some assignment => { parser with
          current := { parser.current with
            assignments := parser.current.assignments ++ [assignment] } }
      | none => parser.push word
  else parser.push word

/-- `name() { … }` and `function name { … }`: the name, and how many tokens behind the word belong to
it. -/
def definition? (word : Word) (rest : List Token) : Option (String × Nat) :=
  match rest with
  | .op "(" :: .op ")" :: _ => some (word.value, 2)
  | .word name :: rest =>
    if word.value = "function" then
      match rest with
      | .op "(" :: .op ")" :: _ => some (name.value, 3)
      | _ => some (name.value, 1)
    else none
  | _ => none

def Parser.redirect (parser : Parser) (op : String) (target : Word) : Parser :=
  { parser with
    current := { parser.current with
      redirections := parser.current.redirections ++ [⟨op, target⟩] }
    pendingRedirect := none }

/-- The loop of `parseScript`, with as many tokens to pass over. -/
def Parser.run (parser : Parser) : Nat → List Token → Parser
  | _, [] => parser
  | skip + 1, _ :: rest => parser.run skip rest
  | 0, .op op :: rest => (parser.operator op).run 0 rest
  | 0, .word word :: rest =>
    match parser.pendingRedirect with
    | some op => (parser.redirect op word).run 0 rest
    | none =>
      if parser.discarding then parser.run 0 rest
      else
        match (if parser.current.words = [] then definition? word rest else none) with
        | some (name, skip) =>
          { parser with functions := parser.functions ++ [name] }.run skip rest
        | none => (parser.word word).run 0 rest

/-! ## Launchers -/

/-- An entry of `LAUNCHERS`. -/
structure Launcher where
  value : List String := []
  reject : List String := []
  assignments : Bool := false
  positional : Nat := 0

def launchers : List (String × Launcher) :=
  [("sudo", { value := ["-u", "-g", "-p", "-U", "-C", "-h", "--user", "--group", "--prompt"] }),
    ("doas", { value := ["-u", "-C"] }),
    ("env", { value := ["-u", "--unset", "--chdir", "-C"], assignments := true }),
    ("command", { reject := ["-v", "-V", "--version"] }),
    ("builtin", {}),
    ("exec", { value := ["-a"] }),
    ("nohup", {}),
    ("setsid", {}),
    ("stdbuf", { value := ["-i", "-o", "-e"] }),
    ("nice", { value := ["-n"] }),
    ("ionice", { value := ["-c", "-n", "-p"] }),
    ("timeout", { value := ["-s", "--signal", "-k", "--kill-after"], positional := 1 }),
    ("xargs", { value := ["-n", "-P", "-I", "-i", "-d", "-E", "-L", "-s", "-a", "--max-args",
      "--max-procs", "--replace", "--delimiter", "--arg-file", "--max-lines", "--max-chars"] })]

/-- An entry of `PACKAGE_MANAGERS`. -/
structure PackageManager where
  value : List String
  implicitExec : Bool := false

def packageManagers : List (String × PackageManager) :=
  [("pnpm", { value :=
      ["--filter", "-F", "--dir", "-C", "--config", "--reporter", "--use-node-version"] }),
    ("npm", { value := ["--prefix", "-w", "--workspace", "--package"] }),
    ("yarn", { value := ["--cwd"] }),
    ("bun", { value := ["--cwd"] }),
    ("npx", { value := ["--package", "-p"], implicitExec := true }),
    ("bunx", { value := ["--package", "-p"], implicitExec := true })]

def execWords : List String := ["exec", "dlx", "run"]

def isOption (word : String) : Bool :=
  word.toList.head? == some '-' && word != "-" && word != "--"

/-- The options at the front, where those of `value` take the next word: they themselves, and what
is left. -/
def splitOptions (value : List String) : List String → List String × List String
  | [] => ([], [])
  | [word] => if isOption word then ([word], []) else ([], [word])
  | word :: next :: rest =>
    if isOption word then
      if value.contains word then
        (word :: (splitOptions value rest).1, (splitOptions value rest).2)
      else (word :: (splitOptions value (next :: rest)).1, (splitOptions value (next :: rest)).2)
    else ([], word :: next :: rest)

def Launcher.strip (launcher : Launcher) (args : List String) : Option (List String) :=
  let (options, rest) := splitOptions launcher.value args
  let rest := if launcher.assignments then rest.dropWhile fun word => (assignment? word).isSome
    else rest
  let rest := rest.drop launcher.positional
  if options.any launcher.reject.contains || rest.isEmpty then none else some rest

def PackageManager.strip (manager : PackageManager) (args : List String) : Option (List String) :=
  match (splitOptions manager.value args).2 with
  | [] => none
  | word :: rest =>
    if execWords.contains word then if rest.isEmpty then none else some rest
    else some (word :: rest)

/-- One iteration of `unwrap`: what is stripped, and what is left. -/
def unwrapStep : List String → Option (String × List String)
  | [] => none
  | head :: args =>
    match launchers.lookup head with
    | some launcher => (launcher.strip args).map fun rest => (head, rest)
    | none =>
      match packageManagers.lookup head with
      | some manager => (manager.strip args).map fun rest => (head, rest)
      | none => none

/-- What `unwrap` returns. -/
structure Unwrapped where
  argv : List String
  via : List String
  deriving DecidableEq, Repr

/-- The loop of `unwrap`, with as many iterations left. -/
def unwrapFrom : Nat → List String → List String → Unwrapped
  | 0, words, via => ⟨words, via⟩
  | guard + 1, words, via =>
    match unwrapStep words with
    | none => ⟨words, via⟩
    | some (head, rest) => unwrapFrom guard rest (via ++ [head])

def unwrap (argv : List String) : Unwrapped := unwrapFrom 8 argv []

/-! ## Scripts -/

/-- What `parseScript` returns. -/
structure Script where
  commands : List (Command × Unwrapped)
  functions : List String
  deriving DecidableEq, Repr

def parseScript (script : String) : Script :=
  let parser := (Parser.run {} 0 (tokenize script)).flush
  { commands := parser.commands.map fun command => (command, unwrap command.raw)
    functions := parser.functions }

def completedCommands (script : String) : List (Command × Unwrapped) :=
  (parseScript script).commands.filter fun command => !command.1.background

end Ci
