import AtriumVerified.Execution.Diff

/-!
# What git prints

The output of `git diff --numstat -z` and of `git -c core.quotePath=false diff --no-color`, both with
`--find-renames`, as git's documentation gives the formats: the counts of a file end in a NUL, and a
path of the patch is quoted where it has a quote, a backslash or a control character. Behind a path
with a space git writes a tab in the two lines of the images.
-/

namespace Execution

open Js

/-! ## Texts -/

/-- A text in one line. -/
structure LineText where
  text : List Char
  noBreak : '\n' ∉ text

/-- A text without blanks. -/
structure BareText where
  text : List Char
  nonempty : text ≠ []
  noSpace : ∀ c ∈ text, isSpace c = false

/-- A path as git stores it. -/
structure GitPath where
  text : List Char
  nonempty : text ≠ []
  noNul : '\x00' ∉ text
  relative : text.head? ≠ some '/'

/-- How a quoted path writes a character. -/
def escapeChar (c : Char) : List Char :=
  if c = '"' ∨ c = '\\' then ['\\', c]
  else if c = '\x07' then ['\\', 'a']
  else if c = '\x08' then ['\\', 'b']
  else if c = '\t' then ['\\', 't']
  else if c = '\n' then ['\\', 'n']
  else if c = '\x0b' then ['\\', 'v']
  else if c = '\x0c' then ['\\', 'f']
  else if c = '\r' then ['\\', 'r']
  else if c.toNat < 32 ∨ c.toNat = 127 then '\\' :: padStart 3 '0' (Nat.toDigits 8 c.toNat)
  else [c]

def isPlainChar (c : Char) : Bool := c != '"' && c != '\\' && 32 ≤ c.toNat && c.toNat != 127

/-- A path as the patch prints it. -/
def quotePath (path : List Char) : List Char :=
  if path.all isPlainChar then path else '"' :: (path.flatMap escapeChar ++ ['"'])

/-! ## Files -/

/-- What a line of a hunk says of its text. -/
inductive Mark where
  | context
  | removed
  | added
  /-- `\ No newline at end of file`. -/
  | incomplete
  deriving DecidableEq, Repr

def Mark.char : Mark → Char
  | .context => ' '
  | .removed => '-'
  | .added => '+'
  | .incomplete => '\\'

structure BodyLine where
  mark : Mark
  text : LineText

def BodyLine.line (body : BodyLine) : List Char := body.mark.char :: body.text.text

/-- A hunk: the lines of one stretch of a file. -/
structure GitHunk where
  /-- What stands behind `@@`. -/
  ranges : LineText
  body : List BodyLine
  nonempty : body ≠ []

def GitHunk.hunk (hunk : GitHunk) : DiffHunk :=
  ⟨"@@".toList ++ hunk.ranges.text, hunk.body.map BodyLine.line⟩

/-- What happened to a file. -/
inductive Change where
  | added (mode : BareText)
  | deleted (mode : BareText)
  /-- The same path, and other modes where there are some. -/
  | modified (modes : Option (BareText × BareText))
  | renamed (old : GitPath) (similarity : BareText) (modes : Option (BareText × BareText))

/-- What the patch shows of a file. -/
inductive Content where
  /-- Nothing, or the file is empty. -/
  | same
  | binary
  | text (hunks : List GitHunk) (nonempty : hunks ≠ [])

/-- One file of a diff. -/
structure FileDiff where
  path : GitPath
  change : Change
  /-- The objects behind `index`, and the mode where it is the same before and behind. -/
  index : Option (BareText × Option BareText)
  content : Content

/-- A diff, each path once. -/
structure GitDiff where
  files : List FileDiff
  nodup : (files.map fun file => file.path.text).Nodup

def FileDiff.oldPath (file : FileDiff) : Option (List Char) :=
  match file.change with
  | .renamed old _ _ => some old.text
  | _ => none

def FileDiff.status (file : FileDiff) : DiffStatus :=
  match file.change with
  | .added _ => .added
  | .deleted _ => .deleted
  | .modified _ => .modified
  | .renamed _ _ _ => .renamed

def FileDiff.isBinary (file : FileDiff) : Bool :=
  match file.content with
  | .binary => true
  | _ => false

def FileDiff.hunks (file : FileDiff) : List DiffHunk :=
  match file.content with
  | .text hunks _ => hunks.map GitHunk.hunk
  | _ => []

/-- What a reader of the patch should find. -/
def FileDiff.real (file : FileDiff) : PatchFile :=
  ⟨file.path.text, file.oldPath, file.status, file.isBinary, file.hunks⟩

/-! ## The patch -/

/-- The image before, as the patch names it. -/
def FileDiff.before (file : FileDiff) : List Char :=
  match file.change with
  | .added _ => devNull
  | .renamed old _ _ => quotePath ("a/".toList ++ old.text)
  | _ => quotePath ("a/".toList ++ file.path.text)

/-- The image behind, as the patch names it. -/
def FileDiff.behind (file : FileDiff) : List Char :=
  match file.change with
  | .deleted _ => devNull
  | _ => quotePath ("b/".toList ++ file.path.text)

def modeLines : Option (BareText × BareText) → List (List Char)
  | none => []
  | some (old, new) => ["old mode ".toList ++ old.text, "new mode ".toList ++ new.text]

/-- The lines that say what happened. -/
def FileDiff.changeLines (file : FileDiff) : List (List Char) :=
  match file.change with
  | .added mode => ["new file mode ".toList ++ mode.text]
  | .deleted mode => ["deleted file mode ".toList ++ mode.text]
  | .modified modes => modeLines modes
  | .renamed old similarity modes =>
    modeLines modes ++ ["similarity index ".toList ++ similarity.text,
      "rename from ".toList ++ quotePath old.text, "rename to ".toList ++ quotePath file.path.text]

/-- A name in the lines of the images. -/
def imageName (name : List Char) : List Char := if ' ' ∈ name then name ++ ['\t'] else name

def GitHunk.lines (hunk : GitHunk) : List (List Char) := hunk.hunk.header :: hunk.hunk.lines

/-- The lines that show the content. -/
def FileDiff.contentLines (file : FileDiff) : List (List Char) :=
  match file.content with
  | .same => []
  | .binary =>
    ["Binary files ".toList ++ file.before ++ " and ".toList ++ file.behind ++ " differ".toList]
  | .text hunks _ => ("--- ".toList ++ imageName file.before) ::
      ("+++ ".toList ++ imageName file.behind) :: hunks.flatMap GitHunk.lines

def FileDiff.firstLine (file : FileDiff) : List Char :=
  let old := match file.change with
    | .renamed old _ _ => old.text
    | _ => file.path.text
  "diff --git ".toList ++ quotePath ("a/".toList ++ old) ++ " ".toList ++
    quotePath ("b/".toList ++ file.path.text)

/-- What stands behind `index`. -/
def indexText : BareText × Option BareText → List Char
  | (objects, none) => objects.text
  | (objects, some mode) => objects.text ++ ' ' :: mode.text

/-- The line of the index, where the content changed. -/
def FileDiff.indexLines (file : FileDiff) : List (List Char) :=
  file.index.toList.map fun index => "index ".toList ++ indexText index

def FileDiff.laterLines (file : FileDiff) : List (List Char) :=
  file.changeLines ++ (file.indexLines ++ file.contentLines)

def GitDiff.lines (diff : GitDiff) : List (List Char) :=
  diff.files.flatMap fun file => file.firstLine :: file.laterLines

/-- What `git diff` prints. -/
def GitDiff.patchOut (diff : GitDiff) : List Char :=
  diff.lines.flatMap fun line => line ++ ['\n']

/-! ## The counts -/

/-- One entry of `--numstat`; a binary file has no counts. -/
structure GitCount where
  path : GitPath
  old : Option GitPath
  counts : Option (Nat × Nat)

def printCount (counts : Option Nat) : List Char :=
  match counts with
  | some n => Nat.toDigits 10 n
  | none => ['-']

def GitCount.text (count : GitCount) : List Char :=
  printCount (count.counts.map Prod.fst) ++ '\t' :: (printCount (count.counts.map Prod.snd) ++ '\t' ::
    (match count.old with
      | none => count.path.text ++ ['\x00']
      | some old => '\x00' :: (old.text ++ '\x00' :: (count.path.text ++ ['\x00']))))

def numstatOut (counts : List GitCount) : List Char := counts.flatMap GitCount.text

def FileDiff.countOf (file : FileDiff) (mark : Mark) : Nat :=
  match file.content with
  | .text hunks _ => (hunks.flatMap GitHunk.body).countP fun body => body.mark == mark
  | _ => 0

/-- The entry of a file. -/
def FileDiff.count (file : FileDiff) : GitCount where
  path := file.path
  old := match file.change with
    | .renamed old _ _ => some old
    | _ => none
  counts := if file.isBinary then none else some (file.countOf .added, file.countOf .removed)

/-- What `git diff --numstat -z` prints. -/
def GitDiff.numstatOut (diff : GitDiff) : List Char :=
  Execution.numstatOut (diff.files.map FileDiff.count)

end Execution
