import Mathlib.Algebra.GroupWithZero.Nat
import Mathlib.Algebra.Ring.Int.Defs
import AtriumVerified.Lib.InsertionMap
import AtriumVerified.Lib.Split

/-!
# The diff of a session

The model of `diffWorktree` of `apps/server/src/execution/git.ts` behind its calls of git: the counts
of `git diff --numstat -z`, the hunks of the patch, and both joined by path and cut to the caps. A
text is the list of its characters. Where a cut goes through the two code units of one character,
U+FFFD stands for the half that is left: it is one code unit as well, and three bytes in UTF-8.
-/

namespace Execution

open Js

/-! ## Caps -/

def maxDiffFiles : Nat := 40

def maxDiffLines : Nat := 2000

def maxDiffLineLen : Nat := 500

def maxDiffHeaderLen : Nat := maxDiffLineLen

def maxDiffPathLen : Nat := 1000

def maxDiffTotalBytes : Nat :=
  maxDiffLines * (maxDiffLineLen + 1) + maxDiffFiles * (maxDiffHeaderLen + 1 + 2 * maxDiffPathLen)

/-! ## Counts -/

structure NumstatEntry where
  path : List Char
  oldPath : Option (List Char)
  additions : Int
  deletions : Int
  binary : Bool
  deriving DecidableEq, Repr

/-- `Number.parseInt(text, 10) || 0`. -/
def parseCount (text : List Char) : Int :=
  match text.dropWhile isSpace with
  | '-' :: digits => -(numberOf (digits.takeWhile isDigit) : Int)
  | '+' :: digits => numberOf (digits.takeWhile isDigit)
  | digits => numberOf (digits.takeWhile isDigit)

/-- What stands before the first tab and what stands behind it. -/
def cutAtTab (text : List Char) : Option (List Char × List Char) :=
  if '\t' ∈ text then some (text.takeWhile (· != '\t'), (text.dropWhile (· != '\t')).drop 1)
  else none

/-- The two counts of a token and what stands behind them. -/
def countsOf (head : List Char) : Option (List Char × List Char × List Char) :=
  (cutAtTab head).bind fun (addsRaw, rest) => (cutAtTab rest).map fun cut => (addsRaw, cut)

/-- The loop of `parseNumstatZ`, with as many tokens to pass over. -/
def numstatFrom : Nat → List (List Char) → List NumstatEntry
  | _, [] => []
  | skip + 1, _ :: rest => numstatFrom skip rest
  | 0, head :: rest =>
    match countsOf head with
    | none => numstatFrom 0 rest
    | some (addsRaw, delsRaw, inlinePath) =>
      let binary := addsRaw == ['-'] && delsRaw == ['-']
      let additions := if binary then 0 else parseCount addsRaw
      let deletions := if binary then 0 else parseCount delsRaw
      if inlinePath = [] then
        ⟨rest[1]?.getD [], some (rest[0]?.getD []), additions, deletions, binary⟩ ::
          numstatFrom 2 rest
      else ⟨inlinePath, none, additions, deletions, binary⟩ :: numstatFrom 0 rest

def parseNumstatZ (raw : List Char) : List NumstatEntry := numstatFrom 0 (raw.splitOn '\x00')

/-! ## The patch -/

structure DiffHunk where
  header : List Char
  lines : List (List Char)
  deriving DecidableEq, Repr

inductive DiffStatus where
  | added
  | modified
  | deleted
  | renamed
  deriving DecidableEq, Repr

structure PatchFile where
  path : List Char
  oldPath : Option (List Char)
  status : DiffStatus
  binary : Bool
  hunks : List DiffHunk
  deriving DecidableEq, Repr

/-- `line.startsWith(text)`. -/
def startsWith (text : String) (line : List Char) : Bool := text.toList.isPrefixOf line

/-- `line.slice(text.length)`. -/
def sliceBehind (text : String) (line : List Char) : List Char := line.drop text.toList.length

/-- `/dev/null`. -/
def devNull : List Char := "/dev/null".toList

def stripImagePrefix (path : List Char) : List Char :=
  if path = devNull then path
  else if startsWith "a/" path || startsWith "b/" path then path.drop 2
  else path

def behindLast (text : List Char) : List Char → Option (List Char)
  | [] => none
  | c :: rest =>
    match behindLast text rest with
    | some behind => some behind
    | none =>
      if text.isPrefixOf (c :: rest) then some ((c :: rest).drop text.length) else none

/-- What `.` does not match. -/
def isLineTerminator (c : Char) : Bool := c == '\n' || c == '\r' || c == '\u2028' || c == '\u2029'

/-- The group of `/^Binary files .* and (.*) differ$/`. -/
def binaryName (line : List Char) : Option (List Char) :=
  let names := sliceBehind "Binary files " line
  let ending := " differ".toList
  if startsWith "Binary files " line && ending.isSuffixOf names && !names.any isLineTerminator then
    behindLast " and ".toList (names.take (names.length - ending.length))
  else none

/-- `cur` of `parseUnifiedDiff`. Its last hunk is `hunk`. -/
structure PatchBlock where
  path : List Char := []
  oldPath : Option (List Char) := none
  status : DiffStatus := .modified
  binary : Bool := false
  hunks : List DiffHunk := []
  minus : Option (List Char) := none
  plus : Option (List Char) := none
  deriving DecidableEq, Repr

/-- `hunk.lines.push(line)`. -/
def pushLine (line : List Char) : List DiffHunk → List DiffHunk
  | [] => []
  | [hunk] => [{ hunk with lines := hunk.lines ++ [line] }]
  | hunk :: rest => hunk :: pushLine line rest

/-- A line behind `diff --git`. -/
def PatchBlock.read (cur : PatchBlock) (line : List Char) : PatchBlock :=
  if startsWith "new file mode" line then { cur with status := .added }
  else if startsWith "deleted file mode" line then { cur with status := .deleted }
  else if startsWith "rename from " line then
    { cur with oldPath := some (sliceBehind "rename from " line), status := .renamed }
  else if startsWith "rename to " line then
    { cur with path := sliceBehind "rename to " line, status := .renamed }
  else if startsWith "Binary files " line then
    match binaryName line with
    | some (c :: name) => { cur with binary := true, path := stripImagePrefix (c :: name) }
    | _ => { cur with binary := true }
  else if startsWith "--- " line then
    { cur with minus := some (stripImagePrefix (sliceBehind "--- " line)) }
  else if startsWith "+++ " line then
    { cur with plus := some (stripImagePrefix (sliceBehind "+++ " line)) }
  else if startsWith "@@" line then { cur with hunks := cur.hunks ++ [⟨line, []⟩] }
  else if startsWith " " line || startsWith "+" line || startsWith "-" line ||
      startsWith "\\" line then
    { cur with hunks := pushLine line cur.hunks }
  else cur

/-- `flush()`. -/
def PatchBlock.file (cur : PatchBlock) : PatchFile where
  path :=
    match cur.plus.filter (· ≠ devNull), cur.minus.filter (· ≠ devNull) with
    | some plus, _ => plus
    | none, some minus => minus
    | none, none => cur.path
  oldPath := cur.oldPath
  status := cur.status
  binary := cur.binary
  hunks := cur.hunks

/-- The loop of `parseUnifiedDiff`. -/
def patchFrom : Option PatchBlock → List (List Char) → List PatchFile
  | cur, [] => cur.toList.map PatchBlock.file
  | cur, line :: rest =>
    if startsWith "diff --git " line then
      cur.toList.map PatchBlock.file ++ patchFrom (some {}) rest
    else patchFrom (cur.map fun cur => cur.read line) rest

def parseUnifiedDiff (patch : List Char) : List PatchFile :=
  if patch = [] then [] else patchFrom none (patch.splitOn '\n')

/-! ## The diff -/

/-- `SessionDiffFile`. -/
structure DiffFile where
  path : List Char
  oldPath : Option (List Char)
  status : DiffStatus
  additions : Int
  deletions : Int
  binary : Bool
  hunks : List DiffHunk
  deriving DecidableEq, Repr

structure SessionDiff where
  files : List DiffFile
  fileCount : Nat
  additions : Int
  deletions : Int
  truncated : Bool
  deriving DecidableEq, Repr

/-- `text.slice(0, limit)`. -/
def sliceUnits : Nat → List Char → List Char
  | _, [] => []
  | limit, c :: rest =>
    let size := (utf16Units c).length
    if size ≤ limit then c :: sliceUnits (limit - size) rest
    else if limit = 0 then []
    else ['\uFFFD']

def trimTo (limit : Nat) (text : List Char) : List Char :=
  if limit < Js.length text then sliceUnits limit text ++ ['…'] else text

/-- What a loop keeps, whether it left something out, and the lines that may still be kept. -/
structure Kept (α : Type) where
  kept : List α
  truncated : Bool
  lineBudget : Nat

def keepLines : Nat → List (List Char) → Kept (List Char)
  | lineBudget, [] => ⟨[], false, lineBudget⟩
  | 0, _ :: _ => ⟨[], true, 0⟩
  | lineBudget + 1, raw :: rest =>
    let others := keepLines lineBudget rest
    ⟨trimTo maxDiffLineLen raw :: others.kept,
      decide (maxDiffLineLen < Js.length raw) || others.truncated, others.lineBudget⟩

def keepHunks : Nat → List DiffHunk → Kept DiffHunk
  | lineBudget, [] => ⟨[], false, lineBudget⟩
  | 0, _ :: _ => ⟨[], true, 0⟩
  | lineBudget + 1, hunk :: rest =>
    let lines := keepLines (lineBudget + 1) hunk.lines
    let others := keepHunks lines.lineBudget rest
    ⟨⟨trimTo maxDiffHeaderLen hunk.header, lines.kept⟩ :: others.kept,
      lines.truncated || others.truncated, others.lineBudget⟩

def patchByPath (patch : List PatchFile) : Js.Map (List Char) PatchFile :=
  patch.foldl (fun held file => held.set file.path file) Js.Map.empty

def isBinary (entry : NumstatEntry) (patchFile : Option PatchFile) : Bool :=
  entry.binary || patchFile.any PatchFile.binary

def hunksOf (entry : NumstatEntry) (patchFile : Option PatchFile) : List DiffHunk :=
  if isBinary entry patchFile then [] else (patchFile.map PatchFile.hunks).getD []

/-- `oldPath`. -/
def oldPathOf (entry : NumstatEntry) (patchFile : Option PatchFile) : Option (List Char) :=
  (patchFile.bind PatchFile.oldPath).or entry.oldPath

def diffFile (entry : NumstatEntry) (patchFile : Option PatchFile) (hunks : List DiffHunk) :
    DiffFile where
  path := entry.path
  oldPath := (oldPathOf entry patchFile).filter (· ≠ [])
  status := (patchFile.map PatchFile.status).getD
    (if entry.oldPath.isSome then .renamed else .modified)
  additions := entry.additions
  deletions := entry.deletions
  binary := isBinary entry patchFile
  hunks := hunks

/-- The loop of `diffWorktree`, with as many files that may still be kept. -/
def keepFiles (patch : Js.Map (List Char) PatchFile) :
    Nat → Nat → List NumstatEntry → Kept DiffFile
  | _, lineBudget, [] => ⟨[], false, lineBudget⟩
  | 0, lineBudget, _ :: _ => ⟨[], true, lineBudget⟩
  | room + 1, lineBudget, entry :: rest =>
    let patchFile := patch.get entry.path
    let hunks := keepHunks lineBudget (hunksOf entry patchFile)
    let others := keepFiles patch room hunks.lineBudget rest
    ⟨diffFile entry patchFile hunks.kept :: others.kept, hunks.truncated || others.truncated,
      others.lineBudget⟩

/-- `diffWorktree`, from what the two commands print. `git` trims its output. -/
def diffWorktree (numstatOut patchOut : List Char) : SessionDiff :=
  let numstat := parseNumstatZ (Js.trim numstatOut)
  if numstat = [] then ⟨[], 0, 0, 0, false⟩
  else
    let kept := keepFiles (patchByPath (parseUnifiedDiff (Js.trim patchOut))) maxDiffFiles
      maxDiffLines numstat
    ⟨kept.kept, numstat.length, (numstat.map NumstatEntry.additions).sum,
      (numstat.map NumstatEntry.deletions).sum, kept.truncated⟩

end Execution
