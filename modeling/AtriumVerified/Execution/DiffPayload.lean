import AtriumVerified.Execution.Diff
import AtriumVerified.Lib.SchemaObjects

/-!
# The diff that the ledger accepts

The model of `SessionDiffPayload` of `apps/server/src/room-events.ts`, with the value that it reads:
the diff of the producer as an object.
-/

namespace Execution

open Js

/-! ## The object -/

def DiffStatus.name : DiffStatus → String
  | .added => "added"
  | .modified => "modified"
  | .deleted => "deleted"
  | .renamed => "renamed"

def DiffHunk.toJson (hunk : DiffHunk) : Json :=
  .object [("header", .string (String.ofList hunk.header)),
    ("lines", .array (hunk.lines.map fun line => .string (String.ofList line)))]

/-- A file as an object. The old path is a key where there is one. -/
def DiffFile.toJson (file : DiffFile) : Json :=
  .object ([("path", Json.string (String.ofList file.path))] ++
    file.oldPath.toList.map (fun old => ("oldPath", Json.string (String.ofList old))) ++
    [("status", Json.string file.status.name),
      ("additions", Json.number (Number.ofInt file.additions)),
      ("deletions", Json.number (Number.ofInt file.deletions)), ("binary", Json.bool file.binary),
      ("hunks", Json.array (file.hunks.map DiffHunk.toJson))])

def SessionDiff.toJson (diff : SessionDiff) : Json :=
  .object [("files", .array (diff.files.map DiffFile.toJson)),
    ("fileCount", .number (Number.ofInt diff.fileCount)),
    ("additions", .number (Number.ofInt diff.additions)),
    ("deletions", .number (Number.ofInt diff.deletions)), ("truncated", .bool diff.truncated)]

/-! ## The schema -/

/-- `z.string()` with checks. -/
def textSchema (checks : List (String → Option String)) : Schema.Reader (List Char) := fun value =>
  (Schema.string checks value).map String.toList

/-- `z.number().int().nonnegative()`. -/
def countSchema : Schema.Reader Int := fun value =>
  (Schema.nonnegative Schema.integer value).map fun count => (count : Int)

/-- `SessionDiffHunkPayload`. -/
def diffHunkSchema : Schema.Reader DiffHunk := Schema.object fun fields =>
  Schema.both DiffHunk.mk
    (Schema.field fields "header" (textSchema [Schema.maxLength (maxDiffHeaderLen + 1)]))
    (Schema.field fields "lines" (Schema.maxItems maxDiffLines
      (Schema.array (textSchema [Schema.maxLength (maxDiffLineLen + 1)]))))

def diffPathSchema : Schema.Reader (List Char) :=
  textSchema [Schema.minLength 1, Schema.maxLength maxDiffPathLen]

/-- The values of `status`. -/
def diffStatusSchema : Schema.Reader DiffStatus := Schema.enum
  [("added", .added), ("modified", .modified), ("deleted", .deleted), ("renamed", .renamed)]

/-- `SessionDiffFilePayload`. -/
def diffFileSchema : Schema.Reader DiffFile := Schema.object fun fields =>
  Schema.both (fun f hunks => f hunks)
    (Schema.both (fun f binary => f binary)
      (Schema.both (fun f deletions => f deletions)
        (Schema.both (fun f additions => f additions)
          (Schema.both (fun f status => f status)
            (Schema.both (fun path oldPath status additions deletions binary hunks =>
                (⟨path, oldPath, status, additions, deletions, binary, hunks⟩ : DiffFile))
              (Schema.field fields "path" diffPathSchema)
              (Schema.field fields "oldPath" (Schema.optional diffPathSchema)))
            (Schema.field fields "status" diffStatusSchema))
          (Schema.field fields "additions" countSchema))
        (Schema.field fields "deletions" countSchema))
      (Schema.field fields "binary" Schema.boolean))
    (Schema.field fields "hunks" (Schema.maxItems maxDiffLines (Schema.array diffHunkSchema)))

def diffShape (fields : List (String × Json)) : Schema.Parsed SessionDiff :=
  Schema.both (fun f truncated => f truncated)
    (Schema.both (fun f deletions => f deletions)
      (Schema.both (fun f additions => f additions)
        (Schema.both (fun files fileCount additions deletions truncated =>
            (⟨files, fileCount.toNat, additions, deletions, truncated⟩ : SessionDiff))
          (Schema.field fields "files"
            (Schema.maxItems maxDiffFiles (Schema.array diffFileSchema)))
          (Schema.field fields "fileCount" countSchema))
        (Schema.field fields "additions" countSchema))
      (Schema.field fields "deletions" countSchema))
    (Schema.field fields "truncated" Schema.boolean)

/-! ## The aggregate -/

/-- `Buffer.byteLength(text, 'utf8')`. -/
def byteLength (text : List Char) : Nat := (text.map Char.utf8Size).sum

def DiffHunk.bytes (hunk : DiffHunk) : Nat :=
  byteLength hunk.header + (hunk.lines.map byteLength).sum

def DiffFile.bytes (file : DiffFile) : Nat :=
  byteLength file.path + byteLength (file.oldPath.getD []) + (file.hunks.map DiffHunk.bytes).sum

def DiffFile.lineCount (file : DiffFile) : Nat := (file.hunks.map fun hunk => hunk.lines.length).sum

def SessionDiff.totalsZero (diff : SessionDiff) : Bool :=
  diff.fileCount == 0 && diff.additions == 0 && diff.deletions == 0 && !diff.truncated

def SessionDiff.totalLines (diff : SessionDiff) : Nat := (diff.files.map DiffFile.lineCount).sum

def SessionDiff.totalBytes (diff : SessionDiff) : Nat := (diff.files.map DiffFile.bytes).sum

/-- An empty list of files carries no totals, and totals carry files. -/
def incoherentMessage : String :=
  "an incoherent diff report — an empty file list must carry zero totals (fileCount, " ++
    "additions, deletions all 0, truncated false), and non-empty totals must carry files. " ++
    "A report whose contents disagree with its own totals is rejected at the ledger rather " ++
    "than rendered as an honest \"no changes\"."

def outnumberedMessage (diff : SessionDiff) : String :=
  "an incoherent diff report — fileCount " ++ toString diff.fileCount ++ " is fewer than the " ++
    toString diff.files.length ++ " files carried; the retained files are a prefix of the whole " ++
    "diff and cannot outnumber it"

def linesMessage (diff : SessionDiff) : String :=
  "a diff carrying " ++ toString diff.totalLines ++ " retained hunk lines exceeds the durable " ++
    "ceiling of " ++ toString maxDiffLines ++ " (#145 r2, FIX 3) — the aggregate cap the producer " ++
    "enforces, restated at the ledger"

def bytesMessage (diff : SessionDiff) : String :=
  "a diff serializing to " ++ toString diff.totalBytes ++ " bytes exceeds the durable ceiling of " ++
    toString maxDiffTotalBytes ++ " (#145 r2, FIX 3) — a hostile provider cannot compose " ++
    "in-bounds pieces into an out-of-bounds jsonb row"

/-- The issues of `superRefine`. -/
def SessionDiff.issues (diff : SessionDiff) : List Schema.Issue :=
  (if diff.files.isEmpty = diff.totalsZero then [] else [⟨["files"], incoherentMessage⟩]) ++
    (if diff.fileCount < diff.files.length then [⟨["fileCount"], outnumberedMessage diff⟩] else []) ++
    (if maxDiffLines < diff.totalLines then [⟨["files"], linesMessage diff⟩] else []) ++
    if maxDiffTotalBytes < diff.totalBytes then [⟨["files"], bytesMessage diff⟩] else []

/-- `SessionDiffPayload`. The issues of the aggregate are those of a diff whose fields have none. -/
def sessionDiffPayload : Schema.Reader SessionDiff := fun value =>
  match Schema.object diffShape value with
  | .error issues => .error issues
  | .ok diff => if diff.issues = [] then .ok diff else .error diff.issues

end Execution
