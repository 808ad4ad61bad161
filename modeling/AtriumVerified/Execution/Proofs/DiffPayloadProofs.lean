import Mathlib.Algebra.Order.BigOperators.Group.List
import AtriumVerified.Execution.DiffPayload
import AtriumVerified.Execution.Proofs.DiffProofs
import AtriumVerified.Lib.Proofs.SchemaRules

/-!
# The diffs that the ledger accepts

The caps of the producer keep each field of the diff within the bounds of the schema but the paths,
the number of hunks of a file and the bytes of the whole.
-/

namespace Execution

open Js

/-! ## The fields -/

section Fields

theorem textSchema_eq_ok_iff {checks : List (String → Option String)} {text read : List Char} :
    textSchema checks (some (.string (String.ofList text))) = .ok read ↔
      (∀ check ∈ checks, check (String.ofList text) = none) ∧ read = text := by
  unfold textSchema
  constructor
  · intro h
    cases hread : Schema.string checks (some (.string (String.ofList text))) with
    | error issues =>
      rw [hread] at h
      cases h
    | ok held =>
      rw [hread] at h
      obtain ⟨hchecks, rfl⟩ := Schema.string_eq_ok_iff.mp hread
      cases h
      exact ⟨hchecks, String.toList_ofList⟩
  · rintro ⟨hchecks, rfl⟩
    rw [Schema.string_eq_ok_iff.mpr ⟨hchecks, rfl⟩]
    exact congrArg Except.ok String.toList_ofList

theorem utf16Length_ofList (text : List Char) : utf16Length (String.ofList text) = Js.length text := by
  rw [utf16Length, utf16, String.toList_ofList]
  rfl

theorem maxLength_eq_none_iff {n : Nat} {text : List Char} :
    Schema.maxLength n (String.ofList text) = none ↔ Js.length text ≤ n := by
  rw [Schema.maxLength, utf16Length_ofList]
  split
  · rename_i h
    simp [h]
  · rename_i h
    simp [Nat.not_lt.mp h]

theorem diffPathSchema_eq_ok_iff {path read : List Char} :
    diffPathSchema (some (.string (String.ofList path))) = .ok read ↔
      (path ≠ [] ∧ Js.length path ≤ maxDiffPathLen) ∧ read = path := by
  have hmin : Schema.minLength 1 (String.ofList path) = none ↔ path ≠ [] := by
    rw [Schema.minLength, utf16Length_ofList]
    cases path with
    | nil => simp [Js.length]
    | cons c rest =>
      have hpos := utf16Units_pos c
      rw [length_cons, if_neg (by omega)]
      simp
  rw [diffPathSchema, textSchema_eq_ok_iff, List.forall_mem_cons, List.forall_mem_singleton, hmin,
    maxLength_eq_none_iff]

theorem countSchema_eq_ok_iff {n read : Int} :
    countSchema (some (.number (Number.ofInt n))) = .ok read ↔ (0 ≤ n ∧ n < 2 ^ 53) ∧ read = n := by
  have hcount (count : Nat) :
      Schema.nonnegative Schema.integer (some (.number (Number.ofInt n))) = .ok count ↔
        (-(2 ^ 53) < n ∧ n < 2 ^ 53) ∧ (count : Int) = n := by
    rw [Schema.nonnegative_eq_ok_iff, Schema.integer_ofInt_eq_ok_iff]
  unfold countSchema
  constructor
  · intro h
    cases hread : Schema.nonnegative Schema.integer (some (.number (Number.ofInt n))) with
    | error issues =>
      rw [hread] at h
      cases h
    | ok count =>
      rw [hread] at h
      obtain ⟨hrange, rfl⟩ := (hcount count).mp hread
      cases h
      exact ⟨⟨Int.natCast_nonneg count, hrange.2⟩, rfl⟩
  · rintro ⟨⟨hpos, hrange⟩, rfl⟩
    obtain ⟨count, rfl⟩ := Int.eq_ofNat_of_zero_le hpos
    rw [(hcount count).mpr ⟨⟨by omega, hrange⟩, rfl⟩]
    rfl

theorem boolean_eq_ok_iff {value read : Bool} :
    Schema.boolean (some (.bool value)) = .ok read ↔ read = value := by
  rw [Schema.boolean, Except.ok.injEq, eq_comm]

theorem diffStatusSchema_eq_ok_iff {status read : DiffStatus} :
    diffStatusSchema (some (.string status.name)) = .ok read ↔ read = status := by
  cases status <;> cases read <;> decide

theorem array_toJson_eq_ok_iff {α : Type} {schema : Schema.Reader α} {toJson : α → Json}
    {P : α → Prop} (hschema : ∀ {item read : α},
      schema (some (toJson item)) = .ok read ↔ P item ∧ read = item) {values read : List α} :
    Schema.array schema (some (.array (values.map toJson))) = .ok read ↔
      (∀ item ∈ values, P item) ∧ read = values := by
  rw [Schema.array_eq_ok_iff]
  induction values generalizing read with
  | nil =>
    rw [List.map_nil, List.forall₂_nil_left_iff]
    simp
  | cons item values ih =>
    rw [List.map_cons, List.forall₂_cons_left_iff]
    simp only [hschema, ih]
    constructor
    · rintro ⟨_, _, ⟨hitem, rfl⟩, ⟨hvalues, rfl⟩, rfl⟩
      exact ⟨List.forall_mem_cons.mpr ⟨hitem, hvalues⟩, rfl⟩
    · rintro ⟨hall, rfl⟩
      obtain ⟨hitem, hvalues⟩ := List.forall_mem_cons.mp hall
      exact ⟨item, values, ⟨hitem, rfl⟩, ⟨hvalues, rfl⟩, rfl⟩

end Fields

/-! ## The shape -/

structure FitHunk (hunk : DiffHunk) : Prop where
  header : Js.length hunk.header ≤ maxDiffHeaderLen + 1
  lines : ∀ line ∈ hunk.lines, Js.length line ≤ maxDiffLineLen + 1
  count : hunk.lines.length ≤ maxDiffLines

structure FitFile (file : DiffFile) : Prop where
  path : file.path ≠ [] ∧ Js.length file.path ≤ maxDiffPathLen
  oldPath : ∀ old ∈ file.oldPath, old ≠ [] ∧ Js.length old ≤ maxDiffPathLen
  additions : 0 ≤ file.additions ∧ file.additions < 2 ^ 53
  deletions : 0 ≤ file.deletions ∧ file.deletions < 2 ^ 53
  hunks : ∀ hunk ∈ file.hunks, FitHunk hunk
  count : file.hunks.length ≤ maxDiffLines

/-- What the schema asks of the fields of a diff. -/
structure FitDiff (diff : SessionDiff) : Prop where
  files : ∀ file ∈ diff.files, FitFile file
  count : diff.files.length ≤ maxDiffFiles
  fileCount : diff.fileCount < 2 ^ 53
  additions : 0 ≤ diff.additions ∧ diff.additions < 2 ^ 53
  deletions : 0 ≤ diff.deletions ∧ diff.deletions < 2 ^ 53

section Shapes

theorem diffHunkSchema_eq_ok_iff {hunk read : DiffHunk} :
    diffHunkSchema (some hunk.toJson) = .ok read ↔ FitHunk hunk ∧ read = hunk := by
  have hline {line read : List Char} : textSchema [Schema.maxLength (maxDiffLineLen + 1)]
      (some (.string (String.ofList line))) = .ok read ↔
        Js.length line ≤ maxDiffLineLen + 1 ∧ read = line := by
    rw [textSchema_eq_ok_iff, List.forall_mem_singleton, maxLength_eq_none_iff]
  have hheader : lookupField [("header", .string (String.ofList hunk.header)),
      ("lines", .array (hunk.lines.map fun line => .string (String.ofList line)))] "header" =
        some (.string (String.ofList hunk.header)) := rfl
  have hlines : lookupField [("header", .string (String.ofList hunk.header)),
      ("lines", .array (hunk.lines.map fun line => .string (String.ofList line)))] "lines" =
        some (.array (hunk.lines.map fun line => .string (String.ofList line))) := rfl
  rw [diffHunkSchema, DiffHunk.toJson, Schema.object]
  simp only [Schema.both_eq_ok, Schema.field_eq_ok, hheader, hlines, textSchema_eq_ok_iff,
    List.forall_mem_singleton, maxLength_eq_none_iff, Schema.maxItems_eq_ok_iff,
    array_toJson_eq_ok_iff hline]
  constructor
  · rintro ⟨header, lines, ⟨hshort, rfl⟩, ⟨⟨hall, rfl⟩, hcount⟩, rfl⟩
    exact ⟨⟨hshort, hall, hcount⟩, rfl⟩
  · rintro ⟨hfit, rfl⟩
    exact ⟨_, _, ⟨hfit.header, rfl⟩, ⟨⟨hfit.lines, rfl⟩, hfit.count⟩, rfl⟩

theorem diffFileSchema_eq_ok_iff {file read : DiffFile} :
    diffFileSchema (some file.toJson) = .ok read ↔ FitFile file ∧ read = file := by
  obtain ⟨path, oldPath, status, additions, deletions, binary, hunks⟩ := file
  have hold {held : Option (List Char)} : Schema.optional diffPathSchema
      (oldPath.map fun old => Json.string (String.ofList old)) = .ok held ↔
        (∀ old ∈ oldPath, old ≠ [] ∧ Js.length old ≤ maxDiffPathLen) ∧ held = oldPath := by
    cases oldPath with
    | none => simp [Schema.optional_none_eq_ok_iff]
    | some old =>
      rw [Option.map_some, Schema.optional_some_eq_ok_iff]
      simp only [diffPathSchema_eq_ok_iff, Option.mem_some_iff, forall_eq']
      constructor
      · rintro ⟨_, ⟨hfit, rfl⟩, rfl⟩
        exact ⟨hfit, rfl⟩
      · rintro ⟨hfit, rfl⟩
        exact ⟨old, ⟨hfit, rfl⟩, rfl⟩
  rw [diffFileSchema, DiffFile.toJson, Schema.object]
  dsimp only
  generalize hfields : [("path", Json.string (String.ofList path))] ++
    oldPath.toList.map (fun old => ("oldPath", Json.string (String.ofList old))) ++ _ = fields
  have hlookups : lookupField fields "path" = some (.string (String.ofList path)) ∧
      lookupField fields "oldPath" = oldPath.map (fun old => Json.string (String.ofList old)) ∧
      lookupField fields "status" = some (.string status.name) ∧
      lookupField fields "additions" = some (.number (Number.ofInt additions)) ∧
      lookupField fields "deletions" = some (.number (Number.ofInt deletions)) ∧
      lookupField fields "binary" = some (.bool binary) ∧
      lookupField fields "hunks" = some (.array (hunks.map DiffHunk.toJson)) := by
    rw [← hfields]
    cases oldPath with
    | none => exact ⟨rfl, rfl, rfl, rfl, rfl, rfl, rfl⟩
    | some old => exact ⟨rfl, rfl, rfl, rfl, rfl, rfl, rfl⟩
  obtain ⟨hpath, holdPath, hstatus, hadditions, hdeletions, hbinary, hhunks⟩ := hlookups
  simp only [Schema.both_eq_ok, Schema.field_eq_ok, hpath, holdPath, hstatus, hadditions, hdeletions,
    hbinary, hhunks, diffPathSchema_eq_ok_iff, hold, diffStatusSchema_eq_ok_iff,
    countSchema_eq_ok_iff, boolean_eq_ok_iff, Schema.maxItems_eq_ok_iff,
    array_toJson_eq_ok_iff diffHunkSchema_eq_ok_iff]
  constructor
  · rintro ⟨_, _, ⟨_, _, ⟨_, _, ⟨_, _, ⟨_, _, ⟨_, _, ⟨hpath, rfl⟩, ⟨hold, rfl⟩, rfl⟩, rfl, rfl⟩,
      ⟨hadditions, rfl⟩, rfl⟩, ⟨hdeletions, rfl⟩, rfl⟩, rfl, rfl⟩, ⟨⟨hhunks, rfl⟩, hcount⟩, rfl⟩
    exact ⟨⟨hpath, hold, hadditions, hdeletions, hhunks, hcount⟩, rfl⟩
  · rintro ⟨hfit, rfl⟩
    exact ⟨_, _, ⟨_, _, ⟨_, _, ⟨_, _, ⟨_, _, ⟨_, _, ⟨hfit.path, rfl⟩, ⟨hfit.oldPath, rfl⟩, rfl⟩, rfl,
      rfl⟩, ⟨hfit.additions, rfl⟩, rfl⟩, ⟨hfit.deletions, rfl⟩, rfl⟩, rfl, rfl⟩,
      ⟨⟨hfit.hunks, rfl⟩, hfit.count⟩, rfl⟩

theorem diffShape_eq_ok_iff {diff read : SessionDiff} :
    Schema.object diffShape (some diff.toJson) = .ok read ↔ FitDiff diff ∧ read = diff := by
  obtain ⟨files, fileCount, additions, deletions, truncated⟩ := diff
  rw [SessionDiff.toJson, Schema.object, diffShape]
  dsimp only
  generalize hfields : [("files", Json.array (files.map DiffFile.toJson)), _, _, _, _] = fields
  have hlookups : lookupField fields "files" = some (.array (files.map DiffFile.toJson)) ∧
      lookupField fields "fileCount" = some (.number (Number.ofInt fileCount)) ∧
      lookupField fields "additions" = some (.number (Number.ofInt additions)) ∧
      lookupField fields "deletions" = some (.number (Number.ofInt deletions)) ∧
      lookupField fields "truncated" = some (.bool truncated) := by
    rw [← hfields]
    exact ⟨rfl, rfl, rfl, rfl, rfl⟩
  obtain ⟨hfiles, hfileCount, hadditions, hdeletions, htruncated⟩ := hlookups
  simp only [Schema.both_eq_ok, Schema.field_eq_ok, hfiles, hfileCount, hadditions, hdeletions,
    htruncated, countSchema_eq_ok_iff, boolean_eq_ok_iff, Schema.maxItems_eq_ok_iff,
    array_toJson_eq_ok_iff diffFileSchema_eq_ok_iff]
  constructor
  · rintro ⟨_, _, ⟨_, _, ⟨_, _, ⟨_, _, ⟨⟨hfiles, rfl⟩, hcount⟩, ⟨hfileCount, rfl⟩, rfl⟩,
      ⟨hadditions, rfl⟩, rfl⟩, ⟨hdeletions, rfl⟩, rfl⟩, rfl, rfl⟩
    exact ⟨⟨hfiles, hcount, by exact_mod_cast hfileCount.2, hadditions, hdeletions⟩, by simp⟩
  · rintro ⟨hfit, rfl⟩
    have hfileCount : (0 : Int) ≤ fileCount ∧ (fileCount : Int) < 2 ^ 53 :=
      ⟨Int.natCast_nonneg _, by exact_mod_cast hfit.fileCount⟩
    exact ⟨_, _, ⟨_, _, ⟨_, _, ⟨_, _, ⟨⟨hfit.files, rfl⟩, hfit.count⟩, ⟨hfileCount, rfl⟩, rfl⟩,
      ⟨hfit.additions, rfl⟩, rfl⟩, ⟨hfit.deletions, rfl⟩, rfl⟩, rfl, by simp⟩

theorem sessionDiffPayload_eq_ok_iff {diff read : SessionDiff} :
    sessionDiffPayload (some diff.toJson) = .ok read ↔
      FitDiff diff ∧ diff.issues = [] ∧ read = diff := by
  rw [sessionDiffPayload]
  cases hshape : Schema.object diffShape (some diff.toJson) with
  | error issues =>
    refine iff_of_false (by simp) (fun h => ?_)
    rw [diffShape_eq_ok_iff.mpr ⟨h.1, rfl⟩] at hshape
    cases hshape
  | ok held =>
    obtain ⟨hfit, rfl⟩ := diffShape_eq_ok_iff.mp hshape
    dsimp only
    split
    · rename_i hissues
      rw [Except.ok.injEq]
      exact ⟨fun h => ⟨hfit, hissues, h.symm⟩, fun h => h.2.2.symm⟩
    · rename_i hissues
      exact iff_of_false (by simp) fun h => hissues h.2.1

end Shapes

/-! ## The aggregate -/

section Totals

theorem sum_hunk_bytes (hunks : List DiffHunk) :
    (hunks.map DiffHunk.bytes).sum = (hunks.map fun hunk => byteLength hunk.header).sum +
      ((linesOf hunks).map byteLength).sum := by
  induction hunks with
  | nil => rfl
  | cons hunk rest ih =>
    have hlines : (linesOf (hunk :: rest)).map byteLength =
        hunk.lines.map byteLength ++ (linesOf rest).map byteLength := by
      rw [linesOf, List.flatMap_cons, List.map_append]
      rfl
    rw [List.map_cons, List.sum_cons, ih, hlines, List.sum_append_nat, List.map_cons, List.sum_cons,
      DiffHunk.bytes]
    omega

theorem lineCount_eq (file : DiffFile) : file.lineCount = (linesOf file.hunks).length := by
  rw [DiffFile.lineCount, linesOf, List.length_flatMap]

def keptBytes : Nat × NumstatEntry × Option PatchFile → Nat
  | (lineBudget, entry, patchFile) =>
    byteLength entry.path + byteLength ((oldPathOf entry patchFile).getD []) +
      ((begun lineBudget (hunksOf entry patchFile)).map fun (_, hunk) =>
        byteLength (trimTo maxDiffHeaderLen hunk.header)).sum +
      (((linesOf (hunksOf entry patchFile)).take lineBudget).map fun line =>
        byteLength (trimTo maxDiffLineLen line)).sum

theorem bytes_keptFile (file : Nat × NumstatEntry × Option PatchFile) :
    (keptFile file).bytes = keptBytes file := by
  obtain ⟨lineBudget, entry, patchFile⟩ := file
  have hold : byteLength ((keptFile (lineBudget, entry, patchFile)).oldPath.getD []) =
      byteLength ((oldPathOf entry patchFile).getD []) := by
    have hkept : (keptFile (lineBudget, entry, patchFile)).oldPath =
        (oldPathOf entry patchFile).filter (· ≠ []) := rfl
    rw [hkept]
    cases oldPathOf entry patchFile with
    | none => rfl
    | some old =>
      cases old with
      | nil => rfl
      | cons c rest => rfl
  have hhunks : (keptFile (lineBudget, entry, patchFile)).hunks =
      (keepHunks lineBudget (hunksOf entry patchFile)).kept := rfl
  have hheaders : ((keepHunks lineBudget (hunksOf entry patchFile)).kept.map fun hunk =>
      byteLength hunk.header) = (begun lineBudget (hunksOf entry patchFile)).map fun (_, hunk) =>
        byteLength (trimTo maxDiffHeaderLen hunk.header) := by
    rw [keepHunks_kept, List.map_map]
    rfl
  rw [DiffFile.bytes, hold, hhunks, sum_hunk_bytes, hheaders, linesOf_keepHunks, List.map_map,
    keptBytes, ← Nat.add_assoc]
  rfl

end Totals

/-! ## What is kept of a file -/

section Kept

theorem le_of_mem_begun {lineBudget left : Nat} {hunk : DiffHunk} {hunks : List DiffHunk}
    (h : (left, hunk) ∈ begun lineBudget hunks) : left ≤ lineBudget := by
  induction hunks generalizing lineBudget with
  | nil =>
    rw [begun] at h
    cases h
  | cons first rest ih =>
    cases lineBudget with
    | zero => cases h
    | succ lineBudget =>
      rw [begun] at h
      rcases List.mem_cons.mp h with heq | h
      · cases heq
        exact le_rfl
      · exact (ih h).trans (Nat.sub_le _ _)

theorem le_of_mem_allotted {lineBudget : Nat} {file : Nat × NumstatEntry × Option PatchFile}
    {files : List (NumstatEntry × Option PatchFile)} (h : file ∈ allotted lineBudget files) :
    file.1 ≤ lineBudget := by
  induction files generalizing lineBudget with
  | nil =>
    rw [allotted] at h
    cases h
  | cons first rest ih =>
    rw [allotted] at h
    rcases List.mem_cons.mp h with rfl | h
    · exact le_rfl
    · exact (ih h).trans (Nat.sub_le _ _)

theorem fitHunk_of_kept {lineBudget : Nat} (hbudget : lineBudget ≤ maxDiffLines) {hunk : DiffHunk}
    {hunks : List DiffHunk} (h : hunk ∈ (keepHunks lineBudget hunks).kept) : FitHunk hunk := by
  rw [keepHunks_kept, List.mem_map] at h
  obtain ⟨⟨left, first⟩, hmem, rfl⟩ := h
  refine ⟨length_trimTo_le _ _, fun line hline => ?_, ?_⟩
  · obtain ⟨raw, -, rfl⟩ := List.mem_map.mp hline
    exact length_trimTo_le _ _
  · have hleft := le_of_mem_begun hmem
    have hlines : (trimHunk left first).lines.length = min left first.lines.length := by
      simp [trimHunk]
    dsimp only
    omega

structure FitKept (file : Nat × NumstatEntry × Option PatchFile) : Prop where
  path : Js.length file.2.1.path ≤ maxDiffPathLen
  oldPath : ∀ old ∈ oldPathOf file.2.1 file.2.2, Js.length old ≤ maxDiffPathLen
  hunks : (begun file.1 (hunksOf file.2.1 file.2.2)).length ≤ maxDiffLines

theorem fitFile_keptFile_iff {file : Nat × NumstatEntry × Option PatchFile}
    (hbudget : file.1 ≤ maxDiffLines) (hpath : file.2.1.path ≠ [])
    (hadditions : 0 ≤ file.2.1.additions ∧ file.2.1.additions < 2 ^ 53)
    (hdeletions : 0 ≤ file.2.1.deletions ∧ file.2.1.deletions < 2 ^ 53) :
    FitFile (keptFile file) ↔ FitKept file := by
  obtain ⟨lineBudget, entry, patchFile⟩ := file
  have hcount : (keptFile (lineBudget, entry, patchFile)).hunks.length =
      (begun lineBudget (hunksOf entry patchFile)).length := by
    have hhunks : (keptFile (lineBudget, entry, patchFile)).hunks =
        (keepHunks lineBudget (hunksOf entry patchFile)).kept := rfl
    rw [hhunks, keepHunks_kept, List.length_map]
  have hold : ∀ old, old ∈ (keptFile (lineBudget, entry, patchFile)).oldPath ↔
      old ∈ oldPathOf entry patchFile ∧ old ≠ [] := by
    intro old
    unfold keptFile diffFile
    rw [Option.mem_def, Option.filter_eq_some_iff, decide_eq_true_eq]
    rfl
  constructor
  · intro hfit
    refine ⟨hfit.path.2, fun old hmem => ?_, hcount ▸ hfit.count⟩
    cases old with
    | nil => exact Nat.zero_le _
    | cons c rest => exact (hfit.oldPath _ ((hold _).mpr ⟨hmem, List.cons_ne_nil c rest⟩)).2
  · intro hfit
    refine ⟨⟨hpath, hfit.path⟩, fun old hmem => ?_, hadditions, hdeletions,
      fun hunk hmem => fitHunk_of_kept hbudget hmem, hcount ▸ hfit.hunks⟩
    obtain ⟨hheld, hne⟩ := (hold old).mp hmem
    exact ⟨hne, hfit.oldPath old hheld⟩

end Kept

/-! ## The diff of the producer -/

def keptFiles (counts : List GitCount) (patchOut : List Char) :
    List (Nat × NumstatEntry × Option PatchFile) :=
  allotted maxDiffLines (((counts.map GitCount.entry).take maxDiffFiles).map fun entry =>
    (entry, (patchByPath (parseUnifiedDiff (Js.trim patchOut))).get entry.path))

def GitCount.count (f : Nat × Nat → Nat) (count : GitCount) : Nat := (count.counts.map f).getD 0

/-- What no cap of the producer bounds: the totals, the paths, how many hunks begin within the lines
that are kept, and the bytes. -/
structure FitsLedger (counts : List GitCount) (patchOut : List Char) : Prop where
  fileCount : counts.length < 2 ^ 53
  additions : (counts.map (GitCount.count Prod.fst)).sum < 2 ^ 53
  deletions : (counts.map (GitCount.count Prod.snd)).sum < 2 ^ 53
  files : ∀ file ∈ keptFiles counts patchOut, FitKept file
  bytes : ((keptFiles counts patchOut).map keptBytes).sum ≤ maxDiffTotalBytes

section Producer

variable {counts : List GitCount} {patchOut : List Char}

theorem sum_entries {f : NumstatEntry → Int} {g : GitCount → Nat}
    (h : ∀ count, f count.entry = g count) (counts : List GitCount) :
    ((counts.map GitCount.entry).map f).sum = ((counts.map g).sum : Nat) := by
  induction counts with
  | nil => rfl
  | cons count rest ih =>
    rw [List.map_cons, List.map_cons, List.sum_cons, ih, h, List.map_cons, List.sum_cons,
      Int.natCast_add]

theorem diffWorktree_numstatOut (hcounts : counts ≠ []) :
    ∃ truncated, diffWorktree (numstatOut counts) patchOut =
      ⟨(keptFiles counts patchOut).map keptFile, counts.length,
        ((counts.map (GitCount.count Prod.fst)).sum : Nat),
        ((counts.map (GitCount.count Prod.snd)).sum : Nat), truncated⟩ := by
  have hne : counts.map GitCount.entry ≠ [] := by simpa using hcounts
  refine ⟨(keepFiles (patchByPath (parseUnifiedDiff (Js.trim patchOut))) maxDiffFiles maxDiffLines
    (counts.map GitCount.entry)).truncated, ?_⟩
  unfold diffWorktree
  rw [parseNumstatZ_numstatOut]
  dsimp only
  rw [if_neg hne, keepFiles_kept, List.length_map,
    sum_entries (g := GitCount.count Prod.fst) (fun _ => rfl),
    sum_entries (g := GitCount.count Prod.snd) (fun _ => rfl)]
  rfl

theorem entry_of_mem_keptFiles {file : Nat × NumstatEntry × Option PatchFile}
    (h : file ∈ keptFiles counts patchOut) : ∃ count ∈ counts, file.2.1 = count.entry := by
  have hmem := List.mem_map_of_mem (f := Prod.snd) h
  rw [keptFiles, map_allotted, List.mem_map] at hmem
  obtain ⟨entry, hentry, heq⟩ := hmem
  obtain ⟨count, hcount, rfl⟩ := List.mem_map.mp (List.mem_of_mem_take hentry)
  exact ⟨count, hcount, by rw [← heq]⟩

theorem length_keptFiles_le : (keptFiles counts patchOut).length ≤ counts.length ∧
    (keptFiles counts patchOut).length ≤ maxDiffFiles := by
  rw [keptFiles, length_allotted, List.length_map, List.length_take, List.length_map]
  exact ⟨min_le_right _ _, min_le_left _ _⟩

theorem keptFiles_ne_nil (hcounts : counts ≠ []) : keptFiles counts patchOut ≠ [] := by
  have hpos := List.length_pos_iff.mpr hcounts
  have hlength : (keptFiles counts patchOut).length = min maxDiffFiles counts.length := by
    rw [keptFiles, length_allotted, List.length_map, List.length_take, List.length_map]
  have hmax : maxDiffFiles = 40 := rfl
  rw [← List.length_pos_iff]
  omega

theorem count_lt_of_sum {f : GitCount → Nat} {count : GitCount} (hcount : count ∈ counts)
    (hsum : (counts.map f).sum < 2 ^ 53) : (0 : Int) ≤ f count ∧ (f count : Int) < 2 ^ 53 := by
  have hle := List.le_sum_of_mem (List.mem_map_of_mem (f := f) hcount)
  exact ⟨Int.natCast_nonneg _, by exact_mod_cast hle.trans_lt hsum⟩

theorem issues_kept (hcounts : counts ≠ []) {additions deletions : Int} {truncated : Bool} :
    (⟨(keptFiles counts patchOut).map keptFile, counts.length, additions, deletions, truncated⟩ :
      SessionDiff).issues = [] ↔
      ((keptFiles counts patchOut).map keptBytes).sum ≤ maxDiffTotalBytes := by
  have hfiles : ((keptFiles counts patchOut).map keptFile).isEmpty = false := by
    simpa using keptFiles_ne_nil hcounts
  have hcount : (counts.length == 0) = false := by
    rw [beq_eq_false_iff_ne]
    exact fun h => hcounts (List.length_eq_zero_iff.mp h)
  have hlines : (((keptFiles counts patchOut).map keptFile).map DiffFile.lineCount).sum ≤
      maxDiffLines := by
    have hsum := sum_allotted_le maxDiffLines (((counts.map GitCount.entry).take maxDiffFiles).map
      fun entry => (entry, (patchByPath (parseUnifiedDiff (Js.trim patchOut))).get entry.path))
    rw [List.map_map]
    simpa only [Function.comp_def, lineCount_eq, keptFiles] using hsum
  have hbytes : ((keptFiles counts patchOut).map keptFile).map DiffFile.bytes =
      (keptFiles counts patchOut).map keptBytes := by
    rw [List.map_map]
    exact List.map_congr_left fun file _ => bytes_keptFile file
  have hlength := (@length_keptFiles_le counts patchOut).1
  unfold SessionDiff.issues SessionDiff.totalsZero SessionDiff.totalLines SessionDiff.totalBytes
  dsimp only
  rw [hfiles, hcount, hbytes, List.length_map, if_neg (Nat.not_lt.mpr hlength),
    if_neg (Nat.not_lt.mpr hlines)]
  simp

/-- The ledger accepts the diff of the producer exactly when it fits where no cap makes it. -/
theorem diffWorktree_accepted_iff (counts : List GitCount) (patchOut : List Char) :
    (∃ read, sessionDiffPayload (some (diffWorktree (numstatOut counts) patchOut).toJson) =
      .ok read) ↔ FitsLedger counts patchOut := by
  have hpayload (diff : SessionDiff) : (∃ read, sessionDiffPayload (some diff.toJson) = .ok read) ↔
      FitDiff diff ∧ diff.issues = [] := by
    simp [sessionDiffPayload_eq_ok_iff]
  rw [hpayload]
  by_cases hcounts : counts = []
  · subst hcounts
    have hempty : diffWorktree (numstatOut []) patchOut = ⟨[], 0, 0, 0, false⟩ := by
      unfold diffWorktree
      rw [parseNumstatZ_numstatOut]
      rfl
    have hkept : keptFiles [] patchOut = [] := rfl
    rw [hempty]
    refine iff_of_true ⟨⟨by simp, by simp, by simp, by simp, by simp⟩, by decide⟩
      ⟨by simp, by simp, by simp, ?_, ?_⟩
    · simp [hkept]
    · simp [hkept]
  · obtain ⟨truncated, hdiff⟩ := @diffWorktree_numstatOut counts patchOut hcounts
    rw [hdiff, issues_kept hcounts]
    have hpath {file : Nat × NumstatEntry × Option PatchFile}
        (hmem : file ∈ keptFiles counts patchOut) : file.2.1.path ≠ [] := by
      obtain ⟨count, -, hentry⟩ := entry_of_mem_keptFiles hmem
      rw [hentry]
      exact count.path.nonempty
    have hfile (hadditions : (counts.map (GitCount.count Prod.fst)).sum < 2 ^ 53)
        (hdeletions : (counts.map (GitCount.count Prod.snd)).sum < 2 ^ 53)
        {file : Nat × NumstatEntry × Option PatchFile} (hmem : file ∈ keptFiles counts patchOut) :
        FitFile (keptFile file) ↔ FitKept file := by
      obtain ⟨count, hcount, hentry⟩ := entry_of_mem_keptFiles hmem
      refine fitFile_keptFile_iff (le_of_mem_allotted hmem) (hpath hmem) ?_ ?_
      · rw [hentry]
        exact count_lt_of_sum (f := GitCount.count Prod.fst) hcount hadditions
      · rw [hentry]
        exact count_lt_of_sum (f := GitCount.count Prod.snd) hcount hdeletions
    constructor
    · rintro ⟨hfit, hbytes⟩
      have hadditions : (counts.map (GitCount.count Prod.fst)).sum < 2 ^ 53 := by
        have hlt := hfit.additions.2
        dsimp only at hlt
        exact_mod_cast hlt
      have hdeletions : (counts.map (GitCount.count Prod.snd)).sum < 2 ^ 53 := by
        have hlt := hfit.deletions.2
        dsimp only at hlt
        exact_mod_cast hlt
      refine ⟨hfit.fileCount, hadditions, hdeletions, fun file hmem => ?_, hbytes⟩
      exact (hfile hadditions hdeletions hmem).mp (hfit.files _ (List.mem_map_of_mem hmem))
    · intro hfits
      refine ⟨⟨fun file hmem => ?_, ?_, hfits.fileCount, ⟨Int.natCast_nonneg _, ?_⟩,
        ⟨Int.natCast_nonneg _, ?_⟩⟩, hfits.bytes⟩
      · obtain ⟨held, hheld, rfl⟩ := List.mem_map.mp hmem
        exact (hfile hfits.additions hfits.deletions hheld).mpr (hfits.files held hheld)
      · rw [List.length_map]
        exact length_keptFiles_le.2
      · dsimp only
        exact_mod_cast hfits.additions
      · dsimp only
        exact_mod_cast hfits.deletions

/-- `a/a/…/a`, of 1001 characters. -/
def deepPath : GitPath where
  text := 'a' :: (List.replicate 500 ['/', 'a']).flatten
  nonempty := List.cons_ne_nil _ _
  noNul := by decide +kernel
  relative := by decide

def deepDiff : GitDiff where
  files := [{
    path := deepPath
    change := .added ⟨"100644".toList, by decide, by decide⟩
    index := some (⟨"0000000..7898192".toList, by decide, by decide⟩, none)
    content := .text [{
      ranges := ⟨" -0,0 +1 @@".toList, by decide⟩
      body := [⟨.added, ⟨['a'], by decide⟩⟩]
      nonempty := List.cons_ne_nil _ _ }] (List.cons_ne_nil _ _) }]
  nodup := List.nodup_singleton _

/-- The producer does not trim a path. -/
theorem deepDiff_refused : ¬ ∀ counts patchOut, ∃ read,
    sessionDiffPayload (some (diffWorktree (numstatOut counts) patchOut).toJson) = .ok read := by
  intro h
  obtain ⟨read, hread⟩ := h (deepDiff.files.map FileDiff.count) deepDiff.patchOut
  obtain ⟨truncated, hdiff⟩ := @diffWorktree_numstatOut (deepDiff.files.map FileDiff.count)
    deepDiff.patchOut (List.cons_ne_nil _ _)
  rw [hdiff] at hread
  have hfit := (sessionDiffPayload_eq_ok_iff.mp hread).1
  have hfile := hfit.files _ (List.mem_map_of_mem List.mem_cons_self)
  have hlong : maxDiffPathLen < Js.length deepPath.text := by decide +kernel
  exact absurd hfile.path.2 (Nat.not_le.mpr hlong)

end Producer

end Execution
