import AtriumVerified.Execution.Proofs.PatchProofs
import Mathlib.Data.List.Forall2

/-!
# The diff says what the patch says

Where every file of the patch is read as it is, each file that is kept has the first lines of its own
hunks. Nothing tells of a header that is cut. Otherwise the two outputs are joined to something else.
-/

namespace Execution

open Js

/-! ## The join of the two outputs -/

section Join

variable {files : List FileDiff}

theorem get_patchByPath {files : List PatchFile} (hnodup : (files.map PatchFile.path).Nodup)
    {file : PatchFile} (hfile : file ∈ files) : (patchByPath files).get file.path = some file := by
  induction files using List.reverseRecOn with
  | nil => cases hfile
  | append_singleton files last ih =>
    rw [List.map_append, List.map_singleton] at hnodup
    obtain ⟨hfront, -, hlast⟩ := List.nodup_append.mp hnodup
    have hset : patchByPath (files ++ [last]) = (patchByPath files).set last.path last := by
      rw [patchByPath, List.foldl_append]
      rfl
    rw [hset, Js.Map.get_set]
    rcases List.mem_append.mp hfile with hmem | hmem
    · have hne : file.path ≠ last.path :=
        hlast _ (List.mem_map_of_mem hmem) _ (List.mem_singleton_self _)
      rw [if_neg hne, ih hfront hmem]
    · rw [List.mem_singleton.mp hmem, if_pos rfl]

def FileDiff.joined (file : FileDiff) : NumstatEntry × Option PatchFile :=
  (file.count.entry, some file.real)

theorem hunksOf_joined (file : FileDiff) :
    hunksOf file.joined.1 file.joined.2 = file.hunks := by
  have hbinary : isBinary file.joined.1 file.joined.2 = file.isBinary := by
    unfold isBinary FileDiff.joined GitCount.entry FileDiff.count
    cases hkind : file.isBinary <;> simp [FileDiff.real, hkind]
  rw [hunksOf, hbinary]
  split
  · rename_i hkind
    unfold FileDiff.isBinary at hkind
    unfold FileDiff.hunks
    cases hcontent : file.content with
    | same =>
      rw [hcontent] at hkind
    | text hunks hne =>
      rw [hcontent] at hkind
      cases hkind
    | binary => rfl
  · rfl

theorem joined_patchByPath (hnodup : (files.map fun file => file.path.text).Nodup) :
    (files.map fun file => file.count.entry).map (fun entry =>
      (entry, (patchByPath (files.map FileDiff.real)).get entry.path)) =
        files.map FileDiff.joined := by
  rw [List.map_map]
  refine List.map_congr_left fun file hfile => ?_
  have hpaths : (files.map FileDiff.real).map PatchFile.path = files.map fun file => file.path.text := by
    rw [List.map_map]
    rfl
  have hget := @get_patchByPath (files.map FileDiff.real) (by rw [hpaths]; exact hnodup) file.real
    (List.mem_map_of_mem hfile)
  exact congrArg (Prod.mk _) hget

end Join

/-! ## What is kept of a file -/

structure KeepsFile (kept : DiffFile) (file : FileDiff) : Prop where
  path : kept.path = file.path.text
  oldPath : kept.oldPath = file.oldPath
  status : kept.status = file.status
  binary : kept.binary = file.isBinary
  lines : linesOf kept.hunks <+: (linesOf file.hunks).map (trimTo maxDiffLineLen)

section Kept

variable {file : FileDiff}

theorem keepsFile_joined (lineBudget : Nat) : KeepsFile (keptFile (lineBudget, file.joined)) file where
  path := rfl
  oldPath := by
    have hreal : file.real.oldPath = file.oldPath := rfl
    have hentry : file.count.entry.oldPath = file.oldPath := by
      unfold GitCount.entry FileDiff.count FileDiff.oldPath
      cases file.change <;> rfl
    have hnonempty : file.oldPath.filter (· ≠ []) = file.oldPath := by
      unfold FileDiff.oldPath
      cases file.change with
      | renamed old similarity modes => simp [old.nonempty]
      | added mode => rfl
      | deleted mode => rfl
      | modified modes => rfl
    rw [← hnonempty]
    refine congrArg (Option.filter _) ?_
    show (file.real.oldPath).or file.count.entry.oldPath = file.oldPath
    rw [hreal, hentry, Option.or_self]
  status := rfl
  binary := by
    unfold keptFile diffFile isBinary FileDiff.joined GitCount.entry FileDiff.count
    cases hkind : file.isBinary <;> simp [FileDiff.real, hkind]
  lines := by
    have hkept : (keptFile (lineBudget, file.joined)).hunks =
        (keepHunks lineBudget (hunksOf file.joined.1 file.joined.2)).kept := rfl
    rw [hkept, hunksOf_joined, linesOf_keepHunks, List.map_take]
    exact List.take_prefix _ _

def cutHeader (hunk : DiffHunk) : DiffHunk :=
  { hunk with header := trimTo maxDiffHeaderLen hunk.header }

theorem keepHunks_complete {lineBudget : Nat} {hunks : List DiffHunk}
    (hlines : ∀ hunk ∈ hunks, hunk.lines ≠ [])
    (h : (keepHunks lineBudget hunks).truncated = false) :
    (keepHunks lineBudget hunks).kept = hunks.map cutHeader := by
  induction hunks generalizing lineBudget with
  | nil => simp [keepHunks]
  | cons hunk rest ih =>
    obtain ⟨-, hrest⟩ := List.forall_mem_cons.mp hlines
    cases lineBudget with
    | zero => cases h
    | succ lineBudget =>
      rw [keepHunks] at h ⊢
      dsimp only at h ⊢
      rw [Bool.or_eq_false_iff] at h
      obtain ⟨hfit, hshort⟩ := (keepLines_truncated _ _).mp h.1
      have hkept : hunk.lines.map (trimTo maxDiffLineLen) = hunk.lines := by
        refine (List.map_congr_left fun line hline => ?_).trans (List.map_id _)
        rw [trimTo, if_neg (Nat.not_lt.mpr (hshort line hline)), id]
      rw [ih hrest h.2, List.map_cons, keepLines_kept, List.take_of_length_le hfit, hkept]
      rfl

theorem hunks_ne_nil {hunk : DiffHunk} (h : hunk ∈ file.hunks) : hunk.lines ≠ [] := by
  unfold FileDiff.hunks at h
  cases hcontent : file.content with
  | same =>
    rw [hcontent] at h
    cases h
  | binary =>
    rw [hcontent] at h
    cases h
  | text hunks hne =>
    rw [hcontent] at h
    obtain ⟨held, -, rfl⟩ := List.mem_map.mp h
    exact fun hnil => held.nonempty (List.map_eq_nil_iff.mp hnil)

end Kept

/-! ## The whole diff -/

/-- The diff is within the caps on files and on lines. -/
def GitDiff.Fits (diff : GitDiff) : Prop :=
  diff.files.length ≤ maxDiffFiles ∧
    (linesOf (diff.files.flatMap FileDiff.hunks)).length ≤ maxDiffLines ∧
    ∀ line ∈ linesOf (diff.files.flatMap FileDiff.hunks), Js.length line ≤ maxDiffLineLen

structure TellsPatch (diff : GitDiff) : Prop where
  parsed : parseUnifiedDiff (trim diff.patchOut) = diff.files.map FileDiff.real
  kept : List.Forall₂ KeepsFile (diffWorktree diff.numstatOut diff.patchOut).files
    (diff.files.take maxDiffFiles)
  complete : (diffWorktree diff.numstatOut diff.patchOut).truncated = false →
    (diffWorktree diff.numstatOut diff.patchOut).files.map DiffFile.hunks =
      diff.files.map FileDiff.hunks

section Diffs

variable {diff : GitDiff}

/-- The files that are kept, with the lines that may be kept of each. -/
theorem diffWorktree_of_parsed
    (hparsed : parseUnifiedDiff (trim diff.patchOut) = diff.files.map FileDiff.real) :
    (diffWorktree diff.numstatOut diff.patchOut).files =
        (allotted maxDiffLines ((diff.files.take maxDiffFiles).map FileDiff.joined)).map keptFile ∧
      ((diffWorktree diff.numstatOut diff.patchOut).truncated = false ↔
        diff.files.length ≤ maxDiffFiles ∧
          ∀ file ∈ allotted maxDiffLines (diff.files.map FileDiff.joined),
            (keepHunks file.1 (hunksOf file.2.1 file.2.2)).truncated = false) := by
  have hentries : (diff.files.map FileDiff.count).map GitCount.entry =
      diff.files.map fun file => file.count.entry := by
    rw [List.map_map]
    rfl
  have hnumstat : parseNumstatZ (trim diff.numstatOut) =
      diff.files.map fun file => file.count.entry := by
    rw [GitDiff.numstatOut, parseNumstatZ_numstatOut, hentries]
  have hjoined := joined_patchByPath diff.nodup
  have hkept := @keepFiles_kept (patchByPath (diff.files.map FileDiff.real)) maxDiffFiles maxDiffLines
    (diff.files.map fun file => file.count.entry)
  have htruncated := @keepFiles_truncated (patchByPath (diff.files.map FileDiff.real)) maxDiffFiles
    maxDiffLines (diff.files.map fun file => file.count.entry)
  rw [List.map_take, hjoined, ← List.map_take] at hkept
  rw [hjoined, List.length_map] at htruncated
  rw [← hkept, ← htruncated, diffWorktree, hnumstat, hparsed]
  dsimp only
  split
  · rename_i hnil
    rw [hnil]
    exact ⟨rfl, iff_of_true rfl rfl⟩
  · exact ⟨rfl, Iff.rfl⟩

theorem keepHunks_allotted_iff (lineBudget : Nat) (files : List FileDiff) :
    (∀ file ∈ allotted lineBudget (files.map FileDiff.joined),
      (keepHunks file.1 (hunksOf file.2.1 file.2.2)).truncated = false) ↔
      (linesOf (files.flatMap FileDiff.hunks)).length ≤ lineBudget ∧
        ∀ line ∈ linesOf (files.flatMap FileDiff.hunks), Js.length line ≤ maxDiffLineLen := by
  induction files generalizing lineBudget with
  | nil => simp [allotted, linesOf]
  | cons file rest ih =>
    have hjoined : (file :: rest).map FileDiff.joined =
        (file.joined.1, file.joined.2) :: rest.map FileDiff.joined := rfl
    have hlines : linesOf ((file :: rest).flatMap FileDiff.hunks) =
        linesOf file.hunks ++ linesOf (rest.flatMap FileDiff.hunks) := by
      rw [List.flatMap_cons, linesOf, List.flatMap_append]
      rfl
    rw [hjoined, allotted, List.forall_mem_cons]
    dsimp only
    rw [hunksOf_joined, ih, keepHunks_truncated lineBudget fun hunk => hunks_ne_nil, hlines,
      List.length_append, List.forall_mem_append]
    constructor
    · rintro ⟨⟨hfirst, hshort⟩, hrest, hothers⟩
      exact ⟨by omega, hshort, hothers⟩
    · rintro ⟨hboth, hshort, hothers⟩
      exact ⟨⟨by omega, hshort⟩, by omega, hothers⟩

theorem hunks_of_fits {lineBudget : Nat} {files : List FileDiff}
    (h : ∀ file ∈ allotted lineBudget (files.map FileDiff.joined),
      (keepHunks file.1 (hunksOf file.2.1 file.2.2)).truncated = false) :
    ((allotted lineBudget (files.map FileDiff.joined)).map keptFile).map DiffFile.hunks =
      files.map fun file => file.hunks.map cutHeader := by
  induction files generalizing lineBudget with
  | nil => rfl
  | cons file rest ih =>
    have hjoined : (file :: rest).map FileDiff.joined =
        (file.joined.1, file.joined.2) :: rest.map FileDiff.joined := rfl
    rw [hjoined, allotted, List.forall_mem_cons] at h
    obtain ⟨hfile, hrest⟩ := h
    rw [hunksOf_joined] at hfile
    rw [hjoined, allotted, List.map_cons, List.map_cons, List.map_cons, ih hrest]
    refine congrArg (· :: _) ?_
    have hkept : (keptFile (lineBudget, file.joined.1, file.joined.2)).hunks =
        (keepHunks lineBudget (hunksOf file.joined.1 file.joined.2)).kept := rfl
    rw [hkept, hunksOf_joined, keepHunks_complete (fun hunk => hunks_ne_nil) hfile]

theorem map_cutHeader_iff (files : List FileDiff) :
    (files.map fun file => file.hunks.map cutHeader) = files.map FileDiff.hunks ↔
      ∀ file ∈ files, ∀ hunk ∈ file.hunks,
        trimTo maxDiffHeaderLen hunk.header = hunk.header := by
  have hhunk (hunk : DiffHunk) : cutHeader hunk = hunk ↔
      trimTo maxDiffHeaderLen hunk.header = hunk.header := by
    obtain ⟨header, lines⟩ := hunk
    simp [cutHeader]
  rw [List.map_inj_left]
  refine forall₂_congr fun file _ => ?_
  have hid : file.hunks.map cutHeader = file.hunks ↔
      file.hunks.map cutHeader = file.hunks.map id := by rw [List.map_id]
  rw [hid, List.map_inj_left]
  exact forall₂_congr fun hunk _ => hhunk hunk

/-- A line that begins with `-- ` is taken out of an executable file. -/
def dashedDiff : GitDiff where
  files := [{
    path := ⟨"q.sql".toList, by decide, by decide, by decide⟩
    change := .modified none
    index := some (⟨"f2ba8f8..e69de29".toList, by decide, by decide⟩,
      some ⟨"100755".toList, by decide, by decide⟩)
    content := .text [{
      ranges := ⟨" -1 +0,0 @@".toList, by decide⟩
      body := [⟨.removed, ⟨"-- x".toList, by decide⟩⟩]
      nonempty := List.cons_ne_nil _ _ }] (List.cons_ne_nil _ _) }]
  nodup := List.nodup_singleton _

end Diffs

end Execution
