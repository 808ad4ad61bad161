import AtriumVerified.Execution.Proofs.DiffProofs
import AtriumVerified.Lib.TrimmedLines

/-!
# Reading the lines of a file

What `parseUnifiedDiff` makes of the lines behind `diff --git`: the lines that say what changed, the
hunks, whose lines count as long as none looks like the name of an image, and the two names.
-/

namespace Execution

open Js

/-! ## Beginnings of lines -/

section Beginnings

variable {text other : String} {line rest : List Char}

theorem startsWith_append (text : String) (rest : List Char) :
    startsWith text (text.toList ++ rest) = true := by
  rw [startsWith, List.isPrefixOf_iff_prefix]
  exact List.prefix_append _ _

def differ (text other : String) : Bool :=
  !text.toList.isPrefixOf other.toList && !other.toList.isPrefixOf text.toList

theorem startsWith_of_differ (h : differ text other = true) (rest : List Char) :
    startsWith text (other.toList ++ rest) = false := by
  rw [differ, Bool.and_eq_true, Bool.not_eq_true', Bool.not_eq_true'] at h
  rw [startsWith, Bool.eq_false_iff, ne_eq, List.isPrefixOf_iff_prefix]
  intro hbegins
  rcases List.prefix_or_prefix_of_prefix hbegins (List.prefix_append other.toList rest) with hle | hle
  · rw [List.isPrefixOf_iff_prefix.mpr hle] at h
    exact Bool.noConfusion h.1
  · rw [List.isPrefixOf_iff_prefix.mpr hle] at h
    exact Bool.noConfusion h.2

theorem startsWith_of_prefix (h : startsWith text line = true) (hline : line <+: rest) :
    startsWith text rest = true := by
  rw [startsWith, List.isPrefixOf_iff_prefix] at h ⊢
  exact h.trans hline

theorem sliceBehind_append (text : String) (rest : List Char) :
    sliceBehind text (text.toList ++ rest) = rest := by
  rw [sliceBehind, List.drop_left]

def isMarked (line : List Char) : Bool :=
  startsWith " " line || startsWith "+" line || startsWith "-" line || startsWith "\\" line

def isImage (line : List Char) : Bool := startsWith "--- " line || startsWith "+++ " line

example : isImage "--- a/x".toList = true := by decide +kernel

theorem isMarked_cons {c : Char} {rest : List Char} :
    isMarked (c :: rest) = (c == ' ' || c == '+' || c == '-' || c == '\\') := by
  have hone (d : Char) : startsWith (String.singleton d) (c :: rest) = (d == c) := by
    cases h : d == c <;> simp [startsWith, List.isPrefixOf, h]
  have hspace : startsWith " " (c :: rest) = (' ' == c) := hone ' '
  have hplus : startsWith "+" (c :: rest) = ('+' == c) := hone '+'
  have hminus : startsWith "-" (c :: rest) = ('-' == c) := hone '-'
  have hslash : startsWith "\\" (c :: rest) = ('\\' == c) := hone '\\'
  rw [isMarked, hspace, hplus, hminus, hslash]
  simp only [BEq.comm]

theorem startsWith_of_head {c d : Char} (htext : text.toList.head? = some d) (hne : d ≠ c) :
    startsWith text (c :: rest) = false := by
  rw [startsWith]
  cases hlist : text.toList with
  | nil =>
    rw [hlist] at htext
    cases htext
  | cons e others =>
    rw [hlist, List.head?_cons, Option.some.injEq] at htext
    subst htext
    simp [List.isPrefixOf, hne]

end Beginnings

/-! ## One line -/

section Lines

variable {cur : PatchBlock} {line : List Char}

def beginnings : List String :=
  ["new file mode", "deleted file mode", "rename from ", "rename to ", "Binary files ", "--- ", "+++ ",
    "@@", " ", "+", "-", "\\"]

theorem read_other {other : String} (h : beginnings.all (differ · other) = true) (rest : List Char) :
    cur.read (other.toList ++ rest) = cur := by
  have hall : ∀ text ∈ beginnings, startsWith text (other.toList ++ rest) = false := fun text hmem =>
    startsWith_of_differ (List.all_eq_true.mp h text hmem) rest
  simp only [beginnings, List.forall_mem_cons, List.not_mem_nil, IsEmpty.forall_iff, implies_true,
    and_true] at hall
  unfold PatchBlock.read
  simp only [hall, Bool.false_eq_true, if_false, Bool.or_self]

theorem read_renameFrom (old : List Char) : cur.read ("rename from ".toList ++ old) =
    { cur with oldPath := some old, status := .renamed } := by
  unfold PatchBlock.read
  simp only [startsWith_append, sliceBehind_append,
    @startsWith_of_differ "new file mode" "rename from " (by decide),
    @startsWith_of_differ "deleted file mode" "rename from " (by decide), Bool.false_eq_true, if_false,
    if_true]

theorem read_renameTo (path : List Char) : cur.read ("rename to ".toList ++ path) =
    { cur with path, status := .renamed } := by
  unfold PatchBlock.read
  simp only [startsWith_append, sliceBehind_append,
    @startsWith_of_differ "new file mode" "rename to " (by decide),
    @startsWith_of_differ "deleted file mode" "rename to " (by decide),
    @startsWith_of_differ "rename from " "rename to " (by decide), Bool.false_eq_true, if_false,
    if_true]

theorem read_newFile (mode : List Char) : cur.read ("new file mode ".toList ++ mode) =
    { cur with status := .added } := by
  have hline : "new file mode ".toList ++ mode = "new file mode".toList ++ ' ' :: mode := by simp
  unfold PatchBlock.read
  rw [hline, startsWith_append, if_pos rfl]

theorem read_deletedFile (mode : List Char) : cur.read ("deleted file mode ".toList ++ mode) =
    { cur with status := .deleted } := by
  have hline : "deleted file mode ".toList ++ mode = "deleted file mode".toList ++ ' ' :: mode := by
    simp
  unfold PatchBlock.read
  rw [hline, startsWith_append, @startsWith_of_differ "new file mode" "deleted file mode" (by decide),
    if_neg Bool.false_ne_true, if_pos rfl]

theorem read_minus (name : List Char) : cur.read ("--- ".toList ++ name) =
    { cur with minus := some (stripImagePrefix name) } := by
  unfold PatchBlock.read
  simp only [startsWith_append, sliceBehind_append,
    @startsWith_of_differ "new file mode" "--- " (by decide),
    @startsWith_of_differ "deleted file mode" "--- " (by decide),
    @startsWith_of_differ "rename from " "--- " (by decide),
    @startsWith_of_differ "rename to " "--- " (by decide),
    @startsWith_of_differ "Binary files " "--- " (by decide), Bool.false_eq_true, if_false, if_true]

theorem read_plus (name : List Char) : cur.read ("+++ ".toList ++ name) =
    { cur with plus := some (stripImagePrefix name) } := by
  unfold PatchBlock.read
  simp only [startsWith_append, sliceBehind_append,
    @startsWith_of_differ "new file mode" "+++ " (by decide),
    @startsWith_of_differ "deleted file mode" "+++ " (by decide),
    @startsWith_of_differ "rename from " "+++ " (by decide),
    @startsWith_of_differ "rename to " "+++ " (by decide),
    @startsWith_of_differ "Binary files " "+++ " (by decide),
    @startsWith_of_differ "--- " "+++ " (by decide), Bool.false_eq_true, if_false, if_true]

theorem read_header (ranges : List Char) : cur.read ("@@".toList ++ ranges) =
    { cur with hunks := cur.hunks ++ [⟨"@@".toList ++ ranges, []⟩] } := by
  unfold PatchBlock.read
  simp only [startsWith_append, @startsWith_of_differ "new file mode" "@@" (by decide),
    @startsWith_of_differ "deleted file mode" "@@" (by decide),
    @startsWith_of_differ "rename from " "@@" (by decide),
    @startsWith_of_differ "rename to " "@@" (by decide),
    @startsWith_of_differ "Binary files " "@@" (by decide),
    @startsWith_of_differ "--- " "@@" (by decide), @startsWith_of_differ "+++ " "@@" (by decide),
    Bool.false_eq_true, if_false, if_true]

theorem read_binary (names : List Char) : cur.read ("Binary files ".toList ++ names) =
    match binaryName ("Binary files ".toList ++ names) with
    | some (c :: name) => { cur with binary := true, path := stripImagePrefix (c :: name) }
    | _ => { cur with binary := true } := by
  unfold PatchBlock.read
  rcases binaryName ("Binary files ".toList ++ names) with _ | _ | ⟨c, name⟩
  all_goals
    simp only [startsWith_append, @startsWith_of_differ "new file mode" "Binary files " (by decide),
      @startsWith_of_differ "deleted file mode" "Binary files " (by decide),
      @startsWith_of_differ "rename from " "Binary files " (by decide),
      @startsWith_of_differ "rename to " "Binary files " (by decide), Bool.false_eq_true, if_false,
      if_true]

theorem startsWith_of_marked {text : String} (htext : text.toList.head?.all fun d =>
      d != ' ' && d != '+' && d != '-' && d != '\\') (hne : text.toList ≠ [])
    (hmarked : isMarked line = true) : startsWith text line = false := by
  cases line with
  | nil => cases hmarked
  | cons c rest =>
    rw [isMarked_cons] at hmarked
    simp only [Bool.or_eq_true, beq_iff_eq] at hmarked
    obtain ⟨d, others, hlist⟩ := List.exists_cons_of_ne_nil hne
    rw [hlist] at htext
    simp only [List.head?_cons, Option.all_some, Bool.and_eq_true, bne_iff_ne] at htext
    refine startsWith_of_head (d := d) (by rw [hlist]; rfl) ?_
    rintro rfl
    obtain ⟨⟨⟨hspace, hplus⟩, hminus⟩, hslash⟩ := htext
    rcases hmarked with ((h | h) | h) | h
    · exact hspace h
    · exact hplus h
    · exact hminus h
    · exact hslash h

theorem read_body (hmarked : isMarked line = true) (himage : isImage line = false) :
    cur.read line = { cur with hunks := pushLine line cur.hunks } := by
  rw [isImage, Bool.or_eq_false_iff] at himage
  have hbody : (startsWith " " line || startsWith "+" line || startsWith "-" line ||
      startsWith "\\" line) = true := hmarked
  unfold PatchBlock.read
  simp only [@startsWith_of_marked line "new file mode" (by decide) (by decide) hmarked,
    @startsWith_of_marked line "deleted file mode" (by decide) (by decide) hmarked,
    @startsWith_of_marked line "rename from " (by decide) (by decide) hmarked,
    @startsWith_of_marked line "rename to " (by decide) (by decide) hmarked,
    @startsWith_of_marked line "Binary files " (by decide) (by decide) hmarked,
    @startsWith_of_marked line "@@" (by decide) (by decide) hmarked, himage.1, himage.2, hbody,
    Bool.false_eq_true, if_false, if_true]

end Lines

/-! ## The hunks -/

def weight (hunks : List DiffHunk) : Nat := ((linesOf hunks).map List.length).sum

def lineWeight (line : List Char) : Nat :=
  if isMarked line && !isImage line then line.length else 0

section Hunks

variable {cur : PatchBlock}

theorem weight_append (front back : List DiffHunk) :
    weight (front ++ back) = weight front + weight back := by
  rw [weight, linesOf, List.flatMap_append, List.map_append, List.sum_append_nat]
  rfl

theorem weight_singleton (hunk : DiffHunk) :
    weight [hunk] = (hunk.lines.map List.length).sum := by
  rw [weight, linesOf, List.flatMap_singleton]

theorem pushLine_concat (line : List Char) (hunks : List DiffHunk) (hunk : DiffHunk) :
    pushLine line (hunks ++ [hunk]) = hunks ++ [{ hunk with lines := hunk.lines ++ [line] }] := by
  induction hunks with
  | nil => rfl
  | cons first rest ih =>
    obtain ⟨second, others, heq⟩ := List.exists_cons_of_ne_nil (l := rest ++ [hunk]) (by simp)
    rw [List.cons_append, heq, pushLine, ← heq, ih, List.cons_append]
    simp

theorem weight_pushLine_le (line : List Char) (hunks : List DiffHunk) :
    weight (pushLine line hunks) ≤ weight hunks + line.length := by
  rcases hunks.eq_nil_or_concat with rfl | ⟨front, last, rfl⟩
  · exact Nat.zero_le _
  · rw [List.concat_eq_append, pushLine_concat, weight_append, weight_append, weight_singleton,
      weight_singleton, List.map_append, List.sum_append_nat, List.map_singleton,
      List.sum_singleton]
    omega

theorem weight_read_le (cur : PatchBlock) (line : List Char) :
    weight (cur.read line).hunks ≤ weight cur.hunks + lineWeight line := by
  have hheader : weight (cur.hunks ++ [⟨line, []⟩]) = weight cur.hunks := by
    rw [weight_append, weight_singleton]
    rfl
  unfold PatchBlock.read
  repeat' split
  all_goals first | exact Nat.le_add_right _ _ | skip
  · exact hheader.le.trans (Nat.le_add_right _ _)
  · rename_i hminus hplus _ hmarked
    have hline : lineWeight line = line.length := by
      have himage : isImage line = false := by
        rw [isImage, Bool.eq_false_iff.mpr hminus, Bool.eq_false_iff.mpr hplus]
        rfl
      have hmark : isMarked line = true := hmarked
      rw [lineWeight, himage, hmark]
      rfl
    rw [hline]
    exact weight_pushLine_le line cur.hunks

theorem weight_foldl_le (lines : List (List Char)) (cur : PatchBlock) :
    weight (lines.foldl PatchBlock.read cur).hunks ≤
      weight cur.hunks + (lines.map lineWeight).sum := by
  induction lines generalizing cur with
  | nil => exact le_rfl
  | cons line rest ih =>
    have hline := weight_read_le cur line
    have hrest := ih (cur.read line)
    rw [List.foldl_cons, List.map_cons, List.sum_cons]
    omega

theorem isMarked_line (body : BodyLine) : isMarked body.line = true := by
  obtain ⟨mark, text⟩ := body
  rw [BodyLine.line, isMarked_cons]
  cases mark <;> rfl

theorem foldl_body {body : List BodyLine} (himage : ∀ line ∈ body, isImage line.line = false)
    {hunks : List DiffHunk} {hunk : DiffHunk} (hcur : cur.hunks = hunks ++ [hunk]) :
    (body.map BodyLine.line).foldl PatchBlock.read cur =
      { cur with hunks := hunks ++ [{ hunk with lines := hunk.lines ++ body.map BodyLine.line }] } := by
  induction body generalizing cur hunk with
  | nil =>
    rw [List.map_nil, List.foldl_nil, List.append_nil, ← hcur]
  | cons line rest ih =>
    obtain ⟨hline, hrest⟩ := List.forall_mem_cons.mp himage
    have hread := @read_body cur line.line (isMarked_line line) hline
    rw [hcur, pushLine_concat] at hread
    rw [List.map_cons, List.foldl_cons, hread, ih hrest rfl]
    simp

theorem foldl_hunks {hunks : List GitHunk}
    (himage : ∀ hunk ∈ hunks, ∀ line ∈ hunk.body, isImage line.line = false) :
    (hunks.flatMap GitHunk.lines).foldl PatchBlock.read cur =
      { cur with hunks := cur.hunks ++ hunks.map GitHunk.hunk } := by
  induction hunks generalizing cur with
  | nil => simp
  | cons hunk rest ih =>
    obtain ⟨hhunk, hrest⟩ := List.forall_mem_cons.mp himage
    have hheader := @read_header cur hunk.ranges.text
    have hbody := @foldl_body { cur with hunks := cur.hunks ++ [⟨"@@".toList ++ hunk.ranges.text, []⟩] }
      hunk.body hhunk cur.hunks ⟨"@@".toList ++ hunk.ranges.text, []⟩ rfl
    rw [List.flatMap_cons, List.foldl_append, GitHunk.lines, List.foldl_cons, GitHunk.hunk, hheader,
      hbody, ih hrest]
    simp [GitHunk.hunk]

end Hunks

end Execution
