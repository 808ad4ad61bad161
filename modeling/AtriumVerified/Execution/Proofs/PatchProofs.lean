import AtriumVerified.Execution.Proofs.PatchNameProofs

/-!
# What is read of a patch

The parser tells lines by how they begin and counts none. So a file is read as it is when its path is
printed as it is, something in its lines gives the path, and no line of a hunk looks like the name of
an image; and the reader of git's output has trimmed its end.
-/

namespace Execution

open Js

/-! ## What changed besides the content -/

def FileDiff.start (file : FileDiff) : PatchBlock :=
  match file.change with
  | .added _ => { status := .added }
  | .deleted _ => { status := .deleted }
  | .modified _ => {}
  | .renamed old _ _ =>
    { path := quotePath file.path.text, oldPath := some (quotePath old.text), status := .renamed }

section Start

variable {cur : PatchBlock}

theorem foldl_index (file : FileDiff) : file.indexLines.foldl PatchBlock.read cur = cur := by
  unfold FileDiff.indexLines
  cases file.index with
  | none => rfl
  | some index => exact @read_other cur "index " (by decide) (indexText index)

theorem foldl_modes (modes : Option (BareText × BareText)) :
    (modeLines modes).foldl PatchBlock.read cur = cur := by
  cases modes with
  | none => rfl
  | some pair =>
    rw [modeLines, List.foldl_cons, @read_other cur "old mode " (by decide), List.foldl_cons,
      @read_other cur "new mode " (by decide)]
    rfl

theorem foldl_start (file : FileDiff) :
    (file.changeLines ++ file.indexLines).foldl PatchBlock.read {} = file.start := by
  rw [List.foldl_append, foldl_index]
  unfold FileDiff.changeLines FileDiff.start
  cases file.change with
  | added mode => exact read_newFile mode.text
  | deleted mode => exact read_deletedFile mode.text
  | modified modes => exact foldl_modes modes
  | renamed old similarity modes =>
    dsimp only
    rw [List.foldl_append, foldl_modes, List.foldl_cons,
      @read_other {} "similarity index " (by decide), List.foldl_cons, read_renameFrom,
      List.foldl_cons, read_renameTo]
    rfl

/-- The path that a file had is read unless it is in quotes. -/
def FileDiff.oldPlain (file : FileDiff) : Bool :=
  match file.change with
  | .renamed old _ _ => old.text.all isPlainChar
  | _ => true

def FileDiff.isRenamed (file : FileDiff) : Bool :=
  match file.change with
  | .renamed _ _ _ => true
  | _ => false

theorem start_oldPath_iff (file : FileDiff) :
    file.start.oldPath = file.oldPath ↔ file.oldPlain = true := by
  unfold FileDiff.start FileDiff.oldPath FileDiff.oldPlain
  cases file.change with
  | added mode => exact iff_of_true rfl rfl
  | deleted mode => exact iff_of_true rfl rfl
  | modified modes => exact iff_of_true rfl rfl
  | renamed old similarity modes => exact Option.some_inj.trans quotePath_eq_self_iff

theorem start_status (file : FileDiff) : file.start.status = file.status := by
  unfold FileDiff.start FileDiff.status
  cases file.change <;> rfl

theorem start_rest (file : FileDiff) : file.start.binary = false ∧ file.start.hunks = [] ∧
    file.start.minus = none ∧ file.start.plus = none := by
  unfold FileDiff.start
  cases file.change <;> exact ⟨rfl, rfl, rfl, rfl⟩

theorem start_path_iff (file : FileDiff) : file.start.path = file.path.text ↔
    file.isRenamed = true ∧ file.path.text.all isPlainChar = true := by
  unfold FileDiff.start FileDiff.isRenamed
  have hne : [] ≠ file.path.text := fun h => file.path.nonempty h.symm
  cases file.change with
  | added mode => exact iff_of_false hne fun h => Bool.false_ne_true h.1
  | deleted mode => exact iff_of_false hne fun h => Bool.false_ne_true h.1
  | modified modes => exact iff_of_false hne fun h => Bool.false_ne_true h.1
  | renamed old similarity modes => exact quotePath_eq_self_iff.trans (and_iff_right rfl).symm

end Start

/-! ## The content of a text -/

section Weights

def markedLength (line : List Char) : Nat := if isMarked line then line.length else 0

theorem lineWeight_le (line : List Char) : lineWeight line ≤ markedLength line := by
  unfold lineWeight markedLength
  cases isMarked line with
  | true =>
    split
    · exact le_rfl
    · exact Nat.zero_le _
  | false => exact Nat.zero_le _

theorem markedLength_prefix {line held : List Char} (h : line <+: held) :
    markedLength line ≤ markedLength held := by
  cases line with
  | nil => exact Nat.zero_le _
  | cons c rest =>
    obtain ⟨behind, rfl⟩ := h
    unfold markedLength
    rw [List.cons_append, isMarked_cons, isMarked_cons, List.length_cons, List.length_cons,
      List.length_append]
    split
    · omega
    · exact le_rfl

theorem sum_trimLines_le (lines : List (List Char)) :
    ((trimLines lines).map markedLength).sum ≤ (lines.map markedLength).sum := by
  induction lines with
  | nil => exact le_rfl
  | cons line rest ih =>
    have hline := markedLength_prefix (prefix_trimEnd line)
    rw [trimLines, List.map_cons, List.sum_cons]
    split
    · split
      · exact Nat.zero_le _
      · rw [List.map_singleton, List.sum_singleton]
        omega
    · rw [List.map_cons, List.sum_cons]
      omega

theorem sum_lineWeight_le (lines : List (List Char)) :
    (lines.map lineWeight).sum ≤ (lines.map markedLength).sum := by
  induction lines with
  | nil => exact le_rfl
  | cons line rest ih =>
    have hline := lineWeight_le line
    rw [List.map_cons, List.map_cons, List.sum_cons, List.sum_cons]
    omega

theorem isImage_of_sum {lines : List (List Char)}
    (h : (lines.map markedLength).sum ≤ (lines.map lineWeight).sum) :
    ∀ line ∈ lines, isMarked line = true → isImage line = false := by
  induction lines with
  | nil => simp
  | cons line rest ih =>
    have hline := lineWeight_le line
    have hrest := sum_lineWeight_le rest
    rw [List.map_cons, List.map_cons, List.sum_cons, List.sum_cons] at h
    refine List.forall_mem_cons.mpr ⟨fun hmarked => ?_, ih (by omega)⟩
    have heq : lineWeight line = markedLength line := by omega
    have hne : line ≠ [] := by
      rintro rfl
      cases hmarked
    have hpos := List.length_pos_iff.mpr hne
    unfold lineWeight markedLength at heq
    rw [hmarked] at heq
    cases himage : isImage line with
    | true =>
      simp only [himage, Bool.not_true, Bool.and_false, Bool.false_eq_true, if_false, if_true] at heq
      omega
    | false => rfl

theorem sum_trimLines_lt {front : List (List Char)} {line : List Char}
    (hmarked : isMarked line = true) (htrim : trimEnd line ≠ line) :
    ((trimLines (front ++ [line])).map markedLength).sum <
      ((front ++ [line]).map markedLength).sum := by
  have hshort := length_trimEnd_lt htrim
  have hlength : markedLength line = line.length := by rw [markedLength, hmarked, if_pos rfl]
  have hle : markedLength (trimEnd line) ≤ (trimEnd line).length := by
    unfold markedLength
    split
    · exact le_rfl
    · exact Nat.zero_le _
  have hfront := sum_trimLines_le front
  rw [trimLines_concat, List.map_append, List.sum_append_nat, List.map_singleton, List.sum_singleton]
  split
  · omega
  · rw [List.map_append, List.sum_append_nat, List.map_singleton, List.sum_singleton]
    omega

end Weights

/-- A line of a hunk that looks like the name of an image. -/
def BodyLine.isHidden (body : BodyLine) : Bool :=
  body.mark == .removed && startsWith "-- " body.text.text ||
    body.mark == .added && startsWith "++ " body.text.text

def readLines (lines : List (List Char)) : PatchFile := (lines.foldl PatchBlock.read {}).file

def hunkLines (hunks : List GitHunk) : List (List Char) := hunks.flatMap GitHunk.lines

section Texts

variable {hunks : List GitHunk}

theorem isImage_line (body : BodyLine) : isImage body.line = body.isHidden := by
  obtain ⟨mark, text⟩ := body
  have hcons (c : Char) (other : List Char) :
      (c :: other).isPrefixOf (c :: text.text) = other.isPrefixOf text.text := by
    simp [List.isPrefixOf]
  have hminus : startsWith "--- " ('-' :: text.text) = startsWith "-- " text.text :=
    hcons '-' ['-', '-', ' ']
  have hplus : startsWith "+++ " ('+' :: text.text) = startsWith "++ " text.text :=
    hcons '+' ['+', '+', ' ']
  have hother {name : String} {c d : Char} (hname : name.toList.head? = some d) (hne : d ≠ c) :
      startsWith name (c :: text.text) = false := startsWith_of_head hname hne
  unfold isImage BodyLine.isHidden BodyLine.line
  cases mark with
  | context => simp [Mark.char, @hother "--- " ' ' '-' rfl, @hother "+++ " ' ' '+' rfl]
  | incomplete => simp [Mark.char, @hother "--- " '\\' '-' rfl, @hother "+++ " '\\' '+' rfl]
  | removed => simp [Mark.char, hminus, @hother "+++ " '-' '+' rfl]
  | added => simp [Mark.char, hplus, @hother "--- " '+' '-' rfl]

theorem weight_hunk (hunk : GitHunk) :
    weight [hunk.hunk] = (hunk.lines.map markedLength).sum := by
  have hheader : markedLength hunk.hunk.header = 0 := by
    have hmarked : isMarked ("@@".toList ++ hunk.ranges.text) = false := by
      rw [isMarked, @startsWith_of_differ " " "@@" (by decide), @startsWith_of_differ "+" "@@" (by decide),
        @startsWith_of_differ "-" "@@" (by decide), @startsWith_of_differ "\\" "@@" (by decide)]
      rfl
    rw [markedLength, GitHunk.hunk, hmarked]
    rfl
  have hbody : (hunk.body.map BodyLine.line).map List.length =
      (hunk.body.map BodyLine.line).map markedLength := by
    rw [List.map_map, List.map_map]
    refine List.map_congr_left fun line _ => ?_
    rw [Function.comp_apply, Function.comp_apply, markedLength, isMarked_line, if_pos rfl]
  rw [weight_singleton, GitHunk.lines, List.map_cons, List.sum_cons, hheader, Nat.zero_add]
  exact congrArg List.sum hbody

theorem weight_hunks (hunks : List GitHunk) :
    weight (hunks.map GitHunk.hunk) = ((hunkLines hunks).map markedLength).sum := by
  induction hunks with
  | nil => rfl
  | cons hunk rest ih =>
    have hsplit : (hunk :: rest).map GitHunk.hunk = [hunk.hunk] ++ rest.map GitHunk.hunk := rfl
    have hlines : hunkLines (hunk :: rest) = hunk.lines ++ hunkLines rest := List.flatMap_cons
    rw [hsplit, weight_append, weight_hunk, ih, hlines, List.map_append, List.sum_append_nat]

theorem exists_hunkLines_concat (hne : hunks ≠ []) :
    ∃ (front : List (List Char)) (line : BodyLine), hunkLines hunks = front ++ [line.line] := by
  rcases hunks.eq_nil_or_concat with rfl | ⟨before, hunk, rfl⟩
  · exact absurd rfl hne
  · rcases hunk.body.eq_nil_or_concat with hnil | ⟨lines, line, hbody⟩
    · exact absurd hnil hunk.nonempty
    · refine ⟨hunkLines before ++ hunk.hunk.header :: lines.map BodyLine.line, line, ?_⟩
      have hlines : hunk.lines = hunk.hunk.header :: (lines.map BodyLine.line ++ [line.line]) := by
        simp [GitHunk.lines, GitHunk.hunk, hbody]
      simp [hunkLines, hlines]

theorem body_mem_hunkLines {hunk : GitHunk} (hhunk : hunk ∈ hunks) {line : BodyLine}
    (hline : line ∈ hunk.body) : line.line ∈ hunkLines hunks :=
  List.mem_flatMap.mpr ⟨hunk, hhunk, List.mem_cons_of_mem _ (List.mem_map_of_mem hline)⟩

theorem trimLines_hunkLines_ne_nil (hne : hunks ≠ []) : trimLines (hunkLines hunks) ≠ [] := by
  obtain ⟨hunk, rest, rfl⟩ := List.exists_cons_of_ne_nil hne
  have hmem : '@' :: '@' :: hunk.ranges.text ∈ hunkLines (hunk :: rest) :=
    List.mem_flatMap.mpr ⟨hunk, List.mem_cons_self, List.mem_cons_self⟩
  exact trimLines_ne_nil hmem (trimEnd_cons_ne_nil _ (by decide))

theorem lines_of_read (hne : hunks ≠ []) {cur : PatchBlock} (hcur : cur.hunks = [])
    {lines : List (List Char)}
    (hlines : lines = hunkLines hunks ∨ lines = trimLines (hunkLines hunks))
    (h : (lines.foldl PatchBlock.read cur).hunks = hunks.map GitHunk.hunk) :
    lines = hunkLines hunks ∧ ∀ hunk ∈ hunks, ∀ line ∈ hunk.body, line.isHidden = false := by
  obtain ⟨front, last, hlast⟩ := exists_hunkLines_concat hne
  have hread := weight_foldl_le lines cur
  have hzero : weight cur.hunks = 0 := by
    rw [hcur]
    rfl
  rw [h, weight_hunks, hzero, Nat.zero_add] at hread
  have hbound := sum_lineWeight_le lines
  have hkept : lines = hunkLines hunks := by
    rcases hlines with heq | heq
    · exact heq
    · by_cases htrim : trimEnd last.line = last.line
      · have hline : last.line ≠ [] := List.cons_ne_nil _ _
        rw [heq, hlast, trimLines_eq_self hline htrim]
      · have hlt := @sum_trimLines_lt front last.line (isMarked_line last) htrim
        rw [← hlast, ← heq] at hlt
        omega
  refine ⟨hkept, fun hunk hhunk line hline => ?_⟩
  rw [hkept] at hread
  rw [← isImage_line]
  exact isImage_of_sum hread _ (body_mem_hunkLines hhunk hline) (isMarked_line line)

end Texts

/-! ## A file -/

/-- A name in the line of a binary file has a line terminator. -/
def FileDiff.isTerminated (file : FileDiff) : Bool :=
  file.before.any isLineTerminator || file.behind.any isLineTerminator

def FileDiff.binaryReads (file : FileDiff) : Bool :=
  match file.change with
  | .deleted _ => false
  | .renamed _ _ _ => file.isTerminated || andText.isSuffixOf file.path.text ||
      !includes file.path.text andText
  | _ => !file.isTerminated && !includes file.path.text andText

def FileDiff.contentReads (file : FileDiff) : Bool :=
  match file.content with
  | .same => file.isRenamed
  | .binary => file.binaryReads
  | .text hunks _ => !file.path.text.contains ' ' &&
      hunks.all fun hunk => hunk.body.all fun line => !line.isHidden

def FileDiff.reads (file : FileDiff) : Bool :=
  file.oldPlain && file.path.text.all isPlainChar && file.contentReads

section Files

variable {file : FileDiff}

theorem reads_iff : file.reads = true ↔
    file.oldPlain = true ∧ file.path.text.all isPlainChar = true ∧ file.contentReads = true := by
  rw [FileDiff.reads, Bool.and_eq_true, Bool.and_eq_true, and_assoc]

def FileDiff.imaged (file : FileDiff) : PatchBlock :=
  { file.start with
    minus := some (stripImagePrefix (imageName file.before))
    plus := some (stripImagePrefix (imageName file.behind)) }

theorem file_eq_real_iff {read : PatchFile} (hstatus : read.status = file.status)
    (hbinary : read.binary = file.isBinary) : read = file.real ↔
      read.path = file.path.text ∧ read.oldPath = file.oldPath ∧ read.hunks = file.hunks := by
  obtain ⟨path, oldPath, status, binary, hunks⟩ := read
  obtain rfl : status = file.status := hstatus
  obtain rfl : binary = file.isBinary := hbinary
  rw [FileDiff.real, PatchFile.mk.injEq]
  simp

theorem path_of_images (hunks : List DiffHunk) : ∃ side, (side = 'a' ∨ side = 'b') ∧
    ({ file.imaged with hunks } : PatchBlock).file.path =
      stripImagePrefix (imageName (imageOf side file.path)) := by
  have hnull : stripImagePrefix (imageName devNull) = devNull := by decide
  have hkept (side : Char) (hside : side = 'a' ∨ side = 'b') :
      (some (stripImagePrefix (imageName (imageOf side file.path)))).filter (· ≠ devNull) =
        some (stripImagePrefix (imageName (imageOf side file.path))) := by
    simp [(@strip_imageName side file.path hside).1]
  have hbehind (h : file.behind = imageOf 'b' file.path) :
      ({ file.imaged with hunks } : PatchBlock).file.path =
        stripImagePrefix (imageName (imageOf 'b' file.path)) := by
    rw [FileDiff.imaged, PatchBlock.file]
    dsimp only
    rw [h, hkept 'b' (Or.inr rfl)]
  cases hchange : file.change with
  | added mode => exact ⟨'b', Or.inr rfl, hbehind (by rw [FileDiff.behind, hchange]; rfl)⟩
  | modified modes => exact ⟨'b', Or.inr rfl, hbehind (by rw [FileDiff.behind, hchange]; rfl)⟩
  | renamed old similarity modes =>
    exact ⟨'b', Or.inr rfl, hbehind (by rw [FileDiff.behind, hchange]; rfl)⟩
  | deleted mode =>
    have hbefore : file.before = imageOf 'a' file.path := by
      rw [FileDiff.before, hchange]
      rfl
    have hnone : file.behind = devNull := by rw [FileDiff.behind, hchange]
    refine ⟨'a', Or.inl rfl, ?_⟩
    rw [FileDiff.imaged, PatchBlock.file]
    dsimp only
    rw [hnone, hnull, hbefore, hkept 'a' (Or.inl rfl)]
    rfl

theorem readLines_text {hunks : List GitHunk} {hne : hunks ≠ []}
    (hcontent : file.content = .text hunks hne) : ∃ front : List (List Char),
      file.laterLines = front ++ hunkLines hunks ∧ ∀ lines, (front ++ lines).foldl PatchBlock.read {} =
        lines.foldl PatchBlock.read file.imaged := by
  refine ⟨file.changeLines ++ file.indexLines ++ ["--- ".toList ++ imageName file.before,
    "+++ ".toList ++ imageName file.behind], ?_, fun lines => ?_⟩
  · rw [FileDiff.laterLines, FileDiff.contentLines, hcontent]
    simp [hunkLines]
  · rw [List.foldl_append, List.foldl_append, foldl_start, List.foldl_cons, read_minus,
      List.foldl_cons, read_plus]
    rfl

theorem readLines_text_iff {hunks : List GitHunk} {hne : hunks ≠ []}
    (hcontent : file.content = .text hunks hne) {lines : List (List Char)}
    (hlines : lines = file.laterLines ∨ lines = trimLines file.laterLines) :
    readLines lines = file.real ↔ file.reads = true ∧ lines = file.laterLines := by
  obtain ⟨front, hlater, hfoldl⟩ := readLines_text hcontent
  obtain ⟨hbinary, hhunks, -, -⟩ := start_rest file
  have hrealHunks : file.hunks = hunks.map GitHunk.hunk := by rw [FileDiff.hunks, hcontent]
  have hrealBinary : file.isBinary = false := by rw [FileDiff.isBinary, hcontent]
  have hcontentReads : file.contentReads = true ↔ ' ' ∉ file.path.text ∧
      ∀ hunk ∈ hunks, ∀ line ∈ hunk.body, line.isHidden = false := by
    rw [FileDiff.contentReads, hcontent]
    simp
  -- The file that is read where no line looks like the name of an image.
  have hreal (himage : ∀ hunk ∈ hunks, ∀ line ∈ hunk.body, line.isHidden = false) :
      readLines file.laterLines = file.real ↔
        file.oldPlain = true ∧ file.path.text.all isPlainChar = true ∧ ' ' ∉ file.path.text := by
    have hread := @foldl_hunks file.imaged hunks
      fun hunk hhunk line hline => (isImage_line line).trans (himage hunk hhunk line hline)
    obtain ⟨side, hside, hpath⟩ := @path_of_images file (file.imaged.hunks ++ hunks.map GitHunk.hunk)
    have hfile : (readLines file.laterLines).status = file.status ∧
        (readLines file.laterLines).binary = file.isBinary ∧
        (readLines file.laterLines).oldPath = file.start.oldPath ∧
        (readLines file.laterLines).hunks = file.hunks ∧
        (readLines file.laterLines).path = stripImagePrefix (imageName (imageOf side file.path)) := by
      rw [readLines, hlater, hfoldl, hunkLines, hread]
      refine ⟨start_status file, hbinary.trans hrealBinary.symm, rfl, ?_, hpath⟩
      rw [hrealHunks]
      exact congrArg (· ++ hunks.map GitHunk.hunk) hhunks
    obtain ⟨hstatus, hbinaryFile, hold, hhunksFile, hpathFile⟩ := hfile
    rw [file_eq_real_iff hstatus hbinaryFile, hold, hpathFile, (strip_imageName hside).2,
      start_oldPath_iff]
    constructor
    · rintro ⟨⟨hplain, hspace⟩, hold, -⟩
      exact ⟨hold, hplain, hspace⟩
    · rintro ⟨hold, hplain, hspace⟩
      exact ⟨⟨hplain, hspace⟩, hold, hhunksFile⟩
  rw [reads_iff, hcontentReads]
  constructor
  · intro h
    obtain ⟨rest, hrest, hkind⟩ : ∃ rest, lines = front ++ rest ∧
        (rest = hunkLines hunks ∨ rest = trimLines (hunkLines hunks)) := by
      rcases hlines with heq | heq
      · exact ⟨hunkLines hunks, heq.trans hlater, Or.inl rfl⟩
      · rw [hlater, trimLines_append] at heq
        rw [if_neg (trimLines_hunkLines_ne_nil hne)] at heq
        exact ⟨_, heq, Or.inr rfl⟩
    have hread : (rest.foldl PatchBlock.read file.imaged).hunks = hunks.map GitHunk.hunk := by
      rw [← hfoldl, ← hrest, ← hrealHunks]
      exact congrArg PatchFile.hunks h
    obtain ⟨heq, himage⟩ := @lines_of_read hunks hne file.imaged hhunks rest hkind hread
    have hall : lines = file.laterLines := by rw [hrest, heq, hlater]
    rw [hall, hreal himage] at h
    exact ⟨⟨h.1, h.2.1, h.2.2, himage⟩, hall⟩
  · rintro ⟨⟨hold, hplain, hspace, himage⟩, rfl⟩
    exact (hreal himage).mpr ⟨hold, hplain, hspace⟩

theorem readLines_binary_iff (hcontent : file.content = .binary) {lines : List (List Char)}
    (hlines : lines = file.laterLines ∨ lines = trimLines file.laterLines) :
    readLines lines = file.real ↔ file.reads = true ∧ lines = file.laterLines := by
  have hcontentLines : file.contentLines = ["Binary files ".toList ++ file.before ++ andText ++
      file.behind ++ " differ".toList] := by
    rw [FileDiff.contentLines, hcontent]
    rfl
  have hlater : file.laterLines = (file.changeLines ++ file.indexLines) ++ ["Binary files ".toList ++
      file.before ++ andText ++ file.behind ++ " differ".toList] := by
    rw [FileDiff.laterLines, hcontentLines]
    simp only [List.append_assoc]
  have hkept : lines = file.laterLines := by
    rcases hlines with heq | heq
    · exact heq
    · rw [heq, hlater]
      refine trimLines_eq_self (by simp) ?_
      rw [trimEnd_append, if_neg (by decide)]
      exact congrArg _ (by decide)
  rw [hkept, and_iff_left rfl]
  obtain ⟨hbinary, hhunks, hminus, hplus⟩ := start_rest file
  have hrealHunks : file.hunks = [] := by rw [FileDiff.hunks, hcontent]
  have hrealBinary : file.isBinary = true := by rw [FileDiff.isBinary, hcontent]
  -- What is read of the line.
  have hfile (name : Option (List Char)) (hname : binaryName ("Binary files ".toList ++ file.before ++
      andText ++ file.behind ++ " differ".toList) = name) :
      readLines file.laterLines = file.real ↔
        binaryPath file.start.path name = file.path.text ∧ file.oldPlain = true := by
    have hassoc : "Binary files ".toList ++ file.before ++ andText ++ file.behind ++ " differ".toList =
        "Binary files ".toList ++ (file.before ++ andText ++ file.behind ++ " differ".toList) := by
      simp only [List.append_assoc]
    have hread : (file.start.read ("Binary files ".toList ++ file.before ++ andText ++ file.behind ++
        " differ".toList)) = { file.start with
          binary := true, path := binaryPath file.start.path name } := by
      rw [← hname, hassoc, read_binary, ← hassoc]
      cases binaryName ("Binary files ".toList ++ file.before ++ andText ++ file.behind ++
        " differ".toList) with
      | none => rfl
      | some found => cases found <;> rfl
    have hlast : readLines file.laterLines = ({ file.start with
          binary := true, path := binaryPath file.start.path name } : PatchBlock).file := by
      rw [readLines, hlater, List.foldl_append, foldl_start, List.foldl_cons, hread]
      rfl
    have hpath : ({ file.start with
          binary := true, path := binaryPath file.start.path name } : PatchBlock).file.path =
        binaryPath file.start.path name := by
      rw [PatchBlock.file]
      dsimp only
      rw [hminus, hplus]
      rfl
    rw [hlast, file_eq_real_iff (start_status file) hrealBinary.symm, hpath, hrealHunks]
    exact and_congr_right fun _ => (and_iff_left hhunks).trans (start_oldPath_iff file)
  -- The name of the image behind.
  have hnames (hbehind : file.behind.head? ≠ some 'a') := hfile _ (binaryName_eq file.before hbehind)
  have himage (h : file.behind = imageOf 'b' file.path) : readLines file.laterLines = file.real ↔
      (file.path.text.all isPlainChar = true ∧
        ((file.isTerminated = true ∨ andText.isSuffixOf file.path.text = true) ∧
            file.start.path = file.path.text ∨
          file.isTerminated = false ∧ includes file.path.text andText = false)) ∧
        file.oldPlain = true := by
    rw [hnames (by rw [h]; exact head_imageOf file.path)]
    refine and_congr_left fun _ => ?_
    have hterminated : (file.before.any isLineTerminator || file.behind.any isLineTerminator) =
        file.isTerminated := rfl
    rw [hterminated, h]
    cases hplain : file.path.text.all isPlainChar with
    | true =>
      rw [binaryPath_plain hplain]
      exact (and_iff_right rfl).symm
    | false =>
      refine iff_of_false (binaryPath_quoted hplain ?_ _ ?_) fun hfalse => Bool.false_ne_true hfalse.1
      · intro hstart
        rw [start_path_iff, hplain] at hstart
        exact Bool.false_ne_true hstart.2
      · intro found hfound
        split at hfound
        · cases hfound
        · exact (Option.some.inj hfound).symm
  have hreads : file.contentReads = file.binaryReads := by rw [FileDiff.contentReads, hcontent]
  have hnotRenamed (h : file.isRenamed = false) : file.start.path ≠ file.path.text := by
    rw [Ne, start_path_iff, h]
    exact fun hfalse => Bool.false_ne_true hfalse.1
  rw [reads_iff, hreads]
  have hsamePath (hbehind : file.behind = imageOf 'b' file.path) (hrenamed : file.isRenamed = false)
      (hbinaryReads : file.binaryReads =
        (!file.isTerminated && !includes file.path.text andText)) :
      readLines file.laterLines = file.real ↔ file.oldPlain = true ∧
        file.path.text.all isPlainChar = true ∧ file.binaryReads = true := by
    rw [himage hbehind, hbinaryReads, Bool.and_eq_true, Bool.not_eq_true', Bool.not_eq_true']
    simp only [hnotRenamed hrenamed, and_false, false_or]
    exact and_comm
  cases hchange : file.change with
  | deleted mode =>
    have hbehind : file.behind = devNull := by rw [FileDiff.behind, hchange]
    have hnone : file.binaryReads = false := by rw [FileDiff.binaryReads, hchange]
    have hrenamed : file.isRenamed = false := by rw [FileDiff.isRenamed, hchange]
    rw [hnames (by rw [hbehind]; decide), hnone]
    refine iff_of_false (fun h => ?_) fun h => Bool.false_ne_true h.2.2
    have hpath := h.1
    rw [hbehind] at hpath
    have hbehindLast : (behindLast andText devNull).getD devNull = devNull := by decide
    have hstrip : stripImagePrefix devNull = devNull := by decide
    rw [hbehindLast] at hpath
    split at hpath
    · exact hnotRenamed hrenamed hpath
    · exact ne_devNull file.path.relative (hpath.symm.trans hstrip)
  | added mode =>
    refine hsamePath ?_ (by rw [FileDiff.isRenamed, hchange]) (by rw [FileDiff.binaryReads, hchange])
    rw [FileDiff.behind, hchange]
    rfl
  | modified modes =>
    refine hsamePath ?_ (by rw [FileDiff.isRenamed, hchange]) (by rw [FileDiff.binaryReads, hchange])
    rw [FileDiff.behind, hchange]
    rfl
  | renamed old similarity modes =>
    have hbehind : file.behind = imageOf 'b' file.path := by rw [FileDiff.behind, hchange]; rfl
    have hrenamed : file.isRenamed = true := by rw [FileDiff.isRenamed, hchange]
    have hbinaryReads : file.binaryReads = (file.isTerminated || andText.isSuffixOf file.path.text ||
        !includes file.path.text andText) := by
      rw [FileDiff.binaryReads, hchange]
    rw [himage hbehind, hbinaryReads, and_comm]
    refine and_congr_right fun _ => and_congr_right fun hplain => ?_
    have hstart : file.start.path = file.path.text := (start_path_iff file).mpr ⟨hrenamed, hplain⟩
    simp only [hstart, and_true, Bool.or_eq_true, Bool.not_eq_true']
    cases file.isTerminated with
    | true => simp
    | false => simp

theorem trimEnd_bare (front : List Char) (bare : BareText) :
    trimEnd (front ++ bare.text) = front ++ bare.text := by
  rw [trimEnd_eq_self_iff]
  intro c hc
  rw [List.getLast?_append_of_ne_nil _ bare.nonempty] at hc
  exact bare.noSpace c (List.mem_of_getLast? hc)

theorem trimLines_bare (front : List (List Char)) {line : List Char} (bare : BareText) :
    trimLines (front ++ [line ++ bare.text]) = front ++ [line ++ bare.text] :=
  trimLines_eq_self (by simp [bare.nonempty]) (trimEnd_bare line bare)

theorem readLines_same_iff (hcontent : file.content = .same) {lines : List (List Char)}
    (hlines : lines = file.laterLines ∨ lines = trimLines file.laterLines) :
    readLines lines = file.real ↔ file.reads = true ∧ lines = file.laterLines := by
  have hlater : file.laterLines = file.changeLines ++ file.indexLines := by
    rw [FileDiff.laterLines, FileDiff.contentLines, hcontent, List.append_nil]
  obtain ⟨hbinary, hhunks, hminus, hplus⟩ := start_rest file
  have hrealHunks : file.hunks = [] := by rw [FileDiff.hunks, hcontent]
  have hrealBinary : file.isBinary = false := by rw [FileDiff.isBinary, hcontent]
  have hreads : file.contentReads = file.isRenamed := by rw [FileDiff.contentReads, hcontent]
  have hpath : file.start.file.path = file.start.path := by
    rw [PatchBlock.file, hminus, hplus]
    rfl
  have hall : readLines file.laterLines = file.real ↔ file.reads = true := by
    have hread : readLines file.laterLines = file.start.file := by
      rw [readLines, hlater, foldl_start]
    rw [hread, file_eq_real_iff (start_status file) (hbinary.trans hrealBinary.symm), hpath,
      hrealHunks, reads_iff, hreads, start_path_iff]
    constructor
    · rintro ⟨⟨hrenamed, hplain⟩, hold, -⟩
      exact ⟨(start_oldPath_iff file).mp hold, hplain, hrenamed⟩
    · rintro ⟨hold, hplain, hrenamed⟩
      exact ⟨⟨hrenamed, hplain⟩, (start_oldPath_iff file).mpr hold, hhunks⟩
  have hkept (h : trimLines file.laterLines = file.laterLines) :
      readLines lines = file.real ↔ file.reads = true ∧ lines = file.laterLines := by
    have heq : lines = file.laterLines := hlines.elim id fun htrim => htrim.trans h
    rw [heq, hall, and_iff_left rfl]
  cases hindex : file.index with
  | some index =>
    refine hkept ?_
    obtain ⟨objects, mode⟩ := index
    rw [hlater, FileDiff.indexLines, hindex]
    cases mode with
    | none => exact trimLines_bare _ objects
    | some mode =>
      have hline : "index ".toList ++ indexText (objects, some mode) =
          ("index ".toList ++ objects.text ++ [' ']) ++ mode.text := by simp [indexText]
      rw [Option.toList_some, List.map_singleton, hline]
      exact trimLines_bare _ mode
  | none =>
    have hchangeLines : file.laterLines = file.changeLines := by
      rw [hlater, FileDiff.indexLines, hindex]
      exact List.append_nil _
    cases hchange : file.change with
    | added mode =>
      refine hkept ?_
      rw [hchangeLines, FileDiff.changeLines, hchange]
      exact trimLines_bare [] mode
    | deleted mode =>
      refine hkept ?_
      rw [hchangeLines, FileDiff.changeLines, hchange]
      exact trimLines_bare [] mode
    | modified modes =>
      refine hkept ?_
      rw [hchangeLines, FileDiff.changeLines, hchange]
      cases modes with
      | none => rfl
      | some pair => exact trimLines_bare ["old mode ".toList ++ pair.1.text] pair.2
    | renamed old similarity modes =>
      -- The last line names the path, which can end in space.
      have hlast : ∃ front : List (List Char), file.laterLines = front ++
          ["rename to ".toList ++ quotePath file.path.text] ∧
          (front.foldl PatchBlock.read {}).path = [] ∧
          (front.foldl PatchBlock.read {}).minus = none ∧
          (front.foldl PatchBlock.read {}).plus = none := by
        refine ⟨modeLines modes ++ ["similarity index ".toList ++ similarity.text,
          "rename from ".toList ++ quotePath old.text], ?_, ?_⟩
        · rw [hchangeLines, FileDiff.changeLines, hchange]
          simp
        · rw [List.foldl_append, foldl_modes, List.foldl_cons,
            @read_other {} "similarity index " (by decide), List.foldl_cons, read_renameFrom]
          exact ⟨rfl, rfl, rfl⟩
      obtain ⟨front, hfront, hstart, hminusFront, hplusFront⟩ := hlast
      by_cases htrim : trimEnd (quotePath file.path.text) = quotePath file.path.text
      · refine hkept ?_
        rw [hfront]
        have hne : quotePath file.path.text ≠ [] := by
          unfold quotePath
          split
          · exact file.path.nonempty
          · exact List.cons_ne_nil _ _
        refine trimLines_eq_self (by simp) ?_
        rw [trimEnd_append, htrim, if_neg hne]
      · -- A path in quotes ends in a quote.
        have hplain : file.path.text.all isPlainChar = true := by
          refine Bool.eq_true_of_not_eq_false fun hother => htrim ?_
          rw [quotePath_other hother, trimEnd_eq_self_iff, ← List.cons_append, List.getLast?_concat]
          rintro c ⟨⟩
          decide
        rw [quotePath_plain hplain] at htrim hfront
        have hlostPath (path : List Char) (hpathNe : path ≠ file.path.text) (cur : PatchBlock)
            (hcur : cur.path = path) (hminus : cur.minus = none) (hplus : cur.plus = none) :
            cur.file ≠ file.real := by
          intro h
          have hcurPath : cur.file.path = cur.path := by
            rw [PatchBlock.file, hminus, hplus]
            rfl
          exact hpathNe (hcur.symm.trans (hcurPath.symm.trans (congrArg PatchFile.path h)))
        rcases hlines with heq | heq
        · rw [heq, hall, and_iff_left rfl]
        · have hlost : readLines (trimLines file.laterLines) ≠ file.real := by
            have hwhole : "rename to ".toList = "rename to".toList ++ [' '] := by decide
            rw [hfront, trimLines_concat, trimEnd_append]
            by_cases hblank : trimEnd file.path.text = []
            · have hline : trimEnd "rename to ".toList = "rename to".toList := by decide
              have hsame (cur : PatchBlock) : cur.read "rename to".toList = cur := rfl
              rw [if_pos hblank, hline, if_neg (by decide), readLines, List.foldl_append,
                List.foldl_cons, hsame]
              exact hlostPath [] (fun h => file.path.nonempty h.symm) _ hstart hminusFront hplusFront
            · rw [if_neg hblank, if_neg (by simp), readLines, List.foldl_append, List.foldl_cons,
                read_renameTo]
              exact hlostPath _ htrim _ rfl hminusFront hplusFront
          rw [heq]
          refine iff_of_false hlost fun h => hlost ?_
          rw [h.2]
          exact hall.mpr h.1

theorem readLines_iff {lines : List (List Char)}
    (hlines : lines = file.laterLines ∨ lines = trimLines file.laterLines) :
    readLines lines = file.real ↔ file.reads = true ∧ lines = file.laterLines := by
  cases hcontent : file.content with
  | same => exact readLines_same_iff hcontent hlines
  | binary => exact readLines_binary_iff hcontent hlines
  | text hunks hne => exact readLines_text_iff hcontent hlines

end Files

/-! ## The patch -/

section Patches

variable {file : FileDiff}

theorem changeLines_mem {line : List Char} (h : line ∈ file.changeLines ++ file.indexLines) :
    ∃ (text : String) (rest : List Char), line = text.toList ++ rest ∧ '\n' ∉ text.toList ∧
      differ "diff --git " text = true ∧ '\n' ∉ rest := by
  have hbare (bare : BareText) : '\n' ∉ bare.text := fun hmem =>
    absurd (bare.noSpace _ hmem) (by decide)
  have hmodes (modes : Option (BareText × BareText)) (hline : line ∈ modeLines modes) :
      ∃ (text : String) (rest : List Char), line = text.toList ++ rest ∧ '\n' ∉ text.toList ∧
        differ "diff --git " text = true ∧ '\n' ∉ rest := by
    cases modes with
    | none => cases hline
    | some pair =>
      rw [modeLines] at hline
      rcases List.mem_cons.mp hline with rfl | hline
      · exact ⟨"old mode ", _, rfl, by decide, by decide, hbare _⟩
      · rw [List.mem_singleton.mp hline]
        exact ⟨"new mode ", _, rfl, by decide, by decide, hbare _⟩
  rcases List.mem_append.mp h with hchange | hindex
  · unfold FileDiff.changeLines at hchange
    cases hkind : file.change with
    | added mode =>
      rw [hkind] at hchange
      rw [List.mem_singleton.mp hchange]
      exact ⟨"new file mode ", _, rfl, by decide, by decide, hbare _⟩
    | deleted mode =>
      rw [hkind] at hchange
      rw [List.mem_singleton.mp hchange]
      exact ⟨"deleted file mode ", _, rfl, by decide, by decide, hbare _⟩
    | modified modes =>
      rw [hkind] at hchange
      exact hmodes modes hchange
    | renamed old similarity modes =>
      rw [hkind] at hchange
      rcases List.mem_append.mp hchange with hline | hline
      · exact hmodes modes hline
      rcases List.mem_cons.mp hline with rfl | hline
      · exact ⟨"similarity index ", _, rfl, by decide, by decide, hbare _⟩
      rcases List.mem_cons.mp hline with rfl | hline
      · exact ⟨"rename from ", _, rfl, by decide, by decide, break_notMem_quotePath _⟩
      · rw [List.mem_singleton.mp hline]
        exact ⟨"rename to ", _, rfl, by decide, by decide, break_notMem_quotePath _⟩
  · obtain ⟨index, -, rfl⟩ := List.mem_map.mp hindex
    refine ⟨"index ", _, rfl, by decide, by decide, ?_⟩
    obtain ⟨objects, mode⟩ := index
    cases mode with
    | none => exact hbare objects
    | some mode =>
      rw [indexText, List.mem_append, List.mem_cons]
      rintro (hmem | heq | hmem)
      · exact hbare objects hmem
      · exact absurd heq (by decide)
      · exact hbare mode hmem

theorem break_notMem_before (file : FileDiff) : '\n' ∉ file.before ∧ '\n' ∉ file.behind := by
  have hnull : '\n' ∉ devNull := by decide
  unfold FileDiff.before FileDiff.behind
  cases file.change with
  | added mode => exact ⟨hnull, break_notMem_quotePath _⟩
  | deleted mode => exact ⟨break_notMem_quotePath _, hnull⟩
  | modified modes => exact ⟨break_notMem_quotePath _, break_notMem_quotePath _⟩
  | renamed old similarity modes => exact ⟨break_notMem_quotePath _, break_notMem_quotePath _⟩

theorem break_notMem_imageName {name : List Char} (h : '\n' ∉ name) : '\n' ∉ imageName name := by
  unfold imageName
  split
  · simp [h]
  · exact h

/-- A line behind the first does not begin like a first line, holds no end of a line and is not
empty. -/
theorem laterLines_mem {line : List Char} (h : line ∈ file.laterLines) :
    startsWith "diff --git " line = false ∧ '\n' ∉ line ∧ line ≠ [] := by
  have htext {text : String} {rest : List Char} (hbreak : '\n' ∉ text.toList)
      (hdiffer : differ "diff --git " text = true) (hrest : '\n' ∉ rest) :
      startsWith "diff --git " (text.toList ++ rest) = false ∧ '\n' ∉ text.toList ++ rest ∧
        text.toList ++ rest ≠ [] := by
    refine ⟨startsWith_of_differ hdiffer rest, fun hmem => ?_, fun hnil => ?_⟩
    · rcases List.mem_append.mp hmem with hmem | hmem
      · exact hbreak hmem
      · exact hrest hmem
    · rw [differ, (List.append_eq_nil_iff.mp hnil).1] at hdiffer
      exact absurd hdiffer (by decide)
  have hmark (mark : Mark) : '\n' ≠ mark.char := by
    cases mark <;> decide
  have hnames := break_notMem_before file
  rw [FileDiff.laterLines, ← List.append_assoc] at h
  rcases List.mem_append.mp h with hline | hline
  · obtain ⟨text, rest, rfl, hbreak, hdiffer, hrest⟩ := changeLines_mem hline
    exact htext hbreak hdiffer hrest
  · unfold FileDiff.contentLines at hline
    cases hcontent : file.content with
    | same =>
      rw [hcontent] at hline
      cases hline
    | binary =>
      rw [hcontent] at hline
      rw [List.mem_singleton.mp hline]
      simp only [List.append_assoc]
      refine @htext "Binary files " _ (by decide) (by decide) ?_
      simp [hnames]
    | text hunks hne =>
      rw [hcontent] at hline
      rcases List.mem_cons.mp hline with rfl | hline
      · exact htext (by decide) (by decide) (break_notMem_imageName hnames.1)
      rcases List.mem_cons.mp hline with rfl | hline
      · exact htext (by decide) (by decide) (break_notMem_imageName hnames.2)
      obtain ⟨hunk, -, hline⟩ := List.mem_flatMap.mp hline
      rcases List.mem_cons.mp hline with rfl | hline
      · exact htext (by decide) (by decide) hunk.ranges.noBreak
      · obtain ⟨body, -, rfl⟩ := List.mem_map.mp hline
        refine ⟨startsWith_of_marked (by decide) (by decide) (isMarked_line body), fun hmem => ?_,
          List.cons_ne_nil _ _⟩
        rcases List.mem_cons.mp hmem with hbreak | hmem
        · exact hmark body.mark hbreak
        · exact body.text.noBreak hmem

theorem firstLine_starts (file : FileDiff) : startsWith "diff --git " file.firstLine = true := by
  unfold FileDiff.firstLine
  simp only [List.append_assoc]
  exact startsWith_append _ _

theorem break_notMem_firstLine (file : FileDiff) : '\n' ∉ file.firstLine := by
  unfold FileDiff.firstLine
  simp only [List.mem_append, not_or]
  exact ⟨⟨⟨by decide, break_notMem_quotePath _⟩, by decide⟩, break_notMem_quotePath _⟩

theorem patchFrom_later {lines : List (List Char)}
    (hlines : ∀ line ∈ lines, startsWith "diff --git " line = false) (cur : PatchBlock)
    (rest : List (List Char)) :
    patchFrom (some cur) (lines ++ rest) = patchFrom (some (lines.foldl PatchBlock.read cur)) rest := by
  induction lines generalizing cur with
  | nil => rfl
  | cons line lines ih =>
    obtain ⟨hline, hlines⟩ := List.forall_mem_cons.mp hlines
    rw [List.cons_append, patchFrom, hline, if_neg Bool.false_ne_true, Option.map_some, ih hlines,
      List.foldl_cons]

theorem patchFrom_files (files : List FileDiff) (cur : Option PatchBlock) {first : List Char}
    (hfirst : startsWith "diff --git " first = true) {lines : List (List Char)}
    (hlines : ∀ line ∈ lines, startsWith "diff --git " line = false) :
    patchFrom cur ((files.flatMap fun file => file.firstLine :: file.laterLines) ++ first :: lines) =
      cur.toList.map PatchBlock.file ++ (files.map (fun file => readLines file.laterLines) ++
        [readLines lines]) := by
  induction files generalizing cur with
  | nil =>
    have hlast := patchFrom_later hlines {} []
    rw [List.append_nil] at hlast
    rw [List.flatMap_nil, List.nil_append, patchFrom, hfirst, if_pos rfl, hlast]
    rfl
  | cons file files ih =>
    rw [List.flatMap_cons, List.cons_append, List.cons_append, List.append_assoc, patchFrom,
      firstLine_starts, if_pos rfl, patchFrom_later fun line hline => (laterLines_mem hline).1, ih]
    rfl

theorem firstLine_trimmed (file : FileDiff) :
    startsWith "diff --git " (trimEnd file.firstLine) = true ∧ trimEnd file.firstLine ≠ [] := by
  have hquote (path : List Char) : ∃ c rest, quotePath ("a/".toList ++ path) = c :: rest ∧
      isSpace c = false := by
    unfold quotePath
    split
    · exact ⟨'a', _, rfl, by decide⟩
    · exact ⟨'"', _, rfl, by decide⟩
  obtain ⟨path, hpath⟩ : ∃ path, file.firstLine = "diff --git ".toList ++
      (quotePath ("a/".toList ++ path) ++ (" ".toList ++ quotePath ("b/".toList ++ file.path.text))) := by
    unfold FileDiff.firstLine
    simp only [List.append_assoc]
    exact ⟨_, rfl⟩
  obtain ⟨c, rest, hhead, hc⟩ := hquote path
  rw [hpath, hhead, List.cons_append, trimEnd_append, if_neg (trimEnd_cons_ne_nil _ hc)]
  exact ⟨startsWith_append _ _, by simp⟩

theorem trimLines_patch (files : List FileDiff) (last : FileDiff) :
    ∃ first, startsWith "diff --git " first = true ∧
      trimLines ((files ++ [last]).flatMap fun file => file.firstLine :: file.laterLines) =
        (files.flatMap fun file => file.firstLine :: file.laterLines) ++
          first :: trimLines last.laterLines := by
  obtain ⟨hstarts, htrimmed⟩ := firstLine_trimmed last
  have hlast : ∃ first, startsWith "diff --git " first = true ∧
      trimLines (last.firstLine :: last.laterLines) = first :: trimLines last.laterLines := by
    rw [trimLines]
    by_cases hlater : trimLines last.laterLines = []
    · exact ⟨trimEnd last.firstLine, hstarts, by rw [if_pos hlater, if_neg htrimmed, hlater]⟩
    · exact ⟨last.firstLine, firstLine_starts last, by rw [if_neg hlater]⟩
  obtain ⟨first, hfirst, hlines⟩ := hlast
  refine ⟨first, hfirst, ?_⟩
  rw [List.flatMap_append, List.flatMap_singleton, trimLines_append, hlines,
    if_neg (List.cons_ne_nil _ _)]

end Patches

section Diffs

variable {diff : GitDiff}

def GitDiff.endsInSpace (diff : GitDiff) : Bool :=
  (diff.lines.getLast?.bind List.getLast?).any isSpace

theorem break_notMem_lines {line : List Char} (h : line ∈ diff.lines) : '\n' ∉ line := by
  obtain ⟨file, -, hline⟩ := List.mem_flatMap.mp h
  rcases List.mem_cons.mp hline with rfl | hline
  · exact break_notMem_firstLine file
  · exact (laterLines_mem hline).2.1

theorem splitOn_patchOut (hne : diff.files ≠ []) :
    (trim diff.patchOut).splitOn '\n' = trimLines diff.lines ∧ trim diff.patchOut ≠ [] := by
  obtain ⟨file, files, hfiles⟩ := List.exists_cons_of_ne_nil hne
  obtain ⟨rest, hlines⟩ : ∃ rest others, diff.lines = ('d' :: rest) :: others := by
    rw [GitDiff.lines, hfiles]
    exact ⟨_, _, rfl⟩
  obtain ⟨others, hlines⟩ := hlines
  have hprint : diff.patchOut = printLines diff.lines := rfl
  have hbreak : ∀ line ∈ diff.lines, '\n' ∉ line := fun line => break_notMem_lines
  rw [hlines] at hbreak
  rw [hprint, hlines]
  exact splitOn_trim_printLines (by decide) hbreak

theorem parse_patchOut {files : List FileDiff} {last : FileDiff}
    (hfiles : diff.files = files ++ [last]) :
    parseUnifiedDiff (trim diff.patchOut) = files.map (fun file => readLines file.laterLines) ++
      [readLines (trimLines last.laterLines)] := by
  obtain ⟨hsplit, hne⟩ := @splitOn_patchOut diff (by simp [hfiles])
  obtain ⟨first, hfirst, hlines⟩ := trimLines_patch files last
  have hlater : ∀ line ∈ trimLines last.laterLines, startsWith "diff --git " line = false := by
    intro line hline
    obtain ⟨held, hheld, hbegins⟩ := mem_trimLines hline
    refine Bool.eq_false_iff.mpr fun hstarts => ?_
    have hheldStarts := startsWith_of_prefix hstarts hbegins
    rw [(laterLines_mem hheld).1] at hheldStarts
    exact Bool.noConfusion hheldStarts
  rw [parseUnifiedDiff, if_neg hne, hsplit, GitDiff.lines, hfiles, hlines,
    patchFrom_files files none hfirst hlater]
  rfl

theorem laterLines_ne_nil {file : FileDiff} (h : file.reads = true) : file.laterLines ≠ [] := by
  have hcontentReads := (reads_iff.mp h).2.2
  intro hnil
  obtain ⟨hchange, hrest⟩ := List.append_eq_nil_iff.mp hnil
  have hcontent := (List.append_eq_nil_iff.mp hrest).2
  unfold FileDiff.contentLines at hcontent
  unfold FileDiff.contentReads at hcontentReads
  cases hkind : file.content with
  | binary =>
    rw [hkind] at hcontent
    cases hcontent
  | text hunks hne =>
    rw [hkind] at hcontent
    cases hcontent
  | same =>
    rw [hkind] at hcontentReads
    unfold FileDiff.isRenamed at hcontentReads
    unfold FileDiff.changeLines at hchange
    cases hchangeKind : file.change with
    | renamed old similarity modes =>
      rw [hchangeKind] at hchange
      exact List.cons_ne_nil _ _ (List.append_eq_nil_iff.mp hchange).2
    | added mode =>
      rw [hchangeKind] at hcontentReads
      cases hcontentReads
    | deleted mode =>
      rw [hchangeKind] at hcontentReads
      cases hcontentReads
    | modified modes =>
      rw [hchangeKind] at hcontentReads
      cases hcontentReads

theorem trimLines_last_iff {files : List FileDiff} {last : FileDiff}
    (hfiles : diff.files = files ++ [last]) (hreads : last.reads = true) :
    last.laterLines = trimLines last.laterLines ↔ diff.endsInSpace = false := by
  obtain ⟨front, line, hlater⟩ : ∃ front line, last.laterLines = front ++ [line] := by
    rcases last.laterLines.eq_nil_or_concat with hnil | ⟨front, line, hconcat⟩
    · exact absurd hnil (laterLines_ne_nil hreads)
    · exact ⟨front, line, hconcat.trans (List.concat_eq_append)⟩
  have hline : line ≠ [] := (@laterLines_mem last line (by simp [hlater])).2.2
  have hends : diff.lines.getLast? = some line := by
    rw [GitDiff.lines, hfiles, List.flatMap_append, List.flatMap_singleton, hlater, ← List.cons_append,
      ← List.append_assoc, List.getLast?_concat]
  rw [hlater, eq_comm, trimLines_eq_self_iff hline, trimEnd_eq_self_iff, GitDiff.endsInSpace, hends,
    Option.bind_some]
  cases line.getLast? with
  | none => simp
  | some c => simp

theorem parse_patchOut_iff (diff : GitDiff) :
    parseUnifiedDiff (trim diff.patchOut) = diff.files.map FileDiff.real ↔
      (∀ file ∈ diff.files, file.reads = true) ∧ diff.endsInSpace = false := by
  rcases diff.files.eq_nil_or_concat with hnil | ⟨files, last, hconcat⟩
  · have hout : diff.patchOut = [] := by
      rw [GitDiff.patchOut, GitDiff.lines, hnil]
      rfl
    have hends : diff.endsInSpace = false := by
      rw [GitDiff.endsInSpace, GitDiff.lines, hnil]
      rfl
    rw [hout, hnil, hends]
    simp [parseUnifiedDiff, trim]
  · have hfiles : diff.files = files ++ [last] := by rw [hconcat, List.concat_eq_append]
    rw [parse_patchOut hfiles, hfiles, List.map_append, List.map_singleton,
      List.append_singleton_inj, List.forall_mem_append, List.forall_mem_singleton,
      List.map_inj_left, readLines_iff (Or.inr rfl), and_assoc]
    refine and_congr (forall₂_congr fun file _ => ?_) (and_congr_right fun hreads => ?_)
    · rw [readLines_iff (Or.inl rfl), and_iff_left rfl]
    · exact eq_comm.trans (trimLines_last_iff hfiles hreads)

end Diffs

end Execution
