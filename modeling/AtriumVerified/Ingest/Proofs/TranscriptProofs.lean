import Mathlib.Algebra.Group.Nat.Even
import Mathlib.Tactic.IntervalCases
import AtriumVerified.Ingest.Markdown
import AtriumVerified.Lib.RegexLanguage
import AtriumVerified.Lib.Split

/-!
# Who says a line of a transcript

The line loop keeps one bit for fences, so what it takes for a header depends on the number of fence
lines before it. Its blocks are runs of lines behind their headers, and the text of a message is the
lines of its block without blank ones at the ends.
-/

namespace Ingest

open Js Core Regex

/-! ## Blank lines at the ends -/

def BlankLine (line : String) : Prop := ∀ c ∈ line.toList, isBlank c = true

def isBlankOrNewline (c : Char) : Prop := isBlank c = true ∨ c = '\n'

theorem forall_flatten {P : Char → Prop} {parts : List (List Char)}
    (h : ∀ part ∈ parts, ∀ c ∈ part, P c) : ∀ c ∈ parts.flatten, P c := by
  intro c hc
  obtain ⟨part, hpart, hc⟩ := List.mem_flatten.mp hc
  exact h part hpart c hc

theorem language_leadingBlankLines {text : List Char} (h : Language leadingBlankLines text) :
    (∀ c ∈ text, isBlankOrNewline c) ∧ ∃ front, text = front ++ ['\n'] := by
  obtain ⟨_, _, rfl, rfl, _, _, rfl, ⟨parts, rfl, hlength, hparts⟩, rfl⟩ := h
  have hpart : ∀ part ∈ parts, ∃ blanks : List Char, part = blanks ++ ['\n'] ∧
      ∀ c ∈ blanks, isBlank c = true := by
    intro part hmem
    obtain ⟨blanks, _, rfl, hblanks, _, _, rfl, hnewline, rfl⟩ := hparts part hmem
    rw [language_lit.mp hnewline]
    exact ⟨blanks, rfl, (language_rep_one.mp hblanks).2⟩
  rw [List.nil_append, List.append_nil]
  constructor
  · refine forall_flatten fun part hmem => ?_
    obtain ⟨blanks, rfl, hblanks⟩ := hpart part hmem
    exact List.forall_mem_append.mpr ⟨fun c hc => Or.inl (hblanks c hc),
      List.forall_mem_singleton.mpr (Or.inr rfl)⟩
  · obtain ⟨others, last, rfl⟩ := (List.eq_nil_or_concat parts).resolve_left
      (List.ne_nil_of_length_pos hlength)
    obtain ⟨blanks, rfl, -⟩ := hpart last (by simp)
    refine ⟨others.flatten ++ blanks, ?_⟩
    rw [List.concat_eq_append, List.flatten_append, List.flatten_singleton, List.append_assoc]

theorem language_trailingBlankLines {text : List Char} (h : Language trailingBlankLines text) :
    (∀ c ∈ text, isBlankOrNewline c) ∧ ∃ back, text = '\n' :: back := by
  obtain ⟨_, _, rfl, ⟨parts, rfl, hlength, hparts⟩, _, _, rfl, rfl, rfl⟩ := h
  have hpart : ∀ part ∈ parts, ∃ blanks : List Char, part = '\n' :: blanks ∧
      ∀ c ∈ blanks, isBlank c = true := by
    intro part hmem
    obtain ⟨_, _, rfl, hnewline, blanks, _, rfl, hblanks, rfl⟩ := hparts part hmem
    rw [language_lit.mp hnewline, List.append_nil]
    exact ⟨blanks, rfl, (language_rep_one.mp hblanks).2⟩
  rw [List.append_nil, List.append_nil]
  constructor
  · refine forall_flatten fun part hmem => ?_
    obtain ⟨blanks, rfl, hblanks⟩ := hpart part hmem
    exact List.forall_mem_cons.mpr ⟨Or.inr rfl, fun c hc => Or.inl (hblanks c hc)⟩
  · cases parts with
    | nil => cases hlength
    | cons part rest =>
      obtain ⟨blanks, rfl, -⟩ := hpart part List.mem_cons_self
      exact ⟨blanks ++ rest.flatten, rfl⟩

theorem blank_of_mem_splitOn {text piece : List Char} (htext : ∀ c ∈ text, isBlankOrNewline c)
    (hpiece : piece ∈ text.splitOn '\n') : ∀ c ∈ piece, isBlank c = true := by
  intro c hc
  rcases htext c (mem_of_mem_splitOn hpiece hc) with hblank | rfl
  · exact hblank
  · exact absurd hc (notMem_of_mem_splitOn hpiece)

section Trim

variable {pieces : List (List Char)}

theorem removeFirst_leading (hpieces : ∀ piece ∈ pieces, '\n' ∉ piece) (hne : pieces ≠ []) :
    ∃ front kept, pieces = front ++ kept ∧ kept ≠ [] ∧
      (∀ piece ∈ front, ∀ c ∈ piece, isBlank c = true) ∧
      removeFirst leadingBlankLines (['\n'].intercalate pieces) = ['\n'].intercalate kept := by
  unfold removeFirst
  split
  · rename_i first last heq
    obtain ⟨⟨passed, hbefore, hafter⟩, hlast, matched, hmatched, hread, -, -⟩ := search_matched heq
    have hnil : first.before = [] := (mem_results_start hlast).1
    rw [hnil, List.append_nil] at hbefore
    have hpassed : passed = [] := List.reverse_eq_nil_iff.mp hbefore.symm
    obtain ⟨hblank, front, rfl⟩ := language_leadingBlankLines hmatched
    rw [hpassed, List.nil_append, hread, List.append_assoc] at hafter
    refine ⟨front.splitOn '\n', last.after.splitOn '\n', ?_, List.splitOn_ne_nil _ _, ?_, ?_⟩
    · exact pieces_of_intercalate_eq hpieces hne hafter
    · intro piece hpiece
      exact blank_of_mem_splitOn (fun c hc => hblank c (List.mem_append_left _ hc)) hpiece
    · rw [hnil, List.intercalate_splitOn]
      rfl
  · exact ⟨[], pieces, rfl, hne, fun _ hpiece => (by cases hpiece), rfl⟩

theorem removeFirst_trailing (hpieces : ∀ piece ∈ pieces, '\n' ∉ piece) (hne : pieces ≠ []) :
    ∃ kept back, pieces = kept ++ back ∧ (∀ piece ∈ back, ∀ c ∈ piece, isBlank c = true) ∧
      removeFirst trailingBlankLines (['\n'].intercalate pieces) = ['\n'].intercalate kept := by
  unfold removeFirst
  split
  · rename_i first last heq
    obtain ⟨⟨passed, hbefore, hafter⟩, hlast, matched, hmatched, hread, -, -⟩ := search_matched heq
    have hend : last.after = [] := mem_results_finish hlast
    rw [List.append_nil] at hbefore
    obtain ⟨hblank, back, rfl⟩ := language_trailingBlankLines hmatched
    rw [hread, hend, List.append_nil] at hafter
    refine ⟨passed.splitOn '\n', back.splitOn '\n', ?_, ?_, ?_⟩
    · exact pieces_of_intercalate_eq hpieces hne hafter
    · intro piece hpiece
      exact blank_of_mem_splitOn (fun c hc => hblank c (List.mem_cons_of_mem _ hc)) hpiece
    · rw [hend, hbefore, List.reverse_reverse, List.append_nil, List.intercalate_splitOn]
  · exact ⟨pieces, [], (List.append_nil _).symm, fun _ hpiece => (by cases hpiece), rfl⟩

end Trim

def UpToBlankLines (lines : List String) (text : String) : Prop :=
  ∃ front kept back, lines = front ++ (kept ++ back) ∧ (∀ line ∈ front, BlankLine line) ∧
    (∀ line ∈ back, BlankLine line) ∧ text = "\n".intercalate kept

theorem intercalate_toList (lines : List String) :
    ("\n".intercalate lines).toList = ['\n'].intercalate (lines.map String.toList) :=
  String.toList_intercalate

theorem intercalate_ofList (pieces : List (List Char)) :
    "\n".intercalate (pieces.map String.ofList) = String.ofList (['\n'].intercalate pieces) := by
  refine String.toList_inj.mp ?_
  rw [intercalate_toList, String.toList_ofList, List.map_map]
  exact congrArg _ ((List.map_congr_left fun piece _ => String.toList_ofList).trans
    (List.map_id _))

theorem upToBlankLines_text {block : Block} (h : ∀ line ∈ block.body, '\n' ∉ line.toList) :
    UpToBlankLines block.body block.text := by
  unfold Block.text
  cases hbody : block.body with
  | nil =>
    refine ⟨[], [], [], rfl, fun _ hline => (by cases hline), fun _ hline => (by cases hline), ?_⟩
    rfl
  | cons line rest =>
    rw [hbody] at h
    have hpieces : ∀ piece ∈ (line :: rest).map String.toList, '\n' ∉ piece :=
      List.forall_mem_map.mpr h
    obtain ⟨front, middle, hsplit, hmiddle, hfront, hleading⟩ :=
      removeFirst_leading hpieces (List.cons_ne_nil _ _)
    have hmiddlePieces : ∀ piece ∈ middle, '\n' ∉ piece := fun piece hpiece =>
      hpieces piece (hsplit ▸ List.mem_append_right _ hpiece)
    obtain ⟨kept, back, hsplit', hback, htrailing⟩ := removeFirst_trailing hmiddlePieces hmiddle
    have hlines : line :: rest =
        front.map String.ofList ++ (kept.map String.ofList ++ back.map String.ofList) := by
      rw [← List.map_append, ← List.map_append, ← hsplit', ← hsplit, List.map_map]
      exact ((List.map_congr_left fun text _ => String.ofList_toList).trans (List.map_id _)).symm
    refine ⟨_, _, _, hlines, ?_, ?_, ?_⟩
    · refine List.forall_mem_map.mpr fun piece hpiece => ?_
      rw [BlankLine, String.toList_ofList]
      exact hfront piece hpiece
    · refine List.forall_mem_map.mpr fun piece hpiece => ?_
      rw [BlankLine, String.toList_ofList]
      exact hback piece hpiece
    · rw [intercalate_ofList, trimBlockBody, intercalate_toList, hleading, htrailing]

/-! ## Fences -/

def runOf (c : Char) (text : List Char) : Nat := (text.takeWhile (· == c)).length

/-- The fence that a line is: at most three blanks and a run of at least three backticks or tildes. -/
def fenceRun (line : List Char) : Option (Char × Nat) :=
  let rest := line.dropWhile (· == ' ')
  if 3 < line.length - rest.length then none
  else
    match rest with
    | [] => none
    | c :: _ => if (c = '`' ∨ c = '~') ∧ 3 ≤ runOf c rest then some (c, runOf c rest) else none

/-- The open fence behind a line: a run of the same character that is as long closes it. -/
def fenceAfter (state : Option (Char × Nat)) (line : String) : Option (Char × Nat) :=
  match state, fenceRun line.toList with
  | none, found => found
  | some (c, n), some (d, m) => if c = d ∧ n ≤ m then none else some (c, n)
  | some opened, none => some opened

/-- The line with this index, from 0 on, lies in a fenced code block. -/
def InFence (lines : List String) (i : Nat) : Prop :=
  ((lines.take i).foldl fenceAfter none).isSome = true

def fencesBefore (lines : List String) (i : Nat) : Nat :=
  (lines.take i).countP fun line => test fence line.toList

section Lines

variable (platform : Platform) (defaultOffset : String)

def ReadsAsHeader (line : String) : Prop :=
  test fence line.toList = false ∧ (readHeader platform defaultOffset line).isSome = true

/-- The line with this index is a header: it reads as one, and it lies in no code. -/
def IsHeader (lines : List String) (i : Nat) : Prop :=
  (∃ line, lines[i]? = some line ∧ ReadsAsHeader platform defaultOffset line) ∧ ¬ InFence lines i

/-- The line loop takes the line with this index for a header. -/
def TakenAsHeader (lines : List String) (i : Nat) : Prop :=
  (∃ line, lines[i]? = some line ∧ ReadsAsHeader platform defaultOffset line) ∧
    Even (fencesBefore lines i)

end Lines

/-! ## The line loop -/

/-- The line with this index is one of the block's body. -/
def Block.Holds (block : Block) (i : Nat) : Prop :=
  block.line ≤ i ∧ i < block.line + block.body.length

structure Covers (platform : Platform) (defaultOffset : String) (lines : List String)
    (blocks : List Block) : Prop where
  /-- The blocks stand behind the lines that are taken as headers. -/
  starts : ∀ i, TakenAsHeader platform defaultOffset lines i ↔
    ∃ block ∈ blocks, block.line = i + 1
  /-- What a block holds are its lines. -/
  bodies : ∀ block ∈ blocks, ∀ i, block.Holds i →
    ∃ line, lines[i]? = some line ∧ block.body[i - block.line]? = some line
  /-- Every line behind the first header is a header or is held. -/
  held : ∀ i < lines.length, ∀ block ∈ blocks, block.line ≤ i →
    TakenAsHeader platform defaultOffset lines i ∨ ∃ block ∈ blocks, block.Holds i
  positive : ∀ block ∈ blocks, 0 < block.line
  within : ∀ block ∈ blocks, block.line + block.body.length ≤ lines.length
  /-- One block is behind the other. -/
  apart : blocks.Pairwise fun a b => a.line + a.body.length < b.line

section Covers

variable {platform : Platform} {defaultOffset : String} {lines : List String} {line : String}
  {blocks : List Block} {block : Block} {i : Nat}

theorem fencesBefore_append (h : i ≤ lines.length) (rest : List String) :
    fencesBefore (lines ++ rest) i = fencesBefore lines i := by
  rw [fencesBefore, fencesBefore, List.take_append_of_le_length h]

theorem fencesBefore_concat :
    fencesBefore (lines ++ [line]) (lines ++ [line]).length =
      fencesBefore lines lines.length + if test fence line.toList then 1 else 0 := by
  rw [fencesBefore, fencesBefore, List.take_length, List.take_length, List.countP_append,
    List.countP_singleton]

theorem takenAsHeader_append (h : i < lines.length) (rest : List String) :
    TakenAsHeader platform defaultOffset (lines ++ rest) i ↔
      TakenAsHeader platform defaultOffset lines i := by
  rw [TakenAsHeader, TakenAsHeader, fencesBefore_append h.le, List.getElem?_append_left h]

theorem takenAsHeader_last :
    TakenAsHeader platform defaultOffset (lines ++ [line]) lines.length ↔
      ReadsAsHeader platform defaultOffset line ∧ Even (fencesBefore lines lines.length) := by
  rw [TakenAsHeader, fencesBefore_append le_rfl, List.getElem?_concat_length]
  simp

theorem TakenAsHeader.lt (h : TakenAsHeader platform defaultOffset lines i) : i < lines.length := by
  obtain ⟨⟨line, hline, -⟩, -⟩ := h
  exact (List.getElem?_eq_some_iff.mp hline).1

theorem takenAsHeader_concat :
    TakenAsHeader platform defaultOffset (lines ++ [line]) i ↔
      TakenAsHeader platform defaultOffset lines i ∨
        i = lines.length ∧ TakenAsHeader platform defaultOffset (lines ++ [line]) lines.length := by
  by_cases hin : i < lines.length
  · rw [takenAsHeader_append hin]
    have hne : i ≠ lines.length := hin.ne
    simp [hne]
  · have hnot : ¬ TakenAsHeader platform defaultOffset lines i := fun h => hin h.lt
    constructor
    · intro h
      have hlt := h.lt
      rw [List.length_append, List.length_singleton] at hlt
      have heq : i = lines.length := by omega
      exact Or.inr ⟨heq, heq ▸ h⟩
    · rintro (h | ⟨rfl, h⟩)
      · exact absurd h hnot
      · exact h

theorem Covers.skip (h : Covers platform defaultOffset lines [])
    (htaken : ¬ TakenAsHeader platform defaultOffset (lines ++ [line]) lines.length) :
    Covers platform defaultOffset (lines ++ [line]) [] where
  starts i := by
    rw [takenAsHeader_concat, h.starts]
    simp [htaken]
  bodies _ hblock := by cases hblock
  held _ _ _ hblock := by cases hblock
  positive _ hblock := by cases hblock
  within _ hblock := by cases hblock
  apart := List.Pairwise.nil

/-- A line that is not taken as a header is one more of the last block. -/
theorem Covers.push (h : Covers platform defaultOffset lines (blocks ++ [block]))
    (hend : block.line + block.body.length = lines.length)
    (htaken : ¬ TakenAsHeader platform defaultOffset (lines ++ [line]) lines.length) :
    Covers platform defaultOffset (lines ++ [line])
      (blocks ++ [{ block with body := block.body ++ [line] }]) where
  starts i := by
    rw [takenAsHeader_concat, h.starts]
    simp [htaken, or_and_right, exists_or]
  bodies other hother i hi := by
    have hprevious : ∀ old ∈ blocks ++ [block], old.Holds i →
        ∃ found, (lines ++ [line])[i]? = some found ∧ old.body[i - old.line]? = some found := by
      intro old hold hi
      obtain ⟨found, hfound, hbody⟩ := h.bodies old hold i hi
      refine ⟨found, ?_, hbody⟩
      rw [List.getElem?_append_left (List.getElem?_eq_some_iff.mp hfound).1]
      exact hfound
    rcases List.mem_append.mp hother with hother | hother
    · exact hprevious other (List.mem_append_left _ hother) hi
    · cases List.mem_singleton.mp hother
      obtain ⟨hle, hless⟩ := hi
      dsimp only at hle hless
      rw [List.length_append, List.length_singleton] at hless
      by_cases hlast : i = lines.length
      · have hindex : i - block.line = block.body.length := by omega
        refine ⟨line, ?_, ?_⟩
        · rw [hlast]
          exact List.getElem?_concat_length
        · dsimp only
          rw [hindex]
          exact List.getElem?_concat_length
      · obtain ⟨found, hfound, hbody⟩ := hprevious block (by simp) ⟨hle, by omega⟩
        refine ⟨found, hfound, ?_⟩
        rw [List.getElem?_append_left (List.getElem?_eq_some_iff.mp hbody).1]
        exact hbody
  held i hi other hother hle := by
    rw [List.length_append, List.length_singleton] at hi
    by_cases hlast : i = lines.length
    · refine Or.inr ⟨_, List.mem_append_right _ List.mem_cons_self, ?_⟩
      rw [Block.Holds, List.length_append, List.length_singleton]
      dsimp only
      omega
    · obtain ⟨old, hold, hlow⟩ : ∃ old ∈ blocks ++ [block], old.line ≤ i := by
        rcases List.mem_append.mp hother with hother | hother
        · exact ⟨other, List.mem_append_left _ hother, hle⟩
        · cases List.mem_singleton.mp hother
          exact ⟨block, by simp, hle⟩
      rcases h.held i (by omega) old hold hlow with htaken | ⟨holder, hholder, hlow, hhigh⟩
      · exact Or.inl (takenAsHeader_concat.mpr (Or.inl htaken))
      · rcases List.mem_append.mp hholder with hholder | hholder
        · exact Or.inr ⟨holder, List.mem_append_left _ hholder, hlow, hhigh⟩
        · cases List.mem_singleton.mp hholder
          refine Or.inr ⟨_, List.mem_append_right _ List.mem_cons_self, hlow, ?_⟩
          rw [List.length_append]
          dsimp only
          omega
  positive other hother := by
    rcases List.mem_append.mp hother with hother | hother
    · exact h.positive other (List.mem_append_left _ hother)
    · cases List.mem_singleton.mp hother
      exact h.positive block (by simp)
  within other hother := by
    rw [List.length_append, List.length_singleton]
    rcases List.mem_append.mp hother with hother | hother
    · exact Nat.le_succ_of_le (h.within other (List.mem_append_left _ hother))
    · cases List.mem_singleton.mp hother
      rw [List.length_append, List.length_singleton]
      dsimp only
      omega
  apart := by
    have hapart := List.pairwise_append.mp h.apart
    refine List.pairwise_append.mpr ⟨hapart.1, List.pairwise_singleton _ _, fun a ha b hb => ?_⟩
    cases List.mem_singleton.mp hb
    exact hapart.2.2 a ha block List.mem_cons_self

theorem Covers.start (h : Covers platform defaultOffset lines blocks)
    (htaken : TakenAsHeader platform defaultOffset (lines ++ [line]) lines.length)
    (hline : block.line = lines.length + 1) (hbody : block.body = []) :
    Covers platform defaultOffset (lines ++ [line]) (blocks ++ [block]) where
  starts i := by
    rw [takenAsHeader_concat, h.starts]
    simp [htaken, or_and_right, exists_or, hline, eq_comm]
  bodies other hother i hi := by
    rcases List.mem_append.mp hother with hother | hother
    · obtain ⟨found, hfound, hheld⟩ := h.bodies other hother i hi
      refine ⟨found, ?_, hheld⟩
      rw [List.getElem?_append_left (List.getElem?_eq_some_iff.mp hfound).1]
      exact hfound
    · cases List.mem_singleton.mp hother
      obtain ⟨hle, hless⟩ := hi
      rw [hbody, List.length_nil] at hless
      omega
  held i hi other hother hle := by
    rw [List.length_append, List.length_singleton] at hi
    by_cases hlast : i = lines.length
    · exact Or.inl (hlast ▸ htaken)
    · rcases List.mem_append.mp hother with hother | hother
      · rcases h.held i (by omega) other hother hle with htaken | ⟨holder, hholder, hholds⟩
        · exact Or.inl (takenAsHeader_concat.mpr (Or.inl htaken))
        · exact Or.inr ⟨holder, List.mem_append_left _ hholder, hholds⟩
      · cases List.mem_singleton.mp hother
        omega
  positive other hother := by
    rcases List.mem_append.mp hother with hother | hother
    · exact h.positive other hother
    · cases List.mem_singleton.mp hother
      omega
  within other hother := by
    rw [List.length_append, List.length_singleton]
    rcases List.mem_append.mp hother with hother | hother
    · exact Nat.le_succ_of_le (h.within other hother)
    · cases List.mem_singleton.mp hother
      rw [hbody, List.length_nil]
      omega
  apart := by
    refine List.pairwise_append.mpr ⟨h.apart, List.pairwise_singleton _ _, fun a ha b hb => ?_⟩
    cases List.mem_singleton.mp hb
    have hwithin := h.within a ha
    omega

end Covers

/-- Where the line loop is behind some lines, as long as every header has an author. -/
structure Loop (platform : Platform) (defaultOffset : String) (lines : List String)
    (reading : Reading) : Prop where
  toggled : reading.insideFence = true ↔ ¬ Even (fencesBefore lines lines.length)
  covers : Covers platform defaultOffset lines reading.allBlocks
  current : ∀ block, reading.current = some block → block.line + block.body.length = lines.length
  opened : reading.current = none → reading.blocks = []

section Loop

variable {platform : Platform} {defaultOffset : String} {lines : List String} {line : String}
  {reading : Reading}

theorem Loop.push (h : Loop platform defaultOffset lines reading) (inside : Bool)
    (htaken : ¬ TakenAsHeader platform defaultOffset (lines ++ [line]) lines.length)
    (hinside : inside = true ↔
      ¬ Even (fencesBefore (lines ++ [line]) (lines ++ [line]).length)) :
    Loop platform defaultOffset (lines ++ [line])
      ({ reading with insideFence := inside }.push line) := by
  obtain ⟨blocks, current, insideFence, issues⟩ := reading
  have hcovers := h.covers
  cases current with
  | none =>
    have hblocks : blocks = [] := h.opened rfl
    subst hblocks
    exact ⟨hinside, hcovers.skip htaken, fun _ hnone => (by cases hnone), fun _ => rfl⟩
  | some block =>
    have hend := h.current block rfl
    refine ⟨hinside, hcovers.push hend htaken, ?_, fun hnone => (by cases hnone)⟩
    rintro _ ⟨⟩
    dsimp only
    rw [List.length_append, List.length_append, ← hend]
    exact (Nat.add_assoc _ _ _).symm

theorem Loop.start (h : Loop platform defaultOffset lines reading) {header : Header}
    (htaken : TakenAsHeader platform defaultOffset (lines ++ [line]) lines.length)
    (hfence : test fence line.toList = false)
    (hissues : (reading.start (lines.length + 1) header).issues = []) :
    Loop platform defaultOffset (lines ++ [line]) (reading.start (lines.length + 1) header) := by
  have hinside : reading.insideFence = true ↔
      ¬ Even (fencesBefore (lines ++ [line]) (lines ++ [line]).length) := by
    rw [fencesBefore_concat, hfence]
    exact h.toggled
  unfold Reading.start at hissues ⊢
  dsimp only at hissues ⊢
  split at hissues
  · exact absurd hissues (by simp)
  · rename_i hauthor
    rw [if_neg hauthor]
    refine ⟨hinside, h.covers.start htaken rfl rfl, ?_, fun hnone => (by cases hnone)⟩
    rintro _ ⟨⟩
    rw [List.length_append]
    rfl

/-- One line. -/
theorem Loop.step (h : Loop platform defaultOffset lines reading)
    (hissues : (reading.step platform defaultOffset (lines.length + 1) line).issues = []) :
    Loop platform defaultOffset (lines ++ [line])
      (reading.step platform defaultOffset (lines.length + 1) line) := by
  unfold Reading.step at hissues ⊢
  split at hissues
  · rename_i hfence
    rw [if_pos hfence]
    refine h.push _ ?_ ?_
    · rw [takenAsHeader_last, ReadsAsHeader, hfence]
      simp
    · rw [fencesBefore_concat, if_pos hfence, Nat.even_add_one, not_not, Bool.not_eq_true',
        ← Bool.not_eq_true, h.toggled, not_not]
  · rename_i hfence
    have hfence' := Bool.eq_false_of_not_eq_true hfence
    rw [if_neg hfence]
    have hsame : reading.insideFence = true ↔
        ¬ Even (fencesBefore (lines ++ [line]) (lines ++ [line]).length) := by
      rw [fencesBefore_concat, hfence']
      exact h.toggled
    split at hissues
    · rename_i hinside
      rw [if_pos hinside]
      refine h.push reading.insideFence ?_ hsame
      rw [takenAsHeader_last, not_and]
      exact fun _ => h.toggled.mp hinside
    · rename_i hinside
      rw [if_neg hinside]
      have heven : Even (fencesBefore lines lines.length) :=
        not_not.mp (fun hodd => hinside (h.toggled.mpr hodd))
      split at hissues
      · rename_i hheader
        refine h.push reading.insideFence ?_ hsame
        rw [takenAsHeader_last, ReadsAsHeader, hheader]
        simp
      · rename_i header hheader
        have htaken : TakenAsHeader platform defaultOffset (lines ++ [line]) lines.length := by
          rw [takenAsHeader_last, ReadsAsHeader, hheader]
          exact ⟨⟨hfence', rfl⟩, heven⟩
        exact h.start htaken hfence' hissues

theorem step_issues (platform : Platform) (defaultOffset : String) (reading : Reading) (n : Nat)
    (line : String) : ∃ found, (reading.step platform defaultOffset n line).issues = reading.issues ++ found := by
  unfold Reading.step
  split
  · exact ⟨[], (List.append_nil _).symm⟩
  split
  · exact ⟨[], (List.append_nil _).symm⟩
  split
  · exact ⟨[], (List.append_nil _).symm⟩
  · unfold Reading.start
    dsimp only
    split
    · exact ⟨_, List.append_assoc _ _ _⟩
    · exact ⟨_, rfl⟩

theorem run_issues (platform : Platform) (defaultOffset : String) (reading : Reading) (n : Nat)
    (rest : List String) : ∃ found, (reading.run platform defaultOffset n rest).issues = reading.issues ++ found := by
  induction rest generalizing reading n with
  | nil => exact ⟨[], (List.append_nil _).symm⟩
  | cons line rest ih =>
    obtain ⟨first, hfirst⟩ := step_issues platform defaultOffset reading n line
    obtain ⟨found, hfound⟩ := ih (reading.step platform defaultOffset n line) (n + 1)
    refine ⟨first ++ found, ?_⟩
    rw [Reading.run, hfound, hfirst, List.append_assoc]

theorem Loop.run (h : Loop platform defaultOffset lines reading) (rest : List String)
    (hissues : (reading.run platform defaultOffset (lines.length + 1) rest).issues = []) :
    Loop platform defaultOffset (lines ++ rest)
      (reading.run platform defaultOffset (lines.length + 1) rest) := by
  induction rest generalizing lines reading with
  | nil =>
    rw [List.append_nil]
    exact h
  | cons line rest ih =>
    rw [Reading.run] at hissues ⊢
    obtain ⟨found, hfound⟩ := run_issues platform defaultOffset
      (reading.step platform defaultOffset (lines.length + 1) line) (lines.length + 1 + 1) rest
    rw [hissues] at hfound
    have hstep := h.step (List.append_eq_nil_iff.mp hfound.symm).1
    have hlength : (lines ++ [line]).length + 1 = lines.length + 1 + 1 := by
      rw [List.length_append, List.length_singleton]
    rw [← hlength] at hissues ⊢
    have hrun := ih hstep hissues
    rwa [List.append_assoc] at hrun

theorem covers_readBlocks {source : String} {options : MarkdownOptions}
    (h : (readBlocks platform source options).issues = []) :
    Covers platform options.defaultOffset (documentLines source)
      (readBlocks platform source options).allBlocks := by
  have hnone (i : Nat) : ¬ TakenAsHeader platform options.defaultOffset [] i := fun htaken =>
    Nat.not_lt_zero i htaken.lt
  have hstart : Loop platform options.defaultOffset [] {} := by
    refine ⟨by simp [fencesBefore], ⟨fun i => ?_, ?_, ?_, ?_, ?_, List.Pairwise.nil⟩, ?_, ?_⟩
    · simpa [Reading.allBlocks] using hnone i
    · intro block hblock
      cases hblock
    · intro i hi
      cases hi
    · intro block hblock
      cases hblock
    · intro block hblock
      cases hblock
    · intro block hblock
      cases hblock
    · exact fun _ => rfl
  exact (hstart.run (documentLines source) h).covers

end Loop

/-! ## Messages -/

section Emission

variable [Unicode] {platform : Platform}

theorem emit_eq {sourceId : String} {width : Nat} {defaultTs previousTs : Option Timestamp}
    {ordinal : Nat} {blocks : List Block}
    (h : (emit platform sourceId width defaultTs ordinal previousTs blocks).1 = []) :
    List.Forall₂ (fun block (message : IngestMessage) => message.author = block.author ∧
        message.text = block.text) blocks
      ((emit platform sourceId width defaultTs ordinal previousTs blocks).2.map Emitted.message) := by
  induction blocks generalizing ordinal previousTs with
  | nil => exact List.Forall₂.nil
  | cons block rest ih =>
    unfold emit at h ⊢
    split at h
    · cases h
    · dsimp only at h ⊢
      split at h
      · cases h
      · dsimp only
        exact List.Forall₂.cons ⟨rfl, rfl⟩ (ih h)

theorem markdownToMessages_ok {source : String} {options : MarkdownOptions}
    {messages : List IngestMessage}
    (h : markdownToMessages platform source options = .ok messages) :
    (readBlocks platform source options).issues = [] ∧
      (readBlocks platform source options).allBlocks ≠ [] ∧
      List.Forall₂ (fun block (message : IngestMessage) => message.author = block.author ∧
        message.text = block.text) (readBlocks platform source options).allBlocks messages := by
  unfold markdownToMessages at h
  dsimp only at h
  split at h
  · cases h
  · rename_i hblocks
    split at h
    · rename_i hissues
      obtain rfl := Except.ok.inj h
      have hnil := List.isEmpty_iff.mp hissues
      simp only [List.append_eq_nil_iff] at hnil
      obtain ⟨⟨⟨-, hread⟩, hemit⟩, -⟩ := hnil
      exact ⟨hread, fun hempty => hblocks (List.isEmpty_iff.mpr hempty), emit_eq hemit⟩
    · cases h

end Emission

/-! ## Code never speaks -/

section Silence

variable (platform : Platform) (defaultOffset : String) (lines : List String)

/-- No block starts in a fenced code block, and every line behind the first header that is not one
itself is held, unchanged and in its place, by exactly one block, whose message has its lines up to
blank ones at the ends. -/
structure CodeIsSilent (blocks : List Block) (messages : List IngestMessage) : Prop where
  silent : ∀ block ∈ blocks, ¬ InFence lines (block.line - 1)
  held : ∀ i < lines.length, (∃ first < i, IsHeader platform defaultOffset lines first) →
    ¬ IsHeader platform defaultOffset lines i → ∃! block, block ∈ blocks ∧ block.Holds i
  unchanged : ∀ block ∈ blocks, ∀ i, block.Holds i →
    ∃ line, lines[i]? = some line ∧ block.body[i - block.line]? = some line
  texts : List.Forall₂ (fun block (message : IngestMessage) =>
    UpToBlankLines block.body message.text) blocks messages

/-- What reads as a header and lies in a fenced code block has an odd number of fence lines before
it, and the first header that lies in none has an even number. -/
structure FencesAgree : Prop where
  inside : ∀ i line, lines[i]? = some line → ReadsAsHeader platform defaultOffset line →
    InFence lines i → ¬ Even (fencesBefore lines i)
  first : ∀ i, IsHeader platform defaultOffset lines i →
    (∀ j < i, ¬ IsHeader platform defaultOffset lines j) → Even (fencesBefore lines i)

end Silence

section Claim

variable {platform : Platform} {defaultOffset : String} {lines : List String} {i j : Nat}

theorem fencesBefore_succ {line : String} (h : lines[i]? = some line) :
    fencesBefore lines (i + 1) =
      fencesBefore lines i + if test fence line.toList then 1 else 0 := by
  obtain ⟨hi, rfl⟩ := List.getElem?_eq_some_iff.mp h
  rw [fencesBefore, fencesBefore, List.take_add_one, h, List.countP_append, Option.toList_some,
    List.countP_singleton]

theorem exists_fence_between (hle : i ≤ j) (hj : j ≤ lines.length)
    (hne : fencesBefore lines i ≠ fencesBefore lines j) :
    ∃ k line, i ≤ k ∧ k < j ∧ lines[k]? = some line ∧ test fence line.toList = true := by
  induction j, hle using Nat.le_induction with
  | base => exact absurd rfl hne
  | succ j hij ih =>
    have hline : lines[j]? = some lines[j] := List.getElem?_eq_getElem hj
    rw [fencesBefore_succ hline] at hne
    cases hfence : test fence lines[j].toList with
    | true => exact ⟨j, lines[j], hij, Nat.lt_succ_self j, hline, hfence⟩
    | false =>
      rw [hfence] at hne
      obtain ⟨k, line, hik, hkj, hk, htest⟩ := ih (Nat.le_of_succ_le hj) hne
      exact ⟨k, line, hik, Nat.lt_succ_of_lt hkj, hk, htest⟩

theorem not_isHeader_of_fence {line : String} (h : lines[i]? = some line)
    (hfence : test fence line.toList = true) : ¬ IsHeader platform defaultOffset lines i := by
  rintro ⟨⟨other, hother, hreads, -⟩, -⟩
  cases h.symm.trans hother
  rw [hfence] at hreads
  cases hreads

theorem exists_first_header (h : IsHeader platform defaultOffset lines i) :
    ∃ first ≤ i, IsHeader platform defaultOffset lines first ∧
      ∀ j < first, ¬ IsHeader platform defaultOffset lines j := by
  classical
  have hexists : ∃ j, IsHeader platform defaultOffset lines j := ⟨i, h⟩
  exact ⟨Nat.find hexists, Nat.find_le h, Nat.find_spec hexists, fun j hj => Nat.find_min hexists hj⟩

theorem Covers.unique {blocks : List Block} {a b : Block}
    (h : Covers platform defaultOffset lines blocks) (ha : a ∈ blocks) (hb : b ∈ blocks)
    (hai : a.Holds i) (hbi : b.Holds i) : a = b := by
  obtain ⟨n, hn, rfl⟩ := List.getElem_of_mem ha
  obtain ⟨m, hm, rfl⟩ := List.getElem_of_mem hb
  obtain ⟨hlow, hhigh⟩ := hai
  obtain ⟨hlow', hhigh'⟩ := hbi
  have hapart := List.pairwise_iff_getElem.mp h.apart
  rcases lt_trichotomy n m with hlt | rfl | hgt
  · have hbehind := hapart n m hn hm hlt
    omega
  · rfl
  · have hbehind := hapart m n hm hn hgt
    omega

theorem Covers.taken {blocks : List Block} {block : Block}
    (h : Covers platform defaultOffset lines blocks) (hblock : block ∈ blocks) :
    TakenAsHeader platform defaultOffset lines (block.line - 1) := by
  have hpositive := h.positive block hblock
  exact (h.starts _).mpr ⟨block, hblock, by omega⟩

theorem codeIsSilent_of_agree {blocks : List Block} {messages : List IngestMessage}
    (h : Covers platform defaultOffset lines blocks)
    (htexts : List.Forall₂ (fun block (message : IngestMessage) =>
      UpToBlankLines block.body message.text) blocks messages)
    (hagree : FencesAgree platform defaultOffset lines) :
    CodeIsSilent platform defaultOffset lines blocks messages where
  silent block hblock hinside := by
    obtain ⟨⟨line, hline, hreads⟩, heven⟩ := h.taken hblock
    exact hagree.inside _ line hline hreads hinside heven
  held i hi hbehind hnot := by
    obtain ⟨header, hlt, hheader⟩ := hbehind
    obtain ⟨first, hle, hfirst, hmin⟩ := exists_first_header hheader
    obtain ⟨block, hblock, hline⟩ := (h.starts first).mp ⟨hfirst.1, hagree.first first hfirst hmin⟩
    rcases h.held i hi block hblock (by omega) with htaken | ⟨holder, hholder, hholds⟩
    · obtain ⟨⟨line, hline, hreads⟩, heven⟩ := htaken
      exact absurd ⟨⟨line, hline, hreads⟩, fun hinside =>
        hagree.inside i line hline hreads hinside heven⟩ hnot
    · exact ⟨holder, ⟨hholder, hholds⟩, fun other hother =>
        h.unique hother.1 hholder hother.2 hholds⟩
  unchanged := h.bodies
  texts := htexts

theorem agree_of_codeIsSilent {blocks : List Block} {messages : List IngestMessage}
    (h : Covers platform defaultOffset lines blocks) (hne : blocks ≠ [])
    (hsilent : CodeIsSilent platform defaultOffset lines blocks messages) :
    FencesAgree platform defaultOffset lines where
  inside i line hline hreads hinside heven := by
    obtain ⟨block, hblock, hstart⟩ := (h.starts i).mp ⟨⟨line, hline, hreads⟩, heven⟩
    have hindex : block.line - 1 = i := by omega
    exact hsilent.silent block hblock (hindex ▸ hinside)
  first i hheader hmin := by
    by_contra hodd
    obtain ⟨block, rest, rfl⟩ := List.exists_cons_of_ne_nil hne
    have htaken := h.taken List.mem_cons_self
    have hpositive := h.positive block List.mem_cons_self
    have hstart : IsHeader platform defaultOffset lines (block.line - 1) :=
      ⟨htaken.1, hsilent.silent block List.mem_cons_self⟩
    have hle : i ≤ block.line - 1 := by
      by_contra hlt
      exact hmin _ (not_le.mp hlt) hstart
    -- the number of fence lines changes from odd to even on the way to the first block
    obtain ⟨k, line, hik, hkj, hk, hfence⟩ := exists_fence_between hle htaken.lt.le
      fun heq => hodd (heq ▸ htaken.2)
    have hnot : ¬ IsHeader platform defaultOffset lines k := not_isHeader_of_fence hk hfence
    have hlt : i < k := lt_of_le_of_ne hik fun heq => hnot (heq ▸ hheader)
    obtain ⟨holder, ⟨hholder, hlow, -⟩, -⟩ := hsilent.held k
      (List.getElem?_eq_some_iff.mp hk).1 ⟨i, hlt, hheader⟩ hnot
    rcases List.mem_cons.mp hholder with rfl | hholder
    · omega
    · have hapart := (List.pairwise_cons.mp h.apart).1 holder hholder
      omega

end Claim

theorem newline_notMem_documentLines {source line : String} (h : line ∈ documentLines source) :
    '\n' ∉ line.toList := by
  obtain ⟨piece, hpiece, rfl⟩ := List.mem_map.mp h
  rw [String.toList_ofList]
  exact notMem_of_mem_splitOn hpiece

theorem Covers.newline_notMem {platform : Platform} {source defaultOffset : String}
    {blocks : List Block}
    (h : Covers platform defaultOffset (documentLines source) blocks) {block : Block}
    (hblock : block ∈ blocks) : ∀ line ∈ block.body, '\n' ∉ line.toList := by
  intro line hline
  obtain ⟨n, hn, rfl⟩ := List.getElem_of_mem hline
  obtain ⟨found, hfound, hbody⟩ := h.bodies block hblock (block.line + n)
    ⟨Nat.le_add_right _ _, Nat.add_lt_add_left hn _⟩
  rw [Nat.add_sub_cancel_left, List.getElem?_eq_getElem hn] at hbody
  cases hbody
  exact newline_notMem_documentLines (List.mem_of_getElem? hfound)

/-- In a transcript that is converted, no line in a fenced code block starts a message and every
other line behind the first header is, unchanged and in order, in one message, exactly when every
line that reads as a header in a fenced code block has an odd number of fence lines before it, and
the first header outside of them an even number. -/
theorem code_is_silent_iff [Unicode] (platform : Platform) (source : String)
    (options : MarkdownOptions) (messages : List IngestMessage)
    (h : markdownToMessages platform source options = .ok messages) :
    CodeIsSilent platform options.defaultOffset (documentLines source)
        (readBlocks platform source options).allBlocks messages ↔
      FencesAgree platform options.defaultOffset (documentLines source) := by
  obtain ⟨hissues, hne, hmessages⟩ := markdownToMessages_ok h
  have hcovers := covers_readBlocks hissues
  refine ⟨agree_of_codeIsSilent hcovers hne, codeIsSilent_of_agree hcovers ?_⟩
  refine List.forall₂_iff_get.mpr ⟨hmessages.length_eq, fun n hn hn' => ?_⟩
  rw [((List.forall₂_iff_get.mp hmessages).2 n hn hn').2]
  exact upToBlankLines_text (hcovers.newline_notMem (List.get_mem _ _))

/-- A platform that reads every time as the first of January 2026. -/
def newYear : Platform where
  parseUrl _ := none
  readUrl _ := none
  parseDate _ := some 1767225600000
  syntaxError _ := ""

/-- A transcript that quotes a header in a plain fence. -/
def quotedHeader : String :=
  "## ada 2026-01-01T00:00:00Z\n```\n## bob 2026-01-01T00:00:00Z\n```\nhello"

def said (ordinal author text : String) : IngestMessage where
  id := "md:transcript:" ++ ordinal
  author := author
  ts := "2026-01-01T00:00:00.000Z"
  text := text

theorem quotedHeader_silent :
    let _ : Unicode := Unicode.ascii
    CodeIsSilent newYear "Z" (documentLines quotedHeader)
      (readBlocks newYear quotedHeader {}).allBlocks
      [said "0001" "ada" "```\n## bob 2026-01-01T00:00:00Z\n```\nhello"] := by
  let _ : Unicode := Unicode.ascii
  have hlines : documentLines quotedHeader = ["## ada 2026-01-01T00:00:00Z", "```",
      "## bob 2026-01-01T00:00:00Z", "```", "hello"] := by
    decide +kernel
  have hodd : ∀ i < 5, InFence (documentLines quotedHeader) i ↔
      ¬ Even (fencesBefore (documentLines quotedHeader) i) := by
    rw [hlines]
    unfold InFence
    decide +kernel
  have hshort : ∀ i line, (documentLines quotedHeader)[i]? = some line → i < 5 := by
    rw [hlines]
    exact fun i line hline => (List.getElem?_eq_some_iff.mp hline).1
  refine (code_is_silent_iff newYear quotedHeader {} _ (by decide +kernel)).mpr
    ⟨fun i line hline _ => (hodd i (hshort i line hline)).mp, fun i hheader _ => ?_⟩
  obtain ⟨⟨line, hline, -⟩, hplain⟩ := hheader
  by_contra hcount
  exact hplain ((hodd i (hshort i line hline)).mpr hcount)

/-- A transcript with a fence of three backticks in one of four. -/
def nestedFence : String :=
  "## ada 2026-01-01T00:00:00Z\n````\n```\n## bob 2026-01-01T00:00:00Z\n```\n````"

theorem nestedFence_speaks :
    let _ : Unicode := Unicode.ascii
    markdownToMessages newYear nestedFence {} =
        .ok [said "0001" "ada" "````\n```", said "0002" "bob" "```\n````"] ∧
      InFence (documentLines nestedFence) 3 ∧
      ¬ CodeIsSilent newYear "Z" (documentLines nestedFence)
        (readBlocks newYear nestedFence {}).allBlocks
        [said "0001" "ada" "````\n```", said "0002" "bob" "```\n````"] := by
  intro _
  have hinside : InFence (documentLines nestedFence) 3 := by
    unfold InFence
    decide +kernel
  refine ⟨by decide +kernel, hinside, fun hsilent => ?_⟩
  refine hsilent.silent ⟨4, "bob", some "2026-01-01T00:00:00.000Z", none, ["```", "````"]⟩ ?_ hinside
  decide +kernel

end Ingest
