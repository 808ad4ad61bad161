import AtriumVerified.Ci.ShellSyntax

/-!
# Work in the background

The parser keeps one start for each open parenthesis, and every separator moves it. So an `&` takes
with it what is behind the last separator on its level of parentheses, whatever element of a list it
ends.
-/

namespace Ci

/-! ## Simple commands -/

section Simple

variable {parser : Parser} {rest : List Token}

theorem definition?_eq_none {word : Word} (hword : word.value ≠ "function")
    (hrest : rest.head? ≠ some (.op "(")) : definition? word rest = none := by
  unfold definition?
  split
  · exact absurd rfl hrest
  · rw [if_neg hword]
  · rfl

/-- The parser reads a word or a redirection into the current command. -/
structure Parser.Reads (parser : Parser) : Prop where
  pendingRedirect : parser.pendingRedirect = none
  discarding : parser.discarding = false

def Parser.holding (parser : Parser) (command : Command) : Parser :=
  { parser with current := command }

theorem Parser.Reads.holding (h : parser.Reads) (command : Command) :
    (parser.holding command).Reads := ⟨h.pendingRedirect, h.discarding⟩

theorem Parser.Reads.parts (h : parser.Reads) : ∃ commands functions listStarts listStart current,
    parser = ⟨commands, functions, listStarts, listStart, current, none, false⟩ := by
  obtain ⟨commands, functions, listStarts, listStart, current, pendingRedirect, discarding⟩ := parser
  obtain rfl : pendingRedirect = none := h.pendingRedirect
  obtain rfl : discarding = false := h.discarding
  exact ⟨_, _, _, _, _, rfl⟩

theorem run_redirection (h : parser.Reads) {op : String} {target : Word}
    (hop : redirects.contains op = true) :
    parser.run 0 (.op op :: .word target :: rest) =
      (parser.holding (parser.current.add (.redirection op target))).run 0 rest := by
  obtain ⟨commands, functions, listStarts, listStart, current, rfl⟩ := h.parts
  rw [Parser.run, Parser.operator, if_pos hop, Parser.run]
  rfl

theorem run_argument (h : parser.Reads) {word : Word} (hwords : parser.current.words ≠ []) :
    parser.run 0 (.word word :: rest) =
      (parser.holding (parser.current.add (.word word))).run 0 rest := by
  obtain ⟨commands, functions, listStarts, listStart, current, rfl⟩ := h.parts
  simp only [Parser.run, Bool.false_eq_true, if_false, if_neg hwords, Parser.word, Parser.push,
    Command.add, Parser.holding]

theorem run_word (h : parser.Reads) {word : Word} (hwords : parser.current.words = [])
    (hreserved : word.isReserved = false) (hrest : rest.head? ≠ some (.op "(")) :
    parser.run 0 (.word word :: rest) =
      (parser.holding (parser.current.add (.word word))).run 0 rest := by
  unfold Word.isReserved at hreserved
  simp only [Bool.or_eq_false_iff, beq_eq_false_iff_ne, ne_eq] at hreserved
  obtain ⟨⟨hkeyword, hclause⟩, hfunction⟩ := hreserved
  have hassignment : (if word.expandable then none else Ci.assignment? word.value) =
    word.assignment? := rfl
  obtain ⟨commands, functions, listStarts, listStart, current, rfl⟩ := h.parts
  simp only [Parser.run, Bool.false_eq_true, if_false, if_pos hwords,
    definition?_eq_none hfunction hrest, Parser.word, hkeyword, hclause, hassignment, Parser.push,
    Command.add, Parser.holding]
  cases word.assignment? with
  | none => rfl
  | some assignment => rfl

theorem add_isSubstantial (command : Command) (part : Part) :
    (command.add part).isSubstantial = true := by
  unfold Command.add Command.isSubstantial
  cases part with
  | redirection op target => simp
  | word word =>
    dsimp only
    split
    · simp
    · simp

theorem add_words_of_word {command : Command} {part : Part} (h : command.words ≠ []) :
    (command.add part).words ≠ [] := by
  unfold Command.add
  cases part with
  | redirection op target => exact h
  | word word => simp [h]

theorem foldl_add_isSubstantial {command : Command} {parts : List Part}
    (h : command.isSubstantial = true ∨ parts ≠ []) :
    (parts.foldl Command.add command).isSubstantial = true := by
  induction parts generalizing command with
  | nil => exact h.resolve_right fun hne => hne rfl
  | cons part parts ih => exact ih (Or.inl (add_isSubstantial command part))

theorem foldl_add_background (command : Command) (parts : List Part) :
    (parts.foldl Command.add command).background = command.background := by
  induction parts generalizing command with
  | nil => rfl
  | cons part parts ih =>
    rw [List.foldl_cons, ih]
    unfold Command.add
    cases part with
    | redirection op target => rfl
    | word word =>
      dsimp only
      split
      · rfl
      · rfl

theorem Simple.isSubstantial (simple : Simple) : simple.command.isSubstantial = true :=
  foldl_add_isSubstantial (Or.inr simple.nonempty)

theorem head_tokens {parts : List Part} (hparts : parts.all Part.isPlain = true)
    (hrest : rest.head? ≠ some (.op "(")) :
    (parts.flatMap Part.tokens ++ rest).head? ≠ some (.op "(") := by
  cases parts with
  | nil => exact hrest
  | cons part parts =>
    cases part with
    | word word => simp [Part.tokens]
    | redirection op target =>
      rw [List.all_cons, Bool.and_eq_true] at hparts
      have hparen : ¬ redirects.contains "(" = true := by decide
      have hop : op ≠ "(" := by
        rintro rfl
        exact hparen hparts.1
      simp [Part.tokens, hop]

theorem isSimple_plain {parts : List Part} (h : isSimple parts = true) :
    parts.all Part.isPlain = true := by
  induction parts with
  | nil => rfl
  | cons part parts ih =>
    cases part with
    | redirection op target =>
      rw [isSimple, Bool.and_eq_true] at h
      rw [List.all_cons, Bool.and_eq_true]
      exact ⟨h.1, ih h.2⟩
    | word word =>
      rw [isSimple, Bool.and_eq_true] at h
      rw [List.all_cons, Bool.and_eq_true]
      refine ⟨rfl, ?_⟩
      have hrest := h.2
      split at hrest
      · exact ih hrest
      · exact hrest

theorem run_arguments (h : parser.Reads) {parts : List Part}
    (hparts : parts.all Part.isPlain = true) (hwords : parser.current.words ≠ []) :
    parser.run 0 (parts.flatMap Part.tokens ++ rest) =
      (parser.holding (parts.foldl Command.add parser.current)).run 0 rest := by
  induction parts generalizing parser with
  | nil => rfl
  | cons part parts ih =>
    rw [List.all_cons, Bool.and_eq_true] at hparts
    have hstep := ih (h.holding (parser.current.add part)) hparts.2 (add_words_of_word hwords)
    rw [List.flatMap_cons, List.append_assoc, List.foldl_cons]
    cases part with
    | word word => exact (run_argument h hwords).trans hstep
    | redirection op target => exact (run_redirection h hparts.1).trans hstep

theorem run_parts (h : parser.Reads) {parts : List Part} (hparts : isSimple parts = true)
    (hwords : parser.current.words = []) (hrest : rest.head? ≠ some (.op "(")) :
    parser.run 0 (parts.flatMap Part.tokens ++ rest) =
      (parser.holding (parts.foldl Command.add parser.current)).run 0 rest := by
  induction parts generalizing parser with
  | nil => rfl
  | cons part parts ih =>
    rw [List.flatMap_cons, List.append_assoc, List.foldl_cons]
    have hplain := isSimple_plain hparts
    rw [List.all_cons, Bool.and_eq_true] at hplain
    have hhead := head_tokens hplain.2 hrest
    cases part with
    | redirection op target =>
      rw [isSimple, Bool.and_eq_true] at hparts
      exact (run_redirection h hparts.1).trans (ih (h.holding _) hparts.2 hwords)
    | word word =>
      rw [isSimple, Bool.and_eq_true, Bool.not_eq_true'] at hparts
      refine (run_word h hwords hparts.1 hhead).trans ?_
      have hrestParts := hparts.2
      cases hassignment : word.assignment? with
      | some assignment =>
        rw [hassignment] at hrestParts
        refine ih (h.holding _) hrestParts ?_
        simp [Parser.holding, Command.add, hwords, hassignment]
      | none =>
        refine run_arguments (h.holding _) hplain.2 ?_
        simp [Parser.holding, Command.add, hwords, hassignment]

end Simple

/-! ## Pieces -/

/-- The command that a piece makes. A word of a pattern is taken for one unless it is reserved. -/
def Piece.command? : Piece → Option Command
  | .simple command _ => some command.command
  | .pattern word =>
    if keywords.contains word.value || clauseKeywords.contains word.value then none
    else some (Command.add {} (.word word))
  | _ => none

def Parser.piece (parser : Parser) : Piece → Parser
  | .op op => parser.operator op
  | piece => { parser with commands := parser.commands ++ piece.command?.toList }

/-- Behind a command comes an operator that ends it, or nothing. -/
def Stops : List Piece → Prop
  | [] => True
  | .op op :: _ => op ≠ "(" ∧ redirects.contains op = false
  | _ => False

def StopsClause : List Piece → Prop
  | [] => True
  | .op op :: _ => redirects.contains op = false
  | _ => False

def NoPair : List Piece → Prop
  | .op "(" :: .op ")" :: _ => False
  | _ => True

def Proper : List Piece → Prop
  | [] => True
  | .simple _ _ :: rest => Stops rest ∧ Proper rest
  | .pattern _ :: rest => Stops rest ∧ Proper rest
  | .clause word words :: rest =>
    clauseKeywords.contains word = true ∧ words ≠ [] ∧ StopsClause rest ∧ Proper rest
  | .keyword word :: rest => keywords.contains word = true ∧ NoPair rest ∧ Proper rest
  | .op op :: rest => redirects.contains op = false ∧ Proper rest

theorem Proper.rest {piece : Piece} {rest : List Piece} (h : Proper (piece :: rest)) :
    Proper rest := by
  cases piece with
  | op op => exact h.2
  | simple command background => exact h.2
  | keyword word => exact h.2.2
  | clause word words => exact h.2.2.2
  | pattern word => exact h.2

structure Parser.Idle (parser : Parser) : Prop extends parser.Reads where
  current : parser.current = {}

section Pieces

variable {parser : Parser}

theorem Parser.Idle.parts (h : parser.Idle) : ∃ commands functions listStarts listStart,
    parser = ⟨commands, functions, listStarts, listStart, {}, none, false⟩ := by
  obtain ⟨commands, functions, listStarts, listStart, current, rfl⟩ := h.toReads.parts
  obtain rfl : current = {} := h.current
  exact ⟨_, _, _, _, rfl⟩

theorem Parser.Idle.flush (h : parser.Idle) : parser.flush = parser := by
  obtain ⟨commands, functions, listStarts, listStart, rfl⟩ := h.parts
  rfl

theorem operator_holding (h : parser.Idle) {command : Command}
    (hcommand : command.isSubstantial = true) {op : String} (hop : redirects.contains op = false) :
    (parser.holding command).operator op =
      { parser with commands := parser.commands ++ [command] }.operator op := by
  have hflush : (parser.holding command).flush =
      { parser with commands := parser.commands ++ [command] }.flush := by
    simp only [Parser.flush, Parser.holding, hcommand, if_true, h.current]
    rfl
  unfold Parser.operator
  simp only [hop, Bool.false_eq_true, if_false, hflush]

theorem operator_discarding (h : parser.Idle) {op : String} (hop : redirects.contains op = false) :
    { parser with discarding := true }.operator op = parser.operator op := by
  obtain ⟨commands, functions, listStarts, listStart, rfl⟩ := h.parts
  unfold Parser.operator
  simp only [hop, Bool.false_eq_true, if_false]
  rfl

theorem Parser.Idle.operator (h : parser.Idle) {op : String} (hop : redirects.contains op = false) :
    (parser.operator op).Idle := by
  have hflush := h.flush
  unfold Parser.operator
  simp only [hop, Bool.false_eq_true, if_false, hflush]
  split
  · exact ⟨⟨h.pendingRedirect, rfl⟩, h.current⟩
  split
  · exact ⟨⟨h.pendingRedirect, rfl⟩, h.current⟩
  split
  · exact ⟨⟨h.pendingRedirect, rfl⟩, h.current⟩
  · exact ⟨⟨h.pendingRedirect, rfl⟩, h.current⟩

theorem Parser.Idle.piece (h : parser.Idle) {piece : Piece} {rest : List Piece}
    (hproper : Proper (piece :: rest)) : (parser.piece piece).Idle := by
  cases piece with
  | op op => exact h.operator hproper.1
  | simple command background => exact ⟨⟨h.pendingRedirect, h.discarding⟩, h.current⟩
  | keyword word => exact ⟨⟨h.pendingRedirect, h.discarding⟩, h.current⟩
  | clause word words => exact ⟨⟨h.pendingRedirect, h.discarding⟩, h.current⟩
  | pattern word => exact ⟨⟨h.pendingRedirect, h.discarding⟩, h.current⟩

theorem tokens_ne_nil (piece : Piece) : piece.tokens ≠ [] := by
  cases piece with
  | simple command background =>
    obtain ⟨parts, hparts, -⟩ := command
    obtain ⟨part, rest, rfl⟩ := List.exists_cons_of_ne_nil hparts
    cases part with
    | word word => exact List.cons_ne_nil _ _
    | redirection op target => exact List.cons_ne_nil _ _
  | keyword word => exact List.cons_ne_nil _ _
  | clause word words => exact List.cons_ne_nil _ _
  | pattern word => exact List.cons_ne_nil _ _
  | op op => exact List.cons_ne_nil _ _

theorem piece_of_op {piece : Piece} {tokens : List Token} {op : String}
    (h : piece.tokens = .op op :: tokens) (hop : redirects.contains op = false) :
    piece = .op op ∧ tokens = [] := by
  cases piece with
  | simple command background =>
    obtain ⟨parts, hparts, hsimple⟩ := command
    obtain ⟨part, rest, rfl⟩ := List.exists_cons_of_ne_nil hparts
    have hplain := isSimple_plain hsimple
    rw [List.all_cons, Bool.and_eq_true] at hplain
    cases part with
    | word word => cases h
    | redirection found target =>
      cases h
      rw [Part.isPlain, hop] at hplain
      exact absurd hplain.1 Bool.false_ne_true
  | keyword word => cases h
  | clause word words => cases h
  | pattern word => cases h
  | op found =>
    cases h
    exact ⟨rfl, rfl⟩

theorem pieces_of_op {pieces : List Piece} {tokens : List Token} {op : String}
    (h : pieces.flatMap Piece.tokens = .op op :: tokens) (hop : redirects.contains op = false) :
    ∃ rest, pieces = .op op :: rest ∧ rest.flatMap Piece.tokens = tokens := by
  cases pieces with
  | nil => cases h
  | cons piece rest =>
    rw [List.flatMap_cons] at h
    obtain ⟨token, more, heq⟩ := List.exists_cons_of_ne_nil (tokens_ne_nil piece)
    rw [heq, List.cons_append, List.cons.injEq] at h
    obtain ⟨rfl, rfl⟩ := h
    obtain ⟨rfl, rfl⟩ := piece_of_op heq hop
    exact ⟨rest, rfl, rfl⟩

theorem head_of_stops {pieces : List Piece} (h : Stops pieces) :
    (pieces.flatMap Piece.tokens).head? ≠ some (.op "(") := by
  cases pieces with
  | nil => simp
  | cons piece rest =>
    cases piece with
    | op op =>
      intro heq
      cases heq
      exact h.1 rfl
    | simple command background => exact h.elim
    | keyword word => exact h.elim
    | clause word words => exact h.elim
    | pattern word => exact h.elim

theorem StopsClause.cases {pieces : List Piece} (h : StopsClause pieces) :
    pieces = [] ∨ ∃ op rest, pieces = .op op :: rest ∧ redirects.contains op = false := by
  cases pieces with
  | nil => exact Or.inl rfl
  | cons piece rest =>
    cases piece with
    | op op => exact Or.inr ⟨op, rest, rfl, h⟩
    | simple command background => exact h.elim
    | keyword word => exact h.elim
    | clause word words => exact h.elim
    | pattern word => exact h.elim

theorem Stops.clause {pieces : List Piece} (h : Stops pieces) : StopsClause pieces := by
  cases pieces with
  | nil => trivial
  | cons piece rest =>
    cases piece with
    | op op => exact h.2
    | simple command background => exact h.elim
    | keyword word => exact h.elim
    | clause word words => exact h.elim
    | pattern word => exact h.elim

theorem run_holding (h : parser.Idle) {command : Command} (hcommand : command.isSubstantial = true)
    {pieces : List Piece} (hstops : Stops pieces) :
    ((parser.holding command).run 0 (pieces.flatMap Piece.tokens)).flush.commands =
      ({ parser with commands := parser.commands ++ [command] }.run 0
        (pieces.flatMap Piece.tokens)).flush.commands := by
  obtain rfl | ⟨op, rest, rfl, hop⟩ := hstops.clause.cases
  · simp only [List.flatMap_nil, Parser.run, Parser.flush, Parser.holding, hcommand, if_true,
      h.current]
    rfl
  · rw [List.flatMap_cons, Piece.tokens, List.singleton_append, Parser.run, Parser.run,
      operator_holding h hcommand hop]

theorem run_discarding (h : parser.Idle) {pieces : List Piece} (hstops : StopsClause pieces) :
    ({ parser with discarding := true }.run 0 (pieces.flatMap Piece.tokens)).flush.commands =
      (parser.run 0 (pieces.flatMap Piece.tokens)).flush.commands := by
  obtain rfl | ⟨op, rest, rfl, hop⟩ := hstops.cases
  · rfl
  · rw [List.flatMap_cons, Piece.tokens, List.singleton_append, Parser.run, Parser.run,
      operator_discarding h hop]

theorem run_keyword (h : parser.Idle) {word : String} (hword : keywords.contains word = true)
    {pieces : List Piece} (hpair : NoPair pieces) :
    parser.run 0 (.word ⟨word, false⟩ :: pieces.flatMap Piece.tokens) =
      parser.run 0 (pieces.flatMap Piece.tokens) := by
  have hfunction : word ≠ "function" := by
    rintro rfl
    exact absurd hword (by decide)
  have hnone : definition? ⟨word, false⟩ (pieces.flatMap Piece.tokens) = none := by
    unfold definition?
    split
    · rename_i rest heq
      obtain ⟨behind, rfl, hbehind⟩ := pieces_of_op heq (by decide)
      obtain ⟨last, rfl, -⟩ := pieces_of_op hbehind (by decide)
      exact hpair.elim
    · rw [if_neg hfunction]
    · rfl
  rw [Parser.run, h.pendingRedirect]
  simp only [h.discarding, Bool.false_eq_true, if_false, h.current, if_true, hnone, Parser.word,
    hword]

theorem run_discarded (hpending : parser.pendingRedirect = none) (hdiscarding : parser.discarding = true)
    (words : List Word) (rest : List Token) :
    parser.run 0 (words.map Token.word ++ rest) = parser.run 0 rest := by
  induction words with
  | nil => rfl
  | cons word words ih =>
    rw [List.map_cons, List.cons_append, Parser.run, hpending, hdiscarding]
    exact ih

theorem run_clause (h : parser.Idle) {word : String} (hword : clauseKeywords.contains word = true)
    {words : List Word} (hwords : words ≠ []) (rest : List Token) :
    parser.run 0 (.word ⟨word, false⟩ :: (words.map Token.word ++ rest)) =
      { parser with discarding := true }.run 0 rest := by
  have hcases : word = "for" ∨ word = "case" ∨ word = "select" := by
    simpa [clauseKeywords] using hword
  have hkeyword : keywords.contains word = false := by
    rcases hcases with rfl | rfl | rfl <;> decide
  have hfunction : word ≠ "function" := by
    rcases hcases with rfl | rfl | rfl <;> decide
  obtain ⟨first, others, rfl⟩ := List.exists_cons_of_ne_nil hwords
  have hnone : definition? ⟨word, false⟩ ((first :: others).map Token.word ++ rest) = none :=
    definition?_eq_none hfunction (by simp)
  obtain ⟨commands, functions, listStarts, listStart, rfl⟩ := h.parts
  rw [Parser.run]
  simp only [Bool.false_eq_true, if_false, if_true, hnone, Parser.word, hkeyword, hword]
  exact run_discarded rfl rfl (first :: others) rest

/-- A pattern that is no command in its own right. -/
theorem run_pattern (h : parser.Idle) {word : Word} {pieces : List Piece} (hstops : Stops pieces) :
    (parser.run 0 (.word word :: pieces.flatMap Piece.tokens)).flush.commands =
      ((parser.piece (.pattern word)).run 0 (pieces.flatMap Piece.tokens)).flush.commands := by
  have hnone : definition? word (pieces.flatMap Piece.tokens) = none := by
    unfold definition?
    split
    · rename_i rest heq
      obtain ⟨behind, rfl, -⟩ := pieces_of_op heq (by decide)
      exact absurd rfl hstops.1
    · rename_i name rest heq
      obtain rfl | ⟨op, behind, rfl, -⟩ := hstops.clause.cases
      · cases heq
      · cases heq
    · rfl
  have hheld := run_holding h (add_isSubstantial {} (.word word)) hstops
  have hdiscarded := run_discarding h hstops.clause
  obtain ⟨commands, functions, listStarts, listStart, rfl⟩ := h.parts
  rw [Parser.run]
  simp only [Bool.false_eq_true, if_false, if_true, hnone, Parser.word, Parser.piece,
    Piece.command?]
  cases hkeyword : keywords.contains word.value with
  | true => simp
  | false =>
    cases hclause : clauseKeywords.contains word.value with
    | true =>
      simp only [Bool.false_eq_true, if_false, if_true, Bool.or_true, Option.toList_none,
        List.append_nil]
      exact hdiscarded
    | false =>
      simp only [Bool.false_eq_true, if_false, Bool.or_false, Option.toList_some]
      rw [← hheld]
      unfold Command.add Word.assignment? Parser.push Parser.holding
      simp only [if_true]
      cases (if word.expandable then none else Ci.assignment? word.value) with
      | none => rfl
      | some assignment => rfl

theorem run_pieces (h : parser.Idle) {pieces : List Piece} (hproper : Proper pieces) :
    (parser.run 0 (pieces.flatMap Piece.tokens)).flush.commands =
      (pieces.foldl Parser.piece parser).commands := by
  induction pieces generalizing parser with
  | nil => exact congrArg Parser.commands h.flush
  | cons piece rest ih =>
    have hidle := h.piece hproper
    rw [List.flatMap_cons, List.foldl_cons]
    cases piece with
    | op op =>
      rw [Piece.tokens, List.singleton_append, Parser.run]
      exact ih hidle hproper.2
    | simple command background =>
      have hparts := run_parts h.toReads command.simple (by rw [h.current])
        (head_of_stops hproper.1)
      rw [Piece.tokens, hparts, h.current, ← ih hidle hproper.2]
      exact run_holding h command.isSubstantial hproper.1
    | keyword word =>
      obtain ⟨hword, hpair, hrest⟩ := hproper
      have hsame : parser.piece (.keyword word) = parser := by simp [Parser.piece, Piece.command?]
      rw [Piece.tokens, List.singleton_append, run_keyword h hword hpair, hsame]
      exact ih h hrest
    | clause word words =>
      obtain ⟨hword, hwords, hstops, hrest⟩ := hproper
      have hsame : parser.piece (.clause word words) = parser := by
        simp [Parser.piece, Piece.command?]
      rw [Piece.tokens, List.cons_append, run_clause h hword hwords, hsame,
        run_discarding h hstops]
      exact ih h hrest
    | pattern word =>
      rw [Piece.tokens, List.singleton_append, run_pattern h hproper.1]
      exact ih hidle hproper.2

end Pieces

/-! ## What an ampersand takes -/

/-- `;`, `;;`, a newline or `&`. -/
def separators : List String := [";", ";;", "\n", "&"]

/-- Whether, reading on from a command, one is on its level of parentheses and no separator has come:
how many parentheses were opened, and whether an `&` that comes once they are closed takes the
command. Behind a closing parenthesis more it is the level around it. -/
def readOn : Nat × Bool → Piece → Nat × Bool
  | (depth, live), .op op =>
    if op = "(" then (depth + 1, live)
    else if op = ")" then (depth - 1, depth == 0 || live)
    else (depth, live && !(depth == 0 && separators.contains op))
  | state, _ => state

/-- This piece is an `&` that takes the command. -/
def takesNow : Nat × Bool → Piece → Bool
  | (depth, live), .op op => op == "&" && depth == 0 && live
  | _, _ => false

/-- Reading on, an `&` comes that takes the command. -/
def taken (state : Nat × Bool) : List Piece → Bool
  | [] => false
  | piece :: rest => takesNow state piece || taken (readOn state piece) rest

/-- The starts, nearest first, as they stand to the command with this index. -/
structure Parser.Place (parser : Parser) (i : Nat) (state : Nat × Bool) : Prop where
  frames : ∃ inner entry outer, parser.listStart :: parser.listStarts = inner ++ entry :: outer ∧
    inner.length = state.1 ∧ (∀ start ∈ inner, i < start) ∧ (entry ≤ i ↔ state.2 = true) ∧
    ∀ start ∈ outer, start ≤ i
  held : i < parser.commands.length

def Command.inBackground (command : Command) (background : Bool) : Command :=
  { command with background }

@[simp] theorem Command.inBackground_false (command : Command) :
    command.inBackground (command.background || false) = command := by
  rw [Bool.or_false]
  rfl

section Marks

variable {parser : Parser} {i : Nat} {state : Nat × Bool}

theorem background_getElem? (parser : Parser) (i : Nat) :
    parser.background.commands[i]? = parser.commands[i]?.map fun command =>
      command.inBackground (command.background || decide (parser.listStart ≤ i)) := by
  unfold Parser.background
  dsimp only
  rw [List.getElem?_append, List.length_take, List.getElem?_map, List.getElem?_drop]
  by_cases hstart : parser.listStart ≤ i
  · have hnot : ¬ i < min parser.listStart parser.commands.length := by omega
    rw [if_neg hnot, decide_eq_true hstart]
    by_cases hlength : parser.listStart ≤ parser.commands.length
    · rw [min_eq_left hlength, Nat.add_sub_cancel' hstart]
      simp only [Bool.or_true]
      rfl
    · have hnone : parser.commands[i]? = none := List.getElem?_eq_none (by omega)
      rw [hnone, List.getElem?_eq_none (by omega)]
      rfl
  · have hfalse : decide (parser.listStart ≤ i) = false := decide_eq_false hstart
    simp only [hfalse, Command.inBackground_false, Option.map_id']
    split
    · rw [List.getElem?_take_of_lt (by omega)]
    · rw [List.getElem?_eq_none (by omega), List.getElem?_eq_none (by omega)]
      rfl

theorem Parser.Place.reset (h : parser.Place i state) (background : List Command)
    (hlength : background.length = parser.commands.length) (discarding : Bool) :
    { parser with
      commands := background
      listStart := parser.commands.length
      discarding }.Place i (state.1, state.2 && !(state.1 == 0)) := by
  obtain ⟨inner, entry, outer, hframes, hdepth, hinner, hentry, houter⟩ := h.frames
  refine ⟨?_, by rw [hlength]; exact h.held⟩
  have hheld := h.held
  cases inner with
  | nil =>
    obtain ⟨rfl, rfl⟩ := List.cons.inj hframes
    refine ⟨[], parser.commands.length, _, rfl, hdepth, by simp, ?_, houter⟩
    rw [← hdepth]
    simp
    omega
  | cons start inner =>
    obtain ⟨rfl, hlater⟩ := List.cons.inj hframes
    refine ⟨parser.commands.length :: inner, entry, outer, by rw [hlater]; rfl, hdepth, ?_, ?_, houter⟩
    · exact List.forall_mem_cons.mpr ⟨hheld, (List.forall_mem_cons.mp hinner).2⟩
    · rw [hentry, ← hdepth]
      simp

theorem Parser.Place.operator (h : parser.Place i state) (hidle : parser.Idle) {op : String}
    (hop : redirects.contains op = false) :
    (parser.operator op).Place i (readOn state (.op op)) ∧
      (parser.operator op).commands[i]? = parser.commands[i]?.map fun command =>
        command.inBackground (command.background || takesNow state (.op op)) := by
  have hflush := hidle.flush
  have hsame : parser.commands[i]? = parser.commands[i]?.map fun command =>
      command.inBackground (command.background || false) := by
    simp only [Command.inBackground_false, Option.map_id']
  obtain ⟨depth, live⟩ := state
  obtain ⟨inner, entry, outer, hframes, hdepth, hinner, hentry, houter⟩ := h.frames
  unfold Parser.operator readOn takesNow
  simp only [hop, Bool.false_eq_true, if_false, hflush]
  by_cases hopen : op = "("
  · subst hopen
    refine ⟨⟨⟨parser.commands.length :: inner, entry, outer, by rw [hframes]; rfl,
      congrArg (· + 1) hdepth, List.forall_mem_cons.mpr ⟨h.held, hinner⟩, hentry, houter⟩, h.held⟩,
      hsame⟩
  rw [if_neg hopen, if_neg hopen]
  by_cases hclose : op = ")"
  · subst hclose
    refine ⟨⟨?_, h.held⟩, hsame⟩
    cases inner with
    | nil =>
      obtain ⟨rfl, hstarts⟩ := List.cons.inj hframes
      obtain rfl : 0 = depth := hdepth
      simp only [if_true, hstarts]
      cases outer with
      | nil => exact ⟨[], 0, [], rfl, rfl, by simp, by simp, by simp⟩
      | cons above outer =>
        obtain ⟨habove, houter⟩ := List.forall_mem_cons.mp houter
        exact ⟨[], above, outer, rfl, rfl, by simp, by simp [habove], houter⟩
    | cons start inner =>
      obtain ⟨rfl, hstarts⟩ := List.cons.inj hframes
      obtain rfl : inner.length + 1 = depth := hdepth
      refine ⟨inner, entry, outer, ?_, rfl, (List.forall_mem_cons.mp hinner).2, ?_, houter⟩
      · simp only [if_true, hstarts]
        cases inner with
        | nil => rfl
        | cons start inner => rfl
      · simp [hentry]
  rw [if_neg hclose, if_neg hclose]
  by_cases hampersand : op = "&"
  · subst hampersand
    have hlength : parser.background.commands.length = parser.commands.length := by
      simp only [Parser.background, List.length_append, List.length_take, List.length_map,
        List.length_drop]
      omega
    have hreset := h.reset parser.background.commands hlength false
    rw [← hlength] at hreset
    have hcontains : separators.contains "&" = true := by decide
    simp only [hcontains, Bool.and_true, if_true]
    refine ⟨hreset, ?_⟩
    have htakes : decide (parser.listStart ≤ i) = (depth == 0 && live) := by
      cases inner with
      | nil =>
        obtain ⟨rfl, -⟩ := List.cons.inj hframes
        obtain rfl : 0 = depth := hdepth
        cases live with
        | true => exact decide_eq_true (hentry.mpr rfl)
        | false => exact decide_eq_false fun hle => Bool.false_ne_true (hentry.mp hle)
      | cons start inner =>
        obtain ⟨rfl, -⟩ := List.cons.inj hframes
        obtain rfl : inner.length + 1 = depth := hdepth
        have hlt := (List.forall_mem_cons.mp hinner).1
        simpa using hlt
    rw [background_getElem?, htakes]
    simp
  rw [if_neg hampersand]
  have hnot : (op == "&") = false := beq_eq_false_iff_ne.mpr hampersand
  simp only [hnot, Bool.false_and]
  refine ⟨?_, hsame⟩
  by_cases hseparator : op = ";" ∨ op = ";;" ∨ op = "\n"
  · have hcontains : separators.contains op = true := by
      rcases hseparator with rfl | rfl | rfl <;> decide
    rw [if_pos hseparator, hcontains, Bool.and_true]
    exact h.reset parser.commands rfl false
  · have hcontains : separators.contains op = false := by
      simp only [not_or] at hseparator
      simp [separators, hseparator, hampersand]
    rw [if_neg hseparator, hcontains, Bool.and_false, Bool.not_false, Bool.and_true]
    exact ⟨⟨inner, entry, outer, hframes, hdepth, hinner, hentry, houter⟩, h.held⟩

theorem Parser.Place.add (h : parser.Place i state) (commands : List Command) :
    { parser with commands := parser.commands ++ commands }.Place i state ∧
      (parser.commands ++ commands)[i]? = parser.commands[i]?.map fun command =>
        command.inBackground (command.background || false) := by
  refine ⟨⟨h.frames, ?_⟩, ?_⟩
  · rw [List.length_append]
    exact Nat.lt_add_right _ h.held
  · simp only [Command.inBackground_false, Option.map_id']
    exact List.getElem?_append_left h.held

theorem Parser.Place.piece (h : parser.Place i state) (hidle : parser.Idle) {piece : Piece}
    {rest : List Piece} (hproper : Proper (piece :: rest)) :
    (parser.piece piece).Place i (readOn state piece) ∧
      (parser.piece piece).commands[i]? = parser.commands[i]?.map fun command =>
        command.inBackground (command.background || takesNow state piece) := by
  cases piece with
  | op op => exact h.operator hidle hproper.1
  | simple command background => exact h.add _
  | keyword word => exact h.add _
  | clause word words => exact h.add _
  | pattern word => exact h.add _

theorem foldl_piece_getElem? (h : parser.Place i state) (hidle : parser.Idle) {pieces : List Piece}
    (hproper : Proper pieces) :
    (pieces.foldl Parser.piece parser).commands[i]? = parser.commands[i]?.map fun command =>
      command.inBackground (command.background || taken state pieces) := by
  induction pieces generalizing parser state with
  | nil =>
    simp only [taken, Command.inBackground_false, Option.map_id']
    rfl
  | cons piece rest ih =>
    obtain ⟨hplace, hcommand⟩ := h.piece hidle hproper
    rw [List.foldl_cons, ih hplace (hidle.piece hproper) hproper.rest, hcommand, Option.map_map]
    refine congrArg (Option.map · parser.commands[i]?) (funext fun command => ?_)
    simp [taken, Command.inBackground, Bool.or_assoc]

end Marks

/-! ## Whole scripts -/

def Parser.Bounded (parser : Parser) : Prop :=
  ∀ start ∈ parser.listStart :: parser.listStarts, start ≤ parser.commands.length

section Scripts

variable {parser : Parser}

theorem Parser.Bounded.piece (h : parser.Bounded) (hidle : parser.Idle) {piece : Piece}
    {rest : List Piece} (hproper : Proper (piece :: rest)) :
    (parser.piece piece).Bounded ∧ (parser.piece piece).commands.length =
      parser.commands.length + piece.command?.toList.length := by
  obtain ⟨hstart, hstarts⟩ := List.forall_mem_cons.mp h
  have hadd : ∀ commands : List Command,
      { parser with commands := parser.commands ++ commands }.Bounded ∧
        (parser.commands ++ commands).length = parser.commands.length + commands.length := by
    intro commands
    refine ⟨fun start hmem => (h start hmem).trans ?_, List.length_append⟩
    rw [List.length_append]
    exact Nat.le_add_right _ _
  cases piece with
  | simple command background => exact hadd _
  | keyword word => exact hadd _
  | clause word words => exact hadd _
  | pattern word => exact hadd _
  | op op =>
    have hflush := hidle.flush
    have hlength : parser.background.commands.length = parser.commands.length := by
      simp only [Parser.background, List.length_append, List.length_take, List.length_map,
        List.length_drop]
      omega
    unfold Parser.piece Parser.operator
    simp only [hproper.1, Bool.false_eq_true, if_false, hflush]
    split
    · exact ⟨List.forall_mem_cons.mpr ⟨le_rfl, h⟩, rfl⟩
    split
    · refine ⟨?_, rfl⟩
      cases hheld : parser.listStarts with
      | nil => exact List.forall_mem_cons.mpr ⟨Nat.zero_le _, by simp⟩
      | cons above outer =>
        rw [hheld] at hstarts
        exact hstarts
    split
    · refine ⟨List.forall_mem_cons.mpr ⟨le_rfl, fun start hmem => ?_⟩, hlength⟩
      exact (hstarts start hmem).trans hlength.ge
    · refine ⟨List.forall_mem_cons.mpr ⟨?_, hstarts⟩, rfl⟩
      dsimp only
      split
      · exact le_rfl
      · exact hstart

theorem Parser.Bounded.pieces (h : parser.Bounded) (hidle : parser.Idle) {pieces behind : List Piece}
    (hproper : Proper (pieces ++ behind)) :
    (pieces.foldl Parser.piece parser).Bounded ∧ (pieces.foldl Parser.piece parser).Idle ∧
      (pieces.foldl Parser.piece parser).commands.length =
        parser.commands.length + (pieces.filterMap Piece.command?).length ∧ Proper behind := by
  induction pieces generalizing parser with
  | nil => exact ⟨h, hidle, rfl, hproper⟩
  | cons piece rest ih =>
    obtain ⟨hbounded, hlength⟩ := h.piece hidle hproper
    obtain ⟨hlast, hlastIdle, hcount, hbehind⟩ := ih hbounded (hidle.piece hproper) hproper.rest
    refine ⟨hlast, hlastIdle, ?_, hbehind⟩
    rw [List.foldl_cons, hcount, hlength, List.filterMap_cons]
    cases piece.command? with
    | none => rfl
    | some command =>
      rw [List.length_cons, Option.toList_some, List.length_singleton]
      omega

theorem parseScript_simple {text : String} {before after : List Piece} {command : Simple}
    {background : Bool} (hproper : Proper (before ++ Piece.simple command background :: after))
    (htext : tokenize text =
      (before ++ Piece.simple command background :: after).flatMap Piece.tokens) :
    (parseScript text).commands[(before.filterMap Piece.command?).length]? =
      some (command.command.inBackground (taken (0, true) after), unwrap command.command.raw) := by
  have hidle : ({} : Parser).Idle := ⟨⟨rfl, rfl⟩, rfl⟩
  have hstart : ({} : Parser).Bounded := by simp [Parser.Bounded]
  obtain ⟨hbounded, hbefore, hlength, hrest⟩ := hstart.pieces hidle hproper
  have hlater := hbefore.piece hrest
  have hplace : ((before.foldl Parser.piece {}).piece (.simple command background)).Place
      (before.filterMap Piece.command?).length (0, true) := by
    have hcount : (before.foldl Parser.piece {}).commands.length =
        (before.filterMap Piece.command?).length := by rw [hlength]; exact Nat.zero_add _
    obtain ⟨hfirst, hothers⟩ := List.forall_mem_cons.mp hbounded
    rw [hcount] at hfirst
    refine ⟨⟨[], _, _, rfl, rfl, by simp, iff_of_true hfirst rfl, ?_⟩, ?_⟩
    · intro start hmem
      rw [← hcount]
      exact hothers start hmem
    · rw [← hcount]
      simp [Parser.piece, Piece.command?]
  have hlast := foldl_piece_getElem? hplace hlater hrest.rest
  have hheld : ((before.foldl Parser.piece {}).piece (.simple command background)).commands[
      (before.filterMap Piece.command?).length]? = some command.command := by
    have hcount : (before.filterMap Piece.command?).length =
        (before.foldl Parser.piece {}).commands.length := by rw [hlength]; exact (Nat.zero_add _).symm
    rw [hcount]
    exact List.getElem?_concat_length
  have hfresh : command.command.background = false := foldl_add_background {} command.parts
  rw [parseScript, htext]
  simp only [List.getElem?_map]
  rw [run_pieces hidle hproper, List.foldl_append, List.foldl_cons, hlast, hheld]
  simp only [Option.map_some, hfresh, Bool.false_or]
  rfl

end Scripts

/-! ## The pieces of a script -/

/-- A command or a list begins with something, and not with an empty pair of parentheses. -/
structure Opens (pieces : List Piece) : Prop where
  first : ∃ piece rest, pieces = piece :: rest ∧ piece ≠ .op ")"
  pair : ∀ rest, NoPair (pieces ++ rest)

theorem opens_keyword (word : String) (pieces : List Piece) : Opens (.keyword word :: pieces) :=
  ⟨⟨_, _, rfl, by simp⟩, fun _ => trivial⟩

theorem opens_clause (word : String) (words : List Word) (pieces : List Piece) :
    Opens (.clause word words :: pieces) :=
  ⟨⟨_, _, rfl, by simp⟩, fun _ => trivial⟩

theorem Opens.append {pieces : List Piece} (h : Opens pieces) (more : List Piece) :
    Opens (pieces ++ more) := by
  obtain ⟨piece, rest, rfl, hpiece⟩ := h.first
  refine ⟨⟨piece, rest ++ more, rfl, hpiece⟩, fun behind => ?_⟩
  rw [List.append_assoc]
  exact h.pair _

theorem opens_newlines (count : Nat) {pieces : List Piece} (h : Opens pieces) :
    Opens (newlines count ++ pieces) := by
  cases count with
  | zero => exact h
  | succ count =>
    refine ⟨⟨.op "\n", newlines count ++ pieces, rfl, by simp⟩, fun _ => ?_⟩
    unfold newlines
    rw [List.replicate_succ]
    trivial

theorem opens_subshell {pieces : List Piece} (h : Opens pieces) : Opens (.op "(" :: pieces) := by
  obtain ⟨piece, rest, rfl, hpiece⟩ := h.first
  refine ⟨⟨_, _, rfl, by simp⟩, fun behind => ?_⟩
  unfold NoPair
  split
  · rename_i heq
    exact hpiece (List.cons.inj (List.cons.inj heq).2).1
  · trivial

theorem opens_pattern {pattern : Pattern} {header : List Word} (pieces : List Piece) :
    Opens (pattern.piecesBehind (some header) ++ pieces) := by
  unfold Pattern.piecesBehind
  dsimp only
  split
  · exact opens_clause _ _ _
  · exact opens_clause _ _ _

mutual

theorem Node.opens (background : Bool) : (node : Node) → Opens (node.pieces background)
  | .simple _ => ⟨⟨_, _, rfl, by simp⟩, fun _ => trivial⟩
  | .subshell body => opens_subshell ((body.opens background).append _)
  | .group _ => opens_keyword _ _
  | .conditional _ => opens_keyword _ _
  | .whileDo _ _ => opens_keyword _ _
  | .untilDo _ _ => opens_keyword _ _
  | .forDo _ _ _ _ _ => opens_clause _ _ _
  | .caseOf _ 0 arms => by
    rw [Node.pieces]
    cases arms with
    | bare pattern body => exact (opens_pattern _).append _
    | last pattern body breaks => exact (opens_pattern _).append _
    | arm pattern body breaks rest => exact (opens_pattern _).append _
  | .caseOf _ (_ + 1) _ => opens_clause _ _ _

theorem Chain.opens (background : Bool) : (chain : Chain) → Opens (chain.pieces background)
  | .one node => node.opens background
  | .link node _ _ _ => (node.opens background).append _

theorem Body.opens (background : Bool) : (body : Body) → Opens (body.pieces background)
  | .one breaks chain _ _ => opens_newlines breaks ((chain.opens _).append _)
  | .more breaks chain _ _ => opens_newlines breaks ((chain.opens _).append _)

theorem Lines.opens (background : Bool) : (lines : Lines) → Opens (lines.pieces background)
  | .closed body => body.opens background
  | .last breaks chain => opens_newlines breaks (chain.opens background)
  | .behind body _ => (body.opens background).append _

end

theorem Branches.opens (background : Bool) (branches : Branches) :
    Opens (branches.pieces background) := by
  cases branches with
  | only condition body => exact (condition.opens background).append _
  | otherwise condition body other => exact (condition.opens background).append _
  | elif condition body rest => exact (condition.opens background).append _

theorem Stops.noPair {pieces : List Piece} (h : Stops pieces) : NoPair pieces := by
  unfold NoPair
  split
  · exact h.1 rfl
  · trivial

theorem stops_connector (connector : Connector) (rest : List Piece) :
    Stops (.op connector.op :: rest) := by
  cases connector with
  | pipe => exact ⟨by decide, by decide⟩
  | pipeBoth => exact ⟨by decide, by decide⟩
  | and => exact ⟨by decide, by decide⟩
  | or => exact ⟨by decide, by decide⟩

theorem stops_terminator (ends : Terminator) (rest : List Piece) :
    Stops (.op ends.op :: rest) := by
  cases ends with
  | semicolon => exact ⟨by decide, by decide⟩
  | newline => exact ⟨by decide, by decide⟩
  | ampersand => exact ⟨by decide, by decide⟩

theorem stops_close (rest : List Piece) : Stops (.op ")" :: rest) := ⟨by decide, by decide⟩

theorem stops_arm (rest : List Piece) : Stops (.op ";;" :: rest) := ⟨by decide, by decide⟩

theorem Proper.newlines (count : Nat) {rest : List Piece} (h : Proper rest) :
    Proper (newlines count ++ rest) := by
  induction count with
  | zero => exact h
  | succ count ih => exact ⟨by decide, ih⟩

theorem Proper.pattern (pattern : Pattern) {rest : List Piece} (h : Proper rest) :
    Proper (pattern.pieces ++ rest) ∧ Stops (pattern.pieces ++ rest) := by
  obtain ⟨opened, first, others⟩ := pattern
  unfold Pattern.pieces
  dsimp only
  induction others with
  | nil => exact ⟨⟨by decide, h⟩, stops_close rest⟩
  | cons word others ih =>
    obtain ⟨hproper, hstops⟩ := ih
    exact ⟨⟨by decide, hstops, hproper⟩, by decide, by decide⟩

theorem Proper.patternBehind (pattern : Pattern) {header : Option (List Word)}
    (hheader : header ≠ some []) {rest : List Piece} (h : Proper rest) :
    Proper (pattern.piecesBehind header ++ rest) := by
  obtain ⟨hproper, hstops⟩ := h.pattern pattern
  have hcase : clauseKeywords.contains "case" = true := by decide
  have hopen : redirects.contains "(" = false := by decide
  unfold Pattern.piecesBehind
  cases header with
  | none =>
    dsimp only
    split
    · exact ⟨hopen, hstops, hproper⟩
    · exact ⟨hstops, hproper⟩
  | some words =>
    have hwords : words ≠ [] := fun hnil => hheader (congrArg some hnil)
    dsimp only
    split
    · exact ⟨hcase, hwords, hopen, hopen, hstops, hproper⟩
    · exact ⟨hcase, by simp, hstops.clause, hproper⟩

mutual

theorem Node.proper (background : Bool) : (node : Node) → ∀ rest, Stops rest → Proper rest →
    Proper (node.pieces background ++ rest)
  | .simple _, _, hstops, h => ⟨hstops, h⟩
  | .subshell body, rest, _, h => by
    rw [Node.pieces, List.cons_append, List.append_assoc]
    exact ⟨by decide, body.proper background _ (stops_close rest) ⟨by decide, h⟩⟩
  | .group body, rest, hstops, h => by
    rw [Node.pieces, List.cons_append, List.append_assoc]
    exact ⟨by decide, (body.opens background).pair _,
      body.proper background _ ⟨by decide, hstops.noPair, h⟩⟩
  | .conditional branches, rest, hstops, h => by
    rw [Node.pieces, List.cons_append, List.append_assoc]
    exact ⟨by decide, (branches.opens background).pair _,
      branches.proper background _ ⟨by decide, hstops.noPair, h⟩⟩
  | .whileDo condition body, rest, hstops, h => by
    rw [Node.pieces, List.cons_append, List.append_assoc, List.cons_append, List.append_assoc]
    exact ⟨by decide, (condition.opens background).pair _, condition.proper background _
      ⟨by decide, (body.opens background).pair _,
        body.proper background _ ⟨by decide, hstops.noPair, h⟩⟩⟩
  | .untilDo condition body, rest, hstops, h => by
    rw [Node.pieces, List.cons_append, List.append_assoc, List.cons_append, List.append_assoc]
    exact ⟨by decide, (condition.opens background).pair _, condition.proper background _
      ⟨by decide, (body.opens background).pair _,
        body.proper background _ ⟨by decide, hstops.noPair, h⟩⟩⟩
  | .forDo name words newline breaks body, rest, hstops, h => by
    have hop : redirects.contains (if newline then "\n" else ";") = false := by
      cases newline <;> decide
    rw [Node.pieces, List.cons_append, List.cons_append, List.append_assoc, List.cons_append,
      List.append_assoc]
    exact ⟨by decide, List.cons_ne_nil _ _, hop, hop, Proper.newlines breaks
      ⟨by decide, (body.opens background).pair _,
        body.proper background _ ⟨by decide, hstops.noPair, h⟩⟩⟩
  | .caseOf word 0 arms, rest, hstops, h => by
    rw [Node.pieces, List.append_assoc]
    exact arms.proper background _ (by simp) _ ⟨by decide, hstops.noPair, h⟩
  | .caseOf word (breaks + 1) arms, rest, hstops, h => by
    rw [Node.pieces, List.cons_append, List.append_assoc, List.append_assoc]
    have harms := arms.proper background none (by simp) _
      (show Proper (.keyword "esac" :: rest) from ⟨by decide, hstops.noPair, h⟩)
    have hbreak : redirects.contains "\n" = false := by decide
    exact ⟨by decide, List.cons_ne_nil _ _, hbreak, harms.newlines (breaks + 1)⟩

theorem Branches.proper (background : Bool) : (branches : Branches) → ∀ rest, Proper rest →
    Proper (branches.pieces background ++ rest)
  | .only condition body, rest, h => by
    rw [Branches.pieces, List.append_assoc, List.cons_append]
    exact condition.proper background _ ⟨by decide, (body.opens background).pair _,
      body.proper background _ h⟩
  | .otherwise condition body other, rest, h => by
    rw [Branches.pieces, List.append_assoc, List.cons_append, List.append_assoc, List.cons_append]
    exact condition.proper background _ ⟨by decide, (body.opens background).pair _,
      body.proper background _ ⟨by decide, (other.opens background).pair _,
        other.proper background _ h⟩⟩
  | .elif condition body others, rest, h => by
    rw [Branches.pieces, List.append_assoc, List.cons_append, List.append_assoc, List.cons_append]
    exact condition.proper background _ ⟨by decide, (body.opens background).pair _,
      body.proper background _ ⟨by decide, (others.opens background).pair _,
        others.proper background _ h⟩⟩

theorem Arms.proper (background : Bool) : (arms : Arms) → ∀ header, header ≠ some [] → ∀ rest,
    Proper rest → Proper (arms.pieces background header ++ rest)
  | .bare pattern body, header, hheader, rest, h => by
    rw [Arms.pieces, List.append_assoc]
    exact (body.proper background _ h).patternBehind pattern hheader
  | .last pattern body breaks, header, hheader, rest, h => by
    rw [Arms.pieces, List.append_assoc, List.append_assoc, List.cons_append]
    have hends := stops_arm (newlines breaks ++ rest)
    have hbody := body.proper background _ hends ⟨hends.2, h.newlines breaks⟩
    exact hbody.patternBehind pattern hheader
  | .arm pattern body breaks others, header, hheader, rest, h => by
    rw [Arms.pieces, List.append_assoc, List.append_assoc, List.cons_append, List.append_assoc]
    have hothers := others.proper background none (by simp) rest h
    have hends := stops_arm (newlines breaks ++ (others.pieces background none ++ rest))
    have hbody := body.proper background _ hends ⟨hends.2, hothers.newlines breaks⟩
    exact hbody.patternBehind pattern hheader

theorem Chain.proper (background : Bool) : (chain : Chain) → ∀ rest, Stops rest → Proper rest →
    Proper (chain.pieces background ++ rest)
  | .one node, rest, hstops, h => node.proper background rest hstops h
  | .link node connector breaks others, rest, hstops, h => by
    rw [Chain.pieces, List.append_assoc, List.cons_append, List.append_assoc]
    have hconnector := stops_connector connector (newlines breaks ++ (others.pieces background ++ rest))
    exact node.proper background _ hconnector
      ⟨hconnector.2, (others.proper background rest hstops h).newlines breaks⟩

theorem Body.proper (background : Bool) : (body : Body) → ∀ rest, Proper rest →
    Proper (body.pieces background ++ rest)
  | .one breaks chain ends after, rest, h => by
    rw [Body.pieces, List.append_assoc, List.append_assoc, List.cons_append]
    have hends := stops_terminator ends (newlines after ++ rest)
    exact (chain.proper _ _ hends ⟨hends.2, h.newlines after⟩).newlines breaks
  | .more breaks chain ends others, rest, h => by
    rw [Body.pieces, List.append_assoc, List.append_assoc, List.cons_append]
    have hends := stops_terminator ends (others.pieces background ++ rest)
    exact (chain.proper _ _ hends ⟨hends.2, others.proper background rest h⟩).newlines breaks

theorem Lines.proper (background : Bool) : (lines : Lines) → ∀ rest, Stops rest → Proper rest →
    Proper (lines.pieces background ++ rest)
  | .closed body, rest, _, h => body.proper background rest h
  | .last breaks chain, rest, hstops, h => by
    rw [Lines.pieces, List.append_assoc]
    exact (chain.proper background rest hstops h).newlines breaks
  | .behind body chain, rest, hstops, h => by
    rw [Lines.pieces, List.append_assoc]
    exact body.proper background _ (chain.proper background rest hstops h)

end

theorem proper_script (script : Lines) : Proper (script.pieces false) := by
  have hproper := script.proper false [] trivial trivial
  rwa [List.append_nil] at hproper

/-! ## What is reported as completed -/

/-- Each simple command of the script is reported in its place, which counts the words of patterns
that are taken for commands, and as completed when it does not run in the background. -/
def ReportsCompleted (text : String) (script : Lines) : Prop :=
  ∀ before command background after,
    script.pieces false = before ++ Piece.simple command background :: after →
    ∃ reported, (parseScript text).commands[(before.filterMap Piece.command?).length]? =
        some reported ∧
      reported.1.inBackground false = command.command ∧
      (reported ∈ completedCommands text ↔ background = false)

/-- Each simple command runs in the background when, reading on from it, an `&` comes that takes
it. -/
def endsAgree : List Piece → Bool
  | [] => true
  | .simple _ background :: rest => background == taken (0, true) rest && endsAgree rest
  | _ :: rest => endsAgree rest

theorem endsAgree_iff {pieces : List Piece} : endsAgree pieces = true ↔
    ∀ before command background after,
      pieces = before ++ Piece.simple command background :: after →
      background = taken (0, true) after := by
  induction pieces with
  | nil =>
    refine iff_of_true rfl fun before command background after h => ?_
    exact absurd h.symm (by simp)
  | cons piece rest ih =>
    have hrest : (∀ before command background after,
        piece :: rest = before ++ Piece.simple command background :: after →
          background = taken (0, true) after) ↔
        (∀ command background, piece = .simple command background →
          background = taken (0, true) rest) ∧ endsAgree rest = true := by
      rw [ih]
      constructor
      · intro h
        refine ⟨fun command background hpiece => h [] command background rest (by rw [hpiece]; rfl),
          fun before command background after hsplit => ?_⟩
        exact h (piece :: before) command background after (by rw [hsplit]; rfl)
      · rintro ⟨hfirst, hothers⟩ before command background after hsplit
        cases before with
        | nil =>
          obtain ⟨hpiece, rfl⟩ := List.cons.inj hsplit
          exact hfirst command background hpiece
        | cons first before =>
          exact hothers before command background after (List.cons.inj hsplit).2
    rw [hrest]
    cases piece with
    | simple command background =>
      rw [endsAgree, Bool.and_eq_true, beq_iff_eq]
      refine and_congr_left fun _ => ⟨fun h _ _ hpiece => ?_, fun h => h _ _ rfl⟩
      cases hpiece
      exact h
    | op op => exact ⟨fun h => ⟨fun _ _ hpiece => (by cases hpiece), h⟩, And.right⟩
    | keyword word => exact ⟨fun h => ⟨fun _ _ hpiece => (by cases hpiece), h⟩, And.right⟩
    | clause word words => exact ⟨fun h => ⟨fun _ _ hpiece => (by cases hpiece), h⟩, And.right⟩
    | pattern word => exact ⟨fun h => ⟨fun _ _ hpiece => (by cases hpiece), h⟩, And.right⟩

theorem mem_completedCommands {text : String} {before after : List Piece} {command : Simple}
    {background : Bool} (hproper : Proper (before ++ Piece.simple command background :: after))
    (htext : tokenize text =
      (before ++ Piece.simple command background :: after).flatMap Piece.tokens) :
    (command.command.inBackground (taken (0, true) after), unwrap command.command.raw) ∈
      completedCommands text ↔ taken (0, true) after = false := by
  have hheld := List.mem_of_getElem? (parseScript_simple hproper htext)
  rw [completedCommands, List.mem_filter, Bool.not_eq_true']
  exact and_iff_right hheld

/-- The commands that complete are the ones reported, exactly when no end of an element is taken for
another. -/
theorem reportsCompleted_iff {text : String} {script : Lines} (htext : tokenize text = script.tokens) :
    ReportsCompleted text script ↔ endsAgree (script.pieces false) = true := by
  rw [endsAgree_iff]
  refine forall_congr' fun before => forall_congr' fun command => forall_congr' fun background =>
    forall_congr' fun after => forall_congr' fun hsplit => ?_
  have hproper := proper_script script
  have hsplitText : tokenize text =
      (before ++ Piece.simple command background :: after).flatMap Piece.tokens := by
    rw [htext, Lines.tokens, hsplit]
  rw [hsplit] at hproper
  have hplace := parseScript_simple hproper hsplitText
  have hcompleted := mem_completedCommands hproper hsplitText
  have hfresh : command.command.background = false := foldl_add_background {} command.parts
  constructor
  · rintro ⟨reported, hreported, -, hiff⟩
    rw [hplace, Option.some.injEq] at hreported
    rw [← hreported, hcompleted] at hiff
    cases background <;> simpa using hiff
  · intro hagree
    refine ⟨_, hplace, ?_, by rw [hcompleted, hagree]⟩
    exact congrArg command.command.inBackground hfresh.symm

def bareWord (name : String) (hname : isSimple [.word ⟨name, false⟩] = true) : Simple :=
  ⟨[.word ⟨name, false⟩], List.cons_ne_nil _ _, hname⟩

/-- `a; b`, without or with a terminator. -/
def fetches : Chain × Chain :=
  (.one (.simple (bareWord "a" (by decide))), .one (.simple (bareWord "b" (by decide))))

/-- `(a; b) & c`. -/
def sheltered : Lines :=
  .behind (.one 0 (.one (.subshell (.behind (.one 0 fetches.1 .semicolon 0) fetches.2)))
    .ampersand 0) (.one (.simple (bareWord "c" (by decide))))

theorem sheltered_reportsCompleted : ReportsCompleted "(a; b) & c" sheltered :=
  (reportsCompleted_iff (by decide +kernel)).mpr (by decide +kernel)

/-- `{ a; b; } & c`. -/
def unsheltered : Lines :=
  .behind (.one 0 (.one (.group (.more 0 fetches.1 .semicolon (.one 0 fetches.2 .semicolon 0))))
    .ampersand 0) (.one (.simple (bareWord "c" (by decide))))

/-- `a` runs in the background here, and is reported as completed. -/
theorem group_unsheltered : ¬ ∀ text script, tokenize text = script.tokens →
    ReportsCompleted text script := by
  intro h
  have htext : tokenize "\x7b a; b; \x7d & c" = unsheltered.tokens := by decide +kernel
  obtain ⟨reported, hplace, -, hiff⟩ := h _ _ htext [.keyword "\x7b"] (bareWord "a" (by decide)) true
    (unsheltered.pieces false |>.drop 2) rfl
  have hfound : (parseScript "\x7b a; b; \x7d & c").commands[0]? =
      some ({ words := [⟨"a", false⟩] }, ⟨["a"], []⟩) := by decide +kernel
  have hcompleted : ({ words := [⟨"a", false⟩] }, ⟨["a"], []⟩) ∈
      completedCommands "\x7b a; b; \x7d & c" := by decide +kernel
  obtain rfl : ({ words := [⟨"a", false⟩] }, ⟨["a"], []⟩) = reported :=
    Option.some.inj (hfound.symm.trans hplace)
  exact absurd (hiff.mp hcompleted) (by decide)

end Ci
