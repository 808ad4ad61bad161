import Mathlib.Data.List.Infix
import AtriumVerified.Ci.ShellCommand

/-!
# The command that really runs

What a prefix is, as the comments of the source have it: a launcher with its options, or a package
manager with its options and the word that says "and now run this". The source takes a package
manager away before any word, and at most eight prefixes.
-/

namespace Ci

/-! ## Prefixes -/

/-- Options, those of `value` each with the word behind it, and none of those of `reject`. -/
inductive Options (value reject : List String) : List String → Prop where
  | nil : Options value reject []
  | flag {word : String} {options : List String} (hoption : isOption word = true)
      (hvalue : word ∉ value) (hreject : word ∉ reject) (hrest : Options value reject options) :
      Options value reject (word :: options)
  | valued {word argument : String} {options : List String} (hoption : isOption word = true)
      (hvalue : word ∈ value) (hreject : word ∉ reject) (hrest : Options value reject options) :
      Options value reject (word :: argument :: options)

/-- A launcher's options, its assignments and its positional words stand before what it runs. -/
structure Launches (launcher : Launcher) (options assigned positional rest : List String) :
    Prop where
  options : Options launcher.value launcher.reject options
  first : ∀ word ∈ (assigned ++ positional ++ rest).head?, isOption word = false
  assigned : ∀ word ∈ assigned, launcher.assignments = true ∧ (assignment? word).isSome = true
  next : launcher.assignments = true →
    ∀ word ∈ (positional ++ rest).head?, (assignment? word).isSome = false
  positional : positional.length = launcher.positional
  rest : rest ≠ []

/-- A package manager's options, and the word that says "and now run this" if there is one, stand
before what is behind. -/
structure Manages (manager : PackageManager) (options said rest : List String) : Prop where
  options : Options manager.value [] options
  first : ∀ word ∈ (said ++ rest).head?, isOption word = false
  said : (∃ word ∈ execWords, said = [word]) ∨
    said = [] ∧ ∀ word ∈ rest.head?, word ∉ execWords
  rest : rest ≠ []

/-- The words begin with a prefix, whose first word is the head, and end with the rest. -/
inductive Peels : List String → String → List String → Prop where
  | launcher {head : String} {launcher : Launcher} {options assigned positional rest : List String}
      (hhead : launchers.lookup head = some launcher)
      (h : Launches launcher options assigned positional rest) :
      Peels (head :: (options ++ (assigned ++ positional ++ rest))) head rest
  | manager {head : String} {manager : PackageManager} {options said rest : List String}
      (hlauncher : launchers.lookup head = none)
      (hhead : packageManagers.lookup head = some manager)
      (h : Manages manager options said rest) (hruns : manager.implicitExec = true ∨ said ≠ []) :
      Peels (head :: (options ++ (said ++ rest))) head rest

/-- The words begin with prefixes, whose first words are given, and end with the rest. -/
inductive Strips : List String → List String → List String → Prop where
  | done (words : List String) : Strips words [] words
  | step {words rest via final : List String} {head : String}
      (hpeel : Peels words head rest) (hrest : Strips rest via final) :
      Strips words (head :: via) final

/-- A package manager that runs a word only if another one says so stands, with its options, before
a word that does not. -/
def BareWordManager (words : List String) : Prop :=
  ∃ head manager options rest, words = head :: (options ++ rest) ∧
    launchers.lookup head = none ∧ packageManagers.lookup head = some manager ∧
    manager.implicitExec = false ∧ Manages manager options [] rest

/-! ## One prefix -/

section Steps

variable {words rest via final value reject options more args : List String} {head : String}

theorem splitOptions_of_options (h : Options value reject options)
    (hfirst : ∀ word ∈ more.head?, isOption word = false) :
    ∃ found, splitOptions value (options ++ more) = (found, more) ∧
      ∀ word ∈ found, word ∉ reject := by
  induction h with
  | nil =>
    refine ⟨[], ?_, nofun⟩
    match more, hfirst with
    | [], _ => rfl
    | [word], hfirst =>
      rw [List.nil_append, splitOptions, if_neg (by simp [hfirst word rfl])]
    | word :: next :: rest, hfirst =>
      rw [List.nil_append, splitOptions, if_neg (by simp [hfirst word rfl])]
  | @flag word options hoption hvalue hreject hrest ih =>
    obtain ⟨found, hsplit, hfound⟩ := ih
    refine ⟨word :: found, ?_, List.forall_mem_cons.mpr ⟨hreject, hfound⟩⟩
    cases hwords : options ++ more with
    | nil =>
      rw [hwords, splitOptions] at hsplit
      cases hsplit
      rw [List.cons_append, hwords, splitOptions, if_pos hoption]
    | cons next rest =>
      rw [List.cons_append, hwords, splitOptions, if_pos hoption, if_neg (by simpa using hvalue),
        ← hwords, hsplit]
  | @valued word argument options hoption hvalue hreject hrest ih =>
    obtain ⟨found, hsplit, hfound⟩ := ih
    refine ⟨word :: found, ?_, List.forall_mem_cons.mpr ⟨hreject, hfound⟩⟩
    rw [List.cons_append, List.cons_append, splitOptions, if_pos hoption,
      if_pos (by simpa using hvalue), hsplit]

theorem options_of_splitOptions (hmore : (splitOptions value args).2 ≠ [])
    (hreject : ∀ word ∈ (splitOptions value args).1, word ∉ reject) :
    ∃ options, args = options ++ (splitOptions value args).2 ∧ Options value reject options ∧
      ∀ word ∈ (splitOptions value args).2.head?, isOption word = false := by
  fun_induction splitOptions value args with
  | case1 => exact absurd rfl hmore
  | case2 word hoption => exact absurd rfl hmore
  | case3 word hoption =>
    exact ⟨[], rfl, .nil, fun found hfound => by
      rw [← Option.some.inj hfound]; exact Bool.not_eq_true _ ▸ hoption⟩
  | case4 word next rest hoption hvalue ih =>
    obtain ⟨hword, hfound⟩ := List.forall_mem_cons.mp hreject
    obtain ⟨options, hargs, hoptions, hfirst⟩ := ih hmore hfound
    refine ⟨word :: next :: options, ?_, .valued hoption (by simpa using hvalue) hword hoptions,
      hfirst⟩
    rw [List.cons_append, List.cons_append, ← hargs]
  | case5 word next rest hoption hvalue ih =>
    obtain ⟨hword, hfound⟩ := List.forall_mem_cons.mp hreject
    obtain ⟨options, hargs, hoptions, hfirst⟩ := ih hmore hfound
    refine ⟨word :: options, ?_, .flag hoption (by simpa using hvalue) hword hoptions, hfirst⟩
    rw [List.cons_append, ← hargs]
  | case6 word next rest hoption =>
    exact ⟨[], rfl, .nil, fun found hfound => by
      rw [← Option.some.inj hfound]; exact Bool.not_eq_true _ ▸ hoption⟩

theorem dropWhile_assigned {assigned : List String} {p : String → Bool}
    (hall : ∀ word ∈ assigned, p word = true) (hnext : ∀ word ∈ more.head?, p word = false) :
    (assigned ++ more).dropWhile p = more := by
  rw [List.dropWhile_append_of_pos hall]
  cases more with
  | nil => rfl
  | cons word rest => exact List.dropWhile_cons_of_neg (by simp [hnext word rfl])

theorem Launcher.strip_iff {launcher : Launcher} : launcher.strip args = some rest ↔
    ∃ options assigned positional, args = options ++ (assigned ++ positional ++ rest) ∧
      Launches launcher options assigned positional rest := by
  constructor
  · intro h
    unfold Launcher.strip at h
    dsimp only at h
    obtain ⟨assigned, left, hsplit, hassigned, hnext, hleft⟩ :
        ∃ assigned left, (splitOptions launcher.value args).2 = assigned ++ left ∧
          (∀ word ∈ assigned, launcher.assignments = true ∧ (assignment? word).isSome = true) ∧
          (launcher.assignments = true → ∀ word ∈ left.head?, (assignment? word).isSome = false) ∧
          left = (if launcher.assignments then
            (splitOptions launcher.value args).2.dropWhile fun word => (assignment? word).isSome
            else (splitOptions launcher.value args).2) := by
      by_cases hassignments : launcher.assignments = true
      · rw [if_pos hassignments]
        refine ⟨_, _, (List.takeWhile_append_dropWhile ..).symm,
          fun word hword => ⟨hassignments, List.all_eq_true.mp List.all_takeWhile word hword⟩,
          fun _ word hword => ?_, rfl⟩
        have hhead := List.head?_dropWhile_not (fun word => (assignment? word).isSome)
          (splitOptions launcher.value args).2
        rw [hword] at hhead
        exact hhead
      · rw [if_neg hassignments]
        exact ⟨[], _, rfl, nofun, fun h => absurd h hassignments, rfl⟩
    rw [← hleft] at h
    split at h
    · cases h
    rename_i hkept
    rw [Bool.or_eq_true, not_or, List.any_eq_true, List.isEmpty_iff] at hkept
    obtain ⟨hreject, hne⟩ := hkept
    cases h
    have hmore : (splitOptions launcher.value args).2 ≠ [] := by
      rw [hsplit]
      rintro hnil
      rw [(List.append_eq_nil_iff.mp hnil).2, List.drop_nil] at hne
      exact hne rfl
    have hallowed : ∀ word ∈ (splitOptions launcher.value args).1, word ∉ launcher.reject :=
      fun word hword hmem => hreject ⟨word, hword, by simpa using hmem⟩
    obtain ⟨options, hargs, hoptions, hfirst⟩ := options_of_splitOptions hmore hallowed
    have hparts : left.take launcher.positional ++ left.drop launcher.positional = left :=
      List.take_append_drop _ _
    have hlength : launcher.positional ≤ left.length := by
      rw [List.drop_eq_nil_iff] at hne
      omega
    refine ⟨options, assigned, left.take launcher.positional, ?_, hoptions, ?_, hassigned, ?_,
      List.length_take_of_le hlength, hne⟩
    · rw [List.append_assoc, hparts, ← hsplit]
      exact hargs
    · rw [List.append_assoc, hparts, ← hsplit]
      exact hfirst
    · rw [hparts]
      exact hnext
  · rintro ⟨options, assigned, positional, rfl, h⟩
    obtain ⟨found, hsplit, hfound⟩ := splitOptions_of_options h.options h.first
    have hassigned : (if launcher.assignments then
        (assigned ++ positional ++ rest).dropWhile fun word => (assignment? word).isSome
        else assigned ++ positional ++ rest) = positional ++ rest := by
      by_cases hassignments : launcher.assignments = true
      · rw [if_pos hassignments, List.append_assoc]
        exact dropWhile_assigned (fun word hword => (h.assigned word hword).2) (h.next hassignments)
      · rw [if_neg hassignments]
        have hnil : assigned = [] := List.eq_nil_iff_forall_not_mem.mpr fun word hword =>
          hassignments (h.assigned word hword).1
        rw [hnil, List.nil_append]
    have hreject : found.any launcher.reject.contains = false := by
      rw [List.any_eq_false]
      exact fun word hword => by simpa using hfound word hword
    have hrest : rest.isEmpty = false := List.isEmpty_eq_false_iff.mpr h.rest
    rw [Launcher.strip, hsplit]
    dsimp only
    rw [hassigned, ← h.positional, List.drop_left, hreject, hrest]
    rfl

theorem PackageManager.strip_iff {manager : PackageManager} : manager.strip args = some rest ↔
    ∃ options said, args = options ++ (said ++ rest) ∧ Manages manager options said rest := by
  constructor
  · intro h
    unfold PackageManager.strip at h
    split at h
    · cases h
    rename_i word more hsplit
    have hallowed : ∀ word ∈ (splitOptions manager.value args).1, word ∉ [] := fun _ _ => nofun
    obtain ⟨options, hargs, hoptions, hfirst⟩ :=
      options_of_splitOptions (hsplit ▸ List.cons_ne_nil word more) hallowed
    rw [hsplit] at hargs hfirst
    split at h
    · rename_i hexec
      split at h
      · cases h
      · rename_i hmore
        cases h
        exact ⟨options, [word], hargs, hoptions, hfirst, .inl ⟨word, by simpa using hexec, rfl⟩,
          by simpa using hmore⟩
    · rename_i hexec
      cases h
      refine ⟨options, [], hargs, hoptions, hfirst, .inr ⟨rfl, ?_⟩, List.cons_ne_nil _ _⟩
      intro first hfirst
      obtain rfl := Option.some.inj hfirst
      simpa using hexec
  · rintro ⟨options, said, rfl, h⟩
    obtain ⟨found, hsplit, -⟩ := splitOptions_of_options h.options h.first
    rw [PackageManager.strip, hsplit]
    rcases h.said with ⟨word, hword, rfl⟩ | ⟨rfl, hword⟩
    · have hexec : execWords.contains word = true := by simpa using hword
      have hrest : rest.isEmpty = false := List.isEmpty_eq_false_iff.mpr h.rest
      simp only [List.singleton_append, hexec, hrest, if_true]
      rfl
    · obtain ⟨word, more, rfl⟩ := List.exists_cons_of_ne_nil h.rest
      have hexec : execWords.contains word = false := by simpa using hword word rfl
      simp only [List.nil_append, hexec]
      rfl

example : unwrapStep ["sudo", "-u", "ada", "git"] = some ("sudo", ["git"]) := by decide +kernel

theorem unwrapStep_of_peels (h : Peels words head rest) : unwrapStep words = some (head, rest) := by
  cases h with
  | launcher hhead h =>
    rw [unwrapStep, hhead]
    dsimp only
    rw [Launcher.strip_iff.mpr ⟨_, _, _, rfl, h⟩]
    rfl
  | manager hlauncher hhead h hruns =>
    rw [unwrapStep, hlauncher]
    dsimp only
    rw [hhead]
    dsimp only
    rw [PackageManager.strip_iff.mpr ⟨_, _, rfl, h⟩]
    rfl

/-- What the source takes away is a prefix, or a manager before a bare word. -/
theorem peels_of_unwrapStep (h : unwrapStep words = some (head, rest)) :
    Peels words head rest ∨ BareWordManager words := by
  cases words with
  | nil => cases h
  | cons first args =>
    rw [unwrapStep] at h
    cases hlauncher : launchers.lookup first with
    | some launcher =>
      rw [hlauncher] at h
      obtain ⟨found, hfound, heq⟩ := Option.map_eq_some_iff.mp h
      cases heq
      obtain ⟨options, assigned, positional, rfl, hlaunches⟩ := Launcher.strip_iff.mp hfound
      exact .inl (.launcher hlauncher hlaunches)
    | none =>
      rw [hlauncher] at h
      cases hmanager : packageManagers.lookup first with
      | none =>
        rw [hmanager] at h
        cases h
      | some manager =>
        rw [hmanager] at h
        obtain ⟨found, hfound, heq⟩ := Option.map_eq_some_iff.mp h
        cases heq
        obtain ⟨options, said, rfl, hmanages⟩ := PackageManager.strip_iff.mp hfound
        by_cases hruns : manager.implicitExec = true ∨ said ≠ []
        · exact .inl (.manager hlauncher hmanager hmanages hruns)
        · obtain ⟨himplicit, hsaid⟩ := not_or.mp hruns
          obtain rfl := not_not.mp hsaid
          exact .inr ⟨_, manager, options, _, rfl, hlauncher, hmanager,
            Bool.not_eq_true _ ▸ himplicit, hmanages⟩

theorem BareWordManager.unwrapStep (h : BareWordManager words) : unwrapStep words ≠ none := by
  obtain ⟨head, manager, options, rest, rfl, hlauncher, hmanager, -, hmanages⟩ := h
  rw [Ci.unwrapStep, hlauncher]
  dsimp only
  rw [hmanager]
  dsimp only
  have hstrip : manager.strip (options ++ rest) = some rest :=
    PackageManager.strip_iff.mpr ⟨options, [], rfl, hmanages⟩
  rw [hstrip]
  exact Option.some_ne_none _

theorem Peels.suffix (h : Peels words head rest) : rest <:+ words := by
  cases h with
  | launcher hhead h =>
    exact (List.suffix_append _ _).trans ((List.suffix_append _ _).trans (List.suffix_cons _ _))
  | manager hlauncher hhead h hruns =>
    exact (List.suffix_append _ _).trans ((List.suffix_append _ _).trans (List.suffix_cons _ _))

theorem Strips.suffix (h : Strips words via final) : final <:+ words := by
  induction h with
  | done words => exact List.suffix_rfl
  | step hpeel hrest ih => exact ih.trans hpeel.suffix

end Steps

/-! ## All prefixes -/

section Chain

variable {words via final : List String} {guard : Nat}

theorem unwrapFrom_of_strips (h : Strips words via final) (hguard : via.length ≤ guard)
    (hend : via.length < guard → unwrapStep final = none) (stripped : List String) :
    unwrapFrom guard words stripped = ⟨final, stripped ++ via⟩ := by
  induction h generalizing guard stripped with
  | done words =>
    rw [List.append_nil]
    cases guard with
    | zero => rfl
    | succ guard => rw [unwrapFrom, hend (Nat.succ_pos guard)]
  | step hpeel hrest ih =>
    cases guard with
    | zero => cases hguard
    | succ guard =>
      rw [List.length_cons] at hguard hend
      rw [unwrapFrom, unwrapStep_of_peels hpeel]
      dsimp only
      rw [ih (by omega) (fun hlt => hend (by omega)), List.append_assoc, List.singleton_append]

theorem unwrapFrom_via (guard : Nat) (words stripped : List String) :
    ∃ via, (unwrapFrom guard words stripped).via = stripped ++ via ∧ via.length ≤ guard ∧
      (via.length < guard → unwrapStep (unwrapFrom guard words stripped).argv = none) := by
  induction guard generalizing words stripped with
  | zero => exact ⟨[], (List.append_nil _).symm, le_rfl, fun hlt => absurd hlt (Nat.lt_irrefl 0)⟩
  | succ guard ih =>
    cases hstep : unwrapStep words with
    | none =>
      refine ⟨[], ?_, Nat.zero_le _, fun _ => ?_⟩
      · rw [unwrapFrom, hstep, List.append_nil]
      · rw [unwrapFrom, hstep]
        exact hstep
    | some found =>
      obtain ⟨head, rest⟩ := found
      obtain ⟨via, hvia, hlength, hend⟩ := ih rest (stripped ++ [head])
      refine ⟨head :: via, ?_, Nat.succ_le_succ hlength, fun hlt => ?_⟩
      · rw [unwrapFrom, hstep, hvia, List.append_assoc]
        rfl
      · rw [unwrapFrom, hstep]
        exact hend (Nat.lt_of_succ_lt_succ hlt)

/-- The words that are returned are a suffix of the argv behind the prefixes that were taken away,
and do not begin with a prefix themselves, exactly when the argv begins with at most eight prefixes
and, if there are fewer, what they run is no package manager before a bare word. -/
theorem unwrap_stops_iff (argv : List String) :
    ((unwrap argv).argv <:+ argv ∧ Strips argv (unwrap argv).via (unwrap argv).argv ∧
        ∀ head rest, ¬ Peels (unwrap argv).argv head rest) ↔
      ∃ via final, Strips argv via final ∧ (∀ head rest, ¬ Peels final head rest) ∧
        via.length ≤ 8 ∧ (via.length < 8 → ¬ BareWordManager final) := by
  constructor
  · rintro ⟨-, hstrips, hpeel⟩
    obtain ⟨via, hvia, hlength, hend⟩ := unwrapFrom_via 8 argv []
    have hsame : (unwrap argv).via = via := hvia
    refine ⟨_, _, hstrips, hpeel, hsame ▸ hlength, fun hlt hbare => ?_⟩
    exact hbare.unwrapStep (hend (hsame ▸ hlt))
  · rintro ⟨via, final, hstrips, hpeel, hlength, hbare⟩
    have hend : via.length < 8 → unwrapStep final = none := by
      intro hlt
      cases hstep : unwrapStep final with
      | none => rfl
      | some found =>
        rcases peels_of_unwrapStep hstep with hfound | hmanager
        · exact absurd hfound (hpeel _ _)
        · exact absurd hmanager (hbare hlt)
    have hunwrap : unwrap argv = ⟨final, via⟩ := unwrapFrom_of_strips hstrips hlength hend []
    rw [hunwrap]
    exact ⟨hstrips.suffix, hstrips, hpeel⟩

theorem echo_not_option {value reject options more : List String} (h : Options value reject options)
    (hwords : options ++ more = ["echo", "exec", "node"]) : options = [] := by
  cases h with
  | nil => rfl
  | flag hoption =>
    rw [(List.cons.inj hwords).1] at hoption
    exact absurd hoption (by decide)
  | valued hoption =>
    rw [(List.cons.inj hwords).1] at hoption
    exact absurd hoption (by decide)

theorem not_peels_pnpm_echo {head : String} {rest : List String} :
    ¬ Peels ["pnpm", "echo", "exec", "node"] head rest := by
  intro h
  generalize hwords : ["pnpm", "echo", "exec", "node"] = words at h
  cases h with
  | launcher hhead =>
    rw [← (List.cons.inj hwords).1] at hhead
    cases hhead
  | manager _ hhead h hruns =>
    obtain ⟨rfl, htail⟩ := List.cons.inj hwords
    obtain rfl := echo_not_option h.options htail.symm
    obtain rfl := Option.some.inj hhead
    rcases h.said with ⟨word, hword, rfl⟩ | ⟨rfl, -⟩
    · rw [← (List.cons.inj htail).1] at hword
      exact absurd hword (by decide)
    · exact absurd rfl (hruns.resolve_left Bool.false_ne_true)

/-- A package manager is taken away before a bare word, and the ninth launcher is not. -/
theorem unwrap_goes_wrong :
    unwrap ["pnpm", "echo", "exec", "node"] = ⟨["echo", "exec", "node"], ["pnpm"]⟩ ∧
      ¬ Strips ["pnpm", "echo", "exec", "node"] ["pnpm"] ["echo", "exec", "node"] ∧
      unwrap (List.replicate 9 "sudo" ++ ["git"]) =
        ⟨["sudo", "git"], List.replicate 8 "sudo"⟩ ∧
      Peels ["sudo", "git"] "sudo" ["git"] := by
  refine ⟨by decide +kernel, fun h => ?_, by decide +kernel, ?_⟩
  · cases h with
    | step hpeel hrest => exact not_peels_pnpm_echo hpeel
  · have hlaunches : Launches
        { value := ["-u", "-g", "-p", "-U", "-C", "-h", "--user", "--group", "--prompt"] }
        [] [] [] ["git"] :=
      ⟨.nil, by decide, nofun, nofun, rfl, List.cons_ne_nil _ _⟩
    exact .launcher rfl hlaunches

end Chain

end Ci
