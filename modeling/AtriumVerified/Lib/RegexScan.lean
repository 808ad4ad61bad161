import Mathlib.Data.List.TakeWhile
import AtriumVerified.Lib.RegexResults

/-!
# Scanning a text for all matches

What a global scan makes of a text when something is put before it or after it that takes part in no
match, when every character takes part in one, and when the pattern is a run of one class.
-/

namespace Regex

/-! ## Where matches start and end -/

section Margins

def Starts (accepts : Char → Prop) (r : Pattern) : Prop :=
  ∀ p, ∀ q ∈ results r p, ∃ c rest, p.after = c :: rest ∧ accepts c

/-- Before every match's end stands such a character. -/
def Ends (accepts : Char → Prop) (r : Pattern) : Prop :=
  ∀ p, ∀ q ∈ results r p, ∃ c rest, q.before = c :: rest ∧ accepts c

def Progress (r : Pattern) : Prop := ∀ p, ∀ q ∈ results r p, q.after.length < p.after.length

variable {accepts : Char → Prop} {first second : Pattern} {class' : Char → Bool}

theorem Starts.mono {accepts' : Char → Prop} {r : Pattern} (h : Starts accepts r)
    (himp : ∀ c, accepts c → accepts' c) : Starts accepts' r := by
  intro p q hq
  obtain ⟨c, rest, hafter, hc⟩ := h p q hq
  exact ⟨c, rest, hafter, himp c hc⟩

theorem Ends.mono {accepts' : Char → Prop} {r : Pattern} (h : Ends accepts r)
    (himp : ∀ c, accepts c → accepts' c) : Ends accepts' r := by
  intro p q hq
  obtain ⟨c, rest, hbefore, hc⟩ := h p q hq
  exact ⟨c, rest, hbefore, himp c hc⟩

theorem mem_results_one {p q : Position} (h : q ∈ results (.one class') p) :
    ∃ c rest, p.after = c :: rest ∧ class' c = true ∧ q = ⟨c :: p.before, rest, p.groups⟩ := by
  unfold results at h
  split at h
  · cases h
  · rename_i c rest hafter
    split at h
    · rename_i hc
      exact ⟨c, rest, hafter, hc, List.mem_singleton.mp h⟩
    · cases h

theorem starts_one (h : ∀ c, class' c = true → accepts c) : Starts accepts (.one class') := by
  intro p q hq
  obtain ⟨c, rest, hafter, hc, -⟩ := mem_results_one hq
  exact ⟨c, rest, hafter, h c hc⟩

theorem ends_one (h : ∀ c, class' c = true → accepts c) : Ends accepts (.one class') := by
  intro p q hq
  obtain ⟨c, rest, -, hc, rfl⟩ := mem_results_one hq
  exact ⟨c, p.before, rfl, h c hc⟩

theorem progress_one : Progress (.one class') := by
  intro p q hq
  obtain ⟨c, rest, hafter, -, rfl⟩ := mem_results_one hq
  rw [hafter]
  exact Nat.lt_succ_self _

theorem starts_seq (h : Starts accepts first) : Starts accepts (.seq first second) := by
  intro p q hq
  obtain ⟨middle, hmiddle, -⟩ := List.mem_flatMap.mp hq
  exact h p middle hmiddle

/-- A first part that may be empty leaves the start to the second. -/
theorem starts_seq_optional
    (h : ∀ p, ∀ q ∈ results first p, q.after = p.after ∨ ∃ c rest, p.after = c :: rest ∧ accepts c)
    (h' : Starts accepts second) : Starts accepts (.seq first second) := by
  intro p q hq
  obtain ⟨middle, hmiddle, hq⟩ := List.mem_flatMap.mp hq
  rcases h p middle hmiddle with hsame | hfound
  · rw [← hsame]
    exact h' middle q hq
  · exact hfound

theorem ends_seq (h : Ends accepts second) : Ends accepts (.seq first second) := by
  intro p q hq
  obtain ⟨middle, -, hq⟩ := List.mem_flatMap.mp hq
  exact h middle q hq

theorem ends_seq_empty (h : Ends accepts first) : Ends accepts (.seq first .empty) := by
  intro p q hq
  obtain ⟨middle, hmiddle, hq⟩ := List.mem_flatMap.mp hq
  cases List.mem_singleton.mp hq
  exact h p q hmiddle

theorem progress_seq (h : Progress first) : Progress (.seq first second) := by
  intro p q hq
  obtain ⟨middle, hmiddle, hq⟩ := List.mem_flatMap.mp hq
  have hfirst := h p middle hmiddle
  have hsecond := (results_reads second middle q hq).length_le
  omega

theorem progress_seq_right (h : Progress second) : Progress (.seq first second) := by
  intro p q hq
  obtain ⟨middle, hmiddle, hq⟩ := List.mem_flatMap.mp hq
  have hfirst := (results_reads first p middle hmiddle).length_le
  have hsecond := h middle q hq
  omega

theorem starts_alt (h : Starts accepts first) (h' : Starts accepts second) :
    Starts accepts (.alt first second) := by
  intro p q hq
  rcases List.mem_append.mp hq with hq | hq
  · exact h p q hq
  · exact h' p q hq

theorem ends_alt (h : Ends accepts first) (h' : Ends accepts second) :
    Ends accepts (.alt first second) := by
  intro p q hq
  rcases List.mem_append.mp hq with hq | hq
  · exact h p q hq
  · exact h' p q hq

theorem progress_alt (h : Progress first) (h' : Progress second) :
    Progress (.alt first second) := by
  intro p q hq
  rcases List.mem_append.mp hq with hq | hq
  · exact h p q hq
  · exact h' p q hq

/-- A repetition that need not be taken matches nothing, or starts with its body. -/
theorem mem_results_rep_zero {max : Option Nat} {greedy : Bool} {body : Pattern} {p q : Position}
    (h : q ∈ results (.rep 0 max greedy body) p) : q = p ∨ ∃ middle, middle ∈ results body p := by
  have hmore : ∀ {f : Position → List Position}, q ∈ ((results body p).filter fun q =>
      q.after.length < p.after.length).flatMap f → ∃ middle, middle ∈ results body p := by
    intro f hq
    obtain ⟨middle, hmiddle, -⟩ := List.mem_flatMap.mp hq
    exact ⟨middle, List.mem_of_mem_filter hmiddle⟩
  unfold results repeatResults at h
  dsimp only at h
  split at h
  · exact Or.inl (List.mem_singleton.mp h)
  · split at h
    · rcases List.mem_append.mp h with h | h
      · exact Or.inr (hmore h)
      · exact Or.inl (List.mem_singleton.mp h)
    · rcases List.mem_cons.mp h with rfl | h
      · exact Or.inl rfl
      · exact Or.inr (hmore h)

/-- A repetition that is taken at least once. -/
theorem results_rep_succ (min : Nat) (max : Option Nat) (greedy : Bool) (body : Pattern)
    (p : Position) : results (.rep (min + 1) max greedy body) p =
      (results body p).flatMap
        (repeatResults (results body) greedy (min + 1 + p.after.length) min (max.map (· - 1))) := rfl

theorem progress_rep {min : Nat} {max : Option Nat} {greedy : Bool} {body : Pattern}
    (h : Progress body) : Progress (.rep (min + 1) max greedy body) := by
  intro p q hq
  rw [results_rep_succ] at hq
  obtain ⟨middle, hmiddle, hq⟩ := List.mem_flatMap.mp hq
  have hfirst := h p middle hmiddle
  have hrest := (repeatResults_reads (results_reads body) _ _ _ middle q hq).length_le
  omega

end Margins

/-! ## A text with something after it -/

section Append

variable {r : Pattern} {tail : List Char}

/-- A match that cannot end in the tail is a match of the text without it. -/
theorem results_append (hr : r.plain = true) (hends : Ends (fun c => c ∉ tail) r) (p : Position) :
    results r (p.extend tail) = (results r p).map (Position.extend tail) := by
  rw [← results_extend hr p]
  refine (List.filter_eq_self.mpr fun q hq => ?_).symm
  obtain ⟨read, hbefore, hafter⟩ := results_reads r _ q hq
  obtain ⟨c, rest, hlast, hc⟩ := hends _ q hq
  rw [decide_eq_true_eq]
  by_contra hshort
  -- the last character read would be one of the tail
  have hsplit : p.after ++ tail = read ++ q.after := hafter
  have hlength := congrArg List.length hsplit
  simp only [List.length_append] at hlength
  obtain ⟨extra, hread, htail⟩ : ∃ extra, read = p.after ++ extra ∧ tail = extra ++ q.after := by
    rcases List.append_eq_append_iff.mp hsplit with ⟨extra, hread, htail⟩ | ⟨extra, hp, hq'⟩
    · exact ⟨extra, hread, htail⟩
    · rw [hq', List.length_append] at hshort
      omega
  have hnonempty : extra ≠ [] := by
    rintro rfl
    rw [htail] at hshort
    exact hshort (by simp)
  obtain ⟨start, last, rfl⟩ := (List.eq_nil_or_concat extra).resolve_left hnonempty
  rw [hlast, hread] at hbefore
  simp only [List.concat_eq_append, List.reverse_append, List.reverse_singleton,
    List.cons_append, List.nil_append, List.cons.injEq] at hbefore
  refine hc ?_
  rw [hbefore.1, htail]
  simp

theorem search_eq_none (hstarts : Starts (fun c => c ∉ tail) r) (before : List Char) :
    search r before tail = none := by
  have hnone : ∀ before' after, (∀ c ∈ after, c ∈ tail) →
      run r ⟨before', after, []⟩ some = none := by
    intro before' after hafter
    rw [run_some, List.head?_eq_none_iff]
    refine List.eq_nil_iff_forall_not_mem.mpr fun q hq => ?_
    obtain ⟨c, rest, hc, hfresh⟩ := hstarts _ q hq
    have hmem : c ∈ after := by
      rw [show after = c :: rest from hc]
      exact List.mem_cons_self
    exact hfresh (hafter c hmem)
  suffices hall : ∀ after before, (∀ c ∈ after, c ∈ tail) → search r before after = none from
    hall tail before fun c hc => hc
  intro after
  induction after with
  | nil =>
    intro before hafter
    unfold search
    rw [hnone before [] hafter]
    rfl
  | cons c rest ih =>
    intro before hafter
    unfold search
    rw [hnone before _ hafter]
    exact ih _ fun d hd => hafter d (List.mem_cons_of_mem _ hd)

/-- A search finds a result of the pattern at a place behind its start. -/
theorem search_some {before after : List Char} {first last : Position}
    (h : search r before after = some (first, last)) :
    Reads ⟨before, after, []⟩ first ∧ last ∈ results r first := by
  induction after generalizing before with
  | nil =>
    unfold search at h
    rw [run_some] at h
    obtain ⟨q, hq, heq⟩ := Option.map_eq_some_iff.mp h
    cases heq
    exact ⟨Reads.refl _, List.mem_of_mem_head? hq⟩
  | cons c rest ih =>
    unfold search at h
    rw [run_some] at h
    split at h
    · rename_i q hq
      cases h
      exact ⟨Reads.refl _, List.mem_of_mem_head? hq⟩
    · obtain ⟨hreads, hlast⟩ := ih h
      have hstep : Reads ⟨before, c :: rest, []⟩ ⟨c :: before, rest, []⟩ := ⟨[c], rfl, rfl⟩
      exact ⟨hstep.trans hreads, hlast⟩

theorem search_append (hr : r.plain = true) (hends : Ends (fun c => c ∉ tail) r)
    (hstarts : Starts (fun c => c ∉ tail) r) (before after : List Char) :
    search r before (after ++ tail) =
      (search r before after).map fun m => (m.1.extend tail, m.2.extend tail) := by
  induction after generalizing before with
  | nil =>
    have hempty : search r before [] = none := by
      refine search_eq_none (fun p q hq => ?_) before
      obtain ⟨c, rest, hc, -⟩ := hstarts p q hq
      exact ⟨c, rest, hc, by simp⟩
    rw [hempty]
    exact search_eq_none hstarts before
  | cons c rest ih =>
    have hrun : run r ⟨before, c :: (rest ++ tail), []⟩ some =
        (run r ⟨before, c :: rest, []⟩ some).map (Position.extend tail) := by
      rw [run_some, run_some, ← List.head?_map]
      exact congrArg List.head? (results_append hr hends ⟨before, c :: rest, []⟩)
    rw [List.cons_append]
    unfold search
    rw [hrun]
    cases run r ⟨before, c :: rest, []⟩ some with
    | none => exact ih (c :: before)
    | some q => rfl

theorem scanFrom_append (hr : r.plain = true) (hends : Ends (fun c => c ∉ tail) r)
    (hstarts : Starts (fun c => c ∉ tail) r) :
    ∀ (fuel fuel' : Nat) (before after : List Char), after.length < fuel →
      after.length + tail.length < fuel' →
      scanFrom r fuel' before (after ++ tail) =
        ((scanFrom r fuel before after).1, (scanFrom r fuel before after).2 ++ tail)
  | 0, _, before, after, hfuel, _ => by omega
  | _, 0, before, after, _, hfuel => by omega
  | fuel + 1, fuel' + 1, before, after, hfuel, hfuel' => by
    unfold scanFrom
    rw [search_append hr hends hstarts]
    cases hsearch : search r before after with
    | none => rfl
    | some found =>
      obtain ⟨first, last⟩ := found
      obtain ⟨hreads, -⟩ := search_some hsearch
      have hlength : first.after.length ≤ after.length := hreads.length_le
      simp only [Option.map_some, Position.extend, List.length_append, Nat.add_lt_add_iff_right]
      split
      · rename_i hprogress
        rw [scanFrom_append hr hends hstarts fuel fuel' last.before last.after (by omega)
          (by omega)]
        rfl
      · rfl

/-- Something that takes part in no match is added to what is left over. -/
theorem scan_append (hr : r.plain = true) (hends : Ends (fun c => c ∉ tail) r)
    (hstarts : Starts (fun c => c ∉ tail) r) (text : List Char) :
    scan r (text ++ tail) = ((scan r text).1, (scan r text).2 ++ tail) := by
  refine scanFrom_append hr hends hstarts _ _ [] text (Nat.lt_succ_self _) ?_
  rw [List.length_append]
  omega

theorem replace_append (hr : r.plain = true) (hends : Ends (fun c => c ∉ tail) r)
    (hstarts : Starts (fun c => c ∉ tail) r) (replacement : Hit → List Char) (text : List Char) :
    replace r replacement (text ++ tail) = replace r replacement text ++ tail := by
  unfold replace
  rw [scan_append hr hends hstarts]
  exact (List.append_assoc _ _ _).symm

end Append

/-! ## A text with something before it -/

section Prepend

variable {r : Pattern} {lead : List Char}

/-- A search goes on where a match may start. -/
theorem search_prepend (hstarts : Starts (fun c => c ∉ lead) r) (before after : List Char) :
    search r before (lead ++ after) = search r (lead.reverse ++ before) after := by
  suffices hall : ∀ passed, (∀ c ∈ passed, c ∈ lead) → ∀ before,
      search r before (passed ++ after) = search r (passed.reverse ++ before) after from
    hall lead (fun c hc => hc) before
  intro passed
  induction passed with
  | nil => exact fun _ before => rfl
  | cons c passed ih =>
    intro hpassed before
    have hrun : run r ⟨before, c :: (passed ++ after), []⟩ some = none := by
      rw [run_some, List.head?_eq_none_iff]
      refine List.eq_nil_iff_forall_not_mem.mpr fun q hq => ?_
      obtain ⟨d, rest, hd, hfresh⟩ := hstarts _ q hq
      cases hd
      exact hfresh (hpassed c List.mem_cons_self)
    have hskip : search r before (c :: (passed ++ after)) = search r (c :: before) (passed ++ after) := by
      conv => lhs; unfold search
      rw [hrun]
    rw [List.cons_append, hskip, List.reverse_cons, List.append_assoc]
    exact ih (fun d hd => hpassed d (List.mem_cons_of_mem _ hd)) (c :: before)

theorem search_rebase (hr : r.plain = true) (base before after : List Char) :
    search r (before ++ base) after =
      (search r before after).map fun m => (m.1.rebase base, m.2.rebase base) := by
  have hrun : ∀ before after, run r ⟨before ++ base, after, []⟩ some =
      (run r ⟨before, after, []⟩ some).map (Position.rebase base) := by
    intro before after
    rw [run_some, run_some, ← List.head?_map]
    exact congrArg List.head? (results_rebase hr ⟨before, after, []⟩)
  induction after generalizing before with
  | nil =>
    unfold search
    rw [hrun, Option.map_map, Option.map_map]
    rfl
  | cons c rest ih =>
    unfold search
    rw [hrun]
    cases run r ⟨before, c :: rest, []⟩ some with
    | none => exact ih (c :: before)
    | some q => rfl

/-- A scan does not depend on what stands before its start. -/
theorem scanFrom_rebase (hr : r.plain = true) (base : List Char) :
    ∀ (fuel : Nat) (before after : List Char),
      scanFrom r fuel (before ++ base) after = scanFrom r fuel before after
  | 0, before, after => rfl
  | fuel + 1, before, after => by
    unfold scanFrom
    rw [search_rebase hr]
    cases hsearch : search r before after with
    | none => rfl
    | some found =>
      obtain ⟨first, last⟩ := found
      obtain ⟨⟨skipped, hskipped, -⟩, hlast⟩ := search_some hsearch
      obtain ⟨read, hread, -⟩ := results_reads r first last hlast
      have hskipped' : (first.rebase base).before =
          skipped.reverse ++ (⟨before ++ base, after, []⟩ : Position).before := by
        unfold Position.rebase
        rw [hskipped, List.append_assoc]
      have hread' : (last.rebase base).before = read.reverse ++ (first.rebase base).before := by
        unfold Position.rebase
        rw [hread, List.append_assoc]
      dsimp only [Option.map_some]
      rw [consumed_eq hskipped, consumed_eq hread, consumed_eq hskipped', consumed_eq hread']
      unfold Position.rebase
      dsimp only
      rw [scanFrom_rebase hr base fuel last.before last.after]

/-- Fuel beyond the length of the text changes nothing. -/
theorem scanFrom_fuel :
    ∀ (fuel fuel' : Nat) (before after : List Char), after.length < fuel → after.length < fuel' →
      scanFrom r fuel before after = scanFrom r fuel' before after
  | 0, _, before, after, hfuel, _ => by omega
  | _, 0, before, after, _, hfuel => by omega
  | fuel + 1, fuel' + 1, before, after, hfuel, hfuel' => by
    unfold scanFrom
    cases hsearch : search r before after with
    | none => rfl
    | some found =>
      obtain ⟨first, last⟩ := found
      have hlength := (search_some hsearch).1.length_le
      dsimp only at hlength ⊢
      split
      · rw [scanFrom_fuel fuel fuel' last.before last.after (by omega) (by omega)]
      · rfl

/-- A scan of a text with something more before it. -/
def skipping (lead : List Char) : List Hit × List Char → List Hit × List Char
  | ([], rest) => ([], lead ++ rest)
  | (hit :: hits, rest) => ({ hit with skipped := lead ++ hit.skipped } :: hits, rest)

/-- Something that takes part in no match is skipped before the first one. -/
theorem scan_prepend (hr : r.plain = true) (hstarts : Starts (fun c => c ∉ lead) r)
    (text : List Char) : scan r (lead ++ text) = skipping lead (scan r text) := by
  unfold scan
  rw [scanFrom_fuel (text.length + 1) ((lead ++ text).length + 1) [] text (by omega)
    (by rw [List.length_append]; omega)]
  generalize hfuel : (lead ++ text).length = fuel
  unfold scanFrom
  have hsearch : search r [] (lead ++ text) =
      (search r [] text).map fun m => (m.1.rebase lead.reverse, m.2.rebase lead.reverse) := by
    rw [search_prepend hstarts, List.append_nil]
    exact search_rebase hr lead.reverse [] text
  rw [hsearch]
  cases hfound : search r [] text with
  | none => rfl
  | some found =>
    obtain ⟨first, last⟩ := found
    obtain ⟨⟨skipped, hskipped, -⟩, hlast⟩ := search_some hfound
    obtain ⟨read, hread, -⟩ := results_reads r first last hlast
    have hskipped' : (first.rebase lead.reverse).before =
        (lead ++ skipped).reverse ++ (⟨[], lead ++ text, []⟩ : Position).before := by
      unfold Position.rebase
      rw [hskipped, List.reverse_append]
      simp
    have hread' : (last.rebase lead.reverse).before =
        read.reverse ++ (first.rebase lead.reverse).before := by
      unfold Position.rebase
      rw [hread, List.append_assoc]
    dsimp only [Option.map_some]
    rw [consumed_eq hskipped, consumed_eq hread, consumed_eq hskipped', consumed_eq hread']
    unfold Position.rebase
    dsimp only
    rw [scanFrom_rebase hr lead.reverse fuel last.before last.after]
    split
    · rfl
    · rfl

/-- A replacement that does not read what was skipped keeps such a beginning. -/
theorem replace_prepend (hr : r.plain = true) (hstarts : Starts (fun c => c ∉ lead) r)
    {replacement : Hit → List Char}
    (hreplacement : ∀ hit skipped, replacement { hit with skipped } = replacement hit)
    (text : List Char) :
    replace r replacement (lead ++ text) = lead ++ replace r replacement text := by
  unfold replace
  rw [scan_prepend hr hstarts]
  cases hscan : scan r text with
  | mk hits rest =>
    cases hits with
    | nil => rfl
    | cons hit hits =>
      simp only [skipping, List.flatMap_cons, hreplacement, List.append_assoc]

end Prepend

/-! ## Texts that are matched completely -/

section Cover

variable {r : Pattern}

theorem scanFrom_cover (htotal : ∀ p, p.after ≠ [] → results r p ≠ []) (hprogress : Progress r) :
    ∀ (fuel : Nat) (before after : List Char), after.length < fuel →
      ((scanFrom r fuel before after).1.map Hit.matched).flatten = after
  | 0, before, after, hfuel => by omega
  | fuel + 1, before, after, hfuel => by
    unfold scanFrom
    cases after with
    | nil =>
      have hnone : search r before [] = none := by
        cases hsearch : search r before [] with
        | none => rfl
        | some found =>
          obtain ⟨first, last⟩ := found
          obtain ⟨hreads, hlast⟩ := search_some hsearch
          have hshort := hprogress first last hlast
          have hlength := hreads.length_le
          simp only [List.length_nil] at hlength
          omega
      rw [hnone]
      rfl
    | cons c rest =>
      obtain ⟨last, hlast⟩ : ∃ last, run r ⟨before, c :: rest, []⟩ some = some last := by
        rw [run_some]
        cases hresults : results r ⟨before, c :: rest, []⟩ with
        | nil => exact absurd hresults (htotal _ (List.cons_ne_nil c rest))
        | cons q l => exact ⟨q, rfl⟩
      have hsearch : search r before (c :: rest) = some (⟨before, c :: rest, []⟩, last) := by
        unfold search
        rw [hlast]
      rw [hsearch]
      rw [run_some] at hlast
      have hmem := List.mem_of_mem_head? hlast
      have hshort := hprogress _ last hmem
      obtain ⟨read, hbefore, hafter⟩ := results_reads r _ last hmem
      dsimp only at hshort hafter ⊢
      rw [if_pos hshort, consumed_eq hbefore]
      simp only [List.map_cons, List.flatten_cons]
      rw [scanFrom_cover htotal hprogress fuel last.before last.after (by
        simp only [List.length_cons] at hshort hfuel
        omega)]
      exact hafter.symm

/-- A pattern that matches at every character cuts a text into its matches. -/
theorem matchAll_flatten (htotal : ∀ p, p.after ≠ [] → results r p ≠ []) (hprogress : Progress r)
    (text : List Char) : (matchAll r text).flatten = text :=
  scanFrom_cover htotal hprogress _ [] text (Nat.lt_succ_self _)

end Cover

/-! ## Runs of one class -/

section Squeeze

variable {accepts : Char → Bool} {c : Char}

/-- The text with every run of a class replaced by one character. The flag says that the text goes on
from within a run. -/
def squeeze (accepts : Char → Bool) (c : Char) : Bool → List Char → List Char
  | _, [] => []
  | inRun, d :: rest =>
    if accepts d then
      if inRun then squeeze accepts c true rest else c :: squeeze accepts c true rest
    else d :: squeeze accepts c false rest

/-- The longest run is tried first. -/
theorem head?_many_one (p : Position) (fuel : Nat) (hfuel : p.after.length < fuel) :
    (repeatResults (results (.one accepts)) true fuel 0 none p).head? =
      some ⟨(p.after.takeWhile accepts).reverse ++ p.before, p.after.dropWhile accepts,
        p.groups⟩ := by
  obtain ⟨before, after, groups⟩ := p
  induction after generalizing before fuel with
  | nil =>
    cases fuel with
    | zero => cases hfuel
    | succ fuel => rfl
  | cons d rest ih =>
    cases fuel with
    | zero => cases hfuel
    | succ fuel =>
      unfold repeatResults
      rw [if_neg (by rintro ⟨⟩)]
      cases hd : accepts d with
      | true =>
        have hbody : (results (.one accepts) ⟨before, d :: rest, groups⟩).filter (fun q =>
              q.after.length < (⟨before, d :: rest, groups⟩ : Position).after.length) =
            [⟨d :: before, rest, groups⟩] := by
          unfold results
          simp [hd]
        have hrest := ih fuel (d :: before) (by simpa using hfuel)
        simp only [hbody, List.flatMap_singleton, if_true, Option.map_none]
        rw [List.head?_append, hrest]
        simp [hd]
      | false =>
        have hbody : results (.one accepts) ⟨before, d :: rest, groups⟩ = [] := by
          unfold results
          simp [hd]
        simp [hbody, hd]

theorem run_many1_one (before after : List Char) :
    run (many1 (.one accepts)) ⟨before, after, []⟩ some =
      match after with
      | [] => none
      | d :: rest =>
        if accepts d then
          some ⟨(rest.takeWhile accepts).reverse ++ d :: before, rest.dropWhile accepts, []⟩
        else none := by
  rw [run_some]
  unfold many1
  rw [results_rep_succ]
  cases after with
  | nil => rfl
  | cons d rest =>
    cases hd : accepts d with
    | true =>
      have hbody : results (.one accepts) ⟨before, d :: rest, []⟩ = [⟨d :: before, rest, []⟩] := by
        unfold results
        simp [hd]
      rw [hbody, List.flatMap_singleton]
      dsimp only
      rw [if_pos hd]
      exact head?_many_one ⟨d :: before, rest, []⟩ _ (by simp; omega)
    | false =>
      have hbody : results (.one accepts) ⟨before, d :: rest, []⟩ = [] := by
        unfold results
        simp [hd]
      rw [hbody]
      simp [hd]

theorem squeeze_of_not {text : List Char} (h : ∀ d ∈ text, accepts d = false) (rest : List Char) :
    squeeze accepts c false (text ++ rest) = text ++ squeeze accepts c false rest := by
  induction text with
  | nil => rfl
  | cons d text ih =>
    have hd := h d List.mem_cons_self
    rw [List.cons_append]
    conv => lhs; unfold squeeze
    rw [hd, if_neg Bool.false_ne_true, ih fun e he => h e (List.mem_cons_of_mem _ he)]
    rfl

/-- From within a run, the rest of the run goes. -/
theorem squeeze_true (text : List Char) :
    squeeze accepts c true text = squeeze accepts c false (text.dropWhile accepts) := by
  induction text with
  | nil => rfl
  | cons d text ih =>
    cases hd : accepts d with
    | true =>
      rw [List.dropWhile_cons_of_pos hd, ← ih]
      simp [squeeze, hd]
    | false =>
      rw [List.dropWhile_cons_of_neg (by simp [hd])]
      simp [squeeze, hd]

theorem squeeze_false (text : List Char) :
    squeeze accepts c false text = squeeze accepts c true text ∨
      squeeze accepts c false text = c :: squeeze accepts c true text := by
  cases text with
  | nil => exact Or.inl rfl
  | cons d text =>
    cases hd : accepts d with
    | true => exact Or.inr (by simp [squeeze, hd])
    | false => exact Or.inl (by simp [squeeze, hd])

/-- What a search for a run of a class finds. -/
theorem search_many1_one (before after : List Char) :
    (search (many1 (.one accepts)) before after = none ∧ ∀ d ∈ after, accepts d = false) ∨
      ∃ skipped d rest, after = skipped ++ d :: rest ∧ (∀ e ∈ skipped, accepts e = false) ∧
        accepts d = true ∧
        search (many1 (.one accepts)) before after = some
          (⟨skipped.reverse ++ before, d :: rest, []⟩,
            ⟨(rest.takeWhile accepts).reverse ++ d :: (skipped.reverse ++ before),
              rest.dropWhile accepts, []⟩) := by
  induction after generalizing before with
  | nil =>
    refine Or.inl ⟨?_, by simp⟩
    unfold search
    rw [run_many1_one]
    rfl
  | cons d rest ih =>
    cases hd : accepts d with
    | true =>
      refine Or.inr ⟨[], d, rest, rfl, by simp, hd, ?_⟩
      unfold search
      rw [run_many1_one]
      simp [hd]
    | false =>
      have hskip : search (many1 (.one accepts)) before (d :: rest) =
          search (many1 (.one accepts)) (d :: before) rest := by
        conv => lhs; unfold search
        rw [run_many1_one]
        simp [hd]
      rw [hskip]
      rcases ih (d :: before) with ⟨hnone, hall⟩ | ⟨skipped, e, tail, rfl, hskipped, he, hfound⟩
      · refine Or.inl ⟨hnone, ?_⟩
        intro e he
        rcases List.mem_cons.mp he with rfl | he
        · exact hd
        · exact hall e he
      · refine Or.inr ⟨d :: skipped, e, tail, rfl, ?_, he, ?_⟩
        · intro f hf
          rcases List.mem_cons.mp hf with rfl | hf
          · exact hd
          · exact hskipped f hf
        · rw [hfound]
          simp

theorem scanFrom_many1_one :
    ∀ (fuel : Nat) (before after : List Char), after.length < fuel →
      (scanFrom (many1 (.one accepts)) fuel before after).1.flatMap
          (fun hit => hit.skipped ++ [c]) ++
        (scanFrom (many1 (.one accepts)) fuel before after).2 = squeeze accepts c false after
  | 0, before, after, hfuel => by omega
  | fuel + 1, before, after, hfuel => by
    unfold scanFrom
    rcases search_many1_one before after with
      ⟨hnone, hall⟩ | ⟨skipped, d, rest, rfl, hskipped, hd, hfound⟩
    · rw [hnone]
      have hsame := squeeze_of_not (c := c) hall []
      simp only [List.append_nil, squeeze] at hsame
      exact hsame.symm
    · have hshort : (rest.dropWhile accepts).length ≤ rest.length :=
        (List.dropWhile_suffix _).length_le
      have hprogress : (rest.dropWhile accepts).length < (d :: rest).length := by
        simp only [List.length_cons]
        omega
      have hrest := scanFrom_many1_one fuel
        ((rest.takeWhile accepts).reverse ++ d :: (skipped.reverse ++ before))
        (rest.dropWhile accepts) (by
          simp only [List.length_append, List.length_cons] at hfuel
          omega)
      rw [hfound]
      dsimp only
      rw [if_pos hprogress]
      have hconsumed : consumed ⟨before, skipped ++ d :: rest, []⟩
          ⟨skipped.reverse ++ before, d :: rest, []⟩ = skipped := consumed_eq rfl
      simp only [hconsumed, List.flatMap_cons, List.append_assoc]
      rw [squeeze_of_not hskipped, hrest]
      congr 1
      rw [← squeeze_true]
      simp [squeeze, hd]

/-- Replacing every run of a class. -/
theorem replace_many1_one (text : List Char) :
    replace (many1 (.one accepts)) (fun _ => [c]) text = squeeze accepts c false text :=
  scanFrom_many1_one _ [] text (Nat.lt_succ_self _)

example : squeeze (· == ' ') '_' false "a  b".toList = "a_b".toList := by decide +kernel

/-- A run before a text leaves at most one character more. -/
theorem squeeze_prepend {lead : List Char} (hlead : ∀ d ∈ lead, accepts d = true)
    (text : List Char) :
    squeeze accepts c false (lead ++ text) = squeeze accepts c false text ∨
      squeeze accepts c false (lead ++ text) = c :: squeeze accepts c true text := by
  cases lead with
  | nil => exact Or.inl rfl
  | cons d lead =>
    refine Or.inr ?_
    have hlead' : ∀ lead' : List Char, (∀ e ∈ lead', accepts e = true) →
        squeeze accepts c true (lead' ++ text) = squeeze accepts c true text := by
      intro lead' h
      induction lead' with
      | nil => rfl
      | cons e lead' ih =>
        rw [List.cons_append]
        conv => lhs; unfold squeeze
        rw [if_pos (h e List.mem_cons_self), if_pos rfl]
        exact ih fun f hf => h f (List.mem_cons_of_mem _ hf)
    rw [List.cons_append]
    conv => lhs; unfold squeeze
    rw [if_pos (hlead d List.mem_cons_self), if_neg Bool.false_ne_true,
      hlead' lead fun e he => hlead e (List.mem_cons_of_mem _ he)]

/-- A run after a text leaves at most one character more. -/
theorem squeeze_append {tail : List Char} (htail : ∀ d ∈ tail, accepts d = true) (inRun : Bool)
    (text : List Char) :
    squeeze accepts c inRun (text ++ tail) = squeeze accepts c inRun text ∨
      squeeze accepts c inRun (text ++ tail) = squeeze accepts c inRun text ++ [c] := by
  induction text generalizing inRun with
  | nil =>
    have hrun : squeeze accepts c true tail = [] := by
      rw [squeeze_true, List.dropWhile_eq_nil_iff.mpr htail]
      rfl
    cases inRun with
    | true => exact Or.inl hrun
    | false =>
      cases tail with
      | nil => exact Or.inl rfl
      | cons d tail =>
        refine Or.inr ?_
        have hd := htail d List.mem_cons_self
        simp only [squeeze, hd, if_true, List.nil_append] at hrun ⊢
        rw [hrun]
        rfl
  | cons d text ih =>
    rw [List.cons_append]
    unfold squeeze
    split
    · split
      · exact ih true
      · rcases ih true with h | h
        · exact Or.inl (by rw [h])
        · exact Or.inr (by rw [h]; rfl)
    · rcases ih false with h | h
      · exact Or.inl (by rw [h])
      · exact Or.inr (by rw [h]; rfl)

end Squeeze

end Regex
