import AtriumVerified.Lib.Regex

/-!
# What a pattern matches

A matcher tries the ways in which its pattern can match one after the other and hands each of them to
its continuation. The list of these ways, in that order, is the meaning of the pattern: a search only
asks for the first of them. Patterns that look at nothing but the characters they consume match the
same way whatever stands before the text, and whatever is appended to it that cannot end a match.
-/

namespace Regex

/-! ## The ways to match -/

def repeatResults (body : Position → List Position) (greedy : Bool) :
    Nat → Nat → Option Nat → Position → List Position
  | 0, min, _, p => if min = 0 then [p] else []
  | fuel + 1, min + 1, max, p =>
    (body p).flatMap (repeatResults body greedy fuel min (max.map (· - 1)))
  | fuel + 1, 0, max, p =>
    if max = some 0 then [p]
    else
      let more := ((body p).filter fun q => q.after.length < p.after.length).flatMap
        (repeatResults body greedy fuel 0 (max.map (· - 1)))
      if greedy then more ++ [p] else p :: more

def unitsResults (accepts : Char → Bool) (greedy : Bool) :
    Nat → List Char → List Char → List (Nat × List Char) → List Position
  | _, before, [], groups => [⟨before, [], groups⟩]
  | budget, before, c :: rest, groups =>
    let size := (Js.utf16Units c).length
    let here := ⟨before, c :: rest, groups⟩
    if accepts c && size ≤ budget then
      let more := unitsResults accepts greedy (budget - size) (c :: before) rest groups
      if greedy then more ++ [here] else here :: more
    else [here]

/-- The ways to match a pattern, in the order in which they are tried. -/
def results : Pattern → Position → List Position
  | .empty => fun p => [p]
  | .one accepts => fun p =>
    match p.after with
    | [] => []
    | c :: rest => if accepts c then [{ p with before := c :: p.before, after := rest }] else []
  | .seq first second => fun p => (results first p).flatMap (results second)
  | .alt first second => fun p => results first p ++ results second p
  | .rep min max greedy body => fun p =>
    repeatResults (results body) greedy (min + p.after.length + 1) min max p
  | .units max greedy accepts => fun p =>
    unitsResults accepts greedy max p.before p.after p.groups
  | .group index body => fun p =>
    (results body p).map fun q => { q with groups := (index, consumed p q) :: q.groups }
  | .ahead body => fun p => if (results body p).isEmpty then [] else [p]
  | .notAhead body => fun p => if (results body p).isEmpty then [p] else []
  | .behind accepts => fun p => if p.before.head?.any accepts then [p] else []
  | .boundary isWord => fun p => if atBoundary isWord p then [p] else []
  | .start => fun p => if p.before.isEmpty then [p] else []
  | .finish => fun p => if p.after.isEmpty then [p] else []

example (p : Position) : results .empty p = [p] := by simp [results]

section Run

variable {k : Position → Option Position}

theorem findSome?_flatMap {l : List Position} {f : Position → List Position} :
    (l.flatMap f).findSome? k = l.findSome? fun q => (f q).findSome? k := by
  induction l with
  | nil => rfl
  | cons a l ih =>
    rw [List.flatMap_cons, List.findSome?_append, ih, List.findSome?_cons]
    cases (f a).findSome? k with
    | none => rfl
    | some b => rfl

theorem findSome?_cons_orElse {a : Position} {l : List Position} :
    (a :: l).findSome? k = (k a <|> l.findSome? k) := by
  rw [List.findSome?_cons]
  cases k a with
  | none => rfl
  | some b => rfl

theorem findSome?_snoc_orElse {a : Position} {l : List Position} :
    (l ++ [a]).findSome? k = (l.findSome? k <|> k a) := by
  rw [List.findSome?_append]
  cases l.findSome? k with
  | none => simp
  | some b => rfl

theorem findSome?_filter_if {l : List Position} {p : Position → Bool} :
    (l.filter p).findSome? k = l.findSome? fun q => if p q then k q else none := by
  induction l with
  | nil => rfl
  | cons a l ih =>
    cases hp : p a with
    | true => simp [hp, ih, List.findSome?_cons]
    | false => simp [hp, ih]

theorem isSome_findSome?_some (l : List Position) : (l.findSome? some).isSome = !l.isEmpty := by
  cases l with
  | nil => rfl
  | cons a l => rfl

/-- A repetition hands on the results of its list. -/
theorem repeatMatch_eq {body : Matcher} {list : Position → List Position} {greedy : Bool}
    (hbody : ∀ p k, body p k = (list p).findSome? k) :
    ∀ (fuel min : Nat) (max : Option Nat) (p : Position) (k : Position → Option Position),
      repeatMatch body greedy fuel min max p k =
        (repeatResults list greedy fuel min max p).findSome? k
  | 0, min, max, p, k => by
    unfold repeatMatch repeatResults
    split
    · simp
    · rfl
  | fuel + 1, min + 1, max, p, k => by
    unfold repeatMatch repeatResults
    rw [hbody, findSome?_flatMap]
    congr 1
    funext q
    exact repeatMatch_eq hbody fuel min _ q k
  | fuel + 1, 0, max, p, k => by
    unfold repeatMatch repeatResults
    split
    · simp
    · have hmore : (body p fun q => if q.after.length < p.after.length then
            repeatMatch body greedy fuel 0 (max.map (· - 1)) q k else none) =
          (((list p).filter fun q => q.after.length < p.after.length).flatMap
            (repeatResults list greedy fuel 0 (max.map (· - 1)))).findSome? k := by
        rw [hbody, findSome?_flatMap, findSome?_filter_if]
        congr 1
        funext q
        simp only [decide_eq_true_eq]
        rw [repeatMatch_eq hbody fuel 0 _ q k]
      dsimp only
      rw [hmore]
      cases greedy with
      | true => exact findSome?_snoc_orElse.symm
      | false => exact findSome?_cons_orElse.symm

theorem unitsMatch_eq {accepts : Char → Bool} {greedy : Bool} (budget : Nat)
    (before after : List Char) (groups : List (Nat × List Char)) :
    unitsMatch accepts greedy budget before after groups k =
      (unitsResults accepts greedy budget before after groups).findSome? k := by
  induction after generalizing budget before with
  | nil => simp [unitsMatch, unitsResults]
  | cons c rest ih =>
    unfold unitsMatch unitsResults
    dsimp only
    split
    · rw [ih]
      cases greedy with
      | true => exact findSome?_snoc_orElse.symm
      | false => exact findSome?_cons_orElse.symm
    · simp

/-- A matcher tries the results of its pattern in order. -/
theorem run_eq (r : Pattern) (p : Position) (k : Position → Option Position) :
    run r p k = (results r p).findSome? k := by
  induction r generalizing p k with
  | empty => simp [run, results]
  | one accepts =>
    unfold run results
    cases p.after with
    | nil => rfl
    | cons c rest =>
      dsimp only
      split
      · simp
      · rfl
  | seq first second ihf ihs =>
    unfold run results
    rw [ihf, findSome?_flatMap]
    congr 1
    funext q
    exact ihs q k
  | alt first second ihf ihs =>
    simp [run, results, ihf, ihs, List.findSome?_append, Option.orElse_eq_or]
  | rep min max greedy body ih => exact repeatMatch_eq ih _ _ _ _ _
  | units max greedy accepts => exact unitsMatch_eq _ _ _ _
  | group index body ih => simp [run, results, ih, List.findSome?_map, Function.comp_def]
  | ahead body ih =>
    unfold run results
    rw [ih, isSome_findSome?_some]
    cases (results body p).isEmpty with
    | true => simp
    | false => simp
  | notAhead body ih =>
    unfold run results
    rw [ih, isSome_findSome?_some]
    cases (results body p).isEmpty with
    | true => simp
    | false => simp
  | behind accepts =>
    unfold run results
    split
    · simp
    · rfl
  | boundary isWord =>
    unfold run results
    split
    · simp
    · rfl
  | start =>
    unfold run results
    split
    · simp
    · rfl
  | finish =>
    unfold run results
    split
    · simp
    · rfl

/-- A match is the first of the results. -/
theorem run_some (r : Pattern) (p : Position) : run r p some = (results r p).head? := by
  rw [run_eq]
  cases results r p with
  | nil => rfl
  | cons q l => rfl

end Run

/-! ## What a match consumes -/

section Consumption

/-- The second position is the first one with some characters more read. -/
def Reads (p q : Position) : Prop :=
  ∃ read, q.before = read.reverse ++ p.before ∧ p.after = read ++ q.after

variable {p q s : Position}

theorem Reads.refl (p : Position) : Reads p p := ⟨[], rfl, rfl⟩

theorem Reads.trans (h : Reads p q) (h' : Reads q s) : Reads p s := by
  obtain ⟨first, hbefore, hafter⟩ := h
  obtain ⟨second, hbefore', hafter'⟩ := h'
  refine ⟨first ++ second, ?_, ?_⟩
  · rw [hbefore', hbefore, List.reverse_append, List.append_assoc]
  · rw [hafter, hafter', List.append_assoc]

theorem Reads.length_le (h : Reads p q) : q.after.length ≤ p.after.length := by
  obtain ⟨read, -, hafter⟩ := h
  rw [hafter, List.length_append]
  omega

/-- What was read is what `consumed` says. -/
theorem consumed_eq {read : List Char} (h : q.before = read.reverse ++ p.before) :
    consumed p q = read := by
  unfold consumed
  rw [h, List.length_append, Nat.add_sub_cancel, List.take_left, List.reverse_reverse]

theorem repeatResults_reads {body : Position → List Position} {greedy : Bool}
    (hbody : ∀ p, ∀ q ∈ body p, Reads p q) :
    ∀ (fuel min : Nat) (max : Option Nat) (p : Position),
      ∀ q ∈ repeatResults body greedy fuel min max p, Reads p q
  | 0, min, max, p => by
    intro q hq
    unfold repeatResults at hq
    split at hq
    · cases List.mem_singleton.mp hq
      exact Reads.refl p
    · cases hq
  | fuel + 1, min + 1, max, p => by
    intro q hq
    unfold repeatResults at hq
    obtain ⟨first, hfirst, hrest⟩ := List.mem_flatMap.mp hq
    exact (hbody p first hfirst).trans (repeatResults_reads hbody fuel min _ first q hrest)
  | fuel + 1, 0, max, p => by
    intro q hq
    have hmore : ∀ q ∈ ((body p).filter fun q => q.after.length < p.after.length).flatMap
        (repeatResults body greedy fuel 0 (max.map (· - 1))), Reads p q := by
      intro q hq
      obtain ⟨first, hfirst, hrest⟩ := List.mem_flatMap.mp hq
      exact (hbody p first (List.mem_of_mem_filter hfirst)).trans
        (repeatResults_reads hbody fuel 0 _ first q hrest)
    unfold repeatResults at hq
    dsimp only at hq
    split at hq
    · cases List.mem_singleton.mp hq
      exact Reads.refl p
    · split at hq
      · rcases List.mem_append.mp hq with hq | hq
        · exact hmore q hq
        · cases List.mem_singleton.mp hq
          exact Reads.refl p
      · rcases List.mem_cons.mp hq with rfl | hq
        · exact Reads.refl _
        · exact hmore q hq

theorem unitsResults_reads {accepts : Char → Bool} {greedy : Bool} (budget : Nat)
    (before after : List Char) (groups : List (Nat × List Char)) :
    ∀ q ∈ unitsResults accepts greedy budget before after groups, Reads ⟨before, after, groups⟩ q := by
  induction after generalizing budget before with
  | nil =>
    intro q hq
    cases List.mem_singleton.mp hq
    exact Reads.refl _
  | cons c rest ih =>
    intro q hq
    have hmore : ∀ q ∈ unitsResults accepts greedy (budget - (Js.utf16Units c).length)
        (c :: before) rest groups, Reads ⟨before, c :: rest, groups⟩ q := by
      intro q hq
      have hstep : Reads ⟨before, c :: rest, groups⟩ ⟨c :: before, rest, groups⟩ := ⟨[c], rfl, rfl⟩
      exact hstep.trans (ih _ _ q hq)
    unfold unitsResults at hq
    dsimp only at hq
    split at hq
    · split at hq
      · rcases List.mem_append.mp hq with hq | hq
        · exact hmore q hq
        · cases List.mem_singleton.mp hq
          exact Reads.refl _
      · rcases List.mem_cons.mp hq with rfl | hq
        · exact Reads.refl _
        · exact hmore q hq
    · cases List.mem_singleton.mp hq
      exact Reads.refl _

/-- The result of a pattern that only tests its position is the position. -/
theorem mem_ite_singleton {c : Prop} [Decidable c] (h : q ∈ if c then [p] else []) : q = p := by
  split at h
  · exact List.mem_singleton.mp h
  · cases h

/-- A match only reads on. -/
theorem results_reads (r : Pattern) (p : Position) : ∀ q ∈ results r p, Reads p q := by
  induction r generalizing p with
  | empty =>
    intro q hq
    cases List.mem_singleton.mp hq
    exact Reads.refl p
  | one accepts =>
    intro q hq
    unfold results at hq
    split at hq
    · cases hq
    · rename_i c rest hafter
      cases mem_ite_singleton hq
      exact ⟨[c], rfl, hafter⟩
  | seq first second ihf ihs =>
    intro q hq
    obtain ⟨middle, hmiddle, hq⟩ := List.mem_flatMap.mp hq
    exact (ihf p middle hmiddle).trans (ihs middle q hq)
  | alt first second ihf ihs =>
    intro q hq
    rcases List.mem_append.mp hq with hq | hq
    · exact ihf p q hq
    · exact ihs p q hq
  | rep min max greedy body ih => exact repeatResults_reads ih _ _ _ _
  | units max greedy accepts => exact unitsResults_reads _ _ _ _
  | group index body ih =>
    intro q hq
    obtain ⟨inner, hinner, rfl⟩ := List.mem_map.mp hq
    exact ih p inner hinner
  | ahead body ih =>
    intro q hq
    unfold results at hq
    split at hq
    · cases hq
    · cases List.mem_singleton.mp hq
      exact Reads.refl p
  | notAhead body ih =>
    intro q hq
    cases mem_ite_singleton hq
    exact Reads.refl p
  | behind accepts =>
    intro q hq
    cases mem_ite_singleton hq
    exact Reads.refl p
  | boundary isWord =>
    intro q hq
    cases mem_ite_singleton hq
    exact Reads.refl p
  | start =>
    intro q hq
    cases mem_ite_singleton hq
    exact Reads.refl p
  | finish =>
    intro q hq
    cases mem_ite_singleton hq
    exact Reads.refl p

end Consumption

/-! ## Patterns that look at nothing but what they consume -/

section Plain

/-- Whether a pattern looks at nothing but the characters it consumes. -/
def Pattern.plain : Pattern → Bool
  | .empty => true
  | .one _ => true
  | .seq first second => first.plain && second.plain
  | .alt first second => first.plain && second.plain
  | .rep _ _ _ body => body.plain
  | .group _ body => body.plain
  | _ => false

/-- The position in a text that has `base` (nearest first) before it. -/
def Position.rebase (base : List Char) (p : Position) : Position :=
  { p with before := p.before ++ base }

/-- The position in a text that goes on with `tail`. -/
def Position.extend (tail : List Char) (p : Position) : Position :=
  { p with after := p.after ++ tail }

variable {base tail : List Char}

theorem repeatResults_rebase {body : Position → List Position} {greedy : Bool}
    (hbody : ∀ p, body (p.rebase base) = (body p).map (Position.rebase base)) :
    ∀ (fuel min : Nat) (max : Option Nat) (p : Position),
      repeatResults body greedy fuel min max (p.rebase base) =
        (repeatResults body greedy fuel min max p).map (Position.rebase base)
  | 0, min, max, p => by
    unfold repeatResults
    split
    · rfl
    · rfl
  | fuel + 1, min + 1, max, p => by
    unfold repeatResults
    rw [hbody, List.flatMap_map, List.map_flatMap]
    congr 1
    funext q
    exact repeatResults_rebase hbody fuel min _ q
  | fuel + 1, 0, max, p => by
    have hmore : ((body (p.rebase base)).filter fun q =>
          q.after.length < (p.rebase base).after.length).flatMap
            (repeatResults body greedy fuel 0 (max.map (· - 1))) =
        (((body p).filter fun q => q.after.length < p.after.length).flatMap
          (repeatResults body greedy fuel 0 (max.map (· - 1)))).map (Position.rebase base) := by
      rw [hbody, List.filter_map, List.flatMap_map, List.map_flatMap]
      congr 1
      funext q
      exact repeatResults_rebase hbody fuel 0 _ q
    unfold repeatResults
    dsimp only
    split
    · rfl
    · rw [hmore]
      split
      · rw [List.map_append]
        rfl
      · rfl

/-- A plain pattern matches the same way whatever stands before. -/
theorem results_rebase {r : Pattern} (hr : r.plain = true) (p : Position) :
    results r (p.rebase base) = (results r p).map (Position.rebase base) := by
  induction r generalizing p with
  | empty => rfl
  | one accepts =>
    unfold results Position.rebase
    dsimp only
    cases p.after with
    | nil => rfl
    | cons c rest =>
      dsimp only
      split
      · rfl
      · rfl
  | seq first second ihf ihs =>
    obtain ⟨hfirst, hsecond⟩ := Bool.and_eq_true_iff.mp hr
    unfold results
    rw [ihf hfirst, List.flatMap_map, List.map_flatMap]
    congr 1
    funext q
    exact ihs hsecond q
  | alt first second ihf ihs =>
    obtain ⟨hfirst, hsecond⟩ := Bool.and_eq_true_iff.mp hr
    unfold results
    rw [ihf hfirst, ihs hsecond, List.map_append]
  | rep min max greedy body ih => exact repeatResults_rebase (ih hr) _ _ _ _
  | group index body ih =>
    unfold results
    rw [ih hr, List.map_map, List.map_map]
    refine List.map_congr_left fun q hq => ?_
    obtain ⟨read, hread, -⟩ := results_reads body p q hq
    have hrebased : (q.rebase base).before = read.reverse ++ (p.rebase base).before := by
      unfold Position.rebase
      rw [hread, List.append_assoc]
    simp only [Function.comp_apply, consumed_eq hread, consumed_eq hrebased]
    rfl
  | units max greedy accepts => cases hr
  | ahead body ih => cases hr
  | notAhead body ih => cases hr
  | behind accepts => cases hr
  | boundary isWord => cases hr
  | start => cases hr
  | finish => cases hr

/-- The results that leave an appended tail alone. -/
def sparing (tail : List Char) (l : List Position) : List Position :=
  l.filter fun q => tail.length ≤ q.after.length

theorem sparing_append (l l' : List Position) :
    sparing tail (l ++ l') = sparing tail l ++ sparing tail l' := List.filter_append _ _

/-- What follows a result that has read into the tail reads into it as well. -/
theorem sparing_flatMap {l : List Position} {f : Position → List Position}
    (hreads : ∀ p, ∀ q ∈ f p, Reads p q) :
    sparing tail (l.flatMap f) = (sparing tail l).flatMap fun q => sparing tail (f q) := by
  induction l with
  | nil => rfl
  | cons a l ih =>
    rw [List.flatMap_cons, sparing_append, ih]
    unfold sparing
    by_cases ha : tail.length ≤ a.after.length
    · rw [List.filter_cons_of_pos (by simpa using ha), List.flatMap_cons]
    · rw [List.filter_cons_of_neg (by simpa using ha)]
      have hnone : (f a).filter (fun q => tail.length ≤ q.after.length) = [] := by
        refine List.filter_eq_nil_iff.mpr fun q hq => ?_
        have hle := (hreads a q hq).length_le
        simp only [decide_eq_true_eq]
        omega
      rw [hnone, List.nil_append]

theorem sparing_singleton_extend (p : Position) :
    sparing tail [p.extend tail] = [p.extend tail] := by
  unfold sparing Position.extend
  simp

theorem repeatResults_extend {body : Position → List Position} {greedy : Bool}
    (hreads : ∀ p, ∀ q ∈ body p, Reads p q)
    (hbody : ∀ p, sparing tail (body (p.extend tail)) = (body p).map (Position.extend tail)) :
    ∀ (fuel fuel' min : Nat) (max : Option Nat) (p : Position),
      min + p.after.length < fuel → min + p.after.length + tail.length < fuel' →
      sparing tail (repeatResults body greedy fuel' min max (p.extend tail)) =
        (repeatResults body greedy fuel min max p).map (Position.extend tail)
  | 0, fuel', min, max, p, hfuel, _ => by omega
  | fuel, 0, min, max, p, _, hfuel => by omega
  | fuel + 1, fuel' + 1, min + 1, max, p, hfuel, hfuel' => by
    unfold repeatResults
    rw [sparing_flatMap (repeatResults_reads hreads _ _ _), hbody, List.flatMap_map,
      List.map_flatMap]
    refine List.flatMap_congr fun q hq => ?_
    have hle := (hreads p q hq).length_le
    exact repeatResults_extend hreads hbody fuel fuel' min _ q (by omega) (by omega)
  | fuel + 1, fuel' + 1, 0, max, p, hfuel, hfuel' => by
    have hmore : sparing tail (((body (p.extend tail)).filter fun q =>
          q.after.length < (p.extend tail).after.length).flatMap
            (repeatResults body greedy fuel' 0 (max.map (· - 1)))) =
        (((body p).filter fun q => q.after.length < p.after.length).flatMap
          (repeatResults body greedy fuel 0 (max.map (· - 1)))).map (Position.extend tail) := by
      rw [sparing_flatMap (repeatResults_reads hreads _ _ _), List.map_flatMap]
      have hshorter : sparing tail ((body (p.extend tail)).filter fun q =>
            q.after.length < (p.extend tail).after.length) =
          ((body p).filter fun q => q.after.length < p.after.length).map
            (Position.extend tail) := by
        unfold sparing at hbody ⊢
        rw [List.filter_comm, hbody, List.filter_map]
        congr 2
        funext q
        simp [Position.extend]
      rw [hshorter, List.flatMap_map]
      refine List.flatMap_congr fun q hq => ?_
      have hlt : q.after.length < p.after.length := by simpa using List.of_mem_filter hq
      exact repeatResults_extend hreads hbody fuel fuel' 0 _ q (by omega) (by omega)
    unfold repeatResults
    dsimp only
    split
    · exact sparing_singleton_extend p
    · split
      · rw [sparing_append, hmore, sparing_singleton_extend, List.map_append]
        rfl
      · have hcons : ∀ l, sparing tail (p.extend tail :: l) = p.extend tail :: sparing tail l := by
          intro l
          exact (sparing_append [p.extend tail] l).trans (by rw [sparing_singleton_extend]; rfl)
        rw [hcons, hmore]
        rfl

/-- The matches of a plain pattern in a text are its matches in the longer one that leave the tail
alone. -/
theorem results_extend {r : Pattern} (hr : r.plain = true) (p : Position) :
    sparing tail (results r (p.extend tail)) = (results r p).map (Position.extend tail) := by
  induction r generalizing p with
  | empty => exact sparing_singleton_extend p
  | one accepts =>
    unfold results
    cases hafter : p.after with
    | nil =>
      have hextended : (p.extend tail).after = tail := by simp [Position.extend, hafter]
      rw [hextended]
      cases tail with
      | nil => rfl
      | cons c rest =>
        dsimp only
        split
        · simp [sparing]
        · rfl
    | cons c rest =>
      have hextended : (p.extend tail).after = c :: (rest ++ tail) := by
        simp [Position.extend, hafter]
      rw [hextended]
      dsimp only
      split
      · simp [sparing, Position.extend]
      · rfl
  | seq first second ihf ihs =>
    obtain ⟨hfirst, hsecond⟩ := Bool.and_eq_true_iff.mp hr
    unfold results
    rw [sparing_flatMap (results_reads second), ihf hfirst, List.flatMap_map, List.map_flatMap]
    congr 1
    funext q
    exact ihs hsecond q
  | alt first second ihf ihs =>
    obtain ⟨hfirst, hsecond⟩ := Bool.and_eq_true_iff.mp hr
    unfold results
    rw [sparing_append, ihf hfirst, ihs hsecond, List.map_append]
  | rep min max greedy body ih =>
    refine repeatResults_extend (results_reads body) (ih hr) _ _ _ _ _ (by omega) ?_
    simp only [Position.extend, List.length_append]
    omega
  | group index body ih =>
    unfold results
    have hmap : sparing tail ((results body (p.extend tail)).map fun q =>
          { q with groups := (index, consumed (p.extend tail) q) :: q.groups }) =
        (sparing tail (results body (p.extend tail))).map fun q =>
          { q with groups := (index, consumed (p.extend tail) q) :: q.groups } := by
      unfold sparing
      rw [List.filter_map]
      rfl
    rw [hmap, ih hr, List.map_map, List.map_map]
    rfl
  | units max greedy accepts => cases hr
  | ahead body ih => cases hr
  | notAhead body ih => cases hr
  | behind accepts => cases hr
  | boundary isWord => cases hr
  | start => cases hr
  | finish => cases hr

end Plain

end Regex
