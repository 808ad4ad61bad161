import AtriumVerified.Lib.RegexScan

/-!
# The texts of a pattern

What a match consumes is a text of the pattern's language, and what a group captures is a text of the
language of a group of this number. Anchors and lookarounds only test and the upper bounds of
repetitions are not counted, so the language can be larger than the set of the texts that match.
-/

namespace Regex

/-! ## The language -/

/-- The texts that a match of the pattern can consume. -/
def Language : Pattern → List Char → Prop
  | .one accepts, text => ∃ c, accepts c = true ∧ text = [c]
  | .seq first second, text => ∃ front back, text = front ++ back ∧ Language first front ∧
      Language second back
  | .alt first second, text => Language first text ∨ Language second text
  | .rep min _ _ body, text => ∃ parts : List (List Char), text = parts.flatten ∧
      min ≤ parts.length ∧ ∀ part ∈ parts, Language body part
  | .units _ _ accepts, text => ∀ c ∈ text, accepts c = true
  | .group _ body, text => Language body text
  | _, text => text = []

/-- The texts that a match of the pattern can capture under a number. -/
def Captures : Pattern → Nat → List Char → Prop
  | .seq first second, i, text => Captures first i text ∨ Captures second i text
  | .alt first second, i, text => Captures first i text ∨ Captures second i text
  | .rep _ _ _ body, i, text => Captures body i text
  | .group index body, i, text => (i = index ∧ Language body text) ∨ Captures body i text
  | _, _, _ => False

/-! ## Readings -/

/-- The texts with what was captured on the way, latest first. -/
abbrev Readings := List Char → List (Nat × List Char) → Prop

/-- Several readings in a row, with as many of them as the bounds of a repetition allow. -/
def Repeated (reading : Readings) (min : Nat) (max : Option Nat) : Readings := fun text groups =>
  ∃ parts : List (List Char × List (Nat × List Char)), text = parts.flatMap Prod.fst ∧
    groups = parts.reverse.flatMap Prod.snd ∧ min ≤ parts.length ∧
    (∀ m ∈ max, parts.length ≤ min ∨ parts.length ≤ m) ∧ ∀ part ∈ parts, reading part.1 part.2

/-- How a match of the pattern can go: what it consumes and what it captures, latest first. -/
def Reading : Pattern → Readings
  | .one accepts => fun text groups => (∃ c, accepts c = true ∧ text = [c]) ∧ groups = []
  | .seq first second => fun text groups => ∃ front back taken more, text = front ++ back ∧
      groups = more ++ taken ∧ Reading first front taken ∧ Reading second back more
  | .alt first second => fun text groups => Reading first text groups ∨ Reading second text groups
  | .rep min max _ body => Repeated (Reading body) min max
  | .units _ _ accepts => fun text groups => (∀ c ∈ text, accepts c = true) ∧ groups = []
  | .group index body => fun text groups => ∃ inner, groups = (index, text) :: inner ∧
      Reading body text inner
  | _ => fun text groups => text = [] ∧ groups = []

/-! ## Matches -/

section Matches

variable {p q s : Position} {reading reading' : Readings}

/-- The second position is the first one after one of the readings. -/
def Via (reading : Readings) (p q : Position) : Prop :=
  ∃ text groups, reading text groups ∧ p.after = text ++ q.after ∧
    q.before = text.reverse ++ p.before ∧ q.groups = groups ++ p.groups

/-- A match that consumes nothing and captures nothing. -/
theorem via_nil (h : reading [] []) (p : Position) : Via reading p p := ⟨[], [], h, rfl, rfl, rfl⟩

/-- A match behind a match. -/
theorem Via.trans {joined : Readings} (h : Via reading p q) (h' : Via reading' q s)
    (hjoined : ∀ front back taken more, reading front taken → reading' back more →
      joined (front ++ back) (more ++ taken)) : Via joined p s := by
  obtain ⟨front, taken, hfront, hafter, hbefore, hgroups⟩ := h
  obtain ⟨back, more, hback, hafter', hbefore', hgroups'⟩ := h'
  refine ⟨front ++ back, more ++ taken, hjoined front back taken more hfront hback, ?_, ?_, ?_⟩
  · rw [hafter, hafter', List.append_assoc]
  · rw [hbefore', hbefore, List.reverse_append, List.append_assoc]
  · rw [hgroups', hgroups, List.append_assoc]

theorem Via.mono (h : Via reading p q)
    (hreading : ∀ text groups, reading text groups → reading' text groups) :
    Via reading' p q := by
  obtain ⟨text, groups, htext, hread⟩ := h
  exact ⟨text, groups, hreading text groups htext, hread⟩

theorem repeated_nil {max : Option Nat} : Repeated reading 0 max [] [] :=
  ⟨[], rfl, rfl, Nat.le_refl 0, fun _ _ => Or.inr (Nat.zero_le _), fun _ hpart => (by cases hpart)⟩

/-- A required iteration before the others. -/
theorem repeated_cons {min : Nat} {max : Option Nat} {front back : List Char}
    {taken more : List (Nat × List Char)} (hfront : reading front taken)
    (hback : Repeated reading min (max.map (· - 1)) back more) :
    Repeated reading (min + 1) max (front ++ back) (more ++ taken) := by
  obtain ⟨parts, rfl, rfl, hlength, hbound, hparts⟩ := hback
  refine ⟨(front, taken) :: parts, rfl, ?_, Nat.succ_le_succ hlength, ?_,
    List.forall_mem_cons.mpr ⟨hfront, hparts⟩⟩
  · rw [List.reverse_cons, List.flatMap_append, List.flatMap_singleton]
  · intro m hm
    have hless := hbound (m - 1) (Option.mem_map_of_mem _ hm)
    rw [List.length_cons]
    omega

/-- An iteration that need not be taken, where one is still allowed. -/
theorem repeated_more {max : Option Nat} {front back : List Char}
    {taken more : List (Nat × List Char)} (hmax : max ≠ some 0) (hfront : reading front taken)
    (hback : Repeated reading 0 (max.map (· - 1)) back more) :
    Repeated reading 0 max (front ++ back) (more ++ taken) := by
  obtain ⟨parts, htext, hgroups, -, hbound, hparts⟩ := repeated_cons hfront hback
  refine ⟨parts, htext, hgroups, Nat.zero_le _, ?_, hparts⟩
  intro m hm
  have hpos : m ≠ 0 := by
    rintro rfl
    exact hmax hm
  have hless := hbound m hm
  omega

/-- The iterations of a repetition. -/
theorem repeatResults_via {body : Position → List Position} {greedy : Bool}
    (hbody : ∀ p, ∀ q ∈ body p, Via reading p q) :
    ∀ (fuel min : Nat) (max : Option Nat) (p : Position),
      ∀ q ∈ repeatResults body greedy fuel min max p, Via (Repeated reading min max) p q
  | 0, min, max, p => by
    intro q hq
    unfold repeatResults at hq
    split at hq
    · rename_i hmin
      subst hmin
      cases List.mem_singleton.mp hq
      exact via_nil repeated_nil p
    · cases hq
  | fuel + 1, min + 1, max, p => by
    intro q hq
    unfold repeatResults at hq
    obtain ⟨middle, hmiddle, hrest⟩ := List.mem_flatMap.mp hq
    exact (hbody p middle hmiddle).trans (repeatResults_via hbody fuel min _ middle q hrest)
      fun _ _ _ _ => repeated_cons
  | fuel + 1, 0, max, p => by
    intro q hq
    unfold repeatResults at hq
    dsimp only at hq
    split at hq
    · cases List.mem_singleton.mp hq
      exact via_nil repeated_nil p
    · rename_i hmax
      have hmore : ∀ q ∈ ((body p).filter fun q => q.after.length < p.after.length).flatMap
          (repeatResults body greedy fuel 0 (max.map (· - 1))),
          Via (Repeated reading 0 max) p q := by
        intro q hq
        obtain ⟨middle, hmiddle, hrest⟩ := List.mem_flatMap.mp hq
        exact (hbody p middle (List.mem_of_mem_filter hmiddle)).trans
          (repeatResults_via hbody fuel 0 _ middle q hrest)
          fun _ _ _ _ => repeated_more hmax
      split at hq
      · rcases List.mem_append.mp hq with hq | hq
        · exact hmore q hq
        · cases List.mem_singleton.mp hq
          exact via_nil repeated_nil p
      · rcases List.mem_cons.mp hq with rfl | hq
        · exact via_nil repeated_nil _
        · exact hmore q hq

/-- Some code units of a class. -/
theorem unitsResults_via {accepts : Char → Bool} {greedy : Bool} {max : Nat} (budget : Nat)
    (before after : List Char) (groups : List (Nat × List Char)) :
    ∀ q ∈ unitsResults accepts greedy budget before after groups,
      Via (Reading (.units max greedy accepts)) ⟨before, after, groups⟩ q := by
  have hnil : Reading (.units max greedy accepts) [] [] :=
    ⟨fun _ hc => (by cases hc), rfl⟩
  induction after generalizing budget before with
  | nil =>
    intro q hq
    cases List.mem_singleton.mp hq
    exact via_nil hnil _
  | cons c rest ih =>
    intro q hq
    unfold unitsResults at hq
    dsimp only at hq
    split at hq
    · rename_i hc
      have haccepts : accepts c = true := (Bool.and_eq_true_iff.mp hc).1
      have hfirst : Via (Reading (.units max greedy accepts)) ⟨before, c :: rest, groups⟩
          ⟨c :: before, rest, groups⟩ :=
        ⟨[c], [], ⟨List.forall_mem_singleton.mpr haccepts, rfl⟩, rfl, rfl, rfl⟩
      have hmore : ∀ q ∈ unitsResults accepts greedy (budget - (Js.utf16Units c).length)
          (c :: before) rest groups,
          Via (Reading (.units max greedy accepts)) ⟨before, c :: rest, groups⟩ q := by
        intro q hq
        refine hfirst.trans (ih _ _ q hq) ?_
        rintro front back - - ⟨hfront, rfl⟩ ⟨hback, rfl⟩
        exact ⟨List.forall_mem_append.mpr ⟨hfront, hback⟩, rfl⟩
      split at hq
      · rcases List.mem_append.mp hq with hq | hq
        · exact hmore q hq
        · cases List.mem_singleton.mp hq
          exact via_nil hnil _
      · rcases List.mem_cons.mp hq with rfl | hq
        · exact via_nil hnil _
        · exact hmore q hq
    · cases List.mem_singleton.mp hq
      exact via_nil hnil _

/-- Every way to match a pattern is one of its readings. -/
theorem results_via (r : Pattern) (p : Position) : ∀ q ∈ results r p, Via (Reading r) p q := by
  induction r generalizing p with
  | empty =>
    intro q hq
    cases List.mem_singleton.mp hq
    exact via_nil ⟨rfl, rfl⟩ p
  | one accepts =>
    intro q hq
    obtain ⟨c, rest, hafter, hc, rfl⟩ := mem_results_one hq
    exact ⟨[c], [], ⟨⟨c, hc, rfl⟩, rfl⟩, hafter, rfl, rfl⟩
  | seq first second ihf ihs =>
    intro q hq
    obtain ⟨middle, hmiddle, hq⟩ := List.mem_flatMap.mp hq
    exact (ihf p middle hmiddle).trans (ihs middle q hq) fun front back taken more hfront hback =>
      ⟨front, back, taken, more, rfl, rfl, hfront, hback⟩
  | alt first second ihf ihs =>
    intro q hq
    rcases List.mem_append.mp hq with hq | hq
    · exact (ihf p q hq).mono fun _ _ => Or.inl
    · exact (ihs p q hq).mono fun _ _ => Or.inr
  | rep min max greedy body ih =>
    intro q hq
    exact repeatResults_via ih _ _ _ p q hq
  | units max greedy accepts => exact unitsResults_via _ _ _ _
  | group index body ih =>
    intro q hq
    obtain ⟨inner, hinner, rfl⟩ := List.mem_map.mp hq
    obtain ⟨text, groups, htext, hafter, hbefore, hgroups⟩ := ih p inner hinner
    refine ⟨text, (index, text) :: groups, ⟨groups, rfl, htext⟩, hafter, hbefore, ?_⟩
    dsimp only
    rw [consumed_eq hbefore, hgroups, List.cons_append]
  | ahead body ih =>
    intro q hq
    unfold results at hq
    split at hq
    · cases hq
    · cases List.mem_singleton.mp hq
      exact via_nil ⟨rfl, rfl⟩ p
  | notAhead body ih =>
    intro q hq
    cases mem_ite_singleton hq
    exact via_nil ⟨rfl, rfl⟩ p
  | behind accepts =>
    intro q hq
    cases mem_ite_singleton hq
    exact via_nil ⟨rfl, rfl⟩ p
  | boundary isWord =>
    intro q hq
    cases mem_ite_singleton hq
    exact via_nil ⟨rfl, rfl⟩ p
  | start =>
    intro q hq
    cases mem_ite_singleton hq
    exact via_nil ⟨rfl, rfl⟩ p
  | finish =>
    intro q hq
    cases mem_ite_singleton hq
    exact via_nil ⟨rfl, rfl⟩ p

/-- What is captured is part of what is consumed. -/
theorem mem_of_captured {r : Pattern} {text : List Char} {groups : List (Nat × List Char)}
    (h : Reading r text groups) : ∀ g ∈ groups, ∀ c ∈ g.2, c ∈ text := by
  induction r generalizing text groups with
  | seq first second ihf ihs =>
    obtain ⟨front, back, taken, more, rfl, rfl, hfront, hback⟩ := h
    intro g hg c hc
    rcases List.mem_append.mp hg with hg | hg
    · exact List.mem_append_right _ (ihs hback g hg c hc)
    · exact List.mem_append_left _ (ihf hfront g hg c hc)
  | alt first second ihf ihs =>
    rcases h with h | h
    · exact ihf h
    · exact ihs h
  | rep min max greedy body ih =>
    obtain ⟨parts, rfl, rfl, -, -, hparts⟩ := h
    intro g hg c hc
    obtain ⟨part, hpart, hg⟩ := List.mem_flatMap.mp hg
    rw [List.mem_reverse] at hpart
    exact List.mem_flatMap.mpr ⟨part, hpart, ih (hparts part hpart) g hg c hc⟩
  | group index body ih =>
    obtain ⟨inner, rfl, hinner⟩ := h
    exact List.forall_mem_cons.mpr ⟨fun c hc => hc, ih hinner⟩
  | one | units | empty | ahead | notAhead | behind | boundary | start | finish =>
    obtain ⟨-, rfl⟩ := h
    exact fun g hg => (by cases hg)

/-- What a reading consumes is a text of the language, and what it captures is one of the groups. -/
theorem language_of_reading {r : Pattern} {text : List Char} {groups : List (Nat × List Char)}
    (h : Reading r text groups) : Language r text ∧ ∀ g ∈ groups, Captures r g.1 g.2 := by
  have hnone : ∀ g ∈ ([] : List (Nat × List Char)), Captures r g.1 g.2 :=
    fun _ hg => (by cases hg)
  induction r generalizing text groups with
  | one accepts =>
    obtain ⟨hone, rfl⟩ := h
    exact ⟨hone, hnone⟩
  | seq first second ihf ihs =>
    obtain ⟨front, back, taken, more, rfl, rfl, hfront, hback⟩ := h
    obtain ⟨hfront, htaken⟩ := ihf hfront fun _ hg => (by cases hg)
    obtain ⟨hback, hmore⟩ := ihs hback fun _ hg => (by cases hg)
    refine ⟨⟨front, back, rfl, hfront, hback⟩, fun g hg => ?_⟩
    rcases List.mem_append.mp hg with hg | hg
    · exact Or.inr (hmore g hg)
    · exact Or.inl (htaken g hg)
  | alt first second ihf ihs =>
    rcases h with h | h
    · obtain ⟨htext, hgroups⟩ := ihf h fun _ hg => (by cases hg)
      exact ⟨Or.inl htext, fun g hg => Or.inl (hgroups g hg)⟩
    · obtain ⟨htext, hgroups⟩ := ihs h fun _ hg => (by cases hg)
      exact ⟨Or.inr htext, fun g hg => Or.inr (hgroups g hg)⟩
  | rep min max greedy body ih =>
    obtain ⟨parts, rfl, rfl, hlength, -, hparts⟩ := h
    refine ⟨⟨parts.map Prod.fst, rfl, ?_, List.forall_mem_map.mpr fun part hpart => ?_⟩,
      fun g hg => ?_⟩
    · rw [List.length_map]
      exact hlength
    · exact (ih (hparts part hpart) fun _ hg => (by cases hg)).1
    · obtain ⟨part, hpart, hg⟩ := List.mem_flatMap.mp hg
      exact (ih (hparts part (List.mem_reverse.mp hpart)) fun _ hg => (by cases hg)).2 g hg
  | units max greedy accepts =>
    obtain ⟨hall, rfl⟩ := h
    exact ⟨hall, hnone⟩
  | group index body ih =>
    obtain ⟨inner, rfl, hinner⟩ := h
    obtain ⟨htext, hgroups⟩ := ih hinner fun _ hg => (by cases hg)
    refine ⟨htext, List.forall_mem_cons.mpr ⟨Or.inl ⟨rfl, htext⟩, fun g hg => ?_⟩⟩
    exact Or.inr (hgroups g hg)
  | empty | ahead | notAhead | behind | boundary | start | finish =>
    obtain ⟨rfl, rfl⟩ := h
    exact ⟨rfl, hnone⟩

end Matches

/-! ## Searches -/

section Searches

variable {r : Pattern} {text : List Char} {first last : Position}

theorem search_groups {before after : List Char}
    (h : search r before after = some (first, last)) : first.groups = [] := by
  induction after generalizing before with
  | nil =>
    unfold search at h
    obtain ⟨q, -, heq⟩ := Option.map_eq_some_iff.mp h
    cases heq
    rfl
  | cons c rest ih =>
    unfold search at h
    split at h
    · cases h
      rfl
    · exact ih h

theorem search_reading {before after : List Char}
    (h : search r before after = some (first, last)) :
    Reads ⟨before, after, []⟩ first ∧ last ∈ results r first ∧
      ∃ matched, Reading r matched last.groups ∧ first.after = matched ++ last.after ∧
        last.before = matched.reverse ++ first.before := by
  obtain ⟨hreads, hlast⟩ := search_some h
  obtain ⟨matched, groups, hreading, hafter, hbefore, hgroups⟩ := results_via r first last hlast
  rw [search_groups h, List.append_nil] at hgroups
  exact ⟨hreads, hlast, matched, hgroups ▸ hreading, hafter, hbefore⟩

theorem search_matched {before after : List Char}
    (h : search r before after = some (first, last)) :
    Reads ⟨before, after, []⟩ first ∧ last ∈ results r first ∧
      ∃ matched, Language r matched ∧ first.after = matched ++ last.after ∧
        last.before = matched.reverse ++ first.before ∧ ∀ g ∈ last.groups, Captures r g.1 g.2 := by
  obtain ⟨hreads, hlast, matched, hreading, hafter, hbefore⟩ := search_reading h
  obtain ⟨hmatched, hcaptures⟩ := language_of_reading hreading
  exact ⟨hreads, hlast, matched, hmatched, hafter, hbefore, hcaptures⟩

/-- Every match of a scan is a reading, and a scan cuts the text into what it skips, what it matches
and the rest. -/
theorem scanFrom_reading (r : Pattern) (fuel : Nat) (before after : List Char) :
    (∀ hit ∈ (scanFrom r fuel before after).1, Reading r hit.matched hit.groups) ∧
      (scanFrom r fuel before after).1.flatMap (fun hit => hit.skipped ++ hit.matched) ++
        (scanFrom r fuel before after).2 = after := by
  induction fuel generalizing before after with
  | zero => exact ⟨fun _ hhit => (by cases hhit), rfl⟩
  | succ fuel ih =>
    unfold scanFrom
    split
    · exact ⟨fun _ hhit => (by cases hhit), rfl⟩
    · rename_i first last heq
      obtain ⟨⟨skipped, hbefore, hafter⟩, -, matched, hreading, hrest, hlast⟩ := search_reading heq
      obtain ⟨hhits, hcut⟩ := ih last.before last.after
      split
      · dsimp only
        rw [consumed_eq hbefore, consumed_eq hlast]
        refine ⟨List.forall_mem_cons.mpr ⟨hreading, hhits⟩, ?_⟩
        rw [List.flatMap_cons, List.append_assoc, hcut, List.append_assoc, ← hrest]
        exact hafter.symm
      · exact ⟨fun _ hhit => (by cases hhit), rfl⟩

theorem scan_reading (r : Pattern) (text : List Char) :
    ∀ hit ∈ (scan r text).1, Reading r hit.matched hit.groups :=
  (scanFrom_reading r _ _ _).1

theorem scan_cut (r : Pattern) (text : List Char) :
    (scan r text).1.flatMap (fun hit => hit.skipped ++ hit.matched) ++ (scan r text).2 = text :=
  (scanFrom_reading r _ _ _).2

theorem scan_matched (r : Pattern) (text : List Char) :
    ∀ hit ∈ (scan r text).1, Language r hit.matched ∧ ∀ g ∈ hit.groups, Captures r g.1 g.2 :=
  fun hit hhit => language_of_reading (scan_reading r text hit hhit)

/-- A character that every match leaves in its place survives a replacement. -/
theorem mem_replace {replacement : Hit → List Char} {text : List Char} {c : Char}
    (hkept : ∀ hit, Reading r hit.matched hit.groups → c ∈ hit.matched → c ∈ replacement hit)
    (hc : c ∈ text) : c ∈ replace r replacement text := by
  rw [← scan_cut r text] at hc
  unfold replace
  dsimp only
  rcases List.mem_append.mp hc with hc | hc
  · obtain ⟨hit, hhit, hc⟩ := List.mem_flatMap.mp hc
    refine List.mem_append_left _ (List.mem_flatMap.mpr ⟨hit, hhit, ?_⟩)
    rcases List.mem_append.mp hc with hc | hc
    · exact List.mem_append_left _ hc
    · exact List.mem_append_right _ (hkept hit (scan_reading r text hit hhit) hc)
  · exact List.mem_append_right _ hc

theorem mem_results_start {p q : Position} (h : q ∈ results (.seq .start r) p) :
    p.before = [] ∧ q ∈ results r p := by
  obtain ⟨middle, hmiddle, hq⟩ := List.mem_flatMap.mp h
  unfold results at hmiddle
  split at hmiddle
  · rename_i hempty
    cases List.mem_singleton.mp hmiddle
    exact ⟨List.isEmpty_iff.mp hempty, hq⟩
  · cases hmiddle

theorem mem_results_finish {p q : Position} (h : q ∈ results (.seq r (.seq .finish .empty)) p) :
    q.after = [] := by
  obtain ⟨middle, -, hq⟩ := List.mem_flatMap.mp h
  obtain ⟨other, hother, hq⟩ := List.mem_flatMap.mp hq
  cases List.mem_singleton.mp hq
  unfold results at hother
  split at hother
  · rename_i hempty
    cases List.mem_singleton.mp hother
    exact List.isEmpty_iff.mp hempty
  · cases hother

end Searches

/-! ## Languages -/

section Languages

variable {text : List Char} {accepts : Char → Bool}

theorem language_seq {first second : Pattern} :
    Language (.seq first second) text ↔ ∃ front back, text = front ++ back ∧
      Language first front ∧ Language second back := Iff.rfl

theorem language_lit {word : String} : Language (lit word) text ↔ text = word.toList := by
  unfold lit
  induction word.toList generalizing text with
  | nil => rfl
  | cons c rest ih =>
    rw [List.foldr_cons, language_seq]
    constructor
    · rintro ⟨front, back, rfl, ⟨d, hd, rfl⟩, hback⟩
      rw [ih.mp hback, beq_iff_eq.mp hd]
      rfl
    · rintro rfl
      exact ⟨[c], rest, rfl, ⟨c, beq_self_eq_true c, rfl⟩, ih.mpr rfl⟩

theorem length_flatten_of_one {parts : List (List Char)}
    (h : ∀ part ∈ parts, Language (.one accepts) part) : parts.flatten.length = parts.length := by
  induction parts with
  | nil => rfl
  | cons part rest ih =>
    obtain ⟨⟨c, -, rfl⟩, hrest⟩ := List.forall_mem_cons.mp h
    rw [List.flatten_cons, List.length_append, ih hrest, List.length_singleton, List.length_cons,
      Nat.add_comm]

/-- A repeated class of characters. -/
theorem language_rep_one {min : Nat} {max : Option Nat} {greedy : Bool} :
    Language (.rep min max greedy (.one accepts)) text ↔
      min ≤ text.length ∧ ∀ c ∈ text, accepts c = true := by
  constructor
  · rintro ⟨parts, rfl, hlength, hparts⟩
    refine ⟨length_flatten_of_one hparts ▸ hlength, fun c hc => ?_⟩
    obtain ⟨part, hpart, hc⟩ := List.mem_flatten.mp hc
    obtain ⟨d, hd, rfl⟩ := hparts part hpart
    rw [List.mem_singleton.mp hc]
    exact hd
  · rintro ⟨hlength, hall⟩
    refine ⟨text.map ([·]), ?_, ?_, List.forall_mem_map.mpr fun c hc => ⟨c, hall c hc, rfl⟩⟩
    · rw [← List.flatMap_def, List.flatMap_singleton']
    · rw [List.length_map]
      exact hlength

end Languages

/-! ## Readings of the parts -/

section Parts

variable {text : List Char} {groups : List (Nat × List Char)} {accepts : Char → Bool}

theorem reading_lit {word : String} :
    Reading (lit word) text groups ↔ text = word.toList ∧ groups = [] := by
  unfold lit
  induction word.toList generalizing text groups with
  | nil => rfl
  | cons c rest ih =>
    rw [List.foldr_cons]
    constructor
    · rintro ⟨front, back, taken, more, rfl, rfl, ⟨⟨d, hd, rfl⟩, rfl⟩, hback⟩
      obtain ⟨rfl, rfl⟩ := ih.mp hback
      rw [beq_iff_eq.mp hd]
      exact ⟨rfl, rfl⟩
    · rintro ⟨rfl, rfl⟩
      exact ⟨[c], rest, [], [], rfl, rfl, ⟨⟨c, beq_self_eq_true c, rfl⟩, rfl⟩, ih.mpr ⟨rfl, rfl⟩⟩

/-- A repeated class captures nothing. -/
theorem reading_rep_one {min : Nat} {max : Option Nat} {greedy : Bool}
    (h : Reading (.rep min max greedy (.one accepts)) text groups) :
    (∀ c ∈ text, accepts c = true) ∧ groups = [] := by
  have hall := language_rep_one.mp (language_of_reading h).1
  obtain ⟨parts, -, rfl, -, -, hparts⟩ := h
  refine ⟨hall.2, List.flatMap_eq_nil_iff.mpr fun part hpart => ?_⟩
  exact (hparts part (List.mem_reverse.mp hpart)).2

/-- An optional part is read once or not at all. -/
theorem reading_opt {body : Pattern} (h : Reading (opt body) text groups) :
    (text = [] ∧ groups = []) ∨ Reading body text groups := by
  obtain ⟨parts, rfl, rfl, -, hbound, hparts⟩ := h
  have hone : parts.length ≤ 1 := by
    have hle := hbound 1 rfl
    omega
  cases parts with
  | nil => exact Or.inl ⟨rfl, rfl⟩
  | cons part rest =>
    have hrest : rest = [] := by
      rw [List.length_cons] at hone
      exact List.eq_nil_of_length_eq_zero (by omega)
    subst hrest
    refine Or.inr ?_
    have hpart := hparts part List.mem_cons_self
    simpa using hpart

end Parts

end Regex
