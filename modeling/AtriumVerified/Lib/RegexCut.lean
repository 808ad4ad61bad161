import AtriumVerified.Lib.RegexScan

/-!
# Scanning a text in two pieces

Where no match of a plain pattern lies across the place at which a text is cut, the matches in the
text are those in the first piece followed by those in the second.
-/

namespace Regex

section Cut

variable {r : Pattern} {before x y rest : List Char} {c : Char} {q : Position} {l : List Position}

/-! ## One search -/

theorem search_at_end (hprogress : Progress r) (before : List Char) : search r before [] = none := by
  have hnone : results r ⟨before, [], []⟩ = [] := by
    refine List.eq_nil_iff_forall_not_mem.mpr fun q hq => ?_
    exact absurd (hprogress _ q hq) (Nat.not_lt_zero _)
  unfold search
  rw [run_some, hnone]
  rfl

theorem search_of_nil (h : results r ⟨before, c :: rest, []⟩ = []) :
    search r before (c :: rest) = search r (c :: before) rest := by
  conv => lhs; unfold search
  rw [run_some, h]
  rfl

theorem search_of_cons (h : results r ⟨before, c :: rest, []⟩ = q :: l) :
    search r before (c :: rest) = some (⟨before, c :: rest, []⟩, q) := by
  unfold search
  rw [run_some, h]
  rfl

def Across (r : Pattern) (before x y : List Char) : Prop :=
  ∃ skipped u v rest groups, x = skipped ++ u ∧ u ≠ [] ∧ y = v ++ rest ∧ v ≠ [] ∧
    search r before (x ++ y) = some (⟨skipped.reverse ++ before, u ++ y, []⟩,
      ⟨(u ++ v).reverse ++ (skipped.reverse ++ before), rest, groups⟩)

/-- What a search in a text finds lies in its first piece, in its second one or across the cut. -/
theorem search_cut (hr : r.plain = true) (hprogress : Progress r) (before x y : List Char) :
    (∃ first last, search r before x = some (first, last) ∧
      search r before (x ++ y) = some (first.extend y, last.extend y)) ∨
    (search r before x = none ∧ search r before (x ++ y) = search r (x.reverse ++ before) y) ∨
    Across r before x y := by
  induction x generalizing before with
  | nil => exact Or.inr (Or.inl ⟨search_at_end hprogress before, rfl⟩)
  | cons c x ih =>
    have hextend : sparing y (results r ⟨before, c :: (x ++ y), []⟩) =
        (results r ⟨before, c :: x, []⟩).map (Position.extend y) :=
      results_extend hr ⟨before, c :: x, []⟩
    rw [List.cons_append]
    cases hwhole : results r ⟨before, c :: (x ++ y), []⟩ with
    | nil =>
      have hnone : results r ⟨before, c :: x, []⟩ = [] := by
        rw [hwhole] at hextend
        exact List.map_eq_nil_iff.mp hextend.symm
      have hpassed : (c :: x).reverse ++ before = x.reverse ++ c :: before := by simp
      rw [search_of_nil hwhole, search_of_nil hnone, hpassed]
      rcases ih (c :: before) with hfirst | hsecond | ⟨skipped, u, v, rest, groups, rfl, hu, hy, hv,
        hacross⟩
      · exact Or.inl hfirst
      · exact Or.inr (Or.inl hsecond)
      · refine Or.inr (Or.inr ⟨c :: skipped, u, v, rest, groups, rfl, hu, hy, hv, ?_⟩)
        rw [List.cons_append, search_of_nil hwhole, hacross]
        simp
    | cons q l =>
      by_cases hspared : y.length ≤ q.after.length
      · -- the match that is found leaves the second piece alone
        rw [hwhole] at hextend
        unfold sparing at hextend
        rw [List.filter_cons_of_pos (by simpa using hspared)] at hextend
        cases hfirst : results r ⟨before, c :: x, []⟩ with
        | nil =>
          rw [hfirst] at hextend
          cases hextend
        | cons q' l' =>
          rw [hfirst, List.map_cons, List.cons.injEq] at hextend
          refine Or.inl ⟨⟨before, c :: x, []⟩, q', search_of_cons hfirst, ?_⟩
          rw [search_of_cons hwhole, hextend.1]
          rfl
      · -- the match that is found reads into the second piece
        obtain ⟨read, hbefore, hafter⟩ := results_reads r _ q (hwhole ▸ List.mem_cons_self)
        have hsplit : (c :: x) ++ y = read ++ q.after := hafter
        obtain ⟨v, hread, hy⟩ : ∃ v, read = (c :: x) ++ v ∧ y = v ++ q.after := by
          rcases List.append_eq_append_iff.mp hsplit with ⟨v, hread, hy⟩ | ⟨v, -, hq⟩
          · exact ⟨v, hread, hy⟩
          · rw [hq, List.length_append] at hspared
            omega
        have hv : v ≠ [] := by
          rintro rfl
          rw [hy, List.nil_append] at hspared
          exact hspared (Nat.le_refl _)
        refine Or.inr (Or.inr ⟨[], c :: x, v, q.after, q.groups, rfl, by simp, hy, hv, ?_⟩)
        rw [List.cons_append, search_of_cons hwhole, ← hread]
        congr 2
        cases q
        rw [Position.mk.injEq]
        exact ⟨hbefore, rfl, rfl⟩

/-! ## A whole scan -/

/-- A scan and the one of the text that follows: what the first leaves over is skipped before the
first match of the second. -/
def followedBy (scanned next : List Hit × List Char) : List Hit × List Char :=
  (scanned.1 ++ (skipping scanned.2 next).1, (skipping scanned.2 next).2)

/-- No match of a scan has its beginning at the end of one text and the rest of it at the beginning of
another. -/
def Apart (hits : List Hit) (x y : List Char) : Prop :=
  ∀ hit ∈ hits, ∀ u v, hit.matched = u ++ v → u ≠ [] → v ≠ [] → u <:+ x → v <+: y → False

theorem scanFrom_of_none {fuel : Nat} (h : search r before rest = none) :
    scanFrom r (fuel + 1) before rest = ([], rest) := by
  unfold scanFrom
  rw [h]

theorem scanFrom_of_some (fuel : Nat) {first last : Position} {skipped matched : List Char}
    (h : search r before rest = some (first, last)) (hprogress : Progress r)
    (hskipped : first.before = skipped.reverse ++ before)
    (hmatched : last.before = matched.reverse ++ first.before) :
    scanFrom r (fuel + 1) before rest =
      (⟨skipped, matched, last.groups⟩ :: (scanFrom r fuel last.before last.after).1,
        (scanFrom r fuel last.before last.after).2) := by
  have hless := hprogress first last (search_some h).2
  have hskipped' : first.before = skipped.reverse ++ (⟨before, rest, []⟩ : Position).before :=
    hskipped
  conv => lhs; unfold scanFrom
  rw [h]
  dsimp only
  rw [if_pos hless, consumed_eq hskipped', consumed_eq hmatched]

theorem followedBy_cons (hit : Hit) (scanned next : List Hit × List Char) :
    followedBy (hit :: scanned.1, scanned.2) next =
      (hit :: (followedBy scanned next).1, (followedBy scanned next).2) := rfl

theorem scanFrom_cut (hr : r.plain = true) (hprogress : Progress r) :
    ∀ (fuel : Nat) (before x y : List Char), (x ++ y).length < fuel →
      Apart (scanFrom r fuel before (x ++ y)).1 x y →
      scanFrom r fuel before (x ++ y) =
        followedBy (scanFrom r fuel before x) (scanFrom r fuel (x.reverse ++ before) y)
  | 0, before, x, y, hfuel, _ => by omega
  | fuel + 1, before, x, y, hfuel, hapart => by
    rcases search_cut hr hprogress before x y with ⟨first, last, hx, hxy⟩ | ⟨hx, hxy⟩ |
      ⟨skipped, u, v, rest, groups, rfl, hu, rfl, hv, hacross⟩
    · -- a match in the first piece, and the rest of that piece before the second
      obtain ⟨⟨skipped, hskipped, hfirst⟩, hlast⟩ := search_some hx
      obtain ⟨read, hread, hafter⟩ := results_reads r first last hlast
      have hx' : x = skipped ++ (read ++ last.after) := by rw [← hafter]; exact hfirst
      have hless : last.after.length < x.length := by
        have hshort := hprogress first last hlast
        rw [hx']
        rw [hafter] at hshort
        simp only [List.length_append] at hshort ⊢
        omega
      have hwhole := scanFrom_of_some fuel hxy hprogress hskipped hread
      have hpiece := scanFrom_of_some fuel hx hprogress hskipped hread
      have hpassed : x.reverse ++ before = last.after.reverse ++ last.before := by
        rw [hread, hskipped, hx']
        simp
      have hlength : (last.after ++ y).length < fuel := by
        simp only [List.length_append] at hfuel ⊢
        omega
      have hrest : Apart (scanFrom r fuel last.before (last.after ++ y)).1 last.after y := by
        intro hit hhit u v hmatched hu hv hsuffix
        refine hapart hit ?_ u v hmatched hu hv (hsuffix.trans ⟨skipped ++ read, ?_⟩)
        · rw [hwhole]
          exact List.mem_cons_of_mem _ hhit
        · rw [hx', List.append_assoc]
      have hcut := scanFrom_cut hr hprogress fuel last.before last.after y hlength hrest
      have hshorter : scanFrom r fuel (last.after.reverse ++ last.before) y =
          scanFrom r (fuel + 1) (last.after.reverse ++ last.before) y := by
        simp only [List.length_append] at hlength
        exact scanFrom_fuel _ _ _ _ (by omega) (by omega)
      rw [hshorter] at hcut
      rw [hwhole, hpiece, hpassed, followedBy_cons]
      have hextended : scanFrom r fuel (last.extend y).before (last.extend y).after =
          scanFrom r fuel last.before (last.after ++ y) := rfl
      rw [hextended, hcut]
      rfl
    · -- no match in the first piece
      rw [scanFrom_of_none hx]
      cases hy : search r (x.reverse ++ before) y with
      | none => rw [scanFrom_of_none (hxy.trans hy), scanFrom_of_none hy]; rfl
      | some found =>
        obtain ⟨first, last⟩ := found
        obtain ⟨⟨skipped, hskipped, -⟩, hlast⟩ := search_some hy
        obtain ⟨read, hread, -⟩ := results_reads r first last hlast
        have hskipped' : first.before = (x ++ skipped).reverse ++ before := by
          rw [List.reverse_append, List.append_assoc]
          exact hskipped
        rw [scanFrom_of_some fuel hy hprogress hskipped hread,
          scanFrom_of_some fuel (hxy.trans hy) hprogress hskipped' hread]
        rfl
    · -- a match across the cut
      exfalso
      refine hapart ⟨skipped, u ++ v, groups⟩ ?_ u v rfl hu hv ⟨skipped, rfl⟩ ⟨rest, rfl⟩
      rw [scanFrom_of_some fuel hacross hprogress rfl rfl]
      exact List.mem_cons_self

/-- Where no match lies across the cut, the scan of a text is that of its first piece followed by that
of its second. -/
theorem scan_cut_at (hr : r.plain = true) (hprogress : Progress r)
    (h : Apart (scan r (x ++ y)).1 x y) : scan r (x ++ y) = followedBy (scan r x) (scan r y) := by
  have hcut := scanFrom_cut hr hprogress _ [] x y (Nat.lt_succ_self _) h
  unfold scan
  rw [hcut]
  have hx : scanFrom r ((x ++ y).length + 1) [] x = scanFrom r (x.length + 1) [] x :=
    scanFrom_fuel _ _ _ _ (by rw [List.length_append]; omega) (Nat.lt_succ_self _)
  have hy : scanFrom r ((x ++ y).length + 1) (x.reverse ++ []) y =
      scanFrom r (y.length + 1) [] y := by
    have hbase := scanFrom_rebase hr x.reverse ((x ++ y).length + 1) [] y
    rw [List.nil_append] at hbase
    rw [List.append_nil, hbase]
    exact scanFrom_fuel _ _ _ _ (by rw [List.length_append]; omega) (Nat.lt_succ_self _)
  rw [hx, hy]

theorem matched_skipping (lead : List Char) (scanned : List Hit × List Char) :
    (skipping lead scanned).1.map Hit.matched = scanned.1.map Hit.matched := by
  obtain ⟨hits, rest⟩ := scanned
  cases hits with
  | nil => rfl
  | cons hit hits => rfl

theorem matched_followedBy (scanned next : List Hit × List Char) :
    (followedBy scanned next).1.map Hit.matched =
      scanned.1.map Hit.matched ++ next.1.map Hit.matched := by
  unfold followedBy
  rw [List.map_append, matched_skipping]

theorem matchAll_cut (hr : r.plain = true) (hprogress : Progress r)
    (h : Apart (scan r (x ++ y)).1 x y) : matchAll r (x ++ y) = matchAll r x ++ matchAll r y := by
  unfold matchAll
  rw [scan_cut_at hr hprogress h, matched_followedBy]

/-- A replacement that does not read what was skipped goes piece by piece. -/
theorem replace_cut (hr : r.plain = true) (hprogress : Progress r) {replacement : Hit → List Char}
    (hreplacement : ∀ hit skipped, replacement { hit with skipped } = replacement hit)
    (h : Apart (scan r (x ++ y)).1 x y) :
    replace r replacement (x ++ y) = replace r replacement x ++ replace r replacement y := by
  unfold replace
  rw [scan_cut_at hr hprogress h]
  generalize scan r x = scanned
  cases scan r y with
  | mk hits rest =>
    cases hits with
    | nil => simp [followedBy, skipping]
    | cons hit hits => simp [followedBy, skipping, hreplacement]

end Cut

end Regex
