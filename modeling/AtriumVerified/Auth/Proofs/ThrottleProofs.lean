import Mathlib.Data.List.Dedup
import Mathlib.Data.List.Infix
import Mathlib.Data.List.Perm.Subperm
import AtriumVerified.Auth.Throttle

/-!
# What the rate limiter remembers

A key keeps the last `limit` times of its log as long as it is not evicted. Eviction takes one key
at most: a key with fewer than `protectAfter` times in the window, while there is one, and that may
be the key that has just been recorded.
-/

namespace Auth.Throttle

open SlidingWindow

variable {options : ThrottleOptions} {hits : Hits} {key other : String} {at_ cutoff : Int}

/-! ## Entries -/

section Entries

variable {value : List Int}

theorem entries_set_delete : ((hits.delete key).set key value).entries =
    (hits.delete key).entries ++ [(key, value)] :=
  Js.Map.entries_set (by rw [Js.Map.get_delete, if_pos rfl]) value

end Entries

/-! ## Eviction -/

section Evict

theorem leastValuableKey_mem {victim : String}
    (h : leastValuableKey options cutoff hits = some victim) :
    ∃ times, hits.get victim = some times := by
  unfold leastValuableKey at h
  split at h
  · rename_i entry hfind
    cases h
    exact ⟨_, Js.Map.get_of_mem (List.mem_of_find?_eq_some hfind)⟩
  · obtain ⟨entry, hhead, rfl⟩ := Option.map_eq_some_iff.mp h
    exact ⟨_, Js.Map.get_of_mem (List.mem_of_mem_head? hhead)⟩

theorem exists_leastValuableKey (h : hits.entries ≠ []) :
    ∃ victim, leastValuableKey options cutoff hits = some victim := by
  unfold leastValuableKey
  split
  · exact ⟨_, rfl⟩
  · obtain ⟨entry, rest, hentries⟩ := List.exists_cons_of_ne_nil h
    exact ⟨entry.1, by rw [hentries]; rfl⟩

theorem evictLoop_length (fuel : Nat) (h : hits.entries.length ≤ fuel) :
    (evictLoop options cutoff fuel hits).entries.length ≤ options.maxKeys := by
  induction fuel generalizing hits with
  | zero => exact h.trans (Nat.zero_le _)
  | succ fuel ih =>
    unfold evictLoop
    by_cases hfull : options.maxKeys < hits.entries.length
    · rw [if_pos hfull]
      have hne : hits.entries ≠ [] := by
        intro hnil
        rw [hnil] at hfull
        exact Nat.not_lt_zero _ hfull
      obtain ⟨victim, hvictim⟩ : ∃ victim, leastValuableKey options cutoff hits = some victim :=
        exists_leastValuableKey hne
      rw [hvictim]
      obtain ⟨times, hheld⟩ := leastValuableKey_mem hvictim
      have hlength := Js.Map.length_delete hheld
      exact ih (by omega)
    · rw [if_neg hfull]
      omega

theorem evictLoop_of_le (fuel : Nat) (h : hits.entries.length ≤ options.maxKeys) :
    evictLoop options cutoff fuel hits = hits := by
  cases fuel with
  | zero => rfl
  | succ fuel =>
    unfold evictLoop
    rw [if_neg (not_lt.mpr h)]

theorem evict_of_le (h : hits.entries.length ≤ options.maxKeys) : evict options at_ hits = hits :=
  evictLoop_of_le _ h

theorem evict_full (h : hits.entries.length = options.maxKeys + 1) :
    ∃ victim, leastValuableKey options (at_ - options.windowMs) hits = some victim ∧
      evict options at_ hits = hits.delete victim := by
  have hne : hits.entries ≠ [] := by
    intro hnil
    rw [hnil] at h
    cases h
  obtain ⟨victim, hvictim⟩ : ∃ victim,
      leastValuableKey options (at_ - options.windowMs) hits = some victim :=
    exists_leastValuableKey hne
  refine ⟨victim, hvictim, ?_⟩
  obtain ⟨times, hheld⟩ := leastValuableKey_mem hvictim
  have hlength := Js.Map.length_delete hheld
  unfold evict
  rw [h, evictLoop, if_pos (by omega), hvictim]
  exact evictLoop_of_le _ (by omega)

theorem evict_length : (evict options at_ hits).entries.length ≤ options.maxKeys :=
  evictLoop_length _ (le_refl _)

theorem victim_unprotected {victim : String} {entry : String × List Int}
    (h : leastValuableKey options cutoff hits = some victim) (hentry : entry ∈ hits.entries)
    (hunprotected : unprotected options cutoff entry = true) :
    ∃ held ∈ hits.entries, held.1 = victim ∧ unprotected options cutoff held = true := by
  unfold leastValuableKey at h
  split at h
  · rename_i held hfind
    cases h
    exact ⟨held, List.mem_of_find?_eq_some hfind, rfl, List.find?_some hfind⟩
  · rename_i hnone
    exact absurd hunprotected (List.find?_eq_none.mp hnone entry hentry)

/-- A protected key is evicted only when the other keys are protected as well, and fill the map. -/
theorem evict_spares {times : List Int} (hlength : hits.entries.length ≤ options.maxKeys + 1)
    (hheld : hits.get key = some times)
    (hprotected : options.protectAfter ≤ (recent (at_ - options.windowMs) times).length)
    (hroom : ((evict options at_ hits).entries.filter fun entry => entry.1 != key &&
      !unprotected options (at_ - options.windowMs) entry).length < options.maxKeys) :
    (evict options at_ hits).get key = some times := by
  by_cases hfull : hits.entries.length ≤ options.maxKeys
  · rw [evict_of_le hfull]
    exact hheld
  · have hone : hits.entries.length = options.maxKeys + 1 := by omega
    obtain ⟨victim, hvictim, hevict⟩ : ∃ victim,
        leastValuableKey options (at_ - options.windowMs) hits = some victim ∧
        evict options at_ hits = hits.delete victim := evict_full hone
    by_cases hkey : victim = key
    · -- Nobody is unprotected, so the other keys stay and are counted.
      have hall : ∀ entry ∈ hits.entries,
          unprotected options (at_ - options.windowMs) entry = false := by
        intro entry hentry
        by_contra hun
        obtain ⟨held, hmem, hname, hheldUn⟩ :=
          victim_unprotected hvictim hentry (Bool.not_eq_false _ ▸ hun)
        have hvalue : held.2 = times := by
          have hget := Js.Map.get_of_mem hmem
          rw [hname, hkey, hheld] at hget
          exact (Option.some.inj hget).symm
        unfold unprotected at hheldUn
        rw [hvalue] at hheldUn
        exact absurd (of_decide_eq_true hheldUn) (not_lt.mpr hprotected)
      have hcount : (hits.delete victim).entries.filter (fun entry => entry.1 != key &&
          !unprotected options (at_ - options.windowMs) entry) = (hits.delete victim).entries := by
        rw [List.filter_eq_self]
        intro entry hentry
        obtain ⟨hmem, hne⟩ := List.mem_filter.mp hentry
        rw [hall entry hmem, ← hkey, hne]
        rfl
      rw [hevict, hcount, hkey] at hroom
      have hlost := Js.Map.length_delete hheld
      omega
    · rw [hevict, Js.Map.get_delete, if_neg fun heq => hkey heq.symm]
      exact hheld

/-- When the key that came last is the one to go. -/
theorem victim_last {others : List (String × List Int)} {times : List Int}
    (hentries : hits.entries = others ++ [(key, times)])
    (hothers : ∀ entry ∈ others, entry.1 ≠ key) :
    leastValuableKey options cutoff hits = some key ↔
      (∀ entry ∈ others, unprotected options cutoff entry = false) ∧
        (unprotected options cutoff (key, times) = true ∨ others = []) := by
  unfold leastValuableKey
  rw [hentries, List.find?_append]
  cases hfind : others.find? (unprotected options cutoff) with
  | some entry =>
    have hmem := List.mem_of_find?_eq_some hfind
    constructor
    · intro heq
      exact absurd (Option.some.inj heq) (hothers entry hmem)
    · rintro ⟨hall, -⟩
      exact absurd (List.find?_some hfind) (by rw [hall entry hmem]; exact Bool.false_ne_true)
  | none =>
    have hall : ∀ entry ∈ others, unprotected options cutoff entry = false := by
      intro entry hentry
      exact Bool.eq_false_iff.mpr (List.find?_eq_none.mp hfind entry hentry)
    rw [Option.none_or]
    by_cases hlast : unprotected options cutoff (key, times) = true
    · rw [List.find?_cons_of_pos hlast]
      exact iff_of_true rfl ⟨hall, Or.inl hlast⟩
    · rw [List.find?_cons_of_neg hlast]
      cases others with
      | nil => exact iff_of_true rfl ⟨hall, Or.inr rfl⟩
      | cons first rest =>
        refine iff_of_false ?_ ?_
        · intro heq
          exact hothers first List.mem_cons_self (Option.some.inj heq)
        · rintro ⟨-, hor | hnil⟩
          · exact hlast hor
          · cases hnil

end Evict

/-! ## One attempt -/

section Record

def stored (hits : Hits) (key : String) : List Int := (hits.get key).getD []

/-- The map after an attempt, before the eviction. -/
def recorded (options : ThrottleOptions) (hits : Hits) (key : String) (at_ : Int) : Hits :=
  (hits.delete key).set key
    (push options.limit (at_ - options.windowMs) at_ (stored hits key))

theorem record_fst : (record options hits key at_).1 =
    evict options at_ (recorded options hits key at_) := by
  unfold record recorded push stored
  dsimp only
  split
  · rfl
  · rfl

theorem record_snd : (record options hits key at_).2 = true ↔
    (recent (at_ - options.windowMs) (stored hits key)).length < options.limit := by
  unfold record stored
  dsimp only
  split
  · exact iff_of_false Bool.false_ne_true (by omega)
  · exact iff_of_true rfl (by omega)

theorem recorded_get : (recorded options hits key at_).get other =
    if other = key then some (push options.limit (at_ - options.windowMs) at_ (stored hits key))
    else hits.get other := by
  unfold recorded
  rw [Js.Map.get_set, Js.Map.get_delete]
  split
  · rfl
  · rfl

theorem recorded_entries : (recorded options hits key at_).entries = (hits.delete key).entries ++
    [(key, push options.limit (at_ - options.windowMs) at_ (stored hits key))] :=
  entries_set_delete

theorem recorded_length_held {times : List Int} (h : hits.get key = some times) :
    (recorded options hits key at_).entries.length = hits.entries.length := by
  rw [recorded_entries, List.length_append, List.length_singleton, Js.Map.length_delete h]

theorem recorded_length_new (h : hits.get key = none) :
    (recorded options hits key at_).entries.length = hits.entries.length + 1 := by
  rw [recorded_entries, List.length_append, List.length_singleton, Js.Map.delete_of_none h]

theorem recorded_length_le (h : hits.entries.length ≤ options.maxKeys) :
    (recorded options hits key at_).entries.length ≤ options.maxKeys + 1 := by
  cases hget : hits.get key with
  | none =>
    rw [recorded_length_new hget]
    omega
  | some times =>
    rw [recorded_length_held hget]
    omega

theorem evictLoop_get (fuel : Nat) : (evictLoop options cutoff fuel hits).get key = hits.get key ∨
    (evictLoop options cutoff fuel hits).get key = none := by
  induction fuel generalizing hits with
  | zero => exact Or.inl rfl
  | succ fuel ih =>
    unfold evictLoop
    split
    · split
      · exact Or.inl rfl
      · rename_i victim _
        have hget := Js.Map.get_delete hits victim key
        rcases ih with hsame | hgone
        · rw [hsame, hget]
          split
          · exact Or.inr rfl
          · exact Or.inl rfl
        · exact Or.inr hgone
    · exact Or.inl rfl

theorem evict_get : (evict options at_ hits).get key = hits.get key ∨
    (evict options at_ hits).get key = none := evictLoop_get _

theorem push_length_le {times : List Int} :
    (push options.limit cutoff at_ times).length ≤ times.length + 1 := by
  have hrecent : (recent cutoff times).length ≤ times.length := List.length_filter_le _ _
  unfold push
  dsimp only
  split
  · rw [List.length_append, List.length_tail, List.length_singleton]
    omega
  · rw [List.length_append, List.length_singleton]
    omega

theorem stored_record_le : (stored (record options hits key at_).1 key).length ≤
    (stored hits key).length + 1 := by
  rw [record_fst]
  have hget : (recorded options hits key at_).get key =
      some (push options.limit (at_ - options.windowMs) at_ (stored hits key)) := by
    rw [recorded_get, if_pos rfl]
  rcases (evict_get : (evict options at_ (recorded options hits key at_)).get key = _ ∨ _) with
    hsame | hgone
  · unfold stored at *
    rw [hsame, hget]
    exact push_length_le
  · unfold stored
    rw [hgone]
    exact Nat.zero_le _

theorem record_held {times : List Int} (hlength : hits.entries.length ≤ options.maxKeys)
    (h : hits.get key = some times) : (record options hits key at_).1.get key =
      some (push options.limit (at_ - options.windowMs) at_ times) := by
  rw [record_fst, evict_of_le (by rw [recorded_length_held h]; exact hlength), recorded_get,
    if_pos rfl]
  unfold stored
  rw [h]
  rfl

theorem recorded_new (hlimit : 0 < options.limit) (h : hits.get key = none) :
    (recorded options hits key at_).entries = hits.entries ++ [(key, [at_])] ∧
      ∀ entry ∈ hits.entries, entry.1 ≠ key := by
  constructor
  · have hnil : push options.limit (at_ - options.windowMs) at_ (stored hits key) = [at_] := by
      have hempty : recent (at_ - options.windowMs) (stored hits key) = [] := by
        unfold stored
        rw [h]
        rfl
      unfold push
      rw [hempty]
      exact congrArg (· ++ [at_]) (if_neg (not_le.mpr hlimit))
    rw [recorded_entries, Js.Map.delete_of_none h, hnil]
  · rintro entry hentry rfl
    exact Js.Map.get_eq_none.mp h (List.mem_map_of_mem hentry)

/-- A key that is not stored is kept exactly when there is room for it. -/
theorem record_new (hwindow : 0 < options.windowMs) (hlimit : 0 < options.limit)
    (hlength : hits.entries.length ≤ options.maxKeys) (h : hits.get key = none) :
    (Room options hits at_ → (record options hits key at_).1.get key = some [at_]) ∧
      (¬ Room options hits at_ → (record options hits key at_).1.get key = none) := by
  obtain ⟨hentries, hothers⟩ : (recorded options hits key at_).entries =
      hits.entries ++ [(key, [at_])] ∧ ∀ entry ∈ hits.entries, entry.1 ≠ key :=
    recorded_new hlimit h
  have hrecorded : (recorded options hits key at_).get key = some [at_] := by
    have hmem : (key, [at_]) ∈ (recorded options hits key at_).entries := by
      rw [hentries]
      exact List.mem_append_right _ (List.mem_singleton_self _)
    exact Js.Map.get_of_mem hmem
  have hone : (unprotected options (at_ - options.windowMs) (key, [at_]) = true) ↔
      1 < options.protectAfter := by
    have hrecent : recent (at_ - options.windowMs) [at_] = [at_] :=
      recent_eq_self.mpr fun time htime => by
        rw [List.mem_singleton.mp htime]
        omega
    unfold unprotected
    dsimp only
    rw [hrecent, decide_eq_true_iff]
    rfl
  rw [record_fst]
  by_cases hfull : hits.entries.length < options.maxKeys
  · rw [evict_of_le (by rw [recorded_length_new h]; omega)]
    exact ⟨fun _ => hrecorded, fun hroom => absurd (Or.inl hfull) hroom⟩
  · obtain ⟨victim, hvictim, hevict⟩ : ∃ victim, leastValuableKey options (at_ - options.windowMs)
        (recorded options hits key at_) = some victim ∧
        evict options at_ (recorded options hits key at_) =
          (recorded options hits key at_).delete victim :=
      evict_full (by rw [recorded_length_new h]; omega)
    have hlast : leastValuableKey options (at_ - options.windowMs) (recorded options hits key at_) =
        some key ↔ _ := victim_last hentries hothers
    rw [hevict, Js.Map.get_delete]
    by_cases hkey : key = victim
    · rw [if_pos hkey]
      refine ⟨?_, fun _ => rfl⟩
      rw [← hkey] at hvictim
      obtain ⟨hall, hor⟩ := hlast.mp hvictim
      rintro (hlt | ⟨entry, hentry, hun⟩ | ⟨hprotect, hpos⟩)
      · exact absurd hlt hfull
      · rw [hall entry hentry] at hun
        cases hun
      · rcases hor with hun | hnil
        · have hlt := hone.mp hun
          omega
        · rw [hnil] at hfull
          exact absurd hpos hfull
    · rw [if_neg hkey]
      refine ⟨fun _ => hrecorded, ?_⟩
      intro hroom
      refine absurd ?_ hkey
      have hself : leastValuableKey options (at_ - options.windowMs)
          (recorded options hits key at_) = some key := by
        rw [hlast]
        refine ⟨?_, ?_⟩
        · intro entry hentry
          exact Bool.eq_false_iff.mpr fun hun => hroom (Or.inr (Or.inl ⟨entry, hentry, hun⟩))
        · by_cases hprotect : 1 < options.protectAfter
          · exact Or.inl (hone.mpr hprotect)
          · right
            by_contra hne
            have hpos := List.length_pos_iff.mpr hne
            exact hroom (Or.inr (Or.inr ⟨by omega, by omega⟩))
      rw [hself] at hvictim
      exact Option.some.inj hvictim

end Record

/-! ## Runs -/

section Runs

variable {operations : List Operation}

theorem apply_attempt : apply options hits (.attempt key at_) =
    evict options at_ (recorded options hits key at_) := record_fst

theorem apply_reset : apply options hits (.reset key) = hits.delete key := rfl

theorem after_concat (operation : Operation) : after options (operations ++ [operation]) =
    apply options (after options operations) operation := by
  unfold after
  rw [List.foldl_append]
  rfl

theorem after_append (first second : List Operation) :
    after options (first ++ second) = second.foldl (apply options) (after options first) :=
  List.foldl_append

theorem after_length : (after options operations).entries.length ≤ options.maxKeys := by
  induction operations using List.reverseRecOn with
  | nil => exact Nat.zero_le _
  | append_singleton rest operation ih =>
    rw [after_concat]
    cases operation with
    | attempt key at_ =>
      rw [apply_attempt]
      exact evict_length
    | reset key => exact (List.length_filter_le _ _).trans ih

theorem after_get_none (h : ∀ at_, Operation.attempt key at_ ∉ operations) :
    (after options operations).get key = none := by
  induction operations using List.reverseRecOn with
  | nil => rfl
  | append_singleton rest operation ih =>
    have hrest : (after options rest).get key = none :=
      ih fun at_ hmem => h at_ (List.mem_append_left _ hmem)
    rw [after_concat]
    cases operation with
    | attempt other at_ =>
      have hne : key ≠ other := by
        rintro rfl
        exact h at_ (List.mem_append_right _ (List.mem_singleton_self _))
      rw [apply_attempt]
      rcases (evict_get : (evict options at_ (recorded options (after options rest) other at_)).get
          key = _ ∨ _) with hsame | hgone
      · rw [hsame, recorded_get, if_neg hne]
        exact hrest
      · exact hgone
    | reset other =>
      rw [apply_reset, Js.Map.get_delete, hrest]
      split
      · rfl
      · rfl

theorem stored_attempts_le (times : List Int) :
    (stored ((times.map (Operation.attempt key)).foldl (apply options) hits) key).length ≤
      (stored hits key).length + times.length := by
  induction times generalizing hits with
  | nil => exact le_refl _
  | cons time rest ih =>
    have hone : (stored (apply options hits (.attempt key time)) key).length ≤ _ :=
      stored_record_le
    refine (ih.trans (Nat.add_le_add_right hone _)).trans ?_
    rw [List.length_cons]
    omega

/-- Attempts in a row on a key that is stored are all kept, until the window is full. -/
theorem stored_attempts {held times : List Int} (hlength : hits.entries.length ≤ options.maxKeys)
    (hheld : hits.get key = some held) (hfit : held.length + times.length ≤ options.limit)
    (hwithin : (held ++ times).Pairwise fun first last => last - first < options.windowMs) :
    ((times.map (Operation.attempt key)).foldl (apply options) hits).get key =
      some (held ++ times) := by
  induction times generalizing hits held with
  | nil =>
    rw [List.append_nil]
    exact hheld
  | cons time rest ih =>
    have hrecent : recent (time - options.windowMs) held = held := by
      rw [recent_eq_self]
      intro old hold
      have hlt := (List.pairwise_append.mp hwithin).2.2 old hold time List.mem_cons_self
      omega
    have hnext : (apply options hits (.attempt key time)).get key = some (held ++ [time]) := by
      have hkept : (record options hits key time).1.get key =
        some (push options.limit (time - options.windowMs) time held) := record_held hlength hheld
      unfold push at hkept
      rw [hrecent] at hkept
      dsimp only at hkept
      rw [List.length_cons] at hfit
      rw [if_neg (by omega)] at hkept
      exact hkept
    have hsmall : (apply options hits (.attempt key time)).entries.length ≤ options.maxKeys := by
      rw [apply_attempt]
      exact evict_length
    have hall := ih hsmall hnext
      (by rw [List.length_append, List.length_singleton]; rw [List.length_cons] at hfit; omega)
      (by rw [List.append_assoc]; exact hwithin)
    rw [List.append_assoc] at hall
    exact hall

/-- A key that is attempted `limit + 1` times in a row inside the window is refused in the end
exactly when there was room for it at the beginning; and the map never holds more than `maxKeys`
keys. -/
theorem refused_iff_room (options : ThrottleOptions) (hlimit : 2 ≤ options.limit) :
    (∀ operations, (after options operations).entries.length ≤ options.maxKeys) ∧
    ∀ operations key first rest last, (∀ at_, Operation.attempt key at_ ∉ operations) →
      (first :: rest).length = options.limit → (first :: rest ++ [last]).Pairwise (· ≤ ·) →
      last - first < options.windowMs →
      (allows options (operations ++ (first :: rest).map (Operation.attempt key)) key last = false ↔
        Room options (after options operations) first) := by
  refine ⟨fun operations => after_length, ?_⟩
  intro operations key first rest last hother hcount hclock hwithin
  rw [List.length_cons] at hcount
  obtain ⟨htimes, -, hlast⟩ := List.pairwise_append.mp hclock
  have hle : first ≤ last := hlast first List.mem_cons_self last (List.mem_singleton_self last)
  have hnone : (after options operations).get key = none := after_get_none hother
  have hnew : (Room options (after options operations) first →
        (record options (after options operations) key first).1.get key = some [first]) ∧
      (¬ Room options (after options operations) first →
        (record options (after options operations) key first).1.get key = none) :=
    record_new (by omega) (by omega) after_length hnone
  -- What the first attempt leaves behind, and what the others make of it.
  have hstart : after options (operations ++ (first :: rest).map (Operation.attempt key)) =
      (rest.map (Operation.attempt key)).foldl (apply options)
        (record options (after options operations) key first).1 := by
    rw [after_append]
    rfl
  have hspread : (first :: rest).Pairwise fun earlier later =>
      later - earlier < options.windowMs := by
    refine htimes.imp_of_mem ?_
    intro earlier later hearlier hlater _
    have hfirst : first ≤ earlier := by
      rcases List.mem_cons.mp hearlier with rfl | hmem
      · exact le_refl _
      · exact (List.pairwise_cons.mp htimes).1 earlier hmem
    have hlater' := hlast later hlater last (List.mem_singleton_self last)
    omega
  unfold allows
  rw [hstart, ← Bool.not_eq_true, record_snd, not_lt]
  by_cases hroom : Room options (after options operations) first
  · refine iff_of_true ?_ hroom
    have hsmall : (record options (after options operations) key first).1.entries.length ≤
        options.maxKeys := by
      rw [record_fst]
      exact evict_length
    have hall : ((rest.map (Operation.attempt key)).foldl (apply options)
        (record options (after options operations) key first).1).get key = some ([first] ++ rest) :=
      stored_attempts hsmall (hnew.1 hroom) (by rw [List.length_singleton]; omega) hspread
    unfold stored
    rw [hall, Option.getD_some, recent_eq_self.mpr]
    · rw [List.length_append, List.length_singleton]
      omega
    · intro time hmem
      have hge : first ≤ time := by
        rcases List.mem_cons.mp hmem with rfl | hmem
        · exact le_refl _
        · exact (List.pairwise_cons.mp htimes).1 time hmem
      omega
  · refine iff_of_false ?_ hroom
    have hgone := hnew.2 hroom
    have hfew : (stored ((rest.map (Operation.attempt key)).foldl (apply options)
        (record options (after options operations) key first).1) key).length ≤ _ :=
      stored_attempts_le rest
    have hzero : (stored (record options (after options operations) key first).1 key).length =
        0 := by
      unfold stored
      rw [hgone]
      rfl
    rw [hzero] at hfew
    refine not_le.mpr ((List.length_filter_le _ _).trans_lt ?_)
    omega

def twoAMinute (maxKeys : Nat) : ThrottleOptions := { limit := 2, windowMs := 60000, maxKeys }

def adaTwice : List Operation := [.attempt "ada" 0, .attempt "ada" 0]

/-- The only place of the map is taken by a key that is protected, and a third attempt on another
key passes. -/
theorem full_limiter_passes : ¬ ∀ (options : ThrottleOptions) operations key first rest last,
    2 ≤ options.limit → (∀ at_, Operation.attempt key at_ ∉ operations) →
    (first :: rest).length = options.limit → (first :: rest ++ [last]).Pairwise (· ≤ ·) →
    last - first < options.windowMs →
    allows options (operations ++ (first :: rest).map (Operation.attempt key)) key last =
      false := by
  intro hall
  have hrefused := hall (twoAMinute 1) adaTwice "grace" 0 [0] 0 (by decide) (by simp [adaTwice])
    (by decide) (by decide) (by decide)
  have hpasses : allows (twoAMinute 1) (adaTwice ++ [0, 0].map (Operation.attempt "grace"))
      "grace" 0 = true := by decide
  exact Bool.false_ne_true (hrefused.symm.trans hpasses)

theorem second_place_refuses : Room (twoAMinute 2) (after (twoAMinute 2) adaTwice) 0 ∧
    allows (twoAMinute 2) (adaTwice ++ [0, 0].map (Operation.attempt "grace")) "grace" 0 =
      false := by
  have hroom : Room (twoAMinute 2) (after (twoAMinute 2) adaTwice) 0 := Or.inl (by decide)
  refine ⟨hroom, ?_⟩
  exact ((refused_iff_room (twoAMinute 2) (by decide)).2 adaTwice "grace" 0 [0] 0
    (by simp [adaTwice]) (by decide) (by decide) (by decide)).mpr hroom

end Runs

/-! ## The full log -/

section Log

variable {operations : List Operation} {tail : List Int}

theorem log_attempt : log key (operations ++ [Operation.attempt other at_]) =
    if other = key then log key operations ++ [at_] else log key operations := by
  unfold log
  rw [List.foldl_append]
  rfl

theorem log_reset : log key (operations ++ [Operation.reset other]) =
    if other = key then [] else log key operations := by
  unfold log
  rw [List.foldl_append]
  rfl

theorem times_append (first second : List Operation) :
    times (first ++ second) = times first ++ times second := List.filterMap_append

theorem log_sublist : (log key operations).Sublist (times operations) := by
  induction operations using List.reverseRecOn with
  | nil => exact List.Sublist.refl _
  | append_singleton rest operation ih =>
    rw [times_append]
    cases operation with
    | attempt other at_ =>
      rw [log_attempt]
      split
      · exact ih.append (List.Sublist.refl _)
      · exact ih.trans (List.sublist_append_left _ _)
    | reset other =>
      rw [log_reset]
      split
      · exact List.nil_sublist _
      · exact ih.trans (List.sublist_append_left _ _)

theorem Timely.le (h : Timely (operations ++ [Operation.attempt key at_])) :
    ∀ time ∈ times operations, time ≤ at_ := by
  intro time htime
  unfold Timely at h
  rw [times_append] at h
  exact (List.pairwise_append.mp h).2.2 time htime at_ (List.mem_singleton_self _)

theorem Timely.cut (h : Timely (operations ++ [Operation.attempt key at_])) :
    ∀ time ∈ times operations, time - options.windowMs ≤ at_ - options.windowMs :=
  fun time htime => Int.sub_le_sub_right (h.le time htime) _

/-- A key keeps the last times of the end of its log. -/
def KeptFrom (options : ThrottleOptions) (operations : List Operation) (key : String)
    (tail : List Int) : Prop :=
  ∀ cutoff, (∀ time ∈ times operations, time - options.windowMs ≤ cutoff) →
    Keeps options.limit cutoff (stored (after options operations) key) tail

theorem KeptFrom.attempt (hlimit : 0 < options.limit) (h : KeptFrom options operations key tail)
    (hclock : Timely (operations ++ [Operation.attempt other at_]))
    (htail : tail.Sublist (times operations))
    (hspared : (after options (operations ++ [Operation.attempt other at_])).get key =
      (recorded options (after options operations) other at_).get key) :
    KeptFrom options (operations ++ [Operation.attempt other at_]) key
      (if other = key then tail ++ [at_] else tail) := by
  intro cutoff hcutoff
  have hcut : ∀ time ∈ times operations, time - options.windowMs ≤ cutoff := by
    intro time htime
    refine hcutoff time ?_
    rw [times_append]
    exact List.mem_append_left _ htime
  unfold stored
  rw [hspared, recorded_get]
  by_cases hother : other = key
  · rw [if_pos hother, if_pos hother.symm, Option.getD_some, hother]
    have hlog : (tail ++ [at_]).Pairwise (· ≤ ·) := by
      unfold Timely at hclock
      rw [times_append] at hclock
      exact hclock.sublist (htail.append (List.Sublist.refl _))
    have hkept := h (at_ - options.windowMs) hclock.cut
    obtain ⟨n, hn⟩ := Nat.exists_eq_add_one_of_ne_zero (Nat.ne_of_gt hlimit)
    rw [hn] at hkept ⊢
    refine (hkept.push hlog).later (hcutoff at_ ?_)
    rw [times_append]
    exact List.mem_append_right _ (List.mem_singleton_self _)
  · rw [if_neg hother, if_neg fun heq => hother heq.symm]
    exact h cutoff hcut

theorem KeptFrom.reset (h : KeptFrom options operations key tail) :
    KeptFrom options (operations ++ [Operation.reset other]) key
      (if other = key then [] else tail) := by
  intro cutoff hcutoff
  have hcut : ∀ time ∈ times operations, time - options.windowMs ≤ cutoff := by
    intro time htime
    refine hcutoff time ?_
    rw [times_append]
    exact List.mem_append_left _ htime
  unfold stored
  rw [after_concat, apply_reset, Js.Map.get_delete]
  by_cases hother : other = key
  · rw [if_pos hother, if_pos hother.symm]
    exact keeps_nil
  · rw [if_neg hother, if_neg fun heq => hother heq.symm]
    exact h cutoff hcut

theorem keptFrom_gone (h : (after options operations).get key = none) :
    KeptFrom options operations key [] := by
  intro cutoff _
  unfold stored
  rw [h]
  exact keeps_nil

theorem timely_left {first second : List Operation} (h : Timely (first ++ second)) :
    Timely first := by
  unfold Timely at *
  rw [times_append] at h
  exact (List.pairwise_append.mp h).1

/-- What is stored of a key is kept of the end of its log. -/
theorem exists_keptFrom (hlimit : 0 < options.limit) (hclock : Timely operations) :
    ∃ old tail, log key operations = old ++ tail ∧ KeptFrom options operations key tail := by
  induction operations using List.reverseRecOn with
  | nil => exact ⟨[], [], rfl, keptFrom_gone rfl⟩
  | append_singleton rest operation ih =>
    obtain ⟨old, tail, hlog, hkept⟩ := ih (timely_left hclock)
    have htail : tail.Sublist (times rest) := by
      have hsub : (log key rest).Sublist (times rest) := log_sublist
      rw [hlog] at hsub
      exact (List.sublist_append_right old tail).trans hsub
    cases operation with
    | attempt other at_ =>
      rw [log_attempt]
      have hevict : (evict options at_ (recorded options (after options rest) other at_)).get key =
        _ ∨ _ := evict_get
      rw [← apply_attempt, ← after_concat] at hevict
      rcases hevict with hspared | hgone
      · refine ⟨old, _, ?_, hkept.attempt hlimit hclock htail hspared⟩
        rw [hlog]
        split
        · exact List.append_assoc _ _ _
        · rfl
      · exact ⟨_, [], (List.append_nil _).symm, keptFrom_gone hgone⟩
    | reset other =>
      rw [log_reset]
      by_cases hother : other = key
      · refine ⟨[], [], if_pos hother, ?_⟩
        have hreset : KeptFrom options (rest ++ [Operation.reset other]) key
          (if other = key then [] else tail) := hkept.reset
        rw [if_pos hother] at hreset
        exact hreset
      · refine ⟨old, tail, ?_, ?_⟩
        · rw [if_neg hother]
          exact hlog
        · have hreset : KeptFrom options (rest ++ [Operation.reset other]) key
            (if other = key then [] else tail) := hkept.reset
          rw [if_neg hother] at hreset
          exact hreset

/-! ### Without eviction -/

theorem attempted_mono {first second : List Operation} :
    (attempted first).length ≤ (attempted (first ++ second)).length := by
  unfold attempted
  refine ((List.nodup_dedup _).subperm ?_).length_le
  intro key hkey
  rw [List.mem_dedup] at hkey ⊢
  rw [List.filterMap_append]
  exact List.mem_append_left _ hkey

theorem stored_attempted {entry : String × List Int}
    (h : entry ∈ (after options operations).entries) : entry.1 ∈ attempted operations := by
  by_contra hnot
  have hnone : (after options operations).get entry.1 = none := by
    refine after_get_none fun at_ hmem => hnot ?_
    unfold attempted
    rw [List.mem_dedup, List.mem_filterMap]
    exact ⟨.attempt entry.1 at_, hmem, rfl⟩
  rw [Js.Map.get_of_mem h] at hnone
  cases hnone

theorem after_attempt (hkeys : (attempted (operations ++ [Operation.attempt other at_])).length ≤
    options.maxKeys) : after options (operations ++ [Operation.attempt other at_]) =
      recorded options (after options operations) other at_ := by
  rw [after_concat, apply_attempt]
  refine evict_of_le (le_trans ?_ hkeys)
  have hnodup := (recorded options (after options operations) other at_).nodup
  rw [← List.length_map Prod.fst]
  refine (hnodup.subperm ?_).length_le
  intro key hkey
  obtain ⟨entry, hentry, rfl⟩ := List.mem_map.mp hkey
  unfold attempted
  rw [List.mem_dedup, List.filterMap_append, List.mem_append]
  rw [recorded_entries] at hentry
  rcases List.mem_append.mp hentry with hheld | hnew
  · have hmem := stored_attempted (List.mem_of_mem_filter hheld)
    unfold attempted at hmem
    exact Or.inl (List.mem_dedup.mp hmem)
  · rw [List.mem_singleton.mp hnew]
    exact Or.inr (List.mem_singleton_self _)

theorem keptFrom_log (hlimit : 0 < options.limit) (hclock : Timely operations)
    (hkeys : (attempted operations).length ≤ options.maxKeys) :
    KeptFrom options operations key (log key operations) := by
  induction operations using List.reverseRecOn with
  | nil => exact keptFrom_gone rfl
  | append_singleton rest operation ih =>
    have hkept := ih (timely_left hclock) (attempted_mono.trans hkeys)
    cases operation with
    | attempt other at_ =>
      rw [log_attempt]
      exact hkept.attempt hlimit hclock log_sublist (by rw [after_attempt hkeys])
    | reset other =>
      rw [log_reset]
      exact hkept.reset

theorem KeptFrom.allows_iff (h : KeptFrom options operations key (log key operations))
    (hclock : Timely (operations ++ [Operation.attempt key at_])) :
    allows options operations key at_ = true ↔
      (recent (at_ - options.windowMs) (log key operations)).length < options.limit := by
  have hfull := (h (at_ - options.windowMs) hclock.cut).full_iff
  unfold allows
  rw [record_snd]
  omega

/-! ### With eviction -/

/-- The next attempt on a key, where the key is not reset before. -/
theorem exists_next_attempt {rest : List Operation} {last : Int}
    (hreset : Operation.reset key ∉ rest) :
    ∃ quiet at_ later,
      rest ++ [Operation.attempt key last] = quiet ++ Operation.attempt key at_ :: later ∧
      ∀ operations, log key (operations ++ quiet) = log key operations := by
  induction rest with
  | nil => exact ⟨[], last, [], rfl, fun operations => by rw [List.append_nil]⟩
  | cons operation rest ih =>
    obtain ⟨quiet, at_, later, hsplit, hlog⟩ := ih fun hmem => hreset (List.mem_cons_of_mem _ hmem)
    by_cases hkey : ∃ time, operation = .attempt key time
    · obtain ⟨time, rfl⟩ := hkey
      exact ⟨[], time, rest ++ [Operation.attempt key last], rfl,
        fun operations => by rw [List.append_nil]⟩
    · refine ⟨operation :: quiet, at_, later, ?_, ?_⟩
      · rw [List.cons_append, hsplit]
        rfl
      · intro operations
        have hone : log key (operations ++ [operation]) = log key operations := by
          cases operation with
          | attempt other time =>
            rw [log_attempt, if_neg]
            rintro rfl
            exact hkey ⟨time, rfl⟩
          | reset other =>
            rw [log_reset, if_neg]
            rintro rfl
            exact hreset List.mem_cons_self
        rw [List.append_cons, hlog, hone]

theorem exists_held (hlimit : 0 < options.limit)
    (h : options.limit ≤ (recent cutoff (stored hits key)).length) :
    ∃ held, hits.get key = some held := by
  rw [← Option.ne_none_iff_exists']
  intro hnone
  unfold stored at h
  rw [hnone] at h
  exact absurd hlimit (not_lt.mpr h)

theorem after_own {held : List Int} (h : (after options operations).get key = some held) :
    (after options (operations ++ [Operation.attempt key at_])).get key =
      (recorded options (after options operations) key at_).get key := by
  have hown : (record options (after options operations) key at_).1.get key =
    some (push options.limit (at_ - options.windowMs) at_ held) := record_held after_length h
  rw [after_concat, recorded_get, if_pos rfl]
  unfold stored
  rw [h]
  exact hown

/-- A key with a full window is not evicted while the other keys with one do not fill the map. -/
theorem KeptFrom.spared {log : List Int} (hprotect : options.protectAfter = options.limit)
    (hlimit : 0 < options.limit) (h : KeptFrom options operations key log)
    (hclock : Timely (operations ++ [Operation.attempt other at_]))
    (hfull : options.limit ≤ (recent (at_ - options.windowMs) log).length)
    (hroom : other ≠ key → (holders options key at_
      (after options (operations ++ [Operation.attempt other at_]))).length < options.maxKeys) :
    (after options (operations ++ [Operation.attempt other at_])).get key =
      (recorded options (after options operations) other at_).get key := by
  have hstored := (h (at_ - options.windowMs) hclock.cut).full_iff.mpr hfull
  obtain ⟨held, hheld⟩ := exists_held hlimit hstored
  by_cases hother : other = key
  · rw [hother]
    exact after_own hheld
  · have hrecorded : (recorded options (after options operations) other at_).get key =
        some held := by
      rw [recorded_get, if_neg fun heq => hother heq.symm]
      exact hheld
    have hcount := hroom hother
    rw [after_concat, apply_attempt] at hcount ⊢
    rw [hrecorded]
    refine evict_spares (recorded_length_le after_length) hrecorded ?_ ?_
    · unfold stored at hstored
      rw [hheld] at hstored
      rw [hprotect]
      exact hstored
    · unfold holders at hcount
      rw [List.length_map] at hcount
      refine lt_of_eq_of_lt ?_ hcount
      congr 1
      refine List.filter_congr fun entry _ => ?_
      unfold unprotected
      rw [hprotect, ← decide_not]
      simp only [not_lt]

/-- When a key has been refused, what is stored of it is kept of its whole log. -/
theorem keptFrom_refused (hlimit : 0 < options.limit)
    (hclock : Timely (operations ++ [Operation.attempt key at_]))
    (hrefused : allows options operations key at_ = false) :
    KeptFrom options (operations ++ [Operation.attempt key at_]) key
      (log key (operations ++ [Operation.attempt key at_])) := by
  obtain ⟨old, tail, hlog, hkept⟩ : ∃ old tail, log key operations = old ++ tail ∧
      KeptFrom options operations key tail := exists_keptFrom hlimit (timely_left hclock)
  have hsub : (old ++ tail).Sublist (times operations) := by
    rw [← hlog]
    exact log_sublist
  have hstored : options.limit ≤
      (recent (at_ - options.windowMs) (stored (after options operations) key)).length := by
    unfold allows at hrefused
    rw [← Bool.not_eq_true, record_snd, not_lt] at hrefused
    exact hrefused
  obtain ⟨held, hheld⟩ := exists_held hlimit hstored
  have hnext : KeptFrom options (operations ++ [Operation.attempt key at_]) key
      (if key = key then tail ++ [at_] else tail) :=
    hkept.attempt hlimit hclock ((List.sublist_append_right old tail).trans hsub)
      (after_own hheld)
  rw [if_pos rfl] at hnext
  rw [log_attempt, if_pos rfl, hlog, List.append_assoc]
  intro cutoff hcutoff
  have hwhole : ∀ time ∈ times (operations ++ [Operation.attempt key at_]),
      time - options.windowMs ≤ at_ - options.windowMs := by
    intro time htime
    rw [times_append] at htime
    rcases List.mem_append.mp htime with hold | hnew
    · exact hclock.cut time hold
    · rw [List.mem_singleton.mp hnew]
  have hlogged : (old ++ (tail ++ [at_])).Pairwise (· ≤ ·) := by
    unfold Timely at hclock
    rw [times_append] at hclock
    rw [← List.append_assoc]
    exact hclock.sublist (hsub.append (List.Sublist.refl _))
  have hfull : options.limit ≤ (recent (at_ - options.windowMs) (tail ++ [at_])).length := by
    have htail := (hkept (at_ - options.windowMs) hclock.cut).full_iff.mp hstored
    rw [recent_append, List.length_append]
    omega
  refine ((hnext (at_ - options.windowMs) hwhole).extend hlogged hfull).later (hcutoff at_ ?_)
  rw [times_append]
  exact List.mem_append_right _ (List.mem_singleton_self _)

/-- As long as the window of a key that was refused is full at each of its attempts, the log of the
key is kept. -/
theorem keptFrom_since {first between : List Operation} {refusedAt last : Int}
    (hprotect : options.protectAfter = options.limit) (hlimit : 0 < options.limit)
    (hclock : Timely (first ++ [Operation.attempt key refusedAt] ++ between ++
      [Operation.attempt key last]))
    (hrefused : allows options first key refusedAt = false)
    (hreset : Operation.reset key ∉ between)
    (hroom : ∀ mid other at_, mid ++ [Operation.attempt other at_] <+: between →
      (holders options key at_ (after options
        (first ++ [Operation.attempt key refusedAt] ++ mid ++
          [Operation.attempt other at_]))).length <
          options.maxKeys)
    (hfull : ∀ mid at_,
      mid ++ [Operation.attempt key at_] <+: between ++ [Operation.attempt key last] →
      options.limit ≤ (recent (at_ - options.windowMs)
        (log key (first ++ [Operation.attempt key refusedAt] ++ mid))).length)
    {mid : List Operation} (hmid : mid <+: between) :
    KeptFrom options (first ++ [Operation.attempt key refusedAt] ++ mid) key
      (log key (first ++ [Operation.attempt key refusedAt] ++ mid)) := by
  induction mid using List.reverseRecOn with
  | nil =>
    rw [List.append_nil]
    exact keptFrom_refused hlimit (timely_left (timely_left hclock)) hrefused
  | append_singleton mid operation ih =>
    have hkept := ih ((List.prefix_append mid _).trans hmid)
    obtain ⟨rest, hrest⟩ := hmid
    rw [← hrest] at hclock hreset
    rw [← List.append_assoc]
    cases operation with
    | attempt other at_ =>
      have hnow : Timely (first ++ [Operation.attempt key refusedAt] ++ mid ++
          [Operation.attempt other at_]) := by
        have hsplit : first ++ [Operation.attempt key refusedAt] ++
            (mid ++ [Operation.attempt other at_] ++ rest) ++ [Operation.attempt key last] =
              first ++ [Operation.attempt key refusedAt] ++ mid ++ [Operation.attempt other at_] ++
                (rest ++ [Operation.attempt key last]) := by
          simp only [List.append_assoc]
        rw [hsplit] at hclock
        exact timely_left hclock
      have hwindow : options.limit ≤ (recent (at_ - options.windowMs)
          (log key (first ++ [Operation.attempt key refusedAt] ++ mid))).length := by
        by_cases hother : other = key
        · rw [hother] at hrest
          exact hfull mid at_
            ⟨rest ++ [Operation.attempt key last], by rw [← List.append_assoc, hrest]⟩
        · -- The window is full at the next attempt on the key, and so it is now.
          obtain ⟨quiet, next, later, hnext, hquiet⟩ :
              ∃ quiet at_ later,
                rest ++ [Operation.attempt key last] = quiet ++ Operation.attempt key at_ :: later ∧
                ∀ operations, log key (operations ++ quiet) = log key operations :=
            exists_next_attempt fun hmem => hreset (List.mem_append_right _ hmem)
          have hthen := hfull (mid ++ [Operation.attempt other at_] ++ quiet) next
            ⟨later, by simp [← hrest, hnext]⟩
          rw [← List.append_assoc, hquiet, ← List.append_assoc, log_attempt, if_neg hother] at hthen
          have hle : at_ ≤ next := by
            have hsplit : first ++ [Operation.attempt key refusedAt] ++
                (mid ++ [Operation.attempt other at_] ++ rest) ++ [Operation.attempt key last] =
                  first ++ [Operation.attempt key refusedAt] ++ mid ++
                    [Operation.attempt other at_] ++ quiet ++
                    [Operation.attempt key next] ++ later := by
              simp [hnext]
            rw [hsplit] at hclock
            refine (timely_left hclock).le at_ ?_
            simp [times]
          exact hthen.trans (length_recent_mono (Int.sub_le_sub_right hle _))
      rw [log_attempt]
      refine hkept.attempt hlimit hnow log_sublist (hkept.spared hprotect hlimit hnow hwindow ?_)
      exact fun _ => hroom mid other at_ ⟨rest, hrest⟩
    | reset other =>
      rw [log_reset, if_neg]
      · have hnext : KeptFrom options
            (first ++ [Operation.attempt key refusedAt] ++ mid ++ [Operation.reset other]) key
            (if other = key then [] else _) := hkept.reset
        rw [if_neg] at hnext
        · exact hnext
        · rintro rfl
          exact hreset (by simp)
      · rintro rfl
        exact hreset (by simp)

/-- A key is blocked, comes back after a quiet window, and is evicted between its attempts by keys
that hold one attempt each. -/
def floodedRun : List Operation :=
  [.attempt "ada" 60000, .attempt "eve" 60000, .attempt "ada" 60001,
    .attempt "mallory" 60001]

theorem flood_holders (mid : List Operation) (other : String) (at_ : Int)
    (h : mid ++ [Operation.attempt other at_] <+: floodedRun) :
    (holders (twoAMinute 1) "ada" at_ (after (twoAMinute 1)
      (adaTwice ++ [Operation.attempt "ada" 0] ++ mid ++
        [Operation.attempt other at_]))).length < 1 := by
  have hall : ∀ run ∈ floodedRun.inits, ∀ operation ∈ run.getLast?,
      ∀ time ∈ times [operation], (holders (twoAMinute 1) "ada" time (after (twoAMinute 1)
        (adaTwice ++ [Operation.attempt "ada" 0] ++ run))).length < 1 := by decide
  rw [List.append_assoc _ mid]
  exact hall _ ((List.mem_inits _ _).mpr h) (.attempt other at_) (by simp) at_ (by simp [times])

def othersBetween : List Operation := [.attempt "eve" 1, .attempt "mallory" 2]

end Log

/-! ## Several dimensions in one call -/

section Calls

inductive Call where
  | attemptAll (keys : List (Option String × Int))
  | resetAll (keys : List (Option String))

def Call.operations : Call → List Operation
  | .attemptAll keys => (keys.filterMap fun (key, at_) =>
      (key.filter fun text => text != "").map fun text => (text, at_)).map fun (key, at_) =>
        .attempt key at_
  | .resetAll keys => (keys.filterMap fun key => key.filter fun text => text != "").map .reset

def afterCalls (options : ThrottleOptions) (calls : List Call) : Hits :=
  calls.foldl (fun hits call => match call with
    | .attemptAll keys => (attemptAll options hits keys).1
    | .resetAll keys => resetAll hits keys) .empty

/-- Every key is recorded, whatever an earlier one answered. -/
theorem foldl_record (hits : Hits) (keys : List (String × Int)) (allowed : Bool) :
    let result := keys.foldl (fun (held, allowed) (key, at_) =>
      let (next, fresh) := record options held key at_
      (next, fresh && allowed)) (hits, allowed)
    let operations := keys.map fun (key, at_) => Operation.attempt key at_
    result.1 = operations.foldl (apply options) hits ∧
      (result.2 = true ↔ allowed = true ∧ ∀ before key at_ behind,
        operations = before ++ .attempt key at_ :: behind →
          (record options (before.foldl (apply options) hits) key at_).2 = true) := by
  induction keys generalizing hits allowed with
  | nil => simp
  | cons first rest ih =>
    obtain ⟨hmap, hverdict⟩ := ih (record options hits first.1 first.2).1
      ((record options hits first.1 first.2).2 && allowed)
    refine ⟨hmap, hverdict.trans ?_⟩
    rw [Bool.and_eq_true]
    constructor
    · rintro ⟨⟨hfirst, hallowed⟩, hrest⟩
      refine ⟨hallowed, ?_⟩
      rintro (_ | ⟨operation, before⟩) key at_ behind heq
      · obtain ⟨rfl, rfl⟩ := Operation.attempt.inj (List.cons.inj heq).1
        exact hfirst
      · obtain ⟨rfl, htail⟩ := List.cons.inj heq
        exact hrest before key at_ behind htail
    · rintro ⟨hallowed, hall⟩
      refine ⟨⟨hall [] _ _ _ rfl, hallowed⟩, ?_⟩
      intro before key at_ behind heq
      exact hall (_ :: before) key at_ behind (congrArg _ heq)

theorem stored_le {operations : List Operation} :
    (stored (after options operations) key).length ≤ max options.limit 1 := by
  induction operations using List.reverseRecOn with
  | nil => exact Nat.zero_le _
  | append_singleton rest operation ih =>
    rw [after_concat]
    cases operation with
    | attempt other at_ =>
      rw [apply_attempt]
      rcases (evict_get : (evict options at_ (recorded options (after options rest) other at_)).get
          key = _ ∨ _) with hsame | hgone
      · unfold stored
        rw [hsame, recorded_get]
        split
        · rename_i heq
          subst heq
          have hrecent : (recent (at_ - options.windowMs) (stored (after options rest) key)).length ≤
              (stored (after options rest) key).length := List.length_filter_le _ _
          rw [Option.getD_some]
          unfold push
          dsimp only
          split
          · rw [List.length_append, List.length_tail, List.length_singleton]
            omega
          · rw [List.length_append, List.length_singleton]
            omega
        · exact ih
      · unfold stored
        rw [hgone]
        exact Nat.zero_le _
    | reset other =>
      unfold stored
      rw [apply_reset, Js.Map.get_delete]
      split
      · exact Nat.zero_le _
      · exact ih

theorem afterCalls_eq (calls : List Call) :
    afterCalls options calls = after options (calls.flatMap Call.operations) := by
  induction calls using List.reverseRecOn with
  | nil => rfl
  | append_singleton rest call ih =>
    unfold afterCalls at ih ⊢
    rw [List.foldl_append, List.flatMap_append, after_append, ih, List.flatMap_singleton]
    cases call with
    | attemptAll keys => exact (foldl_record _ _ true).1
    | resetAll keys =>
      unfold Call.operations
      rw [List.foldl_map]
      rfl

/-- Over any run of calls, each with any keys: a call spends every one of its keys, whatever the
others answer, and passes where each of them passes in its turn; and the limiter holds no more than
`maxKeys` keys and for none of them more times than `limit`, or one. -/
theorem calls_spend_all_keys (options : ThrottleOptions) (calls : List Call) :
    afterCalls options calls = after options (calls.flatMap Call.operations) ∧
    (∀ keys, (attemptAll options (afterCalls options calls) keys).2 = true ↔
      ∀ before key at_ behind,
        (Call.attemptAll keys).operations = before ++ .attempt key at_ :: behind →
          allows options (calls.flatMap Call.operations ++ before) key at_ = true) ∧
    (afterCalls options calls).entries.length ≤ options.maxKeys ∧
    ∀ entry ∈ (afterCalls options calls).entries, entry.2.length ≤ max options.limit 1 := by
  rw [afterCalls_eq]
  refine ⟨rfl, fun keys => ?_, after_length, fun entry hentry => ?_⟩
  · unfold allows
    simp only [after_append]
    exact (foldl_record _ _ true).2.trans (and_iff_right rfl)
  · have hstored : stored (after options (calls.flatMap Call.operations)) entry.1 = entry.2 := by
      unfold stored
      rw [Js.Map.get_of_mem hentry]
      rfl
    rw [← hstored]
    exact stored_le

end Calls

end Auth.Throttle
