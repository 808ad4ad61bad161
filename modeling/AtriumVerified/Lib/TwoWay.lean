import AtriumVerified.Lib.InsertionMap

/-!
# Relations that are held from both sides

A map from keys to sets in which no set is empty, and a relation that two such maps hold, one from either
side, so that everything about a value can be taken out without a search.
-/

namespace Js

namespace Map

variable {κ α : Type} [DecidableEq κ] [DecidableEq α] {m : Map κ (List α)} {key other : κ}
  {value found : α}

def setOf (m : Map κ (List α)) (key : κ) : List α := (m.get key).getD []

/-- Add to the set of a key, which is made when there is none. -/
def addTo (m : Map κ (List α)) (key : κ) (value : α) : Map κ (List α) :=
  m.set key (if value ∈ m.setOf key then m.setOf key else m.setOf key ++ [value])

/-- Take from the set of a key, which is deleted when nothing is left in it. -/
def takeFrom (m : Map κ (List α)) (key : κ) (value : α) : Map κ (List α) :=
  match m.get key with
  | none => m
  | some held =>
    let rest := held.filter fun other => other != value
    if rest = [] then m.delete key else m.set key rest

def Tight (m : Map κ (List α)) : Prop := ∀ key, m.get key ≠ some []

theorem mem_setOf_addTo :
    found ∈ (m.addTo key value).setOf other ↔
      found ∈ m.setOf other ∨ other = key ∧ found = value := by
  unfold addTo setOf
  rw [get_set]
  by_cases heq : other = key
  · rw [if_pos heq, heq, Option.getD_some]
    split
    · next hheld =>
      constructor
      · exact Or.inl
      · rintro (hfound | ⟨-, rfl⟩)
        · exact hfound
        · exact hheld
    · rw [List.mem_append, List.mem_singleton]
      exact or_congr_right ⟨fun h => ⟨rfl, h⟩, And.right⟩
  · rw [if_neg heq]
    exact ⟨Or.inl, Or.rec id fun h => absurd h.1 heq⟩

theorem mem_setOf_takeFrom :
    found ∈ (m.takeFrom key value).setOf other ↔
      found ∈ m.setOf other ∧ ¬ (other = key ∧ found = value) := by
  unfold takeFrom setOf
  cases hheld : m.get key with
  | none =>
    refine ⟨fun hfound => ⟨hfound, ?_⟩, And.left⟩
    rintro ⟨rfl, -⟩
    rw [hheld] at hfound
    cases hfound
  | some held =>
    dsimp only
    have hrest : found ∈ held.filter (fun other => other != value) ↔ found ∈ held ∧ found ≠ value := by
      rw [List.mem_filter, bne_iff_ne]
    by_cases heq : other = key
    · rw [heq, hheld, Option.getD_some]
      have hgoal : found ∈ held.filter (fun other => other != value) ↔
          found ∈ held ∧ ¬ (key = key ∧ found = value) := by
        rw [hrest]
        exact and_congr_right' (not_congr ⟨fun h => ⟨rfl, h⟩, And.right⟩)
      rw [← hgoal]
      split
      · next hempty =>
        rw [get_delete, if_pos rfl, hempty]
        exact Iff.rfl
      · rw [get_set, if_pos rfl]
        exact Iff.rfl
    · have hkept : found ∈ (m.get other).getD [] ↔
          found ∈ (m.get other).getD [] ∧ ¬ (other = key ∧ found = value) :=
        ⟨fun h => ⟨h, fun hboth => heq hboth.1⟩, And.left⟩
      split
      · rw [get_delete, if_neg heq]
        exact hkept
      · rw [get_set, if_neg heq]
        exact hkept

omit [DecidableEq α] in
theorem tight_empty : (empty : Map κ (List α)).Tight := by
  rintro key ⟨⟩

theorem Tight.addTo (h : m.Tight) (key : κ) (value : α) : (m.addTo key value).Tight := by
  intro other
  unfold Map.addTo
  rw [get_set]
  split
  · split
    · next hheld =>
      intro hempty
      rw [Option.some.inj hempty] at hheld
      cases hheld
    · simp
  · exact h other

theorem Tight.takeFrom (h : m.Tight) (key : κ) (value : α) : (m.takeFrom key value).Tight := by
  intro other
  unfold Map.takeFrom
  cases hheld : m.get key with
  | none => exact h other
  | some held =>
    dsimp only
    split
    · rw [get_delete]
      split
      · rintro ⟨⟩
      · exact h other
    · next hrest =>
      rw [get_set]
      split
      · exact fun hempty => hrest (Option.some.inj hempty)
      · exact h other

omit [DecidableEq α] in
theorem Tight.delete (h : m.Tight) (key : κ) : (m.delete key).Tight := by
  intro other
  rw [get_delete]
  split
  · rintro ⟨⟩
  · exact h other

end Map

structure TwoWay (κ α : Type) [DecidableEq κ] [DecidableEq α] where
  forward : Map κ (List α)
  backward : Map α (List κ)
  agrees : ∀ key value, value ∈ forward.setOf key ↔ key ∈ backward.setOf value
  tightForward : forward.Tight
  tightBackward : backward.Tight

namespace TwoWay

variable {κ α : Type} [DecidableEq κ] [DecidableEq α]

def empty : TwoWay κ α where
  forward := Map.empty
  backward := Map.empty
  agrees _ _ := by
    constructor
    · rintro ⟨⟩
    · rintro ⟨⟩
  tightForward := Map.tight_empty
  tightBackward := Map.tight_empty

def Links (related : TwoWay κ α) (key : κ) (value : α) : Prop := value ∈ related.forward.setOf key

def link (related : TwoWay κ α) (key : κ) (value : α) : TwoWay κ α where
  forward := related.forward.addTo key value
  backward := related.backward.addTo value key
  agrees other found := by
    rw [Map.mem_setOf_addTo, Map.mem_setOf_addTo, related.agrees]
    exact or_congr_right And.comm
  tightForward := related.tightForward.addTo key value
  tightBackward := related.tightBackward.addTo value key

def unlink (related : TwoWay κ α) (key : κ) (value : α) : TwoWay κ α where
  forward := related.forward.takeFrom key value
  backward := related.backward.takeFrom value key
  agrees other found := by
    rw [Map.mem_setOf_takeFrom, Map.mem_setOf_takeFrom, related.agrees]
    exact and_congr_right' (not_congr And.comm)
  tightForward := related.tightForward.takeFrom key value
  tightBackward := related.tightBackward.takeFrom value key

theorem links_empty (key : κ) (value : α) : ¬ (empty : TwoWay κ α).Links key value := by
  rintro ⟨⟩

theorem links_link {related : TwoWay κ α} {key other : κ} {value found : α} :
    (related.link key value).Links other found ↔
      related.Links other found ∨ other = key ∧ found = value := Map.mem_setOf_addTo

theorem links_unlink {related : TwoWay κ α} {key other : κ} {value found : α} :
    (related.unlink key value).Links other found ↔
      related.Links other found ∧ ¬ (other = key ∧ found = value) := Map.mem_setOf_takeFrom

def unlinkEach (related : TwoWay κ α) (keys : List κ) (value : α) : TwoWay κ α :=
  keys.foldl (fun related key => related.unlink key value) related

theorem links_unlinkEach {related : TwoWay κ α} {keys : List κ} {value : α} {other : κ} {found : α} :
    (related.unlinkEach keys value).Links other found ↔
      related.Links other found ∧ ¬ (other ∈ keys ∧ found = value) := by
  unfold unlinkEach
  induction keys generalizing related with
  | nil => exact ⟨fun h => ⟨h, fun hnone => by cases hnone.1⟩, And.left⟩
  | cons key keys ih =>
    rw [List.foldl_cons, ih, links_unlink, List.mem_cons, and_assoc, ← not_or, or_and_right]

def unlinkAll (related : TwoWay κ α) (value : α) : TwoWay κ α where
  forward := (related.unlinkEach (related.backward.setOf value) value).forward
  backward := (related.unlinkEach (related.backward.setOf value) value).backward.delete value
  agrees key found := by
    rw [(related.unlinkEach (related.backward.setOf value) value).agrees]
    unfold Map.setOf
    rw [Map.get_delete]
    by_cases heq : found = value
    · rw [if_pos heq, heq]
      refine ⟨fun hmem => ?_, fun hnone => by cases hnone⟩
      have hlinks : (related.unlinkEach (related.backward.setOf value) value).Links key value :=
        ((related.unlinkEach (related.backward.setOf value) value).agrees key value).mpr hmem
      obtain ⟨hheld, hnot⟩ := links_unlinkEach.mp hlinks
      exact absurd ⟨(related.agrees key value).mp hheld, rfl⟩ hnot
    · rw [if_neg heq]
  tightForward := (related.unlinkEach (related.backward.setOf value) value).tightForward
  tightBackward := (related.unlinkEach (related.backward.setOf value) value).tightBackward.delete value

theorem links_unlinkAll {related : TwoWay κ α} {value : α} {key : κ} {found : α} :
    (related.unlinkAll value).Links key found ↔ related.Links key found ∧ found ≠ value := by
  have heach : (related.unlinkAll value).Links key found ↔
      (related.unlinkEach (related.backward.setOf value) value).Links key found := Iff.rfl
  rw [heach, links_unlinkEach]
  refine and_congr_right fun hheld => ⟨fun hnot heq => hnot ⟨?_, heq⟩, fun hne hboth => hne hboth.2⟩
  rw [← heq]
  exact (related.agrees key found).mp hheld

end TwoWay

end Js
