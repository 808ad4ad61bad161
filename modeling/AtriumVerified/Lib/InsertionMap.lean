import Mathlib.Data.List.Basic
import Mathlib.Data.List.Nodup

/-!
# Maps that keep the order of insertion

The `Map` of JavaScript: a key is held once, writing a key that is there keeps its place, and a new
key goes to the end. Iteration follows that order.
-/

namespace Js

/-- A map, in the order in which its keys came in. -/
structure Map (κ α : Type) where
  entries : List (κ × α)
  /-- No key is held twice. -/
  nodup : (entries.map Prod.fst).Nodup

namespace Map

variable {κ α : Type} [DecidableEq κ]

/-- `new Map()`. -/
def empty : Map κ α := ⟨[], List.nodup_nil⟩

/-- `map.get(key)`. -/
def get (m : Map κ α) (key : κ) : Option α :=
  (m.entries.find? fun entry => entry.1 == key).map Prod.snd

def keys (m : Map κ α) : List κ := m.entries.map Prod.fst

/-- Write `value` where `key` stands. -/
def overwrite (key : κ) (value : α) (entry : κ × α) : κ × α :=
  if entry.1 = key then (key, value) else entry

theorem overwrite_fst (key : κ) (value : α) (entry : κ × α) :
    (overwrite key value entry).1 = entry.1 := by
  unfold overwrite
  split
  · rename_i h
    exact h.symm
  · rfl

/-- `map.set(key, value)`. -/
def set (m : Map κ α) (key : κ) (value : α) : Map κ α :=
  if h : key ∈ m.keys then
    ⟨m.entries.map (overwrite key value), by
      have hkeys : (m.entries.map (overwrite key value)).map Prod.fst = m.keys := by
        rw [List.map_map]
        exact List.map_congr_left fun entry _ => overwrite_fst key value entry
      rw [hkeys]
      exact m.nodup⟩
  else
    ⟨m.entries ++ [(key, value)], by
      rw [List.map_append]
      exact List.nodup_append.mpr ⟨m.nodup, List.nodup_singleton _, fun held hheld other hother => by
        rintro rfl
        rw [List.mem_singleton.mp hother] at hheld
        exact h hheld⟩⟩

/-- `map.delete(key)`. -/
def delete (m : Map κ α) (key : κ) : Map κ α :=
  ⟨m.entries.filter fun entry => entry.1 != key, m.nodup.sublist (List.filter_sublist.map _)⟩

def mapValues (m : Map κ α) (f : κ → α → α) : Map κ α :=
  ⟨m.entries.map fun entry => (entry.1, f entry.1 entry.2), by
    rw [List.map_map]
    exact m.nodup⟩

@[simp] theorem get_empty (key : κ) : (empty : Map κ α).get key = none := rfl

theorem find?_overwrite (entries : List (κ × α)) (key other : κ) (value : α) :
    ((entries.map (overwrite key value)).find? fun entry => entry.1 == other) =
      (entries.find? fun entry => entry.1 == other).map (overwrite key value) := by
  rw [List.find?_map]
  congr 2
  funext entry
  rw [Function.comp_apply, overwrite_fst]

theorem get_eq_none {m : Map κ α} {key : κ} : m.get key = none ↔ key ∉ m.keys := by
  unfold get keys
  rw [Option.map_eq_none_iff, List.find?_eq_none]
  constructor
  · intro h hmem
    obtain ⟨entry, hentry, rfl⟩ := List.mem_map.mp hmem
    exact h entry hentry (beq_self_eq_true _)
  · intro h entry hentry hkey
    exact h (List.mem_map.mpr ⟨entry, hentry, eq_of_beq hkey⟩)

theorem mem_of_get {m : Map κ α} {key : κ} {value : α} (h : m.get key = some value) :
    (key, value) ∈ m.entries := by
  unfold get at h
  rw [Option.map_eq_some_iff] at h
  obtain ⟨⟨held, found⟩, hfind, rfl⟩ := h
  have hkey : held = key := by simpa using List.find?_some hfind
  rw [← hkey]
  exact List.mem_of_find?_eq_some hfind

/-- Deleting a key that is there leaves fewer entries. -/
theorem length_delete_lt {m : Map κ α} {key : κ} {value : α} (h : m.get key = some value) :
    (m.delete key).entries.length < m.entries.length := by
  refine List.length_filter_lt_length_iff_exists.mpr ⟨(key, value), mem_of_get h, ?_⟩
  simp

theorem get_of_mem {m : Map κ α} {entry : κ × α} (h : entry ∈ m.entries) :
    m.get entry.1 = some entry.2 := by
  obtain ⟨value, hvalue⟩ : ∃ value, m.get entry.1 = some value := by
    rw [← Option.ne_none_iff_exists']
    intro hnone
    exact get_eq_none.mp hnone (List.mem_map_of_mem h)
  have hsame := List.inj_on_of_nodup_map m.nodup (mem_of_get hvalue) h rfl
  rw [hvalue, ← hsame]

/-- Deleting a key that is there leaves one entry fewer. -/
theorem length_delete {m : Map κ α} {key : κ} {value : α} (h : m.get key = some value) :
    (m.delete key).entries.length + 1 = m.entries.length := by
  have hmem : key ∈ m.entries.map Prod.fst := List.mem_map_of_mem (mem_of_get h)
  have herase : (m.delete key).entries.map Prod.fst = (m.entries.map Prod.fst).erase key := by
    rw [m.nodup.erase_eq_filter, List.filter_map]
    rfl
  have hlength := List.length_erase_of_mem hmem
  rw [← herase, List.length_map, List.length_map] at hlength
  have hpos := List.length_pos_of_mem hmem
  rw [List.length_map] at hpos
  omega

/-- A key that is new goes to the end. -/
theorem entries_set {m : Map κ α} {key : κ} (h : m.get key = none) (value : α) :
    (m.set key value).entries = m.entries ++ [(key, value)] := by
  unfold set
  rw [dif_neg (get_eq_none.mp h)]

theorem delete_of_none {m : Map κ α} {key : κ} (h : m.get key = none) :
    (m.delete key).entries = m.entries := by
  rw [get_eq_none] at h
  unfold delete
  rw [List.filter_eq_self]
  intro entry hentry
  rw [bne_iff_ne]
  rintro rfl
  exact h (List.mem_map_of_mem hentry)

theorem get_set (m : Map κ α) (key : κ) (value : α) (other : κ) :
    (m.set key value).get other = if other = key then some value else m.get other := by
  by_cases hheld : key ∈ m.keys
  · have hset : (m.set key value).entries = m.entries.map (overwrite key value) := by
      unfold set
      rw [dif_pos hheld]
    unfold get
    rw [hset, find?_overwrite]
    cases hfind : m.entries.find? fun entry => entry.1 == other with
    | none =>
      have hother : other ∉ m.keys := by
        rw [← get_eq_none]
        unfold get
        rw [hfind]
        rfl
      rw [if_neg]
      · rfl
      · rintro rfl
        exact hother hheld
    | some entry =>
      have hentry : entry.1 = other := by simpa using List.find?_some hfind
      unfold overwrite
      by_cases hother : other = key
      · simp [hentry, hother]
      · simp [hentry, hother]
  · have hset : (m.set key value).entries = m.entries ++ [(key, value)] := by
      unfold set
      rw [dif_neg hheld]
    unfold get
    rw [hset, List.find?_append]
    cases hfind : m.entries.find? fun entry => entry.1 == other with
    | none =>
      by_cases hother : other = key
      · simp [hother]
      · simp [hother, Ne.symm hother]
    | some entry =>
      have hentry : entry.1 = other := by simpa using List.find?_some hfind
      rw [if_neg]
      · rfl
      · intro hother
        refine hheld ?_
        rw [← hother, ← hentry]
        exact List.mem_map_of_mem (List.mem_of_find?_eq_some hfind)

theorem get_delete (m : Map κ α) (key other : κ) :
    (m.delete key).get other = if other = key then none else m.get other := by
  unfold get delete
  rw [List.find?_filter]
  by_cases h : other = key
  · rw [if_pos h, Option.map_eq_none_iff, List.find?_eq_none]
    intro entry _ hboth
    simp only [bne_iff_ne, beq_iff_eq, decide_eq_true_eq] at hboth
    exact hboth.1 (hboth.2.trans h)
  · rw [if_neg h]
    congr 2
    funext entry
    by_cases hentry : entry.1 = other
    · simp [hentry, h]
    · simp [hentry]

theorem get_mapValues (m : Map κ α) (f : κ → α → α) (key : κ) :
    (m.mapValues f).get key = (m.get key).map (f key) := by
  unfold get mapValues
  rw [List.find?_map]
  cases hfind : m.entries.find? fun entry => entry.1 == key with
  | none =>
    have hsame : (m.entries.find? ((fun entry : κ × α => entry.1 == key) ∘
        fun entry => (entry.1, f entry.1 entry.2))) = none := hfind
    rw [hsame]
    rfl
  | some entry =>
    have hentry : entry.1 = key := by simpa using List.find?_some hfind
    have hsame : (m.entries.find? ((fun entry : κ × α => entry.1 == key) ∘
        fun entry => (entry.1, f entry.1 entry.2))) = some entry := hfind
    rw [hsame, ← hentry]
    rfl

end Map

end Js
