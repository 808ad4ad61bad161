import AtriumVerified.Lib.ExceptBind
import AtriumVerified.Lib.SchemaObjects

/-!
# Rules for schemas

What a schema returns without an issue: of a text the text, of an array its items one by one, of an
object what its shape makes of the fields.
-/

namespace Schema

open Js

/-! ## Texts -/

theorem string_eq_ok_iff {checks : List (String → Option String)} {text read : String} :
    Schema.string checks (some (.string text)) = .ok read ↔
      (∀ check ∈ checks, check text = none) ∧ read = text := by
  rw [← List.filterMap_eq_nil_iff, Schema.string]
  split
  · rename_i heq
    simp [heq, eq_comm]
  · rename_i hne
    constructor
    · intro h
      cases h
    · rintro ⟨hnil, -⟩
      exact absurd hnil (hne ·)

theorem utf16Length_eq_zero_iff {text : String} : utf16Length text = 0 ↔ text = "" := by
  constructor
  · intro h
    have hnil : utf16 text = utf16 "" := List.length_eq_zero_iff.mp h
    exact utf16_inj.mp hnil
  · rintro rfl
    rfl

theorem plain_eq_ok_iff {text read : String} :
    Schema.string [] (some (.string text)) = .ok read ↔ read = text := by
  rw [string_eq_ok_iff]
  simp

/-! ## Optional values and arrays -/

section Readers

variable {α : Type} {schema : Schema.Reader α}

theorem optional_none_eq_ok_iff {read : Option α} :
    Schema.optional schema none = .ok read ↔ read = none := by
  rw [Schema.optional]
  simp [eq_comm]

theorem optional_some_eq_ok_iff {json : Json} {read : Option α} :
    Schema.optional schema (some json) = .ok read ↔
      ∃ value, schema (some json) = .ok value ∧ read = some value := by
  have hmap : Schema.optional schema (some json) = (schema (some json)).map some := rfl
  rw [hmap]
  cases schema (some json) with
  | error issues => simp [Except.map]
  | ok value => simp [Except.map, eq_comm]

theorem optional_text_eq_ok_iff {schema : Schema.Reader String} {P : String → Prop}
    (hschema : ∀ {text read}, schema (some (.string text)) = .ok read ↔ P text ∧ read = text)
    {text read : Option String} :
    Schema.optional schema (text.map Json.string) = .ok read ↔
      (∀ held, text = some held → P held) ∧ read = text := by
  cases text with
  | none =>
    rw [Option.map_none, optional_none_eq_ok_iff]
    simp
  | some text =>
    rw [Option.map_some, optional_some_eq_ok_iff]
    constructor
    · rintro ⟨value, hvalue, rfl⟩
      obtain ⟨htext, rfl⟩ := hschema.mp hvalue
      refine ⟨?_, rfl⟩
      rintro held ⟨⟩
      exact htext
    · rintro ⟨htext, rfl⟩
      exact ⟨text, hschema.mpr ⟨htext text rfl, rfl⟩, rfl⟩

theorem items_eq_ok_iff {index : Nat} {values : List Json} {read : List α} :
    Schema.items schema index values = .ok read ↔
      List.Forall₂ (fun json value => schema (some json) = .ok value) values read := by
  induction values generalizing index read with
  | nil =>
    rw [Schema.items, List.forall₂_nil_left_iff]
    simp [eq_comm]
  | cons json values ih =>
    rw [Schema.items, Schema.both_eq_ok, List.forall₂_cons_left_iff]
    have hitem (value : α) :
        (schema (some json)).mapError (Schema.under (toString index)) = .ok value ↔
          schema (some json) = .ok value := by
      cases schema (some json) with
      | error issues => simp [Except.mapError]
      | ok other => simp [Except.mapError]
    simp only [hitem, ih]
    constructor
    · rintro ⟨value, rest, hvalue, hrest, rfl⟩
      exact ⟨value, rest, hvalue, hrest, rfl⟩
    · rintro ⟨value, rest, hvalue, hrest, rfl⟩
      exact ⟨value, rest, hvalue, hrest, rfl⟩

theorem array_eq_ok_iff {values : List Json} {read : List α} :
    Schema.array schema (some (.array values)) = .ok read ↔
      List.Forall₂ (fun json value => schema (some json) = .ok value) values read :=
  items_eq_ok_iff

theorem maxItems_eq_ok_iff {n : Nat} {schema : Schema.Reader (List α)} {value : Option Json}
    {read : List α} :
    Schema.maxItems n schema value = .ok read ↔ schema value = .ok read ∧ read.length ≤ n := by
  rw [Schema.maxItems]
  cases schema value with
  | error issues => simp
  | ok values =>
    dsimp only
    constructor
    · intro h
      split at h
      · cases h
      · rename_i hlength
        cases h
        exact ⟨rfl, Nat.not_lt.mp hlength⟩
    · rintro ⟨h, hlength⟩
      cases h
      rw [if_neg (Nat.not_lt.mpr hlength)]

theorem minItems_one_eq_ok_iff {values : List Json} {read : List α} :
    Schema.minItems 1 (Schema.array schema) (some (.array values)) = .ok read ↔
      List.Forall₂ (fun json value => schema (some json) = .ok value) values read ∧ values ≠ [] := by
  rw [Schema.minItems, Schema.array]
  cases h : Schema.items schema 0 values with
  | error issues =>
    simp only [reduceCtorEq, false_iff, not_and]
    intro hforall
    rw [items_eq_ok_iff.mpr hforall] at h
    cases h
  | ok found =>
    have hfound := items_eq_ok_iff.mp h
    dsimp only
    constructor
    · intro hread
      split at hread
      · cases hread
      · rename_i hlength
        cases hread
        refine ⟨hfound, ?_⟩
        rintro rfl
        rw [List.forall₂_nil_left_iff.mp hfound] at hlength
        exact hlength Nat.one_pos
    · rintro ⟨hread, hne⟩
      have hsame : Schema.items schema 0 values = .ok read := items_eq_ok_iff.mpr hread
      rw [h] at hsame
      cases hsame
      rw [if_neg]
      rw [← hfound.length_eq, Nat.not_lt]
      exact List.length_pos_iff.mpr hne

theorem strictObject_eq_ok_iff {keys : List String} {fields : List (String × Json)}
    {shape : List (String × Json) → Schema.Parsed α} {read : α}
    (hkeys : Schema.unrecognized keys fields = .ok ()) :
    Schema.strictObject keys shape (some (.object fields)) = .ok read ↔ shape fields = .ok read := by
  rw [Schema.strictObject, Schema.both_eq_ok, hkeys]
  simp

end Readers

/-! ## Numbers -/

theorem integer_ofInt_eq_ok_iff {n read : Int} :
    Schema.integer (some (.number (Number.ofInt n))) = .ok read ↔
      (-(2 ^ 53) < n ∧ n < 2 ^ 53) ∧ read = n := by
  have hdiv : (Number.ofInt n).mantissa / 10 ^ (Number.ofInt n).exponent = n := by
    simp [Number.ofInt]
  have hmod : (Number.ofInt n).mantissa % 10 ^ (Number.ofInt n).exponent = 0 := by
    simp [Number.ofInt]
  simp only [Schema.integer, hdiv, hmod, ne_eq, not_true_eq_false, if_false]
  by_cases h : -(2 ^ 53) < n ∧ n < 2 ^ 53
  · rw [if_pos h, Except.ok.injEq, eq_comm]
    exact (and_iff_right h).symm
  · rw [if_neg h]
    refine iff_of_false ?_ (fun hread => h hread.1)
    split <;> simp

theorem nonnegative_eq_ok_iff {schema : Schema.Reader Int} {value : Option Json} {read : Nat} :
    Schema.nonnegative schema value = .ok read ↔ schema value = .ok (read : Int) := by
  rw [Schema.nonnegative]
  cases schema value with
  | error issues => simp
  | ok n =>
    dsimp only
    constructor
    · intro h
      split at h
      · cases h
      · rename_i hn
        cases h
        rw [Int.toNat_of_nonneg (Int.not_lt.mp hn)]
    · rintro ⟨⟩
      rw [if_neg (Int.not_lt.mpr (Int.natCast_nonneg read)), Int.toNat_natCast]

/-! ## Values without issues -/

section Read

variable {α : Type}

theorem string_of_ok {checks : List (String → Option String)} {value : Option Json} {read : String}
    (h : Schema.string checks value = .ok read) : value = some (.string read) := by
  unfold Schema.string at h
  split at h
  · split at h
    · cases h
      rfl
    · cases h
  · cases h

theorem optional_of_ok {schema : Schema.Reader α} {value : Option Json} {read : α}
    (h : Schema.optional schema value = .ok (some read)) : schema value = .ok read := by
  cases value with
  | none => cases h
  | some json =>
    obtain ⟨other, hother, heq⟩ := optional_some_eq_ok_iff.mp h
    cases heq
    exact hother

theorem strictObject_of_ok {keys : List String} {shape : List (String × Json) → Schema.Parsed α}
    {value : Option Json} {read : α} (h : Schema.strictObject keys shape value = .ok read) :
    ∃ fields, shape fields = .ok read := by
  unfold Schema.strictObject at h
  split at h
  · obtain ⟨other, ⟨⟩, hshape, -, rfl⟩ := Schema.both_eq_ok.mp h
    exact ⟨_, hshape⟩
  · cases h

theorem object_of_ok {shape : List (String × Json) → Schema.Parsed α} {value : Option Json}
    {read : α} (h : Schema.object shape value = .ok read) : ∃ fields, shape fields = .ok read := by
  unfold Schema.object at h
  split at h
  · exact ⟨_, h⟩
  · cases h

theorem nullish_of_ok {schema : Schema.Reader α} {value : Option Json} {read : α}
    (h : Schema.nullish schema value = .ok (some read)) : ∃ value, schema value = .ok read := by
  unfold Schema.nullish at h
  split at h
  · cases h
  · cases h
  · cases hread : schema value with
    | error issues =>
      rw [hread] at h
      cases h
    | ok other =>
      rw [hread] at h
      cases h
      exact ⟨value, hread⟩

theorem array_of_ok {schema : Schema.Reader α} {value : Option Json} {read : List α}
    (h : Schema.array schema value = .ok read) :
    ∀ item ∈ read, ∃ json, schema (some json) = .ok item := by
  unfold Schema.array at h
  split at h
  · have hread := items_eq_ok_iff.mp h
    intro item hitem
    obtain ⟨i, hi, rfl⟩ := List.getElem_of_mem hitem
    exact ⟨_, (List.forall₂_iff_get.mp hread).2 i (by rw [hread.length_eq]; exact hi) hi⟩
  · cases h

theorem items_of_ok {schema : Schema.Reader α} {value : Option Json} {read : List α}
    (h : Schema.minItems 1 (Schema.array schema) value = .ok read) :
    read ≠ [] ∧ ∀ item ∈ read, ∃ json, schema (some json) = .ok item := by
  unfold Schema.minItems at h
  split at h
  · rename_i values hvalues
    split at h
    · cases h
    · rename_i hlength
      cases h
      refine ⟨?_, array_of_ok hvalues⟩
      rintro rfl
      exact hlength Nat.one_pos
  · cases h

end Read

end Schema
