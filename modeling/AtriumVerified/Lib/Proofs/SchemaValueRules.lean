import AtriumVerified.Lib.Proofs.SchemaRules
import AtriumVerified.Lib.SchemaValues

/-!
# Rules for schemas that return JSON values

Each of the schemas is stable when those that it is made of are: a default has to pass the schema
behind it, no two keys of a shape may be the same, and the options of a union by tag have to write
their tag.
-/

open Js

namespace JsonSchema

open Schema

variable {schema first second : JsonSchema} {value : Option Json}

/-! ## Values -/

theorem stable_of_eq (h : ∀ value out, schema value = .ok out → out = value) : Stable schema := by
  intro value out hout
  obtain rfl := h value out hout
  exact ⟨out, hout⟩

@[simp] theorem stable_string (checks : List (String → Option String)) : Stable (string checks) := by
  refine stable_of_eq fun value out h => ?_
  obtain ⟨text, htext, rfl⟩ := Except.map_eq_ok_iff.mp h
  exact (string_of_ok htext).symm

@[simp] theorem stable_literal (text : String) : Stable (literal text) := by
  refine stable_of_eq fun value out h => ?_
  unfold literal at h
  split at h
  · split at h
    · cases h
      rfl
    · cases h
  · cases h

@[simp] theorem stable_choice (texts : List String) : Stable (choice texts) := by
  refine stable_of_eq fun value out h => ?_
  obtain ⟨text, htext, rfl⟩ := Except.map_eq_ok_iff.mp h
  unfold Schema.enum at htext
  split at htext
  · rename_i held hheld
    cases htext
    split at hheld
    · rename_i other
      obtain ⟨pair, hfind, rfl⟩ := Option.map_eq_some_iff.mp hheld
      obtain ⟨known, -, rfl⟩ := List.mem_map.mp (List.mem_of_find?_eq_some hfind)
      have hsame := List.find?_some hfind
      rw [beq_iff_eq] at hsame
      exact congrArg (fun text => some (Json.string text)) hsame
    · cases hheld
  · cases htext

@[simp] theorem stable_number : Stable number := by
  refine stable_of_eq fun value out h => ?_
  unfold number at h
  split at h
  · split at h
    · cases h
    · cases h
      rfl
  · cases h

/-- A whole number is within the safe integers. -/
theorem integer_of_ok {n : Int} (h : Schema.integer value = .ok n) :
    Schema.integer (some (.number (.ofInt n))) = .ok n := by
  refine integer_ofInt_eq_ok_iff.mpr ⟨?_, rfl⟩
  unfold Schema.integer at h
  split at h
  · dsimp only at h
    split at h
    · cases h
    split at h
    · rename_i hsafe
      cases h
      exact hsafe
    split at h
    · cases h
    · cases h
  · cases h

@[simp] theorem stable_integer : Stable integer := by
  intro value out h
  obtain ⟨n, hn, rfl⟩ := Except.map_eq_ok_iff.mp h
  exact ⟨_, Except.map_eq_ok_iff.mpr ⟨n, integer_of_ok hn, rfl⟩⟩

@[simp] theorem stable_natural : Stable natural := by
  intro value out h
  obtain ⟨n, hn, rfl⟩ := Except.map_eq_ok_iff.mp h
  have hinteger := nonnegative_eq_ok_iff.mp hn
  exact ⟨_, Except.map_eq_ok_iff.mpr
    ⟨n, nonnegative_eq_ok_iff.mpr (integer_of_ok hinteger), rfl⟩⟩

@[simp] theorem stable_boolean : Stable boolean := by
  refine stable_of_eq fun value out h => ?_
  obtain ⟨held, hheld, rfl⟩ := Except.map_eq_ok_iff.mp h
  unfold Schema.boolean at hheld
  split at hheld
  · cases hheld
    rfl
  · cases hheld

@[simp] theorem stable_unknown : Stable unknown := fun _ out _ => ⟨out, rfl⟩

/-! ## Schemas of schemas -/

theorem Accepts.nullable (h : schema.Accepts value) : (nullable schema).Accepts value := by
  unfold Accepts JsonSchema.nullable
  split
  · exact ⟨_, rfl⟩
  · exact h

theorem Accepts.withDefault {fallback : Json} (h : schema.Accepts value) :
    (withDefault fallback schema).Accepts value := by
  cases value with
  | none => exact ⟨_, rfl⟩
  | some json => exact h

theorem Accepts.optional (h : schema.Accepts value) : (optional schema).Accepts value := by
  cases value with
  | none => exact ⟨_, rfl⟩
  | some json => exact h

theorem Accepts.union (h : first.Accepts value ∨ second.Accepts value) :
    (union first second).Accepts value := by
  unfold Accepts JsonSchema.union
  split
  · exact ⟨_, rfl⟩
  · rename_i hfirst
    split
    · exact ⟨_, rfl⟩
    · rename_i hsecond
      rcases h with ⟨out, hout⟩ | ⟨out, hout⟩
      · rw [hout] at hfirst
        cases hfirst
      · rw [hout] at hsecond
        cases hsecond

@[simp] theorem stable_nullable (h : Stable schema) : Stable (nullable schema) := by
  intro value out hout
  unfold nullable at hout
  split at hout
  · cases hout
    exact ⟨_, rfl⟩
  · exact (h _ _ hout).nullable

@[simp] theorem stable_withDefault {fallback : Json} (h : Stable schema)
    (hfallback : schema.Accepts (some fallback)) : Stable (withDefault fallback schema) := by
  intro value out hout
  cases value with
  | none =>
    cases hout
    exact hfallback.withDefault
  | some json => exact (h _ _ hout).withDefault

@[simp] theorem stable_optional (h : Stable schema) : Stable (optional schema) := by
  intro value out hout
  cases value with
  | none =>
    cases hout
    exact ⟨_, rfl⟩
  | some json => exact (h _ _ hout).optional

@[simp] theorem stable_union (hfirst : Stable first) (hsecond : Stable second) :
    Stable (union first second) := by
  intro value out hout
  unfold union at hout
  split at hout
  · rename_i hread
    cases hout
    exact Accepts.union (Or.inl (hfirst _ _ hread))
  split at hout
  · rename_i hread
    cases hout
    exact Accepts.union (Or.inr (hsecond _ _ hread))
  · cases hout

theorem items_accepts {index : Nat} {values : List Json}
    (h : ∀ json ∈ values, schema.Accepts (some json)) : ∃ read, items schema index values = .ok read := by
  induction values generalizing index with
  | nil => exact ⟨[], rfl⟩
  | cons json rest ih =>
    obtain ⟨⟨out, hout⟩, hrest⟩ := List.forall_mem_cons.mp h
    obtain ⟨read, hread⟩ := @ih (index + 1) hrest
    exact ⟨out :: read, both_eq_ok.mpr ⟨out, read, by rw [hout]; rfl, hread, rfl⟩⟩

@[simp] theorem stable_array (h : Stable schema) (hsome : ∀ json, schema (some json) ≠ .ok none) :
    Stable (array schema) := by
  intro value out hout
  obtain ⟨read, hread, rfl⟩ := Except.map_eq_ok_iff.mp hout
  have hitems : ∀ json ∈ read.map fun item => item.getD .null, schema.Accepts (some json) := by
    intro json hjson
    obtain ⟨item, hitem, rfl⟩ := List.mem_map.mp hjson
    obtain ⟨held, hheld⟩ := array_of_ok hread item hitem
    cases item with
    | none => exact absurd hheld (hsome held)
    | some json => exact h _ _ hheld
  obtain ⟨again, hagain⟩ := @items_accepts schema 0 _ hitems
  exact ⟨_, Except.map_eq_ok_iff.mpr ⟨again, hagain, rfl⟩⟩

/-! ## Objects -/

section Shapes

variable {fields read : List (String × Json)} {shape : List (String × JsonSchema)}

theorem readShape_keys (h : readShape fields shape = .ok read) {key : String}
    (hkey : key ∉ shape.map Prod.fst) : lookupField read key = none := by
  induction shape generalizing read with
  | nil =>
    cases h
    rfl
  | cons entry rest ih =>
    obtain ⟨other, schema⟩ := entry
    obtain ⟨out, later, -, hlater, rfl⟩ := both_eq_ok.mp h
    rw [List.map_cons, List.mem_cons, not_or] at hkey
    rw [lookupField_append, ih hlater hkey.2]
    cases out with
    | none => rfl
    | some json => simp [lookupField, Ne.symm hkey.1]

/-- A key of the shape has what its schema returned. -/
theorem readShape_lookup (hnodup : (shape.map Prod.fst).Nodup) (h : readShape fields shape = .ok read)
    {key : String} (hmem : (key, schema) ∈ shape) :
    schema (lookupField fields key) = .ok (lookupField read key) := by
  induction shape generalizing read with
  | nil => cases hmem
  | cons entry rest ih =>
    obtain ⟨other, held⟩ := entry
    obtain ⟨out, later, hout, hlater, rfl⟩ := both_eq_ok.mp h
    obtain ⟨hother, hrest⟩ := List.nodup_cons.mp hnodup
    have hread := field_eq_ok.mp hout
    rw [lookupField_append]
    rcases List.mem_cons.mp hmem with heq | hmem
    · cases heq
      rw [readShape_keys hlater hother, Option.none_or, hread]
      cases out with
      | none => rfl
      | some json => simp [lookupField]
    · have hkey : key ∈ rest.map Prod.fst := List.mem_map_of_mem hmem
      have hne : key ≠ other := by
        rintro rfl
        exact hother hkey
      have hfirst : lookupField (out.toList.map fun held => (other, held)) key = none := by
        cases out with
        | none => rfl
        | some json => simp [lookupField, hne.symm]
      rw [ih hrest hlater hmem, hfirst, Option.or_none]

theorem readShape_accepts (h : ∀ entry ∈ shape, entry.2.Accepts (lookupField fields entry.1)) :
    ∃ read, readShape fields shape = .ok read := by
  induction shape with
  | nil => exact ⟨[], rfl⟩
  | cons entry rest ih =>
    obtain ⟨⟨out, hout⟩, hrest⟩ := List.forall_mem_cons.mp h
    obtain ⟨read, hread⟩ := ih hrest
    exact ⟨_, both_eq_ok.mpr ⟨out, read, field_eq_ok.mpr hout, hread, rfl⟩⟩

structure StableShape (shape : List (String × JsonSchema)) : Prop where
  nodup : (shape.map Prod.fst).Nodup
  stable : ∀ entry ∈ shape, Stable entry.2

theorem object_eq_ok_iff {out : Option Json} : object shape value = .ok out ↔
    ∃ fields read, value = some (.object fields) ∧ readShape fields shape = .ok read ∧
      out = some (.object read) := by
  unfold object
  split
  · rw [Except.map_eq_ok_iff]
    constructor
    · rintro ⟨read, hread, rfl⟩
      exact ⟨_, read, rfl, hread, rfl⟩
    · rintro ⟨fields, read, ⟨⟩, hread, rfl⟩
      exact ⟨read, hread, rfl⟩
  · rename_i hne
    constructor
    · intro h
      cases h
    · rintro ⟨fields, read, rfl, -, -⟩
      exact absurd rfl (hne fields)

@[simp] theorem stable_object (h : StableShape shape) : Stable (object shape) := by
  intro value out hout
  obtain ⟨fields, read, -, hread, rfl⟩ := object_eq_ok_iff.mp hout
  obtain ⟨again, hagain⟩ := readShape_accepts fun entry hentry =>
    h.stable entry hentry _ _ (readShape_lookup h.nodup hread hentry)
  exact ⟨_, object_eq_ok_iff.mpr ⟨read, again, rfl, hagain, rfl⟩⟩

theorem object_ne_none (json : Json) : object shape (some json) ≠ .ok none := by
  intro h
  obtain ⟨fields, read, -, -, heq⟩ := object_eq_ok_iff.mp h
  cases heq

/-- An option writes its tag. -/
theorem object_tag {key tag : String} (hnodup : (shape.map Prod.fst).Nodup)
    (htag : (key, literal tag) ∈ shape) (hread : readShape fields shape = .ok read) :
    lookupField read key = some (.string tag) := by
  have hlookup := readShape_lookup hnodup hread htag
  unfold literal at hlookup
  split at hlookup
  · split at hlookup
    · rename_i heq
      cases heq
      exact (Except.ok.inj hlookup).symm
    · cases hlookup
  · cases hlookup

end Shapes

/-! ## Unions by tag -/

section Tags

variable {key : String} {options : List (String × JsonSchema)}

/-- The options are stable objects that write their tags. -/
def StableOptions (key : String) (options : List (String × JsonSchema)) : Prop :=
  ∀ option ∈ options, ∃ shape, option.2 = object shape ∧ StableShape shape ∧
    (key, literal option.1) ∈ shape

/-- What a union by tag returns is an object that one of its options returned. -/
theorem tagged_eq_ok_iff {out : Option Json} : tagged key options value = .ok out ↔
    ∃ fields tag option, value = some (.object fields) ∧
      lookupField fields key = some (.string tag) ∧
      (options.find? fun option => option.1 == tag) = some option ∧ option.2 value = .ok out := by
  unfold tagged
  split
  · rename_i fields
    constructor
    · intro h
      split at h
      · rename_i tag htag
        split at h
        · rename_i option hoption
          exact ⟨fields, tag, option, rfl, htag, hoption, h⟩
        · cases h
      · cases h
    · rintro ⟨other, tag, option, ⟨⟩, htag, hoption, hout⟩
      rw [htag]
      dsimp only
      rw [hoption]
      exact hout
  · rename_i hne
    constructor
    · intro h
      cases h
    · rintro ⟨fields, tag, option, rfl, -⟩
      exact absurd rfl (hne fields)

theorem tag_of_tagged (h : StableOptions key options) {out : Option Json}
    (hout : tagged key options value = .ok out) : ∃ fields read tag shape,
      value = some (.object fields) ∧ lookupField fields key = some (.string tag) ∧
      (options.find? fun option => option.1 == tag) = some (tag, object shape) ∧
      StableShape shape ∧ readShape fields shape = .ok read ∧ out = some (.object read) ∧
      lookupField read key = some (.string tag) := by
  obtain ⟨fields, tag, option, rfl, htag, hoption, hread⟩ := tagged_eq_ok_iff.mp hout
  obtain ⟨name, schema⟩ := option
  obtain ⟨shape, hshape, hstable, hliteral⟩ := h _ (List.mem_of_find?_eq_some hoption)
  obtain rfl : schema = object shape := hshape
  have hname := List.find?_some hoption
  obtain rfl : name = tag := by simpa using hname
  have hobject : object shape (some (.object fields)) = .ok out := hread
  obtain ⟨other, read, ⟨⟩, hreadShape, rfl⟩ := object_eq_ok_iff.mp hobject
  exact ⟨fields, read, name, shape, rfl, htag, hoption, hstable, hreadShape, rfl,
    object_tag hstable.nodup hliteral hreadShape⟩

@[simp] theorem stable_tagged (h : StableOptions key options) : Stable (tagged key options) := by
  intro value out hout
  obtain ⟨fields, read, tag, shape, rfl, -, hoption, hstable, hread, rfl, htag⟩ := tag_of_tagged h hout
  obtain ⟨again, hagain⟩ := stable_object hstable _ _
    (object_eq_ok_iff.mpr ⟨fields, read, rfl, hread, rfl⟩)
  exact ⟨again, tagged_eq_ok_iff.mpr ⟨read, tag, _, rfl, htag, hoption, hagain⟩⟩

end Tags

end JsonSchema
