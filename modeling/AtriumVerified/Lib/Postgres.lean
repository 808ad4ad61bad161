import Mathlib.Data.List.AList
import Mathlib.Data.List.Lex
import Mathlib.Order.WithBot
import AtriumVerified.Lib.Schema

/-!
# Tables of a relational database

The part of a Postgres database that the ledger and its projections use: conditions that may be
`NULL`, the types `uuid`, `timestamptz` and `jsonb`, and tables with a primary key, where inserting a
key twice fails and an update touches the rows its condition selects.
-/

namespace Postgres

open Js (Json)

/-! ## `uuid` -/

/-- A value of type `uuid`, as its 32 lower case digits. -/
abbrev Uuid := String

def isHexDigit (c : Char) : Bool :=
  ('0' ≤ c && c ≤ '9') || ('a' ≤ c && c ≤ 'f') || ('A' ≤ c && c ≤ 'F')

/-- The digits of the last `n` of 16 bytes and what follows them. After every second byte but the
last there may be a hyphen. -/
def uuidDigits : Nat → List Char → Option (List Char × List Char)
  | 0, rest => some ([], rest)
  | n + 1, high :: low :: rest =>
    if isHexDigit high && isHexDigit low then
      let rest := if n % 2 = 0 ∧ n ≠ 0 ∧ rest.head? = some '-' then rest.tail else rest
      (uuidDigits n rest).map fun (digits, after) =>
        (high.toLower :: low.toLower :: digits, after)
    else none
  | _, _ => none

/-- `text::uuid`: 32 hexadecimal digits with optional hyphens, in braces or not. -/
def uuid (text : String) : Option Uuid :=
  let (braced, body) := match text.toList with
    | '{' :: rest => (true, rest)
    | rest => (false, rest)
  match uuidDigits 16 body with
  | some (digits, after) =>
    if after = (if braced then ['}'] else []) then some (String.ofList digits) else none
  | none => none

/-- `uuid::text`. -/
def uuidText (value : Uuid) : String :=
  let digits := value.toList
  String.ofList ("-".toList.intercalate [digits.take 8, (digits.drop 8).take 4,
    (digits.drop 12).take 4, (digits.drop 16).take 4, digits.drop 20])

/-! ### Round trip -/

/-- A digit as `uuid` keeps it. -/
def LowerDigit (c : Char) : Prop := isHexDigit c = true ∧ c.toLower = c

theorem lowerDigit_toLower {c : Char} (h : isHexDigit c = true) : LowerDigit c.toLower := by
  have hascii : c.toNat < 128 := by
    simp only [isHexDigit, Bool.or_eq_true, Bool.and_eq_true, decide_eq_true_eq] at h
    rcases h with (h | h) | h
    · exact Nat.lt_of_le_of_lt h.2 (by decide)
    · exact Nat.lt_of_le_of_lt h.2 (by decide)
    · exact Nat.lt_of_le_of_lt h.2 (by decide)
  have hall : ∀ n : Fin 128, isHexDigit (Char.ofNat n) = true →
      isHexDigit (Char.ofNat n).toLower = true ∧
        (Char.ofNat n).toLower.toLower = (Char.ofNat n).toLower := by
    decide
  have hc := hall ⟨c.toNat, hascii⟩
  rw [Char.ofNat_toNat] at hc
  exact hc h

theorem LowerDigit.ne_hyphen {c : Char} (h : LowerDigit c) : c ≠ '-' := by
  rintro rfl
  exact absurd h.1 (by decide)

/-- What the parser returns: two lower case digits for every byte. -/
theorem uuidDigits_lower {n : Nat} {text digits after : List Char}
    (h : uuidDigits n text = some (digits, after)) :
    digits.length = 2 * n ∧ ∀ c ∈ digits, LowerDigit c := by
  induction n generalizing text digits with
  | zero =>
    cases h
    exact ⟨rfl, by simp⟩
  | succ n ih =>
    match text with
    | [] => simp [uuidDigits] at h
    | [_] => simp [uuidDigits] at h
    | high :: low :: rest =>
      unfold uuidDigits at h
      split at h
      · next hdigit =>
        rw [Bool.and_eq_true] at hdigit
        dsimp only at h
        rw [Option.map_eq_some_iff] at h
        obtain ⟨⟨tail, end_⟩, htail, heq⟩ := h
        cases heq
        obtain ⟨hlen, hlower⟩ := ih htail
        refine ⟨by simp only [List.length_cons, hlen]; omega, ?_⟩
        simp only [List.forall_mem_cons]
        exact ⟨lowerDigit_toLower hdigit.1, lowerDigit_toLower hdigit.2, hlower⟩
      · cases h

/-- A byte that no hyphen follows. -/
theorem uuidDigits_byte {n : Nat} {high low : Char} {rest : List Char} (hhigh : LowerDigit high)
    (hlow : LowerDigit low) (hrest : rest.head? ≠ some '-') :
    uuidDigits (n + 1) (high :: low :: rest) =
      (uuidDigits n rest).map fun found => (high :: low :: found.1, found.2) := by
  rw [uuidDigits, hhigh.1, hlow.1, hhigh.2, hlow.2]
  simp [hrest]

/-- A group of bytes and the hyphen after it. -/
theorem uuidDigits_group {total k n : Nat} {digits rest : List Char} (htotal : total = n + (k + 1))
    (hlen : digits.length = 2 * (k + 1)) (hlower : ∀ c ∈ digits, LowerDigit c) (heven : n % 2 = 0)
    (hn : n ≠ 0) : uuidDigits total (digits ++ '-' :: rest) =
      (uuidDigits n rest).map fun found => (digits ++ found.1, found.2) := by
  subst htotal
  induction k generalizing digits with
  | zero =>
    match digits, hlen with
    | [high, low], _ =>
      simp only [List.forall_mem_cons] at hlower
      obtain ⟨hhigh, hlow, -⟩ := hlower
      show uuidDigits (n + 1) (high :: low :: '-' :: rest) = _
      rw [uuidDigits, hhigh.1, hlow.1, hhigh.2, hlow.2]
      simp [heven, hn]
  | succ k ih =>
    match digits, hlen with
    | high :: low :: next :: digits, hlen =>
      simp only [List.forall_mem_cons] at hlower
      obtain ⟨hhigh, hlow, hnext, hdigits⟩ := hlower
      have hlen' : (next :: digits).length = 2 * k + 2 := by
        simp only [List.length_cons] at hlen ⊢
        omega
      have hbyte := ih hlen' (List.forall_mem_cons.mpr ⟨hnext, hdigits⟩)
      show uuidDigits (n + (k + 1) + 1) (high :: low :: (next :: digits ++ '-' :: rest)) = _
      rw [uuidDigits_byte hhigh hlow (by simpa using hnext.ne_hyphen), hbyte, Option.map_map]
      rfl

theorem uuidDigits_last {k : Nat} {digits : List Char} (hlen : digits.length = 2 * k)
    (hlower : ∀ c ∈ digits, LowerDigit c) : uuidDigits k digits = some (digits, []) := by
  induction k generalizing digits with
  | zero =>
    rw [List.length_eq_zero_iff.mp hlen]
    rfl
  | succ k ih =>
    match digits, hlen with
    | high :: low :: digits, hlen =>
      simp only [List.forall_mem_cons] at hlower
      obtain ⟨hhigh, hlow, hdigits⟩ := hlower
      have hhead : digits.head? ≠ some '-' := by
        intro h
        exact (hdigits _ (List.mem_of_head? h)).ne_hyphen rfl
      rw [uuidDigits_byte hhigh hlow hhead,
        ih (by simp only [List.length_cons] at hlen; omega) hdigits]
      rfl

theorem uuid_lower {text : String} {value : Uuid} (h : uuid text = some value) :
    value.toList.length = 32 ∧ ∀ c ∈ value.toList, LowerDigit c := by
  obtain ⟨braced, body, hbody⟩ : ∃ (braced : Bool) (body : List Char),
      (uuidDigits 16 body).bind (fun (digits, after) =>
        if after = (if braced then ['}'] else []) then some (String.ofList digits) else none) =
          some value := by
    unfold uuid at h
    split at h
    next braced body hparts =>
    refine ⟨braced, body, ?_⟩
    rw [← h]
    rcases uuidDigits 16 body with _ | ⟨digits, after⟩ <;> rfl
  rw [Option.bind_eq_some_iff] at hbody
  obtain ⟨⟨digits, after⟩, hdigits, hvalue⟩ := hbody
  obtain ⟨-, hvalue⟩ := Option.ite_none_right_eq_some.mp hvalue
  obtain rfl := Option.some.inj hvalue
  rw [String.toList_ofList]
  exact uuidDigits_lower hdigits

/-- A text that does not begin with a brace is read from its first character on. -/
theorem uuid_unbraced {text : String} {digits : List Char} (hbrace : text.toList.head? ≠ some '{')
    (h : uuidDigits 16 text.toList = some (digits, [])) : uuid text = some (String.ofList digits) := by
  unfold uuid
  rcases htext : text.toList with _ | ⟨c, rest⟩
  · rw [htext] at h
    cases h
  · have hc : c ≠ '{' := by
      rintro rfl
      exact hbrace (by rw [htext]; rfl)
    rw [htext] at h
    simp [hc, h]

/-- Printing a value and reading it again. -/
theorem uuid_uuidText {text : String} {value : Uuid} (h : uuid text = some value) :
    uuid (uuidText value) = some value := by
  obtain ⟨hlen, hlower⟩ := uuid_lower h
  have hdrop (n : Nat) : ∀ c ∈ value.toList.drop n, LowerDigit c := fun c hc =>
    hlower c (List.mem_of_mem_drop hc)
  have hgroup (m n : Nat) : ∀ c ∈ (value.toList.drop m).take n, LowerDigit c := fun c hc =>
    hdrop m c (List.mem_of_mem_take hc)
  have htext : (uuidText value).toList = (value.toList.drop 0).take 8 ++ '-' ::
      ((value.toList.drop 8).take 4 ++ '-' :: ((value.toList.drop 12).take 4 ++ '-' ::
        ((value.toList.drop 16).take 4 ++ '-' :: value.toList.drop 20))) := by
    simp [uuidText, List.intercalate]
  have hsplit (m n : Nat) : (value.toList.drop m).take n ++ value.toList.drop (m + n) =
      value.toList.drop m := by
    rw [← List.drop_drop, List.take_append_drop]
  have hparse : uuidDigits 16 (uuidText value).toList = some (value.toList, []) := by
    rw [htext, uuidDigits_group (k := 3) (n := 12) rfl (by simp [hlen]) (hgroup 0 8) rfl (by decide),
      uuidDigits_group (k := 1) (n := 10) rfl (by simp [hlen]) (hgroup 8 4) rfl (by decide),
      uuidDigits_group (k := 1) (n := 8) rfl (by simp [hlen]) (hgroup 12 4) rfl (by decide),
      uuidDigits_group (k := 1) (n := 6) rfl (by simp [hlen]) (hgroup 16 4) rfl (by decide),
      uuidDigits_last (by simp [hlen]) (hdrop 20)]
    simp only [Option.map_some, hsplit 16 4, hsplit 12 4, hsplit 8 4, hsplit 0 8]
    rw [List.drop_zero]
  -- A brace is no digit, so the text does not begin with one.
  have hbrace : (uuidText value).toList.head? ≠ some '{' := by
    rw [htext]
    rcases hfirst : (value.toList.drop 0).take 8 with _ | ⟨c, rest⟩
    · have hnone := congrArg List.length hfirst
      simp [hlen] at hnone
    · have hc : LowerDigit c := hgroup 0 8 c (by rw [hfirst]; exact List.mem_cons_self)
      rintro hhead
      obtain rfl := Option.some.inj hhead
      exact absurd hc.1 (by decide)
  rw [uuid_unbraced hbrace hparse, String.ofList_toList]

/-! ## Conditions, `timestamptz` and collation -/

/-- A `CHECK` refuses a row when its condition is false, and passes it when the condition is `NULL`
(`none`). -/
def check (condition : Option Bool) : Bool := condition != some false

-- The order of the integers that computes: with all of Mathlib in scope, the instance found for it
-- is the one of a conditionally complete order.
instance (priority := high) computedOrder : Preorder Int := Int.instLinearOrder.toPreorder

/-- `timestamptz`: microseconds since 1970, between `-infinity` and `infinity`. -/
abbrev TimestampTz := WithBot (WithTop Int)

def TimestampTz.finite (micros : Int) : TimestampTz := ((micros : WithTop Int) : WithBot (WithTop Int))

example : TimestampTz.finite 0 ≠ ⊥ := by simp [TimestampTz.finite]

theorem TimestampTz.finite_lt_finite {a b : Int} :
    TimestampTz.finite a < TimestampTz.finite b ↔ a < b := by
  unfold TimestampTz.finite
  rw [WithBot.coe_lt_coe, WithTop.coe_lt_coe]

theorem TimestampTz.finite_inj {a b : Int} :
    TimestampTz.finite a = TimestampTz.finite b ↔ a = b := by
  unfold TimestampTz.finite
  rw [WithBot.coe_inj, WithTop.coe_inj]

theorem TimestampTz.eq_bot_or_finite {t : TimestampTz} {n : Int} (h : t < TimestampTz.finite n) :
    t = ⊥ ∨ ∃ m, t = TimestampTz.finite m ∧ m < n := by
  induction t using WithBot.recBotCoe with
  | bot => exact Or.inl rfl
  | coe t =>
    unfold TimestampTz.finite at h
    rw [WithBot.coe_lt_coe] at h
    induction t using WithTop.recTopCoe with
    | top => exact absurd h not_top_lt
    | coe m => exact Or.inr ⟨m, rfl, WithTop.coe_lt_coe.mp h⟩

/-- The sort key of a text under `COLLATE "C"`: its bytes in UTF-8. -/
def collateC (text : String) : List Nat :=
  text.toList.flatMap fun c => (String.utf8EncodeChar c).map UInt8.toNat

/-! ## `jsonb` -/

/-- `value->key`. -/
def jsonbGet (value : Json) (key : String) : Option Json :=
  match value with
  | .object fields => Js.lookupField fields key
  | _ => none

/-- `jsonb_exists(value, key)`: a key of an object, or a string in an array, or that string. -/
def jsonbExists (value : Json) (key : String) : Bool :=
  match value with
  | .object fields => (Js.lookupField fields key).isSome
  | .array items => items.any fun item => match item with
    | .string text => text == key
    | _ => false
  | .string text => text == key
  | _ => false

def jsonbQuoted (text : String) : String :=
  let hex (n : Nat) : String := String.ofList (Js.padStart 4 '0' (Nat.toDigits 16 n))
  let escape (c : Char) : String :=
    if c == '"' then "\\\"" else if c == '\\' then "\\\\"
    else if c == '\x08' then "\\b" else if c == '\x0C' then "\\f"
    else if c == '\n' then "\\n" else if c == '\r' then "\\r" else if c == '\t' then "\\t"
    else if c.toNat < 32 then "\\u" ++ hex c.toNat else String.singleton c
  "\"" ++ String.join (text.toList.map escape) ++ "\""

/-- The keys of an object in the order `jsonb` keeps them: shorter ones first, then by byte. -/
def jsonbKeyLe (a b : String) : Bool :=
  let (a, b) := (collateC a, collateC b)
  a.length < b.length || (a.length == b.length && decide (a ≤ b))

mutual

/-- `value::text`. -/
def jsonbText : Json → String
  | .null => "null"
  | .bool value => if value then "true" else "false"
  | .number value => value.text
  | .string value => jsonbQuoted value
  | .array items => "[" ++ ", ".intercalate (jsonbItems items) ++ "]"
  | .object fields =>
    let texts := (jsonbFields fields).mergeSort fun a b => jsonbKeyLe a.1 b.1
    "\x7b" ++ ", ".intercalate (texts.map fun field => jsonbQuoted field.1 ++ ": " ++ field.2) ++
      "\x7d"

def jsonbItems : List Json → List String
  | [] => []
  | item :: rest => jsonbText item :: jsonbItems rest

/-- The fields of an object, without those a later one of the same key replaces. -/
def jsonbFields : List (String × Json) → List (String × String)
  | [] => []
  | (key, value) :: rest =>
    let texts := jsonbFields rest
    if texts.any fun field => field.1 == key then texts else (key, jsonbText value) :: texts

end

/-- `value->>key`, where a JSON `null` reads as `NULL`. -/
def jsonbGetText (value : Json) (key : String) : Option String :=
  match jsonbGet value key with
  | none => none
  | some .null => none
  | some (.string text) => some text
  | some other => some (jsonbText other)

/-! ## Tables with a primary key -/

abbrev Table (κ ρ : Type) := AList (fun _ : κ => ρ)

namespace Table

variable {κ ρ : Type} [DecidableEq κ]

/-- `INSERT`: fails on a key that is taken. -/
def insertRow (table : Table κ ρ) (key : κ) (row : ρ) : Option (Table κ ρ) :=
  match table.lookup key with
  | some _ => none
  | none => some (table.insert key row)

/-- `UPDATE … WHERE id = key AND condition`. -/
def updateRow (table : Table κ ρ) (key : κ) (condition : ρ → Bool) (change : ρ → ρ) : Table κ ρ :=
  match table.lookup key with
  | some row => if condition row then table.insert key (change row) else table
  | none => table

/-- `INSERT … ON CONFLICT DO NOTHING`. -/
def insertIfAbsent (table : Table κ ρ) (key : κ) (row : ρ) : Table κ ρ :=
  match table.lookup key with
  | some _ => table
  | none => table.insert key row

/-- `INSERT … ON CONFLICT DO UPDATE`. -/
def upsertRow (table : Table κ ρ) (key : κ) (row : ρ) (change : ρ → ρ) : Table κ ρ :=
  match table.lookup key with
  | some held => table.insert key (change held)
  | none => table.insert key row

/-- `UPDATE … WHERE condition`. -/
def updateWhere (table : Table κ ρ) (condition : κ → ρ → Bool) (change : ρ → ρ) : Table κ ρ where
  entries := table.entries.map
    (Sigma.map id fun key row => if condition key row then change row else row)
  nodupKeys := by
    rw [List.NodupKeys, List.map₂_keys]
    exact table.nodupKeys

/-- `SELECT … WHERE condition`. -/
def selectWhere (table : Table κ ρ) (condition : κ → ρ → Bool) : Table κ ρ where
  entries := table.entries.filter fun entry => condition entry.1 entry.2
  nodupKeys := table.nodupKeys.sublist List.filter_sublist

theorem insertRow_eq_some {table next : Table κ ρ} {key : κ} {row : ρ} :
    table.insertRow key row = some next ↔
      table.lookup key = none ∧ table.insert key row = next := by
  unfold insertRow
  cases table.lookup key with
  | some held => simp
  | none => simp

theorem lookup_insert_eq (table : Table κ ρ) (key : κ) (row : ρ) :
    (fun k => (table.insert key row).lookup k) =
      Function.update (fun k => table.lookup k) key (some row) := by
  funext k
  by_cases hk : k = key
  · rw [hk, Function.update_self]
    exact AList.lookup_insert _
  · rw [Function.update_of_ne hk]
    exact AList.lookup_insert_ne hk

theorem updateRow_hit {table : Table κ ρ} {key : κ} {row : ρ} {condition : ρ → Bool}
    (change : ρ → ρ) (h : table.lookup key = some row) (hc : condition row = true) :
    table.updateRow key condition change = table.insert key (change row) := by
  simp [updateRow, h, hc]

/-- A row that is there stays as it is. -/
theorem lookup_insertIfAbsent {table : Table κ ρ} {key : κ} {held : ρ}
    (h : table.lookup key = some held) (k : κ) (row : ρ) :
    (table.insertIfAbsent k row).lookup key = some held := by
  unfold insertIfAbsent
  split
  · exact h
  · next hk =>
    have hne : key ≠ k := by
      rintro rfl
      rw [h] at hk
      cases hk
    rw [AList.lookup_insert_ne hne, h]

theorem lookup_upsertRow_ne {table : Table κ ρ} {key k : κ} (h : key ≠ k) (row : ρ)
    (change : ρ → ρ) : (table.upsertRow k row change).lookup key = table.lookup key := by
  unfold upsertRow
  split
  · exact AList.lookup_insert_ne h
  · exact AList.lookup_insert_ne h

theorem lookup_upsertRow_held {table : Table κ ρ} {key : κ} {held : ρ}
    (h : table.lookup key = some held) (row : ρ) (change : ρ → ρ) :
    (table.upsertRow key row change).lookup key = some (change held) := by
  unfold upsertRow
  rw [h]
  exact AList.lookup_insert _

theorem lookup_updateWhere (table : Table κ ρ) (condition : κ → ρ → Bool) (change : ρ → ρ)
    (key : κ) : (table.updateWhere condition change).lookup key =
      (table.lookup key).map fun row => if condition key row then change row else row :=
  List.dlookup_map₂ key

theorem lookup_selectWhere {table : Table κ ρ} {condition : κ → ρ → Bool} {key : κ} {row : ρ} :
    (table.selectWhere condition).lookup key = some row ↔
      table.lookup key = some row ∧ condition key row = true := by
  rw [← Option.mem_def, ← Option.mem_def, AList.mem_lookup_iff, AList.mem_lookup_iff]
  exact List.mem_filter

end Table

/-! ## Tables that mirror a map -/

section Mirrors

variable {ι κ σ ρ : Type} {key : ι → Option κ} {agrees : σ → ρ → Prop} {held : ι → Option σ}
  {rows : κ → Option ρ}

/-- The rows of a table mirror the records of a map: every record has a row, under its own key, that
agrees with it, and every row is the row of a record. -/
structure Mirrors (key : ι → Option κ) (agrees : σ → ρ → Prop) (held : ι → Option σ)
    (rows : κ → Option ρ) : Prop where
  /-- Every record has its row. -/
  row_of : ∀ i record, held i = some record →
    ∃ k row, key i = some k ∧ rows k = some row ∧ agrees record row
  /-- Every row has its record. -/
  record_of : ∀ k row, rows k = some row → ∃ i record, key i = some k ∧ held i = some record
  /-- No two records share a row. -/
  key_inj : ∀ i j a b, held i = some a → held j = some b → key i = key j → i = j

theorem mirrors_none : Mirrors key agrees (fun _ => none) (fun _ => none) where
  row_of := by simp
  record_of := by simp
  key_inj := by simp

theorem Mirrors.mono (h : Mirrors key agrees held rows) {agrees' : σ → ρ → Prop}
    (himp : ∀ record row, agrees record row → agrees' record row) :
    Mirrors key agrees' held rows where
  row_of := by
    intro i record hi
    obtain ⟨k, row, hk, hrow, hagrees⟩ := h.row_of i record hi
    exact ⟨k, row, hk, hrow, himp record row hagrees⟩
  record_of := h.record_of
  key_inj := h.key_inj

variable [DecidableEq ι] [DecidableEq κ]

theorem Mirrors.write (h : Mirrors key agrees held rows) {i : ι} {k : κ} {record : σ} {row : ρ}
    (hkey : key i = some k) (hother : ∀ j a, held j = some a → key j = some k → j = i)
    (hagrees : agrees record row) :
    Mirrors key agrees (Function.update held i (some record))
      (Function.update rows k (some row)) where
  row_of := by
    intro j other hj
    by_cases hji : j = i
    · rw [hji, Function.update_self] at hj
      cases hj
      exact ⟨k, row, by rw [hji]; exact hkey, Function.update_self _ _ _, hagrees⟩
    · rw [Function.update_of_ne hji] at hj
      obtain ⟨l, found, hl, hrow, hag⟩ := h.row_of j other hj
      have hlk : l ≠ k := by
        rintro rfl
        exact hji (hother j other hj hl)
      exact ⟨l, found, hl, by rw [Function.update_of_ne hlk]; exact hrow, hag⟩
  record_of := by
    intro l found hl
    by_cases hlk : l = k
    · exact ⟨i, record, by rw [hlk]; exact hkey, Function.update_self _ _ _⟩
    · rw [Function.update_of_ne hlk] at hl
      obtain ⟨j, other, hj, hrecord⟩ := h.record_of l found hl
      have hji : j ≠ i := by
        rintro rfl
        rw [hkey] at hj
        exact hlk (Option.some.inj hj).symm
      exact ⟨j, other, hj, by rw [Function.update_of_ne hji]; exact hrecord⟩
  key_inj := by
    intro j j' a b hj hj' heq
    by_cases hji : j = i
    · by_cases hji' : j' = i
      · rw [hji, hji']
      · rw [Function.update_of_ne hji'] at hj'
        rw [hji, hkey] at heq
        exact absurd (hother j' b hj' heq.symm) hji'
    · rw [Function.update_of_ne hji] at hj
      by_cases hji' : j' = i
      · rw [hji', hkey] at heq
        exact absurd (hother j a hj heq) hji
      · rw [Function.update_of_ne hji'] at hj'
        exact h.key_inj j j' a b hj hj' heq

theorem Mirrors.add (h : Mirrors key agrees held rows) {i : ι} {k : κ} {record : σ} {row : ρ}
    (hkey : key i = some k) (hfree : rows k = none) (hagrees : agrees record row) :
    Mirrors key agrees (Function.update held i (some record))
      (Function.update rows k (some row)) := by
  refine h.write hkey ?_ hagrees
  -- A record that was there has a row, and `k` had none.
  intro j a hj hjk
  obtain ⟨l, found, hl, hrow, -⟩ := h.row_of j a hj
  rw [hjk] at hl
  cases hl
  rw [hfree] at hrow
  cases hrow

theorem Mirrors.change (h : Mirrors key agrees held rows) {i : ι} {k : κ} {old record : σ} {row : ρ}
    (hheld : held i = some old) (hkey : key i = some k) (hagrees : agrees record row) :
    Mirrors key agrees (Function.update held i (some record))
      (Function.update rows k (some row)) :=
  h.write hkey (fun j a hj hjk => h.key_inj j i a old hj hheld (hjk.trans hkey.symm)) hagrees

theorem Mirrors.updateRow {table : Table κ ρ} (h : Mirrors key agrees held fun k => table.lookup k)
    {i : ι} {k : κ} {old record : σ} {condition : ρ → Bool} {change : ρ → ρ}
    (hheld : held i = some old) (hkey : key i = some k)
    (hhit : ∀ row, agrees old row → condition row = true)
    (hagrees : ∀ row, agrees old row → agrees record (change row)) :
    Mirrors key agrees (Function.update held i (some record))
      fun k' => (table.updateRow k condition change).lookup k' := by
  obtain ⟨l, row, hl, hrow, hold⟩ := h.row_of i old hheld
  obtain rfl := Option.some.inj (hkey.symm.trans hl)
  rw [Table.updateRow_hit change hrow (hhit row hold), Table.lookup_insert_eq]
  exact h.change hheld hkey (hagrees row hold)

end Mirrors

end Postgres
