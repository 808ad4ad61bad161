import Mathlib.Tactic.Tauto
import AtriumVerified.Lib.Proofs.JsonSplitProofs
import AtriumVerified.Web.Quotation

/-!
# What a fingerprint tells

The parts of a fingerprint carry their lengths, so two fingerprints are the same exactly when their
parts are. A part does not always say what a reader sees: a room can have the name that stands for no
room, and attachments that agree can be written in different ways.
-/

namespace Web.Quotation

open Js

/-! ## What a reader sees -/

def attachmentKeys : List String := ["id", "key", "name", "contentType", "size"]

def SameAttachment (a b : Json) : Prop :=
  ∀ key ∈ attachmentKeys, (property a key).map Json.write = (property b key).map Json.write

/-- The records agree in everything but the room and the attachments. -/
structure SameWords (a b : MessageRecord) : Prop where
  id : a.id = b.id
  origin : a.origin = b.origin
  at_ : a.at_ = b.at_
  actor : a.actor = b.actor
  text : a.text = b.text
  authorKind : a.authorKind.getD .unknown = b.authorKind.getD .unknown

def SameAttachments (a b : MessageRecord) : Prop :=
  List.Forall₂ SameAttachment (a.attachments.getD []) (b.attachments.getD [])

/-- The records agree in everything that a reader sees. -/
def VisiblyEqual (a b : MessageRecord) : Prop :=
  SameWords a b ∧ a.room = b.room ∧ SameAttachments a b

/-- One record has no room, and the other the room `∅`. -/
def EmptyRoomNamed (a b : MessageRecord) : Prop :=
  (a.room = none ∧ b.room = some "∅") ∨ (a.room = some "∅" ∧ b.room = none)

/-- Records that agree otherwise are not told apart by the room `∅` alone, and attachments of theirs
that agree in their fields are written the same. -/
def Tellable (a b : MessageRecord) : Prop :=
  SameWords a b →
    ¬ (EmptyRoomNamed a b ∧ attachmentText a = attachmentText b) ∧
      (a.room = b.room → SameAttachments a b → attachmentText a = attachmentText b)

/-! ## Parts -/

theorem MessageOrigin.text_inj {a b : MessageOrigin} (h : a.text = b.text) : a = b := by
  cases a <;> cases b <;> first | rfl | (revert h; decide)

theorem ParticipantKind.text_inj {a b : ParticipantKind} (h : a.text = b.text) : a = b := by
  cases a <;> cases b <;> first | rfl | (revert h; decide)

theorem parts_inj {first second : List (List Char)} (hlength : first.length = second.length)
    (h : ['|'].intercalate (first.map sized) = ['|'].intercalate (second.map sized)) :
    first = second := by
  induction first generalizing second with
  | nil => exact (List.length_eq_zero_iff.mp hlength.symm).symm
  | cons a first ih =>
    cases second with
    | nil => cases hlength
    | cons b second =>
      cases first with
      | nil =>
        obtain rfl := List.length_eq_zero_iff.mp (Nat.succ.inj hlength).symm
        have hsized : sized a ++ [] = sized b ++ [] := by simpa using h
        rw [(sized_append_inj hsized).1]
      | cons a' first =>
        cases second with
        | nil => cases hlength
        | cons b' second =>
          rw [List.map_cons, List.map_cons, List.map_cons, List.map_cons,
            List.intercalate_cons_cons, List.intercalate_cons_cons, List.append_assoc,
            List.append_assoc] at h
          obtain ⟨rfl, hrest⟩ := sized_append_inj h
          have htail := List.append_cancel_left hrest
          rw [← List.map_cons, ← List.map_cons] at htail
          rw [ih (Nat.succ.inj hlength) htail]

theorem recordFingerprint_eq_iff {a b : MessageRecord} :
    recordFingerprint a = recordFingerprint b ↔ fingerprintParts a = fingerprintParts b := by
  constructor
  · intro h
    have htext := congrArg String.toList h
    simp only [recordFingerprint, String.toList_intercalate, List.map_map] at htext
    have hsized (parts : List String) :
        parts.map (String.toList ∘ fun part => String.ofList (sized part.toList)) =
          (parts.map String.toList).map sized := by
      rw [List.map_map]
      exact List.map_congr_left fun part _ => String.toList_ofList
    rw [hsized, hsized] at htext
    have hlists := parts_inj (by simp only [List.length_map]; rfl) htext
    exact List.map_injective_iff.mpr (fun s t hst => String.toList_inj.mp hst) hlists
  · intro h
    rw [recordFingerprint, recordFingerprint, h]

theorem fingerprintParts_eq_iff {a b : MessageRecord} :
    fingerprintParts a = fingerprintParts b ↔
      SameWords a b ∧ a.room.getD "∅" = b.room.getD "∅" ∧ attachmentText a = attachmentText b := by
  constructor
  · intro h
    simp only [fingerprintParts, List.cons.injEq, and_true] at h
    obtain ⟨hid, horigin, hat, hactor, htext, hkind, hroom, hattachments⟩ := h
    exact ⟨⟨hid, MessageOrigin.text_inj horigin, hat, hactor, htext,
      ParticipantKind.text_inj hkind⟩, hroom, hattachments⟩
  · rintro ⟨hsame, hroom, hattachments⟩
    rw [fingerprintParts, fingerprintParts, hsame.id, hsame.origin, hsame.at_, hsame.actor,
      hsame.text, hsame.authorKind, hroom, hattachments]

/-! ## Attachments -/

theorem object_of_kind {a : Json} (h : kindOf a = 5) : ∃ fields, a = .object fields := by
  cases a with
  | object fields => exact ⟨fields, rfl⟩
  | bool value => cases value <;> cases h
  | _ => cases h

theorem property_of_kind {a : Json} (h : kindOf a ≠ 5) (key : String) : property a key = none := by
  cases a with
  | object fields => exact absurd rfl h
  | _ => rfl

theorem property_of_write_eq {a b : Json} (h : a.write = b.write) (key : String) :
    (property a key).map Json.write = (property b key).map Json.write := by
  have hkind : kindOf a = kindOf b := by
    refine kindOf_eq (x := []) (y := []) ?_
    rw [h]
  by_cases hobject : kindOf a = 5
  · obtain ⟨fields, rfl⟩ := object_of_kind hobject
    obtain ⟨others, rfl⟩ := object_of_kind (hkind ▸ hobject)
    rw [property, property, write_lookupField, write_lookupField, written_of_write_eq h]
  · rw [property_of_kind hobject, property_of_kind (hkind ▸ hobject)]

theorem sameAttachments_of_text {a b : MessageRecord} (h : attachmentText a = attachmentText b) :
    SameAttachments a b := by
  have hitems := items_of_stringify_eq h
  unfold SameAttachments
  generalize a.attachments.getD [] = first at hitems
  generalize b.attachments.getD [] = second at hitems
  induction first generalizing second with
  | nil =>
    rw [List.map_eq_nil_iff.mp hitems.symm]
    exact List.Forall₂.nil
  | cons item first ih =>
    cases second with
    | nil => cases hitems
    | cons other second =>
      obtain ⟨hitem, hrest⟩ := List.cons.inj hitems
      exact List.Forall₂.cons (fun key _ => property_of_write_eq hitem key) (ih second hrest)

/-! ## Two records -/

theorem room_getD_eq_iff {a b : MessageRecord} :
    a.room.getD "∅" = b.room.getD "∅" ↔ a.room = b.room ∨ EmptyRoomNamed a b := by
  unfold EmptyRoomNamed
  cases a.room with
  | none =>
    cases b.room with
    | none => simp
    | some room => simp [eq_comm]
  | some room =>
    cases b.room with
    | none => simp
    | some other => simp

theorem EmptyRoomNamed.ne {a b : MessageRecord} (h : EmptyRoomNamed a b) : a.room ≠ b.room := by
  rcases h with ⟨ha, hb⟩ | ⟨ha, hb⟩
  · rw [ha, hb]
    exact (Option.some_ne_none _).symm
  · rw [ha, hb]
    exact Option.some_ne_none _

theorem fingerprint_tells_iff {a b : MessageRecord} :
    (recordFingerprint a = recordFingerprint b ↔ VisiblyEqual a b) ↔ Tellable a b := by
  rw [recordFingerprint_eq_iff, fingerprintParts_eq_iff, room_getD_eq_iff, VisiblyEqual, Tellable]
  have hagree : attachmentText a = attachmentText b → SameAttachments a b :=
    sameAttachments_of_text
  have hne : EmptyRoomNamed a b → a.room ≠ b.room := EmptyRoomNamed.ne
  tauto

/-! ## The ledger -/

section Ledger

variable {records : List MessageRecord} {ledger : Map String MessageRecord}

structure Holds (records : List MessageRecord) (ledger : Map String MessageRecord) : Prop where
  sound : ∀ key held, ledger.get key = some held → held ∈ records ∧ held.id = key
  complete : ∀ record ∈ records, ∃ held, ledger.get record.id = some held ∧
    recordFingerprint held = recordFingerprint record

/-- One more record is held, or it disagrees with one that is. -/
theorem hold_cases (h : Holds records ledger) (record : MessageRecord) :
    (∃ next, hold ledger record = .ok next ∧ Holds (records ++ [record]) next) ∨
      ((∃ message, hold ledger record = .error message) ∧
        ∃ held ∈ records, held.id = record.id ∧
          recordFingerprint held ≠ recordFingerprint record) := by
  have hmore {next : Map String MessageRecord}
      (hkept : ∀ key held, ledger.get key = some held → next.get key = some held)
      (hsound : ∀ key held, next.get key = some held → held ∈ records ++ [record] ∧ held.id = key)
      (hrecord : ∃ held, next.get record.id = some held ∧
        recordFingerprint held = recordFingerprint record) :
      Holds (records ++ [record]) next := by
    refine ⟨hsound, fun other hother => ?_⟩
    rcases List.mem_append.mp hother with hother | hother
    · obtain ⟨held, hheld, hfingerprint⟩ := h.complete other hother
      exact ⟨held, hkept _ held hheld, hfingerprint⟩
    · rw [List.mem_singleton.mp hother]
      exact hrecord
  unfold hold
  cases hget : ledger.get record.id with
  | none =>
    refine Or.inl ⟨_, rfl, hmore (fun key held hheld => ?_) (fun key held hheld => ?_) ?_⟩
    · rw [Map.get_set, if_neg]
      · exact hheld
      · rintro rfl
        rw [hget] at hheld
        cases hheld
    · rw [Map.get_set] at hheld
      split at hheld
      · rename_i hkey
        cases hheld
        exact ⟨List.mem_append_right _ List.mem_cons_self, hkey.symm⟩
      · obtain ⟨hmem, hid⟩ := h.sound key held hheld
        exact ⟨List.mem_append_left _ hmem, hid⟩
    · refine ⟨record, ?_, rfl⟩
      rw [Map.get_set, if_pos rfl]
  | some existing =>
    obtain ⟨hmem, hid⟩ := h.sound _ _ hget
    dsimp only
    split
    · rename_i hsame
      refine Or.inl ⟨ledger, rfl, hmore (fun _ _ hheld => hheld) (fun key held hheld => ?_)
        ⟨existing, hget, hsame⟩⟩
      obtain ⟨hheldMem, hheldId⟩ := h.sound key held hheld
      exact ⟨List.mem_append_left _ hheldMem, hheldId⟩
    · rename_i hdiffers
      exact Or.inr ⟨⟨_, rfl⟩, existing, hmem, hid, hdiffers⟩

theorem foldlM_hold_cases (h : Holds records ledger) (rest : List MessageRecord) :
    (∃ next, rest.foldlM hold ledger = .ok next ∧ Holds (records ++ rest) next) ∨
      ((∃ message, rest.foldlM hold ledger = .error message) ∧
        ∃ a ∈ records ++ rest, ∃ b ∈ records ++ rest, a.id = b.id ∧
          recordFingerprint a ≠ recordFingerprint b) := by
  induction rest generalizing records ledger with
  | nil =>
    rw [List.append_nil]
    exact Or.inl ⟨ledger, rfl, h⟩
  | cons record rest ih =>
    rw [List.foldlM_cons, ← List.singleton_append, ← List.append_assoc]
    rcases hold_cases h record with ⟨next, hnext, hholds⟩ | ⟨⟨message, herror⟩, held, hmem, hid, hne⟩
    · rw [hnext]
      exact ih hholds
    · rw [herror]
      refine Or.inr ⟨⟨message, rfl⟩, held, ?_, record, ?_, hid, hne⟩
      · exact List.mem_append_left _ (List.mem_append_left _ hmem)
      · exact List.mem_append_left _ (List.mem_append_right _ List.mem_cons_self)

theorem messageLedger_cases (records : List MessageRecord) :
    (∃ ledger, messageLedger records = .ok ledger ∧ Holds records ledger) ∨
      ((∃ message, messageLedger records = .error message) ∧
        ∃ a ∈ records, ∃ b ∈ records, a.id = b.id ∧
          recordFingerprint a ≠ recordFingerprint b) := by
  have hempty : Holds [] (Map.empty : Map String MessageRecord) :=
    ⟨fun _ _ hget => (by cases hget), fun _ hmem => (by cases hmem)⟩
  have hcases := foldlM_hold_cases hempty records
  rwa [List.nil_append] at hcases

/-- The fingerprints of the records tell what a reader sees, the ledger refuses the records exactly
when two of one id are seen to be different, and otherwise holds for each record one that is seen to
be the same. -/
structure FingerprintsTell (records : List MessageRecord) : Prop where
  equal : ∀ a ∈ records, ∀ b ∈ records,
    (recordFingerprint a = recordFingerprint b ↔ VisiblyEqual a b)
  refused : (∃ message, messageLedger records = .error message) ↔
    ∃ a ∈ records, ∃ b ∈ records, a.id = b.id ∧ ¬ VisiblyEqual a b
  held : ∀ ledger, messageLedger records = .ok ledger → ∀ record ∈ records,
    ∃ held, ledger.get record.id = some held ∧ VisiblyEqual held record

/-- The fingerprints of the records tell what a reader sees exactly when no two of the records that
agree otherwise differ in that one has no room and the other the room `∅`, and no two have
attachments that agree in their fields and are written differently. -/
theorem fingerprints_tell_iff (records : List MessageRecord) :
    FingerprintsTell records ↔ ∀ a ∈ records, ∀ b ∈ records, Tellable a b := by
  constructor
  · intro h a ha b hb
    exact fingerprint_tells_iff.mp (h.equal a ha b hb)
  · intro h
    have hequal : ∀ a ∈ records, ∀ b ∈ records,
        (recordFingerprint a = recordFingerprint b ↔ VisiblyEqual a b) := fun a ha b hb =>
      fingerprint_tells_iff.mpr (h a ha b hb)
    refine ⟨hequal, ⟨?_, ?_⟩, ?_⟩
    · rintro ⟨message, herror⟩
      rcases messageLedger_cases records with ⟨ledger, hok, -⟩ | ⟨-, a, ha, b, hb, hid, hne⟩
      · rw [herror] at hok
        cases hok
      · exact ⟨a, ha, b, hb, hid, fun hvisible => hne ((hequal a ha b hb).mpr hvisible)⟩
    · rintro ⟨a, ha, b, hb, hid, hdiffer⟩
      rcases messageLedger_cases records with ⟨ledger, -, hholds⟩ | ⟨herror, -⟩
      · -- both would have the fingerprint of the record that is held
        obtain ⟨held, hget, hfingerprint⟩ := hholds.complete a ha
        obtain ⟨other, hgetOther, hfingerprintOther⟩ := hholds.complete b hb
        rw [← hid, hget] at hgetOther
        cases hgetOther
        exact absurd ((hequal a ha b hb).mp (hfingerprint.symm.trans hfingerprintOther)) hdiffer
      · exact herror
    · intro ledger hok record hrecord
      rcases messageLedger_cases records with ⟨found, hfound, hholds⟩ | ⟨⟨message, herror⟩, -⟩
      · rw [hok] at hfound
        cases hfound
        obtain ⟨held, hget, hfingerprint⟩ := hholds.complete record hrecord
        have hmem := (hholds.sound _ _ hget).1
        exact ⟨held, hget, (hequal held hmem record hrecord).mp hfingerprint⟩
      · rw [hok] at herror
        cases herror

end Ledger

/-- A message as it crosses the boundary, with what else it has. -/
def crossing (rest : List (String × Json)) : Json :=
  .object ([("id", Json.string "m1"), ("at", Json.string "2026-01-01T00:00:00.000Z"),
    ("actor", Json.string "ada"), ("text", Json.string "hello"),
    ("origin", Json.string "typed"), ("authorKind", Json.string "human")] ++ rest)

def crossed (room : Option String) (attachments : Option (List Json)) : MessageRecord :=
  ⟨"m1", "2026-01-01T00:00:00.000Z", "ada", "hello", .typed, some .human, room, attachments⟩

/-- A record with no room and one with the room `∅` have one fingerprint, and both cross the
boundary. -/
theorem empty_room_untold :
    parseMessageRecord (crossing []) = .ok (crossed none none) ∧
      parseMessageRecord (crossing [("room", .string "∅")]) = .ok (crossed (some "∅") none) ∧
      recordFingerprint (crossed none none) = recordFingerprint (crossed (some "∅") none) ∧
      ¬ VisiblyEqual (crossed none none) (crossed (some "∅") none) := by
  refine ⟨rfl, rfl, rfl, ?_⟩
  rintro ⟨-, hroom, -⟩
  cases hroom

end Web.Quotation
