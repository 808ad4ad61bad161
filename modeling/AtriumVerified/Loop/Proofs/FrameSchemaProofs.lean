import AtriumVerified.Lib.Proofs.SchemaValueRules
import AtriumVerified.Loop.FrameSchema

/-!
# What is returned of a frame

`parseServerFrame` tests the type alone once `ServerFrame` has passed. A frame that its schema refuses
passes as an `OtherFrame`, with its type and nothing else, and is returned as one that is known.
-/

namespace Loop.FrameSchema

open Js JsonSchema

/-! ## The schemas are stable -/

section Stable

theorem stable_id : Stable id := stable_string _

theorem stable_timestamp : Stable timestamp := stable_string _

theorem stable_text : Stable text := stable_string _

theorem stable_orNull {schema : JsonSchema} (h : Stable schema) :
    Stable (withDefault .null (nullable schema)) :=
  stable_withDefault (stable_nullable h) ⟨_, rfl⟩

theorem stable_idOrNull : Stable idOrNull := stable_orNull stable_id

theorem stable_texts : Stable (withDefault (.array []) (array text)) := by
  refine stable_withDefault (stable_array stable_text fun json h => ?_) ⟨_, rfl⟩
  obtain ⟨read, -, heq⟩ := Except.map_eq_ok_iff.mp h
  cases heq

theorem stable_actor : Stable actor := by
  refine stable_tagged ?_
  simp only [StableOptions, List.forall_mem_cons, List.not_mem_nil, IsEmpty.forall_iff, implies_true,
    and_true]
  refine ⟨⟨_, rfl, ⟨by decide, ?_⟩, List.mem_cons_self⟩, ⟨_, rfl, ⟨by decide, ?_⟩, List.mem_cons_self⟩,
    ⟨_, rfl, ⟨by decide, ?_⟩, List.mem_cons_self⟩, ⟨_, rfl, ⟨by decide, ?_⟩, List.mem_cons_self⟩⟩ <;>
    simp [stable_id]

theorem stable_handledEvent : Stable handledEvent := by
  refine stable_tagged ?_
  simp only [StableOptions, List.forall_mem_cons, List.not_mem_nil, IsEmpty.forall_iff, implies_true,
    and_true]
  refine ⟨⟨_, rfl, ⟨by decide, ?_⟩, ?_⟩, ⟨_, rfl, ⟨by decide, ?_⟩, ?_⟩, ⟨_, rfl, ⟨by decide, ?_⟩, ?_⟩,
    ⟨_, rfl, ⟨by decide, ?_⟩, ?_⟩, ⟨_, rfl, ⟨by decide, ?_⟩, ?_⟩, ⟨_, rfl, ⟨by decide, ?_⟩, ?_⟩,
    ⟨_, rfl, ⟨by decide, ?_⟩, ?_⟩, ⟨_, rfl, ⟨by decide, ?_⟩, ?_⟩, ⟨_, rfl, ⟨by decide, ?_⟩, ?_⟩⟩ <;>
    simp [eventBase, sessionExit, stable_id, stable_timestamp, stable_text, stable_idOrNull,
      stable_orNull]

theorem stable_otherEvent : Stable otherEvent := by
  refine stable_object ⟨by decide, ?_⟩
  simp [eventBase, stable_id, stable_timestamp, stable_text]

theorem stable_wireEvent : Stable wireEvent := by
  refine stable_object ⟨by decide, ?_⟩
  simp [roomEvent, stable_id, stable_actor, stable_handledEvent, stable_otherEvent, stable_texts]

theorem stable_drawOutcome : Stable drawOutcome := by
  refine stable_union (stable_object ⟨by decide, ?_⟩) (stable_object ⟨by decide, ?_⟩)
  · simp [stable_id]
  · simp

theorem stable_entries : Stable (array wireEvent) := stable_array stable_wireEvent object_ne_none

theorem options_knownFrame : StableOptions "type"
    [("welcome", welcomeFrame), ("subscribed", subscribedFrame), ("event", eventFrame),
      ("catchup", catchupFrame), ("head", headFrame), ("ack", ackFrame), ("nack", nackFrame)] := by
  simp only [StableOptions, List.forall_mem_cons, List.not_mem_nil, IsEmpty.forall_iff, implies_true,
    and_true]
  refine ⟨⟨_, rfl, ⟨by decide, ?_⟩, List.mem_cons_self⟩, ⟨_, rfl, ⟨by decide, ?_⟩, List.mem_cons_self⟩,
    ⟨_, rfl, ⟨by decide, ?_⟩, List.mem_cons_self⟩, ⟨_, rfl, ⟨by decide, ?_⟩, List.mem_cons_self⟩,
    ⟨_, rfl, ⟨by decide, ?_⟩, List.mem_cons_self⟩, ⟨_, rfl, ⟨by decide, ?_⟩, List.mem_cons_self⟩,
    ⟨_, rfl, ⟨by decide, ?_⟩, List.mem_cons_self⟩⟩ <;>
    simp [stable_id, stable_text, stable_wireEvent, stable_entries, stable_texts, stable_drawOutcome]

end Stable

/-! ## Frames -/

section Frames

variable {json frame : Json} {raw : String}

theorem typeOf_eq_some_iff {type : String} : typeOf json = some type ↔
    ∃ fields, json = .object fields ∧ lookupField fields "type" = some (.string type) := by
  unfold typeOf
  split
  · rename_i fields
    constructor
    · intro h
      split at h
      · rename_i held hheld
        cases h
        exact ⟨fields, rfl, hheld⟩
      · cases h
    · rintro ⟨other, ⟨⟩, hlookup⟩
      rw [hlookup]
  · rename_i hne
    constructor
    · intro h
      cases h
    · rintro ⟨fields, rfl, -⟩
      exact absurd rfl (hne fields)

theorem knownFrame_ok {out : Option Json} (h : knownFrame (some json) = .ok out) :
    ∃ frame, out = some frame ∧ isKnownFrame frame = true ∧ knownFrame.Accepts (some frame) := by
  obtain ⟨fields, read, tag, shape, -, -, hoption, -, -, rfl, htag⟩ := tag_of_tagged options_knownFrame h
  refine ⟨.object read, rfl, ?_, stable_tagged options_knownFrame _ _ h⟩
  have htype : typeOf (.object read) = some tag := typeOf_eq_some_iff.mpr ⟨read, rfl, htag⟩
  have hmem : tag ∈ knownTypes := List.mem_map_of_mem (f := Prod.fst) (List.mem_of_find?_eq_some hoption)
  rw [isKnownFrame, htype]
  simpa using hmem

theorem otherFrame_eq_ok_iff {out : Option Json} : otherFrame (some json) = .ok out ↔
    ∃ type, typeOf json = some type ∧ out = some (.object [("type", .string type)]) := by
  have hread {fields read : List (String × Json)} : readShape fields [("type", text)] = .ok read ↔
      ∃ type, lookupField fields "type" = some (.string type) ∧ read = [("type", .string type)] := by
    unfold readShape
    rw [Schema.both_eq_ok]
    constructor
    · rintro ⟨held, rest, hheld, hrest, rfl⟩
      cases hrest
      obtain ⟨type, htype, rfl⟩ := Except.map_eq_ok_iff.mp (Schema.field_eq_ok.mp hheld)
      exact ⟨type, Schema.string_of_ok htype, rfl⟩
    · rintro ⟨type, htype, rfl⟩
      exact ⟨some (.string type), [], Schema.field_eq_ok.mpr (by rw [htype]; rfl), rfl, rfl⟩
  rw [otherFrame, object_eq_ok_iff]
  constructor
  · rintro ⟨fields, read, ⟨⟩, hshape, rfl⟩
    obtain ⟨type, htype, rfl⟩ := hread.mp hshape
    exact ⟨type, typeOf_eq_some_iff.mpr ⟨fields, rfl, htype⟩, rfl⟩
  · rintro ⟨type, htype, rfl⟩
    obtain ⟨fields, rfl, hlookup⟩ := typeOf_eq_some_iff.mp htype
    exact ⟨fields, _, rfl, hread.mpr ⟨type, hlookup, rfl⟩, rfl⟩

theorem bare_refused {type : String} (h : type ∈ knownTypes) :
    ¬ knownFrame.Accepts (some (.object [("type", .string type)])) := by
  simp only [knownTypes, List.mem_cons, List.not_mem_nil, or_false] at h
  rintro ⟨out, hout⟩
  rcases h with rfl | rfl | rfl | rfl | rfl | rfl | rfl <;> cases hout

/-! ## The parser -/

theorem parse_known (hparse : Json.parse raw = some json) {out : Option Json}
    (h : knownFrame (some json) = .ok out) :
    ∃ frame, parseServerFrame raw = .ok frame ∧ isKnownFrame frame = true ∧
      knownFrame.Accepts (some frame) := by
  obtain ⟨frame, rfl, hknown, haccepts⟩ := knownFrame_ok h
  refine ⟨frame, ?_, hknown, haccepts⟩
  rw [parseServerFrame, hparse]
  simp only [serverFrame, union, h, Option.getD_some, hknown, if_true]

/-- Of a frame that does not pass the type is left. -/
theorem parse_other (hparse : Json.parse raw = some json) (h : ¬ knownFrame.Accepts (some json)) :
    (∃ type, typeOf json = some type ∧
      parseServerFrame raw = .ok (if type ∈ knownTypes then .object [("type", .string type)]
        else unknownFrame)) ∨
      typeOf json = none ∧ ∃ reason, parseServerFrame raw = .error reason := by
  have hrefused : ∃ issues, knownFrame (some json) = .error issues := by
    cases hread : knownFrame (some json) with
    | ok out => exact absurd ⟨out, hread⟩ h
    | error issues => exact ⟨issues, rfl⟩
  obtain ⟨issues, hissues⟩ := hrefused
  cases htype : typeOf json with
  | some type =>
    refine Or.inl ⟨type, rfl, ?_⟩
    have hother := otherFrame_eq_ok_iff.mpr ⟨type, htype, rfl⟩
    have hbare : typeOf (.object [("type", .string type)]) = some type := rfl
    rw [parseServerFrame, hparse]
    simp only [serverFrame, union, hissues, hother, Option.getD_some, isKnownFrame, hbare,
      Option.any_some, List.contains_eq_mem, decide_eq_true_eq]
    split <;> rfl
  | none =>
    refine Or.inr ⟨rfl, ?_⟩
    have hother : ∃ issues, otherFrame (some json) = .error issues := by
      cases hread : otherFrame (some json) with
      | ok out =>
        obtain ⟨type, hsome, -⟩ := otherFrame_eq_ok_iff.mp hread
        rw [htype] at hsome
        cases hsome
      | error issues => exact ⟨issues, rfl⟩
    obtain ⟨others, hothers⟩ := hother
    rw [parseServerFrame, hparse]
    simp only [serverFrame, union, hissues, hothers]
    exact ⟨_, rfl⟩

/-- A text is turned into a frame that passed, into none that the loop knows, or into an exception,
which only a text that is no object with a type raises. -/
structure Validated (raw : String) : Prop where
  returned : ∀ frame, parseServerFrame raw = .ok frame → frame = unknownFrame ∨
    isKnownFrame frame = true ∧ knownFrame.Accepts (some frame)
  thrown : ∀ reason, parseServerFrame raw = .error reason →
    ∀ json, Json.parse raw = some json → typeOf json = none

/-- Frames are validated but for those with a type that is known and a schema that refuses them. -/
theorem validated_iff (raw : String) : Validated raw ↔
    ∀ json, Json.parse raw = some json → isKnownFrame json = true →
      knownFrame.Accepts (some json) := by
  constructor
  · intro h json hparse hknown
    by_contra hrefused
    obtain ⟨type, htype, hmem⟩ : ∃ type, typeOf json = some type ∧ type ∈ knownTypes := by
      rw [isKnownFrame, Option.any_eq_true] at hknown
      simpa using hknown
    rcases parse_other hparse hrefused with ⟨held, hheld, hreturned⟩ | ⟨hnone, -⟩
    · rw [htype] at hheld
      cases hheld
      rw [if_pos hmem] at hreturned
      rcases h.returned _ hreturned with heq | ⟨-, haccepts⟩
      · have hunknown : some type = some "unknown" := congrArg typeOf heq
        cases hunknown
        exact absurd hmem (by decide)
      · exact bare_refused hmem haccepts
    · rw [htype] at hnone
      cases hnone
  · intro h
    refine ⟨fun frame hframe => ?_, fun reason hreason json hparse => ?_⟩
    · cases hparse : Json.parse raw with
      | none =>
        rw [parseServerFrame, hparse] at hframe
        cases hframe
      | some json =>
        by_cases haccepts : knownFrame.Accepts (some json)
        · obtain ⟨out, hout⟩ := haccepts
          obtain ⟨other, hother, hknown, hagain⟩ := parse_known hparse hout
          rw [hother] at hframe
          cases hframe
          exact Or.inr ⟨hknown, hagain⟩
        · rcases parse_other hparse haccepts with ⟨type, htype, hreturned⟩ | ⟨-, reason, hreason⟩
          · have hnew : type ∉ knownTypes := fun hmem => haccepts <| h json hparse <| by
              simpa [isKnownFrame, htype] using hmem
            rw [hreturned, if_neg hnew] at hframe
            cases hframe
            exact Or.inl rfl
          · rw [hreason] at hframe
            cases hframe
    · by_cases haccepts : knownFrame.Accepts (some json)
      · obtain ⟨out, hout⟩ := haccepts
        obtain ⟨other, hother, -⟩ := parse_known hparse hout
        rw [hother] at hreason
        cases hreason
      · rcases parse_other hparse haccepts with ⟨type, -, hreturned⟩ | ⟨hnone, -⟩
        · rw [hreturned] at hreason
          cases hreason
        · exact hnone

/-- A page with a position whose row could not be read, as the server sends it. -/
def tombstonePage : String :=
  "\x7b\"type\":\"catchup\",\"roomId\":\"r1\",\"from\":0,\"to\":1,\"head\":1,\"more\":false," ++
    "\"entries\":[\x7b\"roomId\":\"r1\",\"roomSeq\":1,\"seq\":1,\"malformed\":true," ++
    "\"reason\":\"no event\"\x7d]\x7d"

def isBare (type : String) : Json → Bool
  | .object [(key, .string held)] => key == "type" && held == type
  | _ => false

theorem isBare_iff {type : String} : isBare type json = true ↔ json = .object [("type", .string type)] := by
  unfold isBare
  split
  · simp
  · rename_i hne
    refine iff_of_false Bool.false_ne_true ?_
    rintro rfl
    exact hne _ _ rfl

/-- The page is returned without its entries. -/
theorem tombstonePage_unvalidated : ¬ ∀ raw, Validated raw := by
  intro h
  have hbare : (parseServerFrame tombstonePage).toOption.any (isBare "catchup") = true := by
    decide +kernel
  cases hparse : parseServerFrame tombstonePage with
  | error reason =>
    rw [hparse] at hbare
    cases hbare
  | ok frame =>
    rw [hparse] at hbare
    obtain rfl := isBare_iff.mp hbare
    rcases (h tombstonePage).returned _ hparse with heq | ⟨-, haccepts⟩
    · have htype : some "catchup" = some "unknown" := congrArg typeOf heq
      exact absurd htype (by decide)
    · exact bare_refused (by decide) haccepts

end Frames

end Loop.FrameSchema
