import AtriumVerified.Ingest.Proofs.CorpusProofs
import AtriumVerified.Lib.Proofs.SchemaRules

/-!
# What the schema of a message accepts

A message passes its schema exactly when each of its parts does, and what the schema returns is the
message with its URLs as the schema of URLs returns them.
-/

namespace Ingest

open Js Core

/-! ## Strings -/

theorem filled_eq_ok_iff {text read : String} :
    filled (some (.string text)) = .ok read ↔ text ≠ "" ∧ read = text := by
  rw [filled, Schema.string_eq_ok_iff, List.forall_mem_singleton, Schema.minLength]
  refine and_congr_left fun _ => ?_
  rw [Ne, ← Schema.utf16Length_eq_zero_iff]
  split
  · rename_i hlt
    simp [Nat.lt_one_iff.mp hlt]
  · rename_i hge
    simp only [true_iff]
    omega

theorem idSchema_eq_ok_iff {text read : String} :
    idSchema (some (.string text)) = .ok read ↔ isId text = true ∧ read = text := by
  rw [idSchema, Schema.string_eq_ok_iff]
  refine and_congr_left fun _ => ?_
  simp only [List.forall_mem_cons, List.not_mem_nil, IsEmpty.forall_iff, implies_true, and_true,
    Schema.minLength, Schema.maxLength, Schema.pattern, isId, Bool.and_eq_true, decide_eq_true_eq,
    ite_eq_right_iff, ite_eq_left_iff, reduceCtorEq, imp_false, not_lt, Bool.not_eq_true]
  rw [and_assoc, Bool.not_eq_false]

theorem timestampSchema_eq_ok_iff {text read : String} :
    timestampSchema (some (.string text)) = .ok read ↔
      canonicalTimestamp text = true ∧ read = text := by
  rw [timestampSchema, Schema.string_eq_ok_iff, List.forall_mem_singleton, Schema.pattern]
  refine and_congr_left fun _ => ?_
  split
  · rename_i h
    simp [h]
  · rename_i h
    simp [h]

/-! ## Attachments and messages -/

structure FitAttachment (platform : Platform) (attachment : IngestAttachment) : Prop where
  name : attachment.name ≠ ""
  url : (platform.readUrl attachment.url).isSome
  contentType : ∀ contentType, attachment.contentType = some contentType → contentType ≠ ""

def readAttachment (platform : Platform) (attachment : IngestAttachment) : IngestAttachment :=
  { attachment with url := (platform.readUrl attachment.url).getD attachment.url }

structure FitMessage (platform : Platform) (message : IngestMessage) : Prop where
  id : isId message.id = true
  author : message.author ≠ ""
  ts : canonicalTimestamp message.ts = true
  replyTo : ∀ parent, message.replyTo = some parent → isId parent = true
  attachments : ∀ attachments, message.attachments = some attachments → attachments ≠ [] ∧
    ∀ attachment ∈ attachments, FitAttachment platform attachment

def readMessage (platform : Platform) (message : IngestMessage) : IngestMessage :=
  { message with attachments := message.attachments.map (List.map (readAttachment platform)) }

variable {platform : Platform}

theorem urlSchema_eq_ok_iff {url read : String} :
    urlSchema platform (some (.string url)) = .ok read ↔ platform.readUrl url = some read := by
  rw [urlSchema]
  cases platform.readUrl url with
  | none => simp
  | some other => simp

theorem attachmentSchema_eq_ok_iff {attachment read : IngestAttachment} :
    attachmentSchema platform (some (serializeAttachment attachment)) = .ok read ↔
      FitAttachment platform attachment ∧ read = readAttachment platform attachment := by
  have hkeys : Schema.unrecognized ["name", "url", "contentType"] (attachmentFields attachment) =
      .ok () := by
    cases attachment with
    | mk name url contentType => cases contentType <;> rfl
  have hname : lookupField (attachmentFields attachment) "name" =
      some (.string attachment.name) := by
    cases attachment with
    | mk name url contentType => cases contentType <;> rfl
  have hurl : lookupField (attachmentFields attachment) "url" = some (.string attachment.url) := by
    cases attachment with
    | mk name url contentType => cases contentType <;> rfl
  have hcontentType : lookupField (attachmentFields attachment) "contentType" =
      attachment.contentType.map Json.string := by
    cases attachment with
    | mk name url contentType => cases contentType <;> rfl
  rw [attachmentSchema, serializeAttachment, Schema.strictObject_eq_ok_iff hkeys]
  simp only [Schema.both_eq_ok, Schema.field_eq_ok, hname, hurl, hcontentType, filled_eq_ok_iff,
    urlSchema_eq_ok_iff, Schema.optional_text_eq_ok_iff filled_eq_ok_iff]
  constructor
  · rintro ⟨_, _, ⟨_, href, ⟨hfilled, rfl⟩, hhref, rfl⟩, ⟨hall, rfl⟩, rfl⟩
    refine ⟨⟨hfilled, Option.isSome_of_eq_some hhref, hall⟩, ?_⟩
    rw [readAttachment, hhref]
    rfl
  · rintro ⟨hfit, rfl⟩
    obtain ⟨href, hhref⟩ := Option.isSome_iff_exists.mp hfit.url
    refine ⟨_, _, ⟨_, href, ⟨hfit.name, rfl⟩, hhref, rfl⟩, ⟨hfit.contentType, rfl⟩, ?_⟩
    rw [readAttachment, hhref]
    rfl

theorem forall₂_attachments_iff {attachments read : List IngestAttachment} :
    List.Forall₂ (fun json value => attachmentSchema platform (some json) = .ok value)
        (attachments.map serializeAttachment) read ↔
      (∀ attachment ∈ attachments, FitAttachment platform attachment) ∧
        read = attachments.map (readAttachment platform) := by
  induction attachments generalizing read with
  | nil => simp
  | cons attachment rest ih =>
    rw [List.map_cons, List.forall₂_cons_left_iff]
    simp only [attachmentSchema_eq_ok_iff, ih, List.forall_mem_cons]
    constructor
    · rintro ⟨_, _, ⟨hfit, rfl⟩, ⟨hrest, rfl⟩, rfl⟩
      exact ⟨⟨hfit, hrest⟩, rfl⟩
    · rintro ⟨⟨hfit, hrest⟩, rfl⟩
      exact ⟨_, _, ⟨hfit, rfl⟩, ⟨hrest, rfl⟩, rfl⟩

theorem messageSchema_fields {message read : IngestMessage}
    {attachments : Option (List IngestAttachment)} (hsame : message.attachments = attachments) :
    messageSchema platform (some (.object (messageFields message attachments))) = .ok read ↔
      FitMessage platform message ∧ read = readMessage platform message := by
  subst hsame
  have hkeys : Schema.unrecognized ["id", "author", "ts", "text", "reply_to", "attachments"]
      (messageFields message message.attachments) = .ok () := by
    cases message with
    | mk id author ts text replyTo attachments => cases replyTo <;> cases attachments <;> rfl
  have hlookup : lookupField (messageFields message message.attachments) "id" =
        some (.string message.id) ∧
      lookupField (messageFields message message.attachments) "author" =
        some (.string message.author) ∧
      lookupField (messageFields message message.attachments) "ts" = some (.string message.ts) ∧
      lookupField (messageFields message message.attachments) "text" =
        some (.string message.text) ∧
      lookupField (messageFields message message.attachments) "reply_to" =
        message.replyTo.map Json.string ∧
      lookupField (messageFields message message.attachments) "attachments" =
        message.attachments.map fun attachments =>
          .array (attachments.map serializeAttachment) := by
    cases message with
    | mk id author ts text replyTo attachments =>
      cases replyTo <;> cases attachments <;> exact ⟨rfl, rfl, rfl, rfl, rfl, rfl⟩
  obtain ⟨hid, hauthor, hts, htext, hreplyTo, hattachments⟩ := hlookup
  have harray {read : Option (List IngestAttachment)} :
      Schema.optional (Schema.minItems 1 (Schema.array (attachmentSchema platform)))
          (message.attachments.map fun attachments =>
            .array (attachments.map serializeAttachment)) = .ok read ↔
        (∀ attachments, message.attachments = some attachments → attachments ≠ [] ∧
          ∀ attachment ∈ attachments, FitAttachment platform attachment) ∧
        read = message.attachments.map (List.map (readAttachment platform)) := by
    cases message.attachments with
    | none =>
      rw [Option.map_none, Schema.optional_none_eq_ok_iff]
      simp
    | some attachments =>
      rw [Option.map_some, Schema.optional_some_eq_ok_iff]
      simp only [Schema.minItems_one_eq_ok_iff, forall₂_attachments_iff, ne_eq, List.map_eq_nil_iff,
        Option.some.injEq, forall_eq', Option.map_some]
      constructor
      · rintro ⟨_, ⟨⟨hfit, rfl⟩, hne⟩, rfl⟩
        exact ⟨⟨hne, hfit⟩, rfl⟩
      · rintro ⟨⟨hne, hfit⟩, rfl⟩
        exact ⟨_, ⟨⟨hfit, rfl⟩, hne⟩, rfl⟩
  rw [messageSchema, Schema.strictObject_eq_ok_iff hkeys]
  simp only [Schema.both_eq_ok, Schema.field_eq_ok, hid, hauthor, hts, htext, hreplyTo,
    hattachments, idSchema_eq_ok_iff, filled_eq_ok_iff, timestampSchema_eq_ok_iff, Schema.plain_eq_ok_iff,
    Schema.optional_text_eq_ok_iff idSchema_eq_ok_iff, harray]
  constructor
  · rintro ⟨_, _, ⟨_, _, ⟨_, _, ⟨_, _, ⟨_, _, ⟨hid, rfl⟩, ⟨hauthor, rfl⟩, rfl⟩, ⟨hts, rfl⟩, rfl⟩,
      rfl, rfl⟩, ⟨hreplyTo, rfl⟩, rfl⟩, ⟨hattachments, rfl⟩, rfl⟩
    exact ⟨⟨hid, hauthor, hts, hreplyTo, hattachments⟩, rfl⟩
  · rintro ⟨hfit, rfl⟩
    exact ⟨_, _, ⟨_, _, ⟨_, _, ⟨_, _, ⟨_, _, ⟨hfit.id, rfl⟩, ⟨hfit.author, rfl⟩, rfl⟩,
      ⟨hfit.ts, rfl⟩, rfl⟩, rfl, rfl⟩, ⟨hfit.replyTo, rfl⟩, rfl⟩, ⟨hfit.attachments, rfl⟩, rfl⟩

theorem messageSchema_asJson {message read : IngestMessage} :
    messageSchema platform (some (asJson message)) = .ok read ↔
      FitMessage platform message ∧ read = readMessage platform message :=
  messageSchema_fields rfl

/-! ## A refusal has an issue -/

section Explained

variable {α β γ : Type}

def Explained (parsed : Schema.Parsed α) : Prop := parsed ≠ .error []

theorem explained_ok (value : α) : Explained (.ok value : Schema.Parsed α) := by
  intro h
  cases h

theorem explained_wrongType (expected : String) (value : Option Json) :
    Explained (.error (Schema.wrongType expected value) : Schema.Parsed α) := by
  intro h
  cases h

theorem explained_both {f : α → β → γ} {first : Schema.Parsed α} {second : Schema.Parsed β}
    (hfirst : Explained first) (hsecond : Explained second) :
    Explained (Schema.both f first second) := by
  intro h
  cases first with
  | ok a =>
    cases second with
    | ok b => cases h
    | error issues => exact hsecond (Except.error.inj h ▸ rfl)
  | error issues =>
    cases second with
    | ok b => exact hfirst (Except.error.inj h ▸ rfl)
    | error others =>
      have hnil := (List.append_eq_nil_iff.mp (Except.error.inj h)).1
      exact hfirst (hnil ▸ rfl)

theorem explained_field {schema : Schema.Reader α} (h : ∀ value, Explained (schema value))
    (fields : List (String × Json)) (key : String) :
    Explained (Schema.field fields key schema) := by
  intro hnil
  have hvalue := h (lookupField fields key)
  unfold Schema.field at hnil
  split at hnil
  · cases hnil
  · rename_i issues heq
    rw [List.map_eq_nil_iff.mp (Except.error.inj hnil)] at heq
    exact hvalue heq

theorem explained_string (checks : List (String → Option String)) (value : Option Json) :
    Explained (Schema.string checks value) := by
  unfold Schema.string
  split
  · split
    · exact explained_ok _
    · rename_i hne
      intro h
      exact hne (List.map_eq_nil_iff.mp (Except.error.inj h))
  · exact explained_wrongType _ _

theorem explained_optional {schema : Schema.Reader α} (h : ∀ value, Explained (schema value))
    (value : Option Json) : Explained (Schema.optional schema value) := by
  cases value with
  | none => exact explained_ok _
  | some json =>
    intro hnil
    have hvalue := h (some json)
    have hmap : (schema (some json)).map some = .error [] := hnil
    cases hread : schema (some json) with
    | ok read =>
      rw [hread] at hmap
      cases hmap
    | error issues =>
      rw [hread] at hmap hvalue
      exact hvalue (Except.error.inj hmap ▸ rfl)

theorem explained_items {schema : Schema.Reader α} (h : ∀ value, Explained (schema value))
    (index : Nat) (values : List Json) : Explained (Schema.items schema index values) := by
  induction values generalizing index with
  | nil => exact explained_ok _
  | cons json rest ih =>
    refine explained_both ?_ (ih (index + 1))
    intro hnil
    have hvalue := h (some json)
    cases hread : schema (some json) with
    | ok read =>
      rw [hread] at hnil
      cases hnil
    | error issues =>
      rw [hread] at hnil hvalue
      exact hvalue (List.map_eq_nil_iff.mp (Except.error.inj hnil) ▸ rfl)

theorem explained_minItems {n : Nat} {schema : Schema.Reader (List α)}
    (h : ∀ value, Explained (schema value)) (value : Option Json) :
    Explained (Schema.minItems n schema value) := by
  intro hnil
  have hvalue := h value
  unfold Schema.minItems at hnil
  split at hnil
  · split at hnil <;> cases hnil
  · rename_i issues heq
    rw [Except.error.inj hnil] at heq
    exact hvalue heq

theorem explained_array {schema : Schema.Reader α} (h : ∀ value, Explained (schema value))
    (value : Option Json) : Explained (Schema.array schema value) := by
  unfold Schema.array
  split
  · exact explained_items h 0 _
  · exact explained_wrongType _ _

theorem explained_strictObject {keys : List String} {shape : List (String × Json) → Schema.Parsed α}
    (h : ∀ fields, Explained (shape fields)) (value : Option Json) :
    Explained (Schema.strictObject keys shape value) := by
  unfold Schema.strictObject
  split
  · refine explained_both (h _) ?_
    unfold Schema.unrecognized
    split
    · exact explained_ok _
    · intro hnil
      cases hnil
    · intro hnil
      cases hnil
  · exact explained_wrongType _ _

theorem explained_urlSchema (platform : Platform) (value : Option Json) :
    Explained (urlSchema platform value) := by
  unfold urlSchema
  split
  · split
    · exact explained_ok _
    · intro hnil
      cases hnil
  · exact explained_wrongType _ _

theorem explained_attachmentSchema (platform : Platform) (value : Option Json) :
    Explained (attachmentSchema platform value) := by
  refine explained_strictObject (fun fields => ?_) value
  refine explained_both (explained_both ?_ ?_) ?_
  · exact explained_field (explained_string _) fields "name"
  · exact explained_field (explained_urlSchema platform) fields "url"
  · exact explained_field (explained_optional (explained_string _)) fields "contentType"

theorem explained_messageSchema (platform : Platform) (value : Option Json) :
    Explained (messageSchema platform value) := by
  refine explained_strictObject (fun fields => ?_) value
  refine explained_both (explained_both (explained_both (explained_both (explained_both ?_ ?_) ?_)
    ?_) ?_) ?_
  · exact explained_field (explained_string _) fields "id"
  · exact explained_field (explained_string _) fields "author"
  · exact explained_field (explained_string _) fields "ts"
  · exact explained_field (explained_string _) fields "text"
  · exact explained_field (explained_optional (explained_string _)) fields "reply_to"
  · exact explained_field (explained_optional (explained_minItems
      (explained_array (explained_attachmentSchema platform)))) fields "attachments"

end Explained

/-! ## Corpora -/

theorem messageIssues_eq_nil_iff {i : Nat} {message : IngestMessage} :
    messageIssues platform i message = [] ↔ FitMessage platform message := by
  unfold messageIssues
  cases h : messageSchema platform (some (asJson message)) with
  | ok read => exact ⟨fun _ => (messageSchema_asJson.mp h).1, fun _ => rfl⟩
  | error issues =>
    constructor
    · intro hnil
      rw [List.map_eq_nil_iff.mp hnil] at h
      exact absurd h (explained_messageSchema platform _)
    · intro hfit
      rw [messageSchema_asJson.mpr ⟨hfit, rfl⟩] at h
      cases h

theorem assertValidCorpus_eq_ok_iff {messages : List IngestMessage} {context : String} :
    assertValidCorpus platform messages context = .ok () ↔
      WellFormed messages ∧ ∀ message ∈ messages, FitMessage platform message := by
  have hfit : (messages.zipIdx.flatMap fun entry => messageIssues platform entry.2 entry.1) = [] ↔
      ∀ message ∈ messages, FitMessage platform message := by
    rw [List.flatMap_eq_nil_iff]
    constructor
    · intro h message hmem
      obtain ⟨i, hi⟩ := List.mem_iff_getElem?.mp hmem
      exact messageIssues_eq_nil_iff.mp
        (h (message, i) (List.mk_mem_zipIdx_iff_getElem?.mpr hi))
    · rintro h ⟨message, i⟩ hentry
      have hi := List.mk_mem_zipIdx_iff_getElem?.mp hentry
      exact messageIssues_eq_nil_iff.mpr (h message (List.mem_of_getElem? hi))
  rw [← checkCorpus_eq_nil_iff, ← hfit, ← List.append_eq_nil_iff, ← List.isEmpty_iff,
    assertValidCorpus]
  split
  · rename_i h
    exact ⟨fun _ => h, fun _ => rfl⟩
  · rename_i h
    exact ⟨fun hok => (by cases hok), fun hempty => absurd hempty h⟩

theorem serializeCorpus_eq_ok_iff {messages : List IngestMessage} {context text : String} :
    serializeCorpus platform messages context = .ok text ↔
      (Linked messages ∧ ∀ message ∈ messages, FitMessage platform message) ∧
        text = corpusText (sortMessages messages) := by
  have hfit : (∀ message ∈ sortMessages messages, FitMessage platform message) ↔
      ∀ message ∈ messages, FitMessage platform message :=
    forall_congr' fun message => by rw [(sortMessages_perm messages).mem_iff]
  rw [← wellFormed_sortMessages_iff, ← hfit]
  constructor
  · intro h
    obtain ⟨⟨⟩, hvalid, hok⟩ := Except.bind_ok h
    exact ⟨assertValidCorpus_eq_ok_iff.mp hvalid, (Except.ok.inj hok).symm⟩
  · rintro ⟨hvalid, rfl⟩
    rw [serializeCorpus, assertValidCorpus_eq_ok_iff.mpr hvalid]
    rfl

end Ingest
