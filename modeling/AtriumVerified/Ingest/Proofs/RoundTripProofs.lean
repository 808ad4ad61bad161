import AtriumVerified.Ingest.Proofs.SchemaProofs
import AtriumVerified.Lib.Proofs.JsonTextProofs
import AtriumVerified.Lib.Split

/-!
# What is written is read again

A corpus that is written is read without an issue, in canonical order, with the URLs as the schema of
URLs returns them. A text that is read without an issue is written again, and read as the same
messages.
-/

namespace Ingest

open Js Core

variable {platform : Platform}

/-! ## One line -/

theorem areFieldsNumberless_append (first second : List (String × Json)) :
    areFieldsNumberless (first ++ second) =
      (areFieldsNumberless first && areFieldsNumberless second) := by
  induction first with
  | nil => rfl
  | cons field rest ih => rw [List.cons_append, areFieldsNumberless, areFieldsNumberless, ih,
      Bool.and_assoc]

theorem areNumberless_of_forall {items : List Json} (h : ∀ item ∈ items, item.isNumberless = true) :
    areNumberless items = true := by
  induction items with
  | nil => rfl
  | cons item rest ih =>
    obtain ⟨hitem, hrest⟩ := List.forall_mem_cons.mp h
    rw [areNumberless, hitem, ih hrest]
    rfl

theorem serializeAttachment_isNumberless (attachment : IngestAttachment) :
    (serializeAttachment attachment).isNumberless = true := by
  cases attachment with
  | mk name url contentType => cases contentType <;> rfl

theorem messageFields_numberless (message : IngestMessage)
    (attachments : Option (List IngestAttachment)) :
    areFieldsNumberless (messageFields message attachments) = true := by
  have hattachments : areFieldsNumberless (attachments.toList.map fun attachments =>
      ("attachments", Json.array (attachments.map serializeAttachment))) = true := by
    cases attachments with
    | none => rfl
    | some attachments =>
      have hitems : areNumberless (attachments.map serializeAttachment) = true :=
        areNumberless_of_forall (List.forall_mem_map.mpr
          fun attachment _ => serializeAttachment_isNumberless attachment)
      rw [Option.toList_some, List.map_singleton, areFieldsNumberless, Json.isNumberless, hitems]
      rfl
  have hreplyTo : areFieldsNumberless
      (message.replyTo.toList.map fun replyTo => ("reply_to", Json.string replyTo)) = true := by
    cases message.replyTo <;> rfl
  rw [messageFields, areFieldsNumberless_append, areFieldsNumberless_append, hattachments, hreplyTo]
  rfl

theorem orderedJson_eq {message : IngestMessage} (h : FitMessage platform message) :
    orderedJson message = asJson message := by
  have hfilter : (message.attachments.filter fun attachments => !attachments.isEmpty) =
      message.attachments := by
    cases hattachments : message.attachments with
    | none => rfl
    | some attachments =>
      have hne := (h.attachments attachments hattachments).1
      rw [Option.filter_some, if_pos]
      simpa using hne
  rw [orderedJson, asJson, hfilter]

theorem parse_serializeMessage (message : IngestMessage) :
    Json.parse (serializeMessage message) = some (orderedJson message) :=
  parse_stringify (messageFields_numberless message _)

theorem readLine_serializeMessage {message : IngestMessage} (h : FitMessage platform message)
    (lineNumber : Nat) :
    readLine platform lineNumber (serializeMessage message) = .ok (readMessage platform message) := by
  rw [readLine, parse_serializeMessage, orderedJson_eq h]
  dsimp only
  rw [messageSchema_asJson.mpr ⟨h, rfl⟩]

theorem serializeMessage_toList (message : IngestMessage) :
    ∃ rest, (serializeMessage message).toList = '\x7b' :: rest :=
  ⟨_, String.toList_ofList⟩

theorem trim_serializeMessage (message : IngestMessage) :
    (trim (serializeMessage message).toList).isEmpty = false := by
  obtain ⟨rest, hrest⟩ := serializeMessage_toList message
  obtain ⟨kept, back, htrim, -, -⟩ := trim_cons rest (show isSpace '\x7b' = false by decide)
  rw [hrest, htrim]
  rfl

/-! ## The lines of a corpus -/

theorem newline_notMem_serializeMessage (message : IngestMessage) :
    '\n' ∉ (serializeMessage message).toList := by
  rw [serializeMessage, Json.stringify, String.toList_ofList]
  exact newline_notMem_write _ (messageFields_numberless message _)

theorem intercalate_concat_nil {x : Char} {lines : List (List Char)} (h : lines ≠ []) :
    [x].intercalate (lines ++ [[]]) = [x].intercalate lines ++ [x] := by
  induction lines with
  | nil => exact absurd rfl h
  | cons line rest ih =>
    cases rest with
    | nil => simp [List.intercalate]
    | cons next rest =>
      have hrest := ih (List.cons_ne_nil next rest)
      simp only [List.intercalate, List.cons_append, List.intersperse_cons_cons,
        List.flatten_cons] at hrest ⊢
      rw [hrest]
      simp

theorem splitLines_corpusText (sorted : List IngestMessage) :
    splitLines (corpusText sorted) = sorted.map serializeMessage ++ [""] := by
  cases sorted with
  | nil => rfl
  | cons message rest =>
    have hlines : ∀ line ∈ ((message :: rest).map fun m => (serializeMessage m).toList) ++ [[]],
        '\n' ∉ line := by
      intro line hline
      rcases List.mem_append.mp hline with hline | hline
      · obtain ⟨m, -, rfl⟩ := List.mem_map.mp hline
        exact newline_notMem_serializeMessage m
      · rw [List.mem_singleton.mp hline]
        exact List.not_mem_nil
    have htext : (corpusText (message :: rest)).toList =
        ['\n'].intercalate (((message :: rest).map fun m => (serializeMessage m).toList) ++ [[]]) := by
      rw [intercalate_concat_nil (by simp), corpusText, if_neg (by simp), String.toList_append,
        String.toList_intercalate, List.map_map]
      rfl
    rw [splitLines, htext, List.splitOn_intercalate _ hlines (by simp), List.map_append,
      List.map_map]
    have hmessages : (message :: rest).map (String.ofList ∘ fun m => (serializeMessage m).toList) =
        (message :: rest).map serializeMessage :=
      List.map_congr_left fun m _ => String.ofList_toList
    rw [hmessages]
    rfl

theorem readLines_messages {messages : List IngestMessage}
    (h : ∀ message ∈ messages, FitMessage platform message) (i : Nat) :
    (readLines platform i (messages.map serializeMessage ++ [""])).1 = [] ∧
      (readLines platform i (messages.map serializeMessage ++ [""])).2.map Prod.fst =
        messages.map (readMessage platform) := by
  induction messages generalizing i with
  | nil => exact ⟨rfl, rfl⟩
  | cons message rest ih =>
    obtain ⟨hmessage, hrest⟩ := List.forall_mem_cons.mp h
    obtain ⟨hissues, hfound⟩ := ih hrest (i + 1)
    rw [List.map_cons, List.cons_append, readLines, trim_serializeMessage,
      readLine_serializeMessage hmessage]
    exact ⟨hissues, congrArg (readMessage platform message :: ·) hfound⟩

/-! ## The corpus -/

theorem WellFormed.read {messages : List IngestMessage} (h : WellFormed messages) :
    WellFormed (messages.map (readMessage platform)) where
  ids := List.pairwise_map.mpr h.ids
  replies := by
    intro message hmem parent hparent
    obtain ⟨held, hheld, rfl⟩ := List.mem_map.mp hmem
    obtain ⟨other, hother, hid, hlt⟩ := h.replies held hheld parent hparent
    exact ⟨readMessage platform other, List.mem_map_of_mem hother, hid, hlt⟩
  canonical := List.pairwise_map.mpr h.canonical

theorem validateCorpusText_corpusText {sorted : List IngestMessage} (h : WellFormed sorted)
    (hfit : ∀ message ∈ sorted, FitMessage platform message) :
    validateCorpusText platform (corpusText sorted) =
      ⟨sorted.map (readMessage platform), []⟩ := by
  obtain ⟨hissues, hfound⟩ := readLines_messages hfit 0
  rw [validateCorpusText, splitLines_corpusText]
  dsimp only
  rw [hissues, hfound, checkCorpus_eq_nil_iff.mpr h.read, List.append_nil,
    List.mergeSort_nil]

/-! ## URLs that stay -/

def StableUrls (platform : Platform) (message : IngestMessage) : Prop :=
  ∀ attachments, message.attachments = some attachments →
    ∀ attachment ∈ attachments, platform.readUrl attachment.url = some attachment.url

theorem readAttachment_eq_self_iff {attachment : IngestAttachment}
    (h : FitAttachment platform attachment) :
    readAttachment platform attachment = attachment ↔
      platform.readUrl attachment.url = some attachment.url := by
  obtain ⟨read, hread⟩ := Option.isSome_iff_exists.mp h.url
  have hsame : readAttachment platform attachment = { attachment with url := read } := by
    rw [readAttachment, hread, Option.getD_some]
  rw [hsame, hread, Option.some.injEq]
  constructor
  · intro heq
    exact congrArg IngestAttachment.url heq
  · rintro rfl
    rfl

theorem map_eq_self_iff {α : Type} {f : α → α} {items : List α} :
    items.map f = items ↔ ∀ item ∈ items, f item = item := by
  induction items with
  | nil => simp
  | cons item rest ih => rw [List.map_cons, List.cons.injEq, ih, List.forall_mem_cons]

theorem readMessage_eq_self_iff {message : IngestMessage} (h : FitMessage platform message) :
    readMessage platform message = message ↔ StableUrls platform message := by
  have hattachments : readMessage platform message = message ↔
      message.attachments.map (List.map (readAttachment platform)) = message.attachments := by
    constructor
    · intro heq
      exact congrArg IngestMessage.attachments heq
    · intro heq
      rw [readMessage, heq]
  rw [hattachments, StableUrls]
  cases hheld : message.attachments with
  | none => simp
  | some attachments =>
    simp only [Option.map_some, Option.some.injEq, forall_eq', map_eq_self_iff]
    refine forall₂_congr fun attachment hmem => ?_
    exact readAttachment_eq_self_iff ((h.attachments attachments hheld).2 attachment hmem)

/-! ## One order -/

theorem sortMessages_eq_of_perm {messages permuted : List IngestMessage} (h : Linked messages)
    (hperm : permuted.Perm messages) : sortMessages permuted = sortMessages messages := by
  refine List.Perm.eq_of_pairwise ?_ (canonical_sortMessages permuted)
    (canonical_sortMessages messages) ?_
  · intro a b ha hb hab hba
    have hkey : messageKey a = messageKey b := le_antisymm hab hba
    have hida : a ∈ messages := hperm.mem_iff.mp ((sortMessages_perm permuted).mem_iff.mp ha)
    have hidb : b ∈ messages := (sortMessages_perm messages).mem_iff.mp hb
    have hids : (messages.map IngestMessage.id).Nodup := List.pairwise_map.mpr h.ids
    have hid : a.id = b.id := by
      by_contra hne
      exact key_ne_of_id_ne hne hkey
    exact List.inj_on_of_nodup_map hids hida hidb hid
  · exact ((sortMessages_perm permuted).trans hperm).trans (sortMessages_perm messages).symm

/-- What the schema of URLs returns it returns again. -/
def Settled (platform : Platform) : Prop :=
  ∀ url read, platform.readUrl url = some read → platform.readUrl read = some read

theorem urlSchema_of_ok {value : Option Json} {read : String}
    (h : urlSchema platform value = .ok read) : ∃ url, platform.readUrl url = some read := by
  unfold urlSchema at h
  split at h
  · rename_i url
    split at h
    · rename_i other heq
      cases h
      exact ⟨url, heq⟩
    · cases h
  · cases h

theorem attachmentSchema_of_ok (hsettled : Settled platform) {value : Option Json}
    {read : IngestAttachment} (h : attachmentSchema platform value = .ok read) :
    FitAttachment platform read ∧ platform.readUrl read.url = some read.url := by
  obtain ⟨fields, hshape⟩ := Schema.strictObject_of_ok h
  simp only [Schema.both_eq_ok, Schema.field_eq_ok] at hshape
  obtain ⟨_, contentType, ⟨name, url, hname, hurl, rfl⟩, hcontentType, rfl⟩ := hshape
  obtain ⟨written, hwritten⟩ := urlSchema_of_ok hurl
  have hstable := hsettled written url hwritten
  refine ⟨⟨?_, Option.isSome_of_eq_some hstable, ?_⟩, hstable⟩
  · rw [Schema.string_of_ok hname] at hname
    exact (filled_eq_ok_iff.mp hname).1
  · rintro held rfl
    have hheld := Schema.optional_of_ok hcontentType
    rw [Schema.string_of_ok hheld] at hheld
    exact (filled_eq_ok_iff.mp hheld).1

theorem messageSchema_of_ok (hsettled : Settled platform) {value : Option Json}
    {read : IngestMessage} (h : messageSchema platform value = .ok read) :
    FitMessage platform read ∧ StableUrls platform read := by
  obtain ⟨fields, hshape⟩ := Schema.strictObject_of_ok h
  simp only [Schema.both_eq_ok, Schema.field_eq_ok] at hshape
  obtain ⟨_, attachments, ⟨_, replyTo, ⟨_, text, ⟨_, ts, ⟨id, author, hid, hauthor, rfl⟩, hts, rfl⟩,
    htext, rfl⟩, hreplyTo, rfl⟩, hattachments, rfl⟩ := hshape
  rw [Schema.string_of_ok hid] at hid
  rw [Schema.string_of_ok hauthor] at hauthor
  rw [Schema.string_of_ok hts] at hts
  have hitems : ∀ held, attachments = some held → held ≠ [] ∧ ∀ attachment ∈ held,
      FitAttachment platform attachment ∧
        platform.readUrl attachment.url = some attachment.url := by
    rintro held rfl
    obtain ⟨hne, hall⟩ := Schema.items_of_ok (Schema.optional_of_ok hattachments)
    refine ⟨hne, fun attachment hmem => ?_⟩
    obtain ⟨json, hjson⟩ := hall attachment hmem
    exact attachmentSchema_of_ok hsettled hjson
  constructor
  · refine ⟨(idSchema_eq_ok_iff.mp hid).1, (filled_eq_ok_iff.mp hauthor).1,
      (timestampSchema_eq_ok_iff.mp hts).1, ?_, ?_⟩
    · rintro parent rfl
      have hparent := Schema.optional_of_ok hreplyTo
      rw [Schema.string_of_ok hparent] at hparent
      exact (idSchema_eq_ok_iff.mp hparent).1
    · intro held hheld
      exact ⟨(hitems held hheld).1, fun attachment hmem => ((hitems held hheld).2 attachment hmem).1⟩
  · intro held hheld attachment hmem
    exact ((hitems held hheld).2 attachment hmem).2

theorem readLine_of_ok (hsettled : Settled platform) {lineNumber : Nat} {raw : String}
    {message : IngestMessage} (h : readLine platform lineNumber raw = .ok message) :
    FitMessage platform message ∧ StableUrls platform message := by
  unfold readLine at h
  split at h
  · cases h
  · split at h
    · rename_i heq
      cases h
      exact messageSchema_of_ok hsettled heq
    · cases h

theorem fit_of_mem_readLines (hsettled : Settled platform) {i : Nat} {lines : List String} :
    ∀ entry ∈ (readLines platform i lines).2,
      FitMessage platform entry.1 ∧ StableUrls platform entry.1 := by
  induction lines generalizing i with
  | nil =>
    intro entry hentry
    cases hentry
  | cons raw rest ih =>
    unfold readLines
    split
    · split
      · intro entry hentry
        cases hentry
      · exact ih
    · split
      · exact ih
      · rename_i message heq
        refine List.forall_mem_cons.mpr ⟨?_, ih⟩
        exact readLine_of_ok hsettled heq

theorem wellFormed_of_read (hsettled : Settled platform) {text : String}
    (h : (validateCorpusText platform text).issues = []) :
    WellFormed (validateCorpusText platform text).messages ∧
      ∀ message ∈ (validateCorpusText platform text).messages,
        FitMessage platform message ∧ StableUrls platform message := by
  constructor
  · rw [validateCorpusText] at h
    have hlength := congrArg List.length h
    rw [List.length_mergeSort] at hlength
    have hnil := List.append_eq_nil_iff.mp (List.length_eq_zero_iff.mp hlength)
    exact checkCorpus_eq_nil_iff.mp hnil.2
  · intro message hmem
    obtain ⟨entry, hentry, rfl⟩ := List.mem_map.mp hmem
    exact fit_of_mem_readLines hsettled entry hentry

/-! ## Writing and reading -/

theorem validateCorpusText_of_serialized {messages : List IngestMessage} {context text : String}
    (h : serializeCorpus platform messages context = .ok text) :
    validateCorpusText platform text =
      ⟨(sortMessages messages).map (readMessage platform), []⟩ := by
  obtain ⟨⟨hlinked, hfit⟩, rfl⟩ := serializeCorpus_eq_ok_iff.mp h
  refine validateCorpusText_corpusText (wellFormed_sortMessages_iff.mpr hlinked) ?_
  intro message hmem
  exact hfit message ((sortMessages_perm messages).mem_iff.mp hmem)

theorem serializeCorpus_perm {messages permuted : List IngestMessage} {context text : String}
    (h : serializeCorpus platform messages context = .ok text) (hperm : permuted.Perm messages) :
    serializeCorpus platform permuted context = .ok text := by
  obtain ⟨⟨hlinked, hfit⟩, rfl⟩ := serializeCorpus_eq_ok_iff.mp h
  refine serializeCorpus_eq_ok_iff.mpr ⟨⟨hlinked.perm hperm.symm, ?_⟩, ?_⟩
  · intro message hmem
    exact hfit message (hperm.mem_iff.mp hmem)
  · rw [sortMessages_eq_of_perm hlinked hperm]

theorem validateCorpusText_eq_iff {messages : List IngestMessage} {context text : String}
    (h : serializeCorpus platform messages context = .ok text) :
    validateCorpusText platform text = ⟨sortMessages messages, []⟩ ↔
      ∀ message ∈ messages, StableUrls platform message := by
  have hfit := (serializeCorpus_eq_ok_iff.mp h).1.2
  rw [validateCorpusText_of_serialized h, CorpusReadResult.mk.injEq, map_eq_self_iff]
  constructor
  · rintro ⟨hsame, -⟩ message hmem
    exact (readMessage_eq_self_iff (hfit message hmem)).mp
      (hsame message ((sortMessages_perm messages).mem_iff.mpr hmem))
  · intro hstable
    refine ⟨fun message hmem => ?_, rfl⟩
    have hmem := (sortMessages_perm messages).mem_iff.mp hmem
    exact (readMessage_eq_self_iff (hfit message hmem)).mpr (hstable message hmem)

theorem reread_of_read (hsettled : Settled platform) {text : String} (context : String)
    (h : (validateCorpusText platform text).issues = []) :
    ∃ again, serializeCorpus platform (validateCorpusText platform text).messages context =
        .ok again ∧
      validateCorpusText platform again = ⟨(validateCorpusText platform text).messages, []⟩ := by
  obtain ⟨hwell, hmessages⟩ := wellFormed_of_read hsettled h
  have hlinked : Linked (validateCorpusText platform text).messages := ⟨hwell.ids, hwell.replies⟩
  have hsorted : sortMessages (validateCorpusText platform text).messages =
      (validateCorpusText platform text).messages := by
    refine List.mergeSort_of_pairwise (hwell.canonical.imp fun hle => ?_)
    exact bne_iff_ne.mpr (compareMessages_ne_gt_iff.mpr hle)
  have hwritten : serializeCorpus platform (validateCorpusText platform text).messages context =
      .ok (corpusText (sortMessages (validateCorpusText platform text).messages)) :=
    serializeCorpus_eq_ok_iff.mpr ⟨⟨hlinked, fun message hmem => (hmessages message hmem).1⟩, rfl⟩
  refine ⟨_, hwritten, ?_⟩
  rw [(validateCorpusText_eq_iff hwritten).mpr fun message hmem => (hmessages message hmem).2,
    hsorted]

/-- A corpus that can be written is read as its messages in canonical order, and written to the same
text in any order and once it was read, exactly when the schema of URLs returns each of its URLs as
it is; and a text without an issue is written to a text that is read as the same messages. -/
theorem corpus_roundTrips (platform : Platform) (context : String) (hsettled : Settled platform) :
    (∀ messages text, serializeCorpus platform messages context = .ok text →
      ((validateCorpusText platform text = ⟨sortMessages messages, []⟩ ∧
          (∀ permuted, permuted.Perm messages →
            serializeCorpus platform permuted context = .ok text) ∧
          serializeCorpus platform (validateCorpusText platform text).messages context =
            .ok text) ↔
        ∀ message ∈ messages, StableUrls platform message)) ∧
    ∀ text, (validateCorpusText platform text).issues = [] →
      ∃ again, serializeCorpus platform (validateCorpusText platform text).messages context =
          .ok again ∧
        validateCorpusText platform again =
          ⟨(validateCorpusText platform text).messages, []⟩ := by
  refine ⟨fun messages text htext => ?_, fun text hissues => reread_of_read hsettled context hissues⟩
  constructor
  · rintro ⟨hread, -, -⟩
    exact (validateCorpusText_eq_iff htext).mp hread
  · intro hstable
    have hread := (validateCorpusText_eq_iff htext).mpr hstable
    refine ⟨hread, fun permuted hperm => serializeCorpus_perm htext hperm, ?_⟩
    rw [hread]
    exact serializeCorpus_perm htext (sortMessages_perm messages)

/-- A platform whose schema of URLs drops the blanks around a URL. -/
def trimming : Platform where
  parseUrl _ := none
  readUrl url :=
    let trimmed := trim url.toList
    if "https://".toList.isPrefixOf trimmed then some (String.ofList trimmed) else none
  parseDate _ := none
  syntaxError _ := ""

def pictured (url : String) : IngestMessage where
  id := "m1"
  author := "ada"
  ts := "2026-01-01T00:00:00.000Z"
  text := ""
  attachments := some [⟨"a.png", url, none⟩]

theorem settled_trimming : Settled trimming := by
  intro url read h
  unfold trimming at h ⊢
  dsimp only at h ⊢
  split at h
  · rename_i hhttps
    cases h
    rw [String.toList_ofList (l := trim url.toList), trim_trim]
    exact if_pos hhttps
  · cases h

def answered : IngestMessage where
  id := "m2"
  author := "bob"
  ts := "2026-01-01T00:00:01.000Z"
  text := "nice"
  replyTo := some "m1"

theorem pictured_first (url : String) :
    sortMessages [answered, pictured url] = [pictured url, answered] := by
  have hlater : (compareMessages answered (pictured url) != .gt) = false := by
    have hts : lt "2026-01-01T00:00:01.000Z" "2026-01-01T00:00:00.000Z" = false := by decide +kernel
    simp [compareMessages, answered, pictured, hts]
  simp [sortMessages, List.mergeSort, List.MergeSort.Internal.splitInTwo, hlater]

/-- A reply comes back behind the picture that it answers. -/
theorem corpus_roundTrips_pictured :
    validateCorpusText trimming (corpusText [pictured "https://example.com/a.png", answered]) =
      ⟨sortMessages [answered, pictured "https://example.com/a.png"], []⟩ := by
  refine (((corpus_roundTrips trimming "corpus" settled_trimming).1
    [answered, pictured "https://example.com/a.png"] _ ?_).mpr ?_).1
  · unfold serializeCorpus
    rw [pictured_first]
    decide +kernel
  · intro message hmem attachments hattachments attachment hattachment
    rcases List.mem_cons.mp hmem with rfl | hmem
    · cases hattachments
    · cases List.mem_singleton.mp hmem
      cases hattachments
      cases List.mem_singleton.mp hattachment
      decide +kernel

theorem blank_behind_url_unread :
    serializeCorpus trimming [pictured "https://example.com/a.png "] "corpus" =
        .ok (corpusText [pictured "https://example.com/a.png "]) ∧
      validateCorpusText trimming (corpusText [pictured "https://example.com/a.png "]) =
        ⟨[pictured "https://example.com/a.png"], []⟩ ∧
      [pictured "https://example.com/a.png"] ≠
        sortMessages [pictured "https://example.com/a.png "] ∧
      serializeCorpus trimming [pictured "https://example.com/a.png"] "corpus" ≠
        .ok (corpusText [pictured "https://example.com/a.png "]) := by
  have hwritten : serializeCorpus trimming [pictured "https://example.com/a.png "] "corpus" =
      .ok (corpusText [pictured "https://example.com/a.png "]) := by
    decide +kernel
  refine ⟨hwritten, ?_, by decide +kernel, by decide +kernel⟩
  rw [validateCorpusText_of_serialized hwritten]
  decide +kernel

end Ingest
