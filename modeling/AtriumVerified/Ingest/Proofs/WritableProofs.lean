import AtriumVerified.Ingest.Markdown
import AtriumVerified.Ingest.Proofs.AttachmentProofs
import AtriumVerified.Ingest.Proofs.CorpusProofs
import AtriumVerified.Ingest.Proofs.ThreadProofs

/-!
# What is converted and cannot be written

The checks of a corpus against the conversions. Ids and replies of a transcript are always in order;
a picture whose URL is not absolute, and a time that is outside the four-digit years once it is in
UTC, are converted all the same.
-/

namespace Ingest

open Js Core Except

/-! ## Positional ids -/

section Ids

variable {sourceId : String} {width a b : Nat}

theorem utf16_append (first second : String) :
    utf16 (first ++ second) = utf16 first ++ utf16 second := by
  unfold utf16
  rw [String.toList_append, List.flatMap_append]

theorem utf16_padded (width n : Nat) :
    utf16 (String.ofList (padded width n)) = (padded width n).map Char.toNat := by
  refine utf16_ofList fun c hc => ?_
  have hrange := isDigit_iff.mp (padded_digits width n c hc)
  omega

theorem idFor_lt_iff (hwidth : 0 < width) (ha : a < 10 ^ width) (hb : b < 10 ^ width) :
    utf16 (idFor sourceId width a) < utf16 (idFor sourceId width b) ↔ a < b := by
  have hlength : (padded width a).length = (padded width b).length := by
    rw [padded_length width a hwidth ha, padded_length width b hwidth hb]
  have hdigits := digits_lt_iff hlength (padded_digits width a) (padded_digits width b)
  rw [numberOf_padded, numberOf_padded] at hdigits
  unfold idFor
  rw [utf16_append, utf16_append _ (String.ofList (padded width b)), append_lt_append_iff rfl,
    utf16_padded, utf16_padded, hdigits]
  simp

theorem idFor_inj (hwidth : 0 < width) (ha : a < 10 ^ width) (hb : b < 10 ^ width)
    (h : idFor sourceId width a = idFor sourceId width b) : a = b := by
  have hab := @idFor_lt_iff sourceId _ _ _ hwidth ha hb
  have hba := @idFor_lt_iff sourceId _ _ _ hwidth hb ha
  rw [h] at hab hba
  have hnot : ¬ utf16 (idFor sourceId width b) < utf16 (idFor sourceId width b) := lt_irrefl _
  have hle := mt hab.mpr hnot
  have hge := mt hba.mpr hnot
  omega

theorem lt_ordinalWidth {ordinal count : Nat} (h : ordinal ≤ count) :
    ordinal < 10 ^ ordinalWidth count := by
  have htext : (toString count).toList = Nat.toDigits 10 count := Nat.toList_repr
  have hcount : count < 10 ^ ordinalWidth count := by
    refine (Nat.length_toDigits_le_iff (by decide) ?_).mp ?_
    · unfold ordinalWidth
      omega
    · rw [← htext, String.length_toList]
      exact Nat.le_max_right _ _
  omega

end Ids

/-! ## Blocks -/

section Blocks

variable {platform : Platform} {defaultOffset : String} {reading : Reading}

/-- The header of a block had an author, and a time that could be read. -/
def Block.Headed (block : Block) : Prop :=
  block.author ≠ "" ∧ ∀ ts, block.ts = some ts → ∃ ms, ts = toISOString ms

def Reading.Headed (reading : Reading) : Prop := ∀ block ∈ reading.allBlocks, block.Headed

theorem readHeader_ts {line : String} {header : Header}
    (h : readHeader platform defaultOffset line = some header) :
    ∀ ts, header.ts = some ts → ∃ ms, ts = toISOString ms := by
  obtain ⟨candidate, -, h⟩ := Option.bind_eq_some_iff.mp h
  dsimp only at h
  split at h
  · split at h
    · cases h
    · cases h
      rintro ts ⟨⟩
  · split at h
    · rename_i ts hts
      cases h
      rintro _ ⟨⟩
      obtain ⟨ms, -, hms⟩ := normalizeTimestamp_ok hts
      exact ⟨ms, hms⟩
    · cases h
      rintro ts ⟨⟩

theorem Reading.Headed.push (h : reading.Headed) (line : String) : (reading.push line).Headed := by
  intro block hblock
  rcases List.mem_append.mp hblock with hblock | hblock
  · exact h block (List.mem_append_left _ hblock)
  · obtain ⟨current, hcurrent, rfl⟩ := Option.map_eq_some_iff.mp (Option.mem_toList.mp hblock)
    exact h current (List.mem_append_right _ (Option.mem_toList.mpr hcurrent))

theorem Reading.Headed.start (h : reading.Headed) (lineNumber : Nat) {header : Header}
    (hts : ∀ ts, header.ts = some ts → ∃ ms, ts = toISOString ms) :
    (reading.start lineNumber header).Headed := by
  intro block hblock
  unfold Reading.start at hblock
  dsimp only at hblock
  split at hblock
  · rcases List.mem_append.mp hblock with hblock | hblock
    · exact h block hblock
    · cases hblock
  · rename_i hauthor
    rcases List.mem_append.mp hblock with hblock | hblock
    · exact h block hblock
    · cases List.mem_singleton.mp hblock
      exact ⟨hauthor, hts⟩

theorem Reading.Headed.step (h : reading.Headed) (lineNumber : Nat) (line : String) :
    (reading.step platform defaultOffset lineNumber line).Headed := by
  unfold Reading.step
  split
  · have hinside : Reading.Headed { reading with insideFence := !reading.insideFence } := h
    exact hinside.push line
  split
  · exact h.push line
  split
  · exact h.push line
  · rename_i header hheader
    exact h.start lineNumber (readHeader_ts hheader)

theorem Reading.Headed.run (h : reading.Headed) (lineNumber : Nat) (lines : List String) :
    (reading.run platform defaultOffset lineNumber lines).Headed := by
  induction lines generalizing reading lineNumber with
  | nil => exact h
  | cons line rest ih => exact ih (h.step lineNumber line) (lineNumber + 1)

theorem readBlocks_headed (source : String) (options : MarkdownOptions) :
    (readBlocks platform source options).Headed :=
  Reading.Headed.run (fun _ hblock => by cases hblock) _ _

end Blocks

/-! ## Emission -/

section Emission

variable [Unicode] {platform : Platform} {sourceId : String} {width : Nat}
variable {defaultTs previousTs : Option Timestamp} {ordinal : Nat} {blocks : List Block}

theorem emit_cons {block : Block} {rest : List Block}
    (h : (emit platform sourceId width defaultTs ordinal previousTs (block :: rest)).1 = []) :
    ∃ ts, (block.ts.or previousTs).or defaultTs = some ts ∧
      (∀ reply, block.replyOrdinal = some reply → 1 ≤ reply ∧ reply < ordinal) ∧
      (emit platform sourceId width defaultTs (ordinal + 1) (some ts) rest).1 = [] ∧
      (emit platform sourceId width defaultTs ordinal previousTs (block :: rest)).2 =
        ⟨block.message platform sourceId width ordinal ts, ordinal, block.line⟩ ::
          (emit platform sourceId width defaultTs (ordinal + 1) (some ts) rest).2 := by
  rw [emit] at h
  split at h
  · cases h
  · rename_i ts hts
    dsimp only at h
    split at h
    · cases h
    · rename_i hreply
      refine ⟨ts, hts, fun reply heq => ?_, h, ?_⟩
      · have hnot := Option.filter_eq_none_iff.mp hreply reply heq
        simp only [Bool.or_eq_true, decide_eq_true_eq, not_or] at hnot
        omega
      · rw [emit, hts]
        dsimp only
        rw [hreply]

theorem emit_getElem?
    (h : (emit platform sourceId width defaultTs ordinal previousTs blocks).1 = []) {k : Nat} {emitted : Emitted}
    (hk : (emit platform sourceId width defaultTs ordinal previousTs blocks).2[k]? = some emitted) :
    ∃ block ts, blocks[k]? = some block ∧
      emitted.message = block.message platform sourceId width (ordinal + k) ts ∧
      ∀ reply, block.replyOrdinal = some reply → 1 ≤ reply ∧ reply < ordinal + k := by
  induction blocks generalizing ordinal previousTs k with
  | nil => cases hk
  | cons block rest ih =>
    obtain ⟨ts, -, hreply, hrest, hemit⟩ := emit_cons h
    rw [hemit] at hk
    cases k with
    | zero =>
      cases hk
      exact ⟨block, ts, rfl, rfl, hreply⟩
    | succ k =>
      obtain ⟨other, otherTs, hblock, hmessage, hother⟩ := ih hrest hk
      have hordinal : ordinal + 1 + k = ordinal + (k + 1) := by omega
      rw [hordinal] at hmessage hother
      exact ⟨other, otherTs, hblock, hmessage, hother⟩

theorem emit_length
    (h : (emit platform sourceId width defaultTs ordinal previousTs blocks).1 = []) :
    (emit platform sourceId width defaultTs ordinal previousTs blocks).2.length =
      blocks.length := by
  induction blocks generalizing ordinal previousTs with
  | nil => rfl
  | cons block rest ih =>
    obtain ⟨ts, -, -, hrest, hemit⟩ := emit_cons h
    rw [hemit, List.length_cons, ih hrest, List.length_cons]

/-- What holds of the times of the blocks, and of the default where the first block has none, holds
of the times of the messages. -/
theorem emit_times {P : Timestamp → Prop} (hprevious : ∀ ts, previousTs = some ts → P ts)
    (h : (emit platform sourceId width defaultTs ordinal previousTs blocks).1 = []) :
    (∀ emitted ∈ (emit platform sourceId width defaultTs ordinal previousTs blocks).2,
        P emitted.message.ts) ↔
      (∀ block ∈ blocks, ∀ ts, block.ts = some ts → P ts) ∧
        (previousTs = none → (∃ first, blocks.head? = some first ∧ first.ts = none) →
          ∀ ts, defaultTs = some ts → P ts) := by
  induction blocks generalizing ordinal previousTs with
  | nil => simp [emit]
  | cons block rest ih =>
    obtain ⟨ts, hts, -, hrest, hemit⟩ := emit_cons h
    have hmessage : (block.message platform sourceId width ordinal ts).ts = ts := rfl
    have hfirst : P ts ↔ (∀ own, block.ts = some own → P own) ∧
        (previousTs = none → block.ts = none → ∀ ts, defaultTs = some ts → P ts) := by
      cases hown : block.ts with
      | some own =>
        rw [hown] at hts
        cases hts
        simp
      | none =>
        cases hbefore : previousTs with
        | some before =>
          rw [hown, hbefore] at hts
          cases hts
          simp [hprevious ts hbefore]
        | none =>
          rw [hown, hbefore] at hts
          simp [show defaultTs = some ts from hts]
    rw [hemit, List.forall_mem_cons, List.forall_mem_cons, hmessage]
    simp only [List.head?_cons, Option.some.injEq, exists_eq_left']
    constructor
    · rintro ⟨hp, hall⟩
      have hlater := (ih (by rintro _ ⟨⟩; exact hp) hrest).mp hall
      exact ⟨⟨(hfirst.mp hp).1, hlater.1⟩, (hfirst.mp hp).2⟩
    · rintro ⟨⟨hown, hblocks⟩, hdefault⟩
      have hp := hfirst.mpr ⟨hown, hdefault⟩
      exact ⟨hp, (ih (by rintro _ ⟨⟩; exact hp) hrest).mpr ⟨hblocks, fun hnone => by cases hnone⟩⟩

end Emission

/-! ## Transcripts -/

section Fit

variable [Unicode] {platform : Platform}

theorem attachments_taken_iff (hplatform : TakesHttp platform) {text : String} :
    (∀ attachments, (if (extractAttachments platform text).isEmpty then none
        else some (extractAttachments platform text)) = some attachments → attachments ≠ [] ∧
          ∀ attachment ∈ attachments, FitAttachment platform attachment) ↔
      PicturesTaken platform text := by
  rw [← attachments_fit_iff hplatform]
  split
  · rename_i hempty
    rw [List.isEmpty_iff.mp hempty]
    simp
  · rename_i hne
    constructor
    · exact fun h => (h _ rfl).2
    · rintro h _ ⟨⟩
      exact ⟨fun hnil => hne (List.isEmpty_iff.mpr hnil), h⟩

end Fit

/-- A transcript can be written: the times of its headers, and the default where the first message
has none, lie in the years 0 to 9999, and the pictures of its messages are taken. -/
structure TranscriptFits (platform : Platform) [Unicode] (source : String)
    (options : MarkdownOptions) : Prop where
  times : ∀ block ∈ (readBlocks platform source options).allBlocks, ∀ ms,
    block.ts = some (toISOString ms) → PlainYear ms
  defaultTime : ∀ value ms, options.defaultTs = some value → momentOf platform value = some ms →
    (∃ first, (readBlocks platform source options).allBlocks.head? = some first ∧
      first.ts = none) → PlainYear ms
  pictures : ∀ block ∈ (readBlocks platform source options).allBlocks,
    PicturesTaken platform block.text

section Transcripts

variable {platform : Platform}

theorem readDefaultTs_eq {defaultTs : Option String} {ts : Option Timestamp}
    (h : readDefaultTs platform defaultTs = ([], ts)) :
    (defaultTs = none ∧ ts = none) ∨ ∃ value ms, defaultTs = some value ∧
      momentOf platform value = some ms ∧ ts = some (toISOString ms) := by
  unfold readDefaultTs at h
  cases defaultTs with
  | none =>
    cases h
    exact Or.inl ⟨rfl, rfl⟩
  | some value =>
    rw [Option.map_some] at h
    cases hvalue : normalizeTimestamp platform value with
    | error message =>
      rw [hvalue] at h
      cases h
    | ok normalized =>
      rw [hvalue] at h
      cases h
      obtain ⟨ms, hms, rfl⟩ := normalizeTimestamp_ok hvalue
      exact Or.inr ⟨value, ms, rfl, hms, rfl⟩

theorem replyOrderIssues_ts {emitted : List Emitted} (h : replyOrderIssues emitted = [])
    (hids : (emitted.map Emitted.message).Pairwise fun a b => a.id ≠ b.id)
    {message other : IngestMessage} (hmessage : message ∈ emitted.map Emitted.message)
    (hother : other ∈ emitted.map Emitted.message) (hreply : message.replyTo = some other.id) :
    ¬ lt message.ts other.ts = true := by
  obtain ⟨one, hone, rfl⟩ := List.mem_map.mp hmessage
  have hnone : replyOrderIssue (emitted.map Emitted.message) one = none := by
    have hall := List.filterMap_eq_nil_iff.mp h
    exact hall one hone
  have hsome : ((emitted.map Emitted.message).reverse.find? fun m => m.id == other.id).isSome :=
    List.find?_isSome.mpr ⟨other, List.mem_reverse.mpr hother, beq_self_eq_true _⟩
  obtain ⟨found, hfound⟩ := Option.isSome_iff_exists.mp hsome
  have hid : found.id = other.id := by simpa using List.find?_some hfound
  have hmem := List.mem_reverse.mp (List.mem_of_find?_eq_some hfound)
  have hsame : found = other :=
    List.inj_on_of_nodup_map (List.pairwise_map.mpr hids) hmem hother hid
  rw [replyOrderIssue, hreply, Option.bind_some, hfound, Option.bind_some, hsame] at hnone
  intro hlt
  rw [if_pos hlt] at hnone
  cases hnone

variable [Unicode] {source : String} {options : MarkdownOptions} {messages : List IngestMessage}

theorem markdownToMessages_emitted (h : markdownToMessages platform source options = .ok messages) :
    ∃ defaultTs, readDefaultTs platform options.defaultTs = ([], defaultTs) ∧
      let emission := emit platform options.sourceId
        (ordinalWidth (readBlocks platform source options).allBlocks.length) defaultTs 1 none
        (readBlocks platform source options).allBlocks
      emission.1 = [] ∧ replyOrderIssues emission.2 = [] ∧
        emission.2.map Emitted.message = messages := by
  unfold markdownToMessages at h
  dsimp only at h
  split at h
  · cases h
  · split at h
    · rename_i hissues
      have hnil := List.isEmpty_iff.mp hissues
      simp only [List.append_eq_nil_iff] at hnil
      obtain ⟨⟨⟨hdefault, -⟩, hemit⟩, horder⟩ := hnil
      exact ⟨_, Prod.ext hdefault rfl, hemit, horder, Except.ok.inj h⟩
    · cases h

theorem markdownToMessages_getElem?
    (h : markdownToMessages platform source options = .ok messages) {k : Nat}
    {message : IngestMessage} (hk : messages[k]? = some message) :
    let blocks := (readBlocks platform source options).allBlocks
    k < blocks.length ∧ ∃ block ts, blocks[k]? = some block ∧
      message = block.message platform options.sourceId (ordinalWidth blocks.length) (k + 1) ts ∧
      ∀ reply, block.replyOrdinal = some reply → 1 ≤ reply ∧ reply ≤ k := by
  obtain ⟨defaultTs, -, hissues, -, rfl⟩ := markdownToMessages_emitted h
  intro blocks
  rw [List.getElem?_map] at hk
  obtain ⟨one, hone, rfl⟩ := Option.map_eq_some_iff.mp hk
  obtain ⟨block, ts, hblock, hmessage, hreply⟩ := emit_getElem? hissues hone
  rw [Nat.add_comm 1 k] at hmessage hreply
  refine ⟨(List.getElem?_eq_some_iff.mp hblock).1, block, ts, hblock, hmessage, ?_⟩
  intro reply heq
  have hbounds := hreply reply heq
  omega

theorem markdownToMessages_length (h : markdownToMessages platform source options = .ok messages) :
    messages.length = (readBlocks platform source options).allBlocks.length := by
  obtain ⟨defaultTs, -, hissues, -, rfl⟩ := markdownToMessages_emitted h
  rw [List.length_map]
  exact emit_length hissues

/-- The ids and replies of a transcript are in order. -/
theorem markdownToMessages_linked (h : markdownToMessages platform source options = .ok messages) :
    Linked messages := by
  have hwidth : 0 < ordinalWidth (readBlocks platform source options).allBlocks.length := by
    unfold ordinalWidth
    omega
  have hids : messages.Pairwise fun a b => a.id ≠ b.id := by
    rw [List.pairwise_iff_getElem]
    intro i j hi hj hij heq
    obtain ⟨hilt, block, ts, -, hfirst, -⟩ :=
      markdownToMessages_getElem? h (List.getElem?_eq_getElem hi)
    obtain ⟨hjlt, other, otherTs, -, hsecond, -⟩ :=
      markdownToMessages_getElem? h (List.getElem?_eq_getElem hj)
    rw [hfirst, hsecond] at heq
    have hsame := idFor_inj hwidth (lt_ordinalWidth hilt) (lt_ordinalWidth hjlt) heq
    omega
  refine ⟨hids, fun message hmessage parent hparent => ?_⟩
  obtain ⟨k, hk⟩ := List.mem_iff_getElem?.mp hmessage
  obtain ⟨hlt, block, ts, -, hblock, hbounds⟩ := markdownToMessages_getElem? h hk
  rw [hblock] at hparent
  obtain ⟨reply, hreply, rfl⟩ := Option.map_eq_some_iff.mp hparent
  obtain ⟨hpos, hle⟩ := hbounds reply hreply
  have hlength := markdownToMessages_length h
  have hindex : reply - 1 < messages.length := by omega
  obtain ⟨-, otherBlock, otherTs, -, hother, -⟩ :=
    markdownToMessages_getElem? h (List.getElem?_eq_getElem hindex)
  have hordinal : reply - 1 + 1 = reply := by omega
  rw [hordinal] at hother
  have hid : messages[reply - 1].id = idFor options.sourceId
      (ordinalWidth (readBlocks platform source options).allBlocks.length) reply := by
    rw [hother]
    rfl
  have hmem : messages[reply - 1] ∈ messages := List.getElem_mem hindex
  refine ⟨messages[reply - 1], hmem, hid, messageKey_lt_iff.mpr ?_⟩
  have hmessageId : message.id = idFor options.sourceId
      (ordinalWidth (readBlocks platform source options).allBlocks.length) (k + 1) := by
    rw [hblock]
    rfl
  have hreplyTo : message.replyTo = some messages[reply - 1].id := by
    rw [hid, hblock]
    exact congrArg (Option.map _) hreply
  have hlate : ¬ lt message.ts messages[reply - 1].ts = true := by
    obtain ⟨defaultTs, -, -, horder, rfl⟩ := markdownToMessages_emitted h
    exact replyOrderIssues_ts horder hids hmessage hmem hreplyTo
  by_cases heq : messages[reply - 1].ts = message.ts
  · refine Or.inr ⟨heq, lt_iff.mpr ?_⟩
    have hreplyLt := lt_ordinalWidth (hle.trans hlt.le)
    rw [hid, hmessageId, idFor_lt_iff hwidth hreplyLt (lt_ordinalWidth hlt)]
    omega
  · refine Or.inl (lt_iff.mpr ?_)
    exact lt_of_le_of_ne (not_lt.mp fun hlt => hlate (lt_iff.mpr hlt)) fun h => heq (utf16_inj.mp h)

theorem transcript_times_iff (h : markdownToMessages platform source options = .ok messages) :
    (∀ message ∈ messages, canonicalTimestamp message.ts = true) ↔
      (∀ block ∈ (readBlocks platform source options).allBlocks, ∀ ms,
          block.ts = some (toISOString ms) → PlainYear ms) ∧
        ∀ value ms, options.defaultTs = some value → momentOf platform value = some ms →
          (∃ first, (readBlocks platform source options).allBlocks.head? = some first ∧
            first.ts = none) → PlainYear ms := by
  obtain ⟨defaultTs, hdefault, hissues, -, rfl⟩ := markdownToMessages_emitted h
  rw [List.forall_mem_map, emit_times (P := fun ts => canonicalTimestamp ts = true)
    (fun _ hnone => by cases hnone) hissues]
  refine and_congr (forall₂_congr fun block hblock => ?_) ?_
  · constructor
    · intro hcanonical ms hms
      exact canonicalTimestamp_toISOString_iff.mp (hcanonical _ hms)
    · intro hyear ts hts
      obtain ⟨ms, rfl⟩ := (readBlocks_headed source options block hblock).2 ts hts
      exact canonicalTimestamp_toISOString_iff.mpr (hyear ms hts)
  · rcases readDefaultTs_eq hdefault with ⟨hnone, rfl⟩ | ⟨value, ms, hvalue, hms, rfl⟩
    · simp [hnone]
    · constructor
      · intro hcanonical other otherMs hother hotherMs hfirst
        cases hvalue.symm.trans hother
        cases hms.symm.trans hotherMs
        exact canonicalTimestamp_toISOString_iff.mp (hcanonical rfl hfirst _ rfl)
      · rintro hyear - hfirst _ ⟨⟩
        exact canonicalTimestamp_toISOString_iff.mpr (hyear value ms hvalue hms hfirst)

/-- A transcript that is converted is written exactly when it fits. -/
theorem transcript_written_iff (hplatform : TakesHttp platform)
    (hids : ∀ ordinal, 1 ≤ ordinal →
      ordinal ≤ (readBlocks platform source options).allBlocks.length →
      isId (idFor options.sourceId
        (ordinalWidth (readBlocks platform source options).allBlocks.length) ordinal) = true)
    (h : markdownToMessages platform source options = .ok messages) (context : String) :
    (∃ text, serializeCorpus platform messages context = .ok text) ↔
      TranscriptFits platform source options := by
  have hfit : ∀ message ∈ messages, (FitMessage platform message ↔
      canonicalTimestamp message.ts = true ∧ PicturesTaken platform message.text) := by
    intro message hmem
    obtain ⟨k, hk⟩ := List.mem_iff_getElem?.mp hmem
    obtain ⟨hlt, block, ts, hblock, rfl, hreply⟩ := markdownToMessages_getElem? h hk
    constructor
    · exact fun hfit => ⟨hfit.ts, (attachments_taken_iff hplatform).mp hfit.attachments⟩
    · rintro ⟨hts, hpictures⟩
      refine ⟨hids (k + 1) (Nat.le_add_left 1 k) hlt, ?_, hts, ?_,
        (attachments_taken_iff hplatform).mpr hpictures⟩
      · exact (readBlocks_headed source options block (List.mem_of_getElem? hblock)).1
      · intro parent hparent
        obtain ⟨reply, hreplyTo, rfl⟩ := Option.map_eq_some_iff.mp hparent
        obtain ⟨hpos, hle⟩ := hreply reply hreplyTo
        exact hids reply hpos (by omega)
  have hpictures : (∀ message ∈ messages, PicturesTaken platform message.text) ↔
      ∀ block ∈ (readBlocks platform source options).allBlocks,
        PicturesTaken platform block.text := by
    constructor
    · intro hall block hblock
      obtain ⟨k, hk⟩ := List.mem_iff_getElem?.mp hblock
      have hlt : k < messages.length := by
        rw [markdownToMessages_length h]
        exact (List.getElem?_eq_some_iff.mp hk).1
      obtain ⟨-, other, ts, hother, hmessage, -⟩ :=
        markdownToMessages_getElem? h (List.getElem?_eq_getElem hlt)
      cases hk.symm.trans hother
      have htaken := hall messages[k] (List.getElem_mem hlt)
      rwa [hmessage] at htaken
    · intro hall message hmem
      obtain ⟨k, hk⟩ := List.mem_iff_getElem?.mp hmem
      obtain ⟨-, block, ts, hblock, rfl, -⟩ := markdownToMessages_getElem? h hk
      exact hall block (List.mem_of_getElem? hblock)
  have hwritten : (∃ text, serializeCorpus platform messages context = .ok text) ↔
      ∀ message ∈ messages, FitMessage platform message := by
    simp [serializeCorpus_eq_ok_iff, markdownToMessages_linked h]
  rw [hwritten, forall₂_congr hfit, forall₂_and, transcript_times_iff h, hpictures]
  exact ⟨fun ⟨⟨htimes, hdefault⟩, hall⟩ => ⟨htimes, hdefault, hall⟩,
    fun hfits => ⟨⟨hfits.times, hfits.defaultTime⟩, hfits.pictures⟩⟩

end Transcripts

/-! ## Authors of threads -/

section Authors

variable {client : GitHubClient} {ref : ThreadRef} {value : Option Json}

theorem parseAnswer_ok {α : Type} {schema : Schema.Reader α} {answer : Except String Json}
    {read : α} (h : parseAnswer schema answer = .ok read) : ∃ value, schema value = .ok read := by
  unfold parseAnswer at h
  split at h
  · cases h
  · split at h
    · rename_i found hfound
      cases h
      exact ⟨_, hfound⟩
    · cases h

theorem authorOf_ne_empty {user : Option String} (h : userSchema value = .ok user) :
    authorOf user ≠ "" := by
  cases user with
  | none => decide
  | some login =>
    obtain ⟨_, hobject⟩ := Schema.nullish_of_ok h
    obtain ⟨fields, hlogin⟩ := Schema.object_of_ok hobject
    rw [Schema.field_eq_ok] at hlogin
    rw [Schema.string_of_ok hlogin] at hlogin
    exact (filled_eq_ok_iff.mp hlogin).1

theorem issue_author {issue : RestIssue} (h : restIssueSchema value = .ok issue) :
    authorOf issue.user ≠ "" := by
  obtain ⟨fields, hshape⟩ := Schema.object_of_ok h
  simp only [Schema.both_eq_ok, Schema.field_eq_ok] at hshape
  obtain ⟨_, _, ⟨_, _, ⟨_, user, ⟨_, _, -, -, rfl⟩, huser, rfl⟩, -, rfl⟩, -, rfl⟩ := hshape
  exact authorOf_ne_empty huser

theorem comment_author {comments : List RestComment} (h : restCommentsSchema value = .ok comments) :
    ∀ comment ∈ comments, authorOf comment.user ≠ "" := by
  intro comment hmem
  obtain ⟨json, hobject⟩ := Schema.array_of_ok h comment hmem
  obtain ⟨fields, hshape⟩ := Schema.object_of_ok hobject
  simp only [Schema.both_eq_ok, Schema.field_eq_ok] at hshape
  obtain ⟨_, _, ⟨_, user, ⟨_, _, -, -, rfl⟩, huser, rfl⟩, -, rfl⟩ := hshape
  exact authorOf_ne_empty huser

theorem reply_author {fields : List (String × Json)} {reply : DiscussionReply}
    (h : readReply fields = .ok reply) : authorOf reply.author ≠ "" := by
  unfold readReply at h
  simp only [Schema.both_eq_ok, Schema.field_eq_ok] at h
  obtain ⟨_, _, ⟨_, author, ⟨_, _, ⟨_, _, -, -, rfl⟩, -, rfl⟩, hauthor, rfl⟩, -, rfl⟩ := h
  exact authorOf_ne_empty hauthor

theorem connection_nodes {α : Type} {schema : Schema.Reader α} {page : Connection α}
    (h : connectionSchema schema value = .ok page) :
    ∀ node ∈ page.nodes, ∃ json, schema (some json) = .ok node := by
  obtain ⟨fields, hshape⟩ := Schema.object_of_ok h
  simp only [Schema.both_eq_ok, Schema.field_eq_ok] at hshape
  obtain ⟨_, nodes, ⟨_, _, -, -, rfl⟩, hnodes, rfl⟩ := hshape
  exact Schema.array_of_ok hnodes

theorem inside_ok {α : Type} {key : String} {schema : Schema.Reader α} {read : α}
    (h : inside key schema value = .ok read) : ∃ value, schema value = .ok read := by
  obtain ⟨fields, hfield⟩ := Schema.object_of_ok h
  exact ⟨_, Schema.field_eq_ok.mp hfield⟩

theorem discussion_authors {discussion : Discussion}
    (h : discussionResponseSchema value = .ok discussion) :
    authorOf discussion.author ≠ "" ∧ ∀ node ∈ discussion.comments.nodes,
      authorOf node.author ≠ "" ∧ ∀ reply ∈ node.replies.nodes, authorOf reply.author ≠ "" := by
  obtain ⟨_, h⟩ := inside_ok h
  obtain ⟨_, h⟩ := inside_ok h
  obtain ⟨_, h⟩ := inside_ok h
  obtain ⟨fields, hshape⟩ := Schema.object_of_ok h
  simp only [Schema.both_eq_ok, Schema.field_eq_ok] at hshape
  obtain ⟨_, comments, ⟨_, _, ⟨_, author, ⟨_, _, -, -, rfl⟩, hauthor, rfl⟩, -, rfl⟩, hcomments,
    rfl⟩ := hshape
  refine ⟨authorOf_ne_empty hauthor, fun node hnode => ?_⟩
  obtain ⟨_, hobject⟩ := connection_nodes hcomments node hnode
  obtain ⟨_, hnodeShape⟩ := Schema.object_of_ok hobject
  simp only [Schema.both_eq_ok, Schema.field_eq_ok] at hnodeShape
  obtain ⟨comment, replies, hcomment, hreplies, rfl⟩ := hnodeShape
  refine ⟨reply_author hcomment, fun reply hreply => ?_⟩
  obtain ⟨_, hobject⟩ := connection_nodes hreplies reply hreply
  obtain ⟨_, hread⟩ := Schema.object_of_ok hobject
  exact reply_author hread

theorem replies_authors {page : Connection DiscussionReply}
    (h : repliesResponseSchema value = .ok page) :
    ∀ reply ∈ page.nodes, authorOf reply.author ≠ "" := by
  obtain ⟨_, h⟩ := inside_ok h
  obtain ⟨_, h⟩ := inside_ok h
  obtain ⟨_, h⟩ := inside_ok h
  intro reply hreply
  obtain ⟨_, hobject⟩ := connection_nodes h reply hreply
  obtain ⟨_, hread⟩ := Schema.object_of_ok hobject
  exact reply_author hread

end Authors

/-! ## Threads -/

section Threads

theorem forall₂_mem {α β : Type} {R : α → β → Prop} {as : List α} {bs : List β}
    (h : List.Forall₂ R as bs) :
    (∀ a ∈ as, ∃ b ∈ bs, R a b) ∧ ∀ b ∈ bs, ∃ a ∈ as, R a b := by
  induction h with
  | nil => exact ⟨fun _ h => (by cases h), fun _ h => (by cases h)⟩
  | @cons a b as bs hab _ ih =>
    constructor
    · rintro a (_ | ⟨_, ha⟩)
      · exact ⟨b, List.mem_cons_self, hab⟩
      · obtain ⟨b, hb, hab⟩ := ih.1 a ha
        exact ⟨b, List.mem_cons_of_mem _ hb, hab⟩
    · rintro b (_ | ⟨_, hb⟩)
      · exact ⟨a, List.mem_cons_self, hab⟩
      · obtain ⟨a, ha, hab⟩ := ih.2 b hb
        exact ⟨a, List.mem_cons_of_mem _ ha, hab⟩

variable [Unicode] {platform : Platform} {items : List ThreadItem} {messages : List IngestMessage}

def ThreadItem.key (platform : Platform) (item : ThreadItem) : List Nat ×ₗ List Nat :=
  toLex (utf16 (((momentOf platform item.ts).map toISOString).getD ""), utf16 item.id)

/-- An item can be written: its id is one, its time lies in the years 0 to 9999 and the pictures of
its text are taken. -/
structure ItemFits (platform : Platform) (item : ThreadItem) : Prop where
  id : isId item.id = true
  time : ∀ ms, momentOf platform item.ts = some ms → PlainYear ms
  pictures : PicturesTaken platform (item.body.getD "")

/-- Items can be written: each can, and replies come behind what they reply to. -/
structure ItemsFit (platform : Platform) (items : List ThreadItem) : Prop where
  each : ∀ item ∈ items, ItemFits platform item
  replies : ∀ item ∈ items, ∀ parent ∈ items, item.replyTo = some parent.id →
    parent.key platform < item.key platform

theorem toMessage_ok {item : ThreadItem} {message : IngestMessage}
    (h : toMessage platform item = .ok message) :
    ∃ ms, momentOf platform item.ts = some ms ∧ message = {
      id := item.id, author := item.author, ts := toISOString ms, text := item.body.getD ""
      replyTo := item.replyTo
      attachments :=
        if (extractAttachments platform (item.body.getD "")).isEmpty then none
        else some (extractAttachments platform (item.body.getD "")) } := by
  unfold toMessage at h
  dsimp only at h
  split at h
  · cases h
  · rename_i ts hts
    obtain ⟨ms, hms, rfl⟩ := normalizeTimestamp_ok hts
    cases h
    exact ⟨ms, hms, rfl⟩

theorem messageKey_of_item {item : ThreadItem} {message : IngestMessage}
    (h : toMessage platform item = .ok message) : messageKey message = item.key platform := by
  obtain ⟨ms, hms, rfl⟩ := toMessage_ok h
  rw [messageKey, ThreadItem.key, hms]
  rfl

/-- The replies of the messages are in order when those of the items are. -/
theorem linked_iff (hof : List.Forall₂ (fun item message => toMessage platform item = .ok message)
      items messages) (hdistinct : (messages.map (·.id)).Nodup)
    (hparents : ∀ item ∈ items, ∀ parent, item.replyTo = some parent →
      ∃ other ∈ items, other.id = parent) :
    Linked messages ↔ ∀ item ∈ items, ∀ parent ∈ items, item.replyTo = some parent.id →
      parent.key platform < item.key platform := by
  obtain ⟨hmessage, hitem⟩ := forall₂_mem hof
  constructor
  · intro h item hmem parent hparent hreply
    obtain ⟨message, hmessageMem, hok⟩ := hmessage item hmem
    obtain ⟨above, haboveMem, habove⟩ := hmessage parent hparent
    obtain ⟨ms, -, heq⟩ := toMessage_ok hok
    obtain ⟨aboveMs, -, heqAbove⟩ := toMessage_ok habove
    have hreplyTo : message.replyTo = some parent.id := by rw [heq]; exact hreply
    have haboveId : above.id = parent.id := by rw [heqAbove]
    obtain ⟨other, hother, hid, hlt⟩ := h.replies message hmessageMem parent.id hreplyTo
    have hsame : other = above :=
      List.inj_on_of_nodup_map hdistinct hother haboveMem (hid.trans haboveId.symm)
    rw [← messageKey_of_item hok, ← messageKey_of_item habove, ← hsame]
    exact hlt
  · intro h
    refine ⟨List.pairwise_map.mp hdistinct, fun message hmem parent hparent => ?_⟩
    obtain ⟨item, hitemMem, hok⟩ := hitem message hmem
    obtain ⟨ms, -, heq⟩ := toMessage_ok hok
    have hreply : item.replyTo = some parent := by rw [heq] at hparent; exact hparent
    obtain ⟨other, hother, rfl⟩ := hparents item hitemMem parent hreply
    obtain ⟨above, haboveMem, habove⟩ := hmessage other hother
    obtain ⟨aboveMs, -, heqAbove⟩ := toMessage_ok habove
    refine ⟨above, haboveMem, by rw [heqAbove], ?_⟩
    rw [messageKey_of_item hok, messageKey_of_item habove]
    exact h item hitemMem other hother hreply

/-- Items that were fetched are written exactly when they fit. -/
theorem items_written_iff (hplatform : TakesHttp platform)
    (hof : List.Forall₂ (fun item message => toMessage platform item = .ok message) items messages)
    (hdistinct : (messages.map (·.id)).Nodup) (hauthors : ∀ item ∈ items, item.author ≠ "")
    (hparents : ∀ item ∈ items, ∀ parent, item.replyTo = some parent →
      ∃ other ∈ items, other.id = parent) (context : String) :
    (∃ text, serializeCorpus platform messages context = .ok text) ↔ ItemsFit platform items := by
  obtain ⟨hmessage, hitem⟩ := forall₂_mem hof
  have hwritten : (∃ text, serializeCorpus platform messages context = .ok text) ↔
      Linked messages ∧ ∀ message ∈ messages, FitMessage platform message := by
    simp [serializeCorpus_eq_ok_iff]
  rw [hwritten, linked_iff hof hdistinct hparents]
  constructor
  · rintro ⟨hreplies, hfit⟩
    refine ⟨fun item hmem => ?_, hreplies⟩
    obtain ⟨message, hmessageMem, hok⟩ := hmessage item hmem
    obtain ⟨ms, hms, rfl⟩ := toMessage_ok hok
    have hone := hfit _ hmessageMem
    have hpictures := (attachments_taken_iff hplatform).mp hone.attachments
    refine ⟨hone.id, fun otherMs hother => ?_, hpictures⟩
    cases hms.symm.trans hother
    exact canonicalTimestamp_toISOString_iff.mp hone.ts
  · intro hfits
    refine ⟨hfits.replies, fun message hmem => ?_⟩
    obtain ⟨item, hitemMem, hok⟩ := hitem message hmem
    obtain ⟨ms, hms, rfl⟩ := toMessage_ok hok
    have hone := hfits.each item hitemMem
    refine ⟨hone.id, hauthors item hitemMem, ?_, fun parent hparent => ?_,
      (attachments_taken_iff hplatform).mpr hone.pictures⟩
    · exact canonicalTimestamp_toISOString_iff.mpr (hone.time ms hms)
    · obtain ⟨other, hother, rfl⟩ := hparents item hitemMem parent hparent
      exact (hfits.each other hother).id

variable {client : GitHubClient} {ref : ThreadRef}

def IssueItems (client : GitHubClient) (ref : ThreadRef) (items : List ThreadItem) : Prop :=
  ∃ issue, ∃ served : List RestComment,
    parseAnswer restIssueSchema (client.rest 0 (issuePath ref)) = .ok issue ∧
    (∀ comment ∈ served, AnsweredComment client ref comment) ∧
    items = issueItem ref issue :: served.map (commentItem ref)

def DiscussionItems (client : GitHubClient) (ref : ThreadRef) (items : List ThreadItem) : Prop :=
  ∃ discussion, ∃ served : List ThreadComment,
    AnsweredDiscussion client discussion ∧ Answered client served ∧
    items = rootItem ref discussion :: served.flatMap (ThreadComment.items ref)

theorem issue_written_iff (hplatform : TakesHttp platform)
    (h : fetchIssueThread platform client ref = .ok messages) (context : String) :
    ∃ items, IssueItems client ref items ∧
      List.Forall₂ (fun item message => toMessage platform item = .ok message) items messages ∧
      ((∃ text, serializeCorpus platform messages context = .ok text) ↔
        ItemsFit platform items) := by
  obtain ⟨issue, served, hissue, hserved, -, htook⟩ := fetchIssueThread_took h
  obtain ⟨taken, rfl, hof⟩ := htook.messages
  refine ⟨_, ⟨issue, served, hissue, hserved, rfl⟩, hof,
    items_written_iff hplatform hof (htook.distinct List.nodup_nil) ?_ ?_ context⟩
  · rintro item (_ | ⟨_, hitem⟩)
    · obtain ⟨_, hparsed⟩ := parseAnswer_ok hissue
      exact issue_author hparsed
    · obtain ⟨comment, hcomment, rfl⟩ := List.mem_map.mp hitem
      obtain ⟨call, page, batch, hbatch, hmem⟩ := hserved comment hcomment
      obtain ⟨_, hparsed⟩ := parseAnswer_ok hbatch
      exact comment_author hparsed comment hmem
  · rintro item (_ | ⟨_, hitem⟩) parent hparent
    · cases hparent
    · obtain ⟨comment, -, rfl⟩ := List.mem_map.mp hitem
      cases hparent

theorem discussion_written_iff (hplatform : TakesHttp platform)
    (h : fetchDiscussionThread platform client ref = .ok messages) (context : String) :
    ∃ items, DiscussionItems client ref items ∧
      List.Forall₂ (fun item message => toMessage platform item = .ok message) items messages ∧
      ((∃ text, serializeCorpus platform messages context = .ok text) ↔
        ItemsFit platform items) := by
  obtain ⟨discussion, served, hdiscussion, hserved, -, htook⟩ := fetchDiscussionThread_took h
  obtain ⟨taken, rfl, hof⟩ := htook.messages
  refine ⟨_, ⟨discussion, served, hdiscussion, hserved, rfl⟩, hof,
    items_written_iff hplatform hof (htook.distinct List.nodup_nil) ?_ ?_ context⟩
  · rintro item (_ | ⟨_, hitem⟩)
    · obtain ⟨call, asked, hanswer⟩ := hdiscussion
      obtain ⟨_, hparsed⟩ := parseAnswer_ok hanswer
      exact (discussion_authors hparsed).1
    · obtain ⟨thread, hthread, hitem⟩ := List.mem_flatMap.mp hitem
      obtain ⟨answered, ⟨call, asked, hanswer⟩, node, hnode, hof⟩ := hserved thread hthread
      obtain ⟨_, hparsed⟩ := parseAnswer_ok hanswer
      obtain ⟨hauthor, hreplies⟩ := (discussion_authors hparsed).2 node hnode
      rcases List.mem_cons.mp hitem with rfl | hitem
      · rw [discussionItem, hof.comment]
        exact hauthor
      · obtain ⟨reply, hreply, rfl⟩ := List.mem_map.mp hitem
        rcases hof.replies reply hreply with hreply | ⟨page, ⟨_, _, _, hpage⟩, hreply⟩
        · exact hreplies reply hreply
        · obtain ⟨_, hparsed⟩ := parseAnswer_ok hpage
          exact replies_authors hparsed reply hreply
  · rintro item (_ | ⟨_, hitem⟩) parent hparent
    · cases hparent
    · obtain ⟨thread, hthread, hitem⟩ := List.mem_flatMap.mp hitem
      rcases List.mem_cons.mp hitem with rfl | hitem
      · cases hparent
      · obtain ⟨reply, -, rfl⟩ := List.mem_map.mp hitem
        cases hparent
        refine ⟨discussionItem ref thread.comment none, List.mem_cons_of_mem _ ?_, rfl⟩
        exact List.mem_flatMap.mpr ⟨thread, hthread, List.mem_cons_self⟩

end Threads

/-! ## What is converted -/

def transcriptOf (text : String) : String := "## ada 2026-01-01T00:00:00Z\n" ++ text

def sentence (text : String) (attachments : Option (List IngestAttachment)) : IngestMessage where
  id := "md:transcript:0001"
  author := "ada"
  ts := "2026-01-01T00:00:00.000Z"
  text
  attachments

def oneUpload : List IngestAttachment := [⟨"a", upload, none⟩]

def threadMessage (ts text id : String) (replyTo : Option String) : IngestMessage where
  id := "github:ada/notes#7" ++ id
  author := "ghost"
  ts
  text
  replyTo := replyTo.map ("github:ada/notes#7" ++ ·)
  attachments := if text = "" then none else some oneUpload

def fetchedRoot : IngestMessage := threadMessage "2026-01-01T00:00:00.000Z" "" "" none

def fetchedIssue : List IngestMessage :=
  [fetchedRoot, threadMessage "2026-01-02T00:00:00.000Z" upload "/c1" none,
    threadMessage "2026-01-02T00:00:00.000Z" "" "/c2" none]

def fetchedDiscussion : List IngestMessage :=
  fetchedRoot :: [("", "/ca", none), (upload, "/cb", some "/ca"), ("", "/cc", some "/ca"),
    ("", "/cd", none)].map fun (text, id, replyTo) =>
      threadMessage "2026-01-02T00:00:00.000Z" text id replyTo

theorem takesHttp_january : TakesHttp january := by
  intro url parsed _ hparsed _
  have hread : january.readUrl url = (january.parseUrl url).map fun _ => url := rfl
  rw [hread, hparsed]
  rfl

theorem written_of_sorted {messages : List IngestMessage}
    (hsorted : messages.Pairwise fun a b => (compareMessages a b != .gt) = true)
    (hvalid : assertValidCorpus january messages "corpus" = .ok ()) :
    ∃ text, serializeCorpus january messages "corpus" = .ok text := by
  unfold serializeCorpus sortMessages
  rw [List.mergeSort_of_pairwise hsorted, hvalid]
  exact ⟨_, rfl⟩

end Ingest
