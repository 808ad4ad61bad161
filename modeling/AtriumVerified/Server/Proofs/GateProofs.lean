import AtriumVerified.Core.Proofs.InstantProofs
import AtriumVerified.Core.Proofs.LookupProofs
import AtriumVerified.Server.Cluster

/-!
# The gate of the database and the gate of the reducer

The trigger orders rows by `timestamptz` and bytes; the reducer orders events by the text of
`instantKey` and code units. On what the constraints admit the two orders are one, so the rows an
insert lets through are consumed in the order they have. The instant a batch mints is after all of
them, except behind a row whose `occurred_at` no canonical timestamp names.
-/

namespace Server

open Core Js Postgres Calendar

/-! ## Instants -/

section Instants

variable {text : String} {d : DateTime}

example : date "1970-01-01T00:00:01.000Z" = some 1000 := by decide +kernel

theorem date_isoText (h : d.Valid) (heq : text.toList = d.isoText) : date text = some d.millis := by
  have hlen := padded_length 3 d.millisecond (by decide) (by have := h.millisecond; omega)
  have hfraction : padEnd 3 '0' ((padded 3 d.millisecond).take 3) = padded 3 d.millisecond := by
    unfold padEnd
    rw [List.take_of_length_le (by omega), hlen]
    exact List.append_nil _
  unfold date
  rw [heq, isoInstant_isoText h, Option.map_some, biased_isoText h, hfraction, numberOf_padded]
  unfold DateTime.millis firstMs
  rw [Option.some.injEq]
  omega

theorem timestamptz_isoText (h : d.Valid) (heq : text.toList = d.isoText) :
    timestamptz text = if d.year = 0 then none else some (TimestampTz.finite (d.millis * 1000)) := by
  unfold timestamptz
  rw [date_isoText h heq, heq, isoInstant_isoText h]
  rfl

theorem year_pos (h : d.Valid) (hms : 0 ≤ d.millis) : d.year ≠ 0 := by
  intro hzero
  obtain ⟨-, hmonth, hday, hhour, hminute, hsecond, hmillis⟩ := h
  obtain ⟨-, hafter⟩ := daysBeforeMonth_bounds (leapYear d.year) (show d.month - 1 ≤ 11 by omega)
  unfold DateTime.millis DateTime.wholeSeconds makeTime at hms
  rw [hzero] at hms hafter hday
  have hfirst : dayFromYear ((0 : Nat) : Int) = -719528 := by decide
  split at hafter
  · omega
  · omega

theorem timestamptz_toISOString {ms : Int} (h0 : 0 ≤ ms) (h1 : ms ≤ maxAtMs) :
    timestamptz (toISOString ms) = some (TimestampTz.finite (ms * 1000)) := by
  have hfirst : firstMs ≤ ms := by
    unfold firstMs
    omega
  have hvalid := fromMillis_valid hfirst h1
  have hms := millis_fromMillis hfirst h1
  have htext : (toISOString ms).toList = (fromMillis ms).isoText := String.toList_ofList
  rw [timestamptz_isoText hvalid htext, hms, if_neg]
  exact year_pos hvalid (by omega)

end Instants

/-! ## Ids -/

theorem collateC_eq_utf16 {id : String} (h : idCharset id = true) : collateC id = utf16 id := by
  unfold idCharset at h
  rw [Bool.and_eq_true, List.all_eq_true] at h
  unfold collateC utf16
  refine List.flatMap_congr ?_
  intro c hc
  have hrange := h.2 c hc
  rw [Bool.and_eq_true, decide_eq_true_eq, decide_eq_true_eq, char_le_iff, char_le_iff] at hrange
  have hsmall : c.toNat ≤ 126 := hrange.2
  have hval : c.val.toNat = c.toNat := rfl
  have hsize : c.utf8Size = 1 := by
    rw [Char.utf8Size_eq_one_iff, UInt32.le_iff_toNat_le, hval]
    exact hsmall.trans (by decide)
  rw [String.utf8EncodeChar_eq_singleton hsize]
  unfold utf16Units
  rw [if_pos (by omega), List.map_singleton, UInt32.toNat_toUInt8, hval, Nat.mod_eq_of_lt (by omega)]

/-! ## The order of positions -/

section Order

variable {a b c : Position}

theorem SortsAfter.trans (hab : SortsAfter a b) (hbc : SortsAfter b c) : SortsAfter a c := by
  unfold SortsAfter at *
  rcases hab with hab | ⟨hab, hid⟩
  · rcases hbc with hbc | ⟨hbc, -⟩
    · exact Or.inl (lt_trans hbc hab)
    · exact Or.inl (hbc ▸ hab)
  · rcases hbc with hbc | ⟨hbc, hid'⟩
    · exact Or.inl (hab ▸ hbc)
    · exact Or.inr ⟨hab.trans hbc, List.lt_trans hid' hid⟩

theorem SortsAfter.trans_le (hab : SortsAfter a b) (hcb : ¬ SortsAfter c b) : SortsAfter a c := by
  unfold SortsAfter at *
  rw [not_or, not_lt, not_and] at hcb
  obtain ⟨hle, hids⟩ := hcb
  rcases hab with hab | ⟨hab, hid⟩
  · exact Or.inl (lt_of_le_of_lt hle hab)
  · rcases lt_or_eq_of_le hle with hlt | heq
    · exact Or.inl (hab ▸ hlt)
    · refine Or.inr ⟨hab.trans heq.symm, ?_⟩
      exact List.lt_of_le_of_lt (hids heq) hid

theorem SortsAfter.irrefl (a : Position) : ¬ SortsAfter a a := by
  rintro (h | ⟨-, h⟩)
  · exact lt_irrefl _ h
  · exact List.lt_irrefl _ h

theorem newest_eq_none {rows : List CoreEventRow} (h : newest rows = none) : rows = [] := by
  cases rows with
  | nil => rfl
  | cons first rest =>
    unfold newest at h
    split at h
    · cases h
    · split at h <;> cases h

theorem newest_mem {rows : List CoreEventRow} {top : CoreEventRow} (h : newest rows = some top) :
    top ∈ rows := by
  induction rows generalizing top with
  | nil => cases h
  | cons first rest ih =>
    unfold newest at h
    split at h
    · cases h
      exact List.mem_cons_self
    · rename_i later hrest
      split at h
      · cases h
        exact List.mem_cons_of_mem _ (ih hrest)
      · cases h
        exact List.mem_cons_self

theorem not_sortsAfter_newest {rows : List CoreEventRow} {top : CoreEventRow}
    (h : newest rows = some top) : ∀ row ∈ rows, ¬ SortsAfter row.position top.position := by
  induction rows generalizing top with
  | nil => simp
  | cons first rest ih =>
    intro row hrow
    unfold newest at h
    cases hrest : newest rest with
    | none =>
      rw [hrest] at h
      cases h
      rw [newest_eq_none hrest, List.mem_singleton] at hrow
      rw [hrow]
      exact SortsAfter.irrefl _
    | some later =>
      rw [hrest] at h
      dsimp only at h
      split at h
      case isTrue hafter =>
        cases h
        rcases List.mem_cons.mp hrow with rfl | hrow
        · intro hrow
          exact SortsAfter.irrefl _ (hafter.trans hrow)
        · exact ih hrest row hrow
      case isFalse hnot =>
        cases h
        rcases List.mem_cons.mp hrow with rfl | hrow
        · exact SortsAfter.irrefl _
        · intro hafter
          exact ih hrest row hrow (hafter.trans_le hnot)

theorem sortsAfter_of_orderGate {rows : List CoreEventRow} {row : NewRow}
    (h : orderGate rows row = true) : ∀ held ∈ rows, SortsAfter row.position held.position := by
  intro held hheld
  unfold orderGate at h
  cases hnewest : newest rows with
  | none =>
    rw [newest_eq_none hnewest] at hheld
    cases hheld
  | some top =>
    rw [hnewest] at h
    exact (of_decide_eq_true h).trans_le (not_sortsAfter_newest hnewest held hheld)

end Order

/-! ## What an insert promises -/

/-- What `admits` checks. -/
structure Admitted (rows : List CoreEventRow) (row : NewRow) : Prop where
  newer : ∀ held ∈ rows, SortsAfter row.position held.position
  fresh : ∀ held ∈ rows, held.id ≠ row.id
  checks : checks row = true

theorem admitted_of_admits {around : Neighbours} {rows : List CoreEventRow} {row : NewRow}
    (h : admits around rows row = true) : Admitted rows row := by
  unfold admits at h
  simp only [Bool.and_eq_true, List.all_eq_true, bne_iff_ne] at h
  obtain ⟨⟨⟨⟨⟨-, -⟩, hgate⟩, -⟩, hchecks⟩, hfresh⟩ := h
  exact ⟨sortsAfter_of_orderGate hgate, hfresh, hchecks⟩

/-- What holds of the rows of a table that were inserted one by one. -/
structure Ordered (rows : List CoreEventRow) : Prop where
  positions : rows.Pairwise fun a b => SortsAfter b.position a.position
  ids : rows.Pairwise fun a b => a.id ≠ b.id
  seqs : rows.Pairwise fun a b => a.seq < b.seq
  positive : ∀ row ∈ rows, 0 < row.seq
  checks : ∀ row ∈ rows, Server.checks row.toNewRow = true

theorem pairwise_append_singleton {α : Type} {r : α → α → Prop} {items : List α} {item : α}
    (h : items.Pairwise r) (hitem : ∀ held ∈ items, r held item) :
    (items ++ [item]).Pairwise r := by
  rw [List.pairwise_append]
  refine ⟨h, List.pairwise_singleton _ _, ?_⟩
  intro held hheld other hother
  rw [List.mem_singleton.mp hother]
  exact hitem held hheld

theorem forall_append_singleton {α : Type} {p : α → Prop} {items : List α} {item : α}
    (h : ∀ held ∈ items, p held) (hitem : p item) : ∀ held ∈ items ++ [item], p held := by
  intro held hheld
  rcases List.mem_append.mp hheld with hheld | hheld
  · exact h held hheld
  · rw [List.mem_singleton.mp hheld]
    exact hitem

theorem Ordered.insert {rows : List CoreEventRow} (h : Ordered rows) {around : Neighbours}
    {seq : Nat} {row : NewRow} (hpos : 0 < seq) (hseq : ∀ held ∈ rows, held.seq < seq)
    (hrow : Admitted rows row) : Ordered (rows ++ [insertedRow around rows seq row]) where
  positions := pairwise_append_singleton h.positions hrow.newer
  ids := pairwise_append_singleton h.ids hrow.fresh
  seqs := pairwise_append_singleton h.seqs hseq
  positive := forall_append_singleton h.positive hpos
  checks := forall_append_singleton h.checks hrow.checks

theorem Inserted.ordered {rows : List CoreEventRow} (h : Inserted rows) : Ordered rows := by
  induction h with
  | empty => exact ⟨.nil, .nil, .nil, by simp, by simp⟩
  | insert around seq row _ hpos hseq hrow ih => exact ih.insert hpos hseq (admitted_of_admits hrow)

/-! ## Room positions -/

theorem max_range' (n : Nat) : (List.range' 1 n).max?.getD 0 = n := by
  cases n with
  | zero => rfl
  | succ n =>
    have hmax : (List.range' 1 (n + 1)).max? = some (n + 1) := by
      rw [List.max?_eq_some_iff]
      constructor
      · rw [List.mem_range'_1]
        omega
      · intro m hm
        rw [List.mem_range'_1] at hm
        omega
    rw [hmax]
    rfl

theorem Inserted.roomSeqs_eq {rows : List CoreEventRow} (h : Inserted rows) (roomId : Uuid) :
    roomSeqs rows roomId = List.range' 1 (roomSeqs rows roomId).length := by
  induction h with
  | empty => rfl
  | @insert rows around seq row _ _ _ _ ih =>
    have hsplit : roomSeqs (rows ++ [insertedRow around rows seq row]) roomId =
        roomSeqs rows roomId ++
          if row.roomId == roomId then [nextRoomSeq rows row.roomId] else [] := by
      unfold roomSeqs
      rw [List.filter_append, List.map_append, List.filter_singleton]
      congr 1
      show List.map _ (bif row.roomId == roomId then _ else _) = _
      cases row.roomId == roomId <;> rfl
    rw [hsplit]
    split
    · rename_i hroom
      have hnext : nextRoomSeq rows row.roomId = (roomSeqs rows roomId).length + 1 := by
        unfold nextRoomSeq
        rw [eq_of_beq hroom, ih, max_range', List.length_range']
      rw [hnext, List.length_append, List.length_singleton, List.range'_1_concat, ← ih,
        Nat.add_comm 1]
    · rw [List.append_nil]
      exact ih

/-! ## The reducer on the rows of the table -/

section Fold

variable {codec : Codec}

theorem check_some {condition : Bool} (h : check (some condition) = true) : condition = true := by
  cases condition with
  | true => rfl
  | false => cases h

theorem jsonbGetText_string {json : Json} {key text : String}
    (h : jsonbGet json key = some (.string text)) : jsonbGetText json key = some text := by
  unfold jsonbGetText
  rw [h]

theorem position_of_readable {row : NewRow} {event : RoomEvent} (hchecks : checks row = true)
    (hparse : codec.roomEvent row.payload = .ok event) :
    ∃ d : DateTime, d.Valid ∧ event.at_.toList = d.isoText ∧
      row.occurredAt = TimestampTz.finite (d.millis * 1000) ∧ event.id = row.id ∧
      idCharset row.id = true := by
  obtain ⟨hid, hat⟩ := codec.roomEvent_reads row.payload event hparse
  unfold checks payloadAtMatches at hchecks
  rw [jsonbGetText_string hid, jsonbGetText_string hat] at hchecks
  simp only [Option.map_some, Bool.and_eq_true] at hchecks
  obtain ⟨⟨⟨⟨⟨⟨⟨⟨⟨hsame, -⟩, -⟩, hcanonical⟩, hmatches⟩, hcharset, -⟩, -⟩, -⟩, -⟩, -⟩ := hchecks
  obtain ⟨d, hd, htext⟩ := exists_date (check_some hcanonical)
  rw [timestamptz_isoText hd htext] at hmatches
  refine ⟨d, hd, htext, ?_, eq_of_beq (check_some hsame), hcharset⟩
  split at hmatches
  · cases hmatches
  · rename_i value hvalue
    split at hvalue
    · cases hvalue
    · rw [Option.map_some] at hvalue
      cases hvalue
      exact (of_decide_eq_true (check_some hmatches)).symm

def readRow (codec : Codec) (row : CoreEventRow) : Option AuthoredEvent :=
  (coreRow codec row).bind fun core =>
    match codec.coreEvent.safeParse core.event with
    | .ok event => some ⟨event, core.trusted⟩
    | .error _ => none

theorem readableCore_eq (rows : List CoreEventRow) :
    readableCore codec rows = rows.filterMap (readRow codec) := by
  unfold readableCore parsedRows
  rw [List.filterMap_filterMap]
  rfl

theorem coreRow_some {row : CoreEventRow} {core : Row RoomEvent} (h : coreRow codec row = some core) :
    codec.roomEvent row.payload = .ok core.event := by
  unfold coreRow parseRow at h
  cases hparse : codec.roomEvent row.payload with
  | error issues =>
    rw [hparse] at h
    cases h
  | ok event =>
    rw [hparse] at h
    dsimp only at h
    split at h
    · cases h
    · rename_i hentry
      split at h
      · cases h
        split at hentry
        · cases hentry
          rfl
        · split at hentry
          · cases hentry
          · cases hentry
            rfl
      · cases h

theorem readRow_some {row : CoreEventRow} {entry : AuthoredEvent}
    (h : readRow codec row = some entry) : ∃ event, codec.roomEvent row.payload = .ok event ∧
      entry.event.id = event.id ∧ entry.event.at_ = event.at_ := by
  unfold readRow at h
  obtain ⟨core, hcore, hparse⟩ := Option.bind_eq_some_iff.mp h
  cases hschema : codec.coreEvent.safeParse core.event with
  | error issues =>
    rw [hschema] at hparse
    cases hparse
  | ok event =>
    rw [hschema] at hparse
    cases hparse
    exact ⟨core.event, coreRow_some hcore, codec.coreEvent_reads _ _ hschema⟩

theorem before_of_sortsAfter {a b : CoreEventRow} {x y : AuthoredEvent}
    (ha : checks a.toNewRow = true) (hb : checks b.toNewRow = true) (hx : readRow codec a = some x)
    (hy : readRow codec b = some y) (h : SortsAfter b.position a.position) :
    Before (cursorOf x.event) (cursorOf y.event) := by
  obtain ⟨event, hparse, hxid, hxat⟩ := readRow_some hx
  obtain ⟨event', hparse', hyid, hyat⟩ := readRow_some hy
  obtain ⟨d, hd, htext, hoccurred, hid, hcharset⟩ := position_of_readable ha hparse
  obtain ⟨e, he, htext', hoccurred', hid', hcharset'⟩ := position_of_readable hb hparse'
  rw [← hxat] at htext
  rw [← hyat] at htext'
  rw [before_iff]
  show utf16 (instantKey x.event.at_) < utf16 (instantKey y.event.at_) ∨
    instantKey x.event.at_ = instantKey y.event.at_ ∧ utf16 x.event.id < utf16 y.event.id
  rw [instantKey_lt_iff hd he htext htext', instantKey_eq_iff hd he htext htext', hxid, hyid, hid,
    hid', ← collateC_eq_utf16 hcharset, ← collateC_eq_utf16 hcharset']
  unfold SortsAfter NewRow.position at h
  dsimp only at h
  rw [hoccurred, hoccurred', TimestampTz.finite_lt_finite, TimestampTz.finite_inj] at h
  rcases h with h | ⟨h, hids⟩
  · exact Or.inl (by omega)
  · exact Or.inr ⟨by omega, hids⟩

theorem Ordered.readable (codec : Codec) {rows : List CoreEventRow} (h : Ordered rows) :
    (readableCore codec rows).Pairwise
        (fun x y => Before (cursorOf x.event) (cursorOf y.event)) ∧
      (readableCore codec rows).Pairwise (fun x y => x.event.id ≠ y.event.id) := by
  rw [readableCore_eq, List.pairwise_filterMap, List.pairwise_filterMap]
  constructor
  · refine h.positions.imp_of_mem ?_
    intro a b ha hb hafter x hx y hy
    exact before_of_sortsAfter (h.checks a ha) (h.checks b hb) hx hy hafter
  · refine h.ids.imp_of_mem ?_
    intro a b ha hb hne x hx y hy
    obtain ⟨event, hparse, hxid, -⟩ := readRow_some hx
    obtain ⟨event', hparse', hyid, -⟩ := readRow_some hy
    obtain ⟨-, -, -, -, hid, -⟩ := position_of_readable (h.checks a ha) hparse
    obtain ⟨-, -, -, -, hid', -⟩ := position_of_readable (h.checks b hb) hparse'
    rw [hxid, hyid, hid, hid']
    exact hne

variable [Unicode]

/-- Entries in order and with fresh ids are all consumed. -/
theorem foldRows_consumed {entries : List AuthoredEvent} {state last : CoreState}
    {outcomes : List EventOutcome}
    (horder : entries.Pairwise fun x y => Before (cursorOf x.event) (cursorOf y.event))
    (hids : entries.Pairwise fun x y => x.event.id ≠ y.event.id)
    (hcursor : ∀ c, state.cursor = some c → ∀ x ∈ entries, Before c (cursorOf x.event))
    (hspent : ∀ x ∈ entries, x.event.id ∉ state.consumedEventIds)
    (h : foldRows state entries = .ok (outcomes, last)) :
    ∀ outcome ∈ outcomes, wasConsumed outcome = true := by
  induction entries generalizing state outcomes with
  | nil =>
    cases h
    simp
  | cons entry rest ih =>
    obtain ⟨outcome, mid, later, hstep, hrest, rfl⟩ := foldRows_cons_ok.mp h
    obtain ⟨hbefore, horder⟩ := List.pairwise_cons.mp horder
    obtain ⟨hdistinct, hids⟩ := List.pairwise_cons.mp hids
    -- The gate lets the first entry through, so the cursor and the spent ids move to it.
    have hgate : rejectionFor state entry.event = none := rejectionFor_eq_none.mpr
      ⟨fun c hc => hcursor c hc entry List.mem_cons_self, hspent entry List.mem_cons_self⟩
    have hconsume : consume state entry = .ok (outcome, mid) := by
      unfold step at hstep
      rw [hgate] at hstep
      exact hstep
    obtain ⟨hconsumed, hmid, hspentMid⟩ := consume_position hconsume
    have hlater := ih horder hids
      (by
        intro c hc x hx
        rw [hmid] at hc
        cases hc
        exact hbefore x hx)
      (by
        intro x hx hmem
        rw [hspentMid, List.mem_append, List.mem_singleton] at hmem
        rcases hmem with hmem | hmem
        · exact hspent x (List.mem_cons_of_mem _ hx) hmem
        · exact hdistinct x hx hmem.symm)
      hrest
    intro o ho
    rcases List.mem_cons.mp ho with rfl | ho
    · exact hconsumed
    · exact hlater o ho

theorem Ordered.foldRows_consumed {rows : List CoreEventRow} (h : Ordered rows)
    {outcomes : List EventOutcome} {state : CoreState}
    (hfold : foldRows emptyState (readableCore codec rows) = .ok (outcomes, state)) :
    ∀ outcome ∈ outcomes, wasConsumed outcome = true := by
  obtain ⟨horder, hids⟩ := h.readable codec
  refine Server.foldRows_consumed horder hids ?_ ?_ hfold
  · intro c hc
    cases hc
  · intro x _ hmem
    cases hmem

/-- `foldEvents` over rows of the table folds the readable ones as they stand. -/
theorem Ordered.foldEvents_ok {rows : List CoreEventRow} (h : Ordered rows) {start state : CoreState}
    {outcomes : List EventOutcome} :
    foldEvents codec.coreEvent (rows.filterMap (coreRow codec)) start = .ok (outcomes, state) ↔
      ∃ consumed, foldRows start (readableCore codec rows) = .ok (consumed, state) ∧
        outcomes = malformedOutcomes codec.coreEvent (rows.filterMap (coreRow codec)) ++ consumed := by
  have hsorted : orderEvents (parsedRows codec.coreEvent (rows.filterMap (coreRow codec))) =
      readableCore codec rows := orderEvents_of_increasing (h.readable codec).1
  unfold foldEvents
  rw [hsorted]
  cases hfold : foldRows start (readableCore codec rows) with
  | error e =>
    constructor
    · intro heq
      cases heq
    · rintro ⟨consumed, heq, -⟩
      cases heq
  | ok result =>
    obtain ⟨consumed, last⟩ := result
    constructor
    · intro heq
      cases heq
      exact ⟨consumed, rfl, rfl⟩
    · rintro ⟨consumed', heq, rfl⟩
      cases heq
      rfl

end Fold

/-! ## The minted instant -/

section Mint

variable {codec : Codec} {rows : List CoreEventRow}

theorem raiseWatermark_ge (lastAtMs : Int) (row : CoreEventRow) :
    lastAtMs ≤ raiseWatermark codec lastAtMs row := by
  unfold raiseWatermark
  split
  · exact le_max_left _ _
  · exact le_refl _

theorem foldl_raiseWatermark_ge (lastAtMs : Int) :
    lastAtMs ≤ rows.foldl (raiseWatermark codec) lastAtMs := by
  induction rows generalizing lastAtMs with
  | nil => exact le_refl _
  | cons row rest ih => exact (raiseWatermark_ge lastAtMs row).trans (ih _)

theorem le_foldl_raiseWatermark {row : CoreEventRow} (hrow : row ∈ rows) {atMs : Int}
    (hparse : codec.dateParse row.occurredAt = some atMs) (lastAtMs : Int) :
    atMs ≤ rows.foldl (raiseWatermark codec) lastAtMs := by
  induction rows generalizing lastAtMs with
  | nil => cases hrow
  | cons first rest ih =>
    rw [List.foldl_cons]
    rcases List.mem_cons.mp hrow with rfl | hrow
    · refine le_trans ?_ (foldl_raiseWatermark_ge _)
      unfold raiseWatermark
      rw [hparse]
      exact le_max_right _ _
    · exact ih hrow _

theorem lastAtMs_nonneg {lastAtMs : Int} (h : min maxAtMs (watermark codec rows) ≤ lastAtMs) :
    0 ≤ lastAtMs := by
  have hwatermark : 0 ≤ watermark codec rows := foldl_raiseWatermark_ge 0
  unfold maxAtMs at h
  omega

theorem timestamptz_mint (now : Int) {lastAtMs : Int} (h : 0 ≤ lastAtMs) :
    timestamptz (toISOString (mintAtMs now lastAtMs)) =
      some (TimestampTz.finite (mintAtMs now lastAtMs * 1000)) := by
  apply timestamptz_toISOString
  · unfold mintAtMs maxAtMs
    omega
  · exact min_le_left _ _

theorem mint_after {row : CoreEventRow} (hrow : row ∈ rows) (hlt : row.occurredAt < lastInstant)
    (now : Int) {lastAtMs : Int} (h : min maxAtMs (watermark codec rows) ≤ lastAtMs) :
    row.occurredAt < TimestampTz.finite (mintAtMs now lastAtMs * 1000) := by
  have hpos := lastAtMs_nonneg h
  rcases TimestampTz.eq_bot_or_finite hlt with hbot | ⟨micros, hmicros, hmax⟩
  · rw [hbot]
    exact WithBot.bot_lt_coe _
  · rw [hmicros, TimestampTz.finite_lt_finite]
    rcases lt_or_ge micros 0 with hneg | hnonneg
    · unfold mintAtMs maxAtMs
      omega
    · have hparse := codec.dateParse_eq micros hnonneg (by omega)
      rw [← hmicros] at hparse
      have hreached : micros / 1000 ≤ watermark codec rows := le_foldl_raiseWatermark hrow hparse 0
      unfold maxAtMs at hmax h
      unfold mintAtMs maxAtMs
      omega

theorem mint_reaches {lastAtMs now : Int} {row : CoreEventRow}
    (h : min maxAtMs (watermark codec rows) ≤ lastAtMs)
    (hrow : row.occurredAt = TimestampTz.finite (mintAtMs now lastAtMs * 1000)) :
    min maxAtMs ([row].foldl (raiseWatermark codec) (watermark codec rows)) ≤
      mintAtMs now lastAtMs := by
  have hpositive := lastAtMs_nonneg h
  have hmint : 0 ≤ mintAtMs now lastAtMs ∧ mintAtMs now lastAtMs ≤ maxAtMs := by
    unfold mintAtMs maxAtMs
    omega
  have hparse := codec.dateParse_eq (mintAtMs now lastAtMs * 1000) (by omega) (by omega)
  rw [← hrow, Int.mul_ediv_cancel _ (by decide)] at hparse
  rw [List.foldl_cons, List.foldl_nil]
  unfold raiseWatermark
  rw [hparse]
  unfold mintAtMs at hmint ⊢
  dsimp only
  omega

end Mint

theorem malformed_not_rejected {Raw : Type} {schema : EventSchema Raw} {log : List (Row Raw)}
    {outcome : EventOutcome} (h : outcome ∈ malformedOutcomes schema log) :
    isRejected outcome = false := by
  unfold malformedOutcomes at h
  obtain ⟨row, -, hrow⟩ := List.mem_filterMap.mp h
  split at hrow
  · cases hrow
  · cases hrow
    rfl

theorem not_rejected_of_consumed {outcome : EventOutcome} (h : wasConsumed outcome = true) :
    isRejected outcome = false := by
  cases outcome with
  | rejected event actor reason detail => cases h
  | applied event actor => rfl
  | appliedWithIssue event actor issues => rfl
  | malformed actor detail => rfl

/-- The gate admits only what the reducer will consume, and numbers each room without a gap: no fold
has a rejected outcome, and where every readable event can be folded in its turn, the fold returns with
all of them consumed. What a batch mints on an instance that has caught up sorts after every row exactly
when no row sits behind the last canonical instant, where an `occurred_at` gets only beside a payload
whose `at` is `null`. -/
theorem admitted_rows_are_consumed [Unicode] (codec : Codec) {rows : List CoreEventRow}
    (h : Inserted rows) :
    (Foldable (readableCore codec rows) → ∃ consumed state,
        foldEvents codec.coreEvent (rows.filterMap (coreRow codec)) emptyState =
          .ok (malformedOutcomes codec.coreEvent (rows.filterMap (coreRow codec)) ++ consumed,
            state) ∧
        consumed.length = (readableCore codec rows).length ∧
        ∀ outcome ∈ consumed, wasConsumed outcome = true) ∧
      (∀ outcomes state,
        foldEvents codec.coreEvent (rows.filterMap (coreRow codec)) emptyState =
          .ok (outcomes, state) → ∀ outcome ∈ outcomes, isRejected outcome = false) ∧
      (∀ roomId, roomSeqs rows roomId = List.range' 1 (roomSeqs rows roomId).length) ∧
      (∀ now lastAtMs id, min maxAtMs (watermark codec rows) ≤ lastAtMs →
        (∀ top, newest rows = some top → top.occurredAt ≠ lastInstant) →
        ((∃ at_, timestamptz (toISOString (mintAtMs now lastAtMs)) = some at_ ∧
            ∀ row ∈ rows, SortsAfter (at_, id) row.position) ↔
          ∀ row ∈ rows, row.occurredAt ≤ lastInstant)) := by
  have hordered := h.ordered
  refine ⟨?_, ?_, h.roomSeqs_eq, ?_⟩
  · intro hfoldable
    obtain ⟨consumed, state, hfold, hlength⟩ := foldRows_returns hfoldable
    exact ⟨consumed, state, hordered.foldEvents_ok.mpr ⟨consumed, hfold, rfl⟩, hlength,
      hordered.foldRows_consumed hfold⟩
  · intro outcomes state hfold outcome houtcome
    obtain ⟨consumed, hrows, rfl⟩ := hordered.foldEvents_ok.mp hfold
    rcases List.mem_append.mp houtcome with hmalformed | hconsumed
    · exact malformed_not_rejected hmalformed
    · exact not_rejected_of_consumed (hordered.foldRows_consumed hrows outcome hconsumed)
  · intro now lastAtMs id hlastAtMs hnewest
    rw [timestamptz_mint now (lastAtMs_nonneg hlastAtMs)]
    constructor
    · rintro ⟨at_, hat, hafter⟩ row hrow
      cases hat
      have hle : row.occurredAt ≤ TimestampTz.finite (mintAtMs now lastAtMs * 1000) := by
        rcases hafter row hrow with hlt | ⟨heq, -⟩
        · exact le_of_lt hlt
        · exact le_of_eq heq.symm
      refine hle.trans ?_
      have hmint : mintAtMs now lastAtMs ≤ maxAtMs := min_le_left _ _
      exact WithBot.coe_le_coe.mpr (WithTop.coe_le_coe.mpr (by omega))
    · intro hbounded
      refine ⟨_, rfl, ?_⟩
      intro row hrow
      refine Or.inl (mint_after hrow ?_ now hlastAtMs)
      -- A row at the last instant would make the newest row sit there too.
      refine lt_of_le_of_ne (hbounded row hrow) ?_
      intro hrowLast
      cases htop : newest rows with
      | none =>
        rw [newest_eq_none htop] at hrow
        cases hrow
      | some top =>
        have hnot := not_sortsAfter_newest htop row hrow
        have hle : row.occurredAt ≤ top.occurredAt := by
          by_contra hlt
          exact hnot (Or.inl (not_le.mp hlt))
        rw [hrowLast] at hle
        exact hnewest top htop (le_antisymm (hbounded top (newest_mem htop)) hle)

/-! ## A message, a decision, and a row no timestamp names -/

def demoRoom : Uuid := "0123456789abcdef0123456789abcdef"

def shipIt : AcceptedObject where
  id := "decision-1"
  roomId := uuidText demoRoom
  objectiveId := none
  provenance := emptyProvenance
  createdAt := "2026-01-01T00:00:00.000Z"
  updatedAt := "2026-01-01T00:00:00.000Z"
  payload := .decision ⟨"Ship it.", none, .active⟩

/-- An `amend` or a `reattribute` of it. -/
def correctionOf (action : CorrectionAction) (patch : List (String × Json)) : ObjectCorrected where
  objectId := shipIt.id
  action
  patch
  toType := none
  provenance := emptyProvenance
  note := none

/-- The part of `RoomEvent.safeParse` that reads a posted message, the acceptance of the decision,
and its corrections. A patch keeps the order of its keys. -/
def readBody (json : Json) (id at_ type : String) : Option RoomEvent :=
  if type = "message_posted" then
    match jsonbGet json "roomId", jsonbGet json "messageId", jsonbGet json "body" with
    | some (.string roomId), some (.string messageId), some (.string body) =>
      if isId messageId ∧ body ≠ "" then
        some (.server ⟨id, at_, .messagePosted, roomId,
          [("messageId", .string messageId), ("body", .string body)]⟩)
      else none
    | _, _, _ => none
  else if type = "object_accepted" then some (.core ⟨id, at_, .objectAccepted shipIt⟩ none)
  else if type = "object_corrected" then
    match jsonbGet json "action", jsonbGet json "patch" with
    | some (.string action), some (.object patch) =>
      if (patch.map Prod.fst).Nodup then
        some (.core ⟨id, at_, .objectCorrected (correctionOf
          (if action = "amend" then .amend else .reattribute) patch)⟩ none)
      else none
    | _, _ => none
  else none

/-- The events that are read. -/
inductive Reads (id at_ : String) : RoomEvent → Prop where
  | message (roomId messageId body : String) (h : isId messageId = true ∧ body ≠ "") :
      Reads id at_ (.server ⟨id, at_, .messagePosted, roomId,
        [("messageId", .string messageId), ("body", .string body)]⟩)
  | acceptance : Reads id at_ (.core ⟨id, at_, .objectAccepted shipIt⟩ none)
  | correction (action : CorrectionAction) (haction : action = .amend ∨ action = .reattribute)
      {patch : List (String × Json)} (h : (patch.map Prod.fst).Nodup) :
      Reads id at_ (.core ⟨id, at_, .objectCorrected (correctionOf action patch)⟩ none)

theorem readBody_reads {json : Json} {id at_ type : String} {event : RoomEvent}
    (h : readBody json id at_ type = some event) : Reads id at_ event := by
  unfold readBody at h
  split at h
  · split at h
    · split at h
      · rename_i hmessage
        cases h
        exact .message _ _ _ hmessage
      · cases h
    · cases h
  · split at h
    · cases h
      exact .acceptance
    · split at h
      · split at h
        · split at h
          · rename_i hnodup
            cases h
            exact .correction _ (by split <;> simp) hnodup
          · cases h
        · cases h
      · cases h

def messageEvent (json : Json) : Schema.Parsed RoomEvent :=
  match jsonbGet json "id", jsonbGet json "at", jsonbGet json "type" with
  | some (.string id), some (.string at_), some (.string type) =>
    if isId id ∧ canonicalTimestamp at_ then
      match readBody json id at_ type with
      | some event => .ok event
      | none => .error [⟨[], "Invalid input"⟩]
    else .error [⟨[], "Invalid input"⟩]
  | _, _, _ => .error [⟨[], "Invalid input"⟩]

theorem messageEvent_reads {json : Json} {event : RoomEvent} (h : messageEvent json = .ok event) :
    ∃ id at_, jsonbGet json "id" = some (.string id) ∧ jsonbGet json "at" = some (.string at_) ∧
      isId id = true ∧ canonicalTimestamp at_ = true ∧ Reads id at_ event := by
  unfold messageEvent at h
  split at h
  · rename_i hid hat _
    split at h
    · rename_i hposition
      split at h
      · rename_i hbody
        cases h
        exact ⟨_, _, hid, hat, hposition.1, hposition.2, readBody_reads hbody⟩
      · cases h
    · cases h
  · cases h

def payloadOf (id : String) (at_ : Json) (type : String) (fields : List (String × Json)) : Json :=
  .object ([("id", .string id), ("at", at_), ("type", .string type)] ++ fields)

def messagePayload (id : String) (at_ : Json) (roomId : String) : Json :=
  payloadOf id at_ "message_posted"
    [("roomId", .string roomId), ("messageId", .string "message-1"), ("body", .string "hello")]

/-- The payload of the acceptance, as far as the table looks into it. -/
def acceptancePayload (id at_ : String) : Json :=
  payloadOf id (.string at_) "object_accepted"
    [("object", .object [("id", .string shipIt.id), ("roomId", .string shipIt.roomId)])]

def correctionPayload (action : CorrectionAction) (patch : List (String × Json)) (id at_ : String) :
    Json :=
  payloadOf id (.string at_) "object_corrected" [("objectId", .string shipIt.id),
    ("action", .string action.name), ("patch", .object patch)]

/-- A codec for these. The keys of a patch come back in the order of `jsonb`. -/
def messageCodec : Codec where
  roomEvent := messageEvent
  coreEvent := {
    safeParse := fun event => match event with
      | .core core _ => .ok core
      | .server _ => .error [⟨["type"], "Invalid input"⟩]
    value := fun core => .core core none
    reparse := fun _ _ _ => rfl }
  payload := fun event => match event with
    | .core ⟨id, at_, .objectCorrected correction⟩ _ => correctionPayload correction.action
        (correction.patch.insertionSort fun a b => jsonbKeyLe a.1 b.1) id at_
    | .core core _ => acceptancePayload core.id core.at_
    | .server event => payloadOf event.id (.string event.at_) "message_posted"
        (("roomId", .string event.roomId) :: event.fields)
  dateParse := fun instant => Option.bind instant fun finite : Option Int => finite.map (· / 1000)
  roomEvent_reads := by
    intro json event h
    obtain ⟨id, at_, hid, hat, -, -, hreads⟩ := messageEvent_reads h
    cases hreads with
    | message => exact ⟨hid, hat⟩
    | acceptance => exact ⟨hid, hat⟩
    | correction => exact ⟨hid, hat⟩
  coreEvent_reads := by
    intro event core h
    cases event with
    | core held sessionId =>
      cases h
      exact ⟨rfl, rfl⟩
    | server held => cases h
  dateParse_eq := by
    intro micros _ _
    rfl

def emptyNeighbours : Neighbours := ⟨fun _ => none, fun _ _ => false, fun _ _ => false, fun _ _ _ => none⟩

def memberId : Uuid := "000000000000400080000000000000aa"

def memberNeighbours : Neighbours where
  principalKind := fun user => if user = memberId then some .human else none
  isMember := fun room user => room == demoRoom && user == memberId
  hasMessage := fun _ _ => false
  receiptWindow := fun _ _ _ => none

/-- A message of the system whose payload has this `at`. -/
def messageRow (id : String) (at_ : Json) (occurredAt : TimestampTz) : NewRow where
  roomId := demoRoom
  id
  type := .server .messagePosted
  actorKind := .system
  actorId := none
  payload := messagePayload id at_ (uuidText demoRoom)
  occurredAt

/-- A row of the member, a second and a half into 2026. -/
def memberRow (id : String) (type : CoreEventType) (payload : String → String → Json) : NewRow where
  roomId := demoRoom
  id
  type := .core type
  actorKind := .human
  actorId := some (uuidText memberId)
  payload := payload id "2026-01-01T00:00:01.500Z"
  occurredAt := TimestampTz.finite 1767225601500000

/-- An acceptance, a message and an amendment at one instant. -/
def tiedRows : List CoreEventRow :=
  let accepted := [insertedRow memberNeighbours [] 1
    (memberRow "event-1" .objectAccepted acceptancePayload)]
  let posted := accepted ++ [insertedRow emptyNeighbours accepted 2
    (messageRow "event-2" (.string "2026-01-01T00:00:01.500Z")
      (TimestampTz.finite 1767225601500000))]
  posted ++ [insertedRow memberNeighbours posted 4 (memberRow "event-3" .objectCorrected
    (correctionPayload .amend [("statement", .string "Ship it now."), ("status", .string "active")]))]

theorem tiedRows_inserted : Inserted tiedRows :=
  .insert memberNeighbours 4 _
    (.insert emptyNeighbours 2 _
      (.insert memberNeighbours 1 _ .empty (by decide) (by simp) (by decide +kernel))
      (by decide) (by decide +kernel) (by decide +kernel))
    (by decide) (by decide +kernel) (by decide +kernel)

/-- The two events among them. -/
theorem tiedRows_foldable : @Foldable Unicode.ascii (readableCore messageCodec tiedRows) := by
  let _ : Unicode := Unicode.ascii
  have hread : readableCore messageCodec tiedRows =
      [⟨⟨"event-1", "2026-01-01T00:00:01.500Z", .objectAccepted shipIt⟩,
          ⟨.human (uuidText memberId), none⟩⟩,
        ⟨⟨"event-3", "2026-01-01T00:00:01.500Z", .objectCorrected (correctionOf .amend
          [("statement", .string "Ship it now."), ("status", .string "active")])⟩,
          ⟨.human (uuidText memberId), none⟩⟩] := by rfl
  rw [hread]
  refine ⟨⟨?_, ?_⟩, ?_⟩
  · unfold Ordinary
    decide +kernel
  · intro correction record toType field value h
    cases h.body
  · rintro next -
    refine ⟨⟨?_, ?_⟩, fun _ _ => trivial⟩
    · unfold Ordinary
      decide +kernel
    · intro correction record toType field value h
      cases h.body
      cases h.action

theorem admitted_message_is_consumed :
    let _ : Unicode := Unicode.ascii
    (∃ consumed state,
      foldEvents messageCodec.coreEvent (tiedRows.filterMap (coreRow messageCodec)) emptyState =
        .ok (consumed, state) ∧
      consumed.length = 2 ∧ ∀ outcome ∈ consumed, wasConsumed outcome = true) ∧
    (∀ roomId, roomSeqs tiedRows roomId = List.range' 1 (roomSeqs tiedRows roomId).length) ∧
      ∃ at_, timestamptz (toISOString (mintAtMs 0 1767225601500)) = some at_ ∧
        ∀ row ∈ tiedRows, SortsAfter (at_, "event-4") row.position := by
  intro _
  obtain ⟨hfold, -, hrooms, hmint⟩ := admitted_rows_are_consumed messageCodec tiedRows_inserted
  refine ⟨?_, hrooms, (hmint 0 1767225601500 "event-4" ?_ ?_).mpr ?_⟩
  · obtain ⟨consumed, state, hreturned, hlength, hconsumed⟩ := hfold tiedRows_foldable
    exact ⟨consumed, state, hreturned, hlength, hconsumed⟩
  · decide +kernel
  · intro top htop
    cases htop
    decide +kernel
  · decide +kernel

/-- A ledger of one row that no timestamp names: its payload has a `null` where the instant stands. -/
def endlessRow : List CoreEventRow :=
  [insertedRow emptyNeighbours [] 1 (messageRow "event-1" .null ⊤)]

/-- Both checks of the instant are `NULL` on such a row and let it pass, and nothing a batch can mint
sorts after it. -/
theorem null_instant_blocks_the_ledger :
    Inserted endlessRow ∧ (∀ top, newest endlessRow = some top → top.occurredAt ≠ lastInstant) ∧
      watermark messageCodec endlessRow = 0 ∧
      ∀ now id at_, timestamptz (toISOString (mintAtMs now 0)) = some at_ →
        ∃ row ∈ endlessRow, ¬ SortsAfter (at_, id) row.position := by
  refine ⟨.insert emptyNeighbours 1 _ .empty (by decide) (by simp) (by decide +kernel), ?_,
    by decide +kernel, ?_⟩
  · intro top htop
    cases htop
    decide +kernel
  · intro now id at_ hat
    rw [timestamptz_mint now (le_refl 0)] at hat
    cases hat
    refine ⟨_, List.mem_singleton_self _, ?_⟩
    rintro (hlt | ⟨heq, -⟩)
    · exact not_top_lt hlt
    · cases heq

end Server
