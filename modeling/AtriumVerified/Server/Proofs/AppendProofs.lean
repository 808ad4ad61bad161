import AtriumVerified.Core.Proofs.PatchOrderProofs
import AtriumVerified.Server.Proofs.GateProofs

/-!
# What staging an event leaves behind

A staged event is folded as it was built and stored as `jsonb`. The row that is stored reads back as
the event, but for the order of its keys, the actor and the window that were folded, so folding the
row later gives the state that was staged.
-/

namespace Server

open Core Js Postgres

/-! ## Windows -/

theorem windowPart_toList (value : String) :
    (toString (utf16Length value) ++ ":" ++ value).toList = sized value.toList := by
  have hdigits : (toString (utf16Length value)).toList = Nat.toDigits 10 (utf16Length value) :=
    Nat.toList_repr
  rw [String.toList_append, String.toList_append, hdigits, List.append_assoc]
  rfl

def windowChars (window : List ProvenanceMessage) : List Char :=
  window.flatMap fun message =>
    sized message.id.toList ++ (sized message.authorId.toList ++ sized message.body.toList)

theorem windowText_toList (window : List ProvenanceMessage) :
    (windowText (some window)).map String.toList = some (windowChars window) := by
  unfold windowText windowChars
  dsimp only
  rw [Option.map_some]
  congr 1
  induction window with
  | nil => rfl
  | cons message rest ih =>
    rw [List.map_cons, List.flatMap_cons, String.join_cons, String.toList_append, ih]
    rw [String.toList_append, String.toList_append, windowPart_toList, windowPart_toList,
      windowPart_toList]
    simp only [List.append_assoc]

theorem windowChars_inj {a b : List ProvenanceMessage} (h : windowChars a = windowChars b) :
    a = b := by
  induction a generalizing b with
  | nil =>
    cases b with
    | nil => rfl
    | cons message rest => simp [windowChars, sized] at h
  | cons message rest ih =>
    cases b with
    | nil => simp [windowChars, sized] at h
    | cons other others =>
      unfold windowChars at h
      simp only [List.flatMap_cons, List.append_assoc] at h
      obtain ⟨hid, h⟩ := sized_append_inj h
      obtain ⟨hauthor, h⟩ := sized_append_inj h
      obtain ⟨hbody, h⟩ := sized_append_inj h
      have hmessage : message = other := by
        cases message
        cases other
        simp only [String.toList_inj] at hid hauthor hbody
        rw [hid, hauthor, hbody]
      rw [hmessage, ih h]

theorem windowText_inj {a b : Option (List ProvenanceMessage)} (h : windowText a = windowText b) :
    a = b := by
  cases a with
  | none =>
    cases b with
    | none => rfl
    | some window => cases h
  | some window =>
    cases b with
    | none => cases h
    | some other =>
      have hchars := congrArg (Option.map String.toList) h
      rw [windowText_toList, windowText_toList, Option.some.injEq] at hchars
      rw [windowChars_inj hchars]

theorem trustedMessage_json (message : ProvenanceMessage) :
    trustedMessage (.object [("id", .string message.id), ("authorId", .string message.authorId),
      ("body", .string message.body)]) = .ok message := rfl

theorem trustedItems_json (index : Nat) (window : List ProvenanceMessage) :
    trustedItems index (window.map fun message => .object
      [("id", .string message.id), ("authorId", .string message.authorId),
        ("body", .string message.body)]) = .ok window := by
  induction window generalizing index with
  | nil => rfl
  | cons message rest ih =>
    rw [List.map_cons]
    unfold trustedItems
    rw [trustedMessage_json, ih]
    rfl

theorem trustedWindow_json (window : Option (List ProvenanceMessage)) :
    trustedWindow (window.map windowJson) = .ok window := by
  cases window with
  | none => rfl
  | some window =>
    show (trustedItems 0 _).map some = _
    rw [trustedItems_json]
    rfl

theorem actorFromColumns_toColumns (actor : Actor) :
    actorFromColumns (actorToColumns actor).1 (actorToColumns actor).2 = actor := by
  cases actor <;> rfl

/-! ## One staged event -/

theorem demand_ok {condition : Bool} {error : LedgerError} {u : Unit}
    (h : demand condition error = .ok u) : condition = true := by
  unfold demand at h
  split at h
  · assumption
  · cases h

theorem bind_ok {α β : Type} {x : Except LedgerError α} {f : α → Except LedgerError β} {b : β}
    (h : (x >>= f) = .ok b) : ∃ a, x = .ok a ∧ f a = .ok b := by
  cases x with
  | error e => cases h
  | ok a => exact ⟨a, rfl, h⟩

theorem cast_ok {α : Type} {value : Option α} {a : α} (h : cast value = .ok a) : value = some a := by
  unfold cast at h
  split at h
  · cases h
    rfl
  · cases h

theorem guardEvent_ok {codec : Codec} {built : Json} {event : RoomEvent}
    (h : guardEvent codec built = .ok event) : codec.roomEvent built = .ok event := by
  unfold guardEvent at h
  split at h
  · rename_i heq
    cases h
    exact heq
  · cases h

theorem at_of_usesPosition {codec : Codec} {built : Json} {id : Id} {at_ : Timestamp}
    {event : RoomEvent} (h : usesPosition built id at_ = true)
    (hparse : codec.roomEvent built = .ok event) : event.at_ = at_ := by
  obtain ⟨hid, hat⟩ := codec.roomEvent_reads built event hparse
  unfold usesPosition at h
  rw [hid, hat] at h
  exact eq_of_beq (Bool.and_eq_true _ _ ▸ h).2

theorem rowFor_ok {codec : Codec} {event : RoomEvent} {actor : Actor} {roomId : Id} {row : NewRow}
    (h : rowFor codec event actor roomId = .ok row) :
    row.payload = codec.payload event ∧ row.actorKind = (actorToColumns actor).1 ∧
      row.actorId = (actorToColumns actor).2 ∧ timestamptz event.at_ = some row.occurredAt := by
  unfold rowFor at h
  obtain ⟨room, -, h⟩ := bind_ok h
  obtain ⟨occurredAt, hoccurred, h⟩ := bind_ok h
  cases h
  exact ⟨rfl, rfl, rfl, cast_ok hoccurred⟩

section Stage

variable [Unicode] {codec : Codec} {request : Request} {rows : List CoreEventRow}
  {staging next : Staging} {build : Id → Timestamp → Json} {draw : Draw}

/-- What a pass of the loop that returns has done. -/
theorem stageBuild_ok (h : stageBuild codec request rows staging build draw = .ok next) :
    ∃ event roomId row after folded,
      codec.roomEvent (build draw.id (toISOString (mintAtMs draw.now staging.atMs))) = .ok event ∧
      event.at_ = toISOString (mintAtMs draw.now staging.atMs) ∧
      rowFor codec event request.actor roomId = .ok row ∧
      foldOrSkip codec request staging.state event
        (draw.aroundWindow.receiptWindow row.roomId row.actorKind row.payload) =
          .ok (after, folded) ∧
      admits draw.aroundInsert (rows ++ staging.rows) row = true ∧
      keepsWindow (draw.aroundInsert.receiptWindow row.roomId row.actorKind row.payload) folded =
        true ∧
      next = {
        rows := staging.rows ++ [insertedRow draw.aroundInsert (rows ++ staging.rows) draw.seq row]
        state := after
        atMs := mintAtMs draw.now staging.atMs
        seq := draw.seq } := by
  unfold stageBuild at h
  dsimp only at h
  obtain ⟨_, hposition, h⟩ := bind_ok h
  obtain ⟨event, hevent, h⟩ := bind_ok h
  obtain ⟨roomId, -, h⟩ := bind_ok h
  obtain ⟨row, hrow, h⟩ := bind_ok h
  obtain ⟨⟨after, folded⟩, hfold, h⟩ := bind_ok h
  obtain ⟨_, hadmits, h⟩ := bind_ok h
  obtain ⟨_, hwindow, h⟩ := bind_ok h
  obtain ⟨_, -, h⟩ := bind_ok h
  cases h
  have hparse := guardEvent_ok hevent
  exact ⟨event, roomId, row, after, folded, hparse, at_of_usesPosition (demand_ok hposition) hparse,
    hrow, hfold, demand_ok hadmits, demand_ok hwindow, rfl⟩

theorem foldStaged_ok {requireClean : Bool} {before after : CoreState} {row : Row RoomEvent}
    (h : foldStaged codec requireClean before row = .ok after) :
    ∃ event outcome, codec.coreEvent.safeParse row.event = .ok event ∧
      step before ⟨event, row.trusted⟩ = .ok (outcome, after) := by
  unfold foldStaged appendEvent at h
  cases hparse : codec.coreEvent.safeParse row.event with
  | error issues =>
    rw [hparse] at h
    cases h
  | ok event =>
    rw [hparse] at h
    dsimp only at h
    cases hstep : step before ⟨event, row.trusted⟩ with
    | error e =>
      rw [hstep] at h
      cases h
    | ok result =>
      obtain ⟨outcome, state⟩ := result
      rw [hstep] at h
      refine ⟨event, outcome, rfl, ?_⟩
      cases outcome with
      | applied held actor =>
        cases h
        exact hstep
      | appliedWithIssue held actor issues =>
        dsimp only at h
        split at h
        · cases h
        · cases h
          exact hstep
      | rejected held actor reason detail => cases h
      | malformed actor detail => cases h

theorem foldRows_inserted {event : RoomEvent} {roomId : Id} {row : NewRow} {after : CoreState}
    {folded : Option (Option (List ProvenanceMessage))}
    {window : Option (List ProvenanceMessage)} {around : Neighbours} (held : List CoreEventRow)
    (seq : Nat) (hback : codec.BringsBack) {json : Json} (hevent : codec.roomEvent json = .ok event)
    (hfew : ∀ core, codec.coreEvent.safeParse event = .ok core →
      ¬ SeveralStrays staging.state core)
    (hrow : rowFor codec event request.actor roomId = .ok row)
    (hfold : foldOrSkip codec request staging.state event window = .ok (after, folded))
    (hwindow : keepsWindow (around.receiptWindow row.roomId row.actorKind row.payload) folded = true) :
    ∃ outcomes, foldRows staging.state (readableCore codec [insertedRow around held seq row]) =
      .ok (outcomes, after) := by
  obtain ⟨hpayload, hkind, hid, -⟩ := rowFor_ok hrow
  obtain ⟨event', hread', hsame⟩ := hback.roomEvent json event hevent
  have hparse : codec.roomEvent (insertedRow around held seq row).payload = .ok event' := by
    show codec.roomEvent row.payload = _
    rw [hpayload]
    exact hread'
  have hkindSame : isCoreEvent event' = isCoreEvent event := by
    cases hsame with
    | core => rfl
    | server => rfl
  have hactor : actorFromColumns (insertedRow around held seq row).actorKind
      (insertedRow around held seq row).actorId = request.actor := by
    show actorFromColumns row.actorKind row.actorId = _
    rw [hkind, hid]
    exact actorFromColumns_toColumns request.actor
  have hread : trustedWindow (insertedRow around held seq row).trustedMessages =
      .ok (around.receiptWindow row.roomId row.actorKind row.payload) := trustedWindow_json _
  have hcore : coreRow codec (insertedRow around held seq row) =
      if isCoreEvent event then some ⟨event', ⟨request.actor,
        around.receiptWindow row.roomId row.actorKind row.payload⟩⟩ else none := by
    unfold coreRow parseRow
    rw [hparse]
    dsimp only
    rw [hread]
    dsimp only
    rw [hactor, hkindSame]
  unfold foldOrSkip at hfold
  by_cases hisCore : isCoreEvent event = true
  · rw [if_pos hisCore] at hfold hcore
    obtain ⟨state, hstaged, hfold⟩ := bind_ok hfold
    cases hfold
    obtain ⟨core, outcome, hsafe, hstep⟩ := foldStaged_ok hstaged
    -- The window the event was folded under is the one of the row.
    have hwindowSame := windowText_inj (eq_of_beq hwindow)
    rw [hwindowSame] at hstep
    -- The event that comes back has the effect of the one that was folded.
    obtain ⟨core', hsafe', hcoreSame⟩ := hback.coreEvent event event' core hsame hsafe
    obtain ⟨outcome', hstep'⟩ := step_reordered hcoreSame (hfew core hsafe) hstep
    refine ⟨[outcome'], ?_⟩
    rw [readableCore_eq, List.filterMap_cons]
    unfold readRow
    rw [hcore, Option.bind_some]
    dsimp only
    rw [hsafe']
    exact foldRows_cons_ok.mpr ⟨outcome', after, [], hstep', rfl, rfl⟩
  · rw [if_neg hisCore] at hfold hcore
    cases hfold
    refine ⟨[], ?_⟩
    rw [readableCore_eq, List.filterMap_cons]
    unfold readRow
    rw [hcore]
    rfl

end Stage

end Server
