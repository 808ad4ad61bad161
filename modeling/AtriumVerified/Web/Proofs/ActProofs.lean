import Mathlib.Data.List.Basic
import Mathlib.Logic.Relation
import AtriumVerified.Web.Client

/-!
# Proofs: what a step of a client is made of

Whatever happens to a client, its rooms change by a few acts: a room is loaded from the journal, an
entry in the next place is committed and applied, a history is discarded, a room is left, a preview is
stored, a floor is raised. Everything else changes fields that none of these read. Messages and sockets
are acts of their own.
-/

namespace Web

open Relation Client

variable {σ : Type} {options : ClientOptions σ} {begun client : Client σ}
  {taken : Client.Step}

def ServerFrame.Discards (frame : ServerFrame) (roomId : String) (lastSeq : Nat) : Prop :=
  ∃ head seenSeq progress, frame = .subscribed roomId head seenSeq progress ∧ head < lastSeq

def Client.Step.Carries (taken : Client.Step) (entry : RoomEntry) : Prop :=
  ∃ frame now, taken = .frame frame now ∧ entry ∈ frame.entries

def Client.Step.Discards (taken : Client.Step) (roomId : String) (lastSeq : Nat) : Prop :=
  ∃ frame now, taken = .frame frame now ∧ frame.Discards roomId lastSeq

/-- The step is about a message, a command or a socket. -/
def Client.Step.Mails : Client.Step → Prop
  | .frame (.ack ..) _ | .frame (.nack ..) _ | .attach | .opened _ | .closed _ | .close | .sendMessage ..
  | .answerMessage .. | .retryMessage .. | .command _ => True
  | _ => False

/-- A change of a room that leaves its timeline, its wall and its floors alone, and adds no preview. -/
structure RoomView.Keeps (room changed : RoomView) : Prop where
  events : changed.events = room.events
  lastSeq : changed.lastSeq = room.lastSeq
  settledSessions : changed.settledSessions = room.settledSessions
  progressFloor : changed.progressFloor = room.progressFloor
  progress : ∀ sessionId frame, changed.progress.get sessionId = some frame →
    room.progress.get sessionId = some frame

/-- A change of a room that leaves its messages alone as well. -/
structure RoomView.KeepsAll (room changed : RoomView) : Prop extends room.Keeps changed where
  pending : changed.pending = room.pending

inductive Act (options : ClientOptions σ) (begun : Client σ) (taken : Client.Step) :
    Client σ → Client σ → Prop
  | load (client : Client σ) (roomId : String) : client.rooms.get roomId = none →
      Act options begun taken client { client with
        store := (options.journal.load client.store roomId).2
        rooms := client.rooms.set roomId
          (resumedRoom roomId (options.journal.load client.store roomId).1) }
  | touch (client : Client σ) (roomId : String) (room changed : RoomView) :
      client.rooms.get roomId = some room → room.KeepsAll changed →
      Act options begun taken client { client with rooms := client.rooms.set roomId changed }
  | raise (client : Client σ) (roomId : String) (room : RoomView) (snapshots : List (String × Nat))
      (progress : Js.Map String ProgressFrame) : client.rooms.get roomId = some room →
      Act options begun taken client { client with rooms := client.rooms.set roomId { room with
        progressFloor := (snapshots.foldl raiseFloor (room.progressFloor, progress, false)).1 } }
  | preview (client : Client σ) (frame : ProgressFrame) (now : Nat) (room : RoomView) :
      taken = .frame (.progress frame) now → client.rooms.get frame.roomId = some room →
      frame.sessionId ∉ room.settledSessions → staleProgress room.progressFloor frame = false →
      Act options begun taken client { client with rooms := client.rooms.set frame.roomId { room with
        progress := room.progress.set frame.sessionId frame
        progressFloor := room.progressFloor.set frame.sessionId frame.progressSeq } }
  | apply (client : Client σ) (entry : RoomEntry) (room : RoomView) :
      client.rooms.get entry.roomId = some room → entry.roomSeq = room.lastSeq + 1 →
      entry ∈ begun.applied options taken →
      Act options begun taken client { client with
        store := options.journal.commit client.store entry.roomId entry entry.roomSeq
        rooms := client.rooms.set entry.roomId (applyNext options.userId entry room) }
  | discard (client : Client σ) (roomId : String) (room : RoomView) :
      client.rooms.get roomId = some room → taken.Discards roomId room.lastSeq →
      room = { (begun.view options roomId).1 with subscribed := true } →
      Act options begun taken client { client with
        store := options.journal.reset client.store roomId
        rooms := client.rooms.set roomId { room with events := [], lastSeq := 0, pending := [] } }
  | leave (client : Client σ) (roomId : String) : taken = .leave roomId →
      Act options begun taken client { client with rooms := client.rooms.delete roomId }
  | send (client : Client σ) (frame : ClientFrame) : (∀ commandId command,
      frame ≠ .command commandId command) → Act options begun taken client (client.send frame)
  /-- Errors, gaps and what a connection is about to be. -/
  | idle (client next : Client σ) : next.store = client.store → next.rooms = client.rooms →
      next.inFlight = client.inFlight → next.socket = client.socket →
      next.openSockets = client.openSockets → next.nextCommandId = client.nextCommandId →
      next.sent = client.sent → Act options begun taken client next
  | pend (client : Client σ) (roomId : String) (room changed : RoomView) : taken.Mails →
      client.rooms.get roomId = some room → room.Keeps changed →
      room.pending.map PendingMessage.clientMessageId ⊆
        changed.pending.map PendingMessage.clientMessageId →
      Act options begun taken client { client with rooms := client.rooms.set roomId changed }
  | mail (client next : Client σ) : taken.Mails → next.store = client.store →
      next.rooms = client.rooms → Act options begun taken client next
  | drop (client : Client σ) : taken.Mails →
      Act options begun taken client { client with rooms := client.rooms.mapValues fun _ => dropRoom }

abbrev Acts (options : ClientOptions σ) (begun : Client σ) (taken : Client.Step) :
    Client σ → Client σ → Prop :=
  ReflTransGen (Act options begun taken)

section Acts

variable {roomId : String}

/-! ## Rooms -/

theorem get_view (client : Client σ) (roomId : String) :
    (client.view options roomId).2.rooms.get roomId = some (client.view options roomId).1 := by
  unfold Client.view
  cases h : client.rooms.get roomId with
  | some existing => exact h
  | none => exact (Js.Map.get_set _ _ _ _).trans (if_pos rfl)

theorem view_of_get {room : RoomView} (h : client.rooms.get roomId = some room) :
    client.view options roomId = (room, client) := by
  unfold Client.view
  rw [h]

theorem view_changed (client : Client σ) (roomId : String) :
    (client.changed options roomId).view options roomId = client.view options roomId :=
  view_of_get (get_view client roomId)

theorem get_modifyRoom (client : Client σ) (roomId : String) (change : RoomView → RoomView) :
    (client.modifyRoom options roomId change).rooms.get roomId =
      some (change (client.view options roomId).1) := by
  unfold Client.modifyRoom
  dsimp only
  rw [Js.Map.get_set, if_pos rfl]

theorem modifyRoom_of_get {room : RoomView} (h : client.rooms.get roomId = some room)
    (change : RoomView → RoomView) : client.modifyRoom options roomId change =
      { client with rooms := client.rooms.set roomId (change room) } := by
  unfold Client.modifyRoom
  rw [view_of_get h]

theorem get_set_self (rooms : Js.Map String RoomView) (roomId : String) (room : RoomView) :
    (rooms.set roomId room).get roomId = some room :=
  (Js.Map.get_set _ _ _ _).trans (if_pos rfl)

theorem acts_view (client : Client σ) (roomId : String) :
    Acts options begun taken client (client.view options roomId).2 := by
  unfold Client.view
  cases h : client.rooms.get roomId with
  | some existing => exact ReflTransGen.refl
  | none => exact ReflTransGen.single (Act.load client roomId h)

theorem acts_changed (client : Client σ) (roomId : String) :
    Acts options begun taken client (client.changed options roomId) := acts_view client roomId

theorem acts_modifyRoom (client : Client σ) (roomId : String) {change : RoomView → RoomView}
    (hkeeps : ∀ room : RoomView, room.KeepsAll (change room)) :
    Acts options begun taken client (client.modifyRoom options roomId change) :=
  (acts_view client roomId).tail (Act.touch _ roomId _ _ (get_view client roomId) (hkeeps _))

theorem acts_pendRoom (hmails : taken.Mails) (client : Client σ) (roomId : String)
    {change : RoomView → RoomView} (hkeeps : ∀ room : RoomView, room.Keeps (change room))
    (hpending : ∀ room : RoomView, room.pending.map PendingMessage.clientMessageId ⊆
      (change room).pending.map PendingMessage.clientMessageId) :
    Acts options begun taken client (client.modifyRoom options roomId change) :=
  (acts_view client roomId).tail
    (Act.pend _ roomId _ _ hmails (get_view client roomId) (hkeeps _) (hpending _))

theorem acts_fail (client : Client σ) (message : String) :
    Acts options begun taken client (client.fail message) :=
  ReflTransGen.single (Act.idle client _ rfl rfl rfl rfl rfl rfl rfl)

theorem acts_gaps (client : Client σ) (stalled : Js.Map String Nat)
    (stalledGap : Js.Map String StalledGap) :
    Acts options begun taken client ({ client with stalled, stalledGap } : Client σ) :=
  ReflTransGen.single (Act.idle client _ rfl rfl rfl rfl rfl rfl rfl)

theorem acts_mail (hmails : taken.Mails) (client next : Client σ) (hstore : next.store = client.store)
    (hrooms : next.rooms = client.rooms) : Acts options begun taken client next :=
  ReflTransGen.single (Act.mail client next hmails hstore hrooms)

theorem rooms_send (client : Client σ) (frame : ClientFrame) :
    (client.send frame).store = client.store ∧ (client.send frame).rooms = client.rooms := by
  unfold Client.send
  split
  · exact ⟨rfl, rfl⟩
  split
  · exact ⟨rfl, rfl⟩
  · exact ⟨rfl, rfl⟩

theorem acts_requestSince (client : Client σ) (roomId : String) :
    Acts options begun taken client (client.requestSince options roomId) := by
  refine (acts_view client roomId).tail (Act.send _ _ ?_)
  rintro commandId command ⟨⟩

theorem acts_acknowledgeHead (client : Client σ) (roomId : String) :
    Acts options begun taken client (client.acknowledgeHead options roomId) := by
  refine (acts_view client roomId).tail (Act.send _ _ ?_)
  rintro commandId command ⟨⟩

/-! ## Entries -/

theorem mem_of_inPlace {cursor : Nat} {entries : List RoomEntry} {entry : RoomEntry}
    (h : entry ∈ inPlace cursor entries) : entry ∈ entries := by
  induction entries generalizing cursor with
  | nil => cases h
  | cons first rest ih =>
    unfold inPlace at h
    split at h
    · rcases List.mem_cons.mp h with rfl | hlater
      · exact List.mem_cons_self
      · exact List.mem_cons_of_mem _ (ih hlater)
    · exact List.mem_cons_of_mem _ (ih h)

theorem mem_inPlace_single {cursor : Nat} {entry : RoomEntry} (h : entry.roomSeq = cursor + 1) :
    entry ∈ inPlace cursor [entry] := by
  unfold inPlace
  rw [if_pos h]
  exact List.mem_cons_self

theorem applied_carries {entry : RoomEntry} (h : entry ∈ client.applied options taken) :
    taken.Carries entry := by
  unfold Client.applied at h
  split at h
  · next envelope now => exact ⟨.event envelope, now, rfl, mem_of_inPlace h⟩
  · next row now => exact ⟨.tombstone row, now, rfl, mem_of_inPlace h⟩
  · next page now => exact ⟨.catchup page, now, rfl, mem_of_inPlace h⟩
  · cases h

theorem lastSeq_applyNext (userId : String) (entry : RoomEntry) (room : RoomView) :
    (applyNext userId entry room).lastSeq = entry.roomSeq := by
  cases entry with
  | event envelope => rfl
  | tombstone row => rfl

theorem room_applyEntry (client : Client σ) (entry : RoomEntry) :
    ((client.applyEntry options entry).view options entry.roomId).1 =
      if entry.roomSeq = (client.view options entry.roomId).1.lastSeq + 1 then
        applyNext options.userId entry (client.view options entry.roomId).1
      else (client.view options entry.roomId).1 := by
  have hroom : (client.view options entry.roomId).2.rooms.get entry.roomId =
    some (client.view options entry.roomId).1 := get_view client entry.roomId
  unfold Client.applyEntry
  generalize client.view options entry.roomId = viewed at hroom
  obtain ⟨room, opened⟩ := viewed
  dsimp only at hroom ⊢
  split
  · rw [view_of_get hroom, if_neg (by omega)]
  split
  · have hasked : (opened.requestSince options entry.roomId).rooms.get entry.roomId = some room := by
      unfold Client.requestSince
      rw [view_of_get hroom]
      dsimp only
      rw [(rooms_send _ _).2, hroom]
    rw [view_of_get hasked, if_neg (by omega)]
  · have hopen : ({ opened with
      store := options.journal.commit opened.store entry.roomId entry entry.roomSeq } :
        Client σ).rooms.get entry.roomId = some room := hroom
    have happlied : ({ opened with
        store := options.journal.commit opened.store entry.roomId entry entry.roomSeq
        rooms := opened.rooms.set entry.roomId (applyNext options.userId entry room) } :
        Client σ).rooms.get entry.roomId = some (applyNext options.userId entry room) :=
      get_set_self _ _ _
    rw [modifyRoom_of_get hopen, view_changed, view_of_get happlied, if_pos (by omega)]

theorem lastSeq_applyEntry (client : Client σ) (entry : RoomEntry) :
    ((client.applyEntry options entry).view options entry.roomId).1.lastSeq =
      if entry.roomSeq = (client.view options entry.roomId).1.lastSeq + 1 then entry.roomSeq
      else (client.view options entry.roomId).1.lastSeq := by
  rw [room_applyEntry]
  split
  · exact lastSeq_applyNext _ _ _
  · rfl

theorem acts_applyEntry (client : Client σ) {entry : RoomEntry}
    (happlied : entry.roomSeq = (client.view options entry.roomId).1.lastSeq + 1 →
      entry ∈ begun.applied options taken) :
    Acts options begun taken client (client.applyEntry options entry) := by
  have hview : Acts options begun taken client (client.view options entry.roomId).2 :=
    acts_view client entry.roomId
  have hroom : (client.view options entry.roomId).2.rooms.get entry.roomId =
    some (client.view options entry.roomId).1 := get_view client entry.roomId
  unfold Client.applyEntry
  generalize client.view options entry.roomId = viewed at hview hroom happlied
  obtain ⟨room, opened⟩ := viewed
  dsimp only at hview hroom happlied ⊢
  split
  · exact hview
  split
  · exact hview.trans (acts_requestSince opened entry.roomId)
  next hnew hnext =>
  have hposition : entry.roomSeq = room.lastSeq + 1 := by omega
  have hopen : ({ opened with
    store := options.journal.commit opened.store entry.roomId entry entry.roomSeq } :
      Client σ).rooms.get entry.roomId = some room := hroom
  rw [modifyRoom_of_get hopen]
  exact (hview.tail (Act.apply opened entry room hroom hposition (happlied hposition))).trans
    (acts_changed _ entry.roomId)

theorem acts_applyPage (client : Client σ) {entries : List (Option RoomEntry)}
    (hroom : ∀ entry, some entry ∈ entries → entry.roomId = roomId)
    (happlied : ∀ entry ∈ inPlace (client.view options roomId).1.lastSeq (entries.filterMap id),
      entry ∈ begun.applied options taken) :
    Acts options begun taken client (client.applyPage options entries).1 := by
  unfold Client.applyPage
  generalize 0 = skipped
  induction entries generalizing client skipped with
  | nil => exact ReflTransGen.refl
  | cons entry entries ih =>
    have hrest (entry : RoomEntry) (h : some entry ∈ entries) : entry.roomId = roomId :=
      hroom entry (List.mem_cons_of_mem _ h)
    rw [List.foldl_cons]
    cases entry with
    | none => exact ih client hrest happlied _
    | some entry =>
      obtain rfl : entry.roomId = roomId := hroom entry List.mem_cons_self
      have hcursor : ((client.applyEntry options entry).view options entry.roomId).1.lastSeq =
        if entry.roomSeq = (client.view options entry.roomId).1.lastSeq + 1 then entry.roomSeq
        else (client.view options entry.roomId).1.lastSeq := lastSeq_applyEntry client entry
      have hwhole : (some entry :: entries).filterMap id = entry :: entries.filterMap id := rfl
      rw [hwhole] at happlied
      unfold inPlace at happlied
      by_cases hplace : entry.roomSeq = (client.view options entry.roomId).1.lastSeq + 1
      · rw [if_pos hplace] at happlied hcursor
        refine (acts_applyEntry client fun _ => happlied entry List.mem_cons_self).trans
          (ih _ hrest ?_ _)
        rw [hcursor]
        exact fun later hlater => happlied later (List.mem_cons_of_mem _ hlater)
      · rw [if_neg hplace] at happlied hcursor
        refine (acts_applyEntry client fun hposition => absurd hposition hplace).trans
          (ih _ hrest ?_ _)
        rw [hcursor]
        exact happlied

/-! ## Frames -/

/-- A snapshot takes previews away and adds none. -/
theorem progress_raiseFloors (snapshots : List (String × Nat))
    (state : Js.Map String Nat × Js.Map String ProgressFrame × Bool) {sessionId : String}
    {frame : ProgressFrame} (h : (snapshots.foldl raiseFloor state).2.1.get sessionId = some frame) :
    state.2.1.get sessionId = some frame := by
  induction snapshots generalizing state with
  | nil => exact h
  | cons snapshot snapshots ih =>
    have hkept (superseded : Bool) (hafter : (if superseded then state.2.1.delete snapshot.1
        else state.2.1).get sessionId = some frame) : state.2.1.get sessionId = some frame := by
      cases superseded with
      | false => exact hafter
      | true =>
        rw [if_pos rfl, Js.Map.get_delete] at hafter
        split at hafter
        · cases hafter
        · exact hafter
    exact hkept _ (ih _ h)

theorem acts_recoverProgress (client : Client σ) (roomId : String) (snapshots : List (String × Nat)) :
    Acts options begun taken client (client.recoverProgress options roomId snapshots) := by
  have hroom : (client.view options roomId).2.rooms.get roomId = some (client.view options roomId).1 :=
    get_view client roomId
  have hview : Acts options begun taken client (client.view options roomId).2 := acts_view client roomId
  unfold Client.recoverProgress
  generalize client.view options roomId = viewed at hroom hview
  obtain ⟨room, opened⟩ := viewed
  dsimp only at hroom hview ⊢
  split
  · exact ReflTransGen.refl
  rw [modifyRoom_of_get hroom]
  have htouched : Acts options begun taken client { opened with
      rooms := opened.rooms.set roomId { room with
        progress := (snapshots.foldl raiseFloor (room.progressFloor, room.progress, false)).2.1 } } :=
    hview.tail (Act.touch opened roomId room _ hroom
      ⟨⟨rfl, rfl, rfl, rfl, fun _ _ => progress_raiseFloors snapshots _⟩, rfl⟩)
  split
  · have hopen (progress : Js.Map String ProgressFrame) :
        ({ opened with rooms := opened.rooms.set roomId { room with progress } } :
          Client σ).rooms.get roomId = some { room with progress } := get_set_self _ roomId _
    rw [modifyRoom_of_get (hopen _)]
    exact (htouched.tail (Act.raise _ roomId _ snapshots room.progress (hopen _))).trans
      (acts_changed _ roomId)
  · exact htouched

theorem acts_handleProgress (client : Client σ) (frame : ProgressFrame) {now : Nat}
    (htaken : taken = .frame (.progress frame) now) :
    Acts options begun taken client (client.handleProgress options frame) := by
  have hroom : (client.view options frame.roomId).2.rooms.get frame.roomId =
    some (client.view options frame.roomId).1 := get_view client frame.roomId
  have hview : Acts options begun taken client (client.view options frame.roomId).2 :=
    acts_view client frame.roomId
  unfold Client.handleProgress
  generalize client.view options frame.roomId = viewed at hroom hview
  obtain ⟨room, opened⟩ := viewed
  dsimp only at hroom hview ⊢
  split
  · exact hview
  next hwall =>
  split
  · exact hview
  next hfloor =>
  rw [modifyRoom_of_get hroom]
  exact (hview.tail (Act.preview opened frame now room htaken hroom hwall
    (Bool.eq_false_iff.mpr hfloor))).trans (acts_changed _ frame.roomId)

/-- The frame that may discard a history: the cursor is past the head it names. -/
theorem acts_handleSubscribed (client : Client σ) (roomId : String) (head seenSeq : Nat)
    (progress : List (String × Nat)) {now : Nat}
    (htaken : taken = .frame (.subscribed roomId head seenSeq progress) now) :
    Acts options client taken client (client.handleSubscribed options roomId head seenSeq progress) := by
  have hview : Acts options client taken client (client.view options roomId).2 := acts_view client roomId
  have hroom : (client.view options roomId).2.rooms.get roomId = some (client.view options roomId).1 :=
    get_view client roomId
  unfold Client.handleSubscribed
  generalize hviewed : client.view options roomId = viewed at hview hroom
  obtain ⟨room, opened⟩ := viewed
  dsimp only at hview hroom ⊢
  -- The frame is taken in before the room is told.
  have hend (next : Client σ) (h : Acts options client taken client next) :
      Acts options client taken client (((((next.modifyRoom options roomId fun room => { room with head, seenSeq }).changed options
        roomId).changed options roomId).recoverProgress options roomId progress).requestSince
          options roomId) :=
    ((((h.trans (acts_modifyRoom next roomId fun _ => by exact ⟨⟨rfl, rfl, rfl, rfl, fun _ _ => id⟩, rfl⟩)).trans
      (acts_changed _ roomId)).trans (acts_changed _ roomId)).trans
        (acts_recoverProgress _ roomId progress)).trans (acts_requestSince _ roomId)
  have hsubscribed : Acts options client taken client
      (opened.modifyRoom options roomId fun room => { room with subscribed := true }) :=
    hview.trans (acts_modifyRoom _ _ fun _ => by exact ⟨⟨rfl, rfl, rfl, rfl, fun _ _ => id⟩, rfl⟩)
  have hopen : (opened.modifyRoom options roomId fun room =>
      { room with subscribed := true }).rooms.get roomId = some { room with subscribed := true } := by
    rw [get_modifyRoom, view_of_get hroom]
  generalize (opened.modifyRoom options roomId fun room => { room with subscribed := true }) = next
    at hsubscribed hopen
  split
  · exact hend _ hsubscribed
  · next hpast =>
    have hdiscarded (message : String) : Acts options client taken client
        (({ next.fail message with
          store := options.journal.reset (next.fail message).store roomId } : Client σ).modifyRoom
            options roomId fun room => { room with events := [], lastSeq := 0, pending := [] }) := by
      have hfailed : ({ next.fail message with
        store := options.journal.reset (next.fail message).store roomId } : Client σ).rooms.get roomId =
          some { room with subscribed := true } := hopen
      rw [modifyRoom_of_get hfailed]
      exact (hsubscribed.trans (acts_fail next message)).tail (Act.discard (next.fail message) roomId
        { room with subscribed := true } hopen ⟨_, now, htaken, head, seenSeq, progress, rfl,
          Nat.lt_of_not_le hpast⟩ (by rw [hviewed]))
    exact hend _ (hdiscarded _)

theorem acts_handleHead (client : Client σ) (roomId : String) (head now : Nat) :
    Acts options begun taken client (client.handleHead options roomId head now) := by
  unfold Client.handleHead
  dsimp only
  have hhead : Acts options begun taken client
      (client.modifyRoom options roomId fun room => { room with head := max room.head head }) :=
    acts_modifyRoom _ _ fun _ => by exact ⟨⟨rfl, rfl, rfl, rfl, fun _ _ => id⟩, rfl⟩
  generalize client.modifyRoom options roomId (fun room => { room with head := max room.head head }) =
    raised at hhead
  have hview : Acts options begun taken client (raised.view options roomId).2 :=
    hhead.trans (acts_view raised roomId)
  generalize raised.view options roomId = viewed at hview
  obtain ⟨room, opened⟩ := viewed
  dsimp only at hview ⊢
  have hend (next : Client σ) (h : Acts options begun taken client next) : Acts options begun taken client
      ((next.acknowledgeHead options roomId).changed options roomId) :=
    (h.trans (acts_acknowledgeHead _ roomId)).trans (acts_changed _ roomId)
  have hask (gaps : Js.Map String StalledGap) : Acts options begun taken client
      (({ opened with stalledGap := gaps } : Client σ).requestSince options roomId) :=
    (hview.trans (acts_gaps opened opened.stalled gaps)).trans (acts_requestSince _ roomId)
  refine hend _ ?_
  split
  · split
    · split
      · split
        · exact hview
        · exact hask _
      · exact hask _
    · exact hask opened.stalledGap
  · exact hview

theorem acts_latchGap (client : Client σ) (roomId : String) (room : RoomView) (rounds now : Nat) :
    Acts options begun taken client (client.latchGap roomId room rounds now) := by
  unfold Client.latchGap
  split
  · exact ReflTransGen.refl
  · exact (acts_fail client _).trans (acts_gaps _ _ _)

theorem acts_pursueGap (client : Client σ) (roomId : String) (room : RoomView) (before now : Nat) :
    Acts options begun taken client (client.pursueGap options roomId room before now) := by
  have hcounted : Acts options begun taken client (client.countRound roomId (before < room.lastSeq)).2 :=
    acts_gaps client _ _
  unfold Client.pursueGap
  generalize client.countRound roomId (before < room.lastSeq) = counted at hcounted
  obtain ⟨rounds, counted⟩ := counted
  dsimp only at hcounted ⊢
  split
  · exact hcounted.trans (acts_latchGap counted roomId room rounds now)
  · exact hcounted.trans (acts_requestSince counted roomId)

theorem acts_closeGap (client : Client σ) (roomId : String) :
    Acts options begun taken client (client.closeGap options roomId) :=
  (acts_gaps client (client.stalled.delete roomId) (client.stalledGap.delete roomId)).trans
    (acts_acknowledgeHead _ roomId)

theorem acts_reportSkipped (client : Client σ) (roomId : String) (skipped : Nat) :
    Acts options begun taken client (client.reportSkipped roomId skipped) := by
  unfold Client.reportSkipped
  split
  · exact ReflTransGen.refl
  · exact acts_fail client _

theorem acts_handleCatchup (client : Client σ) (page : CatchupPage) (now : Nat)
    (happlied : ∀ entry ∈ inPlace (client.view options page.roomId).1.lastSeq
      (page.entries.filterMap id), entry ∈ begun.applied options taken) :
    Acts options begun taken client (client.handleCatchup options page now) := by
  have hroom : (client.view options page.roomId).2.rooms.get page.roomId =
    some (client.view options page.roomId).1 := get_view client page.roomId
  unfold Client.handleCatchup
  have hview : Acts options begun taken client (client.view options page.roomId).2 :=
    acts_view client page.roomId
  generalize client.view options page.roomId = viewed at hview hroom happlied
  obtain ⟨room, opened⟩ := viewed
  dsimp only at hview hroom happlied ⊢
  have hhead : Acts options begun taken client
      (opened.modifyRoom options page.roomId fun room => { room with head := max room.head page.head }) :=
    hview.trans (acts_modifyRoom _ _ fun _ => by exact ⟨⟨rfl, rfl, rfl, rfl, fun _ _ => id⟩, rfl⟩)
  have hpage : Acts options begun taken client
      ((opened.modifyRoom options page.roomId fun room =>
        { room with head := max room.head page.head }).applyPage options page.entries).1 := by
    refine hhead.trans (acts_applyPage _ page.sameRoom ?_)
    rw [modifyRoom_of_get hroom, view_of_get (get_set_self _ _ _)]
    exact happlied
  generalize (opened.modifyRoom options page.roomId fun room =>
    { room with head := max room.head page.head }).applyPage options page.entries = applied at hpage
  obtain ⟨applied, skipped⟩ := applied
  dsimp only at hpage ⊢
  have hopened : Acts options begun taken client
      ((applied.reportSkipped page.roomId skipped).view options page.roomId).2 :=
    (hpage.trans (acts_reportSkipped applied page.roomId skipped)).trans (acts_view _ page.roomId)
  refine ReflTransGen.trans ?_ (acts_changed _ page.roomId)
  split
  · exact hopened.trans (acts_pursueGap _ page.roomId _ _ now)
  · exact hopened.trans (acts_closeGap _ page.roomId)

/-! ## Messages and sockets -/

theorem map_changeFirst {condition : PendingMessage → Bool} {change : PendingMessage → PendingMessage}
    (hsame : ∀ item, (change item).clientMessageId = item.clientMessageId)
    (pending : List PendingMessage) :
    (changeFirst condition change pending).map PendingMessage.clientMessageId =
      pending.map PendingMessage.clientMessageId := by
  induction pending with
  | nil => rfl
  | cons item rest ih =>
    unfold changeFirst
    split
    · rw [List.map_cons, List.map_cons, hsame]
    · rw [List.map_cons, List.map_cons, ih]

theorem acts_changePending (hmails : taken.Mails) (client : Client σ) (dispatched : InFlight)
    {change : PendingMessage → PendingMessage}
    (hsame : ∀ item, (change item).clientMessageId = item.clientMessageId) :
    Acts options begun taken client (client.changePending options dispatched change) :=
  acts_pendRoom hmails _ _ (fun _ => by exact ⟨rfl, rfl, rfl, rfl, fun _ _ => id⟩) fun room => by
    rw [map_changeFirst hsame]
    exact List.Subset.refl _

theorem acts_answered (hmails : taken.Mails) (client : Client σ) (commandId : String) :
    Acts options begun taken client (client.answered commandId) :=
  acts_mail hmails _ _ rfl rfl

theorem acts_dispatched (hmails : taken.Mails) (client : Client σ) (commandId : String)
    (message : InFlight) : Acts options begun taken client (client.dispatched commandId message) :=
  acts_mail hmails _ _ rfl rfl

theorem acts_command (hmails : taken.Mails) (client : Client σ) (command : ClientCommand) :
    Acts options begun taken client (client.command command).2 :=
  acts_mail hmails _ _ (rooms_send _ _).1 (rooms_send _ _).2

theorem acts_handleAck (client : Client σ) (commandId : String) (roomSeq : Option Nat)
    (issues : List String) (hmails : taken.Mails) :
    Acts options begun taken client (client.handleAck options commandId roomSeq issues) := by
  unfold Client.handleAck
  dsimp only
  have hanswered : Acts options begun taken client (client.answered commandId) :=
    acts_answered hmails client commandId
  generalize client.answered commandId = answered at hanswered
  have hend (next : Client σ) (h : Acts options begun taken client next) (message : String) :
      Acts options begun taken client (if issues = [] then next else next.fail message) := by
    split
    · exact h
    · exact h.trans (acts_fail next message)
  cases client.inFlight.get commandId with
  | none => exact hend _ hanswered _
  | some dispatched =>
    cases roomSeq with
    | none => exact hend _ hanswered _
    | some roomSeq => exact hend _ (hanswered.trans
      (acts_changePending hmails answered dispatched fun _ => by rfl)) _

theorem acts_handleNack (client : Client σ) (commandId code message : String) (hmails : taken.Mails) :
    Acts options begun taken client (client.handleNack options commandId code message) := by
  unfold Client.handleNack
  dsimp only
  refine ReflTransGen.trans ?_ (acts_fail _ _)
  have hanswered : Acts options begun taken client (client.answered commandId) :=
    acts_answered hmails client commandId
  generalize client.answered commandId = answered at hanswered
  cases client.inFlight.get commandId with
  | none => exact hanswered
  | some dispatched =>
    exact (hanswered.trans (acts_changePending hmails answered dispatched fun _ => by rfl)).trans
      (acts_changed _ dispatched.roomId)

theorem acts_handleFrame (client : Client σ) (frame : ServerFrame) (now : Nat) :
    Acts options client (.frame frame now) client (client.handleFrame options frame now) := by
  cases frame with
  | welcome => exact ReflTransGen.refl
  | pong => exact ReflTransGen.refl
  | subscribed roomId head seenSeq progress =>
    exact acts_handleSubscribed client roomId head seenSeq progress rfl
  | unsubscribed roomId =>
    show Acts _ _ _ _ (client.modifyRoom options roomId fun room => { room with subscribed := false })
    exact acts_modifyRoom _ _ fun _ => by exact ⟨⟨rfl, rfl, rfl, rfl, fun _ _ => id⟩, rfl⟩
  | event entry =>
    exact acts_applyEntry client fun hposition => mem_inPlace_single hposition
  | tombstone row =>
    exact acts_applyEntry client fun hposition => mem_inPlace_single hposition
  | head roomId head => exact acts_handleHead client roomId head now
  | catchup page => exact acts_handleCatchup client page now fun entry hentry => hentry
  | ack commandId roomSeq issues => exact acts_handleAck client commandId roomSeq issues trivial
  | nack commandId code message => exact acts_handleNack client commandId code message trivial
  | presence roomId userId state =>
    show Acts _ _ _ _ (client.modifyRoom options roomId fun room => { room with
      presence := room.presence.set userId state })
    exact acts_modifyRoom _ _ fun _ => by exact ⟨⟨rfl, rfl, rfl, rfl, fun _ _ => id⟩, rfl⟩
  | typing roomId userId typing =>
    unfold Client.handleFrame
    exact acts_modifyRoom _ _ fun _ => by exact ⟨⟨rfl, rfl, rfl, rfl, fun _ _ => id⟩, rfl⟩
  | projectionChanged roomId => exact acts_changed client roomId
  | progress frame => exact acts_handleProgress client frame rfl
  | seen roomId userId seenSeq =>
    unfold Client.handleFrame
    dsimp only
    split
    · exact ReflTransGen.refl
    · exact acts_modifyRoom _ _ fun _ => by exact ⟨⟨rfl, rfl, rfl, rfl, fun _ _ => id⟩, rfl⟩
  | error message => exact acts_fail client message

theorem clientMessageId_dropMessage (item : PendingMessage) :
    (dropMessage item).clientMessageId = item.clientMessageId := by
  unfold dropMessage
  split
  · rfl
  · rfl

theorem acts_dropVolatileState (hmails : taken.Mails) (client : Client σ) :
    Acts options begun taken client (client.dropVolatileState options) := by
  unfold Client.dropVolatileState
  dsimp only
  have hfailed (entries : List (String × InFlight)) (start : Client σ) :
      Acts options begun taken start (entries.foldl (dropCommand options) start) := by
    induction entries generalizing start with
    | nil => exact ReflTransGen.refl
    | cons entry entries ih =>
      rw [List.foldl_cons]
      exact ((acts_changePending hmails start entry.2 clientMessageId_dropMessage).trans
        (acts_answered hmails _ entry.1)).trans (ih _)
  have hmoved := hfailed client.inFlight.entries client
  generalize client.inFlight.entries.foldl (dropCommand options) client = failed at hmoved
  exact (hmoved.tail (Act.drop failed hmails)).trans (acts_gaps _ _ _)

/-- Subscribing again to every room is about no message. -/
theorem acts_resubscribe (rooms : List String) (start : Client σ) : Acts options begun taken start
    (rooms.foldl (fun client roomId =>
      (client.modifyRoom options roomId fun room => { room with subscribed := false }).send
        (.subscribe roomId)) start) := by
  induction rooms generalizing start with
  | nil => exact ReflTransGen.refl
  | cons roomId rooms ih =>
    rw [List.foldl_cons]
    have hmodified : Acts options begun taken start
        (start.modifyRoom options roomId fun room => { room with subscribed := false }) :=
      acts_modifyRoom _ _ fun _ => by exact ⟨⟨rfl, rfl, rfl, rfl, fun _ _ => id⟩, rfl⟩
    refine (hmodified.tail (Act.send _ (.subscribe roomId) ?_)).trans (ih _)
    rintro commandId command ⟨⟩

theorem acts_onOpen (hmails : taken.Mails) (client : Client σ) (socket : Nat) :
    Acts options begun taken client (client.onOpen options socket) := by
  unfold Client.onOpen
  dsimp only
  generalize hopened : ({ client with
    openSockets := socket :: client.openSockets
    attempts := 0
    status := .open_ } : Client σ) = opened
  have hstart : Acts options begun taken client opened := by
    rw [← hopened]
    exact acts_mail hmails _ _ rfl rfl
  exact hstart.trans (acts_resubscribe _ opened)

theorem acts_onClose (hmails : taken.Mails) (client : Client σ) (socket : Nat) :
    Acts options begun taken client (client.onClose options socket) := by
  unfold Client.onClose
  dsimp only
  generalize hclosed : ({ client with
    openSockets := client.openSockets.filter fun other => other != socket
    socket := none } : Client σ) = closed
  have hstart : Acts options begun taken client closed := by
    rw [← hclosed]
    exact acts_mail hmails _ _ rfl rfl
  have hdropped : Acts options begun taken client (closed.dropVolatileState options) :=
    hstart.trans (acts_dropVolatileState hmails closed)
  split
  · exact hdropped.trans (acts_mail hmails _ _ rfl rfl)
  · exact hdropped.trans (acts_mail hmails _ _ rfl rfl)

theorem acts_close (hmails : taken.Mails) (client : Client σ) :
    Acts options begun taken client (client.close options) := by
  unfold Client.close
  dsimp only
  generalize hclosed : ({ client with closedByUs := true, openSockets := _, socket := none } :
    Client σ) = closed
  have hstart : Acts options begun taken client closed := by
    rw [← hclosed]
    exact acts_mail hmails _ _ rfl rfl
  exact (hstart.trans (acts_dropVolatileState hmails closed)).trans (acts_mail hmails _ _ rfl rfl)

theorem acts_leave (client : Client σ) (roomId : String) :
    Acts options begun (.leave roomId) client (client.leave roomId) := by
  have hsent : Acts options begun (.leave roomId) client (client.send (.unsubscribe roomId)) := by
    refine ReflTransGen.single (Act.send _ _ ?_)
    rintro commandId command ⟨⟩
  unfold Client.leave
  dsimp only
  generalize client.send (.unsubscribe roomId) = sent at hsent
  exact (hsent.tail (Act.leave sent roomId rfl)).trans (acts_gaps _ _ _)

theorem acts_postMessage (hmails : taken.Mails) (client : Client σ) (roomId body : String)
    (kind : MessageKind) (attachments references : List Js.Json) (semantic : Bool) (now : Nat) :
    Acts options begun taken client
      (client.postMessage options roomId body kind attachments references semantic now) := by
  unfold Client.postMessage
  dsimp only
  generalize client.freshMessageId options semantic now = clientMessageId
  generalize hpending : client.modifyRoom options roomId _ = pending
  have hpended : Acts options begun taken client pending := by
    rw [← hpending]
    refine acts_pendRoom hmails _ _ (fun _ => by exact ⟨rfl, rfl, rfl, rfl, fun _ _ => id⟩) fun room => ?_
    rw [List.map_append]
    exact List.subset_append_left _ _
  have hsent : Acts options begun taken pending (pending.command
    (.message roomId body clientMessageId kind attachments references)).2 := acts_command hmails _ _
  generalize pending.command (.message roomId body clientMessageId kind attachments references) =
    commanded at hsent
  exact ((hpended.trans hsent).trans (acts_dispatched hmails _ _ _)).trans (acts_changed _ roomId)

theorem acts_retryMessage (hmails : taken.Mails) (client : Client σ) (roomId clientMessageId : String) :
    Acts options begun taken client (client.retryMessage options roomId clientMessageId) := by
  unfold Client.retryMessage
  have hview : Acts options begun taken client (client.view options roomId).2 := acts_view client roomId
  generalize client.view options roomId = viewed at hview
  obtain ⟨room, opened⟩ := viewed
  dsimp only at hview ⊢
  split
  · exact hview
  next item _ =>
  split
  · generalize hcommand : opened.command _ = commanded
    have hsent : Acts options begun taken client commanded.2 := by
      rw [← hcommand]
      exact hview.trans (acts_command hmails opened _)
    refine ReflTransGen.trans ?_ (acts_changed _ roomId)
    exact (hsent.trans
      (acts_changePending hmails commanded.2 ⟨roomId, clientMessageId⟩ fun _ => by rfl)).trans
      (acts_dispatched hmails _ _ _)
  · exact hview

end Acts

/-! ## Mail -/

section Mail

variable {next : Client σ}

/-- Everything of a client but its rooms and its journal. -/
structure SameMail (client next : Client σ) : Prop where
  inFlight : next.inFlight = client.inFlight
  socket : next.socket = client.socket
  openSockets : next.openSockets = client.openSockets
  nextCommandId : next.nextCommandId = client.nextCommandId
  sent : client.sent ⊆ next.sent

theorem same_mail_refl (client : Client σ) : SameMail client client :=
  ⟨rfl, rfl, rfl, rfl, List.Subset.refl _⟩

theorem SameMail.trans {last : Client σ} (h : SameMail client next) (hnext : SameMail next last) :
    SameMail client last :=
  ⟨hnext.inFlight.trans h.inFlight, hnext.socket.trans h.socket, hnext.openSockets.trans h.openSockets,
    hnext.nextCommandId.trans h.nextCommandId, List.Subset.trans h.sent hnext.sent⟩

theorem same_mail_view (client : Client σ) (roomId : String) :
    SameMail client (client.view options roomId).2 := by
  unfold Client.view
  cases client.rooms.get roomId with
  | some existing => exact same_mail_refl client
  | none => exact ⟨rfl, rfl, rfl, rfl, List.Subset.refl _⟩

theorem same_mail_send (client : Client σ) (frame : ClientFrame) :
    SameMail client (client.send frame) := by
  unfold Client.send
  split
  · exact same_mail_refl client
  · split
    · exact ⟨rfl, rfl, rfl, rfl, List.subset_append_left _ _⟩
    · exact same_mail_refl client

theorem same_mail_act (hmails : ¬ taken.Mails) (hact : Act options begun taken client next) :
    SameMail client next := by
  cases hact with
  | load | touch | raise | preview | apply | discard | leave =>
    exact ⟨rfl, rfl, rfl, rfl, List.Subset.refl _⟩
  | send frame _ => exact same_mail_send client frame
  | idle next _ _ hinFlight hsocket hopen hid hsent =>
    exact ⟨hinFlight, hsocket, hopen, hid, by rw [hsent]; exact List.Subset.refl _⟩
  | pend _ _ _ hsends => exact absurd hsends hmails
  | mail _ hsends => exact absurd hsends hmails
  | drop hsends => exact absurd hsends hmails

theorem same_mail_acts (hmails : ¬ taken.Mails) (hacts : Acts options begun taken client next) :
    SameMail client next := by
  induction hacts with
  | refl => exact same_mail_refl client
  | tail _ hact ih => exact ih.trans (same_mail_act hmails hact)

theorem connected_iff : client.connected = true ↔
    ∃ socket, client.socket = some socket ∧ socket ∈ client.openSockets := by
  unfold Client.connected
  cases client.socket with
  | none =>
    constructor
    · rintro ⟨⟩
    · rintro ⟨socket, ⟨⟩, -⟩
  | some current =>
    rw [decide_eq_true_eq]
    constructor
    · exact fun hopen => ⟨current, rfl, hopen⟩
    · rintro ⟨socket, ⟨⟩, hopen⟩
      exact hopen

end Mail

theorem acts_step (client : Client σ) (taken : Client.Step) :
    Acts options client taken client (client.step options taken) := by
  have hidle (next : Client σ) (hstore : next.store = client.store) (hrooms : next.rooms = client.rooms)
      (hinFlight : next.inFlight = client.inFlight) (hsocket : next.socket = client.socket)
      (hopen : next.openSockets = client.openSockets)
      (hid : next.nextCommandId = client.nextCommandId) (hsent : next.sent = client.sent) :
      Acts options client taken client next :=
    ReflTransGen.single (Act.idle client next hstore hrooms hinFlight hsocket hopen hid hsent)
  cases taken with
  | frame frame now => exact acts_handleFrame client frame now
  | failed message => exact acts_fail client message
  | connect =>
    show Acts _ _ _ client (if client.socket.isSome then client else _)
    split
    · exact ReflTransGen.refl
    · exact hidle _ rfl rfl rfl rfl rfl rfl rfl
  | attach =>
    show Acts _ _ _ client (if client.connecting = 0 then client else _)
    split
    · exact ReflTransGen.refl
    · exact acts_mail (by trivial) _ _ rfl rfl
  | connectFailed message =>
    show Acts _ _ _ client (if client.connecting = 0 then client else _)
    split
    · exact ReflTransGen.refl
    · exact hidle _ rfl rfl rfl rfl rfl rfl rfl
  | opened socket => exact acts_onOpen (by trivial) client socket
  | closed socket => exact acts_onClose (by trivial) client socket
  | close => exact acts_close (by trivial) client
  | join roomId =>
    refine (acts_changed client roomId).tail (Act.send _ _ ?_)
    rintro commandId command ⟨⟩
  | leave roomId => exact acts_leave client roomId
  | look roomId => exact acts_changed client roomId
  | sendMessage roomId body replyToId attachments references semantic now =>
    exact acts_postMessage (by trivial) client roomId body _ attachments references semantic now
  | answerMessage roomId questionId body attachments now =>
    exact acts_postMessage (by trivial) client roomId body _ attachments [] false now
  | retryMessage roomId clientMessageId => exact acts_retryMessage (by trivial) client roomId clientMessageId
  | command command => exact acts_command (by trivial) client command
  | recoverProgress roomId snapshots => exact acts_recoverProgress client roomId snapshots

end Web
