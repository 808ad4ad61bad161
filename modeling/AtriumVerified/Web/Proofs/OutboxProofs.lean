import AtriumVerified.Web.Outbox
import AtriumVerified.Web.Proofs.TimelineProofs

/-!
# Proofs: what becomes of a message

A message is kept until the event that brings it back is applied, and while it spins its command is on
the open socket without an answer, or was acknowledged. That holds as long as messages are sent over an
open socket, no socket takes the place of another under a message that waits, and no history is
discarded under a message.
-/

namespace Web

open Relation Client

/-! ## Ids -/

section Ids

theorem toString_inj {m n : Nat} (h : toString m = toString n) : m = n := by
  have hdigits : Nat.toDigits 10 m = Nat.toDigits 10 n := by
    rw [← Nat.toList_repr, ← Nat.toList_repr]
    exact congrArg String.toList h
  have hvalue : Nat.ofDigitChars 10 (Nat.toDigits 10 m) 0 = Nat.ofDigitChars 10 (Nat.toDigits 10 n) 0 :=
    by rw [hdigits]
  rw [Nat.ofDigitChars_ten_toDigits, Nat.ofDigitChars_ten_toDigits] at hvalue
  exact hvalue

theorem commandId_inj {m n : Nat} (h : "c" ++ toString m = "c" ++ toString n) : m = n :=
  toString_inj (String.append_right_inj "c" |>.mp h)

def digitValue36 (digit : Char) : Nat :=
  if digit.toNat < 58 then digit.toNat - 48 else digit.toNat - 87

def value36 (digits : List Char) : Nat :=
  digits.foldl (fun value digit => 36 * value + digitValue36 digit) 0

theorem digitValue36_digit : ∀ d < 36,
    digitValue36 (Char.ofNat (if d < 10 then 48 + d else 87 + d)) = d ∧
      Char.ofNat (if d < 10 then 48 + d else 87 + d) ≠ ':' := by
  decide

/-- The digits of a number write it, and are no colons. -/
theorem digits36_spec {fuel n : Nat} (hfuel : n < fuel) (rest : List Char) :
    ∃ digits, digits36 fuel n rest = digits ++ rest ∧ value36 digits = n ∧ ':' ∉ digits := by
  induction fuel generalizing n rest with
  | zero => omega
  | succ fuel ih =>
    obtain ⟨hvalue, hcolon⟩ := digitValue36_digit (n % 36) (Nat.mod_lt n (by decide))
    unfold digits36
    dsimp only
    generalize Char.ofNat (if n % 36 < 10 then 48 + n % 36 else 87 + n % 36) = digit at hvalue hcolon
    by_cases hsmall : n / 36 = 0
    · rw [if_pos hsmall]
      refine ⟨[digit], rfl, ?_, ?_⟩
      · show 36 * 0 + digitValue36 digit = n
        omega
      · rw [List.mem_singleton]
        exact hcolon.symm
    · rw [if_neg hsmall]
      have hless : n / 36 < fuel := by omega
      obtain ⟨digits, hdigits, hnumber, hcolons⟩ := ih hless (digit :: rest)
      refine ⟨digits ++ [digit], ?_, ?_, ?_⟩
      · rw [hdigits, List.append_assoc]
        rfl
      · unfold value36 at hnumber ⊢
        rw [List.foldl_append, hnumber]
        show 36 * (n / 36) + digitValue36 digit = n
        omega
      · rw [List.mem_append, List.mem_singleton, not_or]
        exact ⟨hcolons, hcolon.symm⟩

/-- An id that the client made with this number. -/
def Minted (number : Nat) (clientMessageId : String) : Prop :=
  ∃ front : String, clientMessageId =
    front ++ ":" ++ String.ofList (digits36 (number + 1) number [])

theorem after_colon_inj {front front' digits digits' : List Char} (hdigits : ':' ∉ digits)
    (hdigits' : ':' ∉ digits') (h : front ++ ':' :: digits = front' ++ ':' :: digits') :
    digits = digits' := by
  have hlast (front digits : List Char) (hcolon : ':' ∉ digits) :
      (front ++ ':' :: digits).reverse.takeWhile (· ≠ ':') = digits.reverse := by
    rw [List.reverse_append, List.reverse_cons, List.append_assoc, List.takeWhile_append_of_pos]
    · simp
    · intro digit hdigit
      have hne : digit ≠ ':' := by
        rintro rfl
        exact hcolon (List.mem_reverse.mp hdigit)
      simp [hne]
  have hreversed : (front ++ ':' :: digits).reverse.takeWhile (· ≠ ':') =
      (front' ++ ':' :: digits').reverse.takeWhile (· ≠ ':') := by rw [h]
  rw [hlast _ _ hdigits, hlast _ _ hdigits'] at hreversed
  exact List.reverse_injective hreversed

theorem minted_inj {m n : Nat} {clientMessageId : String} (hm : Minted m clientMessageId)
    (hn : Minted n clientMessageId) : m = n := by
  obtain ⟨front, hfront⟩ := hm
  obtain ⟨front', hfront'⟩ := hn
  obtain ⟨digits, hdigits, hvalue, hcolon⟩ := digits36_spec (Nat.lt_succ_self m) []
  obtain ⟨digits', hdigits', hvalue', hcolon'⟩ := digits36_spec (Nat.lt_succ_self n) []
  rw [List.append_nil] at hdigits hdigits'
  have hsame := congrArg String.toList (hfront.symm.trans hfront')
  rw [Nat.succ_eq_add_one] at hdigits hdigits'
  rw [hdigits, hdigits'] at hsame
  simp only [String.toList_append, String.toList_ofList, List.append_assoc] at hsame
  have hequal : digits = digits' := after_colon_inj hcolon hcolon' hsame
  rw [← hvalue, ← hvalue', hequal]

theorem minted_fresh {σ : Type} (options : ClientOptions σ) (client : Client σ) (semantic : Bool)
    (now : Nat) : Minted (client.nextCommandId + 1) (client.freshMessageId options semantic now) :=
  ⟨_, rfl⟩

end Ids

/-! ## The messages of a room -/

/-- The messages of a room were minted up to a number, one id each, none of them is shown, and those
that spin are tracked. -/
structure RoomTracked (userId : String) (number : Nat) (tracked : String → Prop) (room : RoomView) :
    Prop where
  minted : ∀ item ∈ room.pending, ∃ n ≤ number, Minted n item.clientMessageId
  distinct : (room.pending.map PendingMessage.clientMessageId).Nodup
  unseen : ∀ item ∈ room.pending, ∀ entry ∈ room.events,
    entry.returned userId ≠ some item.clientMessageId
  waits : ∀ item ∈ room.pending, item.status = .pending → tracked item.clientMessageId

section Rooms

variable {userId : String} {number : Nat} {tracked : String → Prop} {room changed : RoomView}

theorem room_tracked_empty (h : room.pending = []) : RoomTracked userId number tracked room := by
  refine ⟨?_, ?_, ?_, ?_⟩
  · rw [h]
    rintro item ⟨⟩
  · rw [h]
    exact List.nodup_nil
  · rw [h]
    rintro item ⟨⟩
  · rw [h]
    rintro item ⟨⟩

theorem RoomTracked.mono (h : RoomTracked userId number tracked room) {later : Nat}
    {tracks : String → Prop} (hlater : number ≤ later) (htracks : ∀ id, tracked id → tracks id) :
    RoomTracked userId later tracks room := by
  refine ⟨?_, h.distinct, h.unseen, fun item hitem hstatus => htracks _ (h.waits item hitem hstatus)⟩
  intro item hitem
  obtain ⟨n, hn, hminted⟩ := h.minted item hitem
  exact ⟨n, hn.trans hlater, hminted⟩

theorem RoomTracked.same (h : RoomTracked userId number tracked room)
    (hpending : changed.pending = room.pending) (hevents : changed.events = room.events) :
    RoomTracked userId number tracked changed := by
  refine ⟨?_, ?_, ?_, ?_⟩
  · rw [hpending]
    exact h.minted
  · rw [hpending]
    exact h.distinct
  · rw [hpending, hevents]
    exact h.unseen
  · rw [hpending]
    exact h.waits

theorem mem_changeFirst {condition : PendingMessage → Bool} {change : PendingMessage → PendingMessage}
    {pending : List PendingMessage} {item : PendingMessage}
    (h : item ∈ changeFirst condition change pending) :
    item ∈ pending ∨ ∃ former ∈ pending, condition former = true ∧ item = change former := by
  induction pending with
  | nil => cases h
  | cons first rest ih =>
    unfold changeFirst at h
    split at h
    · next hfirst =>
      rcases List.mem_cons.mp h with rfl | hrest
      · exact Or.inr ⟨first, List.mem_cons_self, hfirst, rfl⟩
      · exact Or.inl (List.mem_cons_of_mem _ hrest)
    · rcases List.mem_cons.mp h with rfl | hrest
      · exact Or.inl List.mem_cons_self
      · rcases ih hrest with hold | ⟨former, hformer, hcondition, rfl⟩
        · exact Or.inl (List.mem_cons_of_mem _ hold)
        · exact Or.inr ⟨former, List.mem_cons_of_mem _ hformer, hcondition, rfl⟩

/-- Changing a message that stays the same message. -/
theorem RoomTracked.changeFirst (h : RoomTracked userId number tracked room)
    {condition : PendingMessage → Bool} {change : PendingMessage → PendingMessage}
    (hsame : ∀ item, (change item).clientMessageId = item.clientMessageId)
    (htracked : ∀ item ∈ room.pending, condition item = true → (change item).status = .pending →
      tracked item.clientMessageId)
    (hpending : changed.pending = Web.changeFirst condition change room.pending)
    (hevents : changed.events = room.events) : RoomTracked userId number tracked changed := by
  refine ⟨?_, ?_, ?_, ?_⟩
  · intro item hitem
    rw [hpending] at hitem
    rcases mem_changeFirst hitem with hold | ⟨former, hformer, -, rfl⟩
    · exact h.minted item hold
    · rw [hsame]
      exact h.minted former hformer
  · rw [hpending, map_changeFirst hsame]
    exact h.distinct
  · intro item hitem
    rw [hpending] at hitem
    rw [hevents]
    rcases mem_changeFirst hitem with hold | ⟨former, hformer, -, rfl⟩
    · exact h.unseen item hold
    · rw [hsame]
      exact h.unseen former hformer
  · intro item hitem hstatus
    rw [hpending] at hitem
    rcases mem_changeFirst hitem with hold | ⟨former, hformer, hcondition, rfl⟩
    · exact h.waits item hold hstatus
    · rw [hsame]
      exact htracked former hformer hcondition hstatus

theorem reconcilePending_eq (userId : String) (entry : Envelope) (pending : List PendingMessage) :
    reconcilePending userId entry pending = match entry.returned userId with
      | none => pending
      | some id => pending.filter fun item => item.clientMessageId != id := by
  unfold reconcilePending Envelope.returned
  cases hid : entry.event.clientMessageId with
  | none =>
    dsimp only
    split
    · next h =>
      split at h
      · rfl
      · rfl
    · next id h =>
      split at h
      · cases h
      · cases h
  | some id =>
    dsimp only
    by_cases htype : entry.event.type = "message_posted"
    · rw [if_neg (not_not.mpr htype)]
      by_cases hauthor : entry.actor.userId = some userId
      · rw [if_neg (not_not.mpr hauthor), if_pos ⟨htype, hauthor⟩]
      · rw [if_pos hauthor, if_neg fun hboth => hauthor hboth.2]
    · rw [if_pos htype, if_neg fun hboth => htype hboth.1]

theorem pending_applyEvent (userId : String) (entry : Envelope) (room : RoomView) :
    (applyEvent userId entry room).pending = reconcilePending userId entry room.pending := by
  unfold applyEvent
  dsimp only
  split
  · rfl
  · split
    · rfl
    · rfl

theorem events_applyEvent (userId : String) (entry : Envelope) (room : RoomView) :
    (applyEvent userId entry room).events = room.events ∨
      (applyEvent userId entry room).events = room.events ++ [entry] := by
  unfold applyEvent
  dsimp only
  split
  · exact Or.inl rfl
  · split
    · exact Or.inr rfl
    · exact Or.inr rfl

/-- The entry in the next place takes the message with it that it brings back. -/
theorem RoomTracked.applyNext (h : RoomTracked userId number tracked room) (entry : RoomEntry) :
    RoomTracked userId number tracked (Web.Client.applyNext userId entry room) := by
  cases entry with
  | tombstone row =>
    have hpending : (Web.Client.applyNext userId (.tombstone row) room).pending =
      failMalformed row.roomSeq room.pending := rfl
    refine h.changeFirst (fun _ => ?_) ?_ hpending rfl
    · rfl
    · rintro item - - ⟨⟩
  | event entry =>
    have hpending : (applyEvent userId entry room).pending = match entry.returned userId with
        | none => room.pending
        | some id => room.pending.filter fun item => item.clientMessageId != id := by
      rw [pending_applyEvent, reconcilePending_eq]
    have hkept : ∀ item ∈ (applyEvent userId entry room).pending, item ∈ room.pending ∧
        entry.returned userId ≠ some item.clientMessageId := by
      intro item hitem
      rw [hpending] at hitem
      cases hreturned : entry.returned userId with
      | none =>
        rw [hreturned] at hitem
        exact ⟨hitem, by rintro ⟨⟩⟩
      | some id =>
        rw [hreturned] at hitem
        obtain ⟨hmem, hother⟩ := List.mem_filter.mp hitem
        refine ⟨hmem, ?_⟩
        rintro ⟨⟩
        simp at hother
    have hsublist : (applyEvent userId entry room).pending.Sublist room.pending := by
      rw [hpending]
      split
      · exact List.Sublist.refl _
      · exact List.filter_sublist
    refine ⟨fun item hitem => h.minted item (hkept item hitem).1,
      h.distinct.sublist (hsublist.map _), ?_, fun item hitem => h.waits item (hkept item hitem).1⟩
    intro item hitem shown hshown
    obtain ⟨hmem, hother⟩ := hkept item hitem
    rcases events_applyEvent userId entry room with hevents | hevents
    · exact h.unseen item hmem shown (hevents ▸ hshown)
    · have hwhole : shown ∈ room.events ++ [entry] := hevents ▸ hshown
      rcases List.mem_append.mp hwhole with hold | hnew
      · exact h.unseen item hmem shown hold
      · rw [List.mem_singleton.mp hnew]
        exact hother

/-- A message that was just minted joins the others. -/
theorem RoomTracked.append (h : RoomTracked userId number tracked room) {item : PendingMessage}
    (hminted : Minted (number + 1) item.clientMessageId)
    (hunseen : ∀ entry ∈ room.events, entry.returned userId ≠ some item.clientMessageId)
    (htracked : tracked item.clientMessageId) (hpending : changed.pending = room.pending ++ [item])
    (hevents : changed.events = room.events) : RoomTracked userId (number + 1) tracked changed := by
  have hold (former : PendingMessage) (hmem : former ∈ changed.pending) :
      former ∈ room.pending ∨ former = item := by
    rw [hpending] at hmem
    exact (List.mem_append.mp hmem).imp_right List.mem_singleton.mp
  refine ⟨?_, ?_, ?_, ?_⟩
  · intro former hformer
    rcases hold former hformer with hmem | rfl
    · obtain ⟨n, hn, hother⟩ := h.minted former hmem
      exact ⟨n, Nat.le_succ_of_le hn, hother⟩
    · exact ⟨number + 1, Nat.le_refl _, hminted⟩
  · rw [hpending, List.map_append]
    refine List.nodup_append.mpr ⟨h.distinct, List.nodup_singleton _, ?_⟩
    intro id hid other hother
    rw [List.map_singleton, List.mem_singleton] at hother
    rintro rfl
    obtain ⟨former, hformer, hsame⟩ := List.mem_map.mp hid
    obtain ⟨n, hn, hformerly⟩ := h.minted former hformer
    rw [hsame, hother] at hformerly
    have := minted_inj hformerly hminted
    omega
  · rw [hevents]
    intro former hformer
    rcases hold former hformer with hmem | rfl
    · exact h.unseen former hmem
    · exact hunseen
  · intro former hformer hstatus
    rcases hold former hformer with hmem | rfl
    · exact h.waits former hmem hstatus
    · exact htracked

end Rooms

/-! ## The messages of a client -/

def ClientCommand.Sends (command : ClientCommand) (roomId clientMessageId : String) : Prop :=
  ∃ body kind attachments references,
    command = .message roomId body clientMessageId kind attachments references

def Client.Unanswered {σ : Type} (client : Client σ) (roomId clientMessageId : String) : Prop :=
  ∃ commandId, client.inFlight.get commandId = some ⟨roomId, clientMessageId⟩

/-- A command for a message left on the socket that is open now, and was not answered. -/
def Client.Waits {σ : Type} (client : Client σ) (roomId clientMessageId : String) : Prop :=
  ∃ commandId socket command, client.inFlight.get commandId = some ⟨roomId, clientMessageId⟩ ∧
    client.socket = some socket ∧ socket ∈ client.openSockets ∧
    (socket, .command commandId command) ∈ client.sent ∧ command.Sends roomId clientMessageId

/-- The messages of every open room are tracked, and commands are numbered. -/
structure Tracked {σ : Type} (options : ClientOptions σ) (tracked : String → String → Prop)
    (client : Client σ) : Prop where
  rooms : ∀ roomId room, client.rooms.get roomId = some room →
    RoomTracked options.userId client.nextCommandId (tracked roomId) room
  commands : ∀ commandId message, client.inFlight.get commandId = some message →
    ∃ n ≤ client.nextCommandId, commandId = "c" ++ toString n

section Clients

variable {σ : Type} {options : ClientOptions σ} {begun client next : Client σ} {taken : Client.Step}
  {tracked tracks : String → String → Prop} {roomId clientMessageId : String}

theorem Client.Waits.unanswered (h : client.Waits roomId clientMessageId) :
    client.Unanswered roomId clientMessageId := by
  obtain ⟨commandId, socket, command, hcommand, -⟩ := h
  exact ⟨commandId, hcommand⟩

theorem Client.Waits.mono (h : client.Waits roomId clientMessageId)
    (hinFlight : next.inFlight = client.inFlight) (hsocket : next.socket = client.socket)
    (hopen : client.openSockets ⊆ next.openSockets) (hsent : client.sent ⊆ next.sent) :
    next.Waits roomId clientMessageId := by
  obtain ⟨commandId, socket, command, hcommand, hcurrent, hlive, hframe, hsends⟩ := h
  exact ⟨commandId, socket, command, hinFlight ▸ hcommand, hsocket ▸ hcurrent, hopen hlive,
    hsent hframe, hsends⟩

theorem Tracked.mono (h : Tracked options tracked client)
    (htracks : ∀ roomId id, tracked roomId id → tracks roomId id) : Tracked options tracks client :=
  ⟨fun roomId room hroom => (h.rooms roomId room hroom).mono (Nat.le_refl _) (htracks roomId),
    h.commands⟩

theorem Tracked.same (h : Tracked options tracked client) (hrooms : next.rooms = client.rooms)
    (hinFlight : next.inFlight = client.inFlight) (hid : next.nextCommandId = client.nextCommandId) :
    Tracked options tracked next := by
  refine ⟨?_, ?_⟩
  · rw [hrooms, hid]
    exact h.rooms
  · rw [hinFlight, hid]
    exact h.commands

theorem Tracked.set (h : Tracked options tracked client) (store : σ) {changed : RoomView}
    (hchanged : RoomTracked options.userId client.nextCommandId (tracked roomId) changed) :
    Tracked options tracked ({ client with store, rooms := client.rooms.set roomId changed } :
      Client σ) := by
  refine ⟨?_, h.commands⟩
  intro other room hroom
  dsimp only at hroom
  rw [Js.Map.get_set] at hroom
  split at hroom
  · next heq =>
    cases hroom
    rw [heq]
    exact hchanged
  · exact h.rooms other room hroom

theorem tracked_view (h : Tracked options tracked client) (roomId : String) :
    Tracked options tracked (client.view options roomId).2 := by
  unfold Client.view
  cases client.rooms.get roomId with
  | some existing => exact h
  | none => exact h.set _ (room_tracked_empty rfl)

theorem tracked_viewed (h : Tracked options tracked client) (roomId : String) :
    RoomTracked options.userId (client.view options roomId).2.nextCommandId (tracked roomId)
      (client.view options roomId).1 :=
  (tracked_view h roomId).rooms roomId _ (get_view client roomId)

theorem Client.Waits.same (h : client.Waits roomId clientMessageId) (hmail : SameMail client next) :
    next.Waits roomId clientMessageId :=
  h.mono hmail.inFlight hmail.socket (by rw [hmail.openSockets]; exact List.Subset.refl _) hmail.sent

theorem tracked_act (hmails : ¬ taken.Mails) (hact : Act options begun taken client next)
    (h : Tracked options tracked client) : Tracked options tracked next := by
  cases hact with
  | load roomId _ => exact h.set _ (room_tracked_empty rfl)
  | touch roomId room changed hroom hkeeps =>
    exact h.set _ ((h.rooms roomId room hroom).same hkeeps.pending hkeeps.events)
  | raise roomId room snapshots progress hroom =>
    exact h.set _ ((h.rooms roomId room hroom).same rfl rfl)
  | preview frame now room _ hroom _ _ => exact h.set _ ((h.rooms _ room hroom).same rfl rfl)
  | apply entry room hroom _ _ => exact h.set _ ((h.rooms _ room hroom).applyNext entry)
  | discard roomId room hroom _ _ => exact h.set _ (room_tracked_empty rfl)
  | leave roomId _ =>
    refine ⟨?_, h.commands⟩
    intro other room hroom
    dsimp only at hroom
    rw [Js.Map.get_delete] at hroom
    split at hroom
    · cases hroom
    · exact h.rooms other room hroom
  | send frame _ =>
    have hmail := same_mail_send client frame
    exact h.same (rooms_send client frame).2 hmail.inFlight hmail.nextCommandId
  | idle next _ hrooms hinFlight _ _ hid _ => exact h.same hrooms hinFlight hid
  | pend _ _ _ hsends => exact absurd hsends hmails
  | mail _ hsends => exact absurd hsends hmails
  | drop hsends => exact absurd hsends hmails

theorem tracked_acts (hmails : ¬ taken.Mails) (hacts : Acts options begun taken client next)
    (h : Tracked options tracked client) : Tracked options tracked next := by
  induction hacts with
  | refl => exact h
  | tail _ hact ih => exact tracked_act hmails hact ih

/-! ### Answers -/

theorem tracked_answered {acked : String → String → Prop} {commandId : String}
    (h : Tracked options (fun roomId id => client.Waits roomId id ∨ acked roomId id) client)
    (hacked : ∀ message, client.inFlight.get commandId = some message →
      acked message.roomId message.clientMessageId) :
    Tracked options (fun roomId id => (client.answered commandId).Waits roomId id ∨ acked roomId id)
      (client.answered commandId) := by
  refine ⟨?_, ?_⟩
  · intro roomId room hroom
    refine (h.rooms roomId room hroom).mono (Nat.le_refl _) fun id htracked => ?_
    rcases htracked with ⟨other, socket, command, hother, hrest⟩ | hack
    · by_cases heq : other = commandId
      · rw [heq] at hother
        exact Or.inr (hacked _ hother)
      · refine Or.inl ⟨other, socket, command, ?_, hrest⟩
        unfold Client.answered
        dsimp only
        rw [Js.Map.get_delete, if_neg heq]
        exact hother
    · exact Or.inr hack
  · intro other message hother
    unfold Client.answered at hother
    dsimp only at hother
    rw [Js.Map.get_delete] at hother
    split at hother
    · cases hother
    · exact h.commands other message hother

theorem tracked_changePending {change : PendingMessage → PendingMessage}
    (h : Tracked options tracked client) (message : InFlight)
    (hsame : ∀ item, (change item).clientMessageId = item.clientMessageId)
    (htracked : ∀ item, (change item).status = .pending → item.status = .pending ∨
      tracked message.roomId message.clientMessageId) :
    Tracked options tracked (client.changePending options message change) ∧
      SameMail client (client.changePending options message change) := by
  have hroom := tracked_viewed h message.roomId
  have hopened := tracked_view h message.roomId
  have hmail : SameMail client (client.view options message.roomId).2 :=
    same_mail_view client message.roomId
  unfold Client.changePending Client.modifyRoom
  generalize client.view options message.roomId = viewed at hroom hopened hmail
  obtain ⟨room, opened⟩ := viewed
  dsimp only at hroom hopened hmail ⊢
  refine ⟨hopened.set _ (hroom.changeFirst hsame ?_ rfl rfl),
    hmail.inFlight, hmail.socket, hmail.openSockets, hmail.nextCommandId, hmail.sent⟩
  intro item hitem hcondition hstatus
  rcases htracked item hstatus with hold | hnew
  · exact hroom.waits item hitem hold
  · rw [eq_of_beq hcondition]
    exact hnew

theorem Tracked.settle {message : InFlight} (h : Tracked options tracked client)
    (hroom : ∀ room, client.rooms.get message.roomId = some room → ∀ item ∈ room.pending,
      item.clientMessageId = message.clientMessageId → item.status ≠ .pending)
    (htracks : ∀ roomId id, tracked roomId id →
      tracks roomId id ∨ (roomId = message.roomId ∧ id = message.clientMessageId)) :
    Tracked options tracks client := by
  refine ⟨?_, h.commands⟩
  intro roomId room hopen
  obtain ⟨hminted, hdistinct, hunseen, hwaits⟩ := h.rooms roomId room hopen
  refine ⟨hminted, hdistinct, hunseen, ?_⟩
  intro item hitem hstatus
  rcases htracks roomId _ (hwaits item hitem hstatus) with htracked | ⟨rfl, hid⟩
  · exact htracked
  · exact absurd hstatus (hroom room hopen item hitem hid)

theorem settled_changeFirst {pending : List PendingMessage} {id : String}
    {change : PendingMessage → PendingMessage}
    (hdistinct : (pending.map PendingMessage.clientMessageId).Nodup)
    (hsettled : ∀ item, (change item).status ≠ .pending) :
    ∀ item ∈ changeFirst (fun item => item.clientMessageId == id) change pending,
      item.clientMessageId = id → item.status ≠ .pending := by
  induction pending with
  | nil =>
    rintro item ⟨⟩
  | cons first rest ih =>
    rw [List.map_cons, List.nodup_cons] at hdistinct
    intro item hitem hid
    unfold changeFirst at hitem
    split at hitem
    · next hfirst =>
      rcases List.mem_cons.mp hitem with rfl | hrest
      · exact hsettled first
      · have hfirstId : first.clientMessageId = id := eq_of_beq hfirst
        refine absurd (List.mem_map.mpr ⟨item, hrest, ?_⟩) hdistinct.1
        rw [hid, hfirstId]
    · next hfirst =>
      rcases List.mem_cons.mp hitem with rfl | hrest
      · rw [hid] at hfirst
        exact absurd (beq_self_eq_true id) hfirst
      · exact ih hdistinct.2 item hrest hid

theorem settled_changePending {change : PendingMessage → PendingMessage}
    (h : Tracked options tracked client) (message : InFlight)
    (hsettled : ∀ item, (change item).status ≠ .pending) :
    ∀ room, (client.changePending options message change).rooms.get message.roomId = some room →
      ∀ item ∈ room.pending, item.clientMessageId = message.clientMessageId →
        item.status ≠ .pending := by
  have hroom := tracked_viewed h message.roomId
  intro room hget
  unfold Client.changePending at hget
  rw [get_modifyRoom] at hget
  cases hget
  exact settled_changeFirst hroom.distinct hsettled

/-- What a client tracks: commands on the open socket, and what was acknowledged. -/
def Client.Tracks (client : Client σ) (acked : List (String × String)) (roomId clientMessageId : String) :
    Prop := client.Waits roomId clientMessageId ∨ (roomId, clientMessageId) ∈ acked

theorem Client.Tracks.same {acked : List (String × String)}
    (h : client.Tracks acked roomId clientMessageId) (hmail : SameMail client next) :
    next.Tracks acked roomId clientMessageId :=
  h.imp_left fun hwaits => hwaits.same hmail

theorem tracked_fail {acked : List (String × String)}
    (h : Tracked options (client.Tracks acked) client) (message : String) :
    Tracked options ((client.fail message).Tracks acked) (client.fail message) :=
  (h.mono fun _ _ htracked => htracked.same ⟨rfl, rfl, rfl, rfl, List.Subset.refl _⟩).same rfl rfl rfl

theorem tracked_handleAck {acked : List (String × String)}
    (h : Tracked options (client.Tracks acked) client) (commandId : String) (roomSeq : Option Nat)
    (issues : List String) :
    Tracked options ((client.handleAck options commandId roomSeq issues).Tracks (acked ++
        ((client.inFlight.get commandId).map fun message =>
          (message.roomId, message.clientMessageId)).toList))
      (client.handleAck options commandId roomSeq issues) := by
  have hanswered : Tracked options ((client.answered commandId).Tracks (acked ++
      ((client.inFlight.get commandId).map fun message =>
        (message.roomId, message.clientMessageId)).toList)) (client.answered commandId) := by
    refine tracked_answered (h.mono fun roomId id htracked => htracked.imp_right ?_) ?_
    · exact List.mem_append_left _
    · intro message hmessage
      rw [hmessage]
      exact List.mem_append_right _ List.mem_cons_self
  unfold Client.handleAck
  dsimp only
  generalize acked ++ ((client.inFlight.get commandId).map fun message =>
    (message.roomId, message.clientMessageId)).toList = later at hanswered
  generalize client.answered commandId = answered at hanswered
  have hend (next : Client σ) (h : Tracked options (next.Tracks later) next) (message : String) :
      Tracked options ((if issues = [] then next else next.fail message).Tracks later)
        (if issues = [] then next else next.fail message) := by
    split
    · exact h
    · exact tracked_fail h message
  cases client.inFlight.get commandId with
  | none => exact hend _ hanswered _
  | some message =>
    cases roomSeq with
    | none => exact hend _ hanswered _
    | some roomSeq =>
      have hsame (item : PendingMessage) :
          ({ item with roomSeq := some roomSeq } : PendingMessage).clientMessageId =
            item.clientMessageId := rfl
      obtain ⟨hchanged, hmail⟩ := tracked_changePending hanswered message hsame
        fun item hstatus => Or.inl hstatus
      exact hend _ (hchanged.mono fun roomId id htracked => htracked.same hmail) _

theorem tracked_handleNack {acked : List (String × String)}
    (h : Tracked options (client.Tracks acked) client) (commandId code message : String) :
    Tracked options ((client.handleNack options commandId code message).Tracks acked)
      (client.handleNack options commandId code message) := by
  have hdispatched : ∀ dispatched, client.inFlight.get commandId = some dispatched →
      Tracked options ((client.answered commandId).Tracks
        (acked ++ [(dispatched.roomId, dispatched.clientMessageId)])) (client.answered commandId) := by
    intro dispatched hget
    refine tracked_answered (h.mono fun roomId id htracked => htracked.imp_right ?_) ?_
    · exact List.mem_append_left _
    · intro found hfound
      cases hget.symm.trans hfound
      exact List.mem_append_right _ List.mem_cons_self
  unfold Client.handleNack
  dsimp only
  refine tracked_fail ?_ _
  cases hget : client.inFlight.get commandId with
  | none =>
    refine tracked_answered h ?_
    intro found hfound
    rw [hget] at hfound
    cases hfound
  | some dispatched =>
    have hanswered := hdispatched dispatched hget
    generalize client.answered commandId = answered at hanswered
    dsimp only
    generalize hchange : (fun item : PendingMessage => { item with
      status := PendingStatus.failed
      error := some message
      retryable := some (code == "retry") }) = change
    have hsame (item : PendingMessage) : (change item).clientMessageId = item.clientMessageId := by
      rw [← hchange]
    have hfailed (item : PendingMessage) : (change item).status ≠ .pending := by
      rw [← hchange]
      rintro ⟨⟩
    obtain ⟨hchanged, hmail⟩ := tracked_changePending hanswered dispatched hsame
      fun item hstatus => absurd hstatus (hfailed item)
    have hsettled := settled_changePending hanswered dispatched hfailed
    generalize answered.changePending options dispatched change = failed at hchanged hmail hsettled
    have htracked : Tracked options (failed.Tracks acked) failed := by
      refine hchanged.settle hsettled ?_
      rintro roomId id (hwaits | hacked)
      · exact Or.inl (Or.inl (hwaits.same hmail))
      · rcases List.mem_append.mp hacked with hold | hnew
        · exact Or.inl (Or.inr hold)
        · exact Or.inr (Prod.mk.inj (List.mem_singleton.mp hnew))
    have hviewed := tracked_view htracked dispatched.roomId
    exact hviewed.mono fun roomId id hkept => hkept.same (same_mail_view failed dispatched.roomId)

/-! ### Sockets -/

/-- A command whose answer was lost leaves its message failed. -/
theorem tracked_dropCommand {acked : List (String × String)} {commandId : String} {message : InFlight}
    (h : Tracked options (fun roomId id => client.Unanswered roomId id ∨ (roomId, id) ∈ acked) client)
    (hget : client.inFlight.get commandId = some message) :
    Tracked options (fun roomId id => (client.dropCommand options (commandId, message)).Unanswered
        roomId id ∨ (roomId, id) ∈ acked) (client.dropCommand options (commandId, message)) ∧
      (client.dropCommand options (commandId, message)).inFlight = client.inFlight.delete commandId := by
  have hfailed (item : PendingMessage) : (dropMessage item).status ≠ .pending := by
    unfold dropMessage
    split
    · rintro ⟨⟩
    · next hother => exact hother
  obtain ⟨hchanged, hmail⟩ := tracked_changePending h message clientMessageId_dropMessage
    fun item hstatus => absurd hstatus (hfailed item)
  have hsettled := settled_changePending h message hfailed
  unfold Client.dropCommand
  dsimp only
  generalize client.changePending options message dropMessage = failed at hchanged hmail hsettled
  have hdeleted : (failed.answered commandId).inFlight = client.inFlight.delete commandId := by
    unfold Client.answered
    dsimp only
    rw [hmail.inFlight]
  refine ⟨⟨?_, ?_⟩, hdeleted⟩
  · have hsettling : Tracked options (fun roomId id => (failed.answered commandId).Unanswered roomId id ∨
        (roomId, id) ∈ acked) failed := by
      refine hchanged.settle hsettled ?_
      rintro roomId id (⟨other, hother⟩ | hacked)
      · by_cases heq : other = commandId
        · rw [heq, hget] at hother
          cases hother
          exact Or.inr ⟨rfl, rfl⟩
        · refine Or.inl (Or.inl ⟨other, ?_⟩)
          rw [hdeleted, Js.Map.get_delete, if_neg heq]
          exact hother
      · exact Or.inl (Or.inr hacked)
    exact hsettling.rooms
  · intro other found hother
    rw [hdeleted, Js.Map.get_delete] at hother
    split at hother
    · cases hother
    · rw [← hmail.inFlight] at hother
      exact hchanged.commands other found hother

theorem get_of_mem {α : Type} {map : Js.Map String α} {key : String} {value : α}
    (h : (key, value) ∈ map.entries) : map.get key = some value := by
  have hnodup := map.nodup
  unfold Js.Map.get
  generalize map.entries = entries at h hnodup
  induction entries with
  | nil => cases h
  | cons entry entries ih =>
    rw [List.map_cons, List.nodup_cons] at hnodup
    rcases List.mem_cons.mp h with rfl | hrest
    · simp
    · have hother : entry.1 ≠ key := by
        rintro rfl
        exact hnodup.1 (List.mem_map.mpr ⟨_, hrest, rfl⟩)
      rw [List.find?_cons_of_neg (by simpa using hother)]
      exact ih hrest hnodup.2

/-- When the connection drops, every message that was not acknowledged can be sent again. -/
theorem tracked_dropVolatileState {acked : List (String × String)}
    (h : Tracked options (fun roomId id => client.Unanswered roomId id ∨ (roomId, id) ∈ acked) client) :
    Tracked options (fun roomId id => (roomId, id) ∈ acked) (client.dropVolatileState options) := by
  have hall (entries : List (String × InFlight)) (start : Client σ)
      (hnodup : (entries.map Prod.fst).Nodup)
      (hheld : ∀ commandId message, start.inFlight.get commandId = some message ↔
        (commandId, message) ∈ entries)
      (h : Tracked options (fun roomId id => start.Unanswered roomId id ∨ (roomId, id) ∈ acked) start) :
      Tracked options (fun roomId id => (roomId, id) ∈ acked)
        (entries.foldl (dropCommand options) start) := by
    induction entries generalizing start with
    | nil =>
      refine h.mono ?_
      rintro roomId id (⟨commandId, hcommand⟩ | hacked)
      · cases (hheld commandId _).mp hcommand
      · exact hacked
    | cons entry entries ih =>
      obtain ⟨commandId, message⟩ := entry
      rw [List.map_cons, List.nodup_cons] at hnodup
      obtain ⟨hdropped, hinFlight⟩ :=
        tracked_dropCommand h ((hheld commandId message).mpr List.mem_cons_self)
      rw [List.foldl_cons]
      refine ih _ hnodup.2 ?_ hdropped
      intro other found
      rw [hinFlight, Js.Map.get_delete]
      by_cases heq : other = commandId
      · rw [if_pos heq, heq]
        constructor
        · rintro ⟨⟩
        · intro hmem
          exact absurd (List.mem_map.mpr ⟨_, hmem, rfl⟩) hnodup.1
      · rw [if_neg heq, hheld, List.mem_cons]
        constructor
        · rintro (hsame | hmem)
          · exact absurd (Prod.mk.inj hsame).1 heq
          · exact hmem
        · exact Or.inr
  have hdropped := hall client.inFlight.entries client client.inFlight.nodup
    (fun _ _ => ⟨Js.Map.mem_of_get, get_of_mem⟩) h
  unfold Client.dropVolatileState
  dsimp only
  generalize client.inFlight.entries.foldl (dropCommand options) client = failed at hdropped
  refine ⟨?_, hdropped.commands⟩
  intro roomId room hroom
  dsimp only at hroom
  rw [Js.Map.get_mapValues] at hroom
  obtain ⟨former, hformer, rfl⟩ := Option.map_eq_some_iff.mp hroom
  exact (hdropped.rooms roomId former hformer).same rfl rfl

theorem tracked_onClose {acked : List (String × String)}
    (h : Tracked options (client.Tracks acked) client) (socket : Nat) :
    Tracked options (fun roomId id => (roomId, id) ∈ acked) (client.onClose options socket) := by
  have hclosed : Tracked options (fun roomId id => client.Unanswered roomId id ∨ (roomId, id) ∈ acked)
      client := h.mono fun roomId id htracked => htracked.imp_left Client.Waits.unanswered
  unfold Client.onClose
  dsimp only
  generalize hnext : ({ client with
    openSockets := client.openSockets.filter fun other => other != socket
    socket := none } : Client σ) = closed
  have hsame : Tracked options (fun roomId id => closed.Unanswered roomId id ∨ (roomId, id) ∈ acked)
      closed := by
    rw [← hnext]
    exact hclosed.same rfl rfl rfl
  have hdropped := tracked_dropVolatileState hsame
  split
  · exact hdropped.same rfl rfl rfl
  · exact hdropped.same rfl rfl rfl

theorem tracked_close {acked : List (String × String)}
    (h : Tracked options (client.Tracks acked) client) :
    Tracked options (fun roomId id => (roomId, id) ∈ acked) (client.close options) := by
  have hclosed : Tracked options (fun roomId id => client.Unanswered roomId id ∨ (roomId, id) ∈ acked)
      client := h.mono fun roomId id htracked => htracked.imp_left Client.Waits.unanswered
  unfold Client.close
  dsimp only
  generalize hnext : ({ client with closedByUs := true, openSockets := _, socket := none } :
    Client σ) = closed
  have hsame : Tracked options (fun roomId id => closed.Unanswered roomId id ∨ (roomId, id) ∈ acked)
      closed := by
    rw [← hnext]
    exact hclosed.same rfl rfl rfl
  exact (tracked_dropVolatileState hsame).same rfl rfl rfl

theorem tracked_onOpen {acked : List (String × String)}
    (h : Tracked options (client.Tracks acked) client) (socket : Nat) :
    Tracked options ((client.onOpen options socket).Tracks acked) (client.onOpen options socket) := by
  unfold Client.onOpen
  dsimp only
  generalize hnext : ({ client with
    openSockets := socket :: client.openSockets
    attempts := 0
    status := .open_ } : Client σ) = opened
  have hopened : Tracked options (opened.Tracks acked) opened := by
    rw [← hnext]
    refine (h.mono fun roomId id htracked => htracked.imp_left fun hwaits => ?_).same rfl rfl rfl
    exact hwaits.mono rfl rfl (List.subset_cons_self _ _) (List.Subset.refl _)
  have hall : Acts options opened (.look "") opened _ := acts_resubscribe client.rooms.keys opened
  have htracked := tracked_acts id hall hopened
  have hmail := same_mail_acts id hall
  exact htracked.mono fun roomId id hkept => hkept.same hmail

/-! ### Commands -/

theorem command_spec (client : Client σ) (command : ClientCommand) :
    (client.command command).1 = "c" ++ toString (client.nextCommandId + 1) ∧
    (client.command command).2.rooms = client.rooms ∧
    (client.command command).2.inFlight = client.inFlight ∧
    (client.command command).2.socket = client.socket ∧
    (client.command command).2.openSockets = client.openSockets ∧
    (client.command command).2.nextCommandId = client.nextCommandId + 1 ∧
    client.sent ⊆ (client.command command).2.sent := by
  unfold Client.command
  have hmail := same_mail_send ({ client with nextCommandId := client.nextCommandId + 1 } : Client σ)
    (.command ("c" ++ toString (client.nextCommandId + 1)) command)
  exact ⟨rfl, (rooms_send _ _).2, hmail.inFlight, hmail.socket, hmail.openSockets, hmail.nextCommandId,
    hmail.sent⟩

theorem sent_command {socket : Nat} (command : ClientCommand) (hsocket : client.socket = some socket)
    (hopen : socket ∈ client.openSockets) :
    (socket, .command (client.command command).1 command) ∈ (client.command command).2.sent := by
  unfold Client.command Client.send
  dsimp only
  rw [hsocket]
  dsimp only
  rw [if_pos hopen]
  exact List.mem_append_right _ List.mem_cons_self

theorem command_rooms (client : Client σ) (rooms : Js.Map String RoomView) (command : ClientCommand) :
    ({ client with rooms } : Client σ).command command =
      ((client.command command).1, { (client.command command).2 with rooms }) := by
  unfold Client.command Client.send
  dsimp only
  split
  · rfl
  · split
    · rfl
    · rfl

theorem tracked_command {acked : List (String × String)}
    (h : Tracked options (client.Tracks acked) client) (command : ClientCommand) :
    Tracked options ((client.command command).2.Tracks acked) (client.command command).2 := by
  obtain ⟨-, hrooms, hinFlight, hsocket, hopen, hid, hsent⟩ := command_spec client command
  generalize (client.command command).2 = next at hrooms hinFlight hsocket hopen hid hsent
  refine ⟨?_, ?_⟩
  · rw [hrooms, hid]
    intro roomId room hroom
    refine (h.rooms roomId room hroom).mono (Nat.le_succ _) fun id htracked => ?_
    exact htracked.imp_left fun hwaits =>
      hwaits.mono hinFlight hsocket (by rw [hopen]; exact List.Subset.refl _) hsent
  · rw [hinFlight, hid]
    intro commandId message hmessage
    obtain ⟨n, hn, hnumber⟩ := h.commands commandId message hmessage
    exact ⟨n, Nat.le_succ_of_le hn, hnumber⟩

def Client.commanded (client : Client σ) (command : ClientCommand) (message : InFlight) : Client σ :=
  (client.command command).2.dispatched (client.command command).1 message

/-- What was tracked is tracked after a command for a message, and so is the message. -/
theorem tracked_commanded {acked : List (String × String)}
    (h : Tracked options (client.Tracks acked) client) (command : ClientCommand) (message : InFlight) :
    (∀ roomId id, client.Tracks acked roomId id →
      (client.commanded command message).Tracks acked roomId id) ∧
    (client.connected = true → command.Sends message.roomId message.clientMessageId →
      (client.commanded command message).Tracks acked message.roomId message.clientMessageId) ∧
    Tracked options ((client.commanded command message).Tracks acked)
      (client.commanded command message) := by
  obtain ⟨hname, hrooms, hinFlight, hsocket, hopen, hid, hsent⟩ := command_spec client command
  have hcommanded := tracked_command h command
  -- The number of the command is new.
  have hfresh (commandId : String) (other : InFlight)
      (hother : client.inFlight.get commandId = some other) :
      commandId ≠ (client.command command).1 := by
    obtain ⟨n, hn, hnumber⟩ := h.commands commandId other hother
    rw [hname, hnumber]
    intro hsame
    have := commandId_inj hsame
    omega
  have hold (roomId id : String) (htracked : client.Tracks acked roomId id) :
      (client.commanded command message).Tracks acked roomId id := by
    rcases htracked with ⟨commandId, socket, sentCommand, hcommand, hcurrent, hlive, hframe, hsends⟩ | hack
    · refine Or.inl ⟨commandId, socket, sentCommand, ?_, hsocket.trans hcurrent, ?_, hsent hframe, hsends⟩
      · unfold Client.commanded Client.dispatched
        dsimp only
        rw [Js.Map.get_set, if_neg (hfresh commandId _ hcommand), hinFlight]
        exact hcommand
      · unfold Client.commanded Client.dispatched
        dsimp only
        rw [hopen]
        exact hlive
    · exact Or.inr hack
  refine ⟨hold, ?_, ?_, ?_⟩
  · intro hconnected hsends
    obtain ⟨socket, hcurrent, hlive⟩ := connected_iff.mp hconnected
    refine Or.inl ⟨(client.command command).1, socket, command, ?_, hsocket.trans hcurrent, ?_,
      sent_command command hcurrent hlive, hsends⟩
    · unfold Client.commanded Client.dispatched
      dsimp only
      rw [Js.Map.get_set, if_pos rfl]
    · unfold Client.commanded Client.dispatched
      dsimp only
      rw [hopen]
      exact hlive
  · intro roomId room hroom
    have hgiven : client.rooms.get roomId = some room := by
      rw [← hrooms]
      exact hroom
    refine (h.rooms roomId room hgiven).mono ?_ (hold roomId)
    show client.nextCommandId ≤ (client.command command).2.nextCommandId
    rw [hid]
    exact Nat.le_succ _
  · intro commandId other hother
    unfold Client.commanded Client.dispatched at hother
    dsimp only at hother
    rw [Js.Map.get_set] at hother
    show ∃ n ≤ (client.command command).2.nextCommandId, commandId = "c" ++ toString n
    split at hother
    · next heq =>
      refine ⟨client.nextCommandId + 1, by rw [hid], ?_⟩
      rw [heq, hname]
    · exact hcommanded.commands commandId other hother

theorem changed_of_get {room : RoomView} (h : client.rooms.get roomId = some room) :
    client.changed options roomId = client := by
  unfold Client.changed
  rw [view_of_get h]

theorem freshMessageId_view (client : Client σ) (roomId : String) (semantic : Bool) (now : Nat) :
    client.freshMessageId options semantic now =
      (client.view options roomId).2.freshMessageId options semantic now := by
  unfold Client.freshMessageId
  rw [(same_mail_view client roomId).nextCommandId]

/-- What sending a message comes to: a row behind the others, and a command for it. -/
theorem postMessage_eq (client : Client σ) (roomId body : String) (kind : MessageKind)
    (attachments references : List Js.Json) (semantic : Bool) (now : Nat) :
    ∃ item : PendingMessage, item.clientMessageId = client.freshMessageId options semantic now ∧
      client.postMessage options roomId body kind attachments references semantic now =
        { (client.view options roomId).2.commanded (.message roomId body item.clientMessageId kind
            attachments references) ⟨roomId, item.clientMessageId⟩ with
          rooms := (client.view options roomId).2.rooms.set roomId
            { (client.view options roomId).1 with
              pending := (client.view options roomId).1.pending ++ [item] } } := by
  generalize hid : client.freshMessageId options semantic now = clientMessageId
  unfold Client.postMessage Client.modifyRoom
  rw [hid]
  dsimp only
  generalize client.view options roomId = viewed
  obtain ⟨room, opened⟩ := viewed
  dsimp only
  generalize hitem : ({
      clientMessageId, body
      at_ := String.ofList (Calendar.fromMillis now).isoText
      status := .pending
      error := none
      attachments, references
      retryable := none
      roomSeq := none
      kind } : PendingMessage) = item
  have hmessage : item.clientMessageId = clientMessageId := by rw [← hitem]
  refine ⟨item, hmessage, ?_⟩
  rw [command_rooms, hmessage]
  dsimp only
  have hopen : (({ (opened.command (.message roomId body clientMessageId kind attachments
      references)).2 with
        rooms := opened.rooms.set roomId { room with pending := room.pending ++ [item] } } :
      Client σ).dispatched (opened.command (.message roomId body clientMessageId kind attachments
        references)).1 ⟨roomId, clientMessageId⟩).rooms.get roomId =
        some { room with pending := room.pending ++ [item] } := get_set_self _ _ _
  rw [changed_of_get hopen]
  rfl

/-- A message that is sent over an open socket, under an id that no event in the room has, is
tracked. -/
theorem tracked_postMessage {acked : List (String × String)}
    (h : Tracked options (client.Tracks acked) client) (roomId body : String) (kind : MessageKind)
    (attachments references : List Js.Json) (semantic : Bool) (now : Nat)
    (hconnected : client.connected = true)
    (hunseen : ∀ entry ∈ (client.view options roomId).1.events,
      entry.returned options.userId ≠ some (client.freshMessageId options semantic now)) :
    Tracked options
      ((client.postMessage options roomId body kind attachments references semantic now).Tracks acked)
      (client.postMessage options roomId body kind attachments references semantic now) := by
  obtain ⟨item, hid, hpost⟩ :=
    postMessage_eq client roomId body kind attachments references semantic now
  have hmail : SameMail client (client.view options roomId).2 := same_mail_view client roomId
  have hminted : Minted ((client.view options roomId).2.nextCommandId + 1) item.clientMessageId := by
    rw [hid, freshMessageId_view client roomId]
    exact minted_fresh options _ semantic now
  have hopened : Tracked options ((client.view options roomId).2.Tracks acked)
      (client.view options roomId).2 :=
    (tracked_view h roomId).mono fun _ _ htracked => htracked.same hmail
  have hroom := hopened.rooms roomId _ (get_view client roomId)
  rw [← hid] at hunseen
  rw [hpost]
  have hlive : (client.view options roomId).2.connected = true := by
    unfold Client.connected at hconnected ⊢
    rw [hmail.socket, hmail.openSockets]
    exact hconnected
  generalize client.view options roomId = viewed at hunseen hminted hopened hroom hlive
  obtain ⟨room, opened⟩ := viewed
  dsimp only at hunseen hminted hopened hroom hlive ⊢
  obtain ⟨hold, hnew, hcommanded⟩ := tracked_commanded hopened
    (.message roomId body item.clientMessageId kind attachments references)
    ⟨roomId, item.clientMessageId⟩
  have hnumber := (command_spec opened
    (.message roomId body item.clientMessageId kind attachments references)).2.2.2.2.2.1
  have hrooms := (command_spec opened
    (.message roomId body item.clientMessageId kind attachments references)).2.1
  have happended : RoomTracked options.userId (opened.nextCommandId + 1)
      ((opened.commanded (.message roomId body item.clientMessageId kind attachments references)
        ⟨roomId, item.clientMessageId⟩).Tracks acked roomId)
      { room with pending := room.pending ++ [item] } :=
    (hroom.mono (Nat.le_refl _) (hold roomId)).append hminted hunseen
      (hnew hlive ⟨body, kind, attachments, references, rfl⟩) rfl rfl
  rw [← hnumber] at happended
  rw [← hrooms]
  refine (hcommanded.set _ happended).mono fun _ _ htracked => ?_
  exact htracked.same ⟨rfl, rfl, rfl, rfl, List.Subset.refl _⟩

theorem retryMessage_refused {roomId clientMessageId : String}
    (h : client.retries options roomId clientMessageId = false) :
    client.retryMessage options roomId clientMessageId = (client.view options roomId).2 := by
  have hmail : (client.view options roomId).2.status = client.status := by
    unfold Client.view
    cases client.rooms.get roomId with
    | some existing => rfl
    | none => rfl
  unfold Client.retries at h
  unfold Client.retryMessage
  generalize client.view options roomId = viewed at h hmail
  obtain ⟨room, opened⟩ := viewed
  dsimp only at h hmail ⊢
  cases hfound : room.pending.find? fun item => item.clientMessageId == clientMessageId with
  | none => rfl
  | some item =>
    rw [hfound] at h
    dsimp only at h ⊢
    rw [hmail, if_neg (of_decide_eq_false h)]

/-- A message that is sent again over an open socket is tracked. -/
theorem tracked_retryMessage {acked : List (String × String)}
    (h : Tracked options (client.Tracks acked) client) (roomId clientMessageId : String)
    (hconnected : client.retryMessage options roomId clientMessageId =
      (client.view options roomId).2 ∨ client.connected = true) :
    Tracked options ((client.retryMessage options roomId clientMessageId).Tracks acked)
      (client.retryMessage options roomId clientMessageId) := by
  have hmail : SameMail client (client.view options roomId).2 := same_mail_view client roomId
  have hopened : Tracked options ((client.view options roomId).2.Tracks acked)
      (client.view options roomId).2 :=
    (tracked_view h roomId).mono fun _ _ htracked => htracked.same hmail
  rcases hconnected with hnothing | hconnected
  · rw [hnothing]
    exact hopened
  have hlive : (client.view options roomId).2.connected = true := by
    unfold Client.connected at hconnected ⊢
    rw [hmail.socket, hmail.openSockets]
    exact hconnected
  have hget : (client.view options roomId).2.rooms.get roomId = some (client.view options roomId).1 :=
    get_view client roomId
  have hroom := hopened.rooms roomId _ hget
  unfold Client.retryMessage
  generalize client.view options roomId = viewed at hopened hlive hget hroom
  obtain ⟨room, opened⟩ := viewed
  dsimp only at hopened hlive hget hroom ⊢
  cases hfound : room.pending.find? fun item => item.clientMessageId == clientMessageId with
  | none => exact hopened
  | some item =>
    dsimp only
    split
    · have hid : item.clientMessageId = clientMessageId := by simpa using List.find?_some hfound
      generalize hcommand : ClientCommand.message roomId item.body item.clientMessageId item.kind
        item.attachments _ = command
      obtain ⟨hold, hnew, hcommanded⟩ := tracked_commanded hopened command ⟨roomId, clientMessageId⟩
      obtain ⟨-, hrooms, -, -, -, hnumber, -⟩ := command_spec opened command
      have hstill : (opened.command command).2.rooms.get roomId = some room := by rw [hrooms, hget]
      have hsends : command.Sends roomId clientMessageId := by
        rw [← hcommand, hid]
        exact ⟨item.body, item.kind, item.attachments, _, rfl⟩
      unfold Client.changePending
      dsimp only
      rw [modifyRoom_of_get hstill]
      have hset (changed : RoomView) : (({ (opened.command command).2 with
          rooms := (opened.command command).2.rooms.set roomId changed } : Client σ).dispatched
            (opened.command command).1 ⟨roomId, clientMessageId⟩).rooms.get roomId = some changed :=
        get_set_self _ _ _
      rw [changed_of_get (hset _)]
      have hretried : RoomTracked options.userId (opened.command command).2.nextCommandId
          ((opened.commanded command ⟨roomId, clientMessageId⟩).Tracks acked roomId)
          { room with
            pending := changeFirst (fun item => item.clientMessageId == clientMessageId) (fun item =>
              { item with status := .pending, error := none, retryable := none }) room.pending } := by
        have hlater : opened.nextCommandId ≤ (opened.command command).2.nextCommandId := by omega
        refine (hroom.mono hlater (hold roomId)).changeFirst (fun _ => by rfl) ?_ rfl rfl
        intro other _ hcondition _
        rw [eq_of_beq hcondition]
        exact hnew hlive hsends
      refine (hcommanded.set (opened.command command).2.store hretried).mono fun _ _ htracked => ?_
      exact htracked.same ⟨rfl, rfl, rfl, rfl, List.Subset.refl _⟩
    · exact hopened

theorem tracked_attach {acked : List (String × String)}
    (h : Tracked options (client.Tracks acked) client)
    (halone : client.connecting ≠ 0 → client.socket ≠ none → ∀ roomId room,
      client.rooms.get roomId = some room → ∀ item ∈ room.pending, item.status = .pending →
        (roomId, item.clientMessageId) ∈ acked) :
    Tracked options (client.attach.Tracks acked) client.attach := by
  unfold Client.attach
  split
  · exact h
  next hconnecting =>
  refine ⟨?_, h.commands⟩
  intro roomId room hroom
  obtain ⟨hminted, hdistinct, hunseen, hwaits⟩ := h.rooms roomId room hroom
  refine ⟨hminted, hdistinct, hunseen, ?_⟩
  intro item hitem hstatus
  by_cases hsocket : client.socket = none
  · rcases hwaits item hitem hstatus with ⟨_, socket, _, _, hcurrent, _⟩ | hacked
    · rw [hsocket] at hcurrent
      cases hcurrent
    · exact Or.inr hacked
  · exact Or.inr (halone hconnecting hsocket roomId room hroom item hitem hstatus)

end Clients

/-! ## Steps -/

section Outboxes

variable {σ : Type} {options : ClientOptions σ} {box : Outbox σ} {taken : Client.Step}

def Client.CanPost (options : ClientOptions σ) (client : Client σ) (roomId clientMessageId : String) :
    Prop :=
  client.connected = true ∧ ∀ entry ∈ (client.view options roomId).1.events,
    entry.returned options.userId ≠ some clientMessageId

/-- Messages are sent over an open socket, no socket takes the place of another while a message waits
for its answer, and no history is discarded under a message. -/
def Outbox.Allows (options : ClientOptions σ) (box : Outbox σ) : Client.Step → Prop
  | .frame (.subscribed roomId head _ _) _ =>
    head < (box.client.view options roomId).1.lastSeq →
      (box.client.view options roomId).1.pending = []
  | .sendMessage roomId _ _ _ _ semantic now =>
    box.client.CanPost options roomId (box.client.freshMessageId options semantic now)
  | .answerMessage roomId _ _ _ now =>
    box.client.CanPost options roomId (box.client.freshMessageId options false now)
  | .retryMessage roomId clientMessageId =>
    box.client.retries options roomId clientMessageId = true → box.client.connected = true
  | .attach => box.client.connecting ≠ 0 → box.client.socket ≠ none → ∀ roomId room,
      box.client.rooms.get roomId = some room → ∀ item ∈ room.pending, item.status = .pending →
        (roomId, item.clientMessageId) ∈ box.acked
  | _ => True

def Outbox.AllowsRun (options : ClientOptions σ) : Outbox σ → List Client.Step → Prop
  | _, [] => True
  | box, taken :: steps => box.Allows options taken ∧ (box.step options taken).AllowsRun options steps

theorem tracked_step (hallows : box.Allows options taken)
    (h : Tracked options (box.client.Tracks box.acked) box.client) :
    Tracked options ((box.step options taken).client.Tracks (box.step options taken).acked)
      (box.step options taken).client := by
  obtain ⟨client, owed, acked⟩ := box
  show Tracked options ((client.step options taken).Tracks (acked ++
    (client.acknowledged taken).toList)) (client.step options taken)
  dsimp only at h
  have hquiet (hmails : ¬ taken.Mails) (hnone : client.acknowledged taken = none) :
      Tracked options ((client.step options taken).Tracks (acked ++
        (client.acknowledged taken).toList)) (client.step options taken) := by
    have htracked := tracked_acts hmails (acts_step client taken) h
    have hmail : SameMail client (client.step options taken) :=
      same_mail_acts hmails (acts_step client taken)
    rw [hnone]
    exact htracked.mono fun roomId id hkept =>
      (hkept.same hmail).imp_right (List.mem_append_left _)
  -- A step that answers no command.
  have hlater (htracked : Tracked options ((client.step options taken).Tracks acked)
      (client.step options taken)) :
      Tracked options ((client.step options taken).Tracks (acked ++
        (client.acknowledged taken).toList)) (client.step options taken) :=
    htracked.mono fun roomId id hkept => hkept.imp_right (List.mem_append_left _)
  cases taken with
  | frame frame now =>
    cases frame with
    | ack commandId roomSeq issues => exact tracked_handleAck h commandId roomSeq issues
    | nack commandId code message => exact hlater (tracked_handleNack h commandId code message)
    | _ => exact hquiet id rfl
  | attach => exact hlater (tracked_attach h hallows)
  | opened socket => exact hlater (tracked_onOpen h socket)
  | closed socket =>
    exact hlater ((tracked_onClose h socket).mono fun _ _ hacked => Or.inr hacked)
  | close => exact hlater ((tracked_close h).mono fun _ _ hacked => Or.inr hacked)
  | sendMessage roomId body replyToId attachments references semantic now =>
    exact hlater (tracked_postMessage h roomId body _ attachments references semantic now
      hallows.1 hallows.2)
  | answerMessage roomId questionId body attachments now =>
    exact hlater (tracked_postMessage h roomId body _ attachments [] false now hallows.1 hallows.2)
  | retryMessage roomId clientMessageId =>
    refine hlater (tracked_retryMessage h roomId clientMessageId ?_)
    cases hretries : client.retries options roomId clientMessageId with
    | false => exact Or.inl (retryMessage_refused hretries)
    | true => exact Or.inr (hallows hretries)
  | command command => exact hlater (tracked_command h command)
  | _ => exact hquiet id rfl

/-! ## Rows -/

def Client.HasRow (client : Client σ) (message : String × String) : Prop :=
  ∃ room, client.rooms.get message.1 = some room ∧
    message.2 ∈ room.pending.map PendingMessage.clientMessageId

def Client.KeepsRows (options : ClientOptions σ) (client : Client σ) (taken : Client.Step) : Prop :=
  ∀ roomId, taken.Discards roomId (client.view options roomId).1.lastSeq →
    (client.view options roomId).1.pending = []

theorem Outbox.Allows.keepsRows (h : box.Allows options taken) :
    box.client.KeepsRows options taken := by
  rintro roomId ⟨frame, now, rfl, head, seenSeq, progress, rfl, hpast⟩
  exact h hpast

theorem row_applyNext {userId clientMessageId : String} {entry : RoomEntry} {room : RoomView}
    (hother : entry.returned userId ≠ some clientMessageId)
    (h : clientMessageId ∈ room.pending.map PendingMessage.clientMessageId) :
    clientMessageId ∈ (applyNext userId entry room).pending.map PendingMessage.clientMessageId := by
  cases entry with
  | tombstone row =>
    show clientMessageId ∈ (failMalformed row.roomSeq room.pending).map PendingMessage.clientMessageId
    unfold failMalformed
    rw [map_changeFirst fun _ => by rfl]
    exact h
  | event entry =>
    have hreturned : entry.returned userId ≠ some clientMessageId := hother
    obtain ⟨item, hitem, hid⟩ := List.mem_map.mp h
    show clientMessageId ∈ (applyEvent userId entry room).pending.map PendingMessage.clientMessageId
    rw [pending_applyEvent, reconcilePending_eq]
    cases hback : entry.returned userId with
    | none => exact h
    | some id =>
      refine List.mem_map.mpr ⟨item, List.mem_filter.mpr ⟨hitem, ?_⟩, hid⟩
      rw [bne_iff_ne, hid]
      rintro rfl
      exact hreturned hback

theorem row_act {begun client next : Client σ} {message : String × String}
    (hact : Act options begun taken client next) (hkeeps : begun.KeepsRows options taken)
    (hretires : begun.retires options taken message = false) (h : client.HasRow message) :
    next.HasRow message := by
  obtain ⟨roomId, clientMessageId⟩ := message
  obtain ⟨room, hroom, hrow⟩ := h
  dsimp only at hroom hrow
  unfold Client.retires at hretires
  obtain ⟨hstays, hunapplied⟩ := Bool.or_eq_false_iff.mp hretires
  -- A room that is written in which the message still has its row.
  have hset (other : String) (former changed : RoomView) (hopen : client.rooms.get other = some former)
      (hchanged : other = roomId →
        clientMessageId ∈ former.pending.map PendingMessage.clientMessageId →
        clientMessageId ∈ changed.pending.map PendingMessage.clientMessageId) :
      ∃ room, (client.rooms.set other changed).get roomId = some room ∧
        clientMessageId ∈ room.pending.map PendingMessage.clientMessageId := by
    by_cases heq : roomId = other
    · obtain rfl := heq
      cases hopen.symm.trans hroom
      exact ⟨changed, get_set_self _ _ _, hchanged rfl hrow⟩
    · refine ⟨room, ?_, hrow⟩
      rw [Js.Map.get_set, if_neg heq, hroom]
  cases hact with
  | load other habsent =>
    have hne : roomId ≠ other := by
      rintro rfl
      cases hroom.symm.trans habsent
    refine ⟨room, ?_, hrow⟩
    dsimp only
    rw [Js.Map.get_set, if_neg hne, hroom]
  | touch other former changed hopen hkept =>
    refine hset other former changed hopen fun _ hmem => ?_
    rw [hkept.pending]
    exact hmem
  | raise other former snapshots progress hopen => exact hset other former _ hopen fun _ hmem => hmem
  | preview frame now former _ hopen _ _ => exact hset _ former _ hopen fun _ hmem => hmem
  | apply entry former hopen _ happlied =>
    refine hset _ former _ hopen fun heq hmem => row_applyNext ?_ hmem
    intro hreturned
    have hnot := List.any_eq_false.mp hunapplied entry happlied
    rw [heq, hreturned] at hnot
    simp at hnot
  | discard other former hopen hdiscards hformer =>
    refine hset other former _ hopen fun _ hmem => ?_
    have hempty : former.pending = [] := by
      rw [hformer] at hdiscards ⊢
      exact hkeeps other hdiscards
    rw [hempty] at hmem
    cases hmem
  | leave other htaken =>
    have hne : roomId ≠ other := by
      rintro rfl
      rw [htaken] at hstays
      simp at hstays
    refine ⟨room, ?_, hrow⟩
    dsimp only
    rw [Js.Map.get_delete, if_neg hne, hroom]
  | send frame _ =>
    refine ⟨room, ?_, hrow⟩
    rw [(rooms_send client frame).2]
    exact hroom
  | idle next _ hrooms =>
    refine ⟨room, ?_, hrow⟩
    rw [hrooms]
    exact hroom
  | pend other former changed _ hopen _ hpending =>
    exact hset other former changed hopen fun _ hmem => hpending hmem
  | mail next _ _ hrooms =>
    refine ⟨room, ?_, hrow⟩
    rw [hrooms]
    exact hroom
  | drop _ =>
    refine ⟨dropRoom room, ?_, hrow⟩
    dsimp only
    rw [Js.Map.get_mapValues, hroom]
    rfl

theorem row_acts {begun client next : Client σ} {message : String × String}
    (hacts : Acts options begun taken client next) (hkeeps : begun.KeepsRows options taken)
    (hretires : begun.retires options taken message = false) (h : client.HasRow message) :
    next.HasRow message := by
  induction hacts with
  | refl => exact h
  | tail _ hact ih => exact row_act hact hkeeps hretires ih

theorem row_postMessage (client : Client σ) (roomId body : String) (kind : MessageKind)
    (attachments references : List Js.Json) (semantic : Bool) (now : Nat) :
    (client.postMessage options roomId body kind attachments references semantic now).HasRow
      (roomId, client.freshMessageId options semantic now) := by
  obtain ⟨item, hid, hpost⟩ : ∃ item : PendingMessage,
      item.clientMessageId = client.freshMessageId options semantic now ∧ _ :=
    postMessage_eq client roomId body kind attachments references semantic now
  rw [hpost]
  refine ⟨_, get_set_self _ _ _, ?_⟩
  rw [← hid]
  exact List.mem_map_of_mem (List.mem_append_right _ List.mem_cons_self)

theorem row_posted {client : Client σ} {message : String × String}
    (h : client.posted options taken = some message) :
    (client.step options taken).HasRow message := by
  cases taken with
  | sendMessage roomId body replyToId attachments references semantic now =>
    cases h
    exact row_postMessage client roomId body _ attachments references semantic now
  | answerMessage roomId questionId body attachments now =>
    cases h
    exact row_postMessage client roomId body _ attachments [] false now
  | _ => cases h

theorem rows_step (hallows : box.Allows options taken)
    (h : ∀ message ∈ box.owed, box.client.HasRow message) :
    ∀ message ∈ (box.step options taken).owed, (box.step options taken).client.HasRow message := by
  intro message hmessage
  obtain ⟨howed, hretires⟩ := List.mem_filter.mp hmessage
  rcases List.mem_append.mp howed with hold | hposted
  · refine row_acts (acts_step box.client taken) hallows.keepsRows ?_ (h message hold)
    simpa using hretires
  · exact row_posted (Option.mem_toList.mp hposted)

theorem kept_run {steps : List Client.Step} (hallows : box.AllowsRun options steps)
    (htracked : Tracked options (box.client.Tracks box.acked) box.client)
    (hrows : ∀ message ∈ box.owed, box.client.HasRow message) :
    (∀ message ∈ (box.run options steps).owed, (box.run options steps).client.HasRow message) ∧
      Tracked options ((box.run options steps).client.Tracks (box.run options steps).acked)
        (box.run options steps).client := by
  induction steps generalizing box with
  | nil => exact ⟨hrows, htracked⟩
  | cons taken steps ih => exact ih hallows.2 (tracked_step hallows.1 htracked) (rows_step hallows.1 hrows)

/-- A message that was sent has a row in its room until the event that brings it back is applied or the
room is left. No event that the room shows brings back a message of a row, and the command of one that
spins left on the open socket without an answer, unless it was acknowledged. -/
theorem sent_messages_kept (options : ClientOptions σ) (store : σ) (steps : List Client.Step)
    (hallows : (Outbox.initial store).AllowsRun options steps) :
    (∀ message ∈ ((Outbox.initial store).run options steps).owed,
      ((Outbox.initial store).run options steps).client.HasRow message) ∧
    ∀ roomId room, ((Outbox.initial store).run options steps).client.rooms.get roomId = some room →
      ∀ item ∈ room.pending,
        (∀ entry ∈ room.events, entry.returned options.userId ≠ some item.clientMessageId) ∧
        (item.status = .pending →
          ((Outbox.initial store).run options steps).client.Waits roomId item.clientMessageId ∨
          (roomId, item.clientMessageId) ∈ ((Outbox.initial store).run options steps).acked) := by
  have hinitial : Tracked options ((Outbox.initial store).client.Tracks (Outbox.initial store).acked)
      (Outbox.initial store).client := by
    refine ⟨?_, ?_⟩
    · rintro roomId room ⟨⟩
    · rintro commandId message ⟨⟩
  obtain ⟨hrows, htracked⟩ := kept_run hallows hinitial (by rintro message ⟨⟩)
  refine ⟨hrows, ?_⟩
  intro roomId room hroom item hitem
  have htracks := htracked.rooms roomId room hroom
  exact ⟨htracks.unseen item hitem, htracks.waits item hitem⟩

end Outboxes

/-! ### One room -/

def lookedAt : List Client.Step := [.connect, .attach, .opened 0, .join "room"]

def tells (body : String) : Client.Step := .sendMessage "room" body none [] [] false 0

/-- A message comes back, another one is acknowledged, and the connection drops under a third. -/
def talked : List Client.Step :=
  lookedAt ++ [tells "one", tells "two", tells "three",
    .frame (.event ⟨"room", 1, 1, ⟨"human", some "alice", none⟩,
      ⟨"e", "t", "message_posted", none, some "alice:0:1"⟩, []⟩) 0,
    .frame (.ack "c2" (some 2) []) 0, .closed 0]

/-- The first message is settled, the second one was acknowledged, the third one can be sent again. -/
theorem talked_messages_kept :
    (((Outbox.initial Js.Map.empty).run (memoryOptions "alice" none 8 true) talked).owed =
        [("room", "alice:0:2"), ("room", "alice:0:3")] ∧
      ∀ message ∈ ((Outbox.initial Js.Map.empty).run (memoryOptions "alice" none 8 true) talked).owed,
        ((Outbox.initial Js.Map.empty).run (memoryOptions "alice" none 8 true) talked).client.HasRow
          message) ∧
    ∀ roomId room, ((Outbox.initial Js.Map.empty).run (memoryOptions "alice" none 8 true)
        talked).client.rooms.get roomId = some room → ∀ item ∈ room.pending,
      (∀ entry ∈ room.events, entry.returned "alice" ≠ some item.clientMessageId) ∧
      (item.status = .pending →
        ((Outbox.initial Js.Map.empty).run (memoryOptions "alice" none 8 true) talked).client.Waits
          roomId item.clientMessageId ∨
        (roomId, item.clientMessageId) ∈
          ((Outbox.initial Js.Map.empty).run (memoryOptions "alice" none 8 true) talked).acked) := by
  have hallows : (Outbox.initial Js.Map.empty).AllowsRun (memoryOptions "alice" none 8 true) talked := by
    have hsends {box : Outbox MemoryStore} {body : String} (hconnected : box.client.connected = true)
        (hevents : (box.client.view (memoryOptions "alice" none 8 true) "room").1.events = []) :
        box.Allows (memoryOptions "alice" none 8 true) (tells body) := by
      refine ⟨hconnected, ?_⟩
      rw [hevents]
      rintro entry ⟨⟩
    refine ⟨trivial, fun _ halone => absurd rfl halone, trivial, trivial, ?_, ?_, ?_, trivial, trivial,
      trivial, trivial⟩
    · exact hsends (by decide +kernel) (by decide +kernel)
    · exact hsends (by decide +kernel) (by decide +kernel)
    · exact hsends (by decide +kernel) (by decide +kernel)
  obtain ⟨hrows, hitems⟩ :=
    sent_messages_kept (memoryOptions "alice" none 8 true) Js.Map.empty talked hallows
  exact ⟨⟨by decide +kernel, hrows⟩, hitems⟩

def sentEarly : List Client.Step := [.connect, .attach, tells "one", .opened 0]

/-- A message waits when the server names a head behind the cursor of the room. -/
def sentBeforeDiscard : List Client.Step :=
  lookedAt ++ [Client.Step.frame (.event ⟨"room", 1, 1, ⟨"human", some "bob", none⟩,
      ⟨"e", "t", "message_posted", none, none⟩, []⟩) 0,
    tells "one", Client.Step.frame (.subscribed "room" 0 0 []) 0]

/-- A second socket is attached while a message waits on the first one. -/
def sentBeforeAttach : List Client.Step :=
  [.connect, .connect, .attach, .opened 0, .join "room", tells "one", .attach]

def aliceOutbox (steps : List Client.Step) : Outbox MemoryStore :=
  (Outbox.initial Js.Map.empty).run (memoryOptions "alice" none 8 true) steps

/-- A message that was sent too early spins and its command never left, a message is gone with the
history of its room, and a message spins whose command left on a socket that was replaced. -/
theorem early_message_spins :
    (∃ room, (aliceOutbox sentEarly).client.rooms.get "room" = some room ∧ ∃ item ∈ room.pending,
      item.status = .pending ∧ ¬ (aliceOutbox sentEarly).client.Waits "room" item.clientMessageId ∧
        ("room", item.clientMessageId) ∉ (aliceOutbox sentEarly).acked) ∧
    (("room", "alice:0:1") ∈ (aliceOutbox sentBeforeDiscard).owed ∧
      ¬ (aliceOutbox sentBeforeDiscard).client.HasRow ("room", "alice:0:1")) ∧
    ∃ room, (aliceOutbox sentBeforeAttach).client.rooms.get "room" = some room ∧ ∃ item ∈ room.pending,
      item.status = .pending ∧
        ¬ (aliceOutbox sentBeforeAttach).client.Waits "room" item.clientMessageId ∧
        ("room", item.clientMessageId) ∉ (aliceOutbox sentBeforeAttach).acked := by
  refine ⟨⟨_, rfl, _, List.mem_cons_self, rfl, ?_, ?_⟩, ⟨by decide +kernel, ?_⟩,
    ⟨_, rfl, _, List.mem_cons_self, rfl, ?_, ?_⟩⟩
  · rintro ⟨commandId, socket, command, -, -, -, hframe, -⟩
    have hsent : (aliceOutbox sentEarly).client.sent = [(0, .subscribe "room")] := rfl
    rw [hsent, List.mem_singleton] at hframe
    cases hframe
  · have hacked : (aliceOutbox sentEarly).acked = [] := by decide +kernel
    rw [hacked]
    exact List.not_mem_nil
  · rintro ⟨room, hroom, hrow⟩
    have hpending : (aliceOutbox sentBeforeDiscard).client.rooms.get "room" = some room →
        room.pending = [] := by
      rintro ⟨⟩
      rfl
    rw [hpending hroom] at hrow
    cases hrow
  · rintro ⟨commandId, socket, command, -, hsocket, -, hframe, -⟩
    have hcurrent : (aliceOutbox sentBeforeAttach).client.socket = some 1 := rfl
    obtain rfl : 1 = socket := Option.some.inj (hcurrent.symm.trans hsocket)
    have hsent : (aliceOutbox sentBeforeAttach).client.sent.map Prod.fst = [0, 0] := by decide +kernel
    have hmem := List.mem_map_of_mem (f := Prod.fst) hframe
    rw [hsent] at hmem
    simp at hmem
  · have hacked : (aliceOutbox sentBeforeAttach).acked = [] := by decide +kernel
    rw [hacked]
    exact List.not_mem_nil

end Web
