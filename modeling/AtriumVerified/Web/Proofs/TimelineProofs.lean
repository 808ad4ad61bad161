import AtriumVerified.Web.Proofs.MoveProofs

/-!
# Proofs: the timeline of a room is a prefix of its ledger

Whatever order frames arrive in, however often, over however many sockets: what a client shows of a
room are the first entries of the room's ledger, without those the reducer refused or nobody could
read, and the journal stands where the room stands.
-/

namespace Web

open Relation Client

/-- The ledgers of all rooms: the rows of each stand at the positions 1, 2, 3 and so on. -/
structure Ledgers where
  rows : String → List RoomEntry
  located : ∀ roomId i entry, (rows roomId)[i]? = some entry →
    entry.roomId = roomId ∧ entry.roomSeq = i + 1

def Ledgers.Holds (ledgers : Ledgers) (entry : RoomEntry) : Prop := entry ∈ ledgers.rows entry.roomId

def memoryOptions (userId : String) (catchUpPageSize : Option Nat) (maxStalledCatchups : Nat)
    (reconnect : Bool) : ClientOptions MemoryStore :=
  ⟨userId, memoryJournal, catchUpPageSize, maxStalledCatchups, reconnect⟩

/-- A room shows the issue-free events among the first rows of its ledger, as many as its cursor and
the cursor of its journal say. -/
structure ShowsPrefix (ledger : List RoomEntry) (room : RoomView) (held : HeldRoom) : Prop where
  within : room.lastSeq ≤ ledger.length
  events : room.events = (ledger.take room.lastSeq).filterMap RoomEntry.shown
  cursor : held.lastSeq = room.lastSeq

/-! ## The journal in memory -/

section Memory

variable {store : MemoryStore} {roomId : String}

theorem memoryRoom_fst (store : MemoryStore) (roomId : String) :
    (memoryRoom store roomId).1 = heldRoom store roomId := by
  unfold memoryRoom heldRoom
  cases store.get roomId with
  | some existing => rfl
  | none => rfl

theorem heldRoom_set (store : MemoryStore) (roomId : String) (held : HeldRoom) (other : String) :
    heldRoom (store.set roomId held) other = if other = roomId then held else heldRoom store other := by
  unfold heldRoom
  rw [Js.Map.get_set]
  split
  · rfl
  · rfl

theorem heldRoom_memoryRoom (store : MemoryStore) (roomId other : String) :
    heldRoom (memoryRoom store roomId).2 other = heldRoom store other := by
  unfold memoryRoom
  cases h : store.get roomId with
  | some existing => rfl
  | none =>
    dsimp only
    rw [heldRoom_set]
    by_cases heq : other = roomId
    · rw [if_pos heq, heq]
      unfold heldRoom
      rw [h]
      rfl
    · rw [if_neg heq]

theorem heldRoom_commit (store : MemoryStore) (roomId : String) (entry : RoomEntry) (lastSeq : Nat)
    (other : String) : heldRoom (memoryJournal.commit store roomId entry lastSeq) other =
      if other = roomId then ⟨(heldRoom store roomId).events ++ [entry],
        max (heldRoom store roomId).lastSeq lastSeq⟩ else heldRoom store other := by
  have hroom : heldRoom (memoryJournal.commit store roomId entry lastSeq) other =
      heldRoom ((memoryRoom store roomId).2.set roomId ⟨(memoryRoom store roomId).1.events ++ [entry],
        max (memoryRoom store roomId).1.lastSeq lastSeq⟩) other := rfl
  rw [hroom, heldRoom_set, memoryRoom_fst, heldRoom_memoryRoom]

theorem heldRoom_reset (store : MemoryStore) (roomId other : String) :
    heldRoom (memoryJournal.reset store roomId) other =
      if other = roomId then ⟨[], 0⟩ else heldRoom store other := by
  have hroom : heldRoom (memoryJournal.reset store roomId) other =
      heldRoom (store.delete roomId) other := rfl
  rw [hroom]
  unfold heldRoom
  rw [Js.Map.get_delete]
  split
  · rfl
  · rfl

end Memory

/-! ## The invariant -/

/-- The journal holds a prefix of every ledger, and an open room shows what the journal holds. -/
structure Prefixes (ledgers : Ledgers) (all : Timelines MemoryStore) : Prop where
  within : ∀ roomId, (heldRoom all.store roomId).lastSeq ≤ (ledgers.rows roomId).length
  held : ∀ roomId, (heldRoom all.store roomId).events =
    (ledgers.rows roomId).take (heldRoom all.store roomId).lastSeq
  shown : ∀ roomId timeline, all.rooms roomId = some timeline →
    timeline = (heldRoom all.store roomId).timeline

section Invariant

variable {ledgers : Ledgers} {options : ClientOptions MemoryStore} {carried : RoomEntry → Prop}
  {discarded : String → Nat → Prop} {all next : Timelines MemoryStore}

theorem Ledgers.take_succ {entry : RoomEntry} {n : Nat} (h : ledgers.Holds entry)
    (hposition : entry.roomSeq = n + 1) :
    (ledgers.rows entry.roomId).take (n + 1) = (ledgers.rows entry.roomId).take n ++ [entry] ∧
      n + 1 ≤ (ledgers.rows entry.roomId).length := by
  obtain ⟨i, hi⟩ := List.getElem?_of_mem h
  obtain ⟨-, hseq⟩ := ledgers.located _ i entry hi
  obtain rfl : i = n := by omega
  have hlength : i < (ledgers.rows entry.roomId).length := (List.getElem?_eq_some_iff.mp hi).1
  rw [List.take_add_one, hi]
  exact ⟨rfl, hlength⟩

/-- Every move keeps the invariant, as long as what is applied comes from the ledgers. -/
theorem prefixes_move (hjournal : options.journal = memoryJournal)
    (hcarried : ∀ entry, carried entry → ledgers.Holds entry)
    (h : Prefixes ledgers all) (hmove : Move options carried discarded all next) :
    Prefixes ledgers next := by
  cases hmove with
  | load roomId habsent =>
    have hload : options.journal.load all.store roomId = memoryRoom all.store roomId := by
      rw [hjournal]
      rfl
    rw [hload]
    refine ⟨?_, ?_, ?_⟩
    · intro other
      dsimp only
      rw [heldRoom_memoryRoom]
      exact h.within other
    · intro other
      dsimp only
      rw [heldRoom_memoryRoom]
      exact h.held other
    · intro other timeline htimeline
      dsimp only at htimeline ⊢
      rw [heldRoom_memoryRoom]
      by_cases heq : other = roomId
      · rw [heq, Function.update_self, memoryRoom_fst] at htimeline
        rw [heq]
        exact (Option.some.inj htimeline).symm
      · rw [Function.update_of_ne heq] at htimeline
        exact h.shown other timeline htimeline
  | apply entry events lastSeq hroom hposition hentry =>
    obtain ⟨htake, hlength⟩ := ledgers.take_succ (hcarried entry hentry) hposition
    -- The room stands where its journal stands, and the entry comes next in both.
    have hshown := h.shown _ _ hroom
    unfold HeldRoom.timeline at hshown
    obtain ⟨hevents, hcursor⟩ := Prod.mk.inj hshown
    have hheld := h.held entry.roomId
    rw [← hcursor] at hheld
    have hnew : heldRoom (options.journal.commit all.store entry.roomId entry entry.roomSeq)
        entry.roomId = ⟨(ledgers.rows entry.roomId).take (lastSeq + 1), lastSeq + 1⟩ := by
      rw [hjournal, heldRoom_commit, if_pos rfl, hheld, ← htake, ← hcursor, hposition]
      congr 1
      omega
    have hother (other : String) (hne : other ≠ entry.roomId) :
        heldRoom (options.journal.commit all.store entry.roomId entry entry.roomSeq) other =
          heldRoom all.store other := by
      rw [hjournal, heldRoom_commit, if_neg hne]
    refine ⟨?_, ?_, ?_⟩
    · intro other
      dsimp only
      by_cases heq : other = entry.roomId
      · rw [heq, hnew]
        exact hlength
      · rw [hother other heq]
        exact h.within other
    · intro other
      dsimp only
      by_cases heq : other = entry.roomId
      · rw [heq, hnew]
      · rw [hother other heq]
        exact h.held other
    · intro other timeline htimeline
      dsimp only at htimeline ⊢
      by_cases heq : other = entry.roomId
      · rw [heq, Function.update_self] at htimeline
        rw [heq, hnew, ← Option.some.inj htimeline]
        have hone : [entry].filterMap RoomEntry.shown = entry.shown.toList := by
          cases hentry : entry.shown <;> simp [hentry]
        unfold HeldRoom.timeline
        rw [htake, List.filterMap_append, hevents, hheld, hposition, hone]
      · rw [Function.update_of_ne heq] at htimeline
        rw [hother other heq]
        exact h.shown other timeline htimeline
  | discard roomId events lastSeq hroom hpast =>
    have hreset (other : String) : heldRoom (options.journal.reset all.store roomId) other =
        if other = roomId then ⟨[], 0⟩ else heldRoom all.store other := by
      rw [hjournal]
      exact heldRoom_reset all.store roomId other
    refine ⟨?_, ?_, ?_⟩
    · intro other
      dsimp only
      rw [hreset]
      split
      · exact Nat.zero_le _
      · exact h.within other
    · intro other
      dsimp only
      rw [hreset]
      split
      · rfl
      · exact h.held other
    · intro other timeline htimeline
      dsimp only at htimeline ⊢
      rw [hreset]
      by_cases heq : other = roomId
      · rw [heq, Function.update_self] at htimeline
        rw [if_pos heq, ← Option.some.inj htimeline]
        rfl
      · rw [Function.update_of_ne heq] at htimeline
        rw [if_neg heq]
        exact h.shown other timeline htimeline
  | leave roomId =>
    refine ⟨h.within, h.held, ?_⟩
    intro other timeline htimeline
    dsimp only at htimeline
    by_cases heq : other = roomId
    · rw [heq, Function.update_self] at htimeline
      cases htimeline
    · rw [Function.update_of_ne heq] at htimeline
      exact h.shown other timeline htimeline

theorem prefixes_moves (hjournal : options.journal = memoryJournal)
    (hcarried : ∀ entry, carried entry → ledgers.Holds entry)
    (h : Prefixes ledgers all) (hmoves : Moves options carried discarded all next) :
    Prefixes ledgers next := by
  induction hmoves with
  | refl => exact h
  | tail _ hmove ih => exact prefixes_move hjournal hcarried ih hmove

theorem prefixes_run {client : Client MemoryStore} {steps : List Client.Step}
    (hjournal : options.journal = memoryJournal)
    (hdrawn : ∀ taken ∈ steps, ∀ entry, taken.Carries entry → ledgers.Holds entry)
    (h : Prefixes ledgers client.timelines) :
    Prefixes ledgers (client.run options steps).timelines := by
  induction steps generalizing client with
  | nil => exact h
  | cons taken steps ih =>
    have hstep := prefixes_moves hjournal (hdrawn taken List.mem_cons_self) h
      (moves_step client taken)
    exact ih (fun later hlater => hdrawn later (List.mem_cons_of_mem _ hlater)) hstep

theorem prefixes_initial (ledgers : Ledgers) :
    Prefixes ledgers (Client.initial Js.Map.empty : Client MemoryStore).timelines := by
  refine ⟨?_, ?_, ?_⟩
  · intro roomId
    exact Nat.zero_le _
  · intro roomId
    rfl
  · rintro roomId timeline ⟨⟩

end Invariant

theorem heldRoom_view {options : ClientOptions MemoryStore} (hjournal : options.journal = memoryJournal)
    (client : Client MemoryStore) (roomId other : String) :
    heldRoom (client.view options roomId).2.store other = heldRoom client.store other := by
  unfold Client.view
  cases client.rooms.get roomId with
  | some existing => rfl
  | none =>
    dsimp only
    rw [hjournal]
    exact heldRoom_memoryRoom client.store roomId other

theorem showsPrefix_view {ledgers : Ledgers} {options : ClientOptions MemoryStore}
    {client : Client MemoryStore} (hjournal : options.journal = memoryJournal)
    (h : Prefixes ledgers client.timelines) (roomId : String) :
    ShowsPrefix (ledgers.rows roomId) (client.view options roomId).1
      (heldRoom client.store roomId) := by
  have hmoves : Moves options (fun _ => False) (fun _ _ => False) client.timelines
    (client.view options roomId).2.timelines := moves_view client roomId
  have hview := prefixes_moves hjournal (fun _ => False.elim) h hmoves
  have hshown := hview.shown roomId _ (timelines_view client roomId)
  have hstore : heldRoom (client.view options roomId).2.timelines.store roomId =
    heldRoom client.store roomId := heldRoom_view hjournal client roomId roomId
  rw [hstore] at hshown
  unfold RoomView.timeline HeldRoom.timeline at hshown
  obtain ⟨hevents, hcursor⟩ := Prod.mk.inj hshown
  have hwithin : (heldRoom client.store roomId).lastSeq ≤ (ledgers.rows roomId).length :=
    h.within roomId
  have hheld : (heldRoom client.store roomId).events =
    (ledgers.rows roomId).take (heldRoom client.store roomId).lastSeq := h.held roomId
  refine ⟨?_, ?_, hcursor.symm⟩
  · rw [hcursor]
    exact hwithin
  · rw [hevents, hcursor, hheld]

/-- After every run, every room a client looks at shows a prefix of its ledger. -/
theorem timeline_agrees_with_ledger (ledgers : Ledgers) (userId : String) (catchUpPageSize : Option Nat)
    (maxStalledCatchups : Nat) (reconnect : Bool) (steps : List Client.Step) (roomId : String)
    (hdrawn : ∀ taken ∈ steps, ∀ entry, taken.Carries entry → ledgers.Holds entry) :
    ShowsPrefix (ledgers.rows roomId)
      (((Client.initial Js.Map.empty).run
        (memoryOptions userId catchUpPageSize maxStalledCatchups reconnect) steps).view
          (memoryOptions userId catchUpPageSize maxStalledCatchups reconnect) roomId).1
      (heldRoom ((Client.initial Js.Map.empty).run
        (memoryOptions userId catchUpPageSize maxStalledCatchups reconnect) steps).store roomId) :=
  showsPrefix_view rfl (prefixes_run rfl hdrawn (prefixes_initial ledgers)) roomId

/-! ### A room of three rows -/

def shownRow (roomSeq : Nat) (issues : List String) : RoomEntry :=
  .event ⟨"room", roomSeq, roomSeq, ⟨"human", some "alice", none⟩,
    ⟨"e", "1970-01-01T00:00:00.000Z", "message_posted", none, none⟩, issues⟩

/-- A message, a message that was refused and a row that nobody can read. -/
def threeRows : Ledgers where
  rows roomId := if roomId = "room" then
    [shownRow 1 [], shownRow 2 ["refused"], .tombstone ⟨"room", 3, 3, "malformed"⟩] else []
  located := by
    intro roomId i entry h
    by_cases hroom : roomId = "room"
    · rw [if_pos hroom] at h
      match i with
      | 0 => cases h; exact ⟨hroom.symm, rfl⟩
      | 1 => cases h; exact ⟨hroom.symm, rfl⟩
      | 2 => cases h; exact ⟨hroom.symm, rfl⟩
      | i + 3 => cases h
    · rw [if_neg hroom] at h
      cases h

/-- The third row comes first, then a page, then the first row again, and the room is left. -/
def scatteredFrames : List Client.Step :=
  [.join "room", .frame (.tombstone ⟨"room", 3, 3, "malformed"⟩) 0,
    .frame (.catchup ⟨"room", 0, 3, 3, false, [some (shownRow 1 []), some (shownRow 2 ["refused"]),
      some (.tombstone ⟨"room", 3, 3, "malformed"⟩)], by
        intro entry hentry
        simp only [List.mem_cons, Option.some.injEq, List.not_mem_nil, or_false] at hentry
        rcases hentry with rfl | rfl | rfl <;> rfl⟩) 1,
    .closed 0, .leave "room"]

/-- The room that is looked at again shows its first event, with the cursor behind the third row. -/
theorem scattered_agrees_with_ledger :
    ShowsPrefix (threeRows.rows "room")
      (((Client.initial Js.Map.empty).run (memoryOptions "alice" none 8 true) scatteredFrames).view
        (memoryOptions "alice" none 8 true) "room").1
      (heldRoom ((Client.initial Js.Map.empty).run (memoryOptions "alice" none 8 true)
        scatteredFrames).store "room") ∧
    (((Client.initial Js.Map.empty).run (memoryOptions "alice" none 8 true) scatteredFrames).view
      (memoryOptions "alice" none 8 true) "room").1.lastSeq = 3 := by
  refine ⟨timeline_agrees_with_ledger threeRows "alice" none 8 true scatteredFrames "room" ?_, by decide⟩
  intro taken htaken entry hcarries
  obtain ⟨frame, now, rfl, hentry⟩ := hcarries
  have hrows : ∀ entry ∈ frame.entries, entry ∈ threeRows.rows "room" := by
    simp only [scatteredFrames, List.mem_cons, Client.Step.frame.injEq, reduceCtorEq, List.not_mem_nil,
      or_false, false_or] at htaken
    rcases htaken with ⟨rfl, -⟩ | ⟨rfl, -⟩
    · decide
    · decide
  have hmem := hrows entry hentry
  obtain ⟨i, hi⟩ := List.getElem?_of_mem hmem
  unfold Ledgers.Holds
  rw [(threeRows.located "room" i entry hi).1]
  exact hmem

end Web
