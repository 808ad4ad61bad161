import Mathlib.Logic.Function.Basic
import AtriumVerified.Web.Proofs.ActProofs

/-!
# Proofs: what moves a timeline

Most of what happens to a client touches neither the timeline of a room nor its cursor. What does is
one of four moves: a room is loaded from the journal, an entry in the next place is committed and
applied, a history is discarded, or a room is left. Every step of a client is a sequence of them.
-/

namespace Web

open Relation Client

variable {σ : Type} {options : ClientOptions σ} {begun client : Client σ}
  {taken : Client.Step}

/-- The part of a client that carries timelines: the store of the journal, and the events and the
cursor of every room that is open. -/
@[ext] structure Timelines (σ : Type) where
  store : σ
  rooms : String → Option (List Envelope × Nat)

def RoomView.timeline (room : RoomView) : List Envelope × Nat := (room.events, room.lastSeq)

def Client.timelines (client : Client σ) : Timelines σ :=
  ⟨client.store, fun roomId => (client.rooms.get roomId).map RoomView.timeline⟩

def HeldRoom.timeline (held : HeldRoom) : List Envelope × Nat :=
  (held.events.filterMap RoomEntry.shown, held.lastSeq)

/-- One move. The entries that may be applied and the rooms and cursors that may be discarded are
given. -/
inductive Move (options : ClientOptions σ) (carried : RoomEntry → Prop)
    (discarded : String → Nat → Prop) : Timelines σ → Timelines σ → Prop
  | load (all : Timelines σ) (roomId : String) : all.rooms roomId = none →
      Move options carried discarded all
        ⟨(options.journal.load all.store roomId).2, Function.update all.rooms roomId
          (some (options.journal.load all.store roomId).1.timeline)⟩
  | apply (all : Timelines σ) (entry : RoomEntry) (events : List Envelope) (lastSeq : Nat) :
      all.rooms entry.roomId = some (events, lastSeq) → entry.roomSeq = lastSeq + 1 → carried entry →
      Move options carried discarded all
        ⟨options.journal.commit all.store entry.roomId entry entry.roomSeq,
          Function.update all.rooms entry.roomId
            (some (events ++ entry.shown.toList, entry.roomSeq))⟩
  | discard (all : Timelines σ) (roomId : String) (events : List Envelope) (lastSeq : Nat) :
      all.rooms roomId = some (events, lastSeq) → discarded roomId lastSeq →
      Move options carried discarded all
        ⟨options.journal.reset all.store roomId, Function.update all.rooms roomId (some ([], 0))⟩
  | leave (all : Timelines σ) (roomId : String) :
      Move options carried discarded all ⟨all.store, Function.update all.rooms roomId none⟩

abbrev Moves (options : ClientOptions σ) (carried : RoomEntry → Prop)
    (discarded : String → Nat → Prop) : Timelines σ → Timelines σ → Prop :=
  ReflTransGen (Move options carried discarded)

section Moves

variable {carried : RoomEntry → Prop} {discarded : String → Nat → Prop} {roomId : String}

/-! ## Rooms -/

theorem timelines_rooms_set (client : Client σ) (roomId : String) (room : RoomView) :
    ({ client with rooms := client.rooms.set roomId room } : Client σ).timelines =
      ⟨client.store, Function.update client.timelines.rooms roomId (some room.timeline)⟩ := by
  unfold Client.timelines
  congr 1
  funext other
  dsimp only
  rw [Js.Map.get_set]
  by_cases h : other = roomId
  · rw [if_pos h, h, Function.update_self]
    rfl
  · rw [if_neg h, Function.update_of_ne h]

theorem timelines_view (client : Client σ) (roomId : String) :
    (client.view options roomId).2.timelines.rooms roomId =
      some (client.view options roomId).1.timeline := by
  unfold Client.timelines
  dsimp only
  rw [get_view]
  rfl

theorem moves_view (client : Client σ) (roomId : String) :
    Moves options carried discarded client.timelines (client.view options roomId).2.timelines := by
  cases h : client.rooms.get roomId with
  | some existing =>
    rw [view_of_get h]
  | none =>
    have habsent : client.timelines.rooms roomId = none := by
      unfold Client.timelines
      dsimp only
      rw [h]
      rfl
    have hview : (client.view options roomId).2.timelines =
        ⟨(options.journal.load client.timelines.store roomId).2,
          Function.update client.timelines.rooms roomId
            (some (options.journal.load client.timelines.store roomId).1.timeline)⟩ := by
      unfold Client.view
      rw [h]
      exact timelines_rooms_set { client with
        store := (options.journal.load client.store roomId).2 } roomId _
    rw [hview]
    exact ReflTransGen.single (Move.load _ roomId habsent)

theorem timelines_written (client : Client σ) (store : σ) (roomId : String) (room : RoomView) :
    ({ client with store, rooms := client.rooms.set roomId room } : Client σ).timelines =
      ⟨store, Function.update client.timelines.rooms roomId (some room.timeline)⟩ :=
  timelines_rooms_set { client with store } roomId room

theorem timelines_unmoved {room changed : RoomView} (h : client.rooms.get roomId = some room)
    (hsame : changed.timeline = room.timeline) :
    ({ client with rooms := client.rooms.set roomId changed } : Client σ).timelines =
      client.timelines := by
  have hroom : client.timelines.rooms roomId = some room.timeline := by
    unfold Client.timelines
    dsimp only
    rw [h]
    rfl
  rw [timelines_rooms_set, hsame, ← hroom, Function.update_eq_self]
  rfl

theorem RoomView.Keeps.timeline {room changed : RoomView} (h : room.Keeps changed) :
    changed.timeline = room.timeline := by
  unfold RoomView.timeline
  rw [h.events, h.lastSeq]

theorem timelines_send (client : Client σ) (frame : ClientFrame) :
    (client.send frame).timelines = client.timelines := by
  unfold Client.timelines
  rw [(rooms_send client frame).1, (rooms_send client frame).2]

theorem timeline_applyNext (userId : String) (entry : RoomEntry) (room : RoomView) :
    (applyNext userId entry room).timeline =
      (room.events ++ entry.shown.toList, entry.roomSeq) := by
  cases entry with
  | tombstone row =>
    show (room.events, row.roomSeq) = (room.events ++ [], row.roomSeq)
    rw [List.append_nil]
  | event envelope =>
    have hevents : (applyEvent userId envelope room).events =
        room.events ++ (RoomEntry.event envelope).shown.toList := by
      unfold applyEvent RoomEntry.shown
      dsimp only
      by_cases hissues : envelope.issues = []
      · rw [if_neg (not_not.mpr hissues), if_pos hissues]
        cases envelope.event.settled with
        | none => rfl
        | some sessionId => rfl
      · rw [if_pos hissues, if_neg hissues]
        exact (List.append_nil _).symm
    exact Prod.ext hevents rfl

/-! ## Acts -/

/-- An act moves the timelines by one move, or not at all. -/
theorem moves_act {next : Client σ} (h : Act options begun taken client next) :
    Moves options taken.Carries taken.Discards client.timelines next.timelines := by
  have hunmoved {other : Client σ} (hsame : other.timelines = client.timelines) :
      Moves options taken.Carries taken.Discards client.timelines other.timelines := by
    rw [hsame]
  have hroom {roomId : String} {room : RoomView} (h : client.rooms.get roomId = some room) :
      client.timelines.rooms roomId = some (room.events, room.lastSeq) := by
    unfold Client.timelines
    dsimp only
    rw [h]
    rfl
  cases h with
  | load roomId habsent =>
    have hload : Moves options taken.Carries taken.Discards client.timelines
      (client.view options roomId).2.timelines := moves_view client roomId
    unfold Client.view at hload
    rw [habsent] at hload
    exact hload
  | touch roomId room changed hopen hkeeps => exact hunmoved (timelines_unmoved hopen hkeeps.timeline)
  | raise roomId room snapshots progress hopen => exact hunmoved (timelines_unmoved hopen rfl)
  | preview frame now room _ hopen _ _ => exact hunmoved (timelines_unmoved hopen rfl)
  | apply entry room hopen hposition happlied =>
    rw [timelines_written, timeline_applyNext]
    exact ReflTransGen.single (Move.apply client.timelines entry room.events room.lastSeq (hroom hopen)
      hposition (applied_carries happlied))
  | discard roomId room hopen hpast _ =>
    rw [timelines_written]
    exact ReflTransGen.single
      (Move.discard client.timelines roomId room.events room.lastSeq (hroom hopen) hpast)
  | leave roomId _ =>
    have hleft : ({ client with rooms := client.rooms.delete roomId } : Client σ).timelines =
        ⟨client.timelines.store, Function.update client.timelines.rooms roomId none⟩ := by
      refine Timelines.ext rfl ?_
      funext other
      unfold Client.timelines
      dsimp only
      rw [Js.Map.get_delete]
      by_cases h : other = roomId
      · rw [if_pos h, h, Function.update_self]
        rfl
      · rw [if_neg h, Function.update_of_ne h]
    rw [hleft]
    exact ReflTransGen.single (Move.leave client.timelines roomId)
  | send frame _ => exact hunmoved (timelines_send client frame)
  | idle next hstore hrooms _ _ _ _ _ =>
    refine hunmoved ?_
    unfold Client.timelines
    rw [hstore, hrooms]
  | pend roomId room changed _ hopen hkeeps _ => exact hunmoved (timelines_unmoved hopen hkeeps.timeline)
  | mail next _ hstore hrooms =>
    refine hunmoved ?_
    unfold Client.timelines
    rw [hstore, hrooms]
  | drop _ =>
    refine hunmoved (Timelines.ext rfl ?_)
    funext roomId
    unfold Client.timelines
    dsimp only
    rw [Js.Map.get_mapValues, Option.map_map]
    rfl

end Moves

theorem moves_step (client : Client σ) (taken : Client.Step) :
    Moves options taken.Carries taken.Discards client.timelines
      (client.step options taken).timelines := by
  have hacts : Acts options client taken client (client.step options taken) := acts_step client taken
  generalize client.step options taken = last at hacts ⊢
  induction hacts with
  | refl => exact ReflTransGen.refl
  | tail _ hact ih => exact ih.trans (moves_act hact)

end Web
