import AtriumVerified.Web.Page
import AtriumVerified.Web.Proofs.StoredJournalProofs

/-!
# Proofs: the wall behind a finished session

A room refuses the previews of the sessions in its wall, and those at or below its floors. The wall is
made out of what the journal still holds when the room is opened, and stays up when a history is
discarded; the floors are gone with the room. As long as the journal holds an end of every session that
ended below the cursor, and nothing is discarded under a wall, the wall is exactly what has ended. As
long as a room that was closed is only shown what is new, previews strictly increase.
-/

namespace Web

open Relation Client

def Ledgers.Ended (ledgers : Ledgers) (roomId sessionId : String) (cursor : Nat) : Prop :=
  ∃ entry ∈ ledgers.rows roomId, ∃ envelope, entry.shown = some envelope ∧
    envelope.event.settled = some sessionId ∧ entry.roomSeq ≤ cursor

/-- What is held of a room holds an end of every session that ended below its cursor. -/
def Ledgers.Retained (ledgers : Ledgers) (answer : String × HeldRoom) : Prop :=
  ∀ sessionId, ledgers.Ended answer.1 sessionId answer.2.lastSeq →
    ∃ entry ∈ answer.2.events, ∃ envelope, entry.shown = some envelope ∧
      envelope.event.settled = some sessionId

/-! ## What a journal holds comes from the ledgers -/

def Ledgers.Covers (ledgers : Ledgers) (roomId : String) (held : HeldRoom) : Prop :=
  ∀ entry ∈ held.events, entry ∈ ledgers.rows roomId ∧ entry.roomSeq ≤ held.lastSeq

/-- Everything that a journal and its records hold comes from the ledgers. -/
structure Drawn (ledgers : Ledgers) (journal : LocalJournal) : Prop where
  stored : ∀ roomId record, journal.storage.get roomId = some record →
    ∀ entry ∈ record.events, entry ∈ ledgers.rows roomId
  held : ∀ roomId, ledgers.Covers roomId (heldRoom journal.memory.fallback roomId)

section Drawn

variable {ledgers : Ledgers} {journal : LocalJournal} {memory : JournalMemory} {roomId : String}
  {entry : RoomEntry} {events : List RoomEntry}

theorem covers_empty (ledgers : Ledgers) (roomId : String) : ledgers.Covers roomId ⟨[], 0⟩ := by
  rintro entry ⟨⟩

theorem le_lastPosition (hincreasing : increasing events = true) (hentry : entry ∈ events) :
    entry.roomSeq ≤ lastPosition events := by
  induction events generalizing entry with
  | nil => cases hentry
  | cons first rest ih =>
    cases rest with
    | nil =>
      rw [List.mem_singleton.mp hentry]
      exact Nat.le_refl _
    | cons second rest =>
      have hpair : first.roomSeq < second.roomSeq ∧ increasing (second :: rest) = true := by
        have hboth : (decide (first.roomSeq < second.roomSeq) && increasing (second :: rest)) = true :=
          hincreasing
        rw [Bool.and_eq_true, decide_eq_true_eq] at hboth
        exact hboth
      have hlast : lastPosition (first :: second :: rest) = lastPosition (second :: rest) := rfl
      rw [hlast]
      rcases List.mem_cons.mp hentry with rfl | hlater
      · exact (Nat.le_of_lt hpair.1).trans (ih hpair.2 List.mem_cons_self)
      · exact ih hpair.2 hlater

theorem Drawn.storedRoom (h : Drawn ledgers journal) (roomId : String) :
    ledgers.Covers roomId (storedRoom journal.storage roomId) := by
  unfold Web.storedRoom
  cases hrecord : journal.storage.get roomId with
  | none => exact covers_empty ledgers roomId
  | some record =>
    dsimp only
    split
    swap
    · exact covers_empty ledgers roomId
    next haccepted =>
    unfold HeldRoom.accepted at haccepted
    rw [Bool.and_eq_true, Bool.and_eq_true, beq_iff_eq] at haccepted
    obtain ⟨⟨hincreasing, hcursor⟩, -⟩ := haccepted
    intro entry hentry
    refine ⟨h.stored roomId record hrecord entry hentry, ?_⟩
    rw [hcursor]
    exact le_lastPosition hincreasing hentry

theorem covers_commit (h : ∀ other, ledgers.Covers other (heldRoom memory.fallback other))
    {cursor : Nat} (hentry : entry ∈ ledgers.rows roomId) (hcursor : entry.roomSeq ≤ cursor)
    (other : String) :
    ledgers.Covers other (heldRoom (memory.commit roomId entry cursor).fallback other) := by
  unfold JournalMemory.commit
  rw [heldRoom_commit]
  by_cases heq : other = roomId
  · rw [if_pos heq, heq]
    intro old hold
    rcases List.mem_append.mp hold with hheld | hnew
    · obtain ⟨hrow, hbelow⟩ := h roomId old hheld
      exact ⟨hrow, hbelow.trans (Nat.le_max_left _ _)⟩
    · rw [List.mem_singleton.mp hnew]
      exact ⟨hentry, hcursor.trans (Nat.le_max_right _ _)⟩
  · rw [if_neg heq]
    exact h other

theorem covers_degrade (h : ∀ other, ledgers.Covers other (heldRoom memory.fallback other))
    (hevents : ∀ event ∈ events, event ∈ ledgers.rows roomId) (reason other : String) :
    ledgers.Covers other (heldRoom (memory.degrade roomId events reason).fallback other) := by
  have htaken (start : JournalMemory) (hevents : ∀ event ∈ events, event ∈ ledgers.rows roomId)
      (hstart : ∀ other, ledgers.Covers other (heldRoom start.fallback other)) (other : String) :
      ledgers.Covers other (heldRoom (events.foldl (fun memory event =>
        memory.commit roomId event event.roomSeq) start).fallback other) := by
    induction events generalizing start with
    | nil => exact hstart other
    | cons event events ih =>
      have hcommitted := covers_commit hstart (hevents event List.mem_cons_self) (Nat.le_refl _)
      exact ih (fun later hlater => hevents later (List.mem_cons_of_mem _ hlater)) _
        (fun later hlater => hevents later (List.mem_cons_of_mem _ hlater)) hcommitted
  unfold JournalMemory.degrade
  split
  · exact h other
  · exact htaken { memory with degraded := memory.degraded ++ [roomId] } hevents h other

theorem covers_load (h : ∀ other, ledgers.Covers other (heldRoom memory.fallback other))
    (roomId other : String) :
    ledgers.Covers other (heldRoom (memory.load roomId).2.fallback other) := by
  rw [heldRoom_load]
  exact h other

theorem covers_degradeHeld (h : ∀ other, ledgers.Covers other (heldRoom memory.fallback other))
    (roomId reason other : String) :
    ledgers.Covers other (heldRoom (memory.degradeHeld roomId reason).fallback other) := by
  have hheld : ∀ event ∈ (memory.load roomId).1.events, event ∈ ledgers.rows roomId := by
    rw [load_fst]
    exact fun event hevent => (h roomId event hevent).1
  exact covers_degrade (covers_load h roomId) hheld reason other

/-- Whatever the browser does, what is loaded comes from the ledger, and so does what is held then. -/
theorem Drawn.readDurable (h : Drawn ledgers journal) (browser : Browser) (roomId : String) :
    (∀ held, (journal.readDurable browser roomId).1 = some held → ledgers.Covers roomId held) ∧
      Drawn ledgers (journal.readDurable browser roomId).2 := by
  have hgiven (reason : String) :
      ledgers.Covers roomId (journal.loadDegraded roomId reason).1 ∧
        Drawn ledgers (journal.loadDegraded roomId reason).2 := by
    have hcovers := covers_degradeHeld h.held roomId reason
    refine ⟨?_, h.stored, covers_load hcovers roomId⟩
    have hloaded : (journal.loadDegraded roomId reason).1 =
      heldRoom (journal.memory.degradeHeld roomId reason).fallback roomId := load_fst _ roomId
    rw [hloaded]
    exact hcovers roomId
  unfold LocalJournal.readDurable
  cases browser.readAccess.storage with
  | none =>
    refine ⟨?_, h⟩
    rintro held ⟨⟩
  | some store =>
    cases store with
    | missing reason =>
      refine ⟨?_, (hgiven reason).2⟩
      rintro held ⟨⟩
      exact (hgiven reason).1
    | available =>
      dsimp only
      cases browser.getItem with
      | none =>
        refine ⟨?_, h⟩
        rintro held ⟨⟩
        exact h.storedRoom roomId
      | some error =>
        dsimp only
        cases describeStorageError error with
        | none =>
          refine ⟨?_, h.stored, covers_load h.held roomId⟩
          rintro held ⟨⟩
        | some reason =>
          refine ⟨?_, (hgiven reason).2⟩
          rintro held ⟨⟩
          exact (hgiven reason).1

theorem Drawn.load (h : Drawn ledgers journal) (browser : Browser) (roomId : String) :
    (∀ held, (journal.load browser roomId).1 = some held → ledgers.Covers roomId held) ∧
      Drawn ledgers (journal.load browser roomId).2 := by
  unfold LocalJournal.load
  split
  · refine ⟨?_, h.stored, covers_load h.held roomId⟩
    rintro held ⟨⟩
    have hloaded : (journal.memory.load roomId).1 = heldRoom journal.memory.fallback roomId :=
      load_fst _ roomId
    show ledgers.Covers roomId (journal.memory.load roomId).1
    rw [hloaded]
    exact h.held roomId
  · exact h.readDurable browser roomId

theorem Drawn.commit (h : Drawn ledgers journal) (browser : Browser) (maxEvents : Option Nat)
    (hentry : entry ∈ ledgers.rows entry.roomId) :
    Drawn ledgers (journal.commit browser maxEvents entry.roomId entry entry.roomSeq).2 := by
  unfold LocalJournal.commit
  cases browser.access.storage with
  | none => exact h
  | some store =>
    cases store with
    | missing reason =>
      exact ⟨h.stored, covers_commit (covers_degradeHeld h.held entry.roomId reason) hentry
        (Nat.le_refl _)⟩
    | available =>
      dsimp only
      split
      · exact ⟨h.stored, covers_commit h.held hentry (Nat.le_refl _)⟩
      have hread := h.readDurable browser entry.roomId
      generalize journal.readDurable browser entry.roomId = answered at hread
      obtain ⟨answer, read⟩ := answered
      cases answer with
      | none => exact hread.2
      | some current =>
        have hcurrent := hread.1 current rfl
        have hdrawn : Drawn ledgers read := hread.2
        dsimp only
        split
        · exact ⟨hdrawn.stored, covers_commit hdrawn.held hentry (Nat.le_refl _)⟩
        have hwhole : ∀ event ∈ current.events ++ [entry], event ∈ ledgers.rows entry.roomId := by
          intro event hevent
          rcases List.mem_append.mp hevent with hold | hnew
          · exact (hcurrent event hold).1
          · rw [List.mem_singleton.mp hnew]
            exact hentry
        cases hwrite : browser.persist (trim maxEvents (current.events ++ [entry])) with
        | error error =>
          dsimp only
          cases describeStorageError error with
          | none => exact hdrawn
          | some reason => exact ⟨hdrawn.stored, covers_degrade hdrawn.held hwhole reason⟩
        | ok kept =>
          obtain ⟨front, later, hevents, rfl⟩ := tried_suffix (persist_ok hwrite).1
            (trim_suffix maxEvents current.events entry)
          refine ⟨?_, hdrawn.held⟩
          intro other record hrecord
          dsimp only at hrecord
          rw [Js.Map.get_set] at hrecord
          split at hrecord
          · next heq =>
            cases hrecord
            intro event hevent
            rw [heq]
            refine hwhole event ?_
            rw [hevents, List.append_assoc]
            exact List.mem_append_right front hevent
          · exact hdrawn.stored other record hrecord

theorem Drawn.reset (h : Drawn ledgers journal) (browser : Browser) (roomId : String) :
    Drawn ledgers (journal.reset browser roomId).2 := by
  have hforgotten (other : String) :
      ledgers.Covers other (heldRoom (journal.memory.reset roomId).fallback other) := by
    have hheld : heldRoom (journal.memory.reset roomId).fallback other =
        if other = roomId then ⟨[], 0⟩ else heldRoom journal.memory.fallback other :=
      heldRoom_reset journal.memory.fallback roomId other
    rw [hheld]
    split
    · exact covers_empty ledgers other
    · exact h.held other
  unfold LocalJournal.reset
  dsimp only
  cases browser.access.storage with
  | none => exact ⟨h.stored, hforgotten⟩
  | some store =>
    cases store with
    | missing reason => exact ⟨h.stored, hforgotten⟩
    | available =>
      dsimp only
      cases browser.removeItem with
      | none =>
        refine ⟨?_, hforgotten⟩
        intro other record hrecord
        dsimp only at hrecord
        rw [Js.Map.get_delete] at hrecord
        split at hrecord
        · cases hrecord
        · exact h.stored other record hrecord
      | some _ =>
        dsimp only
        cases browser.setItem [] with
        | none =>
          refine ⟨?_, hforgotten⟩
          intro other record hrecord
          dsimp only at hrecord
          rw [Js.Map.get_set] at hrecord
          split at hrecord
          · cases hrecord
            rintro entry ⟨⟩
          · exact h.stored other record hrecord
        | some error =>
          dsimp only
          cases describeStorageError error with
          | none => exact ⟨h.stored, hforgotten⟩
          | some reason =>
            refine ⟨h.stored, covers_degrade hforgotten ?_ reason⟩
            rintro event ⟨⟩

end Drawn

/-! ## The wall -/

/-- If every room was loaded with an end of each session that had ended, the wall of every open room is
what has ended, and the journal holds rows of the ledgers. -/
structure Walled (ledgers : Ledgers) (client : Client CalledJournal) : Prop where
  drawn : Drawn ledgers client.store.journal
  wall : (∀ answer ∈ client.store.answers, ledgers.Retained answer) →
    ∀ roomId room, client.rooms.get roomId = some room → ∀ sessionId,
      sessionId ∈ room.settledSessions ↔ ledgers.Ended roomId sessionId room.lastSeq

/-- A frame that discards a history finds no wall. -/
def Client.Unwalled (options : ClientOptions CalledJournal) (client : Client CalledJournal)
    (taken : Client.Step) : Prop :=
  ∀ roomId, taken.Discards roomId (client.view options roomId).1.lastSeq →
    (client.view options roomId).1.settledSessions = []

section Wall

variable {ledgers : Ledgers} {options : ClientOptions CalledJournal} {browsers : Nat → Browser}
  {maxEvents : Option Nat} {begun client next : Client CalledJournal} {taken : Client.Step}
  {roomId sessionId : String}

theorem mem_addToSet {set : List String} {element other : String} :
    other ∈ addToSet set element ↔ other ∈ set ∨ other = element := by
  unfold addToSet
  split
  next h =>
    constructor
    · exact Or.inl
    · rintro (hother | rfl)
      · exact hother
      · exact h
  · rw [List.mem_append, List.mem_singleton]

theorem mem_foldl_addToSet {elements set : List String} {other : String} :
    other ∈ elements.foldl addToSet set ↔ other ∈ set ∨ other ∈ elements := by
  induction elements generalizing set with
  | nil => simp
  | cons element elements ih =>
    rw [List.foldl_cons, ih, mem_addToSet, List.mem_cons]
    exact or_assoc

theorem mem_resumed {held : HeldRoom} :
    sessionId ∈ (resumedRoom roomId held).settledSessions ↔
      ∃ entry ∈ held.events, ∃ envelope, entry.shown = some envelope ∧
        envelope.event.settled = some sessionId := by
  unfold resumedRoom
  dsimp only
  rw [mem_foldl_addToSet]
  simp only [List.not_mem_nil, false_or, List.mem_filterMap]
  constructor
  · rintro ⟨envelope, ⟨entry, hentry, hshown⟩, hsettled⟩
    exact ⟨entry, hentry, envelope, hshown, hsettled⟩
  · rintro ⟨entry, hentry, envelope, hshown, hsettled⟩
    exact ⟨envelope, ⟨entry, hentry, hshown⟩, hsettled⟩

/-- The wall of a room after the entry in the next place. -/
theorem mem_applied {userId : String} {entry : RoomEntry} {room : RoomView} :
    sessionId ∈ (applyNext userId entry room).settledSessions ↔
      sessionId ∈ room.settledSessions ∨ ∃ envelope, entry.shown = some envelope ∧
        envelope.event.settled = some sessionId := by
  cases entry with
  | tombstone row =>
    refine ⟨Or.inl, ?_⟩
    rintro (h | ⟨envelope, ⟨⟩, -⟩)
    exact h
  | event envelope =>
    have hshown : (RoomEntry.event envelope).shown =
      if envelope.issues = [] then some envelope else none := rfl
    show sessionId ∈ (applyEvent userId envelope room).settledSessions ↔ _
    rw [hshown]
    unfold applyEvent
    dsimp only
    by_cases hissues : envelope.issues = []
    · rw [if_neg (not_not.mpr hissues), if_pos hissues]
      cases hsettled : envelope.event.settled with
      | none =>
        refine ⟨Or.inl, ?_⟩
        rintro (h | ⟨other, ⟨⟩, hother⟩)
        · exact h
        · rw [hsettled] at hother
          cases hother
      | some ended =>
        show sessionId ∈ addToSet room.settledSessions ended ↔ _
        rw [mem_addToSet]
        refine or_congr_right ⟨?_, ?_⟩
        · rintro rfl
          exact ⟨envelope, rfl, hsettled⟩
        · rintro ⟨other, ⟨⟩, hother⟩
          rw [hsettled] at hother
          exact (Option.some.inj hother).symm
    · rw [if_pos hissues, if_neg hissues]
      refine ⟨Or.inl, ?_⟩
      rintro (h | ⟨other, ⟨⟩, -⟩)
      exact h

theorem ended_succ {entry : RoomEntry} {cursor : Nat} (hentry : ledgers.Holds entry)
    (hposition : entry.roomSeq = cursor + 1) :
    ledgers.Ended entry.roomId sessionId (cursor + 1) ↔
      ledgers.Ended entry.roomId sessionId cursor ∨ ∃ envelope, entry.shown = some envelope ∧
        envelope.event.settled = some sessionId := by
  constructor
  · rintro ⟨other, hother, envelope, hshown, hsettled, hcursor⟩
    by_cases hbelow : other.roomSeq ≤ cursor
    · exact Or.inl ⟨other, hother, envelope, hshown, hsettled, hbelow⟩
    · -- Only one row stands at a position.
      obtain ⟨i, hi⟩ := List.getElem?_of_mem hother
      obtain ⟨j, hj⟩ := List.getElem?_of_mem hentry
      have hat := (ledgers.located _ i other hi).2
      have hplace := (ledgers.located _ j entry hj).2
      obtain rfl : i = j := by omega
      obtain rfl : other = entry := Option.some.inj (hi.symm.trans hj)
      exact Or.inr ⟨envelope, hshown, hsettled⟩
  · rintro (⟨other, hother, envelope, hshown, hsettled, hcursor⟩ | ⟨envelope, hshown, hsettled⟩)
    · exact ⟨other, hother, envelope, hshown, hsettled, Nat.le_succ_of_le hcursor⟩
    · exact ⟨entry, hentry, envelope, hshown, hsettled, Nat.le_of_eq hposition⟩

theorem not_ended_zero : ¬ ledgers.Ended roomId sessionId 0 := by
  rintro ⟨entry, hentry, envelope, hshown, hsettled, hcursor⟩
  obtain ⟨i, hi⟩ := List.getElem?_of_mem hentry
  have hat := (ledgers.located _ i entry hi).2
  omega

theorem Walled.same_rooms (h : Walled ledgers client) (hstore : next.store = client.store)
    (hrooms : ∀ roomId room, next.rooms.get roomId = some room → ∃ former,
      client.rooms.get roomId = some former ∧ room.settledSessions = former.settledSessions ∧
        room.lastSeq = former.lastSeq) : Walled ledgers next := by
  refine ⟨?_, ?_⟩
  · rw [hstore]
    exact h.drawn
  · rw [hstore]
    intro hretained roomId room hroom sessionId
    obtain ⟨former, hformer, hwall, hcursor⟩ := hrooms roomId room hroom
    rw [hwall, hcursor]
    exact h.wall hretained roomId former hformer sessionId

theorem Walled.set (h : Walled ledgers client) {room changed : RoomView}
    (hroom : client.rooms.get roomId = some room)
    (hwall : changed.settledSessions = room.settledSessions) (hcursor : changed.lastSeq = room.lastSeq) :
    Walled ledgers ({ client with rooms := client.rooms.set roomId changed } : Client CalledJournal) := by
  refine h.same_rooms rfl fun other found hfound => ?_
  dsimp only at hfound
  rw [Js.Map.get_set] at hfound
  split at hfound
  · next heq =>
    cases hfound
    rw [heq]
    exact ⟨room, hroom, hwall, hcursor⟩
  · exact ⟨found, hfound, rfl, rfl⟩

theorem walled_act (hjournal : options.journal = localStorageJournal browsers maxEvents)
    (hdrawn : ∀ entry, taken.Carries entry → ledgers.Holds entry)
    (hunwalled : begun.Unwalled options taken) (h : Walled ledgers client)
    (hact : Act options begun taken client next) : Walled ledgers next := by
  cases hact with
  | touch roomId room changed hroom hkeeps =>
    exact h.set hroom hkeeps.settledSessions hkeeps.lastSeq
  | raise roomId room snapshots progress hroom => exact h.set hroom rfl rfl
  | preview frame now room _ hroom _ _ => exact h.set hroom rfl rfl
  | pend roomId room changed _ hroom hkeeps _ =>
    exact h.set hroom hkeeps.settledSessions hkeeps.lastSeq
  | send frame _ =>
    refine h.same_rooms (rooms_send client frame).1 fun other room hroom => ?_
    rw [(rooms_send client frame).2] at hroom
    exact ⟨room, hroom, rfl, rfl⟩
  | idle next hstore hrooms _ _ _ _ _ =>
    refine h.same_rooms hstore fun other room hroom => ?_
    rw [hrooms] at hroom
    exact ⟨room, hroom, rfl, rfl⟩
  | mail next _ hstore hrooms =>
    refine h.same_rooms hstore fun other room hroom => ?_
    rw [hrooms] at hroom
    exact ⟨room, hroom, rfl, rfl⟩
  | drop _ =>
    refine h.same_rooms rfl fun other room hroom => ?_
    dsimp only at hroom
    rw [Js.Map.get_mapValues] at hroom
    obtain ⟨former, hformer, rfl⟩ := Option.map_eq_some_iff.mp hroom
    exact ⟨former, hformer, rfl, rfl⟩
  | leave roomId _ =>
    refine h.same_rooms rfl fun other room hroom => ?_
    dsimp only at hroom
    rw [Js.Map.get_delete] at hroom
    split at hroom
    · cases hroom
    · exact ⟨room, hroom, rfl, rfl⟩
  | load roomId habsent =>
    have hload := h.drawn.load (browsers client.store.calls) roomId
    rw [hjournal]
    unfold localStorageJournal
    dsimp only
    generalize client.store.journal.load (browsers client.store.calls) roomId = loaded at hload
    obtain ⟨answer, journal⟩ := loaded
    have hcovers : ledgers.Covers roomId (answer.getD ⟨[], 0⟩) := by
      cases answer with
      | none => exact covers_empty ledgers roomId
      | some held => exact hload.1 held rfl
    refine ⟨hload.2, ?_⟩
    intro hretained other room hroom sessionId
    dsimp only at hretained hroom
    have hlater : ledgers.Retained (roomId, answer.getD ⟨[], 0⟩) :=
      hretained _ (List.mem_append_right _ List.mem_cons_self)
    have hearlier : ∀ answer ∈ client.store.answers, ledgers.Retained answer :=
      fun earlier hmem => hretained earlier (List.mem_append_left _ hmem)
    rw [Js.Map.get_set] at hroom
    split at hroom
    swap
    · exact h.wall hearlier other room hroom sessionId
    next heq =>
    cases hroom
    rw [heq, mem_resumed]
    constructor
    · rintro ⟨entry, hentry, envelope, hshown, hsettled⟩
      obtain ⟨hrow, hbelow⟩ := hcovers entry hentry
      exact ⟨entry, hrow, envelope, hshown, hsettled, hbelow⟩
    · exact hlater sessionId
  | apply entry room hroom hposition happlied =>
    have hentry := hdrawn entry (applied_carries happlied)
    rw [hjournal]
    refine ⟨h.drawn.commit (browsers client.store.calls) maxEvents hentry, ?_⟩
    intro hretained other found hfound sessionId
    dsimp only at hfound
    rw [Js.Map.get_set] at hfound
    split at hfound
    swap
    · exact h.wall hretained other found hfound sessionId
    next heq =>
    cases hfound
    have hcursor : (applyNext options.userId entry room).lastSeq = room.lastSeq + 1 := by
      rw [← hposition, lastSeq_applyNext]
    rw [heq, mem_applied, hcursor, ended_succ hentry hposition,
      h.wall hretained entry.roomId room hroom sessionId]
  | discard roomId room hroom hpast hbegun =>
    have hcursor : room.lastSeq = (begun.view options roomId).1.lastSeq := by rw [hbegun]
    rw [hcursor] at hpast
    have hempty : room.settledSessions = [] := by
      rw [hbegun]
      exact hunwalled roomId hpast
    rw [hjournal]
    refine ⟨h.drawn.reset (browsers client.store.calls) roomId, ?_⟩
    intro hretained other found hfound sessionId
    dsimp only at hfound
    rw [Js.Map.get_set] at hfound
    split at hfound
    swap
    · exact h.wall hretained other found hfound sessionId
    next heq =>
    cases hfound
    dsimp only
    rw [hempty]
    exact iff_of_false List.not_mem_nil not_ended_zero

theorem walled_step (hjournal : options.journal = localStorageJournal browsers maxEvents)
    (hdrawn : ∀ entry, taken.Carries entry → ledgers.Holds entry)
    (hunwalled : client.Unwalled options taken) (h : Walled ledgers client) :
    Walled ledgers (client.step options taken) := by
  have hacts : Acts options client taken client (client.step options taken) := acts_step client taken
  generalize client.step options taken = last at hacts ⊢
  induction hacts with
  | refl => exact h
  | tail _ hact ih => exact walled_act hjournal hdrawn hunwalled ih hact

end Wall

/-! ## The floors -/

def Floored (floors : Js.Map String Nat) (sessionId : String) (progressSeq : Nat) : Prop :=
  ∃ floor, floors.get sessionId = some floor ∧ progressSeq ≤ floor

def SameStream (earlier later : ProgressFrame) : Prop :=
  earlier.roomId = later.roomId ∧ earlier.sessionId = later.sessionId

section Floors

variable {σ : Type} {options : ClientOptions σ} {begun client next : Client σ} {taken : Client.Step}
  {floors : Js.Map String Nat} {sessionId roomId : String} {progressSeq : Nat} {frame : ProgressFrame}
  {room : RoomView}

theorem property_of_get {α : Type} {object : Js.Map String α} {key : String} {value : α}
    (h : object.get key = some value) : property object key = .own value := by
  unfold property
  rw [h]

/-- No snapshot lowers a floor. -/
theorem floored_raiseFloor {progress : Js.Map String ProgressFrame} {raised : Bool}
    (h : Floored floors sessionId progressSeq) (snapshot : String × Nat) :
    Floored (raiseFloor (floors, progress, raised) snapshot).1 sessionId progressSeq := by
  obtain ⟨floor, hfloor, hpast⟩ := h
  obtain ⟨snapshotId, snapshotSeq⟩ := snapshot
  have hassigned (hraises : sessionId = snapshotId → floor < snapshotSeq) :
      Floored (assign floors snapshotId snapshotSeq) sessionId progressSeq := by
    unfold assign
    split
    · exact ⟨floor, hfloor, hpast⟩
    by_cases heq : sessionId = snapshotId
    · exact ⟨snapshotSeq, by rw [Js.Map.get_set, if_pos heq], hpast.trans (Nat.le_of_lt (hraises heq))⟩
    · exact ⟨floor, by rw [Js.Map.get_set, if_neg heq, hfloor], hpast⟩
  unfold raiseFloor
  dsimp only
  by_cases heq : sessionId = snapshotId
  · rw [property_of_get (heq ▸ hfloor)]
    dsimp only
    split
    · next hraises => exact hassigned fun _ => of_decide_eq_true hraises
    · exact ⟨floor, hfloor, hpast⟩
  · have hother := hassigned fun hsame => absurd hsame heq
    cases property floors snapshotId with
    | absent => exact hother
    | inherited => exact ⟨floor, hfloor, hpast⟩
    | own prior =>
      dsimp only
      split
      · exact hother
      · exact ⟨floor, hfloor, hpast⟩

theorem floored_raiseFloors {progress : Js.Map String ProgressFrame} {raised : Bool}
    (h : Floored floors sessionId progressSeq) (snapshots : List (String × Nat)) :
    Floored (snapshots.foldl raiseFloor (floors, progress, raised)).1 sessionId progressSeq := by
  induction snapshots generalizing floors progress raised with
  | nil => exact h
  | cons snapshot snapshots ih =>
    have hraised : Floored (raiseFloor (floors, progress, raised) snapshot).1 sessionId progressSeq :=
      floored_raiseFloor h snapshot
    rw [List.foldl_cons]
    generalize raiseFloor (floors, progress, raised) snapshot = state at hraised
    obtain ⟨floors, progress, raised⟩ := state
    exact ih hraised

theorem lt_of_not_stale (hstale : staleProgress floors frame = false)
    (h : Floored floors frame.sessionId progressSeq) : progressSeq < frame.progressSeq := by
  obtain ⟨floor, hfloor, hpast⟩ := h
  unfold staleProgress at hstale
  rw [property_of_get hfloor] at hstale
  have hlt : ¬ frame.progressSeq ≤ floor := by simpa using hstale
  omega

theorem floored_preview (hstale : staleProgress floors frame = false)
    (h : Floored floors sessionId progressSeq) :
    Floored (floors.set frame.sessionId frame.progressSeq) sessionId progressSeq := by
  by_cases heq : sessionId = frame.sessionId
  · rw [heq] at h
    exact ⟨frame.progressSeq, by rw [Js.Map.get_set, if_pos heq],
      Nat.le_of_lt (lt_of_not_stale hstale h)⟩
  · obtain ⟨floor, hfloor, hpast⟩ := h
    exact ⟨floor, by rw [Js.Map.get_set, if_neg heq, hfloor], hpast⟩

def Client.Floors (client : Client σ) (roomId sessionId : String) (progressSeq : Nat) : Prop :=
  ∃ room, client.rooms.get roomId = some room ∧ Floored room.progressFloor sessionId progressSeq

theorem Client.Floors.set (h : client.Floors roomId sessionId progressSeq) {other : String}
    {changed : RoomView} (store : σ) (hroom : client.rooms.get other = some room)
    (hfloors : Floored room.progressFloor sessionId progressSeq →
      Floored changed.progressFloor sessionId progressSeq) :
    ({ client with store, rooms := client.rooms.set other changed } : Client σ).Floors roomId sessionId
      progressSeq := by
  obtain ⟨found, hfound, hfloor⟩ := h
  by_cases heq : roomId = other
  · rw [heq, hroom] at hfound
    cases hfound
    exact ⟨changed, by rw [Js.Map.get_set, if_pos heq], hfloors hfloor⟩
  · exact ⟨found, by rw [Js.Map.get_set, if_neg heq, hfound], hfloor⟩

/-- As long as a room is not left, its floors stay or rise. -/
theorem floors_act (hleft : taken ≠ .leave roomId) (hact : Act options begun taken client next)
    (h : client.Floors roomId sessionId progressSeq) :
    next.Floors roomId sessionId progressSeq := by
  cases hact with
  | load other habsent =>
    obtain ⟨room, hroom, hfloor⟩ := h
    have hne : roomId ≠ other := by
      rintro rfl
      rw [habsent] at hroom
      cases hroom
    exact ⟨room, by rw [Js.Map.get_set, if_neg hne, hroom], hfloor⟩
  | touch other room changed hroom hkeeps =>
    refine h.set client.store hroom ?_
    rw [hkeeps.progressFloor]
    exact id
  | raise other room snapshots progress hroom =>
    exact h.set client.store hroom fun hfloor => floored_raiseFloors hfloor snapshots
  | preview frame now room _ hroom _ hstale =>
    exact h.set client.store hroom (floored_preview hstale)
  | apply entry room hroom _ _ =>
    refine h.set _ hroom ?_
    have hfloors : (applyNext options.userId entry room).progressFloor = room.progressFloor := by
      cases entry with
      | tombstone row => rfl
      | event envelope =>
        show (applyEvent options.userId envelope room).progressFloor = room.progressFloor
        unfold applyEvent
        dsimp only
        split
        · rfl
        · split
          · rfl
          · rfl
    rw [hfloors]
    exact id
  | discard other room hroom _ _ => exact h.set _ hroom id
  | leave other hleave =>
    obtain ⟨room, hroom, hfloor⟩ := h
    have hne : roomId ≠ other := by
      rintro rfl
      exact hleft hleave
    exact ⟨room, by rw [Js.Map.get_delete, if_neg hne, hroom], hfloor⟩
  | send frame _ =>
    obtain ⟨room, hroom, hfloor⟩ := h
    exact ⟨room, by rw [(rooms_send client frame).2, hroom], hfloor⟩
  | idle next _ hrooms _ _ _ _ _ =>
    obtain ⟨room, hroom, hfloor⟩ := h
    exact ⟨room, by rw [hrooms, hroom], hfloor⟩
  | pend other room changed _ hroom hkeeps _ =>
    refine h.set client.store hroom ?_
    rw [hkeeps.progressFloor]
    exact id
  | mail next _ _ hrooms =>
    obtain ⟨room, hroom, hfloor⟩ := h
    exact ⟨room, by rw [hrooms, hroom], hfloor⟩
  | drop _ =>
    obtain ⟨room, hroom, hfloor⟩ := h
    exact ⟨dropRoom room, by rw [Js.Map.get_mapValues, hroom]; rfl, hfloor⟩

theorem floors_step (hleft : taken ≠ .leave roomId) (h : client.Floors roomId sessionId progressSeq) :
    (client.step options taken).Floors roomId sessionId progressSeq := by
  have hacts : Acts options client taken client (client.step options taken) := acts_step client taken
  generalize client.step options taken = last at hacts ⊢
  induction hacts with
  | refl => exact h
  | tail _ hact ih => exact floors_act hleft hact ih

theorem previewed_eq_some (h : client.previewed options taken = some frame) :
    (∃ now, taken = .frame (.progress frame) now) ∧
      frame.sessionId ∉ (client.view options frame.roomId).1.settledSessions ∧
      staleProgress (client.view options frame.roomId).1.progressFloor frame = false := by
  unfold Client.previewed at h
  split at h
  swap
  · cases h
  next offered now =>
  dsimp only at h
  split at h
  · cases h
  next hwall =>
  split at h
  · cases h
  next hfloor =>
  cases h
  exact ⟨⟨now, rfl⟩, hwall, Bool.eq_false_iff.mpr hfloor⟩

theorem previewed_stores (h : client.previewed options taken = some frame) :
    ∃ room, (client.step options taken).rooms.get frame.roomId = some room ∧
      room.progress.get frame.sessionId = some frame ∧
      room.progressFloor.get frame.sessionId = some frame.progressSeq := by
  obtain ⟨⟨now, rfl⟩, hwall, hfloor⟩ := previewed_eq_some h
  have hstep : client.step options (.frame (.progress frame) now) =
    client.handleProgress options frame := rfl
  have hroom : (client.view options frame.roomId).2.rooms.get frame.roomId =
    some (client.view options frame.roomId).1 := get_view client frame.roomId
  rw [hstep]
  unfold Client.handleProgress
  generalize client.view options frame.roomId = viewed at hwall hfloor hroom
  obtain ⟨room, opened⟩ := viewed
  dsimp only at hwall hfloor hroom ⊢
  rw [if_neg hwall, hfloor, if_neg Bool.false_ne_true, modifyRoom_of_get hroom]
  have hopen := get_set_self opened.rooms frame.roomId { room with
    progress := room.progress.set frame.sessionId frame
    progressFloor := room.progressFloor.set frame.sessionId frame.progressSeq }
  unfold Client.changed
  rw [view_of_get hopen]
  exact ⟨_, hopen, (Js.Map.get_set _ _ _ _).trans (if_pos rfl),
    (Js.Map.get_set _ _ _ _).trans (if_pos rfl)⟩

/-- What a client shows of a running session. -/
def Client.Shows (client : Client σ) (roomId sessionId : String) (frame : ProgressFrame) : Prop :=
  ∃ room, client.rooms.get roomId = some room ∧ room.progress.get sessionId = some frame

/-- The client does nothing with a progress frame but open its room. -/
def Client.Refuses (options : ClientOptions σ) (client : Client σ) (frame : ProgressFrame) : Prop :=
  ∀ now, (client.step options (.frame (.progress frame) now)).rooms =
    (client.view options frame.roomId).2.rooms

theorem Client.Shows.of_set (h : next.Shows roomId sessionId frame) {other : String}
    {changed : RoomView} (hrooms : next.rooms = client.rooms.set other changed)
    (hchanged : changed.progress.get sessionId = some frame → client.Shows other sessionId frame) :
    client.Shows roomId sessionId frame := by
  obtain ⟨found, hfound, hshown⟩ := h
  rw [hrooms, Js.Map.get_set] at hfound
  split at hfound
  · next heq =>
    cases hfound
    rw [heq]
    exact hchanged hshown
  · exact ⟨found, hfound, hshown⟩

theorem Client.Shows.same (h : next.Shows roomId sessionId frame) (hrooms : next.rooms = client.rooms) :
    client.Shows roomId sessionId frame := by
  obtain ⟨found, hfound, hshown⟩ := h
  exact ⟨found, hrooms ▸ hfound, hshown⟩

theorem progress_applyNext {userId : String} {entry : RoomEntry}
    (h : (applyNext userId entry room).progress.get sessionId = some frame) :
    room.progress.get sessionId = some frame := by
  cases entry with
  | tombstone row => exact h
  | event envelope =>
    have happlied : (applyEvent userId envelope room).progress.get sessionId = some frame := h
    unfold applyEvent at happlied
    dsimp only at happlied
    split at happlied
    · exact happlied
    · split at happlied
      · unfold settleSession at happlied
        dsimp only at happlied
        rw [Js.Map.get_delete] at happlied
        split at happlied
        · cases happlied
        · exact happlied
      · exact happlied

/-- Only a progress frame adds what is shown. -/
theorem shows_act (hact : Act options begun taken client next)
    (h : next.Shows roomId sessionId frame) : client.Shows roomId sessionId frame ∨
      (∃ now, taken = .frame (.progress frame) now) ∧ frame.roomId = roomId ∧
        frame.sessionId = sessionId := by
  cases hact with
  | load other habsent =>
    refine .inl (h.of_set rfl fun hshown => ?_)
    have hnone : (none : Option ProgressFrame) = some frame := hshown
    cases hnone
  | touch other room changed hroom hkeeps =>
    exact .inl (h.of_set rfl fun hshown => ⟨room, hroom, hkeeps.progress _ _ hshown⟩)
  | raise other room snapshots progress hroom =>
    exact .inl (h.of_set rfl fun hshown => ⟨room, hroom, hshown⟩)
  | preview offered now room htaken hroom _ _ =>
    by_cases hframe : offered = frame ∧ offered.roomId = roomId ∧ offered.sessionId = sessionId
    · obtain ⟨rfl, hroomId, hsessionId⟩ := hframe
      exact .inr ⟨⟨now, htaken⟩, hroomId, hsessionId⟩
    · obtain ⟨found, hfound, hshown⟩ := h
      dsimp only at hfound
      rw [Js.Map.get_set] at hfound
      split at hfound
      · next heq =>
        cases hfound
        dsimp only at hshown
        rw [Js.Map.get_set] at hshown
        split at hshown
        · next hsame => exact absurd ⟨Option.some.inj hshown, heq.symm, hsame.symm⟩ hframe
        · exact .inl ⟨room, heq ▸ hroom, hshown⟩
      · exact .inl ⟨found, hfound, hshown⟩
  | apply entry room hroom _ _ =>
    exact .inl (h.of_set rfl fun hshown => ⟨room, hroom, progress_applyNext hshown⟩)
  | discard other room hroom _ _ =>
    exact .inl (h.of_set rfl fun hshown => ⟨room, hroom, hshown⟩)
  | leave other _ =>
    obtain ⟨found, hfound, hshown⟩ := h
    dsimp only at hfound
    rw [Js.Map.get_delete] at hfound
    split at hfound
    · cases hfound
    · exact .inl ⟨found, hfound, hshown⟩
  | send sent _ => exact .inl (h.same (rooms_send client sent).2)
  | idle next _ hrooms _ _ _ _ _ => exact .inl (h.same hrooms)
  | pend other room changed _ hroom hkeeps _ =>
    exact .inl (h.of_set rfl fun hshown => ⟨room, hroom, hkeeps.progress _ _ hshown⟩)
  | mail next _ _ hrooms => exact .inl (h.same hrooms)
  | drop _ =>
    obtain ⟨found, hfound, hshown⟩ := h
    dsimp only at hfound
    rw [Js.Map.get_mapValues] at hfound
    obtain ⟨former, -, rfl⟩ := Option.map_eq_some_iff.mp hfound
    have hnone : (none : Option ProgressFrame) = some frame := hshown
    cases hnone

theorem shows_acts (hacts : Acts options begun taken client next)
    (h : next.Shows roomId sessionId frame) : client.Shows roomId sessionId frame ∨
      (∃ now, taken = .frame (.progress frame) now) ∧ frame.roomId = roomId ∧
        frame.sessionId = sessionId := by
  induction hacts with
  | refl => exact .inl h
  | tail _ hact ih => exact (shows_act hact h).elim ih .inr

theorem refuses_of_walled (h : frame.sessionId ∈ (client.view options frame.roomId).1.settledSessions) :
    client.Refuses options frame := by
  intro now
  have hstep : client.step options (.frame (.progress frame) now) =
    client.handleProgress options frame := rfl
  rw [hstep, Client.handleProgress]
  exact congrArg Client.rooms (if_pos h)

/-- What the floor lets through is refused by the wall, or stored. -/
theorem refuses_iff (hstale : staleProgress (client.view options frame.roomId).1.progressFloor frame =
    false) : client.Refuses options frame ↔
      frame.sessionId ∈ (client.view options frame.roomId).1.settledSessions := by
  refine ⟨fun hrefuses => by_contra fun hwall => ?_, refuses_of_walled⟩
  have hpreviewed : client.previewed options (.frame (.progress frame) 0) = some frame := by
    rw [Client.previewed, if_neg hwall, hstale, if_neg Bool.false_ne_true]
  obtain ⟨room, hroom, -, hfloor⟩ := previewed_stores hpreviewed
  rw [hrefuses 0, get_view] at hroom
  cases hroom
  have hlt := lt_of_not_stale hstale ⟨_, hfloor, Nat.le_refl _⟩
  exact Nat.lt_irrefl _ hlt

/-- A progress frame that is not stored adds nothing to what is shown. -/
theorem shows_step (h : (client.step options taken).Shows roomId sessionId frame) :
    client.Shows roomId sessionId frame ∨ client.previewed options taken = some frame ∧
      frame.roomId = roomId ∧ frame.sessionId = sessionId := by
  rcases shows_acts (acts_step client taken) h with hbefore | ⟨⟨now, rfl⟩, hroomId, hsessionId⟩
  · exact .inl hbefore
  by_cases hpreviewed : client.previewed options (.frame (.progress frame) now) = some frame
  · exact .inr ⟨hpreviewed, hroomId, hsessionId⟩
  have hrooms : (client.step options (.frame (.progress frame) now)).rooms =
      (client.view options frame.roomId).2.rooms := by
    have hstep : client.step options (.frame (.progress frame) now) =
      client.handleProgress options frame := rfl
    rw [hstep, Client.handleProgress]
    unfold Client.previewed at hpreviewed
    dsimp only at hpreviewed
    split at hpreviewed
    · next hwall => exact congrArg Client.rooms (if_pos hwall)
    · next hwall =>
      split at hpreviewed
      · next hfloor => exact congrArg Client.rooms ((if_neg hwall).trans (if_pos hfloor))
      · exact absurd rfl hpreviewed
  have hviewed : (client.view options frame.roomId).2.Shows roomId sessionId frame := h.same hrooms
  -- Opening a room is a step that carries no progress.
  have hacts : Acts options client (.leave roomId) client (client.view options frame.roomId).2 :=
    acts_view client frame.roomId
  rcases shows_acts hacts hviewed with hbefore | ⟨⟨_, hleave⟩, -⟩
  · exact .inl hbefore
  · cases hleave

end Floors

/-! ## Pages -/

/-- A preview that a room stored since it was opened stands at or below its floor. -/
def Page.Floored (page : Page) : Prop :=
  ∀ frame ∈ page.current, page.client.Floors frame.roomId frame.sessionId frame.progressSeq

/-- What a step of a page may do: apply rows of the ledgers, discard a history without a wall, and store
previews past those of the same session that were stored before their room was closed. -/
def Page.Allows (ledgers : Ledgers) (options : ClientOptions CalledJournal) (page : Page) :
    PageStep → Prop
  | .client taken => (∀ entry, taken.Carries entry → ledgers.Holds entry) ∧
      page.client.Unwalled options taken ∧
      ∀ frame, page.client.previewed options taken = some frame → ∀ earlier ∈ page.former,
        SameStream earlier frame → earlier.progressSeq < frame.progressSeq
  | .reload => True

/-- Every step of a run is allowed where it is taken. -/
def Page.AllowsRun (ledgers : Ledgers) (options : ClientOptions CalledJournal) :
    Page → List PageStep → Prop
  | _, [] => True
  | page, taken :: steps =>
    page.Allows ledgers options taken ∧ AllowsRun ledgers options (page.step options taken) steps

section Pages

variable {ledgers : Ledgers} {options : ClientOptions CalledJournal} {browsers : Nat → Browser}
  {maxEvents : Option Nat} {page : Page} {taken : PageStep} {frame : ProgressFrame}

theorem drawn_initial (ledgers : Ledgers) : Drawn ledgers CalledJournal.initial.journal := by
  refine ⟨?_, covers_empty ledgers⟩
  rintro roomId record ⟨⟩

theorem walled_initial (ledgers : Ledgers) : Walled ledgers Page.initial.client := by
  refine ⟨drawn_initial ledgers, ?_⟩
  rintro - roomId room ⟨⟩

theorem walled_page_step (hjournal : options.journal = localStorageJournal browsers maxEvents)
    (hallows : page.Allows ledgers options taken) (h : Walled ledgers page.client) :
    Walled ledgers (page.step options taken).client := by
  cases taken with
  | client taken => exact walled_step hjournal hallows.1 hallows.2.1 h
  | reload =>
    refine ⟨⟨h.drawn.stored, covers_empty ledgers⟩, ?_⟩
    rintro - roomId room ⟨⟩

theorem walled_page_run (hjournal : options.journal = localStorageJournal browsers maxEvents)
    {steps : List PageStep} (hallows : page.AllowsRun ledgers options steps)
    (h : Walled ledgers page.client) : Walled ledgers (page.run options steps).client := by
  induction steps generalizing page with
  | nil => exact h
  | cons taken steps ih => exact ih hallows.2 (walled_page_step hjournal hallows.1 h)

theorem mem_former_or_current (hframe : frame ∈ page.current ∨ frame ∈ page.former) :
    frame ∈ (page.step options taken).current ∨ frame ∈ (page.step options taken).former := by
  cases taken with
  | reload =>
    refine Or.inr (List.mem_append.mpr ?_)
    exact hframe.symm
  | client taken =>
    rcases hframe with hcurrent | hformer
    · cases hcloses : taken.closes frame with
      | true => exact Or.inr (List.mem_append_right _ (List.mem_filter.mpr ⟨hcurrent, hcloses⟩))
      | false =>
        refine Or.inl (List.mem_filter.mpr ⟨List.mem_append_left _ hcurrent, ?_⟩)
        rw [hcloses]
        rfl
    · exact Or.inr (List.mem_append_left _ hformer)

theorem mem_current_of_stored (hstored : frame ∈ page.stores options taken) :
    frame ∈ (page.step options taken).current := by
  cases taken with
  | reload => cases hstored
  | client taken =>
    have hpreviewed : page.client.previewed options taken = some frame := Option.mem_toList.mp hstored
    obtain ⟨⟨now, rfl⟩, -⟩ := previewed_eq_some hpreviewed
    exact List.mem_filter.mpr ⟨List.mem_append_right _ hstored, rfl⟩

theorem floored_page_step (h : page.Floored) : (page.step options taken).Floored := by
  cases taken with
  | reload =>
    rintro frame ⟨⟩
  | client taken =>
    intro frame hframe
    obtain ⟨hmem, hopen⟩ := List.mem_filter.mp hframe
    rcases List.mem_append.mp hmem with hcurrent | hstored
    · have hleft : taken ≠ .leave frame.roomId := by
        rintro rfl
        have hcloses : (Client.Step.leave frame.roomId).closes frame = true := beq_self_eq_true _
        rw [hcloses] at hopen
        cases hopen
      exact floors_step hleft (h frame hcurrent)
    · obtain ⟨room, hroom, -, hfloor⟩ := previewed_stores (Option.mem_toList.mp hstored)
      exact ⟨room, hroom, frame.progressSeq, hfloor, Nat.le_refl _⟩

theorem stored_past (hallows : page.Allows ledgers options taken) (h : page.Floored)
    (hstored : frame ∈ page.stores options taken) {earlier : ProgressFrame}
    (hearlier : earlier ∈ page.current ∨ earlier ∈ page.former) (hsame : SameStream earlier frame) :
    earlier.progressSeq < frame.progressSeq := by
  cases taken with
  | reload => cases hstored
  | client taken =>
    have hpreviewed : page.client.previewed options taken = some frame := Option.mem_toList.mp hstored
    rcases hearlier with hcurrent | hformer
    · obtain ⟨-, -, hstale⟩ := previewed_eq_some hpreviewed
      obtain ⟨room, hroom, hfloor⟩ := h earlier hcurrent
      rw [hsame.1] at hroom
      rw [hsame.2] at hfloor
      rw [view_of_get hroom] at hstale
      exact lt_of_not_stale hstale hfloor
    · exact hallows.2.2 frame hpreviewed earlier hformer hsame

theorem previews_past {steps : List PageStep} (hallows : page.AllowsRun ledgers options steps)
    (h : page.Floored) {earlier : ProgressFrame}
    (hearlier : earlier ∈ page.current ∨ earlier ∈ page.former)
    (hframe : frame ∈ page.previews options steps) (hsame : SameStream earlier frame) :
    earlier.progressSeq < frame.progressSeq := by
  induction steps generalizing page with
  | nil => cases hframe
  | cons taken steps ih =>
    rcases List.mem_append.mp hframe with hnow | hlater
    · exact stored_past hallows.1 h hnow hearlier hsame
    · exact ih hallows.2 (floored_page_step h) (mem_former_or_current hearlier) hlater

theorem previews_increase {steps : List PageStep} (hallows : page.AllowsRun ledgers options steps)
    (h : page.Floored) : (page.previews options steps).Pairwise fun earlier later =>
      SameStream earlier later → earlier.progressSeq < later.progressSeq := by
  induction steps generalizing page with
  | nil => exact List.Pairwise.nil
  | cons taken steps ih =>
    refine List.pairwise_append.mpr ⟨?_, ih hallows.2 (floored_page_step h), ?_⟩
    · -- A step stores one preview at most.
      have hone : (page.stores options taken).length ≤ 1 := by
        cases taken with
        | reload => exact Nat.zero_le 1
        | client taken => exact Option.length_toList_le
      match hstores : page.stores options taken with
      | [] => exact List.Pairwise.nil
      | [frame] => exact List.pairwise_singleton _ _
      | first :: second :: rest =>
        rw [hstores] at hone
        simp at hone
    · intro earlier hearlier later hlater hsame
      exact previews_past hallows.2 (floored_page_step h) (Or.inl (mem_current_of_stored hearlier)) hlater
        hsame

/-- A step of a page adds to what is shown exactly the preview that it stores. -/
structure Page.Stores (page : Page) (options : ClientOptions CalledJournal) (taken : PageStep) :
    Prop where
  shown : ∀ frame ∈ page.stores options taken,
    (page.step options taken).client.Shows frame.roomId frame.sessionId frame
  new : ∀ roomId sessionId frame, (page.step options taken).client.Shows roomId sessionId frame →
    page.client.Shows roomId sessionId frame ∨
      frame ∈ page.stores options taken ∧ frame.roomId = roomId ∧ frame.sessionId = sessionId

theorem page_stores (page : Page) (options : ClientOptions CalledJournal) (taken : PageStep) :
    page.Stores options taken := by
  cases taken with
  | reload =>
    refine ⟨nofun, ?_⟩
    rintro roomId sessionId frame ⟨room, ⟨⟩, -⟩
  | client taken =>
    refine ⟨fun frame hframe => ?_, fun roomId sessionId frame hshown => ?_⟩
    · obtain ⟨room, hroom, hprogress, -⟩ := previewed_stores (Option.mem_toList.mp hframe)
      exact ⟨room, hroom, hprogress⟩
    · exact (shows_step hshown).imp_right fun h => ⟨Option.mem_toList.mpr h.1, h.2⟩

theorem walled_view (hjournal : options.journal = localStorageJournal browsers maxEvents)
    {client : Client CalledJournal} (h : Walled ledgers client) (roomId : String) :
    Walled ledgers (client.view options roomId).2 := by
  have hacts : Acts options client (.leave roomId) client (client.view options roomId).2 :=
    acts_view client roomId
  generalize (client.view options roomId).2 = last at hacts ⊢
  induction hacts with
  | refl => exact h
  | tail _ hact ih =>
    refine walled_act hjournal ?_ ?_ ih hact
    · rintro entry ⟨_, _, ⟨⟩, -⟩
    · rintro other ⟨_, _, ⟨⟩, -⟩

/-- The wall of a page: what has ended at or below the cursor of a room is behind it, and a progress
frame that the floor lets through is refused exactly when its session has; a step adds to what is shown
exactly the preview that it stores. -/
structure Page.KeepsWall (ledgers : Ledgers) (options : ClientOptions CalledJournal) (page : Page) :
    Prop where
  wall : ∀ roomId room, page.client.rooms.get roomId = some room → ∀ sessionId,
    sessionId ∈ room.settledSessions ↔ ledgers.Ended roomId sessionId room.lastSeq
  refused : ∀ frame,
    (∀ answer ∈ (page.client.view options frame.roomId).2.store.answers, ledgers.Retained answer) →
    staleProgress (page.client.view options frame.roomId).1.progressFloor frame = false →
    (page.client.Refuses options frame ↔ ledgers.Ended frame.roomId frame.sessionId
      (page.client.view options frame.roomId).1.lastSeq)
  stored : ∀ taken, page.Stores options taken

/-- Over every run of a page and its reloads, a finished session is behind the wall and no other, and
the previews of a session strictly increase. -/
theorem finished_sessions_walled (ledgers : Ledgers) (userId : String) (browsers : Nat → Browser)
    (maxEvents catchUpPageSize : Option Nat) (maxStalledCatchups : Nat) (reconnect : Bool)
    (steps : List PageStep)
    (hallows : Page.initial.AllowsRun ledgers
      (storedOptions userId browsers maxEvents catchUpPageSize maxStalledCatchups reconnect) steps)
    (hretained : ∀ answer ∈ (Page.initial.run (storedOptions userId browsers maxEvents catchUpPageSize
      maxStalledCatchups reconnect) steps).client.store.answers, ledgers.Retained answer) :
    (Page.initial.run (storedOptions userId browsers maxEvents catchUpPageSize maxStalledCatchups
      reconnect) steps).KeepsWall ledgers (storedOptions userId browsers maxEvents catchUpPageSize
        maxStalledCatchups reconnect) ∧
    (Page.initial.previews (storedOptions userId browsers maxEvents catchUpPageSize maxStalledCatchups
      reconnect) steps).Pairwise fun earlier later =>
        SameStream earlier later → earlier.progressSeq < later.progressSeq := by
  have hwalled := walled_page_run rfl hallows (walled_initial ledgers)
  refine ⟨⟨hwalled.wall hretained, fun frame hopened hstale => ?_, page_stores _ _⟩, ?_⟩
  · rw [refuses_iff hstale]
    exact (walled_view rfl hwalled frame.roomId).wall hopened _ _ (get_view _ _) _
  · refine previews_increase hallows ?_
    rintro frame ⟨⟩

end Pages

/-! ### A session that ended -/

def endRow : Envelope :=
  ⟨"room", 1, 1, ⟨"agent", none, some "m"⟩,
    ⟨"e1", "1970-01-01T00:00:00.000Z", "session_settled", some "s", none⟩, []⟩

def endedSession : Ledgers where
  rows roomId := if roomId = "room" then [.event endRow, shownRow 2 []] else []
  located := by
    intro roomId i entry h
    by_cases hroom : roomId = "room"
    · rw [if_pos hroom] at h
      match i with
      | 0 => cases h; exact ⟨hroom.symm, rfl⟩
      | 1 => cases h; exact ⟨hroom.symm, rfl⟩
      | i + 2 => cases h
    · rw [if_neg hroom] at h
      cases h

/-- The journal of these pages keeps as many events as it is told to. -/
def quietOptions (maxEvents : Nat) : ClientOptions CalledJournal :=
  storedOptions "alice" (fun _ => .healthy) (some maxEvents) none 8 true

def previewOf (sessionId : String) (progressSeq : Nat) : PageStep :=
  .client (.frame (.progress ⟨.heartbeat, "room", sessionId, progressSeq, "t"⟩) 0)

def arrives : RoomEntry → PageStep
  | .event envelope => .client (.frame (.event envelope) 0)
  | .tombstone row => .client (.frame (.tombstone row) 0)

/-- A session runs and ends, and the page is loaded again. -/
def watched : List PageStep :=
  [.client (.join "room"), previewOf "s" 1, arrives (.event endRow), .reload, .client (.join "room"),
    previewOf "s" 2]

theorem allows_step {page : Page} {taken : Client.Step}
    (hdrawn : ∀ entry, taken.Carries entry → endedSession.Holds entry)
    (hkept : ∀ roomId lastSeq, ¬ taken.Discards roomId lastSeq)
    (hnew : page.former = [] ∨ page.client.previewed (quietOptions 5) taken = none) :
    page.Allows endedSession (quietOptions 5) (.client taken) := by
  refine ⟨hdrawn, fun roomId hpast => absurd hpast (hkept roomId _), ?_⟩
  intro frame hframe earlier hearlier
  rcases hnew with hformer | hnone
  · rw [hformer] at hearlier
    cases hearlier
  · rw [hnone] at hframe
    cases hframe

/-- After the page is loaded again the session that ended is still behind the wall. -/
theorem watched_session_walled :
    (Page.initial.run (quietOptions 5) watched).KeepsWall endedSession (quietOptions 5) ∧
    (Page.initial.previews (quietOptions 5) watched).Pairwise fun earlier later =>
      SameStream earlier later → earlier.progressSeq < later.progressSeq := by
  refine finished_sessions_walled endedSession "alice" (fun _ => .healthy) (some 5) none 8 true watched
    ?_ ?_
  · have hjoin (page : Page) : page.Allows endedSession (quietOptions 5) (.client (.join "room")) := by
      refine allows_step ?_ ?_ (Or.inr rfl)
      · rintro entry ⟨frame, now, ⟨⟩, -⟩
      · rintro roomId lastSeq ⟨frame, now, ⟨⟩, -⟩
    have hpreview {page : Page} {progressSeq : Nat} (hnew : page.former = [] ∨
        page.client.previewed (quietOptions 5) (.frame (.progress ⟨.heartbeat, "room", "s", progressSeq,
          "t"⟩) 0) = none) :
        page.Allows endedSession (quietOptions 5) (previewOf "s" progressSeq) := by
      refine allows_step ?_ ?_ hnew
      · rintro entry ⟨frame, now, ⟨⟩, ⟨⟩⟩
      · rintro roomId lastSeq ⟨frame, now, ⟨⟩, head, seenSeq, progress, ⟨⟩, -⟩
    have hend (page : Page) :
        page.Allows endedSession (quietOptions 5) (arrives (.event endRow)) := by
      refine allows_step ?_ ?_ (Or.inr rfl)
      · rintro entry ⟨frame, now, ⟨⟩, hentry⟩
        rw [List.mem_singleton.mp hentry]
        exact List.mem_cons_self
      · rintro roomId lastSeq ⟨frame, now, ⟨⟩, head, seenSeq, progress, ⟨⟩, -⟩
    exact ⟨hjoin _, hpreview (Or.inl rfl), hend _, trivial, hjoin _,
      hpreview (Or.inr (by decide +kernel)), trivial⟩
  · -- The room was loaded empty, and with the end of the session.
    have hanswers : (Page.initial.run (quietOptions 5) watched).client.store.answers =
        [("room", ⟨[], 0⟩), ("room", ⟨[.event endRow], 1⟩)] := by decide +kernel
    intro answer hanswer
    have hanswer' : answer ∈ [("room", ⟨[], 0⟩), ("room", (⟨[.event endRow], 1⟩ : HeldRoom))] :=
      hanswers ▸ hanswer
    rcases List.mem_cons.mp hanswer' with rfl | hsecond
    · intro sessionId hended
      exact absurd hended not_ended_zero
    · obtain rfl := List.mem_singleton.mp hsecond
      rintro sessionId ⟨entry, hentry, envelope, hshown, hsettled, hcursor⟩
      have hrows : entry ∈ [RoomEntry.event endRow, shownRow 2 []] := hentry
      rcases List.mem_cons.mp hrows with rfl | hlater
      · exact ⟨_, List.mem_cons_self, envelope, hshown, hsettled⟩
      · rw [List.mem_singleton.mp hlater] at hcursor
        exact absurd hcursor (by decide)

/-- The end of the session is evicted before the page is loaded again. -/
def evictedEnd : List PageStep :=
  [.client (.join "room"), arrives (.event endRow), arrives (shownRow 2 []), .reload,
    .client (.join "room")]

/-- The history of the room is discarded after the session ended. -/
def discardedEnd : List PageStep :=
  [.client (.join "room"), arrives (.event endRow),
    .client (.frame (.subscribed "room" 0 0 []) 0)]

/-- The page is loaded again while the session runs, and the same frame arrives again. -/
def repeatedPreview : List PageStep :=
  [.client (.join "room"), previewOf "s" 1, .reload, .client (.join "room"), previewOf "s" 1]

/-- The wall is down behind an end that was evicted, stays up behind one that was discarded, and a
preview is stored twice. -/
theorem evicted_end_previewed_again :
    ((Page.initial.run (quietOptions 1) evictedEnd).client.rooms.get "room").map
        (fun room => (room.lastSeq, room.settledSessions)) = some (2, []) ∧
      endedSession.Ended "room" "s" 2 ∧
      (Page.initial.previews (quietOptions 1) (evictedEnd ++ [previewOf "s" 0])).map
        ProgressFrame.sessionId = ["s"] ∧
    ((Page.initial.run (quietOptions 5) discardedEnd).client.rooms.get "room").map
        (fun room => (room.lastSeq, room.settledSessions)) = some (0, ["s"]) ∧
      ¬ endedSession.Ended "room" "s" 0 ∧
    (Page.initial.previews (quietOptions 5) repeatedPreview).map ProgressFrame.progressSeq = [1, 1] := by
  refine ⟨by decide +kernel, ?_, by decide +kernel, by decide +kernel, not_ended_zero,
    by decide +kernel⟩
  exact ⟨.event endRow, List.mem_cons_self, endRow, rfl, rfl, by decide⟩

end Web
