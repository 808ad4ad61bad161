import AtriumVerified.Web.Proofs.TimelineProofs
import AtriumVerified.Web.StoredJournal

/-!
# Proofs: tabs that share their records

A record is a history without holes as long as a tab commits an entry behind the last one of the
record it reads. Where it does not, the record it leaves is refused when it is read again, unless
the new entry is more than one position ahead: that record increases, is accepted, and has a hole.
-/

namespace Web

/-! ## Histories without holes -/

/-- What is held of a room are the entries of the room up to the cursor, as many as there are,
without a hole. -/
structure Contiguous (roomId : String) (held : HeldRoom) : Prop where
  own : ∀ entry ∈ held.events, entry.roomId = roomId
  run : ∃ first, held.events.map RoomEntry.roomSeq = List.range' first held.events.length ∧
    held.lastSeq + 1 = first + held.events.length
  cursor : held.events = [] → held.lastSeq = 0

section Contiguous

variable {roomId : String} {events front kept : List RoomEntry} {cursor : Nat} {entry : RoomEntry}

theorem contiguous_empty (roomId : String) : Contiguous roomId ⟨[], 0⟩ :=
  ⟨by simp, ⟨1, rfl, rfl⟩, fun _ => rfl⟩

theorem contiguous_single (hroom : entry.roomId = roomId) :
    Contiguous roomId ⟨[entry], entry.roomSeq⟩ := by
  refine ⟨?_, ⟨entry.roomSeq, rfl, rfl⟩, by simp⟩
  intro other hother
  rw [List.mem_singleton.mp hother, hroom]

theorem Contiguous.holds_between {held : HeldRoom} (h : Contiguous roomId held)
    (hentry : entry ∈ held.events) {position : Nat} (hfrom : entry.roomSeq ≤ position)
    (hto : position ≤ held.lastSeq) : ∃ other ∈ held.events, other.roomSeq = position := by
  obtain ⟨first, hrun, hlast⟩ := h.run
  have hmem : entry.roomSeq ∈ held.events.map RoomEntry.roomSeq := List.mem_map_of_mem hentry
  rw [hrun, List.mem_range'_1] at hmem
  have hposition : position ∈ held.events.map RoomEntry.roomSeq := by
    rw [hrun, List.mem_range'_1]
    omega
  exact List.mem_map.mp hposition

theorem Contiguous.suffix (h : Contiguous roomId ⟨front ++ kept, cursor⟩) (hkept : kept ≠ []) :
    Contiguous roomId ⟨kept, cursor⟩ := by
  obtain ⟨first, hrun, hlast⟩ := h.run
  dsimp only at hrun hlast
  rw [List.length_append] at hrun hlast
  rw [List.map_append, ← List.range'_append_1] at hrun
  have hparts := List.append_inj hrun (by rw [List.length_map, List.length_range'])
  refine ⟨fun entry hentry => h.own entry (List.mem_append_right front hentry),
    ⟨first + front.length, hparts.2, ?_⟩, fun hempty => absurd hempty hkept⟩
  show cursor + 1 = first + front.length + kept.length
  omega

theorem Contiguous.append (h : Contiguous roomId ⟨events, cursor⟩) (hroom : entry.roomId = roomId)
    (hnext : events ≠ [] → entry.roomSeq = cursor + 1) :
    Contiguous roomId ⟨events ++ [entry], entry.roomSeq⟩ := by
  by_cases hempty : events = []
  · rw [hempty]
    exact contiguous_single hroom
  · have hposition := hnext hempty
    obtain ⟨first, hrun, hlast⟩ := h.run
    dsimp only at hrun hlast
    refine ⟨?_, ⟨first, ?_, ?_⟩, by simp⟩
    · intro other hother
      rcases List.mem_append.mp hother with hold | hnew
      · exact h.own other hold
      · rw [List.mem_singleton.mp hnew, hroom]
    · show (events ++ [entry]).map RoomEntry.roomSeq = List.range' first (events ++ [entry]).length
      rw [List.map_append, List.length_append, hrun, List.length_singleton, List.range'_concat,
        List.map_singleton, hposition]
      congr 2
      omega
    · show entry.roomSeq + 1 = first + (events ++ [entry]).length
      rw [List.length_append, List.length_singleton]
      omega

theorem Contiguous.last (h : Contiguous roomId ⟨front ++ [entry], cursor⟩) :
    entry.roomSeq = cursor := by
  obtain ⟨first, hrun, hlast⟩ := (h.suffix (List.cons_ne_nil entry [])).run
  have hfirst : entry.roomSeq = first := (List.cons.inj hrun).1
  have hcursor : cursor + 1 = first + 1 := hlast
  omega

/-- The greatest position of a history is its cursor. -/
theorem Contiguous.max_eq (h : Contiguous roomId ⟨events, cursor⟩) :
    (events.map RoomEntry.roomSeq).foldl max 0 = cursor := by
  by_cases hempty : events = []
  · obtain rfl : cursor = 0 := h.cursor hempty
    rw [hempty]
    rfl
  · obtain ⟨init, last, rfl⟩ := List.eq_nil_or_concat events |>.resolve_left hempty
    rw [List.concat_eq_append] at h ⊢
    have hlast := h.last
    obtain ⟨first, hrun, hend⟩ := h.run
    dsimp only at hrun hend
    have hbelow (positions : List Nat) (hle : ∀ position ∈ positions, position ≤ cursor) :
        positions.foldl max 0 ≤ cursor := by
      have : ∀ start ≤ cursor, positions.foldl max start ≤ cursor := by
        intro start hstart
        induction positions generalizing start with
        | nil => exact hstart
        | cons position positions ih =>
          exact ih (fun other hother => hle other (List.mem_cons_of_mem _ hother)) _
            (max_le hstart (hle position List.mem_cons_self))
      exact this 0 (Nat.zero_le cursor)
    have hinit : (init.map RoomEntry.roomSeq).foldl max 0 ≤ cursor := by
      refine hbelow _ fun position hposition => ?_
      have hmem : position ∈ (init ++ [last]).map RoomEntry.roomSeq := by
        rw [List.map_append]
        exact List.mem_append_left _ hposition
      rw [hrun, List.mem_range'_1] at hmem
      omega
    rw [List.map_append, List.foldl_append]
    show max ((init.map RoomEntry.roomSeq).foldl max 0) last.roomSeq = cursor
    omega

end Contiguous

/-! ## Records -/

theorem storedRoom_set (storage : Js.Map String HeldRoom) (roomId : String) (record : HeldRoom)
    (other : String) : storedRoom (storage.set roomId record) other =
      if other = roomId then (if record.accepted roomId then record else ⟨[], 0⟩)
      else storedRoom storage other := by
  unfold storedRoom
  rw [Js.Map.get_set]
  by_cases h : other = roomId
  · rw [if_pos h, if_pos h, h]
  · rw [if_neg h, if_neg h]

theorem storedRoom_delete (storage : Js.Map String HeldRoom) (roomId other : String) :
    storedRoom (storage.delete roomId) other =
      if other = roomId then ⟨[], 0⟩ else storedRoom storage other := by
  unfold storedRoom
  rw [Js.Map.get_delete]
  by_cases h : other = roomId
  · rw [if_pos h, if_pos h]
  · rw [if_neg h, if_neg h]

theorem not_increasing {last entry : RoomEntry} (front : List RoomEntry)
    (h : entry.roomSeq ≤ last.roomSeq) : increasing (front ++ [last] ++ [entry]) = false := by
  induction front with
  | nil =>
    show (decide (last.roomSeq < entry.roomSeq) && true) = false
    simp [h]
  | cons first rest ih =>
    cases rest with
    | nil =>
      show (decide (first.roomSeq < last.roomSeq) && increasing ([] ++ [last] ++ [entry])) = false
      rw [ih, Bool.and_false]
    | cons second rest =>
      show (decide (first.roomSeq < second.roomSeq) &&
        increasing (second :: rest ++ [last] ++ [entry])) = false
      rw [ih, Bool.and_false]

/-- The records that the loop of a commit may try, one after the other. -/
inductive Tried : List RoomEntry → List RoomEntry → Prop
  | first (kept : List RoomEntry) : Tried kept kept
  | half {kept later : List RoomEntry} : 1 < kept.length → Tried (newerHalf kept) later →
      Tried kept later

section Persist

variable {browser : Browser} {kept written : List RoomEntry}

theorem persist_ok (h : browser.persist kept = .ok written) :
    Tried kept written ∧ browser.setItem written = none := by
  induction kept using Browser.persist.induct browser with
  | case1 kept hfits =>
    unfold Browser.persist at h
    rw [hfits] at h
    cases h
    exact ⟨.first _, hfits⟩
  | case2 kept error herror hlength ih =>
    unfold Browser.persist at h
    rw [herror] at h
    dsimp only at h
    rw [dif_pos hlength] at h
    exact ⟨.half hlength (ih h).1, (ih h).2⟩
  | case3 kept error herror hlength =>
    unfold Browser.persist at h
    rw [herror] at h
    dsimp only at h
    rw [dif_neg hlength] at h
    cases h

theorem persist_error {error : Thrown} (h : browser.persist kept = .error error) :
    (∃ last, browser.setItem last = some error) ∧ ∀ tried, Tried kept tried →
      browser.setItem tried ≠ none := by
  induction kept using Browser.persist.induct browser with
  | case1 kept hfits =>
    unfold Browser.persist at h
    rw [hfits] at h
    cases h
  | case2 kept refused hrefused hlength ih =>
    unfold Browser.persist at h
    rw [hrefused] at h
    dsimp only at h
    rw [dif_pos hlength] at h
    refine ⟨(ih h).1, ?_⟩
    intro tried htried
    cases htried with
    | first =>
      rw [hrefused]
      exact Option.some_ne_none refused
    | half _ hlater => exact (ih h).2 tried hlater
  | case3 kept refused hrefused hlength =>
    unfold Browser.persist at h
    rw [hrefused] at h
    dsimp only at h
    rw [dif_neg hlength] at h
    cases h
    refine ⟨⟨kept, hrefused⟩, ?_⟩
    intro tried htried
    cases htried with
    | first =>
      rw [hrefused]
      exact Option.some_ne_none error
    | half hlonger => exact absurd hlonger hlength

theorem tried_suffix {events : List RoomEntry} {entry : RoomEntry}
    (htried : Tried kept written) (h : ∃ front later, events = front ++ later ∧ kept = later ++ [entry]) :
    ∃ front later, events = front ++ later ∧ written = later ++ [entry] := by
  induction htried with
  | first => exact h
  | @half kept written hlength _ ih =>
    obtain ⟨front, later, hevents, rfl⟩ := h
    have hwithin : (later ++ [entry]).length = later.length + 1 := by simp
    refine ih ⟨front ++ later.take ((later.length + 1 + 1) / 2),
      later.drop ((later.length + 1 + 1) / 2), ?_, ?_⟩
    · rw [List.append_assoc, List.take_append_drop, hevents]
    · unfold newerHalf
      rw [hwithin, List.drop_append_of_le_length (by omega)]

theorem trim_suffix (maxEvents : Option Nat) (events : List RoomEntry) (entry : RoomEntry) :
    ∃ front later, events = front ++ later ∧ trim maxEvents (events ++ [entry]) = later ++ [entry] := by
  unfold trim
  split
  · exact ⟨[], events, rfl, rfl⟩
  · have hretained : 1 ≤ retained maxEvents := le_max_left 1 _
    have hlength : (events ++ [entry]).length = events.length + 1 := by simp
    refine ⟨events.take ((events ++ [entry]).length - retained maxEvents),
      events.drop ((events ++ [entry]).length - retained maxEvents), ?_, ?_⟩
    · rw [List.take_append_drop]
    · rw [List.drop_append_of_le_length (by omega)]

end Persist

/-! ## What a tab remembers -/

/-- The memory of a journal holds nothing of a room that is durable, and of every other room a history
that ends at the cursor of the tab, if it holds anything. -/
structure Remembers (cursors : String → Option Nat) (memory : JournalMemory) : Prop where
  durable : ∀ roomId, roomId ∉ memory.degraded → heldRoom memory.fallback roomId = ⟨[], 0⟩
  held : ∀ roomId, Contiguous roomId (heldRoom memory.fallback roomId)
  cursor : ∀ roomId cursor, cursors roomId = some cursor →
    (heldRoom memory.fallback roomId).events ≠ [] →
    (heldRoom memory.fallback roomId).lastSeq = cursor

section Memory

variable {cursors : String → Option Nat} {memory : JournalMemory} {roomId : String}
  {entry : RoomEntry} {events : List RoomEntry} {reason : String}

theorem remembers_initial (cursors : String → Option Nat) : Remembers cursors .initial := by
  refine ⟨fun _ _ => rfl, contiguous_empty, ?_⟩
  intro roomId cursor _ hheld
  exact absurd rfl hheld

theorem Remembers.of_held {next : JournalMemory} (h : Remembers cursors memory)
    (hheld : ∀ other, heldRoom next.fallback other = heldRoom memory.fallback other)
    (hdegraded : ∀ other ∈ memory.degraded, other ∈ next.degraded) : Remembers cursors next := by
  refine ⟨?_, ?_, ?_⟩
  · intro other hother
    rw [hheld]
    exact h.durable other fun hmem => hother (hdegraded other hmem)
  · intro other
    rw [hheld]
    exact h.held other
  · intro other cursor
    rw [hheld]
    exact h.cursor other cursor

theorem load_fst (memory : JournalMemory) (roomId : String) :
    (memory.load roomId).1 = heldRoom memory.fallback roomId :=
  memoryRoom_fst memory.fallback roomId

theorem heldRoom_load (memory : JournalMemory) (roomId other : String) :
    heldRoom (memory.load roomId).2.fallback other = heldRoom memory.fallback other :=
  heldRoom_memoryRoom memory.fallback roomId other

theorem Remembers.open (h : Remembers cursors memory) {cursor : Nat}
    (hcursor : (heldRoom memory.fallback roomId).events ≠ [] →
      (heldRoom memory.fallback roomId).lastSeq = cursor) :
    Remembers (Function.update cursors roomId (some cursor)) memory := by
  refine ⟨h.durable, h.held, ?_⟩
  intro other position hposition hheld
  by_cases heq : other = roomId
  · rw [heq, Function.update_self] at hposition
    rw [heq] at hheld ⊢
    rw [hcursor hheld, Option.some.inj hposition]
  · rw [Function.update_of_ne heq] at hposition
    exact h.cursor other position hposition hheld

/-- The next entry of a room that is degraded. -/
theorem Remembers.commit (h : Remembers cursors memory) {cursor : Nat}
    (hcursor : cursors roomId = some cursor) (hdegraded : roomId ∈ memory.degraded)
    (hroom : entry.roomId = roomId) (hnext : entry.roomSeq = cursor + 1) :
    Remembers (Function.update cursors roomId (some entry.roomSeq))
      (memory.commit roomId entry entry.roomSeq) := by
  have hheld (other : String) := heldRoom_commit memory.fallback roomId entry entry.roomSeq other
  have hroomHeld : heldRoom (memory.commit roomId entry entry.roomSeq).fallback roomId =
      ⟨(heldRoom memory.fallback roomId).events ++ [entry], entry.roomSeq⟩ := by
    refine (hheld roomId).trans ?_
    rw [if_pos rfl]
    have hle : (heldRoom memory.fallback roomId).lastSeq ≤ entry.roomSeq := by
      by_cases hempty : (heldRoom memory.fallback roomId).events = []
      · rw [(h.held roomId).cursor hempty]
        exact Nat.zero_le _
      · rw [h.cursor roomId cursor hcursor hempty]
        omega
    rw [max_eq_right hle]
  have hother {other : String} (hne : other ≠ roomId) :
      heldRoom (memory.commit roomId entry entry.roomSeq).fallback other =
        heldRoom memory.fallback other := (hheld other).trans (if_neg hne)
  refine ⟨?_, ?_, ?_⟩
  · intro other hdurable
    have hne : other ≠ roomId := by
      rintro rfl
      exact hdurable hdegraded
    rw [hother hne]
    exact h.durable other hdurable
  · intro other
    by_cases heq : other = roomId
    · rw [heq, hroomHeld]
      have hbehind (hevents : (heldRoom memory.fallback roomId).events ≠ []) :
          entry.roomSeq = (heldRoom memory.fallback roomId).lastSeq + 1 := by
        rw [h.cursor roomId cursor hcursor hevents, hnext]
      exact (h.held roomId).append hroom hbehind
    · rw [hother heq]
      exact h.held other
  · intro other position hposition hevents
    by_cases heq : other = roomId
    · rw [heq, Function.update_self] at hposition
      rw [heq, hroomHeld]
      exact Option.some.inj hposition
    · rw [Function.update_of_ne heq] at hposition
      rw [hother heq] at hevents ⊢
      exact h.cursor other position hposition hevents

theorem heldRoom_foldl_commit (memory : JournalMemory) (roomId : String) (events : List RoomEntry)
    (other : String) : heldRoom (events.foldl (fun memory event =>
        memory.commit roomId event event.roomSeq) memory).fallback other =
      if other = roomId then ⟨(heldRoom memory.fallback roomId).events ++ events,
        (events.map RoomEntry.roomSeq).foldl max (heldRoom memory.fallback roomId).lastSeq⟩
      else heldRoom memory.fallback other := by
  induction events generalizing memory with
  | nil =>
    by_cases h : other = roomId
    · rw [if_pos h, h]
      simp
    · rw [if_neg h]
      rfl
  | cons event events ih =>
    have hheld (other : String) := heldRoom_commit memory.fallback roomId event event.roomSeq other
    rw [List.foldl_cons, ih]
    by_cases h : other = roomId
    · rw [if_pos h, if_pos h]
      unfold JournalMemory.commit
      rw [hheld, if_pos rfl, List.append_assoc]
      rfl
    · rw [if_neg h, if_neg h]
      exact (hheld other).trans (if_neg h)

theorem degraded_foldl_commit (memory : JournalMemory) (roomId : String) (events : List RoomEntry) :
    (events.foldl (fun memory event => memory.commit roomId event event.roomSeq) memory).degraded =
      memory.degraded := by
  induction events generalizing memory with
  | nil => rfl
  | cons event events ih => exact ih (memory.commit roomId event event.roomSeq)

theorem mem_degrade (memory : JournalMemory) (roomId : String) (events : List RoomEntry)
    (reason other : String) : other ∈ (memory.degrade roomId events reason).degraded ↔
      other = roomId ∨ other ∈ memory.degraded := by
  unfold JournalMemory.degrade
  split
  next h =>
    constructor
    · exact Or.inr
    · rintro (rfl | hother)
      · exact h
      · exact hother
  · dsimp only
    rw [degraded_foldl_commit, List.mem_append, List.mem_singleton]
    exact or_comm

theorem heldRoom_degrade (h : Remembers cursors memory) (hdurable : roomId ∉ memory.degraded)
    {cursor : Nat} (hevents : Contiguous roomId ⟨events, cursor⟩) (reason other : String) :
    heldRoom (memory.degrade roomId events reason).fallback other =
      if other = roomId then ⟨events, cursor⟩ else heldRoom memory.fallback other := by
  unfold JournalMemory.degrade
  rw [if_neg hdurable]
  dsimp only
  rw [heldRoom_foldl_commit]
  dsimp only
  rw [h.durable roomId hdurable, hevents.max_eq]
  rfl

theorem heldRoom_degradeHeld (h : Remembers cursors memory) (roomId reason other : String) :
    heldRoom (memory.degradeHeld roomId reason).fallback other = heldRoom memory.fallback other := by
  have hloaded : Remembers cursors (memory.load roomId).2 :=
    h.of_held (heldRoom_load memory roomId) fun _ => id
  unfold JournalMemory.degradeHeld
  dsimp only
  by_cases hdegraded : roomId ∈ memory.degraded
  · have hsame : (memory.load roomId).2.degrade roomId (memory.load roomId).1.events reason =
        (memory.load roomId).2 := if_pos hdegraded
    rw [hsame, heldRoom_load]
  · have hempty : (memory.load roomId).1 = ⟨[], 0⟩ := by
      rw [load_fst, h.durable roomId hdegraded]
    rw [hempty, heldRoom_degrade hloaded hdegraded (contiguous_empty roomId), heldRoom_load]
    by_cases heq : other = roomId
    · rw [if_pos heq, heq, h.durable roomId hdegraded]
    · rw [if_neg heq]

theorem mem_degradeHeld (memory : JournalMemory) (roomId reason other : String) :
    other ∈ (memory.degradeHeld roomId reason).degraded ↔ other = roomId ∨ other ∈ memory.degraded :=
  mem_degrade (memory.load roomId).2 roomId (memory.load roomId).1.events reason other

theorem Remembers.degradeHeld (h : Remembers cursors memory) (roomId reason : String) :
    Remembers cursors (memory.degradeHeld roomId reason) :=
  h.of_held (heldRoom_degradeHeld h roomId reason) fun other hother =>
    (mem_degradeHeld memory roomId reason other).mpr (Or.inr hother)

theorem Remembers.degrade (h : Remembers cursors memory) (hdurable : roomId ∉ memory.degraded)
    {cursor : Nat} (hevents : Contiguous roomId ⟨events, cursor⟩) :
    Remembers (Function.update cursors roomId (some cursor))
      (memory.degrade roomId events reason) := by
  have hheld (other : String) := heldRoom_degrade h hdurable hevents reason other
  refine ⟨?_, ?_, ?_⟩
  · intro other hother
    rw [mem_degrade, not_or] at hother
    rw [hheld, if_neg hother.1]
    exact h.durable other hother.2
  · intro other
    rw [hheld]
    by_cases heq : other = roomId
    · rw [if_pos heq, heq]
      exact hevents
    · rw [if_neg heq]
      exact h.held other
  · intro other position hposition
    rw [hheld]
    by_cases heq : other = roomId
    · rw [heq, Function.update_self] at hposition
      rw [if_pos heq]
      exact fun _ => Option.some.inj hposition
    · rw [Function.update_of_ne heq] at hposition
      rw [if_neg heq]
      exact h.cursor other position hposition

theorem Remembers.reset (h : Remembers cursors memory) (roomId : String) :
    Remembers (Function.update cursors roomId (some 0)) (memory.reset roomId) := by
  have hheld (other : String) := heldRoom_reset memory.fallback roomId other
  refine ⟨?_, ?_, ?_⟩
  · intro other hother
    refine (hheld other).trans ?_
    split
    · rfl
    · exact h.durable other hother
  · intro other
    unfold JournalMemory.reset
    rw [hheld]
    split
    · exact contiguous_empty other
    · exact h.held other
  · intro other position hposition
    unfold JournalMemory.reset
    rw [hheld]
    by_cases heq : other = roomId
    · rw [if_pos heq]
      exact fun hempty => absurd rfl hempty
    · rw [Function.update_of_ne heq] at hposition
      rw [if_neg heq]
      exact h.cursor other position hposition

theorem Remembers.forget (h : Remembers cursors memory) {fewer : String → Option Nat}
    (hfewer : ∀ other cursor, fewer other = some cursor → cursors other = some cursor) :
    Remembers fewer memory :=
  ⟨h.durable, h.held, fun other cursor hcursor => h.cursor other cursor (hfewer other cursor hcursor)⟩

end Memory

/-! ## The calls of a journal -/

/-- Nothing the browser throws fails to be described. -/
structure Browser.Printable (browser : Browser) : Prop where
  access : browser.access ≠ .refused .unprintable
  readAccess : browser.readAccess ≠ .refused .unprintable
  getItem : browser.getItem ≠ some .unprintable
  setItem : ∀ kept, browser.setItem kept ≠ some .unprintable

/-- The store takes an entry: it comes next behind what is stored, or the record that is written in
the end shows no hole, as it does not increase or holds nothing else. -/
def Browser.Takes (browser : Browser) (maxEvents : Option Nat) (current : HeldRoom)
    (entry : RoomEntry) : Prop :=
  current.events ≠ [] → entry.roomSeq ≠ current.lastSeq + 1 →
    (∃ kept, Tried (trim maxEvents (current.events ++ [entry])) kept ∧ browser.setItem kept = none) ∧
    (entry.roomSeq ≤ current.lastSeq ∨ ∀ kept, Tried (trim maxEvents (current.events ++ [entry])) kept →
      1 < kept.length → browser.setItem kept ≠ none)

/-- Every record that is read as a history has no holes. -/
def Histories (storage : Js.Map String HeldRoom) : Prop :=
  ∀ roomId, Contiguous roomId (storedRoom storage roomId)

theorem exists_described {given : Option Thrown} {error : Thrown} (h : given ≠ some .unprintable)
    (hgiven : given = some error) : ∃ reason, describeStorageError error = some reason := by
  cases error with
  | quota => exact ⟨_, rfl⟩
  | other message => exact ⟨_, rfl⟩
  | unprintable => exact absurd hgiven h

theorem storage_available : Access.available.storage = some .available := rfl

theorem exists_storage {access : Access} (h : access ≠ .refused .unprintable) :
    access = .available ∨ ∃ reason, access.storage = some (.missing reason) := by
  cases access with
  | available => exact Or.inl rfl
  | absent => exact Or.inr ⟨_, rfl⟩
  | refused error =>
    have hprintable : some error ≠ some .unprintable := by
      rintro ⟨⟩
      exact h rfl
    obtain ⟨reason, hreason⟩ := exists_described hprintable rfl
    refine Or.inr ⟨reason, ?_⟩
    unfold Access.storage
    dsimp only
    rw [hreason]
    rfl

section Calls

variable {cursors : String → Option Nat} {journal : LocalJournal} {browser : Browser}
  {roomId reason : String}

theorem loadDegraded_spec (h : Remembers cursors journal.memory) (roomId reason : String) :
    (journal.loadDegraded roomId reason).1 = heldRoom journal.memory.fallback roomId ∧
      (journal.loadDegraded roomId reason).2.storage = journal.storage ∧
      Remembers cursors (journal.loadDegraded roomId reason).2.memory ∧
      roomId ∈ (journal.loadDegraded roomId reason).2.memory.degraded ∧
      heldRoom (journal.loadDegraded roomId reason).2.memory.fallback roomId =
        heldRoom journal.memory.fallback roomId := by
  have hgiven := h.degradeHeld roomId reason
  have hheld := heldRoom_degradeHeld h roomId reason roomId
  refine ⟨(load_fst _ roomId).trans hheld, rfl, ?_, ?_, (heldRoom_load _ roomId roomId).trans hheld⟩
  · exact hgiven.of_held (heldRoom_load _ roomId) fun _ => id
  · exact (mem_degradeHeld journal.memory roomId reason roomId).mpr (Or.inl rfl)

/-- Reading a durable room answers with its record, or gives the room up and answers with nothing. -/
theorem readDurable_spec (h : Remembers cursors journal.memory) (hprintable : browser.Printable)
    (hdurable : roomId ∉ journal.memory.degraded) :
    (journal.readDurable browser roomId = (some (storedRoom journal.storage roomId), journal) ∧
      browser.readAccess = .available ∧ browser.getItem = none) ∨
    ∃ next, journal.readDurable browser roomId = (some ⟨[], 0⟩, next) ∧
      next.storage = journal.storage ∧ Remembers cursors next.memory ∧
      roomId ∈ next.memory.degraded ∧ heldRoom next.memory.fallback roomId = ⟨[], 0⟩ := by
  have hgiven (reason : String) : ∃ next, journal.loadDegraded roomId reason = (⟨[], 0⟩, next) ∧
      next.storage = journal.storage ∧ Remembers cursors next.memory ∧
      roomId ∈ next.memory.degraded ∧ heldRoom next.memory.fallback roomId = ⟨[], 0⟩ := by
    obtain ⟨hheld, hrest⟩ := loadDegraded_spec h roomId reason
    rw [h.durable roomId hdurable] at hheld hrest
    exact ⟨_, Prod.ext hheld rfl, hrest⟩
  unfold LocalJournal.readDurable
  rcases exists_storage hprintable.readAccess with haccess | ⟨reason, haccess⟩
  · rw [haccess, storage_available]
    dsimp only
    cases hread : browser.getItem with
    | none => exact Or.inl ⟨rfl, rfl, rfl⟩
    | some error =>
      obtain ⟨reason, hreason⟩ := exists_described hprintable.getItem hread
      obtain ⟨next, hnext, hrest⟩ := hgiven reason
      dsimp only
      rw [hreason]
      dsimp only
      rw [hnext]
      exact Or.inr ⟨next, rfl, hrest⟩
  · rw [haccess]
    obtain ⟨next, hnext, hrest⟩ := hgiven reason
    dsimp only
    rw [hnext]
    exact Or.inr ⟨next, rfl, hrest⟩

theorem load_spec (hstored : Histories journal.storage) (h : Remembers cursors journal.memory)
    (hprintable : browser.Printable) (roomId : String) :
    ∃ held next, journal.load browser roomId = (some held, next) ∧ Contiguous roomId held ∧
      next.storage = journal.storage ∧
      Remembers (Function.update cursors roomId (some held.lastSeq)) next.memory := by
  unfold LocalJournal.load
  by_cases hdegraded : roomId ∈ journal.memory.degraded
  · rw [if_pos hdegraded]
    have hloaded : Remembers cursors (journal.memory.load roomId).2 :=
      h.of_held (heldRoom_load journal.memory roomId) fun _ => id
    refine ⟨(journal.memory.load roomId).1, _, rfl, ?_, rfl, hloaded.open fun _ => ?_⟩
    · rw [load_fst]
      exact h.held roomId
    · rw [heldRoom_load, load_fst]
  · rw [if_neg hdegraded]
    rcases readDurable_spec h hprintable hdegraded with
      ⟨hread, -⟩ | ⟨next, hread, hsame, hnext, -, hempty⟩
    · refine ⟨_, _, hread, hstored roomId, rfl, h.open fun hheld => ?_⟩
      rw [h.durable roomId hdegraded] at hheld
      exact absurd rfl hheld
    · refine ⟨_, _, hread, contiguous_empty roomId, hsame, hnext.open fun hheld => ?_⟩
      rw [hempty] at hheld
      exact absurd rfl hheld

/-- The record that a commit writes is a history without holes, or is refused when it is read. -/
theorem histories_written {storage : Js.Map String HeldRoom} {maxEvents : Option Nat}
    {entry : RoomEntry} {kept : List RoomEntry} (hstored : Histories storage)
    (hroom : entry.roomId = roomId)
    (htakes : browser.Takes maxEvents (storedRoom storage roomId) entry)
    (htried : Tried (trim maxEvents ((storedRoom storage roomId).events ++ [entry])) kept)
    (hfits : browser.setItem kept = none) :
    Histories (storage.set roomId ⟨kept, entry.roomSeq⟩) := by
  intro other
  rw [storedRoom_set]
  by_cases heq : other = roomId
  swap
  · rw [if_neg heq]
    exact hstored other
  rw [if_pos heq, heq]
  have hcurrent := hstored roomId
  obtain ⟨front, later, hevents, rfl⟩ :=
    tried_suffix htried (trim_suffix maxEvents (storedRoom storage roomId).events entry)
  -- Behind the last entry everything that is kept is the end of one history.
  have hbehind (hnext : (storedRoom storage roomId).events ≠ [] →
      entry.roomSeq = (storedRoom storage roomId).lastSeq + 1) :
      Contiguous roomId ⟨later ++ [entry], entry.roomSeq⟩ := by
    have hwhole : Contiguous roomId ⟨(storedRoom storage roomId).events ++ [entry], entry.roomSeq⟩ :=
      hcurrent.append hroom hnext
    rw [hevents, List.append_assoc] at hwhole
    exact hwhole.suffix (by simp)
  have haccepted (h : Contiguous roomId ⟨later ++ [entry], entry.roomSeq⟩) :
      Contiguous roomId (if (⟨later ++ [entry], entry.roomSeq⟩ : HeldRoom).accepted roomId
        then ⟨later ++ [entry], entry.roomSeq⟩ else ⟨[], 0⟩) := by
    split
    · exact h
    · exact contiguous_empty roomId
  by_cases hempty : (storedRoom storage roomId).events = []
  · exact haccepted (hbehind fun hheld => absurd hempty hheld)
  by_cases hnext : entry.roomSeq = (storedRoom storage roomId).lastSeq + 1
  · exact haccepted (hbehind fun _ => hnext)
  obtain ⟨-, hbefore | hrefused⟩ := htakes hempty hnext
  · -- The record does not increase, unless it holds this entry alone.
    rcases List.eq_nil_or_concat later with rfl | ⟨init, last, rfl⟩
    · exact haccepted (contiguous_single hroom)
    · rw [List.concat_eq_append] at hevents ⊢
      have hlast : last.roomSeq = (storedRoom storage roomId).lastSeq := by
        have hheld : storedRoom storage roomId = ⟨front ++ init ++ [last],
            (storedRoom storage roomId).lastSeq⟩ := by
          rw [List.append_assoc, ← hevents]
        rw [hheld] at hcurrent
        exact hcurrent.last
      have hrefused : (⟨init ++ [last] ++ [entry], entry.roomSeq⟩ : HeldRoom).accepted roomId =
          false := by
        unfold HeldRoom.accepted
        rw [not_increasing init (by omega)]
        rfl
      rw [hrefused]
      exact contiguous_empty roomId
  · -- Whatever is longer was refused.
    have hlength : ¬ 1 < (later ++ [entry]).length := fun hlonger => hrefused _ htried hlonger hfits
    have hlater : later = [] := by
      rw [List.length_append, List.length_singleton] at hlength
      exact List.eq_nil_of_length_eq_zero (by omega)
    rw [hlater]
    rw [hlater] at haccepted
    exact haccepted (contiguous_single hroom)

/-- A commit of the next entry of a tab keeps the records and the memory of its journal. -/
theorem commit_spec {maxEvents : Option Nat} {entry : RoomEntry} {cursor : Nat}
    (hstored : Histories journal.storage) (h : Remembers cursors journal.memory)
    (hprintable : browser.Printable) (hcursor : cursors entry.roomId = some cursor)
    (hnext : entry.roomSeq = cursor + 1)
    (htakes : entry.roomId ∉ journal.memory.degraded → browser.access = .available →
      browser.readAccess = .available → browser.getItem = none →
      browser.Takes maxEvents (storedRoom journal.storage entry.roomId) entry) :
    ∃ next, journal.commit browser maxEvents entry.roomId entry entry.roomSeq = (true, next) ∧
      Histories next.storage ∧
      Remembers (Function.update cursors entry.roomId (some entry.roomSeq)) next.memory := by
  unfold LocalJournal.commit
  rcases exists_storage hprintable.access with haccess | ⟨reason, haccess⟩
  swap
  · rw [haccess]
    have hgiven := h.degradeHeld entry.roomId reason
    have hgone := (mem_degradeHeld journal.memory entry.roomId reason entry.roomId).mpr (Or.inl rfl)
    exact ⟨_, rfl, hstored, hgiven.commit hcursor hgone rfl hnext⟩
  rw [haccess, storage_available]
  dsimp only
  by_cases hdegraded : entry.roomId ∈ journal.memory.degraded
  · rw [if_pos hdegraded]
    exact ⟨_, rfl, hstored, h.commit hcursor hdegraded rfl hnext⟩
  rw [if_neg hdegraded]
  rcases readDurable_spec h hprintable hdegraded with
    ⟨hread, hreadAccess, hgetItem⟩ | ⟨next, hread, hsame, hheld, hgone, -⟩
  swap
  · rw [hread]
    dsimp only
    rw [if_pos hgone]
    refine ⟨_, rfl, ?_, hheld.commit hcursor hgone rfl hnext⟩
    show Histories next.storage
    rw [hsame]
    exact hstored
  rw [hread]
  dsimp only
  rw [if_neg hdegraded]
  have htaken := htakes hdegraded haccess hreadAccess hgetItem
  cases hwrite : browser.persist (trim maxEvents
      ((storedRoom journal.storage entry.roomId).events ++ [entry])) with
  | ok kept =>
    obtain ⟨htried, hfits⟩ := persist_ok hwrite
    refine ⟨_, rfl, histories_written hstored rfl htaken htried hfits, h.open fun hheld => ?_⟩
    rw [h.durable entry.roomId hdegraded] at hheld
    exact absurd rfl hheld
  | error error =>
    obtain ⟨⟨last, hlast⟩, hrefused⟩ := persist_error hwrite
    obtain ⟨reason, hreason⟩ := exists_described (hprintable.setItem last) hlast
    dsimp only
    rw [hreason]
    -- No record went in, so the entry comes next behind what is stored.
    have hbehind (hheld : (storedRoom journal.storage entry.roomId).events ≠ []) :
        entry.roomSeq = (storedRoom journal.storage entry.roomId).lastSeq + 1 := by
      by_contra hgap
      obtain ⟨⟨kept, htried, hfits⟩, -⟩ := htaken hheld hgap
      exact hrefused kept htried hfits
    have hwhole : Contiguous entry.roomId
        ⟨(storedRoom journal.storage entry.roomId).events ++ [entry], entry.roomSeq⟩ :=
      (hstored entry.roomId).append rfl hbehind
    exact ⟨_, rfl, hstored, h.degrade hdegraded hwhole⟩

theorem reset_spec (hstored : Histories journal.storage) (h : Remembers cursors journal.memory)
    (hprintable : browser.Printable) (roomId : String) :
    ∃ next, journal.reset browser roomId = (true, next) ∧ Histories next.storage ∧
      Remembers (Function.update cursors roomId (some 0)) next.memory := by
  have hforgotten := h.reset roomId
  unfold LocalJournal.reset
  dsimp only
  rcases exists_storage hprintable.access with haccess | ⟨reason, haccess⟩
  swap
  · rw [haccess]
    exact ⟨_, rfl, hstored, hforgotten⟩
  rw [haccess, storage_available]
  dsimp only
  cases browser.removeItem with
  | none =>
    refine ⟨_, rfl, ?_, hforgotten⟩
    intro other
    rw [storedRoom_delete]
    split
    · exact contiguous_empty other
    · exact hstored other
  | some _ =>
    dsimp only
    cases hwrite : browser.setItem [] with
    | none =>
      refine ⟨_, rfl, ?_, hforgotten⟩
      intro other
      rw [storedRoom_set]
      split
      · split
        · exact contiguous_empty other
        · exact contiguous_empty other
      · exact hstored other
    | some error =>
      obtain ⟨reason, hreason⟩ := exists_described (hprintable.setItem []) hwrite
      dsimp only
      rw [hreason]
      refine ⟨_, rfl, hstored, ?_⟩
      by_cases hdegraded : roomId ∈ (journal.memory.reset roomId).degraded
      · have hsame : (journal.memory.reset roomId).degrade roomId [] reason =
            journal.memory.reset roomId := if_pos hdegraded
        show Remembers _ ((journal.memory.reset roomId).degrade roomId [] reason)
        rw [hsame]
        exact hforgotten
      · have hgiven : Remembers (Function.update (Function.update cursors roomId (some 0)) roomId
            (some 0)) ((journal.memory.reset roomId).degrade roomId [] reason) :=
          hforgotten.degrade hdegraded (contiguous_empty roomId)
        rw [Function.update_idem] at hgiven
        exact hgiven

end Calls

/-! ## Tabs -/

/-- The records have no holes, every tab remembers what it may, and no call threw. -/
structure Whole (origin : Origin) : Prop where
  stored : Histories origin.storage
  tabs : ∀ tab, Remembers (origin.tabs tab).cursors (origin.tabs tab).memory
  quiet : origin.thrown = false

/-- The browser describes what it throws, and an entry that is committed to a record is taken by the
store. -/
structure Origin.Allows (maxEvents : Nat → Option Nat) (origin : Origin) (event : TabEvent) : Prop where
  printable : event.browser.Printable
  takes : ∀ entry, event.act = .apply entry →
    entry.roomId ∉ (origin.tabs event.tab).memory.degraded → event.browser.access = .available →
    event.browser.readAccess = .available → event.browser.getItem = none →
    event.browser.Takes (maxEvents event.tab) (storedRoom origin.storage entry.roomId) entry

/-- Every step of a run is allowed where it is taken. -/
def Origin.AllowsRun (maxEvents : Nat → Option Nat) : Origin → List TabEvent → Prop
  | _, [] => True
  | origin, event :: events =>
    origin.Allows maxEvents event ∧ AllowsRun maxEvents (origin.step maxEvents event) events

section Tabs

variable {maxEvents : Nat → Option Nat} {origin : Origin} {event : TabEvent}

theorem whole_initial : Whole Origin.initial :=
  ⟨contiguous_empty, fun _ => remembers_initial _, rfl⟩

theorem Whole.moved (h : Whole origin) (tab : Nat) {journal : LocalJournal}
    {cursors : String → Option Nat} (hstored : Histories journal.storage)
    (hmemory : Remembers cursors journal.memory) : Whole (origin.moved tab journal cursors) := by
  refine ⟨hstored, ?_, h.quiet⟩
  intro other
  unfold Origin.moved
  dsimp only
  by_cases heq : other = tab
  · rw [heq, Function.update_self]
    exact hmemory
  · rw [Function.update_of_ne heq]
    exact h.tabs other

theorem whole_step (h : Whole origin) (hallows : origin.Allows maxEvents event) :
    Whole (origin.step maxEvents event) := by
  obtain ⟨tab, browser, act⟩ := event
  have hstored : Histories (origin.journal tab).storage := h.stored
  have hmemory : Remembers (origin.tabs tab).cursors (origin.journal tab).memory := h.tabs tab
  have hprintable : browser.Printable := hallows.printable
  unfold Origin.step
  cases act with
  | look roomId =>
    dsimp only
    cases (origin.tabs tab).cursors roomId with
    | some cursor => exact h
    | none =>
      obtain ⟨held, next, hload, -, hsame, hnext⟩ := load_spec hstored hmemory hprintable roomId
      dsimp only
      rw [hload]
      refine h.moved tab ?_ hnext
      rw [hsame]
      exact hstored
  | apply entry =>
    dsimp only
    split
    swap
    · exact h
    next hplace =>
    obtain ⟨cursor, hcursor, hnext⟩ := Option.map_eq_some_iff.mp hplace
    obtain ⟨next, hcommit, hwritten, hheld⟩ := commit_spec hstored hmemory hprintable hcursor
      hnext.symm (hallows.takes entry rfl)
    rw [hcommit]
    exact h.moved tab hwritten hheld
  | discard roomId =>
    dsimp only
    cases (origin.tabs tab).cursors roomId with
    | none => exact h
    | some cursor =>
      obtain ⟨next, hreset, hwritten, hheld⟩ := reset_spec hstored hmemory hprintable roomId
      dsimp only
      rw [hreset]
      exact h.moved tab hwritten hheld
  | leave roomId =>
    refine h.moved tab hstored (hmemory.forget ?_)
    intro other cursor hcursor
    by_cases heq : other = roomId
    · rw [heq, Function.update_self] at hcursor
      cases hcursor
    · rw [Function.update_of_ne heq] at hcursor
      exact hcursor
  | reload => exact h.moved tab hstored (remembers_initial _)

theorem whole_run {events : List TabEvent} (h : Whole origin)
    (hallows : origin.AllowsRun maxEvents events) : Whole (origin.run maxEvents events) := by
  induction events generalizing origin with
  | nil => exact h
  | cons event events ih => exact ih (whole_step h hallows.1) hallows.2

/-- Whatever tabs that share their records did, what a tab loads of a room has no holes, so that every
position from the first one held up to the cursor is there, and no call of a journal threw. -/
theorem loaded_without_holes (maxEvents : Nat → Option Nat) (events : List TabEvent)
    (hallows : Origin.initial.AllowsRun maxEvents events) :
    (Origin.initial.run maxEvents events).thrown = false ∧
      ∀ (tab : Nat) (browser : Browser) (roomId : String), browser.Printable →
        ∃ held, (((Origin.initial.run maxEvents events).journal tab).load browser roomId).1 = some held ∧
          Contiguous roomId held ∧ ∀ entry ∈ held.events, ∀ position, entry.roomSeq ≤ position →
            position ≤ held.lastSeq → ∃ other ∈ held.events, other.roomSeq = position := by
  have hwhole : Whole (Origin.initial.run maxEvents events) := whole_run whole_initial hallows
  refine ⟨hwhole.quiet, ?_⟩
  intro tab browser roomId hprintable
  have hstored : Histories ((Origin.initial.run maxEvents events).journal tab).storage := hwhole.stored
  obtain ⟨held, next, hload, hheld, -⟩ := load_spec hstored (hwhole.tabs tab) hprintable roomId
  refine ⟨held, congrArg Prod.fst hload, hheld, ?_⟩
  intro entry hentry position hfrom hto
  exact hheld.holds_between hentry hfrom hto

end Tabs

/-! ## Clients -/

section Clients

variable {browser : Browser} {journal : LocalJournal}

theorem readDurable_answers (hprintable : browser.Printable) (journal : LocalJournal)
    (roomId : String) : ∃ held next, journal.readDurable browser roomId = (some held, next) := by
  unfold LocalJournal.readDurable
  rcases exists_storage hprintable.readAccess with haccess | ⟨reason, haccess⟩
  swap
  · rw [haccess]
    exact ⟨_, _, rfl⟩
  rw [haccess, storage_available]
  dsimp only
  cases hread : browser.getItem with
  | none => exact ⟨_, _, rfl⟩
  | some error =>
    obtain ⟨reason, hreason⟩ := exists_described hprintable.getItem hread
    dsimp only
    rw [hreason]
    exact ⟨_, _, rfl⟩

theorem load_answers (hprintable : browser.Printable) (journal : LocalJournal) (roomId : String) :
    ∃ held next, journal.load browser roomId = (some held, next) := by
  unfold LocalJournal.load
  split
  · exact ⟨_, _, rfl⟩
  · exact readDurable_answers hprintable journal roomId

theorem commit_answers (hprintable : browser.Printable) (journal : LocalJournal)
    (maxEvents : Option Nat) (roomId : String) (entry : RoomEntry) (lastSeq : Nat) :
    (journal.commit browser maxEvents roomId entry lastSeq).1 = true := by
  unfold LocalJournal.commit
  rcases exists_storage hprintable.access with haccess | ⟨reason, haccess⟩
  swap
  · rw [haccess]
  rw [haccess, storage_available]
  dsimp only
  split
  · rfl
  obtain ⟨held, next, hread⟩ := readDurable_answers hprintable journal roomId
  rw [hread]
  dsimp only
  split
  · rfl
  cases hwrite : browser.persist (trim maxEvents (held.events ++ [entry])) with
  | ok kept => rfl
  | error error =>
    obtain ⟨⟨last, hlast⟩, -⟩ := persist_error hwrite
    obtain ⟨reason, hreason⟩ := exists_described (hprintable.setItem last) hlast
    dsimp only
    rw [hreason]

theorem reset_answers (hprintable : browser.Printable) (journal : LocalJournal) (roomId : String) :
    (journal.reset browser roomId).1 = true := by
  unfold LocalJournal.reset
  dsimp only
  rcases exists_storage hprintable.access with haccess | ⟨reason, haccess⟩
  swap
  · rw [haccess]
  rw [haccess, storage_available]
  dsimp only
  cases browser.removeItem with
  | none => rfl
  | some _ =>
    dsimp only
    cases hwrite : browser.setItem [] with
    | none => rfl
    | some error =>
      obtain ⟨reason, hreason⟩ := exists_described (hprintable.setItem []) hwrite
      dsimp only
      rw [hreason]

/-- A tab of an origin runs a client: the same records, the same memory and the same cursors. -/
structure Origin.Runs (origin : Origin) (tab : Nat) (all : Timelines CalledJournal) : Prop where
  storage : origin.storage = all.store.journal.storage
  tab : origin.tabs tab = ⟨fun roomId => (all.rooms roomId).map Prod.snd, all.store.journal.memory⟩

theorem runs_moved (origin : Origin) (tab : Nat) (store : CalledJournal)
    (rooms : String → Option (List Envelope × Nat)) (roomId : String)
    (timeline : Option (List Envelope × Nat)) :
    (origin.moved tab store.journal (Function.update (fun roomId => (rooms roomId).map Prod.snd) roomId
      (timeline.map Prod.snd))).Runs tab ⟨store, Function.update rooms roomId timeline⟩ := by
  refine ⟨rfl, ?_⟩
  unfold Origin.moved
  dsimp only
  rw [Function.update_self]
  congr 1
  funext other
  by_cases heq : other = roomId
  · rw [heq, Function.update_self, Function.update_self]
  · rw [Function.update_of_ne heq, Function.update_of_ne heq]

/-- Every move of a client that keeps its rooms in the local storage is a step of its tab. -/
theorem move_is_tab_step {maxEvents : Nat → Option Nat} {origin : Origin} {tab : Nat}
    {options : ClientOptions CalledJournal} {carried : RoomEntry → Prop}
    {discarded : String → Nat → Prop} {all next : Timelines CalledJournal} {browsers : Nat → Browser}
    (hjournal : options.journal = localStorageJournal browsers (maxEvents tab))
    (hprintable : ∀ call, (browsers call).Printable) (hruns : origin.Runs tab all)
    (hmove : Move options carried discarded all next) :
    ∃ act, (origin.step maxEvents ⟨tab, browsers all.store.calls, act⟩).Runs tab next := by
  have hown : origin.journal tab = all.store.journal := by
    unfold Origin.journal
    rw [hruns.storage, hruns.tab]
  cases hmove with
  | load roomId habsent =>
    obtain ⟨held, later, hload⟩ := load_answers (hprintable all.store.calls) all.store.journal roomId
    have hstep : origin.step maxEvents ⟨tab, browsers all.store.calls, .look roomId⟩ =
        origin.moved tab later (Function.update (fun roomId => (all.rooms roomId).map Prod.snd) roomId
          (some held.lastSeq)) := by
      unfold Origin.step
      dsimp only
      rw [hown, hruns.tab]
      dsimp only
      rw [habsent, hload]
      rfl
    have hcall : options.journal.load all.store roomId =
        (held, ⟨later, all.store.calls + 1, all.store.answers ++ [(roomId, held)]⟩) := by
      rw [hjournal]
      unfold localStorageJournal
      dsimp only
      rw [hload]
      rfl
    refine ⟨.look roomId, ?_⟩
    rw [hstep, hcall]
    exact runs_moved origin tab ⟨later, all.store.calls + 1, all.store.answers ++ [(roomId, held)]⟩
      all.rooms roomId (some held.timeline)
  | apply entry events lastSeq hroom hposition hcarried =>
    have hcommits := commit_answers (hprintable all.store.calls) all.store.journal (maxEvents tab)
      entry.roomId entry entry.roomSeq
    have hstep : origin.step maxEvents ⟨tab, browsers all.store.calls, .apply entry⟩ =
        origin.moved tab (all.store.journal.commit (browsers all.store.calls) (maxEvents tab)
          entry.roomId entry entry.roomSeq).2 (Function.update (fun roomId =>
            (all.rooms roomId).map Prod.snd) entry.roomId (some entry.roomSeq)) := by
      unfold Origin.step
      dsimp only
      rw [hown, hruns.tab]
      dsimp only
      have hplace : ((all.rooms entry.roomId).map Prod.snd).map (· + 1) = some entry.roomSeq := by
        rw [hroom, hposition]
        rfl
      rw [if_pos hplace]
      generalize all.store.journal.commit (browsers all.store.calls) (maxEvents tab) entry.roomId entry
        entry.roomSeq = outcome at hcommits
      obtain ⟨answered, later⟩ := outcome
      obtain rfl : answered = true := hcommits
      rfl
    refine ⟨.apply entry, ?_⟩
    rw [hstep, hjournal]
    exact runs_moved origin tab ((localStorageJournal browsers (maxEvents tab)).commit all.store
      entry.roomId entry entry.roomSeq) all.rooms entry.roomId
      (some (events ++ entry.shown.toList, entry.roomSeq))
  | discard roomId events lastSeq hroom hpast =>
    have hresets := reset_answers (hprintable all.store.calls) all.store.journal roomId
    have hstep : origin.step maxEvents ⟨tab, browsers all.store.calls, .discard roomId⟩ =
        origin.moved tab (all.store.journal.reset (browsers all.store.calls) roomId).2
          (Function.update (fun roomId => (all.rooms roomId).map Prod.snd) roomId (some 0)) := by
      unfold Origin.step
      dsimp only
      rw [hown, hruns.tab]
      dsimp only
      rw [hroom]
      generalize all.store.journal.reset (browsers all.store.calls) roomId = outcome at hresets
      obtain ⟨answered, later⟩ := outcome
      obtain rfl : answered = true := hresets
      rfl
    refine ⟨.discard roomId, ?_⟩
    rw [hstep, hjournal]
    exact runs_moved origin tab ((localStorageJournal browsers (maxEvents tab)).reset all.store roomId)
      all.rooms roomId (some ([], 0))
  | leave roomId =>
    refine ⟨.leave roomId, ?_⟩
    have hstep : origin.step maxEvents ⟨tab, browsers all.store.calls, .leave roomId⟩ =
        origin.moved tab all.store.journal (Function.update (fun roomId =>
          (all.rooms roomId).map Prod.snd) roomId none) := by
      unfold Origin.step
      dsimp only
      rw [hown, hruns.tab]
    rw [hstep]
    exact runs_moved origin tab all.store all.rooms roomId none

theorem moves_are_tab_steps {maxEvents : Nat → Option Nat} {origin : Origin} {tab : Nat}
    {options : ClientOptions CalledJournal} {carried : RoomEntry → Prop}
    {discarded : String → Nat → Prop} {all next : Timelines CalledJournal} {browsers : Nat → Browser}
    (hjournal : options.journal = localStorageJournal browsers (maxEvents tab))
    (hprintable : ∀ call, (browsers call).Printable) (hruns : origin.Runs tab all)
    (hmoves : Moves options carried discarded all next) :
    ∃ events : List TabEvent, (∀ event ∈ events, event.tab = tab) ∧
      (origin.run maxEvents events).Runs tab next := by
  induction hmoves with
  | refl => exact ⟨[], by rintro _ ⟨⟩, hruns⟩
  | @tail mid _ _ hmove ih =>
    obtain ⟨events, htab, hmid⟩ := ih
    obtain ⟨act, hnext⟩ := move_is_tab_step hjournal hprintable hmid hmove
    refine ⟨events ++ [⟨tab, browsers mid.store.calls, act⟩], ?_, ?_⟩
    · intro event hevent
      rcases List.mem_append.mp hevent with hold | hnew
      · exact htab event hold
      · rw [List.mem_singleton.mp hnew]
    · unfold Origin.run at hnext ⊢
      rw [List.foldl_append]
      exact hnext

/-- A client that keeps its rooms in the local storage is a tab of its origin, whatever it does: any
run of its steps is a run of calls of one tab, which ends with the same records, the same memory and
the same cursors. -/
theorem client_runs_as_tab {maxEvents : Nat → Option Nat} {origin : Origin} {tab : Nat}
    {options : ClientOptions CalledJournal} {client : Client CalledJournal} {browsers : Nat → Browser}
    (hjournal : options.journal = localStorageJournal browsers (maxEvents tab))
    (hprintable : ∀ call, (browsers call).Printable) (hruns : origin.Runs tab client.timelines)
    (steps : List Client.Step) :
    ∃ events : List TabEvent, (∀ event ∈ events, event.tab = tab) ∧
      (origin.run maxEvents events).Runs tab (client.run options steps).timelines := by
  induction steps generalizing client origin with
  | nil => exact ⟨[], by rintro _ ⟨⟩, hruns⟩
  | cons taken rest ih =>
    obtain ⟨first, hfirst, hmid⟩ :=
      moves_are_tab_steps hjournal hprintable hruns (moves_step client taken)
    obtain ⟨more, hmore, hlast⟩ := ih hmid
    refine ⟨first ++ more, ?_, ?_⟩
    · intro event hevent
      exact (List.mem_append.mp hevent).elim (hfirst event) (hmore event)
    · unfold Origin.run at hlast ⊢
      rw [List.foldl_append]
      exact hlast

end Clients

/-! ### Two tabs of one room -/

def commits (tab position : Nat) : TabEvent := ⟨tab, .healthy, .apply (shownRow position [])⟩

def opens (tab : Nat) : TabEvent := ⟨tab, .healthy, .look "room"⟩

/-- The second tab resumes what the first one wrote and goes ahead of it by one row. -/
def inTurn : List TabEvent := [opens 0, commits 0 1, opens 1, commits 1 2, commits 0 2]

theorem printable_healthy : Browser.healthy.Printable := by
  refine ⟨?_, ?_, ?_, fun kept => ?_⟩
  · rintro ⟨⟩
  · rintro ⟨⟩
  · rintro ⟨⟩
  · rintro ⟨⟩

/-- A client joins a room over an empty storage, applies a page of two rows, and discards them when the
server says that its head is 1. -/
def joinedAndReset : List Client.Step :=
  [.join "room", .frame (.catchup {
      roomId := "room"
      first := 1
      last := 2
      head := 2
      more := false
      entries := [some (shownRow 1 []), some (shownRow 2 [])]
      sameRoom := by simp [shownRow, RoomEntry.roomId] }) 0,
    .frame (.subscribed "room" 1 0 []) 0]

theorem joining_client_runs_as_tab : ∃ events : List TabEvent,
    (∀ event ∈ events, event.tab = 0) ∧ (Origin.initial.run (fun _ => none) events).Runs 0
      ((Client.initial CalledJournal.initial).run
        ⟨"ada", localStorageJournal (fun _ => .healthy) none, none, 3, true⟩
          joinedAndReset).timelines :=
  client_runs_as_tab (rfl : _ = localStorageJournal (fun _ => .healthy) ((fun _ => none) 0))
    (fun _ => printable_healthy) ⟨rfl, rfl⟩ joinedAndReset

/-- The record that ends with the same row twice is read as none. -/
theorem in_turn_without_holes :
    ∃ held, (((Origin.initial.run (fun _ => none) inTurn).journal 2).load .healthy "room").1 = some held ∧
      Contiguous "room" held ∧ ∀ entry ∈ held.events, ∀ position, entry.roomSeq ≤ position →
        position ≤ held.lastSeq → ∃ other ∈ held.events, other.roomSeq = position := by
  refine (loaded_without_holes (fun _ => none) inTurn ?_).2 2 .healthy "room" printable_healthy
  refine ⟨⟨printable_healthy, ?_⟩, ⟨printable_healthy, ?_⟩, ⟨printable_healthy, ?_⟩,
    ⟨printable_healthy, ?_⟩, ⟨printable_healthy, ?_⟩, trivial⟩
  · rintro entry ⟨⟩
  · rintro entry ⟨⟩ - - - - hheld
    exact absurd rfl hheld
  · rintro entry ⟨⟩
  · rintro entry ⟨⟩ - - - - - hgap
    exact absurd (by decide +kernel) hgap
  · rintro entry ⟨⟩ - - - - - -
    exact ⟨⟨_, .first _, rfl⟩, Or.inl (by decide +kernel)⟩

/-- The first tab commits three rows while the second one, which was opened before, comes after it:
its first row spoils the record, its second row starts a new one, and the first tab goes on behind it. -/
def outrun : List TabEvent :=
  [opens 0, opens 1, commits 0 1, commits 0 2, commits 0 3, commits 1 1, commits 1 2, commits 0 4]

/-- The page that is opened next resumes at the fourth row without the third one. -/
theorem outrun_leaves_hole :
    ∃ held, (((Origin.initial.run (fun _ => none) outrun).journal 2).load .healthy "room").1 = some held ∧
      held.lastSeq = 4 ∧ shownRow 2 [] ∈ held.events ∧
      (∀ entry ∈ held.events, entry.roomSeq ≠ 3) ∧ ¬ Contiguous "room" held := by
  have hload : (((Origin.initial.run (fun _ => none) outrun).journal 2).load .healthy "room").1 =
      some ⟨[shownRow 2 [], shownRow 4 []], 4⟩ := by decide +kernel
  refine ⟨_, hload, rfl, List.mem_cons_self, by decide, ?_⟩
  intro hheld
  obtain ⟨first, hrun, -⟩ := hheld.run
  have hpositions : [2, 4] = [first, first + 1] := hrun
  simp only [List.cons.injEq, and_true] at hpositions
  omega

end Web
