import AtriumVerified.Realtime.Proofs.SubscribeProofs

/-!
# Proofs: an honest history is kept

A run in which no entry overtakes a reply keeps the invariant, and under it no `subscribed` frame finds
the cursor past its head. The hub admits a subscriber before its head is read, so a run in which an
entry does overtake the reply loses the history: the last section has one.
-/

namespace Realtime

open Web

variable {σ : Type} {options : ClientOptions σ}

section Invariant

variable {bounded : Bounded options.journal} {system next : System σ}

/-! ## Replies -/

theorem mem_unsentHeads {connection head : Nat} {roomId : String} :
    head ∈ system.unsentHeads connection roomId ↔ ∃ seenSeq progress,
      ⟨connection, .headRead roomId seenSeq progress head⟩ ∈ system.tasks := by
  unfold System.unsentHeads
  rw [List.mem_filterMap]
  constructor
  · rintro ⟨⟨owner, handling⟩, hmem, hhead⟩
    cases handling with
    | headRead other seenSeq progress found =>
      dsimp only at hhead
      split at hhead
      · next hsame =>
        obtain ⟨rfl, rfl⟩ := hsame
        cases hhead
        exact ⟨seenSeq, progress, hmem⟩
      · cases hhead
    | _ => cases hhead
  · rintro ⟨seenSeq, progress, hmem⟩
    exact ⟨_, hmem, if_pos ⟨rfl, rfl⟩⟩

theorem mem_sentHeads {connection head : Nat} {roomId : String} :
    head ∈ system.sentHeads connection roomId ↔ ∃ seenSeq progress,
      ServerFrame.subscribed roomId head seenSeq progress ∈
        (system.connections connection).frames := by
  unfold System.sentHeads
  rw [List.mem_filterMap]
  constructor
  · rintro ⟨frame, hmem, hhead⟩
    cases frame with
    | subscribed other found seenSeq progress =>
      dsimp only at hhead
      split at hhead
      · next hsame =>
        cases hsame
        cases hhead
        exact ⟨seenSeq, progress, hmem⟩
      · cases hhead
    | _ => cases hhead
  · rintro ⟨seenSeq, progress, hmem⟩
    exact ⟨_, hmem, if_pos rfl⟩

theorem passes_of_not_overtakes {connection : Nat} {frame : ServerFrame}
    (h : ∀ entry ∈ frame.entries, system.overtakes connection entry = false) :
    Passes system connection frame := by
  intro entry hentry other hother seenSeq progress head hdue
  have hnone := h entry hentry
  unfold System.overtakes at hnone
  have hheads := List.any_eq_false.mp hnone other hother
  refine Nat.le_of_not_lt fun hlt => hheads (List.any_eq_true.mpr ⟨head, ?_, decide_eq_true hlt⟩)
  rw [List.mem_append]
  rcases hdue with htask | ⟨hne, hsent⟩
  · exact Or.inl (mem_unsentHeads.mpr ⟨seenSeq, progress, htask⟩)
  · rw [if_neg hne]
    exact Or.inr (mem_sentHeads.mpr ⟨seenSeq, progress, hsent⟩)

theorem calm_eraseIdx (index : Nat) :
    Calm bounded system { system with tasks := system.tasks.eraseIdx index } :=
  calm_tasks fun _ hmem => Or.inl (List.mem_of_mem_eraseIdx hmem)

theorem Ordered.page {index connection : Nat} {page : CatchupPage} (h : Ordered bounded system)
    (htask : system.tasks[index]? = some ⟨connection, .pageRead page⟩)
    (horderly : ((page.entries.filterMap id).all
      fun entry => !system.overtakes connection entry) = true) :
    Ordered bounded ({ system with tasks := system.tasks.eraseIdx index }.send connection
      (.catchup page)) := by
  have hpasses : Passes system connection (.catchup page) := by
    refine passes_of_not_overtakes fun entry hentry => ?_
    have hentry := List.all_eq_true.mp horderly entry hentry
    rw [Bool.not_eq_true'] at hentry
    exact hentry
  refine (h.calm (calm_eraseIdx index)).send ?_ ?_ ?_
  · intro entry hentry
    obtain ⟨found, hfound, rfl⟩ := List.mem_filterMap.mp hentry
    exact h.paged _ (List.mem_of_getElem? htask) page rfl entry hfound
  · intro entry hentry other hother seenSeq progress head hdue
    refine hpasses entry hentry other hother seenSeq progress head ?_
    rcases hdue with hmem | hsent
    · exact Or.inl (List.mem_of_mem_eraseIdx hmem)
    · exact Or.inr hsent
  · rintro roomId head seenSeq progress ⟨⟩

theorem Ordered.subscribed {index connection head seenSeq : Nat} {roomId : String}
    {progress : List (String × Nat)} (h : Ordered bounded system)
    (htask : system.tasks[index]? = some ⟨connection, .headRead roomId seenSeq progress head⟩) :
    Ordered bounded ({ system with tasks := system.tasks.eraseIdx index }.send connection
      (.subscribed roomId head seenSeq progress)) := by
  refine (h.calm (calm_eraseIdx index)).send ?_ ?_ ?_
  · rintro entry ⟨⟩
  · rintro entry ⟨⟩
  · rintro other found seen snapshots hsame hreceiving
    cases hsame
    have hpromised := h.due connection hreceiving roomId head _
      (.unsent (List.mem_of_getElem? htask))
    exact ⟨hpromised.within, hpromised.before, hpromised.others⟩

/-! ## Runs -/

theorem within_step {client : Client σ} (taken : Client.Step)
    (htaken : ∀ frame now, taken ≠ .frame frame now) (roomId : String) (n : Nat)
    (h : Within bounded client.timelines roomId n) :
    Within bounded (client.step options taken).timelines roomId n :=
  within_quiet (moves_step client taken)
    (fun _ ⟨frame, now, hframe, _⟩ => htaken frame now hframe) roomId n h

theorem calm_client {client : Client σ}
    (hclient : ∀ roomId n, Within bounded system.client.timelines roomId n →
      Within bounded client.timelines roomId n) :
    Calm bounded system { system with client } :=
  ⟨rfl, rfl, fun _ h => h, fun _ => rfl, fun _ h => h, hclient, fun _ h => Or.inl h⟩

theorem calm_stopReceiving (socket : Nat) : Calm bounded system (system.stopReceiving socket) :=
  ⟨rfl, rfl, fun _ h => List.mem_of_mem_filter h, fun _ => rfl, fun _ h => h, fun _ _ h => h,
    fun _ h => Or.inl h⟩

theorem calm_start {connection : Nat} {handling : Handling}
    (hlive : (system.connections connection).live = true)
    (hunread : ∀ roomId seenSeq progress head,
      handling ≠ .headRead roomId seenSeq progress head)
    (hpage : ∀ page, handling ≠ .pageRead page) :
    Calm bounded system { system with tasks := system.tasks ++ [⟨connection, handling⟩] } := by
  refine calm_tasks fun task hmem => ?_
  rcases List.mem_append.mp hmem with hold | hnew
  · exact Or.inl hold
  · rw [List.mem_singleton.mp hnew]
    exact Or.inr ⟨Or.inl hlive, hunread, fun page hread => absurd hread (hpage page)⟩

/-- One event, one case each. -/
theorem ordered_step {event : Event} (h : Ordered bounded system)
    (horderly : system.orderly event = true) (hstep : system.step options event = some next) :
    Ordered bounded next := by
  cases event with
  | client taken =>
    dsimp only [System.step] at hstep
    split at hstep
    · next hown =>
      cases hstep
      refine h.calm (calm_client (within_step taken ?_))
      rintro frame now rfl
      cases hown
    · cases hstep
  | opened socket =>
    dsimp only [System.step] at hstep
    split at hstep
    · next hsocket =>
      cases hstep
      exact h.opened hsocket.2 (within_step (.opened socket) (by rintro frame now ⟨⟩))
    · cases hstep
  | closed socket =>
    cases hstep
    have hclient := h.calm (calm_client (within_step (.closed socket) (by rintro frame now ⟨⟩)))
    exact hclient.calm (calm_stopReceiving socket)
  | close =>
    have hclient := h.calm (calm_client (within_step .close (by rintro frame now ⟨⟩)))
    unfold System.step at hstep
    cases hsocket : system.client.socket with
    | none =>
      rw [hsocket] at hstep
      cases hstep
      exact hclient
    | some socket =>
      rw [hsocket] at hstep
      cases hstep
      exact hclient.calm (calm_stopReceiving socket)
  | append entry =>
    dsimp only [System.step] at hstep
    split at hstep
    · next hnext =>
      cases hstep
      exact h.append hnext
    · cases hstep
  | subscribe connection roomId =>
    dsimp only [System.step] at hstep
    split at hstep
    · next hasked =>
      cases hstep
      exact h.calm (calm_start hasked.1 (by rintro _ _ _ _ ⟨⟩) (by rintro _ ⟨⟩))
    · cases hstep
  | since connection roomId roomSeq limit =>
    dsimp only [System.step] at hstep
    split at hstep
    · next hasked =>
      cases hstep
      exact h.calm (calm_start hasked.1 (by rintro _ _ _ _ ⟨⟩) (by rintro _ ⟨⟩))
    · cases hstep
  | unsubscribe connection roomId =>
    dsimp only [System.step] at hstep
    cases hstep
    have hquiet : quiet (.unsubscribed roomId) = true := rfl
    refine (h.calm ?_).send_quiet hquiet
    exact calm_connection (fun _ => rfl) fun _ hlive => hlive
  | dropped connection =>
    cases hstep
    exact h.calm (calm_connection (fun _ => rfl) (by rintro _ ⟨⟩))
  | admitted index seenSeq =>
    dsimp only [System.step] at hstep
    split at hstep
    · next connection roomId htask =>
      cases hstep
      have hjoined : ∀ task ∈ system.tasks.set index ⟨connection, .joined roomId seenSeq⟩,
          task ∈ system.tasks ∨ Started system task := by
        intro task hmem
        rcases List.mem_or_eq_of_mem_set hmem with hold | rfl
        · exact Or.inl hold
        · exact Or.inr ⟨Or.inr ⟨_, List.mem_of_getElem? htask, rfl⟩, by rintro _ _ _ _ ⟨⟩,
            by rintro _ ⟨⟩⟩
      exact (h.calm (calm_tasks hjoined)).calm
        (calm_connection (fun _ => rfl) fun _ hlive => hlive)
    · cases hstep
  | progressRead index progress =>
    unfold System.step at hstep
    refine h.advance hstep fun old handling hresume => ?_
    split at hresume
    · cases hresume
      exact ⟨by rintro _ _ _ _ ⟨⟩, by rintro _ ⟨⟩⟩
    · cases hresume
  | headRead index =>
    unfold System.step at hstep
    obtain ⟨⟨connection, old⟩, handling, htask, hresume, rfl⟩ := advance_some hstep
    dsimp only at hresume
    split at hresume
    · cases hresume
      exact h.headRead ⟨_, htask, rfl⟩
    · cases hresume
  | pageRead index =>
    unfold System.step at hstep
    refine h.advance hstep fun old handling hresume => ?_
    split at hresume
    · cases hresume
      refine ⟨by rintro _ _ _ _ ⟨⟩, ?_⟩
      rintro page ⟨⟩ entry hentry
      exact holds_catchUpPage hentry
    · cases hresume
  | replied index =>
    dsimp only [System.step] at hstep
    cases htask : system.tasks[index]? with
    | none => simp [htask] at hstep
    | some task =>
      obtain ⟨connection, handling⟩ := task
      cases handling with
      | headRead roomId seenSeq progress head =>
        simp only [htask, System.reply, Option.bind_eq_bind, Option.bind_some, Option.pure_def,
          Option.some.injEq] at hstep
        rw [← hstep]
        exact h.subscribed htask
      | pageRead page =>
        simp only [htask, System.reply, Option.bind_eq_bind, Option.bind_some, Option.pure_def,
          Option.some.injEq] at hstep
        rw [← hstep]
        dsimp only [System.orderly] at horderly
        rw [htask] at horderly
        exact h.page htask horderly
      | _ => simp [htask, System.reply] at hstep
  | failed index message =>
    dsimp only [System.step] at hstep
    cases htask : system.tasks[index]? with
    | none => simp [htask] at hstep
    | some task =>
      simp only [htask, Option.bind_eq_bind, Option.bind_some, Option.pure_def,
        Option.some.injEq] at hstep
      rw [← hstep]
      exact (h.calm (calm_eraseIdx index)).send_quiet rfl
  | broadcast connection entry =>
    dsimp only [System.step] at hstep
    split at hstep
    · next hheld =>
      cases hstep
      have hcarried : (liveFrame entry).entries = [entry] := by
        cases entry with
        | event envelope => rfl
        | tombstone row => rfl
      refine h.send ?_ (passes_of_not_overtakes ?_) ?_
      · rw [hcarried]
        intro carried hmem
        rw [List.mem_singleton.mp hmem]
        exact hheld.1
      · rw [hcarried]
        intro carried hmem
        rw [List.mem_singleton.mp hmem]
        dsimp only [System.orderly] at horderly
        rw [Bool.not_eq_true'] at horderly
        exact horderly
      · intro roomId head seenSeq progress hreply
        cases entry with
        | event envelope => cases hreply
        | tombstone row => cases hreply
    · cases hstep
  | told connection frame =>
    dsimp only [System.step] at hstep
    split at hstep
    · next hquiet =>
      cases hstep
      exact h.send_quiet hquiet
    · cases hstep
  | deliver connection now =>
    dsimp only [System.step] at hstep
    split at hstep
    · cases hstep
    · next frame rest hframes =>
      split at hstep
      · next hreceiving =>
        cases hstep
        exact h.deliver hreceiving hframes
      · cases hstep

theorem Ordered.keeps (h : Ordered bounded system) (event : Event) :
    system.discards options event = false := by
  cases event with
  | deliver connection now =>
    unfold System.discards
    refine Bool.eq_false_iff.mpr fun hdiscards => ?_
    obtain ⟨hreceiving, hfront⟩ := Bool.and_eq_true_iff.mp hdiscards
    split at hfront
    · next roomId head seenSeq progress rest hframes =>
      have hpromised := h.due connection (List.contains_iff_mem.mp hreceiving) roomId head []
        (.sent hframes)
      have hcursor : (system.client.view options roomId).1.lastSeq ≤ head :=
        lastSeq_le_of_within hpromised.within
      exact absurd (of_decide_eq_true hfront) (Nat.not_lt.mpr hcursor)
    · cases hfront
  | _ => rfl

theorem ordered_along {events : List Event} (h : Ordered bounded system)
    (horderly : system.along options System.orderly events = true) :
    system.along options (fun system event => !system.discards options event) events = true := by
  induction events generalizing system with
  | nil => rfl
  | cons event rest ih =>
    unfold System.along at horderly ⊢
    obtain ⟨hevent, hrest⟩ := Bool.and_eq_true_iff.mp horderly
    rw [h.keeps event, Bool.not_false, Bool.true_and]
    cases hstep : system.step options event with
    | none => rfl
    | some next =>
      rw [hstep] at hrest
      exact ih (ordered_step h hevent hstep) hrest

/-- In a run in which no entry overtakes a reply, a client whose journal is not past the ledger never
throws a history away. -/
theorem orderly_run_keeps_history (bounded : Bounded options.journal) (ledgers : Ledgers) (store : σ)
    (events : List Event)
    (hhonest : ∀ roomId, bounded.cursor store roomId ≤ head (ledgers.rows roomId))
    (horderly : (System.start ledgers store).along options System.orderly events = true) :
    (System.start ledgers store).along options
      (fun system event => !system.discards options event) events = true :=
  ordered_along (ordered_start hhonest) horderly

end Invariant

/-! ## An entry that is broadcast while a head is read -/

/-- A memory journal returns no position past those it was given. -/
def boundedMemory (userId : String) (catchUpPageSize : Option Nat) (maxStalledCatchups : Nat)
    (reconnect : Bool) :
    Bounded (memoryOptions userId catchUpPageSize maxStalledCatchups reconnect).journal where
  cursor store roomId := (heldRoom store roomId).lastSeq
  load store roomId := by
    have hload : (memoryRoom store roomId).1.lastSeq ≤ (heldRoom store roomId).lastSeq := by
      rw [memoryRoom_fst]
    exact hload
  loaded store roomId other := by
    have hloaded : (heldRoom (memoryRoom store roomId).2 other).lastSeq ≤
        (heldRoom store other).lastSeq := by
      rw [heldRoom_memoryRoom]
    exact hloaded
  committed store roomId entry lastSeq other := by
    have hcommitted : (heldRoom (memoryJournal.commit store roomId entry lastSeq) other).lastSeq ≤
        if other = roomId then max (heldRoom store other).lastSeq lastSeq
        else (heldRoom store other).lastSeq := by
      rw [heldRoom_commit]
      split
      · next hsame => rw [hsame]
      · exact le_rfl
    exact hcommitted
  emptied store roomId other := by
    have hemptied : (heldRoom (memoryJournal.reset store roomId) other).lastSeq ≤
        (heldRoom store other).lastSeq := by
      rw [heldRoom_reset]
      split
      · exact Nat.zero_le _
      · exact le_rfl
    exact hemptied

def emptyLedgers : Ledgers := ⟨fun _ => [], by rintro _ _ _ ⟨⟩⟩

/-- Alice joins a room, and the server reads its head. -/
def headIsRead : List Event :=
  [.client .connect, .client .attach, .opened 0, .client (.join "room"), .subscribe 0 "room",
    .admitted 0 0, .progressRead 0 [], .headRead 0]

/-- The head is sent and received, and then a row is appended. -/
def repliedFirst : List Event :=
  headIsRead ++ [Event.replied 0, Event.deliver 0 0, Event.append (shownRow 1 []),
    Event.broadcast 0 (shownRow 1 []), Event.deliver 0 1]

/-- A row is appended and broadcast before the head is sent. -/
def broadcastFirst : List Event :=
  headIsRead ++ [Event.append (shownRow 1 []), Event.broadcast 0 (shownRow 1 []),
    Event.replied 0, Event.deliver 0 0, Event.deliver 0 1]

theorem replied_first_keeps_history :
    (System.start emptyLedgers Js.Map.empty).along (memoryOptions "alice" none 8 true)
      (fun system event => !system.discards (memoryOptions "alice" none 8 true) event)
      repliedFirst = true := by
  have horderly : (System.start emptyLedgers Js.Map.empty).along (memoryOptions "alice" none 8 true)
      System.orderly repliedFirst = true := by
    decide
  exact orderly_run_keeps_history (boundedMemory "alice" none 8 true) emptyLedgers Js.Map.empty
    repliedFirst (fun _ => Nat.zero_le _) horderly

/-- Every event of the run can happen, the client starts with nothing, and its history is thrown
away. -/
theorem broadcast_first_discards_history :
    (System.start emptyLedgers Js.Map.empty).along (memoryOptions "alice" none 8 true)
        (fun system event => (system.step (memoryOptions "alice" none 8 true) event).isSome)
        broadcastFirst = true ∧
      (System.start emptyLedgers Js.Map.empty).along (memoryOptions "alice" none 8 true)
        (fun system event => !system.discards (memoryOptions "alice" none 8 true) event)
        broadcastFirst = false := by
  constructor
  · decide
  · decide

end Realtime
