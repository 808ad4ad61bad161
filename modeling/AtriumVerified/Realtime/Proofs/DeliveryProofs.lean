import AtriumVerified.Lib.Runs
import AtriumVerified.Realtime.Proofs.SubscribeProofs

/-!
# Proofs: what a client shows behind its sockets

However appends, broadcasts, suspended handlers, sockets and the client interleave, everything that
is on its way to the client stands in the ledger. So a run of the whole system is, for the client, a
run over entries of the ledger as it stands in the end.
-/

namespace Realtime

open Web

variable {σ : Type} {options : ClientOptions σ} {store : σ} {system next : System σ}

/-- What the client has taken in, and what is on its way to it, stands in the ledger. -/
structure Sourced (options : ClientOptions σ) (store : σ) (system : System σ) : Prop where
  taken : ∃ steps, system.client = (Client.initial store).run options steps ∧
    ∀ taken ∈ steps, ∀ entry, taken.Carries entry → system.ledgers.Holds entry
  framed : ∀ connection, ∀ frame ∈ (system.connections connection).frames,
    ∀ entry ∈ frame.entries, system.ledgers.Holds entry
  paged : ∀ task ∈ system.tasks, ∀ page, task.handling = .pageRead page →
    ∀ entry, some entry ∈ page.entries → system.ledgers.Holds entry

theorem sourced_start (ledgers : Ledgers) : Sourced options store (System.start ledgers store) where
  taken := ⟨[], rfl, by rintro _ ⟨⟩⟩
  framed := by rintro _ _ ⟨⟩
  paged := by rintro _ ⟨⟩

/-! ## One part changes -/

theorem Sourced.step_client (h : Sourced options store system) (taken : Client.Step)
    (hcarries : ∀ entry, taken.Carries entry → system.ledgers.Holds entry) :
    Sourced options store { system with client := system.client.step options taken } := by
  obtain ⟨steps, hclient, hdrawn⟩ := h.taken
  refine ⟨⟨steps ++ [taken], ?_, ?_⟩, h.framed, h.paged⟩
  · unfold Client.run at hclient ⊢
    rw [List.foldl_append, ← hclient]
    rfl
  · intro other hother
    rcases List.mem_append.mp hother with hold | hnew
    · exact hdrawn other hold
    · rw [List.mem_singleton.mp hnew]
      exact hcarries

theorem Sourced.step_own (h : Sourced options store system) (taken : Client.Step)
    (htaken : ∀ frame now, taken ≠ .frame frame now) :
    Sourced options store { system with client := system.client.step options taken } := by
  refine h.step_client taken ?_
  rintro entry ⟨frame, now, hframe, -⟩
  exact absurd hframe (htaken frame now)

theorem Sourced.append {entry : RoomEntry} (h : Sourced options store system)
    (hnext : entry.roomSeq = (system.ledgers.rows entry.roomId).length + 1) :
    Sourced options store { system with ledgers := appendRow system.ledgers entry hnext } := by
  obtain ⟨steps, hclient, hdrawn⟩ := h.taken
  refine ⟨⟨steps, hclient, ?_⟩, ?_, ?_⟩
  · intro taken htaken carried hcarried
    exact holds_appendRow hnext (hdrawn taken htaken carried hcarried)
  · intro connection frame hframe carried hcarried
    exact holds_appendRow hnext (h.framed connection frame hframe carried hcarried)
  · intro task htask page hpage carried hcarried
    exact holds_appendRow hnext (h.paged task htask page hpage carried hcarried)

/-- Sockets that bring no other frames are free to change. -/
theorem Sourced.connections {connections : Nat → Connection} {opened receiving : List Nat}
    (h : Sourced options store system)
    (hframes : ∀ connection, ∀ frame ∈ (connections connection).frames,
      frame ∈ (system.connections connection).frames) :
    Sourced options store { system with connections, opened, receiving } :=
  ⟨h.taken, fun connection frame hframe => h.framed connection frame (hframes connection frame hframe),
    h.paged⟩

theorem Sourced.setConnection {connection : Nat} {change : Connection → Connection}
    (h : Sourced options store system)
    (hframes : ∀ held frame, frame ∈ (change held).frames → frame ∈ held.frames) :
    Sourced options store (system.setConnection connection change) := by
  refine h.connections fun other frame hframe => ?_
  split at hframe
  · exact hframes _ frame hframe
  · exact hframe

theorem Sourced.send {connection : Nat} {frame : ServerFrame} (h : Sourced options store system)
    (hheld : ∀ entry ∈ frame.entries, system.ledgers.Holds entry) :
    Sourced options store (system.send connection frame) := by
  refine ⟨h.taken, ?_, h.paged⟩
  intro other sent hsent
  rw [send_connections] at hsent
  split at hsent
  · rcases List.mem_append.mp hsent with hold | hnew
    · exact h.framed other sent hold
    · rw [List.mem_singleton.mp hnew]
      exact hheld
  · exact h.framed other sent hsent

theorem Sourced.tasks {tasks : List Task} (h : Sourced options store system)
    (htasks : ∀ task ∈ tasks, task ∈ system.tasks ∨ ∀ page, task.handling = .pageRead page →
      ∀ entry, some entry ∈ page.entries → system.ledgers.Holds entry) :
    Sourced options store { system with tasks } := by
  refine ⟨h.taken, h.framed, ?_⟩
  intro task htask
  rcases htasks task htask with hold | hnew
  · exact h.paged task hold
  · exact hnew

/-- A handler that starts has read no page. -/
theorem Sourced.begin {task : Task} (h : Sourced options store system)
    (hpage : ∀ page, task.handling ≠ .pageRead page) :
    Sourced options store { system with tasks := system.tasks ++ [task] } := by
  refine h.tasks fun other hother => ?_
  rcases List.mem_append.mp hother with hold | hnew
  · exact .inl hold
  · rw [List.mem_singleton.mp hnew]
    exact .inr fun page hread => absurd hread (hpage page)

theorem Sourced.advance {index : Nat} {resume : Handling → Option Handling}
    (h : Sourced options store system) (hstep : system.advance index resume = some next)
    (hresume : ∀ old page, resume old = some (.pageRead page) →
      ∀ entry, some entry ∈ page.entries → system.ledgers.Holds entry) :
    Sourced options store next := by
  obtain ⟨task, handling, -, hhandling, rfl⟩ := advance_some hstep
  refine h.tasks fun other hother => ?_
  rcases List.mem_or_eq_of_mem_set hother with hold | rfl
  · exact .inl hold
  · refine .inr fun page hpage => ?_
    obtain rfl : handling = .pageRead page := hpage
    exact hresume task.handling page hhandling

theorem Sourced.finish {index : Nat} (h : Sourced options store system) :
    Sourced options store { system with tasks := system.tasks.eraseIdx index } :=
  h.tasks fun _ hother => .inl (List.mem_of_mem_eraseIdx hother)

/-! ## One event -/

theorem sourced_step {event : Event} (h : Sourced options store system)
    (hstep : system.step options event = some next) : Sourced options store next := by
  cases event with
  | client taken =>
    dsimp only [System.step] at hstep
    split at hstep
    · next hown =>
      cases hstep
      refine h.step_own taken ?_
      rintro frame now rfl
      cases hown
    · cases hstep
  | opened socket =>
    dsimp only [System.step] at hstep
    split at hstep
    · cases hstep
      have hclient := h.step_own (.opened socket) (by rintro frame now ⟨⟩)
      refine hclient.connections fun other frame hframe => ?_
      dsimp only at hframe
      split at hframe
      · exact hframe
      · exact hframe
    · cases hstep
  | closed socket =>
    cases hstep
    exact (h.step_own (.closed socket) (by rintro frame now ⟨⟩)).connections fun _ _ hframe => hframe
  | close =>
    have hclient := h.step_own .close (by rintro frame now ⟨⟩)
    unfold System.step at hstep
    cases hsocket : system.client.socket with
    | none =>
      rw [hsocket] at hstep
      cases hstep
      exact hclient
    | some socket =>
      rw [hsocket] at hstep
      cases hstep
      exact hclient.connections fun _ _ hframe => hframe
  | append entry =>
    dsimp only [System.step] at hstep
    split at hstep
    · next hnext =>
      cases hstep
      exact h.append hnext
    · cases hstep
  | subscribe connection roomId =>
    dsimp only [System.step] at hstep
    split at hstep
    · cases hstep
      exact h.begin (by rintro _ ⟨⟩)
    · cases hstep
  | since connection roomId roomSeq limit =>
    dsimp only [System.step] at hstep
    split at hstep
    · cases hstep
      exact h.begin (by rintro _ ⟨⟩)
    · cases hstep
  | unsubscribe connection roomId =>
    cases hstep
    refine Sourced.send (h.setConnection fun _ _ hframe => hframe) ?_
    rintro _ ⟨⟩
  | dropped connection =>
    cases hstep
    refine h.setConnection ?_
    exact fun _ _ hframe => hframe
  | admitted index seenSeq =>
    dsimp only [System.step] at hstep
    split at hstep
    · cases hstep
      refine Sourced.setConnection (h.tasks fun task htask => ?_) fun _ _ hframe => hframe
      rcases List.mem_or_eq_of_mem_set htask with hold | rfl
      · exact .inl hold
      · exact .inr (by rintro _ ⟨⟩)
    · cases hstep
  | progressRead index progress =>
    unfold System.step at hstep
    refine h.advance hstep fun old page hresume => ?_
    split at hresume
    · cases hresume
    · cases hresume
  | headRead index =>
    unfold System.step at hstep
    refine h.advance hstep fun old page hresume => ?_
    split at hresume
    · cases hresume
    · cases hresume
  | pageRead index =>
    unfold System.step at hstep
    refine h.advance hstep fun old page hresume => ?_
    split at hresume
    · cases hresume
      exact fun entry => holds_catchUpPage
    · cases hresume
  | replied index =>
    dsimp only [System.step] at hstep
    obtain ⟨task, htask, hstep⟩ := Option.bind_eq_some_iff.mp hstep
    obtain ⟨frame, hframe, hstep⟩ := Option.bind_eq_some_iff.mp hstep
    cases hstep
    refine h.finish.send fun entry hentry => ?_
    unfold System.reply at hframe
    split at hframe
    · cases hframe
      cases hentry
    · next page hpage =>
      cases hframe
      obtain ⟨row, hrow, hsame⟩ := List.mem_filterMap.mp hentry
      exact h.paged task (List.mem_of_getElem? htask) page hpage entry (hsame ▸ hrow)
    · cases hframe
  | failed index message =>
    dsimp only [System.step] at hstep
    obtain ⟨task, -, hstep⟩ := Option.bind_eq_some_iff.mp hstep
    cases hstep
    exact h.finish.send (by rintro _ ⟨⟩)
  | broadcast connection entry =>
    dsimp only [System.step] at hstep
    split at hstep
    · next hheld =>
      cases hstep
      refine h.send fun carried hcarried => ?_
      obtain rfl : carried = entry := by
        cases entry with
        | event envelope => exact List.mem_singleton.mp hcarried
        | tombstone row => exact List.mem_singleton.mp hcarried
      exact hheld.1
    · cases hstep
  | told connection frame =>
    dsimp only [System.step] at hstep
    split at hstep
    · next hquiet =>
      cases hstep
      have hempty : frame.entries = [] := List.isEmpty_iff.mp (Bool.and_eq_true_iff.mp hquiet).1
      refine h.send ?_
      rw [hempty]
      rintro _ ⟨⟩
    · cases hstep
  | deliver connection now =>
    dsimp only [System.step] at hstep
    split at hstep
    · cases hstep
    · next frame rest hframes =>
      split at hstep
      · cases hstep
        have hheld := h.framed connection frame (hframes ▸ List.mem_cons_self)
        refine Sourced.connections (h.step_client (.frame frame now) ?_) fun other sent hsent => ?_
        · rintro entry ⟨other, at_, hframe, hentry⟩
          cases hframe
          exact hheld entry hentry
        · dsimp only at hsent ⊢
          split at hsent
          · next hsame =>
            rw [hsame, hframes]
            exact List.mem_cons_of_mem _ hsent
          · exact hsent
      · cases hstep

/-! ## Runs -/

/-- At every moment of every run of a client and a server, over any order of appends, broadcasts,
suspended handlers, deliveries and lost sockets, each room that the client looks at shows a prefix of
the room's ledger as it stands then. -/
theorem timeline_agrees_behind_sockets (ledgers : Ledgers) (userId : String)
    (catchUpPageSize : Option Nat) (maxStalledCatchups : Nat) (reconnect : Bool)
    (events : List Event) :
    let options := memoryOptions userId catchUpPageSize maxStalledCatchups reconnect
    Runs.Throughout (System.step options)
      (fun system => ∀ roomId, ShowsPrefix (system.ledgers.rows roomId)
        (system.client.view options roomId).1 (heldRoom system.client.store roomId))
      (System.start ledgers Js.Map.empty) events := by
  have hallowed : Runs.Allowed
      (System.step (memoryOptions userId catchUpPageSize maxStalledCatchups reconnect))
      (fun _ _ => True) (System.start ledgers Js.Map.empty) events :=
    Runs.allowed_of_forall fun _ _ _ => trivial
  refine (hallowed.throughout (sourced_start ledgers) fun h _ => sourced_step h).imp ?_
  intro system h roomId
  obtain ⟨steps, hclient, hdrawn⟩ := h.taken
  refine showsPrefix_view rfl ?_ roomId
  rw [hclient]
  exact prefixes_run rfl hdrawn (prefixes_initial system.ledgers)

end Realtime
