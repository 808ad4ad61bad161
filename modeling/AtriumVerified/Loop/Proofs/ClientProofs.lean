import Mathlib.Tactic.IntervalCases
import AtriumVerified.Loop.Client

/-!
# Proofs: what the client of the loop delivers

The client hands over the events of the ledger in their order, each of them once, and stops at the
first position whose row was refused or could not be read: such a row never reaches the map of
waiting events, and the cursor only moves to the next position.
-/

namespace Loop

open Core

/-! ## The ledger -/

section Ledger

variable {ledger : Ledger} {entry : WireEntry} {event : WireEvent} {n : Nat}

theorem Ledger.getElem?_of_mem (h : entry ∈ ledger.rows) :
    ledger.rows[entry.roomSeq - 1]? = some entry ∧ 1 ≤ entry.roomSeq := by
  obtain ⟨i, hi⟩ := List.getElem?_of_mem h
  have hposition := ledger.contiguous i entry hi
  rw [hposition]
  exact ⟨hi, by omega⟩

theorem Ledger.take_succ (h : entry ∈ ledger.rows) (hposition : entry.roomSeq = n + 1) :
    ledger.rows.take (n + 1) = ledger.rows.take n ++ [entry] := by
  have hrow := (ledger.getElem?_of_mem h).1
  rw [hposition, Nat.add_sub_cancel] at hrow
  rw [List.take_add_one, hrow]
  rfl

theorem WireEntry.delivered_event (h : event.issues = []) :
    (WireEntry.event event).delivered = some event :=
  if_pos h

theorem WireEntry.clean_event : (WireEntry.event event).Clean ↔ event.issues = [] := by
  unfold WireEntry.Clean WireEntry.delivered
  by_cases h : event.issues = []
  · simp [h]
  · simp [h]

end Ledger

/-! ## The invariant -/

structure Deliverable (ledger : Ledger) (n : Nat) (event : WireEvent) : Prop where
  row : .event event ∈ ledger.rows
  accepted : event.issues = []
  bound : event.roomSeq ≤ n

/-- What the cursor, the map and the calls of a client are to the ledger, whether or not the process
is still there. -/
structure Sound (ledger : Ledger) (n : Nat) (client : Client) : Prop where
  handler : client.handler = true
  clean : ∀ entry ∈ ledger.rows.take client.deliveredThrough, entry.Clean
  bound : client.deliveredThrough ≤ n
  pending : ∀ position event, client.pending.get position = some event →
    event.roomSeq = position ∧ Deliverable ledger n event
  running : ∀ event, client.running = some event →
    event.roomSeq = client.deliveredThrough + 1 ∧ Deliverable ledger n event
  stopped : client.crashed = true → client.running = none
  fault : client.crashed = true → ∃ entry ∈ ledger.rows, entry.roomSeq ≤ n ∧ ¬ entry.Clean

/-- What has arrived is delivered, is being delivered, or waits. -/
def Held (client : Client) (position : Nat) : Prop :=
  position ≤ client.deliveredThrough ∨ client.running.map WireEvent.roomSeq = some position ∨
    (client.pending.get position).isSome = true

/-- A client that is there: its calls are the delivered events and the one that runs, and nothing
that could be delivered waits while it idles. -/
structure Alive (ledger : Ledger) (arrived : Nat → Prop) (client : Client) : Prop where
  calls : client.calls = ledger.deliverable client.deliveredThrough ++ client.running.toList
  idle : client.running = none → client.pending.get (client.deliveredThrough + 1) = none
  held : ∀ position, arrived position → Held client position

def Tracks (ledger : Ledger) (n : Nat) (arrived : Nat → Prop) (client : Client) : Prop :=
  Sound ledger n client ∧ (client.crashed = false → Alive ledger arrived client)

/-! ## One step -/

section Step

variable {ledger : Ledger} {n : Nat} {arrived : Nat → Prop} {client other : Client}

/-- Only these fields matter. -/
theorem Tracks.of_same (h : Tracks ledger n arrived client)
    (hhandler : other.handler = client.handler)
    (hdelivered : other.deliveredThrough = client.deliveredThrough)
    (hpending : other.pending = client.pending) (hrunning : other.running = client.running)
    (hcalls : other.calls = client.calls) (hcrashed : other.crashed = client.crashed) :
    Tracks ledger n arrived other := by
  obtain ⟨hsound, halive⟩ := h
  refine ⟨⟨?_, ?_, ?_, ?_, ?_, ?_, ?_⟩, ?_⟩
  · rw [hhandler]
    exact hsound.handler
  · rw [hdelivered]
    exact hsound.clean
  · rw [hdelivered]
    exact hsound.bound
  · rw [hpending]
    exact hsound.pending
  · rw [hrunning, hdelivered]
    exact hsound.running
  · rw [hcrashed, hrunning]
    exact hsound.stopped
  · rw [hcrashed]
    exact hsound.fault
  · intro hup
    rw [hcrashed] at hup
    have hthere := halive hup
    refine ⟨?_, ?_, ?_⟩
    · rw [hcalls, hdelivered, hrunning]
      exact hthere.calls
    · rw [hrunning, hpending, hdelivered]
      exact hthere.idle
    · unfold Held
      rw [hdelivered, hrunning, hpending]
      exact hthere.held

theorem Tracks.mono (h : Tracks ledger n arrived client) {arrived' : Nat → Prop}
    (himp : ∀ position, arrived' position → arrived position) : Tracks ledger n arrived' client := by
  refine ⟨h.1, ?_⟩
  intro hup
  have hthere := h.2 hup
  exact ⟨hthere.calls, hthere.idle, fun position harrived => hthere.held position (himp _ harrived)⟩

/-- A client between two turns of `pump`: everything up to the cursor was handed over. -/
structure Ready (ledger : Ledger) (n : Nat) (arrived : Nat → Prop) (client : Client) : Prop where
  handler : client.handler = true
  clean : ∀ entry ∈ ledger.rows.take client.deliveredThrough, entry.Clean
  bound : client.deliveredThrough ≤ n
  pending : ∀ position event, client.pending.get position = some event →
    event.roomSeq = position ∧ Deliverable ledger n event
  up : client.crashed = false
  calls : client.calls = ledger.deliverable client.deliveredThrough
  held : ∀ position, arrived position →
    position ≤ client.deliveredThrough ∨ (client.pending.get position).isSome = true

theorem crashed_pumpNext (client : Client) : client.pumpNext.crashed = client.crashed := by
  unfold Client.pumpNext
  split <;> rfl

example (client : Client) : client.pumpNext.pumpNext.crashed = client.crashed := by
  simp only [crashed_pumpNext]

theorem crashed_enqueue (client : Client) (event : WireEvent) :
    (client.enqueue event).crashed = client.crashed := by
  unfold Client.enqueue Client.pump
  split
  · rfl
  split
  · rfl
  split
  · rfl
  split
  · rfl
  · exact crashed_pumpNext _

theorem tracks_pumpNext (h : Ready ledger n arrived client) :
    Tracks ledger n arrived client.pumpNext := by
  have hup (hcrashed : client.crashed = true) : False := by
    rw [h.up] at hcrashed
    cases hcrashed
  unfold Client.pumpNext
  cases hnext : client.pending.get (client.deliveredThrough + 1) with
  | none =>
    refine ⟨⟨h.handler, h.clean, h.bound, h.pending, by simp, fun _ => rfl, fun hc => (hup hc).elim⟩,
      fun _ => ⟨?_, ?_, ?_⟩⟩
    · rw [h.calls]
      exact (List.append_nil _).symm
    · exact fun _ => hnext
    · intro position harrived
      rcases h.held position harrived with hdone | hwaits
      · exact Or.inl hdone
      · exact Or.inr (Or.inr hwaits)
  | some next =>
    obtain ⟨hposition, hdeliverable⟩ := h.pending _ _ hnext
    refine ⟨⟨h.handler, h.clean, h.bound, ?_, ?_, fun hc => (hup hc).elim, fun hc => (hup hc).elim⟩,
      fun _ => ⟨?_, ?_, ?_⟩⟩
    · intro position event hget
      dsimp only at hget
      rw [Js.Map.get_delete] at hget
      split at hget
      · cases hget
      · exact h.pending position event hget
    · rintro event ⟨⟩
      exact ⟨hposition, hdeliverable⟩
    · rw [h.calls]
      rfl
    · rintro ⟨⟩
    · intro position harrived
      rcases h.held position harrived with hdone | hwaits
      · exact Or.inl hdone
      · by_cases heq : position = next.roomSeq
        · exact Or.inr (Or.inl (by rw [heq]; rfl))
        · refine Or.inr (Or.inr ?_)
          rw [Js.Map.get_delete, if_neg heq]
          exact hwaits

/-- The handler of an event resolves: its row is the next one of the ledger. -/
theorem tracks_settle (h : Tracks ledger n arrived client) (hup : client.crashed = false) :
    Tracks ledger n arrived client.settle := by
  obtain ⟨hsound, halive⟩ := h
  have hthere := halive hup
  unfold Client.settle
  cases hrunning : client.running with
  | none => exact ⟨hsound, halive⟩
  | some event =>
    obtain ⟨hposition, hdeliverable⟩ := hsound.running event hrunning
    have htake := ledger.take_succ hdeliverable.row hposition
    refine tracks_pumpNext ⟨hsound.handler, ?_, hdeliverable.bound, hsound.pending, hup, ?_, ?_⟩
    · dsimp only
      rw [hposition, htake]
      intro entry hentry
      rcases List.mem_append.mp hentry with hbefore | hlast
      · exact hsound.clean entry hbefore
      · rw [List.mem_singleton.mp hlast]
        exact WireEntry.clean_event.mpr hdeliverable.accepted
    · dsimp only
      rw [hthere.calls, hrunning, hposition]
      unfold Ledger.deliverable
      rw [htake, List.filterMap_append]
      simp [WireEntry.delivered_event hdeliverable.accepted]
    · intro position harrived
      dsimp only
      rcases hthere.held position harrived with hdone | hruns | hwaits
      · exact Or.inl (by omega)
      · rw [hrunning] at hruns
        exact Or.inl (Option.some.inj hruns).ge
      · exact Or.inr hwaits

/-- An event that may be delivered arrives. -/
theorem tracks_enqueue (h : Tracks ledger n arrived client) (hup : client.crashed = false)
    {event : WireEvent} (hrow : .event event ∈ ledger.rows) (hbound : event.roomSeq ≤ n) :
    Tracks ledger n (fun position => arrived position ∨ event.issues = [] ∧ event.roomSeq = position)
      (client.enqueue event) := by
  obtain ⟨hsound, halive⟩ := h
  have hthere := halive hup
  -- What the client leaves alone it holds already.
  have hkept (hheld : event.issues = [] → Held client event.roomSeq) :
      Tracks ledger n (fun position => arrived position ∨ event.issues = [] ∧ event.roomSeq = position)
        client := by
    refine ⟨hsound, fun _ => ⟨hthere.calls, hthere.idle, ?_⟩⟩
    rintro position (harrived | ⟨hissues, rfl⟩)
    · exact hthere.held position harrived
    · exact hheld hissues
  unfold Client.enqueue
  split
  · next hissues => exact hkept fun hnone => absurd hnone hissues
  split
  · next hdone => exact hkept fun _ => Or.inl hdone
  split
  · next hwaits => exact hkept fun _ => Or.inr (Or.inr hwaits)
  next hissues _ _ =>
  have haccepted : event.issues = [] := not_not.mp hissues
  have hpending : ∀ position held, (client.pending.set event.roomSeq event).get position = some held →
      held.roomSeq = position ∧ Deliverable ledger n held := by
    intro position held hget
    rw [Js.Map.get_set] at hget
    split at hget
    · next heq =>
      cases hget
      exact ⟨heq.symm, hrow, haccepted, hbound⟩
    · exact hsound.pending position held hget
  have hwaiting (position : Nat) (hwaits : (client.pending.get position).isSome = true) :
      ((client.pending.set event.roomSeq event).get position).isSome = true := by
    rw [Js.Map.get_set]
    split
    · rfl
    · exact hwaits
  have hnew : ((client.pending.set event.roomSeq event).get event.roomSeq).isSome = true := by
    rw [Js.Map.get_set, if_pos rfl]
    rfl
  obtain hrunning | ⟨current, hrunning⟩ := Option.eq_none_or_eq_some client.running
  · have hpump : { client with pending := client.pending.set event.roomSeq event }.pump =
        { client with pending := client.pending.set event.roomSeq event }.pumpNext :=
      if_neg (by simp [hrunning, hsound.handler])
    rw [hpump]
    refine tracks_pumpNext
      ⟨hsound.handler, hsound.clean, hsound.bound, hpending, hup, ?_, ?_⟩
    · have hcalls := hthere.calls
      rw [hrunning] at hcalls
      simpa using hcalls
    · rintro position (harrived | ⟨-, rfl⟩)
      · rcases hthere.held position harrived with hdone | hruns | hwaits
        · exact Or.inl hdone
        · rw [hrunning] at hruns
          cases hruns
        · exact Or.inr (hwaiting position hwaits)
      · exact Or.inr hnew
  · have hpump : { client with pending := client.pending.set event.roomSeq event }.pump =
        { client with pending := client.pending.set event.roomSeq event } :=
      if_pos (by simp [hrunning])
    rw [hpump]
    refine ⟨⟨hsound.handler, hsound.clean, hsound.bound, hpending, hsound.running, hsound.stopped,
      hsound.fault⟩, fun _ => ⟨hthere.calls, ?_, ?_⟩⟩
    · intro hnone
      exact absurd (hrunning.symm.trans hnone) (by simp)
    · rintro position (harrived | ⟨-, rfl⟩)
      · rcases hthere.held position harrived with hdone | hruns | hwaits
        · exact Or.inl hdone
        · exact Or.inr (Or.inl hruns)
        · exact Or.inr (Or.inr (hwaiting position hwaits))
      · exact Or.inr (Or.inr hnew)

theorem tracks_enqueueAll {events : List WireEvent} (h : Tracks ledger n arrived client)
    (hup : client.crashed = false)
    (hdrawn : ∀ event ∈ events, .event event ∈ ledger.rows ∧ event.roomSeq ≤ n) :
    Tracks ledger n
      (fun position => arrived position ∨ ∃ event ∈ events, event.issues = [] ∧ event.roomSeq = position)
      (events.foldl Client.enqueue client) := by
  induction events generalizing client arrived with
  | nil => exact h.mono (by simp)
  | cons event events ih =>
    obtain ⟨hrow, hbound⟩ := hdrawn event List.mem_cons_self
    have hfirst := tracks_enqueue h hup hrow hbound
    have hrest := ih hfirst (by rw [crashed_enqueue]; exact hup)
      fun later hlater => hdrawn later (List.mem_cons_of_mem _ hlater)
    refine hrest.mono ?_
    rintro position (harrived | ⟨found, hfound, hposition⟩)
    · exact Or.inl (Or.inl harrived)
    · rcases List.mem_cons.mp hfound with rfl | hlater
      · exact Or.inl (Or.inr hposition)
      · exact Or.inr ⟨found, hlater, hposition⟩

theorem tracks_crash (h : Tracks ledger n arrived client) {arrived' : Nat → Prop} {entry : WireEntry}
    (hrow : entry ∈ ledger.rows) (hbound : entry.roomSeq ≤ n) (hfault : ¬ entry.Clean) :
    Tracks ledger n arrived' { client with running := none, crashed := true } := by
  obtain ⟨hsound, -⟩ := h
  exact ⟨⟨hsound.handler, hsound.clean, hsound.bound, hsound.pending, by simp, fun _ => rfl,
    fun _ => ⟨entry, hrow, hbound, hfault⟩⟩, by simp⟩

theorem mapM_asEvent {entries : List WireEntry} {events : List WireEvent}
    (h : entries.mapM WireEntry.asEvent = some events) : entries = events.map WireEntry.event := by
  induction entries generalizing events with
  | nil =>
    cases h
    rfl
  | cons entry entries ih =>
    rw [List.mapM_cons] at h
    simp only [Option.bind_eq_bind, Option.bind_eq_some_iff, Option.pure_def, Option.some.injEq] at h
    obtain ⟨event, hevent, rest, hrest, rfl⟩ := h
    cases entry with
    | event entry =>
      cases hevent
      rw [ih hrest, List.map_cons]
    | tombstone roomId roomSeq seq reason => cases hevent

theorem exists_tombstone {entries : List WireEntry} (h : entries.mapM WireEntry.asEvent = none) :
    ∃ entry ∈ entries, ¬ entry.Clean := by
  induction entries with
  | nil => cases h
  | cons entry entries ih =>
    cases entry with
    | tombstone roomId roomSeq seq reason =>
      exact ⟨_, List.mem_cons_self, fun hclean => hclean rfl⟩
    | event event =>
      rw [List.mapM_cons] at h
      cases hrest : entries.mapM WireEntry.asEvent with
      | none =>
        obtain ⟨entry, hentry, hfault⟩ := ih hrest
        exact ⟨entry, List.mem_cons_of_mem _ hentry, hfault⟩
      | some events =>
        rw [hrest] at h
        cases h

/-- The positions of the rows in a frame that were read and not refused. -/
def Brings (frame : ServerFrame) (position : Nat) : Prop :=
  ∃ entry ∈ frame.entries, entry.Clean ∧ entry.roomSeq = position

theorem tracks_backfilled (h : Tracks ledger n arrived client) (waiter : CatchupWaiter) (last : Nat)
    (more : Bool) : Tracks ledger n arrived (client.backfilled waiter last more) := by
  unfold Client.backfilled
  split
  · exact h.of_same rfl rfl rfl rfl rfl rfl
  split
  · exact h.of_same rfl rfl rfl rfl rfl rfl
  · exact h

theorem tracks_onHead (h : Tracks ledger n arrived client) (roomId : Id) (head : Nat) :
    Tracks ledger n arrived (client.onHead roomId head) := by
  unfold Client.onHead
  dsimp only
  split
  · exact h.of_same rfl rfl rfl rfl rfl rfl
  · exact h.of_same rfl rfl rfl rfl rfl rfl

theorem tracks_onFrame (h : Tracks ledger n arrived client) (hup : client.crashed = false)
    {frame : ServerFrame}
    (hdrawn : ∀ entry ∈ frame.entries, entry ∈ ledger.rows ∧ entry.roomSeq ≤ n) :
    Tracks ledger n (fun position => arrived position ∨ Brings frame position)
      (client.onFrame (parseServerFrame frame)) := by
  have hnothing (hentries : frame.entries = []) : ∀ position,
      arrived position ∨ Brings frame position → arrived position := by
    rintro position (harrived | ⟨entry, hentry, -⟩)
    · exact harrived
    · rw [hentries] at hentry
      cases hentry
  cases frame with
  | welcome userId => exact (h.mono (hnothing rfl)).of_same rfl rfl rfl rfl rfl rfl
  | subscribed roomId head => exact (h.mono (hnothing rfl)).of_same rfl rfl rfl rfl rfl rfl
  | event entry =>
    obtain ⟨hrow, hbound⟩ := hdrawn (.event entry) List.mem_cons_self
    refine (tracks_enqueue h hup hrow hbound).mono ?_
    rintro position (harrived | ⟨found, hfound, hclean, hposition⟩)
    · exact Or.inl harrived
    · obtain rfl := List.mem_singleton.mp hfound
      exact Or.inr ⟨WireEntry.clean_event.mp hclean, hposition⟩
  | tombstone roomId roomSeq seq reason =>
    refine h.mono ?_
    rintro position (harrived | ⟨found, hfound, hclean, -⟩)
    · exact harrived
    · obtain rfl := List.mem_singleton.mp hfound
      exact absurd rfl hclean
  | catchup roomId first last more entries =>
    cases hevents : entries.mapM WireEntry.asEvent with
    | none =>
      have hparse : parseServerFrame (.catchup roomId first last more entries) = .bareCatchup := by
        simp only [parseServerFrame, hevents]
      obtain ⟨entry, hentry, hfault⟩ := exists_tombstone hevents
      obtain ⟨hrow, hbound⟩ := hdrawn entry hentry
      rw [hparse]
      exact tracks_crash h hrow hbound hfault
    | some events =>
      have hparse : parseServerFrame (.catchup roomId first last more entries) =
          .catchup roomId first last more events := by
        simp only [parseServerFrame, hevents]
      rw [hparse]
      obtain rfl := mapM_asEvent hevents
      have hdrawn' : ∀ event ∈ events, .event event ∈ ledger.rows ∧ event.roomSeq ≤ n :=
        fun event hevent => hdrawn (.event event) (List.mem_map_of_mem hevent)
      have hbrought : ∀ position, arrived position ∨
          Brings (.catchup roomId first last more (events.map WireEntry.event)) position →
          arrived position ∨ ∃ event ∈ events, event.issues = [] ∧ event.roomSeq = position := by
        rintro position (harrived | ⟨found, hfound, hclean, hposition⟩)
        · exact Or.inl harrived
        · obtain ⟨event, hevent, rfl⟩ := List.mem_map.mp hfound
          exact Or.inr ⟨event, hevent, WireEntry.clean_event.mp hclean, hposition⟩
      unfold Client.onFrame
      dsimp only
      have hwaiters : Tracks ledger n arrived { client with
          catchupWaiters := client.catchupWaiters.eraseP fun waiter =>
            waiter.roomId == roomId && waiter.first == first } :=
        h.of_same rfl rfl rfl rfl rfl rfl
      have henqueued := (tracks_enqueueAll hwaiters hup hdrawn').mono hbrought
      split
      · exact tracks_backfilled henqueued _ _ _
      · exact henqueued
  | head roomId head => exact tracks_onHead (h.mono (hnothing rfl)) roomId head
  | answer commandId answer => exact (h.mono (hnothing rfl)).of_same rfl rfl rfl rfl rfl rfl
  | other => exact h.mono (hnothing rfl)

end Step

/-! ## Runs -/

section Run

variable {ledger : Ledger} {n : Nat} {arrived : Nat → Prop} {client : Client}

/-- The positions that the frames of a run bring. -/
def Arrived (steps : List Client.Step) (position : Nat) : Prop :=
  ∃ frame, .frame frame ∈ steps ∧ Brings frame position

theorem tracks_step (h : Tracks ledger n arrived client) (taken : Client.Step)
    (hdrawn : ∀ frame, taken = .frame frame →
      ∀ entry ∈ frame.entries, entry ∈ ledger.rows ∧ entry.roomSeq ≤ n) :
    Tracks ledger n
      (fun position => arrived position ∨ ∃ frame, taken = .frame frame ∧ Brings frame position)
      (client.step taken) := by
  unfold Client.step
  cases hcrashed : client.crashed with
  | true =>
    refine ⟨h.1, ?_⟩
    intro hup
    simp only [if_true] at hup
    rw [hcrashed] at hup
    cases hup
  | false =>
    simp only [Bool.false_eq_true, if_false]
    cases taken with
    | frame frame =>
      refine (tracks_onFrame h hcrashed (hdrawn frame rfl)).mono ?_
      rintro position (harrived | ⟨found, heq, hbrings⟩)
      · exact Or.inl harrived
      · cases heq
        exact Or.inr hbrings
    | settle =>
      refine (tracks_settle h hcrashed).mono ?_
      rintro position (harrived | ⟨found, heq, -⟩)
      · exact harrived
      · cases heq

theorem tracks_run {steps : List Client.Step} (h : Tracks ledger n arrived client)
    (hdrawn : ∀ frame, .frame frame ∈ steps →
      ∀ entry ∈ frame.entries, entry ∈ ledger.rows ∧ entry.roomSeq ≤ n) :
    Tracks ledger n (fun position => arrived position ∨ Arrived steps position) (client.run steps) := by
  induction steps generalizing client arrived with
  | nil =>
    refine h.mono ?_
    rintro position (harrived | ⟨frame, hframe, -⟩)
    · exact harrived
    · cases hframe
  | cons taken steps ih =>
    have hfirst := tracks_step h taken fun frame heq =>
      hdrawn frame (by rw [heq]; exact List.mem_cons_self)
    have hrest := ih hfirst fun frame hframe => hdrawn frame (List.mem_cons_of_mem _ hframe)
    refine hrest.mono ?_
    rintro position (harrived | ⟨frame, hframe, hbrings⟩)
    · exact Or.inl (Or.inl harrived)
    · rcases List.mem_cons.mp hframe with heq | hlater
      · exact Or.inl (Or.inr ⟨frame, heq.symm, hbrings⟩)
      · exact Or.inr ⟨frame, hlater, hbrings⟩

/-- How many handlers are left to resolve at most, when one runs. -/
def remaining (client : Client) : Nat :=
  match client.running with
  | none => 0
  | some _ => client.pending.entries.length + 1

theorem remaining_settle (hsound : Sound ledger n client) (hup : client.crashed = false)
    {event : WireEvent} (hrunning : client.running = some event) :
    remaining (client.step .settle) < remaining client := by
  have hbefore : remaining client = client.pending.entries.length + 1 := by
    unfold remaining
    rw [hrunning]
  have hstep : client.step .settle = { client with deliveredThrough := event.roomSeq }.pumpNext := by
    unfold Client.step Client.settle
    simp only [hup, hrunning, Bool.false_eq_true, if_false]
  rw [hstep, hbefore]
  unfold Client.pumpNext
  dsimp only
  split
  · show 0 < _
    omega
  · next next hnext =>
    obtain ⟨hposition, -⟩ := hsound.pending _ _ hnext
    have hfewer := Js.Map.length_delete_lt hnext
    show (client.pending.delete next.roomSeq).entries.length + 1 < _
    rw [hposition]
    omega

/-- Enough resolved handlers leave none that runs. -/
theorem tracks_settles {k : Nat} (h : Tracks ledger n arrived client) (hk : remaining client ≤ k) :
    Tracks ledger n arrived ((fun client : Client => client.step .settle)^[k] client) ∧
      ((fun client : Client => client.step .settle)^[k] client).running = none := by
  induction k generalizing client with
  | zero =>
    refine ⟨h, ?_⟩
    unfold remaining at hk
    split at hk
    · assumption
    · omega
  | succ k ih =>
    have hstep : Tracks ledger n arrived (client.step .settle) :=
      (tracks_step h .settle (by simp)).mono fun _ => Or.inl
    refine ih hstep ?_
    show remaining (client.step .settle) ≤ k
    obtain hrunning | ⟨event, hrunning⟩ := Option.eq_none_or_eq_some client.running
    · have hsame : client.step .settle = client := by
        unfold Client.step Client.settle
        simp [hrunning]
      rw [hsame]
      unfold remaining
      rw [hrunning]
      exact Nat.zero_le k
    · have hup : client.crashed = false := by
        rw [Bool.eq_false_iff]
        intro hcrashed
        rw [h.1.stopped hcrashed] at hrunning
        cases hrunning
      have hless := remaining_settle h.1 hup hrunning
      omega

theorem tracks_drain (h : Tracks ledger n arrived client) :
    Tracks ledger n arrived client.drain ∧ client.drain.running = none := by
  refine tracks_settles h ?_
  unfold remaining
  split <;> omega

theorem tracks_initial (ledger : Ledger) (n : Nat) :
    Tracks ledger n (fun _ => False) (Client.initial.setEventHandler 0) := by
  refine ⟨⟨rfl, ?_, Nat.zero_le n, ?_, ?_, ?_, ?_⟩,
    fun _ => ⟨?_, fun _ => rfl, fun _ => False.elim⟩⟩
  · intro entry hentry
    rw [show (Client.initial.setEventHandler 0).deliveredThrough = 0 from rfl, List.take_zero] at hentry
    cases hentry
  · rintro position event ⟨⟩
  · rintro event ⟨⟩
  · rintro ⟨⟩
  · rintro ⟨⟩
  · rfl

end Run

/-! ## Everything is delivered -/

/-- The loop delivers everything up to a position exactly when no row up to it was refused or could
not be read. -/
theorem delivers_iff_clean {ledger : Ledger} {n : Nat} {steps : List Client.Step}
    (h : Carries ledger n steps) :
    DeliversAll ledger n ((Client.initial.setEventHandler 0).run steps).drain ↔
      ∀ entry ∈ ledger.rows.take n, entry.Clean := by
  have hrun := tracks_run (tracks_initial ledger n) h.drawn
  obtain ⟨⟨hsound, halive⟩, hidle⟩ := tracks_drain hrun
  constructor
  · intro hall
    have hclean := hsound.clean
    rw [hall.delivered] at hclean
    exact hclean
  · intro hclean
    have hrow (entry : WireEntry) (hentry : entry ∈ ledger.rows) (hbound : entry.roomSeq ≤ n) :
        entry.Clean := by
      obtain ⟨hget, hpos⟩ := ledger.getElem?_of_mem hentry
      refine hclean entry (List.mem_of_getElem? (i := entry.roomSeq - 1) ?_)
      rw [List.getElem?_take_of_lt (by omega)]
      exact hget
    have hup : ((Client.initial.setEventHandler 0).run steps).drain.crashed = false := by
      rw [Bool.eq_false_iff]
      intro hcrashed
      obtain ⟨entry, hentry, hbound, hfault⟩ := hsound.fault hcrashed
      exact hfault (hrow entry hentry hbound)
    have hthere := halive hup
    -- The position after the cursor has arrived, and an idle client holds nothing at it.
    have hdelivered : ((Client.initial.setEventHandler 0).run steps).drain.deliveredThrough = n := by
      by_contra hne
      have hbound := hsound.bound
      obtain ⟨frame, hframe, entry, hentry, hposition⟩ :=
        h.all (((Client.initial.setEventHandler 0).run steps).drain.deliveredThrough + 1) (by omega)
          (by omega)
      obtain ⟨hmem, hle⟩ := h.drawn frame hframe entry hentry
      have harrived : Arrived steps
          (((Client.initial.setEventHandler 0).run steps).drain.deliveredThrough + 1) :=
        ⟨frame, hframe, entry, hentry, hrow entry hmem hle, hposition⟩
      rcases hthere.held _ (Or.inr harrived) with hdone | hruns | hwaits
      · omega
      · rw [hidle] at hruns
        cases hruns
      · rw [hthere.idle hidle] at hwaits
        cases hwaits
    refine ⟨hidle, ?_, hdelivered⟩
    have hcalls := hthere.calls
    rw [hidle, hdelivered] at hcalls
    simpa using hcalls

/-! ### A room with two rows -/

def postedAt (roomSeq : Nat) (issues : List String) : WireEvent where
  roomId := "room"
  roomSeq := roomSeq
  seq := roomSeq
  actor := .human "alice"
  event := ⟨"e" ++ toString roomSeq, "1970-01-01T00:00:00.000Z", "room",
    .messagePosted ("m" ++ toString roomSeq) "hello" none none none⟩
  issues := issues

/-- Two messages, the first of which the reducer may have refused. -/
def twoRows (issues : List String) : Ledger where
  rows := [.event (postedAt 1 issues), .event (postedAt 2 [])]
  contiguous := by
    intro i entry h
    match i with
    | 0 =>
      cases h
      rfl
    | 1 =>
      cases h
      rfl
    | i + 2 => cases h

/-- The second row arrives first, then a page with both, then the first one again. -/
def shuffledFrames (issues : List String) : List Client.Step :=
  [.frame (.event (postedAt 2 [])),
    .frame (.catchup "room" 0 2 false [.event (postedAt 1 issues), .event (postedAt 2 [])]),
    .settle, .frame (.event (postedAt 1 issues))]

theorem carries_shuffledFrames (issues : List String) :
    Carries (twoRows issues) 2 (shuffledFrames issues) := by
  refine ⟨?_, ?_⟩
  · intro frame hframe entry hentry
    simp only [shuffledFrames, List.mem_cons, Client.Step.frame.injEq, reduceCtorEq, List.not_mem_nil,
      or_false, false_or] at hframe
    rcases hframe with rfl | rfl | rfl
    all_goals simp only [ServerFrame.entries, List.mem_cons, List.not_mem_nil, or_false] at hentry
    · rw [hentry]
      exact ⟨List.mem_cons_of_mem _ List.mem_cons_self, le_refl 2⟩
    · rcases hentry with rfl | rfl
      · exact ⟨List.mem_cons_self, Nat.le_succ 1⟩
      · exact ⟨List.mem_cons_of_mem _ List.mem_cons_self, le_refl 2⟩
    · rw [hentry]
      exact ⟨List.mem_cons_self, Nat.le_succ 1⟩
  · intro position hlow hhigh
    refine ⟨_, List.mem_cons_of_mem _ List.mem_cons_self, ?_⟩
    interval_cases position
    · exact ⟨_, List.mem_cons_self, rfl⟩
    · exact ⟨_, List.mem_cons_of_mem _ List.mem_cons_self, rfl⟩

/-- Both messages are delivered, once and in their order. -/
theorem delivers_twoRows :
    DeliversAll (twoRows []) 2 ((Client.initial.setEventHandler 0).run (shuffledFrames [])).drain :=
  (delivers_iff_clean (carries_shuffledFrames [])).mpr (by decide)

/-- Behind a message that was refused nothing is delivered. -/
theorem stuck_twoRows :
    Carries (twoRows ["unknown room"]) 2 (shuffledFrames ["unknown room"]) ∧
      ¬ DeliversAll (twoRows ["unknown room"]) 2
        ((Client.initial.setEventHandler 0).run (shuffledFrames ["unknown room"])).drain := by
  refine ⟨carries_shuffledFrames _, ?_⟩
  intro hall
  have hstuck : ((Client.initial.setEventHandler 0).run
      (shuffledFrames ["unknown room"])).drain.deliveredThrough = 0 := by
    decide
  rw [hall.delivered] at hstuck
  cases hstuck

end Loop
