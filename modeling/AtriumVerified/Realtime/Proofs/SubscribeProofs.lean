import AtriumVerified.Realtime.Sockets

/-!
# Proofs: replies that are not overtaken

A reply to `subscribe` carries the head its handler read. As long as no entry above that head is sent
in front of it, the cursor of the client is not past the head when the reply arrives, so no history is
thrown away. The invariant says this of every reply from the moment its head is read.
-/

namespace Realtime

open Web Relation

variable {σ : Type} {options : ClientOptions σ}

/-! ## Where a client stands -/

/-- Neither the journal nor an open room is past a position. -/
def Within (bounded : Bounded options.journal) (all : Timelines σ) (roomId : String) (n : Nat) :
    Prop :=
  bounded.cursor all.store roomId ≤ n ∧
    ∀ timeline, all.rooms roomId = some timeline → timeline.2 ≤ n

section Cursor

variable {bounded : Bounded options.journal} {carried : RoomEntry → Prop}
  {discarded : String → Nat → Prop} {all next : Timelines σ} {roomId : String} {n : Nat}

/-- A move takes a room no further than the entry it applies. -/
theorem within_move (hmove : Move options carried discarded all next)
    (hcarried : ∀ entry, carried entry → entry.roomId = roomId → entry.roomSeq ≤ n)
    (h : Within bounded all roomId n) : Within bounded next roomId n := by
  obtain ⟨hstore, hrooms⟩ := h
  cases hmove with
  | load other habsent =>
    refine ⟨le_trans (bounded.loaded all.store other roomId) hstore, ?_⟩
    intro timeline htimeline
    by_cases hroom : roomId = other
    · dsimp only at htimeline
      rw [hroom, Function.update_self] at htimeline
      cases htimeline
      have hload := bounded.load all.store other
      rw [← hroom] at hload
      rw [← hroom]
      exact le_trans hload hstore
    · dsimp only at htimeline
      rw [Function.update_of_ne hroom] at htimeline
      exact hrooms timeline htimeline
  | apply entry events lastSeq hopen hnext hentry =>
    have hcommitted := bounded.committed all.store entry.roomId entry entry.roomSeq roomId
    by_cases hroom : roomId = entry.roomId
    · have hseq : entry.roomSeq ≤ n := hcarried entry hentry hroom.symm
      rw [if_pos hroom] at hcommitted
      refine ⟨le_trans hcommitted (max_le hstore hseq), ?_⟩
      intro timeline htimeline
      dsimp only at htimeline
      rw [hroom, Function.update_self] at htimeline
      cases htimeline
      exact hseq
    · rw [if_neg hroom] at hcommitted
      refine ⟨le_trans hcommitted hstore, ?_⟩
      intro timeline htimeline
      dsimp only at htimeline
      rw [Function.update_of_ne hroom] at htimeline
      exact hrooms timeline htimeline
  | discard other events lastSeq hopen hpast =>
    refine ⟨le_trans (bounded.emptied all.store other roomId) hstore, ?_⟩
    intro timeline htimeline
    by_cases hroom : roomId = other
    · dsimp only at htimeline
      rw [hroom, Function.update_self] at htimeline
      cases htimeline
      exact Nat.zero_le n
    · dsimp only at htimeline
      rw [Function.update_of_ne hroom] at htimeline
      exact hrooms timeline htimeline
  | leave other =>
    refine ⟨hstore, ?_⟩
    intro timeline htimeline
    by_cases hroom : roomId = other
    · dsimp only at htimeline
      rw [hroom, Function.update_self] at htimeline
      cases htimeline
    · dsimp only at htimeline
      rw [Function.update_of_ne hroom] at htimeline
      exact hrooms timeline htimeline

theorem within_moves (hmoves : Moves options carried discarded all next)
    (hcarried : ∀ entry, carried entry → entry.roomId = roomId → entry.roomSeq ≤ n)
    (h : Within bounded all roomId n) : Within bounded next roomId n := by
  induction hmoves with
  | refl => exact h
  | tail _ hmove ih => exact within_move hmove hcarried ih

theorem lastSeq_le_of_within {client : Client σ} (h : Within bounded client.timelines roomId n) :
    (client.view options roomId).1.lastSeq ≤ n := by
  have hmoves : Moves options (fun _ => False) (fun _ _ => False) client.timelines
    (client.view options roomId).2.timelines := moves_view client roomId
  have hview := within_moves hmoves (fun _ => False.elim) h
  exact hview.2 _ (timelines_view client roomId)

theorem Within.mono {m : Nat} (h : Within bounded all roomId n) (hle : n ≤ m) :
    Within bounded all roomId m :=
  ⟨le_trans h.1 hle, fun timeline htimeline => le_trans (h.2 timeline htimeline) hle⟩

end Cursor

/-! ## The ledger -/

section Ledger

variable {ledgers : Ledgers} {roomId : String} {entry : RoomEntry}

theorem le_foldl_max (l : List Nat) (n : Nat) : n ≤ l.foldl max n ∧ ∀ m ∈ l, m ≤ l.foldl max n := by
  induction l generalizing n with
  | nil => simp
  | cons first rest ih =>
    obtain ⟨hstart, hrest⟩ := ih (max n first)
    refine ⟨le_trans (le_max_left n first) hstart, ?_⟩
    intro m hm
    rcases List.mem_cons.mp hm with rfl | hm
    · exact le_trans (le_max_right n m) hstart
    · exact hrest m hm

theorem le_head (h : ledgers.Holds entry) : entry.roomSeq ≤ head (ledgers.rows entry.roomId) :=
  (le_foldl_max _ 0).2 entry.roomSeq (List.mem_map_of_mem h)

theorem holds_appendRow {row : RoomEntry}
    (hnext : row.roomSeq = (ledgers.rows row.roomId).length + 1) (h : ledgers.Holds entry) :
    (appendRow ledgers row hnext).Holds entry := by
  unfold Ledgers.Holds appendRow
  dsimp only
  by_cases hroom : entry.roomId = row.roomId
  · rw [if_pos hroom]
    exact List.mem_append_left _ h
  · rw [if_neg hroom]
    exact h

theorem head_appendRow {row : RoomEntry}
    (hnext : row.roomSeq = (ledgers.rows row.roomId).length + 1) (roomId : String) :
    head (ledgers.rows roomId) ≤ head ((appendRow ledgers row hnext).rows roomId) := by
  unfold appendRow head
  dsimp only
  by_cases hroom : roomId = row.roomId
  · rw [if_pos hroom, List.map_append, List.foldl_append]
    exact (le_foldl_max _ _).1
  · rw [if_neg hroom]

theorem holds_catchUpPage {roomSeq limit : Nat}
    (h : some entry ∈ (catchUpPage ledgers roomId roomSeq limit).entries) : ledgers.Holds entry := by
  obtain ⟨row, hrow, hsame⟩ := List.mem_map.mp h
  cases hsame
  have hmem := (List.mem_filter.mp (List.mem_of_mem_take hrow)).1
  unfold Ledgers.Holds
  rw [roomId_of_mem hmem]
  exact hmem

end Ledger

/-! ## The invariant -/

/-- The entries of a room that some frames carry are not above a position. -/
def Below (frames : List ServerFrame) (roomId : String) (n : Nat) : Prop :=
  ∀ frame ∈ frames, ∀ entry ∈ frame.entries, entry.roomId = roomId → entry.roomSeq ≤ n

/-- A reply whose head was read, with the frames that stand in front of it. -/
inductive Due (system : System σ) (connection : Nat) (roomId : String) (head : Nat) :
    List ServerFrame → Prop
  | unsent {seenSeq : Nat} {progress : List (String × Nat)} :
      ⟨connection, .headRead roomId seenSeq progress head⟩ ∈ system.tasks →
      Due system connection roomId head (system.connections connection).frames
  | sent {seenSeq : Nat} {progress : List (String × Nat)} {before after : List ServerFrame} :
      (system.connections connection).frames =
        before ++ ServerFrame.subscribed roomId head seenSeq progress :: after →
      Due system connection roomId head before

/-- What the head of a reply promises: nothing that may be applied before the reply is above it. -/
structure Promised (bounded : Bounded options.journal) (system : System σ) (connection : Nat)
    (roomId : String) (head : Nat) (before : List ServerFrame) : Prop where
  within : Within bounded system.client.timelines roomId head
  before : Below before roomId head
  others : ∀ other ∈ system.receiving, other ≠ connection →
    Below (system.connections other).frames roomId head

structure Ordered (bounded : Bounded options.journal) (system : System σ) : Prop where
  within : ∀ roomId,
    Within bounded system.client.timelines roomId (head (system.ledgers.rows roomId))
  framed : ∀ connection, ∀ frame ∈ (system.connections connection).frames,
    ∀ entry ∈ frame.entries, system.ledgers.Holds entry
  paged : ∀ task ∈ system.tasks, ∀ page, task.handling = .pageRead page →
    ∀ entry, some entry ∈ page.entries → system.ledgers.Holds entry
  /-- Nothing happens on a socket before it opens. -/
  fresh : ∀ connection, connection ∉ system.opened →
    (system.connections connection).live = false ∧ (system.connections connection).frames = [] ∧
      ∀ task ∈ system.tasks, task.connection ≠ connection
  received : ∀ connection ∈ system.receiving, connection ∈ system.opened
  due : ∀ connection ∈ system.receiving, ∀ roomId head before,
    Due system connection roomId head before →
      Promised bounded system connection roomId head before

section Invariant

variable {bounded : Bounded options.journal} {system next : System σ}

theorem Ordered.below_head (h : Ordered bounded system) (connection : Nat) (roomId : String) :
    Below (system.connections connection).frames roomId (head (system.ledgers.rows roomId)) := by
  intro frame hframe entry hentry hroom
  rw [← hroom]
  exact le_head (h.framed connection frame hframe entry hentry)

theorem ordered_start {ledgers : Ledgers} {store : σ}
    (hhonest : ∀ roomId, bounded.cursor store roomId ≤ head (ledgers.rows roomId)) :
    Ordered bounded (System.start ledgers store) := by
  constructor
  · intro roomId
    exact ⟨hhonest roomId, by rintro timeline ⟨⟩⟩
  · intro connection frame hframe
    cases hframe
  · intro task htask
    cases htask
  · intro connection _
    exact ⟨rfl, rfl, by rintro task ⟨⟩⟩
  · intro connection hconnection
    cases hconnection
  · intro connection hconnection
    cases hconnection

/-! ### Steps that send nothing -/

/-- A handler that was started or went on, and did not read a head. -/
structure Started (system : System σ) (task : Task) : Prop where
  owned : (system.connections task.connection).live = true ∨
    ∃ old ∈ system.tasks, old.connection = task.connection
  unread : ∀ roomId seenSeq progress head, task.handling ≠ .headRead roomId seenSeq progress head
  page : ∀ page, task.handling = .pageRead page →
    ∀ entry, some entry ∈ page.entries → system.ledgers.Holds entry

/-- Nothing is sent, no head is read and nothing is applied. -/
structure Calm (bounded : Bounded options.journal) (system next : System σ) : Prop where
  ledgers : next.ledgers = system.ledgers
  opened : next.opened = system.opened
  receiving : ∀ connection ∈ next.receiving, connection ∈ system.receiving
  frames : ∀ connection,
    (next.connections connection).frames = (system.connections connection).frames
  live : ∀ connection, (next.connections connection).live = true →
    (system.connections connection).live = true
  client : ∀ roomId n, Within bounded system.client.timelines roomId n →
    Within bounded next.client.timelines roomId n
  tasks : ∀ task ∈ next.tasks, task ∈ system.tasks ∨ Started system task

theorem Calm.due (h : Calm bounded system next) {connection head : Nat} {roomId : String}
    {before : List ServerFrame} (hdue : Due next connection roomId head before) :
    Due system connection roomId head before := by
  cases hdue with
  | unsent htask =>
    rw [h.frames connection]
    rcases h.tasks _ htask with hold | hstarted
    · exact .unsent hold
    · exact absurd rfl (hstarted.unread _ _ _ _)
  | sent hframes =>
    rw [h.frames connection] at hframes
    exact .sent hframes

theorem Ordered.calm (h : Ordered bounded system) (hcalm : Calm bounded system next) :
    Ordered bounded next := by
  constructor
  · intro roomId
    rw [hcalm.ledgers]
    exact hcalm.client _ _ (h.within roomId)
  · intro connection frame hframe
    rw [hcalm.frames connection] at hframe
    rw [hcalm.ledgers]
    exact h.framed connection frame hframe
  · intro task htask
    rw [hcalm.ledgers]
    rcases hcalm.tasks task htask with hold | hstarted
    · exact h.paged task hold
    · exact hstarted.page
  · intro connection hconnection
    rw [hcalm.opened] at hconnection
    obtain ⟨hlive, hframes, htasks⟩ := h.fresh connection hconnection
    refine ⟨?_, by rw [hcalm.frames, hframes], ?_⟩
    · refine Bool.eq_false_iff.mpr fun hnext => ?_
      rw [hcalm.live connection hnext] at hlive
      cases hlive
    · intro task htask hsame
      rcases hcalm.tasks task htask with hold | hstarted
      · exact htasks task hold hsame
      · rcases hstarted.owned with howner | ⟨old, hold, hconn⟩
        · rw [hsame, hlive] at howner
          cases howner
        · exact htasks old hold (hconn.trans hsame)
  · intro connection hconnection
    rw [hcalm.opened]
    exact h.received connection (hcalm.receiving connection hconnection)
  · intro connection hconnection roomId head before hdue
    have hpromised := h.due connection (hcalm.receiving connection hconnection) roomId head before
      (hcalm.due hdue)
    refine ⟨hcalm.client _ _ hpromised.within, hpromised.before, ?_⟩
    intro other hother hne
    rw [hcalm.frames other]
    exact hpromised.others other (hcalm.receiving other hother) hne

theorem calm_tasks {tasks : List Task}
    (h : ∀ task ∈ tasks, task ∈ system.tasks ∨ Started system task) :
    Calm bounded system { system with tasks } where
  ledgers := rfl
  opened := rfl
  receiving _ hconnection := hconnection
  frames _ := rfl
  live _ hlive := hlive
  client _ _ hwithin := hwithin
  tasks := h

theorem calm_connection {connection : Nat} {change : Connection → Connection}
    (hframes : ∀ held, (change held).frames = held.frames)
    (hlive : ∀ held, (change held).live = true → held.live = true) :
    Calm bounded system (system.setConnection connection change) := by
  refine ⟨rfl, rfl, fun _ h => h, ?_, ?_, fun _ _ h => h, fun _ h => Or.inl h⟩
  · intro other
    unfold System.setConnection
    dsimp only
    split
    · exact hframes _
    · rfl
  · intro other
    unfold System.setConnection
    dsimp only
    split
    · exact hlive _
    · exact id

theorem within_quiet {carried : RoomEntry → Prop} {discarded : String → Nat → Prop}
    {all changed : Timelines σ} (hmoves : Moves options carried discarded all changed)
    (hquiet : ∀ entry, ¬carried entry) (roomId : String) (n : Nat)
    (h : Within bounded all roomId n) : Within bounded changed roomId n :=
  within_moves hmoves (fun entry hentry => absurd hentry (hquiet entry)) h

/-! ### A frame is sent -/

/-- Nothing a frame carries is above a head that may still be received behind it. -/
def Passes (system : System σ) (connection : Nat) (frame : ServerFrame) : Prop :=
  ∀ entry ∈ frame.entries, ∀ other ∈ system.receiving, ∀ seenSeq progress head,
    ⟨other, .headRead entry.roomId seenSeq progress head⟩ ∈ system.tasks ∨
      other ≠ connection ∧
        ServerFrame.subscribed entry.roomId head seenSeq progress ∈
          (system.connections other).frames →
    entry.roomSeq ≤ head

theorem send_connections (system : System σ) (connection : Nat) (frame : ServerFrame) (other : Nat) :
    ((system.send connection frame).connections other).frames =
      if other = connection ∧ (system.connections connection).live = true then
        (system.connections other).frames ++ [frame] else (system.connections other).frames := by
  unfold System.send System.setConnection
  dsimp only
  by_cases hsame : other = connection
  · rw [if_pos hsame, hsame]
    by_cases hlive : (system.connections connection).live = true
    · rw [if_pos hlive, if_pos ⟨rfl, hlive⟩]
    · rw [if_neg hlive, if_neg fun h => hlive h.2]
  · rw [if_neg hsame, if_neg fun h => hsame h.1]

theorem send_live (system : System σ) (connection : Nat) (frame : ServerFrame) (other : Nat) :
    ((system.send connection frame).connections other).live = (system.connections other).live := by
  unfold System.send System.setConnection
  dsimp only
  split
  · split
    · rfl
    · rfl
  · rfl

theorem below_send {connection other head : Nat} {frame : ServerFrame} {roomId : String}
    (hframe : other = connection →
      ∀ entry ∈ frame.entries, entry.roomId = roomId → entry.roomSeq ≤ head)
    (h : Below (system.connections other).frames roomId head) :
    Below ((system.send connection frame).connections other).frames roomId head := by
  rw [send_connections]
  by_cases hsent : other = connection ∧ (system.connections connection).live = true
  · rw [if_pos hsent]
    intro received hreceived
    rcases List.mem_append.mp hreceived with hold | hnew
    · exact h received hold
    · rw [List.mem_singleton.mp hnew]
      exact hframe hsent.1
  · rw [if_neg hsent]
    exact h

theorem sent_of_send {connection other head seenSeq : Nat} {frame : ServerFrame} {roomId : String}
    {progress : List (String × Nat)} {before after : List ServerFrame}
    (h : ((system.send connection frame).connections other).frames =
      before ++ ServerFrame.subscribed roomId head seenSeq progress :: after) :
    (∃ after, (system.connections other).frames =
        before ++ ServerFrame.subscribed roomId head seenSeq progress :: after) ∨
      other = connection ∧ frame = .subscribed roomId head seenSeq progress ∧
        before = (system.connections connection).frames := by
  rw [send_connections] at h
  by_cases hsent : other = connection ∧ (system.connections connection).live = true
  · rw [if_pos hsent] at h
    rcases List.eq_nil_or_concat after with rfl | ⟨rest, last, rfl⟩
    · obtain ⟨hbefore, hframe⟩ := List.append_inj' h rfl
      cases hframe
      rw [hsent.1] at hbefore
      exact Or.inr ⟨hsent.1, rfl, hbefore.symm⟩
    · rw [List.concat_eq_append, ← List.cons_append, ← List.append_assoc] at h
      obtain ⟨hold, -⟩ := List.append_inj' h rfl
      exact Or.inl ⟨rest, hold⟩
  · rw [if_neg hsent] at h
    exact Or.inl ⟨after, h⟩

theorem Ordered.send {connection : Nat} {frame : ServerFrame} (h : Ordered bounded system)
    (hholds : ∀ entry ∈ frame.entries, system.ledgers.Holds entry)
    (hpasses : Passes system connection frame)
    (hreply : ∀ roomId head seenSeq progress, frame = .subscribed roomId head seenSeq progress →
      connection ∈ system.receiving →
        Promised bounded system connection roomId head (system.connections connection).frames) :
    Ordered bounded (system.send connection frame) := by
  constructor
  · exact h.within
  · intro other received hreceived
    rw [send_connections] at hreceived
    split at hreceived
    · rcases List.mem_append.mp hreceived with hold | hnew
      · exact h.framed other received hold
      · rw [List.mem_singleton.mp hnew]
        exact hholds
    · exact h.framed other received hreceived
  · exact h.paged
  · intro other hother
    obtain ⟨hlive, hframes, htasks⟩ := h.fresh other hother
    refine ⟨by rw [send_live, hlive], ?_, htasks⟩
    rw [send_connections, if_neg, hframes]
    rintro ⟨rfl, htaken⟩
    rw [hlive] at htaken
    cases htaken
  · exact h.received
  · intro receiver hreceiver roomId head before hdue
    have hsame : ∀ roomId head before, Promised bounded system receiver roomId head before →
        (∀ other ∈ system.receiving, other ≠ receiver → other = connection →
          ∀ entry ∈ frame.entries, entry.roomId = roomId → entry.roomSeq ≤ head) →
        Promised bounded (system.send connection frame) receiver roomId head before := by
      intro roomId head before hpromised hframe
      refine ⟨hpromised.within, hpromised.before, ?_⟩
      intro other hother hne
      exact below_send (hframe other hother hne) (hpromised.others other hother hne)
    cases hdue with
    | @unsent seenSeq progress htask =>
      have hpromised := h.due receiver hreceiver roomId head _ (.unsent htask)
      have hentry : ∀ entry ∈ frame.entries, entry.roomId = roomId → entry.roomSeq ≤ head := by
        rintro entry hentry rfl
        exact hpasses entry hentry receiver hreceiver seenSeq progress head (Or.inl htask)
      refine hsame _ _ _ ⟨hpromised.within, ?_, hpromised.others⟩ fun _ _ _ _ => hentry
      exact below_send (fun _ => hentry) hpromised.before
    | @sent seenSeq progress _ after hframes =>
      rcases sent_of_send hframes with ⟨later, hold⟩ | ⟨rfl, hreplied, hbefore⟩
      · have hpromised := h.due receiver hreceiver roomId head before (.sent hold)
        refine hsame _ _ _ hpromised ?_
        rintro other hother hne rfl entry hentry rfl
        refine hpasses entry hentry receiver hreceiver seenSeq progress head (Or.inr ⟨hne.symm, ?_⟩)
        rw [hold]
        exact List.mem_append_right _ List.mem_cons_self
      · rw [hbefore]
        refine hsame _ _ _ (hreply roomId head seenSeq progress hreplied hreceiver) ?_
        intro other hother hne hsent
        exact absurd hsent hne

theorem Ordered.send_quiet {connection : Nat} {frame : ServerFrame} (h : Ordered bounded system)
    (hquiet : quiet frame = true) : Ordered bounded (system.send connection frame) := by
  unfold quiet at hquiet
  obtain ⟨hempty, hreply⟩ := Bool.and_eq_true_iff.mp hquiet
  have hnone : frame.entries = [] := List.isEmpty_iff.mp hempty
  refine h.send ?_ ?_ ?_
  · rw [hnone]
    rintro entry ⟨⟩
  · unfold Passes
    rw [hnone]
    rintro entry ⟨⟩
  · rintro roomId head seenSeq progress rfl
    cases hreply

/-! ### The other steps -/

/-- A socket opens: nothing was sent on it and no handler works for it. -/
theorem Ordered.opened {socket : Nat} {client : Client σ} (h : Ordered bounded system)
    (hfresh : socket ∉ system.opened)
    (hclient : ∀ roomId n, Within bounded system.client.timelines roomId n →
      Within bounded client.timelines roomId n) :
    Ordered bounded ({ system with
      client
      opened := socket :: system.opened
      receiving := socket :: system.receiving }.setConnection socket fun held =>
        { held with live := true }) := by
  obtain ⟨-, hnone, hidle⟩ := h.fresh socket hfresh
  have hframes : ∀ other, (({ system with
      client
      opened := socket :: system.opened
      receiving := socket :: system.receiving }.setConnection socket fun held =>
        { held with live := true }).connections other).frames =
          (system.connections other).frames := by
    intro other
    unfold System.setConnection
    dsimp only
    split
    · rfl
    · rfl
  constructor
  · intro roomId
    exact hclient _ _ (h.within roomId)
  · intro other frame hframe
    rw [hframes] at hframe
    exact h.framed other frame hframe
  · exact h.paged
  · intro other hother
    have hne : other ≠ socket := fun hsame => hother (hsame ▸ List.mem_cons_self)
    obtain ⟨hlive, hempty, htasks⟩ := h.fresh other fun hold => hother (List.mem_cons_of_mem _ hold)
    refine ⟨?_, (hframes other).trans hempty, htasks⟩
    unfold System.setConnection
    dsimp only
    rw [if_neg hne]
    exact hlive
  · intro other hother
    rcases List.mem_cons.mp hother with rfl | hold
    · exact List.mem_cons_self
    · exact List.mem_cons_of_mem _ (h.received other hold)
  · intro receiver hreceiver roomId head before hdue
    have hold : Due system receiver roomId head before := by
      cases hdue with
      | unsent htask =>
        rw [hframes]
        exact .unsent htask
      | sent hsent =>
        rw [hframes] at hsent
        exact .sent hsent
    rcases List.mem_cons.mp hreceiver with rfl | hreceiver
    · cases hold with
      | unsent htask => exact absurd rfl (hidle _ htask)
      | sent hsent =>
        rw [hnone] at hsent
        exact absurd hsent.symm (List.append_ne_nil_of_right_ne_nil _ (List.cons_ne_nil _ _))
    · have hpromised := h.due receiver hreceiver roomId head before hold
      refine ⟨hclient _ _ hpromised.within, hpromised.before, ?_⟩
      intro other hother hne
      rw [hframes]
      rcases List.mem_cons.mp hother with rfl | hother
      · rw [hnone]
        rintro frame ⟨⟩
      · exact hpromised.others other hother hne

theorem Ordered.append {entry : RoomEntry} (h : Ordered bounded system)
    (hnext : entry.roomSeq = (system.ledgers.rows entry.roomId).length + 1) :
    Ordered bounded { system with ledgers := appendRow system.ledgers entry hnext } := by
  refine ⟨?_, ?_, ?_, h.fresh, h.received, ?_⟩
  · intro roomId
    exact (h.within roomId).mono (head_appendRow hnext roomId)
  · intro connection frame hframe carried hcarried
    exact holds_appendRow hnext (h.framed connection frame hframe carried hcarried)
  · intro task htask page hpage carried hcarried
    exact holds_appendRow hnext (h.paged task htask page hpage carried hcarried)
  · intro connection hconnection roomId head before hdue
    have hold : Due system connection roomId head before := by
      cases hdue with
      | unsent htask => exact .unsent htask
      | sent hframes => exact .sent hframes
    have hpromised := h.due connection hconnection roomId head before hold
    exact ⟨hpromised.within, hpromised.before, hpromised.others⟩

theorem advance_some {index : Nat} {resume : Handling → Option Handling}
    (h : system.advance index resume = some next) : ∃ task handling,
      task ∈ system.tasks ∧ resume task.handling = some handling ∧
        next = { system with tasks := system.tasks.set index ⟨task.connection, handling⟩ } := by
  unfold System.advance at h
  cases htask : system.tasks[index]? with
  | none =>
    rw [htask] at h
    cases h
  | some task =>
    rw [htask] at h
    cases hresume : resume task.handling with
    | none =>
      simp [hresume] at h
    | some handling =>
      simp only [Option.bind_eq_bind, Option.bind_some, hresume, Option.pure_def,
        Option.some.injEq] at h
      exact ⟨task, handling, List.mem_of_getElem? htask, hresume, h.symm⟩

theorem Ordered.advance {index : Nat} {resume : Handling → Option Handling}
    (h : Ordered bounded system) (hstep : system.advance index resume = some next)
    (hresume : ∀ old handling, resume old = some handling →
      (∀ roomId seenSeq progress head, handling ≠ .headRead roomId seenSeq progress head) ∧
        ∀ page, handling = .pageRead page →
          ∀ entry, some entry ∈ page.entries → system.ledgers.Holds entry) :
    Ordered bounded next := by
  obtain ⟨task, handling, htask, hhandling, rfl⟩ := advance_some hstep
  obtain ⟨hunread, hpage⟩ := hresume task.handling handling hhandling
  refine h.calm (calm_tasks ?_)
  intro other hother
  rcases List.mem_or_eq_of_mem_set hother with hold | rfl
  · exact Or.inl hold
  · exact Or.inr ⟨Or.inr ⟨task, htask, rfl⟩, hunread, hpage⟩

/-- A head is read: nothing the client has or is sent is above it yet. -/
theorem Ordered.headRead {index connection seenSeq : Nat} {roomId : String}
    {progress : List (String × Nat)} (h : Ordered bounded system)
    (htask : ∃ task ∈ system.tasks, task.connection = connection) :
    Ordered bounded { system with
      tasks := system.tasks.set index
        ⟨connection, .headRead roomId seenSeq progress (head (system.ledgers.rows roomId))⟩ } := by
  refine ⟨h.within, h.framed, ?_, ?_, h.received, ?_⟩
  · intro task hmem page hpage
    rcases List.mem_or_eq_of_mem_set hmem with hold | rfl
    · exact h.paged task hold page hpage
    · cases hpage
  · intro other hother
    obtain ⟨hlive, hframes, htasks⟩ := h.fresh other hother
    refine ⟨hlive, hframes, ?_⟩
    intro task hmem
    rcases List.mem_or_eq_of_mem_set hmem with hold | rfl
    · exact htasks task hold
    · obtain ⟨old, hold, rfl⟩ := htask
      exact htasks old hold
  · intro receiver hreceiver other position before hdue
    cases hdue with
    | unsent hmem =>
      rcases List.mem_or_eq_of_mem_set hmem with hold | hnew
      · have hpromised := h.due receiver hreceiver other position _ (.unsent hold)
        exact ⟨hpromised.within, hpromised.before, hpromised.others⟩
      · cases hnew
        exact ⟨h.within roomId, h.below_head _ roomId, fun other _ _ => h.below_head other roomId⟩
    | sent hframes =>
      have hpromised := h.due receiver hreceiver other position before (.sent hframes)
      exact ⟨hpromised.within, hpromised.before, hpromised.others⟩

/-- The oldest frame on a socket is taken in. -/
theorem Ordered.deliver {connection now : Nat} {frame : ServerFrame} {rest : List ServerFrame}
    (h : Ordered bounded system) (hreceiving : connection ∈ system.receiving)
    (hframes : (system.connections connection).frames = frame :: rest) :
    Ordered bounded ({ system with
      client := system.client.handleFrame options frame now }.setConnection connection
        fun held => { held with frames := rest }) := by
  have hhandled : ∀ roomId n,
      (∀ entry ∈ frame.entries, entry.roomId = roomId → entry.roomSeq ≤ n) →
      Within bounded system.client.timelines roomId n →
      Within bounded (system.client.handleFrame options frame now).timelines roomId n := by
    intro roomId n hentries hwithin
    have hmoves : Moves options (Client.Step.frame frame now).Carries
      (Client.Step.frame frame now).Discards system.client.timelines
        (system.client.handleFrame options frame now).timelines :=
      moves_step system.client (.frame frame now)
    refine within_moves hmoves ?_ hwithin
    rintro entry ⟨_, _, ⟨⟩, hentry⟩
    exact hentries entry hentry
  generalize system.client.handleFrame options frame now = client at hhandled
  have hleft : ∀ other, (({ system with client }.setConnection connection
      fun held => { held with frames := rest }).connections other).frames =
        if other = connection then rest else (system.connections other).frames := by
    intro other
    unfold System.setConnection
    dsimp only
    split
    · rfl
    · rfl
  have hlive : ∀ other, (({ system with client }.setConnection connection
      fun held => { held with frames := rest }).connections other).live =
        (system.connections other).live := by
    intro other
    unfold System.setConnection
    dsimp only
    split
    · rfl
    · rfl
  have hbelow : ∀ other roomId n, Below (system.connections other).frames roomId n →
      Below (({ system with client }.setConnection connection
        fun held => { held with frames := rest }).connections other).frames roomId n := by
    intro other roomId n hother
    rw [hleft]
    split
    · next hsame =>
      rw [hsame, hframes] at hother
      exact fun left hmem => hother left (List.mem_cons_of_mem _ hmem)
    · exact hother
  -- A promise is about the frame that was taken in too.
  have hkept : ∀ receiver roomId head before after,
      (receiver = connection → frame ∈ before) → (∀ left ∈ after, left ∈ before) →
      Promised bounded system receiver roomId head before →
      Promised bounded ({ system with client }.setConnection connection
        fun held => { held with frames := rest }) receiver roomId head after := by
    intro receiver roomId head before after hfront hafter hpromised
    refine ⟨hhandled _ _ ?_ hpromised.within, fun left hmem => hpromised.before left (hafter left hmem),
      fun other hother hne => hbelow other roomId head (hpromised.others other hother hne)⟩
    by_cases hsame : receiver = connection
    · exact hpromised.before frame (hfront hsame)
    · have hother := hpromised.others connection hreceiving fun heq => hsame heq.symm
      rw [hframes] at hother
      exact hother frame List.mem_cons_self
  constructor
  · intro roomId
    refine hhandled _ _ ?_ (h.within roomId)
    rintro entry hentry rfl
    refine le_head (h.framed connection frame ?_ entry hentry)
    rw [hframes]
    exact List.mem_cons_self
  · intro other left hmem
    rw [hleft] at hmem
    split at hmem
    · refine h.framed connection left ?_
      rw [hframes]
      exact List.mem_cons_of_mem _ hmem
    · exact h.framed other left hmem
  · exact h.paged
  · intro other hother
    obtain ⟨hdead, hempty, htasks⟩ := h.fresh other hother
    refine ⟨(hlive other).trans hdead, ?_, htasks⟩
    rw [hleft, if_neg, hempty]
    rintro rfl
    exact hother (h.received other hreceiving)
  · exact h.received
  · intro receiver hreceiver roomId head before hdue
    cases hdue with
    | unsent htask =>
      refine hkept _ _ _ _ _ ?_ ?_ (h.due receiver hreceiver roomId head _ (.unsent htask))
      · rintro rfl
        rw [hframes]
        exact List.mem_cons_self
      · intro left hmem
        rw [hleft] at hmem
        split at hmem
        · next hsame =>
          rw [hsame, hframes]
          exact List.mem_cons_of_mem _ hmem
        · exact hmem
    | @sent seenSeq progress _ after hsent =>
      rw [hleft] at hsent
      split at hsent
      · next hsame =>
        have hold : (system.connections receiver).frames =
            (frame :: before) ++ ServerFrame.subscribed roomId head seenSeq progress :: after := by
          rw [hsame, hframes, hsent, List.cons_append]
        exact hkept _ _ _ _ _ (fun _ => List.mem_cons_self) (fun left => List.mem_cons_of_mem _)
          (h.due receiver hreceiver roomId head _ (.sent hold))
      · next hne =>
        exact hkept _ _ _ _ _ (fun hsame => absurd hsame hne) (fun left hmem => hmem)
          (h.due receiver hreceiver roomId head before (.sent hsent))

end Invariant

end Realtime
