import AtriumVerified.Auth.Proofs.ReconcileProofs
import AtriumVerified.Lib.Runs

/-!
# Room roles and the committed workspace role

The rows of a member are exact, or a role change or a removal is still to make them so: it has
written and waits for the lock, it holds the lock and has read what is committed, or it has not
written yet. A join is the one reconciliation that can insert a role below the committed one, where
the member has been promoted since the acceptance, and then nobody may be left to raise it.
-/

namespace Auth

variable {workspaceId userId roomId : String} {m : Membership} {seen : Seen}
  {s s' : MemberState} {id other : Nat} {mutation : Mutation} {phase : Phase}

/-! ## What is still to come -/

/-- The mutation ends with a hook that makes every row exact or deletes it. -/
def Corrects (mutation : Mutation) : Prop := ∀ role, mutation ≠ .accept role

/-- A role change or a removal has written and waits for the lock. -/
def Awaits (s : MemberState) (id : Nat) : Prop :=
  ∃ mutation, s.running id = some ⟨mutation, .late⟩ ∧ Corrects mutation ∧
    ∀ seen, s.lock ≠ some (id, seen)

/-- A role change or a removal has written and holds the lock. -/
def Correcting (s : MemberState) : Prop :=
  ∃ id seen mutation, s.lock = some (id, seen) ∧ s.running id = some ⟨mutation, .late⟩ ∧
    Corrects mutation

/-- A role change or a removal has not written yet. -/
def Coming (s : MemberState) : Prop :=
  ∃ id mutation phase, s.running id = some ⟨mutation, phase⟩ ∧ Corrects mutation ∧ phase ≠ .late

/-- What is known of the reconciliation that holds the lock. -/
structure LockSound (workspaceId userId : String) (s : MemberState) (id : Nat) (seen : Seen) :
    Prop where
  held : ∃ running job, s.running id = some running ∧ running.job = some job ∧
    ((∀ role, job ≠ .join role) → ∀ roomId m, RoomRow s.tables workspaceId userId roomId m →
      roomId ∈ seen.roomIds)
  rooms : ∀ roomId ∈ seen.roomIds, roomId ∈ workspaceRoomIds s.tables workspaceId
  committed : seen.committed = committedRole s.tables workspaceId userId ∨ seen.committed = none ∨
    ∃ other, Awaits s other

/-- The rows are exact, or somebody is still to make them so. -/
def Tended (workspaceId userId : String) (s : MemberState) : Prop :=
  Reconciled s.tables workspaceId userId ∨ (∃ id, Awaits s id) ∨ Correcting s ∨
    committedRole s.tables workspaceId userId ≠ none ∧ Coming s

structure Inv (workspaceId userId : String) (s : MemberState) : Prop where
  tables : SoundTables s.tables userId
  early : ∀ id mutation job, s.running id = some ⟨mutation, .early job⟩ →
    Corrects mutation ∧ ∀ role, job ≠ .join role
  lock : ∀ id seen, s.lock = some (id, seen) → LockSound workspaceId userId s id seen
  tended : Tended workspaceId userId s

theorem not_join_afterHook (h : Corrects mutation) (role : String) :
    afterHook mutation ≠ .join role := by
  cases mutation with
  | accept role => exact absurd rfl (h role)
  | change newRole => exact Reconciliation.noConfusion
  | remove => exact Reconciliation.noConfusion

/-! ## Steps that leave the tables -/

def Extends (s s' : MemberState) : Prop :=
  s'.lock = s.lock ∧ ∀ id running, s.running id = some running → s'.running id = some running

theorem Awaits.extend (h : Awaits s id) (hext : Extends s s') : Awaits s' id := by
  obtain ⟨mutation, hrunning, hcorrects, hlock⟩ := h
  exact ⟨mutation, hext.2 _ _ hrunning, hcorrects, hext.1 ▸ hlock⟩

theorem Correcting.extend (h : Correcting s) (hext : Extends s s') : Correcting s' := by
  obtain ⟨id, seen, mutation, hlock, hrunning, hcorrects⟩ := h
  exact ⟨id, seen, mutation, hext.1 ▸ hlock, hext.2 _ _ hrunning, hcorrects⟩

theorem Coming.extend (h : Coming s) (hext : Extends s s') : Coming s' := by
  obtain ⟨id, mutation, phase, hrunning, hcorrects, hphase⟩ := h
  exact ⟨id, mutation, phase, hext.2 _ _ hrunning, hcorrects, hphase⟩

/-- The tables agree on everything that is read of the member. -/
structure SameMember (workspaceId userId : String) (s s' : MemberState) : Prop where
  rows : ∀ roomId m, RoomRow s'.tables workspaceId userId roomId m →
    RoomRow s.tables workspaceId userId roomId m
  rooms : ∀ roomId ∈ workspaceRoomIds s.tables workspaceId,
    roomId ∈ workspaceRoomIds s'.tables workspaceId
  committed : committedRole s'.tables workspaceId userId = committedRole s.tables workspaceId userId

theorem Tended.extend (h : Tended workspaceId userId s) (hext : Extends s s')
    (hsame : SameMember workspaceId userId s s') : Tended workspaceId userId s' := by
  rcases h with hexact | ⟨id, hawaits⟩ | hcorrecting | ⟨hcommitted, hcoming⟩
  · refine .inl fun roomId m hrow => ?_
    rw [hsame.committed]
    exact hexact roomId m (hsame.rows roomId m hrow)
  · exact .inr (.inl ⟨id, hawaits.extend hext⟩)
  · exact .inr (.inr (.inl (hcorrecting.extend hext)))
  · exact .inr (.inr (.inr ⟨hsame.committed ▸ hcommitted, hcoming.extend hext⟩))

theorem LockSound.extend (h : LockSound workspaceId userId s id seen) (hext : Extends s s')
    (hsame : SameMember workspaceId userId s s') : LockSound workspaceId userId s' id seen := by
  obtain ⟨⟨running, job, hrunning, hjob, hcovers⟩, hrooms, hcommitted⟩ := h
  refine ⟨⟨running, job, hext.2 _ _ hrunning, hjob, ?_⟩, ?_, ?_⟩
  · intro hjoin roomId m hrow
    exact hcovers hjoin roomId m (hsame.rows roomId m hrow)
  · intro roomId hmem
    exact hsame.rooms roomId (hrooms roomId hmem)
  · rcases hcommitted with hcurrent | hnone | ⟨other, hawaits⟩
    · exact .inl (hcurrent.trans hsame.committed.symm)
    · exact .inr (.inl hnone)
    · exact .inr (.inr ⟨other, hawaits.extend hext⟩)

theorem Inv.extend (h : Inv workspaceId userId s) (hext : Extends s s')
    (hsame : SameMember workspaceId userId s s') (htables : SoundTables s'.tables userId)
    (hearly : ∀ id mutation job, s'.running id = some ⟨mutation, .early job⟩ →
      Corrects mutation ∧ ∀ role, job ≠ .join role) : Inv workspaceId userId s' := by
  refine ⟨htables, hearly, ?_, h.tended.extend hext hsame⟩
  intro id seen hlock
  exact (h.lock id seen (hext.1 ▸ hlock)).extend hext hsame

theorem set_running_self (s : MemberState) (id : Nat) (running : Option Running) :
    (s.set id running).running id = running := if_pos rfl

theorem set_running_of_ne (s : MemberState) {id other : Nat} (running : Option Running)
    (h : other ≠ id) : (s.set id running).running other = s.running other := if_neg h

theorem inv_start (h : Inv workspaceId userId s)
    (hstep : s.step workspaceId userId (.start id mutation) = some s') :
    Inv workspaceId userId s' := by
  simp only [MemberState.step] at hstep
  split at hstep
  · cases hstep
  · rename_i hfree
    obtain ⟨phase, hphase, rfl⟩ := Option.map_eq_some_iff.mp hstep
    have hext : Extends s (s.set id (some ⟨mutation, phase⟩)) := by
      refine ⟨rfl, fun other running hrunning => ?_⟩
      rw [set_running_of_ne]
      · exact hrunning
      · rintro rfl
        cases hfree.symm.trans hrunning
    refine h.extend hext ⟨fun _ _ hrow => hrow, fun _ hmem => hmem, rfl⟩ h.tables ?_
    intro other otherMutation job hrunning
    by_cases hid : other = id
    · subst hid
      rw [set_running_self] at hrunning
      cases hrunning
      cases mutation with
      | change newRole =>
        refine ⟨fun _ => Mutation.noConfusion, fun role hjob => ?_⟩
        obtain ⟨known, -, heq⟩ := Option.map_eq_some_iff.mp hphase
        split at heq
        · cases heq
          cases hjob
        · cases heq
      | accept role => cases hphase
      | remove =>
        cases hphase
        exact ⟨fun _ => Mutation.noConfusion, fun _ => Reconciliation.noConfusion⟩
    · rw [set_running_of_ne s _ hid] at hrunning
      exact h.early other otherMutation job hrunning

theorem mem_workspaceRoomIds_makeRoom {room : Room} :
    roomId ∈ workspaceRoomIds { s.tables with rooms := s.tables.rooms ++ [room] } workspaceId ↔
      roomId ∈ workspaceRoomIds s.tables workspaceId ∨
        room.workspaceId = workspaceId ∧ roomId = room.id := by
  simp only [mem_workspaceRoomIds, List.mem_append, List.mem_singleton]
  constructor
  · rintro ⟨other, hmem | rfl, hworkspace, rfl⟩
    · exact .inl ⟨other, hmem, hworkspace, rfl⟩
    · exact .inr ⟨hworkspace, rfl⟩
  · rintro (⟨other, hmem, hworkspace, rfl⟩ | ⟨hworkspace, rfl⟩)
    · exact ⟨other, .inl hmem, hworkspace, rfl⟩
    · exact ⟨room, .inr rfl, hworkspace, rfl⟩

theorem inv_makeRoom {room : Room} (h : Inv workspaceId userId s)
    (hstep : s.step workspaceId userId (.makeRoom room) = some s') :
    Inv workspaceId userId s' := by
  simp only [MemberState.step] at hstep
  split at hstep
  · cases hstep
  · rename_i hfresh
    cases hstep
    refine h.extend ⟨rfl, fun _ _ hrunning => hrunning⟩ ⟨?_, ?_, rfl⟩ ⟨?_, ?_⟩ h.early
    · rintro roomId m ⟨hmem, hrow⟩
      refine ⟨?_, hrow⟩
      rcases mem_workspaceRoomIds_makeRoom.mp hmem with hold | ⟨-, rfl⟩
      · exact hold
      · exact absurd (h.tables.known room.id m hrow) hfresh
    · intro roomId hmem
      exact mem_workspaceRoomIds_makeRoom.mpr (.inl hmem)
    · rw [List.map_append, List.map_singleton, List.nodup_append]
      refine ⟨h.tables.nodup, List.nodup_singleton _, ?_⟩
      rintro known hknown fresh hroom rfl
      exact hfresh (List.mem_singleton.mp hroom ▸ hknown)
    · intro roomId m hrow
      rw [List.map_append]
      exact List.mem_append_left _ (h.tables.known roomId m hrow)

theorem mem_workspaceRoomIds_archive {archived : String → Bool} :
    roomId ∈ workspaceRoomIds { s.tables with
      rooms := s.tables.rooms.map fun room => { room with archived := archived room.id } }
        workspaceId ↔ roomId ∈ workspaceRoomIds s.tables workspaceId := by
  simp only [mem_workspaceRoomIds, List.mem_map]
  constructor
  · rintro ⟨-, ⟨room, hmem, rfl⟩, hworkspace, hid⟩
    exact ⟨room, hmem, hworkspace, hid⟩
  · rintro ⟨room, hmem, hworkspace, hid⟩
    exact ⟨_, ⟨room, hmem, rfl⟩, hworkspace, hid⟩

theorem inv_archive {archived : String → Bool} (h : Inv workspaceId userId s)
    (hstep : s.step workspaceId userId (.archive archived) = some s') :
    Inv workspaceId userId s' := by
  cases hstep
  have hids : (s.tables.rooms.map fun room => { room with archived := archived room.id }).map
      Room.id = s.tables.rooms.map Room.id := by
    rw [List.map_map]
    rfl
  refine h.extend ⟨rfl, fun _ _ hrunning => hrunning⟩ ⟨?_, ?_, rfl⟩ ⟨?_, ?_⟩ h.early
  · rintro roomId m ⟨hmem, hrow⟩
    exact ⟨mem_workspaceRoomIds_archive.mp hmem, hrow⟩
  · intro roomId hmem
    exact mem_workspaceRoomIds_archive.mpr hmem
  · exact hids ▸ h.tables.nodup
  · intro roomId m hrow
    exact hids ▸ h.tables.known roomId m hrow

theorem inv_others {memberships : String → String → Option Membership}
    {workspaceMembers : String → String → Option String} (h : Inv workspaceId userId s)
    (hstep : s.step workspaceId userId (.others memberships workspaceMembers) = some s') :
    Inv workspaceId userId s' := by
  cases hstep
  refine h.extend ⟨rfl, fun _ _ hrunning => hrunning⟩ ⟨?_, fun _ hmem => hmem, if_pos ⟨rfl, rfl⟩⟩
    ⟨h.tables.nodup, ?_⟩ h.early
  · rintro roomId m ⟨hmem, hrow⟩
    exact ⟨hmem, (if_pos rfl).symm.trans hrow⟩
  · intro roomId m hrow
    exact h.tables.known roomId m ((if_pos rfl).symm.trans hrow)

/-! ## Taking the lock -/

theorem read_roomIds_of_not_join {tables : Tables} {job : Reconciliation}
    (h : ∀ role, job ≠ .join role) :
    (job.read tables workspaceId userId).roomIds = workspaceRoomIds tables workspaceId := by
  cases job with
  | join role => exact absurd rfl (h role)
  | revoke => rfl
  | sync atMost => rfl

theorem read_roomIds_mem {tables : Tables} {job : Reconciliation}
    (h : roomId ∈ (job.read tables workspaceId userId).roomIds) :
    roomId ∈ workspaceRoomIds tables workspaceId := by
  cases job with
  | join role => exact mem_workspaceRoomIds_of_live h
  | revoke => exact h
  | sync atMost => exact h

theorem read_committed {tables : Tables} {job : Reconciliation} :
    (job.read tables workspaceId userId).committed = committedRole tables workspaceId userId := by
  cases job <;> rfl

theorem inv_acquire (h : Inv workspaceId userId s)
    (hstep : s.step workspaceId userId (.acquire id) = some s') : Inv workspaceId userId s' := by
  simp only [MemberState.step] at hstep
  split at hstep
  · rename_i job hfree hjob
    cases hstep
    obtain ⟨running, hrunning, hjob⟩ := Option.bind_eq_some_iff.mp hjob
    refine ⟨h.tables, h.early, ?_, ?_⟩
    · rintro holder seen hlock
      cases hlock
      refine ⟨⟨running, job, hrunning, hjob, ?_⟩, fun _ hmem => read_roomIds_mem hmem,
        .inl read_committed⟩
      intro hjoin roomId m hrow
      rw [read_roomIds_of_not_join hjoin]
      exact hrow.1
    · rcases h.tended with hexact | ⟨other, hawaits⟩ | hcorrecting | hcoming
      · exact .inl hexact
      · obtain ⟨mutation, hother, hcorrects, -⟩ := hawaits
        by_cases hid : other = id
        · subst hid
          exact .inr (.inr (.inl ⟨other, _, mutation, rfl, hother, hcorrects⟩))
        · refine .inr (.inl ⟨other, mutation, hother, hcorrects, ?_⟩)
          intro seen hlock
          cases hlock
          exact hid rfl
      · obtain ⟨holder, seen, -, hlock, -⟩ := hcorrecting
        cases hfree.symm.trans hlock
      · exact .inr (.inr (.inr hcoming))
  · cases hstep

/-! ## The library's writes -/

theorem libraryWrite_accept {committed : Option String} {role : String} {written : Option String}
    (h : libraryWrite committed (.accept role) = some written) :
    committed = none ∧ written = some role := by
  simp only [libraryWrite] at h
  split at h
  · rename_i hnone
    cases h
    exact ⟨hnone, rfl⟩
  · cases h

theorem Inv.not_holding (h : Inv workspaceId userId s)
    (hready : s.running id = some ⟨mutation, .ready⟩) (seen : Seen) :
    s.lock ≠ some (id, seen) := by
  intro hlock
  obtain ⟨running, job, hrunning, hjob, -⟩ := (h.lock id seen hlock).held
  cases hready.symm.trans hrunning
  cases hjob

theorem inv_write (h : Inv workspaceId userId s)
    (hstep : s.step workspaceId userId (.write id) = some s') : Inv workspaceId userId s' := by
  simp only [MemberState.step] at hstep
  split at hstep
  · rename_i mutation hready
    obtain ⟨role, hwrite, rfl⟩ := Option.map_eq_some_iff.mp hstep
    have hself := set_running_self s id (some ⟨mutation, .late⟩)
    have hfree := h.not_holding hready
    have hothers : ∀ other running, other ≠ id → s.running other = some running →
        (s.set id (some ⟨mutation, .late⟩)).running other = some running := by
      intro other running hid hrunning
      rw [set_running_of_ne s _ hid]
      exact hrunning
    -- another's hook is as far as it was
    have hawaits : ∀ other, Awaits s other → Awaits
        ((s.set id (some ⟨mutation, .late⟩)).setCommitted workspaceId userId role) other := by
      rintro other ⟨otherMutation, hrunning, hcorrects, hlock⟩
      refine ⟨otherMutation, hothers other _ ?_ hrunning, hcorrects, hlock⟩
      rintro rfl
      cases hready.symm.trans hrunning
    have hmine : Corrects mutation → Awaits
        ((s.set id (some ⟨mutation, .late⟩)).setCommitted workspaceId userId role) id :=
      fun hcorrects => ⟨mutation, hself, hcorrects, hfree⟩
    refine ⟨⟨h.tables.nodup, h.tables.known⟩, ?_, ?_, ?_⟩
    · intro other otherMutation job hrunning
      by_cases hid : other = id
      · subst hid
        cases hself.symm.trans hrunning
      · exact h.early other otherMutation job
          ((set_running_of_ne s _ hid).symm.trans hrunning)
    · intro holder seen hlock
      obtain ⟨⟨running, job, hrunning, hjob, hcovers⟩, hrooms, hcommitted⟩ :=
        h.lock holder seen hlock
      have hid : holder ≠ id := by
        rintro rfl
        exact hfree seen hlock
      refine ⟨⟨running, job, hothers holder running hid hrunning, hjob, hcovers⟩, hrooms, ?_⟩
      by_cases hcorrects : Corrects mutation
      · exact .inr (.inr ⟨id, hmine hcorrects⟩)
      · simp only [Corrects, not_forall, not_not] at hcorrects
        obtain ⟨accepted, rfl⟩ := hcorrects
        obtain ⟨hnone, -⟩ := libraryWrite_accept hwrite
        rcases hcommitted with hcurrent | hold | ⟨other, hother⟩
        · exact .inr (.inl (hcurrent.trans hnone))
        · exact .inr (.inl hold)
        · exact .inr (.inr ⟨other, hawaits other hother⟩)
    · by_cases hcorrects : Corrects mutation
      · exact .inr (.inl ⟨id, hmine hcorrects⟩)
      · simp only [Corrects, not_forall, not_not] at hcorrects
        obtain ⟨accepted, rfl⟩ := hcorrects
        obtain ⟨hnone, rfl⟩ := libraryWrite_accept hwrite
        rcases h.tended with hexact | ⟨other, hother⟩ | hcorrecting | ⟨hsome, -⟩
        · -- there was no member row, so there are no rows
          exact .inl (reconciled_of_nil fun roomId m hrow => hexact.nil_of_none hnone hrow)
        · exact .inr (.inl ⟨other, hawaits other hother⟩)
        · obtain ⟨holder, seen, otherMutation, hlock, hrunning, hother⟩ := hcorrecting
          refine .inr (.inr (.inl ⟨holder, seen, otherMutation, hlock, hothers holder _ ?_ hrunning,
            hother⟩))
          rintro rfl
          exact hfree seen hlock
        · exact absurd hnone hsome
  · cases hstep

/-- A mutation whose write cannot be made ends. -/
theorem inv_giveUp (h : Inv workspaceId userId s)
    (hstep : s.step workspaceId userId (.giveUp id) = some s') : Inv workspaceId userId s' := by
  simp only [MemberState.step] at hstep
  split at hstep
  · rename_i mutation hready
    split at hstep
    · rename_i hnowrite
      cases hstep
      have hothers : ∀ other running, s.running other = some running → running.phase ≠ .ready →
          (s.set id none).running other = some running := by
        intro other running hrunning hphase
        rw [set_running_of_ne]
        · exact hrunning
        · rintro rfl
          cases hready.symm.trans hrunning
          exact hphase rfl
      have hawaits : ∀ other, Awaits s other → Awaits (s.set id none) other := by
        rintro other ⟨otherMutation, hrunning, hcorrects, hlock⟩
        exact ⟨otherMutation, hothers other _ hrunning Phase.noConfusion, hcorrects, hlock⟩
      refine ⟨h.tables, ?_, ?_, ?_⟩
      · intro other otherMutation job hrunning
        by_cases hid : other = id
        · subst hid
          rw [set_running_self] at hrunning
          cases hrunning
        · rw [set_running_of_ne s _ hid] at hrunning
          exact h.early other otherMutation job hrunning
      · intro holder seen hlock
        obtain ⟨⟨running, job, hrunning, hjob, hcovers⟩, hrooms, hcommitted⟩ :=
          h.lock holder seen hlock
        refine ⟨⟨running, job, hothers holder running hrunning ?_, hjob, hcovers⟩, hrooms, ?_⟩
        · intro hphase
          simp only [Running.job, hphase] at hjob
          cases hjob
        · rcases hcommitted with hcurrent | hnone | ⟨other, hother⟩
          · exact .inl hcurrent
          · exact .inr (.inl hnone)
          · exact .inr (.inr ⟨other, hawaits other hother⟩)
      · rcases h.tended with hexact | ⟨other, hother⟩ | hcorrecting | ⟨hsome, hcoming⟩
        · exact .inl hexact
        · exact .inr (.inl ⟨other, hawaits other hother⟩)
        · obtain ⟨holder, seen, otherMutation, hlock, hrunning, hcorrects⟩ := hcorrecting
          exact .inr (.inr (.inl ⟨holder, seen, otherMutation, hlock,
            hothers holder _ hrunning Phase.noConfusion, hcorrects⟩))
        · -- with a member row only an acceptance cannot write, and it corrects nothing
          obtain ⟨other, otherMutation, phase, hrunning, hcorrects, hphase⟩ := hcoming
          refine .inr (.inr (.inr ⟨hsome, other, otherMutation, phase, ?_, hcorrects, hphase⟩))
          rw [set_running_of_ne]
          · exact hrunning
          · rintro rfl
            cases hready.symm.trans hrunning
            obtain ⟨role, hrole⟩ := Option.ne_none_iff_exists'.mp hsome
            rw [hrole] at hnowrite
            cases mutation with
            | change newRole => cases hnowrite
            | accept role => exact hcorrects role rfl
            | remove => cases hnowrite
    · cases hstep
  · cases hstep

/-! ## Committing a reconciliation -/

/-- A join is about to insert a role below the committed one, and nobody is left to raise it: the
member has been promoted since the acceptance, and no role change or removal is under way. -/
def Overtaken (userId : String) (s : MemberState) : Prop :=
  ∃ id seen role committed, s.lock = some (id, seen) ∧
    s.running id = some ⟨.accept role, .late⟩ ∧ seen.committed = some committed ∧
    0 < level (parseRole role) ∧ level (parseRole role) < level (parseRole committed) ∧
    (∃ roomId ∈ seen.roomIds, s.tables.memberships roomId userId = none) ∧
    ∀ other mutation phase, s.running other = some ⟨mutation, phase⟩ → ¬ Corrects mutation

/-- The step is no join that has been overtaken by a promotion. -/
def Timely (userId : String) (s : MemberState) : MemberEvent → Prop
  | .commit => ¬ Overtaken userId s
  | _ => True

/-- The state after the hook that holds the lock has committed. -/
def committed (userId : String) (s : MemberState) (id : Nat) (seen : Seen) (running : Running)
    (job : Reconciliation) : MemberState :=
  { s.set id (MemberState.onward running) with
    tables := job.apply s.tables userId seen, lock := none }

variable {running : Running} {job : Reconciliation}

theorem step_commit (hlock : s.lock = some (id, seen)) (hrunning : s.running id = some running)
    (hjob : running.job = some job) :
    s.step workspaceId userId .commit = some (committed userId s id seen running job) := by
  simp only [MemberState.step, hlock, hrunning, hjob, Option.map_some]
  rfl

theorem committed_running_self :
    (committed userId s id seen running job).running id = MemberState.onward running :=
  set_running_self s id _

theorem committed_running_of_ne (h : other ≠ id) :
    (committed userId s id seen running job).running other = s.running other :=
  set_running_of_ne s _ h

theorem Awaits.committed (h : Awaits s other) (hid : other ≠ id) :
    Awaits (committed userId s id seen running job) other := by
  obtain ⟨mutation, hrunning, hcorrects, -⟩ := h
  refine ⟨mutation, (committed_running_of_ne hid).trans hrunning, hcorrects, ?_⟩
  intro seen hlock
  cases hlock

theorem Awaits.ne_holder (h : Awaits s other) (hlock : s.lock = some (id, seen)) : other ≠ id := by
  rintro rfl
  obtain ⟨-, -, -, hfree⟩ := h
  exact hfree seen hlock

theorem tended_commit_early (h : Inv workspaceId userId s) (hlock : s.lock = some (id, seen))
    (hrunning : s.running id = some ⟨mutation, .early job⟩) :
    Tended workspaceId userId (committed userId s id seen ⟨mutation, .early job⟩ job) := by
  obtain ⟨hcorrects, hjoin⟩ := h.early id mutation job hrunning
  have hcommitted : committedRole (committed userId s id seen ⟨mutation, .early job⟩ job).tables
      workspaceId userId = committedRole s.tables workspaceId userId := committedRole_apply
  by_cases hnone : committedRole s.tables workspaceId userId = none
  · rcases h.tended with hexact | ⟨other, hawaits⟩ | hcorrecting | ⟨hsome, -⟩
    · refine .inl (reconciled_of_nil fun roomId m hrow => ?_)
      obtain ⟨row, hold⟩ := apply_row_of_not_join hjoin hrow
      exact hexact.nil_of_none hnone hold
    · exact .inr (.inl ⟨other, hawaits.committed (hawaits.ne_holder hlock)⟩)
    · obtain ⟨holder, read, otherMutation, hheld, hlate, -⟩ := hcorrecting
      cases hlock.symm.trans hheld
      cases hrunning.symm.trans hlate
    · exact absurd hnone hsome
  · refine .inr (.inr (.inr ⟨hcommitted ▸ hnone, id, mutation, .ready, ?_, hcorrects,
      Phase.noConfusion⟩))
    exact set_running_self s id _

/-- A hook after the write of a role change or a removal makes the rows exact, or somebody who has
written since awaits the lock. -/
theorem tended_commit_late (h : Inv workspaceId userId s) (hlock : s.lock = some (id, seen))
    (hrunning : s.running id = some ⟨mutation, .late⟩) (hcorrects : Corrects mutation) :
    Tended workspaceId userId
      (committed userId s id seen ⟨mutation, .late⟩ (afterHook mutation)) := by
  obtain ⟨⟨holder, held, hholder, hjob, hcovers⟩, -, hcommitted⟩ := h.lock id seen hlock
  cases hrunning.symm.trans hholder
  cases hjob
  have hall : ∀ roomId m, RoomRow s.tables workspaceId userId roomId m →
      roomId ∈ seen.roomIds := hcovers (not_join_afterHook hcorrects)
  have hrows : ∀ roomId m, RoomRow ((afterHook mutation).apply s.tables userId seen) workspaceId
      userId roomId m → seen.committed.bind parseRole = some m.role := by
    rintro roomId m ⟨hmem, hrow⟩
    rw [workspaceRoomIds_apply] at hmem
    cases mutation with
    | accept role => exact absurd rfl (hcorrects role)
    | change newRole =>
      obtain ⟨row, hold, hmissed | hrole⟩ := syncApply_row hrow
      · exact absurd (hall roomId row ⟨hmem, hold⟩) hmissed
      · exact hrole
    | remove =>
      obtain ⟨hold, hmissed⟩ := revokeApply_row hrow
      exact absurd (hall roomId m ⟨hmem, hold⟩) hmissed
  rcases hcommitted with hcurrent | hnone | ⟨other, hawaits⟩
  · refine .inl fun roomId m hrow => ?_
    have hrole := hrows roomId m hrow
    rw [hcurrent] at hrole
    exact (congrArg (·.bind parseRole) committedRole_apply).trans hrole
  · refine .inl (reconciled_of_nil fun roomId m hrow => ?_)
    have hrole := hrows roomId m hrow
    rw [hnone] at hrole
    cases hrole
  · exact .inr (.inl ⟨other, hawaits.committed (hawaits.ne_holder hlock)⟩)

theorem joinRole_eq {role : String} {given : Role} (h : joinRole role seen = some given)
    (hlevel : ∀ committed, seen.committed = some committed → 0 < level (parseRole role) →
      level (parseRole committed) ≤ level (parseRole role)) :
    seen.committed.bind parseRole = some given := by
  obtain ⟨committed, hcommitted, hgiven⟩ := Option.bind_eq_some_iff.mp h
  have hlower := level_lowerOf role committed
  rw [roomRole] at hgiven
  rw [hgiven, level_some] at hlower
  have hpos := roleRank_pos given
  have hle := hlevel committed hcommitted (by omega)
  rw [hcommitted]
  refine level_injective ?_
  change level (parseRole committed) = roleRank given
  omega

theorem Reconciled.join {tables : Tables} {role : String} (h : Reconciled tables workspaceId userId)
    (hgiven : ∀ roomId ∈ seen.roomIds, tables.memberships roomId userId = none → ∀ given,
      joinRole role seen = some given →
      (committedRole tables workspaceId userId).bind parseRole = some given) :
    Reconciled ((Reconciliation.join role).apply tables userId seen) workspaceId userId := by
  rintro roomId m ⟨hmem, hrow⟩
  rw [workspaceRoomIds_apply] at hmem
  rw [committedRole_apply]
  rcases joinApply_row hrow with hold | ⟨hnone, hseen, hrole⟩
  · exact h roomId m ⟨hmem, hold⟩
  · exact hgiven roomId hseen hnone m.role hrole

theorem tended_of_anybody {role : String} (hlock : s.lock = some (id, seen))
    (hrunning : s.running id = some ⟨.accept role, .late⟩)
    (hmember : committedRole s.tables workspaceId userId ≠ none)
    (hother : s.running other = some ⟨mutation, phase⟩) (hcorrects : Corrects mutation) :
    Tended workspaceId userId
      (committed userId s id seen ⟨.accept role, .late⟩ (.join role)) := by
  have hid : other ≠ id := by
    rintro rfl
    cases hrunning.symm.trans hother
    exact hcorrects role rfl
  by_cases hlate : phase = .late
  · subst hlate
    refine .inr (.inl ⟨other, Awaits.committed ⟨mutation, hother, hcorrects, ?_⟩ hid⟩)
    intro read hheld
    cases hlock.symm.trans hheld
    exact hid rfl
  · refine .inr (.inr (.inr ⟨?_, other, mutation, phase,
      (committed_running_of_ne hid).trans hother, hcorrects, hlate⟩))
    exact fun hnone => hmember (committedRole_apply.symm.trans hnone)

/-- A join that is not overtaken keeps the rows exact, or leaves them to somebody. -/
theorem tended_commit_join {role : String} (h : Inv workspaceId userId s)
    (hlock : s.lock = some (id, seen)) (hrunning : s.running id = some ⟨.accept role, .late⟩)
    (htimely : ¬ Overtaken userId s) :
    Tended workspaceId userId
      (committed userId s id seen ⟨.accept role, .late⟩ (.join role)) := by
  obtain ⟨-, -, hread⟩ := h.lock id seen hlock
  rcases h.tended with hexact | ⟨other, hawaits⟩ | hcorrecting | ⟨hsome, hcoming⟩
  · rcases hread with hcurrent | hnone | ⟨other, hawaits⟩
    · by_cases hmember : committedRole s.tables workspaceId userId = none
      · -- nothing is inserted for somebody who was no member
        refine .inl (hexact.join fun roomId _ _ given hgiven => ?_)
        rw [joinRole, hcurrent, hmember] at hgiven
        cases hgiven
      · by_cases hanybody : ∃ other mutation phase,
            s.running other = some ⟨mutation, phase⟩ ∧ Corrects mutation
        · obtain ⟨other, mutation, phase, hother, hcorrects⟩ := hanybody
          exact tended_of_anybody hlock hrunning hmember hother hcorrects
        · refine .inl (hexact.join fun roomId hseen hfree given hgiven => ?_)
          rw [← hcurrent]
          refine joinRole_eq hgiven fun committed hcommitted hpos => ?_
          by_contra hlow
          exact htimely ⟨id, seen, role, committed, hlock, hrunning, hcommitted, hpos,
            Nat.lt_of_not_le hlow, ⟨roomId, hseen, hfree⟩,
            fun other mutation phase hother hcorrects =>
              hanybody ⟨other, mutation, phase, hother, hcorrects⟩⟩
    · refine .inl (hexact.join fun roomId _ _ given hgiven => ?_)
      rw [joinRole, hnone] at hgiven
      cases hgiven
    · exact .inr (.inl ⟨other, hawaits.committed (hawaits.ne_holder hlock)⟩)
  · exact .inr (.inl ⟨other, hawaits.committed (hawaits.ne_holder hlock)⟩)
  · obtain ⟨holder, read, otherMutation, hheld, hlate, hcorrects⟩ := hcorrecting
    cases hlock.symm.trans hheld
    cases hrunning.symm.trans hlate
    exact absurd rfl (hcorrects role)
  · obtain ⟨other, mutation, phase, hother, hcorrects, -⟩ := hcoming
    exact tended_of_anybody hlock hrunning hsome hother hcorrects

theorem inv_commit (h : Inv workspaceId userId s) (htimely : ¬ Overtaken userId s)
    (hstep : s.step workspaceId userId .commit = some s') : Inv workspaceId userId s' := by
  simp only [MemberState.step] at hstep
  split at hstep
  · cases hstep
  · rename_i id seen hlock
    split at hstep
    · cases hstep
    · rename_i running hrunning
      obtain ⟨job, hjob, rfl⟩ := Option.map_eq_some_iff.mp hstep
      refine ⟨h.tables.apply fun roomId hmem =>
        mem_ids_of_mem_workspaceRoomIds ((h.lock id seen hlock).rooms roomId hmem), ?_, ?_, ?_⟩
      · intro other mutation early hother
        by_cases hid : other = id
        · subst hid
          have hother : MemberState.onward running = some ⟨mutation, .early early⟩ :=
            committed_running_self.symm.trans hother
          obtain ⟨mutation', phase⟩ := running
          cases phase with
          | early job => cases hother
          | ready => cases hjob
          | late => cases hother
        · exact h.early other mutation early ((set_running_of_ne s _ hid).symm.trans hother)
      · intro holder read hheld
        cases hheld
      · obtain ⟨mutation, phase⟩ := running
        cases phase with
        | ready => cases hjob
        | early early =>
          cases hjob
          exact tended_commit_early h hlock hrunning
        | late =>
          cases hjob
          by_cases hcorrects : Corrects mutation
          · exact tended_commit_late h hlock hrunning hcorrects
          · simp only [Corrects, not_forall, not_not] at hcorrects
            obtain ⟨role, rfl⟩ := hcorrects
            exact tended_commit_join h hlock hrunning htimely

theorem Inv.step {event : MemberEvent} (h : Inv workspaceId userId s)
    (htimely : Timely userId s event) (hstep : s.step workspaceId userId event = some s') :
    Inv workspaceId userId s' := by
  cases event with
  | start id mutation => exact inv_start h hstep
  | acquire id => exact inv_acquire h hstep
  | commit => exact inv_commit h htimely hstep
  | write id => exact inv_write h hstep
  | giveUp id => exact inv_giveUp h hstep
  | makeRoom room => exact inv_makeRoom h hstep
  | archive archived => exact inv_archive h hstep
  | others memberships workspaceMembers => exact inv_others h hstep

/-! ## Convergence -/

/-- No row gives more than the committed role, and once no hook is under way, a user without a
member row has no rows in the workspace and every row of a member carries exactly the committed
role. -/
structure Converged (workspaceId userId : String) (s : MemberState) : Prop where
  ceiling : ∀ roomId ∈ workspaceRoomIds s.tables workspaceId,
    level (loadRoomMembership s.tables roomId userId)
      ≤ level ((committedRole s.tables workspaceId userId).bind parseRole)
  removed : s.Quiet → committedRole s.tables workspaceId userId = none →
    ∀ roomId ∈ workspaceRoomIds s.tables workspaceId, s.tables.memberships roomId userId = none
  exact : s.Quiet → ∀ role, committedRole s.tables workspaceId userId = some role →
    ∀ roomId ∈ workspaceRoomIds s.tables workspaceId, ∀ m,
      s.tables.memberships roomId userId = some m → parseRole role = some m.role

theorem Inv.exact_of_quiet (h : Inv workspaceId userId s) (hquiet : s.Quiet) :
    Reconciled s.tables workspaceId userId := by
  rcases h.tended with hexact | ⟨id, hawaits⟩ | hcorrecting | ⟨-, hcoming⟩
  · exact hexact
  · obtain ⟨mutation, hrunning, -⟩ := hawaits
    cases (hquiet id).symm.trans hrunning
  · obtain ⟨id, seen, mutation, -, hrunning, -⟩ := hcorrecting
    cases (hquiet id).symm.trans hrunning
  · obtain ⟨id, mutation, phase, hrunning, -⟩ := hcoming
    cases (hquiet id).symm.trans hrunning

theorem Inv.converged (h : Inv workspaceId userId s) : Converged workspaceId userId s := by
  refine ⟨fun roomId hroom => level_loadRoomMembership_le h.tables hroom, ?_, ?_⟩
  · intro hquiet hnone roomId hroom
    refine Option.eq_none_iff_forall_ne_some.mpr fun m hrow => ?_
    exact (h.exact_of_quiet hquiet).nil_of_none hnone ⟨hroom, hrow⟩
  · intro hquiet role hrole roomId hroom m hrow
    have hexact := h.exact_of_quiet hquiet roomId m ⟨hroom, hrow⟩
    rw [hrole] at hexact
    exact hexact

/-- The state before anything has begun: the rows are exact. -/
structure Fresh (workspaceId userId : String) (s : MemberState) : Prop where
  tables : SoundTables s.tables userId
  quiet : s.Quiet
  lock : s.lock = none
  exact : Reconciled s.tables workspaceId userId

theorem Fresh.inv (h : Fresh workspaceId userId s) : Inv workspaceId userId s := by
  refine ⟨h.tables, ?_, ?_, .inl h.exact⟩
  · intro id mutation job hrunning
    cases (h.quiet id).symm.trans hrunning
  · intro id seen hlock
    cases h.lock.symm.trans hlock

/-! ## What an overtaken join leaves -/

/-- A row does not carry the committed role, and only acceptances are under way. -/
structure Stuck (workspaceId userId : String) (s : MemberState) : Prop where
  wrong : ∃ role roomId m, committedRole s.tables workspaceId userId = some role ∧
    RoomRow s.tables workspaceId userId roomId m ∧ parseRole role ≠ some m.role
  accepts : ∀ id running, s.running id = some running →
    (∃ role, running.mutation = .accept role) ∧ ∀ job, running.phase ≠ .early job

theorem Stuck.not_converged (h : Stuck workspaceId userId s) (hquiet : s.Quiet) :
    ¬ Converged workspaceId userId s := by
  obtain ⟨role, roomId, m, hrole, ⟨hroom, hrow⟩, hne⟩ := h.wrong
  intro hconverged
  exact hne (hconverged.exact hquiet role hrole roomId hroom m hrow)

theorem joinApply_keeps {tables : Tables} {role : String}
    (h : tables.memberships roomId userId = some m) :
    (joinApply tables userId role seen).1.memberships roomId userId = some m := by
  unfold joinApply
  split
  · exact h
  · by_cases hmem : roomId ∈ seen.roomIds
    · rw [setRows_of_mem hmem, h]
      rfl
    · rw [setRows_of_notMem hmem]
      exact h

theorem joinApply_inserts {tables : Tables} {role : String} {given : Role}
    (hgiven : joinRole role seen = some given) (hmem : roomId ∈ seen.roomIds)
    (h : tables.memberships roomId userId = none) :
    (joinApply tables userId role seen).1.memberships roomId userId = some { role := given } := by
  simp only [joinApply, hgiven]
  rw [setRows_of_mem hmem, h]
  rfl

/-- After an overtaken join a row does not carry the committed role. -/
theorem stuck_of_overtaken (h : Inv workspaceId userId s) (hovertaken : Overtaken userId s)
    (hstep : s.step workspaceId userId .commit = some s') : Stuck workspaceId userId s' := by
  obtain ⟨id, seen, role, found, hlock, hrunning, hfound, hpos, hlow, ⟨roomId, hseen, hfree⟩,
    hnobody⟩ := hovertaken
  obtain ⟨-, hrooms, hread⟩ := h.lock id seen hlock
  have hcommitted : committedRole s.tables workspaceId userId = some found := by
    rcases hread with hcurrent | hnone | ⟨other, mutation, hother, hcorrects, -⟩
    · exact hcurrent.symm.trans hfound
    · cases hnone.symm.trans hfound
    · exact absurd hcorrects (hnobody other mutation .late hother)
  have hlower := level_lowerOf role found
  obtain ⟨given, hgiven⟩ : ∃ given, parseRole (lowerOf role found) = some given := by
    cases hparse : parseRole (lowerOf role found) with
    | some given => exact ⟨given, rfl⟩
    | none =>
      rw [hparse, level_none] at hlower
      omega
  have hjoin : joinRole role seen = some given := by
    rw [joinRole, hfound, Option.bind_some]
    exact hgiven
  rw [hgiven] at hlower
  have hjob : (Running.mk (.accept role) .late).job = some (.join role) := rfl
  cases (step_commit hlock hrunning hjob).symm.trans hstep
  have hrooms' : roomId ∈ workspaceRoomIds
      ((Reconciliation.join role).apply s.tables userId seen) workspaceId := by
    rw [workspaceRoomIds_apply]
    exact hrooms roomId hseen
  refine ⟨⟨found, roomId, { role := given }, ?_, ⟨?_, joinApply_inserts hjoin hseen hfree⟩, ?_⟩, ?_⟩
  · exact committedRole_apply.trans hcommitted
  · exact hrooms'
  · intro hsame
    have hlevel : level (parseRole found) = level (some given) := congrArg level hsame
    omega
  · rintro other ⟨mutation, phase⟩ hother
    by_cases hid : other = id
    · subst hid
      cases committed_running_self.symm.trans hother
    · have hold := (committed_running_of_ne hid).symm.trans hother
      have hcorrects := hnobody other mutation phase hold
      refine ⟨not_forall_not.mp hcorrects, ?_⟩
      rintro job rfl
      exact hcorrects (h.early other mutation job hold).1

theorem Stuck.of_same (h : Stuck workspaceId userId s)
    (hcommitted : committedRole s'.tables workspaceId userId
      = committedRole s.tables workspaceId userId)
    (hrows : ∀ roomId m, RoomRow s.tables workspaceId userId roomId m →
      RoomRow s'.tables workspaceId userId roomId m)
    (hrunning : ∀ id running, s'.running id = some running → s.running id = some running ∨
      (∃ role, running.mutation = .accept role) ∧ ∀ job, running.phase ≠ .early job) :
    Stuck workspaceId userId s' := by
  obtain ⟨role, roomId, m, hrole, hrow, hne⟩ := h.wrong
  refine ⟨⟨role, roomId, m, hcommitted.trans hrole, hrows roomId m hrow, hne⟩, ?_⟩
  intro id running hnow
  rcases hrunning id running hnow with hold | hnew
  · exact h.accepts id running hold
  · exact hnew

theorem running_of_set {running : Option Running} {now : Running}
    (h : (s.set id running).running other = some now) :
    s.running other = some now ∨ other = id ∧ running = some now := by
  by_cases hid : other = id
  · subst hid
    exact .inr ⟨rfl, (set_running_self s other running).symm.trans h⟩
  · exact .inl ((set_running_of_ne s running hid).symm.trans h)

/-- Until a role change or a removal begins, the wrong row stays. -/
theorem Stuck.step {event : MemberEvent} (h : Stuck workspaceId userId s)
    (hevent : ∀ id mutation, event = .start id mutation → ¬ Corrects mutation)
    (hstep : s.step workspaceId userId event = some s') : Stuck workspaceId userId s' := by
  have hmember : committedRole s.tables workspaceId userId ≠ none := by
    obtain ⟨role, -, -, hrole, -⟩ := h.wrong
    rw [hrole]
    exact Option.some_ne_none role
  cases event with
  | start id mutation =>
    simp only [MemberState.step] at hstep
    split at hstep
    · cases hstep
    · obtain ⟨phase, hphase, rfl⟩ := Option.map_eq_some_iff.mp hstep
      obtain ⟨role, rfl⟩ := not_forall_not.mp (hevent id mutation rfl)
      cases hphase
      refine h.of_same rfl (fun _ _ hrow => hrow) fun other running hnow => ?_
      rcases running_of_set hnow with hold | ⟨-, hnew⟩
      · exact .inl hold
      · cases hnew
        exact .inr ⟨⟨role, rfl⟩, fun _ => Phase.noConfusion⟩
  | acquire id =>
    simp only [MemberState.step] at hstep
    split at hstep
    · cases hstep
      exact h.of_same rfl (fun _ _ hrow => hrow) fun _ _ hnow => .inl hnow
    · cases hstep
  | commit =>
    simp only [MemberState.step] at hstep
    split at hstep
    · cases hstep
    · rename_i id seen hlock
      split at hstep
      · cases hstep
      · rename_i running hrunning
        obtain ⟨⟨role, hmutation⟩, hearly⟩ := h.accepts id running hrunning
        obtain ⟨mutation, phase⟩ := running
        cases hmutation
        obtain ⟨job, hjob, rfl⟩ := Option.map_eq_some_iff.mp hstep
        cases phase with
        | early early => exact absurd rfl (hearly early)
        | ready => cases hjob
        | late =>
          cases hjob
          refine h.of_same committedRole_apply ?_ fun other running hnow => ?_
          · rintro roomId m ⟨hroom, hrow⟩
            refine ⟨?_, joinApply_keeps hrow⟩
            rw [← workspaceRoomIds_apply] at hroom
            exact hroom
          · rcases running_of_set hnow with hold | ⟨-, hnew⟩
            · exact .inl hold
            · cases hnew
  | write id =>
    simp only [MemberState.step] at hstep
    split at hstep
    · rename_i mutation hready
      obtain ⟨⟨role, hmutation⟩, -⟩ := h.accepts id _ hready
      cases hmutation
      obtain ⟨written, hwrite, -⟩ := Option.map_eq_some_iff.mp hstep
      exact absurd (libraryWrite_accept hwrite).1 hmember
    · cases hstep
  | giveUp id =>
    simp only [MemberState.step] at hstep
    split at hstep
    · split at hstep
      · cases hstep
        refine h.of_same rfl (fun _ _ hrow => hrow) fun other running hnow => ?_
        rcases running_of_set hnow with hold | ⟨-, hnew⟩
        · exact .inl hold
        · cases hnew
      · cases hstep
    · cases hstep
  | makeRoom room =>
    simp only [MemberState.step] at hstep
    split at hstep
    · cases hstep
    · cases hstep
      refine h.of_same rfl ?_ fun _ _ hnow => .inl hnow
      rintro roomId m ⟨hroom, hrow⟩
      exact ⟨mem_workspaceRoomIds_makeRoom.mpr (.inl hroom), hrow⟩
  | archive archived =>
    cases hstep
    refine h.of_same rfl ?_ fun _ _ hnow => .inl hnow
    rintro roomId m ⟨hroom, hrow⟩
    exact ⟨mem_workspaceRoomIds_archive.mpr hroom, hrow⟩
  | others memberships workspaceMembers =>
    cases hstep
    refine h.of_same (if_pos ⟨rfl, rfl⟩) ?_ fun _ _ hnow => .inl hnow
    rintro roomId m ⟨hroom, hrow⟩
    exact ⟨hroom, (if_pos rfl).trans hrow⟩

theorem Stuck.run {more : List MemberEvent} {final : MemberState} (h : Stuck workspaceId userId s)
    (hmore : ∀ id mutation, .start id mutation ∈ more → ¬ Corrects mutation)
    (hrun : Runs.run (MemberState.step workspaceId userId) s more = some final) :
    Stuck workspaceId userId final := by
  induction more generalizing s with
  | nil =>
    cases hrun
    exact h
  | cons event rest ih =>
    obtain ⟨next, hnext, hrest⟩ := Option.bind_eq_some_iff.mp hrun
    refine ih (h.step ?_ hnext) (fun id mutation hmem => hmore id mutation (.tail _ hmem)) hrest
    rintro id mutation rfl
    exact hmore id mutation List.mem_cons_self

/-- Once a join that a promotion has overtaken commits, no run of joins, rooms and other members
mends the rows: whenever nothing is under way, they are wrong, until a role change or a removal
begins. -/
theorem not_converged_of_overtaken {events more : List MemberEvent} {final : MemberState}
    (h : Fresh workspaceId userId s)
    (htimely : Runs.Allowed (MemberState.step workspaceId userId) (Timely userId) s events)
    (hreached : Runs.run (MemberState.step workspaceId userId) s events = some s')
    (hovertaken : Overtaken userId s')
    (hmore : ∀ id mutation, .start id mutation ∈ more → ¬ Corrects mutation)
    (hrun : Runs.run (MemberState.step workspaceId userId) s' (.commit :: more) = some final)
    (hquiet : final.Quiet) : ¬ Converged workspaceId userId final := by
  have hinv : Inv workspaceId userId s' :=
    htimely.throughout h.inv (fun hinv hok hstep => hinv.step hok hstep) events List.prefix_rfl s'
      hreached
  obtain ⟨next, hcommit, hrest⟩ := Option.bind_eq_some_iff.mp hrun
  exact ((stuck_of_overtaken hinv hovertaken hcommit).run hmore hrest).not_converged hquiet

/-- Room roles converge in every run in which no join is overtaken by a promotion. -/
theorem converged_of_timely {events : List MemberEvent} (h : Fresh workspaceId userId s)
    (htimely : Runs.Allowed (MemberState.step workspaceId userId) (Timely userId) s events) :
    Runs.Throughout (MemberState.step workspaceId userId) (Converged workspaceId userId) s events :=
  (htimely.throughout h.inv fun hinv hok hstep => hinv.step hok hstep).imp
    fun hinv => hinv.converged

def beforeAda : MemberState where
  tables :=
    { rooms := [{ id := "room", workspaceId := "workspace", archived := false }]
      memberships := fun _ _ => none
      workspaceMembers := fun _ _ => none }
  running := fun _ => none
  lock := none

theorem fresh_beforeAda : Fresh "workspace" "ada" beforeAda := by
  refine ⟨⟨List.nodup_singleton _, ?_⟩, fun _ => rfl, rfl, reconciled_of_nil ?_⟩
  · rintro roomId m ⟨⟩
  · rintro roomId m ⟨-, ⟨⟩⟩

/-- Ada accepts as an admin, and is put into the rooms while she is made a member. -/
def joinedFirst : List MemberEvent :=
  [.start 0 (.accept "admin"), .write 0, .start 1 (.change "member"), .acquire 0, .commit, .acquire 1,
    .commit, .write 1, .acquire 1, .commit]

theorem timely_joinedFirst : Runs.Allowed (MemberState.step "workspace" "ada") (Timely "ada")
    beforeAda joinedFirst := by
  iterate 4
    refine ⟨trivial, fun s hs => ?_⟩
    obtain rfl := Option.some.inj hs
  refine ⟨?_, fun s hs => ?_⟩
  · rintro ⟨id, seen, role, committed, hlock, hrunning, hcommitted, -, hlow, -⟩
    cases hlock
    cases hrunning
    cases hcommitted
    exact absurd hlow (by decide)
  obtain rfl := Option.some.inj hs
  refine ⟨trivial, fun s hs => ?_⟩
  obtain rfl := Option.some.inj hs
  refine ⟨?_, fun s hs => ?_⟩
  · rintro ⟨id, seen, role, committed, hlock, hrunning, -⟩
    cases hlock
    cases hrunning
  obtain rfl := Option.some.inj hs
  iterate 2
    refine ⟨trivial, fun s hs => ?_⟩
    obtain rfl := Option.some.inj hs
  refine ⟨?_, fun _ _ => trivial⟩
  rintro ⟨id, seen, role, committed, hlock, hrunning, -⟩
  cases hlock
  cases hrunning

/-- Whenever no hook is under way, her room role is the committed one. -/
theorem converged_joinedFirst : Runs.Throughout (MemberState.step "workspace" "ada")
    (Converged "workspace" "ada") beforeAda joinedFirst :=
  converged_of_timely fresh_beforeAda timely_joinedFirst

/-- Ada accepts an invitation as a member, is made an admin, and only then is put into the rooms. -/
def promotedFirst : List MemberEvent :=
  [.start 0 (.accept "member"), .write 0, .start 1 (.change "admin"), .write 1, .acquire 1, .commit,
    .acquire 0, .commit]

/-- She stays a member of the room, with no hook under way. -/
theorem promotion_lost : ¬ ∀ s events, Fresh "workspace" "ada" s →
    Runs.Throughout (MemberState.step "workspace" "ada") (Converged "workspace" "ada") s
      events := by
  intro h
  obtain ⟨last, hrun, hquiet, hrole, hroom, hrow⟩ : ∃ last,
      Runs.run (MemberState.step "workspace" "ada") beforeAda promotedFirst = some last ∧
      last.Quiet ∧ committedRole last.tables "workspace" "ada" = some "admin" ∧
      "room" ∈ workspaceRoomIds last.tables "workspace" ∧
      last.tables.memberships "room" "ada" = some { role := .member } := by
    refine ⟨_, rfl, ?_, by decide +kernel, by decide +kernel, by decide +kernel⟩
    intro id
    match id with
    | 0 => rfl
    | 1 => rfl
    | _ + 2 => rfl
  have hconverged := h beforeAda promotedFirst fresh_beforeAda promotedFirst (List.prefix_refl _)
    last hrun
  cases hconverged.exact hquiet "admin" hrole "room" hroom _ hrow

theorem overtaken_join_sticks : ∃ final,
    Runs.run (MemberState.step "workspace" "ada") beforeAda promotedFirst = some final ∧
      ¬ Converged "workspace" "ada" final := by
  have htimely : Runs.Allowed (MemberState.step "workspace" "ada") (Timely "ada") beforeAda
      (promotedFirst.take 7) := by
    iterate 5
      refine ⟨trivial, fun s hs => ?_⟩
      obtain rfl := Option.some.inj hs
    refine ⟨?_, fun s hs => ?_⟩
    · rintro ⟨id, seen, role, committed, hlock, hrunning, -⟩
      cases hlock
      cases hrunning
    · exact ⟨trivial, fun _ _ => trivial⟩
  refine ⟨_, rfl, not_converged_of_overtaken fresh_beforeAda htimely rfl ?_ ?_
    (rfl : Runs.run (MemberState.step "workspace" "ada") _ [.commit] = _) ?_⟩
  · refine ⟨0, _, "member", "admin", rfl, rfl, rfl, by decide +kernel, by decide +kernel,
      ⟨"room", by decide +kernel, rfl⟩, ?_⟩
    intro other mutation phase hrunning
    match other with
    | 0 =>
      cases hrunning
      exact fun hcorrects => hcorrects _ rfl
    | 1 => cases hrunning
    | _ + 2 => cases hrunning
  · rintro _ _ ⟨⟩
  · intro id
    match id with
    | 0 => rfl
    | 1 => rfl
    | _ + 2 => rfl

end Auth
