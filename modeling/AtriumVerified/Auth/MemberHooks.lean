import AtriumVerified.Auth.Workspace

/-!
# The life of one member

The model of the hooks of `packages/auth/src/org.ts` around the library's writes. A role change, an
acceptance or a removal is a hook before the write, the library's own committed write, and a hook
after it. Any number of them run at once on one member. The reconciliations that the hooks make take
the lock of the member in turn; the library's writes take no lock.
-/

namespace Auth

inductive Mutation where
  /-- A role change, to the role that the request gives. -/
  | change (newRole : String)
  /-- The acceptance of an invitation to a role. -/
  | accept (role : String)
  | remove
  deriving DecidableEq

inductive Reconciliation where
  | join (role : String)
  | revoke
  | sync (atMost : Option String)
  deriving DecidableEq

namespace Reconciliation

def read (tables : Tables) (workspaceId userId : String) : Reconciliation → Seen
  | join _ => joinRead tables workspaceId userId
  | revoke => revokeRead tables workspaceId userId
  | sync _ => syncRead tables workspaceId userId

def apply (tables : Tables) (userId : String) (seen : Seen) : Reconciliation → Tables
  | join role => (joinApply tables userId role seen).1
  | revoke => (revokeApply tables userId seen).1
  | sync atMost => (syncApply tables userId atMost seen).1

end Reconciliation

inductive Phase where
  /-- The hook before the write wants the lock for this reconciliation, or holds it. -/
  | early (job : Reconciliation)
  /-- The library's write comes next. -/
  | ready
  /-- The write has committed; the hook after it wants the lock, or holds it. -/
  | late
  deriving DecidableEq

structure Running where
  mutation : Mutation
  phase : Phase

/-- The hooks `beforeUpdateMemberRole` and `beforeRemoveMember`, up to the reconciliation that they
ask for. An acceptance has no hook before its write. `none` is a role that `assertKnownRole`
refuses. -/
def beforeHook (tables : Tables) (workspaceId userId : String) : Mutation → Option Phase
  | .change newRole =>
    (assertKnownRole newRole).map fun newRole =>
      if isDemotion (committedRole tables workspaceId userId) newRole then
        .early (.sync (some newRole))
      else .ready
  | .accept _ => some .ready
  | .remove => some (.early .revoke)

/-- The reconciliation of `afterUpdateMemberRole`, `afterAcceptInvitation` and
`afterRemoveMember`. -/
def afterHook : Mutation → Reconciliation
  | .change _ => .sync none
  | .accept role => .join role
  | .remove => .revoke

/-- The reconciliation that a mutation wants the lock for. -/
def Running.job (running : Running) : Option Reconciliation :=
  match running.phase with
  | .early job => some job
  | .ready => none
  | .late => some (afterHook running.mutation)

/-- The role of the member row after the library's write, `none` where the write cannot be made: a
role change needs the row, and an acceptance makes it. -/
def libraryWrite (committed : Option String) : Mutation → Option (Option String)
  | .change newRole => committed.map fun _ => some newRole
  | .accept role => if committed = none then some (some role) else none
  | .remove => some none

/-- The tables, the mutations of one member that are under way, and who holds the lock of the member
with what has been read under it. -/
structure MemberState where
  tables : Tables
  running : Nat → Option Running
  lock : Option (Nat × Seen)

inductive MemberEvent where
  /-- A mutation begins, with the unlocked part of its first hook. -/
  | start (id : Nat) (mutation : Mutation)
  /-- A hook takes the lock and reads. -/
  | acquire (id : Nat)
  /-- The hook that holds the lock writes and commits. -/
  | commit
  /-- The library's write commits. -/
  | write (id : Nat)
  /-- The library's write cannot be made, and the mutation ends. -/
  | giveUp (id : Nat)
  /-- A room is made. -/
  | makeRoom (room : Room)
  /-- Rooms are archived or brought back. -/
  | archive (archived : String → Bool)
  /-- Other members, and this one in other workspaces. -/
  | others (memberships : String → String → Option Membership)
      (workspaceMembers : String → String → Option String)

namespace MemberState

def set (s : MemberState) (id : Nat) (running : Option Running) : MemberState :=
  { s with running := fun other => if other = id then running else s.running other }

/-- The mutation after its reconciliation has committed. -/
def onward (running : Running) : Option Running :=
  match running.phase with
  | .early _ => some { running with phase := .ready }
  | .ready => some running
  | .late => none

variable (workspaceId userId : String)

def setCommitted (s : MemberState) (role : Option String) : MemberState :=
  { s with
    tables.workspaceMembers := fun workspace user =>
      if workspace = workspaceId ∧ user = userId then role
      else s.tables.workspaceMembers workspace user }

/-- The state after an event, `none` where it cannot happen. -/
def step (s : MemberState) : MemberEvent → Option MemberState
  | .start id mutation =>
    match s.running id with
    | some _ => none
    | none =>
      (beforeHook s.tables workspaceId userId mutation).map fun phase =>
        s.set id (some { mutation, phase })
  | .acquire id =>
    match s.lock, (s.running id).bind Running.job with
    | none, some job => some { s with lock := some (id, job.read s.tables workspaceId userId) }
    | _, _ => none
  | .commit =>
    match s.lock with
    | none => none
    | some (id, seen) =>
      match s.running id with
      | none => none
      | some running =>
        running.job.map fun job =>
          { s.set id (onward running) with tables := job.apply s.tables userId seen, lock := none }
  | .write id =>
    match s.running id with
    | some { mutation, phase := .ready } =>
      (libraryWrite (committedRole s.tables workspaceId userId) mutation).map fun role =>
        (s.set id (some { mutation, phase := .late })).setCommitted workspaceId userId role
    | _ => none
  | .giveUp id =>
    match s.running id with
    | some { mutation, phase := .ready } =>
      match libraryWrite (committedRole s.tables workspaceId userId) mutation with
      | none => some (s.set id none)
      | some _ => none
    | _ => none
  | .makeRoom room =>
    if room.id ∈ s.tables.rooms.map Room.id then none
    else some { s with tables.rooms := s.tables.rooms ++ [room] }
  | .archive archived =>
    some { s with
      tables.rooms := s.tables.rooms.map fun room => { room with archived := archived room.id } }
  | .others memberships workspaceMembers =>
    some { s with
      tables.memberships := fun roomId user =>
        if user = userId then s.tables.memberships roomId user else memberships roomId user
      tables.workspaceMembers := fun workspace user =>
        if workspace = workspaceId ∧ user = userId then s.tables.workspaceMembers workspace user
        else workspaceMembers workspace user }

def Quiet (s : MemberState) : Prop := ∀ id, s.running id = none

end MemberState

end Auth
