import AtriumVerified.Auth.RoomAccess

/-!
# Keeping room membership in step with workspace membership

The model of the reconciliations of `packages/auth/src/workspace.ts`. Each runs in one transaction
under the advisory lock of its member: first it reads, then it writes. The lock keeps other
reconciliations of the member out from the first read to the commit; it does not keep out the
library, whose writes to `workspace_members` may land between the two. So every reconciliation is
given in two parts, what it reads and what it writes, and as the two together.
-/

namespace Auth

/-- What a reconciliation reads before it writes: the committed role of the member, and rooms. -/
structure Seen where
  committed : Option String
  roomIds : List String

variable (tables : Tables) (workspaceId userId : String)

def committedRole : Option String := tables.workspaceMembers workspaceId userId

/-- `workspaceRoomIds`: the rooms of a workspace, archived ones included. -/
def workspaceRoomIds : List String :=
  (tables.rooms.filter fun room => room.workspaceId == workspaceId).map Room.id

def liveRoomIds : List String :=
  (tables.rooms.filter fun room => room.workspaceId == workspaceId && !room.archived).map Room.id

def heldRooms (roomIds : List String) : Nat :=
  (roomIds.filter fun roomId => (tables.memberships roomId userId).isSome).length

def Tables.setRows (roomIds : List String) (set : Option Membership → Option Membership) : Tables :=
  { tables with
    memberships := fun roomId other =>
      if other = userId ∧ roomId ∈ roomIds then set (tables.memberships roomId other)
      else tables.memberships roomId other }

def deleteRoomMemberships (roomIds : List String) : Tables × Nat :=
  (tables.setRows userId roomIds fun _ => none, heldRooms tables userId roomIds)

/-! ## Joining -/

/-- What `joinWorkspaceRooms` reads. -/
def joinRead : Seen :=
  { committed := committedRole tables workspaceId userId
    roomIds := liveRoomIds tables workspaceId }

/-- The role that `joinWorkspaceRooms` gives. -/
def joinRole (role : String) (seen : Seen) : Option Role :=
  seen.committed.bind fun committed => roomRole (lowerOf role committed)

/-- What `joinWorkspaceRooms` writes: rows where there is none. -/
def joinApply (role : String) (seen : Seen) : Tables × Nat :=
  match joinRole role seen with
  | none => (tables, 0)
  | some role =>
    (tables.setRows userId seen.roomIds fun row => some (row.getD { role }), seen.roomIds.length)

def joinWorkspaceRooms (role : String) : Tables × Nat :=
  joinApply tables userId role (joinRead tables workspaceId userId)

/-! ## Revoking -/

/-- What `revokeWorkspaceRooms` reads. -/
def revokeRead : Seen :=
  { committed := committedRole tables workspaceId userId
    roomIds := workspaceRoomIds tables workspaceId }

/-- What `revokeWorkspaceRooms` writes. -/
def revokeApply (seen : Seen) : Tables × Nat := deleteRoomMemberships tables userId seen.roomIds

def revokeWorkspaceRooms : Tables × Nat :=
  revokeApply tables userId (revokeRead tables workspaceId userId)

/-! ## Synchronising -/

/-- What `syncWorkspaceRoomRoles` reads. -/
def syncRead : Seen :=
  { committed := committedRole tables workspaceId userId
    roomIds := workspaceRoomIds tables workspaceId }

/-- The role that `syncWorkspaceRoomRoles` applies. -/
def syncRole (atMost : Option String) (seen : Seen) : Option Role :=
  seen.committed.bind fun committed =>
    match atMost with
    | none => roomRole committed
    | some atMost => roomRole (lowerOf committed atMost)

/-- What `syncWorkspaceRoomRoles` writes: the role it applies, or nothing where there is none. -/
def syncApply (atMost : Option String) (seen : Seen) : Tables × Option Role × Nat :=
  if seen.roomIds = [] then (tables, syncRole atMost seen, 0)
  else
    match syncRole atMost seen with
    | none =>
      ((deleteRoomMemberships tables userId seen.roomIds).1, none,
        (deleteRoomMemberships tables userId seen.roomIds).2)
    | some role =>
      (tables.setRows userId seen.roomIds fun row => row.map fun row => { row with role },
        some role, heldRooms tables userId seen.roomIds)

def syncWorkspaceRoomRoles (atMost : Option String) : Tables × Option Role × Nat :=
  syncApply tables userId atMost (syncRead tables workspaceId userId)

end Auth
