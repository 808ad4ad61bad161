import AtriumVerified.Auth.Authz

/-!
# Who may act in a room

The model of `packages/auth/src/room-access.ts` and of the tables it reads: room memberships, rooms
and workspace members. A table with a unique key of two columns is a function of that key, so it
holds at most one row for each.
-/

namespace Auth

/-- A row of `rooms`. -/
structure Room where
  id : String
  workspaceId : String
  archived : Bool

/-- A row of `memberships` without its key. -/
structure Membership where
  role : Role
  seenSeq : Nat := 0
  deriving DecidableEq

/-- The tables that decide who may act in a room. -/
structure Tables where
  rooms : List Room
  /-- `memberships` by `room_id` and `user_id`. -/
  memberships : String → String → Option Membership
  /-- `workspace_members.role` by `organization_id` and `user_id`. -/
  workspaceMembers : String → String → Option String

structure RoomAuthorizationRow where
  role : String
  workspaceRole : String

def effectiveRoomRole (row : Option RoomAuthorizationRow) : Option Role :=
  row.bind fun row => parseRole (lowerOf row.role row.workspaceRole)

def authorizationRow (tables : Tables) (roomId userId : String) :
    Option (Membership × RoomAuthorizationRow) := do
  let membership ← tables.memberships roomId userId
  let room ← tables.rooms.find? fun room => room.id == roomId && !room.archived
  let workspaceRole ← tables.workspaceMembers room.workspaceId userId
  pure (membership, { role := membership.role.text, workspaceRole })

def loadRoomMembership (tables : Tables) (roomId userId : String) : Option Role :=
  effectiveRoomRole ((authorizationRow tables roomId userId).map Prod.snd)

structure RoomMembershipRow where
  roomId : String
  userId : String
  role : Role
  seenSeq : Nat

/-- `loadRoomMembershipRow`. The locks it takes order it against the writes of the same rows. -/
def loadRoomMembershipRow (tables : Tables) (roomId userId : String) : Option RoomMembershipRow :=
  match authorizationRow tables roomId userId with
  | none => none
  | some (membership, row) =>
    (effectiveRoomRole (some row)).map fun role =>
      { roomId, userId, role, seenSeq := membership.seenSeq }

end Auth
