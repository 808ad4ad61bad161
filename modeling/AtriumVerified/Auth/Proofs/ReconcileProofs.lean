import AtriumVerified.Auth.MemberHooks

/-!
# What the reconciliations write

A revocation and a synchronisation make no row; a join makes rows where there is none, with the role
that it gives. No row gives more authority than the committed workspace role.
-/

namespace Auth

variable {tables : Tables} {workspaceId userId roomId role : String} {m : Membership} {seen : Seen}

/-! ## The rows of a member -/

def RoomRow (tables : Tables) (workspaceId userId roomId : String) (m : Membership) : Prop :=
  roomId ∈ workspaceRoomIds tables workspaceId ∧ tables.memberships roomId userId = some m

/-- Every room row of the member carries the committed role; without a member row there is none. -/
def Reconciled (tables : Tables) (workspaceId userId : String) : Prop :=
  ∀ roomId m, RoomRow tables workspaceId userId roomId m →
    (committedRole tables workspaceId userId).bind parseRole = some m.role

/-- Rooms have ids of their own, and every row of the user is for one of them. -/
structure SoundTables (tables : Tables) (userId : String) : Prop where
  nodup : (tables.rooms.map Room.id).Nodup
  known : ∀ roomId m, tables.memberships roomId userId = some m → roomId ∈ tables.rooms.map Room.id

theorem Reconciled.nil_of_none (h : Reconciled tables workspaceId userId)
    (hnone : committedRole tables workspaceId userId = none) :
    ¬ RoomRow tables workspaceId userId roomId m := by
  intro hrow
  have hrole := h roomId m hrow
  rw [hnone] at hrole
  cases hrole

theorem reconciled_of_nil (h : ∀ roomId m, ¬ RoomRow tables workspaceId userId roomId m) :
    Reconciled tables workspaceId userId := fun roomId m hrow => absurd hrow (h roomId m)

theorem mem_workspaceRoomIds :
    roomId ∈ workspaceRoomIds tables workspaceId ↔
      ∃ room ∈ tables.rooms, room.workspaceId = workspaceId ∧ room.id = roomId := by
  simp only [workspaceRoomIds, List.mem_map, List.mem_filter, beq_iff_eq, and_assoc]

theorem mem_ids_of_mem_workspaceRoomIds (h : roomId ∈ workspaceRoomIds tables workspaceId) :
    roomId ∈ tables.rooms.map Room.id := by
  obtain ⟨room, hroom, -, rfl⟩ := mem_workspaceRoomIds.mp h
  exact List.mem_map_of_mem hroom

theorem mem_workspaceRoomIds_of_live (h : roomId ∈ liveRoomIds tables workspaceId) :
    roomId ∈ workspaceRoomIds tables workspaceId := by
  simp only [liveRoomIds, List.mem_map, List.mem_filter, Bool.and_eq_true, beq_iff_eq] at h
  obtain ⟨room, ⟨hroom, hworkspace, -⟩, rfl⟩ := h
  exact mem_workspaceRoomIds.mpr ⟨room, hroom, hworkspace, rfl⟩

/-! ## What authority a row gives -/

theorem level_loadRoomMembership_le (hsound : SoundTables tables userId)
    (hroom : roomId ∈ workspaceRoomIds tables workspaceId) :
    level (loadRoomMembership tables roomId userId)
      ≤ level ((committedRole tables workspaceId userId).bind parseRole) := by
  obtain ⟨room, hmem, rfl, rfl⟩ := mem_workspaceRoomIds.mp hroom
  unfold loadRoomMembership authorizationRow
  cases hrow : tables.memberships room.id userId with
  | none => exact Nat.zero_le _
  | some membership =>
    cases hfound : tables.rooms.find? fun other => other.id == room.id && !other.archived with
    | none => exact Nat.zero_le _
    | some found =>
      have hkey := List.find?_some hfound
      simp only [Bool.and_eq_true, beq_iff_eq] at hkey
      have heq : found = room :=
        List.inj_on_of_nodup_map hsound.nodup (List.mem_of_find?_eq_some hfound) hmem hkey.1
      subst heq
      simp only [Option.bind_eq_bind, Option.bind_some, committedRole]
      cases tables.workspaceMembers found.workspaceId userId with
      | none => exact Nat.zero_le _
      | some role =>
        have hlower := level_lowerOf membership.role.text role
        simp only [Option.bind_some, Option.pure_def, Option.map_some, effectiveRoomRole, hlower]
        exact Nat.min_le_right _ _

/-! ## What a reconciliation writes -/

theorem setRows_of_mem {roomIds : List String} {set : Option Membership → Option Membership}
    (h : roomId ∈ roomIds) :
    (tables.setRows userId roomIds set).memberships roomId userId
      = set (tables.memberships roomId userId) := if_pos ⟨rfl, h⟩

theorem setRows_of_notMem {roomIds : List String} {set : Option Membership → Option Membership}
    (h : roomId ∉ roomIds) :
    (tables.setRows userId roomIds set).memberships roomId userId
      = tables.memberships roomId userId := if_neg fun hmem => h hmem.2

theorem joinApply_row
    (h : (joinApply tables userId role seen).1.memberships roomId userId = some m) :
    tables.memberships roomId userId = some m ∨
      tables.memberships roomId userId = none ∧ roomId ∈ seen.roomIds ∧
        joinRole role seen = some m.role := by
  unfold joinApply at h
  split at h
  · exact .inl h
  · rename_i given hgiven
    by_cases hmem : roomId ∈ seen.roomIds
    · rw [setRows_of_mem hmem] at h
      cases hrow : tables.memberships roomId userId with
      | none =>
        rw [hrow] at h
        cases h
        exact .inr ⟨rfl, hmem, hgiven⟩
      | some row =>
        rw [hrow] at h
        exact .inl h
    · rw [setRows_of_notMem hmem] at h
      exact .inl h

theorem revokeApply_row
    (h : (revokeApply tables userId seen).1.memberships roomId userId = some m) :
    tables.memberships roomId userId = some m ∧ roomId ∉ seen.roomIds := by
  by_cases hmem : roomId ∈ seen.roomIds
  · rw [revokeApply, deleteRoomMemberships, setRows_of_mem hmem] at h
    cases h
  · rw [revokeApply, deleteRoomMemberships, setRows_of_notMem hmem] at h
    exact ⟨h, hmem⟩

theorem syncApply_row {atMost : Option String}
    (h : (syncApply tables userId atMost seen).1.memberships roomId userId = some m) :
    ∃ row, tables.memberships roomId userId = some row ∧
      (roomId ∉ seen.roomIds ∨ syncRole atMost seen = some m.role) := by
  by_cases hmem : roomId ∈ seen.roomIds
  · unfold syncApply at h
    split at h
    · rename_i hnil
      rw [hnil] at hmem
      cases hmem
    · split at h
      · rw [deleteRoomMemberships, setRows_of_mem hmem] at h
        cases h
      · rename_i given hgiven
        rw [setRows_of_mem hmem] at h
        obtain ⟨row, hrow, rfl⟩ := Option.map_eq_some_iff.mp h
        exact ⟨row, hrow, .inr hgiven⟩
  · refine ⟨m, ?_, .inl hmem⟩
    unfold syncApply at h
    split at h
    · exact h
    · split at h
      · rwa [deleteRoomMemberships, setRows_of_notMem hmem] at h
      · rwa [setRows_of_notMem hmem] at h

variable {job : Reconciliation}

/-- A reconciliation writes room memberships only. -/
theorem apply_frame (job : Reconciliation) (tables : Tables) : ∃ rows,
    job.apply tables userId seen = { tables with memberships := rows } := by
  cases job with
  | join role =>
    simp only [Reconciliation.apply, joinApply]
    split <;> exact ⟨_, rfl⟩
  | revoke => exact ⟨_, rfl⟩
  | sync atMost =>
    simp only [Reconciliation.apply, syncApply]
    split
    · exact ⟨_, rfl⟩
    · split <;> exact ⟨_, rfl⟩

@[simp] theorem apply_rooms : (job.apply tables userId seen).rooms = tables.rooms := by
  obtain ⟨rows, hrows⟩ := apply_frame job tables
  rw [hrows]

@[simp] theorem apply_workspaceMembers :
    (job.apply tables userId seen).workspaceMembers = tables.workspaceMembers := by
  obtain ⟨rows, hrows⟩ := apply_frame job tables
  rw [hrows]

@[simp] theorem workspaceRoomIds_apply :
    workspaceRoomIds (job.apply tables userId seen) workspaceId
      = workspaceRoomIds tables workspaceId := by
  rw [workspaceRoomIds, apply_rooms]
  rfl

@[simp] theorem committedRole_apply :
    committedRole (job.apply tables userId seen) workspaceId userId
      = committedRole tables workspaceId userId := by
  rw [committedRole, apply_workspaceMembers]
  rfl

theorem apply_row_of_not_join (hjoin : ∀ role, job ≠ .join role)
    (h : RoomRow (job.apply tables userId seen) workspaceId userId roomId m) :
    ∃ row, RoomRow tables workspaceId userId roomId row := by
  rw [RoomRow, workspaceRoomIds_apply] at h
  cases job with
  | join role => exact absurd rfl (hjoin role)
  | revoke => exact ⟨m, h.1, (revokeApply_row h.2).1⟩
  | sync atMost =>
    obtain ⟨row, hrow, -⟩ := syncApply_row h.2
    exact ⟨row, h.1, hrow⟩

theorem SoundTables.apply (h : SoundTables tables userId)
    (hseen : ∀ roomId ∈ seen.roomIds, roomId ∈ tables.rooms.map Room.id) :
    SoundTables (job.apply tables userId seen) userId := by
  refine ⟨by rw [apply_rooms]; exact h.nodup, ?_⟩
  intro roomId m hrow
  rw [apply_rooms]
  cases job with
  | join role =>
    rcases joinApply_row hrow with hold | ⟨-, hmem, -⟩
    · exact h.known roomId m hold
    · exact hseen roomId hmem
  | revoke => exact h.known roomId m (revokeApply_row hrow).1
  | sync atMost =>
    obtain ⟨row, hold, -⟩ := syncApply_row hrow
    exact h.known roomId row hold

end Auth
