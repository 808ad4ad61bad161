import AtriumVerified.Web.Wire

/-!
# The journal of the web client

The model of `RoomJournal` and `memoryJournal` of `apps/web/src/lib/realtime.ts`.
-/

namespace Web

structure HeldRoom where
  events : List RoomEntry
  lastSeq : Nat
  deriving DecidableEq, Repr

/-- `RoomJournal`, over the store it keeps its rooms in. -/
structure RoomJournal (σ : Type) where
  load : σ → String → HeldRoom × σ
  commit : σ → String → RoomEntry → Nat → σ
  reset : σ → String → σ

/-- The store of `memoryJournal`. -/
abbrev MemoryStore := Js.Map String HeldRoom

def memoryRoom (store : MemoryStore) (roomId : String) : HeldRoom × MemoryStore :=
  match store.get roomId with
  | some existing => (existing, store)
  | none => (⟨[], 0⟩, store.set roomId ⟨[], 0⟩)

def memoryJournal : RoomJournal MemoryStore where
  load := memoryRoom
  commit store roomId entry lastSeq :=
    let (current, store) := memoryRoom store roomId
    store.set roomId ⟨current.events ++ [entry], max current.lastSeq lastSeq⟩
  reset store roomId := store.delete roomId

/-- What a memory journal holds of a room, without making it. -/
def heldRoom (store : MemoryStore) (roomId : String) : HeldRoom :=
  (store.get roomId).getD ⟨[], 0⟩

end Web
