import AtriumVerified.Lib.TwoWay

/-!
# The subscriptions of a server

The model of the hub of `apps/server/src/hub.ts`, of the table of `apps/server/src/head-acks.ts` and of
the handlers of `apps/server/src/ws-server.ts` that write them: `subscribe`, which waits for a membership,
`unsubscribe`, `ack_head`, the close of a socket, and the pass that asks for every membership again.
Everything may happen while a handler waits.
-/

namespace Realtime

/-! ## The hub -/

/-- `createHub`: rooms with their subscribers, and subscribers with their rooms. -/
abbrev Hub := Js.TwoWay String String

namespace Hub

variable (hub : Hub)

def subscribe (roomId subscriberId : String) : Hub := hub.link roomId subscriberId

def unsubscribe (roomId subscriberId : String) : Hub := hub.unlink roomId subscriberId

def drop (subscriberId : String) : Hub := hub.unlinkAll subscriberId

def roomsOf (subscriberId : String) : List String := hub.backward.setOf subscriberId

def activeRooms : List String := hub.forward.keys

def subscribers (roomId : String) : List String := hub.forward.setOf roomId

def isSubscribed (roomId subscriberId : String) : Bool := subscriberId ∈ hub.subscribers roomId

end Hub

/-! ## What sockets acknowledged -/

/-- `createHeadAcks`: the positions that a subscriber acknowledged, room by room. -/
structure HeadAcks where
  bySubscriber : Js.Map String (Js.Map String Nat)
  /-- No subscriber is there without a room. -/
  tight : ∀ subscriberId held, bySubscriber.get subscriberId = some held → held.entries ≠ []

namespace HeadAcks

def empty : HeadAcks := ⟨Js.Map.empty, by rintro subscriberId held ⟨⟩⟩

variable (acks : HeadAcks)

def held (subscriberId : String) : Js.Map String Nat :=
  (acks.bySubscriber.get subscriberId).getD Js.Map.empty

def position (subscriberId roomId : String) : Option Nat := (acks.held subscriberId).get roomId

theorem entries_set_ne_nil {α : Type} (m : Js.Map String α) (key : String) (value : α) :
    (m.set key value).entries ≠ [] := by
  intro hempty
  have hget : (m.set key value).get key = some value := by rw [Js.Map.get_set, if_pos rfl]
  have hmem := Js.Map.mem_of_get hget
  rw [hempty] at hmem
  cases hmem

def write (subscriberId roomId : String) (roomSeq : Nat) : HeadAcks where
  bySubscriber :=
    acks.bySubscriber.set subscriberId ((acks.held subscriberId).set roomId roomSeq)
  tight := by
    intro other held hheld
    rw [Js.Map.get_set] at hheld
    split at hheld
    · cases hheld
      exact entries_set_ne_nil _ _ _
    · exact acks.tight other held hheld

/-- `record`: only of a room that the hub lists. -/
def record (hub : Hub) (subscriberId roomId : String) (roomSeq : Nat) : Bool × HeadAcks :=
  if hub.isSubscribed roomId subscriberId then
    (true, acks.write subscriberId roomId
      (max ((acks.position subscriberId roomId).getD 0) roomSeq))
  else (false, acks)

def reset (subscriberId roomId : String) : HeadAcks := acks.write subscriberId roomId 0

def forget (subscriberId : String) : HeadAcks where
  bySubscriber := acks.bySubscriber.delete subscriberId
  tight := by
    intro other held hheld
    rw [Js.Map.get_delete] at hheld
    split at hheld
    · cases hheld
    · exact acks.tight other held hheld

def forgetRoom (subscriberId roomId : String) : HeadAcks :=
  match acks.bySubscriber.get subscriberId with
  | none => acks
  | some held =>
    if hempty : (held.delete roomId).entries = [] then acks.forget subscriberId
    else
      { bySubscriber := acks.bySubscriber.set subscriberId (held.delete roomId)
        tight := by
          intro other found hfound
          rw [Js.Map.get_set] at hfound
          split at hfound
          · cases hfound
            exact hempty
          · exact acks.tight other found hfound }

end HeadAcks

/-! ## The handlers -/

/-- `handleSubscribe`, at its first `await` or at a later one. -/
structure Joining where
  connection : String
  roomId : String
  /-- The membership is there, and the connection is in the hub. -/
  admitted : Bool
  deriving DecidableEq, Repr

/-- A subscription that a revalidation pass asks about. -/
structure Probe where
  roomId : String
  connection : String
  userId : String
  deriving DecidableEq, Repr

/-- A `subscribe` or an `unsubscribe` frame. -/
structure Wish where
  connection : String
  roomId : String
  wants : Bool
  deriving DecidableEq, Repr

/-- The subscriptions of a server, and what is under way. -/
structure Registry where
  hub : Hub
  acks : HeadAcks
  /-- `byConnectionId`: the connections that are open, with their users. -/
  users : Js.Map String String
  /-- The connections that were closed. -/
  closed : List String
  joins : List Joining
  /-- `revalidateSubscriptions`, at `stillMembers`. -/
  passes : List (List Probe)
  /-- The frames that arrived, the newest first. -/
  wishes : List Wish

inductive Happening where
  | connected (connection userId : String)
  | subscribe (connection roomId : String)
  | unsubscribe (connection roomId : String)
  | ackHead (connection roomId : String) (roomSeq : Nat)
  | closed (connection : String)
  /-- `requireMembership` returns to a handler. -/
  | admitted (index : Nat)
  /-- `requireMembership` throws. -/
  | refused (index : Nat)
  /-- The handler has sent its reply, or an error. -/
  | finished (index : Nat)
  /-- A pass has read the subscriptions. -/
  | passBegins
  /-- `stillMembers` returns the pairs of a user and a room that are memberships. -/
  | passAnswered (index : Nat) (held : List (String × String))
  /-- `stillMembers` throws. -/
  | passFailed (index : Nat)
  deriving DecidableEq, Repr

namespace Registry

def initial : Registry := ⟨Js.TwoWay.empty, .empty, Js.Map.empty, [], [], [], []⟩

variable (registry : Registry)

def isOpen (connection : String) : Bool := (registry.users.get connection).isSome

/-- The last of the two frames that arrived for a room was a `subscribe`. -/
def wants (connection roomId : String) : Bool :=
  match registry.wishes.find? fun wish => wish.connection == connection && wish.roomId == roomId with
  | some wish => wish.wants
  | none => false

def leaves (roomId connection : String) : Registry :=
  { registry with
    hub := registry.hub.unsubscribe roomId connection
    acks := registry.acks.forgetRoom connection roomId }

/-- The subscriptions of the connections that are open. -/
def probes : List Probe :=
  registry.hub.activeRooms.flatMap fun roomId =>
    (registry.hub.subscribers roomId).filterMap fun connection =>
      (registry.users.get connection).map fun userId => ⟨roomId, connection, userId⟩

/-- A subscription whose membership is gone is ended. -/
def judge (held : List (String × String)) (registry : Registry) (probe : Probe) : Registry :=
  if (probe.userId, probe.roomId) ∈ held then registry
  else registry.leaves probe.roomId probe.connection

/-- One happening: `none` when it can not be. -/
def step : Happening → Option Registry
  | .connected connection userId =>
    if registry.isOpen connection = true ∨ connection ∈ registry.closed then none
    else some { registry with users := registry.users.set connection userId }
  | .subscribe connection roomId =>
    if registry.isOpen connection then
      some { registry with
        joins := registry.joins ++ [⟨connection, roomId, false⟩]
        wishes := ⟨connection, roomId, true⟩ :: registry.wishes }
    else none
  | .unsubscribe connection roomId =>
    if registry.isOpen connection then
      some { registry.leaves roomId connection with
        wishes := ⟨connection, roomId, false⟩ :: registry.wishes }
    else none
  | .ackHead connection roomId roomSeq =>
    if registry.isOpen connection then
      some { registry with
        acks := (registry.acks.record registry.hub connection roomId roomSeq).2 }
    else none
  | .closed connection =>
    if registry.isOpen connection then
      some { registry with
        hub := registry.hub.drop connection
        acks := registry.acks.forget connection
        users := registry.users.delete connection
        closed := connection :: registry.closed }
    else none
  | .admitted index =>
    match registry.joins[index]? with
    | some ⟨connection, roomId, false⟩ =>
      -- Neither the socket nor a later frame is looked at.
      some { registry with
        hub := registry.hub.subscribe roomId connection
        acks := registry.acks.reset connection roomId
        joins := registry.joins.set index ⟨connection, roomId, true⟩ }
    | _ => none
  | .refused index =>
    match registry.joins[index]? with
    | some ⟨_, _, false⟩ => some { registry with joins := registry.joins.eraseIdx index }
    | _ => none
  | .finished index =>
    match registry.joins[index]? with
    | some ⟨_, _, true⟩ => some { registry with joins := registry.joins.eraseIdx index }
    | _ => none
  | .passBegins =>
    if registry.probes = [] then some registry
    else some { registry with passes := registry.passes ++ [registry.probes] }
  | .passAnswered index held =>
    match registry.passes[index]? with
    | some probes =>
      some (probes.foldl (judge held) { registry with passes := registry.passes.eraseIdx index })
    | none => none
  | .passFailed index =>
    if index < registry.passes.length then
      some { registry with passes := registry.passes.eraseIdx index }
    else none

def run : Registry → List Happening → Option Registry
  | registry, [] => some registry
  | registry, happening :: rest => (registry.step happening).bind fun next => next.run rest

end Registry

end Realtime
