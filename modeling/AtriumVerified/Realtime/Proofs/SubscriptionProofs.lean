import AtriumVerified.Realtime.Subscriptions

/-!
# Proofs: who is in a room

The hub lists the connections that are open and whose last frame for the room was a `subscribe`, and the
table of acknowledged heads knows the same connections, as long as no membership comes back to a handler
after its socket was closed or its room was left. A membership that does puts the connection back.
-/

namespace Realtime

variable {registry next : Registry} {connection other roomId otherRoom : String}

/-! ## The table of acknowledged heads -/

section Acks

variable {acks : HeadAcks}

theorem held_write (acks : HeadAcks) (connection roomId : String) (roomSeq : Nat) (other : String) :
    (acks.write connection roomId roomSeq).held other =
      if other = connection then (acks.held connection).set roomId roomSeq else acks.held other := by
  unfold HeadAcks.held HeadAcks.write
  dsimp only
  rw [Js.Map.get_set]
  split
  · rfl
  · rfl

theorem isSome_position_write (acks : HeadAcks) (connection roomId : String) (roomSeq : Nat)
    (other otherRoom : String) :
    ((acks.write connection roomId roomSeq).position other otherRoom).isSome = true ↔
      (acks.position other otherRoom).isSome = true ∨ otherRoom = roomId ∧ other = connection := by
  unfold HeadAcks.position
  rw [held_write]
  by_cases heq : other = connection
  · rw [if_pos heq, Js.Map.get_set, heq]
    by_cases hroom : otherRoom = roomId
    · rw [if_pos hroom]
      exact ⟨fun _ => Or.inr ⟨hroom, rfl⟩, fun _ => rfl⟩
    · rw [if_neg hroom]
      exact ⟨Or.inl, Or.rec id fun h => absurd h.1 hroom⟩
  · rw [if_neg heq]
    exact ⟨Or.inl, Or.rec id fun h => absurd h.2 heq⟩

theorem isSome_position_forget (acks : HeadAcks) (connection other otherRoom : String) :
    ((acks.forget connection).position other otherRoom).isSome = true ↔
      (acks.position other otherRoom).isSome = true ∧ other ≠ connection := by
  unfold HeadAcks.position HeadAcks.held HeadAcks.forget
  dsimp only
  rw [Js.Map.get_delete]
  by_cases heq : other = connection
  · rw [if_pos heq]
    exact ⟨fun hnone => (by cases hnone), fun h => absurd heq h.2⟩
  · rw [if_neg heq]
    exact ⟨fun h => ⟨h, heq⟩, And.left⟩

theorem isSome_position_forgetRoom (acks : HeadAcks) (connection roomId other otherRoom : String) :
    ((acks.forgetRoom connection roomId).position other otherRoom).isSome = true ↔
      (acks.position other otherRoom).isSome = true ∧ ¬ (otherRoom = roomId ∧ other = connection) := by
  unfold HeadAcks.forgetRoom
  cases hheld : acks.bySubscriber.get connection with
  | none =>
    refine ⟨fun h => ⟨h, ?_⟩, And.left⟩
    rintro ⟨-, rfl⟩
    unfold HeadAcks.position HeadAcks.held at h
    rw [hheld] at h
    cases h
  | some held =>
    have hown : acks.held connection = held := by
      unfold HeadAcks.held
      rw [hheld]
      rfl
    -- The rooms that are left of the connection.
    have hleft (room : String) : ((held.delete roomId).get room).isSome = true ↔
        (acks.position connection room).isSome = true ∧ room ≠ roomId := by
      unfold HeadAcks.position
      rw [hown, Js.Map.get_delete]
      split
      · next heq => exact ⟨fun hnone => (by cases hnone), fun h => absurd heq h.2⟩
      · next hne => exact ⟨fun h => ⟨h, hne⟩, And.left⟩
    dsimp only
    split
    · next hempty =>
      rw [isSome_position_forget]
      refine and_congr_right fun hposition => ⟨fun hne hboth => hne hboth.2, fun hnot heq => ?_⟩
      obtain rfl := heq
      have hroom : otherRoom ≠ roomId := fun hsame => hnot ⟨hsame, rfl⟩
      have hsome := (hleft otherRoom).mpr ⟨hposition, hroom⟩
      unfold Js.Map.get at hsome
      rw [hempty] at hsome
      cases hsome
    · by_cases heq : other = connection
      · have hnew : (acks.held other).get otherRoom = held.get otherRoom := by rw [heq, hown]
        have hwritten (tight : ∀ subscriberId kept,
            (acks.bySubscriber.set connection (held.delete roomId)).get subscriberId = some kept →
              kept.entries ≠ []) :
            (⟨acks.bySubscriber.set connection (held.delete roomId), tight⟩ : HeadAcks).position other
              otherRoom = (held.delete roomId).get otherRoom := by
          unfold HeadAcks.position HeadAcks.held
          dsimp only
          rw [Js.Map.get_set, if_pos heq]
          rfl
        rw [hwritten, hleft, heq]
        exact and_congr_right' (not_congr ⟨fun h => ⟨h, rfl⟩, And.left⟩)
      · have hwritten (tight : ∀ subscriberId kept,
            (acks.bySubscriber.set connection (held.delete roomId)).get subscriberId = some kept →
              kept.entries ≠ []) :
            (⟨acks.bySubscriber.set connection (held.delete roomId), tight⟩ : HeadAcks).position other
              otherRoom = acks.position other otherRoom := by
          unfold HeadAcks.position HeadAcks.held
          dsimp only
          rw [Js.Map.get_set, if_neg heq]
        rw [hwritten]
        exact ⟨fun h => ⟨h, fun hboth => heq hboth.2⟩, And.left⟩

theorem get_eq_none_of_position (h : ∀ roomId, acks.position connection roomId = none) :
    acks.bySubscriber.get connection = none := by
  cases hheld : acks.bySubscriber.get connection with
  | none => rfl
  | some held =>
    have hempty := acks.tight connection held hheld
    cases hentries : held.entries with
    | nil => exact absurd hentries hempty
    | cons entry rest =>
      have hget : held.get entry.1 = some entry.2 := by
        unfold Js.Map.get
        rw [hentries, List.find?_cons_of_pos (by simp)]
        rfl
      have hposition : acks.position connection entry.1 = held.get entry.1 := by
        unfold HeadAcks.position HeadAcks.held
        rw [hheld]
        rfl
      rw [h entry.1, hget] at hposition
      cases hposition

end Acks

/-! ## The registry -/

/-- Who is listed is open and asked for it, the table knows the same connections, and no connection is
both open and closed. -/
structure Registry.Sound (registry : Registry) : Prop where
  listed : ∀ roomId connection, registry.hub.Links roomId connection →
    registry.isOpen connection = true ∧ registry.wants connection roomId = true
  acked : ∀ connection roomId, (registry.acks.position connection roomId).isSome = true ↔
    registry.hub.Links roomId connection
  closed : ∀ connection ∈ registry.closed, registry.isOpen connection = false

/-- A membership comes back to a connection that is open and still asks for the room. -/
def Registry.Allows (registry : Registry) : Happening → Prop
  | .admitted index => ∀ connection roomId,
      registry.joins[index]? = some ⟨connection, roomId, false⟩ →
        registry.isOpen connection = true ∧ registry.wants connection roomId = true
  | _ => True

section Registries

theorem isSubscribed_iff {hub : Hub} :
    hub.isSubscribed roomId connection = true ↔ hub.Links roomId connection := decide_eq_true_iff

theorem wants_cons (registry : Registry) (wish : Wish) (connection roomId : String) :
    ({ registry with wishes := wish :: registry.wishes } : Registry).wants connection roomId =
      if wish.connection = connection ∧ wish.roomId = roomId then wish.wants
      else registry.wants connection roomId := by
  unfold Registry.wants
  rw [List.find?_cons]
  by_cases hsame : wish.connection = connection ∧ wish.roomId = roomId
  · have hbeq : (wish.connection == connection && wish.roomId == roomId) = true := by
      rw [hsame.1, hsame.2, beq_self_eq_true, beq_self_eq_true]
      rfl
    rw [hbeq, if_pos hsame]
  · have hbeq : (wish.connection == connection && wish.roomId == roomId) = false := by
      rw [Bool.eq_false_iff]
      intro hboth
      obtain ⟨hfirst, hsecond⟩ := Bool.and_eq_true_iff.mp hboth
      exact hsame ⟨eq_of_beq hfirst, eq_of_beq hsecond⟩
    rw [hbeq, if_neg hsame]

example : ({ Registry.initial with wishes := [⟨"c", "room", false⟩, ⟨"c", "room", true⟩] } :
    Registry).wants "c" "room" = false := by decide +kernel

theorem Registry.Sound.same (h : registry.Sound) (hhub : next.hub = registry.hub)
    (hacks : next.acks = registry.acks) (husers : next.users = registry.users)
    (hclosed : next.closed = registry.closed) (hwishes : next.wishes = registry.wishes) :
    next.Sound := by
  obtain ⟨hlisted, hacked, hgone⟩ := h
  unfold Registry.isOpen Registry.wants at hlisted
  unfold Registry.isOpen at hgone
  refine ⟨?_, ?_, ?_⟩
  · unfold Registry.isOpen Registry.wants
    rw [hhub, husers, hwishes]
    exact hlisted
  · rw [hhub, hacks]
    exact hacked
  · unfold Registry.isOpen
    rw [hclosed, husers]
    exact hgone

theorem sound_leaves (h : registry.Sound) (roomId connection : String) :
    (registry.leaves roomId connection).Sound := by
  refine ⟨?_, ?_, h.closed⟩
  · intro room other hlinks
    exact h.listed room other (Js.TwoWay.links_unlink.mp hlinks).1
  · intro other room
    have hforgotten := isSome_position_forgetRoom registry.acks connection roomId other room
    have hlinks : (registry.leaves roomId connection).hub.Links room other ↔
        registry.hub.Links room other ∧ ¬ (room = roomId ∧ other = connection) :=
      Js.TwoWay.links_unlink
    rw [hlinks, ← h.acked]
    exact hforgotten

theorem sound_judge (h : registry.Sound) (held : List (String × String)) (probe : Probe) :
    (Registry.judge held registry probe).Sound := by
  unfold Registry.judge
  split
  · exact h
  · exact sound_leaves h probe.roomId probe.connection

theorem sound_judges (h : registry.Sound) (held : List (String × String)) (probes : List Probe) :
    (probes.foldl (Registry.judge held) registry).Sound := by
  induction probes generalizing registry with
  | nil => exact h
  | cons probe probes ih => exact ih (sound_judge h held probe)

theorem sound_connected (h : registry.Sound) {userId : String}
    (hclosed : connection ∉ registry.closed) :
    ({ registry with users := registry.users.set connection userId } : Registry).Sound := by
  have hopen (other : String) : ({ registry with users := registry.users.set connection userId } :
      Registry).isOpen other = true ↔ other = connection ∨ registry.isOpen other = true := by
    unfold Registry.isOpen
    dsimp only
    rw [Js.Map.get_set]
    split
    · next heq => exact ⟨fun _ => Or.inl heq, fun _ => rfl⟩
    · next hne => exact ⟨Or.inr, Or.rec (fun heq => absurd heq hne) id⟩
  refine ⟨?_, h.acked, ?_⟩
  · intro room other hlinks
    obtain ⟨hlive, hwants⟩ := h.listed room other hlinks
    exact ⟨(hopen other).mpr (Or.inr hlive), hwants⟩
  · intro other hother
    rw [Bool.eq_false_iff]
    intro hlive
    rcases (hopen other).mp hlive with rfl | hlive
    · exact hclosed hother
    · rw [h.closed other hother] at hlive
      cases hlive

theorem sound_wish (h : registry.Sound) {wish : Wish}
    (hwish : wish.wants = true ∨ ¬ registry.hub.Links wish.roomId wish.connection) :
    ({ registry with wishes := wish :: registry.wishes } : Registry).Sound := by
  refine ⟨?_, h.acked, h.closed⟩
  intro room other hlinks
  obtain ⟨hlive, hwants⟩ := h.listed room other hlinks
  refine ⟨hlive, ?_⟩
  rw [wants_cons]
  split
  · next hsame =>
    rcases hwish with hasks | hleft
    · exact hasks
    · rw [hsame.1, hsame.2] at hleft
      exact absurd hlinks hleft
  · exact hwants

theorem sound_ackHead (h : registry.Sound) (connection roomId : String) (roomSeq : Nat) :
    ({ registry with acks := (registry.acks.record registry.hub connection roomId roomSeq).2 } :
      Registry).Sound := by
  refine ⟨h.listed, ?_, h.closed⟩
  intro other room
  show ((registry.acks.record registry.hub connection roomId roomSeq).2.position other room).isSome =
    true ↔ registry.hub.Links room other
  unfold HeadAcks.record
  split
  · next hsubscribed =>
    dsimp only
    rw [isSome_position_write, h.acked]
    refine ⟨Or.rec id ?_, Or.inl⟩
    rintro ⟨rfl, rfl⟩
    exact isSubscribed_iff.mp hsubscribed
  · exact h.acked other room

theorem sound_closed (h : registry.Sound) (connection : String) :
    ({ registry with
      hub := registry.hub.drop connection
      acks := registry.acks.forget connection
      users := registry.users.delete connection
      closed := connection :: registry.closed } : Registry).Sound := by
  have hopen (other : String) : ({ registry with
      hub := registry.hub.drop connection
      acks := registry.acks.forget connection
      users := registry.users.delete connection
      closed := connection :: registry.closed } : Registry).isOpen other = true ↔
        other ≠ connection ∧ registry.isOpen other = true := by
    unfold Registry.isOpen
    dsimp only
    rw [Js.Map.get_delete]
    split
    · next heq => exact ⟨fun hnone => (by cases hnone), fun h => absurd heq h.1⟩
    · next hne => exact ⟨fun hlive => ⟨hne, hlive⟩, And.right⟩
  have hlinks (room other : String) : (registry.hub.drop connection).Links room other ↔
      registry.hub.Links room other ∧ other ≠ connection := Js.TwoWay.links_unlinkAll
  refine ⟨?_, ?_, ?_⟩
  · intro room other hlisted
    obtain ⟨hheld, hne⟩ := (hlinks room other).mp hlisted
    obtain ⟨hlive, hwants⟩ := h.listed room other hheld
    exact ⟨(hopen other).mpr ⟨hne, hlive⟩, hwants⟩
  · intro other room
    show ((registry.acks.forget connection).position other room).isSome = true ↔
      (registry.hub.drop connection).Links room other
    rw [hlinks, isSome_position_forget, h.acked]
  · intro other hother
    rw [Bool.eq_false_iff]
    intro hlive
    obtain ⟨hne, hlive⟩ := (hopen other).mp hlive
    rcases List.mem_cons.mp hother with heq | hbefore
    · exact hne heq
    · rw [h.closed other hbefore] at hlive
      cases hlive

theorem sound_admitted (h : registry.Sound) {index : Nat}
    (hopen : registry.isOpen connection = true) (hwants : registry.wants connection roomId = true) :
    ({ registry with
      hub := registry.hub.subscribe roomId connection
      acks := registry.acks.reset connection roomId
      joins := registry.joins.set index ⟨connection, roomId, true⟩ } : Registry).Sound := by
  have hlinks (room other : String) : (registry.hub.subscribe roomId connection).Links room other ↔
      registry.hub.Links room other ∨ room = roomId ∧ other = connection := Js.TwoWay.links_link
  refine ⟨?_, ?_, h.closed⟩
  · intro room other hlisted
    rcases (hlinks room other).mp hlisted with hheld | ⟨rfl, rfl⟩
    · exact h.listed room other hheld
    · exact ⟨hopen, hwants⟩
  · intro other room
    show ((registry.acks.reset connection roomId).position other room).isSome = true ↔
      (registry.hub.subscribe roomId connection).Links room other
    unfold HeadAcks.reset
    rw [hlinks, isSome_position_write, h.acked]

theorem sound_step {happening : Happening} (hallows : registry.Allows happening) (h : registry.Sound)
    (hstep : registry.step happening = some next) : next.Sound := by
  cases happening with
  | connected connection userId =>
    dsimp only [Registry.step] at hstep
    split at hstep
    · cases hstep
    · next hnew =>
      cases hstep
      exact sound_connected h (not_or.mp hnew).2
  | subscribe connection roomId =>
    dsimp only [Registry.step] at hstep
    split at hstep
    · cases hstep
      have hwished : ({ registry with wishes := ⟨connection, roomId, true⟩ :: registry.wishes } :
        Registry).Sound := sound_wish h (Or.inl rfl)
      exact hwished.same rfl rfl rfl rfl rfl
    · cases hstep
  | unsubscribe connection roomId =>
    dsimp only [Registry.step] at hstep
    split at hstep
    · cases hstep
      refine sound_wish (sound_leaves h roomId connection) (Or.inr ?_)
      intro hlinks
      exact (Js.TwoWay.links_unlink.mp hlinks).2 ⟨rfl, rfl⟩
    · cases hstep
  | ackHead connection roomId roomSeq =>
    dsimp only [Registry.step] at hstep
    split at hstep
    · cases hstep
      exact sound_ackHead h connection roomId roomSeq
    · cases hstep
  | closed connection =>
    dsimp only [Registry.step] at hstep
    split at hstep
    · cases hstep
      exact sound_closed h connection
    · cases hstep
  | admitted index =>
    dsimp only [Registry.step] at hstep
    split at hstep
    · next connection roomId hjoining =>
      cases hstep
      obtain ⟨hopen, hwants⟩ := hallows connection roomId hjoining
      exact sound_admitted h hopen hwants
    · cases hstep
  | refused index =>
    dsimp only [Registry.step] at hstep
    split at hstep
    · cases hstep
      exact h.same rfl rfl rfl rfl rfl
    · cases hstep
  | finished index =>
    dsimp only [Registry.step] at hstep
    split at hstep
    · cases hstep
      exact h.same rfl rfl rfl rfl rfl
    · cases hstep
  | passBegins =>
    dsimp only [Registry.step] at hstep
    split at hstep
    · cases hstep
      exact h
    · cases hstep
      exact h.same rfl rfl rfl rfl rfl
  | passAnswered index held =>
    dsimp only [Registry.step] at hstep
    split at hstep
    · next probes _ =>
      cases hstep
      have hanswered : ({ registry with passes := registry.passes.eraseIdx index } : Registry).Sound :=
        h.same rfl rfl rfl rfl rfl
      exact sound_judges hanswered held probes
    · cases hstep
  | passFailed index =>
    dsimp only [Registry.step] at hstep
    split at hstep
    · cases hstep
      exact h.same rfl rfl rfl rfl rfl
    · cases hstep

/-! ## Runs -/

/-- The hub lists a connection in a room only if its socket is open and its last frame for the room was a
`subscribe`, and nothing is left of a connection that was closed. -/
structure Registry.Follows (registry : Registry) : Prop where
  listed : ∀ roomId connection, registry.hub.isSubscribed roomId connection = true →
    registry.isOpen connection = true ∧ registry.wants connection roomId = true
  closed : ∀ connection ∈ registry.closed, registry.hub.roomsOf connection = [] ∧
    (∀ roomId, registry.hub.isSubscribed roomId connection = false) ∧
    registry.acks.bySubscriber.get connection = none

/-- A run in which memberships come back in time. -/
def Registry.AllowsRun : Registry → List Happening → Prop
  | _, [] => True
  | registry, happening :: rest => registry.Allows happening ∧
      ∀ next, registry.step happening = some next → next.AllowsRun rest

theorem allowsRun_cons {happening : Happening} {rest : List Happening}
    (hstep : registry.step happening = some next) (hallows : registry.Allows happening)
    (hrest : next.AllowsRun rest) : registry.AllowsRun (happening :: rest) := by
  refine ⟨hallows, fun other hother => ?_⟩
  cases hstep.symm.trans hother
  exact hrest

theorem Registry.Sound.follows (h : registry.Sound) : registry.Follows := by
  have hgone (connection : String) (hclosed : connection ∈ registry.closed) (roomId : String) :
      ¬ registry.hub.Links roomId connection := by
    intro hlinks
    have hopen := (h.listed roomId connection hlinks).1
    rw [h.closed connection hclosed] at hopen
    cases hopen
  refine ⟨fun roomId connection hlisted => h.listed roomId connection (isSubscribed_iff.mp hlisted), ?_⟩
  intro connection hclosed
  refine ⟨?_, ?_, ?_⟩
  · refine List.eq_nil_iff_forall_not_mem.mpr fun roomId hroom => ?_
    exact hgone connection hclosed roomId ((registry.hub.agrees roomId connection).mpr hroom)
  · intro roomId
    rw [Bool.eq_false_iff]
    exact fun hlisted => hgone connection hclosed roomId (isSubscribed_iff.mp hlisted)
  · refine get_eq_none_of_position fun roomId => ?_
    rw [← Option.not_isSome_iff_eq_none, h.acked]
    exact hgone connection hclosed roomId

theorem allows_of_follows {happening : Happening} (hstep : registry.step happening = some next)
    (hfollows : next.Follows) : registry.Allows happening := by
  cases happening with
  | admitted index =>
    intro connection roomId hjoining
    dsimp only [Registry.step] at hstep
    rw [hjoining] at hstep
    cases hstep
    have hlisted := hfollows.listed roomId connection
      (isSubscribed_iff.mpr (Js.TwoWay.links_link.mpr (Or.inr ⟨rfl, rfl⟩)))
    exact hlisted
  | _ => trivial

theorem follows_run {happenings : List Happening} {reached : Registry}
    (hrun : registry.run happenings = some reached) (h : registry.Sound) :
    registry.AllowsRun happenings ↔ ∀ before between, before <+: happenings →
      registry.run before = some between → between.Follows := by
  induction happenings generalizing registry with
  | nil =>
    refine ⟨fun _ before between hbefore hbetween => ?_, fun _ => trivial⟩
    rw [List.prefix_nil.mp hbefore] at hbetween
    cases hbetween
    exact h.follows
  | cons happening rest ih =>
    obtain ⟨next, hstep, hrest⟩ := Option.bind_eq_some_iff.mp hrun
    have hone : registry.run [happening] = some next := by
      unfold Registry.run
      rw [hstep]
      rfl
    constructor
    · rintro ⟨hallows, hlater⟩ before between hbefore hbetween
      have hnext := sound_step hallows h hstep
      cases before with
      | nil =>
        cases hbetween
        exact h.follows
      | cons first before =>
        obtain ⟨rfl, hshort⟩ := List.cons_prefix_cons.mp hbefore
        obtain ⟨middle, hfirst, hmiddle⟩ := Option.bind_eq_some_iff.mp hbetween
        cases hstep.symm.trans hfirst
        exact (ih hrest hnext).mp (hlater next hstep) before between hshort hmiddle
    · intro hall
      have hallows := allows_of_follows hstep
        (hall [happening] next (List.cons_prefix_cons.mpr ⟨rfl, List.nil_prefix⟩) hone)
      refine ⟨hallows, fun other hother => ?_⟩
      cases hstep.symm.trans hother
      refine (ih hrest (sound_step hallows h hstep)).mpr fun before between hbefore hbetween => ?_
      refine hall (happening :: before) between (List.cons_prefix_cons.mpr ⟨rfl, hbefore⟩) ?_
      unfold Registry.run
      rw [hstep]
      exact hbetween

/-- The hub follows the sockets and their frames in every state of a run exactly when every membership
comes back while its socket is open and still asks for the room. -/
theorem subscriptions_follow_frames (happenings : List Happening) (reached : Registry)
    (hrun : Registry.initial.run happenings = some reached) :
    Registry.initial.AllowsRun happenings ↔ ∀ before between, before <+: happenings →
      Registry.initial.run before = some between → between.Follows := by
  refine follows_run hrun ⟨?_, ?_, ?_⟩
  · intro roomId connection hlinks
    exact absurd hlinks (Js.TwoWay.links_empty roomId connection)
  · intro connection roomId
    refine ⟨fun hnone => (by cases hnone), fun hlinks => ?_⟩
    exact absurd hlinks (Js.TwoWay.links_empty roomId connection)
  · rintro connection ⟨⟩

end Registries

/-! ### One connection -/

/-- A connection joins a room, leaves it while it joins again, and is closed while it is asked for. -/
def joinedTwice : List Happening :=
  [.connected "c" "alice", .subscribe "c" "room", .admitted 0, .finished 0, .ackHead "c" "room" 3,
    .passBegins, .unsubscribe "c" "room", .subscribe "c" "room", .admitted 0, .closed "c",
    .passAnswered 0 [], .finished 0]

/-- The socket is closed while the handler waits for the membership. -/
def closedEarly : List Happening :=
  [.connected "c" "alice", .subscribe "c" "room", .closed "c", .admitted 0, .finished 0]

/-- The room is left while the handler waits for the membership. -/
def leftEarly : List Happening :=
  [.connected "c" "alice", .subscribe "c" "room", .unsubscribe "c" "room", .admitted 0, .finished 0]

def registryAfter (happenings : List Happening) : Registry :=
  (Registry.initial.run happenings).getD .initial

theorem joined_twice_follows :
    Registry.initial.run joinedTwice = some (registryAfter joinedTwice) ∧
      ∀ before between, before <+: joinedTwice →
        Registry.initial.run before = some between → between.Follows := by
  refine ⟨rfl, (subscriptions_follow_frames joinedTwice (registryAfter joinedTwice) rfl).mp ?_⟩
  have hjoins {registry : Registry} {index : Nat} (hjoining : registry.joins[index]? =
      some ⟨"c", "room", false⟩) (hopen : registry.isOpen "c" = true)
      (hwants : registry.wants "c" "room" = true) : registry.Allows (.admitted index) := by
    intro connection roomId hfound
    cases hjoining.symm.trans hfound
    exact ⟨hopen, hwants⟩
  refine allowsRun_cons rfl trivial (allowsRun_cons rfl trivial (allowsRun_cons rfl (hjoins rfl rfl rfl)
    (allowsRun_cons rfl trivial (allowsRun_cons rfl trivial (allowsRun_cons rfl trivial
      (allowsRun_cons rfl trivial (allowsRun_cons rfl trivial (allowsRun_cons rfl (hjoins rfl rfl rfl)
        (allowsRun_cons rfl trivial (allowsRun_cons rfl trivial (allowsRun_cons rfl trivial
          trivial)))))))))))

/-- Handlers that come back too late leave a closed connection in the hub and in the table, and a
connection in a room that it left. -/
theorem late_membership_stays :
    (Registry.initial.run closedEarly = some (registryAfter closedEarly) ∧
      (registryAfter closedEarly).joins = [] ∧ (registryAfter closedEarly).passes = [] ∧
      (registryAfter closedEarly).hub.isSubscribed "room" "c" = true ∧
      (registryAfter closedEarly).isOpen "c" = false ∧
      (registryAfter closedEarly).acks.position "c" "room" = some 0) ∧
    (Registry.initial.run leftEarly = some (registryAfter leftEarly) ∧
      (registryAfter leftEarly).joins = [] ∧ (registryAfter leftEarly).passes = [] ∧
      (registryAfter leftEarly).hub.isSubscribed "room" "c" = true ∧
      (registryAfter leftEarly).wants "c" "room" = false) := by
  refine ⟨⟨rfl, ?_⟩, ⟨rfl, ?_⟩⟩
  · decide +kernel
  · decide +kernel

end Realtime
