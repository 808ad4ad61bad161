import AtriumVerified.Execution.Commands
import AtriumVerified.Server.Proofs.AppendProofs

/-!
# What a command does to the tables

Every command that is not refused appends one event, and the event changes the tables in one of nine
ways. `Effect` lists them with what the guards and projections checked; everything else about a run
follows from it.
-/

namespace Execution

open Core Postgres Server

/-! ## Statements -/

section Statements

variable {ρ : Type} {table next : Table Uuid ρ} {room : ρ → Uuid} {key roomId : Id}

theorem rowIn_ok {found : Option ρ} (h : rowIn table room key roomId = .ok found) :
    ∃ k r, uuid key = some k ∧ uuid roomId = some r ∧
      found = (table.lookup k).filter fun row => room row == r := by
  obtain ⟨k, hk, h⟩ := bind_ok h
  obtain ⟨r, hr, h⟩ := bind_ok h
  cases h
  exact ⟨k, r, cast_ok hk, cast_ok hr, rfl⟩

theorem rowIn_some {row : ρ} (h : rowIn table room key roomId = .ok (some row)) :
    ∃ k, uuid key = some k ∧ uuid roomId = some (room row) ∧ table.lookup k = some row := by
  obtain ⟨k, r, hk, hr, hfound⟩ := rowIn_ok h
  obtain ⟨hlook, hroom⟩ := Option.filter_eq_some_iff.mp hfound.symm
  rw [beq_iff_eq] at hroom
  exact ⟨k, hk, hroom ▸ hr, hlook⟩

theorem insertIn_ok {row : ρ} (h : insertIn table key row = .ok next) :
    ∃ k, uuid key = some k ∧ table.lookup k = none ∧ next = table.insert k row := by
  obtain ⟨k, hk, h⟩ := bind_ok h
  obtain ⟨hfresh, hnext⟩ := Table.insertRow_eq_some.mp (cast_ok h)
  exact ⟨k, cast_ok hk, hfresh, hnext.symm⟩

theorem updateIn_ok {condition : ρ → Bool} {change : ρ → ρ} {refusal : String}
    (h : updateIn table room key roomId condition change refusal = .ok next) :
    ∃ k row, uuid key = some k ∧ uuid roomId = some (room row) ∧ table.lookup k = some row ∧
      condition row = true ∧ next = table.insert k (change row) := by
  obtain ⟨found, hfound, h⟩ := bind_ok h
  obtain ⟨k, hk, h⟩ := bind_ok h
  split at h
  · cases h
  · rename_i row hrow
    cases h
    obtain ⟨rfl, hcond⟩ := Option.filter_eq_some_iff.mp hrow
    obtain ⟨k', hk', hr, hlook⟩ := rowIn_some hfound
    obtain rfl := Option.some.inj ((cast_ok hk).symm.trans hk')
    exact ⟨k, row, hk', hr, hlook, hcond, rfl⟩

end Statements

theorem uuidOrNull_ok {id : Option Id} {value : Option Uuid} (h : uuidOrNull id = .ok value) :
    value = id.bind uuid := by
  cases id with
  | none =>
    cases h
    rfl
  | some id =>
    have hmap : (cast (uuid id)).map some = .ok value := h
    rcases hid : uuid id with _ | found
    · rw [hid] at hmap
      cases hmap
    · rw [hid] at hmap
      cases hmap
      exact hid.symm

/-! ## The effects -/

def claimed (arms : Table (Uuid × Uuid) FundedArmRow) (room : Uuid) (cause : Option Uuid)
    (arm : FundedArmRow) : Table (Uuid × Uuid) FundedArmRow :=
  match cause with
  | none => arms
  | some cause => arms.insert (room, cause) arm

def Unfunded (tables : Tables) (room : Uuid) (cause : Option Uuid) : Prop :=
  ∀ message, cause = some message → tables.fundedArms.lookup (room, message) = none

def PlanRow.drawn (row : PlanRow) : PlanRow := { row with authorizedDraws := row.authorizedDraws + 1 }

inductive Effect (tables : Tables) (event : Event) : Tables → Prop
  | planOpened (plan room : Uuid) (row : PlanRow) {planId agentUserId : Id} {title : String}
      {budget : Option Nat} {cause : Option Id}
      (payload : event.payload = .planOpened planId agentUserId title budget cause)
      (key : uuid planId = some plan) (roomKey : uuid event.roomId = some room)
      (fresh : tables.plans.lookup plan = none)
      (inRoom : row.roomId = room) (named : row.causeMessageId = cause.bind uuid)
      (status : row.status = .opened) (slice : row.rlimitSlice = none)
      (draws : row.authorizedDraws = 0)
      (unclaimed : ∀ message, cause.bind uuid = some message → ∀ other otherRow,
        tables.plans.lookup other = some otherRow → otherRow.roomId = room →
          otherRow.causeMessageId ≠ some message) :
      Effect tables event { tables with plans := tables.plans.insert plan row }
  | planSettled (plan : Uuid) (row : PlanRow) {planId : Id}
      (payload : event.payload = .planSettled planId) (key : uuid planId = some plan)
      (held : tables.plans.lookup plan = some row) (status : row.status = .opened)
      (children : ∀ session child, tables.sessions.lookup session = some child →
        child.planId = plan → child.roomId = row.roomId → child.status ≠ .opened) :
      Effect tables event { tables with
        plans := tables.plans.insert plan
          { row with status := .settled, settledByEventId := some event.id } }
  | planRlimitSet (plan : Uuid) (row : PlanRow) {planId : Id} {slice : Nat}
      (payload : event.payload = .planRlimitSet planId slice) (key : uuid planId = some plan)
      (held : tables.plans.lookup plan = some row) (status : row.status = .opened) :
      Effect tables event { tables with
        plans := tables.plans.insert plan { row with rlimitSlice := some slice } }
  | sessionOpened (session plan : Uuid) (row : SessionRow) (parent : PlanRow) (arm : FundedArmRow)
      {sessionId planId : Id} {harness model : String} {mode : ExecutionMode}
      {owner : Option String} {cause : Option Id}
      (payload : event.payload = .sessionOpened sessionId planId harness model mode owner cause)
      (key : uuid sessionId = some session) (planKey : uuid planId = some plan)
      (roomKey : uuid event.roomId = some parent.roomId)
      (held : tables.plans.lookup plan = some parent) (parentStatus : parent.status = .opened)
      (below : parent.authorizedDraws < parent.rlimitSlice.getD 0)
      (fresh : tables.sessions.lookup session = none) (under : row.planId = plan)
      (inRoom : row.roomId = parent.roomId) (status : row.status = .opened)
      (unclaimed : row.executionClaimedAt = none)
      (unfunded : Unfunded tables parent.roomId (cause.bind uuid)) :
      Effect tables event { tables with
        sessions := tables.sessions.insert session row
        fundedArms := claimed tables.fundedArms parent.roomId (cause.bind uuid) arm
        plans := tables.plans.insert plan parent.drawn }
  | sessionExit (session : Uuid) (row : SessionRow) {outcome : Outcome} {sessionId : Id}
      {receipt : Receipt} (payload : event.payload = .sessionExit outcome sessionId receipt)
      (key : uuid sessionId = some session) (roomKey : uuid event.roomId = some row.roomId)
      (held : tables.sessions.lookup session = some row) (status : row.status = .opened) :
      Effect tables event (disposeWaits { tables with
        sessions := tables.sessions.insert session (row.exit event.id outcome receipt) }
        row.roomId session)
  | drawRefused {planId : Id} {slice draws : Nat} {harness model : String}
      (payload : event.payload = .drawRefused planId slice draws harness model) :
      Effect tables event tables
  | signaled (signals : Table Uuid SignalRow) {sessionId signalId : Id} {kind : SignalKind}
      {body : Option String} {cause supersedes : Option Id}
      (payload : event.payload = .sessionSignaled sessionId signalId kind body cause supersedes none)
      (nudge : kind ≠ .resume) :
      Effect tables event { tables with signals }
  | resumed (session : Uuid) (row : SessionRow) (parent : PlanRow) (arm : FundedArmRow)
      (signals : Table Uuid SignalRow) (subscriptions : Table Uuid SubscriptionRow)
      {sessionId signalId : Id} {body : Option String} {cause supersedes subscription : Option Id}
      (payload : event.payload =
        .sessionSignaled sessionId signalId .resume body cause supersedes subscription)
      (key : uuid sessionId = some session) (roomKey : uuid event.roomId = some row.roomId)
      (held : tables.sessions.lookup session = some row) (status : row.status = .opened)
      (heldPlan : tables.plans.lookup row.planId = some parent)
      (below : parent.authorizedDraws < parent.rlimitSlice.getD 0)
      (unfunded : Unfunded tables row.roomId (cause.bind uuid))
      (waits : subscriptions = tables.subscriptions ∨ ∃ wait waiting,
        tables.subscriptions.lookup wait = some waiting ∧ waiting.status = .waiting ∧
          subscriptions = tables.subscriptions.insert wait
            { waiting with status := .matched, matchedByEventId := some event.id }) :
      Effect tables event { tables with
        signals
        subscriptions
        fundedArms := claimed tables.fundedArms row.roomId (cause.bind uuid) arm
        plans := tables.plans.insert row.planId parent.drawn }
  | subscribed (wait : Uuid) (row : SubscriptionRow) (target : SessionRow)
      {sessionId subscriptionId : Id} {source matcher : String} {expiresAt : Timestamp}
      (payload : event.payload =
        .sessionSubscribed sessionId subscriptionId source matcher expiresAt)
      (fresh : tables.subscriptions.lookup wait = none)
      (held : tables.sessions.lookup row.sessionId = some target)
      (inRoom : row.roomId = target.roomId) (status : target.status = .opened) :
      Effect tables event { tables with subscriptions := tables.subscriptions.insert wait row }

/-! ## Projections -/

section Projections

variable {tables next : Tables} {event : Event}

theorem claimFundedArm_ok {arm : Arm} {session : Uuid} {cause : Option Id}
    (h : claimFundedArm tables event arm session cause = .ok next) {room : Uuid}
    (hroom : uuid event.roomId = some room) :
    Unfunded tables room (cause.bind uuid) ∧
      next = { tables with
        fundedArms := claimed tables.fundedArms room (cause.bind uuid) ⟨arm, session, event.id⟩ } := by
  cases cause with
  | none =>
    cases h
    exact ⟨fun message hmessage => (by cases hmessage), rfl⟩
  | some cause =>
    obtain ⟨r, hr, h⟩ := bind_ok h
    obtain ⟨c, hc, h⟩ := bind_ok h
    obtain rfl := Option.some.inj ((cast_ok hr).symm.trans hroom)
    have hc : uuid cause = some c := cast_ok hc
    split at h
    · cases h
    · rename_i hnone
      cases h
      have hbind : (some cause).bind uuid = some c := hc
      rw [hbind]
      refine ⟨?_, rfl⟩
      intro message hmessage
      obtain rfl := Option.some.inj hmessage
      exact hnone

theorem updateRow_held {plan : Uuid} {row : PlanRow} (h : tables.plans.lookup plan = some row) :
    countDraw tables plan = { tables with plans := tables.plans.insert plan row.drawn } := by
  unfold countDraw
  rw [Table.updateRow_hit _ h rfl]
  rfl

theorem openChildren_nil {plan room : Uuid} (h : (openChildren tables plan room).isEmpty = true)
    {session : Uuid} {child : SessionRow} (hlook : tables.sessions.lookup session = some child)
    (hplan : child.planId = plan) (hroom : child.roomId = room) : child.status ≠ .opened := by
  intro hstatus
  have hmem : session ∈ openChildren tables plan room := by
    rw [openChildren, ← AList.mem_keys, ← AList.lookup_isSome,
      Table.lookup_selectWhere.mpr ⟨hlook, by simp [hplan, hroom, hstatus]⟩]
    rfl
  rw [List.isEmpty_iff.mp h] at hmem
  cases hmem

theorem projectPlanSettled_effect {planId : Id} (hpayload : event.payload = .planSettled planId)
    (h : projectPlanSettled tables event planId = .ok next) : Effect tables event next := by
  obtain ⟨plan, hplan, h⟩ := bind_ok h
  obtain ⟨room, hroom, h⟩ := bind_ok h
  obtain ⟨⟨⟩, hchildren, h⟩ := bind_ok h
  obtain ⟨plans, hplans, h⟩ := bind_ok h
  cases h
  obtain ⟨k, row, hk, hr, hlook, hopen, rfl⟩ := updateIn_ok hplans
  obtain rfl := Option.some.inj ((cast_ok hplan).symm.trans hk)
  obtain rfl := Option.some.inj ((cast_ok hroom).symm.trans hr)
  exact .planSettled plan row hpayload hk hlook (eq_of_beq hopen) fun session child hchild =>
    openChildren_nil (demand_ok hchildren) hchild

theorem projectPlanRlimitSet_effect {planId : Id} {slice : Nat}
    (hpayload : event.payload = .planRlimitSet planId slice)
    (h : projectPlanRlimitSet tables event planId slice = .ok next) : Effect tables event next := by
  obtain ⟨plans, hplans, h⟩ := bind_ok h
  cases h
  obtain ⟨k, row, hk, -, hlook, hopen, rfl⟩ := updateIn_ok hplans
  exact .planRlimitSet k row hpayload hk hlook (eq_of_beq hopen)

theorem projectSessionOpened_effect {authority : String} {sessionId planId : Id}
    {harness model : String} {mode : ExecutionMode} {owner : Option String} {cause : Option Id}
    (hpayload : event.payload = .sessionOpened sessionId planId harness model mode owner cause)
    (h : projectSessionOpened tables authority event sessionId planId harness model mode owner cause =
      .ok next)
    (hbelow : ∀ parent, planIn tables planId event.roomId = .ok (some parent) →
      parent.status = .opened → parent.authorizedDraws < parent.rlimitSlice.getD 0) :
    Effect tables event next := by
  obtain ⟨found, hfound, h⟩ := bind_ok h
  split at h
  · cases h
  · rename_i parent
    obtain ⟨⟨⟩, hopen, h⟩ := bind_ok h
    obtain ⟨room, hroom, h⟩ := bind_ok h
    obtain ⟨plan, hplan, h⟩ := bind_ok h
    obtain ⟨session, hsession, h⟩ := bind_ok h
    obtain ⟨causeId, hcause, h⟩ := bind_ok h
    obtain ⟨sessions, hsessions, h⟩ := bind_ok h
    obtain ⟨funded, hfunded, h⟩ := bind_ok h
    cases h
    have hstatus : parent.status = .opened := eq_of_beq (demand_ok hopen)
    obtain ⟨k, hk, hr, hlook⟩ := rowIn_some hfound
    obtain rfl := Option.some.inj ((cast_ok hplan).symm.trans hk)
    obtain rfl := Option.some.inj ((cast_ok hroom).symm.trans hr)
    obtain ⟨s, hs, hfresh, rfl⟩ := insertIn_ok hsessions
    obtain rfl := Option.some.inj ((cast_ok hsession).symm.trans hs)
    obtain ⟨hunfunded, hclaimed⟩ := claimFundedArm_ok hfunded hr
    have hparent : funded.plans.lookup plan = some parent := by
      rw [hclaimed]
      exact hlook
    rw [updateRow_held hparent, hclaimed]
    exact .sessionOpened session plan _ parent _ hpayload hs hk hr hlook hstatus
      (hbelow parent hfound hstatus) hfresh rfl rfl rfl rfl hunfunded

theorem projectSessionExit_effect {outcome : Outcome} {sessionId : Id} {receipt : Receipt}
    (hpayload : event.payload = .sessionExit outcome sessionId receipt)
    (h : projectSessionExit tables event outcome sessionId receipt = .ok next) :
    Effect tables event next := by
  obtain ⟨sessions, hsessions, h⟩ := bind_ok h
  obtain ⟨session, hsession, h⟩ := bind_ok h
  obtain ⟨room, hroom, h⟩ := bind_ok h
  cases h
  obtain ⟨k, row, hk, hr, hlook, hopen, rfl⟩ := updateIn_ok hsessions
  obtain rfl := Option.some.inj ((cast_ok hsession).symm.trans hk)
  obtain rfl := Option.some.inj ((cast_ok hroom).symm.trans hr)
  exact .sessionExit session row hpayload hk hr hlook (eq_of_beq hopen)

theorem requireSlice_ok {sessionId : Id} {planId : Uuid} {u : Unit}
    (h : requireSlice tables event sessionId planId = .ok u) :
    ∃ row, tables.plans.lookup planId = some row ∧ uuid event.roomId = some row.roomId ∧
      row.authorizedDraws < row.rlimitSlice.getD 0 := by
  obtain ⟨room, hroom, h⟩ := bind_ok h
  split at h
  · cases h
  · rename_i row hrow
    obtain ⟨hlook, hroomEq⟩ := Option.filter_eq_some_iff.mp hrow
    rw [beq_iff_eq] at hroomEq
    exact ⟨row, hlook, hroomEq ▸ cast_ok hroom, of_decide_eq_true (demand_ok h)⟩

theorem payOut_ok {sessionId : Id} {session : Uuid} {subscription : Option Id}
    (h : payOut tables event sessionId session subscription = .ok next) :
    next = tables ∨ ∃ wait waiting, tables.subscriptions.lookup wait = some waiting ∧
      waiting.status = .waiting ∧ next = { tables with
        subscriptions := tables.subscriptions.insert wait
          { waiting with status := .matched, matchedByEventId := some event.id } } := by
  unfold payOut at h
  split at h
  · cases h
    exact .inl rfl
  · obtain ⟨subscriptions, hsubs, h⟩ := bind_ok h
    cases h
    obtain ⟨k, row, hk, hr, hlook, hcond, rfl⟩ := updateIn_ok hsubs
    rw [Bool.and_eq_true] at hcond
    exact .inr ⟨k, row, hlook, eq_of_beq hcond.2, rfl⟩

theorem projectSessionSignaled_effect {sessionId signalId : Id} {kind : SignalKind}
    {body : Option String} {cause supersedes subscription : Option Id}
    (hpayload : event.payload =
      .sessionSignaled sessionId signalId kind body cause supersedes subscription)
    (hkind : kind ≠ .resume → subscription = none)
    (h : projectSessionSignaled tables event sessionId signalId kind body cause supersedes
      subscription = .ok next) : Effect tables event next := by
  obtain ⟨found, hfound, h⟩ := bind_ok h
  split at h
  · cases h
  · rename_i row
    obtain ⟨⟨⟩, hopen, h⟩ := bind_ok h
    have hstatus : row.status = .opened := eq_of_beq (demand_ok hopen)
    obtain ⟨k, hk, hr, hlook⟩ := rowIn_some hfound
    by_cases hresume : kind = .resume
    · subst hresume
      obtain ⟨⟨⟩, hslice, h⟩ := bind_ok h
      obtain ⟨room, hroom, h⟩ := bind_ok h
      obtain ⟨session, hsession, h⟩ := bind_ok h
      obtain ⟨causeId, -, h⟩ := bind_ok h
      obtain ⟨subscriptionId, -, h⟩ := bind_ok h
      obtain ⟨raisedBy, -, h⟩ := bind_ok h
      obtain ⟨signals, -, h⟩ := bind_ok h
      obtain ⟨funded, hfunded, h⟩ := bind_ok h
      obtain rfl := Option.some.inj ((cast_ok hsession).symm.trans hk)
      obtain ⟨parent, hparent, -, hbelow⟩ := requireSlice_ok hslice
      obtain ⟨hunfunded, hclaimed⟩ := claimFundedArm_ok hfunded hr
      have hheld : funded.plans.lookup row.planId = some parent := by
        rw [hclaimed]
        exact hparent
      rw [updateRow_held hheld, hclaimed] at h
      rcases payOut_ok h with rfl | ⟨wait, waiting, hwait, hwaiting, rfl⟩
      · exact .resumed session row parent _ signals _ hpayload hk hr hlook hstatus hparent hbelow
          hunfunded (.inl rfl)
      · exact .resumed session row parent _ signals _ hpayload hk hr hlook hstatus hparent hbelow
          hunfunded (.inr ⟨wait, waiting, hwait, hwaiting, rfl⟩)
    · obtain rfl := hkind hresume
      simp only [hresume, if_false] at h
      obtain ⟨room, -, h⟩ := bind_ok h
      obtain ⟨session, -, h⟩ := bind_ok h
      obtain ⟨causeId, -, h⟩ := bind_ok h
      obtain ⟨subscriptionId, -, h⟩ := bind_ok h
      obtain ⟨raisedBy, -, h⟩ := bind_ok h
      obtain ⟨signals, -, h⟩ := bind_ok h
      cases h
      exact .signaled signals hpayload hresume

theorem readSignalTarget_ok {around : Surroundings} {roomId sessionId : Id} {target : SignalTarget}
    (h : readSignalTarget around tables roomId sessionId = .ok (some target)) :
    ∃ session row plan, uuid sessionId = some session ∧ uuid roomId = some row.roomId ∧
      tables.sessions.lookup session = some row ∧ tables.plans.lookup row.planId = some plan ∧
      target.status = row.status ∧ target.planId = row.planId ∧
      target.harness = row.harness ∧ target.model = row.model ∧
      target.slice = plan.rlimitSlice ∧ target.authorizedDraws = plan.authorizedDraws := by
  obtain ⟨found, hfound, h⟩ := bind_ok h
  obtain ⟨row, rfl, hrow⟩ := Option.bind_eq_some_iff.mp (Except.ok.inj h)
  obtain ⟨plan, hplan, howner⟩ := Option.bind_eq_some_iff.mp hrow
  obtain ⟨owner, -, rfl⟩ := Option.map_eq_some_iff.mp howner
  obtain ⟨k, hk, hr, hlook⟩ := rowIn_some hfound
  exact ⟨k, row, plan, hk, hr, hlook, (Option.filter_eq_some_iff.mp hplan).1, rfl, rfl, rfl, rfl,
    rfl, rfl⟩

theorem projectSessionSubscribed_effect {around : Surroundings} {sessionId subscriptionId : Id}
    {source matcher : String} {expiresAt : Timestamp}
    (hpayload : event.payload =
      .sessionSubscribed sessionId subscriptionId source matcher expiresAt)
    (h : projectSessionSubscribed around tables event sessionId subscriptionId source matcher
      expiresAt = .ok next) : Effect tables event next := by
  obtain ⟨found, hfound, h⟩ := bind_ok h
  split at h
  · cases h
  · rename_i target
    obtain ⟨⟨⟩, hopen, h⟩ := bind_ok h
    obtain ⟨⟨⟩, -, h⟩ := bind_ok h
    obtain ⟨room, hroom, h⟩ := bind_ok h
    obtain ⟨session, hsession, h⟩ := bind_ok h
    obtain ⟨raisedBy, -, h⟩ := bind_ok h
    obtain ⟨subscriptions, hsubs, h⟩ := bind_ok h
    cases h
    obtain ⟨k, row, plan, hk, hr, hlook, -, hstatus, -⟩ := readSignalTarget_ok hfound
    obtain rfl := Option.some.inj ((cast_ok hsession).symm.trans hk)
    obtain rfl := Option.some.inj ((cast_ok hroom).symm.trans hr)
    obtain ⟨wait, -, hfresh, rfl⟩ := insertIn_ok hsubs
    exact .subscribed wait _ row hpayload hfresh hlook rfl
      (hstatus ▸ eq_of_beq (demand_ok hopen))

end Projections

/-! ## Commands -/

section Commands

variable {around : Surroundings} {tables next : Tables} {caller : Caller} {draw : Draw}
  {event : Event}

theorem append_ok {actor : Actor} {roomId : Id} {payload : Payload}
    (h : append around tables draw actor roomId payload = .ok (next, event)) :
    event = ⟨draw.eventId, roomId, actor, payload⟩ ∧
      projectRoomEvent around draw.authority tables event = .ok next := by
  obtain ⟨projected, hproject, h⟩ := bind_ok h
  cases h
  exact ⟨rfl, hproject⟩

theorem requirePlanCauseUnclaimed_ok {roomId : Id} {cause : Option Id} {u : Unit}
    (h : requirePlanCauseUnclaimed tables roomId cause = .ok u) {room message : Uuid}
    (hroom : uuid roomId = some room) (hmessage : cause.bind uuid = some message) {other : Uuid}
    {row : PlanRow} (hlook : tables.plans.lookup other = some row) (hrow : row.roomId = room) :
    row.causeMessageId ≠ some message := by
  obtain ⟨causeId, rfl, hcause⟩ := Option.bind_eq_some_iff.mp hmessage
  obtain ⟨r, hr, h⟩ := bind_ok h
  obtain ⟨c, hc, h⟩ := bind_ok h
  obtain rfl := Option.some.inj ((cast_ok hr).symm.trans hroom)
  obtain rfl := Option.some.inj ((cast_ok hc).symm.trans hcause)
  intro hnamed
  have hempty := List.isEmpty_iff.mp (demand_ok h)
  have hmem : other ∈ (Table.selectWhere tables.plans fun _ plan =>
      plan.roomId == r && plan.causeMessageId == some c).keys := by
    rw [← AList.mem_keys, ← AList.lookup_isSome,
      Table.lookup_selectWhere.mpr ⟨hlook, by simp [hrow, hnamed]⟩]
    rfl
  rw [hempty] at hmem
  cases hmem

theorem openPlan_effect {command : OpenPlan}
    (h : openPlan around tables caller draw command = .ok (next, event)) :
    Effect tables event next := by
  obtain ⟨⟨⟩, -, h⟩ := bind_ok h
  obtain ⟨⟨⟩, -, h⟩ := bind_ok h
  obtain ⟨⟨⟩, hguard, h⟩ := bind_ok h
  obtain ⟨rfl, h⟩ := append_ok h
  obtain ⟨room, hroom, h⟩ := bind_ok h
  obtain ⟨agent, -, h⟩ := bind_ok h
  obtain ⟨causeId, hcause, h⟩ := bind_ok h
  obtain ⟨plans, hplans, h⟩ := bind_ok h
  cases h
  obtain ⟨plan, hk, hfresh, rfl⟩ := insertIn_ok hplans
  exact .planOpened plan room _ rfl hk (cast_ok hroom) hfresh rfl (uuidOrNull_ok hcause) rfl rfl rfl
    fun message hmessage other row hlook hrow =>
      requirePlanCauseUnclaimed_ok hguard (cast_ok hroom) hmessage hlook hrow

theorem settlePlan_effect {command : SettlePlan}
    (h : settlePlan around tables caller draw command = .ok (next, event)) :
    Effect tables event next := by
  obtain ⟨⟨⟩, -, h⟩ := bind_ok h
  obtain ⟨rfl, h⟩ := append_ok h
  exact projectPlanSettled_effect rfl h

theorem setPlanRlimit_effect {command : SetPlanRlimit}
    (h : setPlanRlimit around tables caller draw command = .ok (next, event)) :
    Effect tables event next := by
  obtain ⟨⟨⟩, -, h⟩ := bind_ok h
  obtain ⟨rfl, h⟩ := append_ok h
  exact projectPlanRlimitSet_effect rfl h

theorem isSpent_iff {slice : Option Nat} {draws : Nat} :
    isSpent slice draws = true ↔ slice.getD 0 ≤ draws := by
  unfold isSpent
  rw [decide_eq_true_iff]
  omega

/-- What `open_session` answers: a session under a plan that has a draw left, or a refusal. -/
theorem openSession_ok {command : OpenSession}
    (h : openSession around tables caller draw command = .ok (next, event)) :
    Effect tables event next ∧ ((∃ mode owner, event.payload = .sessionOpened draw.entityId
        command.planId command.harness command.model mode owner command.causeMessageId) ∨
      ∃ plan row, event.payload = .drawRefused command.planId (row.rlimitSlice.getD 0)
          row.authorizedDraws command.harness command.model ∧ next = tables ∧
        uuid command.planId = some plan ∧ tables.plans.lookup plan = some row ∧
        row.rlimitSlice.getD 0 ≤ row.authorizedDraws) := by
  obtain ⟨⟨⟩, -, h⟩ := bind_ok h
  obtain ⟨⟨⟩, -, h⟩ := bind_ok h
  obtain ⟨⟨⟩, -, h⟩ := bind_ok h
  obtain ⟨found, hfound, h⟩ := bind_ok h
  split at h
  · rename_i row hrow
    obtain ⟨rfl, h⟩ := append_ok h
    cases h
    obtain ⟨rfl, hcond⟩ := Option.filter_eq_some_iff.mp hrow
    rw [Bool.and_eq_true, isSpent_iff] at hcond
    obtain ⟨plan, hk, -, hlook⟩ := rowIn_some hfound
    exact ⟨.drawRefused rfl, .inr ⟨plan, row, rfl, rfl, hk, hlook, hcond.2⟩⟩
  · rename_i hnone
    obtain ⟨rfl, h⟩ := append_ok h
    refine ⟨projectSessionOpened_effect rfl h ?_, .inl ⟨_, _, rfl⟩⟩
    intro parent hparent hstatus
    obtain rfl := Except.ok.inj (hfound.symm.trans hparent)
    have hspent := Option.filter_eq_none_iff.mp hnone parent rfl
    rw [hstatus, Bool.and_eq_true, isSpent_iff] at hspent
    exact Nat.lt_of_not_le fun hle => hspent ⟨rfl, hle⟩

theorem settleSession_effect {check : ArtifactCheck} {openerOf : Id → Option Id}
    {command : SettleSession}
    (h : settleSession around tables caller draw check openerOf command = .ok (next, event)) :
    Effect tables event next := by
  obtain ⟨⟨⟩, -, h⟩ := bind_ok h
  obtain ⟨⟨⟩, -, h⟩ := bind_ok h
  obtain ⟨found, hfound, h⟩ := bind_ok h
  split at h
  · cases h
  · obtain ⟨⟨⟩, -, h⟩ := bind_ok h
    obtain ⟨⟨⟩, -, h⟩ := bind_ok h
    obtain ⟨rfl, h⟩ := append_ok h
    exact projectSessionExit_effect rfl h

theorem signalSession_effect {command : SignalSession}
    (h : signalSession around tables caller draw command = .ok (next, event)) :
    Effect tables event next := by
  obtain ⟨⟨⟩, -, h⟩ := bind_ok h
  obtain ⟨found, hfound, h⟩ := bind_ok h
  obtain ⟨target, htarget, h⟩ := bind_ok h
  obtain ⟨⟨⟩, -, h⟩ := bind_ok h
  obtain ⟨⟨⟩, -, h⟩ := bind_ok h
  obtain ⟨⟨⟩, -, h⟩ := bind_ok h
  obtain ⟨rfl, h⟩ := append_ok h
  exact projectSessionSignaled_effect rfl (fun _ => rfl) h

theorem requireOpenTarget_ok {found : Option SignalTarget} {verb : String} {sessionId roomId : Id}
    {target : SignalTarget} (h : requireOpenTarget found verb sessionId roomId = .ok target) :
    found = some target := by
  unfold requireOpenTarget at h
  split at h
  · cases h
  · split at h
    · cases h
      rfl
    · cases h

/-- What `resume_session` answers: a resume of an open session, or a refusal. -/
theorem resumeSession_ok {command : ResumeSession}
    (h : resumeSession around tables caller draw command = .ok (next, event)) :
    Effect tables event next ∧ ((∃ signalId, event.payload = .sessionSignaled command.sessionId
        signalId .resume command.body command.causeMessageId command.supersedesEventId
        command.subscriptionId) ∨
      ∃ session child row, event.payload = .drawRefused (uuidText child.planId)
          (row.rlimitSlice.getD 0) row.authorizedDraws child.harness child.model ∧ next = tables ∧
        tables.sessions.lookup session = some child ∧
        tables.plans.lookup child.planId = some row ∧
        row.rlimitSlice.getD 0 ≤ row.authorizedDraws) := by
  obtain ⟨⟨⟩, -, h⟩ := bind_ok h
  obtain ⟨found, hfound, h⟩ := bind_ok h
  obtain ⟨target, htarget, h⟩ := bind_ok h
  rw [requireOpenTarget_ok htarget] at hfound
  obtain ⟨⟨⟩, -, h⟩ := bind_ok h
  obtain ⟨⟨⟩, -, h⟩ := bind_ok h
  obtain ⟨⟨⟩, -, h⟩ := bind_ok h
  obtain ⟨⟨⟩, -, h⟩ := bind_ok h
  obtain ⟨⟨⟩, -, h⟩ := bind_ok h
  split at h
  · rename_i hspent
    obtain ⟨rfl, h⟩ := append_ok h
    cases h
    rw [isSpent_iff] at hspent
    obtain ⟨session, child, row, -, -, hlook, hplan, -, hplanId, hharness, hmodel, hslice,
      hdraws⟩ := readSignalTarget_ok hfound
    rw [hslice, hdraws] at hspent
    refine ⟨.drawRefused rfl, .inr ⟨session, child, row, ?_, rfl, hlook, hplan, hspent⟩⟩
    rw [hplanId, hharness, hmodel, hslice, hdraws]
  · obtain ⟨rfl, h⟩ := append_ok h
    exact ⟨projectSessionSignaled_effect rfl (fun hkind => absurd rfl hkind) h, .inl ⟨_, rfl⟩⟩

theorem subscribeSession_effect {command : SubscribeSession}
    (h : subscribeSession around tables caller draw command = .ok (next, event)) :
    Effect tables event next := by
  obtain ⟨⟨⟩, -, h⟩ := bind_ok h
  obtain ⟨found, -, h⟩ := bind_ok h
  obtain ⟨target, -, h⟩ := bind_ok h
  obtain ⟨⟨⟩, -, h⟩ := bind_ok h
  obtain ⟨⟨⟩, -, h⟩ := bind_ok h
  obtain ⟨rfl, h⟩ := append_ok h
  exact projectSessionSubscribed_effect rfl h

theorem execute_effect {early : Surroundings} {check : ArtifactCheck} {openerOf : Id → Option Id}
    {command : Command}
    (h : execute around tables caller draw early check openerOf command = .ok (next, event)) :
    Effect tables event next := by
  obtain ⟨⟨⟩, -, h⟩ := bind_ok h
  cases command with
  | openPlan command => exact openPlan_effect h
  | settlePlan command => exact settlePlan_effect h
  | openSession command => exact (openSession_ok h).1
  | settleSession command => exact settleSession_effect h
  | setPlanRlimit command => exact setPlanRlimit_effect h
  | signalSession command => exact signalSession_effect h
  | resumeSession command => exact (resumeSession_ok h).1
  | subscribeSession command => exact subscribeSession_effect h

end Commands

end Execution
