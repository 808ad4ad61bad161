import Mathlib.Data.List.Induction
import AtriumVerified.Execution.Accounts
import AtriumVerified.Execution.Proofs.EffectProofs

/-!
# No work without funds

The accounts of a plan hold over every run of commands: its counter is the number of draws it was
granted, each draw was granted below the slice in force, and a plan or a session that is done stays
as it is.
-/

namespace Execution

open Core Postgres Server

variable {books : Books} {next : Tables} {event : Event}

/-! ## What an effect keeps -/

def Event.granted (tables : Tables) (plan : Uuid) (event : Event) : Nat :=
  (if event.opens plan then 1 else 0) + (if event.resumesInto tables plan then 1 else 0)

/-- A session stays under its plan and with whom it was given to, and it does not open again. -/
structure SessionRow.Follows (row before : SessionRow) : Prop where
  planId : row.planId = before.planId
  roomId : row.roomId = before.roomId
  mode : row.executionMode = before.executionMode
  claimed : row.executionClaimedAt = before.executionClaimedAt
  exited : before.status ≠ .opened → row.status ≠ .opened

theorem SessionRow.Follows.refl (row : SessionRow) : row.Follows row := ⟨rfl, rfl, rfl, rfl, id⟩

theorem Outcome.status_ne_opened (outcome : Outcome) : outcome.status ≠ .opened := by
  cases outcome <;> decide

section Effect

variable {tables : Tables}

theorem Effect.session_kept (he : Effect tables event next) {session : Uuid} {row : SessionRow}
    (h : tables.sessions.lookup session = some row) :
    ∃ row', next.sessions.lookup session = some row' ∧ row'.Follows row := by
  cases he with
  | sessionOpened opened plan opening parent arm _ _ _ _ _ _ _ fresh =>
    have hne : session ≠ opened := by
      rintro rfl
      rw [fresh] at h
      cases h
    exact ⟨row, (AList.lookup_insert_ne hne).trans h, .refl row⟩
  | sessionExit closed exiting payload key roomKey held status =>
    by_cases hs : session = closed
    · subst hs
      obtain rfl := Option.some.inj (held.symm.trans h)
      exact ⟨_, AList.lookup_insert _, rfl, rfl, rfl, rfl, fun hexited => absurd status hexited⟩
    · exact ⟨row, (AList.lookup_insert_ne hs).trans h, .refl row⟩
  | planOpened => exact ⟨row, h, .refl row⟩
  | planSettled => exact ⟨row, h, .refl row⟩
  | planRlimitSet => exact ⟨row, h, .refl row⟩
  | drawRefused => exact ⟨row, h, .refl row⟩
  | signaled => exact ⟨row, h, .refl row⟩
  | resumed => exact ⟨row, h, .refl row⟩
  | subscribed => exact ⟨row, h, .refl row⟩

/-- A session that is there after an effect was there before, or the effect opened it. -/
theorem Effect.session_from (he : Effect tables event next) {session : Uuid} {row' : SessionRow}
    (h : next.sessions.lookup session = some row') :
    (∃ row, tables.sessions.lookup session = some row ∧ row'.Follows row) ∨
      (tables.sessions.lookup session = none ∧ event.opens row'.planId = true ∧
        row'.status = .opened ∧ (∃ text, uuid text = some row'.planId) ∧
        ∃ parent, tables.plans.lookup row'.planId = some parent ∧ parent.status = .opened ∧
          parent.roomId = row'.roomId) := by
  rcases hrow : tables.sessions.lookup session with _ | row
  · right
    cases he with
    | sessionOpened opened plan opening parent arm payload key planKey roomKey held parentStatus
        below fresh under inRoom status =>
      by_cases hs : session = opened
      · subst hs
        obtain rfl := Option.some.inj ((AList.lookup_insert _).symm.trans h)
        subst under
        refine ⟨rfl, ?_, status, ⟨_, planKey⟩, parent, held, parentStatus, inRoom.symm⟩
        simp [Event.opens, payload, planKey]
      · have hlook := (AList.lookup_insert_ne hs).symm.trans h
        rw [hrow] at hlook
        cases hlook
    | sessionExit closed exiting payload key roomKey held =>
      have hs : session ≠ closed := by
        rintro rfl
        rw [hrow] at held
        cases held
      have hlook := (AList.lookup_insert_ne hs).symm.trans h
      rw [hrow] at hlook
      cases hlook
    | planOpened => cases hrow.symm.trans h
    | planSettled => cases hrow.symm.trans h
    | planRlimitSet => cases hrow.symm.trans h
    | drawRefused => cases hrow.symm.trans h
    | signaled => cases hrow.symm.trans h
    | resumed => cases hrow.symm.trans h
    | subscribed => cases hrow.symm.trans h
  · left
    obtain ⟨kept, hkept, hfollows⟩ := he.session_kept hrow
    obtain rfl := Option.some.inj (hkept.symm.trans h)
    exact ⟨row, rfl, hfollows⟩

def Closed (tables : Tables) : Prop :=
  ∀ plan row, tables.plans.lookup plan = some row → row.status = .settled →
    ∀ session child, tables.sessions.lookup session = some child → child.planId = plan →
      child.status ≠ .opened

structure PlanStep (tables next : Tables) (event : Event) (plan : Uuid) (row row' : PlanRow) :
    Prop where
  roomId : row'.roomId = row.roomId
  cause : row'.causeMessageId = row.causeMessageId
  draws : row'.authorizedDraws = row.authorizedDraws + event.granted next plan
  below : event.granted next plan ≠ 0 →
    row'.status = row.status ∧ row.authorizedDraws < row.rlimitSlice.getD 0
  slice : row'.rlimitSlice.getD 0 = ((event.slices.filter fun entry => entry.1 == plan).map
    Prod.snd).getD (row.rlimitSlice.getD 0)
  settling : row'.status = .settled → row.status = .opened → ∀ session child,
    tables.sessions.lookup session = some child → child.planId = plan →
      child.roomId = row.roomId → child.status ≠ .opened
  frozen : row.status = .settled → row' = row ∧ event.granted next plan = 0 ∧
    event.opens plan = false ∧ event.slices.filter (fun entry => entry.1 == plan) = none

theorem PlanStep.still {plan : Uuid} {row : PlanRow} (hgranted : event.granted next plan = 0)
    (hopens : event.opens plan = false)
    (hslices : event.slices.filter (fun entry => entry.1 == plan) = none) :
    PlanStep tables next event plan row row where
  roomId := rfl
  cause := rfl
  draws := by rw [hgranted, Nat.add_zero]
  below h := absurd hgranted h
  slice := by rw [hslices]; rfl
  settling hsettled hopened := by rw [hsettled] at hopened; cases hopened
  frozen _ := ⟨rfl, hgranted, hopens, hslices⟩

theorem granted_eq_zero {plan : Uuid} (hopens : event.opens plan = false)
    (hresumes : event.resumesInto next plan = false) : event.granted next plan = 0 := by
  simp [Event.granted, hopens, hresumes]

theorem resumesInto_none {plan : Uuid} (h : event.resumed = none) :
    event.resumesInto next plan = false := by
  simp [Event.resumesInto, h]

theorem PlanStep.quiet {plan : Uuid} {row : PlanRow} (hopens : event.opens plan = false)
    (hresumed : event.resumed = none) (hslices : event.slices = none) :
    PlanStep tables next event plan row row :=
  .still (granted_eq_zero hopens (resumesInto_none hresumed)) hopens (by rw [hslices]; rfl)

theorem Effect.plan_step (he : Effect tables event next) (hclosed : Closed tables) {plan : Uuid}
    {row : PlanRow} (h : tables.plans.lookup plan = some row) :
    ∃ row', next.plans.lookup plan = some row' ∧ PlanStep tables next event plan row row' := by
  cases he with
  | planOpened opened room opening payload key roomKey fresh =>
    have hne : plan ≠ opened := by
      rintro rfl
      rw [fresh] at h
      cases h
    exact ⟨row, (AList.lookup_insert_ne hne).trans h,
      .quiet (by simp [Event.opens, payload]) (by simp [Event.resumed, payload])
        (by simp [Event.slices, payload])⟩
  | planSettled closing settling payload key held status children =>
    have hopens : event.opens plan = false := by simp [Event.opens, payload]
    have hresumed : event.resumed = none := by simp [Event.resumed, payload]
    have hslices : event.slices = none := by simp [Event.slices, payload]
    by_cases hp : plan = closing
    · subst hp
      obtain rfl := Option.some.inj (held.symm.trans h)
      refine ⟨_, AList.lookup_insert _, rfl, rfl, ?_, ?_, ?_, fun _ _ => children, ?_⟩
      · rw [granted_eq_zero hopens (resumesInto_none hresumed), Nat.add_zero]
      · exact fun hgranted => absurd (granted_eq_zero hopens (resumesInto_none hresumed)) hgranted
      · rw [hslices]
        rfl
      · intro hsettled
        rw [status] at hsettled
        cases hsettled
    · exact ⟨row, (AList.lookup_insert_ne hp).trans h, .quiet hopens hresumed hslices⟩
  | planRlimitSet funding funded payload key held status =>
    have hopens : event.opens plan = false := by simp [Event.opens, payload]
    have hresumed : event.resumed = none := by simp [Event.resumed, payload]
    by_cases hp : plan = funding
    · subst hp
      obtain rfl := Option.some.inj (held.symm.trans h)
      refine ⟨_, AList.lookup_insert _, rfl, rfl, ?_, ?_, ?_, ?_, ?_⟩
      · rw [granted_eq_zero hopens (resumesInto_none hresumed), Nat.add_zero]
      · exact fun hgranted => absurd (granted_eq_zero hopens (resumesInto_none hresumed)) hgranted
      · simp [Event.slices, payload, key, Option.filter]
      · intro hsettled
        exact absurd hsettled (by rw [status]; decide)
      · intro hsettled
        rw [status] at hsettled
        cases hsettled
    · exact ⟨row, (AList.lookup_insert_ne hp).trans h,
        .still (granted_eq_zero hopens (resumesInto_none hresumed)) hopens
          (by simp [Event.slices, payload, key, Ne.symm hp])⟩
  | sessionOpened session under opening parent arm payload key planKey roomKey held parentStatus
      below =>
    have hresumed : event.resumed = none := by simp [Event.resumed, payload]
    have hslices : event.slices = none := by simp [Event.slices, payload]
    by_cases hp : plan = under
    · subst hp
      obtain rfl := Option.some.inj (held.symm.trans h)
      have hopens : event.opens plan = true := by simp [Event.opens, payload, planKey]
      refine ⟨_, AList.lookup_insert _, rfl, rfl, ?_, fun _ => ⟨rfl, below⟩, ?_, ?_, ?_⟩
      · simp [Event.granted, hopens, resumesInto_none hresumed, PlanRow.drawn]
      · rw [hslices]
        rfl
      · intro hsettled
        exact absurd hsettled (by rw [PlanRow.drawn, parentStatus]; decide)
      · intro hsettled
        rw [parentStatus] at hsettled
        cases hsettled
    · have hopens : event.opens plan = false := by
        simp [Event.opens, payload, planKey, Ne.symm hp]
      exact ⟨row, (AList.lookup_insert_ne hp).trans h,
        .still (granted_eq_zero hopens (resumesInto_none hresumed)) hopens (by rw [hslices]; rfl)⟩
  | resumed session child parent arm signals subscriptions payload key roomKey held status heldPlan
      below =>
    have hopens : event.opens plan = false := by simp [Event.opens, payload]
    have hslices : event.slices = none := by simp [Event.slices, payload]
    have hresumed : event.resumed = some session := by simp [Event.resumed, payload, key]
    by_cases hp : plan = child.planId
    · subst hp
      obtain rfl := Option.some.inj (heldPlan.symm.trans h)
      refine ⟨_, AList.lookup_insert _, rfl, rfl, ?_, fun _ => ⟨rfl, below⟩, ?_, ?_, ?_⟩
      · simp [Event.granted, hopens, Event.resumesInto, hresumed, held, PlanRow.drawn]
      · rw [hslices]
        rfl
      · intro hsettled hopened
        rw [PlanRow.drawn, hopened] at hsettled
        cases hsettled
      · intro hsettled
        exact absurd status (hclosed _ _ heldPlan hsettled _ _ held rfl)
    · refine ⟨row, (AList.lookup_insert_ne hp).trans h,
        .still (granted_eq_zero hopens ?_) hopens (by rw [hslices]; rfl)⟩
      simp [Event.resumesInto, hresumed, held, Ne.symm hp]
  | sessionExit closed exiting payload =>
    exact ⟨row, h, .quiet (by simp [Event.opens, payload]) (by simp [Event.resumed, payload])
      (by simp [Event.slices, payload])⟩
  | drawRefused payload =>
    exact ⟨row, h, .quiet (by simp [Event.opens, payload]) (by simp [Event.resumed, payload])
      (by simp [Event.slices, payload])⟩
  | signaled signals payload nudge =>
    have hresumed : event.resumed = none := by
      unfold Event.resumed
      rw [payload]
      split
      · rename_i heq
        cases heq
        exact absurd rfl nudge
      · rfl
    exact ⟨row, h, .quiet (by simp [Event.opens, payload]) hresumed
      (by simp [Event.slices, payload])⟩
  | subscribed wait waiting target payload =>
    exact ⟨row, h, .quiet (by simp [Event.opens, payload]) (by simp [Event.resumed, payload])
      (by simp [Event.slices, payload])⟩

/-- A plan that is there after an effect was there before, or the effect opened it. -/
theorem Effect.plan_from (he : Effect tables event next) (hclosed : Closed tables) {plan : Uuid}
    {row' : PlanRow} (h : next.plans.lookup plan = some row') :
    (∃ row, tables.plans.lookup plan = some row ∧ PlanStep tables next event plan row row') ∨
      (tables.plans.lookup plan = none ∧ event.granted next plan = 0 ∧ event.slices = none ∧
        row'.authorizedDraws = 0 ∧ row'.rlimitSlice = none ∧ row'.status = .opened) := by
  rcases hrow : tables.plans.lookup plan with _ | row
  · right
    cases he with
    | planOpened opened room opening payload key roomKey fresh inRoom named status slice draws =>
      by_cases hp : plan = opened
      · subst hp
        obtain rfl := Option.some.inj ((AList.lookup_insert _).symm.trans h)
        exact ⟨rfl, granted_eq_zero (by simp [Event.opens, payload])
          (resumesInto_none (by simp [Event.resumed, payload])), by simp [Event.slices, payload],
          draws, slice, status⟩
      · have hlook := (AList.lookup_insert_ne hp).symm.trans h
        rw [hrow] at hlook
        cases hlook
    | planSettled closing settling payload key held =>
      have hp : plan ≠ closing := by
        rintro rfl
        rw [hrow] at held
        cases held
      cases hrow.symm.trans ((AList.lookup_insert_ne hp).symm.trans h)
    | planRlimitSet funding funded payload key held =>
      have hp : plan ≠ funding := by
        rintro rfl
        rw [hrow] at held
        cases held
      cases hrow.symm.trans ((AList.lookup_insert_ne hp).symm.trans h)
    | sessionOpened session under opening parent arm payload key planKey roomKey held =>
      have hp : plan ≠ under := by
        rintro rfl
        rw [hrow] at held
        cases held
      cases hrow.symm.trans ((AList.lookup_insert_ne hp).symm.trans h)
    | resumed session child parent arm signals subscriptions payload key roomKey held status
        heldPlan =>
      have hp : plan ≠ child.planId := by
        rintro rfl
        rw [hrow] at heldPlan
        cases heldPlan
      cases hrow.symm.trans ((AList.lookup_insert_ne hp).symm.trans h)
    | sessionExit => cases hrow.symm.trans h
    | drawRefused => cases hrow.symm.trans h
    | signaled => cases hrow.symm.trans h
    | subscribed => cases hrow.symm.trans h
  · left
    obtain ⟨kept, hkept, hstep⟩ := he.plan_step hclosed hrow
    obtain rfl := Option.some.inj (hkept.symm.trans h)
    exact ⟨row, rfl, hstep⟩

theorem disposeWaits_lookup (roomId sessionId wait : Uuid) :
    (disposeWaits tables roomId sessionId).subscriptions.lookup wait =
      (tables.subscriptions.lookup wait).map fun row =>
        if row.roomId == roomId && row.sessionId == sessionId && row.status == .waiting then
          { row with status := .disposed }
        else row :=
  Table.lookup_updateWhere tables.subscriptions _ _ wait

/-- Every wait that is waiting belongs to an open session of its room. -/
def Waits (tables : Tables) : Prop :=
  ∀ wait row, tables.subscriptions.lookup wait = some row → row.status = .waiting →
    ∃ session, tables.sessions.lookup row.sessionId = some session ∧ session.status = .opened ∧
      session.roomId = row.roomId

theorem Effect.waits (he : Effect tables event next) (hwaits : Waits tables) : Waits next := by
  intro wait row' h hwaiting
  cases he with
  | sessionExit closed exiting payload key roomKey held status =>
    rw [disposeWaits_lookup] at h
    obtain ⟨row, hrow, rfl⟩ := Option.map_eq_some_iff.mp h
    split at hwaiting
    · cases hwaiting
    · rename_i hcond
      rw [if_neg hcond]
      obtain ⟨session, hsession, hopened, hroom⟩ := hwaits wait row hrow hwaiting
      -- A wait of the session that exits is in its room, and would have been disposed of.
      have hne : row.sessionId ≠ closed := by
        intro hclosed
        rw [hclosed] at hsession
        obtain rfl := Option.some.inj (held.symm.trans hsession)
        exact hcond (by simp [hroom, hclosed, hwaiting])
      exact ⟨session, (AList.lookup_insert_ne hne).trans hsession, hopened, hroom⟩
  | resumed session child parent arm signals subscriptions payload key roomKey held status heldPlan
      below unfunded waits =>
    rcases waits with rfl | ⟨paid, waiting, hpaid, hstatus, rfl⟩
    · exact hwaits wait row' h hwaiting
    · by_cases hw : wait = paid
      · subst hw
        obtain rfl := Option.some.inj ((AList.lookup_insert _).symm.trans h)
        cases hwaiting
      · exact hwaits wait row' ((AList.lookup_insert_ne hw).symm.trans h) hwaiting
  | subscribed added waiting target payload fresh held inRoom status =>
    by_cases hw : wait = added
    · subst hw
      obtain rfl := Option.some.inj ((AList.lookup_insert _).symm.trans h)
      exact ⟨target, held, status, inRoom.symm⟩
    · exact hwaits wait row' ((AList.lookup_insert_ne hw).symm.trans h) hwaiting
  | sessionOpened opened plan opening parent arm payload key planKey roomKey held parentStatus below
      fresh =>
    obtain ⟨session, hsession, hopened⟩ := hwaits wait row' h hwaiting
    have hne : row'.sessionId ≠ opened := by
      intro hclash
      rw [hclash, fresh] at hsession
      cases hsession
    exact ⟨session, (AList.lookup_insert_ne hne).trans hsession, hopened⟩
  | planOpened => exact hwaits wait row' h hwaiting
  | planSettled => exact hwaits wait row' h hwaiting
  | planRlimitSet => exact hwaits wait row' h hwaiting
  | drawRefused => exact hwaits wait row' h hwaiting
  | signaled => exact hwaits wait row' h hwaiting

theorem Effect.wait_kept (he : Effect tables event next) {wait : Uuid} {row : SubscriptionRow}
    (h : tables.subscriptions.lookup wait = some row) (hdone : row.status ≠ .waiting) :
    next.subscriptions.lookup wait = some row := by
  cases he with
  | sessionExit closed exiting =>
    rw [disposeWaits_lookup, h]
    simp [hdone]
  | resumed session child parent arm signals subscriptions payload key roomKey held status heldPlan
      below unfunded waits =>
    rcases waits with rfl | ⟨paid, waiting, hpaid, hstatus, rfl⟩
    · exact h
    · have hne : wait ≠ paid := by
        rintro rfl
        obtain rfl := Option.some.inj (h.symm.trans hpaid)
        exact hdone hstatus
      exact (AList.lookup_insert_ne hne).trans h
  | subscribed added waiting target payload fresh =>
    have hne : wait ≠ added := by
      rintro rfl
      rw [fresh] at h
      cases h
    exact (AList.lookup_insert_ne hne).trans h
  | planOpened => exact h
  | planSettled => exact h
  | planRlimitSet => exact h
  | sessionOpened => exact h
  | drawRefused => exact h
  | signaled => exact h

theorem lookup_claimed {arms : Table (Uuid × Uuid) FundedArmRow} {room : Uuid}
    {cause : Option Uuid} {arm : FundedArmRow} {key : Uuid × Uuid} {held : FundedArmRow}
    (h : arms.lookup key = some held) : ∃ held', (claimed arms room cause arm).lookup key = some held' := by
  cases cause with
  | none => exact ⟨held, h⟩
  | some cause =>
    by_cases hkey : key = (room, cause)
    · subst hkey
      exact ⟨arm, AList.lookup_insert _⟩
    · exact ⟨held, (AList.lookup_insert_ne hkey).trans h⟩

theorem Effect.arm_kept (he : Effect tables event next) {key : Uuid × Uuid} {held : FundedArmRow}
    (h : tables.fundedArms.lookup key = some held) :
    ∃ held', next.fundedArms.lookup key = some held' := by
  cases he with
  | sessionOpened => exact lookup_claimed h
  | resumed => exact lookup_claimed h
  | planOpened => exact ⟨held, h⟩
  | planSettled => exact ⟨held, h⟩
  | planRlimitSet => exact ⟨held, h⟩
  | sessionExit => exact ⟨held, h⟩
  | drawRefused => exact ⟨held, h⟩
  | signaled => exact ⟨held, h⟩
  | subscribed => exact ⟨held, h⟩

theorem causeOf_some {roomId : Id} {causeMessageId : Option Id} {room : Uuid} {key : Uuid × Uuid}
    (hroom : uuid roomId = some room) (h : causeOf roomId causeMessageId = some key) :
    ∃ cause, causeMessageId.bind uuid = some cause ∧ key = (room, cause) := by
  unfold causeOf at h
  rw [hroom, Option.bind_some] at h
  obtain ⟨cause, hcause, rfl⟩ := Option.map_eq_some_iff.mp h
  exact ⟨cause, hcause, rfl⟩

theorem claimed_fresh {room : Uuid} {cause : Option Id} {roomId : Id} {arm : FundedArmRow}
    {key : Uuid × Uuid} (hroom : uuid roomId = some room)
    (hunfunded : Unfunded tables room (cause.bind uuid)) (h : causeOf roomId cause = some key) :
    tables.fundedArms.lookup key = none ∧
      ∃ held, (claimed tables.fundedArms room (cause.bind uuid) arm).lookup key = some held := by
  obtain ⟨message, hmessage, rfl⟩ := causeOf_some hroom h
  refine ⟨hunfunded message hmessage, arm, ?_⟩
  rw [hmessage]
  exact AList.lookup_insert _

/-- A message that a draw names has funded no draw before, and has funded one now. -/
theorem Effect.drawCause_fresh (he : Effect tables event next) {key : Uuid × Uuid}
    (h : event.drawCause = some key) :
    tables.fundedArms.lookup key = none ∧ ∃ arm, next.fundedArms.lookup key = some arm := by
  unfold Event.drawCause at h
  cases he with
  | sessionOpened session plan row parent arm payload key planKey roomKey held parentStatus below
      fresh under inRoom status unclaimed unfunded =>
    rw [payload] at h
    exact claimed_fresh roomKey unfunded h
  | resumed session row parent arm signals subscriptions payload key roomKey held status heldPlan
      below unfunded =>
    rw [payload] at h
    exact claimed_fresh roomKey unfunded h
  | signaled signals payload nudge =>
    rw [payload] at h
    split at h
    · rename_i heq
      cases heq
    · rename_i heq
      cases heq
      exact absurd rfl nudge
    · cases h
  | planOpened _ _ _ payload => simp [payload] at h
  | planSettled _ _ payload => simp [payload] at h
  | planRlimitSet _ _ payload => simp [payload] at h
  | sessionExit _ _ payload => simp [payload] at h
  | drawRefused payload => simp [payload] at h
  | subscribed _ _ _ payload => simp [payload] at h

def Named (tables : Tables) (key : Uuid × Uuid) : Prop :=
  ∃ plan row, tables.plans.lookup plan = some row ∧ row.roomId = key.1 ∧
    row.causeMessageId = some key.2

theorem Effect.planCause_fresh (he : Effect tables event next) {key : Uuid × Uuid}
    (h : event.planCause = some key) : ¬ Named tables key ∧ Named next key := by
  unfold Event.planCause at h
  cases he with
  | planOpened plan room row payload key roomKey fresh inRoom named status slice draws unclaimed =>
    rw [payload] at h
    obtain ⟨message, hmessage, rfl⟩ := causeOf_some roomKey h
    constructor
    · rintro ⟨other, otherRow, hlook, hroom, hnamed⟩
      exact unclaimed message hmessage other otherRow hlook hroom hnamed
    · exact ⟨plan, row, AList.lookup_insert _, inRoom, named.trans hmessage⟩
  | planSettled _ _ payload => simp [payload] at h
  | planRlimitSet _ _ payload => simp [payload] at h
  | sessionOpened _ _ _ _ _ payload => simp [payload] at h
  | sessionExit _ _ payload => simp [payload] at h
  | drawRefused payload => simp [payload] at h
  | signaled _ payload => simp [payload] at h
  | resumed _ _ _ _ _ _ payload => simp [payload] at h
  | subscribed _ _ _ payload => simp [payload] at h

theorem Effect.exited_fresh (he : Effect tables event next) {session : Uuid}
    (h : event.exited = some session) :
    (∃ row, tables.sessions.lookup session = some row ∧ row.status = .opened) ∧
      ∃ row, next.sessions.lookup session = some row ∧ row.status ≠ .opened := by
  unfold Event.exited at h
  cases he with
  | sessionExit closed exiting payload key roomKey held status =>
    rw [payload] at h
    obtain rfl := Option.some.inj (key.symm.trans h)
    exact ⟨⟨exiting, held, status⟩, _, AList.lookup_insert _, Outcome.status_ne_opened _⟩
  | planOpened _ _ _ payload => simp [payload] at h
  | planSettled _ _ payload => simp [payload] at h
  | planRlimitSet _ _ payload => simp [payload] at h
  | sessionOpened _ _ _ _ _ payload => simp [payload] at h
  | drawRefused payload => simp [payload] at h
  | signaled _ payload => simp [payload] at h
  | resumed _ _ _ _ _ _ payload => simp [payload] at h
  | subscribed _ _ _ payload => simp [payload] at h

theorem Effect.opens_held (he : Effect tables event next) {plan : Uuid}
    (h : event.opens plan = true) : ∃ row, tables.plans.lookup plan = some row := by
  unfold Event.opens at h
  cases he with
  | sessionOpened session under row parent arm payload key planKey roomKey held =>
    rw [payload] at h
    obtain rfl := Option.some.inj (planKey.symm.trans (eq_of_beq h))
    exact ⟨parent, held⟩
  | planOpened _ _ _ payload => simp [payload] at h
  | planSettled _ _ payload => simp [payload] at h
  | planRlimitSet _ _ payload => simp [payload] at h
  | sessionExit _ _ payload => simp [payload] at h
  | drawRefused payload => simp [payload] at h
  | signaled _ payload => simp [payload] at h
  | resumed _ _ _ _ _ _ payload => simp [payload] at h
  | subscribed _ _ _ payload => simp [payload] at h

theorem Effect.resumed_held (he : Effect tables event next) {session : Uuid}
    (h : event.resumed = some session) : ∃ row, tables.sessions.lookup session = some row := by
  unfold Event.resumed at h
  cases he with
  | resumed resumed row parent arm signals subscriptions payload key roomKey held =>
    rw [payload] at h
    obtain rfl := Option.some.inj (key.symm.trans h)
    exact ⟨row, held⟩
  | signaled signals payload nudge =>
    rw [payload] at h
    split at h
    · rename_i heq
      cases heq
      exact absurd rfl nudge
    · cases h
  | planOpened _ _ _ payload => simp [payload] at h
  | planSettled _ _ payload => simp [payload] at h
  | planRlimitSet _ _ payload => simp [payload] at h
  | sessionOpened _ _ _ _ _ payload => simp [payload] at h
  | sessionExit _ _ payload => simp [payload] at h
  | drawRefused payload => simp [payload] at h
  | subscribed _ _ _ payload => simp [payload] at h

theorem Effect.slices_held (he : Effect tables event next) {plan : Uuid} {slice : Nat}
    (h : event.slices = some (plan, slice)) : ∃ row, tables.plans.lookup plan = some row := by
  unfold Event.slices at h
  cases he with
  | planRlimitSet funding funded payload key held =>
    rw [payload] at h
    simp only [key, Option.map_some, Option.some.injEq, Prod.mk.injEq] at h
    obtain ⟨rfl, -⟩ := h
    exact ⟨funded, held⟩
  | planOpened _ _ _ payload => simp [payload] at h
  | planSettled _ _ payload => simp [payload] at h
  | sessionOpened _ _ _ _ _ payload => simp [payload] at h
  | sessionExit _ _ payload => simp [payload] at h
  | drawRefused payload => simp [payload] at h
  | signaled _ payload => simp [payload] at h
  | resumed _ _ _ _ _ _ payload => simp [payload] at h
  | subscribed _ _ _ payload => simp [payload] at h

end Effect

/-! ## The books stay sound -/

/-- What every run of commands keeps of the books. The keys that an event names are in the tables,
which is why a key that an effect finds unused is named by no event. -/
structure Sound (books : Books) : Prop where
  draws : ∀ plan row, books.tables.plans.lookup plan = some row →
    row.authorizedDraws = books.draws plan
  slices : ∀ plan row, books.tables.plans.lookup plan = some row →
    row.rlimitSlice.getD 0 = books.slice plan
  closed : Closed books.tables
  waits : Waits books.tables
  parents : ∀ session row, books.tables.sessions.lookup session = some row →
    (∃ text, uuid text = some row.planId) ∧
      ∃ plan, books.tables.plans.lookup row.planId = some plan ∧ plan.roomId = row.roomId
  opened : ∀ event ∈ books.events, ∀ plan, event.opens plan = true →
    ∃ row, books.tables.plans.lookup plan = some row
  sliced : ∀ event ∈ books.events, ∀ plan slice, event.slices = some (plan, slice) →
    ∃ row, books.tables.plans.lookup plan = some row
  resumed : ∀ event ∈ books.events, ∀ session, event.resumed = some session →
    ∃ row, books.tables.sessions.lookup session = some row
  exited : ∀ event ∈ books.events, ∀ session, event.exited = some session →
    ∃ row, books.tables.sessions.lookup session = some row ∧ row.status ≠ .opened
  drawn : ∀ event ∈ books.events, ∀ key, event.drawCause = some key →
    ∃ arm, books.tables.fundedArms.lookup key = some arm
  named : ∀ event ∈ books.events, ∀ key, event.planCause = some key → Named books.tables key
  exits : ∀ session, (books.events.filter fun event => event.exited = some session).length ≤ 1
  drawCauses : ∀ key, (books.events.filter fun event => event.drawCause = some key).length ≤ 1
  planCauses : ∀ key, (books.events.filter fun event => event.planCause = some key).length ≤ 1

theorem once_append {κ ρ : Type} [DecidableEq κ] {name : ρ → Option κ} {entries : List ρ} {entry : ρ}
    (h : ∀ key, (entries.filter fun entry => name entry = some key).length ≤ 1)
    (hfresh : ∀ key, name entry = some key → ∀ old ∈ entries, name old ≠ some key) (key : κ) :
    ((entries ++ [entry]).filter fun entry => name entry = some key).length ≤ 1 := by
  by_cases hkey : name entry = some key
  · have hnone : entries.filter (fun entry => name entry = some key) = [] := by
      rw [List.filter_eq_nil_iff]
      intro old hold
      simpa using hfresh key hkey old hold
    simp [List.filter_append, hnone, hkey]
  · rw [List.filter_append]
    simpa [hkey] using h key

section Books

variable {tables : Tables} {events : List Event}

theorem resumesInto_iff {plan : Uuid} :
    event.resumesInto tables plan = true ↔ ∃ session row, event.resumed = some session ∧
      tables.sessions.lookup session = some row ∧ row.planId = plan := by
  unfold Event.resumesInto
  rw [Option.any_eq_true]
  constructor
  · rintro ⟨row, hrow, hplan⟩
    obtain ⟨session, hsession, hlook⟩ := Option.bind_eq_some_iff.mp hrow
    exact ⟨session, row, hsession, hlook, eq_of_beq hplan⟩
  · rintro ⟨session, row, hsession, hlook, rfl⟩
    exact ⟨row, Option.bind_eq_some_iff.mpr ⟨session, hsession, hlook⟩, beq_self_eq_true _⟩

theorem resumesInto_congr (he : Effect tables event next)
    (hresumed : ∀ old ∈ events, ∀ session, old.resumed = some session →
      ∃ row, tables.sessions.lookup session = some row) {plan : Uuid} {old : Event}
    (hold : old ∈ events) : old.resumesInto next plan = old.resumesInto tables plan := by
  unfold Event.resumesInto
  rcases hsession : old.resumed with _ | session
  · rfl
  · obtain ⟨row, hrow⟩ := hresumed old hold session hsession
    obtain ⟨row', hrow', hfollows⟩ := he.session_kept hrow
    simp only [Option.bind_some, hrow, hrow', Option.any_some, hfollows.planId]

theorem draws_append (he : Effect tables event next)
    (hresumed : ∀ old ∈ events, ∀ session, old.resumed = some session →
      ∃ row, tables.sessions.lookup session = some row) (plan : Uuid) :
    Books.draws ⟨next, events ++ [event]⟩ plan =
      Books.draws ⟨tables, events⟩ plan + event.granted next plan := by
  have hold : events.countP (Event.resumesInto next plan) =
      events.countP (Event.resumesInto tables plan) :=
    List.countP_congr fun old hmem => by rw [resumesInto_congr he hresumed hmem]
  simp only [Books.draws, List.countP_append, List.countP_singleton, hold, Event.granted]
  omega

theorem slices_append (tables : Tables) (plan : Uuid) :
    Books.slices ⟨next, events ++ [event]⟩ plan = Books.slices ⟨tables, events⟩ plan ++
      ((event.slices.filter fun entry => entry.1 == plan).map Prod.snd).toList := by
  rcases hslices : event.slices with _ | ⟨other, slice⟩
  · simp [Books.slices, hslices]
  · by_cases hplan : other = plan
    · simp [Books.slices, hslices, hplan, Option.filter]
    · simp [Books.slices, hslices, hplan, Option.filter]

theorem slice_append (tables : Tables) (plan : Uuid) :
    Books.slice ⟨next, events ++ [event]⟩ plan =
      ((event.slices.filter fun entry => entry.1 == plan).map Prod.snd).getD
        (Books.slice ⟨tables, events⟩ plan) := by
  unfold Books.slice
  rw [slices_append tables]
  cases (event.slices.filter fun entry => entry.1 == plan).map Prod.snd with
  | none => simp
  | some slice => simp

theorem Sound.draws_of_none (h : Sound ⟨tables, events⟩) {plan : Uuid}
    (hnone : tables.plans.lookup plan = none) :
    Books.draws ⟨tables, events⟩ plan = 0 ∧ Books.slice ⟨tables, events⟩ plan = 0 := by
  have hopens : ∀ old ∈ events, ¬ old.opens plan = true := by
    intro old hold hopen
    obtain ⟨row, hrow⟩ := h.opened old hold plan hopen
    rw [show tables.plans.lookup plan = some row from hrow] at hnone
    cases hnone
  have hresumes : ∀ old ∈ events, ¬ old.resumesInto tables plan = true := by
    intro old hold hresume
    obtain ⟨session, child, -, hchild, rfl⟩ := resumesInto_iff.mp hresume
    obtain ⟨-, row, hrow, -⟩ := h.parents session child hchild
    rw [show tables.plans.lookup child.planId = some row from hrow] at hnone
    cases hnone
  have hslices : ((events.filterMap Event.slices).filter fun entry => entry.1 == plan) = [] := by
    rw [List.filter_eq_nil_iff]
    rintro ⟨other, slice⟩ hmem hplan
    obtain ⟨old, hold, hset⟩ := List.mem_filterMap.mp hmem
    obtain rfl := eq_of_beq hplan
    obtain ⟨row, hrow⟩ := h.sliced old hold _ slice hset
    rw [show tables.plans.lookup _ = some row from hrow] at hnone
    cases hnone
  constructor
  · rw [Books.draws, List.countP_eq_zero.mpr hopens, List.countP_eq_zero.mpr hresumes]
  · simp [Books.slice, Books.slices, hslices]

theorem Sound.closed_step (h : Sound ⟨tables, events⟩) (he : Effect tables event next) :
    Closed next := by
  intro plan row' hrow' hsettled session child hchild hplan
  rcases he.session_from hchild with ⟨before, hbefore, hfollows⟩ | ⟨-, hopens, -, -, parent,
    hparent, hopened, -⟩
  · rcases he.plan_from h.closed hrow' with ⟨row, hrow, hstep⟩ | ⟨hnone, -, -, -, -, hopened⟩
    · refine hfollows.exited ?_
      by_cases hwas : row.status = .settled
      · exact h.closed plan row hrow hwas session before hbefore (hfollows.planId ▸ hplan)
      · -- The plan settles now, and has no open session left.
        have hopened : row.status = .opened := by
          cases hstatus : row.status with
          | opened => rfl
          | settled => exact absurd hstatus hwas
        obtain ⟨-, parent, hparent, hroom⟩ := h.parents session before hbefore
        have hbeforePlan : before.planId = plan := hfollows.planId ▸ hplan
        rw [hbeforePlan] at hparent
        obtain rfl := Option.some.inj (hrow.symm.trans hparent)
        exact hstep.settling hsettled hopened session before hbefore hbeforePlan hroom.symm
    · rw [hopened] at hsettled
      cases hsettled
  · rw [hplan] at hparent
    obtain ⟨kept, hkept, hstep⟩ := he.plan_step h.closed hparent
    obtain rfl := Option.some.inj (hkept.symm.trans hrow')
    rw [hplan] at hopens
    have hgranted : event.granted next plan ≠ 0 := by
      simp [Event.granted, hopens]
    rw [(hstep.below hgranted).1, hopened] at hsettled
    cases hsettled

theorem Effect.named_kept (he : Effect tables event next) (hclosed : Closed tables)
    {key : Uuid × Uuid} (h : Named tables key) : Named next key := by
  obtain ⟨plan, row, hrow, hroom, hnamed⟩ := h
  obtain ⟨row', hrow', hstep⟩ := he.plan_step hclosed hrow
  exact ⟨plan, row', hrow', hstep.roomId.trans hroom, hstep.cause.trans hnamed⟩

theorem forall_append {P : Event → Prop} (hold : ∀ old ∈ events, P old) (hnew : P event) :
    ∀ old ∈ events ++ [event], P old := by
  intro old hmem
  rcases List.mem_append.mp hmem with hmem | hmem
  · exact hold old hmem
  · rw [List.mem_singleton.mp hmem]
    exact hnew

theorem Sound.step (h : Sound ⟨tables, events⟩) (he : Effect tables event next) :
    Sound ⟨next, events ++ [event]⟩ where
  draws := by
    intro plan row' hrow'
    rw [draws_append he h.resumed]
    rcases he.plan_from h.closed hrow' with ⟨row, hrow, hstep⟩ | ⟨hnone, hgranted, -, hzero, -⟩
    · rw [hstep.draws, h.draws plan row hrow]
    · rw [hzero, hgranted, (h.draws_of_none hnone).1]
  slices := by
    intro plan row' hrow'
    rw [slice_append tables]
    rcases he.plan_from h.closed hrow' with ⟨row, hrow, hstep⟩ | ⟨hnone, -, hslices, -, hzero, -⟩
    · rw [hstep.slice, h.slices plan row hrow]
    · rw [hslices, hzero]
      exact (h.draws_of_none hnone).2.symm
  closed := h.closed_step he
  waits := he.waits h.waits
  parents := by
    intro session row' hrow'
    rcases he.session_from hrow' with ⟨row, hrow, hfollows⟩ | ⟨-, -, -, hid, parent, hparent, -,
      hroom⟩
    · obtain ⟨hid, plan, hplan, hroom⟩ := h.parents session row hrow
      obtain ⟨plan', hplan', hstep⟩ := he.plan_step h.closed hplan
      rw [← hfollows.planId] at hid hplan'
      exact ⟨hid, plan', hplan', by rw [hstep.roomId, hroom, hfollows.roomId]⟩
    · obtain ⟨plan', hplan', hstep⟩ := he.plan_step h.closed hparent
      exact ⟨hid, plan', hplan', hstep.roomId.trans hroom⟩
  opened := forall_append (fun old hold plan hopens => by
      obtain ⟨row, hrow⟩ := h.opened old hold plan hopens
      obtain ⟨row', hrow', -⟩ := he.plan_step h.closed hrow
      exact ⟨row', hrow'⟩) (fun plan hopens => by
      obtain ⟨row, hrow⟩ := he.opens_held hopens
      obtain ⟨row', hrow', -⟩ := he.plan_step h.closed hrow
      exact ⟨row', hrow'⟩)
  sliced := forall_append (fun old hold plan slice hslices => by
      obtain ⟨row, hrow⟩ := h.sliced old hold plan slice hslices
      obtain ⟨row', hrow', -⟩ := he.plan_step h.closed hrow
      exact ⟨row', hrow'⟩) (fun plan slice hslices => by
      obtain ⟨row, hrow⟩ := he.slices_held hslices
      obtain ⟨row', hrow', -⟩ := he.plan_step h.closed hrow
      exact ⟨row', hrow'⟩)
  resumed := forall_append (fun old hold session hresumed => by
      obtain ⟨row, hrow⟩ := h.resumed old hold session hresumed
      obtain ⟨row', hrow', -⟩ := he.session_kept hrow
      exact ⟨row', hrow'⟩) (fun session hresumed => by
      obtain ⟨row, hrow⟩ := he.resumed_held hresumed
      obtain ⟨row', hrow', -⟩ := he.session_kept hrow
      exact ⟨row', hrow'⟩)
  exited := forall_append (fun old hold session hexited => by
      obtain ⟨row, hrow, hdone⟩ := h.exited old hold session hexited
      obtain ⟨row', hrow', hfollows⟩ := he.session_kept hrow
      exact ⟨row', hrow', hfollows.exited hdone⟩) (fun session hexited =>
      (he.exited_fresh hexited).2)
  drawn := forall_append (fun old hold key hcause => by
      obtain ⟨arm, harm⟩ := h.drawn old hold key hcause
      exact he.arm_kept harm) (fun key hcause => (he.drawCause_fresh hcause).2)
  named := forall_append (fun old hold key hcause =>
      he.named_kept h.closed (h.named old hold key hcause)) (fun key hcause =>
      (he.planCause_fresh hcause).2)
  exits := once_append h.exits fun session hexited old hold holdExited => by
    obtain ⟨row, hrow, hdone⟩ := h.exited old hold session holdExited
    obtain ⟨⟨open', hopen, hstatus⟩, -⟩ := he.exited_fresh hexited
    obtain rfl := Option.some.inj (hopen.symm.trans hrow)
    exact hdone hstatus
  drawCauses := once_append h.drawCauses fun key hcause old hold holdCause => by
    obtain ⟨arm, harm⟩ := h.drawn old hold key holdCause
    cases (he.drawCause_fresh hcause).1.symm.trans harm
  planCauses := once_append h.planCauses fun key hcause old hold holdCause =>
    (he.planCause_fresh hcause).1 (h.named old hold key holdCause)

end Books

/-! ## Runs -/

variable {check : ArtifactCheck}

theorem answer_effect {attempt : Attempt} (h : books.answer check attempt = .ok (next, event)) :
    Effect books.tables event next :=
  execute_effect h

theorem attempt_cases (check : ArtifactCheck) (books : Books) (attempt : Attempt) :
    books.attempt check attempt = books ∨ ∃ next event, Effect books.tables event next ∧
      books.attempt check attempt = ⟨next, books.events ++ [event]⟩ := by
  unfold Books.attempt
  split
  · rename_i next event hanswer
    split
    · exact .inr ⟨next, event, answer_effect hanswer, rfl⟩
    · exact .inl rfl
  · exact .inl rfl

theorem sound_empty : Sound emptyBooks where
  draws _ _ h := by cases h
  slices _ _ h := by cases h
  closed _ _ h := by cases h
  waits _ _ h := by cases h
  parents _ _ h := by cases h
  opened _ h := by cases h
  sliced _ h := by cases h
  resumed _ h := by cases h
  exited _ h := by cases h
  drawn _ h := by cases h
  named _ h := by cases h
  exits _ := Nat.zero_le 1
  drawCauses _ := Nat.zero_le 1
  planCauses _ := Nat.zero_le 1

theorem Sound.attempt (h : Sound books) (attempt : Attempt) : Sound (books.attempt check attempt) := by
  rcases attempt_cases check books attempt with heq | ⟨next, event, he, heq⟩
  · rw [heq]
    exact h
  · rw [heq]
    exact h.step he

theorem Sound.after (h : Sound books) (attempts : List Attempt) :
    Sound (books.after check attempts) := by
  induction attempts generalizing books with
  | nil => exact h
  | cons attempt rest ih => exact ih (h.attempt attempt)

theorem Sound.balanced (h : Sound books) : Balanced books where
  draws := h.draws
  slices := h.slices
  drawCauses := h.drawCauses
  planCauses := h.planCauses
  settled := h.closed
  exits := h.exits
  waits wait row hrow hwaiting := by
    obtain ⟨session, hsession, hopened, -⟩ := h.waits wait row hrow hwaiting
    exact ⟨session, hsession, hopened⟩

theorem Settles.refl (books : Books) : Settles books books where
  plans _ _ h _ := ⟨h, rfl, rfl, rfl⟩
  waits _ _ h _ := h

theorem Settles.trans {first second third : Books} (h : Settles first second)
    (h' : Settles second third) : Settles first third where
  plans plan row hrow hsettled := by
    obtain ⟨hrow', hdraws, hslices, hopens⟩ := h.plans plan row hrow hsettled
    obtain ⟨hrow'', hdraws', hslices', hopens'⟩ := h'.plans plan row hrow' hsettled
    exact ⟨hrow'', hdraws'.trans hdraws, hslices'.trans hslices, hopens'.trans hopens⟩
  waits wait row hrow hdone := h'.waits wait row (h.waits wait row hrow hdone) hdone

theorem Sound.settles_step (h : Sound books) (he : Effect books.tables event next) :
    Settles books ⟨next, books.events ++ [event]⟩ where
  plans plan row hrow hsettled := by
    obtain ⟨row', hrow', hstep⟩ := he.plan_step h.closed hrow
    obtain ⟨rfl, hgranted, hopens, hslices⟩ := hstep.frozen hsettled
    refine ⟨hrow', ?_, ?_, ?_⟩
    · rw [draws_append he h.resumed, hgranted]
      rfl
    · rw [slices_append books.tables, hslices]
      exact List.append_nil _
    · rw [List.countP_append, List.countP_singleton, if_neg (by rw [hopens]; decide)]
      rfl
  waits wait row hrow hdone := he.wait_kept hrow hdone

theorem Sound.settles (h : Sound books) (attempts : List Attempt) :
    Settles books (books.after check attempts) := by
  induction attempts generalizing books with
  | nil => exact .refl books
  | cons attempt rest ih =>
    refine Settles.trans ?_ (ih (h.attempt attempt))
    rcases attempt_cases check books attempt with heq | ⟨next, event, he, heq⟩
    · rw [heq]
      exact .refl books
    · rw [heq]
      exact h.settles_step he

/-! ## Draws -/

theorem granted_ne_zero {tables : Tables} {plan : Uuid} :
    event.granted tables plan ≠ 0 ↔ event.opens plan = true ∨ event.resumesInto tables plan = true := by
  unfold Event.granted
  by_cases hopens : event.opens plan = true <;> by_cases hresumes : event.resumesInto tables plan = true <;>
    simp [hopens, hresumes]

theorem Sound.below (h : Sound books) (he : Effect books.tables event next) {plan : Uuid}
    (hgrants : Books.Grants ⟨next, books.events⟩ plan event) :
    books.draws plan < books.slice plan := by
  have hgranted : event.granted next plan ≠ 0 := granted_ne_zero.mpr hgrants
  obtain ⟨row, hrow⟩ : ∃ row, books.tables.plans.lookup plan = some row := by
    rcases hgrants with hopens | hresumes
    · exact he.opens_held hopens
    · obtain ⟨session, child', hresumed, hchild', rfl⟩ := resumesInto_iff.mp hresumes
      obtain ⟨child, hchild⟩ := he.resumed_held hresumed
      obtain ⟨kept, hkept, hfollows⟩ := he.session_kept hchild
      obtain rfl := Option.some.inj (hkept.symm.trans hchild')
      obtain ⟨-, row, hrow, -⟩ := h.parents session child hchild
      exact ⟨row, hfollows.planId ▸ hrow⟩
  obtain ⟨row', -, hstep⟩ := he.plan_step h.closed hrow
  have hbelow := (hstep.below hgranted).2
  rw [h.draws plan row hrow, h.slices plan row hrow] at hbelow
  exact hbelow

theorem Effect.grants_opened (he : Effect books.tables event next) {sessionId planId : Id}
    {harness model : String} {mode : ExecutionMode} {owner : Option String} {cause : Option Id}
    (hpayload : event.payload = .sessionOpened sessionId planId harness model mode owner cause) :
    ∃ plan, Books.Grants ⟨next, books.events⟩ plan event := by
  cases he with
  | sessionOpened session plan row parent arm payload key planKey =>
    exact ⟨plan, .inl (by simp [Event.opens, payload, planKey])⟩
  | planOpened _ _ _ payload => cases payload.symm.trans hpayload
  | planSettled _ _ payload => cases payload.symm.trans hpayload
  | planRlimitSet _ _ payload => cases payload.symm.trans hpayload
  | sessionExit _ _ payload => cases payload.symm.trans hpayload
  | drawRefused payload => cases payload.symm.trans hpayload
  | signaled _ payload => cases payload.symm.trans hpayload
  | resumed _ _ _ _ _ _ payload => cases payload.symm.trans hpayload
  | subscribed _ _ _ payload => cases payload.symm.trans hpayload

theorem Effect.grants_resumed (he : Effect books.tables event next) {sessionId signalId : Id}
    {body : Option String} {cause supersedes subscription : Option Id}
    (hpayload : event.payload =
      .sessionSignaled sessionId signalId .resume body cause supersedes subscription) :
    ∃ plan, Books.Grants ⟨next, books.events⟩ plan event := by
  cases he with
  | resumed session row parent arm signals subscriptions payload key roomKey held =>
    refine ⟨row.planId, .inr (resumesInto_iff.mpr ⟨session, row, ?_, held, rfl⟩)⟩
    simp [Event.resumed, payload, key]
  | signaled signals payload nudge =>
    cases payload.symm.trans hpayload
    exact absurd rfl nudge
  | planOpened _ _ _ payload => cases payload.symm.trans hpayload
  | planSettled _ _ payload => cases payload.symm.trans hpayload
  | planRlimitSet _ _ payload => cases payload.symm.trans hpayload
  | sessionOpened _ _ _ _ _ payload => cases payload.symm.trans hpayload
  | sessionExit _ _ payload => cases payload.symm.trans hpayload
  | drawRefused payload => cases payload.symm.trans hpayload
  | subscribed _ _ _ payload => cases payload.symm.trans hpayload

/-- A command that takes a draw is granted one, or is refused for lack of funds. -/
theorem Sound.answered (h : Sound books) {attempt : Attempt}
    (hanswer : books.answer check attempt = .ok (next, event))
    (hdraws : attempt.command.draws = true) :
    (∃ plan, Books.Grants ⟨next, books.events⟩ plan event) ∨
      ∃ plan row, event.refused = some plan ∧ next = books.tables ∧
        books.tables.plans.lookup plan = some row ∧ books.slice plan ≤ books.draws plan := by
  have he := answer_effect hanswer
  obtain ⟨⟨⟩, -, htransact⟩ := bind_ok hanswer
  cases hcommand : attempt.command with
  | openSession command =>
    rw [hcommand] at htransact
    rcases (openSession_ok htransact).2 with ⟨mode, owner, hpayload⟩ | ⟨plan, row, hpayload, rfl,
      hplan, hrow, hspent⟩
    · exact .inl (he.grants_opened hpayload)
    · right
      refine ⟨plan, row, by simp [Event.refused, hpayload, hplan], rfl, hrow, ?_⟩
      rw [← h.draws plan row hrow, ← h.slices plan row hrow]
      exact hspent
  | resumeSession command =>
    rw [hcommand] at htransact
    rcases (resumeSession_ok htransact).2 with ⟨signalId, hpayload⟩ | ⟨session, child, row,
      hpayload, rfl, hchild, hrow, hspent⟩
    · exact .inl (he.grants_resumed hpayload)
    · right
      obtain ⟨⟨text, htext⟩, -⟩ := h.parents session child hchild
      refine ⟨child.planId, row, ?_, rfl, hrow, ?_⟩
      · simp [Event.refused, hpayload, uuid_uuidText htext]
      · rw [← h.draws _ row hrow, ← h.slices _ row hrow]
        exact hspent
  | openPlan command => rw [hcommand] at hdraws; cases hdraws
  | settlePlan command => rw [hcommand] at hdraws; cases hdraws
  | settleSession command => rw [hcommand] at hdraws; cases hdraws
  | setPlanRlimit command => rw [hcommand] at hdraws; cases hdraws
  | signalSession command => rw [hcommand] at hdraws; cases hdraws
  | subscribeSession command => rw [hcommand] at hdraws; cases hdraws

def FundedByHuman (event : Event) : Prop :=
  event.slices = none ∨ ∃ user, event.actor = .human user

theorem fundedByHuman_answer {attempt : Attempt}
    (h : books.answer check attempt = .ok (next, event)) : FundedByHuman event := by
  obtain ⟨⟨⟩, hearly, h⟩ := bind_ok h
  cases hcommand : attempt.command with
  | setPlanRlimit command =>
    rw [hcommand] at h hearly
    obtain ⟨⟨⟩, -, h⟩ := bind_ok h
    obtain ⟨rfl, -⟩ := append_ok h
    obtain ⟨⟨⟩, -, hhuman⟩ := bind_ok hearly
    refine .inr ⟨attempt.caller.userId, ?_⟩
    have hkind : attempt.caller.principalKind = .human := of_decide_eq_true (demand_ok hhuman)
    simp [actorOf, hkind]
  | openSession command =>
    rw [hcommand] at h
    left
    rcases (openSession_ok h).2 with ⟨mode, owner, hpayload⟩ | ⟨plan, row, hpayload, -⟩
    · simp [Event.slices, hpayload]
    · simp [Event.slices, hpayload]
  | resumeSession command =>
    rw [hcommand] at h
    left
    rcases (resumeSession_ok h).2 with ⟨signalId, hpayload⟩ | ⟨session, child, row, hpayload, -⟩
    · simp [Event.slices, hpayload]
    · simp [Event.slices, hpayload]
  | openPlan command =>
    rw [hcommand] at h
    obtain ⟨⟨⟩, -, h⟩ := bind_ok h
    obtain ⟨⟨⟩, -, h⟩ := bind_ok h
    obtain ⟨⟨⟩, -, h⟩ := bind_ok h
    obtain ⟨rfl, -⟩ := append_ok h
    exact .inl rfl
  | settlePlan command =>
    rw [hcommand] at h
    obtain ⟨⟨⟩, -, h⟩ := bind_ok h
    obtain ⟨rfl, -⟩ := append_ok h
    exact .inl rfl
  | settleSession command =>
    rw [hcommand] at h
    obtain ⟨⟨⟩, -, h⟩ := bind_ok h
    obtain ⟨⟨⟩, -, h⟩ := bind_ok h
    obtain ⟨found, -, h⟩ := bind_ok h
    split at h
    · cases h
    · obtain ⟨⟨⟩, -, h⟩ := bind_ok h
      obtain ⟨⟨⟩, -, h⟩ := bind_ok h
      obtain ⟨rfl, -⟩ := append_ok h
      exact .inl rfl
  | signalSession command =>
    rw [hcommand] at h
    obtain ⟨⟨⟩, -, h⟩ := bind_ok h
    obtain ⟨found, -, h⟩ := bind_ok h
    obtain ⟨target, -, h⟩ := bind_ok h
    obtain ⟨⟨⟩, -, h⟩ := bind_ok h
    obtain ⟨⟨⟩, -, h⟩ := bind_ok h
    obtain ⟨⟨⟩, -, h⟩ := bind_ok h
    obtain ⟨rfl, -⟩ := append_ok h
    exact .inl rfl
  | subscribeSession command =>
    rw [hcommand] at h
    obtain ⟨⟨⟩, -, h⟩ := bind_ok h
    obtain ⟨found, -, h⟩ := bind_ok h
    obtain ⟨target, -, h⟩ := bind_ok h
    obtain ⟨⟨⟩, -, h⟩ := bind_ok h
    obtain ⟨⟨⟩, -, h⟩ := bind_ok h
    obtain ⟨rfl, -⟩ := append_ok h
    exact .inl rfl

theorem fundedByHuman_after {books : Books} (h : ∀ event ∈ books.events, FundedByHuman event)
    (attempts : List Attempt) :
    ∀ event ∈ (books.after check attempts).events, FundedByHuman event := by
  induction attempts generalizing books with
  | nil => exact h
  | cons attempt rest ih =>
    refine ih ?_
    unfold Books.attempt
    split
    · rename_i next event hanswer
      split
      · exact forall_append h (fundedByHuman_answer hanswer)
      · exact h
    · exact h

/-- The event sets the slice of a plan. -/
def Event.sets (plan : Uuid) (event : Event) : Bool := event.slices.any fun entry => entry.1 == plan

/-- The slice in force is that of the last event that set it. -/
theorem last_sets {books : Books} {plan : Uuid} {slice : Nat}
    (h : (books.slices plan).getLast? = some slice) :
    ∃ raise, (books.events.filter (Event.sets plan)).getLast? = some raise ∧
      raise.slices = some (plan, slice) := by
  unfold Books.slices at h
  generalize books.events = events at h ⊢
  induction events using List.reverseRecOn with
  | nil => cases h
  | append_singleton events event ih =>
    rw [List.filterMap_append, List.filter_append, List.map_append] at h
    rw [List.filter_append]
    by_cases hsets : event.sets plan = true
    · obtain ⟨⟨of, set⟩, hslices, hof⟩ := (Option.any_eq_true _ _).mp hsets
      rw [List.filter_cons_of_pos hsets, List.filter_nil, List.getLast?_concat]
      obtain rfl : of = plan := beq_iff_eq.mp hof
      rw [List.filterMap_cons_some hslices, List.filterMap_nil] at h
      obtain rfl : set = slice := by simpa using h
      exact ⟨event, rfl, hslices⟩
    · rw [List.filter_cons_of_neg hsets, List.filter_nil, List.append_nil]
      refine ih ?_
      cases hslices : event.slices with
      | none =>
        rw [List.filterMap_cons_none hslices, List.filterMap_nil] at h
        simpa using h
      | some entry =>
        have hother : ¬ (entry.1 == plan) = true := by simpa [Event.sets, hslices] using hsets
        rw [List.filterMap_cons_some hslices, List.filterMap_nil] at h
        simpa [hother] using h

/-- The last event that set the slice of the plan is a human's, and its slice covers the next draw. -/
def CoveredByHuman (check : ArtifactCheck) (books : Books) : Prop :=
  ∀ attempt next event plan, books.answer check attempt = .ok (next, event) →
    Books.Grants ⟨next, books.events⟩ plan event →
      ∃ raise user slice, (books.events.filter (Event.sets plan)).getLast? = some raise ∧
        raise.actor = .human user ∧ raise.slices = some (plan, slice) ∧ books.draws plan < slice

/-- After every run, whoever sent which commands in which order, no machine has funded the draw that
is granted next. -/
theorem draws_covered_by_human (check : ArtifactCheck) (attempts : List Attempt) :
    CoveredByHuman check (emptyBooks.after check attempts) := by
  intro attempt next event plan hanswer hgrants
  have hbelow := (sound_empty.after attempts).below (answer_effect hanswer) hgrants
  unfold Books.slice at hbelow
  cases hlast : ((emptyBooks.after check attempts).slices plan).getLast? with
  | none =>
    rw [hlast] at hbelow
    exact absurd hbelow (Nat.not_lt_zero _)
  | some slice =>
    rw [hlast] at hbelow
    obtain ⟨raise, hraise, hslices⟩ := last_sets hlast
    have hmem := (List.mem_filter.mp (List.mem_of_getLast? hraise)).1
    have hempty : ∀ event ∈ emptyBooks.events, FundedByHuman event := by rintro _ ⟨⟩
    rcases fundedByHuman_after hempty attempts raise hmem with hnone | ⟨user, hactor⟩
    · exact nomatch hnone.symm.trans hslices
    · exact ⟨raise, user, slice, hraise, hactor, hslices, hbelow⟩

end Execution
