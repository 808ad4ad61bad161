import Mathlib.Logic.Relation
import AtriumVerified.Loop.Daemon

/-!
# Proofs: a busy server

The loop records an outcome for every command that has an answer, and none of the five arms looks
for the code that means nothing was written: whatever a busy server refuses is recorded as done with.
-/

namespace Loop

open Core

/-! ## Subjects -/

inductive Subject where
  | cause (messageId : Id)
  | plan (planId : Id)
  deriving DecidableEq, Repr

def Command.subject : Command → Subject
  | .openPlan _ _ cause | .openSession _ _ _ cause | .signalSession _ _ cause
  | .sendMessage _ _ cause => .cause cause
  | .settlePlan planId => .plan planId

/-- The subject an outcome records as settled: a cause whose step is terminal, or a plan. -/
def Outcome.settled : Outcome → Option Subject
  | .drawTaken cause _ _ | .drawRefused cause _ _ | .fundedTerminal cause _ _
  | .sessionOpened cause _ _ | .steered cause _ | .answered cause _ | .ignored cause =>
    some (.cause cause)
  | .planSettled planId => some (.plan planId)
  | .planRequested _ | .sessionTerminal _ _ | .advance | .snapshot _ => none

def Outcome.routed : Outcome → Option Id
  | .planRequested cause | .drawTaken cause _ _ | .drawRefused cause _ _ | .fundedTerminal cause _ _
  | .steered cause _ | .answered cause _ | .ignored cause => some cause
  | .sessionOpened _ _ _ | .sessionTerminal _ _ | .planSettled _ | .advance | .snapshot _ => none

def Command.isDraw : Command → Bool
  | .openSession _ _ _ _ => true
  | _ => false

def Outcome.spent : Outcome → Bool
  | .drawRefused _ _ retry => retry == some true
  | _ => true

/-- The loop is done with a subject: a cause whose step is terminal, and whose draw, if it was
refused, has spent its retry, or a settled plan. -/
def DoneWith (journal : JournalState) : Subject → Prop
  | .cause messageId => ∃ state, journal.causes.get messageId = some state ∧
      isCauseSettled state = true ∧ (state.step = .drawRefused → state.retried = true)
  | .plan planId => ∃ plan, journal.plans.get planId = some plan ∧ plan.settled = true

/-- `'retry'`: nothing was written. -/
def Answer.Busy : Answer → Prop
  | .nack code _ => code = "retry"
  | .ack _ => False

/-! ## What a turn consists of -/

/-- One thing that happens in a turn. No route is recorded of a cause, and no command is sent about
a subject, that the loop is done with. -/
inductive Act (server : Server) (roomSeq : Nat) (turn : Turn) : Turn → Prop
  | noted {outcome : Outcome} (live : ∀ held, outcome ≠ .snapshot held)
      (fresh : ∀ cause, outcome.routed = some cause → ¬ DoneWith turn.journal (.cause cause)) :
    Act server roomSeq turn (turn.record roomSeq outcome)
  | commanded {sent : Command} {answer : Answer} {outcome : Outcome}
      (live : ∀ held, outcome ≠ .snapshot held)
      (fresh : ¬ DoneWith turn.journal sent.subject)
      (answered : server turn.sent sent = some answer)
      (routed : ∀ cause, outcome.routed = some cause → sent.subject = .cause cause)
      (settled : answer.Busy → outcome.settled = some sent.subject)
      (spent : answer.Busy → sent.isDraw = false → outcome.spent = true) :
    Act server roomSeq turn ((turn.answered sent answer).record roomSeq outcome)

abbrev Acts (server : Server) (roomSeq : Nat) : Turn → Turn → Prop :=
  Relation.ReflTransGen (Act server roomSeq)

section Turns

variable {server : Server} {roomSeq : Nat} {turn : Turn} {daemon : LoopDaemon} {entry : WireEvent}

theorem acts_advance : Acts server roomSeq turn (turn.record roomSeq .advance) :=
  .single (.noted nofun nofun)

theorem not_doneWith_of_none {cause : Id} (h : turn.journal.causes.get cause = none) :
    ¬ DoneWith turn.journal (.cause cause) := by
  rintro ⟨state, hstate, -⟩
  rw [h] at hstate
  cases hstate

example : ((JournalState.initial.upsertCause "m" .answer .answered none none none none).causes.get
    "m").isSome = true := by decide +kernel

theorem acts_command {sent : Command} {outcome : Answer → Outcome}
    (hlive : ∀ answer held, outcome answer ≠ .snapshot held)
    (hfresh : ¬ DoneWith turn.journal sent.subject)
    (hrouted : ∀ answer cause, (outcome answer).routed = some cause → sent.subject = .cause cause)
    (hsettled : ∀ answer, answer.Busy → (outcome answer).settled = some sent.subject)
    (hspent : ∀ answer, answer.Busy → sent.isDraw = false → (outcome answer).spent = true) :
    Acts server roomSeq turn (command server turn sent fun answer turn =>
      turn.record roomSeq (outcome answer)).turn := by
  unfold command
  cases hanswer : server turn.sent sent with
  | none => exact .refl
  | some answer =>
    exact .single (.commanded (hlive answer) hfresh hanswer (hrouted answer) (hsettled answer)
      (hspent answer))

theorem openWorkOutcome_busy {cause : Id} {answer : Answer} (h : answer.Busy) :
    openWorkOutcome cause answer = .ignored cause := by
  cases answer with
  | ack draw => cases h
  | nack code message =>
    cases h
    rfl

theorem drawOutcome_busy {cause planId : Id} {retry : Bool} {answer : Answer} (h : answer.Busy) :
    drawOutcome cause planId retry answer =
      .drawRefused cause planId (if retry then some true else none) := by
  cases answer with
  | ack draw => cases h
  | nack code message =>
    cases h
    rfl

theorem openWorkOutcome_routed (cause : Id) (answer : Answer) :
    (openWorkOutcome cause answer).routed = some cause := by
  unfold openWorkOutcome
  split
  · split
    · rfl
    · rfl
  · rfl

theorem drawOutcome_routed (cause planId : Id) (retry : Bool) (answer : Answer) :
    (drawOutcome cause planId retry answer).routed = some cause := by
  unfold drawOutcome
  split
  · split
    · rfl
    · rfl
  · rfl
  · rfl

theorem live_of_routed {outcome : Outcome} {cause : Id} (h : outcome.routed = some cause)
    (held : SnapshotState) : outcome ≠ .snapshot held := by
  rintro rfl
  cases h

theorem acts_route {sent : Command} {outcome : Answer → Outcome} {cause : Id}
    (hsubject : sent.subject = .cause cause) (hfresh : ¬ DoneWith turn.journal (.cause cause))
    (hrouted : ∀ answer, (outcome answer).routed = some cause)
    (hsettled : ∀ answer, answer.Busy → (outcome answer).settled = some (.cause cause))
    (hspent : ∀ answer, answer.Busy → sent.isDraw = false → (outcome answer).spent = true) :
    Acts server roomSeq turn (command server turn sent fun answer turn =>
      turn.record roomSeq (outcome answer)).turn := by
  refine acts_command (fun answer => live_of_routed (hrouted answer)) ?_ ?_ ?_ hspent
  · rw [hsubject]
    exact hfresh
  · intro answer other hother
    rw [hrouted answer] at hother
    cases hother
    exact hsubject
  · intro answer hbusy
    rw [hsubject]
    exact hsettled answer hbusy

theorem acts_openWork {cause : Id} (h : ¬ DoneWith turn.journal (.cause cause)) (body : String) :
    Acts server roomSeq turn (openWork daemon server roomSeq turn cause body).turn := by
  refine acts_route rfl h (openWorkOutcome_routed cause) ?_ ?_
  · intro answer hbusy
    rw [openWorkOutcome_busy hbusy]
    rfl
  · intro answer hbusy _
    rw [openWorkOutcome_busy hbusy]
    rfl

theorem acts_steer {cause : Id} (h : ¬ DoneWith turn.journal (.cause cause)) (sessionId : Id)
    (body : String) :
    Acts server roomSeq turn (steer server roomSeq turn cause sessionId body).turn :=
  acts_route rfl h (fun _ => rfl) (fun _ _ => rfl) fun _ _ _ => rfl

theorem acts_answer {cause : Id} (h : ¬ DoneWith turn.journal (.cause cause)) :
    Acts server roomSeq turn (answer server roomSeq turn cause).turn :=
  acts_route rfl h (fun _ => rfl) (fun _ _ => rfl) fun _ _ _ => rfl

theorem acts_takeDraw {cause : Id} (h : ¬ DoneWith turn.journal (.cause cause)) (planId : Id)
    (retry : Bool) :
    Acts server roomSeq turn (takeDraw daemon server roomSeq turn cause planId retry).turn := by
  refine acts_route rfl h (drawOutcome_routed cause planId retry) ?_ nofun
  intro answer hbusy
  rw [drawOutcome_busy hbusy]
  rfl

theorem acts_maybeSettlePlan (planId : Id) :
    Acts server roomSeq turn (maybeSettlePlan server roomSeq turn planId).turn := by
  unfold maybeSettlePlan
  split
  · exact .refl
  · next plan hplan =>
    split
    · next hsettleable =>
      refine acts_command nofun ?_ nofun (fun _ _ => rfl) fun _ _ _ => rfl
      rintro ⟨other, hother, hsettled⟩
      rw [hplan] at hother
      cases hother
      rw [settleable, hsettled] at hsettleable
      cases hsettleable
    · exact .refl

theorem acts_onMessage (cause : Id) (body : String) (replyToId : Option Id) :
    Acts server entry.roomSeq turn
      (onMessage daemon server entry turn cause body replyToId).turn := by
  unfold onMessage
  dsimp only
  split
  · exact acts_advance
  · next hnew =>
    have hnone : turn.journal.causes.get cause = none := by
      simpa using hnew
    have hfresh := not_doneWith_of_none hnone
    split
    · exact acts_openWork hfresh body
    · exact acts_steer hfresh _ body
    · exact acts_answer hfresh
    · refine .single (.noted nofun ?_)
      rintro other ⟨⟩
      exact hfresh

theorem acts_onPlanOpened (planId agentUserId : Id) (causeMessageId : Option Id) :
    Acts server entry.roomSeq turn
      (onPlanOpened daemon server entry turn planId agentUserId causeMessageId).turn := by
  unfold onPlanOpened
  split
  · exact acts_advance
  · next cause _ =>
    dsimp only
    split
    · next hrequested =>
      refine acts_takeDraw ?_ planId false
      rintro ⟨state, hstate, hsettled, -⟩
      rw [hstate, Option.map_some, Option.some.injEq] at hrequested
      rw [isCauseSettled, hrequested.2] at hsettled
      cases hsettled
    · exact acts_advance

theorem acts_onSessionOpened (sessionId planId : Id) (causeMessageId : Option Id) :
    Acts server entry.roomSeq turn
      (onSessionOpened daemon entry turn sessionId planId causeMessageId).turn := by
  unfold onSessionOpened
  split
  · exact acts_advance
  · split
    · exact acts_advance
    · refine .single (.noted ?_ ?_)
      · rintro held ⟨⟩
      · rintro cause ⟨⟩

theorem acts_onSessionTerminal (sessionId : Id) :
    Acts server entry.roomSeq turn (onSessionTerminal server entry turn sessionId).turn := by
  unfold onSessionTerminal
  split
  · exact acts_advance
  · dsimp only
    split
    · exact acts_advance
    · refine .head (.noted ?_ ?_) (acts_maybeSettlePlan _)
      · rintro held ⟨⟩
      · rintro cause ⟨⟩

theorem not_doneWith_of_reroutable {planId cause : Id}
    (h : reroutable turn.journal planId cause = true) : ¬ DoneWith turn.journal (.cause cause) := by
  rintro ⟨state, hstate, -, hretried⟩
  unfold reroutable at h
  rw [hstate] at h
  simp only [Bool.and_eq_true, beq_iff_eq, Bool.not_eq_true'] at h
  rw [hretried h.1.1.2] at h
  cases h.2

theorem acts_reroute (planId : Id) (causes : List Id) :
    Acts server entry.roomSeq turn (reroute daemon server entry planId causes turn).turn := by
  induction causes generalizing turn with
  | nil => exact .refl
  | cons cause rest ih =>
    unfold reroute
    dsimp only
    split
    · next hreroutable =>
      have hdraw : Acts server entry.roomSeq turn
          (takeDraw daemon server entry.roomSeq turn cause planId true).turn :=
        acts_takeDraw (not_doneWith_of_reroutable hreroutable) planId true
      split
      · exact hdraw
      · exact hdraw.trans ih
    · exact ih

theorem acts_onFunding (planId : Id) :
    Acts server entry.roomSeq turn (onFunding daemon server entry turn planId).turn := by
  unfold onFunding
  dsimp only
  split
  · exact acts_reroute planId _
  · exact (acts_reroute planId _).trans acts_advance

theorem Acts.keeps {P : Turn → Prop} {next : Turn} (h : Acts server roomSeq turn next)
    (hact : ∀ {turn next}, P turn → Act server roomSeq turn next → P next) (hturn : P turn) :
    P next := by
  induction h with
  | refl => exact hturn
  | tail _ hlast ih => exact hact ih hlast

theorem acts_handleEvent (daemon : LoopDaemon) (server : Server) (entry : WireEvent)
    (journal : JournalState) :
    Acts server entry.roomSeq (.begin journal) (handleEvent daemon server entry journal).turn := by
  unfold handleEvent
  dsimp only
  cases entry.event.body with
  | messagePosted => exact acts_onMessage _ _ _
  | planOpened => exact acts_onPlanOpened _ _ _
  | sessionOpened => exact acts_onSessionOpened _ _ _
  | sessionSettled => exact acts_onSessionTerminal _
  | sessionFailed => exact acts_onSessionTerminal _
  | planRlimitSet => exact acts_onFunding _
  | planSettled => exact acts_advance
  | drawRefused => exact acts_advance
  | sessionSignaled => exact acts_advance
  | other type =>
    dsimp only
    split
    · exact .refl
    · exact acts_advance

end Turns

/-! ## A busy server -/

section Busy

variable {server : Server} {turn next : Turn} {roomSeq : Nat}

/-- No command that the server was too busy for is recorded as settled. -/
def BusyNeverFinal (turn : Turn) : Prop :=
  ∀ sent ∈ turn.sent, sent.2.Busy → ∀ record ∈ turn.records,
    record.outcome.settled ≠ some sent.1.subject

/-- Every command that the server was too busy for has a record that settles its subject. -/
def Followed (turn : Turn) : Prop :=
  ∀ sent ∈ turn.sent, sent.2.Busy → ∃ record ∈ turn.records,
    record.outcome.settled = some sent.1.subject

theorem followed_act (h : Followed turn) (hact : Act server roomSeq turn next) : Followed next := by
  have hearlier {sent : Command × Answer} {outcome : Outcome} (hsent : sent ∈ turn.sent)
      (hbusy : sent.2.Busy) : ∃ record ∈ (turn.record roomSeq outcome).records,
        record.outcome.settled = some sent.1.subject := by
    obtain ⟨record, hrecord, hsettled⟩ := h sent hsent hbusy
    exact ⟨record, List.mem_append_left _ hrecord, hsettled⟩
  cases hact with
  | noted live fresh => exact fun sent hsent hbusy => hearlier hsent hbusy
  | @commanded command answer outcome live fresh answered routed settled spent =>
    intro sent hsent hbusy
    rcases List.mem_append.mp hsent with hsent | hlast
    · exact hearlier hsent hbusy
    · rw [List.mem_singleton.mp hlast] at hbusy ⊢
      exact ⟨⟨roomSeq, outcome⟩, List.mem_append_right _ (List.mem_singleton.mpr rfl),
        settled hbusy⟩

theorem followed_handleEvent (daemon : LoopDaemon) (server : Server) (entry : WireEvent)
    (journal : JournalState) : Followed (handleEvent daemon server entry journal).turn := by
  refine (acts_handleEvent daemon server entry journal).keeps followed_act ?_
  rintro sent ⟨⟩

/-- The loop never settles what the server was too busy for in just the turns in which the server
was not too busy for anything. -/
theorem busy_never_final_iff (daemon : LoopDaemon) (journal : JournalState) (entry : WireEvent)
    (server : Server) :
    BusyNeverFinal (handleEvent daemon server entry journal).turn ↔
      ∀ sent ∈ (handleEvent daemon server entry journal).turn.sent, ¬ sent.2.Busy := by
  constructor
  · intro h sent hsent hbusy
    obtain ⟨record, hrecord, hsettled⟩ :=
      followed_handleEvent daemon server entry journal sent hsent hbusy
    exact h sent hsent hbusy record hrecord hsettled
  · intro h sent hsent hbusy
    exact absurd hbusy (h sent hsent)

end Busy

/-! ## A busy open_plan -/

def botDaemon : LoopDaemon := ⟨"bot", none, none⟩

/-- What a server answers that waited for the ledger for too long. -/
def lockTimeout : Answer :=
  .nack "retry"
    "the ledger was busy (SQLSTATE 55P03); nothing was written — send this command again"

def busyServer : Server := fun _ _ => some lockTimeout

def postedGoal : WireEvent where
  roomId := "room"
  roomSeq := 1
  seq := 1
  actor := .human "ada"
  event := ⟨"e1", "2026-01-01T00:00:01.000Z", "room",
    .messagePosted "m1" "Please do #12" none none none⟩
  issues := []

theorem busy_goal_ignored :
    ¬ ∀ (daemon : LoopDaemon) (journal : JournalState) (entry : WireEvent) (server : Server),
      BusyNeverFinal (handleEvent daemon server entry journal).turn := by
  intro h
  have hsent : (.openPlan "bot" "Please do #12" "m1", lockTimeout) ∈
      (handleEvent botDaemon busyServer postedGoal .initial).turn.sent := by
    decide +kernel
  have hrecord : ⟨1, .ignored "m1"⟩ ∈
      (handleEvent botDaemon busyServer postedGoal .initial).turn.records := by
    decide +kernel
  exact h botDaemon .initial postedGoal busyServer _ hsent rfl _ hrecord rfl

end Loop
