import Mathlib.Data.List.Perm.Subperm
import AtriumVerified.Execution.Coordinator
import AtriumVerified.Execution.Proofs.DrawProofs
import AtriumVerified.Lib.Runs

/-!
# The outcome a call reports

A call of `runGranted` reports the exit it wrote, unless its first settle committed and threw all the
same, or the artifact of a failed run was dropped on the way to the ledger. The provider runs at most
once for a session, and a session has at most one exit, whatever happens.
-/

namespace Execution

open Core Postgres Server

/-! ## What a step keeps of the sessions -/

/-- The sessions are still there; none opens again, and none becomes unclaimed. -/
def SessionsKept (tables next : Tables) : Prop :=
  ∀ session row, tables.sessions.lookup session = some row →
    ∃ row', next.sessions.lookup session = some row' ∧ row'.executionMode = row.executionMode ∧
      (row.executionClaimedAt ≠ none → row'.executionClaimedAt ≠ none) ∧
      (row.status ≠ .opened → row'.status ≠ .opened)

theorem SessionsKept.refl (tables : Tables) : SessionsKept tables tables :=
  fun _ row h => ⟨row, h, rfl, id, id⟩

theorem Effect.sessionsKept {tables next : Tables} {event : Event}
    (he : Effect tables event next) : SessionsKept tables next := by
  intro session row h
  obtain ⟨row', hrow', hfollows⟩ := he.session_kept h
  exact ⟨row', hrow', hfollows.mode, fun hclaimed => hfollows.claimed ▸ hclaimed, hfollows.exited⟩

/-- A claim takes an unclaimed session of a provider and leaves it claimed. -/
theorem claim_ok {tables next : Tables} {instanceId : String} {now : Int} {sessionId roomId : Id}
    {claimed : Option ClaimedSession}
    (h : claim tables instanceId now sessionId roomId = .ok (next, claimed)) :
    SessionsKept tables next ∧ (claimed ≠ none → ∃ session row row',
      uuid sessionId = some session ∧ tables.sessions.lookup session = some row ∧
        row.executionClaimedAt = none ∧ next.sessions.lookup session = some row' ∧
        row'.executionMode = .provider ∧ row'.executionClaimedAt ≠ none) := by
  obtain ⟨found, hfound, h⟩ := bind_ok h
  obtain ⟨key, hkey, h⟩ := bind_ok h
  split at h
  · cases h
    exact ⟨.refl tables, fun hne => absurd rfl hne⟩
  · rename_i row hrow
    cases h
    obtain ⟨rfl, hclaimable⟩ := Option.filter_eq_some_iff.mp hrow
    obtain ⟨k, hk, -, hlook⟩ := rowIn_some hfound
    obtain rfl := Option.some.inj ((cast_ok hkey).symm.trans hk)
    simp only [isClaimable, Bool.and_eq_true, beq_iff_eq, Option.isNone_iff_eq_none] at hclaimable
    obtain ⟨⟨⟨hopened, hmode⟩, -⟩, hunclaimed⟩ := hclaimable
    refine ⟨?_, fun _ => ⟨key, row, _, hk, hlook, hunclaimed, AList.lookup_insert _, hmode,
      Option.some_ne_none _⟩⟩
    intro session other hother
    by_cases hs : session = key
    · subst hs
      obtain rfl := Option.some.inj (hlook.symm.trans hother)
      exact ⟨_, AList.lookup_insert _, rfl, fun _ => Option.some_ne_none _, id⟩
    · exact ⟨other, (AList.lookup_insert_ne hs).trans hother, rfl, id, id⟩

/-! ## Settles -/

theorem settleSession_ok {around : Surroundings} {tables next : Tables} {caller : Caller}
    {draw : Draw} {check : ArtifactCheck} {opener : Id → Option Id} {command : SettleSession}
    {event : Event}
    (h : settleSession around tables caller draw check opener command = .ok (next, event)) :
    event.payload = .sessionExit command.outcome command.sessionId
        (verifiedReceipt draw.verified command.receipt) ∧
      ∃ session row, uuid command.sessionId = some session ∧
        tables.sessions.lookup session = some row ∧
        (row.executionMode = .provider → command.outcome = .settled →
          (verifiedReceipt draw.verified command.receipt).artifact ≠ none) := by
  obtain ⟨⟨⟩, -, h⟩ := bind_ok h
  obtain ⟨⟨⟩, -, h⟩ := bind_ok h
  obtain ⟨found, hfound, h⟩ := bind_ok h
  split at h
  · cases h
  · rename_i row
    obtain ⟨⟨⟩, -, h⟩ := bind_ok h
    obtain ⟨⟨⟩, hguard, h⟩ := bind_ok h
    obtain ⟨rfl, -⟩ := append_ok h
    obtain ⟨session, hsession, -, hlook⟩ := rowIn_some hfound
    refine ⟨rfl, session, row, hsession, hlook, ?_⟩
    intro hmode houtcome hnone
    have hrefused := demand_ok hguard
    rw [hmode, houtcome, hnone] at hrefused
    cases hrefused

variable {ι : Type} {check : ArtifactCheck}
  {readArtifact : Js.Json → Option ExecutionArtifact} {providerKind : String} {w next : World ι}
  {i : ι} {job : Job} {authority message : String} {report : ExecutionReport} {c : Circumstances}

theorem settles_ok {outcome : Outcome} {receipt : Receipt} {tables : Tables} {event : Event}
    (h : w.settles check job c (settleCommand job authority outcome receipt) = .ok (tables, event)) :
    Effect w.tables event tables ∧
      event.payload = .sessionExit outcome job.granted.sessionId
        (verifiedReceipt c.draw.verified receipt) ∧
      ∃ session row, uuid job.granted.sessionId = some session ∧
        w.tables.sessions.lookup session = some row ∧ row.status = .opened ∧
        (row.executionMode = .provider → outcome = .settled →
          (verifiedReceipt c.draw.verified receipt).artifact ≠ none) := by
  have he : Effect w.tables event tables := settleSession_effect h
  obtain ⟨hpayload, session, row, hsession, hlook, hverified⟩ := settleSession_ok h
  have hexited : event.exited = some session := by
    unfold Event.exited
    rw [hpayload]
    exact hsession
  obtain ⟨⟨open', hopen, hstatus⟩, -⟩ := he.exited_fresh hexited
  obtain rfl := Option.some.inj (hlook.symm.trans hopen)
  exact ⟨he, hpayload, session, row, hsession, hlook, hstatus, hverified⟩

def World.recorded (w : World ι) (i : ι) (tables : Tables) (event : Event) : World ι :=
  { w with tables, ledger := w.ledger ++ [⟨event, some i⟩] }

theorem settleOrThrow_cases (check : ArtifactCheck) (w : World ι) (i : ι) (job : Job) (c : Circumstances)
    (command : SettleSession) :
    ((∃ message, w.settleOrThrow check i job c command = (w, some message)) ∧
      ¬ (c.fate ≠ .undone ∧ (w.settles check job c command).toOption.isSome)) ∨
    ∃ tables event, w.settles check job c command = .ok (tables, event) ∧ c.fate ≠ .undone ∧
      w.settleOrThrow check i job c command =
        (w.recorded i tables event, if c.fate = .answered then none else some c.message) := by
  by_cases hfate : c.fate = .undone
  · refine .inl ⟨⟨c.message, ?_⟩, fun hne => hne.1 hfate⟩
    rw [World.settleOrThrow, if_pos hfate]
  · rcases hsettles : w.settles check job c command with error | ⟨tables, event⟩
    · refine .inl ⟨⟨thrownMessage c.message error, ?_⟩, ?_⟩
      · rw [World.settleOrThrow, if_neg hfate, hsettles]
      · rintro ⟨-, hsome⟩
        cases hsome
    · refine .inr ⟨tables, event, rfl, hfate, ?_⟩
      rw [World.settleOrThrow, if_neg hfate, hsettles]
      rfl

/-! ## The data stay sound -/

/-- What holds of the tables, the ledger, the claims and the runs. -/
structure DataSound (w : World ι) : Prop where
  exited : ∀ entry ∈ w.ledger, ∀ session, entry.event.exited = some session →
    ∃ row, w.tables.sessions.lookup session = some row ∧ row.status ≠ .opened
  exits : ∀ session, (w.ledger.filter fun entry => entry.event.exited = some session).length ≤ 1
  claimed : ∀ claim ∈ w.claims, ∀ session, uuid claim.2 = some session →
    ∃ row, w.tables.sessions.lookup session = some row ∧ row.executionClaimedAt ≠ none
  claims : ∀ session, (w.claims.filter fun claim => uuid claim.2 = some session).length ≤ 1
  ran : ∀ entry ∈ w.ran, entry ∈ w.claims
  once : (w.ran.map Prod.fst).Nodup

theorem dataSound_empty : DataSound (emptyWorld : World ι) where
  exited _ h := by cases h
  exits _ := Nat.zero_le 1
  claimed _ h := by cases h
  claims _ := Nat.zero_le 1
  ran _ h := by cases h
  once := List.nodup_nil

theorem DataSound.keep {tables : Tables} (h : DataSound w) (hkept : SessionsKept w.tables tables) :
    DataSound { w with tables } where
  exited entry hentry session hexited := by
    obtain ⟨row, hrow, hdone⟩ := h.exited entry hentry session hexited
    obtain ⟨row', hrow', -, -, hstays⟩ := hkept session row hrow
    exact ⟨row', hrow', hstays hdone⟩
  exits := h.exits
  claimed claim hclaim session hsession := by
    obtain ⟨row, hrow, hclaimed⟩ := h.claimed claim hclaim session hsession
    obtain ⟨row', hrow', -, hstays, -⟩ := hkept session row hrow
    exact ⟨row', hrow', hstays hclaimed⟩
  claims := h.claims
  ran := h.ran
  once := h.once

theorem DataSound.append {tables : Tables} {event : Event} (h : DataSound w)
    (he : Effect w.tables event tables) (author : Option ι) :
    DataSound { w with tables, ledger := w.ledger ++ [⟨event, author⟩] } where
  exited entry hentry session hexited := by
    rcases List.mem_append.mp hentry with hold | hnew
    · exact (h.keep he.sessionsKept).exited entry hold session hexited
    · rw [List.mem_singleton.mp hnew] at hexited
      exact (he.exited_fresh hexited).2
  exits := once_append h.exits fun session hexited old hold holdExited => by
    obtain ⟨row, hrow, hdone⟩ := h.exited old hold session holdExited
    obtain ⟨⟨open', hopen, hstatus⟩, -⟩ := he.exited_fresh hexited
    obtain rfl := Option.some.inj (hopen.symm.trans hrow)
    exact hdone hstatus
  claimed := (h.keep he.sessionsKept).claimed
  claims := h.claims
  ran := h.ran
  once := h.once

theorem DataSound.claim {tables : Tables} {instanceId : String} {now : Int} {sessionId roomId : Id}
    {claimed : ClaimedSession} (h : DataSound w)
    (hclaim : Execution.claim w.tables instanceId now sessionId roomId = .ok (tables, some claimed)) :
    DataSound { w with tables, claims := w.claims ++ [(i, sessionId)] } := by
  obtain ⟨hkept, hsession⟩ := claim_ok hclaim
  obtain ⟨session, row, row', hkey, hlook, hunclaimed, hlook', -, hclaimed⟩ :=
    hsession (Option.some_ne_none _)
  have hkeep := h.keep hkept
  exact {
    exited := hkeep.exited
    exits := h.exits
    claimed := by
      intro claim hmem key hclaimKey
      rcases List.mem_append.mp hmem with hold | hnew
      · exact hkeep.claimed claim hold key hclaimKey
      · rw [List.mem_singleton.mp hnew, hkey] at hclaimKey
        obtain rfl := Option.some.inj hclaimKey
        exact ⟨row', hlook', hclaimed⟩
    claims := once_append h.claims fun key hclaimKey old hold holdKey => by
      obtain rfl := Option.some.inj (hkey.symm.trans hclaimKey)
      obtain ⟨held, hheld, hwas⟩ := h.claimed old hold session holdKey
      obtain rfl := Option.some.inj (hlook.symm.trans hheld)
      exact hwas hunclaimed
    ran := fun entry hentry => List.mem_append_left _ (h.ran entry hentry)
    once := h.once }

theorem DataSound.invoke {sessionId : Id} (h : DataSound w) (hclaims : (i, sessionId) ∈ w.claims)
    (hran : i ∉ w.ran.map Prod.fst) :
    DataSound { w with ran := w.ran ++ [(i, sessionId)] } where
  exited := h.exited
  exits := h.exits
  claimed := h.claimed
  claims := h.claims
  ran entry hentry := by
    rcases List.mem_append.mp hentry with hold | hnew
    · exact h.ran entry hold
    · rw [List.mem_singleton.mp hnew]
      exact hclaims
  once := by
    rw [List.map_append, List.nodup_append]
    refine ⟨h.once, List.nodup_singleton _, ?_⟩
    intro a ha b hb
    rw [List.mem_singleton.mp hb]
    rintro rfl
    exact hran ha

theorem DataSound.runs (h : DataSound w) (session : Uuid) :
    (w.ran.filter fun entry => uuid entry.2 = some session).length ≤ 1 := by
  have hnodup : (w.ran.filter fun entry => uuid entry.2 = some session).Nodup :=
    (List.Nodup.of_map _ h.once).filter _
  have hsubset : (w.ran.filter fun entry => uuid entry.2 = some session) ⊆
      w.claims.filter fun claim => uuid claim.2 = some session := by
    intro entry hentry
    obtain ⟨hmem, hsession⟩ := List.mem_filter.mp hentry
    exact List.mem_filter.mpr ⟨h.ran entry hmem, hsession⟩
  exact (List.subperm_of_subset hnodup hsubset).length_le.trans (h.claims session)

/-! ## The calls stay sound -/

def Silent (w : World ι) (i : ι) : Prop := ∀ entry ∈ w.ledger, entry.author ≠ some i

/-- The session of the call is there, and is a provider's. -/
def Provided (w : World ι) (job : Job) : Prop :=
  ∃ session row, uuid job.granted.sessionId = some session ∧
    w.tables.sessions.lookup session = some row ∧ row.executionMode = .provider

/-- What is known of a call in each of its phases. -/
def PhaseSound (w : World ι) (i : ι) : Phase → Prop
  | .idle | .claiming _ => Silent w i ∧ i ∉ w.ran.map Prod.fst
  | .resolving job _ => Silent w i ∧ Provided w job ∧ i ∉ w.ran.map Prod.fst ∧
      (i, job.granted.sessionId) ∈ w.claims
  | .running job _ | .settling job _ _ => Silent w i ∧ Provided w job
  -- The first settle may have committed although it threw.
  | .retrying job _ report _ => ∀ entry ∈ w.ledger, entry.author = some i → ∃ receipt,
      entry.event.payload = .sessionExit report.outcome job.granted.sessionId receipt
  | .returned _ _ => True

structure Elsewhere (w next : World ι) (i : ι) : Prop where
  kept : ∀ entry ∈ w.ledger, entry ∈ next.ledger
  silent : ∀ entry ∈ next.ledger, entry.author = some i → entry ∈ w.ledger
  sessions : SessionsKept w.tables next.tables
  claims : ∀ claim ∈ w.claims, claim ∈ next.claims
  ran : i ∈ next.ran.map Prod.fst → i ∈ w.ran.map Prod.fst

theorem Elsewhere.provided (h : Elsewhere w next i) (hprovided : Provided w job) :
    Provided next job := by
  obtain ⟨session, row, hsession, hrow, hmode⟩ := hprovided
  obtain ⟨row', hrow', hmode', -⟩ := h.sessions session row hrow
  exact ⟨session, row', hsession, hrow', hmode'.trans hmode⟩

theorem Elsewhere.quiet (h : Elsewhere w next i) (hsilent : Silent w i) : Silent next i :=
  fun entry hentry hauthor => hsilent entry (h.silent entry hentry hauthor) hauthor

theorem Elsewhere.phaseSound (h : Elsewhere w next i) {phase : Phase}
    (hphase : PhaseSound w i phase) : PhaseSound next i phase := by
  cases phase with
  | idle => exact ⟨h.quiet hphase.1, fun hran => hphase.2 (h.ran hran)⟩
  | claiming job => exact ⟨h.quiet hphase.1, fun hran => hphase.2 (h.ran hran)⟩
  | resolving job claimed =>
    obtain ⟨hsilent, hprovided, hran, hclaims⟩ := hphase
    exact ⟨h.quiet hsilent, h.provided hprovided, fun hnext => hran (h.ran hnext),
      h.claims _ hclaims⟩
  | running job claimed => exact ⟨h.quiet hphase.1, h.provided hphase.2⟩
  | settling job authority report => exact ⟨h.quiet hphase.1, h.provided hphase.2⟩
  | retrying job authority report message =>
    exact fun entry hentry hauthor => hphase entry (h.silent entry hentry hauthor) hauthor
  | returned job outcome => trivial

theorem Elsewhere.wrote_iff (h : Elsewhere w next i) {outcome : Outcome}
    {artifact : Option ExecutionArtifact} :
    next.Wrote i outcome artifact ↔ w.Wrote i outcome artifact := by
  constructor
  · rintro ⟨entry, hentry, hauthor, hrest⟩
    exact ⟨entry, h.silent entry hentry hauthor, hauthor, hrest⟩
  · rintro ⟨entry, hentry, hauthor, hrest⟩
    exact ⟨entry, h.kept entry hentry, hauthor, hrest⟩

structure World.Sound (w : World ι) : Prop where
  data : DataSound w
  calls : ∀ i, PhaseSound w i (w.calls i)

/-- A call is going to return what it wrote, as far as it has written it. -/
def Faithful (w : World ι) (i : ι) : Phase → Prop
  | .retrying _ _ report _ => ∀ kind artifact, w.Wrote i kind artifact →
      report.outcome = .failed ∧ artifact = report.receipt.artifact
  | .returned _ outcome => ∀ kind artifact, w.Wrote i kind artifact →
      outcome.kind = kind ∧ outcome.artifact = artifact
  | _ => True

theorem Elsewhere.faithful_iff (h : Elsewhere w next i) (phase : Phase) :
    Faithful next i phase ↔ Faithful w i phase := by
  cases phase with
  | retrying job authority report message => simp only [Faithful, h.wrote_iff]
  | returned job outcome => simp only [Faithful, h.wrote_iff]
  | _ => exact Iff.rfl

def World.Good (w : World ι) : Prop := ∀ i, Faithful w i (w.calls i)

theorem silent_of_wrote_none (h : Silent w i) {outcome : Outcome}
    {artifact : Option ExecutionArtifact} : ¬ w.Wrote i outcome artifact := by
  rintro ⟨entry, hentry, hauthor, -⟩
  exact h entry hentry hauthor

structure Moves (w next : World ι) (i : ι) : Prop where
  others : ∀ j, j ≠ i → next.calls j = w.calls j
  elsewhere : ∀ j, j ≠ i → Elsewhere w next j

theorem Moves.sound (h : Moves w next i) (hsound : w.Sound) (hdata : DataSound next)
    (hphase : PhaseSound next i (next.calls i)) : next.Sound where
  data := hdata
  calls j := by
    by_cases hj : j = i
    · rw [hj]
      exact hphase
    · rw [h.others j hj]
      exact (h.elsewhere j hj).phaseSound (hsound.calls j)

theorem Moves.verdict (h : Moves w next i) {heard : Prop}
    (hiff : Faithful w i (w.calls i) → (heard ↔ Faithful next i (next.calls i)))
    (hback : Faithful next i (next.calls i) → Faithful w i (w.calls i)) :
    (w.Good → (heard ↔ next.Good)) ∧ (next.Good → w.Good) := by
  have hothers (j : ι) (hj : j ≠ i) :
      Faithful next j (next.calls j) ↔ Faithful w j (w.calls j) := by
    rw [h.others j hj]
    exact (h.elsewhere j hj).faithful_iff _
  constructor
  · intro hgood
    rw [hiff (hgood i)]
    constructor
    · intro hfaithful j
      by_cases hj : j = i
      · rw [hj]
        exact hfaithful
      · exact (hothers j hj).mpr (hgood j)
    · exact fun hnext => hnext i
  · intro hnext j
    by_cases hj : j = i
    · rw [hj]
      exact hback (hnext i)
    · exact (hothers j hj).mp (hnext j)

theorem Moves.verdict_trivial (h : Moves w next i) {heard : Prop} (hheard : heard)
    (hbefore : Faithful w i (w.calls i)) (hafter : Faithful next i (next.calls i)) :
    (w.Good → (heard ↔ next.Good)) ∧ (next.Good → w.Good) :=
  h.verdict (fun _ => ⟨fun _ => hafter, fun _ => hheard⟩) (fun _ => hbefore)

theorem Elsewhere.refl (w : World ι) (i : ι) : Elsewhere w w i :=
  ⟨fun _ h => h, fun _ h _ => h, .refl _, fun _ h => h, fun h => h⟩

theorem elsewhere_tables {tables : Tables} (h : SessionsKept w.tables tables) :
    Elsewhere w { w with tables } i :=
  ⟨fun _ h => h, fun _ h _ => h, h, fun _ h => h, fun h => h⟩

theorem elsewhere_recorded {tables : Tables} {event : Event} {j : ι}
    (h : Effect w.tables event tables) (hj : j ≠ i) :
    Elsewhere w (w.recorded i tables event) j where
  kept entry hentry := List.mem_append_left _ hentry
  silent entry hentry hauthor := by
    rcases List.mem_append.mp hentry with hold | hnew
    · exact hold
    · rw [List.mem_singleton.mp hnew] at hauthor
      exact absurd (Option.some.inj hauthor).symm hj
  sessions := h.sessionsKept
  claims claim hclaim := hclaim
  ran h := h

/-! ## What a settle writes -/

theorem wrote_recorded {tables : Tables} {event : Event} {outcome : Outcome} {sessionId : Id}
    {receipt : Receipt} (hsilent : Silent w i)
    (hpayload : event.payload = .sessionExit outcome sessionId receipt) {kind : Outcome}
    {artifact : Option ExecutionArtifact} :
    (w.recorded i tables event).Wrote i kind artifact ↔
      kind = outcome ∧ artifact = receipt.artifact := by
  constructor
  · rintro ⟨entry, hentry, hauthor, session, held, hheld, rfl⟩
    rcases List.mem_append.mp hentry with hold | hnew
    · exact absurd hauthor (hsilent entry hold)
    · rw [List.mem_singleton.mp hnew, hpayload] at hheld
      cases hheld
      exact ⟨rfl, rfl⟩
  · rintro ⟨rfl, rfl⟩
    exact ⟨⟨event, some i⟩, List.mem_append_right _ (List.mem_singleton_self _), rfl, sessionId,
      receipt, hpayload, rfl⟩

theorem verifiedReceipt_artifact_iff {verified : Bool} {receipt : Receipt} :
    receipt.artifact = (verifiedReceipt verified receipt).artifact ↔
      (receipt.artifact.isSome → verified = true) := by
  cases verified
  · cases h : receipt.artifact <;> simp [verifiedReceipt]
  · simp [verifiedReceipt]

theorem heard_settle_iff (hcall : w.calls i = .settling job authority report)
    (hcommits : c.fate ≠ .undone ∧ (w.settles check job c
      (settleCommand job authority report.outcome report.receipt)).toOption.isSome) :
    w.Heard check (.settle i c) ↔
      if report.terminal.ok then c.fate = .answered
      else report.receipt.artifact.isSome → c.draw.verified = true := by
  constructor
  · exact fun h => h job authority report hcall hcommits.1 hcommits.2
  · intro h job' authority' report' hcall'
    cases hcall.symm.trans hcall'
    exact fun _ _ => h

theorem faithful_retrying_iff {kind : Outcome} {artifact : Option ExecutionArtifact}
    (hwrote : ∀ outcome held, w.Wrote i outcome held ↔ outcome = kind ∧ held = artifact) :
    Faithful w i (.retrying job authority report message) ↔
      report.outcome = .failed ∧ artifact = report.receipt.artifact := by
  constructor
  · exact fun h => h kind artifact ((hwrote _ _).mpr ⟨rfl, rfl⟩)
  · intro h outcome held hheld
    obtain ⟨rfl, rfl⟩ := (hwrote _ _).mp hheld
    exact h

theorem faithful_returned_iff {outcome : ExecutionOutcome} {kind : Outcome}
    {artifact : Option ExecutionArtifact}
    (hwrote : ∀ other held, w.Wrote i other held ↔ other = kind ∧ held = artifact) :
    Faithful w i (.returned job outcome) ↔ outcome.kind = kind ∧ outcome.artifact = artifact := by
  constructor
  · exact fun h => h kind artifact ((hwrote _ _).mpr ⟨rfl, rfl⟩)
  · intro h other held hheld
    obtain ⟨rfl, rfl⟩ := (hwrote _ _).mp hheld
    exact h

/-- Where the first settle commits, it is heard exactly when the call is going to return what it
recorded. -/
theorem settle_heard_iff {tables : Tables} {event : Event} (hsilent : Silent w i)
    (hprovided : Provided w job) (hcall : w.calls i = .settling job authority report)
    (hsettles : w.settles check job c
      (settleCommand job authority report.outcome report.receipt) = .ok (tables, event))
    (hfate : c.fate ≠ .undone) :
    w.Heard check (.settle i c) ↔ Faithful (w.recorded i tables event) i
      (if c.fate = .answered then .returned job (outcomeOf job report report.outcome)
      else .retrying job authority report message) := by
  obtain ⟨-, hpayload, session, row, hsession, hrow, -, hverified⟩ := settles_ok hsettles
  have hwrote := @wrote_recorded ι w i tables event _ _ _ hsilent hpayload
  -- A clean run is settled with an artifact that was verified.
  have hkept (hok : report.terminal.ok = true) :
      report.receipt.artifact = (verifiedReceipt c.draw.verified report.receipt).artifact := by
    obtain ⟨session', row', hsession', hrow', hmode⟩ := hprovided
    obtain rfl := Option.some.inj (hsession.symm.trans hsession')
    obtain rfl := Option.some.inj (hrow.symm.trans hrow')
    have hsome := hverified hmode (if_pos hok)
    rw [verifiedReceipt_artifact_iff]
    intro _
    by_contra hverdict
    rw [verifiedReceipt, if_neg hverdict] at hsome
    exact hsome rfl
  rw [heard_settle_iff hcall ⟨hfate, by rw [hsettles]; rfl⟩]
  by_cases hanswered : c.fate = .answered
  · rw [if_pos hanswered, faithful_returned_iff (fun _ _ => hwrote)]
    cases hok : report.terminal.ok with
    | true => simp [outcomeOf, hanswered, hkept hok]
    | false => simp [outcomeOf, ← verifiedReceipt_artifact_iff]
  · rw [if_neg hanswered, faithful_retrying_iff (fun _ _ => hwrote)]
    cases hok : report.terminal.ok with
    | true => simp [ExecutionReport.outcome, hok, hanswered]
    | false =>
      rw [← verifiedReceipt_artifact_iff]
      simp [ExecutionReport.outcome, hok, eq_comm]

theorem heard_retry_iff (hcall : w.calls i = .retrying job authority report message)
    (hcommits : c.fate ≠ .undone ∧ (w.settles check job c (settleCommand job authority .failed
      (fallbackReceipt report.outcome message))).toOption.isSome) :
    w.Heard check (.retry i c) ↔
      report.terminal.ok = true ∨ report.receipt.artifact = none := by
  constructor
  · exact fun h => h job authority report message hcall hcommits.1 hcommits.2
  · intro h job' authority' report' message' hcall'
    cases hcall.symm.trans hcall'
    exact fun _ _ => h

theorem silent_of_retried {tables : Tables} {event : Event} {receipt : Receipt}
    (hsound : w.Sound) (hcall : w.calls i = .retrying job authority report message)
    (hsettles : w.settles check job c (settleCommand job authority .failed receipt) =
      .ok (tables, event)) : Silent w i := by
  obtain ⟨-, -, session, row, hsession, hrow, hopened, -⟩ := settles_ok hsettles
  have hphase := hsound.calls i
  rw [hcall] at hphase
  intro entry hentry hauthor
  obtain ⟨held, hpayload⟩ := hphase entry hentry hauthor
  have hexited : entry.event.exited = some session := by
    unfold Event.exited
    rw [hpayload]
    exact hsession
  obtain ⟨exited, hlook, hdone⟩ := hsound.data.exited entry hentry session hexited
  obtain rfl := Option.some.inj (hrow.symm.trans hlook)
  exact hdone hopened

theorem retry_heard_iff {tables : Tables} {event : Event} (hsound : w.Sound)
    (hcall : w.calls i = .retrying job authority report message)
    (hsettles : w.settles check job c (settleCommand job authority .failed
      (fallbackReceipt report.outcome message)) = .ok (tables, event))
    (hfate : c.fate ≠ .undone) :
    w.Heard check (.retry i c) ↔ Faithful (w.recorded i tables event) i
      (.returned job (outcomeOf job report .failed)) := by
  obtain ⟨-, hpayload, -⟩ := settles_ok hsettles
  have hsilent := silent_of_retried hsound hcall hsettles
  rw [heard_retry_iff hcall ⟨hfate, by rw [hsettles]; rfl⟩,
    faithful_returned_iff (fun _ _ => wrote_recorded hsilent hpayload)]
  cases hok : report.terminal.ok <;>
    simp [outcomeOf, ExecutionReport.outcome, hok, verifiedReceipt, fallbackReceipt]

theorem retry_faithful_iff (hphase : PhaseSound w i (.retrying job authority report message)) :
    Faithful w i (.returned job (outcomeOf job report .failed)) ↔
      Faithful w i (.retrying job authority report message) := by
  have hkind {kind : Outcome} {artifact : Option ExecutionArtifact}
      (hwrote : w.Wrote i kind artifact) : kind = report.outcome := by
    obtain ⟨entry, hentry, hauthor, session, receipt, hpayload, -⟩ := hwrote
    obtain ⟨held, hheld⟩ := hphase entry hentry hauthor
    cases hpayload.symm.trans hheld
    rfl
  constructor
  · intro h kind artifact hwrote
    obtain ⟨hfailed, hartifact⟩ := h kind artifact hwrote
    have houtcome : report.outcome = .failed := (hkind hwrote).symm.trans hfailed.symm
    refine ⟨houtcome, ?_⟩
    rw [← hartifact, outcomeOf, if_pos houtcome.symm]
  · intro h kind artifact hwrote
    obtain ⟨hfailed, rfl⟩ := h kind artifact hwrote
    refine ⟨hfailed.symm.trans (hkind hwrote).symm, ?_⟩
    rw [outcomeOf, if_pos hfailed.symm]

/-! ## One step -/

def Steps (check : ArtifactCheck) (w next : World ι) (happening : Happening ι) : Prop :=
  next.Sound ∧ (w.Good → (w.Heard check happening ↔ next.Good)) ∧ (next.Good → w.Good)

theorem elsewhere_step {happening : Happening ι} (hsound : w.Sound)
    (hheard : w.Heard check happening) (hcalls : next.calls = w.calls) (hdata : DataSound next)
    (h : ∀ i, Elsewhere w next i) : Steps check w next happening := by
  have hiff (i : ι) : Faithful next i (next.calls i) ↔ Faithful w i (w.calls i) := by
    rw [hcalls]
    exact (h i).faithful_iff _
  refine ⟨⟨hdata, fun i => ?_⟩, fun hgood => ?_, fun hnext i => (hiff i).mp (hnext i)⟩
  · rw [hcalls]
    exact (h i).phaseSound (hsound.calls i)
  · exact ⟨fun _ i => (hiff i).mpr (hgood i), fun _ => hheard⟩

section Steps

variable [DecidableEq ι]

theorem calls_moves (w : World ι) (i : ι) (phase : Phase) : (w.moves i phase).calls i = phase :=
  if_pos rfl

theorem calls_moves_ne (w : World ι) {i j : ι} (phase : Phase) (h : j ≠ i) :
    (w.moves i phase).calls j = w.calls j :=
  if_neg h

theorem DataSound.moves (h : DataSound w) (phase : Phase) : DataSound (w.moves i phase) :=
  ⟨h.exited, h.exits, h.claimed, h.claims, h.ran, h.once⟩

theorem moves_of_elsewhere {mid : World ι} (phase : Phase) (hcalls : mid.calls = w.calls)
    (h : ∀ j, j ≠ i → Elsewhere w mid j) : Moves w (mid.moves i phase) i where
  others j hj := (calls_moves_ne mid phase hj).trans (congrFun hcalls j)
  elsewhere j hj :=
    ⟨(h j hj).kept, (h j hj).silent, (h j hj).sessions, (h j hj).claims, (h j hj).ran⟩

theorem claim_step {now : Int} {fate : Fate} (hsound : w.Sound) (hcall : w.calls i = .claiming job) :
    Steps check w (w.claim i job now fate) (.claim i now fate) := by
  have hphase := hsound.calls i
  rw [hcall] at hphase
  obtain ⟨hsilent, hran⟩ := hphase
  have hbefore : Faithful w i (w.calls i) := by
    rw [hcall]
    trivial
  -- Every end of the claim but one gives the call nothing to run.
  have hreturns {mid : World ι} (hcalls : mid.calls = w.calls) (hledger : mid.ledger = w.ledger)
      (hdata : DataSound mid) (helse : ∀ j, j ≠ i → Elsewhere w mid j) :
      Steps check w (mid.moves i (.returned job (notRun job))) (.claim i now fate) := by
    have hmoves := moves_of_elsewhere (.returned job (notRun job)) hcalls helse
    refine ⟨hmoves.sound hsound (hdata.moves _) ?_, hmoves.verdict_trivial trivial hbefore ?_⟩
    · rw [calls_moves]
      trivial
    · rw [calls_moves]
      rintro kind artifact ⟨entry, hentry, hauthor, -⟩
      exact absurd hauthor (hsilent entry (hledger ▸ hentry))
  unfold World.claim
  split
  · exact hreturns rfl rfl hsound.data fun j _ => .refl w j
  · rename_i tables claimed hclaim
    obtain ⟨hkept, hsession⟩ := claim_ok hclaim
    split
    · exact hreturns rfl rfl hsound.data fun j _ => .refl w j
    · exact hreturns rfl rfl (hsound.data.keep hkept) fun j _ => elsewhere_tables hkept
    · exact hreturns rfl rfl (hsound.data.keep hkept) fun j _ => elsewhere_tables hkept
    · rename_i claimed
      obtain ⟨session, row, row', hkey, -, -, hrow', hmode, -⟩ := hsession (Option.some_ne_none _)
      have hmoves : Moves w ({ w with
          tables
          claims := w.claims ++ [(i, job.granted.sessionId)] }.moves i (.resolving job claimed)) i :=
        moves_of_elsewhere _ rfl fun j _ =>
          ⟨fun _ h => h, fun _ h _ => h, hkept, fun _ h => List.mem_append_left _ h, fun h => h⟩
      have hdata := hsound.data.claim (i := i) hclaim
      refine ⟨hmoves.sound hsound (hdata.moves _) ?_, hmoves.verdict_trivial trivial hbefore ?_⟩
      · rw [calls_moves]
        exact ⟨hsilent, ⟨session, row', hkey, hrow', hmode⟩, hran,
          List.mem_append_right _ (List.mem_singleton_self _)⟩
      · rw [calls_moves]
        trivial

theorem call_step (hsound : w.Sound) (hcall : w.calls i = .idle) :
    Steps check w (w.moves i (.claiming job)) (.call i job) := by
  have hphase := hsound.calls i
  rw [hcall] at hphase
  have hmoves : Moves w (w.moves i (.claiming job)) i :=
    moves_of_elsewhere _ rfl fun j _ => .refl w j
  refine ⟨hmoves.sound hsound (hsound.data.moves _) ?_, hmoves.verdict_trivial trivial ?_ ?_⟩
  · rw [calls_moves]
    exact hphase
  · rw [hcall]
    trivial
  · rw [calls_moves]
    trivial

theorem invoke_step {claimed : ClaimedSession} (hsound : w.Sound)
    (hcall : w.calls i = .resolving job claimed) :
    Steps check w
      ({ w with ran := w.ran ++ [(i, job.granted.sessionId)] }.moves i (.running job claimed))
      (.resolve i true) := by
  have hphase := hsound.calls i
  rw [hcall] at hphase
  obtain ⟨hsilent, hprovided, hran, hclaims⟩ := hphase
  have hmoves : Moves w
      ({ w with ran := w.ran ++ [(i, job.granted.sessionId)] }.moves i (.running job claimed)) i := by
    refine moves_of_elsewhere _ rfl fun j hj =>
      ⟨fun _ h => h, fun _ h _ => h, .refl _, fun _ h => h, ?_⟩
    intro hnext
    rw [List.map_append] at hnext
    rcases List.mem_append.mp hnext with hold | hnew
    · exact hold
    · exact absurd (List.mem_singleton.mp hnew) hj
  have hdata := hsound.data.invoke hclaims hran
  refine ⟨hmoves.sound hsound (hdata.moves _) ?_, hmoves.verdict_trivial trivial ?_ ?_⟩
  · rw [calls_moves]
    exact ⟨hsilent, hprovided⟩
  · rw [hcall]
    trivial
  · rw [calls_moves]
    trivial

theorem report_step {happening : Happening ι} (hsound : w.Sound)
    (hphase : Silent w i ∧ Provided w job) (hbefore : Faithful w i (w.calls i))
    (hheard : w.Heard check happening) :
    Steps check w (w.moves i (.settling job authority report)) happening := by
  have hmoves : Moves w (w.moves i (.settling job authority report)) i :=
    moves_of_elsewhere _ rfl fun j _ => .refl w j
  refine ⟨hmoves.sound hsound (hsound.data.moves _) ?_, hmoves.verdict_trivial hheard hbefore ?_⟩
  · rw [calls_moves]
    exact hphase
  · rw [calls_moves]
    trivial

theorem recorded_moves {tables : Tables} {event : Event} (phase : Phase) (hsound : w.Sound)
    (he : Effect w.tables event tables) :
    Moves w ((w.recorded i tables event).moves i phase) i ∧
      DataSound ((w.recorded i tables event).moves i phase) := by
  refine ⟨moves_of_elsewhere phase rfl fun j hj => elsewhere_recorded he hj, ?_⟩
  exact (hsound.data.append he (some i)).moves phase

theorem settle_step (hsound : w.Sound) (hcall : w.calls i = .settling job authority report)
    (hstep : w.step check readArtifact providerKind (.settle i c) = some next) :
    Steps check w next (.settle i c) := by
  have hphase := hsound.calls i
  rw [hcall] at hphase
  obtain ⟨hsilent, hprovided⟩ := hphase
  have hbefore : Faithful w i (w.calls i) := by
    rw [hcall]
    trivial
  rcases settleOrThrow_cases check w i job c
    (settleCommand job authority report.outcome report.receipt) with
    ⟨⟨message, hthrows⟩, hlost⟩ | ⟨tables, event, hsettles, hfate, hcommits⟩
  · simp only [World.step, hcall, hthrows, Option.some.injEq] at hstep
    subst hstep
    have hmoves : Moves w (w.moves i (.retrying job authority report message)) i :=
      moves_of_elsewhere _ rfl fun j _ => .refl w j
    refine ⟨hmoves.sound hsound (hsound.data.moves _) ?_, hmoves.verdict_trivial ?_ hbefore ?_⟩
    · rw [calls_moves]
      exact fun entry hentry hauthor => absurd hauthor (hsilent entry hentry)
    · intro job' authority' report' hcall' hfate hsettles
      cases hcall.symm.trans hcall'
      exact absurd ⟨hfate, hsettles⟩ hlost
    · rw [calls_moves]
      exact fun kind artifact hwrote => absurd hwrote (silent_of_wrote_none hsilent)
  · have hnext : next = (w.recorded i tables event).moves i
        (if c.fate = .answered then .returned job (outcomeOf job report report.outcome)
        else .retrying job authority report c.message) := by
      by_cases hanswered : c.fate = .answered
      · rw [if_pos hanswered] at hcommits ⊢
        simp only [World.step, hcall, hcommits, Option.some.injEq] at hstep
        exact hstep.symm
      · rw [if_neg hanswered] at hcommits ⊢
        simp only [World.step, hcall, hcommits, Option.some.injEq] at hstep
        exact hstep.symm
    obtain ⟨he, hpayload, -⟩ := settles_ok hsettles
    obtain ⟨hmoves, hdata⟩ := recorded_moves (i := i)
      (if c.fate = .answered then .returned job (outcomeOf job report report.outcome)
        else .retrying job authority report c.message) hsound he
    rw [hnext]
    refine ⟨hmoves.sound hsound hdata ?_, hmoves.verdict (fun _ => ?_) (fun _ => hbefore)⟩
    · rw [calls_moves]
      split
      · trivial
      · intro entry hentry hauthor
        rcases List.mem_append.mp hentry with hold | hnew
        · exact absurd hauthor (hsilent entry hold)
        · rw [List.mem_singleton.mp hnew]
          exact ⟨_, hpayload⟩
    · rw [calls_moves]
      exact settle_heard_iff hsilent hprovided hcall hsettles hfate

theorem retry_step (hsound : w.Sound) (hcall : w.calls i = .retrying job authority report message) :
    Steps check w ((w.settleOrThrow check i job c (settleCommand job authority .failed
      (fallbackReceipt report.outcome message))).1.moves i
        (.returned job (outcomeOf job report .failed))) (.retry i c) := by
  have hphase := hsound.calls i
  rw [hcall] at hphase
  rcases settleOrThrow_cases check w i job c
    (settleCommand job authority .failed (fallbackReceipt report.outcome message)) with
    ⟨⟨thrown, hthrows⟩, hlost⟩ | ⟨tables, event, hsettles, hfate, hcommits⟩
  · have hmoves : Moves w (w.moves i (.returned job (outcomeOf job report .failed))) i :=
      moves_of_elsewhere _ rfl fun j _ => .refl w j
    have hiff := retry_faithful_iff hphase
    rw [hthrows]
    refine ⟨hmoves.sound hsound (hsound.data.moves _) ?_, hmoves.verdict ?_ ?_⟩
    · rw [calls_moves]
      trivial
    · rw [hcall, calls_moves]
      intro hfaithful
      refine ⟨fun _ => hiff.mpr hfaithful, fun _ => ?_⟩
      intro job' authority' report' message' hcall' hfate hsettles
      cases hcall.symm.trans hcall'
      exact absurd ⟨hfate, hsettles⟩ hlost
    · rw [hcall, calls_moves]
      exact hiff.mp
  · have hsilent := silent_of_retried hsound hcall hsettles
    obtain ⟨hmoves, hdata⟩ := recorded_moves (i := i)
      (.returned job (outcomeOf job report .failed)) hsound (settles_ok hsettles).1
    rw [hcommits]
    refine ⟨hmoves.sound hsound hdata ?_, hmoves.verdict (fun _ => ?_) (fun _ => ?_)⟩
    · rw [calls_moves]
      trivial
    · rw [calls_moves]
      exact retry_heard_iff hsound hcall hsettles hfate
    · rw [hcall]
      exact fun kind artifact hwrote => absurd hwrote (silent_of_wrote_none hsilent)

theorem attempt_step (attempt : Attempt) (hsound : w.Sound)
    (hstep : w.step check readArtifact providerKind (.elsewhere attempt) = some next) :
    Steps check w next (.elsewhere attempt) := by
  have hlength : w.books.events.length = w.ledger.length := List.length_map ..
  simp only [World.step, Option.some.injEq] at hstep
  subst hstep
  rcases attempt_cases check w.books attempt with hsame | ⟨tables, event, he, hafter⟩
  · rw [hsame, ← hlength, List.drop_length, List.map_nil, List.append_nil]
    exact elsewhere_step hsound trivial rfl hsound.data fun i => .refl w i
  · rw [hafter, ← hlength, List.drop_left]
    refine elsewhere_step hsound trivial rfl (hsound.data.append he none) fun i => ?_
    refine ⟨fun _ h => List.mem_append_left _ h, ?_, he.sessionsKept, fun _ h => h, fun h => h⟩
    intro entry hentry hauthor
    rcases List.mem_append.mp hentry with hold | hnew
    · exact hold
    · rw [List.mem_singleton.mp hnew] at hauthor
      cases hauthor

/-- Whatever happens keeps everything sound, is heard exactly when every call is still going to
return what it wrote, and mends nothing. -/
theorem step_keeps {happening : Happening ι} (hsound : w.Sound)
    (hstep : w.step check readArtifact providerKind happening = some next) :
    Steps check w next happening := by
  cases happening with
  | call i job =>
    simp only [World.step] at hstep
    split at hstep
    · rename_i hcall
      cases hstep
      exact call_step hsound hcall
    · cases hstep
  | claim i now fate =>
    simp only [World.step] at hstep
    split at hstep
    · rename_i job hcall
      cases hstep
      exact claim_step hsound hcall
    · cases hstep
  | resolve i ok =>
    simp only [World.step] at hstep
    split at hstep
    · rename_i job claimed hcall
      cases hstep
      cases ok with
      | true => exact invoke_step hsound hcall
      | false =>
        have hphase := hsound.calls i
        rw [hcall] at hphase
        refine report_step hsound ⟨hphase.1, hphase.2.1⟩ ?_ trivial
        rw [hcall]
        trivial
    · cases hstep
  | finish i result =>
    simp only [World.step] at hstep
    split at hstep
    · rename_i job claimed hcall
      cases hstep
      have hphase := hsound.calls i
      rw [hcall] at hphase
      refine report_step hsound hphase ?_ trivial
      rw [hcall]
      trivial
    · cases hstep
  | settle i c =>
    cases hcall : w.calls i with
    | settling job authority report => exact settle_step hsound hcall hstep
    | _ => simp [World.step, hcall] at hstep
  | retry i c =>
    simp only [World.step] at hstep
    split at hstep
    · rename_i job authority report message hcall
      cases hstep
      exact retry_step hsound hcall
    · cases hstep
  | elsewhere attempt => exact attempt_step attempt hsound hstep

end Steps

/-! ## Runs -/

theorem sound_emptyWorld : (emptyWorld : World ι).Sound where
  data := dataSound_empty
  calls i := by
    have hsilent : Silent emptyWorld i := fun entry hentry => by cases hentry
    exact ⟨hsilent, List.not_mem_nil⟩

theorem World.Sound.truthful (hsound : w.Sound) (hgood : w.Good) : w.Truthful where
  runs := hsound.data.runs
  exits := hsound.data.exits
  reported i job outcome hcall := by
    have hfaithful := hgood i
    rw [hcall] at hfaithful
    exact hfaithful

theorem good_of_truthful (htruthful : w.Truthful) (hfinished : w.Finished) : w.Good := by
  intro i
  cases hcall : w.calls i with
  | retrying job authority report message => exact absurd hcall (hfinished i job authority report _)
  | returned job outcome => exact htruthful.reported i job outcome hcall
  | _ => trivial

/-- The provider runs at most once for a session, a session has at most one exit, and a call that
returns reports the exit it wrote, throughout every run in which no settle goes wrong; a run that
leaves no call between its two settles has no other way to keep these promises. -/
theorem reported_outcome_recorded [DecidableEq ι] (check : ArtifactCheck)
    (readArtifact : Js.Json → Option ExecutionArtifact) (providerKind : String)
    (steps : List (Happening ι)) (last : World ι)
    (hrun : Runs.run (World.step check readArtifact providerKind) emptyWorld steps = some last) :
    (Runs.Allowed (World.step check readArtifact providerKind) (World.Heard check) emptyWorld steps →
      Runs.Throughout (World.step check readArtifact providerKind) World.Truthful emptyWorld steps) ∧
    (last.Finished →
      Runs.Throughout (World.step check readArtifact providerKind) World.Truthful emptyWorld steps →
      Runs.Allowed (World.step check readArtifact providerKind) (World.Heard check) emptyWorld
        steps) := by
  have hkeeps {w : World ι} {happening : Happening ι} {next : World ι} (hsound : w.Sound)
      (hstep : w.step check readArtifact providerKind happening = some next) :
      next.Sound ∧ (w.Good → (w.Heard check happening ↔ next.Good)) :=
    ⟨(step_keeps hsound hstep).1, (step_keeps hsound hstep).2.1⟩
  have hback {w : World ι} {happening : Happening ι} {next : World ι} (hsound : w.Sound)
      (hstep : w.step check readArtifact providerKind happening = some next) :
      next.Sound ∧ (next.Good → w.Good) :=
    ⟨(step_keeps hsound hstep).1, (step_keeps hsound hstep).2.2⟩
  have hiff : Runs.Allowed (World.step check readArtifact providerKind) (World.Heard check)
      emptyWorld steps ↔
        Runs.Throughout (World.step check readArtifact providerKind) World.Good emptyWorld steps :=
    Runs.allowed_iff_throughout hkeeps sound_emptyWorld (fun _ => trivial) hrun
  constructor
  · intro hallowed before hbefore between hbetween
    have hsound : between.Sound :=
      Runs.invariant (fun h hstep => (step_keeps h hstep).1) sound_emptyWorld hbetween
    exact hsound.truthful (hiff.mp hallowed before hbefore between hbetween)
  · intro hfinished htruthful
    have hlast : last.Good :=
      good_of_truthful (htruthful steps (List.prefix_refl _) last hrun) hfinished
    exact hiff.mpr (Runs.throughout_of_last hback sound_emptyWorld hrun hlast)

/-! A room whose plan is funded, a provider session, and a clean run of it. -/

def anyRoom : Surroundings where
  isMember _ _ := true
  hasMessage _ _ := true
  ownerOf _ := none

def numbered (n : Nat) : Id := "0000000000000000000000000000000" ++ toString n

def ownDraw (n : Nat) : Draw :=
  ⟨numbered n, numbered n, "token", "2026-01-01T00:00:00.000Z", true, some "here"⟩

def does (n : Nat) (command : Command) : Happening Unit :=
  .elsewhere ⟨⟨numbered 1, .human⟩, command, anyRoom, anyRoom, ownDraw n, true⟩

def builtArtifact : ExecutionArtifact := ⟨"agent/work", "abc123", "origin", none, none⟩

def cleanReport : Js.Json :=
  .object [("terminal", .object [("ok", .bool true), ("exitCode", .null)]),
    ("receipt", .object [("exitSummary", .string "done"), ("spendMicros", .null),
      ("contextPct", .null), ("artifact", .object [("branch", .string "agent/work"),
        ("commit", .string "abc123"), ("remote", .string "origin")])])]

def grantedJob : Job :=
  ⟨⟨numbered 1, .human⟩, "here", ⟨numbered 4, numbered 0, numbered 2, "h", "m"⟩⟩

/-- A settle that ends in some way for its caller. -/
def settledAs (fate : Fate) : Circumstances := ⟨anyRoom, ownDraw 5, fate, "connection lost"⟩

/-- The plan is opened and funded, the session is opened, and its clean run is settled. -/
def cleanRun (fate : Fate) : List (Happening Unit) := [
  does 2 (.openPlan ⟨numbered 0, numbered 1, "board", none, none⟩),
  does 3 (.setPlanRlimit ⟨numbered 0, numbered 2, 1⟩),
  does 4 (.openSession ⟨numbered 0, numbered 2, "h", "m", none⟩),
  .call () grantedJob, .claim () 0 .answered, .resolve () true, .finish () (some (some cleanReport)),
  .settle () (settledAs fate)]

/-- Where such a run leads, with a schema that accepts the artifact. -/
def endedAfter (steps : List (Happening Unit)) : Option (World Unit) :=
  Runs.run (World.step (fun _ => []) (fun _ => some builtArtifact) "local") emptyWorld steps

/-- The call has returned another kind than that of an exit it wrote. -/
def World.mismatch {ι : Type} [DecidableEq ι] (w : World ι) (i : ι) : Bool :=
  match w.calls i with
  | .returned _ outcome => w.ledger.any fun entry => decide (entry.author = some i) &&
      match entry.event.payload with
      | .sessionExit kind _ _ => kind != outcome.kind
      | _ => false
  | _ => false

/-- The two runs begin in the same way: one ends, and the other one ends in a mismatch. -/
theorem both_runs_end :
    (endedAfter (cleanRun .answered)).isSome = true ∧
      (endedAfter (cleanRun .unheard ++ [Happening.retry () (settledAs .answered)])).map
        (fun w => w.mismatch ()) = some true := by
  have hboth : (endedAfter ((cleanRun .answered).take 7)).any (fun w =>
      (Runs.run (World.step (fun _ => []) (fun _ => some builtArtifact) "local") w
        [.settle () (settledAs .answered)]).isSome &&
      (Runs.run (World.step (fun _ => []) (fun _ => some builtArtifact) "local") w
        [.settle () (settledAs .unheard), .retry () (settledAs .answered)]).any
          fun last => last.mismatch ()) = true := by
    decide +kernel
  obtain ⟨w, hw, hends⟩ := (Option.any_eq_true _ _).mp hboth
  rw [Bool.and_eq_true, Option.any_eq_true] at hends
  obtain ⟨hclean, last, hlast, hmismatch⟩ := hends
  have hrest (steps : List (Happening Unit)) : endedAfter ((cleanRun .answered).take 7 ++ steps) =
      Runs.run (World.step (fun _ => []) (fun _ => some builtArtifact) "local") w steps := by
    unfold endedAfter at hw ⊢
    rw [Runs.run_append, hw, Option.bind_some]
  constructor
  · exact (congrArg Option.isSome (hrest [.settle () (settledAs .answered)])).trans hclean
  · refine (congrArg _ (hrest [.settle () (settledAs .unheard),
      .retry () (settledAs .answered)])).trans ?_
    rw [hlast, Option.map_some, hmismatch]

theorem reported_outcome_recorded_clean :
    (endedAfter (cleanRun .answered)).isSome = true ∧
      Runs.Throughout (World.step (fun _ => []) (fun _ => some builtArtifact) "local")
        World.Truthful emptyWorld (cleanRun .answered) := by
  obtain ⟨last, hlast⟩ := Option.isSome_iff_exists.mp both_runs_end.1
  refine ⟨both_runs_end.1, (reported_outcome_recorded _ _ _ _ last hlast).1 ?_⟩
  refine Runs.allowed_of_forall fun happening hmem w => ?_
  simp only [cleanRun, does, List.mem_cons, List.not_mem_nil, or_false] at hmem
  rcases hmem with rfl | rfl | rfl | rfl | rfl | rfl | rfl | rfl
  case inr.inr.inr.inr.inr.inr.inr =>
    intro job authority report _ _ _
    split
    · rfl
    · exact fun _ => rfl
  all_goals trivial

theorem not_truthful_of_mismatch [DecidableEq ι] (h : w.mismatch i = true) : ¬ w.Truthful := by
  intro htruthful
  unfold World.mismatch at h
  split at h
  · rename_i job outcome hcall
    obtain ⟨entry, hentry, hrest⟩ := List.any_eq_true.mp h
    rw [Bool.and_eq_true, decide_eq_true_eq] at hrest
    obtain ⟨hauthor, hkind⟩ := hrest
    split at hkind
    · rename_i kind sessionId receipt hpayload
      have hsame := (htruthful.reported i job outcome hcall kind receipt.artifact
        ⟨entry, hentry, hauthor, sessionId, receipt, hpayload, rfl⟩).1
      rw [hsame, bne_self_eq_false] at hkind
      cases hkind
    · cases hkind
  · cases h

/-- The settle of a clean run commits, and its reply is lost: the settle that follows is refused, and
the call returns a failure. -/
theorem unheard_settle_misreported :
    ∃ last, endedAfter (cleanRun .unheard ++ [Happening.retry () (settledAs .answered)]) = some last ∧
      ¬ last.Truthful := by
  obtain ⟨last, hlast, hmismatch⟩ := Option.map_eq_some_iff.mp both_runs_end.2
  exact ⟨last, hlast, not_truthful_of_mismatch hmismatch⟩

end Execution
