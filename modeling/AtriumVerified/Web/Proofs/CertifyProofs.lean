import Mathlib.Data.List.Induction
import AtriumVerified.Web.Certify

/-!
# A certification binds to the artifact its signer reviewed

Of all events only a successful arm puts a nonce on a row, so the nonce of a row always has an arm
behind it that no later arm has replaced and that its owner has not taken back; its digest is the
one the viewer gave. What one event does to a row is said once, in `row_cases`.
-/

namespace Web.Certify

open Auth Postgres

variable {digest : SessionArtifact → String} {w w' : World} {id : String}
  {session old new : Session} {events : List Event} {event : Event}

/-! ## The transactions -/

@[simp] theorem refuseIf_ok {condition : Prop} [Decidable condition] {reason : CertifyRefusal} :
    refuseIf condition reason = .ok () ↔ ¬ condition := by
  unfold refuseIf
  split <;> simp_all

theorem bind_ok {α β : Type} {x : Except CertifyRefusal α} {f : α → Except CertifyRefusal β} {b : β}
    (h : (x >>= f) = .ok b) : ∃ a, x = .ok a ∧ f a = .ok b := by
  cases x with
  | error reason => cases h
  | ok a => exact ⟨a, rfl, h⟩

/-- What the checks of arming and confirming establish. -/
structure Certifiable (w : World) (viewerId sessionId authorizedRoomId : String)
    (session : Session) : Prop where
  human : parsePrincipalKind (w.users viewerId) = some .human
  membership : (loadRoomMembershipRow w.tables authorizedRoomId viewerId).isSome
  row : w.sessions sessionId = some session
  room : session.roomId = authorizedRoomId
  settled : session.status = .settled
  uncertified : session.certifiedBy = none
  reviewable : isReviewableArtifact session.artifact = true

theorem viewerMayCertify_none {viewerId roomId : String}
    (h : viewerMayCertify w viewerId roomId = none) :
    parsePrincipalKind (w.users viewerId) = some .human ∧
      (loadRoomMembershipRow w.tables roomId viewerId).isSome := by
  unfold viewerMayCertify at h
  split at h
  · cases h
  · rename_i hkind
    split at h
    · cases h
    · rename_i row hrow
      exact ⟨not_not.mp hkind, by rw [hrow]; rfl⟩

theorem certifiable_ok {viewerId sessionId roomId : String}
    (h : certifiable w viewerId sessionId roomId = .ok session) :
    Certifiable w viewerId sessionId roomId session := by
  unfold certifiable at h
  split at h
  · cases h
  · rename_i hviewer
    obtain ⟨hhuman, hmember⟩ := viewerMayCertify_none hviewer
    split at h
    · cases h
    · rename_i found hrow
      obtain ⟨⟨⟩, hroom, h⟩ := bind_ok h
      obtain ⟨⟨⟩, hsettled, h⟩ := bind_ok h
      obtain ⟨⟨⟩, huncertified, h⟩ := bind_ok h
      obtain ⟨⟨⟩, hreviewable, h⟩ := bind_ok h
      cases h
      rw [refuseIf_ok, not_not] at hroom hsettled huncertified
      rw [refuseIf_ok, Bool.not_eq_false] at hreviewable
      exact ⟨hhuman, hmember, hrow, hroom, hsettled, huncertified, hreviewable⟩

@[simp] theorem write_sessions_self : (w.write id session).sessions id = some session := if_pos rfl

theorem write_sessions_of_ne {other : String} (h : id ≠ other) :
    (w.write other session).sessions id = w.sessions id := if_neg h

theorem update_cases {isMatch : Session → Bool} {set : Session → Session} {written : Option Session}
    (h : w.update id isMatch set = some (w', written)) :
    (∃ old, w.sessions id = some old ∧ isMatch old = true ∧ w' = w.write id (set old) ∧
      written = some (set old)) ∨
    w' = w ∧ written = none ∧ ∀ old, w.sessions id = some old → isMatch old = false := by
  unfold World.update at h
  split at h
  · rename_i hnone
    cases h
    exact .inr ⟨rfl, rfl, fun old hold => by cases hnone.symm.trans hold⟩
  · rename_i old hold
    split at h
    · rename_i hmatch
      split at h
      · cases h
        exact .inl ⟨old, hold, hmatch, rfl, rfl⟩
      · cases h
    · rename_i hmatch
      cases h
      refine .inr ⟨rfl, rfl, fun other hother => ?_⟩
      cases hold.symm.trans hother
      exact Bool.not_eq_true _ ▸ hmatch

theorem update_none {isMatch : Session → Bool} {set : Session → Session}
    (h : w.update id isMatch set = none) :
    ∃ old, w.sessions id = some old ∧ isMatch old = true ∧
      triggersPass w.users old (set old) ≠ true := by
  unfold World.update at h
  split at h
  · cases h
  · rename_i old hold
    split at h
    · rename_i hmatch
      split at h
      · cases h
      · rename_i hpass
        exact ⟨old, hold, hmatch, hpass⟩
    · cases h

theorem armCertification_armed {input : ArmInput} {nonce : Uuid} {token : String}
    (h : armCertification digest w input nonce = (w', .armed token)) :
    ∃ session, Certifiable w input.viewerId input.sessionId input.authorizedRoomId session ∧
      session.artifact.map digest = some input.reviewedDigest ∧ token = uuidText nonce ∧
      w' = w.write input.sessionId (armWrite digest input.viewerId w.clock nonce session) := by
  unfold armCertification at h
  split at h
  · cases h
  · rename_i hchecked
    obtain ⟨session, hcertifiable, hdigest⟩ := bind_ok hchecked
    rw [refuseIf_ok, not_not] at hdigest
    have hcertifiable := certifiable_ok hcertifiable
    split at h
    · cases h
    · rename_i written armed hupdate
      rcases update_cases hupdate with ⟨old, hold, -, rfl, rfl⟩ | ⟨-, rfl, -⟩
      · cases hold.symm.trans hcertifiable.row
        cases h
        exact ⟨session, hcertifiable, hdigest, rfl, rfl⟩
      · cases h

theorem armCertification_cases (digest : SessionArtifact → String) (w : World) (input : ArmInput)
    (nonce : Uuid) :
    (∃ token, (armCertification digest w input nonce).2 = .armed token) ∨
      (∀ token, (armCertification digest w input nonce).2 ≠ .armed token) ∧
        (armCertification digest w input nonce).1 = w := by
  unfold armCertification
  split
  · exact .inr ⟨fun _ => Outcome.noConfusion, rfl⟩
  · split
    · exact .inr ⟨fun _ => Outcome.noConfusion, rfl⟩
    · rename_i written armed hupdate
      rcases update_cases hupdate with ⟨old, -, -, rfl, rfl⟩ | ⟨rfl, rfl, -⟩
      · exact .inl ⟨uuidText nonce, rfl⟩
      · exact .inr ⟨fun _ => Outcome.noConfusion, rfl⟩

/-- What the checks of a confirmation establish besides. -/
structure Held (digest : SessionArtifact → String) (w : World) (input : ConfirmInput)
    (session : Session) (nonce : Uuid) (armedAt : Int) : Prop where
  owner : session.certifyArmedBy = some input.viewerId
  pending : session.certifyArmNonce = some nonce
  token : uuidText nonce = input.attemptToken
  stamp : session.certifyArmedAt = some armedAt
  atLeast : requiredHoldMs * 1000 ≤ w.clock - armedAt
  atMost : w.clock - armedAt ≤ armTtlMs * 1000
  reviewed : session.certifyArmedArtifactDigest = session.artifact.map digest

theorem heldFor_some {input : ConfirmInput} {now held : Int}
    (h : heldFor session input now = some held) :
    ∃ nonce armedAt, session.certifyArmedBy = some input.viewerId ∧
      session.certifyArmNonce = some nonce ∧ uuidText nonce = input.attemptToken ∧
      session.certifyArmedAt = some armedAt ∧ held = now - armedAt := by
  unfold heldFor at h
  split at h
  · rename_i armedBy nonce armedAt hby hnonce hat
    split at h
    · cases h
    · rename_i hmine
      obtain ⟨hviewer, htoken⟩ := not_or.mp hmine
      cases h
      rw [not_not] at hviewer htoken
      subst hviewer
      exact ⟨nonce, armedAt, hby, hnonce, htoken, hat, rfl⟩
  · cases h

theorem confirmable_ok {input : ConfirmInput} {held : Int}
    (h : confirmable digest w input = .ok held) :
    ∃ session nonce armedAt,
      Certifiable w input.viewerId input.sessionId input.authorizedRoomId session ∧
      Held digest w input session nonce armedAt := by
  obtain ⟨session, hcertifiable, h⟩ := bind_ok h
  refine ⟨session, ?_⟩
  split at h
  · cases h
  · rename_i held' hheld
    obtain ⟨nonce, armedAt, howner, hpending, htoken, hstamp, rfl⟩ := heldFor_some hheld
    obtain ⟨⟨⟩, hmost, h⟩ := bind_ok h
    obtain ⟨⟨⟩, hleast, h⟩ := bind_ok h
    obtain ⟨⟨⟩, hreviewed, -⟩ := bind_ok h
    rw [refuseIf_ok] at hmost hleast hreviewed
    exact ⟨nonce, armedAt, certifiable_ok hcertifiable, howner, hpending, htoken, hstamp,
      Int.not_lt.mp hleast, Int.not_lt.mp hmost, not_not.mp hreviewed⟩

theorem certifySession_cases (digest : SessionArtifact → String) (w : World) (input : ConfirmInput)
    (delay : Nat) :
    (∃ session nonce armedAt held,
      Certifiable w input.viewerId input.sessionId input.authorizedRoomId session ∧
      Held digest w input session nonce armedAt ∧
      certifySession digest w input delay
        = ((w.later delay).write input.sessionId
            (certifyWrite input.viewerId (w.later delay).clock held session), .ok)) ∨
    (certifySession digest w input delay).1 = w.later delay ∧
      (certifySession digest w input delay).2 ≠ .ok := by
  unfold certifySession
  split
  · exact .inr ⟨rfl, Outcome.noConfusion⟩
  · rename_i held hconfirmable
    obtain ⟨session, nonce, armedAt, hcertifiable, hheld⟩ := confirmable_ok hconfirmable
    split
    · exact .inr ⟨rfl, Outcome.noConfusion⟩
    · rename_i written hupdate
      rcases update_cases hupdate with ⟨old, -, -, -, hnone⟩ | ⟨rfl, -, -⟩
      · cases hnone
      · exact .inr ⟨rfl, Outcome.noConfusion⟩
    · rename_i written row hupdate
      rcases update_cases hupdate with ⟨old, hold, -, rfl, -⟩ | ⟨-, hnone, -⟩
      · cases hold.symm.trans hcertifiable.row
        exact .inl ⟨session, nonce, armedAt, held, hcertifiable, hheld, rfl⟩
      · cases hnone

/-- The arm that a disarm takes back is pending: it is the viewer's, and the token denotes its
nonce. -/
def Pending (w : World) (input : DisarmInput) : Prop :=
  ∃ session nonce, w.sessions input.sessionId = some session ∧ session.certifiedBy = none ∧
    session.certifyArmedBy = some input.viewerId ∧ session.certifyArmNonce = some nonce ∧
    uuid input.attemptToken = some nonce

theorem triggersPass_disarmWrite {users : String → Option String} (h : old.certifiedBy = none) :
    triggersPass users old (disarmWrite old) = true := by
  simp [triggersPass, disarmWrite, namesHuman, certificationImmutable, certifyNeedsArtifact,
    certifyReceipt, h]

theorem disarmCertification_cases (w : World) (input : DisarmInput) :
    (Pending w input ∧ ∃ session, w.sessions input.sessionId = some session ∧
      (disarmCertification w input).1 = w.write input.sessionId (disarmWrite session)) ∨
    ¬ Pending w input ∧ (disarmCertification w input).1 = w := by
  unfold disarmCertification
  split
  · rename_i hparse
    refine .inr ⟨?_, rfl⟩
    rintro ⟨-, nonce, -, -, -, -, hnonce⟩
    cases hparse.symm.trans hnonce
  · rename_i nonce hnonce
    split
    · rename_i hraised
      obtain ⟨old, hold, hmatch, hpass⟩ := update_none hraised
      simp only [disarmMatch, Bool.and_eq_true, beq_iff_eq] at hmatch
      exact absurd (triggersPass_disarmWrite hmatch.1.2) hpass
    · rename_i written row hupdate
      rcases update_cases hupdate with ⟨old, hold, hmatch, rfl, -⟩ | ⟨rfl, -, hmatch⟩
      · simp only [disarmMatch, Bool.and_eq_true, beq_iff_eq] at hmatch
        obtain ⟨⟨hby, huncertified⟩, hpending⟩ := hmatch
        exact .inl ⟨⟨old, nonce, hold, huncertified, hby, hpending, hnonce⟩, old, hold, rfl⟩
      · refine .inr ⟨?_, rfl⟩
        rintro ⟨session, other, hrow, huncertified, hby, hpending, hother⟩
        cases hnonce.symm.trans hother
        have hfalse := hmatch session hrow
        simp [disarmMatch, huncertified, hby, hpending] at hfalse

/-! ## One event and one row -/

def Arms (digest : SessionArtifact → String) (w : World) (id : String) (event : Event) : Prop :=
  ∃ input nonce token, event = .arm input nonce ∧ input.sessionId = id ∧
    (handle digest w event).2 = some (.armed token)

/-- The event is a disarm of the session by the viewer, with a token that denotes the nonce. -/
def Retracts (id viewerId : String) (nonce : Uuid) (event : Event) : Prop :=
  ∃ input, event = .disarm input ∧ input.sessionId = id ∧ input.viewerId = viewerId ∧
    uuid input.attemptToken = some nonce

def Session.pendingArm (session : Session) :
    Option String × Option Int × Option Uuid × Option String :=
  (session.certifyArmedBy, session.certifyArmedAt, session.certifyArmNonce,
    session.certifyArmedArtifactDigest)

inductive RowStep (digest : SessionArtifact → String) (w : World) (id : String) (event : Event)
    (old new : Session) : Prop where
  | kept (arm : new.pendingArm = old.pendingArm) (certified : new.certifiedBy = old.certifiedBy)
      (arms : ¬ Arms digest w id event)
      (retracts : ∀ viewerId nonce, old.certifiedBy = none → old.certifyArmedBy = some viewerId →
        old.certifyArmNonce = some nonce → ¬ Retracts id viewerId nonce event)
  | armed (input : ArmInput) (nonce : Uuid) (event_eq : event = .arm input nonce)
      (session_eq : input.sessionId = id)
      (answer : (handle digest w event).2 = some (.armed (uuidText nonce)))
      (reviewed : old.artifact.map digest = some input.reviewedDigest)
      (uncertified : old.certifiedBy = none)
      (row : new = armWrite digest input.viewerId w.clock nonce old)
  | certified (uncertified : old.certifiedBy = none) (spent : new.certifyArmNonce = none)
      (row : new.certifiedBy ≠ none)
  | cleared (arm : new.certifyArmedBy = none) (certified : new.certifiedBy = old.certifiedBy)

theorem not_arms (h : ∀ input nonce, event ≠ .arm input nonce) : ¬ Arms digest w id event := by
  rintro ⟨input, nonce, -, heq, -⟩
  exact h input nonce heq

theorem not_retracts {viewerId : String} {nonce : Uuid} (h : ∀ input, event ≠ .disarm input) :
    ¬ Retracts id viewerId nonce event := by
  rintro ⟨input, heq, -⟩
  exact h input heq

theorem RowStep.of_same (harm : new.pendingArm = old.pendingArm)
    (hcertified : new.certifiedBy = old.certifiedBy)
    (harms : ∀ input nonce, event ≠ .arm input nonce)
    (hdisarms : ∀ input, event ≠ .disarm input) : RowStep digest w id event old new :=
  .kept harm hcertified (not_arms harms) fun _ _ _ _ _ => not_retracts hdisarms

theorem row_arm {input : ArmInput} {nonce : Uuid}
    (h : (handle digest w (.arm input nonce)).1.sessions id = some new) :
    ∃ old, w.sessions id = some old ∧ RowStep digest w id (.arm input nonce) old new := by
  have hdisarms : ∀ other, Event.arm input nonce ≠ .disarm other := fun _ => Event.noConfusion
  rcases armCertification_cases digest w input nonce with ⟨token, htoken⟩ | ⟨hnone, hsame⟩
  · obtain ⟨session, hcertifiable, hreviewed, rfl, hw⟩ :=
      armCertification_armed (Prod.ext rfl htoken)
    have hrow : (w.write input.sessionId
        (armWrite digest input.viewerId w.clock nonce session)).sessions id = some new := hw ▸ h
    by_cases hid : id = input.sessionId
    · subst hid
      rw [write_sessions_self] at hrow
      exact ⟨session, hcertifiable.row, .armed input nonce rfl rfl (congrArg some htoken) hreviewed
        hcertifiable.uncertified (Option.some.inj hrow).symm⟩
    · rw [write_sessions_of_ne hid] at hrow
      refine ⟨new, hrow, .kept rfl rfl ?_ fun _ _ _ _ _ => not_retracts hdisarms⟩
      rintro ⟨other, otherNonce, token, heq, hsession, -⟩
      cases heq
      exact hid hsession.symm
  · have hrow : w.sessions id = some new := hsame ▸ h
    refine ⟨new, hrow, .kept rfl rfl ?_ fun _ _ _ _ _ => not_retracts hdisarms⟩
    rintro ⟨other, otherNonce, token, heq, -, htoken⟩
    cases heq
    exact hnone token (Option.some.inj htoken)

theorem row_certify {input : ConfirmInput} {delay : Nat}
    (h : (handle digest w (.certify input delay)).1.sessions id = some new) :
    ∃ old, w.sessions id = some old ∧ RowStep digest w id (.certify input delay) old new := by
  have harms : ∀ other nonce, Event.certify input delay ≠ .arm other nonce :=
    fun _ _ => Event.noConfusion
  have hdisarms : ∀ other, Event.certify input delay ≠ .disarm other := fun _ => Event.noConfusion
  rcases certifySession_cases digest w input delay with
    ⟨session, nonce, armedAt, held, hcertifiable, -, hw⟩ | ⟨hsame, -⟩
  · change (certifySession digest w input delay).1.sessions id = some new at h
    rw [hw] at h
    by_cases hid : id = input.sessionId
    · subst hid
      rw [write_sessions_self] at h
      cases h
      exact ⟨session, hcertifiable.row,
        .certified hcertifiable.uncertified rfl (Option.some_ne_none input.viewerId)⟩
    · rw [write_sessions_of_ne hid] at h
      exact ⟨new, h, .of_same rfl rfl harms hdisarms⟩
  · have hrow : (w.later delay).sessions id = some new := hsame ▸ h
    exact ⟨new, hrow, .of_same rfl rfl harms hdisarms⟩

theorem row_disarm {input : DisarmInput}
    (h : (handle digest w (.disarm input)).1.sessions id = some new) :
    ∃ old, w.sessions id = some old ∧ RowStep digest w id (.disarm input) old new := by
  have harms : ∀ other nonce, Event.disarm input ≠ .arm other nonce := fun _ _ => Event.noConfusion
  rcases disarmCertification_cases w input with ⟨-, session, hsession, hw⟩ | ⟨hpending, hsame⟩
  · have hrow : (w.write input.sessionId (disarmWrite session)).sessions id = some new := hw ▸ h
    by_cases hid : id = input.sessionId
    · subst hid
      rw [write_sessions_self] at hrow
      cases hrow
      exact ⟨session, hsession, .cleared rfl rfl⟩
    · rw [write_sessions_of_ne hid] at hrow
      refine ⟨new, hrow, .kept rfl rfl (not_arms harms) ?_⟩
      rintro viewerId nonce - - - ⟨other, heq, hother, -⟩
      cases heq
      exact hid hother.symm
  · have hrow : w.sessions id = some new := hsame ▸ h
    refine ⟨new, hrow, .kept rfl rfl (not_arms harms) ?_⟩
    rintro viewerId nonce huncertified hby hnonce ⟨other, heq, rfl, rfl, hparse⟩
    cases heq
    exact hpending ⟨new, nonce, hrow, huncertified, hby, hnonce, hparse⟩

theorem row_edit {sessionId roomId : String} {status : SessionStatus}
    {artifact : Option SessionArtifact}
    (h : (handle digest w (.edit sessionId roomId status artifact)).1.sessions id = some new) :
    ∃ old, w.sessions id = some old ∧
      RowStep digest w id (.edit sessionId roomId status artifact) old new := by
  have harms : ∀ other nonce, Event.edit sessionId roomId status artifact ≠ .arm other nonce :=
    fun _ _ => Event.noConfusion
  have hdisarms : ∀ other, Event.edit sessionId roomId status artifact ≠ .disarm other :=
    fun _ => Event.noConfusion
  rw [handle] at h
  split at h
  · exact ⟨new, h, .of_same rfl rfl harms hdisarms⟩
  · rename_i written row hupdate
    rcases update_cases hupdate with ⟨old, hold, -, rfl, -⟩ | ⟨rfl, -, -⟩
    · by_cases hid : id = sessionId
      · subst hid
        rw [write_sessions_self] at h
        cases h
        exact ⟨old, hold, .of_same rfl rfl harms hdisarms⟩
      · rw [write_sessions_of_ne hid] at h
        exact ⟨new, h, .of_same rfl rfl harms hdisarms⟩
    · exact ⟨new, h, .of_same rfl rfl harms hdisarms⟩

theorem row_forget {userId : String}
    (h : (handle digest w (.forget userId)).1.sessions id = some new) :
    ∃ old, w.sessions id = some old ∧ RowStep digest w id (.forget userId) old new := by
  obtain ⟨old, hold, rfl⟩ := Option.map_eq_some_iff.mp h
  refine ⟨old, hold, ?_⟩
  unfold Session.forget
  split
  · exact .cleared rfl rfl
  · exact .of_same rfl rfl (fun _ _ => Event.noConfusion) fun _ => Event.noConfusion

theorem row_cases (h : (handle digest w event).1.sessions id = some new) :
    ∃ old, w.sessions id = some old ∧ RowStep digest w id event old new := by
  cases event with
  | arm input nonce => exact row_arm h
  | certify input delay => exact row_certify h
  | disarm input => exact row_disarm h
  | edit sessionId roomId status artifact => exact row_edit h
  | access tables =>
    exact ⟨new, h, .of_same rfl rfl (fun _ _ => Event.noConfusion) fun _ => Event.noConfusion⟩
  | accounts users =>
    exact ⟨new, h, .of_same rfl rfl (fun _ _ => Event.noConfusion) fun _ => Event.noConfusion⟩
  | forget userId => exact row_forget h
  | tick delay =>
    exact ⟨new, h, .of_same rfl rfl (fun _ _ => Event.noConfusion) fun _ => Event.noConfusion⟩

/-! ## Runs -/

theorem after_append (first second : List Event) :
    after digest w (first ++ second) = after digest (after digest w first) second :=
  List.foldl_append

theorem after_concat (events : List Event) (event : Event) :
    after digest w (events ++ [event]) = (handle digest (after digest w events) event).1 := by
  rw [after_append]
  rfl

/-- The last arm of a session that succeeded in a run, which its owner has not taken back since. -/
structure LastArm (digest : SessionArtifact → String) (w : World) (id : String)
    (events : List Event) (arm : ArmInput) (nonce : Uuid) (before between : List Event) : Prop where
  run : events = before ++ Event.arm arm nonce :: between
  session : arm.sessionId = id
  answer : (handle digest (after digest w before) (.arm arm nonce)).2 = some (.armed (uuidText nonce))
  last : ∀ mid event rest, between = mid ++ event :: rest →
    ¬ Arms digest (after digest w (before ++ Event.arm arm nonce :: mid)) id event
  standing : ∀ event ∈ between, ¬ Retracts id arm.viewerId nonce event

variable {arm : ArmInput} {nonce : Uuid} {before between : List Event}

theorem LastArm.concat (h : LastArm digest w id events arm nonce before between)
    (harms : ¬ Arms digest (after digest w events) id event)
    (hretracts : ¬ Retracts id arm.viewerId nonce event) :
    LastArm digest w id (events ++ [event]) arm nonce before (between ++ [event]) := by
  refine ⟨?_, h.session, h.answer, ?_, ?_⟩
  · rw [h.run, List.append_assoc, List.cons_append]
  · intro mid other rest heq
    rcases rest.eq_nil_or_concat with rfl | ⟨front, final, rfl⟩
    · obtain ⟨rfl, hother⟩ := List.append_inj' heq rfl
      cases hother
      rw [← h.run]
      exact harms
    · rw [List.concat_eq_append, ← List.cons_append, ← List.append_assoc] at heq
      exact h.last mid other front (List.append_inj' heq rfl).1
  · intro other hother
    rcases List.mem_append.mp hother with hmem | hmem
    · exact h.standing other hmem
    · rw [List.mem_singleton.mp hmem]
      exact hretracts

/-- The arm that is pending on a row is the last of the run, made by the viewer whom the row names
when the row says, over the artifact whose digest the row keeps. -/
def Backed (digest : SessionArtifact → String) (w : World) (id : String) (events : List Event)
    (session : Session) : Prop :=
  session.certifiedBy = none → ∀ viewerId nonce, session.certifyArmedBy = some viewerId →
    session.certifyArmNonce = some nonce → ∃ arm before between,
      LastArm digest w id events arm nonce before between ∧ arm.viewerId = viewerId ∧
      session.certifyArmedArtifactDigest = some arm.reviewedDigest ∧
      session.certifyArmedAt = some (after digest w before).clock

/-- One event keeps the arm of a row backed. -/
theorem Backed.step (h : Backed digest w id events old)
    (hstep : RowStep digest (after digest w events) id event old new) :
    Backed digest w id (events ++ [event]) new := by
  intro huncertified viewerId nonce hby hpending
  cases hstep with
  | kept harm hcertified harms hretracts =>
    simp only [Session.pendingArm, Prod.mk.injEq] at harm
    obtain ⟨harmedBy, harmedAt, hnonce, hdigest⟩ := harm
    rw [hcertified] at huncertified
    rw [harmedBy] at hby
    rw [hnonce] at hpending
    obtain ⟨arm, before, between, hlast, howner, hreviewed, hstamp⟩ :=
      h huncertified viewerId nonce hby hpending
    refine ⟨arm, before, between ++ [event], hlast.concat harms ?_, howner, hdigest ▸ hreviewed,
      harmedAt ▸ hstamp⟩
    rw [howner]
    exact hretracts viewerId nonce huncertified hby hpending
  | armed input minted hevent hsession hanswer hreviewed _ hrow =>
    subst hrow
    cases hevent
    cases hby
    cases hpending
    refine ⟨input, events, [], ⟨rfl, hsession, hanswer, ?_, ?_⟩, rfl, hreviewed, rfl⟩
    · intro mid other rest heq
      exact absurd heq.symm (List.append_ne_nil_of_right_ne_nil mid (List.cons_ne_nil other rest))
    · intro other hother
      exact absurd hother List.not_mem_nil
  | certified _ hspent _ =>
    rw [hspent] at hpending
    cases hpending
  | cleared harm _ =>
    rw [harm] at hby
    cases hby

theorem backed_after (hstart : ∀ session, w.sessions id = some session →
      session.certifyArmNonce = none)
    (h : (after digest w events).sessions id = some session) :
    Backed digest w id events session := by
  induction events using List.reverseRecOn generalizing session with
  | nil =>
    intro _ viewerId nonce _ hpending
    rw [hstart session h] at hpending
    cases hpending
  | append_singleton events event ih =>
    rw [after_concat] at h
    obtain ⟨old, hold, hstep⟩ := row_cases h
    exact (ih hold).step hstep

theorem certified_after (h : w.sessions id = some old) (hold : old.certifiedBy ≠ none)
    (hnew : (after digest w events).sessions id = some new) : new.certifiedBy ≠ none := by
  induction events using List.reverseRecOn generalizing new with
  | nil =>
    cases h.symm.trans hnew
    exact hold
  | append_singleton events event ih =>
    rw [after_concat] at hnew
    obtain ⟨mid, hmid, hstep⟩ := row_cases hnew
    have hcertified := ih hmid
    cases hstep with
    | kept _ hsame => exact hsame ▸ hcertified
    | armed _ _ _ _ _ _ huncertified => exact absurd huncertified hcertified
    | certified _ _ hrow => exact hrow
    | cleared _ hsame => exact hsame ▸ hcertified

theorem certify_landed {input : ConfirmInput} {delay : Nat}
    (h : (handle digest w (.certify input delay)).2 = some .ok) :
    ∃ session nonce armedAt,
      Certifiable w input.viewerId input.sessionId input.authorizedRoomId session ∧
      Held digest w input session nonce armedAt ∧
      ∃ landed, (handle digest w (.certify input delay)).1.sessions input.sessionId = some landed ∧
        landed.certifiedBy ≠ none := by
  have hok : (certifySession digest w input delay).2 = .ok := Option.some.inj h
  rcases certifySession_cases digest w input delay with
    ⟨session, nonce, armedAt, held, hcertifiable, hheld, hw⟩ | ⟨-, hnot⟩
  · refine ⟨session, nonce, armedAt, hcertifiable, hheld,
      certifyWrite input.viewerId (w.later delay).clock held session, ?_,
      Option.some_ne_none input.viewerId⟩
    change (certifySession digest w input delay).1.sessions input.sessionId = _
    rw [hw]
    exact write_sessions_self
  · exact absurd hok hnot

theorem after_disarm {input : DisarmInput} (h : ¬ Pending (after digest w events) input) :
    after digest w (events ++ [Event.disarm input]) = after digest w events := by
  rw [after_concat]
  rcases disarmCertification_cases (after digest w events) input with ⟨hpending, -⟩ | ⟨-, hsame⟩
  · exact absurd hpending h
  · exact hsame

/-- A certification binds to the artifact that its signer reviewed, in every run of a session that
began without an arm: what lands was armed by the same viewer, with the token that is presented,
over the artifact that is on the row now, and nothing has replaced or taken back that arm; it is the
only one that lands; and a disarm that is not its owner's with its token changes no later answer. -/
theorem certification_binds (digest : SessionArtifact → String) (w : World) (id : String)
    (hstart : ∀ session, w.sessions id = some session → session.certifyArmNonce = none) :
    (∀ events (input : ConfirmInput) delay, input.sessionId = id →
      (handle digest (after digest w events) (.certify input delay)).2 = some .ok →
      ∃ session artifact arm nonce before between,
        (after digest w events).sessions id = some session ∧
        parsePrincipalKind ((after digest w events).users input.viewerId) = some .human ∧
        (loadRoomMembershipRow (after digest w events).tables session.roomId
          input.viewerId).isSome ∧
        LastArm digest w id events arm nonce before between ∧
        arm.viewerId = input.viewerId ∧ uuidText nonce = input.attemptToken ∧
        session.artifact = some artifact ∧ arm.reviewedDigest = digest artifact ∧
        requiredHoldMs * 1000 ≤ (after digest w events).clock - (after digest w before).clock ∧
        (after digest w events).clock - (after digest w before).clock ≤ armTtlMs * 1000) ∧
    (∀ events (input : ConfirmInput) delay, input.sessionId = id →
      (handle digest (after digest w events) (.certify input delay)).2 = some .ok →
      ∀ more (again : ConfirmInput) delay', again.sessionId = id →
        (handle digest (after digest w (events ++ Event.certify input delay :: more))
          (.certify again delay')).2 ≠ some .ok) ∧
    ∀ events (input : DisarmInput), ¬ Pending (after digest w events) input →
      ∀ more (confirm : ConfirmInput) delay,
        (handle digest (after digest w (events ++ Event.disarm input :: more))
            (.certify confirm delay)).2
          = (handle digest (after digest w (events ++ more)) (.certify confirm delay)).2 := by
  refine ⟨?_, ?_, ?_⟩
  · rintro events input delay rfl h
    obtain ⟨session, nonce, armedAt, hcertifiable, hheld, -⟩ := certify_landed h
    obtain ⟨arm, before, between, hlast, howner, hreviewed, hstamp⟩ :=
      backed_after hstart hcertifiable.row hcertifiable.uncertified input.viewerId nonce hheld.owner
        hheld.pending
    cases hheld.stamp.symm.trans hstamp
    have hdigest := hheld.reviewed.symm.trans hreviewed
    obtain ⟨artifact, hartifact, hdigest⟩ := Option.map_eq_some_iff.mp hdigest
    refine ⟨session, artifact, arm, nonce, before, between, hcertifiable.row, hcertifiable.human,
      ?_, hlast, howner, hheld.token, hartifact, hdigest.symm, hheld.atLeast, hheld.atMost⟩
    rw [hcertifiable.room]
    exact hcertifiable.membership
  · rintro events input delay rfl h more again delay' hagain hok
    obtain ⟨-, -, -, -, -, landed, hrow, hlanded⟩ := certify_landed h
    obtain ⟨session, -, -, hcertifiable, -⟩ := certify_landed hok
    rw [← List.singleton_append, ← List.append_assoc, after_append, after_concat, hagain]
      at hcertifiable
    exact certified_after hrow hlanded hcertifiable.row hcertifiable.uncertified
  · intro events input h more confirm delay
    rw [← List.singleton_append, ← List.append_assoc, after_append, after_disarm h, ← after_append]

/-- A settled session in a room that Ada is a member of. -/
def settledWorld : World where
  tables :=
    { rooms := [{ id := "room", workspaceId := "workspace", archived := false }]
      memberships := fun roomId userId =>
        if roomId = "room" ∧ userId = "ada" then some { role := .member } else none
      workspaceMembers := fun workspaceId userId =>
        if workspaceId = "workspace" ∧ userId = "ada" then some "member" else none }
  users := fun userId => if userId = "ada" ∨ userId = "bob" then some "human" else none
  sessions := fun sessionId =>
    if sessionId = "session" then
      some { roomId := "room", status := .settled,
             artifact := some { branch := some "main", commit := some "c0ffee" } }
    else none
  clock := 0

def commitDigest (artifact : SessionArtifact) : String := artifact.commit.getD ""

def mintedNonce : Uuid := "c3c3c3c3c3c3c3c3c3c3c3c3c3c3c3c3"

/-- Ada arms, Bob disarms with her token, and she holds on for 2.4 seconds. -/
def heldThrough : List Event :=
  [.arm { viewerId := "ada", sessionId := "session", authorizedRoomId := "room",
          reviewedDigest := "c0ffee" } mintedNonce,
    .disarm { viewerId := "bob", sessionId := "session", attemptToken := uuidText mintedNonce },
    .tick 2400000]

def adaConfirms : ConfirmInput :=
  { viewerId := "ada", sessionId := "session", authorizedRoomId := "room",
    attemptToken := uuidText mintedNonce }

theorem certification_binds_ada :
    ∃ session artifact arm nonce before between,
      (after commitDigest settledWorld heldThrough).sessions "session" = some session ∧
      parsePrincipalKind ((after commitDigest settledWorld heldThrough).users "ada") = some .human ∧
      (loadRoomMembershipRow (after commitDigest settledWorld heldThrough).tables session.roomId
        "ada").isSome ∧
      LastArm commitDigest settledWorld "session" heldThrough arm nonce before between ∧
      arm.viewerId = "ada" ∧ uuidText nonce = uuidText mintedNonce ∧
      session.artifact = some artifact ∧ arm.reviewedDigest = commitDigest artifact ∧
      requiredHoldMs * 1000 ≤ (after commitDigest settledWorld heldThrough).clock
        - (after commitDigest settledWorld before).clock ∧
      (after commitDigest settledWorld heldThrough).clock
        - (after commitDigest settledWorld before).clock ≤ armTtlMs * 1000 :=
  (certification_binds commitDigest settledWorld "session" (by
    intro session h
    cases h
    rfl)).1 heldThrough adaConfirms 5 rfl (by decide +kernel)

/-- Ada's token in upper case: another text, but the same `uuid` to the row. -/
def shoutedDisarm : DisarmInput :=
  { viewerId := "ada", sessionId := "session", attemptToken := "C3C3C3C3-C3C3-C3C3-C3C3-C3C3C3C3C3C3" }

/-- It is no token that an arm has returned, and nobody confirms with it; yet it takes the arm back. -/
theorem shouted_token_disarms :
    shoutedDisarm.attemptToken ≠ uuidText mintedNonce ∧
      (handle commitDigest (after commitDigest settledWorld heldThrough)
        (.certify { adaConfirms with attemptToken := shoutedDisarm.attemptToken } 5)).2 ≠ some .ok ∧
      (handle commitDigest (after commitDigest settledWorld heldThrough)
        (.certify adaConfirms 5)).2 = some .ok ∧
      (handle commitDigest (after commitDigest settledWorld (heldThrough ++ [.disarm shoutedDisarm]))
        (.certify adaConfirms 5)).2 ≠ some .ok := by
  refine ⟨?_, ?_, ?_, ?_⟩
  · decide +kernel
  · decide +kernel
  · decide +kernel
  · decide +kernel

end Web.Certify
