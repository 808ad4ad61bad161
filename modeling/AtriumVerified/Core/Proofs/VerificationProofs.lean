import AtriumVerified.Core.Proofs.NamingProofs

/-!
# Verification is made by a second person and lapses with what it stands for

A claim becomes verified when it is accepted as such, when an `amend` says so, or when a `retype` makes a
verified claim of something else. Each of these passes `selfVerificationRefusal`. A claim that stays
verified keeps its claimant and, up to spelling, its sentence: a correction that changes either takes the
verification off.
-/

namespace Core

open Checked Js

/-! ## One event -/

section Events

variable {state next : CoreState} {id : Id} {claim : ClaimPayload}

theorem Payload.verifiedClaim?_eq_some {payload : Payload} :
    payload.verifiedClaim? = some claim ↔ payload = .claim claim ∧ claim.verification = .verified := by
  unfold Payload.verifiedClaim?
  cases payload with
  | claim held =>
    by_cases hverified : held.verification = .verified
    · simp only [hverified, if_true, Option.some.injEq, Payload.claim.injEq]
      constructor
      · rintro rfl
        exact ⟨rfl, hverified⟩
      · exact And.left
    · simp only [hverified, if_false, reduceCtorEq, Payload.claim.injEq, false_iff]
      rintro ⟨rfl, hclaim⟩
      exact hverified hclaim
  | _ => simp

theorem verifiedClaim?_eq_some : verifiedClaim? state id = some claim ↔
    ∃ record, state.object? id = some record ∧ record.object.payload = .claim claim ∧
      claim.verification = .verified := by
  unfold verifiedClaim?
  rw [Option.bind_eq_some_iff]
  simp only [Payload.verifiedClaim?_eq_some]

theorem SameVouch.trans {a b c : ClaimPayload} (h : SameVouch a b) (h' : SameVouch b c) :
    SameVouch a c := ⟨h.1.trans h'.1, h.2.trans h'.2⟩

theorem SameVouch.symm {a b : ClaimPayload} (h : SameVouch a b) : SameVouch b a :=
  ⟨h.1.symm, h.2.symm⟩

theorem Repointed.claim_iff {before after : ObjectRecord} (h : Repointed before after) :
    after.object.payload = .claim claim ↔ before.object.payload = .claim claim := by
  rcases h with rfl | ⟨new, at_, rfl⟩
  · exact Iff.rfl
  · unfold setSuperseded
    cases hpayload : before.object.payload <;> simp [hpayload]

theorem lapse_sameVouch {before : AcceptedObject} {plan : CorrectionPlan} {held : ClaimPayload}
    (hbefore : before.payload = .claim held) (hheld : held.verification = .verified)
    (hafter : (lapseVerification before plan).object.payload = .claim claim)
    (hclaim : claim.verification = .verified) : SameVouch claim held := by
  unfold lapseVerification at hafter
  rw [hbefore] at hafter
  cases hplan : plan.object.payload with
  | claim next =>
    simp only [hplan] at hafter
    split at hafter
    · cases hafter
      cases hclaim
    · rename_i hkept
      rw [hplan, Payload.claim.injEq] at hafter
      subst hafter
      by_contra hchanged
      apply hkept
      refine ⟨hheld, hclaim, ?_⟩
      by_contra hboth
      rw [not_or, not_not, not_not] at hboth
      exact hchanged ⟨hboth.2, hboth.1⟩
  | decision p => simp [hplan] at hafter
  | commitment p => simp [hplan] at hafter
  | openQuestion p => simp [hplan] at hafter
  | objective p => simp [hplan] at hafter

theorem selfVerificationRefusal_none {userId claimant : Id} {stagedBy : Option Actor}
    (h : selfVerificationRefusal (.human userId) claimant stagedBy = none) :
    userId ≠ claimant ∧ stagedBy ≠ some (.human userId) := by
  unfold selfVerificationRefusal at h
  dsimp only at h
  by_cases hclaimant : userId = claimant
  · simp [hclaimant] at h
  · by_cases hstaged : stagedBy = some (.human userId)
    · simp [hclaimant, hstaged] at h
    · exact ⟨hclaimant, hstaged⟩

theorem exists_human {actor : Actor} (h : isHuman actor = true) : ∃ userId, actor = .human userId := by
  cases actor with
  | human userId => exact ⟨userId, rfl⟩
  | agent userId => cases h
  | model model => cases h
  | system => cases h

theorem verifiedClaimant?_of_verified {payload : Payload} (hpayload : payload = .claim claim)
    (hverified : claim.verification = .verified) :
    payload.verifiedClaimant? = some claim.claimant ∧ payload.verified = true := by
  subst hpayload
  simp [Payload.verifiedClaimant?, Payload.verified, hverified]

theorem checkPlan_verified {correction : ObjectCorrected} {record : ObjectRecord} {actor : Actor}
    {plan committed : CorrectionPlan}
    (h : checkPlan state correction record actor plan = .ok committed)
    (hbefore : record.object.payload.verified = false)
    (hclaim : committed.object.payload = .claim claim) (hverified : claim.verification = .verified) :
    selfVerificationRefusal actor claim.claimant
      ((committed.object.provenance.proposalId.bind state.proposal?).map ProposalRecord.stagedBy) =
        none := by
  have hcommitted := checkPlan_ok h
  simp only [checkPlan, bind_eq_ok, refuseWith_eq_ok, exists_const] at h
  obtain ⟨-, -, hgate, -⟩ := h
  rw [← hcommitted, hbefore, (verifiedClaimant?_of_verified hclaim hverified).1] at hgate
  exact hgate

theorem Payload.verified_eq_false {payload : Payload} (h : payload.verifiedClaim? = none) :
    payload.verified = false := by
  cases payload with
  | claim held =>
    unfold Payload.verifiedClaim? at h
    by_cases hverified : held.verification = .verified
    · simp [hverified] at h
    · simpa [Payload.verified] using hverified
  | _ => rfl

variable [Unicode] {entry : AuthoredEvent} {before after : ObjectRecord}
  {news : List CorrectionRecord}

theorem Touched.sameVouch {held : ClaimPayload} (h : Touched state entry id before after news)
    (hbefore : before.object.payload = .claim held) (hheld : held.verification = .verified)
    (hafter : after.object.payload = .claim claim) (hclaim : claim.verification = .verified) :
    SameVouch claim held := by
  cases h with
  | repointed hrepointed =>
    rw [hrepointed.claim_iff, hbefore, Payload.claim.injEq] at hafter
    rw [hafter]
    exact ⟨rfl, rfl⟩
  | answered hpayload =>
    rw [hbefore] at hpayload
    cases hpayload
  | @corrected correction planned committed after hbody hid hhuman hplan hcheck hrepointed =>
    rw [hrepointed.claim_iff] at hafter
    have hlapsed : (lapseVerification before.object planned).object.payload = .claim claim := by
      rw [← checkPlan_ok hcheck]
      exact hafter
    exact lapse_sameVouch hbefore hheld hlapsed hclaim

theorem Touched.secondPerson (h : Touched state entry id before after news)
    (hbefore : before.object.payload.verifiedClaim? = none)
    (hafter : after.object.payload = .claim claim) (hclaim : claim.verification = .verified)
    (hnext : next.object? id = some after) : SecondPerson state next entry id claim := by
  cases h with
  | repointed hrepointed =>
    rw [hrepointed.claim_iff] at hafter
    rw [Payload.verifiedClaim?_eq_some.mpr ⟨hafter, hclaim⟩] at hbefore
    cases hbefore
  | answered hpayload => cases hafter
  | @corrected correction planned committed after hbody hid hhuman hplan hcheck hrepointed =>
    obtain ⟨⟨-, -, hprovenance, -, -⟩, -, -⟩ := hrepointed.accounts.1
    rw [hrepointed.claim_iff] at hafter
    obtain ⟨userId, hactor⟩ := exists_human hhuman
    have hgate := checkPlan_verified hcheck (Payload.verified_eq_false hbefore) hafter hclaim
    rw [hactor] at hgate
    obtain ⟨hclaimant, hstaged⟩ := selfVerificationRefusal_none hgate
    refine ⟨userId, hactor, hclaimant, ?_⟩
    intro record proposalId proposal hrecord hcites hproposal hsame
    obtain rfl : after = record := Option.some.inj (hnext.symm.trans hrecord)
    have hcites' : committed.object.provenance.proposalId = some proposalId := by
      rw [← hcites, hprovenance]
      rfl
    apply hstaged
    rw [hcites', Option.bind_some, hproposal, Option.map_some, hsame]

theorem checkAcceptance_secondPerson {object : AcceptedObject} {proposal : Option ProposalRecord}
    (h : checkAcceptance state object entry.trusted.actor entry.trusted.messages = .ok proposal)
    (hpayload : object.payload = .claim claim) (hclaim : claim.verification = .verified)
    (hnext : next.object? id = some (freshRecord object entry.event.at_ entry.trusted.actor)) :
    SecondPerson state next entry id claim := by
  obtain ⟨hverifiedClaimant, hverified⟩ := verifiedClaimant?_of_verified hpayload hclaim
  have hhuman : isHuman entry.trusted.actor = true := by
    by_contra hmachine
    obtain ⟨-, hunverified, -⟩ := (checkAcceptance_gates h).1 (by simpa using hmachine)
    rw [hverified] at hunverified
    cases hunverified
  obtain ⟨userId, hactor⟩ := exists_human hhuman
  have hcited := citedProposal_ok (checkAcceptance_ok h).2
  simp only [checkAcceptance, bind_eq_ok, refuseIf_eq_ok, refuseWith_eq_ok, pure, Except.pure,
    Except.ok.injEq, exists_const] at h
  obtain ⟨-, -, -, -, cited, -, -, hgate, -, -, -, -, rfl⟩ := h
  rw [hverifiedClaimant, Option.bind_some, hactor] at hgate
  obtain ⟨hclaimant, hstaged⟩ := selfVerificationRefusal_none hgate
  refine ⟨userId, hactor, hclaimant, ?_⟩
  intro record proposalId found hrecord hcites hfound hsame
  obtain rfl := Option.some.inj (hnext.symm.trans hrecord)
  rcases hcited with ⟨hnone, -⟩ | ⟨citedId, held, hsome, rfl, hchecked⟩
  · rw [show object.provenance.proposalId = some proposalId from hcites] at hnone
    cases hnone
  · obtain rfl : citedId = proposalId := Option.some.inj (hsome.symm.trans hcites)
    obtain ⟨hown, -⟩ := checkCitedProposal_ok hchecked
    obtain rfl : held = found :=
      Option.some.inj ((PlainObject.get_eq_own.mp hown).symm.trans hfound)
    apply hstaged
    rw [Option.map_some, Option.getD_some, hsame]

/-- One row offered: a claim that is verified after it was verified before and stands for the same, or
was not and is now verified by a second person. -/
theorem offer_vouched (hk : Keyed state) (entry : AuthoredEvent)
    (h : verifiedClaim? (offer state entry) id = some claim) :
    (∃ held, verifiedClaim? state id = some held ∧ SameVouch claim held) ∨
      verifiedClaim? state id = none ∧ SecondPerson state (offer state entry) entry id claim := by
  obtain ⟨after, hafter, hpayload, hclaim⟩ := verifiedClaim?_eq_some.mp h
  cases hown : state.object? id with
  | none =>
    refine Or.inr ⟨by unfold verifiedClaim?; rw [hown]; rfl, ?_⟩
    obtain ⟨object, proposal, hcheck, rfl⟩ := offer_minted hown hafter
    exact checkAcceptance_secondPerson hcheck hpayload hclaim hafter
  | some before =>
    have hread : verifiedClaim? state id = before.object.payload.verifiedClaim? := by
      unfold verifiedClaim?
      rw [hown]
      rfl
    rw [hread]
    obtain ⟨found, news, hfound, -, htouched⟩ := offer_touched hk hown entry
    obtain rfl : found = after := Option.some.inj (hfound.symm.trans hafter)
    have htouched' : Touched state entry id before found news := by
      rcases htouched with ⟨-, htouched⟩ | ⟨rfl, rfl⟩
      · exact htouched
      · exact Touched.untouched state entry id found
    cases hheld : before.object.payload.verifiedClaim? with
    | none => exact Or.inr ⟨rfl, htouched'.secondPerson hheld hpayload hclaim hafter⟩
    | some held =>
      obtain ⟨hbefore, hverified⟩ := Payload.verifiedClaim?_eq_some.mp hheld
      exact Or.inl ⟨held, rfl, htouched'.sameVouch hbefore hverified hpayload hclaim⟩

end Events

/-! ## Runs -/

section Runs

variable [Unicode] {log : List AuthoredEvent} {n : Nat} {id : Id} {claim : ClaimPayload}

/-- Verification is never self-made or stale: a claim that is verified in some state of a run was made
verified by an event of a human who was neither its claimant nor the one who staged its proposal, and
since that event it has stayed verified, with its claimant and, up to spelling, its sentence. -/
theorem verified_by_second_person (log : List AuthoredEvent) (n : Nat) (id : Id)
    (claim : ClaimPayload) (h : verifiedClaim? (stateAt log n) id = some claim) :
    ∃ m entry, m < n ∧ log[m]? = some entry ∧ verifiedClaim? (stateAt log m) id = none ∧
      SecondPerson (stateAt log m) (stateAt log (m + 1)) entry id claim ∧
      ∀ k, m < k → k ≤ n →
        ∃ held, verifiedClaim? (stateAt log k) id = some held ∧ SameVouch held claim := by
  induction n generalizing claim with
  | zero => cases h
  | succ n ih =>
    -- the claim stayed verified through the last row, or the last row made it verified
    have hcases : (∃ held, verifiedClaim? (stateAt log n) id = some held ∧ SameVouch claim held) ∨
        ∃ entry, log[n]? = some entry ∧ verifiedClaim? (stateAt log n) id = none ∧
          SecondPerson (stateAt log n) (stateAt log (n + 1)) entry id claim := by
      rw [stateAt_succ] at h ⊢
      cases hentry : log[n]? with
      | none =>
        rw [hentry] at h
        exact Or.inl ⟨claim, h, rfl, rfl⟩
      | some entry =>
        rw [hentry] at h
        rcases offer_vouched (reached_offered _).keyed_integrity.1 entry h with hstayed | hmade
        · exact Or.inl hstayed
        · exact Or.inr ⟨entry, rfl, hmade⟩
    rcases hcases with ⟨held, hheld, hvouch⟩ | ⟨entry, hentry, hnone, hsecond⟩
    · obtain ⟨m, entry, hm, hentry, hnone, ⟨userId, hactor, hclaimant, hstaged⟩, hkept⟩ := ih held hheld
      refine ⟨m, entry, by omega, hentry, hnone, ⟨userId, hactor, ?_, hstaged⟩, ?_⟩
      · rw [hvouch.1]
        exact hclaimant
      · intro k hmk hkn
        by_cases hlast : k = n + 1
        · subst hlast
          exact ⟨claim, h, rfl, rfl⟩
        · obtain ⟨kept, hkept, hsame⟩ := hkept k hmk (by omega)
          exact ⟨kept, hkept, hsame.trans hvouch.symm⟩
    · refine ⟨n, entry, by omega, hentry, hnone, hsecond, ?_⟩
      intro k hnk hkn
      obtain rfl : k = n + 1 := by omega
      exact ⟨claim, h, rfl, rfl⟩

end Runs

/-! ## A claim verified by another person -/

section Vouched

/-- Alice claims something, Bob verifies it, and Alice spells her sentence with two more blanks. -/
def vouchedLog : List AuthoredEvent :=
  [eventBy "alice" "e1" "2026-01-01T00:00:01.000Z" (.objectAccepted
      (filedObject "c" none (.claim ⟨"The deploy is clean", "alice", .unverified⟩))),
    eventBy "bob" "e2" "2026-01-01T00:00:02.000Z" (.objectCorrected
      { plainCorrection "c" .amend with patch := [("verification", .string "verified")] }),
    eventBy "alice" "e3" "2026-01-01T00:00:03.000Z" (.objectCorrected
      { plainCorrection "c" .amend with patch := [("statement", .string "The  deploy  is clean")] })]

theorem vouched_by_bob :
    let _ : Unicode := Unicode.ascii
    let claim : ClaimPayload := ⟨"The  deploy  is clean", "alice", .verified⟩
    verifiedClaim? (stateAt vouchedLog 3) "c" = some claim ∧
      ∃ m entry, m < 3 ∧ vouchedLog[m]? = some entry ∧
        verifiedClaim? (stateAt vouchedLog m) "c" = none ∧
        SecondPerson (stateAt vouchedLog m) (stateAt vouchedLog (m + 1)) entry "c" claim ∧
        ∀ k, m < k → k ≤ 3 →
          ∃ held, verifiedClaim? (stateAt vouchedLog k) "c" = some held ∧ SameVouch held claim := by
  intro _ claim
  have hverified : verifiedClaim? (stateAt vouchedLog 3) "c" = some claim := by decide +kernel
  exact ⟨hverified, verified_by_second_person vouchedLog 3 "c" claim hverified⟩

end Vouched

end Core
