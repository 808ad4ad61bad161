import Mathlib.Algebra.Order.Ring.Int
import Mathlib.Tactic.Positivity
import AtriumVerified.Core.Acceptance
import AtriumVerified.Core.Proofs.AuthorityProofs
import AtriumVerified.Core.Proofs.FindingProofs
import AtriumVerified.Core.Proofs.LifecycleProofs

/-!
# Proofs: the engine and the reducer

The acceptance law is written twice. `decideAcceptance` says `auto_accept` exactly when a machine's
reading has a clean receipt and clears the bar of its type; the reducer applies a machine's acceptance
exactly when the same receipt is clean, the reading clears the floor and the object may be minted. The
two are compared through these two characterizations.
-/

namespace Core

open Checked Js

/-! ## The order of numbers -/

theorem Number.not_lt_trans {a b c : Js.Number} (hab : Js.Number.lt a b = false)
    (hbc : Js.Number.lt b c = false) : Js.Number.lt a c = false := by
  unfold Js.Number.lt at *
  rw [decide_eq_false_iff_not, not_lt] at *
  have hb : (0 : Int) < 10 ^ b.exponent := by positivity
  have ha : (0 : Int) ≤ 10 ^ a.exponent := by positivity
  have hc : (0 : Int) ≤ 10 ^ c.exponent := by positivity
  refine le_of_mul_le_mul_right ?_ hb
  calc c.mantissa * 10 ^ a.exponent * 10 ^ b.exponent
      = c.mantissa * 10 ^ b.exponent * 10 ^ a.exponent := by ring
    _ ≤ b.mantissa * 10 ^ c.exponent * 10 ^ a.exponent := mul_le_mul_of_nonneg_right hbc ha
    _ = b.mantissa * 10 ^ a.exponent * 10 ^ c.exponent := by ring
    _ ≤ a.mantissa * 10 ^ b.exponent * 10 ^ c.exponent := mul_le_mul_of_nonneg_right hab hc
    _ = a.mantissa * 10 ^ c.exponent * 10 ^ b.exponent := by ring

/-! ## The engine -/

section Engine

variable [Unicode] {proposal : StoredProposal} {context : AcceptanceContext}

/-- Everything behind an `auto_accept`. -/
structure AutoAccepts (proposal : StoredProposal) (context : AcceptanceContext)
    (rule : AcceptanceRule) : Prop where
  machine : proposerIsMachine proposal.proposer = true
  window : absentWindow context.messages = none
  rejecting : rejectingProblems (proposalProblems proposal context.messages) = []
  referring : referringProblems (proposalProblems proposal context.messages) = []
  fresh : context.acceptedObjects.bind (findDuplicate proposal.payload proposal.provenance) = none
  aboveMin : Js.Number.lt proposal.confidence rule.thetaMin = false
  aboveAuto : Js.Number.lt proposal.confidence rule.thetaAuto = false
  ownWords : proposal.type = .commitment →
    commitmentAttribution ((payloadAttributedTo proposal.payload).getD "") proposal.provenance
      context.messages (proposal.quote.map String.toList) ≠ .thirdParty
  mayAutoAccept : rule.autoAccept = true
  certifiable : typeCertifiableFromText proposal.type
    (normalizeForReceipt proposal.payload.text.toList) = true

theorem decideReading_autoAccept {rule : AcceptanceRule} {base : AcceptanceDecision} :
    (decideReading proposal rule base).verdict = .autoAccept ↔
      Js.Number.lt proposal.confidence rule.thetaMin = false ∧
        Js.Number.lt proposal.confidence rule.thetaAuto = false ∧
        ¬ (proposal.type = .commitment ∧ base.attribution = some .thirdParty) ∧
        rule.autoAccept = true ∧
        typeCertifiableFromText proposal.type
          (normalizeForReceipt proposal.payload.text.toList) = true := by
  unfold decideReading
  dsimp only
  split
  · next h => simp [h]
  · next h =>
    split
    · next h' => simp [h']
    · next h' =>
      split
      · next hparty => simpa using fun _ _ hown => absurd hparty (by simpa using hown)
      · next hparty =>
        split
        · next hauto => simp_all
        · next hauto =>
          split
          · next htype => simp_all
          · next htype => simp_all

theorem decideAcceptance_autoAccept :
    (decideAcceptance proposal context).verdict = .autoAccept ↔
      AutoAccepts proposal context
        ((context.config.getD defaultAcceptanceConfig).rules proposal.type) := by
  unfold decideAcceptance
  dsimp only
  split
  · next reason hwindow =>
    constructor
    · intro h
      cases h
    · intro h
      rw [h.window] at hwindow
      cases hwindow
  · next hwindow =>
    split
    · next hrejecting =>
      constructor
      · intro h
        cases h
      · intro h
        simp [h.rejecting] at hrejecting
    · next hrejecting =>
      split
      · next hreferring =>
        constructor
        · intro h
          cases h
        · intro h
          simp [h.referring] at hreferring
      · next hreferring =>
        split
        · next duplicate hduplicate =>
          constructor
          · intro h
            cases h
          · intro h
            rw [h.fresh] at hduplicate
            cases hduplicate
        · next hfresh =>
          split
          · next staged hproposer =>
            constructor
            · intro h
              cases h
            · intro h
              have hmachine := h.machine
              rw [hproposer] at hmachine
              cases hmachine
          · next hproposer =>
            have hmachine : proposerIsMachine proposal.proposer = true := by
              cases hkind : proposal.proposer with
              | human userId => exact absurd hkind (hproposer userId)
              | model model => rfl
              | agent userId => rfl
            have hpresent : absentWindow context.messages = none := by
              cases habsent : absentWindow context.messages with
              | none => rfl
              | some reason => simp [habsent, hmachine] at hwindow
            rw [decideReading_autoAccept]
            constructor
            · rintro ⟨hmin, hauto, hparty, hmay, htype⟩
              refine ⟨hmachine, hpresent, by simpa using hrejecting, by simpa using hreferring, hfresh,
                hmin, hauto, ?_, hmay, htype⟩
              intro hcommitment hthird
              exact hparty ⟨hcommitment, by simp [hcommitment, hthird]⟩
            · intro h
              refine ⟨h.aboveMin, h.aboveAuto, ?_, h.mayAutoAccept, h.certifiable⟩
              rintro ⟨hcommitment, hthird⟩
              simp only [hcommitment, if_true, Option.some.injEq] at hthird
              exact h.ownWords hcommitment hthird

end Engine

/-! ## The reducer -/

theorem mintable_of_type {type : AcceptedObjectType} (h : type = .claim ∨ type = .openQuestion) :
    modelMintingGate type = none := by
  rcases h with rfl | rfl
  · rfl
  · rfl

theorem machine_of_proposer {proposer : Proposer} (h : proposerIsMachine proposer = true) :
    isHuman (proposingActor proposer) = false := by
  cases proposer with
  | human userId => cases h
  | model model => rfl
  | agent userId => rfl

theorem proposingActor_matches {proposer : Proposer} (h : proposerIsMachine proposer = true) :
    actorMatchesProposer (proposingActor proposer) proposer = true := by
  cases proposer with
  | human userId => cases h
  | model model => exact beq_self_eq_true model
  | agent userId => exact beq_self_eq_true userId

theorem mintable_type {type : AcceptedObjectType} (h : modelMintingGate type = none) :
    type = .claim ∨ type = .openQuestion := by
  cases type with
  | claim => exact Or.inl rfl
  | openQuestion => exact Or.inr rfl
  | decision => cases h
  | commitment => cases h
  | objective => cases h

theorem rejecting_referring_nil {problems : List ProvenanceProblem} :
    rejectingProblems problems = [] ∧ referringProblems problems = [] ↔
      ∀ problem ∈ problems, problem.severity ≠ .reject ∧ problem.severity ≠ .refer := by
  unfold rejectingProblems referringProblems
  rw [List.filter_eq_nil_iff, List.filter_eq_nil_iff]
  simp only [beq_iff_eq]
  constructor
  · intro h problem hproblem
    exact ⟨h.1 problem hproblem, h.2 problem hproblem⟩
  · intro h
    exact ⟨fun problem hproblem => (h problem hproblem).1, fun problem hproblem =>
      (h problem hproblem).2⟩

section Receipts

variable [Unicode] {proposal : StoredProposal} {object : AcceptedObject} {actor : Actor}
  {proposalId : Id} {messages : Option (List ProvenanceMessage)}

/-- The receipt check of the reducer, condition by condition. -/
theorem acceptanceReceiptRefusal_eq_none :
    acceptanceReceiptRefusal actor proposalId proposal object messages = none ↔
      object.payload = proposal.payload ∧
        Js.sort object.provenance.messageIds = Js.sort proposal.provenance ∧
        missingWindow messages = none ∧ isBlank (proposal.quote.map String.toList) = false ∧
        rejectingProblems (validateProposalProvenance (receiptSubject proposal object)
          (messages.getD []) receiptPolicy) = [] ∧
        referringProblems (validateProposalProvenance (receiptSubject proposal object)
          (messages.getD []) receiptPolicy) = [] ∧
        ∀ problem ∈ validateProposalProvenance (receiptSubject proposal object)
          (messages.getD []) receiptPolicy, problem.kind ≠ .attributedPersonNotAuthor := by
  unfold acceptanceReceiptRefusal
  dsimp only
  split
  · next hpayload =>
    have hne : object.payload ≠ proposal.payload := by simpa using hpayload
    simp [hne]
  · next hpayload =>
    have heq : object.payload = proposal.payload := by simpa using hpayload
    split
    · next hcites =>
      have hne : Js.sort object.provenance.messageIds ≠ Js.sort proposal.provenance := by
        simpa using hcites
      simp [hne]
    · next hcites =>
      have hsame : Js.sort object.provenance.messageIds = Js.sort proposal.provenance := by
        simpa using hcites
      split
      · next how hwindow => simp [hwindow]
      · next hwindow =>
        split
        · next hquote => simp [hquote]
        · next hquote =>
          split
          · next hrejecting =>
            have hne := List.isEmpty_eq_false_iff.mp (Bool.not_eq_true' _ ▸ hrejecting)
            simp [hne]
          · next hrejecting =>
            split
            · next hreferring =>
              have hne := List.isEmpty_eq_false_iff.mp (Bool.not_eq_true' _ ▸ hreferring)
              simp [hne]
            · next hreferring =>
              have hnone : rejectingProblems (validateProposalProvenance
                  (receiptSubject proposal object) (messages.getD []) receiptPolicy) = [] := by
                simpa using hrejecting
              have hnone' : referringProblems (validateProposalProvenance
                  (receiptSubject proposal object) (messages.getD []) receiptPolicy) = [] := by
                simpa using hreferring
              have hquoted : isBlank (proposal.quote.map String.toList) = false := by
                simpa using hquote
              simp only [Option.map_eq_none_iff, List.find?_eq_none, beq_iff_eq]
              exact ⟨fun h => ⟨heq, hsame, hwindow, hquoted, hnone, hnone', h⟩,
                fun h => h.2.2.2.2.2.2⟩

theorem missingWindow_iff : missingWindow messages = none ↔ absentWindow messages = none := by
  unfold missingWindow absentWindow
  cases messages with
  | none => simp
  | some window =>
    cases window with
    | nil => simp
    | cons first rest =>
      dsimp only
      split
      · exact Iff.rfl
      · simp

theorem exists_window (h : absentWindow messages = none) :
    ∃ first rest, messages = some (first :: rest) := by
  cases messages with
  | none => cases h
  | some window =>
    cases window with
    | nil => cases h
    | cons first rest => exact ⟨first, rest, rfl⟩

theorem validate_receiptSubject (hpayload : object.payload = proposal.payload)
    (htype : proposal.type = .claim ∨ proposal.type = .openQuestion)
    (window : List ProvenanceMessage) :
    validateProposalProvenance (receiptSubject proposal object) window receiptPolicy =
      validateProposalProvenance (proposalSubject proposal) window receiptPolicy := by
  have hsubject : receiptSubject proposal object =
      { proposalSubject proposal with attributedTo := proposal.payload.attributedTo } := by
    unfold receiptSubject proposalSubject objectStatement
    rw [hpayload]
  rw [hsubject]
  apply validate_congr_attributed
  unfold ProvenanceSubject.attributed proposalSubject payloadAttributedTo payloadAttributions
  unfold StoredProposal.type at htype
  cases hkind : proposal.payload with
  | claim payload => simp [Payload.attributedTo, Payload.attribution]
  | openQuestion payload => rfl
  | decision payload =>
    rw [hkind] at htype
    rcases htype with h | h <;> cases h
  | commitment payload =>
    rw [hkind] at htype
    rcases htype with h | h <;> cases h
  | objective payload =>
    rw [hkind] at htype
    rcases htype with h | h <;> cases h

/-- A machine's receipt without a rejecting problem quotes something. -/
theorem quote_of_unrejected {window : List ProvenanceMessage}
    (hmachine : proposerIsMachine proposal.proposer = true)
    (h : rejectingProblems (validateProposalProvenance (proposalSubject proposal) window
      receiptPolicy) = []) : isBlank (proposal.quote.map String.toList) = false := by
  by_contra hblank
  have hempty : hasContent (proposal.quote.map String.toList) = false := by
    unfold isBlank at hblank
    simpa using hblank
  have hfrom : (proposalSubject proposal).fromMachine = true := hmachine
  have htrimmed : (proposalSubject proposal).trimmedQuote = [] := by
    unfold ProvenanceSubject.trimmedQuote
    rw [if_neg]
    exact fun h => absurd (hempty.symm.trans h) (by decide)
  unfold rejectingProblems at h
  rw [List.filter_eq_nil_iff] at h
  cases hcites : (proposalSubject proposal).provenance.isEmpty with
  | true =>
    unfold validateProposalProvenance at h
    dsimp only at h
    rw [if_pos hcites, hfrom, if_pos rfl] at h
    exact h _ (List.mem_map.mpr ⟨_, List.mem_singleton.mpr rfl, rfl⟩) rfl
  | false =>
    have hmissing : missingQuoteFindings (proposalSubject proposal) ≠ [] := by
      have hnothing : normalizeForReceipt [] = [] := by decide +kernel
      unfold missingQuoteFindings
      rw [hfrom, htrimmed, hnothing]
      simp
    obtain ⟨finding, hfinding⟩ := List.exists_mem_of_ne_nil _ hmissing
    have hmem : finding ∈ receiptFindings (proposalSubject proposal) window := by
      unfold receiptFindings
      simp [hfinding]
    rw [validate_of_cites hcites] at h
    have hsevere : (sealFinding (proposalSubject proposal) window finding).severity = .reject :=
      (missingQuote_reports hfinding).2
    exact h _ (List.mem_map.mpr ⟨finding, hmem, rfl⟩) (by simp [hsevere])

end Receipts

/-! ## The reducer's acceptance implies the engine's -/

theorem default_bar {type : AcceptedObjectType} (htype : type = .claim ∨ type = .openQuestion)
    {confidence : Js.Number} (hfloor : belowFloor type confidence = false) :
    Js.Number.lt confidence (defaultAcceptanceRules type).thetaAuto = false ∧
      Js.Number.lt confidence (defaultAcceptanceRules type).thetaMin = false := by
  have hauto : Js.Number.lt confidence (thetaAuto type) = false := by
    rcases htype with rfl | rfl
    · exact hfloor
    · exact hfloor
  refine ⟨hauto, Number.not_lt_trans hauto ?_⟩
  rcases htype with rfl | rfl
  · decide
  · decide

/-- The rules about people refuse no machine. -/
theorem machine_unrefused {actor : Actor} (hactor : isHuman actor = false) (object : AcceptedObject)
    (cites : Option Id) (proposer : Option Proposer) (stagedBy : Actor) :
    selfStagedReadingRefusal actor cites proposer stagedBy (payloadAttributions object.payload) = none ∧
      (object.payload.verifiedClaimant?.bind fun claimant =>
        selfVerificationRefusal actor claimant (some stagedBy)) = none ∧
      (object.payload.owner?.bind fun owner => ownerConfirmRefusal actor owner) = none ∧
      ∀ proposalId staged, acceptanceAttributionRefusal actor object.id proposalId staged object =
        none := by
  refine ⟨?_, ?_, ?_, ?_⟩
  · cases actor with
    | human userId => cases hactor
    | model model => rfl
    | agent userId => rfl
    | system => rfl
  · cases object.payload.verifiedClaimant? with
    | none => rfl
    | some claimant =>
      cases actor with
      | human userId => cases hactor
      | model model => rfl
      | agent userId => rfl
      | system => rfl
  · cases object.payload.owner? with
    | none => rfl
    | some owner =>
      cases actor with
      | human userId => cases hactor
      | model model => rfl
      | agent userId => rfl
      | system => rfl
  · intro proposalId staged
    unfold acceptanceAttributionRefusal
    simp [hactor]

@[simp] theorem commitAcceptance_issues {state : CoreState} {at_ : Timestamp}
    {object : AcceptedObject} {actor : Actor} {proposal : Option ProposalRecord} :
    (commitAcceptance state at_ object actor proposal).issues = state.issues := by
  unfold commitAcceptance
  split <;> rfl

section Comparison

variable [Unicode]

theorem checkAcceptance_of_applied {Raw : Type} {schema : EventSchema Raw} {state next : CoreState}
    {row : Row Raw} {event : CoreEvent} {applier : Actor} {object : AcceptedObject}
    (h : appendEvent schema state row = .ok (.applied event applier, next))
    (hbody : event.body = .objectAccepted object) :
    ∃ proposal, checkAcceptance state object row.trusted.actor row.trusted.messages = .ok proposal := by
  obtain ⟨-, -, settled, hdispatch, -⟩ := appendEvent_applied h
  simp only [dispatch, hbody, applyObjectAccepted, bind_eq_ok] at hdispatch
  obtain ⟨proposal, hcheck, -⟩ := hdispatch
  exact ⟨proposal, hcheck⟩

theorem autoAccept_of_checkAcceptance {state : CoreState} {object : AcceptedObject} {actor : Actor}
    {messages : Option (List ProvenanceMessage)} {proposal : Option ProposalRecord}
    (hactor : isHuman actor = false)
    (hcheck : checkAcceptance state object actor messages = .ok proposal) :
    ∃ proposalId record, object.provenance.proposalId = some proposalId ∧
      state.proposal? proposalId = some record ∧
      ∀ accepted : Option (List AcceptedObjectRef), accepted.getD [] = [] →
        (decideAcceptance record.proposal ⟨none, messages, accepted⟩).verdict = .autoAccept := by
  obtain ⟨hmint, hverified, hcites⟩ := (checkAcceptance_gates hcheck).1 hactor
  rcases citedProposal_ok (checkAcceptance_ok hcheck).2 with
    ⟨hdirect, -⟩ | ⟨proposalId, record, hcited, rfl, hchecked⟩
  · rw [hdirect] at hcites
    cases hcites
  obtain ⟨hown, -, -, hmatch, htype, -, hreceipt⟩ := checkCitedProposal_ok hchecked
  have hmachine := proposerIsMachine_of_matches hactor hmatch
  simp only [checkReceipt, hactor, Bool.false_eq_true, if_false, bind_eq_ok, refuseWith_eq_ok,
    refuseIf_eq_ok, Option.map_eq_none_iff, exists_const, Bool.not_eq_false'] at hreceipt
  obtain ⟨hreceipt, hfloor, hcertifiable⟩ := hreceipt
  obtain ⟨hpayload, -, hwindow, -, hrejecting, hreferring, -⟩ :=
    acceptanceReceiptRefusal_eq_none.mp hreceipt
  have hmintable : record.proposal.type = .claim ∨ record.proposal.type = .openQuestion := by
    rw [htype]
    exact mintable_type hmint
  have hpresent := missingWindow_iff.mp hwindow
  obtain ⟨first, rest, hmessages⟩ := exists_window hpresent
  rw [validate_receiptSubject hpayload hmintable, hmessages] at hrejecting hreferring
  rw [← htype] at hfloor hcertifiable
  obtain ⟨hauto, hmin⟩ := default_bar hmintable hfloor
  refine ⟨proposalId, record, hcited, PlainObject.get_eq_own.mp hown, ?_⟩
  intro accepted hnone
  rw [decideAcceptance_autoAccept]
  refine ⟨hmachine, hpresent, ?_, ?_, ?_, hmin, hauto, ?_, ?_, ?_⟩
  · rw [hmessages]
    exact hrejecting
  · rw [hmessages]
    exact hreferring
  · cases accepted with
    | none => rfl
    | some refs =>
      have hempty : refs = [] := hnone
      rw [hempty]
      unfold findDuplicate
      simp
  · intro hcommitment
    rw [hcommitment] at hmintable
    rcases hmintable with hkind | hkind <;> cases hkind
  · have hmay : autoAcceptable record.proposal.type = true := by
      rcases hmintable with hkind | hkind
      · rw [hkind]
        rfl
      · rw [hkind]
        rfl
    exact hmay
  · rw [← hpayload]
    exact hcertifiable

/-- A machine's acceptance that the reducer applies is one the engine would have made, by the default
table and with nothing accepted to compare it with. -/
theorem applied_acceptance_auto_accepts {Raw : Type} (schema : EventSchema Raw)
    {state next : CoreState} {row : Row Raw} {event : CoreEvent} {applier : Actor}
    {object : AcceptedObject} (hactor : isHuman row.trusted.actor = false)
    (h : appendEvent schema state row = .ok (.applied event applier, next))
    (hbody : event.body = .objectAccepted object) :
    ∃ proposalId record, object.provenance.proposalId = some proposalId ∧
      state.proposal? proposalId = some record ∧
      ∀ accepted : Option (List AcceptedObjectRef), accepted.getD [] = [] →
        (decideAcceptance record.proposal ⟨none, row.trusted.messages, accepted⟩).verdict =
          .autoAccept := by
  obtain ⟨proposal, hcheck⟩ := checkAcceptance_of_applied h hbody
  exact autoAccept_of_checkAcceptance hactor hcheck

/-! ## The engine's acceptance against the reducer's -/

/-- A machine's acceptance of what it staged passes the reducer when the object is new and mintable
and the receipt holds. -/
theorem checkAcceptance_of_machine {state : CoreState} {object : AcceptedObject} {actor : Actor}
    {messages : Option (List ProvenanceMessage)} {proposalId : Id} {record : ProposalRecord}
    (hactor : isHuman actor = false) (habsent : state.objects.get object.id = .absent)
    (hmint : modelMintingGate object.type = none) (hverified : object.payload.verified = false)
    (hrecord : state.proposal? proposalId = some record) (hstatus : record.status = .proposed)
    (hunsettled : record.acceptedObjectId = none)
    (hmatch : actorMatchesProposer actor record.proposal.proposer = true)
    (haccepts : AcceptsAsStaged proposalId record.proposal object)
    (hreceipt : acceptanceReceiptRefusal actor proposalId record.proposal object messages = none)
    (hfloor : belowFloor object.type record.proposal.confidence = false)
    (hcertifiable : typeCertifiableFromText object.type
      (normalizeForReceipt object.payload.text.toList) = true) :
    checkAcceptance state object actor messages = .ok (some record) := by
  have hown : state.proposals.get proposalId = .own record := PlainObject.get_eq_own.mpr hrecord
  have htype : record.proposal.type = object.type := by
    unfold StoredProposal.type AcceptedObject.type
    rw [haccepts.payload]
  have hchecked : checkCitedProposal state object proposalId actor messages = .ok record := by
    simp [checkCitedProposal, checkReceipt, bind_eq_ok, hown, hstatus, hunsettled, hmatch, htype,
      haccepts.roomId, hactor, hreceipt, hfloor, hcertifiable, pure, Except.pure]
  have hcited : citedProposal state object actor messages = .ok (some record) := by
    unfold citedProposal
    rw [haccepts.cites]
    dsimp only
    rw [hchecked]
    rfl
  obtain ⟨hself, hvouch, howner, hattribution⟩ := machine_unrefused hactor object
    object.provenance.proposalId (some record.proposal.proposer) record.stagedBy
  have hobjective : checkObjective state object = .ok () := by
    unfold checkObjective
    rw [haccepts.unfiled]
  simp only [checkAcceptance, bind_eq_ok, refuseIf_eq_ok, refuseWith_eq_ok, pure, Except.pure,
    Except.ok.injEq, exists_const]
  refine ⟨by simp [habsent], by simp [hmint], by simp [hverified], by simp [haccepts.cites],
    some record, hcited, hself, hvouch, howner, ?_, (), hobjective, rfl⟩
  exact hattribution _ _

theorem appendEvent_of_checkAcceptance {Raw : Type} {schema : EventSchema Raw} {state : CoreState}
    {row : Row Raw} {event : CoreEvent} {object : AcceptedObject} {proposal : Option ProposalRecord}
    (hparse : schema.safeParse row.event = .ok event) (hposition : rejectionFor state event = none)
    (hbody : event.body = .objectAccepted object)
    (hcheck : checkAcceptance state object row.trusted.actor row.trusted.messages = .ok proposal) :
    ∃ next, appendEvent schema state row = .ok (.applied event row.trusted.actor, next) := by
  have hdispatch : dispatch state ⟨event, row.trusted⟩ =
      .ok (commitAcceptance state event.at_ object row.trusted.actor proposal) := by
    simp only [dispatch, hbody, applyObjectAccepted, hcheck]
    rfl
  have hsettle : settle state ⟨event, row.trusted⟩ =
      .ok (commitAcceptance state event.at_ object row.trusted.actor proposal, true) := by
    unfold settle
    rw [hdispatch]
  have hroom : resolveRoomId state event = .ok (some object.roomId) := by
    unfold resolveRoomId
    simp only [hbody]
  refine ⟨advance (commitAcceptance state event.at_ object row.trusted.actor proposal)
    (some object.roomId) event, ?_⟩
  unfold appendEvent step consume
  simp only [hparse, hposition, hroom, hsettle]
  simp [advance]

section Verdict

variable {proposal : StoredProposal} {config : Option AcceptanceConfig}
  {messages : Option (List ProvenanceMessage)} {accepted : Option (List AcceptedObjectRef)}
  {object : AcceptedObject} {proposalId : Id} {actor : Actor}

theorem autoAccepts_type (h : AutoAccepts proposal ⟨config, messages, accepted⟩
      ((config.getD defaultAcceptanceConfig).rules proposal.type)) :
    proposal.type = .claim ∨ proposal.type = .openQuestion := by
  have hmay := ((config.getD defaultAcceptanceConfig).admitted proposal.type).mayAutoAccept
    h.mayAutoAccept
  cases htype : proposal.type with
  | claim => exact Or.inl rfl
  | openQuestion => exact Or.inr rfl
  | decision =>
    rw [htype] at hmay
    cases hmay
  | commitment =>
    rw [htype] at hmay
    cases hmay
  | objective =>
    rw [htype] at hmay
    cases hmay

theorem autoAccepts_floor (h : AutoAccepts proposal ⟨config, messages, accepted⟩
      ((config.getD defaultAcceptanceConfig).rules proposal.type)) :
    belowFloor proposal.type proposal.confidence = false := by
  have habove := ((config.getD defaultAcceptanceConfig).admitted proposal.type).aboveFloor
    h.mayAutoAccept (thetaAuto proposal.type)
  have hfloor : modelAcceptanceFloor proposal.type = some (thetaAuto proposal.type) := by
    rcases autoAccepts_type h with htype | htype
    · rw [htype]
      rfl
    · rw [htype]
      rfl
  unfold belowFloor
  rw [hfloor]
  exact Number.not_lt_trans h.aboveAuto (by simpa using habove hfloor)

theorem receipt_of_autoAccepts {rule : AcceptanceRule}
    (h : AutoAccepts proposal ⟨config, messages, accepted⟩ rule)
    (htype : proposal.type = .claim ∨ proposal.type = .openQuestion)
    (haccepts : AcceptsAsStaged proposalId proposal object) :
    acceptanceReceiptRefusal actor proposalId proposal object messages = none := by
  obtain ⟨first, rest, hmessages⟩ := exists_window h.window
  have hrejecting := h.rejecting
  have hreferring := h.referring
  dsimp only at hmessages hrejecting hreferring
  rw [hmessages] at hrejecting hreferring
  rw [acceptanceReceiptRefusal_eq_none, haccepts.messageIds, hmessages, Option.getD_some,
    validate_receiptSubject haccepts.payload htype]
  refine ⟨haccepts.payload, rfl, missingWindow_iff.mpr (hmessages ▸ h.window),
    quote_of_unrejected h.machine hrejecting, hrejecting, hreferring, ?_⟩
  intro problem hproblem
  have hclean := rejecting_referring_nil.mp ⟨hrejecting, hreferring⟩ problem hproblem
  have hsubject : (proposalSubject proposal).type = proposal.type := rfl
  have hsevere : problem.severity = .reject ∨ problem.severity = .refer := by
    refine severe_of_type ?_ ?_ hproblem
    · rw [hsubject]
      rcases htype with htype | htype <;> rw [htype] <;> decide
    · rw [hsubject]
      rcases htype with htype | htype <;> rw [htype] <;> decide
  rcases hsevere with hreject | hrefer
  · exact absurd hreject hclean.1
  · exact absurd hrefer hclean.2

end Verdict

/-- A machine whose reading the engine would accept, accepting it as it was staged: the reducer applies
the acceptance, unless the reading is a claim already marked verified or the new object is called
like a property of `Object.prototype`. -/
theorem auto_acceptance_applied_iff {Raw : Type} (schema : EventSchema Raw) {state : CoreState}
    (hreached : Reached anyEvent state) {proposalId : Id} {record : ProposalRecord}
    (hrecord : state.proposal? proposalId = some record) (hstatus : record.status = .proposed)
    (config : Option AcceptanceConfig) (accepted : Option (List AcceptedObjectRef))
    {row : Row Raw} {event : CoreEvent} {object : AcceptedObject}
    (hverdict : (decideAcceptance record.proposal
      ⟨config, row.trusted.messages, accepted⟩).verdict = .autoAccept)
    (hactor : row.trusted.actor = proposingActor record.proposal.proposer)
    (haccepts : AcceptsAsStaged proposalId record.proposal object)
    (hfresh : state.object? object.id = none)
    (hparse : schema.safeParse row.event = .ok event) (hposition : rejectionFor state event = none)
    (hbody : event.body = .objectAccepted object) :
    (∃ next, appendEvent schema state row = .ok (.applied event row.trusted.actor, next)) ↔
      record.proposal.payload.verified = false ∧ object.id ∉ Js.prototypeKeys := by
  have hauto := decideAcceptance_autoAccept.mp hverdict
  have hmachine : isHuman row.trusted.actor = false := by
    rw [hactor]
    exact machine_of_proposer hauto.machine
  have htype : object.type = record.proposal.type := by
    unfold StoredProposal.type AcceptedObject.type
    rw [haccepts.payload]
  constructor
  · rintro ⟨next, happlied⟩
    obtain ⟨proposal, hcheck⟩ := checkAcceptance_of_applied happlied hbody
    have hverified := ((checkAcceptance_gates hcheck).1 hmachine).2.1
    rw [haccepts.payload] at hverified
    exact ⟨hverified, (PlainObject.get_eq_absent.mp (checkAcceptance_ok hcheck).1).2⟩
  · rintro ⟨hverified, hordinary⟩
    obtain ⟨log, hlog⟩ := hreached.exists_log
    have hunsettled : record.acceptedObjectId = none := by
      by_contra hsettled
      have haccepted := (hlog.linked.settled proposalId record hrecord).mpr hsettled
      rw [hstatus] at haccepted
      cases haccepted
    have hmatch : actorMatchesProposer row.trusted.actor record.proposal.proposer = true := by
      rw [hactor]
      exact proposingActor_matches hauto.machine
    have hreceipt : acceptanceReceiptRefusal row.trusted.actor proposalId record.proposal object
        row.trusted.messages = none := receipt_of_autoAccepts hauto (autoAccepts_type hauto) haccepts
    have hcheck := checkAcceptance_of_machine hmachine
      (PlainObject.get_eq_absent.mpr ⟨hfresh, hordinary⟩)
      (by rw [htype]; exact mintable_of_type (autoAccepts_type hauto))
      (by rw [haccepts.payload]; exact hverified) hrecord hstatus hunsettled hmatch haccepts hreceipt
      (by rw [htype]; exact autoAccepts_floor hauto)
      (by rw [htype, haccepts.payload]; exact hauto.certifiable)
    exact appendEvent_of_checkAcceptance hparse hposition hbody hcheck

end Comparison

/-! ## Witnesses -/

section Witnesses

/-- The model's acceptance of its question is one the engine would have made. -/
theorem reader_acceptance_auto_accepts : ∃ record, stagedForReader.proposal? "p" = some record ∧
    (@decideAcceptance Unicode.ascii record.proposal ⟨none, some askingWindow, none⟩).verdict =
      .autoAccept := by
  let _ : Unicode := Unicode.ascii
  obtain ⟨applier, h⟩ := reader_applied
  have hmachine : isHuman acceptByReader.row.trusted.actor = false := rfl
  obtain ⟨proposalId, record, hcites, hrecord, hverdict⟩ :=
    applied_acceptance_auto_accepts checkedSchema hmachine h rfl
  obtain rfl : "p" = proposalId := Option.some.inj hcites
  exact ⟨record, hrecord, hverdict none rfl⟩

/-- Whether a proposal is staged as this one and still waits. -/
def waitsAs (proposal : StoredProposal) (record : Option ProposalRecord) : Bool :=
  record.any fun held => held.proposal == proposal && held.status == .proposed

theorem exists_of_waitsAs {proposal : StoredProposal} {record : Option ProposalRecord}
    (h : waitsAs proposal record = true) :
    ∃ held, record = some held ∧ held.proposal = proposal ∧ held.status = .proposed := by
  cases record with
  | none => cases h
  | some held =>
    simp only [waitsAs, Option.any_some, Bool.and_eq_true, beq_iff_eq] at h
    exact ⟨held, rfl, h.1, h.2⟩

/-- The engine accepts the model's question, and so does the reducer. -/
theorem reader_question_applied : ∃ next,
    @appendEvent Unicode.ascii _ checkedSchema stagedForReader acceptByReader.row =
      .ok (.applied acceptByReader.event (.model "reader"), next) := by
  let _ : Unicode := Unicode.ascii
  have hreached : Reached anyEvent stagedForReader := reached_offerAll fun _ _ _ => trivial
  obtain ⟨record, hrecord, hproposal, hstatus⟩ := exists_of_waitsAs
    (show waitsAs readingByReader.stored (stagedForReader.proposal? "p") = true by decide +kernel)
  obtain ⟨applier, happlied⟩ := reader_applied
  obtain ⟨cited, hcheck⟩ := checkAcceptance_of_applied happlied rfl
  obtain ⟨proposalId, found, hcites, hfound, hverdict⟩ := autoAccept_of_checkAcceptance rfl hcheck
  obtain rfl : "p" = proposalId := Option.some.inj hcites
  obtain rfl : record = found := Option.some.inj (hrecord.symm.trans hfound)
  have hparse : checkedSchema.safeParse acceptByReader.event = .ok acceptByReader.event := by rfl
  refine (auto_acceptance_applied_iff checkedSchema hreached hrecord hstatus none none
    (hverdict none rfl) ?_ ?_
    (by decide +kernel) hparse (by decide +kernel) rfl).mpr ⟨?_, by decide⟩
  · rw [hproposal]
    rfl
  · rw [hproposal]
    exact ⟨rfl, rfl, rfl, rfl, rfl⟩
  · rw [hproposal]
    rfl

def spokenClaim : String := "Exports are UTF-8 encoded."

/-- The message she said it in, and one about something else. -/
def claimWindow : List ProvenanceMessage :=
  [⟨"m1", "alice", spokenClaim⟩, ⟨"m2", "bob", "Lunch at noon."⟩]

def verifiedReading : Proposal where
  stored := ⟨"p", "room", ⟨99, 2⟩, .model "reader", ["m1"], some spokenClaim, none,
    "2026-01-01T00:00:00.000Z", .claim ⟨spokenClaim, "alice", .verified⟩⟩
  status := .proposed

def verifiedClaim : AcceptedObject :=
  { filedObject "c" none verifiedReading.stored.payload with
    provenance := ⟨["m1"], some "p", none⟩ }

def stagedVerified : CoreState :=
  @offerAll Unicode.ascii [⟨⟨"e1", "2026-01-01T00:00:01.000Z", .proposalRecorded verifiedReading⟩,
    ⟨.model "reader", none⟩⟩]

def acceptVerified : AuthoredEvent :=
  ⟨⟨"e2", "2026-01-01T00:00:02.000Z", .objectAccepted verifiedClaim⟩,
    ⟨.model "reader", some claimWindow⟩⟩

/-- The engine accepts a model's claim that is staged as verified; the reducer does not. -/
theorem verified_reading_refused :
    ¬ ∀ (state : CoreState) (proposalId : Id) (record : ProposalRecord)
      (config : Option AcceptanceConfig) (row : Row CoreEvent) (event : CoreEvent)
      (object : AcceptedObject), @Reached Unicode.ascii anyEvent state →
      state.proposal? proposalId = some record → record.status = .proposed →
      (@decideAcceptance Unicode.ascii record.proposal
        ⟨config, row.trusted.messages, none⟩).verdict = .autoAccept →
      row.trusted.actor = proposingActor record.proposal.proposer →
      AcceptsAsStaged proposalId record.proposal object → state.objects.get object.id = .absent →
      checkedSchema.safeParse row.event = .ok event → rejectionFor state event = none →
      event.body = .objectAccepted object →
      ∃ next, @appendEvent Unicode.ascii _ checkedSchema state row =
        .ok (.applied event row.trusted.actor, next) := by
  let _ : Unicode := Unicode.ascii
  intro h
  have hreached : Reached anyEvent stagedVerified := reached_offerAll fun _ _ _ => trivial
  obtain ⟨record, hrecord, hproposal, hstatus⟩ := exists_of_waitsAs
    (show waitsAs verifiedReading.stored (stagedVerified.proposal? "p") = true by decide +kernel)
  have hverdict : (decideAcceptance verifiedReading.stored ⟨none, some claimWindow, none⟩).verdict =
      .autoAccept := by
    decide +kernel
  have hparse : checkedSchema.safeParse acceptVerified.event = .ok acceptVerified.event := by rfl
  rw [← hproposal] at hverdict
  obtain ⟨next, happlied⟩ := h stagedVerified "p" record none acceptVerified.row acceptVerified.event
    verifiedClaim hreached hrecord hstatus hverdict (by rw [hproposal]; rfl)
    (by rw [hproposal]; exact ⟨rfl, rfl, rfl, rfl, rfl⟩) (by decide +kernel) hparse
    (by decide +kernel) rfl
  have hrefused : appliedCleanly (appendEvent checkedSchema stagedVerified acceptVerified.row) =
      false := by
    decide +kernel
  rw [happlied] at hrefused
  cases hrefused

end Witnesses

end Core
