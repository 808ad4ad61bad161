import AtriumVerified.Core.Proofs.AcceptanceProofs
import AtriumVerified.Core.Proofs.LookupProofs
import AtriumVerified.Core.Proofs.PanelProofs
import AtriumVerified.Core.Proofs.WindowProofs
import AtriumVerified.Lib.ExceptBind

/-!
# Proofs: cycles that read too little

A cycle whose window lost a message that a proposal cites judges nothing about it: the proposal is
refused without a conclusion, and its stored items stay as they are. The exception is a machine's
reading that what is left of the window contradicts.
-/

namespace Core

/-! ## Verdicts -/

section Verdicts

theorem aboutOf_iff {found : List ProvenanceProblem} :
    (if isAboutTheWindow found then ProblemSubject.theWindow else .theReading) = .theWindow ↔
      isAboutTheWindow found = true := by
  cases isAboutTheWindow found with
  | true => simp
  | false => simp

variable [Unicode] {proposal : StoredProposal} {ctx : AttentionContext} {verdict : AcceptanceDecision}

/-- What the verdicts of the cycles rest on, branch by branch. -/
inductive Judged (proposal : StoredProposal) (ctx : AttentionContext) (verdict : AcceptanceDecision) :
    Prop where
  | windowless (machine : proposerIsMachine proposal.proposer = true)
      (window : absentWindow ctx.messages ≠ none) (rule : verdict.rule = .missingMessageContext)
      (visibility : verdict.visibility = .none)
  | failed (window : proposerIsMachine proposal.proposer = true → absentWindow ctx.messages = none)
      (rejecting : rejectingProblems (proposalProblems proposal ctx.messages) ≠ [])
      (rule : verdict.rule = .provenanceFailed) (visibility : verdict.visibility = .none)
      (about : verdict.about = .theWindow ↔
        isAboutTheWindow (rejectingProblems (proposalProblems proposal ctx.messages)) = true)
  | referred (window : proposerIsMachine proposal.proposer = true → absentWindow ctx.messages = none)
      (rejecting : rejectingProblems (proposalProblems proposal ctx.messages) = [])
      (referring : referringProblems (proposalProblems proposal ctx.messages) ≠ [])
      (visibility : verdict.visibility = .quiet)
      (about : verdict.about = .theWindow ↔
        isAboutTheWindow (referringProblems (proposalProblems proposal ctx.messages)) = true)
  | clean (window : proposerIsMachine proposal.proposer = true → absentWindow ctx.messages = none)
      (rejecting : rejectingProblems (proposalProblems proposal ctx.messages) = [])
      (referring : referringProblems (proposalProblems proposal ctx.messages) = [])
      (rule : verdict.rule ≠ .missingMessageContext ∧ verdict.rule ≠ .receiptNotCertifiable)
      (about : verdict.about = .theReading)

theorem decideReading_rule {rule : AcceptanceRule} {base : AcceptanceDecision} :
    (decideReading proposal rule base).rule ≠ .missingMessageContext ∧
      (decideReading proposal rule base).rule ≠ .receiptNotCertifiable ∧
      (decideReading proposal rule base).about = base.about := by
  unfold decideReading
  dsimp only
  split
  · exact ⟨nofun, nofun, rfl⟩
  · split
    · exact ⟨nofun, nofun, rfl⟩
    · split
      · exact ⟨nofun, nofun, rfl⟩
      · split
        · exact ⟨nofun, nofun, rfl⟩
        · split
          · exact ⟨nofun, nofun, rfl⟩
          · exact ⟨nofun, nofun, rfl⟩

theorem verdictOn_judged : Judged proposal ctx (verdictOn proposal ctx) := by
  unfold verdictOn decideAcceptance
  dsimp only
  split
  · next reason hwindow =>
    obtain ⟨habsent, hmachine⟩ := Option.filter_eq_some_iff.mp hwindow
    refine .windowless (by simpa using hmachine) ?_ rfl rfl
    rw [habsent]
    rintro ⟨⟩
  · next hwindow =>
    have hpresent : proposerIsMachine proposal.proposer = true →
        absentWindow ctx.messages = none := by
      intro hmachine
      cases habsent : absentWindow ctx.messages with
      | none => rfl
      | some reason => simp [habsent, hmachine] at hwindow
    split
    · next hrejecting => exact .failed hpresent (by simpa using hrejecting) rfl rfl aboutOf_iff
    · next hrejecting =>
      have hunrejected : rejectingProblems (proposalProblems proposal ctx.messages) = [] := by
        simpa using hrejecting
      split
      · next hreferring =>
        exact .referred hpresent hunrejected (by simpa using hreferring) rfl aboutOf_iff
      · next hreferring =>
        have hunreferred : referringProblems (proposalProblems proposal ctx.messages) = [] := by
          simpa using hreferring
        split
        · exact .clean hpresent hunrejected hunreferred ⟨nofun, nofun⟩ rfl
        · split
          · exact .clean hpresent hunrejected hunreferred ⟨nofun, nofun⟩ rfl
          · obtain ⟨hmissing, hreceipt, habout⟩ := decideReading_rule
            exact .clean hpresent hunrejected hunreferred ⟨hmissing, hreceipt⟩ habout

theorem clean_of_needsYou (h : (verdictOn proposal ctx).visibility = .needsYou) :
    (proposerIsMachine proposal.proposer = true → absentWindow ctx.messages = none) ∧
      rejectingProblems (proposalProblems proposal ctx.messages) = [] ∧
      referringProblems (proposalProblems proposal ctx.messages) = [] ∧
      (verdictOn proposal ctx).rule ≠ .missingMessageContext ∧
      (verdictOn proposal ctx).rule ≠ .receiptNotCertifiable ∧
      (verdictOn proposal ctx).about = .theReading := by
  have hjudged : Judged proposal ctx (verdictOn proposal ctx) := verdictOn_judged
  cases hjudged with
  | windowless _ _ _ hvisibility =>
    rw [h] at hvisibility
    cases hvisibility
  | failed _ _ _ hvisibility _ =>
    rw [h] at hvisibility
    cases hvisibility
  | referred _ _ _ hvisibility _ =>
    rw [h] at hvisibility
    cases hvisibility
  | clean hwindow hrejecting hreferring hrule habout =>
    exact ⟨hwindow, hrejecting, hreferring, hrule.1, hrule.2, habout⟩

theorem borne_of_needsYou (hmachine : proposerIsMachine proposal.proposer = true)
    (h : (verdictOn proposal ctx).visibility = .needsYou) : Borne (proposalSubject proposal) := by
  obtain ⟨hwindow, hrejecting, hreferring, -⟩ := clean_of_needsYou h
  obtain ⟨first, rest, hmessages⟩ := exists_window (hwindow hmachine)
  rw [hmessages] at hrejecting hreferring
  exact borne_of_passed hmachine (rejecting_referring_nil.mp ⟨hrejecting, hreferring⟩)

theorem verdictOn_human {staged : Id} (hproposer : proposal.proposer = .human staged)
    (hrejecting : rejectingProblems (proposalProblems proposal ctx.messages) = [])
    (hreferring : referringProblems (proposalProblems proposal ctx.messages) = []) :
    (verdictOn proposal ctx).visibility = .needsYou ∧
      (verdictOn proposal ctx).awaitingConfirmFrom =
        (payloadAttributedTo proposal.payload).filter fun userId =>
          proposal.type == .commitment && userId != staged := by
  unfold verdictOn decideAcceptance
  dsimp only
  rw [hproposer, hrejecting, hreferring]
  have hnobody : (absentWindow ctx.messages).filter (fun _ => proposerIsMachine (.human staged)) =
      none := by
    cases absentWindow ctx.messages with
    | none => rfl
    | some reason => rfl
  rw [hnobody]
  exact ⟨rfl, rfl⟩

theorem judgedSource_refused (h : verdict.rule = .missingMessageContext ∨ verdict.about = .theWindow) :
    ∃ refusals, judgedSource proposal verdict ctx = .ok ⟨[], refusals, []⟩ := by
  unfold judgedSource
  dsimp only
  by_cases hmissing : verdict.rule = .missingMessageContext
  · rw [if_pos hmissing]
    exact ⟨_, rfl⟩
  · rw [if_neg hmissing, if_pos (h.resolve_left hmissing)]
    exact ⟨_, rfl⟩

theorem judgedSource_failed (hrule : verdict.rule = .provenanceFailed)
    (hvisibility : verdict.visibility = .none) (habout : verdict.about = .theReading) :
    judgedSource proposal verdict ctx = .ok ⟨[], [], conclude proposal⟩ := by
  unfold judgedSource
  dsimp only
  rw [hrule, hvisibility, habout]
  rfl

/-- What a verdict that goes to people raises is what `needsYouOutcome` raises. -/
theorem judgedSource_needsYou {source : AttentionSource} (hvisibility : verdict.visibility = .needsYou)
    (hmissing : verdict.rule ≠ .missingMessageContext) (hreceipt : verdict.rule ≠ .receiptNotCertifiable)
    (habout : verdict.about = .theReading) :
    judgedSource proposal verdict ctx = .ok source ∧ source.items ≠ [] ↔
      ∃ room items, rosterOf ctx proposal.roomId = .ok room ∧
        needsYouAmong room proposal verdict ctx = .raise items ∧ items ≠ [] ∧
        source = ⟨items, [], conclude proposal ++ concludeReview proposal⟩ := by
  unfold judgedSource needsYouOutcome
  dsimp only
  rw [if_neg hmissing, habout, if_neg (by decide), if_neg hreceipt, hvisibility, if_neg (by simp)]
  cases rosterOf ctx proposal.roomId with
  | error e =>
    constructor
    · rintro ⟨h, -⟩
      cases h
    · rintro ⟨room, items, h, -⟩
      cases h
  | ok room =>
    cases houtcome : needsYouAmong room proposal verdict ctx with
    | refuse reason =>
      constructor
      · rintro ⟨h, hitems⟩
        simp only [bind, Except.bind, pure, Except.pure, houtcome, Except.ok.injEq] at h
        rw [← h] at hitems
        exact absurd rfl hitems
      · rintro ⟨other, items, hroom, hraise, -⟩
        cases hroom
        rw [houtcome] at hraise
        cases hraise
    | raise items =>
      constructor
      · rintro ⟨h, hitems⟩
        simp only [bind, Except.bind, pure, Except.pure, houtcome, Except.ok.injEq] at h
        rw [← h] at hitems
        exact ⟨room, items, rfl, houtcome, hitems, h.symm⟩
      · rintro ⟨other, raised, hroom, hraise, hitems, rfl⟩
        cases hroom
        rw [houtcome] at hraise
        cases hraise
        simp only [bind, Except.bind, pure, Except.pure, houtcome]
        exact ⟨trivial, hitems⟩

end Verdicts

/-! ## What one proposal raises -/

section Needs

theorem raiseOrRefuse_eq {needs items : List Need} {reason : String}
    (h : raiseOrRefuse needs reason = .raise items) : needs = items ∧ items ≠ [] := by
  unfold raiseOrRefuse at h
  split at h
  · cases h
  · next hsome =>
    cases h
    exact ⟨rfl, by simpa using hsome⟩

theorem raiseOrRefuse_raise {needs : List Need} (reason : String) (h : needs ≠ []) :
    raiseOrRefuse needs reason = .raise needs := by
  unfold raiseOrRefuse
  rw [if_neg (by simpa using h)]

variable [Unicode] {room : List Id} {proposal : StoredProposal} {verdict : AcceptanceDecision}
  {ctx : AttentionContext} {items : List Need}

def AsksAbout (proposal : StoredProposal) (need : Need) : Prop :=
  need.id = attentionItemId need.userId .proposal proposal.id (classOf proposal.type) ∧
    (item need).subject = ⟨classOf proposal.type, .proposal, proposal.id, .stagedProposal⟩

theorem needsYouAmong_asks (h : needsYouAmong room proposal verdict ctx = .raise items) :
    ∀ need ∈ items, AsksAbout proposal need := by
  unfold needsYouAmong at h
  dsimp only at h
  intro need hneed
  split at h
  · next payload hpayload =>
    have hcls : classOf proposal.type = .needsDecision := by
      unfold StoredProposal.type
      rw [hpayload]
      rfl
    obtain ⟨rfl, -⟩ := raiseOrRefuse_eq h
    obtain ⟨userId, -, rfl⟩ := List.mem_map.mp hneed
    unfold AsksAbout
    rw [hcls]
    exact ⟨rfl, rfl⟩
  · next payload hpayload =>
    have hcls : classOf proposal.type = .ownedCommitment := by
      unfold StoredProposal.type
      rw [hpayload]
      rfl
    obtain ⟨rfl, -⟩ := raiseOrRefuse_eq h
    split at hneed
    · rw [List.mem_singleton.mp hneed]
      unfold AsksAbout
      rw [hcls]
      refine ⟨rfl, ?_⟩
      cases verdict.awaitingConfirmFrom with
      | none => rfl
      | some owner => rfl
    · cases hneed
  · next hdecision hcommitment =>
    have hcls : classOf proposal.type = .needsDecision := by
      unfold StoredProposal.type
      cases hpayload : proposal.payload with
      | decision payload => exact absurd hpayload (hdecision payload)
      | commitment payload => exact absurd hpayload (hcommitment payload)
      | openQuestion payload => rfl
      | claim payload => rfl
      | objective payload => rfl
    split at h
    · cases h
    · obtain ⟨rfl, -⟩ := raiseOrRefuse_eq h
      obtain ⟨userId, -, rfl⟩ := List.mem_map.mp hneed
      unfold AsksAbout
      rw [hcls]
      exact ⟨rfl, rfl⟩

/-- Whom a verdict asks, and about what, is a matter of the room and of the person it waits for. -/
theorem needsYouAmong_again {verdict' : AcceptanceDecision} {later : AttentionContext}
    (hawaiting : verdict'.awaitingConfirmFrom = verdict.awaitingConfirmFrom)
    (h : needsYouAmong room proposal verdict ctx = .raise items) :
    ∃ again, needsYouAmong room proposal verdict' later = .raise again ∧
      again.map Need.id = items.map Need.id := by
  have hdecision (reason : RationaleReason) (audience : List Id) :
      (audience.map (decisionNeed later proposal reason)).map Need.id =
        (audience.map (decisionNeed ctx proposal reason)).map Need.id := by
    rw [List.map_map, List.map_map]
    rfl
  have hnonempty (reason : RationaleReason) {audience : List Id}
      (hsome : audience.map (decisionNeed ctx proposal reason) ≠ []) :
      audience.map (decisionNeed later proposal reason) ≠ [] := by
    rw [ne_eq, List.map_eq_nil_iff] at hsome ⊢
    exact hsome
  unfold needsYouAmong at h ⊢
  dsimp only at h ⊢
  rw [hawaiting]
  split at h
  · obtain ⟨rfl, hsome⟩ := raiseOrRefuse_eq h
    exact ⟨_, raiseOrRefuse_raise _ (hnonempty _ hsome), hdecision _ _⟩
  · obtain ⟨rfl, hsome⟩ := raiseOrRefuse_eq h
    split at hsome
    · next howner =>
      rw [if_pos howner, if_pos howner]
      exact ⟨_, raiseOrRefuse_raise _ (List.cons_ne_nil _ _), rfl⟩
    · exact absurd rfl hsome
  · split at h
    · cases h
    · next hworded =>
      rw [if_neg hworded]
      obtain ⟨rfl, hsome⟩ := raiseOrRefuse_eq h
      exact ⟨_, raiseOrRefuse_raise _ (hnonempty _ hsome), hdecision _ _⟩

end Needs

/-! ## A blind look at one proposal -/

section Look

theorem rosterOf_congr {ctx later : AttentionContext} (hmembers : later.members = ctx.members)
    (roomId : Id) : rosterOf later roomId = rosterOf ctx roomId := by
  unfold rosterOf
  rw [hmembers]

variable [Unicode] {record : ProposalRecord} {ctx later : AttentionContext}
  {window : List ProvenanceMessage} {source : AttentionSource}

theorem proposalSource_proposed (hstatus : record.status = .proposed) :
    proposalSource record ctx = judgedSource record.proposal (verdictOn record.proposal ctx) ctx := by
  unfold proposalSource
  rw [hstatus, if_neg (by simp)]

/-- A machine's reading that went to people: what a window that lost a citation does to it. -/
theorem blind_machine (hstatus : record.status = .proposed)
    (hmachine : proposerIsMachine record.proposal.proposer = true)
    (hverdict : (verdictOn record.proposal ctx).visibility = .needsYou)
    (hmisses : Misses window record.proposal) (hwindow : later.messages = some window) :
    (Discredited record.proposal window →
      proposalSource record later = .ok ⟨[], [], conclude record.proposal⟩) ∧
      (¬ Discredited record.proposal window →
        ∃ refusals, proposalSource record later = .ok ⟨[], refusals, []⟩) := by
  have hborne := borne_of_needsYou hmachine hverdict
  rw [proposalSource_proposed hstatus]
  have hjudged : Judged record.proposal later (verdictOn record.proposal later) := verdictOn_judged
  have hproblems : absentWindow (some window) = none →
      proposalProblems record.proposal later.messages =
        validateProposalProvenance (proposalSubject record.proposal) window receiptPolicy := by
    intro hworded
    obtain ⟨first, rest, hsome⟩ := exists_window hworded
    rw [hwindow, Option.some.inj hsome]
    rfl
  cases hjudged with
  | windowless _ habsent hrule _ =>
    refine ⟨?_, fun _ => judgedSource_refused (Or.inl hrule)⟩
    intro hdiscredited
    rw [hwindow] at habsent
    exact absurd hdiscredited.worded habsent
  | failed hpresent hrejecting hrule hvisibility habout =>
    have hworded : absentWindow (some window) = none := hwindow ▸ hpresent hmachine
    rw [hproblems hworded] at hrejecting habout
    have hiff := rejected_reading_iff_discredited hmisses hmachine hborne hworded
    refine ⟨?_, ?_⟩
    · intro hdiscredited
      obtain ⟨-, hreading⟩ := hiff.mpr hdiscredited
      apply judgedSource_failed hrule hvisibility
      cases hsubject : (verdictOn record.proposal later).about with
      | theReading => rfl
      | theWindow =>
        rw [habout.mp hsubject] at hreading
        cases hreading
    · intro hsound
      refine judgedSource_refused (Or.inr (habout.mpr ?_))
      by_contra hreading
      rw [Bool.not_eq_true] at hreading
      exact hsound (hiff.mp ⟨hrejecting, hreading⟩)
  | referred hpresent hrejecting hreferring _ habout =>
    have hworded : absentWindow (some window) = none := hwindow ▸ hpresent hmachine
    rw [hproblems hworded] at hrejecting habout
    have hiff := rejected_reading_iff_discredited hmisses hmachine hborne hworded
    refine ⟨fun hdiscredited => absurd hrejecting (hiff.mpr hdiscredited).1, fun _ => ?_⟩
    obtain ⟨problem, hproblem, hof⟩ := referring_of_misses hmisses
    refine judgedSource_refused (Or.inr (habout.mpr ?_))
    exact List.any_eq_true.mpr ⟨problem, hproblem, by rw [hof]; rfl⟩
  | clean hpresent _ hreferring _ _ =>
    have hworded : absentWindow (some window) = none := hwindow ▸ hpresent hmachine
    rw [hproblems hworded] at hreferring
    obtain ⟨problem, hproblem, -⟩ := referring_of_misses hmisses
    rw [hreferring] at hproblem
    cases hproblem

/-- A person's staging that went to people: an empty window raises it again, any other that lost a
citation refuses it. -/
theorem blind_human (hstatus : record.status = .proposed) {staged : Id}
    (hproposer : record.proposal.proposer = .human staged)
    (hverdict : (verdictOn record.proposal ctx).visibility = .needsYou)
    (hsource : proposalSource record ctx = .ok source) (hitems : source.items ≠ [])
    (hmisses : Misses window record.proposal) (hwindow : later.messages = some window)
    (hmembers : later.members = ctx.members) :
    (∃ refusals, proposalSource record later = .ok ⟨[], refusals, []⟩) ∨
      ∃ again, proposalSource record later = .ok again ∧
        again.items.map Need.id = source.items.map Need.id := by
  obtain ⟨-, hrejecting, hreferring, hmissing, hreceipt, habout⟩ := clean_of_needsYou hverdict
  rw [proposalSource_proposed hstatus] at hsource ⊢
  cases window with
  | nil =>
    -- A window without messages is not checked, so the verdict is the one of the full window.
    have hnothing : proposalProblems record.proposal later.messages = [] := by
      rw [hwindow]
      rfl
    have hunrejected : rejectingProblems (proposalProblems record.proposal later.messages) = [] := by
      rw [hnothing]
      rfl
    have hunreferred : referringProblems (proposalProblems record.proposal later.messages) = [] := by
      rw [hnothing]
      rfl
    obtain ⟨-, hawaiting⟩ := verdictOn_human hproposer hrejecting hreferring
    obtain ⟨hagain, hawaits⟩ := verdictOn_human hproposer hunrejected hunreferred
    obtain ⟨-, -, -, hmissing', hreceipt', habout'⟩ := clean_of_needsYou hagain
    obtain ⟨room, items, hroom, hraise, -, rfl⟩ :=
      (judgedSource_needsYou hverdict hmissing hreceipt habout).mp ⟨hsource, hitems⟩
    obtain ⟨again, hraised, hids⟩ : ∃ again, needsYouAmong room record.proposal
        (verdictOn record.proposal later) later = .raise again ∧
          again.map Need.id = items.map Need.id :=
      needsYouAmong_again (hawaits.trans hawaiting.symm) hraise
    have hsome : again ≠ [] := by
      rintro rfl
      exact hitems (List.map_eq_nil_iff.mp hids.symm)
    obtain ⟨hlater, -⟩ := (judgedSource_needsYou hagain hmissing' hreceipt' habout').mpr
      ⟨room, again, (rosterOf_congr hmembers _).trans hroom, hraised, hsome, rfl⟩
    exact Or.inr ⟨_, hlater, hids⟩
  | cons first rest =>
    have hhuman : proposerIsMachine record.proposal.proposer = false := by
      rw [hproposer]
      rfl
    have hproblems : proposalProblems record.proposal later.messages =
        validateProposalProvenance (proposalSubject record.proposal) (first :: rest)
          receiptPolicy := by
      rw [hwindow]
      rfl
    have hjudged : Judged record.proposal later (verdictOn record.proposal later) := verdictOn_judged
    left
    cases hjudged with
    | windowless hmachine _ _ _ =>
      rw [hhuman] at hmachine
      cases hmachine
    | failed _ hrejected _ _ hof =>
      rw [hproblems] at hrejected hof
      exact judgedSource_refused (Or.inr (hof.mpr
        ((rejected_human_staging hmisses hhuman).resolve_left hrejected)))
    | referred _ _ _ _ hof =>
      rw [hproblems] at hof
      obtain ⟨problem, hproblem, hlost⟩ := referring_of_misses hmisses
      refine judgedSource_refused (Or.inr (hof.mpr ?_))
      exact List.any_eq_true.mpr ⟨problem, hproblem, by rw [hlost]; rfl⟩
    | clean _ _ hunreferred _ _ =>
      rw [hproblems] at hunreferred
      obtain ⟨problem, hproblem, -⟩ := referring_of_misses hmisses
      rw [hunreferred] at hproblem
      cases hproblem

end Look

/-! ## A blind cycle -/

section Cycle

theorem stays_pending_iff {stored : List AttentionItem} {cycle : AttentionProjection}
    (hstored : UniqueIds stored) {entry : AttentionItem} (hentry : entry ∈ stored)
    (hpending : entry.status = .pending) :
    (∃ later ∈ panelAfter stored cycle, later.id = entry.id ∧ later.status = .pending) ↔
      (entry.subject ∈ cycle.examined → entry.id ∈ cycle.ids) := by
  constructor
  · rintro ⟨later, hlater, hid, hstill⟩ hexamined
    rcases panelAfter_traces hstored hentry hlater hid with ⟨hraised, -⟩ | ⟨-, hconcluded⟩
    · exact hraised
    · rw [hstill, concludeStored_status_eq, if_pos ⟨hpending, hexamined⟩] at hconcluded
      cases hconcluded
  · intro h
    obtain ⟨later, hlater, hid⟩ : ∃ later ∈ panelAfter stored cycle, later.id = entry.id :=
      mem_ids_panelAfter (Or.inl (List.mem_map_of_mem hentry))
    refine ⟨later, hlater, hid, ?_⟩
    rcases panelAfter_traces hstored hentry hlater hid with ⟨-, hkept⟩ | ⟨hnot, hconcluded⟩
    · exact hkept.trans hpending
    · rw [hconcluded, concludeStored_status_eq, if_neg (fun hboth => hnot (h hboth.2))]
      exact hpending

section Sources

/-- Every need about a proposal, and every conclusion, bears its id. -/
def OnlyAbout (id : Id) (source : AttentionSource) : Prop :=
  (∀ need ∈ source.items, need.objectId = id) ∧ ∀ seen ∈ source.examined, seen.subjectId = id

theorem concluded_about (proposal : StoredProposal) :
    ∀ seen ∈ conclude proposal ++ concludeReview proposal, seen.subjectId = proposal.id := by
  intro seen hseen
  rcases List.mem_append.mp hseen with hseen | hseen
  · rw [List.mem_singleton.mp hseen]
  · unfold concludeReview at hseen
    split at hseen
    · cases hseen
    · rw [List.mem_singleton.mp hseen]

theorem review_about {proposal : StoredProposal} {ctx : AttentionContext} {items : List Need}
    (h : readingReviewOutcome proposal ctx = .ok (.raise items)) :
    ∀ need ∈ items, need.objectId = proposal.id := by
  unfold readingReviewOutcome at h
  dsimp only at h
  split at h
  · cases h
  · cases hroom : rosterOf ctx proposal.roomId with
    | error e =>
      rw [hroom] at h
      cases h
    | ok room =>
      rw [hroom] at h
      obtain ⟨rfl, -⟩ := raiseOrRefuse_eq (Except.ok.inj h)
      intro need hneed
      obtain ⟨userId, -, rfl⟩ := List.mem_map.mp hneed
      rfl

variable [Unicode] {record : ProposalRecord} {ctx : AttentionContext} {source : AttentionSource}

theorem judged_about {proposal : StoredProposal} {verdict : AcceptanceDecision}
    (h : judgedSource proposal verdict ctx = .ok source) : OnlyAbout proposal.id source := by
  have hnone (refusals : List AttentionRefusal) : OnlyAbout proposal.id ⟨[], refusals, []⟩ :=
    ⟨by simp, by simp⟩
  unfold judgedSource at h
  dsimp only at h
  split at h
  · cases h
    exact hnone _
  · split at h
    · cases h
      exact hnone _
    · split at h
      · cases houtcome : readingReviewOutcome proposal ctx with
        | error e =>
          rw [houtcome] at h
          cases h
        | ok outcome =>
          rw [houtcome] at h
          cases outcome with
          | raise items =>
            cases h
            exact ⟨review_about houtcome, concluded_about proposal⟩
          | refuse reason =>
            cases h
            exact hnone _
      · split at h
        · cases h
          refine ⟨by simp, ?_⟩
          intro seen hseen
          rw [List.mem_singleton.mp hseen]
        · unfold needsYouOutcome at h
          cases hroom : rosterOf ctx proposal.roomId with
          | error e =>
            rw [hroom] at h
            cases h
          | ok room =>
            rw [hroom] at h
            cases houtcome : needsYouAmong room proposal verdict ctx with
            | refuse reason =>
              simp only [bind, Except.bind, pure, Except.pure, houtcome, Except.ok.injEq] at h
              rw [← h]
              exact hnone _
            | raise items =>
              simp only [bind, Except.bind, pure, Except.pure, houtcome, Except.ok.injEq] at h
              rw [← h]
              refine ⟨?_, concluded_about proposal⟩
              intro need hneed
              exact congrArg ExaminedSubject.subjectId (needsYouAmong_asks houtcome need hneed).2

theorem proposalSource_about (h : proposalSource record ctx = .ok source) :
    OnlyAbout record.proposal.id source := by
  unfold proposalSource at h
  split at h
  · cases h
    exact ⟨by simp, concluded_about record.proposal⟩
  · exact judged_about h

variable {state : CoreState} {proposals : AttentionSource} {proposalId : Id}

/-- What the staged proposals come to about one of them is what its own pass came to. -/
theorem proposalItems_about
    (hkeyed : ∀ id held, state.proposal? id = some held → held.proposal.id = id)
    (hrecord : state.proposal? proposalId = some record)
    (h : proposalItems state ctx = .ok proposals) :
    ∃ source, proposalSource record ctx = .ok source ∧
      (∀ need ∈ source.items, need ∈ proposals.items) ∧
      (∀ seen ∈ source.examined, seen ∈ proposals.examined) ∧
      (∀ need ∈ proposals.items, need.objectId = proposalId → need ∈ source.items) ∧
      ∀ seen ∈ proposals.examined, seen.subjectId = proposalId → seen ∈ source.examined := by
  unfold proposalItems at h
  dsimp only at h
  cases hsources : ((Js.sort state.proposals.keys).filterMap state.proposal?).mapM
      fun record => proposalSource record ctx with
  | error e =>
    rw [hsources] at h
    cases h
  | ok sources =>
    rw [hsources] at h
    cases h
    obtain ⟨hfrom, hto⟩ := Except.mem_of_mapM hsources
    have hlisted : record ∈ (Js.sort state.proposals.keys).filterMap state.proposal? := by
      refine List.mem_filterMap.mpr ⟨proposalId, ?_, hrecord⟩
      rw [(Js.sort_perm _).mem_iff, Js.PlainObject.mem_keys]
      exact Option.isSome_iff_exists.mpr ⟨record, hrecord⟩
    -- A pass that says anything about the proposal is the pass over its record.
    have hown (other : AttentionSource) (hother : other ∈ sources) :
        ∃ held, proposalSource held ctx = .ok other ∧ OnlyAbout held.proposal.id other ∧
          (held.proposal.id = proposalId → held = record) := by
      obtain ⟨held, hheld, hsource⟩ := hfrom other hother
      refine ⟨held, hsource, proposalSource_about hsource, ?_⟩
      intro hsame
      obtain ⟨id, -, hid⟩ := List.mem_filterMap.mp hheld
      rw [← hkeyed id held hid, hsame, hrecord] at hid
      exact (Option.some.inj hid).symm
    obtain ⟨source, hsource, hpass⟩ := hto record hlisted
    refine ⟨source, hpass, ?_, ?_, ?_, ?_⟩
    · intro need hneed
      exact List.mem_flatMap.mpr ⟨source, hsource, hneed⟩
    · intro seen hseen
      exact List.mem_flatMap.mpr ⟨source, hsource, hseen⟩
    · intro need hneed habout
      obtain ⟨other, hother, hneed⟩ := List.mem_flatMap.mp hneed
      obtain ⟨held, hheld, hbears, hsame⟩ := hown other hother
      obtain rfl := hsame ((hbears.1 need hneed).symm.trans habout)
      rw [hheld] at hpass
      cases hpass
      exact hneed
    · intro seen hseen habout
      obtain ⟨other, hother, hseen⟩ := List.mem_flatMap.mp hseen
      obtain ⟨held, hheld, hbears, hsame⟩ := hown other hother
      obtain rfl := hsame ((hbears.2 seen hseen).symm.trans habout)
      rw [hheld] at hpass
      cases hpass
      exact hseen

end Sources

section Others

variable {state : CoreState} {ctx : AttentionContext}

theorem mem_firstById {needs : List Need} {need : Need} (h : need ∈ firstById needs) :
    need ∈ needs := by
  have hkept (out rest : List Need) (hmem : need ∈ rest.foldl (fun out need =>
      if out.any fun held => held.id == need.id then out else out ++ [need]) out) :
      need ∈ out ∨ need ∈ rest := by
    induction rest generalizing out with
    | nil => exact Or.inl hmem
    | cons first rest ih =>
      rcases ih _ hmem with hout | hrest
      · dsimp only at hout
        split at hout
        · exact Or.inl hout
        · rcases List.mem_append.mp hout with hout | hfirst
          · exact Or.inl hout
          · exact Or.inr (List.mem_cons.mpr (Or.inl (List.mem_singleton.mp hfirst)))
      · exact Or.inr (List.mem_cons_of_mem _ hrest)
  exact (hkept [] needs h).resolve_left (List.not_mem_nil)

theorem commitmentItems_objects :
    (∀ need ∈ (commitmentItems state ctx).items, need.subjectKind = .object) ∧
      ∀ seen ∈ (commitmentItems state ctx).examined, seen.subjectKind = .object := by
  refine ⟨?_, ?_⟩
  · intro need hneed
    obtain ⟨record, -, hraised⟩ := List.mem_filterMap.mp hneed
    unfold commitmentNeed at hraised
    split at hraised
    · dsimp only at hraised
      split at hraised
      · cases hraised
        rfl
      · cases hraised
    · cases hraised
  · intro seen hseen
    obtain ⟨id, -, rfl⟩ := List.mem_map.mp hseen
    rfl

theorem blockedNeeds_asked {relation : Relation} {needs : List Need}
    (h : blockedNeeds state ctx relation = .ok needs) :
    ∀ need ∈ needs, ∃ question reason userId, need = questionNeed ctx question reason userId := by
  unfold blockedNeeds at h
  dsimp only at h
  intro need hneed
  split at h
  · next question text blocked hkind hquestion hblocked =>
    split at h
    · cases h
      exact ⟨_, _, _, List.mem_singleton.mp hneed⟩
    · obtain ⟨room, -, h⟩ := Except.bind_ok h
      cases h
      obtain ⟨userId, -, rfl⟩ := List.mem_map.mp hneed
      exact ⟨_, _, _, rfl⟩
    · cases h
      cases hneed
  · cases h
    cases hneed

theorem blockingQuestionItems_asked {questions : AttentionSource}
    (h : blockingQuestionItems state ctx = .ok questions) :
    ∀ need ∈ questions.items,
      ∃ question reason userId, need = questionNeed ctx question reason userId := by
  obtain ⟨blocking, hblocking, h⟩ := Except.bind_ok h
  cases h
  intro need hneed
  rcases List.mem_append.mp (mem_firstById hneed) with hnamed | hblocked
  · obtain ⟨signal, -, hraised⟩ := List.mem_filterMap.mp hnamed
    obtain ⟨question, -, rfl⟩ := Option.map_eq_some_iff.mp hraised
    exact ⟨_, _, _, rfl⟩
  · obtain ⟨needs, hneeds, hneed⟩ := List.mem_flatten.mp hblocked
    obtain ⟨relation, -, hrelation⟩ := (Except.mem_of_mapM hblocking).1 needs hneeds
    exact blockedNeeds_asked hrelation need hneed

theorem blockingQuestionItems_objects {questions : AttentionSource}
    (h : blockingQuestionItems state ctx = .ok questions) :
    (∀ need ∈ questions.items, need.subjectKind = .object) ∧
      ∀ seen ∈ questions.examined, seen.subjectKind = .object := by
  refine ⟨?_, ?_⟩
  · intro need hneed
    obtain ⟨question, reason, userId, rfl⟩ := blockingQuestionItems_asked h need hneed
    rfl
  · obtain ⟨blocking, -, h⟩ := Except.bind_ok h
    cases h
    intro seen hseen
    obtain ⟨id, -, hseen⟩ := List.mem_flatMap.mp hseen
    rcases List.mem_cons.mp hseen with rfl | hseen
    · rfl
    · split at hseen
      · rw [List.mem_singleton.mp hseen]
      · cases hseen

theorem mentionItems_mentions : ∀ need ∈ (mentionItems ctx).items, need.cls = .mention := by
  intro need hneed
  obtain ⟨signal, -, rfl⟩ := List.mem_map.mp (mem_firstById hneed)
  rfl

end Others

section Projected

variable [Unicode] {state : CoreState} {ctx : AttentionContext} {cycle : AttentionProjection}
  {proposalId : Id} {record : ProposalRecord}

/-- What a cycle raises and examines about a staged proposal is what its pass over the proposal does. -/
theorem projectAttention_about
    (hkeyed : ∀ id held, state.proposal? id = some held → held.proposal.id = id)
    (hrecord : state.proposal? proposalId = some record) (h : projectAttention state ctx = .ok cycle)
    {cls : AttentionClass} (hcls : cls ≠ .mention) :
    ∃ source, proposalSource record ctx = .ok source ∧
      (∀ userId, attentionItemId userId .proposal proposalId cls ∈ cycle.ids ↔
        attentionItemId userId .proposal proposalId cls ∈ source.items.map Need.id) ∧
      ∀ producer, ⟨cls, .proposal, proposalId, producer⟩ ∈ cycle.examined ↔
        ⟨cls, .proposal, proposalId, producer⟩ ∈ source.examined := by
  obtain ⟨proposals, questions, hproposals, hquestions, hitems, hexamined⟩ :=
    projectAttention_eq_ok h
  obtain ⟨source, hsource, hraised, hseen, hneeds, hlooks⟩ :=
    proposalItems_about hkeyed hrecord hproposals
  have hobjects := blockingQuestionItems_objects hquestions
  have hcommitments : (∀ need ∈ (commitmentItems state ctx).items, need.subjectKind = .object) ∧
      ∀ seen ∈ (commitmentItems state ctx).examined, seen.subjectKind = .object :=
    commitmentItems_objects
  refine ⟨source, hsource, ?_, ?_⟩
  · intro userId
    rw [(ids_perm hitems).mem_iff]
    constructor
    · intro hid
      obtain ⟨need, hneed, hsame⟩ := List.mem_map.mp hid
      obtain ⟨-, hkind, hobject, hclass⟩ := attentionItemId_inj hsame
      obtain ⟨part, hpart, hmem⟩ := List.mem_flatMap.mp hneed
      simp only [List.mem_cons, List.not_mem_nil, or_false] at hpart
      rcases hpart with rfl | rfl | rfl | rfl
      · exact List.mem_map.mpr ⟨need, hneeds need hmem hobject, hsame⟩
      · rw [hcommitments.1 need hmem] at hkind
        cases hkind
      · rw [hobjects.1 need hmem] at hkind
        cases hkind
      · rw [mentionItems_mentions need hmem] at hclass
        exact absurd hclass.symm hcls
    · intro hid
      obtain ⟨need, hneed, hid⟩ := List.mem_map.mp hid
      refine List.mem_map.mpr ⟨need, ?_, hid⟩
      exact List.mem_flatMap.mpr ⟨proposals, List.mem_cons_self, hraised need hneed⟩
  · intro producer
    rw [hexamined]
    constructor
    · intro hlooked
      obtain ⟨part, hpart, hmem⟩ := List.mem_flatMap.mp hlooked
      simp only [List.mem_cons, List.not_mem_nil, or_false] at hpart
      rcases hpart with rfl | rfl | rfl | rfl
      · exact hlooks _ hmem rfl
      · cases hcommitments.2 _ hmem
      · cases hobjects.2 _ hmem
      · cases hmem
    · intro hlooked
      exact List.mem_flatMap.mpr ⟨proposals, List.mem_cons_self, hseen _ hlooked⟩

/-- A cycle whose window lost a message that a staged proposal cites: a pending item which the verdict
on the full window raised stays pending, unless what is left of the window contradicts a machine's
reading. -/
theorem blind_cycle_keeps_iff (hreached : Reached anyEvent state)
    (hrecord : state.proposal? proposalId = some record) (hstatus : record.status = .proposed)
    (hverdict : (verdictOn record.proposal ctx).visibility = .needsYou)
    {stored : List AttentionItem} (hstored : UniqueIds stored) {entry : AttentionItem}
    (hentry : entry ∈ stored) (hraised : RaisedFor record ctx entry) {later : AttentionContext}
    {window : List ProvenanceMessage} (hmembers : later.members = ctx.members)
    (hwindow : later.messages = some window) (hmisses : Misses window record.proposal)
    (hcycle : projectAttention state later = .ok cycle) :
    (∃ kept ∈ panelAfter stored cycle, kept.id = entry.id ∧ kept.status = .pending) ↔
      ¬ Discredited record.proposal window := by
  obtain ⟨log, hlog⟩ := hreached.exists_log
  have hkeyed : ∀ id held, state.proposal? id = some held → held.proposal.id = id :=
    fun id held hheld => (hlog.recorded.proposals id held hheld).2.1
  have hid : record.proposal.id = proposalId := hkeyed proposalId record hrecord
  have hcls : classOf record.proposal.type ≠ .mention := by
    unfold classOf
    split
    · rintro ⟨⟩
    · rintro ⟨⟩
  obtain ⟨source, hsource, need, hneed, hsame, hsubject⟩ := hraised.raised
  have hitems : source.items ≠ [] := List.ne_nil_of_mem hneed
  obtain ⟨-, -, -, hmissing, hreceipt, habout⟩ := clean_of_needsYou hverdict
  have hjudged : judgedSource record.proposal (verdictOn record.proposal ctx) ctx = .ok source :=
    (proposalSource_proposed hstatus).symm.trans hsource
  obtain ⟨room, items, -, houtcome, -, rfl⟩ :=
    (judgedSource_needsYou hverdict hmissing hreceipt habout).mp ⟨hjudged, hitems⟩
  obtain ⟨hname, hlooks⟩ := needsYouAmong_asks houtcome need hneed
  rw [hname, hid] at hsame
  rw [hlooks, hid] at hsubject
  obtain ⟨blind, hblind, hids, hexamined⟩ := projectAttention_about hkeyed hrecord hcycle hcls
  rw [stays_pending_iff hstored hentry hraised.pending, ← hsame, ← hsubject, hids, hexamined]
  have hseen : (⟨classOf record.proposal.type, .proposal, proposalId, .stagedProposal⟩ :
      ExaminedSubject) ∈ conclude record.proposal := by
    unfold conclude
    rw [hid]
    exact List.mem_singleton.mpr rfl
  cases hmachine : proposerIsMachine record.proposal.proposer with
  | true =>
    obtain ⟨hconcluded, hrefused⟩ := blind_machine hstatus hmachine hverdict hmisses hwindow
    by_cases hdiscredited : Discredited record.proposal window
    · obtain rfl := Except.ok.inj (hblind.symm.trans (hconcluded hdiscredited))
      exact ⟨fun h => absurd (h hseen) (List.not_mem_nil), fun h => absurd hdiscredited h⟩
    · obtain ⟨refusals, hsilent⟩ := hrefused hdiscredited
      obtain rfl := Except.ok.inj (hblind.symm.trans hsilent)
      exact ⟨fun _ => hdiscredited, fun _ h => absurd h (List.not_mem_nil)⟩
  | false =>
    have hsound : ¬ Discredited record.proposal window := by
      intro hdiscredited
      rw [hdiscredited.machine] at hmachine
      cases hmachine
    refine ⟨fun _ => hsound, fun _ hlooked => ?_⟩
    cases hproposer : record.proposal.proposer with
    | model model =>
      rw [hproposer] at hmachine
      cases hmachine
    | agent userId =>
      rw [hproposer] at hmachine
      cases hmachine
    | human staged =>
      rcases blind_human hstatus hproposer hverdict hsource hitems hmisses hwindow hmembers with
        ⟨refusals, hsilent⟩ | ⟨again, hagain, hagainIds⟩
      · obtain rfl := Except.ok.inj (hblind.symm.trans hsilent)
        cases hlooked
      · obtain rfl := Except.ok.inj (hblind.symm.trans hagain)
        rw [hagainIds, List.mem_map]
        exact ⟨need, hneed, by rw [hname, hid]⟩

end Projected


end Cycle

/-! ## Witnesses -/

section Witnesses

def linkedPlan : String := "We ship [it](u) on Fridays."

def plainPlan : String := "We ship it u on Fridays."

def linkedMessage : ProvenanceMessage := ⟨"m1", "bob", linkedPlan⟩
def plainMessage : ProvenanceMessage := ⟨"m2", "bob", plainPlan⟩

def lunchMessage : ProvenanceMessage := ⟨"m3", "alice", "Lunch."⟩

def windowContext (window : List ProvenanceMessage) : AttentionContext :=
  { plainContext with messages := some window }

/-- A model reads the two messages as a decision of Bob's. -/
def linkedReading : Proposal where
  stored := ⟨"p", "room", ⟨99, 2⟩, .model "reader", ["m1", "m2"], some linkedPlan, none,
    "2026-01-01T00:00:00.000Z", .decision ⟨linkedPlan, some "bob", .active⟩⟩
  status := .proposed

def stagedLinked : CoreState :=
  @offerAll Unicode.ascii [⟨⟨"e1", "2026-01-01T00:00:01.000Z", .proposalRecorded linkedReading⟩,
    ⟨.model "reader", none⟩⟩]

def planNeed : Need :=
  decisionNeed plainContext linkedReading.stored (.decisionPending linkedPlan true) "bob"

theorem plan_raised : ∃ record, stagedLinked.proposal? "p" = some record ∧
    record.proposal = linkedReading.stored ∧ record.status = .proposed ∧
    (@verdictOn Unicode.ascii record.proposal
      (windowContext [linkedMessage, plainMessage, lunchMessage])).visibility = .needsYou ∧
    @RaisedFor Unicode.ascii record (windowContext [linkedMessage, plainMessage, lunchMessage])
      (item planNeed).toAttentionItem := by
  let _ : Unicode := Unicode.ascii
  obtain ⟨record, hrecord, hproposal, hstatus⟩ := exists_of_waitsAs
    (show waitsAs linkedReading.stored (stagedLinked.proposal? "p") = true by decide +kernel)
  have hverdict : (verdictOn linkedReading.stored
      (windowContext [linkedMessage, plainMessage, lunchMessage])).visibility = .needsYou := by
    decide +kernel
  have hasked : needsYouAmong [] linkedReading.stored (verdictOn linkedReading.stored
      (windowContext [linkedMessage, plainMessage, lunchMessage]))
        (windowContext [linkedMessage, plainMessage, lunchMessage]) = .raise [planNeed] := rfl
  obtain ⟨-, -, -, hmissing, hreceipt, habout⟩ := clean_of_needsYou hverdict
  obtain ⟨hsource, -⟩ := (judgedSource_needsYou hverdict hmissing hreceipt habout).mpr
    ⟨[], [planNeed], rfl, hasked, List.cons_ne_nil _ _, rfl⟩
  have hraised : RaisedFor record (windowContext [linkedMessage, plainMessage, lunchMessage])
      (item planNeed).toAttentionItem := by
    have hpass := (proposalSource_proposed hstatus).trans (hproposal.symm ▸ hsource)
    exact ⟨rfl, _, hpass, planNeed, List.mem_singleton.mpr rfl, rfl, rfl⟩
  refine ⟨record, hrecord, hproposal, hstatus, ?_, hraised⟩
  rw [hproposal]
  exact hverdict

theorem misses_linked {record : ProposalRecord} (h : record.proposal = linkedReading.stored) :
    Misses [plainMessage, lunchMessage] record.proposal ∧
      Misses [linkedMessage, lunchMessage] record.proposal := by
  rw [h]
  exact ⟨⟨"m1", by decide, by decide⟩, "m2", by decide, by decide⟩

/-- The message with the link is deleted; the other one still bears the quote, and the cycle takes the
reading to have made the link up. -/
theorem deleted_link_resolves_item :
    ¬ ∀ (state : CoreState) (proposalId : Id) (record : ProposalRecord) (ctx : AttentionContext)
      (full window : List ProvenanceMessage) (stored : List AttentionItem) (entry : AttentionItem)
      (cycle : AttentionProjection), @Reached Unicode.ascii anyEvent state →
      state.proposal? proposalId = some record → record.status = .proposed →
      ctx.messages = some full → (@verdictOn Unicode.ascii record.proposal ctx).visibility = .needsYou →
      UniqueIds stored → entry ∈ stored → @RaisedFor Unicode.ascii record ctx entry →
      window.Sublist full → Misses window record.proposal →
      @projectAttention Unicode.ascii state { ctx with messages := some window } = .ok cycle →
      ∃ kept ∈ panelAfter stored cycle, kept.id = entry.id ∧ kept.status = .pending := by
  let _ : Unicode := Unicode.ascii
  intro h
  obtain ⟨record, hrecord, hproposal, hstatus, hverdict, hraised⟩ := plan_raised
  obtain ⟨cycle, hcycle, hitems, hseen⟩ := exists_of_raisesJust
    (show raisesJust [] (item planNeed).subject (projectAttention stagedLinked
      (windowContext [plainMessage, lunchMessage])) = true by decide +kernel)
  have hunique : UniqueIds [(item planNeed).toAttentionItem] := List.nodup_singleton _
  have hentry := List.mem_singleton_self (item planNeed).toAttentionItem
  have hreached : Reached anyEvent stagedLinked := reached_offerAll fun _ _ _ => trivial
  have hkept := h stagedLinked "p" record (windowContext [linkedMessage, plainMessage, lunchMessage])
    [linkedMessage, plainMessage, lunchMessage] [plainMessage, lunchMessage] _ _ cycle
    hreached hrecord hstatus rfl hverdict hunique hentry hraised
    (List.sublist_cons_self _ _) (misses_linked hproposal).1 hcycle
  have hids := (stays_pending_iff hunique hentry rfl).mp hkept hseen
  unfold AttentionProjection.ids at hids
  rw [hitems] at hids
  cases hids

/-- The message without the link is deleted: the other one still says what the model read. -/
theorem deleted_repetition_keeps_item : ∃ cycle,
    @projectAttention Unicode.ascii stagedLinked (windowContext [linkedMessage, lunchMessage]) =
      .ok cycle ∧
    ∃ kept ∈ panelAfter [(item planNeed).toAttentionItem] cycle,
      kept.id = planNeed.id ∧ kept.status = .pending := by
  let _ : Unicode := Unicode.ascii
  obtain ⟨record, hrecord, hproposal, hstatus, hverdict, hraised⟩ := plan_raised
  obtain ⟨cycle, hcycle⟩ : ∃ cycle,
      projectAttention stagedLinked (windowContext [linkedMessage, lunchMessage]) = .ok cycle := by
    have hok : (projectAttention stagedLinked
        (windowContext [linkedMessage, lunchMessage])).isOk = true := by
      decide +kernel
    cases hcycle : projectAttention stagedLinked (windowContext [linkedMessage, lunchMessage]) with
    | error e =>
      rw [hcycle] at hok
      cases hok
    | ok cycle => exact ⟨cycle, rfl⟩
  have hreached : Reached anyEvent stagedLinked := reached_offerAll fun _ _ _ => trivial
  have hmembers : (windowContext [linkedMessage, lunchMessage]).members =
      (windowContext [linkedMessage, plainMessage, lunchMessage]).members := rfl
  have hwindow : (windowContext [linkedMessage, lunchMessage]).messages =
      some [linkedMessage, lunchMessage] := rfl
  have hunique : UniqueIds [(item planNeed).toAttentionItem] := List.nodup_singleton _
  have hentry := List.mem_singleton_self (item planNeed).toAttentionItem
  refine ⟨cycle, hcycle, (blind_cycle_keeps_iff hreached hrecord hstatus hverdict hunique hentry
    hraised hmembers hwindow (misses_linked hproposal).2 hcycle).mpr ?_⟩
  rw [hproposal]
  rintro ⟨-, -, -, message, hbearing, hadds, -⟩
  have hlinked : bearingOf (bearingMessages (proposalSubject linkedReading.stored).trimmedQuote
      (citedMessages linkedReading.stored.provenance [linkedMessage, lunchMessage])) =
        some linkedMessage := by
    decide +kernel
  obtain rfl := Option.some.inj (hlinked.symm.trans hbearing)
  rcases hadds with hadds | hadds
  · exact hadds (by decide +kernel)
  · exact hadds (by decide +kernel)

end Witnesses

end Core
