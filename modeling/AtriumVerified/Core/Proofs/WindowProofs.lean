import AtriumVerified.Core.Panels
import AtriumVerified.Core.Proofs.FindingProofs

/-!
# Proofs: receipts against windows that lost messages

What is read from the cited messages of a window that lost one of them is said of the window. One pair
of checks escapes that: the Markdown of a statement is compared with the message that bears the quote,
and what comes out is said of the reading, whichever message that is in the window.
-/

namespace Core

/-! ## Checks that do not depend on the window -/

section Checks

variable {subject : ProvenanceSubject} {quote : Text} {inFullText inOwnText cited : List ProvenanceMessage}
  {bearing other : Option ProvenanceMessage} {finding : Finding}

theorem location_eq_nil :
    locationFindings quote inFullText inOwnText = [] ↔
      inFullText ≠ [] ∧ inOwnText ≠ [] ∧ (authorsOf inOwnText).length ≤ 1 := by
  unfold locationFindings
  dsimp only
  rw [List.append_eq_nil_iff]
  constructor
  · rintro ⟨hplace, hambiguous⟩
    refine ⟨?_, ?_, ?_⟩
    · rintro rfl
      cases inOwnText with
      | nil =>
        dsimp only at hplace
        split at hplace <;> cases hplace
      | cons first rest =>
        dsimp only at hplace
        split at hplace <;> cases hplace
    · rintro rfl
      cases inFullText with
      | nil =>
        dsimp only at hplace
        split at hplace <;> cases hplace
      | cons first rest => cases hplace
    · by_contra hseveral
      rw [if_pos (by omega)] at hambiguous
      cases hambiguous
  · rintro ⟨hfull, hown, hone⟩
    refine ⟨?_, if_neg (by omega)⟩
    obtain ⟨first, rest, rfl⟩ := List.exists_cons_of_ne_nil hfull
    obtain ⟨bearer, others, rfl⟩ := List.exists_cons_of_ne_nil hown
    rfl

theorem attribution_rejects {message : ProvenanceMessage} {ambiguous : Bool} (hcited : cited ≠ []) :
    (∃ finding ∈ attributionFindings subject cited (some message) ambiguous,
      finding.severity = .reject) ↔
      subject.type = .claim ∧ ∃ claimant, subject.attributed = some claimant ∧
        message.authorId ≠ claimant := by
  have hpresent : cited.isEmpty = false := by simpa using hcited
  unfold attributionFindings
  cases hattributed : subject.attributed with
  | none => simp
  | some claimant =>
    cases htype : subject.type with
    | openQuestion => simp [attributionField]
    | objective => simp [attributionField]
    | decision => by_cases hown : message.authorId = claimant <;> simp [attributionField, hown]
    | commitment => by_cases hown : message.authorId = claimant <;> simp [attributionField, hown]
    | claim =>
      by_cases hown : message.authorId = claimant <;> simp [attributionField, hown, hpresent]

theorem structure_eq_nil {message : ProvenanceMessage} :
    structureFindings subject (some message) = [] ↔
      addedLinkStructure message.text (subject.statement.getD []) = [] ∧
        addedBlockStructure message.text (subject.statement.getD []) = [] := by
  unfold structureFindings
  dsimp only
  rw [List.append_eq_nil_iff]
  simp only [Option.map_some, Option.getD_some, List.isEmpty_iff, ite_eq_left_iff, List.cons_ne_self,
    imp_false, not_not]

variable [Unicode]

theorem span_refers (h : Passed (spanFindings quote other receiptPolicy))
    (hfinding : finding ∈ spanFindings quote bearing receiptPolicy) : finding.severity = .refer := by
  have hlong : ¬ Js.length (normalizeForReceipt quote) < receiptPolicy.minQuoteLength := by
    intro hshort
    unfold spanFindings at h
    dsimp only at h
    rw [passed_append, if_pos hshort] at h
    exact not_passed_one (Or.inl rfl) h.1
  unfold spanFindings at hfinding
  dsimp only at hfinding
  rw [if_neg hlong, List.nil_append] at hfinding
  cases bearing with
  | none => cases hfinding
  | some message =>
    dsimp only at hfinding
    split at hfinding
    · rw [List.mem_singleton.mp hfinding]
    · split at hfinding
      · rw [List.mem_singleton.mp hfinding]
      · split at hfinding
        · rw [List.mem_singleton.mp hfinding]
        · cases hfinding

theorem bearing_nil (h : Passed (bearingFindings subject quote other receiptPolicy)) :
    bearingFindings subject quote bearing receiptPolicy = [] :=
  (bearing_cases h).2 bearing

end Checks

/-! ## Windows that lost a citation -/

section Windows

variable {proposal : StoredProposal} {subject : ProvenanceSubject}
  {window : List ProvenanceMessage} {finding : Finding}

theorem holdsCitations_of_misses (h : Misses window proposal) :
    holdsCitations (proposalSubject proposal) window = false := by
  obtain ⟨id, hid, hnone⟩ := h
  unfold holdsCitations
  rw [List.all_eq_false]
  exact ⟨id, hid, by simp [hnone]⟩

theorem about_reading_iff (h : Misses window proposal) :
    (sealFinding (proposalSubject proposal) window finding).about = .theReading ↔
      problemEvidence finding.kind = .theProposal := by
  unfold sealFinding problemSubject
  rw [holdsCitations_of_misses h]
  cases problemEvidence finding.kind with
  | theProposal => simp
  | theCitedMessages => simp
  | theWindow => simp

theorem proposal_structure {message : ProvenanceMessage} :
    structureFindings (proposalSubject proposal) (some message) ≠ [] ↔
      addedLinkStructure message.text proposal.payload.text.toList ≠ [] ∨
        addedBlockStructure message.text proposal.payload.text.toList ≠ [] := by
  have hstatement : (proposalSubject proposal).statement.getD [] = proposal.payload.text.toList := rfl
  rw [ne_eq, structure_eq_nil, hstatement, not_and_or]

variable [Unicode]

theorem validate_of_misses (h : Misses window proposal) :
    validateProposalProvenance (proposalSubject proposal) window receiptPolicy =
      (receiptFindings (proposalSubject proposal) window).map
        (sealFinding (proposalSubject proposal) window) := by
  apply validate_of_cites
  obtain ⟨id, hid, -⟩ := h
  rw [List.isEmpty_eq_false_iff]
  exact List.ne_nil_of_mem hid

theorem referring_of_misses (h : Misses window proposal) :
    ∃ problem ∈ referringProblems (validateProposalProvenance (proposalSubject proposal) window
      receiptPolicy), problem.about = .theWindow := by
  rw [validate_of_misses h]
  obtain ⟨id, hid, hnone⟩ := h
  have hlost : id ∈ (proposalSubject proposal).provenance.filter fun id =>
      (messageById window id).isNone := List.mem_filter.mpr ⟨hid, by simp [hnone]⟩
  obtain ⟨finding, hfinding⟩ : ∃ finding,
      finding ∈ unknownMessageFindings (proposalSubject proposal) window := by
    apply List.exists_mem_of_ne_nil
    unfold unknownMessageFindings
    rw [ne_eq, List.map_eq_nil_iff]
    exact List.ne_nil_of_mem hlost
  obtain ⟨hkind, hseverity⟩ := unknownMessage_reports hfinding
  refine ⟨sealFinding (proposalSubject proposal) window finding, ?_, ?_⟩
  · refine List.mem_filter.mpr ⟨List.mem_map_of_mem ?_, ?_⟩
    · unfold receiptFindings
      simp only [List.mem_append]
      exact Or.inl (Or.inl (Or.inl hfinding))
    · exact beq_iff_eq.mpr hseverity
  · unfold sealFinding problemSubject
    rw [hkind]
    rfl

theorem rejected_reading_iff (h : Misses window proposal) :
    (rejectingProblems (validateProposalProvenance (proposalSubject proposal) window
        receiptPolicy) ≠ [] ∧
      isAboutTheWindow (rejectingProblems (validateProposalProvenance (proposalSubject proposal) window
        receiptPolicy)) = false) ↔
      (∃ finding ∈ receiptFindings (proposalSubject proposal) window, finding.severity = .reject) ∧
        ∀ finding ∈ receiptFindings (proposalSubject proposal) window, finding.severity = .reject →
          problemEvidence finding.kind = .theProposal := by
  have hmem (problem : ProvenanceProblem) : problem ∈ rejectingProblems
      (validateProposalProvenance (proposalSubject proposal) window receiptPolicy) ↔
        ∃ finding ∈ receiptFindings (proposalSubject proposal) window,
          finding.severity = .reject ∧
            sealFinding (proposalSubject proposal) window finding = problem := by
    rw [validate_of_misses h]
    unfold rejectingProblems
    rw [List.mem_filter, List.mem_map]
    constructor
    · rintro ⟨⟨finding, hfinding, rfl⟩, hseverity⟩
      exact ⟨finding, hfinding, beq_iff_eq.mp hseverity, rfl⟩
    · rintro ⟨finding, hfinding, hseverity, rfl⟩
      exact ⟨⟨finding, hfinding, rfl⟩, beq_iff_eq.mpr hseverity⟩
  constructor
  · rintro ⟨hsome, hreading⟩
    refine ⟨?_, ?_⟩
    · obtain ⟨problem, hproblem⟩ := List.exists_mem_of_ne_nil _ hsome
      obtain ⟨finding, hfinding, hseverity, -⟩ := (hmem problem).mp hproblem
      exact ⟨finding, hfinding, hseverity⟩
    · intro finding hfinding hseverity
      have hsealed := (hmem _).mpr ⟨finding, hfinding, hseverity, rfl⟩
      have hnot := List.any_eq_false.mp hreading _ hsealed
      rw [← about_reading_iff h]
      cases habout : (sealFinding (proposalSubject proposal) window finding).about with
      | theReading => rfl
      | theWindow => simp [habout] at hnot
  · rintro ⟨⟨finding, hfinding, hseverity⟩, hall⟩
    refine ⟨List.ne_nil_of_mem ((hmem _).mpr ⟨finding, hfinding, hseverity, rfl⟩), ?_⟩
    unfold isAboutTheWindow
    rw [List.any_eq_false]
    intro problem hproblem
    obtain ⟨other, hother, hsevere, rfl⟩ := (hmem problem).mp hproblem
    rw [(about_reading_iff h).mpr (hall other hother hsevere)]
    decide

/-- What a clean receipt settles for every window: the quote is there, is long enough and is the
statement. -/
structure Borne (subject : ProvenanceSubject) : Prop where
  quoted : (normalizeForReceipt subject.trimmedQuote).isEmpty = false
  long : ∃ bearing, Passed (spanFindings subject.trimmedQuote bearing receiptPolicy)
  stated : ∃ bearing, Passed (bearingFindings subject subject.trimmedQuote bearing receiptPolicy)

theorem borne_of_passed {full : List ProvenanceMessage} (hmachine : subject.fromMachine = true)
    (h : ∀ problem ∈ validateProposalProvenance subject full receiptPolicy,
      problem.severity ≠ .reject ∧ problem.severity ≠ .refer) : Borne subject := by
  obtain ⟨-, ⟨inFullText, hlocation⟩, hspan, -, -, hbearing, -⟩ := passed_findings hmachine h
  refine ⟨?_, ⟨_, hspan⟩, ⟨_, hbearing⟩⟩
  obtain ⟨hbearers, -⟩ := location_passed hlocation
  by_contra hempty
  rw [Bool.not_eq_false] at hempty
  apply hbearers
  unfold ProvenanceSubject.bearers bearingMessages
  dsimp only
  rw [if_pos hempty]

def placeFindings (subject : ProvenanceSubject) (window : List ProvenanceMessage) : List Finding :=
  locationFindings subject.trimmedQuote
    ((citedMessages subject.provenance window).filter fun message =>
      Js.includes (normalizeForReceipt message.text) (normalizeForReceipt subject.trimmedQuote))
    (subject.bearers window)

/-- Which findings can still reject a machine's reading whose receipt was clean. -/
theorem rejecting_of_borne (hborne : Borne subject) (hmachine : subject.fromMachine = true)
    (hfinding : finding ∈ receiptFindings subject window) (hreject : finding.severity = .reject) :
    (quoteIsChecked subject window = true ∧ (finding ∈ placeFindings subject window ∨
      finding ∈ structureFindings subject (bearingIn subject window))) ∨
      finding ∈ attributionFindings subject (citedMessages subject.provenance window)
        (bearingIn subject window)
        (quoteIsChecked subject window && 1 < (authorsOf (subject.bearers window)).length) := by
  unfold receiptFindings at hfinding
  simp only [List.mem_append] at hfinding
  rcases hfinding with ((hunknown | hmissing) | hquoted) | hattribution
  · have hrefer := (unknownMessage_reports hunknown).2
    rw [hreject] at hrefer
    cases hrefer
  · unfold missingQuoteFindings at hmissing
    rw [hborne.quoted, Bool.and_false] at hmissing
    cases hmissing
  · split at hquoted
    · next hchecked =>
      refine Or.inl ⟨hchecked, ?_⟩
      rw [List.mem_append] at hquoted
      rcases hquoted with hplace | hquoted
      · exact Or.inl hplace
      · unfold machineFindings at hquoted
        simp only [List.mem_append] at hquoted
        rcases hquoted with (((hspan | hrevision) | hmood) | hstructure) | hbearing
        · obtain ⟨bearing, hlong⟩ := hborne.long
          have hrefer := span_refers hlong hspan
          rw [hreject] at hrefer
          cases hrefer
        · have hrefer := (revision_reports hrevision).2
          rw [hreject] at hrefer
          cases hrefer
        · have hrefer := (mood_reports hmood).2
          rw [hreject] at hrefer
          cases hrefer
        · exact Or.inr hstructure
        · obtain ⟨bearing, hstated⟩ := hborne.stated
          rw [bearing_nil hstated] at hbearing
          cases hbearing
    · cases hquoted
  · exact Or.inr hattribution

theorem bearingIn_eq_some {message : ProvenanceMessage}
    (h : bearingOf (subject.bearers window) = some message) : bearingIn subject window = some message := by
  have hbearers : subject.bearers window ≠ [] := by
    intro hnone
    rw [hnone] at h
    cases h
  have hchecked : quoteIsChecked subject window = true := by
    unfold ProvenanceSubject.bearers bearingMessages at hbearers
    dsimp only at hbearers
    unfold quoteIsChecked
    split at hbearers
    · exact absurd rfl hbearers
    · next hquoted =>
      have hcited : citedMessages subject.provenance window ≠ [] := by
        rintro hnone
        rw [hnone] at hbearers
        exact hbearers rfl
      simpa [hquoted] using hcited
  unfold bearingIn
  rw [if_pos hchecked]
  exact h

theorem place_eq_nil (h : placeFindings subject window = []) :
    (∃ cited ∈ citedMessages subject.provenance window,
      Js.includes (normalizeForReceipt cited.text) (normalizeForReceipt subject.trimmedQuote) = true) ∧
      ∃ message, bearingOf (subject.bearers window) = some message := by
  obtain ⟨hfull, hown, hone⟩ := location_eq_nil.mp h
  obtain ⟨cited, hcited⟩ := List.exists_mem_of_ne_nil _ hfull
  obtain ⟨hcited, hstands⟩ := List.mem_filter.mp hcited
  obtain ⟨message, -, hbearing⟩ := bearingOf_some hown hone
  exact ⟨⟨cited, hcited, hstands⟩, message, hbearing⟩

theorem place_eq_nil_of_stands {cited message : ProvenanceMessage}
    (hcited : cited ∈ citedMessages subject.provenance window)
    (hstands : Js.includes (normalizeForReceipt cited.text)
      (normalizeForReceipt subject.trimmedQuote) = true)
    (hbearing : bearingOf (subject.bearers window) = some message) :
    placeFindings subject window = [] := by
  refine location_eq_nil.mpr ⟨?_, ?_, ?_⟩
  · exact List.ne_nil_of_mem (List.mem_filter.mpr ⟨hcited, hstands⟩)
  · intro hnone
    rw [hnone] at hbearing
    cases hbearing
  · unfold bearingOf at hbearing
    split at hbearing
    · cases hbearing
    · omega

/-- A machine's reading whose receipt was clean is rejected, and not for what the window lacks, exactly
when what is left of the window contradicts it. -/
theorem rejected_reading_iff_discredited (h : Misses window proposal)
    (hmachine : proposerIsMachine proposal.proposer = true) (hborne : Borne (proposalSubject proposal))
    (hworded : absentWindow (some window) = none) :
    (rejectingProblems (validateProposalProvenance (proposalSubject proposal) window
        receiptPolicy) ≠ [] ∧
      isAboutTheWindow (rejectingProblems (validateProposalProvenance (proposalSubject proposal) window
        receiptPolicy)) = false) ↔ Discredited proposal window := by
  have hfrom : (proposalSubject proposal).fromMachine = true := hmachine
  rw [rejected_reading_iff h]
  constructor
  · rintro ⟨⟨finding, hfinding, hreject⟩, hreading⟩
    -- Neither the place of the quote nor its author is at issue: both would be said of the window.
    have hrest : ∀ other ∈ attributionFindings (proposalSubject proposal)
        (citedMessages proposal.provenance window) (bearingIn (proposalSubject proposal) window)
        (quoteIsChecked (proposalSubject proposal) window &&
          1 < (authorsOf ((proposalSubject proposal).bearers window)).length),
        other.severity ≠ .reject := by
      intro other hother hsevere
      have hevidence := hreading other (by
        unfold receiptFindings
        exact List.mem_append_right _ hother) hsevere
      rw [(attribution_reports hother).1] at hevidence
      cases hevidence
    rcases rejecting_of_borne hborne hfrom hfinding hreject with ⟨hchecked, hquoted⟩ | hattribution
    · have hplace : placeFindings (proposalSubject proposal) window = [] := by
        rw [List.eq_nil_iff_forall_not_mem]
        intro other hother
        obtain ⟨hcited, hsevere⟩ := location_reports hother
        have hevidence := hreading other (by
          unfold receiptFindings
          rw [if_pos hchecked]
          simp only [List.mem_append]
          exact Or.inl (Or.inr (Or.inl hother))) hsevere
        rw [hcited] at hevidence
        cases hevidence
      obtain ⟨hstanding, message, hbearing⟩ := place_eq_nil hplace
      rw [hplace, bearingIn_eq_some hbearing] at hquoted
      rw [bearingIn_eq_some hbearing] at hrest
      rcases hquoted with hnone | hstructure
      · cases hnone
      · refine ⟨hmachine, hworded, hstanding, message, hbearing, ?_, ?_⟩
        · exact proposal_structure.mp (List.ne_nil_of_mem hstructure)
        · intro hclaim claimant hclaimant
          by_contra hother
          have hcited : citedMessages proposal.provenance window ≠ [] := by
            obtain ⟨cited, hcited, -⟩ := hstanding
            exact List.ne_nil_of_mem hcited
          obtain ⟨other, hmem, hsevere⟩ := (attribution_rejects hcited).mpr
            ⟨hclaim, claimant, hclaimant, hother⟩
          exact hrest other hmem hsevere
    · exact absurd hreject (hrest finding hattribution)
  · rintro ⟨-, -, ⟨cited, hcited, hstands⟩, message, hbearing, hadds, hclaimant⟩
    have hplace : placeFindings (proposalSubject proposal) window = [] :=
      place_eq_nil_of_stands hcited hstands hbearing
    have hin : bearingIn (proposalSubject proposal) window = some message :=
      bearingIn_eq_some hbearing
    refine ⟨?_, ?_⟩
    · have hchecked : quoteIsChecked (proposalSubject proposal) window = true := by
        by_contra hunchecked
        unfold bearingIn at hin
        rw [if_neg hunchecked] at hin
        cases hin
      obtain ⟨finding, hfinding⟩ := List.exists_mem_of_ne_nil _ (proposal_structure.mpr hadds)
      refine ⟨finding, ?_, (structure_reports hfinding).2⟩
      unfold receiptFindings machineFindings
      rw [if_pos hchecked, if_pos hfrom, hin]
      simp only [List.mem_append]
      exact Or.inl (Or.inr (Or.inr (Or.inl (Or.inr hfinding))))
    · intro finding hfinding hreject
      rcases rejecting_of_borne hborne hfrom hfinding hreject with
        ⟨-, hnone | hstructure⟩ | hattribution
      · rw [hplace] at hnone
        cases hnone
      · exact (structure_reports hstructure).1
      · rw [hin] at hattribution
        obtain ⟨hclaim, claimant, hnamed, hother⟩ :=
          (attribution_rejects (List.ne_nil_of_mem hcited)).mp ⟨finding, hattribution, hreject⟩
        exact absurd (hclaimant hclaim claimant hnamed) hother

/-- A person's staging is rejected for what the window lacks, if at all. -/
theorem rejected_human_staging (h : Misses window proposal)
    (hhuman : proposerIsMachine proposal.proposer = false) :
    rejectingProblems (validateProposalProvenance (proposalSubject proposal) window
        receiptPolicy) = [] ∨
      isAboutTheWindow (rejectingProblems (validateProposalProvenance (proposalSubject proposal) window
        receiptPolicy)) = true := by
  by_contra hboth
  rw [not_or, Bool.not_eq_true] at hboth
  obtain ⟨⟨finding, hfinding, hreject⟩, hreading⟩ := (rejected_reading_iff h).mp hboth
  have hevidence := hreading finding hfinding hreject
  have hfrom : (proposalSubject proposal).fromMachine = false := hhuman
  unfold receiptFindings at hfinding
  simp only [List.mem_append] at hfinding
  rcases hfinding with ((hunknown | hmissing) | hquoted) | hattribution
  · have hrefer := (unknownMessage_reports hunknown).2
    rw [hreject] at hrefer
    cases hrefer
  · unfold missingQuoteFindings at hmissing
    rw [hfrom, Bool.false_and] at hmissing
    cases hmissing
  · rw [hfrom] at hquoted
    split at hquoted
    · rw [List.mem_append] at hquoted
      rcases hquoted with hplace | hnone
      · rw [(location_reports hplace).1] at hevidence
        cases hevidence
      · cases hnone
    · cases hquoted
  · rw [(attribution_reports hattribution).1] at hevidence
    cases hevidence

end Windows

end Core
