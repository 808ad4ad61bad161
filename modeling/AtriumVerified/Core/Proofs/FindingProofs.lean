import AtriumVerified.Core.Proofs.ReceiptProofs

/-!
# Proofs: what the checks of a receipt report

One lemma for each check of `validateProposalProvenance`: which problems it can report, how severe they
are and what they were read from. What a verdict can rest on is then a matter of the kinds of the
problems, not of the checks.
-/

namespace Core

section Checks

variable {subject : ProvenanceSubject} {messages cited : List ProvenanceMessage} {finding : Finding}
  {bearing : Option ProvenanceMessage} {quote : Text}

theorem unknownMessage_reports (h : finding ∈ unknownMessageFindings subject messages) :
    finding.kind = .unknownMessage ∧ finding.severity = .refer := by
  obtain ⟨id, -, rfl⟩ := List.mem_map.mp h
  exact ⟨rfl, rfl⟩

theorem location_reports {inFullText inOwnText : List ProvenanceMessage}
    (h : finding ∈ locationFindings quote inFullText inOwnText) :
    problemEvidence finding.kind = .theCitedMessages ∧ finding.severity = .reject := by
  unfold locationFindings at h
  dsimp only at h
  rw [List.mem_append] at h
  rcases h with h | h
  · split at h
    · rw [List.mem_singleton.mp h]
      exact ⟨rfl, rfl⟩
    · split at h
      · rw [List.mem_singleton.mp h]
        exact ⟨rfl, rfl⟩
      · rw [List.mem_singleton.mp h]
        exact ⟨rfl, rfl⟩
    · cases h
  · split at h
    · rw [List.mem_singleton.mp h]
      exact ⟨rfl, rfl⟩
    · cases h

theorem attribution_reports {ambiguous : Bool}
    (h : finding ∈ attributionFindings subject cited bearing ambiguous) :
    finding.kind = .attributedPersonNotAuthor ∧
      finding.severity =
        if subject.type == .commitment || subject.type == .decision then .reclassify
        else .reject := by
  unfold attributionFindings at h
  split at h
  · dsimp only at h
    split at h
    · split at h
      · cases h
      · rw [List.mem_singleton.mp h]
        exact ⟨rfl, rfl⟩
    · split at h
      · cases h
      · rw [List.mem_singleton.mp h]
        exact ⟨rfl, rfl⟩
  · cases h

theorem structure_reports (h : finding ∈ structureFindings subject bearing) :
    problemEvidence finding.kind = .theProposal ∧ finding.severity = .reject := by
  unfold structureFindings at h
  dsimp only at h
  rw [List.mem_append] at h
  rcases h with h | h
  · split at h
    · cases h
    · rw [List.mem_singleton.mp h]
      exact ⟨rfl, rfl⟩
  · split at h
    · cases h
    · rw [List.mem_singleton.mp h]
      exact ⟨rfl, rfl⟩

theorem mood_reports (h : finding ∈ moodFindings subject bearing) :
    problemEvidence finding.kind = .theProposal ∧ finding.severity = .refer := by
  unfold moodFindings at h
  dsimp only at h
  split at h
  · split at h
    · cases h
    · rw [List.mem_singleton.mp h]
      exact ⟨rfl, rfl⟩
  · split at h
    · cases h
    · rw [List.mem_singleton.mp h]
      exact ⟨rfl, rfl⟩

variable [Unicode]

theorem missingQuote_reports (h : finding ∈ missingQuoteFindings subject) :
    finding.kind = .missingQuote ∧ finding.severity = .reject := by
  unfold missingQuoteFindings at h
  split at h
  · rw [List.mem_singleton.mp h]
    exact ⟨rfl, rfl⟩
  · cases h

theorem span_reports (h : finding ∈ spanFindings quote bearing receiptPolicy) :
    (finding.kind = .quoteTooShort ∧ finding.severity = .reject) ∨
      (problemEvidence finding.kind = .theCitedMessages ∧ finding.severity = .refer) := by
  unfold spanFindings at h
  dsimp only at h
  rw [List.mem_append] at h
  rcases h with h | h
  · split at h
    · rw [List.mem_singleton.mp h]
      exact Or.inl ⟨rfl, rfl⟩
    · cases h
  · cases bearing with
    | none => cases h
    | some message =>
      dsimp only at h
      split at h
      · rw [List.mem_singleton.mp h]
        exact Or.inr ⟨rfl, rfl⟩
      · split at h
        · rw [List.mem_singleton.mp h]
          exact Or.inr ⟨rfl, rfl⟩
        · split at h
          · rw [List.mem_singleton.mp h]
            exact Or.inr ⟨rfl, rfl⟩
          · cases h

theorem revision_reports (h : finding ∈ revisionFindings subject messages receiptPolicy) :
    finding.kind = .supersededByLaterMessage ∧ finding.severity = .refer := by
  unfold revisionFindings at h
  split at h
  · split at h
    · rw [List.mem_singleton.mp h]
      exact ⟨rfl, rfl⟩
    · rw [List.mem_singleton.mp h]
      exact ⟨rfl, rfl⟩
    · cases h
  · cases h

theorem bearing_reports (h : finding ∈ bearingFindings subject quote bearing receiptPolicy) :
    problemEvidence finding.kind = .theProposal ∧
      (finding.severity = .reject ∨ finding.severity = .refer) := by
  unfold bearingFindings at h
  dsimp only at h
  split at h
  · rw [List.mem_singleton.mp h]
    exact ⟨rfl, Or.inl rfl⟩
  · rw [List.mem_singleton.mp h]
    exact ⟨rfl, Or.inr rfl⟩
  · rw [List.mem_singleton.mp h]
    exact ⟨rfl, Or.inl rfl⟩
  · split at h
    · cases h
    · split at h
      · rw [List.mem_singleton.mp h]
        exact ⟨rfl, Or.inl rfl⟩
      · split at h
        · rw [List.mem_singleton.mp h]
          exact ⟨rfl, Or.inr rfl⟩
        · split at h
          · rw [List.mem_singleton.mp h]
            exact ⟨rfl, Or.inl rfl⟩
          · rw [List.mem_singleton.mp h]
            exact ⟨rfl, Or.inl rfl⟩

end Checks

/-! ## The problems of a receipt -/

section Problems

variable [Unicode] {subject : ProvenanceSubject} {messages : List ProvenanceMessage}
  {problem : ProvenanceProblem}

/-- Whether the window has every message a receipt cites. -/
def holdsCitations (subject : ProvenanceSubject) (messages : List ProvenanceMessage) : Bool :=
  subject.provenance.all fun id => (messageById messages id).isSome

/-- A check of the quote against the messages that survive in the window ran. -/
def quoteIsChecked (subject : ProvenanceSubject) (messages : List ProvenanceMessage) : Bool :=
  !(normalizeForReceipt subject.trimmedQuote).isEmpty &&
    !(citedMessages subject.provenance messages).isEmpty

def bearingIn (subject : ProvenanceSubject) (messages : List ProvenanceMessage) :
    Option ProvenanceMessage :=
  if quoteIsChecked subject messages then bearingOf (subject.bearers messages) else none

/-- The findings of the checks a machine's receipt goes through. -/
def machineFindings (subject : ProvenanceSubject) (messages : List ProvenanceMessage) :
    List Finding :=
  spanFindings subject.trimmedQuote (bearingIn subject messages) receiptPolicy ++
    revisionFindings subject messages receiptPolicy ++
    moodFindings subject (bearingIn subject messages) ++
    structureFindings subject (bearingIn subject messages) ++
    bearingFindings subject subject.trimmedQuote (bearingIn subject messages) receiptPolicy

def receiptFindings (subject : ProvenanceSubject) (messages : List ProvenanceMessage) :
    List Finding :=
  unknownMessageFindings subject messages ++ missingQuoteFindings subject ++
    (if quoteIsChecked subject messages then
      locationFindings subject.trimmedQuote
          ((citedMessages subject.provenance messages).filter fun message =>
            Js.includes (normalizeForReceipt message.text)
              (normalizeForReceipt subject.trimmedQuote))
          (subject.bearers messages) ++
        (if subject.fromMachine then machineFindings subject messages else [])
    else []) ++
    attributionFindings subject (citedMessages subject.provenance messages)
      (bearingIn subject messages)
      (quoteIsChecked subject messages && 1 < (authorsOf (subject.bearers messages)).length)

/-- What a finding becomes once it is said what it is about. -/
def sealFinding (subject : ProvenanceSubject) (messages : List ProvenanceMessage)
    (finding : Finding) : ProvenanceProblem :=
  { finding with about := problemSubject finding.kind (holdsCitations subject messages) }

theorem validate_of_cites (h : subject.provenance.isEmpty = false) :
    validateProposalProvenance subject messages receiptPolicy =
      (receiptFindings subject messages).map (sealFinding subject messages) := by
  unfold validateProposalProvenance
  dsimp only
  rw [if_neg (by simp [h])]
  rfl

theorem machineFindings_severe {finding : Finding} (h : finding ∈ machineFindings subject messages) :
    finding.severity = .reject ∨ finding.severity = .refer := by
  unfold machineFindings at h
  simp only [List.mem_append] at h
  rcases h with (((h | h) | h) | h) | h
  · rcases span_reports h with ⟨-, hreject⟩ | ⟨-, hrefer⟩
    · exact Or.inl hreject
    · exact Or.inr hrefer
  · exact Or.inr (revision_reports h).2
  · exact Or.inr (mood_reports h).2
  · exact Or.inl (structure_reports h).2
  · exact (bearing_reports h).2

/-- Only a commitment or a decision has a problem that neither rejects nor refers. -/
theorem severe_of_type (hcommitment : subject.type ≠ .commitment) (hdecision : subject.type ≠ .decision)
    (h : problem ∈ validateProposalProvenance subject messages receiptPolicy) :
    problem.severity = .reject ∨ problem.severity = .refer := by
  cases hcites : subject.provenance.isEmpty with
  | true =>
    unfold validateProposalProvenance at h
    dsimp only at h
    rw [if_pos hcites] at h
    obtain ⟨finding, hfinding, rfl⟩ := List.mem_map.mp h
    split at hfinding
    · rw [List.mem_singleton.mp hfinding]
      exact Or.inl rfl
    · cases hfinding
  | false =>
    rw [validate_of_cites hcites] at h
    obtain ⟨finding, hfinding, rfl⟩ := List.mem_map.mp h
    unfold receiptFindings at hfinding
    simp only [List.mem_append] at hfinding
    rcases hfinding with ((hunknown | hmissing) | hquoted) | hattribution
    · exact Or.inr (unknownMessage_reports hunknown).2
    · exact Or.inl (missingQuote_reports hmissing).2
    · split at hquoted
      · rw [List.mem_append] at hquoted
        rcases hquoted with hlocation | hmachine
        · exact Or.inl (location_reports hlocation).2
        · split at hmachine
          · exact machineFindings_severe hmachine
          · cases hmachine
      · cases hquoted
    · have hseverity := (attribution_reports hattribution).2
      rw [if_neg (by simp [hcommitment, hdecision])] at hseverity
      exact Or.inl hseverity

theorem validate_congr_attributed {other : Option Id}
    (h : ({ subject with attributedTo := other } : ProvenanceSubject).attributed =
      subject.attributed) :
    validateProposalProvenance { subject with attributedTo := other } messages receiptPolicy =
      validateProposalProvenance subject messages receiptPolicy := by
  have hmissing : missingQuoteFindings { subject with attributedTo := other } =
      missingQuoteFindings subject := by
    unfold missingQuoteFindings
    rw [h]
    rfl
  have hattribution (cited : List ProvenanceMessage) (bearing : Option ProvenanceMessage)
      (ambiguous : Bool) :
      attributionFindings { subject with attributedTo := other } cited bearing ambiguous =
        attributionFindings subject cited bearing ambiguous := by
    unfold attributionFindings
    rw [h]
    rfl
  unfold validateProposalProvenance
  dsimp only
  rw [hmissing, hattribution]
  rfl

end Problems

end Core
