import Mathlib.Data.List.Dedup
import AtriumVerified.Core.Invariants
import AtriumVerified.Core.Proofs.SupersessionProofs
import AtriumVerified.Core.Proofs.MatchingProofs

/-!
# What a receipt that passed says

A receipt is a list of findings, each from one check. When no finding asks for a rejection or a
referral, every check has answered, and what the answers say together is the contract of a machine's
acceptance: one cited message is the statement, word for word, and nobody took it back.
-/

namespace Core

open Checked

/-! ## Searching lists -/

section Lists

variable {α β : Type} {p : α → Bool} {l : List α} {i : Nat}

theorem findSome?_filter {f : α → Option β} (h : ∀ a ∈ l, p a = false → f a = none) :
    (l.filter p).findSome? f = l.findSome? f := by
  induction l with
  | nil => rfl
  | cons a rest ih =>
    have hrest := ih fun b hb => h b (List.mem_cons_of_mem _ hb)
    cases hp : p a with
    | true =>
      rw [List.filter_cons_of_pos hp, List.findSome?_cons, List.findSome?_cons, hrest]
    | false =>
      have hclean := h a List.mem_cons_self hp
      rw [List.filter_cons_of_neg (by simp [hp]), List.findSome?_cons, hclean, hrest]

theorem split_at_first (h : l.findIdx? p = some i) :
    ∃ before c rest, l = before ++ c :: rest ∧ before.length = i ∧ p c = true ∧
      ∀ a ∈ before, p a = false := by
  induction l generalizing i with
  | nil => simp at h
  | cons a rest ih =>
    rw [List.findIdx?_cons] at h
    cases hp : p a with
    | true =>
      rw [hp, if_pos rfl] at h
      cases h
      exact ⟨[], a, rest, rfl, rfl, hp, by simp⟩
    | false =>
      rw [hp, if_neg (by simp)] at h
      obtain ⟨k, hk, rfl⟩ := Option.map_eq_some_iff.mp h
      obtain ⟨before, c, after, rfl, hlen, hc, hbefore⟩ := ih hk
      refine ⟨a :: before, c, after, rfl, by simp [hlen], hc, ?_⟩
      intro b hb
      rcases List.mem_cons.mp hb with rfl | hb
      · exact hp
      · exact hbefore b hb

theorem findIdx?_split {before rest : List α} {c : α} (hc : p c = true)
    (hbefore : ∀ a ∈ before, p a = false) :
    (before ++ c :: rest).findIdx? p = some before.length := by
  induction before with
  | nil => simp [List.findIdx?_cons, hc]
  | cons a before ih =>
    have ha := hbefore a List.mem_cons_self
    have hrest := ih fun b hb => hbefore b (List.mem_cons_of_mem _ hb)
    simp [List.findIdx?_cons, ha, hrest]

theorem split_at_last (h : lastIndex p l = some i) :
    ∃ before c rest, l = before ++ c :: rest ∧ before.length = i ∧ p c = true ∧
      ∀ a ∈ rest, p a = false := by
  obtain ⟨k, hk, hi⟩ := Option.map_eq_some_iff.mp h
  obtain ⟨before, c, rest, hl, hlen, hc, hbefore⟩ := split_at_first hk
  have hsplit : l = rest.reverse ++ c :: before.reverse := by
    have hrev := congrArg List.reverse hl
    simpa using hrev
  refine ⟨rest.reverse, c, before.reverse, hsplit, ?_, hc, ?_⟩
  · have hlength := congrArg List.length hsplit
    simp only [List.length_append, List.length_cons, List.length_reverse] at hlength
    rw [List.length_reverse]
    omega
  · intro a ha
    exact hbefore a (List.mem_reverse.mp ha)

theorem lastIndex_split {before rest : List α} {c : α} (hc : p c = true)
    (hrest : ∀ a ∈ rest, p a = false) :
    lastIndex p (before ++ c :: rest) = some before.length := by
  have hfind : (before ++ c :: rest).reverse.findIdx? p = some rest.length := by
    have hsplit : (before ++ c :: rest).reverse = rest.reverse ++ c :: before.reverse := by simp
    rw [hsplit, findIdx?_split hc]
    · rw [List.length_reverse]
    · intro a ha
      exact hrest a (List.mem_reverse.mp ha)
  unfold lastIndex
  rw [hfind, Option.map_some]
  congr 1
  simp only [List.length_append, List.length_cons]
  omega

theorem lastIndex_eq_none (h : lastIndex p l = none) : ∀ a ∈ l, p a = false := by
  intro a ha
  have hfind : l.reverse.findIdx? p = none := Option.map_eq_none_iff.mp h
  exact List.findIdx?_eq_none_iff.mp hfind a (List.mem_reverse.mpr ha)

theorem drop_take_append (l : List α) {m n : Nat} (h : m ≤ n) (hn : n ≤ l.length) :
    l.drop m = (l.take n).drop m ++ l.drop n := by
  have hsplit := List.take_append_drop n l
  have hlen : m ≤ (l.take n).length := by
    rw [List.length_take]
    omega
  calc l.drop m = (l.take n ++ l.drop n).drop m := by rw [hsplit]
    _ = (l.take n).drop m ++ l.drop n := List.drop_append_of_le_length hlen

end Lists

/-! ## Reading a scan -/

section Scan

def citedIn (ids : List Id) (message : ProvenanceMessage) : Bool := ids.contains message.id

theorem scanFloor_le (statement : Text) (messages : List ProvenanceMessage) (first : Nat) :
    scanFloor statement messages first ≤ first := by
  unfold scanFloor
  split
  · exact Nat.le_refl _
  · exact Nat.min_le_left _ _

variable [Unicode] {statement : Text} {ids : List Id} {messages : List ProvenanceMessage}
  {policy : ReceiptPolicy}

theorem scanSentences_found {message : ProvenanceMessage} {wanted : List Text} {restated : Bool}
    {sentences : List Text} {result : LaterRevision} {scanned : Nat}
    (h : scanSentences message wanted policy restated sentences = .found result) :
    result ≠ .none scanned := by
  induction sentences generalizing restated with
  | nil => cases h
  | cons sentence rest ih =>
    unfold scanSentences at h
    dsimp only at h
    split at h
    · cases h
      rintro ⟨⟩
    · exact ih h
    · split at h
      · exact ih h
      · split at h
        · cases h
          rintro ⟨⟩
        · exact ih h

theorem scanMessage_found {wanted : List Text} {message : ProvenanceMessage}
    {result : LaterRevision} {scanned : Nat}
    (h : scanMessage statement wanted policy message = some result) :
    result ≠ .none scanned := by
  unfold scanMessage at h
  dsimp only at h
  split at h
  · cases h
    rintro ⟨⟩
  · split at h
    · cases h
      rintro ⟨⟩
    · split at h
      · cases h
        rintro ⟨⟩
      · split at h
        · rename_i found hfound
          cases h
          exact scanSentences_found hfound
        · split at h
          · cases h
            rintro ⟨⟩
          · cases h

/-- What a scan that was made and found nothing has read. -/
theorem laterRevision_none {scanned : Nat}
    (h : laterRevision statement ids messages policy = .none scanned) :
    isBlank (some statement) = false ∧ (routingTokens statement).isEmpty = false ∧
      (routingTokens statement).length ≤ policy.maxAlignedTokens ∧
      ∃ first last, messages.findIdx? (citedIn ids) = some first ∧
        lastIndex (citedIn ids) messages = some last ∧
        ((messages.drop (last + 1)).any fun message => !citedIn ids message) = true ∧
        (messages.drop (scanFloor statement messages first + 1)).length ≤
          policy.maxLaterMessagesScanned ∧
        ∀ message ∈ messages.drop (scanFloor statement messages first + 1),
          scanMessage statement (routingTokens statement) policy message = none := by
  unfold laterRevision at h
  dsimp only at h
  split at h
  · cases h
  · rename_i hblank
    split at h
    · cases h
    · rename_i hwanted
      split at h
      · cases h
      · rename_i hlong
        split at h
        · rename_i first last hfirst hlast
          split at h
          · cases h
          · rename_i hafter
            split at h
            · cases h
            · split at h
              · cases h
              · rename_i hcount
                refine ⟨by simpa using hblank, by simpa using hwanted, by omega, first, last, hfirst,
                  hlast, ?_, ?_, ?_⟩
                · simpa [citedIn] using hafter
                · omega
                · unfold scanLater at h
                  split at h
                  · rename_i result hresult
                    obtain ⟨message, -, hmessage⟩ := List.exists_of_findSome?_eq_some hresult
                    exact absurd h (scanMessage_found hmessage)
                  · rename_i hnone
                    intro message hmessage
                    exact List.findSome?_eq_none_iff.mp hnone message hmessage
        · cases h

theorem laterRevision_made {first last : Nat} (hblank : isBlank (some statement) = false)
    (hwanted : (routingTokens statement).isEmpty = false)
    (hlong : (routingTokens statement).length ≤ receiptPolicy.maxAlignedTokens)
    (hfirst : messages.findIdx? (citedIn ids) = some first)
    (hlast : lastIndex (citedIn ids) messages = some last)
    (hafter : ((messages.drop (last + 1)).any fun message => !citedIn ids message) = true) :
    laterRevision statement ids messages receiptPolicy =
      if 200 < (messages.drop (scanFloor statement messages first + 1)).length then
        .unscanned .tooManyMessages
      else scanLater statement (routingTokens statement) receiptPolicy
        (messages.drop (scanFloor statement messages first + 1)) := by
  have hcarried : (receiptPolicy.maxLaterMessagesCarried ≤
      receiptPolicy.maxLaterMessagesScanned) = False := by decide
  have hshort : ¬ receiptPolicy.maxAlignedTokens < (routingTokens statement).length := by omega
  unfold citedIn at hfirst hlast hafter
  unfold laterRevision
  simp only [hblank, hwanted, hshort, hfirst, hlast, hafter, hcarried, Bool.false_eq_true, if_false,
    Bool.not_true, decide_false, Bool.and_false]
  rfl

end Scan

/-! ## Findings -/

section Findings

/-- No finding asks for a rejection or a referral. -/
def Passed (findings : List Finding) : Prop :=
  ∀ finding ∈ findings, finding.severity ≠ .reject ∧ finding.severity ≠ .refer

theorem passed_append {findings findings' : List Finding} :
    Passed (findings ++ findings') ↔ Passed findings ∧ Passed findings' :=
  List.forall_mem_append

theorem not_passed {finding : Finding} {findings : List Finding} (hmem : finding ∈ findings)
    (hsevere : finding.severity = .reject ∨ finding.severity = .refer) : ¬ Passed findings := by
  intro hpassed
  obtain ⟨hreject, hrefer⟩ := hpassed finding hmem
  rcases hsevere with h | h
  · exact hreject h
  · exact hrefer h

theorem not_passed_one {finding : Finding}
    (hsevere : finding.severity = .reject ∨ finding.severity = .refer) : ¬ Passed [finding] :=
  not_passed (List.mem_singleton.mpr rfl) hsevere

variable {subject : ProvenanceSubject} {quote : Text} {bearing : ProvenanceMessage}

theorem location_passed {inFullText inOwnText : List ProvenanceMessage}
    (h : Passed (locationFindings quote inFullText inOwnText)) :
    inOwnText ≠ [] ∧ (authorsOf inOwnText).length ≤ 1 := by
  unfold locationFindings at h
  dsimp only at h
  rw [passed_append] at h
  obtain ⟨hplace, hambiguous⟩ := h
  refine ⟨?_, ?_⟩
  · rintro rfl
    cases inFullText with
    | nil =>
      dsimp only at hplace
      split at hplace
      · exact not_passed_one (Or.inl rfl) hplace
      · exact not_passed_one (Or.inl rfl) hplace
    | cons first rest => exact not_passed_one (Or.inl rfl) hplace
  · by_contra hseveral
    rw [if_pos (by omega)] at hambiguous
    exact not_passed_one (Or.inl rfl) hambiguous

theorem addedStructure_eq_nil {authored statement : List String}
    (h : addedStructure authored statement = []) : statement.Subperm authored := by
  induction statement generalizing authored with
  | nil => exact List.nil_subperm
  | cons structure' rest ih =>
    unfold addedStructure at h
    split at h
    · rename_i hheld
      have hmem : structure' ∈ authored := by simpa using hheld
      have hrest := (List.subperm_cons structure').mpr (ih h)
      exact hrest.trans (List.perm_cons_erase hmem).symm.subperm
    · cases h

theorem attribution_passed {cited : List ProvenanceMessage} {ambiguous : Bool} {userId : Id}
    (h : Passed (attributionFindings subject cited (some bearing) ambiguous))
    (hclaim : subject.type = .claim) (hcited : cited.isEmpty = false)
    (hnamed : subject.attributed = some userId) : bearing.authorId = userId := by
  by_contra hother
  have hunsupported : (bearing.authorId == userId) = false := by simpa using hother
  unfold attributionFindings at h
  rw [hnamed, hclaim] at h
  simp only [attributionField, hcited, hunsupported, Bool.or_self, Bool.false_eq_true,
    if_false] at h
  exact not_passed_one (Or.inl rfl) h

theorem structure_passed (h : Passed (structureFindings subject (some bearing))) :
    (linkStructures (subject.statement.getD [])).Subperm (linkStructures bearing.text) ∧
      (blockStructures (subject.statement.getD []) ++
        breakStructures (subject.statement.getD [])).Subperm
        (blockStructures bearing.text ++ breakStructures bearing.text) := by
  unfold structureFindings at h
  dsimp only at h
  rw [passed_append] at h
  obtain ⟨hlinks, hblocks⟩ := h
  refine ⟨addedStructure_eq_nil ?_, addedStructure_eq_nil ?_⟩
  · by_contra hadded
    rw [if_neg (by simpa [addedLinkStructure] using hadded)] at hlinks
    exact not_passed_one (Or.inl rfl) hlinks
  · by_contra hbuilt
    rw [if_neg (by simpa [addedBlockStructure] using hbuilt)] at hblocks
    exact not_passed_one (Or.inl rfl) hblocks

theorem eq_of_mem_dedup {α : Type} [DecidableEq α] {l : List α} {a b : α}
    (h : l.dedup.length ≤ 1) (ha : a ∈ l) (hb : b ∈ l) : a = b := by
  have ha' := List.mem_dedup.mpr ha
  have hb' := List.mem_dedup.mpr hb
  match hl : l.dedup, h with
  | [], _ =>
    rw [hl] at ha'
    cases ha'
  | [c], _ =>
    rw [hl, List.mem_singleton] at ha' hb'
    rw [ha', hb']

theorem author_eq {messages : List ProvenanceMessage} {a b : ProvenanceMessage}
    (h : (authorsOf messages).length ≤ 1) (ha : a ∈ messages) (hb : b ∈ messages) :
    a.authorId = b.authorId := by
  unfold authorsOf at h
  rw [List.length_reverse] at h
  refine eq_of_mem_dedup h ?_ ?_
  · exact List.mem_reverse.mpr (List.mem_map_of_mem ha)
  · exact List.mem_reverse.mpr (List.mem_map_of_mem hb)

theorem bearingOf_some {messages : List ProvenanceMessage} (hsome : messages ≠ [])
    (hone : (authorsOf messages).length ≤ 1) :
    ∃ message ∈ messages, bearingOf messages = some message := by
  unfold bearingOf
  rw [if_neg (by omega)]
  cases messages with
  | nil => exact absurd rfl hsome
  | cons message rest => exact ⟨message, List.mem_cons_self, rfl⟩

theorem mem_citedMessages {ids : List Id} {window : List ProvenanceMessage}
    {message : ProvenanceMessage} (h : message ∈ citedMessages ids window) : message ∈ window ∧ message.id ∈ ids := by
  obtain ⟨id, hid, hfound⟩ := List.mem_filterMap.mp h
  have hmem := List.mem_reverse.mp (List.mem_of_find?_eq_some hfound)
  have hsame : message.id = id := by simpa using List.find?_some hfound
  rw [hsame]
  exact ⟨hmem, hid⟩

theorem messageById_of_nodup {window : List ProvenanceMessage}
    (hnodup : (window.map ProvenanceMessage.id).Nodup) {message : ProvenanceMessage}
    (hmem : message ∈ window) : messageById window message.id = some message := by
  cases hfound : messageById window message.id with
  | none =>
    have hnone := List.find?_eq_none.mp hfound message (List.mem_reverse.mpr hmem)
    simp at hnone
  | some other =>
    have hother := List.mem_reverse.mp (List.mem_of_find?_eq_some hfound)
    have hsame : other.id = message.id := by simpa using List.find?_some hfound
    rw [List.inj_on_of_nodup_map hnodup hother hmem hsame]

theorem idSchema_ne_empty {value : Option Js.Json} : idSchema value ≠ .ok "" := by
  intro h
  unfold idSchema Schema.string at h
  split at h
  · rename_i text
    split at h
    · rename_i hchecks
      cases h
      have hmin := List.filterMap_eq_nil_iff.mp hchecks (Schema.minLength 1) List.mem_cons_self
      exact absurd hmin (by decide)
    · cases h
  · cases h

theorem parsePayload_claimant {type : AcceptedObjectType} {fields : List (String × Js.Json)}
    {claim : ClaimPayload} (h : parsePayload type fields = .ok (.claim claim)) :
    claim.claimant ≠ "" := by
  unfold parsePayload at h
  cases type with
  | decision =>
    obtain ⟨f, status, -, -, ⟨⟩⟩ := Schema.both_eq_ok.mp h
  | commitment =>
    obtain ⟨f, status, -, -, ⟨⟩⟩ := Schema.both_eq_ok.mp h
  | openQuestion =>
    obtain ⟨question, status, -, -, ⟨⟩⟩ := Schema.both_eq_ok.mp h
  | objective =>
    obtain ⟨title, status, -, -, ⟨⟩⟩ := Schema.both_eq_ok.mp h
  | claim =>
    obtain ⟨f, verification, hf, -, heq⟩ := Schema.both_eq_ok.mp h
    obtain ⟨statement, claimant, -, hclaimant, rfl⟩ := Schema.both_eq_ok.mp hf
    cases heq
    rintro rfl
    rw [Schema.field_eq_ok] at hclaimant
    exact idSchema_ne_empty hclaimant

end Findings

/-! ## What a receipt that passed says -/

section Receipt

variable [Unicode] {statement : Text} {ids ids' : List Id} {messages window : List ProvenanceMessage}
  {actor : Actor} {proposalId : Id} {proposal : StoredProposal} {object : AcceptedObject}

theorem laterRevision_congr (h : ∀ id, ids.contains id = ids'.contains id) :
    laterRevision statement ids messages receiptPolicy =
      laterRevision statement ids' messages receiptPolicy := by
  have hcited : (fun message : ProvenanceMessage => ids.contains message.id) =
      fun message => ids'.contains message.id := by
    funext message
    exact h message.id
  unfold laterRevision
  rw [hcited]

/-- A receipt without a refusal: the citations are those of the proposal, and no problem of it asks
for a rejection or a referral. -/
theorem acceptanceReceiptRefusal_none
    (h : acceptanceReceiptRefusal actor proposalId proposal object (some window) = none) :
    Js.sort object.provenance.messageIds = Js.sort proposal.provenance ∧
      ∀ problem ∈ validateProposalProvenance (receiptSubject proposal object) window receiptPolicy,
        problem.severity ≠ .reject ∧ problem.severity ≠ .refer := by
  unfold acceptanceReceiptRefusal at h
  dsimp only at h
  split at h
  · cases h
  · split at h
    · cases h
    · rename_i hcites
      split at h
      · cases h
      · split at h
        · cases h
        · split at h
          · cases h
          · rename_i hreject
            split at h
            · cases h
            · rename_i hrefer
              refine ⟨by simpa using hcites, ?_⟩
              intro problem hproblem
              simp only [rejectingProblems, referringProblems, Option.getD_some, Bool.not_eq_true,
                Bool.not_eq_false', List.isEmpty_iff, List.filter_eq_nil_iff, beq_iff_eq] at hreject hrefer
              exact ⟨hreject problem hproblem, hrefer problem hproblem⟩

theorem acceptanceReceiptRefusal_windowless :
    acceptanceReceiptRefusal actor proposalId proposal object none ≠ none := by
  unfold acceptanceReceiptRefusal
  dsimp only [missingWindow]
  split
  · rintro ⟨⟩
  · split
    · rintro ⟨⟩
    · rintro ⟨⟩

/-- The cited messages whose own text bears the quote. -/
def ProvenanceSubject.bearers (subject : ProvenanceSubject) (window : List ProvenanceMessage) :
    List ProvenanceMessage :=
  bearingMessages subject.trimmedQuote (citedMessages subject.provenance window)

/-- A machine's receipt that passed has made every check. -/
theorem passed_findings {subject : ProvenanceSubject} (hmachine : subject.fromMachine = true)
    (h : ∀ problem ∈ validateProposalProvenance subject window receiptPolicy,
      problem.severity ≠ .reject ∧ problem.severity ≠ .refer) :
    (citedMessages subject.provenance window).isEmpty = false ∧
      (∃ inFullText, Passed (locationFindings subject.trimmedQuote inFullText
        (subject.bearers window))) ∧
      Passed (spanFindings subject.trimmedQuote (bearingOf (subject.bearers window))
        receiptPolicy) ∧
      Passed (revisionFindings subject window receiptPolicy) ∧
      Passed (structureFindings subject (bearingOf (subject.bearers window))) ∧
      Passed (bearingFindings subject subject.trimmedQuote (bearingOf (subject.bearers window))
        receiptPolicy) ∧
      ∃ ambiguous, Passed (attributionFindings subject (citedMessages subject.provenance window)
        (bearingOf (subject.bearers window)) ambiguous) := by
  unfold validateProposalProvenance at h
  dsimp only at h
  rw [hmachine] at h
  split at h
  · -- A machine's proposal that cites nothing is rejected.
    have hbad := h _ (List.mem_map.mpr ⟨_, List.mem_singleton.mpr rfl, rfl⟩)
    exact absurd rfl hbad.1
  · rename_i hprovenance
    have hclean : Passed _ := fun finding hfinding =>
      h _ (List.mem_map.mpr ⟨finding, hfinding, rfl⟩)
    rw [passed_append, passed_append, passed_append] at hclean
    obtain ⟨⟨⟨hunknown, hmissing⟩, hquoted⟩, hattribution⟩ := hclean
    have hquote : (normalizeForReceipt subject.trimmedQuote).isEmpty = false := by
      by_contra hempty
      rw [Bool.not_eq_false] at hempty
      unfold missingQuoteFindings at hmissing
      rw [hmachine, hempty] at hmissing
      exact not_passed_one (Or.inl rfl) hmissing
    have hcited : (citedMessages subject.provenance window).isEmpty = false := by
      by_contra hempty
      rw [Bool.not_eq_false, List.isEmpty_iff] at hempty
      obtain ⟨id, hid⟩ := List.exists_mem_of_ne_nil _ (by simpa using hprovenance)
      have hnone : messageById window id = none := List.filterMap_eq_nil_iff.mp hempty id hid
      have hmem : id ∈ subject.provenance.filter fun id => (messageById window id).isNone :=
        List.mem_filter.mpr ⟨hid, by simp [hnone]⟩
      exact not_passed (List.mem_map.mpr ⟨id, hmem, rfl⟩) (Or.inr rfl) hunknown
    simp only [hquote, hcited, Bool.not_false, Bool.and_self, if_true, passed_append] at hquoted
    obtain ⟨hlocation, ⟨⟨⟨hspan, hrevision⟩, -⟩, hstructure⟩, hbearing⟩ := hquoted
    simp only [hquote, hcited, Bool.not_false, Bool.and_self, if_true] at hattribution
    exact ⟨hcited, ⟨_, hlocation⟩, hspan, hrevision, hstructure, hbearing, _, hattribution⟩

/-- A statement that says nothing is rejected. -/
theorem hasContent_of_passed {subject : ProvenanceSubject} {quote : Text}
    {bearing : Option ProvenanceMessage}
    (h : Passed (bearingFindings subject quote bearing receiptPolicy)) :
    hasContent subject.statement = true := by
  by_contra hempty
  have hblank : isBlank (some (subject.statement.getD [])) = true := by
    unfold isBlank
    cases hstatement : subject.statement with
    | none => rfl
    | some text =>
      rw [hstatement] at hempty
      simpa using hempty
  by_cases hquote : isBlank (some quote) = true
  · have hresult : statementBearing quote (subject.statement.getD []) receiptPolicy =
        declined .emptyQuote := by
      unfold statementBearing
      rw [if_pos hquote]
    unfold bearingFindings at h
    dsimp only at h
    rw [hresult] at h
    exact absurd rfl (h _ (List.mem_singleton.mpr rfl)).1
  · have hresult : statementBearing quote (subject.statement.getD []) receiptPolicy =
        declined .emptyStatement := by
      unfold statementBearing
      rw [if_neg hquote, if_pos hblank]
    unfold bearingFindings at h
    dsimp only at h
    rw [hresult] at h
    exact absurd rfl (h _ (List.mem_singleton.mpr rfl)).1

theorem laterRevision_of_passed {subject : ProvenanceSubject} (hmachine : subject.fromMachine = true)
    (h : ∀ problem ∈ validateProposalProvenance subject window receiptPolicy,
      problem.severity ≠ .reject ∧ problem.severity ≠ .refer) :
    ∃ scanned, laterRevision (subject.statement.getD []) subject.provenance window receiptPolicy =
      .none scanned := by
  obtain ⟨-, -, -, hrevision, -, hbearing, -⟩ := passed_findings hmachine h
  unfold revisionFindings at hrevision
  rw [if_pos (hasContent_of_passed hbearing)] at hrevision
  cases hscan : laterRevision (subject.statement.getD []) subject.provenance window
      receiptPolicy with
  | none scanned => exact ⟨scanned, rfl⟩
  | revision message added =>
    rw [hscan] at hrevision
    exact absurd rfl (hrevision _ (List.mem_singleton.mpr rfl)).2
  | unscanned why =>
    rw [hscan] at hrevision
    exact absurd rfl (hrevision _ (List.mem_singleton.mpr rfl)).2

theorem checkCitedProposal_machine {state : CoreState} {record : ProposalRecord}
    {messages : Option (List ProvenanceMessage)} (hactor : isHuman actor = false)
    (h : checkCitedProposal state object proposalId actor messages = .ok record) :
    proposerIsMachine record.proposal.proposer = true ∧
      acceptanceReceiptRefusal actor proposalId record.proposal object messages = none := by
  obtain ⟨-, -, -, hmatch, -, -, hreceipt⟩ := checkCitedProposal_ok h
  refine ⟨proposerIsMachine_of_matches hactor hmatch, ?_⟩
  simp only [checkReceipt, hactor, Bool.false_eq_true, if_false, bind_eq_ok, refuseWith_eq_ok,
    Option.map_eq_none_iff, exists_const] at hreceipt
  exact hreceipt.1

/-! ### Check by check -/

variable {subject : ProvenanceSubject} {quote : Text} {bearing : ProvenanceMessage}

theorem span_passed (h : Passed (spanFindings quote (some bearing) receiptPolicy)) :
    receiptPolicy.minQuoteLength ≤ Js.length (normalizeForReceipt quote) ∧
      significant bearing.text = significant quote := by
  unfold spanFindings at h
  dsimp only at h
  rw [passed_append] at h
  obtain ⟨hshort, hspan⟩ := h
  refine ⟨?_, ?_⟩
  · by_contra hlength
    rw [if_pos (by omega)] at hshort
    exact not_passed_one (Or.inl rfl) hshort
  · split at hspan
    · exact absurd hspan (not_passed_one (Or.inr rfl))
    · split at hspan
      · exact absurd hspan (not_passed_one (Or.inr rfl))
      · split at hspan
        · exact absurd hspan (not_passed_one (Or.inr rfl))
        · rename_i hcovers
          simp only [quoteCoversOwnText, Bool.not_eq_true, Bool.not_eq_false', Bool.and_eq_true,
            beq_iff_eq] at hcovers
          exact hcovers.2

theorem bearing_cases {bearing : Option ProvenanceMessage}
    (h : Passed (bearingFindings subject quote bearing receiptPolicy)) :
    (statementBearing quote (subject.statement.getD []) receiptPolicy).borne = true ∧
      ∀ other, bearingFindings subject quote other receiptPolicy = [] := by
  unfold bearingFindings at h ⊢
  dsimp only at h ⊢
  split at h
  · exact absurd h (not_passed_one (Or.inl rfl))
  · exact absurd h (not_passed_one (Or.inr rfl))
  · exact absurd h (not_passed_one (Or.inl rfl))
  · split at h
    · next hborne => exact ⟨hborne, fun _ => if_pos hborne⟩
    · split at h
      · exact absurd h (not_passed_one (Or.inl rfl))
      · split at h
        · exact absurd h (not_passed_one (Or.inr rfl))
        · split at h
          · exact absurd h (not_passed_one (Or.inl rfl))
          · exact absurd h (not_passed_one (Or.inl rfl))

/-- The quote is the statement, token by token. -/
theorem bearing_passed {bearing : Option ProvenanceMessage}
    (h : Passed (bearingFindings subject quote bearing receiptPolicy)) :
    orderedTokens quote = orderedTokens (subject.statement.getD []) := by
  have hborne := (bearing_cases h).1
  unfold statementBearing at hborne
  split at hborne
  · cases hborne
  · split at hborne
    · cases hborne
    · unfold alignTokens at hborne
      split at hborne
      · cases hborne
      · split at hborne
        · cases hborne
        · split at hborne
          · cases hborne
          · simpa using hborne

/-! ### The checks together -/

/-- A scan that found nothing has read everything behind the newest citation. -/
theorem unrevised_of_laterRevision {scanned : Nat}
    (h : laterRevision statement ids window receiptPolicy = .none scanned)
    {before after : List ProvenanceMessage} {later : ProvenanceMessage}
    (hwindow : window = before ++ later :: after)
    (hafter : ∀ other ∈ later :: after, other.id ∉ ids) :
    scanMessage statement (routingTokens statement) receiptPolicy later = none := by
  obtain ⟨-, -, -, first, last, hfirst, -, -, -, hclean⟩ := laterRevision_none h
  have hearly : first < before.length := by
    obtain ⟨start, cited, rest, hsplit, hlength, hcited, -⟩ := split_at_first hfirst
    by_contra hlate
    rw [Nat.not_lt, ← hlength] at hlate
    rw [hwindow] at hsplit
    rcases List.append_eq_append_iff.mp hsplit with ⟨extra, hstart, hrest⟩ | ⟨extra, hbefore, hrest⟩
    · have hmem : cited ∈ later :: after := by
        rw [hrest]
        simp
      exact hafter cited hmem (by simpa [citedIn] using hcited)
    · rw [hbefore, List.length_append] at hlate
      have hextra : extra = [] := List.length_eq_zero_iff.mp (by omega)
      rw [hextra, List.nil_append] at hrest
      have hmem : cited ∈ later :: after := by
        rw [← hrest]
        exact List.mem_cons_self
      exact hafter cited hmem (by simpa [citedIn] using hcited)
  have hfloor := scanFloor_le statement window first
  refine hclean later ?_
  rw [hwindow, List.drop_append_of_le_length (by rw [← hwindow]; omega)]
  simp

theorem passed_together {subject : ProvenanceSubject} (hmachine : subject.fromMachine = true)
    (h : ∀ problem ∈ validateProposalProvenance subject window receiptPolicy,
      problem.severity ≠ .reject ∧ problem.severity ≠ .refer) :
    ∃ message ∈ citedMessages subject.provenance window,
      (∀ other ∈ subject.bearers window, other.authorId = message.authorId) ∧
      receiptPolicy.minQuoteLength ≤ Js.length (normalizeForReceipt subject.trimmedQuote) ∧
      significant message.text = significant subject.trimmedQuote ∧
      orderedTokens subject.trimmedQuote = orderedTokens (subject.statement.getD []) ∧
      (linkStructures (subject.statement.getD [])).Subperm (linkStructures message.text) ∧
      (blockStructures (subject.statement.getD []) ++
        breakStructures (subject.statement.getD [])).Subperm
        (blockStructures message.text ++ breakStructures message.text) ∧
      ∀ userId, subject.type = .claim → subject.attributed = some userId →
        message.authorId = userId := by
  obtain ⟨hcited, ⟨inFullText, hlocation⟩, hspan, -, hstructure, hbearing, ambiguous,
    hattribution⟩ := passed_findings hmachine h
  obtain ⟨hsome, hone⟩ := location_passed hlocation
  obtain ⟨message, hmem, hmessage⟩ := bearingOf_some hsome hone
  rw [hmessage] at hspan hstructure hbearing hattribution
  obtain ⟨hlength, hcovers⟩ := span_passed hspan
  obtain ⟨hlinks, hblocks⟩ := structure_passed hstructure
  refine ⟨message, ?_, fun other hother => author_eq hone hother hmem, hlength, hcovers,
    bearing_passed hbearing, hlinks, hblocks, fun userId htype hnamed =>
      attribution_passed hattribution htype hcited hnamed⟩
  unfold ProvenanceSubject.bearers bearingMessages at hmem
  dsimp only at hmem
  split at hmem
  · cases hmem
  · exact List.mem_of_mem_filter hmem

theorem trimmedQuote_some {subject : ProvenanceSubject}
    (h : receiptPolicy.minQuoteLength ≤ Js.length (normalizeForReceipt subject.trimmedQuote)) :
    ∃ quote, subject.quote = some quote ∧ subject.trimmedQuote = Js.trim quote := by
  have hempty : Js.length (normalizeForReceipt []) = 0 := by rfl
  unfold ProvenanceSubject.trimmedQuote at h ⊢
  split at h
  · rename_i hcontent
    cases hquote : subject.quote with
    | none =>
      rw [hquote] at hcontent
      cases hcontent
    | some quote =>
      rw [hquote] at hcontent
      exact ⟨quote, rfl, by rw [if_pos hcontent]; rfl⟩
  · rw [hempty] at h
    exact absurd h (by decide)

theorem receipt_contract (hmachine : proposerIsMachine proposal.proposer = true)
    (htype : proposal.type = object.type)
    (hclaimant : ∀ claim, object.payload = .claim claim → claim.claimant ≠ "")
    (hreceipt : acceptanceReceiptRefusal actor proposalId proposal object (some window) = none) :
    ∃ quote message, ReceiptContract proposal object window quote message := by
  obtain ⟨-, hproblems⟩ := acceptanceReceiptRefusal_none hreceipt
  have hfrom : (receiptSubject proposal object).fromMachine = true := hmachine
  obtain ⟨message, hcited, hauthors, hlength, hcovers, htokens, hlinks, hblocks, hnamed⟩ :=
    passed_together hfrom hproblems
  obtain ⟨scanned, hscan⟩ := laterRevision_of_passed hfrom hproblems
  obtain ⟨text, htext, htrimmed⟩ := trimmedQuote_some hlength
  obtain ⟨quote, hquote, rfl⟩ := Option.map_eq_some_iff.mp htext
  have hnormal : normalizeForReceipt (receiptSubject proposal object).trimmedQuote =
      normalizeForReceipt quote.toList := by
    rw [htrimmed, normalizeForReceipt_trim]
  rw [hnormal] at hlength
  obtain ⟨hheld, hid⟩ := mem_citedMessages hcited
  have hone : ∀ id ∈ proposal.provenance, ∀ other, messageById window id = some other →
      bears quote.toList other = true → other.authorId = message.authorId := by
    intro id hcites other hother hbears
    refine hauthors other ?_
    unfold ProvenanceSubject.bearers bearingMessages
    rw [hnormal]
    have hsome : (normalizeForReceipt quote.toList).isEmpty = false := by
      by_contra hempty
      rw [Bool.not_eq_false, List.isEmpty_iff] at hempty
      rw [hempty] at hlength
      exact absurd hlength (by decide)
    dsimp only
    rw [hsome, if_neg Bool.false_ne_true]
    exact List.mem_filter.mpr ⟨List.mem_filterMap.mpr ⟨id, hcites, hother⟩, hbears⟩
  refine ⟨quote, message, hheld, hid, ?_, hquote, ?_, hlength, hlinks, hblocks, hone, ?_, ?_, ?_⟩
  · rw [hcovers]
    unfold significant
    rw [htokens]
    rfl
  · rw [← hnormal, ← orderedTokens_flatten, htokens, orderedTokens_flatten]
    rfl
  · intro hnodup other hmem hcites hbears
    exact hone other.id hcites other (messageById_of_nodup hnodup hmem) hbears
  · intro claim hclaim
    refine hnamed claim.claimant ?_ ?_
    · change proposal.type = .claim
      rw [htype]
      unfold AcceptedObject.type
      rw [hclaim]
      rfl
    · change (object.payload.attributedTo).filter (fun userId => userId != "") = some claim.claimant
      rw [hclaim]
      simp [Payload.attributedTo, hclaimant claim hclaim]
  · intro before later after hwindow hafter
    exact unrevised_of_laterRevision hscan hwindow hafter

/-- A machine's acceptance that applies is covered by its receipt: the object is, word for word, what
one author of the cited messages wrote, and nobody in the window took it back. -/
theorem applied_on_receipt {Raw : Type} (schema : EventSchema Raw) (hschema : PayloadsParsed schema)
    {state next : CoreState} {row : Row Raw} {event : CoreEvent} {applier : Actor}
    (hactor : isHuman row.trusted.actor = false)
    (h : appendEvent schema state row = .ok (.applied event applier, next))
    (hbody : event.body = .objectAccepted object) :
    ∃ window proposalId record quote message, row.trusted.messages = some window ∧
      object.provenance.proposalId = some proposalId ∧
      state.proposal? proposalId = some record ∧
      ReceiptContract record.proposal object window quote message := by
  obtain ⟨hparse, -, settled, hdispatch, -⟩ := appendEvent_applied h
  obtain ⟨fields, hfields⟩ := hschema row.event event object hparse hbody
  simp only [dispatch, hbody, applyObjectAccepted, bind_eq_ok] at hdispatch
  obtain ⟨proposal, hcheck, -⟩ := hdispatch
  obtain ⟨hgates, -⟩ := checkAcceptance_gates hcheck
  rcases citedProposal_ok (checkAcceptance_ok hcheck).2 with
    ⟨hdirect, -⟩ | ⟨proposalId, record, hcited, rfl, hchecked⟩
  · have hcites := (hgates hactor).2.2
    rw [hdirect] at hcites
    cases hcites
  · obtain ⟨hown, -, -, -, htype, -⟩ := checkCitedProposal_ok hchecked
    obtain ⟨hmachine, hreceipt⟩ := checkCitedProposal_machine hactor hchecked
    cases hmessages : row.trusted.messages with
    | none =>
      rw [hmessages] at hreceipt
      exact absurd hreceipt acceptanceReceiptRefusal_windowless
    | some window =>
      rw [hmessages] at hreceipt
      have hclaimant : ∀ claim, object.payload = .claim claim → claim.claimant ≠ "" := by
        intro claim hclaim
        rw [hclaim] at hfields
        exact parsePayload_claimant hfields
      obtain ⟨quote, message, hcontract⟩ := receipt_contract hmachine htype hclaimant hreceipt
      exact ⟨window, proposalId, record, quote, message, rfl, hcited,
        Js.PlainObject.get_eq_own.mp hown, hcontract⟩

end Receipt

/-! ## A receipt that passes -/

section ReceiptRuns

theorem checkedSchema_ok {raw event : CoreEvent} (h : checkedSchema.safeParse raw = .ok event) :
    event = raw ∧ ∀ object, raw.body = .objectAccepted object →
      parsePayload object.type object.payload.fields = .ok object.payload := by
  unfold checkedSchema at h
  dsimp only at h
  split at h
  · rename_i object hbody
    split at h
    · rename_i payload hpayload
      split at h
      · rename_i hsame
        cases h
        refine ⟨rfl, ?_⟩
        intro other hother
        rw [hbody] at hother
        cases hother
        rw [hpayload, hsame]
      · cases h
    · cases h
  · rename_i hother
    cases h
    exact ⟨rfl, fun object hbody => absurd hbody (hother object)⟩

theorem checkedSchema_parsed : PayloadsParsed checkedSchema := by
  intro raw event object h hbody
  obtain ⟨rfl, hparsed⟩ := checkedSchema_ok h
  exact ⟨object.payload.fields, hparsed object hbody⟩

def appliedCleanly : Except TypeError (EventOutcome × CoreState) → Bool
  | .ok (.applied _ _, _) => true
  | _ => false

theorem exists_applied {result : Except TypeError (EventOutcome × CoreState)}
    (h : appliedCleanly result = true) :
    ∃ event applier next, result = .ok (.applied event applier, next) := by
  unfold appliedCleanly at h
  split at h
  · exact ⟨_, _, _, rfl⟩
  · cases h

def askedQuestion : String := "Should the export job retry on a closed socket?"

/-- The message it was asked in, and one about something else. -/
def askingWindow : List ProvenanceMessage :=
  [⟨"m1", "alice", askedQuestion⟩, ⟨"m2", "bob", "Lunch is at noon today."⟩]

/-- A reading of the question under the name of the model `reader`. -/
def readingByReader : Proposal where
  stored := ⟨"p", "room", ⟨99, 2⟩, .model "reader", ["m1"], some askedQuestion, none,
    "2026-01-01T00:00:00.000Z", .openQuestion ⟨askedQuestion, .open⟩⟩
  status := .proposed

def readQuestion : AcceptedObject :=
  { openQuestion "q" askedQuestion with provenance := ⟨["m1"], some "p", none⟩ }

/-- The model accepts the reading, with the two messages in its window. -/
def acceptByReader : AuthoredEvent :=
  ⟨⟨"e2", "2026-01-01T00:00:02.000Z", .objectAccepted readQuestion⟩,
    ⟨.model "reader", some askingWindow⟩⟩

def stagedByHuman : List AuthoredEvent :=
  [humanEvent "e1" "2026-01-01T00:00:01.000Z" (.proposalRecorded readingByReader)]

def stagedForReader : CoreState := @offerAll Unicode.ascii stagedByHuman

def acceptedByReader : CoreState := @offer Unicode.ascii stagedForReader acceptByReader

theorem offer_of_step [Unicode] {state next : CoreState} {entry : AuthoredEvent}
    {outcome : EventOutcome} (h : step state entry = .ok (outcome, next)) :
    offer state entry = next := by
  unfold offer
  rw [h]

theorem reader_step : ∃ applier, @step Unicode.ascii stagedForReader acceptByReader =
    .ok (.applied acceptByReader.event applier, acceptedByReader) := by
  let _ : Unicode := Unicode.ascii
  have happlied : appliedCleanly (step stagedForReader acceptByReader) = true := by decide +kernel
  obtain ⟨event, applier, next, h⟩ := exists_applied happlied
  have hrow : appendEvent parsedSchema stagedForReader acceptByReader.row =
      .ok (.applied event applier, next) := (appendEvent_of_parse rfl).trans h
  obtain rfl : acceptByReader.event = event := Except.ok.inj (appendEvent_applied hrow).1
  have hnext : acceptedByReader = next := offer_of_step h
  rw [hnext]
  exact ⟨applier, h⟩

theorem reader_applied : ∃ applier,
    @appendEvent Unicode.ascii _ checkedSchema stagedForReader acceptByReader.row =
      .ok (.applied acceptByReader.event applier, acceptedByReader) := by
  have hparse : checkedSchema.safeParse acceptByReader.row.event = .ok acceptByReader.event := by rfl
  obtain ⟨applier, h⟩ := reader_step
  exact ⟨applier, (@appendEvent_of_parse _ Unicode.ascii _ _ _ _ hparse).trans h⟩

/-- The model's acceptance rests on the message the question was asked in. -/
theorem reader_on_receipt : ∃ next applier proposalId record quote message,
    @appendEvent Unicode.ascii _ checkedSchema stagedForReader acceptByReader.row =
      .ok (.applied acceptByReader.event applier, next) ∧
    stagedForReader.proposal? proposalId = some record ∧
    @ReceiptContract Unicode.ascii record.proposal readQuestion askingWindow quote message := by
  obtain ⟨applier, h⟩ := reader_applied
  have hmachine : isHuman acceptByReader.row.trusted.actor = false := rfl
  obtain ⟨window, proposalId, record, quote, message, hwindow, -, hheld, hcontract⟩ :=
    @applied_on_receipt Unicode.ascii _ _ checkedSchema checkedSchema_parsed _ _ _ _ _ hmachine h rfl
  cases hwindow
  exact ⟨_, applier, proposalId, record, quote, message, h, hheld, hcontract⟩

end ReceiptRuns

end Core
