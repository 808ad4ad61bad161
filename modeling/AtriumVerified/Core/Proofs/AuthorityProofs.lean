import AtriumVerified.Core.Proofs.IntegrityProofs
import AtriumVerified.Core.Proofs.ReceiptProofs

/-!
# What machines may change, and whom a person may name

Every kind of event has its own gate. A machine adds readings and the objects that come out of its
own readings, and touches nothing that is accepted. A person names only themselves: another person's
name is on an object because it was there before, with the same sentence, or because a reading that
somebody else staged put it there.
-/

namespace Core

open Checked Js
open CoreState (fail)

/-! ## Rows -/

section Rows

variable [Unicode] {Raw : Type} {schema : EventSchema Raw} {state next : CoreState} {row : Row Raw}
  {outcome : EventOutcome}

theorem appendEvent_facts (h : appendEvent schema state row = .ok (outcome, next)) :
    SameFacts next state ∨ ∃ event settled, schema.safeParse row.event = .ok event ∧
      dispatch state ⟨event, row.trusted⟩ = .ok settled ∧ SameFacts next settled := by
  unfold appendEvent at h
  split at h
  · cases h
    exact Or.inl ⟨rfl, rfl, rfl, rfl⟩
  · rename_i event hparse
    rcases step_facts h with hsame | ⟨settled, hdispatch, hsame⟩
    · exact Or.inl hsame
    · exact Or.inr ⟨event, settled, hparse, hdispatch, hsame⟩

theorem appendEvent_offer (state : CoreState) (entry : AuthoredEvent)
    (hok : (step state entry).isOk = true) :
    ∃ outcome, appendEvent parsedSchema state entry.row = .ok (outcome, offer state entry) := by
  have hstep : appendEvent parsedSchema state entry.row = step state entry := rfl
  rw [hstep]
  cases hresult : step state entry with
  | ok result => exact ⟨result.1, by rw [offer_of_step hresult]⟩
  | error raised =>
    rw [hresult] at hok
    cases hok

end Rows

/-! ## Machines -/

section Machines

variable {actor : Actor} {state next : CoreState}

theorem MachineFrame.refl (actor : Actor) (state : CoreState) : MachineFrame actor state state where
  objects := fun _ _ h => h
  corrections := rfl
  edges := rfl
  minted := fun _ _ hsome hnone => absurd hsome hnone

theorem MachineFrame.congr {after : CoreState} (h : MachineFrame actor state after)
    (hobjects : next.objects = after.objects) (hrelations : next.relations = after.relations)
    (hcorrections : next.corrections = after.corrections) : MachineFrame actor state next where
  objects := by
    unfold CoreState.object?
    rw [hobjects]
    exact h.objects
  corrections := hcorrections.trans h.corrections
  edges := by
    rw [hrelations]
    exact h.edges
  minted := by
    have hobject : next.object? = after.object? := by
      funext id
      unfold CoreState.object?
      rw [hobjects]
    rw [hobject]
    exact h.minted

theorem mintable_of_gates {object : AcceptedObject} (htype : modelMintingGate object.type = none)
    (hverified : object.payload.verified = false) :
    object.type = .openQuestion ∨
      ∃ claim, object.payload = .claim claim ∧ claim.verification ≠ .verified := by
  unfold AcceptedObject.type at htype ⊢
  cases hpayload : object.payload with
  | decision payload => simp [hpayload, Payload.type, modelMintingGate] at htype
  | commitment payload => simp [hpayload, Payload.type, modelMintingGate] at htype
  | openQuestion payload => exact Or.inl rfl
  | claim payload =>
    refine Or.inr ⟨payload, rfl, ?_⟩
    simpa [hpayload, Payload.verified] using hverified
  | objective payload => simp [hpayload, Payload.type, modelMintingGate] at htype

variable [Unicode] {entry : AuthoredEvent}

theorem commitAcceptance_frame {object : AcceptedObject} {proposal : Option ProposalRecord}
    {messages : Option (List ProvenanceMessage)} (at_ : Timestamp) (hactor : isHuman actor = false)
    (hfree : state.objects.get object.id = .absent)
    (hcheck : checkAcceptance state object actor messages = .ok proposal) :
    MachineFrame actor state (commitAcceptance state at_ object actor proposal) := by
  obtain ⟨hgates, -⟩ := checkAcceptance_gates hcheck
  obtain ⟨htype, hverified, hcites⟩ := hgates hactor
  refine ⟨commitAcceptance_kept at_ hfree, commitAcceptance_corrections, ?_, ?_⟩
  · rw [commitAcceptance_relations]
  · intro id record hrecord hnone
    rw [commitAcceptance_object? hfree] at hrecord
    split at hrecord
    · cases hrecord
      refine ⟨mintable_of_gates htype hverified, ?_⟩
      rcases commitAcceptance_proposal? at_ hcheck with
        ⟨hdirect, -, -⟩ | ⟨proposalId, held, hcited, -, hchecked, -⟩
      · rw [hdirect] at hcites
        cases hcites
      · obtain ⟨hown, hopen, -, hmatch, -, -, hreceipt⟩ := checkCitedProposal_ok hchecked
        refine ⟨proposalId, held, hcited, PlainObject.get_eq_own.mp hown, hopen, hmatch, ?_⟩
        simp only [checkReceipt, hactor, Bool.false_eq_true, if_false, bind_eq_ok, refuseWith_eq_ok,
          refuseIf_eq_ok, exists_const] at hreceipt
        exact hreceipt.2.1
    · exact absurd hrecord hnone

/-- A machine's event leaves what is accepted as it is. -/
theorem dispatch_machineFrame (hactor : isHuman entry.trusted.actor = false)
    (h : dispatch state entry = .ok next) : MachineFrame entry.trusted.actor state next := by
  cases dispatch_applied h with
  | recorded hbody hfree hnoted =>
    exact (MachineFrame.refl _ state).congr hnoted.1 hnoted.2.1 hnoted.2.2.2
  | rejected hbody hown hmatch hopen => exact (MachineFrame.refl _ state).congr rfl rfl rfl
  | superseded hbody hown hmatch hopen hreplacement =>
    exact (MachineFrame.refl _ state).congr rfl rfl rfl
  | accepted hbody hfree hcheck => exact commitAcceptance_frame _ hactor hfree hcheck
  | unchanged hbody hhuman =>
    rw [hhuman] at hactor
    cases hactor
  | corrected hbody hhuman hown hplan hcheck =>
    rw [hhuman] at hactor
    cases hactor
  | @related relation ends hbody hcheck =>
    rcases commitRelation_cases entry.event.at_ hcheck with ⟨targetId, target, -, -, -, hsup, -⟩ |
      ⟨question, -, -, -, -, -, hhuman, -⟩ | ⟨hsupersedes, hanswers, heq⟩
    · rw [(checkSupersedes_ok hsup).1] at hactor
      cases hactor
    · rw [hhuman] at hactor
      cases hactor
    · rw [heq]
      refine ⟨fun id record hrecord => hrecord, rfl, ?_, ?_⟩
      · rw [List.filter_append]
        have hother : relation.kind.humanOnly = false := by
          simp [RelationKind.humanOnly, hsupersedes, hanswers]
        simp [hother]
      · exact (MachineFrame.refl _ state).minted

/-- Whatever a machine offers, in whatever state, the accepted objects, the corrections and
the edges only a human adds stay as they are, and a new object is a question or an unverified claim
out of a reading of that machine. -/
theorem machine_leaves_accepted {Raw : Type} (schema : EventSchema Raw) {row : Row Raw}
    {outcome : EventOutcome} (hactor : isHuman row.trusted.actor = false)
    (h : appendEvent schema state row = .ok (outcome, next)) :
    MachineFrame row.trusted.actor state next := by
  rcases appendEvent_facts h with hsame | ⟨event, settled, -, hdispatch, hsame⟩
  · exact (MachineFrame.refl _ state).congr hsame.1 hsame.2.1 hsame.2.2.2
  · have hentry : isHuman (⟨event, row.trusted⟩ : AuthoredEvent).trusted.actor = false := hactor
    have hframe := dispatch_machineFrame hentry hdispatch
    exact hframe.congr hsame.1 hsame.2.1 hsame.2.2.2

end Machines

section MachineRuns

theorem acceptByReader_stored : ∃ outcome,
    @appendEvent Unicode.ascii _ parsedSchema stagedForReader acceptByReader.row =
      .ok (outcome, acceptedByReader) := by
  obtain ⟨applier, h⟩ := reader_step
  exact ⟨_, (@appendEvent_of_parse _ Unicode.ascii _ parsedSchema _ _ rfl).trans h⟩

theorem reader_minted : acceptedByReader.object? "q" =
    some (freshRecord readQuestion "2026-01-01T00:00:02.000Z" (.model "reader")) := by
  let _ : Unicode := Unicode.ascii
  obtain ⟨applier, h⟩ := reader_applied
  obtain ⟨-, -, settled, hdispatch, hfacts, -⟩ := appendEvent_applied h
  have hbody : acceptByReader.event.body = .objectAccepted readQuestion := rfl
  simp only [dispatch, hbody, applyObjectAccepted, bind_eq_ok, pure, Except.pure,
    Except.ok.injEq] at hdispatch
  obtain ⟨proposal, hcheck, rfl⟩ := hdispatch
  have hfree := (checkAcceptance_ok hcheck).1
  unfold CoreState.object?
  rw [hfacts.1]
  exact (commitAcceptance_object? hfree "q").trans (if_pos rfl)

/-- The model's acceptance changes the state, inside its frame. -/
theorem reader_leaves_accepted :
    (acceptedByReader.object? "q").isSome = true ∧
    MachineFrame (.model "reader") stagedForReader acceptedByReader := by
  obtain ⟨outcome, hrow⟩ := acceptByReader_stored
  have hmachine : isHuman acceptByReader.row.trusted.actor = false := rfl
  refine ⟨Option.isSome_iff_exists.mpr ⟨_, reader_minted⟩, ?_⟩
  exact @machine_leaves_accepted _ _ Unicode.ascii _ parsedSchema _ _ hmachine hrow

/-- The reading a model accepts bears its name, but it was not the model that staged it. -/
theorem reader_accepts_human_staging :
    ¬ ∀ state next row outcome, @Reached Unicode.ascii anyEvent state →
      isHuman row.trusted.actor = false →
      @appendEvent Unicode.ascii _ parsedSchema state row = .ok (outcome, next) →
      ∀ id record, next.object? id = some record → state.object? id = none →
        ∃ proposalId proposal, record.object.provenance.proposalId = some proposalId ∧
          state.proposal? proposalId = some proposal ∧
          proposal.stagedBy = row.trusted.actor := by
  intro hclaim
  obtain ⟨outcome, hrow⟩ := acceptByReader_stored
  have hreached : @Reached Unicode.ascii anyEvent stagedForReader :=
    @reached_offerAll Unicode.ascii _ _ fun _ _ _ => trivial
  have hfree : stagedForReader.object? "q" = none := by decide +kernel
  have hstager : (stagedForReader.proposal? "p").map ProposalRecord.stagedBy = some (.human "u") := by
    decide +kernel
  obtain ⟨proposalId, proposal, hcited, hheld, hstaged⟩ :=
    hclaim _ _ _ _ hreached rfl hrow "q" _ reader_minted hfree
  obtain rfl : "p" = proposalId := Option.some.inj hcited
  rw [hheld, Option.map_some, hstaged] at hstager
  cases hstager

end MachineRuns

/-! ## People -/

section People

def SameSentence (a b : AcceptedObject) : Prop :=
  payloadAttributions a.payload = payloadAttributions b.payload ∧
    objectStatement a = objectStatement b

theorem SameSentence.refl (object : AcceptedObject) : SameSentence object object := ⟨rfl, rfl⟩

theorem repointed_setSuperseded (record : ObjectRecord) (new : Option Id) (at_ : Timestamp) :
    Repointed record (setSuperseded record new at_) := Or.inr ⟨new, at_, rfl⟩

theorem Repointed.sameSentence {before after : ObjectRecord} (h : Repointed before after) :
    SameSentence before.object after.object := by
  rcases h with rfl | ⟨new, at_, rfl⟩
  · exact SameSentence.refl _
  · unfold SameSentence objectStatement setSuperseded
    cases hpayload : before.object.payload with
    | decision payload => exact ⟨rfl, rfl⟩
    | commitment payload => simp [hpayload]
    | openQuestion payload => simp [hpayload]
    | claim payload => simp [hpayload]
    | objective payload => simp [hpayload]

variable {state next : CoreState} {id userId named : Id} {object : AcceptedObject}

theorem SameSentence.names {before : AcceptedObject} (h : SameSentence before object)
    (hnames : Names object named) : Names before named := by
  unfold Names
  rw [h.1]
  exact hnames

theorem SameSentence.namedBefore {before : ObjectRecord}
    (h : SameSentence before.object object) (hheld : state.object? id = some before)
    (hnames : Names object named) : NamedBefore state id object named :=
  ⟨before, hheld, h.names hnames, h.2⟩

theorem isForeign_of_ne (hother : named ≠ userId) : isForeign (.human userId) named = true := by
  unfold isForeign
  rw [bne_iff_ne]
  rintro ⟨⟩
  exact hother rfl

theorem named_of_unrefused {before after : List Id} {same : Prop} [Decidable same]
    {refusal : Id → String}
    (hgained : after.find? (fun other => !before.contains other &&
      isForeign (.human userId) other) = none)
    (hreworded : (if same then none
      else (after.find? (isForeign (.human userId))).map refusal) = none)
    (hnamed : named ∈ after) (hother : named ≠ userId) : named ∈ before ∧ same := by
  have hforeign : isForeign (.human userId) named = true := isForeign_of_ne hother
  refine ⟨?_, ?_⟩
  · by_contra hnew
    exact List.find?_eq_none.mp hgained named hnamed (by simp [hforeign, hnew])
  · by_contra hchanged
    rw [if_neg hchanged, Option.map_eq_none_iff] at hreworded
    exact List.find?_eq_none.mp hreworded named hnamed hforeign

theorem correctionAttributionRefusal_none {objectId : Id} {action : String}
    {before after : AcceptedObject}
    (h : correctionAttributionRefusal (.human userId) objectId action before after = none)
    (hnames : Names after named) (hother : named ≠ userId) :
    Names before named ∧ objectStatement after = objectStatement before := by
  unfold correctionAttributionRefusal at h
  dsimp only at h
  split at h
  · cases h
  · rename_i hgained
    exact named_of_unrefused hgained h hnames hother

theorem acceptanceAttributionRefusal_none {objectId proposalId : Id} {staged : AcceptedObject}
    (h : acceptanceAttributionRefusal (.human userId) objectId proposalId staged object = none)
    (hnames : Names object named) (hother : named ≠ userId) :
    Names staged named ∧ objectStatement object = objectStatement staged := by
  unfold acceptanceAttributionRefusal at h
  dsimp only at h
  rw [show (!isHuman (.human userId)) = false from rfl, if_neg Bool.false_ne_true] at h
  split at h
  · cases h
  · rename_i hgained
    exact named_of_unrefused hgained h hnames hother

theorem selfStagedReadingRefusal_none {proposalId : Option Id} {proposer : Option Proposer}
    {stagedBy : Actor}
    (h : selfStagedReadingRefusal (.human userId) proposalId proposer stagedBy
      (payloadAttributions object.payload) = none)
    (hnames : Names object named) (hother : named ≠ userId) : stagedBy ≠ .human userId := by
  rintro rfl
  unfold selfStagedReadingRefusal at h
  dsimp only at h
  rw [if_neg (by simp)] at h
  split at h
  · cases h
  · rw [Option.map_eq_none_iff] at h
    exact List.find?_eq_none.mp h named hnames (by simpa using hother)

theorem names_owner (htype : object.type = .commitment) (hnames : Names object named) :
    object.payload.owner? = some named := by
  unfold AcceptedObject.type at htype
  unfold Names payloadAttributions at hnames
  cases hpayload : object.payload with
  | commitment payload =>
    rw [hpayload] at hnames
    simp only [Payload.attribution, Option.mem_toList, Option.filter_eq_some_iff] at hnames
    exact hnames.1
  | decision payload => simp [hpayload, Payload.type] at htype
  | openQuestion payload => simp [hpayload, Payload.type] at htype
  | claim payload => simp [hpayload, Payload.type] at htype
  | objective payload => simp [hpayload, Payload.type] at htype

theorem lapseVerification_sameSentence (before : AcceptedObject) (plan : CorrectionPlan) :
    SameSentence plan.object (lapseVerification before plan).object := by
  unfold lapseVerification
  split
  · rename_i held next hheld hnext
    split
    · unfold SameSentence objectStatement
      rw [hnext]
      exact ⟨rfl, rfl⟩
    · exact SameSentence.refl _
  · exact SameSentence.refl _

theorem checkPlan_named {correction : ObjectCorrected} {record : ObjectRecord}
    {plan committed : CorrectionPlan}
    (hcheck : checkPlan state correction record (.human userId) plan = .ok committed)
    (hnames : Names committed.object named) (hother : named ≠ userId) :
    Names record.object named ∧
      objectStatement record.object = objectStatement committed.object := by
  have hlapsed := checkPlan_ok hcheck
  have hsentence := lapseVerification_sameSentence record.object plan
  rw [← hlapsed] at hsentence
  simp only [checkPlan, bind_eq_ok, refuseWith_eq_ok, exists_const] at hcheck
  obtain ⟨hbefore, htext⟩ :=
    correctionAttributionRefusal_none hcheck.1 (hsentence.names hnames) hother
  exact ⟨hbefore, htext.symm.trans hsentence.2⟩

variable [Unicode]

theorem checkAcceptance_named {proposal : Option ProposalRecord}
    {messages : Option (List ProvenanceMessage)}
    (hcheck : checkAcceptance state object (.human userId) messages = .ok proposal)
    (hnames : Names object named) (hother : named ≠ userId) :
    object.type ≠ .commitment ∧
      ∃ proposalId record, object.provenance.proposalId = some proposalId ∧
        state.proposal? proposalId = some record ∧ record.stagedBy ≠ .human userId ∧
        named ∈ payloadAttributions record.proposal.payload ∧
        record.proposal.payload.text = objectStatement object := by
  obtain ⟨-, hstaged, howner, hreading, -⟩ := checkAcceptance_gates hcheck
  have hstager := selfStagedReadingRefusal_none hstaged hnames hother
  refine ⟨?_, ?_⟩
  · intro htype
    have hrefusal := howner named (names_owner htype hnames)
    simp [ownerConfirmRefusal, hother.symm] at hrefusal
  · rcases citedProposal_ok (checkAcceptance_ok hcheck).2 with
      ⟨-, rfl⟩ | ⟨proposalId, record, hcited, rfl, hchecked⟩
    · exact absurd rfl hstager
    · obtain ⟨hown, -⟩ := checkCitedProposal_ok hchecked
      obtain ⟨hread, htext⟩ := acceptanceAttributionRefusal_none (hreading record rfl) hnames hother
      exact ⟨proposalId, record, hcited, PlainObject.get_eq_own.mp hown, hstager, hread, htext.symm⟩

theorem dispatch_named {entry : AuthoredEvent} {record : ObjectRecord}
    (hactor : entry.trusted.actor = .human userId) (h : dispatch state entry = .ok next)
    (hrecord : next.object? id = some record) (hnames : Names record.object named)
    (hother : named ≠ userId) :
    NamedBefore state id record.object named ∨
      (state.object? id = none ∧
        NamedByReading state entry.event (.human userId) record.object named) := by
  have hkept : state.object? id = some record → NamedBefore state id record.object named :=
    fun hheld => (SameSentence.refl _).namedBefore hheld hnames
  cases dispatch_applied h with
  | recorded hbody hfree hnoted =>
    refine Or.inl (hkept ?_)
    unfold CoreState.object? at hrecord ⊢
    rwa [← hnoted.1]
  | rejected hbody hown hmatch hopen => exact Or.inl (hkept hrecord)
  | superseded hbody hown hmatch hopen hreplacement => exact Or.inl (hkept hrecord)
  | accepted hbody hfree hcheck =>
    rw [hactor] at hcheck
    rw [commitAcceptance_object? hfree] at hrecord
    split at hrecord
    · rename_i hid
      cases hrecord
      obtain ⟨htype, hread⟩ := checkAcceptance_named hcheck hnames hother
      refine Or.inr ⟨?_, hbody, htype, hread⟩
      rw [hid]
      exact (PlainObject.get_eq_absent.mp hfree).1
    · exact Or.inl (hkept hrecord)
  | unchanged hbody hhuman => exact Or.inl (hkept hrecord)
  | @corrected correction before planned committed hbody hhuman hown hplan hcheck =>
    have hrel := commitPlan_object? entry.event.id entry.event.at_ entry.trusted.actor committed
      hown id
    rw [hrecord] at hrel
    rw [hactor] at hcheck
    split at hrel
    · rename_i hid
      cases hrel with
      | some hmoved =>
        have hsentence := hmoved.sameSentence
        have hcommitted : Names committed.object named := hsentence.names hnames
        obtain ⟨hbefore, htext⟩ := checkPlan_named hcheck hcommitted hother
        exact Or.inl ⟨before, by rw [hid, hown], hbefore, htext.trans hsentence.2⟩
    · obtain ⟨held, hheld, hmoved⟩ := exists_before_of_rel hrel
      exact Or.inl (hmoved.sameSentence.namedBefore hheld hnames)
  | @related relation ends hbody hcheck =>
    rcases commitRelation_cases entry.event.at_ hcheck with
      ⟨targetId, target, -, -, hheld, -, heq⟩ | ⟨question, -, hheld, hpayload, -, -, -, heq⟩ |
      ⟨-, -, heq⟩
    · rw [heq, object?_setObject (object?_ne_proto hheld)] at hrecord
      split at hrecord
      · rename_i hid
        cases hrecord
        have hmoved := repointed_setSuperseded target (some relation.fromObjectId) entry.event.at_
        exact Or.inl (hmoved.sameSentence.namedBefore (by rw [hid, hheld]) hnames)
      · exact Or.inl (hkept hrecord)
    · rw [heq, object?_setObject (object?_ne_proto hheld)] at hrecord
      split at hrecord
      · -- a question names nobody
        cases hrecord
        simp [Names, payloadAttributions, Payload.attribution] at hnames
      · exact Or.inl (hkept hrecord)
    · rw [heq] at hrecord
      exact Or.inl (hkept hrecord)

/-- Nobody is committed or quoted by another person's sentence: whoever an object names after a
person's event, besides that person, it named before with the same sentence, or the event accepted it
out of a reading that somebody else staged, and then it is no commitment. -/
theorem nobody_named_by_another {Raw : Type} (schema : EventSchema Raw) {row : Row Raw}
    {outcome : EventOutcome} {record : ObjectRecord} (hactor : row.trusted.actor = .human userId)
    (h : appendEvent schema state row = .ok (outcome, next))
    (hrecord : next.object? id = some record) (hnames : Names record.object named)
    (hother : named ≠ userId) :
    NamedBefore state id record.object named ∨
      (state.object? id = none ∧ ∃ event, schema.safeParse row.event = .ok event ∧
        NamedByReading state event (.human userId) record.object named) := by
  rcases appendEvent_facts h with hsame | ⟨event, settled, hparse, hdispatch, hsame⟩
  · unfold CoreState.object? at hrecord
    rw [hsame.1] at hrecord
    exact Or.inl ((SameSentence.refl _).namedBefore hrecord hnames)
  · unfold CoreState.object? at hrecord
    rw [hsame.1] at hrecord
    have hentry : (⟨event, row.trusted⟩ : AuthoredEvent).trusted.actor = .human userId := hactor
    rcases dispatch_named hentry hdispatch hrecord hnames hother with hbefore | ⟨hnew, hread⟩
    · exact Or.inl hbefore
    · exact Or.inr ⟨hnew, event, hparse, hread⟩

end People

section PeopleRuns

/-- What the model `reader` makes of something alice said. -/
def readingOfAlice : Proposal where
  stored := ⟨"p", "room", ⟨99, 2⟩, .model "reader", ["m1"], some "The build is green.", none,
    "2026-01-01T00:00:00.000Z", .claim ⟨"The build is green.", "alice", .unverified⟩⟩
  status := .proposed

def claimOfAlice : AcceptedObject :=
  { openQuestion "c" "" with
    provenance := ⟨["m1"], some "p", none⟩
    payload := .claim ⟨"The build is green.", "alice", .unverified⟩ }

def readLog : List AuthoredEvent :=
  [⟨⟨"e1", "2026-01-01T00:00:01.000Z", .proposalRecorded readingOfAlice⟩, ⟨.model "reader", none⟩⟩]

def acceptOfAlice : AuthoredEvent :=
  humanEvent "e2" "2026-01-01T00:00:02.000Z" (.objectAccepted claimOfAlice)

theorem alice_named_by_reading : ∃ record,
    (@offer Unicode.ascii (@offerAll Unicode.ascii readLog) acceptOfAlice).object? "c" =
      some record ∧ Names record.object "alice" ∧
    (NamedBefore (@offerAll Unicode.ascii readLog) "c" record.object "alice" ∨
      ((@offerAll Unicode.ascii readLog).object? "c" = none ∧
        ∃ event, parsedSchema.safeParse acceptOfAlice.row.event = .ok event ∧
          NamedByReading (@offerAll Unicode.ascii readLog) event (.human "u") record.object
            "alice")) := by
  have hok : (@step Unicode.ascii (@offerAll Unicode.ascii readLog) acceptOfAlice).isOk = true := by
    decide +kernel
  obtain ⟨outcome, hrow⟩ := @appendEvent_offer Unicode.ascii _ acceptOfAlice hok
  have hminted : ((@offer Unicode.ascii (@offerAll Unicode.ascii readLog) acceptOfAlice).object?
      "c").map (fun record => record.object) = some claimOfAlice := by
    decide +kernel
  obtain ⟨record, hrecord, hclaim⟩ := Option.map_eq_some_iff.mp hminted
  have hnames : Names record.object "alice" := by
    rw [hclaim]
    unfold Names
    decide
  have hactor : acceptOfAlice.row.trusted.actor = .human "u" := rfl
  refine ⟨record, hrecord, hnames, ?_⟩
  exact @nobody_named_by_another _ _ _ _ _ Unicode.ascii _ parsedSchema _ _ _ hactor hrow hrecord
    hnames (by decide)

end PeopleRuns

end Core
