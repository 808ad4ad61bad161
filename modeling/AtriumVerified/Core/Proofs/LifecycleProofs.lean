import AtriumVerified.Core.Proofs.IntegrityProofs

/-!
# The life of a proposal

A proposal is recorded once and leaves `proposed` at most once. An acceptance that cites it writes the
object and the proposal in one event, so the two keep naming each other: corrections never touch the
envelope of an object, and nothing else touches an accepted proposal.
-/

namespace Core

open Checked Js
open CoreState (fail)

section Runs

variable [Unicode] {log : List AuthoredEvent} {state next : CoreState} {entry : AuthoredEvent}
  {outcome : EventOutcome}

theorem Reached.exists_log {allowed : CoreState → AuthoredEvent → Prop} (h : Reached allowed state) :
    ∃ log, ReachedBy log state := by
  induction h with
  | start => exact ⟨[], ReachedBy.start⟩
  | next _ _ hstep ih =>
    obtain ⟨log, hlog⟩ := ih
    exact ⟨_, hlog.next hstep⟩

theorem ReachedBy.reached (h : ReachedBy log state) : Reached anyEvent state := by
  induction h with
  | start => exact Reached.start
  | next _ hstep ih => exact ih.next trivial hstep

theorem step_appliedRow (h : step state entry = .ok (outcome, next)) :
    (appliedRow state entry = [] ∧ SameFacts next state) ∨
      (appliedRow state entry = [entry] ∧ ∃ settled, dispatch state entry = .ok settled ∧
        SameFacts next settled) := by
  unfold appliedRow
  unfold step at h
  cases hrejection : rejectionFor state entry.event with
  | some rejection =>
    rw [hrejection] at h
    cases h
    exact Or.inl ⟨rfl, rfl, rfl, rfl, rfl⟩
  | none =>
    rw [hrejection] at h
    obtain ⟨roomId, settled, applied, -, hsettle, -, hnext⟩ := consume_ok h
    have hkept : SameFacts next settled := by
      rcases hnext with rfl | ⟨reason, rfl⟩
      · exact ⟨rfl, rfl, rfl, rfl⟩
      · exact ⟨rfl, rfl, rfl, rfl⟩
    rcases settle_ok hsettle with ⟨hdispatch, -⟩ | ⟨reason, hdispatch, -, rfl⟩
    · rw [hdispatch]
      exact Or.inr ⟨rfl, settled, rfl, hkept⟩
    · rw [hdispatch]
      exact Or.inl ⟨rfl, hkept⟩

theorem ReachedBy.invariant (Inv : List AuthoredEvent → CoreState → Prop)
    (hstart : Inv [] emptyState)
    (hfacts : ∀ {log : List AuthoredEvent} {a b : CoreState}, SameFacts a b → Inv log b → Inv log a)
    (hstep : ∀ {log : List AuthoredEvent} {state next : CoreState} {entry : AuthoredEvent},
      Inv log state → dispatch state entry = .ok next → Inv (log ++ [entry]) next)
    (h : ReachedBy log state) : Inv log state := by
  induction h with
  | start => exact hstart
  | next _ hrow ih =>
    rcases step_appliedRow hrow with ⟨happlied, hsame⟩ | ⟨happlied, settled, hdispatch, hsame⟩
    · rw [happlied, List.append_nil]
      exact hfacts hsame ih
    · rw [happlied]
      exact hfacts hsame (hstep ih hdispatch)

end Runs

/-! ## Proposals and their objects -/

/-- Proposals and objects name each other, and the log has where each object came from. -/
structure Linked (log : List AuthoredEvent) (state : CoreState) : Prop where
  settled : ∀ id record, state.proposal? id = some record →
    (record.status = .accepted ↔ record.acceptedObjectId ≠ none)
  minted : ∀ id record objectId, state.proposal? id = some record →
    record.acceptedObjectId = some objectId → ∃ object, state.object? objectId = some object ∧
      object.object.provenance.proposalId = some id ∧
      object.object.roomId = record.proposal.roomId
  cited : ∀ objectId object id, state.object? objectId = some object →
    object.object.provenance.proposalId = some id → ∃ record, state.proposal? id = some record ∧
      record.acceptedObjectId = some objectId
  origin : ∀ objectId record, state.object? objectId = some record →
    ∃ entry ∈ log, ∃ object, entry.event.body = .objectAccepted object ∧ object.id = objectId
  kept : ∀ entry ∈ log, ∀ object, entry.event.body = .objectAccepted object →
    ∃ record, state.object? object.id = some record ∧
      record.object.provenance = object.provenance
  typed : ∀ entry ∈ log, ∀ object id, entry.event.body = .objectAccepted object →
    object.provenance.proposalId = some id → ∃ record, state.proposal? id = some record ∧
      record.proposal.type = object.type

section Links

variable {log : List AuthoredEvent} {state next : CoreState} {entry : AuthoredEvent}

theorem linked_empty : Linked [] emptyState := by
  refine ⟨?_, ?_, ?_, ?_, ?_, ?_⟩
  · rintro id record ⟨⟩
  · rintro id record objectId ⟨⟩
  · rintro objectId object id ⟨⟩
  · rintro objectId record ⟨⟩
  · rintro entry ⟨⟩
  · rintro entry ⟨⟩

theorem Linked.snoc (h : Linked log state)
    (hbody : ∀ object, entry.event.body ≠ .objectAccepted object) :
    Linked (log ++ [entry]) state where
  settled := h.settled
  minted := h.minted
  cited := h.cited
  origin := by
    intro objectId record hrecord
    obtain ⟨row, hrow, object, hobject⟩ := h.origin objectId record hrecord
    exact ⟨row, List.mem_append_left _ hrow, object, hobject⟩
  kept := by
    intro row hrow object hobject
    rcases List.mem_append.mp hrow with hold | hnew
    · exact h.kept row hold object hobject
    · obtain rfl : row = entry := by simpa using hnew
      exact absurd hobject (hbody object)
  typed := by
    intro row hrow object id hobject
    rcases List.mem_append.mp hrow with hold | hnew
    · exact h.typed row hold object id hobject
    · obtain rfl : row = entry := by simpa using hnew
      exact absurd hobject (hbody object)

/-- An event that carries the objects over and touches no proposal keeps the links. -/
theorem Linked.carried (h : Linked log state) (hover : CarriedOver state next)
    (hproposals : next.proposals = state.proposals) : Linked log next := by
  have hproposal : next.proposal? = state.proposal? := by
    funext id
    unfold CoreState.proposal?
    rw [hproposals]
  refine ⟨?_, ?_, ?_, ?_, ?_, ?_⟩
  · rw [hproposal]
    exact h.settled
  · intro id record objectId hrecord haccepted
    rw [hproposal] at hrecord
    obtain ⟨before, hbefore, hcites, hroom⟩ := h.minted id record objectId hrecord haccepted
    obtain ⟨after, hafter, ⟨-, hsameRoom, -, hprovenance, -⟩, -⟩ := hover.forth _ before hbefore
    refine ⟨after, hafter, ?_, hsameRoom.trans hroom⟩
    rw [hprovenance]
    exact hcites
  · intro objectId after id hafter hcites
    obtain ⟨before, hbefore, ⟨-, -, -, hprovenance, -⟩, -⟩ := hover.back objectId after hafter
    rw [hproposal]
    rw [hprovenance] at hcites
    exact h.cited objectId before id hbefore hcites
  · intro objectId after hafter
    obtain ⟨before, hbefore, -⟩ := hover.back objectId after hafter
    exact h.origin objectId before hbefore
  · intro row hrow object hobject
    obtain ⟨before, hbefore, hsame⟩ := h.kept row hrow object hobject
    obtain ⟨after, hafter, ⟨-, -, -, hprovenance, -⟩, -⟩ := hover.forth _ before hbefore
    exact ⟨after, hafter, hprovenance.trans hsame⟩
  · rw [hproposal]
    exact h.typed

/-- Writing a proposal that is not accepted, new or over one that was not, keeps the links. -/
theorem Linked.setProposal (h : Linked log state) {proposalId : Id} {written : ProposalRecord}
    (hobjects : next.objects = state.objects)
    (hset : ∀ id, next.proposal? id =
      if id = proposalId then some written else state.proposal? id)
    (hstatus : written.status ≠ .accepted) (hnone : written.acceptedObjectId = none)
    (hold : ∀ record, state.proposal? proposalId = some record →
      record.acceptedObjectId = none ∧ written.proposal.type = record.proposal.type) :
    Linked log next := by
  have hobject : next.object? = state.object? := by
    funext id
    unfold CoreState.object?
    rw [hobjects]
  refine ⟨?_, ?_, ?_, ?_, ?_, ?_⟩
  · intro id record hrecord
    rw [hset] at hrecord
    split at hrecord
    · cases hrecord
      simp [hstatus, hnone]
    · exact h.settled id record hrecord
  · intro id record objectId hrecord haccepted
    rw [hset] at hrecord
    split at hrecord
    · cases hrecord
      rw [hnone] at haccepted
      cases haccepted
    · rw [hobject]
      exact h.minted id record objectId hrecord haccepted
  · intro objectId object id hcited hcites
    rw [hobject] at hcited
    obtain ⟨record, hrecord, haccepted⟩ := h.cited objectId object id hcited hcites
    refine ⟨record, ?_, haccepted⟩
    rw [hset, if_neg]
    · exact hrecord
    · rintro rfl
      rw [(hold record hrecord).1] at haccepted
      cases haccepted
  · rw [hobject]
    exact h.origin
  · rw [hobject]
    exact h.kept
  · intro row hrow object id hbody hcites
    obtain ⟨record, hrecord, htype⟩ := h.typed row hrow object id hbody hcites
    rw [hset]
    by_cases hid : id = proposalId
    · rw [hid] at hrecord
      exact ⟨written, if_pos hid, (hold record hrecord).2.trans htype⟩
    · exact ⟨record, (if_neg hid).trans hrecord, htype⟩

/-- What an acceptance leaves to follow, whatever it does to the proposals. -/
theorem Linked.mint (h : Linked log state) {object : AcceptedObject} {minted : ObjectRecord}
    (hbody : entry.event.body = .objectAccepted object) (hnone : state.object? object.id = none)
    (hminted : minted.object = object)
    (hobject : ∀ id, next.object? id = if id = object.id then some minted else state.object? id)
    (hsettled : ∀ id record, next.proposal? id = some record →
      (record.status = .accepted ↔ record.acceptedObjectId ≠ none))
    (hproposals : ∀ id record, next.proposal? id = some record → state.proposal? id = some record ∨
      (record.acceptedObjectId = some object.id ∧ object.provenance.proposalId = some id ∧
        object.roomId = record.proposal.roomId))
    (hcited : ∀ id, object.provenance.proposalId = some id → ∃ record,
      next.proposal? id = some record ∧ record.acceptedObjectId = some object.id ∧
      record.proposal.type = object.type)
    (hheld : ∀ id record, state.proposal? id = some record → ∃ after,
      next.proposal? id = some after ∧ after.proposal.type = record.proposal.type ∧
      ∀ objectId, record.acceptedObjectId = some objectId → after = record) :
    Linked (log ++ [entry]) next := by
  have hkept : Kept state next := by
    intro id record hrecord
    rw [hobject, if_neg]
    · exact hrecord
    · rintro rfl
      rw [hnone] at hrecord
      cases hrecord
  refine ⟨hsettled, ?_, ?_, ?_, ?_, ?_⟩
  · intro id record objectId hrecord haccepted
    rcases hproposals id record hrecord with hold | ⟨hself, hcites, hroom⟩
    · obtain ⟨held, hobjectHeld, hrest⟩ := h.minted id record objectId hold haccepted
      exact ⟨held, hkept _ _ hobjectHeld, hrest⟩
    · rw [hself] at haccepted
      cases haccepted
      refine ⟨minted, ?_, ?_, ?_⟩
      · rw [hobject, if_pos rfl]
      · rw [hminted]
        exact hcites
      · rw [hminted]
        exact hroom
  · intro objectId held id hfound hcites
    rw [hobject] at hfound
    split at hfound
    · rename_i hid
      cases hfound
      rw [hminted] at hcites
      obtain ⟨record, hrecord, haccepted, -⟩ := hcited id hcites
      exact ⟨record, hrecord, hid ▸ haccepted⟩
    · obtain ⟨record, hrecord, haccepted⟩ := h.cited objectId held id hfound hcites
      obtain ⟨after, hafter, -, hsame⟩ := hheld id record hrecord
      rw [hsame objectId haccepted] at hafter
      exact ⟨record, hafter, haccepted⟩
  · intro objectId record hrecord
    rw [hobject] at hrecord
    split at hrecord
    · rename_i hid
      exact ⟨entry, List.mem_append_right _ (List.mem_singleton_self entry), object, hbody, hid.symm⟩
    · obtain ⟨row, hrow, held, hheldBody⟩ := h.origin objectId record hrecord
      exact ⟨row, List.mem_append_left _ hrow, held, hheldBody⟩
  · intro row hrow held hheldBody
    rcases List.mem_append.mp hrow with hold | hnew
    · obtain ⟨record, hrecord, hsame⟩ := h.kept row hold held hheldBody
      exact ⟨record, hkept _ _ hrecord, hsame⟩
    · obtain rfl : row = entry := by simpa using hnew
      rw [hbody] at hheldBody
      cases hheldBody
      refine ⟨minted, ?_, ?_⟩
      · rw [hobject, if_pos rfl]
      · rw [hminted]
  · intro row hrow held id hheldBody hcites
    rcases List.mem_append.mp hrow with hold | hnew
    · obtain ⟨record, hrecord, htype⟩ := h.typed row hold held id hheldBody hcites
      obtain ⟨after, hafter, hsame, -⟩ := hheld id record hrecord
      exact ⟨after, hafter, hsame.trans htype⟩
    · obtain rfl : row = entry := by simpa using hnew
      rw [hbody] at hheldBody
      cases hheldBody
      obtain ⟨record, hrecord, -, htype⟩ := hcited id hcites
      exact ⟨record, hrecord, htype⟩

theorem Linked.acceptedAs_eq (h : Linked log state) {id : Id} {record : ProposalRecord}
    (hrecord : state.proposal? id = some record) (hstatus : record.status = .accepted) :
    record.acceptedObjectId = some (acceptedAs state id) := by
  obtain ⟨objectId, hsome⟩ := Option.ne_none_iff_exists'.mp ((h.settled id record hrecord).mp hstatus)
  unfold acceptedAs
  rw [hrecord, Option.bind_some, hsome, Option.getD_some]

theorem Linked.bijection (h : Linked log state) :
    Set.BijOn (acceptedAs state) (acceptedProposals state) (mintedObjects state) := by
  refine ⟨?_, ?_, ?_⟩
  · rintro id ⟨record, hrecord, hstatus⟩
    obtain ⟨object, hobject, hcites, -⟩ :=
      h.minted id record _ hrecord (h.acceptedAs_eq hrecord hstatus)
    exact ⟨object, hobject, by rw [hcites]; rfl⟩
  · rintro id ⟨record, hrecord, hstatus⟩ other ⟨record', hrecord', hstatus'⟩ hsame
    obtain ⟨object, hobject, hcites, -⟩ :=
      h.minted id record _ hrecord (h.acceptedAs_eq hrecord hstatus)
    obtain ⟨object', hobject', hcites', -⟩ :=
      h.minted other record' _ hrecord' (h.acceptedAs_eq hrecord' hstatus')
    rw [hsame, hobject'] at hobject
    cases hobject
    rw [hcites] at hcites'
    exact Option.some.inj hcites'
  · rintro objectId ⟨object, hobject, hcites⟩
    obtain ⟨id, hid⟩ := Option.isSome_iff_exists.mp hcites
    obtain ⟨record, hrecord, haccepted⟩ := h.cited objectId object id hobject hid
    have hstatus : record.status = .accepted := by
      rw [h.settled id record hrecord, haccepted]
      rintro ⟨⟩
    refine ⟨id, ⟨record, hrecord, hstatus⟩, ?_⟩
    have hsome := h.acceptedAs_eq hrecord hstatus
    rw [haccepted] at hsome
    exact (Option.some.inj hsome).symm

theorem Linked.lifecycle (h : Linked log state) : Lifecycle log state where
  settled := h.settled
  bijection := h.bijection
  rooms := by
    intro id record hrecord hstatus
    exact h.minted id record _ hrecord (h.acceptedAs_eq hrecord hstatus)
  types := by
    intro id record hrecord hstatus
    obtain ⟨object, hobject, hcites, -⟩ :=
      h.minted id record _ hrecord (h.acceptedAs_eq hrecord hstatus)
    refine ⟨h.origin _ object hobject, ?_⟩
    intro row hrow accepted hbody hid
    obtain ⟨held, hheld, hprovenance⟩ := h.kept row hrow accepted hbody
    rw [hid, hobject] at hheld
    cases hheld
    rw [hprovenance] at hcites
    obtain ⟨record', hrecord', htype⟩ := h.typed row hrow accepted id hbody hcites
    rw [hrecord] at hrecord'
    cases hrecord'
    exact htype.symm

variable [Unicode]

theorem Linked.accepted (h : Linked log state) {object : AcceptedObject}
    {messages : Option (List ProvenanceMessage)} {proposal : Option ProposalRecord} {actor : Actor}
    (hbody : entry.event.body = .objectAccepted object) (at_ : Timestamp)
    (hfree : state.objects.get object.id = .absent)
    (hcheck : checkAcceptance state object actor messages = .ok proposal) :
    Linked (log ++ [entry]) (commitAcceptance state at_ object actor proposal) := by
  have hnone : state.object? object.id = none := (PlainObject.get_eq_absent.mp hfree).1
  rcases commitAcceptance_proposal? at_ hcheck with
    ⟨hdirect, -, hsame⟩ | ⟨proposalId, record, hcites, -, hchecked, hset⟩
  · refine h.mint hbody hnone rfl (commitAcceptance_object? hfree) ?_ ?_ ?_ ?_
    · intro id record hrecord
      rw [hsame] at hrecord
      exact h.settled id record hrecord
    · intro id record hrecord
      rw [hsame] at hrecord
      exact Or.inl hrecord
    · intro id hcited
      rw [hdirect] at hcited
      cases hcited
    · intro id record hrecord
      exact ⟨record, (hsame id).trans hrecord, rfl, fun _ _ => rfl⟩
  · obtain ⟨hown, -, hunsettled, -, htype, hroom, -⟩ := checkCitedProposal_ok hchecked
    have hheld : state.proposal? proposalId = some record := PlainObject.get_eq_own.mp hown
    refine h.mint hbody hnone rfl (commitAcceptance_object? hfree) ?_ ?_ ?_ ?_
    · intro id after hafter
      rw [hset] at hafter
      split at hafter
      · cases hafter
        simp
      · exact h.settled id after hafter
    · intro id after hafter
      rw [hset] at hafter
      split at hafter
      · rename_i hid
        cases hafter
        exact Or.inr ⟨rfl, hid ▸ hcites, hroom.symm⟩
      · exact Or.inl hafter
    · intro id hcited
      rw [hcites] at hcited
      cases hcited
      exact ⟨_, (hset proposalId).trans (if_pos rfl), rfl, htype⟩
    · intro id before hbefore
      by_cases hid : id = proposalId
      · rw [hid, hheld] at hbefore
        cases hbefore
        refine ⟨_, (hset id).trans (if_pos hid), rfl, ?_⟩
        intro objectId haccepted
        rw [hunsettled] at haccepted
        cases haccepted
      · exact ⟨before, (hset id).trans ((if_neg hid).trans hbefore), rfl, fun _ _ => rfl⟩

omit [Unicode] in
/-- Closing an open proposal without accepting it keeps the links. -/
theorem Linked.close (h : Linked log state) {proposalId : Id} {record written : ProposalRecord}
    (hown : state.proposal? proposalId = some record) (hopen : record.status = .proposed)
    (hstatus : written.status ≠ .accepted)
    (hkept : written.acceptedObjectId = record.acceptedObjectId ∧
      written.proposal = record.proposal) :
    Linked log (state.setProposal proposalId written) := by
  have hunsettled : record.acceptedObjectId = none := by
    by_contra hsome
    have hsettled := (h.settled proposalId record hown).mpr hsome
    rw [hopen] at hsettled
    cases hsettled
  refine h.setProposal rfl (proposal?_setProposal (proposal?_ne_proto hown) _) hstatus
    (hkept.1.trans hunsettled) ?_
  intro held hheld
  rw [hown] at hheld
  cases hheld
  exact ⟨hunsettled, congrArg (·.type) hkept.2⟩

/-- An applied event keeps the links. -/
theorem dispatch_linked (h : Linked log state) (hdispatch : dispatch state entry = .ok next) :
    Linked (log ++ [entry]) next := by
  cases dispatch_applied hdispatch with
  | @recorded proposal noted hbody hfree hnoted =>
    refine Linked.snoc ?_ (fun object hother => by rw [hbody] at hother; cases hother)
    have hset := proposal?_setProposal (s := noted) (PlainObject.ne_proto_of_absent hfree)
      ⟨proposal.stored, entry.trusted.actor, .proposed, none, none, none, none⟩
    have hsame : noted.proposal? = state.proposal? := by
      funext id
      unfold CoreState.proposal?
      rw [hnoted.2.2.1]
    rw [hsame] at hset
    refine h.setProposal hnoted.1 hset ?_ rfl ?_
    · rintro ⟨⟩
    · intro record hheld
      have hnone : state.proposal? proposal.stored.id = none :=
        (PlainObject.get_eq_absent.mp hfree).1
      rw [hnone] at hheld
      cases hheld
  | rejected hbody hown hmatch hopen =>
    refine Linked.snoc ?_ (fun object hother => by rw [hbody] at hother; cases hother)
    exact h.close hown hopen (by simp) ⟨rfl, rfl⟩
  | superseded hbody hown hmatch hopen hreplacement =>
    refine Linked.snoc ?_ (fun object hother => by rw [hbody] at hother; cases hother)
    exact h.close hown hopen (by simp) ⟨rfl, rfl⟩
  | accepted hbody hfree hcheck => exact h.accepted hbody _ hfree hcheck
  | unchanged hbody hhuman =>
    refine Linked.snoc ?_ (fun object hother => by rw [hbody] at hother; cases hother)
    exact h.carried (CarriedOver.of_objects rfl) rfl
  | corrected hbody hhuman hown hplan hcheck =>
    refine Linked.snoc ?_ (fun object hother => by rw [hbody] at hother; cases hother)
    exact h.carried (commitPlan_carriedOver _ hown hplan hcheck) commitPlan_proposals
  | related hbody hcheck =>
    refine Linked.snoc ?_ (fun object hother => by rw [hbody] at hother; cases hother)
    exact h.carried (commitRelation_carriedOver _ hcheck) commitRelation_proposals

theorem ReachedBy.linked (h : ReachedBy log state) : Linked log state := by
  refine h.invariant Linked linked_empty ?_ ?_
  · intro log a b hsame hlinked
    exact hlinked.carried (CarriedOver.of_objects hsame.1) hsame.2.2.1
  · intro log state next entry hlinked hdispatch
    exact dispatch_linked hlinked hdispatch

end Links

/-! ## Settled proposals -/

section Settled

variable [Unicode] {state next : CoreState} {entry : AuthoredEvent} {outcome : EventOutcome} {id : Id}
  {record : ProposalRecord}

/-- No event touches a proposal that has left `proposed`. -/
theorem dispatch_settled (h : dispatch state entry = .ok next)
    (hrecord : state.proposal? id = some record) (hstatus : record.status ≠ .proposed) :
    next.proposal? id = some record := by
  -- Every handler that writes a proposal has seen it `proposed` or absent.
  have hother : ∀ {proposalId : Id} {held : ProposalRecord},
      state.proposal? proposalId = some held → held.status = .proposed → id ≠ proposalId := by
    rintro proposalId held hheld hopen rfl
    rw [hrecord] at hheld
    cases hheld
    exact hstatus hopen
  cases dispatch_applied h with
  | @recorded proposal noted hbody hfree hnoted =>
    rw [proposal?_setProposal (PlainObject.ne_proto_of_absent hfree), if_neg]
    · unfold CoreState.proposal?
      rw [hnoted.2.2.1]
      exact hrecord
    · rintro rfl
      have hnone : state.proposal? proposal.stored.id = none :=
        (PlainObject.get_eq_absent.mp hfree).1
      rw [hnone] at hrecord
      cases hrecord
  | rejected hbody hown hmatch hopen =>
    rw [proposal?_setProposal (proposal?_ne_proto hown), if_neg (hother hown hopen)]
    exact hrecord
  | superseded hbody hown hmatch hopen hreplacement =>
    rw [proposal?_setProposal (proposal?_ne_proto hown), if_neg (hother hown hopen)]
    exact hrecord
  | accepted hbody hfree hcheck =>
    rcases commitAcceptance_proposal? entry.event.at_ hcheck with
      ⟨-, -, hsame⟩ | ⟨proposalId, held, -, -, hchecked, hset⟩
    · rw [hsame]
      exact hrecord
    · obtain ⟨hown, hopen, -⟩ := checkCitedProposal_ok hchecked
      rw [hset, if_neg (hother (PlainObject.get_eq_own.mp hown) hopen)]
      exact hrecord
  | unchanged hbody hhuman => exact hrecord
  | corrected hbody hhuman hown hplan hcheck =>
    unfold CoreState.proposal?
    rw [commitPlan_proposals]
    exact hrecord
  | related hbody hcheck =>
    unfold CoreState.proposal?
    rw [commitRelation_proposals]
    exact hrecord

theorem step_settled (h : step state entry = .ok (outcome, next))
    (hrecord : state.proposal? id = some record) (hstatus : record.status ≠ .proposed) :
    next.proposal? id = some record := by
  unfold CoreState.proposal?
  rcases step_facts h with hsame | ⟨settled, hdispatch, hsame⟩
  · rw [hsame.2.2.1]
    exact hrecord
  · rw [hsame.2.2.1]
    exact dispatch_settled hdispatch hrecord hstatus

theorem later_settled {later : CoreState} (h : Later state later)
    (hrecord : state.proposal? id = some record) (hstatus : record.status ≠ .proposed) :
    later.proposal? id = some record := by
  induction h with
  | refl => exact hrecord
  | tail _ hnext ih =>
    obtain ⟨entry, outcome, hstep⟩ := hnext
    exact step_settled hstep ih hstatus

/-- Over every run, a proposal that has left `proposed` keeps its status, and the accepted proposals
and the objects that came out of them name each other one to one. -/
theorem proposal_lifecycle {log : List AuthoredEvent} (h : ReachedBy log state) :
    (∀ later, Later state later → ∀ id record, state.proposal? id = some record →
        record.status ≠ .proposed →
        ∃ after, later.proposal? id = some after ∧ after.status = record.status) ∧
      Lifecycle log state := by
  refine ⟨?_, ?_⟩
  · intro later hlater id record hrecord hstatus
    exact ⟨record, later_settled hlater hrecord hstatus, rfl⟩
  · exact h.linked.lifecycle

end Settled

section Accepted

def stagedReading (id userId : Id) (payload : Payload) : Proposal where
  stored := {
    id := id
    roomId := "room"
    confidence := ⟨1, 0⟩
    proposer := .human userId
    provenance := []
    quote := none
    interpretationId := none
    createdAt := "2026-01-01T00:00:00.000Z"
    payload := payload }
  status := .proposed

/-- A question that is staged, and accepted as `q`. -/
def acceptedLog : List AuthoredEvent :=
  [humanEvent "e1" "2026-01-01T00:00:01.000Z" (.proposalRecorded
      (stagedReading "p" "u" (.openQuestion ⟨"When do we ship?", .open⟩))),
    humanEvent "e2" "2026-01-01T00:00:02.000Z" (.objectAccepted
      { openQuestion "q" "When do we ship?" with
        provenance := { emptyProvenance with proposalId := some "p" } })]

/-- A proposal that came out as an object. -/
theorem acceptedLog_lifecycle : ∃ log, @ReachedBy Unicode.ascii log (@offerAll Unicode.ascii acceptedLog) ∧
    acceptedAs (@offerAll Unicode.ascii acceptedLog) "p" = "q" ∧
    ((@offerAll Unicode.ascii acceptedLog).proposal? "p").map ProposalRecord.status =
      some .accepted ∧
    Lifecycle log (@offerAll Unicode.ascii acceptedLog) := by
  let _ : Unicode := Unicode.ascii
  have hreached : Reached anyEvent (offerAll acceptedLog) := reached_offerAll fun _ _ _ => trivial
  obtain ⟨log, hlog⟩ := hreached.exists_log
  exact ⟨log, hlog, by decide +kernel, by decide +kernel, (proposal_lifecycle hlog).2⟩

end Accepted

end Core
