import Mathlib.Data.List.Nodup
import AtriumVerified.Core.Proofs.BlindProofs

/-!
# Proofs: ids of one cycle

No two items of a cycle bear one id. Within a source the items differ in their subject, in their
user or, where signals and relations repeat a pair, by the deduplication of the source; across the
sources they differ in the kind of their subject or in their class.
-/

namespace Core

/-! ## Lists of needs -/

section Needs

/-- The needs become items under pairwise distinct ids. -/
def Distinct (needs : List Need) : Prop :=
  (needs.map Need.id).Nodup

theorem Need.id_inj {a b : Need} (h : a.id = b.id) :
    a.userId = b.userId ∧ a.subjectKind = b.subjectKind ∧ a.objectId = b.objectId ∧ a.cls = b.cls :=
  attentionItemId_inj h

theorem distinct_nil : Distinct [] :=
  List.nodup_nil

theorem distinct_singleton (need : Need) : Distinct [need] :=
  List.nodup_singleton _

theorem distinct_append {first second : List Need} (hfirst : Distinct first)
    (hsecond : Distinct second) (hapart : ∀ a ∈ first, ∀ b ∈ second, a.id ≠ b.id) :
    Distinct (first ++ second) := by
  unfold Distinct
  rw [List.map_append, List.nodup_append']
  refine ⟨hfirst, hsecond, ?_⟩
  intro id hleft hright
  obtain ⟨a, ha, rfl⟩ := List.mem_map.mp hleft
  obtain ⟨b, hb, hsame⟩ := List.mem_map.mp hright
  exact hapart a ha b hb hsame.symm

theorem distinct_audience {audience : List Id} {ask : Id → Need}
    (hasks : ∀ id, (ask id).userId = id) (haudience : audience.Nodup) :
    Distinct (audience.map ask) := by
  unfold Distinct
  rw [List.map_map]
  refine haudience.map ?_
  intro a b hsame
  have huser := (Need.id_inj hsame).1
  rwa [hasks, hasks] at huser

theorem distinct_firstById (needs : List Need) : Distinct (firstById needs) := by
  have hkept (out rest : List Need) (hout : Distinct out) : Distinct (rest.foldl (fun out need =>
      if out.any fun held => held.id == need.id then out else out ++ [need]) out) := by
    induction rest generalizing out with
    | nil => exact hout
    | cons first rest ih =>
      apply ih
      dsimp only
      split
      · exact hout
      · next hnew =>
        refine distinct_append hout (distinct_singleton first) ?_
        intro held hheld other hother hsame
        rw [List.mem_singleton.mp hother] at hsame
        apply hnew
        rw [List.any_eq_true]
        exact ⟨held, hheld, beq_iff_eq.mpr hsame⟩
  exact hkept [] needs distinct_nil

end Needs

/-! ## Records under their ids -/

theorem pairwise_of_keyed {α : Type} {keys : List Id} {lookup : Id → Option α} {idOf : α → Id}
    (hkeys : keys.Nodup) (hkeyed : ∀ id held, lookup id = some held → idOf held = id) :
    (keys.filterMap lookup).Pairwise fun a b => idOf a ≠ idOf b := by
  rw [List.pairwise_filterMap]
  refine hkeys.imp ?_
  intro key other hne a ha b hb hsame
  rw [hkeyed key a ha, hkeyed other b hb] at hsame
  exact hne hsame

theorem nodup_sort_keys {α : Type} (o : Js.PlainObject α) : (Js.sort o.keys).Nodup :=
  (Js.sort_perm _).nodup_iff.mpr o.entries.keys_nodup

/-! ## Rosters -/

def DistinctRosters (ctx : AttentionContext) : Prop :=
  ∀ members roomId roster, ctx.members = some members → members.get roomId = .own roster →
    roster.Nodup

section Rosters

variable {ctx : AttentionContext}

theorem nodup_rosterOf (hrosters : DistinctRosters ctx) {roomId : Id} {room : List Id}
    (h : rosterOf ctx roomId = .ok room) : room.Nodup := by
  unfold rosterOf at h
  cases hmembers : ctx.members with
  | none =>
    rw [hmembers] at h
    cases h
    exact List.nodup_nil
  | some members =>
    rw [hmembers] at h
    dsimp only at h
    cases hroster : members.get roomId with
    | own roster =>
      rw [hroster] at h
      cases h
      exact (Js.sort_perm roster).nodup_iff.mpr (hrosters members roomId roster hmembers hroster)
    | inherited =>
      rw [hroster] at h
      cases h
    | absent =>
      rw [hroster] at h
      cases h
      exact List.nodup_nil

/-! ## Staged proposals -/

/-- Needs about proposals, under pairwise distinct ids. -/
structure ProposalNeeds (needs : List Need) : Prop where
  distinct : Distinct needs
  about : ∀ need ∈ needs, need.subjectKind = .proposal ∧ need.cls ≠ .mention

theorem ProposalNeeds.nil : ProposalNeeds [] :=
  ⟨distinct_nil, by simp⟩

theorem ProposalNeeds.decision {audience : List Id} (haudience : audience.Nodup)
    (proposal : StoredProposal) (reason : RationaleReason) :
    ProposalNeeds (audience.map (decisionNeed ctx proposal reason)) := by
  refine ⟨distinct_audience (fun _ => rfl) haudience, ?_⟩
  intro need hneed
  obtain ⟨userId, -, rfl⟩ := List.mem_map.mp hneed
  exact ⟨rfl, nofun⟩

theorem ProposalNeeds.review (hrosters : DistinctRosters ctx) {proposal : StoredProposal}
    {items : List Need} (h : readingReviewOutcome proposal ctx = .ok (.raise items)) :
    ProposalNeeds items := by
  unfold readingReviewOutcome at h
  dsimp only at h
  split at h
  · cases h
  · obtain ⟨room, hroom, h⟩ := Except.bind_ok h
    obtain ⟨rfl, -⟩ := raiseOrRefuse_eq (Except.ok.inj h)
    exact .decision (nodup_rosterOf hrosters hroom) proposal _

variable [Unicode]

theorem ProposalNeeds.needsYou {room : List Id} (hroom : room.Nodup) {proposal : StoredProposal}
    {verdict : AcceptanceDecision} {items : List Need}
    (h : needsYouAmong room proposal verdict ctx = .raise items) : ProposalNeeds items := by
  unfold needsYouAmong at h
  dsimp only at h
  split at h
  · next payload _ =>
    obtain ⟨rfl, -⟩ := raiseOrRefuse_eq h
    refine .decision ?_ proposal _
    cases payload.decidedBy with
    | none => exact hroom
    | some named => exact List.nodup_singleton named
  · obtain ⟨rfl, -⟩ := raiseOrRefuse_eq h
    split
    · refine ⟨distinct_singleton _, ?_⟩
      intro need hneed
      rw [List.mem_singleton.mp hneed]
      exact ⟨rfl, nofun⟩
    · exact .nil
  · split at h
    · cases h
    · obtain ⟨rfl, -⟩ := raiseOrRefuse_eq h
      exact .decision hroom proposal _

theorem ProposalNeeds.judged (hrosters : DistinctRosters ctx) {proposal : StoredProposal}
    {verdict : AcceptanceDecision} {source : AttentionSource}
    (h : judgedSource proposal verdict ctx = .ok source) : ProposalNeeds source.items := by
  unfold judgedSource at h
  dsimp only at h
  split at h
  · cases h
    exact .nil
  · split at h
    · cases h
      exact .nil
    · split at h
      · obtain ⟨outcome, houtcome, h⟩ := Except.bind_ok h
        cases outcome with
        | raise items =>
          cases h
          exact .review hrosters houtcome
        | refuse reason =>
          cases h
          exact .nil
      · split at h
        · cases h
          exact .nil
        · obtain ⟨outcome, houtcome, h⟩ := Except.bind_ok h
          obtain ⟨room, hroom, hasked⟩ := Except.bind_ok houtcome
          cases outcome with
          | refuse reason =>
            cases h
            exact .nil
          | raise items =>
            cases h
            exact .needsYou (nodup_rosterOf hrosters hroom) (Except.ok.inj hasked)

theorem ProposalNeeds.pass (hrosters : DistinctRosters ctx) {record : ProposalRecord}
    {source : AttentionSource} (h : proposalSource record ctx = .ok source) :
    ProposalNeeds source.items := by
  unfold proposalSource at h
  split at h
  · cases h
    exact .nil
  · exact .judged hrosters h

theorem ProposalNeeds.passes (hrosters : DistinctRosters ctx) {records : List ProposalRecord}
    (hdiffer : records.Pairwise fun a b => a.proposal.id ≠ b.proposal.id)
    {sources : List AttentionSource}
    (h : records.mapM (fun record => proposalSource record ctx) = .ok sources) :
    ProposalNeeds (sources.flatMap AttentionSource.items) := by
  induction records generalizing sources with
  | nil =>
    cases h
    exact .nil
  | cons record rest ih =>
    obtain ⟨source, others, hsource, hothers, rfl⟩ := Except.mapM_cons_ok h
    rw [List.pairwise_cons] at hdiffer
    have hfirst : ProposalNeeds source.items := .pass hrosters hsource
    have hrest : ProposalNeeds (others.flatMap AttentionSource.items) := ih hdiffer.2 hothers
    rw [List.flatMap_cons]
    refine ⟨distinct_append hfirst.distinct hrest.distinct ?_, ?_⟩
    · intro a ha b hb hsame
      obtain ⟨other, hother, hb⟩ := List.mem_flatMap.mp hb
      obtain ⟨held, hheld, hpass⟩ := (Except.mem_of_mapM hothers).1 other hother
      have habout : a.objectId = record.proposal.id := (proposalSource_about hsource).1 a ha
      have hbabout : b.objectId = held.proposal.id := (proposalSource_about hpass).1 b hb
      apply hdiffer.1 held hheld
      rw [← habout, ← hbabout]
      exact (Need.id_inj hsame).2.2.1
    · intro need hneed
      rcases List.mem_append.mp hneed with hneed | hneed
      · exact hfirst.about need hneed
      · exact hrest.about need hneed

theorem proposalItems_needs (hrosters : DistinctRosters ctx) {state : CoreState}
    (hkeyed : ∀ id held, state.proposal? id = some held → held.proposal.id = id)
    {proposals : AttentionSource} (h : proposalItems state ctx = .ok proposals) :
    ProposalNeeds proposals.items := by
  obtain ⟨sources, hsources, h⟩ := Except.bind_ok h
  cases h
  have hrecords := pairwise_of_keyed (nodup_sort_keys state.proposals) hkeyed
  exact .passes hrosters hrecords hsources

end Rosters

/-! ## Objects and mentions -/

section Objects

variable {state : CoreState} {ctx : AttentionContext}

theorem commitmentNeed_about {record : ObjectRecord} {need : Need}
    (h : commitmentNeed ctx record = some need) :
    need.objectId = record.object.id ∧ need.cls = .ownedCommitment := by
  unfold commitmentNeed at h
  split at h
  · dsimp only at h
    split at h
    · cases h
      exact ⟨rfl, rfl⟩
    · cases h
  · cases h

theorem commitmentItems_owned :
    ∀ need ∈ (commitmentItems state ctx).items, need.cls = .ownedCommitment := by
  intro need hneed
  obtain ⟨record, -, hraised⟩ := List.mem_filterMap.mp hneed
  exact (commitmentNeed_about hraised).2

theorem distinct_commitmentItems (hkeyed : Keyed state) :
    Distinct (commitmentItems state ctx).items := by
  have hrecords := pairwise_of_keyed (nodup_sort_keys state.objects) hkeyed
  unfold Distinct List.Nodup commitmentItems
  rw [List.pairwise_map, List.pairwise_filterMap]
  refine hrecords.imp ?_
  intro record other hne need hneed need' hneed' hsame
  apply hne
  rw [← (commitmentNeed_about hneed).1, ← (commitmentNeed_about hneed').1]
  exact (Need.id_inj hsame).2.2.1

theorem blockingQuestionItems_questions {questions : AttentionSource}
    (h : blockingQuestionItems state ctx = .ok questions) :
    Distinct questions.items ∧ ∀ need ∈ questions.items, need.cls = .blockingQuestion := by
  refine ⟨?_, ?_⟩
  · obtain ⟨blocking, -, h⟩ := Except.bind_ok h
    cases h
    exact distinct_firstById _
  · intro need hneed
    obtain ⟨question, reason, userId, rfl⟩ := blockingQuestionItems_asked h need hneed
    rfl

theorem distinct_mentionItems : Distinct (mentionItems ctx).items :=
  distinct_firstById _

end Objects

/-! ## One cycle -/

section Sources

variable {state : CoreState} {ctx : AttentionContext}

/-- Proposals keep apart from objects by their kind, and the sources about objects by their class. A
mention may be about a proposal, but no other source raises mentions. -/
theorem distinct_sourcesOf {proposals questions : AttentionSource} (hkeyed : Keyed state)
    (hproposals : ProposalNeeds proposals.items)
    (hquestions : blockingQuestionItems state ctx = .ok questions) :
    Distinct (sourcesOf state ctx proposals questions).items := by
  obtain ⟨hdistinct, hblocking⟩ := blockingQuestionItems_questions hquestions
  have hobjects := (blockingQuestionItems_objects hquestions).1
  have hcommitments : (∀ need ∈ (commitmentItems state ctx).items, need.subjectKind = .object) ∧
      ∀ seen ∈ (commitmentItems state ctx).examined, seen.subjectKind = .object :=
    commitmentItems_objects
  have hsplit : (sourcesOf state ctx proposals questions).items = proposals.items ++
      ((commitmentItems state ctx).items ++ (questions.items ++ (mentionItems ctx).items)) := by
    simp [sourcesOf, AttentionSource.gather]
  rw [hsplit]
  refine distinct_append hproposals.distinct (distinct_append (distinct_commitmentItems hkeyed)
    (distinct_append hdistinct distinct_mentionItems ?_) ?_) ?_
  · intro question hquestion mention hmention hsame
    have hcls := (Need.id_inj hsame).2.2.2
    rw [hblocking question hquestion, mentionItems_mentions mention hmention] at hcls
    cases hcls
  · intro commitment hcommitment other hother hsame
    have hcls := (Need.id_inj hsame).2.2.2
    rw [commitmentItems_owned commitment hcommitment] at hcls
    rcases List.mem_append.mp hother with hquestion | hmention
    · rw [hblocking other hquestion] at hcls
      cases hcls
    · rw [mentionItems_mentions other hmention] at hcls
      cases hcls
  · intro raised hraised other hother hsame
    obtain ⟨hproposal, hunmentioned⟩ := hproposals.about raised hraised
    obtain ⟨-, hkind, -, hcls⟩ := Need.id_inj hsame
    rw [hproposal] at hkind
    rcases List.mem_append.mp hother with hcommitment | hother
    · rw [hcommitments.1 other hcommitment] at hkind
      cases hkind
    · rcases List.mem_append.mp hother with hquestion | hmention
      · rw [hobjects other hquestion] at hkind
        cases hkind
      · rw [mentionItems_mentions other hmention] at hcls
        exact hunmentioned hcls

/-- An id gives the four parts it was made of back, and no two items of a cycle over a reached state
bear one id, when no roster names a member twice. -/
theorem attention_ids_apart [Unicode] :
    (∀ (user user' subject subject' : Id) (kind kind' : AttentionSubjectKind) (cls cls' : String),
      attentionIdText user kind subject cls = attentionIdText user' kind' subject' cls' →
        user = user' ∧ kind = kind' ∧ subject = subject' ∧ cls = cls') ∧
    ∀ (state : CoreState) (ctx : AttentionContext) (cycle : AttentionProjection),
      Reached anyEvent state → DistinctRosters ctx → projectAttention state ctx = .ok cycle →
        cycle.ids.Nodup := by
  refine ⟨fun _ _ _ _ _ _ _ _ => attentionIdText_inj, ?_⟩
  intro state ctx cycle hreached hrosters hcycle
  obtain ⟨log, hlog⟩ := hreached.exists_log
  have hkeyed : ∀ id held, state.proposal? id = some held → held.proposal.id = id :=
    fun id held hheld => (hlog.recorded.proposals id held hheld).2.1
  obtain ⟨proposals, questions, hproposals, hquestions, hitems, -⟩ := projectAttention_eq_ok hcycle
  rw [(ids_perm hitems).nodup_iff]
  exact distinct_sourcesOf hreached.keyed_integrity.1
    (proposalItems_needs hrosters hkeyed hproposals) hquestions

def pairRoster : AttentionContext :=
  { plainContext with members := some (Js.PlainObject.empty.set "room" ["carol", "bob"]) }

theorem distinct_pairRoster : DistinctRosters pairRoster := by
  intro members roomId roster hmembers hroster
  cases hmembers
  rw [Js.PlainObject.get_eq_own, Js.PlainObject.own?_set _ _ _ (by decide)] at hroster
  by_cases hroom : roomId = "room"
  · rw [if_pos hroom] at hroster
    cases hroster
    decide
  · rw [if_neg hroom] at hroster
    cases hroster

def pairIds : List Id :=
  ["attn:bob:proposal:p:needs_decision", "attn:carol:proposal:p:needs_decision"]

/-- Two people are asked about one decision, under two ids. -/
theorem pair_asked_apart : ∃ cycle,
    @projectAttention Unicode.ascii (@offerAll Unicode.ascii stagedDecision) pairRoster =
      .ok cycle ∧ (∀ id ∈ pairIds, id ∈ cycle.ids) ∧ cycle.ids.Nodup := by
  let _ : Unicode := Unicode.ascii
  have hreached : Reached anyEvent (offerAll stagedDecision) :=
    reached_offerAll fun _ _ _ => trivial
  have hok : (projectAttention (offerAll stagedDecision) pairRoster).isOk = true := by
    decide +kernel
  have hasked : needIds (proposalItems (offerAll stagedDecision) pairRoster) = pairIds := by
    decide +kernel
  cases hcycle : projectAttention (offerAll stagedDecision) pairRoster with
  | error e =>
    rw [hcycle] at hok
    cases hok
  | ok cycle =>
    refine ⟨cycle, rfl, ?_, attention_ids_apart.2 _ _ _ hreached distinct_pairRoster hcycle⟩
    obtain ⟨proposals, questions, hproposals, -, hitems, -⟩ := projectAttention_eq_ok hcycle
    rw [hproposals] at hasked
    have hpair : proposals.items.map Need.id = pairIds := hasked
    intro id hid
    rw [← hpair] at hid
    rw [(ids_perm hitems).mem_iff]
    obtain ⟨need, hneed, rfl⟩ := List.mem_map.mp hid
    exact List.mem_map_of_mem (List.mem_flatMap.mpr ⟨proposals, List.mem_cons_self, hneed⟩)

end Sources

end Core
