import AtriumVerified.Lib.SortedPage
import AtriumVerified.Server.Interpret

/-!
# Proofs: the context of a pass

A pass claims a page of the unread messages and judges them in a page of the room. Both pages are
read off one table in one order, so a claimed message is in the context exactly when few enough
messages stand between the start of the context and it.
-/

namespace Server

open Core

section Pass

variable {room : RoomMessages} {seen current : Interpretations} {newId : Id → Id}
  {config : InterpretConfig}

/-! ## The claim -/

/-- The message is one of the first unread ones, and no other worker claimed it since they were
read. -/
structure Drained (room : RoomMessages) (seen current : Interpretations) (config : InterpretConfig)
    (row : MessageRow) : Prop where
  mem : row ∈ room.messages
  unread : isUnread seen row = true
  early : (SortedPage.before MessageRow.seq (room.messages.filter (isUnread seen)) row).length <
    config.maxWindowMessages
  unclaimed : seen.newest row.id = none → current.has row.id 1 = false

/-- The rows of the drain query that the worker made its own. -/
def claimedRows (room : RoomMessages) (seen current : Interpretations) (config : InterpretConfig) :
    List MessageRow :=
  (pendingRows room seen config).filter fun row =>
    (seen.newest row.id).isSome || !current.has row.id 1

theorem mem_claimedRows {row : MessageRow} :
    row ∈ claimedRows room seen current config ↔ Drained room seen current config row := by
  have hown : ((seen.newest row.id).isSome || !current.has row.id 1) = true ↔
      (seen.newest row.id = none → current.has row.id 1 = false) := by
    cases seen.newest row.id with
    | none => simp
    | some own => simp
  unfold claimedRows pendingRows
  rw [List.mem_filter, SortedPage.mem_take_filter_iff room.ordered, hown]
  constructor
  · rintro ⟨⟨⟨hmem, hunread⟩, hearly⟩, hunclaimed⟩
    exact ⟨hmem, hunread, hearly, hunclaimed⟩
  · rintro ⟨hmem, hunread, hearly, hunclaimed⟩
    exact ⟨⟨⟨hmem, hunread⟩, hearly⟩, hunclaimed⟩

theorem claimedRows_sublist : (claimedRows room seen current config).Sublist room.messages :=
  List.filter_sublist.trans ((List.take_sublist _ _).trans List.filter_sublist)

theorem attachPriorVersions_message (table : Interpretations) (candidate : Candidate) :
    (attachPriorVersions table candidate).message = candidate.message ∧
      (attachPriorVersions table candidate).seq = candidate.seq := by
  unfold attachPriorVersions
  split
  · exact ⟨rfl, rfl⟩
  · exact ⟨rfl, rfl⟩

theorem claimWindow_rows {α : Type} (read : ProvenanceMessage → Nat → α) :
    (claimWindow room seen current newId config).1.map (fun c => read c.message c.seq) =
      (claimedRows room seen current config).map fun row => read row.provenance row.seq := by
  have hread (table : Interpretations) (rows : List MessageRow) :
      ((rows.filterMap (claimRow seen current newId)).map (attachPriorVersions table)).map
          (fun c => read c.message c.seq) =
        (rows.filter fun row => (seen.newest row.id).isSome || !current.has row.id 1).map
          fun row => read row.provenance row.seq := by
    induction rows with
    | nil => rfl
    | cons row rows ih =>
      cases hnewest : seen.newest row.id with
      | some own =>
        have hrow : claimRow seen current newId row =
            some ⟨row.provenance, row.seq, own.id, own.interpretationVersion, []⟩ := by
          unfold claimRow
          rw [hnewest]
        rw [List.filterMap_cons_some hrow, List.map_cons, List.map_cons, ih,
          List.filter_cons_of_pos (by rw [hnewest]; rfl), List.map_cons,
          (attachPriorVersions_message table _).1, (attachPriorVersions_message table _).2]
      | none =>
        by_cases hhas : current.has row.id 1 = true
        · have hrow : claimRow seen current newId row = none := by
            unfold claimRow
            rw [hnewest]
            exact if_pos hhas
          rw [List.filterMap_cons_none hrow, ih,
            List.filter_cons_of_neg (by rw [hnewest, hhas]; decide)]
        · have hrow : claimRow seen current newId row =
              some ⟨row.provenance, row.seq, newId row.id, 1, []⟩ := by
            unfold claimRow
            rw [hnewest]
            exact if_neg hhas
          rw [List.filterMap_cons_some hrow, List.map_cons, List.map_cons, ih,
            List.filter_cons_of_pos (by rw [hnewest]; simpa using hhas), List.map_cons,
            (attachPriorVersions_message table _).1, (attachPriorVersions_message table _).2]
  exact hread _ _

theorem claimWindow_messages :
    (claimWindow room seen current newId config).1.map Candidate.message =
      (claimedRows room seen current config).map MessageRow.provenance :=
  claimWindow_rows fun message _ => message

theorem claimWindow_seqs :
    (claimWindow room seen current newId config).1.map Candidate.seq =
      (claimedRows room seen current config).map MessageRow.seq :=
  claimWindow_rows fun _ seq => seq

/-! ## The context -/

def messagesFrom (room : RoomMessages) (start : Nat) : List MessageRow :=
  room.messages.filter fun row => start ≤ row.seq

def contextLimit (config : InterpretConfig) : Nat :=
  config.contextMessagesBefore + config.maxWindowMessages * 2

/-- The page that a context from a sequence number on is. -/
def contextRows (room : RoomMessages) (start : Nat) (config : InterpretConfig) : List MessageRow :=
  (messagesFrom room start).take (contextLimit config)

theorem contextRows_sublist {start : Nat} : (contextRows room start config).Sublist room.messages :=
  (List.take_sublist _ _).trans List.filter_sublist

theorem readContext_rows (newId : Id → Id) (h : claimedRows room seen current config ≠ []) :
    ∃ first, Drained room seen current config first ∧
      (∀ row, Drained room seen current config row → first.seq ≤ row.seq) ∧
      readContext room (claimWindow room seen current newId config).1 config =
        (contextRows room (first.seq - config.contextMessagesBefore) config).map
          MessageRow.provenance := by
  unfold readContext
  rw [claimWindow_seqs]
  cases hmin : ((claimedRows room seen current config).map MessageRow.seq).min? with
  | none =>
    rw [List.min?_eq_none_iff, List.map_eq_nil_iff] at hmin
    exact absurd hmin h
  | some seq =>
    obtain ⟨hmem, hleast⟩ := List.min?_eq_some_iff.mp hmin
    obtain ⟨first, hfirst, rfl⟩ := List.mem_map.mp hmem
    refine ⟨first, mem_claimedRows.mp hfirst, ?_, rfl⟩
    intro row hrow
    exact hleast row.seq (List.mem_map_of_mem (mem_claimedRows.mpr hrow))

/-- For any two messages that the pass drains, the room has fewer messages than a context holds from
the start of a context of the one up to the other. -/
def ContextReaches (room : RoomMessages) (seen current : Interpretations)
    (config : InterpretConfig) : Prop :=
  ∀ first last, Drained room seen current config first → Drained room seen current config last →
    (SortedPage.before MessageRow.seq
      (messagesFrom room (first.seq - config.contextMessagesBefore)) last).length <
        contextLimit config

theorem mem_contextRows {start : Nat} {row : MessageRow} (hrow : row ∈ room.messages)
    (hstart : start ≤ row.seq) : row ∈ contextRows room start config ↔
      (SortedPage.before MessageRow.seq (messagesFrom room start) row).length <
        contextLimit config := by
  unfold contextRows messagesFrom
  rw [SortedPage.mem_take_filter_iff room.ordered]
  constructor
  · intro h
    exact h.2
  · intro h
    exact ⟨⟨hrow, by simpa using hstart⟩, h⟩

theorem claimed_subset_iff {first : MessageRow} (hfirst : Drained room seen current config first)
    (hleast : ∀ row, Drained room seen current config row → first.seq ≤ row.seq) :
    (∀ row ∈ claimedRows room seen current config,
      row ∈ contextRows room (first.seq - config.contextMessagesBefore) config) ↔
        ContextReaches room seen current config := by
  constructor
  · intro h other last hother hlast
    have hfrom : first.seq - config.contextMessagesBefore ≤ last.seq :=
      (Nat.sub_le _ _).trans (hleast last hlast)
    have hreached := (mem_contextRows hlast.mem hfrom).mp (h last (mem_claimedRows.mpr hlast))
    -- A context of a later message starts later, with fewer messages in front of the last one.
    have hfewer : (SortedPage.before MessageRow.seq
        (messagesFrom room (other.seq - config.contextMessagesBefore)) last).length ≤
          (SortedPage.before MessageRow.seq
            (messagesFrom room (first.seq - config.contextMessagesBefore)) last).length := by
      apply SortedPage.before_filter_mono
      intro row _ hrow
      have hle := hleast other hother
      simp only [decide_eq_true_eq] at hrow ⊢
      omega
    exact lt_of_le_of_lt hfewer hreached
  · intro h row hrow
    have hdrained := mem_claimedRows.mp hrow
    have hfrom : first.seq - config.contextMessagesBefore ≤ row.seq :=
      (Nat.sub_le _ _).trans (hleast row hdrained)
    exact (mem_contextRows hdrained.mem hfrom).mpr (h first row hfirst hdrained)

theorem claimed_sublist_iff {start : Nat} :
    ((claimedRows room seen current config).map MessageRow.provenance).Sublist
        ((contextRows room start config).map MessageRow.provenance) ↔
      ∀ row ∈ claimedRows room seen current config, row ∈ contextRows room start config := by
  constructor
  · intro h row hrow
    obtain ⟨found, hfound, hsame⟩ := List.mem_map.mp (h.subset (List.mem_map_of_mem hrow))
    have hids : found.id = row.id := congrArg ProvenanceMessage.id hsame
    have heq : found = row := List.inj_on_of_nodup_map room.distinct
      (contextRows_sublist.subset hfound) (claimedRows_sublist.subset hrow) hids
    rwa [← heq]
  · intro h
    exact (SortedPage.sublist_of_subset (room.ordered.sublist claimedRows_sublist)
      (room.ordered.sublist contextRows_sublist) h).map _

/-! ## The readings -/

/-- What became of a reading that cites a message does not leave the message out: it was not refused
for citing nothing, nor for naming the author of the message, and its proposal cites the message. -/
def ReadingStep.Keeps (message : ProvenanceMessage) : ReadingStep → Prop
  | .uncited => False
  | .unmintable (.citesNothing _) => False
  | .unmintable (.namesNobody _ subject) =>
    ∀ name, subject = some name → Js.trim name.toList ≠ [] → name ≠ message.authorId
  | .minted proposal => message.id ∈ proposal.provenance

theorem mem_citationsIn {messages : List ProvenanceMessage} {messageIds : List Id}
    {message : ProvenanceMessage} (hmessage : message ∈ messages)
    (hcited : message.id ∈ messageIds) : message.id ∈ citationsIn messages messageIds := by
  unfold citationsIn
  rw [List.mem_filter, List.any_eq_true]
  exact ⟨hcited, message, hmessage, beq_self_eq_true _⟩

theorem resolveSubject_author {messages : List ProvenanceMessage} {message : ProvenanceMessage}
    (hmessage : message ∈ messages) (hname : Js.trim message.authorId.toList ≠ [])
    (cited : List Id) : resolveSubject (some message.authorId) cited messages =
      some message.authorId := by
  have hblank : (Js.trim message.authorId.toList).isEmpty = false := by
    simpa using hname
  have hnonempty : message.authorId.isEmpty = false := by
    by_contra hempty
    rw [Bool.not_eq_false, String.isEmpty_iff] at hempty
    rw [hempty] at hname
    exact hname rfl
  have hauthor : message.authorId ∈ (messages.map ProvenanceMessage.authorId).filter
      fun id => !id.isEmpty := by
    rw [List.mem_filter, hnonempty]
    exact ⟨List.mem_map_of_mem hmessage, rfl⟩
  unfold resolveSubject
  rw [Option.filter_some, hblank]
  exact if_pos (List.contains_iff_mem.mpr hauthor)

variable {reading : ExtractedReading}

/-- A reading that cites a message of the window is minted with the citation, or it names nobody
whom the window knows. -/
theorem mintProposal_cites (proposalId : Id → ExtractedReading → Id) (context : ReadingContext)
    {message : ProvenanceMessage} (hmessage : message ∈ context.messages)
    (hcited : message.id ∈ reading.messageIds) :
    (∃ proposal, mintProposal proposalId reading context = .ok proposal ∧
        message.id ∈ proposal.provenance) ∨
      (mintProposal proposalId reading context =
          .error (.namesNobody reading.type reading.subject) ∧
        resolveSubject reading.subject (citationsIn context.messages reading.messageIds)
          context.messages = none) := by
  have hmem := mem_citationsIn hmessage hcited
  have hnonempty : (citationsIn context.messages reading.messageIds).isEmpty = false := by
    rw [List.isEmpty_eq_false_iff]
    exact List.ne_nil_of_mem hmem
  unfold mintProposal
  dsimp only
  rw [hnonempty, if_neg Bool.false_ne_true]
  cases hsubject : resolveSubject reading.subject (citationsIn context.messages reading.messageIds)
      context.messages with
  | none =>
    cases reading.type with
    | commitment => exact Or.inr ⟨rfl, rfl⟩
    | claim => exact Or.inr ⟨rfl, rfl⟩
    | decision => exact Or.inl ⟨_, rfl, hmem⟩
    | openQuestion => exact Or.inl ⟨_, rfl, hmem⟩
    | objective => exact Or.inl ⟨_, rfl, hmem⟩
  | some subject =>
    cases reading.type with
    | commitment => exact Or.inl ⟨_, rfl, hmem⟩
    | claim => exact Or.inl ⟨_, rfl, hmem⟩
    | decision => exact Or.inl ⟨_, rfl, hmem⟩
    | openQuestion => exact Or.inl ⟨_, rfl, hmem⟩
    | objective => exact Or.inl ⟨_, rfl, hmem⟩

theorem readingStep_keeps (proposalId : Id → ExtractedReading → Id) {claimed : List Candidate}
    {context : List ProvenanceMessage} {candidate : Candidate} (hclaimed : candidate ∈ claimed)
    (hmessage : candidate.message ∈ context)
    (hcited : candidate.message.id ∈ reading.messageIds) (roomId : Id) (model : String)
    (startedAt : Timestamp) :
    (readingStep proposalId roomId model startedAt claimed context reading).Keeps
      candidate.message := by
  unfold readingStep
  cases hcandidate : candidateFor reading claimed with
  | none =>
    have hnone := List.findSome?_eq_none_iff.mp hcandidate _ hcited
    have hstray := List.find?_eq_none.mp hnone candidate hclaimed
    exact absurd (beq_self_eq_true _) hstray
  | some own =>
    dsimp only
    rcases mintProposal_cites proposalId
      ⟨roomId, own.interpretationId, model, startedAt, context⟩ hmessage hcited with
      ⟨proposal, hminted, hkept⟩ | ⟨hrefused, hsubject⟩
    · rw [hminted]
      exact hkept
    · rw [hrefused]
      intro name hname hblank hauthor
      rw [hname, hauthor] at hsubject
      rw [hauthor] at hblank
      rw [resolveSubject_author hmessage hblank] at hsubject
      cases hsubject

/-! ## A whole pass -/

/-- The claimed messages stand in the context in room order, and no reading that cites one of them
loses it, before the claim is marked succeeded. -/
structure JudgedOnClaim (claimed : List Candidate) (context : List ProvenanceMessage) : Prop where
  reached : (claimed.map Candidate.message).Sublist context
  kept : ∀ candidate ∈ claimed, ∀ (proposalId : Id → ExtractedReading → Id) (roomId : Id)
    (model : String) (startedAt : Timestamp) (reading : ExtractedReading),
      candidate.message.id ∈ reading.messageIds →
        (readingStep proposalId roomId model startedAt claimed context reading).Keeps
          candidate.message

/-- A pass judges its readings on everything it claims exactly when the context reaches from every
message it drains to every other one. -/
theorem judged_on_claim_iff (room : RoomMessages) (seen current : Interpretations) (newId : Id → Id)
    (config : InterpretConfig) :
    JudgedOnClaim (claimWindow room seen current newId config).1
        (readContext room (claimWindow room seen current newId config).1 config) ↔
      ContextReaches room seen current config := by
  have hjudged {context : List ProvenanceMessage}
      (h : ((claimWindow room seen current newId config).1.map Candidate.message).Sublist context) :
      JudgedOnClaim (claimWindow room seen current newId config).1 context :=
    ⟨h, fun _ hclaimed proposalId roomId model startedAt _ hcited =>
      readingStep_keeps proposalId hclaimed (h.subset (List.mem_map_of_mem hclaimed)) hcited roomId
        model startedAt⟩
  by_cases hnone : claimedRows room seen current config = []
  · constructor
    · intro _ first last hfirst
      have hmem := mem_claimedRows.mpr hfirst
      rw [hnone] at hmem
      cases hmem
    · intro _
      apply hjudged
      rw [claimWindow_messages, hnone]
      exact List.nil_sublist _
  · obtain ⟨first, hfirst, hleast, hcontext⟩ := readContext_rows newId hnone
    rw [hcontext, ← claimed_subset_iff hfirst hleast, ← claimed_sublist_iff, ← claimWindow_messages]
    constructor
    · intro h
      exact h.reached
    · exact hjudged

end Pass

/-! ## A message staged again -/

def sixMessages : RoomMessages where
  messages := [⟨1, "m1", some "alice", "We ship on Friday."⟩, ⟨2, "m2", some "bob", "Lunch?"⟩,
    ⟨3, "m3", some "bob", "Yes."⟩, ⟨4, "m4", some "carol", "At one."⟩,
    ⟨5, "m5", some "bob", "Fine."⟩, ⟨6, "m6", some "carol", "We use Postgres."⟩]
  ordered := by decide
  distinct := by decide

/-- The first five were read, and the first one is staged to be read again. -/
def restaged : Interpretations :=
  let read := ["m1", "m2", "m3", "m4", "m5"].foldl (fun (table : Interpretations) messageId =>
    table.insert ⟨"i-" ++ messageId, messageId, 1, .pending⟩) ⟨[], List.Pairwise.nil⟩
  (read.markSucceeded ["i-m1", "i-m2", "i-m3", "i-m4", "i-m5"]).stageReinterpretation "m1" "j-m1"

/-- Passes of two messages, with no context before them. -/
def shortConfig : InterpretConfig := ⟨2, 0⟩

def shortClaim : List Candidate × Interpretations :=
  claimWindow sixMessages restaged restaged (fun messageId => "i-" ++ messageId) shortConfig

def postgresReading : ExtractedReading :=
  ⟨.decision, "We use Postgres.", none, ⟨9, 1⟩, "We use Postgres.", ["m6"]⟩

/-- The context ends before the newest claimed message: a reading of it is refused for citing
nothing, and the pass leaves no message unread. -/
theorem drained_message_out_of_context :
    shortClaim.1.map (fun candidate => candidate.message.id) = ["m1", "m6"] ∧
      (readContext sixMessages shortClaim.1 shortConfig).map ProvenanceMessage.id =
        ["m1", "m2", "m3", "m4"] ∧
      readingStep (fun _ _ => "p") "room" "reader" "2026-01-01T00:00:00.000Z" shortClaim.1
        (readContext sixMessages shortClaim.1 shortConfig) postgresReading =
          .unmintable (.citesNothing ["m6"]) ∧
      pendingRows sixMessages (shortClaim.2.markSucceeded
        (shortClaim.1.map Candidate.interpretationId)) shortConfig = [] ∧
      ¬ ∀ (room : RoomMessages) (seen current : Interpretations) (newId : Id → Id)
        (config : InterpretConfig), JudgedOnClaim (claimWindow room seen current newId config).1
          (readContext room (claimWindow room seen current newId config).1 config) := by
  have hstep : readingStep (fun _ _ => "p") "room" "reader" "2026-01-01T00:00:00.000Z" shortClaim.1
      (readContext sixMessages shortClaim.1 shortConfig) postgresReading =
        .unmintable (.citesNothing ["m6"]) := by
    decide +kernel
  refine ⟨by decide +kernel, by decide +kernel, hstep, by decide +kernel, ?_⟩
  intro h
  have hmem : (⟨⟨"m6", "carol", "We use Postgres."⟩, 6, "i-m6", 1, []⟩ : Candidate) ∈
      shortClaim.1 := by
    decide +kernel
  have hjudged := h sixMessages restaged restaged (fun messageId => "i-" ++ messageId) shortConfig
  have hkept := hjudged.kept _ hmem (fun _ _ => "p") "room" "reader" "2026-01-01T00:00:00.000Z"
    postgresReading (by decide)
  have hlost : (readingStep (fun _ _ => "p") "room" "reader" "2026-01-01T00:00:00.000Z" shortClaim.1
      (readContext sixMessages shortClaim.1 shortConfig) postgresReading).Keeps
        ⟨"m6", "carol", "We use Postgres."⟩ := hkept
  rw [hstep] at hlost
  exact hlost

end Server
