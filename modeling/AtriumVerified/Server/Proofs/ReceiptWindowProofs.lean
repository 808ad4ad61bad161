import AtriumVerified.Core.Proofs.ReceiptProofs
import AtriumVerified.Server.ReceiptWindow

/-!
# The window against the room

A check against the window is a check of the cited messages but the first, and of everything the room
said after the newest citation. What it does not read is what `unreadMessages` lists, so the room as a
whole holds a revision exactly when those messages do.
-/

namespace Server

open Checked Core

/-! ## The window by position -/

section Window

/-- A window by position: the cited messages, and the next ones after the last of them. -/
def windowOf (ids : List Id) (messages : List ProvenanceMessage) : List ProvenanceMessage :=
  messages.filter (citedIn ids) ++
    match lastIndex (citedIn ids) messages with
    | some last => (messages.drop (last + 1)).take laterMessagesCarried
    | none => []

variable [Unicode] {statement : Text} {ids : List Id} {messages : List ProvenanceMessage}

theorem isRevision_scanLater {later : List ProvenanceMessage} :
    IsRevision (scanLater statement (routingTokens statement) receiptPolicy later) ↔
      ∃ message added, later.findSome?
          (scanMessage statement (routingTokens statement) receiptPolicy) =
        some (.revision message added) := by
  unfold scanLater IsRevision
  cases later.findSome? (scanMessage statement (routingTokens statement) receiptPolicy) with
  | none => simp
  | some result => simp

/-- What a clean scan of the window says about the room: the first and the last citation, the
messages after them, and which messages are known to be clean. -/
theorem window_read {scanned : Nat}
    (h : laterRevision statement ids (windowOf ids messages) receiptPolicy = .none scanned) :
    ∃ first last, messages.findIdx? (citedIn ids) = some first ∧
      lastIndex (citedIn ids) messages = some last ∧ first ≤ last ∧ last < messages.length ∧
      ((messages.drop (last + 1)).any fun message => !citedIn ids message) = true ∧
      (∀ message ∈ messages.drop (first + 1), citedIn ids message = true →
        scanMessage statement (routingTokens statement) receiptPolicy message = none) ∧
      ∀ message ∈ messages.drop (last + 1),
        scanMessage statement (routingTokens statement) receiptPolicy message = none := by
  obtain ⟨-, -, -, firstW, lastW, hfirstW, -, hafterW, hcountW, hcleanW⟩ := laterRevision_none h
  cases hlast : lastIndex (citedIn ids) messages with
  | none =>
    have hnone : messages.filter (citedIn ids) = [] := by
      rw [List.filter_eq_nil_iff]
      intro message hmessage
      rw [lastIndex_eq_none hlast message hmessage]
      exact Bool.false_ne_true
    simp [windowOf, hlast, hnone] at hfirstW
  | some last =>
    obtain ⟨upTo, newest, after, hsplit, hlen, hnewest, hafter⟩ := split_at_last hlast
    cases hfirst : messages.findIdx? (citedIn ids) with
    | none =>
      have hmem : newest ∈ messages := by rw [hsplit]; simp
      have hnot := List.findIdx?_eq_none_iff.mp hfirst newest hmem
      rw [hnewest] at hnot
      cases hnot
    | some first =>
      obtain ⟨before, oldest, rest, hsplit', hlen', holdest, hbefore⟩ := split_at_first hfirst
      have hdropLast : messages.drop (last + 1) = after := by
        rw [hsplit, ← hlen]
        simp
      have hdropFirst : messages.drop (first + 1) = rest := by
        rw [hsplit', ← hlen']
        simp
      have hcited : messages.filter (citedIn ids) = oldest :: rest.filter (citedIn ids) := by
        have hnone : before.filter (citedIn ids) = [] := by
          rw [List.filter_eq_nil_iff]
          intro message hmessage
          rw [hbefore message hmessage]
          exact Bool.false_ne_true
        rw [hsplit', List.filter_append, hnone, List.nil_append, List.filter_cons_of_pos holdest]
      have hwindow : windowOf ids messages =
          oldest :: (rest.filter (citedIn ids) ++ after.take laterMessagesCarried) := by
        unfold windowOf
        rw [hlast, hcited]
        simp only [hdropLast, List.cons_append]
      have hzero : firstW = 0 := by
        rw [hwindow, List.findIdx?_cons, holdest, if_pos rfl] at hfirstW
        exact (Option.some.inj hfirstW).symm
      have hfloor : scanFloor statement (windowOf ids messages) firstW = 0 := by
        have hle := scanFloor_le statement (windowOf ids messages) firstW
        omega
      rw [hfloor, hwindow, List.drop_succ_cons, List.drop_zero] at hcountW hcleanW
      have hfits : after.length ≤ 200 := by
        rw [List.length_append, List.length_take] at hcountW
        have hcarried : laterMessagesCarried = 201 := rfl
        have hscanned : receiptPolicy.maxLaterMessagesScanned = 200 := rfl
        omega
      have htake : after.take laterMessagesCarried = after := by
        have hcarried : laterMessagesCarried = 201 := rfl
        exact List.take_of_length_le (by omega)
      rw [htake] at hcleanW
      refine ⟨first, last, rfl, rfl, ?_, ?_, ?_, ?_, ?_⟩
      · -- The newest citation is not before the first one.
        by_contra hlt
        have hget : newest ∈ before := by
          have hat : messages[last]? = some newest := by
            rw [hsplit, ← hlen]
            simp
          rw [hsplit', List.getElem?_append_left (by omega)] at hat
          exact List.mem_of_getElem? hat
        rw [hbefore newest hget] at hnewest
        cases hnewest
      · rw [hsplit, ← hlen]
        simp
      · rw [hdropLast]
        cases after with
        | nil =>
          -- A window that ends with a citation is refused as such.
          rw [hwindow, htake, List.append_nil, ← hcited] at hafterW
          rw [List.any_eq_true] at hafterW
          obtain ⟨message, hmem, huncited⟩ := hafterW
          have hin := (List.mem_filter.mp (List.mem_of_mem_drop hmem)).2
          rw [hin] at huncited
          cases huncited
        | cons next others =>
          rw [List.any_cons, hafter next List.mem_cons_self]
          rfl
      · intro message hmessage hcite
        rw [hdropFirst] at hmessage
        exact hcleanW message (List.mem_append_left _ (List.mem_filter.mpr ⟨hmessage, hcite⟩))
      · intro message hmessage
        rw [hdropLast] at hmessage
        exact hcleanW message (List.mem_append_right _ hmessage)

/-- The room holds a revision exactly when its scan is made and the unread messages hold one. -/
theorem isRevision_room_iff {scanned : Nat}
    (h : laterRevision statement ids (windowOf ids messages) receiptPolicy = .none scanned) :
    IsRevision (laterRevision statement ids messages receiptPolicy) ↔
      ¬ UnreadIsClean statement ids messages := by
  obtain ⟨hblank, hwanted, hlong, -⟩ := laterRevision_none h
  obtain ⟨first, last, hfirst, hlast, hle, hlt, hafter, hcleanCited, hcleanAfter⟩ := window_read h
  have hfloor := scanFloor_le statement messages first
  have hlength : scanLength statement ids messages =
      (messages.drop (scanFloor statement messages first + 1)).length := by
    unfold citedIn at hfirst
    simp only [scanLength, hfirst, List.length_drop]
  have hunread : unreadMessages statement ids messages =
      (messages.take (first + 1)).drop (scanFloor statement messages first + 1) ++
        ((messages.take (last + 1)).drop (first + 1)).filter
          fun message => !citedIn ids message := by
    unfold citedIn at hfirst hlast
    simp only [unreadMessages, hfirst, hlast]
    rfl
  have hscan : (messages.drop (scanFloor statement messages first + 1)).findSome?
        (scanMessage statement (routingTokens statement) receiptPolicy) =
      (unreadMessages statement ids messages).findSome?
        (scanMessage statement (routingTokens statement) receiptPolicy) := by
    have hmiddle : (((messages.take (last + 1)).drop (first + 1)).filter
          fun message => !citedIn ids message).findSome?
          (scanMessage statement (routingTokens statement) receiptPolicy) =
        ((messages.take (last + 1)).drop (first + 1)).findSome?
          (scanMessage statement (routingTokens statement) receiptPolicy) := by
      refine findSome?_filter ?_
      intro message hmessage hcite
      refine hcleanCited message ?_ (by simpa using hcite)
      rw [drop_take_append messages (Nat.succ_le_succ hle) hlt]
      exact List.mem_append_left _ hmessage
    have htail : (messages.drop (last + 1)).findSome?
        (scanMessage statement (routingTokens statement) receiptPolicy) = none :=
      List.findSome?_eq_none_iff.mpr hcleanAfter
    rw [hunread, drop_take_append messages (Nat.succ_le_succ hfloor) (by omega),
      drop_take_append messages (Nat.succ_le_succ hle) hlt, List.findSome?_append,
      List.findSome?_append, List.findSome?_append, htail, hmiddle, Option.or_none]
  rw [laterRevision_made hblank hwanted hlong hfirst hlast hafter]
  have hbound : receiptPolicy.maxLaterMessagesScanned = 200 := rfl
  unfold UnreadIsClean
  rw [hlength, hbound, not_or, not_forall]
  split
  · rename_i hmany
    constructor
    · rintro ⟨message, added, hrevision⟩
      cases hrevision
    · intro hfew
      exact absurd hmany hfew.1
  · rename_i hfew
    rw [isRevision_scanLater, hscan]
    constructor
    · rintro ⟨message, added, hrevision⟩
      refine ⟨hfew, message, ?_⟩
      intro hnone
      exact hnone added hrevision
    · rintro ⟨-, message, hrevision⟩
      rw [not_forall] at hrevision
      obtain ⟨added, hrevision⟩ := hrevision
      exact ⟨message, added, not_not.mp hrevision⟩

end Window

/-! ## The window the database derives -/

section Derived

variable {room : RoomHistory} {ids : List Id}

theorem windowRows_split {upTo after : List MessageRow} {newest : MessageRow}
    (hsplit : room.messages = upTo ++ newest :: after) (hnewest : ids.contains newest.id = true)
    (hafter : ∀ row ∈ after, ids.contains row.id = false) :
    windowRows room ids = (room.messages.filter fun row => ids.contains row.id) ++
      after.take laterMessagesCarried := by
  have hordered := room.ordered
  rw [hsplit, List.pairwise_append, List.pairwise_cons] at hordered
  obtain ⟨-, ⟨hnext, -⟩, hbefore⟩ := hordered
  have hmax : ((room.messages.filter fun row => ids.contains row.id).map MessageRow.seq).max? =
      some newest.seq := by
    rw [List.max?_eq_some_iff]
    constructor
    · refine List.mem_map.mpr ⟨newest, List.mem_filter.mpr ⟨?_, hnewest⟩, rfl⟩
      rw [hsplit]
      simp
    · intro seq hseq
      obtain ⟨row, hrow, rfl⟩ := List.mem_map.mp hseq
      obtain ⟨hmem, hcited⟩ := List.mem_filter.mp hrow
      rw [hsplit, List.mem_append, List.mem_cons] at hmem
      rcases hmem with hmem | rfl | hmem
      · exact Nat.le_of_lt (hbefore row hmem newest List.mem_cons_self)
      · exact Nat.le_refl _
      · rw [hafter row hmem] at hcited
        cases hcited
  have hlater : (room.messages.filter fun row => decide (newest.seq < row.seq)) = after := by
    have hnone : (upTo.filter fun row => decide (newest.seq < row.seq)) = [] := by
      rw [List.filter_eq_nil_iff]
      intro row hrow
      have hlt := hbefore row hrow newest List.mem_cons_self
      simp only [decide_eq_true_eq]
      omega
    have hall : (after.filter fun row => decide (newest.seq < row.seq)) = after := by
      rw [List.filter_eq_self]
      intro row hrow
      have hlt := hnext row hrow
      simp only [decide_eq_true_eq]
      omega
    rw [hsplit, List.filter_append, hnone, List.nil_append, List.filter_cons_of_neg (by simp), hall]
  unfold windowRows
  simp only [hmax, hlater]

theorem windowRows_ordered :
    (windowRows room ids).Pairwise fun a b => a.seq < b.seq := by
  unfold windowRows
  dsimp only
  split
  · rw [List.append_nil]
    exact room.ordered.filter _
  · rename_i last hmax
    rw [List.pairwise_append]
    refine ⟨room.ordered.filter _, (room.ordered.filter _).sublist (List.take_sublist _ _), ?_⟩
    intro a ha b hb
    have hle := (List.max?_eq_some_iff.mp hmax).2 a.seq (List.mem_map.mpr ⟨a, ha, rfl⟩)
    have hlt := (List.mem_filter.mp (List.mem_of_mem_take hb)).2
    simp only [decide_eq_true_eq] at hlt
    omega

/-- What the database derives is the window by position. -/
theorem windowRows_provenance :
    ((windowRows room ids).mergeSort fun a b => a.seq ≤ b.seq).map MessageRow.provenance =
      windowOf ids room.provenance := by
  have hsorted : ((windowRows room ids).mergeSort fun a b => a.seq ≤ b.seq) =
      windowRows room ids := by
    apply List.mergeSort_of_pairwise
    refine windowRows_ordered.imp ?_
    intro a b hab
    simp only [decide_eq_true_eq]
    omega
  have hcited : (room.messages.filter fun row => ids.contains row.id).map MessageRow.provenance =
      room.provenance.filter (citedIn ids) := by
    unfold RoomHistory.provenance
    rw [List.filter_map]
    rfl
  rw [hsorted]
  unfold windowOf
  cases hlast : lastIndex (fun row : MessageRow => ids.contains row.id) room.messages with
  | none =>
    have huncited := lastIndex_eq_none hlast
    have hnone : (room.messages.filter fun row => ids.contains row.id) = [] := by
      rw [List.filter_eq_nil_iff]
      intro row hrow
      rw [huncited row hrow]
      exact Bool.false_ne_true
    have hlast' : lastIndex (citedIn ids) room.provenance = none := by
      unfold lastIndex RoomHistory.provenance at *
      rw [← List.map_reverse, List.findIdx?_map, List.length_map]
      exact hlast
    rw [hlast', ← hcited, List.append_nil]
    unfold windowRows
    simp only [hnone, List.map_nil, List.max?_nil, List.append_nil]
  | some last =>
    obtain ⟨upTo, newest, after, hsplit, hlen, hnewest, hafter⟩ := split_at_last hlast
    have hprovenance : room.provenance = upTo.map MessageRow.provenance ++
        newest.provenance :: after.map MessageRow.provenance := by
      unfold RoomHistory.provenance
      rw [hsplit, List.map_append, List.map_cons]
    have hlast' : lastIndex (citedIn ids) room.provenance = some last := by
      rw [hprovenance, lastIndex_split (by exact hnewest), List.length_map, hlen]
      intro message hmessage
      obtain ⟨row, hrow, rfl⟩ := List.mem_map.mp hmessage
      exact hafter row hrow
    have hdrop : room.provenance.drop (last + 1) = after.map MessageRow.provenance := by
      rw [hprovenance, List.append_cons]
      exact List.drop_left' (by simp [hlen])
    rw [hlast', windowRows_split hsplit hnewest hafter, List.map_append, hcited]
    simp only [hdrop, List.map_take]

theorem atriumReceiptWindow_eq {actor : Actor} {object : AcceptedObject}
    (hactor : isHuman actor = false) (hids : object.provenance.messageIds ≠ []) :
    atriumReceiptWindow room actor (.objectAccepted object) =
      some (windowOf object.provenance.messageIds room.provenance) := by
  have hkind : actor.kind ≠ "human" := by
    cases actor with
    | human userId => cases hactor
    | agent userId => simp [Actor.kind]
    | model model => simp [Actor.kind]
    | system => simp [Actor.kind]
  unfold atriumReceiptWindow
  rw [if_neg hkind]
  simp only [List.isEmpty_iff, hids, if_false, windowRows_provenance]

end Derived

/-! ## The receipt against the room -/

section Receipt

variable [Unicode] {actor : Actor} {proposalId : Id} {object : AcceptedObject}

/-- A machine's reading that passes its checks against the window the database derives holds against
the whole room exactly when the messages no window carries are clean. -/
theorem certified_against_room_iff {state : CoreState} {record : ProposalRecord} (room : RoomHistory)
    (hactor : isHuman actor = false)
    (hcheck : checkCitedProposal state object proposalId actor
      (atriumReceiptWindow room actor (.objectAccepted object)) = .ok record) :
    ¬ IsRevision (laterRevision (objectStatement object).toList object.provenance.messageIds
        room.provenance receiptPolicy) ↔
      UnreadIsClean (objectStatement object).toList object.provenance.messageIds
        room.provenance := by
  obtain ⟨hmachine, hreceipt⟩ := checkCitedProposal_machine hactor hcheck
  have hids : object.provenance.messageIds ≠ [] := by
    intro hempty
    have hwindow : atriumReceiptWindow room actor (.objectAccepted object) = none := by
      unfold atriumReceiptWindow
      split
      · rfl
      · simp [hempty]
    rw [hwindow] at hreceipt
    exact acceptanceReceiptRefusal_windowless hreceipt
  rw [atriumReceiptWindow_eq hactor hids] at hreceipt
  obtain ⟨hcites, hproblems⟩ := acceptanceReceiptRefusal_none hreceipt
  obtain ⟨scanned, hscan⟩ := laterRevision_of_passed (by exact hmachine) hproblems
  have hsame : ∀ id, record.proposal.provenance.contains id =
      object.provenance.messageIds.contains id := by
    intro id
    have hperm : record.proposal.provenance.Perm object.provenance.messageIds := by
      refine (Js.sort_perm record.proposal.provenance).symm.trans ?_
      rw [← hcites]
      exact Js.sort_perm _
    exact hperm.contains_eq
  have hclean : laterRevision (objectStatement object).toList object.provenance.messageIds
      (windowOf object.provenance.messageIds room.provenance) receiptPolicy = .none scanned := by
    rw [← laterRevision_congr hsame]
    exact hscan
  rw [isRevision_room_iff hclean, not_not]

end Receipt

/-! ## A correction between two citations -/

section Between

def exampleQuestion : String := "Should the export job retry on a closed socket?"

/-- A question, its withdrawal, and two messages about other things. -/
def withdrawnRoom : RoomHistory where
  messages := [⟨1, "00000000-0000-4000-8000-000000000001", some "alice", exampleQuestion⟩,
    ⟨2, "00000000-0000-4000-8000-000000000002", some "alice", "Scratch that, wrong job."⟩,
    ⟨3, "00000000-0000-4000-8000-000000000003", some "bob", "Lunch is at noon today."⟩,
    ⟨4, "00000000-0000-4000-8000-000000000004", some "bob", "The build is green again."⟩]
  ordered := by decide

/-- The question, and a message about another thing in place of the withdrawal. -/
def quietRoom : RoomHistory where
  messages := [⟨1, "00000000-0000-4000-8000-000000000001", some "alice", exampleQuestion⟩,
    ⟨2, "00000000-0000-4000-8000-000000000002", some "alice", "The cake is in the kitchen."⟩,
    ⟨3, "00000000-0000-4000-8000-000000000003", some "bob", "Lunch is at noon today."⟩,
    ⟨4, "00000000-0000-4000-8000-000000000004", some "bob", "The build is green again."⟩]
  ordered := by decide

def twoCitations : List Id :=
  ["00000000-0000-4000-8000-000000000001", "00000000-0000-4000-8000-000000000003"]

def stagedQuestion : ProposalRecord where
  proposal := ⟨"p", "room", ⟨99, 2⟩, .model "reader", twoCitations, some exampleQuestion, none,
    "2026-01-01T00:00:00.000Z", .openQuestion ⟨exampleQuestion, .open⟩⟩
  stagedBy := .model "reader"
  status := .proposed
  acceptedObjectId := none
  rejectedReason := none
  supersededByProposalId := none
  supersededReason := none

def mintedQuestion : AcceptedObject where
  id := "o"
  roomId := "room"
  objectiveId := none
  provenance := ⟨twoCitations, some "p", none⟩
  createdAt := "2026-01-01T00:00:00.000Z"
  updatedAt := "2026-01-01T00:00:00.000Z"
  payload := .openQuestion ⟨exampleQuestion, .open⟩

def stagedState : CoreState := emptyState.setProposal "p" stagedQuestion

/-- No window carries the withdrawal. -/
theorem window_withdrawn :
    atriumReceiptWindow withdrawnRoom (.model "reader") (.objectAccepted mintedQuestion) =
      atriumReceiptWindow quietRoom (.model "reader") (.objectAccepted mintedQuestion) := by
  rw [atriumReceiptWindow_eq rfl (by decide), atriumReceiptWindow_eq rfl (by decide)]
  decide +kernel

theorem reading_passes :
    @checkCitedProposal Unicode.ascii stagedState mintedQuestion "p" (.model "reader")
        (atriumReceiptWindow quietRoom (.model "reader") (.objectAccepted mintedQuestion)) =
      .ok stagedQuestion := by
  rw [atriumReceiptWindow_eq rfl (by decide)]
  decide +kernel

/-- The model cites the question and a later message; the withdrawal between them is in no window, so
the receipt passes although the room took the question back. -/
theorem withdrawal_between_citations_unread :
    @checkCitedProposal Unicode.ascii stagedState mintedQuestion "p" (.model "reader")
        (atriumReceiptWindow withdrawnRoom (.model "reader") (.objectAccepted mintedQuestion)) =
      .ok stagedQuestion ∧
    IsRevision (@laterRevision Unicode.ascii (objectStatement mintedQuestion).toList
      mintedQuestion.provenance.messageIds withdrawnRoom.provenance receiptPolicy) := by
  refine ⟨?_, ⟨"00000000-0000-4000-8000-000000000002", "alice",
    "Scratch that, wrong job."⟩, ["scratch that".toList], by decide +kernel⟩
  rw [window_withdrawn]
  exact reading_passes

/-- Where the room says nothing else about it between the citations, the reading holds against all of
it. -/
theorem certified_against_quiet_room :
    @checkCitedProposal Unicode.ascii stagedState mintedQuestion "p" (.model "reader")
        (atriumReceiptWindow quietRoom (.model "reader") (.objectAccepted mintedQuestion)) =
      .ok stagedQuestion ∧
    ¬ IsRevision (@laterRevision Unicode.ascii (objectStatement mintedQuestion).toList
      mintedQuestion.provenance.messageIds quietRoom.provenance receiptPolicy) := by
  let _ : Unicode := Unicode.ascii
  have hunread : unreadMessages (objectStatement mintedQuestion).toList
      mintedQuestion.provenance.messageIds quietRoom.provenance =
        [⟨"00000000-0000-4000-8000-000000000002", "alice", "The cake is in the kitchen."⟩] := by
    decide +kernel
  refine ⟨reading_passes, (certified_against_room_iff quietRoom rfl reading_passes).mpr (Or.inr ?_)⟩
  rw [hunread]
  intro message added hrevision
  have hclean : [(⟨"00000000-0000-4000-8000-000000000002", "alice", "The cake is in the kitchen."⟩ :
      ProvenanceMessage)].findSome? (scanMessage (objectStatement mintedQuestion).toList
        (routingTokens (objectStatement mintedQuestion).toList) receiptPolicy) = none := by
    decide +kernel
  rw [hclean] at hrevision
  cases hrevision

end Between

end Server
