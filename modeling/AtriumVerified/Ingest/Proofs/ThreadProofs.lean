import AtriumVerified.Ingest.GithubThread
import AtriumVerified.Lib.ExceptBind
import Mathlib.Data.List.Perm.Subperm
import Mathlib.Data.List.Forall2

/-!
# Whole threads

What a fetch took from the answers of the client, item by item. From it: a fetch throws, or returns
the root and every comment and reply of the thread, each once and each reply under its own comment.
The client may serve the items in any order, repeat them and leave them out; what it says of their
number is true.
-/

namespace Ingest

open Js Core Except

/-! ## Sinks -/

/-- A sink has taken some items, a message for each, and still holds no id twice. -/
structure Took [Unicode] (platform : Platform) (sink : List IngestMessage) (items : List ThreadItem)
    (grown : List IngestMessage) : Prop where
  messages : ∃ taken, grown = sink ++ taken ∧
    List.Forall₂ (fun item message => toMessage platform item = .ok message) items taken
  distinct : (sink.map (·.id)).Nodup → (grown.map (·.id)).Nodup

section Sink

theorem sinkPush_ok {label : String} {sink grown : List IngestMessage} {message : IngestMessage}
    (h : sinkPush label sink message = .ok grown) :
    grown = sink ++ [message] ∧ message.id ∉ sink.map (·.id) := by
  unfold sinkPush at h
  split at h
  · cases h
  · rename_i hfresh
    cases h
    refine ⟨rfl, fun hmem => hfresh ?_⟩
    obtain ⟨held, hheld, hid⟩ := List.mem_map.mp hmem
    exact List.any_eq_true.mpr ⟨held, hheld, beq_iff_eq.mpr hid⟩

variable [Unicode] {platform : Platform} {label : String} {sink between grown : List IngestMessage}

theorem Took.refl (sink : List IngestMessage) : Took platform sink [] sink :=
  ⟨⟨[], (List.append_nil _).symm, .nil⟩, id⟩

theorem Took.trans {first second : List ThreadItem} (h : Took platform sink first between)
    (h' : Took platform between second grown) : Took platform sink (first ++ second) grown where
  messages := by
    obtain ⟨taken, rfl, hof⟩ := h.messages
    obtain ⟨taken', rfl, hof'⟩ := h'.messages
    exact ⟨taken ++ taken', List.append_assoc _ _ _, List.rel_append hof hof'⟩
  distinct hsink := h'.distinct (h.distinct hsink)

theorem collect_took {item : ThreadItem} (h : collect platform label sink item = .ok grown) :
    Took platform sink [item] grown := by
  obtain ⟨message, hmessage, hpush⟩ := bind_ok h
  obtain ⟨rfl, hfresh⟩ := sinkPush_ok hpush
  refine ⟨⟨[message], rfl, .cons hmessage .nil⟩, fun hsink => ?_⟩
  rw [List.map_append, List.map_singleton, List.nodup_append]
  refine ⟨hsink, List.nodup_singleton _, ?_⟩
  rintro id hid other hother rfl
  rw [List.mem_singleton.mp hother] at hid
  exact hfresh hid

theorem collectAll_took {α : Type} (item : α → ThreadItem) (items : List α)
    (h : items.foldlM (fun sink a => collect platform label sink (item a)) sink = .ok grown) :
    Took platform sink (items.map item) grown := by
  induction items generalizing sink with
  | nil =>
    cases h
    exact .refl _
  | cons a rest ih =>
    rw [List.foldlM_cons] at h
    obtain ⟨between, hfirst, hrest⟩ := bind_ok h
    exact (collect_took hfirst).trans (ih hrest)

end Sink

/-! ## Issues -/

section Issue

variable {platform : Platform} {client : GitHubClient} {ref : ThreadRef}

theorem require_ok {condition : Bool} {error : FetchError}
    (h : require condition error = .ok ()) : condition = true := by
  unfold require at h
  split at h
  · assumption
  · cases h

theorem reconcile_ok {what : String} {expected got : Nat}
    (h : reconcile what expected got = .ok ()) : expected = got :=
  beq_iff_eq.mp (require_ok h)

def AnsweredComment (client : GitHubClient) (ref : ThreadRef) (comment : RestComment) : Prop :=
  ∃ call, ∃ page : Nat, ∃ batch, parseAnswer restCommentsSchema (client.rest call
      s!"{issuePath ref}/comments?per_page={restPageSize}&page={page}") = .ok batch ∧
    comment ∈ batch

def issueItem (ref : ThreadRef) (issue : RestIssue) : ThreadItem where
  id := threadRootId ref
  author := authorOf issue.user
  ts := issue.createdAt
  body := issue.body

variable [Unicode]

theorem fetchComments_took {expected pagesLeft page fetched : Nat}
    {sink messages : List IngestMessage}
    (h : fetchComments platform client ref expected pagesLeft page fetched sink = .ok messages) :
    ∃ served : List RestComment, (∀ comment ∈ served, AnsweredComment client ref comment) ∧
      fetched + served.length = expected ∧
      Took platform sink (served.map (commentItem ref)) messages := by
  induction pagesLeft generalizing page fetched sink with
  | zero => cases h
  | succ pagesLeft ih =>
    rw [fetchComments] at h
    obtain ⟨batch, hbatch, h⟩ := bind_ok h
    obtain ⟨between, hcollected, h⟩ := bind_ok h
    have hanswered : ∀ comment ∈ batch, AnsweredComment client ref comment :=
      fun comment hmem => ⟨_, _, batch, hbatch, hmem⟩
    have htook := collectAll_took _ _ hcollected
    split at h
    · obtain ⟨⟨⟩, hcount, hreturn⟩ := bind_ok h
      cases hreturn
      exact ⟨batch, hanswered, (reconcile_ok hcount).symm, htook⟩
    · obtain ⟨served, hserved, hcount, hrest⟩ := ih h
      refine ⟨batch ++ served, List.forall_mem_append.mpr ⟨hanswered, hserved⟩, ?_, ?_⟩
      · rw [List.length_append]
        omega
      · rw [List.map_append]
        exact htook.trans hrest

theorem fetchIssueThread_took {messages : List IngestMessage}
    (h : fetchIssueThread platform client ref = .ok messages) :
    ∃ issue, ∃ served : List RestComment,
      parseAnswer restIssueSchema (client.rest 0 (issuePath ref)) = .ok issue ∧
      (∀ comment ∈ served, AnsweredComment client ref comment) ∧
      served.length = issue.comments ∧
      Took platform [] (issueItem ref issue :: served.map (commentItem ref)) messages := by
  obtain ⟨issue, hissue, h⟩ := bind_ok h
  obtain ⟨sink, hroot, h⟩ := bind_ok h
  obtain ⟨served, hserved, hcount, hrest⟩ := fetchComments_took h
  rw [Nat.zero_add] at hcount
  exact ⟨issue, served, hissue, hserved, hcount, (collect_took hroot).trans hrest⟩

end Issue

/-! ## Discussions -/

/-- A comment of a discussion with replies to it. -/
structure ThreadComment where
  comment : DiscussionReply
  replies : List DiscussionReply

section Discussion

variable {platform : Platform} {client : GitHubClient} {ref : ThreadRef}

def ThreadComment.items (ref : ThreadRef) (thread : ThreadComment) : List ThreadItem :=
  discussionItem ref thread.comment none :: thread.replies.map fun reply =>
    discussionItem ref reply (some (discussionItemId ref thread.comment))

def rootItem (ref : ThreadRef) (discussion : Discussion) : ThreadItem where
  id := threadRootId ref
  author := authorOf discussion.author
  ts := discussion.createdAt
  body := discussion.body

def AnsweredDiscussion (client : GitHubClient) (discussion : Discussion) : Prop :=
  ∃ call asked,
    parseAnswer discussionResponseSchema (client.graphql call .discussion asked) = .ok discussion

def AnsweredReplies (client : GitHubClient) (id : String) (page : Connection DiscussionReply) :
    Prop :=
  ∃ call first after, parseAnswer repliesResponseSchema (client.graphql call .replies
    [("id", .string id), ("first", first), ("after", after)]) = .ok page

/-- A comment that is on an answered page, with replies from it and from the further pages, as many
as the page says. -/
structure AnsweredThread (client : GitHubClient) (served : ThreadComment)
    (node : DiscussionComment) : Prop where
  comment : served.comment = node.toDiscussionReply
  replies : ∀ reply ∈ served.replies, reply ∈ node.replies.nodes ∨
    ∃ page, AnsweredReplies client node.id page ∧ reply ∈ page.nodes
  count : served.replies.length = node.replies.totalCount

def Answered (client : GitHubClient) (served : List ThreadComment) : Prop :=
  ∀ thread ∈ served, ∃ discussion, AnsweredDiscussion client discussion ∧
    ∃ node ∈ discussion.comments.nodes, AnsweredThread client thread node

theorem fetchMoreReplies_ok {label id : String} {expected pagesLeft calls : Nat}
    {cursor : Option String} {replies : List DiscussionReply}
    {fetched : List DiscussionReply × Nat}
    (h : fetchMoreReplies client label id expected pagesLeft calls cursor replies = .ok fetched) :
    ∀ reply ∈ fetched.1, reply ∈ replies ∨
      ∃ page, AnsweredReplies client id page ∧ reply ∈ page.nodes := by
  induction pagesLeft generalizing calls cursor replies with
  | zero =>
    cases cursor with
    | none =>
      cases h
      exact fun reply hmem => Or.inl hmem
    | some cursor => cases h
  | succ pagesLeft ih =>
    cases cursor with
    | none =>
      cases h
      exact fun reply hmem => Or.inl hmem
    | some cursor =>
      rw [fetchMoreReplies] at h
      obtain ⟨page, hpage, h⟩ := bind_ok h
      obtain ⟨⟨⟩, -, h⟩ := bind_ok h
      obtain ⟨next, -, h⟩ := bind_ok h
      intro reply hmem
      rcases ih h reply hmem with hmem | hlater
      · rcases List.mem_append.mp hmem with hmem | hmem
        · exact Or.inl hmem
        · exact Or.inr ⟨page, ⟨_, _, _, hpage⟩, hmem⟩
      · exact Or.inr hlater

theorem fetchReplies_ok {node : DiscussionComment} {calls : Nat}
    {fetched : List DiscussionReply × Nat}
    (h : fetchReplies client ref calls node = .ok fetched) :
    AnsweredThread client ⟨node.toDiscussionReply, fetched.1⟩ node := by
  obtain ⟨cursor, -, h⟩ := bind_ok h
  obtain ⟨⟨replies, calls⟩, hmore, h⟩ := bind_ok h
  obtain ⟨⟨⟩, hcount, hreturn⟩ := bind_ok h
  cases hreturn
  exact ⟨rfl, fetchMoreReplies_ok hmore, (reconcile_ok hcount).symm⟩

variable [Unicode]

theorem collectComment_took {node : DiscussionComment} {state next : List IngestMessage × Nat}
    (h : collectComment platform client ref state node = .ok next) :
    ∃ served, AnsweredThread client served node ∧
      Took platform state.1 (served.items ref) next.1 := by
  obtain ⟨between, hcomment, h⟩ := bind_ok h
  obtain ⟨fetched, hfetched, h⟩ := bind_ok h
  obtain ⟨sink, hreplies, hreturn⟩ := bind_ok h
  cases hreturn
  exact ⟨_, fetchReplies_ok hfetched, (collect_took hcomment).trans (collectAll_took _ _ hreplies)⟩

theorem collectComments_took {discussion : Discussion}
    (hdiscussion : AnsweredDiscussion client discussion) {nodes : List DiscussionComment}
    (hnodes : nodes ⊆ discussion.comments.nodes) {state next : List IngestMessage × Nat}
    (h : nodes.foldlM (collectComment platform client ref) state = .ok next) :
    ∃ served, Answered client served ∧ served.length = nodes.length ∧
      Took platform state.1 (served.flatMap (ThreadComment.items ref)) next.1 := by
  induction nodes generalizing state with
  | nil =>
    cases h
    exact ⟨[], fun _ hmem => (by cases hmem), rfl, .refl _⟩
  | cons node rest ih =>
    rw [List.foldlM_cons] at h
    obtain ⟨between, hfirst, hrest⟩ := bind_ok h
    obtain ⟨hnode, hnodes⟩ := List.cons_subset.mp hnodes
    obtain ⟨first, hanswered, htook⟩ := collectComment_took hfirst
    obtain ⟨served, hserved, hlength, htookRest⟩ := ih hnodes hrest
    refine ⟨first :: served, List.forall_mem_cons.mpr ⟨?_, hserved⟩, congrArg (· + 1) hlength, ?_⟩
    · exact ⟨discussion, hdiscussion, node, hnode, hanswered⟩
    · rw [List.flatMap_cons]
      exact htook.trans htookRest

/-- The pages behind the first bring as many comments as are still expected. -/
theorem fetchDiscussionPages_took {pagesLeft calls : Nat} {cursor : Option String}
    {total fetched : Nat} {sink messages : List IngestMessage}
    (h : fetchDiscussionPages platform client ref pagesLeft calls cursor (some total) fetched sink =
      .ok messages) :
    ∃ served, Answered client served ∧ fetched + served.length = total ∧
      Took platform sink (served.flatMap (ThreadComment.items ref)) messages := by
  induction pagesLeft generalizing calls cursor fetched sink with
  | zero => cases h
  | succ pagesLeft ih =>
    rw [fetchDiscussionPages] at h
    obtain ⟨discussion, hdiscussion, h⟩ := bind_ok h
    obtain ⟨⟨⟩, -, h⟩ := bind_ok h
    obtain ⟨rooted, hroot, h⟩ := bind_ok h
    cases hroot
    obtain ⟨⟨grown, calls'⟩, hcomments, h⟩ := bind_ok h
    obtain ⟨next, -, h⟩ := bind_ok h
    obtain ⟨served, hserved, hlength, htook⟩ :=
      collectComments_took ⟨_, _, hdiscussion⟩ (List.Subset.refl _) hcomments
    rw [← hlength] at h
    cases next with
    | none =>
      obtain ⟨⟨⟩, hcount, hreturn⟩ := bind_ok h
      cases hreturn
      exact ⟨served, hserved, (reconcile_ok hcount).symm, htook⟩
    | some cursor' =>
      obtain ⟨later, hlater, hcount, hrest⟩ := ih h
      refine ⟨served ++ later, List.forall_mem_append.mpr ⟨hserved, hlater⟩, ?_, ?_⟩
      · rw [List.length_append]
        omega
      · rw [List.flatMap_append]
        exact htook.trans hrest

/-- A discussion brings its root and as many comments as its first page says. -/
theorem fetchDiscussionThread_took {messages : List IngestMessage}
    (h : fetchDiscussionThread platform client ref = .ok messages) :
    ∃ discussion served, AnsweredDiscussion client discussion ∧ Answered client served ∧
      served.length = discussion.comments.totalCount ∧
      Took platform [] (rootItem ref discussion :: served.flatMap (ThreadComment.items ref))
        messages := by
  rw [fetchDiscussionThread, show maxPages = 199 + 1 from rfl, fetchDiscussionPages] at h
  obtain ⟨discussion, hdiscussion, h⟩ := bind_ok h
  obtain ⟨⟨⟩, -, h⟩ := bind_ok h
  obtain ⟨rooted, hroot, h⟩ := bind_ok h
  obtain ⟨⟨grown, calls⟩, hcomments, h⟩ := bind_ok h
  obtain ⟨next, -, h⟩ := bind_ok h
  obtain ⟨served, hserved, hlength, htook⟩ :=
    collectComments_took ⟨_, _, hdiscussion⟩ (List.Subset.refl _) hcomments
  have hfirst := (collect_took hroot).trans htook
  rw [← hlength, Nat.zero_add] at h
  cases next with
  | none =>
    obtain ⟨⟨⟩, hcount, hreturn⟩ := bind_ok h
    cases hreturn
    exact ⟨discussion, served, ⟨_, _, hdiscussion⟩, hserved, (reconcile_ok hcount).symm, hfirst⟩
  | some cursor =>
    obtain ⟨later, hlater, hcount, hrest⟩ := fetchDiscussionPages_took h
    refine ⟨discussion, served ++ later, ⟨_, _, hdiscussion⟩,
      List.forall_mem_append.mpr ⟨hserved, hlater⟩, ?_, ?_⟩
    · rw [List.length_append]
      exact hcount
    · rw [List.flatMap_append]
      exact hfirst.trans hrest

end Discussion

/-! ## Counting -/

def place (message : IngestMessage) : Id × Option Id := (message.id, message.replyTo)

theorem perm_of_served {α β : Type} {f : α → β} {served all : List α} (hsub : served ⊆ all)
    (hdistinct : (served.map f).Nodup) (hcount : served.length = all.length) : served.Perm all :=
  (hdistinct.of_map.subperm hsub).perm_of_length_le hcount.ge

/-- What a fetch may end in: a throw, or the root and then messages in the given places, no id
twice. -/
def Whole (root : Id) (places : List (Id × Option Id)) :
    Except FetchError (List IngestMessage) → Prop
  | .error _ => True
  | .ok messages => ∃ first rest, messages = first :: rest ∧ place first = (root, none) ∧
      (messages.map (·.id)).Nodup ∧ (rest.map place).Perm places

section Whole

variable [Unicode] {platform : Platform}

theorem toMessage_place {item : ThreadItem} {message : IngestMessage}
    (h : toMessage platform item = .ok message) : place message = (item.id, item.replyTo) := by
  unfold toMessage at h
  dsimp only at h
  split at h
  · cases h
  · cases h
    rfl

theorem places_of_messages {items : List ThreadItem} {taken : List IngestMessage}
    (h : List.Forall₂ (fun item message => toMessage platform item = .ok message) items taken) :
    taken.map place = items.map fun item => (item.id, item.replyTo) := by
  induction h with
  | nil => rfl
  | cons hmessage _ ih => rw [List.map_cons, List.map_cons, toMessage_place hmessage, ih]

theorem Took.whole {root : ThreadItem} {items : List ThreadItem} {messages : List IngestMessage}
    {places : List (Id × Option Id)} (h : Took platform [] (root :: items) messages)
    (hroot : root.replyTo = none)
    (hall : (items.map fun item => item.id).Nodup →
      (items.map fun item => (item.id, item.replyTo)).Perm places) :
    Whole root.id places (.ok messages) := by
  obtain ⟨taken, rfl, hof⟩ := h.messages
  obtain ⟨first, rest, hfirst, hrest, rfl⟩ := List.forall₂_cons_left_iff.mp hof
  have hplaces := places_of_messages hrest
  have hdistinct := h.distinct List.nodup_nil
  refine ⟨first, rest, rfl, ?_, hdistinct, ?_⟩
  · rw [toMessage_place hfirst, hroot]
  · rw [hplaces]
    refine hall ?_
    have hids := congrArg (List.map Prod.fst) hplaces
    rw [List.map_map, List.map_map] at hids
    rw [List.map_cons, List.nodup_cons] at hdistinct
    exact hids ▸ hdistinct.2

/-! ## Honest clients -/

variable {client : GitHubClient} {ref : ThreadRef}

/-- The client serves comments of this issue only, and counts them right. -/
structure ServesIssue (client : GitHubClient) (ref : ThreadRef) (thread : List RestComment) :
    Prop where
  count : ∀ call issue, parseAnswer restIssueSchema (client.rest call (issuePath ref)) = .ok issue →
    issue.comments = thread.length
  comments : ∀ call (page : Nat) batch, parseAnswer restCommentsSchema (client.rest call
      s!"{issuePath ref}/comments?per_page={restPageSize}&page={page}") = .ok batch →
    batch ⊆ thread

def commentPlace (ref : ThreadRef) (comment : RestComment) : Id × Option Id :=
  (threadCommentId ref (toString comment.id), none)

theorem fetchIssueThread_whole {thread : List RestComment}
    (hserves : ServesIssue client ref thread) :
    Whole (threadRootId ref) (thread.map (commentPlace ref))
      (fetchIssueThread platform client ref) := by
  cases h : fetchIssueThread platform client ref with
  | error error => trivial
  | ok messages =>
    obtain ⟨issue, served, hissue, hanswered, hcount, htook⟩ := fetchIssueThread_took h
    have hserved : served ⊆ thread := by
      intro comment hmem
      obtain ⟨call, page, batch, hbatch, hcomment⟩ := hanswered comment hmem
      exact hserves.comments call page batch hbatch hcomment
    refine htook.whole rfl fun hdistinct => ?_
    rw [List.map_map] at hdistinct ⊢
    rw [hserves.count _ _ hissue] at hcount
    exact (perm_of_served hserved hdistinct hcount).map _

end Whole

section Served

variable {client : GitHubClient} {ref : ThreadRef}

def PageOf {α : Type} (items : List α) (page : Connection α) : Prop :=
  page.totalCount = items.length ∧ page.nodes ⊆ items

/-- The client serves comments of this discussion only, with replies to each only where the replies
to it are asked for, and counts both right. -/
structure ServesDiscussion (client : GitHubClient) (thread : List ThreadComment) : Prop where
  count : ∀ call asked discussion,
    parseAnswer discussionResponseSchema (client.graphql call .discussion asked) =
      .ok discussion → discussion.comments.totalCount = thread.length
  comments : ∀ call asked discussion,
    parseAnswer discussionResponseSchema (client.graphql call .discussion asked) =
      .ok discussion → ∀ node ∈ discussion.comments.nodes,
        ∃ whole ∈ thread, whole.comment = node.toDiscussionReply ∧ PageOf whole.replies node.replies
  replies : ∀ call, ∀ whole ∈ thread, ∀ first after page,
    parseAnswer repliesResponseSchema (client.graphql call .replies
      [("id", .string whole.comment.id), ("first", first), ("after", after)]) = .ok page →
    PageOf whole.replies page

def ThreadComment.places (ref : ThreadRef) (thread : ThreadComment) : List (Id × Option Id) :=
  (discussionItemId ref thread.comment, none) ::
    thread.replies.map fun reply =>
      (discussionItemId ref reply, some (discussionItemId ref thread.comment))

structure ServedOf (served whole : ThreadComment) : Prop where
  comment : served.comment = whole.comment
  replies : served.replies ⊆ whole.replies
  count : served.replies.length = whole.replies.length

theorem ServesDiscussion.served {thread : List ThreadComment}
    (hserves : ServesDiscussion client thread) {served : List ThreadComment}
    (h : Answered client served) :
    ∃ wholes, wholes ⊆ thread ∧ List.Forall₂ ServedOf served wholes := by
  induction served with
  | nil => exact ⟨[], List.nil_subset _, .nil⟩
  | cons first rest ih =>
    obtain ⟨⟨discussion, ⟨call, asked, hdiscussion⟩, node, hmem, hanswered⟩, hrest⟩ :=
      List.forall_mem_cons.mp h
    obtain ⟨wholes, hwholes, hof⟩ := ih hrest
    obtain ⟨whole, hwhole, hnode, hcount, hpage⟩ :=
      hserves.comments call asked discussion hdiscussion node hmem
    refine ⟨whole :: wholes, List.cons_subset.mpr ⟨hwhole, hwholes⟩, .cons ⟨?_, ?_, ?_⟩ hof⟩
    · rw [hanswered.comment, hnode]
    · intro reply hreply
      rcases hanswered.replies reply hreply with
        hreply | ⟨page, ⟨call, first, after, hpage⟩, hreply⟩
      · exact hpage hreply
      · have hid : node.id = whole.comment.id := by rw [hnode]
        rw [hid] at hpage
        exact (hserves.replies call whole hwhole first after page hpage).2 hreply
    · rw [hanswered.count, hcount]

theorem ServedOf.perm {served whole : ThreadComment} (h : ServedOf served whole)
    (hdistinct : ((served.places ref).map Prod.fst).Nodup) :
    (served.places ref).Perm (whole.places ref) := by
  unfold ThreadComment.places at hdistinct ⊢
  rw [← h.comment]
  rw [List.map_cons, List.map_map, List.nodup_cons] at hdistinct
  exact ((perm_of_served h.replies hdistinct.2 h.count).map _).cons _

theorem servedOf_perm {served wholes : List ThreadComment}
    (h : List.Forall₂ ServedOf served wholes)
    (hdistinct : ((served.flatMap (ThreadComment.places ref)).map Prod.fst).Nodup) :
    (served.flatMap (ThreadComment.places ref)).Perm
        (wholes.flatMap (ThreadComment.places ref)) ∧
      (wholes.map fun whole => discussionItemId ref whole.comment).Sublist
        ((served.flatMap (ThreadComment.places ref)).map Prod.fst) := by
  induction h with
  | nil => exact ⟨.nil, .slnil⟩
  | @cons served whole rest wholes hof _ ih =>
    rw [List.flatMap_cons, List.map_append] at hdistinct
    obtain ⟨hfirst, hrest, -⟩ := List.nodup_append.mp hdistinct
    obtain ⟨hperm, hsublist⟩ := ih hrest
    refine ⟨(hof.perm hfirst).append hperm, ?_⟩
    rw [List.map_cons, ← hof.comment, List.flatMap_cons, List.map_append]
    exact .cons_cons _ (hsublist.trans (List.sublist_append_right _ _))

theorem places_items (served : List ThreadComment) :
    ((served.flatMap (ThreadComment.items ref)).map fun item => (item.id, item.replyTo)) =
      served.flatMap (ThreadComment.places ref) := by
  rw [List.map_flatMap]
  refine congrArg (List.flatMap · served) (funext fun thread => ?_)
  unfold ThreadComment.items ThreadComment.places
  rw [List.map_cons, List.map_map]
  rfl

variable [Unicode] {platform : Platform}

theorem fetchDiscussionThread_whole {thread : List ThreadComment}
    (hserves : ServesDiscussion client thread) :
    Whole (threadRootId ref) (thread.flatMap (ThreadComment.places ref))
      (fetchDiscussionThread platform client ref) := by
  cases h : fetchDiscussionThread platform client ref with
  | error error => trivial
  | ok messages =>
    obtain ⟨discussion, served, ⟨call, asked, hdiscussion⟩, hanswered, hcount, htook⟩ :=
      fetchDiscussionThread_took h
    obtain ⟨wholes, hsub, hof⟩ := hserves.served hanswered
    refine htook.whole rfl fun hdistinct => ?_
    have hids : ((served.flatMap (ThreadComment.places ref)).map Prod.fst).Nodup := by
      rw [← places_items, List.map_map]
      exact hdistinct
    rw [places_items]
    obtain ⟨hperm, hsublist⟩ := servedOf_perm hof hids
    have hlength : wholes.length = thread.length := by
      rw [← hof.length_eq, hcount, hserves.count call asked discussion hdiscussion]
    have hall : wholes.Perm thread := perm_of_served hsub (hids.sublist hsublist) hlength
    exact hperm.trans (hall.flatMap_right _)

end Served

/-- No part of a thread is ever taken for the whole, neither of an issue nor of a discussion: a
fetch throws, or returns the root and everything else once. The ids of the thread need not be
distinct: where they are not, a fetch throws. -/
theorem threads_fetched_whole [Unicode] (platform : Platform) (client : GitHubClient)
    (ref : ThreadRef) (issue : List RestComment) (discussion : List ThreadComment) :
    (ServesIssue client ref issue →
      Whole (threadRootId ref) (issue.map (commentPlace ref))
        (fetchIssueThread platform client ref)) ∧
      (ServesDiscussion client discussion →
        Whole (threadRootId ref) (discussion.flatMap (ThreadComment.places ref))
          (fetchDiscussionThread platform client ref)) :=
  ⟨fetchIssueThread_whole, fetchDiscussionThread_whole⟩

def upload : String := "https://github.com/user-attachments/a"

/-- The client knows an issue with two comments, and a discussion with two comments on two pages, of
which the first one has two replies on two pages. -/
def twoPages : GitHubClient where
  rest
    | 0, _ => .ok (.object [("number", .number (.ofInt 7)), ("title", .string "On call"),
        ("created_at", .string "2026-01-01T00:00:00Z"), ("comments", .number (.ofInt 2))])
    | _, _ => .ok (.array [comment 1 (.string upload), comment 2 .null])
  graphql
    | 0, .discussion, _ => discussion (connection (some "1") [reply "a"
        [("replies", connection (some "2") [reply "b" []])]])
    | _, .discussion, _ => discussion (connection none [reply "d"
        [("replies", .object [("totalCount", .number (.ofInt 0)),
          ("pageInfo", .object [("hasNextPage", .bool false)]), ("nodes", .array [])])]])
    | _, .replies, ("id", .string "a") :: _ => .ok (.object [("data", .object [("node",
        .object [("replies", connection none [reply "c" []])])])])
    | _, .replies, _ => .error "not found"
where
  comment (id : Int) (body : Json) : Json :=
    .object [("id", .number (.ofInt id)), ("body", body),
      ("created_at", .string "2026-01-02T00:00:00Z")]
  /-- A page of a connection of two nodes. -/
  connection (endCursor : Option String) (nodes : List Json) : Json :=
    .object [("totalCount", .number (.ofInt 2)),
      ("pageInfo", .object (("hasNextPage", .bool endCursor.isSome) ::
        endCursor.toList.map fun cursor => ("endCursor", .string cursor))), ("nodes", .array nodes)]
  reply (id : String) (more : List (String × Json)) : Json :=
    .object ([("id", .string id), ("databaseId", .null),
      ("body", if id = "b" then .string upload else .null),
      ("createdAt", .string "2026-01-02T00:00:00Z")] ++ more)
  discussion (comments : Json) : Except String Json :=
    .ok (.object [("data", .object [("repository", .object [("discussion",
      .object [("number", .number (.ofInt 7)), ("title", .string "On call"),
        ("createdAt", .string "2026-01-01T00:00:00Z"), ("comments", comments)])])])])

def twoComments : List RestComment :=
  [⟨1, some upload, none, "2026-01-02T00:00:00Z"⟩, ⟨2, none, none, "2026-01-02T00:00:00Z"⟩]

def twoThreads : List ThreadComment :=
  [⟨reply "a", [reply "b", reply "c"]⟩, ⟨reply "d", []⟩]
where
  reply (id : String) : DiscussionReply :=
    ⟨id, none, if id = "b" then some upload else none, none, "2026-01-02T00:00:00Z"⟩

/-- What `new URL` reads of a URL without a port, a query or a fragment. -/
def readUrlParts (url : String) : Option Url :=
  match url.toList.splitOn '/' with
  | scheme :: [] :: host :: path =>
    if scheme = "https:".toList ∨ scheme = "http:".toList then
      some ⟨String.ofList scheme, String.ofList host,
        String.ofList (path.flatMap fun segment => '/' :: segment)⟩
    else none
  | _ => none

/-- What the platform answers for the texts of the examples. -/
def january : Platform where
  parseUrl := readUrlParts
  readUrl url := (readUrlParts url).map fun _ => url
  parseDate
    | "2026-01-01T00:00:00Z" => some 1767225600000
    | "2026-01-02T00:00:00Z" => some 1767312000000
    | _ => none
  syntaxError _ := ""

theorem servesIssue_twoPages (ref : ThreadRef) : ServesIssue twoPages ref twoComments where
  count call issue h := by
    cases call with
    | zero =>
      cases h
      rfl
    | succ call => cases h
  comments call page batch h := by
    cases call with
    | zero => cases h
    | succ call =>
      cases h
      exact List.Subset.refl _

theorem servesDiscussion_twoPages : ServesDiscussion twoPages twoThreads where
  count call asked discussion h := by
    cases call with
    | zero =>
      cases h
      rfl
    | succ call =>
      cases h
      rfl
  comments call asked discussion h node hnode := by
    cases call with
    | zero =>
      cases h
      cases List.mem_singleton.mp hnode
      exact ⟨_, List.mem_cons_self, rfl, rfl, List.cons_subset_cons _ (List.nil_subset _)⟩
    | succ call =>
      cases h
      cases List.mem_singleton.mp hnode
      exact ⟨_, List.mem_cons_of_mem _ List.mem_cons_self, rfl, rfl, List.nil_subset _⟩
  replies call whole hwhole first after page h := by
    rcases List.mem_cons.mp hwhole with rfl | hwhole
    · cases call <;> cases h <;> exact ⟨rfl, List.subset_cons_self _ _⟩
    · cases List.mem_singleton.mp hwhole
      cases call <;> cases h

theorem threads_fetched_whole_twoPages :
    let _ : Unicode := Unicode.ascii
    let ref : ThreadRef := ⟨"ada", "notes", 7⟩
    Whole (threadRootId ref) (twoComments.map (commentPlace ref))
        (fetchIssueThread january twoPages ref) ∧
      (fetchIssueThread january twoPages ref).toOption.isSome ∧
      Whole (threadRootId ref) (twoThreads.flatMap (ThreadComment.places ref))
        (fetchDiscussionThread january twoPages ref) ∧
      (fetchDiscussionThread january twoPages ref).toOption.isSome := by
  let _ : Unicode := Unicode.ascii
  intro _ ref
  have h := threads_fetched_whole january twoPages ref twoComments twoThreads
  refine ⟨h.1 (servesIssue_twoPages ref), ?_, h.2 servesDiscussion_twoPages, ?_⟩
  · decide +kernel
  · decide +kernel

end Ingest
