import AtriumVerified.Ingest.Validate

/-!
# GitHub threads

The model of `packages/ingest/src/github-thread.ts`: an issue with its comments, and a discussion
with its comments and their replies, fetched page by page. The client is a parameter: what it answers
may depend on how many calls it has had.
-/

namespace Ingest

open Js Core

/-! ## The client -/

inductive GraphqlQuery where
  | discussion
  | replies
  deriving DecidableEq, Repr

/-- `GitHubClient`. A call is answered by a value, or rejected with a message. -/
structure GitHubClient where
  rest : Nat → String → Except String Json
  graphql : Nat → GraphqlQuery → List (String × Json) → Except String Json

structure ThreadRef where
  owner : String
  repo : String
  number : Nat

inductive FetchError where
  /-- The client rejects. -/
  | client (message : String)
  /-- `ZodError`. -/
  | schema (issues : List Schema.Issue)
  /-- A timestamp that cannot be read. -/
  | timestamp (message : String)
  | truncatedFetch (message : String)
  | snapshotMismatch (what : String) (expected got : Nat)
  | duplicateSourceItem (message : String)

def maxPages : Nat := 200

def restPageSize : Nat := 100

def graphqlPageSize : Nat := 50

def graphqlReplyPageSize : Nat := 100

/-! ## Responses -/

/-- `RestUser` and `GraphQLAuthor`: the login. -/
def userSchema : Schema.Reader (Option String) :=
  Schema.nullish (Schema.object fun fields => Schema.field fields "login" filled)

/-- `z.string()`. -/
def plainText : Schema.Reader String := Schema.string []

/-- `RestIssue`, as far as it is used. -/
structure RestIssue where
  body : Option String
  user : Option String
  createdAt : String
  comments : Nat

/-- `RestIssue`. -/
def restIssueSchema : Schema.Reader RestIssue :=
  Schema.object fun fields =>
    Schema.both (fun f comments => f comments)
      (Schema.both (fun f createdAt => f createdAt)
        (Schema.both (fun f user => f user)
          (Schema.both (fun (_ : Int × String) body user createdAt comments =>
              (⟨body, user, createdAt, comments⟩ : RestIssue))
            (Schema.both Prod.mk (Schema.field fields "number" Schema.integer)
              (Schema.field fields "title" plainText))
            (Schema.field fields "body" (Schema.nullish plainText)))
          (Schema.field fields "user" userSchema))
        (Schema.field fields "created_at" plainText))
      (Schema.field fields "comments" (Schema.nonnegative Schema.integer))

structure RestComment where
  id : Int
  body : Option String
  user : Option String
  createdAt : String

/-- `RestComments`. -/
def restCommentsSchema : Schema.Reader (List RestComment) :=
  Schema.array (Schema.object fun fields =>
    Schema.both (fun f createdAt => f createdAt)
      (Schema.both (fun f user => f user)
        (Schema.both (fun id body user createdAt => (⟨id, body, user, createdAt⟩ : RestComment))
          (Schema.field fields "id" Schema.integer)
          (Schema.field fields "body" (Schema.nullish plainText)))
        (Schema.field fields "user" userSchema))
      (Schema.field fields "created_at" plainText))

structure DiscussionReply where
  id : String
  databaseId : Option Int
  body : Option String
  author : Option String
  createdAt : String

/-- The shape of `DiscussionReply`. -/
def readReply (fields : List (String × Json)) : Schema.Parsed DiscussionReply :=
  Schema.both (fun f createdAt => f createdAt)
    (Schema.both (fun f author => f author)
      (Schema.both (fun f body => f body)
        (Schema.both (fun id databaseId body author createdAt =>
            (⟨id, databaseId, body, author, createdAt⟩ : DiscussionReply))
          (Schema.field fields "id" filled)
          (Schema.field fields "databaseId" (Schema.nullable Schema.integer)))
        (Schema.field fields "body" (Schema.nullish plainText)))
      (Schema.field fields "author" userSchema))
    (Schema.field fields "createdAt" plainText)

structure PageInfo where
  hasNextPage : Bool
  endCursor : Option String

/-- `PageInfo`. -/
def pageInfoSchema : Schema.Reader PageInfo :=
  Schema.object fun fields =>
    Schema.both PageInfo.mk (Schema.field fields "hasNextPage" Schema.boolean)
      (Schema.field fields "endCursor" (Schema.nullish plainText))

/-- A page of a connection: `ReplyConnection`, or the comments of a discussion. -/
structure Connection (α : Type) where
  totalCount : Nat
  pageInfo : PageInfo
  nodes : List α

def connectionSchema {α : Type} (node : Schema.Reader α) : Schema.Reader (Connection α) :=
  Schema.object fun fields =>
    Schema.both (fun f nodes => f nodes)
      (Schema.both Connection.mk
        (Schema.field fields "totalCount" (Schema.nonnegative Schema.integer))
        (Schema.field fields "pageInfo" pageInfoSchema))
      (Schema.field fields "nodes" (Schema.array node))

/-- `DiscussionComment`: a reply that has replies. -/
structure DiscussionComment extends DiscussionReply where
  replies : Connection DiscussionReply

/-- `DiscussionComment`. -/
def discussionCommentSchema : Schema.Reader DiscussionComment :=
  Schema.object fun fields =>
    Schema.both DiscussionComment.mk (readReply fields)
      (Schema.field fields "replies" (connectionSchema (Schema.object readReply)))

/-- `discussion` of `DiscussionResponse`. -/
structure Discussion where
  body : Option String
  author : Option String
  createdAt : String
  comments : Connection DiscussionComment

def discussionSchema : Schema.Reader Discussion :=
  Schema.object fun fields =>
    Schema.both (fun f comments => f comments)
      (Schema.both (fun f createdAt => f createdAt)
        (Schema.both (fun f author => f author)
          (Schema.both (fun (_ : Int × String) body author createdAt comments =>
              (⟨body, author, createdAt, comments⟩ : Discussion))
            (Schema.both Prod.mk (Schema.field fields "number" Schema.integer)
              (Schema.field fields "title" plainText))
            (Schema.field fields "body" (Schema.nullish plainText)))
          (Schema.field fields "author" userSchema))
        (Schema.field fields "createdAt" plainText))
      (Schema.field fields "comments" (connectionSchema discussionCommentSchema))

def inside {α : Type} (key : String) (schema : Schema.Reader α) : Schema.Reader α :=
  Schema.object fun fields => Schema.field fields key schema

/-- `DiscussionResponse`. -/
def discussionResponseSchema : Schema.Reader Discussion :=
  inside "data" (inside "repository" (inside "discussion" discussionSchema))

/-- `RepliesResponse`. -/
def repliesResponseSchema : Schema.Reader (Connection DiscussionReply) :=
  inside "data" (inside "node" (inside "replies" (connectionSchema (Schema.object readReply))))

/-- `Schema.parse(await …)`. -/
def parseAnswer {α : Type} (schema : Schema.Reader α) (answer : Except String Json) :
    Except FetchError α :=
  match answer with
  | .error message => .error (.client message)
  | .ok json =>
    match schema (some json) with
    | .ok value => .ok value
    | .error issues => .error (.schema issues)

/-! ## Messages -/

def threadRootId (ref : ThreadRef) : Id := s!"github:{ref.owner}/{ref.repo}#{ref.number}"

def threadCommentId (ref : ThreadRef) (commentId : String) : Id :=
  threadRootId ref ++ "/c" ++ commentId

def discussionItemId (ref : ThreadRef) (item : DiscussionReply) : Id :=
  threadCommentId ref (match item.databaseId with
    | some databaseId => toString databaseId
    | none => item.id)

def authorOf (user : Option String) : String := user.getD "ghost"

/-- `throw new …Error`, when the condition fails. -/
def require (condition : Bool) (error : FetchError) : Except FetchError Unit :=
  if condition then .ok () else .error error

def reconcile (what : String) (expected got : Nat) : Except FetchError Unit :=
  require (expected == got) (.snapshotMismatch what expected got)

def capReached (what : String) : FetchError :=
  .truncatedFetch (s!"{what}: still paginating after {maxPages} pages. Refusing to write a truncated corpus — " ++
    "raise MAX_PAGES if the thread really is this large.")

def nextCursor (pageInfo : PageInfo) (what : String) : Except FetchError (Option String) :=
  if !pageInfo.hasNextPage then .ok none
  else
    match pageInfo.endCursor with
    | none => .error (.truncatedFetch
        (s!"{what}: the API reports more pages (hasNextPage) but returned no endCursor, " ++
          "so the rest is unreachable. Refusing to write a truncated corpus."))
    | some cursor => .ok (some cursor)

/-- The argument of `toMessage`. -/
structure ThreadItem where
  id : Id
  author : String
  ts : String
  body : Option String
  replyTo : Option Id := none

section Fetch

variable [Unicode] (platform : Platform)

def toMessage (input : ThreadItem) : Except FetchError IngestMessage :=
  let text := input.body.getD ""
  let attachments := extractAttachments platform text
  match normalizeTimestamp platform input.ts with
  | .error message => .error (.timestamp message)
  | .ok ts => .ok {
      id := input.id
      author := input.author
      ts, text
      replyTo := input.replyTo
      attachments := if attachments.isEmpty then none else some attachments }

/-- `MessageSink.push`. -/
def sinkPush (label : String) (sink : List IngestMessage) (message : IngestMessage) :
    Except FetchError (List IngestMessage) :=
  if sink.any fun held => held.id == message.id then
    .error (.duplicateSourceItem
      (s!"{label}: the API returned {message.id} more than once. Pagination is repeating " ++
        "items, which means something else was skipped. Refusing to write the corpus."))
  else .ok (sink ++ [message])

/-- `sink.push(toMessage(…))`. -/
def collect (label : String) (sink : List IngestMessage) (input : ThreadItem) :
    Except FetchError (List IngestMessage) := do
  let message ← toMessage platform input
  sinkPush label sink message

variable (client : GitHubClient) (ref : ThreadRef)

/-! ## Issues -/

def commentItem (comment : RestComment) : ThreadItem where
  id := threadCommentId ref (toString comment.id)
  author := authorOf comment.user
  ts := comment.createdAt
  body := comment.body

def issueLabel : String := s!"issue {threadRootId ref}"

def issuePath : String := s!"repos/{ref.owner}/{ref.repo}/issues/{ref.number}"

/-- The pages of the comments of an issue, from a page on, which is the call of the same number. At
most `pagesLeft` are fetched. -/
def fetchComments (expected : Nat) :
    Nat → Nat → Nat → List IngestMessage → Except FetchError (List IngestMessage)
  | 0, _, _, _ => .error (capReached s!"{issueLabel ref} comments")
  | pagesLeft + 1, page, fetched, sink => do
    let batch ← parseAnswer restCommentsSchema (client.rest page
      s!"{issuePath ref}/comments?per_page={restPageSize}&page={page}")
    let sink ← batch.foldlM (fun sink comment =>
      collect platform (issueLabel ref) sink (commentItem ref comment)) sink
    if batch.length < restPageSize then
      reconcile s!"{issueLabel ref} comment count" expected (fetched + batch.length)
      return sink
    else fetchComments expected pagesLeft (page + 1) (fetched + batch.length) sink

def fetchIssueThread : Except FetchError (List IngestMessage) := do
  let issue ← parseAnswer restIssueSchema (client.rest 0 (issuePath ref))
  let sink ← collect platform (issueLabel ref) [] {
    id := threadRootId ref, author := authorOf issue.user, ts := issue.createdAt, body := issue.body }
  fetchComments platform client ref issue.comments maxPages 1 0 sink

/-! ## Discussions -/

def discussionItem (item : DiscussionReply) (replyTo : Option Id) : ThreadItem where
  id := discussionItemId ref item
  author := authorOf item.author
  ts := item.createdAt
  body := item.body
  replyTo

/-- The further pages of the replies to a comment, of which at most `pagesLeft` are fetched; with
them goes the number of calls. -/
def fetchMoreReplies (label : String) (commentId : String) (expected : Nat) :
    Nat → Nat → Option String → List DiscussionReply → Except FetchError (List DiscussionReply × Nat)
  | _, calls, none, replies => .ok (replies, calls)
  | 0, _, some _, _ => .error (capReached label)
  | pagesLeft + 1, calls, some cursor, replies => do
    let connection ← parseAnswer repliesResponseSchema (client.graphql calls .replies
      [("id", .string commentId), ("first", .number (.ofInt graphqlReplyPageSize)),
        ("after", .string cursor)])
    reconcile s!"{label} totalCount" expected connection.totalCount
    let next ← nextCursor connection.pageInfo label
    fetchMoreReplies label commentId expected pagesLeft (calls + 1) next
      (replies ++ connection.nodes)

def fetchReplies (calls : Nat) (comment : DiscussionComment) :
    Except FetchError (List DiscussionReply × Nat) := do
  let label := s!"replies to {discussionItemId ref comment.toDiscussionReply}"
  let cursor ← nextCursor comment.replies.pageInfo label
  let (replies, calls) ← fetchMoreReplies client label comment.id comment.replies.totalCount
    (maxPages - 1) calls cursor comment.replies.nodes
  reconcile s!"{label} count" comment.replies.totalCount replies.length
  return (replies, calls)

def discussionLabel : String := s!"discussion {threadRootId ref}"

def collectComment (state : List IngestMessage × Nat) (comment : DiscussionComment) :
    Except FetchError (List IngestMessage × Nat) := do
  let commentId := discussionItemId ref comment.toDiscussionReply
  let sink ← collect platform (discussionLabel ref) state.1
    (discussionItem ref comment.toDiscussionReply none)
  let (replies, calls) ← fetchReplies client ref state.2 comment
  let sink ← replies.foldlM (fun sink reply =>
    collect platform (discussionLabel ref) sink (discussionItem ref reply (some commentId))) sink
  return (sink, calls)

def discussionVariables (after : Option String) : List (String × Json) :=
  [("owner", .string ref.owner), ("name", .string ref.repo),
    ("number", .number (.ofInt ref.number)), ("first", .number (.ofInt graphqlPageSize)),
    ("replies", .number (.ofInt graphqlReplyPageSize)),
    ("after", match after with
      | some cursor => .string cursor
      | none => .null)]

def collectRoot (discussion : Discussion) (isFirst : Bool) (sink : List IngestMessage) :
    Except FetchError (List IngestMessage) :=
  if isFirst then
    collect platform (discussionLabel ref) sink {
      id := threadRootId ref, author := authorOf discussion.author, ts := discussion.createdAt
      body := discussion.body }
  else .ok sink

/-- The pages of the comments of a discussion, of which at most `pagesLeft` are fetched. Nothing is
expected before the first page. -/
def fetchDiscussionPages : Nat → Nat → Option String → Option Nat → Nat → List IngestMessage →
    Except FetchError (List IngestMessage)
  | 0, _, _, _, _, _ => .error (capReached s!"{discussionLabel ref} comments")
  | pagesLeft + 1, calls, cursor, expected, fetched, sink => do
    let discussion ← parseAnswer discussionResponseSchema
      (client.graphql calls .discussion (discussionVariables ref cursor))
    let total := discussion.comments.totalCount
    reconcile s!"{discussionLabel ref} comment totalCount" (expected.getD total) total
    let sink ← collectRoot platform ref discussion expected.isNone sink
    let (sink, calls) ← discussion.comments.nodes.foldlM (collectComment platform client ref)
      (sink, calls + 1)
    let fetched := fetched + discussion.comments.nodes.length
    let next ← nextCursor discussion.comments.pageInfo s!"{discussionLabel ref} comments"
    match next with
    | none =>
      reconcile s!"{discussionLabel ref} comment count" (expected.getD total) fetched
      return sink
    | some cursor =>
      fetchDiscussionPages pagesLeft calls (some cursor) (some (expected.getD total)) fetched sink

def fetchDiscussionThread : Except FetchError (List IngestMessage) :=
  fetchDiscussionPages platform client ref maxPages 0 none none 0 []

end Fetch

end Ingest
