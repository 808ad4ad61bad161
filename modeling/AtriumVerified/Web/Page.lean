import AtriumVerified.Web.Client
import AtriumVerified.Web.StoredJournal

/-!
# A page over its reloads

A realtime client that keeps its rooms in the local storage, with the previews it stored. Loading the
page again makes a new client over the same records.
-/

namespace Web

/-- A client with the journal in the local storage. -/
def storedOptions (userId : String) (browsers : Nat → Browser) (maxEvents catchUpPageSize : Option Nat)
    (maxStalledCatchups : Nat) (reconnect : Bool) : ClientOptions CalledJournal :=
  ⟨userId, localStorageJournal browsers maxEvents, catchUpPageSize, maxStalledCatchups, reconnect⟩

/-- The frame that a step stores as a preview: neither the wall nor the floor refuses it. -/
def Client.previewed {σ : Type} (options : ClientOptions σ) (client : Client σ) :
    Client.Step → Option ProgressFrame
  | .frame (.progress frame) _ =>
    let room := (client.view options frame.roomId).1
    if frame.sessionId ∈ room.settledSessions then none
    else if staleProgress room.progressFloor frame then none
    else some frame
  | _ => none

/-- A page: its client, and the previews that were stored since the room of each was opened, or before. -/
structure Page where
  client : Client CalledJournal
  current : List ProgressFrame
  /-- The previews of rooms that were left, or of pages that were loaded again, since. -/
  former : List ProgressFrame

def Page.initial : Page := ⟨.initial .initial, [], []⟩

inductive PageStep where
  | client (taken : Client.Step)
  | reload

def Client.Step.closes (taken : Client.Step) (frame : ProgressFrame) : Bool :=
  match taken with
  | .leave roomId => frame.roomId == roomId
  | _ => false

namespace Page

variable (page : Page) (options : ClientOptions CalledJournal)

def step : PageStep → Page
  | .client taken =>
    { client := page.client.step options taken
      current := (page.current ++ (page.client.previewed options taken).toList).filter
        fun frame => !taken.closes frame
      former := page.former ++ page.current.filter taken.closes }
  | .reload =>
    { client := .initial page.client.store.reload
      current := []
      former := page.former ++ page.current }

def stores : PageStep → List ProgressFrame
  | .client taken => (page.client.previewed options taken).toList
  | .reload => []

def run (steps : List PageStep) : Page := steps.foldl (step · options) page

/-- The previews that a run stores, in the order in which they are stored. -/
def previews : Page → List PageStep → List ProgressFrame
  | _, [] => []
  | page, taken :: steps => page.stores options taken ++ previews (page.step options taken) steps

end Page

end Web
