import AtriumVerified.Auth.RoomAccess
import AtriumVerified.Lib.Postgres

/-!
# Certifying a session

The model of `apps/web/lib/certify-session.ts` and of the triggers on `sessions` that stand under
it: a person arms a session and is given a token, confirms with that token after the hold, or takes
the arm back. Each of the three is one transaction that holds the lock of the row. The clock is the
database's, in microseconds; it is read once when a session is armed, and twice, with a delay
between, when the certification is measured and stamped. `md5(artifact::text)` is a parameter.
-/

namespace Web.Certify

open Auth Postgres

/-! ## The row -/

inductive SessionStatus where
  | opened
  | settled
  | failed
  deriving DecidableEq, Repr

/-- `SessionArtifact`: the fields that are read one by one, and the text of the rest, which only the
digest reads. -/
structure SessionArtifact where
  branch : Option String
  commit : Option String
  rest : String := ""
  deriving DecidableEq

/-- The columns of `sessions` that a certification reads or writes. -/
structure Session where
  roomId : String
  status : SessionStatus
  artifact : Option SessionArtifact
  certifiedBy : Option String := none
  certifiedAt : Option Int := none
  certifiedHeldMs : Option Int := none
  certifyArmedBy : Option String := none
  certifyArmedAt : Option Int := none
  certifyArmNonce : Option Uuid := none
  certifyArmedArtifactDigest : Option String := none
  deriving DecidableEq

/-- `CERTIFY_REQUIRED_HOLD_MS`. -/
def requiredHoldMs : Int := 2000

/-- `CERTIFY_ARM_TTL_MS`. -/
def armTtlMs : Int := 120000

/-- `CERTIFY_RECEIPT_SLACK_MS`. -/
def receiptSlackMs : Int := 1000

/-- A text with something other than blanks in it. -/
def isFilled (text : Option String) : Bool :=
  match text with
  | none => false
  | some text => !(Js.trim text.toList).isEmpty

def isReviewableArtifact (artifact : Option SessionArtifact) : Bool :=
  match artifact with
  | none => false
  | some artifact => isFilled artifact.branch && isFilled artifact.commit

/-! ## The triggers -/

/-- `coalesce(trim(text), '') <> ''`: Postgres trims spaces only. -/
def isFilledSql (text : Option String) : Bool :=
  match text with
  | none => false
  | some text => text.toList.any (· != ' ')

/-- `sessions_certified_by_is_human` and `sessions_certify_armed_by_is_human`. -/
def namesHuman (users : String → Option String) (column : Option String) : Bool :=
  match column with
  | none => true
  | some userId => users userId == some "human"

/-- `sessions_certification_immutable`. -/
def certificationImmutable (old new : Session) : Bool :=
  old.certifiedBy == none ||
    (new.certifiedBy == old.certifiedBy && new.certifiedAt == old.certifiedAt &&
      new.certifiedHeldMs == old.certifiedHeldMs && new.certifyArmedBy == old.certifyArmedBy &&
      new.certifyArmedAt == old.certifyArmedAt && new.artifact == old.artifact)

/-- `sessions_certify_needs_artifact`. -/
def certifyNeedsArtifact (new : Session) : Bool :=
  new.certifiedBy == none ||
    match new.artifact with
    | none => false
    | some artifact => isFilledSql artifact.branch && isFilledSql artifact.commit

/-- `sessions_certify_receipt_complete` and `sessions_certify_receipt_consistent`. -/
def certifyReceipt (new : Session) : Bool :=
  new.certifiedBy == none ||
    match new.certifyArmedAt, new.certifiedAt, new.certifiedHeldMs with
    | some armedAt, some certifiedAt, some heldMs =>
      let elapsed := certifiedAt - armedAt
      decide (requiredHoldMs ≤ heldMs) && new.certifyArmedBy == new.certifiedBy &&
        new.status == .settled && decide (requiredHoldMs * 1000 ≤ elapsed) &&
        decide (heldMs * 1000 ≤ elapsed + receiptSlackMs * 1000) &&
        decide (elapsed - receiptSlackMs * 1000 ≤ heldMs * 1000)
    | _, _, _ => false

/-- Whether the triggers let an update of a row pass. -/
def triggersPass (users : String → Option String) (old new : Session) : Bool :=
  namesHuman users new.certifiedBy && namesHuman users new.certifyArmedBy &&
    certificationImmutable old new && certifyNeedsArtifact new && certifyReceipt new

/-! ## The database -/

/-- The tables that a certification reads, and the clock. -/
structure World where
  tables : Tables
  /-- `users.principal_kind` by `id`. -/
  users : String → Option String
  sessions : String → Option Session
  clock : Int

def World.later (w : World) (delay : Nat) : World := { w with clock := w.clock + delay }

def World.write (w : World) (sessionId : String) (session : Session) : World :=
  { w with sessions := fun id => if id = sessionId then some session else w.sessions id }

/-- An `UPDATE` of one row: `none` where a trigger raises, otherwise the tables afterwards and the
row that was updated, if one matched. -/
def World.update (w : World) (sessionId : String) (isMatch : Session → Bool)
    (set : Session → Session) : Option (World × Option Session) :=
  match w.sessions sessionId with
  | none => some (w, none)
  | some old =>
    if isMatch old then
      if triggersPass w.users old (set old) then
        some (w.write sessionId (set old), some (set old))
      else none
    else some (w, none)

/-! ## The three transactions -/

inductive CertifyRefusal where
  | notHuman
  | notInRoom
  | noSuchSession
  | notSettled
  | alreadyCertified
  | noArtifact
  | staleReview
  | notArmed
  | heldTooShort
  | armExpired
  | artifactChanged
  deriving DecidableEq, Repr

structure ArmInput where
  viewerId : String
  sessionId : String
  authorizedRoomId : String
  reviewedDigest : String

structure ConfirmInput where
  viewerId : String
  sessionId : String
  authorizedRoomId : String
  attemptToken : String

structure DisarmInput where
  viewerId : String
  sessionId : String
  attemptToken : String

/-- What a transaction answers: `raised` is an error of the database, which undoes it. -/
inductive Outcome where
  | armed (attemptToken : String)
  | ok
  | refused (reason : CertifyRefusal)
  | raised
  deriving DecidableEq, Repr

def viewerMayCertify (w : World) (viewerId authorizedRoomId : String) : Option CertifyRefusal :=
  if parsePrincipalKind (w.users viewerId) ≠ some .human then some .notHuman
  else
    match loadRoomMembershipRow w.tables authorizedRoomId viewerId with
    | none => some .notInRoom
    | some _ => none

def refuseIf (condition : Prop) [Decidable condition] (reason : CertifyRefusal) :
    Except CertifyRefusal Unit :=
  if condition then .error reason else .ok ()

/-- The checks that arming and confirming begin with: the session that the viewer may certify. -/
def certifiable (w : World) (viewerId sessionId authorizedRoomId : String) :
    Except CertifyRefusal Session :=
  match viewerMayCertify w viewerId authorizedRoomId with
  | some reason => .error reason
  | none =>
    match w.sessions sessionId with
    | none => .error .noSuchSession
    | some session => do
      refuseIf (session.roomId ≠ authorizedRoomId) .notInRoom
      refuseIf (session.status ≠ .settled) .notSettled
      refuseIf (session.certifiedBy ≠ none) .alreadyCertified
      refuseIf (isReviewableArtifact session.artifact = false) .noArtifact
      pure session

/-- A settled row without a certification, which is what both updates of a certification match. -/
def isUncertified (session : Session) : Bool :=
  session.status == .settled && session.certifiedBy == none

variable (digest : SessionArtifact → String)

/-- What the update of `armCertification` sets. -/
def armWrite (viewerId : String) (now : Int) (nonce : Uuid) (session : Session) : Session :=
  { session with
    certifyArmedBy := some viewerId
    certifyArmedAt := some now
    certifyArmNonce := some nonce
    certifyArmedArtifactDigest := session.artifact.map digest }

/-- The checks of `armCertification`. -/
def armable (w : World) (input : ArmInput) : Except CertifyRefusal Unit := do
  let session ← certifiable w input.viewerId input.sessionId input.authorizedRoomId
  refuseIf (session.artifact.map digest ≠ some input.reviewedDigest) .staleReview

/-- `armCertification`, where `gen_random_uuid()` makes `nonce`. -/
def armCertification (w : World) (input : ArmInput) (nonce : Uuid) : World × Outcome :=
  match armable digest w input with
  | .error reason => (w, .refused reason)
  | .ok () =>
    match w.update input.sessionId isUncertified (armWrite digest input.viewerId w.clock nonce) with
    | none => (w, .raised)
    | some (w, armed) =>
      match armed.bind Session.certifyArmNonce with
      | none => (w, .refused .notArmed)
      | some nonce => (w, .armed (uuidText nonce))

/-- `clock_timestamp() - certify_armed_at` in microseconds, when the pending arm is the viewer's and
carries the token. -/
def heldFor (session : Session) (input : ConfirmInput) (now : Int) : Option Int :=
  match session.certifyArmedBy, session.certifyArmNonce, session.certifyArmedAt with
  | some armedBy, some nonce, some armedAt =>
    if armedBy ≠ input.viewerId ∨ uuidText nonce ≠ input.attemptToken then none
    else some (now - armedAt)
  | _, _, _ => none

/-- What the update of `certifySession` sets. -/
def certifyWrite (viewerId : String) (now held : Int) (session : Session) : Session :=
  { session with
    certifiedBy := some viewerId
    certifiedAt := some now
    certifiedHeldMs := some ((held + 500) / 1000)
    certifyArmNonce := none
    certifyArmedArtifactDigest := none }

/-- The checks of `certifySession`: how long the control was held. -/
def confirmable (w : World) (input : ConfirmInput) : Except CertifyRefusal Int := do
  let session ← certifiable w input.viewerId input.sessionId input.authorizedRoomId
  match heldFor session input w.clock with
  | none => .error .notArmed
  | some held =>
    refuseIf (armTtlMs * 1000 < held) .armExpired
    refuseIf (held < requiredHoldMs * 1000) .heldTooShort
    refuseIf (session.certifyArmedArtifactDigest ≠ session.artifact.map digest) .artifactChanged
    pure held

/-- `certifySession`: the clock is read by the checks and, after a delay, by the update. -/
def certifySession (w : World) (input : ConfirmInput) (delay : Nat) : World × Outcome :=
  match confirmable digest w input with
  | .error reason => (w.later delay, .refused reason)
  | .ok held =>
    match (w.later delay).update input.sessionId isUncertified
        (certifyWrite input.viewerId (w.later delay).clock held) with
    | none => (w.later delay, .raised)
    | some (w, none) => (w, .refused .alreadyCertified)
    | some (w, some _) => (w, .ok)

/-- What the update of `disarmCertification` matches. -/
def disarmMatch (viewerId : String) (nonce : Uuid) (session : Session) : Bool :=
  session.certifyArmedBy == some viewerId && session.certifiedBy == none &&
    session.certifyArmNonce == some nonce

/-- What the update of `disarmCertification` sets. -/
def disarmWrite (session : Session) : Session :=
  { session with
    certifyArmedAt := none
    certifyArmedBy := none
    certifyArmNonce := none
    certifyArmedArtifactDigest := none }

/-- `disarmCertification`. The token is compared as a `uuid`, so a text that is none raises. -/
def disarmCertification (w : World) (input : DisarmInput) : World × Outcome :=
  match uuid input.attemptToken with
  | none => (w, .raised)
  | some nonce =>
    match w.update input.sessionId (disarmMatch input.viewerId nonce) disarmWrite with
    | none => (w, .raised)
    | some (w, _) => (w, .ok)

/-! ## Everything that happens -/

/-- What happens to the tables: the three transactions, and what others do in between. -/
inductive Event where
  | arm (input : ArmInput) (nonce : Uuid)
  | certify (input : ConfirmInput) (delay : Nat)
  | disarm (input : DisarmInput)
  /-- The columns of a row that are not the certification's are updated. -/
  | edit (sessionId roomId : String) (status : SessionStatus) (artifact : Option SessionArtifact)
  /-- Rooms, room memberships and workspace members change. -/
  | access (tables : Tables)
  /-- Accounts change. -/
  | accounts (users : String → Option String)
  /-- An account is deleted; the arms that name it lose the name. -/
  | forget (userId : String)
  /-- Time passes. -/
  | tick (delay : Nat)

/-- The row after the account that armed it is deleted. A certified row keeps its names. -/
def Session.forget (userId : String) (session : Session) : Session :=
  if session.certifiedBy = none ∧ session.certifyArmedBy = some userId then
    { session with certifyArmedBy := none }
  else session

def handle (w : World) : Event → World × Option Outcome
  | .arm input nonce => (armCertification digest w input nonce).map id some
  | .certify input delay => (certifySession digest w input delay).map id some
  | .disarm input => (disarmCertification w input).map id some
  | .edit sessionId roomId status artifact =>
    match w.update sessionId (fun _ => true) fun old => { old with roomId, status, artifact } with
    | none => (w, none)
    | some (w, _) => (w, none)
  | .access tables => ({ w with tables }, none)
  | .accounts users => ({ w with users }, none)
  | .forget userId =>
    ({ w with
      users := fun id => if id = userId then none else w.users id
      sessions := fun id => (w.sessions id).map (Session.forget userId) }, none)
  | .tick delay => (w.later delay, none)

def after (w : World) (events : List Event) : World :=
  events.foldl (fun w event => (handle digest w event).1) w

end Web.Certify
