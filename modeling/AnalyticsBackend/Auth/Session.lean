import AnalyticsBackend.Lib.Collection
import AnalyticsBackend.Lib.Interleaving

/-!
# Sessions

`modules/iam/auth/session.service.js` and the refresh of `auth.service.js`, over the conditional
updates of `repositories/session.repository.js`: a login opens a session, a refresh replaces the
session by a successor in the same family, and the mass updates end or restrict whatever is
active when they run. The events of the audit trail and the device of a session are left out.
-/

namespace AnalyticsBackend.Auth
open Lib System Collection

/-! ## Stored sessions -/

inductive Portal where
  | user
  | admin
  deriving DecidableEq, Repr

/-- `ACTOR_TYPES`. -/
inductive ActorType where
  | user
  | admin
  | service
  deriving DecidableEq, Repr

/-- `SESSION_STATUSES`. -/
inductive SessionStatus where
  | active
  | revoked
  | expired
  deriving DecidableEq, Repr

/-- `SESSION_RESTRICTIONS`. -/
inductive Restriction where
  | mfaEnrollment
  deriving DecidableEq, Repr

/-- `models/Session.js`. -/
structure Session where
  sessionId : String
  actorId : String
  actorType : ActorType
  tenantId : Option String
  impersonatedBy : Option String
  refreshTokenHash : String
  issuedAt : Int
  authenticatedAt : Option Int
  familyId : Option String
  lastUsedAt : Int
  expiresAt : Int
  status : SessionStatus
  revokedAt : Option Int
  revokedReason : Option String
  replacedBy : Option String
  restriction : Option Restriction
  stepUpAt : Option Int
  deriving DecidableEq, Repr

/-- `sessionPortal`. -/
def Session.portal (s : Session) : Portal :=
  if s.actorType = .admin then .admin else .user

/-- `session.familyId ?? session.sessionId`. -/
def Session.family (s : Session) : String := s.familyId.getD s.sessionId

def Session.isActive (s : Session) : Bool := s.status = .active

/-- The parameters of the module and its configuration, the lifetimes in seconds. -/
structure SessionRuntime where
  hashRefreshToken : String → String
  refreshTokenTtl : Int
  sessionAbsoluteTtl : Int
  refreshReuseGraceMs : Int

/-- `familyAuthenticatedAt`; `issuedAt` is always stored. -/
def familyAuthenticatedAt (s : Session) : Int := s.authenticatedAt.getD s.issuedAt

def absoluteExpiryFor (rt : SessionRuntime) (authenticatedAt : Int) : Int :=
  authenticatedAt + rt.sessionAbsoluteTtl * 1000

def isPastAbsoluteLifetime (rt : SessionRuntime) (s : Session) (now : Int) : Bool :=
  absoluteExpiryFor rt (familyAuthenticatedAt s) ≤ now

def sessionExpiryFromNow (rt : SessionRuntime) (now : Int) : Int := now + rt.refreshTokenTtl * 1000

def cappedExpiry (rt : SessionRuntime) (authenticatedAt now : Int) : Int :=
  min (sessionExpiryFromNow rt now) (absoluteExpiryFor rt authenticatedAt)

/-! ## Errors and answers -/

/-- The `ERROR_CODES` of a session; `internal` is a plain `Error`. -/
inductive SessionErrorCode where
  | sessionCookieMissing
  | sessionExpired
  | sessionRevoked
  | internal
  deriving DecidableEq, Repr

structure SessionError where
  statusCode : Nat
  code : SessionErrorCode
  message : String
  deriving DecidableEq, Repr

/-- `sessionError`. -/
def sessionError (message : String) (code : SessionErrorCode) : SessionError :=
  { statusCode := 401, code, message }

def sessionExpired : SessionError := sessionError "Session expired" .sessionExpired

def sessionRevoked : SessionError := sessionError "Session revoked" .sessionRevoked

/-- What `signAccessToken` signs. -/
structure AccessToken where
  portal : Portal
  actorId : String
  sessionId : String
  tenantId : Option String
  deriving DecidableEq, Repr

/-- The answer of a login and of a refresh. -/
structure AuthResult where
  accessToken : AccessToken
  refreshToken : Option String
  refreshExpiresAt : Int
  sessionId : String
  mfaEnrollmentRequired : Bool
  deriving DecidableEq, Repr

/-! ## The store -/

/-- `USER_STATUSES` and `ADMIN_STATUSES`. -/
inductive AccountStatus where
  | invited
  | unverified
  | pending
  | active
  | suspended
  | locked
  deriving DecidableEq, Repr

/-- What a refresh reads of an account. -/
structure Account where
  status : AccountStatus
  mfaEnabled : Bool
  tenantScope : Option String
  deriving DecidableEq, Repr

/-- The sessions, and what decides about them: the accounts, whether a tenant is there and active,
and whom a policy requires to use a second factor. `drawnIds` and `drawnHashes` are the session ids
and the token hashes drawn so far and `handedOut` the hashes of the refresh tokens that were given
to a client; no code reads these three. -/
structure SessionDb where
  clock : Int
  sessions : List Session
  accounts : Portal → String → Option Account
  tenantActive : String → Bool
  mfaRequired : Portal → String → Bool
  drawnIds : List String
  drawnHashes : List String
  handedOut : List String

/-- The label of an atomic step. -/
inductive SessionLabel where
  | look
  | find (refreshTokenHash : String)
  | create (session : Session)
  | deliver (session : Session)
  | markRotated (session next : Session)
  | revoke (sessionId : String)
  | markExpired (sessionId : String)
  | revokeAll (actorId : String)
  | restrictAll (actorId : String) (restriction : Option Restriction)
  | restrictLogin (sessionId familyId : String) (restriction : Option Restriction)
  | revokeRestricted (actorId : String)
  | account (portal : Portal) (actorId : String)
  deriving DecidableEq, Repr

abbrev SessionProg := Prog SessionLabel SessionDb

def look {A : Type} (f : SessionDb → A) : SessionProg A := Prog.read .look f

def activeWith (sessionId : String) (s : Session) : Bool := s.sessionId = sessionId && s.isActive

/-- `findOneAndUpdate`. -/
def SessionDb.updateOne (p : Session → Bool) (f : Session → Session) (db : SessionDb) : SessionDb :=
  { db with sessions := updateFirst p f db.sessions }

/-- `updateMany`. -/
def SessionDb.updateMany (p : Session → Bool) (f : Session → Session) (db : SessionDb) : SessionDb :=
  { db with sessions := db.sessions.map fun s => if p s then f s else s }

/-- `$set: { status: 'revoked', revokedAt, revokedReason }`. -/
def Session.ended (now : Int) (reason : Option String) (s : Session) : Session :=
  { s with status := .revoked, revokedAt := some now, revokedReason := reason }

/-- `$set` of `markRotated`. -/
def Session.rotated (now : Int) (successorId : String) (s : Session) : Session :=
  { s.ended now (some "rotated") with replacedBy := some successorId }

/-- `findById`. -/
def SessionDb.findById (sessionId : String) (db : SessionDb) : Option Session :=
  db.sessions.find? fun s => s.sessionId = sessionId

/-- `findByRefreshTokenHash`. -/
def findByRefreshTokenHash (refreshTokenHash : String) : SessionProg (Option Session) :=
  Prog.read (.find refreshTokenHash) fun db =>
    db.sessions.find? fun s => s.refreshTokenHash = refreshTokenHash

/-- `revoke` of the repository: the session that was ended. -/
def revokeSession (sessionId : String) (reason : Option String) : SessionProg (Option Session) := do
  let now ← look SessionDb.clock
  Prog.update (.revoke sessionId) (SessionDb.updateOne (activeWith sessionId) (·.ended now reason))
    fun db => (db.sessions.find? (activeWith sessionId)).map (·.ended now reason)

/-- `markRotated`: whether this request is the one that ends the session. -/
def markRotated (session next : Session) : SessionProg Bool := do
  let now ← look SessionDb.clock
  Prog.update (.markRotated session next)
    (SessionDb.updateOne (activeWith session.sessionId) (·.rotated now next.sessionId))
    fun db => (db.sessions.find? (activeWith session.sessionId)).isSome

/-- `markExpired`. -/
def markExpired (sessionId : String) : SessionProg Unit :=
  Prog.update (.markExpired sessionId)
    (SessionDb.updateOne (activeWith sessionId) fun s => { s with status := .expired }) fun _ => ()

def activeOf (actorId : String) (s : Session) : Bool := s.actorId = actorId && s.isActive

/-- `revokeAllForActor`. -/
def revokeAllForActor (actorId : String) (reason : String) : SessionProg Nat := do
  let now ← look SessionDb.clock
  Prog.update (.revokeAll actorId)
    (SessionDb.updateMany (activeOf actorId) (·.ended now (some reason)))
    fun db => db.sessions.countP (activeOf actorId)

/-- `restrictAllForActor`. -/
def restrictAllForActor (actorId : String) (restriction : Option Restriction) :
    SessionProg Nat :=
  Prog.update (.restrictAll actorId restriction)
    (SessionDb.updateMany (activeOf actorId) fun s => { s with restriction })
    fun db => db.sessions.countP (activeOf actorId)

def activeInLogin (sessionId familyId : String) (s : Session) : Bool :=
  (s.sessionId = sessionId || s.familyId = some familyId) && s.isActive

/-- `setRestrictionForLogin`. -/
def setRestrictionForLogin (sessionId : String) (restriction : Option Restriction) :
    SessionProg Nat := do
  let session ← look (SessionDb.findById sessionId)
  match session with
  | none => return 0
  | some session =>
      Prog.update (.restrictLogin sessionId session.family restriction)
        (SessionDb.updateMany (activeInLogin sessionId session.family) fun s =>
          { s with restriction })
        fun db => db.sessions.countP (activeInLogin sessionId session.family)

/-- `revokeRestrictedForActor`. -/
def revokeRestrictedForActor (actorId : String) (reason : String) : SessionProg Nat := do
  let now ← look SessionDb.clock
  Prog.update (.revokeRestricted actorId)
    (SessionDb.updateMany (fun s => activeOf actorId s && s.restriction.isSome)
      (·.ended now (some reason)))
    fun db => db.sessions.countP fun s => activeOf actorId s && s.restriction.isSome

/-! ## The service -/

/-- The random values that a request draws: a session id and a refresh token. -/
structure Draw where
  sessionId : String
  refreshToken : String
  deriving DecidableEq, Repr

/-- The parameters of `create` that decide something. -/
structure NewSession where
  actorId : String
  actorType : ActorType
  tenantId : Option String := none
  impersonatedBy : Option String := none
  authenticatedAt : Option Int := none
  familyId : Option String := none
  expiresAt : Option Int := none
  restriction : Option Restriction := none
  stepUpAt : Option Int := none
  deriving DecidableEq, Repr

/-- The document that `create` stores. -/
def NewSession.document (rt : SessionRuntime) (draw : Draw) (p : NewSession) (now : Int) : Session :=
  let signedInAt := p.authenticatedAt.getD now
  { sessionId := draw.sessionId
    familyId := some (p.familyId.getD draw.sessionId)
    authenticatedAt := some signedInAt
    actorId := p.actorId
    actorType := p.actorType
    tenantId := p.tenantId
    impersonatedBy := p.impersonatedBy
    refreshTokenHash := rt.hashRefreshToken draw.refreshToken
    issuedAt := now
    lastUsedAt := now
    expiresAt :=
      match p.expiresAt with
      | some expiresAt => min expiresAt (cappedExpiry rt signedInAt now)
      | none => cappedExpiry rt signedInAt now
    status := .active
    revokedAt := none
    revokedReason := none
    replacedBy := none
    restriction := p.restriction
    stepUpAt := p.stepUpAt }

def SessionDb.insert (s : Session) (db : SessionDb) : SessionDb :=
  { db with
    sessions := s :: db.sessions
    drawnIds := s.sessionId :: db.drawnIds
    drawnHashes := s.refreshTokenHash :: db.drawnHashes }

/-- `create`. One reading of the clock stands for the several of the source. -/
def create (rt : SessionRuntime) (draw : Draw) (p : NewSession) :
    SessionProg (Except SessionError Session) :=
  if p.actorId.isEmpty || draw.refreshToken.isEmpty then
    return .error
      { statusCode := 500, code := .internal
        message := "session.create requires actorId, actorType and a refresh token" }
  else do
    let now ← look SessionDb.clock
    let session := p.document rt draw now
    Prog.update (.create session) (SessionDb.insert session) fun _ => .ok session

/-- The answer with a refresh token is sent to the client. -/
def deliver (session : Session) (result : AuthResult) :
    SessionProg (Except SessionError AuthResult) :=
  Prog.update (.deliver session)
    (fun db => { db with handedOut := session.refreshTokenHash :: db.handedOut })
    fun _ => .ok result

def successorOf (session : Session) (restriction : Option Restriction) : NewSession where
  actorId := session.actorId
  actorType := session.actorType
  tenantId := session.tenantId
  impersonatedBy := session.impersonatedBy
  authenticatedAt := some (familyAuthenticatedAt session)
  familyId := some session.family
  restriction := restriction.or session.restriction
  stepUpAt := session.stepUpAt

/-- `rotate`: the successor, or `none` when another request ended the session first. -/
def rotate (rt : SessionRuntime) (draw : Draw) (session : Session)
    (restriction : Option Restriction) : SessionProg (Except SessionError (Option Session)) :=
  if session.impersonatedBy.isSome then
    return .error (sessionError "Support sessions cannot be refreshed" .sessionExpired)
  else
    (create rt draw (successorOf session restriction)).andThen fun next => do
      let claimed ← markRotated session next
      if claimed then return .ok (some next)
      else do
        let _ ← revokeSession next.sessionId (some "rotation_superseded")
        return .ok none

def inGrace (withinMs rotatedAt : Option Int) (now : Int) : Bool :=
  match withinMs, rotatedAt with
  | none, _ => true
  | some grace, some rotatedAt => 0 < grace && now - rotatedAt ≤ grace
  | some _, none => false

/-- `liveSuccessorOf`: the live session that directly replaced one that was rotated, within the
grace when one is given. -/
def liveSuccessorOf (predecessor : Option Session) (withinMs : Option Int) :
    SessionProg (Option Session) :=
  match predecessor with
  | none => return none
  | some predecessor =>
      match predecessor.revokedReason, predecessor.replacedBy with
      | some "rotated", some successorId => do
          let now ← look SessionDb.clock
          if !inGrace withinMs predecessor.revokedAt now then return none
          else do
            let successor ← look (SessionDb.findById successorId)
            match successor with
            | none => return none
            | some successor => do
                let now ← look SessionDb.clock
                if successor.isActive && successor.actorId = predecessor.actorId &&
                    now < successor.expiresAt then
                  return some successor
                else return none
      | _, _ => return none

/-- `joinRotation`: an access token for the live successor, and no refresh token. -/
def joinRotation (portal : Portal) (account : Account) (session successor : Session) : AuthResult where
  accessToken :=
    { portal, actorId := session.actorId, sessionId := successor.sessionId
      tenantId := if portal = .user then session.tenantId else account.tenantScope }
  refreshToken := none
  refreshExpiresAt := successor.expiresAt
  sessionId := successor.sessionId
  mfaEnrollmentRequired := successor.restriction = some .mfaEnrollment

def newAuthResult (portal : Portal) (tenantId : Option String) (draw : Draw) (session : Session) :
    AuthResult where
  accessToken :=
    { portal, actorId := session.actorId, sessionId := session.sessionId, tenantId }
  refreshToken := some draw.refreshToken
  refreshExpiresAt := session.expiresAt
  sessionId := session.sessionId
  mfaEnrollmentRequired := session.restriction = some .mfaEnrollment

/-! ## Refresh -/

structure RefreshRequest where
  refreshToken : String
  portal : Option Portal
  draw : Draw
  deriving DecidableEq, Repr

/-- Whether the second-factor policy restricts the successor from now on. -/
def tightens (portal : Portal) (account : Account) (session : Session) :
    SessionProg (Option Restriction) :=
  if !account.mfaEnabled && session.restriction.isNone &&
      (portal = .admin || session.impersonatedBy.isNone) then do
    let required ← look fun db => db.mfaRequired portal session.actorId
    return if required then some .mfaEnrollment else none
  else return none

/-- The rotation of a refresh: the successor's tokens, or an access token for the successor of
the request that rotated the session first. -/
def rotateAndDeliver (rt : SessionRuntime) (request : RefreshRequest) (account : Account)
    (session : Session) : SessionProg (Except SessionError AuthResult) := do
  let tighten ← tightens session.portal account session
  (rotate rt request.draw session tighten).andThen fun next =>
    match next with
    | some next =>
        deliver next (newAuthResult session.portal
          (if session.portal = .user then session.tenantId else account.tenantScope) request.draw next)
    | none => do
        let predecessor ← look (SessionDb.findById session.sessionId)
        let successor ← liveSuccessorOf predecessor none
        match successor with
        | none => return .error sessionExpired
        | some successor => return .ok (joinRotation session.portal account session successor)

def revokeFamily (session : Session) (reason : String) :
    SessionProg (Except SessionError AuthResult) := do
  let _ ← revokeAllForActor session.actorId reason
  return .error sessionRevoked

/-- A refusal of a session that has outlived its time. -/
def expire (session : Session) : SessionProg (Except SessionError AuthResult) := do
  markExpired session.sessionId
  return .error sessionExpired

def refreshAccount (rt : SessionRuntime) (request : RefreshRequest) (session : Session)
    (joined : Option Session) : SessionProg (Except SessionError AuthResult) := do
  let account ← look fun db => db.accounts session.portal session.actorId
  match account with
  | none => revokeFamily session "actor_invalid"
  | some account =>
      if account.status ≠ .active then revokeFamily session "actor_invalid"
      else do
        let tenantActive ← look fun db =>
          session.portal = .admin || session.tenantId.all db.tenantActive
        if !tenantActive then revokeFamily session "tenant_inactive"
        else
          match joined with
          | some successor => return .ok (joinRotation session.portal account session successor)
          | none => rotateAndDeliver rt request account session

def refreshCurrent (rt : SessionRuntime) (request : RefreshRequest) (session : Session)
    (joined : Option Session) : SessionProg (Except SessionError AuthResult) := do
  let current := joined.getD session
  let now ← look SessionDb.clock
  if current.expiresAt ≤ now then expire current
  else do
    let now ← look SessionDb.clock
    if isPastAbsoluteLifetime rt current now then expire current
    else refreshAccount rt request session joined

def refresh (rt : SessionRuntime) (request : RefreshRequest) :
    SessionProg (Except SessionError AuthResult) :=
  if request.refreshToken.isEmpty then
    return .error (sessionError "Session expired" .sessionCookieMissing)
  else do
    let session ← findByRefreshTokenHash (rt.hashRefreshToken request.refreshToken)
    match session with
    | none => return .error sessionExpired
    | some session =>
        if request.portal.any (· ≠ session.portal) then return .error sessionExpired
        else if session.isActive then refreshCurrent rt request session none
        else do
          let joined ← liveSuccessorOf (some session) (some rt.refreshReuseGraceMs)
          match joined with
          | none => revokeFamily session "replay_detected"
          | some joined => refreshCurrent rt request session (some joined)

/-! ## The other operations -/

/-- A login that has proved who it is. -/
structure LoginRequest where
  portal : Portal
  actorId : String
  tenantId : Option String
  tenantScope : Option String
  restriction : Option Restriction
  draw : Draw
  deriving DecidableEq, Repr

/-- `startSession`. -/
def startSession (rt : SessionRuntime) (request : LoginRequest) :
    SessionProg (Except SessionError AuthResult) :=
  let tenantId := if request.portal = .user then request.tenantId else none
  (create rt request.draw
    { actorId := request.actorId
      actorType := if request.portal = .user then .user else .admin
      tenantId, restriction := request.restriction }).andThen fun session =>
    deliver session (newAuthResult request.portal
      (if request.portal = .user then request.tenantId else request.tenantScope)
      request.draw session)

/-- `openSupportSession`: a session for a support admin, whose refresh token nobody gets. -/
structure SupportRequest where
  actorId : String
  tenantId : Option String
  adminId : String
  expiresAt : Int
  recorded : Bool
  draw : Draw
  deriving DecidableEq, Repr

def openSupportSession (rt : SessionRuntime) (request : SupportRequest) :
    SessionProg (Except SessionError AuthResult) :=
  (create rt request.draw
    { actorId := request.actorId, actorType := .user, tenantId := request.tenantId
      impersonatedBy := some request.adminId, expiresAt := some request.expiresAt }).andThen
    fun session => do
      if request.recorded then
        return .ok
          { accessToken :=
              { portal := .user, actorId := request.actorId, sessionId := session.sessionId
                tenantId := request.tenantId }
            refreshToken := none, refreshExpiresAt := session.expiresAt
            sessionId := session.sessionId, mfaEnrollmentRequired := false }
      else do
        let _ ← revokeSession session.sessionId (some "impersonation_failed")
        return .error { statusCode := 500, code := .internal, message := "impersonation failed" }

/-- Whether a write of `mfaEnabled` finds its account; only the one of `disable` for an admin does
not ask for the value before. -/
def writesMfa (portal : Portal) (enabled : Bool) (account : Account) : Bool :=
  (portal = .admin && !enabled) || account.mfaEnabled != enabled

/-- `disableMfa`, `updateMfa` and `enableMfa`. -/
def setMfaEnabled (portal : Portal) (actorId : String) (enabled : Bool) : SessionProg Bool :=
  Prog.update (.account portal actorId)
    (fun db =>
      if (db.accounts portal actorId).any (writesMfa portal enabled) then
        { db with
          accounts := Function.update db.accounts portal
            (Function.update (db.accounts portal) actorId
              ((db.accounts portal actorId).map fun a => { a with mfaEnabled := enabled })) }
      else db)
    fun db => (db.accounts portal actorId).any (writesMfa portal enabled)

/-- What `disable` does once the password and the second factor are proved: `enrollmentRequired`,
or nothing when the account was no longer enrolled. -/
def mfaDisabled (portal : Portal) (actorId : String) : SessionProg (Option Bool) := do
  let updated ← setMfaEnabled portal actorId false
  if !updated then return none
  else do
    let required ← look fun db => db.mfaRequired portal actorId
    if required then do
      let _ ← restrictAllForActor actorId (some .mfaEnrollment)
      return some true
    else return some false

/-- What `verifyEnrollment` does once the code is proved: whether the enrolment was confirmed. -/
def mfaEnrolled (portal : Portal) (actorId : String) (sessionId : Option String) :
    SessionProg Bool := do
  let updated ← setMfaEnabled portal actorId true
  if !updated then return false
  else do
    match sessionId with
    | some sessionId => do
        let _ ← setRestrictionForLogin sessionId none
        let _ ← revokeRestrictedForActor actorId "mfa_enrolled_elsewhere"
        return true
    | none => do
        let _ ← revokeRestrictedForActor actorId "mfa_enrolled_elsewhere"
        return true

/-- The requests that read or write sessions. -/
inductive SessionRequest where
  | login (request : LoginRequest)
  | support (request : SupportRequest)
  | refresh (request : RefreshRequest)
  | revoke (sessionId : String) (reason : Option String)
  | revokeAllForActor (actorId reason : String)
  | restrictAllForActor (actorId : String) (restriction : Option Restriction)
  | setRestrictionForLogin (sessionId : String) (restriction : Option Restriction)
  | mfaDisabled (portal : Portal) (actorId : String)
  | mfaEnrolled (portal : Portal) (actorId : String) (sessionId : Option String)
  deriving DecidableEq, Repr

/-- What a request answers. -/
inductive SessionAnswer where
  | auth (result : Except SessionError AuthResult)
  | session (done : Bool)
  | count (n : Nat)
  | mfa (enrollmentRequired : Option Bool)
  deriving DecidableEq, Repr

def SessionRequest.program (rt : SessionRuntime) : SessionRequest → SessionProg SessionAnswer
  | .login request => do return .auth (← startSession rt request)
  | .support request => do return .auth (← openSupportSession rt request)
  | .refresh request => do return .auth (← Auth.refresh rt request)
  | .revoke sessionId reason => do return .session (← revokeSession sessionId reason).isSome
  | .revokeAllForActor actorId reason => do return .count (← Auth.revokeAllForActor actorId reason)
  | .restrictAllForActor actorId restriction => do
      return .count (← Auth.restrictAllForActor actorId restriction)
  | .setRestrictionForLogin sessionId restriction => do
      return .count (← Auth.setRestrictionForLogin sessionId restriction)
  | .mfaDisabled portal actorId => do return .mfa (← Auth.mfaDisabled portal actorId)
  | .mfaEnrolled portal actorId sessionId => do
      return .session (← Auth.mfaEnrolled portal actorId sessionId)

/-- What random values and secret tokens give: nothing is drawn twice, and a token that a stored
session has is presented only after it was handed out. -/
def Genuine : SessionLabel → SessionDb → SessionDb → Prop
  | .find refreshTokenHash, db, _ =>
      (∃ s ∈ db.sessions, s.refreshTokenHash = refreshTokenHash) → refreshTokenHash ∈ db.handedOut
  | .create session, db, _ =>
      session.sessionId ∉ db.drawnIds ∧ session.refreshTokenHash ∉ db.drawnHashes
  | _, _, _ => True

instance Genuine.decidable (label : SessionLabel) (db db' : SessionDb) :
    Decidable (Genuine label db db') :=
  match label with
  | .find refreshTokenHash => inferInstanceAs (Decidable
      ((∃ s ∈ db.sessions, s.refreshTokenHash = refreshTokenHash) →
        refreshTokenHash ∈ db.handedOut))
  | .create session => inferInstanceAs (Decidable
      (session.sessionId ∉ db.drawnIds ∧ session.refreshTokenHash ∉ db.drawnHashes))
  | .look | .deliver _ | .markRotated _ _ | .revoke _ | .markExpired _ | .revokeAll _
  | .restrictAll _ _ | .restrictLogin _ _ _ | .revokeRestricted _ | .account _ _ => isTrue trivial

/-- Any number of the requests that `admits` lets in. From outside, the clock goes on, the TTL
index removes sessions, and accounts, tenants and policies change. -/
def sessionSystem (rt : SessionRuntime) (admits : SessionRequest → Prop) :
    System Nat SessionLabel SessionDb (SessionRequest × SessionAnswer) where
  start := fun _ p => ∃ request, admits request ∧
    p = request.program rt >>= fun answer => pure (request, answer)
  env := fun db db' => db.clock ≤ db'.clock ∧ db'.sessions.Sublist db.sessions ∧
    db'.drawnIds = db.drawnIds ∧
    db'.drawnHashes = db.drawnHashes ∧ db'.handedOut = db.handedOut
  ok := Genuine

instance (rt : SessionRuntime) (admits : SessionRequest → Prop) (label : SessionLabel)
    (db db' : SessionDb) : Decidable ((sessionSystem rt admits).ok label db db') :=
  Genuine.decidable label db db'

abbrev SessionWorld := World Nat SessionLabel SessionDb

abbrev SessionEvent := Event Nat SessionLabel SessionDb

end AnalyticsBackend.Auth
