import AnalyticsBackend.Billing.Store
import AnalyticsBackend.Compliance.Request
import AnalyticsBackend.Platform.Admin

/-!
# Support access

`services/supportAccess.service.js` and `impersonate` of `services/support.service.js` over
`repositories/supportAccess.repository.js`. The ids of grants and of sessions are unique, so an update
by id is written as a map over the rows. Tokens, display names, the audit trail and security events
are left out.
-/

namespace AnalyticsBackend.Support
open Lib Platform

/-! ## Records -/

/-- `SUPPORT_GRANT_KINDS`. -/
inductive GrantKind where
  | consent
  | breakGlass
  deriving DecidableEq, Repr

/-- `SUPPORT_GRANT_STATUSES`. -/
inductive GrantStatus where
  | pending
  | active
  | denied
  | revoked
  deriving DecidableEq, Repr

/-- `revokedByType`. -/
inductive RevokerType where
  | user
  | admin
  deriving DecidableEq, Repr

/-- `models/SupportAccessGrant.js`. -/
structure SupportGrant where
  grantId : String
  tenantId : String
  kind : GrantKind
  status : GrantStatus
  reason : Option String := none
  ticket : Option String := none
  grantedBy : Option String := none
  requestedBy : Option String := none
  decidedBy : Option String := none
  decidedAt : Option Int := none
  decisionReason : Option String := none
  startsAt : Option Int := none
  expiresAt : Option Int := none
  revokedAt : Option Int := none
  revokedBy : Option String := none
  revokedByType : Option RevokerType := none
  revokedReason : Option String := none
  deriving DecidableEq, Repr

/-- The status of a session. -/
inductive SessionStatus where
  | active
  | revoked
  deriving DecidableEq, Repr

structure SupportSession where
  sessionId : String
  actorId : String
  tenantId : String
  impersonatedBy : String
  expiresAt : Int
  status : SessionStatus
  deriving DecidableEq, Repr

/-- `SUPPORT_IMPERSONATION_STATUSES`. -/
inductive ImpersonationStatus where
  | active
  | ended
  deriving DecidableEq, Repr

/-- `models/SupportImpersonation.js`. -/
structure SupportImpersonation where
  sessionId : String
  tenantId : String
  userId : String
  adminId : String
  grantId : String
  kind : GrantKind
  breakGlass : Bool
  readOnly : Bool
  reason : String
  ticket : Option String
  status : ImpersonationStatus
  startedAt : Int
  expiresAt : Int
  endedAt : Option Int := none
  endedBy : Option String := none
  endedReason : Option String := none
  deriving DecidableEq, Repr

structure SupportUser where
  id : String
  tenantId : String
  email : String
  status : Compliance.UserStatus
  deriving DecidableEq, Repr

/-- What support reads of a workspace. -/
structure SupportTenant where
  id : String
  status : Billing.TenantStatus
  ownerId : Option String
  deriving DecidableEq, Repr

/-- What support keeps; of admins, users and workspaces the rows that are not deleted. `counters` are
the slots taken by an admin on a UTC day. -/
structure SupportDb where
  clock : Int
  grants : List SupportGrant
  sessions : List SupportSession
  records : List SupportImpersonation
  counters : String → Int → Nat
  admins : List Admin
  users : List SupportUser
  tenants : List SupportTenant

/-- `env.support` and the lifetimes of sessions, in seconds; `none` is a malformed value. -/
structure SupportSettings where
  dailyCap : Int
  tokenTtl : Option Nat
  consentMaxHours : Int
  breakGlassTtl : Option Nat
  refreshTtl : Nat
  absoluteTtl : Nat
  deriving DecidableEq, Repr

/-! ## Steps -/

/-- A decision about a grant: the `$set` of `transitionGrant`. -/
inductive GrantDecision where
  | approve (decidedBy : String) (now : Int) (reason : String) (expiresAt : Int)
  | deny (decidedBy : String) (now : Int) (reason : String)
  | revoke (revokedBy : String) (byType : RevokerType) (now : Int) (reason : Option String)
  deriving DecidableEq, Repr

def GrantDecision.apply (grant : SupportGrant) : GrantDecision → SupportGrant
  | .approve decidedBy now reason expiresAt =>
      { grant with
        status := .active
        decidedBy := some decidedBy
        decidedAt := some now
        decisionReason := some reason
        startsAt := some now
        expiresAt := some expiresAt }
  | .deny decidedBy now reason =>
      { grant with
        status := .denied
        decidedBy := some decidedBy
        decidedAt := some now
        decisionReason := some reason }
  | .revoke revokedBy byType now reason =>
      { grant with
        status := .revoked
        revokedAt := some now
        revokedBy := some revokedBy
        revokedByType := some byType
        revokedReason := reason }

/-- `fromStatuses` of a decision. -/
def GrantDecision.fromStatuses : GrantDecision → List GrantStatus
  | .approve _ _ _ _ | .deny _ _ _ => [.pending]
  | .revoke _ _ _ _ => [.active, .pending]

/-- The `$set` of `revokeActiveConsents`. -/
def superseded (revokedBy : String) (now : Int) : GrantDecision :=
  .revoke revokedBy .user now (some "superseded by a new consent")

/-- A session as it is opened, and the grant that it is opened under. -/
structure Opening where
  session : SupportSession
  grantId : String
  startedAt : Int
  expiresAt : Int
  deriving DecidableEq, Repr

/-- The label of an atomic step. -/
inductive SupportLabel where
  | look
  | createGrant (grant : SupportGrant)
  | transitionGrant (grantId : String) (tenantId : Option String) (decision : GrantDecision)
  | revokeConsents (grantIds : List String) (tenantId revokedBy : String) (now : Int)
  | takeSlot (adminId : String) (day : Int)
  | giveBack (adminId : String) (day : Int)
  | createSession (opening : Opening)
  | revokeSession (sessionId : String)
  | createRecord (record : SupportImpersonation)
  | endRecord (sessionId endedBy : String) (now : Int)
  deriving DecidableEq, Repr

def SupportLabel.decides (label : SupportLabel) (grant : SupportGrant) : Bool :=
  match label with
  | .transitionGrant grantId tenantId decision =>
      grant.grantId = grantId && (tenantId.all fun tenantId => grant.tenantId = tenantId) &&
        decision.fromStatuses.contains grant.status
  | .revokeConsents grantIds tenantId _ _ =>
      grant.tenantId = tenantId && grantIds.contains grant.grantId && grant.status = .active
  | _ => false

def SupportLabel.decide (label : SupportLabel) (grant : SupportGrant) : SupportGrant :=
  match label with
  | .transitionGrant _ _ decision => if label.decides grant then decision.apply grant else grant
  | .revokeConsents _ _ revokedBy now =>
      if label.decides grant then (superseded revokedBy now).apply grant else grant
  | _ => grant

/-- `{ count: { $lt: cap } }`. -/
def SupportDb.hasSlot (cap : Int) (db : SupportDb) (adminId : String) (day : Int) : Bool :=
  (db.counters adminId day : Int) < cap

def SupportDb.count (db : SupportDb) (adminId : String) (day : Int) (count : Nat) : SupportDb :=
  let ofAdmin := Function.update (db.counters adminId) day count
  { db with counters := Function.update db.counters adminId ofAdmin }

/-- What a step does. -/
def SupportLabel.act (settings : SupportSettings) (label : SupportLabel) (db : SupportDb) : SupportDb :=
  match label with
  | .look => db
  | .createGrant grant => { db with grants := db.grants ++ [grant] }
  | .transitionGrant _ _ _ | .revokeConsents _ _ _ _ =>
      { db with grants := db.grants.map label.decide }
  | .takeSlot adminId day =>
      if db.hasSlot settings.dailyCap adminId day then
        db.count adminId day (db.counters adminId day + 1)
      else db
  | .giveBack adminId day => db.count adminId day (db.counters adminId day - 1)
  | .createSession opening => { db with sessions := db.sessions ++ [opening.session] }
  | .revokeSession sessionId =>
      { db with
        sessions := db.sessions.map fun s =>
          if s.sessionId = sessionId then { s with status := .revoked } else s }
  | .createRecord record => { db with records := db.records ++ [record] }
  | .endRecord sessionId endedBy now =>
      { db with
        records := db.records.map fun r =>
          if r.sessionId = sessionId ∧ r.status = .active then
            { r with
              status := .ended
              endedAt := some now
              endedBy := some endedBy
              endedReason := some "support access revoked" }
          else r }

abbrev SupportProg := Prog SupportLabel SupportDb

def look {A : Type} (f : SupportDb → A) : SupportProg A := Prog.read .look f

def newDate : SupportProg Int := look SupportDb.clock

section Programs

variable (settings : SupportSettings)

def perform {A : Type} (label : SupportLabel) (report : SupportDb → A) : SupportProg A :=
  Prog.update label (label.act settings) report

/-! ## Lookups -/

/-- `resolveAdmin`. -/
def resolveAdmin (adminId : String) : SupportProg (Except ApiError Admin) := do
  let admin ← look fun db => db.admins.find? fun a => a.id = adminId
  match admin with
  | none => return .error (.forbidden "Admin no longer exists")
  | some admin =>
      if admin.status ≠ .active then return .error (.forbidden "Admin account is not active")
      else return .ok admin

/-- `assertAdminInScope`. -/
def assertAdminInScope (admin : Admin) (tenantId : String) : Except ApiError Unit :=
  match admin.tenantScope with
  | none => .ok ()
  | some tenantScope =>
      if tenantScope = "" ∨ tenantId = tenantScope then .ok ()
      else .error (.forbidden "Target is outside your tenant scope")

def findTenant (tenantId : String) : SupportProg (Except ApiError SupportTenant) := do
  let tenant ← look fun db => db.tenants.find? fun t => t.id = tenantId
  match tenant with
  | none => return .error (.notFound "Tenant not found")
  | some tenant => return .ok tenant

/-- `findGrant`. -/
def findGrant (grantId : String) (tenantId : Option String) : SupportProg (Option SupportGrant) :=
  look fun db => db.grants.find? fun g =>
    g.grantId = grantId && tenantId.all fun tenantId => g.tenantId = tenantId

/-- `transitionGrant`: the grant as decided. -/
def transitionGrant (grantId : String) (tenantId : Option String) (decision : GrantDecision) :
    SupportProg (Option SupportGrant) :=
  let label := SupportLabel.transitionGrant grantId tenantId decision
  perform settings label fun db => (db.grants.find? label.decides).map label.decide

def reasonText (reason : String) : String := slice 500 (trim reason)

/-- The text of an optional field; the empty one is none. -/
def given (text : Option String) : Option String := text.filter (· ≠ "")

/-- `!reason || !String(reason).trim()`; irreducible, so that no proof about a request evaluates it. -/
@[irreducible] def noReason (reason : String) : Bool := (trim reason).isEmpty

def notActiveGrant (message : String) : ApiError :=
  { statusCode := 409, code := .supportGrantNotActive, message }

/-! ## Consent -/

/-- `grantConsent`; `durationHours` is `none` when it is not an integer, `grantId` is the id drawn. -/
structure ConsentRequest where
  tenantId : String
  userId : String
  durationHours : Option Int
  note : Option String
  grantId : String

def hourMs : Int := 3600000

def durationError (maxHours : Int) : ApiError :=
  .badRequest s!"durationHours must be an integer between 1 and {maxHours}"
    [{ field := "durationHours", message := s!"must be between 1 and {maxHours}" }]

def ConsentRequest.hours (req : ConsentRequest) : Except ApiError Int :=
  match req.durationHours with
  | none => .error (durationError settings.consentMaxHours)
  | some hours =>
      if hours < 1 ∨ settings.consentMaxHours < hours then
        .error (durationError settings.consentMaxHours)
      else .ok hours

def ConsentRequest.grant (req : ConsentRequest) (hours now : Int) : SupportGrant where
  grantId := req.grantId
  tenantId := req.tenantId
  kind := .consent
  status := .active
  reason := (given req.note).map reasonText
  grantedBy := some req.userId
  startsAt := some now
  expiresAt := some (now + hours * hourMs)

/-- `revokeActiveConsents`: the ids of the consents it has found. -/
def revokeActiveConsents (tenantId revokedBy : String) (now : Int) : SupportProg (List String) := do
  let ids ← look fun db =>
    (db.grants.filter fun g => g.tenantId = tenantId && g.kind = .consent && g.status = .active).map
      SupportGrant.grantId
  if ids.isEmpty then return []
  else
    perform settings (.revokeConsents ids tenantId revokedBy now) fun _ => ids

/-- `grantConsent`. -/
def grantConsent (req : ConsentRequest) : SupportProg (Except ApiError SupportGrant) := do
  if req.tenantId = "" then return .error (.badRequest "Tenant id is required")
  else if req.userId = "" then return .error (.forbidden "Authenticated workspace user is required")
  else
    match req.hours settings with
    | .error e => return .error e
    | .ok hours =>
        (findTenant req.tenantId).andThen fun _ => do
          let now ← newDate
          let _ ← revokeActiveConsents settings req.tenantId req.userId now
          let grant := req.grant hours now
          perform settings (.createGrant grant) fun _ => .ok grant

/-- `effectiveGrantStatus` is `active` or `pending`. -/
def openGrant (grant : SupportGrant) (now : Int) : Bool :=
  match grant.status with
  | .active => grant.expiresAt.all fun expiresAt => now < expiresAt
  | .pending => true
  | _ => false

/-- The loop of `endSessionsForGrant`. -/
def endSessions (endedBy : String) : List SupportImpersonation → SupportProg Unit
  | [] => return ()
  | record :: rest => do
      perform settings (.revokeSession record.sessionId) fun _ => ()
      let now ← newDate
      perform settings (.endRecord record.sessionId endedBy now) fun _ => ()
      endSessions endedBy rest

/-- `endSessionsForGrant`. -/
def endSessionsForGrant (grantId endedBy : String) : SupportProg (List String) := do
  let active ← look fun db =>
    db.records.filter fun r => r.grantId = grantId && r.status = .active
  endSessions settings endedBy active
  return active.map SupportImpersonation.sessionId

/-- `revokeGrantAndSessions`. -/
def revokeGrantAndSessions (grant : SupportGrant) (revokedBy : String) (byType : RevokerType)
    (reason : String) (now : Int) : SupportProg (Except ApiError (SupportGrant × List String)) := do
  if !openGrant grant now then return .error (notActiveGrant "This grant is no longer active")
  else
    let updated ← transitionGrant settings grant.grantId (some grant.tenantId)
      (.revoke revokedBy byType now (some reason))
    match updated with
    | none => return .error (notActiveGrant "This grant is no longer active")
    | some updated =>
        let ended ← endSessionsForGrant settings grant.grantId revokedBy
        return .ok (updated, ended)

/-- `revokeConsent`. -/
def revokeConsent (tenantId grantId userId : String) (reason : Option String) :
    SupportProg (Except ApiError (SupportGrant × List String)) := do
  let grant ← findGrant grantId (some tenantId)
  match grant with
  | none => return .error (.notFound "Support access grant not found")
  | some grant =>
      if grant.kind ≠ .consent then
        return .error (.forbidden "Break-glass access is managed by platform administrators")
      else
        let now ← newDate
        revokeGrantAndSessions settings grant userId .user
          (((given reason).map reasonText).getD "revoked by the workspace") now

/-- `revokeGrantAsAdmin`. -/
def revokeGrantAsAdmin (adminId grantId reason : String) :
    SupportProg (Except ApiError (SupportGrant × List String)) := do
  if noReason reason then return .error (.badRequest "A reason is required to revoke support access")
  else
    (resolveAdmin adminId).andThen fun admin => do
      let grant ← findGrant grantId none
      match grant with
      | none => return .error (.notFound "Support access grant not found")
      | some grant =>
          match assertAdminInScope admin grant.tenantId with
          | .error e => return .error e
          | .ok () =>
              let now ← newDate
              revokeGrantAndSessions settings grant admin.id .admin (reasonText reason) now

/-! ## Break-glass -/

/-- `requestBreakGlass`. -/
structure BreakGlassRequest where
  adminId : String
  tenantId : String
  reason : String
  ticket : Option String
  grantId : String

def shortReason : ApiError :=
  .badRequest "A reason of at least 10 characters is required for break-glass access"
    [{ field := "reason", message := "must be at least 10 characters" }]

def BreakGlassRequest.grant (req : BreakGlassRequest) (admin : Admin) (tenant : SupportTenant) :
    SupportGrant where
  grantId := req.grantId
  tenantId := tenant.id
  kind := .breakGlass
  status := .pending
  reason := some (reasonText req.reason)
  ticket := (given req.ticket).map fun ticket => slice 120 (trim ticket)
  requestedBy := some admin.id

@[irreducible] def tooShort (reason : String) : Bool := jsLength (trim reason) < 10

def requestBreakGlass (req : BreakGlassRequest) : SupportProg (Except ApiError SupportGrant) := do
  if tooShort req.reason then return .error shortReason
  else
    (resolveAdmin req.adminId).andThen fun admin =>
      if req.tenantId = "" then return .error (.badRequest "tenantId is required")
      else
        match assertAdminInScope admin req.tenantId with
        | .error e => return .error e
        | .ok () =>
            (findTenant req.tenantId).andThen fun tenant =>
              let grant := req.grant admin tenant
              perform settings (.createGrant grant) fun _ => .ok grant

def approvalDenied (message : String) : ApiError :=
  { statusCode := 403, code := .breakGlassApprovalDenied, message }

def unscoped (admin : Admin) : Bool := admin.tenantScope.all fun scope => scope = ""

/-- `assertEligibleApprover`. -/
def assertEligibleApprover (admin : Admin) (grant : SupportGrant) : Except ApiError Unit :=
  if admin.adminType ≠ .super ∨ unscoped admin = false then
    .error (approvalDenied "Only a platform super admin can decide break-glass access")
  else if some admin.id = grant.requestedBy then
    .error (approvalDenied "A break-glass request must be approved by a different admin")
  else .ok ()

/-- `breakGlassTtlSeconds`. -/
def breakGlassTtlSeconds : Nat := min (max 60 (settings.breakGlassTtl.getD 3600)) 86400

/-- `approveBreakGlass` and `denyBreakGlass`, which differ in their decision. -/
def decideBreakGlass (adminId grantId : String) (decision : Admin → Int → GrantDecision) :
    SupportProg (Except ApiError SupportGrant) :=
  (resolveAdmin adminId).andThen fun admin => do
    let grant ← findGrant grantId none
    match grant with
    | none => return .error (.notFound "Break-glass request not found")
    | some grant =>
        if grant.kind ≠ .breakGlass then return .error (.notFound "Break-glass request not found")
        else
          match assertAdminInScope admin grant.tenantId, assertEligibleApprover admin grant with
          | .error e, _ => return .error e
          | .ok (), .error e => return .error e
          | .ok (), .ok () =>
              let now ← newDate
              let updated ← transitionGrant settings grant.grantId none (decision admin now)
              match updated with
              | none => return .error (notActiveGrant "This break-glass request was already decided")
              | some updated => return .ok updated

def approveBreakGlass (adminId grantId reason : String) : SupportProg (Except ApiError SupportGrant) :=
  if noReason reason then
    return .error (.badRequest "A reason is required to approve break-glass access")
  else
    decideBreakGlass settings adminId grantId fun admin now =>
      .approve admin.id now (reasonText reason) (now + breakGlassTtlSeconds settings * 1000)

def denyBreakGlass (adminId grantId reason : String) : SupportProg (Except ApiError SupportGrant) :=
  if noReason reason then
    return .error (.badRequest "A reason is required to deny break-glass access")
  else
    decideBreakGlass settings adminId grantId fun admin now =>
      .deny admin.id now (reasonText reason)

/-! ## Support sessions -/

/-- `findActiveGrant`: of the usable grants the one that expires last. -/
def findActiveGrant (tenantId : String) (kind : GrantKind) (requestedBy : Option String) (now : Int) :
    SupportProg (Option SupportGrant) :=
  letI : Preorder Int := Int.instLinearOrder.toPreorder
  look fun db =>
    (db.grants.filter fun g =>
      g.tenantId = tenantId && g.status = .active && g.kind = kind &&
        (requestedBy.all fun adminId => g.requestedBy = some adminId) &&
        g.expiresAt.any fun expiresAt => now < expiresAt).argmax fun g => g.expiresAt.getD 0

/-- The lookups of `assertTargetNotProtected`, one after the other. -/
def findStaff : List String → SupportProg (Except ApiError Unit)
  | [] => return .ok ()
  | email :: rest => do
      let staff ← look fun db => db.admins.any fun a => a.email = email
      if staff then
        return .error
          { statusCode := 403, code := .supportTargetProtected
            message := "Support sessions cannot target accounts or workspaces owned by platform staff" }
      else findStaff rest

/-- `assertTargetNotProtected`. -/
def assertTargetNotProtected (user : SupportUser) (tenant : SupportTenant) :
    SupportProg (Except ApiError Unit) := do
  match tenant.ownerId with
  | none => findStaff ([user.email.toLower].filter (· ≠ ""))
  | some ownerId =>
      let owner ← look fun db => db.users.find? fun u => u.id = ownerId
      let emails := user.email.toLower :: (owner.map fun owner => owner.email.toLower).toList
      findStaff (emails.filter (· ≠ "")).dedup

def consentRequired : ApiError where
  statusCode := 403
  code := .supportConsentRequired
  message := "The workspace has not granted support access. Ask an Owner or Admin to grant it in workspace settings, or request break-glass access."

/-- `authorizeImpersonation`: the grant to use. -/
def authorizeImpersonation (admin : Admin) (user : SupportUser) :
    SupportProg (Except ApiError SupportGrant) := do
  let now ← newDate
  (findTenant user.tenantId).andThen fun tenant =>
    if tenant.status ≠ .active then
      return .error
        { statusCode := 409, code := .tenantNotActive
          message := "The workspace is not active; support sessions are blocked" }
    else if user.status ≠ .active then
      return .error
        { statusCode := 409, code := .accountNotActive
          message := "Only active users can be viewed in a support session" }
    else
      (assertTargetNotProtected user tenant).andThen fun _ => do
        let consent ← findActiveGrant user.tenantId .consent none now
        match consent with
        | some grant => return .ok grant
        | none =>
            let breakGlass ← findActiveGrant user.tenantId .breakGlass (some admin.id) now
            match breakGlass with
            | some grant => return .ok grant
            | none => return .error consentRequired

/-- `incrementDailyCounter`: where the first update meets a counter at the cap, a second follows. -/
def incrementDailyCounter (adminId : String) (now : Int) : SupportProg Bool := do
  let day := Calendar.day now
  let first ← perform settings (.takeSlot adminId day) fun db => db.hasSlot settings.dailyCap adminId day
  if first then return true
  else perform settings (.takeSlot adminId day) fun db => db.hasSlot settings.dailyCap adminId day

/-- `reserveImpersonationSlot`. -/
def reserveImpersonationSlot (adminId : String) : SupportProg (Except ApiError Unit) := do
  if settings.dailyCap ≤ 0 then return .ok ()
  else
    let now ← newDate
    let taken ← incrementDailyCounter settings adminId now
    if taken then return .ok ()
    else
      return .error
        { statusCode := 429, code := .supportImpersonationCapExceeded
          message := "Daily impersonation budget exhausted" }

/-- `releaseImpersonationSlot`. -/
def releaseImpersonationSlot (adminId : String) : SupportProg Unit := do
  if settings.dailyCap ≤ 0 then return ()
  else
    let now ← newDate
    perform settings (.giveBack adminId (Calendar.day now)) fun _ => ()

/-- `impersonationTtlSeconds`. -/
def impersonationTtlSeconds : Nat := max 60 (min (settings.tokenTtl.getD 900) 3600)

/-- The `expiresAt` of `openSupportSession`: whole seconds from the start, at least one. -/
def sessionExpiry (grant : SupportGrant) (startedAt : Int) : Int :=
  let expiresAt := startedAt + impersonationTtlSeconds settings * 1000
  let expiresAt := min expiresAt (grant.expiresAt.getD expiresAt)
  startedAt + max 1 ((expiresAt - startedAt) / 1000) * 1000

/-- `cappedExpiry`. -/
def cappedExpiry (signedInAt now : Int) : Int :=
  min (now + settings.refreshTtl * 1000) (signedInAt + settings.absoluteTtl * 1000)

/-- The arguments of `impersonate`, the id drawn for the session, and which call fails, if one does. -/
inductive OpenFault where
  | session
  | token
  | record
  deriving DecidableEq, Repr

structure ImpersonateRequest where
  adminId : String
  targetUserId : String
  reason : String
  ticket : Option String
  sessionId : String
  fault : Option OpenFault

def ImpersonateRequest.record (req : ImpersonateRequest) (admin : Admin) (user : SupportUser)
    (grant : SupportGrant) (startedAt expiresAt : Int) : SupportImpersonation where
  sessionId := req.sessionId
  tenantId := user.tenantId
  userId := user.id
  adminId := admin.id
  grantId := grant.grantId
  kind := grant.kind
  breakGlass := grant.kind = .breakGlass
  readOnly := true
  reason := reasonText req.reason
  ticket := (given req.ticket).map fun ticket => slice 120 (trim ticket)
  status := .active
  startedAt := startedAt
  expiresAt := expiresAt

/-- What a failing call throws. -/
def internalError (message : String) : ApiError :=
  { statusCode := 500, code := .internalError, message }

/-- `openSupportSession`. -/
def openSupportSession (req : ImpersonateRequest) (admin : Admin) (user : SupportUser)
    (grant : SupportGrant) : SupportProg (Except ApiError SupportImpersonation) := do
  let startedAt ← newDate
  let expiresAt := sessionExpiry settings grant startedAt
  let signedInAt ← newDate
  let now ← newDate
  let session : SupportSession :=
    { sessionId := req.sessionId, actorId := user.id, tenantId := user.tenantId
      impersonatedBy := admin.id, expiresAt := min expiresAt (cappedExpiry settings signedInAt now)
      status := .active }
  if req.fault = some .session then return .error (internalError "session")
  else
    perform settings (.createSession { session, grantId := grant.grantId, startedAt, expiresAt })
      fun _ => ()
    if req.fault = some .token ∨ req.fault = some .record then
      perform settings (.revokeSession req.sessionId) fun _ => ()
      return .error (internalError "record")
    else
      let record := req.record admin user grant startedAt expiresAt
      perform settings (.createRecord record) fun _ => .ok record

/-- The checks of `resolveAdminDoc` and `resolveActiveUser`. -/
def resolveTarget (req : ImpersonateRequest) :
    SupportProg (Except ApiError (Admin × SupportUser)) := do
  let admin ← look fun db => db.admins.find? fun a => a.id = req.adminId
  match admin with
  | none => return .error (.forbidden "Admin no longer exists")
  | some admin =>
      let user ← look fun db => db.users.find? fun u => u.id = req.targetUserId
      match user with
      | none => return .error (.notFound "User not found")
      | some user =>
          match assertAdminInScope admin user.tenantId with
          | .error e => return .error e
          | .ok () =>
              if user.status = .suspended then
                return .error (.conflict "User is suspended; support actions are blocked")
              else return .ok (admin, user)

def impersonate (req : ImpersonateRequest) : SupportProg (Except ApiError SupportImpersonation) :=
  if noReason req.reason then return .error (.badRequest "A reason is required for impersonation")
  else
    (resolveTarget req).andThen fun target =>
      (authorizeImpersonation target.1 target.2).andThen fun grant =>
        (reserveImpersonationSlot settings target.1.id).andThen fun _ => do
          let opened ← openSupportSession settings req target.1 target.2 grant
          match opened with
          | .ok record => return .ok record
          | .error e =>
              releaseImpersonationSlot settings target.1.id
              return .error e

/-! ## The system -/

inductive SupportCall where
  | grantConsent (req : ConsentRequest)
  | revokeConsent (tenantId grantId userId : String) (reason : Option String)
  | revokeGrantAsAdmin (adminId grantId reason : String)
  | requestBreakGlass (req : BreakGlassRequest)
  | approveBreakGlass (adminId grantId reason : String)
  | denyBreakGlass (adminId grantId reason : String)
  | impersonate (req : ImpersonateRequest)

/-- A program whose result nobody reads. -/
def ignored {A : Type} (p : SupportProg A) : SupportProg Unit := do
  let _ ← p
  return ()

def SupportCall.program : SupportCall → SupportProg Unit
  | .grantConsent req => ignored (Support.grantConsent settings req)
  | .revokeConsent tenantId grantId userId reason =>
      ignored (Support.revokeConsent settings tenantId grantId userId reason)
  | .revokeGrantAsAdmin adminId grantId reason =>
      ignored (Support.revokeGrantAsAdmin settings adminId grantId reason)
  | .requestBreakGlass req => ignored (Support.requestBreakGlass settings req)
  | .approveBreakGlass adminId grantId reason =>
      ignored (Support.approveBreakGlass settings adminId grantId reason)
  | .denyBreakGlass adminId grantId reason =>
      ignored (Support.denyBreakGlass settings adminId grantId reason)
  | .impersonate req => ignored (Support.impersonate settings req)

def SupportDrawn (label : SupportLabel) (db _ : SupportDb) : Prop :=
  match label with
  | .createGrant grant => ∀ g ∈ db.grants, g.grantId ≠ grant.grantId
  | .createSession opening => ∀ s ∈ db.sessions, s.sessionId ≠ opening.session.sessionId
  | _ => True

instance (label : SupportLabel) (db db' : SupportDb) : Decidable (SupportDrawn label db db') := by
  unfold SupportDrawn
  split <;> infer_instance

def endAll (ended : String → Bool) (sessions : List SupportSession) : List SupportSession :=
  sessions.map fun s => if ended s.sessionId then { s with status := .revoked } else s

def closeAll (closed : String → Bool) (records : List SupportImpersonation) :
    List SupportImpersonation :=
  records.map fun r => if closed r.sessionId then { r with status := .ended } else r

/-- What happens from outside: the clock goes on, admins, users and workspaces change, sessions are
ended, and records of ended sessions are closed. -/
def SupportOutside (db db' : SupportDb) : Prop :=
  db.clock ≤ db'.clock ∧ db'.grants = db.grants ∧ db'.counters = db.counters ∧
    (∃ ended, db'.sessions = endAll ended db.sessions) ∧
    ∃ closed, db'.records = closeAll closed db.records ∧
      ∀ s ∈ db'.sessions, closed s.sessionId = true → s.status ≠ .active

def supportSystem : System Nat SupportLabel SupportDb Unit where
  start := fun _ p => ∃ call : SupportCall, p = call.program settings
  env := SupportOutside
  ok := SupportDrawn

end Programs

instance (settings : SupportSettings) (label : SupportLabel) (db db' : SupportDb) :
    Decidable ((supportSystem settings).ok label db db') :=
  inferInstanceAs (Decidable (SupportDrawn label db db'))

abbrev SupportEvent := Event Nat SupportLabel SupportDb

abbrev SupportWorld := World Nat SupportLabel SupportDb

end AnalyticsBackend.Support
