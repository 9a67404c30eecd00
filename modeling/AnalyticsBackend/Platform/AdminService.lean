import AnalyticsBackend.Platform.Admin

/-!
# The administration of platform admins

`services/admin.service.js`: the operations that change admins and their role grants. Security
events, sessions, caches and invitation mails are not part of the store and are left out.
-/

namespace AnalyticsBackend.Platform
open Lib

/-- `isRequestActor`: the actor is an ObjectId, not an internal caller. -/
def isRequestActor (actor : Option String) : Bool :=
  match actor with
  | some id => id.length = 24 && id.toList.all fun c =>
      c.isDigit || ('a' ≤ c && c ≤ 'f') || ('A' ≤ c && c ≤ 'F')
  | none => false

/-- `lastSuperError`. -/
def lastSuperError (message : String) : ApiError :=
  { ApiError.conflict message with code := .lastSuperAdmin }

def adminNotFound : ApiError := ApiError.notFound "Admin not found"

/-- `findById`, or the 404 of every operation. -/
def requireAdmin (id : String) : AdminProg (Except ApiError Admin) :=
  look fun db => (db.findById id).elim (.error adminNotFound) .ok

/-- Refuse with `message` unless the actor is an active super admin. -/
def requireActiveSuper (actor : Option String) (message : String) :
    AdminProg (Except ApiError Unit) := do
  let found ← look fun db => actor.bind db.findById
  match found with
  | some a =>
      if a.status = .active && a.adminType = .super then return .ok ()
      return .error (ApiError.forbidden message)
  | none => return .error (ApiError.forbidden message)

/-- `assertMayChangePrivileges`. -/
def assertMayChangePrivileges (actor targetId : Option String) :
    AdminProg (Except ApiError Unit) :=
  if !isRequestActor actor then pure (.ok ())
  else if targetId.isSome && targetId = actor then
    pure (.error (ApiError.forbidden "You cannot change your own roles, type or scope"))
  else
    requireActiveSuper actor
      "Only an active super administrator can change administrator privileges"

/-- `assertMayManageAdmin`. -/
def assertMayManageAdmin (actor : Option String) (target : Admin) :
    AdminProg (Except ApiError Unit) :=
  if !isRequestActor actor || target.adminType ≠ .super then pure (.ok ())
  else if actor = some target.id then pure (.ok ())
  else
    requireActiveSuper actor
      "Only an active super administrator can manage a super administrator"

/-- `assertScopeTenantExists`. -/
def assertScopeTenantExists (tenantScope : String) (actor : Option String) :
    AdminProg (Except ApiError Unit) :=
  if !isRequestActor actor then pure (.ok ())
  else do
    let known ← look fun db => db.tenants.contains tenantScope
    if known then return .ok ()
    return .error (ApiError.badRequest "tenantScope must reference an existing tenant")

/-- Refuse with `message` when at most one active super admin is left. -/
def assertMoreThanOneSuper (message : String) : AdminProg (Except ApiError Unit) := do
  let count ← look AdminDb.countActiveSupers
  if count ≤ 1 then return .error (lastSuperError message)
  return .ok ()

/-- `assertNotLastActiveSuper`. -/
def assertNotLastActiveSuper (targetId : String) (desiredAdminType : Option AdminType)
    (desiredStatus : Option AdminStatus) (actor : Option String) :
    AdminProg (Except ApiError Unit) :=
  (requireAdmin targetId).andThen fun target =>
    let isActiveSuper := target.adminType = .super && target.status = .active
    let willRemainActive := desiredStatus.getD target.status = .active
    let willStillBeSuper := desiredAdminType.getD target.adminType = .super
    let ofActor : AdminProg (Except ApiError Unit) :=
      if actor.any (fun id => id ≠ "" && id = targetId) && isActiveSuper then
        assertMoreThanOneSuper "Refusing to demote the last active super administrator"
      else pure (.ok ())
    if !willRemainActive || !willStillBeSuper then
      if !isActiveSuper then pure (.ok ())
      else
        (assertMoreThanOneSuper "Refusing to lock out the last active super administrator").andThen
          fun _ => ofActor
    else ofActor

/-- `changeSuperSafely`: compare-and-set, count again, and undo when none is left. -/
def changeSuperSafely (target : Admin) (set : AdminSet) (actor : Option String) :
    AdminProg (Except ApiError Admin) := do
  match ← demoteIfActiveSuper target.id (set.stamped actor) with
  | none =>
      return .error
        (ApiError.conflict "The administrator changed concurrently; reload and retry")
  | some updated =>
      let remaining ← write .recount AdminDb.countActiveSupers
      if remaining < 1 then
        let _ ← undoIfWritten target.id (set.stamped actor)
          ((set.undoing target).stamped target.updatedBy)
        return .error (lastSuperError "Refusing to lock out the last active super administrator")
      return .ok updated

/-! ## Role grants -/

/-- `revokeRole` of the repository: how many rows were removed. -/
def removeGrant (adminId roleId : String) (tenantId : Option String) : AdminProg Nat :=
  write (.ungrant adminId roleId tenantId) fun db =>
    db.grants.countP fun g => g.sameGrant adminId roleId tenantId

/-- The loop of `revokeRolesAboveType`. -/
def revokeGrantsAbove (adminType : AdminType) : List AdminRole → AdminProg Unit
  | [] => pure ()
  | g :: rest => do
      match (← findRole g.roleId).bind Role.builtIn with
      | some definition =>
          if adminType.rank < definition.adminType.rank then
            let _ ← removeGrant g.adminId g.roleId g.tenantId
            revokeGrantsAbove adminType rest
          else revokeGrantsAbove adminType rest
      | none => revokeGrantsAbove adminType rest

/-- `revokeRolesAboveType`. -/
def revokeRolesAboveType (adminId : String) (adminType : AdminType) : AdminProg Unit := do
  let grants ← look fun db => db.grants.filter fun g => g.adminId = adminId
  revokeGrantsAbove adminType grants

/-- The check of `revokeRole` before a super admin loses a super-admin role; returns the grant
that a refusal puts back. -/
def guardSuperGrant (adminId roleId : String) : AdminProg (Except ApiError (Option AdminRole)) := do
  let superRoleIds ← superAdminRoleIds
  let grants ← look fun db => db.grants.filter fun g => g.adminId = adminId && g.tenantId = none
  let revoked := grants.find? fun g => g.roleId = roleId
  let holdsOther := grants.any fun g => g.roleId ≠ roleId && superRoleIds.contains g.roleId
  if revoked.isSome && !holdsOther then
    let holders ← countActiveSupersHoldingRoles superRoleIds
    if holders ≤ 1 then
      return .error (lastSuperError "Refusing to revoke the last super administrator role grant")
    return .ok revoked
  return .ok revoked

/-- `revokeRole`. -/
def revokeRole (adminId roleId : String) (tenantId actor : Option String) :
    AdminProg (Except ApiError Nat) :=
  (requireAdmin adminId).andThen fun admin => do
    match ← findRole roleId with
    | none => return .error (ApiError.notFound "Role not found")
    | some role =>
        (assertMayChangePrivileges actor (some adminId)).andThen fun _ =>
          let guards := tenantId.all (· = "") && admin.adminType = .super &&
            admin.status = .active && role.isSuperAdmin
          let guard := if guards then guardSuperGrant adminId roleId else pure (.ok none)
          guard.andThen fun revokedGrant => do
            let removed ← removeGrant adminId roleId tenantId
            if guards && 0 < removed then
              let superRoleIds ← superAdminRoleIds
              let holders ← countActiveSupersHoldingRoles superRoleIds
              if holders < 1 then
                -- The grant goes back exactly as it was.
                let row : AdminRole :=
                  { adminId, roleId, tenantId := none
                    grantedBy := (revokedGrant.bind AdminRole.grantedBy).or actor
                    expiresAt := revokedGrant.bind AdminRole.expiresAt }
                let _ ← write (.grant row) fun _ => ()
                return .error
                  (lastSuperError "Refusing to revoke the last super administrator role grant")
              return .ok removed
            return .ok removed

/-! ## Admins -/

/-- The patch of an `update` request; what is `none` is `undefined`. -/
structure AdminPatch where
  adminType : Option String := none
  tenantScope : Option (Option String) := none
  name : Option String := none
  locale : Option String := none
  timezone : Option String := none
  avatarUrl : Option (Option String) := none
  deriving DecidableEq, Repr

/-- `adminType must be one of …`. -/
def badAdminType : ApiError :=
  ApiError.badRequest
    ("adminType must be one of " ++ String.intercalate ", " (AdminType.all.map AdminType.text))

def orNull (value : Option String) : Option String := value.filter (· ≠ "")

def requestedType : Option String → Except ApiError (Option AdminType)
  | none => .ok none
  | some text => (AdminType.ofText text).elim (.error badAdminType) fun t => .ok (some t)

/-- The set an `update` writes. -/
def AdminPatch.toSet (patch : AdminPatch) : Except ApiError AdminSet := do
  let adminType ← requestedType patch.adminType
  let set : AdminSet :=
    { adminType, tenantScope := patch.tenantScope.map orNull, name := patch.name
      locale := patch.locale, timezone := patch.timezone, avatarUrl := patch.avatarUrl }
  if set.isEmpty then .error (ApiError.badRequest "Nothing to update")
  else .ok set

/-- The guards of `update` before it writes. -/
def updateGuards (admin : Admin) (set : AdminSet) (actor : Option String) :
    AdminProg (Except ApiError Unit) :=
  (assertMayManageAdmin actor admin).andThen fun _ =>
    (assertNotLastActiveSuper admin.id set.adminType none actor).andThen fun _ =>
      let privileges :=
        if set.adminType.isSome || set.tenantScope.isSome then
          assertMayChangePrivileges actor (some admin.id)
        else pure (.ok ())
      privileges.andThen fun _ =>
        match set.tenantScope with
        | some (some tenantScope) => assertScopeTenantExists tenantScope actor
        | _ => pure (.ok ())

/-- `demotesSuper`: the set takes the type of an admin that was read as an active super. -/
def AdminSet.demotes (set : AdminSet) (admin : Admin) : Bool :=
  set.adminType.any (· ≠ .super) && admin.adminType = .super && admin.status = .active

/-- The write of `update`: guarded when it demotes a super admin, plain otherwise. -/
def writeUpdate (admin : Admin) (set : AdminSet) (actor : Option String) :
    AdminProg (Except ApiError (Option Admin)) :=
  if set.demotes admin then
    (changeSuperSafely admin set actor).andThen fun updated => pure (.ok (some updated))
  else do
    let updated ← patchAdmin admin.id (set.stamped actor)
    return .ok updated

def update (id : String) (patch : AdminPatch) (actor : Option String) :
    AdminProg (Except ApiError (Option Admin)) :=
  (requireAdmin id).andThen fun admin =>
    match patch.toSet with
    | .error e => pure (.error e)
    | .ok set =>
        (updateGuards admin set actor).andThen fun _ =>
          (writeUpdate admin set actor).andThen fun updated => do
            match set.adminType with
            | some adminType =>
                if adminType.rank < admin.adminType.rank then
                  revokeRolesAboveType id adminType
                  return .ok updated
                return .ok updated
            | none => return .ok updated

/-- The write of `suspend`: guarded when the admin was read as an active super. -/
def writeSuspend (admin : Admin) (actor : Option String) : AdminProg (Except ApiError Unit) :=
  if admin.status = .suspended then pure (.ok ())
  else if admin.adminType = .super && admin.status = .active then
    (changeSuperSafely admin { status := some .suspended } actor).andThen fun _ => pure (.ok ())
  else do
    let _ ← patchAdmin admin.id { status := some .suspended, updatedBy := some actor }
    return .ok ()

def suspend (id : String) (actor : Option String) : AdminProg (Except ApiError (Option Admin)) :=
  (requireAdmin id).andThen fun admin =>
    (assertMayManageAdmin actor admin).andThen fun _ =>
      (assertNotLastActiveSuper id none (some .suspended) actor).andThen fun _ =>
        (writeSuspend admin actor).andThen fun _ => do
          let refreshed ← look fun db => db.findById id
          return .ok refreshed

def restore (id : String) (actor : Option String) : AdminProg (Except ApiError (Option Admin)) :=
  (requireAdmin id).andThen fun admin =>
    (assertMayManageAdmin actor admin).andThen fun _ => do
      let restored ← patchAdmin id { status := some .active, updatedBy := some actor }
      return .ok restored

/-- A request to create or invite an admin: `id` is the `_id` the row gets, `email` is trimmed
and lower-cased, and `passwordHash` is the hash of `password`. -/
structure NewAdmin where
  id : String
  email : String
  password : Option String
  passwordHash : String
  adminType : String
  name : String
  tenantScope : Option String
  status : String
  deriving DecidableEq, Repr

def minPasswordLength : Nat := 8

/-- The row of a new admin. -/
def NewAdmin.row (req : NewAdmin) (adminType : AdminType) (status : AdminStatus)
    (passwordHash actor : Option String) : Admin where
  id := req.id
  email := req.email
  passwordHash
  status
  adminType
  tenantScope := orNull req.tenantScope
  profile := { name := req.name }
  createdBy := actor
  updatedBy := none
  deletedAt := none

def emailTaken : ApiError := ApiError.conflict "An admin with this email already exists"

/-- `findByEmail`. -/
def findByEmail (email : String) : AdminProg (Option Admin) :=
  look fun db => db.admins.find? fun a => a.live && a.email = email

def duplicateEmail : ApiError := ApiError.conflict "A record with that email already exists"

def create (req : NewAdmin) (actor : Option String) : AdminProg (Except ApiError Admin) :=
  if req.email = "" then pure (.error (ApiError.badRequest "Email is required"))
  else if req.password.all (fun p => jsLength p < minPasswordLength) then
    pure (.error (ApiError.badRequest s!"Password must be at least {minPasswordLength} characters"))
  else
    match AdminType.ofText req.adminType with
    | none => pure (.error badAdminType)
    | some adminType =>
        if req.status ≠ "pending" && req.status ≠ "active" then
          pure (.error (ApiError.badRequest "status must be \"pending\" or \"active\""))
        else
          let status : AdminStatus := if req.status = "pending" then .pending else .active
          let scope := orNull req.tenantScope
          let privileges := if adminType = .super || scope.isSome then
            assertMayChangePrivileges actor none else pure (.ok ())
          privileges.andThen fun _ =>
            let known := scope.elim (pure (.ok ())) fun s => assertScopeTenantExists s actor
            known.andThen fun _ => do
              match ← findByEmail req.email with
              | some _ => return .error emailTaken
              | none =>
                  let row := req.row adminType status (some req.passwordHash) actor
                  let inserted ← insertAdmin row
                  if inserted then return .ok row
                  return .error duplicateEmail

/-- `invite`, up to the invitation it sends. -/
def invite (req : NewAdmin) (actor : Option String) : AdminProg (Except ApiError Admin) :=
  if req.email = "" then pure (.error (ApiError.badRequest "Email is required"))
  else
    match AdminType.ofText req.adminType with
    | none => pure (.error badAdminType)
    | some adminType =>
        let privileges := if adminType = .super || (orNull req.tenantScope).isSome then
          assertMayChangePrivileges actor none else pure (.ok ())
        privileges.andThen fun _ => do
          match ← findByEmail req.email with
          | some found =>
              if found.status = .pending then
                return .error (ApiError.conflict
                  "This admin has already been invited; resend the invitation instead")
              return .error emailTaken
          | none =>
              let row := req.row adminType .pending none actor
              let inserted ← insertAdmin row
              if inserted then return .ok row
              return .error emailTaken

end AnalyticsBackend.Platform
