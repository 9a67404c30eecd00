import AnalyticsBackend.ApiError
import AnalyticsBackend.Lib.Interleaving
import AnalyticsBackend.Lib.Js

/-!
# Platform administrators

`models/Admin.js`, `models/AdminRole.js` and `repositories/admin.repository.js`, with the
platform roles of `constants/platformRoles.js`. Every read and every write of one document is
an atomic step. `_id` is unique, so an update by id is written as a map over the rows.
-/

namespace AnalyticsBackend.Platform
open Lib

/-- `ADMIN_TYPES`. -/
inductive AdminType where
  | super
  | platform
  | support
  | auditor
  deriving DecidableEq, Repr

namespace AdminType

def text : AdminType → String
  | super => "super"
  | platform => "platform"
  | support => "support"
  | auditor => "auditor"

def all : List AdminType := [super, platform, support, auditor]

/-- The type a request names, if it is one of `ADMIN_TYPES`. -/
def ofText (s : String) : Option AdminType := all.find? fun t => t.text = s

def rank : AdminType → Nat
  | auditor => 1
  | support => 2
  | platform => 3
  | super => 4

end AdminType

/-- `ADMIN_STATUSES`. -/
inductive AdminStatus where
  | pending
  | active
  | suspended
  | locked
  deriving DecidableEq, Repr

structure AdminProfile where
  name : String := ""
  locale : String := "en"
  timezone : String := "UTC"
  avatarUrl : Option String := none
  deriving DecidableEq, Repr

/-- A stored admin, with the fields the administration reads or writes. -/
structure Admin where
  id : String
  email : String
  passwordHash : Option String
  status : AdminStatus
  adminType : AdminType
  tenantScope : Option String
  profile : AdminProfile
  createdBy : Option String
  updatedBy : Option String
  deletedAt : Option Int
  deriving DecidableEq, Repr

structure Role where
  id : String
  tenantId : Option String
  name : String
  isSystem : Bool
  deriving DecidableEq, Repr

/-- A role grant (`AdminRole`). -/
structure AdminRole where
  adminId : String
  roleId : String
  tenantId : Option String
  grantedBy : Option String
  expiresAt : Option Int
  deriving DecidableEq, Repr

/-- What the administration keeps; `tenants` are the ids of the live tenants. -/
structure AdminDb where
  admins : List Admin
  roles : List Role
  grants : List AdminRole
  tenants : List String
  now : Int
  deriving DecidableEq, Repr

/-- A row that the soft-delete filter lets through. -/
def Admin.live (a : Admin) : Bool := a.deletedAt = none

/-- `{ adminType: 'super', status: 'active' }`, not deleted. -/
def Admin.activeSuper (a : Admin) : Bool :=
  a.live && a.adminType = .super && a.status = .active

/-- The `$set` of an update; what is `none` is not set. -/
structure AdminSet where
  adminType : Option AdminType := none
  status : Option AdminStatus := none
  tenantScope : Option (Option String) := none
  name : Option String := none
  locale : Option String := none
  timezone : Option String := none
  avatarUrl : Option (Option String) := none
  updatedBy : Option (Option String) := none
  deriving DecidableEq, Repr

namespace AdminSet

def apply (set : AdminSet) (a : Admin) : Admin :=
  { a with
    adminType := set.adminType.getD a.adminType
    status := set.status.getD a.status
    tenantScope := set.tenantScope.getD a.tenantScope
    profile :=
      { name := set.name.getD a.profile.name
        locale := set.locale.getD a.profile.locale
        timezone := set.timezone.getD a.profile.timezone
        avatarUrl := set.avatarUrl.getD a.profile.avatarUrl }
    updatedBy := set.updatedBy.getD a.updatedBy }

/-- `Object.keys(set).length === 0`, for the set of a request (which has no `updatedBy`). -/
def isEmpty (set : AdminSet) : Bool :=
  set.adminType.isNone && set.status.isNone && set.tenantScope.isNone && set.name.isNone &&
    set.locale.isNone && set.timezone.isNone && set.avatarUrl.isNone

/-- `...(by ? { updatedBy: by } : {})`. -/
def stamped (set : AdminSet) (actor : Option String) : AdminSet :=
  match actor with
  | some id => if id = "" then set else { set with updatedBy := some (some id) }
  | none => set

/-- The admin still has the type and the status that the set wrote. -/
def written (set : AdminSet) (a : Admin) : Bool :=
  set.adminType.all (· = a.adminType) && set.status.all (· = a.status)

/-- The set that puts back what `target` had, key by key. -/
def undoing (set : AdminSet) (target : Admin) : AdminSet where
  adminType := set.adminType.map fun _ => target.adminType
  status := set.status.map fun _ => target.status
  tenantScope := set.tenantScope.map fun _ => target.tenantScope
  name := set.name.map fun _ => target.profile.name
  locale := set.locale.map fun _ => target.profile.locale
  timezone := set.timezone.map fun _ => target.profile.timezone
  avatarUrl := set.avatarUrl.map fun _ => target.profile.avatarUrl

end AdminSet

/-- The atomic steps of the administration. -/
inductive AdminLabel where
  | look
  | patch (id : String) (set : AdminSet)
  | demote (id : String) (set : AdminSet)
  | recount
  | undo (id : String) (set undoing : AdminSet)
  | insert (admin : Admin)
  | grant (row : AdminRole)
  | ungrant (adminId roleId : String) (tenantId : Option String)
  deriving DecidableEq, Repr

/-- `findOneAndUpdate({ _id: id, deletedAt: null, ...match }, { $set: set })`. -/
def AdminDb.updateWhere (db : AdminDb) (id : String) (expect : Admin → Bool) (set : AdminSet) :
    AdminDb :=
  { db with
    admins := db.admins.map fun a =>
      if a.id = id && a.live && expect a then set.apply a else a }

def AdminDb.findWhere (db : AdminDb) (id : String) (expect : Admin → Bool) : Option Admin :=
  db.admins.find? fun a => a.id = id && a.live && expect a

/-- `findById`. -/
def AdminDb.findById (db : AdminDb) (id : String) : Option Admin := db.findWhere id fun _ => true

/-- `countActiveSupers`. -/
def AdminDb.countActiveSupers (db : AdminDb) : Nat := db.admins.countP Admin.activeSuper

def AdminRole.sameGrant (g : AdminRole) (adminId roleId : String) (tenantId : Option String) :
    Bool :=
  g.adminId = adminId && g.roleId = roleId && g.tenantId = tenantId

/-- `_id` and `email` are unique, over deleted rows too. -/
def AdminDb.taken (db : AdminDb) (admin : Admin) : Bool :=
  db.admins.any fun a => a.id = admin.id || a.email = admin.email

/-- What a step does to the store. -/
def AdminLabel.act : AdminLabel → AdminDb → AdminDb
  | look, db => db
  | patch id set, db => db.updateWhere id (fun _ => true) set
  | demote id set, db => db.updateWhere id Admin.activeSuper set
  | recount, db => db
  | undo id set undoing, db => db.updateWhere id set.written undoing
  | insert admin, db => if db.taken admin then db else { db with admins := db.admins ++ [admin] }
  | grant row, db =>
      if db.grants.any fun g => g.sameGrant row.adminId row.roleId row.tenantId then db
      else { db with grants := db.grants ++ [row] }
  | ungrant adminId roleId tenantId, db =>
      { db with grants := db.grants.filter fun g => !g.sameGrant adminId roleId tenantId }

abbrev AdminProg := Prog AdminLabel AdminDb

/-! ## The repository -/

def look {A : Type} (f : AdminDb → A) : AdminProg A := Prog.read .look f

def write {A : Type} (label : AdminLabel) (report : AdminDb → A) : AdminProg A :=
  Prog.update label label.act report

/-- `update`, `suspend` and `restore` of the repository; returns the updated admin. -/
def patchAdmin (id : String) (set : AdminSet) : AdminProg (Option Admin) :=
  write (.patch id set) fun db => (db.findById id).map set.apply

/-- `updateIfMatch` from an active super admin. -/
def demoteIfActiveSuper (id : String) (set : AdminSet) : AdminProg (Option Admin) :=
  write (.demote id set) fun db => (db.findWhere id Admin.activeSuper).map set.apply

/-- `updateIfMatch` while the admin is as `set` left it. -/
def undoIfWritten (id : String) (set undoing : AdminSet) : AdminProg (Option Admin) :=
  write (.undo id set undoing) fun db => (db.findWhere id set.written).map undoing.apply

/-- `create`: false when a unique index refuses the row. -/
def insertAdmin (admin : Admin) : AdminProg Bool :=
  write (.insert admin) fun db => !db.taken admin

/-- A grant that has not lapsed. -/
def AdminRole.liveAt (g : AdminRole) (now : Int) : Bool := g.expiresAt.all (now < ·)

/-- `countActiveSupersHoldingRoles`: two reads. -/
def countActiveSupersHoldingRoles (roleIds : List String) : AdminProg Nat :=
  if roleIds.isEmpty then pure 0
  else do
    let adminIds ← look fun db =>
      (db.grants.filter fun g =>
        roleIds.contains g.roleId && g.tenantId = none && g.liveAt db.now).map AdminRole.adminId
    if adminIds.isEmpty then return 0
    look fun db => db.admins.countP fun a => a.activeSuper && adminIds.contains a.id

/-! ## Platform roles -/

/-- An entry of `PLATFORM_ROLES`: the name of the role and the type it is for. -/
structure PlatformRole where
  name : String
  adminType : AdminType
  deriving DecidableEq, Repr

/-- `PLATFORM_ROLE_NAMES.SUPER`. -/
def superRoleName : String := "super_admin"

def platformRoles : List PlatformRole :=
  [{ name := superRoleName, adminType := .super },
    { name := "platform_admin", adminType := .platform },
    { name := "support_operator", adminType := .support },
    { name := "auditor", adminType := .auditor }]

/-- `findPlatformRole`. -/
def findPlatformRole (name : String) : Option PlatformRole :=
  platformRoles.find? fun r => r.name = name

/-- The definition of a role row that is one of the built-in platform roles
(`isBuiltInPlatformRole`). -/
def Role.builtIn (role : Role) : Option PlatformRole :=
  if role.tenantId = none && role.isSystem then findPlatformRole role.name else none

/-- `isSuperAdminRole`. -/
def Role.isSuperAdmin (role : Role) : Bool :=
  role.tenantId = none && (role.name = superRoleName || role.name = "super" && role.isSystem)

def findRole (id : String) : AdminProg (Option Role) :=
  look fun db => db.roles.find? fun r => r.id = id

/-- `findByName` among the platform roles. -/
def findRoleByName (name : String) : AdminProg (Option Role) :=
  look fun db => db.roles.find? fun r => r.tenantId = none && r.name = name

/-- `superAdminRoleIds`. -/
def superAdminRoleIds : AdminProg (List String) := do
  let builtIn ← findRoleByName superRoleName
  let legacy ← findRoleByName "super"
  return ([builtIn, legacy].filterMap id).filter Role.isSuperAdmin |>.map Role.id

end AnalyticsBackend.Platform
