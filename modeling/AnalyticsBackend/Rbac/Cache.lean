import AnalyticsBackend.Lib.Interleaving
import AnalyticsBackend.Lib.Js

/-!
# The cache of effective permissions

`services/rbac.cache.service.js` with the resolutions it stores: `resolvePermissionsForActor` of
`repositories/permission.repository.js`, `resolveRolesForActor` of `repositories/role.repository.js`
and `findEarliestGrantExpiry` of `repositories/roleGrant.repository.js`. The operations of the cache
are atomic and do not fail; the branches for failures are left out.
-/

namespace AnalyticsBackend.Rbac
open Lib System

/-! ## The collections -/

/-- A row of `AdminRole` or `UserRole`. -/
structure RoleGrant where
  id : String
  actorId : String
  tenantId : Option String
  roleId : String
  expiresAt : Option Int
  deriving DecidableEq, Repr

structure RolePermission where
  roleId : String
  permissionId : String
  deriving DecidableEq, Repr

structure Permission where
  id : String
  key : String
  deriving DecidableEq, Repr

structure Role where
  id : String
  name : String
  deriving DecidableEq, Repr

/-- The rows that are not soft-deleted. -/
structure RbacRows where
  adminRoles : List RoleGrant
  userRoles : List RoleGrant
  rolePermissions : List RolePermission
  permissions : List Permission
  roles : List Role
  deriving DecidableEq, Repr

inductive ActorType where
  | admin
  | user
  deriving DecidableEq, Repr

def RbacRows.grants (rows : RbacRows) : ActorType → List RoleGrant
  | .admin => rows.adminRoles
  | .user => rows.userRoles

def RbacRows.allGrants (rows : RbacRows) : List RoleGrant := rows.adminRoles ++ rows.userRoles

/-- The rows without some of the grants. -/
def RbacRows.withoutGrants (gone : RoleGrant → Bool) (rows : RbacRows) : RbacRows :=
  { rows with
    adminRoles := rows.adminRoles.filter fun g => !gone g
    userRoles := rows.userRoles.filter fun g => !gone g }

/-! ## The cache -/

def rbacCacheTtlSec : Int := 60

def platformScope : String := "platform"

/-- `scopeLabel`. -/
def scopeLabel (tenantId : Option String) : String := tenantId.getD platformScope

/-- `GLOBAL_VERSION_KEY` and `scopeVersionKey`. -/
inductive VersionKey where
  | global
  | scope (label : String)
  deriving DecidableEq, Repr

/-- What is cached under the key of an actor. -/
inductive CacheKind where
  | perms
  | roles
  deriving DecidableEq, Repr

/-- `actorKey`; ids and labels have no colon, so that its text and its parts are as good. -/
structure ActorKey where
  scope : String
  scopeVersion : Nat
  platformVersion : Option Nat
  globalVersion : Nat
  kind : CacheKind
  actorType : ActorType
  actorId : String
  deriving DecidableEq, Repr

structure Envelope where
  v : List String
  exp : Option Int
  deriving DecidableEq, Repr

/-- The rows, the version counters and the actor entries with the time at which they lapse.
`drawnGrants` are the ids of grants drawn so far; no code reads it. -/
structure RbacDb where
  clock : Int
  rows : RbacRows
  versions : VersionKey → Nat
  entries : ActorKey → Option (Envelope × Int)
  drawnGrants : List String

/-- `cache.get` of an actor key. -/
def RbacDb.cached (key : ActorKey) (db : RbacDb) : Option Envelope :=
  match db.entries key with
  | some (envelope, lapses) => if lapses ≤ db.clock then none else some envelope
  | none => none

/-- The label of an atomic step. -/
inductive RbacLabel where
  | look
  | change (target : VersionKey) (f : RbacRows → RbacRows)
  | increment (target : VersionKey)
  | set (key : ActorKey) (envelope : Envelope) (ttlSec : Int)

/-- What a step does. -/
def RbacLabel.act : RbacLabel → RbacDb → RbacDb
  | .look, db => db
  | .change _ f, db =>
      { db with
        rows := f db.rows
        drawnGrants := (f db.rows).allGrants.map RoleGrant.id ++ db.drawnGrants }
  | .increment target, db =>
      { db with versions := Function.update db.versions target (db.versions target + 1) }
  | .set key envelope ttlSec, db =>
      { db with
        entries := Function.update db.entries key (some (envelope, db.clock + ttlSec * 1000)) }

abbrev RbacProg := Prog RbacLabel RbacDb

/-- A read. -/
def look {A : Type} (f : RbacDb → A) : RbacProg A := Prog.update .look RbacLabel.look.act f

def write (label : RbacLabel) : RbacProg Unit := Prog.update label label.act fun _ => ()

/-! ## Resolution -/

/-- The options of `resolve`; the live resolution goes with the kind. -/
structure RbacRequest where
  kind : CacheKind
  tenantId : Option String
  actorType : ActorType
  actorId : String
  deriving DecidableEq, Repr

/-- `adminGrantTenantFilter`: the tenants of the grants of an administrator. -/
def adminGrantTenantFilter (scope : Option String) : List (Option String) :=
  match scope with
  | some id => if id.isEmpty then [none] else [none, some id]
  | none => [none]

namespace RbacRequest

def sees (request : RbacRequest) (g : RoleGrant) : Bool :=
  match request.actorType with
  | .admin => g.actorId = request.actorId && (adminGrantTenantFilter request.tenantId).contains g.tenantId
  | .user => g.tenantId = request.tenantId && g.actorId = request.actorId

/-- The grants of the actor that are live at a time. -/
def live (request : RbacRequest) (now : Int) (rows : RbacRows) : List RoleGrant :=
  (rows.grants request.actorType).filter fun g => request.sees g && g.expiresAt.all (now < ·)

def earliestExpiry (request : RbacRequest) (now : Int) (rows : RbacRows) : Option Int :=
  (((rows.grants request.actorType).filter request.sees).filterMap fun g =>
    g.expiresAt.filter (now < ·)).min?

/-- `findEarliestGrantExpiry`. -/
def findEarliestGrantExpiry (request : RbacRequest) : RbacProg (Option Int) := do
  let now ← look RbacDb.clock
  look fun db => request.earliestExpiry now db.rows

/-- The rows of `RolePermission` for some roles, as the permissions they join. -/
def joinedPermissions (roleIds : List String) (rows : RbacRows) : List String :=
  (rows.rolePermissions.filter fun join => roleIds.contains join.roleId).map RolePermission.permissionId

def permissionKeys (permissionIds : List String) (rows : RbacRows) : List String :=
  (rows.permissions.filter fun p => permissionIds.contains p.id).map Permission.key

def roleNames (roleIds : List String) (rows : RbacRows) : List String :=
  (rows.roles.filter fun role => roleIds.contains role.id).map Role.name

def sortedSet (names : List String) : List String := sortStrings names.dedup

/-- `resolvePermissionsForActor`, sorted. -/
def resolvePermissionsForActor (request : RbacRequest) : RbacProg (List String) := do
  let now ← look RbacDb.clock
  let roleIds ← look fun db => (request.live now db.rows).map RoleGrant.roleId
  if roleIds.isEmpty then return sortedSet []
  else do
    let joins ← look fun db => joinedPermissions roleIds db.rows
    if joins.isEmpty then return sortedSet []
    else do
      let keys ← look fun db => permissionKeys joins db.rows
      return sortedSet keys

/-- `resolveRolesForActor`, sorted. -/
def resolveRolesForActor (request : RbacRequest) : RbacProg (List String) := do
  let now ← look RbacDb.clock
  let roleIds ← look fun db => (request.live now db.rows).map RoleGrant.roleId
  if roleIds.isEmpty then return sortedSet []
  else do
    let names ← look fun db => roleNames roleIds db.rows
    return sortedSet names

def fn (request : RbacRequest) : RbacProg (List String) :=
  match request.kind with
  | .perms => request.resolvePermissionsForActor
  | .roles => request.resolveRolesForActor

/-- `dependsOnPlatform`. -/
def dependsOnPlatform (request : RbacRequest) : Bool :=
  request.actorType = .admin && scopeLabel request.tenantId ≠ platformScope

end RbacRequest

/-- The versions that the key of an actor embeds. -/
structure Versions where
  global : Nat
  scope : Nat
  platform : Option Nat
  deriving DecidableEq, Repr

/-- `currentVersions`, the global one and that of the scope. -/
def currentVersions (scope : String) : RbacProg (Nat × Nat) := do
  let global ← look fun db => db.versions .global
  let version ← look fun db => db.versions (.scope scope)
  return (global, version)

namespace RbacRequest

def readVersions (request : RbacRequest) : RbacProg Versions := do
  let (global, scope) ← currentVersions (scopeLabel request.tenantId)
  if request.dependsOnPlatform then do
    let (_, platform) ← currentVersions platformScope
    return { global, scope, platform := some platform }
  else return { global, scope, platform := none }

def key (request : RbacRequest) (versions : Versions) : ActorKey where
  scope := scopeLabel request.tenantId
  scopeVersion := versions.scope
  platformVersion := versions.platform
  globalVersion := versions.global
  kind := request.kind
  actorType := request.actorType
  actorId := request.actorId

/-- Whether an entry may be served: it is there, and it has not expired. -/
def mayServe (hit : Option Envelope) : RbacProg (Option (List String)) :=
  match hit with
  | none => return none
  | some { v, exp := none } => return some v
  | some { v, exp := some exp } => do
      let now ← look RbacDb.clock
      return if now < exp then some v else none

/-- The time to live of an entry, in seconds. -/
def ttlSec (now : Int) : Option Int → Int
  | none => rbacCacheTtlSec
  | some exp => min rbacCacheTtlSec ((exp - now) / 1000)

def resolveMiss (request : RbacRequest) (key : ActorKey) : RbacProg (List String) := do
  let exp ← request.findEarliestGrantExpiry
  let v ← request.fn
  let now ← look RbacDb.clock
  if 1 ≤ ttlSec now exp then do
    write (.set key { v, exp } (ttlSec now exp))
    return v
  else return v

def resolve (request : RbacRequest) : RbacProg (List String) := do
  let versions ← request.readVersions
  let hit ← look (RbacDb.cached (request.key versions))
  let served ← mayServe hit
  match served with
  | some v => return v
  | none => request.resolveMiss (request.key versions)

end RbacRequest

/-! ## Writes -/

/-- `invalidateScope` of a tenant or the platform, or `invalidateAll`. -/
inductive Invalidation where
  | scope (tenantId : Option String)
  | all
  deriving DecidableEq, Repr

def Invalidation.versionKey : Invalidation → VersionKey
  | .scope tenantId => .scope (scopeLabel tenantId)
  | .all => .global

/-- An RBAC write: its stored changes, and the invalidation after them. -/
structure RbacWrite where
  changes : List (RbacRows → RbacRows)
  invalidation : Invalidation

def storeAndInvalidate (invalidation : Invalidation) : List (RbacRows → RbacRows) → RbacProg Unit
  | [] => write (.increment invalidation.versionKey)
  | f :: rest => do
      write (.change invalidation.versionKey f)
      storeAndInvalidate invalidation rest

def RbacWrite.program (w : RbacWrite) : RbacProg Unit := storeAndInvalidate w.invalidation w.changes

/-- The change of a scope leaves the rows of the other scopes and the permissions as they are.
`home` is the label of the scope that a role belongs to. -/
structure OfScope (home : String → String) (label : String) (rows rows' : RbacRows) : Prop where
  adminRoles : rows'.adminRoles.filter (scopeLabel ·.tenantId ≠ label) =
    rows.adminRoles.filter (scopeLabel ·.tenantId ≠ label)
  userRoles : rows'.userRoles.filter (scopeLabel ·.tenantId ≠ label) =
    rows.userRoles.filter (scopeLabel ·.tenantId ≠ label)
  rolePermissions : rows'.rolePermissions.filter (home ·.roleId ≠ label) =
    rows.rolePermissions.filter (home ·.roleId ≠ label)
  roles : rows'.roles.filter (home ·.id ≠ label) = rows.roles.filter (home ·.id ≠ label)
  permissions : rows'.permissions = rows.permissions

/-- A change goes with the counter that is incremented after it. -/
def Targeted (home : String → String) (target : VersionKey) (f : RbacRows → RbacRows) : Prop :=
  match target with
  | .global => True
  | .scope label => ∀ rows, OfScope home label rows (f rows)

/-- Users hold roles of their tenant, administrators hold platform roles. -/
structure RolesAtHome (home : String → String) (rows : RbacRows) : Prop where
  adminRoles : ∀ g ∈ rows.adminRoles, home g.roleId = platformScope
  userRoles : ∀ g ∈ rows.userRoles, home g.roleId = scopeLabel g.tenantId

/-- A change grants under ids that were never drawn before, and grants no role outside its home. -/
def RbacAllowed (home : String → String) (label : RbacLabel) (db db' : RbacDb) : Prop :=
  match label with
  | .change _ _ => (∀ g ∈ db'.rows.adminRoles, g ∈ db.rows.adminRoles ∨ g.id ∉ db.drawnGrants) ∧
      (∀ g ∈ db'.rows.userRoles, g ∈ db.rows.userRoles ∨ g.id ∉ db.drawnGrants) ∧
      RolesAtHome home db'.rows
  | _ => True

instance (home : String → String) (rows : RbacRows) : Decidable (RolesAtHome home rows) :=
  decidable_of_iff ((∀ g ∈ rows.adminRoles, home g.roleId = platformScope) ∧
    ∀ g ∈ rows.userRoles, home g.roleId = scopeLabel g.tenantId)
    ⟨fun h => ⟨h.1, h.2⟩, fun h => ⟨h.adminRoles, h.userRoles⟩⟩

instance (home : String → String) (label : RbacLabel) (db db' : RbacDb) :
    Decidable (RbacAllowed home label db db') :=
  match label with
  | .change _ _ => inferInstanceAs (Decidable (_ ∧ _ ∧ _))
  | .look | .increment _ | .set _ _ _ => isTrue trivial

/-- What a process answers. -/
inductive RbacAnswer where
  | resolved (request : RbacRequest) (v : List String)
  | written
  deriving DecidableEq, Repr

/-- Any number of resolutions and of writes. From outside the clock goes on, and the index on
`expiresAt` removes grants that have lapsed. No tenant has the label of the platform as its id. -/
def rbacSystem (home : String → String) : System Nat RbacLabel RbacDb RbacAnswer where
  start := fun _ p =>
    (∃ request : RbacRequest, request.tenantId ≠ some platformScope ∧
      p = request.resolve >>= fun v => pure (.resolved request v)) ∨
    ∃ w : RbacWrite, (∀ f ∈ w.changes, Targeted home w.invalidation.versionKey f) ∧
      p = w.program >>= fun _ => pure .written
  env := fun db db' => db.clock ≤ db'.clock ∧ ∃ lapsed : RoleGrant → Bool,
    (∀ g, lapsed g = true → g.expiresAt.any (· ≤ db.clock) = true) ∧
      db' = { db with clock := db'.clock, rows := db.rows.withoutGrants lapsed }
  ok := RbacAllowed home

instance (home : String → String) (label : RbacLabel) (db db' : RbacDb) :
    Decidable ((rbacSystem home).ok label db db') :=
  inferInstanceAs (Decidable (RbacAllowed home label db db'))

abbrev RbacEvent := Event Nat RbacLabel RbacDb

abbrev RbacTrace := List RbacEvent

abbrev RbacWorld := World Nat RbacLabel RbacDb

end AnalyticsBackend.Rbac
