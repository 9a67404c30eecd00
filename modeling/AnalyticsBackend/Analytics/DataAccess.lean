import AnalyticsBackend.ApiError
import AnalyticsBackend.Analytics.Filter

/-!
# Dataset grants and row-level security

`services/dataAccess.service.js`: the access scope of an actor, the extra match of the raw row
listings (`rowListMatch`), the check of a query's datasets (`assertQueryable`) and the rule
fields that `addRowPolicy` accepts.
-/

namespace AnalyticsBackend.Analytics

open Lib Lib.Mongo

/-! ## Identifiers and rule fields -/

/-- A dataset id as the access settings store it: the text that was given. -/
structure DatasetId where
  text : String
  hex : isHexId text = true
  deriving DecidableEq

def DatasetId.objectId (d : DatasetId) : ObjectId := ObjectId.ofHex d.text

def isNameStart (c : Char) : Bool := ('A' ≤ c ∧ c ≤ 'Z') ∨ ('a' ≤ c ∧ c ≤ 'z') ∨ c = '_'

def isNameRest (c : Char) : Bool := isNameStart c || c.isDigit || c = '.' || c = '-'

/-- `SAFE_NAME_RE`: a letter or `_`, then at most 127 letters, digits, `_`, `.` and `-`. -/
def isSafeRuleName (s : String) : Bool :=
  match s.toList with
  | [] => false
  | c :: rest => isNameStart c && rest.all isNameRest && rest.length ≤ 127

def RESERVED_FIELDS : List String := ["tenantId", "connectorId", "sourceRowId", "ingestedAt"]

/-- The fields `addRowPolicy` accepts. -/
structure RuleField where
  name : String
  safe : isSafeRuleName name = true
  unreserved : name ∉ RESERVED_FIELDS

theorem RuleField.dataPath (f : RuleField) :
    dataPath f.name = "data" :: splitDots f.name := by
  have out : f.name ∉ TOP_LEVEL_FIELDS := by
    have := f.unreserved
    simp only [RESERVED_FIELDS, TOP_LEVEL_FIELDS, List.mem_cons, List.not_mem_nil, or_false,
      not_or] at this ⊢
    tauto
  simp [Analytics.dataPath, out]

inductive RowPolicyOp where
  | eq
  | isIn
  deriving DecidableEq, Repr

/-! ## Stored settings -/

inductive GrantLevel where
  | view
  | query
  | manage
  deriving DecidableEq, Repr

inductive GrantSubject where
  | user
  | role
  deriving DecidableEq, Repr

structure Grant where
  subjectType : GrantSubject
  subjectId : String
  level : GrantLevel
  deriving DecidableEq, Repr

def GrantLevel.queries : GrantLevel → Bool
  | .view => false
  | .query | .manage => true

structure DatasetAccess where
  tenantId : String
  connectorId : DatasetId
  restricted : Bool
  grants : List Grant

structure RowPolicy where
  tenantId : String
  connectorId : DatasetId
  field : RuleField
  op : RowPolicyOp
  attributeName : String
  enabled : Bool

structure Member where
  id : ObjectId
  tenantId : String
  active : Bool
  attributes : List (String × Js)

structure UserRole where
  tenantId : String
  userId : String
  roleId : String
  expiresAt : Option Int

/-- The stored settings a scope is resolved from, at one moment. `permissions` is
`permissionService.resolveActorPermissions`; `localeLe` is the order of `localeCompare`. -/
structure Directory where
  datasetAccess : List DatasetAccess
  rowPolicies : List RowPolicy
  members : List Member
  userRoles : List UserRole
  permissions : String → String → List String
  localeLe : String → String → Bool
  now : Int

/-- Who a query runs for; `other` is an identity without data access of its own. -/
inductive DataActor where
  | admin
  | user (id : String)
  | other
  deriving DecidableEq, Repr

/-! ## Scopes -/

/-- One row rule of a scope, with the actor's attribute values. -/
inductive RuleTest where
  | eq (value : String)
  | isIn (values : List String)

structure Rule where
  field : RuleField
  test : RuleTest

/-- The rule as a filter of the engine. -/
def Rule.filter (r : Rule) : Filter :=
  { field := r.field.name
    test :=
      match r.test with
      | .eq value => .eq (.str value)
      | .isIn values => .isIn (values.map .str) }

/-- What a scope says of the rows of one dataset. -/
inductive RowRule where
  | none
  | filters (rules : List Rule)

structure RowScope where
  connectorId : DatasetId
  rule : RowRule

/-- A scope made by this service. Its row scopes are of different dataset ids. -/
structure AccessScope where
  bypass : Bool
  denied : List DatasetId
  hidden : List DatasetId
  rowScopes : List RowScope
  distinct : (rowScopes.map RowScope.connectorId).Nodup

namespace AccessScope

/-- `makeScope({ bypass: true })`. -/
def unrestricted : AccessScope :=
  { bypass := true, denied := [], hidden := [], rowScopes := [], distinct := List.nodup_nil }

/-- `makeScope({})`. -/
def empty : AccessScope :=
  { bypass := false, denied := [], hidden := [], rowScopes := [], distinct := List.nodup_nil }

end AccessScope

/-! ## Resolving a scope -/

/-- Attribute values as a clean string list. -/
def attributeValues (value : Js) : List String :=
  let list :=
    match value with
    | .arr items => items
    | .undefined | .null => []
    | v => [v]
  list.filterMap fun v =>
    match v with
    | .str s => if s.isEmpty then none else some s
    | _ => none

/-- The rules collected for a dataset, and whether one of them admits no row. -/
structure RuleEntry where
  connectorId : DatasetId
  filters : List Rule
  none : Bool

/-- Add what one policy asks of the actor to the entry of its dataset. -/
def RuleEntry.add (attributes : List (String × Js)) (policy : RowPolicy) (entry : RuleEntry) :
    RuleEntry :=
  match attributeValues (field attributes policy.attributeName), policy.op with
  | [], _ => { entry with none := true }
  | [value], .eq =>
      { entry with filters := entry.filters ++ [{ field := policy.field, test := .eq value }] }
  | values, _ =>
      { entry with filters := entry.filters ++ [{ field := policy.field, test := .isIn values }] }

/-- `byConnector.set`: the entries stay in the order in which their datasets came up. -/
def addPolicy (attributes : List (String × Js)) (policy : RowPolicy) :
    List RuleEntry → List RuleEntry
  | [] => [RuleEntry.add attributes policy
      { connectorId := policy.connectorId, filters := [], none := false }]
  | entry :: rest =>
      if entry.connectorId = policy.connectorId then
        RuleEntry.add attributes policy entry :: rest
      else entry :: addPolicy attributes policy rest

def collectRules (attributes : List (String × Js)) (policies : List RowPolicy) :
    List RuleEntry :=
  policies.foldl (fun entries policy => addPolicy attributes policy entries) []

def RuleEntry.rowScope (e : RuleEntry) : RowScope :=
  { connectorId := e.connectorId, rule := if e.none then .none else .filters e.filters }

@[simp] theorem RuleEntry.add_connectorId (attributes : List (String × Js)) (policy : RowPolicy)
    (entry : RuleEntry) : (entry.add attributes policy).connectorId = entry.connectorId := by
  unfold RuleEntry.add
  split
  · rfl
  · rfl
  · rfl

theorem addPolicy_ids (attributes : List (String × Js)) (policy : RowPolicy)
    (entries : List RuleEntry) :
    (addPolicy attributes policy entries).map RuleEntry.connectorId =
      if policy.connectorId ∈ entries.map RuleEntry.connectorId then
        entries.map RuleEntry.connectorId
      else entries.map RuleEntry.connectorId ++ [policy.connectorId] := by
  induction entries with
  | nil => simp [addPolicy]
  | cons entry rest ih =>
      by_cases h : entry.connectorId = policy.connectorId
      · simp [addPolicy, h]
      · simp only [addPolicy, if_neg h, List.map_cons, List.mem_cons, ih, Ne.symm h, false_or]
        split
        · rfl
        · rfl

theorem collectRules_nodup (attributes : List (String × Js)) (policies : List RowPolicy) :
    ((collectRules attributes policies).map RuleEntry.connectorId).Nodup := by
  have step : ∀ entries : List RuleEntry, (entries.map RuleEntry.connectorId).Nodup →
      ((policies.foldl (fun acc policy => addPolicy attributes policy acc) entries).map
        RuleEntry.connectorId).Nodup := by
    induction policies with
    | nil => exact fun entries h => h
    | cons policy rest ih =>
        intro entries h
        apply ih
        rw [addPolicy_ids]
        split
        · exact h
        · rename_i new
          refine List.Nodup.append h (List.nodup_singleton _) ?_
          intro d hd hp
          exact new (List.mem_singleton.mp hp ▸ hd)
  exact step [] List.nodup_nil

/-- `makeScope` of the denied datasets and the collected rules, sorted by dataset id. -/
def makeScope (dir : Directory) (denied hidden : List DatasetId) (attributes : List (String × Js))
    (policies : List RowPolicy) : AccessScope where
  bypass := false
  denied := denied
  hidden := hidden
  rowScopes :=
    ((collectRules attributes policies).mergeSort fun a b =>
      dir.localeLe a.connectorId.text b.connectorId.text).map RuleEntry.rowScope
  distinct := by
    rw [List.map_map]
    have ids : RowScope.connectorId ∘ RuleEntry.rowScope = RuleEntry.connectorId := rfl
    rw [ids]
    exact ((List.mergeSort_perm _ _).map _).nodup_iff.mpr (collectRules_nodup attributes policies)

/-- The active member of the tenant an actor is, if it is one. -/
def findMember (dir : Directory) (tenantId : String) (actor : Option DataActor) :
    Option Member :=
  match actor with
  | some (.user id) =>
      if isHexId id then
        dir.members.find? fun m => m.id = ObjectId.ofHex id ∧ m.tenantId = tenantId ∧ m.active
      else none
  | _ => none

/-- `String(user._id)`. -/
def Member.key (m : Member) : String := m.id.toHex

def memberRoles (dir : Directory) (tenantId : String) (m : Member) : List String :=
  (dir.userRoles.filter fun r => r.tenantId = tenantId ∧ r.userId = m.key ∧
    (r.expiresAt.all fun t => dir.now < t)).map UserRole.roleId

def matchingGrants (member : Option Member) (roleIds : List String) (access : DatasetAccess) :
    List Grant :=
  match member with
  | none => []
  | some m => access.grants.filter fun g =>
      (g.subjectType = .user ∧ g.subjectId = m.key) ∨
      (g.subjectType = .role ∧ roleIds.contains g.subjectId)

def CONFIGURE_PERMISSION : String := "data_access.configure"

/-- The access scope of an actor in a tenant. -/
def resolveAccessScope (dir : Directory) (tenantId : String) (actor : Option DataActor) :
    AccessScope :=
  if actor = some .admin then .unrestricted
  else
    let restricted := dir.datasetAccess.filter fun a => a.tenantId = tenantId ∧ a.restricted
    let policies := dir.rowPolicies.filter fun p => p.tenantId = tenantId ∧ p.enabled
    -- Fast path: nothing is restricted in this workspace.
    if restricted.isEmpty ∧ policies.isEmpty then .empty
    else
      let member := findMember dir tenantId actor
      let configures := member.any fun m =>
        (dir.permissions m.key tenantId).contains CONFIGURE_PERMISSION
      if configures then .unrestricted
      else
        let roleIds := (member.map (memberRoles dir tenantId)).getD []
        let grants := matchingGrants member roleIds
        let denied := (restricted.filter fun a =>
          !(grants a).any fun g => g.level.queries).map DatasetAccess.connectorId
        let hidden := (restricted.filter fun a => (grants a).isEmpty).map DatasetAccess.connectorId
        let attributes := (member.map Member.attributes).getD []
        makeScope dir denied hidden attributes
          (policies.filter fun p => !denied.contains p.connectorId)

/-! ## Using a scope -/

/-- 404 when the scope may not query one of the datasets. -/
def assertQueryable (scope : Option AccessScope) (connectorIds : List String) :
    Except ApiError Unit :=
  match scope with
  | none => .ok ()
  | some s =>
      if s.bypass ∨ s.denied.isEmpty then .ok ()
      else if connectorIds.any fun id => (s.denied.map DatasetId.text).contains id then
        .error (ApiError.notFound "Dataset not found")
      else .ok ()

/-- A match that no row meets: `{ _id: { $in: [] } }`. -/
def noRow : Predicate := .conditions [(["_id"], .oneOf [])]

def Rule.condition (r : Rule) : List String × Condition :=
  ("data" :: splitDots r.field.name,
    match r.test with
    | .isIn values => .oneOf (values.map .str)
    | .eq value => .eq (.str value))

/-- Raw row listings: 404 when the dataset is not queryable, otherwise the extra match the row
rules require. `scope` is the current actor's. -/
def rowListMatch (scope : AccessScope) (connectorId : String) :
    Except ApiError (Option Predicate) := do
  assertQueryable (some scope) [connectorId]
  if scope.bypass then .ok none
  else
    match scope.rowScopes.find? fun s => s.connectorId.text = connectorId with
    | none => .ok none
    | some s =>
        match s.rule with
        | .none => .ok (some noRow)
        | .filters rules => .ok (some (.conditions (rules.map Rule.condition)))

end AnalyticsBackend.Analytics
