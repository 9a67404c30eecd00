import Mathlib.Tactic.Common

/-!
# The purge registry

`services/tenantPurge.registry.js`: every collection that can hold data of a workspace and what a
purge does with it, in the order in which a purge walks it. The labels of the retention policies are
left out.
-/

namespace AnalyticsBackend.Tenancy

/-- The `status` of a workspace. -/
inductive TenantStatus where
  | pending
  | active
  | suspended
  | disabled
  | archived
  deriving DecidableEq, Repr

def TenantStatus.text : TenantStatus → String
  | pending => "pending"
  | active => "active"
  | suspended => "suspended"
  | disabled => "disabled"
  | archived => "archived"

inductive Model where
  | session | apiKey | embedToken | passwordResetToken | emailVerificationToken | loginAttempt
  | tenantInvitation | accessRequest | adminRole
  | connectorRow | syncRun | connector | widget | dashboard | report | alertEvent | alertRule
  | analyticsQuery | notification | auditExport | tenantExport | setting | outboundEmail
  | supportAccessGrant | supportImpersonation | securityAlert | securitySignal | datasetAccess
  | rowPolicy | datasetSchema | aiConsent | aiQuestion | apiKeyUsage | deliveryDestination
  | deliveryRun | deliveryUnsubscribe | embedConfig | insight | metricDefinition
  | notificationPreference
  | usageCounter | usageReservation | entitlementOverride | subscription
  | userRole | rolePermission | role | user
  | featureFlag | jobLock
  | auditLog | accessLog | complianceLog | paymentTransaction | subscriptionHistory | webhookEvent
  | tenant
  deriving DecidableEq, Repr

/-- A raw document, with the fields that the filters and the lifecycle read; a field that a model
does not have is `none`. `tenantId` is stored as text, `tenantObjectId` as an `ObjectId`. -/
structure Document where
  id : String
  tenantId : Option String := none
  tenantObjectId : Option String := none
  roleId : Option String := none
  subjectId : Option String := none
  rolloutTenantIds : List String := []
  status : Option TenantStatus := none
  archivedAt : Option Int := none
  deriving DecidableEq, Repr

/-- The context of a purge; an `ObjectId` is its text. -/
structure PurgeContext where
  tenantId : String
  userIds : List String
  roleIds : List String
  deriving DecidableEq, Repr

/-- `purgeConfig`. -/
structure PurgeConfig where
  retainAuditLogs : Bool
  retainBillingRecords : Bool
  deriving DecidableEq, Repr

/-- What is done with the documents of an entry; `retain` is a `delete` where `when` fails. -/
inductive PurgeMode where
  | delete
  | detach (update : PurgeContext → Document → Document)
  | retain (when : PurgeConfig → Bool)

structure PurgeEntry where
  model : Model
  mode : PurgeMode
  filter : PurgeContext → Document → Bool

/-- Whether the documents of the entry are kept. -/
def PurgeEntry.keeps (config : PurgeConfig) (entry : PurgeEntry) : Bool :=
  match entry.mode with
  | .retain when => when config
  | _ => false

def byTenant (ctx : PurgeContext) (d : Document) : Bool := d.tenantId = some ctx.tenantId

def deleteByTenant (model : Model) : PurgeEntry := { model, mode := .delete, filter := byTenant }

def purgeRegistry : List PurgeEntry :=
  -- Access first.
  [deleteByTenant .session,
    deleteByTenant .apiKey,
    deleteByTenant .embedToken,
    deleteByTenant .passwordResetToken,
    deleteByTenant .emailVerificationToken,
    deleteByTenant .loginAttempt,
    deleteByTenant .tenantInvitation,
    deleteByTenant .accessRequest,
    deleteByTenant .adminRole,
    -- Data and content.
    deleteByTenant .connectorRow,
    deleteByTenant .syncRun,
    deleteByTenant .connector,
    deleteByTenant .widget,
    deleteByTenant .dashboard,
    deleteByTenant .report,
    deleteByTenant .alertEvent,
    deleteByTenant .alertRule,
    deleteByTenant .analyticsQuery,
    deleteByTenant .notification,
    deleteByTenant .auditExport,
    deleteByTenant .tenantExport,
    deleteByTenant .setting,
    deleteByTenant .outboundEmail,
    deleteByTenant .supportAccessGrant,
    deleteByTenant .supportImpersonation,
    deleteByTenant .securityAlert,
    deleteByTenant .securitySignal,
    deleteByTenant .datasetAccess,
    deleteByTenant .rowPolicy,
    deleteByTenant .datasetSchema,
    deleteByTenant .aiConsent,
    deleteByTenant .aiQuestion,
    deleteByTenant .apiKeyUsage,
    deleteByTenant .deliveryDestination,
    deleteByTenant .deliveryRun,
    deleteByTenant .deliveryUnsubscribe,
    deleteByTenant .embedConfig,
    deleteByTenant .insight,
    deleteByTenant .metricDefinition,
    deleteByTenant .notificationPreference,
    -- Usage and entitlements.
    deleteByTenant .usageCounter,
    deleteByTenant .usageReservation,
    deleteByTenant .entitlementOverride,
    deleteByTenant .subscription,
    -- Identity: grants, then roles, then accounts.
    deleteByTenant .userRole,
    { model := .rolePermission, mode := .delete
      filter := fun ctx d => d.roleId.any ctx.roleIds.contains },
    deleteByTenant .role,
    deleteByTenant .user,
    -- Shared documents that mention the tenant.
    { model := .featureFlag
      mode := .detach fun ctx d =>
        { d with rolloutTenantIds := d.rolloutTenantIds.filter (· ≠ ctx.tenantId) }
      filter := fun ctx d => d.rolloutTenantIds.contains ctx.tenantId },
    { model := .jobLock, mode := .delete
      filter := fun ctx d => d.id = "tenant-members:" ++ ctx.tenantId },
    -- Kept under a retention policy.
    { model := .auditLog, mode := .retain PurgeConfig.retainAuditLogs, filter := byTenant },
    { model := .accessLog, mode := .retain PurgeConfig.retainAuditLogs, filter := byTenant },
    { model := .complianceLog, mode := .retain fun _ => true
      filter := fun ctx d => d.subjectId.any (ctx.tenantId :: ctx.userIds).contains },
    { model := .paymentTransaction, mode := .retain PurgeConfig.retainBillingRecords
      filter := byTenant },
    { model := .subscriptionHistory, mode := .retain PurgeConfig.retainBillingRecords
      filter := byTenant },
    { model := .webhookEvent, mode := .retain PurgeConfig.retainBillingRecords
      filter := fun ctx d => d.tenantObjectId = some ctx.tenantId },
    -- The workspace record itself, last.
    { model := .tenant, mode := .delete, filter := fun ctx d => d.id = ctx.tenantId }]

def storagePrefixes (tenantId : String) : List String :=
  [s!"reports/{tenantId}/", s!"audit/exports/{tenantId}/", s!"access-logs/exports/{tenantId}/",
    s!"exports/{tenantId}/", s!"tenant-exports/{tenantId}/"]

end AnalyticsBackend.Tenancy
