import AnalyticsBackend.Billing.TermKept
import AnalyticsBackend.Billing.LateJob
import AnalyticsBackend.Billing.ForwardOnly
import AnalyticsBackend.Billing.AdminHold
import AnalyticsBackend.Usage.HardLimit
import AnalyticsBackend.Usage.Conservation
import AnalyticsBackend.Jobs.LockLease
import AnalyticsBackend.Platform.LastSuper
import AnalyticsBackend.Idempotency.AtMostOnce
import AnalyticsBackend.Email.ClaimLease
import AnalyticsBackend.Audit.Tamper
import AnalyticsBackend.Audit.HonestTrail
import AnalyticsBackend.Connectors.AcceptedOnce
import AnalyticsBackend.Auth.Restricted
import AnalyticsBackend.Auth.SingleUse
import AnalyticsBackend.Rbac.NeverRevoked
import AnalyticsBackend.Tenancy.VerifiedPurge
import AnalyticsBackend.Tenancy.OnlyUnwanted
import AnalyticsBackend.Delivery.NeverStranded
import AnalyticsBackend.Billing.StateGraph
import AnalyticsBackend.Support.AccessEnds
import AnalyticsBackend.Retention.LegalHold
import AnalyticsBackend.Security.OnCall
import AnalyticsBackend.Security.NeverSkips
import AnalyticsBackend.Analytics.SortOrder
import AnalyticsBackend.Reports.Quotas
import AnalyticsBackend.Reports.RunRecords
import AnalyticsBackend.Metrics.Archived
import AnalyticsBackend.Analytics.Limiter
import AnalyticsBackend.Alerts.Incidents
import AnalyticsBackend.Connectors.RowIdentity
import AnalyticsBackend.Archive.Reversible
import AnalyticsBackend.Archive.TarRoundTrip
import AnalyticsBackend.Archive.WellFormed
import AnalyticsBackend.Connectors.Egress
import AnalyticsBackend.Reports.NextFire
import AnalyticsBackend.Connectors.WorkbookStream
import AnalyticsBackend.Connectors.HeaderFields
import AnalyticsBackend.Compliance.SubjectState
import AnalyticsBackend.Flags.TakesEffect
import AnalyticsBackend.Security.NewGrant
import AnalyticsBackend.Analytics.ExportColumns
import AnalyticsBackend.Analytics.FixedPoint
import AnalyticsBackend.Audit.Content
import AnalyticsBackend.Analytics.Artifact
import AnalyticsBackend.Audit.Export
import AnalyticsBackend.Queues.MemoryQueue
