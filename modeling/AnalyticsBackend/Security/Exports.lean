import AnalyticsBackend.Security.Rules
import Mathlib.Data.Rat.Star

/-!
# Exports

`export.unusual_volume` of `services/securityDetection/rules/exports.js`, with the reads of
`repositories/securityDetectionSource.repository.js` that it makes. The `details` of a detection and the
one count that is no whole number are left out; quotients are not rounded.
-/

namespace AnalyticsBackend.Security
open Lib Mongo

/-! ## Rows -/

/-- An `AuditExport`. The filter on `status` has all the statuses that there are. -/
structure AuditExportRow where
  exportId : String
  kind : String
  tenantId : Option String
  requestedBy : Option String
  format : String
  createdAt : Int
  deriving DecidableEq, Repr

/-- The `metadata` or `after` of the event of a grant. -/
structure GrantDetails where
  granteeId : Option String := none
  roleName : Option String := none
  deriving DecidableEq, Repr

/-- A row of the audit log, with what is read of a grant. -/
structure GrantRow where
  id : ObjectId
  module : String
  action : String
  resourceId : Option String
  metadata : Option GrantDetails
  after : Option GrantDetails
  occurredAt : Int
  deriving DecidableEq, Repr

/-- What has happened; none of it is written later than it is read. -/
structure ExportHistory where
  auditExports : List AuditExportRow
  accessLog : List AccessRow
  auditLog : List GrantRow

/-! ## Configuration -/

def DAY_MS : Int := 86400000

structure UnusualExportsConfig where
  enabled : Bool := true
  window : WindowMinutes := ⟨60, by decide⟩
  minExports : Nat := 10
  baselineDays : Nat := 14
  baselineMultiplier : ℚ := 3
  alertOnNewGrant : Bool := true
  newGrantDays : Nat := 7
  pathPrefixes : List String := ["/analytics/export"]
  valid : 1 ≤ minExports ∧ minExports ≤ 1000000 ∧ 1 ≤ baselineDays ∧ baselineDays ≤ 90 ∧
    1 ≤ baselineMultiplier ∧ baselineMultiplier ≤ 1000 ∧ 1 ≤ newGrantDays ∧ newGrantDays ≤ 90 := by
      norm_num

def UnusualExportsConfig.grantMs (config : UnusualExportsConfig) : Int := config.newGrantDays * DAY_MS

namespace unusualExports

/-! ## Reads -/

/-- The filter of `listAuditExports`. -/
def auditFilter (start stop : Int) (row : AuditExportRow) : Bool := inRange start stop row.createdAt

/-- `prefixClauses`. -/
def underPrefix (prefixes : List String) (path : String) : Bool :=
  prefixes.any fun first => first.toList.isPrefixOf path.toList

/-- The filter of `listAccessByPath` for exports. -/
def dataFilter (prefixes : List String) (start stop : Int) (row : AccessRow) : Bool :=
  underPrefix prefixes row.path && inRange start stop row.occurredAt && row.method = "POST" &&
    row.statusCode ≤ 399

section Reads

variable (server : Server) (history : ExportHistory)

/-- `listAuditExports`. -/
def listAuditExports (start stop : Int) : List AuditExportRow :=
  readSorted server DEFAULT_LIMIT AuditExportRow.createdAt (auditFilter start stop) history.auditExports

/-- `listAccessByPath` for exports. -/
def listDataExports (prefixes : List String) (start stop : Int) : List AccessRow :=
  if prefixes = [] then []
  else readSorted server DEFAULT_LIMIT AccessRow.occurredAt (dataFilter prefixes start stop)
    history.accessLog

/-- `countAuditExportsFor`. -/
def countAuditExportsFor (requestedBy : String) (since before : Int) : Nat :=
  history.auditExports.countP fun row =>
    row.requestedBy = some requestedBy && since ≤ row.createdAt && row.createdAt < before

/-- `countAccessForActor` for exports. -/
def countDataExportsFor (actorId : String) (prefixes : List String) (since before : Int) : Nat :=
  history.accessLog.countP fun row =>
    row.actorId = some actorId && since ≤ row.occurredAt && row.occurredAt < before &&
      (prefixes.isEmpty || underPrefix prefixes row.path) && row.method = "POST" &&
      row.statusCode ≤ 399

/-- A grant of a role to someone, in `[since, before)`. -/
def grantFilter (granteeId : String) (since before : Int) (row : GrantRow) : Bool :=
  row.module = "iam.roles" && row.action = "rbac.role.granted" && since ≤ row.occurredAt &&
    row.occurredAt < before &&
    (row.metadata.any (·.granteeId = some granteeId) || row.after.any (·.granteeId = some granteeId) ||
      row.resourceId = some granteeId)

/-- `findLatestAuditEvent` for the grants to someone. -/
def findLatestGrant (granteeId : String) (since before : Int) : Option GrantRow :=
  (((arrange server history.auditLog).filter (grantFilter granteeId since before)).insertionSort
    fun a b => b.occurredAt ≤ a.occurredAt).head?

end Reads

/-! ## Events -/

/-- An export, as `loadExports` has it. -/
structure ExportEvent where
  actorType : ActorType
  actorId : String
  tenantId : Option String
  time : Int
  kind : String
  ref : EvidenceRef
  deriving DecidableEq, Repr

/-- The export of an audit export request; one that nobody has requested is none. -/
def auditEvent (row : AuditExportRow) : Option ExportEvent :=
  (row.requestedBy.bind present).map fun actorId =>
    { actorType := .admin, actorId, tenantId := row.tenantId, time := row.createdAt
      kind := s!"{row.kind}-log export"
      ref :=
        { source := .auditExport, id := some row.exportId, time := some row.createdAt
          label := slice 300 s!"{row.kind} export ({row.format})" } }

/-- The export of a request; one of no known caller is none. -/
def dataEvent (row : AccessRow) : Option ExportEvent :=
  (row.actorId.bind present).map fun actorId =>
    { actorType := row.actorType, actorId, tenantId := row.tenantId, time := row.occurredAt
      kind := authorizationFailures.stripQuery row.path
      ref := Security.ref .accessLog row.id row.occurredAt
        s!"{row.method} {authorizationFailures.stripQuery row.path}" }

variable (config : UnusualExportsConfig) (apiPrefix : String) (server : Server)
  (history : ExportHistory)

def prefixes : List String := config.pathPrefixes.map fun first => apiPrefix ++ first

/-- Every export in `(start, stop]`, oldest first. -/
def loadExports (start stop : Int) : List ExportEvent :=
  ((listAuditExports server history start stop).filterMap auditEvent ++
    (listDataExports server history (prefixes config apiPrefix) start stop).filterMap dataEvent).insertionSort
      fun a b => a.time ≤ b.time

/-- The caller of an export; a type has no colon, so that the key of the group is the pair. -/
def key (e : ExportEvent) : Option (ActorType × String) := some (e.actorType, e.actorId)

/-- `countBaseline`. -/
def countBaseline (caller : ActorType × String) (since before : Int) : Nat :=
  (if caller.1 = .admin then countAuditExportsFor history caller.2 since before else 0) +
    countDataExportsFor history caller.2 (prefixes config apiPrefix) since before

/-- `baselinePerWindow`. -/
def baselinePerWindow (total : Nat) (baselineMs windowMs : Int) : ℚ :=
  total / ((baselineMs : ℚ) / windowMs)

/-- `x.toFixed(2)`, of a number that is not negative. -/
def toFixed2 (x : ℚ) : String :=
  let hundredths := (x * 100 + 1 / 2).floor.toNat
  let cents := hundredths % 100
  s!"{hundredths / 100}.{cents / 10}{cents % 10}"

/-! ## Detections -/

def options (after : Int) (least : Int) : WindowOptions ExportEvent where
  windowMs := config.window.ms
  after := some after
  time := ExportEvent.time
  qualifies := fun w => least ≤ w.count

def displayOf (caller : ActorType × String) : String := s!"{caller.1.name} {caller.2}"

def volumeDetection (caller : ActorType × String) (tenantId : Option String) (threshold : Int)
    (average : ℚ) (best : Window ExportEvent) : Detection :=
  let display := displayOf caller
  let usual := toFixed2 average
  { subject := { type := caller.1.name, id := caller.2, display := some display }
    dedupe := some "volume"
    tenantId
    title := some s!"Unusual export volume by {display}"
    summary := s!"{best.count} exports within {config.window.minutes} minutes " ++
      s!"(threshold {threshold}, usual {usual} per window)."
    windowStart := some best.start
    windowEnd := some best.stop
    counts := [("exports", best.count), ("threshold", threshold)]
    refs := lastRefs (best.events.map ExportEvent.ref) }

def volume (slice : Slice) (caller : ActorType × String) (tenantId : Option String)
    (list : List ExportEvent) : Option Detection :=
  match slidingWindow (options config slice.start config.minExports) list with
  | none => none
  | some _ =>
      let baselineMs := config.baselineDays * DAY_MS
      let total := countBaseline config apiPrefix history caller
        (slice.start - (config.window.ms + baselineMs)) (slice.start - config.window.ms)
      let average := baselinePerWindow total baselineMs config.window.ms
      let threshold := max (config.minExports : Int) (config.baselineMultiplier * average).ceil
      (slidingWindow (options config slice.start threshold) list).map
        (volumeDetection config caller tenantId threshold average)

/-- `grant.metadata?.roleName ?? grant.after?.roleName`. -/
def GrantRow.roleName (grant : GrantRow) : Option String :=
  (grant.metadata.bind GrantDetails.roleName).or (grant.after.bind GrantDetails.roleName)

def grantDetection (caller : ActorType × String) (tenantId : Option String) (fresh : List ExportEvent)
    (grant : GrantRow) : Detection :=
  let display := displayOf caller
  let role := ((GrantRow.roleName grant).bind present).elim "a role" fun name => "the role \"" ++ name ++ "\""
  let label := ((GrantRow.roleName grant).bind present).elim "role granted" fun name =>
    "role granted: " ++ name
  { subject := { type := caller.1.name, id := caller.2, display := some display }
    dedupe := some "new_grant"
    tenantId
    title := some s!"Export by {display} shortly after a role grant"
    summary := s!"{display} exported data {fresh.length} time(s) within {config.newGrantDays} days " ++
      s!"of being granted {role}."
    windowStart := some grant.occurredAt
    windowEnd := fresh.getLast?.map ExportEvent.time
    counts := [("exports", fresh.length)]
    refs := lastRefs (ref .auditLog grant.id grant.occurredAt label :: fresh.map ExportEvent.ref) }

/-- Export shortly after a role grant: the grant is looked up once, before the first fresh export. -/
def newGrant (caller : ActorType × String) (tenantId : Option String) (fresh : List ExportEvent) :
    Option Detection :=
  if config.alertOnNewGrant then
    fresh.head?.bind fun first =>
      (findLatestGrant server history caller.2 (first.time - config.grantMs) first.time).map
        (grantDetection config caller tenantId fresh)
  else none

def ofCaller (slice : Slice) (caller : ActorType × String) (list : List ExportEvent) :
    List Detection :=
  let fresh := list.filter fun e => slice.start < e.time
  if fresh = [] then []
  else
    let tenantId := fresh.getLast?.bind ExportEvent.tenantId
    (volume config apiPrefix history slice caller tenantId list).toList ++
      (newGrant config server history caller tenantId fresh).toList

def evaluate (slice : Slice) : List Detection :=
  (groupBy key (loadExports config apiPrefix server history (slice.start - config.window.ms)
    slice.stop)).flatMap fun group => ofCaller config apiPrefix server history slice group.1 group.2

def rule : Rule where
  id := "export.unusual_volume"
  version := 1
  title := "Unusual export activity"
  severity := .medium
  enabled := config.enabled
  evaluate := fun slice => .ok (evaluate config apiPrefix server history slice)

end unusualExports

end AnalyticsBackend.Security
