import AnalyticsBackend.Security.Sources
import AnalyticsBackend.Security.Window
import Mathlib.Algebra.Order.Floor.Div
import Mathlib.Data.Rat.Floor

/-!
# The rules of sliding windows

`auth.credential_stuffing`, `auth.admin_failed_logins`, `api_key.error_spike`,
`connector.auth_failures` and `authz.repeated_denials` of `services/securityDetection/rules/`. A
configuration has the values that `params` let through; the `details` of a detection are left out.
-/

namespace AnalyticsBackend.Security
open Lib Mongo

/-! ## Helpers -/

/-- `groupBy`: the groups in the order in which their keys come up. -/
def groupBy {E K : Type} [DecidableEq K] (key : E → Option K) (items : List E) : List (K × List E) :=
  (items.filterMap key).eraseDups.map fun k => (k, items.filter fun e => key e = some k)

def ref (source : EvidenceSource) (id : ObjectId) (time : Int) (label : String) : EvidenceRef where
  source := source
  id := some id.toHex
  time := some time
  label := slice 300 label

/-- `lastRefs`. -/
def lastRefs (refs : List EvidenceRef) : List EvidenceRef := newest 20 refs

/-- A text that is not empty. -/
def present (text : String) : Option String := if text = "" then none else some text

def MINUTE_MS : Int := 60000

def SIGNAL_LAG_MS : Int := 2 * MINUTE_MS

/-- `windowMinutes` of a configuration, in its range. -/
structure WindowMinutes where
  minutes : Nat
  range : 1 ≤ minutes ∧ minutes ≤ 1440

def WindowMinutes.ms (window : WindowMinutes) : Int := window.minutes * MINUTE_MS

theorem WindowMinutes.ms_pos (window : WindowMinutes) : 0 < window.ms := by
  have := window.range.1
  unfold WindowMinutes.ms MINUTE_MS
  omega

/-! ## Sign-ins -/

structure CredentialStuffingConfig where
  enabled : Bool := true
  window : WindowMinutes := ⟨15, by decide⟩
  minFailures : Nat := 20
  minAccounts : Nat := 10
  valid : 2 ≤ minFailures ∧ minFailures ≤ 100000 ∧ 2 ≤ minAccounts ∧ minAccounts ≤ 100000 := by decide

def LoginAttempt.account (row : LoginAttempt) : String :=
  let tenant := row.tenantId.getD "-"
  s!"{row.actorType.name}|{tenant}|{row.email}"

namespace credentialStuffing

def options (config : CredentialStuffingConfig) (after : Int) : WindowOptions LoginAttempt where
  windowMs := config.window.ms
  after := some after
  time := LoginAttempt.occurredAt
  distinct := fun e => some e.account
  qualifies := fun w => config.minFailures ≤ w.count && config.minAccounts ≤ w.distinct

/-- The address of an attempt. -/
def key (e : LoginAttempt) : Option String := present e.ip

def detection (config : CredentialStuffingConfig) (ip : String) (best : Window LoginAttempt) :
    Detection where
  subject := { type := "ip", id := ip, display := some ip }
  title := some s!"Credential stuffing from {ip}"
  summary := s!"{best.count} failed sign-ins for {best.distinct} accounts from {ip} within " ++
    s!"{config.window.minutes} minutes."
  windowStart := some best.start
  windowEnd := some best.stop
  counts :=
    [("failures", best.count), ("accounts", best.distinct),
      ("adminAccounts", ((best.events.filter fun e => e.actorType = .admin).map
        LoginAttempt.email).eraseDups.length)]
  refs := lastRefs (best.events.map fun e =>
    ref .loginAttempt e.id e.occurredAt s!"{e.actorType.name} {e.email}: {e.reason}")

def reads (config : CredentialStuffingConfig) (slice : Slice) : LoginAttempt → Bool :=
  attemptFilter (slice.start - config.window.ms) slice.stop false none

def evaluate (config : CredentialStuffingConfig) (server : Server) (history : History)
    (slice : Slice) : List Detection :=
  let failures := listLoginAttempts server history (slice.start - config.window.ms) slice.stop false
  (groupBy key failures).filterMap fun group =>
    (slidingWindow (options config slice.start) group.2).map (detection config group.1)

def rule (config : CredentialStuffingConfig) (server : Server) (history : History) : Rule where
  id := "auth.credential_stuffing"
  version := 1
  title := "Credential stuffing from one IP"
  severity := .high
  enabled := config.enabled
  evaluate := fun slice => .ok (evaluate config server history slice)

end credentialStuffing

structure AdminFailedLoginsConfig where
  enabled : Bool := true
  window : WindowMinutes := ⟨15, by decide⟩
  minFailures : Nat := 5
  valid : 2 ≤ minFailures ∧ minFailures ≤ 10000 := by decide

namespace adminFailedLogins

def options (config : AdminFailedLoginsConfig) (after : Int) : WindowOptions LoginAttempt where
  windowMs := config.window.ms
  after := some after
  time := LoginAttempt.occurredAt
  distinct := fun e => present e.ip
  qualifies := fun w => config.minFailures ≤ w.count

/-- The admin of an attempt; an unknown e-mail has none. -/
def key (e : LoginAttempt) : Option String := e.actorId.bind present

def detection (config : AdminFailedLoginsConfig) (actorId : String) (best : Window LoginAttempt) :
    Detection :=
  let email := (best.events.getLast?.map LoginAttempt.email).getD ""
  { subject := { type := "admin", id := actorId, display := some email }
    title := some s!"Repeated failed sign-ins for admin {email}"
    summary := s!"{best.count} failed sign-ins for the administrator {email} from {best.distinct} IP " ++
      s!"address(es) within {config.window.minutes} minutes."
    windowStart := some best.start
    windowEnd := some best.stop
    counts :=
      [("failures", best.count), ("ips", best.distinct),
        ("lockouts", (best.events.countP fun e => e.reason = "account_locked"))]
    refs := lastRefs (best.events.map fun e =>
      let ip := (present e.ip).getD "unknown ip"
      ref .loginAttempt e.id e.occurredAt s!"{ip}: {e.reason}") }

def reads (config : AdminFailedLoginsConfig) (slice : Slice) : LoginAttempt → Bool :=
  attemptFilter (slice.start - config.window.ms) slice.stop false (some .admin)

def evaluate (config : AdminFailedLoginsConfig) (server : Server) (history : History)
    (slice : Slice) : List Detection :=
  let failures := listLoginAttempts server history (slice.start - config.window.ms) slice.stop false
    (some .admin)
  (groupBy key failures).filterMap fun group =>
    (slidingWindow (options config slice.start) group.2).map (detection config group.1)

def rule (config : AdminFailedLoginsConfig) (server : Server) (history : History) : Rule where
  id := "auth.admin_failed_logins"
  version := 1
  title := "Repeated failed sign-ins on an admin account"
  severity := .high
  enabled := config.enabled
  evaluate := fun slice => .ok (evaluate config server history slice)

end adminFailedLogins

/-! ## API keys -/

/-- `minErrorRate` is the number of the configuration; quotients are not rounded here. -/
structure ErrorSpikeConfig where
  enabled : Bool := true
  window : WindowMinutes := ⟨15, by decide⟩
  minRequests : Nat := 50
  minErrorRate : ℚ := 1 / 2
  valid : 1 ≤ minRequests ∧ minRequests ≤ 10000000 ∧ 1 / 100 ≤ minErrorRate ∧ minErrorRate ≤ 1 := by
    norm_num

def SecuritySignal.errors (row : SecuritySignal) : Int := row.clientErrors + row.serverErrors

def WindowTotals.sum (w : WindowTotals) (name : String) : Int := (w.sums.lookup name).getD 0

/-- The share of the calls of a window that have failed. -/
def WindowTotals.errorRate (w : WindowTotals) : ℚ := (w.sum "errors" : ℚ) / (max 1 w.count : Int)

namespace apiKeyErrorSpike

def options (config : ErrorSpikeConfig) (after : Int) : WindowOptions SecuritySignal where
  windowMs := config.window.ms
  after := some after
  time := SecuritySignal.bucket
  weight := fun row => row.count
  sums := [("errors", SecuritySignal.errors), ("serverErrors", fun row => row.serverErrors)]
  qualifies := fun w => config.minRequests ≤ w.count && config.minErrorRate ≤ w.errorRate

def key (row : SecuritySignal) : Option String := present row.subject

/-- `keyDisplay`. -/
def keyDisplay (apiKey : Option ApiKeyRow) (fallback : String) : String :=
  match apiKey with
  | none => fallback
  | some apiKey => if apiKey.name = "" then apiKey.keyPrefix else s!"{apiKey.name} ({apiKey.keyPrefix})"

def detection (config : ErrorSpikeConfig) (history : History) (keyId : String)
    (best : Window SecuritySignal) : Detection :=
  let apiKey := findApiKey history keyId
  let display := keyDisplay apiKey keyId
  let percent := (best.errorRate * 100 + 1 / 2).floor
  let errors := best.sum "errors"
  { subject := { type := "api_key", id := keyId, display := some display }
    tenantId := (apiKey.map ApiKeyRow.tenantId).or (best.events.head?.bind SecuritySignal.tenantId)
    title := some s!"Error spike on API key {display}"
    summary := s!"{errors} of {best.count} calls with the API key {display} failed " ++
      s!"({percent}%) within {config.window.minutes} minutes."
    windowStart := some best.start
    windowEnd := some best.stop
    counts :=
      [("requests", best.count), ("errors", best.sum "errors"),
        ("serverErrors", best.sum "serverErrors"), ("errorRatePercent", percent)]
    refs := lastRefs (best.events.map fun row =>
      ref .securitySignal row.id row.bucket s!"{row.count} call(s), {row.errors} error(s)") }

def reads (config : ErrorSpikeConfig) (slice : Slice) : SecuritySignal → Bool :=
  bucketFilter .apiKeyRequest (slice.start - config.window.ms + 1) slice.stop

def evaluate (config : ErrorSpikeConfig) (server : Server) (history : History) (slice : Slice) :
    List Detection :=
  let rows := findBuckets server history .apiKeyRequest (slice.start - config.window.ms + 1) slice.stop
  (groupBy key rows).filterMap fun group =>
    (slidingWindow (options config slice.start) group.2).map (detection config history group.1)

def rule (config : ErrorSpikeConfig) (server : Server) (history : History) : Rule where
  id := "api_key.error_spike"
  version := 1
  title := "API key error spike"
  severity := .medium
  lagMs := SIGNAL_LAG_MS
  enabled := config.enabled
  evaluate := fun slice => .ok (evaluate config server history slice)

end apiKeyErrorSpike

/-! ## Connectors -/

structure ConnectorAuthConfig where
  enabled : Bool := true
  window : WindowMinutes := ⟨60, by decide⟩
  minFailures : Nat := 5
  minUnknownTokenFailures : Nat := 20
  syncErrorCodes : List String := ["CONNECTOR_SOURCE_UNAVAILABLE", "CONNECTOR_AUTH_FAILED"]
  valid : 1 ≤ minFailures ∧ minFailures ≤ 1000000 ∧ 1 ≤ minUnknownTokenFailures ∧
    minUnknownTokenFailures ≤ 1000000 := by decide

/-- A refused webhook or a failed sync of a connector. -/
structure ConnectorEvent where
  connectorId : String
  tenantId : Option String
  time : Int
  weight : Nat
  ref : EvidenceRef
  deriving DecidableEq, Repr

def SecuritySignal.connectorEvent (row : SecuritySignal) : ConnectorEvent where
  connectorId := row.subject
  tenantId := row.tenantId
  time := row.bucket
  weight := row.count
  ref := Security.ref .securitySignal row.id row.bucket s!"{row.count} refused webhook delivery(ies)"

def SyncRunRow.connectorEvent (run : SyncRunRow) : ConnectorEvent :=
  let code := run.errorCode.getD "unknown"
  { connectorId := run.connectorId
    tenantId := some run.tenantId
    time := run.time
    weight := 1
    ref := Security.ref .syncRun run.id run.time s!"sync failed: {code}" }

namespace connectorAuthFailures

def options (config : ConnectorAuthConfig) (after : Int) : WindowOptions ConnectorEvent where
  windowMs := config.window.ms
  after := some after
  time := ConnectorEvent.time
  weight := fun e => e.weight
  qualifies := fun w => config.minFailures ≤ w.count

def key (e : ConnectorEvent) : Option String := present e.connectorId

def probeOptions (config : ConnectorAuthConfig) (after : Int) : WindowOptions SecuritySignal where
  windowMs := config.window.ms
  after := some after
  time := SecuritySignal.bucket
  weight := fun row => row.count
  qualifies := fun w => config.minUnknownTokenFailures ≤ w.count

def probeKey (row : SecuritySignal) : Option String := present row.subject

/-- `String(range).replace(/^ip:/, '')`. -/
def rangeOf (subject : String) : String :=
  match subject.toList with
  | 'i' :: 'p' :: ':' :: rest => String.ofList rest
  | _ => subject

def detection (config : ConnectorAuthConfig) (tenantId : Option String) (connectorId : String)
    (best : Window ConnectorEvent) : Detection where
  subject := { type := "connector", id := connectorId, display := some connectorId }
  dedupe := some "auth"
  tenantId := tenantId
  title := some s!"Repeated authentication failures for connector {connectorId}"
  summary := s!"{best.count} authentication failures for one connector within " ++
    s!"{config.window.minutes} minutes."
  windowStart := some best.start
  windowEnd := some best.stop
  counts := [("failures", best.count)]
  refs := lastRefs (best.events.map ConnectorEvent.ref)

def probeDetection (config : ConnectorAuthConfig) (range : String) (best : Window SecuritySignal) :
    Detection :=
  let id := rangeOf range
  { subject := { type := "ip_range", id, display := some id }
    dedupe := some "webhook_token_probing"
    severity := some .medium
    title := some s!"Webhook token probing from {id}"
    summary := s!"{best.count} deliveries to unknown webhook tokens from {id} within " ++
      s!"{config.window.minutes} minutes."
    windowStart := some best.start
    windowEnd := some best.stop
    counts := [("refused", best.count)]
    refs := lastRefs (best.events.map fun row =>
      ref .securitySignal row.id row.bucket s!"{row.count} unknown-token delivery(ies)") }

def signalReads (config : ConnectorAuthConfig) (kind : SignalKind) (slice : Slice) :
    SecuritySignal → Bool :=
  bucketFilter kind (slice.start - config.window.ms + 1) slice.stop

def syncReads (config : ConnectorAuthConfig) (slice : Slice) : SyncRunRow → Bool :=
  syncFilter config.syncErrorCodes (slice.start - config.window.ms) slice.stop

/-- The failures of the connectors, by time. -/
def events (config : ConnectorAuthConfig) (server : Server) (history : History) (slice : Slice) :
    List ConnectorEvent :=
  let start := slice.start - config.window.ms
  let signalRows := findBuckets server history .connectorAuthFailed (start + 1) slice.stop
  let syncRuns :=
    if config.syncErrorCodes = [] then []
    else listFailedSyncRuns server history config.syncErrorCodes start slice.stop
  (signalRows.map SecuritySignal.connectorEvent ++ syncRuns.map SyncRunRow.connectorEvent).insertionSort
    fun a b => a.time ≤ b.time

def evaluate (config : ConnectorAuthConfig) (server : Server) (history : History) (slice : Slice) :
    List Detection :=
  let probes := findBuckets server history .webhookUnknownToken
    (slice.start - config.window.ms + 1) slice.stop
  ((groupBy key (events config server history slice)).filterMap fun group =>
    (slidingWindow (options config slice.start) group.2).map
      (detection config (group.2.findSome? ConnectorEvent.tenantId) group.1)) ++
  (groupBy probeKey probes).filterMap fun group =>
    (slidingWindow (probeOptions config slice.start) group.2).map (probeDetection config group.1)

def rule (config : ConnectorAuthConfig) (server : Server) (history : History) : Rule where
  id := "connector.auth_failures"
  version := 1
  title := "Repeated connector authentication failures"
  severity := .low
  lagMs := SIGNAL_LAG_MS
  enabled := config.enabled
  evaluate := fun slice => .ok (evaluate config server history slice)

end connectorAuthFailures

/-! ## Refusals -/

structure RepeatedDenialsConfig where
  enabled : Bool := true
  window : WindowMinutes := ⟨10, by decide⟩
  minDenials : Nat := 20
  minCrossTenantDenials : Nat := 3
  valid : 1 ≤ minDenials ∧ minDenials ≤ 1000000 ∧ 1 ≤ minCrossTenantDenials ∧
    minCrossTenantDenials ≤ 1000000 := by decide

def CROSS_TENANT_REASONS : List String := ["cross_tenant", "tenant_scope"]

/-- `actorKey`; a type has no colon, so that `split` of the key gives back the two parts. -/
def actorKey (actorType : ActorType) (actorId : Option String) : Option (ActorType × String) :=
  (actorId.bind present).map fun id => (actorType, id)

namespace authorizationFailures

def crossOptions (config : RepeatedDenialsConfig) (after : Int) : WindowOptions AuditRow where
  windowMs := config.window.ms
  after := some after
  time := AuditRow.occurredAt
  qualifies := fun w => config.minCrossTenantDenials ≤ w.count

def totalOptions (config : RepeatedDenialsConfig) (after : Int) : WindowOptions AccessRow where
  windowMs := config.window.ms
  after := some after
  time := AccessRow.occurredAt
  qualifies := fun w => config.minDenials ≤ w.count

def crossKey (row : AuditRow) : Option (ActorType × String) := actorKey row.actorType row.actorId

def totalKey (row : AccessRow) : Option (ActorType × String) := actorKey row.actorType row.actorId

/-- `stripQuery`. -/
def stripQuery (path : String) : String :=
  slice 200 (String.ofList (path.toList.takeWhile (· ≠ '?')))

def detection (config : RepeatedDenialsConfig) (key : ActorType × String) (tenantId : Option String)
    (display : Option String) (cross : Option (Window AuditRow)) (total : Option (Window AccessRow)) :
    Detection where
  subject := { type := key.1.name, id := key.2, display }
  severity := some (if cross.isSome then .high else .medium)
  tenantId := tenantId
  title := some (if cross.isSome then s!"Cross-tenant access attempts by {key.1.name} {key.2}"
    else s!"Repeated authorization failures for {key.1.name} {key.2}")
  summary :=
    match cross, total with
    | some cross, some total =>
        s!"{cross.count} cross-tenant or out-of-scope requests refused within " ++
          s!"{config.window.minutes} minutes ({total.count} refusals in total)."
    | some cross, none =>
        s!"{cross.count} cross-tenant or out-of-scope requests refused within " ++
          s!"{config.window.minutes} minutes."
    | none, some total =>
        s!"{total.count} requests refused with 403 within {config.window.minutes} minutes."
    | none, none => ""
  windowStart := (cross.map Window.start).or (total.map Window.start)
  windowEnd := (cross.map Window.stop).or (total.map Window.stop)
  counts :=
    [("denials", (total.map fun w => w.count).getD 0),
      ("crossTenantDenials", (cross.map fun w => w.count).getD 0)]
  refs := lastRefs
    (((cross.map Window.events).getD []).map (fun row =>
      let reason := row.reason.getD "cross_tenant"
      ref .auditLog row.id row.occurredAt s!"refused: {reason}") ++
    ((total.map Window.events).getD []).map fun row =>
      ref .accessLog row.id row.occurredAt s!"403 {row.method} {stripQuery row.path}")

def totalReads (config : RepeatedDenialsConfig) (slice : Slice) : AccessRow → Bool :=
  accessFilter 403 (slice.start - config.window.ms) slice.stop

def crossReads (config : RepeatedDenialsConfig) (slice : Slice) : AuditRow → Bool :=
  auditFilter "security.access" "request.denied" CROSS_TENANT_REASONS
    (slice.start - config.window.ms) slice.stop

def evaluate (config : RepeatedDenialsConfig) (server : Server) (history : History) (slice : Slice) :
    List Detection :=
  let start := slice.start - config.window.ms
  let denials := listAccessByStatus server history 403 start slice.stop
  let crossTenant := listAuditEvents server history "security.access" "request.denied"
    CROSS_TENANT_REASONS start slice.stop
  let keys := (denials.filterMap totalKey ++ crossTenant.filterMap crossKey).eraseDups
  keys.filterMap fun key =>
    let ofKey := crossTenant.filter fun row => crossKey row = some key
    let refused := denials.filter fun row => totalKey row = some key
    let cross := slidingWindow (crossOptions config slice.start) ofKey
    let total := slidingWindow (totalOptions config slice.start) refused
    if cross.isNone && total.isNone then none
    else
      some (detection config key (refused.head?.bind AccessRow.tenantId)
        (ofKey.head?.bind fun row => present row.actorDisplay) cross total)

def rule (config : RepeatedDenialsConfig) (server : Server) (history : History) : Rule where
  id := "authz.repeated_denials"
  version := 1
  title := "Repeated authorization failures"
  severity := .high
  enabled := config.enabled
  evaluate := fun slice => .ok (evaluate config server history slice)

end authorizationFailures

end AnalyticsBackend.Security
