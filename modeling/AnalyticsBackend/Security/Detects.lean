import AnalyticsBackend.Security.Rules

/-!
# What the rules of sliding windows find

The thresholds of the five rules, as the heads of `rules/authentication.js`, `apiKeys.js`,
`connectors.js` and `traffic.js` document them. A rule whose reads the limits do not cut finds in a
slice every subject that has met them within it.
-/

namespace AnalyticsBackend.Security
open Lib Mongo

/-! ## The thresholds -/

/-- The five rules. -/
inductive WatchedRule where
  | credentialStuffing
  | adminFailedLogins
  | apiKeyErrorSpike
  | connectorAuthFailures
  | repeatedDenials
  deriving DecidableEq, Repr

/-- How they are configured. -/
structure RuleConfigs where
  credentialStuffing : CredentialStuffingConfig := {}
  adminFailedLogins : AdminFailedLoginsConfig := {}
  apiKeyErrorSpike : ErrorSpikeConfig := {}
  connectorAuthFailures : ConnectorAuthConfig := {}
  repeatedDenials : RepeatedDenialsConfig := {}

/-- A rule with its configuration. -/
def WatchedRule.rule (configs : RuleConfigs) (server : Server) (history : History) :
    WatchedRule → Rule
  | .credentialStuffing => credentialStuffing.rule configs.credentialStuffing server history
  | .adminFailedLogins => adminFailedLogins.rule configs.adminFailedLogins server history
  | .apiKeyErrorSpike => apiKeyErrorSpike.rule configs.apiKeyErrorSpike server history
  | .connectorAuthFailures => connectorAuthFailures.rule configs.connectorAuthFailures server history
  | .repeatedDenials => authorizationFailures.rule configs.repeatedDenials server history

/-- The `id` of a rule. -/
def WatchedRule.id : WatchedRule → String
  | .credentialStuffing => "auth.credential_stuffing"
  | .adminFailedLogins => "auth.admin_failed_logins"
  | .apiKeyErrorSpike => "api_key.error_spike"
  | .connectorAuthFailures => "connector.auth_failures"
  | .repeatedDenials => "authz.repeated_denials"

@[simp] theorem id_rule (configs : RuleConfigs) (server : Server) (history : History)
    (rule : WatchedRule) : (rule.rule configs server history).id = rule.id := by
  cases rule <;> rfl

/-- Whom a rule speaks of; `dedupe` sets two kinds of finding apart. -/
structure Culprit where
  type : String
  id : String
  dedupe : Option String := none
  deriving DecidableEq, Repr

def Detection.About (detection : Detection) (culprit : Culprit) : Prop :=
  detection.subject.type = culprit.type ∧ detection.subject.id = culprit.id ∧
    detection.dedupe = culprit.dedupe

def within {R : Type} (window : WindowMinutes) (stop : Int) (time : R → Int) (rows : List R) : List R :=
  rows.filter fun row => inRange (stop - window.ms) stop (time row)

namespace History

variable (history : History)

/-- Failed sign-ins from an address. -/
def failuresFrom (ip : String) : List LoginAttempt :=
  history.loginAttempts.filter fun e => !e.success && e.ip = ip

/-- Failed sign-ins on the account of an admin. -/
def failuresOf (adminId : String) : List LoginAttempt :=
  history.loginAttempts.filter fun e => !e.success && e.actorType = .admin && e.actorId = some adminId

def signalsOf (kind : SignalKind) (subject : String) : List SecuritySignal :=
  history.signals.filter fun row => row.kind = kind && row.subject = subject

def failedSyncs (codes : List String) (connectorId : String) : List SyncRunRow :=
  history.syncRuns.filter fun run =>
    run.failed && run.finishedAt.isSome && run.errorCode.any codes.contains && run.connectorId = connectorId

/-- Requests of a caller that were refused with 403. -/
def refusalsOf (actorType : ActorType) (actorId : String) : List AccessRow :=
  history.accessLog.filter fun row =>
    row.statusCode = 403 && row.actorType = actorType && row.actorId = some actorId

def crossTenantOf (actorType : ActorType) (actorId : String) : List AuditRow :=
  history.auditLog.filter fun row =>
    row.module = "security.access" && row.action = "request.denied" &&
      row.reason.any CROSS_TENANT_REASONS.contains && row.actorType = actorType &&
      row.actorId = some actorId

end History

/-- At an event at `stop` ends a window in which someone meets the thresholds of a rule. -/
inductive Breach (configs : RuleConfigs) (history : History) (stop : Int) :
    WatchedRule → Culprit → Prop
  | stuffing {ip : String} (named : ip ≠ "")
      (ends : ∃ e ∈ history.failuresFrom ip, e.occurredAt = stop)
      (failures : configs.credentialStuffing.minFailures ≤
        (within configs.credentialStuffing.window stop LoginAttempt.occurredAt
          (history.failuresFrom ip)).length)
      (accounts : configs.credentialStuffing.minAccounts ≤
        ((within configs.credentialStuffing.window stop LoginAttempt.occurredAt
          (history.failuresFrom ip)).map LoginAttempt.account).dedup.length) :
      Breach configs history stop .credentialStuffing { type := "ip", id := ip }
  | admin {adminId : String} (named : adminId ≠ "")
      (ends : ∃ e ∈ history.failuresOf adminId, e.occurredAt = stop)
      (failures : configs.adminFailedLogins.minFailures ≤
        (within configs.adminFailedLogins.window stop LoginAttempt.occurredAt
          (history.failuresOf adminId)).length) :
      Breach configs history stop .adminFailedLogins { type := "admin", id := adminId }
  | spike {keyId : String} (named : keyId ≠ "")
      (ends : ∃ row ∈ history.signalsOf .apiKeyRequest keyId, row.bucket = stop)
      (requests : configs.apiKeyErrorSpike.minRequests ≤
        ((within configs.apiKeyErrorSpike.window stop SecuritySignal.bucket
          (history.signalsOf .apiKeyRequest keyId)).map SecuritySignal.count).sum)
      (rate : configs.apiKeyErrorSpike.minErrorRate *
          (((within configs.apiKeyErrorSpike.window stop SecuritySignal.bucket
            (history.signalsOf .apiKeyRequest keyId)).map SecuritySignal.count).sum : ℚ) ≤
        (((within configs.apiKeyErrorSpike.window stop SecuritySignal.bucket
          (history.signalsOf .apiKeyRequest keyId)).map SecuritySignal.errors).sum : ℚ)) :
      Breach configs history stop .apiKeyErrorSpike { type := "api_key", id := keyId }
  | connector {connectorId : String} (named : connectorId ≠ "")
      (ends : (∃ row ∈ history.signalsOf .connectorAuthFailed connectorId, row.bucket = stop) ∨
        ∃ run ∈ history.failedSyncs configs.connectorAuthFailures.syncErrorCodes connectorId,
          run.time = stop)
      (failures : configs.connectorAuthFailures.minFailures ≤
        ((within configs.connectorAuthFailures.window stop SecuritySignal.bucket
          (history.signalsOf .connectorAuthFailed connectorId)).map SecuritySignal.count).sum +
        (within configs.connectorAuthFailures.window stop SyncRunRow.time
          (history.failedSyncs configs.connectorAuthFailures.syncErrorCodes connectorId)).length) :
      Breach configs history stop .connectorAuthFailures
        { type := "connector", id := connectorId, dedupe := some "auth" }
  | probing {range : String} (named : range ≠ "")
      (ends : ∃ row ∈ history.signalsOf .webhookUnknownToken range, row.bucket = stop)
      (refused : configs.connectorAuthFailures.minUnknownTokenFailures ≤
        ((within configs.connectorAuthFailures.window stop SecuritySignal.bucket
          (history.signalsOf .webhookUnknownToken range)).map SecuritySignal.count).sum) :
      Breach configs history stop .connectorAuthFailures
        { type := "ip_range", id := connectorAuthFailures.rangeOf range,
          dedupe := some "webhook_token_probing" }
  | denials {actorType : ActorType} {actorId : String} (named : actorId ≠ "")
      (ends : ∃ row ∈ history.refusalsOf actorType actorId, row.occurredAt = stop)
      (refused : configs.repeatedDenials.minDenials ≤
        (within configs.repeatedDenials.window stop AccessRow.occurredAt
          (history.refusalsOf actorType actorId)).length) :
      Breach configs history stop .repeatedDenials { type := actorType.name, id := actorId }
  | crossTenant {actorType : ActorType} {actorId : String} (named : actorId ≠ "")
      (ends : ∃ row ∈ history.crossTenantOf actorType actorId, row.occurredAt = stop)
      (refused : configs.repeatedDenials.minCrossTenantDenials ≤
        (within configs.repeatedDenials.window stop AuditRow.occurredAt
          (history.crossTenantOf actorType actorId)).length) :
      Breach configs history stop .repeatedDenials { type := actorType.name, id := actorId }

/-- No read of a rule for a slice matches more rows than its limit. -/
def WatchedRule.Whole (configs : RuleConfigs) (history : History) (slice : Slice) :
    WatchedRule → Prop
  | .credentialStuffing =>
      Security.Whole DEFAULT_LIMIT (credentialStuffing.reads configs.credentialStuffing slice)
        history.loginAttempts
  | .adminFailedLogins =>
      Security.Whole DEFAULT_LIMIT (adminFailedLogins.reads configs.adminFailedLogins slice)
        history.loginAttempts
  | .apiKeyErrorSpike =>
      Security.Whole BUCKET_LIMIT (apiKeyErrorSpike.reads configs.apiKeyErrorSpike slice)
        history.signals
  | .connectorAuthFailures =>
      Security.Whole BUCKET_LIMIT
          (connectorAuthFailures.signalReads configs.connectorAuthFailures .connectorAuthFailed slice)
          history.signals ∧
        Security.Whole DEFAULT_LIMIT
          (connectorAuthFailures.syncReads configs.connectorAuthFailures slice) history.syncRuns ∧
        Security.Whole BUCKET_LIMIT
          (connectorAuthFailures.signalReads configs.connectorAuthFailures .webhookUnknownToken slice)
          history.signals
  | .repeatedDenials =>
      Security.Whole DEFAULT_LIMIT (authorizationFailures.totalReads configs.repeatedDenials slice)
          history.accessLog ∧
        Security.Whole DEFAULT_LIMIT
          (authorizationFailures.crossReads configs.repeatedDenials slice) history.auditLog

/-! ## Windows of a group -/

section Groups

variable {E K : Type} {opts : WindowOptions E}

theorem summarize_perm {events events' : List E} (perm : events.Perm events') :
    opts.summarize events = opts.summarize events' := by
  unfold WindowOptions.summarize
  rw [(perm.map opts.weight).sum_eq, (perm.filterMap opts.key).dedup.length_eq]
  congr 1
  refine List.map_congr_left fun s _ => ?_
  rw [(perm.map s.2).sum_eq]

variable [DecidableEq K]

theorem mem_groupBy {key : E → Option K} {items : List E} {k : K} {e : E} (mem : e ∈ items)
    (ofKey : key e = some k) : (k, items.filter fun e => key e = some k) ∈ groupBy key items := by
  refine List.mem_map.mpr ⟨k, ?_, rfl⟩
  rw [List.mem_eraseDups]
  exact List.mem_filterMap.mpr ⟨e, mem, ofKey⟩

theorem slidingWindow_group (opts : WindowOptions E) {rows read : List E} {reads : E → Bool}
    (counted : E → Bool) {key : E → Option K} {k : K} {stop : Int} (positive : 0 < opts.windowMs) (perm : read.Perm (rows.filter reads))
    (sorted : read.Pairwise fun a b => opts.time a ≤ opts.time b) (after : opts.later stop = true)
    (same : ∀ e ∈ rows, inRange (stop - opts.windowMs) stop (opts.time e) = true →
      (reads e && decide (key e = some k)) = counted e)
    (ends : ∃ e ∈ rows.filter counted, opts.time e = stop)
    (qualifies : opts.qualifies (opts.summarize ((rows.filter counted).filter fun e =>
      inRange (stop - opts.windowMs) stop (opts.time e))) = true) :
    (∃ e ∈ read, key e = some k) ∧
      ∃ w, slidingWindow opts (read.filter fun e => key e = some k) = some w ∧ opts.later w.stop = true ∧
        ∃ e ∈ rows, reads e = true ∧ w.stop = opts.time e := by
  obtain ⟨e, mem, rfl⟩ := ends
  obtain ⟨among, counts⟩ := List.mem_filter.mp mem
  have inside : inRange (opts.time e - opts.windowMs) (opts.time e) (opts.time e) = true := by
    simp [inRange, positive]
  have held : reads e = true ∧ key e = some k := by
    simpa [counts] using same e among inside
  have member : e ∈ read := perm.mem_iff.mpr (List.mem_filter.mpr ⟨among, held.1⟩)
  refine ⟨⟨e, member, held.2⟩, ?_⟩
  have window : (opts.windowAt (read.filter fun e => key e = some k) (opts.time e)).Perm
      ((rows.filter counted).filter fun e' =>
        inRange (opts.time e - opts.windowMs) (opts.time e) (opts.time e')) := by
    refine (((perm.filter _).filter _).trans (List.Perm.of_eq ?_))
    rw [List.filter_filter, List.filter_filter, List.filter_filter]
    refine List.filter_congr fun e' mem' => ?_
    by_cases near : inRange (opts.time e - opts.windowMs) (opts.time e) (opts.time e') = true
    · rw [← same e' mem' near, Bool.and_comm (reads e')]
      exact Bool.and_assoc ..
    · have far : inRange (opts.time e - opts.windowMs) (opts.time e) (opts.time e') = false :=
        Bool.not_eq_true _ ▸ near
      rw [far, Bool.false_and, Bool.and_assoc]
      exact (congrArg (· && _) far).trans (Bool.false_and _)
  have found : (slidingWindow opts (read.filter fun e => key e = some k)).isSome = true := by
    refine (slidingWindow_isSome positive (sorted.filter _)).mpr ⟨opts.time e, after, ?_, ?_⟩
    · exact ⟨e, List.mem_filter.mpr ⟨member, by simp [held.2]⟩, rfl⟩
    · rw [summarize_perm window]
      exact qualifies
  obtain ⟨w, is⟩ := Option.isSome_iff_exists.mp found
  obtain ⟨last, lastMem, later, stop⟩ := stop_slidingWindow is
  have ofRead := List.mem_filter.mp (perm.mem_iff.mp (List.mem_filter.mp lastMem).1)
  exact ⟨w, is, by rw [stop]; exact later, last, ofRead.1, ofRead.2, stop⟩

end Groups

/-! ## Rules -/

def Finds (found : List Detection) (slice : Slice) (culprit : Culprit) : Prop :=
  ∃ d ∈ found, d.About culprit ∧ ∃ last, d.windowEnd = some last ∧ slice.start < last ∧ last ≤ slice.stop

theorem present_eq {text name : String} (named : name ≠ "") :
    present text = some name ↔ text = name := by
  unfold present
  split
  · rename_i empty
    exact ⟨nofun, fun same => absurd (same.symm.trans empty) named⟩
  · exact Option.some_inj

theorem bind_present_eq {text : Option String} {name : String} (named : name ≠ "") :
    text.bind present = some name ↔ text = some name := by
  cases text with
  | none => simp
  | some text => simp [present_eq named]

theorem actorKey_eq {actorType ofType : ActorType} {actorId : Option String} {name : String}
    (named : name ≠ "") :
    actorKey actorType actorId = some (ofType, name) ↔ actorType = ofType ∧ actorId = some name := by
  unfold actorKey
  simp only [Option.map_eq_some_iff, Prod.mk.injEq]
  constructor
  · rintro ⟨id, is, rfl, rfl⟩
    exact ⟨rfl, (bind_present_eq named).mp is⟩
  · rintro ⟨rfl, is⟩
    exact ⟨name, (bind_present_eq named).mpr is, rfl, rfl⟩

theorem inRange_slice {slice : Slice} {window : WindowMinutes} {stop time : Int}
    (after : slice.start < stop) (upTo : stop ≤ slice.stop)
    (inside : inRange (stop - window.ms) stop time = true) :
    inRange (slice.start - window.ms) slice.stop time = true := by
  simp only [inRange, Bool.and_eq_true, decide_eq_true_eq] at inside ⊢
  omega

theorem account_ne_empty (row : LoginAttempt) : row.account ≠ "" := by
  intro empty
  have size := congrArg String.length empty
  simp [LoginAttempt.account, ToString.toString, String.length_append] at size

theorem sum_unit {E : Type} (events : List E) : (events.map fun _ => (1 : Int)).sum = events.length := by
  simp

theorem finds_group {E K : Type} [DecidableEq K] {slice : Slice} {stop : Int} (opts : WindowOptions E)
    {rows read : List E} {reads : E → Bool} (counted : E → Bool) (key : E → Option K) (k : K)
    {detect : K × List E → Window E → Detection} {culprit : Culprit} (positive : 0 < opts.windowMs)
    (perm : read.Perm (rows.filter reads)) (sorted : read.Pairwise fun a b => opts.time a ≤ opts.time b)
    (from' : opts.after = some slice.start) (after : slice.start < stop)
    (same : ∀ e ∈ rows, inRange (stop - opts.windowMs) stop (opts.time e) = true →
      (reads e && decide (key e = some k)) = counted e)
    (below : ∀ e, reads e = true → opts.time e ≤ slice.stop)
    (ends : ∃ e ∈ rows.filter counted, opts.time e = stop)
    (qualifies : opts.qualifies (opts.summarize ((rows.filter counted).filter fun e =>
      inRange (stop - opts.windowMs) stop (opts.time e))) = true)
    (about : ∀ group w, group.1 = k → (detect group w).About culprit)
    (last : ∀ group w, (detect group w).windowEnd = some w.stop) :
    Finds ((groupBy key read).filterMap fun group => (slidingWindow opts group.2).map (detect group))
      slice culprit := by
  obtain ⟨⟨e, mem, ofKey⟩, w, is, later, e', -, held, at'⟩ :=
    slidingWindow_group opts counted positive perm sorted ((WindowOptions.later_iff from').mpr after) same ends qualifies
  let group := (k, read.filter fun e => key e = some k)
  refine ⟨detect group w, List.mem_filterMap.mpr ⟨group, mem_groupBy mem ofKey, ?_⟩, about group w rfl,
    w.stop, last group w, (WindowOptions.later_iff from').mp later, ?_⟩
  · rw [is, Option.map_some]
  · rw [at']
    exact below e' held

section Found

variable {server : Server} {history : History} {slice : Slice} {stop : Int}

theorem finds_stuffing {config : CredentialStuffingConfig} {ip : String}
    (whole : Whole DEFAULT_LIMIT (credentialStuffing.reads config slice) history.loginAttempts)
    (after : slice.start < stop) (upTo : stop ≤ slice.stop) (named : ip ≠ "")
    (ends : ∃ e ∈ history.failuresFrom ip, e.occurredAt = stop)
    (failures : config.minFailures ≤
      (within config.window stop LoginAttempt.occurredAt (history.failuresFrom ip)).length)
    (accounts : config.minAccounts ≤ ((within config.window stop LoginAttempt.occurredAt
      (history.failuresFrom ip)).map LoginAttempt.account).dedup.length) :
    Finds (credentialStuffing.evaluate config server history slice) slice { type := "ip", id := ip } := by
  let opts := credentialStuffing.options config slice.start
  have keys (events : List LoginAttempt) :
      events.filterMap opts.key = events.map LoginAttempt.account := by
    rw [← List.filterMap_eq_map]
    refine List.filterMap_congr fun e _ => ?_
    simp [WindowOptions.key, opts, credentialStuffing.options, account_ne_empty]
  refine finds_group opts (fun e => !e.success && e.ip = ip) credentialStuffing.key ip
    config.window.ms_pos (perm_readSorted whole) (sorted_readSorted ..) rfl after ?_ ?_ ends ?_
    (fun group w is => ⟨rfl, is, rfl⟩) (fun group w => rfl)
  · intro e _ inside
    have wide : inRange (slice.start - config.window.ms) slice.stop e.occurredAt = true :=
      inRange_slice after upTo inside
    simp [attemptFilter, credentialStuffing.key, present_eq named, wide]
  · intro e reads
    simp only [attemptFilter, inRange, Bool.and_eq_true, decide_eq_true_eq] at reads
    exact reads.1.1.2
  · have count : (opts.summarize _).count = _ :=
      sum_unit (within config.window stop LoginAttempt.occurredAt (history.failuresFrom ip))
    have distinct : (opts.summarize _).distinct = _ := congrArg (fun keys => keys.dedup.length)
      (keys (within config.window stop LoginAttempt.occurredAt (history.failuresFrom ip)))
    refine Bool.and_eq_true_iff.mpr ⟨decide_eq_true ?_, decide_eq_true ?_⟩
    · exact (Int.ofNat_le.mpr failures).trans_eq count.symm
    · exact accounts.trans_eq distinct.symm

theorem finds_admin {config : AdminFailedLoginsConfig} {adminId : String}
    (whole : Whole DEFAULT_LIMIT (adminFailedLogins.reads config slice) history.loginAttempts)
    (after : slice.start < stop) (upTo : stop ≤ slice.stop) (named : adminId ≠ "")
    (ends : ∃ e ∈ history.failuresOf adminId, e.occurredAt = stop)
    (failures : config.minFailures ≤
      (within config.window stop LoginAttempt.occurredAt (history.failuresOf adminId)).length) :
    Finds (adminFailedLogins.evaluate config server history slice) slice
      { type := "admin", id := adminId } := by
  let opts := adminFailedLogins.options config slice.start
  refine finds_group opts
    (fun e => !e.success && e.actorType = .admin && e.actorId = some adminId) adminFailedLogins.key adminId
    config.window.ms_pos (perm_readSorted whole) (sorted_readSorted ..) rfl after ?_ ?_ ends ?_
    (fun group w is => ⟨rfl, is, rfl⟩) (fun group w => rfl)
  · intro e _ inside
    have wide : inRange (slice.start - config.window.ms) slice.stop e.occurredAt = true :=
      inRange_slice after upTo inside
    simp [attemptFilter, adminFailedLogins.key, bind_present_eq named, wide]
  · intro e reads
    simp only [attemptFilter, inRange, Bool.and_eq_true, decide_eq_true_eq] at reads
    exact reads.1.1.2
  · have count : (opts.summarize _).count = _ :=
      sum_unit (within config.window stop LoginAttempt.occurredAt (history.failuresOf adminId))
    exact decide_eq_true ((Int.ofNat_le.mpr failures).trans_eq count.symm)

theorem sum_counts (rows : List SecuritySignal) :
    (rows.map fun row => (row.count : Int)).sum = ((rows.map SecuritySignal.count).sum : Nat) := by
  induction rows with
  | nil => rfl
  | cons row rows ih => simp [ih]

theorem below_bucketFilter {kind : SignalKind} {start : Int} {row : SecuritySignal}
    (reads : bucketFilter kind start slice.stop row = true) : row.bucket ≤ slice.stop := by
  simp only [bucketFilter, Bool.and_eq_true, decide_eq_true_eq] at reads
  exact reads.2

theorem bucketFilter_eq {kind : SignalKind} {window : WindowMinutes} {row : SecuritySignal}
    (after : slice.start < stop) (upTo : stop ≤ slice.stop)
    (inside : inRange (stop - window.ms) stop row.bucket = true) :
    bucketFilter kind (slice.start - window.ms + 1) slice.stop row = decide (row.kind = kind) := by
  have wide := inRange_slice after upTo inside
  simp only [inRange, Bool.and_eq_true, decide_eq_true_eq] at wide
  have first : slice.start - window.ms + 1 ≤ row.bucket := wide.1
  simp [bucketFilter, first, wide.2]

theorem finds_spike {config : ErrorSpikeConfig} {keyId : String}
    (whole : Whole BUCKET_LIMIT (apiKeyErrorSpike.reads config slice) history.signals)
    (after : slice.start < stop) (upTo : stop ≤ slice.stop) (named : keyId ≠ "")
    (ends : ∃ row ∈ history.signalsOf .apiKeyRequest keyId, row.bucket = stop)
    (requests : config.minRequests ≤ ((within config.window stop SecuritySignal.bucket
      (history.signalsOf .apiKeyRequest keyId)).map SecuritySignal.count).sum)
    (rate : config.minErrorRate * (((within config.window stop SecuritySignal.bucket
        (history.signalsOf .apiKeyRequest keyId)).map SecuritySignal.count).sum : ℚ) ≤
      (((within config.window stop SecuritySignal.bucket
        (history.signalsOf .apiKeyRequest keyId)).map SecuritySignal.errors).sum : ℚ)) :
    Finds (apiKeyErrorSpike.evaluate config server history slice) slice
      { type := "api_key", id := keyId } := by
  let opts := apiKeyErrorSpike.options config slice.start
  let rows := within config.window stop SecuritySignal.bucket (history.signalsOf .apiKeyRequest keyId)
  refine finds_group opts (fun row => row.kind = .apiKeyRequest && row.subject = keyId)
    apiKeyErrorSpike.key keyId config.window.ms_pos (perm_readSorted whole) (sorted_readSorted ..) rfl
    after ?_ (fun row => below_bucketFilter) ends ?_ (fun group w is => ⟨rfl, is, rfl⟩)
    (fun group w => rfl)
  · intro row _ inside
    have reads : bucketFilter .apiKeyRequest (slice.start - config.window.ms + 1) slice.stop row =
        decide (row.kind = .apiKeyRequest) := bucketFilter_eq after upTo inside
    simp [reads, apiKeyErrorSpike.key, present_eq named]
  · have count : (opts.summarize rows).count = ((rows.map SecuritySignal.count).sum : Nat) :=
      sum_counts rows
    have errors : (opts.summarize rows).sum "errors" = (rows.map SecuritySignal.errors).sum := rfl
    have some : 0 < (rows.map SecuritySignal.count).sum := lt_of_lt_of_le config.valid.1 requests
    refine Bool.and_eq_true_iff.mpr ⟨decide_eq_true ?_, decide_eq_true ?_⟩
    · exact (Int.ofNat_le.mpr requests).trans_eq count.symm
    · change config.minErrorRate ≤ (opts.summarize rows).errorRate
      unfold WindowTotals.errorRate
      rw [count, errors, max_eq_right (by omega), le_div_iff₀ (by exact_mod_cast some)]
      rw [Int.cast_natCast]
      exact rate

theorem finds_probing {config : ConnectorAuthConfig} {range : String}
    (whole : Whole BUCKET_LIMIT (connectorAuthFailures.signalReads config .webhookUnknownToken slice)
      history.signals)
    (after : slice.start < stop) (upTo : stop ≤ slice.stop) (named : range ≠ "")
    (ends : ∃ row ∈ history.signalsOf .webhookUnknownToken range, row.bucket = stop)
    (refused : config.minUnknownTokenFailures ≤ ((within config.window stop SecuritySignal.bucket
      (history.signalsOf .webhookUnknownToken range)).map SecuritySignal.count).sum) :
    Finds (connectorAuthFailures.evaluate config server history slice) slice
      { type := "ip_range", id := connectorAuthFailures.rangeOf range,
        dedupe := some "webhook_token_probing" } := by
  let opts := connectorAuthFailures.probeOptions config slice.start
  let rows := within config.window stop SecuritySignal.bucket
    (history.signalsOf .webhookUnknownToken range)
  have found : Finds ((groupBy connectorAuthFailures.probeKey (findBuckets server history
      .webhookUnknownToken (slice.start - config.window.ms + 1) slice.stop)).filterMap fun group =>
        (slidingWindow opts group.2).map (connectorAuthFailures.probeDetection config group.1)) slice
      { type := "ip_range", id := connectorAuthFailures.rangeOf range,
        dedupe := some "webhook_token_probing" } := by
    refine finds_group opts (fun row => row.kind = .webhookUnknownToken && row.subject = range)
      connectorAuthFailures.probeKey range config.window.ms_pos (perm_readSorted whole)
      (sorted_readSorted ..) rfl after ?_ (fun row => below_bucketFilter) ends ?_
      (fun group w is => ⟨rfl, congrArg connectorAuthFailures.rangeOf is, rfl⟩) (fun group w => rfl)
    · intro row _ inside
      have reads : bucketFilter .webhookUnknownToken (slice.start - config.window.ms + 1) slice.stop
          row = decide (row.kind = .webhookUnknownToken) := bucketFilter_eq after upTo inside
      simp [reads, connectorAuthFailures.probeKey, present_eq named]
    · have count : (opts.summarize rows).count = ((rows.map SecuritySignal.count).sum : Nat) :=
        sum_counts rows
      exact decide_eq_true ((Int.ofNat_le.mpr refused).trans_eq count.symm)
  obtain ⟨d, mem, is⟩ := found
  exact ⟨d, List.mem_append_right _ mem, is⟩

def connectorRows (codes : List String) (history : History) : List ConnectorEvent :=
  (history.signals.filter fun row => row.kind = .connectorAuthFailed).map
      SecuritySignal.connectorEvent ++
    (history.syncRuns.filter fun run =>
      run.failed && run.finishedAt.isSome && run.errorCode.any codes.contains).map
      SyncRunRow.connectorEvent

theorem perm_events {config : ConnectorAuthConfig}
    (signals : Whole BUCKET_LIMIT
      (connectorAuthFailures.signalReads config .connectorAuthFailed slice) history.signals)
    (syncs : Whole DEFAULT_LIMIT (connectorAuthFailures.syncReads config slice) history.syncRuns) :
    (connectorAuthFailures.events config server history slice).Perm
      ((connectorRows config.syncErrorCodes history).filter fun e =>
        inRange (slice.start - config.window.ms) slice.stop e.time) := by
  unfold connectorAuthFailures.events connectorRows
  refine (List.perm_insertionSort _ _).trans ?_
  rw [List.filter_append, List.filter_map, List.filter_map, List.filter_filter, List.filter_filter]
  refine List.Perm.append (((perm_readSorted signals).trans (List.Perm.of_eq ?_)).map _) ?_
  · refine List.filter_congr fun row _ => ?_
    simp only [connectorAuthFailures.signalReads, bucketFilter, Function.comp_apply,
      SecuritySignal.connectorEvent, inRange]
    rw [Bool.and_assoc, Bool.and_comm]
    congr 2
  · have sameRows : history.syncRuns.filter (connectorAuthFailures.syncReads config slice) =
        history.syncRuns.filter fun run =>
          inRange (slice.start - config.window.ms) slice.stop run.connectorEvent.time &&
            (run.failed && run.finishedAt.isSome && run.errorCode.any config.syncErrorCodes.contains) := by
      refine List.filter_congr fun run _ => ?_
      simp only [connectorAuthFailures.syncReads, syncFilter, SyncRunRow.connectorEvent, SyncRunRow.time]
      cases run.finishedAt with
      | none => simp
      | some at' => simp [Bool.and_assoc, Bool.and_left_comm]
    split
    · rename_i noCodes
      have none : history.syncRuns.filter (fun run =>
          inRange (slice.start - config.window.ms) slice.stop run.connectorEvent.time &&
            (run.failed && run.finishedAt.isSome && run.errorCode.any config.syncErrorCodes.contains)) =
          [] := by
        refine List.filter_eq_nil_iff.mpr fun run _ => ?_
        cases run.errorCode <;> simp [noCodes]
      exact List.Perm.of_eq (congrArg (List.map SyncRunRow.connectorEvent) none).symm
    · exact ((perm_readSorted syncs).trans (List.Perm.of_eq sameRows)).map _

theorem finds_connector {config : ConnectorAuthConfig} {connectorId : String}
    (signals : Whole BUCKET_LIMIT
      (connectorAuthFailures.signalReads config .connectorAuthFailed slice) history.signals)
    (syncs : Whole DEFAULT_LIMIT (connectorAuthFailures.syncReads config slice) history.syncRuns)
    (after : slice.start < stop) (upTo : stop ≤ slice.stop) (named : connectorId ≠ "")
    (ends : (∃ row ∈ history.signalsOf .connectorAuthFailed connectorId, row.bucket = stop) ∨
      ∃ run ∈ history.failedSyncs config.syncErrorCodes connectorId, run.time = stop)
    (failures : config.minFailures ≤
      ((within config.window stop SecuritySignal.bucket
        (history.signalsOf .connectorAuthFailed connectorId)).map SecuritySignal.count).sum +
      (within config.window stop SyncRunRow.time
        (history.failedSyncs config.syncErrorCodes connectorId)).length) :
    Finds (connectorAuthFailures.evaluate config server history slice) slice
      { type := "connector", id := connectorId, dedupe := some "auth" } := by
  let opts := connectorAuthFailures.options config slice.start
  let refused := history.signalsOf .connectorAuthFailed connectorId
  let failed := history.failedSyncs config.syncErrorCodes connectorId
  have counted : (connectorRows config.syncErrorCodes history).filter (fun e => e.connectorId = connectorId) =
      refused.map SecuritySignal.connectorEvent ++ failed.map SyncRunRow.connectorEvent := by
    unfold connectorRows
    rw [List.filter_append, List.filter_map, List.filter_map, List.filter_filter, List.filter_filter]
    refine congrArg₂ _ (congrArg _ ?_) (congrArg _ ?_)
    · exact List.filter_congr fun row _ => Bool.and_comm ..
    · exact List.filter_congr fun run _ => Bool.and_comm ..
  have inside : ((connectorRows config.syncErrorCodes history).filter fun e =>
      e.connectorId = connectorId).filter (fun e => inRange (stop - opts.windowMs) stop (opts.time e)) =
        (within config.window stop SecuritySignal.bucket refused).map SecuritySignal.connectorEvent ++
          (within config.window stop SyncRunRow.time failed).map SyncRunRow.connectorEvent := by
    rw [counted, List.filter_append, List.filter_map, List.filter_map]
    rfl
  have found : Finds ((groupBy connectorAuthFailures.key (connectorAuthFailures.events config server
      history slice)).filterMap fun group => (slidingWindow opts group.2).map
        (connectorAuthFailures.detection config (group.2.findSome? ConnectorEvent.tenantId) group.1))
      slice { type := "connector", id := connectorId, dedupe := some "auth" } := by
    refine finds_group opts (fun e => e.connectorId = connectorId) connectorAuthFailures.key connectorId
      config.window.ms_pos (perm_events signals syncs) ?_ rfl after ?_ ?_ ?_ ?_
      (fun group w is => ⟨rfl, is, rfl⟩) (fun group w => rfl)
    · have total : Std.Total fun a b : ConnectorEvent => a.time ≤ b.time := ⟨fun a b => le_total ..⟩
      have trans : IsTrans ConnectorEvent fun a b => a.time ≤ b.time := ⟨fun _ _ _ => le_trans⟩
      exact List.pairwise_insertionSort _ _
    · intro e _ near
      have wide : inRange (slice.start - config.window.ms) slice.stop e.time = true :=
        inRange_slice after upTo near
      simp [wide, connectorAuthFailures.key, present_eq named]
    · intro e reads
      simp only [inRange, Bool.and_eq_true, decide_eq_true_eq] at reads
      exact reads.2
    · rw [counted]
      rcases ends with ⟨row, mem, at'⟩ | ⟨run, mem, at'⟩
      · exact ⟨_, List.mem_append_left _ (List.mem_map_of_mem mem), at'⟩
      · exact ⟨_, List.mem_append_right _ (List.mem_map_of_mem mem), at'⟩
    · rw [inside]
      have units (runs : List SyncRunRow) :
          ((runs.map SyncRunRow.connectorEvent).map opts.weight).sum = runs.length := by
        rw [List.map_map]
        exact sum_unit runs
      have counts (rows : List SecuritySignal) :
          ((rows.map SecuritySignal.connectorEvent).map opts.weight).sum =
            ((rows.map SecuritySignal.count).sum : Nat) := by
        rw [List.map_map]
        exact sum_counts rows
      refine decide_eq_true ?_
      unfold WindowOptions.summarize
      dsimp only
      rw [List.map_append, List.sum_append, counts, units]
      exact_mod_cast failures
  obtain ⟨d, mem, is⟩ := found
  exact ⟨d, List.mem_append_left _ mem, is⟩

theorem finds_caller {config : RepeatedDenialsConfig} {key : ActorType × String}
    {refused : List AccessRow} {crossTenant : List AuditRow}
    (refusedAre : refused = listAccessByStatus server history 403 (slice.start - config.window.ms) slice.stop)
    (crossTenantAre : crossTenant = listAuditEvents server history "security.access" "request.denied"
      CROSS_TENANT_REASONS (slice.start - config.window.ms) slice.stop)
    (called : (∃ row ∈ refused, authorizationFailures.totalKey row = some key) ∨
      ∃ row ∈ crossTenant, authorizationFailures.crossKey row = some key)
    (found : (slidingWindow (authorizationFailures.crossOptions config slice.start)
        (crossTenant.filter fun row => authorizationFailures.crossKey row = some key)).isSome = true ∨
      (slidingWindow (authorizationFailures.totalOptions config slice.start)
        (refused.filter fun row => authorizationFailures.totalKey row = some key)).isSome = true) :
    Finds (authorizationFailures.evaluate config server history slice) slice
      { type := key.1.name, id := key.2 } := by
  subst refusedAre crossTenantAre
  set cross := slidingWindow (authorizationFailures.crossOptions config slice.start) _ with crossIs
  set total := slidingWindow (authorizationFailures.totalOptions config slice.start) _ with totalIs
  have crossWithin (w : Window AuditRow) (is : cross = some w) :
      slice.start < w.stop ∧ w.stop ≤ slice.stop := by
    obtain ⟨row, mem, later, at'⟩ := stop_slidingWindow (crossIs.symm.trans is)
    have reads := of_mem_readSorted (List.mem_of_mem_filter mem)
    simp only [auditFilter, inRange, Bool.and_eq_true, decide_eq_true_eq] at reads
    rw [at']
    exact ⟨(WindowOptions.later_iff rfl).mp later, reads.1.2.2⟩
  have totalWithin (w : Window AccessRow) (is : total = some w) :
      slice.start < w.stop ∧ w.stop ≤ slice.stop := by
    obtain ⟨row, mem, later, at'⟩ := stop_slidingWindow (totalIs.symm.trans is)
    have reads := of_mem_readSorted (List.mem_of_mem_filter mem)
    simp only [accessFilter, inRange, Bool.and_eq_true, decide_eq_true_eq] at reads
    rw [at']
    exact ⟨(WindowOptions.later_iff rfl).mp later, reads.2.2⟩
  have either : (cross.isNone && total.isNone) = false := by
    rcases found with is | is
    · rw [Option.isNone_eq_false_iff.mpr is, Bool.false_and]
    · rw [Option.isNone_eq_false_iff.mpr is, Bool.and_false]
  refine ⟨_, List.mem_filterMap.mpr ⟨key, ?_, if_neg (Bool.eq_false_iff.mp either)⟩, ⟨rfl, rfl, rfl⟩, ?_⟩
  · rw [List.mem_eraseDups]
    rcases called with ⟨row, mem, is⟩ | ⟨row, mem, is⟩
    · exact List.mem_append_left _ (List.mem_filterMap.mpr ⟨row, mem, is⟩)
    · exact List.mem_append_right _ (List.mem_filterMap.mpr ⟨row, mem, is⟩)
  · change ∃ last, (cross.map Window.stop).or (total.map Window.stop) = some last ∧ _
    cases is : cross with
    | some w => exact ⟨w.stop, rfl, crossWithin w is⟩
    | none =>
        cases is' : total with
        | some w => exact ⟨w.stop, rfl, totalWithin w is'⟩
        | none => simp [is, is'] at either

theorem finds_denials {config : RepeatedDenialsConfig} {actorType : ActorType} {actorId : String}
    (whole : Whole DEFAULT_LIMIT (authorizationFailures.totalReads config slice) history.accessLog)
    (after : slice.start < stop) (upTo : stop ≤ slice.stop) (named : actorId ≠ "")
    (ends : ∃ row ∈ history.refusalsOf actorType actorId, row.occurredAt = stop)
    (refused : config.minDenials ≤ (within config.window stop AccessRow.occurredAt
      (history.refusalsOf actorType actorId)).length) :
    Finds (authorizationFailures.evaluate config server history slice) slice
      { type := actorType.name, id := actorId } := by
  let counted (row : AccessRow) : Bool :=
    row.statusCode = 403 && row.actorType = actorType && row.actorId = some actorId
  have same (row : AccessRow) (_ : row ∈ history.accessLog)
      (inside : inRange (stop - config.window.ms) stop row.occurredAt = true) :
      (authorizationFailures.totalReads config slice row &&
        decide (authorizationFailures.totalKey row = some (actorType, actorId))) = counted row := by
    have wide := inRange_slice after upTo inside
    simp [authorizationFailures.totalReads, authorizationFailures.totalKey, accessFilter,
      actorKey_eq named, counted, wide, Bool.and_assoc]
  let opts := authorizationFailures.totalOptions config slice.start
  have count : (opts.summarize _).count = _ :=
    sum_unit (within config.window stop AccessRow.occurredAt (history.refusalsOf actorType actorId))
  obtain ⟨called, w, is, -⟩ := slidingWindow_group opts counted config.window.ms_pos
    (perm_readSorted whole) (sorted_readSorted ..) ((WindowOptions.later_iff rfl).mpr after) same ends
    (decide_eq_true ((Int.ofNat_le.mpr refused).trans_eq count.symm))
  exact @finds_caller _ _ _ config (actorType, actorId) _ _ rfl rfl (.inl called)
    (.inr (Option.isSome_iff_exists.mpr ⟨w, is⟩))

theorem finds_crossTenant {config : RepeatedDenialsConfig} {actorType : ActorType} {actorId : String}
    (whole : Whole DEFAULT_LIMIT (authorizationFailures.crossReads config slice) history.auditLog)
    (after : slice.start < stop) (upTo : stop ≤ slice.stop) (named : actorId ≠ "")
    (ends : ∃ row ∈ history.crossTenantOf actorType actorId, row.occurredAt = stop)
    (refused : config.minCrossTenantDenials ≤ (within config.window stop AuditRow.occurredAt
      (history.crossTenantOf actorType actorId)).length) :
    Finds (authorizationFailures.evaluate config server history slice) slice
      { type := actorType.name, id := actorId } := by
  let counted (row : AuditRow) : Bool :=
    row.module = "security.access" && row.action = "request.denied" &&
      row.reason.any CROSS_TENANT_REASONS.contains && row.actorType = actorType &&
      row.actorId = some actorId
  have same (row : AuditRow) (_ : row ∈ history.auditLog)
      (inside : inRange (stop - config.window.ms) stop row.occurredAt = true) :
      (authorizationFailures.crossReads config slice row &&
        decide (authorizationFailures.crossKey row = some (actorType, actorId))) = counted row := by
    have wide := inRange_slice after upTo inside
    simp [authorizationFailures.crossReads, authorizationFailures.crossKey, auditFilter,
      actorKey_eq named, counted, wide, Bool.and_assoc]
  let opts := authorizationFailures.crossOptions config slice.start
  have count : (opts.summarize _).count = _ :=
    sum_unit (within config.window stop AuditRow.occurredAt (history.crossTenantOf actorType actorId))
  obtain ⟨called, w, is, -⟩ := slidingWindow_group opts counted config.window.ms_pos
    (perm_readSorted whole) (sorted_readSorted ..) ((WindowOptions.later_iff rfl).mpr after) same ends
    (decide_eq_true ((Int.ofNat_le.mpr refused).trans_eq count.symm))
  exact @finds_caller _ _ _ config (actorType, actorId) _ _ rfl rfl (.inr called)
    (.inl (Option.isSome_iff_exists.mpr ⟨w, is⟩))

/-- A rule whose reads are whole finds whoever has met its thresholds within the slice. -/
theorem finds_of_breach {configs : RuleConfigs} {rule : WatchedRule} {culprit : Culprit}
    (whole : rule.Whole configs history slice) (after : slice.start < stop) (upTo : stop ≤ slice.stop)
    (breach : Breach configs history stop rule culprit) :
    ∃ found, (rule.rule configs server history).evaluate slice = .ok found ∧
      Finds found slice culprit := by
  cases breach with
  | stuffing named ends failures accounts =>
      exact ⟨_, rfl, finds_stuffing whole after upTo named ends failures accounts⟩
  | admin named ends failures => exact ⟨_, rfl, finds_admin whole after upTo named ends failures⟩
  | spike named ends requests rate =>
      exact ⟨_, rfl, finds_spike whole after upTo named ends requests rate⟩
  | connector named ends failures =>
      exact ⟨_, rfl, finds_connector whole.1 whole.2.1 after upTo named ends failures⟩
  | probing named ends refused =>
      exact ⟨_, rfl, finds_probing whole.2.2 after upTo named ends refused⟩
  | denials named ends refused => exact ⟨_, rfl, finds_denials whole.1 after upTo named ends refused⟩
  | crossTenant named ends refused =>
      exact ⟨_, rfl, finds_crossTenant whole.2 after upTo named ends refused⟩

end Found

end AnalyticsBackend.Security
