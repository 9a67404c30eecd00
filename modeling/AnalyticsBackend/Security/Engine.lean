import AnalyticsBackend.Security.Notifier

/-!
# The detection engine

`services/securityDetection/engine.js`, and the triage of `services/securityAlert.service.js`. What a
rule finds in a slice is a parameter. The counters of a run and security events are left out.
-/

namespace AnalyticsBackend.Security
open Lib Mongo Delivery

/-! ## Detections -/

/-- What a rule hands to the engine. -/
structure Detection where
  subject : AlertSubject
  dedupe : Option String := none
  severity : Option Severity := none
  tenantId : Option String := none
  title : Option String := none
  summary : String
  windowStart : Option Int
  windowEnd : Option Int
  counts : List (String × Int)
  refs : List EvidenceRef
  deriving DecidableEq, Repr

structure Rule where
  id : String
  version : Nat
  title : String
  severity : Severity
  lagMs : Int := 0
  enabled : Bool
  evaluate : Slice → Except String (List Detection)

def MAX_DEDUPE_KEY : Nat := 400

/-- `dedupeKeyFor`. -/
def dedupeKeyFor (sha256 : String → String) (rule : Rule) (detection : Detection) : String :=
  let subject := s!"{detection.subject.type}:{detection.subject.id}"
  let parts := [rule.id, subject] ++ detection.dedupe.toList
  let raw := "|".intercalate (parts.filter (· ≠ ""))
  if jsLength raw ≤ MAX_DEDUPE_KEY then raw else s!"{rule.id}|sha256:{sha256 raw}"

/-- `severityOf`. -/
def severityOf (rule : Rule) (detection : Detection) : Severity := detection.severity.getD rule.severity

/-! ## Raising -/

/-- What `raiseDetection` answers. -/
structure RaiseResult where
  outcome : RaiseOutcome
  alert : Option ObjectId
  notified : Bool
  deriving DecidableEq, Repr

/-- The `options` of a run. -/
structure DetectionRun where
  now : Int
  rules : List Rule
  notify : Bool := true
  outside : ObjectId → Channel → Outside

section Run

variable (settings : DetectionSettings) (run : DetectionRun)

/-- `windowStart` and `lastSeenAt` of a detection. -/
def Detection.lastSeenAt (detection : Detection) : Int := detection.windowEnd.getD run.now

def Detection.start (detection : Detection) : Int :=
  detection.windowStart.getD (detection.lastSeenAt run)

def Detection.merge (rule : Rule) (detection : Detection) : AlertMerge where
  lastSeenAt := detection.lastSeenAt run
  windowStart := some (detection.start run)
  windowEnd := some (detection.lastSeenAt run)
  severity := severityOf rule detection
  severityRank := (severityOf rule detection).rank
  counts := detection.counts
  refs := newest 50 detection.refs
  history :=
    { time := run.now
      action := .merged
      note := if detection.summary = "" then none else some (slice 500 detection.summary) }

/-- The alert of a detection; its id is drawn as it is created. -/
def Detection.alert (rule : Rule) (detection : Detection) : SecurityAlert where
  id := ⟨0⟩
  ruleId := rule.id
  ruleVersion := rule.version
  title := slice 200 (detection.title.getD rule.title)
  summary := slice 1000 detection.summary
  severity := severityOf rule detection
  severityRank := (severityOf rule detection).rank
  dedupeKey := dedupeKeyFor settings.sha256 rule detection
  activeKey := some (dedupeKeyFor settings.sha256 rule detection)
  subject :=
    { type := slice 40 detection.subject.type
      id := slice 200 detection.subject.id
      display := (detection.subject.display.filter (· ≠ "")).map (slice 300) }
  tenantId := detection.tenantId.filter (· ≠ "")
  firstSeenAt := detection.start run
  lastSeenAt := detection.lastSeenAt run
  windowStart := some (detection.start run)
  windowEnd := some (detection.lastSeenAt run)
  occurrences := 1
  counts := detection.counts
  refs := newest 50 detection.refs
  history := [{ time := run.now, action := .raised }]

def Severity.name : Severity → String
  | .low => "low"
  | .medium => "medium"
  | .high => "high"
  | .critical => "critical"

def notifyEscalated (rank : Nat) (before : SecurityAlert) : DetectionM Bool := do
  if run.notify ∧ notifyThresholdRank settings ≤ rank ∧ before.notifiedAt.isNone then
    let current ← call .look fun db => db.findById before.id
    match current with
    | none => return false
    | some current => notifyAlert settings run.outside current.id run.now
  else return false

/-- What follows a merge: `before` is the alert as it was. -/
def escalate (rule : Rule) (detection : Detection) (before : SecurityAlert) : DetectionM Bool := do
  let severity := severityOf rule detection
  if before.severityRank < severity.rank then
    call (.appendHistory before.id
      { time := run.now, action := .escalated, before := some before.severity.name
        after := some severity.name }) fun _ => ()
    notifyEscalated settings run severity.rank before
  else return false

/-- `merge` of `raiseDetection`. -/
def merge (rule : Rule) (detection : Detection) : DetectionM (Option RaiseResult) := do
  let label := DetectionLabel.mergeIntoActive (dedupeKeyFor settings.sha256 rule detection)
    (detection.merge run rule)
  let before ← call label (selected label)
  match before with
  | none => return none
  | some before =>
      let notified ← escalate settings run rule detection before
      return some { outcome := .merged, alert := some before.id, notified }

/-- `createActive`: the alert as it is inserted, and nothing where there is one with its key. -/
def createActive (alert : SecurityAlert) : DetectionM (Option SecurityAlert) :=
  if alert.valid then
    call (.createActive alert) fun db => if db.refuses alert then none else some (db.active alert)
  else throw "SecurityAlert validation failed"

def notifyCreated (rank : Nat) (id : ObjectId) : DetectionM Bool := do
  if run.notify ∧ notifyThresholdRank settings ≤ rank then notifyAlert settings run.outside id run.now
  else return false

/-- `raiseDetection` where no alert is suppressed. -/
def raiseNew (rule : Rule) (detection : Detection) : DetectionM RaiseResult := do
  let created ← createActive (detection.alert settings run rule)
  match created with
  | none =>
      let merged ← merge settings run rule detection
      return merged.getD { outcome := .merged, alert := none, notified := false }
  | some created =>
      let notified ← notifyCreated settings run created.severityRank created.id
      return { outcome := .raised, alert := some created.id, notified }

def dismissed (dedupeKey : String) : DetectionM (Option SecurityAlert) :=
  let suppressHours := settings.falsePositiveSuppressHours
  if 0 < suppressHours then
    call .look fun db =>
      db.findRecentlyClosed dedupeKey .falsePositive (run.now - suppressHours * 3600000)
  else return none

def mergeExisting (rule : Rule) (detection : Detection) (existing : Option SecurityAlert) :
    DetectionM (Option RaiseResult) :=
  if existing.isSome then merge settings run rule detection else return none

/-- `raiseDetection`. -/
def raiseDetection (rule : Rule) (detection : Detection) : DetectionM RaiseResult := do
  let dedupeKey := dedupeKeyFor settings.sha256 rule detection
  let existing ← call .look fun db => db.findActiveByKey dedupeKey
  let merged ← mergeExisting settings run rule detection existing
  match merged with
  | some merged => return merged
  | none =>
      let suppressing ← dismissed settings run dedupeKey
      match suppressing with
      | some alert => return { outcome := .suppressed, alert := some alert.id, notified := false }
      | none => raiseNew settings run rule detection

/-! ## Runs -/

/-- The detections of a slice, one after the other. -/
def raiseAll (rule : Rule) : List Detection → List Raised → DetectionM (List Raised)
  | [], raised => return raised
  | detection :: rest, raised => do
      let result ← raiseDetection settings run rule detection
      raiseAll rule rest (raised ++
        [{ dedupeKey := dedupeKeyFor settings.sha256 rule detection
           severityRank := (severityOf rule detection).rank
           windowEnd := detection.lastSeenAt run
           outcome := result.outcome
           alert := result.alert }])

def SLICE_MS : Int := 3600000

/-- The slices of a run from `start` to `stop`. -/
def slices (stop : Int) : Nat → Int → List Slice
  | 0, _ => []
  | n + 1, start =>
      if start < stop then
        let sliceTo := min stop (start + SLICE_MS)
        { start, stop := sliceTo, now := run.now, finalSlice := sliceTo = stop } ::
          slices stop n sliceTo
      else []

/-- What a rule finds. -/
def evaluate (rule : Rule) (slice : Slice) : DetectionM (List Detection) := do
  let found ← call (.evaluate rule.id slice) fun _ => rule.evaluate slice
  match found with
  | .ok found => return found
  | .error message => throw message

def runSlices (rule : Rule) (resumed : Bool) : List Slice → Nat → DetectionM Nat
  | [], detections => return detections
  | slice :: rest, detections => do
      let found ← evaluate rule slice
      let raised ← raiseAll settings run rule found []
      let detections := detections + found.length
      call (.advance rule.id
        { watermark := slice.stop, ruleVersion := rule.version, lastRunAt := run.now, detections }
        { slice, resumed, raised }) fun _ => ()
      runSlices rule resumed rest detections

/-- How a rule has fared in a run. -/
inductive RuleStatus where
  | disabled
  | upToDate
  | ok (detections : Nat)
  | failed (error : String)
  deriving DecidableEq, Repr

/-- `to` of a rule. -/
def Rule.stop (rule : Rule) : Int := run.now - max 0 settings.settleSec * 1000 - rule.lagMs

/-- `from` of a rule, and whether it is the watermark that it has found. -/
def Rule.start (rule : Rule) (watermark : Option Int) : Int × Bool :=
  let stop := rule.stop settings run
  let start := watermark.getD (stop - max 1 settings.initialLookbackMinutes * 60000)
  let floor := stop - max 1 settings.maxCatchUpHours * 3600000
  if start < floor then (floor, false) else (start, watermark.isSome)

/-- As many slices as a span may have. -/
def sliceCount (start stop : Int) : Nat := ((stop - start) / SLICE_MS).toNat + 1

/-- The `try` of a rule. -/
def evaluateRule (rule : Rule) : DetectionM RuleStatus := do
  let watermark ← call .look fun db => db.watermark rule.id
  let (start, resumed) := rule.start settings run watermark
  let stop := rule.stop settings run
  if stop ≤ start then return .upToDate
  else
    let detections ← runSlices settings run rule resumed
      (slices run stop (sliceCount start stop) start) 0
    return .ok detections

/-- One turn of the loop of `runDetection`. -/
def runRule (rule : Rule) : DetectionM RuleStatus := do
  if rule.enabled = false then return .disabled
  else
    match ← attempt (evaluateRule settings run rule) with
    | .ok status => return status
    | .error message =>
        let _ ← attempt (call (.recordError rule.id run.now message rule.version) fun _ => ())
        return .failed message

def runRules : List Rule → List (String × RuleStatus) → DetectionM (List (String × RuleStatus))
  | [], results => return results
  | rule :: rest, results => do
      let status ← runRule settings run rule
      runRules rest (results ++ [(rule.id, status)])

/-- `runDetection`. -/
def runDetection : DetectionM (List (String × RuleStatus)) := runRules settings run run.rules []

end Run

/-! ## Triage -/

/-- What `transition` is called with; the admin is authenticated. -/
structure TriageRequest where
  id : ObjectId
  action : TriageAction
  admin : AlertActor
  tenantScope : Option String
  note : String
  now : Int

def TriageRequest.triage (req : TriageRequest) (alert : SecurityAlert) : Triage where
  action := req.action
  now := req.now
  actor := req.admin
  owner := if req.action = .acknowledge ∨ alert.owner.isNone then some req.admin else none
  note := trim req.note
  history :=
    { time := req.now
      action :=
        match req.action with
        | .acknowledge => .acknowledged
        | .falsePositive => .falsePositive
        | .resolve => .resolved
      actor := some req.admin
      before := some alert.status.name
      after := some req.action.toStatus.name
      note := if trim req.note = "" then none else some (trim req.note) }

def NOTE_MAX_LENGTH : Nat := 2000

@[irreducible] def noteTooLong (note : String) : Bool := NOTE_MAX_LENGTH < jsLength note

/-- `transition` of the service. -/
def transition (req : TriageRequest) : DetectionM Unit := do
  if req.action ≠ .acknowledge ∧ trim req.note = "" then throw "A note is required"
  else if noteTooLong (trim req.note) then throw "Note is too long"
  else
    let alert ← call .look fun db => db.findById req.id
    match alert.filter fun alert => req.tenantScope.all fun scope => alert.tenantId = some scope with
    | none => throw "Security alert not found"
    | some alert =>
        if req.action.fromStatuses.contains alert.status then
          call (.transition alert.id (req.triage alert)) fun _ => ()
        else throw "SECURITY_ALERT_STATE_CONFLICT"

/-! ## The system -/

inductive DetectionCall where
  | detect (run : DetectionRun)
  | triage (req : TriageRequest)

def DetectionCall.program (settings : DetectionSettings) : DetectionCall → DetectionProg Unit
  | .detect run => (runDetection settings run).run >>= fun _ => pure ()
  | .triage req => (transition req).run >>= fun _ => pure ()

/-- Any number of the calls that are made. From outside calls fail, and whatever else is delivered
leaves no run of a security alert behind. -/
def detectionSystem (settings : DetectionSettings) (made : DetectionCall → Prop) :
    System Nat DetectionLabel DetectionDb Unit where
  start := fun _ p => ∃ call, made call ∧ p = call.program settings
  env := fun db db' =>
    db'.alerts = db.alerts ∧ db'.nextId = db.nextId ∧ db'.cursors = db.cursors ∧
      ∀ run ∈ db'.delivery.runs, run.kind = DELIVERY_KIND → run ∈ db.delivery.runs
  ok := fun _ _ _ => True

abbrev DetectionEvent := Event Nat DetectionLabel DetectionDb

abbrev DetectionWorld := World Nat DetectionLabel DetectionDb

abbrev DetectionConfig := Config Nat DetectionLabel DetectionDb Unit

end AnalyticsBackend.Security
