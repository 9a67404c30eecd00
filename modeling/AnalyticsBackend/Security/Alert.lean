import AnalyticsBackend.Delivery.Pipeline
import AnalyticsBackend.Lib.Mongo.Value

/-!
# Security alerts

`models/SecurityAlert.js` and `models/SecurityDetectionCursor.js` with their repositories. The ids of
alerts are unique, so an update by id is written as a map over the alerts. The `details` of the
evidence are left out. A call to the database may fail, and the failed call may have been carried out.
-/

namespace AnalyticsBackend.Security
open Lib Collection Mongo Delivery

/-! ## Alerts -/

/-- `ALERT_SEVERITIES`. -/
inductive Severity where
  | low
  | medium
  | high
  | critical
  deriving DecidableEq, Repr

def Severity.rank : Severity → Nat
  | .low => 1
  | .medium => 2
  | .high => 3
  | .critical => 4

/-- `ALERT_STATUSES`. -/
inductive AlertStatus where
  | opened
  | acknowledged
  | falsePositive
  | resolved
  deriving DecidableEq, Repr

def AlertStatus.name : AlertStatus → String
  | .opened => "open"
  | .acknowledged => "acknowledged"
  | .falsePositive => "false_positive"
  | .resolved => "resolved"

/-- `EVIDENCE_SOURCES`. -/
inductive EvidenceSource where
  | loginAttempt
  | auditLog
  | accessLog
  | auditExport
  | securitySignal
  | syncRun
  | queue
  | apiKey
  deriving DecidableEq, Repr

structure EvidenceRef where
  source : EvidenceSource
  id : Option String
  time : Option Int
  label : String
  deriving DecidableEq, Repr

structure AlertSubject where
  type : String
  id : String
  display : Option String
  deriving DecidableEq, Repr

structure AlertActor where
  id : Option String
  display : Option String
  deriving DecidableEq, Repr

inductive HistoryAction where
  | raised
  | merged
  | escalated
  | acknowledged
  | falsePositive
  | resolved
  | notified
  deriving DecidableEq, Repr

/-- An entry of `history`; `before` and `after` are its `from` and `to`. -/
structure HistoryEntry where
  time : Int
  action : HistoryAction
  actor : Option AlertActor := none
  before : Option String := none
  after : Option String := none
  note : Option String := none
  deriving DecidableEq, Repr

inductive Channel where
  | email
  | webhook
  deriving DecidableEq, Repr

def Channel.name : Channel → String
  | .email => "email"
  | .webhook => "webhook"

inductive NotificationStatus where
  | sent
  | queued
  | failed
  | skipped
  deriving DecidableEq, Repr

/-- An entry of `notifications`; its channel is `none` where no target is configured. -/
structure AlertNotification where
  time : Int
  channel : Option Channel
  target : Option String
  status : NotificationStatus
  code : Option String
  deliveryId : Option String
  deriving DecidableEq, Repr

structure SecurityAlert where
  id : ObjectId
  ruleId : String
  ruleVersion : Nat
  title : String
  summary : String
  severity : Severity
  severityRank : Nat
  status : AlertStatus := .opened
  dedupeKey : String
  activeKey : Option String
  subject : AlertSubject
  tenantId : Option String
  firstSeenAt : Int
  lastSeenAt : Int
  windowStart : Option Int
  windowEnd : Option Int
  occurrences : Nat
  counts : List (String × Int)
  refs : List EvidenceRef
  owner : Option AlertActor := none
  acknowledgedAt : Option Int := none
  acknowledgedBy : Option AlertActor := none
  closedAt : Option Int := none
  closedBy : Option AlertActor := none
  resolutionNote : Option String := none
  history : List HistoryEntry
  notifiedAt : Option Int := none
  notifications : List AlertNotification := []
  deriving DecidableEq, Repr

def MAX_EVIDENCE_REFS : Nat := 50

def MAX_HISTORY : Nat := 100

/-- `$slice: -n`. -/
def newest {A : Type} (n : Nat) (items : List A) : List A := items.drop (items.length - n)

/-- What the schema asks of a new alert. -/
def SecurityAlert.valid (alert : SecurityAlert) : Bool :=
  trim alert.ruleId ≠ "" && jsLength (trim alert.ruleId) ≤ 80 && 1 ≤ alert.ruleVersion &&
    alert.title ≠ "" && jsLength alert.title ≤ 200 && jsLength alert.summary ≤ 1000 &&
    alert.dedupeKey ≠ "" && jsLength alert.dedupeKey ≤ 400 &&
    alert.subject.type ≠ "" && jsLength alert.subject.type ≤ 40 &&
    alert.subject.id ≠ "" && jsLength alert.subject.id ≤ 200 &&
    alert.subject.display.all (jsLength · ≤ 300) && alert.refs.all (jsLength ·.label ≤ 300)

def SecurityAlert.addHistory (alert : SecurityAlert) (entries : List HistoryEntry) : SecurityAlert :=
  { alert with history := newest MAX_HISTORY (alert.history ++ entries) }

/-! ### Merges -/

/-- What `mergeIntoActive` is given. -/
structure AlertMerge where
  lastSeenAt : Int
  windowStart : Option Int
  windowEnd : Option Int
  severity : Severity
  severityRank : Nat
  counts : List (String × Int)
  refs : List EvidenceRef
  history : HistoryEntry
  deriving DecidableEq, Repr

def mergeRefs (old new : List EvidenceRef) : List EvidenceRef :=
  let key (ref : EvidenceRef) := (ref.source, ref.id.getD "")
  newest MAX_EVIDENCE_REFS (old.filter (fun ref => !(new.map key).contains (key ref)) ++ new)

/-- The stage of `mergeIntoActive`. -/
def AlertMerge.apply (merge : AlertMerge) (alert : SecurityAlert) : SecurityAlert :=
  { alert with
    lastSeenAt := max alert.lastSeenAt merge.lastSeenAt
    windowEnd := some (max (alert.windowEnd.getD (merge.windowEnd.getD merge.lastSeenAt))
      (merge.windowEnd.getD merge.lastSeenAt))
    windowStart :=
      match merge.windowStart with
      | some start => if alert.windowStart.all (start < ·) then some start else alert.windowStart
      | none => alert.windowStart
    occurrences := alert.occurrences + 1
    severity := if alert.severityRank < merge.severityRank then merge.severity else alert.severity
    severityRank := max alert.severityRank merge.severityRank
    counts := merge.counts
    refs := mergeRefs alert.refs merge.refs
    history := newest MAX_HISTORY (alert.history ++ [merge.history]) }

/-! ### Triage -/

inductive TriageAction where
  | acknowledge
  | falsePositive
  | resolve
  deriving DecidableEq, Repr

/-- `TRANSITIONS`. -/
def TriageAction.fromStatuses : TriageAction → List AlertStatus
  | .acknowledge => [.opened]
  | .falsePositive | .resolve => [.opened, .acknowledged]

/-- `to` of `TRANSITIONS`. -/
def TriageAction.toStatus : TriageAction → AlertStatus
  | .acknowledge => .acknowledged
  | .falsePositive => .falsePositive
  | .resolve => .resolved

/-- What `transition` sets; closing unsets `activeKey`. -/
structure Triage where
  action : TriageAction
  now : Int
  actor : AlertActor
  owner : Option AlertActor
  note : String
  history : HistoryEntry
  deriving DecidableEq, Repr

def Triage.apply (triage : Triage) (alert : SecurityAlert) : SecurityAlert :=
  let alert := { alert.addHistory [triage.history] with owner := triage.owner.or alert.owner }
  match triage.action with
  | .acknowledge =>
      { alert with
        status := .acknowledged
        acknowledgedAt := some triage.now
        acknowledgedBy := some triage.actor }
  | .falsePositive =>
      { alert with
        status := .falsePositive
        activeKey := none
        closedAt := some triage.now
        closedBy := some triage.actor
        resolutionNote := some triage.note }
  | .resolve =>
      { alert with
        status := .resolved
        activeKey := none
        closedAt := some triage.now
        closedBy := some triage.actor
        resolutionNote := some triage.note }

/-! ## The store -/

/-- `SecurityDetectionCursor`. -/
structure DetectionCursor where
  watermark : Option Int
  ruleVersion : Nat
  lastRunAt : Option Int
  lastDetections : Nat
  lastError : Option String
  deriving DecidableEq, Repr

/-- How a call ends: `refused` has done nothing, `unanswered` was carried out. -/
inductive Fault where
  | none
  | refused
  | unanswered
  deriving DecidableEq, Repr

/-- The alerts, the cursors of the rules, the delivery pipeline, and how the next call ends. -/
structure DetectionDb where
  alerts : List SecurityAlert
  nextId : Nat
  cursors : String → Option DetectionCursor
  delivery : DeliveryDb
  fault : Fault

namespace DetectionDb

def watermark (db : DetectionDb) (ruleId : String) : Option Int :=
  (db.cursors ruleId).bind DetectionCursor.watermark

/-- `findActiveByKey`. -/
def findActiveByKey (db : DetectionDb) (dedupeKey : String) : Option SecurityAlert :=
  db.alerts.find? fun a => a.activeKey = some dedupeKey

/-- `findById`. -/
def findById (db : DetectionDb) (id : ObjectId) : Option SecurityAlert :=
  db.alerts.find? fun a => a.id = id

/-- `findRecentlyClosed`. -/
def findRecentlyClosed (db : DetectionDb) (dedupeKey : String) (status : AlertStatus) (since : Int) :
    Option SecurityAlert :=
  letI : Preorder Int := Int.instLinearOrder.toPreorder
  (db.alerts.filter fun a =>
    a.dedupeKey = dedupeKey && a.status = status && a.closedAt.any (since ≤ ·)).argmax
      fun a => a.closedAt.getD 0

end DetectionDb

/-! ## Steps -/

/-- What `advance` sets. -/
structure CursorAdvance where
  watermark : Int
  ruleVersion : Nat
  lastRunAt : Int
  detections : Nat
  deriving DecidableEq, Repr

/-- What a rule is evaluated over: the events in `(start, stop]`, in a run at `now`. -/
structure Slice where
  start : Int
  stop : Int
  now : Int
  finalSlice : Bool
  deriving DecidableEq, Repr

inductive RaiseOutcome where
  | raised
  | merged
  | suppressed
  deriving DecidableEq, Repr

/-- What has become of a detection. -/
structure Raised where
  dedupeKey : String
  severityRank : Nat
  windowEnd : Int
  outcome : RaiseOutcome
  alert : Option ObjectId
  deriving DecidableEq, Repr

/-- A slice that has been evaluated: where the run had its start from, and its detections. -/
structure SliceRecord where
  slice : Slice
  resumed : Bool
  raised : List Raised
  deriving DecidableEq, Repr

/-- The label of an atomic step. -/
inductive DetectionLabel where
  | look
  | evaluate (ruleId : String) (slice : Slice)
  | createActive (alert : SecurityAlert)
  | mergeIntoActive (dedupeKey : String) (merge : AlertMerge)
  | appendHistory (id : ObjectId) (entry : HistoryEntry)
  | claimNotification (id : ObjectId) (now : Int)
  | handOver (id : ObjectId) (channel : Channel)
  | delivery (label : DeliveryLabel)
  | recordNotifications (id : ObjectId) (entries : List AlertNotification) (now : Int)
  | advance (ruleId : String) (state : CursorAdvance) (record : SliceRecord)
  | recordError (ruleId : String) (lastRunAt : Int) (message : String) (ruleVersion : Nat)
  | transition (id : ObjectId) (triage : Triage)
  deriving DecidableEq, Repr

/-- The unique indexes hold the alert already. -/
def DetectionDb.refuses (db : DetectionDb) (alert : SecurityAlert) : Bool :=
  (db.findActiveByKey alert.dedupeKey).isSome

/-- The alert that `createActive` inserts; its id is drawn. -/
def DetectionDb.active (db : DetectionDb) (alert : SecurityAlert) : SecurityAlert :=
  { alert with id := ⟨db.nextId⟩, activeKey := some alert.dedupeKey, status := .opened }

/-- The alerts that a step selects. -/
def DetectionLabel.selects (label : DetectionLabel) (alert : SecurityAlert) : Bool :=
  match label with
  | .mergeIntoActive dedupeKey _ => alert.activeKey = some dedupeKey
  | .claimNotification id _ => alert.id = id && alert.notifiedAt.isNone
  | .appendHistory id _ | .recordNotifications id _ _ => alert.id = id
  | .transition id triage => alert.id = id && triage.action.fromStatuses.contains alert.status
  | _ => false

/-- What becomes of an alert that a step selects. -/
def DetectionLabel.set (label : DetectionLabel) (alert : SecurityAlert) : SecurityAlert :=
  match label with
  | .mergeIntoActive _ merge => merge.apply alert
  | .claimNotification _ now => { alert with notifiedAt := some now }
  | .appendHistory _ entry => alert.addHistory [entry]
  | .recordNotifications _ entries now =>
      let note := s!"{entries.length} notification(s)"
      { alert.addHistory [{ time := now, action := .notified, note := some note }] with
        notifications := newest 50 (alert.notifications ++ entries) }
  | .transition _ triage => triage.apply alert
  | _ => alert

/-- `advance` of a cursor: the watermark is a `$max`. -/
def CursorAdvance.apply (state : CursorAdvance) (cursor : Option DetectionCursor) : DetectionCursor where
  watermark :=
    match cursor.bind DetectionCursor.watermark with
    | some watermark => some (max watermark state.watermark)
    | none => some state.watermark
  ruleVersion := state.ruleVersion
  lastRunAt := some state.lastRunAt
  lastDetections := state.detections
  lastError := none

/-- `recordError` of a cursor. -/
def failedCursor (lastRunAt : Int) (message : String) (ruleVersion : Nat)
    (cursor : Option DetectionCursor) : DetectionCursor where
  watermark := cursor.bind DetectionCursor.watermark
  ruleVersion := ruleVersion
  lastRunAt := some lastRunAt
  lastDetections := (cursor.map DetectionCursor.lastDetections).getD 0
  lastError := some (slice 500 message)

def DetectionDb.setCursor (db : DetectionDb) (ruleId : String) (cursor : DetectionCursor) :
    DetectionDb :=
  { db with cursors := Function.update db.cursors ruleId (some cursor) }

/-- What a step does. -/
def DetectionLabel.act (label : DetectionLabel) (db : DetectionDb) : DetectionDb :=
  match label with
  | .look | .evaluate _ _ | .handOver _ _ => db
  | .createActive alert =>
      if db.refuses alert then db
      else { db with alerts := db.alerts ++ [db.active alert], nextId := db.nextId + 1 }
  | .delivery label => { db with delivery := label.act db.delivery }
  | .advance ruleId state _ => db.setCursor ruleId (state.apply (db.cursors ruleId))
  | .recordError ruleId lastRunAt message ruleVersion =>
      db.setCursor ruleId (failedCursor lastRunAt message ruleVersion (db.cursors ruleId))
  | _ => { db with alerts := db.alerts.map fun a => if label.selects a then label.set a else a }

/-- What is left of the store by a call that ends in some way; to hand over is no call. -/
def DetectionLabel.perform (label : DetectionLabel) (db : DetectionDb) : DetectionDb :=
  match label with
  | .handOver _ _ => db
  | label =>
      let rest := { db with fault := .none }
      if db.fault = .refused then rest else label.act rest

abbrev DetectionProg := Prog DetectionLabel DetectionDb

/-- A program that may throw the message of an error. -/
abbrev DetectionM := ExceptT String DetectionProg

/-- A call to the database. -/
def call {A : Type} (label : DetectionLabel) (report : DetectionDb → A) : DetectionM A :=
  ExceptT.mk (Prog.update label label.perform fun db =>
    if db.fault = .none then .ok (report db) else .error "Internal server error")

/-- A `try` whose `catch` goes on. -/
def attempt {A : Type} (p : DetectionM A) : DetectionM (Except String A) :=
  ExceptT.mk (p.run >>= fun result => pure (.ok result))

def selected (label : DetectionLabel) (db : DetectionDb) : Option SecurityAlert :=
  db.alerts.find? label.selects

end AnalyticsBackend.Security
