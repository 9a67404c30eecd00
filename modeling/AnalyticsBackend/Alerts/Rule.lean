import AnalyticsBackend.Lib.Js

/-!
# Alert rules

`models/AlertRule.js`, the measurement and the evaluation of `services/alert.service.js`, and the
two updates of `repositories/alert.repository.js` that an evaluation makes.
-/

namespace AnalyticsBackend.Alerts
open Lib

/-- `ALERT_CONDITIONS`. -/
inductive AlertCondition where
  | gt
  | gte
  | lt
  | lte
  | eq
  | neq
  | between
  deriving DecidableEq, Repr

/-- `ALERT_GROUP_EVALUATIONS`. -/
inductive GroupEvaluation where
  | total
  | any
  | all
  deriving DecidableEq, Repr

/-- `ALERT_REPEAT_MODES`. -/
inductive RepeatMode where
  | oncePerIncident
  | afterCooldown
  deriving DecidableEq, Repr

/-- `ALERT_EVALUATION_OUTCOMES`. -/
inductive EvaluationOutcome where
  | triggered
  | suppressed
  | notMet
  | noData
  | failed
  deriving DecidableEq, Repr

/-- `lastEvaluation`: the outcome of the most recent evaluation. -/
structure LastEvaluation where
  evaluatedAt : Int
  outcome : EvaluationOutcome
  value : Option ℚ
  groupsEvaluated : Option Nat
  groupsMatched : Option Nat
  error : Option String
  deriving DecidableEq

structure AlertRule where
  enabled : Bool := true
  metric : String := "count"
  groupEvaluation : GroupEvaluation := .total
  condition : AlertCondition
  threshold : ℚ
  thresholdHigh : Option ℚ := none
  cooldownMinutes : Int := 60
  repeatMode : RepeatMode := .oncePerIncident
  lastEvaluatedAt : Option Int := none
  lastTriggeredAt : Option Int := none
  nextEvaluationAt : Option Int := none
  lastEvaluation : Option LastEvaluation := none
  deriving DecidableEq

/-! ## The measurement -/

structure AlertGroup where
  group : List (String × String)
  value : ℚ
  deriving DecidableEq

/-- A row of the result: its group, and the metric where it is a finite number. -/
structure AlertRow where
  group : List (String × String) := []
  value : Option ℚ
  deriving DecidableEq

/-- What the query of a rule has returned: whether it groups its rows, and whether the metric is a
count or a sum. -/
structure AlertReading where
  grouped : Bool := false
  countOrSum : Bool := false
  rows : List AlertRow

/-- `compare`; a missing high threshold reads as zero. -/
def compare (condition : AlertCondition) (value : Option ℚ) (threshold : ℚ)
    (thresholdHigh : Option ℚ) : Bool :=
  match value with
  | none => false
  | some value =>
      match condition with
      | .gt => threshold < value
      | .gte => threshold ≤ value
      | .lt => value < threshold
      | .lte => value ≤ threshold
      | .eq => value = threshold
      | .neq => value ≠ threshold
      | .between => threshold ≤ value ∧ value ≤ thresholdHigh.getD 0

/-- `AlertRule` compares a value with its thresholds. -/
def AlertRule.holds (alert : AlertRule) (value : Option ℚ) : Bool :=
  compare alert.condition value alert.threshold alert.thresholdHigh

/-- `list.reduce`: the first of the greatest values. -/
def greatest : List AlertGroup → Option AlertGroup
  | [] => none
  | g :: gs => some (gs.foldl (fun a b => if a.value < b.value then b else a) g)

def least : List AlertGroup → Option AlertGroup
  | [] => none
  | g :: gs => some (gs.foldl (fun a b => if b.value < a.value then b else a) g)

/-- `judgeGroups`: whether the condition is met, by which value, and the groups that match. -/
def judgeGroups (alert : AlertRule) (groups : List AlertGroup) : Bool × Option ℚ × List AlertGroup :=
  if groups.isEmpty then (false, none, [])
  else
    let holds := fun g : AlertGroup => alert.holds (some g.value)
    let matched := groups.filter holds
    let highWins := alert.condition = .gt ∨ alert.condition = .gte
    let lowWins := alert.condition = .lt ∨ alert.condition = .lte
    match alert.groupEvaluation with
    | .any =>
        let pool := if matched.isEmpty then groups else matched
        let decisive := if highWins then greatest pool else if lowWins then least pool else pool.head?
        (!matched.isEmpty, decisive.map AlertGroup.value, matched)
    | _ =>
        let failing := groups.find? fun g => !holds g
        let decisive := if highWins then least groups else if lowWins then greatest groups
          else failing.or groups.head?
        (matched.length = groups.length, decisive.map AlertGroup.value, matched)

structure Measured where
  value : Option ℚ
  noData : Bool
  conditionMet : Bool
  groupsEvaluated : Option Nat := none
  groupsMatched : Option Nat := none
  sample : Option (List AlertGroup) := none

/-- `measure`, from what the query has returned. -/
def measure (alert : AlertRule) (reading : AlertReading) : Measured :=
  if reading.grouped ∧ alert.groupEvaluation ≠ .total then
    let groups := reading.rows.filterMap fun r => r.value.map (AlertGroup.mk r.group)
    let (conditionMet, value, matched) := judgeGroups alert groups
    { value, noData := groups.isEmpty, conditionMet, groupsEvaluated := groups.length
      groupsMatched := matched.length
      sample := (if alert.groupEvaluation = .any then matched else groups).take 5 }
  else
    let value := match reading.rows.head? with
      | some row => row.value
      | none => if reading.countOrSum then some 0 else none
    { value, noData := value.isNone, conditionMet := alert.holds value }

/-! ## The updates -/

/-- `new Date(ms)`, `none` for an invalid date. -/
def newDate (ms : Int) : Option Int :=
  if ms.natAbs ≤ 8640000000000000 then some ms else none

/-- `markEvaluated`. -/
def AlertRule.markEvaluated (alert : AlertRule) (lastEvaluatedAt : Int) (nextEvaluationAt : Int)
    (lastEvaluation : LastEvaluation) : AlertRule :=
  { alert with
    lastEvaluatedAt := some lastEvaluatedAt
    nextEvaluationAt := some nextEvaluationAt
    lastEvaluation := some lastEvaluation }

/-- `cooldownMs`. -/
def AlertRule.cooldownMs (alert : AlertRule) : Int := max 0 alert.cooldownMinutes * 60000

/-- `claimTrigger`: the rule, stamped, when it has never triggered or its cooldown has elapsed.
A bound that is no date is refused by the driver. -/
def AlertRule.claimTrigger (alert : AlertRule) (now : Int) (nextEvaluationAt : Int)
    (lastEvaluation : LastEvaluation) : Except String (Option AlertRule) :=
  match newDate (now - alert.cooldownMs) with
  | none => .error "Cast to date failed for value \"Invalid Date\" at path \"lastTriggeredAt\""
  | some bound =>
      .ok (if alert.lastTriggeredAt.all (· ≤ bound) then
        some { alert with
          lastTriggeredAt := some now
          lastEvaluatedAt := some now
          nextEvaluationAt := some nextEvaluationAt
          lastEvaluation := some lastEvaluation }
      else none)

/-! ## The evaluation -/

inductive AlertEventStatus where
  | triggered
  | suppressed
  deriving DecidableEq, Repr

/-- An `AlertEvent`. -/
structure AlertEvent where
  triggeredAt : Int
  value : Option ℚ
  status : AlertEventStatus
  deriving DecidableEq

structure EvaluationResult where
  triggered : Bool := false
  suppressed : Bool := false
  value : Option ℚ := none
  conditionMet : Bool := false
  noData : Bool := false
  outcome : Option EvaluationOutcome := none
  event : Option AlertEvent := none
  deriving DecidableEq

/-- An evaluation: what it returns or throws, the rule that is stored then, and the events that it
has dispatched notifications for. -/
structure Evaluated where
  result : Except String EvaluationResult
  alert : AlertRule
  notified : List AlertEvent := []

/-- An evaluation that is made: its instant, the next one projected, and what the query returns, or
the text of its failure. -/
structure AlertTick where
  now : Int
  isDate : (newDate now).isSome
  nextEvaluationAt : Int
  reading : Except String AlertReading

def evaluate (alert : AlertRule) (tick : AlertTick) : Evaluated :=
  if !alert.enabled then { result := .ok {}, alert }
  else
    match tick.reading with
    | .error error =>
        { result := .error error
          alert := alert.markEvaluated tick.now tick.nextEvaluationAt
            ⟨tick.now, .failed, none, none, none, some error⟩ }
    | .ok reading =>
        let m := measure alert reading
        let record := fun outcome =>
          LastEvaluation.mk tick.now outcome m.value m.groupsEvaluated m.groupsMatched none
        let marked := fun outcome =>
          alert.markEvaluated tick.now tick.nextEvaluationAt (record outcome)
        if !m.conditionMet then
          let outcome := if m.noData then EvaluationOutcome.noData else .notMet
          { result := .ok { value := m.value, noData := m.noData, outcome }, alert := marked outcome }
        else
          let suppressed : Evaluated :=
            { result := .ok { suppressed := true, value := m.value, conditionMet := true
                              outcome := some .suppressed
                              event := some ⟨tick.now, m.value, .suppressed⟩ }
              alert := marked .suppressed }
          let cooldownElapsed := alert.lastTriggeredAt.all (· ≤ tick.now - alert.cooldownMs)
          -- already firing, with the same value
          let unchanged := alert.lastEvaluation.any fun prev =>
            (prev.outcome = .triggered ∨ prev.outcome = .suppressed) ∧ prev.value = m.value
          if alert.repeatMode ≠ .afterCooldown ∧ 0 < alert.cooldownMs ∧ cooldownElapsed ∧ unchanged then
            suppressed
          else
            match alert.claimTrigger tick.now tick.nextEvaluationAt (record .triggered) with
            | .error error => { result := .error error, alert }
            | .ok none => suppressed
            | .ok (some claimed) =>
                let event : AlertEvent := ⟨tick.now, m.value, .triggered⟩
                { result := .ok { triggered := true, value := m.value, conditionMet := true
                                  outcome := some .triggered, event := some event }
                  alert := claimed
                  notified := [event] }

end AnalyticsBackend.Alerts
