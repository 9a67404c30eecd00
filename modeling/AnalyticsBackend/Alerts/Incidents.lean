import AnalyticsBackend.Alerts.Rule

/-!
# Incidents are notified once

A rule that notifies once an incident is to notify again only when its condition has cleared since,
or its value differs from the value last notified. The evaluation remembers the last evaluation,
not the last notification: a failure in between forgets the incident, and a value that was
suppressed takes the place of the value that was notified.
-/

namespace AnalyticsBackend.Alerts

/-! ## What an evaluation decides -/

def AlertTick.met (tick : AlertTick) (alert : AlertRule) : Option (Option ℚ) :=
  match tick.reading with
  | .error _ => none
  | .ok reading =>
      if (measure alert reading).conditionMet then some (measure alert reading).value else none

/-- A rule that notifies once an incident, with a cooldown. -/
structure OncePerIncident (alert : AlertRule) : Prop where
  enabled : alert.enabled = true
  once : alert.repeatMode ≠ .afterCooldown
  cooldown : 0 < alert.cooldownMinutes

theorem OncePerIncident.cooldownMs {alert : AlertRule} (once : OncePerIncident alert) :
    0 < alert.cooldownMs := by
  have positive := once.cooldown
  unfold AlertRule.cooldownMs
  omega

def AlertRule.Cooled (alert : AlertRule) (now : Int) : Prop :=
  ∀ at' ∈ alert.lastTriggeredAt, at' ≤ now - alert.cooldownMs

def AlertRule.Unchanged (alert : AlertRule) (value : Option ℚ) : Prop :=
  ∃ prev, alert.lastEvaluation = some prev ∧
    (prev.outcome = .triggered ∨ prev.outcome = .suppressed) ∧ prev.value = value

/-- An evaluation that is recorded with an outcome and a value, and notifies of nothing. -/
structure Quiet (alert : AlertRule) (outcome : EvaluationOutcome) (value : Option ℚ)
    (e : Evaluated) : Prop where
  notified : e.notified = []
  triggered : e.alert.lastTriggeredAt = alert.lastTriggeredAt
  last : ∃ prev, e.alert.lastEvaluation = some prev ∧ prev.outcome = outcome ∧ prev.value = value

inductive Evaluates (alert : AlertRule) (tick : AlertTick) (e : Evaluated) : Prop where
  | failed (unmet : tick.met alert = none) (threw : ∃ error, e.result = .error error)
      (quiet : Quiet alert .failed none e)
  | clear (unmet : tick.met alert = none) (value : Option ℚ) (outcome : EvaluationOutcome)
      (which : outcome = .notMet ∨ outcome = .noData)
      (returned : ∃ r, e.result = .ok r ∧ r.conditionMet = false) (quiet : Quiet alert outcome value e)
  | suppressed (value : Option ℚ) (met : tick.met alert = some value)
      (why : ¬alert.Cooled tick.now ∨ alert.Cooled tick.now ∧ alert.Unchanged value)
      (returned : ∃ r, e.result = .ok r ∧ r.conditionMet = true)
      (quiet : Quiet alert .suppressed value e)
  | refused (value : Option ℚ) (met : tick.met alert = some value)
      (noDate : newDate (tick.now - alert.cooldownMs) = none) (stays : e.alert = alert)
      (changed : ¬(alert.Cooled tick.now ∧ alert.Unchanged value))
      (threw : ∃ error, e.result = .error error) (notified : e.notified = [])
  | triggered (value : Option ℚ) (met : tick.met alert = some value)
      (date : (newDate (tick.now - alert.cooldownMs)).isSome) (cooled : alert.Cooled tick.now)
      (changed : ¬alert.Unchanged value) (notified : e.notified = [⟨tick.now, value, .triggered⟩])
      (stamped : e.alert.lastTriggeredAt = some tick.now)
      (last : ∃ prev, e.alert.lastEvaluation = some prev ∧ prev.outcome = .triggered ∧
        prev.value = value)

theorem cooled_iff (alert : AlertRule) (now : Int) :
    alert.lastTriggeredAt.all (· ≤ now - alert.cooldownMs) = true ↔ alert.Cooled now := by
  unfold AlertRule.Cooled
  cases alert.lastTriggeredAt <;> simp

theorem unchanged_iff (alert : AlertRule) (value : Option ℚ) :
    alert.lastEvaluation.any (fun prev => (prev.outcome = .triggered ∨ prev.outcome = .suppressed) ∧
      prev.value = value) = true ↔ alert.Unchanged value := by
  unfold AlertRule.Unchanged
  cases alert.lastEvaluation <;> simp

theorem evaluates {alert : AlertRule} (once : OncePerIncident alert) (tick : AlertTick) :
    Evaluates alert tick (evaluate alert tick) := by
  have positive := once.cooldownMs
  unfold evaluate
  rw [once.enabled, Bool.not_true, if_neg Bool.false_ne_true]
  cases read : tick.reading with
  | error error =>
      have unmet : tick.met alert = none := by rw [AlertTick.met, read]
      exact .failed unmet ⟨error, rfl⟩ ⟨rfl, rfl, _, rfl, rfl, rfl⟩
  | ok reading =>
      dsimp only
      cases holds : (measure alert reading).conditionMet with
      | false =>
          have unmet : tick.met alert = none := by simp [AlertTick.met, read, holds]
          rw [Bool.not_false, if_pos rfl]
          refine .clear unmet (measure alert reading).value _ ?_ ⟨_, rfl, rfl⟩
            ⟨rfl, rfl, _, rfl, rfl, rfl⟩
          split
          · exact .inr rfl
          · exact .inl rfl
      | true =>
          have met : tick.met alert = some (measure alert reading).value := by
            simp [AlertTick.met, read, holds]
          rw [Bool.not_true, if_neg Bool.false_ne_true]
          by_cases same : alert.Cooled tick.now ∧ alert.Unchanged (measure alert reading).value
          · rw [if_pos ⟨once.once, positive, (cooled_iff ..).mpr same.1, (unchanged_iff ..).mpr same.2⟩]
            exact .suppressed _ met (.inr same) ⟨_, rfl, rfl⟩ ⟨rfl, rfl, _, rfl, rfl, rfl⟩
          · rw [if_neg fun is => same ⟨(cooled_iff ..).mp is.2.2.1, (unchanged_iff ..).mp is.2.2.2⟩]
            cases date : newDate (tick.now - alert.cooldownMs) with
            | none =>
                simp only [AlertRule.claimTrigger, date]
                exact .refused _ met date rfl same ⟨_, rfl⟩ rfl
            | some bound =>
                have bounded : bound = tick.now - alert.cooldownMs := by
                  unfold newDate at date
                  split at date
                  · exact (Option.some.inj date).symm
                  · exact absurd date nofun
                simp only [AlertRule.claimTrigger, date, bounded]
                by_cases cooled : alert.Cooled tick.now
                · rw [if_pos ((cooled_iff ..).mpr cooled)]
                  exact .triggered _ met (by rw [date]; rfl) cooled (fun is => same ⟨cooled, is⟩) rfl rfl
                    ⟨_, rfl, rfl, rfl⟩
                · rw [if_neg fun is => cooled ((cooled_iff ..).mp is)]
                  exact .suppressed _ met (.inl cooled) ⟨_, rfl, rfl⟩ ⟨rfl, rfl, _, rfl, rfl, rfl⟩

/-! ## Incidents -/

/-- The last notification, and whether the condition has been not met, or without data, since. -/
structure Incident where
  notified : Option AlertEvent := none
  cleared : Bool := false
  deriving DecidableEq

def Incident.after (incident : Incident) (e : Evaluated) : Incident :=
  match e.notified.getLast?, e.result with
  | some event, _ => { notified := some event, cleared := false }
  | none, .ok r => if r.conditionMet then incident else { incident with cleared := true }
  | none, .error _ => incident

/-- A value that is met is news: none was notified yet, or the cooldown has elapsed since, and the
condition has cleared or the value is another. -/
def Incident.Due (incident : Incident) (alert : AlertRule) (now : Int) (value : Option ℚ) : Prop :=
  ∀ event ∈ incident.notified, event.triggeredAt ≤ now - alert.cooldownMs ∧
    (incident.cleared = true ∨ value ≠ event.value)

structure AlertRun where
  alert : AlertRule
  incident : Incident := {}

def AlertRun.next (r : AlertRun) (tick : AlertTick) : AlertRun :=
  let e := evaluate r.alert tick
  { alert := e.alert, incident := r.incident.after e }

/-- The evaluations of a rule, one after the other. -/
def evaluations (alert : AlertRule) (ticks : List AlertTick) : AlertRun :=
  ticks.foldl AlertRun.next { alert }

/-- The next evaluation notifies when, and only when, it should. -/
def AlertRun.Deduplicates (r : AlertRun) (tick : AlertTick) : Prop :=
  (evaluate r.alert tick).notified ≠ [] ↔
    ∃ value, tick.met r.alert = some value ∧ r.incident.Due r.alert tick.now value

/-- The last evaluation stands for the last notification. -/
def AlertRun.Steady (r : AlertRun) (tick : AlertTick) : Prop :=
  ∀ value, tick.met r.alert = some value →
    match r.incident.notified with
    | none => (newDate (tick.now - r.alert.cooldownMs)).isSome
    | some event => event.triggeredAt ≤ tick.now - r.alert.cooldownMs →
        ∀ prev, r.alert.lastEvaluation = some prev →
          (prev.outcome = .failed → r.incident.cleared = true ∨ value ≠ event.value) ∧
          (prev.outcome = .suppressed →
            (prev.value = value ↔ r.incident.cleared = false ∧ value = event.value))

/-! ## What a rule remembers -/

/-- The stamp of a rule is the instant of the last notification; what its last evaluation says of
the incident depends on the outcome. -/
structure Remembers (r : AlertRun) : Prop where
  rule : OncePerIncident r.alert
  stamp : r.alert.lastTriggeredAt = r.incident.notified.map AlertEvent.triggeredAt
  dated : ∀ event ∈ r.incident.notified, (newDate event.triggeredAt).isSome
  fresh : r.alert.lastEvaluation = none → r.incident.notified = none
  triggered : ∀ prev, r.alert.lastEvaluation = some prev → prev.outcome = .triggered →
    ∃ event, r.incident = { notified := some event, cleared := false } ∧ event.value = prev.value
  clear : ∀ prev, r.alert.lastEvaluation = some prev →
    prev.outcome = .notMet ∨ prev.outcome = .noData → r.incident.cleared = true
  suppressed : ∀ prev, r.alert.lastEvaluation = some prev → prev.outcome = .suppressed →
    r.incident.notified.isSome = true

theorem OncePerIncident.evaluate {alert : AlertRule} (once : OncePerIncident alert)
    (tick : AlertTick) : OncePerIncident (Alerts.evaluate alert tick).alert := by
  have settings : ∀ alert' : AlertRule, alert'.enabled = alert.enabled →
      alert'.repeatMode = alert.repeatMode → alert'.cooldownMinutes = alert.cooldownMinutes →
      OncePerIncident alert' := fun _ enabled mode cooldown =>
    ⟨enabled ▸ once.enabled, mode ▸ once.once, cooldown ▸ once.cooldown⟩
  unfold Alerts.evaluate
  rw [once.enabled, Bool.not_true, if_neg Bool.false_ne_true]
  unfold AlertRule.claimTrigger
  cases tick.reading with
  | error error => exact settings _ rfl rfl rfl
  | ok reading =>
      dsimp only
      cases newDate (tick.now - alert.cooldownMs) with
      | none => split_ifs <;> exact settings _ rfl rfl rfl
      | some bound =>
          dsimp only
          cases alert.lastTriggeredAt.all (· ≤ bound) <;> split_ifs <;> exact settings _ rfl rfl rfl

theorem Incident.after_ok (incident : Incident) {e : Evaluated} {r : EvaluationResult}
    (quiet : e.notified = []) (returned : e.result = .ok r) :
    incident.after e = if r.conditionMet then incident else { incident with cleared := true } := by
  simp only [Incident.after, quiet, returned, List.getLast?_nil]

theorem Incident.after_error (incident : Incident) {e : Evaluated} {error : String}
    (quiet : e.notified = []) (threw : e.result = .error error) : incident.after e = incident := by
  simp only [Incident.after, quiet, threw, List.getLast?_nil]

theorem Remembers.of_quiet {r r' : AlertRun} (remembers : Remembers r)
    {outcome : EvaluationOutcome} {value : Option ℚ} {e : Evaluated}
    (quiet : Quiet r.alert outcome value e) (once : OncePerIncident r'.alert)
    (stays : r'.alert = e.alert ∧ r'.incident.notified = r.incident.notified)
    (triggered : outcome ≠ .triggered)
    (clear : outcome = .notMet ∨ outcome = .noData → r'.incident.cleared = true)
    (suppressed : outcome = .suppressed → r.incident.notified.isSome = true) : Remembers r' := by
  obtain ⟨prev, last, is, -⟩ := quiet.last
  obtain ⟨alert, notified⟩ := stays
  rw [← alert] at last
  refine ⟨once, ?_, ?_, ?_, ?_, ?_, ?_⟩
  · rw [alert, quiet.triggered, notified]
    exact remembers.stamp
  · rw [notified]
    exact remembers.dated
  · exact fun none => absurd (last.symm.trans none) nofun
  · intro prev' last' is'
    rw [← Option.some.inj (last.symm.trans last'), is] at is'
    exact absurd is' triggered
  · intro prev' last' is'
    rw [← Option.some.inj (last.symm.trans last'), is] at is'
    exact clear is'
  · intro prev' last' is'
    rw [← Option.some.inj (last.symm.trans last'), is] at is'
    rw [notified]
    exact suppressed is'

theorem Remembers.next {r : AlertRun} (remembers : Remembers r) (tick : AlertTick) :
    Remembers (r.next tick) := by
  have once := remembers.rule.evaluate tick
  cases evaluates remembers.rule tick with
  | failed _ threw quiet =>
      obtain ⟨error, threw⟩ := threw
      have stays : (r.next tick).incident = r.incident := r.incident.after_error quiet.notified threw
      exact remembers.of_quiet quiet once ⟨rfl, by rw [stays]⟩ (fun is => nomatch is) (by simp)
        fun is => nomatch is
  | clear _ value outcome which returned quiet =>
      obtain ⟨result, returned, unmet⟩ := returned
      have cleared : (r.next tick).incident = { r.incident with cleared := true } := by
        have after := r.incident.after_ok quiet.notified returned
        rwa [unmet, if_neg Bool.false_ne_true] at after
      refine remembers.of_quiet quiet once ⟨rfl, by rw [cleared]⟩ ?_ (fun _ => by rw [cleared]) ?_
      · rintro rfl
        exact which.elim nofun nofun
      · rintro rfl
        exact which.elim nofun nofun
  | suppressed value _ why returned quiet =>
      obtain ⟨result, returned, met⟩ := returned
      have stays : (r.next tick).incident = r.incident := by
        have after := r.incident.after_ok quiet.notified returned
        rwa [met, if_pos rfl] at after
      refine remembers.of_quiet quiet once ⟨rfl, by rw [stays]⟩ (fun is => nomatch is) (by simp) fun _ => ?_
      rcases why with cooling | ⟨_, prev, last, firing | firing, _⟩
      · by_contra none
        refine cooling fun at' mem => ?_
        rw [remembers.stamp, Option.not_isSome_iff_eq_none.mp none] at mem
        exact absurd mem nofun
      · obtain ⟨event, incident, _⟩ := remembers.triggered prev last firing
        rw [incident]
        rfl
      · exact remembers.suppressed prev last firing
  | refused value _ noDate stays changed threw notified =>
      obtain ⟨error, threw⟩ := threw
      have same : r.next tick = r := by
        have incident : (r.next tick).incident = r.incident := r.incident.after_error notified threw
        cases r
        exact congrArg₂ AlertRun.mk stays incident
      rw [same]
      exact remembers
  | triggered value _ date cooled changed notified stamped last =>
      have incident : (r.next tick).incident = ⟨some ⟨tick.now, value, .triggered⟩, false⟩ := by
        change r.incident.after _ = _
        rw [Incident.after, notified]
        rfl
      obtain ⟨prev, last, outcome, same⟩ := last
      change (r.next tick).alert.lastEvaluation = some prev at last
      change (r.next tick).alert.lastTriggeredAt = some tick.now at stamped
      have only : ∀ prev', (r.next tick).alert.lastEvaluation = some prev' → prev' = prev :=
        fun prev' last' => Option.some.inj (last'.symm.trans last)
      refine ⟨once, ?_, ?_, ?_, ?_, ?_, ?_⟩
      · rw [stamped, incident]
        rfl
      · rw [incident]
        intro event is
        rw [← Option.some.inj is]
        exact tick.isDate
      · exact fun none => absurd (last.symm.trans none) nofun
      · intro prev' last' _
        exact ⟨_, incident, by rw [only prev' last', same]⟩
      · intro prev' last' is
        rw [only prev' last', outcome] at is
        exact is.elim nofun nofun
      · intro prev' last' is
        rw [incident]
        rfl

theorem Remembers.evaluations {alert : AlertRule} (once : OncePerIncident alert)
    (never : alert.lastTriggeredAt = none) (new : alert.lastEvaluation = none)
    (ticks : List AlertTick) : Remembers (Alerts.evaluations alert ticks) := by
  have start : Remembers { alert } :=
    ⟨once, never, nofun, fun _ => rfl, fun _ is => absurd (new.symm.trans is) nofun,
      fun _ is => absurd (new.symm.trans is) nofun, fun _ is => absurd (new.symm.trans is) nofun⟩
  unfold Alerts.evaluations
  generalize ({ alert } : AlertRun) = r at start
  induction ticks generalizing r with
  | nil => exact start
  | cons tick ticks ih => exact ih _ (start.next tick)

/-! ## Notifications -/

theorem notifies_iff {alert : AlertRule} (once : OncePerIncident alert) (tick : AlertTick) :
    (evaluate alert tick).notified ≠ [] ↔ ∃ value, tick.met alert = some value ∧
      alert.Cooled tick.now ∧ ¬alert.Unchanged value ∧
      (newDate (tick.now - alert.cooldownMs)).isSome := by
  cases evaluates once tick with
  | failed unmet _ quiet => simp [quiet.notified, unmet]
  | clear unmet _ _ _ _ quiet => simp [quiet.notified, unmet]
  | suppressed value met why _ quiet =>
      refine iff_of_false (fun some => some quiet.notified) ?_
      rintro ⟨value', met', cooled, changed, _⟩
      rw [← Option.some.inj (met.symm.trans met')] at changed
      exact why.elim (fun cooling => cooling cooled) fun same => changed same.2
  | refused value met noDate _ _ _ notified =>
      refine iff_of_false (fun some => some notified) ?_
      rintro ⟨_, _, _, _, date⟩
      rw [noDate] at date
      exact absurd date nofun
  | triggered value met date cooled changed notified =>
      refine iff_of_true (by rw [notified]; exact List.cons_ne_nil _ _) ?_
      exact ⟨value, met, cooled, changed, date⟩

theorem Remembers.date_of_elapsed {r : AlertRun} (remembers : Remembers r) (tick : AlertTick)
    {event : AlertEvent} (notified : r.incident.notified = some event)
    (elapsed : event.triggeredAt ≤ tick.now - r.alert.cooldownMs) :
    (newDate (tick.now - r.alert.cooldownMs)).isSome = true := by
  have before := remembers.dated event notified
  have now := tick.isDate
  have positive := remembers.rule.cooldownMs
  unfold newDate at *
  split at before
  · split at now
    · rw [if_pos (by omega)]
      rfl
    · exact absurd now nofun
  · exact absurd before nofun

theorem Remembers.cooled_iff {r : AlertRun} (remembers : Remembers r) {event : AlertEvent}
    (notified : r.incident.notified = some event) (now : Int) :
    r.alert.Cooled now ↔ event.triggeredAt ≤ now - r.alert.cooldownMs := by
  unfold AlertRule.Cooled
  rw [remembers.stamp, notified]
  exact ⟨fun all => all _ rfl, fun elapsed _ is => Option.some.inj is ▸ elapsed⟩

theorem Remembers.unchanged_iff {r : AlertRun} (remembers : Remembers r) {event : AlertEvent}
    (notified : r.incident.notified = some event) (value : Option ℚ) :
    ((¬r.alert.Unchanged value) ↔ r.incident.cleared = true ∨ value ≠ event.value) ↔
      ∀ prev, r.alert.lastEvaluation = some prev →
        (prev.outcome = .failed → r.incident.cleared = true ∨ value ≠ event.value) ∧
        (prev.outcome = .suppressed →
          (prev.value = value ↔ r.incident.cleared = false ∧ value = event.value)) := by
  cases last : r.alert.lastEvaluation with
  | none => exact absurd (notified.symm.trans (remembers.fresh last)) nofun
  | some prev =>
      have only : r.alert.Unchanged value ↔
          (prev.outcome = .triggered ∨ prev.outcome = .suppressed) ∧ prev.value = value := by
        unfold AlertRule.Unchanged
        rw [last]
        exact ⟨fun ⟨_, is, rest⟩ => Option.some.inj is ▸ rest, fun rest => ⟨prev, rfl, rest⟩⟩
      rw [only]
      cases outcome : prev.outcome with
      | triggered =>
          obtain ⟨event', incident, same⟩ := remembers.triggered prev last outcome
          rw [incident] at notified ⊢
          rw [← Option.some.inj notified, same]
          simp [outcome, eq_comm]
      | suppressed =>
          simp only [Option.some.injEq, forall_eq', outcome, reduceCtorEq, or_true, true_and,
            false_imp_iff, forall_const]
          cases r.incident.cleared with
          | true => simp
          | false =>
              simp only [Bool.false_eq_true, false_or, true_and]
              exact not_iff_not
      | notMet =>
          have cleared := remembers.clear prev last (.inl outcome)
          simp [outcome, cleared]
      | noData =>
          have cleared := remembers.clear prev last (.inr outcome)
          simp [outcome, cleared]
      | failed => simp [outcome]

/-- In every run of a rule that notifies once an incident, an evaluation notifies exactly when it
should iff its last evaluation stands for the last notification. -/
theorem incident_deduplication {alert : AlertRule} (once : OncePerIncident alert)
    (never : alert.lastTriggeredAt = none) (new : alert.lastEvaluation = none)
    (past : List AlertTick) (tick : AlertTick) :
    (evaluations alert past).Deduplicates tick ↔ (evaluations alert past).Steady tick := by
  have remembers := Remembers.evaluations once never new past
  generalize evaluations alert past = r at remembers
  unfold AlertRun.Deduplicates AlertRun.Steady
  rw [notifies_iff remembers.rule]
  cases met : tick.met r.alert with
  | none => simp
  | some value =>
      simp only [Option.some.injEq, exists_eq_left', forall_eq']
      cases notified : r.incident.notified with
      | none =>
          -- nothing was notified yet
          have cooled : r.alert.Cooled tick.now := by
            unfold AlertRule.Cooled
            rw [remembers.stamp, notified]
            exact nofun
          have changed : ¬r.alert.Unchanged value := by
            rintro ⟨prev, last, firing | firing, _⟩
            · obtain ⟨event, incident, _⟩ := remembers.triggered prev last firing
              rw [incident] at notified
              exact absurd notified nofun
            · have some := remembers.suppressed prev last firing
              rw [notified] at some
              exact absurd some nofun
          have due : r.incident.Due r.alert tick.now value := by
            unfold Incident.Due
            rw [notified]
            exact nofun
          simp only [cooled, changed, due, not_false_eq_true, true_and, iff_true]
      | some event =>
          have due : r.incident.Due r.alert tick.now value ↔
              event.triggeredAt ≤ tick.now - r.alert.cooldownMs ∧
                (r.incident.cleared = true ∨ value ≠ event.value) := by
            unfold Incident.Due
            rw [notified]
            exact ⟨fun all => all _ rfl, fun is _ same => Option.some.inj same ▸ is⟩
          rw [due, remembers.cooled_iff notified]
          by_cases elapsed : event.triggeredAt ≤ tick.now - r.alert.cooldownMs
          · simp only [elapsed, remembers.date_of_elapsed tick notified elapsed, true_and, and_true,
              true_imp_iff]
            exact remembers.unchanged_iff notified value
          · simp only [elapsed, false_and, false_imp_iff]

namespace Errors

/-- A rule on the errors of the last hour. -/
def rule : AlertRule := { condition := .gt, threshold := 5 }

theorem once : OncePerIncident rule := ⟨rfl, by decide, by decide⟩

def ten (now : Int) (isDate : (newDate now).isSome) : AlertTick :=
  ⟨now, isDate, now + 300000, .ok { countOrSum := true, rows := [{ value := some 10 }] }⟩

def first : AlertTick := ten 0 (by decide)

/-- An hour later the query fails. -/
def broken : AlertTick := ⟨3600000, by decide, 3900000, .error "Dataset not ready"⟩

/-- Two hours later there are ten errors still. -/
def later : AlertTick := ten 7200000 (by decide)

end Errors

open Errors in
/-- The second evaluation with the same value notifies of nothing, as it should. -/
theorem incident_deduplication_unchanged : (evaluations rule [first]).Deduplicates later := by
  refine (incident_deduplication once rfl rfl [first] later).mpr fun value met => ?_
  have incident : (evaluations rule [first]).incident.notified = some ⟨0, some 10, .triggered⟩ := by
    decide +kernel
  have outcome : (evaluations rule [first]).alert.lastEvaluation.map LastEvaluation.outcome =
      some .triggered := by
    decide +kernel
  rw [incident]
  intro elapsed prev last
  rw [last] at outcome
  have triggered : prev.outcome = .triggered := Option.some.inj outcome
  rw [triggered]
  exact ⟨nofun, nofun⟩

open Errors in
/-- After an evaluation that failed, the same value is notified again. -/
theorem failure_notifies_again :
    ¬∀ (alert : AlertRule) (past : List AlertTick) (tick : AlertTick), OncePerIncident alert →
      alert.lastTriggeredAt = none → alert.lastEvaluation = none →
      (past ++ [tick]).Pairwise (·.now < ·.now) → (evaluations alert past).Deduplicates tick := by
  intro all
  have increasing : ([first, broken] ++ [later]).Pairwise (·.now < ·.now) := by decide
  have should := all rule [first, broken] later once rfl rfl increasing
  have notifies : (evaluate (evaluations rule [first, broken]).alert later).notified ≠ [] := by
    decide +kernel
  obtain ⟨value, met, due⟩ := should.mp notifies
  have incident : (evaluations rule [first, broken]).incident =
      ⟨some ⟨0, some 10, .triggered⟩, false⟩ := by
    decide +kernel
  have same : later.met (evaluations rule [first, broken]).alert = some (some 10) := by
    decide +kernel
  rw [incident] at due
  rcases (due _ rfl).2 with cleared | other
  · exact absurd cleared Bool.false_ne_true
  · exact other (Option.some.inj (met.symm.trans same))

end AnalyticsBackend.Alerts
