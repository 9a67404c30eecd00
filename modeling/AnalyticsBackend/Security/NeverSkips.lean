import AnalyticsBackend.Security.Detects
import AnalyticsBackend.Security.Runs

/-!
# The detector never skips an event

Slices join where they are evaluated from the watermark, so that each instant that the watermark
passes lies in a slice that was recorded. But the watermark moves to the end of a slice also where a
read of the sources was cut at its limit, and what was cut is never looked at again.
-/

namespace AnalyticsBackend.Security
open Lib System Mongo Delivery

/-! ## What is not to be skipped -/

/-- Runs of the detector over a history, with the five rules as they are configured. -/
def watches (configs : RuleConfigs) (history : History) : DetectionCall → Prop
  | .detect run => ∀ base ∈ run.rules, ∀ rule : WatchedRule, base.id = rule.id →
      ∃ server, base = rule.rule configs server history
  | .triage _ => False

def completed (ruleId : String) (e : DetectionEvent) : Option SliceRecord :=
  match e.label with
  | .advance id _ record => if id = ruleId ∧ applied e = true then some record else none
  | _ => none

def Passed (db : DetectionDb) (ruleId : String) (t : Int) : Prop :=
  ∃ watermark, db.watermark ruleId = some watermark ∧ t ≤ watermark

/-- Where a rule has begun: at the watermark there was, or with its first slice. -/
def begun (s₀ : DetectionDb) (ruleId : String) : List DetectionEvent → Option Int
  | [] => s₀.watermark ruleId
  | e :: earlier =>
      (begun s₀ ruleId earlier).or ((completed ruleId e).map fun record => record.slice.start)

def Caught (trace : List DetectionEvent) (r : Raised) : Prop :=
  ∃ e ∈ trace, applied e = true ∧
    ((∃ alert, e.label = .createActive alert ∧ e.before.refuses alert = false ∧
        alert.dedupeKey = r.dedupeKey) ∨
      ∃ merge, e.label = .mergeIntoActive r.dedupeKey merge ∧
        (selected e.label e.before).isSome = true)

/-- A detection of a rule about someone, in a recorded slice around an instant. -/
def Detected (settings : DetectionSettings) (trace : List DetectionEvent) (rule : WatchedRule)
    (culprit : Culprit) (t : Int) : Prop :=
  ∃ e ∈ trace, ∃ record, completed rule.id e = some record ∧ record.slice.start < t ∧
    t ≤ record.slice.stop ∧ ∃ r ∈ record.raised, ∃ base d, base.id = rule.id ∧ d.About culprit ∧
      r.dedupeKey = dedupeKeyFor settings.sha256 base d ∧ record.slice.start < r.windowEnd ∧
      r.windowEnd ≤ record.slice.stop ∧ Caught trace r

/-- Whoever meets the thresholds of a rule, after it has begun and before its watermark, has had a
detection. -/
def NeverSkips (settings : DetectionSettings) (configs : RuleConfigs) (history : History)
    (s₀ : DetectionDb) (w : DetectionWorld) : Prop :=
  ∀ (rule : WatchedRule) culprit first t, begun s₀ rule.id w.trace = some first → first < t →
    Passed w.store rule.id t → Breach configs history t rule culprit →
      Detected settings w.trace rule culprit t

/-- No read for a recorded slice matches more rows than its limit. -/
def WholeReads (configs : RuleConfigs) (history : History) (trace : List DetectionEvent) : Prop :=
  ∀ e ∈ trace, ∀ (rule : WatchedRule) record, completed rule.id e = some record →
    rule.Whole configs history record.slice

/-- No run that has found no watermark, or too old a one, leaves a gap to the one that there is when
it records a slice. -/
def Gapless (trace : List DetectionEvent) : Prop :=
  ∀ e ∈ trace, ∀ (rule : WatchedRule) record, completed rule.id e = some record →
    record.resumed = false → ∀ watermark, e.before.watermark rule.id = some watermark →
      record.slice.start ≤ watermark

/-! ## What steps do -/

theorem alerts_perform (label : DetectionLabel) (db : DetectionDb) :
    (label.perform db).alerts = db.alerts ∨
      (∃ alert, label = .createActive alert ∧
        (label.perform db).alerts = db.alerts ++ [db.active alert]) ∨
      (label.perform db).alerts = db.alerts.map fun a => if label.selects a then label.set a else a := by
  by_cases refused : db.fault = .refused
  · left
    cases label with
    | handOver id channel => rfl
    | _ => simp only [DetectionLabel.perform, refused, if_true]
  · cases label with
    | createActive alert =>
        simp only [DetectionLabel.perform, refused, if_false, DetectionLabel.act]
        split
        · exact .inl rfl
        · exact .inr (.inl ⟨alert, rfl, rfl⟩)
    | look | evaluate _ _ | delivery _ | advance _ _ _ | recordError _ _ _ _ =>
        simp only [DetectionLabel.perform, refused, if_false, DetectionLabel.act,
          DetectionDb.setCursor, true_or]
    | handOver id channel => exact .inl rfl
    | _ => exact .inr (.inr (by simp only [DetectionLabel.perform, refused, if_false, DetectionLabel.act]))

theorem watermark_advance {db : DetectionDb} {ruleId : String} {state : CursorAdvance}
    {record : SliceRecord} (carried : db.fault ≠ .refused) :
    ((DetectionLabel.advance ruleId state record).perform db).watermark ruleId =
      some (match db.watermark ruleId with
        | some watermark => max watermark state.watermark
        | none => state.watermark) := by
  simp only [DetectionLabel.perform, carried, if_false, DetectionLabel.act, DetectionDb.setCursor,
    DetectionDb.watermark, Function.update_self, Option.bind_some, CursorAdvance.apply]
  cases (db.cursors ruleId).bind DetectionCursor.watermark <;> rfl

theorem watermark_perform {label : DetectionLabel} {db : DetectionDb} {ruleId : String}
    (other : ∀ state record, label = .advance ruleId state record → db.fault = .refused) :
    (label.perform db).watermark ruleId = db.watermark ruleId := by
  by_cases refused : db.fault = .refused
  · cases label with
    | handOver id channel => rfl
    | _ => simp only [DetectionLabel.perform, refused, if_true, DetectionDb.watermark]
  · cases label with
    | handOver id channel => rfl
    | createActive alert =>
        simp only [DetectionLabel.perform, refused, if_false, DetectionLabel.act]
        split <;> rfl
    | advance id state record =>
        have apart : ruleId ≠ id := fun same => refused (other state record (by rw [same]))
        simp only [DetectionLabel.perform, refused, if_false, DetectionLabel.act,
          DetectionDb.setCursor, DetectionDb.watermark, Function.update_of_ne apart]
    | recordError id lastRunAt message version =>
        simp only [DetectionLabel.perform, refused, if_false, DetectionLabel.act,
          DetectionDb.setCursor, DetectionDb.watermark]
        by_cases same : ruleId = id
        · rw [same, Function.update_self]
          rfl
        · rw [Function.update_of_ne same]
    | _ => simp only [DetectionLabel.perform, refused, if_false, DetectionLabel.act, DetectionDb.watermark]

/-- What a store has over an earlier one: alerts stay active, and watermarks do not go back. -/
structure Later (db db' : DetectionDb) : Prop where
  active : ∀ key, (db.findActiveByKey key).isSome = true → (db'.findActiveByKey key).isSome = true
  passed : ∀ ruleId t, Passed db ruleId t → Passed db' ruleId t

theorem Later.trans {db db' db'' : DetectionDb} (first : Later db db') (second : Later db' db'') :
    Later db db'' :=
  ⟨fun key is => second.active key (first.active key is), fun id t is => second.passed id t (first.passed id t is)⟩

theorem activeKey_set {label : DetectionLabel} (alert : SecurityAlert)
    (open' : ∀ id triage, label ≠ .transition id triage) :
    (label.set alert).activeKey = alert.activeKey ∧ (label.set alert).status = alert.status := by
  cases label with
  | transition id triage => exact absurd rfl (open' id triage)
  | _ => exact ⟨rfl, rfl⟩

theorem later_perform {label : DetectionLabel} (open' : ∀ id triage, label ≠ .transition id triage)
    (db : DetectionDb) : Later db (label.perform db) := by
  constructor
  · intro key is
    obtain ⟨a, mem, active⟩ := List.find?_isSome.mp is
    refine List.find?_isSome.mpr ?_
    rcases alerts_perform label db with same | ⟨alert, -, appended⟩ | mapped
    · exact ⟨a, by rw [same]; exact mem, active⟩
    · exact ⟨a, by rw [appended]; exact List.mem_append_left _ mem, active⟩
    · refine ⟨_, by rw [mapped]; exact List.mem_map_of_mem mem, ?_⟩
      split
      · rw [(activeKey_set a open').1]
        exact active
      · exact active
  · rintro ruleId t ⟨watermark, is, below⟩
    by_cases moved : ∃ state record, label = .advance ruleId state record ∧ db.fault ≠ .refused
    · obtain ⟨state, record, rfl, carried⟩ := moved
      refine ⟨_, watermark_advance carried, ?_⟩
      rw [is]
      exact below.trans (le_max_left ..)
    · refine ⟨watermark, ?_, below⟩
      rw [watermark_perform fun state record same => ?_]
      · exact is
      · exact Decidable.of_not_not fun carried => moved ⟨state, record, same, carried⟩

theorem undismissed_perform {label : DetectionLabel} {db : DetectionDb}
    (open' : ∀ id triage, label ≠ .transition id triage)
    (undismissed : ∀ a ∈ db.alerts, a.status ≠ .falsePositive) :
    ∀ a ∈ (label.perform db).alerts, a.status ≠ .falsePositive := by
  intro a mem
  rcases alerts_perform label db with same | ⟨alert, -, appended⟩ | mapped
  · exact undismissed a (by rwa [same] at mem)
  · rw [appended] at mem
    rcases List.mem_append.mp mem with old | new
    · exact undismissed a old
    · rw [List.mem_singleton.mp new]
      exact nofun
  · rw [mapped] at mem
    obtain ⟨old, oldMem, rfl⟩ := List.mem_map.mp mem
    split
    · rw [(activeKey_set old open').2]
      exact undismissed old oldMem
    · exact undismissed old oldMem

/-! ## The invariant -/

structure Recorded (settings : DetectionSettings) (made : DetectionCall → Prop)
    (trace : List DetectionEvent) (ruleId : String) (record : SliceRecord) : Prop where
  found : ∃ run base found, made (.detect run) ∧ base ∈ run.rules ∧ base.id = ruleId ∧
    base.evaluate record.slice = .ok found ∧ List.Forall₂ (Found settings base) found record.raised
  caught : ∀ r ∈ record.raised, Caught trace r

theorem Caught.cons {trace : List DetectionEvent} {r : Raised} (caught : Caught trace r)
    (e : DetectionEvent) : Caught (e :: trace) r := by
  obtain ⟨e', mem, is⟩ := caught
  exact ⟨e', List.mem_cons_of_mem _ mem, is⟩

/-- The instants between the beginning and the watermark lie in recorded slices. -/
def Covered (s₀ : DetectionDb) (ruleId : String) (w : DetectionWorld) : Prop :=
  ∀ first t, begun s₀ ruleId w.trace = some first → first < t → Passed w.store ruleId t →
    ∃ e ∈ w.trace, ∃ record, completed ruleId e = some record ∧ record.slice.start < t ∧
      t ≤ record.slice.stop

/-- The stores of a run grow, slices are recorded with their detections, and join. -/
structure SkipInv (settings : DetectionSettings) (made : DetectionCall → Prop) (s₀ : DetectionDb)
    (w : DetectionWorld) : Prop where
  since : ∀ e ∈ w.trace, Later e.before w.store
  ordered : w.trace.Pairwise fun e earlier => Later earlier.before e.before
  undismissed : ∀ a ∈ w.store.alerts, a.status ≠ .falsePositive
  undismissedBefore : ∀ e ∈ w.trace, ∀ a ∈ e.before.alerts, a.status ≠ .falsePositive
  reached : ∀ e ∈ w.trace, applied e = true → ∀ ruleId state record,
    e.label = .advance ruleId state record → Passed w.store ruleId state.watermark
  began : ∀ ruleId, (begun s₀ ruleId w.trace).isSome = (w.store.watermark ruleId).isSome
  recorded : ∀ e ∈ w.trace, ∀ ruleId record, completed ruleId e = some record →
    Recorded settings made w.trace ruleId record
  covered : Gapless w.trace → ∀ rule : WatchedRule, Covered s₀ rule.id w

theorem of_completed {ruleId : String} {e : DetectionEvent} {record : SliceRecord}
    (is : completed ruleId e = some record) :
    applied e = true ∧ ∃ state, e.label = .advance ruleId state record := by
  unfold completed at is
  split at is
  · rename_i id state record' label
    split at is
    · rename_i both
      cases is
      exact ⟨both.2, state, both.1 ▸ label⟩
    · exact nomatch is
  · exact nomatch is

theorem completed_of {ruleId : String} {e : DetectionEvent} {state : CursorAdvance}
    {record : SliceRecord} (label : e.label = .advance ruleId state record)
    (carried : applied e = true) : completed ruleId e = some record := by
  unfold completed
  rw [label]
  exact if_pos ⟨rfl, carried⟩

section Steps

variable {settings : DetectionSettings} {made : DetectionCall → Prop} {s₀ : DetectionDb}
  {w : DetectionWorld} {i : Nat} {label : DetectionLabel}

theorem later_env {db db' : DetectionDb} (env : (detectionSystem settings made).env db db') :
    Later db db' := by
  obtain ⟨alerts, -, cursors, -⟩ := env
  constructor
  · intro key is
    unfold DetectionDb.findActiveByKey
    rw [alerts]
    exact is
  · rintro ruleId t ⟨watermark, is, below⟩
    refine ⟨watermark, ?_, below⟩
    unfold DetectionDb.watermark
    rw [cursors]
    exact is

theorem SkipInv.env (inv : SkipInv settings made s₀ w) {db : DetectionDb}
    (env : (detectionSystem settings made).env w.store db) :
    SkipInv settings made s₀ { store := db, trace := w.trace } := by
  have later := later_env env
  have same (ruleId : String) : db.watermark ruleId = w.store.watermark ruleId := by
    unfold DetectionDb.watermark
    rw [env.2.2.1]
  refine ⟨fun e mem => (inv.since e mem).trans later, inv.ordered, ?_, inv.undismissedBefore, ?_, ?_,
    inv.recorded, ?_⟩
  · rw [env.1]
    exact inv.undismissed
  · exact fun e mem carried id state record is =>
      later.passed _ _ (inv.reached e mem carried id state record is)
  · exact fun id => (inv.began id).trans (congrArg Option.isSome (same id).symm)
  · rintro gapless rule first t begins after ⟨watermark, is, below⟩
    exact inv.covered gapless rule first t begins after ⟨watermark, (same _).symm.trans is, below⟩

theorem SkipInv.caught (inv : SkipInv settings made s₀ w) {r : Raised}
    (accounted : Accounted (w.own i) r) : Caught w.trace r := by
  have ofOwn {e : DetectionEvent} (mem : e ∈ w.own i) : e ∈ w.trace := List.mem_of_mem_filter mem
  unfold Accounted at accounted
  split at accounted
  · obtain ⟨e, mem, alert, label, carried, free, key, -⟩ := accounted
    exact ⟨e, ofOwn mem, carried, .inl ⟨alert, label, free, key⟩⟩
  · rcases accounted with ⟨e, e', merge, sub, label, missed, active⟩ | found
    · -- the active alert was there before, and no alert ceases to be active
      have order : Later e'.before e.before := by
        have pair := inv.ordered.sublist (sub.trans List.filter_sublist)
        exact List.rel_of_pairwise_cons pair (List.mem_cons_self ..)
      have still : (selected (.mergeIntoActive r.dedupeKey merge) e.before).isSome = true :=
        order.active r.dedupeKey active
      rw [label] at missed
      rw [missed] at still
      exact nomatch still
    · obtain ⟨e, mem, merge, old, label, carried, is, -⟩ := found
      exact ⟨e, ofOwn mem, carried, .inr ⟨merge, label, by rw [is]; rfl⟩⟩
  · obtain ⟨e, mem, since, old, is⟩ := accounted
    have among : old ∈ e.before.alerts.filter fun a =>
        a.dedupeKey = r.dedupeKey && a.status = .falsePositive && a.closedAt.any (since ≤ ·) :=
      List.argmax_mem is
    have dismissed : old.status = .falsePositive := by
      have fits := List.of_mem_filter among
      simp only [Bool.and_eq_true, decide_eq_true_eq] at fits
      exact fits.1.2
    exact absurd dismissed (inv.undismissedBefore e (ofOwn mem) old (List.mem_of_mem_filter among))

/-- The start of a run that has found a watermark lies at or before the one that is stored. -/
theorem SkipInv.joined (inv : SkipInv settings made s₀ w) {ruleId : String} {start : Int}
    (joined : Joined (w.own i) ruleId start) : Passed w.store ruleId start := by
  obtain ⟨e, own, is⟩ := joined
  have mem : e ∈ w.trace := List.mem_of_mem_filter own
  rcases is with found | ⟨carried, state, record, label, rfl⟩
  · exact (inv.since e mem).passed _ _ ⟨start, found, le_rfl⟩
  · exact inv.reached e mem carried _ _ _ label

theorem begun_cons_other {ruleId : String} {e : DetectionEvent} {earlier : List DetectionEvent}
    (other : completed ruleId e = none) : begun s₀ ruleId (e :: earlier) = begun s₀ ruleId earlier := by
  simp [begun, other]

theorem watermark_of_other {ruleId : String}
    (other : completed ruleId ⟨i, label, w.store, label.perform w.store⟩ = none) :
    (label.perform w.store).watermark ruleId = w.store.watermark ruleId := by
  refine watermark_perform fun state record is => ?_
  by_contra carried
  have some := @completed_of ruleId ⟨i, label, w.store, label.perform w.store⟩ state record is
    (decide_eq_true carried)
  rw [other] at some
  exact nomatch some

theorem SkipInv.covered_push (inv : SkipInv settings made s₀ w)
    (orderly : Orderly settings made (w.own i) label)
    (gapless : Gapless (⟨i, label, w.store, label.perform w.store⟩ :: w.trace)) (rule : WatchedRule) :
    Covered s₀ rule.id (w.push ⟨i, label, w.store, label.perform w.store⟩) := by
  let e : DetectionEvent := ⟨i, label, w.store, label.perform w.store⟩
  have before : Covered s₀ rule.id w :=
    inv.covered (fun e' mem => gapless e' (List.mem_cons_of_mem _ mem)) rule
  have earlier {t : Int} (old : ∃ e' ∈ w.trace, ∃ record, completed rule.id e' = some record ∧
      record.slice.start < t ∧ t ≤ record.slice.stop) : ∃ e' ∈ e :: w.trace, ∃ record,
        completed rule.id e' = some record ∧ record.slice.start < t ∧ t ≤ record.slice.stop := by
    obtain ⟨e', mem, is⟩ := old
    exact ⟨e', List.mem_cons_of_mem _ mem, is⟩
  intro first t begins after passes
  rw [World.push_trace] at begins
  cases is : completed rule.id e with
  | none =>
      rw [begun_cons_other is] at begins
      obtain ⟨watermark, at', below⟩ := passes
      exact earlier (before first t begins after ⟨watermark, (watermark_of_other is).symm.trans at', below⟩)
  | some record =>
      obtain ⟨carried, state, isLabel⟩ := of_completed is
      have isLabel : label = .advance rule.id state record := isLabel
      have advances := orderly.advances _ _ _ isLabel
      obtain ⟨watermark, at', below⟩ := passes
      have moved : (label.perform w.store).watermark rule.id = some watermark := at'
      rw [isLabel, watermark_advance (of_decide_eq_true carried), advances.stop] at moved
      have here (within : record.slice.start < t ∧ t ≤ record.slice.stop) : ∃ e' ∈ e :: w.trace,
          ∃ record, completed rule.id e' = some record ∧ record.slice.start < t ∧
            t ≤ record.slice.stop := ⟨e, List.mem_cons_self .., record, is, within⟩
      have same := inv.began rule.id
      cases old : w.store.watermark rule.id with
      | none =>
          rw [old, Option.isSome_none, Option.isSome_eq_false_iff, Option.isNone_iff_eq_none] at same
          rw [old] at moved
          unfold begun at begins
          rw [same, is] at begins
          cases begins
          cases moved
          exact here ⟨after, below⟩
      | some stored =>
          rw [old, Option.isSome_some] at same
          rw [old] at moved
          obtain ⟨first', begins'⟩ := Option.isSome_iff_exists.mp same
          unfold begun at begins
          rw [begins'] at begins
          cases begins
          cases moved
          by_cases covered : t ≤ stored
          · exact earlier (before first t begins' after ⟨stored, old, covered⟩)
          · have starts : record.slice.start ≤ stored := by
              cases resumed : record.resumed with
              | false => exact gapless e (List.mem_cons_self ..) rule record is resumed stored old
              | true =>
                  obtain ⟨stored', old', le⟩ := inv.joined (advances.joined resumed)
                  rw [old] at old'
                  cases old'
                  exact le
            exact here ⟨by omega, (le_max_iff.mp below).resolve_left covered⟩

theorem SkipInv.push (closed : ∀ req, ¬ made (.triage req)) (inv : SkipInv settings made s₀ w)
    (orderly : Orderly settings made (w.own i) label) :
    SkipInv settings made s₀ (w.push ⟨i, label, w.store, label.perform w.store⟩) := by
  have open' (id : ObjectId) (triage : Triage) : label ≠ .transition id triage := fun is =>
    (orderly.triaged id triage is).elim closed
  have later : Later w.store (label.perform w.store) := later_perform open' w.store
  have all {P : DetectionEvent → Prop} (new : P ⟨i, label, w.store, label.perform w.store⟩)
      (old : ∀ e ∈ w.trace, P e) : ∀ e ∈ (w.push ⟨i, label, w.store, label.perform w.store⟩).trace, P e :=
    List.forall_mem_cons.mpr ⟨new, old⟩
  refine ⟨all later fun e mem => (inv.since e mem).trans later,
    List.pairwise_cons.mpr ⟨inv.since, inv.ordered⟩, undismissed_perform open' inv.undismissed,
    all inv.undismissed inv.undismissedBefore, all ?_ ?_, ?_, all ?_ ?_, ?_⟩
  · intro carried ruleId state record is
    have is : label = .advance ruleId state record := is
    unfold Passed
    rw [World.push_store, is, watermark_advance (of_decide_eq_true carried)]
    refine ⟨_, rfl, ?_⟩
    split
    · exact le_max_right ..
    · exact le_rfl
  · exact fun e mem carried id state record is =>
      later.passed _ _ (inv.reached e mem carried id state record is)
  · intro ruleId
    cases is : completed ruleId ⟨i, label, w.store, label.perform w.store⟩ with
    | none =>
        rw [World.push_trace, begun_cons_other is, inv.began, World.push_store, watermark_of_other is]
    | some record =>
        obtain ⟨carried, state, isLabel⟩ := of_completed is
        have isLabel : label = .advance ruleId state record := isLabel
        have moved : ((label.perform w.store).watermark ruleId).isSome = true := by
          rw [isLabel, watermark_advance (of_decide_eq_true carried)]
          rfl
        rw [World.push_trace, World.push_store, moved]
        unfold begun
        rw [is]
        cases begun s₀ ruleId w.trace <;> rfl
  · intro ruleId record is
    obtain ⟨-, state, isLabel⟩ := of_completed is
    have advances := orderly.advances _ _ _ isLabel
    exact ⟨advances.found, fun r mem => (inv.caught (advances.accounted r mem)).cons _⟩
  · intro e mem ruleId record is
    have recorded := inv.recorded e mem ruleId record is
    exact ⟨recorded.found, fun r mem => (recorded.caught r mem).cons _⟩
  · exact inv.covered_push orderly

end Steps

/-! ## The detector -/

theorem keptBy_skipInv {settings : DetectionSettings} {made : DetectionCall → Prop}
    {s₀ : DetectionDb} (closed : ∀ req, ¬ made (.triage req)) :
    KeptBy settings made (SkipInv settings made s₀) where
  step := fun _ _ _ inv orderly => inv.push closed orderly
  env := fun _ _ inv env => inv.env env

theorem skipInv_start {settings : DetectionSettings} {made : DetectionCall → Prop} {s₀ : DetectionDb}
    (undismissed : ∀ a ∈ s₀.alerts, a.status ≠ .falsePositive) :
    SkipInv settings made s₀ { store := s₀, trace := [] } where
  since := fun _ mem => nomatch mem
  ordered := List.Pairwise.nil
  undismissed := undismissed
  undismissedBefore := fun _ mem => nomatch mem
  reached := fun _ mem => nomatch mem
  began := fun _ => rfl
  recorded := fun _ mem => nomatch mem
  covered := by
    rintro - rule first t begins after ⟨watermark, is, below⟩
    have same : some watermark = some first := is.symm.trans begins
    cases same
    omega

/-- Where no read was cut and the slices of the rules join, nobody is skipped. -/
theorem never_skips_of_whole_reads {settings : DetectionSettings} {configs : RuleConfigs}
    {history : History} {s₀ : DetectionDb} (undismissed : ∀ a ∈ s₀.alerts, a.status ≠ .falsePositive)
    {c : DetectionConfig}
    (reach : Reach (detectionSystem settings (watches configs history)) s₀ c)
    (whole : WholeReads configs history c.world.trace) (gapless : Gapless c.world.trace) :
    NeverSkips settings configs history s₀ c.world := by
  have inv : SkipInv settings (watches configs history) s₀ c.world :=
    (reach.sound (detectionDiscipline (keptBy_skipInv fun _ => id) (skipInv_start undismissed))).inv
  intro rule culprit first t begins after passed breach
  obtain ⟨e, mem, record, is, start, stop⟩ := inv.covered gapless rule first t begins after passed
  obtain ⟨⟨run, base, found, makes, ofRun, id, evaluated, all⟩, caught⟩ := inv.recorded e mem _ _ is
  obtain ⟨server, rfl⟩ := makes base ofRun rule id
  obtain ⟨found', evaluated', d, found, about, last, ends, later, upTo⟩ :=
    finds_of_breach (whole e mem rule record is) start stop breach
  rw [evaluated] at evaluated'
  cases evaluated'
  obtain ⟨r, raised, key, -, windowEnd⟩ := exists_right_of_forall₂ all found
  have ends := windowEnd last ends
  exact ⟨e, mem, record, is, start, stop, r, raised, _, d, id, about, key, by rw [ends]; exact later,
    by rw [ends]; exact upTo, caught r raised⟩

/-! ## A sign-in that is never looked at -/

namespace CutRead

def settings : DetectionSettings where
  settleSec := 60
  initialLookbackMinutes := 60
  maxCatchUpHours := 24
  falsePositiveSuppressHours := 24
  notifyMinSeverity := some .high
  isProduction := true
  notifyEmails := .missing
  webhookUrl := none
  emailsSetting := .missing
  webhookSetting := none
  delivery := { maxAttempts := 5, backoffBaseMs := 60000, backoffMaxMs := 3600000 }
  sha256 := id

/-- A failed sign-in at the portal of the admins. -/
def failure (id : Nat) (actorId : Option String) (occurredAt : Int) : LoginAttempt where
  id := ⟨id⟩
  actorId := actorId
  actorType := .admin
  email := "root@platform.example"
  tenantId := none
  ip := "203.0.113.7"
  success := false
  reason := "invalid_credentials"
  occurredAt := occurredAt

/-- Sign-ins with e-mails that nobody has, one each millisecond. -/
def noise (n : Nat) : List LoginAttempt := (List.range n).map fun k => failure k none (k + 1)

/-- Sign-ins on the account of an admin, a minute after. -/
def attack : List LoginAttempt :=
  [60001, 60002, 60003, 60004, 60005].map fun t => failure t (some "admin-1") t

def history (loginAttempts : List LoginAttempt) : History where
  loginAttempts := loginAttempts
  auditLog := []
  accessLog := []
  syncRuns := []
  signals := []
  apiKeys := []

/-- As many rows as a read may have, and the attack after them. -/
def busy : History := history (noise DEFAULT_LIMIT ++ attack)

/-- The first hour. -/
def hour : Slice where
  start := 0
  stop := 3600000
  now := 3660000
  finalSlice := true

def cursor : DetectionCursor where
  watermark := some 0
  ruleVersion := 1
  lastRunAt := some 0
  lastDetections := 0
  lastError := none

def store : DetectionDb where
  alerts := []
  nextId := 1
  cursors := fun _ => some cursor
  delivery := { clock := 0, runs := [], destinations := [], unsubscribed := [] }
  fault := .none

theorem mem_noise {n : Nat} {e : LoginAttempt} (mem : e ∈ noise n) :
    ∃ k < n, e = failure k none (k + 1) := by
  obtain ⟨k, below, rfl⟩ := List.mem_map.mp mem
  exact ⟨k, List.mem_range.mp below, rfl⟩

theorem read_busy {filter : LoginAttempt → Bool}
    (all : ∀ id actorId t, 0 < t → t ≤ 60005 → filter (failure id actorId t) = true) :
    readSorted Server.plain DEFAULT_LIMIT LoginAttempt.occurredAt filter busy.loginAttempts =
      noise DEFAULT_LIMIT := by
  have plain : arrange Server.plain busy.loginAttempts = busy.loginAttempts := arrange_plain _
  have passes : busy.loginAttempts.filter filter = busy.loginAttempts := by
    refine List.filter_eq_self.mpr fun e mem => ?_
    rcases List.mem_append.mp mem with old | new
    · obtain ⟨k, below, rfl⟩ := mem_noise old
      unfold DEFAULT_LIMIT at below
      exact all _ _ _ (by omega) (by omega)
    · simp only [attack, List.map_cons, List.map_nil, List.mem_cons, List.not_mem_nil, or_false] at new
      rcases new with rfl | rfl | rfl | rfl | rfl <;> exact all _ _ _ (by decide) (by decide)
  have ordered : busy.loginAttempts.Pairwise fun a b => a.occurredAt ≤ b.occurredAt := by
    refine List.pairwise_append.mpr ⟨?_, by decide, fun e old e' new => ?_⟩
    · refine List.pairwise_map.mpr (List.pairwise_lt_range.imp fun less => ?_)
      simp only [failure]
      omega
    · obtain ⟨k, below, rfl⟩ := mem_noise old
      unfold DEFAULT_LIMIT at below
      have late : 60001 ≤ e'.occurredAt := by
        simp only [attack, List.map_cons, List.map_nil, List.mem_cons, List.not_mem_nil, or_false] at new
        rcases new with rfl | rfl | rfl | rfl | rfl <;> decide
      simp only [failure]
      omega
  unfold readSorted
  rw [plain, passes, ordered.insertionSort_eq]
  exact List.take_left' (by simp [noise])

theorem evaluate_busy : adminFailedLogins.evaluate {} Server.plain busy hour = [] := by
  unfold adminFailedLogins.evaluate listLoginAttempts
  dsimp only
  rw [read_busy]
  · have nobody : (noise DEFAULT_LIMIT).filterMap adminFailedLogins.key = [] := by
      refine List.filterMap_eq_nil_iff.mpr fun e mem => ?_
      obtain ⟨k, -, rfl⟩ := mem_noise mem
      rfl
    unfold groupBy
    rw [nobody]
    rfl
  · intro id actorId t positive below
    have span : hour.start - ({} : AdminFailedLoginsConfig).window.ms = -900000 := rfl
    have stop : hour.stop = 3600000 := rfl
    have within : inRange (-900000) 3600000 t = true := by
      simp only [inRange, Bool.and_eq_true, decide_eq_true_eq]
      omega
    rw [span, stop]
    simp [attemptFilter, failure, within]

/-- The rule over the busy hour, with its answer for the first slice. -/
def rule : Rule :=
  let base := adminFailedLogins.rule {} Server.plain busy
  { base with evaluate := fun slice => if slice = hour then .ok [] else base.evaluate slice }

theorem rule_eq : rule = WatchedRule.adminFailedLogins.rule {} Server.plain busy := by
  have same : rule.evaluate = (adminFailedLogins.rule {} Server.plain busy).evaluate := by
    funext slice
    change (if slice = hour then _ else _) = _
    split
    · rename_i is
      rw [is]
      exact congrArg Except.ok evaluate_busy.symm
    · rfl
  exact congrArg (fun evaluate => { adminFailedLogins.rule {} Server.plain busy with evaluate }) same

def run : DetectionRun where
  now := 3660000
  rules := [rule]
  outside := fun _ _ => { runId := "run-1", answer := .ok none }

theorem made : watches {} busy (.detect run) := by
  intro base mem watched id
  rw [List.mem_singleton.mp mem] at id ⊢
  rw [rule_eq, id_rule] at id
  cases watched with
  | adminFailedLogins => exact ⟨Server.plain, rule_eq⟩
  | _ => exact absurd id (by decide)

def moves : List (Move Nat DetectionLabel DetectionDb Unit) :=
  .start 0 ((DetectionCall.detect run).program settings) :: List.replicate 3 (.act 0)

def final : DetectionConfig := moves.foldl Config.move (.idle store)

theorem reached : Reach (detectionSystem settings (watches {} busy)) store final :=
  Reach.moves .init ⟨⟨rfl, .detect run, made, rfl⟩, LegalRun.acts (fun _ _ _ => trivial) 0 3 _⟩

/-- Five failed sign-ins within a quarter of an hour. -/
theorem breach : Breach {} busy 60005 .adminFailedLogins { type := "admin", id := "admin-1" } := by
  have attacked : busy.failuresOf "admin-1" = attack := by
    have nobody : (noise DEFAULT_LIMIT).filter (fun e => !e.success && e.actorType = .admin &&
        e.actorId = some "admin-1") = [] := by
      refine List.filter_eq_nil_iff.mpr fun e mem => ?_
      obtain ⟨k, -, rfl⟩ := mem_noise mem
      simp [failure]
    refine (List.filter_append (noise DEFAULT_LIMIT) attack).trans ?_
    rw [nobody]
    decide
  refine .admin (by decide) ?_ ?_
  · rw [attacked]
    exact ⟨failure 60005 (some "admin-1") 60005, by decide, rfl⟩
  · rw [attacked]
    decide

theorem recorded :
    (∀ e ∈ final.world.trace, (completed "auth.admin_failed_logins" e).all fun record =>
      record.raised = [] && record.resumed) ∧ final.world.store.alerts = [] ∧
      begun store "auth.admin_failed_logins" final.world.trace = some 0 ∧
      final.world.store.watermark "auth.admin_failed_logins" = some 3600000 := by
  decide +kernel

theorem others : ∀ e ∈ final.world.trace, ∀ rule : WatchedRule, rule ≠ .adminFailedLogins →
    completed rule.id e = none := by
  have one : ∀ e ∈ final.world.trace, ["auth.credential_stuffing", "api_key.error_spike",
      "connector.auth_failures", "authz.repeated_denials"].all fun id => (completed id e).isNone := by
    decide +kernel
  intro e mem rule other
  have none := List.all_eq_true.mp (one e mem) rule.id
  rw [← Option.isNone_iff_eq_none]
  cases rule with
  | adminFailedLogins => exact absurd rfl other
  | _ => exact none (by decide)

/-! ### The attack alone -/

/-- The same hour without the noise. -/
def quiet : History := history attack

def quietRun : DetectionRun where
  now := 3660000
  rules := [WatchedRule.adminFailedLogins.rule {} Server.plain quiet]
  notify := false
  outside := fun _ _ => { runId := "run-1", answer := .ok none }

theorem quietMade : watches {} quiet (.detect quietRun) := by
  intro base mem watched id
  rw [List.mem_singleton.mp mem] at id ⊢
  cases watched with
  | adminFailedLogins => exact ⟨Server.plain, rfl⟩
  | _ => exact absurd id (by decide)

def quietMoves : List (Move Nat DetectionLabel DetectionDb Unit) :=
  .start 0 ((DetectionCall.detect quietRun).program settings) :: List.replicate 6 (.act 0)

def quietFinal : DetectionConfig := quietMoves.foldl Config.move (.idle store)

theorem quietReached : Reach (detectionSystem settings (watches {} quiet)) store quietFinal :=
  Reach.moves .init ⟨⟨rfl, .detect quietRun, quietMade, rfl⟩, LegalRun.acts (fun _ _ _ => trivial) 0 6 _⟩

theorem quietBreach : Breach {} quiet 60005 .adminFailedLogins { type := "admin", id := "admin-1" } :=
  .admin (by decide) ⟨failure 60005 (some "admin-1") 60005, by decide, rfl⟩ (by decide)

theorem quietWhole (slice : Slice) (rule : WatchedRule) : rule.Whole {} quiet slice := by
  have few {R : Type} {limit : Nat} {filter : R → Bool} {rows : List R} (small : rows.length ≤ 5)
      (large : 5 ≤ limit) : Whole limit filter rows :=
    List.countP_le_length.trans (small.trans large)
  cases rule with
  | connectorAuthFailures =>
      exact ⟨few (by decide) (by decide), few (by decide) (by decide), few (by decide) (by decide)⟩
  | repeatedDenials => exact ⟨few (by decide) (by decide), few (by decide) (by decide)⟩
  | _ => exact few (by decide) (by decide)

theorem quietRecorded :
    (∀ e ∈ quietFinal.world.trace, ["auth.credential_stuffing", "auth.admin_failed_logins",
      "api_key.error_spike", "connector.auth_failures", "authz.repeated_denials"].all fun id =>
        (completed id e).all fun record => record.resumed) ∧
      begun store "auth.admin_failed_logins" quietFinal.world.trace = some 0 ∧
      quietFinal.world.store.watermark "auth.admin_failed_logins" = some 3600000 := by
  decide +kernel

theorem quietGapless : Gapless quietFinal.world.trace := by
  intro e mem rule record is unresumed
  have fresh := List.all_eq_true.mp (quietRecorded.1 e mem) rule.id (by cases rule <;> decide)
  rw [is, Option.all_some, unresumed] at fresh
  cases fresh

end CutRead

open CutRead in
/-- The attack alone is detected. -/
theorem never_skips_attack : Detected settings quietFinal.world.trace .adminFailedLogins
    { type := "admin", id := "admin-1" } 60005 := by
  have undismissed : ∀ a ∈ store.alerts, a.status ≠ .falsePositive := fun _ => nofun
  exact never_skips_of_whole_reads undismissed quietReached (fun _ _ rule record _ => quietWhole _ rule)
    quietGapless .adminFailedLogins _ 0 60005 quietRecorded.2.1 (by decide)
    ⟨_, quietRecorded.2.2, by decide⟩ quietBreach

open CutRead in
/-- Fifty thousand sign-ins with unknown e-mails hide those on the account of an admin: the watermark
passes them, and there is no alert. -/
theorem sign_ins_skipped : ¬ ∀ settings configs history s₀,
    (∀ a ∈ s₀.alerts, a.status ≠ .falsePositive) → ∀ c : DetectionConfig,
      Reach (detectionSystem settings (watches configs history)) s₀ c → Gapless c.world.trace →
        NeverSkips settings configs history s₀ c.world := by
  intro all
  have gapless : Gapless final.world.trace := by
    intro e mem rule record is resumed
    by_cases own : rule = .adminFailedLogins
    · rw [own] at is
      have fresh := recorded.1 e mem
      rw [show completed "auth.admin_failed_logins" e = some record from is, Option.all_some, resumed,
        Bool.and_false] at fresh
      cases fresh
    · rw [others e mem rule own] at is
      cases is
  have holds := all settings {} busy store (fun _ mem => absurd mem List.not_mem_nil) final
    reached gapless
  obtain ⟨e, mem, record, is, -, -, r, raised, -⟩ := holds .adminFailedLogins _ 0 60005
    recorded.2.2.1 (by decide) ⟨_, recorded.2.2.2, by decide⟩ breach
  have fresh := recorded.1 e mem
  rw [show completed "auth.admin_failed_logins" e = some record from is, Option.all_some,
    Bool.and_eq_true, decide_eq_true_eq] at fresh
  rw [fresh.1] at raised
  cases raised

end AnalyticsBackend.Security
