import AnalyticsBackend.Security.Runs

/-!
# Alerts and on-call

An alert is claimed once, and handed over to each channel once. But the default sinks ask for a
delivery without a tenant, which the delivery pipeline refuses, so on-call never hears of an alert.
-/

namespace AnalyticsBackend.Security
open Lib System Mongo Delivery

/-! ## What on-call is to hear -/

/-- The channels that are configured. -/
def DetectionSettings.channels (settings : DetectionSettings) : List Channel :=
  (targetsOf settings settings.emailsSetting settings.webhookSetting).channels

/-- The detections that a watermark has passed. -/
def passed (e : DetectionEvent) : List Raised :=
  match e.label with
  | .advance _ _ record => if applied e then record.raised else []
  | _ => []

/-- A detection that reaches the notify threshold, raised into an alert. -/
def Raised.serious (settings : DetectionSettings) (r : Raised) : Bool :=
  notifyThresholdRank settings ≤ r.severityRank && r.outcome ≠ .suppressed && r.alert.isSome

def Accepted (db : DetectionDb) (id : ObjectId) (channel : Channel) : Prop :=
  ∃ run ∈ db.delivery.runs, run.kind = DELIVERY_KIND ∧ run.idempotencyKey = idempotencyKey id channel

/-- Every configured channel has had a delivery for each serious detection that was passed. -/
def OnCallReached (settings : DetectionSettings) (w : DetectionWorld) : Prop :=
  ∀ e ∈ w.trace, ∀ r ∈ passed e, r.serious settings = true → ∀ id, r.alert = some id →
    ∀ channel ∈ settings.channels, Accepted w.store id channel

/-- No alert is claimed twice, or handed over twice to a channel. -/
def NotifiedOnce (w : DetectionWorld) : Prop :=
  ∀ id, w.trace.countP (claims id) ≤ 1 ∧ ∀ channel, w.trace.countP (hands id channel) ≤ 1

/-- The ids of alerts are drawn, and the delivery pipeline has no run of a security alert. -/
structure DetectionStart (db : DetectionDb) : Prop where
  ids : ∀ a ∈ db.alerts, a.id.value < db.nextId
  undelivered : ∀ run ∈ db.delivery.runs, run.kind ≠ DELIVERY_KIND

/-! ## The invariant -/

structure OnCallInv (w : DetectionWorld) : Prop where
  ids : ∀ a ∈ w.store.alerts, a.id.value < w.store.nextId
  undelivered : ∀ run ∈ w.store.delivery.runs, run.kind ≠ DELIVERY_KIND
  once : ∀ id, w.trace.countP (claims id) ≤ 1
  marked : ∀ id, 0 < w.trace.countP (claims id) → id.value < w.store.nextId ∧
    ∀ a ∈ w.store.alerts, a.id = id → a.notifiedAt.isSome = true
  balanced : ∀ i, Balanced (w.own i)

theorem id_set (label : DetectionLabel) (alert : SecurityAlert) : (label.set alert).id = alert.id := by
  cases label with
  | transition id triage =>
      simp only [DetectionLabel.set, Triage.apply]
      cases triage.action <;> rfl
  | _ => rfl

theorem notifiedAt_set {label : DetectionLabel} {alert : SecurityAlert}
    (notified : alert.notifiedAt.isSome = true) : (label.set alert).notifiedAt.isSome = true := by
  cases label with
  | transition id triage =>
      simp only [DetectionLabel.set, Triage.apply]
      cases triage.action <;> exact notified
  | claimNotification id now => rfl
  | _ => exact notified

/-- What a step has made of the alerts: one is new, and the others are as marked as they were. -/
structure Succeeds (db db' : DetectionDb) : Prop where
  nextId : db.nextId ≤ db'.nextId
  alerts : ∀ a' ∈ db'.alerts, (a'.id = ⟨db.nextId⟩ ∧ db.nextId < db'.nextId) ∨
    ∃ a ∈ db.alerts, a'.id = a.id ∧ (a.notifiedAt.isSome = true → a'.notifiedAt.isSome = true)

theorem Succeeds.refl (db : DetectionDb) : Succeeds db db :=
  ⟨le_rfl, fun a mem => .inr ⟨a, mem, rfl, id⟩⟩

theorem succeeds_map (label : DetectionLabel) (db : DetectionDb) :
    Succeeds db { db with
      alerts := db.alerts.map fun a => if label.selects a then label.set a else a } := by
  refine ⟨le_rfl, fun a' mem => ?_⟩
  obtain ⟨a, old, rfl⟩ := List.mem_map.mp mem
  refine .inr ⟨a, old, ?_, fun notified => ?_⟩
  · split
    · exact id_set label a
    · rfl
  · split
    · exact notifiedAt_set notified
    · exact notified

theorem succeeds_act (label : DetectionLabel) (db : DetectionDb) : Succeeds db (label.act db) := by
  cases label with
  | createActive alert =>
      simp only [DetectionLabel.act]
      split
      · exact Succeeds.refl db
      · refine ⟨Nat.le_succ _, fun a' mem => ?_⟩
        rcases List.mem_append.mp mem with old | new
        · exact .inr ⟨a', old, rfl, id⟩
        · rw [List.mem_singleton.mp new]
          exact .inl ⟨rfl, Nat.lt_succ_self _⟩
  | mergeIntoActive dedupeKey merge => exact succeeds_map (.mergeIntoActive dedupeKey merge) db
  | appendHistory id entry => exact succeeds_map (.appendHistory id entry) db
  | claimNotification id now => exact succeeds_map (.claimNotification id now) db
  | recordNotifications id entries now => exact succeeds_map (.recordNotifications id entries now) db
  | transition id triage => exact succeeds_map (.transition id triage) db
  | look | evaluate _ _ | handOver _ _ | delivery _ | advance _ _ _ | recordError _ _ _ _ =>
      exact ⟨le_rfl, fun a mem => .inr ⟨a, mem, rfl, id⟩⟩

theorem succeeds_perform (label : DetectionLabel) (db : DetectionDb) :
    Succeeds db (label.perform db) := by
  have calm : Succeeds db { db with fault := .none } := ⟨le_rfl, (Succeeds.refl db).alerts⟩
  have acts (label : DetectionLabel) :
      Succeeds db (if db.fault = .refused then { db with fault := .none }
        else label.act { db with fault := .none }) := by
    split
    · exact calm
    · have succeeds := succeeds_act label { db with fault := .none }
      exact ⟨succeeds.nextId, succeeds.alerts⟩
  cases label with
  | handOver id channel => exact Succeeds.refl db
  | _ => exact acts _

theorem delivery_perform {label : DetectionLabel} (other : ∀ l, label ≠ .delivery l)
    (db : DetectionDb) : (label.perform db).delivery = db.delivery := by
  cases label with
  | delivery l => exact absurd rfl (other l)
  | handOver id channel => rfl
  | createActive alert =>
      simp only [DetectionLabel.perform, DetectionLabel.act]
      split
      · rfl
      · split <;> rfl
  | _ =>
      simp only [DetectionLabel.perform, DetectionLabel.act, DetectionDb.setCursor]
      split <;> rfl

theorem marked_of_claims {id : ObjectId} {i : Nat} {label : DetectionLabel} {db : DetectionDb}
    (is : claims id ⟨i, label, db, label.perform db⟩ = true) :
    (∃ a ∈ db.alerts, a.id = id ∧ a.notifiedAt = none) ∧
      ∀ a ∈ (label.perform db).alerts, a.id = id → a.notifiedAt.isSome = true := by
  cases label with
  | claimNotification id' now =>
      simp only [claims, applied, Bool.and_eq_true, decide_eq_true_eq] at is
      obtain ⟨⟨rfl, answered⟩, found⟩ := is
      obtain ⟨a, found⟩ := Option.isSome_iff_exists.mp found
      have selects := List.find?_some found
      simp only [DetectionLabel.selects, Bool.and_eq_true, decide_eq_true_eq,
        Option.isNone_iff_eq_none] at selects
      refine ⟨⟨a, List.mem_of_find?_eq_some found, selects⟩, fun a' mem ofId => ?_⟩
      simp only [DetectionLabel.perform, if_neg answered, DetectionLabel.act] at mem
      obtain ⟨old, -, rfl⟩ := List.mem_map.mp mem
      split
      · rfl
      · rename_i other
        rw [if_neg other] at ofId
        cases notified : old.notifiedAt with
        | none =>
            refine absurd ?_ other
            simp [DetectionLabel.selects, ofId, notified]
        | some time => rfl
  | _ => cases is

theorem OnCallInv.step {settings : DetectionSettings} {made : DetectionCall → Prop}
    {w : DetectionWorld} {i : Nat} {label : DetectionLabel} (inv : OnCallInv w)
    (orderly : Orderly settings made (w.own i) label) :
    OnCallInv (w.push ⟨i, label, w.store, label.perform w.store⟩) := by
  have succeeds := succeeds_perform label w.store
  have below (id : ObjectId) (claimed : 0 < w.trace.countP (claims id)) :
      id.value < (label.perform w.store).nextId ∧
        ∀ a ∈ (label.perform w.store).alerts, a.id = id → a.notifiedAt.isSome = true := by
    obtain ⟨drawn, marked⟩ := inv.marked id claimed
    refine ⟨lt_of_lt_of_le drawn succeeds.nextId, fun a' mem ofId => ?_⟩
    rcases succeeds.alerts a' mem with ⟨new, -⟩ | ⟨a, old, same, keeps⟩
    · rw [← ofId, new] at drawn
      exact absurd drawn (lt_irrefl _)
    · exact keeps (marked a old (same.symm.trans ofId))
  constructor
  · intro a' mem
    rcases succeeds.alerts a' mem with ⟨new, more⟩ | ⟨a, old, same, -⟩
    · rw [new]
      exact more
    · rw [same]
      exact lt_of_lt_of_le (inv.ids a old) succeeds.nextId
  · rw [World.push_store, delivery_perform orderly.pipeline]
    exact inv.undelivered
  · intro id
    rw [World.push_trace, List.countP_cons]
    split
    · rename_i is
      obtain ⟨⟨a, mem, ofId, unmarked⟩, -⟩ := marked_of_claims is
      have none : w.trace.countP (claims id) = 0 := by
        by_contra claimed
        have marked := (inv.marked id (Nat.pos_of_ne_zero claimed)).2 a mem ofId
        rw [unmarked] at marked
        exact nomatch marked
      rw [none]
    · exact inv.once id
  · intro id claimed
    rw [World.push_trace, List.countP_cons] at claimed
    split at claimed
    · rename_i is
      obtain ⟨⟨a, mem, ofId, -⟩, marked⟩ := marked_of_claims is
      exact ⟨ofId ▸ lt_of_lt_of_le (inv.ids a mem) succeeds.nextId, marked⟩
    · exact below id claimed
  · intro j
    rw [World.own_push]
    split
    · rename_i same
      have same : i = j := same
      subst same
      intro id channel
      have before := inv.balanced i id channel
      rw [List.countP_cons, List.countP_cons]
      by_cases hand : label = .handOver id channel
      · have spare := orderly.handed id channel hand
        split <;> omega
      · rw [if_neg (by simpa [hands] using hand)]
        omega
    · exact inv.balanced j

theorem keptBy_onCall (settings : DetectionSettings) (made : DetectionCall → Prop) :
    KeptBy settings made OnCallInv where
  step := fun _ _ _ inv orderly => inv.step orderly
  env := by
    rintro w db inv ⟨alerts, nextId, -, outside⟩
    refine ⟨?_, fun run mem kind => inv.undelivered run (outside run mem kind) kind, inv.once, ?_,
      inv.balanced⟩
    · rw [alerts, nextId]
      exact inv.ids
    · rw [alerts, nextId]
      exact inv.marked

theorem OnCallInv.of_reach {settings : DetectionSettings} {made : DetectionCall → Prop}
    {s₀ : DetectionDb} (start : DetectionStart s₀) {c : DetectionConfig}
    (reach : Reach (detectionSystem settings made) s₀ c) : OnCallInv c.world := by
  refine (reach.sound (detectionDiscipline (keptBy_onCall settings made) ?_)).inv
  refine ⟨start.ids, start.undelivered, fun _ => Nat.zero_le _, fun _ claimed => ?_, ?_⟩
  · exact absurd claimed (lt_irrefl 0)
  · exact fun _ _ _ => le_rfl

/-! ## The result -/

theorem OnCallInv.handed_le {w : DetectionWorld} (inv : OnCallInv w) (id : ObjectId)
    (channel : Channel) : w.trace.countP (hands id channel) ≤ w.trace.countP (claims id) := by
  let spare (e : DetectionEvent) : Int :=
    (if claims id e then 1 else 0) - if hands id channel e then 1 else 0
  have sum (l : List DetectionEvent) :
      (l.map spare).sum = (l.countP (claims id) : Int) - l.countP (hands id channel) := by
    induction l with
    | nil => rfl
    | cons e rest ih =>
        rw [List.map_cons, List.sum_cons, ih, List.countP_cons, List.countP_cons]
        dsimp only [spare]
        split <;> split <;> omega
  have total : 0 ≤ (w.trace.map spare).sum := by
    rw [w.sum_own _ (w.trace.map Event.tid).toFinset fun e mem =>
      List.mem_toFinset.mpr (List.mem_map_of_mem mem)]
    refine Finset.sum_nonneg fun i _ => ?_
    have balanced := inv.balanced i id channel
    rw [sum]
    omega
  rw [sum] at total
  omega

theorem OnCallInv.notifiedOnce {w : DetectionWorld} (inv : OnCallInv w) : NotifiedOnce w :=
  fun id => ⟨inv.once id, fun channel => (inv.handed_le id channel).trans (inv.once id)⟩

theorem OnCallInv.not_accepted {w : DetectionWorld} (inv : OnCallInv w) (id : ObjectId)
    (channel : Channel) : ¬ Accepted w.store id channel :=
  fun ⟨run, mem, kind, _⟩ => inv.undelivered run mem kind

/-- Whichever runs fail or crash, no alert is notified twice, and on-call is reached if and only if
there is nobody to reach or nothing serious to tell: no delivery of an alert is ever accepted. -/
theorem on_call_reached_iff (settings : DetectionSettings) (made : DetectionCall → Prop)
    (s₀ : DetectionDb) (start : DetectionStart s₀) (c : DetectionConfig)
    (reach : Reach (detectionSystem settings made) s₀ c) :
    NotifiedOnce c.world ∧ (OnCallReached settings c.world ↔
      settings.channels = [] ∨ ∀ e ∈ c.world.trace, ∀ r ∈ passed e, r.serious settings = false) := by
  have inv := OnCallInv.of_reach start reach
  refine ⟨inv.notifiedOnce, fun reached => ?_, ?_⟩
  · by_cases none : settings.channels = []
    · exact .inl none
    · obtain ⟨channel, configured⟩ := List.exists_mem_of_ne_nil _ none
      refine .inr fun e mem r pass => ?_
      rw [← Bool.not_eq_true]
      intro serious
      obtain ⟨id, is⟩ := Option.isSome_iff_exists.mp (Bool.and_eq_true_iff.mp serious).2
      exact inv.not_accepted id channel (reached e mem r pass serious id is channel configured)
  · rintro (none | trifles) e mem r pass serious id is channel configured
    · rw [none] at configured
      cases configured
    · rw [trifles e mem r pass] at serious
      cases serious

/-! ## An alert that on-call never hears of -/

namespace UnheardAlert

/-- On-call has one address. -/
def settings : DetectionSettings where
  settleSec := 60
  initialLookbackMinutes := 60
  maxCatchUpHours := 24
  falsePositiveSuppressHours := 24
  notifyMinSeverity := some .high
  isProduction := true
  notifyEmails := .missing
  webhookUrl := none
  emailsSetting := .list ["oncall@platform.example"]
  webhookSetting := none
  delivery := { maxAttempts := 5, backoffBaseMs := 60000, backoffMaxMs := 3600000 }
  sha256 := id

def detection : Detection where
  subject := { type := "ip", id := "203.0.113.7", display := none }
  summary := "20 failed sign-ins"
  windowStart := none
  windowEnd := some 1700000000000
  counts := [("failures", 20)]
  refs := []

/-- A rule that finds something in every slice. -/
def rule : Rule where
  id := "auth.credential_stuffing"
  version := 1
  title := "Credential stuffing from one IP"
  severity := .high
  enabled := true
  evaluate := fun _ => .ok [detection]

def run : DetectionRun where
  now := 1700000100000
  rules := [rule]
  outside := fun _ _ => { runId := "run-1", answer := .ok (some "outbox-1") }

def store : DetectionDb where
  alerts := []
  nextId := 1
  cursors := fun _ => none
  delivery := { clock := 1700000100000, runs := [], destinations := [], unsubscribed := [] }
  fault := .none

theorem started : DetectionStart store := ⟨fun _ => nofun, fun _ => nofun⟩

abbrev made : DetectionCall → Prop := fun _ => True

def moves : List (Move Nat DetectionLabel DetectionDb Unit) :=
  .start 0 ((DetectionCall.detect run).program settings) :: List.replicate 11 (.act 0)

def final : DetectionConfig := moves.foldl Config.move (.idle store)

theorem reached : Reach (detectionSystem settings made) store final :=
  Reach.moves .init ⟨⟨rfl, .detect run, trivial, rfl⟩, LegalRun.acts (fun _ _ _ => trivial) 0 11 _⟩

theorem passed_serious :
    ∃ e ∈ final.world.trace, ∃ r ∈ passed e, r.serious settings = true ∧ r.alert = some ⟨1⟩ := by
  decide +kernel

end UnheardAlert

open UnheardAlert in
/-- A run that raises a serious alert and claims its notification, which nobody receives. -/
theorem on_call_reached_iff_unheard :
    final.world.trace.countP (claims ⟨1⟩) = 1 ∧ NotifiedOnce final.world ∧
      ¬ OnCallReached settings final.world := by
  obtain ⟨once, iff⟩ := on_call_reached_iff settings made store started final reached
  refine ⟨by decide +kernel, once, fun holds => ?_⟩
  rcases iff.mp holds with none | trifles
  · exact absurd none (by decide +kernel)
  · obtain ⟨e, mem, r, pass, serious, -⟩ := passed_serious
    rw [trifles e mem r pass] at serious
    cases serious

open UnheardAlert in
/-- With a valid address configured, the watermark passes a serious detection without a delivery. -/
theorem on_call_unreached : ¬ ∀ settings made s₀, DetectionStart s₀ → settings.channels ≠ [] →
    ∀ c, Reach (detectionSystem settings made) s₀ c →
      OnCallReached settings c.world ∧ NotifiedOnce c.world := by
  intro all
  have holds := (all settings made store started (by decide +kernel) final reached).1
  obtain ⟨e, mem, r, pass, serious, is⟩ := passed_serious
  have email : Channel.email ∈ settings.channels := by decide +kernel
  exact (OnCallInv.of_reach started reached).not_accepted ⟨1⟩ .email
    (holds e mem r pass serious ⟨1⟩ is .email email)

end AnalyticsBackend.Security
