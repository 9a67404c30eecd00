import AnalyticsBackend.Security.Engine

/-!
# What the detector does in a run

What a process has done before each of its steps, whatever the others do and whichever calls fail: an
alert is handed over once for each claim, and a slice is recorded once its detections are raised and
where the run has got to it.
-/

namespace AnalyticsBackend.Security
open Lib System Mongo Delivery

/-! ## Events -/

/-- A call that was carried out. -/
def applied (e : DetectionEvent) : Bool := e.before.fault ≠ .refused

/-- An event that claims the notification of an alert. -/
def claims (id : ObjectId) (e : DetectionEvent) : Bool :=
  match e.label with
  | .claimNotification id' now =>
      id' = id && applied e && (selected (.claimNotification id' now) e.before).isSome
  | _ => false

def hands (id : ObjectId) (channel : Channel) (e : DetectionEvent) : Bool :=
  e.label = .handOver id channel

def Balanced (own : List DetectionEvent) : Prop :=
  ∀ id channel, own.countP (hands id channel) ≤ own.countP (claims id)

def Lost (own : List DetectionEvent) (dedupeKey : String) : Prop :=
  ∃ e e' merge, [e, e'].Sublist own ∧ e.label = .mergeIntoActive dedupeKey merge ∧
    selected e.label e.before = none ∧ (e'.before.findActiveByKey dedupeKey).isSome = true

def Accounted (own : List DetectionEvent) (r : Raised) : Prop :=
  match r.outcome with
  | .raised => ∃ e ∈ own, ∃ alert, e.label = .createActive alert ∧ applied e = true ∧
      e.before.refuses alert = false ∧ alert.dedupeKey = r.dedupeKey ∧ r.alert = some ⟨e.before.nextId⟩
  | .merged => Lost own r.dedupeKey ∨ ∃ e ∈ own, ∃ merge old, e.label = .mergeIntoActive r.dedupeKey merge ∧
      applied e = true ∧ selected e.label e.before = some old ∧ r.alert = some old.id
  | .suppressed => ∃ e ∈ own, ∃ since old,
      e.before.findRecentlyClosed r.dedupeKey .falsePositive since = some old

/-- A run has got to an instant: by the watermark that it found, or by its last slice. -/
def Joined (own : List DetectionEvent) (ruleId : String) (start : Int) : Prop :=
  ∃ e ∈ own, e.before.watermark ruleId = some start ∨
    (applied e = true ∧ ∃ state record, e.label = .advance ruleId state record ∧ state.watermark = start)

def Found (settings : DetectionSettings) (rule : Rule) (d : Detection) (r : Raised) : Prop :=
  r.dedupeKey = dedupeKeyFor settings.sha256 rule d ∧ r.severityRank = (severityOf rule d).rank ∧
    ∀ stop, d.windowEnd = some stop → r.windowEnd = stop

structure Advances (settings : DetectionSettings) (made : DetectionCall → Prop)
    (own : List DetectionEvent) (ruleId : String) (state : CursorAdvance) (record : SliceRecord) :
    Prop where
  stop : state.watermark = record.slice.stop
  found : ∃ run rule found, made (.detect run) ∧ rule ∈ run.rules ∧ rule.id = ruleId ∧
    rule.evaluate record.slice = .ok found ∧ List.Forall₂ (Found settings rule) found record.raised
  accounted : ∀ r ∈ record.raised, Accounted own r
  joined : record.resumed = true → Joined own ruleId record.slice.start

/-- What goes before a step. -/
structure Orderly (settings : DetectionSettings) (made : DetectionCall → Prop)
    (own : List DetectionEvent) (label : DetectionLabel) : Prop where
  handed : ∀ id channel, label = .handOver id channel →
    own.countP (hands id channel) < own.countP (claims id)
  pipeline : ∀ l, label ≠ .delivery l
  triaged : ∀ id triage, label = .transition id triage → ∃ req, made (.triage req)
  advances : ∀ ruleId state record, label = .advance ruleId state record →
    Advances settings made own ruleId state record

/-- An invariant that the orderly steps keep. -/
structure KeptBy (settings : DetectionSettings) (made : DetectionCall → Prop)
    (I : DetectionWorld → Prop) : Prop where
  step : ∀ w i label, I w → Orderly settings made (w.own i) label →
    I (w.push ⟨i, label, w.store, label.perform w.store⟩)
  env : ∀ w db, I w → (detectionSystem settings made).env w.store db →
    I { store := db, trace := w.trace }

/-! ## Rules -/

def Grows (P : List DetectionEvent → Prop) : Prop := ∀ e own, P own → P (e :: own)

theorem Grows.and {P R : List DetectionEvent → Prop} (hP : Grows P) (hR : Grows R) :
    Grows fun own => P own ∧ R own :=
  fun e own h => ⟨hP e own h.1, hR e own h.2⟩

theorem grows_lost (dedupeKey : String) : Grows fun own => Lost own dedupeKey := by
  rintro e own ⟨e₁, e₂, merge, sub, rest⟩
  exact ⟨e₁, e₂, merge, sub.cons e, rest⟩

theorem grows_accounted (r : Raised) : Grows fun own => Accounted own r := by
  intro e own accounted
  unfold Accounted at accounted ⊢
  split at accounted
  · obtain ⟨e', mem, rest⟩ := accounted
    exact ⟨e', List.mem_cons_of_mem _ mem, rest⟩
  · exact accounted.imp (grows_lost _ e own) fun ⟨e', mem, rest⟩ =>
      ⟨e', List.mem_cons_of_mem _ mem, rest⟩
  · obtain ⟨e', mem, rest⟩ := accounted
    exact ⟨e', List.mem_cons_of_mem _ mem, rest⟩

theorem grows_joined (ruleId : String) (start : Int) : Grows fun own => Joined own ruleId start := by
  rintro e own ⟨e', mem, joined⟩
  exact ⟨e', List.mem_cons_of_mem _ mem, joined⟩

theorem Balanced.cons {own : List DetectionEvent} (balanced : Balanced own) {e : DetectionEvent}
    (keeps : ∀ id channel, e.label ≠ .handOver id channel) : Balanced (e :: own) := by
  intro id channel
  have is := balanced id channel
  rw [List.countP_cons_of_neg (by simpa [hands] using keeps id channel), List.countP_cons]
  omega

section Follows

variable {settings : DetectionSettings} {made : DetectionCall → Prop} {I : DetectionWorld → Prop}
  {i : Nat} {A B : Type}

/-- A program that process `i` runs after the events of its that `P` speaks of; where it answers, `R`
speaks of its events. -/
abbrev Follows (settings : DetectionSettings) (made : DetectionCall → Prop)
    (I : DetectionWorld → Prop) (i : Nat) (P : List DetectionEvent → Prop) (p : DetectionM A)
    (R : A → List DetectionEvent → Prop) : Prop :=
  Safe (detectionSystem settings made).env (detectionSystem settings made).ok I (fun _ => True) i
    (fun result w => Balanced (w.own i) ∧ ∀ a, result = .ok a → R a (w.own i)) p.run
    (fun w => Balanced (w.own i) ∧ P (w.own i))

theorem Follows.weaken {P P' : List DetectionEvent → Prop} {p : DetectionM A}
    {R : A → List DetectionEvent → Prop} (follows : Follows settings made I i P p R)
    (stronger : ∀ own, P' own → P own) : Follows settings made I i P' p R :=
  Safe.weaken follows fun _ _ h => ⟨h.1, stronger _ h.2⟩

theorem Follows.post {P : List DetectionEvent → Prop} {p : DetectionM A}
    {R R' : A → List DetectionEvent → Prop} (follows : Follows settings made I i P p R)
    (weaker : ∀ a own, R a own → R' a own) : Follows settings made I i P p R' :=
  Safe.post follows fun _ _ h => ⟨h.1, fun a is => weaker a _ (h.2 a is)⟩

theorem Follows.pure {P : List DetectionEvent → Prop} {a : A} {R : A → List DetectionEvent → Prop}
    (holds : ∀ own, P own → R a own) :
    Follows settings made I i P (Pure.pure a : DetectionM A) R := by
  rintro w - ⟨balanced, is⟩
  refine ⟨balanced, fun b same => ?_⟩
  cases same
  exact holds _ is

theorem Follows.throw {P : List DetectionEvent → Prop} {message : String}
    {R : A → List DetectionEvent → Prop} :
    Follows settings made I i P (MonadExcept.throw message : DetectionM A) R := by
  rintro w - ⟨balanced, -⟩
  exact ⟨balanced, fun b same => nomatch same⟩

theorem Follows.bind {P : List DetectionEvent → Prop} {p : DetectionM A} {k : A → DetectionM B}
    {R : A → List DetectionEvent → Prop} {Q : B → List DetectionEvent → Prop}
    (first : Follows settings made I i P p R)
    (second : ∀ a, Follows settings made I i (R a) (k a) Q) :
    Follows settings made I i P (p >>= k) Q := by
  refine Safe.bind first fun result => ?_
  cases result with
  | ok a => exact Safe.weaken (second a) fun w _ h => ⟨h.1, h.2 a rfl⟩
  | error message =>
      rintro w - ⟨balanced, -⟩
      exact ⟨balanced, fun b same => nomatch same⟩

theorem Follows.attempt {P : List DetectionEvent → Prop} {p : DetectionM A}
    {R : A → List DetectionEvent → Prop} (follows : Follows settings made I i P p R) :
    Follows settings made I i P (attempt p) fun result own => ∀ a, result = .ok a → R a own := by
  refine Safe.bind follows fun result => ?_
  rintro w - ⟨balanced, holds⟩
  refine ⟨balanced, fun result' same a is => ?_⟩
  cases same
  exact holds a is

theorem Follows.ite {c : Prop} [Decidable c] {P : List DetectionEvent → Prop} {p q : DetectionM A}
    {R : A → List DetectionEvent → Prop} (first : Follows settings made I i P p R)
    (second : Follows settings made I i P q R) :
    Follows settings made I i P (if c then p else q) R := by
  by_cases h : c
  · rwa [if_pos h]
  · rwa [if_neg h]

theorem Follows.update (kept : KeptBy settings made I) {P : List DetectionEvent → Prop}
    {label : DetectionLabel} {report : DetectionDb → Except String A}
    {R : A → List DetectionEvent → Prop}
    (orderly : ∀ own, Balanced own → P own → Orderly settings made own label)
    (post : ∀ e own, Balanced own → P own → e.label = label →
      Balanced (e :: own) ∧ ∀ a, report e.before = .ok a → R a (e :: own)) :
    Follows settings made I i P (ExceptT.mk (Prog.update label label.perform report)) R := by
  refine Safe.update
    (fun result => Stable.own i fun own => Balanced own ∧ ∀ a, result = .ok a → R a own) ?_
  rintro w inv ⟨balanced, holds⟩ -
  refine ⟨kept.step w i label inv (orderly _ balanced holds), trivial, ?_⟩
  rw [World.own_push, if_pos rfl]
  exact post _ _ balanced holds rfl

theorem Follows.call (kept : KeptBy settings made I) {P : List DetectionEvent → Prop}
    {label : DetectionLabel} {report : DetectionDb → A} {R : A → List DetectionEvent → Prop}
    (quiet : ∀ id channel, label ≠ .handOver id channel) (orderly : ∀ own, P own →
      Orderly settings made own label)
    (post : ∀ e own, P own → e.label = label → e.before.fault = .none → R (report e.before) (e :: own)) :
    Follows settings made I i P (call label report) R := by
  refine Follows.update kept (fun own _ holds => orderly own holds) fun e own balanced holds is => ?_
  refine ⟨balanced.cons fun id channel => by rw [is]; exact quiet id channel, fun a same => ?_⟩
  split at same
  · rename_i answered
    cases same
    exact post e own holds is answered
  · exact nomatch same

/-- Steps before which nothing has to be done. -/
def plain : DetectionLabel → Bool
  | .handOver _ _ | .delivery _ | .transition _ _ | .advance _ _ _ => false
  | _ => true

theorem orderly_of_plain {own : List DetectionEvent} {label : DetectionLabel}
    (is : plain label = true) : Orderly settings made own label where
  handed := fun id channel same => by rw [same] at is; exact nomatch is
  pipeline := fun l same => by rw [same] at is; exact nomatch is
  triaged := fun id triage same => by rw [same] at is; exact nomatch is
  advances := fun ruleId state record same => by rw [same] at is; exact nomatch is

theorem Follows.plain (kept : KeptBy settings made I) {P : List DetectionEvent → Prop}
    {label : DetectionLabel} {report : DetectionDb → A} {R : A → List DetectionEvent → Prop}
    (is : plain label = true)
    (post : ∀ e own, P own → e.label = label → e.before.fault = .none → R (report e.before) (e :: own)) :
    Follows settings made I i P (Security.call label report) R :=
  Follows.call kept (fun id channel same => by rw [same] at is; exact nomatch is)
    (fun _ _ => orderly_of_plain is) post

theorem Follows.calm (kept : KeptBy settings made I) {P : List DetectionEvent → Prop}
    {label : DetectionLabel} {report : DetectionDb → A} (is : Security.plain label = true)
    (grows : Grows P) : Follows settings made I i P (Security.call label report) fun _ => P :=
  Follows.plain kept is fun e own holds _ _ => grows e own holds

theorem follows_readSetting (kept : KeptBy settings made I) {P : List DetectionEvent → Prop}
    (looks : ∀ e own, e.label = .look → P own → P (e :: own)) {A : Type} (value missing : A) :
    Follows settings made I i P (readSetting value missing) fun _ => P := by
  have read : Follows settings made I i P (attempt (call .look fun _ => value)) fun _ => P := by
    refine Safe.bind (R := fun _ w => Balanced (w.own i) ∧ P (w.own i)) ?_ fun result => ?_
    · refine Safe.update (fun _ => Stable.own i fun own => Balanced own ∧ P own) ?_
      rintro w inv ⟨balanced, holds⟩ -
      refine ⟨kept.step w i .look inv (orderly_of_plain rfl), trivial, ?_⟩
      rw [World.own_push, if_pos rfl]
      exact ⟨balanced.cons fun _ _ => by simp, looks _ _ rfl holds⟩
    · rintro w - ⟨balanced, holds⟩
      exact ⟨balanced, fun _ _ => holds⟩
  refine read.bind fun result => ?_
  cases result with
  | ok value => exact Follows.pure fun _ holds => holds
  | error message => exact Follows.pure fun _ holds => holds

end Follows

-- From here on the rules are used, and never the programs they are about unfolded.
attribute [local irreducible] Safe

/-! ## Notifications -/

section Notify

variable {settings : DetectionSettings} {made : DetectionCall → Prop} {I : DetectionWorld → Prop}
  {i : Nat}

def Owed (id : ObjectId) (channels : List Channel) (own : List DetectionEvent) : Prop :=
  ∀ channel ∈ channels, own.countP (hands id channel) < own.countP (claims id)

theorem Owed.cons {id : ObjectId} {channels : List Channel} {own : List DetectionEvent}
    (owed : Owed id channels own) {e : DetectionEvent}
    (other : ∀ channel ∈ channels, e.label ≠ .handOver id channel) : Owed id channels (e :: own) := by
  intro channel mem
  have is := owed channel mem
  rw [List.countP_cons_of_neg (by simpa [hands] using other channel mem), List.countP_cons]
  omega

/-- The pipeline refuses what has no tenant, whatever the channel. -/
theorem sink_refused (id : ObjectId) (targets : NotificationTargets) (outside : Outside)
    (channel : Channel) : sink settings id targets outside channel =
      .done (.error (.badRequest "tenantId, kind and idempotencyKey are required")) := by
  cases channel <;> rfl

theorem follows_send (kept : KeptBy settings made I) {id : ObjectId} {targets : NotificationTargets}
    {outside : Outside} {now : Int} {channel : Channel} {rest : List Channel}
    (once : channel ∉ rest) {P : List DetectionEvent → Prop} (grows : Grows P) :
    Follows settings made I i (fun own => P own ∧ Owed id (channel :: rest) own)
      (send settings id targets outside now channel)
      fun _ own => P own ∧ Owed id rest own := by
  refine Follows.bind (R := fun _ own => P own ∧ Owed id rest own) ?_ fun _ => ?_
  · refine Follows.update kept (fun own _ holds => ?_) fun e own balanced ⟨holds, owed⟩ is => ?_
    · refine ⟨fun id' channel' same => ?_, fun l => DetectionLabel.noConfusion,
        fun _ _ => DetectionLabel.noConfusion, fun _ _ _ => DetectionLabel.noConfusion⟩
      cases same
      exact holds.2 channel (List.mem_cons_self ..)
    · refine ⟨fun id' channel' => ?_, fun _ _ => ⟨grows e own holds, ?_⟩⟩
      · have before := balanced id' channel'
        by_cases same : id' = id ∧ channel' = channel
        · obtain ⟨rfl, rfl⟩ := same
          have spare := owed channel' (List.mem_cons_self ..)
          rw [List.countP_cons, List.countP_cons]
          split <;> omega
        · rw [List.countP_cons_of_neg (by
            simp only [hands, is, DetectionLabel.handOver.injEq, decide_eq_true_eq]
            exact fun both => same ⟨both.1.symm, both.2.symm⟩), List.countP_cons]
          omega
      · have later : Owed id rest own := fun c mem => owed c (List.mem_cons_of_mem _ mem)
        refine later.cons fun c mem => ?_
        rw [is]
        rintro ⟨⟩
        exact once mem
  · rw [sink_refused]
    exact Follows.pure fun _ holds => holds

theorem follows_sendAll (kept : KeptBy settings made I) {id : ObjectId}
    {targets : NotificationTargets} {outside : Channel → Outside} {now : Int}
    {P : List DetectionEvent → Prop} (grows : Grows P) {channels : List Channel}
    (nodup : channels.Nodup) (entries : List AlertNotification) :
    Follows settings made I i (fun own => P own ∧ Owed id channels own)
      (sendAll settings id targets outside now channels entries) fun _ => P := by
  induction channels generalizing entries with
  | nil => exact Follows.pure fun _ holds => holds.1
  | cons channel rest ih =>
      obtain ⟨once, nodup⟩ := List.nodup_cons.mp nodup
      exact (follows_send kept once grows).bind fun entry => ih nodup _

theorem nodup_channels (targets : NotificationTargets) : targets.channels.Nodup := by
  unfold NotificationTargets.channels
  split <;> split <;> decide

theorem follows_notifyAlert (kept : KeptBy settings made I)
    {outside : ObjectId → Channel → Outside} {id : ObjectId} {now : Int}
    {P : List DetectionEvent → Prop} (grows : Grows P) :
    Follows settings made I i P (notifyAlert settings outside id now) fun _ => P := by
  refine Follows.bind (R := fun claimed own => P own ∧ ∀ alert, claimed = some alert →
    ∀ channels, Owed alert.id channels own) ?_ fun claimed => ?_
  · refine Follows.update kept (fun own _ _ => orderly_of_plain rfl) fun e own balanced holds is => ?_
    refine ⟨balanced.cons fun _ _ => by simp [is], fun claimed same => ⟨grows e own holds, ?_⟩⟩
    rintro alert rfl channels channel -
    split at same
    · rename_i answered
      have found := Except.ok.inj same
      have ofId : alert.id = id := by
        have selects := List.find?_some found
        simp only [DetectionLabel.selects, Bool.and_eq_true, decide_eq_true_eq] at selects
        exact selects.1
      have claimed : claims alert.id e = true := by
        simp [claims, is, ofId, applied, answered, found]
      have before := balanced alert.id channel
      rw [List.countP_cons_of_neg (by simp [hands, is]), List.countP_cons_of_pos claimed]
      omega
    · exact nomatch same
  · cases claimed with
    | none => exact Follows.pure fun _ holds => holds.1
    | some alert =>
        have looks (e : DetectionEvent) (own : List DetectionEvent) (is : e.label = .look)
            (holds : P own ∧ ∀ channels, Owed alert.id channels own) :
            P (e :: own) ∧ ∀ channels, Owed alert.id channels (e :: own) :=
          ⟨grows e own holds.1, fun channels => (holds.2 channels).cons fun _ _ => by simp [is]⟩
        refine Follows.bind (R := fun _ own => P own ∧ ∀ channels, Owed alert.id channels own) ?_
          fun targets => ?_
        · refine Follows.bind ((follows_readSetting kept looks _ _).weaken fun own holds =>
            ⟨holds.1, holds.2 alert rfl⟩) fun emails => ?_
          refine Follows.bind (follows_readSetting kept looks _ _) fun webhook => ?_
          exact Follows.pure fun _ holds => holds
        · refine Follows.bind ((follows_sendAll kept grows (nodup_channels targets) []).weaken
            fun own holds => ⟨holds.1, holds.2 _⟩) fun entries => ?_
          refine Follows.bind (Follows.calm kept rfl grows) fun _ => ?_
          exact Follows.pure fun _ holds => holds

end Notify

/-! ## Raising -/

section Raise

variable {settings : DetectionSettings} {made : DetectionCall → Prop} {I : DetectionWorld → Prop}
  {i : Nat} {run : DetectionRun} {rule : Rule} {detection : Detection}
  {P : List DetectionEvent → Prop}

theorem follows_escalate (kept : KeptBy settings made I) (grows : Grows P) (before : SecurityAlert) :
    Follows settings made I i P (escalate settings run rule detection before) fun _ => P := by
  unfold escalate
  dsimp only
  split
  · refine Follows.bind (Follows.calm kept rfl grows) fun _ => ?_
    unfold notifyEscalated
    split
    · refine Follows.bind (Follows.calm kept rfl grows) fun current => ?_
      cases current with
      | none => exact Follows.pure fun _ holds => holds
      | some current => exact follows_notifyAlert kept grows
    · exact Follows.pure fun _ holds => holds
  · exact Follows.pure fun _ holds => holds

/-- What the events say of an answer of `raiseDetection`. -/
def Answered (own : List DetectionEvent) (dedupeKey : String) (result : RaiseResult) : Prop :=
  ∀ severityRank windowEnd, Accounted own
    { dedupeKey, severityRank, windowEnd, outcome := result.outcome, alert := result.alert }

theorem grows_answered (dedupeKey : String) (result : RaiseResult) :
    Grows fun own => Answered own dedupeKey result :=
  fun e own answered rank stop => grows_accounted _ e own (answered rank stop)

/-- A merge that has found no active alert, after what `P` says. -/
def Unmerged (P : List DetectionEvent → Prop) (dedupeKey : String) (own : List DetectionEvent) : Prop :=
  ∃ e earlier merge, own = e :: earlier ∧ P earlier ∧ e.label = .mergeIntoActive dedupeKey merge ∧
    selected e.label e.before = none

theorem follows_merge (kept : KeptBy settings made I) (grows : Grows P) :
    Follows settings made I i P (merge settings run rule detection) fun result own =>
      P own ∧ (result = none → Unmerged P (dedupeKeyFor settings.sha256 rule detection) own) ∧
        ∀ r, result = some r → Answered own (dedupeKeyFor settings.sha256 rule detection) r := by
  let key := dedupeKeyFor settings.sha256 rule detection
  let into (old : SecurityAlert) (own : List DetectionEvent) : Prop :=
    ∀ notified, Answered own key { outcome := .merged, alert := some old.id, notified }
  have growing (old : SecurityAlert) : Grows fun own => P own ∧ into old own :=
    grows.and fun e own is notified => grows_answered _ _ e own (is notified)
  unfold merge
  refine Follows.bind (R := fun before own => P own ∧ (before = none → Unmerged P key own) ∧
    ∀ old, before = some old → into old own) ?_ fun before => ?_
  · refine Follows.plain kept rfl fun e own holds is answered => ⟨grows e own holds, ?_, ?_⟩
    · exact fun none => ⟨e, own, _, rfl, holds, is, by rw [is]; exact none⟩
    intro old found notified rank stop
    refine .inr ⟨e, List.mem_cons_self .., detection.merge run rule, old, is, ?_, by rw [is]; exact found, rfl⟩
    simp [applied, answered]
  · cases before with
    | none => exact Follows.pure fun own holds => ⟨holds.1, fun _ => holds.2.1 rfl, fun r same => nomatch same⟩
    | some old =>
        refine Follows.bind ((follows_escalate kept (growing old) old).weaken fun own holds =>
          ⟨holds.1, holds.2.2 old rfl⟩) fun notified => ?_
        refine Follows.pure fun own holds => ⟨holds.1, fun same => (nomatch same), fun r same => ?_⟩
        cases same
        exact holds.2 notified

theorem follows_raiseNew (kept : KeptBy settings made I) (grows : Grows P) :
    Follows settings made I i P (raiseNew settings run rule detection) fun result own =>
      P own ∧ Answered own (dedupeKeyFor settings.sha256 rule detection) result := by
  let key := dedupeKeyFor settings.sha256 rule detection
  let created (alert : SecurityAlert) (own : List DetectionEvent) : Prop :=
    ∀ notified, Answered own key { outcome := .raised, alert := some alert.id, notified }
  have growing (alert : SecurityAlert) : Grows fun own => P own ∧ created alert own :=
    grows.and fun e own is notified => grows_answered _ _ e own (is notified)
  unfold raiseNew
  let active (own : List DetectionEvent) : Prop :=
    ∃ e ∈ own, (e.before.findActiveByKey key).isSome = true
  have still : Grows fun own => P own ∧ active own :=
    grows.and fun e own ⟨e', mem, is⟩ => ⟨e', List.mem_cons_of_mem _ mem, is⟩
  refine Follows.bind (R := fun result own => P own ∧ (result = none → active own) ∧
    ∀ alert, result = some alert → created alert own) ?_ fun result => ?_
  · unfold createActive
    split
    · refine Follows.plain kept rfl fun e own holds is answered => ⟨grows e own holds, ?_, ?_⟩
      · intro none
        split at none
        · rename_i taken
          exact ⟨e, List.mem_cons_self .., taken⟩
        · exact nomatch none
      intro alert same notified rank stop
      split at same
      · exact nomatch same
      · rename_i free
        cases same
        refine ⟨e, List.mem_cons_self .., _, is, ?_, Bool.not_eq_true _ ▸ free, rfl, rfl⟩
        simp [applied, answered]
    · exact Follows.throw
  · cases result with
    | none =>
        refine Follows.bind ((follows_merge kept still).weaken fun own holds =>
          ⟨holds.1, holds.2.1 rfl⟩) fun merged => ?_
        refine Follows.pure fun own holds => ⟨holds.1.1, ?_⟩
        cases merged with
        | none =>
            obtain ⟨e, earlier, merge, rfl, ⟨-, e', mem, taken⟩, is, none⟩ := holds.2.1 rfl
            exact fun rank stop => .inl ⟨e, e', merge,
              (List.singleton_sublist.mpr mem).cons_cons e, is, none, taken⟩
        | some r => exact holds.2.2 r rfl
    | some alert =>
        refine Follows.bind (R := fun _ own => P own ∧ created alert own) ?_ fun notified =>
          Follows.pure fun own holds => ⟨holds.1, holds.2 notified⟩
        unfold notifyCreated
        split
        · exact (follows_notifyAlert kept (growing alert)).weaken fun own holds =>
            ⟨holds.1, holds.2.2 alert rfl⟩
        · exact Follows.pure fun own holds => ⟨holds.1, holds.2.2 alert rfl⟩

/-- `raiseDetection` tells what it has done. -/
theorem follows_raiseDetection (kept : KeptBy settings made I) (grows : Grows P) :
    Follows settings made I i P (raiseDetection settings run rule detection) fun result own =>
      P own ∧ Answered own (dedupeKeyFor settings.sha256 rule detection) result := by
  let key := dedupeKeyFor settings.sha256 rule detection
  unfold raiseDetection
  refine Follows.bind (Follows.calm kept rfl grows) fun existing => ?_
  refine Follows.bind (R := fun merged own => P own ∧ ∀ r, merged = some r → Answered own key r) ?_
    fun merged => ?_
  · unfold mergeExisting
    split
    · exact (follows_merge kept grows).post fun _ _ holds => ⟨holds.1, holds.2.2⟩
    · exact Follows.pure fun own holds => ⟨holds, fun r same => nomatch same⟩
  · cases merged with
    | some r => exact Follows.pure fun own holds => ⟨holds.1, holds.2 r rfl⟩
    | none =>
        refine Follows.bind (R := fun found own => P own ∧ ∀ old, found = some old →
          ∀ alert notified, Answered own key { outcome := .suppressed, alert, notified }) ?_
            fun found => ?_
        · unfold dismissed
          dsimp only
          split
          · refine Follows.plain kept rfl fun e own holds _ _ => ⟨grows e own holds.1, ?_⟩
            intro old is alert notified rank stop
            exact ⟨e, List.mem_cons_self .., _, old, is⟩
          · exact Follows.pure fun own holds => ⟨holds.1, fun old same => nomatch same⟩
        · cases found with
          | some old => exact Follows.pure fun own holds => ⟨holds.1, holds.2 old rfl _ _⟩
          | none => exact (follows_raiseNew kept grows).weaken fun own holds => holds.1

theorem follows_raiseAll (kept : KeptBy settings made I) (grows : Grows P) {ds : List Detection}
    {done : List Detection} {raised : List Raised}
    (found : List.Forall₂ (Found settings rule) done raised) :
    Follows settings made I i (fun own => P own ∧ ∀ r ∈ raised, Accounted own r)
      (raiseAll settings run rule ds raised) fun result own =>
        P own ∧ List.Forall₂ (Found settings rule) (done ++ ds) result ∧
          ∀ r ∈ result, Accounted own r := by
  induction ds generalizing done raised with
  | nil => exact Follows.pure fun own holds => ⟨holds.1, by simpa using found, holds.2⟩
  | cons d rest ih =>
      have growing : Grows fun own => P own ∧ ∀ r ∈ raised, Accounted own r :=
        grows.and fun e own all r mem => grows_accounted r e own (all r mem)
      refine Follows.bind (follows_raiseDetection kept growing) fun result => ?_
      have new : Found settings rule d
          { dedupeKey := dedupeKeyFor settings.sha256 rule d
            severityRank := (severityOf rule d).rank
            windowEnd := d.lastSeenAt run
            outcome := result.outcome
            alert := result.alert } :=
        ⟨rfl, rfl, fun stop is => by simp [Detection.lastSeenAt, is]⟩
      have step := ih (List.rel_append found (.cons new .nil))
      rw [List.append_assoc] at step
      refine step.weaken fun own ⟨⟨holds, all⟩, answered⟩ => ⟨holds, fun r mem => ?_⟩
      rcases List.mem_append.mp mem with old | last
      · exact all r old
      · rw [List.mem_singleton.mp last]
        exact answered _ _

end Raise

/-! ## Runs -/

def Linked : Int → List Slice → Prop
  | _, [] => True
  | start, slice :: rest => slice.start = start ∧ Linked slice.stop rest

theorem linked_slices (run : DetectionRun) (stop : Int) (n : Nat) (start : Int) :
    Linked start (slices run stop n start) := by
  induction n generalizing start with
  | zero => trivial
  | succ n ih =>
      unfold slices
      split
      · exact ⟨rfl, ih _⟩
      · trivial

section Programs

variable {settings : DetectionSettings} {made : DetectionCall → Prop} {I : DetectionWorld → Prop}
  {i : Nat} {run : DetectionRun} {rule : Rule}

theorem follows_runSlices (kept : KeptBy settings made I) (detects : made (.detect run))
    (mem : rule ∈ run.rules) {resumed : Bool} {spans : List Slice} {start : Int}
    (linked : Linked start spans) (detections : Nat) :
    Follows settings made I i (fun own => resumed = true → Joined own rule.id start)
      (runSlices settings run rule resumed spans detections) fun _ _ => True := by
  induction spans generalizing start detections with
  | nil => exact Follows.pure fun _ _ => trivial
  | cons slice rest ih =>
      obtain ⟨rfl, linked⟩ := linked
      have growing : Grows fun own => resumed = true → Joined own rule.id slice.start :=
        fun e own joined is => grows_joined _ _ e own (joined is)
      unfold runSlices
      refine Follows.bind (R := fun found own => (resumed = true → Joined own rule.id slice.start) ∧
        rule.evaluate slice = .ok found) ?_ fun found => ?_
      · refine Follows.bind (Follows.plain (R := fun answer own =>
          (resumed = true → Joined own rule.id slice.start) ∧ rule.evaluate slice = answer) kept rfl
            fun e own joined _ _ => ⟨growing e own joined, rfl⟩) fun answer => ?_
        cases answer with
        | ok found => exact Follows.pure fun _ holds => holds
        | error message => exact Follows.throw
      · refine Follows.bind ((follows_raiseAll kept (P := fun own =>
          (resumed = true → Joined own rule.id slice.start) ∧ rule.evaluate slice = .ok found)
          (growing.and fun _ _ is => is) .nil).weaken fun own holds =>
            ⟨holds, fun r none => nomatch none⟩) fun raised => ?_
        refine Follows.bind (R := fun _ own => resumed = true → Joined own rule.id slice.stop) ?_
          fun _ => ih linked _
        refine Follows.call kept (fun _ _ => DetectionLabel.noConfusion) ?_ ?_
        · rintro own ⟨⟨joined, evaluated⟩, all, accounted⟩
          refine ⟨fun _ _ => DetectionLabel.noConfusion, fun _ => DetectionLabel.noConfusion,
            fun _ _ => DetectionLabel.noConfusion, ?_⟩
          rintro ruleId state record ⟨⟩
          exact ⟨rfl, ⟨run, rule, found, detects, mem, rfl, evaluated, all⟩, accounted, joined⟩
        · intro e own _ is answered _
          exact ⟨e, List.mem_cons_self .., .inr ⟨by simp [applied, answered], _, _, is, rfl⟩⟩

theorem follows_evaluateRule (kept : KeptBy settings made I) (detects : made (.detect run))
    (mem : rule ∈ run.rules) :
    Follows settings made I i (fun _ => True) (evaluateRule settings run rule) fun _ _ => True := by
  unfold evaluateRule
  refine Follows.bind (R := fun watermark own => ∀ start, watermark = some start →
    Joined own rule.id start) ?_ fun watermark => ?_
  · refine Follows.plain kept rfl fun e own _ _ _ start is => ?_
    exact ⟨e, List.mem_cons_self .., .inl is⟩
  · dsimp only
    split
    · exact Follows.pure fun _ _ => trivial
    · refine Follows.bind ((follows_runSlices kept detects mem (linked_slices run _ _ _) 0).weaken
        fun own joined resumed => ?_) fun detections => Follows.pure fun _ _ => trivial
      unfold Rule.start at resumed ⊢
      dsimp only at resumed ⊢
      split at resumed
      · exact nomatch resumed
      · rename_i within
        rw [if_neg within]
        obtain ⟨start, is⟩ := Option.isSome_iff_exists.mp resumed
        rw [is, Option.getD_some]
        exact joined start is

theorem follows_runRules (kept : KeptBy settings made I) (detects : made (.detect run))
    {rules : List Rule} (all : ∀ rule ∈ rules, rule ∈ run.rules)
    (results : List (String × RuleStatus)) :
    Follows settings made I i (fun _ => True) (runRules settings run rules results)
      fun _ _ => True := by
  induction rules generalizing results with
  | nil => exact Follows.pure fun _ _ => trivial
  | cons rule rest ih =>
      have ofRest : ∀ rule ∈ rest, rule ∈ run.rules := fun r mem => all r (List.mem_cons_of_mem _ mem)
      refine Follows.bind (R := fun _ _ => True) ?_ fun status => ih ofRest _
      unfold runRule
      split
      · exact Follows.pure fun _ _ => trivial
      · refine Follows.bind (Follows.attempt (follows_evaluateRule kept detects
          (all rule (List.mem_cons_self ..)))) fun result => ?_
        cases result with
        | ok status => exact Follows.pure fun _ _ => trivial
        | error message =>
            refine Follows.bind (R := fun _ _ => True) ?_ fun _ => Follows.pure fun _ _ => trivial
            refine ((Follows.calm kept rfl fun _ _ _ => trivial).attempt.weaken
              (P := fun _ => True) fun _ _ => trivial).post fun _ _ _ => trivial

theorem follows_transition (kept : KeptBy settings made I) {req : TriageRequest}
    (triages : made (.triage req)) :
    Follows settings made I i (fun _ => True) (transition req) fun _ _ => True := by
  unfold transition
  refine Follows.ite Follows.throw ?_
  refine Follows.ite Follows.throw ?_
  refine Follows.bind (Follows.calm kept rfl fun _ _ _ => trivial) fun alert => ?_
  split
  · exact Follows.throw
  · refine Follows.ite (Follows.call kept (fun _ _ => DetectionLabel.noConfusion) (fun own _ => ?_)
      fun _ _ _ _ _ => trivial) Follows.throw
    exact ⟨fun _ _ => DetectionLabel.noConfusion, fun _ => DetectionLabel.noConfusion,
      fun _ _ _ => ⟨req, triages⟩, fun _ _ _ => DetectionLabel.noConfusion⟩

/-- Whatever the orderly steps keep holds in every run. -/
theorem detectionDiscipline (kept : KeptBy settings made I) {s₀ : DetectionDb}
    (init : I { store := s₀, trace := [] }) :
    Discipline (detectionSystem settings made) I (fun _ => True) (fun _ _ _ => True) s₀ where
  init := init
  env := kept.env
  start := by
    rintro i p ⟨call, makes, rfl⟩
    refine ⟨fun w => Balanced (w.own i) ∧ True, Stable.own i fun own => Balanced own ∧ True, ?_, ?_⟩
    · intro w _ unused
      have none : w.own i = [] := List.filter_eq_nil_iff.mpr fun e mem => by simpa using unused e mem
      rw [none]
      exact ⟨fun _ _ => le_rfl, trivial⟩
    · cases call with
      | detect run =>
          exact Safe.bind (follows_runRules kept makes (fun _ mem => mem) []) fun _ =>
            Safe.done fun _ _ _ => trivial
      | triage req =>
          exact Safe.bind (follows_transition kept makes) fun _ => Safe.done fun _ _ _ => trivial

end Programs

end AnalyticsBackend.Security
