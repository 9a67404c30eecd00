import AnalyticsBackend.Reports.Steps

/-!
# A schedule fires each slot at most once

A claim moves `nextRunAt` past the slot that it takes, so the slots of a report only go up as long as
claims alone move it. The other writers store a projection from a clock that they read earlier.
-/

namespace AnalyticsBackend.Reports
open Lib Collection Mongo Analytics Usage System

-- Programs are reasoned about by the rules alone.
attribute [local irreducible] Prog.Guided Prog.Each

/-! ## What each update does to a report -/

@[simp] theorem id_set (label : ReportLabel) (r : Report) : (label.set r).id = r.id := by
  cases label <;> rfl

theorem mem_act {label : ReportLabel} {db : ReportDb} {r : Report} (mem : r ∈ (label.act db).reports) :
    r ∈ db.reports ∨ (∃ r' ∈ db.reports, label.selects r' = true ∧ r = label.set r') ∨
      ∃ report, label = .create report ∧ r = { report with id := ⟨db.nextId⟩ } := by
  cases label with
  | look | mint | consume metric l | release metric l => exact .inl mem
  | enqueue job slot =>
      refine .inl ?_
      simp only [ReportLabel.act] at mem
      split at mem <;> exact mem
  | create report =>
      rcases List.mem_append.mp mem with old | new
      · exact .inl old
      · exact .inr (.inr ⟨report, rfl, List.mem_singleton.mp new⟩)
  | _ =>
      rcases of_mem_updateFirst mem with old | updated
      · exact .inl old
      · exact .inr (.inl updated)

/-- The ids of the reports, each stored once and drawn before. -/
structure Stored (db : ReportDb) : Prop where
  ids : (db.reports.map Report.id).Nodup
  drawn : ∀ r ∈ db.reports, r.id.value < db.nextId

theorem Stored.eq_of_id {db : ReportDb} (stored : Stored db) {r r' : Report} (mem : r ∈ db.reports)
    (mem' : r' ∈ db.reports) (same : r.id = r'.id) : r = r' :=
  List.inj_on_of_nodup_map stored.ids mem mem' same

theorem Stored.usage {db : ReportDb} (stored : Stored db) (usage : UsageDb) :
    Stored { db with usage } :=
  ⟨stored.ids, stored.drawn⟩

theorem nextId_act (label : ReportLabel) (db : ReportDb) : db.nextId ≤ (label.act db).nextId := by
  cases label with
  | enqueue job slot =>
      simp only [ReportLabel.act]
      split <;> exact Nat.le_refl _
  | mint | create report => exact Nat.le_succ _
  | _ => exact Nat.le_refl _

theorem Stored.act {db : ReportDb} (stored : Stored db) (label : ReportLabel) :
    Stored (label.act db) := by
  constructor
  · cases label with
    | look | mint | consume metric l | release metric l => exact stored.ids
    | enqueue job slot =>
        simp only [ReportLabel.act]
        split <;> exact stored.ids
    | create report =>
        simp only [ReportLabel.act, List.map_append, List.map_cons, List.map_nil]
        refine List.nodup_append.mpr ⟨stored.ids, List.nodup_singleton _, ?_⟩
        intro id mem id' new same
        obtain ⟨r, old, rfl⟩ := List.mem_map.mp mem
        have drawn := stored.drawn r old
        rw [same, List.mem_singleton.mp new] at drawn
        exact absurd drawn (Nat.lt_irrefl _)
    | _ =>
        simp only [ReportLabel.act]
        rw [map_updateFirst (id_set _)]
        exact stored.ids
  · intro r mem
    have later := nextId_act label db
    rcases mem_act mem with old | ⟨r', old, -, rfl⟩ | ⟨report, rfl, rfl⟩
    · exact Nat.lt_of_lt_of_le (stored.drawn r old) later
    · rw [id_set]
      exact Nat.lt_of_lt_of_le (stored.drawn r' old) later
    · exact Nat.lt_succ_self _

/-- A step leaves the ids in order. -/
theorem Stored.does {label : ReportLabel} {db db' : ReportDb} (stored : Stored db)
    (does : label.Does db db') : Stored db' ∧ db.nextId ≤ db'.nextId := by
  rcases does.cases with ⟨usage, rfl⟩ | rfl
  · exact ⟨stored.usage usage, Nat.le_refl _⟩
  · exact ⟨stored.act label, nextId_act label db⟩

/-! ## Claims and scheduled runs -/

/-- A successful claim of a slot of a report. -/
def claims (id : ObjectId) (slot : Int) (e : ReportEvent) : Bool :=
  match e.label with
  | .claimDueSchedule claim =>
      claim.id = id && claim.expectedNextRunAt = some slot && (e.label.found e.before).isSome
  | _ => false

def enqueues (id : ObjectId) (slot : Int) (e : ReportEvent) : Bool :=
  match e.label with
  | .enqueue job (some s) => job.reportId = id && s = slot
  | _ => false

/-- Each slot is claimed at most once, and at most one scheduled run is enqueued for it. -/
def FiresOnce (trace : List ReportEvent) : Prop :=
  ∀ id slot, trace.countP (claims id slot) ≤ 1 ∧ trace.countP (enqueues id slot) ≤ 1

/-- An update of a report that gives it a next run gives it one after every slot claimed before. -/
def Advancing (earlier : List ReportEvent) (e : ReportEvent) : Prop :=
  ∀ id set next, e.label = .update id set → set.nextRunAt = some (some next) →
    (e.label.found e.before).isSome = true →
      ∀ e' ∈ earlier, ∀ slot, claims id slot e' = true → slot < next

/-- No update moves a next run back to or before a claimed slot. -/
def NeverBack (trace : List ReportEvent) : Prop :=
  ∀ later e earlier, trace = later ++ e :: earlier → Advancing earlier e

theorem NeverBack.tail {e : ReportEvent} {trace : List ReportEvent} (back : NeverBack (e :: trace)) :
    NeverBack trace :=
  fun later e' earlier split => back (e :: later) e' earlier (by rw [split, List.cons_append])

theorem NeverBack.head {e : ReportEvent} {trace : List ReportEvent} (back : NeverBack (e :: trace)) :
    Advancing trace e :=
  back [] e trace rfl

/-- What a claim of a scan is: of a slot that is due, and past the time of the scan. -/
structure ScheduleClaim.Sound (claim : ScheduleClaim) : Prop where
  due : ∃ slot, claim.expectedNextRunAt = some slot ∧ slot ≤ claim.now
  past : ∀ next, claim.nextRunAt = some next → claim.now < next

structure Scheduled (past : List ReportEvent) (e : ReportEvent) : Prop where
  does : e.label.Does e.before e.after
  claim : ∀ claim, e.label = .claimDueSchedule claim → claim.Sound
  enqueue : ∀ job slot, e.label = .enqueue job (some slot) →
    past.countP (enqueues job.reportId slot) < past.countP (claims job.reportId slot)

structure SlotInv (w : ReportWorld) : Prop where
  stored : Stored w.store
  known : ∀ e ∈ w.trace, ∀ id slot, claims id slot e = true → id.value < w.store.nextId
  ahead : NeverBack w.trace → ∀ e ∈ w.trace, ∀ id slot, claims id slot e = true →
    ∀ r ∈ w.store.reports, r.id = id → ∀ next, r.nextRunAt = some next → slot < next
  once : NeverBack w.trace → ∀ id slot, w.trace.countP (claims id slot) ≤ 1
  owed : ∀ i id slot, (w.own i).countP (enqueues id slot) ≤ (w.own i).countP (claims id slot)

theorem claims_found {id : ObjectId} {slot : Int} {e : ReportEvent} (is : claims id slot e = true) :
    ∃ claim r, e.label = .claimDueSchedule claim ∧ claim.expectedNextRunAt = some slot ∧
      e.label.found e.before = some r ∧ r ∈ e.before.reports ∧ r.id = id ∧
      r.nextRunAt = some slot := by
  unfold claims at is
  split at is
  · rename_i claim label
    simp only [Bool.and_eq_true, decide_eq_true_eq] at is
    obtain ⟨⟨ofId, expected⟩, found⟩ := is
    obtain ⟨r, found⟩ := Option.isSome_iff_exists.mp found
    have selected := List.find?_some found
    simp only [label, ReportLabel.selects, ScheduleClaim.selects, Bool.and_eq_true,
      decide_eq_true_eq] at selected
    obtain ⟨⟨⟨⟨⟨rid, -⟩, -⟩, next⟩, -⟩, -⟩ := selected
    exact ⟨claim, r, label, expected, found, List.mem_of_find?_eq_some found, rid.trans ofId,
      next.trans expected⟩
  · cases is

section Push

variable {w : ReportWorld} {e : ReportEvent}

theorem nextRunAt_set (label : ReportLabel) (r : Report) :
    (label.set r).nextRunAt = r.nextRunAt ∨
      (∃ claim, label = .claimDueSchedule claim ∧ (label.set r).nextRunAt = claim.nextRunAt) ∨
      ∃ id set next, label = .update id set ∧ set.nextRunAt = some next ∧
        (label.set r).nextRunAt = next := by
  cases label with
  | claimDueSchedule claim => exact .inr (.inl ⟨claim, rfl, rfl⟩)
  | update id set =>
      cases given : set.nextRunAt with
      | none => exact .inl (by simp [ReportLabel.set, ReportSet.apply, given])
      | some next =>
          exact .inr (.inr ⟨id, set, next, rfl, given,
            by simp [ReportLabel.set, ReportSet.apply, given]⟩)
  | _ => exact .inl rfl

theorem SlotInv.stays_ahead (inv : SlotInv w) (scheduled : Scheduled (w.own e.tid) e)
    (before : e.before = w.store) (back : NeverBack (e :: w.trace)) {e' : ReportEvent}
    (mem : e' ∈ w.trace) {id : ObjectId} {slot : Int} (taken : claims id slot e' = true) {r : Report}
    (there : r ∈ e.after.reports) (ofId : r.id = id) {next : Int} (has : r.nextRunAt = some next) :
    slot < next := by
  have ahead := inv.ahead back.tail e' mem id slot taken
  rw [← before] at ahead
  rcases scheduled.does.cases with ⟨usage, after⟩ | after
  · rw [after] at there
    exact ahead r there ofId next has
  · rw [after] at there
    rcases mem_act there with old | ⟨r', old, selected, rfl⟩ | ⟨report, -, rfl⟩
    · exact ahead r old ofId next has
    · rw [id_set] at ofId
      rcases nextRunAt_set e.label r' with same | ⟨claim, is, moved⟩ | ⟨id', set, n, is, given, moved⟩
      · exact ahead r' old ofId next (same ▸ has)
      · -- The claim itself was of a later slot, and goes past it.
        obtain ⟨⟨t, expected, due⟩, past⟩ := scheduled.claim claim is
        have later := past next (moved ▸ has)
        rw [is] at selected
        simp only [ReportLabel.selects, ScheduleClaim.selects, Bool.and_eq_true,
          decide_eq_true_eq] at selected
        obtain ⟨⟨⟨-, held⟩, -⟩, -⟩ := selected
        have earlier := ahead r' old ofId t (held.trans expected)
        omega
      · have found : (e.label.found e.before).isSome = true := List.find?_isSome.mpr ⟨r', old, selected⟩
        rw [is] at selected
        simp only [ReportLabel.selects, Bool.and_eq_true, decide_eq_true_eq] at selected
        obtain rfl : id = id' := ofId.symm.trans selected.1
        rw [moved.symm.trans has] at given
        exact back.head id set next is given found e' mem slot taken
    · have known := inv.known e' mem id slot taken
      rw [← before, ← ofId] at known
      exact absurd known (Nat.lt_irrefl _)

theorem SlotInv.moves_ahead (inv : SlotInv w) (scheduled : Scheduled (w.own e.tid) e)
    (before : e.before = w.store) {id : ObjectId} {slot : Int} (taken : claims id slot e = true)
    {r : Report} (there : r ∈ e.after.reports) (ofId : r.id = id) {next : Int}
    (has : r.nextRunAt = some next) : slot < next := by
  obtain ⟨claim, r', label, expected, found, old, rid, -⟩ := claims_found taken
  obtain ⟨⟨t, expected', due⟩, past⟩ := scheduled.claim claim label
  obtain rfl : slot = t := Option.some.inj (expected.symm.trans expected')
  have after := (inv.stored.does (before ▸ scheduled.does)).1
  have moved : e.label.set r' ∈ e.after.reports := by
    have does := scheduled.does
    rw [label] at does found ⊢
    obtain does : e.after = _ := does
    rw [does]
    exact updated_mem found
  have same : r = e.label.set r' :=
    after.eq_of_id there moved (by rw [id_set, ofId, rid])
  rw [same, label] at has
  have later := past next has
  omega

theorem SlotInv.not_again (inv : SlotInv w) (before : e.before = w.store)
    (back : NeverBack w.trace) {id : ObjectId} {slot : Int} (taken : claims id slot e = true) :
    w.trace.countP (claims id slot) = 0 := by
  obtain ⟨claim, r, -, -, -, there, ofId, has⟩ := claims_found taken
  rw [before] at there
  refine List.countP_eq_zero.mpr fun e' mem earlier => ?_
  exact absurd (inv.ahead back e' mem id slot earlier r there ofId slot has) (lt_irrefl _)

theorem SlotInv.push (inv : SlotInv w) (scheduled : Scheduled (w.own e.tid) e)
    (before : e.before = w.store) : SlotInv (w.push e) where
  stored := (inv.stored.does (before ▸ scheduled.does)).1
  known := by
    have later := (inv.stored.does (before ▸ scheduled.does)).2
    intro e' mem id slot taken
    rcases List.mem_cons.mp mem with rfl | mem
    · obtain ⟨-, r, -, -, -, there, rfl, -⟩ := claims_found taken
      rw [before] at there
      exact Nat.lt_of_lt_of_le (inv.stored.drawn r there) later
    · exact Nat.lt_of_lt_of_le (inv.known e' mem id slot taken) later
  ahead := by
    intro back e' mem id slot taken r there ofId next has
    rcases List.mem_cons.mp mem with rfl | mem
    · exact inv.moves_ahead scheduled before taken there ofId has
    · exact inv.stays_ahead scheduled before back mem taken there ofId has
  once := by
    intro back id slot
    rw [World.push_trace, List.countP_cons]
    have earlier := inv.once back.tail id slot
    split
    · rename_i taken
      rw [inv.not_again before back.tail taken]
    · exact earlier
  owed := by
    intro i id slot
    rw [World.own_push]
    have owed := inv.owed i id slot
    split
    · rename_i own
      rw [own] at scheduled
      rw [List.countP_cons, List.countP_cons]
      by_cases sends : enqueues id slot e = true
      · have strict : (w.own i).countP (enqueues id slot) < (w.own i).countP (claims id slot) := by
          unfold enqueues at sends
          split at sends
          · rename_i job slot' label
            simp only [Bool.and_eq_true, decide_eq_true_eq] at sends
            obtain ⟨rfl, rfl⟩ := sends
            exact scheduled.enqueue job slot' label
          · cases sends
        rw [if_pos sends]
        omega
      · rw [if_neg sends]
        omega
    · exact owed

end Push

/-! ## The programs -/

/-- No more runs are enqueued than slots are claimed. -/
def Settled (past : List ReportEvent) : Prop :=
  ∀ id slot, past.countP (enqueues id slot) ≤ past.countP (claims id slot)

def Owed (id : ObjectId) (slot : Int) (past : List ReportEvent) : Prop :=
  past.countP (enqueues id slot) < past.countP (claims id slot)

/-- A step that neither claims a slot nor enqueues a run for one. -/
structure Calm (label : ReportLabel) : Prop where
  claim : ∀ claim, label ≠ .claimDueSchedule claim
  enqueue : ∀ job slot, label ≠ .enqueue job (some slot)

theorem Looks.calm {label : ReportLabel} (looks : Looks label) : Calm label :=
  ⟨fun _ => looks ▸ nofun, fun _ _ => looks ▸ nofun⟩

theorem Updates.calm {id : ObjectId} {set : ReportSet} {label : ReportLabel}
    (updates : Updates id set label) : Calm label := by
  constructor <;> cases updates <;> nofun

theorem Counts.calm {label : ReportLabel} (counts : Counts label) : Calm label := by
  constructor <;> cases counts <;> nofun

theorem Completes.calm {id runId : ObjectId} {label : ReportLabel}
    (completes : Completes id runId label) : Calm label := by
  constructor <;> cases completes <;> nofun

theorem Calm.not_claims {e : ReportEvent} (calm : Calm e.label) (id : ObjectId) (slot : Int) :
    ¬ claims id slot e = true := by
  intro taken
  obtain ⟨claim, -, label, -⟩ := claims_found taken
  exact calm.claim claim label

theorem Calm.not_enqueues {e : ReportEvent} (calm : Calm e.label) (id : ObjectId) (slot : Int) :
    ¬ enqueues id slot e = true := by
  unfold enqueues
  split
  · rename_i job s label
    exact absurd label (calm.enqueue job s)
  · exact Bool.false_ne_true

theorem Calm.scheduled {past : List ReportEvent} {e : ReportEvent} (calm : Calm e.label)
    (does : e.label.Does e.before e.after) : Scheduled past e where
  does := does
  claim := fun claim is => absurd is (calm.claim claim)
  enqueue := fun job slot is => absurd is (calm.enqueue job slot)

/-- What calm steps keep. -/
def Lasting (P : List ReportEvent → Prop) : Prop :=
  ∀ past e, Calm e.label → P past → P (e :: past)

theorem lasting_settled : Lasting Settled := by
  intro past e calm settled id slot
  rw [List.countP_cons_of_neg (calm.not_enqueues id slot),
    List.countP_cons_of_neg (calm.not_claims id slot)]
  exact settled id slot

theorem lasting_owed (id : ObjectId) (slot : Int) : Lasting (Owed id slot) := by
  intro past e calm owed
  unfold Owed
  rw [List.countP_cons_of_neg (calm.not_enqueues id slot),
    List.countP_cons_of_neg (calm.not_claims id slot)]
  exact owed

theorem Lasting.and {P Q : List ReportEvent → Prop} (hP : Lasting P) (hQ : Lasting Q) :
    Lasting fun past => P past ∧ Q past :=
  fun past e calm holds => ⟨hP past e calm holds.1, hQ past e calm holds.2⟩

theorem Lasting.imp {φ : Prop} {P : List ReportEvent → Prop} (hP : Lasting P) :
    Lasting fun past => φ → P past :=
  fun past e calm holds fact => hP past e calm (holds fact)

theorem Lasting.all {X : Type} {P : X → List ReportEvent → Prop} (hP : ∀ x, Lasting (P x)) :
    Lasting fun past => ∀ x, P x past :=
  fun past e calm holds x => hP x past e calm (holds x)

section Programs

variable {i : Nat} {A B : Type} {P : List ReportEvent → Prop}

abbrev Scans (i : Nat) (P : List ReportEvent → Prop) (p : ReportM A)
    (R : A → List ReportEvent → Prop) : Prop :=
  Prog.Guides i Scheduled P p.run (either R fun _ => Settled)

theorem scans_calm {p : ReportM A} (steps : Steps Calm p) (lasting : Lasting P)
    (settled : ∀ past, P past → Settled past) : Scans i P p fun _ => P := by
  refine (steps.guides fun past e calm does holds =>
    ⟨calm.scheduled does, lasting past e calm holds⟩).post fun result past holds => ?_
  cases result with
  | ok a => exact holds
  | error e => exact settled past holds

theorem scans_call {label : ReportLabel} {report : ReportDb → A} {R : A → Prop} (calm : Calm label)
    (plain : label.onCounters = false) (lasting : Lasting P) (reports : ∀ db, R (report db)) :
    Scans i P (call label report) fun a past => R a ∧ P past := by
  refine Prog.Guides.liftE (Prog.Guides.update fun past db holds => ?_)
  exact ⟨Calm.scheduled calm (label.does_act plain db), reports db, lasting past _ calm holds⟩

theorem Scans.weaken {P' : List ReportEvent → Prop} {p : ReportM A} {R : A → List ReportEvent → Prop}
    (scans : Scans i P p R) (stronger : ∀ past, P' past → P past) : Scans i P' p R :=
  Prog.Guides.weaken scans stronger

theorem Scans.bind {p : ReportM B} {k : B → ReportM A} {Q : B → List ReportEvent → Prop}
    {R : A → List ReportEvent → Prop} (first : Scans i P p Q) (second : ∀ b, Scans i (Q b) (k b) R) :
    Scans i P (p >>= k) R :=
  Prog.Guides.bindE first second

theorem Scans.pure {a : A} {R : A → List ReportEvent → Prop} (holds : ∀ past, P past → R a past) :
    Scans i P (Pure.pure a) R :=
  Prog.Guides.pureE holds

theorem Scans.throw {e : ReportFailure} {R : A → List ReportEvent → Prop}
    (settled : ∀ past, P past → Settled past) : Scans i P (MonadExcept.throw e) R :=
  Prog.Guides.throwE settled

theorem Scans.attempt {p : ReportM A} (scans : Scans i P p fun _ => Settled) :
    Scans i P (Reports.attempt p) fun _ => Settled := by
  refine Prog.Guides.bind scans fun result => ?_
  cases result with
  | ok a => exact Prog.Guides.done fun _ holds => holds
  | error e => exact Prog.Guides.done fun _ holds => holds

theorem Scans.of_fact {φ : Prop} {p : ReportM A} {R : A → List ReportEvent → Prop}
    (scans : φ → Scans i P p R) : Scans i (fun past => φ ∧ P past) p R :=
  fun past holds => scans holds.1 past holds.2

end Programs

section Config

variable {config : ReportConfig} {i : Nat}

theorem scans_run (req : RunRequest) :
    Scans i (fun past => Settled past ∧ ∀ slot, req.slot = some slot → Owed req.reportId slot past)
      (run config req) fun _ => Settled := by
  let P : List ReportEvent → Prop := fun past =>
    Settled past ∧ ∀ slot, req.slot = some slot → Owed req.reportId slot past
  have lasting : Lasting P := lasting_settled.and (.all fun slot => (lasting_owed _ slot).imp)
  have settled : ∀ past, P past → Settled past := fun _ holds => holds.1
  have looks {A : Type} {p : ReportM A} (steps : Steps Looks p) : Scans i P p fun _ => P :=
    scans_calm (steps.mono fun _ => Looks.calm) lasting settled
  unfold run
  refine Scans.bind (looks (looks_patchedFilters config _)) fun overrides => ?_
  refine Scans.bind (looks (looks_checkedFormat _)) fun wanted => ?_
  refine Scans.bind (looks (looks_look _)) fun found => ?_
  cases found with
  | none => exact Scans.throw settled
  | some report =>
      refine Scans.bind (scans_calm (.call ⟨by rintro _ ⟨⟩, by rintro _ _ ⟨⟩⟩ rfl) lasting
        settled) fun runId => ?_
      refine Scans.bind (scans_calm (.call ⟨by rintro _ ⟨⟩, by rintro _ _ ⟨⟩⟩ rfl) lasting
        settled) fun _ => ?_
      refine Scans.bind (Q := fun _ => Settled) ?_ fun refused => ?_
      · refine Prog.Guides.liftE (Prog.Guides.update fun past db holds => ?_)
        refine ⟨⟨rfl, by rintro _ ⟨⟩, ?_⟩, ?_⟩
        · rintro job slot is
          obtain ⟨rfl, given⟩ := ReportLabel.enqueue.inj is
          exact holds.2 slot given
        · intro id slot
          rw [List.countP_cons, List.countP_cons_of_neg (by simp [claims])]
          have before := holds.1 id slot
          split
          · rename_i sends
            unfold enqueues at sends
            split at sends
            · rename_i job slot' is
              obtain ⟨rfl, given⟩ := ReportLabel.enqueue.inj is
              simp only [Bool.and_eq_true, decide_eq_true_eq] at sends
              obtain ⟨rfl, rfl⟩ := sends
              have owed := holds.2 slot' given
              unfold Owed at owed
              exact owed
            · cases sends
          · exact before
      · cases refused with
        | none => exact Scans.pure fun _ holds => holds
        | some refused =>
            refine Scans.bind (scans_calm ((looks_look _).mono fun _ => Looks.calm) lasting_settled
              fun _ holds => holds) fun now => ?_
            refine Scans.bind (Scans.attempt (scans_calm ((completes_completeRun _ _ _).mono
              fun _ => Completes.calm) lasting_settled fun _ holds => holds)) fun _ => ?_
            exact Scans.throw fun _ holds => holds

theorem safeNextRun_gt {cron : String} {start next : Int}
    (projected : safeNextRun config cron start = some next) : start < next := by
  unfold safeNextRun at projected
  cases first : nextCronDate config.zones cron start DEFAULT_TIMEZONE with
  | ok n =>
      rw [first] at projected
      exact nextCronDate_gt (first.trans (congrArg Except.ok projected))
  | error _ =>
      rw [first] at projected
      cases second : nextCronDate config.zones DEFAULT_REPORT_CRON start DEFAULT_TIMEZONE with
      | ok n =>
          rw [second] at projected
          exact nextCronDate_gt (second.trans (congrArg Except.ok projected))
      | error _ =>
          rw [second] at projected
          exact nomatch projected

theorem nextRunIn_gt {schedule : Schedule} {now next : Int} {tz : String}
    (projected : nextRunIn config schedule now tz = some next) : now < next := by
  unfold nextRunIn at projected
  cases first : nextCronDate config.zones schedule.effectiveCron now tz with
  | ok n =>
      rw [first] at projected
      exact nextCronDate_gt (first.trans (congrArg Except.ok projected))
  | error _ =>
      rw [first] at projected
      cases second : nextCronDate config.zones DEFAULT_REPORT_CRON now tz with
      | ok n =>
          rw [second] at projected
          exact nextCronDate_gt (second.trans (congrArg Except.ok projected))
      | error _ =>
          rw [second] at projected
          exact safeNextRun_gt projected

theorem scans_nextDueRun (r : Report) (now : Int) (memo : ScanMemo) :
    Scans i Settled (nextDueRun config r now memo) fun result past =>
      (∀ next, result.1 = some next → now < next) ∧ Settled past := by
  unfold nextDueRun
  cases r.schedule.ownZone with
  | some name => exact Scans.pure fun _ settled => ⟨fun _ => nextRunIn_gt, settled⟩
  | none =>
      refine Scans.bind (scans_calm ((looks_workspaceZone _ _).mono fun _ => Looks.calm)
        lasting_settled fun _ holds => holds) fun found => ?_
      exact Scans.pure fun _ settled => ⟨fun _ => nextRunIn_gt, settled⟩

theorem scans_runClaimed (r : Report) (slot : Int) (is : r.nextRunAt = some slot) (memo : ScanMemo)
    (result : ScanResult) : Scans i (fun past => Settled past ∧ Owed r.id slot past)
      (runClaimed config r memo result) fun _ => Settled := by
  let P : List ReportEvent → Prop := fun past => Settled past ∧ Owed r.id slot past
  have lasting : Lasting P := lasting_settled.and (lasting_owed r.id slot)
  have settled : ∀ past, P past → Settled past := fun _ holds => holds.1
  unfold runClaimed
  refine Scans.bind (scans_calm ((looks_isActive _ _).mono fun _ => Looks.calm) lasting settled)
    fun active => ?_
  obtain ⟨active, memo⟩ := active
  dsimp only
  split
  · exact Scans.pure fun past holds => settled past holds
  · refine Scans.bind (scans_calm ((looks_isEntitled _ _).mono fun _ => Looks.calm) lasting settled)
      fun entitled => ?_
    obtain ⟨entitled, memo⟩ := entitled
    dsimp only
    split
    · exact Scans.pure fun past holds => settled past holds
    · refine Scans.bind (Scans.attempt ((scans_run (dueRun r)).weaken fun past holds =>
        ⟨holds.1, fun slot' given => ?_⟩)) fun answer => ?_
      · obtain rfl : slot = slot' := Option.some.inj (is.symm.trans given)
        exact holds.2
      · cases answer with
        | ok _ => exact Scans.pure fun _ holds => holds
        | error _ => exact Scans.pure fun _ holds => holds

theorem scans_claim (scan : Scan) (r : Report) (next : Option Int) (slot : Int)
    (is : r.nextRunAt = some slot) (due : slot ≤ scan.now)
    (later : ∀ n, next = some n → scan.now < n) :
    Scans i Settled (call (.claimDueSchedule (scan.claim config r next)) fun db =>
        ((ReportLabel.claimDueSchedule (scan.claim config r next)).found db).isSome)
      fun won past => Settled past ∧ (won = true → Owed r.id slot past) := by
  refine Prog.Guides.liftE (Prog.Guides.update fun past db settled => ?_)
  refine ⟨⟨rfl, ?_, fun _ _ => nofun⟩, fun id s => ?_, fun won => ?_⟩
  · rintro claim ⟨⟩
    exact ⟨⟨slot, is, due⟩, later⟩
  · have before := settled id s
    rw [List.countP_cons_of_neg (by simp [enqueues]), List.countP_cons]
    omega
  · have before := settled r.id slot
    unfold Owed
    rw [List.countP_cons_of_neg (by simp [enqueues]), List.countP_cons_of_pos]
    · omega
    · simpa [claims, Scan.claim, is] using won

theorem scans_runAll (scan : Scan) (due : List Report) (memo : ScanMemo) (result : ScanResult)
    (all : ∀ r ∈ due, r.due scan.now = true) :
    Scans i Settled (runAll config scan due memo result) fun _ => Settled := by
  induction due generalizing memo result with
  | nil => exact Scans.pure fun _ holds => holds
  | cons r rest ih =>
      have rest' memo result := ih memo result fun r' mem => all r' (List.mem_cons_of_mem _ mem)
      obtain ⟨slot, is, due⟩ : ∃ slot, r.nextRunAt = some slot ∧ slot ≤ scan.now := by
        have holds := all r (List.mem_cons_self ..)
        simp only [Report.due, Bool.and_eq_true] at holds
        cases is : r.nextRunAt with
        | none => simp [is] at holds
        | some slot => exact ⟨slot, rfl, by simpa [is] using holds.1.1.2⟩
      unfold runAll
      refine Scans.bind (scans_nextDueRun r scan.now memo) fun found => Scans.of_fact fun later => ?_
      refine Scans.bind (scans_claim scan r found.1 slot is due later) fun won => ?_
      dsimp only
      split
      · rename_i yes
        refine Scans.bind ((scans_runClaimed r slot is _ _).weaken fun _ holds =>
          ⟨holds.1, holds.2 yes⟩) fun done => ?_
        refine Scans.bind (scans_calm (.call ⟨fun _ => nofun, fun _ _ => nofun⟩ rfl)
          lasting_settled fun _ holds => holds) fun _ => ?_
        exact rest' _ _
      · exact (rest' _ _).weaken fun _ holds => holds.1

theorem scans_runDue (scan : Scan) :
    Scans i Settled (runDue config scan) fun _ => Settled := by
  refine Scans.bind (scans_call (R := fun due => ∀ r ∈ due, Report.due scan.now r = true)
    ⟨fun _ => nofun, fun _ _ => nofun⟩ rfl lasting_settled fun db r mem => ?_)
    fun due => Scans.of_fact fun all => scans_runAll scan due {} _ all
  have sorted := List.mem_of_mem_take mem
  rw [List.mem_insertionSort] at sorted
  exact (List.mem_filter.mp sorted).2

theorem Creates.calm {label : ReportLabel} (creates : Creates label) : Calm label := by
  rcases creates with counts | ⟨report, rfl⟩
  · exact counts.calm
  · exact ⟨fun _ => nofun, fun _ _ => nofun⟩

theorem Patches.calm {label : ReportLabel} (patches : Patches label) : Calm label := by
  rcases patches with counts | ⟨id, set, updates⟩
  · exact counts.calm
  · exact updates.calm

theorem Removes.calm {label : ReportLabel} (removes : Removes label) : Calm label := by
  rcases removes with counts | ⟨id, version, by', now, rfl⟩
  · exact counts.calm
  · exact ⟨fun _ => nofun, fun _ _ => nofun⟩

theorem scans_program (call : ReportCall) :
    Scans i Settled (call.program config) fun _ => Settled := by
  have calm {p : ReportM Unit} (steps : Steps Calm p) : Scans i Settled p fun _ => Settled :=
    scans_calm steps lasting_settled fun _ holds => holds
  cases call with
  | create req => exact calm ((creates_create config req).mono fun _ => Creates.calm)
  | update req => exact calm ((patches_update config req).mono fun _ => Patches.calm)
  | remove tenantId id by' => exact calm ((removes_remove tenantId id by').mono fun _ => Removes.calm)
  | run req =>
      refine Scans.bind ((scans_run { req with slot := none }).weaken fun past settled =>
        ⟨settled, nofun⟩) fun _ => ?_
      exact Scans.pure fun _ holds => holds
  | processRun job => exact calm ((completes_processRun config job).mono fun _ => Completes.calm)
  | handleAnalyticsJob job =>
      exact calm ((completes_handleAnalyticsJob config job).mono fun _ => Completes.calm)
  | runDue scan =>
      exact Scans.bind (scans_runDue scan) fun _ => Scans.pure fun _ holds => holds
  | reprojectSchedules tenantId now pages =>
      exact calm ((patches_reprojectPages config _ _ _ _).mono fun _ => Patches.calm)

end Config

/-! ## Runs -/

section Runs

variable {config : ReportConfig} {made : ReportCall → Prop} {s₀ : ReportDb}
  {c : Config Nat ReportLabel ReportDb (Except ReportFailure Unit)}

theorem SlotInv.of_reach (stored : Stored s₀) (reach : (reportSystem config made).Reach s₀ c) :
    SlotInv c.world := by
  have start : ∀ i p, (reportSystem config made).start i p →
      p.Guided i Scheduled (fun _ _ => True) [] := by
    rintro i p ⟨call, -, rfl⟩
    exact (scans_program call [] fun _ _ => Nat.le_refl _).post fun _ _ _ => trivial
  refine (reach.guided start ?_ ?_ ?_).1
  · exact ⟨stored, (fun _ mem => nomatch mem), (fun _ _ mem => nomatch mem),
      fun _ _ _ => Nat.zero_le _, fun _ _ _ => Nat.le_refl _⟩
  · rintro w s' inv ⟨clock, services, rfl⟩
    exact ⟨⟨inv.stored.ids, inv.stored.drawn⟩, inv.known, inv.ahead, inv.once, inv.owed⟩
  · exact fun w e inv scheduled before _ => inv.push scheduled before

theorem SlotInv.enqueued_le {w : ReportWorld} (inv : SlotInv w) (id : ObjectId) (slot : Int) :
    w.trace.countP (enqueues id slot) ≤ w.trace.countP (claims id slot) := by
  let weigh (p : ReportEvent → Bool) (e : ReportEvent) : Int := if p e then 1 else 0
  have weighed (p : ReportEvent → Bool) (events : List ReportEvent) :
      (events.map (weigh p)).sum = events.countP p := by
    induction events with
    | nil => rfl
    | cons e rest ih =>
        rw [List.map_cons, List.sum_cons, ih, List.countP_cons]
        simp only [weigh]
        split <;> push_cast <;> omega
  let tids := (w.trace.map Event.tid).toFinset
  have covered : ∀ e ∈ w.trace, e.tid ∈ tids :=
    fun e mem => List.mem_toFinset.mpr (List.mem_map_of_mem mem)
  have total := w.sum_own (weigh (enqueues id slot)) tids covered
  have total' := w.sum_own (weigh (claims id slot)) tids covered
  simp only [weighed] at total total'
  have each : tids.sum (fun i => ((w.own i).countP (enqueues id slot) : Int)) ≤
      tids.sum fun i => ((w.own i).countP (claims id slot) : Int) :=
    Finset.sum_le_sum fun i _ => by exact_mod_cast inv.owed i id slot
  omega

/-- Where no update gives a report a next run at or before a slot of it that was claimed, each slot
is claimed at most once and at most one scheduled run is enqueued for it: in every run of any calls of
the service, any of which may stop at any step. -/
theorem schedule_fires_once (stored : Stored s₀) (reach : (reportSystem config made).Reach s₀ c)
    (back : NeverBack c.world.trace) : FiresOnce c.world.trace := by
  have inv := SlotInv.of_reach stored reach
  intro id slot
  have once := inv.once back id slot
  exact ⟨once, (inv.enqueued_le id slot).trans once⟩

end Runs

namespace DailyReport

/-- A runtime that knows no zone but UTC, and no filters or queries. -/
def config : ReportConfig where
  zones := Zones.utc
  claimLeaseMs := 300000
  maxRecipients := 50
  sanitizeReportQuery := .ok
  sanitizeReportFilters := .ok
  artifactFileName := fun name _ _ => name

/-- Services that answer every question with yes. -/
def services : Services where
  timezone := fun _ => "UTC"
  tenantActive := fun _ => true
  scheduledDelivery := fun _ => true
  activeMember := fun _ _ => true
  destinationOwned := fun _ _ => true
  metricRefs := fun _ _ => none
  entitlement := fun _ _ => { writeBlocked := false, state := "active", limit := none }
  queueRefuses := none
  resolveExecution := fun _ _ => .ok { datasetId := "d1", params := .obj [] }
  writeQueryArtifact := fun _ _ _ => .ok
    { rowCount := 1, truncated := false, rowLimit := none, contentType := "text/csv", size := 10 }

/-- Midnight of 2 January 2024. -/
def midnight : Int := 1704153600000

/-- A report that runs every midnight, next at `midnight`. -/
def report : Report where
  id := ⟨1⟩
  tenantId := "t1"
  ownerId := none
  name := "Daily"
  description := ""
  status := .active
  source := .widget
  dashboardId := some "b1"
  widgetId := some "w1"
  query := none
  format := .csv
  filters := .obj []
  schedule :=
    { enabled := true, cron := "0 0 * * *", timezone := none, recipients := [], format := .csv
      destinationIds := [] }
  nextRunAt := some midnight
  createdBy := none

def store : ReportDb where
  reports := [report]
  usage := emptyUsage
  queue := []
  nextId := 2
  clock := midnight
  services := services

/-- The calls that a schedule has to fire once under: updates leave cron, zone and enabled alone. -/
def Admitted : ReportCall → Prop
  | .runDue _ | .reprojectSchedules _ _ _ => True
  | .update req => req.patch.schedule.all fun patch =>
      patch.cron.isNone && patch.timezone.isNone && patch.enabled.isNone
  | _ => False

abbrev Run := Lib.Config Nat ReportLabel ReportDb (Except ReportFailure Unit)

abbrev Reached (c : Run) : Prop := Reach (reportSystem config Admitted) store c

/-- A call is started and takes a number of steps. -/
def call (i : Nat) (call : ReportCall) (steps : Nat) (c : Run) : Run :=
  System.begin i (call.program config).run steps c

theorem Reached.call {c : Run} (reached : Reached c) (i : Nat) (call : ReportCall)
    (admitted : Admitted call) (fresh : (c.pool i).isNone = true) (steps : Nat) :
    Reached (DailyReport.call i call steps c) :=
  Reach.begin (fun _ _ _ => trivial) reached fresh ⟨call, admitted, rfl⟩ steps

theorem uses_call {used : List Nat} {c : Run} (uses : Uses used c) (i : Nat) (call : ReportCall)
    (steps : Nat) : Uses (i :: used) (DailyReport.call i call steps c) :=
  uses.begin i _ steps

theorem stored : Stored store := ⟨by decide, by decide⟩

/-- A reprojection has read its clock a second before midnight and computed the next run. -/
def projecting : Run := call 0 (.reprojectSchedules "t1" (midnight - 1000) 1) 3 (.idle store)

/-- A scan claims the slot and enqueues its run; then the reprojection stores what it computed. -/
def restored : Run :=
  System.go 0 1 (call 1 (.runDue { now := midnight, owner := "a" }) 20 projecting)

/-- The next scan. -/
def again : Run := call 2 (.runDue { now := midnight + 60000, owner := "b" }) 20 restored

/-- Two scans find the report due before one of them claims it. -/
def raced : Run :=
  System.go 1 20 (call 2 (.runDue { now := midnight, owner := "b" }) 20
    (call 1 (.runDue { now := midnight, owner := "a" }) 1 (.idle store)))

theorem reached_projecting : Reached projecting :=
  Reached.call .init 0 (.reprojectSchedules _ _ _) trivial rfl 3

theorem uses_projecting : Uses [0] projecting := uses_call (.idle store) 0 _ 3

theorem reached_restored : Reached restored :=
  Reach.go (fun _ _ _ => trivial)
    (Reached.call reached_projecting 1 (.runDue _) trivial (uses_projecting.fresh (by decide)) 20) 0 1

theorem reached_again : Reached again :=
  Reached.call reached_restored 2 (.runDue _) trivial
    (((uses_call uses_projecting 1 _ 20).go 0 1).fresh (by decide)) 20

theorem reached_raced : Reached raced :=
  Reach.go (fun _ _ _ => trivial)
    (Reached.call (Reached.call .init 1 (.runDue _) trivial rfl 1) 2 (.runDue _) trivial
      ((uses_call (.idle store) 1 _ 1).fresh (by decide)) 20) 1 20

def isUpdate : ReportLabel → Bool
  | .update _ _ => true
  | _ => false

theorem neverBack_of_none {trace : List ReportEvent} (none : trace.all (fun e => !isUpdate e.label)) :
    NeverBack trace := by
  rintro later e earlier rfl id set next is
  have quiet := List.all_eq_true.mp none e (by simp)
  simp [is, isUpdate] at quiet

end DailyReport

open DailyReport in
/-- A reprojection that read its clock before a slot brings the slot back after it was claimed, and it
is claimed and run again. -/
theorem slot_fires_twice : Stored store ∧ Reached again ∧ ¬ FiresOnce again.world.trace := by
  refine ⟨stored, reached_again, fun once => ?_⟩
  have twice : again.world.trace.countP (enqueues ⟨1⟩ midnight) = 2 := by decide +kernel
  have is := (once ⟨1⟩ midnight).2
  rw [twice] at is
  exact absurd is (by decide)

open DailyReport in
/-- Of two scans that find a report due, one claims it. -/
theorem schedule_fires_once_raced :
    raced.world.trace.countP (claims ⟨1⟩ midnight) = 1 ∧ FiresOnce raced.world.trace :=
  ⟨by decide +kernel,
    schedule_fires_once stored reached_raced (neverBack_of_none (by decide +kernel))⟩

end AnalyticsBackend.Reports
