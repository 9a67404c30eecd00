import AnalyticsBackend.Reports.FiresOnce
import AnalyticsBackend.Usage.Gains

/-!
# Report quotas

Each call takes and gives back units for what it makes of a report, going by the row that it read
first. Where every write of a schedule and every removal finds the schedule as it was read, the
counters follow the reports.
-/

namespace AnalyticsBackend.Reports
open Lib Collection Mongo Analytics Usage System

/-! ## What a counter stands for -/

def Report.counts (tenantId : String) (m : UsageMetric) (r : Report) : Bool :=
  r.tenantId = tenantId && r.live &&
    match m with
    | .reports => true
    | .scheduledReports => r.schedule.enabled
    | _ => false

def Report.units (m : UsageMetric) (r : Report) : Int :=
  match m with
  | .reports => 1
  | .scheduledReports => if r.schedule.enabled then 1 else 0
  | _ => 0

/-- How many live reports of a workspace a metric counts. -/
def ReportDb.counted (tenantId : String) (m : UsageMetric) (db : ReportDb) : Nat :=
  db.reports.countP (Report.counts tenantId m)

/-- What a metric of a workspace has counted. -/
def ReportDb.metered (tenantId : String) (m : UsageMetric) (db : ReportDb) : Int :=
  db.usage.valueOf (currentKey tenantId m)

def firstRead (tenantId : String) (id : ObjectId) (past : List ReportEvent) : Option Report :=
  past.getLast?.bind fun e => e.before.findById tenantId id

theorem counts_eq {tenantId : String} {r : Report} (mine : r.tenantId = tenantId)
    (live : r.live = true) (m : UsageMetric) :
    (if r.counts tenantId m then 1 else 0) = r.units m := by
  unfold Report.counts Report.units
  cases m <;> simp [mine, live]

theorem counts_deleted {tenantId : String} {r : Report} (dead : r.live = false) (m : UsageMetric) :
    r.counts tenantId m = false := by
  simp [Report.counts, dead]

/-! ## The condition -/

def ReportLabel.settles : ReportLabel → Bool
  | .update _ set => set.schedule.isSome
  | .softDelete _ _ _ _ => true
  | _ => false

/-- A write of a schedule and a removal find the schedule switched as their call read it first, and a
unit that is given back is there. -/
structure Fresh (tenantId : String) (past : List ReportEvent) (e : ReportEvent) : Prop where
  current : ∀ r first, e.label.settles = true → e.label.found e.before = some r →
    firstRead tenantId r.id past = some first → first.schedule.enabled = r.schedule.enabled
  covered : ∀ m l, e.label = .release m l → 1 ≤ e.before.metered tenantId m

/-! ## What a call owes -/

/-- What a step makes its process owe the counter: a unit that it takes is owed until a report stands
for it, and one that no report stands for any more is owed until it is given back. -/
def owed (tenantId : String) (m : UsageMetric) (past : List ReportEvent) (e : ReportEvent) : Int :=
  match e.label with
  | .consume _ _ => e.after.metered tenantId m - e.before.metered tenantId m
  | .release m' _ => if m' = m then -1 else 0
  | .create r => -r.units m
  | .update id set =>
      if (e.label.found e.before).isSome then
        ((firstRead tenantId id past).map fun r => r.units m - (set.apply r).units m).getD 0
      else 0
  | .softDelete id _ _ _ =>
      if (e.label.found e.before).isSome then
        ((firstRead tenantId id past).map (Report.units m)).getD 0
      else 0
  | _ => 0

structure Metered (tenantId : String) (past : List ReportEvent) (e : ReportEvent) : Prop where
  does : e.label.Does e.before e.after
  create : ∀ r, e.label = .create r → r.tenantId = tenantId ∧ r.live = true
  update : ∀ id set, e.label = .update id set → ∃ first, firstRead tenantId id past = some first
  remove : ∀ id version by' now, e.label = .softDelete id version by' now →
    (∃ first, firstRead tenantId id past = some first) ∧
      ∃ d ∈ past, ∃ doc, d.before.findLive id = some doc ∧ doc.version = version
  release : ∀ m l, e.label = .release m l →
    Touches (currentKey tenantId m) e.before.usage e.after.usage ∧
      (1 ≤ e.before.metered tenantId m →
        e.after.metered tenantId m = e.before.metered tenantId m - 1)

/-! ## How the rows go on -/

/-- Each report is still there, in its workspace, and was not removed unless its version moved. -/
def Later (db db' : ReportDb) : Prop :=
  ∀ r ∈ db.reports, ∃ r' ∈ db'.reports, r'.id = r.id ∧ r'.tenantId = r.tenantId ∧
    r.version ≤ r'.version ∧ (r'.version = r.version → r'.deletedAt = r.deletedAt)

theorem Later.refl (db : ReportDb) : Later db db :=
  fun r mem => ⟨r, mem, rfl, rfl, Nat.le_refl _, fun _ => rfl⟩

theorem Later.trans {db db' db'' : ReportDb} (first : Later db db') (second : Later db' db'') :
    Later db db'' := by
  intro r mem
  obtain ⟨r', mem', id', tenant', version', same'⟩ := first r mem
  obtain ⟨r'', mem'', id'', tenant'', version'', same''⟩ := second r' mem'
  refine ⟨r'', mem'', id''.trans id', tenant''.trans tenant', Nat.le_trans version' version'', ?_⟩
  intro same
  have between : r'.version = r.version := Nat.le_antisymm (same ▸ version'') version'
  exact (same'' (same.trans between.symm)).trans (same' between)

@[simp] theorem tenantId_set (label : ReportLabel) (r : Report) :
    (label.set r).tenantId = r.tenantId := by
  cases label <;> rfl

theorem version_set (label : ReportLabel) (r : Report) :
    r.version ≤ (label.set r).version ∧
      ((label.set r).version = r.version → (label.set r).deletedAt = r.deletedAt) := by
  cases label with
  | softDelete id version by' now => exact ⟨Nat.le_succ _, fun same => absurd same (Nat.succ_ne_self _)⟩
  | _ => exact ⟨Nat.le_refl _, fun _ => rfl⟩

/-- The report that a step inserts. -/
def ReportLabel.inserted (label : ReportLabel) (db : ReportDb) : List Report :=
  match label with
  | .create report => [{ report with id := ⟨db.nextId⟩ }]
  | _ => []

theorem reports_act (label : ReportLabel) (db : ReportDb) :
    (label.act db).reports = updateFirst label.selects label.set db.reports ++ label.inserted db := by
  have none (selects : label.selects = fun _ => false) :
      updateFirst label.selects label.set db.reports = db.reports :=
    updateFirst_of_none (List.find?_eq_none.mpr fun r _ => by simp [selects])
  cases label with
  | look | mint | consume metric l | release metric l =>
      rw [none rfl]
      exact (List.append_nil _).symm
  | enqueue job slot =>
      rw [none rfl]
      simp only [ReportLabel.act, ReportLabel.inserted, List.append_nil]
      split <;> rfl
  | create report =>
      rw [none rfl]
      rfl
  | _ => exact (List.append_nil _).symm

theorem usage_act (label : ReportLabel) (db : ReportDb) : (label.act db).usage = db.usage := by
  cases label with
  | enqueue job slot =>
      simp only [ReportLabel.act]
      split <;> rfl
  | _ => rfl

theorem Later.act (label : ReportLabel) (db : ReportDb) : Later db (label.act db) := by
  intro r mem
  rw [reports_act]
  rcases mem_updateFirst (p := label.selects) (f := label.set) mem with same | ⟨-, updated⟩
  · exact ⟨r, List.mem_append_left _ same, rfl, rfl, Nat.le_refl _, fun _ => rfl⟩
  · refine ⟨label.set r, List.mem_append_left _ updated, id_set label r, tenantId_set label r, ?_⟩
    exact version_set label r

theorem Later.does {label : ReportLabel} {db db' : ReportDb} (does : label.Does db db') :
    Later db db' := by
  rcases does.cases with ⟨usage, rfl⟩ | rfl
  · exact .refl db
  · exact .act label db

/-! ## What a step does to a counter and to the reports it counts -/

section Step

variable {tenantId : String} {m : UsageMetric}

theorem counted_usage (usage : UsageDb) (db : ReportDb) :
    ({ db with usage } : ReportDb).counted tenantId m = db.counted tenantId m := rfl

theorem metered_act (label : ReportLabel) (db : ReportDb) :
    (label.act db).metered tenantId m = db.metered tenantId m := by
  unfold ReportDb.metered
  rw [usage_act]

theorem counted_act (label : ReportLabel) (db : ReportDb) :
    ((label.act db).counted tenantId m : Int) = db.counted tenantId m +
      ((label.found db).map fun r =>
        (if (label.set r).counts tenantId m then (1 : Int) else 0) -
          if r.counts tenantId m then 1 else 0).getD 0 +
      (label.inserted db).countP (Report.counts tenantId m) := by
  unfold ReportDb.counted
  rw [reports_act, List.countP_append]
  push_cast
  congr 1
  cases found : label.found db with
  | none => simp [updateFirst_of_none found]
  | some r => exact countP_updateFirst (Report.counts tenantId m) found

theorem counts_set {label : ReportLabel} (r : Report) (updates : ∀ id set, label ≠ .update id set)
    (removes : ∀ id version by' now, label ≠ .softDelete id version by' now) :
    (label.set r).counts tenantId m = r.counts tenantId m := by
  cases label with
  | update id set => exact absurd rfl (updates id set)
  | softDelete id version by' now => exact absurd rfl (removes id version by' now)
  | _ => rfl

theorem firstRead_mem {id : ObjectId} {past : List ReportEvent} {r : Report}
    (first : firstRead tenantId id past = some r) :
    ∃ d ∈ past, d.before.findById tenantId id = some r := by
  obtain ⟨d, last, found⟩ := Option.bind_eq_some_iff.mp first
  exact ⟨d, List.mem_of_getLast? last, found⟩

theorem findById_some {db : ReportDb} {id : ObjectId} {r : Report}
    (found : db.findById tenantId id = some r) :
    r ∈ db.reports ∧ r.id = id ∧ r.tenantId = tenantId ∧ r.live = true := by
  have selected := List.find?_some found
  simp only [Bool.and_eq_true, decide_eq_true_eq] at selected
  exact ⟨List.mem_of_find?_eq_some found, selected.1.1, selected.1.2, selected.2⟩

theorem findLive_some {db : ReportDb} {id : ObjectId} {r : Report}
    (found : db.findLive id = some r) : r ∈ db.reports ∧ r.id = id ∧ r.live = true := by
  have selected := List.find?_some found
  simp only [Bool.and_eq_true, decide_eq_true_eq] at selected
  exact ⟨List.mem_of_find?_eq_some found, selected.1, selected.2⟩

theorem Later.row {db db' : ReportDb} (later : Later db db') (stored : Stored db') {r r' : Report}
    (mem : r ∈ db.reports) (mem' : r' ∈ db'.reports) (same : r'.id = r.id) :
    r'.tenantId = r.tenantId ∧ r.version ≤ r'.version ∧
      (r'.version = r.version → r'.deletedAt = r.deletedAt) := by
  obtain ⟨kept, there, id, rest⟩ := later r mem
  obtain rfl := stored.eq_of_id there mem' (id.trans same.symm)
  exact rest

/-- A write that finds the schedule as it was read moves the units as the reader thinks. -/
theorem units_apply {set : ReportSet} {r first : Report}
    (same : set.schedule.isSome = true → first.schedule.enabled = r.schedule.enabled) :
    first.units m - (set.apply first).units m = r.units m - (set.apply r).units m := by
  cases given : set.schedule with
  | none => simp [Report.units, ReportSet.apply, given]
  | some schedule => simp [Report.units, ReportSet.apply, given, same (by simp [given])]

variable {past : List ReportEvent} {e : ReportEvent}

theorem Metered.of_update (metered : Metered tenantId past e) (fresh : Fresh tenantId past e)
    (stored : Stored e.before) (later : ∀ d ∈ past, Later d.before e.before) {id : ObjectId}
    {set : ReportSet} (label : e.label = .update id set) {r : Report}
    (found : e.label.found e.before = some r) :
    r.tenantId = tenantId ∧ r.live = true ∧
      ∃ first, firstRead tenantId id past = some first ∧
        first.units m - (set.apply first).units m = r.units m - (set.apply r).units m := by
  obtain ⟨first, read⟩ := metered.update id set label
  obtain ⟨d, mem, atRead⟩ := firstRead_mem read
  obtain ⟨there, ofId, mine, -⟩ := findById_some atRead
  have selected := List.find?_some found
  simp only [label, ReportLabel.selects, Bool.and_eq_true, decide_eq_true_eq] at selected
  obtain ⟨rid, live⟩ := selected
  have row := (later d mem).row stored there (List.mem_of_find?_eq_some found) (rid.trans ofId.symm)
  refine ⟨row.1.trans mine, live, first, read, units_apply fun scheduled => ?_⟩
  exact fresh.current r first (by simp [label, ReportLabel.settles, scheduled]) found (rid ▸ read)

theorem Metered.of_remove (metered : Metered tenantId past e) (fresh : Fresh tenantId past e)
    (stored : Stored e.before) (later : ∀ d ∈ past, Later d.before e.before) {id : ObjectId}
    {version : Nat} {by' : Option String} {now : Int}
    (label : e.label = .softDelete id version by' now) {r : Report}
    (found : e.label.found e.before = some r) :
    r.tenantId = tenantId ∧ r.live = true ∧
      ∃ first, firstRead tenantId id past = some first ∧ first.units m = r.units m := by
  obtain ⟨⟨first, read⟩, d', mem', doc, atLook, docVersion⟩ := metered.remove id version by' now label
  obtain ⟨d, mem, atRead⟩ := firstRead_mem read
  obtain ⟨there, ofId, mine, -⟩ := findById_some atRead
  obtain ⟨there', ofId', live⟩ := findLive_some atLook
  have selected := List.find?_some found
  simp only [label, ReportLabel.selects, Bool.and_eq_true, decide_eq_true_eq] at selected
  obtain ⟨rid, rversion⟩ := selected
  have stored' := List.mem_of_find?_eq_some found
  have row := (later d mem).row stored there stored' (rid.trans ofId.symm)
  have row' := (later d' mem').row stored there' stored' (rid.trans ofId'.symm)
  refine ⟨row.1.trans mine, ?_, first, read, ?_⟩
  · have same := row'.2.2 (rversion.trans docVersion.symm)
    simpa [Report.live, same] using live
  · have same := fresh.current r first (by simp [label, ReportLabel.settles]) found (rid ▸ read)
    simp [Report.units, same]

/-- What a step takes from the counter or adds to it, over what it does to the reports that the
counter stands for, is what its process owes for it. -/
theorem Metered.balance (metered : Metered tenantId past e) (fresh : Fresh tenantId past e)
    (stored : Stored e.before) (later : ∀ d ∈ past, Later d.before e.before) (m : UsageMetric) :
    e.after.metered tenantId m - e.after.counted tenantId m =
      e.before.metered tenantId m - e.before.counted tenantId m + owed tenantId m past e := by
  obtain ⟨i, label, before, after⟩ := e
  have does : label.Does before after := metered.does
  unfold ReportLabel.Does at does
  dsimp only at stored later ⊢
  cases label with
  | consume m' l =>
      obtain ⟨usage, rfl⟩ : ∃ usage, after = { before with usage } := does
      simp only [owed, counted_usage]
      omega
  | release m' l =>
      obtain ⟨usage, rfl⟩ : ∃ usage, after = { before with usage } := does
      obtain ⟨touches, back⟩ := metered.release m' l rfl
      simp only [owed, counted_usage]
      by_cases this : m' = m
      · subst this
        have moved := back (fresh.covered m' l rfl)
        dsimp only at moved
        rw [if_pos rfl, moved]
        omega
      · have other : currentKey tenantId m ≠ currentKey tenantId m' :=
          fun same => this (currentKey_injective same).symm
        have untouched : ({ before with usage } : ReportDb).metered tenantId m =
            before.metered tenantId m := touches.valueOf other
        rw [if_neg this, untouched]
        omega
  | create r =>
      obtain rfl : after = (ReportLabel.create r).act before := does
      obtain ⟨mine, live⟩ := metered.create r rfl
      have none : (ReportLabel.create r).found before = none :=
        List.find?_eq_none.mpr fun r _ => by simp [ReportLabel.selects]
      have one : (([{ r with id := ⟨before.nextId⟩ }] : List Report).countP
          (Report.counts tenantId m) : Int) = r.units m := by
        rw [countP_eq_sum]
        refine (Int.add_zero _).trans ?_
        exact counts_eq (r := { r with id := ⟨before.nextId⟩ }) mine live m
      rw [metered_act, counted_act, none]
      simp only [owed, ReportLabel.inserted, Option.map_none, Option.getD_none]
      omega
  | update id set =>
      obtain rfl : after = (ReportLabel.update id set).act before := does
      rw [metered_act, counted_act]
      cases found : (ReportLabel.update id set).found before with
      | none => simp [owed, ReportLabel.inserted, found]
      | some r =>
          obtain ⟨mine, live, first, read, same⟩ :=
            metered.of_update (m := m) fresh stored later rfl found
          have updated : (if ((ReportLabel.update id set).set r).counts tenantId m then (1 : Int)
              else 0) = (set.apply r).units m := counts_eq (r := set.apply r) mine live m
          have was := counts_eq (r := r) mine live m
          simp only [owed, ReportLabel.inserted, Option.map_some, Option.getD_some, found,
            Option.isSome_some, if_true, read, updated, was, List.countP_nil]
          omega
  | softDelete id version by' now =>
      obtain rfl : after = (ReportLabel.softDelete id version by' now).act before := does
      rw [metered_act, counted_act]
      cases found : (ReportLabel.softDelete id version by' now).found before with
      | none => simp [owed, ReportLabel.inserted, found]
      | some r =>
          obtain ⟨mine, live, first, read, same⟩ :=
            metered.of_remove (m := m) fresh stored later rfl found
          have was := counts_eq (r := r) mine live m
          have dead : ((ReportLabel.softDelete id version by' now).set r).counts tenantId m = false :=
            counts_deleted rfl m
          simp only [owed, ReportLabel.inserted, Option.map_some, Option.getD_some, found,
            Option.isSome_some, if_true, read, dead, was, List.countP_nil, Bool.false_eq_true,
            if_false]
          omega
  | _ =>
      have acted : after = ReportLabel.act _ before := does
      rw [acted, metered_act, counted_act]
      cases ReportLabel.found _ before with
      | none => simp [owed, ReportLabel.inserted]
      | some r => simp [owed, ReportLabel.inserted, counts_set]

end Step

/-- What holds in every run: the counters are ahead of the reports by what the calls owe. -/
structure QuotaInv (tenantId : String) (s₀ : ReportDb) (w : ReportWorld) : Prop where
  stored : Stored w.store
  later : ∀ e ∈ w.trace, Later e.before w.store
  balance : Throughout (Fresh tenantId) w.trace → ∀ m,
    w.store.metered tenantId m - w.store.counted tenantId m =
      s₀.metered tenantId m - s₀.counted tenantId m +
        tally (fun past e => owed tenantId m (ownIn past e.tid) e) w.trace

theorem QuotaInv.push {tenantId : String} {s₀ : ReportDb} {w : ReportWorld} {e : ReportEvent}
    (inv : QuotaInv tenantId s₀ w) (metered : Metered tenantId (w.own e.tid) e)
    (before : e.before = w.store) : QuotaInv tenantId s₀ (w.push e) := by
  have stored : Stored e.before := before ▸ inv.stored
  constructor
  · exact (stored.does metered.does).1
  · intro d mem
    rcases List.mem_cons.mp mem with rfl | earlier
    · exact .does metered.does
    · exact (before ▸ inv.later d earlier).trans (.does metered.does)
  · intro fresh m
    have own : ∀ d ∈ w.own e.tid, Later d.before e.before :=
      fun d mem => before ▸ inv.later d (List.mem_of_mem_filter mem)
    have step := metered.balance fresh.head stored own m
    have earlier := inv.balance fresh.tail m
    rw [World.push_trace, World.push_store, tally_cons, step, before, earlier, World.own_eq]
    omega

/-! ## The calls -/

/-- What a process owes each metric, and the rows that it is known to have read first. -/
structure Standing (tenantId : String) (v : UsageMetric → Int) (known : ObjectId → Report → Prop)
    (past : List ReportEvent) : Prop where
  owes : ∀ m, tally (owed tenantId m) past = v m
  reads : ∀ id r, known id r → firstRead tenantId id past = some r

/-- Nothing is known of what was read. -/
def unread : ObjectId → Report → Prop := fun _ _ => False

section Programs

variable {i : Nat} {tenantId : String} {v : UsageMetric → Int} {known : ObjectId → Report → Prop}
  {A B : Type}

theorem firstRead_cons {id : ObjectId} {past : List ReportEvent} {r : Report}
    (first : firstRead tenantId id past = some r) (e : ReportEvent) :
    firstRead tenantId id (e :: past) = some r := by
  cases past with
  | nil => exact nomatch first
  | cons d rest => exact first

theorem Standing.cons {past : List ReportEvent} (standing : Standing tenantId v known past)
    {e : ReportEvent} {v' : UsageMetric → Int} (owes : ∀ m, owed tenantId m past e + v m = v' m) :
    Standing tenantId v' known (e :: past) :=
  ⟨fun m => by rw [tally_cons, standing.owes m, owes m],
    fun id r is => firstRead_cons (standing.reads id r is) e⟩

/-- A step that is not one of those the counters go by. -/
theorem Metered.of_plain {past : List ReportEvent} {label : ReportLabel} {db db' : ReportDb}
    (does : label.Does db db') (plain : label = .look ∨ ∃ id, label = .clearBroken id) :
    Metered tenantId past ⟨i, label, db, db'⟩ ∧
      ∀ m, owed tenantId m past ⟨i, label, db, db'⟩ = 0 := by
  rcases plain with rfl | ⟨id, rfl⟩ <;>
    exact ⟨⟨does, by simp, by simp, by simp, by simp⟩, by simp [owed]⟩

theorem does_usage {label : ReportLabel} (counters : label.onCounters = true) (usage : UsageDb)
    (db : ReportDb) : label.Does db { db with usage } := by
  rw [ReportLabel.Does, if_pos counters]
  exact ⟨usage, rfl⟩

theorem Metered.of_counts {past : List ReportEvent} {label : ReportLabel} {db : ReportDb}
    {usage : UsageDb} (counters : label.onCounters = true)
    (release : ∀ m l, label = .release m l → Touches (currentKey tenantId m) db.usage usage ∧
      (1 ≤ db.metered tenantId m →
        usage.valueOf (currentKey tenantId m) = db.metered tenantId m - 1)) :
    Metered tenantId past ⟨i, label, db, { db with usage }⟩ := by
  refine ⟨does_usage counters usage db, ?_, ?_, ?_, release⟩
  · rintro r rfl
    exact nomatch counters
  · rintro id set rfl
    exact nomatch counters
  · rintro id version by' now rfl
    exact nomatch counters

theorem Metered.of_act {past : List ReportEvent} {label : ReportLabel} {db : ReportDb}
    (plain : label.onCounters = false)
    (create : ∀ r, label = .create r → r.tenantId = tenantId ∧ r.live = true)
    (update : ∀ id set, label = .update id set → ∃ first, firstRead tenantId id past = some first)
    (remove : ∀ id version by' now, label = .softDelete id version by' now →
      (∃ first, firstRead tenantId id past = some first) ∧
        ∃ d ∈ past, ∃ doc, d.before.findLive id = some doc ∧ doc.version = version) :
    Metered tenantId past ⟨i, label, db, label.act db⟩ := by
  refine ⟨label.does_act plain db, create, update, remove, ?_⟩
  rintro m l rfl
  exact nomatch plain

/-- A program of which a failure leaves the same behind as a return. -/
abbrev Meters (i : Nat) (tenantId : String) (P : List ReportEvent → Prop) (p : ReportM A)
    (Q : A → List ReportEvent → Prop) (F : List ReportEvent → Prop) : Prop :=
  Prog.Guides i (Metered tenantId) P p.run (either Q fun _ => F)

theorem meters_looks {p : ReportM A} (steps : Steps Looks p) :
    Meters i tenantId (Standing tenantId v known) p (fun _ => Standing tenantId v known)
      (Standing tenantId v known) := by
  have keeps : ∀ past e, Looks e.label → e.label.Does e.before e.after →
      Standing tenantId v known past →
        Metered tenantId past e ∧ Standing tenantId v known (e :: past) := by
    rintro past ⟨j, label, db, db'⟩ looks does standing
    obtain ⟨metered, nothing⟩ := Metered.of_plain does (.inl looks)
    exact ⟨metered, standing.cons fun m => by rw [nothing m, zero_add]⟩
  refine (steps.guides keeps).post fun result past standing => ?_
  cases result <;> exact standing

theorem meters_look (f : ReportDb → A) :
    Meters i tenantId (Standing tenantId v known) (look f) (fun _ => Standing tenantId v known)
      fun _ => False := by
  refine Prog.Guides.liftE (Prog.Guides.read fun past db standing => ?_)
  have does : ReportLabel.look.Does db db := rfl
  obtain ⟨metered, nothing⟩ := Metered.of_plain does (.inl rfl)
  exact ⟨metered, standing.cons fun m => by rw [nothing m, zero_add]⟩

theorem meters_consume {m : UsageMetric} {p : UsageProg A} {g : Int} {Q : A → Int → Prop}
    (gains : Gains (currentKey tenantId m) p g Q) :
    Meters i tenantId (Standing tenantId (bump m g v) known) (onUsage (.consume m) p)
      (fun a past => ∃ g', Q a g' ∧ Standing tenantId (bump m g' v) known past)
      fun _ => False := by
  refine Prog.Guides.liftE ?_
  induction p generalizing g with
  | done a => exact fun past standing => ⟨g, gains, standing⟩
  | step label act next ih =>
      intro past standing db
      obtain ⟨touches, rest⟩ := gains db.usage
      have metered : Metered tenantId past
          ⟨i, .consume m label, db, { db with usage := act db.usage }⟩ :=
        .of_counts rfl fun _ _ other => by cases other
      refine ⟨metered, ih db.usage rest _ (standing.cons fun m' => ?_)⟩
      simp only [owed, ReportDb.metered, bump]
      by_cases this : m' = m
      · subst this
        rw [Function.update_self, Function.update_self]
        omega
      · have other : currentKey tenantId m' ≠ currentKey tenantId m :=
          fun same => this (currentKey_injective same)
        rw [Function.update_of_ne this, Function.update_of_ne this, touches.valueOf other]
        omega

theorem release_eq (named : tenantId ≠ "") {m : UsageMetric} (plain : m.metered = false)
    (by' : Option String) (now : Int) :
    ∃ (change : CounterChange) (next : UsageDb → UsageProg Int),
      Usage.release tenantId m 1 by' now =
        .step (.writeCounter (currentKey tenantId m)) change.decrement next ∧
      change.key = currentKey tenantId m ∧ change.delta = 1 ∧
      ∀ usage, ∃ value, next usage = .done value := by
  refine ⟨{ key := currentKey tenantId m, delta := 1, actor := by', kind := .current,
            expiresAt := none, silent := false, now }, ?_, ?_, rfl, rfl, ?_⟩
  · exact fun usage => .done (((usage.counters (currentKey tenantId m)).map
      fun row => max 0 (row.value - 1)).getD 0)
  · have given : ¬ (tenantId = "" ∨ m.metered = true ∨ (1 : Int) ≤ 0) := by simp [named, plain]
    unfold Usage.release
    rw [if_neg given]
    unfold decrementClamped
    simp only [named, if_false]
    rfl
  · exact fun usage => ⟨_, rfl⟩

theorem meters_releaseQuota (named : tenantId ≠ "") {m : UsageMetric} (plain : m.metered = false)
    (by' : Option String) :
    Meters i tenantId (Standing tenantId v known) (releaseQuota tenantId m by')
      (fun _ => Standing tenantId (bump m (-1) v) known) fun _ => False := by
  refine Prog.Guides.bindE (meters_look _) fun now => ?_
  refine Prog.Guides.bindE (Q := fun _ => Standing tenantId (bump m (-1) v) known) ?_
    fun _ => Prog.Guides.pureE fun _ standing => standing
  refine Prog.Guides.liftE fun past standing => ?_
  obtain ⟨change, next, eq, key, delta, returns⟩ := release_eq named plain by' now
  rw [eq]
  intro db
  obtain ⟨value, returned⟩ := returns db.usage
  dsimp only
  rw [returned]
  refine ⟨.of_counts rfl fun m' l label => ?_, standing.cons fun m' => ?_⟩
  · injection label with same
    subst same
    refine ⟨key ▸ touches_decrement change db.usage, fun there => ?_⟩
    have covered : change.delta ≤ db.usage.valueOf change.key := by
      rw [delta, key]
      exact there
    have moved := decrement_covered (by omega) covered
    rw [key, delta] at moved
    exact moved
  · simp only [owed, bump]
    by_cases this : m = m'
    · subst this
      rw [if_pos rfl, Function.update_self]
      omega
    · rw [if_neg this, Function.update_of_ne (Ne.symm this)]
      omega

-- From here on programs are reasoned about by the rules alone.
attribute [local irreducible] Prog.Guided Prog.Each

def oneOf (metrics : List UsageMetric) (m : UsageMetric) : Int := metrics.count m

theorem bump_oneOf (metric : UsageMetric) (metrics : List UsageMetric) :
    bump metric 1 (oneOf metrics) = oneOf (metrics ++ [metric]) := by
  funext m
  unfold bump oneOf
  rw [List.count_append, List.count_singleton]
  by_cases this : m = metric
  · subst this
    simp
  · rw [Function.update_of_ne this]
    simp [Ne.symm this]

theorem bump_oneOf_cons (metric : UsageMetric) (metrics : List UsageMetric) :
    bump metric (-1) (oneOf (metric :: metrics)) = oneOf metrics := by
  funext m
  unfold bump oneOf
  rw [List.count_cons]
  by_cases this : m = metric
  · subst this
    simp
  · rw [Function.update_of_ne this]
    simp [Ne.symm this]

/-- What was consumed, and all that was asked for unless the rest was refused. -/
structure Taken (metrics consumed : List UsageMetric)
    (result : List UsageMetric × Option ApiError) : Prop where
  all : result.2 = none → result.1 = consumed ++ metrics
  among : ∀ m ∈ result.1, m ∈ consumed ++ metrics

theorem meters_consumeQuota (by' : Option String) (metrics consumed : List UsageMetric) :
    Meters i tenantId (Standing tenantId (oneOf consumed) known)
      (consumeQuota tenantId by' metrics consumed)
      (fun result past => Taken metrics consumed result ∧
        Standing tenantId (oneOf result.1) known past)
      fun _ => False := by
  induction metrics generalizing consumed with
  | nil =>
      exact Prog.Guides.pureE fun past standing =>
        ⟨⟨fun _ => (List.append_nil _).symm, fun m mem => List.mem_append_left _ mem⟩, standing⟩
  | cons metric rest ih =>
      refine Prog.Guides.bindE (meters_look _) fun ent => ?_
      refine Prog.Guides.bindE (meters_look _) fun now => ?_
      have keyed : (quotaRequest tenantId metric 1 by' now).key = currentKey tenantId metric := rfl
      refine Prog.Guides.bindE ((meters_consume (gains_checkAndConsume keyed 0)).weaken
        fun past standing => by rwa [bump_zero]) fun result => ?_
      cases result with
      | ok value =>
          refine ((ih (consumed ++ [metric])).weaken ?_).post ?_
          · rintro past ⟨g, gained, standing⟩
            have one : g = 1 := by simpa [Except.isOk, Except.toBool, quotaRequest] using gained
            rw [one, bump_oneOf] at standing
            exact standing
          · intro outcome past holds
            cases outcome with
            | error e => exact holds
            | ok result =>
                obtain ⟨taken, standing⟩ := holds
                have joined : consumed ++ [metric] ++ rest = consumed ++ metric :: rest := by simp
                exact ⟨⟨fun none => (taken.all none).trans joined,
                  fun m mem => joined ▸ taken.among m mem⟩, standing⟩
      | error e =>
          refine Prog.Guides.pureE ?_
          rintro past ⟨g, gained, standing⟩
          have nothing : g = 0 := by simpa [Except.isOk, Except.toBool] using gained
          rw [nothing, bump_zero] at standing
          exact ⟨⟨by rintro ⟨⟩, fun m mem => List.mem_append_left _ mem⟩, standing⟩

theorem meters_releaseConsumed (named : tenantId ≠ "") (by' : Option String)
    {metrics : List UsageMetric} (plain : ∀ m ∈ metrics, m.metered = false) :
    Meters i tenantId (Standing tenantId (oneOf metrics) known)
      (releaseConsumed tenantId by' metrics) (fun _ => Standing tenantId (oneOf []) known)
      fun _ => False := by
  induction metrics with
  | nil => exact Prog.Guides.pureE fun _ standing => standing
  | cons metric rest ih =>
      refine Prog.Guides.bindE (meters_releaseQuota named (plain _ (List.mem_cons_self ..)) by')
        fun _ => ?_
      refine (ih fun m mem => plain m (List.mem_cons_of_mem _ mem)).weaken fun past standing => ?_
      rwa [bump_oneOf_cons] at standing

theorem Meters.never {P : List ReportEvent → Prop} {p : ReportM A} {Q : A → List ReportEvent → Prop}
    {F : List ReportEvent → Prop} (meters : Meters i tenantId P p Q fun _ => False) :
    Meters i tenantId P p Q F :=
  meters.post fun outcome past holds => by
    cases outcome with
    | ok a => exact holds
    | error e => exact holds.elim

/-- What `withQuota` takes for a call it gives back unless the call makes use of it. -/
theorem meters_withQuota (named : tenantId ≠ "") (by' : Option String) {metrics : List UsageMetric}
    (plain : ∀ m ∈ metrics, m.metered = false) {fn : ReportM A}
    (uses : Meters i tenantId (Standing tenantId (oneOf metrics) known) fn
      (fun _ => Standing tenantId (oneOf []) known) (Standing tenantId (oneOf metrics) known)) :
    Meters i tenantId (Standing tenantId (oneOf []) known) (withQuota tenantId metrics by' fn)
      (fun _ => Standing tenantId (oneOf []) known) (Standing tenantId (oneOf []) known) := by
  refine Prog.Guides.bindE (meters_consumeQuota by' metrics []).never fun result => ?_
  obtain ⟨consumed, refused⟩ := result
  refine fun past holds => ?_
  obtain ⟨taken, standing⟩ := holds
  revert standing
  revert past
  have resource : ∀ m ∈ consumed, m.metered = false := fun m mem => plain m (taken.among m mem)
  cases refused with
  | some e =>
      refine Prog.Guides.bindE (meters_releaseConsumed named by' resource).never fun _ => ?_
      exact Prog.Guides.throwE fun _ standing => standing
  | none =>
      obtain rfl : consumed = metrics := taken.all rfl
      refine Prog.Guides.bindE (Q := fun outcome past => either
        (fun _ => Standing tenantId (oneOf []) known)
        (fun _ => Standing tenantId (oneOf consumed) known) outcome past) ?_ fun outcome => ?_
      · exact Prog.Guides.bind uses fun outcome => Prog.Guides.done fun _ holds => holds
      · cases outcome with
        | ok a => exact Prog.Guides.pureE fun _ standing => standing
        | error e =>
            refine Prog.Guides.bindE (meters_releaseConsumed named by' resource).never fun _ => ?_
            exact Prog.Guides.throwE fun _ standing => standing

theorem units_quota (r : Report) (m : UsageMetric) :
    r.units m = oneOf (quotaMetrics r.schedule.enabled) m := by
  unfold Report.units oneOf quotaMetrics
  cases m <;> cases r.schedule.enabled <;> rfl

theorem quotaMetrics_plain (enabled : Bool) : ∀ m ∈ quotaMetrics enabled, m.metered = false := by
  cases enabled <;> decide

/-- What a process owes after it updated a row that it read first. -/
def switched (existing : Report) (set : ReportSet) (v : UsageMetric → Int) (m : UsageMetric) : Int :=
  existing.units m - (set.apply existing).units m + v m

/-- The row that a call goes by. -/
def row (id : ObjectId) (existing : Report) : ObjectId → Report → Prop :=
  fun id' r => id' = id ∧ some existing = some r

theorem meters_repairWhenReferenceChanges (set : ReportSet) (doc : Report) :
    Meters i tenantId (Standing tenantId v known) (repairWhenReferenceChanges set doc)
      (fun _ => Standing tenantId v known) fun _ => False := by
  have stays : Meters i tenantId (Standing tenantId v known) (pure () : ReportM Unit)
      (fun _ => Standing tenantId v known) fun _ => False :=
    Prog.Guides.pureE fun _ standing => standing
  unfold repairWhenReferenceChanges
  cases doc.broken with
  | none => exact stays
  | some broken =>
      refine Prog.Guides.ite (fun _ => stays) fun _ => ?_
      refine Prog.Guides.liftE (Prog.Guides.update fun past db standing => ?_)
      have does := (ReportLabel.clearBroken doc.id).does_act rfl db
      obtain ⟨metered, nothing⟩ := Metered.of_plain does (.inr ⟨doc.id, rfl⟩)
      exact ⟨metered, standing.cons fun m => by rw [nothing m, zero_add]⟩

theorem meters_applyUpdate (id : ObjectId) (set : ReportSet) (existing : Report) :
    Meters i tenantId (Standing tenantId v (row id existing)) (applyUpdate id set)
      (fun _ => Standing tenantId (switched existing set v) (row id existing))
      (Standing tenantId v (row id existing)) := by
  refine Prog.Guides.bindE (Q := fun updated past => Standing tenantId
      (if updated.isSome then switched existing set v else v) (row id existing) past) ?_
    fun updated => ?_
  · refine Prog.Guides.bindE (meters_looks (looks_refuseEnablingWhileBroken id set)) fun _ => ?_
    refine Prog.Guides.bindE (Q := fun updated past => Standing tenantId
      (if updated.isSome then switched existing set v else v) (row id existing) past) ?_
      fun updated => ?_
    · refine Prog.Guides.liftE (Prog.Guides.update fun past db standing => ?_)
      have read := standing.reads id existing ⟨rfl, rfl⟩
      refine ⟨.of_act rfl ?_ ?_ ?_, standing.cons fun m => ?_⟩
      · intro r other
        cases other
      · intro id' set' label
        injection label with same
        exact ⟨existing, same ▸ read⟩
      · intro id' version by' now other
        cases other
      · have found : (ReportLabel.update id set).found db = db.findLive id := rfl
        rw [Option.isSome_map]
        simp only [owed, found, read, Option.map_some, Option.getD_some]
        cases (db.findLive id).isSome <;> simp [switched]
    · cases updated with
      | none => exact Prog.Guides.pureE fun _ standing => standing
      | some doc =>
          refine Prog.Guides.bindE (meters_repairWhenReferenceChanges set doc).never fun _ => ?_
          exact Prog.Guides.pureE fun _ standing => standing
  · cases updated with
    | none => exact Prog.Guides.throwE fun _ standing => standing
    | some doc => exact Prog.Guides.pureE fun _ standing => standing

/-- A process that owes nothing. -/
def Even (tenantId : String) (past : List ReportEvent) : Prop :=
  ∀ m, tally (owed tenantId m) past = 0

theorem Standing.even {past : List ReportEvent} (standing : Standing tenantId (oneOf []) known past) :
    Even tenantId past :=
  fun m => standing.owes m

/-- A call that owes nothing in the end. -/
theorem Meters.settles (known : ObjectId → Report → Prop) {P : List ReportEvent → Prop}
    {p : ReportM A} (meters : Meters i tenantId P p (fun _ => Standing tenantId (oneOf []) known)
      (Standing tenantId (oneOf []) known)) :
    Meters i tenantId P p (fun _ => Even tenantId) (Even tenantId) :=
  meters.post fun outcome past holds => by
    cases outcome with
    | ok a => exact Standing.even holds
    | error e => exact Standing.even holds

theorem meters_findById (id : ObjectId) :
    Meters i tenantId (fun past => past = []) (look fun db => db.findById tenantId id)
      (fun found past => Standing tenantId (oneOf [])
        (fun id' r => id' = id ∧ found = some r) past)
      fun _ => False := by
  refine Prog.Guides.liftE (Prog.Guides.read ?_)
  rintro past db rfl
  have does : ReportLabel.look.Does db db := rfl
  obtain ⟨metered, nothing⟩ := Metered.of_plain does (.inl rfl)
  refine ⟨metered, fun m => ?_, ?_⟩
  · rw [tally_cons, nothing m]
    rfl
  · rintro id' r ⟨rfl, found⟩
    exact found

theorem meters_removeReport (id : ObjectId) (by' : Option String) (existing : Report) :
    Meters i tenantId (Standing tenantId v (row id existing)) (removeReport id by')
      (fun removed => Standing tenantId (if removed then fun m => existing.units m + v m else v)
        (row id existing))
      (Standing tenantId v (row id existing)) := by
  let atLook (doc : Report) (past : List ReportEvent) : Prop :=
    Standing tenantId v (row id existing) past ∧
      ∃ d ∈ past, d.before.findLive id = some doc
  have looked {X : Type} (doc : Report) (f : ReportDb → X) : Meters i tenantId (atLook doc) (look f)
      (fun _ => atLook doc) fun _ => False := by
    refine Prog.Guides.liftE (Prog.Guides.read ?_)
    rintro past db ⟨standing, d, mem, found⟩
    have does : ReportLabel.look.Does db db := rfl
    obtain ⟨metered, nothing⟩ := Metered.of_plain does (.inl rfl)
    exact ⟨metered, standing.cons fun m => by rw [nothing m, zero_add], d,
      List.mem_cons_of_mem _ mem, found⟩
  refine Prog.Guides.bindE (Q := fun found past => Standing tenantId v (row id existing) past ∧
    ∀ doc, found = some doc → ∃ d ∈ past, d.before.findLive id = some doc) ?_ fun found => ?_
  · refine Prog.Guides.liftE (Prog.Guides.read fun past db standing => ?_)
    have does : ReportLabel.look.Does db db := rfl
    obtain ⟨metered, nothing⟩ := Metered.of_plain does (.inl rfl)
    exact ⟨metered, standing.cons fun m => by rw [nothing m, zero_add],
      fun doc found => ⟨_, List.mem_cons_self .., found⟩⟩
  · cases found with
    | none => exact Prog.Guides.pureE fun past holds => holds.1
    | some doc =>
        refine Prog.Guides.bindE (Q := fun _ => atLook doc)
          ((looked doc _).never.weaken fun past holds => ⟨holds.1, holds.2 doc rfl⟩) fun now => ?_
        refine Prog.Guides.bindE (Q := fun removed => Standing tenantId
          (if removed then fun m => existing.units m + v m else v) (row id existing)) ?_
          fun removed => ?_
        · refine Prog.Guides.liftE (Prog.Guides.update ?_)
          rintro past db ⟨standing, d, mem, found⟩
          have read := standing.reads id existing ⟨rfl, rfl⟩
          refine ⟨.of_act rfl ?_ ?_ ?_, standing.cons fun m => ?_⟩
          · intro r other
            cases other
          · intro id' set other
            cases other
          · intro id' version by' now label
            injection label with same version
            exact ⟨⟨existing, same ▸ read⟩, d, mem, doc, same ▸ found, version⟩
          · simp only [owed, read, Option.map_some, Option.getD_some]
            cases ((ReportLabel.softDelete id doc.version by' now).found db).isSome <;> simp
        · cases removed with
          | true => exact Prog.Guides.pureE fun _ standing => standing
          | false => exact Prog.Guides.throwE fun _ standing => standing

variable (config : ReportConfig)

theorem meters_create (req : CreateReport) (named : req.tenantId ≠ "") :
    Meters i req.tenantId (Standing req.tenantId (oneOf []) unread) (create config req)
      (fun _ => Standing req.tenantId (oneOf []) unread)
      (Standing req.tenantId (oneOf []) unread) := by
  unfold create
  refine Prog.Guides.ite (fun _ => Prog.Guides.throwE fun _ standing => standing) fun _ => ?_
  split
  · exact Prog.Guides.throwE fun _ standing => standing
  · exact Prog.Guides.throwE fun _ standing => standing
  · refine Prog.Guides.bindE (meters_looks (looks_sourceQuery config _ _)) fun query => ?_
    refine Prog.Guides.bindE (meters_looks (looks_look _)) fun now => ?_
    refine Prog.Guides.bindE (meters_looks (looks_checked _)) fun sanitized => ?_
    refine Prog.Guides.bindE (meters_looks (looks_validateScheduleDelivery config _ _))
      fun schedule => ?_
    refine Prog.Guides.bindE (meters_looks (looks_checked _)) fun filters => ?_
    refine Prog.Guides.bindE (meters_looks (looks_look _)) fun start => ?_
    refine Prog.Guides.bindE (meters_looks (looks_projectNextRun config _ _ _)) fun next => ?_
    refine meters_withQuota named _ (quotaMetrics_plain _) ?_
    refine Prog.Guides.liftE (Prog.Guides.update fun past db standing => ?_)
    refine ⟨.of_act rfl ?_ ?_ ?_, standing.cons fun m => ?_⟩
    · intro r label
      injection label with same
      exact ⟨same ▸ rfl, same ▸ rfl⟩
    · intro id set other
      cases other
    · intro id version by' now other
      cases other
    · simp only [owed]
      rw [units_quota]
      exact neg_add_cancel _

theorem switched_eq (existing : Report) (set : ReportSet) :
    switched existing set (oneOf (if !existing.schedule.enabled &&
        (set.schedule.map Schedule.enabled).getD existing.schedule.enabled then [.scheduledReports]
      else [])) =
    oneOf (if existing.schedule.enabled &&
        !(set.schedule.map Schedule.enabled).getD existing.schedule.enabled then [.scheduledReports]
      else []) := by
  have after : (set.apply existing).schedule.enabled =
      (set.schedule.map Schedule.enabled).getD existing.schedule.enabled := by
    cases given : set.schedule <;> simp [ReportSet.apply, given]
  funext m
  unfold switched Report.units oneOf
  rw [after]
  generalize existing.schedule.enabled = was
  generalize (set.schedule.map Schedule.enabled).getD was = is
  cases m <;> cases was <;> cases is <;> rfl

theorem meters_releaseOne (named : tenantId ≠ "") {m : UsageMetric} (plain : m.metered = false)
    (rest : List UsageMetric) (by' : Option String) :
    Meters i tenantId (Standing tenantId (oneOf (m :: rest)) known) (releaseQuota tenantId m by')
      (fun _ => Standing tenantId (oneOf rest) known) fun _ => False := by
  have bumped := bump_oneOf_cons m rest
  exact bumped ▸ meters_releaseQuota named plain by'

theorem meters_update (req : UpdateReport) (named : req.tenantId ≠ "") :
    Meters i req.tenantId (fun past => past = []) (update config req)
      (fun _ => Even req.tenantId) (Even req.tenantId) := by
  refine Prog.Guides.bindE (meters_findById req.reportId).never fun found => ?_
  cases found with
  | none => exact Prog.Guides.throwE fun _ => Standing.even
  | some existing =>
      refine Meters.settles (row req.reportId existing) ?_
      refine Prog.Guides.bindE (meters_looks (looks_updatesOf config existing req)) fun changes => ?_
      refine Prog.Guides.ite (fun _ => Prog.Guides.pureE fun _ standing => standing) fun _ => ?_
      dsimp only
      have balanced := switched_eq existing { changes with updatedBy := some req.actorId }
      dsimp only at balanced
      refine Prog.Guides.ite (fun on => ?_) fun same => ?_
      · rw [if_pos on] at balanced
        refine meters_withQuota named _ (by decide) ?_
        refine (meters_applyUpdate _ _ _).post fun outcome past holds => ?_
        cases outcome with
        | error e => exact holds
        | ok u =>
            have off : ¬ (existing.schedule.enabled && !(changes.schedule.map Schedule.enabled).getD
                existing.schedule.enabled) = true := by
              intro off
              rw [Bool.and_eq_true] at on off
              simp [off.1] at on
            rw [if_neg off] at balanced
            exact balanced ▸ holds
      · rw [if_neg same] at balanced
        refine Prog.Guides.bindE (meters_applyUpdate _ _ existing) fun _ => ?_
        rw [balanced]
        refine Prog.Guides.ite (fun off => ?_) fun off => ?_
        · rw [if_pos off]
          exact (meters_releaseOne named rfl [] _).never
        · rw [if_neg off]
          exact Prog.Guides.pureE fun _ standing => standing

theorem meters_remove (reportId : ObjectId) (actorId : Option String) (named : tenantId ≠ "") :
    Meters i tenantId (fun past => past = []) (remove tenantId reportId actorId)
      (fun _ => Even tenantId) (Even tenantId) := by
  refine Prog.Guides.bindE (meters_findById reportId).never fun found => ?_
  cases found with
  | none => exact Prog.Guides.throwE fun _ => Standing.even
  | some existing =>
      refine Meters.settles (row reportId existing) ?_
      refine Prog.Guides.bindE (meters_removeReport reportId actorId existing) fun removed => ?_
      cases removed with
      | false => exact Prog.Guides.throwE fun _ standing => standing
      | true =>
          refine Prog.Guides.bindE (Q := fun _ => Standing tenantId
            (oneOf (if existing.schedule.enabled then [.scheduledReports] else []))
            (row reportId existing)) ?_ fun _ => ?_
          · refine (meters_releaseOne named rfl _ _).never.weaken fun past standing => ?_
            have units : (fun m => existing.units m + oneOf [] m) = oneOf (.reports ::
                if existing.schedule.enabled then [.scheduledReports] else []) := by
              funext m
              unfold Report.units oneOf
              cases m <;> cases existing.schedule.enabled <;> rfl
            exact units ▸ standing
          · refine Prog.Guides.ite (fun on => ?_) fun off => ?_
            · rw [if_pos on]
              exact (meters_releaseOne named rfl [] _).never
            · rw [if_neg off]
              exact Prog.Guides.pureE fun _ standing => standing

/-- A `create`, `update` or `remove` of a workspace. -/
def ReportCall.changes (tenantId : String) : ReportCall → Prop
  | .create req => req.tenantId = tenantId
  | .update req => req.tenantId = tenantId
  | .remove tenantId' _ _ => tenantId' = tenantId
  | _ => False

theorem meters_program (named : tenantId ≠ "") (call : ReportCall) (mine : call.changes tenantId) :
    Meters i tenantId (fun past => past = []) (call.program config) (fun _ => Even tenantId)
      (Even tenantId) := by
  cases call with
  | create req =>
      obtain rfl : req.tenantId = tenantId := mine
      refine (meters_create config req named).settles.weaken ?_
      rintro past rfl
      exact ⟨fun m => rfl, fun _ _ is => is.elim⟩
  | update req =>
      obtain rfl : req.tenantId = tenantId := mine
      exact meters_update config req named
  | remove tenantId' id by' =>
      obtain rfl : tenantId' = tenantId := mine
      exact meters_remove id by' named
  | _ => exact mine.elim

end Programs

/-! ## Runs -/

section Runs

variable {config : ReportConfig} {tenantId : String} {made : ReportCall → Prop} {s₀ : ReportDb}
  {c : Config Nat ReportLabel ReportDb (Except ReportFailure Unit)}

/-- Where every write of a schedule and every removal finds the schedule as its call read it first, and
every unit that is given back is there, the counters of a workspace follow its reports: in every run of
any number of `create`, `update` and `remove`, once all have finished. -/
theorem quotas_track_reports (named : tenantId ≠ "") (stored : Stored s₀)
    (mine : ∀ call, made call → call.changes tenantId)
    (reach : (reportSystem config made).Reach s₀ c) (finished : Finished c)
    (fresh : Throughout (Fresh tenantId) c.world.trace) (m : UsageMetric) :
    c.world.store.metered tenantId m - s₀.metered tenantId m =
      c.world.store.counted tenantId m - s₀.counted tenantId m := by
  have start : ∀ i p, (reportSystem config made).start i p →
      p.Guided i (Metered tenantId) (fun _ => Even tenantId) [] := by
    rintro i p ⟨call, may, rfl⟩
    refine (meters_program config named call (mine call may) [] rfl).post fun outcome past even => ?_
    cases outcome <;> exact even
  obtain ⟨inv, unused, running⟩ := reach.guided (I := QuotaInv tenantId s₀) start
    ⟨stored, (fun _ mem => nomatch mem), fun _ _ => (add_zero _).symm⟩
    (by
      rintro w s' inv ⟨clock, services, rfl⟩
      exact ⟨⟨inv.stored.ids, inv.stored.drawn⟩, inv.later, inv.balance⟩)
    fun w e inv metered before _ => inv.push metered before
  have even : ∀ i, tally (owed tenantId m) (ownIn c.world.trace i) = 0 := by
    intro i
    rw [← World.own_eq]
    cases inPool : c.pool i with
    | none => rw [unused i inPool, tally_nil]
    | some p =>
        obtain ⟨a, rfl⟩ := finished i p inPool
        exact running i _ inPool m
  have balance := inv.balance fresh m
  rw [tally_eq_zero even] at balance
  omega

end Runs

namespace Switched

open DailyReport (Run uses_call)

/-- A report whose schedule is switched off, in a workspace that counts it. -/
def store : ReportDb where
  reports := [{ DailyReport.report with
    schedule := { DailyReport.report.schedule with enabled := false }, nextRunAt := none }]
  usage := emptyUsage.setCounter (currentKey "t1" .reports)
    { kind := .current, value := 1, lastIncrementedAt := none, lastReconciledAt := none
      updatedBy := none, expiresAt := none }
  queue := []
  nextId := 2
  clock := DailyReport.midnight
  services := DailyReport.services

abbrev Reached (c : Run) : Prop :=
  Reach (reportSystem DailyReport.config (ReportCall.changes "t1")) store c

theorem Reached.call {c : Run} (reached : Reached c) (i : Nat) (call : ReportCall)
    (mine : call.changes "t1") (fresh : (c.pool i).isNone = true) (steps : Nat) :
    Reached (DailyReport.call i call steps c) :=
  Reach.begin (fun _ _ _ => trivial) reached fresh ⟨call, mine, rfl⟩ steps

theorem stored : Stored store := ⟨by decide, by decide⟩

def switchOn : ReportCall :=
  .update { tenantId := "t1", reportId := ⟨1⟩, actorId := none
            patch := { schedule := some { enabled := some true } } }

def removal : ReportCall := .remove "t1" ⟨1⟩ none

/-- Two callers find the schedule off and switch it on. -/
def both : Run :=
  go 0 20 (DailyReport.call 1 switchOn 20 (DailyReport.call 0 switchOn 1 (.idle store)))

/-- The schedule is switched on, and then the report is removed. -/
def inTurn : Run := DailyReport.call 1 removal 20 (DailyReport.call 0 switchOn 20 (.idle store))

theorem reached_both : Reached both :=
  Reach.go (fun _ _ _ => trivial)
    (Reached.call (Reached.call .init 0 switchOn rfl rfl 1) 1 switchOn rfl
      ((uses_call (.idle store) 0 switchOn 1).fresh (by decide)) 20) 0 20

theorem reached_inTurn : Reached inTurn :=
  Reached.call (Reached.call .init 0 switchOn rfl rfl 20) 1 removal rfl
    ((uses_call (.idle store) 0 switchOn 20).fresh (by decide)) 20

theorem finished_both : Finished both :=
  ((uses_call (uses_call (.idle store) 0 switchOn 1) 1 switchOn 20).go 0 20).finished
    (by decide +kernel)

theorem finished_inTurn : Finished inTurn :=
  (uses_call (uses_call (.idle store) 0 switchOn 20) 1 removal 20).finished (by decide +kernel)

/-- `Fresh` as it is computed. -/
def isFresh (past : List ReportEvent) (e : ReportEvent) : Bool :=
  (!e.label.settles || (e.label.found e.before).all fun r =>
      (firstRead "t1" r.id past).all fun first => first.schedule.enabled = r.schedule.enabled) &&
    match e.label with
    | .release m _ => 1 ≤ e.before.metered "t1" m
    | _ => true

theorem fresh_of_isFresh (earlier : List ReportEvent) (e : ReportEvent)
    (is : isFresh (ownIn earlier e.tid) e = true) : Fresh "t1" (ownIn earlier e.tid) e := by
  obtain ⟨current, covered⟩ := Bool.and_eq_true_iff.mp is
  constructor
  · intro r first settles found read
    simpa [settles, found, read] using current
  · intro m l label
    rw [label] at covered
    simpa using covered

end Switched

open Switched in
/-- Two callers that find the schedule of a report off and switch it on take a unit each. -/
theorem switched_on_twice : ¬ ∀ (config : ReportConfig) (tenantId : String)
    (made : ReportCall → Prop) (s₀ : ReportDb)
    (c : Config Nat ReportLabel ReportDb (Except ReportFailure Unit)),
    tenantId ≠ "" → Stored s₀ → (∀ call, made call → call.changes tenantId) →
      (reportSystem config made).Reach s₀ c → Finished c → ∀ m,
        c.world.store.metered tenantId m - s₀.metered tenantId m =
          c.world.store.counted tenantId m - s₀.counted tenantId m := by
  intro all
  have same := all DailyReport.config "t1" _ store both (by decide) stored (fun _ mine => mine) reached_both
    finished_both .scheduledReports
  have metered : both.world.store.metered "t1" .scheduledReports = 2 := by decide +kernel
  have counted : both.world.store.counted "t1" .scheduledReports = 1 := by decide +kernel
  rw [metered, counted] at same
  exact absurd same (by decide +kernel)

open Switched in
/-- A schedule is switched on and its report removed after that. -/
theorem quotas_track_reports_inTurn : Finished inTurn ∧
    inTurn.world.store.metered "t1" .reports - store.metered "t1" .reports =
      inTurn.world.store.counted "t1" .reports - store.counted "t1" .reports :=
  ⟨finished_inTurn, quotas_track_reports (by decide) stored (fun _ mine => mine) reached_inTurn
    finished_inTurn (.of_check fresh_of_isFresh (by decide +kernel)) .reports⟩

end AnalyticsBackend.Reports
