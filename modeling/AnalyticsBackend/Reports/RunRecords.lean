import AnalyticsBackend.Reports.FiresOnce

/-!
# The run records of a report

A completion updates the run and then the mirror in `lastRun`, each unconditionally. Where only the
newest run of a report is completed, not twice, and nothing else is written in between, `lastRun` is
the newest run and a run that has ended stays as it is.
-/

namespace AnalyticsBackend.Reports
open Lib Collection Mongo Analytics Usage System

/-! ## What should hold -/

/-- A run that has ended. -/
def RunStatus.final : RunStatus → Bool
  | .ready | .failed => true
  | _ => false

/-- `lastRun` is the newest run. -/
def Report.Mirrors (r : Report) : Prop :=
  ∀ x, r.runs.getLast? = some x → r.lastRun = x.fields

/-- The patch of a completion that a process has written to a run of a report and not yet to
`lastRun`. -/
def pending (id : ObjectId) : List ReportEvent → Option RunPatch
  | [] => none
  | e :: _ =>
      match e.label with
      | .completeRun id' _ patch => if id' = id then some patch else none
      | _ => none

def KeepsEnded (db db' : ReportDb) : Prop :=
  ∀ r ∈ db.reports, ∀ x ∈ r.runs, x.fields.status.final = true →
    ∀ r' ∈ db'.reports, r'.id = r.id → ∀ x' ∈ r'.runs, x'.id = x.id → x'.fields = x.fields

/-- The run records are true: `lastRun` is the newest run unless a run is between two of its own
updates, and what has ended stays as it is. -/
structure RunsTrue (w : ReportWorld) : Prop where
  mirrors : ∀ r ∈ w.store.reports, (∀ i, pending r.id (w.own i) = none) → r.Mirrors
  ended : ∀ e ∈ w.trace, KeepsEnded e.before w.store

/-- A completion of a report's run finds the report live and the run its newest, which has not ended,
and neither it nor a new run comes between the two updates of a completion of the report. -/
structure Orderly (earlier : List ReportEvent) (e : ReportEvent) : Prop where
  complete : ∀ id runId patch, e.label = .completeRun id runId patch →
    ∀ r ∈ e.before.reports, r.id = id → r.live = true ∧
      (∃ x, r.runs.getLast? = some x ∧ x.id = runId ∧ x.fields.status.final = false) ∧
        ∀ j, j ≠ e.tid → pending id (ownIn earlier j) = none
  add : ∀ id run, e.label = .addRun id run → (e.label.found e.before).isSome = true →
    ∀ j, j ≠ e.tid → pending id (ownIn earlier j) = none

/-! ## What each step does to the runs -/

def ReportLabel.offRuns : ReportLabel → Bool
  | .addRun _ _ | .completeRun _ _ _ | .mirrorRun _ _ | .create _ => false
  | _ => true

theorem runs_set {label : ReportLabel} (off : label.offRuns = true) (r : Report) :
    (label.set r).runs = r.runs ∧ (label.set r).lastRun = r.lastRun := by
  cases label with
  | addRun id run | completeRun id runId patch | mirrorRun id patch | create report => exact nomatch off
  | _ => exact ⟨rfl, rfl⟩

theorem runs_does {label : ReportLabel} {db db' : ReportDb} (off : label.offRuns = true)
    (does : label.Does db db') {r : Report} (mem : r ∈ db'.reports) :
    ∃ r₀ ∈ db.reports, r.id = r₀.id ∧ r.runs = r₀.runs ∧ r.lastRun = r₀.lastRun := by
  rcases does.cases with ⟨usage, rfl⟩ | rfl
  · exact ⟨r, mem, rfl, rfl, rfl⟩
  · rcases mem_act mem with old | ⟨r₀, old, -, rfl⟩ | ⟨report, rfl, -⟩
    · exact ⟨r, old, rfl, rfl, rfl⟩
    · exact ⟨r₀, old, id_set label r₀, runs_set off r₀⟩
    · exact nomatch off

theorem run_does {label : ReportLabel} {db db' : ReportDb} (does : label.Does db db')
    (noCreate : ∀ report, label ≠ .create report) {r : Report} (mem : r ∈ db'.reports) {x : RunRecord}
    (inRuns : x ∈ r.runs) : ∃ r₀ ∈ db.reports, r₀.id = r.id ∧
      (x ∈ r₀.runs ∨ label = .addRun r.id x ∨ ∃ patch, ∃ x₀ ∈ r₀.runs,
        label = .completeRun r.id x₀.id patch ∧ x = patch.complete x₀) := by
  rcases does.cases with ⟨usage, rfl⟩ | rfl
  · exact ⟨r, mem, rfl, .inl inRuns⟩
  · rcases mem_act mem with old | ⟨r₀, old, selected, rfl⟩ | ⟨report, rfl, -⟩
    · exact ⟨r, old, rfl, .inl inRuns⟩
    · refine ⟨r₀, old, (id_set label r₀).symm, ?_⟩
      rw [id_set]
      cases label with
      | addRun id run =>
          have is : r₀.id = id := by
            simpa [ReportLabel.selects] using (Bool.and_eq_true_iff.mp selected).1
          rcases List.mem_append.mp (List.mem_of_mem_drop inRuns) with was | new
          · exact .inl was
          · exact .inr (.inl (by rw [is, List.mem_singleton.mp new]))
      | completeRun id runId patch =>
          simp only [ReportLabel.selects, Bool.and_eq_true, decide_eq_true_eq] at selected
          obtain ⟨⟨is, -⟩, -⟩ := selected
          rcases of_mem_updateFirst inRuns with was | ⟨x₀, was, matched, rfl⟩
          · exact .inl was
          · have ofRun : x₀.id = runId := by simpa using matched
            exact .inr (.inr ⟨patch, x₀, was, by rw [is, ofRun], rfl⟩)
      | create report => exact absurd rfl (noCreate report)
      | _ => exact .inl inRuns
    · exact absurd rfl (noCreate report)

/-! ## Run ids -/

def ReportDb.Holds (db : ReportDb) (id : ObjectId) : Prop :=
  ∃ r ∈ db.reports, ∃ x ∈ r.runs, x.id = id

/-- A run id was stored at some time. -/
def Seen (w : ReportWorld) (id : ObjectId) : Prop :=
  w.store.Holds id ∨ ∃ e ∈ w.trace, e.before.Holds id

/-- The run id that a process has drawn and not yet used. -/
def minting : List ReportEvent → Option ObjectId
  | [] => none
  | e :: _ =>
      match e.label with
      | .mint => some ⟨e.before.nextId⟩
      | _ => none

structure RunStep (past : List ReportEvent) (e : ReportEvent) : Prop where
  does : e.label.Does e.before e.after
  noCreate : ∀ report, e.label ≠ .create report
  add : ∀ id run, e.label = .addRun id run → minting past = some run.id
  mirror : ∀ id patch, e.label = .mirrorRun id patch → pending id past = some patch
  next : ∀ id patch, pending id past = some patch → e.label = .mirrorRun id patch

/-- The run ids of a report are its runs' own, and one that is drawn is no run's yet. -/
structure RunIds (w : ReportWorld) : Prop where
  stored : Stored w.store
  unique : ∀ r ∈ w.store.reports, (r.runs.map RunRecord.id).Nodup
  drawn : ∀ id, Seen w id → id.value < w.store.nextId
  fresh : ∀ i id, minting (w.own i) = some id → id.value < w.store.nextId ∧ ¬ Seen w id
  apart : ∀ i j id, minting (w.own i) = some id → minting (w.own j) = some id → i = j

theorem minting_cons {e : ReportEvent} {past : List ReportEvent} {id : ObjectId}
    (minted : minting (e :: past) = some id) : e.label = .mint ∧ id = ⟨e.before.nextId⟩ := by
  simp only [minting] at minted
  split at minted
  · rename_i label
    exact ⟨label, (Option.some.inj minted).symm⟩
  · exact nomatch minted

section Push

variable {w : ReportWorld} {e : ReportEvent}

theorem Seen.of_push (step : RunStep (w.own e.tid) e) (before : e.before = w.store) {id : ObjectId}
    (seen : Seen (w.push e) id) : Seen w id ∨ minting (w.own e.tid) = some id := by
  rcases seen with ⟨r, mem, x, inRuns, rfl⟩ | ⟨d, inTrace, held⟩
  · obtain ⟨r₀, mem₀, -, was | added | ⟨patch, x₀, was, -, rfl⟩⟩ :=
      run_does step.does step.noCreate mem inRuns
    · exact .inl (.inl ⟨r₀, before ▸ mem₀, x, was, rfl⟩)
    · exact .inr (step.add _ _ added)
    · exact .inl (.inl ⟨r₀, before ▸ mem₀, x₀, was, rfl⟩)
  · rcases List.mem_cons.mp inTrace with rfl | earlier
    · exact .inl (.inl (before ▸ held))
    · exact .inl (.inr ⟨d, earlier, held⟩)

theorem RunIds.unique_push (ids : RunIds w) (step : RunStep (w.own e.tid) e)
    (before : e.before = w.store) {r : Report} (mem : r ∈ e.after.reports) :
    (r.runs.map RunRecord.id).Nodup := by
  have unique : ∀ r₀ ∈ e.before.reports, (r₀.runs.map RunRecord.id).Nodup := before ▸ ids.unique
  rcases step.does.cases with ⟨usage, after⟩ | after
  · rw [after] at mem
    exact unique r mem
  · rw [after] at mem
    rcases mem_act mem with old | ⟨r₀, old, selected, rfl⟩ | ⟨report, label, -⟩
    · exact unique r old
    · have was := unique r₀ old
      cases label : e.label with
      | addRun id run =>
          have new : run.id ∉ r₀.runs.map RunRecord.id := by
            intro there
            obtain ⟨x, inRuns, same⟩ := List.mem_map.mp there
            exact (ids.fresh e.tid run.id (step.add id run label)).2
              (.inl ⟨r₀, before ▸ old, x, inRuns, same⟩)
          have all : ((r₀.runs ++ [run]).map RunRecord.id).Nodup := by
            rw [List.map_append]
            refine List.nodup_append.mpr ⟨was, List.nodup_singleton _, ?_⟩
            rintro id mem id' mem' rfl
            rw [List.map_singleton, List.mem_singleton] at mem'
            exact new (mem' ▸ mem)
          exact all.sublist ((List.drop_sublist _ _).map _)
      | completeRun id runId patch =>
          have same : (r₀.completeRun runId patch).runs.map RunRecord.id =
              r₀.runs.map RunRecord.id :=
            map_updateFirst (f := patch.complete) (fun _ => rfl) r₀.runs
          exact same ▸ was
      | create report => exact absurd label (step.noCreate report)
      | _ => exact was
    · exact absurd label (step.noCreate report)

theorem RunIds.push (ids : RunIds w) (step : RunStep (w.own e.tid) e) (before : e.before = w.store) :
    RunIds (w.push e) := by
  have stored := (before ▸ ids.stored : Stored e.before).does step.does
  have later : w.store.nextId ≤ e.after.nextId := before ▸ stored.2
  have drawn : ∀ id, Seen (w.push e) id → id.value < w.store.nextId := by
    intro id seen
    rcases seen.of_push step before with was | minted
    · exact ids.drawn id was
    · exact (ids.fresh e.tid id minted).1
  -- What a process has drawn in this step is the next id.
  have newest {i : Nat} {id : ObjectId} (minted : minting ((w.push e).own i) = some id) :
      (i = e.tid ∧ e.label = .mint ∧ id = ⟨w.store.nextId⟩) ∨
        (i ≠ e.tid ∧ minting (w.own i) = some id) := by
    rw [World.own_push] at minted
    by_cases own : e.tid = i
    · rw [if_pos own] at minted
      obtain ⟨label, is⟩ := minting_cons minted
      exact .inl ⟨own.symm, label, before ▸ is⟩
    · rw [if_neg own] at minted
      exact .inr ⟨fun same => own same.symm, minted⟩
  refine ⟨stored.1, fun r mem => ids.unique_push step before mem,
    fun id seen => Nat.lt_of_lt_of_le (drawn id seen) later, ?_, ?_⟩
  · intro i id minted
    rcases newest minted with ⟨-, label, rfl⟩ | ⟨other, was⟩
    · have does : e.after = e.label.act e.before := by
        rcases step.does.cases with ⟨usage, after⟩ | after
        · have does := step.does
          rw [ReportLabel.Does, label] at does
          exact label ▸ does
        · exact after
      have next : e.after.nextId = w.store.nextId + 1 := by rw [does, label, before]; rfl
      refine ⟨by rw [World.push_store, next]; exact Nat.lt_succ_self _, fun seen => ?_⟩
      exact absurd (drawn _ seen) (Nat.lt_irrefl _)
    · obtain ⟨below, unseen⟩ := ids.fresh i id was
      refine ⟨Nat.lt_of_lt_of_le below later, fun seen => ?_⟩
      rcases seen.of_push step before with earlier | minted
      · exact unseen earlier
      · exact other (ids.apart i e.tid id was minted)
  · intro i j id minted minted'
    rcases newest minted with ⟨rfl, -, rfl⟩ | ⟨other, was⟩
    · rcases newest minted' with ⟨rfl, -⟩ | ⟨-, was⟩
      · rfl
      · exact absurd (ids.fresh j _ was).1 (Nat.lt_irrefl _)
    · rcases newest minted' with ⟨rfl, -, rfl⟩ | ⟨-, was'⟩
      · exact absurd (ids.fresh i _ was).1 (Nat.lt_irrefl _)
      · exact ids.apart i j id was was'

end Push

/-! ## Runs that have ended -/

section Ended

variable {w : ReportWorld} {e : ReportEvent}

theorem RunIds.eq_of_id (ids : RunIds w) {r r' : Report} (mem : r ∈ w.store.reports)
    (mem' : r' ∈ w.store.reports) (same : r'.id = r.id) {x x' : RunRecord} (inRuns : x ∈ r.runs)
    (inRuns' : x' ∈ r'.runs) (sameRun : x'.id = x.id) : x' = x := by
  obtain rfl := ids.stored.eq_of_id mem' mem same
  exact List.inj_on_of_nodup_map (ids.unique r' mem') inRuns' inRuns sameRun

theorem Orderly.not_ended {earlier : List ReportEvent} (orderly : Orderly earlier e)
    (ids : RunIds w) (before : e.before = w.store) {r : Report} (mem : r ∈ w.store.reports)
    {patch : RunPatch} {x : RunRecord} (inRuns : x ∈ r.runs)
    (label : e.label = .completeRun r.id x.id patch) : x.fields.status.final = false := by
  obtain ⟨-, ⟨y, newest, same, open'⟩, -⟩ := orderly.complete _ _ _ label r (before ▸ mem) rfl
  obtain rfl := ids.eq_of_id mem mem rfl inRuns (List.mem_of_getLast? newest) same
  exact open'

theorem KeepsEnded.push {db : ReportDb} (keeps : KeepsEnded db w.store) (ids : RunIds w)
    (seen : ∀ id, db.Holds id → Seen w id) (step : RunStep (w.own e.tid) e)
    (before : e.before = w.store) {earlier : List ReportEvent} (orderly : Orderly earlier e) :
    KeepsEnded db e.after := by
  intro r mem x inRuns ended r' mem' same x' inRuns' sameRun
  obtain ⟨r₀, mem₀, id₀, was | added | ⟨patch, x₀, was, label, rfl⟩⟩ :=
    run_does step.does step.noCreate mem' inRuns'
  · exact keeps r mem x inRuns ended r₀ (before ▸ mem₀) (id₀.trans same) x' was sameRun
  · have drawn := step.add _ _ added
    rw [sameRun] at drawn
    exact absurd (seen x.id ⟨r, mem, x, inRuns, rfl⟩) (ids.fresh e.tid x.id drawn).2
  · have mem₀ : r₀ ∈ w.store.reports := before ▸ mem₀
    have unchanged := keeps r mem x inRuns ended r₀ mem₀ (id₀.trans same) x₀ was sameRun
    have open' := orderly.not_ended ids before mem₀ was (id₀ ▸ label)
    rw [unchanged, ended] at open'
    exact nomatch open'

end Ended

/-! ## The mirror -/

/-- A report is mirrored in `lastRun`, up to the one completion that is between its two updates. -/
structure Report.Accords (r : Report) (pend : Nat → Option RunPatch) : Prop where
  settled : (∀ i, pend i = none) → r.Mirrors
  between : ∀ i patch, pend i = some patch → (∀ j, j ≠ i → pend j = none) ∧
    ∀ x, r.runs.getLast? = some x → x.fields = patch.apply r.lastRun

theorem Report.Accords.of_same {r r₀ : Report} {pend pend' : Nat → Option RunPatch}
    (accords : r₀.Accords pend) (runs : r.runs = r₀.runs) (last : r.lastRun = r₀.lastRun)
    (same : ∀ i, pend' i = pend i) : r.Accords pend' := by
  obtain rfl : pend' = pend := funext same
  refine ⟨fun none x newest => ?_, fun i patch is => ⟨(accords.between i patch is).1, ?_⟩⟩
  · rw [last]
    exact accords.settled none x (runs ▸ newest)
  · intro x newest
    rw [last]
    exact (accords.between i patch is).2 x (runs ▸ newest)

theorem pending_cons (id : ObjectId) (e : ReportEvent) (past : List ReportEvent) :
    pending id (e :: past) =
      match e.label with
      | .completeRun id' _ patch => if id' = id then some patch else none
      | _ => none := rfl

theorem pending_unique {id id' : ObjectId} {past : List ReportEvent} {patch : RunPatch}
    (is : pending id past = some patch) (other : id' ≠ id) : pending id' past = none := by
  cases past with
  | nil => rfl
  | cons e rest =>
      rw [pending_cons] at is ⊢
      split at is
      · split at is
        · rename_i same
          exact if_neg fun same' => other (same'.symm.trans same)
        · exact nomatch is
      · exact nomatch is

theorem eq_set_of_selects {label : ReportLabel} {db : ReportDb} (stored : Stored db)
    (stored' : Stored (label.act db)) {id : ObjectId}
    (only : ∀ r ∈ db.reports, label.selects r = true → r.id = id)
    (acts : (label.act db).reports = updateFirst label.selects label.set db.reports)
    {r₀ r : Report} (mem₀ : r₀ ∈ db.reports) (selected : label.selects r₀ = true)
    (mem : r ∈ (label.act db).reports) (is : r.id = id) : r = label.set r₀ := by
  have some : (label.found db).isSome = true := List.find?_isSome.mpr ⟨r₀, mem₀, selected⟩
  obtain ⟨r₁, found⟩ := Option.isSome_iff_exists.mp some
  have mem₁ := List.mem_of_find?_eq_some found
  have id₁ := only r₁ mem₁ (List.find?_some found)
  have same : r₁ = r₀ := stored.eq_of_id mem₁ mem₀ (id₁.trans (only r₀ mem₀ selected).symm)
  have there : label.set r₁ ∈ (label.act db).reports := acts ▸ updated_mem found
  rw [← same]
  exact stored'.eq_of_id mem there (by rw [is, id_set, id₁])

theorem newest_completeRun {r : Report} {x : RunRecord} (unique : (r.runs.map RunRecord.id).Nodup)
    (newest : r.runs.getLast? = some x) (patch : RunPatch) :
    (r.completeRun x.id patch).runs.getLast? = some (patch.complete x) := by
  obtain ⟨older, split⟩ := List.getLast?_eq_some_iff.mp newest
  rw [split, List.map_append] at unique
  have others : ∀ y ∈ older, decide (y.id = x.id) = false := by
    intro y mem
    have apart := (List.nodup_append.mp unique).2.2 y.id (List.mem_map_of_mem mem) x.id (by simp)
    simpa using apart
  have done : updateFirst (fun run : RunRecord => run.id = x.id) patch.complete r.runs =
      older ++ [patch.complete x] := by
    rw [split, updateFirst_append [x] others]
    simp [updateFirst]
  simp only [Report.completeRun]
  rw [done]
  simp

theorem newest_addRun (run : RunRecord) (r : Report) : (r.addRun run).runs.getLast? = some run := by
  have kept : ¬ (r.runs ++ [run]).length ≤ (r.runs ++ [run]).length - maxHistory := by
    simp only [List.length_append, List.length_singleton, maxHistory]
    omega
  simp only [Report.addRun]
  rw [List.getLast?_drop, if_neg kept]
  simp

section Mirror

variable {w : ReportWorld} {e : ReportEvent}

/-- Of a process that takes another step than the second update of a completion, nothing is
pending. -/
theorem RunStep.none_pending {past : List ReportEvent} (step : RunStep past e)
    (other : ∀ id patch, e.label ≠ .mirrorRun id patch) (id : ObjectId) : pending id past = none := by
  cases is : pending id past with
  | none => rfl
  | some patch => exact absurd (step.next id patch is) (other id patch)

theorem RunStep.same_pending (step : RunStep (w.own e.tid) e)
    (noMirror : ∀ id patch, e.label ≠ .mirrorRun id patch)
    (noComplete : ∀ id runId patch, e.label ≠ .completeRun id runId patch) (id : ObjectId) (i : Nat) :
    pending id ((w.push e).own i) = pending id (w.own i) := by
  rw [World.own_push]
  by_cases own : e.tid = i
  · rw [if_pos own, ← own, step.none_pending noMirror, pending_cons]
    split
    · rename_i id' runId patch label
      exact absurd label (noComplete id' runId patch)
    · rfl
  · rw [if_neg own]

def Accorded (w : ReportWorld) : Prop :=
  ∀ r ∈ w.store.reports, r.Accords fun i => pending r.id (w.own i)

theorem Accorded.off (accorded : Accorded w) (step : RunStep (w.own e.tid) e)
    (before : e.before = w.store) (off : e.label.offRuns = true) : Accorded (w.push e) := by
  intro r mem
  obtain ⟨r₀, mem₀, id, runs, last⟩ := runs_does off step.does mem
  refine (accorded r₀ (before ▸ mem₀)).of_same runs last fun i => ?_
  rw [id]
  refine step.same_pending ?_ ?_ _ _
  · intro id patch label
    rw [label] at off
    exact nomatch off
  · intro id runId patch label
    rw [label] at off
    exact nomatch off

theorem Accorded.add (accorded : Accorded w) (step : RunStep (w.own e.tid) e)
    (before : e.before = w.store) (orderly : Orderly w.trace e) {id : ObjectId} {run : RunRecord}
    (label : e.label = .addRun id run) : Accorded (w.push e) := by
  have does : e.after = (ReportLabel.addRun id run).act e.before := by
    have does := step.does
    rw [label] at does
    exact does
  have same := step.same_pending (w := w) (by simp [label]) (by simp [label])
  intro r mem
  rw [World.push_store, does] at mem
  rcases mem_act mem with old | ⟨r₀, old, selected, rfl⟩ | ⟨report, other, -⟩
  · exact (accorded r (before ▸ old)).of_same rfl rfl (same r.id)
  · have found : (e.label.found e.before).isSome = true :=
      label ▸ List.find?_isSome.mpr ⟨r₀, old, selected⟩
    have is : r₀.id = id := by
      simpa [ReportLabel.selects] using (Bool.and_eq_true_iff.mp selected).1
    have idle : ∀ j, pending r₀.id (w.own j) = none := by
      intro j
      by_cases own : j = e.tid
      · rw [own]
        exact step.none_pending (by simp [label]) _
      · exact is ▸ orderly.add id run label found j own
    refine ⟨fun _ x newest => ?_, fun i patch is => ?_⟩
    · have newest' := newest_addRun run r₀
      obtain rfl : run = x := Option.some.inj (newest'.symm.trans newest)
      rfl
    · rw [same, id_set, idle i] at is
      cases is
  · cases other

theorem set_of_push (stored : Stored w.store) {label : ReportLabel}
    (acts : ∀ db, (label.act db).reports = updateFirst label.selects label.set db.reports)
    {id : ObjectId} (only : ∀ r : Report, label.selects r = true → r.id = id) {r : Report}
    (mem : r ∈ (label.act w.store).reports) (is : r.id = id)
    (selects : ∀ r₀ ∈ w.store.reports, r₀.id = id → label.selects r₀ = true) :
    ∃ r₀ ∈ w.store.reports, r₀.id = id ∧ r = label.set r₀ := by
  have preimage : ∃ r₀ ∈ w.store.reports, r₀.id = id := by
    rw [acts] at mem
    rcases of_mem_updateFirst mem with old | ⟨r₀, old, -, rfl⟩
    · exact ⟨r, old, is⟩
    · exact ⟨r₀, old, (id_set label r₀).symm.trans is⟩
  obtain ⟨r₀, mem₀, id₀⟩ := preimage
  exact ⟨r₀, mem₀, id₀, eq_set_of_selects stored (stored.act label) (fun r _ => only r) (acts _) mem₀
    (selects r₀ mem₀ id₀) mem is⟩

theorem old_of_push {label : ReportLabel}
    (acts : ∀ db, (label.act db).reports = updateFirst label.selects label.set db.reports)
    {id : ObjectId} (only : ∀ r : Report, label.selects r = true → r.id = id) {r : Report}
    {db : ReportDb} (mem : r ∈ (label.act db).reports) (other : r.id ≠ id) : r ∈ db.reports := by
  rw [acts] at mem
  rcases of_mem_updateFirst mem with old | ⟨r₀, old, selected, rfl⟩
  · exact old
  · exact absurd ((id_set label r₀).trans (only r₀ selected)) other

theorem Accorded.complete (accorded : Accorded w) (ids : RunIds w) (step : RunStep (w.own e.tid) e)
    (before : e.before = w.store) (orderly : Orderly w.trace e) {id runId : ObjectId}
    {patch : RunPatch} (label : e.label = .completeRun id runId patch) : Accorded (w.push e) := by
  have does : e.after = (ReportLabel.completeRun id runId patch).act w.store := by
    have does := step.does
    rw [label, before] at does
    exact does
  have idle : ∀ id', pending id' (w.own e.tid) = none := step.none_pending (by simp [label])
  have own (id' : ObjectId) (i : Nat) : pending id' ((w.push e).own i) =
      if e.tid = i then (if id = id' then some patch else none) else pending id' (w.own i) := by
    rw [World.own_push]
    split
    · rw [pending_cons, label]
    · rfl
  have only : ∀ r : Report, (ReportLabel.completeRun id runId patch).selects r = true → r.id = id := by
    intro r selected
    simp only [ReportLabel.selects, Bool.and_eq_true, decide_eq_true_eq] at selected
    exact selected.1.1
  intro r mem
  rw [World.push_store, does] at mem
  by_cases is : r.id = id
  · have selects : ∀ r₀ ∈ w.store.reports, r₀.id = id →
        (ReportLabel.completeRun id runId patch).selects r₀ = true := by
      intro r₀ mem₀ id₀
      obtain ⟨live, ⟨x, newest, ofRun, -⟩, -⟩ :=
        orderly.complete id runId patch label r₀ (before ▸ mem₀) id₀
      simp only [ReportLabel.selects, Bool.and_eq_true, decide_eq_true_eq]
      exact ⟨⟨id₀, live⟩, List.any_eq_true.mpr ⟨x, List.mem_of_getLast? newest, by simp [ofRun]⟩⟩
    obtain ⟨r₀, mem₀, id₀, rfl⟩ := set_of_push ids.stored (fun _ => rfl) only mem is selects
    obtain ⟨-, ⟨x, newest, rfl, -⟩, alone⟩ :=
      orderly.complete id runId patch label r₀ (before ▸ mem₀) id₀
    have newest' := newest_completeRun (ids.unique r₀ mem₀) newest patch
    have none : ∀ i, pending r₀.id (w.own i) = none := by
      intro i
      by_cases mine : i = e.tid
      · exact mine ▸ idle _
      · exact id₀ ▸ alone i mine
    refine ⟨fun nothing => ?_, fun i patch' pends => ⟨fun j other => ?_, fun y last => ?_⟩⟩
    · have some := nothing e.tid
      rw [own, if_pos rfl, if_pos is.symm] at some
      cases some
    · rw [own] at pends ⊢
      by_cases mine : e.tid = i
      · rw [if_neg fun same => other (same.symm.trans mine), is]
        exact alone j fun same => other (same.trans mine)
      · rw [if_neg mine, id_set, none i] at pends
        cases pends
    · rw [own] at pends
      by_cases mine : e.tid = i
      · rw [if_pos mine, if_pos is.symm] at pends
        obtain rfl := Option.some.inj pends
        obtain rfl := Option.some.inj (newest'.symm.trans last)
        have mirrored := (accorded r₀ mem₀).settled none x newest
        exact congrArg patch.apply mirrored.symm
      · rw [if_neg mine, id_set, none i] at pends
        cases pends
  · refine (accorded r (old_of_push (fun _ => rfl) only mem is)).of_same rfl rfl fun i => ?_
    rw [own]
    split
    · rename_i mine
      rw [if_neg fun same => is same.symm, ← mine, idle]
    · rfl

theorem Accorded.mirror (accorded : Accorded w) (ids : RunIds w) (step : RunStep (w.own e.tid) e)
    (before : e.before = w.store) {id : ObjectId} {patch : RunPatch}
    (label : e.label = .mirrorRun id patch) : Accorded (w.push e) := by
  have does : e.after = (ReportLabel.mirrorRun id patch).act w.store := by
    have does := step.does
    rw [label, before] at does
    exact does
  have was : pending id (w.own e.tid) = some patch := step.mirror id patch label
  have own (id' : ObjectId) (i : Nat) : pending id' ((w.push e).own i) =
      if e.tid = i then none else pending id' (w.own i) := by
    rw [World.own_push]
    split
    · rw [pending_cons, label]
    · rfl
  have only : ∀ r : Report, (ReportLabel.mirrorRun id patch).selects r = true → r.id = id :=
    fun r selected => by simpa [ReportLabel.selects] using selected
  intro r mem
  rw [World.push_store, does] at mem
  by_cases is : r.id = id
  · have selects : ∀ r₀ ∈ w.store.reports, r₀.id = id →
        (ReportLabel.mirrorRun id patch).selects r₀ = true :=
      fun r₀ _ id₀ => by simp [ReportLabel.selects, id₀]
    obtain ⟨r₀, mem₀, rfl, rfl⟩ := set_of_push ids.stored (fun _ => rfl) only mem is selects
    obtain ⟨alone, newest⟩ := (accorded r₀ mem₀).between e.tid patch was
    have none : ∀ i, pending r₀.id ((w.push e).own i) = none := by
      intro i
      rw [own]
      by_cases mine : e.tid = i
      · rw [if_pos mine]
      · rw [if_neg mine]
        exact alone i fun same => mine same.symm
    refine ⟨fun _ x last => (newest x last).symm, fun i patch' pends => ?_⟩
    rw [is, none i] at pends
    cases pends
  · refine (accorded r (old_of_push (fun _ => rfl) only mem is)).of_same rfl rfl fun i => ?_
    rw [own]
    split
    · rename_i mine
      rw [← mine, pending_unique was is]
    · rfl

theorem Accorded.push (accorded : Accorded w) (ids : RunIds w) (step : RunStep (w.own e.tid) e)
    (before : e.before = w.store) (orderly : Orderly w.trace e) : Accorded (w.push e) := by
  cases label : e.label with
  | addRun id run => exact accorded.add step before orderly label
  | completeRun id runId patch => exact accorded.complete ids step before orderly label
  | mirrorRun id patch => exact accorded.mirror ids step before label
  | create report => exact absurd label (step.noCreate report)
  | _ => exact accorded.off step before (label ▸ rfl)

end Mirror

/-! ## The calls -/

/-- A process that is not between the two updates of a completion. -/
def Idle (past : List ReportEvent) : Prop := ∀ id, pending id past = none

section Programs

variable {i : Nat} {A B : Type}

/-- A program that ends each completion that it begins, and adds runs under ids that it draws. -/
abbrev KeepsRuns (i : Nat) (p : ReportM A) : Prop :=
  Prog.Guides i RunStep Idle p.run fun _ => Idle

theorem KeepsRuns.bind {p : ReportM B} {k : B → ReportM A} (first : KeepsRuns i p)
    (second : ∀ b, KeepsRuns i (k b)) : KeepsRuns i (p >>= k) := by
  refine Prog.Guides.bind first fun result => ?_
  cases result with
  | ok b => exact second b
  | error e => exact Prog.Guides.done fun _ idle => idle

theorem KeepsRuns.pure (a : A) : KeepsRuns i (Pure.pure a : ReportM A) := fun _ idle => idle

theorem KeepsRuns.throw (e : ReportFailure) : KeepsRuns i (MonadExcept.throw e : ReportM A) :=
  fun _ idle => idle

theorem KeepsRuns.attempt {p : ReportM A} (keeps : KeepsRuns i p) : KeepsRuns i (Reports.attempt p) :=
  Prog.Guides.bind keeps fun _ => Prog.Guides.done fun _ idle => idle

theorem KeepsRuns.ite {c : Prop} {_ : Decidable c} {p q : ReportM A} (yes : KeepsRuns i p)
    (no : KeepsRuns i q) : KeepsRuns i (if c then p else q) :=
  Prog.Guides.ite (fun _ => yes) fun _ => no

theorem RunStep.of_off {past : List ReportEvent} {e : ReportEvent} (idle : Idle past)
    (does : e.label.Does e.before e.after) (off : e.label.offRuns = true) :
    RunStep past e ∧ Idle (e :: past) := by
  refine ⟨⟨does, ?_, ?_, ?_, fun id patch is => absurd (idle id) (by simp [is])⟩, fun id => ?_⟩
  · intro report label
    rw [label] at off
    exact nomatch off
  · intro id run label
    rw [label] at off
    exact nomatch off
  · intro id patch label
    rw [label] at off
    exact nomatch off
  · rw [pending_cons]
    split
    · rename_i label
      rw [label] at off
      exact nomatch off
    · rfl

theorem keeps_looks {p : ReportM A} (steps : Steps Looks p) : KeepsRuns i p :=
  steps.guides fun _ _ looks does idle => RunStep.of_off idle does (looks ▸ rfl)

theorem keeps_look (f : ReportDb → A) : KeepsRuns i (look f) := keeps_looks (looks_look f)

theorem completeRun_eq (id runId : ObjectId) (patch : RunPatch) :
    (completeRun id runId patch).run =
      .step (.completeRun id runId patch) (ReportLabel.completeRun id runId patch).act fun _ =>
        .step (.mirrorRun id patch) (ReportLabel.mirrorRun id patch).act fun _ =>
          .step .look ReportLabel.look.act fun _ => .done (.ok ()) := rfl

theorem keeps_completeRun (id runId : ObjectId) (patch : RunPatch) :
    KeepsRuns i (completeRun id runId patch) := by
  rw [KeepsRuns, completeRun_eq]
  intro past idle db
  have complete : RunStep past ⟨i, .completeRun id runId patch, db,
      (ReportLabel.completeRun id runId patch).act db⟩ := by
    refine ⟨ReportLabel.does_act rfl db, by simp, by simp, by simp, fun id' patch' is => ?_⟩
    rw [idle id'] at is
    exact nomatch is
  refine ⟨complete, fun db' => ?_⟩
  generalize (ReportLabel.completeRun id runId patch).act db = done
  have pend (id' : ObjectId) :
      pending id' (⟨i, .completeRun id runId patch, db, done⟩ :: past) =
        if id = id' then some patch else none := rfl
  have mirror : RunStep (⟨i, .completeRun id runId patch, db, done⟩ :: past)
      ⟨i, .mirrorRun id patch, db', (ReportLabel.mirrorRun id patch).act db'⟩ := by
    refine ⟨ReportLabel.does_act rfl db', by simp, by simp, fun id' patch' label => ?_,
      fun id' patch' is => ?_⟩
    · obtain ⟨rfl, rfl⟩ := ReportLabel.mirrorRun.inj label
      rw [pend, if_pos rfl]
    · rw [pend] at is
      split at is
      · rename_i same
        obtain rfl := Option.some.inj is
        rw [same]
      · exact nomatch is
  refine ⟨mirror, fun db'' => ?_⟩
  have rest : Idle (⟨i, .mirrorRun id patch, db', (ReportLabel.mirrorRun id patch).act db'⟩ ::
      ⟨i, .completeRun id runId patch, db, done⟩ :: past) := fun _ => rfl
  exact RunStep.of_off rest rfl rfl

theorem keeps_addRun {k : ObjectId → ReportM A} (id : ObjectId) (record : ObjectId → RunRecord)
    (named : ∀ runId, (record runId).id = runId) (keeps : ∀ runId, KeepsRuns i (k runId)) :
    KeepsRuns i (do
      let runId ← call .mint fun db => (⟨db.nextId⟩ : ObjectId)
      call (.addRun id (record runId)) fun _ => ()
      k runId) := by
  intro past idle db
  refine ⟨(RunStep.of_off idle (ReportLabel.does_act rfl db) rfl).1, fun db' => ?_⟩
  have added : RunStep (⟨i, .mint, db, ReportLabel.mint.act db⟩ :: past)
      ⟨i, .addRun id (record ⟨db.nextId⟩), db', (ReportLabel.addRun id (record ⟨db.nextId⟩)).act db'⟩ := by
    refine ⟨ReportLabel.does_act rfl db', by simp, fun id' run label => ?_, by simp, by simp [pending_cons]⟩
    obtain ⟨-, rfl⟩ := ReportLabel.addRun.inj label
    rw [named]
    rfl
  exact ⟨added, keeps _ _ fun _ => rfl⟩

variable (config : ReportConfig)

theorem keeps_run (req : RunRequest) : KeepsRuns i (run config req) := by
  refine KeepsRuns.bind (keeps_looks (looks_patchedFilters config _)) fun overrides => ?_
  refine KeepsRuns.bind (keeps_looks (looks_checkedFormat _)) fun wanted => ?_
  refine KeepsRuns.bind (keeps_look _) fun found => ?_
  cases found with
  | none => exact KeepsRuns.throw _
  | some report =>
      refine keeps_addRun req.reportId (fun runId => req.record runId _ overrides) (fun _ => rfl)
        fun runId => ?_
      have queued (job : ReportJob) (slot : Option Int) : KeepsRuns i
          (call (.enqueue job slot) fun db => db.services.queueRefuses) :=
        Prog.Guides.bind (Prog.Guides.update fun past db idle =>
          RunStep.of_off idle (ReportLabel.does_act rfl db) rfl) fun _ =>
            Prog.Guides.done fun _ idle => idle
      refine KeepsRuns.bind (queued _ _) fun refused => ?_
      cases refused with
      | none => exact KeepsRuns.pure _
      | some refused =>
          refine KeepsRuns.bind (keeps_look _) fun now => ?_
          exact KeepsRuns.bind (KeepsRuns.attempt (keeps_completeRun _ _ _)) fun _ => KeepsRuns.throw _

theorem keeps_generate (job : ReportJob) (report : Report) (t0 : Int) :
    KeepsRuns i (generate config job report t0) := by
  refine KeepsRuns.bind (keeps_look _) fun now => KeepsRuns.bind (keeps_completeRun _ _ _) fun _ => ?_
  refine KeepsRuns.bind (keeps_looks (looks_ask _)) fun execution => ?_
  refine KeepsRuns.bind (keeps_look _) fun startedAt => ?_
  refine KeepsRuns.bind (keeps_looks (looks_ask _)) fun out => ?_
  exact KeepsRuns.bind (keeps_look _) fun finished => keeps_completeRun _ _ _

theorem keeps_processBody (job : ReportJob) (t0 : Int) : KeepsRuns i (processBody config job t0) := by
  refine KeepsRuns.bind (keeps_look _) fun found => ?_
  cases found with
  | none => exact KeepsRuns.bind (keeps_look _) fun now => keeps_completeRun _ _ _
  | some report =>
      refine KeepsRuns.bind (keeps_looks (looks_ownerMayRun job report)) fun may => ?_
      refine KeepsRuns.ite (keeps_generate config job report t0) ?_
      exact KeepsRuns.bind (keeps_look _) fun now => keeps_completeRun _ _ _

theorem keeps_processRun (job : ReportJob) : KeepsRuns i (processRun config job) := by
  refine KeepsRuns.bind (keeps_look _) fun t0 => ?_
  refine KeepsRuns.bind (KeepsRuns.attempt (keeps_processBody config job t0)) fun result => ?_
  cases result with
  | ok u => exact KeepsRuns.pure _
  | error e => exact KeepsRuns.bind (keeps_look _) fun now => keeps_completeRun _ _ _

theorem keeps_handleAnalyticsJob (job : ReportJob) : KeepsRuns i (handleAnalyticsJob config job) := by
  refine KeepsRuns.bind (keeps_look _) fun active => ?_
  refine KeepsRuns.ite (keeps_processRun config job) ?_
  exact KeepsRuns.bind (keeps_look _) fun now => keeps_completeRun _ _ _

/-- A request of a run, or the delivery of its job. -/
def ReportCall.aboutRuns : ReportCall → Prop
  | .run _ | .processRun _ | .handleAnalyticsJob _ => True
  | _ => False

theorem keeps_program (call : ReportCall) (about : call.aboutRuns) :
    KeepsRuns i (call.program config) := by
  cases call with
  | run req => exact KeepsRuns.bind (keeps_run config _) fun _ => KeepsRuns.pure _
  | processRun job => exact keeps_processRun config job
  | handleAnalyticsJob job => exact keeps_handleAnalyticsJob config job
  | _ => exact about.elim

end Programs

/-! ## Runs -/

/-- A store whose run records are in order: each run is stored once, under an id that was drawn, and
`lastRun` is the newest. -/
structure RunsStored (db : ReportDb) : Prop where
  stored : Stored db
  unique : ∀ r ∈ db.reports, (r.runs.map RunRecord.id).Nodup
  drawn : ∀ id, db.Holds id → id.value < db.nextId
  mirrors : ∀ r ∈ db.reports, r.Mirrors

structure RecordInv (w : ReportWorld) : Prop where
  ids : RunIds w
  ended : AtEach Orderly w.trace → ∀ d ∈ w.trace, KeepsEnded d.before w.store
  accorded : AtEach Orderly w.trace → Accorded w

theorem RecordInv.push {w : ReportWorld} {e : ReportEvent} (inv : RecordInv w)
    (step : RunStep (w.own e.tid) e) (before : e.before = w.store) : RecordInv (w.push e) := by
  refine ⟨inv.ids.push step before, fun orderly d mem => ?_, fun orderly =>
    (inv.accorded orderly.tail).push inv.ids step before orderly.head⟩
  have earlier (db : ReportDb) (keeps : KeepsEnded db w.store) (seen : ∀ id, db.Holds id → Seen w id) :
      KeepsEnded db e.after :=
    keeps.push inv.ids seen step before orderly.head
  rcases List.mem_cons.mp mem with rfl | old
  · rw [before]
    refine earlier _ (fun r mem x inRuns _ r' mem' same x' inRuns' sameRun => ?_) fun id => .inl
    rw [inv.ids.eq_of_id mem mem' same inRuns inRuns' sameRun]
  · exact earlier _ (inv.ended orderly.tail d old) fun id held => .inr ⟨d, old, held⟩

section Runs

variable {config : ReportConfig} {made : ReportCall → Prop} {s₀ : ReportDb}
  {c : Config Nat ReportLabel ReportDb (Except ReportFailure Unit)}

/-- Where completions are of the newest run of their report, which has not ended, and nothing is
written to the report between the two updates of a completion, the run records stay true: in every
run of any requests and deliveries. -/
theorem run_records_stay_true (stored : RunsStored s₀) (about : ∀ call, made call → call.aboutRuns)
    (reach : (reportSystem config made).Reach s₀ c) (orderly : AtEach Orderly c.world.trace) :
    RunsTrue c.world := by
  have start : ∀ i p, (reportSystem config made).start i p →
      p.Guided i RunStep (fun _ _ => True) [] := by
    rintro i p ⟨call, may, rfl⟩
    exact (keeps_program config call (about call may) [] fun _ => rfl).post fun _ _ _ => trivial
  have seen {s : ReportDb} {id : ObjectId} (is : Seen { store := s, trace := [] } id) : s.Holds id := by
    rcases is with now | ⟨_, mem, -⟩
    · exact now
    · exact nomatch mem
  have inv : RecordInv c.world := by
    refine (reach.guided start ?_ ?_ ?_).1
    · refine ⟨⟨stored.stored, stored.unique, fun id is => stored.drawn id (seen is), ?_, ?_⟩,
        (fun _ _ mem => nomatch mem), fun _ r mem => ⟨fun _ => stored.mirrors r mem, ?_⟩⟩
      · exact fun _ _ none => nomatch none
      · exact fun _ _ _ none => nomatch none
      · exact fun _ _ none => nomatch none
    · rintro w s' inv ⟨clock, services, rfl⟩
      exact ⟨⟨⟨inv.ids.stored.ids, inv.ids.stored.drawn⟩, inv.ids.unique, inv.ids.drawn,
        inv.ids.fresh, inv.ids.apart⟩, inv.ended, inv.accorded⟩
    · exact fun w e inv step before _ => inv.push step before
  exact ⟨fun r mem none => (inv.accorded orderly r mem).settled none, inv.ended orderly⟩

end Runs

namespace TwoRuns

open DailyReport (Run store)

abbrev Reached (c : Run) : Prop :=
  Reach (reportSystem DailyReport.config ReportCall.aboutRuns) store c

theorem Reached.call {c : Run} (reached : Reached c) (i : Nat) (call : ReportCall)
    (about : call.aboutRuns) (fresh : (c.pool i).isNone = true) (steps : Nat) :
    Reached (DailyReport.call i call steps c) :=
  Reach.begin (fun _ _ _ => trivial) reached fresh ⟨call, about, rfl⟩ steps

theorem stored : RunsStored store := by
  refine ⟨DailyReport.stored, by decide, ?_, ?_⟩
  · rintro id ⟨r, mem, x, inRuns, rfl⟩
    obtain rfl := List.mem_singleton.mp mem
    exact nomatch inRuns
  · intro r mem x newest
    obtain rfl := List.mem_singleton.mp mem
    exact nomatch newest

/-- A run that a user asks for. -/
def request : ReportCall := .run { tenantId := "t1", reportId := ⟨1⟩ }

def job (runId : Nat) : ReportJob where
  tenantId := "t1"
  reportId := ⟨1⟩
  runId := ⟨runId⟩
  format := .csv
  filters := none
  triggeredBy := .manual
  runBy := none

def older : Run :=
  DailyReport.call 2 (.processRun (job 2)) 20 (DailyReport.call 1 request 20
    (DailyReport.call 0 request 20 (.idle store)))

/-- A run is requested and processed. -/
def single : Run :=
  DailyReport.call 1 (.processRun (job 2)) 20 (DailyReport.call 0 request 20 (.idle store))

theorem reached_older : Reached older :=
  Reached.call (Reached.call (Reached.call .init 0 request trivial rfl 20) 1 request trivial
    (by decide +kernel) 20) 2 (.processRun (job 2)) trivial (by decide +kernel) 20

theorem reached_single : Reached single :=
  Reached.call (Reached.call .init 0 request trivial rfl 20) 1 (.processRun (job 2)) trivial
    (by decide +kernel) 20

def nonePending (id : ObjectId) (apart : Nat → Bool) (trace : List ReportEvent) : Bool :=
  trace.all fun d => apart d.tid || (pending id (ownIn trace d.tid)).isNone

theorem none_of_nonePending {id : ObjectId} (apart : Nat → Bool) {trace : List ReportEvent}
    (check : nonePending id apart trace = true) (i : Nat) (other : apart i = false) :
    pending id (ownIn trace i) = none := by
  cases own : ownIn trace i with
  | nil => rfl
  | cons d rest =>
      have inOwn : d ∈ ownIn trace i := own ▸ List.mem_cons_self ..
      obtain ⟨mem, is⟩ := List.mem_filter.mp inOwn
      obtain rfl : d.tid = i := by simpa using is
      have none := List.all_eq_true.mp check d mem
      rw [other, Bool.false_or, Option.isNone_iff_eq_none] at none
      rw [← own, none]

/-- `Orderly` as it is computed. -/
def isOrderly (earlier : List ReportEvent) (e : ReportEvent) : Bool :=
  match e.label with
  | .completeRun id runId _ => e.before.reports.all fun r => r.id ≠ id || (r.live &&
      r.runs.getLast?.any (fun x => x.id = runId && !x.fields.status.final) &&
      nonePending id (fun j => j = e.tid) earlier)
  | .addRun id _ => nonePending id (fun j => j = e.tid) earlier
  | _ => true

theorem orderly_of_isOrderly (earlier : List ReportEvent) (e : ReportEvent)
    (is : isOrderly earlier e = true) : Orderly earlier e := by
  constructor
  · rintro id runId patch label r mem rfl
    simp only [isOrderly, label] at is
    have inOrder := List.all_eq_true.mp is r mem
    simp only [ne_eq, not_true_eq_false, decide_false, Bool.false_or, Bool.and_eq_true] at inOrder
    obtain ⟨⟨live, newest⟩, none⟩ := inOrder
    refine ⟨live, ?_, fun j other => none_of_nonePending _ none j (by simp [other])⟩
    obtain ⟨x, last, is⟩ := (Option.any_eq_true _ _).mp newest
    simp only [Bool.and_eq_true, decide_eq_true_eq, Bool.not_eq_true'] at is
    exact ⟨x, last, is⟩
  · intro id run label _ j other
    simp only [isOrderly, label] at is
    exact none_of_nonePending _ is j (by simp [other])

end TwoRuns

open TwoRuns in
/-- A run that is processed after a newer one was requested is mirrored over it. -/
theorem older_run_mirrored : ¬ ∀ (config : ReportConfig) (made : ReportCall → Prop) (s₀ : ReportDb)
    (c : Config Nat ReportLabel ReportDb (Except ReportFailure Unit)),
    RunsStored s₀ → (∀ call, made call → call.aboutRuns) → (reportSystem config made).Reach s₀ c →
      RunsTrue c.world := by
  intro all
  have true' := all DailyReport.config _ _ older stored (fun _ about => about) reached_older
  have none : ∀ i, pending ⟨1⟩ (older.world.own i) = none := fun i =>
    none_of_nonePending (fun _ => false) (by decide +kernel) i rfl
  have wrong : older.world.store.reports.all (fun r => r.id = ⟨1⟩ && r.runs.getLast?.any fun x =>
      r.lastRun.status ≠ x.fields.status) = true := by decide +kernel
  have one : older.world.store.reports.length = 1 := by decide +kernel
  obtain ⟨r, is⟩ := List.length_eq_one_iff.mp one
  have mem : r ∈ older.world.store.reports := is ▸ List.mem_singleton_self r
  have differs := List.all_eq_true.mp wrong r mem
  simp only [Bool.and_eq_true, decide_eq_true_eq] at differs
  obtain ⟨ofId, differs⟩ := differs
  obtain ⟨x, newest, ne⟩ := (Option.any_eq_true _ _).mp differs
  have same := true'.mirrors r mem (by rw [ofId]; exact none) x newest
  rw [same] at ne
  simp at ne

open TwoRuns in
/-- A run that is requested and processed. -/
theorem run_records_stay_true_single :
    single.world.store.reports.all (fun r => r.lastRun.status = .ready) = true ∧
      RunsTrue single.world :=
  ⟨by decide +kernel, run_records_stay_true stored (fun _ about => about) reached_single
    (.of_check orderly_of_isOrderly (by decide +kernel))⟩

end AnalyticsBackend.Reports
