import AnalyticsBackend.Reports.Scheduler

/-!
# What the calls of the report service do

For each program the steps it may take, whatever it finds.
-/

namespace AnalyticsBackend.Reports
open Lib Mongo Analytics Usage

/-! ## Steps -/

abbrev ReportEvent := Event Nat ReportLabel ReportDb

abbrev ReportWorld := World Nat ReportLabel ReportDb

/-- What a step makes of the store: what its label says, or other usage counters. -/
def ReportLabel.Does (label : ReportLabel) (db db' : ReportDb) : Prop :=
  if label.onCounters then ∃ usage, db' = { db with usage } else db' = label.act db

theorem ReportLabel.Does.cases {label : ReportLabel} {db db' : ReportDb} (does : label.Does db db') :
    (∃ usage, db' = { db with usage }) ∨ db' = label.act db := by
  unfold ReportLabel.Does at does
  split at does
  · exact .inl does
  · exact .inr does

theorem ReportLabel.does_act {label : ReportLabel} (plain : label.onCounters = false) (db : ReportDb) :
    label.Does db (label.act db) := by
  simp [ReportLabel.Does, plain]

/-- Every step of the program is under a label that `ok` allows, and does what the label says. -/
def Steps {A : Type} (ok : ReportLabel → Prop) (p : ReportM A) : Prop :=
  p.run.Each fun label act => ok label ∧ ∀ db, label.Does db (act db)

section Rules

variable {A B : Type} {ok ok' : ReportLabel → Prop}

theorem Steps.mono {p : ReportM A} (steps : Steps ok p) (weaker : ∀ label, ok label → ok' label) :
    Steps ok' p :=
  Prog.Each.mono steps fun label _ h => ⟨weaker label h.1, h.2⟩

theorem Steps.pure (a : A) : Steps ok (Pure.pure a : ReportM A) := trivial

theorem Steps.throw (e : ReportFailure) : Steps ok (MonadExcept.throw e : ReportM A) := trivial

theorem Steps.bind {p : ReportM B} {k : B → ReportM A} (first : Steps ok p)
    (second : ∀ b, Steps ok (k b)) : Steps ok (p >>= k) := by
  refine Prog.Each.bind first fun result => ?_
  cases result with
  | ok b => exact second b
  | error e => trivial

theorem Steps.attempt {p : ReportM A} (steps : Steps ok p) : Steps ok (Reports.attempt p) :=
  Prog.Each.bind steps fun _ => trivial

theorem Steps.ite {c : Prop} {_ : Decidable c} {p q : ReportM A} (yes : Steps ok p)
    (no : Steps ok q) : Steps ok (if c then p else q) := by
  by_cases h : c
  · rwa [if_pos h]
  · rwa [if_neg h]

theorem Steps.call {label : ReportLabel} {report : ReportDb → A} (may : ok label)
    (plain : label.onCounters = false) : Steps ok (Reports.call label report) :=
  ⟨⟨may, label.does_act plain⟩, fun _ => trivial⟩

theorem Steps.look {f : ReportDb → A} (may : ok .look) : Steps ok (Reports.look f) :=
  Steps.call may rfl

theorem Steps.onUsage {wrap : UsageLabel → ReportLabel} {p : UsageProg A} (may : ∀ l, ok (wrap l))
    (counts : ∀ l, (wrap l).onCounters = true) : Steps ok (Reports.onUsage wrap p) := by
  refine Prog.Each.bind ?_ fun _ => trivial
  induction p with
  | done a => trivial
  | step label act next ih =>
      refine ⟨⟨may label, fun db => ?_⟩, fun db => ih db.usage⟩
      rw [ReportLabel.Does, if_pos (counts label)]
      exact ⟨_, rfl⟩

theorem Steps.guides {i : Nat} {Φ : List ReportEvent → ReportEvent → Prop}
    {P : List ReportEvent → Prop} {p : ReportM A} (steps : Steps ok p)
    (keeps : ∀ past e, ok e.label → e.label.Does e.before e.after → P past →
      Φ past e ∧ P (e :: past)) :
    Prog.Guides i Φ P p.run fun _ => P := by
  have each : ∀ {X : Type} {q : ReportProg X},
      (q.Each fun label act => ok label ∧ ∀ db, label.Does db (act db)) →
      Prog.Guides i Φ P q fun _ => P := by
    intro X q each
    induction q with
    | done a => exact fun past holds => holds
    | step label act next ih =>
        intro past holds db
        obtain ⟨may, holds'⟩ := keeps past ⟨i, label, db, act db⟩ each.1.1 (each.1.2 db) holds
        exact ⟨may, ih db (each.2 db) _ holds'⟩
  exact each steps

end Rules

-- From here on programs are reasoned about by the rules alone.
attribute [local irreducible] Prog.Each

/-! ## Programs that look -/

/-- A step that changes nothing. -/
def Looks (label : ReportLabel) : Prop := label = .look

section Looks

variable {A : Type} (config : ReportConfig)

theorem looks_look (f : ReportDb → A) : Steps Looks (look f) := .look rfl

theorem looks_checked (result : Except ApiError A) : Steps Looks (checked result) := by
  cases result with
  | ok a => exact .pure a
  | error e => exact .throw _

theorem looks_validateRecipient (tenantId : String) (r : Recipient) :
    Steps Looks (validateRecipient tenantId r) := by
  unfold validateRecipient
  cases r.type with
  | user =>
      dsimp only
      refine .ite (.bind (looks_look _) fun member => ?_) (.throw _)
      exact .ite (.pure _) (.throw _)
  | external =>
      dsimp only
      exact .ite (.pure _) (.throw _)

theorem looks_validateRecipients (tenantId : String) (recipients : List Recipient) :
    Steps Looks (validateRecipients tenantId recipients) := by
  induction recipients with
  | nil => exact .pure _
  | cons r rest ih =>
      refine .bind (looks_validateRecipient tenantId r) fun valid => ?_
      exact .bind ih fun _ => .pure _

theorem looks_assertDestinationsOwned (tenantId : String) (ids : List String) (field : String) :
    Steps Looks (assertDestinationsOwned tenantId ids field) := by
  unfold assertDestinationsOwned
  dsimp only
  refine .ite (.throw _) (.ite (.pure _) (.bind (looks_look _) fun owned => ?_))
  exact .ite (.pure _) (.throw _)

theorem looks_validateScheduleDelivery (tenantId : String) (schedule : Schedule) :
    Steps Looks (validateScheduleDelivery config tenantId schedule) := by
  refine .ite (.throw _) (.bind (looks_validateRecipients _ _) fun _ => ?_)
  exact .bind (looks_assertDestinationsOwned _ _ _) fun _ => .pure _

theorem looks_effectiveScheduleTimezone (tenantId : String) (schedule : Schedule) :
    Steps Looks (effectiveScheduleTimezone config tenantId schedule) := by
  unfold effectiveScheduleTimezone
  cases schedule.ownZone with
  | none => exact looks_look _
  | some name => exact .pure _

theorem looks_projectNextRun (tenantId : String) (schedule : Schedule) (start : Int) :
    Steps Looks (projectNextRun config tenantId schedule start) := by
  refine .ite (.pure _) (.bind (looks_effectiveScheduleTimezone config _ _) fun tz => ?_)
  cases nextCronDate config.zones schedule.effectiveCron start tz with
  | ok next => exact .pure _
  | error e => exact .throw _

theorem looks_checkedQuery (tenantId : String) (query : Js) :
    Steps Looks (checkedQuery config tenantId query) := by
  refine .bind (looks_checked _) fun sanitized => .bind (looks_look _) fun refused => ?_
  cases refused with
  | none => exact .pure _
  | some e => exact .throw _

theorem looks_sourceQuery (req : CreateReport) (source : ReportSource) :
    Steps Looks (sourceQuery config req source) := by
  unfold sourceQuery
  cases source with
  | widget => exact .ite (.throw _) (.pure _)
  | query =>
      cases req.query with
      | none => exact .throw _
      | some query =>
          exact .ite (.throw _) (.bind (looks_checkedQuery config _ _) fun _ => .pure _)

theorem looks_checkedText (ofText : String → Option A) (message : String) (value : Option String) :
    Steps Looks (checkedText ofText message value) := by
  unfold checkedText
  cases value with
  | none => exact .pure _
  | some text =>
      dsimp only
      cases ofText text with
      | none => exact .throw _
      | some a => exact .pure _

theorem looks_checkedName (value : Option String) : Steps Looks (checkedName value) := by
  unfold checkedName
  cases value with
  | none => exact .pure _
  | some name => exact .ite (.throw _) (.pure _)

theorem looks_patchedWidget (existing : Report) (source : Option ReportSource)
    (patch : UpdatePatch) : Steps Looks (patchedWidget existing source patch) :=
  .ite (.ite (.throw _) (.pure _)) (.pure _)

theorem looks_patchedQuery (tenantId : String) (query : Option Js) :
    Steps Looks (patchedQuery config tenantId query) := by
  unfold patchedQuery
  cases query with
  | none => exact .pure _
  | some query => exact .ite (.throw _) (.bind (looks_checkedQuery config _ _) fun _ => .pure _)

theorem looks_patchedFilters (filters : Option Js) :
    Steps Looks (patchedFilters config filters) := by
  unfold patchedFilters
  cases filters with
  | none => exact .pure _
  | some filters => exact .bind (looks_checked _) fun _ => .pure _

theorem looks_patchedSchedule (existing : Report) (format : Option ReportFormat)
    (req : UpdateReport) : Steps Looks (patchedSchedule config existing format req) := by
  unfold patchedSchedule
  cases req.patch.schedule with
  | none => exact .pure _
  | some patch =>
      refine .bind (looks_look _) fun now => .bind (looks_checked _) fun sanitized => ?_
      refine .bind (looks_validateScheduleDelivery config _ _) fun schedule => ?_
      refine .bind (looks_look _) fun start => ?_
      exact .bind (looks_projectNextRun config _ _ _) fun _ => .pure _

theorem looks_updatesOf (existing : Report) (req : UpdateReport) :
    Steps Looks (updatesOf config existing req) := by
  refine .bind (looks_checkedName _) fun name => .bind (looks_checkedText _ _ _) fun status => ?_
  refine .bind (looks_checkedText _ _ _) fun source => ?_
  refine .bind (looks_patchedWidget _ _ _) fun widget => ?_
  refine .bind (looks_patchedQuery config _ _) fun query => ?_
  refine .bind (looks_checkedText _ _ _) fun format => ?_
  refine .bind (looks_patchedFilters config _) fun filters => ?_
  exact .bind (looks_patchedSchedule config _ _ _) fun _ => .pure _

theorem looks_checkedFormat (format : Option String) : Steps Looks (checkedFormat format) := by
  unfold checkedFormat
  cases format with
  | none => exact .pure _
  | some text =>
      dsimp only
      cases ReportFormat.ofText text with
      | none => exact .throw _
      | some format => exact .pure _

theorem looks_ask (f : ReportDb → Except ReportFailure A) : Steps Looks (ask f) := by
  refine .bind (looks_look _) fun result => ?_
  cases result with
  | ok a => exact .pure _
  | error e => exact .throw _

theorem looks_ownerMayRun (job : ReportJob) (report : Report) :
    Steps Looks (ownerMayRun job report) := by
  unfold ownerMayRun
  dsimp only
  cases report.ownerId.or report.createdBy with
  | none => exact .pure _
  | some ownerId => exact .ite (looks_look _) (.pure _)

theorem looks_workspaceZone (memo : ScanMemo) (tenantId : String) :
    Steps Looks (workspaceZone memo tenantId) := by
  unfold workspaceZone
  cases memo.zones.lookup tenantId with
  | none => exact .bind (looks_look _) fun _ => .pure _
  | some tz => exact .pure _

theorem looks_isActive (memo : ScanMemo) (tenantId : String) :
    Steps Looks (isActive memo tenantId) := by
  unfold isActive
  cases memo.active.lookup tenantId with
  | none => exact .bind (looks_look _) fun _ => .pure _
  | some active => exact .pure _

theorem looks_isEntitled (memo : ScanMemo) (tenantId : String) :
    Steps Looks (isEntitled memo tenantId) := by
  unfold isEntitled
  cases memo.entitled.lookup tenantId with
  | none => exact .bind (looks_look _) fun _ => .pure _
  | some entitled => exact .pure _

end Looks

/-! ## Programs that write -/

/-- The steps of a `reportRepository.update`. -/
inductive Updates (id : ObjectId) (set : ReportSet) : ReportLabel → Prop where
  | look : Updates id set .look
  | update : Updates id set (.update id set)
  | clearBroken (other : ObjectId) : Updates id set (.clearBroken other)

theorem Looks.updates {id : ObjectId} {set : ReportSet} {label : ReportLabel} (looks : Looks label) :
    Updates id set label :=
  looks ▸ .look

theorem looks_refuseEnablingWhileBroken (id : ObjectId) (set : ReportSet) :
    Steps Looks (refuseEnablingWhileBroken id set) := by
  refine .ite (.bind (looks_look _) fun current => ?_) (.pure _)
  cases current with
  | none => exact .pure _
  | some current =>
      dsimp only
      cases current.broken with
      | none => exact .pure _
      | some broken => exact .ite (.pure _) (.throw _)

theorem updates_repairWhenReferenceChanges (id : ObjectId) (set : ReportSet) (doc : Report) :
    Steps (Updates id set) (repairWhenReferenceChanges set doc) := by
  unfold repairWhenReferenceChanges
  cases doc.broken with
  | none => exact .pure _
  | some broken => exact .ite (.pure _) (.call (.clearBroken _) rfl)

theorem updates_updateReport (id : ObjectId) (set : ReportSet) :
    Steps (Updates id set) (updateReport id set) := by
  refine .bind ((looks_refuseEnablingWhileBroken id set).mono fun _ => Looks.updates) fun _ => ?_
  refine .bind (.call .update rfl) fun row => ?_
  cases row with
  | none => exact .pure _
  | some doc => exact .bind (updates_repairWhenReferenceChanges id set doc) fun _ => .pure _

theorem updates_applyUpdate (id : ObjectId) (set : ReportSet) :
    Steps (Updates id set) (applyUpdate id set) := by
  refine .bind (updates_updateReport id set) fun row => ?_
  cases row with
  | none => exact .throw _
  | some doc => exact .pure _

inductive Completes (id runId : ObjectId) : ReportLabel → Prop where
  | look : Completes id runId .look
  | completeRun (patch : RunPatch) : Completes id runId (.completeRun id runId patch)
  | mirrorRun (patch : RunPatch) : Completes id runId (.mirrorRun id patch)

theorem Looks.completes {id runId : ObjectId} {label : ReportLabel} (looks : Looks label) :
    Completes id runId label :=
  looks ▸ .look

theorem completes_completeRun (id runId : ObjectId) (patch : RunPatch) :
    Steps (Completes id runId) (completeRun id runId patch) := by
  refine .bind (.call (.completeRun patch) rfl) fun _ => ?_
  exact .bind (.call (.mirrorRun patch) rfl) fun _ => .look .look

section Worker

variable (config : ReportConfig)

theorem completes_generate (job : ReportJob) (report : Report) (t0 : Int) :
    Steps (Completes job.reportId job.runId) (generate config job report t0) := by
  refine .bind (.look .look) fun now => .bind (completes_completeRun _ _ _) fun _ => ?_
  refine .bind ((looks_ask _).mono fun _ => Looks.completes) fun execution => ?_
  refine .bind (.look .look) fun startedAt => ?_
  refine .bind ((looks_ask _).mono fun _ => Looks.completes) fun out => ?_
  exact .bind (.look .look) fun finished => completes_completeRun _ _ _

theorem completes_processBody (job : ReportJob) (t0 : Int) :
    Steps (Completes job.reportId job.runId) (processBody config job t0) := by
  refine .bind (.look .look) fun found => ?_
  cases found with
  | none => exact .bind (.look .look) fun now => completes_completeRun _ _ _
  | some report =>
      refine .bind ((looks_ownerMayRun job report).mono fun _ => Looks.completes) fun may => ?_
      refine .ite (completes_generate config job report t0) ?_
      exact .bind (.look .look) fun now => completes_completeRun _ _ _

theorem completes_processRun (job : ReportJob) :
    Steps (Completes job.reportId job.runId) (processRun config job) := by
  refine .bind (.look .look) fun t0 => ?_
  refine .bind (.attempt (completes_processBody config job t0)) fun result => ?_
  cases result with
  | ok u => exact .pure _
  | error e => exact .bind (.look .look) fun now => completes_completeRun _ _ _

theorem completes_handleAnalyticsJob (job : ReportJob) :
    Steps (Completes job.reportId job.runId) (handleAnalyticsJob config job) := by
  refine .bind (.look .look) fun active => ?_
  refine .ite (completes_processRun config job) ?_
  exact .bind (.look .look) fun now => completes_completeRun _ _ _

end Worker

inductive Counts : ReportLabel → Prop where
  | look : Counts .look
  | consume (metric : UsageMetric) (l : UsageLabel) : Counts (.consume metric l)
  | release (metric : UsageMetric) (l : UsageLabel) : Counts (.release metric l)

theorem counts_consumeQuota (tenantId : String) (by' : Option String)
    (metrics consumed : List UsageMetric) :
    Steps Counts (consumeQuota tenantId by' metrics consumed) := by
  induction metrics generalizing consumed with
  | nil => exact .pure _
  | cons metric rest ih =>
      refine .bind (.look .look) fun ent => .bind (.look .look) fun now => ?_
      refine .bind (.onUsage (.consume metric) fun _ => rfl) fun result => ?_
      cases result with
      | ok _ => exact ih _
      | error e => exact .pure _

theorem counts_releaseQuota (tenantId : String) (metric : UsageMetric) (by' : Option String) :
    Steps Counts (releaseQuota tenantId metric by') := by
  refine .bind (.look .look) fun now => ?_
  exact .bind (.onUsage (.release metric) fun _ => rfl) fun _ => .pure _

theorem counts_releaseConsumed (tenantId : String) (by' : Option String)
    (metrics : List UsageMetric) : Steps Counts (releaseConsumed tenantId by' metrics) := by
  induction metrics with
  | nil => exact .pure _
  | cons metric rest ih => exact .bind (counts_releaseQuota _ _ _) fun _ => ih

theorem steps_withQuota {A : Type} {ok : ReportLabel → Prop} (counts : ∀ label, Counts label → ok label)
    {tenantId : String} {metrics : List UsageMetric} {by' : Option String} {fn : ReportM A}
    (steps : Steps ok fn) : Steps ok (withQuota tenantId metrics by' fn) := by
  refine .bind ((counts_consumeQuota _ _ _ _).mono counts) fun result => ?_
  obtain ⟨consumed, refused⟩ := result
  cases refused with
  | some e => exact .bind ((counts_releaseConsumed _ _ _).mono counts) fun _ => .throw _
  | none =>
      refine .bind (.attempt steps) fun result => ?_
      cases result with
      | ok a => exact .pure _
      | error e => exact .bind ((counts_releaseConsumed _ _ _).mono counts) fun _ => .throw _

/-! ## The calls -/

/-- A step on the usage counters, a look, or the insert of a report. -/
def Creates (label : ReportLabel) : Prop := Counts label ∨ ∃ report, label = .create report

/-- A step on the usage counters, or of an update. -/
def Patches (label : ReportLabel) : Prop := Counts label ∨ ∃ id set, Updates id set label

/-- A step on the usage counters, or of a soft delete. -/
def Removes (label : ReportLabel) : Prop :=
  Counts label ∨ ∃ id version by' now, label = .softDelete id version by' now

theorem Looks.counts {label : ReportLabel} (looks : Looks label) : Counts label := looks ▸ .look

section Calls

variable (config : ReportConfig)

theorem creates_create (req : CreateReport) : Steps Creates (create config req) := by
  have looks {A : Type} {p : ReportM A} (steps : Steps Looks p) : Steps Creates p :=
    steps.mono fun _ looks => .inl looks.counts
  unfold create
  refine .ite (.throw _) ?_
  split
  · exact .throw _
  · exact .throw _
  · refine .bind (looks (looks_sourceQuery config _ _)) fun query => ?_
    refine .bind (looks (looks_look _)) fun now => .bind (looks (looks_checked _)) fun sanitized => ?_
    refine .bind (looks (looks_validateScheduleDelivery config _ _)) fun schedule => ?_
    refine .bind (looks (looks_checked _)) fun filters => .bind (looks (looks_look _)) fun start => ?_
    refine .bind (looks (looks_projectNextRun config _ _ _)) fun next => ?_
    exact steps_withQuota (fun _ => .inl) (.call (.inr ⟨_, rfl⟩) rfl)

theorem patches_update (req : UpdateReport) : Steps Patches (update config req) := by
  have looks {A : Type} {p : ReportM A} (steps : Steps Looks p) : Steps Patches p :=
    steps.mono fun _ looks => .inl looks.counts
  have applies (updates : ReportSet) : Steps Patches (applyUpdate req.reportId updates) :=
    (updates_applyUpdate _ _).mono fun _ is => .inr ⟨_, _, is⟩
  unfold update
  refine .bind (looks (looks_look _)) fun found => ?_
  cases found with
  | none => exact .throw _
  | some existing =>
      refine .bind (looks (looks_updatesOf config existing req)) fun changes => ?_
      refine .ite (.pure _) (.ite (steps_withQuota (fun _ => .inl) (applies _)) ?_)
      refine .bind (applies _) fun _ => .ite ?_ (.pure _)
      exact (counts_releaseQuota _ _ _).mono fun _ => .inl

theorem removes_remove (tenantId : String) (reportId : ObjectId) (actorId : Option String) :
    Steps Removes (remove tenantId reportId actorId) := by
  have counts {A : Type} {p : ReportM A} (steps : Steps Counts p) : Steps Removes p :=
    steps.mono fun _ => .inl
  unfold remove
  refine .bind (counts (.look .look)) fun found => ?_
  cases found with
  | none => exact .throw _
  | some existing =>
      refine .bind ?_ fun removed => .ite ?_ (.throw _)
      · refine .bind (counts (.look .look)) fun doc => ?_
        cases doc with
        | none => exact .pure _
        | some doc =>
            refine .bind (counts (.look .look)) fun now => ?_
            refine .bind (.call (.inr ⟨_, _, _, _, rfl⟩) rfl) fun done => ?_
            exact .ite (.pure _) (.throw _)
      · refine .bind (counts (counts_releaseQuota _ _ _)) fun _ => .ite ?_ (.pure _)
        exact counts (counts_releaseQuota _ _ _)

theorem patches_reprojectPage (tenantId : String) (now : Int) (docs : List Report) :
    Steps Patches (reprojectPage config tenantId now docs) := by
  induction docs with
  | nil => exact .pure _
  | cons r rest ih =>
      refine .bind (.attempt (.bind ?_ fun next => ?_)) fun _ => ih
      · exact (looks_projectNextRun config _ _ _).mono fun _ looks => .inl looks.counts
      · exact (updates_updateReport _ _).mono fun _ is => .inr ⟨_, _, is⟩

theorem patches_reprojectPages (tenantId : String) (now : Int) (pages page : Nat) :
    Steps Patches (reprojectPages config tenantId now pages page) := by
  induction pages generalizing page with
  | zero => exact .pure _
  | succ pages ih =>
      refine .bind (.look (.inl .look)) fun docs => .bind (.look (.inl .look)) fun total => ?_
      exact .bind (patches_reprojectPage config _ _ _) fun _ => .ite (.pure _) (ih _)

end Calls

end AnalyticsBackend.Reports
