import AnalyticsBackend.Analytics.Engine

/-!
# Row-level security is noninterference

What a query returns depends on the stored rows only through those that the actor's scope
permits: the leading match and the access stages come before any stage of the client.
-/

namespace AnalyticsBackend.Analytics

open Lib Lib.Mongo

/-- The rows a scope lets a tenant's query see: the tenant's own, not soft-deleted, permitted by
the grants and the row rules. -/
def AccessScope.visible (scope : AccessScope) (tenantId : String) (row : ConnectorRow) : Bool :=
  row.tenantId == tenantId && row.deletedAt.isNone && scope.permits row

def Options.clientStages (o : Options) : List Stage :=
  buildDateStages o.dateRange o.timezone ++ (buildFilterStages o.filters o.filtersOp ++
    o.filterGroups.flatMap fun g => buildFilterStages g.filters g.filtersOp)

theorem Options.selection_eq (o : Options) :
    o.selection = [.matching (buildBaseMatch o.tenantId o.connectorIds o.dateRange)] ++
      (buildAccessStages o.access ++ o.clientStages) := by
  simp only [selection, clientStages, List.append_assoc]

def Options.baseAdmits (o : Options) (server : Server) (row : ConnectorRow) : Bool :=
  match buildBaseMatch o.tenantId o.connectorIds o.dateRange with
  | .conditions conds => Predicate.meets server row.doc conds
  | .expr _ => false

theorem test_baseMatch (server : Server) (o : Options) (row : ConnectorRow) :
    (buildBaseMatch o.tenantId o.connectorIds o.dateRange).test server row.doc =
      .ok (o.baseAdmits server row) := rfl

theorem candidates_own (searchIndexed : Bool) (row : ConnectorRow) {name : String} {v : Value}
    (found : Doc.get row.doc name = some v) :
    candidates searchIndexed [name] (.obj row.doc) = leaves v := by
  simp [candidates, child, found]

theorem own_of_baseAdmits {server : Server} {o : Options} {row : ConnectorRow}
    (h : o.baseAdmits server row = true) :
    row.tenantId = o.tenantId ∧ row.deletedAt = none := by
  simp only [Options.baseAdmits, buildBaseMatch, Predicate.meets, List.all_append, List.all_cons,
    List.all_nil, Bool.and_true, Bool.and_eq_true] at h
  obtain ⟨⟨⟨tenant, alive⟩, -⟩, -⟩ := h
  rw [candidates_own _ row row.get_tenantId] at tenant
  rw [candidates_own _ row row.get_deletedAt] at alive
  constructor
  · simpa [Condition.holds, leaves, Condition.equal, Value.same_str] using tenant
  · cases deleted : row.deletedAt with
    | none => rfl
    | some t =>
        simp [deleted, Condition.holds, leaves, Condition.equal, Value.same_null] at alive

theorem run_selection (server : Server) (o : Options) {scope : AccessScope}
    (access : o.access = some scope) (store : List ConnectorRow) :
    runStages server o.selection (storeDocs store) =
      runStages server o.selection (storeDocs (store.filter (scope.visible o.tenantId))) := by
  have base := fun rows => run_matching (f := ConnectorRow.doc) (test_baseMatch server o) rows
  have kept : ((store.filter (scope.visible o.tenantId)).filter (o.baseAdmits server)).filter
      scope.permits = (store.filter (o.baseAdmits server)).filter scope.permits := by
    simp only [List.filter_filter]
    refine List.filter_congr fun row _ => ?_
    cases permitted : scope.permits row with
    | false => simp
    | true =>
        cases admitted : o.baseAdmits server row with
        | false => simp
        | true =>
            obtain ⟨tenant, alive⟩ := own_of_baseAdmits admitted
            simp [AccessScope.visible, tenant, alive, permitted]
  have leading : ∀ rows : List ConnectorRow,
      runStages server o.selection (storeDocs rows) =
        runStages server o.clientStages
          ((((rows.filter (o.baseAdmits server)).filter scope.permits)).map ConnectorRow.doc) := by
    intro rows
    rw [o.selection_eq, runStages_append, storeDocs, base, access]
    change runStages server _ _ = _
    rw [runStages_append, run_accessStages]
    rfl
  rw [leading store, leading (store.filter _), kept]

theorem aggregateFacet_congr {server : Server} {lead first second : List Stage}
    {docs other : List Doc} (same : runStages server lead docs = runStages server lead other) :
    aggregateFacet server lead first second docs =
      aggregateFacet server lead first second other := by
  simp only [aggregateFacet, same]

theorem aggregate_congr {server : Server} {lead rest : List Stage} {docs other : List Doc}
    (same : runStages server lead docs = runStages server lead other) :
    aggregate server (lead ++ rest) docs = aggregate server (lead ++ rest) other := by
  simp only [aggregate, runStages_append, same]

theorem buildQueryStages_lead {o : Options} {defs : MetricDefs} {stages : QueryStages}
    (built : buildQueryStages o defs = .ok stages) :
    ∃ pre, stages.lead = o.selection ++ pre := by
  unfold buildQueryStages at built
  split at built
  · cases grouped : buildGroupStages o.groupBy o.metrics o.timezone defs with
    | error e =>
        rw [grouped] at built
        exact nomatch built
    | ok g =>
        rw [grouped] at built
        obtain rfl := Except.ok.inj built
        exact ⟨g.pre, rfl⟩
  · obtain rfl := Except.ok.inj built
    exact ⟨[], (List.append_nil _).symm⟩

theorem run_lead (server : Server) {o : Options} {scope : AccessScope}
    (access : o.access = some scope) {defs : MetricDefs} {stages : QueryStages}
    (built : buildQueryStages o defs = .ok stages) (store : List ConnectorRow) :
    runStages server stages.lead (storeDocs store) =
      runStages server stages.lead (storeDocs (store.filter (scope.visible o.tenantId))) := by
  obtain ⟨pre, split⟩ := buildQueryStages_lead built
  rw [split, runStages_append, runStages_append, run_selection server o access]

theorem runPrepared_visible (server : Server) (rt : Runtime) (store : List ConnectorRow)
    {o : Options} {scope : AccessScope} (access : o.access = some scope) (window : Option Window)
    (timezone : String) (defs : MetricDefs) :
    runPrepared server rt store o window timezone defs =
      runPrepared server rt (store.filter (scope.visible o.tenantId)) o window timezone defs := by
  unfold runPrepared
  cases built : buildQueryStages o defs with
  | error e => rfl
  | ok stages =>
      have same : aggregateFacet server stages.lead (stages.rowsPipeline o) stages.totalPipeline _ =
          _ := aggregateFacet_congr (run_lead server access built store)
      simp only [liftApi, ok_bind, same]

@[simp] theorem previousOptions_access (o : Options) (field : String) (bounds : Int × Int)
    (rows : List Doc) : (previousOptions o field bounds rows).access = o.access := by
  unfold previousOptions
  dsimp only
  split
  · rfl
  · split
    · rfl
    · rfl

@[simp] theorem previousOptions_tenantId (o : Options) (field : String) (bounds : Int × Int)
    (rows : List Doc) : (previousOptions o field bounds rows).tenantId = o.tenantId := by
  unfold previousOptions
  dsimp only
  split
  · rfl
  · split
    · rfl
    · rfl

theorem runCompared_visible (server : Server) (rt : Runtime) (store : List ConnectorRow)
    {p : Prepared} {scope : AccessScope} (access : p.options.access = some scope)
    (type : CompareType) :
    runCompared server rt store p type =
      runCompared server rt (store.filter (scope.visible p.options.tenantId)) p type := by
  have current : ∀ window timezone defs,
      runPrepared server rt store { p.options with compare := none } window timezone defs =
        runPrepared server rt (store.filter (scope.visible p.options.tenantId))
          { p.options with compare := none } window timezone defs :=
    fun window timezone defs => runPrepared_visible server rt store access window timezone defs
  have previous : ∀ field bounds rows window timezone defs,
      runPrepared server rt store
          (previousOptions { p.options with compare := none } field bounds rows) window timezone
          defs =
        runPrepared server rt (store.filter (scope.visible p.options.tenantId))
          (previousOptions { p.options with compare := none } field bounds rows) window timezone
          defs := by
    intro field bounds rows window timezone defs
    have kept : (previousOptions { p.options with compare := none } field bounds rows).access =
        some scope := by
      rw [previousOptions_access]
      exact access
    have seen := runPrepared_visible server rt store kept window timezone defs
    rwa [previousOptions_tenantId] at seen
  unfold runCompared
  simp only [current, previous]

theorem runQuery_visible (server : Server) (rt : Runtime) (store : List ConnectorRow)
    {p : Prepared} {scope : AccessScope} (access : p.options.access = some scope) :
    runQuery server rt store p =
      runQuery server rt (store.filter (scope.visible p.options.tenantId)) p := by
  unfold runQuery
  split
  · exact runCompared_visible server rt store access _
  · exact runPrepared_visible server rt store access _ _ _

theorem streamPrepared_visible (server : Server) (rt : Runtime) (store : List ConnectorRow)
    {p : Prepared} {scope : AccessScope} (access : p.options.access = some scope)
    (maxColumns : Nat) :
    streamPrepared server rt store p maxColumns =
      streamPrepared server rt (store.filter (scope.visible p.options.tenantId)) p maxColumns := by
  unfold streamPrepared
  split
  · rfl
  · cases built : buildQueryStages p.options p.defs with
    | error e => rfl
    | ok stages =>
        have lead := run_lead server access built store
        have rows : aggregate server (stages.lead ++ stages.rowStages) _ = _ := aggregate_congr lead
        have keys : aggregate server (stages.lead ++ keyStages maxColumns) _ = _ :=
          aggregate_congr lead
        simp only [liftApi, ok_bind, streamColumns, rows, keys]

/-! ## The scope of a query -/

/-- The tenant the options name. -/
def EngineOptions.tenant (raw : EngineOptions) : String :=
  ((field raw.entries "tenantId").text).getD ""

/-- The scope a query runs under: the one it was handed by the data access service, else the
actor's. -/
def queryScope (ws : Workspace) (raw : EngineOptions) : AccessScope :=
  raw.access.getD (resolveAccessScope ws.directory raw.tenant ws.actor)

theorem normalizeQuery_ok {rt : Runtime} {raw : EngineOptions} {q : NormalizedQuery}
    (accepted : normalizeQuery rt raw = .ok q) :
    (normalizeParts rt raw raw.tenant).errors = [] ∧
      q = (normalizeParts rt raw raw.tenant).value := by
  unfold normalizeQuery at accepted
  cases tenant : (field raw.entries "tenantId").text with
  | none =>
      rw [tenant] at accepted
      exact nomatch accepted
  | some tenantId =>
      have named : raw.tenant = tenantId := by simp [EngineOptions.tenant, tenant]
      rw [tenant] at accepted
      rw [named]
      dsimp only at accepted
      split at accepted
      · exact nomatch accepted
      · split at accepted
        · rename_i clean
          exact ⟨List.isEmpty_iff.mp clean, (Except.ok.inj accepted).symm⟩
        · exact nomatch accepted

theorem normalizeQuery_scope {rt : Runtime} {raw : EngineOptions} {q : NormalizedQuery}
    (accepted : normalizeQuery rt raw = .ok q) : q.tenantId = raw.tenant ∧ q.access = raw.access := by
  obtain ⟨-, rfl⟩ := normalizeQuery_ok accepted
  constructor
  · simp [normalizeParts]
  · simp [normalizeParts]

theorem prepareQuery_ok {rt : Runtime} {ws : Workspace} {raw : EngineOptions} {p : Prepared}
    (prepared : prepareQuery rt ws raw = .ok p) :
    ∃ q resolved window, normalizeQuery rt raw = .ok q ∧
      resolveMetricRefs rt ws q = .ok resolved ∧
      resolveWindow rt ws q (q.timezone.getD (ws.timezone q.tenantId)) = .ok window ∧
      p =
        { options :=
            { tenantId := q.tenantId
              timezone := q.timezone.getD (ws.timezone q.tenantId)
              filterGroups := q.filterGroups
              access := some (q.access.getD (resolveAccessScope ws.directory q.tenantId ws.actor))
              connectorIds := resolved.connectorIds
              filters := q.filters
              filtersOp := q.filtersOp
              dateRange := window.map Window.bounds
              metrics := resolved.metrics
              groupBy := q.groupBy
              orderBy := q.orderBy
              pagination := q.pagination
              compare := q.compare }
          window
          timezone := q.timezone.getD (ws.timezone q.tenantId)
          defs := resolved.defs } := by
  simp only [prepareQuery, bind_eq_ok] at prepared
  obtain ⟨q, normal, resolved, refs, window, ranged, -, -, -, -, built⟩ := prepared
  exact ⟨q, resolved, window, normal, refs, ranged, (Except.ok.inj built).symm⟩

theorem prepareQuery_scope {rt : Runtime} {ws : Workspace} {raw : EngineOptions} {p : Prepared}
    (prepared : prepareQuery rt ws raw = .ok p) :
    p.options.access = some (queryScope ws raw) ∧ p.options.tenantId = raw.tenant := by
  obtain ⟨q, resolved, window, normal, -, -, rfl⟩ := prepareQuery_ok prepared
  obtain ⟨tenant, access⟩ := normalizeQuery_scope normal
  simp [queryScope, tenant, access]

/-! ## Without a scope -/

theorem liftApi_ok {α : Type} {x : Except ApiError α} {a : α} (h : liftApi x = .ok a) :
    x = .ok a := by
  cases x with
  | error e => exact nomatch h
  | ok b => exact congrArg Except.ok (Except.ok.inj h)

theorem liftServer_ok {α : Type} {timezone : String} {x : Except ServerError α} {a : α}
    (h : liftServer timezone x = .ok a) : x = .ok a := by
  cases x with
  | error e => exact nomatch h
  | ok b => exact congrArg Except.ok (Except.ok.inj h)

theorem run_selection_none (server : Server) {o : Options} (none : o.access = none)
    (docs : List Doc) {out : List Doc} (ran : runStages server o.selection docs = .ok out) :
    out = [] := by
  have nothing : ∀ docs : List Doc, runStages server (buildAccessStages (Option.none)) docs = .ok [] := by
    intro docs
    have refused : keep (fun doc => noRow.test server doc) docs = .ok [] := by
      have total : keep (fun doc => noRow.test server doc) (docs.map id) =
          .ok ((docs.filter fun _ => false).map id) :=
        keep_ok fun doc _ => by simp [noRow, Predicate.test, Predicate.meets, Condition.holds]
      simpa using total
    simp only [buildAccessStages, runStages, Stage.run, refused]
    rfl
  rw [o.selection_eq, none, runStages_append] at ran
  cases base : runStages server
      [.matching (buildBaseMatch o.tenantId o.connectorIds o.dateRange)] docs with
  | error e =>
      rw [base] at ran
      cases ran
  | ok found =>
      rw [base] at ran
      change runStages server _ found = _ at ran
      rw [runStages_append, nothing] at ran
      change runStages server o.clientStages [] = _ at ran
      rw [runStages_nil] at ran
      exact (Except.ok.inj ran).symm

theorem run_lead_none (server : Server) {o : Options} (none : o.access = none)
    {defs : MetricDefs} {stages : QueryStages} (built : buildQueryStages o defs = .ok stages)
    {docs out : List Doc} (ran : runStages server stages.lead docs = .ok out) : out = [] := by
  obtain ⟨pre, split⟩ := buildQueryStages_lead built
  rw [split, runStages_append] at ran
  cases selected : runStages server o.selection docs with
  | error e =>
      rw [selected] at ran
      exact nomatch ran
  | ok found =>
      obtain rfl := run_selection_none server none docs selected
      rw [selected] at ran
      change runStages server pre [] = _ at ran
      rw [runStages_nil] at ran
      exact (Except.ok.inj ran).symm

theorem runPrepared_none {server : Server} {rt : Runtime} {store : List ConnectorRow}
    {o : Options} (none : o.access = none) {window : Option Window} {timezone : String}
    {defs : MetricDefs} {result : QueryResult}
    (ran : runPrepared server rt store o window timezone defs = .ok result) :
    result.rows = [] ∧ result.total = 0 := by
  simp only [runPrepared, bind_eq_ok, Except.ok.injEq] at ran
  obtain ⟨stages, built, found, facet, rfl⟩ := ran
  have built := liftApi_ok built
  have facet := liftServer_ok facet
  unfold aggregateFacet at facet
  split at facet
  · simp only [bind_eq_ok, Except.ok.injEq] at facet
    obtain ⟨lead, ran, first, rows, second, counted, rfl⟩ := facet
    obtain rfl := run_lead_none server none built ran
    rw [runStages_nil] at rows counted
    obtain rfl := Except.ok.inj rows
    obtain rfl := Except.ok.inj counted
    exact ⟨rfl, rfl⟩
  · exact nomatch facet

theorem streamPrepared_none {server : Server} {rt : Runtime} {store : List ConnectorRow}
    {p : Prepared} (none : p.options.access = none) {maxColumns : Nat} {stream : RowStream}
    (opened : streamPrepared server rt store p maxColumns = .ok stream) {rows : List Doc}
    (read : stream.rows = .ok rows) : rows = [] := by
  unfold streamPrepared at opened
  split at opened
  · exact nomatch opened
  · simp only [bind_eq_ok, Except.ok.injEq] at opened
    obtain ⟨stages, built, columns, -, rfl⟩ := opened
    have read := liftServer_ok read
    unfold aggregate at read
    split at read
    · rw [runStages_append] at read
      cases lead : runStages server stages.lead (storeDocs store) with
      | error e =>
          rw [lead] at read
          exact nomatch read
      | ok found =>
          obtain rfl := run_lead_none server none (liftApi_ok built) lead
          rw [lead] at read
          simp only [Except.bind, runStages_nil, Except.map, List.map_nil] at read
          exact (Except.ok.inj read).symm
    · exact nomatch read

theorem runQuery_none {server : Server} {rt : Runtime} {store : List ConnectorRow}
    {p : Prepared} (none : p.options.access = none) {result : QueryResult}
    (ran : runQuery server rt store p = .ok result) : result.rows = [] ∧ result.total = 0 := by
  unfold runQuery at ran
  split at ran
  · unfold runCompared at ran
    dsimp only at ran
    split at ran
    · exact nomatch ran
    · split at ran
      · simp only [bind_eq_ok, Except.ok.injEq] at ran
        obtain ⟨current, first, previous, -, rfl⟩ := ran
        obtain ⟨rows, total⟩ := runPrepared_none (o := { p.options with compare := Option.none })
          none first
        exact ⟨by simp [rows], total⟩
      · exact nomatch ran
  · exact runPrepared_none none ran

/-! ## Noninterference -/

/-- Two stores that agree on the rows the scope of the query lets it see give the same result
and the same stream; every prepared query runs under such a scope; and without one nothing is
returned. -/
theorem row_security (server : Server) (rt : Runtime) (ws : Workspace) (raw : EngineOptions) :
    (∀ store other : List ConnectorRow,
      store.filter ((queryScope ws raw).visible raw.tenant) =
          other.filter ((queryScope ws raw).visible raw.tenant) →
        queryRows server rt ws store raw = queryRows server rt ws other raw ∧
          ∀ maxColumns, openRowStream server rt ws store raw maxColumns =
            openRowStream server rt ws other raw maxColumns) ∧
    (∀ p, prepareQuery rt ws raw = .ok p → p.options.access = some (queryScope ws raw)) ∧
    ∀ (store : List ConnectorRow) (p : Prepared), p.options.access = none →
      (∀ result, runQuery server rt store p = .ok result → result.rows = [] ∧ result.total = 0) ∧
        ∀ maxColumns stream rows, streamPrepared server rt store p maxColumns = .ok stream →
          stream.rows = .ok rows → rows = [] := by
  refine ⟨fun store other agree => ⟨?_, fun maxColumns => ?_⟩, fun p prepared =>
    (prepareQuery_scope prepared).1, fun store p none => ⟨fun result => runQuery_none none,
      fun maxColumns stream rows opened read => streamPrepared_none none opened read⟩⟩
  · unfold queryRows
    cases prepared : prepareQuery rt ws raw with
    | error e => rfl
    | ok p =>
        obtain ⟨access, tenant⟩ := prepareQuery_scope prepared
        simp only [liftApi, ok_bind]
        rw [runQuery_visible server rt store access, runQuery_visible server rt other access,
          tenant, agree]
  · unfold openRowStream
    split
    · cases prepared : prepareQuery rt ws raw with
      | error e => rfl
      | ok p =>
          obtain ⟨access, tenant⟩ := prepareQuery_scope prepared
          simp only [liftApi, ok_bind]
          rw [streamPrepared_visible server rt store access,
            streamPrepared_visible server rt other access, tenant, agree]
    · rfl

/-- A workspace without settings. -/
def bareWorkspace : Workspace where
  directory :=
    { datasetAccess := [], rowPolicies := [], members := [], userRoles := []
      permissions := fun _ _ => [], localeLe := fun _ _ => true, now := 0 }
  actor := none
  timezone _ := "UTC"
  metrics := []
  connectors := []
  now := 0

/-- A raw query of tenant `t1` under the rule `region = eu`. -/
def euQuery : EngineOptions where
  entries := [("tenantId", .str "t1")]
  access := some euScope

theorem row_security_eu :
    queryRows Server.plain Runtime.plain bareWorkspace
        [regionRow (.str "eu"), regionRow (.str "us")] euQuery =
      queryRows Server.plain Runtime.plain bareWorkspace [regionRow (.str "eu")] euQuery :=
  ((row_security Server.plain Runtime.plain bareWorkspace euQuery).1 _ _ (by rfl)).1

end AnalyticsBackend.Analytics
