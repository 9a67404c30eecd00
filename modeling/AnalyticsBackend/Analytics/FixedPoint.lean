import AnalyticsBackend.Analytics.PinnedRefs
import AnalyticsBackend.Analytics.ReadWindow
import AnalyticsBackend.Analytics.RowSecurity

/-!
# A prepared query is prepared again

The options that `prepareQuery` returns name an absolute window and pinned versions. Preparing them once
more gives the same query, unless a version has too many digits, an end of the window is written with a
year that is not read back, or no end is left at all.
-/

namespace AnalyticsBackend.Analytics

open Lib Lib.Mongo

/-! ## The parts of an accepted query -/

/-- Parts of a query that are read back from what they are written as. -/
structure Collected.Accepted (rt : Runtime) (out : Collected) : Prop where
  datasets : ∀ ids ∈ out.connectorIds, ids.length ≤ LIMITS.connectorIds ∧ ∀ id ∈ ids, isHexId id = true
  filters : ∀ fs ∈ out.filters, ∀ path,
    validateFilters rt (.arr (fs.map Filter.js)) path = pure fs
  column : ∀ r ∈ out.dateRange, isDateColumn r.field = true
  metrics : ∀ ms ∈ out.metrics, ∃ l : List Metric, ms = l.map some ∧ l.length ≤ LIMITS.metrics ∧
    ReadableMetrics l
  groupBy : ∀ gs ∈ out.groupBy, ∃ l : List GroupBy, gs = l.map some ∧
    ∀ path, validateGroupBy (.arr (l.map GroupBy.js)) path = pure (l.map some)
  orderBy : ∀ os ∈ out.orderBy, ∃ l : List OrderBy, os = l.map some ∧
    ∀ path, validateOrderBy (.arr (l.map OrderBy.js)) path = pure (l.map some)
  pagination : ∀ p ∈ out.pagination, ∀ path, validatePagination rt p.js path = pure p

theorem Collected.accepted_empty (rt : Runtime) : Collected.empty.Accepted rt where
  datasets _ mem := nomatch mem
  filters _ mem := nomatch mem
  column _ mem := nomatch mem
  metrics _ mem := nomatch mem
  groupBy _ mem := nomatch mem
  orderBy _ mem := nomatch mem
  pagination _ mem := nomatch mem

section Collect

variable {rt : Runtime} {pre : String}

theorem accepted_collectKey {key : String} {value : Js} {out : Collected} (before : out.Accepted rt)
    (clean : (collectKey rt pre key value out).errors = []) :
    (collectKey rt pre key value out).value.Accepted rt := by
  unfold collectKey at clean ⊢
  dsimp only at clean ⊢
  split at clean
  all_goals
    simp only [Check.bind_errors, Check.pure_errors, List.append_nil, Check.bind_value,
      Check.pure_value] at clean ⊢
  · refine { before with datasets := ?_ }
    rintro _ ⟨⟩
    exact clean_validateConnectorIds clean
  · refine { before with filters := ?_ }
    rintro _ ⟨⟩ path
    exact validateFilters_again clean path
  · exact { before with }
  · refine { before with column := ?_ }
    rintro _ ⟨⟩
    exact column_of_validateDateRange clean
  · refine { before with metrics := ?_ }
    rintro _ ⟨⟩
    exact clean_validateMetrics clean
  · refine { before with groupBy := ?_ }
    rintro _ ⟨⟩
    exact validateGroupBy_again clean
  · refine { before with orderBy := ?_ }
    rintro _ ⟨⟩
    exact validateOrderBy_again clean
  · refine { before with pagination := ?_ }
    rintro _ ⟨⟩ path
    exact validatePagination_again clean path
  · exact before

theorem accepted_collectEntries {keys : List String} {entries : List (String × Js)} {out : Collected}
    (before : out.Accepted rt) (clean : (collectEntries rt keys pre entries out).errors = []) :
    (collectEntries rt keys pre entries out).value.Accepted rt := by
  induction entries generalizing out with
  | nil => exact before
  | cons entry rest ih =>
      obtain ⟨key, value⟩ := entry
      unfold collectEntries at clean ⊢
      split at clean
      · exact nomatch clean
      · rename_i known
        rw [if_neg known]
        split at clean
        · rename_i absent
          rw [if_pos absent]
          exact ih before clean
        · rename_i given
          rw [if_neg given]
          simp only [Check.bind_errors, List.append_eq_nil_iff, Check.bind_value] at clean ⊢
          exact ih (accepted_collectKey before clean.1) clean.2

end Collect

/-! ## The outputs of a query -/

theorem clean_checkItems_failIf {A : Type} {bad : A → Bool} {path message : Nat → A → String} {i : Nat}
    {l : List A} :
    (checkItems (fun i a => failIf (bad a) (path i a) (message i a)) i l).errors = [] ↔
      ∀ a ∈ l, bad a = false := by
  induction l generalizing i with
  | nil => simp [checkItems]
  | cons a rest ih =>
      simp only [checkItems, Check.bind_errors, Check.pure_errors, List.append_nil,
        List.append_eq_nil_iff, ih, List.forall_mem_cons]
      cases bad a with
      | true => simp
      | false => simp

/-- The output names of a query are told apart, and it is sorted by them alone. -/
def Combines (groups : List (Option GroupBy)) (names : List String) (orders : List (Option OrderBy)) :
    Prop :=
  let fields := (groups.filterMap id).map GroupBy.field
  (fields = [] ∧ names = []) ∨
    ((∀ name ∈ names, fields.contains name = false) ∧
      (names = [] → ∀ g ∈ groups, (g.any fun g => g.field = "count") = false) ∧
      ∀ o ∈ orders, (o.any fun o => isSafeText o.field &&
        !(fields ++ if names.isEmpty then ["count"] else names).eraseDups.contains o.field) = false)

theorem clean_validateCombination {out : Collected} {pre : String} :
    (validateCombination out pre).errors = [] ↔
      Combines (out.groupBy.getD []) (((out.metrics.getD []).filterMap id).map metricAlias)
        (out.orderBy.getD []) := by
  unfold validateCombination Combines
  dsimp only
  generalize out.groupBy.getD [] = groups
  generalize (out.metrics.getD []).filterMap id = metrics
  generalize out.orderBy.getD [] = orders
  cases metrics with
  | nil =>
      cases fields : groups.filterMap id with
      | nil => simp
      | cons g rest =>
          simp only [List.isEmpty_cons, Bool.false_and, Bool.false_eq_true, if_false,
            List.isEmpty_nil, if_true, Check.bind_errors, Check.pure_errors, List.append_nil,
            List.append_eq_nil_iff, clean_checkItems_failIf, outputNames, List.map_nil]
          simp
  | cons m rest =>
      simp only [List.isEmpty_cons, Bool.and_false, Bool.false_eq_true, if_false,
        Check.bind_errors, Check.pure_errors, List.append_nil, List.append_eq_nil_iff,
        clean_checkItems_failIf, outputNames, List.map_cons]
      simp

/-! ## Normalised queries -/

structure NormalizedQuery.Accepted (rt : Runtime) (q : NormalizedQuery) : Prop where
  tenant : q.tenantId.isEmpty = false
  zone : ∀ tz ∈ q.timezone, ∃ value, tz = normalizeTimeZone rt.zones value
  groups : validateFilterGroups rt (.arr (q.filterGroups.map FilterGroup.js)) = pure q.filterGroups
  datasets : q.connectorIds.length ≤ LIMITS.connectorIds ∧ ∀ id ∈ q.connectorIds, isHexId id = true
  filters : ∀ path, validateFilters rt (.arr (q.filters.map Filter.js)) path = pure q.filters
  column : ∀ r ∈ q.dateRange, isDateColumn r.field = true
  few : q.metrics.length ≤ LIMITS.metrics
  metrics : ReadableMetrics q.metrics
  groupBy : ∀ path,
    validateGroupBy (.arr (q.groupBy.map GroupBy.js)) path = pure (q.groupBy.map some)
  orderBy : ∀ path,
    validateOrderBy (.arr (q.orderBy.map OrderBy.js)) path = pure (q.orderBy.map some)
  pagination : ∀ path, validatePagination rt q.pagination.js path = pure q.pagination
  combined : Combines (q.groupBy.map some) (q.metrics.map metricAlias) (q.orderBy.map some)

theorem filterMap_map_some {A : Type} (l : List A) : (l.map some).filterMap id = l := by
  rw [List.filterMap_map, Function.id_comp, List.filterMap_some]

theorem zone_of_checkTimezone {rt : Runtime} {value : Js}
    (clean : (checkTimezone rt value).errors = []) :
    ∀ tz ∈ (checkTimezone rt value).value, ∃ v, tz = normalizeTimeZone rt.zones v := by
  unfold checkTimezone at clean ⊢
  split at clean
  · rename_i absent
    rw [if_pos absent]
    exact fun tz mem => nomatch mem
  · rename_i given
    rw [if_neg given]
    cases named : value.text with
    | none =>
        rw [named] at clean
        exact nomatch clean
    | some v =>
        rintro tz is
        exact ⟨v, (Option.some.inj is).symm⟩

theorem normalizeQuery_accepted {rt : Runtime} {raw : EngineOptions} {q : NormalizedQuery}
    (accepted : normalizeQuery rt raw = .ok q) : q.Accepted rt := by
  have tenant : raw.tenant.isEmpty = false := by
    unfold normalizeQuery at accepted
    cases named : (field raw.entries "tenantId").text with
    | none =>
        rw [named] at accepted
        exact nomatch accepted
    | some tenantId =>
        rw [named] at accepted
        dsimp only at accepted
        split at accepted
        · exact nomatch accepted
        · rename_i some'
          simpa [EngineOptions.tenant, named] using some'
  obtain ⟨clean, rfl⟩ := normalizeQuery_ok accepted
  simp only [normalizeParts, Check.bind_errors, List.append_eq_nil_iff] at clean
  obtain ⟨collected, zone, -, groups, compare, -⟩ := clean
  simp only [collect, Check.bind_errors, List.append_eq_nil_iff] at collected
  obtain ⟨entries, combined, -⟩ := collected
  have parts := accepted_collectEntries (Collected.accepted_empty rt) entries
  rw [clean_validateCombination] at combined
  simp only [normalizeParts, collect, Check.bind_value, Check.pure_value]
  generalize (collectEntries rt QUERY_KEYS "" _ Collected.empty).value = out at parts combined
  have metrics : ∃ l : List Metric, out.metrics.getD [] = l.map some ∧ l.length ≤ LIMITS.metrics ∧
      ReadableMetrics l := by
    cases given : out.metrics with
    | none => exact ⟨[], rfl, Nat.zero_le _, ⟨by simp, by simp, List.nodup_nil⟩⟩
    | some ms => exact parts.metrics ms given
  have groupBy : ∃ l : List GroupBy, out.groupBy.getD [] = l.map some ∧
      ∀ path, validateGroupBy (.arr (l.map GroupBy.js)) path = pure (l.map some) := by
    cases given : out.groupBy with
    | none => exact ⟨[], rfl, fun _ => rfl⟩
    | some gs => exact parts.groupBy gs given
  have orderBy : ∃ l : List OrderBy, out.orderBy.getD [] = l.map some ∧
      ∀ path, validateOrderBy (.arr (l.map OrderBy.js)) path = pure (l.map some) := by
    cases given : out.orderBy with
    | none => exact ⟨[], rfl, fun _ => rfl⟩
    | some os => exact parts.orderBy os given
  obtain ⟨ms, areMetrics, few, readable⟩ := metrics
  obtain ⟨gs, areGroups, groupsAgain⟩ := groupBy
  obtain ⟨os, areOrders, ordersAgain⟩ := orderBy
  rw [areMetrics, areGroups, areOrders] at combined ⊢
  simp only [filterMap_map_some] at combined ⊢
  exact
    { tenant
      zone := zone_of_checkTimezone zone
      groups := validateFilterGroups_again groups
      datasets := by
        cases given : out.connectorIds with
        | none => exact ⟨Nat.zero_le _, by simp⟩
        | some ids => exact parts.datasets ids given
      filters := by
        cases given : out.filters with
        | none => exact fun _ => rfl
        | some fs => exact parts.filters fs given
      column := parts.column
      few
      metrics := readable
      groupBy := groupsAgain
      orderBy := ordersAgain
      pagination := by
        cases given : out.pagination with
        | none => exact fun _ => rfl
        | some p => exact parts.pagination p given
      combined }

/-! ## The options written out -/

/-- A metric that is read back when its reference is. -/
def Metric.Named : Metric → Prop
  | .plain op column name => Metric.Readable (.plain op column name)
  | .ref _ name => ∀ a ∈ name, isSafeText a = true

theorem Metric.Named.readable {m : Metric} (named : m.Named)
    (known : ∀ text name, m = .ref text name → isMetricRef text = true) : m.Readable := by
  cases m with
  | plain op column name => exact named
  | ref text name => exact ⟨known text name rfl, named⟩

/-- What is known of the options of a prepared query. -/
structure Options.Accepted (rt : Runtime) (o : Options) : Prop where
  tenant : o.tenantId.isEmpty = false
  zone : isValidTimeZone rt.zones o.timezone = true
  canonical : normalizeTimeZone rt.zones o.timezone = o.timezone
  groups : validateFilterGroups rt (.arr (o.filterGroups.map FilterGroup.js)) = pure o.filterGroups
  datasets : o.connectorIds.length ≤ LIMITS.connectorIds ∧ ∀ id ∈ o.connectorIds, isHexId id = true
  filters : ∀ path, validateFilters rt (.arr (o.filters.map Filter.js)) path = pure o.filters
  column : ∀ b ∈ o.dateRange, isDateColumn b.field = true
  ordered : ∀ b ∈ o.dateRange, ∀ a ∈ b.fromDate, ∀ c ∈ b.toDate, a ≤ c
  few : o.metrics.length ≤ LIMITS.metrics
  named : ∀ m ∈ o.metrics, m.Named
  free : ∀ m ∈ o.metrics, isReservedOutputName (metricAlias m) = false
  once : (o.metrics.map metricAlias).Nodup
  groupBy : ∀ path,
    validateGroupBy (.arr (o.groupBy.map GroupBy.js)) path = pure (o.groupBy.map some)
  orderBy : ∀ path,
    validateOrderBy (.arr (o.orderBy.map OrderBy.js)) path = pure (o.orderBy.map some)
  pagination : ∀ path, validatePagination rt o.pagination.js path = pure o.pagination
  combined : Combines (o.groupBy.map some) (o.metrics.map metricAlias) (o.orderBy.map some)

/-- The options that can be prepared once more. -/
structure Options.Readable (o : Options) : Prop where
  window : ∀ b ∈ o.dateRange, b.Readable
  metrics : ∀ m ∈ o.metrics, m.Readable

def Options.normalized (o : Options) : NormalizedQuery where
  tenantId := o.tenantId
  timezone := some o.timezone
  now := none
  filterGroups := o.filterGroups
  access := o.access
  connectorIds := o.connectorIds
  filters := o.filters
  filtersOp := o.filtersOp
  dateRange := o.dateRange.map Bounds.range
  metrics := o.metrics
  groupBy := o.groupBy
  orderBy := o.orderBy
  pagination := o.pagination
  compare := o.compare

/-- The entries of the options that make up the query. -/
def Options.query (o : Options) : List (String × Js) :=
  [("connectorIds", .arr (o.connectorIds.map .str)), ("filters", .arr (o.filters.map Filter.js)),
    ("filtersOp", .str o.filtersOp.text), ("dateRange", (o.dateRange.map Bounds.js).getD .null),
    ("metrics", .arr (o.metrics.map Metric.js)), ("groupBy", .arr (o.groupBy.map GroupBy.js)),
    ("orderBy", .arr (o.orderBy.map OrderBy.js)), ("pagination", o.pagination.js)]

theorem filter_entries (o : Options) :
    (o.js.entries.filter fun e => !INTERNAL_KEYS.contains e.1) = o.query := by
  have compare : (optional "compare" (o.compare.map CompareType.js)).filter
      (fun e => !INTERNAL_KEYS.contains e.1) = [] :=
    List.filter_eq_nil_iff.mpr fun e mem => by rw [mem_optional mem]; decide
  rw [Options.js, List.filter_append, compare]
  rfl

section Entries

variable (o : Options)

theorem entries_tenantId : field o.js.entries "tenantId" = .str o.tenantId := by
  simp [Options.js, field_optional, field_cons]

theorem entries_timezone : field o.js.entries "timezone" = .str o.timezone := by
  simp [Options.js, field_optional, field_cons]

theorem entries_now : field o.js.entries "now" = .undefined := by
  simp [Options.js, field_optional, field_cons, field_nil]

theorem entries_filterGroups :
    field o.js.entries "filterGroups" = .arr (o.filterGroups.map FilterGroup.js) := by
  simp [Options.js, field_optional, field_cons]

theorem entries_compare :
    field o.js.entries "compare" = (o.compare.map CompareType.js).getD .undefined := by
  simp [Options.js, field_optional, field_cons, field_nil]

end Entries

section Normalize

variable {rt : Runtime} {o : Options}

def Options.collected (o : Options) : Collected where
  connectorIds := some o.connectorIds
  filters := some o.filters
  filtersOp := some o.filtersOp
  dateRange := o.dateRange.map Bounds.range
  metrics := some (o.metrics.map some)
  groupBy := some (o.groupBy.map some)
  orderBy := some (o.orderBy.map some)
  pagination := some o.pagination

/-- A part that is read without errors. -/
theorem collectEntries_cons {keys : List String} {pre key : String} {value : Js}
    {rest : List (String × Js)} {out out' : Collected} (known : key ∈ keys)
    (given : value.isNullish = false) (is : collectKey rt pre key value out = pure out') :
    collectEntries rt keys pre ((key, value) :: rest) out = collectEntries rt keys pre rest out' := by
  rw [collectEntries, if_neg (by simpa using known), if_neg (by simp [given]), is, Check.pure_bind]

theorem collect_query (accepted : o.Accepted rt) (readable : o.Readable) :
    collect rt o.query QUERY_KEYS "" = pure o.collected := by
  have ids := validateConnectorIds_eq_pure rt accepted.datasets.1 accepted.datasets.2
  have metrics := validateMetrics_eq_pure accepted.few ⟨readable.metrics, accepted.free, accepted.once⟩
  have entries : collectEntries rt QUERY_KEYS "" o.query .empty = pure o.collected := by
    have ranged (rest : List (String × Js)) (out : Collected) (none : out.dateRange = .none) :
        collectEntries rt QUERY_KEYS "" (("dateRange", (o.dateRange.map Bounds.js).getD .null) :: rest) out =
          collectEntries rt QUERY_KEYS "" rest { out with dateRange := o.dateRange.map Bounds.range } := by
      cases range : o.dateRange with
      | none =>
          obtain ⟨ids, filters, op, range, metrics, groupBy, orderBy, pagination⟩ := out
          obtain rfl : range = .none := none
          rw [collectEntries, if_neg (by decide)]
          rfl
      | some b =>
          have window := validateDateRange_js rt (readable.window b range)
          rw [Option.map_some, Option.getD_some, Option.map_some,
            collectEntries_cons (by decide) rfl (congrArg (· >>= _) (window _))]
          rfl
    rw [Options.query, collectEntries_cons (by decide) rfl (congrArg (· >>= _) (ids _)),
      collectEntries_cons (by decide) rfl (congrArg (· >>= _) (accepted.filters _)),
      collectEntries_cons (by decide) rfl (congrArg (· >>= _) (validateFiltersOp_again _ _)),
      ranged _ _ rfl,
      collectEntries_cons (by decide) rfl (congrArg (· >>= _) (metrics _)),
      collectEntries_cons (by decide) rfl (congrArg (· >>= _) (accepted.groupBy _)),
      collectEntries_cons (by decide) rfl (congrArg (· >>= _) (accepted.orderBy _)),
      collectEntries_cons (by decide) rfl (congrArg (· >>= _) (accepted.pagination _))]
    rfl
  have combined : (validateCombination o.collected "").errors = [] := by
    rw [clean_validateCombination]
    simpa [Options.collected, filterMap_map_some] using accepted.combined
  rw [collect, entries, Check.pure_bind, Check.eq_pure combined]
  rfl

theorem normalizeQuery_js (accepted : o.Accepted rt) (readable : o.Readable) :
    normalizeQuery rt o.js = .ok o.normalized := by
  have compare : checkCompare ((o.compare.map CompareType.js).getD .undefined) = pure o.compare := by
    cases o.compare with
    | none => rfl
    | some c =>
        change (validateCompare c.js "compare" >>= fun c => pure (some c)) = _
        rw [validateCompare_again, Check.pure_bind]
  have zone : checkTimezone rt (.str o.timezone) = pure (some o.timezone) := by
    rw [checkTimezone, if_neg (by simp [Js.isNullish])]
    simp only [Js.text]
    rw [failIf_eq_pure (by simp [accepted.zone]), Check.pure_bind, accepted.canonical]
  have parts : normalizeParts rt o.js o.tenantId = pure o.normalized := by
    simp only [normalizeParts, filter_entries, collect_query accepted readable, entries_timezone,
      entries_now, entries_filterGroups, entries_compare, zone, checkNow, accepted.groups, compare,
      Check.pure_bind]
    simp [Options.collected, Options.normalized, Options.js]
  rw [normalizeQuery, entries_tenantId]
  simp only [Js.text]
  rw [if_neg (by simp [accepted.tenant]), parts]
  rfl

theorem clean_of_collectEntries {keys : List String} {pre : String} {entries : List (String × Js)}
    {out : Collected} (clean : (collectEntries rt keys pre entries out).errors = []) {key : String}
    {value : Js} (mem : (key, value) ∈ entries) (given : value.isNullish = false) :
    ∃ out', (collectKey rt pre key value out').errors = [] := by
  induction entries generalizing out with
  | nil => exact nomatch mem
  | cons entry rest ih =>
      obtain ⟨name, first⟩ := entry
      unfold collectEntries at clean
      split at clean
      · exact nomatch clean
      · split at clean
        · rename_i absent
          rcases List.mem_cons.mp mem with is | later
          · obtain ⟨-, rfl⟩ := Prod.mk.inj is
            exact absurd absent (by simp [given])
          · exact ih clean later
        · simp only [Check.bind_errors, List.append_eq_nil_iff] at clean
          rcases List.mem_cons.mp mem with is | later
          · obtain ⟨rfl, rfl⟩ := Prod.mk.inj is
            exact ⟨out, clean.1⟩
          · exact ih clean.2 later

theorem clean_of_mem_metrics {path : String} {i : Nat} {seen : List (String × Nat)} {items : List Js}
    (clean : (validateMetricList path i seen items).errors = []) {item : Js} (mem : item ∈ items) :
    ∃ seen path, (validateMetric seen item path).errors = [] := by
  induction items generalizing i seen with
  | nil => exact nomatch mem
  | cons first rest ih =>
      simp only [validateMetricList, Check.bind_errors, List.append_eq_nil_iff] at clean
      rcases List.mem_cons.mp mem with rfl | later
      · exact ⟨seen, _, clean.1⟩
      · exact ih clean.2.1 later

theorem isMetricRef_of_clean {seen : List (String × Nat)} {text path : String} {name : Option String}
    (clean : (validateMetric seen (Metric.ref text name).js path).errors = []) :
    isMetricRef text = true := by
  simp only [validateMetric, Metric.js, Js.plainObject, List.cons_append, List.nil_append, field_cons,
    if_true, validateMetricRef, Js.text, Option.getD_some, Check.bind_errors,
    List.append_eq_nil_iff] at clean
  simpa using good_of_failIf clean.1.2.1

theorem readable_of_normalizeQuery (accepted : o.Accepted rt) {q : NormalizedQuery}
    (again : normalizeQuery rt o.js = .ok q) : o.Readable := by
  have clean := (normalizeQuery_ok again).1
  simp only [normalizeParts, filter_entries, collect, Check.bind_errors, List.append_eq_nil_iff] at clean
  obtain ⟨⟨entries, -⟩, -⟩ := clean
  constructor
  · intro b is
    have entry : ("dateRange", b.js) ∈ o.query := by simp [Options.query, Option.mem_def.mp is]
    obtain ⟨out, read⟩ := clean_of_collectEntries entries entry rfl
    have read : (validateDateRange rt b.js ("" ++ "dateRange") >>= _).errors = [] := read
    rw [Check.bind_errors, List.append_eq_nil_iff] at read
    obtain ⟨bounded, first, last⟩ := readable_of_validateDateRange read.1
    exact ⟨accepted.column b is, bounded, first, last, accepted.ordered b is⟩
  · intro m mem
    refine (accepted.named m mem).readable ?_
    rintro text name rfl
    have entry : ("metrics", .arr (o.metrics.map Metric.js)) ∈ o.query := by simp [Options.query]
    obtain ⟨out, read⟩ := clean_of_collectEntries entries entry rfl
    have read : (validateMetrics (.arr (o.metrics.map Metric.js)) ("" ++ "metrics") >>= _).errors = [] :=
      read
    simp only [validateMetrics, Check.bind_errors, List.append_eq_nil_iff] at read
    obtain ⟨seen, path, item⟩ := clean_of_mem_metrics read.1.2 (List.mem_map_of_mem mem)
    exact isMetricRef_of_clean item

end Normalize

/-! ## Preparing again -/

/-- The zone that a query runs in. -/
def NormalizedQuery.zone (q : NormalizedQuery) (ws : Workspace) : String :=
  q.timezone.getD (ws.timezone q.tenantId)

/-- The scope that a query runs under. -/
def NormalizedQuery.scope (q : NormalizedQuery) (ws : Workspace) : AccessScope :=
  q.access.getD (resolveAccessScope ws.directory q.tenantId ws.actor)

/-- A query that is ready to run, from what was resolved of it. -/
def NormalizedQuery.prepared (q : NormalizedQuery) (r : ResolvedMetrics) (window : Option Window)
    (timezone : String) (access : AccessScope) : Prepared where
  options :=
    { tenantId := q.tenantId
      timezone
      filterGroups := q.filterGroups
      access := some access
      connectorIds := r.connectorIds
      filters := q.filters
      filtersOp := q.filtersOp
      dateRange := window.map Window.bounds
      metrics := r.metrics
      groupBy := q.groupBy
      orderBy := q.orderBy
      pagination := q.pagination
      compare := q.compare }
  window
  timezone
  defs := r.defs

section Prepare

variable {rt : Runtime} {ws ws' : Workspace} {raw : EngineOptions} {p : Prepared}

theorem prepareQuery_iff : prepareQuery rt ws raw = .ok p ↔
    ∃ q r window, normalizeQuery rt raw = .ok q ∧ resolveMetricRefs rt ws q = .ok r ∧
      resolveWindow rt ws q (q.zone ws) = .ok window ∧
      assertQueryable (some (q.scope ws)) r.connectorIds = .ok () ∧
      assertDatasetsReady ws.connectors q.tenantId r.connectorIds = .ok () ∧
      p = q.prepared r window (q.zone ws) (q.scope ws) := by
  constructor
  · intro prepared
    simp only [prepareQuery, bind_eq_ok] at prepared
    obtain ⟨q, normal, r, refs, window, ranged, ⟨⟩, queryable, ⟨⟩, ready, built⟩ := prepared
    exact ⟨q, r, window, normal, refs, ranged, queryable, ready, (Except.ok.inj built).symm⟩
  · rintro ⟨q, r, window, normal, refs, ranged, queryable, ready, rfl⟩
    have ranged : resolveWindow rt ws q (q.timezone.getD (ws.timezone q.tenantId)) = .ok window := ranged
    have queryable : assertQueryable (some (q.access.getD
        (resolveAccessScope ws.directory q.tenantId ws.actor))) r.connectorIds = .ok () := queryable
    simp only [prepareQuery, normal, refs, ranged, queryable, ready, ok_bind]
    rfl

def Window.Ordered (w : Window) : Prop := ∀ a ∈ w.fromDate, ∀ b ∈ w.toDate, a ≤ b

theorem resolveWindow_iff {q : NormalizedQuery} {timezone : String} {window : Option Window} :
    resolveWindow rt ws q timezone = .ok window ↔
      (window = q.dateRange.map fun r => resolveDateRange rt.zones r timezone (q.now.getD ws.now)) ∧
        ∀ w ∈ window, w.Ordered := by
  unfold resolveWindow
  cases q.dateRange with
  | none =>
      simp only [Option.map_none, Except.ok.injEq]
      exact ⟨fun is => ⟨is.symm, by simp [← is]⟩, fun is => is.1.symm⟩
  | some range =>
      simp only [Option.map_some]
      generalize resolveDateRange rt.zones range timezone (q.now.getD ws.now) = w
      have kept (ordered : w.Ordered) : (.ok (some w) : Except ApiError (Option Window)) = .ok window ↔
          window = some w ∧ ∀ w ∈ window, w.Ordered := by
        rw [Except.ok.injEq, eq_comm]
        exact ⟨fun is => ⟨is, by rw [is]; rintro _ ⟨⟩; exact ordered⟩, fun is => is.1⟩
      cases first : w.fromDate with
      | none => exact kept fun a is => by rw [first] at is; exact nomatch is
      | some a =>
          cases last : w.toDate with
          | none => exact kept fun _ _ b is => by rw [last] at is; exact nomatch is
          | some b =>
              have order : w.Ordered ↔ a ≤ b := by simp [Window.Ordered, first, last]
              dsimp only
              split
              · rename_i before
                refine ⟨fun is => (nomatch is), fun ⟨is, all⟩ => ?_⟩
                exact absurd (order.mp (all w is)) (not_le.mpr before)
              · rename_i after
                exact kept (order.mpr (not_lt.mp after))

theorem zone_normalized (zones : ∀ tenantId, ∃ value, ws.timezone tenantId = normalizeTimeZone rt.zones value)
    {q : NormalizedQuery} (accepted : q.Accepted rt) :
    ∃ value, q.zone ws = normalizeTimeZone rt.zones value := by
  unfold NormalizedQuery.zone
  cases named : q.timezone with
  | none => exact zones q.tenantId
  | some tz => exact accepted.zone tz named

theorem names_of_resolved {stored : List StoredMetric} {tenantId : String} {ids : List String}
    {ms : List Metric} {found : List (Metric × Option MetricDefinition)}
    (all : List.Forall₂ (Resolved stored tenantId ids) ms found) :
    (found.map Prod.fst).map metricAlias = ms.map metricAlias := by
  induction all with
  | nil => rfl
  | cons head _ ih =>
      rw [List.map_cons, List.map_cons, ih, head.name, List.map_cons]

theorem datasets_of_resolved {found : List (Metric × Option MetricDefinition)}
    (few : found.length ≤ LIMITS.connectorIds) :
    (sortStrings ((found.filterMap Prod.snd).map fun d => d.connectorId.toHex).eraseDups).length ≤
        LIMITS.connectorIds ∧
      ∀ id ∈ sortStrings ((found.filterMap Prod.snd).map fun d => d.connectorId.toHex).eraseDups,
        isHexId id = true := by
  constructor
  · have sorted := (List.mergeSort_perm ((found.filterMap Prod.snd).map fun d =>
      d.connectorId.toHex).eraseDups fun a b => sortStrings.compareLex (utf16 a) (utf16 b)).length_eq
    have distinct := length_eraseDups_le ((found.filterMap Prod.snd).map fun d => d.connectorId.toHex)
    have defs := List.length_filterMap_le Prod.snd found
    rw [List.length_map] at distinct
    unfold sortStrings
    omega
  · intro id mem
    obtain ⟨d, -, rfl⟩ := List.mem_map.mp (List.mem_eraseDups.mp (mem_sortStrings.mp mem))
    exact isHexId_toHex d.connectorId

theorem named_of_resolved {stored : List StoredMetric} {tenantId : String} {ids : List String}
    {m : Metric} {r : Metric × Option MetricDefinition} (of : Resolved stored tenantId ids m r)
    (readable : m.Readable) : r.1.Named := by
  cases defn : r.2 with
  | none =>
      obtain ⟨same, op, column, name, rfl⟩ := of.plain defn
      rw [same]
      exact readable
  | some d =>
      obtain ⟨-, -, name, is, safe⟩ := of.defn d defn
      rw [is]
      exact safe

/-- The settings that a preparation rests on: the zones of the runtime, zones of workspaces that were
normalised, and one document for each version of a metric. -/
structure Settled (rt : Runtime) (ws : Workspace) : Prop where
  zones : rt.zones.Canonical
  normalized : ∀ tenantId, ∃ value, ws.timezone tenantId = normalizeTimeZone rt.zones value
  unique : ws.Unique

theorem prepared_accepted (settled : Settled rt ws) {q : NormalizedQuery} (accepted : q.Accepted rt)
    {r : ResolvedMetrics} (refs : resolveMetricRefs rt ws q = .ok r) {window : Option Window}
    (ranged : resolveWindow rt ws q (q.zone ws) = .ok window) (access : AccessScope) :
    (q.prepared r window (q.zone ws) access).options.Accepted rt := by
  obtain ⟨⟨found, all, metrics, datasets⟩, -⟩ := resolveMetricRefs_again settled.unique rfl
    { q with metrics := r.metrics, connectorIds := r.connectorIds } accepted.metrics.each refs rfl rfl rfl
  obtain ⟨value, zone⟩ := zone_normalized settled.normalized accepted
  obtain ⟨is, ordered⟩ := resolveWindow_iff.mp ranged
  have names : r.metrics.map metricAlias = q.metrics.map metricAlias := by
    rw [metrics, names_of_resolved all]
  have size : r.metrics.length = q.metrics.length := by
    rw [metrics, List.length_map, all.length_eq]
  have valid : isValidTimeZone rt.zones (q.zone ws) = true := by
    rw [zone]
    exact valid_normalizeTimeZone settled.zones value
  have canonical : normalizeTimeZone rt.zones (q.zone ws) = q.zone ws := by
    rw [zone]
    exact normalizeTimeZone_again settled.zones value
  have few : r.metrics.length ≤ LIMITS.metrics := size.trans_le accepted.few
  have once : (r.metrics.map metricAlias).Nodup := by
    rw [names]
    exact accepted.metrics.once
  have combined : Combines (q.groupBy.map some) (r.metrics.map metricAlias) (q.orderBy.map some) := by
    rw [names]
    exact accepted.combined
  have free : ∀ m ∈ r.metrics, isReservedOutputName (metricAlias m) = false := by
    intro m mem
    have inside : metricAlias m ∈ q.metrics.map metricAlias := by
      rw [← names]
      exact List.mem_map_of_mem mem
    obtain ⟨m', mem', same⟩ := List.mem_map.mp inside
    rw [← same]
    exact accepted.metrics.free m' mem'
  have named : ∀ m ∈ r.metrics, m.Named := by
    intro m mem
    rw [metrics] at mem
    obtain ⟨f, inside, rfl⟩ := List.mem_map.mp mem
    obtain ⟨m', mem', of⟩ := exists_left_of_forall₂ all inside
    exact named_of_resolved of (accepted.metrics.each m' mem')
  have hex : r.connectorIds.length ≤ LIMITS.connectorIds ∧ ∀ id ∈ r.connectorIds, isHexId id = true := by
    rw [datasets]
    split
    · refine datasets_of_resolved ?_
      rw [← all.length_eq]
      exact accepted.few.trans (by decide)
    · exact accepted.datasets
  have column : ∀ b ∈ window.map Window.bounds, isDateColumn b.field = true := by
    rintro b mem
    obtain ⟨w, inside, rfl⟩ := Option.map_eq_some_iff.mp mem
    rw [is] at inside
    obtain ⟨range, asked, rfl⟩ := Option.map_eq_some_iff.mp inside
    change isDateColumn (resolveDateRange _ _ _ _).field = true
    rw [resolveDateRange_field]
    exact accepted.column range asked
  have inOrder : ∀ b ∈ window.map Window.bounds, ∀ a ∈ b.fromDate, ∀ c ∈ b.toDate, a ≤ c := by
    rintro b mem
    obtain ⟨w, inside, rfl⟩ := Option.map_eq_some_iff.mp mem
    exact ordered w inside
  exact
    { tenant := accepted.tenant
      zone := valid
      canonical
      groups := accepted.groups
      datasets := hex
      filters := accepted.filters
      column
      ordered := inOrder
      few
      named
      free
      once
      groupBy := accepted.groupBy
      orderBy := accepted.orderBy
      pagination := accepted.pagination
      combined }

def Window.absolute (w : Window) : Window := { w with preset := none }

/-- A prepared query with the window it is prepared with again. -/
def Prepared.again (p : Prepared) : Prepared := { p with window := p.window.map Window.absolute }

theorem resolveWindow_again (ws' : Workspace) {q : NormalizedQuery} {timezone : String} {window : Option Window}
    (ranged : resolveWindow rt ws q timezone = .ok window)
    (readable : ∀ b ∈ window.map Window.bounds, b.Readable) (q' : NormalizedQuery)
    (absolute : q'.dateRange = (window.map Window.bounds).map Bounds.range) (timezone' : String) :
    resolveWindow rt ws' q' timezone' = .ok (window.map Window.absolute) := by
  obtain ⟨-, ordered⟩ := resolveWindow_iff.mp ranged
  refine resolveWindow_iff.mpr ⟨?_, ?_⟩
  · rw [absolute]
    cases window with
    | none => rfl
    | some w =>
        have back := readable w.bounds rfl
        simp only [Option.map_some, resolveDateRange_range rt.zones back.first back.last]
        rfl
  · rintro w mem
    obtain ⟨w, inside, rfl⟩ := Option.map_eq_some_iff.mp mem
    exact ordered w inside

/-- Preparing the options once more gives the same query, provided that they can be read back. -/
theorem prepare_again (settled : Settled rt ws) (metrics : ws'.metrics = ws.metrics)
    (connectors : ws'.connectors = ws.connectors) (prepared : prepareQuery rt ws raw = .ok p)
    (readable : p.options.Readable) : prepareQuery rt ws' p.options.js = .ok p.again := by
  obtain ⟨q, r, window, normal, refs, ranged, queryable, ready, rfl⟩ := prepareQuery_iff.mp prepared
  have accepted := normalizeQuery_accepted normal
  have options := prepared_accepted settled accepted refs ranged (q.scope ws)
  generalize zone : q.zone ws = timezone at *
  generalize q.scope ws = access at *
  have normal' := normalizeQuery_js options readable
  have refs' := (resolveMetricRefs_again settled.unique metrics
    (q.prepared r window timezone access).options.normalized
    accepted.metrics.each refs rfl rfl rfl).2
  have ranged' := resolveWindow_again ws' ranged readable.window
    (q.prepared r window timezone access).options.normalized rfl timezone
  have same : (window.map Window.absolute).map Window.bounds = window.map Window.bounds := by
    cases window <;> rfl
  have kept : (q.prepared r window timezone access).again =
      (q.prepared r window timezone access).options.normalized.prepared r (window.map Window.absolute)
        timezone access := by
    unfold Prepared.again NormalizedQuery.prepared
    simp only [Options.normalized, same]
  have tenant : (q.prepared r window timezone access).options.normalized.tenantId = q.tenantId := rfl
  have zoned : (q.prepared r window timezone access).options.normalized.zone ws' = timezone := rfl
  have granted : (q.prepared r window timezone access).options.normalized.scope ws' = access := by
    rw [NormalizedQuery.scope, Options.normalized, NormalizedQuery.prepared, Option.getD_some]
  rw [← connectors, ← tenant] at ready
  rw [kept, prepareQuery_iff]
  generalize (q.prepared r window timezone access).options.normalized = q' at *
  refine ⟨q', r, window.map Window.absolute, normal', refs', ?_, ?_, ready, ?_⟩
  · rw [zoned]
    exact ranged'
  · rw [granted]
    exact queryable
  · rw [zoned, granted]

theorem readable_of_prepare (settled : Settled rt ws) (prepared : prepareQuery rt ws raw = .ok p)
    {p' : Prepared} (again : prepareQuery rt ws' p.options.js = .ok p') : p.options.Readable := by
  obtain ⟨q, r, window, normal, refs, ranged, -, -, rfl⟩ := prepareQuery_iff.mp prepared
  obtain ⟨q', -, -, normal', -⟩ := prepareQuery_iff.mp again
  exact readable_of_normalizeQuery
    (prepared_accepted settled (normalizeQuery_accepted normal) refs ranged (q.scope ws)) normal'

end Prepare

/-! ## The fixed point -/

section Fixed

variable {rt : Runtime} {ws : Workspace} {raw : EngineOptions} {p : Prepared}

/-- At every later instant the options are prepared as the same query over the same window, and that
window is a range that is accepted and stands for the same instants. -/
def Fixed (rt : Runtime) (ws : Workspace) (p : Prepared) : Prop :=
  ∀ later, ws.now ≤ later →
    (∃ p', prepareQuery rt { ws with now := later } p.options.js = .ok p' ∧
      p'.window.map Window.bounds = p.window.map Window.bounds ∧ p'.options = p.options) ∧
    ∀ b ∈ p.options.dateRange, ∃ range, validateDateRange rt b.js "dateRange" = pure range ∧
      (resolveDateRange rt.zones range p.timezone later).bounds = b

/-- The range of a query stands for a window with an end, and with ends of the years 100 to 9999 only. -/
def NormalizedQuery.Dated (rt : Runtime) (ws : Workspace) (q : NormalizedQuery) : Prop :=
  ∀ range ∈ q.dateRange,
    let w := resolveDateRange rt.zones range (q.zone ws) (q.now.getD ws.now)
    (w.fromDate.isSome = true ∨ w.toDate.isSome = true) ∧
      (∀ t ∈ w.fromDate, readable t = true) ∧ ∀ t ∈ w.toDate, readable t = true

/-- The versions that the references of a query resolve to are written with one to six digits. -/
def NormalizedQuery.Short (ws : Workspace) (q : NormalizedQuery) : Prop :=
  ∀ ref name, .ref ref name ∈ q.metrics → ∀ s, resolveMetricRef ws.metrics q.tenantId ref = some s →
    1 ≤ s.version ∧ s.version ≤ 999999

theorem readable_iff (settled : Settled rt ws) {q : NormalizedQuery} (accepted : q.Accepted rt)
    {r : ResolvedMetrics} (refs : resolveMetricRefs rt ws q = .ok r) {window : Option Window}
    (ranged : resolveWindow rt ws q (q.zone ws) = .ok window) :
    (q.prepared r window (q.zone ws) (q.scope ws)).options.Readable ↔ q.Dated rt ws ∧ q.Short ws := by
  have options := prepared_accepted settled accepted refs ranged (q.scope ws)
  obtain ⟨⟨found, all, metrics, -⟩, -⟩ := resolveMetricRefs_again settled.unique rfl
    { q with metrics := r.metrics, connectorIds := r.connectorIds } accepted.metrics.each refs rfl rfl rfl
  obtain ⟨is, -⟩ := resolveWindow_iff.mp ranged
  constructor
  · intro readable
    refine ⟨fun range asked => ?_, fun ref name mem s resolved => ?_⟩
    · have back := readable.window _ (by
        change _ ∈ window.map Window.bounds
        rw [is, Option.mem_def.mp asked]
        rfl)
      exact ⟨back.bounded, back.first, back.last⟩
    · obtain ⟨f, inside, of⟩ := exists_right_of_forall₂ all mem
      cases defn : f.2 with
      | none =>
          obtain ⟨-, op, column, name', is⟩ := of.plain defn
          exact nomatch is
      | some d =>
          obtain ⟨ref', name', s', same, resolved', version⟩ := of.version d defn
          obtain ⟨rfl, rfl⟩ := Metric.ref.inj same
          obtain rfl : s = s' := Option.some.inj (resolved.symm.trans resolved')
          obtain ⟨key, plain, name'', pinned, -⟩ := of.defn d defn
          have named : Metric.ref d.pinned name'' ∈ r.metrics := by
            rw [metrics, ← pinned]
            exact List.mem_map_of_mem inside
          have read := readable.metrics _ named
          rw [version]
          exact (isMetricRef_pinned key plain).mp read.1
  · rintro ⟨dated, short⟩
    refine ⟨fun b mem => ?_, fun m mem => (options.named m mem).readable ?_⟩
    · obtain ⟨w, there, rfl⟩ := Option.map_eq_some_iff.mp mem
      rw [is] at there
      obtain ⟨range, asked, rfl⟩ := Option.map_eq_some_iff.mp there
      obtain ⟨bounded, first, last⟩ := dated range asked
      exact ⟨options.column _ mem, bounded, first, last, options.ordered _ mem⟩
    · rintro text name rfl
      have mem : Metric.ref text name ∈ found.map Prod.fst := metrics ▸ mem
      obtain ⟨f, inside, is⟩ := List.mem_map.mp mem
      obtain ⟨m, asked, of⟩ := exists_left_of_forall₂ all inside
      cases defn : f.2 with
      | none =>
          obtain ⟨same, op, column, name', rfl⟩ := of.plain defn
          exact nomatch same.symm.trans is
      | some d =>
          obtain ⟨ref, name', s, rfl, resolved, version⟩ := of.version d defn
          obtain ⟨key, plain, name'', pinned, -⟩ := of.defn d defn
          obtain ⟨rfl, -⟩ := Metric.ref.inj (is.symm.trans pinned)
          rw [isMetricRef_pinned key plain, ← version]
          exact short ref name' asked s resolved

theorem prepared_again_iff (settled : Settled rt ws) (prepared : prepareQuery rt ws raw = .ok p) :
    Fixed rt ws p ↔ ∀ q, normalizeQuery rt raw = .ok q → q.Dated rt ws ∧ q.Short ws := by
  obtain ⟨q, r, window, normal, refs, ranged, queryable, ready, rfl⟩ := prepareQuery_iff.mp prepared
  have accepted := normalizeQuery_accepted normal
  have back := readable_iff settled accepted refs ranged
  constructor
  · intro fixed q' normal'
    obtain rfl : q = q' := Except.ok.inj (normal.symm.trans normal')
    obtain ⟨⟨p', again, -⟩, -⟩ := fixed ws.now (le_refl _)
    exact back.mp (readable_of_prepare settled prepared again)
  · intro holds later _
    have readable := back.mpr (holds q normal)
    refine ⟨⟨_, prepare_again settled rfl rfl prepared readable, ?_, rfl⟩, fun b mem => ?_⟩
    · cases window <;> rfl
    · have read := readable.window b mem
      refine ⟨_, validateDateRange_js rt read "dateRange", ?_⟩
      rw [resolveDateRange_range rt.zones read.first read.last]
      rfl

theorem settled_bare : Settled Runtime.plain bareWorkspace where
  zones :=
    { utc := rfl
      known := fun _ _ => rfl
      trimmed := fun _ _ => trim_utc
      short := fun _ _ => show "UTC".isEmpty = false ∧ jsLength "UTC" ≤ 64 by decide
      again := fun _ _ => rfl }
  normalized _ := ⟨"UTC", show "UTC" = normalizeTimeZone Zones.utc "UTC" by decide⟩
  unique a mem := nomatch mem

/-- The rows of a dataset up to the given end, counted. -/
def countUntil (last : String) : EngineOptions where
  entries :=
    [("tenantId", .str "t1"), ("connectorIds", .arr [.str "0123456789abcdef01234567"]),
      ("metrics", .arr [.obj [("op", .str "count")]]),
      ("dateRange", .obj [("field", .str "day"), ("to", .str last)])]
  access := none

theorem prepared_again_earlier :
    ∃ p, prepareQuery Runtime.plain bareWorkspace (countUntil "9989-12-31T23:30:00-05:00") = .ok p ∧
      Fixed Runtime.plain bareWorkspace p := by
  have again := @prepared_again_iff _ _ (countUntil "9989-12-31T23:30:00-05:00") _ settled_bare rfl
  refine ⟨_, rfl, again.mpr fun q normal => ?_⟩
  obtain rfl := Except.ok.inj normal
  constructor
  · rintro range ⟨⟩
    refine ⟨.inr rfl, fun t is => (nomatch is), ?_⟩
    rintro t ⟨⟩
    decide
  · intro ref name mem
    have mem : Metric.ref ref name ∈ [Metric.plain .count none none] := mem
    exact nomatch List.mem_singleton.mp mem

/-- The last day of the year 9999, five hours west of UTC, ends in the year 10000. -/
theorem last_day_not_prepared_again : ¬ ∀ rt ws raw p, Settled rt ws →
    prepareQuery rt ws raw = .ok p → Fixed rt ws p := by
  intro all
  have fixed := all _ _ (countUntil "9999-12-31T23:30:00-05:00") _ settled_bare rfl
  obtain ⟨⟨p', again, -⟩, -⟩ := fixed bareWorkspace.now (le_refl _)
  have back := @readable_of_prepare _ _ _ (countUntil "9999-12-31T23:30:00-05:00") _ settled_bare rfl _ again
  exact absurd ((back.window _ rfl).last _ rfl) (by decide)

end Fixed

end AnalyticsBackend.Analytics
