import AnalyticsBackend.Analytics.Engine
import AnalyticsBackend.Analytics.ReadBack

/-!
# Pinned references

A prepared query names each metric definition with its version. What such a reference says when it is
read again, and what it resolves to.
-/

namespace AnalyticsBackend.Analytics

open Lib Lib.Mongo

/-! ## Decimal numbers -/

theorem head?_toDigits {n : Nat} (pos : 0 < n) : (Nat.toDigits 10 n).head? ≠ some '0' := by
  induction n using Nat.strongRecOn with
  | ind n ih =>
      rw [Nat.toDigits_eq_if (by decide)]
      split
      · rename_i small
        have each : ∀ k < 10, 0 < k → [k.digitChar].head? ≠ some '0' := by decide
        exact each n small pos
      · rename_i large
        rw [List.head?_append_of_ne_nil _ Nat.toDigits_ne_nil]
        exact ih (n / 10) (by omega) (by omega)

theorem isDigit_toDigits (n : Nat) : (Nat.toDigits 10 n).all Char.isDigit = true :=
  List.all_eq_true.mpr fun _ mem => Nat.isDigit_of_mem_toDigits (by decide) (by decide) mem

theorem decimalIndex_toDigits (n : Nat) : decimalIndex (String.ofList (Nat.toDigits 10 n)) = some n := by
  have canonical : Nat.toDigits 10 n = ['0'] ∨ (Nat.toDigits 10 n).head? ≠ some '0' := by
    rcases Nat.eq_zero_or_pos n with rfl | pos
    · exact .inl rfl
    · exact .inr (head?_toDigits pos)
  rw [decimalIndex, String.toList_ofList, if_pos ⟨Nat.toDigits_ne_nil, isDigit_toDigits n, canonical⟩]
  have read := Nat.ofDigitChars_ten_toDigits (n := n)
  rw [Nat.ofDigitChars_eq_foldl] at read
  exact congrArg some read

/-! ## The text of a reference -/

theorem pinned_toList (d : MetricDefinition) :
    d.pinned.toList = "metric:".toList ++ (d.key.toList ++ '@' :: Nat.toDigits 10 d.version) := by
  simp [MetricDefinition.pinned, toString]

theorem notMem_toDigits (n : Nat) : '@' ∉ Nat.toDigits 10 n := fun mem =>
  absurd (Nat.isDigit_of_mem_toDigits (by decide) (by decide) mem) (by decide)

section Pinned

variable {d : MetricDefinition}

theorem drop_pinned (d : MetricDefinition) : d.pinned.toList.drop "metric:".length =
    d.key.toList ++ '@' :: Nat.toDigits 10 d.version := by
  rw [pinned_toList]
  rfl

theorem splitChars_key (plain : '@' ∉ d.key.toList) :
    splitChars '@' (d.key.toList ++ '@' :: Nat.toDigits 10 d.version) =
      [d.key.toList, Nat.toDigits 10 d.version] := by
  rw [splitChars_append plain, splitChars_of_notMem (notMem_toDigits d.version)]

theorem refKey_pinned (plain : '@' ∉ d.key.toList) : refKey d.pinned = d.key := by
  have all : ∀ c ∈ d.key.toList, decide (c ≠ '@') = true := fun c mem =>
    decide_eq_true fun is => plain (is ▸ mem)
  rw [refKey, drop_pinned, List.takeWhile_append_of_pos all, List.takeWhile_cons_of_neg (by simp),
    List.append_nil, String.ofList_toList]

theorem refVersion_pinned (plain : '@' ∉ d.key.toList) : refVersion d.pinned = some d.version := by
  have whole : splitChars '@' d.pinned.toList =
      ["metric:".toList ++ d.key.toList, Nat.toDigits 10 d.version] := by
    rw [pinned_toList, ← List.append_assoc, splitChars_append, splitChars_of_notMem (notMem_toDigits _)]
    exact fun mem => (List.mem_append.mp mem).elim (by decide) plain
  rw [refVersion, whole]
  exact decimalIndex_toDigits d.version

theorem isRefVersion_toDigits (n : Nat) :
    isRefVersion (Nat.toDigits 10 n) = true ↔ 1 ≤ n ∧ n ≤ 999999 := by
  have short := Nat.length_toDigits_le_iff (n := n) (k := 6) (b := 10) (by decide) (by decide)
  rcases Nat.eq_zero_or_pos n with rfl | pos
  · decide
  · have first := head?_toDigits pos
    have digits := isDigit_toDigits n
    cases is : Nat.toDigits 10 n with
    | nil => exact absurd is Nat.toDigits_ne_nil
    | cons c rest =>
        rw [is] at short digits first
        have first : c ≠ '0' := fun same => first (by rw [same]; rfl)
        simp only [isRefVersion, digits, Bool.and_true, Bool.and_eq_true, decide_eq_true_eq, ne_eq, first,
          not_false_eq_true, true_and, short]
        omega

/-- The reference can be read again when its version is short enough. -/
theorem isMetricRef_pinned (key : isMetricRef.isKey d.key.toList = true) (plain : '@' ∉ d.key.toList) :
    isMetricRef d.pinned = true ↔ 1 ≤ d.version ∧ d.version ≤ 999999 := by
  have starts : hasPrefix "metric:" d.pinned = true := by
    rw [hasPrefix, pinned_toList, List.isPrefixOf_iff_prefix]
    exact List.prefix_append _ _
  rw [isMetricRef, starts, drop_pinned, splitChars_key plain]
  simp only [key, Bool.true_and]
  exact isRefVersion_toDigits d.version

end Pinned

theorem takeWhile_splitChars (c : Char) (s : List Char) :
    (splitChars c s).head? = some (s.takeWhile fun d => d ≠ c) := by
  induction s with
  | nil => rfl
  | cons d rest ih =>
      rw [splitChars_cons]
      split
      · rename_i same
        rw [List.takeWhile_cons_of_neg (by simp [same])]
        rfl
      · rename_i apart
        rw [List.takeWhile_cons_of_pos (by simp [apart])]
        cases parts : splitChars c rest with
        | nil => exact absurd parts (splitChars_ne_nil c rest)
        | cons part parts' =>
            rw [parts] at ih
            rw [← Option.some.inj ih]
            rfl

theorem isKey_refKey {ref : String} (known : isMetricRef ref = true) :
    isMetricRef.isKey (refKey ref).toList = true := by
  have first := takeWhile_splitChars '@' (ref.toList.drop "metric:".length)
  rw [isMetricRef, Bool.and_eq_true] at known
  obtain ⟨-, known⟩ := known
  rw [refKey, String.toList_ofList]
  cases parts : splitChars '@' (ref.toList.drop "metric:".length) with
  | nil => exact absurd parts (splitChars_ne_nil _ _)
  | cons key later =>
      rw [parts] at known first
      rw [← Option.some.inj first]
      match later, known with
      | [], known => exact known
      | [version], known => exact (Bool.and_eq_true _ _ ▸ known).1

theorem notMem_refKey (ref : String) : '@' ∉ (refKey ref).toList := by
  rw [refKey, String.toList_ofList]
  intro mem
  have before := List.all_eq_true.mp
    (List.all_takeWhile (p := fun c => decide (c ≠ '@')) (l := ref.toList.drop "metric:".length)) _ mem
  exact absurd rfl (of_decide_eq_true before)

/-! ## Resolving again -/

/-- One document for each version of a key in a workspace: the unique index of the collection. -/
def Workspace.Unique (ws : Workspace) : Prop :=
  ∀ a ∈ ws.metrics, ∀ b ∈ ws.metrics, a.tenantId = b.tenantId → a.key = b.key →
    a.version = b.version → a = b

theorem mem_of_foldl_choice {A : Type} {f : Option A → A → Option A}
    (picks : ∀ chosen a, f chosen a = chosen ∨ f chosen a = some a) {l : List A} {chosen : Option A}
    {d : A} (is : l.foldl f chosen = some d) : chosen = some d ∨ d ∈ l := by
  induction l generalizing chosen with
  | nil => exact .inl is
  | cons a rest ih =>
      rcases ih is with now | later
      · rcases picks chosen a with same | next
        · exact .inl (same ▸ now)
        · exact .inr (List.mem_cons.mpr (.inl (Option.some.inj (now.symm.trans next))))
      · exact .inr (List.mem_cons_of_mem _ later)

theorem resolveMetricRef_spec {stored : List StoredMetric} {tenantId ref : String} {d : StoredMetric}
    (is : resolveMetricRef stored tenantId ref = some d) :
    d ∈ stored ∧ d.tenantId = tenantId ∧ d.key = refKey ref ∧ d.status = .approved := by
  have own {l : List StoredMetric} (mem : d ∈ l.filter fun d => d.tenantId = tenantId ∧ d.key = refKey ref) :
      d ∈ l ∧ d.tenantId = tenantId ∧ d.key = refKey ref := by
    simpa using mem
  unfold resolveMetricRef at is
  cases version : refVersion ref with
  | some v =>
      simp only [version, Option.filter_eq_some_iff, decide_eq_true_eq] at is
      obtain ⟨mem, tenant, key⟩ := own (List.mem_of_find?_eq_some is.1)
      exact ⟨mem, tenant, key, is.2⟩
  | none =>
      simp only [version] at is
      have chosen := (mem_of_foldl_choice (fun chosen a => ?_) is).resolve_left (by simp)
      · obtain ⟨mem, approved⟩ := List.mem_filter.mp chosen
        obtain ⟨mem, tenant, key⟩ := own mem
        exact ⟨mem, tenant, key, of_decide_eq_true approved⟩
      · cases chosen with
        | none => exact .inr rfl
        | some l =>
            dsimp only
            split
            · exact .inr rfl
            · exact .inl rfl

theorem resolveMetricRef_again {ws : Workspace} (unique : ws.Unique) {tenantId ref ref' : String}
    {d : StoredMetric} (is : resolveMetricRef ws.metrics tenantId ref = some d)
    (key : refKey ref' = d.key) (version : refVersion ref' = some d.version) :
    resolveMetricRef ws.metrics tenantId ref' = some d := by
  obtain ⟨mem, tenant, -, approved⟩ := resolveMetricRef_spec is
  have own : d ∈ ws.metrics.filter fun d => d.tenantId = tenantId ∧ d.key = refKey ref' :=
    List.mem_filter.mpr ⟨mem, decide_eq_true ⟨tenant, key.symm⟩⟩
  rw [resolveMetricRef, version]
  dsimp only
  cases found : (ws.metrics.filter fun d => d.tenantId = tenantId ∧ d.key = refKey ref').find?
      fun e => e.version = d.version with
  | none => exact absurd (List.find?_eq_none.mp found d own) (by simp)
  | some e =>
      have same : e.version = d.version := by simpa using List.find?_some found
      obtain ⟨inside, asked⟩ := List.mem_filter.mp (List.mem_of_find?_eq_some found)
      have asked := of_decide_eq_true asked
      obtain rfl : e = d := unique e inside d mem (asked.1.trans tenant.symm) (asked.2.trans key) same
      simp [approved]

/-- A definition that was accepted is accepted by a query that includes its dataset. -/
theorem checkDefinition_again {rt : Runtime} {ids ids' : List String} {d : StoredMetric} {path : String}
    (clean : (checkDefinition rt ids d path).errors = []) (reads : d.connectorId.toHex ∈ ids') :
    checkDefinition rt ids' d path = pure (checkDefinition rt ids d path).value := by
  simp only [checkDefinition, Check.bind_errors, List.append_eq_nil_iff, Check.pure_errors,
    Check.bind_value, Check.pure_value] at clean ⊢
  obtain ⟨-, body, filters, -⟩ := clean
  rw [failIf_eq_pure (by simp [reads]), Check.pure_bind, Check.eq_pure body, Check.pure_bind,
    Check.eq_pure filters, Check.pure_bind]
  rfl

section Again

variable {rt : Runtime} {ws ws' : Workspace} {tenantId : String} {ids ids' : List String}

/-- What is known of a metric that was resolved in a query of the datasets `ids`. -/
structure Resolved (stored : List StoredMetric) (tenantId : String) (ids : List String) (m : Metric)
    (r : Metric × Option MetricDefinition) : Prop where
  name : metricAlias r.1 = metricAlias m
  defn : ∀ d ∈ r.2, isMetricRef.isKey d.key.toList = true ∧ '@' ∉ d.key.toList ∧
    ∃ name, r.1 = .ref d.pinned name ∧ ∀ a ∈ name, isSafeText a = true
  plain : r.2 = none → r.1 = m ∧ ∃ op column name, m = .plain op column name
  reads : ∀ d ∈ r.2, ids = [] ∨ d.connectorId.toHex ∈ ids
  version : ∀ d ∈ r.2, ∃ ref name s, m = .ref ref name ∧ resolveMetricRef stored tenantId ref = some s ∧
    s.version = d.version

theorem resolveMetric_again (unique : ws.Unique) (same : ws'.metrics = ws.metrics) {i : Nat} {m : Metric}
    (readable : m.Readable) (clean : (resolveMetric rt ws tenantId ids i m).errors = []) :
    Resolved ws.metrics tenantId ids m (resolveMetric rt ws tenantId ids i m).value ∧
      ((∀ d ∈ (resolveMetric rt ws tenantId ids i m).value.2, d.connectorId.toHex ∈ ids') →
        resolveMetric rt ws' tenantId ids' i (resolveMetric rt ws tenantId ids i m).value.1 =
          pure (resolveMetric rt ws tenantId ids i m).value) := by
  cases m with
  | plain op column name =>
      exact ⟨⟨rfl, fun d mem => (nomatch mem), fun _ => ⟨rfl, op, column, name, rfl⟩,
        fun d mem => (nomatch mem), fun d mem => (nomatch mem)⟩, fun _ => rfl⟩
  | ref ref name =>
      cases is : resolveMetricRef ws.metrics tenantId ref with
      | none => simp [resolveMetric, is] at clean
      | some d =>
          obtain ⟨known, safe⟩ := readable
          obtain ⟨-, -, key, -⟩ := resolveMetricRef_spec is
          simp only [resolveMetric, is, Check.bind_errors, Check.pure_errors, List.append_nil,
            Check.bind_value, Check.pure_value] at clean ⊢
          generalize checked : (checkDefinition rt ids d s!"metrics[{i}].ref").value = defn at *
          have fields : defn.key = d.key ∧ defn.version = d.version ∧ defn.connectorId = d.connectorId := by
            rw [← checked]
            exact ⟨rfl, rfl, rfl⟩
          obtain ⟨sameKey, sameVersion, sameDataset⟩ := fields
          have plain : '@' ∉ defn.key.toList := by
            rw [sameKey, key]
            exact notMem_refKey ref
          refine ⟨⟨?_, ?_, fun absent => (nomatch absent), ?_, ?_⟩, fun reads => ?_⟩
          · cases name with
            | some a => rfl
            | none =>
                change refKey defn.pinned = refKey ref
                rw [refKey_pinned plain, sameKey, key]
          · rintro d' is'
            obtain rfl : defn = d' := Option.some.inj is'
            refine ⟨?_, plain, name, rfl, safe⟩
            rw [sameKey, key]
            exact isKey_refKey known
          · rintro d' is'
            obtain rfl : defn = d' := Option.some.inj is'
            simp only [checkDefinition, Check.bind_errors, List.append_eq_nil_iff] at clean
            have included := good_of_failIf clean.1
            rw [sameDataset]
            rcases ids with - | ⟨first, rest⟩
            · exact .inl rfl
            · exact .inr (by simpa [or_iff_not_imp_left] using included)
          · rintro d' is'
            obtain rfl : defn = d' := Option.some.inj is'
            exact ⟨ref, name, d, rfl, is, sameVersion.symm⟩
          · have again := resolveMetricRef_again unique is ((refKey_pinned plain).trans sameKey)
              ((refVersion_pinned plain).trans (congrArg some sameVersion))
            rw [← same] at again
            have inside := reads defn rfl
            rw [sameDataset] at inside
            rw [again]
            dsimp only
            rw [checkDefinition_again clean inside, checked, Check.pure_bind]

theorem resolveAll_again (ids' : List String) (unique : ws.Unique) (same : ws'.metrics = ws.metrics)
    {i : Nat} {ms : List Metric} (readable : ∀ m ∈ ms, m.Readable)
    (clean : (checkItems (resolveMetric rt ws tenantId ids) i ms).errors = []) :
    List.Forall₂ (Resolved ws.metrics tenantId ids) ms (checkItems (resolveMetric rt ws tenantId ids) i ms).value ∧
      ((∀ d ∈ (checkItems (resolveMetric rt ws tenantId ids) i ms).value.filterMap Prod.snd,
          d.connectorId.toHex ∈ ids') →
        checkItems (resolveMetric rt ws' tenantId ids') i
            ((checkItems (resolveMetric rt ws tenantId ids) i ms).value.map Prod.fst) =
          pure (checkItems (resolveMetric rt ws tenantId ids) i ms).value) := by
  induction ms generalizing i with
  | nil => exact ⟨.nil, fun _ => rfl⟩
  | cons m rest ih =>
      obtain ⟨first, later⟩ := List.forall_mem_cons.mp readable
      simp only [checkItems, Check.bind_errors, Check.pure_errors, List.append_nil,
        List.append_eq_nil_iff, Check.bind_value, Check.pure_value] at clean ⊢
      obtain ⟨head, again⟩ := resolveMetric_again unique same first clean.1
      obtain ⟨tail, others⟩ := ih later clean.2
      refine ⟨.cons head tail, fun reads => ?_⟩
      have each (d : MetricDefinition) (is : d ∈ (resolveMetric rt ws tenantId ids i m).value.2) :
          d.connectorId.toHex ∈ ids' :=
        reads d (List.mem_filterMap.mpr ⟨_, List.mem_cons_self .., is⟩)
      have rest' := others fun d mem => by
        obtain ⟨r, inside, is⟩ := List.mem_filterMap.mp mem
        exact reads d (List.mem_filterMap.mpr ⟨r, List.mem_cons_of_mem _ inside, is⟩)
      rw [List.map_cons, checkItems, again each, Check.pure_bind, rest']
      rfl

theorem mem_sortStrings {names : List String} {s : String} : s ∈ sortStrings names ↔ s ∈ names :=
  (List.mergeSort_perm _ _).mem_iff

theorem length_eraseDups_le (names : List String) : names.eraseDups.length ≤ names.length := by
  cases names with
  | nil => simp
  | cons name rest =>
      have later := length_eraseDups_le (rest.filter fun other => !other == name)
      have kept := List.length_filter_le (fun other => !other == name) rest
      rw [List.eraseDups_cons, List.length_cons, List.length_cons]
      omega
termination_by names.length
decreasing_by
  have kept := List.length_filter_le (fun other => !other == name) rest
  rw [List.length_cons]
  omega

theorem resolveMetricRefs_again (unique : ws.Unique) (same : ws'.metrics = ws.metrics)
    {q : NormalizedQuery} (q' : NormalizedQuery) {r : ResolvedMetrics} (readable : ∀ m ∈ q.metrics, m.Readable)
    (is : resolveMetricRefs rt ws q = .ok r) (tenant : q'.tenantId = q.tenantId)
    (metrics : q'.metrics = r.metrics) (datasets : q'.connectorIds = r.connectorIds) :
    (∃ found, List.Forall₂ (Resolved ws.metrics q.tenantId q.connectorIds) q.metrics found ∧ r.metrics = found.map Prod.fst ∧
        r.connectorIds = (if q.connectorIds.isEmpty then
          sortStrings ((found.filterMap Prod.snd).map fun d => d.connectorId.toHex).eraseDups
          else q.connectorIds)) ∧
      resolveMetricRefs rt ws' q' = .ok r := by
  unfold resolveMetricRefs at is
  dsimp only at is
  split at is
  · rename_i clean
    rw [List.isEmpty_iff] at clean
    cases is
    dsimp only at metrics datasets ⊢
    obtain ⟨all, again⟩ := resolveAll_again q'.connectorIds unique same readable clean
    generalize (checkItems (resolveMetric rt ws q.tenantId q.connectorIds) 0 q.metrics).value = found at *
    refine ⟨⟨found, all, rfl, rfl⟩, ?_⟩
    have reads : ∀ d ∈ found.filterMap Prod.snd, d.connectorId.toHex ∈ q'.connectorIds := by
      intro d mem
      rw [datasets]
      split
      · exact mem_sortStrings.mpr (List.mem_eraseDups.mpr (List.mem_map_of_mem mem))
      · rename_i given
        obtain ⟨r, inside, is⟩ := List.mem_filterMap.mp mem
        obtain ⟨m, -, of⟩ := exists_left_of_forall₂ all inside
        exact (of.reads d is).resolve_left fun none => given (by rw [none]; rfl)
    have known := again reads
    rw [← tenant, ← metrics] at known
    unfold resolveMetricRefs
    rw [known]
    have kept : (if q'.connectorIds.isEmpty then
        sortStrings ((found.filterMap Prod.snd).map fun d => d.connectorId.toHex).eraseDups
        else q'.connectorIds) = q'.connectorIds := by
      rw [datasets]
      split
      · split <;> rfl
      · rfl
    simp only [Check.pure_errors, List.isEmpty_nil, if_true, Check.pure_value, kept]
    rw [datasets]
  · exact nomatch is

end Again

end AnalyticsBackend.Analytics
