import AnalyticsBackend.Security.Detects
import AnalyticsBackend.Security.Exports

/-!
# Exports after a role grant

The rule looks for a grant once per caller and slice, before the caller's first export of the slice. So an
export after a grant is flagged where the first export of its slice, or of an earlier one, is after a
grant as well.
-/

namespace AnalyticsBackend.Security
open Lib Mongo

/-! ## Slicing time -/

/-- Slices that go on from an instant, each from where the one before it stops. A catch-up that is capped
leaves a gap instead. -/
def Chained (start : Int) : List Slice → Prop
  | [] => True
  | slice :: rest => slice.start = start ∧ slice.start < slice.stop ∧ Chained slice.stop rest

/-- The slices that a rule was evaluated for, from where it has begun. -/
structure Slicing where
  start : Int
  slices : List Slice

/-- The watermark. -/
def Slicing.watermark (slicing : Slicing) : Int :=
  (slicing.slices.getLast?.map Slice.stop).getD slicing.start

/-- The watermark has passed an instant. -/
def Slicing.Passed (slicing : Slicing) (t : Int) : Prop := slicing.start < t ∧ t ≤ slicing.watermark

/-- The slices up to the one that holds an instant. -/
def Slicing.upTo (slicing : Slicing) (t : Int) : List Slice :=
  slicing.slices.filter fun slice => slice.start < t

theorem Chained.holds {start t : Int} {list : List Slice} (chained : Chained start list) (after : start < t)
    (before : t ≤ (list.getLast?.map Slice.stop).getD start) :
    ∃ slice ∈ list, inRange slice.start slice.stop t = true := by
  induction list generalizing start with
  | nil => exact absurd after (not_lt.mpr before)
  | cons slice rest ih =>
      obtain ⟨rfl, -, chained⟩ := chained
      by_cases inside : t ≤ slice.stop
      · exact ⟨slice, List.mem_cons_self, by simp [inRange, inside, after]⟩
      · have past : t ≤ (rest.getLast?.map Slice.stop).getD slice.stop := by
          cases rest with
          | nil => exact before
          | cons next rest => exact before
        obtain ⟨held, mem, holds⟩ := ih chained (not_le.mp inside) past
        exact ⟨held, List.mem_cons_of_mem _ mem, holds⟩

/-- Without gaps, an instant that the watermark has passed lies in a slice. -/
theorem Slicing.holds {slicing : Slicing} (chained : Chained slicing.start slicing.slices) {t : Int}
    (passed : slicing.Passed t) : ∃ slice ∈ slicing.slices, inRange slice.start slice.stop t = true :=
  chained.holds passed.1 passed.2

/-! ## Exports and grants -/

namespace unusualExports

variable (config : UnusualExportsConfig) (apiPrefix : String) (server : Server)
  (history : ExportHistory)

/-- The exports that there were: audit export requests, and requests for a data export that succeeded. -/
def exports : List ExportEvent :=
  history.auditExports.filterMap auditEvent ++
    (history.accessLog.filter fun row => underPrefix (prefixes config apiPrefix) row.path &&
      row.method = "POST" && row.statusCode ≤ 399).filterMap dataEvent

/-- A role was granted to someone. -/
def GrantTo (granteeId : String) (row : GrantRow) : Prop :=
  row.module = "iam.roles" ∧ row.action = "rbac.role.granted" ∧
    (row.metadata.any (·.granteeId = some granteeId) = true ∨
      row.after.any (·.granteeId = some granteeId) = true ∨ row.resourceId = some granteeId)

/-- An export follows a grant to its caller by less than `newGrantDays`. -/
def FollowsGrant (e : ExportEvent) : Prop :=
  ∃ g ∈ history.auditLog, GrantTo e.actorId g ∧ g.occurredAt < e.time ∧
    e.time - g.occurredAt < config.grantMs

/-- A grant to a caller lies in the `newGrantDays` before an instant. -/
def GrantBefore (caller : ActorType × String) (t : Int) : Prop :=
  ∃ g ∈ history.auditLog, GrantTo caller.2 g ∧ t - config.grantMs ≤ g.occurredAt ∧ g.occurredAt < t

/-- The first export of a caller in a slice. -/
def FirstIn (slice : Slice) (caller : ActorType × String) (first : ExportEvent) : Prop :=
  (first ∈ exports config apiPrefix history ∧ key first = some caller ∧
    inRange slice.start slice.stop first.time = true) ∧
  ∀ e ∈ exports config apiPrefix history, key e = some caller →
    inRange slice.start slice.stop e.time = true → first.time ≤ e.time

/-- The rule finds in a slice that a caller has exported after a grant. -/
def Finds (slice : Slice) (caller : ActorType × String) : Prop :=
  ∃ d ∈ evaluate config apiPrefix server history slice, d.subject.type = caller.1.name ∧
    d.subject.id = caller.2 ∧ d.dedupe = some "new_grant"

/-- No read of exports for a slice matches more rows than its limit. -/
def WholeReads (slice : Slice) : Prop :=
  Whole DEFAULT_LIMIT (auditFilter (slice.start - config.window.ms) slice.stop) history.auditExports ∧
    Whole DEFAULT_LIMIT (dataFilter (prefixes config apiPrefix) (slice.start - config.window.ms)
      slice.stop) history.accessLog

/-- Every export that follows a grant to its caller, and that the watermark has passed, has had a
detection in a slice up to its own. -/
def Flagged (slicing : Slicing) : Prop :=
  ∀ e ∈ exports config apiPrefix history, slicing.Passed e.time → FollowsGrant config history e →
    ∃ slice ∈ slicing.upTo e.time,
      Finds config apiPrefix server history slice (e.actorType, e.actorId)

/-- Where an export follows a grant to its caller, so does the first export of the caller in a slice up
to its own. -/
def FirstsFollow (slicing : Slicing) : Prop :=
  ∀ e ∈ exports config apiPrefix history, slicing.Passed e.time → FollowsGrant config history e →
    ∃ slice ∈ slicing.upTo e.time, ∃ first,
      FirstIn config apiPrefix history slice (e.actorType, e.actorId) first ∧
        GrantBefore config history (e.actorType, e.actorId) first.time

/-! ## What is read -/

section Read

variable {config apiPrefix server history} {slice : Slice} {start stop : Int}

theorem time_auditEvent {row : AuditExportRow} {e : ExportEvent} (is : auditEvent row = some e) :
    e.time = row.createdAt := by
  obtain ⟨actorId, -, rfl⟩ := Option.map_eq_some_iff.mp is
  rfl

theorem time_dataEvent {row : AccessRow} {e : ExportEvent} (is : dataEvent row = some e) :
    e.time = row.occurredAt := by
  obtain ⟨actorId, -, rfl⟩ := Option.map_eq_some_iff.mp is
  rfl

/-- A read that is whole has the rows in its range. -/
theorem mem_readSorted {R : Type} {limit : Nat} {time : R → Int} {filter : R → Bool} {rows : List R}
    (whole : Whole limit filter rows) (row : R) :
    row ∈ readSorted server limit time filter rows ↔ row ∈ rows ∧ filter row = true := by
  rw [(perm_readSorted whole).mem_iff, List.mem_filter]

theorem underPrefix_nil (path : String) : underPrefix [] path = false := rfl

theorem mem_listDataExports
    (whole : Whole DEFAULT_LIMIT (dataFilter (prefixes config apiPrefix) start stop) history.accessLog)
    (row : AccessRow) : row ∈ listDataExports server history (prefixes config apiPrefix) start stop ↔
      row ∈ history.accessLog ∧ dataFilter (prefixes config apiPrefix) start stop row = true := by
  unfold listDataExports
  split
  · rename_i none
    simp [none, dataFilter, underPrefix_nil]
  · exact mem_readSorted whole row

/-- Reads that are whole have the exports in their range. -/
theorem mem_loadExports
    (whole : Whole DEFAULT_LIMIT (auditFilter start stop) history.auditExports ∧
      Whole DEFAULT_LIMIT (dataFilter (prefixes config apiPrefix) start stop) history.accessLog)
    (e : ExportEvent) : e ∈ loadExports config apiPrefix server history start stop ↔
      e ∈ exports config apiPrefix history ∧ inRange start stop e.time = true := by
  unfold loadExports exports
  rw [List.mem_insertionSort, List.mem_append, List.mem_append, or_and_right]
  refine or_congr ?_ ?_
  · simp only [List.mem_filterMap]
    constructor
    · rintro ⟨row, mem, is⟩
      obtain ⟨among, inside⟩ := (mem_readSorted whole.1 row).mp mem
      exact ⟨⟨row, among, is⟩, time_auditEvent is ▸ inside⟩
    · rintro ⟨⟨row, among, is⟩, inside⟩
      exact ⟨row, (mem_readSorted whole.1 row).mpr ⟨among, (time_auditEvent is ▸ inside :)⟩, is⟩
  · simp only [List.mem_filterMap, List.mem_filter]
    constructor
    · rintro ⟨row, mem, is⟩
      obtain ⟨among, passes⟩ := (mem_listDataExports whole.2 row).mp mem
      simp only [dataFilter, Bool.and_eq_true] at passes
      refine ⟨⟨row, ⟨among, ?_⟩, is⟩, time_dataEvent is ▸ passes.1.1.2⟩
      simp only [Bool.and_eq_true]
      exact ⟨⟨passes.1.1.1, passes.1.2⟩, passes.2⟩
    · rintro ⟨⟨row, ⟨among, passes⟩, is⟩, inside⟩
      refine ⟨row, (mem_listDataExports whole.2 row).mpr ⟨among, ?_⟩, is⟩
      simp only [Bool.and_eq_true] at passes
      simp only [dataFilter, Bool.and_eq_true]
      exact ⟨⟨⟨passes.1.1, time_dataEvent is ▸ inside⟩, passes.1.2⟩, passes.2⟩

theorem sorted_loadExports : (loadExports config apiPrefix server history start stop).Pairwise
    fun a b => a.time ≤ b.time := by
  have total : Std.Total fun a b : ExportEvent => a.time ≤ b.time := ⟨fun a b => le_total ..⟩
  have trans : IsTrans ExportEvent fun a b => a.time ≤ b.time := ⟨fun _ _ _ => le_trans⟩
  exact List.pairwise_insertionSort _ _

/-- The grant that is looked up is there when some grant is. -/
theorem findLatestGrant_isSome {granteeId : String} {since before : Int} :
    (findLatestGrant server history granteeId since before).isSome = true ↔
      ∃ g ∈ history.auditLog, GrantTo granteeId g ∧ since ≤ g.occurredAt ∧ g.occurredAt < before := by
  unfold findLatestGrant
  rw [List.isSome_head?, ← List.isEmpty_eq_false_iff, List.isEmpty_eq_false_iff_exists_mem]
  constructor
  · rintro ⟨g, mem⟩
    obtain ⟨among, passes⟩ := List.mem_filter.mp ((List.mem_insertionSort _).mp mem)
    simp only [grantFilter, Bool.and_eq_true, Bool.or_eq_true, decide_eq_true_eq] at passes
    refine ⟨g, (perm_arrange _).mem_iff.mp among, ⟨passes.1.1.1.1, passes.1.1.1.2, ?_⟩, passes.1.1.2,
      passes.1.2⟩
    exact or_assoc.mp passes.2
  · rintro ⟨g, among, ⟨module, action, grantee⟩, since, before⟩
    refine ⟨g, (List.mem_insertionSort _).mpr (List.mem_filter.mpr
      ⟨(perm_arrange _).mem_iff.mpr among, ?_⟩)⟩
    simp only [grantFilter, Bool.and_eq_true, Bool.or_eq_true, decide_eq_true_eq]
    exact ⟨⟨⟨⟨module, action⟩, since⟩, before⟩, or_assoc.mpr grantee⟩

/-- The fresh exports of a caller are those of the slice. -/
theorem mem_fresh (whole : WholeReads config apiPrefix history slice) {caller : ActorType × String}
    (e : ExportEvent) :
    e ∈ ((loadExports config apiPrefix server history (slice.start - config.window.ms) slice.stop).filter
        fun e => key e = some caller).filter (fun e => slice.start < e.time) ↔
      e ∈ exports config apiPrefix history ∧ key e = some caller ∧
        inRange slice.start slice.stop e.time = true := by
  have positive := config.window.ms_pos
  simp only [List.mem_filter, mem_loadExports whole, inRange, Bool.and_eq_true, decide_eq_true_eq]
  constructor
  · rintro ⟨⟨⟨among, -, before⟩, own⟩, after⟩
    exact ⟨among, own, after, before⟩
  · rintro ⟨among, own, after, before⟩
    exact ⟨⟨⟨among, by omega, before⟩, own⟩, after⟩

theorem name_injective : Function.Injective ActorType.name := by
  intro a b same
  cases a <;> cases b <;> first | rfl | exact absurd same (by decide)

/-- A finding of a grant is made by the part of the rule for it. -/
theorem mem_ofCaller {caller : ActorType × String} {list : List ExportEvent} {d : Detection} :
    (d ∈ ofCaller config apiPrefix server history slice caller list ∧ d.dedupe = some "new_grant") ↔
      newGrant config server history caller
        ((list.filter fun e => slice.start < e.time).getLast?.bind ExportEvent.tenantId)
        (list.filter fun e => slice.start < e.time) = some d := by
  have own : ∀ {tenantId fresh}, newGrant config server history caller tenantId fresh = some d →
      d.dedupe = some "new_grant" := by
    intro tenantId fresh found
    unfold newGrant at found
    split at found
    · obtain ⟨first, -, found⟩ := Option.bind_eq_some_iff.mp found
      obtain ⟨grant, -, rfl⟩ := Option.map_eq_some_iff.mp found
      rfl
    · exact nomatch found
  have other : ∀ {tenantId}, volume config apiPrefix history slice caller tenantId list = some d →
      d.dedupe = some "volume" := by
    intro tenantId found
    unfold volume at found
    split at found
    · exact nomatch found
    · obtain ⟨best, -, rfl⟩ := Option.map_eq_some_iff.mp found
      rfl
  unfold ofCaller
  dsimp only
  split
  · rename_i none
    rw [none]
    constructor
    · rintro ⟨mem, -⟩
      exact nomatch mem
    · intro found
      unfold newGrant at found
      split at found <;> exact nomatch found
  · rw [List.mem_append, Option.mem_toList, Option.mem_toList]
    constructor
    · rintro ⟨found | found, kind⟩
      · rw [other found] at kind
        exact absurd kind (by decide)
      · exact found
    · exact fun found => ⟨.inr found, own found⟩

/-- The rule looks for a grant before the first of the fresh exports. -/
theorem newGrant_isSome (alerting : config.alertOnNewGrant = true) {caller : ActorType × String}
    {tenantId : Option String} {fresh : List ExportEvent} :
    (newGrant config server history caller tenantId fresh).isSome = true ↔
      ∃ first, fresh.head? = some first ∧ GrantBefore config history caller first.time := by
  unfold newGrant
  rw [if_pos alerting]
  cases fresh.head? with
  | none => simp
  | some first =>
      rw [Option.bind_some, Option.isSome_map, findLatestGrant_isSome]
      simp [GrantBefore]

/-- The rule finds a caller where the caller's first export of the slice is after a grant. -/
theorem finds_iff (alerting : config.alertOnNewGrant = true)
    (whole : WholeReads config apiPrefix history slice) (caller : ActorType × String) :
    Finds config apiPrefix server history slice caller ↔
      ∃ first, FirstIn config apiPrefix history slice caller first ∧
        GrantBefore config history caller first.time := by
  set events := loadExports config apiPrefix server history (slice.start - config.window.ms) slice.stop
    with eventsAre
  set list := events.filter fun e => key e = some caller with listIs
  set fresh := list.filter fun e => slice.start < e.time with freshIs
  have mem (e : ExportEvent) : e ∈ fresh ↔ e ∈ exports config apiPrefix history ∧
      key e = some caller ∧ inRange slice.start slice.stop e.time = true := mem_fresh whole e
  have sorted : fresh.Pairwise fun a b => a.time ≤ b.time := (sorted_loadExports.filter _).filter _
  have found : Finds config apiPrefix server history slice caller ↔
      (newGrant config server history caller (fresh.getLast?.bind ExportEvent.tenantId) fresh).isSome =
        true := by
    constructor
    · rintro ⟨d, inAll, type, id, kind⟩
      obtain ⟨group, inGroups, inGroup⟩ := List.mem_flatMap.mp inAll
      obtain ⟨k, -, rfl⟩ := List.mem_map.mp inGroups
      have is := mem_ofCaller.mp ⟨inGroup, kind⟩
      have own : k = caller := by
        obtain ⟨first, -, is⟩ : ∃ first, _ ∧ _ := by
          unfold newGrant at is
          rw [if_pos alerting] at is
          exact Option.bind_eq_some_iff.mp is
        obtain ⟨grant, -, rfl⟩ := Option.map_eq_some_iff.mp is
        exact Prod.ext (name_injective type) id
      subst own
      exact Option.isSome_iff_exists.mpr ⟨d, is⟩
    · intro some
      obtain ⟨d, is⟩ := Option.isSome_iff_exists.mp some
      obtain ⟨inGroup, kind⟩ := mem_ofCaller.mpr is
      obtain ⟨first, head, -⟩ := (newGrant_isSome alerting).mp some
      have inFresh : first ∈ fresh := List.mem_of_mem_head? head
      have inList := (List.mem_filter.mp inFresh).1
      obtain ⟨inEvents, ofKey⟩ := List.mem_filter.mp inList
      refine ⟨d, List.mem_flatMap.mpr ⟨_, mem_groupBy inEvents (of_decide_eq_true ofKey), inGroup⟩, ?_, ?_,
        kind⟩
      all_goals
        unfold newGrant at is
        rw [if_pos alerting] at is
        obtain ⟨first, -, is⟩ := Option.bind_eq_some_iff.mp is
        obtain ⟨grant, -, rfl⟩ := Option.map_eq_some_iff.mp is
        rfl
  rw [found, newGrant_isSome alerting]
  constructor
  · rintro ⟨first, head, before⟩
    obtain ⟨rest, is⟩ : ∃ rest, fresh = first :: rest := by
      cases all : fresh with
      | nil => rw [all] at head; exact nomatch head
      | cons e rest =>
          rw [all, List.head?_cons, Option.some.injEq] at head
          exact ⟨rest, by rw [head]⟩
    refine ⟨first, ⟨(mem first).mp (is ▸ List.mem_cons_self), ?_⟩, before⟩
    intro e among own inside
    have among' := (mem e).mpr ⟨among, own, inside⟩
    rw [is] at among' sorted
    rcases List.mem_cons.mp among' with rfl | later
    · exact le_rfl
    · exact (List.pairwise_cons.mp sorted).1 e later
  · rintro ⟨first, ⟨isFirst, least⟩, before⟩
    have among := (mem first).mpr isFirst
    cases is : fresh with
    | nil => rw [is] at among; exact nomatch among
    | cons head rest =>
        have headMem := (mem head).mp (is ▸ List.mem_cons_self)
        have same : head.time = first.time := by
          refine le_antisymm ?_ (least head headMem.1 headMem.2.1 headMem.2.2)
          rw [is] at among sorted
          rcases List.mem_cons.mp among with rfl | later
          · exact le_rfl
          · exact (List.pairwise_cons.mp sorted).1 first later
        exact ⟨head, rfl, same ▸ before⟩

end Read

/-- Over any slices whose reads are whole, every export that follows a grant to its caller is flagged by the
time the watermark has passed it if and only if, for each of them, the caller's first export in its slice
or in an earlier one follows a grant too. -/
theorem flagged_iff (alerting : config.alertOnNewGrant = true) (slicing : Slicing)
    (whole : ∀ slice ∈ slicing.slices, WholeReads config apiPrefix history slice) :
    Flagged config apiPrefix server history slicing ↔ FirstsFollow config apiPrefix history slicing := by
  unfold Flagged FirstsFollow
  refine forall_congr' fun e => forall_congr' fun among => forall_congr' fun passed =>
    forall_congr' fun follows => ?_
  refine exists_congr fun slice => and_congr_right fun mem => ?_
  exact finds_iff alerting (whole slice (List.mem_of_mem_filter mem)) _

/-- Where the slices have no gap, and none has an export that follows a grant after a first one that does
not, the condition is met. -/
theorem firstsFollow_of_each {slicing : Slicing} (chained : Chained slicing.start slicing.slices)
    (each : ∀ slice ∈ slicing.slices, ∀ e ∈ exports config apiPrefix history,
      inRange slice.start slice.stop e.time = true → FollowsGrant config history e →
        ∃ first, FirstIn config apiPrefix history slice (e.actorType, e.actorId) first ∧
          GrantBefore config history (e.actorType, e.actorId) first.time) :
    FirstsFollow config apiPrefix history slicing := by
  intro e among passed follows
  obtain ⟨slice, mem, inside⟩ := Slicing.holds chained passed
  have begun : slice.start < e.time := by
    simp only [inRange, Bool.and_eq_true, decide_eq_true_eq] at inside
    exact inside.1
  exact ⟨slice, List.mem_filter.mpr ⟨mem, by simpa using begun⟩, each slice mem e among inside follows⟩

namespace Promoted

/-- A data export of a user. -/
def dataExport (id : Nat) (t : Int) : AccessRow where
  id := ⟨id⟩
  actorType := .user
  actorId := some "user-1"
  tenantId := some "tenant-1"
  method := "POST"
  path := "/api/v1/analytics/export"
  statusCode := 202
  occurredAt := t

/-- A role is granted to the user. -/
def grant (t : Int) : GrantRow where
  id := ⟨9⟩
  module := "iam.roles"
  action := "rbac.role.granted"
  resourceId := some "user-1"
  metadata := some { granteeId := some "user-1", roleName := some "owner" }
  after := none
  occurredAt := t

/-- The grant, and exports at these times. -/
def exported (granted : Int) (times : List Int) : ExportHistory where
  auditExports := []
  accessLog := times.map fun t => dataExport t.toNat t
  auditLog := [grant granted]

/-- One slice of an hour. -/
def hour : Slicing where
  start := 0
  slices := [{ start := 0, stop := 3600000, now := 3660000, finalSlice := true }]

theorem whole (granted : Int) {times : List Int} (few : times.length ≤ 2) (slice : Slice) :
    WholeReads {} "/api/v1" (exported granted times) slice := by
  constructor
  · exact Nat.zero_le _
  · refine List.countP_le_length.trans ?_
    unfold DEFAULT_LIMIT
    simp only [exported, List.length_map]
    omega

end Promoted

open Promoted in
/-- Both exports after the grant. -/
theorem flagged_iff_after : Flagged {} "/api/v1" Server.plain (exported 300000 [600000, 1800000]) hour := by
  refine (flagged_iff {} "/api/v1" Server.plain _ rfl hour
    (fun slice _ => whole 300000 (show [600000, 1800000].length ≤ 2 by decide) slice)).mpr ?_
  have chained : Chained hour.start hour.slices := ⟨rfl, by decide, trivial⟩
  refine firstsFollow_of_each {} "/api/v1" _ chained fun slice mem e among inside follows => ?_
  obtain rfl := List.mem_singleton.mp mem
  have two : ∀ e ∈ exports {} "/api/v1" (exported 300000 [600000, 1800000]),
      e.actorType = .user ∧ e.actorId = "user-1" ∧ 600000 ≤ e.time := by decide +kernel
  obtain ⟨type, id, -⟩ := two e among
  rw [type, id]
  obtain ⟨first, isFirst, own, at'⟩ : ∃ first ∈ exports {} "/api/v1" (exported 300000 [600000, 1800000]),
      key first = some (.user, "user-1") ∧ first.time = 600000 := by decide +kernel
  refine ⟨first, ⟨⟨isFirst, own, by rw [at']; decide⟩, fun e among _ _ => at' ▸ (two e among).2.2⟩, ?_⟩
  rw [at']
  exact ⟨grant 300000, List.mem_singleton_self _, ⟨rfl, rfl, .inr (.inr rfl)⟩, by decide, by decide⟩

open Promoted in
/-- An export before the grant hides the one after it. -/
theorem grant_between_exports_missed : ¬ ∀ config apiPrefix server history,
    config.alertOnNewGrant = true → ∀ slicing, Flagged config apiPrefix server history slicing := by
  intro all
  have flagged := all {} "/api/v1" Server.plain (exported 1200000 [600000, 1800000]) rfl hour
  obtain ⟨e, among, at', id⟩ : ∃ e ∈ exports {} "/api/v1" (exported 1200000 [600000, 1800000]),
      e.time = 1800000 ∧ e.actorId = "user-1" := by decide +kernel
  have passed : hour.Passed e.time := by
    rw [at']
    exact ⟨by decide, by decide⟩
  have follows : FollowsGrant {} (exported 1200000 [600000, 1800000]) e := by
    refine ⟨grant 1200000, List.mem_singleton_self _, ⟨rfl, rfl, .inr (.inr ?_)⟩, ?_, ?_⟩
    · rw [id]; rfl
    · rw [at']; decide
    · rw [at']; decide
  obtain ⟨slice, mem, d, found, -, -, kind⟩ := flagged e among passed follows
  obtain rfl := List.mem_singleton.mp (List.mem_of_mem_filter mem)
  have none : ∀ d ∈ evaluate {} "/api/v1" Server.plain (exported 1200000 [600000, 1800000])
      { start := 0, stop := 3600000, now := 3660000, finalSlice := true },
      d.dedupe ≠ some "new_grant" := by decide +kernel
  exact none d found kind

end unusualExports

end AnalyticsBackend.Security
