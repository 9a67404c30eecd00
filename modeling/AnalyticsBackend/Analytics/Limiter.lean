import AnalyticsBackend.ApiError
import AnalyticsBackend.Lib.Js
import Mathlib.Algebra.Order.Archimedean.Basic
import Mathlib.Data.ENat.Basic

/-!
# The concurrency limiter

`services/analytics.limiter.js`: at most `maxConcurrent` aggregations of a tenant run at once,
and up to `maxQueued` more wait in a line. A slot that is released goes to the head of the line;
who waits too long is refused by a timer.
-/

namespace AnalyticsBackend.Analytics
open Lib

/-- What has become of the promise of an `acquire`. -/
inductive Settlement where
  | resolved
  | rejected (reason : ApiError)
  deriving DecidableEq

/-- `limitError`. -/
def limitError : ApiError where
  statusCode := 429
  code := .queryConcurrencyLimit
  message := "Too many analytics queries are running for this workspace. Wait a moment and try again."

/-- An object on the heap. -/
abbrev Ref : Type := Nat

/-- A waiter is known by its `acquire`. -/
structure LimiterEntry where
  active : Nat
  queue : List Nat
  deriving DecidableEq

/-- A timer that is set, with what its callback has captured. -/
@[ext]
structure LimiterTimer where
  entry : Ref
  waiter : Nat
  deriving DecidableEq

structure TenantConcurrencyLimiter where
  maxConcurrent : ℕ∞
  maxQueued : ℕ∞
  queueTimeoutMs : ℕ∞
  tenants : String → Option Ref
  heap : Ref → LimiterEntry
  next : Ref
  timers : List LimiterTimer

/-- `Math.max(least, Math.floor(n || least))`. -/
def wholeAtLeast (least : Nat) : Magnitude → ℕ∞
  | .nan | .negInf => least
  | .posInf => ⊤
  | .finite q => (max (least : ℤ) ⌊if q = 0 then (least : ℚ) else q⌋).toNat

namespace TenantConcurrencyLimiter

/-- The settings are what `Number` makes of them, `none` where they are undefined. -/
def configure (s : TenantConcurrencyLimiter)
    (maxConcurrent maxQueued queueTimeoutMs : Option Magnitude) : TenantConcurrencyLimiter :=
  { s with
    maxConcurrent := maxConcurrent.elim s.maxConcurrent (wholeAtLeast 1)
    maxQueued := maxQueued.elim s.maxQueued (wholeAtLeast 0)
    queueTimeoutMs := queueTimeoutMs.elim s.queueTimeoutMs (wholeAtLeast 0) }

/-- `constructor`, with its defaults. -/
def create (maxConcurrent maxQueued queueTimeoutMs : Option Magnitude) : TenantConcurrencyLimiter :=
  configure
    { maxConcurrent := 4, maxQueued := 16, queueTimeoutMs := 10000
      tenants := fun _ => none, heap := fun _ => ⟨0, []⟩, next := 0, timers := [] }
    maxConcurrent maxQueued queueTimeoutMs

/-- `state`: the entry of a tenant, made when it has none. -/
def state (s : TenantConcurrencyLimiter) (tenantId : String) : Ref × TenantConcurrencyLimiter :=
  match s.tenants tenantId with
  | some entry => (entry, s)
  | none =>
      (s.next, { s with
        tenants := Function.update s.tenants tenantId (some s.next)
        heap := Function.update s.heap s.next ⟨0, []⟩
        next := s.next + 1 })

def write (s : TenantConcurrencyLimiter) (entry : Ref) (value : LimiterEntry) :
    TenantConcurrencyLimiter :=
  { s with heap := Function.update s.heap entry value }

def stats (s : TenantConcurrencyLimiter) (tenantId : String) : Nat × Nat :=
  match s.tenants tenantId with
  | some entry => ((s.heap entry).active, (s.heap entry).queue.length)
  | none => (0, 0)

/-- `acquire`: its promise is settled at once, or waits. -/
def acquire (s : TenantConcurrencyLimiter) (waiter : Nat) (tenantId : String) :
    Option Settlement × TenantConcurrencyLimiter :=
  let (entry, s) := s.state tenantId
  let { active, queue } := s.heap entry
  if active < s.maxConcurrent then
    (some .resolved, s.write entry ⟨active + 1, queue⟩)
  else if s.maxQueued ≤ queue.length ∨ s.queueTimeoutMs = 0 then
    (some (.rejected limitError), s)
  else
    (none, { s.write entry ⟨active, queue ++ [waiter]⟩ with timers := ⟨entry, waiter⟩ :: s.timers })

/-- The callback of a timer: the waiter leaves the queue, if it is there, and is refused. -/
def timeout (s : TenantConcurrencyLimiter) (timer : LimiterTimer) :
    Settlement × TenantConcurrencyLimiter :=
  let { active, queue } := s.heap timer.entry
  (.rejected limitError,
    { s.write timer.entry ⟨active, queue.erase timer.waiter⟩ with timers := s.timers.filter (· ≠ timer) })

/-- `release`: with the waiter whose promise it resolves. -/
def release (s : TenantConcurrencyLimiter) (tenantId : String) :
    Option Nat × TenantConcurrencyLimiter :=
  match s.tenants tenantId with
  | none => (none, s)
  | some entry =>
      match s.heap entry with
      | ⟨active, next :: queue⟩ =>
          (some next, { s.write entry ⟨active, queue⟩ with
            timers := s.timers.filter (·.waiter ≠ next) })
      | ⟨active, []⟩ =>
          let s := s.write entry ⟨active - 1, []⟩
          (none, if active - 1 = 0 then { s with tenants := Function.update s.tenants tenantId none }
            else s)

end TenantConcurrencyLimiter

/-! ## Runs -/

/-- A limiter in use: the tenant of each `acquire` so far, the promises settled, in order, and the
slots released. -/
structure LimiterRun where
  limiter : TenantConcurrencyLimiter
  calls : List String := []
  settled : List (Nat × Settlement) := []
  released : List Nat := []

namespace LimiterRun

def settle (r : LimiterRun) (call : Nat) (settlement : Settlement) : LimiterRun :=
  { r with settled := r.settled ++ [(call, settlement)] }

def acquire (r : LimiterRun) (tenantId : String) : LimiterRun :=
  let (settlement, limiter) := r.limiter.acquire r.calls.length tenantId
  let called := { r with limiter, calls := r.calls ++ [tenantId] }
  settlement.elim called (called.settle r.calls.length)

def release (r : LimiterRun) (call : Nat) (tenantId : String) : LimiterRun :=
  let (next, limiter) := r.limiter.release tenantId
  let freed := { r with limiter, released := r.released ++ [call] }
  next.elim freed (freed.settle · .resolved)

def timeout (r : LimiterRun) (timer : LimiterTimer) : LimiterRun :=
  let (settlement, limiter) := r.limiter.timeout timer
  { r with limiter }.settle timer.waiter settlement

/-- The acquires of a tenant that were granted, in the order in which they were. -/
def granted (r : LimiterRun) (tenantId : String) : List Nat :=
  (r.settled.filter fun p => p.2 = .resolved ∧ r.calls[p.1]? = some tenantId).map Prod.fst

def outstanding (r : LimiterRun) (tenantId : String) : List Nat :=
  (r.granted tenantId).filter (· ∉ r.released)

/-- The acquires of a tenant that are neither granted nor refused, in the order of their calls. -/
def waiting (r : LimiterRun) (tenantId : String) : List Nat :=
  (List.range r.calls.length).filter fun call =>
    r.calls[call]? = some tenantId ∧ call ∉ r.settled.map Prod.fst

end LimiterRun

/-- One thing that happens: an acquire, the release of a slot that was granted and is still held, or
a timer that is still set. -/
inductive LimiterStep : LimiterRun → LimiterRun → Prop where
  | acquire {r : LimiterRun} (tenantId : String) : LimiterStep r (r.acquire tenantId)
  | release {r : LimiterRun} {call : Nat} {tenantId : String}
      (held : call ∈ r.outstanding tenantId) : LimiterStep r (r.release call tenantId)
  | timeout {r : LimiterRun} {timer : LimiterTimer} (set : timer ∈ r.limiter.timers) :
      LimiterStep r (r.timeout timer)

/-- The states of a new limiter in use. -/
def LimiterReach (maxConcurrent maxQueued queueTimeoutMs : Option Magnitude) : LimiterRun → Prop :=
  Relation.ReflTransGen LimiterStep
    { limiter := .create maxConcurrent maxQueued queueTimeoutMs }

/-! ## What the entries hold -/

/-- The entry of a tenant holds the number of its slots that are held, and who waits, in a line;
while someone waits no slot is free. Each waiter has its timer set. -/
structure Tracks (slots : ℕ∞) (s : TenantConcurrencyLimiter) (held : String → Nat)
    (waiting : String → List Nat) : Prop where
  limit : s.maxConcurrent = slots
  absent : ∀ t, s.tenants t = none → held t = 0 ∧ waiting t = []
  present : ∀ t entry, s.tenants t = some entry →
    entry < s.next ∧ s.heap entry = ⟨held t, waiting t⟩
  distinct : ∀ t t' entry, s.tenants t = some entry → s.tenants t' = some entry → t = t'
  bounded : ∀ t, held t ≤ slots
  full : ∀ t, held t < slots → waiting t = []
  timers : ∀ timer, timer ∈ s.timers ↔
    ∃ t, s.tenants t = some timer.entry ∧ timer.waiter ∈ waiting t

/-- A tenant that holds no slot has no entry. -/
def Tidy (s : TenantConcurrencyLimiter) (held : String → Nat) : Prop :=
  ∀ t, held t = 0 → s.tenants t = none

namespace Tracks
open TenantConcurrencyLimiter Function

variable {slots : ℕ∞} {s : TenantConcurrencyLimiter} {held : String → Nat}
  {waiting : String → List Nat}

theorem state (tracks : Tracks slots s held waiting) (t : String) :
    Tracks slots (s.state t).2 held waiting ∧ (s.state t).2.tenants t = some (s.state t).1 ∧
      ∀ t' ≠ t, (s.state t).2.tenants t' = s.tenants t' := by
  cases known : s.tenants t with
  | some entry =>
      simp only [TenantConcurrencyLimiter.state, known]
      exact ⟨tracks, trivial, fun _ _ => trivial⟩
  | none =>
      obtain ⟨free, nobody⟩ := tracks.absent t known
      simp only [TenantConcurrencyLimiter.state, known]
      refine ⟨?_, update_self .., fun t' other => update_of_ne other ..⟩
      -- the others have older entries
      have older : ∀ t', t' ≠ t → ∀ entry, s.tenants t' = some entry → entry ≠ s.next :=
        fun t' _ entry has => Nat.ne_of_lt (tracks.present t' entry has).1
      refine { tracks with
        absent := fun t' none => ?_
        present := fun t' entry has => ?_
        distinct := fun t' t'' entry has has' => ?_
        timers := fun timer => ?_ }
      · dsimp only at none
        by_cases same : t' = t
        · rw [same]
          exact ⟨free, nobody⟩
        · exact tracks.absent t' (by rwa [update_of_ne same] at none)
      · dsimp only at has ⊢
        by_cases same : t' = t
        · subst same
          rw [update_self] at has
          rw [← Option.some.inj has, update_self, free, nobody]
          exact ⟨Nat.lt_succ_self _, rfl⟩
        · rw [update_of_ne same] at has
          obtain ⟨old, holds⟩ := tracks.present t' entry has
          rw [update_of_ne (older t' same entry has)]
          exact ⟨Nat.lt_succ_of_lt old, holds⟩
      · dsimp only at has has'
        by_cases same : t' = t <;> by_cases same' : t'' = t
        · rw [same, same']
        · rw [same, update_self] at has
          rw [update_of_ne same'] at has'
          exact absurd (Option.some.inj has).symm (older t'' same' entry has')
        · rw [same', update_self] at has'
          rw [update_of_ne same] at has
          exact absurd (Option.some.inj has').symm (older t' same entry has)
        · rw [update_of_ne same] at has
          rw [update_of_ne same'] at has'
          exact tracks.distinct t' t'' entry has has'
      · dsimp only
        rw [tracks.timers]
        constructor
        · rintro ⟨t', has, waits⟩
          have other : t' ≠ t := by
            rintro rfl
            exact absurd (known.symm.trans has) nofun
          exact ⟨t', by rwa [update_of_ne other], waits⟩
        · rintro ⟨t', has, waits⟩
          by_cases same : t' = t
          · rw [same, nobody] at waits
            exact absurd waits List.not_mem_nil
          · exact ⟨t', by rwa [update_of_ne same] at has, waits⟩

theorem write (tracks : Tracks slots s held waiting) {t : String} {entry : Ref}
    (has : s.tenants t = some entry) {active : Nat} {queue : List Nat} {timers : List LimiterTimer}
    (bounded : active ≤ slots) (full : active < slots → queue = [])
    (set : ∀ timer, timer ∈ timers ↔
      if timer.entry = entry then timer.waiter ∈ queue else timer ∈ s.timers) :
    Tracks slots { s.write entry ⟨active, queue⟩ with timers := timers } (update held t active)
      (update waiting t queue) where
  limit := tracks.limit
  absent t' none := by
    have other : t' ≠ t := by
      rintro rfl
      exact absurd (has.symm.trans none) nofun
    rw [update_of_ne other, update_of_ne other]
    exact tracks.absent t' none
  present t' entry' has' := by
    refine ⟨(tracks.present t' entry' has').1, ?_⟩
    by_cases same : t' = t
    · subst same
      rw [Option.some.inj (has'.symm.trans has)]
      simp only [TenantConcurrencyLimiter.write, update_self]
    · have other : entry' ≠ entry := by
        rintro rfl
        exact same (tracks.distinct t' t _ has' has)
      simp only [TenantConcurrencyLimiter.write, update_of_ne other, update_of_ne same]
      exact (tracks.present t' entry' has').2
  distinct := tracks.distinct
  bounded t' := by
    by_cases same : t' = t
    · rwa [same, update_self]
    · rw [update_of_ne same]
      exact tracks.bounded t'
  full t' := by
    by_cases same : t' = t
    · rwa [same, update_self, update_self]
    · rw [update_of_ne same, update_of_ne same]
      exact tracks.full t'
  timers timer := by
    rw [set]
    change _ ↔ ∃ t', s.tenants t' = some timer.entry ∧ _
    constructor
    · intro armed
      split at armed
      · next same => exact ⟨t, same ▸ has, by rwa [update_self]⟩
      · next other =>
          obtain ⟨t', has', waits⟩ := (tracks.timers timer).mp armed
          have different : t' ≠ t := by
            rintro rfl
            exact other (Option.some.inj (has'.symm.trans has))
          exact ⟨t', has', by rwa [update_of_ne different]⟩
    · rintro ⟨t', has', waits⟩
      by_cases same : t' = t
      · subst same
        rw [if_pos (Option.some.inj (has'.symm.trans has))]
        rwa [update_self] at waits
      · have other : timer.entry ≠ entry := fun is =>
          same (tracks.distinct t' t _ has' (is ▸ has))
        rw [if_neg other]
        rw [update_of_ne same] at waits
        exact (tracks.timers timer).mpr ⟨t', has', waits⟩

theorem armed (tracks : Tracks slots s held waiting) {t : String} {entry : Ref}
    (has : s.tenants t = some entry) {timer : LimiterTimer} (is : timer.entry = entry) :
    timer ∈ s.timers ↔ timer.waiter ∈ waiting t := by
  rw [tracks.timers]
  constructor
  · rintro ⟨t', has', waits⟩
    rwa [tracks.distinct t' t _ has' (is ▸ has)] at waits
  · intro waits
    exact ⟨t, is ▸ has, waits⟩

theorem delete (tracks : Tracks slots s held waiting) {t : String} (free : held t = 0)
    (nobody : waiting t = []) :
    Tracks slots { s with tenants := update s.tenants t none } held waiting where
  limit := tracks.limit
  absent t' gone := by
    dsimp only at gone
    by_cases same : t' = t
    · rw [same]
      exact ⟨free, nobody⟩
    · exact tracks.absent t' (by rwa [update_of_ne same] at gone)
  present t' entry has := by
    dsimp only at has ⊢
    by_cases same : t' = t
    · rw [same, update_self] at has
      exact absurd has nofun
    · exact tracks.present t' entry (by rwa [update_of_ne same] at has)
  distinct t' t'' entry has has' := by
    dsimp only at has has'
    by_cases same : t' = t
    · rw [same, update_self] at has
      exact absurd has nofun
    · by_cases same' : t'' = t
      · rw [same', update_self] at has'
        exact absurd has' nofun
      · rw [update_of_ne same] at has
        rw [update_of_ne same'] at has'
        exact tracks.distinct t' t'' entry has has'
  bounded := tracks.bounded
  full := tracks.full
  timers timer := by
    dsimp only
    rw [tracks.timers]
    constructor
    · rintro ⟨t', has, waits⟩
      have other : t' ≠ t := by
        rintro rfl
        rw [nobody] at waits
        exact absurd waits List.not_mem_nil
      exact ⟨t', by rwa [update_of_ne other], waits⟩
    · rintro ⟨t', has, waits⟩
      by_cases same : t' = t
      · rw [same, update_self] at has
        exact absurd has nofun
      · exact ⟨t', by rwa [update_of_ne same] at has, waits⟩

theorem acquire (tracks : Tracks slots s held waiting) (tidy : Tidy s held) (some : 1 ≤ slots)
    (waiter : Nat) (t : String) :
    (s.acquire waiter t).1 = .some .resolved ∧ waiting t = [] ∧
        Tracks slots (s.acquire waiter t).2 (update held t (held t + 1)) waiting ∧
        Tidy (s.acquire waiter t).2 (update held t (held t + 1)) ∨
      (s.acquire waiter t).1 = .some (.rejected limitError) ∧
        Tracks slots (s.acquire waiter t).2 held waiting ∧ Tidy (s.acquire waiter t).2 held ∨
      (s.acquire waiter t).1 = none ∧
        Tracks slots (s.acquire waiter t).2 held (update waiting t (waiting t ++ [waiter])) ∧
        Tidy (s.acquire waiter t).2 held := by
  obtain ⟨tracked, has, others⟩ := tracks.state t
  have holds := (tracked.present t _ has).2
  have here : 0 < held t → Tidy (s.state t).2 held := by
    intro holding t' free
    have other : t' ≠ t := by
      rintro rfl
      omega
    rw [others t' other]
    exact tidy t' free
  simp only [TenantConcurrencyLimiter.acquire, holds, tracked.limit]
  by_cases room : held t < slots
  · left
    rw [if_pos room]
    have nobody := tracks.full t room
    have more : ((held t + 1 : ℕ) : ℕ∞) ≤ slots := by
      rw [Nat.cast_add_one]
      exact Order.add_one_le_of_lt room
    have set : ∀ timer, timer ∈ (s.state t).2.timers ↔ if timer.entry = (s.state t).1
        then timer.waiter ∈ waiting t else timer ∈ (s.state t).2.timers := by
      intro timer
      split
      · next is => rw [tracked.armed has is]
      · rfl
    have written := tracked.write has more (fun _ => nobody) set
    rw [update_eq_self] at written
    refine ⟨rfl, nobody, written, fun t' free => ?_⟩
    have other : t' ≠ t := by
      rintro rfl
      rw [update_self] at free
      omega
    rw [update_of_ne other] at free
    exact (others t' other).trans (tidy t' free)
  · rw [if_neg room]
    have holding : 0 < held t := by
      by_contra zero
      refine room (lt_of_lt_of_le ?_ some)
      rw [Nat.eq_zero_of_not_pos zero, Nat.cast_zero]
      exact zero_lt_one
    right
    split
    · exact .inl ⟨rfl, tracked, here holding⟩
    · right
      have set : ∀ timer, timer ∈ ⟨(s.state t).1, waiter⟩ :: (s.state t).2.timers ↔
          if timer.entry = (s.state t).1 then timer.waiter ∈ waiting t ++ [waiter]
            else timer ∈ (s.state t).2.timers := by
        rintro ⟨entry, who⟩
        rw [List.mem_cons, List.mem_append, List.mem_singleton, LimiterTimer.mk.injEq]
        by_cases is : entry = (s.state t).1
        · rw [if_pos is, tracked.armed has is]
          simp only [is, true_and]
          exact or_comm
        · rw [if_neg is]
          simp only [is, false_and, false_or]
      have written := tracked.write has (tracks.bounded t) (fun free => absurd free room) set
      rw [update_eq_self] at written
      exact ⟨rfl, written, here holding⟩

theorem release (tracks : Tracks slots s held waiting) (tidy : Tidy s held)
    (apart : ∀ t, (waiting t).Nodup) (disjoint : ∀ t t', ∀ w ∈ waiting t, w ∈ waiting t' → t = t')
    {t : String} (holding : 0 < held t) :
    (∃ next queue, waiting t = next :: queue ∧ (s.release t).1 = some next ∧
        Tracks slots (s.release t).2 held (update waiting t queue) ∧ Tidy (s.release t).2 held) ∨
      waiting t = [] ∧ (s.release t).1 = none ∧
        Tracks slots (s.release t).2 (update held t (held t - 1)) waiting ∧
        Tidy (s.release t).2 (update held t (held t - 1)) := by
  cases has : s.tenants t with
  | none => exact absurd (tracks.absent t has).1 (Nat.ne_of_gt holding)
  | some entry =>
      have holds := (tracks.present t entry has).2
      cases line : waiting t with
      | cons next queue =>
          left
          refine ⟨next, queue, rfl, ?_⟩
          rw [line] at holds
          simp only [TenantConcurrencyLimiter.release, has, holds]
          have fresh : next ∉ queue := by
            have nodup := apart t
            rw [line] at nodup
            exact (List.nodup_cons.mp nodup).1
          have set : ∀ timer, timer ∈ s.timers.filter (·.waiter ≠ next) ↔
              if timer.entry = entry then timer.waiter ∈ queue else timer ∈ s.timers := by
            intro timer
            rw [List.mem_filter, decide_eq_true_eq]
            split
            · next is =>
                rw [tracks.armed has is, line, List.mem_cons]
                constructor
                · rintro ⟨head | rest, other⟩
                  · exact absurd head other
                  · exact rest
                · intro rest
                  refine ⟨.inr rest, ?_⟩
                  rintro same
                  exact fresh (same ▸ rest)
            · next other =>
                refine and_iff_left_of_imp fun armed same => other ?_
                obtain ⟨t', has', waits⟩ := (tracks.timers timer).mp armed
                have mine : next ∈ waiting t := by
                  rw [line]
                  exact List.mem_cons_self ..
                rw [disjoint t' t _ waits (same ▸ mine), has] at has'
                exact (Option.some.inj has').symm
          have full : held t < slots → queue = [] := by
            intro room
            have nobody := tracks.full t room
            rw [line] at nobody
            exact absurd nobody nofun
          have written := tracks.write has (tracks.bounded t) full set
          rw [update_eq_self] at written
          exact ⟨trivial, written, tidy⟩
      | nil =>
          right
          rw [line] at holds
          simp only [TenantConcurrencyLimiter.release, has, holds]
          have fewer : ((held t - 1 : ℕ) : ℕ∞) ≤ slots :=
            (Nat.cast_le.mpr (Nat.sub_le ..)).trans (tracks.bounded t)
          have set : ∀ timer, timer ∈ s.timers ↔
              if timer.entry = entry then timer.waiter ∈ [] else timer ∈ s.timers := by
            intro timer
            split
            · next is => rw [tracks.armed has is, line]
            · rfl
          have written : Tracks slots (s.write entry ⟨held t - 1, []⟩)
              (update held t (held t - 1)) waiting := by
            have kept := tracks.write has fewer (fun _ => rfl) set
            have same : update waiting t [] = waiting := by rw [← line, update_eq_self]
            rwa [same] at kept
          refine ⟨trivial, trivial, ?_⟩
          split
          · next gone =>
              refine ⟨written.delete (by rwa [update_self]) line, fun t' free => ?_⟩
              by_cases same : t' = t
              · rw [same]
                exact update_self ..
              · rw [update_of_ne same] at free
                exact (update_of_ne same ..).trans (tidy t' free)
          · next stays =>
              refine ⟨written, fun t' free => ?_⟩
              have other : t' ≠ t := by
                rintro rfl
                rw [update_self] at free
                exact stays free
              rw [update_of_ne other] at free
              exact tidy t' free

theorem timeout (tracks : Tracks slots s held waiting) (tidy : Tidy s held)
    (apart : ∀ t, (waiting t).Nodup) {timer : LimiterTimer} (armed : timer ∈ s.timers) :
    ∃ t, timer.waiter ∈ waiting t ∧ (s.timeout timer).1 = .rejected limitError ∧
      Tracks slots (s.timeout timer).2 held (update waiting t ((waiting t).erase timer.waiter)) ∧
      Tidy (s.timeout timer).2 held := by
  obtain ⟨t, has, waits⟩ := (tracks.timers timer).mp armed
  have holds := (tracks.present t _ has).2
  simp only [TenantConcurrencyLimiter.timeout, holds]
  have set : ∀ timer', timer' ∈ s.timers.filter (· ≠ timer) ↔ if timer'.entry = timer.entry
      then timer'.waiter ∈ (waiting t).erase timer.waiter else timer' ∈ s.timers := by
    intro timer'
    rw [List.mem_filter, decide_eq_true_eq]
    split
    · next is =>
        rw [tracks.armed has is, (apart t).mem_erase_iff, and_comm]
        refine and_congr_left fun _ => not_congr ?_
        rw [LimiterTimer.ext_iff]
        exact and_iff_right is
    · next other =>
        refine and_iff_left_of_imp fun _ same => other (congrArg LimiterTimer.entry same)
  have full : held t < slots → (waiting t).erase timer.waiter = [] := by
    intro room
    rw [tracks.full t room]
    rfl
  have written := tracks.write has (tracks.bounded t) full set
  rw [update_eq_self] at written
  exact ⟨t, waits, trivial, written, tidy⟩

end Tracks

/-! ## The record of a run -/

/-- Each promise is settled at most once, after its call; grants are in the order of the calls, and
nobody is granted before those who wait already. -/
structure Recorded (r : LimiterRun) : Prop where
  once : (r.settled.map Prod.fst).Nodup
  known : ∀ p ∈ r.settled, p.1 < r.calls.length
  released : ∀ call ∈ r.released, call ∈ r.settled.map Prod.fst
  ordered : ∀ t, (r.granted t).Pairwise (· < ·)
  ahead : ∀ t, ∀ call ∈ r.granted t, ∀ call' ∈ r.waiting t, call < call'

namespace LimiterRun
open Function

/-- An `acquire` is called. -/
def called (r : LimiterRun) (limiter : TenantConcurrencyLimiter) (t : String) : LimiterRun :=
  { r with limiter, calls := r.calls ++ [t] }

theorem mem_granted {r : LimiterRun} {t : String} {call : Nat} :
    call ∈ r.granted t ↔ (call, .resolved) ∈ r.settled ∧ r.calls[call]? = some t := by
  simp [granted]

theorem mem_waiting {r : LimiterRun} {t : String} {call : Nat} :
    call ∈ r.waiting t ↔ r.calls[call]? = some t ∧ call ∉ r.settled.map Prod.fst := by
  rw [waiting, List.mem_filter, List.mem_range, decide_eq_true_eq]
  refine and_iff_right_of_imp fun ⟨is, _⟩ => ?_
  exact (List.getElem?_eq_some_iff.mp is).1

theorem nodup_waiting (r : LimiterRun) (t : String) : (r.waiting t).Nodup :=
  List.nodup_range.filter _

theorem sorted_waiting (r : LimiterRun) (t : String) : (r.waiting t).Pairwise (· < ·) :=
  List.pairwise_lt_range.filter _

theorem waiting_disjoint (r : LimiterRun) (t t' : String) (call : Nat) (mem : call ∈ r.waiting t)
    (mem' : call ∈ r.waiting t') : t = t' :=
  Option.some.inj ((mem_waiting.mp mem).1.symm.trans (mem_waiting.mp mem').1)

theorem granted_called {r : LimiterRun} (recorded : Recorded r)
    (limiter : TenantConcurrencyLimiter) (t : String) : (r.called limiter t).granted = r.granted := by
  funext t'
  unfold granted called
  congr 1
  refine List.filter_congr fun p mem => ?_
  rw [List.getElem?_append_left (recorded.known p mem)]

theorem waiting_called {r : LimiterRun} (recorded : Recorded r)
    (limiter : TenantConcurrencyLimiter) (t : String) :
    (r.called limiter t).waiting = update r.waiting t (r.waiting t ++ [r.calls.length]) := by
  funext t'
  have before : (List.range r.calls.length).filter (fun call =>
      (r.calls ++ [t])[call]? = some t' ∧ call ∉ r.settled.map Prod.fst) = r.waiting t' := by
    refine List.filter_congr fun call mem => ?_
    rw [List.getElem?_append_left (List.mem_range.mp mem)]
  have unsettled : r.calls.length ∉ r.settled.map Prod.fst := by
    intro mem
    obtain ⟨p, mem, is⟩ := List.mem_map.mp mem
    exact Nat.lt_irrefl _ (is ▸ recorded.known p mem)
  unfold waiting called
  rw [List.length_append, List.length_singleton, List.range_succ, List.filter_append, before]
  by_cases same : t' = t
  · subst same
    rw [update_self]
    simp [unsettled, waiting]
  · rw [update_of_ne same]
    simp [Ne.symm same, waiting]

theorem granted_settle (r : LimiterRun) (call : Nat) (settlement : Settlement) (t : String) :
    (r.settle call settlement).granted t = r.granted t ++
      if settlement = .resolved ∧ r.calls[call]? = some t then [call] else [] := by
  unfold granted settle
  rw [List.filter_append, List.map_append, List.filter_singleton]
  by_cases is : settlement = .resolved ∧ r.calls[call]? = some t
  · rw [if_pos is, decide_eq_true is]
    rfl
  · rw [if_neg is, decide_eq_false is]
    rfl

theorem waiting_settle (r : LimiterRun) (call : Nat) (settlement : Settlement) (t : String) :
    (r.settle call settlement).waiting t = (r.waiting t).erase call := by
  rw [(r.nodup_waiting t).erase_eq_filter]
  unfold waiting settle
  rw [List.filter_filter]
  refine List.filter_congr fun call' _ => ?_
  simp only [List.map_append, List.map_cons, List.map_nil, List.mem_append, List.mem_singleton]
  grind

end LimiterRun

namespace Recorded
open LimiterRun Function

variable {r : LimiterRun}

theorem called (recorded : Recorded r) (limiter : TenantConcurrencyLimiter) (t : String) :
    Recorded (r.called limiter t) where
  once := recorded.once
  known p mem := by
    change p.1 < (r.calls ++ [t]).length
    rw [List.length_append]
    exact Nat.lt_add_right _ (recorded.known p mem)
  released := recorded.released
  ordered t' := by
    rw [granted_called recorded]
    exact recorded.ordered t'
  ahead t' call mem call' mem' := by
    rw [granted_called recorded] at mem
    rw [waiting_called recorded] at mem'
    by_cases same : t' = t
    · subst same
      rw [update_self, List.mem_append, List.mem_singleton] at mem'
      rcases mem' with old | last
      · exact recorded.ahead t' call mem call' old
      · rw [last]
        exact recorded.known _ (mem_granted.mp mem).1
    · rw [update_of_ne same] at mem'
      exact recorded.ahead t' call mem call' mem'

theorem settle (recorded : Recorded r) {t : String} {call : Nat} (waits : call ∈ r.waiting t)
    {settlement : Settlement}
    (first : settlement = .resolved → ∀ call' ∈ r.waiting t, call ≤ call') :
    Recorded (r.settle call settlement) where
  once := by
    change ((r.settled ++ [(call, settlement)]).map Prod.fst).Nodup
    rw [List.map_append, List.nodup_append]
    refine ⟨recorded.once, List.pairwise_singleton .., ?_⟩
    rintro old mem new last rfl
    have same : old = call := List.mem_singleton.mp last
    exact (mem_waiting.mp waits).2 (same ▸ mem)
  known p mem := by
    rcases List.mem_append.mp mem with old | last
    · exact recorded.known p old
    · rw [List.mem_singleton.mp last]
      exact (List.getElem?_eq_some_iff.mp (mem_waiting.mp waits).1).1
  released call' mem := by
    change call' ∈ (r.settled ++ [(call, settlement)]).map Prod.fst
    rw [List.map_append]
    exact List.mem_append_left _ (recorded.released call' mem)
  ordered t' := by
    rw [granted_settle]
    split
    · next is =>
        obtain ⟨_, mine⟩ := is
        refine List.pairwise_append.mpr ⟨recorded.ordered t', List.pairwise_singleton .., ?_⟩
        intro old mem new last
        rw [List.mem_singleton.mp last]
        refine recorded.ahead t' old mem call ?_
        exact mem_waiting.mpr ⟨mine, (mem_waiting.mp waits).2⟩
    · rw [List.append_nil]
      exact recorded.ordered t'
  ahead t' old mem new mem' := by
    rw [granted_settle] at mem
    rw [waiting_settle, (r.nodup_waiting t').mem_erase_iff] at mem'
    rcases List.mem_append.mp mem with before | now
    · exact recorded.ahead t' old before new mem'.2
    · split at now
      · next is =>
          obtain ⟨granted, mine⟩ := is
          have same : t' = t := Option.some.inj (mine.symm.trans (mem_waiting.mp waits).1)
          rw [List.mem_singleton.mp now]
          refine Nat.lt_of_le_of_ne (first granted new (same ▸ mem'.2)) (Ne.symm mem'.1)
      · exact absurd now List.not_mem_nil

theorem release (recorded : Recorded r) {t : String} {call : Nat} (held : call ∈ r.outstanding t)
    (limiter : TenantConcurrencyLimiter) :
    Recorded { r with limiter, released := r.released ++ [call] } :=
  { recorded with
    released := fun call' mem => by
      rcases List.mem_append.mp mem with old | last
      · exact recorded.released call' old
      · rw [List.mem_singleton.mp last]
        exact List.mem_map_of_mem (mem_granted.mp (List.mem_filter.mp held).1).1 }

end Recorded

/-! ## The invariant -/

/-- The entries of the limiter say what the record says. -/
structure LimiterInv (slots : ℕ∞) (r : LimiterRun) : Prop where
  recorded : Recorded r
  tracks : Tracks slots r.limiter (fun t => (r.outstanding t).length) r.waiting
  tidy : Tidy r.limiter fun t => (r.outstanding t).length

namespace LimiterRun
open Function

variable {r : LimiterRun}

theorem outstanding_called (recorded : Recorded r) (limiter : TenantConcurrencyLimiter)
    (t : String) : (r.called limiter t).outstanding = r.outstanding := by
  funext t'
  unfold outstanding
  rw [granted_called recorded]
  rfl

theorem outstanding_resolve (recorded : Recorded r) {t : String} {call : Nat}
    (waits : call ∈ r.waiting t) :
    (fun t' => ((r.settle call .resolved).outstanding t').length) =
      update (fun t' => (r.outstanding t').length) t ((r.outstanding t).length + 1) := by
  funext t'
  have unsettled := (mem_waiting.mp waits).2
  have kept : call ∉ r.released := fun mem => unsettled (recorded.released call mem)
  have mine := (mem_waiting.mp waits).1
  unfold outstanding
  rw [granted_settle]
  by_cases same : t' = t
  · subst same
    have last : [call].filter (· ∉ (r.settle call .resolved).released) = [call] := by
      rw [List.filter_singleton]
      simp [settle, kept]
    rw [update_self, if_pos ⟨rfl, mine⟩, List.filter_append, List.length_append, last]
    rfl
  · have other : ¬((.resolved : Settlement) = .resolved ∧ r.calls[call]? = some t') := by
      rintro ⟨_, is⟩
      exact same (Option.some.inj (is.symm.trans mine))
    rw [update_of_ne same, if_neg other, List.append_nil]
    rfl

theorem outstanding_reject (r : LimiterRun) (call : Nat) (reason : ApiError) :
    (r.settle call (.rejected reason)).outstanding = r.outstanding := by
  funext t
  unfold outstanding
  rw [granted_settle, if_neg (fun is => nomatch is.1), List.append_nil]
  rfl

theorem outstanding_release (recorded : Recorded r) {t : String} {call : Nat}
    (held : call ∈ r.outstanding t) (limiter : TenantConcurrencyLimiter) :
    (fun t' => (outstanding { r with limiter, released := r.released ++ [call] } t').length) =
      update (fun t' => (r.outstanding t').length) t ((r.outstanding t).length - 1) := by
  funext t'
  have left : outstanding { r with limiter, released := r.released ++ [call] } t' =
      (r.outstanding t').erase call := by
    have nodup : (r.outstanding t').Nodup := ((recorded.ordered t').imp Nat.ne_of_lt).filter _
    rw [nodup.erase_eq_filter]
    unfold outstanding
    rw [List.filter_filter]
    refine List.filter_congr fun call' _ => ?_
    simp only [List.mem_append, List.mem_singleton]
    grind
  rw [left]
  by_cases same : t' = t
  · subst same
    rw [update_self, List.length_erase_of_mem held]
  · rw [update_of_ne same, List.erase_of_not_mem]
    intro mem
    have is := (mem_granted.mp (List.mem_filter.mp mem).1).2
    have is' := (mem_granted.mp (List.mem_filter.mp held).1).2
    exact same (Option.some.inj (is.symm.trans is'))

end LimiterRun

namespace LimiterInv
open LimiterRun Function

variable {slots : ℕ∞} {r : LimiterRun}

theorem last_not_waiting (r : LimiterRun) (t : String) : r.calls.length ∉ r.waiting t := by
  intro mem
  exact Nat.lt_irrefl _ (List.getElem?_eq_some_iff.mp (mem_waiting.mp mem).1).1

theorem last_waiting (recorded : Recorded r) (limiter : TenantConcurrencyLimiter) (t : String) :
    r.calls.length ∈ (r.called limiter t).waiting t := by
  rw [waiting_called recorded, update_self]
  exact List.mem_append_right _ (List.mem_singleton_self _)

theorem waiting_settle_called (recorded : Recorded r) (limiter : TenantConcurrencyLimiter)
    (t : String) (settlement : Settlement) :
    ((r.called limiter t).settle r.calls.length settlement).waiting = r.waiting := by
  funext t'
  rw [waiting_settle, waiting_called recorded]
  by_cases same : t' = t
  · rw [same, update_self, List.erase_append_right _ (last_not_waiting r t), List.erase_cons_head,
      List.append_nil]
  · rw [update_of_ne same, List.erase_of_not_mem (last_not_waiting r t')]

/-- Who leaves the line of a tenant leaves no other. -/
theorem waiting_settle_mem {t : String} {call : Nat} (waits : call ∈ r.waiting t)
    (settlement : Settlement) :
    (r.settle call settlement).waiting = update r.waiting t ((r.waiting t).erase call) := by
  funext t'
  rw [waiting_settle]
  by_cases same : t' = t
  · rw [same, update_self]
  · rw [update_of_ne same, List.erase_of_not_mem]
    exact fun mem => same (r.waiting_disjoint t' t call mem waits)

theorem of {held : String → Nat} {waiting : String → List Nat} (recorded : Recorded r)
    (lent : (fun t => (r.outstanding t).length) = held) (line : r.waiting = waiting)
    (tracks : Tracks slots r.limiter held waiting) (tidy : Tidy r.limiter held) :
    LimiterInv slots r := by
  subst lent line
  exact ⟨recorded, tracks, tidy⟩

theorem acquire (inv : LimiterInv slots r) (some : 1 ≤ slots) (t : String) :
    LimiterInv slots (r.acquire t) := by
  obtain ⟨recorded, tracks, tidy⟩ := inv
  have waits := fun limiter => last_waiting recorded limiter t
  have called := fun limiter => recorded.called limiter t
  have before := fun limiter => outstanding_called recorded limiter t
  unfold LimiterRun.acquire
  rcases tracks.acquire tidy some r.calls.length t with
    ⟨is, nobody, tracked, tidied⟩ | ⟨is, tracked, tidied⟩ | ⟨is, tracked, tidied⟩
  · -- a slot is free
    simp only [is, Option.elim_some]
    have first : ∀ limiter, ∀ call ∈ (r.called limiter t).waiting t, r.calls.length ≤ call := by
      intro limiter call mem
      rw [waiting_called recorded, update_self, nobody, List.nil_append] at mem
      exact Nat.le_of_eq (List.mem_singleton.mp mem).symm
    have lent := fun limiter => outstanding_resolve (called limiter) (waits limiter)
    simp only [before] at lent
    exact of ((called _).settle (waits _) fun _ => first _) (lent _)
      (waiting_settle_called recorded _ t _) tracked tidied
  · -- the line is full
    simp only [is, Option.elim_some]
    have lent := fun limiter =>
      (outstanding_reject (r.called limiter t) r.calls.length limitError).trans (before limiter)
    exact of ((called _).settle (waits _) fun is => nomatch is)
      (congrArg (fun held t => (held t).length) (lent _)) (waiting_settle_called recorded _ t _)
      tracked tidied
  · -- one more waits
    simp only [is, Option.elim_none]
    exact of (called _) (congrArg (fun held t => (held t).length) (before _))
      (waiting_called recorded _ t) tracked tidied

theorem release (inv : LimiterInv slots r) {t : String} {call : Nat}
    (held : call ∈ r.outstanding t) : LimiterInv slots (r.release call t) := by
  obtain ⟨recorded, tracks, tidy⟩ := inv
  have freed := fun limiter => recorded.release held limiter
  have fewer := fun limiter => outstanding_release recorded held limiter
  unfold LimiterRun.release
  rcases tracks.release tidy r.nodup_waiting r.waiting_disjoint (List.length_pos_of_mem held) with
    ⟨next, queue, line, is, tracked, tidied⟩ | ⟨nobody, is, tracked, tidied⟩
  · -- the slot goes to the head of the line
    simp only [is, Option.elim_some]
    have waits : next ∈ r.waiting t := by
      rw [line]
      exact List.mem_cons_self ..
    have first : ∀ call' ∈ r.waiting t, next ≤ call' := by
      intro call' mem
      have sorted := r.sorted_waiting t
      rw [line] at mem sorted
      rcases List.mem_cons.mp mem with same | later
      · exact Nat.le_of_eq same.symm
      · exact Nat.le_of_lt ((List.pairwise_cons.mp sorted).1 call' later)
    have left : (r.waiting t).erase next = queue := by rw [line, List.erase_cons_head]
    -- one slot fewer is held, and one more
    have lent : ∀ limiter, (fun t' =>
        (({ r with limiter, released := r.released ++ [call] } : LimiterRun).settle next
          .resolved |>.outstanding t').length) = fun t' => (r.outstanding t').length := by
      intro limiter
      have one : (outstanding { r with limiter, released := r.released ++ [call] } t).length =
          (r.outstanding t).length - 1 := (congrFun (fewer limiter) t).trans (update_self ..)
      rw [outstanding_resolve (freed limiter) waits, fewer limiter, update_idem, one,
        Nat.sub_add_cancel (List.length_pos_of_mem held), update_eq_self]
    refine of ((freed _).settle waits fun _ => first) (lent _) ?_ tracked tidied
    rw [← left]
    exact waiting_settle_mem waits _
  · -- the slot is free
    simp only [is, Option.elim_none]
    exact of (freed _) (fewer _) rfl tracked tidied

theorem timeout (inv : LimiterInv slots r) {timer : LimiterTimer}
    (set : timer ∈ r.limiter.timers) : LimiterInv slots (r.timeout timer) := by
  obtain ⟨recorded, tracks, tidy⟩ := inv
  obtain ⟨t, waits, is, tracked, tidied⟩ := tracks.timeout tidy r.nodup_waiting set
  unfold LimiterRun.timeout
  simp only [is]
  have aside : Recorded { r with limiter := (r.limiter.timeout timer).2 } := { recorded with }
  refine of (aside.settle waits fun is => nomatch is) ?_ (waiting_settle_mem waits _) tracked tidied
  exact congrArg (fun held t => (held t).length) (outstanding_reject ..)

theorem step (inv : LimiterInv slots r) (some : 1 ≤ slots) {r' : LimiterRun}
    (step : LimiterStep r r') : LimiterInv slots r' := by
  cases step with
  | acquire tenantId => exact inv.acquire some tenantId
  | release held => exact inv.release held
  | timeout set => exact inv.timeout set

end LimiterInv

theorem one_le_wholeAtLeast (n : Magnitude) : 1 ≤ wholeAtLeast 1 n := by
  cases n with
  | nan => exact le_refl _
  | negInf => exact le_refl _
  | posInf => exact le_top
  | finite q =>
      have least : 1 ≤ (max ((1 : ℕ) : ℤ) ⌊if q = 0 then ((1 : ℕ) : ℚ) else q⌋).toNat := by omega
      exact Nat.one_le_cast.mpr least

variable {maxConcurrent maxQueued queueTimeoutMs : Option Magnitude}

theorem LimiterReach.inv {r : LimiterRun}
    (reach : LimiterReach maxConcurrent maxQueued queueTimeoutMs r) :
    LimiterInv (TenantConcurrencyLimiter.create maxConcurrent maxQueued queueTimeoutMs).maxConcurrent
      r := by
  have some : 1 ≤
      (TenantConcurrencyLimiter.create maxConcurrent maxQueued queueTimeoutMs).maxConcurrent := by
    cases maxConcurrent with
    | none => exact (by decide : (1 : ℕ∞) ≤ 4)
    | some n => exact one_le_wholeAtLeast n
  induction reach with
  | refl =>
      refine ⟨?_, ?_, fun _ _ => rfl⟩
      · exact ⟨List.nodup_nil, nofun, nofun, fun _ => List.Pairwise.nil, nofun⟩
      · exact ⟨rfl, fun _ _ => ⟨rfl, rfl⟩, nofun, nofun, fun _ => bot_le, fun _ _ => rfl,
          fun _ => ⟨nofun, nofun⟩⟩
  | tail _ step inv => exact inv.step some step

/-- At most `maxConcurrent` acquires of a tenant are granted and not released; they are granted in
the order of their calls; no promise is settled twice; a slot is free only while nobody of the
tenant waits; and once every slot is released, the entry of the tenant is gone. -/
theorem limiter_neither_leaks_nor_overbooks {r : LimiterRun}
    (reach : LimiterReach maxConcurrent maxQueued queueTimeoutMs r) (tenantId : String) :
    let slots := (TenantConcurrencyLimiter.create maxConcurrent maxQueued queueTimeoutMs).maxConcurrent
    (r.outstanding tenantId).length ≤ slots ∧
      (r.granted tenantId).Pairwise (· < ·) ∧
      (r.settled.map Prod.fst).Nodup ∧
      ((r.outstanding tenantId).length < slots → r.waiting tenantId = []) ∧
      (r.outstanding tenantId = [] → r.limiter.tenants tenantId = none) := by
  obtain ⟨recorded, tracks, tidy⟩ := reach.inv
  exact ⟨tracks.bounded tenantId, recorded.ordered tenantId, recorded.once, tracks.full tenantId,
    fun free => tidy tenantId (congrArg List.length free)⟩

/-- One slot: two more acquires wait, one is refused by its timer, and the other is granted. -/
theorem limiter_neither_leaks_nor_overbooks_handed_over :
    let r := ((((({ limiter := .create (some (.finite 1)) none none } : LimiterRun).acquire
      "acme").acquire "acme").acquire "acme").timeout ⟨0, 1⟩).release 0 "acme"
    r.settled = [(0, .resolved), (1, .rejected limitError), (2, .resolved)] ∧
      (r.granted "acme").Pairwise (· < ·) := by
  intro r
  have reach : LimiterReach (some (.finite 1)) none none r :=
    .tail (.tail (.tail (.tail (.tail .refl (.acquire "acme")) (.acquire "acme")) (.acquire "acme"))
      (.timeout (by decide +kernel))) (.release (by decide +kernel))
  exact ⟨by decide +kernel, (limiter_neither_leaks_nor_overbooks reach "acme").2.1⟩

end AnalyticsBackend.Analytics
