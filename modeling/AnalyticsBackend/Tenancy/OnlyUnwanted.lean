import AnalyticsBackend.Tenancy.PurgePrograms

/-!
# Only an unwanted workspace is purged

A cancelled deletion is never purged, and a claimed one is never cancelled. The writes that reopen a
workspace do not ask again whether a deletion is pending, a batch claims with the time of its start,
and an outcome is recorded on a claim that another worker has taken over; where none of this happens,
no workspace is purged while it is active, and two workers are at a purge only once a lease has lapsed.
-/

namespace AnalyticsBackend.Tenancy
open Lib Collection System

/-- No step purges for a cancelled deletion, and no claimed deletion is cancelled. -/
def CancelledKept (settings : DeletionSettings) (trace : DeletionTrace) : Prop :=
  ∀ later e earlier, trace = later ++ e :: earlier → ∀ x ∈ earlier, ∀ id,
    (e.label.purges = some id → cancelOf x ≠ some id) ∧
    (claimOf settings x = some id → cancelOf e ≠ some id)

/-- No step purges an active workspace, and none reopens it after a claim. -/
def ClosedThroughout (settings : DeletionSettings) (tenantId : String) (trace : DeletionTrace) : Prop :=
  ∀ later e earlier, trace = later ++ e :: earlier →
    (e.label.purges.isSome = true → e.before.active tenantId = false) ∧
    ∀ x ∈ earlier, (claimOf settings x).isSome = true → restores tenantId e = false

/-- Of two workers that are at a purge, one has held its claim for longer than a lease. -/
def OneAtATime (settings : DeletionSettings) (w : DeletionWorld) : Prop :=
  ∀ i j, i ≠ j → ∀ id id' claimedAt claimedAt', working settings i w.trace = some (id, claimedAt) →
    working settings j w.trace = some (id', claimedAt') →
      claimedAt + settings.leaseMs < w.store.clock ∨ claimedAt' + settings.leaseMs < w.store.clock

/-- Only an unwanted workspace is purged, and by one worker at a time. -/
structure OnlyUnwanted (settings : DeletionSettings) (tenantId : String) (w : DeletionWorld) : Prop where
  cancelled : CancelledKept settings w.trace
  closed : ClosedThroughout settings tenantId w.trace
  apart : OneAtATime settings w

theorem restoresGuarded_suffix {tenantId : String} {later earlier : DeletionTrace}
    (guarded : restoresGuarded tenantId (later ++ earlier) = true) :
    restoresGuarded tenantId earlier = true := by
  rw [restoresGuarded, List.all_append, Bool.and_eq_true] at guarded
  exact guarded.2

/-- Cancelled deletions are kept; where every write that reopens the workspace finds no open
deletion, the workspace is closed throughout; where claims are made at the time of their leases and
outcomes recorded by the last claimer, there is one purge at a time. -/
theorem only_unwanted_purged (settings : DeletionSettings) (tenantId : String) (s₀ : DeletionDb)
    (start : StartSound tenantId s₀) (c : Config Nat DeletionLabel DeletionDb DeletionResult)
    (reach : Reach (deletionSystem settings tenantId) s₀ c) :
    CancelledKept settings c.world.trace ∧
      (restoresGuarded tenantId c.world.trace = true →
        ClosedThroughout settings tenantId c.world.trace) ∧
      (claimsPrompt settings c.world.trace = true → outcomesOwn settings c.world.trace = true →
        OneAtATime settings c.world) := by
  have sound := (deletion_inv reach).run start
  have wanted {later earlier : DeletionTrace} {e : DeletionEvent}
      (split : c.world.trace = later ++ e :: earlier) : StepWanted settings tenantId e earlier :=
    TraceWanted.of_split (split ▸ sound.wanted)
  refine ⟨fun later e earlier split x mem id => ?_, fun guarded later e earlier split => ?_,
    fun prompt own i j different id id' claimedAt claimedAt' at₁ at₂ => ?_⟩
  · exact ⟨fun purges => (wanted split).notCancelled id purges x mem,
      fun claims => (wanted split).noCancel x mem id claims⟩
  · rw [split] at guarded
    have since := restoresGuarded_suffix guarded
    have before : restoresGuarded tenantId ([e] ++ earlier) = true := since
    exact ⟨fun purges => (wanted split).notActive (restoresGuarded_suffix before) purges,
      fun x mem claims => (wanted split).noRestore since x mem claims⟩
  · exact sound.leases.apart sound.start.records prompt own different at₁ at₂

namespace UnwantedPurge
open ClosedWorkspace

abbrev Run := Config Nat DeletionLabel DeletionDb DeletionResult

def begin (i : Nat) (request : DeletionRequest) (steps : Nat) (c : Run) : Run :=
  (run i request steps).foldl Config.move c

/-- A process takes its next step. -/
def act (i : Nat) (c : Run) : Run := c.move (.act i)

def wait (clock : Int) (c : Run) : Run := c.move (.env { c.world.store with clock })

/-- A purge job in which nothing fails. -/
def purge : DeletionRequest := purging fun _ => false

def lapsed : Int := 1702593800001

/-- A batch takes the time, and claims after the lease that it computes from it. Another claims at
once. -/
def overlapping : Run := begin 1 purge 2 (act 0 (wait lapsed (begin 0 purge 1 (.idle store))))

/-- A worker takes a claim over, the first records its failure, and a third claims. -/
def released : Run :=
  begin 2 purge 2 (act 0 (begin 1 purge 2
    (wait lapsed (begin 0 (purging (· = .context)) 2 (.idle store)))))

def suspended : DeletionDb :=
  { store with
    deletions := []
    docs := fun
      | .tenant => [{ id := "t1", status := some .suspended }]
      | model => store.docs model }

/-- A restore has made its checks. Another restore reopens the workspace, its deletion is requested,
and after the days of grace a worker sees it closed; then the first restore writes. -/
def reopened : Run :=
  act 3 (act 0 (begin 3 purge 5 (wait (1702592000000 + 30 * dayMs)
    (begin 2 (.requestDeletion "deletion-2" none) 5 (begin 1 (.transition .restore) 4
      (begin 0 (.transition .restore) 3 (.idle suspended)))))))

theorem started : StartSound "t1" store :=
  ⟨⟨by decide, by decide, by decide, by decide⟩, by decide, by decide⟩

theorem started_suspended : StartSound "t1" suspended :=
  ⟨⟨by decide, by decide, by decide, by decide⟩, by decide, by decide⟩

section Reached

variable {s₀ : DeletionDb} {c : Run}

abbrev Reached (s₀ : DeletionDb) (c : Run) : Prop := Reach (deletionSystem policy "t1") s₀ c

theorem Reached.begin {i : Nat} {request : DeletionRequest} {steps : Nat} (reached : Reached s₀ c)
    (fresh : c.pool i = none)
    (legal : (deletionSystem policy "t1").LegalRun
      (c.move (.start i (request.program policy "t1"))) (List.replicate steps (.act i))) :
    Reached s₀ (begin i request steps c) :=
  reached.moves (show (deletionSystem policy "t1").LegalRun c (run i request steps) from
    ⟨⟨fresh, request, rfl⟩, legal⟩)

theorem Reached.act {i : Nat} (reached : Reached s₀ c)
    (legal : (deletionSystem policy "t1").Legal c (.act i)) : Reached s₀ (act i c) :=
  reached.move legal

theorem Reached.wait {clock : Int} (reached : Reached s₀ c) (later : c.world.store.clock ≤ clock) :
    Reached s₀ (wait clock c) :=
  reached.move (show (deletionSystem policy "t1").Legal c (.env _) from ⟨clock, later, rfl⟩)

end Reached

theorem runs_reached :
    Reached store overlapping ∧ Reached store released ∧ Reached suspended reopened := by
  refine ⟨Reached.begin (Reached.act (Reached.wait (Reached.begin .init rfl ?_) ?_) ?_) ?_ ?_,
    Reached.begin (Reached.act (Reached.begin (Reached.wait (Reached.begin .init rfl ?_) ?_)
      ?_ ?_) ?_) ?_ ?_,
    Reached.act (Reached.act (Reached.begin (Reached.wait (Reached.begin (Reached.begin
      (Reached.begin .init rfl ?_) ?_ ?_) ?_ ?_) ?_) ?_ ?_) ?_) ?_⟩
  all_goals decide +kernel

theorem overlapping_reached : Reached store overlapping := runs_reached.1

theorem released_reached : Reached store released := runs_reached.2.1

theorem reopened_reached : Reached suspended reopened := runs_reached.2.2

theorem closed_last {settings : DeletionSettings} {tenantId : String} {trace : DeletionTrace}
    (closed : ClosedThroughout settings tenantId trace) :
    (trace.head?.any fun e => e.label.purges.isSome && e.before.active tenantId) = false := by
  cases trace with
  | nil => rfl
  | cons e earlier =>
      have last := (closed [] e earlier rfl).1
      cases purges : e.label.purges.isSome with
      | false => simp [purges]
      | true => simp [last purges]

/-- Two workers that are at a purge since the present time. -/
theorem not_oneAtATime {c : Run} (i j : Nat) (different : i ≠ j) (id : String)
    (at₁ : working policy i c.world.trace = some (id, c.world.store.clock))
    (at₂ : working policy j c.world.trace = some (id, c.world.store.clock)) :
    ¬ OneAtATime policy c.world := by
  intro one
  have lease : 0 ≤ policy.leaseMs := by decide
  rcases one i j different _ _ _ _ at₁ at₂ with lapsed | lapsed
  · omega
  · omega

end UnwantedPurge

open ClosedWorkspace UnwantedPurge in
/-- A worker that takes over after the lease of a claim in time. -/
theorem only_unwanted_purged_released : CancelledKept policy released.world.trace ∧
    ClosedThroughout policy "t1" released.world.trace := by
  have wanted := only_unwanted_purged policy "t1" store started released released_reached
  exact ⟨wanted.1, wanted.2.1 (by decide +kernel)⟩

open ClosedWorkspace UnwantedPurge in
/-- Each of the three conditions is needed. -/
theorem unwanted_purges :
    (¬ ∀ settings tenantId s₀, StartSound tenantId s₀ → ∀ c : Run,
      Reach (deletionSystem settings tenantId) s₀ c → claimsPrompt settings c.world.trace = true →
      outcomesOwn settings c.world.trace = true → OnlyUnwanted settings tenantId c.world) ∧
    (¬ ∀ settings tenantId s₀, StartSound tenantId s₀ → ∀ c : Run,
      Reach (deletionSystem settings tenantId) s₀ c → restoresGuarded tenantId c.world.trace = true →
      outcomesOwn settings c.world.trace = true → OnlyUnwanted settings tenantId c.world) ∧
    (¬ ∀ settings tenantId s₀, StartSound tenantId s₀ → ∀ c : Run,
      Reach (deletionSystem settings tenantId) s₀ c → restoresGuarded tenantId c.world.trace = true →
      claimsPrompt settings c.world.trace = true → OnlyUnwanted settings tenantId c.world) := by
  refine ⟨fun all => ?_, fun all => ?_, fun all => ?_⟩
  · have only := all policy "t1" suspended started_suspended reopened reopened_reached
      (by decide +kernel) (by decide +kernel)
    have purged : (reopened.world.trace.head?.any fun e =>
        e.label.purges.isSome && e.before.active "t1") = true := by decide +kernel
    rw [closed_last only.closed] at purged
    cases purged
  · have only := all policy "t1" store started overlapping overlapping_reached
      (by decide +kernel) (by decide +kernel)
    exact not_oneAtATime 0 1 (by decide) "deletion-1" (by decide +kernel) (by decide +kernel) only.apart
  · have only := all policy "t1" store started released released_reached
      (by decide +kernel) (by decide +kernel)
    exact not_oneAtATime 1 2 (by decide) "deletion-1" (by decide +kernel) (by decide +kernel) only.apart

end AnalyticsBackend.Tenancy
