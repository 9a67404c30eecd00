import AnalyticsBackend.Tenancy.PurgePrograms

/-!
# A verified purge is complete

However its attempts fail, crash and overlap, a deletion is marked as purged only when nothing of
the workspace as it was at the first attempt is left, but what is retained.
-/

namespace AnalyticsBackend.Tenancy
open Lib Collection System

/-- A deletion has been marked as purged. -/
def markedPurged (trace : DeletionTrace) : Bool :=
  trace.any fun e =>
    match e.label with
    | .markPurged _ => true
    | _ => false

/-- Once a deletion is marked as purged, no document that the registry deletes or detaches matches
the filter that the first attempt would have computed, and no file of the workspace is left. -/
theorem verified_purge_complete (settings : DeletionSettings) (tenantId : String) (s₀ : DeletionDb)
    (c : Config Nat DeletionLabel DeletionDb DeletionResult)
    (reach : Reach (deletionSystem settings tenantId) s₀ c)
    (marked : markedPurged c.world.trace = true) : Cleared settings tenantId s₀ c.world.store := by
  obtain ⟨e, mem, is⟩ := List.any_eq_true.mp marked
  split at is
  · rename_i id label
    exact (deletion_inv reach).done e mem id label
  · cases is

namespace RetriedPurge
open ClosedWorkspace

/-- The first attempt stops at the accounts, after the roles are gone. -/
def stopped : Config Nat DeletionLabel DeletionDb DeletionResult :=
  (run 0 (purging (· = .clear .user)) 60).foldl Config.move (.idle store)

def retried : Config Nat DeletionLabel DeletionDb DeletionResult :=
  (.env { stopped.world.store with clock := 1702592900000 } ::
    run 1 (purging fun _ => false) 150).foldl Config.move stopped

theorem reached : Reach (deletionSystem policy "t1") store retried := by
  have stopped : Reach (deletionSystem policy "t1") store stopped :=
    Reach.moves .init ⟨⟨rfl, purging (· = .clear .user), rfl⟩, by decide +kernel⟩
  refine stopped.moves ⟨⟨1702592900000, by decide +kernel, rfl⟩,
    ⟨rfl, purging fun _ => false, rfl⟩, ?_⟩
  decide +kernel

end RetriedPurge

open ClosedWorkspace RetriedPurge in
/-- The second attempt finds the roles gone, and has left no permission of theirs. -/
theorem verified_purge_complete_retried :
    (stopped.world.store.deletions.map TenantDeletion.status = [.failed] ∧
      roleIdsOf "t1" stopped.world.store = []) ∧ Cleared policy "t1" store retried.world.store :=
  ⟨by decide +kernel, verified_purge_complete policy "t1" store retried reached (by decide +kernel)⟩

end AnalyticsBackend.Tenancy
