import AnalyticsBackend.Delivery.OneWorker

/-!
# Deliveries that a crash strands

The outbox leases its claims, so that another worker takes a message over from one that crashed. A
delivery run has no lease: it is stranded if and only if its worker crashes during the attempt.
-/

namespace AnalyticsBackend.Delivery
open Lib System

/-- A run that no worker attempts but those that have crashed is finished, or is claimed later. -/
def NeverStranded (w : DeliveryWorld) (crashed : Nat → Prop) : Prop :=
  ∀ run ∈ w.store.runs, (∀ i, attempting w i = some run.id → crashed i) → Settled run

/-- There is one run for a key. -/
def OneRunPerKey (db : DeliveryDb) : Prop :=
  (db.runs.map fun run => (run.tenantId, run.idempotencyKey)).Nodup

/-- No run is attempted by two workers. -/
def OneWorker (w : DeliveryWorld) : Prop :=
  ∀ i j id, attempting w i = some id → attempting w j = some id → i = j

/-- What the pipeline is to keep, whoever has crashed. -/
structure DeliveredOnce (w : DeliveryWorld) (crashed : Nat → Prop) : Prop where
  keys : OneRunPerKey w.store
  alone : OneWorker w
  settled : NeverStranded w crashed

theorem DeliveryInv.of_reach {env : DeliveryEnv} {s₀ : DeliveryDb} (start : DeliveryStart s₀)
    {c : Config Nat DeliveryLabel DeliveryDb Unit} (reach : Reach (deliverySystem env) s₀ c) :
    DeliveryInv c.world :=
  (reach.sound (deliveryDiscipline start)).inv

theorem settled_of_queued {run : DeliveryRun} (status : run.status = .retrying)
    (queued : run.nextAttemptAt.isSome = true) : Settled run := by
  obtain ⟨at_, time⟩ := Option.isSome_iff_exists.mp queued
  refine .inr (.inr (.inr ⟨at_, fun now later => ?_⟩))
  simp [DeliveryRun.due, status, time, later]

theorem not_settled_of_pending {run : DeliveryRun} (pending : run.status = .pending) :
    ¬ Settled run := by
  rintro (sent | skipped | dead | ⟨now, due⟩)
  · exact nomatch sent.symm.trans pending
  · exact nomatch skipped.symm.trans pending
  · exact nomatch dead.symm.trans pending
  · have is := due now le_rfl
    simp [DeliveryRun.due, pending] at is

theorem DeliveryInv.settled {w : DeliveryWorld} (inv : DeliveryInv w) {run : DeliveryRun}
    (mem : run ∈ w.store.runs) (idle : run.status ≠ .pending) : Settled run := by
  cases status : run.status with
  | pending => exact absurd status idle
  | sent => exact .inl status
  | skipped => exact .inr (.inl status)
  | dead => exact .inr (.inr (.inl status))
  | retrying => exact settled_of_queued status (inv.queued run mem status)

theorem DeliveryInv.neverStranded_iff {w : DeliveryWorld} (inv : DeliveryInv w)
    (crashed : Nat → Prop) :
    NeverStranded w crashed ↔ ∀ i, crashed i → attempting w i = none := by
  constructor
  · intro settled i stopped
    cases at_ : attempting w i with
    | none => rfl
    | some id =>
        obtain ⟨run, mem, rfl, pending⟩ := inv.busy i id at_
        refine absurd (settled run mem fun j at_' => ?_) (not_settled_of_pending pending)
        rwa [inv.alone j i run.id at_' at_]
  · intro safe run mem unattended
    refine inv.settled mem fun pending => ?_
    obtain ⟨i, at_⟩ := inv.held run mem pending
    have none := safe i (unattended i at_)
    rw [at_] at none
    exact nomatch none

/-- Whatever is delivered and retried at once, there is one run for a key and one worker at a run, and
no run is stranded if and only if no worker has crashed during an attempt. -/
theorem delivered_once_iff (env : DeliveryEnv) (s₀ : DeliveryDb) (start : DeliveryStart s₀)
    (c : Config Nat DeliveryLabel DeliveryDb Unit) (reach : Reach (deliverySystem env) s₀ c) :
    OneRunPerKey c.world.store ∧ OneWorker c.world ∧ ∀ crashed : Nat → Prop,
      DeliveredOnce c.world crashed ↔ ∀ i, crashed i → attempting c.world i = none := by
  have inv := DeliveryInv.of_reach start reach
  refine ⟨inv.keys, inv.alone, fun crashed => ?_⟩
  rw [← inv.neverStranded_iff crashed]
  exact ⟨fun once => once.settled, fun settled => ⟨inv.keys, inv.alone, settled⟩⟩

/-! ## A crash after the creation of a run -/

namespace CrashedDelivery

def env : DeliveryEnv := { maxAttempts := 5, backoffBaseMs := 60000, backoffMaxMs := 3600000 }

def store : DeliveryDb := { clock := 1700000000000, runs := [], destinations := [], unsubscribed := [] }

/-- A scheduled report that is sent to an address. -/
def request : DeliverRequest where
  id := "run-1"
  tenantId := "t1"
  kind := "report"
  idempotencyKey := "report-1"
  type := some .email
  sendTo := "ada@example.com"
  destinationId := ""
  external := false
  sourceId := none
  reportRunId := none
  answer := .ok (some "outbox-1")

abbrev Run := Config Nat DeliveryLabel DeliveryDb Unit

/-- One `deliver` that takes a number of steps. -/
def delivering (steps : Nat) : Run :=
  (.start 0 ((DeliveryCall.deliver request).program env) :: List.replicate steps (.act 0)).foldl
    Config.move (.idle store)

theorem started : DeliveryStart store := by
  constructor <;> decide

theorem delivering_reached (steps : Nat)
    (legal : (deliverySystem env).LegalRun
      ((Config.idle store).move (.start 0 ((DeliveryCall.deliver request).program env)))
      (List.replicate steps (.act 0))) :
    Reach (deliverySystem env) store (delivering steps) :=
  Reach.moves .init (show (deliverySystem env).LegalRun (.idle store) _ from
    ⟨⟨rfl, _, rfl⟩, legal⟩)

end CrashedDelivery

open CrashedDelivery in
/-- A finished delivery, whose worker may crash then. -/
theorem delivered_once_iff_finished :
    (∃ run ∈ (delivering 6).world.store.runs, run.status = .sent) ∧
      DeliveredOnce (delivering 6).world (· = 0) := by
  refine ⟨by decide +kernel, ?_⟩
  refine ((delivered_once_iff env store started (delivering 6)
    (delivering_reached 6 (by decide +kernel))).2.2 (· = 0)).mpr ?_
  rintro i rfl
  decide +kernel

open CrashedDelivery in
/-- A worker that crashes once it has created the run leaves it pending for good. -/
theorem crash_strands : ¬ ∀ env s₀, DeliveryStart s₀ →
    ∀ c : Run, Reach (deliverySystem env) s₀ c → ∀ crashed, DeliveredOnce c.world crashed := by
  intro all
  have reach := delivering_reached 2 (by decide +kernel)
  have once := all env store started (delivering 2) reach (· = 0)
  have at_ : attempting (delivering 2).world 0 = some "run-1" := by decide +kernel
  have idle := ((DeliveryInv.of_reach started reach).neverStranded_iff _).mp once.settled 0 rfl
  rw [at_] at idle
  exact nomatch idle

end AnalyticsBackend.Delivery
