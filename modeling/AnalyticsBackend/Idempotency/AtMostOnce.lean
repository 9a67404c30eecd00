import AnalyticsBackend.Idempotency.Middleware

/-!
# At most one successful execution per key

The outcome is read before the lock is taken, and not again by the request that takes it free. So
one that read nothing, and takes the lock only after the first has stored its outcome and removed
it, runs the handler again. Where every lock is taken while nothing is stored, and no connection
closes under a running handler, the first success is the last run: `IdemInv` says that a stored
outcome, or a run that still holds the lock, stands behind every success.
-/

namespace AnalyticsBackend.Idempotency
open Lib System

def IdemLabel.success : IdemLabel → Option Outcome
  | .finish response => response.outcome
  | _ => none

/-- What may still happen once a run has succeeded with `o`: no handler starts or ends, and what
is answered is `o` again or 409. -/
def IdemLabel.Follows (o : Outcome) : IdemLabel → Prop
  | .start => False
  | .finish _ => False
  | .endUnsent _ => False
  | .answer a => a = .replay o ∨ a = .inProgress
  | _ => True

/-- After the first success of the key there are only replays of it, and 409. -/
def AtMostOnce (trace : List IdemEvent) : Prop :=
  ∀ later e earlier o, trace = later ++ e :: earlier → e.label.success = some o →
    ∀ e' ∈ later, e'.label.Follows o

/-- A request takes the free lock only while no outcome is stored, and no connection closes before
its handler has ended. -/
def TakenBeforeStored : IdemLabel → CacheDb → CacheDb → Prop
  | .increment _ _, db, _ => db.holders = 0 → db.outcome = none
  | .close, _, _ => False
  | _, _, _ => True

/-! ## The invariant -/

def Locked (opts : Options) (db : CacheDb) : Prop :=
  ∀ r, db.run = some r → db.clock < r.2 ∧ r.2 ≤ db.clock + opts.lockTtl ∧
    0 < db.holders ∧ ∀ lock t, db.lock = some lock → lock.expiresAt = some t → r.2 ≤ t

/-- Behind every success stands its stored outcome, or the run that is about to store it. -/
def Backed (cipher : Cipher) (w : IdemWorld) : Prop :=
  ∀ e ∈ w.trace, ∀ o, e.label.success = some o →
    (∃ s, w.store.outcome = some s ∧ s.opened cipher = some o) ∨
      w.store.outcome = none ∧ ∃ d, w.store.run = some (e.tid, d)

structure IdemInv (opts : Options) (cipher : Cipher) (fingerprint : String) (w : IdemWorld) :
    Prop where
  locked : Locked opts w.store
  counted : ∀ lock, w.store.lock = some lock → 0 < lock.value
  printed : ∀ s, w.store.outcome = some s → s.fingerprint = fingerprint
  backed : Backed cipher w
  once : AtMostOnce w.trace

/-- The steps that only the run that holds the lock takes. -/
def IdemLabel.ofRun : IdemLabel → Bool
  | .start | .finish _ | .store _ | .del _ => true
  | _ => false

/-- The handler runs, stores and removes the lock only while its own run holds it; before the
outcome is stored, except for the removal. -/
def IdemGuar (e : IdemEvent) : Prop :=
  e.after = e.label.act e.before ∧
    (e.label.ofRun = true → ∃ d, e.before.run = some (e.tid, d)) ∧
    (∀ entry, e.label = .store entry → e.before.outcome = none) ∧
    ∀ response, e.label = .finish response → e.before.outcome = none

section Steps

variable {opts : Options} {cipher : Cipher} {fingerprint : String} {w : IdemWorld} {e : IdemEvent}
  {i : Nat}

theorem AtMostOnce.cons {trace : List IdemEvent} (once : AtMostOnce trace)
    (follows : ∀ e' ∈ trace, ∀ o, e'.label.success = some o → e.label.Follows o) :
    AtMostOnce (e :: trace) := by
  intro later e' earlier o split success e'' mem
  cases later with
  | nil => exact nomatch mem
  | cons d later =>
      have head : e = d := (List.cons.inj split).1
      have rest : trace = later ++ e' :: earlier := (List.cons.inj split).2
      rcases List.mem_cons.mp mem with rfl | mem
      · exact head ▸ follows e' (by rw [rest]; simp) o success
      · exact once later e' earlier o rest success e'' mem

theorem holders_pos (counted : ∀ lock, w.store.lock = some lock → 0 < lock.value) :
    w.store.holders = 0 ↔ w.store.lock = none := by
  unfold CacheDb.holders
  cases found : w.store.lock with
  | none => simp
  | some lock =>
      have := counted lock found
      simp only [Option.map_some, Option.getD_some, reduceCtorEq, iff_false]
      omega

/-- Where a run holds the lock, the steps of the other requests leave it and the stored outcome
alone. -/
theorem run_kept (inv : IdemInv opts cipher fingerprint w) (other : e.tid ≠ i)
    (before : e.before = w.store) (guar : IdemGuar e) {d : Int} (run : w.store.run = some (i, d)) :
    e.after.run = some (i, d) ∧ e.after.outcome = w.store.outcome ∧ e.label.success = none := by
  obtain ⟨after, own, -, -⟩ := guar
  have foreign : e.label.ofRun = false := by
    cases of : e.label.ofRun with
    | false => rfl
    | true =>
        obtain ⟨d', run'⟩ := own of
        rw [before, run, Option.some.injEq, Prod.mk.injEq] at run'
        exact absurd run'.1.symm other
  rw [after, before]
  revert foreign
  cases e.label with
  | start => exact fun h => nomatch h
  | finish response => exact fun h => nomatch h
  | store entry => exact fun h => nomatch h
  | del token => exact fun h => nomatch h
  | increment token lockTtl =>
      intro _
      have taken : w.store.holders ≠ 0 := by
        have := (inv.locked _ run).2.2.1
        omega
      simp [IdemLabel.act, IdemLabel.success, taken, run]
  | claim inst token =>
      intro _
      unfold IdemLabel.act
      dsimp only
      split <;> exact ⟨run, rfl, rfl⟩
  | settle inst token =>
      intro _
      unfold IdemLabel.act
      dsimp only
      split <;> exact ⟨run, rfl, rfl⟩
  | get => exact fun _ => ⟨run, rfl, rfl⟩
  | ttl => exact fun _ => ⟨run, rfl, rfl⟩
  | bound lockTtl => exact fun _ => ⟨run, rfl, rfl⟩
  | close => exact fun _ => ⟨run, rfl, rfl⟩
  | endUnsent response => exact fun _ => ⟨run, rfl, rfl⟩
  | answer a => exact fun _ => ⟨run, rfl, rfl⟩

theorem outcome_kept (before : e.before = w.store) (guar : IdemGuar e) {s : StoredOutcome}
    (stored : w.store.outcome = some s) : e.after.outcome = some s := by
  obtain ⟨after, -, none, -⟩ := guar
  rw [after, before]
  cases label : e.label with
  | store entry =>
      have empty := none entry label
      rw [before, stored] at empty
      exact nomatch empty
  | claim inst token =>
      unfold IdemLabel.act
      dsimp only
      split <;> exact stored
  | settle inst token =>
      unfold IdemLabel.act
      dsimp only
      split <;> exact stored
  | _ => exact stored

/-! ## What each step keeps -/

theorem IdemInv.quiet (inv : IdemInv opts cipher fingerprint w) (label : IdemLabel)
    (lock : (label.act w.store).lock = w.store.lock) (run : (label.act w.store).run = w.store.run)
    (outcome : (label.act w.store).outcome = w.store.outcome)
    (clock : (label.act w.store).clock = w.store.clock) (silent : label.success = none)
    (follows : ∀ e' ∈ w.trace, ∀ o, e'.label.success = some o → label.Follows o) (i : Nat) :
    IdemInv opts cipher fingerprint (w.push ⟨i, label, w.store, label.act w.store⟩) := by
  constructor
  · intro r held
    rw [World.push_store, run] at held
    rw [World.push_store, clock, lock, CacheDb.holders, lock]
    exact inv.locked r held
  · rw [World.push_store, lock]
    exact inv.counted
  · rw [World.push_store, outcome]
    exact inv.printed
  · intro e mem o success
    rw [World.push_store, outcome, run]
    rcases List.mem_cons.mp mem with rfl | mem
    · rw [silent] at success
      exact nomatch success
    · exact inv.backed e mem o success
  · exact inv.once.cons follows

theorem IdemInv.increment (inv : IdemInv opts cipher fingerprint w) (i : Nat) :
    IdemInv opts cipher fingerprint (w.push ⟨i, .increment i opts.lockTtl, w.store,
      (IdemLabel.increment i opts.lockTtl).act w.store⟩) := by
  have positive : 0 < opts.lockTtl := by
    have := opts.positive
    unfold Options.lockTtl
    omega
  have unheld : w.store.holders = 0 → w.store.run = none := by
    intro free
    cases run : w.store.run with
    | none => rfl
    | some r =>
        have := (inv.locked r run).2.2.1
        omega
  constructor
  · intro r held
    by_cases free : w.store.holders = 0
    · have none := (holders_pos inv.counted).mp free
      simp only [World.push_store, IdemLabel.act, free, if_true, Option.some.injEq] at held
      subst held
      refine ⟨?_, Int.le_refl _, ?_, ?_⟩
      · show w.store.clock < w.store.clock + opts.lockTtl
        omega
      · simp [World.push_store, IdemLabel.act, CacheDb.holders]
      · intro lock t stored expires
        simp only [World.push_store, IdemLabel.act, none, Option.some.injEq] at stored
        rw [← stored] at expires
        exact nomatch expires
    · simp only [World.push_store, IdemLabel.act, free, if_false] at held
      obtain ⟨running, within, -, outlives⟩ := inv.locked r held
      refine ⟨running, within, ?_, ?_⟩
      · simp [World.push_store, IdemLabel.act, CacheDb.holders]
      · intro lock t stored expires
        simp only [World.push_store, IdemLabel.act, Option.some.injEq] at stored
        rw [← stored] at expires
        obtain ⟨lock', stored', expires'⟩ := Option.bind_eq_some_iff.mp expires
        exact outlives lock' t stored' expires'
  · intro lock stored
    simp only [World.push_store, IdemLabel.act, Option.some.injEq] at stored
    rw [← stored]
    exact Nat.succ_pos _
  · exact inv.printed
  · intro e mem o success
    rcases List.mem_cons.mp mem with rfl | mem
    · exact nomatch success
    · rcases inv.backed e mem o success with stored | ⟨none, d, run⟩
      · exact .inl stored
      · right
        have taken : w.store.holders ≠ 0 := by
          intro free
          rw [unheld free] at run
          exact nomatch run
        refine ⟨none, d, ?_⟩
        simpa [World.push_store, IdemLabel.act, taken] using run
  · exact inv.once.cons fun e' _ o _ => trivial

theorem IdemInv.bound (inv : IdemInv opts cipher fingerprint w) (i : Nat) :
    IdemInv opts cipher fingerprint (w.push ⟨i, .bound opts.lockTtl, w.store,
      (IdemLabel.bound opts.lockTtl).act w.store⟩) := by
  constructor
  · intro r held
    obtain ⟨running, within, -, -⟩ := inv.locked r held
    refine ⟨running, within, Nat.one_pos, ?_⟩
    intro lock t stored expires
    obtain rfl : _ = lock := Option.some.inj stored
    obtain rfl : _ = t := Option.some.inj expires
    exact within
  · intro lock stored
    obtain rfl : _ = lock := Option.some.inj stored
    exact Nat.one_pos
  · exact inv.printed
  · intro e mem o success
    rcases List.mem_cons.mp mem with rfl | mem
    · exact nomatch success
    · exact inv.backed e mem o success
  · exact inv.once.cons fun e' _ o _ => trivial

/-- No run has succeeded yet. -/
def NoSuccess (trace : List IdemEvent) : Prop := ∀ e ∈ trace, e.label.success = none

theorem IdemInv.run (inv : IdemInv opts cipher fingerprint w) {label : IdemLabel}
    (same : label.act w.store = w.store) {d : Int} (held : w.store.run = some (i, d))
    (unstored : w.store.outcome = none) (none : NoSuccess w.trace) :
    IdemInv opts cipher fingerprint (w.push ⟨i, label, w.store, label.act w.store⟩) := by
  rw [same]
  refine ⟨inv.locked, inv.counted, inv.printed, ?_, ?_⟩
  · intro e mem o success
    rcases List.mem_cons.mp mem with rfl | mem
    · exact .inr ⟨unstored, d, held⟩
    · rw [none e mem] at success
      exact nomatch success
  · refine inv.once.cons fun e' mem o success => ?_
    rw [none e' mem] at success
    exact nomatch success

theorem opened_sealed (iv : Nat) (o : Outcome) :
    (o.sealed cipher iv fingerprint).opened cipher = some o := by
  obtain ⟨status, headers, body⟩ := o
  by_cases empty : body = ""
  · simp [Outcome.sealed, StoredOutcome.opened, empty]
  · simp [Outcome.sealed, StoredOutcome.opened, empty, cipher.decrypt_encrypt]

theorem IdemInv.store (inv : IdemInv opts cipher fingerprint w) (iv : Nat) {o : Outcome}
    (only : ∀ e ∈ w.trace, ∀ o', e.label.success = some o' → o' = o) (i : Nat) :
    IdemInv opts cipher fingerprint (w.push ⟨i, .store (o.sealed cipher iv fingerprint), w.store,
      (IdemLabel.store (o.sealed cipher iv fingerprint)).act w.store⟩) := by
  refine ⟨inv.locked, inv.counted, ?_, ?_, ?_⟩
  · intro s stored
    obtain rfl : _ = s := Option.some.inj stored
    rfl
  · intro e mem o' success
    rcases List.mem_cons.mp mem with rfl | mem
    · exact nomatch success
    · obtain rfl := only e mem o' success
      exact .inl ⟨_, rfl, opened_sealed iv o'⟩
  · exact inv.once.cons fun e' _ o _ => trivial

theorem IdemInv.del (inv : IdemInv opts cipher fingerprint w) {d : Int}
    (held : w.store.run = some (i, d)) (kept : w.store.outcome = none → NoSuccess w.trace) :
    IdemInv opts cipher fingerprint
      (w.push ⟨i, .del i, w.store, (IdemLabel.del i).act w.store⟩) := by
  constructor
  · intro r stillHeld
    simp [World.push_store, IdemLabel.act, held] at stillHeld
  · intro lock stored
    exact nomatch stored
  · exact inv.printed
  · intro e mem o success
    rcases List.mem_cons.mp mem with rfl | mem
    · exact nomatch success
    · rcases inv.backed e mem o success with stored | ⟨none, -⟩
      · exact .inl stored
      · rw [kept none e mem] at success
        exact nomatch success
  · exact inv.once.cons fun e' _ o _ => trivial

end Steps

/-! ## The requests -/

section Requests

variable {opts : Options} {cipher : Cipher} {fingerprint : String} {req : Request} {i : Nat}

/-- The run of process `i` holds the lock, with `Q` of the stored outcome and the trace. -/
def Holding (i : Nat) (Q : Option StoredOutcome → List IdemEvent → Prop) (w : IdemWorld) : Prop :=
  ∃ d, w.store.run = some (i, d) ∧ Q w.store.outcome w.trace

/-- Nothing is stored, and nothing has succeeded. -/
def Untouched (outcome : Option StoredOutcome) (trace : List IdemEvent) : Prop :=
  outcome = none ∧ NoSuccess trace

/-- Nothing is stored, and nothing has succeeded but with `sent`. -/
def Unstored (sent : Option Outcome) (outcome : Option StoredOutcome) (trace : List IdemEvent) :
    Prop :=
  outcome = none ∧ ∀ e ∈ trace, ∀ o, e.label.success = some o → sent = some o

/-- What has succeeded is stored. -/
def Settled (outcome : Option StoredOutcome) (trace : List IdemEvent) : Prop :=
  outcome = none → NoSuccess trace

/-- What `readOutcome` returned is stored. -/
def Seen (cipher : Cipher) (stored : Option (Outcome × String)) (w : IdemWorld) : Prop :=
  ∀ o print, stored = some (o, print) →
    ∃ s, w.store.outcome = some s ∧ s.opened cipher = some o ∧ s.fingerprint = print

variable (opts cipher fingerprint)

/-- Stability under the steps of the other requests and of time. -/
abbrev IdemStable (i : Nat) (P : IdemWorld → Prop) : Prop :=
  Stable (idempotencySystem opts cipher fingerprint TakenBeforeStored).env
    (IdemInv opts cipher fingerprint) IdemGuar i P

abbrev IdemSafe {A : Type} (i : Nat) (Q : A → IdemWorld → Prop) (p : IdemProg A)
    (P : IdemWorld → Prop) : Prop :=
  Safe (idempotencySystem opts cipher fingerprint TakenBeforeStored).env TakenBeforeStored
    (IdemInv opts cipher fingerprint) IdemGuar i Q p P

variable {opts cipher fingerprint}

theorem stable_true : IdemStable opts cipher fingerprint i fun _ => True :=
  ⟨fun _ _ _ _ _ _ _ _ => trivial, fun _ _ _ _ _ => trivial⟩

theorem stable_holding {Q : Option StoredOutcome → List IdemEvent → Prop}
    (closed : ∀ outcome trace e, e.label.success = none → Q outcome trace →
      Q outcome (e :: trace)) : IdemStable opts cipher fingerprint i (Holding i Q) := by
  constructor
  · rintro w e inv ⟨d, run, holds⟩ other before guar -
    obtain ⟨run', outcome, silent⟩ := run_kept inv other before guar run
    refine ⟨d, run', ?_⟩
    rw [World.push_store, World.push_trace, outcome]
    exact closed _ _ _ silent holds
  · rintro w db - ⟨d, run, holds⟩ ⟨-, -, outcome, -, run', -⟩
    exact ⟨d, run'.trans run, by rw [outcome]; exact holds⟩

theorem NoSuccess.cons {trace : List IdemEvent} {e : IdemEvent} (none : NoSuccess trace)
    (silent : e.label.success = Option.none) : NoSuccess (e :: trace) := by
  intro e' mem
  rcases List.mem_cons.mp mem with rfl | mem
  · exact silent
  · exact none e' mem

theorem stable_untouched : IdemStable opts cipher fingerprint i (Holding i Untouched) :=
  stable_holding fun _ _ _ silent holds => ⟨holds.1, holds.2.cons silent⟩

theorem Unstored.cons {sent : Option Outcome} {outcome : Option StoredOutcome}
    {trace : List IdemEvent} {e : IdemEvent} (holds : Unstored sent outcome trace)
    (only : ∀ o, e.label.success = some o → sent = some o) : Unstored sent outcome (e :: trace) := by
  refine ⟨holds.1, fun e' mem o success => ?_⟩
  rcases List.mem_cons.mp mem with rfl | mem
  · exact only o success
  · exact holds.2 e' mem o success

theorem stable_unstored (sent : Option Outcome) :
    IdemStable opts cipher fingerprint i (Holding i (Unstored sent)) := by
  refine stable_holding fun _ _ _ silent holds => holds.cons fun o success => ?_
  rw [silent] at success
  exact nomatch success

theorem stable_settled : IdemStable opts cipher fingerprint i (Holding i Settled) :=
  stable_holding fun _ _ _ silent holds none => (holds none).cons silent

theorem stable_seen (stored : Option (Outcome × String)) :
    IdemStable opts cipher fingerprint i (Seen cipher stored) := by
  constructor
  · intro w e _ seen _ before guar _ o print same
    obtain ⟨s, stored, opened⟩ := seen o print same
    exact ⟨s, outcome_kept before guar stored, opened⟩
  · rintro w db - seen ⟨-, -, outcome, -⟩ o print same
    obtain ⟨s, stored, opened⟩ := seen o print same
    exact ⟨s, outcome.trans stored, opened⟩

theorem quiet_safe {P : IdemWorld → Prop} {label : IdemLabel} {A : Type} {report : CacheDb → A}
    (stable : IdemStable opts cipher fingerprint i P)
    (kept : ∀ db, (label.act db).lock = db.lock ∧ (label.act db).run = db.run ∧
      (label.act db).outcome = db.outcome ∧ (label.act db).clock = db.clock)
    (calm : label.ofRun = false ∧ label.success = none ∧ ∀ entry, label ≠ .store entry)
    (follows : ∀ w, IdemInv opts cipher fingerprint w → P w → ∀ e' ∈ w.trace, ∀ o,
      e'.label.success = some o → label.Follows o)
    (keeps : ∀ w, P w → P (w.push ⟨i, label, w.store, label.act w.store⟩)) :
    IdemSafe opts cipher fingerprint i (fun _ => P) (step label report) P := by
  refine Safe.update (fun _ => stable) fun w inv holds _ => ?_
  obtain ⟨lock, run, outcome, clock⟩ := kept w.store
  obtain ⟨foreign, silent, notStore⟩ := calm
  refine ⟨inv.quiet label lock run outcome clock silent (follows w inv holds) i, ?_, keeps w holds⟩
  refine ⟨rfl, ?_, fun entry same => absurd same (notStore entry), ?_⟩
  · rw [foreign]
    exact fun h => nomatch h
  · rintro response rfl
    exact nomatch foreign

theorem claim_safe (inst token : Nat) {A : Type} (report : CacheDb → A) :
    IdemSafe opts cipher fingerprint i (fun _ _ => True) (step (.claim inst token) report)
      fun _ => True := by
  refine quiet_safe stable_true ?_ ⟨rfl, rfl, by simp⟩ (fun _ _ _ _ _ _ _ => trivial)
    fun _ _ => trivial
  intro db
  unfold IdemLabel.act
  dsimp only
  split <;> exact ⟨rfl, rfl, rfl, rfl⟩

theorem settle_safe {P : IdemWorld → Prop} (stable : IdemStable opts cipher fingerprint i P)
    (keeps : ∀ w db, db.outcome = w.store.outcome → P w →
      P (w.push ⟨i, .settle req.inst req.token, w.store, db⟩)) :
    IdemSafe opts cipher fingerprint i (fun _ => P) (settle req) P := by
  have kept : ∀ db : CacheDb, let after := (IdemLabel.settle req.inst req.token).act db
      after.lock = db.lock ∧ after.run = db.run ∧ after.outcome = db.outcome ∧
        after.clock = db.clock := by
    intro db
    unfold IdemLabel.act
    dsimp only
    split <;> exact ⟨rfl, rfl, rfl, rfl⟩
  exact quiet_safe stable kept ⟨rfl, rfl, by simp⟩
    (fun _ _ _ _ _ _ _ => trivial) fun w holds => keeps w _ (kept w.store).2.2.1 holds

theorem Seen.of_outcome {stored : Option (Outcome × String)} {w w' : IdemWorld}
    (seen : Seen cipher stored w) (same : w'.store.outcome = w.store.outcome) :
    Seen cipher stored w' := by
  intro o print found
  rw [same]
  exact seen o print found

theorem readOutcome_safe : IdemSafe opts cipher fingerprint i (Seen cipher) (readOutcome cipher)
    fun _ => True := by
  refine Safe.update stable_seen fun w inv _ _ => ?_
  have inv' := inv.quiet .get rfl rfl rfl rfl rfl (fun _ _ _ _ => trivial) i
  refine ⟨inv', ?_, ?_⟩
  · exact ⟨rfl, fun h => (nomatch h), fun _ h => (nomatch h), fun _ h => (nomatch h)⟩
  · intro o print found
    obtain ⟨s, stored, found⟩ := Option.bind_eq_some_iff.mp found
    obtain ⟨o', opened, found⟩ := Option.map_eq_some_iff.mp found
    obtain ⟨rfl, rfl⟩ := Prod.mk.inj found
    exact ⟨s, stored, opened, rfl⟩

theorem replayOrRefuse_safe (print : req.fingerprint = fingerprint)
    (stored : Outcome × String) :
    IdemSafe opts cipher fingerprint i (fun _ _ => True) (replayOrRefuse req stored)
      (Seen cipher (some stored)) := by
  obtain ⟨o, p⟩ := stored
  unfold replayOrRefuse
  split
  · rename_i reused
    refine Safe.of_fact ?_ False.elim
    intro w inv seen
    obtain ⟨s, stored, -, same⟩ := seen o p rfl
    exact reused.2 (same.symm.trans ((inv.printed s stored).trans print.symm))
  · refine (quiet_safe (stable_seen _) (fun _ => ⟨rfl, rfl, rfl, rfl⟩) ⟨rfl, rfl, by simp⟩ ?_
      fun w seen => seen.of_outcome rfl).post fun _ _ _ => trivial
    intro w inv seen e' mem o' success
    obtain ⟨s, stored, opened, -⟩ := seen o p rfl
    rcases inv.backed e' mem o' success with ⟨s', stored', opened'⟩ | ⟨none, -⟩
    · rw [stored, Option.some.injEq] at stored'
      subst stored'
      rw [opened, Option.some.injEq] at opened'
      exact .inl (congrArg _ opened')
    · rw [stored] at none
      exact nomatch none

theorem boundOrphanedLock_safe :
    IdemSafe opts cipher fingerprint i (fun _ _ => True) (boundOrphanedLock opts)
      fun _ => True := by
  have ttl : IdemSafe opts cipher fingerprint i (fun _ _ => True)
      (step .ttl fun db => db.lock.any fun lock => lock.expiresAt.isNone) fun _ => True :=
    quiet_safe stable_true (fun _ => ⟨rfl, rfl, rfl, rfl⟩) ⟨rfl, rfl, by simp⟩
      (fun _ _ _ _ _ _ _ => trivial) fun _ _ => trivial
  unfold boundOrphanedLock
  split
  · refine Safe.bind ttl fun unbounded => ?_
    split
    · refine Safe.update (fun _ => stable_true) fun w inv _ _ => ?_
      refine ⟨inv.bound i, ⟨rfl, fun h => (nomatch h), fun _ h => (nomatch h), ?_⟩, trivial⟩
      exact fun _ h => nomatch h
    · exact fun _ _ _ => trivial
  · exact fun _ _ _ => trivial

theorem refuseContended_safe (print : req.fingerprint = fingerprint) :
    IdemSafe opts cipher fingerprint i (fun _ _ => True) (refuseContended opts cipher req)
      fun _ => True := by
  refine Safe.bind readOutcome_safe fun after => ?_
  cases after with
  | some stored =>
      refine Safe.bind (settle_safe (stable_seen _) fun w db same seen => seen.of_outcome same) ?_
      exact fun _ => replayOrRefuse_safe print stored
  | none =>
      refine Safe.bind (boundOrphanedLock_safe.weaken fun _ _ _ => trivial) fun _ => ?_
      refine Safe.bind (settle_safe stable_true fun _ _ _ _ => trivial) fun _ => ?_
      exact quiet_safe stable_true (fun _ => ⟨rfl, rfl, rfl, rfl⟩) ⟨rfl, rfl, by simp⟩
        (fun _ _ _ _ _ _ _ => .inr rfl) fun _ _ => trivial

/-- The run stores what it succeeded with, removes the lock and leaves the map. -/
theorem cleanUp_safe (token : req.token = i) :
    IdemSafe opts cipher fingerprint i (fun _ _ => True)
      (removeLock req >>= fun _ => settle req) (Holding i Settled) := by
  refine Safe.bind (R := fun _ _ => True) ?_ fun _ => settle_safe stable_true fun _ _ _ _ => trivial
  refine Safe.update (fun _ => stable_true) ?_
  rintro w inv ⟨d, held, settled⟩ -
  rw [token]
  refine ⟨inv.del held settled, ⟨rfl, fun _ => ⟨d, held⟩, ?_, ?_⟩, trivial⟩
  · exact fun _ h => nomatch h
  · exact fun _ h => nomatch h

theorem storeOutcome_safe (print : req.fingerprint = fingerprint) :
    IdemSafe opts cipher fingerprint i (fun _ => Holding i Settled)
      (storeOutcome cipher req req.response.outcome)
      (Holding i (Unstored req.response.outcome)) := by
  unfold storeOutcome
  cases outcome : req.response.outcome with
  | none =>
      rintro w - ⟨d, held, -, only⟩
      refine ⟨d, held, fun _ e mem => ?_⟩
      cases success : e.label.success with
      | none => rfl
      | some o => exact nomatch only e mem o success
  | some o =>
      refine Safe.update (fun _ => stable_settled) ?_
      rintro w inv ⟨d, held, unstored, only⟩ -
      rw [print]
      refine ⟨inv.store req.iv (fun e mem o' success => ?_) i, ⟨rfl, fun _ => ⟨d, held⟩, ?_, ?_⟩,
        d, held, ?_⟩
      · exact (Option.some.inj (only e mem o' success)).symm
      · exact fun _ _ => unstored
      · exact fun _ h => nomatch h
      · exact fun h => nomatch h

theorem runHandler_safe (print : req.fingerprint = fingerprint) (token : req.token = i) :
    IdemSafe opts cipher fingerprint i (fun _ _ => True) (runHandler cipher req)
      (Holding i Untouched) := by
  have closes : ∀ p : IdemProg Unit, IdemSafe opts cipher fingerprint i (fun _ _ => True)
      (step .close (fun _ => ()) >>= fun _ => p) (Holding i Untouched) :=
    fun p w _ _ allowed => allowed.elim
  refine Safe.bind (R := fun _ => Holding i Untouched) ?_ fun _ => ?_
  · refine Safe.update (fun _ => stable_untouched) ?_
    rintro w inv ⟨d, held, unstored, none⟩ -
    refine ⟨inv.run rfl held unstored none, ⟨rfl, fun _ => ⟨d, held⟩, ?_, ?_⟩, d, held, unstored,
      none.cons rfl⟩
    · exact fun _ h => nomatch h
    · exact fun _ h => nomatch h
  · split
    · refine Safe.bind (R := fun _ => Holding i (Unstored req.response.outcome)) ?_ fun _ => ?_
      · refine Safe.update (fun _ => stable_unstored _) ?_
        rintro w inv ⟨d, held, unstored, none⟩ -
        refine ⟨inv.run rfl held unstored none, ⟨rfl, fun _ => ⟨d, held⟩, ?_, ?_⟩, d, held, ?_⟩
        · exact fun _ h => nomatch h
        · exact fun _ _ => unstored
        · refine Unstored.cons ⟨unstored, fun e mem o success => ?_⟩ fun _ success => success
          rw [none e mem] at success
          exact nomatch success
      · exact Safe.bind (storeOutcome_safe print) fun _ => cleanUp_safe token
    · exact closes _
    · exact closes _
    · exact closes _

theorem attempt_safe (print : req.fingerprint = fingerprint) (token : req.token = i) :
    IdemSafe opts cipher fingerprint i (fun _ _ => True) (attempt opts cipher req)
      fun _ => True := by
  refine Safe.bind readOutcome_safe fun stored => ?_
  cases stored with
  | some stored =>
      refine Safe.bind (settle_safe (stable_seen _) fun w db same seen => seen.of_outcome same) ?_
      exact fun _ => replayOrRefuse_safe print stored
  | none =>
      refine Safe.bind (R := fun holders w => holders ≤ 1 → Holding i Untouched w) ?_ ?_
      · refine Safe.update (fun _ => Stable.imp fun _ => stable_untouched) ?_
        intro w inv _ allowed
        rw [token]
        refine ⟨inv.increment i, ⟨rfl, fun h => (nomatch h), fun _ h => (nomatch h), ?_⟩, ?_⟩
        · exact fun _ h => nomatch h
        · intro first
          have free : w.store.holders = 0 := by omega
          have unstored : w.store.outcome = none := allowed free
          refine ⟨w.store.clock + opts.lockTtl, ?_, unstored, ?_⟩
          · simp [World.push_store, IdemLabel.act, free]
          · refine NoSuccess.cons (fun e mem => ?_) rfl
            cases success : e.label.success with
            | none => rfl
            | some o =>
                rcases inv.backed e mem o success with ⟨s, stored, -⟩ | ⟨-, d, run⟩
                · rw [unstored] at stored
                  exact nomatch stored
                · have taken := (inv.locked _ run).2.2.1
                  omega
      · intro holders
        split
        · exact (refuseContended_safe print).weaken fun _ _ _ => trivial
        · rename_i first
          refine Safe.bind (R := fun _ => Holding i Untouched) ?_ fun _ => runHandler_safe print token
          refine Safe.update (fun _ => stable_untouched) ?_
          intro w inv holding _
          obtain ⟨d, held, unstored, none⟩ := holding (by omega)
          refine ⟨inv.bound i, ⟨rfl, fun h => (nomatch h), fun _ h => (nomatch h), ?_⟩, d, held,
            unstored, none.cons rfl⟩
          exact fun _ h => nomatch h

theorem handle_safe (print : req.fingerprint = fingerprint) (token : req.token = i) (looks : Nat) :
    IdemSafe opts cipher fingerprint i (fun _ _ => True) (handle opts cipher req looks)
      fun _ => True := by
  induction looks with
  | zero => exact fun _ _ _ => trivial
  | succ looks ih =>
      refine Safe.bind (claim_safe req.inst req.token _) fun claimed => ?_
      split
      · exact attempt_safe print token
      · exact ih

end Requests

/-- In every run in which the lock is only taken while nothing is stored, and no connection
closes under a running handler, the first success of the key is its last execution. -/
theorem at_most_one_success (opts : Options) (cipher : Cipher) (fingerprint : String) (clock : Int)
    {c : Config Nat IdemLabel CacheDb Unit}
    (reach : (idempotencySystem opts cipher fingerprint TakenBeforeStored).Reach (.fresh clock) c) :
    AtMostOnce c.world.trace := by
  have rule : Discipline (idempotencySystem opts cipher fingerprint TakenBeforeStored)
      (IdemInv opts cipher fingerprint) IdemGuar (fun _ _ _ => True) (.fresh clock) := by
    refine ⟨?_, ?_, ?_⟩
    · refine ⟨fun r held => (nomatch held), fun lock stored => (nomatch stored),
        fun s stored => (nomatch stored), fun e mem => (nomatch mem), ?_⟩
      intro later e earlier o split
      simp at split
    · rintro w db inv ⟨later, within, outcome, -, run, lock⟩
      have unexpired : ∀ r, w.store.run = some r → db.lock = w.store.lock := by
        intro r held
        rcases lock with same | ⟨-, entry, t, stored, expires, past⟩
        · exact same
        · have := (inv.locked r held).2.2.2 entry t stored expires
          have := within r held
          omega
      refine ⟨?_, ?_, ?_, ?_, inv.once⟩
      · intro r held
        rw [run] at held
        obtain ⟨-, bounded, counted, outlives⟩ := inv.locked r held
        have same := unexpired r held
        refine ⟨within r held, ?_, ?_, ?_⟩
        · show r.2 ≤ db.clock + opts.lockTtl
          omega
        · show 0 < db.holders
          rw [CacheDb.holders, same]
          exact counted
        · show ∀ entry t, db.lock = some entry → _
          rw [same]
          exact outlives
      · intro entry stored
        rcases lock with same | ⟨none, -⟩
        · exact inv.counted entry (same.symm.trans stored)
        · rw [none] at stored
          exact nomatch stored
      · intro s stored
        exact inv.printed s (outcome.symm.trans stored)
      · intro e mem o success
        show (∃ s, db.outcome = some s ∧ _) ∨ db.outcome = none ∧ ∃ d, db.run = _
        rw [outcome, run]
        exact inv.backed e mem o success
    · rintro i p ⟨req, looks, token, print, rfl⟩
      exact ⟨fun _ => True, stable_true, fun _ _ _ => trivial, handle_safe print token looks⟩
  exact (reach.sound rule).inv.once

/-! ## A retry that read too early -/

namespace Retry

def opts : Options := { lockTtlSec := 300, positive := by decide, hasTtl := true }

/-- Bodies that are stored as they are. -/
def plain : Cipher := { encrypt := fun _ body => body, decrypt := some, decrypt_encrypt := by simp }

/-- The same request, sent to two instances. -/
def request (inst token : Nat) : Request where
  inst
  token
  fingerprint := "f"
  iv := 0
  response := { statusCode := 201, headers := [], body := some "created" }
  ending := .sent

def attempt (inst token : Nat) : IdemProg Unit := handle opts plain (request inst token) 1

/-- The first request runs to its end; the retry comes after it. -/
def afterwards : List (Move Nat IdemLabel CacheDb Unit) :=
  .start 0 (attempt 0 0) :: List.replicate 9 (.act 0) ++
    .start 1 (attempt 1 1) :: List.replicate 4 (.act 1)

/-- The retry has read that nothing is stored when the first request runs to its end. -/
def readBefore : List (Move Nat IdemLabel CacheDb Unit) :=
  .start 1 (attempt 1 1) :: List.replicate 2 (.act 1) ++
    (.start 0 (attempt 0 0) :: List.replicate 9 (.act 0) ++ List.replicate 3 (.act 1))

end Retry

theorem at_most_one_success_replay :
    let c := Retry.afterwards.foldl Config.move (.idle (.fresh 0))
    AtMostOnce c.world.trace ∧ c.world.trace.head?.map Event.label =
      some (.answer (.replay { statusCode := 201, headers := [], body := "created" })) := by
  constructor
  · refine at_most_one_success Retry.opts Retry.plain "f" 0 (Reach.moves .init ?_)
    exact ⟨⟨rfl, _, 1, rfl, rfl, rfl⟩, trivial, trivial, fun _ => rfl, trivial, trivial, trivial,
      trivial, trivial, trivial, ⟨rfl, _, 1, rfl, rfl, rfl⟩, trivial, trivial, trivial, trivial,
      trivial⟩
  · decide +kernel

/-- A request that read before the first one stored its outcome, and takes the lock after it was
removed, runs the handler a second time. -/
theorem late_retry_runs_again :
    ¬ ∀ (opts : Options) (cipher : Cipher) (fingerprint : String) (clock : Int)
        (c : Config Nat IdemLabel CacheDb Unit),
      (idempotencySystem opts cipher fingerprint fun _ _ _ => True).Reach (.fresh clock) c →
        AtMostOnce c.world.trace := by
  intro all
  have reach : (idempotencySystem Retry.opts Retry.plain "f" fun _ _ _ => True).Reach (.fresh 0)
      (Retry.readBefore.foldl Config.move (.idle (.fresh 0))) := by
    refine Reach.moves .init ?_
    exact ⟨⟨rfl, _, 1, rfl, rfl, rfl⟩, trivial, trivial, ⟨rfl, _, 1, rfl, rfl, rfl⟩, trivial, trivial,
      trivial, trivial, trivial, trivial, trivial, trivial, trivial, trivial, trivial, trivial,
      trivial⟩
  have once := all _ _ _ _ _ reach
  have runs : (Retry.readBefore.foldl Config.move (.idle (.fresh 0))).world.trace.head?.map
        Event.label = some .start ∧
      (Retry.readBefore.foldl Config.move (.idle (.fresh 0))).world.trace.tail.any
        (fun e => e.label.success.isSome) = true := by
    decide +kernel
  generalize (Retry.readBefore.foldl Config.move (.idle (.fresh 0))).world.trace = trace at once runs
  obtain ⟨start, success⟩ := runs
  cases trace with
  | nil => exact nomatch start
  | cons d rest =>
      obtain ⟨e, mem, success⟩ := List.any_eq_true.mp success
      obtain ⟨o, success⟩ := Option.isSome_iff_exists.mp success
      obtain ⟨later, earlier, split⟩ := List.append_of_mem mem
      have whole : d :: rest = (d :: later) ++ e :: earlier := congrArg (d :: ·) split
      have follows := once _ e earlier o whole success d List.mem_cons_self
      rw [show d.label = .start from Option.some.inj start] at follows
      exact follows

end AnalyticsBackend.Idempotency
