import AnalyticsBackend.Usage.Counter

/-!
# A hard limit is never passed

Any number of `incrementWithinLimit`, `checkAndConsume` and `decrementClamped` calls, with
every atomic step interleaved and rows expiring in between. Each call is judged by the
events it caused itself: a call that reports success moved its counter once, by its delta,
and one that reports a refusal moved nothing.
-/

namespace AnalyticsBackend.Usage
open Lib System

/-- A call, with the arguments of its caller. -/
inductive CounterCall where
  | increment (req : LimitedIncrement)
  | consume (ent : Entitlement) (req : ConsumeRequest)
  | decrement (change : CounterChange)
  deriving DecidableEq, Repr

/-- What a call reports. -/
inductive CounterReply where
  | ok (value : Int)
  | notOk
  | decremented
  deriving DecidableEq, Repr

def CounterCall.program : CounterCall → UsageProg CounterReply
  | .increment req => do
      match ← incrementWithinLimit req with
      | .ok result => return if result.ok then .ok result.value else .notOk
      | .error _ => return .notOk
  | .consume ent req => do
      match ← checkAndConsume ent req with
      | .ok consumed => return .ok consumed.value
      | .error _ => return .notOk
  | .decrement change => do
      let _ ← decrementClamped change
      return .decremented

/-- The counter a call is about. -/
def CounterCall.key : CounterCall → CounterKey
  | .increment req => req.key
  | .consume _ req => req.key
  | .decrement change => change.key

/-- What a successful call adds. -/
def CounterCall.delta : CounterCall → Int
  | .increment req => req.delta
  | .consume _ req => req.requested
  | .decrement _ => 0

/-- A call enforces the hard limit `limit` if it is about the counter `key`. -/
def CounterCall.Within (key : CounterKey) (limit : Int) : CounterCall → Prop
  | .increment req => req.key = key → req.max = limit
  | .consume ent req => req.key = key → ent.limit = some { max := limit, hard := true }
  | .decrement _ => True

/-- Calls under any names; from outside, rows of other counters change at will and the
row of `key` may expire. -/
def counterSystem (key : CounterKey) (limit : Int) :
    System (Nat × CounterCall) UsageLabel UsageDb CounterReply where
  start := fun i p => i.2.Within key limit ∧ p = i.2.program
  env := fun db db' => db'.counters key = db.counters key ∨ db'.counters key = none
  ok := fun _ _ _ => True

def gain (k : CounterKey) (e : Event (Nat × CounterCall) UsageLabel UsageDb) : Int :=
  e.after.valueOf k - e.before.valueOf k

/-- The moves of a counter by one call's own events. -/
def gains (w : World (Nat × CounterCall) UsageLabel UsageDb) (i : Nat × CounterCall)
    (k : CounterKey) : List Int :=
  ((w.own i).map (gain k)).filter (· ≠ 0)

/-- Nothing moved. -/
def Nothing (moves : CounterKey → List Int) : Prop := ∀ k, moves k = []

/-- One counter moved, once, by `delta`. -/
def Once (key : CounterKey) (delta : Int) (moves : CounterKey → List Int) : Prop :=
  moves key = [delta] ∧ ∀ k, k ≠ key → moves k = []

def Bounded (key : CounterKey) (limit : Int)
    (w : World (Nat × CounterCall) UsageLabel UsageDb) : Prop :=
  0 ≤ w.store.valueOf key ∧ w.store.valueOf key ≤ limit

/-- What the own events of a call that has returned amount to. -/
def Reported (i : Nat × CounterCall) (reply : CounterReply)
    (w : World (Nat × CounterCall) UsageLabel UsageDb) : Prop :=
  match reply with
  | .ok _ => Once i.2.key i.2.delta (gains w i)
  | .notOk => Nothing (gains w i)
  | .decremented => True

section Moves

variable {w : World (Nat × CounterCall) UsageLabel UsageDb} {i : Nat × CounterCall}
  {label : UsageLabel} {after : UsageDb}

theorem gains_push (w : World (Nat × CounterCall) UsageLabel UsageDb) (i : Nat × CounterCall)
    (label : UsageLabel) (after : UsageDb) (k : CounterKey) :
    gains (w.push ⟨i, label, w.store, after⟩) i k =
      if after.valueOf k = w.store.valueOf k then gains w i k
      else (after.valueOf k - w.store.valueOf k) :: gains w i k := by
  unfold gains World.own
  by_cases same : after.valueOf k = w.store.valueOf k
  · simp [gain, same]
  · have moved : after.valueOf k - w.store.valueOf k ≠ 0 := by omega
    simp [gain, same, moved]

/-- An event that leaves every value alone adds no move. -/
theorem gains_push_same (same : ∀ k, after.valueOf k = w.store.valueOf k) :
    gains (w.push ⟨i, label, w.store, after⟩) i = gains w i := by
  funext k
  rw [gains_push, if_pos (same k)]

/-- The first move of a call. -/
theorem once_push {key : CounterKey} {delta : Int} (nothing : Nothing (gains w i))
    (positive : 0 < delta) (moved : after.valueOf key = w.store.valueOf key + delta)
    (others : ∀ k, k ≠ key → after.valueOf k = w.store.valueOf k) :
    Once key delta (gains (w.push ⟨i, label, w.store, after⟩) i) := by
  constructor
  · rw [gains_push, if_neg (by omega), nothing key, moved]
    congr 1
    omega
  · intro k hk
    rw [gains_push, if_pos (others k hk)]
    exact nothing k

end Moves

/-! ## The calls -/

section Calls

variable (key : CounterKey) (limit : Int)

/-- `Safe` in the counter system: the bound is the invariant, events give no guarantee. -/
abbrev CounterSafe {A : Type} (i : Nat × CounterCall)
    (Q : A → World (Nat × CounterCall) UsageLabel UsageDb → Prop) (p : UsageProg A)
    (P : World (Nat × CounterCall) UsageLabel UsageDb → Prop) : Prop :=
  Safe (counterSystem key limit).env (counterSystem key limit).ok (Bounded key limit)
    (fun _ => True) i Q p P

variable {key limit} {i : Nat × CounterCall}

theorem stable_gains (P : (CounterKey → List Int) → Prop) :
    Stable (counterSystem key limit).env (Bounded key limit) (fun _ => True) i
      (fun w => P (gains w i)) :=
  Stable.own i (fun es => P (fun k => (es.map (gain k)).filter (· ≠ 0)))

theorem safe_findCounter (P : (CounterKey → List Int) → Prop) (k : CounterKey) :
    CounterSafe key limit i (fun _ w => P (gains w i)) (findCounter k)
      (fun w => P (gains w i)) := by
  refine Safe.update (fun _ => stable_gains P) ?_
  intro w bounded hP _
  refine ⟨bounded, trivial, ?_⟩
  show P (gains (w.push ⟨i, .read, w.store, w.store⟩) i)
  rwa [gains_push_same (fun _ => rfl)]

/-- What a conditional upsert leaves behind. -/
def AfterUpsert (req : LimitedIncrement) (i : Nat × CounterCall) (value : Option Int)
    (w : World (Nat × CounterCall) UsageLabel UsageDb) : Prop :=
  match value with
  | some _ => Once req.key req.delta (gains w i)
  | none => Nothing (gains w i)

theorem stable_afterUpsert (req : LimitedIncrement) (value : Option Int) :
    Stable (counterSystem key limit).env (Bounded key limit) (fun _ => True) i
      (AfterUpsert req i value) := by
  cases value with
  | none => exact stable_gains Nothing
  | some value => exact stable_gains (Once req.key req.delta)

theorem safe_half {req : LimitedIncrement} (positive : 0 < req.delta)
    (within : req.key = key → req.max = limit) {act : UsageDb → UsageDb}
    {report : UsageDb → Option Int} (refused : ∀ db, report db = none → act db = db)
    (done : ∀ db value, report db = some value →
      (act db).valueOf req.key = db.valueOf req.key + req.delta ∧
        db.valueOf req.key ≤ req.max - req.delta ∧
        ∀ k, k ≠ req.key → (act db).valueOf k = db.valueOf k) (label : UsageLabel) :
    CounterSafe key limit i (AfterUpsert req i) (Prog.update label act report)
      (fun w => Nothing (gains w i)) := by
  refine Safe.update (stable_afterUpsert req) ?_
  intro w bounded nothing _
  cases value : report w.store with
  | none =>
      rw [refused w.store value]
      refine ⟨bounded, trivial, ?_⟩
      show Nothing (gains (w.push ⟨i, label, w.store, w.store⟩) i)
      rwa [gains_push_same (fun _ => rfl)]
  | some value' =>
      obtain ⟨moved, room, others⟩ := done w.store value' value
      refine ⟨?_, trivial, once_push nothing positive moved others⟩
      unfold Bounded at bounded
      show 0 ≤ (act w.store).valueOf key ∧ (act w.store).valueOf key ≤ limit
      by_cases same : req.key = key
      · rw [same] at moved room
        have := within same
        omega
      · rwa [others key (Ne.symm same)]

theorem safe_upsertWithinLimit {req : LimitedIncrement} (positive : 0 < req.delta)
    (fits : req.delta ≤ req.max) (within : req.key = key → req.max = limit) :
    CounterSafe key limit i (AfterUpsert req i) (upsertWithinLimit req)
      (fun w => Nothing (gains w i)) := by
  have matching : CounterSafe key limit i (AfterUpsert req i)
      (Prog.update (.writeCounter req.key) req.updateMatching req.updatedValue)
      (fun w => Nothing (gains w i)) :=
    safe_half positive within (fun _ => updateMatching_none) (fun _ _ => updateMatching_some) _
  have insert : CounterSafe key limit i (AfterUpsert req i)
      (Prog.update (.writeCounter req.key) req.insertMissing req.insertedValue)
      (fun w => Nothing (gains w i)) := by
    refine safe_half positive within (fun _ => insertMissing_none) ?_ _
    intro db value inserted
    obtain ⟨moved, empty, others⟩ := insertMissing_some inserted
    exact ⟨moved, by omega, others⟩
  refine Safe.bind matching ?_
  intro value
  cases value with
  | some value => exact fun w _ added => added
  | none => exact insert

/-- What `incrementWithinLimit` establishes for its result. -/
def AfterIncrement (req : LimitedIncrement) (i : Nat × CounterCall) (result : LimitResult)
    (w : World (Nat × CounterCall) UsageLabel UsageDb) : Prop :=
  if result.ok then Once req.key req.delta (gains w i) else Nothing (gains w i)

theorem safe_refusedAt (req : LimitedIncrement) (current : Option CounterRow) :
    CounterSafe key limit i (AfterIncrement req i) (Prog.done (refusedAt current))
      (fun w => Nothing (gains w i)) := by
  intro w _ nothing
  simpa [AfterIncrement, refusedAt] using nothing

/-- The retry loop, by induction on the attempts left: until an upsert goes through,
nothing has moved. -/
theorem safe_incrementAttempts {req : LimitedIncrement} (positive : 0 < req.delta)
    (fits : req.delta ≤ req.max) (within : req.key = key → req.max = limit) (attempts : Nat) :
    CounterSafe key limit i (AfterIncrement req i) (incrementAttempts req attempts)
      (fun w => Nothing (gains w i)) := by
  induction attempts with
  | zero => exact Safe.bind (safe_findCounter Nothing req.key) (fun _ => safe_refusedAt req _)
  | succ attempts ih =>
      refine Safe.bind (safe_upsertWithinLimit positive fits within) ?_
      intro value
      cases value with
      | some value =>
          intro w _ added
          simpa [AfterIncrement, AfterUpsert] using added
      | none =>
          refine Safe.bind (safe_findCounter Nothing req.key) ?_
          intro current
          cases current with
          | none => exact safe_refusedAt req none
          | some row =>
              show CounterSafe key limit i (AfterIncrement req i)
                (if req.hasRoom row = true then incrementAttempts req attempts
                  else pure (refusedAt (some row))) _
              split
              · exact ih
              · exact safe_refusedAt req (some row)

/-- `AfterIncrement` of a call that may throw: a thrown error moved nothing. -/
def AfterLimited (req : LimitedIncrement) (i : Nat × CounterCall) (result : Except String LimitResult)
    (w : World (Nat × CounterCall) UsageLabel UsageDb) : Prop :=
  match result with
  | .ok result => AfterIncrement req i result w
  | .error _ => Nothing (gains w i)

theorem safe_incrementWithinLimit {req : LimitedIncrement}
    (within : req.key = key → req.max = limit) :
    CounterSafe key limit i (AfterLimited req i) (incrementWithinLimit req)
      (fun w => Nothing (gains w i)) := by
  unfold incrementWithinLimit
  split
  · exact fun _ _ nothing => nothing
  · split
    · exact fun _ _ nothing => nothing
    · split
      · exact fun _ _ nothing => nothing
      · split
        · exact Safe.bind (safe_findCounter Nothing req.key) (fun _ => safe_refusedAt req _)
        · have looped : CounterSafe key limit i (AfterIncrement req i) (incrementAttempts req 5)
              (fun w => Nothing (gains w i)) :=
            safe_incrementAttempts (by omega) (by omega) within 5
          exact Safe.bind looped (fun _ _ _ added => added)

theorem safe_decrementClamped (change : CounterChange) :
    CounterSafe key limit i (fun _ _ => True) (decrementClamped change)
      (fun w => Nothing (gains w i)) := by
  unfold decrementClamped
  split
  · exact fun _ _ _ => trivial
  · split
    · exact fun _ _ _ => trivial
    · have step : CounterSafe key limit i (fun _ _ => True)
          (Prog.update (.writeCounter change.key) change.decrement
            (fun db =>
              ((db.counters change.key).map (fun row => max 0 (row.value - change.delta))).getD 0))
          (fun w => Nothing (gains w i)) := by
        refine Safe.update (fun _ => stable_gains (fun _ => True)) ?_
        intro w bounded _ _
        refine ⟨?_, trivial, trivial⟩
        unfold Bounded at bounded
        show 0 ≤ (change.decrement w.store).valueOf key ∧
          (change.decrement w.store).valueOf key ≤ limit
        by_cases same : key = change.key
        · subst same
          rcases decrement_valueOf w.store change with value | value <;> omega
        · rwa [decrement_valueOf_ne same]
      exact Safe.bind step (fun _ _ _ _ => trivial)

theorem safe_incrementUnbounded {change : CounterChange} (positive : 0 < change.delta)
    (other : change.key ≠ key) :
    CounterSafe key limit i (fun _ w => Once change.key change.delta (gains w i))
      (incrementUnbounded change) (fun w => Nothing (gains w i)) := by
  have others : ∀ db : UsageDb, ∀ k, k ≠ change.key → (change.apply db).valueOf k = db.valueOf k := by
    intro db k hk
    unfold CounterChange.apply
    split <;> exact UsageDb.valueOf_setCounter_ne db _ hk
  have moved : ∀ db : UsageDb,
      (change.apply db).valueOf change.key = db.valueOf change.key + change.delta := by
    intro db
    unfold CounterChange.apply
    split
    case h_1 row stored => simp [UsageDb.valueOf_some stored]
    case h_2 missing => simp [UsageDb.valueOf_none missing]
  refine Safe.update (fun _ => stable_gains (Once change.key change.delta)) ?_
  intro w bounded nothing _
  refine ⟨?_, trivial, once_push nothing positive (moved w.store) (others w.store)⟩
  unfold Bounded at bounded
  show 0 ≤ (change.apply w.store).valueOf key ∧ (change.apply w.store).valueOf key ≤ limit
  rwa [others w.store key (Ne.symm other)]

/-- What `checkAndConsume` establishes for its result. -/
def AfterConsume (req : ConsumeRequest) (i : Nat × CounterCall) (result : Except ApiError Consumed)
    (w : World (Nat × CounterCall) UsageLabel UsageDb) : Prop :=
  match result with
  | .ok _ => Once req.key req.requested (gains w i)
  | .error _ => Nothing (gains w i)

theorem safe_checkAndConsume {ent : Entitlement} {req : ConsumeRequest}
    (within : req.key = key → ent.limit = some { max := limit, hard := true }) :
    CounterSafe key limit i (AfterConsume req i) (checkAndConsume ent req)
      (fun w => Nothing (gains w i)) := by
  unfold checkAndConsume
  split
  · exact fun _ _ nothing => nothing
  · split
    · exact fun _ _ nothing => nothing
    · split
      · exact fun _ _ nothing => nothing
      · have positive : 0 < req.requested := by omega
        have unbounded : (req.key = key → False) →
            CounterSafe key limit i (fun _ w => Once req.key req.requested (gains w i))
              (incrementUnbounded req.unbounded) (fun w => Nothing (gains w i)) :=
          fun other => safe_incrementUnbounded positive other
        cases found : ent.limit with
        | none =>
            have other : req.key = key → False := fun same => by simp [within same] at found
            exact Safe.bind (unbounded other) (fun _ _ _ added => added)
        | some max =>
            show CounterSafe key limit i (AfterConsume req i) (if max.hard = true then _ else _) _
            split
            case isTrue =>
              have enforced : req.key = key → (req.limited max.max).max = limit := by
                intro same
                have := within same
                rw [found, Option.some.injEq] at this
                rw [this]
                rfl
              refine Safe.bind (safe_incrementWithinLimit enforced) ?_
              intro result
              cases result with
              | error message => exact fun _ _ nothing => nothing
              | ok result =>
                  show CounterSafe key limit i (AfterConsume req i)
                    (if result.ok = true then _ else _) _
                  split
                  case isTrue ok =>
                    intro w _ added
                    simp only [AfterLimited, AfterIncrement, ok, if_true] at added
                    exact added
                  case isFalse refused =>
                    intro w _ nothing
                    simp only [AfterLimited, AfterIncrement, refused] at nothing
                    exact nothing
            case isFalse soft =>
              have other : req.key = key → False := by
                intro same
                rw [within same, Option.some.injEq] at found
                exact soft (by rw [← found])
              exact Safe.bind (unbounded other) (fun _ _ _ added => added)

theorem safe_call {call : CounterCall} (within : call.Within key limit) (n : Nat) :
    CounterSafe key limit (n, call) (Reported (n, call)) call.program
      (fun w => Nothing (gains w (n, call))) := by
  cases call with
  | increment req =>
      refine Safe.bind (safe_incrementWithinLimit within) ?_
      intro result
      cases result with
      | error message => exact fun _ _ nothing => nothing
      | ok result =>
          intro w _ moves
          simp only [AfterLimited, AfterIncrement] at moves
          cases ok : result.ok with
          | true =>
              rw [if_pos ok] at moves
              exact moves
          | false =>
              rw [ok] at moves
              exact moves
  | consume ent req =>
      refine Safe.bind (safe_checkAndConsume within) ?_
      intro result
      cases result with
      | error e => exact fun w _ nothing => nothing
      | ok consumed => exact fun w _ added => added
  | decrement change =>
      exact Safe.bind (safe_decrementClamped change) (fun _ _ _ _ => trivial)

end Calls

theorem counter_discipline {key : CounterKey} {limit : Int} {db : UsageDb}
    (initial : 0 ≤ db.valueOf key ∧ db.valueOf key ≤ limit) :
    Discipline (counterSystem key limit) (Bounded key limit) (fun _ => True) Reported db := by
  refine ⟨initial, ?_, ?_⟩
  · intro w db' bounded may
    unfold Bounded at bounded ⊢
    rcases may with same | gone
    · rwa [UsageDb.valueOf, same]
    · rw [UsageDb.valueOf_none gone]
      omega
  · rintro ⟨n, call⟩ p ⟨within, rfl⟩
    refine ⟨_, stable_gains Nothing, ?_, safe_call within n⟩
    intro w _ unused k
    have none_own : w.own (n, call) = [] := by
      simpa [World.own, List.filter_eq_nil_iff] using unused
    simp [gains, none_own]

/-- In every reachable configuration the counter lies between 0 and its limit, a call that
reported success has moved its counter once, by its delta, and one that reported a refusal
has moved nothing. -/
theorem hard_limit_never_passed (key : CounterKey) (limit : Int) (db : UsageDb)
    (initial : 0 ≤ db.valueOf key ∧ db.valueOf key ≤ limit)
    (c : Config (Nat × CounterCall) UsageLabel UsageDb CounterReply)
    (reach : Reach (counterSystem key limit) db c) :
    (0 ≤ c.world.store.valueOf key ∧ c.world.store.valueOf key ≤ limit) ∧
      ∀ i reply, c.pool i = some (.done reply) →
        (∀ value, reply = .ok value → Once i.2.key i.2.delta (gains c.world i)) ∧
          (reply = .notOk → Nothing (gains c.world i)) := by
  have rule := counter_discipline initial
  refine ⟨(reach.sound rule).inv, ?_⟩
  intro i reply returned
  have reported := reach.result rule returned
  constructor
  · rintro value rfl
    exact reported
  · rintro rfl
    exact reported

/-- Two first increments of 3 against a limit of 5 race to create the row. -/
def creationRace : List (Move (Nat × CounterCall) UsageLabel UsageDb CounterReply) :=
  let key : CounterKey := { tenantId := "t1", metric := .dashboards, period := currentPeriod }
  let call : CounterCall := .increment
    { key, delta := 3, max := 5, actor := none, kind := .current, expiresAt := none,
      silent := false, now := 0 }
  [.start (0, call) call.program, .start (1, call) call.program, .act (0, call), .act (1, call),
    .act (1, call), .act (0, call), .act (0, call)]

theorem hard_limit_never_passed_race :
    let key : CounterKey := { tenantId := "t1", metric := .dashboards, period := currentPeriod }
    let c := creationRace.foldl Config.move (.idle emptyUsage)
    0 ≤ c.world.store.valueOf key ∧ c.world.store.valueOf key ≤ 5 := by
  refine (hard_limit_never_passed _ 5 emptyUsage (by decide) _ (Reach.moves .init ?_)).1
  refine ⟨⟨rfl, fun _ => rfl, rfl⟩, ⟨rfl, fun _ => rfl, rfl⟩, trivial, trivial, trivial, trivial,
    trivial, trivial⟩

end AnalyticsBackend.Usage
