import AnalyticsBackend.Usage.StoredRows

/-!
# Stored-row accounting is conserved

The books of a workspace: what its stored-rows counter holds is what its open reservations
hold, plus the rows stored, plus what the operation in progress still owes (drawn or
consumed, and not yet written or given back). Every step of a sink moves two of these by
the same amount, so a finished sink call owes nothing but the credit of its message.
-/

namespace AnalyticsBackend.Usage
open Lib Prog

/-- What a reservation holds of the stored rows of a workspace. -/
def Reservation.held (tenantId : String) (r : Reservation) : Int :=
  if r.tenantId = tenantId ∧ r.metric = .storedRows ∧ r.settledAt = none then r.remaining else 0

/-- The open reservations of stored rows. -/
def UsageDb.outstanding (db : UsageDb) (tenantId : String) : Int :=
  (db.reservations.map (Reservation.held tenantId)).sum

/-- The credit that a message carries in itself. -/
def Credit.inHand : Credit → Int
  | .ledger _ _ => 0
  | .inMemory credit => credit

/-- The books with `others` rows of other connectors and `owed` in progress. -/
structure Books (tenantId : String) (others : Nat) (rows : Finset String) (owed : Int)
    (db : UsageDb) : Prop where
  stored : db.rows = rows
  balance : db.valueOf (storedRowsKey tenantId) =
    db.outstanding tenantId + rows.card + others + owed

/-- The counter covers the rows that are stored. -/
def Solvent (tenantId : String) (others : Nat) (db : UsageDb) : Prop :=
  (db.rows.card : Int) + others ≤ db.valueOf (storedRowsKey tenantId)

section Books

variable {tenantId : String} {others : Nat} {rows : Finset String} {owed : Int} {db : UsageDb}

theorem outstanding_nonneg (db : UsageDb) (tenantId : String) : 0 ≤ db.outstanding tenantId := by
  apply Collection.sum_map_nonneg
  intro r _
  unfold Reservation.held
  split <;> omega

theorem Books.solvent (books : Books tenantId others rows owed db) (h : 0 ≤ owed) :
    Solvent tenantId others db := by
  have := books.balance
  have := outstanding_nonneg db tenantId
  unfold Solvent
  rw [books.stored]
  omega

/-- Moving the counter moves what is owed. -/
theorem Books.move {db' : UsageDb} {delta : Int} (books : Books tenantId others rows owed db)
    (stored : db'.rows = db.rows) (ledger : db'.reservations = db.reservations)
    (moved : db'.valueOf (storedRowsKey tenantId) = db.valueOf (storedRowsKey tenantId) + delta) :
    Books tenantId others rows (owed + delta) db' := by
  refine ⟨stored.trans books.stored, ?_⟩
  have := books.balance
  rw [moved, UsageDb.outstanding, ledger, ← UsageDb.outstanding]
  omega

/-- Writing the counter row moves what is owed. -/
theorem Books.setCounter (books : Books tenantId others rows owed db) (row : CounterRow)
    (delta : Int) (moved : row.value = db.valueOf (storedRowsKey tenantId) + delta) :
    Books tenantId others rows (owed + delta) (db.setCounter (storedRowsKey tenantId) row) := by
  refine books.move rfl rfl ?_
  rw [UsageDb.valueOf_setCounter, moved]

/-- An update of an open reservation moves what the reservations hold. -/
theorem outstanding_update {key : String} {patch : Reservation → Reservation} {r : Reservation}
    (found : db.openReservation tenantId .storedRows key = some r) :
    (db.updateReservation tenantId .storedRows key patch).outstanding tenantId =
      db.outstanding tenantId + (Reservation.held tenantId (patch r) - r.remaining) := by
  have isOpen := List.find?_some found
  have held : Reservation.held tenantId r = r.remaining := by
    simp only [Reservation.isOpen, Bool.and_eq_true, decide_eq_true_eq] at isOpen
    simp [Reservation.held, isOpen]
  unfold UsageDb.outstanding UsageDb.updateReservation
  rw [Collection.sum_updateFirst (Reservation.held tenantId) found, held]

theorem updateReservation_none {key : String} {patch : Reservation → Reservation}
    (missing : db.openReservation tenantId .storedRows key = none) :
    db.updateReservation tenantId .storedRows key patch = db := by
  unfold UsageDb.updateReservation
  rw [Collection.updateFirst_of_none missing]

/-- Moving an open reservation moves what is owed, the other way. -/
theorem Books.moveReservation {key : String} {r : Reservation}
    (books : Books tenantId others rows owed db) (patch : Reservation → Reservation) (delta : Int)
    (found : db.openReservation tenantId .storedRows key = some r)
    (moved : Reservation.held tenantId (patch r) = r.remaining + delta) :
    Books tenantId others rows (owed - delta)
      (db.updateReservation tenantId .storedRows key patch) := by
  refine ⟨books.stored, ?_⟩
  have balance := books.balance
  have value : (db.updateReservation tenantId .storedRows key patch).valueOf
      (storedRowsKey tenantId) = db.valueOf (storedRowsKey tenantId) := rfl
  rw [outstanding_update found, moved, value]
  omega

/-- A reservation that is open under a key holds what remains of it, however patched. -/
theorem held_of_open {key : String} {r : Reservation} {remaining : Nat} {updatedAt : Int}
    (found : db.openReservation tenantId .storedRows key = some r) :
    Reservation.held tenantId { r with remaining, updatedAt } = remaining := by
  have isOpen := List.find?_some found
  simp only [Reservation.isOpen, Bool.and_eq_true, decide_eq_true_eq] at isOpen
  simp [Reservation.held, isOpen]

end Books

/-! ## The steps -/

section Steps

variable {tenantId : String} {others : Nat} {rows : Finset String} {owed : Int}

/-- What `draw` takes from an open reservation. -/
def drawnFrom (db : UsageDb) (tenantId key : String) (max : Int) : Int :=
  match db.openReservation tenantId .storedRows key with
  | some r => if 0 < r.remaining then min r.remaining max else 0
  | none => 0

theorem drawnFrom_bounds (db : UsageDb) (tenantId key : String) {max : Int} (positive : 0 < max) :
    0 ≤ drawnFrom db tenantId key max ∧ drawnFrom db tenantId key max ≤ max := by
  unfold drawnFrom
  split
  · split <;> omega
  · omega

theorem triple_draw {key : String} {max now : Int} (nonneg : 0 ≤ owed) (positive : 0 < max) :
    Triple (Solvent tenantId others) (Books tenantId others rows owed)
      (drawReservation tenantId .storedRows key max now)
      (fun taken db => (0 ≤ taken ∧ taken ≤ max) ∧ Books tenantId others rows (owed + taken) db) := by
  have drawn : ∀ db, Books tenantId others rows owed db →
      Books tenantId others rows (owed + drawnFrom db tenantId key max)
        (match db.openReservation tenantId .storedRows key with
          | some r =>
              if 0 < r.remaining then
                db.updateReservation tenantId .storedRows key (fun r =>
                  { r with remaining := (r.remaining - max).toNat, updatedAt := now })
              else db
          | none => db) := by
    intro db books
    unfold drawnFrom
    cases found : db.openReservation tenantId .storedRows key with
    | none => simpa using books
    | some r =>
        by_cases left : 0 < r.remaining
        · simp only [left, if_true]
          have moved := books.moveReservation
            (fun r => { r with remaining := (r.remaining - max).toNat, updatedAt := now })
            (-min (r.remaining : Int) max) found (by rw [held_of_open found]; omega)
          rwa [Int.sub_neg] at moved
        · simpa [left] using books
  unfold drawReservation
  split
  · refine Triple.done (fun _ books => books.solvent nonneg) ?_
    intro db books
    exact ⟨by omega, by rwa [Int.add_zero]⟩
  · refine Triple.update (fun _ books => books.solvent nonneg) ?_ ?_
    · intro db books
      have := drawnFrom_bounds db tenantId key positive
      exact (drawn db books).solvent (by omega)
    · exact fun db books => ⟨drawnFrom_bounds db tenantId key positive, drawn db books⟩

theorem triple_giveBackReservation {key : String} {amount now : Int} (named : key ≠ "")
    (positive : 0 < amount) (covered : amount ≤ owed) :
    Triple (Solvent tenantId others) (Books tenantId others rows owed)
      (giveBackReservation tenantId .storedRows key amount now)
      (fun kept db => Books tenantId others rows (if kept then owed - amount else owed) db) := by
  have returned : ∀ db, Books tenantId others rows owed db →
      Books tenantId others rows
        (if (db.openReservation tenantId .storedRows key).isSome then owed - amount else owed)
        (db.updateReservation tenantId .storedRows key (fun r =>
          { r with remaining := r.remaining + amount.toNat, updatedAt := now })) := by
    intro db books
    cases found : db.openReservation tenantId .storedRows key with
    | none =>
        rw [updateReservation_none found]
        simpa using books
    | some r =>
        simp only [Option.isSome_some, if_true]
        exact books.moveReservation
          (fun r => { r with remaining := r.remaining + amount.toNat, updatedAt := now }) amount found
          (by rw [held_of_open found]; omega)
  unfold giveBackReservation
  rw [if_neg (by simp only [named, false_or]; omega)]
  refine Triple.update (fun _ books => books.solvent (by omega)) ?_ returned
  intro db books
  have nonneg : 0 ≤ if (db.openReservation tenantId .storedRows key).isSome then owed - amount
      else owed := by
    split <;> omega
  exact (returned db books).solvent nonneg

theorem triple_settle {key : String} {now lingerMs : Int} (nonneg : 0 ≤ owed) :
    Triple (Solvent tenantId others) (Books tenantId others rows owed)
      (settleReservation tenantId .storedRows key now lingerMs)
      (fun left db => 0 ≤ left ∧ Books tenantId others rows (owed + left) db) := by
  have settled : ∀ db, Books tenantId others rows owed db →
      Books tenantId others rows
        (owed + ((db.openReservation tenantId .storedRows key).map
          (fun r => (r.remaining : Int))).getD 0)
        (db.updateReservation tenantId .storedRows key (fun r =>
          { r with
            remaining := 0, settledAt := some now, updatedAt := now,
            expiresAt := now + max 0 lingerMs })) := by
    intro db books
    cases found : db.openReservation tenantId .storedRows key with
    | none =>
        rw [updateReservation_none found]
        simpa using books
    | some r =>
        have moved := books.moveReservation
          (fun r =>
            { r with
              remaining := 0, settledAt := some now, updatedAt := now,
              expiresAt := now + max 0 lingerMs })
          (-(r.remaining : Int)) found (by simp [Reservation.held])
        simpa [Int.sub_neg] using moved
  have left_nonneg : ∀ db : UsageDb, 0 ≤ ((db.openReservation tenantId .storedRows key).map
      (fun r => (r.remaining : Int))).getD 0 := by
    intro db
    cases db.openReservation tenantId .storedRows key <;> simp
  unfold settleReservation
  split
  · refine Triple.done (fun _ books => books.solvent nonneg) ?_
    intro db books
    exact ⟨le_refl _, by rwa [Int.add_zero]⟩
  · refine Triple.update (fun _ books => books.solvent nonneg) ?_ ?_
    · intro db books
      have := left_nonneg db
      exact (settled db books).solvent (by omega)
    · exact fun db books => ⟨left_nonneg db, settled db books⟩

/-- A release within what is owed: the counter has that much, so nothing is clamped. -/
theorem triple_releaseRows {requested now : Int} {actor : Option String} (named : tenantId ≠ "")
    (positive : 0 < requested) (covered : requested ≤ owed) :
    Triple (Solvent tenantId others) (Books tenantId others rows owed)
      (releaseRows tenantId requested actor now)
      (fun _ => Books tenantId others rows (owed - requested)) := by
  let change : CounterChange :=
    { key := storedRowsKey tenantId, delta := requested, actor, kind := .current,
      expiresAt := none, silent := false, now }
  have nonneg : 0 ≤ owed := by omega
  have remains : 0 ≤ owed - requested := by omega
  have released : ∀ db, Books tenantId others rows owed db →
      Books tenantId others rows (owed - requested) (change.decrement db) := by
    intro db books
    have reserve := outstanding_nonneg db tenantId
    have balance := books.balance
    cases found : db.counters (storedRowsKey tenantId) with
    | none =>
        rw [UsageDb.valueOf_none found] at balance
        omega
    | some row =>
        rw [UsageDb.valueOf_some found] at balance
        have written : change.decrement db = db.setCounter (storedRowsKey tenantId)
            { row with
              value := max 0 (row.value - requested)
              lastIncrementedAt := some now
              updatedBy := actor } := by
          simp [CounterChange.decrement, change, found]
        rw [written, Int.sub_eq_add_neg]
        apply books.setCounter
        rw [UsageDb.valueOf_some found]
        show max 0 (row.value - requested) = row.value + -requested
        omega
  have decrement : Triple (Solvent tenantId others) (Books tenantId others rows owed)
      (decrementClamped change) (fun _ => Books tenantId others rows (owed - requested)) := by
    have blank : ¬ change.key.tenantId = "" := named
    have empty : ¬ change.delta ≤ 0 := not_le.mpr positive
    unfold decrementClamped
    rw [if_neg blank, if_neg empty]
    refine Triple.bind (R := fun _ => Books tenantId others rows (owed - requested)) ?_ ?_
    · exact Triple.update (fun _ books => books.solvent nonneg)
        (fun db books => (released db books).solvent remains) released
    · exact fun _ => Triple.done (fun _ books => books.solvent remains) (fun _ books => books)
  have ignored : ¬ (tenantId = "" ∨ UsageMetric.storedRows.metered = true ∨ requested ≤ 0) := by
    rintro (h | h | h)
    · exact named h
    · cases h
    · omega
  unfold releaseRows release
  rw [if_neg ignored]
  refine Triple.bind decrement ?_
  intro result
  cases result <;>
    exact Triple.done (fun _ books => books.solvent remains) (fun _ books => books)

/-- One half of the conditional upsert. -/
theorem triple_half {req : LimitedIncrement} {label : UsageLabel} (nonneg : 0 ≤ owed)
    (positive : 0 < req.delta) (isRows : req.key = storedRowsKey tenantId)
    {act : UsageDb → UsageDb} {report : UsageDb → Option Int}
    (refused : ∀ db, report db = none → act db = db)
    (done : ∀ db value, report db = some value →
      (act db).valueOf req.key = db.valueOf req.key + req.delta ∧
        (act db).rows = db.rows ∧ (act db).reservations = db.reservations) :
    Triple (Solvent tenantId others) (Books tenantId others rows owed)
      (Prog.update label act report)
      (fun value => Books tenantId others rows (if value.isSome then owed + req.delta else owed)) := by
  have moved : ∀ db, Books tenantId others rows owed db →
      Books tenantId others rows (if (report db).isSome then owed + req.delta else owed) (act db) := by
    intro db books
    cases value : report db with
    | none =>
        rw [refused db value]
        exact books
    | some v =>
        obtain ⟨counter, stored, ledger⟩ := done db v value
        rw [isRows] at counter
        exact books.move stored ledger counter
  refine Triple.update (fun _ books => books.solvent nonneg) ?_ moved
  intro db books
  have covered : 0 ≤ if (report db).isSome then owed + req.delta else owed := by
    split <;> omega
  exact (moved db books).solvent covered

theorem updateMatching_frame (req : LimitedIncrement) (db : UsageDb) :
    (req.updateMatching db).rows = db.rows ∧
      (req.updateMatching db).reservations = db.reservations := by
  unfold LimitedIncrement.updateMatching
  split
  · split <;> exact ⟨rfl, rfl⟩
  · exact ⟨rfl, rfl⟩

theorem insertMissing_frame (req : LimitedIncrement) (db : UsageDb) :
    (req.insertMissing db).rows = db.rows ∧
      (req.insertMissing db).reservations = db.reservations := by
  unfold LimitedIncrement.insertMissing
  split <;> exact ⟨rfl, rfl⟩

theorem triple_upsertWithinLimit {req : LimitedIncrement} (nonneg : 0 ≤ owed)
    (positive : 0 < req.delta) (isRows : req.key = storedRowsKey tenantId) :
    Triple (Solvent tenantId others) (Books tenantId others rows owed) (upsertWithinLimit req)
      (fun value => Books tenantId others rows (if value.isSome then owed + req.delta else owed)) := by
  have matching : ∀ db value, req.updatedValue db = some value →
      (req.updateMatching db).valueOf req.key = db.valueOf req.key + req.delta ∧
        (req.updateMatching db).rows = db.rows ∧
        (req.updateMatching db).reservations = db.reservations :=
    fun db _ h => ⟨(updateMatching_some h).1, updateMatching_frame req db⟩
  have insert : ∀ db value, req.insertedValue db = some value →
      (req.insertMissing db).valueOf req.key = db.valueOf req.key + req.delta ∧
        (req.insertMissing db).rows = db.rows ∧
        (req.insertMissing db).reservations = db.reservations :=
    fun db _ h => ⟨(insertMissing_some h).1, insertMissing_frame req db⟩
  refine Triple.bind (triple_half nonneg positive isRows (fun _ => updateMatching_none) matching) ?_
  intro value
  cases value with
  | some value =>
      refine Triple.done ?_ (fun _ books => books)
      intro db books
      simp only [Option.isSome_some, if_true] at books
      exact books.solvent (by omega)
  | none => exact triple_half nonneg positive isRows (fun _ => insertMissing_none) insert

/-- A stored read keeps the books. -/
theorem triple_read {A : Type} {label : UsageLabel} {f : UsageDb → A} (nonneg : 0 ≤ owed) :
    Triple (Solvent tenantId others) (Books tenantId others rows owed) (Prog.read label f)
      (fun _ => Books tenantId others rows owed) :=
  Triple.read (fun _ books => books.solvent nonneg) (fun _ books => books)

/-- A pure result keeps the books. -/
theorem triple_done {A : Type} {a : A} {owed' : Int} {Q : A → UsageDb → Prop} (nonneg : 0 ≤ owed')
    (post : ∀ db, Books tenantId others rows owed' db → Q a db) :
    Triple (Solvent tenantId others) (Books tenantId others rows owed') (Prog.done a : UsageProg A)
      Q :=
  Triple.done (fun _ books => books.solvent nonneg) post

/-- The retry loop, by induction on the attempts left. -/
theorem triple_incrementAttempts {req : LimitedIncrement} (nonneg : 0 ≤ owed)
    (positive : 0 < req.delta) (isRows : req.key = storedRowsKey tenantId) (attempts : Nat) :
    Triple (Solvent tenantId others) (Books tenantId others rows owed)
      (incrementAttempts req attempts)
      (fun result => Books tenantId others rows (if result.ok then owed + req.delta else owed)) := by
  induction attempts with
  | zero =>
      exact Triple.bind (triple_read nonneg) (fun _ => triple_done nonneg (fun _ books => books))
  | succ attempts ih =>
      refine Triple.bind (triple_upsertWithinLimit nonneg positive isRows) ?_
      intro value
      cases value with
      | some value => exact triple_done (by simp; omega) (fun _ books => books)
      | none =>
          refine Triple.bind (triple_read nonneg) ?_
          intro current
          cases current with
          | none => exact triple_done nonneg (fun _ books => books)
          | some row =>
              show Triple (Solvent tenantId others) (Books tenantId others rows owed)
                (if req.hasRoom row = true then incrementAttempts req attempts
                  else pure (refusedAt (some row))) _
              split
              · exact ih
              · exact triple_done nonneg (fun _ books => books)

theorem triple_incrementWithinLimit {req : LimitedIncrement} (nonneg : 0 ≤ owed)
    (isRows : req.key = storedRowsKey tenantId) :
    Triple (Solvent tenantId others) (Books tenantId others rows owed) (incrementWithinLimit req)
      (fun result db => match result with
        | .ok result => Books tenantId others rows (if result.ok then owed + req.delta else owed) db
        | .error _ => Books tenantId others rows owed db) := by
  unfold incrementWithinLimit
  split
  · exact triple_done nonneg (fun _ books => books)
  · split
    · exact triple_done nonneg (fun _ books => books)
    · split
      · exact triple_done nonneg (fun _ books => books)
      · split
        · exact Triple.bind (triple_read nonneg)
            (fun _ => triple_done nonneg (fun _ books => books))
        · refine Triple.bind (triple_incrementAttempts nonneg (by omega) isRows 5) ?_
          intro result
          refine triple_done ?_ (fun _ books => books)
          split <;> omega

theorem triple_incrementUnbounded {change : CounterChange} (nonneg : 0 ≤ owed)
    (positive : 0 < change.delta) (isRows : change.key = storedRowsKey tenantId) :
    Triple (Solvent tenantId others) (Books tenantId others rows owed) (incrementUnbounded change)
      (fun _ => Books tenantId others rows (owed + change.delta)) := by
  have added : ∀ db, Books tenantId others rows owed db →
      Books tenantId others rows (owed + change.delta) (change.apply db) := by
    intro db books
    unfold CounterChange.apply
    rw [isRows]
    split
    case h_1 row stored =>
      apply books.setCounter
      rw [UsageDb.valueOf_some stored]
    case h_2 missing =>
      apply books.setCounter
      rw [UsageDb.valueOf_none missing, Int.zero_add]
  exact Triple.update (fun _ books => books.solvent nonneg)
    (fun db books => (added db books).solvent (by omega)) added

/-- `checkAndConsume` of stored rows: what it consumes is owed. -/
theorem triple_checkAndConsume {ent : Entitlement} {req : ConsumeRequest} (nonneg : 0 ≤ owed)
    (isRows : req.key = storedRowsKey tenantId) :
    Triple (Solvent tenantId others) (Books tenantId others rows owed) (checkAndConsume ent req)
      (fun result db => match result with
        | .ok _ => 0 < req.requested ∧ Books tenantId others rows (owed + req.requested) db
        | .error _ => Books tenantId others rows owed db) := by
  unfold checkAndConsume
  split
  · exact triple_done nonneg (fun _ books => books)
  · split
    · exact triple_done nonneg (fun _ books => books)
    · split
      · exact triple_done nonneg (fun _ books => books)
      · have positive : 0 < req.requested := by omega
        have unbounded : Triple (Solvent tenantId others) (Books tenantId others rows owed)
            (incrementUnbounded req.unbounded)
            (fun _ => Books tenantId others rows (owed + req.requested)) :=
          triple_incrementUnbounded nonneg positive isRows
        cases ent.limit with
        | none =>
            exact Triple.bind unbounded
              (fun _ => triple_done (by omega) (fun _ books => ⟨positive, books⟩))
        | some limit =>
            show Triple (Solvent tenantId others) (Books tenantId others rows owed)
              (if limit.hard = true then _ else _) _
            split
            case isTrue =>
              refine Triple.bind (triple_incrementWithinLimit nonneg isRows) ?_
              intro result
              cases result with
              | error message => exact triple_done nonneg (fun _ books => books)
              | ok result =>
                  obtain ⟨ok, value⟩ := result
                  cases ok with
                  | true =>
                      show Triple (Solvent tenantId others)
                        (Books tenantId others rows (owed + req.requested)) (Prog.done _) _
                      exact triple_done (by omega) (fun _ books => ⟨positive, books⟩)
                  | false =>
                      show Triple (Solvent tenantId others) (Books tenantId others rows owed)
                        (Prog.done _) _
                      exact triple_done nonneg (fun _ books => books)
            case isFalse =>
              exact Triple.bind unbounded
                (fun _ => triple_done (by omega) (fun _ books => ⟨positive, books⟩))

/-- The rows of a batch that are not stored yet. -/
def newIds (batch : List String) (rows : Finset String) : Finset String := batch.toFinset \ rows

/-- The number of rows that an `upsert` reports, in either outcome. -/
def reportedCount : Except Int UpsertResult → Int
  | .ok result => result.upserted
  | .error count => count

/-- An `upsert` whose new rows are owed: what it inserted is no longer owed. -/
theorem triple_upsert {outcome : UpsertOutcome} {batch : List String}
    (covered : ((newIds batch rows).card : Int) ≤ owed) :
    Triple (Solvent tenantId others) (Books tenantId others rows owed) (upsert outcome batch)
      (fun result db =>
        (0 ≤ reportedCount result ∧ reportedCount result ≤ (newIds batch rows).card) ∧
          Books tenantId others (rows ∪ outcome.newRows batch rows) (owed - reportedCount result)
            db) := by
  have within : (outcome.newRows batch rows).card ≤ (newIds batch rows).card :=
    Finset.card_filter_le _ _
  have added : (rows ∪ outcome.newRows batch rows).card =
      rows.card + (outcome.newRows batch rows).card := by
    apply Finset.card_union_of_disjoint
    exact Finset.disjoint_left.mpr (fun id stored new => by
      have new := (Finset.mem_filter.mp new).1
      exact (Finset.mem_sdiff.mp new).2 stored)
  have written : ∀ db, Books tenantId others rows owed db →
      Books tenantId others (rows ∪ outcome.newRows batch rows)
        (owed - (outcome.newRows batch rows).card)
        { db with rows := db.rows ∪ outcome.newRows batch db.rows } := by
    rintro db ⟨stored, balance⟩
    refine ⟨by rw [stored], ?_⟩
    show db.valueOf (storedRowsKey tenantId) = db.outstanding tenantId + _ + _ + _
    rw [balance, added]
    push_cast
    omega
  refine Triple.update (fun _ books => books.solvent (by omega)) ?_ ?_
  · exact fun db books => (written db books).solvent (by omega)
  · intro db books
    have count : reportedCount
        (if outcome.fails then
          .error ((outcome.newRows batch db.rows).card : Int)
        else
          .ok { upserted := (outcome.newRows batch db.rows).card,
                matched := batch.length - (outcome.newRows batch db.rows).card }) =
        (outcome.newRows batch rows).card := by
      rw [books.stored]
      split <;> rfl
    refine ⟨⟨?_, ?_⟩, ?_⟩
    · exact count ▸ Int.natCast_nonneg _
    · exact count ▸ Int.ofNat_le.mpr within
    · exact count ▸ written db books

end Steps

/-! ## The sink -/

section Sinks

variable {others : Nat} {rows : Finset String} {owed : Int}

/-- The books while a sink is at work: what is owed, besides the credit in hand. -/
abbrev SinkBooks (sink : Sink) (others : Nat) (rows : Finset String) (owed : Int) (db : UsageDb) :
    Prop :=
  Books sink.tenantId others rows (sink.credit.inHand + owed) db

theorem inHand_nonneg (credit : Credit) : 0 ≤ credit.inHand := by
  cases credit <;> simp [Credit.inHand]

/-- The workspace of a sink, and the key of the ledger that it draws on. -/
def Sink.account (sink : Sink) : String × Option String :=
  (sink.tenantId,
    match sink.credit with
    | .ledger key _ => some key
    | .inMemory _ => none)

/-- The later sink is the same but for what it has in hand. -/
def SameSink (sink sink' : Sink) : Prop := sink'.account = sink.account

theorem SameSink.tenant {sink sink' : Sink} (same : SameSink sink sink') : sink'.tenantId = sink.tenantId :=
  congrArg Prod.fst same

theorem triple_sink_draw (sink : Sink) {max now : Int} (positive : 0 < max) :
    Triple (Solvent sink.tenantId others) (SinkBooks sink others rows 0) (sink.draw max now)
      (fun result db => (SameSink sink result.2 ∧ 0 ≤ result.1 ∧ result.1 ≤ max) ∧
        SinkBooks result.2 others rows result.1 db) := by
  obtain ⟨tenantId, connectorId, credit, actor, named⟩ := sink
  cases credit with
  | ledger key keyed =>
      have drawn : Triple (Solvent tenantId others) (Books tenantId others rows 0)
          (drawReservation tenantId .storedRows key max now)
          (fun taken db => (0 ≤ taken ∧ taken ≤ max) ∧
            Books tenantId others rows (0 + taken) db) :=
        triple_draw (le_refl _) positive
      refine Triple.bind drawn ?_
      intro taken
      apply Triple.of_forall
      intro bounds
      exact triple_done (by omega) (fun _ books => ⟨⟨rfl, bounds⟩, books⟩)
  | inMemory credit =>
      refine Triple.done (fun _ books => books.solvent (by simp [Credit.inHand])) ?_
      intro db books
      refine ⟨⟨rfl, by omega, by omega⟩, ?_⟩
      show Books tenantId others rows
        (((credit - min max (credit : Int)).toNat : Int) + min max (credit : Int)) db
      have same : ((credit - min max (credit : Int)).toNat : Int) + min max (credit : Int) =
          (credit : Int) + 0 := by omega
      rw [same]
      exact books

theorem triple_sink_giveBack (sink : Sink) {amount now : Int} (nonneg : 0 ≤ amount)
    (covered : amount ≤ owed) :
    Triple (Solvent sink.tenantId others) (SinkBooks sink others rows owed)
      (sink.giveBack amount now)
      (fun sink' db => SameSink sink sink' ∧ SinkBooks sink' others rows (owed - amount) db) := by
  obtain ⟨tenantId, connectorId, credit, actor, named⟩ := sink
  cases credit with
  | ledger key keyed =>
      show Triple (Solvent tenantId others) (Books tenantId others rows (0 + owed)) (ite _ _ _) _
      split
      case isTrue none_back =>
        have zero : amount = 0 := by omega
        subst zero
        exact triple_done (by omega) (fun _ books => ⟨rfl, by rwa [Int.sub_zero]⟩)
      case isFalse some_back =>
        refine Triple.bind (triple_giveBackReservation keyed (by omega) (by omega)) ?_
        intro kept
        cases kept with
        | true =>
            refine triple_done (by simp; omega) ?_
            intro db books
            exact ⟨rfl, by simpa [SinkBooks, Credit.inHand] using books⟩
        | false =>
            have released : Triple (Solvent tenantId others) (Books tenantId others rows (0 + owed))
                (releaseRows tenantId amount actor now)
                (fun _ => Books tenantId others rows (0 + owed - amount)) :=
              triple_releaseRows named (by omega) (by omega)
            refine Triple.bind released ?_
            intro _
            refine triple_done (by omega) ?_
            intro db books
            exact ⟨rfl, by simpa [SinkBooks, Credit.inHand] using books⟩
  | inMemory credit =>
      show Triple (Solvent tenantId others) (Books tenantId others rows (credit + owed)) (ite _ _ _) _
      split
      case isTrue positive =>
        refine triple_done (by omega) ?_
        intro db books
        refine ⟨rfl, ?_⟩
        show Books tenantId others rows (((credit + amount.toNat : Nat) : Int) + (owed - amount)) db
        have same : ((credit + amount.toNat : Nat) : Int) + (owed - amount) = credit + owed := by
          omega
        rw [same]
        exact books
      case isFalse zero =>
        have zero : amount = 0 := by omega
        subst zero
        exact triple_done (by omega) (fun _ books => ⟨rfl, by rwa [Int.sub_zero]⟩)

theorem triple_cancelReservation {tenantId : String} {cfg : ReservationConfig} {key : String}
    {actor : Option String} {now : Int} (nonneg : 0 ≤ owed) :
    Triple (Solvent tenantId others) (Books tenantId others rows owed)
      (cancelReservation cfg tenantId .storedRows key actor now)
      (fun _ => Books tenantId others rows owed) := by
  unfold cancelReservation
  split
  · exact triple_done nonneg (fun _ books => books)
  · have named : tenantId ≠ "" := fun h => by simp_all
    refine Triple.bind (triple_settle nonneg) ?_
    intro left
    apply Triple.of_forall
    intro left_nonneg
    split
    · have released : Triple (Solvent tenantId others) (Books tenantId others rows (owed + left))
          (releaseRows tenantId left actor now)
          (fun _ => Books tenantId others rows (owed + left - left)) :=
        triple_releaseRows named (by omega) (by omega)
      refine Triple.bind released ?_
      intro _
      rw [Int.add_sub_cancel]
      exact triple_done nonneg (fun _ books => books)
    · have zero : left = 0 := by omega
      subst zero
      rw [Int.add_zero]
      exact triple_done nonneg (fun _ books => books)

theorem triple_sink_settle (sink : Sink) {cfg : ReservationConfig} {now : Int} :
    Triple (Solvent sink.tenantId others) (SinkBooks sink others rows 0) (sink.settle cfg now)
      (fun result db => SameSink sink result.2 ∧ SinkBooks result.2 others rows 0 db) := by
  obtain ⟨tenantId, connectorId, credit, actor, named⟩ := sink
  cases credit with
  | ledger key keyed =>
      have closed : Triple (Solvent tenantId others) (Books tenantId others rows 0)
          (cancelReservation cfg tenantId .storedRows key actor now)
          (fun _ => Books tenantId others rows 0) :=
        triple_cancelReservation (le_refl _)
      exact Triple.bind closed (fun _ => triple_done (le_refl _) (fun _ books => ⟨rfl, books⟩))
  | inMemory credit =>
      show Triple (Solvent tenantId others) (Books tenantId others rows (credit + 0)) (ite _ _ _) _
      split
      case isTrue positive =>
        have released : Triple (Solvent tenantId others) (Books tenantId others rows (credit + 0))
            (releaseRows tenantId credit actor now)
            (fun _ => Books tenantId others rows (credit + 0 - credit)) :=
          triple_releaseRows named (by omega) (by omega)
        refine Triple.bind released ?_
        intro _
        rw [Int.add_zero, Int.sub_self]
        exact triple_done (le_refl _) (fun _ books => ⟨rfl, books⟩)
      case isFalse empty =>
        have zero : credit = 0 := by omega
        subst zero
        exact triple_done (le_refl _) (fun _ books => ⟨rfl, books⟩)

theorem triple_consumeRest (sink : Sink) {call : SinkCall} {rest : Int} (nonneg : 0 ≤ rest)
    (taken_nonneg : 0 ≤ owed) :
    Triple (Solvent sink.tenantId others) (SinkBooks sink others rows owed)
      (consumeRest sink call rest)
      (fun result db => match result with
        | .ok _ => SinkBooks sink others rows (owed + rest) db
        | .error _ => SinkBooks sink others rows owed db) := by
  have hand := inHand_nonneg sink.credit
  unfold consumeRest
  split
  · refine Triple.bind (triple_checkAndConsume (by omega) rfl) ?_
    intro result
    cases result with
    | error e => exact triple_done (by omega) (fun _ books => books)
    | ok _ =>
        refine Triple.of_forall (fun _ => ?_)
        exact triple_done (by omega) (fun _ books => by rwa [Int.add_assoc] at books)
  · have zero : rest = 0 := by omega
    subst zero
    exact triple_done (by omega) (fun _ books => by rwa [Int.add_zero])

/-- What a sink call leaves: the same sink, some rows, and nothing owed but the credit. -/
def Settled (sink : Sink) (others : Nat) (sink' : Sink) (db : UsageDb) : Prop :=
  SameSink sink sink' ∧ ∃ rows, SinkBooks sink' others rows 0 db

theorem settled_done {A : Type} {sink sink' : Sink} {a : A} (same : SameSink sink sink') :
    Triple (Solvent sink'.tenantId others) (SinkBooks sink' others rows 0)
      (Prog.done (a, sink') : UsageProg (A × Sink)) (fun result => Settled sink others result.2) := by
  have hand := inHand_nonneg sink'.credit
  exact Triple.done (fun _ books => books.solvent (by omega)) (fun _ books => ⟨same, rows, books⟩)

/-- The refusal path: the rows it still writes are stored already. -/
theorem triple_sinkRefused (sink : Sink) {call : SinkCall} {batch : List String}
    {known : Finset String} {taken : Int} {error : ApiError} (nonneg : 0 ≤ taken)
    (stored : known ⊆ rows) :
    Triple (Solvent sink.tenantId others) (SinkBooks sink others rows taken)
      (sinkRefused sink call batch known taken error)
      (fun result => Settled sink others result.2) := by
  unfold sinkRefused
  refine Triple.bind (triple_sink_giveBack sink nonneg (le_refl _)) ?_
  intro sink'
  apply Triple.of_forall
  intro same
  rw [Int.sub_self, ← same.tenant]
  have hand := inHand_nonneg sink'.credit
  split
  · have nothing : newIds (batch.filter (· ∈ known)) rows = ∅ := by
      apply Finset.sdiff_eq_empty_iff_subset.mpr
      intro id member
      have member := List.mem_filter.mp (List.mem_toFinset.mp member)
      exact stored (by simpa using member.2)
    have covered : ((newIds (batch.filter (· ∈ known)) rows).card : Int) ≤
        sink'.credit.inHand + 0 := by
      rw [nothing, Finset.card_empty]
      exact Int.add_nonneg hand (le_refl _)
    refine Triple.bind (triple_upsert covered) ?_
    intro result
    apply Triple.of_forall
    rw [nothing, Finset.card_empty]
    intro bounds
    have zero : reportedCount result = 0 := by omega
    rw [zero, Int.sub_zero]
    cases result with
    | error count => exact settled_done same
    | ok result => exact settled_done same
  · exact settled_done same

theorem triple_sink_release (sink : Sink) {requested now : Int} (positive : 0 < requested)
    (covered : requested ≤ owed) :
    Triple (Solvent sink.tenantId others) (SinkBooks sink others rows owed)
      (releaseRows sink.tenantId requested sink.actor now)
      (fun _ => SinkBooks sink others rows (owed - requested)) := by
  have hand := inHand_nonneg sink.credit
  refine Triple.weaken (triple_releaseRows sink.named positive ?_) (fun _ books => books) ?_
  · omega
  · intro _ _ books
    rwa [Int.add_sub_assoc] at books

/-- The failure path: what is owed for the rows that were not written goes back, to the
reservation as far as it came from there. -/
theorem triple_sinkFailed (sink : Sink) {call : SinkCall} {fresh taken count : Int}
    (taken_bounds : 0 ≤ taken ∧ taken ≤ fresh) (count_bounds : 0 ≤ count ∧ count ≤ fresh) :
    Triple (Solvent sink.tenantId others) (SinkBooks sink others rows (fresh - count))
      (sinkFailed sink call fresh taken count) (fun result => Settled sink others result.2) := by
  unfold sinkFailed
  dsimp only
  generalize unwritten_eq : max 0 (fresh - count) = unwritten
  generalize back_eq : min unwritten (max 0 (taken - count)) = back
  have unwritten_is : unwritten = fresh - count := by omega
  have back_bounds : 0 ≤ back ∧ back ≤ unwritten := by omega
  rw [← unwritten_is]
  refine Triple.bind (triple_sink_giveBack sink back_bounds.1 back_bounds.2) ?_
  intro sink'
  apply Triple.of_forall
  intro same
  rw [← same.tenant]
  split
  · refine Triple.bind (triple_sink_release sink' (by omega) (le_refl _)) ?_
    intro _
    rw [Int.sub_self]
    exact settled_done same
  · have nothing : unwritten - back = 0 := by omega
    rw [nothing]
    exact settled_done same

theorem triple_adjustStoredRows (sink : Sink) {delta now : Int} (covered : -delta ≤ owed)
    (nonneg : 0 ≤ owed) :
    Triple (Solvent sink.tenantId others) (SinkBooks sink others rows owed)
      (adjustStoredRows sink.tenantId delta sink.actor now)
      (fun _ => SinkBooks sink others rows (owed + delta)) := by
  have hand := inHand_nonneg sink.credit
  unfold adjustStoredRows
  split
  case isTrue zero =>
    subst zero
    exact triple_done (by omega) (fun _ books => by rwa [Int.add_zero])
  case isFalse =>
    split
    case isTrue negative =>
      refine Triple.bind (triple_sink_release sink (by omega) covered) ?_
      intro _
      rw [Int.sub_neg]
      exact triple_done (by omega) (fun _ books => books)
    case isFalse =>
      have positive : 0 < delta := by omega
      refine Triple.bind (triple_incrementUnbounded (by omega) positive rfl) ?_
      intro _
      exact triple_done (Int.add_nonneg (Int.add_nonneg hand nonneg) (Int.le_of_lt positive))
        (fun _ books => by rwa [Int.add_assoc] at books)

/-- The write of a batch whose new rows are owed. -/
theorem triple_sinkWrite (sink : Sink) {call : SinkCall} {batch : List String} {taken : Int}
    (taken_bounds : 0 ≤ taken ∧ taken ≤ (newIds batch rows).card) :
    Triple (Solvent sink.tenantId others) (SinkBooks sink others rows (newIds batch rows).card)
      (sinkWrite sink call batch (newIds batch rows).card taken)
      (fun result => Settled sink others result.2) := by
  have hand := inHand_nonneg sink.credit
  unfold sinkWrite
  refine Triple.bind (triple_upsert (by omega)) ?_
  intro result
  apply Triple.of_forall
  intro bounds
  rw [Int.add_sub_assoc]
  cases result with
  | error count => exact triple_sinkFailed sink taken_bounds bounds
  | ok result =>
      have upserted : reportedCount (.ok result) = result.upserted := rfl
      rw [upserted] at bounds ⊢
      refine Triple.bind (triple_adjustStoredRows sink (by omega) (by omega)) ?_
      intro _
      have even : ((newIds batch rows).card : Int) - result.upserted +
          (result.upserted - (newIds batch rows).card) = 0 := by omega
      rw [even]
      exact settled_done rfl

/-- The number of new rows that the sink computes. -/
theorem fresh_eq (batch : List String) (rows : Finset String) :
    max 0 ((batch.toFinset.card : Int) - (batch.toFinset ∩ rows).card) =
      (newIds batch rows).card := by
  have split_card : (batch.toFinset \ rows).card + (batch.toFinset ∩ rows).card =
      batch.toFinset.card := Finset.card_sdiff_add_card_inter _ _
  unfold newIds
  omega

/-- One batch. -/
theorem triple_feed (sink : Sink) (call : SinkCall) (batch : List String) :
    Triple (Solvent sink.tenantId others) (SinkBooks sink others rows 0) (sink.feed call batch)
      (fun result => Settled sink others result.2) := by
  have hand := inHand_nonneg sink.credit
  unfold Sink.feed
  split
  case isTrue empty =>
    refine Triple.bind (triple_upsert (by simp [newIds]; omega)) ?_
    intro result
    apply Triple.of_forall
    intro bounds
    have zero : reportedCount result = 0 := by
      have none_new : (newIds [] rows).card = 0 := by simp [newIds]
      omega
    rw [zero, Int.sub_zero]
    cases result <;> exact settled_done rfl
  case isFalse =>
    dsimp only
    have known : Triple (Solvent sink.tenantId others) (SinkBooks sink others rows 0)
        (findExistingSourceRowIds batch.toFinset)
        (fun known db => known = batch.toFinset ∩ rows ∧ SinkBooks sink others rows 0 db) := by
      refine Triple.read (fun _ books => books.solvent (by omega)) ?_
      exact fun db books => ⟨by rw [books.stored], books⟩
    refine Triple.bind known ?_
    intro known
    apply Triple.of_forall
    rintro rfl
    rw [fresh_eq]
    have drawn : Triple (Solvent sink.tenantId others) (SinkBooks sink others rows 0)
        (sink.drawFresh (newIds batch rows).card call.now)
        (fun result db =>
          (SameSink sink result.2 ∧ 0 ≤ result.1 ∧ result.1 ≤ (newIds batch rows).card) ∧
            SinkBooks result.2 others rows result.1 db) := by
      unfold Sink.drawFresh
      split
      · exact triple_sink_draw sink (by assumption)
      · exact triple_done (by omega) (fun _ books => ⟨⟨rfl, by omega, by omega⟩, books⟩)
    refine Triple.bind drawn ?_
    rintro ⟨taken, sink'⟩
    apply Triple.of_forall
    rintro ⟨same, bounds⟩
    rw [← same.tenant]
    refine Triple.bind (triple_consumeRest sink' (by omega) bounds.1) ?_
    intro result
    have later : ∀ result db, Settled sink' others result db → Settled sink others result db := by
      rintro result db ⟨same', books⟩
      exact ⟨same'.trans same, books⟩
    cases result with
    | error e =>
        exact Triple.weaken (triple_sinkRefused sink' bounds.1 Finset.inter_subset_right)
          (fun _ books => books) (fun _ => later _)
    | ok _ =>
        have all : taken + ((newIds batch rows).card - taken) = (newIds batch rows).card := by omega
        rw [all]
        exact Triple.weaken (triple_sinkWrite sink' bounds) (fun _ books => books) (fun _ => later _)

/-- A new ledger entry holds what was consumed for it. -/
theorem triple_createReservation {tenantId : String} {req : NewReservation}
    (isRows : req.tenantId = tenantId ∧ req.metric = .storedRows)
    (covered : (req.amount : Int) ≤ owed) :
    Triple (Solvent tenantId others) (Books tenantId others rows owed) (createReservation req)
      (fun created => Books tenantId others rows (if created then owed - req.amount else owed)) := by
  have written : ∀ db, Books tenantId others rows owed db →
      Books tenantId others rows (if !db.reservationExists req then owed - req.amount else owed)
        (if db.reservationExists req then db
          else { db with reservations := req.document :: db.reservations }) := by
    rintro db ⟨stored, balance⟩
    cases taken : db.reservationExists req with
    | true => exact ⟨stored, balance⟩
    | false =>
        refine ⟨stored, ?_⟩
        have held : Reservation.held tenantId req.document = req.amount := by
          simp [Reservation.held, NewReservation.document, isRows]
        have total : UsageDb.outstanding { db with reservations := req.document :: db.reservations }
            tenantId = req.amount + db.outstanding tenantId := by
          simp [UsageDb.outstanding, held]
        show db.valueOf (storedRowsKey tenantId) = UsageDb.outstanding
          { db with reservations := req.document :: db.reservations } tenantId + _ + _ + (owed - _)
        rw [total, balance]
        omega
  refine Triple.update (fun _ books => books.solvent (by omega)) ?_ written
  intro db books
  have nonneg : 0 ≤ if !db.reservationExists req then owed - req.amount else owed := by
    split <;> omega
  exact (written db books).solvent nonneg

theorem triple_reserve {tenantId : String} {cfg : ReservationConfig} {ent : Entitlement}
    {req : ReserveRequest} (named : tenantId ≠ "") (nonneg : 0 ≤ owed)
    (isRows : req.tenantId = tenantId ∧ req.metric = .storedRows) :
    Triple (Solvent tenantId others) (Books tenantId others rows owed) (reserve cfg ent req)
      (fun _ => Books tenantId others rows owed) := by
  have key : req.consume.key = storedRowsKey tenantId := by
    simp [ReserveRequest.consume, storedRowsKey, isRows]
  unfold reserve
  split
  · exact triple_done nonneg (fun _ books => books)
  · split
    · exact triple_done nonneg (fun _ books => books)
    · split
      · exact triple_done nonneg (fun _ books => books)
      · split
        · exact triple_done nonneg (fun _ books => books)
        · have positive : 0 < req.requested := by omega
          refine Triple.bind (triple_checkAndConsume nonneg key) ?_
          intro result
          cases result with
          | error e => exact triple_done nonneg (fun _ books => books)
          | ok _ =>
              refine Triple.of_forall (fun _ => ?_)
              have amount : ((req.entry cfg).amount : Int) = req.requested := by
                show ((req.requested.toNat : Nat) : Int) = _
                omega
              show Triple (Solvent tenantId others)
                (Books tenantId others rows (owed + req.requested)) _ _
              refine Triple.bind (triple_createReservation isRows (by omega)) ?_
              intro created
              cases created with
              | true =>
                  refine triple_done ?_ ?_
                  · simp only [if_true]
                    omega
                  · intro db books
                    rwa [if_pos rfl, amount, Int.add_sub_cancel] at books
              | false =>
                  have back : Triple (Solvent tenantId others)
                      (Books tenantId others rows (owed + req.requested))
                      (releaseRows tenantId req.requested req.actor req.now)
                      (fun _ => Books tenantId others rows (owed + req.requested - req.requested)) :=
                    triple_releaseRows named positive (by omega)
                  rw [Int.add_sub_cancel] at back
                  have same : release req.tenantId req.metric req.requested req.actor req.now =
                      releaseRows tenantId req.requested req.actor req.now := by
                    rw [isRows.1, isRows.2]
                    rfl
                  show Triple _ _ (release req.tenantId req.metric req.requested req.actor req.now
                    >>= _) _
                  rw [same]
                  exact Triple.bind back (fun _ => triple_done nonneg (fun _ books => books))

variable {cfg : ReservationConfig} {message : SyncMessage}

/-- What a message carries in itself: `reservedRows`, where it has no key. -/
def SyncMessage.carried (message : SyncMessage) : Int :=
  match message.reservationKey with
  | some key => if key = "" then max 0 message.reservedRows else 0
  | none => max 0 message.reservedRows

theorem SyncMessage.inHand_sink {first : Sink} (is : message.sink = .ok first) :
    first.credit.inHand = message.carried := by
  unfold SyncMessage.sink createStoredRowsSink at is
  split at is
  · cases is
  · split at is
    · cases is
    · have amount : (message.reservedRows.toNat : Int) = max 0 message.reservedRows := by omega
      rw [← Except.ok.inj is]
      unfold SyncMessage.carried
      dsimp only
      cases message.reservationKey with
      | none => exact amount
      | some key =>
          dsimp only
          by_cases blank : key = ""
          · rw [dif_pos blank, if_pos blank]
            exact amount
          · rw [dif_neg blank, if_neg blank]
            rfl

/-- The sink is the one that the message makes, but for what it has in hand. -/
def SyncMessage.Makes (message : SyncMessage) (sink : Sink) : Prop :=
  ∃ first, message.sink = .ok first ∧ SameSink sink first

theorem SyncMessage.Makes.later {sink sink' : Sink} (makes : message.Makes sink) (same : SameSink sink sink') :
    message.Makes sink' := by
  obtain ⟨first, is, alike⟩ := makes
  exact ⟨first, is, alike.trans same.symm⟩

/-- A retry of the message drops a sink that has in hand what the message carries. -/
def SyncAction.Whole (message : SyncMessage) (sink : Sink) (action : SyncAction) : Prop :=
  action = .retry → sink.credit.inHand = message.carried

/-- One action. -/
theorem triple_action {sink : Sink} {action : SyncAction} (makes : message.Makes sink)
    (whole : action.Whole message sink) :
    Triple (Solvent sink.tenantId others) (SinkBooks sink others rows 0)
      (action.program cfg message sink) (Settled sink others) := by
  have hand := inHand_nonneg sink.credit
  have kept : Triple (Solvent sink.tenantId others) (SinkBooks sink others rows 0)
      (Prog.done sink : UsageProg Sink) (Settled sink others) :=
    triple_done (by omega) (fun _ books => ⟨rfl, rows, books⟩)
  cases action with
  | feed call batch =>
      refine Triple.bind (triple_feed sink call batch) ?_
      rintro ⟨_, sink'⟩
      refine Triple.done ?_ (fun _ settled => settled)
      rintro db ⟨same, rows', books⟩
      have hand' : 0 ≤ sink'.credit.inHand + 0 := Int.add_nonneg (inHand_nonneg _) (le_refl _)
      exact same.tenant ▸ books.solvent hand'
  | settle now =>
      refine Triple.bind (triple_sink_settle sink) ?_
      rintro ⟨_, sink'⟩
      apply Triple.of_forall
      intro same
      have hand' : 0 ≤ sink'.credit.inHand + 0 := Int.add_nonneg (inHand_nonneg _) (le_refl _)
      refine Triple.done (fun _ books => same.tenant ▸ books.solvent hand') ?_
      exact fun _ books => ⟨same, rows, books⟩
  | retry =>
      obtain ⟨renewed, is, same⟩ := makes
      have books : SinkBooks renewed others rows 0 = SinkBooks sink others rows 0 := by
        unfold SinkBooks
        rw [same.tenant, SyncMessage.inHand_sink is, whole rfl]
      simp only [SyncAction.program, is]
      exact triple_done (by omega) fun db held => ⟨same, rows, books ▸ held⟩
  | cancelReservation key actor now =>
      exact Triple.bind (triple_cancelReservation (by omega)) (fun _ => kept)
  | reserve ent key connectorId requested actor now =>
      exact Triple.bind (triple_reserve sink.named (by omega) ⟨rfl, rfl⟩) (fun _ => kept)

end Sinks

/-! ## Runs -/

/-- `counter value - open reservation remaining = rows stored`, where a message that
carries its credit in itself holds it as a reservation does. -/
def Conserved (sink : Sink) (others : Nat) (db : UsageDb) : Prop :=
  db.valueOf (storedRowsKey sink.tenantId) -
    (db.outstanding sink.tenantId + sink.credit.inHand) = db.rows.card + others

theorem conserved_iff (sink : Sink) (others : Nat) (db : UsageDb) :
    Conserved sink others db ↔ ∃ rows, SinkBooks sink others rows 0 db := by
  constructor
  · intro conserved
    refine ⟨db.rows, rfl, ?_⟩
    unfold Conserved at conserved
    omega
  · rintro ⟨rows, stored, balance⟩
    unfold Conserved
    rw [stored]
    omega

/-- Every retry of a run drops a sink that has in hand what the message carries. -/
def Whole (cfg : ReservationConfig) (message : SyncMessage) : Sink → List SyncAction → UsageDb → Prop
  | _, [], _ => True
  | sink, action :: rest, db =>
      action.Whole message sink ∧
        Whole cfg message ((action.program cfg message sink).run db).1 rest
          ((action.program cfg message sink).run db).2

section Runs

variable {cfg : ReservationConfig} {message : SyncMessage} {sink : Sink} {others : Nat} {db : UsageDb}

/-- One action that is whole keeps the books of a sink of the message. -/
theorem conserved_action {action : SyncAction} (makes : message.Makes sink)
    (conserved : Conserved sink others db) (whole : action.Whole message sink) :
    (action.program cfg message sink).Along (Solvent sink.tenantId others) db ∧
      SameSink sink ((action.program cfg message sink).run db).1 ∧
        Conserved ((action.program cfg message sink).run db).1 others
          ((action.program cfg message sink).run db).2 := by
  obtain ⟨rows, books⟩ := (conserved_iff sink others db).mp conserved
  obtain ⟨along, same, books'⟩ := triple_action makes whole db books
  exact ⟨along, same, (conserved_iff ..).mpr books'⟩

/-- Any number of actions, by induction: each one starts from conserved books. -/
theorem conserved_runSync (makes : message.Makes sink) (conserved : Conserved sink others db) {actions : List SyncAction}
    (whole : Whole cfg message sink actions db) :
    (runSync cfg message sink actions).Along (Solvent sink.tenantId others) db ∧
      Conserved ((runSync cfg message sink actions).run db).1 others
        ((runSync cfg message sink actions).run db).2 := by
  induction actions generalizing sink db with
  | nil =>
      obtain ⟨rows, books⟩ := (conserved_iff sink others db).mp conserved
      exact ⟨books.solvent (Int.add_nonneg (inHand_nonneg _) (le_refl _)), conserved⟩
  | cons action rest ih =>
      obtain ⟨first, later⟩ := whole
      obtain ⟨along, same, books⟩ :=
        @conserved_action cfg message sink others db action makes conserved first
      obtain ⟨along', books'⟩ := ih (makes.later same) books later
      rw [same.tenant] at along'
      unfold runSync
      rw [along_bind, run_bind]
      exact ⟨⟨along, along'⟩, books'⟩

theorem Whole.start {actions done : List SyncAction} (whole : Whole cfg message sink actions db)
    (part : done <+: actions) : Whole cfg message sink done db := by
  induction done generalizing actions sink db with
  | nil => trivial
  | cons action rest ih =>
      obtain ⟨more, rfl⟩ := part
      exact ⟨whole.1, ih whole.2 (List.prefix_append ..)⟩

/-- Where the books are conserved after every action, each retry was whole. -/
theorem whole_of_conserved (makes : message.Makes sink)
    {actions : List SyncAction}
    (conserved : ∀ done, done <+: actions → Conserved ((runSync cfg message sink done).run db).1 others
      ((runSync cfg message sink done).run db).2) : Whole cfg message sink actions db := by
  induction actions generalizing sink db with
  | nil => trivial
  | cons action rest ih =>
      have before : Conserved sink others db := conserved [] List.nil_prefix
      have after : ∀ done, done <+: rest →
          Conserved ((runSync cfg message ((action.program cfg message sink).run db).1 done).run
              ((action.program cfg message sink).run db).2).1 others
            ((runSync cfg message ((action.program cfg message sink).run db).1 done).run
              ((action.program cfg message sink).run db).2).2 := by
        intro done part
        have books := conserved (action :: done) (List.cons_prefix_cons.mpr ⟨rfl, part⟩)
        rwa [runSync, run_bind] at books
      have first : action.Whole message sink := by
        rintro rfl
        obtain ⟨renewed, is, same⟩ := makes
        have next := after [] List.nil_prefix
        have books : Conserved renewed others db := by
          simpa [SyncAction.program, is, runSync] using next
        unfold Conserved at before books
        rw [same.tenant, SyncMessage.inHand_sink is] at books
        omega
      obtain ⟨-, same, -⟩ :=
        @conserved_action cfg message sink others db action makes before first
      exact ⟨first, ih (makes.later same) after⟩

/-- A credit in the ledger is in no sink's hand. -/
theorem Credit.inHand_ledger {sink : Sink} {key : String} (keyed : sink.account.2 = some key) :
    sink.credit.inHand = 0 := by
  unfold Sink.account at keyed
  cases credit : sink.credit with
  | ledger _ _ => rfl
  | inMemory _ =>
      rw [credit] at keyed
      cases keyed

/-- The retries of a message with a ledger key are whole. -/
theorem whole_of_ledger (makes : message.Makes sink)
    (conserved : Conserved sink others db) {key : String} (keyed : sink.account.2 = some key)
    (actions : List SyncAction) : Whole cfg message sink actions db := by
  induction actions generalizing sink db with
  | nil => trivial
  | cons action rest ih =>
      have first : action.Whole message sink := by
        intro _
        obtain ⟨first, is, same⟩ := makes
        have keyed' := (congrArg Prod.snd same).trans keyed
        rw [← SyncMessage.inHand_sink is, Credit.inHand_ledger keyed, Credit.inHand_ledger keyed']
      obtain ⟨-, same, books⟩ :=
        @conserved_action cfg message sink others db action makes conserved first
      exact ⟨first, ih (makes.later same) books
        ((congrArg Prod.snd same).trans keyed)⟩

end Runs

/-- From conserved books of a message, whatever batches, outcomes of `upsert`, quota checks, settlements,
cancellations, reservations and retries follow: the books are conserved after every action exactly when
each retry drops a sink that has in hand what the message carries, and then the counter covers the rows stored at every
store on the way. `others` counts the rows of the other connectors of the workspace. -/
theorem stored_rows_conserved (cfg : ReservationConfig) {message : SyncMessage} {sink : Sink}
    (start : message.sink = .ok sink) (others : Nat) (db : UsageDb)
    (conserved : Conserved sink others db) (actions : List SyncAction) :
    ((∀ done, done <+: actions → Conserved ((runSync cfg message sink done).run db).1 others
        ((runSync cfg message sink done).run db).2) ↔ Whole cfg message sink actions db) ∧
      (Whole cfg message sink actions db → (runSync cfg message sink actions).Along
        (fun db => (db.rows.card : Int) + others ≤ db.valueOf (storedRowsKey sink.tenantId)) db) := by
  have makes : message.Makes sink := ⟨sink, start, rfl⟩
  refine ⟨⟨whole_of_conserved makes, fun whole done part => ?_⟩, fun whole => ?_⟩
  · exact (conserved_runSync makes conserved (whole.start part)).2
  · exact (conserved_runSync makes conserved whole).1

/-- A plan without a limit, and an `upsert` that inserts some rows. -/
def SinkCall.inserting (inserted : List String) (fails : Bool) : SinkCall where
  ent := { writeBlocked := false, state := "active", limit := none }
  outcome := { inserted, fails }
  now := 0

/-- A store whose counter has counted some rows of a workspace, and nothing else. -/
def UsageDb.counting (tenantId : String) (value : Int) : UsageDb :=
  emptyUsage.setCounter (storedRowsKey tenantId)
    { kind := .current, value, lastIncrementedAt := none, lastReconciledAt := none,
      updatedBy := none, expiresAt := none }

/-- A message that carries some credit. -/
def carrying (reservedRows : Int) : SyncMessage where
  tenantId := "t1"
  connectorId := "c1"
  reservedRows := reservedRows

/-- Its sink. -/
def carryingSink (credit : Nat) : Sink where
  tenantId := "t1"
  connectorId := "c1"
  credit := .inMemory credit
  actor := none
  named := by decide

/-- A message that carries a credit of 3 rows feeds two rows, none of which is written, is retried, and
settled after one of them is. -/
theorem stored_rows_conserved_example :
    let actions : List SyncAction :=
      [.feed (.inserting [] true) ["a", "b"], .retry, .feed (.inserting ["a"] true) ["a", "b"], .settle 1]
    let left := (runSync { lingerMs := 0, ttlMs := 0 } (carrying 3) (carryingSink 3) actions).run
      (.counting "t1" 3)
    Conserved left.1 0 left.2 := by
  intro actions left
  have whole : Whole { lingerMs := 0, ttlMs := 0 } (carrying 3) (carryingSink 3) actions
      (.counting "t1" 3) := by
    refine ⟨?_, ?_, ?_, ?_, trivial⟩
    · intro retry
      cases retry
    · intro _
      decide +kernel
    · intro retry
      cases retry
    · intro retry
      cases retry
  exact (stored_rows_conserved _ rfl 0 _ (by unfold Conserved; decide) actions).1.mpr whole _
    (List.prefix_refl _)

/-- A message that carries a credit of 4 rows stores two of them and fails. The retry has all of the credit
again, stores the other two and gives the rest back: the counter is left with 2 for 4 rows. -/
theorem carried_credit_released_twice :
    let batch := ["a", "b", "c", "d"]
    let actions : List SyncAction :=
      [.feed (.inserting ["a", "b"] true) batch, .retry, .feed (.inserting batch false) batch, .settle 1]
    let left := (runSync { lingerMs := 0, ttlMs := 0 } (carrying 4) (carryingSink 4) actions).run
      (.counting "t1" 4)
    (carrying 4).sink = .ok (carryingSink 4) ∧ Conserved (carryingSink 4) 0 (.counting "t1" 4) ∧
      ¬ Conserved left.1 0 left.2 ∧ left.2.valueOf (storedRowsKey "t1") = 2 ∧ left.2.rows.card = 4 := by
  unfold Conserved
  exact ⟨rfl, by decide, by decide +kernel, by decide +kernel, by decide +kernel⟩

end AnalyticsBackend.Usage
