import AnalyticsBackend.Jobs.Lock

/-!
# The job lock is exclusive, and comes back unless a late renewal takes it

A lease is what the landed writes of a token granted it: `acquire` and `renew` grant, a
`release` of the token ends them all. Two tokens never both have an unexpired lease, whatever
the order of the writes. A released lock, on the other hand, is free from its `holdUntil` on
exactly when no renewal lands on it that was still in flight: a fenced document keeps its token.
-/

namespace AnalyticsBackend.Jobs
open Lib System

def landed (e : LockEvent) : Option LockWrite :=
  match e.label with
  | .clock => none
  | .write write => if write.hits e.before.lock then some write else none

def LockWrite.grant : LockWrite → Option Int
  | .take _ _ leaseMs now _ => some (now + leaseMs)
  | .insert _ _ leaseMs now _ => some (now + leaseMs)
  | .renew _ leaseMs now _ => some (now + leaseMs)
  | .release _ _ _ _ => none

/-- The lease ends a token was granted and has not given back, the newest first. -/
def openLeases (token : String) : List LockEvent → List Int
  | [] => []
  | e :: rest =>
      match landed e with
      | none => openLeases token rest
      | some write =>
          if write.token = token then
            match write.grant with
            | some ending => ending :: openLeases token rest
            | none => []
          else openLeases token rest

/-- The lease a token was granted last is unexpired. -/
def HoldsLease (w : LockWorld) (token : String) : Prop :=
  ∃ ending ∈ (openLeases token w.trace).head?, w.store.clock < ending

/-- Some lease end a token was ever granted, and has not given back, is still ahead. -/
def HoldsAnyLease (w : LockWorld) (token : String) : Prop :=
  ∃ ending ∈ openLeases token w.trace, w.store.clock < ending

/-- Renewals land in the order of their times: none makes the lease shorter. -/
def InOrder (trace : List LockEvent) : Prop :=
  ∀ e ∈ trace, ∀ token leaseMs now updatedAt,
    landed e = some (.renew token leaseMs now updatedAt) →
      ∀ doc, e.before.lock = some doc → doc.lockedUntil ≤ now + leaseMs

/-- At `now` any token can take the lock. -/
def Free (db : LockDb) (now : Int) : Prop :=
  ∀ owner token leaseMs, ((acquire owner token leaseMs).run { db with clock := now }).1 = true

/-- A renewal that landed with an end past `ending`. -/
def LateRenewal (ending : Int) (e : LockEvent) : Prop :=
  ∃ token leaseMs now updatedAt, landed e = some (.renew token leaseMs now updatedAt) ∧
    ending < now + leaseMs

/-- The newest landed write that is not a renewal is a `release` of `token`, until `ending`,
and `later` are the events since. -/
def ReleasedSince (trace later : List LockEvent) (token : String) (ending : Int) : Prop :=
  ∃ e earlier holdUntil now updatedAt, trace = later ++ e :: earlier ∧
    landed e = some (.release token holdUntil now updatedAt) ∧
    ending = releasedUntil holdUntil now ∧
    ∀ e' ∈ later, ∀ write, landed e' = some write →
      ∃ holder leaseMs at_ updatedAt, write = .renew holder leaseMs at_ updatedAt

/-! ## What a write leaves behind -/

/-- The document runs out by `ending`, if there is one. -/
def Lapses (db : LockDb) (ending : Int) : Prop := ∀ doc, db.lock = some doc → doc.lockedUntil ≤ ending

/-- A lease end is past, or the document stands for it. -/
def Backed (db : LockDb) (token : String) (ending : Int) : Prop :=
  ending ≤ db.clock ∨ ∃ doc, db.lock = some doc ∧ doc.token = some token ∧
    ending ≤ doc.lockedUntil ∧ ending ≤ doc.expiresAt

@[simp] theorem apply_clock (write : LockWrite) (db : LockDb) :
    (write.apply db).clock = db.clock := by
  unfold LockWrite.apply
  split <;> rfl

theorem apply_hit {write : LockWrite} {db : LockDb} (hit : write.hits db.lock = true) :
    (write.apply db).lock = write.set db.lock := by
  rw [LockWrite.apply, if_pos hit]

theorem apply_miss {write : LockWrite} {db : LockDb} (miss : ¬ write.hits db.lock = true) :
    write.apply db = db := by
  rw [LockWrite.apply, if_neg miss]

theorem run_acquire (owner : Option String) (token : String) (leaseMs : Int) (db : LockDb) :
    ((acquire owner token leaseMs).run db).1 =
      ((LockWrite.take owner token leaseMs db.clock db.clock).hits db.lock ||
        (LockWrite.insert owner token leaseMs db.clock db.clock).hits db.lock) := by
  simp only [acquire, readClock, Prog.read, Prog.update, Prog.step_bind, Prog.done_bind,
    Prog.run_step, id]
  by_cases taken : (LockWrite.take owner token leaseMs db.clock db.clock).hits db.lock = true
  · rw [if_pos taken, taken, Bool.true_or]
    rfl
  · rw [if_neg taken, apply_miss taken, Bool.eq_false_of_not_eq_true taken, Bool.false_or]
    rfl

theorem free_iff (db : LockDb) (now : Int) : Free db now ↔ Lapses db now := by
  unfold Free Lapses
  simp only [run_acquire]
  cases stored : db.lock with
  | none => simp [LockWrite.hits]
  | some doc => simp [LockWrite.hits]

theorem Lapses.mono {db : LockDb} {u v : Int} (h : Lapses db u) (le : u ≤ v) : Lapses db v :=
  fun doc stored => Int.le_trans (h doc stored) le

theorem Backed.unique {db : LockDb} {a b : String} {u v : Int} (first : Backed db a u)
    (second : Backed db b v) (ahead : db.clock < u) (ahead' : db.clock < v) : a = b := by
  rcases first with past | ⟨doc, stored, holder, -⟩
  · omega
  · rcases second with past | ⟨doc', stored', holder', -⟩
    · omega
    · rw [stored, Option.some.injEq] at stored'
      subst stored'
      rw [holder, Option.some.injEq] at holder'
      exact holder'

section Steps

variable {db : LockDb} {write : LockWrite} {token : String} {ending : Int}

theorem Backed.apply (backed : Backed db token ending) (known : write.now ≤ db.clock)
    (renewed : ∀ leaseMs now updatedAt, write = .renew token leaseMs now updatedAt →
      write.hits db.lock = true → ending ≤ now + leaseMs)
    (kept : ∀ holdUntil now updatedAt, write = .release token holdUntil now updatedAt →
      ¬ write.hits db.lock = true) : Backed (write.apply db) token ending := by
  by_cases hit : write.hits db.lock = true
  · rcases backed with past | ⟨doc, stored, holder, locked, expires⟩
    · left
      rwa [apply_clock]
    · cases write with
      | take owner other leaseMs now updatedAt =>
          left
          rw [stored] at hit
          simp only [LockWrite.hits, decide_eq_true_eq] at hit
          simp only [LockWrite.now] at known
          rw [apply_clock]
          omega
      | insert owner other leaseMs now updatedAt =>
          rw [stored] at hit
          exact absurd hit (by simp [LockWrite.hits])
      | renew other leaseMs now updatedAt =>
          have same : other = token := by
            rw [stored] at hit
            simp only [LockWrite.hits, Bool.and_eq_true, decide_eq_true_eq, holder,
              Option.some.injEq] at hit
            exact hit.1.symm
          subst same
          have longer := renewed leaseMs now updatedAt rfl hit
          right
          rw [apply_hit hit, stored]
          refine ⟨_, rfl, holder, longer, ?_⟩
          show ending ≤ now + leaseMs + dayMs
          unfold dayMs
          omega
      | release other holdUntil now updatedAt =>
          have same : other = token := by
            rw [stored] at hit
            simp only [LockWrite.hits, decide_eq_true_eq, holder, Option.some.injEq] at hit
            exact hit.symm
          subst same
          exact absurd hit (kept holdUntil now updatedAt rfl)
  · rwa [apply_miss hit]

theorem backed_grant (hit : write.hits db.lock = true) (grant : write.grant = some ending) :
    Backed (write.apply db) write.token ending := by
  have day : ending ≤ ending + dayMs := by unfold dayMs; omega
  right
  rw [apply_hit hit]
  cases write with
  | take owner token leaseMs now updatedAt =>
      simp only [LockWrite.grant, Option.some.injEq] at grant
      subst grant
      exact ⟨_, rfl, rfl, Int.le_refl _, day⟩
  | insert owner token leaseMs now updatedAt =>
      simp only [LockWrite.grant, Option.some.injEq] at grant
      subst grant
      exact ⟨_, rfl, rfl, Int.le_refl _, day⟩
  | renew token leaseMs now updatedAt =>
      simp only [LockWrite.grant, Option.some.injEq] at grant
      subst grant
      cases stored : db.lock with
      | none => rw [stored] at hit; exact absurd hit (by simp [LockWrite.hits])
      | some doc =>
          rw [stored] at hit
          simp only [LockWrite.hits, Bool.and_eq_true, decide_eq_true_eq] at hit
          exact ⟨_, rfl, hit.1, Int.le_refl _, day⟩
  | release token holdUntil now updatedAt => exact nomatch grant

/-- The clock moves on and the TTL index works: leases that are ahead stay backed. -/
theorem Backed.env {db' : LockDb} (backed : Backed db token ending)
    (may : lockSystem.env db db') : Backed db' token ending := by
  obtain ⟨later, same | ⟨gone, doc, stored, expired⟩⟩ := may
  · rcases backed with past | ⟨doc, stored, rest⟩
    · exact .inl (Int.le_trans past later)
    · exact .inr ⟨doc, same ▸ stored, rest⟩
  · left
    rcases backed with past | ⟨doc', stored', -, -, expires⟩
    · exact Int.le_trans past later
    · rw [stored, Option.some.injEq] at stored'
      subst stored'
      exact Int.le_trans expires expired

theorem Lapses.env {db' : LockDb} (lapses : Lapses db ending) (may : lockSystem.env db db') :
    Lapses db' ending := by
  obtain ⟨-, same | ⟨gone, -⟩⟩ := may
  · intro doc stored
    exact lapses doc (same ▸ stored)
  · intro doc stored
    rw [gone] at stored
    cases stored

theorem lapses_renewed {holder : String} {leaseMs now updatedAt : Int}
    (lapses : Lapses db ending) (due : now + leaseMs ≤ ending) :
    Lapses ((LockWrite.renew holder leaseMs now updatedAt).apply db) ending := by
  by_cases hit : (LockWrite.renew holder leaseMs now updatedAt).hits db.lock = true
  · intro doc stored
    rw [apply_hit hit, LockWrite.set, Option.map_eq_some_iff] at stored
    obtain ⟨old, -, rfl⟩ := stored
    exact due
  · rwa [apply_miss hit]

theorem lapses_released {holder : String} {holdUntil : Option Int} {now updatedAt : Int}
    (hit : (LockWrite.release holder holdUntil now updatedAt).hits db.lock = true) :
    Lapses ((LockWrite.release holder holdUntil now updatedAt).apply db)
      (releasedUntil holdUntil now) := by
  intro doc stored
  rw [apply_hit hit, LockWrite.set, Option.map_eq_some_iff] at stored
  obtain ⟨old, -, rfl⟩ := stored
  exact Int.le_refl _

theorem not_lapses_late {holder : String} {leaseMs now updatedAt : Int}
    (hit : (LockWrite.renew holder leaseMs now updatedAt).hits db.lock = true)
    (late : ending < now + leaseMs) :
    ¬ Lapses ((LockWrite.renew holder leaseMs now updatedAt).apply db) ending := by
  intro lapses
  cases stored : db.lock with
  | none => rw [stored] at hit; exact absurd hit (by simp [LockWrite.hits])
  | some doc =>
      have due := lapses { doc with lockedUntil := now + leaseMs, expiresAt := _, updatedAt }
        (by rw [apply_hit hit, stored]; rfl)
      exact absurd due (by dsimp only; omega)

end Steps

/-! ## The invariant of a run -/

/-- Every step does what its label says. -/
def Faithful (e : LockEvent) : Prop := e.after = e.label.act e.before

/-- What every run keeps. -/
structure LockInv (w : LockWorld) : Prop where
  recorded : ∀ token ending, (openLeases token w.trace).head? = some ending →
    Backed w.store token ending
  ordered : InOrder w.trace → ∀ token, ∀ ending ∈ openLeases token w.trace,
    Backed w.store token ending
  returned : ∀ later token ending, ReleasedSince w.trace later token ending →
    (∀ e ∈ later, ¬ LateRenewal ending e) →
      Lapses w.store ending ∧ ∀ e ∈ later, Lapses e.after ending

theorem landed_some {e : LockEvent} {write : LockWrite} (land : landed e = some write) :
    e.label = .write write ∧ write.hits e.before.lock = true := by
  unfold landed at land
  split at land
  · exact nomatch land
  case h_2 other label =>
    split at land
    case isTrue hit =>
      simp only [Option.some.injEq] at land
      subst land
      exact ⟨label, hit⟩
    case isFalse => exact nomatch land

theorem act_of_landed_none {e : LockEvent} (none : landed e = none) :
    e.label.act e.before = e.before := by
  unfold landed at none
  split at none
  case h_1 label => rw [label]; rfl
  case h_2 write label =>
    split at none
    · exact nomatch none
    case isFalse miss => rw [label]; exact apply_miss miss

theorem InOrder.tail {e : LockEvent} {trace : List LockEvent} (order : InOrder (e :: trace)) :
    InOrder trace :=
  fun e' mem => order e' (List.mem_cons_of_mem _ mem)

theorem ReleasedSince.tail {e first : LockEvent} {trace later : List LockEvent} {token : String}
    {ending : Int} (released : ReleasedSince (e :: trace) (first :: later) token ending) :
    first = e ∧ ReleasedSince trace later token ending := by
  obtain ⟨origin, earlier, holdUntil, now, updatedAt, split, land, end_, renewals⟩ := released
  rw [List.cons_append, List.cons.injEq] at split
  obtain ⟨rfl, split⟩ := split
  exact ⟨rfl, origin, earlier, holdUntil, now, updatedAt, split, land, end_,
    fun e' mem => renewals e' (List.mem_cons_of_mem _ mem)⟩

theorem mem_openLeases_cons {token : String} {ending : Int} {e : LockEvent}
    {trace : List LockEvent} (mem : ending ∈ openLeases token (e :: trace)) :
    (∃ write, landed e = some write ∧ write.token = token ∧ write.grant = some ending) ∨
      ending ∈ openLeases token trace ∧
        ∀ write, landed e = some write → write.token = token → write.grant ≠ none := by
  rw [openLeases] at mem
  split at mem
  case h_1 none => exact .inr ⟨mem, fun write land => by rw [none] at land; cases land⟩
  case h_2 write land =>
    split at mem
    case isTrue own =>
      split at mem
      case h_1 granted grant =>
        rcases List.mem_cons.mp mem with rfl | old
        · exact .inl ⟨write, land, own, grant⟩
        · refine .inr ⟨old, fun write' land' _ none => ?_⟩
          rw [land, Option.some.injEq] at land'
          rw [← land', grant] at none
          cases none
      case h_2 => cases mem
    case isFalse other =>
      refine .inr ⟨mem, fun write' land' own _ => ?_⟩
      rw [land, Option.some.injEq] at land'
      exact other (land' ▸ own)

theorem head_openLeases_cons {token : String} {ending : Int} {e : LockEvent}
    {trace : List LockEvent} (head : (openLeases token (e :: trace)).head? = some ending) :
    (∃ write, landed e = some write ∧ write.token = token ∧ write.grant = some ending) ∨
      (openLeases token trace).head? = some ending ∧
        ∀ write, landed e = some write → write.token ≠ token := by
  rw [openLeases] at head
  split at head
  case h_1 none => exact .inr ⟨head, fun write land => by rw [none] at land; cases land⟩
  case h_2 write land =>
    split at head
    case isTrue own =>
      split at head
      case h_1 granted grant =>
        rw [List.head?_cons, Option.some.injEq] at head
        exact .inl ⟨write, land, own, head ▸ grant⟩
      case h_2 => exact nomatch head
    case isFalse other =>
      refine .inr ⟨head, fun write' land' own => ?_⟩
      rw [land, Option.some.injEq] at land'
      exact other (land' ▸ own)

/-- One step keeps the invariant, if the time it compares against has come. -/
theorem LockInv.push {w : LockWorld} (inv : LockInv w) {e : LockEvent} (before : e.before = w.store)
    (faithful : Faithful e) (known : ∀ write, e.label = .write write → write.now ≤ w.store.clock) :
    LockInv (w.push e) := by
  have granted : ∀ {token ending} {write : LockWrite}, landed e = some write →
      write.token = token → write.grant = some ending → Backed (w.push e).store token ending := by
    intro token ending write land own grant
    obtain ⟨label, hit⟩ := landed_some land
    rw [World.push_store, faithful, label, ← own]
    exact backed_grant hit grant
  -- A lease that was backed stays so unless its own token ends it or shortens it.
  have still : ∀ {token ending}, Backed w.store token ending →
      (∀ leaseMs now updatedAt, landed e = some (.renew token leaseMs now updatedAt) →
        ending ≤ now + leaseMs) →
      (∀ write, landed e = some write → write.token = token → write.grant ≠ none) →
      Backed (w.push e).store token ending := by
    intro token ending backed renewed ended
    rw [World.push_store, faithful, before]
    cases label : e.label with
    | clock => exact backed
    | write write =>
        have landing : write.hits w.store.lock = true → landed e = some write := by
          intro hit
          simp only [landed, label, before, hit, if_true]
        refine backed.apply (known write label) ?_ ?_
        · rintro leaseMs now updatedAt rfl hit
          exact renewed leaseMs now updatedAt (landing hit)
        · rintro holdUntil now updatedAt rfl hit
          exact ended _ (landing hit) rfl rfl
  refine ⟨?_, ?_, ?_⟩
  · intro token ending head
    rcases head_openLeases_cons head with ⟨write, land, own, grant⟩ | ⟨head, others⟩
    · exact granted land own grant
    · refine still (inv.recorded token ending head) ?_ ?_
      · intro leaseMs now updatedAt land
        exact absurd rfl (others _ land)
      · intro write land own
        exact absurd own (others write land)
  · intro order token ending mem
    rcases mem_openLeases_cons mem with ⟨write, land, own, grant⟩ | ⟨old, ended⟩
    · exact granted land own grant
    · have backed := inv.ordered order.tail token ending old
      rcases backed with past | ⟨doc, stored, holder, locked, expires⟩
      · left
        rw [World.push_store, faithful]
        cases label : e.label with
        | clock => rwa [LockLabel.act, id, before]
        | write write => rwa [LockLabel.act, apply_clock, before]
      · refine still (.inr ⟨doc, stored, holder, locked, expires⟩) ?_ ended
        intro leaseMs now updatedAt land
        have inOrder := order e (List.mem_cons_self ..) token leaseMs now updatedAt land doc
          (before ▸ stored)
        exact Int.le_trans locked inOrder
  · intro later token ending released soon
    cases later with
    | nil =>
        obtain ⟨origin, earlier, holdUntil, now, updatedAt, split, land, rfl, -⟩ := released
        rw [List.nil_append, World.push_trace, List.cons.injEq] at split
        obtain ⟨rfl, -⟩ := split
        obtain ⟨label, hit⟩ := landed_some land
        rw [World.push_store, faithful, label]
        exact ⟨lapses_released hit, by simp⟩
    | cons first later =>
        obtain ⟨rfl, before_⟩ := released.tail
        obtain ⟨origin, earlier, holdUntil, now, updatedAt, split, land, end_, renewals⟩ := released
        obtain ⟨lapses, each⟩ := inv.returned later token ending before_
          fun e mem => soon e (List.mem_cons_of_mem _ mem)
        have after : Lapses first.after ending := by
          rw [faithful]
          cases land : landed first with
          | none => rwa [act_of_landed_none land, before]
          | some write =>
              obtain ⟨holder, leaseMs, at_, updatedAt, rfl⟩ :=
                renewals first (List.mem_cons_self ..) write land
              obtain ⟨label, -⟩ := landed_some land
              have due : at_ + leaseMs ≤ ending := by
                by_contra late
                exact soon first (List.mem_cons_self ..)
                  ⟨holder, leaseMs, at_, updatedAt, land, by omega⟩
              rw [label, before]
              exact lapses_renewed lapses due
        refine ⟨after, ?_⟩
        intro e mem
        rcases List.mem_cons.mp mem with rfl | mem
        · exact after
        · exact each e mem

theorem LockInv.env {w : LockWorld} (inv : LockInv w) {db : LockDb}
    (may : lockSystem.env w.store db) : LockInv { store := db, trace := w.trace } where
  recorded token ending head := (inv.recorded token ending head).env may
  ordered order token ending mem := (inv.ordered order token ending mem).env may
  returned later token ending released soon :=
    have lapses := inv.returned later token ending released soon
    ⟨lapses.1.env may, lapses.2⟩

/-! ## The calls -/

/-- `Safe` in the lock system. -/
abbrev LockSafe {A : Type} (i : Nat) (Q : A → LockWorld → Prop) (p : LockProg A)
    (P : LockWorld → Prop) : Prop :=
  Safe lockSystem.env lockSystem.ok LockInv Faithful i Q p P

/-- A time that was read stays in the past. -/
theorem stable_known (i : Nat) (t : Int) :
    Stable lockSystem.env LockInv Faithful i (fun w => t ≤ w.store.clock) := by
  refine Stable.le (fun _ _ may => may.1) ?_ i t
  intro e faithful
  rw [faithful]
  cases e.label with
  | clock => exact Int.le_refl _
  | write write => exact Int.le_of_eq (apply_clock write e.before).symm

theorem stable_true (i : Nat) : Stable lockSystem.env LockInv Faithful i (fun _ => True) :=
  ⟨fun _ _ _ _ _ _ _ _ => trivial, fun _ _ _ _ _ => trivial⟩

theorem safe_readClock (i : Nat) :
    LockSafe i (fun t w => t ≤ w.store.clock) readClock (fun _ => True) := by
  refine Safe.update (stable_known i) ?_
  intro w inv _ _
  exact ⟨inv.push rfl rfl (fun _ label => nomatch label), rfl, Int.le_refl _⟩

theorem safe_readUpdatedAt (i : Nat) (now : Int) :
    LockSafe i (fun _ w => now ≤ w.store.clock) readClock (fun w => now ≤ w.store.clock) := by
  refine Safe.update (fun _ => stable_known i now) ?_
  intro w inv known _
  exact ⟨inv.push rfl rfl (fun _ label => nomatch label), rfl, known⟩

theorem safe_write (i : Nat) (write : LockWrite) {report : LockDb → Bool} :
    LockSafe i (fun _ w => write.now ≤ w.store.clock)
      (Prog.update (.write write) write.apply report) (fun w => write.now ≤ w.store.clock) := by
  refine Safe.update (fun _ => stable_known i write.now) ?_
  intro w inv known _
  refine ⟨inv.push rfl rfl ?_, rfl, ?_⟩
  · intro other label
    simp only [LockLabel.write.injEq] at label
    exact label ▸ known
  · rwa [World.push_store, apply_clock]

theorem safe_acquire (i : Nat) (owner : Option String) (token : String) (leaseMs : Int) :
    LockSafe i (fun _ _ => True) (acquire owner token leaseMs) (fun _ => True) := by
  refine Safe.bind (safe_readClock i) fun now => ?_
  refine Safe.bind (safe_readUpdatedAt i now) fun updatedAt => ?_
  refine Safe.bind (safe_write i (.take owner token leaseMs now updatedAt)) fun taken => ?_
  cases taken with
  | true => exact fun _ _ _ => trivial
  | false =>
      exact (safe_write i (.insert owner token leaseMs now updatedAt)).post fun _ _ _ => trivial

theorem safe_renew (i : Nat) (token : String) (leaseMs : Int) :
    LockSafe i (fun _ _ => True) (renew token leaseMs) (fun _ => True) := by
  refine Safe.bind (safe_readClock i) fun now => ?_
  refine Safe.bind (safe_readUpdatedAt i now) fun updatedAt => ?_
  exact (safe_write i (.renew token leaseMs now updatedAt)).post fun _ _ _ => trivial

theorem safe_release (i : Nat) (token : String) (holdUntil : Option Int) :
    LockSafe i (fun _ _ => True) (release token holdUntil) (fun _ => True) := by
  refine Safe.bind (safe_readClock i) fun now => ?_
  refine Safe.bind (safe_readUpdatedAt i now) fun updatedAt => ?_
  exact (safe_write i (.release token holdUntil now updatedAt)).post fun _ _ _ => trivial

theorem lock_discipline (db : LockDb) :
    Discipline lockSystem LockInv Faithful (fun _ _ _ => True) db := by
  refine ⟨?_, fun w db' inv may => inv.env may, ?_⟩
  · refine ⟨fun _ _ head => (nomatch head), fun _ _ _ mem => (nomatch mem), ?_⟩
    rintro later token ending ⟨e, earlier, holdUntil, now, updatedAt, split, -⟩
    exact absurd split.symm (by simp)
  · intro i p started
    refine ⟨fun _ => True, stable_true i, fun _ _ _ => trivial, ?_⟩
    rcases started with ⟨owner, token, leaseMs, rfl⟩ | ⟨token, leaseMs, rfl⟩ |
      ⟨token, holdUntil, rfl⟩
    · exact safe_acquire i owner token leaseMs
    · exact safe_renew i token leaseMs
    · exact safe_release i token holdUntil

/-- In every run two tokens never both hold an unexpired lease (not even one that an older
renewal has shortened since, where renewals land in order); and once a `release` has landed
the lock is free from its end on, at every point until someone takes or releases it again,
exactly if no renewal has landed since with an end past it. -/
theorem lock_exclusive_and_returned (db : LockDb) (c : Config Nat LockLabel LockDb Bool)
    (reach : Reach lockSystem db c) :
    (∀ a b, HoldsLease c.world a → HoldsLease c.world b → a = b) ∧
    (InOrder c.world.trace →
      ∀ a b, HoldsAnyLease c.world a → HoldsAnyLease c.world b → a = b) ∧
    ∀ later token ending, ReleasedSince c.world.trace later token ending →
      ((∀ now, ending ≤ now → Free c.world.store now ∧ ∀ e ∈ later, Free e.after now) ↔
        ∀ e ∈ later, ¬ LateRenewal ending e) := by
  have held := reach.sound (lock_discipline db)
  refine ⟨?_, ?_, ?_⟩
  · rintro a b ⟨u, headA, aheadA⟩ ⟨v, headB, aheadB⟩
    exact (held.inv.recorded a u headA).unique (held.inv.recorded b v headB) aheadA aheadB
  · rintro order a b ⟨u, memA, aheadA⟩ ⟨v, memB, aheadB⟩
    exact (held.inv.ordered order a u memA).unique (held.inv.ordered order b v memB) aheadA aheadB
  · intro later token ending released
    constructor
    · rintro free e mem ⟨holder, leaseMs, now, updatedAt, land, late⟩
      obtain ⟨label, hit⟩ := landed_some land
      have lapses := (free_iff _ _).mp ((free ending (Int.le_refl _)).2 e mem)
      obtain ⟨origin, earlier, -, -, -, split, -⟩ := released
      have faithful := held.events e (by rw [split]; simp [mem])
      rw [faithful, label] at lapses
      exact not_lapses_late hit late lapses
    · intro soon now due
      obtain ⟨lapses, each⟩ := held.inv.returned later token ending released soon
      refine ⟨(free_iff _ _).mpr (lapses.mono due), ?_⟩
      intro e mem
      exact (free_iff _ _).mpr ((each e mem).mono due)

/-- A tick at 0 under a ten-minute lease: the job takes the lock, a heartbeat at 20 s captures
its time, and the job ends at 25 s and fences the tick. -/
def fencedTick : List (Move Nat LockLabel LockDb Bool) :=
  let taken : JobLock :=
    { owner := some "a", token := some "t", lockedUntil := 600000, acquiredAt := 0
      expiresAt := 87000000, updatedAt := 0 }
  [.start 0 (acquire (some "a") "t" 600000), .act 0, .act 0, .act 0, .act 0,
    .env { clock := 20000, lock := some taken },
    .start 1 (renew "t" 600000), .act 1, .act 1,
    .env { clock := 25000, lock := some taken },
    .start 2 (release "t" (tickFence (some 0) 600000)), .act 2, .act 2, .act 2]

def fencedRun : Config Nat LockLabel LockDb Bool :=
  fencedTick.foldl Config.move (.idle { clock := 0, lock := none })

theorem fencedRun_reach : Reach lockSystem { clock := 0, lock := none } fencedRun := by
  refine Reach.moves .init ?_
  exact ⟨⟨rfl, .inl ⟨_, _, _, rfl⟩⟩, trivial, trivial, trivial, trivial,
    ⟨by decide, .inl (by decide)⟩, ⟨rfl, .inr (.inl ⟨_, _, rfl⟩)⟩, trivial, trivial,
    ⟨by decide, .inl (by decide)⟩, ⟨rfl, .inr (.inr ⟨_, _, rfl⟩)⟩, trivial, trivial, trivial,
    trivial⟩

theorem fencedRun_released : ReleasedSince fencedRun.world.trace [] "t" 30000 :=
  ⟨_, fencedRun.world.trace.tail, some 30000, 25000, 25000, rfl, rfl, rfl,
    fun _ mem => nomatch mem⟩

/-- As long as the heartbeat has not landed, the fenced lock is free from 30 s on. -/
theorem lock_exclusive_and_returned_fenced :
    ReleasedSince fencedRun.world.trace [] "t" 30000 ∧
    ∀ now, 30000 ≤ now → Free fencedRun.world.store now ∧
      ∀ e ∈ ([] : List LockEvent), Free e.after now :=
  ⟨fencedRun_released,
    ((lock_exclusive_and_returned _ _ fencedRun_reach).2.2 _ _ _ fencedRun_released).mpr
      fun _ mem => nomatch mem⟩

/-- The heartbeat lands on the fenced lock. Nobody has taken or released it since the release,
but from 30 s on, for almost ten minutes, every other token is refused. -/
theorem late_heartbeat_keeps_lock :
    ∃ c, Reach lockSystem { clock := 0, lock := none } c ∧
      ∃ later, ReleasedSince c.world.trace later "t" 30000 ∧
        ∀ now, now < 620000 → ¬ Free c.world.store now := by
  let heartbeat := LockWrite.renew "t" 600000 20000 20000
  refine ⟨fencedRun.move (.act 1), fencedRun_reach.move trivial,
    [⟨1, .write heartbeat, fencedRun.world.store, heartbeat.apply fencedRun.world.store⟩], ?_, ?_⟩
  · refine ⟨_, fencedRun.world.trace.tail, some 30000, 25000, 25000, rfl, rfl, rfl, ?_⟩
    intro e mem write land
    rw [List.mem_singleton] at mem
    obtain ⟨label, -⟩ := landed_some land
    rw [mem, LockLabel.write.injEq] at label
    exact ⟨_, _, _, _, label.symm⟩
  · intro now early free
    have lapses := (free_iff _ _).mp free _ rfl
    have ending : (620000 : Int) ≤ now := lapses
    omega

end AnalyticsBackend.Jobs
