import AnalyticsBackend.Email.Outbox

/-!
# A claimed message is left to its claimer

A claim is exclusive as long as the lease it stored is ahead of the clock. The lease counts from
the time the claimer carries, and a drain carries the time of its start through the whole batch:
the later messages of a slow batch are claimed with a lease that is short, or over. Where every
delivery ends before the lease it stored, a message in flight is held by its one claim
(`OutboxInv.flight`), and only that claim's process sends it.
-/

namespace AnalyticsBackend.Email
open Lib System
open Mongo (ObjectId)

def claimed (e : OutboxEvent) : Option (ObjectId × LockToken) :=
  match e.label with
  | .claim now token _ id => (e.before.pick now id).map fun m => (m.1, token)
  | _ => none

theorem claimed_some {e : OutboxEvent} {id : ObjectId} {token : LockToken}
    (succeeded : claimed e = some (id, token)) : ∃ now leaseMs selected m,
      e.label = .claim now token leaseMs selected ∧ e.before.pick now selected = some (id, m) := by
  unfold claimed at succeeded
  cases label : e.label with
  | claim now token' leaseMs selected =>
      rw [label] at succeeded
      obtain ⟨⟨key, m⟩, picked, same⟩ := Option.map_eq_some_iff.mp succeeded
      obtain ⟨rfl, rfl⟩ := Prod.mk.inj same
      exact ⟨now, leaseMs, selected, m, rfl, picked⟩
  | _ => simp [label] at succeeded

/-- The outcome of a claim is written. -/
def Writes (id : ObjectId) (token : LockToken) (e : OutboxEvent) : Prop :=
  ∃ result m, e.label = .outcome id token result ∧ e.before.message id = some m ∧
    m.heldBy token = true

def MarksSent (id : ObjectId) (e : OutboxEvent) : Prop :=
  ∃ token now messageId transport m, e.label = .outcome id token (.sent now messageId transport) ∧
    e.before.message id = some m ∧ m.heldBy token = true

/-- Between a claim and its outcome there is no other claim on the message, an attempt sends at
most once, and a message marked sent is never sent again. -/
structure ClaimedAlone (trace : List OutboxEvent) : Prop where
  exclusive : ∀ later e' between e earlier id t t',
    trace = later ++ e' :: (between ++ e :: earlier) → claimed e = some (id, t) →
      claimed e' = some (id, t') → ∃ o ∈ between, Writes id t o
  sendsOnce : ∀ later e earlier id id' t, trace = later ++ e :: earlier →
    e.label = .send id t → ∀ e' ∈ earlier, e'.label ≠ .send id' t
  sentFinal : ∀ later e earlier id t, trace = later ++ e :: earlier →
    e.label = .send id t → ∀ e' ∈ earlier, ¬ MarksSent id e'

/-! ## The invariant -/

/-- The messages in flight are held by their claims, whose leases are ahead. -/
def Flight (db : OutboxDb) : Prop :=
  ∀ d ∈ db.inFlight, db.clock < d.lockedUntil ∧ ∃ m, db.message d.id = some m ∧
    m.heldBy d.token = true ∧ m.lockedUntil = some d.lockedUntil

/-- A claim whose outcome has been written since, or whose delivery is in flight. -/
def Pending (w : OutboxWorld) : Prop :=
  ∀ later e earlier id t, w.trace = later ++ e :: earlier → claimed e = some (id, t) →
    (∃ o ∈ later, Writes id t o) ∨ ∃ d ∈ w.store.inFlight, d.id = id ∧ d.token = t

structure OutboxInv (w : OutboxWorld) : Prop where
  flight : Flight w.store
  pending : Pending w
  finished : ∀ e ∈ w.trace, ∀ id, MarksSent id e →
    ∃ m, w.store.message id = some m ∧ m.status = .sent
  signed : ∀ e ∈ w.trace, ∀ id t, e.label = .send id t → t.uuid.1 = e.tid
  alone : ClaimedAlone w.trace

/-- Whose step it may be: a claim carries a time that is past, and a token of its process; so do
the steps of its delivery. -/
def OutboxLabel.Of (i : Nat) (db : OutboxDb) : OutboxLabel → Prop
  | .claim now token _ _ => now ≤ db.clock ∧ token.uuid.1 = i
  | .send _ token => token.uuid.1 = i
  | .outcome _ token _ => token.uuid.1 = i
  | _ => True

def OutboxGuar (e : OutboxEvent) : Prop :=
  e.after = e.label.act e.before ∧ e.label.Of e.tid e.before

section Steps

variable {db : OutboxDb} {w : OutboxWorld} {i : Nat}

theorem earliest_mem {messages : List (ObjectId × OutboundEmail)} {m : ObjectId × OutboundEmail}
    (found : earliest messages = some m) : m ∈ messages := by
  induction messages generalizing m with
  | nil => exact nomatch found
  | cons a rest ih =>
      simp only [earliest] at found
      cases best : earliest rest with
      | none =>
          rw [best] at found
          exact Option.some.inj found ▸ List.mem_cons_self
      | some b =>
          rw [best] at found
          dsimp only at found
          split at found
          · exact Option.some.inj found ▸ List.mem_cons_of_mem _ (ih best)
          · exact Option.some.inj found ▸ List.mem_cons_self

theorem pick_some {now : Int} {id : Option ObjectId} {key : ObjectId} {m : OutboundEmail}
    (picked : db.pick now id = some (key, m)) :
    db.message key = some m ∧ claimable now m = true := by
  obtain ⟨key', -, found⟩ := List.mem_filterMap.mp (earliest_mem picked)
  obtain ⟨m', stored, found⟩ := Option.bind_eq_some_iff.mp found
  split at found
  · rename_i due
    obtain ⟨rfl, rfl⟩ := Prod.mk.inj (Option.some.inj found)
    simp only [Bool.and_eq_true] at due
    exact ⟨stored, due.1⟩
  · exact nomatch found

theorem heldBy_iff {token : LockToken} {m : OutboundEmail} :
    m.heldBy token = true ↔ m.status = .sending ∧ m.lockedBy = some token := by
  simp [OutboundEmail.heldBy]

/-- A message that a claim holds cannot be claimed before its lease is over. -/
theorem not_claimable {m : OutboundEmail} {token : LockToken} {now ending : Int}
    (held : m.heldBy token = true) (lease : m.lockedUntil = some ending) (ahead : now < ending) :
    claimable now m = false := by
  have sending := (heldBy_iff.mp held).1
  have : ¬ ending ≤ now := by omega
  simp [claimable, sending, lease, this]

theorem not_claimable_sent {m : OutboundEmail} {now : Int} (sent : m.status = .sent) :
    claimable now m = false := by
  simp [claimable, sent]

@[simp] theorem act_clock (label : OutboxLabel) : (label.act db).clock = db.clock := by
  cases label with
  | claim now token leaseMs id =>
      simp only [OutboxLabel.act]
      cases db.pick now id <;> rfl
  | outcome id token result =>
      simp only [OutboxLabel.act]
      cases (db.message id).filter (OutboundEmail.heldBy token) <;> rfl
  | requeue id now =>
      simp only [OutboxLabel.act]
      cases (db.message id).filter fun m => decide (m.status = .dead) <;> rfl
  | _ => rfl

/-- The messages that a step leaves as they are: all but the one it takes. -/
theorem message_act (label : OutboxLabel) {key : ObjectId} {m : OutboundEmail}
    (stored : db.message key = some m) :
    (label.act db).message key = some m ∨
      (∃ now token leaseMs id, label = .claim now token leaseMs id ∧
        db.pick now id = some (key, m)) ∨
      (∃ token result, label = .outcome key token result ∧ m.heldBy token = true) ∨
      ∃ now, label = .requeue key now ∧ m.status = .dead := by
  cases label with
  | look => exact .inl stored
  | send id token => exact .inl stored
  | claim now token leaseMs id =>
      cases picked : db.pick now id with
      | none => exact .inl (by simpa [OutboxLabel.act, picked] using stored)
      | some found =>
          obtain ⟨key', m'⟩ := found
          by_cases same : key = key'
          · subst same
            obtain ⟨stored', -⟩ := pick_some picked
            rw [stored, Option.some.injEq] at stored'
            subst stored'
            exact .inr (.inl ⟨now, token, leaseMs, id, rfl, picked⟩)
          · refine .inl ?_
            simpa [OutboxLabel.act, picked, OutboxDb.put, Function.update_of_ne same] using stored
  | outcome id token result =>
      by_cases same : key = id
      · subst same
        cases held : m.heldBy token with
        | true => exact .inr (.inr (.inl ⟨token, result, rfl, held⟩))
        | false =>
            exact .inl (by simp [OutboxLabel.act, stored, Option.filter, held])
      · refine .inl ?_
        simp only [OutboxLabel.act]
        cases (db.message id).filter (OutboundEmail.heldBy token) with
        | none => exact stored
        | some m' => simpa [OutboxDb.put, Function.update_of_ne same] using stored
  | requeue id now =>
      by_cases same : key = id
      · subst same
        by_cases dead : m.status = .dead
        · exact .inr (.inr (.inr ⟨now, rfl, dead⟩))
        · exact .inl (by simp [OutboxLabel.act, stored, Option.filter, dead])
      · refine .inl ?_
        simp only [OutboxLabel.act]
        cases (db.message id).filter fun m => decide (m.status = .dead) with
        | none => exact stored
        | some m' => simpa [OutboxDb.put, Function.update_of_ne same] using stored

/-- The deliveries in flight after a step: those before it, but for the one whose outcome it is,
and the one it starts. -/
theorem inFlight_act {label : OutboxLabel} {d : Delivery} (mem : d ∈ (label.act db).inFlight) :
    d ∈ db.inFlight ∧ (∀ result, label ≠ .outcome d.id d.token result) ∨
      ∃ now leaseMs id m, label = .claim now d.token leaseMs id ∧
        db.pick now id = some (d.id, m) ∧ d.lockedUntil = now + leaseMs := by
  cases label with
  | look => exact .inl ⟨mem, fun _ h => nomatch h⟩
  | send id token => exact .inl ⟨mem, fun _ h => nomatch h⟩
  | claim now token leaseMs id =>
      simp only [OutboxLabel.act] at mem
      cases picked : db.pick now id with
      | none =>
          rw [picked] at mem
          exact .inl ⟨mem, fun _ h => nomatch h⟩
      | some found =>
          rw [picked] at mem
          rcases List.mem_cons.mp mem with rfl | mem
          · exact .inr ⟨now, leaseMs, id, found.2, rfl, picked, rfl⟩
          · exact .inl ⟨mem, fun _ h => nomatch h⟩
  | outcome id token result =>
      simp only [OutboxLabel.act, List.mem_filter, Bool.not_eq_true', Bool.and_eq_false_iff,
        decide_eq_false_iff_not] at mem
      refine .inl ⟨mem.1, fun result' same => ?_⟩
      obtain ⟨rfl, rfl, -⟩ := OutboxLabel.outcome.inj same
      rcases mem.2 with other | other <;> exact other rfl
  | requeue id now =>
      simp only [OutboxLabel.act] at mem
      refine .inl ⟨?_, fun _ h => nomatch h⟩
      revert mem
      cases (db.message id).filter fun m => decide (m.status = .dead) <;> exact fun mem => mem

theorem inFlight_stays {label : OutboxLabel} {d : Delivery} (mem : d ∈ db.inFlight)
    (unwritten : ∀ result, label ≠ .outcome d.id d.token result) :
    d ∈ (label.act db).inFlight := by
  cases label with
  | look => exact mem
  | send id token => exact mem
  | claim now token leaseMs id =>
      simp only [OutboxLabel.act]
      cases db.pick now id with
      | none => exact mem
      | some found => exact List.mem_cons_of_mem _ mem
  | outcome id token result =>
      simp only [OutboxLabel.act, List.mem_filter]
      refine ⟨mem, ?_⟩
      by_cases same : d.id = id ∧ d.token = token
      · obtain ⟨rfl, rfl⟩ := same
        exact absurd rfl (unwritten result)
      · rcases not_and_or.mp same with other | other <;> simp [other]
  | requeue id now =>
      simp only [OutboxLabel.act]
      cases (db.message id).filter fun m => decide (m.status = .dead) <;> exact mem

theorem message_claim {now leaseMs : Int} {token : LockToken} {id : Option ObjectId}
    {key : ObjectId} {m : OutboundEmail} (picked : db.pick now id = some (key, m)) :
    ((OutboxLabel.claim now token leaseMs id).act db).message key =
      some (m.claim token leaseMs now) := by
  simp [OutboxLabel.act, picked, OutboxDb.put]

theorem message_outcome {id : ObjectId} {token : LockToken} {result : Outcome}
    {m : OutboundEmail} (stored : db.message id = some m) (held : m.heldBy token = true) :
    ((OutboxLabel.outcome id token result).act db).message id = some (result.apply m) := by
  simp [OutboxLabel.act, stored, Option.filter, held, OutboxDb.put]

theorem Flight.act {label : OutboxLabel} (flight : Flight db) (of : label.Of i db)
    (allowed : ∀ d ∈ (label.act db).inFlight, db.clock < d.lockedUntil) :
    Flight (label.act db) := by
  intro d mem
  refine ⟨(act_clock label).symm ▸ allowed d mem, ?_⟩
  rcases inFlight_act mem with ⟨old, unwritten⟩ | ⟨now, leaseMs, id, m, rfl, picked, ending⟩
  · obtain ⟨ahead, m, stored, held, lease⟩ := flight d old
    rcases message_act label stored with
      same | ⟨now, token, leaseMs, id, rfl, picked⟩ | ⟨token, result, rfl, held'⟩ | ⟨now, rfl, dead⟩
    · exact ⟨m, same, held, lease⟩
    · have due := (pick_some picked).2
      rw [not_claimable held lease (Int.lt_of_le_of_lt of.1 ahead)] at due
      exact nomatch due
    · have same : token = d.token := by
        have first := (heldBy_iff.mp held).2
        rw [(heldBy_iff.mp held').2, Option.some.injEq] at first
        exact first
      exact absurd (same ▸ rfl) (unwritten result)
    · rw [(heldBy_iff.mp held).1] at dead
      exact nomatch dead
  · refine ⟨_, message_claim picked, ?_, ?_⟩
    · exact heldBy_iff.mpr ⟨rfl, rfl⟩
    · exact congrArg some ending.symm

theorem sent_stays {label : OutboxLabel} {id : ObjectId} {m : OutboundEmail}
    (stored : db.message id = some m) (sent : m.status = .sent) :
    (label.act db).message id = some m := by
  rcases message_act label stored with
    same | ⟨now, token, leaseMs, id', rfl, picked⟩ | ⟨token, result, rfl, held⟩ | ⟨now, rfl, dead⟩
  · exact same
  · have due := (pick_some picked).2
    rw [not_claimable_sent sent] at due
    exact nomatch due
  · rw [(heldBy_iff.mp held).1] at sent
    exact nomatch sent
  · rw [sent] at dead
    exact nomatch dead

theorem Pending.push {label : OutboxLabel} (pending : Pending w) (flight : Flight w.store) :
    Pending (w.push ⟨i, label, w.store, label.act w.store⟩) := by
  intro later e earlier id t split succeeded
  cases later with
  | nil =>
      obtain ⟨rfl, rfl⟩ := List.cons.inj split
      right
      obtain ⟨now, leaseMs, selected, m, same, picked⟩ := claimed_some succeeded
      dsimp only at same picked
      subst same
      refine ⟨⟨id, t, w.store.clock, now + leaseMs⟩, ?_, rfl, rfl⟩
      simp [OutboxLabel.act, picked]
  | cons e' later =>
      obtain ⟨rfl, rest⟩ := List.cons.inj split
      rcases pending later e earlier id t rest succeeded with ⟨o, mem, writes⟩ | ⟨d, mem, rfl, rfl⟩
      · exact .inl ⟨o, List.mem_cons_of_mem _ mem, writes⟩
      · by_cases written : ∃ result, label = .outcome d.id d.token result
        · obtain ⟨result, rfl⟩ := written
          obtain ⟨-, m, stored, held, -⟩ := flight d mem
          exact .inl ⟨_, List.mem_cons_self, result, m, rfl, stored, held⟩
        · exact .inr ⟨d, inFlight_stays mem fun result same => written ⟨result, same⟩, rfl, rfl⟩

/-- What a send has to find: its message in flight by its own claim, which has not sent yet. -/
def MaySend (w : OutboxWorld) (label : OutboxLabel) : Prop :=
  ∀ id t, label = .send id t → (∃ d ∈ w.store.inFlight, d.id = id ∧ d.token = t) ∧
    ∀ e ∈ w.trace, ∀ id', e.label ≠ .send id' t

theorem ClaimedAlone.push {label : OutboxLabel} (inv : OutboxInv w) (of : label.Of i w.store)
    (may : MaySend w label) :
    ClaimedAlone ((w.push ⟨i, label, w.store, label.act w.store⟩).trace) := by
  constructor
  · intro later e' between e earlier id t t' split first second
    cases later with
    | nil =>
        obtain ⟨rfl, rest⟩ := List.cons.inj split
        rcases inv.pending between e earlier id t rest first with written | ⟨d, mem, rfl, rfl⟩
        · exact written
        · obtain ⟨ahead, m, stored, held, lease⟩ := inv.flight d mem
          obtain ⟨now, leaseMs, selected, m', same, picked⟩ := claimed_some second
          dsimp only at same picked
          subst same
          obtain ⟨stored', due⟩ := pick_some picked
          rw [stored, Option.some.injEq] at stored'
          subst stored'
          rw [not_claimable held lease (Int.lt_of_le_of_lt of.1 ahead)] at due
          exact nomatch due
    | cons d later =>
        exact inv.alone.exclusive later e' between e earlier id t t' (List.cons.inj split).2 first
          second
  · intro later e earlier id id' t split send e' mem
    cases later with
    | nil =>
        obtain ⟨rfl, rfl⟩ := List.cons.inj split
        exact (may id t send).2 e' mem id'
    | cons d later =>
        exact inv.alone.sendsOnce later e earlier id id' t (List.cons.inj split).2 send e' mem
  · intro later e earlier id t split send e' mem marks
    cases later with
    | nil =>
        obtain ⟨rfl, rfl⟩ := List.cons.inj split
        obtain ⟨⟨d, memd, rfl, -⟩, -⟩ := may id t send
        obtain ⟨-, m, stored, held, -⟩ := inv.flight d memd
        obtain ⟨m', stored', sent⟩ := inv.finished e' mem _ marks
        rw [stored, Option.some.injEq] at stored'
        subst stored'
        rw [(heldBy_iff.mp held).1] at sent
        exact nomatch sent
    | cons d later =>
        exact inv.alone.sentFinal later e earlier id t (List.cons.inj split).2 send e' mem marks

/-- Every step keeps the invariant. -/
theorem OutboxInv.push (inv : OutboxInv w) (label : OutboxLabel) (of : label.Of i w.store)
    (allowed : ∀ d ∈ (label.act w.store).inFlight, w.store.clock < d.lockedUntil)
    (may : MaySend w label) :
    OutboxInv (w.push ⟨i, label, w.store, label.act w.store⟩) := by
  refine ⟨inv.flight.act of allowed, inv.pending.push inv.flight, ?_, ?_, .push inv of may⟩
  · intro e mem id marks
    rcases List.mem_cons.mp mem with rfl | mem
    · obtain ⟨token, now, messageId, transport, m, same, stored, held⟩ := marks
      dsimp only at same stored
      subst same
      exact ⟨_, message_outcome stored held, rfl⟩
    · obtain ⟨m, stored, sent⟩ := inv.finished e mem id marks
      exact ⟨m, sent_stays stored sent, sent⟩
  · intro e mem id t send
    rcases List.mem_cons.mp mem with rfl | mem
    · dsimp only at send
      rw [send] at of
      exact of
    · exact inv.signed e mem id t send

end Steps

/-! ## The calls -/

section Calls

variable {env : OutboxEnv} {i : Nat}

/-- Every delivery ends before the lease it stored. -/
abbrev leasedSystem (env : OutboxEnv) : System Nat OutboxLabel OutboxDb Unit :=
  outboxSystem env Delivery.lockedUntil

abbrev OutboxStable (env : OutboxEnv) (i : Nat) (P : OutboxWorld → Prop) : Prop :=
  Stable (leasedSystem env).env OutboxInv OutboxGuar i P

abbrev OutboxSafe {A : Type} (env : OutboxEnv) (i : Nat) (Q : A → OutboxWorld → Prop)
    (p : OutboxProg A) (P : OutboxWorld → Prop) : Prop :=
  Safe (leasedSystem env).env (leasedSystem env).ok OutboxInv OutboxGuar i Q p P

/-- The time carried is past, and the process has sent with the tokens below `k` only. -/
def Carries (i : Nat) (now : Int) (k : Nat) (w : OutboxWorld) : Prop :=
  now ≤ w.store.clock ∧ ∀ e ∈ w.trace, ∀ id t, e.label = .send id t → t.uuid.1 = i → t.uuid.2 < k

/-- The delivery of a claim is in flight. -/
def Flying (id : ObjectId) (t : LockToken) (w : OutboxWorld) : Prop :=
  ∃ d ∈ w.store.inFlight, d.id = id ∧ d.token = t

theorem stable_carries (now : Int) (k : Nat) : OutboxStable env i (Carries i now k) := by
  constructor
  · rintro w e - ⟨past, below⟩ other before guar -
    constructor
    · rw [World.push_store, guar.1, act_clock, before]
      exact past
    · intro e' mem id t send own
      rcases List.mem_cons.mp mem with rfl | mem
      · have of := guar.2
        rw [send] at of
        exact absurd (Eq.trans of.symm own) other
      · exact below e' mem id t send own
  · rintro w db - ⟨past, below⟩ ⟨later, -⟩
    exact ⟨Int.le_trans past later, below⟩

theorem stable_flying {id : ObjectId} {t : LockToken} (own : t.uuid.1 = i) :
    OutboxStable env i (Flying id t) := by
  constructor
  · rintro w e - ⟨d, mem, rfl, rfl⟩ other before guar -
    refine ⟨d, ?_, rfl, rfl⟩
    rw [World.push_store, guar.1, before]
    refine inFlight_stays mem fun result same => ?_
    have of := guar.2
    rw [same] at of
    exact other (Eq.trans of.symm own)
  · rintro w db - ⟨d, mem, flying⟩ ⟨-, -, -, -, same⟩
    exact ⟨d, same ▸ mem, flying⟩

theorem step_safe {A : Type} {R : A → OutboxWorld → Prop} {P : OutboxWorld → Prop}
    {label : OutboxLabel} {report : OutboxDb → A} (stable : ∀ a, OutboxStable env i (R a))
    (of : ∀ w, P w → label.Of i w.store) (noSend : ∀ id t, label ≠ .send id t)
    (reaches : ∀ w, P w → R (report w.store) (w.push ⟨i, label, w.store, label.act w.store⟩)) :
    OutboxSafe env i R (step label report) P := by
  refine Safe.update stable fun w inv holds allowed => ?_
  refine ⟨inv.push label (of w holds) ?_ fun id t same => absurd same (noSend id t), ⟨rfl, of w holds⟩,
    reaches w holds⟩
  intro d mem
  have := allowed d mem
  rwa [act_clock] at this

theorem Carries.push {now : Int} {k : Nat} {w : OutboxWorld} (carries : Carries i now k w)
    {label : OutboxLabel} (noSend : ∀ id t, label ≠ .send id t) :
    Carries i now k (w.push ⟨i, label, w.store, label.act w.store⟩) := by
  refine ⟨(act_clock label).symm ▸ carries.1, fun e mem id t send => ?_⟩
  rcases List.mem_cons.mp mem with rfl | mem
  · exact absurd send (noSend id t)
  · exact carries.2 e mem id t send

theorem mark_safe {now : Int} {k : Nat} {id : ObjectId} {token : LockToken}
    (own : token.uuid.1 = i) (outcome : Outcome) :
    OutboxSafe env i (fun _ => Carries i now k) (mark id token outcome) (Carries i now k) :=
  step_safe (fun _ => stable_carries now k) (fun _ _ => own) (fun _ _ same => nomatch same)
    fun _ carries => carries.push fun _ _ same => nomatch same

theorem sendFailed_safe {now : Int} {k : Nat} {id : ObjectId} {token : LockToken}
    (own : token.uuid.1 = i) (message : OutboundEmail) (error : MailError) :
    OutboxSafe env i (fun _ => Carries i now k) (sendFailed env now id token message error)
      (Carries i now k) := by
  unfold sendFailed
  split
  · exact Safe.bind (mark_safe own _) fun _ _ _ carries => carries
  · exact Safe.bind (mark_safe own _) fun _ _ _ carries => carries

theorem sendRendered_safe {now : Int} {k : Nat} {id : ObjectId} {owner : String}
    (message : OutboundEmail) (trial : Trial) :
    OutboxSafe env i (fun _ => Carries i now (k + 1))
      (sendRendered env now id { owner, uuid := (i, k) } message trial)
      (fun w => Carries i now k w ∧ Flying id { owner, uuid := (i, k) } w) := by
  refine Safe.bind (R := fun _ => Carries i now (k + 1)) ?_ fun _ => ?_
  · refine Safe.update (fun _ => stable_carries now (k + 1)) ?_
    rintro w inv ⟨⟨past, below⟩, flying⟩ allowed
    refine ⟨inv.push (.send id _) rfl allowed ?_, ⟨rfl, rfl⟩, past, ?_⟩
    · rintro id' t same
      obtain ⟨rfl, rfl⟩ := OutboxLabel.send.inj same
      refine ⟨flying, fun e mem id' send => ?_⟩
      exact Nat.lt_irrefl k (below e mem id' _ send rfl)
    · intro e mem id' t send own
      rcases List.mem_cons.mp mem with rfl | mem
      · obtain ⟨rfl, rfl⟩ := OutboxLabel.send.inj send
        exact Nat.lt_succ_self k
      · exact Nat.lt_succ_of_lt (below e mem id' t send own)
  · have own : (LockToken.mk owner (i, k)).uuid.1 = i := rfl
    split
    · exact sendFailed_safe own _ _
    · dsimp only
      split
      · exact Safe.bind (mark_safe own _) fun _ _ _ carries => carries
      · exact Safe.bind (mark_safe own _) fun _ => sendFailed_safe own _ _
      · exact sendFailed_safe own _ _

theorem deliverClaimed_safe {now : Int} {k : Nat} {id : ObjectId} {owner : String}
    (message : OutboundEmail) (trial : Trial) :
    OutboxSafe env i (fun _ => Carries i now (k + 1))
      (deliverClaimed env now id { owner, uuid := (i, k) } message trial)
      (fun w => Carries i now k w ∧ Flying id { owner, uuid := (i, k) } w) := by
  have later : ∀ w, Carries i now k w → Carries i now (k + 1) w := fun w carries =>
    ⟨carries.1, fun e mem id t send own => Nat.lt_succ_of_lt (carries.2 e mem id t send own)⟩
  have dead : ∀ error : MailError, OutboxSafe env i (fun _ => Carries i now (k + 1))
      (mark id { owner, uuid := (i, k) } (.dead now error) >>= fun _ => pure OutboxStatus.dead)
      (fun w => Carries i now k w ∧ Flying id { owner, uuid := (i, k) } w) := fun error =>
    Safe.bind ((mark_safe rfl _).weaken fun w _ h => later w h.1) fun _ _ _ carries => carries
  unfold deliverClaimed
  split
  · exact dead _
  · split
    · exact dead _
    · exact sendRendered_safe message trial

theorem claimNext_safe {now : Int} {k : Nat} (owner : String) (id : Option ObjectId) :
    OutboxSafe env i
      (fun found w => Carries i now k w ∧
        ∀ key m, found = some (key, m) → Flying key { owner, uuid := (i, k) } w)
      (claimNext env now { owner, uuid := (i, k) } id) (Carries i now k) := by
  refine step_safe (fun found => ?_) (fun w carries => ⟨carries.1, rfl⟩)
    (fun _ _ same => nomatch same) fun w carries =>
      ⟨carries.push fun _ _ same => (nomatch same), ?_⟩
  · refine (stable_carries now k).and ?_
    exact Stable.all fun key => Stable.all fun m => Stable.imp fun _ => stable_flying rfl
  · intro key m found
    obtain ⟨⟨key', m'⟩, picked, same⟩ := Option.map_eq_some_iff.mp found
    obtain ⟨rfl, -⟩ := Prod.mk.inj same
    refine ⟨⟨key', { owner, uuid := (i, k) }, w.store.clock, now + env.leaseMs⟩, ?_, rfl, rfl⟩
    simp [OutboxLabel.act, picked, World.push_store]

theorem drainFrom_safe {now : Int} (owner : String) (trial : Nat → Trial) (left k : Nat)
    (counts : DrainCounts) :
    OutboxSafe env i (fun _ _ => True) (drainFrom env now owner i trial left k counts)
      (Carries i now k) := by
  induction left generalizing k counts with
  | zero => exact fun _ _ _ => trivial
  | succ left ih =>
      refine Safe.bind (claimNext_safe owner none) fun found => ?_
      cases found with
      | none => exact fun _ _ _ => trivial
      | some found =>
          obtain ⟨id, message⟩ := found
          refine Safe.bind ((deliverClaimed_safe message (trial k)).weaken ?_) fun status => ih _ _
          exact fun w _ h => ⟨h.1, h.2 id message rfl⟩

/-- What a process knows when it starts: it has sent nothing. -/
def Unstarted (i : Nat) (w : OutboxWorld) : Prop :=
  ∀ e ∈ w.trace, ∀ id t, e.label = .send id t → t.uuid.1 ≠ i

theorem stable_unstarted : OutboxStable env i (Unstarted i) := by
  constructor
  · intro w e _ unstarted other before guar _ e' mem id t send own
    rcases List.mem_cons.mp mem with rfl | mem
    · have of := guar.2
      rw [send] at of
      exact absurd (Eq.trans of.symm own) other
    · exact unstarted e' mem id t send own
  · exact fun w db _ unstarted _ => unstarted

theorem readClock_safe :
    OutboxSafe env i (fun now => Carries i now 0) (look OutboxDb.clock) (Unstarted i) := by
  intro w inv unstarted allowed
  have noSend : ∀ id t, OutboxLabel.look ≠ .send id t := fun _ _ same => nomatch same
  have inv' := inv.push (i := i) .look trivial allowed fun id t same =>
    absurd same (noSend id t)
  refine ⟨inv', ⟨rfl, trivial⟩, Carries i w.store.clock 0, stable_carries _ _, ?_,
    fun _ _ carries => carries⟩
  refine ⟨Int.le_refl _, fun e mem id t send own => ?_⟩
  rcases List.mem_cons.mp mem with rfl | mem
  · exact nomatch send
  · exact absurd own (unstarted e mem id t send)

theorem stable_true : OutboxStable env i fun _ => True :=
  ⟨fun _ _ _ _ _ _ _ _ => trivial, fun _ _ _ _ _ => trivial⟩

theorem look_safe {A : Type} (f : OutboxDb → A) :
    OutboxSafe env i (fun _ _ => True) (look f) fun _ => True := by
  intro w inv _ allowed
  exact ⟨inv.push .look trivial allowed fun _ _ same => (nomatch same), ⟨rfl, trivial⟩, _, stable_true,
    trivial, fun _ _ _ => trivial⟩

theorem requeueDeadMessage_safe (id : Option ObjectId) (scope : Option String) :
    OutboxSafe env i (fun _ _ => True) (requeueDeadMessage id scope) fun _ => True := by
  refine Safe.bind (look_safe _) fun existing => ?_
  cases existing with
  | none => exact fun _ _ _ => trivial
  | some found =>
      dsimp only
      split
      · exact fun _ _ _ => trivial
      · split
        · exact fun _ _ _ => trivial
        · refine Safe.bind (look_safe _) fun now => ?_
          refine Safe.bind (R := fun _ _ => True) ?_ fun requeued => ?_
          · exact step_safe (fun _ => stable_true) (fun _ _ => trivial)
              (fun _ _ same => nomatch same) fun _ _ => trivial
          · split <;> exact fun _ _ _ => trivial

theorem start_safe {p : OutboxProg Unit} (may : (leasedSystem env).start i p) :
    OutboxSafe env i (fun _ _ => True) p (Unstarted i) := by
  rcases may with ⟨batch, owner, trial, rfl⟩ | ⟨id, owner, trial, rfl⟩ | ⟨id, scope, rfl⟩
  · refine Safe.bind (R := fun _ _ => True) ?_ fun _ _ _ _ => trivial
    exact Safe.bind readClock_safe fun now => drainFrom_safe owner trial _ 0 {}
  · refine Safe.bind (R := fun _ _ => True) ?_ fun _ _ _ _ => trivial
    refine Safe.bind readClock_safe fun now => ?_
    refine Safe.bind (claimNext_safe owner (some id)) fun found => ?_
    cases found with
    | none => exact fun _ _ _ => trivial
    | some found =>
        obtain ⟨key, message⟩ := found
        refine Safe.bind ((deliverClaimed_safe message trial).weaken ?_) fun _ _ _ _ => trivial
        exact fun w _ h => ⟨h.1, h.2 key message rfl⟩
  · refine Safe.bind (R := fun _ _ => True) ?_ fun _ _ _ _ => trivial
    exact (requeueDeadMessage_safe id scope).weaken fun _ _ _ => trivial

end Calls

/-- A set of messages, none of which is in flight. -/
def OutboxDb.atRest (clock : Int) (ids : List ObjectId)
    (message : ObjectId → Option OutboundEmail) : OutboxDb where
  clock
  ids
  message
  inFlight := []

/-- In every run in which each delivery ends before the lease it stored, a claimed message is left
to its claimer until the outcome is written, and a sent message is never sent again. -/
theorem claimed_alone (env : OutboxEnv) (clock : Int) (ids : List ObjectId)
    (message : ObjectId → Option OutboundEmail) {c : Config Nat OutboxLabel OutboxDb Unit}
    (reach : (leasedSystem env).Reach (.atRest clock ids message) c) :
    ClaimedAlone c.world.trace := by
  have rule : Discipline (leasedSystem env) OutboxInv OutboxGuar (fun _ _ _ => True)
      (.atRest clock ids message) := by
    refine ⟨⟨?_, ?_, ?_, ?_, ?_, ?_, ?_⟩, ?_, ?_⟩
    · exact fun d mem => nomatch mem
    · intro later e earlier id t split
      simp at split
    · exact fun e mem => nomatch mem
    · exact fun e mem => nomatch mem
    · intro later e' between e earlier id t t' split
      simp at split
    · intro later e earlier id id' t split
      simp at split
    · intro later e earlier id t split
      simp at split
    · rintro w db inv ⟨later, within, ids, messages, inFlight⟩
      refine ⟨?_, ?_, ?_, inv.signed, inv.alone⟩
      · intro d mem
        dsimp only at mem ⊢
        rw [inFlight] at mem
        exact ⟨within d mem, by rw [messages]; exact (inv.flight d mem).2⟩
      · intro before e earlier id t split succeeded
        rw [inFlight]
        exact inv.pending before e earlier id t split succeeded
      · intro e mem id marks
        rw [messages]
        exact inv.finished e mem id marks
    · intro i p may
      refine ⟨Unstarted i, stable_unstarted, ?_, start_safe may⟩
      intro w inv unused e mem id t send own
      exact unused e mem ((inv.signed e mem id t send).symm.trans own)
  exact (reach.sound rule).inv.alone

/-! ## A slow batch -/

namespace SlowBatch

def settings : OutboxEnv :=
  { leaseMs := 120000, backoffBaseMs := 30000, backoffMaxMs := 3600000, batchSize := 50 }

def due : OutboundEmail where
  tenantId := none
  variablesEnc := none
  status := .pending
  attempts := 0
  maxAttempts := 6
  nextAttemptAt := 0
  lockedBy := none
  lockedUntil := none
  lastAttemptAt := none
  lastError := none
  sentAt := none
  deadAt := none
  messageId := none
  transport := none

/-- Two messages, both due. -/
def backlog : OutboxDb :=
  .atRest 0 [⟨1⟩, ⟨2⟩] fun id => if id.value = 1 ∨ id.value = 2 then some due else none

/-- The transport takes every message. -/
def accepted : Trial where
  unrendered := none
  reply := .ok { accepted := ["ana@example.com"], rejected := [], messageId := none }
  sentWrite := .ok ()
  transport := some "smtp"
  envelopeId := some "<outbox.1@example.com>"

def drain : OutboxProg Unit :=
  drainOutbox settings 2 "a" 0 (fun _ => accepted) >>= fun _ => pure ()

def dispatch : OutboxProg Unit := dispatchById settings ⟨2⟩ "b" 1 accepted >>= fun _ => pure ()

/-- A configuration at a later time. -/
def later (c : Config Nat OutboxLabel OutboxDb Unit) (clock : Int) :
    Config Nat OutboxLabel OutboxDb Unit :=
  c.move (.env { c.world.store with clock })

/-- The drain has claimed the first message and handed it to the transport. -/
def sending : Config Nat OutboxLabel OutboxDb Unit :=
  [Move.start 0 drain, .act 0, .act 0, .act 0].foldl Config.move (.idle backlog)

/-- 100 s later the send is over, and the drain claims the second message. -/
def second : Config Nat OutboxLabel OutboxDb Unit :=
  [Move.act 0, .act 0].foldl Config.move (later sending 100000)

def dispatched : Config Nat OutboxLabel OutboxDb Unit :=
  [Move.start 1 dispatch, .act 1, .act 1].foldl Config.move (later second 130000)

/-- The second claim and the rest of the batch, with no delay. -/
def drained : Config Nat OutboxLabel OutboxDb Unit :=
  (List.replicate 5 (Move.act 0)).foldl Config.move sending

end SlowBatch

theorem legal_within {env : OutboxEnv} {limit : Delivery → Int}
    {c : Config Nat OutboxLabel OutboxDb Unit} {i : Nat}
    (within : ∀ d ∈ (c.move (.act i)).world.store.inFlight,
      (c.move (.act i)).world.store.clock < limit d) : (outboxSystem env limit).Legal c (.act i) :=
  legal_act fun _ => within

theorem claimed_alone_drained :
    ClaimedAlone SlowBatch.drained.world.trace ∧
      [⟨1⟩, ⟨2⟩].map (fun id =>
        (SlowBatch.drained.world.store.message id).map OutboundEmail.status) =
          [some .sent, some .sent] := by
  constructor
  · have start : (leasedSystem SlowBatch.settings).Reach SlowBatch.backlog SlowBatch.sending := by
      refine Reach.moves .init ?_
      refine ⟨⟨rfl, .inl ⟨2, "a", _, rfl⟩⟩, ?_, ?_, ?_, trivial⟩ <;>
        exact legal_within (by decide +kernel)
    have rest : (leasedSystem SlowBatch.settings).Reach SlowBatch.backlog SlowBatch.drained := by
      refine Reach.moves start ?_
      refine ⟨?_, ?_, ?_, ?_, ?_, trivial⟩ <;> exact legal_within (by decide +kernel)
    exact claimed_alone SlowBatch.settings 0 _ _ rest
  · decide +kernel

/-- Two sends of a drain, each shorter than the lease: the second message is claimed by another
instance while the drain sends it. -/
theorem slow_batch_claims_twice :
    ¬ ∀ (env : OutboxEnv) (clock : Int) (ids : List ObjectId)
        (message : ObjectId → Option OutboundEmail) (c : Config Nat OutboxLabel OutboxDb Unit),
      (outboxSystem env fun d => d.claimedAt + env.leaseMs).Reach (.atRest clock ids message) c →
        ClaimedAlone c.world.trace := by
  intro all
  have sending : (outboxSystem SlowBatch.settings fun d => d.claimedAt +
      SlowBatch.settings.leaseMs).Reach SlowBatch.backlog SlowBatch.sending := by
    refine Reach.moves .init ?_
    refine ⟨⟨rfl, .inl ⟨2, "a", _, rfl⟩⟩, ?_, ?_, ?_, trivial⟩ <;>
      exact legal_within (by decide +kernel)
  have second : (outboxSystem SlowBatch.settings fun d => d.claimedAt +
      SlowBatch.settings.leaseMs).Reach SlowBatch.backlog SlowBatch.second := by
    have waited := sending.move (m := .env { SlowBatch.sending.world.store with clock := 100000 })
      ⟨by decide +kernel, by decide +kernel, rfl, rfl, rfl⟩
    refine Reach.moves waited ?_
    refine ⟨?_, ?_, trivial⟩ <;> exact legal_within (by decide +kernel)
  have dispatched : (outboxSystem SlowBatch.settings fun d => d.claimedAt +
      SlowBatch.settings.leaseMs).Reach SlowBatch.backlog SlowBatch.dispatched := by
    have waited := second.move (m := .env { SlowBatch.second.world.store with clock := 130000 })
      ⟨by decide +kernel, by decide +kernel, rfl, rfl, rfl⟩
    refine Reach.moves waited ?_
    refine ⟨⟨?_, .inr (.inl ⟨⟨2⟩, "b", _, rfl⟩)⟩, ?_, ?_, trivial⟩
    · rfl
    all_goals exact legal_within (by decide +kernel)
  have alone := all _ _ _ _ _ dispatched
  have shape : (SlowBatch.dispatched.world.trace.take 3).map claimed =
      [some (⟨2⟩, ⟨"b", (1, 0)⟩), none, some (⟨2⟩, ⟨"a", (0, 1)⟩)] := by
    decide +kernel
  have looked : SlowBatch.dispatched.world.trace[1]?.map Event.label = some .look := by
    decide +kernel
  generalize SlowBatch.dispatched.world.trace = trace at alone shape looked
  rcases trace with _ | ⟨e', _ | ⟨o, _ | ⟨e, earlier⟩⟩⟩
  · exact absurd (congrArg List.length shape) (by simp)
  · exact absurd (congrArg List.length shape) (by simp)
  · exact absurd (congrArg List.length shape) (by simp)
  · simp only [List.take_succ_cons, List.take_zero, List.map_cons, List.map_nil, List.cons.injEq,
      and_true] at shape
    obtain ⟨o', mem, result, m, outcome, -⟩ :=
      alone.exclusive [] e' [o] e earlier _ _ _ rfl shape.2.2 shape.1
    obtain rfl := List.mem_singleton.mp mem
    simp only [List.getElem?_cons_succ, List.getElem?_cons_zero, Option.map_some,
      Option.some.injEq] at looked
    rw [looked] at outcome
    exact nomatch outcome

end AnalyticsBackend.Email
