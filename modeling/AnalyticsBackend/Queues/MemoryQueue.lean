import Mathlib.Algebra.Order.Group.Multiset
import Mathlib.Tactic.Abel

/-!
# The in-memory queue

`queues/memory.queue.js`: a buffer, the loop that hands messages to the handler, and the wake-ups that
start it. What the event loop does next is free; a handler may call the queue while the loop runs.
-/

namespace AnalyticsBackend.Queues

variable {A : Type}

structure Options where
  concurrency : Nat := 5
  attempts : Nat := 3
  backoffMs : Nat := 1000

/-- A message; `ticket` counts the messages that were accepted before. -/
structure Message (A : Type) where
  ticket : Nat
  id : String
  name : String
  data : A
  attempts : Nat
  attemptsMade : Nat
  runAt : Nat

/-- Where messages are, the calls of the handler as ticket and `attemptsMade`, and all that was
accepted. -/
structure Ledger (A : Type) where
  buffer : List (Message A) := []
  running : List (Message A) := []
  completed : List (Message A) := []
  failed : List (Message A) := []
  dropped : List (Message A) := []
  calls : List (Nat × Nat) := []
  accepted : List (Message A) := []

structure Queue (A : Type) extends Ledger A where
  consumer : Bool := false
  closed : Bool := false
  draining : Bool := false
  nextId : Nat := 1
  clock : Nat := 0
  /-- The loop of `drain` is under way. -/
  looping : Bool := false
  /-- Messages that have ended and still count as running. -/
  finishing : Nat := 0
  immediates : Nat := 0
  timers : List Nat := []

/-! ## Steps -/

def pick {B : Type} (l : List B) (i : Nat) : Option (B × List B) := l[i]?.map (·, l.eraseIdx i)

namespace Queue

def active (q : Queue A) : Nat := q.running.length + q.finishing

def scheduleDrain (q : Queue A) : Queue A :=
  if q.closed then q else { q with immediates := q.immediates + 1 }

/-- `schedule`; nothing where it throws. -/
def schedule (opts : Options) (q : Queue A) (data : A) (delayMs : Nat)
    (name jobId : Option String) (attempts : Option Nat) : Option (Queue A) :=
  if q.closed || q.draining then none
  else
    let message : Message A :=
      { ticket := q.accepted.length
        id := jobId.getD s!"mem_{q.nextId}"
        name := name.getD "job"
        data
        attempts := attempts.getD opts.attempts
        attemptsMade := 0
        runAt := q.clock + delayMs }
    some { q with
      buffer := q.buffer ++ [message]
      accepted := q.accepted ++ [message]
      nextId := if jobId.isNone then q.nextId + 1 else q.nextId }.scheduleDrain

def enqueue (opts : Options) (q : Queue A) (data : A) (name jobId : Option String)
    (attempts : Option Nat) : Option (Queue A) := q.schedule opts data 0 name jobId attempts

def consume (q : Queue A) : Queue A := { q with consumer := true }.scheduleDrain

/-- `drain`, up to its loop. -/
def drain (q : Queue A) : Queue A :=
  if !q.consumer || q.draining then q else { q with looping := true }

def nextRun (buffer : List (Message A)) : Nat := (buffer.map Message.runAt).min?.getD 0

/-- One round of the loop of `drain`, with the begin of `runMessage`. -/
def dispatch (opts : Options) (q : Queue A) : Queue A :=
  if !q.looping then q
  else if opts.concurrency ≤ q.active ∨ q.buffer.isEmpty then { q with looping := false }
  else
    match pick q.buffer (q.buffer.findIdx fun m => m.runAt ≤ q.clock) with
    | none =>
        { q with looping := false, timers := (q.clock + (nextRun q.buffer - q.clock)) :: q.timers }
    | some (m, rest) =>
        if q.consumer then
          { q with
            buffer := rest
            running := q.running ++ [m]
            calls := q.calls ++ [(m.ticket, m.attemptsMade)] }
        else { q with buffer := rest, finishing := q.finishing + 1 }

/-- `runMessage` behind the handler, which has returned or thrown. -/
def runMessage (opts : Options) (q : Queue A) (i : Nat) (threw : Bool) : Queue A :=
  match pick q.running i with
  | none => q
  | some (m, rest) =>
      let q := { q with running := rest, finishing := q.finishing + 1 }
      let attemptsMade := m.attemptsMade + 1
      if !threw then { q with completed := q.completed ++ [m] }
      else if m.attempts ≤ attemptsMade ∨ q.closed then { q with failed := q.failed ++ [m] }
      else
        let runAt := q.clock + opts.backoffMs * 2 ^ (attemptsMade - 1)
        { q with buffer := q.buffer ++ [{ m with attemptsMade, runAt }] }

/-- `finally` of `runMessage`. -/
def finish (q : Queue A) : Queue A :=
  if q.finishing = 0 then q else { q with finishing := q.finishing - 1 }.scheduleDrain

/-- The end of `close`, at once or after it has waited. -/
def shut (q : Queue A) : Queue A :=
  { q with
    dropped := q.dropped ++ q.buffer
    buffer := []
    closed := true
    consumer := false
    timers := []
    immediates := 0 }

def close (q : Queue A) (drainTimeoutMs : Nat) : Queue A :=
  let q := { q with draining := true }
  if q.active = 0 ∨ drainTimeoutMs = 0 then q.shut else q

inductive Event (A : Type) where
  | enqueue (data : A) (name jobId : Option String) (attempts : Option Nat)
  | schedule (data : A) (delayMs : Nat) (name jobId : Option String) (attempts : Option Nat)
  | consume
  | immediate
  | timer (i : Nat)
  | dispatch
  | settle (i : Nat) (threw : Bool)
  | finish
  | close (drainTimeoutMs : Nat)
  | closeEnds
  | tick (ms : Nat)

def step (opts : Options) (q : Queue A) : Event A → Queue A
  | .enqueue data name jobId attempts => (q.enqueue opts data name jobId attempts).getD q
  | .schedule data delayMs name jobId attempts =>
      (q.schedule opts data delayMs name jobId attempts).getD q
  | .consume => q.consume
  | .immediate =>
      if q.immediates = 0 then q else { q with immediates := q.immediates - 1 }.drain
  | .timer i =>
      match pick q.timers i with
      | none => q
      | some (_, rest) => { q with timers := rest }.drain
  | .dispatch => q.dispatch opts
  | .settle i threw => q.runMessage opts i threw
  | .finish => q.finish
  | .close drainTimeoutMs => q.close drainTimeoutMs
  | .closeEnds => if q.draining then q.shut else q
  | .tick ms => { q with clock := q.clock + ms }

def run (opts : Options) (events : List (Event A)) : Queue A :=
  events.foldl (step opts) {}

end Queue

/-! ## Messages -/

theorem pick_perm {B : Type} {l rest : List B} {i : Nat} {b : B} (picked : pick l i = some (b, rest)) :
    l.Perm (b :: rest) := by
  obtain ⟨c, found, is⟩ := Option.map_eq_some_iff.mp picked
  obtain ⟨inside, rfl⟩ := List.getElem?_eq_some_iff.mp found
  rw [← (Prod.mk.inj is).1, ← (Prod.mk.inj is).2]
  exact (List.getElem_cons_eraseIdx_perm inside).symm

/-- A message without what changes from attempt to attempt. -/
def Message.content (m : Message A) : Message A := { m with attemptsMade := 0, runAt := 0 }

/-- Messages with the number of times that the handler was called with each: `more` than the attempts
made before. -/
def tally (more : Nat) (ms : List (Message A)) : Multiset (Message A × Nat) :=
  (ms : Multiset (Message A)).map fun m => (m.content, m.attemptsMade + more)

def Ledger.progress (l : Ledger A) : Multiset (Message A × Nat) :=
  tally 0 l.buffer + tally 0 l.dropped + tally 1 l.running + tally 1 l.completed + tally 1 l.failed

def Ledger.callsOf (l : Ledger A) (ticket : Nat) : List Nat :=
  (l.calls.filter fun c => c.1 = ticket).map Prod.snd

structure Ledger.Sound (l : Ledger A) : Prop where
  once : l.progress.map Prod.fst = (l.accepted.map Message.content : List _)
  numbered : l.accepted.map Message.ticket = List.range l.accepted.length
  counted : ∀ p ∈ l.progress, l.callsOf p.1.ticket = List.range p.2 ∧ p.2 ≤ max 1 p.1.attempts
  fresh : ∀ t, l.accepted.length ≤ t → l.callsOf t = []
  few : ∀ m ∈ l.buffer, m.attemptsMade = 0 ∨ m.attemptsMade < m.attempts

variable {l l' : Ledger A} {m : Message A} {rest : List (Message A)}

/-- Messages may go from place to place. -/
theorem Ledger.Sound.move (sound : l.Sound) (progress : l'.progress = l.progress)
    (accepted : l'.accepted = l.accepted) (calls : l'.calls = l.calls)
    (few : ∀ m ∈ l'.buffer, m.attemptsMade = 0 ∨ m.attemptsMade < m.attempts) : l'.Sound where
  once := by rw [progress, accepted, sound.once]
  numbered := by rw [accepted, sound.numbered]
  counted p mem := by
    rw [Ledger.callsOf, calls]
    exact sound.counted p (progress ▸ mem)
  fresh t := by
    rw [Ledger.callsOf, calls, accepted]
    exact sound.fresh t
  few := few

theorem tally_append (more : Nat) (ms ns : List (Message A)) :
    tally more (ms ++ ns) = tally more ms + tally more ns := by
  rw [tally, ← Multiset.coe_add, Multiset.map_add]
  rfl

theorem tally_concat (more : Nat) (ms : List (Message A)) (m : Message A) :
    tally more (ms ++ [m]) = tally more ms + {(m.content, m.attemptsMade + more)} := tally_append ..

theorem tally_picked {more : Nat} {ms : List (Message A)} (picked : ms.Perm (m :: rest)) :
    tally more ms = tally more rest + {(m.content, m.attemptsMade + more)} := by
  rw [tally, Multiset.coe_eq_coe.mpr picked, Multiset.add_comm]
  rfl

theorem Ledger.Sound.tickets (sound : l.Sound) :
    (l.progress.map fun p => p.1.ticket) = (List.range l.accepted.length : Multiset Nat) := by
  have contents := congrArg (Multiset.map Message.ticket) sound.once
  rw [Multiset.map_map, Multiset.map_coe, List.map_map] at contents
  rw [← sound.numbered]
  exact contents

theorem Ledger.Sound.ticket_ne (sound : l.Sound) {p : Message A × Nat} {others : Multiset (Message A × Nat)}
    (split : l.progress = others + {p}) : ∀ r ∈ others, p.1.ticket ≠ r.1.ticket := by
  have nodup : (l.progress.map fun p => p.1.ticket).Nodup := by
    rw [sound.tickets]
    exact Multiset.coe_nodup.mpr List.nodup_range
  rw [split, Multiset.add_comm, Multiset.singleton_add, Multiset.map_cons, Multiset.nodup_cons] at nodup
  intro r mem is
  exact nodup.1 (is ▸ Multiset.mem_map_of_mem (fun p => p.1.ticket) mem)

theorem Ledger.Sound.ticket_lt (sound : l.Sound) {p : Message A × Nat} (mem : p ∈ l.progress) :
    p.1.ticket < l.accepted.length := by
  have ticket : p.1.ticket ∈ l.progress.map fun p => p.1.ticket := Multiset.mem_map_of_mem _ mem
  rw [sound.tickets] at ticket
  exact List.mem_range.mp (Multiset.mem_coe.mp ticket)

/-- A message of the buffer goes to the handler. -/
def Ledger.call (l : Ledger A) (m : Message A) (rest : List (Message A)) : Ledger A :=
  { l with
    buffer := rest
    running := l.running ++ [m]
    calls := l.calls ++ [(m.ticket, m.attemptsMade)] }

theorem callsOf_call (rest : List (Message A)) (ticket : Nat) :
    (l.call m rest).callsOf ticket =
      l.callsOf ticket ++ if m.ticket = ticket then [m.attemptsMade] else [] := by
  rw [Ledger.callsOf, Ledger.call, List.filter_append, List.map_append]
  by_cases is : m.ticket = ticket <;> simp [is, Ledger.callsOf]

theorem Ledger.Sound.call (sound : l.Sound) (picked : l.buffer.Perm (m :: rest)) :
    (l.call m rest).Sound := by
  obtain ⟨others, before, after⟩ : ∃ others, l.progress = others + {(m.content, m.attemptsMade)} ∧
      (l.call m rest).progress = others + {(m.content, m.attemptsMade + 1)} := by
    refine ⟨tally 0 rest + tally 0 l.dropped + tally 1 l.running + tally 1 l.completed + tally 1 l.failed,
      ?_, ?_⟩
    · rw [Ledger.progress, tally_picked picked, Nat.add_zero]
      abel
    · rw [Ledger.progress, Ledger.call, tally_concat]
      abel
  have own : (m.content, m.attemptsMade) ∈ l.progress := by
    rw [before]
    exact Multiset.mem_add.mpr (.inr (Multiset.mem_singleton_self _))
  have few := List.forall_mem_cons.mp fun k mem => sound.few k (picked.mem_iff.mpr mem)
  refine ⟨?_, sound.numbered, ?_, ?_, few.2⟩
  · refine Eq.trans ?_ sound.once
    rw [after, before, Multiset.map_add, Multiset.map_add]
    rfl
  · rw [after]
    intro p mem
    rw [callsOf_call]
    rcases Multiset.mem_add.mp mem with other | here
    · have apart : m.ticket ≠ p.1.ticket := sound.ticket_ne before p other
      rw [if_neg apart, List.append_nil]
      exact sound.counted p (before ▸ Multiset.mem_add.mpr (.inl other))
    · rw [Multiset.mem_singleton.mp here, List.range_succ, (sound.counted _ own).1]
      refine ⟨congrArg (List.range m.attemptsMade ++ ·) (if_pos rfl), ?_⟩
      change m.attemptsMade + 1 ≤ max 1 m.attempts
      have first := few.1
      omega
  · intro t new
    have old : m.ticket ≠ t := Nat.ne_of_lt (Nat.lt_of_lt_of_le (sound.ticket_lt own) new)
    rw [callsOf_call, if_neg old, List.append_nil]
    exact sound.fresh t new

theorem Ledger.Sound.accept (sound : l.Sound) (ticket : m.ticket = l.accepted.length)
    (first : m.attemptsMade = 0) :
    Ledger.Sound { l with buffer := l.buffer ++ [m], accepted := l.accepted ++ [m] } := by
  have more : Ledger.progress { l with buffer := l.buffer ++ [m], accepted := l.accepted ++ [m] } =
      l.progress + {(m.content, 0)} := by
    rw [Ledger.progress, tally_concat, first, Ledger.progress]
    abel
  refine ⟨?_, ?_, ?_, fun t new => sound.fresh t ?_, ?_⟩
  · rw [more, Multiset.map_add, sound.once, List.map_append, ← Multiset.coe_add]
    rfl
  · rw [List.map_append, sound.numbered, List.length_append, List.length_singleton, List.range_succ, ← ticket]
    rfl
  · rw [more]
    intro p mem
    rcases Multiset.mem_add.mp mem with old | here
    · exact sound.counted p old
    · rw [Multiset.mem_singleton.mp here]
      exact ⟨sound.fresh _ ticket.ge, Nat.zero_le _⟩
  · rw [List.length_append] at new
    exact Nat.le_of_succ_le new
  · exact List.forall_mem_append.mpr ⟨sound.few, List.forall_mem_singleton.mpr (.inl first)⟩

/-! ## Wake-ups -/

namespace Queue

/-- Something will look at the buffer again before its first message is due. -/
def Awake (opts : Options) (q : Queue A) : Prop :=
  q.looping = true ∨ 0 < q.immediates ∨ 0 < q.finishing ∨ opts.concurrency ≤ q.running.length ∨
    ∃ due ∈ q.timers, ∀ m ∈ q.buffer, due ≤ m.runAt

structure Kept (opts : Options) (q : Queue A) : Prop where
  sound : q.Sound
  bounded : q.active ≤ opts.concurrency
  shut : q.closed = true → q.draining = true ∧ q.buffer = []
  handled : q.looping = true → q.consumer = true ∨ q.closed = true

structure Inv (opts : Options) (q : Queue A) : Prop extends q.Kept opts where
  awake : q.consumer = true → q.draining = false → q.buffer ≠ [] → q.Awake opts

variable {opts : Options} {q : Queue A}

theorem Kept.scheduleDrain (kept : q.Kept opts) : q.scheduleDrain.Inv opts := by
  unfold Queue.scheduleDrain
  split
  · rename_i closed
    refine ⟨kept, fun _ opened => ?_⟩
    rw [(kept.shut closed).1] at opened
    exact nomatch opened
  · exact ⟨⟨kept.sound, kept.bounded, kept.shut, kept.handled⟩, fun _ _ _ => .inr (.inl (Nat.succ_pos _))⟩

theorem Kept.drain (kept : q.Kept opts) : q.drain.Inv opts := by
  unfold Queue.drain
  split
  · rename_i idle
    refine ⟨kept, fun consumer opened => ?_⟩
    rw [consumer, opened] at idle
    exact absurd idle (by decide)
  · rename_i wakes
    have opened : q.consumer = true ∧ q.draining = false := by simpa using wakes
    exact ⟨⟨kept.sound, kept.bounded, kept.shut, fun _ => .inl opened.1⟩, fun _ _ _ => .inl rfl⟩

theorem Kept.shuts (kept : q.Kept opts) (draining : q.draining = true) : q.shut.Inv opts := by
  refine ⟨⟨?_, kept.bounded, fun _ => ⟨draining, rfl⟩, fun _ => .inr rfl⟩, fun consumer => nomatch consumer⟩
  refine kept.sound.move ?_ rfl rfl fun k mem => nomatch mem
  have none : tally 0 ([] : List (Message A)) = 0 := rfl
  rw [Queue.shut, Ledger.progress, Ledger.progress, tally_append, none]
  abel

theorem Inv.schedule (inv : q.Inv opts) (data : A) (delayMs : Nat) (name jobId : Option String)
    (attempts : Option Nat) : ((q.schedule opts data delayMs name jobId attempts).getD q).Inv opts := by
  unfold Queue.schedule
  split
  · exact inv
  · rename_i opened
    have opened (closed : q.closed = true) : False := opened (by rw [closed]; rfl)
    exact Kept.scheduleDrain
      ⟨inv.sound.accept rfl rfl, inv.bounded, fun closed => (opened closed).elim, inv.handled⟩

theorem Inv.runMessage (inv : q.Inv opts) (i : Nat) (threw : Bool) :
    (q.runMessage opts i threw).Inv opts := by
  unfold Queue.runMessage
  split
  · exact inv
  rename_i m rest picked
  have perm := pick_perm picked
  have bounded : rest.length + (q.finishing + 1) ≤ opts.concurrency := by
    have bounded := inv.bounded
    rw [active, perm.length_eq, List.length_cons] at bounded
    omega
  dsimp only
  split
  · refine ⟨⟨inv.sound.move ?_ rfl rfl inv.sound.few, bounded, inv.shut, inv.handled⟩, fun _ _ _ => ?_⟩
    · rw [Ledger.progress, Ledger.progress, tally_concat, tally_picked perm]
      abel
    · exact .inr (.inr (.inl (Nat.succ_pos _)))
  split
  · refine ⟨⟨inv.sound.move ?_ rfl rfl inv.sound.few, bounded, inv.shut, inv.handled⟩, fun _ _ _ => ?_⟩
    · rw [Ledger.progress, Ledger.progress, tally_concat, tally_picked perm]
      abel
    · exact .inr (.inr (.inl (Nat.succ_pos _)))
  · rename_i again
    refine ⟨⟨inv.sound.move ?_ rfl rfl (List.forall_mem_append.mpr ⟨inv.sound.few, ?_⟩), bounded,
      fun closed => absurd (.inr closed) again, inv.handled⟩, fun _ _ _ => ?_⟩
    · rw [Ledger.progress, Ledger.progress, tally_concat, tally_picked perm]
      change _ + {(m.content, m.attemptsMade + 1)} + _ + _ + _ + _ = _
      abel
    · refine List.forall_mem_singleton.mpr (.inr ?_)
      change m.attemptsMade + 1 < m.attempts
      omega
    · exact .inr (.inr (.inl (Nat.succ_pos _)))

theorem none_due {buffer : List (Message A)} {now : Nat}
    (none : pick buffer (buffer.findIdx fun m => m.runAt ≤ now) = none) : ∀ m ∈ buffer, now < m.runAt := by
  have past := List.getElem?_eq_none_iff.mp (Option.map_eq_none_iff.mp none)
  intro m mem
  have late := List.findIdx_eq_length.mp (le_antisymm List.findIdx_le_length past) m mem
  simpa using late

theorem Inv.dispatch (inv : q.Inv opts) : (q.dispatch opts).Inv opts := by
  unfold Queue.dispatch
  split
  · exact inv
  rename_i looping
  have looping : q.looping = true := by simpa using looping
  split
  · rename_i stops
    refine ⟨⟨inv.sound, inv.bounded, inv.shut, nofun⟩, fun _ _ waits => ?_⟩
    rcases stops with full | empty
    · unfold active at full
      rcases Nat.eq_zero_or_pos q.finishing with none | ending
      · exact .inr (.inr (.inr (.inl (by rwa [none] at full))))
      · exact .inr (.inr (.inl ending))
    · exact absurd (List.isEmpty_iff.mp empty) waits
  · rename_i goes
    split
    · rename_i none
      refine ⟨⟨inv.sound, inv.bounded, inv.shut, nofun⟩, fun _ _ _ => ?_⟩
      refine .inr (.inr (.inr (.inr ⟨_, List.mem_cons_self .., fun m mem => ?_⟩)))
      have late := none_due none m mem
      have first : nextRun q.buffer ≤ m.runAt := List.min?_getD_le_of_mem (List.mem_map_of_mem mem)
      omega
    · rename_i m rest picked
      have opened (closed : q.closed = true) : False :=
        goes (.inr (List.isEmpty_iff.mpr (inv.shut closed).2))
      split
      · refine ⟨⟨inv.sound.call (pick_perm picked), ?_, fun closed => (opened closed).elim, inv.handled⟩,
          fun _ _ _ => .inl looping⟩
        simp only [active, List.length_append, List.length_singleton] at goes ⊢
        omega
      · rename_i gone
        -- without a handler, the queue is closed and empty
        exact (opened ((inv.handled looping).resolve_left gone)).elim

theorem Inv.step (inv : q.Inv opts) (e : Event A) : (q.step opts e).Inv opts := by
  cases e with
  | enqueue data name jobId attempts => exact inv.schedule ..
  | schedule data delayMs name jobId attempts => exact inv.schedule ..
  | consume => exact Kept.scheduleDrain ⟨inv.sound, inv.bounded, inv.shut, fun _ => .inl rfl⟩
  | immediate =>
      rw [Queue.step]
      split
      · exact inv
      · exact Kept.drain ⟨inv.sound, inv.bounded, inv.shut, inv.handled⟩
  | timer i =>
      rw [Queue.step]
      split
      · exact inv
      · exact Kept.drain ⟨inv.sound, inv.bounded, inv.shut, inv.handled⟩
  | dispatch => exact inv.dispatch
  | settle i threw => exact inv.runMessage i threw
  | finish =>
      rw [Queue.step, finish]
      split
      · exact inv
      · refine Kept.scheduleDrain ⟨inv.sound, ?_, inv.shut, inv.handled⟩
        exact Nat.le_trans (Nat.add_le_add_left (Nat.sub_le ..) _) inv.bounded
  | close drainTimeoutMs =>
      have kept : Kept opts { q with draining := true } :=
        ⟨inv.sound, inv.bounded, fun closed => ⟨rfl, (inv.shut closed).2⟩, inv.handled⟩
      rw [Queue.step, close]
      split
      · exact kept.shuts rfl
      · exact ⟨kept, fun _ opened => nomatch opened⟩
  | closeEnds =>
      rw [Queue.step]
      split
      · rename_i draining
        exact inv.shuts draining
      · exact inv
  | tick ms => exact ⟨⟨inv.sound, inv.bounded, inv.shut, inv.handled⟩, inv.awake⟩

theorem run_inv (opts : Options) (events : List (Event A)) : (run opts events).Inv opts := by
  have sound : ({} : Queue A).Sound :=
    ⟨rfl, rfl, (fun _ mem => nomatch mem), fun _ _ => rfl, fun _ mem => nomatch mem⟩
  have start : Inv opts ({} : Queue A) :=
    ⟨⟨sound, Nat.zero_le _, (fun closed => nomatch closed), fun looping => nomatch looping⟩,
      fun consumer => nomatch consumer⟩
  unfold run
  generalize ({} : Queue A) = q at start
  induction events generalizing q with
  | nil => exact start
  | cons e rest ih => exact ih _ (start.step e)

/-! ## Runs -/

theorem tally_contents (more : Nat) (ms : List (Message A)) :
    (tally more ms).map Prod.fst = (ms.map Message.content : List _) := by
  rw [tally, Multiset.map_map, Multiset.map_coe]
  rfl

/-- Each message that was accepted is in one place, once, and no more messages run than may; the handler
was called with it for one attempt after the other, and no more often than it allows. -/
theorem each_message_once (opts : Options) (events : List (Event A)) :
    let q := run opts events
    ((q.buffer ++ q.running ++ q.completed ++ q.failed ++ q.dropped).map Message.content).Perm
        (q.accepted.map Message.content) ∧
      q.active ≤ opts.concurrency ∧
      ∀ m ∈ q.accepted, ∃ n ≤ max 1 m.attempts, q.callsOf m.ticket = List.range n := by
  intro q
  have inv : q.Inv opts := run_inv opts events
  have once := inv.sound.once
  refine ⟨?_, inv.bounded, fun m mem => ?_⟩
  · refine Multiset.coe_eq_coe.mp (Eq.trans ?_ once)
    simp only [Ledger.progress, Multiset.map_add, tally_contents, List.map_append, ← Multiset.coe_add]
    abel
  · have place : m.content ∈ q.progress.map Prod.fst := by
      rw [once]
      exact Multiset.mem_coe.mpr (List.mem_map_of_mem mem)
    obtain ⟨⟨c, n⟩, here, is⟩ := Multiset.mem_map.mp place
    obtain ⟨told, few⟩ := inv.sound.counted _ here
    obtain rfl : c = m.content := is
    exact ⟨n, few, told⟩

/-- Where nothing is under way, every message that the handler could take is not yet due. -/
theorem no_due_message_waits (opts : Options) (events : List (Event A)) :
    let q := run opts events
    q.consumer = true → q.draining = false → q.looping = false → q.immediates = 0 → q.finishing = 0 →
      q.running.length < opts.concurrency → (∀ due ∈ q.timers, q.clock < due) →
      ∀ m ∈ q.buffer, q.clock < m.runAt := by
  intro q consumer draining looping immediates finishing room pending m mem
  rcases (run_inv opts events).awake consumer draining (List.ne_nil_of_mem mem) with
    loops | soon | ends | full | ⟨due, timer, first⟩
  · exact nomatch loops.symm.trans looping
  · exact absurd immediates (Nat.ne_of_gt soon)
  · exact absurd finishing (Nat.ne_of_gt ends)
  · exact absurd room (Nat.not_lt_of_le full)
  · exact Nat.lt_of_lt_of_le (pending due timer) (first m mem)

theorem no_due_message_waits_later :
    ∀ m ∈ (run {} [.consume, .schedule 7 5 none none none, .immediate, .dispatch, .immediate, .dispatch]).buffer,
      0 < m.runAt :=
  no_due_message_waits {} _ rfl rfl rfl rfl rfl (by decide) (by decide)

end Queue

end AnalyticsBackend.Queues
