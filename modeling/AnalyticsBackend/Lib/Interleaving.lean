import Mathlib.Algebra.BigOperators.Group.Finset.Piecewise
import Mathlib.Algebra.Order.BigOperators.Group.Finset
import Mathlib.Algebra.Order.Group.Int
import Mathlib.Algebra.Ring.Int.Defs

/-!
# Interleavings of store programs

A server operation is a sequential program whose every access to the shared store is
one atomic step (one stored read or one single-document update). `Prog` is the syntax
of such programs, `Prog.run` executes one alone, and `System.Reach` interleaves any
number of them, with steps of the environment in between. A process that crashes takes
no further step.

`System.Reach.invariant` and `System.Reach.step_relates` are for what every atomic step keeps by
itself. `System.Reach.sound` has a global invariant, a guarantee that every step gives, and for each
program a chain of assertions that the steps of the others cannot break.
-/

namespace AnalyticsBackend.Lib

/-- A program over a store `S`: it returns, or it takes one atomic step that changes the
store by `act` and goes on with what it saw. -/
inductive Prog (L S A : Type) where
  | done (result : A)
  | step (label : L) (act : S → S) (next : S → Prog L S A)

namespace Prog

variable {L S A B C : Type}

/-- Sequential composition. -/
def bind : Prog L S A → (A → Prog L S B) → Prog L S B
  | .done a, k => k a
  | .step label act next, k => .step label act (fun s => (next s).bind k)

instance : Monad (Prog L S) where
  pure := .done
  bind := Prog.bind

/-- One stored read. -/
def read (label : L) (f : S → A) : Prog L S A :=
  .step label id (fun s => .done (f s))

/-- One atomic update that reports something about the store it found. -/
def update (label : L) (act : S → S) (report : S → A) : Prog L S A :=
  .step label act (fun s => .done (report s))

/-- Go on with the value of a program that may fail; a failure ends the whole. -/
def andThen {E : Type} (p : Prog L S (Except E A)) (k : A → Prog L S (Except E B)) :
    Prog L S (Except E B) :=
  p.bind fun
    | .ok a => k a
    | .error e => .done (.error e)

/-- The program alone, from a store: its result and the store it leaves. -/
def run : Prog L S A → S → A × S
  | .done a, s => (a, s)
  | .step _ act next, s => (next s).run (act s)

@[simp] theorem run_done (a : A) (s : S) : (done a : Prog L S A).run s = (a, s) := rfl

@[simp] theorem run_step (label : L) (act : S → S) (next : S → Prog L S A) (s : S) :
    (step label act next).run s = (next s).run (act s) := rfl

@[simp] theorem pure_eq_done (a : A) : (pure a : Prog L S A) = done a := rfl

@[simp] theorem done_bind (a : A) (k : A → Prog L S B) : (done a >>= k) = k a := rfl

@[simp] theorem step_bind (label : L) (act : S → S) (next : S → Prog L S A)
    (k : A → Prog L S B) :
    (step label act next >>= k) = step label act (fun s => next s >>= k) := rfl

@[simp] theorem run_bind (p : Prog L S A) (k : A → Prog L S B) (s : S) :
    (p >>= k).run s = (k (p.run s).1).run (p.run s).2 := by
  induction p generalizing s with
  | done a => rfl
  | step label act next ih => exact ih s (act s)

/-- Every store that the program passes through when it runs alone meets `I`. -/
def Along (I : S → Prop) : Prog L S A → S → Prop
  | .done _, s => I s
  | .step _ act next, s => I s ∧ (next s).Along I (act s)

@[simp] theorem along_done (I : S → Prop) (a : A) (s : S) :
    (done a : Prog L S A).Along I s ↔ I s := Iff.rfl

@[simp] theorem along_step (I : S → Prop) (label : L) (act : S → S) (next : S → Prog L S A)
    (s : S) : (step label act next).Along I s ↔ I s ∧ (next s).Along I (act s) := Iff.rfl

theorem Along.last {I : S → Prop} {p : Prog L S A} {s : S} (h : p.Along I s) : I (p.run s).2 := by
  induction p generalizing s with
  | done a => exact h
  | step label act next ih => exact ih s h.2

theorem Along.mono {I J : S → Prop} {p : Prog L S A} {s : S} (h : p.Along I s)
    (weaker : ∀ s, I s → J s) : p.Along J s := by
  induction p generalizing s with
  | done a => exact weaker s h
  | step label act next ih => exact ⟨weaker s h.1, ih s h.2⟩

theorem along_bind (I : S → Prop) (p : Prog L S A) (k : A → Prog L S B) (s : S) :
    (p >>= k).Along I s ↔ p.Along I s ∧ (k (p.run s).1).Along I (p.run s).2 := by
  induction p generalizing s with
  | done a =>
      constructor
      · intro h
        refine ⟨?_, h⟩
        cases hk : k a with
        | done b => simpa [hk] using h
        | step label act next => exact (by simpa [hk] using h : I s ∧ _).1
      · exact fun h => h.2
  | step label act next ih => rw [step_bind, along_step, along_step, ih, and_assoc]; rfl

/-- Every atomic step of the program, whatever the steps before it report, meets `Φ`. -/
def Each (Φ : L → (S → S) → Prop) : Prog L S A → Prop
  | .done _ => True
  | .step label act next => Φ label act ∧ ∀ s, (next s).Each Φ

theorem Each.mono {Φ Ψ : L → (S → S) → Prop} {p : Prog L S A} (each : p.Each Φ)
    (weaker : ∀ label act, Φ label act → Ψ label act) : p.Each Ψ := by
  induction p with
  | done a => trivial
  | step label act next ih => exact ⟨weaker label act each.1, fun s => ih s (each.2 s)⟩

theorem Each.bind {Φ : L → (S → S) → Prop} {p : Prog L S B} {k : B → Prog L S A}
    (first : p.Each Φ) (second : ∀ b, (k b).Each Φ) : (p >>= k).Each Φ := by
  induction p with
  | done b => exact second b
  | step label act next ih => exact ⟨first.1, fun s => ih s (first.2 s)⟩

theorem Each.andThen {E : Type} {Φ : L → (S → S) → Prop} {p : Prog L S (Except E B)}
    {k : B → Prog L S (Except E A)} (first : p.Each Φ) (second : ∀ b, (k b).Each Φ) :
    (p.andThen k).Each Φ := by
  refine first.bind fun result => ?_
  cases result with
  | ok b => exact second b
  | error e => trivial

theorem Each.update {Φ : L → (S → S) → Prop} {label : L} {act : S → S} {report : S → A}
    (step : Φ label act) : (Prog.update label act report).Each Φ :=
  ⟨step, fun _ => trivial⟩

theorem Each.read {Φ : L → (S → S) → Prop} {label : L} {f : S → A} (step : Φ label id) :
    (Prog.read label f).Each Φ :=
  ⟨step, fun _ => trivial⟩

/-- The program on a part of a larger store, its steps under the larger system's labels. -/
def onto {M T : Type} (get : T → S) (put : S → T → T) (label : L → M) : Prog L S A → Prog M T A
  | .done a => .done a
  | .step l act next =>
      .step (label l) (fun t => put (act (get t)) t) (fun t => (next (get t)).onto get put label)

section Onto

variable {M T : Type} (get : T → S) (put : S → T → T) (label : L → M)

@[simp] theorem onto_update (l : L) (act : S → S) (report : S → A) :
    (update l act report).onto get put label =
      update (label l) (fun t => put (act (get t)) t) (fun t => report (get t)) := rfl

theorem onto_bind (p : Prog L S B) (k : B → Prog L S A) :
    (p >>= k).onto get put label =
      (p.onto get put label >>= fun b => (k b).onto get put label) := by
  induction p with
  | done b => rfl
  | step l act next ih =>
      simp only [step_bind, onto]
      congr 1
      funext t
      exact ih (get t)

end Onto

/-- Whatever the stores it finds, each step the program may take is one that `Φ` allows after
the steps it has taken itself, and `R` holds of the result and of these steps at the end. -/
def Trail (ok : L → S → S → Prop) (Φ : List (L × S) → L → S → Prop)
    (R : A → List (L × S) → Prop) : List (L × S) → Prog L S A → Prop
  | past, .done a => R a past
  | past, .step label act next => ∀ s, ok label s (act s) →
      Φ past label s ∧ (next s).Trail ok Φ R ((label, s) :: past)

section Trail

variable {ok : L → S → S → Prop} {Φ : List (L × S) → L → S → Prop}

theorem Trail.post {R R' : A → List (L × S) → Prop} {p : Prog L S A} {past : List (L × S)}
    (trail : p.Trail ok Φ R past) (weaker : ∀ a past, R a past → R' a past) :
    p.Trail ok Φ R' past := by
  induction p generalizing past with
  | done a => exact weaker a past trail
  | step label act next ih =>
      intro s allowed
      obtain ⟨may, rest⟩ := trail s allowed
      exact ⟨may, ih s rest⟩

theorem Trail.bind {R : B → List (L × S) → Prop} {Q : A → List (L × S) → Prop} {p : Prog L S B}
    {k : B → Prog L S A} {past : List (L × S)} (first : p.Trail ok Φ R past)
    (second : ∀ b past, R b past → (k b).Trail ok Φ Q past) : (p >>= k).Trail ok Φ Q past := by
  induction p generalizing past with
  | done b => exact second b past first
  | step label act next ih =>
      intro s allowed
      obtain ⟨may, rest⟩ := first s allowed
      exact ⟨may, ih s rest⟩

theorem Trail.andThen {E : Type} {R : Except E B → List (L × S) → Prop}
    {Q : Except E A → List (L × S) → Prop} {p : Prog L S (Except E B)}
    {k : B → Prog L S (Except E A)} {past : List (L × S)} (first : p.Trail ok Φ R past)
    (second : ∀ b past, R (.ok b) past → (k b).Trail ok Φ Q past)
    (failed : ∀ e past, R (.error e) past → Q (.error e) past) :
    (p.andThen k).Trail ok Φ Q past := by
  refine first.bind fun result past holds => ?_
  cases result with
  | ok b => exact second b past holds
  | error e => exact failed e past holds

/-- A program whose every step `Φ` allows after any steps that meet `K`, and that keeps `K`. -/
theorem Trail.of_each {K : List (L × S) → Prop} {p : Prog L S A} {past : List (L × S)}
    (holds : K past)
    (each : p.Each (fun label _ => ∀ past s, K past → Φ past label s ∧ K ((label, s) :: past))) :
    p.Trail ok Φ (fun _ past => K past) past := by
  induction p generalizing past with
  | done a => exact holds
  | step label act next ih =>
      intro s _
      obtain ⟨may, holds'⟩ := each.1 past s holds
      exact ⟨may, ih s holds' (each.2 s)⟩

end Trail

end Prog

/-- One atomic step as it was taken: by whom, under which label, from and to which store. -/
structure Event (ι L S : Type) where
  tid : ι
  label : L
  before : S
  after : S

/-- A store together with the steps taken so far, the newest first. -/
structure World (ι L S : Type) where
  store : S
  trace : List (Event ι L S)

/-- The world after an event. -/
def World.push {ι L S : Type} (w : World ι L S) (e : Event ι L S) : World ι L S :=
  { store := e.after, trace := e :: w.trace }

@[simp] theorem World.push_store {ι L S : Type} (w : World ι L S) (e : Event ι L S) :
    (w.push e).store = e.after := rfl

@[simp] theorem World.push_trace {ι L S : Type} (w : World ι L S) (e : Event ι L S) :
    (w.push e).trace = e :: w.trace := rfl

/-- The events of one process. -/
def World.own {ι L S : Type} [DecidableEq ι] (w : World ι L S) (i : ι) : List (Event ι L S) :=
  w.trace.filter (fun e => e.tid = i)

/-- Pushing an event adds to those of its own process. -/
theorem World.own_push {ι L S : Type} [DecidableEq ι] (w : World ι L S) (e : Event ι L S) (i : ι) :
    (w.push e).own i = if e.tid = i then e :: w.own i else w.own i := by
  by_cases own : e.tid = i <;> simp [World.own, own]

/-- What the events of a trace add up to is what those of each process do. -/
theorem World.sum_own {ι L S : Type} [DecidableEq ι] (w : World ι L S) (f : Event ι L S → Int)
    (tids : Finset ι) (covered : ∀ e ∈ w.trace, e.tid ∈ tids) :
    (w.trace.map f).sum = tids.sum fun i => ((w.own i).map f).sum := by
  obtain ⟨store, trace⟩ := w
  unfold World.own
  induction trace with
  | nil => simp
  | cons e earlier ih =>
      have rest := ih fun e' mem => covered e' (List.mem_cons_of_mem _ mem)
      have split (i : ι) : (((e :: earlier).filter fun e' => e'.tid = i).map f).sum =
          (if i = e.tid then f e else 0) + ((earlier.filter fun e' => e'.tid = i).map f).sum := by
        by_cases own : e.tid = i
        · simp [own]
        · have other : ¬ i = e.tid := fun same => own same.symm
          simp [own, other]
      simp only [List.map_cons, List.sum_cons, split, Finset.sum_add_distrib,
        Finset.sum_ite_eq', covered e (List.mem_cons_self ..), if_true]
      exact congrArg _ rest

/-- Where no process takes more than it gives, none has more than all together. -/
theorem World.own_le_total {ι L S : Type} [DecidableEq ι] {w : World ι L S}
    {f : Event ι L S → Int} (nonneg : ∀ i, 0 ≤ ((w.own i).map f).sum) (i : ι) :
    ((w.own i).map f).sum ≤ (w.trace.map f).sum := by
  rw [w.sum_own f (insert i (w.trace.map Event.tid).toFinset)]
  · exact Finset.single_le_sum (f := fun j => ((w.own j).map f).sum) (fun j _ => nonneg j)
      (Finset.mem_insert_self ..)
  · intro e mem
    exact Finset.mem_insert_of_mem (List.mem_toFinset.mpr (List.mem_map_of_mem mem))

/-- The programs that may be started, what the environment may do to the store, and the
steps a run is allowed to take, from one store to the next (`fun _ _ _ => True` when every
step is). -/
structure System (ι L S A : Type) where
  start : ι → Prog L S A → Prop
  env : S → S → Prop
  ok : L → S → S → Prop

/-- A world and the processes running in it. -/
structure Config (ι L S A : Type) where
  world : World ι L S
  pool : ι → Option (Prog L S A)

/-- No process started yet. -/
def Config.idle {ι L S A : Type} (s : S) : Config ι L S A :=
  { world := { store := s, trace := [] }, pool := fun _ => none }

/-- A move of a scheduler: start a process, let one take a step (nothing happens if it has
returned), or change the store from outside. -/
inductive Move (ι L S A : Type) where
  | start (i : ι) (p : Prog L S A)
  | act (i : ι)
  | env (s : S)

/-- What a move does. -/
def Config.move {ι L S A : Type} [DecidableEq ι] (c : Config ι L S A) : Move ι L S A → Config ι L S A
  | .start i p => { world := c.world, pool := Function.update c.pool i (some p) }
  | .act i =>
      match c.pool i with
      | some (.step label f next) =>
          { world := c.world.push ⟨i, label, c.world.store, f c.world.store⟩
            pool := Function.update c.pool i (some (next c.world.store)) }
      | _ => c
  | .env s => { world := { store := s, trace := c.world.trace }, pool := c.pool }

/-- The process a move is about. -/
def Move.process {ι L S A : Type} : Move ι L S A → Option ι
  | .start i _ => some i
  | .act i => some i
  | .env _ => none

/-- Moves leave the processes alone that they are not about. -/
theorem Config.moves_pool {ι L S A : Type} [DecidableEq ι] {i : ι} {ms : List (Move ι L S A)}
    (others : ∀ m ∈ ms, m.process ≠ some i) (c : Config ι L S A) :
    (ms.foldl Config.move c).pool i = c.pool i := by
  induction ms generalizing c with
  | nil => rfl
  | cons m rest ih =>
      have other := others m (List.mem_cons_self ..)
      rw [List.foldl_cons, ih fun m' mem => others m' (List.mem_cons_of_mem _ mem)]
      cases m with
      | start j p =>
          have apart : i ≠ j := fun same => other (congrArg some same.symm)
          simp [Config.move, Function.update_of_ne apart]
      | act j =>
          have apart : i ≠ j := fun same => other (congrArg some same.symm)
          simp only [Config.move]
          split
          · simp [Function.update_of_ne apart]
          · rfl
      | env s => rfl

/-- From the idle configuration, only the processes of the moves are there. -/
theorem Config.moves_only {ι L S A : Type} [DecidableEq ι] {i : ι} {ms : List (Move ι L S A)}
    {s : S} {p : Prog L S A} (running : (ms.foldl Config.move (.idle s)).pool i = some p) :
    i ∈ ms.filterMap Move.process := by
  by_contra absent
  rw [Config.moves_pool] at running
  · exact nomatch running
  · intro m mem same
    exact absent (List.mem_filterMap.mpr ⟨m, mem, same⟩)

namespace System

variable {ι L S A : Type} [DecidableEq ι]

/-- One step of the system: start a process under an unused name, one atomic step of a
process, or one step of the environment. -/
inductive Step (sys : System ι L S A) : Config ι L S A → Config ι L S A → Prop
  | start {c : Config ι L S A} (i : ι) (p : Prog L S A) (fresh : c.pool i = none)
      (may : sys.start i p) :
      Step sys c { world := c.world, pool := Function.update c.pool i (some p) }
  | act {c : Config ι L S A} (i : ι) (label : L) (f : S → S) (next : S → Prog L S A)
      (running : c.pool i = some (.step label f next))
      (allowed : sys.ok label c.world.store (f c.world.store)) :
      Step sys c
        { world := c.world.push ⟨i, label, c.world.store, f c.world.store⟩
          pool := Function.update c.pool i (some (next c.world.store)) }
  | env {c : Config ι L S A} (s' : S) (may : sys.env c.world.store s') :
      Step sys c { world := { store := s', trace := c.world.trace }, pool := c.pool }

/-- The configurations of the runs from `s₀`, with no process started yet. -/
inductive Reach (sys : System ι L S A) (s₀ : S) : Config ι L S A → Prop
  | init : Reach sys s₀ (.idle s₀)
  | next {c c' : Config ι L S A} : Reach sys s₀ c → Step sys c c' → Reach sys s₀ c'

/-- A run goes on from where it is. -/
theorem Reach.later {sys : System ι L S A} {s₀ : S} {c c' : Config ι L S A} (reach : Reach sys s₀ c)
    (on : Relation.ReflTransGen (Step sys) c c') : Reach sys s₀ c' := by
  induction on with
  | refl => exact reach
  | tail _ step ih => exact .next ih step

/-- What was done stays in the trace. -/
theorem Step.trace {sys : System ι L S A} {c c' : Config ι L S A} (step : Step sys c c') :
    ∃ newer, c'.world.trace = newer ++ c.world.trace := by
  cases step with
  | start i p fresh may => exact ⟨[], rfl⟩
  | act i label f next running allowed => exact ⟨[_], rfl⟩
  | env s' may => exact ⟨[], rfl⟩

theorem trace_later {sys : System ι L S A} {c c' : Config ι L S A}
    (on : Relation.ReflTransGen (Step sys) c c') :
    ∃ newer, c'.world.trace = newer ++ c.world.trace := by
  induction on with
  | refl => exact ⟨[], rfl⟩
  | tail _ step ih =>
      obtain ⟨newer, earlier⟩ := ih
      obtain ⟨newest, last⟩ := step.trace
      exact ⟨newest ++ newer, by rw [last, earlier, List.append_assoc]⟩

/-! ## Runs given by a list of moves -/

/-- When the system may make a move. -/
def Legal (sys : System ι L S A) (c : Config ι L S A) : Move ι L S A → Prop
  | .start i p => c.pool i = none ∧ sys.start i p
  | .act i =>
      match c.pool i with
      | some (.step label f _) => sys.ok label c.world.store (f c.world.store)
      | _ => True
  | .env s => sys.env c.world.store s

theorem Legal.steps {sys : System ι L S A} {c : Config ι L S A} {m : Move ι L S A}
    (legal : sys.Legal c m) : Relation.ReflTransGen (Step sys) c (c.move m) := by
  cases m with
  | start i p => exact .single (.start i p legal.1 legal.2)
  | act i =>
      cases running : c.pool i with
      | none => simpa only [Config.move, running] using .refl
      | some p =>
          cases p with
          | done a => simpa only [Config.move, running] using .refl
          | step label f next =>
              simp only [Legal, running] at legal
              simp only [Config.move, running]
              exact .single (.act i label f next running legal)
  | env s => exact .single (.env s legal)

theorem Reach.move {sys : System ι L S A} {s₀ : S} {c : Config ι L S A} (reach : Reach sys s₀ c)
    {m : Move ι L S A} (legal : sys.Legal c m) : Reach sys s₀ (c.move m) :=
  reach.later legal.steps

/-- A step that is allowed under any label may be taken. -/
theorem legal_act {sys : System ι L S A} {c : Config ι L S A} {i : ι}
    (allowed : ∀ label, sys.ok label c.world.store (c.move (.act i)).world.store) :
    sys.Legal c (.act i) := by
  unfold Legal
  dsimp only
  split
  · rename_i label f next running
    simpa [Config.move, running] using allowed label
  · trivial

/-- The proof obligations of a list of moves. -/
def LegalRun (sys : System ι L S A) : Config ι L S A → List (Move ι L S A) → Prop
  | _, [] => True
  | c, m :: rest => sys.Legal c m ∧ LegalRun sys (c.move m) rest

theorem LegalRun.steps {sys : System ι L S A} {c : Config ι L S A} {ms : List (Move ι L S A)}
    (legal : sys.LegalRun c ms) : Relation.ReflTransGen (Step sys) c (ms.foldl Config.move c) := by
  induction ms generalizing c with
  | nil => exact .refl
  | cons m rest ih => exact legal.1.steps.trans (ih legal.2)

theorem Reach.moves {sys : System ι L S A} {s₀ : S} {c : Config ι L S A} (reach : Reach sys s₀ c)
    {ms : List (Move ι L S A)} (legal : sys.LegalRun c ms) :
    Reach sys s₀ (ms.foldl Config.move c) :=
  reach.later legal.steps

theorem LegalRun.append {sys : System ι L S A} {c : Config ι L S A} {ms ms' : List (Move ι L S A)}
    (first : sys.LegalRun c ms) (second : sys.LegalRun (ms.foldl Config.move c) ms') :
    sys.LegalRun c (ms ++ ms') := by
  induction ms generalizing c with
  | nil => exact second
  | cons m rest ih => exact ⟨first.1, ih first.2 second⟩

/-- Where every step is allowed, any number of steps of a process is. -/
theorem LegalRun.acts {sys : System ι L S A} (free : ∀ label s s', sys.ok label s s') (i : ι)
    (n : Nat) (c : Config ι L S A) : sys.LegalRun c (List.replicate n (.act i)) := by
  induction n generalizing c with
  | zero => trivial
  | succ n ih =>
      refine ⟨?_, ih _⟩
      unfold Legal
      dsimp only
      split
      · exact free _ _ _
      · trivial

/-- A process takes a number of steps. -/
def go (i : ι) (n : Nat) (c : Config ι L S A) : Config ι L S A :=
  (List.replicate n (.act i)).foldl Config.move c

/-- A process is started and takes a number of steps. -/
def begin (i : ι) (p : Prog L S A) (n : Nat) (c : Config ι L S A) : Config ι L S A :=
  go i n (c.move (.start i p))

/-- What a process does when it takes a number of steps. -/
theorem goes {sys : System ι L S A} (free : ∀ label s s', sys.ok label s s') (i : ι) (n : Nat)
    (c : Config ι L S A) : Relation.ReflTransGen (Step sys) c (go i n c) :=
  (LegalRun.acts free i n c).steps

theorem begins {sys : System ι L S A} (free : ∀ label s s', sys.ok label s s')
    {c : Config ι L S A} {i : ι} {p : Prog L S A} (fresh : (c.pool i).isNone = true)
    (may : sys.start i p) (n : Nat) : Relation.ReflTransGen (Step sys) c (begin i p n c) :=
  .head (.start i p (Option.isNone_iff_eq_none.mp fresh) may) (goes free i n _)

theorem Reach.go {sys : System ι L S A} (free : ∀ label s s', sys.ok label s s') {s₀ : S}
    {c : Config ι L S A} (reach : Reach sys s₀ c) (i : ι) (n : Nat) :
    Reach sys s₀ (System.go i n c) :=
  reach.later (goes free i n c)

theorem Reach.begin {sys : System ι L S A} (free : ∀ label s s', sys.ok label s s') {s₀ : S}
    {c : Config ι L S A} (reach : Reach sys s₀ c) {i : ι} {p : Prog L S A}
    (fresh : (c.pool i).isNone = true) (may : sys.start i p) (n : Nat) :
    Reach sys s₀ (System.begin i p n c) :=
  reach.later (begins free fresh may n)

/-- No process is between two steps. -/
def Finished (c : Config ι L S A) : Prop :=
  ∀ i p, c.pool i = some p → ∃ a, p = .done a

/-- A process is not between two steps. -/
def returned (c : Config ι L S A) (i : ι) : Bool :=
  match c.pool i with
  | some (.step ..) => false
  | _ => true

/-- Only the processes of a list are there. -/
def Uses (used : List ι) (c : Config ι L S A) : Prop :=
  ∀ i, i ∉ used → c.pool i = none

omit [DecidableEq ι] in
theorem Uses.idle (s : S) : Uses [] (Config.idle s : Config ι L S A) :=
  fun _ _ => rfl

theorem Uses.go {used : List ι} {c : Config ι L S A} (uses : Uses used c) (i : ι) (n : Nat) :
    Uses used (System.go i n c) := by
  unfold System.go
  induction n generalizing c with
  | zero => exact uses
  | succ n ih =>
      rw [List.replicate_succ, List.foldl_cons]
      refine ih fun j unused => ?_
      have none := uses j unused
      unfold Config.move
      dsimp only
      split
      · rename_i label f next inPool
        have apart : j ≠ i := by
          rintro rfl
          rw [none] at inPool
          exact nomatch inPool
        simp [Function.update_of_ne apart, none]
      · exact none

theorem Uses.begin {used : List ι} {c : Config ι L S A} (uses : Uses used c) (i : ι)
    (p : Prog L S A) (n : Nat) : Uses (i :: used) (System.begin i p n c) := by
  refine Uses.go (fun j unused => ?_) i n
  simp only [List.mem_cons, not_or] at unused
  simp [Config.move, Function.update_of_ne unused.1, uses j unused.2]

omit [DecidableEq ι] in
theorem Uses.fresh {used : List ι} {c : Config ι L S A} (uses : Uses used c) {i : ι}
    (unused : i ∉ used) : (c.pool i).isNone = true := by
  rw [uses i unused, Option.isNone_none]

theorem Uses.finished {used : List ι} {c : Config ι L S A} (uses : Uses used c)
    (allReturned : used.all (returned c) = true) : Finished c := by
  intro i p running
  have mem : i ∈ used := by
    by_contra unused
    rw [uses i unused] at running
    exact nomatch running
  have returned := List.all_eq_true.mp allReturned i mem
  unfold System.returned at returned
  rw [running] at returned
  cases p with
  | done a => exact ⟨a, rfl⟩
  | step label act next => exact nomatch returned

/-- Whether a process may take its next step. -/
instance Legal.decidableAct {sys : System ι L S A} [∀ label s s', Decidable (sys.ok label s s')]
    (c : Config ι L S A) (i : ι) : Decidable (sys.Legal c (.act i)) :=
  match running : c.pool i with
  | some (.step label f _) =>
      decidable_of_iff (sys.ok label c.world.store (f c.world.store)) (by simp [Legal, running])
  | some (.done _) => isTrue (by simp [Legal, running])
  | none => isTrue (by simp [Legal, running])

/-- Whether a process may take its next steps. -/
instance LegalRun.decidableActs {sys : System ι L S A}
    [∀ label s s', Decidable (sys.ok label s s')] (i : ι) :
    (n : Nat) → (c : Config ι L S A) → Decidable (sys.LegalRun c (List.replicate n (.act i)))
  | 0, _ => isTrue trivial
  | n + 1, c => @instDecidableAnd _ _ (Legal.decidableAct c i) (decidableActs i n (c.move (.act i)))

/-! ## What every step of every program does -/

/-- The rest of a running program takes only steps that the programs as started take. -/
theorem Reach.running_each {sys : System ι L S A} {Φ : L → (S → S) → Prop} {s₀ : S}
    (start : ∀ i p, sys.start i p → p.Each Φ) {c : Config ι L S A} (reach : Reach sys s₀ c)
    {i : ι} {p : Prog L S A} (running : c.pool i = some p) : p.Each Φ := by
  induction reach generalizing i p with
  | init => cases running
  | next _ step ih =>
      cases step with
      | start j q fresh may =>
          by_cases h : i = j
          · subst h
            simp only [Function.update_self, Option.some.injEq] at running
            exact running ▸ start i q may
          · exact ih (by simpa [Function.update_of_ne h] using running)
      | act j label f next before allowed =>
          by_cases h : i = j
          · subst h
            simp only [Function.update_self, Option.some.injEq] at running
            exact running ▸ (ih before).2 _
          · exact ih (by simpa [Function.update_of_ne h] using running)
      | env s' may => exact ih running

/-- A relation of the stores around a step that the environment and every atomic step of
every program keep to. -/
theorem Reach.step_relates {sys : System ι L S A} {R : S → S → Prop} {s₀ : S}
    (refl : ∀ s, R s s) (env : ∀ s s', sys.env s s' → R s s')
    (start : ∀ i p, sys.start i p → p.Each (fun _ act => ∀ s, R s (act s)))
    {c c' : Config ι L S A} (reach : Reach sys s₀ c) (step : Step sys c c') :
    R c.world.store c'.world.store := by
  cases step with
  | start i p fresh may => exact refl _
  | act i label f next running allowed => exact (reach.running_each start running).1 _
  | env s' may => exact env _ _ may

/-- An invariant of the world that every atomic step of every program keeps, whatever its
process knows, holds in every configuration. -/
theorem Reach.invariant {sys : System ι L S A} {I : World ι L S → Prop} {s₀ : S}
    (init : I { store := s₀, trace := [] })
    (env : ∀ w s', I w → sys.env w.store s' → I { store := s', trace := w.trace })
    (start : ∀ i p, sys.start i p → p.Each (fun label act => ∀ w, I w →
      sys.ok label w.store (act w.store) → ∀ j, I (w.push ⟨j, label, w.store, act w.store⟩)))
    {c : Config ι L S A} (reach : Reach sys s₀ c) : I c.world := by
  induction reach with
  | init => exact init
  | next before step ih =>
      cases step with
      | start i p fresh may => exact ih
      | act i label f next running allowed =>
          exact (before.running_each start running).1 _ ih allowed i
      | env s' may => exact env _ s' ih may

/-! ## What a process has done itself -/

/-- The steps of one process, with the stores they found, the newest first. -/
def steps (i : ι) (trace : List (Event ι L S)) : List (L × S) :=
  (trace.filter (fun e => e.tid = i)).map fun e => (e.label, e.before)

theorem steps_cons_self (i : ι) (label : L) (s s' : S) (trace : List (Event ι L S)) :
    steps i (⟨i, label, s, s'⟩ :: trace) = (label, s) :: steps i trace := by
  simp [steps]

theorem steps_cons_other {i : ι} {e : Event ι L S} (other : e.tid ≠ i)
    (trace : List (Event ι L S)) : steps i (e :: trace) = steps i trace := by
  simp [steps, other]

/-- Every event of the trace is one that `Φ` allows after the earlier ones of its process. -/
def Trailed (Φ : List (L × S) → L → S → Prop) (trace : List (Event ι L S)) : Prop :=
  ∀ later e earlier, trace = later ++ e :: earlier → Φ (steps e.tid earlier) e.label e.before

theorem Trailed.cons {Φ : List (L × S) → L → S → Prop} {e : Event ι L S}
    {trace : List (Event ι L S)} (trailed : Trailed Φ trace)
    (may : Φ (steps e.tid trace) e.label e.before) : Trailed Φ (e :: trace) := by
  intro later e' earlier split
  cases later with
  | nil =>
      obtain ⟨rfl, rfl⟩ := List.cons.inj split
      exact may
  | cons e'' later => exact trailed later e' earlier (List.cons.inj split).2

/-- Where every program keeps to a trail, so does every process of every run. -/
theorem Reach.trailed {sys : System ι L S A} {Φ : List (L × S) → L → S → Prop}
    {R : A → List (L × S) → Prop} {s₀ : S}
    (start : ∀ i p, sys.start i p → p.Trail sys.ok Φ R []) {c : Config ι L S A}
    (reach : Reach sys s₀ c) : Trailed Φ c.world.trace ∧
      (∀ i, c.pool i = none → steps i c.world.trace = []) ∧
      ∀ i p, c.pool i = some p → p.Trail sys.ok Φ R (steps i c.world.trace) := by
  induction reach with
  | init =>
      refine ⟨fun later e earlier split => ?_, fun _ _ => rfl, by simp [Config.idle]⟩
      simp [Config.idle] at split
  | next before step ih =>
      obtain ⟨trailed, unused, running⟩ := ih
      cases step with
      | start i p fresh may =>
          refine ⟨trailed, ?_, ?_⟩
          · intro j none
            by_cases same : j = i
            · subst same; simp at none
            · exact unused j (by simpa [Function.update_of_ne same] using none)
          · intro j q some
            by_cases same : j = i
            · subst same
              simp only [Function.update_self, Option.some.injEq] at some
              rw [← some]
              dsimp only
              rw [unused j fresh]
              exact start j p may
            · exact running j q (by simpa [Function.update_of_ne same] using some)
      | act i label f next inPool allowed =>
          obtain ⟨may, rest⟩ := running i _ inPool _ allowed
          refine ⟨trailed.cons may, ?_, ?_⟩
          · intro j none
            have other : j ≠ i := by rintro rfl; simp at none
            rw [World.push_trace, steps_cons_other (fun same => other same.symm)]
            exact unused j (by simpa [Function.update_of_ne other] using none)
          · intro j q some
            by_cases same : j = i
            · subst same
              simp only [Function.update_self, Option.some.injEq] at some
              rw [← some, World.push_trace, steps_cons_self]
              exact rest
            · rw [World.push_trace, steps_cons_other (fun same' => same same'.symm)]
              exact running j q (by simpa [Function.update_of_ne same] using some)
      | env s' may => exact ⟨trailed, unused, running⟩

/-! ## The proof rule -/

section Rule

variable {B : Type} (env : S → S → Prop) (ok : L → S → S → Prop) (I : World ι L S → Prop)
  (G : Event ι L S → Prop)

/-- An assertion of process `i` that no step of another process or of the environment
breaks. -/
def Stable (i : ι) (P : World ι L S → Prop) : Prop :=
  (∀ w e, I w → P w → e.tid ≠ i → e.before = w.store → G e → I (w.push e) → P (w.push e)) ∧
  ∀ w s', I w → P w → env w.store s' → P { store := s', trace := w.trace }

/-- Program `p` of process `i`, entered under assertion `P`: every step keeps the
invariant, gives the guarantee and reaches a stable assertion under which the rest is
safe; the postcondition `Q` holds where it returns. -/
def Safe (i : ι) (Q : A → World ι L S → Prop) : Prog L S A → (World ι L S → Prop) → Prop
  | .done a, P => ∀ w, I w → P w → Q a w
  | .step label f next, P => ∀ w, I w → P w → ok label w.store (f w.store) →
      I (w.push ⟨i, label, w.store, f w.store⟩) ∧ G ⟨i, label, w.store, f w.store⟩ ∧
      ∃ P', Stable env I G i P' ∧ P' (w.push ⟨i, label, w.store, f w.store⟩) ∧
        Safe i Q (next w.store) P'

variable {env ok I G}

/-- An assertion about a process's own events only is stable. -/
theorem Stable.own (i : ι) (P : List (Event ι L S) → Prop) :
    Stable env I G i (fun w => P (w.own i)) := by
  constructor
  · intro w e _ hP other _ _ _
    simpa [World.own, other] using hP
  · intro w s' _ hP _
    exact hP

omit [DecidableEq ι] in
theorem Stable.and {i : ι} {P R : World ι L S → Prop} (hP : Stable env I G i P)
    (hR : Stable env I G i R) : Stable env I G i (fun w => P w ∧ R w) := by
  constructor
  · intro w e hI h other before hG hI'
    exact ⟨hP.1 w e hI h.1 other before hG hI', hR.1 w e hI h.2 other before hG hI'⟩
  · intro w s' hI h may
    exact ⟨hP.2 w s' hI h.1 may, hR.2 w s' hI h.2 may⟩

omit [DecidableEq ι] in
theorem Stable.all {X : Type} {i : ι} {P : X → World ι L S → Prop}
    (hP : ∀ x, Stable env I G i (P x)) : Stable env I G i (fun w => ∀ x, P x w) := by
  constructor
  · intro w e hI h other before hG hI' x
    exact (hP x).1 w e hI (h x) other before hG hI'
  · intro w s' hI h may x
    exact (hP x).2 w s' hI (h x) may

omit [DecidableEq ι] in
theorem Stable.imp {i : ι} {φ : Prop} {P : World ι L S → Prop} (hP : φ → Stable env I G i P) :
    Stable env I G i (fun w => φ → P w) := by
  constructor
  · intro w e hI h other before hG hI' fact
    exact (hP fact).1 w e hI (h fact) other before hG hI'
  · intro w s' hI h may fact
    exact (hP fact).2 w s' hI (h fact) may

omit [DecidableEq ι] in
theorem Safe.done {i : ι} {Q : A → World ι L S → Prop} {a : A} {P : World ι L S → Prop}
    (holds : ∀ w, I w → P w → Q a w) : Safe env ok I G i Q (.done a) P :=
  holds

omit [DecidableEq ι] in
/-- A stronger entry assertion. -/
theorem Safe.weaken {i : ι} {Q : A → World ι L S → Prop} {p : Prog L S A}
    {P P' : World ι L S → Prop} (safe : Safe env ok I G i Q p P)
    (stronger : ∀ w, I w → P' w → P w) : Safe env ok I G i Q p P' := by
  cases p with
  | done a => exact fun w hI hP => safe w hI (stronger w hI hP)
  | step label f next => exact fun w hI hP => safe w hI (stronger w hI hP)

omit [DecidableEq ι] in
/-- A weaker postcondition. -/
theorem Safe.post {i : ι} {Q Q' : A → World ι L S → Prop} {p : Prog L S A}
    {P : World ι L S → Prop} (safe : Safe env ok I G i Q p P)
    (weaker : ∀ a w, Q a w → Q' a w) : Safe env ok I G i Q' p P := by
  induction p generalizing P with
  | done a => exact fun w hI hP => weaker a w (safe w hI hP)
  | step label f next ih =>
      intro w hI hP allowed
      obtain ⟨hI', hG, P', stable', hP', safe'⟩ := safe w hI hP allowed
      exact ⟨hI', hG, P', stable', hP', ih w.store safe'⟩

omit [DecidableEq ι] in
/-- A fact that the entry assertion implies may be assumed. -/
theorem Safe.of_fact {i : ι} {Q : A → World ι L S → Prop} {p : Prog L S A}
    {P : World ι L S → Prop} {φ : Prop} (fact : ∀ w, I w → P w → φ)
    (safe : φ → Safe env ok I G i Q p P) : Safe env ok I G i Q p P := by
  by_cases h : φ
  · exact safe h
  · cases p with
    | done a => exact fun w hI hP => absurd (fact w hI hP) h
    | step label f next => exact fun w hI hP => absurd (fact w hI hP) h

omit [DecidableEq ι] in
/-- Sequential composition: the postcondition of the first program, read as an
assertion for each result, is the entry assertion of the second. -/
theorem Safe.bind {i : ι} {R : B → World ι L S → Prop} {Q : A → World ι L S → Prop}
    {p : Prog L S B} {k : B → Prog L S A} {P : World ι L S → Prop}
    (first : Safe env ok I G i R p P) (second : ∀ b, Safe env ok I G i Q (k b) (R b)) :
    Safe env ok I G i Q (p >>= k) P := by
  induction p generalizing P with
  | done b => exact (second b).weaken first
  | step label f next ih =>
      intro w hI hP allowed
      obtain ⟨hI', hG, P', stable', hP', safe'⟩ := first w hI hP allowed
      exact ⟨hI', hG, P', stable', hP', ih w.store safe'⟩

omit [DecidableEq ι] in
/-- Sequential composition of programs that may fail. -/
theorem Safe.andThen {E C : Type} {i : ι} {R : Except E B → World ι L S → Prop}
    {Q : Except E C → World ι L S → Prop} {p : Prog L S (Except E B)}
    {k : B → Prog L S (Except E C)} {P : World ι L S → Prop} (first : Safe env ok I G i R p P)
    (second : ∀ b, Safe env ok I G i Q (k b) (R (.ok b)))
    (failed : ∀ e w, I w → R (.error e) w → Q (.error e) w) :
    Safe env ok I G i Q (p.andThen k) P := by
  refine Safe.bind first fun result => ?_
  cases result with
  | ok b => exact second b
  | error e => exact failed e

omit [DecidableEq ι] in
/-- One atomic update: what it establishes for each report has to be stable. -/
theorem Safe.update {i : ι} {R : B → World ι L S → Prop} {P : World ι L S → Prop} {label : L}
    {act : S → S} {report : S → B} (stable : ∀ b, Stable env I G i (R b))
    (step : ∀ w, I w → P w → ok label w.store (act w.store) →
      I (w.push ⟨i, label, w.store, act w.store⟩) ∧ G ⟨i, label, w.store, act w.store⟩ ∧
        R (report w.store) (w.push ⟨i, label, w.store, act w.store⟩)) :
    Safe env ok I G i R (Prog.update label act report) P := by
  intro w hI hP allowed
  obtain ⟨hI', hG, hR⟩ := step w hI hP allowed
  exact ⟨hI', hG, R (report w.store), stable _, hR, fun _ _ h => h⟩

omit [DecidableEq ι] in
/-- A parameter of the entry assertion may be fixed. -/
theorem Safe.exists_entry {X : Type} {i : ι} {Q : A → World ι L S → Prop} {p : Prog L S A}
    {P : X → World ι L S → Prop} (safe : ∀ x, Safe env ok I G i Q p (P x)) :
    Safe env ok I G i Q p (fun w => ∃ x, P x w) := by
  cases p with
  | done a =>
      rintro w hI ⟨x, hP⟩
      exact safe x w hI hP
  | step label f next =>
      rintro w hI ⟨x, hP⟩ allowed
      exact safe x w hI hP allowed

/-- An assertion that no step at all breaks. -/
def Persistent (env : S → S → Prop) (I : World ι L S → Prop) (G : Event ι L S → Prop)
    (P : World ι L S → Prop) : Prop :=
  (∀ w e, I w → P w → e.before = w.store → G e → I (w.push e) → P (w.push e)) ∧
  ∀ w s', I w → P w → env w.store s' → P { store := s', trace := w.trace }

omit [DecidableEq ι] in
theorem Persistent.stable {P : World ι L S → Prop} (persistent : Persistent env I G P) (i : ι) :
    Stable env I G i P :=
  ⟨fun w e hI hP _ => persistent.1 w e hI hP, persistent.2⟩

omit [DecidableEq ι] in
/-- What a trace says, and every longer one. -/
theorem Persistent.of_trace {T : List (Event ι L S) → Prop}
    (grows : ∀ e trace, T trace → T (e :: trace)) : Persistent env I G (fun w => T w.trace) :=
  ⟨fun w e _ holds _ _ _ => grows e w.trace holds, fun _ _ _ holds _ => holds⟩

omit [DecidableEq ι] in
theorem Persistent.and {P R : World ι L S → Prop} (hP : Persistent env I G P)
    (hR : Persistent env I G R) : Persistent env I G (fun w => P w ∧ R w) :=
  ⟨fun w e hI h before hG hI' => ⟨hP.1 w e hI h.1 before hG hI', hR.1 w e hI h.2 before hG hI'⟩,
    fun w s' hI h may => ⟨hP.2 w s' hI h.1 may, hR.2 w s' hI h.2 may⟩⟩

omit [DecidableEq ι] in
theorem Persistent.all {X : Type} {P : X → World ι L S → Prop}
    (hP : ∀ x, Persistent env I G (P x)) : Persistent env I G (fun w => ∀ x, P x w) :=
  ⟨fun w e hI h before hG hI' x => (hP x).1 w e hI (h x) before hG hI',
    fun w s' hI h may x => (hP x).2 w s' hI (h x) may⟩

omit [DecidableEq ι] in
theorem Persistent.imp {φ : Prop} {P : World ι L S → Prop} (hP : Persistent env I G P) :
    Persistent env I G (fun w => φ → P w) :=
  ⟨fun w e hI h before hG hI' fact => hP.1 w e hI (h fact) before hG hI',
    fun w s' hI h may fact => hP.2 w s' hI (h fact) may⟩

omit [DecidableEq ι] in
/-- A lower bound of something that nobody makes smaller. -/
theorem Persistent.le {T : Type} [Preorder T] {f : S → T} (outside : ∀ s s', env s s' → f s ≤ f s')
    (steps : ∀ e, G e → f e.before ≤ f e.after) (t : T) :
    Persistent env I G (fun w => t ≤ f w.store) := by
  constructor
  · intro w e _ hP before hG _
    have later := steps e hG
    rw [before] at later
    exact le_trans hP later
  · intro w s' _ hP may
    exact le_trans hP (outside _ _ may)

omit [DecidableEq ι] in
/-- Such a bound, of a clock for instance, is stable. -/
theorem Stable.le {T : Type} [Preorder T] {f : S → T} (outside : ∀ s s', env s s' → f s ≤ f s')
    (steps : ∀ e, G e → f e.before ≤ f e.after) (i : ι) (t : T) :
    Stable env I G i (fun w => t ≤ f w.store) :=
  (Persistent.le outside steps t).stable i

omit [DecidableEq ι] in
/-- A program whose every step keeps the invariant, the guarantee and a stable assertion. -/
theorem Safe.of_kept {i : ι} {P : World ι L S → Prop} {p : Prog L S A}
    (stable : Stable env I G i P)
    (each : p.Each (fun label act => ∀ w, I w → P w → ok label w.store (act w.store) →
      I (w.push ⟨i, label, w.store, act w.store⟩) ∧ G ⟨i, label, w.store, act w.store⟩ ∧
        P (w.push ⟨i, label, w.store, act w.store⟩))) :
    Safe env ok I G i (fun _ w => P w) p P := by
  induction p with
  | done a => exact fun w _ hP => hP
  | step label act next ih =>
      intro w hI hP allowed
      obtain ⟨hI', hG, hP'⟩ := each.1 w hI hP allowed
      exact ⟨hI', hG, P, stable, hP', ih w.store (each.2 w.store)⟩

omit [DecidableEq ι] in
/-- A program whose every step keeps the invariant and gives the guarantee is safe, and
keeps every persistent assertion. -/
theorem Safe.of_each {i : ι} {P : World ι L S → Prop} {p : Prog L S A}
    (persistent : Persistent env I G P)
    (each : p.Each (fun label act => ∀ w, I w → ok label w.store (act w.store) →
      I (w.push ⟨i, label, w.store, act w.store⟩) ∧ G ⟨i, label, w.store, act w.store⟩)) :
    Safe env ok I G i (fun _ w => P w) p P := by
  refine Safe.of_kept (persistent.stable i) (each.mono ?_)
  intro label act step w hI hP allowed
  obtain ⟨hI', hG⟩ := step w hI allowed
  exact ⟨hI', hG, persistent.1 w _ hI hP rfl hG hI'⟩

variable (sys : System ι L S A) (I : World ι L S → Prop) (G : Event ι L S → Prop)
  (Q : ι → A → World ι L S → Prop)

/-- What the rule asks of a system started from `s₀`. -/
structure Discipline (s₀ : S) : Prop where
  init : I { store := s₀, trace := [] }
  env : ∀ w s', I w → sys.env w.store s' → I { store := s', trace := w.trace }
  start : ∀ i p, sys.start i p → ∃ P, Stable sys.env I G i P ∧
    (∀ w, I w → (∀ e ∈ w.trace, e.tid ≠ i) → P w) ∧ Safe sys.env sys.ok I G i (Q i) p P

/-- What the rule gives in every configuration: the invariant, the guarantee of every
event, and for each process a stable assertion that holds and makes its rest safe. -/
structure Held (c : Config ι L S A) : Prop where
  inv : I c.world
  events : ∀ e ∈ c.world.trace, G e
  unused : ∀ i, c.pool i = none → ∀ e ∈ c.world.trace, e.tid ≠ i
  running : ∀ i p, c.pool i = some p →
    ∃ P, Stable sys.env I G i P ∧ P c.world ∧ Safe sys.env sys.ok I G i (Q i) p P

variable {sys I G Q}

/-- One step of the system keeps what the rule gives. -/
theorem Held.step {s₀ : S} (rule : Discipline sys I G Q s₀) {c c' : Config ι L S A}
    (held : Held sys I G Q c) (step : Step sys c c') : Held sys I G Q c' := by
  cases step with
  | start i p fresh may =>
      refine ⟨held.inv, held.events, ?_, ?_⟩
      · intro j hj
        by_cases h : j = i
        · subst h; simp at hj
        · exact held.unused j (by simpa [Function.update_of_ne h] using hj)
      · intro j q hj
        by_cases h : j = i
        · subst h
          obtain ⟨P, stable, initial, safe⟩ := rule.start j p may
          simp only [Function.update_self, Option.some.injEq] at hj
          subst hj
          exact ⟨P, stable, initial _ held.inv (held.unused j fresh), safe⟩
        · exact held.running j q (by simpa [Function.update_of_ne h] using hj)
  | act i label f next running allowed =>
      obtain ⟨P, _, hP, safe⟩ := held.running i _ running
      obtain ⟨hI, hG, P', stable', hP', safe'⟩ := safe _ held.inv hP allowed
      refine ⟨hI, ?_, ?_, ?_⟩
      · intro e he
        rcases List.mem_cons.mp he with rfl | he
        · exact hG
        · exact held.events e he
      · intro j hj e he
        have hji : j ≠ i := by rintro rfl; simp at hj
        rcases List.mem_cons.mp he with rfl | he
        · exact fun h => hji h.symm
        · exact held.unused j (by simpa [Function.update_of_ne hji] using hj) e he
      · intro j q hj
        by_cases h : j = i
        · subst h
          simp only [Function.update_self, Option.some.injEq] at hj
          subst hj
          exact ⟨P', stable', hP', safe'⟩
        · obtain ⟨R, stableR, hR, safeR⟩ :=
            held.running j q (by simpa [Function.update_of_ne h] using hj)
          exact ⟨R, stableR, stableR.1 _ _ held.inv hR (fun hh => h hh.symm) rfl hG hI, safeR⟩
  | env s' may =>
      refine ⟨rule.env _ s' held.inv may, held.events, held.unused, ?_⟩
      intro j q hj
      obtain ⟨R, stableR, hR, safeR⟩ := held.running j q hj
      exact ⟨R, stableR, stableR.2 _ s' held.inv hR may, safeR⟩

/-- Soundness of the rule, by induction on the run. -/
theorem Reach.sound {s₀ : S} (rule : Discipline sys I G Q s₀) {c : Config ι L S A}
    (reach : Reach sys s₀ c) : Held sys I G Q c := by
  induction reach with
  | init =>
      exact ⟨rule.init, by simp [Config.idle], by simp [Config.idle], by simp [Config.idle]⟩
  | next _ step ih => exact ih.step rule step

/-- The postcondition of a process that has returned holds, and goes on holding. -/
theorem Reach.result {s₀ : S} (rule : Discipline sys I G Q s₀) {c : Config ι L S A}
    (reach : Reach sys s₀ c) {i : ι} {a : A} (returned : c.pool i = some (.done a)) :
    Q i a c.world := by
  have held := reach.sound rule
  obtain ⟨P, _, hP, safe⟩ := held.running i _ returned
  exact safe _ held.inv hP

end Rule

end System

end AnalyticsBackend.Lib
