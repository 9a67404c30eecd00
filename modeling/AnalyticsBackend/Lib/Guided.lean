import AnalyticsBackend.Lib.Interleaving

/-!
# Programs that keep to their own history

What a program may do next often depends only on what it has done itself so far, whatever the
others do in between. `Prog.Guides Φ P p R`: from own events that `P` speaks of, every step of `p`
is one that `Φ` allows after the own events before it, and where `p` returns, `R` speaks of all of
them. `System.Reach.guided` turns this into invariants of whole runs.
-/

namespace AnalyticsBackend.Lib

/-- What holds after a result that may be an error. -/
def either {E A T : Type} (Q : A → T → Prop) (F : E → T → Prop) : Except E A → T → Prop
  | .ok a => Q a
  | .error e => F e

namespace Prog

variable {ι L S A B E : Type} {i : ι} {Φ : List (Event ι L S) → Event ι L S → Prop}

/-- The program of process `i` after its events `past`, the newest first. -/
def Guided (i : ι) (Φ : List (Event ι L S) → Event ι L S → Prop)
    (R : A → List (Event ι L S) → Prop) : List (Event ι L S) → Prog L S A → Prop
  | past, .done a => R a past
  | past, .step label act next => ∀ s, Φ past ⟨i, label, s, act s⟩ ∧
      Guided i Φ R (⟨i, label, s, act s⟩ :: past) (next s)

/-- From every history that `P` speaks of. -/
def Guides (i : ι) (Φ : List (Event ι L S) → Event ι L S → Prop) (P : List (Event ι L S) → Prop)
    (p : Prog L S A) (R : A → List (Event ι L S) → Prop) : Prop :=
  ∀ past, P past → p.Guided i Φ R past

theorem Guided.post {R R' : A → List (Event ι L S) → Prop} {p : Prog L S A}
    {past : List (Event ι L S)} (guided : p.Guided i Φ R past)
    (weaker : ∀ a past, R a past → R' a past) : p.Guided i Φ R' past := by
  induction p generalizing past with
  | done a => exact weaker a past guided
  | step label act next ih =>
      intro s
      obtain ⟨may, rest⟩ := guided s
      exact ⟨may, ih s rest⟩

theorem Guided.bind {Q : B → List (Event ι L S) → Prop} {R : A → List (Event ι L S) → Prop}
    {p : Prog L S B} {k : B → Prog L S A} {past : List (Event ι L S)}
    (first : p.Guided i Φ Q past) (second : ∀ b, Guides i Φ (Q b) (k b) R) :
    (p >>= k).Guided i Φ R past := by
  induction p generalizing past with
  | done b => exact second b past first
  | step label act next ih =>
      intro s
      obtain ⟨may, rest⟩ := first s
      exact ⟨may, ih s rest⟩

section Rules

variable {P P' : List (Event ι L S) → Prop} {Q : B → List (Event ι L S) → Prop}
  {R R' : A → List (Event ι L S) → Prop}

theorem Guides.done {a : A} (holds : ∀ past, P past → R a past) :
    Guides i Φ P (.done a : Prog L S A) R :=
  holds

theorem Guides.weaken {p : Prog L S A} (guides : Guides i Φ P p R)
    (stronger : ∀ past, P' past → P past) : Guides i Φ P' p R :=
  fun past holds => guides past (stronger past holds)

theorem Guides.post {p : Prog L S A} (guides : Guides i Φ P p R)
    (weaker : ∀ a past, R a past → R' a past) : Guides i Φ P p R' :=
  fun past holds => (guides past holds).post weaker

/-- What the history tells at once. -/
theorem Guides.of_fact {φ : Prop} {p : Prog L S A} (tells : ∀ past, P past → φ)
    (guides : φ → Guides i Φ P p R) : Guides i Φ P p R :=
  fun past holds => guides (tells past holds) past holds

theorem Guides.bind {p : Prog L S B} {k : B → Prog L S A} (first : Guides i Φ P p Q)
    (second : ∀ b, Guides i Φ (Q b) (k b) R) : Guides i Φ P (p >>= k) R :=
  fun past holds => (first past holds).bind second

theorem Guides.ite {c : Prop} {_ : Decidable c} {p q : Prog L S A} (yes : c → Guides i Φ P p R)
    (no : ¬ c → Guides i Φ P q R) : Guides i Φ P (if c then p else q) R := by
  by_cases h : c
  · rw [if_pos h]
    exact yes h
  · rw [if_neg h]
    exact no h

/-- One atomic step. -/
theorem Guides.update {label : L} {act : S → S} {report : S → A}
    (step : ∀ past s, P past → Φ past ⟨i, label, s, act s⟩ ∧
      R (report s) (⟨i, label, s, act s⟩ :: past)) :
    Guides i Φ P (Prog.update label act report) R :=
  fun past holds s => step past s holds

/-- One stored read. -/
theorem Guides.read {label : L} {f : S → A}
    (step : ∀ past s, P past → Φ past ⟨i, label, s, s⟩ ∧ R (f s) (⟨i, label, s, s⟩ :: past)) :
    Guides i Φ P (Prog.read label f) R :=
  fun past holds s => step past s holds

end Rules

/-! ## Programs that may fail -/

section Except

variable {P : List (Event ι L S) → Prop} {Q : B → List (Event ι L S) → Prop}
  {R : A → List (Event ι L S) → Prop} {F : E → List (Event ι L S) → Prop}

/-- A program that fails ends a sequence: `F` speaks of the events of all failures. -/
theorem Guides.bindE {p : ExceptT E (Prog L S) B} {k : B → ExceptT E (Prog L S) A}
    (first : Guides i Φ P p.run (either Q F))
    (second : ∀ b, Guides i Φ (Q b) (k b).run (either R F)) :
    Guides i Φ P (p >>= k).run (either R F) := by
  refine Guides.bind first fun result => ?_
  cases result with
  | ok b => exact second b
  | error e => exact Guides.done fun _ holds => holds

theorem Guides.pureE {a : A} (holds : ∀ past, P past → R a past) :
    Guides i Φ P (pure a : ExceptT E (Prog L S) A).run (either R F) :=
  holds

theorem Guides.throwE {e : E} (holds : ∀ past, P past → F e past) :
    Guides i Φ P (throw e : ExceptT E (Prog L S) A).run (either R F) :=
  holds

theorem Guides.liftE {p : Prog L S A} (guides : Guides i Φ P p R) :
    Guides i Φ P (ExceptT.lift p : ExceptT E (Prog L S) A).run (either R F) :=
  Guides.bind guides fun _ => Guides.done fun _ holds => holds

end Except

end Prog

/-! ## What the steps of a process add up to -/

section Tally

variable {ι L S : Type}

/-- What each step adds after the steps before it, the newest first, in all. -/
def tally (g : List (Event ι L S) → Event ι L S → Int) : List (Event ι L S) → Int
  | [] => 0
  | e :: past => g past e + tally g past

@[simp] theorem tally_nil (g : List (Event ι L S) → Event ι L S → Int) : tally g [] = 0 := rfl

@[simp] theorem tally_cons (g : List (Event ι L S) → Event ι L S → Int) (e : Event ι L S)
    (past : List (Event ι L S)) : tally g (e :: past) = g past e + tally g past := rfl

variable [DecidableEq ι]

/-- The steps of one process. -/
def ownIn (trace : List (Event ι L S)) (i : ι) : List (Event ι L S) :=
  trace.filter fun e => e.tid = i

theorem World.own_eq (w : World ι L S) (i : ι) : w.own i = ownIn w.trace i := rfl

theorem ownIn_cons (e : Event ι L S) (trace : List (Event ι L S)) (i : ι) :
    ownIn (e :: trace) i = if e.tid = i then e :: ownIn trace i else ownIn trace i := by
  unfold ownIn
  rw [List.filter_cons]
  simp

/-- Where each step adds what it adds to its own process, the processes together make the whole. -/
theorem tally_own (g : List (Event ι L S) → Event ι L S → Int) (tids : Finset ι)
    {trace : List (Event ι L S)} (covered : ∀ e ∈ trace, e.tid ∈ tids) :
    tally (fun past e => g (ownIn past e.tid) e) trace = tids.sum fun i => tally g (ownIn trace i) := by
  induction trace with
  | nil => simp [ownIn]
  | cons e past ih =>
      have rest := ih fun e' mem => covered e' (List.mem_cons_of_mem _ mem)
      have each (i : ι) : tally g (ownIn (e :: past) i) =
          (if i = e.tid then g (ownIn past e.tid) e else 0) + tally g (ownIn past i) := by
        rw [ownIn_cons]
        by_cases own : e.tid = i
        · rw [if_pos own, if_pos own.symm, tally_cons, own]
        · rw [if_neg own, if_neg fun same => own same.symm, zero_add]
      rw [tally_cons, rest, Finset.sum_congr rfl fun i _ => each i, Finset.sum_add_distrib,
        Finset.sum_ite_eq', if_pos (covered e (List.mem_cons_self ..))]

/-- Where every process adds up to nothing, so does the whole. -/
theorem tally_eq_zero {g : List (Event ι L S) → Event ι L S → Int} {trace : List (Event ι L S)}
    (even : ∀ i, tally g (ownIn trace i) = 0) :
    tally (fun past e => g (ownIn past e.tid) e) trace = 0 := by
  rw [tally_own g (trace.map Event.tid).toFinset
    fun e mem => List.mem_toFinset.mpr (List.mem_map_of_mem mem)]
  exact Finset.sum_eq_zero fun i _ => even i

/-- What holds of each step after the steps before it. -/
def AtEach (cond : List (Event ι L S) → Event ι L S → Prop) (trace : List (Event ι L S)) : Prop :=
  ∀ later e earlier, trace = later ++ e :: earlier → cond earlier e

/-- What holds of each step after the steps of its own process before it. -/
abbrev Throughout (cond : List (Event ι L S) → Event ι L S → Prop) (trace : List (Event ι L S)) :
    Prop :=
  AtEach (fun earlier e => cond (ownIn earlier e.tid) e) trace

section AtEach

variable {cond : List (Event ι L S) → Event ι L S → Prop} {e : Event ι L S}
  {trace : List (Event ι L S)}

omit [DecidableEq ι]

theorem AtEach.nil : AtEach cond [] := by
  intro later e earlier split
  cases later <;> exact nomatch split

theorem AtEach.tail (each : AtEach cond (e :: trace)) : AtEach cond trace :=
  fun later e' earlier split => each (e :: later) e' earlier (by rw [split, List.cons_append])

theorem AtEach.head (each : AtEach cond (e :: trace)) : cond trace e :=
  each [] e trace rfl

theorem AtEach.cons (each : AtEach cond trace) (newest : cond trace e) : AtEach cond (e :: trace) := by
  intro later e' earlier split
  cases later with
  | nil =>
      obtain ⟨rfl, rfl⟩ := List.cons.inj split
      exact newest
  | cons d later => exact each later e' earlier (List.cons.inj split).2

/-- `AtEach` as it is computed. -/
def holdsAtEach (check : List (Event ι L S) → Event ι L S → Bool) : List (Event ι L S) → Bool
  | [] => true
  | e :: earlier => check earlier e && holdsAtEach check earlier

theorem AtEach.of_check {check : List (Event ι L S) → Event ι L S → Bool}
    (sound : ∀ earlier e, check earlier e = true → cond earlier e)
    (holds : holdsAtEach check trace = true) : AtEach cond trace := by
  induction trace with
  | nil => exact AtEach.nil
  | cons e earlier ih =>
      obtain ⟨newest, rest⟩ := Bool.and_eq_true_iff.mp holds
      exact (ih rest).cons (sound earlier e newest)

end AtEach

end Tally

namespace System

variable {ι L S A : Type} [DecidableEq ι]

/-- Where every program keeps to its own history, what the steps it allows keep holds in every
configuration, and the running programs still keep to it. -/
theorem Reach.guided {sys : System ι L S A} {Φ : List (Event ι L S) → Event ι L S → Prop}
    {R : ι → A → List (Event ι L S) → Prop} {I : World ι L S → Prop} {s₀ : S}
    (start : ∀ i p, sys.start i p → p.Guided i Φ (R i) [])
    (init : I { store := s₀, trace := [] })
    (env : ∀ w s', I w → sys.env w.store s' → I { store := s', trace := w.trace })
    (step : ∀ w e, I w → Φ (w.own e.tid) e → e.before = w.store →
      sys.ok e.label e.before e.after → I (w.push e))
    {c : Config ι L S A} (reach : Reach sys s₀ c) : I c.world ∧
      (∀ i, c.pool i = none → c.world.own i = []) ∧
      ∀ i p, c.pool i = some p → p.Guided i Φ (R i) (c.world.own i) := by
  induction reach with
  | init => exact ⟨init, fun _ _ => rfl, by simp [Config.idle]⟩
  | next before st ih =>
      obtain ⟨inv, unused, running⟩ := ih
      cases st with
      | start i p fresh may =>
          refine ⟨inv, fun j none => ?_, fun j q some => ?_⟩
          · by_cases same : j = i
            · subst same
              simp at none
            · exact unused j (by simpa [Function.update_of_ne same] using none)
          · by_cases same : j = i
            · subst same
              simp only [Function.update_self, Option.some.injEq] at some
              rw [← some]
              dsimp only
              rw [unused j fresh]
              exact start j p may
            · exact running j q (by simpa [Function.update_of_ne same] using some)
      | act i label f next inPool allowed =>
          obtain ⟨may, rest⟩ := running i _ inPool _
          refine ⟨step _ ⟨i, label, _, _⟩ inv may rfl allowed, fun j none => ?_,
            fun j q some => ?_⟩
          · have other : j ≠ i := by
              rintro rfl
              simp at none
            rw [World.own_push, if_neg fun same => other same.symm]
            exact unused j (by simpa [Function.update_of_ne other] using none)
          · rw [World.own_push]
            by_cases same : j = i
            · subst same
              simp only [Function.update_self, Option.some.injEq] at some
              rw [if_pos rfl, ← some]
              exact rest
            · rw [if_neg fun same' => same same'.symm]
              exact running j q (by simpa [Function.update_of_ne same] using some)
      | env s' may => exact ⟨env _ s' inv may, unused, running⟩

end System

end AnalyticsBackend.Lib
