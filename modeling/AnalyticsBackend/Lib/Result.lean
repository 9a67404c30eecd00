import Mathlib.Data.List.Forall2

/-!
# Computations that may fail

How `Except` sequences: a computation made of two ends well exactly when both do. A list of results is
related to what they are results of one by one.
-/

namespace AnalyticsBackend.Lib

variable {ε α β : Type}

@[simp] theorem ok_bind (a : α) (f : α → Except ε β) : (Except.ok a >>= f) = f a := rfl

@[simp] theorem error_bind (e : ε) (f : α → Except ε β) :
    ((Except.error e : Except ε α) >>= f) = .error e := rfl

theorem bind_eq_ok {x : Except ε α} {f : α → Except ε β} {b : β} :
    (x >>= f) = .ok b ↔ ∃ a, x = .ok a ∧ f a = .ok b := by
  cases x with
  | error e => simp
  | ok a => simp

/-- A computation behind a check ends well iff the check passes and it does. -/
theorem guard_eq_ok {c : Prop} [Decidable c] {e : ε} {next : Except ε β} {b : β} :
    (if c then .error e else next) = .ok b ↔ ¬c ∧ next = .ok b := by
  split
  · rename_i refused
    exact iff_of_false nofun fun is => is.1 refused
  · rename_i passed
    exact (and_iff_right passed).symm

/-- What passes a check on its result has one. -/
theorem exists_ok_of_any {x : Except ε α} {check : α → Bool} (passes : x.toOption.any check = true) :
    ∃ a, x = .ok a ∧ check a = true := by
  cases x with
  | error e => exact nomatch passes
  | ok a => exact ⟨a, rfl, passes⟩

/-- Checks one after the other pass iff each one does. -/
theorem forM_eq_ok {check : α → Except ε Unit} {l : List α} :
    l.forM check = .ok () ↔ ∀ a ∈ l, check a = .ok () := by
  induction l with
  | nil => exact iff_of_true rfl fun a mem => nomatch mem
  | cons a rest ih =>
      change (check a >>= fun _ => rest.forM check) = _ ↔ _
      rw [bind_eq_ok, List.forall_mem_cons, ← ih]
      constructor
      · rintro ⟨u, first, later⟩
        exact ⟨first, later⟩
      · rintro ⟨first, later⟩
        exact ⟨(), first, later⟩

/-- What a list of computations gives is given by one of them. -/
theorem mem_mapM_ok {f : α → Except ε β} {l : List α} {results : List β}
    (all : l.mapM f = .ok results) {b : β} (mem : b ∈ results) : ∃ a ∈ l, f a = .ok b := by
  induction l generalizing results with
  | nil =>
      rw [List.mapM_nil] at all
      rw [← Except.ok.inj all] at mem
      exact absurd mem List.not_mem_nil
  | cons a rest ih =>
      rw [List.mapM_cons] at all
      obtain ⟨first, is, all⟩ := bind_eq_ok.mp all
      obtain ⟨later, others, all⟩ := bind_eq_ok.mp all
      rw [← Except.ok.inj all] at mem
      rcases List.mem_cons.mp mem with rfl | mem
      · exact ⟨a, List.mem_cons_self .., is⟩
      · obtain ⟨c, among, given⟩ := ih others mem
        exact ⟨c, List.mem_cons_of_mem _ among, given⟩

/-! ## Lists related one by one -/

theorem exists_left_of_forall₂ {R : α → β → Prop} {as : List α} {bs : List β}
    (all : List.Forall₂ R as bs) {b : β} (mem : b ∈ bs) : ∃ a ∈ as, R a b := by
  induction all with
  | nil => exact nomatch mem
  | cons related _ ih =>
      rcases List.mem_cons.mp mem with rfl | later
      · exact ⟨_, List.mem_cons_self .., related⟩
      · obtain ⟨a, inside, holds⟩ := ih later
        exact ⟨a, List.mem_cons_of_mem _ inside, holds⟩

theorem exists_right_of_forall₂ {R : α → β → Prop} {as : List α} {bs : List β}
    (all : List.Forall₂ R as bs) {a : α} (mem : a ∈ as) : ∃ b ∈ bs, R a b := by
  obtain ⟨b, inside, holds⟩ := exists_left_of_forall₂ all.flip mem
  exact ⟨b, inside, holds⟩

end AnalyticsBackend.Lib
