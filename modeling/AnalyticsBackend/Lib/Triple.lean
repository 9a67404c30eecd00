import AnalyticsBackend.Lib.Interleaving

/-!
# Triples for programs that run alone

`Triple I P p Q`: from a store that meets `P`, program `p` passes only through stores that
meet `I`, and returns a result and a store that meet `Q`. Programs always return, so this
is total correctness.
-/

namespace AnalyticsBackend.Lib.Prog

variable {L S A B : Type} {I : S → Prop}

/-- Pre- and postcondition of a program, with an invariant of every store in between. -/
def Triple (I P : S → Prop) (p : Prog L S A) (Q : A → S → Prop) : Prop :=
  ∀ s, P s → p.Along I s ∧ Q (p.run s).1 (p.run s).2

theorem Triple.done {P : S → Prop} {Q : A → S → Prop} {a : A} (invariant : ∀ s, P s → I s)
    (post : ∀ s, P s → Q a s) : Triple I P (.done a : Prog L S A) Q :=
  fun s h => ⟨invariant s h, post s h⟩

theorem Triple.weaken {P P' : S → Prop} {Q Q' : A → S → Prop} {p : Prog L S A}
    (triple : Triple I P p Q) (pre : ∀ s, P' s → P s) (post : ∀ a s, Q a s → Q' a s) :
    Triple I P' p Q' := by
  intro s h
  obtain ⟨along, final⟩ := triple s (pre s h)
  exact ⟨along, post _ _ final⟩

/-- A result that does not depend on the store joins the precondition. -/
theorem Triple.of_forall {P : S → Prop} {Q : A → S → Prop} {p : Prog L S A} {φ : Prop}
    (triple : φ → Triple I P p Q) : Triple I (fun s => φ ∧ P s) p Q :=
  fun s h => triple h.1 s h.2

/-- One atomic update. -/
theorem Triple.update {P : S → Prop} {Q : A → S → Prop} {label : L} {act : S → S}
    {report : S → A} (before : ∀ s, P s → I s) (after : ∀ s, P s → I (act s))
    (post : ∀ s, P s → Q (report s) (act s)) : Triple I P (Prog.update label act report) Q :=
  fun s h => ⟨⟨before s h, after s h⟩, post s h⟩

/-- One stored read. -/
theorem Triple.read {P : S → Prop} {Q : A → S → Prop} {label : L} {f : S → A}
    (before : ∀ s, P s → I s) (post : ∀ s, P s → Q (f s) s) :
    Triple I P (Prog.read label f) Q :=
  fun s h => ⟨⟨before s h, before s h⟩, post s h⟩

theorem Triple.bind {P : S → Prop} {R : A → S → Prop} {Q : B → S → Prop} {p : Prog L S A}
    {k : A → Prog L S B} (first : Triple I P p R) (second : ∀ a, Triple I (R a) (k a) Q) :
    Triple I P (p >>= k) Q := by
  intro s h
  obtain ⟨along, mid⟩ := first s h
  obtain ⟨along', final⟩ := second _ _ mid
  rw [run_bind, along_bind]
  exact ⟨⟨along, along'⟩, final⟩

end AnalyticsBackend.Lib.Prog
