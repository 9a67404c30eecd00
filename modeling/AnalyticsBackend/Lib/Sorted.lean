import Mathlib.Data.Finset.Card
import Mathlib.Data.List.Sort

/-!
# Sorted lists

What sorting and filtering do to lists that are sorted already.
-/

namespace AnalyticsBackend.Lib

/-- Sorting rows that ascend strictly, the highest first. -/
theorem insertionSort_descending {A : Type} {le : A → A → Bool} {l : List A}
    (ascending : l.Pairwise fun a b => le a b = true ∧ le b a = false) :
    l.insertionSort (fun a b => le b a) = l.reverse := by
  induction l with
  | nil => rfl
  | cons a rest ih =>
      have last (l' : List A) (above : ∀ b ∈ l', le b a = false) :
          l'.orderedInsert (fun a b => le b a) a = l' ++ [a] := by
        induction l' with
        | nil => rfl
        | cons b l' ih' =>
            rw [List.orderedInsert, if_neg (by simp [above b (List.mem_cons_self ..)]),
              ih' fun c mem => above c (List.mem_cons_of_mem _ mem), List.cons_append]
      obtain ⟨above, later⟩ := List.pairwise_cons.mp ascending
      rw [List.insertionSort_cons, ih later, List.reverse_cons,
        last _ fun b mem => (above b (List.mem_reverse.mp mem)).2]

/-- What is kept of ascending rows by a test that, once it keeps a row, keeps all after it. -/
theorem filter_suffix {A : Type} {keep : A → Bool} {l : List A}
    (closed : l.Pairwise fun a b => keep a = true → keep b = true) : l.filter keep <:+ l := by
  induction l with
  | nil => exact List.suffix_refl _
  | cons a rest ih =>
      obtain ⟨after, later⟩ := List.pairwise_cons.mp closed
      by_cases kept : keep a = true
      · have all : (a :: rest).filter keep = a :: rest :=
          List.filter_eq_self.mpr (List.forall_mem_cons.mpr ⟨kept, fun b mem => after b mem kept⟩)
        rw [all]
      · rw [List.filter_cons_of_neg kept]
        exact (ih later).trans (List.suffix_cons ..)

/-- A search through ascending values finds the least that has a result. -/
theorem findSome?_ascending {A B : Type} [LinearOrder A] {l : List A} {f : A → Option B} {r : B}
    (ascending : l.Pairwise (· ≤ ·)) :
    l.findSome? f = some r ↔ ∃ a ∈ l, f a = some r ∧ ∀ b ∈ l, b < a → f b = none := by
  induction l with
  | nil => simp
  | cons a rest ih =>
      obtain ⟨first, later⟩ := List.pairwise_cons.mp ascending
      cases found : f a with
      | some b =>
          rw [List.findSome?_cons_of_isSome (by rw [found]; rfl), found]
          constructor
          · intro is
            refine ⟨a, List.mem_cons_self .., by rw [found, is], fun c mem less => ?_⟩
            rcases List.mem_cons.mp mem with rfl | mem
            · exact absurd less (lt_irrefl c)
            · exact absurd less (not_lt_of_ge (first c mem))
          · rintro ⟨c, mem, is, least⟩
            rcases List.mem_cons.mp mem with rfl | mem
            · rw [← found, is]
            · rcases (first c mem).lt_or_eq with less | rfl
              · exact absurd (least a (List.mem_cons_self ..) less) (by simp [found])
              · rw [← found, is]
      | none =>
          rw [List.findSome?_cons_of_isNone (by rw [found]; rfl), ih later]
          constructor
          · rintro ⟨c, mem, is, least⟩
            refine ⟨c, List.mem_cons_of_mem _ mem, is, fun b mem' less => ?_⟩
            rcases List.mem_cons.mp mem' with rfl | mem'
            · exact found
            · exact least b mem' less
          · rintro ⟨c, mem, is, least⟩
            rcases List.mem_cons.mp mem with rfl | mem
            · exact absurd is (by simp [found])
            · exact ⟨c, mem, is, fun b mem' => least b (List.mem_cons_of_mem _ mem')⟩

/-! ## Cutting before filtering -/

section Cut

variable {A : Type} {p : A → Bool} {l : List A} {n : Nat}

/-- In ascending rows the first `n` are those with fewer than `n` before them. -/
theorem mem_take_ascending [LinearOrder A] (ascending : l.Pairwise (· < ·)) {a : A} :
    a ∈ l.take n ↔ a ∈ l ∧ (l.toFinset.filter (· < a)).card < n := by
  induction l generalizing n with
  | nil => simp
  | cons b rest ih =>
      obtain ⟨above, later⟩ := List.pairwise_cons.mp ascending
      cases n with
      | zero => simp
      | succ n =>
          rw [List.take_succ_cons, List.mem_cons, List.mem_cons, ih later, List.toFinset_cons]
          by_cases first : a = b
          · subst first
            have none : (insert a rest.toFinset).filter (· < a) = ∅ := by
              refine Finset.filter_eq_empty_iff.mpr fun c mem => not_lt_of_ge ?_
              rcases Finset.mem_insert.mp mem with rfl | mem
              · exact le_refl c
              · exact (above c (List.mem_toFinset.mp mem)).le
            simp [none]
          · simp only [first, false_or]
            refine and_congr_right fun mem => ?_
            have less : b < a := above a mem
            have fresh : b ∉ rest.toFinset.filter (· < a) := fun inside =>
              lt_irrefl b (above b (List.mem_toFinset.mp (Finset.mem_filter.mp inside).1))
            rw [Finset.filter_insert, if_pos less, Finset.card_insert_of_notMem fresh]
            omega

/-- Cutting to `n + 1` rows and then filtering shows what filtering first would, or that there
are more than `n`, exactly when the cut takes no room from a row the filter would keep. -/
theorem filter_cut_iff :
    ((l.filter p).length ≤ n → (l.take (n + 1)).filter p = l.filter p) ∧
        (n < (l.filter p).length → n < ((l.take (n + 1)).filter p).length) ↔
      (∀ a ∈ l.take (n + 1), p a = true) ∨ ∀ a ∈ l.drop (n + 1), p a = false := by
  have parts : l.filter p = (l.take (n + 1)).filter p ++ (l.drop (n + 1)).filter p := by
    rw [← List.filter_append, List.take_append_drop]
  have later : (l.drop (n + 1)).filter p = [] ↔ ∀ a ∈ l.drop (n + 1), p a = false := by
    simp [List.filter_eq_nil_iff]
  have whole : (l.take (n + 1)).filter p = l.filter p ↔ (l.drop (n + 1)).filter p = [] := by
    rw [parts]
    simp
  have counted := congrArg List.length parts
  rw [List.length_append] at counted
  rw [← later, whole]
  constructor
  · rintro ⟨all, some⟩
    by_cases few : (l.filter p).length ≤ n
    · exact .inr (all few)
    · refine .inl (List.filter_eq_self.mp ((List.filter_sublist ..).eq_of_length_le ?_))
      have kept := some (by omega)
      have cut := List.length_take_le (n + 1) l
      omega
  · rintro (first | none)
    · rw [List.filter_eq_self.mpr first] at counted ⊢
      constructor
      · intro few
        have short : l.length ≤ n + 1 := by
          by_contra long
          rw [List.length_take_of_le (by omega)] at counted
          omega
        rw [List.drop_of_length_le short, List.filter_nil]
      · intro many
        have within := List.length_filter_le p l
        rw [List.length_take]
        omega
    · rw [none, List.length_nil, Nat.add_zero] at counted
      exact ⟨fun _ => none, fun many => counted ▸ many⟩

end Cut

end AnalyticsBackend.Lib
