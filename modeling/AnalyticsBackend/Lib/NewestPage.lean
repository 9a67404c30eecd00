import Mathlib.Data.List.Sort

/-!
# The first page of a listing, newest first

A listing sorted by a key in descending order, cut after its first rows. A database that sorts by one
key is free in the order of the rows whose keys are equal, so that what a page is sure to hold is what
it holds in every such order.
-/

namespace AnalyticsBackend.Lib

variable {A K : Type} [LinearOrder K] (key : A → K)

/-- An order in which a sort by `key`, descending, may return its rows. -/
structure NewestFirst (order : List A → List A) : Prop where
  perm : ∀ rows, (order rows).Perm rows
  sorted : ∀ rows, (order rows).Pairwise fun a b => key b ≤ key a

/-- How many rows without the property may stand before row `d`. -/
def outranked (p : A → Bool) (rows : List A) (d : A) : Nat :=
  rows.countP fun r => !p r && decide (key d ≤ key r)

/-- A row with the property is on the page when there are too few others to fill it. -/
theorem NewestFirst.shown {key : A → K} {order : List A → List A} (newest : NewestFirst key order)
    {p : A → Bool} {rows : List A} {limit : Nat} {d : A} (mem : d ∈ rows) (holds : p d = true)
    (few : outranked key p rows d < limit) : ((order rows).take limit).any p = true := by
  by_contra absent
  have others : ∀ r ∈ (order rows).take limit, p r = false := by simpa using absent
  have hidden : d ∈ (order rows).drop limit := by
    have mem := (newest.perm rows).mem_iff.mpr mem
    rw [← List.take_append_drop limit (order rows), List.mem_append] at mem
    rcases mem with shown | hidden
    · exact absurd holds (by simp [others d shown])
    · exact hidden
  have full : ((order rows).take limit).length = limit := by
    have := List.length_pos_of_mem hidden
    rw [List.length_drop] at this
    rw [List.length_take]
    omega
  have apart := newest.sorted rows
  rw [← List.take_append_drop limit (order rows), List.pairwise_append] at apart
  have page : ((order rows).take limit).countP (fun r => !p r && decide (key d ≤ key r)) = limit := by
    refine (List.countP_eq_length.mpr fun r shown => ?_).trans full
    simp [others r shown, apart.2.2 r shown d hidden]
  have sub := (List.take_sublist limit (order rows)).countP_le
    (p := fun r => !p r && decide (key d ≤ key r))
  rw [page, (newest.perm rows).countP_eq] at sub
  exact absurd few (by simpa [outranked] using sub)

/-! ## The order that is worst for a property -/

/-- Newest first and, of the rows with equal keys, first those without the property. -/
def Worst (p : A → Bool) (a b : A) : Prop :=
  key b < key a ∨ key b = key a ∧ (p a = true → p b = true)

instance (p : A → Bool) : DecidableRel (Worst key p) := fun a b => by
  unfold Worst
  infer_instance

theorem worst_total (p : A → Bool) (a b : A) : Worst key p a b ∨ Worst key p b a := by
  unfold Worst
  rcases lt_trichotomy (key a) (key b) with below | same | above
  · exact .inr (.inl below)
  · cases p a <;> cases p b <;> simp [same]
  · exact .inl (.inl above)

theorem worst_trans (p : A → Bool) {a b c : A} (first : Worst key p a b) (second : Worst key p b c) :
    Worst key p a c := by
  rcases first with below | ⟨same, imp⟩
  · rcases second with below' | ⟨same', -⟩
    · exact .inl (below'.trans below)
    · exact .inl (same' ▸ below)
  · rcases second with below' | ⟨same', imp'⟩
    · exact .inl (same ▸ below')
    · exact .inr ⟨same'.trans same, fun h => imp' (imp h)⟩

instance (p : A → Bool) : Std.Total (Worst key p) := ⟨worst_total key p⟩

instance (p : A → Bool) : IsTrans A (Worst key p) := ⟨fun _ _ _ => worst_trans key p⟩

theorem newestFirst_worst (p : A → Bool) :
    NewestFirst key fun rows => rows.insertionSort (Worst key p) where
  perm rows := List.perm_insertionSort _ rows
  sorted rows := by
    refine (List.pairwise_insertionSort (Worst key p) rows).imp fun {a b} worst => ?_
    rcases worst with below | ⟨same, -⟩
    · exact below.le
    · exact same.le

/-- What stands before a row with the property in the worst order is what may stand before it. -/
theorem outranked_lt_of_worst {p : A → Bool} {rows : List A} {limit : Nat} {d : A}
    (shown : d ∈ (rows.insertionSort (Worst key p)).take limit) (holds : p d = true) :
    outranked key p rows d < limit := by
  obtain ⟨before, after, split⟩ := List.append_of_mem shown
  have whole : rows.insertionSort (Worst key p) =
      before ++ d :: (after ++ (rows.insertionSort (Worst key p)).drop limit) := by
    conv_lhs => rw [← List.take_append_drop limit (rows.insertionSort (Worst key p)), split]
    simp
  have sorted := List.pairwise_insertionSort (Worst key p) rows
  rw [whole, List.pairwise_append, List.pairwise_cons] at sorted
  have behind : (after ++ (rows.insertionSort (Worst key p)).drop limit).countP
      (fun r => !p r && decide (key d ≤ key r)) = 0 := by
    refine List.countP_eq_zero.mpr fun r mem => ?_
    rcases sorted.2.1.1 r mem with below | ⟨-, imp⟩
    · simp [not_le.mpr below]
    · simp [imp holds]
  have room : before.length < limit := by
    have := congrArg List.length split
    rw [List.length_take, List.length_append, List.length_cons] at this
    omega
  calc outranked key p rows d
      = (rows.insertionSort (Worst key p)).countP (fun r => !p r && decide (key d ≤ key r)) :=
        ((List.perm_insertionSort (Worst key p) rows).countP_eq _).symm
    _ = before.countP (fun r => !p r && decide (key d ≤ key r)) := by
        rw [whole, List.countP_append, List.countP_cons, behind]
        simp [holds]
    _ ≤ before.length := List.countP_le_length
    _ < limit := room

/-- The first page holds a row with the property, in whatever order the rows come, exactly when too few
of the others may come before one. -/
theorem shown_iff {p : A → Bool} {rows : List A} {limit : Nat} :
    (∀ order, NewestFirst key order → ((order rows).take limit).any p = true) ↔
      ∃ d ∈ rows, p d = true ∧ outranked key p rows d < limit := by
  constructor
  · intro always
    obtain ⟨d, shown, holds⟩ := List.any_eq_true.mp (always _ (newestFirst_worst key p))
    have mem : d ∈ rows :=
      (List.perm_insertionSort (Worst key p) rows).mem_iff.mp (List.mem_of_mem_take shown)
    exact ⟨d, mem, holds, outranked_lt_of_worst key shown holds⟩
  · rintro ⟨d, mem, holds, few⟩ order newest
    exact newest.shown mem holds few

end AnalyticsBackend.Lib
