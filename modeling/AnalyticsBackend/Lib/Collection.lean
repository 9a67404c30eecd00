import Mathlib.Algebra.Order.BigOperators.Group.List
import Mathlib.Algebra.Order.Group.Int
import Mathlib.Algebra.Ring.Int.Defs

/-!
# Collections of documents

A stored collection is a list of documents. `updateFirst` is the update of one document: of
the first that matches a filter, as `findOneAndUpdate` and `updateOne` do it.
-/

namespace AnalyticsBackend.Lib.Collection

variable {D : Type}

/-- Replace the first document that meets `p`. -/
def updateFirst (p : D → Bool) (f : D → D) : List D → List D
  | [] => []
  | d :: rest => if p d then f d :: rest else d :: updateFirst p f rest

theorem updateFirst_cons (p : D → Bool) (f : D → D) (d : D) (rest : List D) :
    updateFirst p f (d :: rest) = if p d then f d :: rest else d :: updateFirst p f rest :=
  rfl

/-- An update that matches nothing changes nothing. -/
theorem updateFirst_of_none {p : D → Bool} {f : D → D} {docs : List D}
    (h : docs.find? p = none) : updateFirst p f docs = docs := by
  induction docs with
  | nil => rfl
  | cons d rest ih =>
      rw [List.find?_cons] at h
      cases found : p d with
      | true => simp [found] at h
      | false =>
          rw [found] at h
          simp only [updateFirst_cons, found]
          exact congrArg (d :: ·) (ih h)

/-- The document that an update finds is there as updated. -/
theorem updated_mem {p : D → Bool} {f : D → D} {docs : List D} {d : D} (found : docs.find? p = some d) :
    f d ∈ updateFirst p f docs := by
  induction docs with
  | nil => exact nomatch found
  | cons e rest ih =>
      rw [List.find?_cons] at found
      rw [updateFirst_cons]
      split at found
      · rename_i matched
        obtain rfl := Option.some.inj found
        rw [if_pos matched]
        exact List.mem_cons_self ..
      · rename_i unmatched
        rw [if_neg (by simp [unmatched])]
        exact List.mem_cons_of_mem _ (ih found)

/-- An update that leaves a key alone leaves the keys alone. -/
theorem map_updateFirst {K : Type} {key : D → K} {p : D → Bool} {f : D → D}
    (keeps : ∀ d, key (f d) = key d) (docs : List D) :
    (updateFirst p f docs).map key = docs.map key := by
  induction docs with
  | nil => rfl
  | cons d rest ih =>
      rw [updateFirst_cons]
      split
      · simp [keeps]
      · simp [ih]

/-- An update passes over what it does not match. -/
theorem updateFirst_append {p : D → Bool} {f : D → D} {passed : List D} (rest : List D)
    (none : ∀ d ∈ passed, p d = false) :
    updateFirst p f (passed ++ rest) = passed ++ updateFirst p f rest := by
  induction passed with
  | nil => rfl
  | cons d passed ih =>
      have misses := none d (List.mem_cons_self ..)
      have tail := ih fun d' mem => none d' (List.mem_cons_of_mem _ mem)
      rw [List.cons_append, updateFirst_cons, misses, tail]
      rfl

/-- A document is there after an update as it was, or updated. -/
theorem mem_updateFirst {p : D → Bool} {f : D → D} {docs : List D} {d : D} (mem : d ∈ docs) :
    d ∈ updateFirst p f docs ∨ p d = true ∧ f d ∈ updateFirst p f docs := by
  induction docs with
  | nil => exact nomatch mem
  | cons e rest ih =>
      rw [updateFirst_cons]
      rcases List.mem_cons.mp mem with rfl | mem
      · split
        · rename_i matched
          exact .inr ⟨matched, List.mem_cons_self ..⟩
        · exact .inl (List.mem_cons_self ..)
      · split
        · exact .inl (List.mem_cons_of_mem _ mem)
        · rcases ih mem with kept | ⟨matched, kept⟩
          · exact .inl (List.mem_cons_of_mem _ kept)
          · exact .inr ⟨matched, List.mem_cons_of_mem _ kept⟩

/-- A document that is there after an update was there before, or is the updated one. -/
theorem of_mem_updateFirst {p : D → Bool} {f : D → D} {docs : List D} {d : D}
    (mem : d ∈ updateFirst p f docs) : d ∈ docs ∨ ∃ e ∈ docs, p e = true ∧ d = f e := by
  induction docs with
  | nil => exact nomatch mem
  | cons e rest ih =>
      rw [updateFirst_cons] at mem
      split at mem
      · rename_i matched
        rcases List.mem_cons.mp mem with rfl | mem
        · exact .inr ⟨e, List.mem_cons_self .., matched, rfl⟩
        · exact .inl (List.mem_cons_of_mem _ mem)
      · rcases List.mem_cons.mp mem with rfl | mem
        · exact .inl (List.mem_cons_self ..)
        · rcases ih mem with earlier | ⟨e', earlier, matched, same⟩
          · exact .inl (List.mem_cons_of_mem _ earlier)
          · exact .inr ⟨e', List.mem_cons_of_mem _ earlier, matched, same⟩

/-- Where keys are unique and the filter asks for one key, an update whose result no longer meets
the filter leaves no document that does. -/
theorem updateFirst_exhausts {K : Type} {key : D → K} {k : K} {p : D → Bool} {f : D → D}
    {docs : List D} (unique : (docs.map key).Nodup) (asks : ∀ d, p d = true → key d = k)
    (ends : ∀ d, p (f d) = false) : ∀ d ∈ updateFirst p f docs, p d = false := by
  induction docs with
  | nil => exact fun _ mem => nomatch mem
  | cons e rest ih =>
      rw [List.map_cons, List.nodup_cons] at unique
      intro d mem
      rw [updateFirst_cons] at mem
      split at mem
      · rename_i matched
        rcases List.mem_cons.mp mem with rfl | mem
        · exact ends e
        · by_contra also
          refine unique.1 ?_
          rw [asks e matched, ← asks d (by simpa using also)]
          exact List.mem_map_of_mem mem
      · rename_i unmatched
        rcases List.mem_cons.mp mem with rfl | mem
        · simpa using unmatched
        · exact ih unique.2 d mem

/-- After an update by a unique key the document is there as updated, and the others as they were. -/
theorem mem_updateFirst_key {K : Type} [DecidableEq K] {key : D → K} {f : D → D} {docs : List D}
    {d : D} (unique : (docs.map key).Nodup) (mem : d ∈ docs) (d' : D) :
    d' ∈ updateFirst (fun e => key e = key d) f docs ↔
      (d' ∈ docs ∧ key d' ≠ key d) ∨ d' = f d := by
  induction docs with
  | nil => exact nomatch mem
  | cons e rest ih =>
      rw [List.map_cons, List.nodup_cons] at unique
      rw [updateFirst_cons]
      by_cases same : key e = key d
      · -- The document is the first one, and no other has its key.
        have absent : ∀ e' ∈ rest, key e' ≠ key d := fun e' inRest same' =>
          unique.1 (same.trans same'.symm ▸ List.mem_map_of_mem inRest)
        have is : d = e := by
          rcases List.mem_cons.mp mem with is | inRest
          · exact is
          · exact absurd rfl (absent d inRest)
        subst is
        simp only [decide_true, if_true, List.mem_cons]
        constructor
        · rintro (is | inRest)
          · exact .inr is
          · exact .inl ⟨.inr inRest, absent d' inRest⟩
        · rintro (⟨is | inRest, other⟩ | is)
          · exact absurd (congrArg key is) other
          · exact .inr inRest
          · exact .inl is
      · have inRest : d ∈ rest := by
          rcases List.mem_cons.mp mem with is | inRest
          · exact absurd (congrArg key is.symm) same
          · exact inRest
        simp only [same, decide_false, Bool.false_eq_true, if_false, List.mem_cons, ih unique.2 inRest]
        constructor
        · rintro (is | ⟨inRest, other⟩ | is)
          · exact .inl ⟨.inl is, is ▸ same⟩
          · exact .inl ⟨.inr inRest, other⟩
          · exact .inr is
        · rintro (⟨is | inRest, other⟩ | is)
          · exact .inl is
          · exact .inr (.inl ⟨inRest, other⟩)
          · exact .inr (.inr is)

/-- A sum over the collection moves by what the one document gains. -/
theorem sum_updateFirst {p : D → Bool} {f : D → D} (w : D → Int) {docs : List D} {d : D}
    (h : docs.find? p = some d) :
    ((updateFirst p f docs).map w).sum = (docs.map w).sum + (w (f d) - w d) := by
  induction docs with
  | nil => simp at h
  | cons e rest ih =>
      rw [List.find?_cons] at h
      cases found : p e with
      | true =>
          rw [found] at h
          obtain rfl : e = d := Option.some.inj h
          simp only [updateFirst_cons, found, if_true, List.map_cons, List.sum_cons]
          omega
      | false =>
          rw [found] at h
          have := ih h
          simp only [updateFirst_cons, found, List.map_cons, List.sum_cons]
          simp only [Bool.false_eq_true, if_false, List.map_cons, List.sum_cons]
          omega

/-- A count is a sum of ones. -/
theorem countP_eq_sum (q : D → Bool) (docs : List D) :
    (docs.countP q : Int) = (docs.map fun d => if q d then 1 else 0).sum := by
  induction docs with
  | nil => rfl
  | cons d rest ih =>
      rw [List.map_cons, List.sum_cons, ← ih, List.countP_cons]
      split <;> push_cast <;> omega

/-- A count moves by what the one document gains. -/
theorem countP_updateFirst {p : D → Bool} {f : D → D} (q : D → Bool) {docs : List D} {d : D}
    (h : docs.find? p = some d) :
    ((updateFirst p f docs).countP q : Int) =
      docs.countP q + ((if q (f d) then 1 else 0) - if q d then 1 else 0) := by
  rw [countP_eq_sum, countP_eq_sum]
  exact sum_updateFirst (fun d => if q d then 1 else 0) h

/-- A sum of non-negative weights. -/
theorem sum_map_nonneg {w : D → Int} {docs : List D} (h : ∀ d ∈ docs, 0 ≤ w d) :
    0 ≤ (docs.map w).sum := by
  apply List.sum_nonneg
  intro x hx
  obtain ⟨d, hd, rfl⟩ := List.mem_map.mp hx
  exact h d hd

end AnalyticsBackend.Lib.Collection
