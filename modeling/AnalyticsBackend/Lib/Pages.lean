import AnalyticsBackend.Lib.NewestPage

/-!
# A listing read page by page

A listing sorted by one key, newest first, and read in pages. The database is free in the order of
rows whose keys are equal, for each page anew. Whatever it chooses, the pages together hold every row
once exactly when no page ends between two rows with equal keys.
-/

namespace AnalyticsBackend.Lib

variable {A K : Type} [LinearOrder K] {key : A → K}

/-- Page `k`, counted from zero. -/
def page (size k : Nat) (rows : List A) : List A := (rows.drop (k * size)).take size

/-- The first `n` pages, each in an order of its own. -/
def pages (size : Nat) (order : Nat → List A → List A) (rows : List A) (n : Nat) : List A :=
  (List.range n).flatMap fun k => page size k (order k rows)

/-- The first `m` rows are all those with a key from some point on. -/
def Clean (key : A → K) (rows : List A) (m : Nat) : Prop :=
  ∃ d ∈ rows, rows.countP (fun r => key d ≤ key r) = m

theorem pages_succ (size : Nat) (order : Nat → List A → List A) (rows : List A) (n : Nat) :
    pages size order rows (n + 1) = pages size order rows n ++ page size n (order n rows) := by
  simp [pages, List.range_succ]

theorem length_page (size k : Nat) (rows : List A) :
    (page size k rows).length = min size (rows.length - k * size) := by
  rw [page, List.length_take, List.length_drop]

/-- Up to its end, a page holds what stands before it and its own rows. -/
theorem take_append_page (size k : Nat) (rows : List A) :
    rows.take (k * size) ++ page size k rows = rows.take ((k + 1) * size) := by
  rw [page, Nat.succ_mul, List.take_add]

theorem pages_prefix (size : Nat) (order : Nat → List A → List A) (rows : List A) {n m : Nat}
    (le : n ≤ m) : pages size order rows n <+: pages size order rows m := by
  induction m, le using Nat.le_induction with
  | base => exact List.prefix_rfl
  | succ m _ ih =>
      rw [pages_succ]
      exact ih.trans (List.prefix_append ..)

theorem length_pages (size : Nat) {order : Nat → List A → List A} {rows : List A}
    (perm : ∀ k, (order k rows).Perm rows) (n : Nat) :
    (pages size order rows n).length = min (n * size) rows.length := by
  induction n with
  | zero => simp [pages]
  | succ n ih =>
      rw [pages_succ, List.length_append, ih, length_page, (perm n).length_eq, Nat.succ_mul]
      omega

/-! ## The first rows -/

theorem filter_newest {sorted : List A} (newest : sorted.Pairwise fun a b => key b ≤ key a) (t : K) :
    sorted.filter (fun r => t ≤ key r) = sorted.take (sorted.countP fun r => t ≤ key r) := by
  induction sorted with
  | nil => rfl
  | cons a rest ih =>
      obtain ⟨first, others⟩ := List.pairwise_cons.mp newest
      by_cases above : t ≤ key a
      · rw [List.filter_cons_of_pos (by simpa using above), List.countP_cons_of_pos (by simpa using above),
          List.take_succ_cons, ih others]
      · have none : ∀ r ∈ a :: rest, ¬ decide (t ≤ key r) = true := by
          refine List.forall_mem_cons.mpr ⟨by simpa using above, fun r mem => ?_⟩
          simpa using lt_of_le_of_lt (first r mem) (not_le.mp above)
        rw [List.filter_eq_nil_iff.mpr none, List.countP_eq_zero.mpr none, List.take_zero]

/-- The first `m` rows are the same in every order, where `m` is nothing, everything, or clean. -/
theorem take_perm {order order' : List A → List A} (newest : NewestFirst key order)
    (newest' : NewestFirst key order') {rows : List A} {m : Nat}
    (place : 0 < m → m < rows.length → Clean key rows m) :
    ((order rows).take m).Perm ((order' rows).take m) := by
  have whole := newest.perm rows
  have whole' := newest'.perm rows
  rcases Nat.eq_zero_or_pos m with rfl | some
  · rw [List.take_zero, List.take_zero]
  · by_cases inside : m < rows.length
    · obtain ⟨d, -, count⟩ := place some inside
      have first := filter_newest (newest.sorted rows) (key d)
      have first' := filter_newest (newest'.sorted rows) (key d)
      rw [whole.countP_eq, count] at first
      rw [whole'.countP_eq, count] at first'
      rw [← first, ← first']
      exact (whole.trans whole'.symm).filter _
    · have all := whole.length_eq
      have all' := whole'.length_eq
      rw [List.take_of_length_le (by omega), List.take_of_length_le (by omega)]
      exact whole.trans whole'.symm

/-! ## All the pages -/

variable {size : Nat} {rows : List A}

/-- No page ends between two rows with equal keys. -/
def CleanPages (key : A → K) (size : Nat) (rows : List A) : Prop :=
  ∀ k, 0 < k → k * size < rows.length → Clean key rows (k * size)

/-- With clean ends, the first pages hold what every order has first. -/
theorem pages_perm {order : Nat → List A → List A} (newest : ∀ k, NewestFirst key (order k))
    (clean : CleanPages key size rows) (n : Nat) :
    (pages size order rows n).Perm ((order n rows).take (n * size)) := by
  induction n with
  | zero => simp [pages]
  | succ n ih =>
      have ends : ((order n rows).take ((n + 1) * size)).Perm
          ((order (n + 1) rows).take ((n + 1) * size)) :=
        take_perm (newest n) (newest (n + 1)) fun _ => clean (n + 1) (Nat.succ_pos n)
      rw [pages_succ]
      refine (ih.append_right _).trans ?_
      rw [take_append_page]
      exact ends

/-- The neighbours at a place that is not clean have equal keys. -/
theorem key_eq_of_unclean {sorted before after : List A} {x y : A} (same : sorted.Perm rows)
    (split : sorted = before ++ x :: y :: after) (newest : sorted.Pairwise fun a b => key b ≤ key a)
    (unclean : ¬ Clean key rows (before.length + 1)) : key y = key x := by
  rw [split, List.pairwise_append, List.pairwise_cons] at newest
  obtain ⟨-, ⟨older, rest⟩, across⟩ := newest
  refine le_antisymm (older y (List.mem_cons_self ..)) (not_lt.mp fun below => unclean ?_)
  have mem : x ∈ rows := same.mem_iff.mp (by rw [split]; simp)
  refine ⟨x, mem, ?_⟩
  have front : before.countP (fun r => key x ≤ key r) = before.length :=
    List.countP_eq_length.mpr fun r old => by simpa using across r old x (List.mem_cons_self ..)
  have back : (y :: after).countP (fun r => key x ≤ key r) = 0 := by
    refine List.countP_eq_zero.mpr fun r mem => ?_
    have small : key r ≤ key y := by
      rcases List.mem_cons.mp mem with rfl | mem
      · exact le_rfl
      · exact (List.pairwise_cons.mp rest).1 r mem
    simpa using lt_of_le_of_lt small below
  rw [← same.countP_eq, split, List.countP_append, front, List.countP_cons_of_pos (by simp), back]

open Classical in
/-- Two neighbours with equal keys may be returned the other way round. -/
theorem newestFirst_swap {order : List A → List A} (newest : NewestFirst key order)
    {before after : List A} {x y : A} (split : order rows = before ++ x :: y :: after)
    (same : key y = key x) :
    NewestFirst key fun rs => if rs = rows then before ++ y :: x :: after else order rs where
  perm rs := by
    split
    · rename_i is
      have whole := newest.perm rows
      rw [split] at whole
      rw [is]
      exact ((List.Perm.swap x y after).append_left before).trans whole
    · exact newest.perm rs
  sorted rs := by
    split
    · have sorted := newest.sorted rows
      rw [split] at sorted
      simp only [List.pairwise_append, List.pairwise_cons, List.forall_mem_cons, same] at sorted ⊢
      obtain ⟨first, ⟨⟨-, lower⟩, -, rest⟩, across⟩ := sorted
      exact ⟨first, ⟨⟨le_rfl, lower⟩, lower, rest⟩, across⟩
    · exact newest.sorted rs

theorem mem_page {k : Nat} {before after : List A} {x : A} (split : rows = before ++ x :: after)
    (low : k * size ≤ before.length) (high : before.length < k * size + size) : x ∈ page size k rows := by
  rw [page, split, List.drop_append_of_le_length low, List.take_append]
  refine List.mem_append_right _ ?_
  rw [List.length_drop]
  obtain ⟨n, is⟩ := Nat.exists_eq_succ_of_ne_zero
    (Nat.sub_ne_zero_of_lt (show before.length - k * size < size by omega))
  rw [is, List.take_succ_cons]
  exact List.mem_cons_self ..

/-- The rows around a place inside. -/
theorem exists_around {sorted : List A} {m : Nat} (inside : m + 1 < sorted.length) :
    ∃ before x y after, sorted = before ++ x :: y :: after ∧ before.length = m := by
  refine ⟨sorted.take m, sorted[m], sorted[m + 1], sorted.drop (m + 2), ?_, ?_⟩
  · rw [← List.drop_eq_getElem_cons, ← List.drop_eq_getElem_cons, List.take_append_drop]
  · rw [List.length_take]
    omega

/-- Where a page ends between two rows with equal keys, a row can be on two pages. -/
theorem exists_twice {n k : Nat} (some : 0 < size) (page₀ : 0 < k) (inside : k * size < rows.length)
    (within : k < n) (unclean : ¬ Clean key rows (k * size)) :
    ∃ order : Nat → List A → List A, (∀ j, NewestFirst key (order j)) ∧
      ¬ (pages size order rows n).Nodup := by
  classical
  obtain ⟨order, newest⟩ : ∃ order : List A → List A, NewestFirst key order :=
    ⟨_, newestFirst_worst key fun _ : A => false⟩
  have whole := newest.perm rows
  obtain ⟨j, rfl⟩ : ∃ j, k = j + 1 := ⟨k - 1, by omega⟩
  have ends : (j + 1) * size = j * size + size := Nat.succ_mul j size
  obtain ⟨before, x, y, after, split, front⟩ : ∃ before x y after,
      order rows = before ++ x :: y :: after ∧ before.length = (j + 1) * size - 1 :=
    exists_around (by rw [whole.length_eq]; omega)
  have place : (j + 1) * size = before.length + 1 := by omega
  have same := key_eq_of_unclean whole split (newest.sorted rows) (by rwa [← place])
  have swapped := newestFirst_swap newest split same
  -- the next page is read in the other order
  refine ⟨fun i => if i = j + 1 then fun rs =>
    if rs = rows then before ++ y :: x :: after else order rs else order, fun i => ?_, fun nodup => ?_⟩
  · dsimp only
    split
    · exact swapped
    · exact newest
  · have apart := List.pairwise_iff_getElem.mp (List.nodup_flatMap.mp nodup).2 j (j + 1)
      (by rw [List.length_range]; omega) (by rw [List.length_range]; omega) (Nat.lt_succ_self j)
    simp only [Function.onFun, List.getElem_range, if_pos, Nat.ne_of_lt (Nat.lt_succ_self j),
      if_false] at apart
    refine apart (mem_page split (by omega) (by omega)) (?_ : x ∈ _)
    refine @mem_page _ _ _ _ (before ++ [y]) after _ (by simp) ?_ ?_
    · rw [List.length_append, List.length_singleton]
      omega
    · rw [List.length_append, List.length_singleton]
      omega

/-- **Pages.** Read in pages, a listing of distinct rows comes out whole, whatever order the database
has for rows with equal keys, exactly when no page ends between two of these. -/
theorem pages_whole_iff {n : Nat} (some : 0 < size) (distinct : rows.Nodup)
    (enough : rows.length ≤ n * size) :
    (∀ order : Nat → List A → List A, (∀ k, NewestFirst key (order k)) →
        (pages size order rows n).Perm rows) ↔ CleanPages key size rows := by
  constructor
  · intro always k page₀ inside
    by_contra unclean
    have within : k < n := Nat.lt_of_mul_lt_mul_right (Nat.lt_of_lt_of_le inside enough)
    obtain ⟨order, newest, twice⟩ := exists_twice some page₀ inside within unclean
    exact twice ((always order newest).nodup_iff.mpr distinct)
  · intro clean order newest
    have whole := (newest n).perm rows
    refine (pages_perm newest clean n).trans ?_
    rwa [List.take_of_length_le (by rw [whole.length_eq]; exact enough)]

end AnalyticsBackend.Lib
