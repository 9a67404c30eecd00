import Mathlib.Data.List.AList
import Mathlib.Data.List.Dedup

/-!
# Maps of counts

How often each key occurs in a list, kept up as keys come and go. A key whose count falls to zero
leaves the map, so that its size is the number of different keys.
-/

namespace AnalyticsBackend.Lib

variable {K : Type} [DecidableEq K]

abbrev CountMap (K : Type) : Type := AList fun _ : K => Nat

namespace CountMap

/-- `map.set(key, (map.get(key) ?? 0) + 1)`. -/
def increment (map : CountMap K) (key : K) : CountMap K :=
  map.insert key ((map.lookup key).getD 0 + 1)

/-- One less of a key, which is deleted with the last. -/
def decrement (map : CountMap K) (key : K) : CountMap K :=
  let left := (map.lookup key).getD 1 - 1
  if left = 0 then map.erase key else map.insert key left

/-- A map holds the counts of a list. -/
def Counts (map : CountMap K) (keys : List K) : Prop :=
  ∀ k, map.lookup k = if keys.count k = 0 then none else some (keys.count k)

theorem counts_empty : Counts (∅ : CountMap K) [] := fun k => by simp

theorem Counts.getD {map : CountMap K} {keys : List K} (counts : Counts map keys) (k : K) :
    (map.lookup k).getD 0 = keys.count k := by
  rw [counts k]
  split
  · rename_i none
    exact none.symm
  · rfl

theorem Counts.increment {map : CountMap K} {keys : List K} (counts : Counts map keys) (key : K) :
    Counts (map.increment key) (keys ++ [key]) := by
  intro k
  by_cases same : k = key
  · subst same
    simp [CountMap.increment, counts.getD]
  · rw [CountMap.increment, AList.lookup_insert_ne same, counts k]
    simp [List.count_append, Ne.symm same]

theorem Counts.decrement {map : CountMap K} {key : K} {keys : List K}
    (counts : Counts map (key :: keys)) : Counts (map.decrement key) keys := by
  intro k
  have one : (map.lookup key).getD 1 - 1 = keys.count key := by simp [counts key]
  unfold CountMap.decrement
  dsimp only
  rw [one]
  by_cases same : k = key
  · subst same
    split
    · rw [AList.lookup_erase]
    · rw [AList.lookup_insert]
  · have other : map.lookup k = if keys.count k = 0 then none else some (keys.count k) := by
      rw [counts k, List.count_cons_of_ne (Ne.symm same)]
    split
    · rw [AList.lookup_erase_ne same, other]
    · rw [AList.lookup_insert_ne same, other]

/-- The size of a map of counts. -/
theorem Counts.size {map : CountMap K} {keys : List K} (counts : Counts map keys) :
    map.keys.length = keys.dedup.length := by
  refine List.Perm.length_eq ((List.perm_ext_iff_of_nodup map.keys_nodup (List.nodup_dedup _)).mpr ?_)
  intro k
  rw [← AList.mem_keys, ← AList.lookup_isSome, counts k, List.mem_dedup, ← List.count_pos_iff]
  split
  · rename_i none
    simp [none]
  · rename_i some
    simp [Nat.pos_of_ne_zero some]

end CountMap

end AnalyticsBackend.Lib
