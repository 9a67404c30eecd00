import AnalyticsBackend.Lib.Mongo.Pipeline

/-!
# What grouping and sorting make of documents

The groups of a list of rows, whatever order the server takes them up in.
-/

namespace AnalyticsBackend.Lib.Mongo

/-! ## The keys of the groups -/

section Keys

variable {key : Value} {row : List (Option Value)}
  {groups : List (Value × List (List (Option Value)))}

theorem keys_addToGroup :
    (addToGroup key row groups).map Prod.fst =
      if groups.any fun g => g.1.same key then groups.map Prod.fst
      else groups.map Prod.fst ++ [key] := by
  induction groups with
  | nil => rfl
  | cons g rest ih =>
      obtain ⟨k, rows⟩ := g
      cases found : k.same key with
      | true => simp [addToGroup, found]
      | false =>
          simp only [addToGroup, found, Bool.false_eq_true, if_false, List.map_cons, ih,
            List.any_cons, Bool.false_or]
          split <;> rfl

theorem collectGroups_append (rows : List (Value × List (Option Value)))
    (last : Value × List (Option Value)) :
    collectGroups (rows ++ [last]) = addToGroup last.1 last.2 (collectGroups rows) := by
  simp [collectGroups]

/-- Keys that the server tells apart exactly when they differ: one group for each. -/
theorem keys_collectGroups {A : Type} {f : A → Value} {r : A → List (Option Value)}
    (tells : ∀ a b, (f a).same (f b) = true ↔ a = b) (names : List A) :
    ∃ keys : List A, keys.Nodup ∧ (∀ a, a ∈ keys ↔ a ∈ names) ∧
      (collectGroups (names.map fun a => (f a, r a))).map Prod.fst = keys.map f := by
  induction names using List.reverseRecOn with
  | nil => exact ⟨[], List.nodup_nil, fun a => Iff.rfl, rfl⟩
  | append_singleton names last ih =>
      obtain ⟨keys, nodup, same, are⟩ := ih
      rw [List.map_append, List.map_singleton, collectGroups_append, keys_addToGroup, are]
      have known : ((collectGroups (names.map fun a => (f a, r a))).any
          fun g => g.1.same (f last)) = true ↔ last ∈ keys := by
        rw [show (fun g : Value × List (List (Option Value)) => g.1.same (f last)) =
            (fun k : Value => k.same (f last)) ∘ Prod.fst from rfl, ← List.any_map, are,
          List.any_map, List.any_eq_true]
        constructor
        · rintro ⟨a, mem, equal⟩
          exact (tells a last).mp equal ▸ mem
        · exact fun mem => ⟨last, mem, (tells last last).mpr rfl⟩
      by_cases mem : last ∈ keys
      · rw [if_pos (known.mpr mem)]
        refine ⟨keys, nodup, fun a => ?_, rfl⟩
        rw [List.mem_append, List.mem_singleton, ← same]
        exact ⟨Or.inl, fun is => is.elim id fun is => is ▸ mem⟩
      · rw [if_neg fun any => mem (known.mp any)]
        refine ⟨keys ++ [last], ?_, fun a => ?_, by rw [List.map_append, List.map_singleton]⟩
        · exact List.nodup_append.mpr ⟨nodup, List.nodup_singleton last, by
            rintro a inside b one rfl
            exact mem (List.mem_singleton.mp one ▸ inside)⟩
        · rw [List.mem_append, List.mem_append, same]

end Keys

/-! ## Sorting names -/

theorem compareKeys_names (name s t : String) :
    (compareKeys [(name, .asc)] (sortKey [(name, .asc)] [(name, .str s)])
      (sortKey [(name, .asc)] [(name, .str t)]) != .gt) = decide (s ≤ t) := by
  have order : compareKeys [(name, .asc)] (sortKey [(name, .asc)] [(name, .str s)])
      (sortKey [(name, .asc)] [(name, .str t)]) = compare s t := by
    simp [compareKeys, sortKey, sortValue, Doc.get, List.lookup_cons, Value.compareOption, Value.compare]
  rw [order, Bool.eq_iff_iff, bne_iff_ne, ne_eq, compare_gt_iff_gt, decide_eq_true_iff, not_lt]

/-- Documents of one name each come out in the order of the names. -/
theorem sortDocs_names (server : Server) (name : String) {names : List String}
    (nodup : names.Nodup) :
    ∃ sorted : List String, sorted.Pairwise (· < ·) ∧ (∀ s, s ∈ sorted ↔ s ∈ names) ∧
      sortDocs server [(name, .asc)] (names.map fun s => [(name, .str s)]) =
        sorted.map fun s => [(name, .str s)] := by
  let le := fun s t : String => decide (s ≤ t)
  refine ⟨(arrange server names).mergeSort le, ?_, fun s => ?_, ?_⟩
  · have ordered : ((arrange server names).mergeSort le).Pairwise fun s t => le s t = true := by
      apply List.pairwise_mergeSort
      · intro a b c first second
        exact decide_eq_true (le_trans (of_decide_eq_true first) (of_decide_eq_true second))
      · intro a b
        simpa [le] using le_total a b
    have distinct : ((arrange server names).mergeSort le).Nodup :=
      ((List.mergeSort_perm _ _).trans (perm_arrange names)).nodup_iff.mpr nodup
    refine (ordered.and distinct).imp fun {s t} both => ?_
    exact lt_of_le_of_ne (of_decide_eq_true both.1) both.2
  · exact ((List.mergeSort_perm _ _).trans (perm_arrange names)).mem_iff
  · rw [sortDocs, arrange_map]
    refine (List.map_mergeSort fun s _ t _ => ?_).symm
    rw [compareKeys_names]

end AnalyticsBackend.Lib.Mongo
