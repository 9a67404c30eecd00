import AnalyticsBackend.Analytics.RowSecurity
import AnalyticsBackend.Lib.JsOrder

/-!
# The order of grouped rows

`buildGroupedSort` uses an object as an ordered map. What it builds is compared with the order that a
query asks for: it is that order but for names that the language puts first, for fields asked for
twice, and for the names that every object inherits.
-/

namespace AnalyticsBackend.Analytics

open Lib Lib.Mongo JsObject

/-! ## What a query asks for -/

/-- A key of a sort, unless there is one of its name already. -/
def keepFirst (spec : List (String × Direction)) (entry : String × Direction) :
    List (String × Direction) :=
  if has spec entry.1 then spec else spec ++ [entry]

/-- The entries of a query's order: those of orderBy, and each group field, ascending. -/
def OrderBy.entry (o : OrderBy) : String × Direction := (o.field, o.direction)

def GroupBy.entry (g : GroupBy) : String × Direction := (g.field, .asc)

/-- The order as asked: the orderBy fields in request order, each once, with the direction of its
entry, and then the group fields that are not present. -/
def askedSort (orderBy : List OrderBy) (groupBy : List GroupBy) : List (String × Direction) :=
  (orderBy.map OrderBy.entry ++ groupBy.map GroupBy.entry).foldl keepFirst []

/-- A sort stage, when there is something to sort by. -/
def sortStages (spec : List (String × Direction)) : List Stage :=
  if spec.isEmpty then [] else [.sort spec]

def firstDirection (orderBy : List OrderBy) (field : String) : Option Direction :=
  (orderBy.find? fun o => o.field = field).map OrderBy.direction

def lastDirection (orderBy : List OrderBy) (field : String) : Option Direction :=
  firstDirection orderBy.reverse field

/-- Where the object keeps the order that was asked for. -/
structure SortKept (orderBy : List OrderBy) (groupBy : List GroupBy) : Prop where
  /-- Numeric names are asked for first, in ascending order. -/
  numeric : (keys (askedSort orderBy groupBy)).Pairwise Before
  /-- A field that is asked for repeatedly has one direction at first and at last. -/
  repeated : ∀ o ∈ orderBy, firstDirection orderBy o.field = lastDirection orderBy o.field
  /-- A group field with a name that objects inherit is ordered by. -/
  inherited : ∀ g ∈ groupBy, g.field ∈ JsObject.inherited → ∃ o ∈ orderBy, o.field = g.field

/-! ## The two folds -/

/-- One turn of the second loop of `buildGroupedSort`. -/
def addGroup (spec : List (String × Direction)) (g : GroupBy) : List (String × Direction) :=
  if has spec g.field ∨ JsObject.inherited.contains g.field then spec
  else set spec g.field Direction.asc

/-- The object that `buildGroupedSort` builds. -/
def builtSort (orderBy : List OrderBy) (groupBy : List GroupBy) : List (String × Direction) :=
  groupBy.foldl addGroup (orderBy.foldl (fun spec o => set spec o.field o.direction) [])

theorem buildGroupedSort_eq (orderBy : List OrderBy) (groupBy : List GroupBy) :
    buildGroupedSort orderBy groupBy = sortStages (builtSort orderBy groupBy) := rfl

theorem sortStages_inj {spec spec' : List (String × Direction)} :
    sortStages spec = sortStages spec' ↔ spec = spec' := by
  refine ⟨fun same => ?_, fun same => by rw [same]⟩
  unfold sortStages at same
  cases spec with
  | nil =>
      cases spec' with
      | nil => rfl
      | cons entry rest => exact nomatch same
  | cons entry rest =>
      cases spec' with
      | nil => exact nomatch same
      | cons entry' rest' =>
          obtain ⟨is, -⟩ := List.cons.inj same
          exact Stage.sort.inj is

/-! ### As asked -/

theorem lookup_keepFirst (entries spec : List (String × Direction)) (name : String) :
    (entries.foldl keepFirst spec).lookup name = (spec.lookup name).or (entries.lookup name) := by
  induction entries generalizing spec with
  | nil => exact (Option.or_none).symm
  | cons entry rest ih =>
      obtain ⟨k, d⟩ := entry
      rw [List.foldl_cons, ih, lookup_cons_eq]
      unfold keepFirst
      by_cases same : name = k
      · subst same
        split
        · rename_i present
          obtain ⟨d', is⟩ := Option.isSome_iff_exists.mp (lookup_isSome.trans present)
          rw [is, Option.some_or, Option.some_or]
        · rename_i absent
          have none : spec.lookup name = none := by
            rw [← Option.isNone_iff_eq_none, ← Option.not_isSome, lookup_isSome]
            simpa using absent
          rw [List.lookup_append, lookup_cons_eq, if_pos rfl, if_pos rfl, none, Option.none_or, Option.some_or]
      · rw [if_neg same]
        split
        · rfl
        · rw [List.lookup_append, lookup_cons_eq, if_neg same, List.lookup_nil, Option.or_none]

theorem keys_keepFirst (entries spec : List (String × Direction)) :
    keys spec <+: keys (entries.foldl keepFirst spec) ∧
      ((keys spec).Nodup → (keys (entries.foldl keepFirst spec)).Nodup) := by
  induction entries generalizing spec with
  | nil => exact ⟨List.prefix_rfl, id⟩
  | cons entry rest ih =>
      obtain ⟨grows, once⟩ := ih (keepFirst spec entry)
      unfold keepFirst at grows once
      rw [List.foldl_cons]
      unfold keepFirst
      split at grows
      · rename_i present
        rw [if_pos present] at once ⊢
        exact ⟨grows, once⟩
      · rename_i absent
        rw [if_neg absent] at once ⊢
        rw [keys_append] at grows once
        refine ⟨(List.prefix_append ..).trans grows, fun nodup => once ?_⟩
        refine List.nodup_append.mpr ⟨nodup, List.nodup_singleton _, fun a mem b last => ?_⟩
        rw [List.mem_singleton.mp last]
        rintro rfl
        exact absent (has_iff.mpr mem)

theorem mem_askedSort {orderBy : List OrderBy} {groupBy : List GroupBy} {name : String} :
    name ∈ keys (askedSort orderBy groupBy) ↔
      (∃ o ∈ orderBy, o.field = name) ∨ ∃ g ∈ groupBy, g.field = name := by
  rw [← has_iff, ← lookup_isSome]
  unfold askedSort
  rw [lookup_keepFirst, List.lookup_nil, Option.none_or, lookup_isSome, has_iff]
  simp [keys, OrderBy.entry, GroupBy.entry]

/-! ### As built -/

theorem keys_foldl_set {orderBy : List OrderBy} {spec kept : List (String × Direction)}
    (same : keys spec = keys kept)
    (ordered : (keys ((orderBy.map OrderBy.entry).foldl keepFirst kept)).Pairwise Before) :
    keys (orderBy.foldl (fun spec o => set spec o.field o.direction) spec) =
      keys ((orderBy.map OrderBy.entry).foldl keepFirst kept) := by
  induction orderBy generalizing spec kept with
  | nil => exact same
  | cons o rest ih =>
      rw [List.foldl_cons]
      refine ih ?_ ordered
      have grows := (keys_keepFirst (rest.map OrderBy.entry) (keepFirst kept o.entry)).1
      have first : (keys (keepFirst kept o.entry)).Pairwise Before := ordered.sublist grows.sublist
      unfold keepFirst at first ⊢
      cases present : has kept o.entry.1 with
      | true =>
          rw [if_pos rfl, keys_set_of_has (has_iff.mpr (same ▸ has_iff.mp present))]
          exact same
      | false =>
          rw [present, if_neg (by decide), keys_append] at first
          have absent : has spec o.field = false := by
            rw [← Bool.not_eq_true, has_iff, same, ← has_iff, Bool.not_eq_true]
            exact present
          rw [if_neg (by decide), set_of_not_has absent, insert_of_last, keys_append, keys_append, same]
          · rfl
          · intro other mem
            exact (List.pairwise_append.mp first).2.2 other (same ▸ mem) o.field (List.mem_singleton_self _)

theorem keys_foldl_addGroup {groupBy : List GroupBy} {spec kept : List (String × Direction)}
    (same : keys spec = keys kept)
    (ordered : (keys ((groupBy.map GroupBy.entry).foldl keepFirst kept)).Pairwise Before)
    (present : ∀ g ∈ groupBy, g.field ∈ JsObject.inherited → g.field ∈ keys spec) :
    keys (groupBy.foldl addGroup spec) = keys ((groupBy.map GroupBy.entry).foldl keepFirst kept) := by
  induction groupBy generalizing spec kept with
  | nil => exact same
  | cons g rest ih =>
      rw [List.foldl_cons]
      have grows := (keys_keepFirst (rest.map GroupBy.entry) (keepFirst kept g.entry)).1
      have first : (keys (keepFirst kept g.entry)).Pairwise Before := ordered.sublist grows.sublist
      have added : keys (addGroup spec g) = keys (keepFirst kept g.entry) := by
        unfold addGroup keepFirst
        unfold keepFirst at first
        cases has : JsObject.has kept g.entry.1 with
        | true =>
            have old : JsObject.has spec g.field = true := has_iff.mpr (same ▸ has_iff.mp has)
            rw [if_pos (.inl old), if_pos rfl]
            exact same
        | false =>
            have absent : JsObject.has spec g.field = false := by
              rw [← Bool.not_eq_true, has_iff, same, ← has_iff, Bool.not_eq_true]
              exact has
            have own : ¬ (JsObject.has spec g.field = true ∨
                JsObject.inherited.contains g.field = true) := by
              rintro (old | inherits)
              · rw [absent] at old
                exact nomatch old
              · have old := present g (List.mem_cons_self ..) (List.contains_iff_mem.mp inherits)
                rw [has_iff.mpr old] at absent
                exact nomatch absent
            rw [has, if_neg (by decide), keys_append] at first
            rw [if_neg own, if_neg (by decide), set_of_not_has absent, insert_of_last, keys_append,
              keys_append, same]
            · rfl
            · intro other mem
              exact (List.pairwise_append.mp first).2.2 other (same ▸ mem) g.field
                (List.mem_singleton_self _)
      refine ih added ordered fun g' mem inherits => ?_
      rw [added]
      have old := present g' (List.mem_cons_of_mem _ mem) inherits
      rw [same] at old
      exact (keys_keepFirst [g.entry] kept).1.subset old

theorem lookup_foldl_set (orderBy : List OrderBy) (spec : List (String × Direction)) (name : String) :
    (orderBy.foldl (fun spec o => set spec o.field o.direction) spec).lookup name =
      (lastDirection orderBy name).or (spec.lookup name) := by
  induction orderBy using List.reverseRecOn with
  | nil => rfl
  | append_singleton earlier o ih =>
      rw [List.foldl_append, List.foldl_cons, List.foldl_nil, lookup_set, ih]
      unfold lastDirection firstDirection
      rw [List.reverse_append, List.reverse_singleton, List.singleton_append, List.find?_cons]
      by_cases same : name = o.field
      · simp [same]
      · simp [same, Ne.symm same]

theorem lookup_addGroup {spec : List (String × Direction)} {g : GroupBy} {name : String}
    {d : Direction} (is : spec.lookup name = some d) : (addGroup spec g).lookup name = some d := by
  unfold addGroup
  split
  · exact is
  · rename_i absent
    rw [lookup_set, if_neg, is]
    rintro rfl
    exact absent (.inl (by rw [← lookup_isSome, is]; rfl))

theorem lookup_foldl_addGroup {groupBy : List GroupBy} {spec : List (String × Direction)}
    {name : String} {d : Direction} (is : spec.lookup name = some d) :
    (groupBy.foldl addGroup spec).lookup name = some d := by
  induction groupBy generalizing spec with
  | nil => exact is
  | cons g rest ih => exact ih (lookup_addGroup is)

theorem lookup_groups {groupBy : List GroupBy} {spec : List (String × Direction)} {name : String}
    {d : Direction} (none : spec.lookup name = none)
    (is : (groupBy.foldl addGroup spec).lookup name = some d) :
    d = .asc ∧ name ∉ JsObject.inherited := by
  induction groupBy generalizing spec with
  | nil =>
      rw [List.foldl_nil, none] at is
      exact nomatch is
  | cons g rest ih =>
      rw [List.foldl_cons] at is
      by_cases still : (addGroup spec g).lookup name = Option.none
      · exact ih still is
      · obtain ⟨d', is'⟩ := Option.ne_none_iff_exists'.mp still
        rw [lookup_foldl_addGroup is'] at is
        cases is
        unfold addGroup at is'
        split at is'
        · rw [none] at is'
          exact nomatch is'
        · rename_i new
          rw [lookup_set, none] at is'
          split at is'
          · rename_i same
            cases is'
            refine ⟨rfl, fun inherits => new (.inr ?_)⟩
            rw [← same]
            exact List.contains_iff_mem.mpr inherits
          · exact nomatch is'

theorem pairwise_builtSort (orderBy : List OrderBy) (groupBy : List GroupBy) :
    (keys (builtSort orderBy groupBy)).Pairwise Before := by
  have first (spec : List (String × Direction)) (ordered : (keys spec).Pairwise Before) :
      (keys (orderBy.foldl (fun spec o => set spec o.field o.direction) spec)).Pairwise Before := by
    induction orderBy generalizing spec with
    | nil => exact ordered
    | cons o rest ih => exact ih _ (pairwise_set ordered)
  have second (spec : List (String × Direction)) (ordered : (keys spec).Pairwise Before) :
      (keys (groupBy.foldl addGroup spec)).Pairwise Before := by
    induction groupBy generalizing spec with
    | nil => exact ordered
    | cons g rest ih =>
        refine ih _ ?_
        unfold addGroup
        split
        · exact ordered
        · exact pairwise_set ordered
  exact second _ (first [] List.Pairwise.nil)

/-! ## The order of grouped rows -/

theorem lookup_entries_order (orderBy : List OrderBy) (name : String) :
    (orderBy.map OrderBy.entry).lookup name = firstDirection orderBy name := by
  induction orderBy with
  | nil => rfl
  | cons o rest ih =>
      unfold firstDirection at ih ⊢
      rw [List.map_cons, List.find?_cons, OrderBy.entry, lookup_cons_eq, ih]
      by_cases same : name = o.field
      · simp [same]
      · simp [same, Ne.symm same]

theorem lookup_entries_group {groupBy : List GroupBy} {name : String}
    (grouped : ∃ g ∈ groupBy, g.field = name) :
    (groupBy.map GroupBy.entry).lookup name = some .asc := by
  induction groupBy with
  | nil =>
      obtain ⟨g, mem, -⟩ := grouped
      exact nomatch mem
  | cons g rest ih =>
      rw [List.map_cons, GroupBy.entry, lookup_cons_eq]
      by_cases same : name = g.field
      · rw [if_pos same]
      · rw [if_neg same]
        obtain ⟨g', mem, is⟩ := grouped
        rcases List.mem_cons.mp mem with rfl | later
        · exact absurd is.symm same
        · exact ih ⟨g', later, is⟩

theorem firstDirection_isSome {orderBy : List OrderBy} {name : String} :
    (firstDirection orderBy name).isSome = true ↔ ∃ o ∈ orderBy, o.field = name := by
  simp [firstDirection]

theorem lastDirection_isSome {orderBy : List OrderBy} {name : String} :
    (lastDirection orderBy name).isSome = true ↔ ∃ o ∈ orderBy, o.field = name := by
  unfold lastDirection
  rw [firstDirection_isSome]
  simp

/-- Grouped rows are sorted as asked if and only if numeric names are asked for first, no direction is
asked for and then changed, and no group field bears the name of an inherited property. -/
theorem grouped_sort_as_asked_iff (orderBy : List OrderBy) (groupBy : List GroupBy) :
    buildGroupedSort orderBy groupBy = sortStages (askedSort orderBy groupBy) ↔
      SortKept orderBy groupBy := by
  rw [buildGroupedSort_eq, sortStages_inj]
  have ordered (name : String) : (orderBy.foldl (fun spec o => set spec o.field o.direction) []).lookup
      name = lastDirection orderBy name := by
    rw [lookup_foldl_set, List.lookup_nil, Option.or_none]
  have asked (name : String) : (askedSort orderBy groupBy).lookup name =
      (firstDirection orderBy name).or ((groupBy.map GroupBy.entry).lookup name) := by
    unfold askedSort
    rw [lookup_keepFirst, List.lookup_nil, Option.none_or, List.lookup_append, lookup_entries_order]
  constructor
  · intro same
    refine ⟨same ▸ pairwise_builtSort orderBy groupBy, fun o mem => ?_, fun g mem inherits => ?_⟩
    · have first := asked o.field
      obtain ⟨d, is⟩ := Option.isSome_iff_exists.mp (firstDirection_isSome.mpr ⟨o, mem, rfl⟩)
      obtain ⟨d', is'⟩ := Option.isSome_iff_exists.mp (lastDirection_isSome.mpr ⟨o, mem, rfl⟩)
      have built : (builtSort orderBy groupBy).lookup o.field = some d' :=
        lookup_foldl_addGroup ((ordered o.field).trans is')
      rw [← same, built, is, Option.some_or] at first
      rw [is, is', first]
    · by_contra unordered
      have none : lastDirection orderBy g.field = Option.none := by
        rw [← Option.isNone_iff_eq_none, ← Option.not_isSome]
        simpa using fun is => unordered (lastDirection_isSome.mp is)
      have present : g.field ∈ keys (builtSort orderBy groupBy) :=
        same ▸ mem_askedSort.mpr (.inr ⟨g, mem, rfl⟩)
      rw [← has_iff, ← lookup_isSome] at present
      obtain ⟨d, is⟩ := Option.isSome_iff_exists.mp present
      exact (lookup_groups ((ordered g.field).trans none) is).2 inherits
  · rintro ⟨numeric, repeated, inherited⟩
    have split : askedSort orderBy groupBy = (groupBy.map GroupBy.entry).foldl keepFirst
        ((orderBy.map OrderBy.entry).foldl keepFirst []) := List.foldl_append ..
    have grows := (keys_keepFirst (groupBy.map GroupBy.entry)
      ((orderBy.map OrderBy.entry).foldl keepFirst [])).1
    have first := @keys_foldl_set orderBy [] [] rfl
      ((split ▸ numeric).sublist grows.sublist)
    have names : keys (builtSort orderBy groupBy) = keys (askedSort orderBy groupBy) := by
      rw [split]
      refine keys_foldl_addGroup first (split ▸ numeric) fun g mem inherits => ?_
      obtain ⟨o, asks, same⟩ := inherited g mem inherits
      rw [← has_iff, ← lookup_isSome, ordered, lastDirection_isSome]
      exact ⟨o, asks, same⟩
    have nodup : (keys (askedSort orderBy groupBy)).Nodup := (keys_keepFirst _ []).2 List.nodup_nil
    refine ext_lookup names (names ▸ nodup) fun name mem => ?_
    rw [asked]
    by_cases inOrder : ∃ o ∈ orderBy, o.field = name
    · obtain ⟨o, asks, rfl⟩ := inOrder
      obtain ⟨d, is⟩ := Option.isSome_iff_exists.mp (lastDirection_isSome.mpr ⟨o, asks, rfl⟩)
      have built : (builtSort orderBy groupBy).lookup o.field = some d :=
        lookup_foldl_addGroup ((ordered o.field).trans is)
      rw [built, repeated o asks, is, Option.some_or]
    · have none : lastDirection orderBy name = Option.none := by
        rw [← Option.isNone_iff_eq_none, ← Option.not_isSome]
        simpa using fun is => inOrder (lastDirection_isSome.mp is)
      have none' : firstDirection orderBy name = Option.none := by
        rw [← Option.isNone_iff_eq_none, ← Option.not_isSome]
        simpa using fun is => inOrder (firstDirection_isSome.mp is)
      obtain ⟨d, is⟩ := Option.isSome_iff_exists.mp (lookup_isSome.trans (has_iff.mpr mem))
      obtain ⟨rfl, -⟩ := lookup_groups ((ordered name).trans none) is
      rw [is, none', Option.none_or,
        lookup_entries_group ((mem_askedSort.mp (names ▸ mem)).resolve_left inOrder)]

def yearlyQuery : EngineOptions where
  entries := [("tenantId", .str "t1"), ("groupBy", .arr [.str "region", .str "2024"])]
  access := none

/-- A query that groups by region and then by a numeric column is sorted by the numeric one first. -/
theorem grouped_sort_not_as_asked : ¬ ∀ rt ws raw p, prepareQuery rt ws raw = .ok p →
    p.options.groupMode = true → buildGroupedSort p.options.orderBy p.options.groupBy =
      sortStages (askedSort p.options.orderBy p.options.groupBy) := by
  intro all
  have accepted : (prepareQuery Runtime.plain bareWorkspace yearlyQuery).toOption.any (fun p =>
      p.options.groupMode && p.options.orderBy.isEmpty &&
        p.options.groupBy = ["region", "2024"].map fun name => { field := name, bucket := none }) =
          true := by
    decide +kernel
  obtain ⟨p, is, shape⟩ := (Option.any_eq_true ..).mp accepted
  simp only [Bool.and_eq_true, List.isEmpty_iff, decide_eq_true_eq] at shape
  obtain ⟨⟨grouped, unordered⟩, fields⟩ := shape
  have prepared : prepareQuery Runtime.plain bareWorkspace yearlyQuery = .ok p := by
    cases found : prepareQuery Runtime.plain bareWorkspace yearlyQuery with
    | error e =>
        rw [found] at is
        exact nomatch is
    | ok q =>
        rw [found] at is
        exact congrArg _ (Option.some.inj is)
  have ordered := ((grouped_sort_as_asked_iff _ _).mp (all _ _ _ p prepared grouped)).numeric
  rw [unordered, fields] at ordered
  exact absurd ordered (by decide)

end AnalyticsBackend.Analytics
