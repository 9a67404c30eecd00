import AnalyticsBackend.Lib.Js

/-!
# The order of strings and of properties

Strings are ordered by their UTF-16 code units. An object that is built by assignments enumerates its array indices first. It is in the order of the
assignments where these names come first already, in ascending order.
-/

namespace AnalyticsBackend.Lib

/-! ## The order of strings -/

/-- The code units of a character. -/
def codeUnits (c : Char) : List Nat :=
  if c.toNat < 0x10000 then [c.toNat]
  else [0xD800 + (c.toNat - 0x10000) / 0x400, 0xDC00 + (c.toNat - 0x10000) % 0x400]

/-- The code point that a text begins with, and the rest. -/
def readUnits : List Nat → Option (Nat × List Nat)
  | [] => none
  | unit :: rest =>
      if unit < 0xD800 ∨ 0xDFFF < unit then some (unit, rest)
      else
        match rest with
        | [] => none
        | low :: rest => some (0x10000 + (unit - 0xD800) * 0x400 + (low - 0xDC00), rest)

theorem readUnits_codeUnits (c : Char) (rest : List Nat) :
    readUnits (codeUnits c ++ rest) = some (c.toNat, rest) := by
  have valid : c.toNat < 0xD800 ∨ 0xDFFF < c.toNat ∧ c.toNat < 0x110000 := c.valid
  unfold codeUnits
  split
  · have plain : c.toNat < 0xD800 ∨ 0xDFFF < c.toNat := by omega
    simp only [List.cons_append, List.nil_append, readUnits, if_pos plain]
  · have pair : ¬(0xD800 + (c.toNat - 0x10000) / 0x400 < 0xD800 ∨
        0xDFFF < 0xD800 + (c.toNat - 0x10000) / 0x400) := by omega
    simp only [List.cons_append, List.nil_append, readUnits, if_neg pair, Option.some.injEq,
      Prod.mk.injEq, and_true]
    omega

theorem utf16_injective : Function.Injective utf16 := by
  have chars : ∀ s t : List Char, s.flatMap codeUnits = t.flatMap codeUnits → s = t := by
    intro s
    induction s with
    | nil =>
        intro t same
        cases t with
        | nil => rfl
        | cons d t =>
            have reads := readUnits_codeUnits d (t.flatMap codeUnits)
            rw [← List.flatMap_cons, ← same] at reads
            exact absurd reads nofun
    | cons c s ih =>
        intro t same
        cases t with
        | nil =>
            have reads := readUnits_codeUnits c (s.flatMap codeUnits)
            rw [← List.flatMap_cons, same] at reads
            exact absurd reads nofun
        | cons d t =>
            have reads := readUnits_codeUnits c (s.flatMap codeUnits)
            rw [← List.flatMap_cons, same, List.flatMap_cons, readUnits_codeUnits] at reads
            obtain ⟨first, rest⟩ := Prod.mk.inj (Option.some.inj reads)
            rw [Char.toNat_inj.mp first, ih t rest.symm]
  intro s t same
  exact String.toList_injective (chars _ _ same)

theorem compareLex_total (a b : List Nat) :
    sortStrings.compareLex a b = true ∨ sortStrings.compareLex b a = true := by
  induction a generalizing b with
  | nil => exact .inl rfl
  | cons x a ih =>
      cases b with
      | nil => exact .inr rfl
      | cons y b =>
          have rest := ih b
          simp only [sortStrings.compareLex, Bool.or_eq_true, Bool.and_eq_true, decide_eq_true_eq,
            beq_iff_eq]
          rcases Nat.lt_trichotomy x y with less | same | more
          · exact .inl (.inl less)
          · exact rest.imp (fun is => .inr ⟨same, is⟩) fun is => .inr ⟨same.symm, is⟩
          · exact .inr (.inl more)

theorem compareLex_antisymm {a b : List Nat} (before : sortStrings.compareLex a b = true)
    (after : sortStrings.compareLex b a = true) : a = b := by
  induction a generalizing b with
  | nil =>
      cases b with
      | nil => rfl
      | cons y b => exact absurd after Bool.false_ne_true
  | cons x a ih =>
      cases b with
      | nil => exact absurd before Bool.false_ne_true
      | cons y b =>
          simp only [sortStrings.compareLex, Bool.or_eq_true, Bool.and_eq_true, decide_eq_true_eq,
            beq_iff_eq] at before after
          have head : x = y := by omega
          have tails : sortStrings.compareLex a b = true ∧ sortStrings.compareLex b a = true := by
            constructor
            · exact (before.resolve_left (by omega)).2
            · exact (after.resolve_left (by omega)).2
          rw [head, ih tails.1 tails.2]

theorem compareLex_trans {a b c : List Nat} (first : sortStrings.compareLex a b = true)
    (second : sortStrings.compareLex b c = true) : sortStrings.compareLex a c = true := by
  induction a generalizing b c with
  | nil => rfl
  | cons x a ih =>
      cases b with
      | nil => exact absurd first Bool.false_ne_true
      | cons y b =>
          cases c with
          | nil => exact absurd second Bool.false_ne_true
          | cons z c =>
              simp only [sortStrings.compareLex, Bool.or_eq_true, Bool.and_eq_true,
                decide_eq_true_eq, beq_iff_eq] at first second ⊢
              rcases first with less | ⟨same, tail⟩
              · rcases second with less' | ⟨same', -⟩ <;> left <;> omega
              · rcases second with less' | ⟨same', tail'⟩
                · left
                  omega
                · exact .inr ⟨same.trans same', ih tail tail'⟩

/-- A text has at least as many code units as characters. -/
theorem length_le_jsLength (s : String) : s.toList.length ≤ jsLength s := by
  unfold jsLength utf16
  induction s.toList with
  | nil => exact Nat.zero_le _
  | cons c rest ih =>
      rw [List.flatMap_cons, List.length_append, List.length_cons]
      have unit : 1 ≤ (if c.toNat < 0x10000 then [c.toNat]
          else [0xD800 + (c.toNat - 0x10000) / 0x400, 0xDC00 + (c.toNat - 0x10000) % 0x400]).length := by
        split <;> simp
      omega

end AnalyticsBackend.Lib

namespace AnalyticsBackend.Lib.JsObject

variable {α : Type}

/-- `a` is not enumerated after `b`, if it was added before. -/
def Before (a b : String) : Prop :=
  ∀ n ∈ propertyIndex b, ∃ m ∈ propertyIndex a, m ≤ n

instance (a b : String) : Decidable (Before a b) :=
  match hb : propertyIndex b, ha : propertyIndex a with
  | none, _ => .isTrue fun n is => by simp [hb] at is
  | some n, none => .isFalse fun before => by
      obtain ⟨m, is, -⟩ := before n hb
      simp [ha] at is
  | some n, some m =>
      decidable_of_iff (m ≤ n) ⟨fun le k is => ⟨m, ha, by
          rw [hb] at is
          cases is
          exact le⟩,
        fun before => by
          obtain ⟨k, is, le⟩ := before n hb
          rw [ha] at is
          cases is
          exact le⟩

theorem before_trans {a b c : String} (first : Before a b) (second : Before b c) : Before a c := by
  intro n is
  obtain ⟨m, isB, le⟩ := second n is
  obtain ⟨k, isA, le'⟩ := first m isB
  exact ⟨k, isA, le'.trans le⟩

/-- The names of an object, in the order in which it is enumerated. -/
def keys (object : List (String × α)) : List String := object.map Prod.fst

theorem has_iff {object : List (String × α)} {name : String} :
    has object name = true ↔ name ∈ keys object := by
  simp [has, keys, List.any_eq_true]

@[simp] theorem keys_append (object rest : List (String × α)) :
    keys (object ++ rest) = keys object ++ keys rest := List.map_append

theorem mem_keys_insert {object : List (String × α)} {name other : String} {v : α} :
    other ∈ keys (insert name v object) ↔ other = name ∨ other ∈ keys object := by
  induction object with
  | nil => simp [insert, keys]
  | cons entry rest ih =>
      unfold insert
      split
      · simp only [keys, List.map_cons, List.mem_cons] at ih ⊢
        rw [ih]
        exact or_left_comm
      · simp [keys]
      · split
        · simp [keys]
        · simp only [keys, List.map_cons, List.mem_cons] at ih ⊢
          rw [ih]
          exact or_left_comm

/-- A new name takes its place. -/
theorem pairwise_insert {object : List (String × α)} {name : String} {v : α}
    (ordered : (keys object).Pairwise Before) : (keys (insert name v object)).Pairwise Before := by
  induction object with
  | nil => exact List.pairwise_singleton ..
  | cons entry rest ih =>
      obtain ⟨first, later⟩ := List.pairwise_cons.mp ordered
      have before : Before entry.1 name → ∀ other ∈ keys (insert name v rest), Before entry.1 other := by
        intro le other mem
        rcases mem_keys_insert.mp mem with rfl | old
        · exact le
        · exact first other old
      unfold insert
      split
      · rename_i isName
        exact List.pairwise_cons.mpr ⟨before fun n is => by simp [isName] at is, ih later⟩
      · rename_i n isName isEntry
        refine List.pairwise_cons.mpr ⟨fun other mem k is => ?_, ordered⟩
        rcases List.mem_cons.mp mem with rfl | old
        · simp [isEntry] at is
        · obtain ⟨m, none, -⟩ := first other old k is
          simp [isEntry] at none
      · rename_i n m isName isEntry
        split
        · rename_i less
          have le : Before name entry.1 := by
            intro k is
            rw [isEntry] at is
            cases is
            exact ⟨n, isName, less.le⟩
          refine List.pairwise_cons.mpr ⟨fun other mem => ?_, ordered⟩
          rcases List.mem_cons.mp mem with rfl | old
          · exact le
          · exact before_trans le (first other old)
        · rename_i more
          refine List.pairwise_cons.mpr ⟨before fun k is => ?_, ih later⟩
          rw [isName] at is
          cases is
          exact ⟨m, isEntry, Nat.le_of_not_lt more⟩

/-- A name that nothing has to come after is added at the end. -/
theorem insert_of_last {object : List (String × α)} {name : String} {v : α}
    (last : ∀ other ∈ keys object, Before other name) :
    insert name v object = object ++ [(name, v)] := by
  induction object with
  | nil => rfl
  | cons entry rest ih =>
      have step := ih fun other mem => last other (List.mem_cons_of_mem _ mem)
      have before : Before entry.1 name := last entry.1 (List.mem_cons_self ..)
      unfold insert
      split
      · rw [step, List.cons_append]
      · rename_i n isName isEntry
        obtain ⟨m, is, -⟩ := before n isName
        simp [isEntry] at is
      · rename_i n m isName isEntry
        obtain ⟨k, is, le⟩ := before n isName
        rw [isEntry] at is
        cases is
        rw [if_neg (Nat.not_lt.mpr le), step, List.cons_append]

theorem keys_set_of_has {object : List (String × α)} {name : String} {v : α}
    (present : has object name = true) : keys (set object name v) = keys object := by
  unfold set keys
  rw [if_pos present, List.map_map]
  refine List.map_congr_left fun entry _ => ?_
  rw [Function.comp_apply]
  split
  · rename_i same
    exact same.symm
  · rfl

theorem set_of_not_has {object : List (String × α)} {name : String} {v : α}
    (absent : has object name = false) : set object name v = insert name v object := by
  unfold set
  rw [absent]
  rfl

theorem pairwise_set {object : List (String × α)} {name : String} {v : α}
    (ordered : (keys object).Pairwise Before) : (keys (set object name v)).Pairwise Before := by
  cases present : has object name with
  | true => rwa [keys_set_of_has present]
  | false =>
      rw [set_of_not_has present]
      exact pairwise_insert ordered

theorem lookup_cons_eq (k other : String) (v : α) (rest : List (String × α)) :
    List.lookup other ((k, v) :: rest) = if other = k then some v else rest.lookup other := by
  rw [List.lookup_cons]
  by_cases same : other = k
  · simp [same]
  · rw [if_neg same, beq_false_of_ne same]

theorem lookup_insert {object : List (String × α)} {name other : String} {v : α}
    (absent : has object name = false) :
    (insert name v object).lookup other = if other = name then some v else object.lookup other := by
  induction object with
  | nil => exact lookup_cons_eq ..
  | cons entry rest ih =>
      obtain ⟨k, w⟩ := entry
      have apart : k ≠ name := fun same => by simp [has, same] at absent
      have tail := ih (by
        rw [has, List.any_cons, Bool.or_eq_false_iff] at absent
        exact absent.2)
      have behind : ((k, w) :: insert name v rest).lookup other =
          if other = name then some v else ((k, w) :: rest).lookup other := by
        rw [lookup_cons_eq, lookup_cons_eq, tail]
        by_cases own : other = k
        · rw [if_pos own, if_neg (fun same => apart (own.symm.trans same)), if_pos own]
        · rw [if_neg own, if_neg own]
      unfold insert
      split
      · exact behind
      · exact lookup_cons_eq ..
      · split
        · exact lookup_cons_eq ..
        · exact behind

/-- Reading a property after one that is there was assigned. -/
theorem lookup_assigned (object : List (String × α)) (name other : String) (v : α) :
    (object.map fun entry => if entry.1 = name then (name, v) else entry).lookup other =
      if other = name then (object.lookup other).map fun _ => v else object.lookup other := by
  induction object with
  | nil => split <;> rfl
  | cons entry rest ih =>
      obtain ⟨k, w⟩ := entry
      rw [List.map_cons]
      by_cases same : k = name
      · subst same
        rw [if_pos rfl, lookup_cons_eq, lookup_cons_eq, ih]
        by_cases own : other = k
        · simp [own]
        · simp [own]
      · rw [if_neg same, lookup_cons_eq, lookup_cons_eq, ih]
        by_cases own : other = k
        · simp [own, same]
        · simp [own]

theorem lookup_isSome {object : List (String × α)} {name : String} :
    (object.lookup name).isSome = has object name := by
  induction object with
  | nil => rfl
  | cons entry rest ih =>
      obtain ⟨k, w⟩ := entry
      rw [lookup_cons_eq, has, List.any_cons]
      by_cases same : name = k
      · simp [same]
      · rw [if_neg same, ih, beq_false_of_ne (Ne.symm same), Bool.false_or]
        rfl

theorem mem_of_lookup {object : List (String × α)} {name : String} {v : α}
    (is : object.lookup name = some v) : (name, v) ∈ object := by
  induction object with
  | nil => exact nomatch is
  | cons entry rest ih =>
      obtain ⟨k, w⟩ := entry
      rw [lookup_cons_eq] at is
      split at is
      · rename_i here
        obtain rfl := Option.some.inj is
        rw [here]
        exact List.mem_cons_self ..
      · exact List.mem_cons_of_mem _ (ih is)

/-- A property that is named once is read. -/
theorem lookup_of_mem {object : List (String × α)} (nodup : (keys object).Nodup) {name : String}
    {v : α} (mem : (name, v) ∈ object) : object.lookup name = some v := by
  induction object with
  | nil => exact absurd mem List.not_mem_nil
  | cons entry rest ih =>
      obtain ⟨k, w⟩ := entry
      obtain ⟨once, later⟩ := List.nodup_cons.mp nodup
      rw [lookup_cons_eq]
      rcases List.mem_cons.mp mem with same | mem
      · cases same
        rw [if_pos rfl]
      · rw [if_neg fun is => once (List.mem_map.mpr ⟨_, mem, is⟩), ih later mem]

/-- The order of the properties is nothing that can be read. -/
theorem lookup_perm {object other : List (String × α)} (perm : object.Perm other)
    (nodup : (keys object).Nodup) (name : String) : object.lookup name = other.lookup name := by
  have nodup' : (keys other).Nodup := (perm.map Prod.fst).nodup_iff.mp nodup
  cases found : object.lookup name with
  | some v => exact (lookup_of_mem nodup' (perm.mem_iff.mp (mem_of_lookup found))).symm
  | none =>
      cases found' : other.lookup name with
      | none => rfl
      | some v =>
          rw [lookup_of_mem nodup (perm.mem_iff.mpr (mem_of_lookup found'))] at found
          exact nomatch found

/-- Reading a property after an assignment. -/
theorem lookup_set (object : List (String × α)) (name other : String) (v : α) :
    (set object name v).lookup other = if other = name then some v else object.lookup other := by
  cases present : has object name with
  | false => rw [set_of_not_has present, lookup_insert present]
  | true =>
      unfold set
      rw [if_pos present, lookup_assigned]
      by_cases same : other = name
      · obtain ⟨w, is⟩ := Option.isSome_iff_exists.mp (lookup_isSome.trans present)
        rw [if_pos same, if_pos same, same, is, Option.map_some]
      · rw [if_neg same, if_neg same]

/-- An object is what it reads as, name by name. -/
theorem ext_lookup {object other : List (String × α)} (names : keys object = keys other)
    (nodup : (keys object).Nodup) (same : ∀ name ∈ keys object, object.lookup name = other.lookup name) :
    object = other := by
  induction object generalizing other with
  | nil =>
      cases other with
      | nil => rfl
      | cons entry rest => exact nomatch names
  | cons entry rest ih =>
      cases other with
      | nil => exact nomatch names
      | cons entry' rest' =>
          obtain ⟨k, v⟩ := entry
          obtain ⟨k', v'⟩ := entry'
          obtain ⟨head, tail⟩ := List.cons.inj names
          have head : k = k' := head
          subst head
          obtain ⟨once, nodup⟩ := List.nodup_cons.mp nodup
          have value := same k (List.mem_cons_self ..)
          rw [lookup_cons_eq, lookup_cons_eq, if_pos rfl, if_pos rfl] at value
          cases value
          rw [ih tail nodup fun name mem => ?_]
          have read := same name (List.mem_cons_of_mem _ mem)
          have apart : name ≠ k := fun is => once (is ▸ mem)
          rwa [lookup_cons_eq, lookup_cons_eq, if_neg apart, if_neg apart] at read

/-! ### Assigning many properties -/

theorem nodup_insert {object : List (String × α)} {name : String} {v : α}
    (absent : name ∉ keys object) (nodup : (keys object).Nodup) :
    (keys (insert name v object)).Nodup := by
  induction object with
  | nil => exact List.pairwise_singleton ..
  | cons entry rest ih =>
      obtain ⟨k, w⟩ := entry
      have front : (keys ((name, v) :: (k, w) :: rest)).Nodup := List.nodup_cons.mpr ⟨absent, nodup⟩
      obtain ⟨once, later⟩ := List.nodup_cons.mp nodup
      have behind : (keys ((k, w) :: insert name v rest)).Nodup := by
        refine List.nodup_cons.mpr ⟨fun mem => ?_, ih (fun mem => absent ?_) later⟩
        · rcases mem_keys_insert.mp mem with is | mem
          · exact absent (List.mem_cons.mpr (.inl is.symm))
          · exact once mem
        · exact List.mem_cons_of_mem _ mem
      unfold insert
      split
      · exact behind
      · exact front
      · split
        · exact front
        · exact behind

theorem nodup_set {object : List (String × α)} {name : String} {v : α}
    (nodup : (keys object).Nodup) : (keys (set object name v)).Nodup := by
  cases present : has object name with
  | true => rwa [keys_set_of_has present]
  | false =>
      rw [set_of_not_has present]
      refine nodup_insert (fun mem => ?_) nodup
      rw [has_iff.mpr mem] at present
      exact nomatch present

theorem nodup_assign {object source : List (String × α)} (nodup : (keys object).Nodup) :
    (keys (assign object source)).Nodup := by
  induction source generalizing object with
  | nil => exact nodup
  | cons entry rest ih => exact ih (nodup_set nodup)

/-- Reading a property after an assignment of properties that are named once. -/
theorem lookup_assign (object : List (String × α)) {source : List (String × α)}
    (nodup : (keys source).Nodup) (name : String) :
    (assign object source).lookup name = (source.lookup name).or (object.lookup name) := by
  induction source generalizing object with
  | nil => rfl
  | cons entry rest ih =>
      obtain ⟨k, v⟩ := entry
      obtain ⟨once, later⟩ := List.nodup_cons.mp nodup
      rw [show assign object ((k, v) :: rest) = assign (set object k v) rest from rfl, ih _ later,
        lookup_set, lookup_cons_eq]
      by_cases own : name = k
      · subst own
        have absent : rest.lookup name = none := by
          rw [← Option.not_isSome_iff_eq_none, lookup_isSome, has_iff]
          exact once
        rw [if_pos rfl, if_pos rfl, absent, Option.none_or, Option.some_or]
      · rw [if_neg own, if_neg own]

section Map

variable {β : Type} (f : α → β)

/-- The object with `f` applied to every value. -/
def mapValues (object : List (String × α)) : List (String × β) :=
  object.map fun entry => (entry.1, f entry.2)

@[simp] theorem keys_mapValues (object : List (String × α)) :
    keys (mapValues f object) = keys object := by
  rw [keys, mapValues, List.map_map]
  rfl

theorem mapValues_insert (object : List (String × α)) (name : String) (v : α) :
    mapValues f (insert name v object) = insert name (f v) (mapValues f object) := by
  induction object with
  | nil => rfl
  | cons entry rest ih =>
      obtain ⟨k, w⟩ := entry
      simp only [mapValues] at ih
      simp only [mapValues, insert, List.map_cons]
      split
      · rw [List.map_cons, ih]
      · rfl
      · split
        · rfl
        · rw [List.map_cons, ih]

theorem mapValues_set (object : List (String × α)) (name : String) (v : α) :
    mapValues f (set object name v) = set (mapValues f object) name (f v) := by
  have known : has (mapValues f object) name = has object name := by
    rw [has, has, mapValues, List.any_map]
    rfl
  unfold set
  rw [known]
  split
  · simp only [mapValues, List.map_map]
    refine List.map_congr_left fun entry _ => ?_
    simp only [Function.comp_apply]
    split <;> rfl
  · exact mapValues_insert f object name v

theorem mapValues_assign (object source : List (String × α)) :
    mapValues f (assign object source) = assign (mapValues f object) (mapValues f source) := by
  induction source generalizing object with
  | nil => rfl
  | cons entry rest ih =>
      rw [show assign object (entry :: rest) = assign (set object entry.1 entry.2) rest from rfl, ih,
        mapValues_set]
      rfl

theorem lookup_mapValues (object : List (String × α)) (name : String) :
    (mapValues f object).lookup name = (object.lookup name).map f := by
  induction object with
  | nil => rfl
  | cons entry rest ih =>
      rw [mapValues, List.map_cons, lookup_cons_eq, lookup_cons_eq, ← mapValues, ih]
      split <;> rfl

end Map

end AnalyticsBackend.Lib.JsObject
