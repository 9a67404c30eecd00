import AnalyticsBackend.Audit.Trail
import AnalyticsBackend.Lib.Sorted

/-!
# An honest trail verifies

The rows that are left at any moment are one run of sealed rows, each on the head the row before
it left, in the order in which they were inserted. The trail stays so as long as an accepted
insert extends what is left of it, and a retention run picks its batches from the oldest end.
-/

namespace AnalyticsBackend.Audit
open Lib Lib.Mongo System

/-- What is asked of the steps of a run. An event with a text that storage cannot hold breaks the first,
and so does a server process that goes on from the head it knows after a retention run has emptied the
trail and another has begun a new one; a retention run whose first row to keep was read before a row was
inserted breaks the second. -/
def Orderly : TrailLabel → TrailDb → TrailDb → Prop
  | .insert row unpaired head, db, _ =>
      db.insertResult row = .inserted → unpaired = [] ∧ (db.rows = [] ∨ db.findChainHead = head)
  | .pick filter limit, db, _ => ∀ r ∈ db.rows, ∀ r' ∈ db.rows, seqLE r r' = true →
      rowId r' ∈ db.batch filter limit → rowId r ∈ db.batch filter limit
  | _, _, _ => True

/-! ## Sealed runs -/

section Sealing

variable {rt : Runtime} {keys : List String} {head head' last : ChainHead} {row : Doc}
  {rows rows' : List Doc}

/-- A dated row sealed on a head, with one of the keys or with none. -/
structure SealedBy (rt : Runtime) (keys : List String) (head : ChainHead) (row : Doc)
    (head' : ChainHead) : Prop where
  dated : ∃ ms, Doc.get row "occurredAt" = some (.date ms)
  signed : ∃ target, ∃ current ∈ "" :: keys,
    IsSealed rt target head (signingKey rt current) row head'

/-- A head that a chain can be continued from. -/
def Anchored (head : ChainHead) : Prop := 0 ≤ head.seq ∧ (head.seq = 0 → head.hash = genesisHash)

/-- Rows sealed one after the other, from a head to a head. -/
inductive Sealing (rt : Runtime) (keys : List String) : ChainHead → List Doc → ChainHead → Prop
  | nil {head : ChainHead} : Sealing rt keys head [] head
  | cons {head head' last : ChainHead} {row : Doc} {rows : List Doc} :
      SealedBy rt keys head row head' → Sealing rt keys head' rows last →
        Sealing rt keys head (row :: rows) last

theorem anchored_genesis : Anchored .genesis := ⟨le_refl _, fun _ => rfl⟩

theorem SealedBy.next (sealed : SealedBy rt keys head row head') : head'.seq = head.seq + 1 := by
  obtain ⟨target, current, -, isSealed⟩ := sealed.signed
  exact isSealed.next

theorem SealedBy.seq (sealed : SealedBy rt keys head row head') :
    Doc.get row "seq" = some (storedInteger head'.seq) := by
  obtain ⟨target, current, -, isSealed⟩ := sealed.signed
  exact isSealed.seq

theorem Anchored.next (anchor : Anchored head) (next : head'.seq = head.seq + 1) : Anchored head' := by
  obtain ⟨nonneg, -⟩ := anchor
  exact ⟨by omega, fun zero => by omega⟩

theorem SealedBy.anchored (sealed : SealedBy rt keys head row head') (anchor : Anchored head) :
    Anchored head' :=
  anchor.next sealed.next

/-- A sealed row is where the next one goes on from. -/
theorem SealedBy.ofRow (sealed : SealedBy rt keys head row head') : ChainHead.ofRow row = head' := by
  obtain ⟨target, current, -, isSealed⟩ := sealed.signed
  unfold ChainHead.ofRow
  rw [isSealed.seq, isSealed.hash, asNumber_storedInteger]
  rfl

theorem Sealing.append (run : Sealing rt keys head rows last)
    (sealed : SealedBy rt keys last row head') : Sealing rt keys head (rows ++ [row]) head' := by
  induction run with
  | nil => exact .cons sealed .nil
  | cons first _ ih => exact .cons first (ih sealed)

/-- What is left of a run when rows go from its front. -/
theorem Sealing.suffix (run : Sealing rt keys head rows last) (anchor : Anchored head)
    (left : rows' <:+ rows) : ∃ head', Anchored head' ∧ Sealing rt keys head' rows' last := by
  induction run with
  | nil =>
      obtain rfl := List.suffix_nil.mp left
      exact ⟨_, anchor, .nil⟩
  | cons first rest ih =>
      rcases List.suffix_cons_iff.mp left with rfl | later
      · exact ⟨_, anchor, .cons first rest⟩
      · exact ih (first.anchored anchor) later

theorem Sealing.le (run : Sealing rt keys head rows last) : head.seq ≤ last.seq := by
  induction run with
  | nil => exact le_refl _
  | cons sealed _ ih =>
      have next := sealed.next
      omega

/-- Every row of a run is sealed, on a head at or after its first. -/
theorem Sealing.mem (run : Sealing rt keys head rows last) (mem : row ∈ rows) :
    ∃ before after, SealedBy rt keys before row after ∧ head.seq ≤ before.seq ∧
      after.seq ≤ last.seq := by
  induction run with
  | nil => exact nomatch mem
  | @cons head head' last first rows sealed rest ih =>
      have next := sealed.next
      rcases List.mem_cons.mp mem with rfl | later
      · exact ⟨head, head', sealed, le_refl _, rest.le⟩
      · obtain ⟨before, after, sealed', above, below⟩ := ih later
        exact ⟨before, after, sealed', by omega, below⟩

/-- The last row of a run left its last head. -/
theorem Sealing.lastRow (run : Sealing rt keys head rows last) (left : rows ≠ []) :
    (rows.reverse.head?.map ChainHead.ofRow).getD .genesis = last := by
  induction run with
  | nil => exact absurd rfl left
  | cons sealed rest ih =>
      cases rest with
      | nil => exact sealed.ofRow
      | cons sealed' rest' =>
          have later := ih (List.cons_ne_nil _ _)
          rw [List.head?_reverse] at later ⊢
          rwa [List.getLast?_cons_cons]

/-- Sealed rows stand in the order of their heads. -/
theorem SealedBy.seqLE_iff {row' : Doc} {before after before' after' : ChainHead}
    (sealed : SealedBy rt keys before row after) (sealed' : SealedBy rt keys before' row' after') :
    seqLE row row' = true ↔ after.seq ≤ after'.seq := by
  have stored (m n : Int) :
      (Value.compareOption (some (storedInteger m)) (some (storedInteger n))).isLE = true ↔
        m ≤ n := by
    simp only [storedInteger, Value.compareOption, Value.compare, Number.compare,
      compareOfLessAndEq, Rat.intCast_lt_intCast, Rat.intCast_inj]
    by_cases lt : m < n
    · simp [lt, lt.le]
    · by_cases eq : m = n
      · simp [eq]
      · have gt : ¬ m ≤ n := fun le => eq (le_antisymm le (not_lt.mp lt))
        simp [lt, eq, gt]
  rw [seqLE, sealed.seq, sealed'.seq, stored]

/-- The rows of a run ascend strictly. -/
theorem Sealing.ascending (run : Sealing rt keys head rows last) :
    rows.Pairwise fun a b => seqLE a b = true ∧ seqLE b a = false := by
  induction run with
  | nil => exact .nil
  | cons sealed rest ih =>
      refine .cons (fun row mem => ?_) ih
      obtain ⟨before, after, sealed', above, -⟩ := rest.mem mem
      have next := sealed'.next
      have not : ¬ seqLE row _ = true := fun le => by
        have le := (sealed'.seqLE_iff sealed).mp le
        omega
      exact ⟨(sealed.seqLE_iff sealed').mpr (by omega), Bool.eq_false_iff.mpr not⟩

end Sealing

/-! ## The order of the rows -/

section Order

variable {rt : Runtime} {keys : List String} {head last : ChainHead} {db : TrailDb}

/-- The head that the database gives is the one the last row left. -/
theorem Sealing.findChainHead (run : Sealing rt keys head db.rows last) (left : db.rows ≠ []) :
    db.findChainHead = last := by
  have numbered : (db.rows.filter fun row => (Doc.get row "seq").any fun v => v.rank = 10) =
      db.rows := by
    refine List.filter_eq_self.mpr fun row mem => ?_
    obtain ⟨before, after, sealed, -⟩ := run.mem mem
    rw [sealed.seq]
    rfl
  rw [TrailDb.findChainHead, TrailDb.newest, numbered, insertionSort_descending run.ascending]
  exact run.lastRow left

/-- The trail as the runs keep it. -/
structure HonestTrail (rt : Runtime) (keys : List String) (db : TrailDb) : Prop where
  run : ∃ head last, Anchored head ∧ Sealing rt keys head db.rows last
  stored : ∀ row ∈ db.rows, ∃ id ∈ db.stored, rowId row = some id
  apart : (db.rows.map rowId).Nodup

theorem HonestTrail.empty (clock : Int) : HonestTrail rt keys (.empty clock) where
  run := ⟨_, _, anchored_genesis, .nil⟩
  stored := fun _ mem => nomatch mem
  apart := List.nodup_nil

/-- Whatever is left of the trail, its head can be continued from. -/
theorem HonestTrail.anchored (honest : HonestTrail rt keys db) : Anchored db.findChainHead := by
  obtain ⟨head, last, anchor, run⟩ := honest.run
  by_cases none : db.rows = []
  · have found : db.findChainHead = .genesis := by
      rw [TrailDb.findChainHead, TrailDb.newest, none]
      rfl
    rw [found]
    exact anchored_genesis
  · rw [run.findChainHead none]
    obtain ⟨head', anchor', rest⟩ := run.suffix anchor (List.nil_suffix (l := db.rows))
    cases rest
    exact anchor'

/-- What a step does to the rows: some may go, or one with a new id comes after all others. -/
structure TrailStep (e : Event Nat TrailLabel TrailDb) : Prop where
  stored : e.before.stored ⊆ e.after.stored
  rows : e.after.rows.Sublist e.before.rows ∨ ∃ row id, rowId row = some id ∧ id ∉ e.before.stored ∧
    (∀ r ∈ e.before.rows, seqLE row r = false) ∧ e.after.rows = e.before.rows ++ [row]

theorem TrailStep.refl {e : Event Nat TrailLabel TrailDb} (same : e.after = e.before) :
    TrailStep e where
  stored := by rw [same]; exact List.Subset.refl _
  rows := by rw [same]; exact .inl (List.Sublist.refl _)

/-- A row that the indexes take only sealed, on an empty trail or on its last row. -/
theorem HonestTrail.insertRow {tid : Nat} {label : TrailLabel} {row : Doc} {head' : ChainHead}
    {id : ObjectId} (honest : HonestTrail rt keys db) (anchor : Anchored head)
    (named : rowId row = some id)
    (continues : db.insertResult row = .inserted → SealedBy rt keys head row head' ∧
      (db.rows = [] ∨ db.findChainHead = head)) :
    HonestTrail rt keys (db.insertRow row) ∧ TrailStep ⟨tid, label, db, db.insertRow row⟩ := by
  by_cases taken : db.insertResult row = .inserted
  · obtain ⟨sealed, continues⟩ := continues taken
    have next := sealed.next
    have after : db.insertRow row =
        { db with rows := db.rows ++ [row], stored := id :: db.stored } := by
      rw [TrailDb.insertRow, taken, named]
      rfl
    have fresh : id ∉ db.stored := by
      intro known
      simp [TrailDb.insertResult, named, known] at taken
    obtain ⟨first, last, anchor', run⟩ := honest.run
    -- the run with the row, and that the row comes after the others
    have extended : (∃ first last, Anchored first ∧ Sealing rt keys first (db.rows ++ [row]) last) ∧
        ∀ r ∈ db.rows, seqLE row r = false := by
      rcases continues with none | continued
      · rw [none]
        exact ⟨⟨head, head', anchor, .cons sealed .nil⟩, fun _ mem => nomatch mem⟩
      · by_cases none : db.rows = []
        · rw [none]
          exact ⟨⟨head, head', anchor, .cons sealed .nil⟩, fun _ mem => nomatch mem⟩
        · obtain rfl : last = head := (run.findChainHead none).symm.trans continued
          refine ⟨⟨first, head', anchor', run.append sealed⟩, fun r mem => ?_⟩
          obtain ⟨before, after, sealed', -, below⟩ := run.mem mem
          refine Bool.eq_false_iff.mpr fun le => ?_
          have le := (sealed.seqLE_iff sealed').mp le
          omega
    rw [after]
    refine ⟨⟨extended.1, ?_, ?_⟩, ?_, .inr ⟨row, id, named, fresh, extended.2, rfl⟩⟩
    · intro r mem
      rcases List.mem_append.mp mem with old | new
      · obtain ⟨id', known, same⟩ := honest.stored r old
        exact ⟨id', List.mem_cons_of_mem _ known, same⟩
      · rw [List.mem_singleton.mp new]
        exact ⟨id, List.mem_cons_self .., named⟩
    · rw [List.map_append, List.nodup_append]
      refine ⟨honest.apart, List.nodup_singleton _, fun a old b new same => ?_⟩
      obtain ⟨r, mem, rfl⟩ := List.mem_map.mp old
      obtain ⟨id', known, isId⟩ := honest.stored r mem
      rw [List.map_singleton, List.mem_singleton, named] at new
      rw [same, new] at isId
      exact fresh (Option.some.inj isId ▸ known)
    · exact List.subset_cons_self ..
  · have after : db.insertRow row = db := by
      unfold TrailDb.insertRow
      split
      · exact absurd ‹_› taken
      · rfl
    rw [after]
    exact ⟨honest, .refl rfl⟩

/-- The ids of a batch, from its pick to its end: nothing that the filter leaves has one of them,
and nothing without one of them comes before a row with one. -/
structure Picked (filter : PurgeFilter) (ids : List (Option ObjectId)) (db : TrailDb) : Prop where
  known : ∀ id ∈ ids, ∃ i ∈ db.stored, id = some i
  matched : ∀ row ∈ db.rows, rowId row ∈ ids → filter.matches row = true
  oldest : ∀ r ∈ db.rows, ∀ r' ∈ db.rows, seqLE r r' = true → rowId r' ∈ ids → rowId r ∈ ids

theorem HonestTrail.picked {filter : PurgeFilter} {limit : Nat} (honest : HonestTrail rt keys db)
    (orderly : Orderly (.pick filter limit) db db) : Picked filter (db.batch filter limit) db := by
  have from_ {id : Option ObjectId} (mem : id ∈ db.batch filter limit) :
      ∃ row ∈ db.rows, filter.matches row = true ∧ rowId row = id := by
    obtain ⟨row, taken, rfl⟩ := List.mem_map.mp mem
    have among := List.mem_of_mem_take taken
    rw [List.mem_insertionSort] at among
    obtain ⟨here, matched⟩ := List.mem_filter.mp among
    exact ⟨row, here, matched, rfl⟩
  refine ⟨fun id mem => ?_, fun row here mem => ?_, orderly⟩
  · obtain ⟨row, here, -, rfl⟩ := from_ mem
    exact honest.stored row here
  · obtain ⟨row', here', matched, same⟩ := from_ mem
    obtain rfl := List.inj_on_of_nodup_map honest.apart here' here same
    exact matched

/-- The batch stays as it is, whatever the others do. -/
theorem Picked.step {filter : PurgeFilter} {ids : List (Option ObjectId)}
    {e : Event Nat TrailLabel TrailDb} (picked : Picked filter ids e.before) (step : TrailStep e) :
    Picked filter ids e.after := by
  have known : ∀ id ∈ ids, ∃ i ∈ e.after.stored, id = some i := fun id mem => by
    obtain ⟨i, here, same⟩ := picked.known id mem
    exact ⟨i, step.stored here, same⟩
  rcases step.rows with fewer | ⟨row, id, named, fresh, above, more⟩
  · exact ⟨known, fun r mem => picked.matched r (fewer.subset mem),
      fun r mem r' mem' => picked.oldest r (fewer.subset mem) r' (fewer.subset mem')⟩
  · have outside : rowId row ∉ ids := by
      intro mem
      obtain ⟨i, here, same⟩ := picked.known _ mem
      rw [named] at same
      exact fresh (Option.some.inj same ▸ here)
    refine ⟨known, ?_, ?_⟩ <;> rw [more]
    · intro r mem listed
      rcases List.mem_append.mp mem with old | new
      · exact picked.matched r old listed
      · rw [List.mem_singleton.mp new] at listed
        exact absurd listed outside
    · intro r mem r' mem' le listed
      rcases List.mem_append.mp mem' with old' | new'
      · rcases List.mem_append.mp mem with old | new
        · exact picked.oldest r old r' old' le listed
        · rw [List.mem_singleton.mp new, above r' old'] at le
          exact nomatch le
      · rw [List.mem_singleton.mp new'] at listed
        exact absurd listed outside

/-- Deleting a batch takes rows from the front. -/
theorem HonestTrail.deleteBatch {tid : Nat} {label : TrailLabel} {filter : PurgeFilter}
    {ids : List (Option ObjectId)} (honest : HonestTrail rt keys db)
    (picked : Picked filter ids db) :
    HonestTrail rt keys (db.deleteBatch filter ids) ∧
      TrailStep ⟨tid, label, db, db.deleteBatch filter ids⟩ := by
  have fewer : (db.deleteBatch filter ids).rows.Sublist db.rows := List.filter_sublist
  obtain ⟨head, last, anchor, run⟩ := honest.run
  have front : (db.deleteBatch filter ids).rows <:+ db.rows := by
    refine filter_suffix (run.ascending.imp_of_mem fun {r r'} mem mem' order kept => ?_)
    rw [Bool.not_eq_true', inBatch, Bool.and_eq_false_iff] at kept ⊢
    by_cases listed : rowId r' ∈ ids
    · have listed' := picked.oldest r mem r' mem' order.1 listed
      simp [picked.matched r mem listed', listed'] at kept
    · exact .inr (by simpa using listed)
  obtain ⟨head', anchor', rest⟩ := run.suffix anchor front
  exact ⟨⟨⟨head', last, anchor', rest⟩, fun r mem => honest.stored r (fewer.subset mem),
    honest.apart.sublist (fewer.map rowId)⟩, List.Subset.refl _, .inl fewer⟩

end Order

/-! ## The steps of the programs -/

section Steps

variable {rt : Runtime} {keys : List String} {i : Nat}

/-- The invariant of a run. -/
abbrev TrailInv (rt : Runtime) (keys : List String)
    (w : World Nat TrailLabel TrailDb) : Prop := HonestTrail rt keys w.store

abbrev SafeTrail {A : Type} (rt : Runtime) (keys : List String) (i : Nat)
    (Q : A → World Nat TrailLabel TrailDb → Prop) (p : TrailProg A)
    (P : World Nat TrailLabel TrailDb → Prop) : Prop :=
  System.Safe (trailSystem rt keys Orderly).env Orderly (TrailInv rt keys) TrailStep i Q p P

theorem stable_fact (φ : Prop) :
    System.Stable (trailSystem rt keys Orderly).env (TrailInv rt keys) TrailStep i fun _ => φ :=
  ⟨fun _ _ _ h _ _ _ _ => h, fun _ _ _ h _ => h⟩

theorem stable_picked (filter : PurgeFilter) (ids : List (Option ObjectId)) :
    System.Stable (trailSystem rt keys Orderly).env (TrailInv rt keys) TrailStep i
      fun w => Picked filter ids w.store := by
  constructor
  · intro w e _ picked _ before step _
    rw [← before] at picked
    exact picked.step step
  · rintro w db' _ picked ⟨rows, stored⟩
    exact ⟨by rw [stored]; exact picked.known, by rw [rows]; exact picked.matched,
      by rw [rows]; exact picked.oldest⟩

/-- A read of the store, and what it says of an honest trail. -/
theorem safe_look {A : Type} {f : TrailDb → A} {R : A → Prop}
    {P : World Nat TrailLabel TrailDb → Prop}
    (found : ∀ db, HonestTrail rt keys db → R (f db)) :
    SafeTrail rt keys i (fun a _ => R a) (look f) P :=
  System.Safe.update (fun a => stable_fact (R a)) fun w honest _ _ =>
    ⟨honest, .refl rfl, found w.store honest⟩

theorem safe_read {A : Type} {f : TrailDb → A} {P : World Nat TrailLabel TrailDb → Prop} :
    SafeTrail rt keys i (fun _ _ => True) (look f) P :=
  safe_look (R := fun _ => True) fun _ _ => trivial

/-- Inserting an event from a cached head that can be continued from leaves such a head. -/
theorem safe_insertAttempts {current : String} (known : current ∈ "" :: keys) (event : AuditEvent)
    (attempts : Nat) (chainHead : Option ChainHead) (anchor : ∀ h ∈ chainHead, Anchored h) :
    SafeTrail rt keys i (fun r _ => ∀ h ∈ r.2, Anchored h)
      (insertAttempts rt (signingKey rt current) event attempts chainHead) fun _ => True := by
  induction attempts generalizing chainHead with
  | zero => exact fun _ _ _ => anchor
  | succ attempts ih =>
      have head : SafeTrail rt keys i (fun h _ => Anchored h) (headFrom chainHead)
          fun _ => True := by
        cases chainHead with
        | some h => exact fun _ _ _ => anchor h rfl
        | none => exact safe_look fun db honest => honest.anchored
      refine head.bind fun h => .of_fact (fun _ _ fact => fact) fun anchored => ?_
      refine safe_read.bind fun now => ?_
      split
      · exact fun _ _ _ h' same => Option.some.inj same ▸ anchored
      · rename_i row next made
        obtain ⟨other, seq⟩ := get_sealMemory made
        have named : rowId row = some event.id := by
          rw [rowId, other "_id" (by decide), AuditEvent.document, Doc.get_set, if_neg (by decide),
            Doc.get_set, if_pos rfl]
        have sealed (held : event.unpaired = []) : SealedBy rt keys h row next := by
          rw [held, sealMemory_nil] at made
          refine ⟨⟨event.occurredAt.getD now, ?_⟩, _, current, known, isSealed_of_sealRow made⟩
          rw [other "occurredAt" (by decide), AuditEvent.document, Doc.get_set, if_pos rfl]
        have insert : SafeTrail rt keys i (fun _ _ => True)
            (Prog.update (.insert row event.unpaired h) (TrailDb.insertRow row)
              fun db => db.insertResult row) fun _ => True := by
          refine System.Safe.update (fun _ => stable_fact True) fun w honest _ orderly => ?_
          obtain ⟨honest', step⟩ := honest.insertRow anchored named fun taken =>
            ⟨sealed (orderly taken).1, (orderly taken).2⟩
          exact ⟨honest', step, trivial⟩
        refine insert.bind fun result => ?_
        cases result with
        | inserted => exact fun _ _ _ h' same => Option.some.inj same ▸ anchored.next seq
        | idConflict => exact fun _ _ _ h' same => Option.some.inj same ▸ anchored
        | seqConflict => exact ih none fun _ mem => nomatch mem

theorem safe_writeQueue {current : String} (known : current ∈ "" :: keys)
    (events : List AuditEvent) (chainHead : Option ChainHead)
    (anchor : ∀ h ∈ chainHead, Anchored h) :
    SafeTrail rt keys i (fun _ _ => True) (writeQueue rt (signingKey rt current) events chainHead)
      fun _ => True := by
  induction events generalizing chainHead with
  | nil => exact fun _ _ _ => trivial
  | cons event rest ih =>
      refine (safe_insertAttempts known event maxChainAttempts chainHead anchor).bind ?_
      rintro ⟨result, chainHead'⟩
      exact .of_fact (fun _ _ fact => fact) fun anchor' =>
        (ih chainHead' anchor').weaken fun _ _ _ => trivial

theorem safe_purgeBatches (filter : PurgeFilter) (batchSize batches deleted : Nat) :
    SafeTrail rt keys i (fun _ _ => True) (purgeBatches filter batchSize batches deleted)
      fun _ => True := by
  induction batches generalizing deleted with
  | zero => exact fun _ _ _ => trivial
  | succ batches ih =>
      have pick : SafeTrail rt keys i (fun ids w => Picked filter ids w.store)
          (Prog.read (.pick filter batchSize) fun db => db.batch filter batchSize)
          fun _ => True :=
        System.Safe.update (fun ids => stable_picked filter ids) fun w honest _ orderly =>
          ⟨honest, .refl rfl, honest.picked orderly⟩
      refine pick.bind fun ids => ?_
      split
      · exact fun _ _ _ => trivial
      · have delete : SafeTrail rt keys i (fun _ _ => True)
            (Prog.update (.delete filter ids) (TrailDb.deleteBatch filter ids)
              fun db => db.rows.countP (inBatch filter ids))
            fun w => Picked filter ids w.store := by
          refine System.Safe.update (fun _ => stable_fact True) fun w honest picked _ => ?_
          obtain ⟨honest', step⟩ := honest.deleteBatch picked
          exact ⟨honest', step, trivial⟩
        refine delete.bind fun count => ?_
        split
        · exact fun _ _ _ => trivial
        · split
          · exact safe_read.bind fun more => fun _ _ _ => trivial
          · exact ih _

theorem safe_purgeAuditLog (req : PurgeRequest) :
    SafeTrail rt keys i (fun _ _ => True) (purgeAuditLog req) fun _ => True := by
  have boundary : SafeTrail rt keys i (fun _ _ => True) (boundaryOf req) fun _ => True := by
    unfold boundaryOf
    split
    · exact fun _ _ _ => trivial
    · exact safe_read.bind fun _ => fun _ _ _ => trivial
  refine boundary.bind fun boundary => ?_
  refine safe_read.bind fun kept => ?_
  have purged : SafeTrail rt keys i (fun _ _ => True)
      (purgeBatched { boundary, firstKept := kept } req) fun _ => True := by
    unfold purgeBatched
    split
    · exact safe_read.bind fun _ => fun _ _ _ => trivial
    · exact (safe_purgeBatches _ _ _ _).bind fun _ => fun _ _ _ => trivial
  exact purged.bind fun _ => fun _ _ _ => trivial

theorem trail_discipline (clock : Int) :
    System.Discipline (trailSystem rt keys Orderly) (TrailInv rt keys) TrailStep
      (fun _ _ _ => True) (.empty clock) where
  init := .empty clock
  env := by
    rintro w db' honest ⟨rows, stored⟩
    refine ⟨?_, ?_, ?_⟩
    · rw [rows]; exact honest.run
    · rw [rows, stored]; exact honest.stored
    · rw [rows]; exact honest.apart
  start := by
    rintro i p (⟨current, known, events, rfl⟩ | ⟨req, rfl⟩)
    · exact ⟨fun _ => True, stable_fact True, fun _ _ _ => trivial,
        safe_writeQueue known events none fun _ mem => nomatch mem⟩
    · exact ⟨fun _ => True, stable_fact True, fun _ _ _ => trivial,
        (safe_purgeAuditLog req).bind fun _ => fun _ _ _ => trivial⟩

end Steps

/-! ## Verifying -/

section Verify

variable {rt : Runtime} {keys : List String} {head last : ChainHead} {rows : List Doc}
  {byId : KeysById}

/-- A key found under the id of one of the keys is that key. -/
theorem keysById_known
    (distinct : ∀ a ∈ keys, ∀ b ∈ keys, keyIdFor rt a = keyIdFor rt b → a = b)
    {current : String} {previous : List String}
    (known : ∀ key ∈ current :: previous, key ∈ "" :: keys) {key : String} (mem : key ∈ keys) :
    keysById rt current previous (keyIdFor rt key) = some key ∨
      keysById rt current previous (keyIdFor rt key) = none := by
  have sound (l : List String) (byId : KeysById) (within : ∀ key ∈ l, key ∈ "" :: keys)
      (before : ∀ id k, byId id = some k → k ∈ keys ∧ keyIdFor rt k = id) :
      ∀ id k, l.foldl (fun byId key => if key = "" then byId
        else Function.update byId (keyIdFor rt key) (some key)) byId id = some k →
          k ∈ keys ∧ keyIdFor rt k = id := by
    induction l generalizing byId with
    | nil => exact before
    | cons first rest ih =>
        refine ih _ (fun k mem => within k (List.mem_cons_of_mem _ mem)) fun id k found => ?_
        dsimp only at found
        by_cases empty : first = ""
        · rw [if_pos empty] at found
          exact before id k found
        · rw [if_neg empty] at found
          by_cases own : id = keyIdFor rt first
          · rw [own, Function.update_self] at found
            obtain rfl := Option.some.inj found
            have member := (List.mem_cons.mp (within _ (List.mem_cons_self ..))).resolve_left empty
            exact ⟨member, own.symm⟩
          · rw [Function.update_of_ne own] at found
            exact before id k found
  cases found : keysById rt current previous (keyIdFor rt key) with
  | none => exact .inr rfl
  | some k =>
      obtain ⟨mem', same⟩ := sound (current :: previous) _ known
        (fun _ _ absent => absurd absent (by simp)) _ k found
      exact .inl (congrArg some (distinct k mem' key mem same))

/-- The links and the hashes of a run of sealed rows are sound for a verifier that takes no key for
another. -/
theorem Sealing.linked (run : Sealing rt keys head rows last) (anchor : Anchored head)
    (known : ∀ key ∈ keys, byId (keyIdFor rt key) = some key ∨ byId (keyIdFor rt key) = none) :
    Linked (fun row => checkRow rt row byId = some .ok ∨ checkRow rt row byId = some .unverifiable)
      none rows := by
  have judged {head head' : ChainHead} {row : Doc} (sealed : SealedBy rt keys head row head') :
      checkRow rt row byId = some .ok ∨ checkRow rt row byId = some .unverifiable := by
    obtain ⟨target, current, mem, isSealed⟩ := sealed.signed
    refine isSealed.checkRow fun k signs => ?_
    unfold signingKey at signs
    split at signs
    · exact nomatch signs
    · obtain rfl := Option.some.inj signs
      exact known current ((List.mem_cons.mp mem).resolve_left ‹_›)
  have later {head last : ChainHead} {previous : Doc} {rows : List Doc} {before : ChainHead}
      (run : Sealing rt keys head rows last) (left : SealedBy rt keys before previous head) :
      Linked (fun row => checkRow rt row byId = some .ok ∨
        checkRow rt row byId = some .unverifiable) (some previous) rows := by
    induction run generalizing previous before with
    | nil => trivial
    | cons sealed _ ih =>
        obtain ⟨target, current, -, isSealed⟩ := left.signed
        obtain ⟨target', current', -, isSealed'⟩ := sealed.signed
        exact ⟨isSealed.linkSound isSealed', judged sealed, ih sealed⟩
  cases run with
  | nil => trivial
  | @cons _ head' _ row rows sealed rest =>
      refine ⟨fun first => ?_, judged sealed, later rest sealed⟩
      obtain ⟨target, current, -, isSealed⟩ := sealed.signed
      have next := sealed.next
      rw [isSealed.seq, asNumber_storedInteger] at first
      have one : head'.seq = 1 := by simpa using first
      rw [isSealed.prevHash, anchor.2 (by omega)]
      simp [isText]

/-- An honest trail verifies. -/
theorem HonestTrail.verifies {db : TrailDb} (honest : HonestTrail rt keys db)
    (known : ∀ key ∈ keys, byId (keyIdFor rt key) = some key ∨ byId (keyIdFor rt key) = none) :
    ∃ report, verifyAuditChain rt db.rows byId none = some report ∧ report.ok = true := by
  obtain ⟨head, last, anchor, run⟩ := honest.run
  have all : ∀ row ∈ db.rows, chained row = true := fun row mem => by
    obtain ⟨before, after, sealed, above, -⟩ := run.mem mem
    obtain ⟨target, current, -, isSealed⟩ := sealed.signed
    exact isSealed.chained (anchor.1.trans above)
  have walked : streamChain db.rows = db.rows := by
    rw [streamChain, List.filter_eq_self.mpr all]
    exact (run.ascending.imp fun order => order.1).insertionSort_eq
  refine verifyAuditChain_clean all (fun row mem => ?_) ?_
  · obtain ⟨before, after, sealed, -⟩ := run.mem mem
    exact sealed.dated
  · rw [walked]
    exact run.linked anchor known

end Verify

/-- In every run of server processes and retention runs whose steps are orderly, the trail
verifies at any moment. -/
theorem honest_trail_verifies (rt : Runtime) (keys : List String)
    (distinct : ∀ a ∈ keys, ∀ b ∈ keys, keyIdFor rt a = keyIdFor rt b → a = b) (clock : Int)
    {c : Config Nat TrailLabel TrailDb Unit}
    (reach : (trailSystem rt keys Orderly).Reach (.empty clock) c) (current : String)
    (previous : List String) (known : ∀ key ∈ current :: previous, key ∈ "" :: keys) :
    ∃ report, verifyAuditChain rt c.world.store.rows (keysById rt current previous) none =
      some report ∧ report.ok = true :=
  (reach.sound (trail_discipline clock)).inv.verifies fun _ mem => keysById_known distinct known mem

instance Orderly.decidable (label : TrailLabel) (db db' : TrailDb) :
    Decidable (Orderly label db db') :=
  match label with
  | .insert row unpaired head =>
      inferInstanceAs (Decidable (db.insertResult row = .inserted →
        unpaired = [] ∧ (db.rows = [] ∨ db.findChainHead = head)))
  | .pick filter limit =>
      inferInstanceAs (Decidable (∀ r ∈ db.rows, ∀ r' ∈ db.rows, seqLE r r' = true →
        rowId r' ∈ db.batch filter limit → rowId r ∈ db.batch filter limit))
  | .look => isTrue trivial
  | .delete _ _ => isTrue trivial

instance (rt : Runtime) (keys : List String) (label : TrailLabel) (db db' : TrailDb) :
    Decidable ((trailSystem rt keys Orderly).ok label db db') :=
  Orderly.decidable label db db'

namespace EmptiedTrail

/-- The text of a field of some content. -/
def contentText (name : String) : Json → String
  | .obj fields =>
      match fields.lookup name with
      | some (.str s) => s
      | _ => ""
  | _ => ""

/-- Digests that tell contents with different actions apart, and those with escapes from those without. -/
def runtime : Runtime where
  sha256 := contentText "action"
  hmacSha256 := fun key c => key ++ " " ++ contentText "action" c
  sha256Escaped := fun c _ => "\\u " ++ contentText "action" c
  hmacSha256Escaped := fun key c _ => "\\u " ++ key ++ " " ++ contentText "action" c
  sha256Text := id
  decimalText := fun _ => ""
  text := fun _ => ""
  castDate := fun _ => none

def event (id : Nat) (occurredAt : Int) (action : String) : AuditEvent :=
  { id := ⟨id⟩, occurredAt := some occurredAt, fields := [("action", .str action)] }

/-- A server process that signs with the key `k1`. -/
def writer (events : List AuditEvent) : TrailProg Unit :=
  writeQueue runtime (signingKey runtime "k1") events none

/-- A retention run with the cutoff 10. -/
def retention : TrailProg Unit :=
  purgeAuditLog { cutoff := 10, heldTenantIds := [], batchSize := 5, maxBatches := 2, dryRun := false }
    >>= fun _ => pure ()

/-- A first process with an old event and a later one, and its first event. -/
def firstEvent : List (Move Nat TrailLabel TrailDb Unit) :=
  .start 0 (writer [event 1 1 "a", event 2 20 "b"]) :: List.replicate 3 (.act 0)

/-- A retention run takes it away. -/
def purge : List (Move Nat TrailLabel TrailDb Unit) :=
  .start 1 retention :: List.replicate 3 (.act 1)

/-- The event of another process. -/
def otherEvent : List (Move Nat TrailLabel TrailDb Unit) :=
  .start 2 (writer [event 3 21 "c"]) :: List.replicate 3 (.act 2)

/-- The second event of the first process, which goes on from the head it knows. -/
abbrev secondEvent : List (Move Nat TrailLabel TrailDb Unit) := List.replicate 2 (.act 0)

def undisturbed : List (Move Nat TrailLabel TrailDb Unit) := firstEvent ++ (purge ++ secondEvent)

def overtaken : List (Move Nat TrailLabel TrailDb Unit) :=
  firstEvent ++ (purge ++ (otherEvent ++ secondEvent))

/-- The trail after some moves. -/
def after (moves : List (Move Nat TrailLabel TrailDb Unit)) : Config Nat TrailLabel TrailDb Unit :=
  moves.foldl Config.move (.idle (.empty 0))

theorem starts (events : List AuditEvent) (i : Nat) (ok : TrailLabel → TrailDb → TrailDb → Prop) :
    (trailSystem runtime ["k1"] ok).start i (writer events) :=
  .inl ⟨"k1", by decide, events, rfl⟩

end EmptiedTrail

open EmptiedTrail in
/-- The first process goes on before another does. -/
theorem honest_trail_verifies_undisturbed :
    ∃ report, verifyAuditChain runtime (after undisturbed).world.store.rows
      (keysById runtime "k1" []) none = some report ∧ report.ok = true := by
  refine honest_trail_verifies runtime ["k1"] (by decide) 0 (c := after undisturbed)
    (Reach.moves .init ?_) "k1" [] (by decide)
  refine LegalRun.append ⟨⟨rfl, starts _ 0 _⟩, ?_⟩ (LegalRun.append ⟨⟨rfl, .inr ⟨_, rfl⟩⟩, ?_⟩ ?_)
  all_goals decide +kernel

open EmptiedTrail in
/-- A process that goes on from the head it knows, after a retention run has emptied the trail and
another process has begun a new one, breaks the chain. -/
theorem emptied_trail_breaks :
    ¬ ∀ (rt : Runtime) (keys : List String),
        (∀ a ∈ keys, ∀ b ∈ keys, keyIdFor rt a = keyIdFor rt b → a = b) →
      ∀ (clock : Int) (c : Config Nat TrailLabel TrailDb Unit),
        (trailSystem rt keys fun _ _ _ => True).Reach (.empty clock) c →
      ∀ (current : String) (previous : List String),
        (∀ key ∈ current :: previous, key ∈ "" :: keys) →
      ∃ report, verifyAuditChain rt c.world.store.rows (keysById rt current previous) none =
        some report ∧ report.ok = true := by
  intro all
  obtain ⟨report, verified, ok⟩ := all runtime ["k1"] (by decide) 0 (after overtaken)
    (Reach.moves .init (LegalRun.append ⟨⟨rfl, starts _ 0 _⟩, .acts (fun _ _ _ => trivial) ..⟩
      (LegalRun.append ⟨⟨rfl, .inr ⟨_, rfl⟩⟩, .acts (fun _ _ _ => trivial) ..⟩
        (LegalRun.append ⟨⟨rfl, starts _ 2 _⟩, .acts (fun _ _ _ => trivial) ..⟩
          (.acts (fun _ _ _ => trivial) ..))))) "k1" [] (by decide)
  have broken : (verifyAuditChain runtime (after overtaken).world.store.rows
      (keysById runtime "k1" []) none).any (fun report => report.ok) = false := by
    decide +kernel
  rw [verified, Option.any_some, ok] at broken
  cases broken

open EmptiedTrail in
-- half of a surrogate pair, in the only event of a trail
example : ((verifyAuditChain runtime (after (.start 0 (writer [{ event 1 1 "a" with
      unpaired := [⟨["reason"], [0xD83D], by decide⟩] }]) :: List.replicate 3 (.act 0))).world.store.rows
    (keysById runtime "k1" []) none).map fun report => report.errors.map ChainError.type) =
    some [.hashMismatch] := by
  decide +kernel

end AnalyticsBackend.Audit
