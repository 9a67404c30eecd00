import AnalyticsBackend.Metrics.Service

/-!
# An archived metric stays archived

The versions of a metric are numbered in the order of their inserts and keep their content. An edit
that read the latest version before an archive inserts the next one after it: where none does, nothing
of an archived metric resolves any more.
-/

namespace AnalyticsBackend.Metrics
open Lib Collection Mongo Analytics System

abbrev MetricEvent := Event Nat MetricLabel MetricDb

abbrev MetricWorld := World Nat MetricLabel MetricDb

/-! ## What should hold -/

def MetricDb.contents (db : MetricDb) : List MetricVersion := db.versions.map VersionRow.content

def Numbered (tenantId key : String) (db : MetricDb) : Prop :=
  ∃ n, (db.ofKey tenantId key).map (fun row => row.content.version) = List.range' 1 n

/-- A version that is approved after a step was approved before, or the step approves a draft. -/
def Approves (e : MetricEvent) : Prop :=
  ∀ row ∈ e.after.versions, row.status = .approved → row ∈ e.before.versions ∨
    ∃ draft ∈ e.before.versions, draft.content = row.content ∧ draft.status = .draft ∧
      ∃ by' now, e.label = .approve row.content.tenantId row.content.definition.key
        row.content.version by' now

/-- Versions are numbered and keep their content, and only drafts are approved. -/
structure Lawful (w : MetricWorld) : Prop where
  numbered : ∀ tenantId key, Numbered tenantId key w.store
  kept : ∀ e ∈ w.trace, e.before.contents <+: w.store.contents
  approves : ∀ e ∈ w.trace, Approves e

structure Sealed (tenantId key : String) (db : MetricDb) : Prop where
  some : db.ofKey tenantId key ≠ []
  archived : ∀ row ∈ db.versions, row.isOf tenantId key = true → row.status = .archived

/-- A version that is inserted finds the one that it builds on not archived. -/
def BuildsOnLive (e : MetricEvent) : Prop :=
  ∀ content, e.label = .insert content → e.before.admits content = true →
    ∀ row ∈ e.before.versions, row.isOf content.tenantId content.definition.key = true →
      row.content.version + 1 = content.version → row.status ≠ .archived

/-- A catalogue as the service leaves it. -/
structure Catalogue (db : MetricDb) : Prop where
  keys : ∀ content ∈ db.contents, isMetricKey content.definition.key = true
  numbered : ∀ tenantId key, Numbered tenantId key db

/-! ## What each step does -/

def MetricVersion.isOf (tenantId key : String) (content : MetricVersion) : Bool :=
  content.tenantId = tenantId && content.definition.key = key

def numbers (tenantId key : String) (contents : List MetricVersion) : List Nat :=
  (contents.filter (MetricVersion.isOf tenantId key)).map MetricVersion.version

theorem numbers_contents (tenantId key : String) (db : MetricDb) :
    numbers tenantId key db.contents =
      (db.ofKey tenantId key).map fun row => row.content.version := by
  unfold numbers MetricDb.contents MetricDb.ofKey
  rw [List.filter_map, List.map_map]
  rfl

/-- The content that a step inserts. -/
def MetricLabel.inserted (label : MetricLabel) (db : MetricDb) : List MetricVersion :=
  match label with
  | .insert content => if db.admits content then [content] else []
  | _ => []

theorem contents_act (label : MetricLabel) (db : MetricDb) :
    (label.act db).contents = db.contents ++ label.inserted db := by
  cases label with
  | look => exact (List.append_nil _).symm
  | insert content =>
      simp only [MetricLabel.act, MetricLabel.inserted]
      by_cases admitted : db.admits content = true
      · rw [if_pos admitted, if_pos admitted]
        simp [MetricDb.contents]
      · rw [if_neg admitted, if_neg admitted, List.append_nil]
  | approve tenantId key version by' now =>
      refine Eq.trans ?_ (List.append_nil _).symm
      exact map_updateFirst (f := VersionRow.approve by' now) (fun _ => rfl) db.versions
  | archiveKey tenantId key by' now =>
      refine Eq.trans ?_ (List.append_nil _).symm
      simp only [MetricLabel.act, MetricDb.contents, List.map_map]
      refine List.map_congr_left fun row _ => ?_
      simp only [Function.comp_apply, VersionRow.archive]
      split
      · split <;> rfl
      · rfl

theorem findLatest_some {db : MetricDb} {tenantId key : String} {status : Option MetricStatus}
    {row : VersionRow} (found : db.findLatest tenantId key status = some row) :
    row ∈ db.versions ∧ row.isOf tenantId key = true ∧ ∀ s, status = some s → row.status = s := by
  obtain ⟨ofKey, matched⟩ := List.mem_filter.mp (List.argmax_mem found)
  obtain ⟨mem, is⟩ := List.mem_filter.mp ofKey
  refine ⟨mem, is, ?_⟩
  rintro s rfl
  simpa using matched

theorem findVersion_some {db : MetricDb} {tenantId key : String} {version : Nat} {row : VersionRow}
    (found : db.findVersion tenantId key version = some row) :
    row ∈ db.versions ∧ row.isOf tenantId key = true ∧ row.content.version = version := by
  have is := List.find?_some found
  simp only [Bool.and_eq_true, decide_eq_true_eq] at is
  exact ⟨List.mem_of_find?_eq_some found, is.1, is.2⟩

structure MetricStep (past : List MetricEvent) (e : MetricEvent) : Prop where
  does : e.after = e.label.act e.before
  insert : ∀ content, e.label = .insert content → isMetricKey content.definition.key = true ∧
    (content.version = 1 ∨ ∃ d ∈ past, ∃ key latest,
      d.before.findLatest content.tenantId key none = some latest ∧
      content.definition.key = trim key ∧ content.version = latest.content.version + 1)
  archive : ∀ tenantId key by' now, e.label = .archiveKey tenantId key by' now →
    ∃ d ∈ past, (d.before.findLatest tenantId key none).isSome = true

section Step

variable {w : MetricWorld} {e : MetricEvent}

/-- What holds of every catalogue, whatever the calls do. -/
structure CatalogueInv (w : MetricWorld) : Prop where
  keys : ∀ content ∈ w.store.contents, isMetricKey content.definition.key = true
  lawful : Lawful w

theorem CatalogueInv.there (inv : CatalogueInv w) {d : MetricEvent} (mem : d ∈ w.trace)
    {row : VersionRow} (stored : row ∈ d.before.versions) : row.content ∈ w.store.contents :=
  (inv.lawful.kept d mem).subset (List.mem_map_of_mem stored)

theorem mem_numbers {db : MetricDb} {content : MetricVersion} (mem : content ∈ db.contents) :
    content.version ∈ numbers content.tenantId content.definition.key db.contents := by
  refine List.mem_map_of_mem (List.mem_filter.mpr ⟨mem, ?_⟩)
  simp [MetricVersion.isOf]

theorem CatalogueInv.next_version (inv : CatalogueInv w) (step : MetricStep (w.own e.tid) e)
    {content : MetricVersion} (label : e.label = .insert content)
    (admitted : w.store.admits content = true) :
    ∃ n, numbers content.tenantId content.definition.key w.store.contents = List.range' 1 n ∧
      content.version = n + 1 := by
  obtain ⟨n, numbered⟩ := inv.lawful.numbered content.tenantId content.definition.key
  rw [← numbers_contents] at numbered
  refine ⟨n, numbered, ?_⟩
  have new : content.version ∉ List.range' 1 n := by
    rw [← numbered, numbers_contents]
    intro there
    obtain ⟨row, mem, same⟩ := List.mem_map.mp there
    obtain ⟨stored, is⟩ := List.mem_filter.mp mem
    have clash : w.store.versions.any content.clashes = true :=
      List.any_eq_true.mpr ⟨row, stored, by simp [MetricVersion.clashes, is, same]⟩
    rw [MetricDb.admits, clash] at admitted
    exact nomatch admitted
  rw [List.mem_range'_1] at new
  rcases (step.insert content label).2 with first | ⟨d, mem, key, latest, found, trimmed, version⟩
  · omega
  · obtain ⟨stored, is, -⟩ := findLatest_some found
    simp only [VersionRow.isOf, Bool.and_eq_true, decide_eq_true_eq] at is
    have there := inv.there (List.mem_of_mem_filter mem) stored
    have sameKey : content.definition.key = key := by
      rw [trimmed, ← is.2]
      exact trim_key (inv.keys _ there)
    have number := mem_numbers there
    rw [is.1, is.2, ← sameKey, numbered, List.mem_range'_1] at number
    omega

theorem archive_status (by' : Option String) (now : Int) (row : VersionRow) :
    (row.archive by' now).status = .archived := by
  unfold VersionRow.archive
  split
  · assumption
  · rfl

theorem MetricStep.approves {past : List MetricEvent} (step : MetricStep past e) : Approves e := by
  intro row mem approved
  rw [step.does] at mem
  cases label : e.label with
  | look =>
      rw [label] at mem
      exact .inl mem
  | insert content =>
      rw [label] at mem
      simp only [MetricLabel.act] at mem
      split at mem
      · rcases List.mem_append.mp mem with old | new
        · exact .inl old
        · rw [List.mem_singleton.mp new] at approved
          exact nomatch approved
      · exact .inl mem
  | approve tenantId key version by' now =>
      rw [label] at mem
      rcases of_mem_updateFirst mem with old | ⟨draft, old, matched, rfl⟩
      · exact .inl old
      · simp only [isDraft, VersionRow.isOf, Bool.and_eq_true, decide_eq_true_eq] at matched
        obtain ⟨⟨⟨rfl, rfl⟩, rfl⟩, status⟩ := matched
        exact .inr ⟨draft, old, rfl, status, by', now, rfl⟩
  | archiveKey tenantId key by' now =>
      rw [label] at mem
      obtain ⟨row₀, old, rfl⟩ := List.mem_map.mp mem
      split at approved
      · rw [archive_status] at approved
        exact nomatch approved
      · rename_i other
        rw [if_neg other]
        exact .inl old

theorem CatalogueInv.push (inv : CatalogueInv w) (step : MetricStep (w.own e.tid) e)
    (before : e.before = w.store) : CatalogueInv (w.push e) := by
  have after : e.after.contents = w.store.contents ++ e.label.inserted w.store := by
    rw [step.does, contents_act, before]
  refine ⟨?_, ?_, ?_, ?_⟩
  · intro content mem
    rw [World.push_store, after] at mem
    rcases List.mem_append.mp mem with old | new
    · exact inv.keys content old
    · unfold MetricLabel.inserted at new
      split at new
      · rename_i content' label
        split at new
        · rw [List.mem_singleton.mp new]
          exact (step.insert content' label).1
        · exact nomatch new
      · exact nomatch new
  · intro tenantId key
    obtain ⟨n, numbered⟩ := inv.lawful.numbered tenantId key
    unfold Numbered
    rw [← numbers_contents] at numbered ⊢
    rw [World.push_store, after]
    have same : numbers tenantId key (w.store.contents ++ []) = List.range' 1 n := by
      rw [List.append_nil, numbered]
    unfold MetricLabel.inserted
    split
    · rename_i content label
      split
      · rename_i admitted
        obtain ⟨n', numbered', next⟩ := inv.next_version step label admitted
        unfold numbers at numbered numbered' ⊢
        rw [List.filter_append, List.map_append]
        by_cases is : content.isOf tenantId key = true
        · have isOf := is
          simp only [MetricVersion.isOf, Bool.and_eq_true, decide_eq_true_eq] at isOf
          rw [isOf.1, isOf.2] at numbered'
          refine ⟨n' + 1, ?_⟩
          rw [numbered', List.filter_cons_of_pos is, List.range'_concat]
          simp [next, Nat.add_comm]
        · exact ⟨n, by rw [numbered, List.filter_cons_of_neg is]; simp⟩
      · exact ⟨n, same⟩
    · exact ⟨n, same⟩
  · intro d mem
    rw [World.push_store, after]
    rcases List.mem_cons.mp mem with rfl | old
    · exact before ▸ List.prefix_append _ _
    · exact (inv.lawful.kept d old).trans (List.prefix_append _ _)
  · intro d mem
    rcases List.mem_cons.mp mem with rfl | old
    · exact step.approves
    · exact inv.lawful.approves d old

/-! ## Archived metrics -/

theorem Sealed.not_draft {tenantId key : String} {db : MetricDb} (sealed : Sealed tenantId key db)
    {row : VersionRow} (mem : row ∈ db.versions) (is : row.isOf tenantId key = true) {version : Nat}
    {tenantId' key' : String} : isDraft tenantId' key' version row = false := by
  simp [isDraft, sealed.archived row mem is]

theorem ofKey_ne_nil {tenantId key : String} {db : MetricDb} :
    db.ofKey tenantId key ≠ [] ↔ ∃ content ∈ db.contents, content.isOf tenantId key = true := by
  constructor
  · intro some
    obtain ⟨row, mem⟩ := List.exists_mem_of_ne_nil _ some
    obtain ⟨stored, is⟩ := List.mem_filter.mp mem
    exact ⟨row.content, List.mem_map_of_mem stored, is⟩
  · rintro ⟨content, mem, is⟩
    obtain ⟨row, stored, rfl⟩ := List.mem_map.mp mem
    exact List.ne_nil_of_mem (List.mem_filter.mpr ⟨stored, is⟩)

theorem CatalogueInv.sealed_push (inv : CatalogueInv w) (step : MetricStep (w.own e.tid) e)
    (before : e.before = w.store) (live : BuildsOnLive e) {tenantId key : String}
    (sealed : Sealed tenantId key w.store) : Sealed tenantId key e.after := by
  have after : e.after.contents = w.store.contents ++ e.label.inserted w.store := by
    rw [step.does, contents_act, before]
  constructor
  · obtain ⟨content, mem, is⟩ := ofKey_ne_nil.mp sealed.some
    exact ofKey_ne_nil.mpr ⟨content, after ▸ List.mem_append_left _ mem, is⟩
  · intro row mem is
    rw [step.does, before] at mem
    cases label : e.label with
    | look =>
        rw [label] at mem
        exact sealed.archived row mem is
    | insert content =>
        rw [label] at mem
        simp only [MetricLabel.act] at mem
        split at mem
        · rename_i admitted
          rcases List.mem_append.mp mem with old | new
          · exact sealed.archived row old is
          · obtain rfl := List.mem_singleton.mp new
            simp only [VersionRow.isOf, Bool.and_eq_true, decide_eq_true_eq] at is
            obtain ⟨rfl, rfl⟩ := is
            obtain ⟨n, numbered, next⟩ := inv.next_version step label admitted
            -- The metric has a version, so the new one is built on the last of them.
            have some : 0 < n := by
              have there := sealed.some
              rw [← List.length_pos_iff, ← List.length_map (f := fun row => row.content.version),
                ← numbers_contents, numbered, List.length_range'] at there
              exact there
            have last : n ∈ List.range' 1 n := List.mem_range'_1.mpr ⟨some, by omega⟩
            rw [← numbered, numbers_contents] at last
            obtain ⟨base, ofKey, version⟩ := List.mem_map.mp last
            obtain ⟨stored, isOf⟩ := List.mem_filter.mp ofKey
            have open' := live content label (before ▸ admitted) base (before ▸ stored) isOf
              (by rw [version, next])
            exact absurd (sealed.archived base stored isOf) open'
        · exact sealed.archived row mem is
    | approve tenantId' key' version by' now =>
        rw [label] at mem
        rcases of_mem_updateFirst mem with old | ⟨draft, old, matched, rfl⟩
        · exact sealed.archived row old is
        · rw [sealed.not_draft old is] at matched
          cases matched
    | archiveKey tenantId' key' by' now =>
        rw [label] at mem
        obtain ⟨row₀, old, rfl⟩ := List.mem_map.mp mem
        split
        · exact archive_status by' now row₀
        · rename_i other
          rw [if_neg other] at is
          exact sealed.archived row₀ old is

theorem CatalogueInv.sealed_archive (inv : CatalogueInv w) (step : MetricStep (w.own e.tid) e)
    (before : e.before = w.store) {tenantId key : String} {by' : Option String} {now : Int}
    (label : e.label = .archiveKey tenantId key by' now) : Sealed tenantId key e.after := by
  have after : e.after.contents = w.store.contents := by
    rw [step.does, contents_act, before, label]
    exact List.append_nil _
  constructor
  · obtain ⟨d, mem, found⟩ := step.archive tenantId key by' now label
    obtain ⟨latest, found⟩ := Option.isSome_iff_exists.mp found
    obtain ⟨stored, is, -⟩ := findLatest_some found
    exact ofKey_ne_nil.mpr ⟨latest.content,
      after ▸ inv.there (List.mem_of_mem_filter mem) stored, is⟩
  · intro row mem is
    rw [step.does, label] at mem
    obtain ⟨row₀, old, rfl⟩ := List.mem_map.mp mem
    split
    · exact archive_status by' now row₀
    · rename_i other
      rw [if_neg other] at is
      exact absurd is other

structure ArchivedInv (w : MetricWorld) : Prop where
  catalogue : CatalogueInv w
  sealed : (∀ e ∈ w.trace, BuildsOnLive e) → ∀ newer e older, w.trace = newer ++ e :: older →
    ∀ tenantId key by' now, e.label = .archiveKey tenantId key by' now →
      Sealed tenantId key w.store ∧ ∀ d ∈ newer, Sealed tenantId key d.before

theorem ArchivedInv.push (inv : ArchivedInv w) (step : MetricStep (w.own e.tid) e)
    (before : e.before = w.store) : ArchivedInv (w.push e) := by
  refine ⟨inv.catalogue.push step before, ?_⟩
  intro live newer e' older split tenantId key by' now label
  cases newer with
  | nil =>
      obtain ⟨rfl, rfl⟩ := List.cons.inj split
      exact ⟨inv.catalogue.sealed_archive step before label, fun _ mem => nomatch mem⟩
  | cons d newer =>
      obtain ⟨rfl, earlier⟩ := List.cons.inj split
      obtain ⟨sealed, later⟩ := inv.sealed (fun e mem => live e (List.mem_cons_of_mem _ mem)) newer e'
        older earlier tenantId key by' now label
      refine ⟨inv.catalogue.sealed_push step before (live e (List.mem_cons_self ..)) sealed, ?_⟩
      intro d' mem
      rcases List.mem_cons.mp mem with rfl | old
      · exact before ▸ sealed
      · exact later d' old

end Step

/-! ## The calls -/

section Programs

variable {i : Nat} {A B : Type} {P : List MetricEvent → Prop}

/-- What a program that reads finds out at a time of its own. -/
def Found (Q : MetricDb → Prop) (past : List MetricEvent) : Prop := ∃ d ∈ past, Q d.before

theorem Found.cons {Q : MetricDb → Prop} {past : List MetricEvent} (found : Found Q past)
    (e : MetricEvent) : Found Q (e :: past) := by
  obtain ⟨d, mem, is⟩ := found
  exact ⟨d, List.mem_cons_of_mem _ mem, is⟩

theorem MetricStep.of_plain {past : List MetricEvent} {label : MetricLabel} {db : MetricDb}
    (plain : label = .look ∨ ∃ tenantId key version by' now,
      label = .approve tenantId key version by' now) :
    MetricStep past ⟨i, label, db, label.act db⟩ := by
  rcases plain with rfl | ⟨tenantId, key, version, by', now, rfl⟩ <;>
    exact ⟨rfl, by simp, by simp⟩

/-- A program that does what its steps say, and of which `R` holds where it returns. -/
abbrev Does (i : Nat) (P : List MetricEvent → Prop) (p : MetricM A)
    (R : A → List MetricEvent → Prop) : Prop :=
  Prog.Guides i MetricStep P p.run (either R fun _ _ => True)

theorem does_pure {a : A} {R : A → List MetricEvent → Prop} (holds : ∀ past, P past → R a past) :
    Does i P (pure a) R :=
  Prog.Guides.pureE holds

theorem does_throw (e : ApiError) {R : A → List MetricEvent → Prop} : Does i P (throw e) R :=
  Prog.Guides.throwE fun _ _ => trivial

theorem does_bind {Q : B → List MetricEvent → Prop} {R : A → List MetricEvent → Prop}
    {p : MetricM B} {k : B → MetricM A} (first : Does i P p Q) (second : ∀ b, Does i (Q b) (k b) R) :
    Does i P (p >>= k) R :=
  Prog.Guides.bindE first second

theorem does_look (f : MetricDb → A) (lasting : ∀ e past, P past → P (e :: past)) :
    Does i P (look f) fun a past => P past ∧ Found (fun db => f db = a) past := by
  refine Prog.Guides.liftE (Prog.Guides.update fun past db holds => ?_)
  exact ⟨MetricStep.of_plain (.inl rfl), lasting _ past holds, _, List.mem_cons_self .., rfl⟩

theorem does_checked (result : Except ApiError A) :
    Does i P (checked result) fun a past => P past ∧ result = .ok a := by
  cases result with
  | ok a => exact does_pure fun _ holds => ⟨holds, rfl⟩
  | error e => exact does_throw e

theorem does_get (tenantId key : String) (version : Nat) :
    Does i (fun _ => True) (get tenantId key version) fun _ _ => True := by
  unfold get
  refine Prog.Guides.ite (fun _ => does_throw _) fun _ => ?_
  refine does_bind (does_look _ fun _ _ _ => trivial) fun versions => ?_
  refine Prog.Guides.ite (fun _ => does_throw _) fun _ => ?_
  cases versions.find? fun row => row.content.version = version with
  | none => exact does_throw _
  | some row => exact does_pure fun _ _ => trivial

theorem does_assertDatasetOwned (tenantId connectorId : String)
    (lasting : ∀ e past, P past → P (e :: past)) :
    Does i P (assertDatasetOwned tenantId connectorId) fun _ => P := by
  refine does_bind (does_look _ lasting) fun owned => ?_
  refine Prog.Guides.ite (fun _ => ?_) fun _ => does_throw _
  exact does_pure fun _ holds => holds.1

theorem does_insert {content : MetricVersion} (keyed : isMetricKey content.definition.key = true)
    (next : ∀ past, P past → content.version = 1 ∨ ∃ d ∈ past, ∃ key latest,
      d.before.findLatest content.tenantId key none = some latest ∧
      content.definition.key = trim key ∧ content.version = latest.content.version + 1) :
    Does i P (call (.insert content) fun db => db.admits content) fun _ _ => True := by
  refine Prog.Guides.liftE (Prog.Guides.update fun past db holds => ?_)
  refine ⟨⟨rfl, fun content' label => ?_, by simp⟩, trivial⟩
  obtain rfl := MetricLabel.insert.inj label
  exact ⟨keyed, next past holds⟩

variable {rt : Runtime}

theorem sanitizeDefinition_metricKey {input : Js} {d : Definition}
    (ok : sanitizeDefinition rt input = .ok d) : isMetricKey d.key = true := by
  cases input with
  | obj fields => exact (sanitizeDefinition_key rt ok).2
  | _ => exact nomatch ok

theorem does_create (req : CreateMetric) :
    Does i (fun _ => True) (create rt req) fun _ _ => True := by
  unfold create
  refine Prog.Guides.ite (fun _ => does_throw _) fun _ => ?_
  refine does_bind (does_checked _) fun definition => ?_
  refine Prog.Guides.of_fact (fun past holds => holds.2) fun accepted => ?_
  refine does_bind (does_assertDatasetOwned _ _ fun _ _ holds => holds) fun _ => ?_
  refine does_bind (does_look _ fun _ _ holds => holds) fun existing => ?_
  cases existing with
  | some row => exact does_throw _
  | none =>
      have keyed := sanitizeDefinition_metricKey accepted
      refine does_bind (does_insert keyed fun _ _ => .inl rfl) fun admitted => ?_
      exact Prog.Guides.ite (fun _ => does_pure fun _ _ => trivial) fun _ => does_throw _

theorem does_update (req : UpdateMetric) :
    Does i (fun _ => True) (update rt req) fun _ _ => True := by
  unfold update
  refine Prog.Guides.ite (fun _ => does_throw _) fun _ => ?_
  refine does_bind (does_look _ fun _ _ _ => trivial) fun found => ?_
  cases found with
  | none => exact does_throw _
  | some latest =>
      let read (past : List MetricEvent) : Prop :=
        Found (fun db => db.findLatest req.tenantId req.key none = some latest) past
      have lasting : ∀ e past, read past → read (e :: past) := fun e past found => found.cons e
      refine Prog.Guides.weaken ?_ (fun past (holds : True ∧ read past) => holds.2)
      refine Prog.Guides.ite (fun _ => does_throw _) fun _ => ?_
      refine does_bind (does_checked _) fun patch => ?_
      refine does_bind (does_checked _) fun definition => ?_
      refine Prog.Guides.of_fact (fun past holds => holds.2) fun accepted => ?_
      refine Prog.Guides.weaken ?_ (fun past holds => holds.1.1)
      obtain ⟨key, keyed⟩ := sanitizeDefinition_key rt accepted
      have trimmed : definition.key = trim req.key := by
        rw [key, field_set]
        rfl
      refine does_bind (does_assertDatasetOwned _ _ lasting) fun _ => ?_
      refine does_bind (does_insert keyed fun past holds => .inr ?_) fun admitted => ?_
      · obtain ⟨d, mem, found⟩ := holds
        exact ⟨d, mem, req.key, latest, found, trimmed, rfl⟩
      · exact Prog.Guides.ite (fun _ => does_get _ _ _) fun _ => does_throw _

theorem does_approve (req : ApproveMetric) :
    Does i (fun _ => True) (approve req) fun _ _ => True := by
  unfold approve
  refine Prog.Guides.ite (fun _ => does_throw _) fun _ => ?_
  cases versionNumber req.version with
  | none => exact does_throw _
  | some v =>
      refine does_bind (does_look _ fun _ _ _ => trivial) fun found => ?_
      cases found with
      | none => exact does_throw _
      | some doc =>
          refine Prog.Guides.ite (fun _ => does_throw _) fun _ => ?_
          refine does_bind (does_look _ fun _ _ holds => ⟨holds.1, holds.2.cons _⟩) fun now => ?_
          have approves : Does i (fun _ => True)
              (call (.approve req.tenantId req.key v req.actorId now) fun db =>
                db.versions.any (isDraft req.tenantId req.key v)) fun _ _ => True :=
            Prog.Guides.liftE (Prog.Guides.update fun past db _ =>
              ⟨MetricStep.of_plain (.inr ⟨_, _, _, _, _, rfl⟩), trivial⟩)
          refine does_bind (approves.weaken fun _ _ => trivial) fun updated => ?_
          exact Prog.Guides.ite (fun _ => does_get _ _ _) fun _ => does_throw _

def HasArchived (tenantId key : String) (past : List MetricEvent) : Prop :=
  ∃ e ∈ past, ∃ by' now, e.label = .archiveKey tenantId key by' now

theorem does_archive (tenantId key : String) (actorId : Option String) :
    Does i (fun _ => True) (archive tenantId key actorId) fun _ => HasArchived tenantId key := by
  unfold archive
  refine Prog.Guides.ite (fun _ => does_throw _) fun _ => ?_
  refine does_bind (does_look _ fun _ _ _ => trivial) fun found => ?_
  cases found with
  | none => exact does_throw _
  | some latest =>
      refine does_bind (does_look _ fun _ _ holds => ⟨holds.1, holds.2.cons _⟩) fun now => ?_
      refine Prog.Guides.liftE (Prog.Guides.update fun past db holds => ?_)
      obtain ⟨⟨-, d, mem, found⟩, -⟩ := holds
      refine ⟨⟨rfl, by simp, ?_⟩, _, List.mem_cons_self .., actorId, now, rfl⟩
      intro tenantId' key' by' now' label
      obtain ⟨rfl, rfl, -, -⟩ := MetricLabel.archiveKey.inj label
      exact ⟨d, mem, Option.isSome_iff_exists.mpr ⟨latest, found⟩⟩

def HasRead (tenantId key : String) (past : List MetricEvent) : Prop :=
  Found (fun db => ∃ row ∈ db.versions, row.isOf tenantId key = true ∧ row.status ≠ .archived) past

theorem does_resolve (req : ResolveRef) : Does i (fun _ => True) (resolveMetricRef req)
    fun row past => row ≠ none → HasRead req.tenantId (refKey req.ref) past := by
  have latest {past : List MetricEvent} {s : MetricStatus} {row : VersionRow} (open' : s ≠ .archived)
      (found : Found (fun db => db.findLatest req.tenantId (refKey req.ref) (some s) = some row)
        past) : HasRead req.tenantId (refKey req.ref) past := by
    obtain ⟨d, mem, is⟩ := found
    obtain ⟨stored, isOf, status⟩ := findLatest_some is
    exact ⟨d, mem, row, stored, isOf, by rw [status s rfl]; exact open'⟩
  unfold resolveMetricRef
  refine Prog.Guides.ite (fun _ => does_pure fun _ _ none => absurd rfl none) fun _ => ?_
  dsimp only
  cases refVersion req.ref with
  | some version =>
      refine does_bind (does_look _ fun _ _ _ => trivial) fun doc => does_pure ?_
      rintro past ⟨-, d, mem, found⟩ some
      obtain ⟨row, is⟩ := Option.ne_none_iff_exists'.mp some
      obtain ⟨rfl, status⟩ := Option.filter_eq_some_iff.mp is
      obtain ⟨stored, isOf, -⟩ := findVersion_some found
      refine ⟨d, mem, row, stored, isOf, fun archived => ?_⟩
      simp [archived] at status
  | none =>
      refine does_bind (does_look _ fun _ _ _ => trivial) fun found => ?_
      cases found with
      | some row => exact does_pure fun past holds _ => latest (by decide) holds.2
      | none =>
          refine Prog.Guides.ite (fun _ => ?_) fun _ => does_pure fun _ _ none => absurd rfl none
          refine (does_look _ fun _ _ holds => ⟨holds.1, holds.2.cons _⟩).post ?_
          intro outcome past holds
          cases outcome with
          | error e => trivial
          | ok row =>
              intro some
              obtain ⟨row', rfl⟩ := Option.ne_none_iff_exists'.mp some
              exact latest (by decide) holds.2

/-- What a reply tells about the steps of its process. -/
def Told (reply : MetricReply) (past : List MetricEvent) : Prop :=
  match reply with
  | .version _ => True
  | .archived tenantId key _ => HasArchived tenantId key past
  | .resolved req row => row ≠ none → HasRead req.tenantId (refKey req.ref) past

theorem does_program (call : MetricCall) : Does i (fun _ => True) (call.program rt) Told := by
  cases call with
  | create req => exact does_bind (does_create req) fun _ => does_pure fun _ _ => trivial
  | update req => exact does_bind (does_update req) fun _ => does_pure fun _ _ => trivial
  | approve req => exact does_bind (does_approve req) fun _ => does_pure fun _ _ => trivial
  | archive tenantId key actorId =>
      exact does_bind (does_archive tenantId key actorId) fun _ => does_pure fun _ told => told
  | resolve req => exact does_bind (does_resolve req) fun _ => does_pure fun _ told => told

end Programs

/-! ## Runs -/

section Runs

variable {rt : Runtime} {s₀ : MetricDb}
  {c c' : Config Nat MetricLabel MetricDb (Except ApiError MetricReply)}

theorem ArchivedInv.of_reach (catalogue : Catalogue s₀) (reach : (metricSystem rt).Reach s₀ c) :
    ArchivedInv c.world ∧ (∀ i, c.pool i = none → c.world.own i = []) ∧
      ∀ i reply, c.pool i = some (.done (.ok reply)) → Told reply (c.world.own i) := by
  have start : ∀ i p, (metricSystem rt).start i p →
      p.Guided i MetricStep (either Told fun _ _ => True) [] := by
    rintro i p ⟨call, rfl⟩
    exact does_program call [] trivial
  obtain ⟨inv, unused, running⟩ := reach.guided (I := ArchivedInv) start
    ⟨⟨catalogue.keys, catalogue.numbered, (fun _ mem => nomatch mem), fun _ mem => nomatch mem⟩, by
      intro _ newer e older split
      cases newer <;> exact nomatch split⟩
    (by
      rintro w s' inv ⟨clock, datasetOwned, rfl⟩
      refine ⟨⟨inv.catalogue.keys, inv.catalogue.lawful.numbered, inv.catalogue.lawful.kept,
        inv.catalogue.lawful.approves⟩, ?_⟩
      intro live newer e older split tenantId key by' now label
      obtain ⟨sealed, later⟩ := inv.sealed live newer e older split tenantId key by' now label
      exact ⟨⟨sealed.some, sealed.archived⟩, later⟩)
    fun w e inv step before _ => inv.push step before
  exact ⟨inv, unused, fun i reply is => running i _ is⟩

/-- Versions are numbered 1, 2, 3 and so on, keep their content, and only drafts are approved. Where
no version is inserted on one that is archived by then, nothing of a metric resolves once an archive
of it has completed: in every run of any calls. -/
theorem archived_metric_never_resolves (catalogue : Catalogue s₀)
    (reach : (metricSystem rt).Reach s₀ c) (on : Relation.ReflTransGen (Step (metricSystem rt)) c c')
    (live : ∀ e ∈ c'.world.trace, BuildsOnLive e) : Lawful c'.world ∧
      ∀ i j key versions req row,
        c.pool i = some (.done (.ok (.archived req.tenantId key versions))) → c.pool j = none →
          c'.pool j = some (.done (.ok (.resolved req row))) → refKey req.ref = key → row = none := by
  obtain ⟨-, unused, told⟩ := ArchivedInv.of_reach catalogue reach
  obtain ⟨inv', -, told'⟩ := ArchivedInv.of_reach catalogue (reach.later on)
  refine ⟨inv'.catalogue.lawful, ?_⟩
  rintro i j key versions req row archived fresh resolved rfl
  by_contra some
  obtain ⟨newer, split⟩ := trace_later on
  obtain ⟨e, own, by', now, label⟩ := told i _ archived
  obtain ⟨older, earliest, at'⟩ := List.append_of_mem (List.mem_of_mem_filter own)
  -- The resolver read after the archive: its process was not there before.
  obtain ⟨d, ownRead, version, stored, isOf, open'⟩ := told' j _ resolved some
  have read : d ∈ newer ++ older := by
    obtain ⟨mem, mine⟩ := List.mem_filter.mp ownRead
    rw [split] at mem
    rcases List.mem_append.mp mem with after | before
    · exact List.mem_append_left _ after
    · have inOwn : d ∈ c.world.own j := List.mem_filter.mpr ⟨before, mine⟩
      rw [unused j fresh] at inOwn
      exact nomatch inOwn
  have whole : c'.world.trace = (newer ++ older) ++ e :: earliest := by
    rw [split, at', List.append_assoc]
  obtain ⟨-, sealed⟩ := inv'.sealed live _ e earliest whole _ _ by' now label
  exact open' ((sealed d read).archived version stored isOf)

end Runs

namespace Revenue

abbrev Run := Config Nat MetricLabel MetricDb (Except ApiError MetricReply)

/-- The first version of a metric of a workspace. -/
def revenue : MetricVersion where
  tenantId := "t1"
  version := 1
  definition := {
    key := "rev", label := "Revenue", description := ""
    connectorId := "64b64b64b64b64b64b64b64b", aggregation := .count
    field := none, numerator := none, denominator := none, filters := [], unit := none
    format := .number, direction := .higherIsBetter, owner := none }
  source := .manual
  rationale := none
  createdBy := none

/-- It is approved. -/
def store : MetricDb where
  versions := [{ content := revenue, status := .approved }]
  clock := 0
  datasetOwned := fun _ _ => true

theorem catalogue : Catalogue store := by
  refine ⟨by decide, fun tenantId key => ?_⟩
  by_cases is : ("t1" = tenantId ∧ "rev" = key)
  · obtain ⟨rfl, rfl⟩ := is
    exact ⟨1, by decide⟩
  · refine ⟨0, ?_⟩
    have none : VersionRow.isOf tenantId key { content := revenue, status := .approved } = false := by
      rw [Bool.eq_false_iff]
      intro of
      simp only [VersionRow.isOf, Bool.and_eq_true, decide_eq_true_eq] at of
      exact is of
    simp [MetricDb.ofKey, store, none]

def edit : MetricCall :=
  .update { tenantId := "t1", key := "rev", patch := .obj [("unit", .str "EUR")] }

def retire : MetricCall := .archive "t1" "rev" none

def approveEdit : MetricCall :=
  .approve { tenantId := "t1", key := "rev", version := .finite 2 }

def request : ResolveRef where
  tenantId := "t1"
  ref := "metric:rev"

/-- A call that takes a number of steps. -/
def call (i : Nat) (made : MetricCall) (steps : Nat) (c : Run) : Run :=
  begin i (made.program Runtime.plain).run steps c

theorem on_call {c : Run} (i : Nat) (made : MetricCall) (fresh : (c.pool i).isNone = true)
    (steps : Nat) :
    Relation.ReflTransGen (Step (metricSystem Runtime.plain)) c (call i made steps c) :=
  have may : (metricSystem Runtime.plain).start i (made.program Runtime.plain).run := ⟨made, rfl⟩
  begins (fun _ _ _ => trivial) fresh may steps

theorem uses_call {used : List Nat} {c : Run} (uses : Uses used c) (i : Nat) (made : MetricCall)
    (steps : Nat) : Uses (i :: used) (call i made steps c) :=
  uses.begin i _ steps

/-- The metric is archived. -/
def retired : Run := call 0 retire 20 (.idle store)

/-- Then an edit is tried, and the metric resolved. -/
def settled : Run := call 2 (.resolve request) 20 (call 1 edit 20 retired)

theorem reached_retired : Reach (metricSystem Runtime.plain) store retired :=
  Reach.init.later (on_call 0 retire rfl 20)

theorem on_settled : Relation.ReflTransGen (Step (metricSystem Runtime.plain)) retired settled :=
  have used : Uses [0] retired := uses_call (.idle store) 0 retire 20
  (on_call 1 edit (used.fresh (by decide)) 20).trans
    (on_call 2 (.resolve request) ((uses_call used 1 edit 20).fresh (by decide)) 20)

/-- An edit has read the latest version when the metric is archived. -/
def overtaken : Run := call 1 retire 20 (call 0 edit 1 (.idle store))

/-- The edit goes on, its version is approved, and the metric resolved. -/
def revived : Run := call 3 (.resolve request) 20 (call 2 approveEdit 20 (go 0 20 overtaken))

theorem reached_overtaken : Reach (metricSystem Runtime.plain) store overtaken :=
  (Reach.init.later (on_call 0 edit rfl 1)).later
    (on_call 1 retire ((uses_call (.idle store) 0 edit 1).fresh (by decide)) 20)

theorem uses_overtaken : Uses [1, 0] overtaken :=
  uses_call (uses_call (.idle store) 0 edit 1) 1 retire 20

theorem on_revived : Relation.ReflTransGen (Step (metricSystem Runtime.plain)) overtaken revived :=
  have used := uses_overtaken.go 0 20
  ((goes (fun _ _ _ => trivial) 0 20 overtaken).trans
    (on_call 2 approveEdit (used.fresh (by decide)) 20)).trans
    (on_call 3 (.resolve request) ((uses_call used 2 approveEdit 20).fresh (by decide)) 20)

/-- `BuildsOnLive` as it is computed. -/
def buildsOnLive (e : MetricEvent) : Bool :=
  match e.label with
  | .insert content => !e.before.admits content || e.before.versions.all fun row =>
      !(row.isOf content.tenantId content.definition.key) || row.content.version + 1 ≠ content.version ||
        row.status ≠ .archived
  | _ => true

theorem buildsOnLive_of_check {e : MetricEvent} (check : buildsOnLive e = true) :
    BuildsOnLive e := by
  intro content label admitted row mem isOf next
  simp only [buildsOnLive, label, admitted, Bool.not_true, Bool.false_or] at check
  simpa [isOf, next] using List.all_eq_true.mp check row mem

def answer (c : Run) (i : Nat) : Option MetricReply :=
  match c.pool i with
  | some (.done (.ok reply)) => some reply
  | _ => none

theorem answer_some {c : Run} {i : Nat} {reply : MetricReply} (is : answer c i = some reply) :
    c.pool i = some (.done (.ok reply)) := by
  unfold answer at is
  split at is
  · rename_i reply' inPool
    rw [inPool, Option.some.inj is]
  · exact nomatch is

def MetricReply.isArchived (tenantId key : String) : MetricReply → Bool
  | .archived t k _ => t = tenantId && k = key
  | _ => false

theorem archived_of_check {c : Run} {i : Nat} {tenantId key : String}
    (check : (answer c i).any (MetricReply.isArchived tenantId key) = true) :
    ∃ versions, c.pool i = some (.done (.ok (.archived tenantId key versions))) := by
  obtain ⟨reply, is, same⟩ := (Option.any_eq_true _ _).mp check
  cases reply with
  | archived t k versions =>
      simp only [MetricReply.isArchived, Bool.and_eq_true, decide_eq_true_eq] at same
      obtain ⟨rfl, rfl⟩ := same
      exact ⟨versions, answer_some is⟩
  | _ => exact nomatch same

/-- An answer to a request that has found a version or not. -/
def MetricReply.isResolved (req : ResolveRef) (found : Bool) : MetricReply → Bool
  | .resolved r row => r = req && row.isSome = found
  | _ => false

theorem resolved_of_check {c : Run} {i : Nat} {req : ResolveRef} {found : Bool}
    (check : (answer c i).any (MetricReply.isResolved req found) = true) :
    ∃ row, c.pool i = some (.done (.ok (.resolved req row))) ∧ row.isSome = found := by
  obtain ⟨reply, is, same⟩ := (Option.any_eq_true _ _).mp check
  cases reply with
  | resolved r row =>
      simp only [MetricReply.isResolved, Bool.and_eq_true, decide_eq_true_eq] at same
      obtain ⟨rfl, same⟩ := same
      exact ⟨row, answer_some is, same⟩
  | _ => exact nomatch same

end Revenue

open Revenue in
/-- An edit that read the metric before it was archived inserts a version after it, which an approval
makes resolve again. -/
theorem edit_revives_archived : ¬ ∀ (rt : Runtime) (s₀ : MetricDb)
    (c c' : Config Nat MetricLabel MetricDb (Except ApiError MetricReply)),
    Catalogue s₀ → (metricSystem rt).Reach s₀ c →
      Relation.ReflTransGen (Step (metricSystem rt)) c c' → Lawful c'.world ∧
        ∀ i j key versions req row,
          c.pool i = some (.done (.ok (.archived req.tenantId key versions))) → c.pool j = none →
            c'.pool j = some (.done (.ok (.resolved req row))) → refKey req.ref = key → row = none := by
  intro all
  obtain ⟨-, never⟩ := all Runtime.plain store overtaken revived catalogue reached_overtaken on_revived
  have archived : (answer overtaken 1).any (MetricReply.isArchived "t1" "rev") = true := by
    decide +kernel
  have resolved : (answer revived 3).any (MetricReply.isResolved request true) = true := by
    decide +kernel
  have fresh := uses_overtaken.fresh (i := 3) (by decide)
  obtain ⟨versions, archived⟩ := archived_of_check archived
  obtain ⟨row, resolved, found⟩ := resolved_of_check resolved
  have none := never 1 3 "rev" versions request row archived (Option.isNone_iff_eq_none.mp fresh)
    resolved (by decide)
  rw [none] at found
  exact nomatch found

open Revenue in
/-- A metric that is archived while nobody edits it stays unresolved. -/
theorem archived_metric_never_resolves_settled : Lawful settled.world ∧
    ∃ row, settled.pool 2 = some (.done (.ok (.resolved request row))) ∧ row = none := by
  have live : ∀ e ∈ settled.world.trace, BuildsOnLive e := by
    have check : settled.world.trace.all buildsOnLive = true := by decide +kernel
    exact fun e mem => buildsOnLive_of_check (List.all_eq_true.mp check e mem)
  have archived : (answer retired 0).any (MetricReply.isArchived "t1" "rev") = true := by
    decide +kernel
  have resolved : (answer settled 2).any (MetricReply.isResolved request false) = true := by
    decide +kernel
  have fresh := (uses_call (.idle store) 0 retire 20).fresh (i := 2) (by decide)
  obtain ⟨lawful, never⟩ := archived_metric_never_resolves catalogue reached_retired on_settled live
  obtain ⟨versions, archived⟩ := archived_of_check archived
  obtain ⟨row, resolved, -⟩ := resolved_of_check resolved
  exact ⟨lawful, row, resolved, never 0 2 "rev" versions request row archived
    (Option.isNone_iff_eq_none.mp fresh) resolved (by decide)⟩

end AnalyticsBackend.Metrics
