import AnalyticsBackend.Retention.Policies

/-!
# Legal holds over a run

What a run may make of the documents it has found, and what keeps those on hold. The holds and the
rows that a policy selects are read off the database that the run starts from.
-/

namespace AnalyticsBackend.Retention
open Lib Mongo Prog

def Held (held : List String) (model : String) (d : Document) : Prop :=
  d.legalHold = true ∨ (tenantOwned model = true ∧ d.inTenants held = true)

/-- No document on hold is deleted, nor a file that it refers to. -/
def HoldsKept (held : List String) (db₀ db : RetentionDb) : Prop :=
  ∀ model, ∀ d ∈ db₀.colls model, Held held model d →
    (∃ d' ∈ db.colls model, d'.id = d.id) ∧ ∀ key ∈ d.fileKeys, key ∈ db₀.files → key ∈ db.files

/-- What the database and its schemas see to. -/
structure StoreSound (db : RetentionDb) : Prop where
  ids : ∀ model, ((db.colls model).map Document.id).Nodup
  bytes : ∀ model, ∀ d ∈ db.colls model, d.id.value < 16 ^ 24 ∧
    ∀ id, d.tenantId = some (.oid id) → id.value < 16 ^ 24
  users : ∀ d ∈ db.colls "User", d.tenantId.isSome = true

structure Aged (d₀ d : Document) : Prop where
  id : d.id = d₀.id
  tenantId : d.tenantId = d₀.tenantId
  legalHold : d.legalHold = d₀.legalHold
  userId : d.userId = d₀.userId
  kind : d.kind = d₀.kind
  status : d.status = d₀.status ∨ d.status = some "expired"
  dates : ∀ name, d.date name = d₀.date name ∨
    ((name = "purgedAt" ∨ name = "dataPurgedAt") ∧ (d.date name).isSome = true)
  artifact : d.artifact = d₀.artifact ∨ d.resultKey = none
  storageKey : d.storageKey = d₀.storageKey ∨ d.storageKey = none
  runs : ∀ run ∈ d.runs, run.resultKey = none ∨ run ∈ d₀.runs
  lastRun : ∀ run, d.lastRun = some run → run.resultKey = none ∨ d₀.lastRun = some run

namespace Aged

theorem refl (d : Document) : Aged d d :=
  ⟨rfl, rfl, rfl, rfl, rfl, .inl rfl, fun _ => .inl rfl, .inl rfl, .inl rfl, fun _ mem => .inr mem,
    fun _ is => .inr is⟩

theorem trans {a b c : Document} (first : Aged a b) (second : Aged b c) : Aged a c where
  id := second.id.trans first.id
  tenantId := second.tenantId.trans first.tenantId
  legalHold := second.legalHold.trans first.legalHold
  userId := second.userId.trans first.userId
  kind := second.kind.trans first.kind
  status := by
    rcases second.status with same | expired
    · rw [same]
      exact first.status
    · exact .inr expired
  dates := fun name => by
    rcases second.dates name with same | set
    · rw [same]
      exact first.dates name
    · exact .inr set
  artifact := by
    rcases second.artifact with same | gone
    · rcases first.artifact with same' | gone
      · exact .inl (same.trans same')
      · refine .inr ?_
        rw [Document.resultKey, same]
        exact gone
    · exact .inr gone
  storageKey := by
    rcases second.storageKey with same | gone
    · rw [same]
      exact first.storageKey
    · exact .inr gone
  runs := fun run mem => by
    rcases second.runs run mem with gone | mem'
    · exact .inl gone
    · exact first.runs run mem'
  lastRun := fun run is => by
    rcases second.lastRun run is with gone | is'
    · exact .inl gone
    · exact first.lastRun run is'

variable {d₀ d : Document}

theorem date (aged : Aged d₀ d) {name : String}
    (other : name ≠ "purgedAt" ∧ name ≠ "dataPurgedAt") : d.date name = d₀.date name := by
  rcases aged.dates name with same | ⟨set | set, -⟩
  · exact same
  · exact absurd set other.1
  · exact absurd set other.2

theorem before (aged : Aged d₀ d) {name : String} (other : name ≠ "purgedAt" ∧ name ≠ "dataPurgedAt")
    (cutoff : Int) : d.before name cutoff = d₀.before name cutoff := by
  rw [Document.before, aged.date other, Document.before]

theorem inTenants (aged : Aged d₀ d) (ids : List String) : d.inTenants ids = d₀.inTenants ids := by
  rw [Document.inTenants, aged.tenantId, Document.inTenants]

theorem holdFilter (aged : Aged d₀ d) (tenantField : Bool) (ctx : Ctx) :
    holdFilter tenantField ctx d = holdFilter tenantField ctx d₀ := by
  rw [Retention.holdFilter, aged.legalHold, aged.inTenants, Retention.holdFilter]

theorem run (aged : Aged d₀ d) {run : ReportRun} (mem : run ∈ d.runs) {key : String}
    (is : run.resultKey = some key) : run ∈ d₀.runs := by
  rcases aged.runs run mem with gone | old
  · rw [is] at gone
    exact nomatch gone
  · exact old

theorem reportKeys (aged : Aged d₀ d) {key : String} (mem : key ∈ reportKeys d) :
    key ∈ reportKeys d₀ := by
  rcases List.mem_append.mp mem with ofRun | ofLast
  · obtain ⟨run, mem, is⟩ := List.mem_filterMap.mp ofRun
    exact List.mem_append_left _ (List.mem_filterMap.mpr ⟨run, aged.run mem is, is⟩)
  · refine List.mem_append_right _ ?_
    cases last : d.lastRun with
    | none => rw [last] at ofLast; exact nomatch ofLast
    | some run =>
        have is : run.resultKey = some key := by simpa [last] using ofLast
        rcases aged.lastRun run last with gone | old
        · rw [is] at gone
          exact nomatch gone
        · simp [old, is]

end Aged

/-! ## The updates -/

theorem aged_expireArtifact (ctx : Ctx) (key : String) (d : Document) :
    Aged d (expireArtifact ctx key d) := by
  unfold expireArtifact
  split
  · refine { Aged.refl d with artifact := .inr ?_ }
    cases d.artifact with
    | none => simp [Document.resultKey]
    | some a => simp [Document.resultKey]
  · exact Aged.refl d

theorem date_setDate (d : Document) (name other : String) (value : Int) :
    (d.setDate name value).date other = if other = name then some value else d.date other := by
  by_cases same : other = name
  · simp [Document.setDate, Document.date, same]
  · simp [Document.setDate, Document.date, List.lookup_cons, same, beq_false_of_ne same]

theorem aged_setDate {d : Document} {name : String} (purge : name = "purgedAt" ∨ name = "dataPurgedAt")
    (value : Int) : Aged d (d.setDate name value) := by
  refine { Aged.refl d with dates := fun other => ?_ }
  rw [date_setDate]
  split
  · rename_i same
    exact .inr ⟨by rwa [same], rfl⟩
  · exact .inl rfl

theorem aged_markedExpired (ctx : Ctx) (d : Document) : Aged d (markedExpired ctx d) :=
  Aged.trans (b := { d with status := some "expired", storageKey := none })
    { Aged.refl d with status := .inr rfl, storageKey := .inr rfl } (aged_setDate (.inl rfl) _)

theorem aged_clearRuns (ctx : Ctx) (done : List ReportRun) (d : Document) :
    Aged d (clearRuns ctx done d) := by
  refine { Aged.refl d with runs := fun run mem => ?_, lastRun := fun run is => ?_ }
  · obtain ⟨old, there, rfl⟩ := List.mem_map.mp mem
    split
    · exact .inl rfl
    · exact .inr there
  · obtain ⟨old, there, rfl⟩ := Option.map_eq_some_iff.mp is
    split
    · exact .inl rfl
    · exact .inr there

/-! ## Steps -/

/-- Nothing on hold is lost, and every document comes from one of the start. -/
structure Intact (held : List String) (db₀ db : RetentionDb) : Prop where
  kept : HoldsKept held db₀ db
  aged : ∀ model, ∀ d ∈ db.colls model, ∃ d₀ ∈ db₀.colls model, Aged d₀ d

theorem Intact.start (held : List String) (db : RetentionDb) : Intact held db db where
  kept := fun _ d mem _ => ⟨⟨d, mem, rfl⟩, fun _ _ there => there⟩
  aged := fun _ d mem => ⟨d, mem, Aged.refl d⟩

section Steps

variable {held : List String} {db₀ db : RetentionDb}

/-- A call that has done nothing. -/
theorem Intact.tick (intact : Intact held db₀ db) (faults : List Fault) :
    Intact held db₀ { db with faults } :=
  ⟨intact.kept, intact.aged⟩

theorem Intact.delete (intact : Intact held db₀ db) (sound : StoreSound db₀) {model : String}
    {filter : Document → Bool}
    (unheld : ∀ d₀ ∈ db₀.colls model, ∀ d, Aged d₀ d → filter d = true → ¬ Held held model d₀) :
    Intact held db₀ (db.update model fun docs => docs.filter fun d => !filter d) where
  kept := fun other d₀ mem₀ is => by
    obtain ⟨⟨d, mem, same⟩, files⟩ := intact.kept other d₀ mem₀ is
    refine ⟨⟨d, ?_, same⟩, files⟩
    by_cases this : other = model
    · subst this
      obtain ⟨d₁, mem₁, aged⟩ := intact.aged other d mem
      have one : d₁ = d₀ :=
        List.inj_on_of_nodup_map (sound.ids other) mem₁ mem₀ (aged.id.symm.trans same)
      subst one
      rw [RetentionDb.colls_update_self]
      refine List.mem_filter.mpr ⟨mem, ?_⟩
      rw [Bool.not_eq_true', ← Bool.not_eq_true]
      exact fun selected => unheld d₁ mem₁ d aged selected is
    · rw [RetentionDb.colls_update_of_ne db this]
      exact mem
  aged := fun other d mem => by
    by_cases this : other = model
    · subst this
      rw [RetentionDb.colls_update_self] at mem
      exact intact.aged other d (List.mem_filter.mp mem).1
    · rw [RetentionDb.colls_update_of_ne db this] at mem
      exact intact.aged other d mem

theorem Intact.rewrite (intact : Intact held db₀ db) {model : String} {f : Document → Document}
    (aged : ∀ d, Aged d (f d)) : Intact held db₀ (db.update model fun docs => docs.map f) where
  kept := fun other d₀ mem₀ is => by
    obtain ⟨⟨d, mem, same⟩, files⟩ := intact.kept other d₀ mem₀ is
    by_cases this : other = model
    · subst this
      refine ⟨⟨f d, ?_, (aged d).id.trans same⟩, files⟩
      rw [RetentionDb.colls_update_self]
      exact List.mem_map_of_mem mem
    · refine ⟨⟨d, ?_, same⟩, files⟩
      rw [RetentionDb.colls_update_of_ne db this]
      exact mem
  aged := fun other d mem => by
    by_cases this : other = model
    · subst this
      rw [RetentionDb.colls_update_self] at mem
      obtain ⟨old, there, rfl⟩ := List.mem_map.mp mem
      obtain ⟨d₀, mem₀, before⟩ := intact.aged other old there
      exact ⟨d₀, mem₀, before.trans (aged old)⟩
    · rw [RetentionDb.colls_update_of_ne db this] at mem
      exact intact.aged other d mem

/-- No document on hold refers to a file. -/
def FreeKey (held : List String) (db₀ : RetentionDb) (key : String) : Prop :=
  ∀ model, ∀ d ∈ db₀.colls model, Held held model d → key ∉ d.fileKeys

theorem Intact.del (intact : Intact held db₀ db) {key : String} (free : FreeKey held db₀ key) :
    Intact held db₀ { db with files := db.files.filter (· ≠ key) } where
  kept := fun model d mem is => by
    obtain ⟨there, files⟩ := intact.kept model d mem is
    refine ⟨there, fun other mentioned stored => ?_⟩
    refine List.mem_filter.mpr ⟨files other mentioned stored, decide_eq_true ?_⟩
    intro same
    subst same
    exact free model d mem is mentioned
  aged := intact.aged

end Steps

/-! ## Programs -/

section Programs

variable {held : List String} {db₀ : RetentionDb} {A B : Type}

/-- A program that keeps what is on hold, with a fact about its result. -/
def Keeps (held : List String) (db₀ : RetentionDb) (p : RetentionM A) (Q : A → Prop) : Prop :=
  Triple (Intact held db₀) (Intact held db₀) p.run
    fun result db => Intact held db₀ db ∧ ∀ a, result = .ok a → Q a

theorem Keeps.pure {Q : A → Prop} {a : A} (holds : Q a) :
    Keeps held db₀ (Pure.pure a : RetentionM A) Q := by
  refine Triple.done (fun _ intact => intact) fun _ intact => ⟨intact, fun b is => ?_⟩
  cases is
  exact holds

theorem Keeps.throw {Q : A → Prop} (e : String) : Keeps held db₀ (throw e : RetentionM A) Q :=
  Triple.done (fun _ intact => intact) fun _ intact => ⟨intact, fun _ is => nomatch is⟩

theorem Keeps.bind {Q : A → Prop} {R : B → Prop} {p : RetentionM A} {k : A → RetentionM B}
    (first : Keeps held db₀ p Q) (second : ∀ a, Q a → Keeps held db₀ (k a) R) :
    Keeps held db₀ (p >>= k) R := by
  refine Triple.bind first fun result => ?_
  cases result with
  | error e => exact Triple.done (fun _ h => h.1) fun _ h => ⟨h.1, fun _ is => nomatch is⟩
  | ok a => exact fun db h => second a (h.2 a rfl) db h.1

theorem Keeps.weaken {Q R : A → Prop} {p : RetentionM A} (keeps : Keeps held db₀ p Q)
    (weaker : ∀ a, Q a → R a) : Keeps held db₀ p R :=
  Triple.weaken keeps (fun _ h => h) fun _ _ h => ⟨h.1, fun a is => weaker a (h.2 a is)⟩

theorem Keeps.attempt {Q : A → Prop} {p : RetentionM A} (keeps : Keeps held db₀ p Q) :
    Keeps held db₀ (attempt p) fun result => ∀ a, result = .ok a → Q a := by
  refine Triple.bind keeps fun result => ?_
  refine Triple.done (fun _ h => h.1) fun _ h => ⟨h.1, fun result' is => ?_⟩
  cases is
  exact h.2

theorem Keeps.access {Q : A → Prop} {act : RetentionDb → RetentionDb} {report : RetentionDb → A}
    (kept : ∀ db, Intact held db₀ db → Intact held db₀ (act db))
    (reports : ∀ db, Intact held db₀ db → Q (report db)) : Keeps held db₀ (access act report) Q := by
  have performed (db : RetentionDb) (intact : Intact held db₀ db) :
      Intact held db₀ (RetentionDb.perform act db) := by
    unfold RetentionDb.perform
    dsimp only
    split
    · exact intact.tick _
    · exact kept _ (intact.tick _)
  refine Triple.update (fun _ intact => intact) performed fun db intact =>
    ⟨performed db intact, fun a is => ?_⟩
  split at is
  · cases is
    exact reports db intact
  · exact nomatch is

theorem Keeps.look {Q : A → Prop} {report : RetentionDb → A}
    (reports : ∀ db, Intact held db₀ db → Q (report db)) :
    Keeps held db₀ (Retention.access id report) Q :=
  Keeps.access (fun _ intact => intact) reports

theorem keeps_deleteMany (sound : StoreSound db₀) {model : String} {filter : Document → Bool}
    (unheld : ∀ d₀ ∈ db₀.colls model, ∀ d, Aged d₀ d → filter d = true → ¬ Held held model d₀) :
    Keeps held db₀ (deleteMany model filter) fun _ => True :=
  Keeps.access (fun _ intact => intact.delete sound unheld) fun _ _ => trivial

theorem keeps_updateOne {model : String} {id : ObjectId} {f : Document → Document}
    (aged : ∀ d, Aged d (f d)) : Keeps held db₀ (updateOne model id f) fun _ => True := by
  refine Keeps.access (fun _ intact => intact.rewrite fun d => ?_) fun _ _ => trivial
  split
  · exact aged d
  · exact Aged.refl d

theorem keeps_del {key : String} (free : FreeKey held db₀ key) :
    Keeps held db₀ (del key) fun _ => True :=
  Keeps.access (fun _ intact => intact.del free) fun _ _ => trivial

theorem keeps_delMany {keys : List String} (free : ∀ key ∈ keys, FreeKey held db₀ key) :
    Keeps held db₀ (delMany keys) fun _ => True := by
  have each (rest : List String) (deleted failed : Nat)
      (freed : ∀ key ∈ rest, FreeKey held db₀ key) :
      Keeps held db₀ (delMany.go rest deleted failed) fun _ => True := by
    induction rest generalizing deleted failed with
    | nil => exact Keeps.pure trivial
    | cons key rest ih =>
        have later := fun deleted failed =>
          ih deleted failed fun other mem => freed other (List.mem_cons_of_mem _ mem)
        refine (keeps_del (freed key (List.mem_cons_self ..))).attempt.bind fun result _ => ?_
        cases result with
        | ok => exact later _ _
        | error => exact later _ _
  refine each _ 0 0 fun key mem => free key ?_
  exact (List.mem_filter.mp (List.mem_eraseDups.mp mem)).1

theorem keeps_delPrefix {path : String} {limit : Nat} {dryRun : Bool}
    (free : dryRun = false → ∀ key, below path key = true → FreeKey held db₀ key) :
    Keeps held db₀ (delPrefix path limit dryRun) fun _ => True := by
  refine (Keeps.look (Q := fun keys => ∀ key ∈ keys, below path key = true) fun db _ key mem =>
    (List.mem_filter.mp (List.mem_of_mem_take mem)).2).bind fun keys under => ?_
  split
  · exact Keeps.pure trivial
  · rename_i wet
    refine (keeps_delMany fun key mem => free ?_ key (under key mem)).bind fun _ _ =>
      Keeps.pure trivial
    exact Bool.not_eq_true _ ▸ wet

end Programs

end AnalyticsBackend.Retention
