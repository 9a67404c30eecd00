import AnalyticsBackend.Flags.Service

/-!
# A flag change takes effect

A reader caches what it loaded a step before, and a change deletes the cached catalogue after its stored
write. So a cached catalogue has every change whose deletion is done, as long as no reader caches what it
loaded before a change whose deletion came in between.
-/

namespace AnalyticsBackend.Flags
open Lib System

variable (env : FlagEnv)

/-! ## The system -/

inductive FlagRead where
  | resolve (tenantId : Option String)
  | enabled (key : String) (tenantId : Option String)
  deriving DecidableEq, Repr

/-- What a read returns. -/
inductive FlagValue where
  | resolved (values : List (String × Bool))
  | enabled (on : Bool)
  deriving DecidableEq, Repr

inductive FlagAnswer where
  | changed (flag : FeatureFlag)
  | read (request : FlagRead) (value : FlagValue)
  deriving DecidableEq, Repr

/-- What a read evaluates of a catalogue. -/
def FlagRead.evaluate (catalogue : List FeatureFlag) : FlagRead → FlagValue
  | .resolve tenantId => .resolved (resolveAll env catalogue tenantId)
  | .enabled key tenantId => .enabled ((resolveAll env catalogue tenantId).lookup key = some true)

def FlagRead.program : FlagRead → FlagProg (Result FlagAnswer)
  | .resolve tenantId => do
      let values ← resolveForTenant env tenantId
      succeed (.read (.resolve tenantId) (.resolved values))
  | .enabled key tenantId => do
      let on ← isEnabled env key tenantId
      succeed (.read (.enabled key tenantId) (.enabled on))

inductive FlagWrite where
  | create (id : String) (data : Js) (actor : Option Actor) (reason : Option String)
  | update (key : String) (patch : Js) (version : Option Int) (actor : Option Actor)
      (reason : Option String)
  | delete (key : String) (version : Option Int) (actor : Option Actor) (reason : Option String)
  | rollback (key : String) (toVersion : Int) (version : Option Int) (actor : Option Actor)
      (reason : Option String)

def FlagWrite.change : FlagWrite → FlagProg (Result FeatureFlag)
  | .create id data actor reason => createFlag env id data actor reason
  | .update key patch version actor reason => updateFlag env key patch version actor reason
  | .delete key version actor reason => deleteFlag env key version actor reason
  | .rollback key toVersion version actor reason =>
      rollbackFlag env key toVersion version actor reason

def FlagWrite.program (write : FlagWrite) : FlagProg (Result FlagAnswer) :=
  (write.change env).andThen fun flag => succeed (.changed flag)

/-- Any number of changes and of reads. From outside time goes on and tenants come and go. -/
def flagSystem : System Nat FlagLabel FlagDb (Result FlagAnswer) where
  start _ p := (∃ read : FlagRead, p = read.program env) ∨ ∃ write : FlagWrite, p = write.program env
  env db db' := db.clock ≤ db'.clock ∧ db' = { db with clock := db'.clock, tenants := db'.tenants }
  ok _ _ _ := True

abbrev FlagConfig := Config Nat FlagLabel FlagDb (Result FlagAnswer)
abbrev FlagTrace := List (Event Nat FlagLabel FlagDb)
abbrev Past := List (FlagLabel × FlagDb)

/-- The flag that a stored write leaves, where it finds what it asks for. -/
def FlagLabel.stored (db : FlagDb) : FlagLabel → Option FeatureFlag
  | .insert flag =>
      match db.inserted flag with
      | .done flag => some flag
      | _ => none
  | .update id version changes includeDeleted =>
      match db.updated id version changes includeDeleted with
      | .done flag => some flag
      | _ => none
  | _ => none

def FlagLabel.caches : FlagLabel → Bool
  | .set _ => true
  | _ => false

/-- No change that was stored among the events has invalidated the cache among them. -/
def Unpublished (events : FlagTrace) : Prop :=
  ∀ W ∈ events, (W.label.stored W.before).isSome → ∀ D ∈ events, D.label = .del → D.tid ≠ W.tid

def sinceLoad (i : Nat) (trace : FlagTrace) : FlagTrace :=
  trace.takeWhile fun e => !(e.tid = i && e.label = .load)

/-- When a reader caches what it loaded, no change stored since then has invalidated the cache. -/
def Timely : FlagTrace → Prop
  | [] => True
  | S :: earlier => (S.label.caches = true → Unpublished (sinceLoad S.tid earlier)) ∧ Timely earlier

instance (events : FlagTrace) : Decidable (Unpublished events) := by
  unfold Unpublished
  infer_instance

instance decidableTimely : (trace : FlagTrace) → Decidable (Timely trace)
  | [] => isTrue trivial
  | _ :: earlier =>
      have := decidableTimely earlier
      inferInstanceAs (Decidable (_ ∧ _))

/-! ## What a process does -/

section Trails

variable {env} {A B : Type}

def Lawful (p : FlagProg A) : Prop := p.Each fun label act => act = label.act

/-- A step that neither fills nor empties the cache. -/
def Calm : FlagLabel → Prop
  | .set _ | .del => False
  | _ => True

/-- No step of the program touches the cache. -/
def Plain (p : FlagProg A) : Prop := p.Each fun label act => act = label.act ∧ Calm label

theorem Plain.lawful {p : FlagProg A} (plain : Plain p) : Lawful p :=
  plain.mono fun _ _ h => h.1

theorem plain_step {label : FlagLabel} (calm : Calm label) (report : FlagDb → A) :
    Plain (step label report) := Prog.Each.update ⟨rfl, calm⟩

theorem plain_look (f : FlagDb → A) : Plain (look f) := Prog.Each.update ⟨rfl, trivial⟩

theorem plain_normaliseTenantIds (value : Js) (base : List String) (checkTenants : Bool)
    (errors : List FieldError) : Plain (normaliseTenantIds value base checkTenants errors) := by
  unfold normaliseTenantIds
  split
  · trivial
  · split
    · trivial
    · dsimp only
      split
      · exact Prog.Each.bind (plain_look _) fun _ => trivial
      · trivial
  · trivial

theorem plain_normaliseRollout (input : Js) (base : Rollout) (checkTenants : Bool)
    (errors : List FieldError) : Plain (normaliseRollout input base checkTenants errors) := by
  unfold normaliseRollout
  split
  · trivial
  · split
    · trivial
    · exact Prog.Each.bind (plain_normaliseTenantIds ..) fun _ => trivial

theorem plain_acceptInput (input : FlagInput) (errors : List FieldError) :
    Plain (acceptInput input errors) := by
  unfold acceptInput
  split <;> trivial

theorem plain_normaliseInput (input : Js) (base : Rollout) (creating : Bool) :
    Plain (normaliseInput input base creating) := by
  unfold normaliseInput
  split
  · trivial
  · dsimp only
    split
    · exact plain_acceptInput ..
    · exact Prog.Each.bind (plain_normaliseRollout ..) fun _ => plain_acceptInput ..

theorem plain_ensureBaseline (flag : FeatureFlag) : Plain (ensureBaseline flag) := by
  refine Prog.Each.bind (plain_look _) fun latest => ?_
  cases latest with
  | some revision => trivial
  | none =>
      refine Prog.Each.bind (plain_step (by trivial) _) fun duplicate => ?_
      cases duplicate
      · trivial
      · exact plain_look _

theorem plain_recordRevision (revision : FlagRevision) : Plain (recordRevision revision) := by
  refine Prog.Each.bind (plain_step (by trivial) _) fun duplicate => ?_
  cases duplicate <;> trivial

theorem plain_loadFlag (key : String) : Plain (loadFlag env key) := by
  refine Prog.Each.bind (plain_look _) fun found => ?_
  cases found <;> trivial

theorem lawful_publishChange (flag : Option FeatureFlag) (updated : FeatureFlag) (action : FlagAction)
    (actor : Option Actor) (reason : Option String) (rolledBackFrom : Option Int) :
    Lawful (publishChange flag updated action actor reason rolledBackFrom) := by
  refine Prog.Each.andThen (plain_recordRevision _).lawful fun _ => ?_
  exact Prog.Each.bind (Prog.Each.update rfl) fun _ => Prog.Each.bind (Prog.Each.update rfl) fun _ => trivial

theorem lawful_applyFlagChange (flag : FeatureFlag) (change : FlagChange) :
    Lawful (applyFlagChange env flag change) := by
  unfold applyFlagChange
  split
  · trivial
  · refine Prog.Each.bind (plain_ensureBaseline flag).lawful fun _ => ?_
    refine Prog.Each.bind (Prog.Each.update rfl) fun written => ?_
    cases written with
    | done updated => exact lawful_publishChange ..
    | none => exact Prog.Each.bind (plain_look _).lawful fun _ => trivial
    | duplicate => trivial
    | invalid => trivial

theorem lawful_change (write : FlagWrite) : Lawful (write.change env) := by
  cases write with
  | create id data actor reason =>
      refine Prog.Each.andThen (plain_normaliseInput ..).lawful fun input => ?_
      refine Prog.Each.bind (plain_look _).lawful fun existing => ?_
      cases existing with
      | some flag =>
          dsimp only
          split
          · trivial
          · exact lawful_applyFlagChange ..
      | none =>
          refine Prog.Each.bind (Prog.Each.update rfl) fun written => ?_
          cases written with
          | done created => exact lawful_publishChange ..
          | _ => trivial
  | update key patch version actor reason =>
      refine Prog.Each.andThen (plain_loadFlag key).lawful fun flag => ?_
      split
      · trivial
      · refine Prog.Each.andThen (plain_normaliseInput ..).lawful fun input => ?_
        split
        · trivial
        · exact lawful_applyFlagChange ..
  | delete key version actor reason =>
      refine Prog.Each.andThen (plain_loadFlag key).lawful fun flag => ?_
      split
      · trivial
      · exact Prog.Each.bind (plain_look _).lawful fun now => lawful_applyFlagChange ..
  | rollback key toVersion version actor reason =>
      refine Prog.Each.bind (plain_look _).lawful fun flag => ?_
      cases flag with
      | none => trivial
      | some flag =>
          refine Prog.Each.bind (plain_look _).lawful fun target => ?_
          cases target with
          | none => trivial
          | some target =>
              dsimp only
              split
              · trivial
              · split
                · trivial
                · refine Prog.Each.bind (plain_normaliseRollout ..).lawful fun _ => ?_
                  split
                  · exact lawful_applyFlagChange ..
                  · trivial

theorem lawful_getOrSetCatalogue : Lawful getOrSetCatalogue := by
  refine Prog.Each.bind (Prog.Each.update rfl) fun cached => ?_
  cases cached with
  | some catalogue => trivial
  | none =>
      refine Prog.Each.bind (Prog.Each.update rfl) fun value => ?_
      exact Prog.Each.bind (Prog.Each.update rfl) fun _ => trivial

theorem lawful_start {i : Nat} {p : FlagProg (Result FlagAnswer)} (start : (flagSystem env).start i p) :
    Lawful p := by
  rcases start with ⟨read, rfl⟩ | ⟨write, rfl⟩
  · cases read with
    | resolve tenantId =>
        exact Prog.Each.bind (lawful_getOrSetCatalogue.bind fun _ => trivial) fun _ => trivial
    | enabled key tenantId =>
        refine Prog.Each.bind (Prog.Each.bind ?_ fun _ => trivial) fun _ => trivial
        exact lawful_getOrSetCatalogue.bind fun _ => trivial
  · exact Prog.Each.andThen (lawful_change write) fun _ => trivial

/-- A catalogue is cached right after it was loaded, and a change is stored before its own
invalidation. -/
def Orderly (past : Past) (label : FlagLabel) (_ : FlagDb) : Prop :=
  match label with
  | .set catalogue => ∃ db rest, past = (.load, db) :: rest ∧ catalogue = db.findEnabled
  | .insert _ | .update _ _ _ _ => ∀ x ∈ past, x.1 ≠ .del
  | _ => True

/-- The process has not invalidated the cache. -/
def Undeleted (past : Past) : Prop := ∀ x ∈ past, x.1 ≠ .del

/-- The process has stored the flag. -/
def Stored (flag : FeatureFlag) (past : Past) : Prop :=
  ∃ newer w db older, past = newer ++ (w, db) :: older ∧ FlagLabel.stored db w = some flag

/-- The process has stored the flag, and then invalidated the cache. -/
def Published (flag : FeatureFlag) (past : Past) : Prop :=
  ∃ newer w db older, past = newer ++ (w, db) :: older ∧ FlagLabel.stored db w = some flag ∧
    ∃ x ∈ newer, x.1 = .del

theorem Stored.push {flag : FeatureFlag} {past : Past} (stored : Stored flag past)
    (x : FlagLabel × FlagDb) : Stored flag (x :: past) := by
  obtain ⟨newer, w, db, older, rfl, is⟩ := stored
  exact ⟨x :: newer, w, db, older, rfl, is⟩

theorem Stored.publish {flag : FeatureFlag} {past : Past} (stored : Stored flag past) (db : FlagDb) :
    Published flag ((.del, db) :: past) := by
  obtain ⟨newer, w, db', older, rfl, is⟩ := stored
  exact ⟨(.del, db) :: newer, w, db', older, rfl, is, _, List.mem_cons_self, rfl⟩

theorem Published.push {flag : FeatureFlag} {past : Past} (published : Published flag past)
    (x : FlagLabel × FlagDb) : Published flag (x :: past) := by
  obtain ⟨newer, w, db, older, rfl, is, y, mem, del⟩ := published
  exact ⟨x :: newer, w, db, older, rfl, is, y, List.mem_cons_of_mem _ mem, del⟩

/-- The trail of a program, where every step is allowed. -/
abbrev Follows (R : A → Past → Prop) (past : Past) (p : FlagProg A) : Prop :=
  p.Trail (fun _ _ _ => True) Orderly R past

theorem Undeleted.push {past : Past} (undeleted : Undeleted past) {label : FlagLabel}
    (calm : Calm label) (db : FlagDb) : Undeleted ((label, db) :: past) := by
  intro x mem
  rcases List.mem_cons.mp mem with rfl | mem
  · rintro rfl
    exact calm
  · exact undeleted x mem

theorem orderly_of_calm {past : Past} (undeleted : Undeleted past) {label : FlagLabel}
    (calm : Calm label) (db : FlagDb) : Orderly past label db := by
  cases label with
  | insert flag => exact undeleted
  | update id version set includeDeleted => exact undeleted
  | set catalogue => exact calm.elim
  | _ => trivial

/-- A program that leaves the cache alone keeps what only grows. -/
theorem plain_follows {K : Past → Prop} {p : FlagProg A} {past : Past}
    (grows : ∀ x past, K past → K (x :: past)) (plain : Plain p) (undeleted : Undeleted past)
    (holds : K past) : Follows (fun _ past => Undeleted past ∧ K past) past p := by
  refine Prog.Trail.of_each (K := fun past => Undeleted past ∧ K past) ⟨undeleted, holds⟩
    (plain.mono ?_)
  rintro label _ ⟨-, calm⟩ past db ⟨undeleted, holds⟩
  exact ⟨orderly_of_calm undeleted calm db, undeleted.push calm db, grows _ _ holds⟩

theorem plain_first {p : FlagProg A} {past : Past} (plain : Plain p) (undeleted : Undeleted past) :
    Follows (fun _ past => Undeleted past) past p :=
  (plain_follows (K := fun _ => True) (fun _ _ _ => trivial) plain undeleted trivial).post
    fun _ _ h => h.1

/-- What holds when a change returns: the flag it returns is stored and published. -/
def Returned (result : Result FeatureFlag) (past : Past) : Prop :=
  ∀ flag, result = .ok flag → Published flag past

theorem returned_error (failure : FlagFailure) (past : Past) : Returned (.error failure) past :=
  fun _ same => nomatch same

/-- What is known after a stored write. -/
def Wrote (written : Written FeatureFlag) (past : Past) : Prop :=
  Undeleted past ∧ ∀ flag, written = .done flag → Stored flag past

theorem insert_follows {flag : FeatureFlag} {past : Past} (undeleted : Undeleted past) :
    Follows Wrote past (step (.insert flag) fun db => db.inserted flag) := by
  refine fun db _ => ⟨undeleted, undeleted.push (by trivial) db, fun created written => ?_⟩
  exact ⟨[], _, db, past, rfl, by simp only [FlagLabel.stored, written]⟩

theorem update_follows {id : String} {version : Nat} {changes : FlagSet} {includeDeleted : Bool}
    {past : Past} (undeleted : Undeleted past) :
    Follows Wrote past (step (.update id version changes includeDeleted) fun db =>
      db.updated id version changes includeDeleted) := by
  refine fun db _ => ⟨undeleted, undeleted.push (by trivial) db, fun updated written => ?_⟩
  exact ⟨[], _, db, past, rfl, by simp only [FlagLabel.stored, written]⟩

theorem publishChange_follows {flag : Option FeatureFlag} {updated : FeatureFlag} {action : FlagAction}
    {actor : Option Actor} {reason : Option String} {rolledBackFrom : Option Int} {past : Past}
    (undeleted : Undeleted past) (stored : Stored updated past) :
    Follows Returned past
      (publishChange flag updated action actor reason rolledBackFrom) := by
  refine Prog.Trail.andThen (plain_follows (K := Stored updated) (fun x _ stored => stored.push x)
    (plain_recordRevision _) undeleted stored) ?_ fun failure past _ => returned_error failure past
  rintro _ past ⟨-, stored⟩ db _
  refine ⟨trivial, fun db' _ => ⟨trivial, fun flag same => ?_⟩⟩
  obtain rfl := Except.ok.inj same
  exact (stored.publish db).push _

theorem applyFlagChange_follows (flag : FeatureFlag) (change : FlagChange) {past : Past}
    (undeleted : Undeleted past) :
    Follows Returned past (applyFlagChange env flag change) := by
  unfold applyFlagChange
  split
  · exact returned_error _ _
  · refine Prog.Trail.bind (plain_first (plain_ensureBaseline flag) undeleted) fun _ past undeleted => ?_
    refine Prog.Trail.bind (update_follows undeleted) ?_
    rintro written past ⟨undeleted, stored⟩
    cases written with
    | done updated => exact publishChange_follows undeleted (stored updated rfl)
    | none => exact fun _ _ => ⟨trivial, returned_error _ _⟩
    | duplicate => exact returned_error _ _
    | invalid => exact returned_error _ _

theorem change_follows (write : FlagWrite) : Follows Returned [] (write.change env) := by
  have fresh : Undeleted [] := fun _ mem => nomatch mem
  cases write with
  | create id data actor reason =>
      refine Prog.Trail.andThen (plain_first (plain_normaliseInput ..) fresh) ?_
        fun failure past _ => returned_error failure past
      intro input past undeleted
      refine Prog.Trail.bind (plain_first (plain_look _) undeleted) fun existing past undeleted => ?_
      cases existing with
      | some flag =>
          dsimp only
          split
          · exact returned_error _ _
          · exact applyFlagChange_follows _ _ undeleted
      | none =>
          refine Prog.Trail.bind (insert_follows undeleted) ?_
          rintro written past ⟨undeleted, stored⟩
          cases written with
          | done created => exact publishChange_follows undeleted (stored created rfl)
          | _ => exact returned_error _ _
  | update key patch version actor reason =>
      refine Prog.Trail.andThen (plain_first (plain_loadFlag key) fresh) ?_
        fun failure past _ => returned_error failure past
      intro flag past undeleted
      split
      · exact returned_error _ _
      · refine Prog.Trail.andThen (plain_first (plain_normaliseInput ..) undeleted) ?_
          fun failure past _ => returned_error failure past
        intro input past undeleted
        split
        · exact returned_error _ _
        · exact applyFlagChange_follows _ _ undeleted
  | delete key version actor reason =>
      refine Prog.Trail.andThen (plain_first (plain_loadFlag key) fresh) ?_
        fun failure past _ => returned_error failure past
      intro flag past undeleted
      split
      · exact returned_error _ _
      · exact Prog.Trail.bind (plain_first (plain_look _) undeleted) fun now past undeleted =>
          applyFlagChange_follows _ _ undeleted
  | rollback key toVersion version actor reason =>
      refine Prog.Trail.bind (plain_first (plain_look _) fresh) fun flag past undeleted => ?_
      cases flag with
      | none => exact returned_error _ _
      | some flag =>
          refine Prog.Trail.bind (plain_first (plain_look _) undeleted) fun target past undeleted => ?_
          cases target with
          | none => exact returned_error _ _
          | some target =>
              dsimp only
              split
              · exact returned_error _ _
              · split
                · exact returned_error _ _
                · refine Prog.Trail.bind (plain_first (plain_normaliseRollout ..) undeleted)
                    fun _ past undeleted => ?_
                  split
                  · exact applyFlagChange_follows _ _ undeleted
                  · exact returned_error _ _

/-- A process saw the catalogue: it found it in the cache, or loaded it. -/
def Seen (catalogue : List FeatureFlag) (past : Past) : Prop :=
  ∃ x ∈ past, x.1 = .get ∧ x.2.cached = some catalogue ∨ x.1 = .load ∧ catalogue = x.2.findEnabled

theorem getOrSetCatalogue_follows : Follows Seen [] getOrSetCatalogue := by
  intro db _
  refine ⟨trivial, ?_⟩
  cases hit : db.cached with
  | some catalogue =>
      simp only [hit]
      exact ⟨_, List.mem_cons_self, .inl ⟨rfl, hit⟩⟩
  | none =>
      simp only [hit]
      intro db' _
      refine ⟨trivial, fun db'' _ => ⟨⟨db', _, rfl, rfl⟩, ?_⟩⟩
      exact ⟨_, List.mem_cons_of_mem _ List.mem_cons_self, .inr ⟨rfl, rfl⟩⟩

/-- What an answer says of the steps of its process. -/
def Answered (env : FlagEnv) (result : Result FlagAnswer) (past : Past) : Prop :=
  match result with
  | .ok (.changed flag) => Published flag past
  | .ok (.read request value) => ∃ catalogue, Seen catalogue past ∧ value = request.evaluate env catalogue
  | .error _ => True

theorem start_follows {i : Nat} {p : FlagProg (Result FlagAnswer)} (start : (flagSystem env).start i p) :
    Follows (Answered env) [] p := by
  rcases start with ⟨read, rfl⟩ | ⟨write, rfl⟩
  · cases read with
    | resolve tenantId =>
        refine Prog.Trail.bind (R := fun values past =>
          ∃ catalogue, Seen catalogue past ∧ values = resolveAll env catalogue tenantId) ?_ ?_
        · exact getOrSetCatalogue_follows.bind fun catalogue past seen => ⟨catalogue, seen, rfl⟩
        · rintro _ past ⟨catalogue, seen, rfl⟩
          exact ⟨catalogue, seen, rfl⟩
    | enabled key tenantId =>
        refine Prog.Trail.bind (R := fun on past => ∃ catalogue, Seen catalogue past ∧
          on = decide ((resolveAll env catalogue tenantId).lookup key = some true)) ?_ ?_
        · refine Prog.Trail.bind (R := fun values past =>
            ∃ catalogue, Seen catalogue past ∧ values = resolveAll env catalogue tenantId) ?_ ?_
          · exact getOrSetCatalogue_follows.bind fun catalogue past seen => ⟨catalogue, seen, rfl⟩
          · rintro _ past ⟨catalogue, seen, rfl⟩
            exact ⟨catalogue, seen, rfl⟩
        · rintro _ past ⟨catalogue, seen, rfl⟩
          exact ⟨catalogue, seen, rfl⟩
  · refine Prog.Trail.andThen (change_follows write) ?_ fun _ _ _ => trivial
    exact fun flag past returned => returned flag rfl

end Trails

/-! ## What is cached -/

/-- The catalogue was loaded, and no change stored after that has invalidated the cache since. -/
def Sourced (trace : FlagTrace) (catalogue : List FeatureFlag) : Prop :=
  ∃ newer L older, trace = newer ++ L :: older ∧ L.label = .load ∧ catalogue = L.before.findEnabled ∧
    Unpublished newer

def CacheSourced (trace : FlagTrace) (db : FlagDb) : Prop :=
  ∀ entry, db.catalogue = some entry → (∀ e ∈ trace, e.label ≠ .del) ∨ Sourced trace entry.1

section Cached

variable {env} {trace : FlagTrace}

theorem act_catalogue {label : FlagLabel} (calm : Calm label) (db : FlagDb) :
    (label.act db).catalogue = db.catalogue := by
  cases label with
  | set catalogue => exact calm.elim
  | del => exact calm.elim
  | insert flag =>
      simp only [FlagLabel.act]
      split <;> rfl
  | update id version changes includeDeleted =>
      simp only [FlagLabel.act]
      split <;> rfl
  | revise revision =>
      simp only [FlagLabel.act]
      split <;> rfl
  | look => rfl
  | get => rfl
  | load => rfl
  | audit event => rfl

theorem sinceLoad_append {i : Nat} {newer older : FlagTrace} {L : Event Nat FlagLabel FlagDb}
    (none : System.steps i newer = []) (tid : L.tid = i) (load : L.label = .load) :
    sinceLoad i (newer ++ L :: older) = newer := by
  have others : ∀ e ∈ newer, (!(e.tid = i && e.label = .load)) = true := by
    intro e mem
    have apart : e.tid ≠ i := by
      rintro rfl
      rw [System.steps, List.map_eq_nil_iff] at none
      exact List.filter_eq_nil_iff.mp none e mem (by simp)
    simp [apart]
  rw [sinceLoad, List.takeWhile_append_of_pos others, List.takeWhile_cons_of_neg (by simp [tid, load]),
    List.append_nil]

theorem split_of_steps {i : Nat} {label : FlagLabel} {db : FlagDb} {after rest : Past}
    (steps : System.steps i trace = after ++ (label, db) :: rest) :
    ∃ newer L older, trace = newer ++ L :: older ∧ L.tid = i ∧ L.label = label ∧ L.before = db ∧
      System.steps i newer = after := by
  obtain ⟨events, events', split, newest, oldest⟩ := List.map_eq_append_iff.mp steps
  obtain ⟨L, events'', rfl, same, -⟩ := List.map_eq_cons_iff.mp oldest
  obtain ⟨newer, tail, rfl, newer_is, tail_is⟩ := List.filter_eq_append_iff.mp split
  obtain ⟨skipped, older, rfl, none, tid, -⟩ := List.filter_eq_cons_iff.mp tail_is
  rw [Prod.mk.injEq] at same
  refine ⟨newer ++ skipped, L, older, by simp, by simpa using tid, same.1, same.2, ?_⟩
  have nothing : skipped.filter (fun e => e.tid = i) = [] := List.filter_eq_nil_iff.mpr none
  rw [System.steps, List.filter_append, newer_is, nothing, List.append_nil, newest]

theorem mem_steps {e : Event Nat FlagLabel FlagDb} (mem : e ∈ trace) :
    (e.label, e.before) ∈ System.steps e.tid trace := by
  simp only [System.steps, List.mem_map, List.mem_filter, decide_eq_true_eq]
  exact ⟨e, ⟨mem, rfl⟩, rfl⟩

/-- A step other than the two of the cache keeps a catalogue sourced, if it comes before any
invalidation by its process when it stores a change. -/
theorem Sourced.push {catalogue : List FeatureFlag} (sourced : Sourced trace catalogue)
    {e : Event Nat FlagLabel FlagDb} (orderly : Orderly (System.steps e.tid trace) e.label e.before)
    (kept : e.label ≠ .del) : Sourced (e :: trace) catalogue := by
  obtain ⟨newer, L, older, rfl, load, is, unpublished⟩ := sourced
  refine ⟨e :: newer, L, older, rfl, load, is, ?_⟩
  intro W memW stored D memD del
  rcases List.mem_cons.mp memD with rfl | inD
  · exact absurd del kept
  rcases List.mem_cons.mp memW with rfl | inW
  · intro same
    have past : (D.label, D.before) ∈ System.steps W.tid (newer ++ L :: older) :=
      same ▸ mem_steps (List.mem_append_left _ inD)
    revert orderly stored
    cases W.label with
    | insert flag => exact fun _ orderly => orderly _ past del
    | update id version changes includeDeleted => exact fun _ orderly => orderly _ past del
    | _ => exact fun stored => nomatch stored
  · exact unpublished W inW stored D inD del

theorem cacheSourced {s₀ : FlagDb} {c : FlagConfig} (reach : (flagSystem env).Reach s₀ c)
    (timely : Timely c.world.trace) : CacheSourced c.world.trace c.world.store ∧
      ∀ later e earlier, c.world.trace = later ++ e :: earlier → CacheSourced earlier e.before := by
  induction reach with
  | init =>
      refine ⟨fun _ _ => .inl fun _ mem => (by cases mem), fun later e earlier split => ?_⟩
      simp [Config.idle] at split
  | @next c c' before step ih =>
      have trailed := ((before.next step).trailed fun i p start => start_follows start).1
      cases step with
      | start i p fresh may => exact ih timely
      | env s' may =>
          refine ⟨fun entry cached => (ih timely).1 entry ?_, (ih timely).2⟩
          have same := congrArg FlagDb.catalogue may.2
          exact same.symm.trans cached
      | act i label f next running allowed =>
          obtain ⟨now, past⟩ := ih timely.2
          have act : f = label.act :=
            (before.running_each (fun i p start => lawful_start start) running).1
          have orderly := trailed [] _ _ rfl
          refine ⟨fun entry cached => ?_, fun later e earlier split => ?_⟩
          · subst act
            by_cases calm : Calm label
            · have kept : label ≠ .del := by
                rintro rfl
                exact calm
              rcases now entry ((act_catalogue calm _).symm.trans cached) with first | sourced
              · exact .inl fun e mem => (List.mem_cons.mp mem).elim (fun same => same ▸ kept) (first e)
              · exact .inr (sourced.push orderly kept)
            · cases label with
              | set catalogue =>
                  obtain ⟨db, rest, steps, is⟩ := orderly
                  obtain ⟨newer, L, older, split, tid, load, found, none⟩ :=
                    split_of_steps (steps.trans (List.nil_append _).symm)
                  have unpublished := timely.1 rfl
                  rw [show sinceLoad i c.world.trace = newer from
                    split ▸ sinceLoad_append none tid load] at unpublished
                  have entry_is : entry.1 = catalogue := congrArg Prod.fst (Option.some.inj cached).symm
                  refine .inr ⟨_ :: newer, L, older, congrArg _ split, load, ?_, ?_⟩
                  · rw [entry_is, is, found]
                  · intro W memW stored D memD del
                    rcases List.mem_cons.mp memW with rfl | memW
                    · cases stored
                    · rcases List.mem_cons.mp memD with rfl | memD
                      · cases del
                      · exact unpublished W memW stored D memD del
              | del => cases cached
              | _ => exact absurd trivial calm
          · cases later with
            | nil =>
                obtain ⟨rfl, rfl⟩ := List.cons.inj split
                exact now
            | cons e' later => exact past later e earlier (List.cons.inj split).2

theorem published_events {i : Nat} {flag : FeatureFlag} (published : Published flag (System.steps i trace)) :
    ∃ newest D between W earlier, trace = newest ++ D :: (between ++ W :: earlier) ∧ D.label = .del ∧
      D.tid = W.tid ∧ W.tid = i ∧ W.label.stored W.before = some flag := by
  obtain ⟨after, w, db, rest, steps, stored, x, mem, del⟩ := published
  obtain ⟨newer, W, earlier, split, tid, label, before, after_is⟩ := split_of_steps steps
  rw [← after_is] at mem
  simp only [System.steps, List.mem_map, List.mem_filter, decide_eq_true_eq] at mem
  obtain ⟨D, ⟨mem, tidD⟩, same⟩ := mem
  obtain ⟨newest, between, rfl⟩ := List.append_of_mem mem
  refine ⟨newest, D, between, W, earlier, by rw [split]; simp, ?_, tidD.trans tid.symm, tid, ?_⟩
  · exact (congrArg Prod.fst same).trans del
  · rw [label, before, stored]

theorem Sourced.since {catalogue : List FeatureFlag} (sourced : Sourced trace catalogue)
    {newest between earlier : FlagTrace} {D W : Event Nat FlagLabel FlagDb}
    (split : trace = newest ++ D :: (between ++ W :: earlier)) (del : D.label = .del)
    (own : D.tid = W.tid) (stored : (W.label.stored W.before).isSome) :
    ∃ later L between, trace = later ++ L :: (between ++ W :: earlier) ∧ L.label = .load ∧
      catalogue = L.before.findEnabled := by
  obtain ⟨newer, L, older, split', load, is, unpublished⟩ := sourced
  have apart : W ≠ L := by
    rintro rfl
    rw [load] at stored
    exact nomatch stored
  have suffix : W :: earlier <:+ trace := ⟨newest ++ D :: between, by rw [split]; simp⟩
  have suffix' : L :: older <:+ trace := ⟨newer, split'.symm⟩
  rcases List.suffix_or_suffix_of_suffix suffix suffix' with before | after
  · rcases List.suffix_cons_iff.mp before with same | ⟨mid, rfl⟩
    · exact absurd (List.cons.inj same).1 apart
    · exact ⟨newer, L, mid, split', load, is⟩
  · rcases List.suffix_cons_iff.mp after with same | ⟨mid, rfl⟩
    · exact absurd (List.cons.inj same).1.symm apart
    · have whole : newer ++ L :: older = (newest ++ D :: (between ++ W :: mid)) ++ L :: older := by
        rw [← split', split]
        simp
      have newer_is := List.append_cancel_right whole
      exact absurd own (unpublished W (by simp [newer_is]) stored D (by simp [newer_is]) del)

end Cached

/-- A value is what a read makes of the flags that were enabled at some time after the change that a
process made was stored. -/
def EvaluatesSince (i : Nat) (flag : FeatureFlag) (trace : FlagTrace) (request : FlagRead)
    (value : FlagValue) : Prop :=
  ∃ later L between W earlier, trace = later ++ L :: (between ++ W :: earlier) ∧ W.tid = i ∧
    W.label.stored W.before = some flag ∧ L.label = .load ∧
    value = request.evaluate env L.before.findEnabled

/-- In a run in which no reader caches what it loaded before a change that has invalidated the cache
since, a read that starts after a change has returned evaluates a catalogue with the change. -/
theorem change_takes_effect {s₀ : FlagDb} {c c' : FlagConfig} (reach : (flagSystem env).Reach s₀ c)
    (on : Relation.ReflTransGen (Step (flagSystem env)) c c') (timely : Timely c'.world.trace) {i j : Nat}
    {flag : FeatureFlag} (changed : c.pool i = some (.done (.ok (.changed flag))))
    (fresh : c.pool j = none) {request : FlagRead} {value : FlagValue}
    (answered : c'.pool j = some (.done (.ok (.read request value)))) :
    EvaluatesSince env i flag c'.world.trace request value := by
  obtain ⟨-, unused, running⟩ := reach.trailed fun i p start => start_follows start
  have published : Published flag (steps i c.world.trace) := running i _ changed
  obtain ⟨newest, D, between, W, earlier, split, del, own, tid, stored⟩ := published_events published
  have reach' := reach.later on
  obtain ⟨catalogue, seen, is⟩ : Answered env (.ok (.read request value)) (steps j c'.world.trace) :=
    (reach'.trailed fun i p start => start_follows start).2.2 j _ answered
  obtain ⟨later, whole⟩ := trace_later on
  -- What `j` did, it did after the change had returned.
  have seen' : ∃ e ∈ later, e.label = .get ∧ e.before.cached = some catalogue ∨
      e.label = .load ∧ catalogue = e.before.findEnabled := by
    obtain ⟨x, mem, saw⟩ := seen
    have nothing := unused j fresh
    rw [steps, List.map_eq_nil_iff] at nothing
    rw [whole, steps, List.filter_append, nothing, List.append_nil] at mem
    obtain ⟨e, inE, rfl⟩ := List.mem_map.mp mem
    exact ⟨e, List.mem_of_mem_filter inE, saw⟩
  obtain ⟨e, mem, saw⟩ := seen'
  obtain ⟨newer, older, rfl⟩ := List.append_of_mem mem
  rcases saw with ⟨-, hit⟩ | ⟨load, loaded⟩
  · have sourced := (cacheSourced reach' timely).2 newer e (older ++ c.world.trace) (by rw [whole]; simp)
    obtain ⟨entry, found, rfl⟩ := Option.map_eq_some_iff.mp hit
    have cached := (Option.filter_eq_some_iff.mp found).1
    have split' : older ++ c.world.trace = (older ++ newest) ++ D :: (between ++ W :: earlier) := by
      rw [split]
      simp
    rcases sourced entry cached with first | sourced
    · exact absurd del (first D (by simp [split']))
    · obtain ⟨later', L, mid, split'', load, found⟩ := sourced.since split' del own (by simp [stored])
      refine ⟨newer ++ e :: later', L, mid, W, earlier, ?_, tid, stored, load, by rw [is, found]⟩
      rw [whole, List.append_assoc, List.cons_append, split'']
      simp
  · refine ⟨newer, e, older ++ newest ++ D :: between, W, earlier, ?_, tid, stored, load, ?_⟩
    · rw [whole, split]
      simp
    · rw [is, loaded]

/-! ## The kill switch -/

namespace KillSwitch

def runtime : FlagEnv where
  sha256 := id
  castKey := id

def key : String := "ai.kill_switch"

def off : FlagDb where
  clock := 1700000000000
  flags :=
    [{ id := "f1", key, name := "AI kill switch", description := "", enabled := false, rollout := {}
       version := 1, updatedBy := none }]
  revisions := []
  tenants := []
  catalogue := none
  recorded := []

/-- The flag with the switch on. -/
def on : FeatureFlag where
  id := "f1"
  key
  name := "AI kill switch"
  description := ""
  enabled := true
  rollout := {}
  version := 2
  updatedBy := none

abbrev Moves := List (Move Nat FlagLabel FlagDb (Result FlagAnswer))

def turning : Moves :=
  .start 0 ((FlagWrite.update key (.obj [("enabled", .bool true)]) none none none).program runtime) ::
    List.replicate 7 (.act 0)

def reading (i : Nat) : Moves := [.start i ((FlagRead.enabled key none).program runtime)]

/-- A read that starts after the change. -/
def prompt : Moves := reading 2 ++ List.replicate 3 (.act 2)

/-- A read loads the catalogue, the switch is turned on, and the read caches what it loaded. -/
def slow : Moves := reading 1 ++ [.act 1, .act 1] ++ turning ++ [.act 1]

/-- A read that finds the catalogue cached. -/
def late : Moves := reading 2 ++ [.act 2]

def turned : FlagConfig := turning.foldl Config.move (.idle off)

def slowly : FlagConfig := slow.foldl Config.move (.idle off)

theorem legal_act (i : Nat) (c : FlagConfig) : (flagSystem runtime).Legal c (.act i) := by
  simp only [Legal]
  split <;> trivial

theorem legal_acts (i steps : Nat) (c : FlagConfig) :
    (flagSystem runtime).LegalRun c (List.replicate steps (.act i)) := by
  induction steps generalizing c with
  | zero => trivial
  | succ steps ih => exact ⟨legal_act i c, ih _⟩

theorem legal_reading {i : Nat} {c : FlagConfig} (fresh : c.pool i = none) :
    (flagSystem runtime).LegalRun c (reading i) := ⟨⟨fresh, .inl ⟨_, rfl⟩⟩, trivial⟩

theorem legal_turning {c : FlagConfig} (fresh : c.pool 0 = none) :
    (flagSystem runtime).LegalRun c turning := ⟨⟨fresh, .inr ⟨_, rfl⟩⟩, legal_acts 0 7 _⟩

theorem legal_prompt {c : FlagConfig} (fresh : c.pool 2 = none) :
    (flagSystem runtime).LegalRun c prompt := (legal_reading fresh).append (legal_acts 2 3 _)

theorem legal_late {c : FlagConfig} (fresh : c.pool 2 = none) :
    (flagSystem runtime).LegalRun c late := (legal_reading fresh).append (legal_acts 2 1 _)

theorem legal_slow : (flagSystem runtime).LegalRun (.idle off) slow := by
  have loaded : (flagSystem runtime).LegalRun (.idle off) (reading 1 ++ [.act 1, .act 1]) :=
    (legal_reading rfl).append (legal_acts 1 2 _)
  exact (loaded.append (legal_turning rfl)).append (legal_acts 1 1 _)

end KillSwitch

open KillSwitch in
theorem change_takes_effect_promptly :
    EvaluatesSince runtime 0 on (prompt.foldl Config.move turned).world.trace (.enabled key none)
      (.enabled true) :=
  change_takes_effect runtime (Reach.moves .init (legal_turning rfl)) (legal_prompt rfl).steps
    (by decide +kernel) (i := 0) (j := 2) rfl rfl rfl

def loadedSince : FlagTrace → Bool
  | [] => false
  | L :: earlier =>
      (L.label = .load && earlier.any fun W => (W.label.stored W.before).isSome) || loadedSince earlier

theorem EvaluatesSince.loadedSince {env : FlagEnv} {i : Nat} {flag : FeatureFlag} {trace : FlagTrace}
    {request : FlagRead} {value : FlagValue} (since : EvaluatesSince env i flag trace request value) :
    loadedSince trace = true := by
  obtain ⟨later, L, between, W, earlier, rfl, -, stored, load, -⟩ := since
  induction later with
  | nil => simp [Flags.loadedSince, load, stored]
  | cons e later ih => simp [Flags.loadedSince, ih]

open KillSwitch in
/-- A read that loads before the switch is turned on and caches after that hides the change. -/
theorem slow_read_hides_change :
    ¬ ∀ (env : FlagEnv) (s₀ : FlagDb) (c c' : FlagConfig), (flagSystem env).Reach s₀ c →
        Relation.ReflTransGen (Step (flagSystem env)) c c' → ∀ i j flag,
          c.pool i = some (.done (.ok (.changed flag))) → c.pool j = none → ∀ request value,
            c'.pool j = some (.done (.ok (.read request value))) →
              EvaluatesSince env i flag c'.world.trace request value := by
  intro all
  have since := all runtime off slowly (late.foldl Config.move slowly)
    (Reach.moves .init legal_slow) (legal_late rfl).steps 0 2 on rfl rfl
    (.enabled key none) (.enabled false) rfl
  have missed : loadedSince (late.foldl Config.move slowly).world.trace = false := by
    decide +kernel
  rw [since.loadedSince] at missed
  exact nomatch missed

end AnalyticsBackend.Flags
