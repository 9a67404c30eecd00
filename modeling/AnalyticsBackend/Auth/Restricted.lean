import AnalyticsBackend.Auth.RotatedOnce

/-!
# A restriction survives rotation

A restriction of an actor or of a login is in force from its update until an update that lifts it.
The updates restrict every session that is active when they run; a successor is written later,
with the restriction its refresh has read, so it is restricted only if nothing was restricted
between that reading and the write.
-/

namespace AnalyticsBackend.Auth
open Lib System Collection

/-! ## Restrictions in force -/

/-- The updates that restrict the sessions of a login. -/
def SessionLabel.restricts (actorId family : String) : SessionLabel → Bool
  | .restrictAll actor restriction => actor = actorId && restriction.isSome
  | .restrictLogin _ login restriction => login = family && restriction.isSome
  | _ => false

def SessionLabel.lifts (actorId family : String) : SessionLabel → Bool
  | .restrictAll actor restriction => actor = actorId && restriction.isNone
  | .restrictLogin _ login restriction => login = family && restriction.isNone
  | _ => false

def SessionLabel.isFind : SessionLabel → Bool
  | .find _ => true
  | _ => false

/-- The actor or the login was restricted, and the login not lifted since. -/
def inForce (actorId family : String) : SessionTrace → Bool
  | [] => false
  | e :: earlier => e.label.restricts actorId family ||
      !e.label.lifts actorId family && inForce actorId family earlier

def inForceSince (i : Nat) (actorId family : String) : SessionTrace → Bool
  | [] => false
  | e :: earlier => !(e.tid = i && e.label.isFind) && (e.label.restricts actorId family ||
      !e.label.lifts actorId family && inForceSince i actorId family earlier)

/-- A step that does not write an unrestricted successor after a restriction that its process has
not seen. -/
def SessionEvent.undisturbed (e : SessionEvent) (earlier : SessionTrace) : Bool :=
  match e.label with
  | .create n => n.restriction.isSome || !inForceSince e.tid n.actorId n.family earlier
  | _ => true

/-- No restriction is made between a refresh's reading of its session and its write of an
unrestricted successor. -/
def Undisturbed : SessionTrace → Bool
  | [] => true
  | e :: earlier => e.undisturbed earlier && Undisturbed earlier

section InForce

variable {e : SessionEvent} {trace : SessionTrace} {actorId family : String}

/-- Neither kind of update. -/
def SessionLabel.Neutral (label : SessionLabel) : Prop :=
  ∀ actorId family, label.restricts actorId family = false ∧ label.lifts actorId family = false

theorem inForce_neutral (neutral : e.label.Neutral) :
    inForce actorId family (e :: trace) = inForce actorId family trace := by
  simp [inForce, neutral actorId family]

/-- What a process that has found an unrestricted session knows. -/
def ReadUnrestricted (i : Nat) (p : Session) (trace : SessionTrace) : Prop :=
  Undisturbed trace = true → p.restriction = none →
    inForce p.actorId p.family trace = true → inForceSince i p.actorId p.family trace = true

theorem ReadUnrestricted.cons {i : Nat} {p : Session} (read : ReadUnrestricted i p trace)
    (e : SessionEvent) (going : e.tid = i → e.label.isFind = false) :
    ReadUnrestricted i p (e :: trace) := by
  intro undisturbed unrestricted force
  rw [Undisturbed, Bool.and_eq_true] at undisturbed
  have past : (decide (e.tid = i) && e.label.isFind) = false := by
    by_cases own : e.tid = i
    · simp [own, going own]
    · simp [own]
  rw [inForceSince, past, Bool.not_false, Bool.true_and, Bool.or_eq_true]
  rw [inForce, Bool.or_eq_true] at force
  rcases force with restricts | kept
  · exact .inl restricts
  · rw [Bool.and_eq_true] at kept
    exact .inr (by rw [kept.1, read undisturbed.2 unrestricted kept.2]; rfl)

end InForce

/-! ## The invariant -/

/-- Sessions of one id are one session, each under its family, and while a restriction of its login
is in force an active session is restricted. -/
structure RestrictedInv (w : SessionWorld) : Prop where
  drawn : ∀ s ∈ w.store.sessions, s.sessionId ∈ w.store.drawnIds
  unique : (w.store.sessions.map Session.sessionId).Nodup
  placed : ∀ s ∈ w.store.sessions, s.familyId = some s.family
  kept : Undisturbed w.trace = true → ∀ s ∈ w.store.sessions, s.isActive = true →
    inForce s.actorId s.family w.trace = true → s.restriction.isSome = true

/-- A step leaves the sessions of the ids that were drawn before it. -/
structure Continues (e : SessionEvent) : Prop where
  drawn : ∀ id ∈ e.before.drawnIds, id ∈ e.after.drawnIds
  same : ∀ s' ∈ e.after.sessions, s'.sessionId ∈ e.before.drawnIds →
    ∃ s ∈ e.before.sessions, SameLogin s s'

theorem Evolves.continues {e : SessionEvent} (evolves : Evolves e.before e.after) : Continues e where
  drawn := fun id mem => evolves.drawnIds ▸ mem
  same := fun s' mem _ => by
    obtain ⟨s, there, same, -⟩ := evolves.kept s' mem
    exact ⟨s, there, same⟩

/-- Active sessions after a step that restricts and lifts nothing: each was active, with the same
restriction. -/
def Ends (db db' : SessionDb) : Prop :=
  ∀ s' ∈ db'.sessions, s'.isActive = true →
    ∃ s ∈ db.sessions, SameLogin s s' ∧ s.isActive = true ∧ s'.restriction = s.restriction

theorem Ends.of_sessions {db db' : SessionDb} (sessions : db'.sessions = db.sessions) :
    Ends db db' :=
  fun s mem active => ⟨s, sessions ▸ mem, .refl s, active, rfl⟩

theorem Ends.updateOne {f : Session → Session} (ends : ∀ s, (f s).isActive = false)
    (p : Session → Bool) (db : SessionDb) : Ends db (db.updateOne p f) := by
  intro s' mem active
  rcases of_mem_updateFirst mem with earlier | ⟨s, -, -, rfl⟩
  · exact ⟨s', earlier, .refl s', active, rfl⟩
  · rw [ends s] at active
    exact nomatch active

theorem Ends.updateMany {f : Session → Session} (ends : ∀ s, (f s).isActive = false)
    (p : Session → Bool) (db : SessionDb) : Ends db (db.updateMany p f) := by
  intro s' mem active
  rcases mem_updateMany mem with ⟨s, -, -, rfl⟩ | ⟨earlier, -⟩
  · rw [ends s] at active
    exact nomatch active
  · exact ⟨s', earlier, .refl s', active, rfl⟩

namespace RestrictedInv

variable {w : SessionWorld} {e : SessionEvent}

/-- The invariant after a step that adds no session. -/
theorem push (inv : RestrictedInv w) (evolves : Evolves w.store e.after)
    (kept : Undisturbed w.trace = true → ∀ s ∈ e.after.sessions, s.isActive = true →
      inForce s.actorId s.family (e :: w.trace) = true → s.restriction.isSome = true) :
    RestrictedInv (w.push e) where
  drawn := fun s' mem => by
    obtain ⟨s, there, same, -⟩ := evolves.kept s' mem
    rw [World.push_store, evolves.drawnIds, ← same.sessionId]
    exact inv.drawn s there
  unique := evolves.ids.nodup inv.unique
  placed := fun s' mem => by
    obtain ⟨s, there, same, -⟩ := evolves.kept s' mem
    rw [← same.familyId, ← same.family]
    exact inv.placed s there
  kept := fun undisturbed => by
    rw [World.push_trace, Undisturbed, Bool.and_eq_true] at undisturbed
    exact kept undisturbed.2

theorem neutral (inv : RestrictedInv w) (evolves : Evolves w.store e.after)
    (ends : Ends w.store e.after) (neutral : e.label.Neutral) : RestrictedInv (w.push e) := by
  refine inv.push evolves fun undisturbed s' mem active force => ?_
  obtain ⟨s, there, same, was, restriction⟩ := ends s' mem active
  rw [inForce_neutral neutral, ← same.actorId, ← same.family] at force
  rw [restriction]
  exact inv.kept undisturbed s there was force

theorem restrict (inv : RestrictedInv w) {p : Session → Bool} {restriction : Option Restriction}
    (after : e.after = w.store.updateMany p fun s => { s with restriction })
    (restricts : ∀ s ∈ w.store.sessions, s.isActive = true →
      e.label.restricts s.actorId s.family = (p s && restriction.isSome))
    (lifts : ∀ s ∈ w.store.sessions, s.isActive = true →
      e.label.lifts s.actorId s.family = (p s && restriction.isNone)) :
    RestrictedInv (w.push e) := by
  have evolves : Evolves w.store e.after := after ▸ .updateMany (tame_restricted restriction) p _
  refine inv.push evolves fun undisturbed s' mem active force => ?_
  rw [after] at mem
  rcases mem_updateMany mem with ⟨s, there, matched, rfl⟩ | ⟨there, unmatched⟩
  · dsimp only at *
    cases restriction with
    | some r => rfl
    | none =>
        have lifted := lifts s there active
        have unrestricted := restricts s there active
        rw [matched] at lifted unrestricted
        have expired : inForce s.actorId s.family (e :: w.trace) = false := by
          simp [inForce, lifted, unrestricted]
        exact absurd force (by simpa [Session.family] using expired)
  · have lifted := lifts s' there active
    have unrestricted := restricts s' there active
    rw [unmatched, Bool.false_and] at lifted unrestricted
    rw [inForce, lifted, unrestricted] at force
    exact inv.kept undisturbed s' there active (by simpa using force)

/-- A successor, by a process that read its predecessor unrestricted only if no restriction was in
force then. -/
theorem create (inv : RestrictedInv w) {n : Session} {i : Nat} (own : e.tid = i)
    (label : e.label = .create n) (after : e.after = w.store.insert n)
    (fresh : n.sessionId ∉ w.store.drawnIds) (placed : n.familyId = some n.family)
    (read : Undisturbed w.trace = true → n.restriction = none →
      inForce n.actorId n.family w.trace = true →
        inForceSince i n.actorId n.family w.trace = true) :
    RestrictedInv (w.push e) := by
  have sessions : e.after.sessions = n :: w.store.sessions := by rw [after]; rfl
  have drawnIds : e.after.drawnIds = n.sessionId :: w.store.drawnIds := by rw [after]; rfl
  refine ⟨fun s mem => ?_, ?_, fun s mem => ?_, fun undisturbed s mem active force => ?_⟩
  · rw [World.push_store, sessions] at mem
    rw [World.push_store, drawnIds]
    rcases List.mem_cons.mp mem with rfl | mem
    · exact List.mem_cons_self ..
    · exact List.mem_cons_of_mem _ (inv.drawn s mem)
  · rw [World.push_store, sessions, List.map_cons, List.nodup_cons]
    refine ⟨fun mem => ?_, inv.unique⟩
    obtain ⟨s, there, same⟩ := List.mem_map.mp mem
    exact fresh (same ▸ inv.drawn s there)
  · rw [World.push_store, sessions] at mem
    rcases List.mem_cons.mp mem with rfl | mem
    · exact placed
    · exact inv.placed s mem
  · rw [World.push_trace, Undisturbed, Bool.and_eq_true, SessionEvent.undisturbed, label,
      own] at undisturbed
    rw [World.push_trace, inForce_neutral (by rw [label]; exact fun _ _ => ⟨rfl, rfl⟩)] at force
    rw [World.push_store, sessions] at mem
    rcases List.mem_cons.mp mem with rfl | mem
    · cases restriction : s.restriction with
      | some r => rfl
      | none =>
          have disturbed := undisturbed.1
          simp only [restriction, read undisturbed.2 restriction force] at disturbed
          exact nomatch disturbed
    · exact inv.kept undisturbed.2 s mem active force

theorem env (inv : RestrictedInv w) {db : SessionDb}
    (sessions : db.sessions.Sublist w.store.sessions) (drawnIds : db.drawnIds = w.store.drawnIds) :
    RestrictedInv { store := db, trace := w.trace } where
  drawn := fun s mem => drawnIds ▸ inv.drawn s (sessions.subset mem)
  unique := (sessions.map _).nodup inv.unique
  placed := fun s mem => inv.placed s (sessions.subset mem)
  kept := fun undisturbed s mem => inv.kept undisturbed s (sessions.subset mem)

theorem plain (inv : RestrictedInv w) {label : SessionLabel} {act : SessionDb → SessionDb}
    (step : PlainStep label act) (i : Nat) :
    RestrictedInv (w.push ⟨i, label, w.store, act w.store⟩) := by
  cases step with
  | look => exact inv.neutral (.of_sessions rfl rfl rfl) (.of_sessions rfl) fun _ _ => ⟨rfl, rfl⟩
  | account _ _ _ elsewhere =>
      obtain ⟨sessions, drawnIds, drawnHashes, -⟩ := elsewhere w.store
      exact inv.neutral (.of_sessions sessions drawnIds drawnHashes) (.of_sessions sessions)
        fun _ _ => ⟨rfl, rfl⟩
  | revoke _ now reason =>
      exact inv.neutral (.updateOne (tame_ended now reason) _ _) (.updateOne (fun _ => rfl) _ _)
        fun _ _ => ⟨rfl, rfl⟩
  | markExpired =>
      exact inv.neutral (.updateOne tame_expired _ _) (.updateOne (fun _ => rfl) _ _)
        fun _ _ => ⟨rfl, rfl⟩
  | revokeAll _ now reason =>
      exact inv.neutral (.updateMany (tame_ended now _) _ _) (.updateMany (fun _ => rfl) _ _)
        fun _ _ => ⟨rfl, rfl⟩
  | revokeRestricted _ now reason =>
      exact inv.neutral (.updateMany (tame_ended now _) _ _) (.updateMany (fun _ => rfl) _ _)
        fun _ _ => ⟨rfl, rfl⟩
  | restrictAll actorId restriction =>
      refine inv.restrict rfl (fun s _ active => ?_) fun s _ active => ?_
      all_goals simp [SessionLabel.restricts, SessionLabel.lifts, activeOf, active, eq_comm]

theorem restrictLogin (inv : RestrictedInv w) {sid familyId : String}
    {restriction : Option Restriction}
    (login : ∀ s ∈ w.store.sessions, s.sessionId = sid → s.family = familyId) (i : Nat) :
    RestrictedInv (w.push ⟨i, .restrictLogin sid familyId restriction, w.store,
      w.store.updateMany (activeInLogin sid familyId) fun s => { s with restriction }⟩) := by
  have matched (s : Session) (mem : s ∈ w.store.sessions) (active : s.isActive = true) :
      activeInLogin sid familyId s = decide (familyId = s.family) := by
    have placed := inv.placed s mem
    by_cases own : s.sessionId = sid
    · simp [activeInLogin, own, active, login s mem own]
    · simp [activeInLogin, own, active, placed, eq_comm]
  refine inv.restrict rfl (fun s mem active => ?_) fun s mem active => ?_
  · rw [matched s mem active]
    rfl
  · rw [matched s mem active]
    rfl

end RestrictedInv

/-! ## The programs -/

/-- The requests after the logins. -/
def afterLogin : SessionRequest → Prop
  | .login _ | .support _ => False
  | _ => True

section Programs

variable (rt : SessionRuntime)

abbrev SafeRestricted {A : Type} (i : Nat) (Q : A → SessionWorld → Prop) (p : SessionProg A)
    (P : SessionWorld → Prop) : Prop :=
  Safe (sessionSystem rt afterLogin).env Genuine RestrictedInv Continues i Q p P

abbrev StableRestricted (i : Nat) (P : SessionWorld → Prop) : Prop :=
  Stable (sessionSystem rt afterLogin).env RestrictedInv Continues i P

def Reads (i : Nat) (found : Option Session) (w : SessionWorld) : Prop :=
  ∀ p, found = some p → ReadUnrestricted i p w.trace

def InLogin (sid familyId : String) (w : SessionWorld) : Prop :=
  sid ∈ w.store.drawnIds ∧ ∀ s ∈ w.store.sessions, s.sessionId = sid → s.family = familyId

variable {rt} {i : Nat} {A : Type} {found : Option Session}

theorem Reads.push {w : SessionWorld} (reads : Reads i found w) (e : SessionEvent)
    (going : e.tid = i → e.label.isFind = false) : Reads i found (w.push e) :=
  fun p some => (reads p some).cons e going

theorem stable_reads : StableRestricted rt i (Reads i found) :=
  ⟨fun _ e _ reads other _ _ _ => reads.push e fun own => absurd own other,
    fun _ _ _ reads _ => reads⟩

theorem reads_none (w : SessionWorld) : Reads i none w := fun _ some => nomatch some

theorem stable_inLogin (sid familyId : String) : StableRestricted rt i (InLogin sid familyId) := by
  refine ⟨fun w e _ login _ before continues _ => ?_, fun w db _ login may => ?_⟩
  · refine ⟨continues.drawn sid (before ▸ login.1), fun s' mem own => ?_⟩
    obtain ⟨s, there, same⟩ := continues.same s' mem (by rw [own, before]; exact login.1)
    rw [← same.family]
    exact login.2 s (before ▸ there) (same.sessionId.trans own)
  · obtain ⟨-, sessions, drawnIds, -⟩ := may
    exact ⟨drawnIds ▸ login.1, fun s mem => login.2 s (sessions.subset mem)⟩

theorem PlainStep.not_find {label : SessionLabel} {act : SessionDb → SessionDb}
    (step : PlainStep label act) : label.isFind = false := by
  cases step <;> rfl

theorem keeps_plain {p : SessionProg A} (plain : p.Each PlainStep) :
    SafeRestricted rt i (fun _ => Reads i found) p (Reads i found) :=
  Safe.of_kept stable_reads (plain.mono fun _ _ step w inv reads _ =>
    ⟨inv.plain step i, (step.evolves w.store).continues, reads.push _ fun _ => step.not_find⟩)

theorem keeps_any {p : SessionProg A} {P : SessionWorld → Prop} (plain : p.Each PlainStep) :
    SafeRestricted rt i (fun _ _ => True) p P := by
  have kept : SafeRestricted rt i (fun _ => Reads i none) p (Reads i none) := keeps_plain plain
  exact (kept.weaken fun w _ _ => reads_none w).post fun _ _ _ => trivial

theorem keeps_setRestrictionForLogin (sessionId : String) (restriction : Option Restriction) :
    SafeRestricted rt i (fun _ _ => True) (setRestrictionForLogin sessionId restriction)
      fun _ => True := by
  have lookup : SafeRestricted rt i
      (fun session w => ∀ s, session = some s → InLogin sessionId s.family w)
      (look (SessionDb.findById sessionId)) fun _ => True := by
    refine Safe.update (fun session => ?_) fun w inv _ _ => ?_
    · exact .all fun s => .imp fun _ => stable_inLogin sessionId s.family
    · refine ⟨inv.plain .look i, (PlainStep.look.evolves w.store).continues, fun s found => ?_⟩
      have mem := List.mem_of_find?_eq_some found
      have id : s.sessionId = sessionId := by simpa using List.find?_some found
      refine ⟨id ▸ inv.drawn s mem, fun s' mem' own => ?_⟩
      rw [List.inj_on_of_nodup_map inv.unique mem' mem (own.trans id.symm)]
  refine lookup.bind fun session => ?_
  cases session with
  | none => exact fun _ _ _ => trivial
  | some session =>
      refine Safe.update (fun _ => ⟨fun _ _ _ h _ _ _ _ => h, fun _ _ _ h _ => h⟩)
        fun w inv login _ => ⟨inv.restrictLogin (login session rfl).2 i, ?_, trivial⟩
      exact (Evolves.updateMany (tame_restricted restriction) _ _).continues

theorem keeps_mfaEnrolled (portal : Portal) (actorId : String) (sessionId : Option String) :
    SafeRestricted rt i (fun _ _ => True) (mfaEnrolled portal actorId sessionId)
      fun _ => True := by
  have revoked : SafeRestricted rt i (fun _ _ => True)
      (revokeRestrictedForActor actorId "mfa_enrolled_elsewhere" >>= fun _ => pure true)
      fun _ => True :=
    (keeps_any (plain_revokeRestrictedForActor actorId _)).bind fun _ _ _ _ => trivial
  refine (keeps_any (plain_setMfaEnabled portal actorId true)).bind fun updated => ?_
  cases updated with
  | false => exact fun _ _ _ => trivial
  | true =>
      cases sessionId with
      | none => exact revoked
      | some sessionId => exact (keeps_setRestrictionForLogin sessionId none).bind fun _ => revoked

theorem keeps_find (hash : String) :
    SafeRestricted rt i
      (fun found w => ∀ p, found = some p → p.isActive = true → Reads i (some p) w)
      (findByRefreshTokenHash hash) fun _ => True := by
  refine Safe.update (fun found => ?_) fun w inv _ _ => ?_
  · exact .all fun p => .imp fun _ => .imp fun _ => stable_reads
  · have neutral : SessionLabel.Neutral (.find hash) := fun _ _ => ⟨rfl, rfl⟩
    refine ⟨inv.neutral (.of_sessions rfl rfl rfl) (.of_sessions rfl) neutral,
      (Evolves.of_sessions rfl rfl rfl).continues, fun p found active q same => ?_⟩
    obtain rfl := Option.some.inj same
    intro undisturbed unrestricted force
    rw [World.push_trace, Undisturbed, Bool.and_eq_true] at undisturbed
    rw [World.push_trace, inForce_neutral neutral] at force
    have restricted := inv.kept undisturbed.2 p (List.mem_of_find?_eq_some found) active force
    rw [unrestricted] at restricted
    exact nomatch restricted

theorem keeps_create {draw : Draw} {p : Session} {restriction : Option Restriction} :
    SafeRestricted rt i (fun _ _ => True) (create rt draw (successorOf p restriction))
      (Reads i (some p)) := by
  unfold create
  split
  · exact fun _ _ _ => trivial
  · refine (keeps_plain plain_look).bind fun now => ?_
    refine Safe.update (fun _ => ⟨fun _ _ _ h _ _ _ _ => h, fun _ _ _ h _ => h⟩)
      fun w inv reads fresh => ?_
    have family : ((successorOf p restriction).document rt draw now).family = p.family := rfl
    refine ⟨inv.create rfl rfl rfl fresh.1 rfl fun undisturbed unrestricted force => ?_, ?_, trivial⟩
    · have unread : p.restriction = none := by
        have both : restriction.or p.restriction = none := unrestricted
        exact (Option.or_eq_none_iff.mp both).2
      rw [family] at force ⊢
      exact reads p rfl undisturbed unread force
    · refine ⟨fun id mem => List.mem_cons_of_mem _ mem, fun s mem drawn => ?_⟩
      rcases List.mem_cons.mp mem with rfl | mem
      · exact absurd drawn fresh.1
      · exact ⟨s, mem, .refl s⟩

theorem keeps_markRotated {p n : Session} :
    SafeRestricted rt i (fun _ _ => True) (markRotated p n) fun _ => True := by
  refine (keeps_any plain_look).bind fun now => ?_
  refine Safe.update (fun _ => ⟨fun _ _ _ h _ _ _ _ => h, fun _ _ _ h _ => h⟩) fun w inv _ _ => ?_
  have evolves := Evolves.updateOne (tame_rotated now n.sessionId) (activeWith p.sessionId) w.store
  exact ⟨inv.neutral evolves (.updateOne (fun _ => rfl) _ _) fun _ _ => ⟨rfl, rfl⟩,
    evolves.continues, trivial⟩

theorem keeps_rotate {draw : Draw} {p : Session} {restriction : Option Restriction} :
    SafeRestricted rt i (fun _ _ => True) (rotate rt draw p restriction) (Reads i (some p)) := by
  unfold rotate
  split
  · exact fun _ _ _ => trivial
  · refine keeps_create.andThen (fun next => ?_) fun _ _ _ _ => trivial
    refine keeps_markRotated.bind fun claimed => ?_
    cases claimed with
    | true => exact fun _ _ _ => trivial
    | false => exact (keeps_any (plain_revokeSession next.sessionId _)).bind fun _ _ _ _ => trivial

theorem keeps_deliver {n : Session} {result : AuthResult} :
    SafeRestricted rt i (fun _ _ => True) (deliver n result) fun _ => True := by
  refine Safe.update (fun _ => ⟨fun _ _ _ h _ _ _ _ => h, fun _ _ _ h _ => h⟩) fun w inv _ _ => ?_
  have evolves : Evolves w.store
      { w.store with handedOut := n.refreshTokenHash :: w.store.handedOut } :=
    .of_sessions rfl rfl rfl
  exact ⟨inv.neutral evolves (.of_sessions rfl) fun _ _ => ⟨rfl, rfl⟩, evolves.continues, trivial⟩

theorem keeps_rotateAndDeliver {request : RefreshRequest} {account : Account} {p : Session} :
    SafeRestricted rt i (fun _ _ => True) (rotateAndDeliver rt request account p)
      (Reads i (some p)) := by
  refine (keeps_plain (plain_tightens p.portal account p)).bind fun tighten => ?_
  refine keeps_rotate.andThen (fun next => ?_) fun _ _ _ _ => trivial
  cases next with
  | some next => exact keeps_deliver
  | none =>
      refine (keeps_any plain_look).bind fun predecessor => ?_
      refine (keeps_any (plain_liveSuccessorOf predecessor none)).bind fun successor => ?_
      cases successor with
      | none => exact fun _ _ _ => trivial
      | some successor => exact fun _ _ _ => trivial

/-- A part of a refresh that answers with a refusal. -/
theorem keeps_refused {p : SessionProg A} {error : SessionError} {P : SessionWorld → Prop}
    (plain : p.Each PlainStep) :
    SafeRestricted rt i (fun _ _ => True)
      (p >>= fun _ => pure (Except.error error : Except SessionError AuthResult)) P :=
  (keeps_any plain).bind fun _ _ _ _ => trivial

theorem keeps_refreshAccount {request : RefreshRequest} {p : Session} {joined : Option Session} :
    SafeRestricted rt i (fun _ _ => True) (refreshAccount rt request p joined)
      fun w => joined = none → Reads i (some p) w := by
  have known (w : SessionWorld) : RestrictedInv w → (joined = none → Reads i (some p) w) →
      Reads i (if joined = none then some p else none) w := fun _ reads => by
    split
    · exact reads ‹_›
    · exact reads_none w
  unfold refreshAccount
  refine ((keeps_plain plain_look).weaken known).bind fun account => ?_
  cases account with
  | none => exact keeps_refused (plain_revokeAllForActor ..)
  | some account =>
      by_cases inactive : account.status ≠ .active
      · simp only [if_pos inactive]
        exact keeps_refused (plain_revokeAllForActor ..)
      · simp only [if_neg inactive]
        refine (keeps_plain plain_look).bind fun active => ?_
        cases active with
        | false => exact keeps_refused (plain_revokeAllForActor ..)
        | true =>
            cases joined with
            | none => exact keeps_rotateAndDeliver
            | some successor => exact fun _ _ _ => trivial

theorem keeps_refreshCurrent {request : RefreshRequest} {p : Session} {joined : Option Session} :
    SafeRestricted rt i (fun _ _ => True) (refreshCurrent rt request p joined)
      fun w => joined = none → Reads i (some p) w := by
  have looked {B : Type} {f : SessionDb → B} : SafeRestricted rt i
      (fun _ w => joined = none → Reads i (some p) w) (look f)
      fun w => joined = none → Reads i (some p) w :=
    Safe.of_kept (.imp fun _ => stable_reads) (Prog.Each.read fun w inv reads _ =>
      ⟨inv.plain .look i, (PlainStep.look.evolves w.store).continues,
        fun none => (reads none).push _ fun _ => rfl⟩)
  unfold refreshCurrent
  refine looked.bind fun now => ?_
  by_cases expired : (joined.getD p).expiresAt ≤ now
  · simp only [if_pos expired]
    exact keeps_refused (plain_markExpired _)
  · simp only [if_neg expired]
    refine looked.bind fun now => ?_
    by_cases past : isPastAbsoluteLifetime rt (joined.getD p) now = true
    · simp only [if_pos past]
      exact keeps_refused (plain_markExpired _)
    · simp only [if_neg past]
      exact keeps_refreshAccount

theorem keeps_refresh {request : RefreshRequest} :
    SafeRestricted rt i (fun _ _ => True) (refresh rt request) fun _ => True := by
  unfold refresh
  split
  · exact fun _ _ _ => trivial
  · refine (keeps_find _).bind fun found => ?_
    cases found with
    | none => exact fun _ _ _ => trivial
    | some p =>
        dsimp only
        split
        · exact fun _ _ _ => trivial
        · split
          · rename_i active
            exact keeps_refreshCurrent.weaken fun w _ reads _ => reads p rfl active
          · refine (keeps_any (plain_liveSuccessorOf (some p) _)).bind fun joined => ?_
            cases joined with
            | none => exact keeps_refused (plain_revokeAllForActor ..)
            | some joined => exact keeps_refreshCurrent.weaken fun w _ _ none => nomatch none

theorem keeps_request {request : SessionRequest} (admitted : afterLogin request) :
    SafeRestricted rt i (fun _ _ => True)
      (request.program rt >>= fun answer => pure (request, answer)) fun _ => True := by
  have answer {B : Type} {p : SessionProg B} {answer : B → SessionAnswer}
      (safe : SafeRestricted rt i (fun _ _ => True) p fun _ => True) :
      SafeRestricted rt i (fun _ _ => True)
        ((p >>= fun b => pure (answer b)) >>= fun given => pure (request, given)) fun _ => True := by
    have answered : SafeRestricted rt i (fun _ _ => True) (p >>= fun b => pure (answer b))
        fun _ => True := safe.bind fun _ _ _ _ => trivial
    exact answered.bind fun _ _ _ _ => trivial
  cases request with
  | login => exact admitted.elim
  | support => exact admitted.elim
  | refresh request => exact answer keeps_refresh
  | revoke sessionId reason => exact answer (keeps_any (plain_revokeSession sessionId reason))
  | revokeAllForActor actorId reason =>
      exact answer (keeps_any (plain_revokeAllForActor actorId reason))
  | restrictAllForActor actorId restriction =>
      exact answer (keeps_any (plain_restrictAllForActor actorId restriction))
  | setRestrictionForLogin sessionId restriction =>
      exact answer (keeps_setRestrictionForLogin sessionId restriction)
  | mfaDisabled portal actorId => exact answer (keeps_any (plain_mfaDisabled portal actorId))
  | mfaEnrolled portal actorId sessionId =>
      exact answer (keeps_mfaEnrolled portal actorId sessionId)

end Programs

/-! ## Runs -/

/-- A store in which every session has its own id and carries its family. -/
structure SessionsPlaced (db : SessionDb) : Prop where
  drawn : ∀ s ∈ db.sessions, s.sessionId ∈ db.drawnIds
  unique : (db.sessions.map Session.sessionId).Nodup
  placed : ∀ s ∈ db.sessions, s.familyId = some s.family

/-- Where no refresh writes an unrestricted successor after a restriction that it has not seen, an
active session is restricted while a restriction of its actor or its login is in force. -/
theorem restriction_survives_rotation (rt : SessionRuntime) (s₀ : SessionDb)
    (placed : SessionsPlaced s₀)
    (c : Config Nat SessionLabel SessionDb (SessionRequest × SessionAnswer))
    (reach : (sessionSystem rt afterLogin).Reach s₀ c)
    (undisturbed : Undisturbed c.world.trace = true) :
    ∀ s ∈ c.world.store.sessions, s.isActive = true →
      inForce s.actorId s.family c.world.trace = true → s.restriction.isSome = true := by
  have rule : Discipline (sessionSystem rt afterLogin) RestrictedInv Continues
      (fun _ _ _ => True) s₀ :=
    { init := ⟨placed.drawn, placed.unique, placed.placed, fun _ _ _ _ force => nomatch force⟩
      env := fun _ _ inv may => inv.env may.2.1 may.2.2.1
      start := fun i p may => by
        obtain ⟨request, admitted, rfl⟩ := may
        exact ⟨fun _ => True, ⟨fun _ _ _ h _ _ _ _ => h, fun _ _ _ h _ => h⟩, fun _ _ _ => trivial,
          keeps_request admitted⟩ }
  exact (reach.sound rule).inv.kept undisturbed

namespace StaleRestriction
open TwoTabs

def session : Session where
  sessionId := "ses_1"
  actorId := "usr_1"
  actorType := .user
  tenantId := some "ten_1"
  impersonatedBy := none
  refreshTokenHash := "$argon2id$token-1"
  issuedAt := 1700000000000
  authenticatedAt := some 1700000000000
  familyId := some "ses_1"
  lastUsedAt := 1700000000000
  expiresAt := 1702592000000
  status := .active
  revokedAt := none
  revokedReason := none
  replacedBy := none
  restriction := none
  stepUpAt := none

def signedIn : SessionDb :=
  { store with
    clock := 1700000600000, sessions := [session], drawnIds := ["ses_1"]
    drawnHashes := ["$argon2id$token-1"], handedOut := ["$argon2id$token-1"] }

def refreshing : SessionRequest := .refresh (tab ⟨"ses_2", "token-2"⟩)

/-- The user turns the second factor off, which the policy of the workspace requires, while a
refresh is about to write its successor. -/
def overtakenMoves : Moves :=
  run 0 refreshing 6 ++ (run 1 (.mfaDisabled .user "usr_1") 3 ++ List.replicate 10 (.act 0))

def overtaken : Config Nat SessionLabel SessionDb (SessionRequest × SessionAnswer) :=
  overtakenMoves.foldl Config.move (.idle signedIn)

/-- The refresh comes after. -/
def later : Config Nat SessionLabel SessionDb (SessionRequest × SessionAnswer) :=
  (run 1 (.mfaDisabled .user "usr_1") 3 ++ run 0 refreshing 16).foldl Config.move (.idle signedIn)

theorem placed : SessionsPlaced signedIn := by
  refine ⟨fun s mem => ?_, by decide, fun s mem => ?_⟩
  · obtain rfl := List.mem_singleton.mp mem
    decide
  · obtain rfl := List.mem_singleton.mp mem
    rfl

end StaleRestriction

open StaleRestriction TwoTabs in
/-- A refresh after the restriction writes a restricted successor. -/
theorem restriction_survives_rotation_later :
    (sessionSystem runtime afterLogin).Reach signedIn later ∧
    ∀ s ∈ later.world.store.sessions, s.isActive = true →
      inForce s.actorId s.family later.world.trace = true → s.restriction.isSome = true := by
  have reach : (sessionSystem runtime afterLogin).Reach signedIn later := by
    refine Reach.moves .init (LegalRun.append ⟨⟨rfl, .mfaDisabled .user "usr_1", trivial, rfl⟩, ?_⟩
      ⟨⟨?_, refreshing, trivial, rfl⟩, ?_⟩)
    all_goals decide +kernel
  exact ⟨reach, restriction_survives_rotation runtime signedIn placed later reach (by decide +kernel)⟩

open StaleRestriction TwoTabs in
/-- A refresh that has read its session before the restriction writes an unrestricted successor
after it. -/
theorem stale_successor_unrestricted :
    ¬ ∀ (rt : SessionRuntime) (s₀ : SessionDb), SessionsPlaced s₀ →
      ∀ c : Config Nat SessionLabel SessionDb (SessionRequest × SessionAnswer),
        (sessionSystem rt afterLogin).Reach s₀ c →
      ∀ s ∈ c.world.store.sessions, s.isActive = true →
        inForce s.actorId s.family c.world.trace = true → s.restriction.isSome = true := by
  intro all
  have reach : (sessionSystem runtime afterLogin).Reach signedIn overtaken := by
    refine Reach.moves .init (LegalRun.append ⟨⟨rfl, refreshing, trivial, rfl⟩, ?_⟩
      (LegalRun.append ⟨⟨?_, .mfaDisabled .user "usr_1", trivial, rfl⟩, ?_⟩ ?_))
    all_goals decide +kernel
  have escaped : ¬ ∀ s ∈ overtaken.world.store.sessions, s.isActive = true →
      inForce s.actorId s.family overtaken.world.trace = true → s.restriction.isSome = true := by
    decide +kernel
  exact escaped (all runtime signedIn placed overtaken reach)

end AnalyticsBackend.Auth
