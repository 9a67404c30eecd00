import AnalyticsBackend.Auth.Session

/-!
# A session is rotated once, and a mass revocation is final

Which sessions a client can hold is read off the trace: the session of a login, and the successor
of a rotation whose `markRotated` found its session active. A rotation claims its successor only
while the session it replaces is active, so once a mass revocation has ended the claimed sessions
of an actor, none of their families gets a claimed session again.
-/

namespace AnalyticsBackend.Auth
open Lib System Collection

abbrev SessionTrace := List SessionEvent

/-! ## What the updates leave alone -/

/-- Two versions of one session: what no update changes. -/
structure SameLogin (s s' : Session) : Prop where
  sessionId : s.sessionId = s'.sessionId
  actorId : s.actorId = s'.actorId
  familyId : s.familyId = s'.familyId
  refreshTokenHash : s.refreshTokenHash = s'.refreshTokenHash
  issuedAt : s.issuedAt = s'.issuedAt
  authenticatedAt : s.authenticatedAt = s'.authenticatedAt
  expiresAt : s.expiresAt = s'.expiresAt

namespace SameLogin

variable {s s' s'' : Session}

theorem refl (s : Session) : SameLogin s s := ⟨rfl, rfl, rfl, rfl, rfl, rfl, rfl⟩

theorem trans (h : SameLogin s s') (h' : SameLogin s' s'') : SameLogin s s'' where
  sessionId := h.sessionId.trans h'.sessionId
  actorId := h.actorId.trans h'.actorId
  familyId := h.familyId.trans h'.familyId
  refreshTokenHash := h.refreshTokenHash.trans h'.refreshTokenHash
  issuedAt := h.issuedAt.trans h'.issuedAt
  authenticatedAt := h.authenticatedAt.trans h'.authenticatedAt
  expiresAt := h.expiresAt.trans h'.expiresAt

theorem family (h : SameLogin s s') : s.family = s'.family := by
  rw [Session.family, Session.family, h.familyId, h.sessionId]

theorem signedInAt (h : SameLogin s s') : familyAuthenticatedAt s = familyAuthenticatedAt s' := by
  rw [familyAuthenticatedAt, familyAuthenticatedAt, h.authenticatedAt, h.issuedAt]

end SameLogin

/-- An update that keeps the login and activates nothing. -/
structure Tame (f : Session → Session) : Prop where
  same : ∀ s, SameLogin s (f s)
  ends : ∀ s, (f s).isActive = true → s.isActive = true

/-- Sessions after a step that adds none: each was there, and was active if it is. -/
structure Evolves (db db' : SessionDb) : Prop where
  drawnIds : db'.drawnIds = db.drawnIds
  drawnHashes : db'.drawnHashes = db.drawnHashes
  ids : (db'.sessions.map Session.sessionId).Sublist (db.sessions.map Session.sessionId)
  kept : ∀ s' ∈ db'.sessions, ∃ s ∈ db.sessions, SameLogin s s' ∧
    (s'.isActive = true → s.isActive = true)

theorem Evolves.of_sessions {db db' : SessionDb} (sessions : db'.sessions = db.sessions)
    (drawnIds : db'.drawnIds = db.drawnIds) (drawnHashes : db'.drawnHashes = db.drawnHashes) :
    Evolves db db' where
  drawnIds := drawnIds
  drawnHashes := drawnHashes
  ids := by rw [sessions]
  kept := fun s mem => ⟨s, sessions ▸ mem, .refl s, id⟩

theorem Evolves.updateOne {f : Session → Session} (tame : Tame f) (p : Session → Bool)
    (db : SessionDb) : Evolves db (db.updateOne p f) where
  drawnIds := rfl
  drawnHashes := rfl
  ids := by
    have keys : (updateFirst p f db.sessions).map Session.sessionId =
        db.sessions.map Session.sessionId :=
      map_updateFirst (fun s => (tame.same s).sessionId.symm) _
    rw [SessionDb.updateOne, keys]
  kept := fun s' mem => by
    rcases of_mem_updateFirst mem with earlier | ⟨s, earlier, -, rfl⟩
    · exact ⟨s', earlier, .refl s', id⟩
    · exact ⟨s, earlier, tame.same s, tame.ends s⟩

theorem Evolves.updateMany {f : Session → Session} (tame : Tame f) (p : Session → Bool)
    (db : SessionDb) : Evolves db (db.updateMany p f) where
  drawnIds := rfl
  drawnHashes := rfl
  ids := by
    have keys : (Session.sessionId ∘ fun s => if p s then f s else s) = Session.sessionId := by
      funext s
      by_cases matched : p s = true
      · simp [matched, (tame.same s).sessionId]
      · simp [matched]
    rw [SessionDb.updateMany, List.map_map, keys]
  kept := fun s' mem => by
    obtain ⟨s, earlier, rfl⟩ := List.mem_map.mp mem
    by_cases matched : p s = true
    · simp only [matched, if_true]
      exact ⟨s, earlier, tame.same s, tame.ends s⟩
    · simp only [matched]
      exact ⟨s, earlier, .refl s, id⟩

theorem mem_updateMany {p : Session → Bool} {f : Session → Session} {db : SessionDb} {s' : Session}
    (mem : s' ∈ (db.updateMany p f).sessions) :
    (∃ s ∈ db.sessions, p s = true ∧ s' = f s) ∨ s' ∈ db.sessions ∧ p s' = false := by
  obtain ⟨s, earlier, rfl⟩ := List.mem_map.mp mem
  by_cases matched : p s = true
  · exact .inl ⟨s, earlier, matched, by simp [matched]⟩
  · simp only [matched]
    exact .inr ⟨earlier, by simpa using matched⟩

theorem tame_ended (now : Int) (reason : Option String) : Tame (·.ended now reason) :=
  ⟨fun _ => ⟨rfl, rfl, rfl, rfl, rfl, rfl, rfl⟩, fun s active => by
    simp [Session.isActive, Session.ended] at active⟩

theorem tame_rotated (now : Int) (successorId : String) : Tame (·.rotated now successorId) :=
  ⟨fun _ => ⟨rfl, rfl, rfl, rfl, rfl, rfl, rfl⟩, fun s active => by
    simp [Session.isActive, Session.rotated, Session.ended] at active⟩

theorem tame_expired : Tame fun s => { s with status := .expired } :=
  ⟨fun _ => ⟨rfl, rfl, rfl, rfl, rfl, rfl, rfl⟩, fun s active => by
    simp [Session.isActive] at active⟩

theorem tame_restricted (restriction : Option Restriction) : Tame fun s => { s with restriction } :=
  ⟨fun _ => ⟨rfl, rfl, rfl, rfl, rfl, rfl, rfl⟩, fun _ active => active⟩

/-! ## The steps that neither open nor rotate a session -/

/-- The atomic steps of everything but `find`, `create`, `markRotated`, `deliver` and
`setRestrictionForLogin`. -/
inductive PlainStep : SessionLabel → (SessionDb → SessionDb) → Prop
  | look : PlainStep .look id
  | account (portal : Portal) (actorId : String) (act : SessionDb → SessionDb)
      (elsewhere : ∀ db, (act db).sessions = db.sessions ∧ (act db).drawnIds = db.drawnIds ∧
        (act db).drawnHashes = db.drawnHashes ∧ (act db).handedOut = db.handedOut) :
      PlainStep (.account portal actorId) act
  | revoke (sessionId : String) (now : Int) (reason : Option String) :
      PlainStep (.revoke sessionId)
        (SessionDb.updateOne (activeWith sessionId) (·.ended now reason))
  | markExpired (sessionId : String) :
      PlainStep (.markExpired sessionId)
        (SessionDb.updateOne (activeWith sessionId) fun s => { s with status := .expired })
  | revokeAll (actorId : String) (now : Int) (reason : String) :
      PlainStep (.revokeAll actorId)
        (SessionDb.updateMany (activeOf actorId) (·.ended now (some reason)))
  | restrictAll (actorId : String) (restriction : Option Restriction) :
      PlainStep (.restrictAll actorId restriction)
        (SessionDb.updateMany (activeOf actorId) fun s => { s with restriction })
  | revokeRestricted (actorId : String) (now : Int) (reason : String) :
      PlainStep (.revokeRestricted actorId)
        (SessionDb.updateMany (fun s => activeOf actorId s && s.restriction.isSome)
          (·.ended now (some reason)))

section Plain

variable {label : SessionLabel} {act : SessionDb → SessionDb}

theorem PlainStep.evolves (step : PlainStep label act) (db : SessionDb) : Evolves db (act db) := by
  cases step with
  | look => exact .of_sessions rfl rfl rfl
  | account _ _ _ elsewhere =>
      exact .of_sessions (elsewhere db).1 (elsewhere db).2.1 (elsewhere db).2.2.1
  | revoke _ now reason => exact .updateOne (tame_ended now reason) _ db
  | markExpired => exact .updateOne tame_expired _ db
  | revokeAll _ now reason => exact .updateMany (tame_ended now _) _ db
  | restrictAll _ restriction => exact .updateMany (tame_restricted restriction) _ db
  | revokeRestricted _ now reason => exact .updateMany (tame_ended now _) _ db

theorem PlainStep.handedOut (step : PlainStep label act) (db : SessionDb) :
    (act db).handedOut = db.handedOut := by
  cases step with
  | account _ _ _ elsewhere => exact (elsewhere db).2.2.2
  | _ => rfl

theorem PlainStep.revokesAll {actorId : String} (step : PlainStep (.revokeAll actorId) act)
    (db : SessionDb) : ∀ s ∈ (act db).sessions, s.actorId = actorId → s.isActive = false := by
  cases step with
  | revokeAll _ now reason =>
      intro s mem own
      rcases mem_updateMany mem with ⟨s, -, -, rfl⟩ | ⟨-, unmatched⟩
      · rfl
      · simpa [activeOf, own] using unmatched

variable {A : Type}

theorem plain_look {f : SessionDb → A} : (look f).Each PlainStep := Prog.Each.read .look

theorem plain_revokeSession (sessionId : String) (reason : Option String) :
    (revokeSession sessionId reason).Each PlainStep :=
  plain_look.bind fun now => .update (.revoke sessionId now reason)

theorem plain_markExpired (sessionId : String) : (markExpired sessionId).Each PlainStep :=
  .update (.markExpired sessionId)

theorem plain_revokeAllForActor (actorId reason : String) :
    (revokeAllForActor actorId reason).Each PlainStep :=
  plain_look.bind fun now => .update (.revokeAll actorId now reason)

theorem plain_restrictAllForActor (actorId : String) (restriction : Option Restriction) :
    (restrictAllForActor actorId restriction).Each PlainStep :=
  .update (.restrictAll actorId restriction)

theorem plain_revokeRestrictedForActor (actorId reason : String) :
    (revokeRestrictedForActor actorId reason).Each PlainStep :=
  plain_look.bind fun now => .update (.revokeRestricted actorId now reason)

theorem plain_setMfaEnabled (portal : Portal) (actorId : String) (enabled : Bool) :
    (setMfaEnabled portal actorId enabled).Each PlainStep := by
  refine .update (.account portal actorId _ fun db => ?_)
  by_cases writes : (db.accounts portal actorId).any (writesMfa portal enabled) = true
  · simp [writes]
  · simp [writes]

theorem plain_mfaDisabled (portal : Portal) (actorId : String) :
    (mfaDisabled portal actorId).Each PlainStep := by
  refine (plain_setMfaEnabled portal actorId false).bind fun updated => ?_
  cases updated with
  | false => trivial
  | true =>
      refine plain_look.bind fun required => ?_
      cases required with
      | false => trivial
      | true => exact (plain_restrictAllForActor actorId _).bind fun _ => trivial

theorem plain_liveSuccessorOf (predecessor : Option Session) (withinMs : Option Int) :
    (liveSuccessorOf predecessor withinMs).Each PlainStep := by
  unfold liveSuccessorOf
  split
  · trivial
  · split
    · refine plain_look.bind fun now => ?_
      split
      · trivial
      · refine plain_look.bind fun successor => ?_
        cases successor with
        | none => trivial
        | some successor =>
            refine plain_look.bind fun now => ?_
            split <;> trivial
    · trivial

theorem plain_tightens (portal : Portal) (account : Account) (session : Session) :
    (tightens portal account session).Each PlainStep := by
  unfold tightens
  split
  · exact plain_look.bind fun _ => trivial
  · trivial

end Plain

/-! ## What the trace says of the sessions -/

/-- A session was opened. -/
def Created (trace : SessionTrace) (n : Session) : Prop := ∃ e ∈ trace, e.label = .create n

/-- A step that ends an active session in favour of its successor. -/
def Rotates (e : SessionEvent) (p n : Session) : Prop :=
  e.label = .markRotated p n ∧ ∃ s ∈ e.before.sessions, activeWith p.sessionId s = true

/-- A step that makes a session one whose token its client gets: a login, or a rotation. -/
def Claims (e : SessionEvent) (n : Session) : Prop :=
  e.label = .create n ∧ n.familyId = some n.sessionId ∨ ∃ p, Rotates e p n

def Claimed (trace : SessionTrace) (n : Session) : Prop := ∃ e ∈ trace, Claims e n

/-- The actor of a session was logged out everywhere after the login of the session. -/
def MassRevoked : SessionTrace → Session → Prop
  | [], _ => False
  | e :: earlier, s =>
      (e.label = .revokeAll s.actorId ∧ ∃ l, Created earlier l ∧ l.sessionId = s.family) ∨
        MassRevoked earlier s

/-- No rotation claims a successor whose login was revoked. -/
def RotationsLive : SessionTrace → Prop
  | [] => True
  | e :: earlier => RotationsLive earlier ∧ ∀ p n, Rotates e p n → ¬ MassRevoked earlier n

section Trace

variable {trace : SessionTrace} {e : SessionEvent} {n p s s' : Session}

theorem Created.cons (created : Created trace n) (e : SessionEvent) : Created (e :: trace) n := by
  obtain ⟨e', mem, label⟩ := created
  exact ⟨e', List.mem_cons_of_mem _ mem, label⟩

theorem Claimed.cons (claimed : Claimed trace n) (e : SessionEvent) : Claimed (e :: trace) n := by
  obtain ⟨e', mem, claims⟩ := claimed
  exact ⟨e', List.mem_cons_of_mem _ mem, claims⟩

theorem Created.of_cons (created : Created (e :: trace) n) (other : e.label ≠ .create n) :
    Created trace n := by
  obtain ⟨e', mem, label⟩ := created
  rcases List.mem_cons.mp mem with rfl | mem
  · exact absurd label other
  · exact ⟨e', mem, label⟩

theorem Claimed.of_cons (claimed : Claimed (e :: trace) n) : Claims e n ∨ Claimed trace n := by
  obtain ⟨e', mem, claims⟩ := claimed
  rcases List.mem_cons.mp mem with rfl | mem
  · exact .inl claims
  · exact .inr ⟨e', mem, claims⟩

theorem MassRevoked.congr (revoked : MassRevoked trace s) (actorId : s.actorId = s'.actorId)
    (family : s.family = s'.family) : MassRevoked trace s' := by
  induction trace with
  | nil => exact revoked
  | cons e earlier ih =>
      rcases revoked with ⟨all, l, created, root⟩ | revoked
      · exact .inl ⟨actorId ▸ all, l, created, root.trans family⟩
      · exact .inr (ih revoked)

theorem MassRevoked.append (revoked : MassRevoked trace s) (later : SessionTrace) :
    MassRevoked (later ++ trace) s := by
  induction later with
  | nil => exact revoked
  | cons e later ih => exact .inr ih

theorem MassRevoked.login (revoked : MassRevoked trace s) :
    ∃ l, Created trace l ∧ l.sessionId = s.family := by
  induction trace with
  | nil => exact revoked.elim
  | cons e earlier ih =>
      rcases revoked with ⟨-, l, created, root⟩ | revoked
      · exact ⟨l, created.cons e, root⟩
      · obtain ⟨l, created, root⟩ := ih revoked
        exact ⟨l, created.cons e, root⟩

theorem RotationsLive.not_revoked {later earlier : SessionTrace}
    (live : RotationsLive (later ++ earlier)) (mem : e ∈ later) (rotates : Rotates e p n) :
    ¬ MassRevoked earlier n := by
  induction later with
  | nil => exact nomatch mem
  | cons e' later ih =>
      rcases List.mem_cons.mp mem with rfl | mem
      · exact fun revoked => live.2 p n rotates (revoked.append later)
      · exact ih live.1 mem

end Trace

/-! ## The invariant -/

/-- Ids and token hashes are those of one session each; a session is at its login's end; a token
that was handed out is that of a claimed session; a rotated session stays ended, and a claimed
one whose login was revoked is not active. -/
structure RotationInv (rt : SessionRuntime) (w : SessionWorld) : Prop where
  origin : ∀ s ∈ w.store.sessions, ∃ n, Created w.trace n ∧ SameLogin n s
  unique : (w.store.sessions.map Session.sessionId).Nodup
  drawn : ∀ n, Created w.trace n →
    n.sessionId ∈ w.store.drawnIds ∧ n.refreshTokenHash ∈ w.store.drawnHashes
  distinct : ∀ n n', Created w.trace n → Created w.trace n' →
    n.sessionId = n'.sessionId ∨ n.refreshTokenHash = n'.refreshTokenHash → n = n'
  rooted : ∀ n, Created w.trace n → ∃ l, Created w.trace l ∧ l.familyId = some l.sessionId ∧
    n.family = l.sessionId ∧ familyAuthenticatedAt n = familyAuthenticatedAt l ∧
    n.expiresAt ≤ absoluteExpiryFor rt (familyAuthenticatedAt n)
  handed : ∀ hash ∈ w.store.handedOut, ∃ n, Claimed w.trace n ∧ n.refreshTokenHash = hash
  delivered : ∀ e ∈ w.trace, ∀ n, e.label = .deliver n → Claimed w.trace n
  sound : ∀ e ∈ w.trace, ∀ p n, Rotates e p n → Created w.trace n ∧
    ∃ q, Claimed w.trace q ∧ SameLogin q p
  spent : ∀ e ∈ w.trace, ∀ p n, Rotates e p n →
    ∀ s ∈ w.store.sessions, s.sessionId = p.sessionId → s.isActive = false
  once : ∀ e ∈ w.trace, ∀ e' ∈ w.trace, ∀ p n p' n', Rotates e p n → Rotates e' p' n' →
    p.sessionId = p'.sessionId → e.tid = e'.tid
  final : ∀ s ∈ w.store.sessions, s.isActive = true → MassRevoked w.trace s →
    ∀ n, Claimed w.trace n → n.sessionId ≠ s.sessionId
  live : RotationsLive w.trace

namespace RotationInv

variable {rt : SessionRuntime} {w : SessionWorld} {e : SessionEvent} {n p s : Session}

theorem created (inv : RotationInv rt w) (claimed : Claimed w.trace n) : Created w.trace n := by
  obtain ⟨e, mem, claims⟩ := claimed
  rcases claims with ⟨label, -⟩ | ⟨p, rotates⟩
  · exact ⟨e, mem, label⟩
  · exact (inv.sound e mem p n rotates).1

theorem same_of_id (inv : RotationInv rt w) (created : Created w.trace n)
    (mem : s ∈ w.store.sessions) (id : n.sessionId = s.sessionId) : SameLogin n s := by
  obtain ⟨n', created', same⟩ := inv.origin s mem
  rw [inv.distinct n n' created created' (.inl (id.trans same.sessionId.symm))]
  exact same

theorem quiet (inv : RotationInv rt w) (before : e.before = w.store)
    (evolves : Evolves w.store e.after) (opens : ∀ n, e.label ≠ .create n)
    (rotates : ∀ p n, ¬ Rotates e p n)
    (handed : ∀ hash ∈ e.after.handedOut, hash ∈ w.store.handedOut ∨
      ∃ n, Claimed w.trace n ∧ n.refreshTokenHash = hash)
    (delivers : ∀ n, e.label = .deliver n → Claimed w.trace n)
    (all : ∀ actorId, e.label = .revokeAll actorId →
      ∀ s ∈ e.after.sessions, s.actorId = actorId → s.isActive = false) :
    RotationInv rt (w.push e) := by
  have created {n : Session} (h : Created (e :: w.trace) n) : Created w.trace n :=
    h.of_cons (opens n)
  have claimed {n : Session} (h : Claimed (e :: w.trace) n) : Claimed w.trace n := by
    rcases h.of_cons with (⟨label, -⟩ | ⟨p, rotated⟩) | earlier
    · exact absurd label (opens n)
    · exact absurd rotated (rotates p n)
    · exact earlier
  have earlier {e' : SessionEvent} {p n : Session} (mem : e' ∈ e :: w.trace)
      (rotated : Rotates e' p n) : e' ∈ w.trace := by
    rcases List.mem_cons.mp mem with rfl | mem
    · exact absurd rotated (rotates p n)
    · exact mem
  refine
    { origin := fun s' mem => ?_
      unique := evolves.ids.nodup inv.unique
      drawn := fun n h => ?_
      distinct := fun n n' h h' => inv.distinct n n' (created h) (created h')
      rooted := fun n h => ?_
      handed := fun hash mem => ?_
      delivered := fun e' mem n label => ?_
      sound := fun e' mem p n rotated => ?_
      spent := fun e' mem p n rotated s' mem' id => ?_
      once := fun e₁ mem₁ e₂ mem₂ p n p' n' r₁ r₂ => inv.once e₁ (earlier mem₁ r₁) e₂
        (earlier mem₂ r₂) p n p' n' r₁ r₂
      final := fun s' mem active revoked n h => ?_
      live := ⟨inv.live, fun p n rotated => absurd rotated (rotates p n)⟩ }
  · obtain ⟨s, mem, same, -⟩ := evolves.kept s' mem
    obtain ⟨n, h, same'⟩ := inv.origin s mem
    exact ⟨n, h.cons e, same'.trans same⟩
  · rw [World.push_store, evolves.drawnIds, evolves.drawnHashes]
    exact inv.drawn n (created h)
  · obtain ⟨l, root, rest⟩ := inv.rooted n (created h)
    exact ⟨l, root.cons e, rest⟩
  · rcases handed hash mem with earlier | ⟨n, h, same⟩
    · obtain ⟨n, h, same⟩ := inv.handed hash earlier
      exact ⟨n, h.cons e, same⟩
    · exact ⟨n, h.cons e, same⟩
  · rcases List.mem_cons.mp mem with rfl | mem
    · exact (delivers n label).cons e'
    · exact (inv.delivered e' mem n label).cons e
  · obtain ⟨h, q, claimed, same⟩ := inv.sound e' (earlier mem rotated) p n rotated
    exact ⟨h.cons e, q, claimed.cons e, same⟩
  · obtain ⟨s, there, same, ends⟩ := evolves.kept s' mem'
    have ended := inv.spent e' (earlier mem rotated) p n rotated s there (same.sessionId.trans id)
    by_contra active
    rw [ends (by simpa using active)] at ended
    exact nomatch ended
  · obtain ⟨s, there, same, ends⟩ := evolves.kept s' mem
    rcases revoked with ⟨label, -⟩ | revoked
    · rw [all _ label s' mem rfl] at active
      exact nomatch active
    · rw [← same.sessionId]
      exact inv.final s there (ends active)
        (revoked.congr same.actorId.symm same.family.symm) n (claimed h)

theorem create (inv : RotationInv rt w) (label : e.label = .create n) (before : e.before = w.store)
    (after : e.after = w.store.insert n)
    (freshId : n.sessionId ∉ w.store.drawnIds) (freshHash : n.refreshTokenHash ∉ w.store.drawnHashes)
    (bound : n.expiresAt ≤ absoluteExpiryFor rt (familyAuthenticatedAt n))
    (family : n.familyId = some n.sessionId ∨ ∃ q, Created w.trace q ∧ n.family = q.family ∧
      familyAuthenticatedAt n = familyAuthenticatedAt q) :
    RotationInv rt (w.push e) := by
  have rotates (p m : Session) : ¬ Rotates e p m := fun h => by
    have other := label.symm.trans h.1
    exact nomatch other
  have split {m : Session} (h : Created (e :: w.trace) m) : m = n ∨ Created w.trace m := by
    by_cases same : e.label = .create m
    · rw [label, SessionLabel.create.injEq] at same
      exact .inl same.symm
    · exact .inr (h.of_cons same)
  have here : Created (e :: w.trace) n := ⟨e, List.mem_cons_self .., label⟩
  have other {m : Session} (h : Created w.trace m) : m.sessionId ≠ n.sessionId := fun same =>
    freshId (same ▸ (inv.drawn m h).1)
  have otherHash {m : Session} (h : Created w.trace m) :
      m.refreshTokenHash ≠ n.refreshTokenHash := fun same => freshHash (same ▸ (inv.drawn m h).2)
  have stored {s : Session} (mem : s ∈ w.store.sessions) : s.sessionId ≠ n.sessionId := fun same => by
    obtain ⟨m, h, login⟩ := inv.origin s mem
    exact other h (login.sessionId.trans same)
  have sessions : e.after.sessions = n :: w.store.sessions := by rw [after]; rfl
  have earlier {e' : SessionEvent} {p m : Session} (mem : e' ∈ e :: w.trace)
      (rotated : Rotates e' p m) : e' ∈ w.trace := by
    rcases List.mem_cons.mp mem with rfl | mem
    · exact absurd rotated (rotates p m)
    · exact mem
  have revokedEarlier {s : Session} (h : MassRevoked (e :: w.trace) s) : MassRevoked w.trace s := by
    rcases h with ⟨all, -⟩ | h
    · exact nomatch label.symm.trans all
    · exact h
  refine
    { origin := fun s mem => ?_
      unique := ?_
      drawn := fun m h => ?_
      distinct := fun m m' h h' same => ?_
      rooted := fun m h => ?_
      handed := fun hash mem => ?_
      delivered := fun e' mem m delivers => ?_
      sound := fun e' mem p m rotated => ?_
      spent := fun e' mem p m rotated s there id => ?_
      once := fun e₁ mem₁ e₂ mem₂ p m p' m' r₁ r₂ => inv.once e₁ (earlier mem₁ r₁) e₂
        (earlier mem₂ r₂) p m p' m' r₁ r₂
      final := fun s mem active revoked m claimed same => ?_
      live := ⟨inv.live, fun p m rotated => absurd rotated (rotates p m)⟩ }
  · rw [World.push_store, sessions] at mem
    rcases List.mem_cons.mp mem with rfl | mem
    · exact ⟨s, here, .refl s⟩
    · obtain ⟨m, h, same⟩ := inv.origin s mem
      exact ⟨m, h.cons e, same⟩
  · rw [World.push_store, sessions, List.map_cons, List.nodup_cons]
    refine ⟨fun mem => ?_, inv.unique⟩
    obtain ⟨s, there, same⟩ := List.mem_map.mp mem
    exact stored there same
  · rw [World.push_store, after]
    rcases split h with rfl | h
    · exact ⟨List.mem_cons_self .., List.mem_cons_self ..⟩
    · exact ⟨List.mem_cons_of_mem _ (inv.drawn m h).1, List.mem_cons_of_mem _ (inv.drawn m h).2⟩
  · rcases split h with rfl | h <;> rcases split h' with rfl | h'
    · rfl
    · rcases same with same | same
      · exact absurd same.symm (other h')
      · exact absurd same.symm (otherHash h')
    · rcases same with same | same
      · exact absurd same (other h)
      · exact absurd same (otherHash h)
    · exact inv.distinct m m' h h' same
  · rcases split h with rfl | h
    · rcases family with own | ⟨q, known, family, signedIn⟩
      · exact ⟨m, here, own, by rw [Session.family, own]; rfl, rfl, bound⟩
      · obtain ⟨l, root, login, familyOf, signedInAt, -⟩ := inv.rooted q known
        exact ⟨l, root.cons e, login, family.trans familyOf, signedIn.trans signedInAt, bound⟩
    · obtain ⟨l, root, rest⟩ := inv.rooted m h
      exact ⟨l, root.cons e, rest⟩
  · rw [World.push_store, after] at mem
    obtain ⟨m, claimed, same⟩ := inv.handed hash mem
    exact ⟨m, claimed.cons e, same⟩
  · rcases List.mem_cons.mp mem with rfl | mem
    · exact nomatch label.symm.trans delivers
    · exact (inv.delivered e' mem m delivers).cons e
  · obtain ⟨h, q, claimed, same⟩ := inv.sound e' (earlier mem rotated) p m rotated
    exact ⟨h.cons e, q, claimed.cons e, same⟩
  · rw [World.push_store, sessions] at there
    obtain ⟨-, q, claimed, same⟩ := inv.sound e' (earlier mem rotated) p m rotated
    rcases List.mem_cons.mp there with rfl | there
    · exact absurd (same.sessionId.trans id.symm) (other (inv.created claimed))
    · exact inv.spent e' (earlier mem rotated) p m rotated s there id
  · rw [World.push_store, sessions] at mem
    have revoked := revokedEarlier revoked
    rcases claimed.of_cons with (⟨opened, own⟩ | ⟨p, rotated⟩) | claimed
    · rw [label, SessionLabel.create.injEq] at opened
      subst opened
      obtain ⟨l, root, place⟩ := revoked.login
      rcases List.mem_cons.mp mem with rfl | mem
      · refine other root (place.trans ?_)
        rw [Session.family, own]; rfl
      · exact stored mem same.symm
    · exact absurd rotated (rotates p m)
    · rcases List.mem_cons.mp mem with rfl | mem
      · exact other (inv.created claimed) same
      · exact inv.final s mem active revoked m claimed same

theorem rotate (inv : RotationInv rt w) (before : e.before = w.store) (rotates : Rotates e p n)
    (evolves : Evolves w.store e.after) (handedOut : e.after.handedOut = w.store.handedOut)
    (ended : ∀ s ∈ e.after.sessions, s.sessionId = p.sessionId → s.isActive = false)
    (created : Created w.trace n) {q : Session} (claimed : Claimed w.trace q)
    (presented : SameLogin q p) (actorId : n.actorId = p.actorId) (family : n.family = p.family) :
    RotationInv rt (w.push e) := by
  obtain ⟨label, r, there, matched⟩ := rotates
  rw [before] at there
  simp only [activeWith, Bool.and_eq_true, decide_eq_true_eq] at matched
  obtain ⟨id, active⟩ := matched
  have login : SameLogin q r :=
    inv.same_of_id (inv.created claimed) there (presented.sessionId.trans id.symm)
  have live : ¬ MassRevoked w.trace n := fun revoked =>
    inv.final r there active
      (revoked.congr ((actorId.trans presented.actorId.symm).trans login.actorId)
        ((family.trans presented.family.symm).trans login.family))
      q claimed login.sessionId
  have opens (m : Session) : e.label ≠ .create m := fun h => nomatch label.symm.trans h
  have back {m : Session} (h : Created (e :: w.trace) m) : Created w.trace m := h.of_cons (opens m)
  have only {p' m : Session} (h : Rotates e p' m) : p' = p ∧ m = n := by
    have same := label.symm.trans h.1
    rw [SessionLabel.markRotated.injEq] at same
    exact ⟨same.1.symm, same.2.symm⟩
  have spentHere {e' : SessionEvent} (mem : e' ∈ w.trace) {p' m : Session}
      (h : Rotates e' p' m) : p'.sessionId ≠ p.sessionId := fun same => by
    rw [inv.spent e' mem p' m h r there (id.trans same.symm)] at active
    exact nomatch active
  refine
    { origin := fun s' mem => ?_
      unique := evolves.ids.nodup inv.unique
      drawn := fun m h => ?_
      distinct := fun m m' h h' => inv.distinct m m' (back h) (back h')
      rooted := fun m h => ?_
      handed := fun hash mem => ?_
      delivered := fun e' mem m delivers => ?_
      sound := fun e' mem p' m rotated => ?_
      spent := fun e' mem p' m rotated s' mem' same => ?_
      once := fun e₁ mem₁ e₂ mem₂ p₁ m₁ p₂ m₂ r₁ r₂ same => ?_
      final := fun s' mem active' revoked m h same => ?_
      live := ⟨inv.live, fun p' m rotated => (only rotated).2 ▸ live⟩ }
  · obtain ⟨s, mem, same, -⟩ := evolves.kept s' mem
    obtain ⟨m, h, same'⟩ := inv.origin s mem
    exact ⟨m, h.cons e, same'.trans same⟩
  · rw [World.push_store, evolves.drawnIds, evolves.drawnHashes]
    exact inv.drawn m (back h)
  · obtain ⟨l, root, rest⟩ := inv.rooted m (back h)
    exact ⟨l, root.cons e, rest⟩
  · rw [World.push_store, handedOut] at mem
    obtain ⟨m, h, same⟩ := inv.handed hash mem
    exact ⟨m, h.cons e, same⟩
  · rcases List.mem_cons.mp mem with rfl | mem
    · exact nomatch label.symm.trans delivers
    · exact (inv.delivered e' mem m delivers).cons e
  · rcases List.mem_cons.mp mem with rfl | mem
    · obtain ⟨rfl, rfl⟩ := only rotated
      exact ⟨created.cons e', q, claimed.cons e', presented⟩
    · obtain ⟨h, q', claimed', same⟩ := inv.sound e' mem p' m rotated
      exact ⟨h.cons e, q', claimed'.cons e, same⟩
  · rcases List.mem_cons.mp mem with rfl | mem
    · obtain ⟨rfl, rfl⟩ := only rotated
      exact ended s' mem' same
    · obtain ⟨s, before', login', ends⟩ := evolves.kept s' mem'
      have was := inv.spent e' mem p' m rotated s before' (login'.sessionId.trans same)
      by_contra active'
      rw [ends (by simpa using active')] at was
      exact nomatch was
  · rcases List.mem_cons.mp mem₁ with rfl | old₁ <;> rcases List.mem_cons.mp mem₂ with rfl | old₂
    · rfl
    · obtain ⟨rfl, rfl⟩ := only r₁
      exact absurd same.symm (spentHere old₂ r₂)
    · obtain ⟨rfl, rfl⟩ := only r₂
      exact absurd same (spentHere old₁ r₁)
    · exact inv.once e₁ old₁ e₂ old₂ p₁ m₁ p₂ m₂ r₁ r₂ same
  · obtain ⟨s, before', login', ends⟩ := evolves.kept s' mem
    have revoked : MassRevoked w.trace s' := by
      rcases revoked with ⟨all, -⟩ | revoked
      · exact nomatch label.symm.trans all
      · exact revoked
    rcases h.of_cons with (⟨opened, -⟩ | ⟨p', rotated⟩) | h
    · exact absurd opened (opens m)
    · obtain ⟨rfl, rfl⟩ := only rotated
      have known := (inv.same_of_id created before' (same.trans login'.sessionId.symm)).trans login'
      exact live (revoked.congr known.actorId.symm known.family.symm)
    · exact inv.final s before' (ends active')
        (revoked.congr login'.actorId.symm login'.family.symm) m h
        (same.trans login'.sessionId.symm)

/-- A step from outside. -/
theorem env (inv : RotationInv rt w) {db : SessionDb} (sessions : db.sessions.Sublist w.store.sessions)
    (drawnIds : db.drawnIds = w.store.drawnIds) (drawnHashes : db.drawnHashes = w.store.drawnHashes)
    (handedOut : db.handedOut = w.store.handedOut) :
    RotationInv rt { store := db, trace := w.trace } where
  origin := fun s mem => inv.origin s (sessions.subset mem)
  unique := (sessions.map _).nodup inv.unique
  drawn := fun n h => by
    dsimp only
    rw [drawnIds, drawnHashes]
    exact inv.drawn n h
  distinct := inv.distinct
  rooted := inv.rooted
  handed := fun hash mem => inv.handed hash (handedOut ▸ mem)
  delivered := inv.delivered
  sound := inv.sound
  spent := fun e mem p n rotates s there => inv.spent e mem p n rotates s (sessions.subset there)
  once := inv.once
  final := fun s mem => inv.final s (sessions.subset mem)
  live := inv.live

theorem plain (inv : RotationInv rt w) {label : SessionLabel} {act : SessionDb → SessionDb}
    (step : PlainStep label act) (i : Nat) :
    RotationInv rt (w.push ⟨i, label, w.store, act w.store⟩) := by
  refine inv.quiet rfl (step.evolves _) ?_ ?_ ?_ ?_ ?_
  · rintro n rfl
    cases step
  · rintro p n ⟨rfl, -⟩
    cases step
  · exact fun hash mem => .inl (step.handedOut _ ▸ mem)
  · rintro n rfl
    cases step
  · rintro actorId rfl
    exact step.revokesAll _

theorem kept (inv : RotationInv rt w) {label : SessionLabel} {db : SessionDb}
    (kind : (∃ hash, label = .find hash) ∨ ∃ sid familyId r, label = .restrictLogin sid familyId r)
    (evolves : Evolves w.store db) (handedOut : db.handedOut = w.store.handedOut) (i : Nat) :
    RotationInv rt (w.push ⟨i, label, w.store, db⟩) := by
  have other {l : SessionLabel} (find : ∀ hash, l ≠ .find hash)
      (restrict : ∀ sid familyId r, l ≠ .restrictLogin sid familyId r) : label ≠ l := by
    rintro rfl
    rcases kind with ⟨hash, is⟩ | ⟨sid, familyId, r, is⟩
    · exact find hash is
    · exact restrict sid familyId r is
  refine inv.quiet rfl evolves (fun n => ?_) (fun p n rotates => ?_)
    (fun hash mem => .inl (handedOut ▸ mem)) (fun n is => ?_) fun actorId is => ?_
  · exact other (fun _ h => nomatch h) fun _ _ _ h => nomatch h
  · exact other (l := .markRotated p n) (fun _ h => nomatch h) (fun _ _ _ h => nomatch h) rotates.1
  · exact absurd is (other (fun _ h => nomatch h) fun _ _ _ h => nomatch h)
  · exact absurd is (other (fun _ h => nomatch h) fun _ _ _ h => nomatch h)

end RotationInv

/-! ## The programs -/

section Programs

variable (rt : SessionRuntime) (admits : SessionRequest → Prop)

abbrev SafeSession {A : Type} (i : Nat) (Q : A → SessionWorld → Prop) (p : SessionProg A)
    (P : SessionWorld → Prop) : Prop :=
  Safe (sessionSystem rt admits).env Genuine (RotationInv rt) (fun _ => True) i Q p P

variable {rt admits} {i : Nat} {A : Type} {P : SessionTrace → Prop}

theorem persistent_trace (grows : ∀ e trace, P trace → P (e :: trace)) :
    Persistent (sessionSystem rt admits).env (RotationInv rt) (fun _ => True)
      fun w => P w.trace :=
  ⟨fun w e _ holds _ _ _ => grows e w.trace holds, fun _ _ _ holds _ => holds⟩

theorem safe_plain {p : SessionProg A} (grows : ∀ e trace, P trace → P (e :: trace))
    (plain : p.Each PlainStep) :
    SafeSession rt admits i (fun _ w => P w.trace) p fun w => P w.trace :=
  Safe.of_each (persistent_trace grows) (plain.mono fun _ _ step _ inv _ => ⟨inv.plain step i, trivial⟩)

theorem safe_any {p : SessionProg A} (plain : p.Each PlainStep) :
    SafeSession rt admits i (fun _ _ => True) p fun _ => True :=
  safe_plain (P := fun _ => True) (fun _ _ _ => trivial) plain

theorem stable_true : Stable (sessionSystem rt admits).env (RotationInv rt) (fun _ => True) i
    fun _ => True :=
  (persistent_trace (P := fun _ => True) fun _ _ _ => trivial).stable i

theorem safe_setRestrictionForLogin (sessionId : String) (restriction : Option Restriction) :
    SafeSession rt admits i (fun _ _ => True) (setRestrictionForLogin sessionId restriction)
      fun _ => True := by
  refine (safe_any plain_look).bind fun session => ?_
  cases session with
  | none => exact fun _ _ _ => trivial
  | some session =>
      refine Safe.update (fun _ => stable_true) fun w inv _ _ => ⟨?_, trivial, trivial⟩
      exact inv.kept (.inr ⟨_, _, _, rfl⟩) (.updateMany (tame_restricted restriction) _ _) rfl i

theorem safe_mfaEnrolled (portal : Portal) (actorId : String) (sessionId : Option String) :
    SafeSession rt admits i (fun _ _ => True) (mfaEnrolled portal actorId sessionId)
      fun _ => True := by
  have revoked : SafeSession rt admits i (fun _ _ => True)
      (revokeRestrictedForActor actorId "mfa_enrolled_elsewhere" >>= fun _ => pure true)
      fun _ => True :=
    (safe_any (plain_revokeRestrictedForActor actorId _)).bind fun _ _ _ _ => trivial
  refine (safe_any (plain_setMfaEnabled portal actorId true)).bind fun updated => ?_
  cases updated with
  | false => exact fun _ _ _ => trivial
  | true =>
      cases sessionId with
      | none => exact revoked
      | some sessionId => exact (safe_setRestrictionForLogin sessionId none).bind fun _ => revoked

def Rotated (i : Nat) (hash : String) (trace : SessionTrace) : Prop :=
  ∃ e ∈ trace, e.tid = i ∧ ∃ p n, Rotates e p n ∧ p.refreshTokenHash = hash

theorem Rotated.cons {hash : String} {trace : SessionTrace} (rotated : Rotated i hash trace)
    (e : SessionEvent) : Rotated i hash (e :: trace) := by
  obtain ⟨e', mem, rest⟩ := rotated
  exact ⟨e', List.mem_cons_of_mem _ mem, rest⟩

def Presented (p : Session) (trace : SessionTrace) : Prop :=
  ∃ q, Created trace q ∧ Claimed trace q ∧ SameLogin q p

theorem Presented.cons {p : Session} {trace : SessionTrace} (presented : Presented p trace)
    (e : SessionEvent) : Presented p (e :: trace) := by
  obtain ⟨q, created, claimed, same⟩ := presented
  exact ⟨q, created.cons e, claimed.cons e, same⟩

structure Follows (p n : Session) (trace : SessionTrace) : Prop where
  created : Created trace n
  actorId : n.actorId = p.actorId
  family : n.family = p.family

theorem Follows.cons {p n : Session} {trace : SessionTrace} (follows : Follows p n trace)
    (e : SessionEvent) : Follows p n (e :: trace) :=
  { follows with created := follows.created.cons e }

theorem document_bound (draw : Draw) (p : NewSession) (now : Int) :
    (p.document rt draw now).expiresAt ≤
      absoluteExpiryFor rt (familyAuthenticatedAt (p.document rt draw now)) := by
  have capped (signedInAt : Int) :
      cappedExpiry rt signedInAt now ≤ absoluteExpiryFor rt signedInAt := min_le_right ..
  unfold NewSession.document familyAuthenticatedAt
  dsimp only [Option.getD_some]
  split
  · exact le_trans (min_le_right ..) (capped _)
  · exact capped _

theorem safe_create {draw : Draw} {p : NewSession} (grows : ∀ e trace, P trace → P (e :: trace))
    (place : ∀ trace, P trace → p.familyId = none ∨ ∃ q, Created trace q ∧
      p.familyId = some q.family ∧ p.authenticatedAt = some (familyAuthenticatedAt q)) :
    SafeSession rt admits i
      (fun result w => P w.trace ∧ ∀ n, result = .ok n → Created w.trace n ∧
        ∃ now, n = p.document rt draw now)
      (create rt draw p) fun w => P w.trace := by
  unfold create
  split
  · exact fun w _ holds => ⟨holds, fun n ok => nomatch ok⟩
  · refine (safe_plain grows plain_look).bind fun now => ?_
    refine Safe.update (fun result => ?_) fun w inv holds fresh => ?_
    · refine (persistent_trace (P := fun trace => P trace ∧ ∀ n, result = .ok n →
        Created trace n ∧ ∃ now, n = p.document rt draw now) fun e trace h => ?_).stable i
      exact ⟨grows e trace h.1, fun n ok => ⟨(h.2 n ok).1.cons e, (h.2 n ok).2⟩⟩
    · refine ⟨inv.create rfl rfl rfl fresh.1 fresh.2 (document_bound draw p now) ?_, trivial,
        grows _ _ holds, fun n ok => ?_⟩
      · rcases place w.trace holds with own | ⟨q, created, family, signedInAt⟩
        · exact .inl (by simp [NewSession.document, own])
        · refine .inr ⟨q, created, ?_, ?_⟩
          · simp [NewSession.document, Session.family, family]
          · simp [NewSession.document, familyAuthenticatedAt, signedInAt]
      · obtain rfl := Except.ok.inj ok
        exact ⟨⟨_, List.mem_cons_self .., rfl⟩, now, rfl⟩

theorem safe_deliver {n : Session} {result : AuthResult}
    (grows : ∀ e trace, P trace → P (e :: trace)) (claimed : ∀ trace, P trace → Claimed trace n) :
    SafeSession rt admits i (fun _ w => P w.trace) (deliver n result) fun w => P w.trace := by
  refine Safe.update (fun _ => (persistent_trace grows).stable i) fun w inv holds _ => ?_
  refine ⟨inv.quiet rfl (.of_sessions rfl rfl rfl) ?_ ?_ ?_ ?_ ?_, trivial, grows _ _ holds⟩
  · exact fun n label => nomatch label
  · exact fun p n rotates => nomatch rotates.1
  · intro hash mem
    rcases List.mem_cons.mp mem with rfl | earlier
    · exact .inr ⟨n, claimed _ holds, rfl⟩
    · exact .inl earlier
  · rintro n' label
    obtain rfl := SessionLabel.deliver.inj label
    exact claimed _ holds
  · exact fun actorId label => nomatch label

theorem safe_markRotated {p n : Session} :
    SafeSession rt admits i
      (fun claimed w => claimed = true → Claimed w.trace n ∧ Rotated i p.refreshTokenHash w.trace)
      (markRotated p n) fun w => Presented p w.trace ∧ Follows p n w.trace := by
  refine (safe_plain (P := fun trace => Presented p trace ∧ Follows p n trace)
    (fun e _ h => ⟨h.1.cons e, h.2.cons e⟩) plain_look).bind fun now => ?_
  refine Safe.update (fun claimed => ?_) fun w inv holds _ => ?_
  · refine (persistent_trace (P := fun trace => claimed = true → Claimed trace n ∧
      Rotated i p.refreshTokenHash trace) fun e trace h rotated => ?_).stable i
    exact ⟨(h rotated).1.cons e, (h rotated).2.cons e⟩
  · obtain ⟨⟨q, -, claimed, presented⟩, follows⟩ := holds
    have tame := tame_rotated now n.sessionId
    cases found : w.store.sessions.find? (activeWith p.sessionId) with
    | none =>
        refine ⟨inv.quiet rfl (.updateOne tame _ _) (fun m label => nomatch label) ?_
          (fun hash mem => .inl mem) (fun m label => nomatch label)
          (fun actorId label => nomatch label), trivial, fun rotated => nomatch rotated⟩
        rintro p' m ⟨label, s, mem, active⟩
        obtain ⟨rfl, -⟩ := SessionLabel.markRotated.inj label
        exact absurd active (by simpa using List.find?_eq_none.mp found s mem)
    | some s =>
        have rotates (db : SessionDb) : Rotates ⟨i, .markRotated p n, w.store, db⟩ p n :=
          ⟨rfl, s, List.mem_of_find?_eq_some found, List.find?_some found⟩
        refine ⟨inv.rotate rfl (rotates _) (.updateOne tame _ _) rfl ?_ follows.created claimed
          presented follows.actorId follows.family, trivial, fun _ => ⟨?_, ?_⟩⟩
        · intro s' mem same
          have ended := updateFirst_exhausts inv.unique
            (fun s active => by simp [activeWith] at active; exact active.1)
            (fun s => by simp [activeWith, Session.isActive, Session.rotated, Session.ended]) s' mem
          simpa [activeWith, same] using ended
        · exact ⟨_, List.mem_cons_self .., .inr ⟨p, rotates _⟩⟩
        · exact ⟨_, List.mem_cons_self .., rfl, p, n, rotates _, rfl⟩

theorem safe_rotate {draw : Draw} {p : Session} {restriction : Option Restriction} :
    SafeSession rt admits i
      (fun result w => ∀ n, result = .ok (some n) →
        Claimed w.trace n ∧ Rotated i p.refreshTokenHash w.trace)
      (rotate rt draw p restriction) fun w => Presented p w.trace := by
  unfold rotate
  split
  · exact fun w _ _ n ok => nomatch ok
  · refine Safe.andThen (safe_create (P := Presented p) (fun e _ h => h.cons e) ?_) (fun n => ?_)
      (fun e w _ _ n ok => nomatch ok)
    · rintro trace ⟨q, created, -, same⟩
      refine .inr ⟨q, created, ?_, ?_⟩
      · rw [successorOf, same.family]
      · rw [successorOf, same.signedInAt]
    · have marked : SafeSession rt admits i
          (fun claimed w => claimed = true →
            Claimed w.trace n ∧ Rotated i p.refreshTokenHash w.trace)
          (markRotated p n) fun w => Presented p w.trace ∧ ∀ m, Except.ok n = Except.ok (ε :=
            SessionError) m → Created w.trace m ∧
              ∃ now, m = (successorOf p restriction).document rt draw now := by
        refine safe_markRotated.weaken fun w _ holds => ?_
        obtain ⟨presented, created⟩ := holds
        obtain ⟨created, now, rfl⟩ := created n rfl
        exact ⟨presented, created, rfl, rfl⟩
      refine marked.bind fun claimed => ?_
      cases claimed with
      | true =>
          rintro w - holds m ok
          obtain rfl : n = m := by simpa using ok
          exact holds rfl
      | false =>
          refine ((safe_any (plain_revokeSession n.sessionId _)).weaken
            fun _ _ _ => trivial).bind fun _ => ?_
          exact fun w _ _ m ok => nomatch ok

def Answered (i : Nat) (hash : String) (result : Except SessionError AuthResult)
    (w : SessionWorld) : Prop :=
  ∀ r, result = .ok r → r.refreshToken ≠ none → Rotated i hash w.trace

theorem answered_error {hash : String} (error : SessionError) (w : SessionWorld) :
    Answered i hash (.error error) w := fun _ ok => nomatch ok

theorem safe_refused {p : SessionProg A} {error : SessionError} {hash : String}
    {P : SessionWorld → Prop} (plain : p.Each PlainStep) :
    SafeSession rt admits i (Answered i hash) (p >>= fun _ => pure (.error error)) P :=
  ((safe_any plain).weaken fun _ _ _ => trivial).bind fun _ w _ _ => answered_error error w

theorem safe_rotateAndDeliver {request : RefreshRequest} {account : Account} {p : Session} :
    SafeSession rt admits i (Answered i p.refreshTokenHash)
      (rotateAndDeliver rt request account p) fun w => Presented p w.trace := by
  unfold rotateAndDeliver
  refine (safe_plain (P := Presented p) (fun e _ h => h.cons e)
    (plain_tightens p.portal account p)).bind fun tighten => ?_
  refine safe_rotate.andThen (fun next => ?_) fun e w _ _ => answered_error e w
  cases next with
  | some next =>
      refine ((safe_deliver (P := fun trace => Claimed trace next ∧
        Rotated i p.refreshTokenHash trace) (fun e _ h => ⟨h.1.cons e, h.2.cons e⟩)
        fun _ h => h.1).weaken fun w _ holds => holds next rfl).post ?_
      exact fun result w holds r _ _ => holds.2
  | none =>
      refine ((safe_any plain_look).weaken fun _ _ _ => trivial).bind fun predecessor => ?_
      refine (safe_any (plain_liveSuccessorOf predecessor none)).bind fun successor => ?_
      cases successor with
      | none => exact fun w _ _ => answered_error _ w
      | some successor =>
          intro w _ _ r ok token
          obtain rfl := Except.ok.inj ok
          exact absurd rfl token

theorem safe_refreshAccount {request : RefreshRequest} {p : Session} {joined : Option Session} :
    SafeSession rt admits i (Answered i p.refreshTokenHash)
      (refreshAccount rt request p joined) fun w => Presented p w.trace := by
  unfold refreshAccount
  refine (safe_plain (P := Presented p) (fun e _ h => h.cons e) plain_look).bind fun account => ?_
  cases account with
  | none => exact safe_refused (plain_revokeAllForActor ..)
  | some account =>
      by_cases inactive : account.status ≠ .active
      · simp only [if_pos inactive]
        exact safe_refused (plain_revokeAllForActor ..)
      · simp only [if_neg inactive]
        refine (safe_plain (P := Presented p) (fun e _ h => h.cons e) plain_look).bind fun active => ?_
        cases active with
        | false => exact safe_refused (plain_revokeAllForActor ..)
        | true =>
            cases joined with
            | none => exact safe_rotateAndDeliver
            | some successor =>
                intro w _ _ r ok token
                obtain rfl := Except.ok.inj ok
                exact absurd rfl token

theorem safe_refreshCurrent {request : RefreshRequest} {p : Session} {joined : Option Session} :
    SafeSession rt admits i (Answered i p.refreshTokenHash)
      (refreshCurrent rt request p joined) fun w => Presented p w.trace := by
  unfold refreshCurrent
  refine (safe_plain (P := Presented p) (fun e _ h => h.cons e) plain_look).bind fun now => ?_
  by_cases expired : (joined.getD p).expiresAt ≤ now
  · simp only [if_pos expired]
    exact safe_refused (plain_markExpired _)
  · simp only [if_neg expired]
    refine (safe_plain (P := Presented p) (fun e _ h => h.cons e) plain_look).bind fun now => ?_
    by_cases past : isPastAbsoluteLifetime rt (joined.getD p) now = true
    · simp only [if_pos past]
      exact safe_refused (plain_markExpired _)
    · simp only [if_neg past]
      exact safe_refreshAccount

theorem safe_find {hash : String} :
    SafeSession rt admits i
      (fun found w => ∀ p, found = some p → Presented p w.trace ∧ p.refreshTokenHash = hash)
      (findByRefreshTokenHash hash) fun _ => True := by
  refine Safe.update (fun found => ?_) fun w inv _ genuine => ?_
  · refine (persistent_trace (P := fun trace => ∀ p, found = some p → Presented p trace ∧
      p.refreshTokenHash = hash) fun e trace h p some => ?_).stable i
    exact ⟨(h p some).1.cons e, (h p some).2⟩
  · refine ⟨inv.kept (.inl ⟨hash, rfl⟩) (.of_sessions rfl rfl rfl) rfl i, trivial,
      fun p found => ?_⟩
    have mem := List.mem_of_find?_eq_some found
    have same : p.refreshTokenHash = hash := by simpa using List.find?_some found
    obtain ⟨n, claimed, hashed⟩ := inv.handed hash (genuine ⟨p, mem, same⟩)
    have created := inv.created claimed
    obtain ⟨n', created', login⟩ := inv.origin p mem
    have one : n = n' := inv.distinct n n' created created'
      (.inr ((hashed.trans same.symm).trans login.refreshTokenHash.symm))
    exact ⟨⟨n, created.cons _, claimed.cons _, one ▸ login⟩, same⟩

theorem safe_refresh {request : RefreshRequest} :
    SafeSession rt admits i (Answered i (rt.hashRefreshToken request.refreshToken))
      (refresh rt request) fun _ => True := by
  unfold refresh
  split
  · exact fun w _ _ => answered_error _ w
  · refine safe_find.bind fun found => ?_
    cases found with
    | none => exact fun w _ _ => answered_error _ w
    | some p =>
        refine Safe.of_fact (φ := p.refreshTokenHash = rt.hashRefreshToken request.refreshToken)
          (fun w _ holds => (holds p rfl).2) fun same => ?_
        rw [← same]
        have known (w : SessionWorld) : RotationInv rt w → (∀ p', some p = some p' →
            Presented p' w.trace ∧ p'.refreshTokenHash = p.refreshTokenHash) →
            Presented p w.trace := fun _ holds => (holds p rfl).1
        dsimp only
        split
        · exact fun w _ _ => answered_error _ w
        · split
          · exact safe_refreshCurrent.weaken known
          · refine ((safe_plain (P := Presented p) (fun e _ h => h.cons e)
              (plain_liveSuccessorOf (some p) (some rt.refreshReuseGraceMs))).weaken known).bind
              fun joined => ?_
            cases joined with
            | none => exact safe_refused (plain_revokeAllForActor ..)
            | some joined => exact safe_refreshCurrent

theorem safe_startSession {request : LoginRequest} :
    SafeSession rt admits i (fun _ _ => True) (startSession rt request) fun _ => True := by
  refine Safe.andThen (safe_create (P := fun _ => True) (fun _ _ _ => trivial)
    fun _ _ => .inl rfl) (fun n => ?_) fun _ _ _ _ => trivial
  refine ((safe_deliver (P := fun trace => Claimed trace n) (fun e _ h => h.cons e)
    fun _ h => h).weaken fun w _ holds => ?_).post fun _ _ _ => trivial
  obtain ⟨⟨e, mem, label⟩, now, rfl⟩ := holds.2 n rfl
  exact ⟨e, mem, .inl ⟨label, rfl⟩⟩

theorem safe_openSupportSession {request : SupportRequest} :
    SafeSession rt admits i (fun _ _ => True) (openSupportSession rt request) fun _ => True := by
  refine Safe.andThen (safe_create (P := fun _ => True) (fun _ _ _ => trivial)
    fun _ _ => .inl rfl) (fun n => ?_) fun _ _ _ _ => trivial
  split
  · exact fun _ _ _ => trivial
  · exact ((safe_any (plain_revokeSession n.sessionId _)).weaken
      fun _ _ _ => trivial).bind fun _ _ _ _ => trivial

def AnsweredFor (rt : SessionRuntime) (i : Nat) :
    SessionRequest × SessionAnswer → SessionWorld → Prop
  | (.refresh request, .auth result), w =>
      Answered i (rt.hashRefreshToken request.refreshToken) result w
  | _, _ => True

theorem safe_answer {request : SessionRequest} {p : SessionProg A} {answer : A → SessionAnswer}
    (other : ∀ a w, AnsweredFor rt i (request, answer a) w)
    (safe : SafeSession rt admits i (fun _ _ => True) p fun _ => True) :
    SafeSession rt admits i (AnsweredFor rt i)
      ((p >>= fun a => pure (answer a)) >>= fun answer => pure (request, answer))
      fun _ => True := by
  have answered : SafeSession rt admits i (fun given w => AnsweredFor rt i (request, given) w)
      (p >>= fun a => pure (answer a)) fun _ => True :=
    safe.bind fun a w _ _ => other a w
  exact answered.bind fun _ _ _ holds => holds

theorem safe_request (request : SessionRequest) :
    SafeSession rt admits i (AnsweredFor rt i)
      (request.program rt >>= fun answer => pure (request, answer)) fun _ => True := by
  cases request with
  | refresh request =>
      have answered : SafeSession rt admits i
          (fun answer w => AnsweredFor rt i (.refresh request, answer) w)
          (refresh rt request >>= fun result => pure (.auth result)) fun _ => True :=
        safe_refresh.bind fun _ _ _ holds => holds
      exact answered.bind fun _ _ _ holds => holds
  | login request => exact safe_answer (fun _ _ => trivial) safe_startSession
  | support request => exact safe_answer (fun _ _ => trivial) safe_openSupportSession
  | revoke sessionId reason =>
      exact safe_answer (fun _ _ => trivial) (safe_any (plain_revokeSession sessionId reason))
  | revokeAllForActor actorId reason =>
      exact safe_answer (fun _ _ => trivial) (safe_any (plain_revokeAllForActor actorId reason))
  | restrictAllForActor actorId restriction =>
      exact safe_answer (fun _ _ => trivial) (safe_any (plain_restrictAllForActor actorId restriction))
  | setRestrictionForLogin sessionId restriction =>
      exact safe_answer (fun _ _ => trivial)
        (safe_setRestrictionForLogin sessionId restriction)
  | mfaDisabled portal actorId =>
      exact safe_answer (fun _ _ => trivial) (safe_any (plain_mfaDisabled portal actorId))
  | mfaEnrolled portal actorId sessionId =>
      exact safe_answer (fun _ _ => trivial) (safe_mfaEnrolled portal actorId sessionId)

end Programs

/-! ## Runs -/

/-- A store in which nobody has signed in yet. -/
structure NoSessions (db : SessionDb) : Prop where
  sessions : db.sessions = []
  handedOut : db.handedOut = []

theorem RotationInv.init (rt : SessionRuntime) {s₀ : SessionDb} (empty : NoSessions s₀) :
    RotationInv rt { store := s₀, trace := [] } where
  origin := by simp [empty.sessions]
  unique := by simp [empty.sessions]
  drawn := by simp [Created]
  distinct := by simp [Created]
  rooted := by simp [Created]
  handed := by simp [empty.handedOut]
  delivered := by simp
  sound := by simp
  spent := by simp
  once := by simp
  final := by simp [empty.sessions]
  live := trivial

theorem rotation_discipline (rt : SessionRuntime) (admits : SessionRequest → Prop) {s₀ : SessionDb}
    (empty : NoSessions s₀) :
    Discipline (sessionSystem rt admits) (RotationInv rt) (fun _ => True) (AnsweredFor rt) s₀ where
  init := .init rt empty
  env := fun _ _ inv may => inv.env may.2.1 may.2.2.1 may.2.2.2.1 may.2.2.2.2
  start := fun i p may => by
    obtain ⟨request, -, rfl⟩ := may
    exact ⟨fun _ => True, stable_true, fun _ _ _ => trivial, safe_request request⟩

/-- Two refreshes with one token never both get a new token; a session that is active although its
login was revoked everywhere is never delivered, before or later; and no session outlives the
absolute lifetime of its login. -/
theorem rotated_once_revoked_for_good (rt : SessionRuntime) (admits : SessionRequest → Prop)
    (s₀ : SessionDb) (empty : NoSessions s₀)
    (c c' : Config Nat SessionLabel SessionDb (SessionRequest × SessionAnswer))
    (reach : (sessionSystem rt admits).Reach s₀ c)
    (later : Relation.ReflTransGen (Step (sessionSystem rt admits)) c c') :
    (∀ i j first second result result',
      c.pool i = some (.done (.refresh first, .auth (.ok result))) →
      c.pool j = some (.done (.refresh second, .auth (.ok result'))) →
      first.refreshToken = second.refreshToken →
      result.refreshToken ≠ none → result'.refreshToken ≠ none → i = j) ∧
    (∀ s ∈ c.world.store.sessions, s.isActive = true → MassRevoked c.world.trace s →
      ∀ e ∈ c'.world.trace, ∀ n, e.label = .deliver n → n.sessionId ≠ s.sessionId) ∧
    ∀ s ∈ c.world.store.sessions, ∃ login, Created c.world.trace login ∧
      login.familyId = some login.sessionId ∧ s.family = login.sessionId ∧
      s.expiresAt ≤ absoluteExpiryFor rt (familyAuthenticatedAt login) := by
  have rule := rotation_discipline rt admits empty
  have inv := (reach.sound rule).inv
  have inv' := ((reach.later later).sound rule).inv
  refine ⟨fun i j first second result result' answered answered' same token token' => ?_,
    fun s mem active revoked e delivering n label id => ?_, fun s mem => ?_⟩
  · obtain ⟨e, there, own, p, n, rotates, hash⟩ := reach.result rule answered result rfl token
    obtain ⟨e', there', own', p', n', rotates', hash'⟩ := reach.result rule answered' result' rfl token'
    obtain ⟨-, q, claimed, login⟩ := inv.sound e there p n rotates
    obtain ⟨-, q', claimed', login'⟩ := inv.sound e' there' p' n' rotates'
    have hashes : q.refreshTokenHash = q'.refreshTokenHash := by
      rw [login.refreshTokenHash, login'.refreshTokenHash, hash, hash', same]
    have one := inv.distinct q q' (inv.created claimed) (inv.created claimed') (.inr hashes)
    have ids : p.sessionId = p'.sessionId := by rw [← login.sessionId, ← login'.sessionId, one]
    rw [← own, ← own']
    exact inv.once e there e' there' p n p' n' rotates rotates' ids
  · -- The session of the delivery is the stored one, so its claim is an earlier one or a rotation
    -- after the revocation.
    obtain ⟨newer, more⟩ := trace_later later
    have claimed := inv'.delivered e delivering n label
    obtain ⟨m, created, login⟩ := inv.origin s mem
    have created' : Created c'.world.trace m := by
      obtain ⟨e', there, opened⟩ := created
      exact ⟨e', more ▸ List.mem_append_right _ there, opened⟩
    have one : n = m := inv'.distinct n m (inv'.created claimed) created'
      (.inl (id.trans login.sessionId.symm))
    subst one
    have unclaimed : ¬ Claimed c.world.trace n := fun h => inv.final s mem active revoked n h id
    obtain ⟨e', there, ⟨opened, own⟩ | ⟨p, rotates⟩⟩ := claimed
    · obtain ⟨e'', there', opened'⟩ := created
      exact unclaimed ⟨e'', there', .inl ⟨opened', own⟩⟩
    · rw [more] at there
      rcases List.mem_append.mp there with newly | before
      · exact (more ▸ inv'.live).not_revoked newly rotates
          (revoked.congr login.actorId.symm login.family.symm)
      · exact unclaimed ⟨e', before, .inr ⟨p, rotates⟩⟩
  · obtain ⟨n, created, login⟩ := inv.origin s mem
    obtain ⟨l, root, own, family, signedInAt, bound⟩ := inv.rooted n created
    refine ⟨l, root, own, login.family.symm.trans family, ?_⟩
    rw [← login.expiresAt, ← signedInAt]
    exact bound

namespace TwoTabs

def runtime : SessionRuntime where
  hashRefreshToken := fun token => "$argon2id$" ++ token
  refreshTokenTtl := 30 * 24 * 60 * 60
  sessionAbsoluteTtl := 30 * 24 * 60 * 60
  refreshReuseGraceMs := 10000

def store : SessionDb where
  clock := 1700000000000
  sessions := []
  accounts := fun _ _ => some { status := .active, mfaEnabled := true, tenantScope := none }
  tenantActive := fun _ => true
  mfaRequired := fun _ _ => true
  drawnIds := []
  drawnHashes := []
  handedOut := []

def login : LoginRequest where
  portal := .user
  actorId := "usr_1"
  tenantId := some "ten_1"
  tenantScope := none
  restriction := none
  draw := ⟨"ses_1", "token-1"⟩

def tab (draw : Draw) : RefreshRequest := { refreshToken := "token-1", portal := some .user, draw }

abbrev Moves := List (Move Nat SessionLabel SessionDb (SessionRequest × SessionAnswer))

/-- A request under a process name, and the number of steps it takes then. -/
def run (i : Nat) (request : SessionRequest) (steps : Nat) : Moves :=
  .start i (request.program runtime >>= fun answer => pure (request, answer)) ::
    List.replicate steps (.act i)

/-- A login; two tabs refresh at once, and the second loses; then the user logs out everywhere. -/
def moves : Moves :=
  run 0 (.login login) 3 ++ (run 1 (.refresh (tab ⟨"ses_2", "token-2"⟩)) 3 ++
    (run 2 (.refresh (tab ⟨"ses_3", "token-3"⟩)) 20 ++ (List.replicate 20 (.act 1) ++
      run 3 (.revokeAllForActor "usr_1" "logout_all") 2)))

def raced : Config Nat SessionLabel SessionDb (SessionRequest × SessionAnswer) :=
  moves.foldl Config.move (.idle store)

/-- What a process has answered. -/
def answered (c : Config Nat SessionLabel SessionDb (SessionRequest × SessionAnswer)) (i : Nat) :
    Option (SessionRequest × SessionAnswer) :=
  match c.pool i with
  | some (.done answer) => some answer
  | _ => none

theorem pool_of_answered {c : Config Nat SessionLabel SessionDb (SessionRequest × SessionAnswer)}
    {i : Nat} {answer : SessionRequest × SessionAnswer} (found : answered c i = some answer) :
    c.pool i = some (.done answer) := by
  unfold answered at found
  split at found
  · rename_i running
    rw [running, Option.some.inj found]
  · exact nomatch found

/-- The second tab's answer. -/
def second : AuthResult where
  accessToken :=
    { portal := .user, actorId := "usr_1", sessionId := "ses_3", tenantId := some "ten_1" }
  refreshToken := some "token-3"
  refreshExpiresAt := 1702592000000
  sessionId := "ses_3"
  mfaEnrollmentRequired := false

end TwoTabs

open TwoTabs in
/-- Of the two tabs only the second gets a token, and nothing is active after the logout. -/
theorem rotated_once_revoked_for_good_raced :
    (∀ i first result, raced.pool i = some (.done (.refresh first, .auth (.ok result))) →
      first.refreshToken = "token-1" → result.refreshToken ≠ none → i = 2) ∧
    raced.world.store.sessions.map Session.isActive = [false, false, false] := by
  have reach : (sessionSystem runtime fun _ => True).Reach store raced := by
    refine Reach.moves .init (LegalRun.append ⟨⟨rfl, _, trivial, rfl⟩, ?_⟩ (LegalRun.append
      ⟨⟨?_, _, trivial, rfl⟩, ?_⟩ (LegalRun.append ⟨⟨?_, _, trivial, rfl⟩, ?_⟩
        (LegalRun.append ?_ ⟨⟨?_, _, trivial, rfl⟩, ?_⟩))))
    all_goals decide +kernel
  have winner : raced.pool 2 =
      some (.done (.refresh (tab ⟨"ses_3", "token-3"⟩), .auth (.ok second))) :=
    pool_of_answered (by decide +kernel)
  refine ⟨fun i first result returned same token => ?_, by decide +kernel⟩
  exact (rotated_once_revoked_for_good runtime (fun _ => True) store ⟨rfl, rfl⟩ raced raced reach
    .refl).1 i 2 first _ result second returned winner same token (by decide)

end AnalyticsBackend.Auth
