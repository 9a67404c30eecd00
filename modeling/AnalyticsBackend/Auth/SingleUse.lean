import AnalyticsBackend.Auth.SecondFactor

/-!
# Codes of the second factor are accepted once

A recovery code is accepted by the update that takes its digest out of the list, and a list is only
ever replaced by one of fresh digests. A time-based code is accepted by the update that raises the
last step, or by the one that confirms the enrolment; the last step bounds the accepted steps of
the secret that is stored, but `markTotpStepUsed` does not ask whether the secret is still the one
the code was checked against.
-/

namespace AnalyticsBackend.Auth
open Lib System

abbrev MfaTrace := List MfaEvent

/-! ## Acceptances -/

/-- The step accepts the code of a time step of a secret. -/
def totpAccepted (secret : String) (timeStep : Int) (e : MfaEvent) : Bool :=
  match e.label with
  | .mark checked _ step => checked = secret && step = timeStep && e.label.hits e.before.user
  | .enable checked _ _ step _ => checked = secret && step = timeStep && e.label.hits e.before.user
  | _ => false

/-- The step accepts a recovery code. -/
def recoveryAccepted (digest : String) (e : MfaEvent) : Bool :=
  match e.label with
  | .consume spent => spent = digest && e.label.hits e.before.user
  | _ => false

/-- The writes that put another list in the place of the recovery codes. -/
def MfaLabel.endsBatch : MfaLabel → Bool
  | .start _ _ _ | .enable _ _ _ _ _ | .disable | .replaceCodes _ _ | .reset => true
  | _ => false

/-- The step replaces, resets or disables a batch of recovery codes. -/
def batchEnded (e : MfaEvent) : Bool := e.label.endsBatch && e.label.hits e.before.user

/-- A mark of a time step that matches finds the secret that its code was checked against. -/
def marksCurrent (e : MfaEvent) : Bool :=
  match e.label with
  | .mark _ stored _ => !e.label.hits e.before.user || e.before.user.mfaSecret = some stored
  | _ => true

def MarksCurrent (trace : MfaTrace) : Prop := ∀ e ∈ trace, marksCurrent e = true

theorem MarksCurrent.tail {e : MfaEvent} {trace : MfaTrace} (current : MarksCurrent (e :: trace)) :
    MarksCurrent trace :=
  fun e' mem => current e' (List.mem_cons_of_mem _ mem)

/-- No recovery code that was drawn before a batch ended is accepted after it. -/
def NoneAfterEnd : MfaTrace → Prop
  | [] => True
  | e :: earlier => NoneAfterEnd earlier ∧ ∀ digest, recoveryAccepted digest e = true →
      ∀ r ∈ earlier, batchEnded r = true → digest ∉ r.before.drawnDigests

section Acceptances

variable {e : MfaEvent} {secret digest : String} {timeStep : Int}

/-- An acceptance of a time-based code is the mark of its step or the confirmation with it. -/
theorem totpAccepted_cases (accepted : totpAccepted secret timeStep e = true) :
    e.label.hits e.before.user = true ∧
      ((∃ stored, e.label = .mark secret stored timeStep) ∨
        ∃ stored digests now, e.label = .enable secret stored digests timeStep now) := by
  unfold totpAccepted at accepted
  split at accepted
  · rename_i checked stored step label
    simp only [Bool.and_eq_true, decide_eq_true_eq] at accepted
    obtain ⟨⟨rfl, rfl⟩, hit⟩ := accepted
    exact ⟨hit, .inl ⟨stored, label⟩⟩
  · rename_i checked stored digests step now label
    simp only [Bool.and_eq_true, decide_eq_true_eq] at accepted
    obtain ⟨⟨rfl, rfl⟩, hit⟩ := accepted
    exact ⟨hit, .inr ⟨stored, digests, now, label⟩⟩
  · exact nomatch accepted

theorem recoveryAccepted_iff : recoveryAccepted digest e = true ↔
    e.label = .consume digest ∧ e.label.hits e.before.user = true := by
  unfold recoveryAccepted
  split
  · rename_i spent label
    rw [label, Bool.and_eq_true, decide_eq_true_eq, MfaLabel.consume.injEq]
  · rename_i other
    constructor
    · exact fun impossible => nomatch impossible
    · exact fun accepted => absurd accepted.1 (other digest)

end Acceptances

/-! ## What the programs send -/

def MfaLabel.keyed : MfaLabel → Option (String × String)
  | .start secret stored _ => some (secret, stored)
  | .enable secret stored _ _ _ => some (secret, stored)
  | .mark secret stored _ => some (secret, stored)
  | _ => none

/-- The write of a label, whose secret is the one that its stored form holds. -/
def MfaSent (rt : MfaRuntime) (label : MfaLabel) (act : MfaDb → MfaDb) : Prop :=
  act = label.act ∧ ∀ secret stored, label.keyed = some (secret, stored) →
    rt.decrypt stored = some secret

section Sent

variable {rt : MfaRuntime} {A : Type}

theorem sent_look {f : MfaDb → A} : (Mfa.look f).Each (MfaSent rt) :=
  Prog.Each.read ⟨rfl, fun _ _ keyed => nomatch keyed⟩

theorem sent_write {label : MfaLabel} (keyed : label.keyed = none) :
    (Mfa.write label).Each (MfaSent rt) :=
  Prog.Each.update ⟨rfl, fun _ _ some => nomatch keyed.symm.trans some⟩

theorem sent_matched {user : MfaUser} {code : String}
    {k : Option (String × String × Int) → MfaProg A} (none : (k none).Each (MfaSent rt))
    (some : ∀ secret stored step, rt.decrypt stored = some secret →
      (k (some (secret, stored, step))).Each (MfaSent rt)) :
    (Mfa.matchTimeStep rt user code >>= k).Each (MfaSent rt) := by
  unfold Mfa.matchTimeStep
  cases user.mfaSecret with
  | none => exact none
  | some stored =>
      dsimp only
      cases decrypted : rt.decrypt stored with
      | none => exact none
      | some secret =>
          dsimp only
          split
          · exact none
          · refine ⟨⟨rfl, fun _ _ keyed => nomatch keyed⟩, fun db => ?_⟩
            show (k ((rt.verifyTotp secret code (db.clock / 1000)).map _)).Each (MfaSent rt)
            cases rt.verifyTotp secret code (db.clock / 1000) with
            | none => exact none
            | some step => exact some secret stored step decrypted

theorem sent_verifyCode (user : Option MfaUser) (code : String) :
    (Mfa.verifyCode rt user code).Each (MfaSent rt) := by
  unfold Mfa.verifyCode
  split
  · trivial
  · split
    · trivial
    · refine sent_matched trivial fun secret stored step decrypted => ?_
      refine Prog.Each.update ⟨rfl, fun _ _ keyed => ?_⟩
      obtain ⟨rfl, rfl⟩ := Prod.mk.inj (Option.some.inj keyed)
      exact decrypted

theorem sent_consumeRecoveryCode (code : String) :
    (Mfa.consumeRecoveryCode rt code).Each (MfaSent rt) := by
  unfold Mfa.consumeRecoveryCode
  split
  · trivial
  · refine sent_look.bind fun state => ?_
    cases state with
    | none => trivial
    | some state =>
        dsimp only
        split
        · exact (sent_write rfl).bind fun _ => trivial
        · trivial

theorem sent_reauthenticate (user : MfaUser) (passwordOk : Bool)
    (code recoveryCode : Option String) :
    (Mfa.reauthenticate rt user passwordOk code recoveryCode).Each (MfaSent rt) := by
  unfold Mfa.reauthenticate
  split
  · trivial
  · split
    · trivial
    · cases given code with
      | some code => exact (sent_verifyCode (some user) code).bind fun _ => trivial
      | none => exact (sent_consumeRecoveryCode (recoveryCode.getD "")).bind fun _ => trivial

theorem sent_isMfaRequired (user : MfaUser) : (Mfa.isMfaRequired user).Each (MfaSent rt) := by
  unfold Mfa.isMfaRequired
  split
  · trivial
  · exact sent_look

theorem sent_loadState : Mfa.loadState.Each (MfaSent rt) := by
  refine sent_look.bind fun user => ?_
  cases user with
  | none => trivial
  | some user => trivial

theorem sent_loginChallenge (mfaCode recoveryCode : Option String) :
    (Mfa.loginChallenge rt mfaCode recoveryCode).Each (MfaSent rt) := by
  refine sent_look.bind fun account => ?_
  split
  · cases given mfaCode with
    | some code => exact sent_look.bind fun user => (sent_verifyCode user code).bind fun _ => trivial
    | none =>
        cases given recoveryCode with
        | none => trivial
        | some code => exact (sent_consumeRecoveryCode code).bind fun _ => trivial
  · exact (sent_isMfaRequired account).bind fun _ => trivial

theorem sent_stepUp (passwordOk : Bool) (code recoveryCode : Option String) :
    (Mfa.stepUp rt passwordOk code recoveryCode).Each (MfaSent rt) := by
  refine sent_loadState.andThen fun user => ?_
  split
  · trivial
  · have enroll : (Mfa.needsEnrollment user).Each (MfaSent rt) := by
      unfold Mfa.needsEnrollment
      split
      · trivial
      · exact sent_isMfaRequired user
    refine enroll.bind fun mustEnroll => ?_
    split
    · trivial
    · split
      · trivial
      · refine (sent_reauthenticate _ _ _ _).bind fun check => ?_
        split
        · trivial
        · exact sent_look.bind fun _ => trivial

theorem sent_disable (passwordOk : Bool) (code recoveryCode : Option String) :
    (Mfa.disable rt passwordOk code recoveryCode).Each (MfaSent rt) := by
  refine sent_loadState.andThen fun user => ?_
  split
  · trivial
  · split
    · trivial
    · refine (sent_reauthenticate _ _ _ _).bind fun check => ?_
      split
      · trivial
      · exact (sent_write rfl).bind fun _ => trivial

theorem sent_enroll {secret stored : String} (decrypted : rt.decrypt stored = some secret) :
    (Mfa.enroll secret stored).Each (MfaSent rt) := by
  refine sent_loadState.andThen fun user => ?_
  split
  · trivial
  · refine sent_look.bind fun now => ?_
    refine Prog.Each.bind (Prog.Each.update ⟨rfl, fun _ _ keyed => ?_⟩) fun _ => trivial
    obtain ⟨rfl, rfl⟩ := Prod.mk.inj (Option.some.inj keyed)
    exact decrypted

theorem sent_verifyEnrollment (code : String) (digests : List String) :
    (Mfa.verifyEnrollment rt code digests).Each (MfaSent rt) := by
  refine sent_loadState.andThen fun user => ?_
  split
  · trivial
  · split
    · trivial
    · refine sent_look.bind fun now => ?_
      split
      · exact (sent_write rfl).bind fun _ => trivial
      · refine sent_matched trivial fun secret stored step decrypted => ?_
        refine sent_look.bind fun now => ?_
        refine Prog.Each.bind (Prog.Each.update ⟨rfl, fun _ _ keyed => ?_⟩) fun _ => trivial
        obtain ⟨rfl, rfl⟩ := Prod.mk.inj (Option.some.inj keyed)
        exact decrypted

theorem sent_regenerateRecoveryCodes (digests : List String) :
    (Mfa.regenerateRecoveryCodes digests).Each (MfaSent rt) := by
  refine sent_loadState.andThen fun user => ?_
  split
  · trivial
  · exact sent_look.bind fun now => (sent_write rfl).bind fun _ => trivial

theorem sent_resetMemberMfa : Mfa.resetMemberMfa.Each (MfaSent rt) := by
  refine sent_look.bind fun target => ?_
  cases target with
  | none => trivial
  | some target =>
      refine sent_look.bind fun allowed => ?_
      cases allowed with
      | false => trivial
      | true => exact (sent_write rfl).bind fun _ => trivial

theorem sent_request {request : MfaRequest}
    (decrypts : ∀ secret stored, request = .enroll secret stored →
      rt.decrypt stored = some secret) : (request.program rt).Each (MfaSent rt) := by
  cases request with
  | loginChallenge mfaCode recoveryCode => exact sent_loginChallenge mfaCode recoveryCode
  | stepUp passwordOk code recoveryCode => exact sent_stepUp passwordOk code recoveryCode
  | disable passwordOk code recoveryCode => exact sent_disable passwordOk code recoveryCode
  | enroll secret stored => exact sent_enroll (decrypts secret stored rfl)
  | verifyEnrollment code digests => exact sent_verifyEnrollment code digests
  | regenerateRecoveryCodes digests => exact sent_regenerateRecoveryCodes digests
  | resetMemberMfa => exact sent_resetMemberMfa

end Sent

/-! ## Time-based codes -/

/-- While every mark finds its secret: the steps accepted of the stored secret are bounded by the
last one, and each was accepted once. -/
structure TotpInv (rt : MfaRuntime) (w : MfaWorld) : Prop where
  drawn : ∀ stored secret, w.store.user.mfaSecret = some stored → rt.decrypt stored = some secret →
    secret ∈ w.store.drawnSecrets
  bounded : MarksCurrent w.trace → ∀ e ∈ w.trace, ∀ secret timeStep,
    totpAccepted secret timeStep e = true → secret ∈ w.store.drawnSecrets ∧
      ∀ stored, w.store.user.mfaSecret = some stored → rt.decrypt stored = some secret →
        w.store.user.mfaEnabled = true ∧
          ∃ last, w.store.user.mfaLastTimeStep = some last ∧ timeStep ≤ last
  once : MarksCurrent w.trace → ∀ secret timeStep, w.trace.countP (totpAccepted secret timeStep) ≤ 1

namespace TotpInv

variable {rt : MfaRuntime} {w : MfaWorld} {e : MfaEvent}

theorem refuse (inv : TotpInv rt w)
    (refused : ∀ secret timeStep, totpAccepted secret timeStep e = false)
    (grows : ∀ secret ∈ w.store.drawnSecrets, secret ∈ e.after.drawnSecrets)
    (kept : ∀ stored secret, e.after.user.mfaSecret = some stored → rt.decrypt stored = some secret →
      (secret ∈ e.after.drawnSecrets ∧ secret ∉ w.store.drawnSecrets) ∨
        w.store.user.mfaSecret = some stored ∧
          (w.store.user.mfaEnabled = true → e.after.user.mfaEnabled = true ∧
            e.after.user.mfaLastTimeStep = w.store.user.mfaLastTimeStep)) :
    TotpInv rt (w.push e) where
  drawn := fun stored secret is decrypted => by
    rcases kept stored secret is decrypted with ⟨drawn, -⟩ | ⟨was, -⟩
    · exact drawn
    · exact grows secret (inv.drawn stored secret was decrypted)
  bounded := fun current e' mem secret timeStep accepted => by
    rcases List.mem_cons.mp mem with rfl | mem
    · rw [refused] at accepted
      exact nomatch accepted
    · obtain ⟨drawn, bounded⟩ := inv.bounded current.tail e' mem secret timeStep accepted
      refine ⟨grows secret drawn, fun stored is decrypted => ?_⟩
      rcases kept stored secret is decrypted with ⟨-, fresh⟩ | ⟨was, same⟩
      · exact absurd drawn fresh
      · obtain ⟨enabled, last, marked, below⟩ := bounded stored was decrypted
        obtain ⟨still, lastStep⟩ := same enabled
        exact ⟨still, last, lastStep.trans marked, below⟩
  once := fun current secret timeStep => by
    rw [World.push_trace, List.countP_cons_of_neg (by simp [refused])]
    exact inv.once current.tail secret timeStep

theorem accept (inv : TotpInv rt w) {secret stored : String} {timeStep : Int}
    (only : ∀ secret' timeStep', totpAccepted secret' timeStep' e = true →
      secret' = secret ∧ timeStep' = timeStep)
    (is : w.store.user.mfaSecret = some stored) (decrypted : rt.decrypt stored = some secret)
    (secretKept : e.after.user.mfaSecret = some stored) (enabled : e.after.user.mfaEnabled = true)
    (marked : e.after.user.mfaLastTimeStep = some timeStep)
    (drawnSecrets : e.after.drawnSecrets = w.store.drawnSecrets)
    (later : w.store.user.mfaEnabled = true → ∀ last, w.store.user.mfaLastTimeStep = some last →
      last < timeStep) :
    TotpInv rt (w.push e) := by
  -- An earlier acceptance of the stored secret lies below the last step.
  have below (current : MarksCurrent (e :: w.trace)) {e' : MfaEvent} (mem : e' ∈ w.trace)
      {timeStep' : Int} (accepted : totpAccepted secret timeStep' e' = true) :
      timeStep' < timeStep := by
    obtain ⟨-, bounded⟩ := inv.bounded current.tail e' mem secret timeStep' accepted
    obtain ⟨on, last, lastStep, le⟩ := bounded stored is decrypted
    exact lt_of_le_of_lt le (later on last lastStep)
  have one {stored' secret' : String} (is' : e.after.user.mfaSecret = some stored')
      (decrypted' : rt.decrypt stored' = some secret') : secret' = secret := by
    obtain rfl := Option.some.inj (secretKept.symm.trans is')
    exact Option.some.inj (decrypted'.symm.trans decrypted)
  refine
    { drawn := fun stored' secret' is' decrypted' => ?_
      bounded := fun current e' mem secret' timeStep' accepted => ?_
      once := fun current secret' timeStep' => ?_ }
  · rw [World.push_store, drawnSecrets, one is' decrypted']
    exact inv.drawn stored secret is decrypted
  · rw [World.push_store, drawnSecrets]
    rcases List.mem_cons.mp mem with rfl | mem
    · obtain ⟨rfl, rfl⟩ := only secret' timeStep' accepted
      exact ⟨inv.drawn stored secret' is decrypted, fun _ _ _ =>
        ⟨enabled, timeStep', marked, le_rfl⟩⟩
    · refine ⟨(inv.bounded current.tail e' mem secret' timeStep' accepted).1,
        fun stored' is' decrypted' => ⟨enabled, timeStep, marked, ?_⟩⟩
      obtain rfl := one is' decrypted'
      exact (below current mem accepted).le
  · rw [World.push_trace, List.countP_cons]
    by_cases accepted : totpAccepted secret' timeStep' e = true
    · obtain ⟨rfl, rfl⟩ := only secret' timeStep' accepted
      have none : w.trace.countP (totpAccepted secret' timeStep') = 0 := by
        rw [List.countP_eq_zero]
        exact fun e' mem earlier => lt_irrefl _ (below current mem earlier)
      simp [none, accepted]
    · have before := inv.once current.tail secret' timeStep'
      simpa [accepted] using before

theorem stale (inv : TotpInv rt w) (stale : ¬ MarksCurrent (e :: w.trace))
    (secret : e.after.user.mfaSecret = w.store.user.mfaSecret)
    (drawnSecrets : e.after.drawnSecrets = w.store.drawnSecrets) : TotpInv rt (w.push e) where
  drawn := fun stored secret' is decrypted => by
    rw [World.push_store, drawnSecrets]
    exact inv.drawn stored secret' (secret ▸ is) decrypted
  bounded := fun current => absurd current stale
  once := fun current => absurd current stale

theorem same (inv : TotpInv rt w)
    (refused : ∀ secret timeStep, totpAccepted secret timeStep e = false)
    (grows : ∀ secret ∈ w.store.drawnSecrets, secret ∈ e.after.drawnSecrets)
    (secret : e.after.user.mfaSecret = w.store.user.mfaSecret)
    (enabled : e.after.user.mfaEnabled = w.store.user.mfaEnabled)
    (lastStep : e.after.user.mfaLastTimeStep = w.store.user.mfaLastTimeStep) :
    TotpInv rt (w.push e) :=
  inv.refuse refused grows fun _ _ is _ =>
    .inr ⟨secret ▸ is, fun on => ⟨enabled.trans on, lastStep⟩⟩

/-- Every write keeps the invariant. -/
theorem act (inv : TotpInv rt w) {label : MfaLabel}
    (keyed : ∀ secret stored, label.keyed = some (secret, stored) →
      rt.decrypt stored = some secret)
    (fresh : ∀ secret ∈ label.drawsSecret, secret ∉ w.store.drawnSecrets) (i : Nat) :
    TotpInv rt (w.push ⟨i, label, w.store, label.act w.store⟩) := by
  have grows (secret : String) (mem : secret ∈ w.store.drawnSecrets) :
      secret ∈ (label.act w.store).drawnSecrets := List.mem_append_right _ mem
  by_cases hit : label.hits w.store.user = true
  · have user : (label.act w.store).user = label.set w.store.user := if_pos hit
    cases label with
    | look => exact nomatch hit
    | start secret stored expiresAt =>
        refine inv.refuse (fun _ _ => rfl) grows fun stored' secret' is decrypted => ?_
        rw [user] at is
        obtain rfl := Option.some.inj is
        obtain rfl := Option.some.inj ((keyed secret stored rfl).symm.trans decrypted)
        exact .inl ⟨List.mem_cons_self .., fresh secret (List.mem_cons_self ..)⟩
    | clearExpired stored now =>
        refine inv.refuse (fun _ _ => rfl) grows fun stored' secret' is _ => ?_
        rw [user] at is
        exact nomatch is
    | disable =>
        refine inv.refuse (fun _ _ => rfl) grows fun stored' secret' is _ => ?_
        rw [user] at is
        exact nomatch is
    | reset =>
        refine inv.refuse (fun _ _ => rfl) grows fun stored' secret' is _ => ?_
        rw [user] at is
        exact nomatch is
    | replaceCodes digests now =>
        exact inv.same (fun _ _ => rfl) grows (by rw [user]; rfl) (by rw [user]; rfl)
          (by rw [user]; rfl)
    | consume digest =>
        exact inv.same (fun _ _ => rfl) grows (by rw [user]; rfl) (by rw [user]; rfl)
          (by rw [user]; rfl)
    | enable secret stored digests timeStep now =>
        simp only [MfaLabel.hits, Bool.and_eq_true, Bool.not_eq_true', decide_eq_true_eq] at hit
        obtain ⟨⟨⟨-, off⟩, is⟩, -⟩ := hit
        refine inv.accept (fun secret' timeStep' accepted => ?_) is (keyed secret stored rfl)
          (by rw [user]; exact is) (by rw [user]; rfl) (by rw [user]; rfl) rfl ?_
        · obtain ⟨-, ⟨_, named⟩ | ⟨_, _, _, named⟩⟩ := totpAccepted_cases accepted
          · exact nomatch named
          · obtain ⟨rfl, -, -, rfl, -⟩ := MfaLabel.enable.inj named
            exact ⟨rfl, rfl⟩
        · intro on
          rw [off] at on
          exact nomatch on
    | mark secret stored timeStep =>
        have marked := hit
        simp only [MfaLabel.hits, Bool.and_eq_true] at hit
        obtain ⟨on, above⟩ := hit
        by_cases is : w.store.user.mfaSecret = some stored
        · refine inv.accept (fun secret' timeStep' accepted => ?_) is (keyed secret stored rfl)
            (by rw [user]; exact is) (by rw [user]; exact on) (by rw [user]; rfl) rfl ?_
          · obtain ⟨-, ⟨_, named⟩ | ⟨_, _, _, named⟩⟩ := totpAccepted_cases accepted
            · obtain ⟨rfl, -, rfl⟩ := MfaLabel.mark.inj named
              exact ⟨rfl, rfl⟩
            · exact nomatch named
          · intro _ last lastStep
            simpa [lastStep] using above
        · refine inv.stale (fun current => is ?_) (by rw [user]; rfl) rfl
          have finds := current _ (List.mem_cons_self ..)
          simpa [marksCurrent, marked] using finds
  · have user : (label.act w.store).user = w.store.user := if_neg hit
    refine inv.same (fun secret timeStep => ?_) grows (by rw [user]) (by rw [user]) (by rw [user])
    by_contra accepted
    exact hit (totpAccepted_cases (by simpa using accepted)).1

end TotpInv

/-! ## Recovery codes -/

/-- A spent code is gone, and the codes of an ended batch are gone: what is stored was drawn since. -/
structure RecoveryInv (w : MfaWorld) : Prop where
  drawn : ∀ digest ∈ w.store.user.mfaRecoveryCodes, digest ∈ w.store.drawnDigests
  spent : ∀ e ∈ w.trace, ∀ digest, recoveryAccepted digest e = true →
    digest ∉ w.store.user.mfaRecoveryCodes ∧ digest ∈ w.store.drawnDigests
  once : ∀ digest, w.trace.countP (recoveryAccepted digest) ≤ 1
  ended : ∀ r ∈ w.trace, batchEnded r = true →
    (∀ digest ∈ w.store.user.mfaRecoveryCodes, digest ∉ r.before.drawnDigests) ∧
      ∀ digest ∈ r.before.drawnDigests, digest ∈ w.store.drawnDigests
  after : NoneAfterEnd w.trace

namespace RecoveryInv

variable {w : MfaWorld} {e : MfaEvent}

theorem refuse (inv : RecoveryInv w) (before : e.before = w.store)
    (refused : ∀ digest, recoveryAccepted digest e = false)
    (grows : ∀ digest ∈ w.store.drawnDigests, digest ∈ e.after.drawnDigests)
    (codes : ∀ digest ∈ e.after.user.mfaRecoveryCodes, digest ∈ e.after.drawnDigests ∧
      (digest ∈ w.store.user.mfaRecoveryCodes ∨ digest ∉ w.store.drawnDigests))
    (ends : batchEnded e = true → ∀ digest ∈ e.after.user.mfaRecoveryCodes,
      digest ∉ w.store.drawnDigests) :
    RecoveryInv (w.push e) := by
  refine
    { drawn := fun digest mem => (codes digest mem).1
      spent := fun e' mem digest accepted => ?_
      once := fun digest => ?_
      ended := fun r mem ended => ?_
      after := ⟨inv.after, fun digest accepted => ?_⟩ }
  · rcases List.mem_cons.mp mem with rfl | mem
    · rw [refused] at accepted
      exact nomatch accepted
    · obtain ⟨gone, drawn⟩ := inv.spent e' mem digest accepted
      refine ⟨fun stored => ?_, grows digest drawn⟩
      rcases (codes digest stored).2 with was | fresh
      · exact gone was
      · exact fresh drawn
  · rw [World.push_trace, List.countP_cons_of_neg (by simp [refused])]
    exact inv.once digest
  · rcases List.mem_cons.mp mem with rfl | mem
    · rw [before]
      exact ⟨ends ended, grows⟩
    · obtain ⟨gone, drawn⟩ := inv.ended r mem ended
      refine ⟨fun digest stored known => ?_, fun digest known => grows digest (drawn digest known)⟩
      rcases (codes digest stored).2 with was | fresh
      · exact gone digest was known
      · exact fresh (drawn digest known)
  · rw [refused] at accepted
    exact nomatch accepted

theorem accept (inv : RecoveryInv w) {spent : String} (label : e.label = .consume spent)
    (stored : spent ∈ w.store.user.mfaRecoveryCodes)
    (codes : e.after.user.mfaRecoveryCodes = w.store.user.mfaRecoveryCodes.filter (· ≠ spent))
    (drawnDigests : e.after.drawnDigests = w.store.drawnDigests) : RecoveryInv (w.push e) := by
  have only {digest : String} (accepted : recoveryAccepted digest e = true) : digest = spent :=
    MfaLabel.consume.inj ((recoveryAccepted_iff.mp accepted).1.symm.trans label)
  have kept {digest : String} (mem : digest ∈ e.after.user.mfaRecoveryCodes) :
      digest ∈ w.store.user.mfaRecoveryCodes ∧ digest ≠ spent := by
    rw [codes, List.mem_filter, decide_eq_true_eq] at mem
    exact mem
  have endsNone : batchEnded e = false := by
    rw [batchEnded, label]
    rfl
  refine
    { drawn := fun digest mem => drawnDigests ▸ inv.drawn digest (kept mem).1
      spent := fun e' mem digest accepted => ?_
      once := fun digest => ?_
      ended := fun r mem ended => ?_
      after := ⟨inv.after, fun digest accepted r mem ended => ?_⟩ }
  · rw [World.push_store, drawnDigests]
    rcases List.mem_cons.mp mem with rfl | mem
    · obtain rfl := only accepted
      exact ⟨fun still => (kept still).2 rfl, inv.drawn digest stored⟩
    · obtain ⟨gone, drawn⟩ := inv.spent e' mem digest accepted
      exact ⟨fun still => gone (kept still).1, drawn⟩
  · rw [World.push_trace, List.countP_cons]
    by_cases accepted : recoveryAccepted digest e = true
    · obtain rfl := only accepted
      have none : w.trace.countP (recoveryAccepted digest) = 0 := by
        rw [List.countP_eq_zero]
        exact fun e' mem earlier => (inv.spent e' mem digest earlier).1 stored
      simp [none, accepted]
    · simpa [accepted] using inv.once digest
  · rw [World.push_store, drawnDigests]
    rcases List.mem_cons.mp mem with rfl | mem
    · rw [endsNone] at ended
      exact nomatch ended
    · obtain ⟨gone, drawn⟩ := inv.ended r mem ended
      exact ⟨fun digest still => gone digest (kept still).1, drawn⟩
  · obtain rfl := only accepted
    exact (inv.ended r mem ended).1 digest stored

/-- Every write keeps the invariant. -/
theorem act (inv : RecoveryInv w) {label : MfaLabel}
    (fresh : ∀ digest ∈ label.drawsDigests, digest ∉ w.store.drawnDigests) (i : Nat) :
    RecoveryInv (w.push ⟨i, label, w.store, label.act w.store⟩) := by
  have grows (digest : String) (mem : digest ∈ w.store.drawnDigests) :
      digest ∈ (label.act w.store).drawnDigests := List.mem_append_right _ mem
  have drawn (digest : String) (mem : digest ∈ label.drawsDigests) :
      digest ∈ (label.act w.store).drawnDigests := List.mem_append_left _ mem
  by_cases hit : label.hits w.store.user = true
  · have user : (label.act w.store).user = label.set w.store.user := if_pos hit
    -- The list is emptied, or replaced by fresh digests.
    have replaced (refused : ∀ digest, recoveryAccepted digest
          ⟨i, label, w.store, label.act w.store⟩ = false)
        (codes : ∀ digest ∈ (label.set w.store.user).mfaRecoveryCodes,
          digest ∈ label.drawsDigests) :
        RecoveryInv (w.push ⟨i, label, w.store, label.act w.store⟩) :=
      inv.refuse rfl refused grows
        (fun digest mem => ⟨drawn digest (codes digest (user ▸ mem)),
          .inr (fresh digest (codes digest (user ▸ mem)))⟩)
        fun _ digest mem => fresh digest (codes digest (user ▸ mem))
    -- The list stays.
    have same (refused : ∀ digest, recoveryAccepted digest
          ⟨i, label, w.store, label.act w.store⟩ = false) (goesOn : label.endsBatch = false)
        (codes : (label.set w.store.user).mfaRecoveryCodes = w.store.user.mfaRecoveryCodes) :
        RecoveryInv (w.push ⟨i, label, w.store, label.act w.store⟩) := by
      have back {digest : String} (mem : digest ∈ (label.act w.store).user.mfaRecoveryCodes) :
          digest ∈ w.store.user.mfaRecoveryCodes := by
        rw [user, codes] at mem
        exact mem
      refine inv.refuse rfl refused grows (fun digest mem => ⟨grows digest (inv.drawn digest
        (back mem)), .inl (back mem)⟩) fun ends => ?_
      simp [batchEnded, goesOn] at ends
    cases label with
    | look => exact nomatch hit
    | start => exact replaced (fun _ => rfl) fun _ mem => nomatch mem
    | clearExpired => exact same (fun _ => rfl) rfl rfl
    | enable => exact replaced (fun _ => rfl) fun _ mem => mem
    | disable => exact replaced (fun _ => rfl) fun _ mem => nomatch mem
    | replaceCodes => exact replaced (fun _ => rfl) fun _ mem => mem
    | mark => exact same (fun _ => rfl) rfl rfl
    | reset => exact replaced (fun _ => rfl) fun _ mem => nomatch mem
    | consume digest =>
        refine inv.accept rfl ?_ (by rw [user]; rfl) rfl
        simp only [MfaLabel.hits, Bool.and_eq_true] at hit
        simpa using hit.2
  · have user : (label.act w.store).user = w.store.user := if_neg hit
    refine inv.refuse rfl (fun digest => ?_) grows (fun digest mem => ?_) fun ends => ?_
    · by_contra accepted
      exact hit (recoveryAccepted_iff.mp (by simpa using accepted)).2
    · have mem : digest ∈ w.store.user.mfaRecoveryCodes := user ▸ mem
      exact ⟨grows digest (inv.drawn digest mem), .inl mem⟩
    · rw [batchEnded, Bool.and_eq_true] at ends
      exact absurd ends.2 hit

end RecoveryInv

/-! ## Runs -/

/-- What is stored at the start was drawn before. -/
structure MfaStart (rt : MfaRuntime) (db : MfaDb) : Prop where
  secret : ∀ stored secret, db.user.mfaSecret = some stored → rt.decrypt stored = some secret →
    secret ∈ db.drawnSecrets
  codes : ∀ digest ∈ db.user.mfaRecoveryCodes, digest ∈ db.drawnDigests

/-- Where every mark of a time step finds the secret that its code was checked against, the code of
a step is accepted once; and in every run a recovery code is accepted once, and none that was drawn
before its batch was replaced, reset or disabled is accepted after. -/
theorem codes_single_use (rt : MfaRuntime) (s₀ : MfaDb) (start : MfaStart rt s₀)
    (c : Config Nat MfaLabel MfaDb (MfaRequest × MfaResult))
    (reach : (mfaSystem rt).Reach s₀ c) :
    (MarksCurrent c.world.trace →
      ∀ secret timeStep, c.world.trace.countP (totpAccepted secret timeStep) ≤ 1) ∧
    (∀ digest, c.world.trace.countP (recoveryAccepted digest) ≤ 1) ∧
    NoneAfterEnd c.world.trace := by
  have programs (i : Nat) (p : MfaProg (MfaRequest × MfaResult)) (may : (mfaSystem rt).start i p) :
      p.Each (MfaSent rt) := by
    obtain ⟨request, decrypts, rfl⟩ := may
    exact (sent_request decrypts).bind fun _ => trivial
  have totp : TotpInv rt c.world := by
    refine Reach.invariant ⟨start.secret, by simp, by simp⟩ (fun w db inv may => ?_)
      (fun i p may => (programs i p may).mono fun label act sent w inv allowed j => ?_) reach
    · obtain ⟨-, secrets, -, deleted, active, user⟩ := may
      refine ⟨?_, ?_, inv.once⟩
      · dsimp only
        rw [user, secrets]
        exact inv.drawn
      · dsimp only
        rw [user, secrets]
        exact inv.bounded
    · obtain ⟨rfl, keyed⟩ := sent
      exact inv.act keyed allowed.1 j
  have recovery : RecoveryInv c.world := by
    refine Reach.invariant ⟨start.codes, by simp, by simp, by simp, trivial⟩
      (fun w db inv may => ?_)
      (fun i p may => (programs i p may).mono fun label act sent w inv allowed j => ?_) reach
    · obtain ⟨-, -, digests, deleted, active, user⟩ := may
      refine ⟨?_, ?_, inv.once, ?_, inv.after⟩
      all_goals dsimp only; rw [user, digests]
      · exact inv.drawn
      · exact inv.spent
      · exact inv.ended
    · obtain ⟨rfl, -⟩ := sent
      exact inv.act allowed.2 j
  exact ⟨totp.once, recovery.once, recovery.after⟩

namespace ReplacedSecret

def totpCode (secret : String) (step : Int) : String :=
  toString ((step.toNat * 7919 + if secret = "secret-1" then 0 else 1234) % 900000 + 100000)

def runtime : MfaRuntime where
  decrypt := fun stored =>
    if stored = "stored-1" then some "secret-1"
    else if stored = "stored-2" then some "secret-2" else none
  verifyTotp := fun secret code epoch =>
    [epoch / 30, epoch / 30 - 1, epoch / 30 + 1].find? fun step => totpCode secret step = code
  toUpperCase := String.toUpper
  sha256Hex := fun text => text

/-- The current step, and a user who has enrolled the first secret. -/
def step : Int := 56666667

def store : MfaDb where
  clock := 1700000010000
  user :=
    { deleted := false, active := true, mfaSecret := some "stored-1", mfaEnabled := true
      mfaRecoveryCodes := ["digest-1"], mfaRecoveryCodesGeneratedAt := some 1699000000000
      mfaLastTimeStep := some 56633333, mfaEnrollmentExpiresAt := none
      mfaEnrollmentRequired := false }
  workspaceRequired := true
  sessionLive := true
  mayReset := true
  drawnSecrets := ["secret-1"]
  drawnDigests := ["digest-1"]

abbrev Moves := List (Move Nat MfaLabel MfaDb (MfaRequest × MfaResult))

/-- A request under a process name, and the number of steps it takes then. -/
def run (i : Nat) (request : MfaRequest) (steps : Nat) : Moves :=
  .start i (request.program runtime >>= fun result => pure (request, result)) ::
    List.replicate steps (.act i)

def code : Option String := some (totpCode "secret-1" step)

def steppingUp : MfaRequest := .stepUp true code none

def disabling : MfaRequest := .disable true code none

def enrolling : MfaRequest := .enroll "secret-2" "stored-2"

def confirming : MfaRequest := .verifyEnrollment (totpCode "secret-2" (step - 1)) ["digest-2"]

/-- A step-up has matched its code; the second factor is disabled with the same code and enrolled
anew, with the code of the step before; then the step-up marks its step. -/
def overtakenMoves : Moves :=
  run 0 steppingUp 2 ++ (run 1 disabling 4 ++ (run 2 enrolling 3 ++ (run 3 confirming 5 ++
    List.replicate 2 (.act 0))))

def overtaken : Config Nat MfaLabel MfaDb (MfaRequest × MfaResult) :=
  overtakenMoves.foldl Config.move (.idle store)

/-- The step-up alone, and a login with the same code after it. -/
def alone : Config Nat MfaLabel MfaDb (MfaRequest × MfaResult) :=
  (run 0 steppingUp 4 ++ run 1 (.loginChallenge code none) 4).foldl Config.move (.idle store)

theorem started : MfaStart runtime store := by
  refine ⟨fun stored secret is decrypted => ?_, fun digest mem => mem⟩
  obtain rfl := Option.some.inj is
  simpa [runtime, eq_comm, store] using decrypted

theorem startable {i : Nat} (request : MfaRequest)
    (drawn : ∀ secret stored, request = .enroll secret stored →
      runtime.decrypt stored = some secret) :
    (mfaSystem runtime).start i (request.program runtime >>= fun result => pure (request, result)) :=
  ⟨request, drawn, rfl⟩

instance (label : MfaLabel) (db db' : MfaDb) : Decidable ((mfaSystem runtime).ok label db db') :=
  inferInstanceAs (Decidable (MfaDrawn label db db'))

end ReplacedSecret

open ReplacedSecret in
/-- A step-up and a login with one code. -/
theorem codes_single_use_alone : alone.world.trace.countP (totpAccepted "secret-1" step) ≤ 1 := by
  refine (codes_single_use runtime store started alone (Reach.moves .init (LegalRun.append
    ⟨⟨rfl, startable steppingUp nofun⟩, ?_⟩
    ⟨⟨?_, startable (.loginChallenge code none) nofun⟩, ?_⟩))).1 ?_ _ _
  · decide +kernel
  · decide +kernel
  · decide +kernel
  · unfold MarksCurrent
    decide +kernel

open ReplacedSecret in
/-- Once another secret is enrolled with an earlier step, a mark that was checked against the one
before accepts its code a second time. -/
theorem replaced_secret_accepts_again :
    ¬ ∀ (rt : MfaRuntime) (s₀ : MfaDb), MfaStart rt s₀ →
      ∀ c : Config Nat MfaLabel MfaDb (MfaRequest × MfaResult), (mfaSystem rt).Reach s₀ c →
      ∀ secret timeStep, c.world.trace.countP (totpAccepted secret timeStep) ≤ 1 := by
  intro all
  have drawn : ∀ secret stored, enrolling = .enroll secret stored →
      runtime.decrypt stored = some secret := by
    rintro _ _ ⟨⟩
    rfl
  have reach : (mfaSystem runtime).Reach store overtaken := by
    refine Reach.moves .init (LegalRun.append ⟨⟨rfl, startable steppingUp nofun⟩, ?_⟩
      (LegalRun.append ⟨⟨?_, startable disabling nofun⟩, ?_⟩
        (LegalRun.append ⟨⟨?_, startable enrolling drawn⟩, ?_⟩
          (LegalRun.append ⟨⟨?_, startable confirming nofun⟩, ?_⟩ ?_))))
    all_goals decide +kernel
  have twice : ¬ overtaken.world.trace.countP (totpAccepted "secret-1" step) ≤ 1 := by
    decide +kernel
  exact twice (all runtime store started overtaken reach "secret-1" step)

end AnalyticsBackend.Auth
