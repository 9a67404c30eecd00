import AnalyticsBackend.Lib.Interleaving
import AnalyticsBackend.Lib.Js

/-!
# The second factor of a tenant user

`modules/iam/auth/tenantMfa.service.js` and the owner's reset of `workspaceSecurity.service.js`, over
the conditional updates of one user in `repositories/user.repository.js`: enrolment in two steps,
challenges with a time-based code or a recovery code, and the operations that end a secret or a
batch of recovery codes. The counting of failed attempts, the sessions and the audit trail are
left out.
-/

namespace AnalyticsBackend.Auth
open Lib System Js

/-! ## The library functions and the code formats -/

/-- The functions of the platform and of the packages: the decryption of a stored secret, the check
of a code against a secret at a time in seconds, upper-casing and SHA-256; and the configuration. -/
structure MfaRuntime where
  decrypt : String → Option String
  verifyTotp : String → String → Int → Option Int
  toUpperCase : String → String
  sha256Hex : String → String

def mfaEnrollmentTtlMs : Int := 10 * 60 * 1000

def recoveryAlphabet : List Char := "ABCDEFGHJKMNPQRSTUVWXYZ23456789".toList

/-- `normalizeRecoveryCode`. -/
def normalizeRecoveryCode (rt : MfaRuntime) (code : String) : String :=
  String.ofList ((rt.toUpperCase code).toList.filter fun c => !(isJsSpace c || c = '-'))

/-- `hashRecoveryCode`; nothing for what cannot be a recovery code. -/
@[irreducible] def hashRecoveryCode (rt : MfaRuntime) (code : String) : Option String :=
  let normalized := normalizeRecoveryCode rt code
  if normalized.length = 16 && normalized.toList.all recoveryAlphabet.contains then
    some (rt.sha256Hex ("mfa-recovery:" ++ normalized))
  else none

/-- `/^\d{6}$/`. -/
def isTotpCode (code : String) : Bool := code.length = 6 && code.toList.all Char.isDigit

/-- A parameter that is given. -/
def given (value : Option String) : Option String := value.filter fun s => !s.isEmpty

/-! ## Errors -/

/-- The `ERROR_CODES` of the second factor. -/
inductive MfaErrorCode where
  | badRequest
  | unauthorized
  | forbidden
  | notFound
  | conflict
  | gone
  | mfaRequired
  | mfaEnrollmentRequired
  | stepUpFailed
  deriving DecidableEq, Repr

structure MfaError where
  statusCode : Nat
  code : MfaErrorCode
  message : String
  deriving DecidableEq, Repr

namespace MfaError

def badRequest (message : String) : MfaError := { statusCode := 400, code := .badRequest, message }

def conflict (message : String) : MfaError := { statusCode := 409, code := .conflict, message }

def gone (message : String) : MfaError := { statusCode := 410, code := .gone, message }

def notFound (message : String) : MfaError := { statusCode := 404, code := .notFound, message }

def unauthorized (message : String) : MfaError :=
  { statusCode := 401, code := .unauthorized, message }

end MfaError

/-- `reauthFailed`. -/
def reauthFailed : MfaError where
  statusCode := 403
  code := .stepUpFailed
  message := "Password or verification code is incorrect"

def codeMissing : MfaError :=
  .badRequest "Enter a code from your authenticator app or a recovery code"

/-- What an operation answers. -/
inductive MfaAnswer where
  | signedIn (enroll : Bool)
  | steppedUp
  | disabled
  | started
  | enrolled
  | regenerated
  | reset
  deriving DecidableEq, Repr

abbrev MfaResult := Except MfaError MfaAnswer

/-! ## The store -/

/-- The fields of a user that the second factor reads or writes. -/
structure MfaUser where
  deleted : Bool
  active : Bool
  mfaSecret : Option String
  mfaEnabled : Bool
  mfaRecoveryCodes : List String
  mfaRecoveryCodesGeneratedAt : Option Int
  mfaLastTimeStep : Option Int
  mfaEnrollmentExpiresAt : Option Int
  mfaEnrollmentRequired : Bool
  deriving DecidableEq, Repr

/-- The user, the policy of the workspace, whether the caller's session is live and whether the
caller may reset the user's second factor. `drawnSecrets` and `drawnDigests` are the secrets and
the digests of recovery codes drawn so far; no code reads them. -/
structure MfaDb where
  clock : Int
  user : MfaUser
  workspaceRequired : Bool
  sessionLive : Bool
  mayReset : Bool
  drawnSecrets : List String
  drawnDigests : List String

/-- The label of an atomic step; the secret is the one that the code was checked against. -/
inductive MfaLabel where
  | look
  | start (secret stored : String) (expiresAt : Int)
  | clearExpired (stored : String) (now : Int)
  | enable (secret stored : String) (digests : List String) (timeStep now : Int)
  | disable
  | replaceCodes (digests : List String) (now : Int)
  | consume (digest : String)
  | mark (secret stored : String) (timeStep : Int)
  | reset
  deriving DecidableEq, Repr

/-- The filter of a conditional write. -/
def MfaLabel.hits : MfaLabel → MfaUser → Bool
  | .look, _ => false
  | .start _ _ _, u => !u.deleted && !u.mfaEnabled
  | .clearExpired stored now, u => !u.mfaEnabled && u.mfaSecret = some stored &&
      u.mfaEnrollmentExpiresAt.all (· ≤ now)
  | .enable _ stored _ _ now, u => !u.deleted && !u.mfaEnabled && u.mfaSecret = some stored &&
      u.mfaEnrollmentExpiresAt.any (now < ·)
  | .disable, u => !u.deleted && u.mfaEnabled
  | .replaceCodes _ _, u => !u.deleted && u.mfaEnabled
  | .consume digest, u => !u.deleted && u.mfaEnabled && u.mfaRecoveryCodes.contains digest
  | .mark _ _ timeStep, u => u.mfaEnabled && u.mfaLastTimeStep.all (· < timeStep)
  | .reset, u => !u.deleted

/-- The update of a conditional write. -/
def MfaLabel.set : MfaLabel → MfaUser → MfaUser
  | .look, u => u
  | .start _ stored expiresAt, u =>
      { u with
        mfaSecret := some stored, mfaEnabled := false, mfaRecoveryCodes := []
        mfaRecoveryCodesGeneratedAt := none, mfaLastTimeStep := none
        mfaEnrollmentExpiresAt := some expiresAt }
  | .clearExpired _ _, u =>
      { u with mfaSecret := none, mfaEnrollmentExpiresAt := none, mfaLastTimeStep := none }
  | .enable _ _ digests timeStep now, u =>
      { u with
        mfaEnabled := true, mfaRecoveryCodes := digests, mfaRecoveryCodesGeneratedAt := some now
        mfaLastTimeStep := some timeStep, mfaEnrollmentExpiresAt := none
        mfaEnrollmentRequired := false }
  | .disable, u =>
      { u with
        mfaSecret := none, mfaEnabled := false, mfaRecoveryCodes := []
        mfaRecoveryCodesGeneratedAt := none, mfaLastTimeStep := none
        mfaEnrollmentExpiresAt := none }
  | .replaceCodes digests now, u =>
      { u with mfaRecoveryCodes := digests, mfaRecoveryCodesGeneratedAt := some now }
  | .consume digest, u =>
      { u with mfaRecoveryCodes := u.mfaRecoveryCodes.filter (· ≠ digest) }
  | .mark _ _ timeStep, u => { u with mfaLastTimeStep := some timeStep }
  | .reset, u =>
      { u with
        mfaSecret := none, mfaEnabled := false, mfaRecoveryCodes := []
        mfaRecoveryCodesGeneratedAt := none, mfaLastTimeStep := none
        mfaEnrollmentExpiresAt := none, mfaEnrollmentRequired := true }

/-- The secrets and digests that a write was sent with. -/
def MfaLabel.drawsSecret : MfaLabel → List String
  | .start secret _ _ => [secret]
  | _ => []

def MfaLabel.drawsDigests : MfaLabel → List String
  | .enable _ _ digests _ _ => digests
  | .replaceCodes digests _ => digests
  | _ => []

/-- A conditional write of the user. -/
def MfaLabel.act (label : MfaLabel) (db : MfaDb) : MfaDb :=
  { db with
    user := if label.hits db.user then label.set db.user else db.user
    drawnSecrets := label.drawsSecret ++ db.drawnSecrets
    drawnDigests := label.drawsDigests ++ db.drawnDigests }

abbrev MfaProg := Prog MfaLabel MfaDb

namespace Mfa

def look {A : Type} (f : MfaDb → A) : MfaProg A := Prog.read .look f

/-- A conditional write: whether it matched. -/
def write (label : MfaLabel) : MfaProg Bool :=
  Prog.update label label.act fun db => label.hits db.user

/-- `findMfaState`. -/
def findMfaState : MfaProg (Option MfaUser) :=
  look fun db => if db.user.deleted then none else some db.user

/-- `loadState`. -/
def loadState : MfaProg (Except MfaError MfaUser) := do
  let user ← findMfaState
  match user with
  | some user => return .ok user
  | none => return .error (.notFound "User not found")

/-- `tenantMfaPolicy.isMfaRequired`. -/
def isMfaRequired (user : MfaUser) : MfaProg Bool :=
  if user.mfaEnrollmentRequired then return true else look MfaDb.workspaceRequired

/-! ## Codes -/

/-- `readSecret` and `matchTimeStep`: the secret and the step of a code that it accepts, with the
tolerance of one period. -/
def matchTimeStep (rt : MfaRuntime) (user : MfaUser) (code : String) :
    MfaProg (Option (String × String × Int)) :=
  match user.mfaSecret with
  | none => return none
  | some stored =>
      match rt.decrypt stored with
      | none => return none
      | some secret =>
          if secret.isEmpty || !isTotpCode code then return none
          else do
            let now ← look MfaDb.clock
            return (rt.verifyTotp secret code (now / 1000)).map fun step => (secret, stored, step)

/-- `verifyCode`. -/
def verifyCode (rt : MfaRuntime) (user : Option MfaUser) (code : String) : MfaProg Bool :=
  match user with
  | none => return false
  | some user =>
      if !user.mfaEnabled then return false
      else do
        let matched ← matchTimeStep rt user code
        match matched with
        | none => return false
        | some (secret, stored, step) => write (.mark secret stored step)

/-- `consumeRecoveryCode`: how many are left when the code was spent. The digests are sixty-four
lower-case digits, so that their bytes are the same when the texts are. -/
def consumeRecoveryCode (rt : MfaRuntime) (code : String) : MfaProg (Option Nat) :=
  match hashRecoveryCode rt code with
  | none => return none
  | some digest => do
      let state ← findMfaState
      match state with
      | none => return none
      | some state =>
          if state.mfaEnabled && state.mfaRecoveryCodes.contains digest then do
            let spent ← write (.consume digest)
            return if spent then some (state.mfaRecoveryCodes.length - 1) else none
          else return none

/-- The result of `reauthenticate`. -/
structure Reauthenticated where
  passwordOk : Bool
  secondOk : Bool
  remaining : Option Nat := none

/-- `reauthenticate`; whether the password is right is part of the request. -/
def reauthenticate (rt : MfaRuntime) (user : MfaUser) (passwordOk : Bool)
    (code recoveryCode : Option String) : MfaProg Reauthenticated :=
  if !passwordOk then return { passwordOk, secondOk := false }
  else if !user.mfaEnabled then return { passwordOk, secondOk := true }
  else
    match given code with
    | some code => do
        let secondOk ← verifyCode rt (some user) code
        return { passwordOk, secondOk }
    | none => do
        let remaining ← consumeRecoveryCode rt (recoveryCode.getD "")
        return { passwordOk, secondOk := remaining.isSome, remaining }

/-! ## The operations -/

/-- `loginChallenge` for the account that the login has read, as `userSecondFactor` answers it. -/
def loginChallenge (rt : MfaRuntime) (mfaCode recoveryCode : Option String) : MfaProg MfaResult := do
  let account ← look MfaDb.user
  if account.mfaEnabled then
    match given mfaCode, given recoveryCode with
    | none, none =>
        return .error
          { statusCode := 401, code := .mfaRequired
            message := "MFA verification code is required" }
    | some code, _ => do
        let user ← findMfaState
        let accepted ← verifyCode rt user code
        return if accepted then .ok (.signedIn false) else .error (.unauthorized "Invalid credentials")
    | none, some code => do
        let remaining ← consumeRecoveryCode rt code
        return if remaining.isSome then .ok (.signedIn false)
          else .error (.unauthorized "Invalid credentials")
  else do
    let required ← isMfaRequired account
    return .ok (.signedIn required)

/-- `!user.mfaEnabled && isMfaRequired(user)`. -/
def needsEnrollment (user : MfaUser) : MfaProg Bool :=
  if user.mfaEnabled then return false else isMfaRequired user

/-- `stepUp`. -/
def stepUp (rt : MfaRuntime) (passwordOk : Bool) (code recoveryCode : Option String) :
    MfaProg MfaResult :=
  loadState.andThen fun user => do
    if !user.active then return .error (.unauthorized "Session is no longer active")
    else do
      let mustEnroll ← needsEnrollment user
      if mustEnroll then
        return .error
          { statusCode := 403, code := .mfaEnrollmentRequired
            message := "Set up multi-factor authentication to continue" }
      else if user.mfaEnabled && (given code).isNone && (given recoveryCode).isNone then
        return .error codeMissing
      else do
        let check ← reauthenticate rt user passwordOk code recoveryCode
        if !check.passwordOk || !check.secondOk then return .error reauthFailed
        else do
          let marked ← look MfaDb.sessionLive
          return if marked then .ok .steppedUp
            else .error (.unauthorized "Session is no longer active")

def disable (rt : MfaRuntime) (passwordOk : Bool) (code recoveryCode : Option String) :
    MfaProg MfaResult :=
  loadState.andThen fun user =>
    if !user.mfaEnabled then return .error (.badRequest "MFA is not enabled for this account")
    else if (given code).isNone && (given recoveryCode).isNone then return .error codeMissing
    else do
      let check ← reauthenticate rt user passwordOk code recoveryCode
      if !check.passwordOk || !check.secondOk then return .error reauthFailed
      else do
        let updated ← write .disable
        return if updated then .ok .disabled
          else .error (.conflict "MFA is not enabled for this account")

/-- `enroll`, with the secret that is drawn and its encryption. -/
def enroll (secret stored : String) : MfaProg MfaResult :=
  loadState.andThen fun user =>
    if user.mfaEnabled then
      return .error (.conflict ("MFA is already enabled. Turn it off with your password and a " ++
        "current code before enrolling again."))
    else do
      let now ← look MfaDb.clock
      let updated ← write (.start secret stored (now + mfaEnrollmentTtlMs))
      return if updated then .ok .started else .error (.conflict "MFA is already enabled")

/-- `verifyEnrollment`, with the digests of the recovery codes that are drawn. -/
def verifyEnrollment (rt : MfaRuntime) (code : String) (digests : List String) :
    MfaProg MfaResult :=
  loadState.andThen fun user =>
    if user.mfaEnabled then return .error (.conflict "MFA is already enabled")
    else
      match user.mfaSecret with
      | none => return .error (.badRequest "Start MFA enrolment first")
      | some stored => do
          let now ← look MfaDb.clock
          if user.mfaEnrollmentExpiresAt.all (· ≤ now) then do
            let _ ← write (.clearExpired stored now)
            return .error (.gone "MFA enrollment expired. Start again.")
          else do
            let matched ← matchTimeStep rt user code
            match matched with
            | none => return .error (.badRequest "Invalid verification code")
            | some (secret, stored, step) => do
                let now ← look MfaDb.clock
                let updated ← write (.enable secret stored digests step now)
                return if updated then .ok .enrolled
                  else .error (.gone "MFA enrollment expired or changed. Start again.")

/-- `regenerateRecoveryCodes`, with the digests of the recovery codes that are drawn. -/
def regenerateRecoveryCodes (digests : List String) : MfaProg MfaResult :=
  loadState.andThen fun user =>
    if !user.mfaEnabled then return .error (.badRequest "MFA is not enabled for this account")
    else do
      let now ← look MfaDb.clock
      let updated ← write (.replaceCodes digests now)
      return if updated then .ok .regenerated
        else .error (.badRequest "MFA is not enabled for this account")

/-- `resetMemberMfa`. -/
def resetMemberMfa : MfaProg MfaResult := do
  let target ← findMfaState
  match target with
  | none => return .error (.notFound "Member not found")
  | some _ => do
      let allowed ← look MfaDb.mayReset
      if !allowed then
        return .error
          { statusCode := 403, code := .forbidden
            message :=
              "You cannot reset MFA for a member who holds permissions you do not hold" }
      else do
        let updated ← write .reset
        return if updated then .ok .reset else .error (.notFound "Member not found")

end Mfa

/-- The requests about the second factor of one user. -/
inductive MfaRequest where
  | loginChallenge (mfaCode recoveryCode : Option String)
  | stepUp (passwordOk : Bool) (code recoveryCode : Option String)
  | disable (passwordOk : Bool) (code recoveryCode : Option String)
  | enroll (secret stored : String)
  | verifyEnrollment (code : String) (digests : List String)
  | regenerateRecoveryCodes (digests : List String)
  | resetMemberMfa
  deriving DecidableEq, Repr

def MfaRequest.program (rt : MfaRuntime) : MfaRequest → MfaProg MfaResult
  | .loginChallenge mfaCode recoveryCode => Mfa.loginChallenge rt mfaCode recoveryCode
  | .stepUp passwordOk code recoveryCode => Mfa.stepUp rt passwordOk code recoveryCode
  | .disable passwordOk code recoveryCode => Mfa.disable rt passwordOk code recoveryCode
  | .enroll secret stored => Mfa.enroll secret stored
  | .verifyEnrollment code digests => Mfa.verifyEnrollment rt code digests
  | .regenerateRecoveryCodes digests => Mfa.regenerateRecoveryCodes digests
  | .resetMemberMfa => Mfa.resetMemberMfa

/-- Nothing is drawn twice. -/
def MfaDrawn (label : MfaLabel) (db _ : MfaDb) : Prop :=
  (∀ secret ∈ label.drawsSecret, secret ∉ db.drawnSecrets) ∧
    ∀ digest ∈ label.drawsDigests, digest ∉ db.drawnDigests

instance (label : MfaLabel) (db db' : MfaDb) : Decidable (MfaDrawn label db db') :=
  inferInstanceAs (Decidable (_ ∧ _))

/-- Any number of requests; a secret is stored so that it can be read again. From outside, the clock
goes on, and the account, the session and the policies change, but no field of the second
factor. -/
def mfaSystem (rt : MfaRuntime) : System Nat MfaLabel MfaDb (MfaRequest × MfaResult) where
  start := fun _ p => ∃ request : MfaRequest,
    (∀ secret stored, request = .enroll secret stored → rt.decrypt stored = some secret) ∧
      p = request.program rt >>= fun result => pure (request, result)
  env := fun db db' => db.clock ≤ db'.clock ∧ db'.drawnSecrets = db.drawnSecrets ∧
    db'.drawnDigests = db.drawnDigests ∧ ∃ deleted active,
      db'.user = { db.user with deleted, active }
  ok := MfaDrawn

abbrev MfaEvent := Event Nat MfaLabel MfaDb

abbrev MfaWorld := World Nat MfaLabel MfaDb

end AnalyticsBackend.Auth
