import AnalyticsBackend.Flags.Flag

/-!
# The feature flag service

The versioned changes of `services/featureFlag.service.js`, with their validation, and the cached
resolution for a tenant.
-/

namespace AnalyticsBackend.Flags
open Lib

variable (env : FlagEnv)

/-! ## Errors -/

/-- 409 raised when the stored version moved on since the caller read it. -/
def versionConflict (currentVersion : Nat) : ApiError where
  statusCode := 409
  code := .versionConflict
  message := "This configuration was changed by someone else. Reload it and try again."
  errors := [⟨"version", s!"the current version is {currentVersion}"⟩]

def configError (statusCode : Nat) (code : ErrorCode) (message : String) : ApiError :=
  { statusCode, code, message }

def flagNotFound : ApiError := configError 404 .featureFlagNotFound "Feature flag not found"

def flagExists (key : String) : ApiError :=
  configError 409 .featureFlagExists s!"Feature flag \"{key}\" already exists"

def invalidInput (errors : List FieldError) : ApiError :=
  .badRequest "Invalid feature flag" errors

/-! ## Validation -/

/-- `typeof value === 'object'`, not null and no array: its fields. -/
def objectFields : Js → Option (List (String × Js))
  | .obj fields => some fields
  | .date _ => some []
  | _ => none

def propertyOf (value : Js) (name : String) : Js :=
  (objectFields value).elim .undefined fun fields => field fields name

def isUndefined : Js → Bool
  | .undefined => true
  | _ => false

def isLower (c : Char) : Bool := 'a' ≤ c && c ≤ 'z'

def isKeyChar (c : Char) : Bool := isLower c || c.isDigit || c = '_'

/-- `FLAG_KEY_PATTERN`: `^[a-z][a-z0-9_]*(?:\.[a-z0-9_]+)+$`. -/
def isFlagKey (key : String) : Bool :=
  match splitChars '.' key.toList with
  | (first :: more) :: name :: names =>
      isLower first && more.all isKeyChar &&
        (name :: names).all fun part => part ≠ [] && part.all isKeyChar
  | _ => false

def writableStrategies : List RolloutStrategy := [.all, .tenantId, .percentage]

def maxAllowlist : Nat := 1000

/-- `normaliseText`: the trimmed text, and the errors so far. -/
def normaliseText (value : Js) (field : String) (required : Bool) (max : Nat)
    (errors : List FieldError) : Option String × List FieldError :=
  match value with
  | .undefined => (none, if required then errors ++ [⟨field, s!"{field} is required"⟩] else errors)
  | .str s =>
      let v := trim s
      let missing := if required && v = "" then [⟨field, s!"{field} is required"⟩] else []
      let long := if max < jsLength v then [⟨field, s!"{field} must be at most {max} characters"⟩] else []
      (some v, errors ++ missing ++ long)
  | _ => (none, errors ++ [⟨field, s!"{field} must be a string"⟩])

def normaliseStrategy (value : Js) (base : RolloutStrategy) (errors : List FieldError) :
    RolloutStrategy × List FieldError :=
  match value with
  | .undefined => (base, errors)
  | value =>
      match writableStrategies.find? fun s => value.text = some s.text with
      | some strategy => (strategy, errors)
      | none =>
          let names := ", ".intercalate (writableStrategies.map (·.text))
          (base, errors ++ [⟨"rollout.strategy", s!"must be one of: {names}"⟩])

def normalisePercentage (value : Js) (base : ℚ) (errors : List FieldError) : ℚ × List FieldError :=
  let refused :=
    (base, errors ++ [⟨"rollout.percentage", "must be a whole number between 0 and 100"⟩])
  match value with
  | .undefined => (base, errors)
  | .num n =>
      match n.integer with
      | some k => if k < 0 || 100 < k then refused else (k, errors)
      | none => refused
  | _ => refused

/-- The ids of an allow-list, each once and in lower case, and the errors of the others. -/
def collectIds (items : List (Js × Nat)) (ids : List String) (errors : List FieldError) :
    List String × List FieldError :=
  match items with
  | [] => (ids, errors)
  | (item, index) :: rest =>
      match item.text.filter Mongo.isHexId with
      | none =>
          collectIds rest ids (errors ++ [⟨s!"rollout.tenantIds[{index}]", "must be a tenant id"⟩])
      | some id =>
          let id := id.toLower
          collectIds rest (if ids.contains id then ids else ids ++ [id]) errors

def indexOfId (items : List Js) (id : String) : Nat :=
  items.findIdx fun item => (item.text.map String.toLower) = some id

/-- The allow-list of a rollout, merged over that of the base; `findKnownTenantIds` is asked only while
there are no errors. -/
def normaliseTenantIds (value : Js) (base : List String) (checkTenants : Bool)
    (errors : List FieldError) : FlagProg (List String × List FieldError) :=
  match value with
  | .undefined => pure (base, errors)
  | .arr items =>
      if maxAllowlist < items.length then
        pure (base, errors ++ [⟨"rollout.tenantIds", s!"must hold at most {maxAllowlist} tenants"⟩])
      else do
        let (ids, errors) := collectIds items.zipIdx [] errors
        if checkTenants && !ids.isEmpty && errors.isEmpty then do
          let known ← look fun db => db.tenants.filter ids.contains
          let unknown := ids.filter fun id => !known.contains id
          pure (ids, errors ++ unknown.map fun id =>
            ⟨s!"rollout.tenantIds[{indexOfId items id}]", s!"tenant {id} does not exist"⟩)
        else pure (ids, errors)
  | _ => pure (base, errors ++ [⟨"rollout.tenantIds", "must be an array of tenant ids"⟩])

/-- Validate a rollout, merged over `base` for partial updates. -/
def normaliseRollout (input : Js) (base : Rollout) (checkTenants : Bool) (errors : List FieldError) :
    FlagProg (Rollout × List FieldError) :=
  match input with
  | .undefined => pure (base, errors)
  | input =>
      match objectFields input with
      | none => pure (base, errors ++ [⟨"rollout", "rollout must be an object"⟩])
      | some fields => do
          let (strategy, errors) := normaliseStrategy (field fields "strategy") base.strategy errors
          let (percentage, errors) :=
            normalisePercentage (field fields "percentage") base.percentage errors
          let (tenantIds, errors) ←
            normaliseTenantIds (field fields "tenantIds") base.tenantIds checkTenants errors
          pure ({ strategy, tenantIds, percentage }, errors)

/-- The fields to store that `normaliseInput` returns. -/
structure FlagInput where
  key : Option String
  name : Option String
  description : Option String
  enabled : Option Bool
  rollout : Option Rollout
  deriving DecidableEq, Repr

def normaliseKey (value : Js) (errors : List FieldError) : Option String × List FieldError :=
  match value.text.filter fun key => isFlagKey key && jsLength key ≤ 100 with
  | some key => (some key, errors)
  | none => (none, errors ++ [⟨"key",
      "must look like \"namespace.feature\" (lowercase letters, digits, underscores; at least one dot)"⟩])

/-- The switch of a flag. -/
def normaliseEnabled (value : Js) (errors : List FieldError) : Option Bool × List FieldError :=
  match value with
  | .undefined => (none, errors)
  | .bool b => (some b, errors)
  | _ => (none, errors ++ [⟨"enabled", "enabled must be true or false"⟩])

def normaliseFields (fields : List (String × Js)) (creating : Bool) : FlagInput × List FieldError :=
  let (key, errors) := if creating then normaliseKey (field fields "key") [] else (none, [])
  let (name, errors) := normaliseText (field fields "name") "name" creating 120 errors
  let (description, errors) :=
    normaliseText (field fields "description") "description" false 500 errors
  let (enabled, errors) := normaliseEnabled (field fields "enabled") errors
  let type := field fields "type"
  let errors :=
    if isUndefined type || type.text = some "boolean" then errors
    else errors ++ [⟨"type", "only boolean flags are supported"⟩]
  ({ key, name, description, enabled, rollout := none }, errors)

def acceptInput (input : FlagInput) (errors : List FieldError) : FlagProg (Result FlagInput) :=
  if errors.isEmpty then succeed input else fail (invalidInput errors)

/-- Validate a create/update payload into the fields to store; `base` is the rollout of the flag that is
updated. -/
def normaliseInput (input : Js) (base : Rollout) (creating : Bool) : FlagProg (Result FlagInput) :=
  match objectFields input with
  | none => fail (invalidInput [⟨"body", "must be an object"⟩])
  | some fields =>
      let (input, errors) := normaliseFields fields creating
      if isUndefined (field fields "rollout") && !creating then acceptInput input errors
      else do
        let (rollout, errors) ← normaliseRollout (field fields "rollout") base true errors
        acceptInput { input with rollout := some rollout } errors

/-! ## History -/

/-- Record the state that existed before the first tracked change. -/
def ensureBaseline (flag : FeatureFlag) : FlagProg (Option FlagRevision) := do
  let latest ← look fun db => db.latestRevision flag.key
  match latest with
  | some revision => pure (some revision)
  | none => do
      let revision : FlagRevision :=
        { resourceKey := flag.key, version := flag.version, action := .baseline, state := stateOf flag
          changedBy := { type := "system", id := none } }
      let duplicate ← step (.revise revision) fun db => db.revised revision
      if duplicate then look fun db => db.latestRevision flag.key else pure (some revision)

def recordRevision (revision : FlagRevision) : FlagProg (Result Unit) := do
  let duplicate ← step (.revise revision) fun db => db.revised revision
  if duplicate then fail (versionConflict revision.version) else succeed ()

def changedBy (actor : Option Actor) : Actor := { actorOf actor with display := none }

def sliceReason (reason : Option String) : Option String :=
  (reason.filter (· ≠ "")).map (slice 500)

/-- `invalidateCatalogue`. -/
def invalidateCatalogue : FlagProg Unit := step .del fun _ => ()

/-! ## Changes -/

structure FlagChange where
  expectedVersion : Option Int := none
  set : FlagSet
  action : FlagAction
  actor : Option Actor
  reason : Option String
  rolledBackFrom : Option Int := none
  includeDeleted : Bool := false

/-- What follows the stored write: revision, cache invalidation, audit. -/
def publishChange (flag : Option FeatureFlag) (updated : FeatureFlag) (action : FlagAction)
    (actor : Option Actor) (reason : Option String) (rolledBackFrom : Option Int) :
    FlagProg (Result FeatureFlag) :=
  let revision : FlagRevision :=
    { resourceKey := updated.key, version := updated.version, action, state := stateOf updated
      rolledBackFrom, reason := sliceReason reason, changedBy := changedBy actor }
  (recordRevision revision).andThen fun _ => do
    invalidateCatalogue
    let event : FlagEvent :=
      { actor := actorOf actor, action := action.event, resourceKey := updated.key
        before := flag.map fun f => (stateOf f, f.version), after := (stateOf updated, updated.version)
        rolledBackFrom, reason }
    step (.audit event) fun _ => ()
    succeed updated

/-- Versioned change: conditional write, revision, cache invalidation, audit. -/
def applyFlagChange (flag : FeatureFlag) (change : FlagChange) : FlagProg (Result FeatureFlag) :=
  if change.expectedVersion.any fun v => v ≠ (flag.version : Int) then fail (versionConflict flag.version)
  else do
    let _ ← ensureBaseline flag
    let set := { change.set with updatedBy := actorId change.actor }
    let written ← step (.update flag.id flag.version set change.includeDeleted) fun db =>
      db.updated flag.id flag.version set change.includeDeleted
    match written with
    | .none => do
        let latest ← look fun db => db.findByKeyIncludingDeleted (env.castKey flag.key)
        fail (versionConflict ((latest.map FeatureFlag.version).getD flag.version))
    | .duplicate => pure (.error .duplicateKey)
    | .invalid => pure (.error .validationError)
    | .done updated =>
        publishChange (some flag) updated change.action change.actor change.reason change.rolledBackFrom

/-- Load a live flag by key or throw a typed 404. -/
def loadFlag (key : String) : FlagProg (Result FeatureFlag) := do
  let flag ← look fun db => db.findByKey (env.castKey key)
  match flag with
  | none => fail flagNotFound
  | some flag => succeed flag

/-- Create a flag; `id` is what the driver draws. A deleted key is revived, with its history. -/
def createFlag (id : String) (data : Js) (actor : Option Actor) (reason : Option String) :
    FlagProg (Result FeatureFlag) :=
  (normaliseInput data {} true).andThen fun input => do
    let key := input.key.getD ""
    let existing ← look fun db => db.findByKeyIncludingDeleted (env.castKey key)
    match existing with
    | some flag =>
        if flag.live then fail (flagExists key)
        else
          applyFlagChange env flag
            { set :=
                { name := input.name, description := some (input.description.getD "")
                  enabled := some (input.enabled.getD false), rollout := input.rollout
                  deletedAt := some none, deletedBy := some none }
              action := .create, actor, reason, includeDeleted := true }
    | none => do
        let flag : FeatureFlag :=
          { id, key, name := input.name.getD "", description := input.description.getD ""
            enabled := input.enabled.getD false, rollout := input.rollout.getD {}, version := 1
            updatedBy := actorId actor }
        let written ← step (.insert flag) fun db => db.inserted flag
        match written with
        | .done created => publishChange none created .create actor reason none
        | _ => fail (flagExists key)

/-- Update name / description / enabled / rollout (partial; rollout merges). -/
def updateFlag (key : String) (patch : Js) (version : Option Int) (actor : Option Actor)
    (reason : Option String) : FlagProg (Result FeatureFlag) :=
  (loadFlag env key).andThen fun flag =>
    if flag.isReadonly &&
        (!isUndefined (propertyOf patch "enabled") || !isUndefined (propertyOf patch "rollout")) then
      fail (configError 403 .featureFlagReadOnly "This flag is read-only")
    else
      (normaliseInput patch flag.rollout false).andThen fun input =>
        if input = ⟨none, none, none, none, none⟩ then
          fail (invalidInput
            [⟨"body", "provide at least one of name, description, enabled, rollout"⟩])
        else
          applyFlagChange env flag
            { expectedVersion := version
              set :=
                { name := input.name, description := input.description, enabled := input.enabled
                  rollout := input.rollout }
              action := .update, actor, reason }

/-- Soft-delete a non-system flag. -/
def deleteFlag (key : String) (version : Option Int) (actor : Option Actor)
    (reason : Option String) : FlagProg (Result FeatureFlag) :=
  (loadFlag env key).andThen fun flag =>
    if systemFlagKeys.contains flag.key then
      fail (configError 409 .featureFlagSystem
        "System flags cannot be deleted. Disable the flag instead.")
    else do
      let now ← look FlagDb.clock
      applyFlagChange env flag
        { expectedVersion := version
          set := { deletedAt := some (some now), deletedBy := some (actorId actor) }
          action := .delete, actor, reason }

/-- A recorded rollout, as the value that is checked again. -/
def Rollout.js (rollout : Rollout) : Js :=
  .obj
    [("strategy", .str rollout.strategy.text), ("tenantIds", .arr (rollout.tenantIds.map .str)),
      ("percentage", .num (.finite rollout.percentage))]

/-- Restore the exact state of an earlier version. -/
def rollbackFlag (key : String) (toVersion : Int) (version : Option Int) (actor : Option Actor)
    (reason : Option String) : FlagProg (Result FeatureFlag) := do
  let flag ← look fun db => db.findByKeyIncludingDeleted (env.castKey key)
  match flag with
  | none => fail flagNotFound
  | some flag => do
      let target ← look fun db => db.findVersion flag.key toVersion
      match target with
      | none =>
          fail (configError 404 .revisionNotFound s!"Version {toVersion} was not found in this history")
      | some target =>
          if target.state.deleted then
            fail (.badRequest "Cannot roll back to a deleted version"
              [⟨"toVersion", "that version is a deletion; delete the flag instead"⟩])
          else if flag.isReadonly then
            fail (configError 403 .featureFlagReadOnly "This flag is read-only")
          else do
            let (rollout, errors) ← normaliseRollout target.state.rollout.js {} false []
            if errors.isEmpty then
              applyFlagChange env flag
                { expectedVersion := version
                  set :=
                    { name := some target.state.name, description := some target.state.description
                      enabled := some target.state.enabled, rollout := some rollout
                      deletedAt := some none, deletedBy := some none }
                  action := .rollback, actor, reason, rolledBackFrom := some toVersion
                  includeDeleted := true }
            else fail (invalidInput errors)

/-! ## Resolution -/

def resolveAll (catalogue : List FeatureFlag) (tenantId : Option String) : List (String × Bool) :=
  catalogue.foldl (fun out flag => JsObject.set out flag.key (evaluateFlag env flag tenantId)) []

/-- `cache.getOrSet` of the catalogue. -/
def getOrSetCatalogue : FlagProg (List FeatureFlag) := do
  let cached ← step .get FlagDb.cached
  match cached with
  | some catalogue => pure catalogue
  | none => do
      let value ← step .load FlagDb.findEnabled
      step (.set value) fun _ => ()
      pure value

/-- Resolve the effective value of every enabled flag for a tenant. -/
def resolveForTenant (tenantId : Option String) : FlagProg (List (String × Bool)) := do
  let flags ← getOrSetCatalogue
  pure (resolveAll env flags tenantId)

/-- Whether one flag is on for a tenant. -/
def isEnabled (key : String) (tenantId : Option String) : FlagProg Bool := do
  let flags ← resolveForTenant env tenantId
  pure (flags.lookup key = some true)

end AnalyticsBackend.Flags
