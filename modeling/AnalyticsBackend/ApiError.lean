/-!
# Operational errors

`utils/ApiError.js`: an HTTP status, a machine-readable code, a message and the field
errors of a refused request.
-/

namespace AnalyticsBackend

/-- The `ERROR_CODES` that the modelled operations raise. -/
inductive ErrorCode where
  | badRequest
  | notFound
  | conflict
  | forbidden
  | validationFailed
  | quotaExceeded
  | subscriptionWriteBlocked
  | invalidQuery
  | datasetNotReady
  | notImplemented
  | tooManyColumns
  | queryTimeout
  | lastSuperAdmin
  | tenantNotActive
  | accountNotActive
  | supportConsentRequired
  | supportTargetProtected
  | supportImpersonationCapExceeded
  | breakGlassApprovalDenied
  | supportGrantNotActive
  | dependencyBroken
  | metricInvalid
  | metricNotFound
  | metricExists
  | metricNotDraft
  | metricArchived
  | queryConcurrencyLimit
  | versionConflict
  | revisionNotFound
  | featureFlagNotFound
  | featureFlagExists
  | featureFlagSystem
  | featureFlagReadOnly
  | internalError
  deriving DecidableEq, Repr

/-- One entry of `errors`: the path of the field and what is wrong with it. -/
structure FieldError where
  field : String
  message : String
  deriving DecidableEq, Repr

structure ApiError where
  statusCode : Nat
  code : ErrorCode
  message : String
  errors : List FieldError := []
  deriving DecidableEq, Repr

namespace ApiError

def badRequest (message : String) (errors : List FieldError := []) : ApiError :=
  { statusCode := 400, code := .badRequest, message, errors }

def forbidden (message : String) : ApiError :=
  { statusCode := 403, code := .forbidden, message }

def notFound (message : String) : ApiError :=
  { statusCode := 404, code := .notFound, message }

def conflict (message : String) : ApiError :=
  { statusCode := 409, code := .conflict, message }

def notImplemented (message : String) : ApiError :=
  { statusCode := 501, code := .notImplemented, message }

end ApiError

end AnalyticsBackend
