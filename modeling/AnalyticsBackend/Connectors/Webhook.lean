import AnalyticsBackend.Lib.Interleaving
import AnalyticsBackend.Lib.Js
import Mathlib.Data.Rat.Floor

/-!
# Inbound webhooks

`handleWebhook` of `services/connector.service.js` for one connector, with the signature checks of
`modules/connectors/webhook/webhook.verify.js`, the replay store of `webhook.replay.js` and the
`ingest` of `webhook.connector.js`. The HMAC, the hash of the replay keys and `JSON.parse` are the
`WebhookRuntime`. Instants are milliseconds, timestamps and windows are seconds.
-/

namespace AnalyticsBackend.Connectors
open Lib

abbrev Bytes := List UInt8

/-- The hexadecimal HMAC-SHA256 of some bytes under a secret, the key of a replay claim,
`JSON.parse` of a body, and the text of a number. -/
structure WebhookRuntime where
  hmacHex : String → Bytes → String
  keyFor : String → String → String
  parseJson : Bytes → Option Js
  numberText : ℚ → String

/-! ## Errors -/

/-- The `CONNECTOR_ERROR_CODES` of this surface. -/
inductive ConnectorErrorCode where
  | payloadInvalid
  | connectorPaused
  | tenantNotActive
  | signatureInvalid
  | signatureMissing
  | signatureMalformed
  | legacySignatureRejected
  | timestampMissing
  | timestampInvalid
  | timestampOutOfWindow
  | replayed
  | unsupportedMediaType
  | payloadTooLarge
  | tooManyRecords
  | quotaExceeded
  | queueUnavailable
  deriving DecidableEq, Repr

structure ConnectorError where
  code : ConnectorErrorCode
  statusCode : Nat
  message : String
  deriving DecidableEq, Repr

/-- `WebhookSignatureError`. -/
def signatureError (message : String) (code : ConnectorErrorCode) : ConnectorError :=
  { code, statusCode := 401, message }

/-- The answer to an unknown token and to a wrong signature. -/
def invalidSignature : ConnectorError := signatureError "Invalid webhook signature" .signatureInvalid

/-- `ConnectorValidationError`. -/
def validationError (message : String) : ConnectorError :=
  { code := .payloadInvalid, statusCode := 422, message }

/-! ## Requests -/

structure WebhookRequest where
  webhookToken : String
  rawBody : Bytes
  contentType : Option String
  signature : Option String
  timestamp : Option String
  deriving DecidableEq, Repr

/-- `SIGNATURE_VERSIONS`. -/
inductive SignatureVersion where
  | legacy
  | timestamped
  deriving DecidableEq, Repr

/-- `\w`, `.`, `+` and `-`. -/
def isMediaChar (c : Char) : Bool :=
  c.isAlphanum || c = '_' || c = '.' || c = '+' || c = '-'

def isJsonTail (s : List Char) : Bool :=
  "json".toList.isPrefixOf s &&
    match (s.drop 4).dropWhile isJsSpace with
    | [] => true
    | c :: _ => c = ';'

/-- `JSON_CONTENT_TYPE_RE`. -/
def isJsonContentType (value : String) : Bool :=
  let s := value.toList.map Char.toLower
  "application/".toList.isPrefixOf s &&
    let rest := s.drop 12
    (List.range (rest.length + 1)).any fun n =>
      let suffix := rest.take n
      (suffix = [] ||
        suffix.getLast? = some '+' && suffix.dropLast ≠ [] && suffix.dropLast.all isMediaChar) &&
        isJsonTail (rest.drop n)

/-- `WEBHOOK_TOKEN_RE`. -/
def isWebhookToken (token : String) : Bool :=
  let s := token.toList
  20 ≤ s.length && s.length ≤ 128 && s.all fun c => c.isAlphanum || c = '_' || c = '-'

/-! ## Signatures -/

def maxFutureSkewSeconds : Int := 60

def maxWebhookToleranceSeconds : ℚ := 3600

/-- Bytes covered by a v2 signature: the timestamp, a dot and the raw body. -/
def signedPayload (timestamp : Nat) (rawBody : Bytes) : Bytes :=
  (Nat.repr timestamp).toList.map (fun c => UInt8.ofNat c.toNat) ++ 46 :: rawBody

def isHexDigit (c : Char) : Bool :=
  '0' ≤ c && c ≤ '9' || 'a' ≤ c && c ≤ 'f' || 'A' ≤ c && c ≤ 'F'

def isHex64 (s : List Char) : Bool := s.length = 64 && s.all isHexDigit

structure Candidate where
  version : SignatureVersion
  hex : String
  deriving DecidableEq, Repr

def parseCandidate (part : List Char) : Except ConnectorError Candidate :=
  match splitChars '=' (trim (String.ofList part)).toList with
  | [tag, hex] =>
      if !isHex64 hex then
        .error (signatureError
          "Malformed X-Saas-Signature header: expected \"v2=<64 hex characters>\""
          .signatureMalformed)
      else
        let hex := String.ofList (hex.map Char.toLower)
        if tag = "v2".toList then .ok { version := .timestamped, hex }
        else if tag = "sha256".toList then .ok { version := .legacy, hex }
        else
          .error (signatureError "Unsupported signature scheme: expected \"v2=<hex>\""
            .signatureMalformed)
  | _ =>
      .error (signatureError
        "Malformed X-Saas-Signature header: expected \"v2=<64 hex characters>\""
        .signatureMalformed)

/-- Parse `X-Saas-Signature`. -/
def parseSignatureHeader (value : Option String) : Except ConnectorError (List Candidate) :=
  match value with
  | none => .error (signatureError "Missing X-Saas-Signature header" .signatureMissing)
  | some s =>
      if (trim s).isEmpty then
        .error (signatureError "Missing X-Saas-Signature header" .signatureMissing)
      else if 1024 < jsLength s then
        .error (signatureError "Malformed X-Saas-Signature header" .signatureMalformed)
      else (splitChars ',' s.toList).mapM parseCandidate

def timestampMissing : ConnectorError :=
  signatureError "Missing X-Saas-Timestamp header (unix seconds)" .timestampMissing

/-- `Number` of a string of decimal digits. -/
def decimalValue (digits : List Char) : Nat :=
  digits.foldl (fun n c => 10 * n + (c.toNat - '0'.toNat)) 0

/-- Parse `X-Saas-Timestamp`: no value when it is absent and not required. -/
def parseTimestampHeader (value : Option String) (required : Bool) :
    Except ConnectorError (Option Nat) :=
  let trimmed := trim (value.getD "")
  if trimmed.isEmpty then if required then .error timestampMissing else .ok none
  else if trimmed.toList.length ≤ 11 && trimmed.toList.all Char.isDigit then
    .ok (some (decimalValue trimmed.toList))
  else
    .error (signatureError "Malformed X-Saas-Timestamp header: expected unix epoch seconds"
      .timestampInvalid)

def ageSeconds (epochSeconds : Nat) (nowMs : Int) : Int := nowMs / 1000 - epochSeconds

/-- `assertTimestampInWindow`: refuse a timestamp outside the window. -/
def assertTimestampInWindow (rt : WebhookRuntime) (epochSeconds : Nat) (toleranceSeconds : ℚ)
    (nowMs : Int) : Except ConnectorError Unit :=
  if toleranceSeconds < ageSeconds epochSeconds nowMs ∨
      ageSeconds epochSeconds nowMs < -maxFutureSkewSeconds then
    .error (signatureError
      ("X-Saas-Timestamp is outside the " ++ rt.numberText toleranceSeconds ++
        "s window; sign each delivery with the current time")
      .timestampOutOfWindow)
  else .ok ()

/-- What the checks before the secret find. -/
structure Precheck where
  version : SignatureVersion
  candidates : List String
  timestamp : Option Nat
  deriving DecidableEq, Repr

/-- The connector, its decrypted config, and the settings of the server. -/
structure WebhookConnector where
  id : String
  webhookToken : String
  webhookSignatureVersion : SignatureVersion
  webhookToleranceSeconds : Option ℚ
  signingSecret : String
  toleranceSeconds : Option ℚ
  requireTimestamp : Bool
  legacySignaturesEnabled : Bool
  defaultToleranceSeconds : ℚ
  maxBodyBytes : Nat
  maxRecords : Nat

/-- The window of the check before the config is loaded. -/
def WebhookConnector.precheckTolerance (c : WebhookConnector) : ℚ :=
  c.webhookToleranceSeconds.getD
    (match c.webhookSignatureVersion with
    | .timestamped => c.defaultToleranceSeconds
    | .legacy => maxWebhookToleranceSeconds)

/-- The one effective window for both schemes. -/
def WebhookConnector.effectiveTolerance (c : WebhookConnector) : ℚ :=
  (c.webhookToleranceSeconds.or c.toleranceSeconds).getD c.defaultToleranceSeconds

def WebhookConnector.acceptsLegacy (c : WebhookConnector) : Bool :=
  c.webhookSignatureVersion = .legacy && c.legacySignaturesEnabled

def candidatesOf (version : SignatureVersion) (parsed : List Candidate) : List String :=
  (parsed.filter fun c => c.version = version).map Candidate.hex

/-- `precheckWebhookHeaders`: the checks before the signing key is derived. -/
def precheckWebhookHeaders (rt : WebhookRuntime) (c : WebhookConnector)
    (request : WebhookRequest) (nowMs : Int) : Except ConnectorError Precheck := do
  let parsed ← parseSignatureHeader request.signature
  let v2 := candidatesOf .timestamped parsed
  if v2 ≠ [] then
    match ← parseTimestampHeader request.timestamp true with
    | some timestamp => do
        assertTimestampInWindow rt timestamp c.precheckTolerance nowMs
        return { version := .timestamped, candidates := v2, timestamp := some timestamp }
    | none => .error timestampMissing
  else if !c.acceptsLegacy then
    .error (signatureError
      ("This webhook requires timestamp-bound signatures: send X-Saas-Timestamp and " ++
        "X-Saas-Signature: v2=HMAC_SHA256(secret, \"<timestamp>.<body>\")")
      .legacySignatureRejected)
  else do
    let timestamp ← parseTimestampHeader request.timestamp false
    match timestamp with
    | some t => assertTimestampInWindow rt t maxWebhookToleranceSeconds nowMs
    | none => pure ()
    return { version := .legacy, candidates := candidatesOf .legacy parsed, timestamp }

/-- The bytes that a request's signature has to cover. -/
def Precheck.payload (precheck : Precheck) (rawBody : Bytes) : Bytes :=
  match precheck.version, precheck.timestamp with
  | .timestamped, some timestamp => signedPayload timestamp rawBody
  | _, _ => rawBody

/-- `verifyPrechecked`: the matching signature. Both sides of the comparison are sixty-four
lower-case digits, so that their bytes are the same when the texts are. -/
def verifyPrechecked (rt : WebhookRuntime) (precheck : Precheck) (rawBody : Bytes)
    (secret : String) : Except ConnectorError String :=
  if secret.isEmpty then .error invalidSignature
  else
    match precheck.candidates.find? fun hex =>
        rt.hmacHex secret (precheck.payload rawBody) = hex with
    | some signature => .ok signature
    | none => .error invalidSignature

/-- The checks with the config, of a request that has passed the ones before it. -/
def verifyWithConfig (rt : WebhookRuntime) (c : WebhookConnector) (request : WebhookRequest)
    (precheck : Precheck) (nowMs : Int) : Except ConnectorError String := do
  if precheck.version = .legacy ∧ precheck.timestamp = none ∧ c.requireTimestamp = true then
    .error timestampMissing
  else
    match precheck.timestamp with
    | some timestamp => assertTimestampInWindow rt timestamp c.effectiveTolerance nowMs
    | none => pure ()
    verifyPrechecked rt precheck request.rawBody c.signingSecret

/-! ## The store -/

/-- The replay store with the end of each entry, whether the connector and its workspace are
active and the quota and the queue take a delivery, the jobs that were queued, and the clock. -/
structure WebhookDb where
  clock : Int
  entries : String → Option Int
  paused : Bool
  tenantActive : Bool
  quotaAdmits : Bool
  queueAccepts : Bool
  jobs : List (List Js)

/-- A request at its claim: what its headers say, and when its timestamp was checked last. -/
structure ClaimAttempt where
  request : WebhookRequest
  precheck : Precheck
  checkedAt : Int

/-- The label of an atomic step. -/
inductive WebhookLabel where
  | look
  | claim (key : String) (ttlSeconds : Int) (attempt : ClaimAttempt)
  | release (key : String)
  | enqueue (records : List Js)

abbrev WebhookProg := Prog WebhookLabel WebhookDb

def look {A : Type} (f : WebhookDb → A) : WebhookProg A := Prog.read .look f

def WebhookDb.unclaimed (db : WebhookDb) (key : String) : Bool :=
  (db.entries key).all fun expiresAt => expiresAt ≤ db.clock

/-- `SET NX EX`. -/
def WebhookDb.setIfAbsent (key : String) (ttlSeconds : Int) (db : WebhookDb) : WebhookDb :=
  if db.unclaimed key then
    { db with entries := Function.update db.entries key (some (db.clock + 1000 * ttlSeconds)) }
  else db

/-- `releaseDelivery`. -/
def WebhookDb.del (key : String) (db : WebhookDb) : WebhookDb :=
  { db with entries := Function.update db.entries key none }

/-- `claimDelivery` of the replay store: whether the claim is the first. -/
def claimDelivery (key : String) (ttlSeconds : ℚ) (attempt : ClaimAttempt) : WebhookProg Bool :=
  let ttl := max 1 ⌈ttlSeconds⌉
  Prog.update (.claim key ttl attempt) (WebhookDb.setIfAbsent key ttl) fun db => db.unclaimed key

def releaseDelivery (key : String) : WebhookProg Unit :=
  Prog.update (.release key) (WebhookDb.del key) fun _ => ()

/-! ## The handler -/

/-- `ingest`: the records of a payload. -/
def ingest : Js → List Js
  | .undefined | .null => []
  | .arr items => items
  | .obj fields =>
      match field fields "events", field fields "data" with
      | .arr events, _ => events
      | _, .arr data => data
      | _, _ => [.obj fields]
  | payload => [.obj [("value", payload)]]

/-- `{ accepted: true, received, signatureVersion }`. -/
structure Accepted where
  received : Nat
  signatureVersion : SignatureVersion
  deriving DecidableEq, Repr

abbrev WebhookResult := Except ConnectorError Accepted

/-- A refusal that lets the sender try again forgets the claim. -/
def refuseRetryable (key : String) (error : ConnectorError) : WebhookProg WebhookResult := do
  releaseDelivery key
  return .error error

/-- A claimed delivery: the payload, the quota and the queue. A payload error is deterministic for
this body and keeps the claim. -/
def deliver (rt : WebhookRuntime) (c : WebhookConnector) (request : WebhookRequest)
    (version : SignatureVersion) (key : String) : WebhookProg WebhookResult :=
  match rt.parseJson request.rawBody with
  | none => return .error (validationError "Webhook body must be valid JSON")
  | some payload =>
      let records := ingest payload
      if c.maxRecords < records.length then
        return .error
          { code := .tooManyRecords, statusCode := 413
            message := s!"A webhook delivery may carry at most {c.maxRecords} records." }
      else if records.isEmpty then return .ok { received := 0, signatureVersion := version }
      else do
        let admitted ← look WebhookDb.quotaAdmits
        if admitted then
          let queued ← Prog.update (.enqueue records)
            (fun db => if db.queueAccepts then { db with jobs := records :: db.jobs } else db)
            WebhookDb.queueAccepts
          if queued then return .ok { received := records.length, signatureVersion := version }
          else
            refuseRetryable key
              { code := .queueUnavailable, statusCode := 503, message := "queue unavailable" }
        else
          refuseRetryable key
            { code := .quotaExceeded, statusCode := 409, message := "quota exceeded" }

/-- The checks that need neither the connector nor the headers of the signature. -/
def checkRequest (c : WebhookConnector) (request : WebhookRequest) : Except ConnectorError Unit :=
  if !isWebhookToken request.webhookToken then .error invalidSignature
  else if !isJsonContentType (request.contentType.getD "") then
    .error
      { code := .unsupportedMediaType, statusCode := 415
        message := "Webhook bodies must be JSON (Content-Type: application/json)." }
  else if request.rawBody.isEmpty then
    .error (validationError "Webhook body must be a non-empty JSON document")
  else if c.maxBodyBytes < request.rawBody.length then
    .error
      { code := .payloadTooLarge, statusCode := 413
        message := s!"Webhook bodies are limited to {c.maxBodyBytes / 1024} KB." }
  else if request.webhookToken ≠ c.webhookToken then .error invalidSignature
  else .ok ()

def checkActive (paused tenantActive : Bool) : Except ConnectorError Unit :=
  if paused then
    .error
      { code := .connectorPaused, statusCode := 409
        message := "This connector is paused. Resume it to sync or receive webhook data." }
  else if !tenantActive then
    .error
      { code := .tenantNotActive, statusCode := 403
        message := "This workspace is not active, so syncs and webhook ingestion are disabled." }
  else .ok ()

def claimAndDeliver (rt : WebhookRuntime) (c : WebhookConnector) (request : WebhookRequest)
    (precheck : Precheck) (signature : String) (nowMs : Int) : WebhookProg WebhookResult := do
  let key := rt.keyFor c.id signature
  let fresh ← claimDelivery key (c.effectiveTolerance + maxFutureSkewSeconds + 60)
    { request, precheck, checkedAt := nowMs }
  if fresh then deliver rt c request precheck.version key
  else
    return .error
      { code := .replayed, statusCode := 409
        message := "This delivery was already received. Sign every delivery with a new timestamp." }

/-- `handleWebhook`. -/
def handleWebhook (rt : WebhookRuntime) (c : WebhookConnector) (request : WebhookRequest) :
    WebhookProg WebhookResult :=
  match checkRequest c request with
  | .error e => return .error e
  | .ok _ => do
      let (paused, tenantActive) ← look fun db => (db.paused, db.tenantActive)
      match checkActive paused tenantActive with
      | .error e => return .error e
      | .ok _ => do
          let now ← look WebhookDb.clock
          match precheckWebhookHeaders rt c request now with
          | .error e => return .error e
          | .ok precheck => do
              let later ← look WebhookDb.clock
              match verifyWithConfig rt c request precheck later with
              | .error e => return .error e
              | .ok signature => claimAndDeliver rt c request precheck signature later

/-! ## Senders and adversaries -/

/-- A delivery of the sender: signed with the v2 scheme, and `plain` with the plain scheme too. -/
structure Delivery where
  timestamp : Nat
  body : Bytes
  plain : Bool
  deriving DecidableEq, Repr

def Signed (genuine : Set Delivery) (text : Bytes) : Prop :=
  ∃ d ∈ genuine, text = signedPayload d.timestamp d.body ∨ d.plain = true ∧ text = d.body

/-- The texts that a signature of a request may be about. -/
def WebhookRequest.texts (request : WebhookRequest) : List Bytes :=
  request.rawBody ::
    match parseTimestampHeader request.timestamp true with
    | .ok (some timestamp) => [signedPayload timestamp request.rawBody]
    | _ => []

/-- A request that forges nothing: of the texts it is about, its candidates sign only those that
the sender has signed. -/
def Unforged (rt : WebhookRuntime) (c : WebhookConnector) (genuine : Set Delivery)
    (request : WebhookRequest) : Prop :=
  ∀ parsed, parseSignatureHeader request.signature = .ok parsed → ∀ candidate ∈ parsed,
    ∀ text ∈ request.texts, rt.hmacHex c.signingSecret text = candidate.hex → Signed genuine text

/-- What a request is about: the body, and the timestamp when it is presented with a v2
signature. -/
def WebhookRequest.carries (request : WebhookRequest) (d : Delivery) : Prop :=
  request.rawBody = d.body ∧
    ∀ parsed, parseSignatureHeader request.signature = .ok parsed →
      candidatesOf .timestamped parsed ≠ [] →
        parseTimestampHeader request.timestamp true = .ok (some d.timestamp)

/-- Any number of requests that forge nothing; the clock goes on, and what the quota, the queue and
the tenant administration say may change at any moment. -/
def webhookSystem (rt : WebhookRuntime) (c : WebhookConnector) (genuine : Set Delivery)
    (ok : WebhookLabel → WebhookDb → WebhookDb → Prop) :
    System Nat WebhookLabel WebhookDb (WebhookRequest × WebhookResult) where
  start := fun _ p => ∃ request, Unforged rt c genuine request ∧
    p = handleWebhook rt c request >>= fun result => pure (request, result)
  env := fun db db' => db'.entries = db.entries ∧ db.clock ≤ db'.clock
  ok := ok

end AnalyticsBackend.Connectors
