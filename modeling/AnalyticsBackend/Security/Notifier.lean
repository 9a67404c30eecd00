import AnalyticsBackend.Security.Alert

/-!
# The on-call notifier

`services/securityDetection/notifier.js` with its default sinks, and the on-call targets of
`services/securityDetection/config.js`. The delivery pipeline takes no payload here, so messages and
payloads are left out, and so are security events.
-/

namespace AnalyticsBackend.Security
open Lib Mongo Delivery

/-! ## Targets -/

/-- What `new URL` makes of a text. -/
structure WebhookUrl where
  href : String
  protocol : String
  hostname : String
  username : String
  password : String
  origin : String
  deriving DecidableEq, Repr

/-- A setting of e-mail addresses. -/
inductive EmailSetting where
  | missing
  | text (value : String)
  | list (items : List String)
  deriving DecidableEq, Repr

/-- `env.securityDetection`, `env.delivery`, and the platform settings of the targets. A webhook is
`none` where its text is no URL. -/
structure DetectionSettings where
  settleSec : Int
  initialLookbackMinutes : Int
  maxCatchUpHours : Int
  falsePositiveSuppressHours : Int
  notifyMinSeverity : Option Severity
  isProduction : Bool
  notifyEmails : EmailSetting
  webhookUrl : Option WebhookUrl
  emailsSetting : EmailSetting
  webhookSetting : Option WebhookUrl
  delivery : DeliveryEnv
  sha256 : String → String

def MAX_NOTIFY_EMAILS : Nat := 20

/-- `parseEmails`. -/
def parseEmails (value : EmailSetting) : Option (List String) :=
  let parse (items : List String) :=
    ((items.map fun item => (trim item).toLower).filter emailRe).take MAX_NOTIFY_EMAILS
  match value with
  | .missing => none
  | .text value => some (parse ((splitChars ',' value.toList).map String.ofList))
  | .list items => some (parse items)

/-- `validWebhookUrl`. -/
def validWebhookUrl (isProduction : Bool) (value : Option WebhookUrl) : Option WebhookUrl :=
  value.filter fun url =>
    (url.protocol = "https:" || (url.protocol = "http:" && !isProduction)) && url.hostname ≠ "" &&
      url.username = "" && url.password = ""

structure NotificationTargets where
  emails : List String
  webhookUrl : Option WebhookUrl
  deriving DecidableEq, Repr

def targetsOf (settings : DetectionSettings) (emails : EmailSetting) (webhook : Option WebhookUrl) :
    NotificationTargets where
  emails :=
    match parseEmails emails with
    | some (email :: rest) => email :: rest
    | _ => (parseEmails settings.notifyEmails).getD []
  webhookUrl :=
    (validWebhookUrl settings.isProduction webhook).or
      (validWebhookUrl settings.isProduction settings.webhookUrl)

/-- `readSetting`: a setting that cannot be read is missing. -/
def readSetting {A : Type} (value missing : A) : DetectionM A := do
  match ← attempt (call .look fun _ => value) with
  | .ok value => return value
  | .error _ => return missing

/-- `resolveNotificationTargets`. -/
def resolveNotificationTargets (settings : DetectionSettings) : DetectionM NotificationTargets := do
  let emails ← readSetting settings.emailsSetting .missing
  let webhook ← readSetting settings.webhookSetting none
  return targetsOf settings emails webhook

/-- The channels that have a target. -/
def NotificationTargets.channels (targets : NotificationTargets) : List Channel :=
  (if targets.emails = [] then [] else [.email]) ++
    if targets.webhookUrl.isSome then [.webhook] else []

/-- `notifyThresholdRank`. -/
def notifyThresholdRank (settings : DetectionSettings) : Nat :=
  (settings.notifyMinSeverity.map Severity.rank).getD Severity.high.rank

/-! ## Sinks -/

def DELIVERY_KIND : String := "security_alert"

/-- What a delivery meets outside: the id of its run, and the answer to its attempt. -/
structure Outside where
  runId : String
  answer : SendAnswer

def idempotencyKey (id : ObjectId) (channel : Channel) : String :=
  s!"security-alert:{id.toHex}:{channel.name}"

/-- The request of a sink of `DEFAULT_SINKS`. Its tenant is null. An e-mail goes to the addresses as an
array, whose text has commas, and a webhook to a URL, not to a destination. -/
def sinkRequest (id : ObjectId) (targets : NotificationTargets) (outside : Outside) :
    Channel → DeliverRequest
  | .email =>
      { id := outside.runId
        tenantId := ""
        kind := DELIVERY_KIND
        idempotencyKey := idempotencyKey id .email
        type := some .email
        sendTo := ",".intercalate targets.emails
        destinationId := ""
        external := false
        sourceId := none
        reportRunId := none
        answer := outside.answer }
  | .webhook =>
      { id := outside.runId
        tenantId := ""
        kind := DELIVERY_KIND
        idempotencyKey := idempotencyKey id .webhook
        type := some .webhook
        sendTo := ""
        destinationId := ""
        external := false
        sourceId := none
        reportRunId := none
        answer := outside.answer }

/-- A default sink. -/
def sink (settings : DetectionSettings) (id : ObjectId) (targets : NotificationTargets)
    (outside : Outside) (channel : Channel) : DetectionProg DeliverResult :=
  (deliver settings.delivery (sinkRequest id targets outside channel)).onto
    DetectionDb.delivery (fun delivery db => { db with delivery }) DetectionLabel.delivery

/-- `err.code`; `deliver` throws nothing else that has a code. -/
def failureCode (error : ApiError) : String :=
  if error.code = .badRequest then "BAD_REQUEST" else "DELIVERY_FAILED"

def NotificationTargets.text (targets : NotificationTargets) : Channel → Option String
  | .email => some (slice 300 (", ".intercalate targets.emails))
  | .webhook => targets.webhookUrl.map WebhookUrl.origin

/-- The call of a sink. -/
def handOver (id : ObjectId) (channel : Channel) : DetectionM Unit :=
  ExceptT.mk (Prog.update (.handOver id channel) (DetectionLabel.handOver id channel).perform
    fun _ => .ok ())

def send (settings : DetectionSettings) (id : ObjectId) (targets : NotificationTargets)
    (outside : Outside) (now : Int) (channel : Channel) : DetectionM AlertNotification := do
  handOver id channel
  match ← ExceptT.lift (sink settings id targets outside channel) with
  | .ok answer =>
      let status := if answer.status = .sent then NotificationStatus.sent else .queued
      return { time := now, channel := some channel, target := targets.text channel, status
               code := none, deliveryId := some answer.id }
  | .error error =>
      return { time := now, channel := some channel, target := targets.text channel
               status := .failed, code := some (failureCode error), deliveryId := none }

def sendAll (settings : DetectionSettings) (id : ObjectId) (targets : NotificationTargets)
    (outside : Channel → Outside) (now : Int) :
    List Channel → List AlertNotification → DetectionM (List AlertNotification)
  | [], entries => return entries
  | channel :: rest, entries => do
      let entry ← send settings id targets (outside channel) now channel
      sendAll settings id targets outside now rest (entries ++ [entry])

def noTargets (now : Int) : AlertNotification where
  time := now
  channel := none
  target := none
  status := .skipped
  code := some "NO_TARGETS"
  deliveryId := none

/-- `notifyAlert`: whether somebody has been notified. -/
def notifyAlert (settings : DetectionSettings) (outside : ObjectId → Channel → Outside)
    (id : ObjectId) (now : Int) : DetectionM Bool := do
  let claimed ← call (.claimNotification id now) (selected (.claimNotification id now))
  match claimed with
  | none => return false
  | some claimed =>
      let targets ← resolveNotificationTargets settings
      let entries ← sendAll settings claimed.id targets (outside claimed.id) now targets.channels []
      let recorded := if entries = [] then [noTargets now] else entries
      call (.recordNotifications claimed.id recorded now) fun _ => ()
      return recorded.any fun entry => entry.status = .sent || entry.status = .queued

end AnalyticsBackend.Security
