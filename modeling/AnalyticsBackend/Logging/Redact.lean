import AnalyticsBackend.Analytics.SensitiveFields
import AnalyticsBackend.Lib.Json

/-!
# What is logged of an object

`utils/redact.js`: the keys that always hold secrets (`isSensitiveKey`) and the copy of a logged
object that is masked at any depth (`redactDeep`), and what `JSON.stringify` writes of the copy.
-/

namespace AnalyticsBackend.Logging

open Lib
open Analytics (lowerCase)

/-! ## Key matching -/

def REDACTED : String := "[REDACTED]"

def SENSITIVE_KEYS : List String :=
  ["authorization", "proxyauthorization", "cookie", "setcookie", "password", "passwd", "pwd", "secret",
    "clientsecret", "apikey", "xapikey", "jwt", "otp", "totp", "totpcode", "mfacode", "recoverycode",
    "recoverycodes", "privatekey", "encryptionkey", "signingsecret", "sessionid", "cardnumber", "cvv",
    "signature", "xsaassignature", "credentials", "connectionstring"]

def SENSITIVE_SUFFIXES : List String := ["token", "secret", "password", "passphrase", "apikey"]

/-- Matching ignores case, `-` and `_`. -/
def isSensitiveKey (key : String) : Bool :=
  let normalised := (lowerCase key.toList).filter fun c => c ≠ '-' ∧ c ≠ '_'
  SENSITIVE_KEYS.any (fun name => name.toList = normalised) ||
    SENSITIVE_SUFFIXES.any fun suffix => suffix.toList.isSuffixOf normalised

/-! ## Logged values -/

/-- A value as the logger meets it, a finite tree. An instance of another class has its own
enumerable properties and may have a `toJSON`: `bare` has none, that of `itself` returns the instance,
that of `form` returns `json` (a Mongoose document). Dates and Buffers are `form` with `asIs`; Maps,
Sets and typed arrays are `bare`. A `toJSON` that throws is left out, there is no text then. -/
inductive LogValue where
  | undefined
  | null
  | bool (b : Bool)
  | num (n : Magnitude)
  | str (s : String)
  | plain (fields : List (String × LogValue))
  | arr (items : List LogValue)
  | error (name message : String) (stack : Option String) (own : List (String × LogValue))
  | bare (own : List (String × LogValue))
  | itself (own : List (String × LogValue))
  | form (asIs : Bool) (own : List (String × LogValue)) (json : LogValue)

namespace LogValue

/-- Neither null nor a boolean. -/
def hideable : LogValue → Bool
  | .null | .bool _ => false
  | _ => true

def isUndefined : LogValue → Bool
  | .undefined => true
  | _ => false

/-- The value is replaced under this key of a plain object. -/
def replaced (key : String) (v : LogValue) : Bool :=
  isSensitiveKey key && v.hideable && !v.isUndefined

end LogValue

/-! ## Deep masking -/

section Masking

variable (redactString : String → String) (maxDepth : Nat)

/-- The properties every copy of an error starts with. -/
def errorFields (name message : String) (stack : Option String) : List (String × LogValue) :=
  [("type", .str name), ("message", .str (redactString message))] ++
    stack.toList.map fun text => ("stack", .str (redactString text))

mutual

/-- The copy of a value at this depth. -/
def walk (depth : Nat) : LogValue → LogValue
  | .str s => .str (redactString s)
  | .plain fields =>
      if maxDepth < depth then .str "[Truncated]"
      else .plain (JsObject.assign [] (walkFields (depth + 1) fields))
  | .arr items => if maxDepth < depth then .str "[Truncated]" else .arr (walkItems (depth + 1) items)
  | .error name message stack own =>
      if maxDepth < depth then .str "[Truncated]"
      else .plain (JsObject.assign (errorFields redactString name message stack)
        (walkOwn (depth + 1) own))
  | .itself own => if maxDepth < depth then .str "[Truncated]" else .itself own
  | .form true own json => .form true own json
  | .form false _ json => if maxDepth < depth then .str "[Truncated]" else walk depth json
  | v => v

/-- The properties set on the copy of a plain object; `__proto__` becomes none. -/
def walkFields (depth : Nat) : List (String × LogValue) → List (String × LogValue)
  | [] => []
  | (key, v) :: rest =>
      if key = "__proto__" then walkFields depth rest
      else (key, if v.replaced key then .str REDACTED else walk depth v) :: walkFields depth rest

def walkItems (depth : Nat) : List LogValue → List LogValue
  | [] => []
  | v :: rest => walk depth v :: walkItems depth rest

/-- The own properties set on the copy of an error. -/
def walkOwn (depth : Nat) : List (String × LogValue) → List (String × LogValue)
  | [] => []
  | (key, v) :: rest =>
      if key = "message" ∨ key = "stack" ∨ key = "__proto__" then walkOwn depth rest
      else (key, if isSensitiveKey key then .str REDACTED else walk depth v) :: walkOwn depth rest

end

end Masking

/-! ## The text -/

mutual

/-- What `JSON.stringify` makes of a value: nothing of `undefined`. -/
def json : LogValue → Option Json
  | .undefined => none
  | .null => some .null
  | .bool b => some (.bool b)
  | .num (.finite q) => some (.num q)
  | .num _ => some .null
  | .str s => some (.str s)
  | .plain fields | .error _ _ _ fields | .bare fields | .itself fields => some (.obj (jsonFields fields))
  | .arr items => some (.arr (jsonItems items))
  | .form _ _ (.form _ own _) => some (.obj (jsonFields own))
  | .form _ _ v => json v

def jsonFields : List (String × LogValue) → List (String × Json)
  | [] => []
  | (key, v) :: rest =>
      match json v with
      | some j => (key, j) :: jsonFields rest
      | none => jsonFields rest

def jsonItems : List LogValue → List Json
  | [] => []
  | v :: rest => (json v).getD .null :: jsonItems rest

end

/-- `JSON.stringify(value)`. -/
def stringify (fmt : NumberFormat) (v : LogValue) : Option (List Char) := (json v).map (Json.render fmt)

example : isSensitiveKey "X-Api-Key" = true := by decide
example : isSensitiveKey "tokenHash" = false := by decide

end AnalyticsBackend.Logging
