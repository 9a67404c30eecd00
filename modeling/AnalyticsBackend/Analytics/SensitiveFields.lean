import AnalyticsBackend.Lib.Mongo.Value

/-!
# Credential-like columns

`utils/sensitiveFields.js`: the names of dataset columns that are never queried or returned
(`isSensitiveFieldName`), and the copy of a row's data without them (`stripSensitiveFields`).
-/

namespace AnalyticsBackend.Analytics

open Lib Lib.Mongo

def SENSITIVE_TOKENS : List String :=
  ["password", "passwd", "pwd", "passcode", "passphrase", "pass",
    "hash", "hashed", "salt", "otp", "totp", "mfa",
    "secret", "secrets", "token", "fcm", "apns",
    "apikey", "credential", "credentials", "jwt", "bearer", "cookie", "cvv"]

/-- The alternatives of `SENSITIVE_SQUASHED_RE`. -/
def SENSITIVE_SQUASHED : List String :=
  ["apikey", "apisecret", "privatekey", "secretkey", "accesskey", "clientsecret", "sessionid",
    "sessiontoken", "sessionkey", "resetcode", "resetlink", "resettoken", "resetkey",
    "refreshtoken", "accesstoken", "authtoken", "authkey", "authcode", "pushtoken",
    "devicetoken", "signingkey", "encryptionkey", "passwordhash", "pwhash"]

def isLowerOrDigit (c : Char) : Bool := ('a' ≤ c && c ≤ 'z') || ('0' ≤ c && c ≤ '9')

def isUpper (c : Char) : Bool := 'A' ≤ c && c ≤ 'Z'

/-- `toLowerCase`, as far as the result can hold a letter `a` to `z`: the Kelvin sign and the
dotted capital I are the only others that become one. -/
def lowerCase (s : List Char) : List Char :=
  s.flatMap fun c =>
    if isUpper c then [Char.ofNat (c.toNat + 32)]
    else if c.toNat = 0x212A then ['k']
    else if c.toNat = 0x130 then ['i', Char.ofNat 0x307]
    else [c]

/-- `.replace(/([a-z0-9])([A-Z])/g, '$1 $2')`. -/
def splitCamel : List Char → List Char
  | c :: d :: rest =>
      if isLowerOrDigit c && isUpper d then c :: ' ' :: splitCamel (d :: rest)
      else c :: splitCamel (d :: rest)
  | cs => cs

/-- `.replace(/([A-Z]+)([A-Z][a-z])/g, '$1 $2')`. -/
def splitAcronym : List Char → List Char
  | c :: d :: e :: rest =>
      if isUpper c && isUpper d && ('a' ≤ e && e ≤ 'z') then
        c :: ' ' :: splitAcronym (d :: e :: rest)
      else c :: splitAcronym (d :: e :: rest)
  | cs => cs

/-- The runs of letters and digits: `.split(/[^a-z0-9]+/).filter(Boolean)`. -/
def words : List Char → List (List Char)
  | [] => []
  | c :: rest =>
      if isLowerOrDigit c then
        match rest, words rest with
        | d :: _, word :: others =>
            if isLowerOrDigit d then (c :: word) :: others else [c] :: word :: others
        | _, others => [c] :: others
      else words rest

def tokenize (key : String) : List String :=
  (words (lowerCase (splitAcronym (splitCamel key.toList)))).map String.ofList

def isSensitiveSegment (key : String) : Bool :=
  let squashed := (lowerCase key.toList).filter isLowerOrDigit
  (tokenize key).any (fun t => SENSITIVE_TOKENS.contains t) ||
    SENSITIVE_SQUASHED.any fun name => squashed.tails.any fun s => name.toList.isPrefixOf s

/-- True when a dataset column or field name looks like a credential; one segment of a nested
path taints all of it. -/
def isSensitiveFieldName (key : String) : Bool := (splitDots key).any isSensitiveSegment

/-! ## Stripping -/

/-- The object passes for an `ObjectId`: its own `constructor` has that name. -/
def looksLikeObjectId (fields : Doc) : Bool :=
  match Doc.get fields "constructor" with
  | some (.obj inner) =>
      match Doc.get inner "name" with
      | some (.str s) => s == "ObjectId"
      | _ => false
  | _ => false

mutual

/-- A copy of the value without sensitive keys, down to `depth` 16. Assigning `__proto__` on
the copy makes no key of its own. -/
def stripValue (depth : Nat) : Value → Value
  | .arr items => if 16 < depth then .arr items else .arr (stripItems (depth + 1) items)
  | .obj fields =>
      if 16 < depth || looksLikeObjectId fields then .obj fields
      else .obj (stripFields (depth + 1) fields)
  | v => v

def stripItems (depth : Nat) : List Value → List Value
  | [] => []
  | v :: rest => stripValue depth v :: stripItems depth rest

def stripFields (depth : Nat) : List (String × Value) → List (String × Value)
  | [] => []
  | (name, v) :: rest =>
      if isSensitiveFieldName name || name == "__proto__" then stripFields depth rest
      else (name, stripValue depth v) :: stripFields depth rest

end

def stripSensitiveFields (v : Value) : Value := stripValue 0 v

example : isSensitiveFieldName "userPasswordHash" = true := by decide
example : isSensitiveFieldName "tokens_used" = false := by decide

end AnalyticsBackend.Analytics
