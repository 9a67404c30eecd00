import AnalyticsBackend.Lib.Js
import AnalyticsBackend.Lib.Result
import Mathlib.Data.List.Forall2

/-!
# The manifest of an archive

`validateManifest` and `listedFiles` of `services/tenantArchive.js`: the structural check of the
untrusted `manifest.json`, before anything of the archive is read by what it says.
-/

namespace AnalyticsBackend.Archive
open Lib

/-! ## Errors -/

inductive ArchiveCode where
  | manifestInvalid
  | versionUnsupported
  deriving DecidableEq, Repr

/-- `ArchiveError`. -/
structure ArchiveError where
  code : ArchiveCode
  message : String
  details : Option Js := none

/-- What the check can throw: its own error, or the one that the language raises when a value is not
of the type that is asked of it. -/
inductive Thrown where
  | archive (error : ArchiveError)
  | typeError

def fail {α : Type} (message : String) (details : Option Js := none) : Except Thrown α :=
  .error (.archive { code := .manifestInvalid, message, details })

def check (holds : Bool) (message : String) (details : Option Js := none) : Except Thrown Unit :=
  if holds then .ok () else fail message details

/-! ## Reading a value -/

/-- `value[name]` of a value that is neither `undefined` nor `null`. -/
def get : Js → String → Js
  | .obj fields, name => field fields name
  | _, _ => .undefined

/-- `value && typeof value === 'object'`. -/
def isObject : Js → Bool
  | .date _ | .arr _ | .obj _ => true
  | _ => false

def isArray : Js → Bool
  | .arr _ => true
  | _ => false

def isText (value : Js) (text : String) : Bool := value.text == some text

/-- `typeof value === 'string' && pattern.test(value)`. -/
def matching (pattern : List Char → Bool) : Js → Bool
  | .str s => pattern s.toList
  | _ => false

/-- `Number.isInteger(value) && value >= 0`. -/
def isCount : Js → Bool
  | .num n => n.integer.any fun i => 0 ≤ i
  | _ => false

/-- `(value ?? []).entries()`. -/
def entries : Js → Except Thrown (List Js)
  | .undefined | .null => .ok []
  | .arr items => .ok items
  | _ => .error .typeError

/-- `[...value]`. -/
def spread : Js → Except Thrown (List Js)
  | .arr items => .ok items
  | .str s => .ok (s.toList.map fun c => .str (String.singleton c))
  | _ => .error .typeError

def orEmpty : Js → Js
  | .undefined | .null => .arr []
  | value => value

/-! ## Texts of values -/

/-- How the language writes numbers and dates. -/
structure Wording where
  number : Magnitude → String
  date : Option Int → String

variable (wording : Wording)

mutual

/-- A value within a template. An object whose own `toString` hides the inherited one has no text:
what a JSON text holds there is not a function. Any depth of arrays has one here; the call stack of the
engine is left out. -/
def toText : Js → Option String
  | .undefined => some "undefined"
  | .null => some "null"
  | .bool b => some (if b then "true" else "false")
  | .num n => some (wording.number n)
  | .str s => some s
  | .date ms => some (wording.date ms)
  | .arr items => (elementTexts items).map fun texts => ",".intercalate texts
  | .obj fields => if JsObject.has fields "toString" then none else some "[object Object]"

/-- `Array.prototype.join` leaves the nullish elements out. -/
def elementTexts : List Js → Option (List String)
  | [] => some []
  | item :: rest =>
      match if item.isNullish then some "" else toText item, elementTexts rest with
      | some text, some texts => some (text :: texts)
      | _, _ => none

end

/-! ## Patterns -/

/-- `[A-Za-z0-9._-]`. -/
def isMemberChar (c : Char) : Bool := c.isAlphanum || c == '.' || c == '_' || c == '-'

/-- `SAFE_MEMBER.test(file) && !file.split('/').includes('..')`. -/
def safeMember (file : List Char) : Bool :=
  (splitChars '/' file).all (fun part => !part.isEmpty && part.all isMemberChar) &&
    !(splitChars '/' file).contains ['.', '.']

def isLowerHex (c : Char) : Bool := c.isDigit || "abcdef".toList.contains c

def sha256Pattern (s : List Char) : Bool := s.length == 64 && s.all isLowerHex

def hex24 (s : List Char) : Bool := s.length == 24 && s.all isLowerHex

/-- `/^[A-Za-z0-9_-]{1,64}$/`. -/
def exportIdPattern (s : List Char) : Bool :=
  1 ≤ s.length && s.length ≤ 64 && s.all fun c => c.isAlphanum || c == '_' || c == '-'

/-! ## The catalogue -/

/-- A collection of the export: its model and the name of its collection. -/
structure Exported where
  model : String
  collectionName : String

/-- `EXPORTED` of the catalogue: no model and no collection stands in it twice. -/
structure Catalogue where
  exported : List Exported
  models : (exported.map (·.model)).Nodup
  collections : (exported.map (·.collectionName)).Nodup

namespace Catalogue

/-- `exportedEntry`: the models are the keys of a map. -/
def exportedEntry (catalogue : Catalogue) (model : Js) : Option Exported :=
  catalogue.exported.find? fun entry => isText model entry.model

end Catalogue

/-- `collectionFileOf`. -/
def Exported.file (entry : Exported) : String := "collections/" ++ entry.collectionName ++ ".jsonl"

/-! ## The check -/

def ARCHIVE_FORMAT : String := "analivo.tenant-export"

/-- `checkFileRecord`. -/
def checkFileRecord (record : Js) (label : String) : Except Thrown Unit := do
  check (isObject record) s!"{label} is missing"
  check (matching safeMember (get record "file")) s!"{label} names an unsafe file"
  check (isCount (get record "bytes")) s!"{label} has an invalid size"
  check (matching sha256Pattern (get record "sha256")) s!"{label} has an invalid sha256"

/-- `record.file`, a string once the record is checked. -/
def fileOf (record : Js) : String := (get record "file").text.getD ""

def modelDetails (entry : Js) : Option Js := some (.obj [("model", get entry "model")])

/-- The entry `manifest.collections[index]`; its row of the catalogue. -/
def checkCollection (catalogue : Catalogue) (seenModels : List String) (entry : Js)
    (label : String) : Except Thrown Exported := do
  checkFileRecord entry label
  match catalogue.exportedEntry (get entry "model") with
  | none =>
      fail s!"{label} names a collection that is not part of tenant exports" (modelDetails entry)
  | some known => do
      check (isText (get entry "collection") known.collectionName &&
          isText (get entry "file") known.file)
        s!"{label} does not match the expected collection layout" (modelDetails entry)
      check (!seenModels.contains known.model) s!"{label} repeats {known.model}"
      check (isCount (get entry "count")) s!"{label} has an invalid count"
      check (matching sha256Pattern (get entry "contentSha256")) s!"{label} has an invalid contentSha256"
      return known

/-- The loop over `manifest.collections`, with the models and the files it has seen. -/
def checkCollections (catalogue : Catalogue) :
    Nat → List String → List String → List Js → Except Thrown (List String × List String)
  | _, seenModels, seenFiles, [] => .ok (seenModels, seenFiles)
  | index, seenModels, seenFiles, entry :: rest => do
      let known ← checkCollection catalogue seenModels entry s!"manifest.collections[{index}]"
      checkCollections catalogue (index + 1) (seenModels ++ [known.model])
        (seenFiles ++ [fileOf entry]) rest

/-- The loop over a list of further files, with the checks that its records have besides. -/
def checkFiles (list : String) (more : Js → String → Except Thrown Unit) :
    Nat → List String → List Js → Except Thrown (List String)
  | _, seenFiles, [] => .ok seenFiles
  | index, seenFiles, record :: rest => do
      let label := s!"manifest.{list}[{index}]"
      checkFileRecord record label
      more record label
      check (!seenFiles.contains (fileOf record)) s!"{label} repeats a file"
      checkFiles list more (index + 1) (seenFiles ++ [fileOf record]) rest

def checkDataset (dataset : Js) (label : String) : Except Thrown Unit := do
  check (matching hex24 (get dataset "connectorId")) s!"{label} has an invalid connectorId"
  check (isCount (get dataset "rows")) s!"{label} has an invalid row count"

def checkDatasets : Nat → List String → List Js → Except Thrown (List String) :=
  checkFiles "datasets" checkDataset

def checkReferences : Nat → List String → List Js → Except Thrown (List String) :=
  checkFiles "references" fun _ _ => .ok ()

/-- `manifest.formatVersion`: the message of the error quotes the value. -/
def checkVersion : Js → Except Thrown Unit
  | .num (.finite 1) => .ok ()
  | version =>
      match toText wording version with
      | none => .error .typeError
      | some text =>
          .error (.archive
            { code := .versionUnsupported, message := s!"Archive format version {text} is not supported" })

/-- `manifest.collections`, an array that is not empty. -/
def checkNonEmpty : Js → Except Thrown (List Js)
  | .arr (entry :: rest) => .ok (entry :: rest)
  | _ => fail "manifest.collections is empty"

def checkHeader (manifest : Js) : Except Thrown Unit := do
  check (isObject manifest && !isArray manifest) "manifest.json is not an object"
  check (isText (get manifest "format") ARCHIVE_FORMAT)
    s!"manifest.json is not an {ARCHIVE_FORMAT} manifest"
  checkVersion wording (get manifest "formatVersion")
  check (matching exportIdPattern (get manifest "exportId")) "manifest.exportId is invalid"
  check (matching hex24 (get (get manifest "tenant") "id")) "manifest.tenant.id is invalid"

/-- `validateManifest`. -/
def validateManifest (catalogue : Catalogue) (manifest : Js) : Except Thrown Js := do
  checkHeader wording manifest
  let collections ← checkNonEmpty (get manifest "collections")
  let (seenModels, seenFiles) ← checkCollections catalogue 0 [] [] collections
  check (seenModels.contains "Tenant") "manifest.collections has no Tenant entry"
  let datasets ← entries (get manifest "datasets")
  let seenFiles ← checkDatasets 0 seenFiles datasets
  let references ← entries (get manifest "references")
  let _ ← checkReferences 0 seenFiles references
  check (isArray (orEmpty (get manifest "datasets"))) "manifest.datasets must be an array"
  check (isArray (orEmpty (get manifest "references"))) "manifest.references must be an array"
  return manifest

/-- What `listedFiles` takes of a record; `undefined` and `null` have no fields to take. -/
structure ListedFile where
  file : Js
  bytes : Js
  sha256 : Js

def listedFile (record : Js) : Except Thrown ListedFile :=
  if record.isNullish then .error .typeError
  else .ok { file := get record "file", bytes := get record "bytes", sha256 := get record "sha256" }

/-- `listedFiles`. -/
def listedFiles (manifest : Js) : Except Thrown (List ListedFile) := do
  let collections ← spread (get manifest "collections")
  let datasets ← spread (orEmpty (get manifest "datasets"))
  let references ← spread (orEmpty (get manifest "references"))
  (collections ++ datasets ++ references).mapM listedFile

end AnalyticsBackend.Archive
