import AnalyticsBackend.Audit.Payload

/-!
# The hash chain of the audit trail

`utils/auditChain.js`, which seals and checks single rows, and `verifyAuditChain` of
`services/auditChain.service.js`, which walks the stored rows. A row is the document as it is
stored and read back; what the code takes from `node:crypto`, from the BSON library and from the
query caster is the `Runtime`.
-/

namespace AnalyticsBackend.Audit
open Lib Lib.Mongo

/-- The units of a text in memory are characters: no surrogate is without its partner. -/
def paired : List UInt16 → Bool
  | [] => true
  | unit :: rest =>
      if unit < 0xD800 || 0xE000 ≤ unit then paired rest
      else
        match rest with
        | [] => false
        | low :: rest => unit < 0xDC00 && 0xDC00 ≤ low && low < 0xE000 && paired rest

/-- A text in memory that UTF-8 has no bytes for, and where it stands: `truncateString` and `scalar` may
cut a pair. It is stored with U+FFFD for the surrogate, and `JSON.stringify` escapes the surrogate. -/
structure UnpairedText where
  path : List String
  units : List UInt16
  unpaired : paired units = false
  deriving DecidableEq

/-- Digests of canonical content, as it is and with unpaired texts escaped in it, and of texts, the texts
of values, and the cast of a value other than a date in a date query (`none` is a `CastError`). -/
structure Runtime where
  sha256 : Json → String
  hmacSha256 : String → Json → String
  sha256Escaped : Json → List UnpairedText → String
  hmacSha256Escaped : String → Json → List UnpairedText → String
  sha256Text : String → String
  decimalText : Number → String
  text : Option Value → String
  castDate : Value → Option Int

def genesisHash : String := String.ofList (List.replicate 64 '0')

def chainFields : List String :=
  ["_id", "seq", "prevHash", "occurredAt", "category", "severity",
    "actorType", "actorId", "actorDisplay", "tenantId", "module", "action",
    "resourceType", "resourceId", "before", "after", "metadata", "reason",
    "ip", "userAgent", "requestId", "result", "errorCode"]

/-! ## Keys -/

structure SigningKey where
  id : String
  key : String
  deriving DecidableEq, Repr

abbrev KeysById := String → Option String

def keyIdFor (rt : Runtime) (key : String) : String :=
  String.ofList ((rt.sha256Text key).toList.take 12)

/-- The key new rows are signed with. -/
def signingKey (rt : Runtime) (current : String) : Option SigningKey :=
  if current = "" then none else some { id := keyIdFor rt current, key := current }

/-- `byId` of `signingKeys`: the current key and the previous ones; of two keys with one id the
later is kept. -/
def keysById (rt : Runtime) (current : String) (previous : List String) : KeysById :=
  (current :: previous).foldl
    (fun byId key => if key = "" then byId else Function.update byId (keyIdFor rt key) (some key))
    fun _ => none

/-! ## Rows -/

/-- The fields of `CHAIN_FIELDS`, `null` for one that is not there. -/
def picked (row : Doc) : Doc :=
  chainFields.map fun name => (name, (Doc.get row name).getD .null)

/-- `chainContent`; `none` where it throws. -/
def chainContent (rt : Runtime) (row : Doc) : Option Json :=
  canonicalJson rt.decimalText (.obj (picked row))

/-- `hashContent`. -/
def hashContent (rt : Runtime) (content : Json) : Option String → String
  | some key => rt.hmacSha256 key content
  | none => rt.sha256 content

/-- `{ seq, hash }` of the newest row. -/
structure ChainHead where
  seq : Int
  hash : String
  deriving DecidableEq, Repr

def ChainHead.genesis : ChainHead := { seq := 0, hash := genesisHash }

def storedInteger (n : Int) : Value :=
  .num { type := if n.natAbs < 2 ^ 31 then .int else .double, value := .finite n }

/-- Assigning `undefined`. -/
def unset (row : Doc) (name : String) : Doc := row.filter fun entry => entry.1 ≠ name

/-- `seal` up to the hash. -/
def linked (target : Doc) (head : ChainHead) (signingKey : Option SigningKey) : Doc :=
  let row := Doc.set target "seq" (storedInteger (head.seq + 1))
  let row := Doc.set row "prevHash" (.str head.hash)
  let row := Doc.set row "hashAlg" (.str (if signingKey.isSome then "hmac-sha256" else "sha256"))
  match signingKey with
  | some k => Doc.set row "keyId" (.str k.id)
  | none => unset row "keyId"

/-- `seal`: the row, and the new head. -/
def sealRow (rt : Runtime) (target : Doc) (head : ChainHead) (signingKey : Option SigningKey) :
    Option (Doc × ChainHead) := do
  let row := linked target head signingKey
  let content ← chainContent rt row
  let hash := hashContent rt content (signingKey.map SigningKey.key)
  return (Doc.set row "hash" (.str hash), { seq := head.seq + 1, hash })

/-- `hashContent` of a document in memory: the texts that storage cannot hold are escaped in it. -/
def hashMemory (rt : Runtime) (content : Json) (unpaired : List UnpairedText) (key : Option String) :
    String :=
  if unpaired = [] then hashContent rt content key
  else
    match key with
    | some key => rt.hmacSha256Escaped key content unpaired
    | none => rt.sha256Escaped content unpaired

/-- `seal` of a document in memory, of which `target` is what storage holds: the row as it is stored, and
the new head. -/
def sealMemory (rt : Runtime) (target : Doc) (unpaired : List UnpairedText) (head : ChainHead)
    (signingKey : Option SigningKey) : Option (Doc × ChainHead) := do
  let row := linked target head signingKey
  let content ← chainContent rt row
  let hash := hashMemory rt content unpaired (signingKey.map SigningKey.key)
  return (Doc.set row "hash" (.str hash), { seq := head.seq + 1, hash })

theorem sealMemory_nil (rt : Runtime) (target : Doc) (head : ChainHead) (signingKey : Option SigningKey) :
    sealMemory rt target [] head signingKey = sealRow rt target head signingKey := rfl

/-- What `checkRow` says. -/
inductive CheckStatus where
  | ok
  | mismatch (expected : String)
  | unverifiable
  deriving DecidableEq, Repr

/-- `value === s` for a string. -/
def isText (s : String) : Option Value → Bool
  | some (.str t) => t = s
  | _ => false

def compareHash (rt : Runtime) (row : Doc) (key : Option String) : Option CheckStatus := do
  let content ← chainContent rt row
  let expected := hashContent rt content key
  return if isText expected (Doc.get row "hash") then .ok else .mismatch expected

def keyOf (keysById : KeysById) (row : Doc) : Option String :=
  match Doc.get row "keyId" with
  | some (.str id) => keysById id
  | _ => none

/-- Recompute a stored row's hash; `none` where the content throws. -/
def checkRow (rt : Runtime) (row : Doc) (keysById : KeysById) : Option CheckStatus :=
  if isText "hmac-sha256" (Doc.get row "hashAlg") then
    match keyOf keysById row with
    | some key => compareHash rt row (some key)
    | none => some .unverifiable
  else compareHash rt row none

/-! ## The walk -/

def asNumber : Option Value → Option Magnitude
  | some (.num n) =>
      match n.type, n.value with
      | .decimal, _ => none
      | .long, .finite q => if safeLong q then some (.finite q) else none
      | _, v => some v
  | _ => none

/-- `a === b` for values read back from the store: two objects are never the same. -/
def strictEqual : Option Value → Option Value → Bool
  | none, none => true
  | some .null, some .null => true
  | some (.bool a), some (.bool b) => a = b
  | some (.str s), some (.str t) => s = t
  | some (.num m), some (.num n) =>
      match asNumber (some (.num m)), asNumber (some (.num n)) with
      | some x, some y => x ≠ .nan && x = y
      | _, _ => false
  | _, _ => false

def followsSeq (previous row : Doc) : Bool :=
  match asNumber (Doc.get previous "seq"), asNumber (Doc.get row "seq") with
  | some (.finite p), some (.finite q) => q = p + 1
  | some .posInf, some .posInf => true
  | _, _ => false

/-- `previous.seq + 1`, as it is printed. -/
def nextSeqText (rt : Runtime) (previous : Doc) : String :=
  match asNumber (Doc.get previous "seq") with
  | some (.finite p) => rt.text (some (.num { type := .double, value := .finite (p + 1) }))
  | some other => rt.text (some (.num { type := .double, value := other }))
  | none => rt.text (Doc.get previous "seq") ++ "1"

/-- `type` of an error. -/
inductive ChainErrorType where
  | genesisMismatch
  | seqGap
  | prevHashMismatch
  | hashMismatch
  | expectedHeadMismatch
  | expectedHeadMissing
  | unchainedRecord
  deriving DecidableEq, Repr

structure ChainError where
  type : ChainErrorType
  seq : Option Value
  id : Option String
  detail : Option String

def maxReportedErrors : Nat := 100

structure Walk where
  errors : List ChainError
  errorCount : Nat
  checked : Nat
  unverifiable : Nat
  first : Option Doc
  previous : Option Doc
  expectedHeadSeen : Bool

def Walk.start : Walk :=
  { errors := [], errorCount := 0, checked := 0, unverifiable := 0, first := none,
    previous := none, expectedHeadSeen := false }

def Walk.report (walk : Walk) (error : ChainError) : Walk :=
  { walk with
    errorCount := walk.errorCount + 1
    errors := if walk.errors.length < maxReportedErrors then walk.errors ++ [error]
      else walk.errors }

def Walk.reportIf (walk : Walk) (wrong : Bool) (error : ChainError) : Walk :=
  if wrong then walk.report error else walk

def rowError (rt : Runtime) (type : ChainErrorType) (row : Doc) (detail : Option String) :
    ChainError :=
  { type, seq := Doc.get row "seq", id := some (rt.text (Doc.get row "_id")), detail }

def Walk.link (rt : Runtime) (walk : Walk) (row : Doc) : Walk :=
  match walk.first, walk.previous with
  | some _, some previous =>
      (walk.reportIf (!followsSeq previous row)
        (rowError rt .seqGap row (some ("expected seq " ++ nextSeqText rt previous)))).reportIf
        (!strictEqual (Doc.get row "prevHash") (Doc.get previous "hash"))
        (rowError rt .prevHashMismatch row none)
  | _, _ =>
      { walk with first := some row }.reportIf
        (asNumber (Doc.get row "seq") = some (Magnitude.finite 1) &&
          !isText genesisHash (Doc.get row "prevHash"))
        (rowError rt .genesisMismatch row none)

/-- Count what `checkRow` said. -/
def Walk.judge (rt : Runtime) (walk : Walk) (row : Doc) : CheckStatus → Walk
  | .ok => walk
  | .mismatch _ => walk.report (rowError rt .hashMismatch row none)
  | .unverifiable => { walk with unverifiable := walk.unverifiable + 1 }

def Walk.meetHead (rt : Runtime) (walk : Walk) (row : Doc) (expectHead : Option ChainHead) : Walk :=
  match expectHead with
  | some head =>
      if asNumber (Doc.get row "seq") = some (.finite head.seq) then
        { walk with expectedHeadSeen := true }.reportIf (!isText head.hash (Doc.get row "hash"))
          (rowError rt .expectedHeadMismatch row none)
      else walk
  | none => walk

def Walk.visit (rt : Runtime) (keysById : KeysById) (expectHead : Option ChainHead) (walk : Walk)
    (row : Doc) : Option Walk := do
  let walk := Walk.link rt { walk with checked := walk.checked + 1 } row
  let status ← checkRow rt row keysById
  let walk := Walk.meetHead rt (Walk.judge rt walk row status) row expectHead
  return { walk with previous := some row }

/-! ## The store -/

/-- The filter of `streamChain`: `seq` is a number and at least 1. -/
def chained (row : Doc) : Bool :=
  match Doc.get row "seq" with
  | some (.num n) =>
      match n.value with
      | .finite q => 1 ≤ q
      | .posInf => true
      | _ => false
  | _ => false

/-- `.sort({ seq: 1 })`. -/
def seqLE (a b : Doc) : Bool :=
  (Value.compareOption (Doc.get a "seq") (Doc.get b "seq")).isLE

/-- `streamChain`. -/
def streamChain (rows : List Doc) : List Doc := (rows.filter chained).insertionSort fun a b => seqLE a b

/-- `occurredAt >= since`; only dates compare with a date. -/
def occurredSince (since : Int) (row : Doc) : Bool :=
  match Doc.get row "occurredAt" with
  | some (.date ms) => since ≤ ms
  | _ => false

/-- The filter of the unchained reads: no field `seq` at all. -/
def unchainedSince (since : Option Int) (row : Doc) : Bool :=
  (Doc.get row "seq").isNone && since.all fun t => occurredSince t row

/-- `findUnchainedSince`. -/
def findUnchainedSince (rows : List Doc) (since : Int) (limit : Nat) : List Doc :=
  ((rows.filter (unchainedSince (some since))).insertionSort fun a b =>
    (Value.compareOption (Doc.get a "occurredAt") (Doc.get b "occurredAt")).isLE).take limit

/-- Whether a value stored as a date or otherwise counts as a start. -/
def truthy : Option Value → Bool
  | none => false
  | some .null => false
  | some (.bool b) => b
  | some (.str s) => s ≠ ""
  | some (.num n) => n.type = .decimal || (n.value ≠ .nan && n.value ≠ .finite 0)
  | _ => true

def castSince (rt : Runtime) : Value → Option Int
  | .date ms => some ms
  | v => rt.castDate v

/-- The report of `verifyAuditChain`. -/
structure ChainReport where
  ok : Bool
  checked : Nat
  firstSeq : Option Value
  lastSeq : Option Value
  head : Option (Option Value × Option Value)
  anchored : Bool
  legacyUnchained : Nat
  unverifiable : Nat
  errorCount : Nat
  errors : List ChainError

def Walk.missHead (walk : Walk) : Option ChainHead → Walk
  | some head =>
      walk.reportIf (!walk.expectedHeadSeen)
        { type := .expectedHeadMissing, seq := some (storedInteger head.seq), id := none,
          detail := some ("the recorded head is no longer in the chain (rows after it were " ++
            "removed, or it was purged)") }
  | none => walk

/-- The rows without chain data that were written after the chain began, and how many there are
from before. -/
def Walk.strays (rt : Runtime) (walk : Walk) (rows : List Doc) : Option (Walk × Nat) :=
  let total := rows.countP (unchainedSince none)
  match walk.first.bind fun row => Doc.get row "occurredAt" with
  | some chainStart =>
      if truthy (some chainStart) then do
        let since ← castSince rt chainStart
        let strays := rows.countP (unchainedSince (some since))
        if 0 < strays then
          let sample := findUnchainedSince rows since 20
          let walk := sample.foldl
            (fun walk row => walk.report
              { type := .unchainedRecord, seq := none, id := some (rt.text (Doc.get row "_id")),
                detail := some (rt.text (Doc.get row "module") ++ "/" ++
                  rt.text (Doc.get row "action")) })
            walk
          return ({ walk with errorCount := walk.errorCount + (strays - sample.length) },
            total - strays)
        else return (walk, total - strays)
      else return (walk, total)
  | none => some (walk, total)

/-- Walk the chain and report every broken link; `none` where a row or the start of the chain
makes the walk throw. -/
def verifyAuditChain (rt : Runtime) (rows : List Doc) (keysById : KeysById)
    (expectHead : Option ChainHead) : Option ChainReport := do
  let walk ← (streamChain rows).foldlM (Walk.visit rt keysById expectHead) Walk.start
  let (walk, legacyUnchained) ← Walk.strays rt (Walk.missHead walk expectHead) rows
  return {
    ok := walk.errorCount = 0
    checked := walk.checked
    firstSeq := walk.first.bind fun row => Doc.get row "seq"
    lastSeq := walk.previous.bind fun row => Doc.get row "seq"
    head := walk.previous.map fun row => (Doc.get row "seq", Doc.get row "hash")
    anchored := walk.first.any fun row => asNumber (Doc.get row "seq") ≠ some (.finite 1)
    legacyUnchained
    unverifiable := walk.unverifiable
    errorCount := walk.errorCount
    errors := walk.errors }

/-! ## What the walk finds -/

/-- The link of a row to the one before it is sound; a first row with seq 1 starts from the
genesis hash. -/
def LinkSound : Option Doc → Doc → Prop
  | some previous, row => followsSeq previous row = true ∧
      strictEqual (Doc.get row "prevHash") (Doc.get previous "hash") = true
  | none, row => asNumber (Doc.get row "seq") = some (.finite 1) →
      isText genesisHash (Doc.get row "prevHash") = true

/-- Every link of the rows after `previous` is sound, and every row is as `judged` says. -/
def Linked (judged : Doc → Prop) : Option Doc → List Doc → Prop
  | _, [] => True
  | previous, row :: rest => LinkSound previous row ∧ judged row ∧ Linked judged (some row) rest

theorem Linked.judged {judged : Doc → Prop} {previous : Option Doc} {rows : List Doc} {row : Doc}
    (linked : Linked judged previous rows) (mem : row ∈ rows) : judged row := by
  induction rows generalizing previous with
  | nil => exact nomatch mem
  | cons first rest ih =>
      rcases List.mem_cons.mp mem with rfl | later
      · exact linked.2.1
      · exact ih linked.2.2 later

def Walk.Consistent (walk : Walk) : Prop := walk.first.isSome = walk.previous.isSome

theorem Walk.start_consistent : Walk.start.Consistent := rfl

section Visit

variable {rt : Runtime} {keysById : KeysById} {expectHead : Option ChainHead} {walk walk' : Walk}
  {row : Doc}

theorem Walk.reportIf_errorCount (wrong : Bool) (error : ChainError) :
    (walk.reportIf wrong error).errorCount = walk.errorCount + wrong.toNat := by
  cases wrong <;> rfl

theorem Walk.reportIf_rest (wrong : Bool) (error : ChainError) :
    (walk.reportIf wrong error).unverifiable = walk.unverifiable ∧
      (walk.reportIf wrong error).first = walk.first := by
  cases wrong <;> exact ⟨rfl, rfl⟩

theorem Walk.link_errorCount (consistent : walk.Consistent) :
    (Walk.link rt walk row).errorCount = 0 ↔
      walk.errorCount = 0 ∧ LinkSound walk.previous row := by
  unfold Walk.link LinkSound
  unfold Walk.Consistent at consistent
  cases first : walk.first with
  | none =>
      cases previous : walk.previous with
      | some p => rw [first, previous] at consistent; exact nomatch consistent
      | none =>
          simp only [Walk.reportIf_errorCount]
          cases isText genesisHash (Doc.get row "prevHash") <;>
            by_cases one : asNumber (Doc.get row "seq") = some (Magnitude.finite 1) <;> simp [one]
  | some f =>
      cases previous : walk.previous with
      | none => rw [first, previous] at consistent; exact nomatch consistent
      | some p =>
          simp only [Walk.reportIf_errorCount]
          cases followsSeq p row <;>
            cases strictEqual (Doc.get row "prevHash") (Doc.get p "hash") <;> simp

theorem Walk.link_rest (rt : Runtime) (walk : Walk) (row : Doc) :
    (Walk.link rt walk row).unverifiable = walk.unverifiable ∧
      (walk.Consistent → (Walk.link rt walk row).first = walk.first.or (some row)) := by
  unfold Walk.link
  cases first : walk.first with
  | none =>
      simp only [Walk.reportIf_rest]
      exact ⟨trivial, fun _ => rfl⟩
  | some f =>
      cases previous : walk.previous with
      | none =>
          simp only [Walk.reportIf_rest]
          refine ⟨trivial, fun consistent => ?_⟩
          rw [Walk.Consistent, first, previous] at consistent
          exact nomatch consistent
      | some p =>
          simp only [Walk.reportIf_rest, first]
          exact ⟨trivial, fun _ => rfl⟩

theorem Walk.meetHead_rest (rt : Runtime) (walk : Walk) (row : Doc)
    (expectHead : Option ChainHead) :
    walk.errorCount ≤ (Walk.meetHead rt walk row expectHead).errorCount ∧
      (Walk.meetHead rt walk row expectHead).unverifiable = walk.unverifiable ∧
      (Walk.meetHead rt walk row expectHead).first = walk.first := by
  unfold Walk.meetHead
  split
  · split
    · simp only [Walk.reportIf_errorCount, Walk.reportIf_rest]
      exact ⟨Nat.le_add_right .., trivial, trivial⟩
    · exact ⟨le_refl _, rfl, rfl⟩
  · exact ⟨le_refl _, rfl, rfl⟩

theorem Walk.visit_sound (consistent : walk.Consistent)
    (visited : Walk.visit rt keysById expectHead walk row = some walk')
    (clean : walk'.errorCount = 0) (verified : walk'.unverifiable = 0) :
    walk.errorCount = 0 ∧ walk.unverifiable = 0 ∧ LinkSound walk.previous row ∧
      checkRow rt row keysById = some .ok ∧ walk'.previous = some row ∧ walk'.Consistent := by
  simp only [Walk.visit, Option.bind_eq_bind, Option.bind_eq_some_iff, Option.pure_def,
    Option.some.injEq] at visited
  obtain ⟨status, checked, rfl⟩ := visited
  set walk₁ : Walk := { walk with checked := walk.checked + 1 } with counted
  have consistent₁ : walk₁.Consistent := consistent
  obtain ⟨more, unverifiable, first⟩ := Walk.meetHead_rest rt
    (Walk.judge rt (Walk.link rt walk₁ row) row status) row expectHead
  have clean' : (Walk.judge rt (Walk.link rt walk₁ row) row status).errorCount = 0 :=
    Nat.le_zero.mp (more.trans clean.le)
  have verified' : (Walk.judge rt (Walk.link rt walk₁ row) row status).unverifiable = 0 :=
    unverifiable.symm.trans verified
  obtain ⟨kept, began⟩ := Walk.link_rest rt walk₁ row
  cases status with
  | mismatch expected => exact absurd clean' (Nat.succ_ne_zero _)
  | unverifiable => exact absurd verified' (Nat.succ_ne_zero _)
  | ok =>
      obtain ⟨before, sound⟩ := (Walk.link_errorCount consistent₁).mp clean'
      have whole : (walk.first.or (some row)).isSome = true := by cases walk.first <;> rfl
      exact ⟨before, kept.symm.trans verified', sound, checked, rfl,
        (congrArg Option.isSome (first.trans (began consistent₁))).trans whole⟩

theorem Walk.visit_eq {status : CheckStatus} (checked : checkRow rt row keysById = some status) :
    Walk.visit rt keysById expectHead walk row =
      some { Walk.meetHead rt (Walk.judge rt (Walk.link rt { walk with checked := walk.checked + 1 } row)
        row status) row expectHead with previous := some row } := by
  rw [Walk.visit, checked]
  rfl

theorem Walk.visit_clean (consistent : walk.Consistent) (sound : LinkSound walk.previous row)
    (judged : checkRow rt row keysById = some .ok ∨ checkRow rt row keysById = some .unverifiable)
    (clean : walk.errorCount = 0) :
    ∃ walk', Walk.visit rt keysById none walk row = some walk' ∧ walk'.errorCount = 0 ∧
      walk'.previous = some row ∧ walk'.first = walk.first.or (some row) ∧ walk'.Consistent := by
  set walk₁ : Walk := { walk with checked := walk.checked + 1 } with counted
  have consistent₁ : walk₁.Consistent := consistent
  have linked : (Walk.link rt walk₁ row).errorCount = 0 :=
    (Walk.link_errorCount consistent₁).mpr ⟨clean, sound⟩
  have began := (Walk.link_rest rt walk₁ row).2 consistent₁
  have whole : (walk.first.or (some row)).isSome = true := by cases walk.first <;> rfl
  rcases judged with checked | checked
  · exact ⟨_, Walk.visit_eq checked, linked, rfl, began, (congrArg Option.isSome began).trans whole⟩
  · exact ⟨_, Walk.visit_eq checked, linked, rfl, began, (congrArg Option.isSome began).trans whole⟩

theorem Walk.run_sound {rows : List Doc} (consistent : walk.Consistent)
    (ran : rows.foldlM (Walk.visit rt keysById expectHead) walk = some walk')
    (clean : walk'.errorCount = 0) (verified : walk'.unverifiable = 0) :
    walk.errorCount = 0 ∧ walk.unverifiable = 0 ∧
      Linked (fun row => checkRow rt row keysById = some .ok) walk.previous rows := by
  induction rows generalizing walk with
  | nil =>
      obtain rfl : walk = walk' := Option.some.inj ran
      exact ⟨clean, verified, trivial⟩
  | cons row rest ih =>
      rw [List.foldlM_cons, Option.bind_eq_bind, Option.bind_eq_some_iff] at ran
      obtain ⟨next, visited, ran⟩ := ran
      have consistent' : next.Consistent := by
        have link :=
          (Walk.link_rest rt { walk with checked := walk.checked + 1 } row).2 consistent
        simp only [Walk.visit, Option.bind_eq_bind, Option.bind_eq_some_iff, Option.pure_def,
          Option.some.injEq] at visited
        obtain ⟨status, -, rfl⟩ := visited
        refine (congrArg Option.isSome ((Walk.meetHead_rest ..).2.2.trans ?_)).trans
          (show (walk.first.or (some row)).isSome = true by cases walk.first <;> rfl)
        cases status <;> exact link
      obtain ⟨clean', verified', linked⟩ := ih consistent' ran
      obtain ⟨before, none, sound, checked, previous, -⟩ :=
        Walk.visit_sound consistent visited clean' verified'
      exact ⟨before, none, sound, checked, previous ▸ linked⟩

theorem Walk.run_clean {rows : List Doc} (consistent : walk.Consistent)
    (linked : Linked (fun row => checkRow rt row keysById = some .ok ∨
      checkRow rt row keysById = some .unverifiable) walk.previous rows)
    (clean : walk.errorCount = 0) :
    ∃ walk', rows.foldlM (Walk.visit rt keysById none) walk = some walk' ∧
      walk'.errorCount = 0 ∧ walk'.first = walk.first.or rows.head? := by
  induction rows generalizing walk with
  | nil => exact ⟨walk, rfl, clean, by simp⟩
  | cons row rest ih =>
      obtain ⟨sound, judged, linked⟩ := linked
      obtain ⟨next, visited, clean', previous, first, consistent'⟩ :=
        Walk.visit_clean consistent sound judged clean
      obtain ⟨walk', ran, clean'', first'⟩ := ih consistent' (previous ▸ linked) clean'
      refine ⟨walk', ?_, clean'', ?_⟩
      · rw [List.foldlM_cons, visited]
        exact ran
      · rw [first', first]
        cases walk.first <;> rfl

theorem Walk.strays_le {rows : List Doc} {legacy : Nat}
    (counted : Walk.strays rt walk rows = some (walk', legacy)) :
    walk.errorCount ≤ walk'.errorCount ∧ walk'.unverifiable = walk.unverifiable := by
  have reported (sample : List Doc) (walk : Walk) :
      walk.errorCount ≤ (sample.foldl (fun walk row => walk.report
        { type := .unchainedRecord, seq := none, id := some (rt.text (Doc.get row "_id")),
          detail := some (rt.text (Doc.get row "module") ++ "/" ++
            rt.text (Doc.get row "action")) }) walk).errorCount ∧
      (sample.foldl (fun walk row => walk.report
        { type := .unchainedRecord, seq := none, id := some (rt.text (Doc.get row "_id")),
          detail := some (rt.text (Doc.get row "module") ++ "/" ++
            rt.text (Doc.get row "action")) }) walk).unverifiable = walk.unverifiable := by
    induction sample generalizing walk with
    | nil => exact ⟨le_refl _, rfl⟩
    | cons row rest ih =>
        obtain ⟨more, same⟩ := ih (walk.report
          { type := .unchainedRecord, seq := none, id := some (rt.text (Doc.get row "_id")),
            detail := some (rt.text (Doc.get row "module") ++ "/" ++
              rt.text (Doc.get row "action")) })
        exact ⟨(Nat.le_succ _).trans more, same⟩
  unfold Walk.strays at counted
  dsimp only at counted
  split at counted
  · rename_i chainStart _
    split at counted
    · rw [Option.bind_eq_bind, Option.bind_eq_some_iff] at counted
      obtain ⟨since, -, counted⟩ := counted
      split at counted
      · simp only [Option.pure_def, Option.some.injEq, Prod.mk.injEq] at counted
        obtain ⟨rfl, -⟩ := counted
        obtain ⟨more, same⟩ := reported (findUnchainedSince rows since 20) walk
        exact ⟨more.trans (Nat.le_add_right ..), same⟩
      · simp only [Option.pure_def, Option.some.injEq, Prod.mk.injEq] at counted
        obtain ⟨rfl, -⟩ := counted
        exact ⟨le_refl _, rfl⟩
    · simp only [Option.pure_def, Option.some.injEq, Prod.mk.injEq] at counted
      obtain ⟨rfl, -⟩ := counted
      exact ⟨le_refl _, rfl⟩
  · simp only [Option.some.injEq, Prod.mk.injEq] at counted
    obtain ⟨rfl, -⟩ := counted
    exact ⟨le_refl _, rfl⟩

theorem verifyAuditChain_sound {rows : List Doc} {report : ChainReport}
    (verified : verifyAuditChain rt rows keysById expectHead = some report)
    (ok : report.ok = true) (all : report.unverifiable = 0) :
    Linked (fun row => checkRow rt row keysById = some .ok) none (streamChain rows) := by
  simp only [verifyAuditChain, Option.bind_eq_bind, Option.bind_eq_some_iff, Option.pure_def,
    Option.some.injEq] at verified
  obtain ⟨walk, ran, ⟨walk', legacy⟩, counted, rfl⟩ := verified
  obtain ⟨more, same⟩ := Walk.strays_le counted
  have clean : (Walk.missHead walk expectHead).errorCount = 0 :=
    Nat.le_zero.mp (more.trans (of_decide_eq_true ok).le)
  have missed : walk.errorCount ≤ (Walk.missHead walk expectHead).errorCount ∧
      (Walk.missHead walk expectHead).unverifiable = walk.unverifiable := by
    unfold Walk.missHead
    split
    · rw [Walk.reportIf_errorCount, (Walk.reportIf_rest ..).1]
      exact ⟨Nat.le_add_right .., rfl⟩
    · exact ⟨le_refl _, rfl⟩
  exact (Walk.run_sound Walk.start_consistent ran (Nat.le_zero.mp (missed.1.trans clean.le))
    (missed.2.symm.trans (same.symm.trans all))).2.2

theorem verifyAuditChain_clean {rows : List Doc}
    (all : ∀ row ∈ rows, chained row = true)
    (dated : ∀ row ∈ rows, ∃ ms, Doc.get row "occurredAt" = some (.date ms))
    (linked : Linked (fun row => checkRow rt row keysById = some .ok ∨
      checkRow rt row keysById = some .unverifiable) none (streamChain rows)) :
    ∃ report, verifyAuditChain rt rows keysById none = some report ∧ report.ok = true := by
  obtain ⟨walk, ran, clean, first⟩ :=
    Walk.run_clean Walk.start_consistent linked rfl
  have unchained (since : Option Int) : rows.countP (unchainedSince since) = 0 := by
    refine List.countP_eq_zero.mpr fun row mem => ?_
    have present := all row mem
    unfold unchainedSince
    cases stored : Doc.get row "seq" with
    | none => simp [chained, stored] at present
    | some v => simp
  have counted : ∃ legacy, Walk.strays rt walk rows = some (walk, legacy) := by
    have head : walk.first = (streamChain rows).head? := first
    unfold Walk.strays
    dsimp only
    cases start : (streamChain rows).head? with
    | none =>
        rw [head, start]
        exact ⟨_, rfl⟩
    | some row =>
        have mem : row ∈ rows := by
          have mem := List.mem_of_mem_head? (Option.mem_def.mpr start)
          rw [streamChain, List.mem_insertionSort] at mem
          exact (List.mem_filter.mp mem).1
        obtain ⟨ms, occurred⟩ := dated row mem
        rw [head, start]
        simp only [Option.bind_some, occurred, truthy, if_true, castSince, Option.bind_eq_bind,
          unchained, lt_irrefl, if_false, Option.pure_def]
        exact ⟨_, rfl⟩
  obtain ⟨legacy, counted⟩ := counted
  unfold verifyAuditChain
  rw [ran]
  simp only [Walk.missHead, Option.bind_eq_bind, Option.bind_some, counted, Option.pure_def]
  exact ⟨_, rfl, decide_eq_true clean⟩

end Visit

/-! ## Sealed rows -/

section Sealed

variable {rt : Runtime} {target row : Doc} {head head' : ChainHead} {key : Option SigningKey}

theorem get_unset (row : Doc) {name other : String} (apart : other ≠ name) :
    Doc.get (unset row name) other = Doc.get row other := by
  induction row with
  | nil => rfl
  | cons entry rest ih =>
      obtain ⟨k, v⟩ := entry
      simp only [Doc.get, unset] at ih
      by_cases dropped : k = name
      · have differs : ¬ other = k := fun same => apart (same.trans dropped)
        simp only [unset, Doc.get, List.filter, dropped, ne_eq, not_true_eq_false, decide_false,
          List.lookup_cons]
        rw [← dropped]
        simp only [beq_false_of_ne differs]
        rw [dropped]
        exact ih
      · simp only [unset, Doc.get, List.filter, ne_eq, dropped, not_false_eq_true, decide_true,
          List.lookup_cons]
        cases other == k with
        | true => rfl
        | false => exact ih

theorem get_linked (target : Doc) (head : ChainHead) (key : Option SigningKey) :
    Doc.get (linked target head key) "seq" = some (storedInteger (head.seq + 1)) ∧
      Doc.get (linked target head key) "prevHash" = some (.str head.hash) ∧
      Doc.get (linked target head key) "hashAlg" =
        some (.str (if key.isSome then "hmac-sha256" else "sha256")) ∧
      ∀ k, key = some k → Doc.get (linked target head key) "keyId" = some (.str k.id) := by
  unfold linked
  cases key with
  | none =>
      refine ⟨?_, ?_, ?_, fun k same => nomatch same⟩
      all_goals
        rw [get_unset _ (by decide)]
        simp [Doc.get_set]
  | some k =>
      refine ⟨?_, ?_, ?_, ?_⟩
      · simp [Doc.get_set]
      · simp [Doc.get_set]
      · simp [Doc.get_set]
      · rintro k' ⟨⟩
        simp [Doc.get_set]

/-- Sealing leaves the other fields alone. -/
theorem get_linked_other {name : String}
    (other : name ∉ ["seq", "prevHash", "hashAlg", "keyId"]) :
    Doc.get (linked target head key) name = Doc.get target name := by
  simp only [List.mem_cons, List.not_mem_nil, or_false, not_or] at other
  obtain ⟨seq, prevHash, hashAlg, keyId⟩ := other
  unfold linked
  cases key with
  | none => rw [get_unset _ keyId]; simp [Doc.get_set, seq, prevHash, hashAlg]
  | some k => simp [Doc.get_set, seq, prevHash, hashAlg, keyId]

theorem chainContent_set_hash (rt : Runtime) (row : Doc) (v : Value) :
    chainContent rt (Doc.set row "hash" v) = chainContent rt row := by
  have same : picked (Doc.set row "hash" v) = picked row := by
    refine List.map_congr_left fun name mem => ?_
    have apart : name ≠ "hash" := by
      rintro rfl
      exact absurd mem (by decide)
    rw [Doc.get_set, if_neg apart]
  rw [chainContent, same, chainContent]

/-- What sealing does: the link to the head, and a hash of the content under the key. -/
structure IsSealed (rt : Runtime) (target : Doc) (head : ChainHead) (key : Option SigningKey)
    (row : Doc) (head' : ChainHead) : Prop where
  next : head'.seq = head.seq + 1
  seq : Doc.get row "seq" = some (storedInteger head'.seq)
  prevHash : Doc.get row "prevHash" = some (.str head.hash)
  hash : Doc.get row "hash" = some (.str head'.hash)
  hashAlg : Doc.get row "hashAlg" = some (.str (if key.isSome then "hmac-sha256" else "sha256"))
  keyId : ∀ k, key = some k → Doc.get row "keyId" = some (.str k.id)
  other : ∀ name, name ∉ ["seq", "prevHash", "hashAlg", "keyId", "hash"] →
    Doc.get row name = Doc.get target name
  content : ∃ content, chainContent rt row = some content ∧
    head'.hash = hashContent rt content (key.map SigningKey.key)

theorem isSealed_of_sealRow (sealed : sealRow rt target head key = some (row, head')) :
    IsSealed rt target head key row head' := by
  simp only [sealRow, Option.bind_eq_bind, Option.bind_eq_some_iff, Option.pure_def,
    Option.some.injEq, Prod.mk.injEq] at sealed
  obtain ⟨content, computed, rfl, rfl⟩ := sealed
  obtain ⟨seq, prevHash, hashAlg, keyId⟩ := get_linked target head key
  have apart {name : String} (other : name ≠ "hash") (v : Value) :
      Doc.get (Doc.set (linked target head key) "hash" v) name =
        Doc.get (linked target head key) name := by
    rw [Doc.get_set, if_neg other]
  refine ⟨rfl, ?_, ?_, ?_, ?_, ?_, ?_, content, ?_, rfl⟩
  · rw [apart (by decide), seq]
  · rw [apart (by decide), prevHash]
  · rw [Doc.get_set, if_pos rfl]
  · rw [apart (by decide), hashAlg]
  · intro k same
    rw [apart (by decide), keyId k same]
  · intro name other
    simp only [List.mem_cons, List.not_mem_nil, or_false, not_or] at other
    rw [apart other.2.2.2.2, get_linked_other (by simp [other])]
  · rw [chainContent_set_hash, computed]

theorem get_sealMemory {unpaired : List UnpairedText}
    (sealed : sealMemory rt target unpaired head key = some (row, head')) :
    (∀ name, name ∉ ["seq", "prevHash", "hashAlg", "keyId", "hash"] →
      Doc.get row name = Doc.get target name) ∧ head'.seq = head.seq + 1 := by
  simp only [sealMemory, Option.bind_eq_bind, Option.bind_eq_some_iff, Option.pure_def,
    Option.some.injEq, Prod.mk.injEq] at sealed
  obtain ⟨content, -, rfl, rfl⟩ := sealed
  refine ⟨fun name other => ?_, rfl⟩
  simp only [List.mem_cons, List.not_mem_nil, or_false, not_or] at other
  rw [Doc.get_set, if_neg other.2.2.2.2, get_linked_other (by simp [other])]

/-- A row whose digest was taken of escaped texts is found wrong with the key it was sealed with, if the
digest of the stored content is another one. -/
theorem compareHash_sealMemory {unpaired : List UnpairedText}
    (sealed : sealMemory rt target unpaired head key = some (row, head')) {content : Json}
    (stored : chainContent rt (linked target head key) = some content)
    (apart : hashContent rt content (key.map SigningKey.key) ≠ head'.hash) :
    compareHash rt row (key.map SigningKey.key) =
      some (.mismatch (hashContent rt content (key.map SigningKey.key))) := by
  simp only [sealMemory, stored, Option.bind_eq_bind, Option.bind_some, Option.pure_def,
    Option.some.injEq, Prod.mk.injEq] at sealed
  obtain ⟨rfl, rfl⟩ := sealed
  rw [compareHash, chainContent_set_hash, stored]
  simp [isText, Doc.get_set, Ne.symm apart]

theorem IsSealed.compareHash (sealed : IsSealed rt target head key row head') :
    compareHash rt row (key.map SigningKey.key) = some .ok := by
  obtain ⟨content, computed, hashed⟩ := sealed.content
  simp [Audit.compareHash, computed, sealed.hash, ← hashed, isText]

/-- A verifier that knows the key under its id, or does not know the id, never finds a sealed
row wrong. -/
theorem IsSealed.checkRow (sealed : IsSealed rt target head key row head') {keysById : KeysById}
    (known : ∀ k, key = some k → keysById k.id = some k.key ∨ keysById k.id = none) :
    checkRow rt row keysById = some .ok ∨ checkRow rt row keysById = some .unverifiable := by
  have compared := sealed.compareHash
  unfold Audit.checkRow
  rw [sealed.hashAlg]
  cases key with
  | none =>
      rw [if_neg (by decide)]
      exact .inl compared
  | some k =>
      have named : keyOf keysById row = keysById k.id := by
        rw [keyOf, sealed.keyId k rfl]
      rw [if_pos (by simp [isText]), named]
      rcases known k rfl with same | unknown
      · rw [same]
        exact .inl compared
      · rw [unknown]
        exact .inr rfl

theorem asNumber_storedInteger (n : Int) :
    asNumber (some (storedInteger n)) = some (.finite n) := by
  unfold storedInteger
  split <;> rfl

theorem IsSealed.linkSound {rt' : Runtime} {target' row' : Doc} {head'' : ChainHead}
    {key' : Option SigningKey} (before : IsSealed rt target head key row head')
    (sealed : IsSealed rt' target' head' key' row' head'') : LinkSound (some row) row' := by
  constructor
  · rw [followsSeq, before.seq, sealed.seq, asNumber_storedInteger, asNumber_storedInteger]
    simp [sealed.next]
  · rw [sealed.prevHash, before.hash]
    simp [strictEqual]

theorem IsSealed.chained (sealed : IsSealed rt target head key row head')
    (started : 0 ≤ head.seq) : chained row = true := by
  have next := sealed.next
  rw [Audit.chained, sealed.seq]
  simp only [storedInteger, decide_eq_true_eq]
  exact_mod_cast (by omega : (1 : Int) ≤ head'.seq)

end Sealed

end AnalyticsBackend.Audit
