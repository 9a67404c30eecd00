import AnalyticsBackend.Archive.Manifest
import AnalyticsBackend.Lib.Utf8
import Mathlib.Algebra.Ring.Nat

/-!
# Archives

`writeTarGz` and `extractTarGz` of `utils/tarArchive.js`. Compression is left out: what `zlib`
inflates is the stream that was deflated, in chunks of any lengths.
-/

namespace AnalyticsBackend.Archive
open Lib

abbrev Bytes := List UInt8

/-! ## Errors -/

inductive TarCode where
  | empty
  | entryUnsafe
  | entryTooLarge
  | entryDuplicate
  | sourceChanged
  | corrupt
  | tooLarge
  deriving DecidableEq, Repr

/-- `TarError`. -/
structure TarError where
  code : TarCode
  message : String
  deriving DecidableEq, Repr

inductive TarFailure where
  | tar (error : TarError)
  | fileSystem
  deriving DecidableEq, Repr

def tarError {α : Type} (code : TarCode) (message : String) : Except TarFailure α :=
  .error (.tar { code, message })

/-! ## Names -/

def BLOCK : ℕ := 512
def NAME_MAX : ℕ := 100
def SIZE_MAX : ℕ := 8 * 1024 * 1024 * 1024 - 1

/-- The segments of a name. -/
abbrev Path := List (List Char)

def pathOf (name : String) : Path := splitChars '/' name.toList

/-- `SAFE_NAME.test(name) && !name.split('/').some((s) => s === '.' || s === '..')`. -/
def safeName (name : String) : Bool :=
  (pathOf name).all (fun part => !part.isEmpty && part.all isMemberChar) &&
    !(pathOf name).any fun part => part == ['.'] || part == ['.', '.']

def assertSafeName (name : String) : Except TarFailure Unit :=
  if jsLength name = 0 ∨ jsLength name > NAME_MAX then
    tarError .entryUnsafe s!"Archive entry name is empty or longer than {NAME_MAX} characters"
  else if !safeName name then
    tarError .entryUnsafe s!"Archive entry name \"{slice 120 name}\" is not allowed"
  else .ok ()

/-! ## Headers -/

/-- `value.toString(8)`. -/
def octalDigits (value : Int) : List Char :=
  if value < 0 then '-' :: Nat.toDigits 8 value.natAbs else Nat.toDigits 8 value.natAbs

/-- `digits.padStart(width, '0')`. -/
def padStart (width : ℕ) (digits : List Char) : List Char :=
  List.replicate (width - digits.length) '0' ++ digits

/-- `octal`: the text ends with a NUL. -/
def octal (value : Int) (width : ℕ) : Except TarFailure (List Char) :=
  if (octalDigits value).length > width - 1 then
    tarError .entryTooLarge "Value does not fit in a tar header"
  else .ok (padStart (width - 1) (octalDigits value) ++ [Char.ofNat 0])

/-- `writeString`, into a field of zeros. -/
def writeString (value : List Char) (width : ℕ) : Bytes :=
  (utf8Bytes (value.take width) ++ List.replicate width 0).take width

structure HeaderFields where
  name : List Char
  mode : List Char
  uid : List Char
  gid : List Char
  size : List Char
  mtime : List Char

def headerBytes (fields : HeaderFields) (checksum : Bytes) : Bytes :=
  (writeString fields.name 100 ++ writeString fields.mode 8 ++ writeString fields.uid 8 ++
      writeString fields.gid 8 ++ writeString fields.size 12 ++ writeString fields.mtime 12) ++
    (checksum ++
      -- The type of a regular file, and no link.
      ([0x30] ++ List.replicate 100 0 ++ writeString ("ustar".toList ++ [Char.ofNat 0]) 6 ++
        writeString "00".toList 2 ++ writeString "analivo".toList 32 ++
        writeString "analivo".toList 32 ++ List.replicate 183 0))

def sumBytes (bytes : Bytes) : ℕ := (bytes.map UInt8.toNat).sum

/-- The checksum is taken with eight spaces in its place. -/
def spaces : Bytes := List.replicate 8 0x20

def checksumText (sum : ℕ) : List Char :=
  padStart 6 (Nat.toDigits 8 sum) ++ [Char.ofNat 0, ' ']

/-- `buildHeader`; `mtime` in milliseconds. -/
def buildHeader (name : String) (size : ℕ) (mtime : Int) : Except TarFailure Bytes := do
  assertSafeName name
  if size > SIZE_MAX then tarError .entryTooLarge s!"Archive entry \"{name}\" is too large"
  else do
    let mode ← octal 420 8
    let uid ← octal 0 8
    let gid ← octal 0 8
    let sizeText ← octal size 12
    let mtimeText ← octal (mtime / 1000) 12
    let fields : HeaderFields :=
      { name := name.toList, mode, uid, gid, size := sizeText, mtime := mtimeText }
    return headerBytes fields
      (writeString (checksumText (sumBytes (headerBytes fields spaces))) 8)

/-! ## Writing -/

/-- An entry to archive: what `stat` says of its source, and what is read of it. -/
structure Entry where
  name : String
  isFile : Bool
  size : ℕ
  mtime : Int
  content : Bytes

def padding (size : ℕ) : Bytes :=
  if size % BLOCK = 0 then [] else List.replicate (BLOCK - size % BLOCK) 0

def checkNames : List String → List Entry → Except TarFailure Unit
  | _, [] => .ok ()
  | seen, entry :: rest => do
      assertSafeName entry.name
      if seen.contains entry.name then
        tarError .entryDuplicate s!"Duplicate archive entry \"{entry.name}\""
      else checkNames (entry.name :: seen) rest

def entryBlocks (entry : Entry) : Except TarFailure Bytes := do
  if !entry.isFile then tarError .entryUnsafe s!"\"{entry.name}\" is not a regular file"
  else do
    let header ← buildHeader entry.name entry.size entry.mtime
    if entry.content.length ≠ entry.size then
      tarError .sourceChanged s!"\"{entry.name}\" changed while it was being archived"
    else return header ++ entry.content ++ padding entry.size

def blocks : List Entry → Except TarFailure Bytes
  | [] => .ok (List.replicate (BLOCK * 2) 0)
  | entry :: rest => do
      let first ← entryBlocks entry
      let others ← blocks rest
      return first ++ others

/-- `writeTarGz`: the stream that is compressed. -/
def writeTarGz (entries : List Entry) : Except TarFailure Bytes :=
  if entries.isEmpty then tarError .empty "An archive needs at least one entry"
  else do
    checkNames [] entries
    blocks entries

/-! ## The destination -/

/-- The directories and files below the destination. -/
structure Tree where
  dirs : List Path
  files : List (Path × Bytes)

namespace Tree

def empty : Tree := { dirs := [], files := [] }

def isFile (tree : Tree) (path : Path) : Bool := tree.files.any fun file => file.1 == path

def isDir (tree : Tree) (path : Path) : Bool := path.isEmpty || tree.dirs.contains path

/-- `mkdir(path, { recursive: true })` fails on a file. -/
def makeDirs (tree : Tree) (path : Path) : Except TarFailure Tree :=
  if path.inits.any tree.isFile then .error .fileSystem
  else .ok { tree with dirs := tree.dirs ++ path.inits.filter fun dir => !dir.isEmpty }

/-- `open(path, 'wx')` creates a file that is not there. -/
def create (tree : Tree) (path : Path) : Except TarFailure Tree :=
  if tree.isFile path || tree.isDir path then .error .fileSystem
  else .ok { tree with files := tree.files ++ [(path, [])] }

/-- `handle.write(bytes)`. -/
def write (tree : Tree) (path : Path) (bytes : Bytes) : Tree :=
  { tree with
    files := tree.files.map fun file => if file.1 = path then (file.1, file.2 ++ bytes) else file }

end Tree

/-! ## Reading a header -/

/-- `readString`: up to the first NUL. -/
def readString (header : Bytes) (offset width : ℕ) : List Char :=
  decodeUtf8 (((header.drop offset).take width).takeWhile (· ≠ 0))

def isOctalDigit (c : Char) : Bool := '0' ≤ c && c ≤ '7'

def readOctal (header : Bytes) (offset width : ℕ) : Except TarFailure ℕ :=
  let text := (trim (String.ofList (readString header offset width))).toList
  if !text.all isOctalDigit then tarError .corrupt "Malformed tar header"
  else .ok (Nat.ofDigitChars 8 text 0)

/-- `verifyChecksum`: the checksum counts as spaces. -/
def verifyChecksum (header : Bytes) : Except TarFailure Unit := do
  let stored ← readOctal header 148 8
  if sumBytes (header.take 148 ++ spaces ++ header.drop 156) ≠ stored then
    tarError .corrupt "Tar header checksum mismatch"
  else .ok ()

/-! ## Extracting -/

/-- `{ handle, remaining, pad }`; an extended header has no file. -/
structure Member where
  handle : Option Path
  remaining : ℕ
  pad : ℕ

/-- The variables of `extractTarGz`. Its `state` is `'data'` just when there is a current member. -/
structure Extraction where
  names : List String
  buffer : Bytes
  inflated : ℕ
  current : Option Member
  finished : Bool
  tree : Tree

structure ExtractLimits where
  maxEntries : ℕ
  maxTotalBytes : ℕ

/-- The caps where a call gives none. -/
def EXTRACT_LIMITS : ExtractLimits :=
  { maxEntries := 10000, maxTotalBytes := 20 * 1024 * 1024 * 1024 }

def padOf (size : ℕ) : ℕ := (BLOCK - size % BLOCK) % BLOCK

variable (limits : ExtractLimits) (root : Path)

/-- The body of the loop for a header that is not all zeros. `root` holds the segments of the
destination: only below the root of the file system does a target not start with it. -/
def readHeader (header : Bytes) (s : Extraction) : Except TarFailure Extraction := do
  verifyChecksum header
  let stem := readString header 345 155
  let name := (if stem.isEmpty then [] else stem ++ ['/']) ++ readString header 0 100
  let size ← readOctal header 124 12
  let kind := (header.getD 156 0).toNat
  let type := Char.ofNat (if kind = 0 then 0x30 else kind)
  let cleanName := String.ofList (if name.getLast? = some '/' then name.dropLast else name)
  if type = '5' then do
    assertSafeName cleanName
    let tree ← s.tree.makeDirs (pathOf cleanName)
    return { s with tree }
  else if type = 'x' ∨ type = 'g' then
    if size > 1024 * 1024 then tarError .corrupt "Extended tar header is too large"
    else return { s with current := some { handle := none, remaining := size, pad := padOf size } }
  else if type ≠ '0' ∧ type ≠ '7' then
    tarError .entryUnsafe s!"Archive entry \"{slice 120 cleanName}\" is not a regular file"
  else do
    assertSafeName cleanName
    if s.names.length ≥ limits.maxEntries then tarError .tooLarge "Archive has too many entries"
    else if root.isEmpty then
      tarError .entryUnsafe s!"Archive entry \"{cleanName}\" escapes the destination"
    else do
      let target := pathOf cleanName
      let tree ← s.tree.makeDirs target.dropLast
      let tree ← tree.create target
      return { s with
        tree
        names := s.names ++ [cleanName]
        current := some { handle := some target, remaining := size, pad := padOf size } }

/-- The end of a member. `true`: the loop goes on. -/
def skipPadding (m : Member) (s : Extraction) : Extraction × Bool :=
  if s.buffer.length < m.pad then ({ s with current := some m }, false)
  else ({ s with buffer := s.buffer.drop m.pad, current := none }, true)

/-- The body of the loop in the state `'data'`. -/
def readData (m : Member) (s : Extraction) : Extraction × Bool :=
  if m.remaining > 0 then
    if s.buffer.isEmpty then (s, false)
    else
      let take := min m.remaining s.buffer.length
      let tree := match m.handle with
        | some target => s.tree.write target (s.buffer.take take)
        | none => s.tree
      let m := { m with remaining := m.remaining - take }
      let s := { s with tree, buffer := s.buffer.drop take, current := some m }
      if m.remaining > 0 then (s, false) else skipPadding m s
  else skipPadding m s

/-- One pass of the loop. A header is followed by its data, at once or in the next pass. -/
def pass (s : Extraction) : Except TarFailure (Extraction × Bool) :=
  match s.current with
  | some m => .ok (readData m s)
  | none =>
      if s.buffer.length < BLOCK then .ok (s, false)
      else
        let header := s.buffer.take BLOCK
        let s := { s with buffer := s.buffer.drop BLOCK }
        if header.all (· == 0) then .ok ({ s with finished := true }, false)
        else do
          let s ← readHeader limits root header s
          match s.current with
          | some m => return readData m s
          | none => return (s, true)

theorem pass_header {s : Extraction} (current : s.current = none) (enough : ¬ s.buffer.length < BLOCK) :
    pass limits root s =
      if (s.buffer.take BLOCK).all (· == 0) then
        .ok ({ s with buffer := s.buffer.drop BLOCK, finished := true }, false)
      else
        readHeader limits root (s.buffer.take BLOCK) { s with buffer := s.buffer.drop BLOCK } >>=
          fun s => match s.current with
            | some m => .ok (readData m s)
            | none => .ok (s, true) := by
  rw [pass, current]
  exact if_neg enough

/-- The loop: every pass but the last one takes bytes from the buffer. -/
def drain : ℕ → Extraction → Except TarFailure Extraction
  | 0, s => .ok s
  | fuel + 1, s => do
      let (s, more) ← pass limits root s
      if more then drain fuel s else return s

def onChunk (s : Extraction) (chunk : Bytes) : Except TarFailure Extraction :=
  let s := { s with inflated := s.inflated + chunk.length }
  if s.inflated > limits.maxTotalBytes then
    tarError .tooLarge "Archive inflates beyond the allowed size"
  else if s.finished then .ok s
  else drain limits root (s.buffer.length + chunk.length + 2) { s with buffer := s.buffer ++ chunk }

/-- Before the first chunk, with an empty destination. -/
def Extraction.start : Extraction :=
  { names := [], buffer := [], inflated := 0, current := none, finished := false, tree := Tree.empty }

/-- `extractTarGz` of a stream that comes in chunks: the names, and what the destination holds. -/
def extractTarGz (chunks : List Bytes) : Except TarFailure (List String × Tree) := do
  let s ← chunks.foldlM (onChunk limits root) Extraction.start
  if !s.finished || s.current.isSome then tarError .corrupt "Archive ended unexpectedly"
  else return (s.names, s.tree)

end AnalyticsBackend.Archive
