import Mathlib.Data.List.Sort
import AnalyticsBackend.Connectors.Webhook
import AnalyticsBackend.Lib.LittleEndian
import AnalyticsBackend.Lib.Utf8

/-!
# The workbook guard

`modules/connectors/xlsx/xlsx.zipGuard.js`: the central directory of a workbook, the measure of what its
parts inflate to, and the stream of the parts that the reader needs. `zlib` is a parameter.
-/

namespace AnalyticsBackend.Connectors
open Lib

/-! ## Refusals -/

structure FieldDetail where
  field : String
  message : String
  maxBytes : Nat
  deriving DecidableEq, Repr

/-- A `ConnectorError` of the guard. -/
structure ZipError where
  code : String
  message : String
  statusCode : Nat
  details : Option (List FieldDetail) := none
  deriving DecidableEq, Repr

def invalid (message : String) : ZipError :=
  { code := "FILE_PARSE_FAILED", message, statusCode := 422 }

def notAWorkbook : ZipError := invalid "The file is not a valid XLSX workbook."

def zip64 : ZipError :=
  invalid "ZIP64 workbooks are not supported. Save the file again from your spreadsheet application."

/-- `Math.round(budget / (1024 * 1024))`. -/
def megabytes (budget : Nat) : Nat := (2 * budget + 1048576) / 2097152

def tooLarge (budget : Nat) : ZipError :=
  let size := megabytes budget
  { code := "FILE_TOO_LARGE"
    message := s!"The workbook expands to more than {size} MB when uncompressed. Remove unused sheets or split the file."
    statusCode := 413
    details := some [{ field := "file", message := s!"maximum uncompressed size is {size} MB", maxBytes := budget }] }

/-! ## The central directory -/

def SIG_LOCAL : Nat := 0x04034b50
def SIG_CENTRAL : Nat := 0x02014b50
def SIG_EOCD : Nat := 0x06054b50
def MAX_COMMENT : Nat := 0xffff
def DEFAULT_MAX_ENTRIES : Nat := 2000

def subarray (buffer : Bytes) (start stop : Nat) : Bytes := (buffer.drop start).take (stop - start)

/-- `buffer.toString('utf8', start, stop)`. -/
def textAt (buffer : Bytes) (start stop : Nat) : String :=
  String.ofList (decodeUtf8 (subarray buffer start stop))

/-- The buffer starts like a ZIP archive (local file header). -/
def looksLikeZip (buffer : Bytes) : Bool := 4 ≤ buffer.length && readUInt32LE buffer 0 == SIG_LOCAL

/-- The last end record whose comment is short enough. -/
def findEocd (buffer : Bytes) : Option Nat :=
  let min := buffer.length - (22 + MAX_COMMENT)
  let count := buffer.length - 22 + 1 - min
  ((List.range count).map fun k => buffer.length - 22 - k).find? fun i =>
    readUInt32LE buffer i == SIG_EOCD

/-- An entry of the central directory. -/
structure ZipEntry where
  name : String
  method : Nat
  flags : Nat
  compressedSize : Nat
  uncompressedSize : Nat
  localOffset : Nat
  deriving DecidableEq

/-- Read `count` entries from `p` on. -/
def readEntries (buffer : Bytes) (cdOffset budget : Nat) :
    Nat → Nat → Nat → Except ZipError (List ZipEntry)
  | 0, _, _ => .ok []
  | count + 1, p, declared =>
      if buffer.length < p + 46 ∨ readUInt32LE buffer p ≠ SIG_CENTRAL then .error notAWorkbook
      else
        let nameLength := readUInt16LE buffer (p + 28)
        let extraLength := readUInt16LE buffer (p + 30)
        let commentLength := readUInt16LE buffer (p + 32)
        let entry : ZipEntry :=
          { name := textAt buffer (p + 46) (p + 46 + nameLength)
            method := readUInt16LE buffer (p + 10)
            flags := readUInt16LE buffer (p + 8)
            compressedSize := readUInt32LE buffer (p + 20)
            uncompressedSize := readUInt32LE buffer (p + 24)
            localOffset := readUInt32LE buffer (p + 42) }
        if entry.flags % 2 = 1 then
          .error (invalid "Password-protected workbooks are not supported.")
        else if entry.method ≠ 0 ∧ entry.method ≠ 8 then
          .error (invalid "The workbook uses an unsupported compression method.")
        else if entry.compressedSize = 0xffffffff ∨ entry.uncompressedSize = 0xffffffff ∨
            entry.localOffset = 0xffffffff then .error zip64
        else if cdOffset < entry.localOffset + 30 ∨ readUInt32LE buffer entry.localOffset ≠ SIG_LOCAL then
          .error notAWorkbook
        else if budget < declared + entry.uncompressedSize then .error (tooLarge budget)
        else do
          let rest ← readEntries buffer cdOffset budget count
            (p + (46 + nameLength + extraLength + commentLength)) (declared + entry.uncompressedSize)
          return entry :: rest

/-- An entry with the range of its bytes. -/
structure PlacedEntry extends ZipEntry where
  dataStart : Nat
  stop : Nat
  deriving DecidableEq

def placeEntries (buffer : Bytes) (cdOffset : Nat) : List ZipEntry → Except ZipError (List PlacedEntry)
  | [] => .ok []
  | entry :: rest =>
      let stop := (rest.head?.map ZipEntry.localOffset).getD cdOffset
      let localName := readUInt16LE buffer (entry.localOffset + 26)
      let localExtra := readUInt16LE buffer (entry.localOffset + 28)
      let dataStart := entry.localOffset + 30 + localName + localExtra
      if stop < dataStart + entry.compressedSize then .error notAWorkbook
      else do
        let placed ← placeEntries buffer cdOffset rest
        return { entry with dataStart, stop } :: placed

/-- The number of a worksheet's name: `/^xl\/worksheets\/sheet(\d+)\.xml$/`. -/
def sheetDigits (name : String) : Option (List Char) :=
  match "xl/worksheets/sheet".toList.isPrefixOf? name.toList with
  | none => none
  | some rest =>
      match ".xml".toList.isSuffixOf? rest with
      | none => none
      | some digits => if !digits.isEmpty && digits.all Char.isDigit then some digits else none

def isSheet (name : String) : Bool := (sheetDigits name).isSome

structure Inspection where
  entries : List PlacedEntry
  centralDirectoryOffset : Nat

/-- `inspection.names.has(name)`. -/
def Inspection.hasName (inspection : Inspection) (name : String) : Bool :=
  inspection.entries.any fun e => e.name == name

/-- Read and validate the ZIP central directory. -/
def inspectXlsx (buffer : Bytes) (maxUncompressedBytes maxEntries : Nat) : Except ZipError Inspection :=
  if !looksLikeZip buffer ∨ buffer.length < 22 then .error notAWorkbook
  else
    match findEocd buffer with
    | none => .error notAWorkbook
    | some eocd =>
        let totalEntries := readUInt16LE buffer (eocd + 10)
        let cdSize := readUInt32LE buffer (eocd + 12)
        let cdOffset := readUInt32LE buffer (eocd + 16)
        if totalEntries = 0xffff ∨ cdOffset = 0xffffffff ∨ cdSize = 0xffffffff then .error zip64
        else if totalEntries = 0 ∨ maxEntries < totalEntries then
          .error (invalid "The workbook contains too many parts.")
        else if eocd < cdOffset + cdSize then .error notAWorkbook
        else do
          let entries ← readEntries buffer cdOffset maxUncompressedBytes totalEntries cdOffset 0
          let byOffset := entries.insertionSort fun a b => a.localOffset ≤ b.localOffset
          let placed ← placeEntries buffer cdOffset byOffset
          -- the entries keep the order of the directory: once placed, their offsets differ
          let inspection : Inspection :=
            { entries := entries.filterMap fun e => placed.find? fun p => p.toZipEntry = e
              centralDirectoryOffset := cdOffset }
          if !inspection.hasName "xl/workbook.xml" ∨ !inspection.hasName "xl/_rels/workbook.xml.rels" then
            .error notAWorkbook
          else if !inspection.entries.any fun e => isSheet e.name then
            .error (invalid "The workbook has no worksheets.")
          else return inspection

/-! ## The parts that the reader needs -/

def PART_ORDER : List String :=
  ["_rels/.rels", "xl/_rels/workbook.xml.rels", "xl/workbook.xml", "xl/sharedStrings.xml", "xl/styles.xml"]

def SHARED_STRINGS : String := "xl/sharedStrings.xml"

/-- `Number` of a natural number: rounded to 53 bits, half to even; infinity is `2 ^ 1024`. -/
def toDouble (n : Nat) : Nat :=
  if n < 2 ^ 53 then n
  else
    let unit := 2 ^ (Nat.log2 n - 52)
    let q := n / unit
    let r := n % unit
    let rounded := if unit < 2 * r ∨ (2 * r = unit ∧ q % 2 = 1) then q + 1 else q
    min (rounded * unit) (2 ^ 1024)

def sheetNumber (name : String) : Nat :=
  toDouble (Nat.ofDigitChars 10 ((sheetDigits name).getD []) 0)

/-- The parts the streaming reader needs, in the order it needs them. -/
def orderedParts (inspection : Inspection) : List PlacedEntry :=
  -- of entries with one name, the map keeps the last
  let head := PART_ORDER.filterMap fun n => inspection.entries.reverse.find? fun e => e.name == n
  let sheets := (inspection.entries.filter fun e => isSheet e.name).insertionSort fun a b =>
    sheetNumber a.name ≤ sheetNumber b.name
  head ++ sheets

/-- What `zlib` makes of deflated data: the chunks it emits, and whether the data ended well. -/
structure Inflated where
  chunks : List Bytes
  complete : Bool

abbrev Inflater := Bytes → Inflated

def countChunks (budget : Nat) (total : Nat) (chunks : List Bytes) : Except ZipError Nat :=
  chunks.foldlM (fun total chunk =>
    if budget < total + chunk.length then .error (tooLarge budget) else .ok (total + chunk.length)) total

def measureEntry (inflate : Inflater) (buffer : Bytes) (budget total : Nat) (entry : PlacedEntry) :
    Except ZipError Nat :=
  let data := subarray buffer entry.dataStart (entry.dataStart + entry.compressedSize)
  if entry.method = 0 then countChunks budget total [data]
  else do
    let total ← countChunks budget total (inflate data).chunks
    if (inflate data).complete then return total else .error notAWorkbook

/-- Inflate the parts the reader will consume, counting the output. -/
def measureInflatedSize (inflate : Inflater) (buffer : Bytes) (inspection : Inspection)
    (maxUncompressedBytes : Nat) : Except ZipError Nat :=
  (orderedParts inspection).foldlM (measureEntry inflate buffer maxUncompressedBytes) 0

/-! ## The stream -/

/-- One step of the checksum: `c & 1 ? 0xedb88320 ^ (c >>> 1) : c >>> 1`. -/
def crcStep (c : UInt32) : UInt32 := if c &&& 1 = 1 then (0xedb88320 : UInt32) ^^^ (c >>> 1) else c >>> 1

def crcTable (n : UInt32) : UInt32 := (List.range 8).foldl (fun c _ => crcStep c) n

def crc32 (buf : Bytes) : UInt32 :=
  let crc : UInt32 := buf.foldl (fun (crc : UInt32) byte =>
    crcTable ((crc ^^^ byte.toUInt32) &&& 0xff) ^^^ (crc >>> 8)) 0xffffffff
  crc ^^^ (0xffffffff : UInt32)

def utf8Of (text : String) : Bytes := utf8Bytes text.toList

/-- A stored (uncompressed) local entry. -/
def storedEntry (name : String) (data : Bytes) : Bytes :=
  let nameBuf := utf8Of name
  uint32LE SIG_LOCAL ++ uint16LE 20 ++ uint16LE 0 ++ uint16LE 0 ++ uint16LE 0 ++ uint16LE 0x21 ++
    uint32LE (crc32 data).toNat ++ uint32LE data.length ++ uint32LE data.length ++
    uint16LE nameBuf.length ++ uint16LE 0 ++ nameBuf ++ data

def EMPTY_SHARED_STRINGS : Bytes :=
  utf8Of ("<?xml version=\"1.0\" encoding=\"UTF-8\" standalone=\"yes\"?>" ++
    "<sst xmlns=\"http://schemas.openxmlformats.org/spreadsheetml/2006/main\" count=\"0\" uniqueCount=\"0\"/>")

/-- The chunks of the parts; the empty shared strings come before the styles or the first sheet. -/
def partChunks (buffer : Bytes) : Bool → List PlacedEntry → List Bytes
  | _, [] => []
  | injected, entry :: rest =>
      let chunk := subarray buffer entry.localOffset entry.stop
      if !injected && (entry.name == "xl/styles.xml" || isSheet entry.name) then
        storedEntry SHARED_STRINGS EMPTY_SHARED_STRINGS :: chunk :: partChunks buffer true rest
      else chunk :: partChunks buffer injected rest

/-- Re-emit the archive with only the parts ExcelJS reads, in streaming-safe order, followed by the
original central directory. -/
def createOrderedXlsxStream (buffer : Bytes) (inspection : Inspection) : Bytes :=
  (partChunks buffer (inspection.hasName SHARED_STRINGS) (orderedParts inspection)).flatten ++
    buffer.drop inspection.centralDirectoryOffset

end AnalyticsBackend.Connectors
