import AnalyticsBackend.Connectors.Inspected
import Mathlib.Data.Bool.AllAny

/-!
# What the reader sees of a workbook

What a reader of local headers finds in the stream that the guard makes of the parts that it selects.
-/

namespace AnalyticsBackend.Connectors
open Lib

variable {inflate : Inflater} {buffer : Bytes} {cdOffset budget : Nat}

/-! ## The chunks -/

def entryPiece (inflate : Inflater) (buffer : Bytes) (e : PlacedEntry) : Piece :=
  { chunk := subarray buffer e.localOffset e.stop
    name := e.name
    content := decode inflate e.method (subarray buffer e.dataStart (e.dataStart + e.compressedSize)) }

def emptyStrings : Piece :=
  { chunk := storedEntry SHARED_STRINGS EMPTY_SHARED_STRINGS
    name := SHARED_STRINGS
    content := some EMPTY_SHARED_STRINGS }

/-- The chunks of `partChunks`, each with the part that it is there for. -/
def pieces (inflate : Inflater) (buffer : Bytes) : Bool → List PlacedEntry → List Piece
  | _, [] => []
  | injected, e :: rest =>
      if !injected && (e.name == "xl/styles.xml" || isSheet e.name) then
        emptyStrings :: entryPiece inflate buffer e :: pieces inflate buffer true rest
      else entryPiece inflate buffer e :: pieces inflate buffer injected rest

theorem partChunks_eq {injected : Bool} (parts : List PlacedEntry) :
    partChunks buffer injected parts = (pieces inflate buffer injected parts).map Piece.chunk := by
  induction parts generalizing injected with
  | nil => rfl
  | cons e rest ih =>
      rw [partChunks, pieces]
      split
      · rw [ih]
        rfl
      · rw [ih]
        rfl

/-! ## The part that the guard adds -/

theorem subarray_middle (a b c : Bytes) : subarray (a ++ (b ++ c)) a.length (a.length + b.length) = b := by
  unfold subarray
  rw [List.drop_left, Nat.add_sub_cancel_left, List.take_left]

theorem text_utf8Of {name : String} (ascii : IsAscii name.toList) :
    String.ofList (decodeUtf8 (utf8Of name)) = name := by
  rw [utf8Of, utf8Bytes_ascii ascii, decodeUtf8_ascii ascii, String.ofList_toList]

section
variable {name : String} {data : Bytes}

/-- The header of a stored entry, before its lengths. -/
def storedStart (data : Bytes) : Bytes :=
  uint32LE SIG_LOCAL ++ uint16LE 20 ++ uint16LE 0 ++ uint16LE 0 ++ uint16LE 0 ++ uint16LE 0x21 ++
    uint32LE (crc32 data).toNat

@[simp] theorem length_storedStart : (storedStart data).length = 18 := by
  simp [storedStart]

theorem storedEntry_eq : storedEntry name data =
    storedStart data ++ (uint32LE data.length ++ (uint32LE data.length ++
      (uint16LE (utf8Of name).length ++ (uint16LE 0 ++ (utf8Of name ++ data))))) := by
  simp [storedEntry, storedStart]

theorem length_storedEntry : (storedEntry name data).length = 30 + (utf8Of name).length + data.length := by
  simp [storedEntry_eq]
  omega

theorem stored_signature : readUInt32LE (storedEntry name data) 0 = SIG_LOCAL := by
  have is : storedEntry name data = [] ++ (uint32LE SIG_LOCAL ++ (storedEntry name data).drop 4) := rfl
  exact readUInt32LE_at is rfl

theorem stored_method : readUInt16LE (storedEntry name data) 8 = 0 := by
  have is : storedEntry name data =
      (uint32LE SIG_LOCAL ++ uint16LE 20 ++ uint16LE 0) ++ (uint16LE 0 ++ (storedEntry name data).drop 10) := rfl
  exact readUInt16LE_at is rfl

theorem stored_size (small : data.length < 2 ^ 32) : readUInt32LE (storedEntry name data) 18 = data.length := by
  rw [readUInt32LE_at storedEntry_eq length_storedStart.symm, Nat.mod_eq_of_lt small]

theorem stored_nameLength (short : (utf8Of name).length < 65536) :
    readUInt16LE (storedEntry name data) 26 = (utf8Of name).length := by
  have is : storedEntry name data =
      (storedStart data ++ uint32LE data.length ++ uint32LE data.length) ++
        (uint16LE (utf8Of name).length ++ (uint16LE 0 ++ (utf8Of name ++ data))) := by
    simp [storedEntry_eq]
  rw [readUInt16LE_at is (by simp), Nat.mod_eq_of_lt short]

theorem stored_extraLength : readUInt16LE (storedEntry name data) 28 = 0 := by
  have is : storedEntry name data =
      (storedStart data ++ uint32LE data.length ++ uint32LE data.length ++ uint16LE (utf8Of name).length) ++
        (uint16LE 0 ++ (utf8Of name ++ data)) := by
    simp [storedEntry_eq]
  exact readUInt16LE_at is (by simp)

def storedHeader (name : String) (data : Bytes) : Bytes :=
  storedStart data ++ uint32LE data.length ++ uint32LE data.length ++ uint16LE (utf8Of name).length ++ uint16LE 0

theorem storedEntry_eq_header : storedEntry name data = storedHeader name data ++ (utf8Of name ++ data) := by
  simp [storedEntry_eq, storedHeader]

@[simp] theorem length_storedHeader : (storedHeader name data).length = 30 := by
  simp [storedHeader]

theorem stored_name : subarray (storedEntry name data) 30 (30 + (utf8Of name).length) = utf8Of name := by
  have middle := subarray_middle (storedHeader name data) (utf8Of name) data
  rwa [← storedEntry_eq_header, length_storedHeader] at middle

theorem stored_data :
    subarray (storedEntry name data) (30 + (utf8Of name).length) (30 + (utf8Of name).length + data.length) =
      data := by
  have middle := subarray_middle (storedHeader name data ++ utf8Of name) data []
  rwa [List.append_nil, List.append_assoc, ← storedEntry_eq_header, List.length_append,
    length_storedHeader] at middle

theorem storedEntry_fits (ascii : IsAscii name.toList) (short : (utf8Of name).length < 65536)
    (small : data.length < 2 ^ 32) :
    Piece.Headed ⟨storedEntry name data, name, some data⟩ ∧
      Piece.Fits inflate ⟨storedEntry name data, name, some data⟩ := by
  have start : localData (storedEntry name data) = 30 + (utf8Of name).length := by
    rw [localData, stored_nameLength short, stored_extraLength, Nat.add_zero]
  have ends : localEnd (storedEntry name data) = 30 + (utf8Of name).length + data.length := by
    rw [localEnd, start, stored_size small]
  refine ⟨⟨stored_signature, ?_⟩, ⟨?_, ?_, ?_⟩⟩
  · dsimp only
    rw [start, length_storedEntry]
    exact Nat.le_add_right ..
  · dsimp only
    rw [localName, stored_nameLength short, textAt, stored_name, text_utf8Of ascii]
  · dsimp only
    rw [localContent, if_neg (by rw [ends, length_storedEntry]; exact Nat.lt_irrefl _), stored_method, start,
      ends, stored_data]
    rfl
  · dsimp only
    rw [ends, ← length_storedEntry, List.drop_length]
    rfl

end

theorem length_utf8Of (text : String) : (utf8Of text).length = text.utf8ByteSize := by
  have same := congrArg ByteArray.size (@String.utf8Encode_toList text)
  rwa [List.utf8Encode, List.size_toByteArray] at same

theorem length_emptySharedStrings : EMPTY_SHARED_STRINGS.length < 2 ^ 32 := by
  unfold EMPTY_SHARED_STRINGS
  rw [length_utf8Of, String.utf8ByteSize_append]
  decide +kernel

theorem emptyStrings_fits : emptyStrings.Headed ∧ emptyStrings.Fits inflate :=
  storedEntry_fits (List.all_iff_forall_prop.mp (by decide +kernel)) (by decide +kernel) length_emptySharedStrings

theorem forall_pieces {injected : Bool} {parts : List PlacedEntry} {P : Piece → Prop} (empty : P emptyStrings) :
    (∀ p ∈ pieces inflate buffer injected parts, P p) ↔ ∀ e ∈ parts, P (entryPiece inflate buffer e) := by
  induction parts generalizing injected with
  | nil => exact iff_of_true (fun p mem => nomatch mem) fun e mem => nomatch mem
  | cons e rest ih =>
      rw [pieces, List.forall_mem_cons]
      split
      · rw [List.forall_mem_cons, List.forall_mem_cons, ih]
        exact and_iff_right empty
      · rw [List.forall_mem_cons, ih]

/-! ## The two descriptions of a part -/

/-- The local header of an entry tells of the part that the directory tells of: it gives the name, a size that
stays in the range of the entry, and the content; and behind its data, no record starts in that range. -/
structure Agrees (inflate : Inflater) (buffer : Bytes) (e : PlacedEntry) : Prop where
  name : textAt buffer (e.localOffset + 30)
    (e.localOffset + 30 + readUInt16LE buffer (e.localOffset + 26)) = e.name
  within : e.dataStart + readUInt32LE buffer (e.localOffset + 18) ≤ e.stop
  content : decode inflate (readUInt16LE buffer (e.localOffset + 8))
      (subarray buffer e.dataStart (e.dataStart + readUInt32LE buffer (e.localOffset + 18))) =
    decode inflate e.method (subarray buffer e.dataStart (e.dataStart + e.compressedSize))
  quiet : ∀ k, e.dataStart + readUInt32LE buffer (e.localOffset + 18) ≤ k → k < e.stop →
    startsRecord (buffer.drop k) = false

theorem agrees_iff {inflate : Inflater} {buffer : Bytes} {e : PlacedEntry} : Agrees inflate buffer e ↔
    textAt buffer (e.localOffset + 30)
        (e.localOffset + 30 + readUInt16LE buffer (e.localOffset + 26)) = e.name ∧
      e.dataStart + readUInt32LE buffer (e.localOffset + 18) ≤ e.stop ∧
      decode inflate (readUInt16LE buffer (e.localOffset + 8))
          (subarray buffer e.dataStart (e.dataStart + readUInt32LE buffer (e.localOffset + 18))) =
        decode inflate e.method (subarray buffer e.dataStart (e.dataStart + e.compressedSize)) ∧
      ∀ k < e.stop, e.dataStart + readUInt32LE buffer (e.localOffset + 18) ≤ k →
        startsRecord (buffer.drop k) = false := by
  constructor
  · rintro ⟨name, within, content, quiet⟩
    exact ⟨name, within, content, fun k before after => quiet k after before⟩
  · rintro ⟨name, within, content, quiet⟩
    exact ⟨name, within, content, fun k after before => quiet k before after⟩

instance {inflate : Inflater} {buffer : Bytes} {e : PlacedEntry} : Decidable (Agrees inflate buffer e) :=
  decidable_of_iff _ agrees_iff.symm

theorem subarray_drop (s : Bytes) (k i j : Nat) : subarray (s.drop k) i j = subarray s (k + i) (k + j) := by
  unfold subarray
  rw [List.drop_drop, Nat.add_sub_add_left]

section
variable {e : PlacedEntry}

theorem drop_localOffset (placed : Placed buffer cdOffset e) :
    buffer.drop e.localOffset = subarray buffer e.localOffset e.stop ++ buffer.drop e.stop := by
  have start := placed.dataStart
  have within := placed.within
  have behind : buffer.drop e.stop = (buffer.drop e.localOffset).drop (e.stop - e.localOffset) := by
    rw [List.drop_drop]
    congr 1
    omega
  rw [behind, subarray, List.take_append_drop]

theorem length_chunk (placed : Placed buffer cdOffset e) (whole : cdOffset ≤ buffer.length) :
    e.localOffset + (subarray buffer e.localOffset e.stop).length = e.stop := by
  have start := placed.dataStart
  have within := placed.within
  have stop := placed.stop_le
  rw [subarray, List.length_take, List.length_drop]
  omega

theorem localData_drop (placed : Placed buffer cdOffset e) :
    e.localOffset + localData (buffer.drop e.localOffset) = e.dataStart := by
  rw [localData, readUInt16LE_drop, readUInt16LE_drop, placed.dataStart]
  omega

theorem localEnd_drop (placed : Placed buffer cdOffset e) :
    e.localOffset + localEnd (buffer.drop e.localOffset) =
      e.dataStart + readUInt32LE buffer (e.localOffset + 18) := by
  rw [localEnd, ← Nat.add_assoc, localData_drop placed, readUInt32LE_drop]

theorem chunk_header (placed : Placed buffer cdOffset e) (whole : cdOffset ≤ buffer.length) :
    30 ≤ (subarray buffer e.localOffset e.stop).length ∧
      e.localOffset + localData (subarray buffer e.localOffset e.stop) = e.dataStart ∧
      e.localOffset + localEnd (subarray buffer e.localOffset e.stop) =
        e.dataStart + readUInt32LE buffer (e.localOffset + 18) := by
  have length := length_chunk placed whole
  have start := placed.dataStart
  have within := placed.within
  have atLeast : 30 ≤ (subarray buffer e.localOffset e.stop).length := by omega
  have data := localData_drop placed
  have ends := localEnd_drop placed
  rw [drop_localOffset placed, localData_append atLeast] at data
  rw [drop_localOffset placed, localEnd_append atLeast] at ends
  exact ⟨atLeast, data, ends⟩

theorem localData_le (placed : Placed buffer cdOffset e) (whole : cdOffset ≤ buffer.length) :
    localData (subarray buffer e.localOffset e.stop) ≤ (subarray buffer e.localOffset e.stop).length := by
  have length := length_chunk placed whole
  have within := placed.within
  obtain ⟨-, data, -⟩ := chunk_header placed whole
  omega

theorem entryPiece_headed (placed : Placed buffer cdOffset e) (whole : cdOffset ≤ buffer.length) :
    (entryPiece inflate buffer e).Headed := by
  obtain ⟨atLeast, -, -⟩ := chunk_header placed whole
  have signature := placed.signature
  rw [← Nat.add_zero e.localOffset, ← readUInt32LE_drop, drop_localOffset placed,
    readUInt32LE_append (by omega)] at signature
  exact ⟨signature, localData_le placed whole⟩

theorem localName_chunk (placed : Placed buffer cdOffset e) (whole : cdOffset ≤ buffer.length) :
    localName (subarray buffer e.localOffset e.stop) =
      textAt buffer (e.localOffset + 30) (e.localOffset + 30 + readUInt16LE buffer (e.localOffset + 26)) := by
  rw [← localName_append (localData_le placed whole), ← drop_localOffset placed, localName, textAt, textAt,
    readUInt16LE_drop, subarray_drop, Nat.add_assoc e.localOffset]

theorem localContent_chunk (placed : Placed buffer cdOffset e) (whole : cdOffset ≤ buffer.length)
    (fits : e.dataStart + readUInt32LE buffer (e.localOffset + 18) ≤ e.stop) :
    localContent inflate (subarray buffer e.localOffset e.stop) =
      decode inflate (readUInt16LE buffer (e.localOffset + 8))
        (subarray buffer e.dataStart (e.dataStart + readUInt32LE buffer (e.localOffset + 18))) := by
  obtain ⟨-, -, ends⟩ := chunk_header placed whole
  have length := length_chunk placed whole
  have stop := placed.stop_le
  have bound := localEnd_drop placed
  rw [← localContent_append (b := buffer.drop e.stop) (by omega), ← drop_localOffset placed, localContent,
    if_neg (by rw [List.length_drop]; omega), readUInt16LE_drop, subarray_drop, localData_drop placed,
    localEnd_drop placed]

theorem startsRecord_chunk (placed : Placed buffer cdOffset e) {j : Nat}
    (within : j < (subarray buffer e.localOffset e.stop).length) :
    startsRecord ((subarray buffer e.localOffset e.stop).drop j) =
      startsRecord (buffer.drop (e.localOffset + j)) := by
  have some : (subarray buffer e.localOffset e.stop).drop j ≠ [] := by
    rw [ne_eq, List.drop_eq_nil_iff]
    omega
  rw [← List.drop_drop, drop_localOffset placed, List.drop_append_of_le_length (by omega),
    startsRecord_append some placed.record]

theorem reaches_iff_quiet (placed : Placed buffer cdOffset e) (whole : cdOffset ≤ buffer.length)
    (fits : e.dataStart + readUInt32LE buffer (e.localOffset + 18) ≤ e.stop) :
    localEnd (subarray buffer e.localOffset e.stop) +
          nextRecord ((subarray buffer e.localOffset e.stop).drop
            (localEnd (subarray buffer e.localOffset e.stop))) =
        (subarray buffer e.localOffset e.stop).length ↔
      ∀ k, e.dataStart + readUInt32LE buffer (e.localOffset + 18) ≤ k → k < e.stop →
        startsRecord (buffer.drop k) = false := by
  obtain ⟨-, -, ends⟩ := chunk_header placed whole
  have length := length_chunk placed whole
  have read := @startsRecord_chunk buffer cdOffset e placed
  generalize subarray buffer e.localOffset e.stop = chunk at ends length read ⊢
  have all : localEnd chunk + nextRecord (chunk.drop (localEnd chunk)) = chunk.length ↔
      nextRecord (chunk.drop (localEnd chunk)) = (chunk.drop (localEnd chunk)).length := by
    rw [List.length_drop]
    omega
  rw [all, nextRecord_eq_length_iff, List.length_drop]
  constructor
  · intro quiet k least before
    have here := quiet (k - (e.localOffset + localEnd chunk)) (by omega)
    rw [List.drop_drop, read (by omega)] at here
    rwa [show e.localOffset + (localEnd chunk + (k - (e.localOffset + localEnd chunk))) = k by omega] at here
  · intro quiet j within
    rw [List.drop_drop, read (by omega)]
    exact quiet _ (by omega) (by omega)

theorem fits_iff_agrees (placed : Placed buffer cdOffset e) (whole : cdOffset ≤ buffer.length) :
    (entryPiece inflate buffer e).Fits inflate ↔ Agrees inflate buffer e := by
  obtain ⟨-, -, ends⟩ := chunk_header placed whole
  have length := length_chunk placed whole
  have name := localName_chunk placed whole
  constructor
  · rintro ⟨named, content, reaches⟩
    change localEnd (subarray buffer e.localOffset e.stop) + _ =
      (subarray buffer e.localOffset e.stop).length at reaches
    have fits : e.dataStart + readUInt32LE buffer (e.localOffset + 18) ≤ e.stop := by omega
    exact ⟨name.symm.trans named, fits, (localContent_chunk placed whole fits).symm.trans content,
      (reaches_iff_quiet placed whole fits).mp reaches⟩
  · rintro ⟨named, fits, content, quiet⟩
    exact ⟨name.trans named, (localContent_chunk placed whole fits).trans content,
      (reaches_iff_quiet placed whole fits).mpr quiet⟩

end

/-! ## What the reader sees -/

/-- All that a reader finds in a stream, and where it stops. -/
def readStream (inflate : Inflater) (stream : Bytes) : List Found × Nat :=
  readParts inflate (stream.length + 1) 0 stream

/-- How many bytes a reader inflates. -/
def inflatedBytes (found : List Found) : Nat := (found.map fun f => (f.content.getD []).length).sum

def addedBytes (inspection : Inspection) : Nat :=
  if inspection.hasName SHARED_STRINGS then 0 else EMPTY_SHARED_STRINGS.length

/-- The reader finds each of the selected parts once, where the guard has put it, with its name and its
content, and then the central directory; and it inflates no more than the budget. -/
structure SeesSelected (inflate : Inflater) (buffer : Bytes) (inspection : Inspection) (budget : Nat) :
    Prop where
  once : (orderedParts inspection).Nodup
  finds : readStream inflate (createOrderedXlsxStream buffer inspection) =
    expected 0 (pieces inflate buffer (inspection.hasName SHARED_STRINGS) (orderedParts inspection))
  bounded : inflatedBytes (readStream inflate (createOrderedXlsxStream buffer inspection)).1 ≤
    budget + addedBytes inspection

theorem inflatedBytes_expected {position : Nat} (ps : List Piece) :
    inflatedBytes (expected position ps).1 = (ps.map fun p => (p.content.getD []).length).sum := by
  induction ps generalizing position with
  | nil => rfl
  | cons p rest ih =>
      rw [expected, List.map_cons, List.sum_cons, ← ih]
      rfl

theorem entryPiece_size (e : PlacedEntry) :
    ((entryPiece inflate buffer e).content.getD []).length = contentSize inflate buffer e := rfl

theorem sum_pieces_le {injected : Bool} (parts : List PlacedEntry) :
    ((pieces inflate buffer injected parts).map fun p => (p.content.getD []).length).sum ≤
      (parts.map (contentSize inflate buffer)).sum + if injected then 0 else EMPTY_SHARED_STRINGS.length := by
  induction parts generalizing injected with
  | nil => exact Nat.zero_le _
  | cons e rest ih =>
      rw [pieces, List.map_cons, List.sum_cons]
      split
      · rename_i adds
        have notYet : injected = false := by
          rw [Bool.and_eq_true, Bool.not_eq_true'] at adds
          exact adds.1
        have later := @ih true
        rw [if_pos rfl] at later
        rw [notYet, if_neg Bool.false_ne_true, List.map_cons, List.map_cons, List.sum_cons, List.sum_cons]
        rw [entryPiece_size, emptyStrings, Option.getD_some]
        omega
      · have later := @ih injected
        rw [List.map_cons, List.sum_cons]
        rw [entryPiece_size]
        omega

/-- **The workbook guard.** The reader sees what the guard has selected iff the two descriptions of each
selected part agree. -/
theorem sees_selected_iff {maxEntries total : Nat} {inspection : Inspection}
    (accepted : inspectXlsx buffer budget maxEntries = .ok inspection)
    (measure : measureInflatedSize inflate buffer inspection budget = .ok total) :
    SeesSelected inflate buffer inspection budget ↔
      ∀ e ∈ orderedParts inspection, Agrees inflate buffer e := by
  have inspected := inspected_of_ok accepted
  have placed := fun e mem => inspected.placed e (mem_orderedParts (e := e) mem)
  have central : readUInt32LE (buffer.drop inspection.centralDirectoryOffset) 0 = SIG_CENTRAL := by
    rw [readUInt32LE_drop]
    exact inspected.central
  have headed : ∀ p ∈ pieces inflate buffer (inspection.hasName SHARED_STRINGS) (orderedParts inspection),
      p.Headed :=
    (forall_pieces (@emptyStrings_fits inflate).1).mpr fun e mem =>
      entryPiece_headed (placed e mem) inspected.within
  have agree : (∀ p ∈ pieces inflate buffer (inspection.hasName SHARED_STRINGS) (orderedParts inspection),
      p.Fits inflate) ↔ ∀ e ∈ orderedParts inspection, Agrees inflate buffer e := by
    rw [forall_pieces emptyStrings_fits.2]
    exact forall₂_congr fun e mem => fits_iff_agrees (placed e mem) inspected.within
  have read := @readParts_eq_expected_iff inflate _ 0 _ _ headed central (Nat.lt_succ_self _)
  rw [← partChunks_eq, agree] at read
  constructor
  · intro sees
    exact read.mp sees.finds
  · intro all
    have finds := read.mpr all
    refine ⟨orderedParts_nodup inspected.nodup, finds, ?_⟩
    rw [readStream, createOrderedXlsxStream, finds, inflatedBytes_expected]
    have sum := @sum_pieces_le inflate buffer (inspection.hasName SHARED_STRINGS) (orderedParts inspection)
    have bound := measured inspected measure
    unfold addedBytes
    omega

/-! ## Two workbooks -/

/-- A part of an archive, with the method of each of its descriptions. -/
structure Member where
  name : String
  localMethod : Nat
  method : Nat
  data : Bytes

def Member.localRecord (m : Member) : Bytes :=
  uint32LE SIG_LOCAL ++ uint16LE 20 ++ uint16LE 0 ++ uint16LE m.localMethod ++ uint32LE 0 ++ uint32LE 0 ++
    uint32LE m.data.length ++ uint32LE m.data.length ++ uint16LE (utf8Of m.name).length ++ uint16LE 0 ++
    utf8Of m.name ++ m.data

def Member.centralRecord (m : Member) (offset : Nat) : Bytes :=
  uint32LE SIG_CENTRAL ++ uint16LE 20 ++ uint16LE 20 ++ uint16LE 0 ++ uint16LE m.method ++ uint32LE 0 ++
    uint32LE 0 ++ uint32LE m.data.length ++ uint32LE m.data.length ++ uint16LE (utf8Of m.name).length ++
    uint16LE 0 ++ uint16LE 0 ++ uint16LE 0 ++ uint16LE 0 ++ uint32LE 0 ++ uint32LE offset ++ utf8Of m.name

def directory : Nat → List Member → Bytes
  | _, [] => []
  | offset, m :: rest => m.centralRecord offset ++ directory (offset + m.localRecord.length) rest

def archive (members : List Member) : Bytes :=
  let records := (members.map Member.localRecord).flatten
  let central := directory 0 members
  records ++ central ++ uint32LE SIG_EOCD ++ uint16LE 0 ++ uint16LE 0 ++ uint16LE members.length ++
    uint16LE members.length ++ uint32LE central.length ++ uint32LE records.length ++ uint16LE 0

/-- A workbook with one worksheet of these methods and data; the other parts are empty. -/
def workbook (localMethod method : Nat) (data : Bytes) : Bytes :=
  archive [⟨"xl/workbook.xml", 0, 0, []⟩, ⟨"xl/_rels/workbook.xml.rels", 0, 0, []⟩,
    ⟨"xl/sharedStrings.xml", 0, 0, []⟩, ⟨"xl/worksheets/sheet1.xml", localMethod, method, data⟩]

/-- Three hundred times the letter A, deflated. -/
def deflated : Bytes := [115, 116, 28, 5, 196, 2, 0]

def inflateLetters (data : Bytes) : Inflated :=
  if data = deflated then ⟨[List.replicate 300 65], true⟩ else ⟨[], false⟩

theorem sees_selected_small : ∃ inspection total,
    inspectXlsx (workbook 8 8 deflated) 1000 DEFAULT_MAX_ENTRIES = .ok inspection ∧
      measureInflatedSize inflateLetters (workbook 8 8 deflated) inspection 1000 = .ok total ∧
      SeesSelected inflateLetters (workbook 8 8 deflated) inspection 1000 := by
  obtain ⟨inspection, accepted, passes⟩ := @exists_ok_of_any _ _
    (inspectXlsx (workbook 8 8 deflated) 1000 DEFAULT_MAX_ENTRIES)
    (fun inspection =>
      (measureInflatedSize inflateLetters (workbook 8 8 deflated) inspection 1000).toOption.any (fun _ => true) &&
        decide (∀ e ∈ orderedParts inspection, Agrees inflateLetters (workbook 8 8 deflated) e))
    (by decide +kernel)
  rw [Bool.and_eq_true, decide_eq_true_eq] at passes
  obtain ⟨total, measure, -⟩ := exists_ok_of_any passes.1
  exact ⟨inspection, total, accepted, measure, (sees_selected_iff accepted measure).mpr passes.2⟩

/-- A part that the directory calls stored is inflated by its local header. -/
theorem stored_part_inflates : ∃ inspection total,
    inspectXlsx (workbook 8 0 deflated) 100 DEFAULT_MAX_ENTRIES = .ok inspection ∧
      measureInflatedSize inflateLetters (workbook 8 0 deflated) inspection 100 = .ok total ∧
      100 < inflatedBytes (readStream inflateLetters
        (createOrderedXlsxStream (workbook 8 0 deflated) inspection)).1 ∧
      ¬SeesSelected inflateLetters (workbook 8 0 deflated) inspection 100 := by
  obtain ⟨inspection, accepted, passes⟩ := @exists_ok_of_any _ _
    (inspectXlsx (workbook 8 0 deflated) 100 DEFAULT_MAX_ENTRIES)
    (fun inspection =>
      (measureInflatedSize inflateLetters (workbook 8 0 deflated) inspection 100).toOption.any (fun _ => true) &&
        decide (100 + addedBytes inspection < inflatedBytes (readStream inflateLetters
          (createOrderedXlsxStream (workbook 8 0 deflated) inspection)).1))
    (by decide +kernel)
  rw [Bool.and_eq_true, decide_eq_true_eq] at passes
  obtain ⟨total, measure, -⟩ := exists_ok_of_any passes.1
  refine ⟨inspection, total, accepted, measure, Nat.lt_of_le_of_lt (Nat.le_add_right ..) passes.2, fun sees => ?_⟩
  exact Nat.not_lt_of_le sees.bounded passes.2

end AnalyticsBackend.Connectors
