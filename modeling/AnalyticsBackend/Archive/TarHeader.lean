import AnalyticsBackend.Archive.Tar
import AnalyticsBackend.Lib.JsOrder
import Mathlib.Data.Bool.AllAny
import Mathlib.Data.List.GetD

/-!
# Headers of an archive

What the reader reads of a header that the writer built: the name, the size and a checksum that is
right.
-/

namespace AnalyticsBackend.Archive
open Lib

/-! ## Fields -/

/-- Characters that are one byte each, and no NUL. -/
def IsPlain (text : List Char) : Prop := ∀ c ∈ text, 0 < c.toNat ∧ c.toNat < 128

theorem IsPlain.isAscii {text : List Char} (plain : IsPlain text) : IsAscii text :=
  fun c mem => (plain c mem).2

def asciiBytes (text : List Char) : Bytes := text.map fun c => c.val.toUInt8

@[simp] theorem length_asciiBytes (text : List Char) : (asciiBytes text).length = text.length :=
  List.length_map ..

theorem asciiBytes_append (text more : List Char) :
    asciiBytes (text ++ more) = asciiBytes text ++ asciiBytes more := List.map_append

@[simp] theorem length_writeString (value : List Char) (width : ℕ) :
    (writeString value width).length = width := by
  rw [writeString, List.length_take, List.length_append, List.length_replicate]
  omega

theorem byte_ne_zero {c : Char} (plain : 0 < c.toNat ∧ c.toNat < 128) : c.val.toUInt8 ≠ 0 := by
  intro zero
  have same := toNat_toUInt8 plain.2
  rw [zero] at same
  have none : c.toNat = 0 := same.symm
  omega

theorem writeString_ascii {value : List Char} (ascii : IsAscii value) (width : ℕ) :
    writeString value width = (asciiBytes value ++ List.replicate width 0).take width := by
  have cut : IsAscii (value.take width) := fun c mem => ascii c (List.mem_of_mem_take mem)
  rw [writeString, utf8Bytes_ascii cut, List.map_take, List.take_append, List.take_append,
    List.take_take, Nat.min_self, List.length_take]
  congr 2
  rw [asciiBytes]
  omega

theorem takeWhile_writeString {text tail : List Char} {width : ℕ} (plain : IsPlain text)
    (ascii : IsAscii tail) (ends : tail = [] ∨ ∃ more, tail = Char.ofNat 0 :: more)
    (fits : text.length ≤ width) :
    (writeString (text ++ tail) width).takeWhile (· ≠ 0) = asciiBytes text := by
  have whole : IsAscii (text ++ tail) := fun c mem =>
    (List.mem_append.mp mem).elim (plain.isAscii c) (ascii c)
  have nonzero : ∀ b ∈ asciiBytes text, decide (b ≠ 0) = true := by
    intro b mem
    obtain ⟨c, inside, rfl⟩ := List.mem_map.mp mem
    exact decide_eq_true (byte_ne_zero (plain c inside))
  rw [writeString_ascii whole, asciiBytes_append, List.append_assoc, List.take_append,
    length_asciiBytes, List.take_of_length_le (by rwa [length_asciiBytes]),
    List.takeWhile_append_of_pos nonzero]
  -- Behind the text comes a zero, or the end of the field.
  have rest : (asciiBytes tail ++ List.replicate width 0).take (width - text.length) = [] ∨
      ∃ more, (asciiBytes tail ++ List.replicate width 0).take (width - text.length) = 0 :: more := by
    cases h : width - text.length with
    | zero => exact .inl rfl
    | succ n =>
        right
        rcases ends with rfl | ⟨more, rfl⟩
        · obtain ⟨m, rfl⟩ : ∃ m, width = m + 1 := ⟨width - 1, by omega⟩
          exact ⟨_, rfl⟩
        · exact ⟨_, rfl⟩
  rcases rest with none | ⟨more, zero⟩
  · rw [none, List.takeWhile_nil, List.append_nil]
  · rw [zero, List.takeWhile_cons_of_neg (by decide), List.append_nil]

theorem readString_of_eq {header before after : Bytes} {text tail : List Char} {offset width : ℕ}
    (is : header = before ++ (writeString (text ++ tail) width ++ after))
    (at' : before.length = offset) (plain : IsPlain text) (ascii : IsAscii tail)
    (ends : tail = [] ∨ ∃ more, tail = Char.ofNat 0 :: more) (fits : text.length ≤ width) :
    readString header offset width = text := by
  have field : (writeString (text ++ tail) width ++ after).take width =
      writeString (text ++ tail) width := List.take_left' (length_writeString _ _)
  rw [readString, is, ← at', List.drop_left, field, takeWhile_writeString plain ascii ends fits]
  exact decodeUtf8_ascii plain.isAscii

/-! ## Octal numbers -/

theorem isOctalDigit_digitChar {d : ℕ} (small : d < 8) :
    isOctalDigit d.digitChar = true ∧ isJsSpace d.digitChar = false ∧
      0 < d.digitChar.toNat ∧ d.digitChar.toNat < 128 := by
  have all : ∀ d < 8, isOctalDigit d.digitChar = true ∧ isJsSpace d.digitChar = false ∧
      0 < d.digitChar.toNat ∧ d.digitChar.toNat < 128 := by decide
  exact all d small

theorem octal_digits (n width : ℕ) : ∀ c ∈ padStart width (Nat.toDigits 8 n),
    isOctalDigit c = true ∧ isJsSpace c = false ∧ 0 < c.toNat ∧ c.toNat < 128 := by
  have digits : ∀ c ∈ Nat.toDigits 8 n,
      isOctalDigit c = true ∧ isJsSpace c = false ∧ 0 < c.toNat ∧ c.toNat < 128 := by
    induction n using Nat.strongRecOn with
    | _ n ih =>
        rw [Nat.toDigits_eq_if (by decide)]
        split
        next small =>
          rw [List.forall_mem_singleton]
          exact isOctalDigit_digitChar small
        next large =>
          rw [List.forall_mem_append, List.forall_mem_singleton]
          exact ⟨ih (n / 8) (by omega), isOctalDigit_digitChar (Nat.mod_lt _ (by decide))⟩
  intro c mem
  rcases List.mem_append.mp mem with zero | digit
  · rw [List.eq_of_mem_replicate zero]
    exact isOctalDigit_digitChar (by decide : 0 < 8)
  · exact digits c digit

theorem ofDigitChars_padStart (n width : ℕ) :
    Nat.ofDigitChars 8 (padStart width (Nat.toDigits 8 n)) 0 = n := by
  rw [padStart, Nat.ofDigitChars_append, Nat.ofDigitChars_replicate_zero, Nat.mul_zero,
    Nat.ofDigitChars_toDigits (by decide) (by decide)]

theorem readOctal_of_eq {header before after : Bytes} {n digits offset width : ℕ} {tail : List Char}
    (is : header = before ++ (writeString (padStart digits (Nat.toDigits 8 n) ++ tail) width ++ after))
    (at' : before.length = offset) (ascii : IsAscii tail)
    (ends : ∃ more, tail = Char.ofNat 0 :: more)
    (fits : (padStart digits (Nat.toDigits 8 n)).length ≤ width) :
    readOctal header offset width = .ok n := by
  have plain : IsPlain (padStart digits (Nat.toDigits 8 n)) := fun c mem =>
    (octal_digits n digits c mem).2.2
  rw [readOctal, readString_of_eq is at' plain ascii (.inr ends) fits, trim_of_no_space fun c mem => ?_]
  · rw [String.toList_ofList, ofDigitChars_padStart]
    have all : (padStart digits (Nat.toDigits 8 n)).all isOctalDigit = true :=
      List.all_eq_true.mpr fun c mem => (octal_digits n digits c mem).1
    rw [all]
    rfl
  · rw [String.toList_ofList] at mem
    exact (octal_digits n digits c mem).2.1

/-! ## Names -/

theorem splitChars_concat (c : Char) (s : List Char) :
    splitChars c (s ++ [c]) = splitChars c s ++ [[]] := by
  induction s with
  | nil => simp [splitChars]
  | cons d rest ih =>
      rw [List.cons_append, splitChars_cons, splitChars_cons, ih]
      split
      · rfl
      · cases parts : splitChars c rest with
        | nil => exact absurd parts (splitChars_ne_nil c rest)
        | cons part parts' => rfl

theorem isMemberChar_plain {c : Char} (member : isMemberChar c = true) :
    0 < c.toNat ∧ c.toNat < 128 := by
  delta isMemberChar Char.isAlphanum Char.isAlpha Char.isUpper Char.isLower Char.isDigit at member
  simp only [Bool.or_eq_true, Bool.and_eq_true, decide_eq_true_eq, beq_iff_eq, ge_iff_le,
    UInt32.le_iff_toNat_le] at member
  rcases member with ((((⟨low, high⟩ | ⟨low, high⟩) | ⟨low, high⟩) | rfl) | rfl) | rfl
  · exact ⟨lt_of_lt_of_le (by decide) low, lt_of_le_of_lt high (by decide)⟩
  · exact ⟨lt_of_lt_of_le (by decide) low, lt_of_le_of_lt high (by decide)⟩
  · exact ⟨lt_of_lt_of_le (by decide) low, lt_of_le_of_lt high (by decide)⟩
  · decide
  · decide
  · decide

structure SafeName (name : String) : Prop where
  short : name.toList.length ≤ 100
  plain : IsPlain name.toList
  last : name.toList.getLast? ≠ some '/'
  /-- The path has no empty segment, and it has one. -/
  segments : [] ∉ pathOf name

theorem assertSafeName_eq_ok {name : String} {u : Unit} (safe : assertSafeName name = .ok u) :
    SafeName name := by
  unfold assertSafeName at safe
  split at safe
  next => cases safe
  next short =>
    split at safe
    next => cases safe
    next named =>
      have named : safeName name = true := by simpa using named
      simp only [safeName, Bool.and_eq_true, List.all_eq_true, Bool.not_eq_true',
        List.isEmpty_eq_false_iff] at named
      have parts := named.1
      have segments : [] ∉ pathOf name := fun mem => (parts [] mem).1 rfl
      refine ⟨?_, fun c mem => ?_, fun last => ?_, segments⟩
      · have := length_le_jsLength name
        simp only [NAME_MAX] at short
        omega
      · by_cases slash : c = '/'
        · rw [slash]
          decide
        · obtain ⟨part, inside, there⟩ := mem_splitChars mem slash
          exact isMemberChar_plain ((parts part inside).2 c there)
      · obtain ⟨before, eq⟩ := List.getLast?_eq_some_iff.mp last
        refine segments ?_
        rw [pathOf, eq, splitChars_concat]
        exact List.mem_append_right _ (List.mem_singleton_self _)

/-! ## A header that was built -/

/-- A header that the reader takes for a regular file of that name and size. -/
structure ReadsAs (header : Bytes) (name : String) (size : ℕ) : Prop where
  length : header.length = BLOCK
  some : header.all (· == 0) = false
  checksum : verifyChecksum header = .ok ()
  stem : readString header 345 155 = []
  named : readString header 0 100 = name.toList
  sized : readOctal header 124 12 = .ok size
  kind : header.getD 156 0 = 0x30

theorem octal_eq_ok {value : Int} {width : ℕ} {text : List Char} (written : octal value width = .ok text) :
    text = padStart (width - 1) (octalDigits value) ++ [Char.ofNat 0] ∧
      (octalDigits value).length ≤ width - 1 := by
  unfold octal at written
  split at written
  next => cases written
  next fits => exact ⟨(Except.ok.inj written).symm, Nat.le_of_not_lt fits⟩

theorem length_padStart {width : ℕ} {digits : List Char} (fits : digits.length ≤ width) :
    (padStart width digits).length = width := by
  rw [padStart, List.length_append, List.length_replicate]
  omega

theorem isAscii_nul : IsAscii [Char.ofNat 0] := by
  intro c mem
  rw [List.mem_singleton.mp mem]
  decide

def fieldsBefore (fields : HeaderFields) : Bytes :=
  writeString fields.name 100 ++ writeString fields.mode 8 ++ writeString fields.uid 8 ++
    writeString fields.gid 8 ++ writeString fields.size 12 ++ writeString fields.mtime 12

def fieldsBehind : Bytes :=
  [0x30] ++ List.replicate 100 0 ++ writeString ("ustar".toList ++ [Char.ofNat 0]) 6 ++
    writeString "00".toList 2 ++ writeString "analivo".toList 32 ++
    writeString "analivo".toList 32 ++ List.replicate 183 0

theorem headerBytes_eq (fields : HeaderFields) (checksum : Bytes) :
    headerBytes fields checksum = fieldsBefore fields ++ (checksum ++ fieldsBehind) := rfl

theorem headerBytes_name (fields : HeaderFields) (checksum : Bytes) :
    headerBytes fields checksum = [] ++ (writeString (fields.name ++ []) 100 ++
      (writeString fields.mode 8 ++ writeString fields.uid 8 ++ writeString fields.gid 8 ++
        writeString fields.size 12 ++ writeString fields.mtime 12 ++ (checksum ++ fieldsBehind))) := by
  simp only [headerBytes_eq, fieldsBefore, List.append_assoc, List.append_nil, List.nil_append]

theorem headerBytes_size (fields : HeaderFields) (checksum : Bytes) :
    headerBytes fields checksum = (writeString fields.name 100 ++ writeString fields.mode 8 ++
      writeString fields.uid 8 ++ writeString fields.gid 8) ++ (writeString fields.size 12 ++
        (writeString fields.mtime 12 ++ (checksum ++ fieldsBehind))) := by
  simp only [headerBytes_eq, fieldsBefore, List.append_assoc]

@[simp] theorem length_fieldsBefore (fields : HeaderFields) : (fieldsBefore fields).length = 148 := by
  simp [fieldsBefore]

@[simp] theorem length_fieldsBehind : fieldsBehind.length = 356 := by
  simp only [fieldsBehind, List.length_append, List.length_replicate, length_writeString,
    List.length_singleton]

theorem sumBytes_le (bytes : Bytes) : sumBytes bytes ≤ 255 * bytes.length := by
  unfold sumBytes
  induction bytes with
  | nil => exact Nat.zero_le _
  | cons b rest ih =>
      have small := UInt8.toNat_lt b
      rw [List.map_cons, List.sum_cons, List.length_cons]
      omega

theorem verifyChecksum_headerBytes (fields : HeaderFields) :
    verifyChecksum (headerBytes fields
      (writeString (checksumText (sumBytes (headerBytes fields spaces))) 8)) = .ok () := by
  have bound := sumBytes_le (headerBytes fields spaces)
  generalize total : sumBytes (headerBytes fields spaces) = sum at bound ⊢
  have digits : (Nat.toDigits 8 sum).length ≤ 6 := by
    rw [Nat.length_toDigits_le_iff (by decide) (by decide)]
    rw [headerBytes_eq, List.length_append, List.length_append, length_fieldsBefore,
      length_fieldsBehind, spaces, List.length_replicate] at bound
    omega
  have stored : readOctal (headerBytes fields (writeString (checksumText sum) 8)) 148 8 = .ok sum := by
    refine readOctal_of_eq (headerBytes_eq _ _) (length_fieldsBefore fields) ?_ ⟨_, rfl⟩ ?_
    · have both : ∀ c ∈ [Char.ofNat 0, ' '], c.toNat < 128 := List.all_iff_forall_prop.mp (by decide)
      exact both
    · rw [length_padStart digits]
      decide
  rw [verifyChecksum, stored, ok_bind, headerBytes_eq, if_neg]
  have front : (fieldsBefore fields ++ (writeString (checksumText sum) 8 ++ fieldsBehind)).take 148 =
      fieldsBefore fields := List.take_left' (length_fieldsBefore fields)
  have back : (fieldsBefore fields ++ (writeString (checksumText sum) 8 ++ fieldsBehind)).drop 156 =
      fieldsBehind := by
    rw [← List.append_assoc]
    exact List.drop_left' (by simp)
  rw [front, back, List.append_assoc, ← headerBytes_eq, total]
  exact fun apart => apart rfl

/-- Nothing is written where a longer name would have its first part. -/
theorem readString_stem (fields : HeaderFields) {checksum : Bytes} (long : checksum.length = 8) :
    readString (headerBytes fields checksum) 345 155 = [] := by
  have shape : headerBytes fields checksum = (fieldsBefore fields ++ (checksum ++
      ([0x30] ++ List.replicate 100 0 ++ writeString ("ustar".toList ++ [Char.ofNat 0]) 6 ++
        writeString "00".toList 2 ++ writeString "analivo".toList 32 ++
        writeString "analivo".toList 32 ++ List.replicate 16 0))) ++ List.replicate 167 0 := by
    rw [headerBytes_eq, fieldsBehind, show (183 : ℕ) = 16 + 167 from rfl, List.replicate_add]
    simp only [List.append_assoc]
  have zeros : (headerBytes fields checksum).drop 345 = List.replicate 167 0 := by
    rw [shape]
    refine List.drop_left' ?_
    simp only [List.length_append, length_fieldsBefore, long, List.length_singleton,
      List.length_replicate, length_writeString]
  have read : ((List.replicate 167 (0 : UInt8)).take 155).takeWhile (· ≠ 0) = [] := by
    rw [List.take_replicate, List.takeWhile_replicate]
    rfl
  rw [readString, zeros, read]
  rfl

theorem headerBytes_reads {fields : HeaderFields} {name : String} {size : ℕ}
    (named : fields.name = name.toList) (safe : SafeName name)
    (sized : fields.size = padStart 11 (Nat.toDigits 8 size) ++ [Char.ofNat 0])
    (fits : (Nat.toDigits 8 size).length ≤ 11) :
    ReadsAs (headerBytes fields (writeString (checksumText (sumBytes (headerBytes fields spaces))) 8))
      name size := by
  have checksum := verifyChecksum_headerBytes fields
  generalize is : writeString (checksumText (sumBytes (headerBytes fields spaces))) 8 = field
    at checksum ⊢
  have long : field.length = 8 := by rw [← is, length_writeString]
  have behind : fieldsBehind = 0x30 :: fieldsBehind.tail := rfl
  refine ⟨?_, ?_, checksum, ?_, ?_, ?_, ?_⟩
  · rw [headerBytes_eq, List.length_append, List.length_append, length_fieldsBefore,
      length_fieldsBehind, long]
    rfl
  · rw [headerBytes_eq, List.all_eq_false]
    refine ⟨0x30, List.mem_append_right _ (List.mem_append_right _ ?_), by decide⟩
    rw [behind]
    exact List.mem_cons_self ..
  · exact readString_stem fields long
  · have shape := headerBytes_name fields field
    rw [named] at shape
    exact readString_of_eq shape rfl safe.plain (fun _ mem => nomatch mem) (.inl rfl) safe.short
  · have shape := headerBytes_size fields field
    rw [sized] at shape
    refine readOctal_of_eq shape ?_ isAscii_nul ⟨_, rfl⟩ ?_
    · simp only [List.length_append, length_writeString]
    · rw [length_padStart fits]
      decide
  · rw [headerBytes_eq, ← List.append_assoc, List.getD_append_right, List.length_append,
      length_fieldsBefore, long, behind]
    · rfl
    · rw [List.length_append, length_fieldsBefore, long]

theorem buildHeader_eq_ok {name : String} {size : ℕ} {mtime : Int} {header : Bytes}
    (built : buildHeader name size mtime = .ok header) :
    assertSafeName name = .ok () ∧ ReadsAs header name size := by
  simp only [buildHeader, bind_eq_ok] at built
  obtain ⟨_, safe, built⟩ := built
  split at built
  next => cases built
  next =>
    simp only [bind_eq_ok] at built
    obtain ⟨mode, -, uid, -, gid, -, sizeText, sized, mtimeText, -, same⟩ := built
    obtain ⟨text, fits⟩ := octal_eq_ok sized
    rw [← Except.ok.inj same]
    exact ⟨safe, headerBytes_reads rfl (assertSafeName_eq_ok safe) text fits⟩

end AnalyticsBackend.Archive
