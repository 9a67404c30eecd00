import Mathlib.Data.Rat.Defs
import Mathlib.Data.String.Basic

/-!
# JavaScript values

The values a request body or an options object can hold, strings as the language measures,
splits and orders them, and plain objects with their own-property order.
-/

namespace AnalyticsBackend.Lib

/-- What a number is, apart from how it is stored. -/
inductive Magnitude where
  | nan
  | negInf
  | finite (q : ℚ)
  | posInf
  deriving DecidableEq, Repr

namespace Magnitude

def isFinite : Magnitude → Bool
  | .finite _ => true
  | _ => false

/-- `Number.isInteger`, with the integer. -/
def integer : Magnitude → Option Int
  | .finite q => if q.den = 1 then some q.num else none
  | _ => none

end Magnitude

/-- A value of a request. `date` holds `none` for an invalid date. -/
inductive Js where
  | undefined
  | null
  | bool (b : Bool)
  | num (n : Magnitude)
  | str (s : String)
  | date (ms : Option Int)
  | arr (items : List Js)
  | obj (fields : List (String × Js))

namespace Js

/-- `value === undefined || value === null`. -/
def isNullish : Js → Bool
  | .undefined | .null => true
  | _ => false

/-- `value === undefined || value === null || value === ''`. -/
def isBlank : Js → Bool
  | .undefined | .null => true
  | .str s => s.isEmpty
  | _ => false

/-- `isPlainObject`: the fields of an object that is neither an array nor a date. -/
def plainObject : Js → Option (List (String × Js))
  | .obj fields => some fields
  | _ => none

def text : Js → Option String
  | .str s => some s
  | _ => none

end Js

/-- A field of an object; `undefined` when it is not there. -/
def field (fields : List (String × Js)) (name : String) : Js :=
  (fields.lookup name).getD .undefined

/-! ## Strings -/

/-- The UTF-16 code units of a string. -/
def utf16 (s : String) : List Nat :=
  s.toList.flatMap fun c =>
    if c.toNat < 0x10000 then [c.toNat]
    else [0xD800 + (c.toNat - 0x10000) / 0x400, 0xDC00 + (c.toNat - 0x10000) % 0x400]

/-- `s.length`. -/
def jsLength (s : String) : Nat := (utf16 s).length

/-- `array.sort()` of strings. -/
def sortStrings (names : List String) : List String :=
  names.mergeSort fun a b => compareLex (utf16 a) (utf16 b)
where
  compareLex : List Nat → List Nat → Bool
    | [], _ => true
    | _ :: _, [] => false
    | a :: as, b :: bs => a < b || (a == b && compareLex as bs)

def isJsSpace (c : Char) : Bool :=
  [0x9, 0xA, 0xB, 0xC, 0xD, 0x20, 0xA0, 0x1680, 0x2028, 0x2029, 0x202F, 0x205F, 0x3000,
    0xFEFF].contains c.toNat || (0x2000 ≤ c.toNat && c.toNat ≤ 0x200A)

/-- `s.trim()`. -/
def trim (s : String) : String :=
  String.ofList ((s.toList.dropWhile isJsSpace).reverse.dropWhile isJsSpace).reverse

/-- A text without spaces has nothing to trim. -/
theorem trim_of_no_space {s : String} (none : ∀ c ∈ s.toList, isJsSpace c = false) : trim s = s := by
  have drop (l : List Char) (h : ∀ c ∈ l, isJsSpace c = false) : l.dropWhile isJsSpace = l := by
    cases l with
    | nil => rfl
    | cons c rest =>
        rw [List.dropWhile_cons_of_neg]
        simp [h c (List.mem_cons_self ..)]
  unfold trim
  rw [drop _ none, drop _ fun c mem => none c (List.mem_reverse.mp mem), List.reverse_reverse,
    String.ofList_toList]

/-- `s.slice(0, n)`; of a pair of code units that the end cuts in two nothing is kept. -/
def slice (n : Nat) (s : String) : String := String.ofList (units n s.toList)
where
  units : Nat → List Char → List Char
    | _, [] => []
    | n, c :: rest =>
        let width := if c.toNat < 0x10000 then 1 else 2
        if width ≤ n then c :: units (n - width) rest else []

/-- `split` at every `c`. -/
def splitChars (c : Char) : List Char → List (List Char)
  | [] => [[]]
  | d :: rest =>
      if d = c then [] :: splitChars c rest
      else
        match splitChars c rest with
        | [] => [[d]]
        | part :: parts => (d :: part) :: parts

theorem splitChars_cons (c d : Char) (rest : List Char) :
    splitChars c (d :: rest) =
      if d = c then [] :: splitChars c rest
      else
        match splitChars c rest with
        | [] => [[d]]
        | part :: parts => (d :: part) :: parts :=
  rfl

/-- `s.split('.')`. -/
def splitDots (s : String) : List String := (splitChars '.' s.toList).map String.ofList

theorem splitChars_ne_nil (c : Char) (s : List Char) : splitChars c s ≠ [] := by
  cases s with
  | nil => exact List.cons_ne_nil _ _
  | cons d rest =>
      rw [splitChars_cons]
      split
      · simp
      · split
        · simp
        · simp

theorem splitChars_of_notMem {c : Char} {s : List Char} (h : c ∉ s) : splitChars c s = [s] := by
  induction s with
  | nil => rfl
  | cons d rest ih =>
      obtain ⟨hd, hrest⟩ := List.ne_and_not_mem_of_not_mem_cons h
      rw [splitChars_cons, if_neg (Ne.symm hd), ih hrest]

/-- A text is its parts with the separator between them. -/
theorem intercalate_splitChars (c : Char) (s : List Char) :
    [c].intercalate (splitChars c s) = s := by
  induction s with
  | nil => rfl
  | cons d rest ih =>
      rw [splitChars_cons]
      cases parts : splitChars c rest with
      | nil => exact absurd parts (splitChars_ne_nil c rest)
      | cons part parts' =>
          rw [parts] at ih
          split
          next same =>
            rw [List.intercalate_cons_cons, ih, same]
            rfl
          next =>
            cases parts' with
            | nil =>
                rw [List.intercalate_singleton] at ih ⊢
                rw [ih]
            | cons next later =>
                rw [List.intercalate_cons_cons] at ih ⊢
                rw [List.cons_append, List.cons_append, ih]

theorem mem_splitChars {c d : Char} {s : List Char} (mem : d ∈ s) (apart : d ≠ c) :
    ∃ part ∈ splitChars c s, d ∈ part := by
  induction s with
  | nil => exact nomatch mem
  | cons e rest ih =>
      rw [splitChars_cons]
      cases parts : splitChars c rest with
      | nil => exact absurd parts (splitChars_ne_nil c rest)
      | cons part parts' =>
          rw [parts] at ih
          split
          next same =>
            have later := (List.mem_cons.mp mem).resolve_left fun is => apart (is.trans same)
            obtain ⟨found, inside, there⟩ := ih later
            exact ⟨found, List.mem_cons_of_mem _ inside, there⟩
          next =>
            rcases List.mem_cons.mp mem with rfl | later
            · exact ⟨_, List.mem_cons_self .., List.mem_cons_self ..⟩
            · obtain ⟨found, inside, there⟩ := ih later
              rcases List.mem_cons.mp inside with rfl | other
              · exact ⟨_, List.mem_cons_self .., List.mem_cons_of_mem _ there⟩
              · exact ⟨found, List.mem_cons_of_mem _ other, there⟩

theorem splitChars_append {c : Char} {part : List Char} (h : c ∉ part) (rest : List Char) :
    splitChars c (part ++ c :: rest) = part :: splitChars c rest := by
  induction part with
  | nil => rw [List.nil_append, splitChars_cons, if_pos rfl]
  | cons d part ih =>
      obtain ⟨hd, hpart⟩ := List.ne_and_not_mem_of_not_mem_cons h
      rw [List.cons_append, splitChars_cons, if_neg (Ne.symm hd), ih hpart]

/-- Parts without the separator are those of their text. -/
theorem splitChars_intercalate {c : Char} {parts : List (List Char)} (some : parts ≠ [])
    (apart : ∀ part ∈ parts, c ∉ part) : splitChars c ([c].intercalate parts) = parts := by
  induction parts with
  | nil => exact absurd rfl some
  | cons part rest ih =>
      obtain ⟨first, later⟩ := List.forall_mem_cons.mp apart
      cases rest with
      | nil => rw [List.intercalate_singleton, splitChars_of_notMem first]
      | cons next rest =>
          rw [List.intercalate_cons_cons, List.append_assoc, List.singleton_append,
            splitChars_append first, ih (List.cons_ne_nil _ _) later]

/-! ## Objects

An object is the list of its own properties in enumeration order: array indices first, in
ascending order, then the other names in the order in which they were added. -/

/-- The number that an array-index name writes. -/
def decimalIndex (name : String) : Option Nat :=
  let digits := name.toList
  if digits ≠ [] ∧ digits.all Char.isDigit ∧ (digits = ['0'] ∨ digits.head? ≠ some '0') then
    some (digits.foldl (fun acc c => 10 * acc + (c.toNat - '0'.toNat)) 0)
  else none

/-- Array indices are below 2³² − 1. -/
def propertyIndex (name : String) : Option Nat :=
  (decimalIndex name).filter fun n => n < 2 ^ 32 - 1

namespace JsObject

variable {α : Type}

/-- The place of a new property. -/
def insert (name : String) (v : α) : List (String × α) → List (String × α)
  | [] => [(name, v)]
  | (k, w) :: rest =>
      match propertyIndex name, propertyIndex k with
      | none, _ => (k, w) :: insert name v rest
      | some _, none => (name, v) :: (k, w) :: rest
      | some n, some m =>
          if n < m then (name, v) :: (k, w) :: rest else (k, w) :: insert name v rest

def has (object : List (String × α)) (name : String) : Bool :=
  object.any fun entry => entry.1 == name

/-- `object[name] = v`. -/
def set (object : List (String × α)) (name : String) (v : α) : List (String × α) :=
  if has object name then
    object.map fun entry => if entry.1 = name then (name, v) else entry
  else insert name v object

/-- `Object.assign(object, source)`. -/
def assign (object source : List (String × α)) : List (String × α) :=
  source.foldl (fun acc entry => set acc entry.1 entry.2) object

/-- The names every object inherits: `object[name]` is not `undefined` for them. -/
def inherited : List String :=
  ["constructor", "hasOwnProperty", "isPrototypeOf", "propertyIsEnumerable", "toLocaleString",
    "toString", "valueOf", "__defineGetter__", "__defineSetter__", "__lookupGetter__",
    "__lookupSetter__", "__proto__"]

end JsObject

end AnalyticsBackend.Lib
