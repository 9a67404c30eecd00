import AnalyticsBackend.Lib.Js
import Mathlib.Data.Bool.AllAny

/-!
# Texts of internet addresses

The dotted text of an IPv4 address and the colon text of an IPv6 address, which may leave out a run of
zero groups, end with a dotted text and name a zone.
-/

namespace AnalyticsBackend.Lib

/-! ## Digits -/

/-- The hexadecimal digits, the lower case first. -/
def hexDigits : List Char := "0123456789abcdefABCDEF".toList

def isHexDigit (c : Char) : Bool := hexDigits.contains c

/-- The value of a hexadecimal digit. -/
def hexValue (c : Char) : Nat :=
  let i := hexDigits.idxOf c
  if i < 16 then i else i - 6

/-- The number that hexadecimal digits stand for. -/
def ofHex (s : List Char) : Nat := s.foldl (fun acc c => 16 * acc + hexValue c) 0

/-! ## IPv4 -/

/-- A number below 256 in decimal digits, without leading zeros. -/
def readOctet (s : List Char) : Option Nat :=
  let n := Nat.ofDigitChars 10 s 0
  if s ≠ [] ∧ s.all Char.isDigit ∧ (s.length = 1 ∨ s.head? ≠ some '0') ∧ n < 256 then some n else none

/-- The IPv4 address of a dotted text. -/
def readDotted (s : List Char) : Option Nat :=
  match splitChars '.' s with
  | [a, b, c, d] => do
      let a ← readOctet a
      let b ← readOctet b
      let c ← readOctet c
      let d ← readOctet d
      return ((a * 256 + b) * 256 + c) * 256 + d
  | _ => none

/-! ## IPv6 -/

/-- The eight groups of an IPv6 address. -/
structure Ipv6 where
  groups : List Nat
  length : groups.length = 8
  bound : ∀ g ∈ groups, g < 65536
  deriving DecidableEq

/-- The address as one number. -/
def Ipv6.value (a : Ipv6) : Nat := a.groups.foldl (fun acc g => 65536 * acc + g) 0

def Ipv6.ofGroups (groups : List Nat) : Option Ipv6 :=
  if h : groups.length = 8 ∧ ∀ g ∈ groups, g < 65536 then some ⟨groups, h.1, h.2⟩ else none

/-- One to four hexadecimal digits. -/
def readGroup (s : List Char) : Option Nat :=
  if s ≠ [] ∧ s.length ≤ 4 ∧ s.all isHexDigit then some (ofHex s) else none

/-- The groups of an address, of which the last may be a dotted text that stands for two. -/
def readGroups : List (List Char) → Option (List Nat)
  | [] => some []
  | [last] =>
      match readDotted last with
      | some n => some [n / 65536, n % 65536]
      | none => (readGroup last).map fun g => [g]
  | first :: rest => do
      let g ← readGroup first
      let gs ← readGroups rest
      return g :: gs

/-- `split('::')`. -/
def splitPair : List Char → List (List Char)
  | [] => [[]]
  | [c] => [[c]]
  | c :: d :: rest =>
      if c = ':' ∧ d = ':' then [] :: splitPair rest
      else
        match splitPair (d :: rest) with
        | [] => [[c]]
        | part :: parts => (c :: part) :: parts

/-- The texts between colons; none of an empty text. -/
def groupTexts (s : List Char) : List (List Char) := if s = [] then [] else splitChars ':' s

/-- The IPv6 address of a colon text: eight groups, or fewer with `::` for the others. -/
def readColons (s : List Char) : Option Ipv6 :=
  match splitPair s with
  | [whole] => (readGroups (groupTexts whole)).bind Ipv6.ofGroups
  | [head, tail] => do
      let before ← (groupTexts head).mapM readGroup
      let after ← readGroups (groupTexts tail)
      if before.length + after.length < 8 then
        Ipv6.ofGroups (before ++ List.replicate (8 - (before.length + after.length)) 0 ++ after)
      else none
  | _ => none

def isScopeChar (c : Char) : Bool := c.isAlphanum || c = '-' || c = '.' || c = ':'

/-- The IPv6 address of a text, which may name a zone. -/
def readIpv6 (s : List Char) : Option Ipv6 :=
  match s.dropWhile (· ≠ '%') with
  | [] => readColons s
  | _ :: zone =>
      if zone ≠ [] ∧ zone.all isScopeChar then readColons (s.takeWhile (· ≠ '%')) else none

/-! ## Addresses -/

inductive IpAddress where
  | v4 (n : Nat)
  | v6 (a : Ipv6)
  deriving DecidableEq

/-- The IPv4 address that an IPv6 address maps. -/
def Ipv6.mapped (a : Ipv6) : Option Nat :=
  if a.value / 2 ^ 32 = 0xffff then some (a.value % 2 ^ 32) else none

/-- The address that a text stands for: of a mapped one, the IPv4 address. -/
def readIp (s : List Char) : Option IpAddress :=
  match readDotted s with
  | some n => some (.v4 n)
  | none => (readIpv6 s).map fun a => (a.mapped.map IpAddress.v4).getD (.v6 a)

/-! ## Texts and their parts -/

/-- What stands between colons. -/
def PlainPart (part : List Char) : Prop := part ≠ [] ∧ ':' ∉ part

/-- The parts with colons between them. -/
abbrev joinColons (parts : List (List Char)) : List Char := [':'].intercalate parts

theorem joinColons_groupTexts (s : List Char) : joinColons (groupTexts s) = s := by
  unfold groupTexts
  split
  · rename_i empty
    rw [empty]
    rfl
  · exact intercalate_splitChars ':' s

theorem groupTexts_joinColons {parts : List (List Char)} (plain : ∀ part ∈ parts, PlainPart part) :
    groupTexts (joinColons parts) = parts := by
  cases parts with
  | nil => rfl
  | cons part rest =>
      have first := (plain part (List.mem_cons_self ..)).1
      have some : joinColons (part :: rest) ≠ [] := by
        cases rest with
        | nil => rwa [joinColons, List.intercalate_singleton]
        | cons next rest => simp [joinColons, List.intercalate_cons_cons]
      rw [groupTexts, if_neg some, splitChars_intercalate (List.cons_ne_nil _ _) fun p mem => (plain p mem).2]

theorem mem_joinColons {parts : List (List Char)} {c : Char} (mem : c ∈ joinColons parts) :
    c = ':' ∨ ∃ part ∈ parts, c ∈ part := by
  induction parts with
  | nil => exact nomatch mem
  | cons part parts ih =>
      cases parts with
      | nil =>
          rw [joinColons, List.intercalate_singleton] at mem
          exact .inr ⟨part, List.mem_cons_self .., mem⟩
      | cons next more =>
          rw [joinColons, List.intercalate_cons_cons, List.append_assoc] at mem
          rcases List.mem_append.mp mem with here | later
          · exact .inr ⟨part, List.mem_cons_self .., here⟩
          · rcases List.mem_cons.mp later with colon | later
            · exact .inl colon
            · rcases ih later with colon | ⟨found, inside, there⟩
              · exact .inl colon
              · exact .inr ⟨found, List.mem_cons_of_mem _ inside, there⟩

/-- The parts before some others, each with its colon. -/
theorem joinColons_append {parts more : List (List Char)} (some : more ≠ []) :
    joinColons (parts ++ more) = parts.flatMap (· ++ [':']) ++ joinColons more := by
  induction parts with
  | nil => rfl
  | cons part parts ih =>
      obtain ⟨next, rest, is⟩ := List.exists_cons_of_ne_nil
        (List.append_ne_nil_of_right_ne_nil parts some)
      rw [List.cons_append, is, joinColons, List.intercalate_cons_cons, ← is, List.flatMap_cons,
        List.append_assoc _ _ (joinColons more), ← ih]

theorem splitPair_ne_nil (s : List Char) : splitPair s ≠ [] := by
  fun_induction splitPair s with
  | case1 => exact List.cons_ne_nil _ _
  | case2 => exact List.cons_ne_nil _ _
  | case3 => exact List.cons_ne_nil _ _
  | case4 => exact List.cons_ne_nil _ _
  | case5 => exact List.cons_ne_nil _ _

/-- The first piece of a text, when more of it comes before. -/
theorem splitPair_append {part : List Char} (plain : ':' ∉ part) {rest first : List Char}
    {pieces : List (List Char)} (is : splitPair rest = first :: pieces) :
    splitPair (part ++ rest) = (part ++ first) :: pieces := by
  induction part with
  | nil => exact is
  | cons c part ih =>
      obtain ⟨apart, later⟩ := List.ne_and_not_mem_of_not_mem_cons plain
      have here := ih later
      rw [List.cons_append]
      cases whole : part ++ rest with
      | nil =>
          rw [whole, splitPair] at here
          obtain ⟨same, same'⟩ := List.cons.inj here
          rw [splitPair, List.cons_append, ← same, ← same']
      | cons d tail =>
          rw [whole] at here
          rw [splitPair, if_neg fun both => apart both.1.symm, here]
          rfl

/-- A colon before a part is not a separator of pieces. -/
theorem splitPair_colon {rest first : List Char} {pieces : List (List Char)}
    (apart : rest.head? ≠ some ':') (is : splitPair rest = first :: pieces) :
    splitPair (':' :: rest) = (':' :: first) :: pieces := by
  cases rest with
  | nil =>
      rw [splitPair] at is
      obtain ⟨same, same'⟩ := List.cons.inj is
      rw [splitPair, ← same, ← same']
  | cons d tail =>
      rw [splitPair, if_neg fun both => apart (by rw [both.2]; rfl), is]

theorem head_ne_of_plain {part : List Char} (plain : PlainPart part) (rest : List Char) :
    (part ++ rest).head? ≠ some ':' := by
  obtain ⟨c, tail, rfl⟩ := List.exists_cons_of_ne_nil plain.1
  intro colon
  exact plain.2 (by rw [← Option.some.inj colon]; exact List.mem_cons_self ..)

/-- Parts with single colons between them stay together. -/
theorem splitPair_joinColons {parts : List (List Char)} (plain : ∀ part ∈ parts, PlainPart part)
    {rest first : List Char} {pieces : List (List Char)} (is : splitPair rest = first :: pieces) :
    splitPair (joinColons parts ++ rest) = (joinColons parts ++ first) :: pieces := by
  induction parts with
  | nil => exact is
  | cons part parts ih =>
      obtain ⟨here, later⟩ := List.forall_mem_cons.mp plain
      cases parts with
      | nil =>
          rw [joinColons, List.intercalate_singleton]
          exact splitPair_append here.2 is
      | cons next more =>
          have tail := ih later
          have head : (joinColons (next :: more) ++ rest).head? ≠ some ':' := by
            have nextPlain := later next (List.mem_cons_self ..)
            cases more with
            | nil =>
                rw [joinColons, List.intercalate_singleton]
                exact head_ne_of_plain nextPlain _
            | cons _ _ =>
                rw [joinColons, List.intercalate_cons_cons, List.append_assoc, List.append_assoc]
                exact head_ne_of_plain nextPlain _
          rw [joinColons, List.intercalate_cons_cons, List.append_assoc, List.append_assoc,
            List.append_assoc, List.append_assoc, List.singleton_append, List.singleton_append]
          exact splitPair_append here.2 (splitPair_colon head tail)

theorem splitPair_whole {parts : List (List Char)} (plain : ∀ part ∈ parts, PlainPart part) :
    splitPair (joinColons parts) = [joinColons parts] := by
  have is := splitPair_joinColons plain (show splitPair [] = [[]] from rfl)
  rwa [List.append_nil] at is

theorem splitPair_two {heads tails : List (List Char)} (plain : ∀ part ∈ heads, PlainPart part)
    (plain' : ∀ part ∈ tails, PlainPart part) :
    splitPair (joinColons heads ++ ':' :: ':' :: joinColons tails) =
      [joinColons heads, joinColons tails] := by
  have pair : splitPair (':' :: ':' :: joinColons tails) = [] :: [joinColons tails] := by
    rw [splitPair, if_pos ⟨rfl, rfl⟩, splitPair_whole plain']
  have is := splitPair_joinColons plain pair
  rwa [List.append_nil] at is

/-- A text is its pieces with `::` between them. -/
theorem intercalate_splitPair (s : List Char) : [':', ':'].intercalate (splitPair s) = s := by
  fun_induction splitPair s with
  | case1 => rfl
  | case2 => rfl
  | case3 c d rest both ih =>
      obtain ⟨rfl, rfl⟩ := both
      obtain ⟨first, pieces, is⟩ := List.exists_cons_of_ne_nil (splitPair_ne_nil rest)
      rw [is] at ih ⊢
      rw [List.intercalate_cons_cons, ih]
      rfl
  | case4 c d rest apart none => exact absurd none (splitPair_ne_nil _)
  | case5 c d rest apart part parts is ih =>
      rw [is] at ih
      cases parts with
      | nil =>
          rw [List.intercalate_singleton] at ih ⊢
          rw [ih]
      | cons next more =>
          rw [List.intercalate_cons_cons] at ih ⊢
          rw [← ih]
          rfl

/-! ## Digits as they are written -/

theorem hexDigit_cases {c : Char} (digit : isHexDigit c = true) :
    isHexDigit c.toLower = true ∧ hexValue c.toLower = hexValue c ∧ hexValue c < 16 ∧ c ≠ ':' ∧
      c ≠ '.' ∧ c ≠ '%' := by
  have all : ∀ c ∈ hexDigits, isHexDigit c.toLower = true ∧ hexValue c.toLower = hexValue c ∧
      hexValue c < 16 ∧ c ≠ ':' ∧ c ≠ '.' ∧ c ≠ '%' := List.all_iff_forall_prop.mp (by decide +kernel)
  exact all c (List.contains_iff_mem.mp digit)

theorem readOctet_cases {s : List Char} {n : Nat} (is : readOctet s = some n) :
    s ≠ [] ∧ s.all Char.isDigit = true ∧ n = Nat.ofDigitChars 10 s 0 ∧ n < 256 := by
  unfold readOctet at is
  dsimp only at is
  split at is
  · rename_i ok
    obtain rfl := Option.some.inj is
    exact ⟨ok.1, ok.2.1, rfl, ok.2.2.2⟩
  · exact nomatch is

/-- The four numbers of a dotted text. -/
theorem readDotted_cases {s : List Char} {n : Nat} (is : readDotted s = some n) :
    ∃ a b c d a' b' c' d', splitChars '.' s = [a, b, c, d] ∧ readOctet a = some a' ∧
      readOctet b = some b' ∧ readOctet c = some c' ∧ readOctet d = some d' ∧
      n = ((a' * 256 + b') * 256 + c') * 256 + d' := by
  unfold readDotted at is
  split at is
  · rename_i a b c d parts
    obtain ⟨a', first, is⟩ := Option.bind_eq_some_iff.mp is
    obtain ⟨b', second, is⟩ := Option.bind_eq_some_iff.mp is
    obtain ⟨c', third, is⟩ := Option.bind_eq_some_iff.mp is
    obtain ⟨d', fourth, is⟩ := Option.bind_eq_some_iff.mp is
    exact ⟨a, b, c, d, a', b', c', d', parts, first, second, third, fourth,
      (Option.some.inj is).symm⟩
  · exact nomatch is

theorem readDotted_lt {s : List Char} {n : Nat} (is : readDotted s = some n) : n < 2 ^ 32 := by
  obtain ⟨_, _, _, _, a, b, c, d, -, first, second, third, fourth, rfl⟩ := readDotted_cases is
  have := (readOctet_cases first).2.2.2
  have := (readOctet_cases second).2.2.2
  have := (readOctet_cases third).2.2.2
  have := (readOctet_cases fourth).2.2.2
  omega

/-- A dotted text is made of digits and dots. -/
theorem mem_dotted {s : List Char} {n : Nat} (is : readDotted s = some n) {c : Char} (mem : c ∈ s) :
    c.isDigit = true ∨ c = '.' := by
  obtain ⟨a, b, c', d, _, _, _, _, parts, first, second, third, fourth, -⟩ := readDotted_cases is
  by_cases dot : c = '.'
  · exact .inr dot
  · obtain ⟨part, inside, there⟩ := mem_splitChars mem dot
    rw [parts] at inside
    simp only [List.mem_cons, List.not_mem_nil, or_false] at inside
    left
    rcases inside with rfl | rfl | rfl | rfl
    · exact List.all_eq_true.mp (readOctet_cases first).2.1 c there
    · exact List.all_eq_true.mp (readOctet_cases second).2.1 c there
    · exact List.all_eq_true.mp (readOctet_cases third).2.1 c there
    · exact List.all_eq_true.mp (readOctet_cases fourth).2.1 c there

theorem digit_cases {c : Char} (digit : c.isDigit = true) :
    c ≠ ':' ∧ c ≠ '%' ∧ c ≠ '.' ∧ c.toLower = c := by
  have bound : 48 ≤ c.toNat ∧ c.toNat ≤ 57 := by
    simp only [Char.isDigit, Bool.and_eq_true, decide_eq_true_eq, ge_iff_le,
      UInt32.le_iff_toNat_le] at digit
    exact digit
  refine ⟨?_, ?_, ?_, ?_⟩
  · rintro rfl
    exact absurd bound (by decide)
  · rintro rfl
    exact absurd bound (by decide)
  · rintro rfl
    exact absurd bound (by decide)
  · refine dif_neg ?_
    rintro ⟨low, -⟩
    have : 65 ≤ c.toNat := UInt32.le_iff_toNat_le.mp low
    omega

theorem dotted_ne_nil {s : List Char} {n : Nat} (is : readDotted s = some n) : '.' ∈ s ∧ s ≠ [] := by
  obtain ⟨a, b, c, d, _, _, _, _, parts, -⟩ := readDotted_cases is
  have dot : '.' ∈ s := by
    by_contra none
    rw [splitChars_of_notMem none] at parts
    exact nomatch parts
  exact ⟨dot, List.ne_nil_of_mem dot⟩

/-- Digits and dots have no upper case. -/
theorem lower_of_dotted {s : List Char} {n : Nat} (is : readDotted s = some n) :
    s.map Char.toLower = s := by
  refine (List.map_congr_left fun c mem => ?_).trans (List.map_id _)
  rcases mem_dotted is mem with digit | rfl
  · exact (digit_cases digit).2.2.2
  · rfl

theorem readGroup_cases {s : List Char} {n : Nat} (is : readGroup s = some n) :
    s ≠ [] ∧ s.length ≤ 4 ∧ s.all isHexDigit = true ∧ n = ofHex s := by
  unfold readGroup at is
  split at is
  · rename_i ok
    exact ⟨ok.1, ok.2.1, ok.2.2, (Option.some.inj is).symm⟩
  · exact nomatch is

theorem plain_of_group {s : List Char} {n : Nat} (is : readGroup s = some n) : PlainPart s := by
  obtain ⟨some, -, digits, -⟩ := readGroup_cases is
  exact ⟨some, fun colon => (hexDigit_cases (List.all_eq_true.mp digits _ colon)).2.2.2.1 rfl⟩

theorem dot_notMem_group {s : List Char} {n : Nat} (is : readGroup s = some n) : '.' ∉ s := by
  obtain ⟨-, -, digits, -⟩ := readGroup_cases is
  exact fun dot => (hexDigit_cases (List.all_eq_true.mp digits _ dot)).2.2.2.2.1 rfl

theorem readGroup_lower {s : List Char} {n : Nat} (is : readGroup s = some n) :
    readGroup (s.map Char.toLower) = some n := by
  obtain ⟨some, short, digits, rfl⟩ := readGroup_cases is
  have digits' : (s.map Char.toLower).all isHexDigit = true := by
    rw [List.all_map]
    exact List.all_eq_true.mpr fun c mem => (hexDigit_cases (List.all_eq_true.mp digits c mem)).1
  have same (l : List Char) (digits : ∀ c ∈ l, isHexDigit c = true) (acc : Nat) :
      (l.map Char.toLower).foldl (fun acc c => 16 * acc + hexValue c) acc =
        l.foldl (fun acc c => 16 * acc + hexValue c) acc := by
    induction l generalizing acc with
    | nil => rfl
    | cons c rest ih =>
        obtain ⟨first, later⟩ := List.forall_mem_cons.mp digits
        rw [List.map_cons, List.foldl_cons, List.foldl_cons, (hexDigit_cases first).2.1, ih later]
  unfold readGroup
  rw [if_pos ⟨by simpa using some, by simpa using short, digits'⟩, ofHex, ofHex,
    same s (List.all_eq_true.mp digits)]

/-- The digits of a number are read back. -/
theorem readGroup_toDigits {n : Nat} (small : n < 65536) : readGroup (Nat.toDigits 16 n) = some n := by
  have digit : ∀ d < 16, isHexDigit (Nat.digitChar d) = true ∧ hexValue (Nat.digitChar d) = d := by
    decide
  have spec (n : Nat) : (Nat.toDigits 16 n).all isHexDigit = true ∧ ofHex (Nat.toDigits 16 n) = n := by
    induction n using Nat.strongRecOn with
    | ind n ih =>
        rw [Nat.toDigits_eq_if (by decide)]
        split
        · rename_i less
          have is := digit n less
          simp only [List.all_cons, List.all_nil, is.1, ofHex, List.foldl_cons, List.foldl_nil, is.2]
          exact ⟨rfl, by omega⟩
        · rename_i more
          obtain ⟨digits, value⟩ := ih (n / 16) (by omega)
          have is := digit (n % 16) (by omega)
          rw [List.all_append, digits, ofHex, List.foldl_append]
          change _ ∧ List.foldl _ (ofHex (Nat.toDigits 16 (n / 16))) _ = n
          rw [value]
          simp only [List.all_cons, List.all_nil, is.1, List.foldl_cons, List.foldl_nil, is.2]
          exact ⟨rfl, by omega⟩
  have short : (Nat.toDigits 16 n).length ≤ 4 :=
    (Nat.length_toDigits_le_iff (by decide) (by decide)).mpr small
  unfold readGroup
  rw [if_pos ⟨Nat.toDigits_ne_nil, short, (spec n).1⟩, (spec n).2]

theorem readOctet_toDigits {n : Nat} (small : n < 256) : readOctet (Nat.toDigits 10 n) = some n := by
  have all : ∀ n < 256, readOctet (Nat.toDigits 10 n) = some n := by decide +kernel
  exact all n small

theorem digitChar_of_isDigit {c : Char} (digit : c.isDigit = true) :
    c.toNat - '0'.toNat < 10 ∧ Nat.digitChar (c.toNat - '0'.toNat) = c := by
  have bound : 48 ≤ c.toNat ∧ c.toNat ≤ 57 := by
    simp only [Char.isDigit, Bool.and_eq_true, decide_eq_true_eq, ge_iff_le,
      UInt32.le_iff_toNat_le] at digit
    exact digit
  have all : ∀ n < 58, 48 ≤ n → n - 48 < 10 ∧ Nat.digitChar (n - 48) = Char.ofNat n := by decide
  have is := all c.toNat (by omega) bound.1
  rwa [Char.ofNat_toNat] at is

/-- Digits after a number other than zero are read as its own. -/
theorem toDigits_append {s : List Char} {acc : Nat} (digits : s.all Char.isDigit = true) (some : 0 < acc) :
    Nat.toDigits 10 acc ++ s = Nat.toDigits 10 (Nat.ofDigitChars 10 s acc) := by
  induction s generalizing acc with
  | nil => simp
  | cons c s ih =>
      rw [List.all_cons, Bool.and_eq_true] at digits
      obtain ⟨less, is⟩ := digitChar_of_isDigit digits.1
      have longer := Nat.toDigits_append_toDigits (by decide) some less
      rw [Nat.toDigits_of_lt_base less, is] at longer
      rw [Nat.ofDigitChars_cons, ← ih digits.2 (by omega), ← longer, List.append_assoc]
      rfl

/-- A number below 256 has one text only. -/
theorem readOctet_unique {s : List Char} {n : Nat} (is : readOctet s = some n) : s = Nat.toDigits 10 n := by
  unfold readOctet at is
  dsimp only at is
  split at is
  · rename_i ok
    obtain ⟨some, digits, lead, -⟩ := ok
    rw [← Option.some.inj is]
    obtain ⟨c, rest, rfl⟩ := List.exists_cons_of_ne_nil some
    rw [List.all_cons, Bool.and_eq_true] at digits
    obtain ⟨less, same⟩ := digitChar_of_isDigit digits.1
    rw [Nat.ofDigitChars_cons, Nat.mul_zero, Nat.zero_add]
    by_cases zero : c.toNat - '0'.toNat = 0
    · rw [zero] at same
      have alone : rest = [] := by
        have := lead.resolve_right fun other => other (by rw [← same]; rfl)
        simpa using this
      rw [zero, alone, ← same]
      rfl
    · rw [← toDigits_append digits.2 (Nat.pos_of_ne_zero zero), Nat.toDigits_of_lt_base less, same]
      rfl
  · cases is

/-! ## Readings of parts -/

section Readings

variable {A B C : Type} {f : A → Option B} {l : List A} {results : List B}

theorem mapM_cons_cases {a : A} (all : (a :: l).mapM f = some results) :
    ∃ b rest, f a = some b ∧ l.mapM f = some rest ∧ results = b :: rest := by
  rw [List.mapM_cons] at all
  obtain ⟨b, is, all⟩ := Option.bind_eq_some_iff.mp all
  obtain ⟨rest, is', all⟩ := Option.bind_eq_some_iff.mp all
  exact ⟨b, rest, is, is', (Option.some.inj all).symm⟩

theorem length_of_mapM (all : l.mapM f = some results) : l.length = results.length := by
  induction l generalizing results with
  | nil =>
      obtain rfl := Option.some.inj all
      rfl
  | cons a l ih =>
      obtain ⟨b, rest, -, is, rfl⟩ := mapM_cons_cases all
      rw [List.length_cons, List.length_cons, ih is]

theorem exists_of_mapM (all : l.mapM f = some results) : ∀ a ∈ l, ∃ b, f a = some b := by
  induction l generalizing results with
  | nil => exact fun a mem => nomatch mem
  | cons a l ih =>
      obtain ⟨b, rest, is, is', rfl⟩ := mapM_cons_cases all
      exact List.forall_mem_cons.mpr ⟨⟨b, is⟩, ih is'⟩

/-- Another reading of other parts that agrees with the first. -/
theorem mem_of_mapM (all : l.mapM f = some results) {b : B} (mem : b ∈ results) : ∃ a ∈ l, f a = some b := by
  induction l generalizing results with
  | nil =>
      rw [← Option.some.inj all] at mem
      cases mem
  | cons a l ih =>
      obtain ⟨b', rest, is, later, rfl⟩ := mapM_cons_cases all
      rcases List.mem_cons.mp mem with rfl | mem
      · exact ⟨a, List.mem_cons_self .., is⟩
      · obtain ⟨a', inside, is'⟩ := ih later mem
        exact ⟨a', List.mem_cons_of_mem _ inside, is'⟩

theorem mapM_map_of {g : C → Option B} {h : A → C} (same : ∀ a b, f a = some b → g (h a) = some b)
    (all : l.mapM f = some results) : (l.map h).mapM g = some results := by
  induction l generalizing results with
  | nil => exact all
  | cons a l ih =>
      obtain ⟨b, rest, is, is', rfl⟩ := mapM_cons_cases all
      rw [List.map_cons, List.mapM_cons, same a b is, ih is']
      rfl

theorem mapM_append_of {l' : List A} {results' : List B} (all : l.mapM f = some results)
    (all' : l'.mapM f = some results') : (l ++ l').mapM f = some (results ++ results') := by
  rw [List.mapM_append, all, all']
  rfl

end Readings

theorem Ipv6.ofGroups_cases {groups : List Nat} {a : Ipv6} (is : Ipv6.ofGroups groups = some a) :
    groups = a.groups := by
  unfold Ipv6.ofGroups at is
  split at is
  · rw [← Option.some.inj is]
  · exact nomatch is

/-- Groups are read one by one. -/
theorem readGroups_of_mapM {parts : List (List Char)} {groups : List Nat}
    (all : parts.mapM readGroup = some groups) : readGroups parts = some groups := by
  induction parts generalizing groups with
  | nil => exact all
  | cons part rest ih =>
      obtain ⟨g, gs, is, later, rfl⟩ := mapM_cons_cases all
      cases rest with
      | nil =>
          obtain rfl := Option.some.inj later
          have apart : readDotted part = none := by
            cases read : readDotted part with
            | none => rfl
            | some n => exact absurd (dotted_ne_nil read).1 (dot_notMem_group is)
          rw [readGroups, apart, is]
          rfl
      | cons next more =>
          change (readGroup part).bind (fun g => (readGroups (next :: more)).bind fun gs => some (g :: gs)) = _
          rw [is, Option.bind_some, ih later, Option.bind_some]

theorem mapM_toDigits {groups : List Nat} (bound : ∀ g ∈ groups, g < 65536) :
    (groups.map (Nat.toDigits 16)).mapM readGroup = some groups := by
  induction groups with
  | nil => rfl
  | cons g groups ih =>
      obtain ⟨first, later⟩ := List.forall_mem_cons.mp bound
      rw [List.map_cons, List.mapM_cons, readGroup_toDigits first, ih later]
      rfl

/-- The parts are all groups, or all but the last, which is dotted. -/
theorem readGroups_cases {parts : List (List Char)} {groups : List Nat}
    (is : readGroups parts = some groups) :
    parts.mapM readGroup = some groups ∨
      ∃ first last before n, parts = first ++ [last] ∧ first.mapM readGroup = some before ∧
        readDotted last = some n ∧ groups = before ++ [n / 65536, n % 65536] := by
  fun_induction readGroups parts generalizing groups with
  | case1 => exact .inl is
  | case2 last n dotted =>
      exact .inr ⟨[], last, [], n, rfl, rfl, dotted, (Option.some.inj is).symm⟩
  | case3 last none =>
      obtain ⟨g, group, rfl⟩ := Option.map_eq_some_iff.mp is
      left
      rw [List.mapM_cons, group]
      rfl
  | case4 part rest more ih =>
      obtain ⟨g, group, is⟩ := Option.bind_eq_some_iff.mp is
      obtain ⟨gs, later, is⟩ := Option.bind_eq_some_iff.mp is
      obtain rfl := Option.some.inj is
      rcases ih later with all | ⟨first, last, before, n, rfl, all, dotted, rfl⟩
      · left
        rw [List.mapM_cons, group, all]
        rfl
      · refine .inr ⟨part :: first, last, g :: before, n, rfl, ?_, dotted, rfl⟩
        rw [List.mapM_cons, group, all]
        rfl

/-- What the text of an IPv6 address looks like. -/
theorem readColons_cases {s : List Char} {a : Ipv6} (is : readColons s = some a) :
    (∃ parts, s = joinColons parts ∧ readGroups parts = some a.groups) ∨
      ∃ heads tails before after, s = joinColons heads ++ ':' :: ':' :: joinColons tails ∧
        heads.mapM readGroup = some before ∧ readGroups tails = some after ∧
        before.length + after.length < 8 ∧
        a.groups = before ++ List.replicate (8 - (before.length + after.length)) 0 ++ after := by
  have whole := intercalate_splitPair s
  unfold readColons at is
  split at is
  · rename_i piece pieces
    rw [pieces, List.intercalate_singleton] at whole
    obtain ⟨groups, read, is⟩ := Option.bind_eq_some_iff.mp is
    obtain rfl := Ipv6.ofGroups_cases is
    exact .inl ⟨groupTexts piece, by rw [joinColons_groupTexts, whole], read⟩
  · rename_i head tail pieces
    rw [pieces, List.intercalate_cons_cons, List.intercalate_singleton] at whole
    obtain ⟨before, first, is⟩ := Option.bind_eq_some_iff.mp is
    obtain ⟨after, last, is⟩ := Option.bind_eq_some_iff.mp is
    split at is
    · rename_i few
      refine .inr ⟨groupTexts head, groupTexts tail, before, after, ?_, first, last, few,
        (Ipv6.ofGroups_cases is).symm⟩
      rw [joinColons_groupTexts, joinColons_groupTexts, ← whole, List.append_assoc]
      rfl
    · exact nomatch is
  · exact nomatch is

example : readIp "::ffff:8.8.8.8".toList = readIp "8.8.8.8".toList ∧
    readIp "2606:4700::1%eth0".toList = readIp "2606:4700:0:0:0:0:0:1".toList ∧
    (readIp "2606:4700::1".toList).isSome = true ∧ readIp "8.8.8".toList = none := by
  decide +kernel

end AnalyticsBackend.Lib
