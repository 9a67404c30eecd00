import AnalyticsBackend.Connectors.NetGuard
import Mathlib.Data.List.Infix
import Mathlib.Data.List.TakeWhile

/-!
# The hextets of an address

The guard's own reading of an address text gives the address that the text stands for.
-/

namespace AnalyticsBackend.Connectors
open Lib

/-! ## Dotted texts -/

theorem ipv4ToInt_eq {s : Text} {n : Nat} (is : readDotted s = some n) : ipv4ToInt s = n := by
  obtain ⟨a, b, c, d, a', b', c', d', parts, first, second, third, fourth, rfl⟩ := readDotted_cases is
  obtain ⟨-, -, rfl, small⟩ := readOctet_cases first
  obtain ⟨-, -, rfl, small'⟩ := readOctet_cases second
  obtain ⟨-, -, rfl, small''⟩ := readOctet_cases third
  obtain ⟨-, -, rfl, small'''⟩ := readOctet_cases fourth
  rw [ipv4ToInt, parts]
  simp only [List.foldl_cons, List.foldl_nil]
  omega

theorem dot_notMem_toDigits (n : Nat) : '.' ∉ Nat.toDigits 10 n := fun dot =>
  absurd (Nat.isDigit_of_mem_toDigits (by decide) (by decide) dot) (by decide)

theorem readDotted_embedded {h1 h2 : Nat} (small : h1 < 65536) (small' : h2 < 65536) :
    readDotted (embeddedIpv4 h1 h2) = some (h1 * 65536 + h2) := by
  have parts : splitChars '.' (embeddedIpv4 h1 h2) =
      [h1 / 256, h1 % 256, h2 / 256, h2 % 256].map (Nat.toDigits 10) := by
    refine splitChars_intercalate (List.cons_ne_nil _ _) fun part mem => ?_
    obtain ⟨n, -, rfl⟩ := List.mem_map.mp mem
    exact dot_notMem_toDigits n
  unfold readDotted
  rw [parts]
  simp only [List.map_cons, List.map_nil]
  rw [readOctet_toDigits (by omega), readOctet_toDigits (by omega), readOctet_toDigits (by omega),
    readOctet_toDigits (by omega)]
  exact congrArg some (by omega)

theorem isDottedQuad_of_dotted {s : Text} {n : Nat} (is : readDotted s = some n) :
    isDottedQuad s = true := by
  obtain ⟨a, b, c, d, _, _, _, _, parts, first, second, third, fourth, -⟩ := readDotted_cases is
  have part {s : Text} {n : Nat} (is : readOctet s = some n) :
      (!s.isEmpty && s.all Char.isDigit) = true := by
    obtain ⟨some, digits, -⟩ := readOctet_cases is
    simp [some, digits]
  unfold isDottedQuad
  rw [parts]
  simp only [List.length_cons, List.length_nil, List.all_cons, List.all_nil, part first, part second,
    part third, part fourth]
  rfl

theorem isDottedQuad_cases {s : Text} (is : isDottedQuad s = true) : '.' ∈ s ∧ ':' ∉ s := by
  simp only [isDottedQuad, Bool.and_eq_true, beq_iff_eq, List.all_eq_true] at is
  constructor
  · by_contra none
    rw [splitChars_of_notMem none] at is
    exact nomatch is.1
  · intro colon
    obtain ⟨part, inside, there⟩ := mem_splitChars colon (show ':' ≠ '.' by decide)
    exact absurd ((is.2 part inside).2 _ there) (by decide)

/-! ## Dotted ends -/

theorem undotted_of_notMem {s : Text} (none : '.' ∉ s) : undotted s = s := by
  have found : s.tails.find? isDottedQuad = Option.none := by
    refine List.find?_eq_none.mpr fun tail mem quad => none ?_
    exact ((List.mem_tails _ _).mp mem).subset (isDottedQuad_cases quad).1
  rw [undotted, found]

theorem undotted_append {pre dotted : Text} {n : Nat} (ends : pre = [] ∨ pre.getLast? = some ':')
    (is : readDotted dotted = some n) :
    undotted (pre ++ dotted) =
      pre ++ Nat.toDigits 16 (n / 65536) ++ ':' :: Nat.toDigits 16 (n % 65536) := by
  have found : (pre ++ dotted).tails.find? isDottedQuad = some dotted := by
    induction pre with
    | nil =>
        cases dotted with
        | nil => exact absurd rfl (dotted_ne_nil is).2
        | cons c rest => rw [List.nil_append, List.tails, List.find?_cons_of_pos (isDottedQuad_of_dotted is)]
    | cons c pre ih =>
        have colon : ':' ∈ c :: pre := List.mem_of_getLast? (ends.resolve_left (List.cons_ne_nil _ _))
        rw [List.cons_append, List.tails, List.find?_cons_of_neg]
        · refine ih ?_
          cases pre with
          | nil => exact .inl rfl
          | cons d pre =>
              right
              rw [← ends.resolve_left (List.cons_ne_nil _ _), List.getLast?_cons_cons]
        · intro quad
          exact (isDottedQuad_cases quad).2 (List.mem_append_left _ colon)
  rw [undotted, found]
  simp only [ipv4ToInt_eq is]
  rw [List.length_append, Nat.add_sub_cancel, List.take_left']
  rfl

theorem undotted_join {parts : List Text} {groups : List Nat} (is : readGroups parts = some groups) :
    ∃ parts', parts'.mapM readGroup = some groups ∧
      ∀ pre : Text, '.' ∉ pre → (pre = [] ∨ pre.getLast? = some ':') →
        undotted (pre ++ joinColons (parts.map lower)) = pre ++ joinColons parts' := by
  rcases readGroups_cases is with all | ⟨first, last, before, n, rfl, all, dotted, rfl⟩
  · have lowered := mapM_map_of (fun _ _ => readGroup_lower) all
    refine ⟨parts.map lower, lowered, fun pre none _ => undotted_of_notMem fun dot => ?_⟩
    rcases List.mem_append.mp dot with dot | dot
    · exact none dot
    · rcases mem_joinColons dot with colon | ⟨part, inside, there⟩
      · exact absurd colon (by decide)
      · obtain ⟨g, group⟩ := exists_of_mapM lowered part inside
        exact dot_notMem_group group there
  · have lowered := mapM_map_of (fun _ _ => readGroup_lower) all
    have small := readDotted_lt dotted
    refine ⟨first.map lower ++ [Nat.toDigits 16 (n / 65536), Nat.toDigits 16 (n % 65536)],
      mapM_append_of lowered ?_, fun pre _ ends => ?_⟩
    · rw [List.mapM_cons, List.mapM_cons, readGroup_toDigits (by omega), readGroup_toDigits (by omega)]
      rfl
    · have last' : lower last = last := lower_of_dotted dotted
      have text : joinColons ((first ++ [last]).map lower) =
          (first.map lower).flatMap (· ++ [':']) ++ last := by
        rw [List.map_append, List.map_singleton, last', joinColons_append (List.cons_ne_nil _ _),
          joinColons, List.intercalate_singleton]
      have ends' : pre ++ (first.map lower).flatMap (· ++ [':']) = [] ∨
          (pre ++ (first.map lower).flatMap (· ++ [':'])).getLast? = some ':' := by
        rcases List.eq_nil_or_concat first with rfl | ⟨init, part, rfl⟩
        · simpa using ends
        · right
          simp
      rw [text, ← List.append_assoc, undotted_append ends' dotted,
        joinColons_append (List.cons_ne_nil _ _), joinColons, List.intercalate_cons_cons,
        List.intercalate_singleton]
      simp only [List.append_assoc, List.singleton_append]

/-! ## Hextets -/

theorem parseHextet_eq {part : Text} {n : Nat} (is : readGroup part = some n) :
    parseHextet part = some n := by
  obtain ⟨some, -, digits, rfl⟩ := readGroup_cases is
  have whole : part.takeWhile Lib.isHexDigit = part :=
    List.takeWhile_eq_self_iff.mpr (List.all_eq_true.mp digits)
  rw [parseHextet, whole]
  exact if_neg (by simpa using some)

theorem plain_of_mapM {parts : List Text} {groups : List Nat} (all : parts.mapM readGroup = some groups) :
    ∀ part ∈ parts, PlainPart part := fun part mem =>
  (exists_of_mapM all part mem).elim fun _ is => plain_of_group is

theorem hextetsOf_eq {a : Ipv6} {parts : List Text} (all : parts.mapM readGroup = some a.groups) :
    hextetsOf parts = some a.groups := by
  have all' := mapM_map_of (h := id) (fun _ _ => parseHextet_eq) all
  rw [List.map_id] at all'
  have eight : ¬parts.length ≠ 8 := by
    rw [length_of_mapM all, a.length]
    decide
  have small : ¬(a.groups.any (0xffff < ·)) = true := by
    rw [List.any_eq_true]
    rintro ⟨g, mem, big⟩
    have := a.bound g mem
    simp only [decide_eq_true_eq] at big
    omega
  rw [hextetsOf, if_neg eight, all']
  exact if_neg small

theorem mapM_zeros (n : Nat) : (List.replicate n ['0']).mapM readGroup = some (List.replicate n 0) := by
  induction n with
  | zero => rfl
  | succ n ih =>
      have zero : readGroup ['0'] = some 0 := by decide
      rw [List.replicate_succ, List.mapM_cons, zero, ih]
      rfl

/-- No capital becomes a character that stands before the letters. -/
theorem toLower_ne {c d : Char} (before : d.toNat < 65) (apart : c ≠ d) : c.toLower ≠ d := by
  delta Char.toLower
  split
  · rename_i upper
    intro same
    have number : (c.val + ('a'.val - 'A'.val)).toNat = d.toNat := congrArg Char.toNat same
    have low : 65 ≤ c.val.toNat := UInt32.le_iff_toNat_le.mp upper.1
    have high : c.val.toNat ≤ 90 := UInt32.le_iff_toNat_le.mp upper.2
    rw [UInt32.toNat_add, show ('a'.val - 'A'.val).toNat = 32 by decide] at number
    omega
  · exact apart

theorem takeWhile_lower (s : Text) :
    (s.map Char.toLower).takeWhile (· ≠ '%') = lower (s.takeWhile (· ≠ '%')) := by
  induction s with
  | nil => rfl
  | cons c rest ih =>
      by_cases zone : c = '%'
      · subst zone
        rfl
      · rw [List.map_cons, List.takeWhile_cons_of_pos (by simpa using toLower_ne (by decide) zone),
          List.takeWhile_cons_of_pos (by simpa using zone), ih, lower, lower, List.map_cons]

theorem readColons_of_ipv6 {s : Text} {a : Ipv6} (is : readIpv6 s = some a) :
    readColons (s.takeWhile (· ≠ '%')) = some a := by
  unfold readIpv6 at is
  split at is
  · rename_i none
    rwa [List.takeWhile_eq_self_iff.mpr fun c mem => by simpa using List.dropWhile_eq_nil_iff.mp none c mem]
  · split at is
    · exact is
    · exact nomatch is

theorem lower_join (parts : List Text) : lower (joinColons parts) = joinColons (parts.map lower) := by
  induction parts with
  | nil => rfl
  | cons part parts ih =>
      cases parts with
      | nil => rw [List.map_singleton, joinColons, joinColons, List.intercalate_singleton, List.intercalate_singleton]
      | cons next more =>
          simp only [lower, joinColons, List.map_cons, List.intercalate_cons_cons, List.map_append] at ih ⊢
          rw [ih]
          rfl

theorem expandIpv6_eq {s : Text} {a : Ipv6} (is : readIpv6 s = some a) :
    expandIpv6 s = some a.groups := by
  have read := readColons_of_ipv6 is
  unfold expandIpv6
  dsimp only
  rw [takeWhile_lower]
  rcases readColons_cases read with ⟨parts, text, groups⟩ |
    ⟨heads, tails, before, after, text, first, last, few, sum⟩
  · obtain ⟨parts', all, rewritten⟩ := undotted_join groups
    have a' := rewritten [] List.not_mem_nil (.inl rfl)
    rw [List.nil_append, List.nil_append] at a'
    rw [text, lower_join, a', splitPair_whole (plain_of_mapM all)]
    simp only [List.headD_cons, List.tail_cons, List.headD_nil, List.length_singleton, lt_irrefl,
      if_false, List.replicate_zero, groupTexts_joinColons (plain_of_mapM all)]
    rw [List.append_nil, show groupTexts [] = [] from rfl, List.append_nil]
    exact hextetsOf_eq all
  · obtain ⟨tails', all, rewritten⟩ := undotted_join last
    have heads' : (heads.map lower).mapM readGroup = some before :=
      mapM_map_of (fun _ _ => readGroup_lower) first
    have noDot : '.' ∉ joinColons (heads.map lower) ++ [':', ':'] := by
      intro dot
      rcases List.mem_append.mp dot with dot | dot
      · rcases mem_joinColons dot with colon | ⟨part, inside, there⟩
        · exact absurd colon (by decide)
        · obtain ⟨g, group⟩ := exists_of_mapM heads' part inside
          exact dot_notMem_group group there
      · exact absurd dot (by decide)
    have a' := rewritten _ noDot (.inr (by simp))
    have lowered : lower (joinColons heads ++ ':' :: ':' :: joinColons tails) =
        joinColons (heads.map lower) ++ [':', ':'] ++ joinColons (tails.map lower) := by
      rw [← lower_join, ← lower_join, lower, List.map_append, List.append_assoc]
      rfl
    have pieces : joinColons (heads.map lower) ++ [':', ':'] ++ joinColons tails' =
        joinColons (heads.map lower) ++ ':' :: ':' :: joinColons tails' := by
      rw [List.append_assoc]
      rfl
    rw [text, lowered, a', pieces, splitPair_two (plain_of_mapM heads') (plain_of_mapM all)]
    simp only [List.headD_cons, List.tail_cons, List.length_cons, List.length_nil]
    rw [groupTexts_joinColons (plain_of_mapM heads'), groupTexts_joinColons (plain_of_mapM all),
      if_pos (by decide), length_of_mapM heads', length_of_mapM all, Nat.sub_sub]
    refine hextetsOf_eq ?_
    rw [sum]
    exact mapM_append_of (mapM_append_of heads' (mapM_zeros _)) all

end AnalyticsBackend.Connectors
