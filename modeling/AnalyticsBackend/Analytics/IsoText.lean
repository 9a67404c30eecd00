import AnalyticsBackend.Analytics.Days

/-!
# ISO texts

`toISOString` and the parser of date boundaries: what is read back of the text of an instant.
-/

namespace AnalyticsBackend.Analytics

open Lib Lib.Calendar

/-! ## Digits -/

theorem takeDigits_digits {ds : List Char} (digits : ∀ c ∈ ds, c.isDigit = true) (rest : List Char)
    (acc : Nat) : takeDigits ds.length (ds ++ rest) acc = some (Nat.ofDigitChars 10 ds acc, rest) := by
  induction ds generalizing acc with
  | nil => simp [takeDigits]
  | cons c ds ih =>
      have digit := digits c (List.mem_cons_self ..)
      rw [List.length_cons, List.cons_append, takeDigits, digitValue, if_pos digit, Option.bind_some,
        ih (fun c' mem => digits c' (List.mem_cons_of_mem _ mem)), Nat.ofDigitChars_cons]

theorem padLeft_toList (width n : Nat) : (padLeft width n).toList =
    List.replicate (width - (Nat.toDigits 10 n).length) '0' ++ Nat.toDigits 10 n := by
  simp [padLeft]

theorem isDigit_padLeft {width n : Nat} {c : Char} (mem : c ∈ (padLeft width n).toList) :
    c.isDigit = true := by
  rw [padLeft_toList] at mem
  rcases List.mem_append.mp mem with zero | digit
  · rw [List.eq_of_mem_replicate zero]
    rfl
  · exact Nat.isDigit_of_mem_toDigits (by decide) (by decide) digit

theorem length_padLeft {width n : Nat} (some : 0 < width) (fits : n < 10 ^ width) :
    (padLeft width n).toList.length = width := by
  have short := (Nat.length_toDigits_le_iff (by decide) some).mpr fits
  rw [padLeft_toList, List.length_append, List.length_replicate]
  omega

theorem takeDigits_padLeft {width n : Nat} (some : 0 < width) (fits : n < 10 ^ width)
    (rest : List Char) :
    takeDigits width ((padLeft width n).toList ++ rest) 0 = .some (n, rest) := by
  have digits : ∀ c ∈ (padLeft width n).toList, c.isDigit = true := fun _ => isDigit_padLeft
  have read := takeDigits_digits digits rest 0
  rw [length_padLeft some fits] at read
  rw [read, padLeft_toList, Nat.ofDigitChars_append, Nat.ofDigitChars_replicate_zero, Nat.mul_zero,
    Nat.ofDigitChars_ten_toDigits]

/-! ## The text of an instant -/

def clockText (t : Int) : List Char :=
  let clock := timeInDay t
  'T' :: (padLeft 2 (clock / 3600000).toNat).toList ++ ':' ::
    ((padLeft 2 (clock / 60000 % 60).toNat).toList ++ ':' ::
      ((padLeft 2 (clock / 1000 % 60).toNat).toList ++ '.' ::
        ((padLeft 3 (clock % 1000).toNat).toList ++ ['Z'])))

theorem isoText_toList {t : Int} (from' : 0 ≤ getUTCFullYear t) (until' : getUTCFullYear t ≤ 9999) :
    (isoText t).toList = (padLeft 4 (getUTCFullYear t).toNat).toList ++ '-' ::
      ((padLeft 2 (getUTCMonth t + 1).toNat).toList ++ '-' ::
        ((padLeft 2 (getUTCDate t).toNat).toList ++ clockText t)) := by
  simp [isoText, clockText, from', until', List.append_assoc]

end AnalyticsBackend.Analytics
