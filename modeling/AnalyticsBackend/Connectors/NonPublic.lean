import AnalyticsBackend.Connectors.Hextets

/-!
# Addresses that are not public

The ranges of addresses that are not public, and what the guard says of every text of an address.
-/

namespace AnalyticsBackend.Connectors
open Lib

/-! ## Ranges -/

/-- Two numbers of `width` bits agree in their first `bits`. -/
def SamePrefix (width bits a b : Nat) : Prop := a / 2 ^ (width - bits) = b / 2 ^ (width - bits)

def NonPublicIpv4 (n : Nat) : Prop :=
  ∃ range ∈ IPV4_BLOCKED, ∃ base, readDotted range.1.toList = some base ∧ SamePrefix 32 range.2 n base

/-- The ranges of IPv6 that are not public, apart from those that embed an IPv4 address. -/
def reservedIpv6 : List (Nat × Nat) :=
  [(0, 127),
    -- NAT64, Teredo, documentation, discard-only
    (0x0064ff9b * 2 ^ 96, 32), (0x20010000 * 2 ^ 96, 32), (0x20010db8 * 2 ^ 96, 32),
    (0x0100 * 2 ^ 112, 64),
    -- unique local, link-local, site-local, multicast
    (0xfc00 * 2 ^ 112, 7), (0xfe80 * 2 ^ 112, 10), (0xfec0 * 2 ^ 112, 10), (0xff00 * 2 ^ 112, 8)]

/-- The IPv4 address in a mapped, a compatible or a 6to4 address. -/
def embeddedIn (a : Ipv6) : Option Nat :=
  if a.value / 2 ^ 32 = 0xffff ∨ a.value / 2 ^ 32 = 0 then some (a.value % 2 ^ 32)
  else if a.value / 2 ^ 112 = 0x2002 then some (a.value / 2 ^ 80 % 2 ^ 32)
  else none

/-- An address that is not public; one that embeds an IPv4 address counts as that address. -/
def NonPublic : IpAddress → Prop
  | .v4 n => NonPublicIpv4 n
  | .v6 a => (∃ range ∈ reservedIpv6, SamePrefix 128 range.2 a.value range.1) ∨
      ∃ n, embeddedIn a = some n ∧ NonPublicIpv4 n

/-! ## Masks -/

theorem land_mask_iff {width bits a b : Nat} (few : bits ≤ width) (small : a < 2 ^ width)
    (small' : b < 2 ^ width) :
    a &&& maskOf width bits = b &&& maskOf width bits ↔ SamePrefix width bits a b := by
  have mask (i : Nat) : (maskOf width bits).testBit i = (decide (i < width) && decide (width - bits ≤ i)) := by
    have less : 2 ^ (width - bits) - 1 < 2 ^ width := by
      have := Nat.pow_le_pow_right (show 0 < 2 by decide) (Nat.sub_le width bits)
      have := Nat.two_pow_pos (width - bits)
      omega
    have form : maskOf width bits = 2 ^ width - ((2 ^ (width - bits) - 1) + 1) := by
      have := Nat.two_pow_pos (width - bits)
      unfold maskOf
      omega
    rw [form, Nat.testBit_two_pow_sub_succ less, Nat.testBit_two_pow_sub_one]
    by_cases low : i < width - bits <;> simp [low] <;> omega
  have high {n i : Nat} (small : n < 2 ^ width) (out : width ≤ i) : n.testBit i = false :=
    Nat.testBit_lt_two_pow (lt_of_lt_of_le small (Nat.pow_le_pow_right (by decide) out))
  unfold SamePrefix
  constructor
  · intro same
    refine Nat.eq_of_testBit_eq fun i => ?_
    have bit := congrArg (·.testBit (i + (width - bits))) same
    simp only [Nat.testBit_and, mask] at bit
    rw [Nat.testBit_div_two_pow, Nat.testBit_div_two_pow]
    by_cases within : i + (width - bits) < width
    · simpa [within] using bit
    · rw [high small (Nat.le_of_not_lt within), high small' (Nat.le_of_not_lt within)]
  · intro same
    refine Nat.eq_of_testBit_eq fun i => ?_
    rw [Nat.testBit_and, Nat.testBit_and, mask]
    by_cases low : width - bits ≤ i
    · have bit := congrArg (·.testBit (i - (width - bits))) same
      simp only [Nat.testBit_div_two_pow, Nat.sub_add_cancel low] at bit
      rw [bit]
    · simp [low]

theorem isBlockedIpv4_iff {n : Nat} (small : n < 2 ^ 32) : isBlockedIpv4 n = true ↔ NonPublicIpv4 n := by
  have table : ∀ range ∈ IPV4_BLOCKED,
      readDotted range.1.toList = some (ipv4ToInt range.1.toList) ∧ range.2 ≤ 32 := by
    decide +kernel
  simp only [isBlockedIpv4, NonPublicIpv4, List.any_eq_true, beq_iff_eq]
  constructor
  · rintro ⟨range, mem, same⟩
    obtain ⟨base, few⟩ := table range mem
    exact ⟨range, mem, _, base, (land_mask_iff few small (readDotted_lt base)).mp same⟩
  · rintro ⟨range, mem, base, is, same⟩
    obtain ⟨base', few⟩ := table range mem
    rw [base'] at is
    obtain rfl := Option.some.inj is
    exact ⟨range, mem, (land_mask_iff few small (readDotted_lt base')).mpr same⟩

theorem isNonPublicDotted_embedded {h1 h2 : Nat} (small : h1 < 65536) (small' : h2 < 65536) :
    isNonPublicDotted (embeddedIpv4 h1 h2) = true ↔ NonPublicIpv4 (h1 * 65536 + h2) := by
  have read := readDotted_embedded small small'
  rw [isNonPublicDotted, isIPv4, read, ipv4ToInt_eq read]
  exact isBlockedIpv4_iff (by omega)

/-! ## The groups of an address -/

theorem exists_groups (a : Ipv6) :
    ∃ h0 h1 h2 h3 h4 h5 h6 h7, a.groups = [h0, h1, h2, h3, h4, h5, h6, h7] := by
  match groups : a.groups, a.length with
  | [h0, h1, h2, h3, h4, h5, h6, h7], _ => exact ⟨h0, h1, h2, h3, h4, h5, h6, h7, rfl⟩

section Groups

variable {a : Ipv6} {h0 h1 h2 h3 h4 h5 h6 h7 : Nat} (is : a.groups = [h0, h1, h2, h3, h4, h5, h6, h7])
include is

/-- The eight groups, and the leading parts of the address as numbers. -/
structure GroupValues (v h0 h1 h2 h3 h4 h5 h6 h7 : Nat) : Prop where
  bound : h0 < 65536 ∧ h1 < 65536 ∧ h2 < 65536 ∧ h3 < 65536 ∧ h4 < 65536 ∧ h5 < 65536 ∧
    h6 < 65536 ∧ h7 < 65536
  low : v % 2 ^ 32 = h6 * 65536 + h7
  top : v / 2 ^ 112 = h0
  two : v / 2 ^ 96 = h0 * 65536 + h1
  three : v / 2 ^ 80 = (h0 * 65536 + h1) * 65536 + h2
  four : v / 2 ^ 64 = ((h0 * 65536 + h1) * 65536 + h2) * 65536 + h3
  six : v / 2 ^ 32 =
    ((((h0 * 65536 + h1) * 65536 + h2) * 65536 + h3) * 65536 + h4) * 65536 + h5

theorem groupValues : GroupValues a.value h0 h1 h2 h3 h4 h5 h6 h7 := by
  have bound := a.bound
  rw [is] at bound
  simp only [List.mem_cons, List.not_mem_nil, or_false, forall_eq_or_imp, forall_eq] at bound
  have value : a.value = ((((((h0 * 65536 + h1) * 65536 + h2) * 65536 + h3) * 65536 + h4) * 65536 +
      h5) * 65536 + h6) * 65536 + h7 := by
    rw [Ipv6.value, is]
    simp only [List.foldl_cons, List.foldl_nil]
    omega
  refine ⟨bound, ?_, ?_, ?_, ?_, ?_, ?_⟩ <;> rw [value] <;> omega

end Groups

theorem reserved_iff {v h0 h1 h2 h3 h4 h5 h6 h7 : Nat}
    (values : GroupValues v h0 h1 h2 h3 h4 h5 h6 h7) :
    (∃ range ∈ reservedIpv6, SamePrefix 128 range.2 v range.1) ↔
      (v / 2 ^ 32 = 0 ∧ h6 = 0 ∧ h7 ≤ 1) ∨ (h0 = 0x64 ∧ h1 = 0xff9b) ∨ (h0 = 0x2001 ∧ h1 = 0) ∨
        (h0 = 0x2001 ∧ h1 = 0x0db8) ∨ (h0 = 0x0100 ∧ h1 = 0 ∧ h2 = 0 ∧ h3 = 0) ∨
        h0 / 2 ^ 9 = 0xfc00 / 2 ^ 9 ∨ h0 / 2 ^ 6 = 0xfe80 / 2 ^ 6 ∨ h0 / 2 ^ 6 = 0xfec0 / 2 ^ 6 ∨
        h0 / 2 ^ 8 = 0xff00 / 2 ^ 8 := by
  obtain ⟨bound, low, top, two, -, four, -⟩ := values
  have seven : v / 2 ^ 121 = h0 / 2 ^ 9 := by omega
  have ten : v / 2 ^ 118 = h0 / 2 ^ 6 := by omega
  have eight : v / 2 ^ 120 = h0 / 2 ^ 8 := by omega
  have none : v / 2 ^ 1 = 0 ↔ v / 2 ^ 32 = 0 ∧ h6 = 0 ∧ h7 ≤ 1 := by omega
  have pair (x y : Nat) (small : y < 65536) : v / 2 ^ 96 = x * 65536 + y ↔ h0 = x ∧ h1 = y := by
    omega
  have quad : v / 2 ^ 64 = 0x0100 * 2 ^ 48 ↔ h0 = 0x0100 ∧ h1 = 0 ∧ h2 = 0 ∧ h3 = 0 := by omega
  simp only [reservedIpv6, SamePrefix, List.mem_cons, List.not_mem_nil, or_false,
    exists_eq_or_imp, exists_eq_left, Nat.reduceSub, seven, ten, eight]
  rw [show 0 / 2 ^ 1 = 0 from rfl, none, show 0x0064ff9b * 2 ^ 96 / 2 ^ 96 = 0x64 * 65536 + 0xff9b from rfl,
    show 0x20010000 * 2 ^ 96 / 2 ^ 96 = 0x2001 * 65536 + 0 from rfl,
    show 0x20010db8 * 2 ^ 96 / 2 ^ 96 = 0x2001 * 65536 + 0x0db8 from rfl,
    show 0x0100 * 2 ^ 112 / 2 ^ 64 = 0x0100 * 2 ^ 48 from rfl, pair _ _ (by decide), pair _ _ (by decide),
    pair _ _ (by decide), quad]
  rfl

theorem masks_iff {h : Nat} (small : h < 65536) :
    (h &&& 0xfe00 = 0xfc00 ↔ h / 2 ^ 9 = 0xfc00 / 2 ^ 9) ∧
      (h &&& 0xffc0 = 0xfe80 ↔ h / 2 ^ 6 = 0xfe80 / 2 ^ 6) ∧
      (h &&& 0xffc0 = 0xfec0 ↔ h / 2 ^ 6 = 0xfec0 / 2 ^ 6) ∧
      (h &&& 0xff00 = 0xff00 ↔ h / 2 ^ 8 = 0xff00 / 2 ^ 8) :=
  ⟨@land_mask_iff 16 7 h 0xfc00 (by decide) small (by decide),
    @land_mask_iff 16 10 h 0xfe80 (by decide) small (by decide),
    @land_mask_iff 16 10 h 0xfec0 (by decide) small (by decide),
    @land_mask_iff 16 8 h 0xff00 (by decide) small (by decide)⟩

/-! ## What the guard says -/

theorem isNonPublicAddress_ipv6 {s : Text} {a : Ipv6} (notDotted : readDotted s = none)
    (read : readIpv6 s = some a) :
    isNonPublicAddress s = true ↔ NonPublic ((a.mapped.map IpAddress.v4).getD (.v6 a)) := by
  obtain ⟨h0, h1, h2, h3, h4, h5, h6, h7, is⟩ := exists_groups a
  have values := groupValues is
  have reserved := reserved_iff values
  have bound := values.bound
  have masks := masks_iff bound.1
  have embedded := isNonPublicDotted_embedded bound.2.2.2.2.2.2.1 bound.2.2.2.2.2.2.2
  have sixToFour := isNonPublicDotted_embedded bound.2.1 bound.2.2.1
  have expanded := expandIpv6_eq read
  rw [is] at expanded
  have six := values.six
  have low := values.low
  have mid : a.value / 2 ^ 80 % 2 ^ 32 = h1 * 65536 + h2 := by
    have := values.three
    omega
  unfold isNonPublicAddress
  rw [isIPv4, notDotted, isIPv6, read, expanded]
  simp only [Option.isSome_none, Option.isSome_some, Bool.false_eq_true, if_false, if_true,
    Ipv6.mapped, List.all_cons, List.all_nil, Bool.and_true, Bool.and_eq_true, beq_iff_eq,
    Bool.or_eq_true]
  simp only [masks.1, masks.2.1, masks.2.2.1, masks.2.2.2]
  by_cases mapped : a.value / 2 ^ 32 = 0xffff
  · -- the IPv4 address itself
    rw [if_neg (by omega), if_pos (by omega), if_pos mapped, embedded, low]
    rfl
  · rw [if_neg mapped]
    change _ ↔ (_ ∨ _)
    rw [reserved]
    by_cases compatible : a.value / 2 ^ 32 = 0
    · have is : embeddedIn a = some (h6 * 65536 + h7) := by
        rw [embeddedIn, if_pos (.inr compatible), low]
      by_cases unspecified : h6 = 0 ∧ h7 ≤ 1
      · rw [if_pos (by omega)]
        exact iff_of_true rfl (.inl (.inl ⟨compatible, unspecified⟩))
      · rw [if_neg (by omega), if_neg (by omega), if_pos (by omega), embedded, is]
        constructor
        · exact fun nonPublic => .inr ⟨_, rfl, nonPublic⟩
        · rintro (range | ⟨n, same, nonPublic⟩)
          · omega
          · rwa [Option.some.inj same]
    · have is : embeddedIn a = if h0 = 0x2002 then some (h1 * 65536 + h2) else none := by
        rw [embeddedIn, if_neg (by omega), values.top, mid]
      rw [if_neg (by omega), if_neg (by omega), if_neg (by omega), is]
      by_cases sixFour : h0 = 0x2002
      · rw [if_neg (by omega), if_pos sixFour, if_pos sixFour, sixToFour]
        constructor
        · exact fun nonPublic => .inr ⟨_, rfl, nonPublic⟩
        · rintro (range | ⟨n, same, nonPublic⟩)
          · omega
          · rwa [Option.some.inj same]
      · rw [if_neg sixFour, if_neg sixFour]
        simp only [reduceCtorEq, false_and, exists_false, or_false, Bool.if_true_left,
          Bool.or_eq_true, decide_eq_true_eq, Bool.false_eq_true, compatible, false_or, and_assoc]

/-- The guard lets a text pass iff it is that of a public address, whatever the form of the text. -/
theorem isNonPublicAddress_eq_false {s : Text} :
    isNonPublicAddress s = false ↔ ∃ ip, readIp s = some ip ∧ ¬NonPublic ip := by
  rw [← Bool.not_eq_true]
  cases dotted : readDotted s with
  | some n =>
      have is : isNonPublicAddress s = isBlockedIpv4 n := by
        rw [isNonPublicAddress, isIPv4, dotted, ipv4ToInt_eq dotted]
        rfl
      rw [is, isBlockedIpv4_iff (readDotted_lt dotted)]
      simp only [readIp, dotted, Option.some.injEq, exists_eq_left']
      rfl
  | none =>
      cases colons : readIpv6 s with
      | some a =>
          rw [isNonPublicAddress_ipv6 dotted colons]
          simp only [readIp, dotted, colons, Option.map_some, Option.some.injEq, exists_eq_left']
      | none =>
          have is : isNonPublicAddress s = true := by
            rw [isNonPublicAddress, isIPv4, dotted, isIPv6, colons]
            rfl
          simp [is, readIp, dotted, colons]

end AnalyticsBackend.Connectors
