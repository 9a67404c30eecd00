import AnalyticsBackend.Connectors.NonPublic

/-!
# Spellings of addresses

Every address has a text of its own: the dotted one, or the colon text that a URL writes. It is read back
as the address, and the guard tells such texts apart as it should.
-/

namespace AnalyticsBackend.Connectors
open Lib

/-! ## Dotted texts -/

/-- The dotted text of an address. -/
def dotted (n : Nat) : Text := embeddedIpv4 (n / 65536) (n % 65536)

/-- An IPv4 address has one dotted text only. -/
theorem readDotted_iff {s : Text} {n : Nat} : readDotted s = some n ↔ n < 2 ^ 32 ∧ s = dotted n := by
  constructor
  · intro is
    refine ⟨readDotted_lt is, ?_⟩
    obtain ⟨a, b, c, d, a', b', c', d', parts, first, second, third, fourth, rfl⟩ := readDotted_cases is
    have bound := (readOctet_cases first).2.2.2
    have bound' := (readOctet_cases second).2.2.2
    have bound'' := (readOctet_cases third).2.2.2
    have bound''' := (readOctet_cases fourth).2.2.2
    have octets : [(((a' * 256 + b') * 256 + c') * 256 + d') / 65536 / 256,
        (((a' * 256 + b') * 256 + c') * 256 + d') / 65536 % 256,
        (((a' * 256 + b') * 256 + c') * 256 + d') % 65536 / 256,
        (((a' * 256 + b') * 256 + c') * 256 + d') % 65536 % 256] = [a', b', c', d'] := by
      simp only [List.cons.injEq, and_true]
      omega
    rw [dotted, embeddedIpv4, octets, ← intercalate_splitChars '.' s, parts, readOctet_unique first,
      readOctet_unique second, readOctet_unique third, readOctet_unique fourth]
    rfl
  · rintro ⟨small, rfl⟩
    rw [dotted, readDotted_embedded (by omega) (by omega)]
    congr 1
    omega

/-! ## Colon texts -/

/-- The run that is left out: two or more groups, all of them zero. -/
theorem zeroRun_spec {groups : List Nat} {start run : Nat} (is : zeroRun groups = some (start, run)) :
    2 ≤ run ∧ groups = groups.take start ++ List.replicate run 0 ++ groups.drop (start + run) := by
  let runAt (i : Nat) := ((groups.drop i).takeWhile (· = 0)).length
  have found (l : List Nat) (best : Nat × Nat) (known : best.2 = 0 ∨ best.2 = runAt best.1) :
      let last := l.foldl (fun (best : Nat × Nat) i => if best.2 < runAt i then (i, runAt i) else best) best
      last.2 = 0 ∨ last.2 = runAt last.1 := by
    induction l generalizing best with
    | nil => exact known
    | cons i rest ih =>
        rw [List.foldl_cons]
        split
        · exact ih _ (.inr rfl)
        · exact ih _ known
  have best := found (List.range groups.length) (0, 0) (.inl rfl)
  unfold zeroRun at is
  dsimp only at is best
  split at is
  · rename_i long
    rw [Option.some.inj is] at long best
    have length : run = runAt start := best.resolve_left (by omega)
    have zeros : (groups.drop start).takeWhile (· = 0) = List.replicate run 0 := by
      refine List.eq_replicate_iff.mpr ⟨length.symm, fun g mem => ?_⟩
      simpa using List.mem_takeWhile_imp mem
    have parts : List.replicate run 0 ++ (groups.drop start).dropWhile (· = 0) = groups.drop start := by
      rw [← zeros]
      exact List.takeWhile_append_dropWhile
    have rest : groups.drop (start + run) = (groups.drop start).dropWhile (· = 0) :=
      calc groups.drop (start + run) = (groups.drop start).drop run := List.drop_drop.symm
        _ = (List.replicate run 0 ++ (groups.drop start).dropWhile (· = 0)).drop run := by rw [parts]
        _ = (groups.drop start).dropWhile (· = 0) := List.drop_left' List.length_replicate
    rw [rest, List.append_assoc, parts, List.take_append_drop]
    exact ⟨long, rfl⟩
  · cases is

theorem ofGroups_groups (a : Ipv6) : Ipv6.ofGroups a.groups = some a :=
  dif_pos ⟨a.length, a.bound⟩

/-- What a URL writes of an address is read back. -/
theorem readColons_serializeIpv6 (a : Ipv6) : readColons (serializeIpv6 a) = some a := by
  have digits {groups : List Nat} (among : ∀ g ∈ groups, g ∈ a.groups) :=
    mapM_toDigits fun g mem => a.bound g (among g mem)
  unfold serializeIpv6
  dsimp only
  cases left : zeroRun a.groups with
  | none =>
      have all := digits fun g mem => mem
      have plain := plain_of_mapM all
      change readColons (joinColons (a.groups.map (Nat.toDigits 16))) = some a
      rw [readColons, splitPair_whole plain]
      dsimp only
      rw [groupTexts_joinColons plain, readGroups_of_mapM all, Option.bind_some, ofGroups_groups]
  | some out =>
      obtain ⟨start, run⟩ := out
      obtain ⟨long, groups⟩ := zeroRun_spec left
      have before := digits fun g (mem : g ∈ a.groups.take start) => List.mem_of_mem_take mem
      have after := digits fun g (mem : g ∈ a.groups.drop (start + run)) => List.mem_of_mem_drop mem
      have length : (a.groups.take start).length + run + (a.groups.drop (start + run)).length = 8 := by
        have eight := a.length
        rw [groups, List.length_append, List.length_append, List.length_replicate] at eight
        exact eight
      have first := plain_of_mapM before
      have last := plain_of_mapM after
      change readColons (joinColons ((a.groups.take start).map (Nat.toDigits 16)) ++ [':', ':'] ++
        joinColons ((a.groups.drop (start + run)).map (Nat.toDigits 16))) = some a
      rw [List.append_assoc, readColons, show [':', ':'] ++ joinColons ((a.groups.drop (start + run)).map (Nat.toDigits 16)) =
        ':' :: ':' :: joinColons ((a.groups.drop (start + run)).map (Nat.toDigits 16)) from rfl,
        splitPair_two first last]
      dsimp only
      rw [groupTexts_joinColons first, groupTexts_joinColons last, before, readGroups_of_mapM after]
      simp only [Option.bind_eq_bind, Option.bind_some]
      rw [if_pos (by omega), show 8 - ((a.groups.take start).length + (a.groups.drop (start + run)).length) =
        run by omega, ← groups, ofGroups_groups]

/-! ## The text of an address -/

def spelling : IpAddress → Text
  | .v4 n => dotted n
  | .v6 a => serializeIpv6 a

/-- The text of an address in its own spelling, up to case. -/
def Canonical (s : Text) : Prop := ∃ ip, readIp s = some ip ∧ lower s = spelling ip

/-- The characters of such texts. -/
def addressChars : List Char := '.' :: ':' :: hexDigits.take 16

theorem mem_toDigits {c : Char} {n : Nat} (mem : c ∈ Nat.toDigits 16 n) : c ∈ hexDigits.take 16 := by
  have digit : ∀ d < 16, Nat.digitChar d ∈ hexDigits.take 16 := by decide
  induction n using Nat.strongRecOn with
  | ind n ih =>
      rw [Nat.toDigits_eq_if (by decide)] at mem
      split at mem
      · rw [List.mem_singleton.mp mem]
        exact digit n ‹_›
      · rcases List.mem_append.mp mem with before | last
        · exact ih (n / 16) (by omega) before
        · rw [List.mem_singleton.mp last]
          exact digit (n % 16) (by omega)

theorem mem_serializeIpv6 {c : Char} {a : Ipv6} (mem : c ∈ serializeIpv6 a) :
    c = ':' ∨ c ∈ hexDigits.take 16 := by
  have joined {groups : List Nat} (mem : c ∈ joinColons (groups.map (Nat.toDigits 16))) :
      c = ':' ∨ c ∈ hexDigits.take 16 := by
    rcases mem_joinColons mem with colon | ⟨part, inside, there⟩
    · exact .inl colon
    · obtain ⟨g, -, rfl⟩ := List.mem_map.mp inside
      exact .inr (mem_toDigits there)
  unfold serializeIpv6 at mem
  dsimp only at mem
  split at mem
  · exact joined mem
  · rcases List.mem_append.mp mem with before | after
    · rcases List.mem_append.mp before with first | colons
      · exact joined first
      · exact .inl (by simpa using colons)
    · exact joined after

theorem serializeIpv6_chars {c : Char} {a : Ipv6} (mem : c ∈ serializeIpv6 a) :
    c ≠ '.' ∧ c ≠ '%' ∧ c.toLower = c := by
  have all : ∀ c ∈ ':' :: hexDigits.take 16, c ≠ '.' ∧ c ≠ '%' ∧ c.toLower = c :=
    List.all_iff_forall_prop.mp (by decide +kernel)
  exact all c (List.mem_cons.mpr (mem_serializeIpv6 mem))

theorem dot_notMem_serializeIpv6 (a : Ipv6) : '.' ∉ serializeIpv6 a := fun mem =>
  (serializeIpv6_chars mem).1 rfl

/-- What `readIp` gives of some text: a number of 32 bits, or an address that maps none. -/
def Readable : IpAddress → Prop
  | .v4 n => n < 2 ^ 32
  | .v6 a => a.mapped = none

theorem readable_of_readIp {s : Text} {ip : IpAddress} (is : readIp s = some ip) : Readable ip := by
  unfold readIp at is
  split at is
  · rename_i n read
    rw [← Option.some.inj is]
    exact readDotted_lt read
  · obtain ⟨a, -, rfl⟩ := Option.map_eq_some_iff.mp is
    cases mapped : a.mapped with
    | none => exact mapped
    | some n =>
        unfold Ipv6.mapped at mapped
        split at mapped
        · rw [← Option.some.inj mapped]
          exact Nat.mod_lt _ (by decide)
        · cases mapped

theorem readIp_serializeIpv6 (a : Ipv6) :
    readIp (serializeIpv6 a) = some ((a.mapped.map IpAddress.v4).getD (.v6 a)) := by
  have none : readDotted (serializeIpv6 a) = none := by
    cases read : readDotted (serializeIpv6 a) with
    | none => rfl
    | some n => exact absurd (dotted_ne_nil read).1 (dot_notMem_serializeIpv6 a)
  have zone : (serializeIpv6 a).dropWhile (· ≠ '%') = [] :=
    List.dropWhile_eq_nil_iff.mpr fun c mem => decide_eq_true (serializeIpv6_chars mem).2.1
  rw [readIp, none, readIpv6, zone]
  dsimp only
  rw [readColons_serializeIpv6, Option.map_some]

/-- The text of an address is read as it. -/
theorem readIp_spelling {ip : IpAddress} (readable : Readable ip) : readIp (spelling ip) = some ip := by
  cases ip with
  | v4 n => rw [spelling, readIp, readDotted_iff.mpr ⟨readable, rfl⟩]
  | v6 a =>
      rw [spelling, readIp_serializeIpv6, show a.mapped = none from readable]
      rfl

theorem addressChars_apart : ∀ c ∈ addressChars, c ≠ 'l' ∧ c ≠ '[' ∧ c ≠ ']' :=
  List.all_iff_forall_prop.mp (by decide +kernel)

theorem mem_spelling {ip : IpAddress} (readable : Readable ip) {c : Char} (mem : c ∈ spelling ip) :
    c ∈ addressChars := by
  cases ip with
  | v4 n =>
      rcases mem_dotted (readDotted_iff.mpr ⟨readable, rfl⟩) mem with digit | rfl
      · have all : ∀ d < 10, Nat.digitChar d ∈ addressChars := by decide
        obtain ⟨less, is⟩ := digitChar_of_isDigit digit
        rw [← is]
        exact all _ less
      · decide
  | v6 a =>
      rcases mem_serializeIpv6 mem with rfl | digit
      · decide
      · exact List.mem_cons_of_mem _ (List.mem_cons_of_mem _ digit)

theorem lower_serializeIpv6 (a : Ipv6) : lower (serializeIpv6 a) = serializeIpv6 a :=
  (List.map_congr_left fun _ mem => (serializeIpv6_chars mem).2.2).trans (List.map_id _)

theorem lower_spelling {ip : IpAddress} (readable : Readable ip) : lower (spelling ip) = spelling ip := by
  cases ip with
  | v4 n => exact lower_of_dotted (readDotted_iff.mpr ⟨readable, rfl⟩)
  | v6 a => exact lower_serializeIpv6 a

/-- The text of an address is its own spelling. -/
theorem canonical_spelling {ip : IpAddress} (readable : Readable ip) : Canonical (spelling ip) :=
  ⟨ip, readIp_spelling readable, lower_spelling readable⟩

/-- Dotted texts have no other spelling. -/
theorem canonical_of_dotted {s : Text} {n : Nat} (is : readDotted s = some n) : Canonical s := by
  obtain ⟨small, rfl⟩ := readDotted_iff.mp is
  exact @canonical_spelling (.v4 n) small

/-! ## What the guard tells alike -/

/-- The addresses that stand for this host. -/
def Loopback : IpAddress → Prop
  | .v4 n => n / 2 ^ 24 = 127 ∨ n = 0
  | .v6 a => a.value ≤ 1

instance : DecidablePred Loopback
  | .v4 n => inferInstanceAs (Decidable (n / 2 ^ 24 = 127 ∨ n = 0))
  | .v6 a => inferInstanceAs (Decidable (a.value ≤ 1))

theorem dotted_parts (n : Nat) :
    ∃ mid d, dotted n = Nat.toDigits 10 (n / 2 ^ 24) ++ '.' :: (mid ++ Nat.toDigits 10 d) := by
  refine ⟨Nat.toDigits 10 (n / 65536 % 256) ++ '.' :: (Nat.toDigits 10 (n % 65536 / 256) ++ ['.']),
    n % 65536 % 256, ?_⟩
  have first : n / 65536 / 256 = n / 2 ^ 24 := Nat.div_div_eq_div_mul ..
  simp [dotted, embeddedIpv4, List.intercalate_cons_cons, first]

theorem first_octet_iff {n : Nat} : "127.".toList <+: dotted n ↔ n / 2 ^ 24 = 127 := by
  obtain ⟨mid, d, is⟩ := dotted_parts n
  rw [is]
  constructor
  · rintro ⟨rest, same⟩
    have digits : (Nat.toDigits 10 (n / 2 ^ 24) ++ '.' :: (mid ++ Nat.toDigits 10 d)).takeWhile (· ≠ '.') =
        Nat.toDigits 10 (n / 2 ^ 24) := by
      rw [List.takeWhile_append_of_pos fun c mem => ?_]
      · simp
      · have apart : c ≠ '.' := fun dot => dot_notMem_toDigits _ (dot ▸ mem)
        simpa using apart
    rw [← same] at digits
    rw [← @Nat.ofDigitChars_ten_toDigits (n / 2 ^ 24), ← digits]
    rfl
  · intro octet
    rw [octet]
    exact ⟨mid ++ Nat.toDigits 10 d, by rfl⟩

theorem loopback_dotted {n : Nat} (small : n < 2 ^ 32) :
    ("127.".toList.isPrefixOf (dotted n) ∨ dotted n = "::1".toList ∨ dotted n = "0.0.0.0".toList ∨
      dotted n = "::".toList) ↔ Loopback (.v4 n) := by
  have read := readDotted_iff.mpr ⟨small, rfl⟩
  have colons {s : Text} (none : readDotted s = none) : dotted n ≠ s := by
    rintro rfl
    rw [none] at read
    cases read
  have zero : dotted n = "0.0.0.0".toList ↔ n = 0 := by
    constructor
    · intro same
      rw [same] at read
      exact Option.some.inj (read.symm.trans (by decide))
    · rintro rfl
      decide
  rw [List.isPrefixOf_iff_prefix, first_octet_iff, zero]
  simp only [colons (show readDotted "::1".toList = none by decide),
    colons (show readDotted "::".toList = none by decide), false_or, or_false]
  rfl

theorem loopback_serializeIpv6 (a : Ipv6) :
    ("127.".toList.isPrefixOf (serializeIpv6 a) ∨ serializeIpv6 a = "::1".toList ∨
      serializeIpv6 a = "0.0.0.0".toList ∨ serializeIpv6 a = "::".toList) ↔ Loopback (.v6 a) := by
  have read := readColons_serializeIpv6 a
  have dot := dot_notMem_serializeIpv6 a
  constructor
  · rintro (first | one | zeros | zero)
    · exact absurd ((List.isPrefixOf_iff_prefix.mp first).subset (by decide)) dot
    · have value : (readColons "::1".toList).map Ipv6.value = some 1 := by decide
      rw [← one, read] at value
      exact (Option.some.inj value).le
    · exact absurd (zeros ▸ by decide) dot
    · have value : (readColons "::".toList).map Ipv6.value = some 0 := by decide
      rw [← zero, read] at value
      exact (Option.some.inj value).le.trans (by decide)
  · intro small
    have small : a.value ≤ 1 := small
    obtain ⟨h0, h1, h2, h3, h4, h5, h6, h7, is⟩ := exists_groups a
    have values := groupValues is
    have six := values.six
    have low := values.low
    obtain ⟨rfl, rfl, rfl, rfl, rfl, rfl, rfl, last⟩ : h0 = 0 ∧ h1 = 0 ∧ h2 = 0 ∧ h3 = 0 ∧ h4 = 0 ∧ h5 = 0 ∧
        h6 = 0 ∧ (h7 = 0 ∨ h7 = 1) := by
      omega
    unfold serializeIpv6
    rw [is]
    rcases last with rfl | rfl
    · exact .inr (.inr (.inr (by decide)))
    · exact .inr (.inl (by decide))

/-- The guard keeps the text of an address, but for those of this host. -/
theorem normaliseHost_eq {s : Text} {ip : IpAddress} (readable : Readable ip) (is : lower s = spelling ip) :
    normaliseHost s = if Loopback ip then LOOPBACK else spelling ip := by
  have chars : ∀ c ∈ spelling ip, c ∈ addressChars := fun c mem => mem_spelling readable mem
  have apart := addressChars_apart
  have dot : dropLastDot (spelling ip) = spelling ip := by
    refine if_neg fun last => ?_
    cases ip with
    | v4 n =>
        obtain ⟨mid, d, parts⟩ := dotted_parts n
        rw [spelling, parts, ← List.cons_append, ← List.append_assoc,
          List.getLast?_append_of_ne_nil _ Nat.toDigits_ne_nil] at last
        exact dot_notMem_toDigits d (List.mem_of_getLast? last)
    | v6 a => exact dot_notMem_serializeIpv6 a (List.mem_of_getLast? last)
  have brackets : dropBrackets (spelling ip) = spelling ip := by
    have head : (spelling ip).head? ≠ some '[' := fun head =>
      (apart '[' (chars _ (List.mem_of_mem_head? head))).2.1 rfl
    have last : (spelling ip).getLast? ≠ some ']' := fun last =>
      (apart ']' (chars _ (List.mem_of_getLast? last))).2.2 rfl
    unfold dropBrackets
    dsimp only
    rw [if_neg head, if_neg last]
  have named : ¬(spelling ip = "localhost".toList ∨ endsWith (spelling ip) ".localhost".toList = true) := by
    rintro (same | ends)
    · exact (apart 'l' (chars _ (same ▸ by decide))).1 rfl
    · exact (apart 'l' (chars _ ((List.isSuffixOf_iff_suffix.mp ends).subset (by decide)))).1 rfl
  have address : isIP (spelling ip) = true := by
    have read := readIp_spelling readable
    unfold readIp at read
    rw [isIP, Bool.or_eq_true]
    split at read
    · rename_i dotted
      exact .inl (by rw [isIPv4, dotted]; rfl)
    · obtain ⟨a, colons, -⟩ := Option.map_eq_some_iff.mp read
      exact .inr (by rw [isIPv6, colons]; rfl)
  unfold normaliseHost
  dsimp only
  rw [is, dot, brackets, if_neg named]
  refine if_congr ?_ rfl rfl
  rw [address]
  cases ip with
  | v4 n => exact (and_iff_right rfl).trans (loopback_dotted readable)
  | v6 a => exact (and_iff_right rfl).trans (loopback_serializeIpv6 a)

/-- Of two texts of addresses in their own spelling the guard tells alike those of one address, and those of
this host. -/
theorem normaliseHost_eq_iff {s t : Text} {ip ip' : IpAddress} (readable : Readable ip)
    (readable' : Readable ip') (is : lower s = spelling ip) (is' : lower t = spelling ip') :
    normaliseHost s = normaliseHost t ↔ ip = ip' ∨ Loopback ip ∧ Loopback ip' := by
  have apart {ip : IpAddress} (readable : Readable ip) : LOOPBACK ≠ spelling ip := by
    intro same
    exact (addressChars_apart 'l' (mem_spelling readable (same ▸ by decide))).1 rfl
  have injective : spelling ip = spelling ip' ↔ ip = ip' := by
    refine ⟨fun same => ?_, congrArg spelling⟩
    have read := readIp_spelling readable
    rw [same, readIp_spelling readable'] at read
    exact (Option.some.inj read).symm
  rw [normaliseHost_eq readable is, normaliseHost_eq readable' is']
  by_cases here : Loopback ip
  · by_cases here' : Loopback ip'
    · simp [here, here']
    · have other : ip ≠ ip' := fun same => here' (same ▸ here)
      simp [here, here', apart readable', other]
  · by_cases here' : Loopback ip'
    · have other : ip ≠ ip' := fun same => here (same ▸ here')
      simp [here, here', Ne.symm (apart readable), other]
    · simp [here, here', injective]

/-- Texts of one address in its own spelling are the same to the guard. -/
theorem Canonical.normaliseHost_eq {s t : Text} (canonical : Canonical s) (canonical' : Canonical t)
    {ip : IpAddress} (read : readIp s = some ip) (read' : readIp t = some ip) :
    normaliseHost s = normaliseHost t := by
  obtain ⟨ip', is, spelled⟩ := canonical
  obtain ⟨ip'', is', spelled'⟩ := canonical'
  obtain rfl := Option.some.inj (is.symm.trans read)
  obtain rfl := Option.some.inj (is'.symm.trans read')
  exact (normaliseHost_eq_iff (readable_of_readIp is) (readable_of_readIp is) spelled spelled').mpr (.inl rfl)

/-! ## The hosts of a connection string -/

theorem colon_mem_of_readColons {s : Text} {a : Ipv6} (is : readColons s = some a) : ':' ∈ s := by
  rcases readColons_cases is with ⟨parts, rfl, read⟩ | ⟨heads, tails, _, _, rfl, -⟩
  · have eight := a.length
    cases parts with
    | nil =>
        rw [← Option.some.inj read] at eight
        cases eight
    | cons first rest =>
        cases rest with
        | nil =>
            unfold readGroups at read
            split at read
            · rw [← Option.some.inj read] at eight
              cases eight
            · obtain ⟨g, -, one⟩ := Option.map_eq_some_iff.mp read
              rw [← one] at eight
              cases eight
        | cons next rest => simp [joinColons, List.intercalate_cons_cons]
  · simp

theorem colon_notMem_percentEncode {s : Text} (none : ':' ∉ s) : ':' ∉ percentEncode s := by
  intro mem
  obtain ⟨c, inside, mem⟩ := List.mem_flatMap.mp mem
  split at mem
  · exact none (List.mem_singleton.mp mem ▸ inside)
  · obtain ⟨byte, -, mem⟩ := List.mem_flatMap.mp mem
    have all : ∀ d < 16, (Nat.digitChar d).toUpper ≠ ':' := by decide
    have small : byte.toNat < 256 := byte.toNat_lt
    simp only [List.mem_cons, List.not_mem_nil, or_false] at mem
    rcases mem with percent | high | low
    · exact absurd percent (by decide)
    · exact all _ (by omega) high.symm
    · exact all _ (by omega) low.symm

theorem colon_notMem_lower {s : Text} (none : ':' ∉ s) : ':' ∉ lower s := by
  intro mem
  obtain ⟨c, inside, is⟩ := List.mem_map.mp mem
  have apart : c ≠ ':' := fun colon => none (colon ▸ inside)
  exact toLower_ne (by decide) apart is

/-- The host name of a URL: an address written anew, in brackets, or a text without colons. -/
theorem hostname_of_parseUrlHost {value hostname : Text} {port : Option Nat}
    (is : parseUrlHost value = some (hostname, port)) :
    (∃ a, hostname = '[' :: serializeIpv6 a ++ [']']) ∨ ':' ∉ hostname := by
  unfold parseUrlHost at is
  dsimp only at is
  generalize splitPort false _ = parts at is
  split at is
  · split at is
    · obtain ⟨host, written, is⟩ := Option.bind_eq_some_iff.mp is
      obtain ⟨a, -, rfl⟩ := Option.map_eq_some_iff.mp written
      obtain ⟨_, -, is⟩ := Option.bind_eq_some_iff.mp is
      exact .inl ⟨a, (Prod.mk.inj (Option.some.inj is)).1.symm⟩
    · cases is
  · split at is
    · cases is
    · split at is
      · cases is
      · rename_i allowed
        obtain ⟨_, written, is⟩ := Option.bind_eq_some_iff.mp is
        obtain ⟨_, -, is⟩ := Option.bind_eq_some_iff.mp is
        rw [← (Prod.mk.inj (Option.some.inj is)).1, ← Option.some.inj written]
        exact .inr (colon_notMem_percentEncode fun colon =>
          allowed (List.any_eq_true.mpr ⟨':', colon, by decide⟩))

/-- A host in brackets is written anew, and any other host has no colons. -/
theorem host_of_parseHostAddress {value : Text} {h : HostAddress} (is : parseHostAddress value = some h) :
    (∃ a, h.host = serializeIpv6 a) ∨ ':' ∉ h.host := by
  unfold parseHostAddress at is
  dsimp only at is
  split at is
  · cases is
  · obtain ⟨⟨hostname, port⟩, url, is⟩ := Option.bind_eq_some_iff.mp is
    dsimp only at is
    generalize written : (if (lower hostname).head? = some '[' ∧ (lower hostname).getLast? = some ']' then
      (lower hostname).tail.dropLast else lower hostname) = host at is
    split at is
    · cases is
    · split at is
      · cases is
      · rw [← Option.some.inj is, ← written]
        dsimp only
        rcases hostname_of_parseUrlHost url with ⟨a, rfl⟩ | none
        · left
          have written : lower ('[' :: serializeIpv6 a ++ [']']) = '[' :: (serializeIpv6 a ++ [']']) := by
            rw [lower, List.map_append, List.map_cons, ← lower, lower_serializeIpv6]
            rfl
          refine ⟨a, ?_⟩
          rw [written, if_pos ⟨rfl, by rw [← List.cons_append, List.getLast?_concat]⟩, List.tail_cons,
            List.dropLast_concat]
        · right
          split
          · exact fun colon => colon_notMem_lower none
              (List.mem_of_mem_tail ((List.dropLast_sublist _).subset colon))
          · exact colon_notMem_lower none

/-- The hosts that are addresses are in their own spelling, but for an IPv6 address that maps an IPv4 one. -/
theorem canonical_of_parse {value : Text} {h : HostAddress} (is : parseHostAddress value = some h)
    {ip : IpAddress} (read : readIp h.host = some ip) :
    Canonical h.host ∨ ∃ a n, h.host = serializeIpv6 a ∧ a.mapped = some n := by
  rcases host_of_parseHostAddress is with ⟨a, host⟩ | colon
  · cases mapped : a.mapped with
    | some n => exact .inr ⟨a, n, host, mapped⟩
    | none => exact .inl (host ▸ @canonical_spelling (.v6 a) mapped)
  · unfold readIp at read
    split at read
    · exact .inl (canonical_of_dotted ‹_›)
    · obtain ⟨a, colons, -⟩ := Option.map_eq_some_iff.mp read
      exact absurd ((List.takeWhile_sublist _).subset (colon_mem_of_readColons (readColons_of_ipv6 colons)))
        colon

theorem canonical_of_parseMongoUri {uri : String} {parsed : MongoUri} (read : parseMongoUri uri = some parsed)
    {h : HostAddress} (mem : h ∈ parsed.hosts) {ip : IpAddress} (is : readIp h.host = some ip) :
    Canonical h.host ∨ ∃ a n, h.host = serializeIpv6 a ∧ a.mapped = some n := by
  unfold parseMongoUri at read
  obtain ⟨found, -, read⟩ := Option.bind_eq_some_iff.mp read
  dsimp only at read
  iterate 5
    split at read
    · cases read
  obtain ⟨hosts, parses, read⟩ := Option.bind_eq_some_iff.mp read
  split at read
  · cases read
  · obtain rfl := Option.some.inj read
    obtain ⟨value, -, parse⟩ := mem_of_mapM parses mem
    exact canonical_of_parse parse is

end AnalyticsBackend.Connectors
