import AnalyticsBackend.Archive.Remap
import Mathlib.Data.Bool.AllAny

/-!
# Ids in texts

Remapping changes the tokens of a text and nothing else: a token is replaced by a token, so that the
runs of the new text are the new runs. The inverse map therefore gives back every token that was
written in lower case.
-/

namespace AnalyticsBackend.Archive
open Lib

/-! ## Maps -/

theorem ObjectId.hex_inj {a b : ObjectId} (same : a.hex = b.hex) : a = b := by
  cases a
  cases b
  cases same
  rfl

namespace IdMap

def news (map : IdMap) : List ObjectId := map.entries.map Prod.snd

/-- No id is given out twice. -/
def Injective (map : IdMap) : Prop := map.news.Nodup

theorem get_eq_some {map : IdMap} {text : List Char} {mapped : ObjectId} :
    map.get text = some mapped ↔ ∃ key, (key, mapped) ∈ map.entries ∧ key.hex = text := by
  unfold get
  constructor
  · intro found
    obtain ⟨⟨key, value⟩, first, rfl⟩ := Option.map_eq_some_iff.mp found
    exact ⟨key, List.mem_of_find?_eq_some first, by simpa using List.find?_some first⟩
  · rintro ⟨key, mem, rfl⟩
    obtain ⟨⟨other, value⟩, found⟩ :
        ∃ entry, map.entries.find? (fun entry => entry.1.hex == key.hex) = some entry :=
      Option.isSome_iff_exists.mp (List.find?_isSome.mpr ⟨_, mem, by simp⟩)
    have same : other = key := ObjectId.hex_inj (by simpa using List.find?_some found)
    have entry : (other, value) = (key, mapped) :=
      List.inj_on_of_nodup_map map.keys (List.mem_of_find?_eq_some found) mem same
    rw [found, Option.map_some, entry]

theorem setIn_of_fresh {key value : ObjectId} {entries : List (ObjectId × ObjectId)}
    (fresh : key ∉ entries.map Prod.fst) : setIn key value entries = entries ++ [(key, value)] := by
  induction entries with
  | nil => rfl
  | cons entry rest ih =>
      obtain ⟨apart, others⟩ := List.ne_and_not_mem_of_not_mem_cons fresh
      rw [setIn, if_neg (Ne.symm apart), ih others, List.cons_append]

end IdMap

theorem entries_invertIdMap {map : IdMap} (injective : map.Injective) :
    (invertIdMap map).entries = map.entries.map Prod.swap := by
  have added (todo : List (ObjectId × ObjectId)) : ∀ (done : List (ObjectId × ObjectId))
      (inverse : IdMap), ((done ++ todo).map Prod.snd).Nodup →
      inverse.entries = done.map Prod.swap →
      (todo.foldl (fun inverse entry => inverse.set entry.2 entry.1) inverse).entries =
        (done ++ todo).map Prod.swap := by
    induction todo with
    | nil =>
        intro done inverse _ so
        simpa using so
    | cons entry rest ih =>
        intro done inverse nodup so
        have fresh : entry.2 ∉ inverse.entries.map Prod.fst := by
          rw [so, List.map_map]
          intro mem
          rw [List.map_append, List.map_cons] at nodup
          exact (List.nodup_append.mp nodup).2.2 _ mem _ (List.mem_cons_self ..) rfl
        have set : (inverse.set entry.2 entry.1).entries = (done ++ [entry]).map Prod.swap := by
          refine (IdMap.setIn_of_fresh fresh).trans ?_
          rw [so, List.map_append]
          rfl
        have step := ih (done ++ [entry]) (inverse.set entry.2 entry.1)
          (by rwa [List.append_assoc]) set
        rwa [List.append_assoc] at step
  exact added map.entries [] IdMap.empty injective rfl

theorem get_invertIdMap {map : IdMap} (injective : map.Injective) {text : List Char}
    {mapped : ObjectId} :
    (invertIdMap map).get text = some mapped ↔ ∃ new, (mapped, new) ∈ map.entries ∧ new.hex = text := by
  rw [IdMap.get_eq_some, entries_invertIdMap injective]
  simp

/-! ## Tokens -/

theorem isHexDigit_of_lower {c : Char} (lower : isLowerHex c = true) : isHexDigit c = true := by
  simp only [isLowerHex, isHexDigit, Bool.or_eq_true, List.contains_iff_mem] at lower ⊢
  refine lower.imp_right fun mem => ?_
  have both : "abcdefABCDEF".toList = "abcdef".toList ++ "ABCDEF".toList := by decide
  rw [both]
  exact List.mem_append_left _ mem

theorem toLower_of_lower {c : Char} (lower : isLowerHex c = true) : c.toLower = c := by
  have small : ¬ (c.val ≥ 'A'.val ∧ c.val ≤ 'Z'.val) := by
    simp only [isLowerHex, Bool.or_eq_true, List.contains_iff_mem] at lower
    rcases lower with digit | letter
    · simp only [Char.isDigit, Bool.and_eq_true, decide_eq_true_eq] at digit
      rintro ⟨high, -⟩
      exact absurd (UInt32.le_trans high digit.2) (by decide)
    · have letters : ∀ c ∈ "abcdef".toList, ¬ (c.val ≥ 'A'.val ∧ c.val ≤ 'Z'.val) :=
        List.all_iff_forall_prop.mp (by decide +kernel)
      exact letters c letter
  exact dif_neg small

theorem isToken_hex (oid : ObjectId) : isToken oid.hex = true := by
  simp only [isToken, Bool.and_eq_true, beq_iff_eq, List.all_eq_true]
  exact ⟨oid.length, fun c mem => isHexDigit_of_lower (oid.lower c mem)⟩

@[simp] theorem lowerCase_hex (oid : ObjectId) : lowerCase oid.hex = oid.hex :=
  (List.map_congr_left fun c mem => toLower_of_lower (oid.lower c mem)).trans (List.map_id _)

theorem remapToken_of_unknown {map : IdMap} {run : List Char}
    (unknown : isToken run = true → map.get (lowerCase run) = none) : remapToken map run = run := by
  unfold remapToken
  split
  next token => rw [unknown token]
  next => rfl

theorem remapToken_of_known {map : IdMap} {run : List Char} {mapped : ObjectId}
    (token : isToken run = true) (known : map.get (lowerCase run) = some mapped) :
    remapToken map run = mapped.hex := by
  rw [remapToken, if_pos token, known]

theorem remapToken_shape (map : IdMap) (run : List Char) :
    remapToken map run = run ∨ (isToken run = true ∧ isToken (remapToken map run) = true) := by
  by_cases token : isToken run = true
  · cases known : map.get (lowerCase run) with
    | none => exact .inl (remapToken_of_unknown fun _ => known)
    | some mapped =>
        rw [remapToken_of_known token known]
        exact .inr ⟨token, isToken_hex mapped⟩
  · exact .inl (remapToken_of_unknown fun is => absurd is token)

def Spelled (map : IdMap) (run : List Char) : Prop :=
  isToken run = true → (map.get (lowerCase run)).isSome = true → lowerCase run = run

/-- The token is none of the ids that the map gives out. -/
def Unused (map : IdMap) (run : List Char) : Prop :=
  isToken run = true → ∀ new ∈ map.news, new.hex ≠ lowerCase run

theorem spelled_hex (map : IdMap) (oid : ObjectId) : Spelled map oid.hex :=
  fun _ _ => lowerCase_hex oid

theorem Spelled.remap {map : IdMap} (other : IdMap) {run : List Char} (spelled : Spelled map run) :
    Spelled map (remapToken other run) := by
  by_cases known : isToken run = true ∧ (other.get (lowerCase run)).isSome = true
  · obtain ⟨mapped, found⟩ := Option.isSome_iff_exists.mp known.2
    rw [remapToken_of_known known.1 found]
    exact spelled_hex map mapped
  · rw [remapToken_of_unknown fun token => ?_]
    · exact spelled
    · simpa using fun is => known ⟨token, is⟩

theorem Spelled.iterate {map : IdMap} (other : IdMap) (k : ℕ) {run : List Char}
    (spelled : Spelled map run) : Spelled map ((remapToken other)^[k] run) := by
  induction k generalizing run with
  | zero => exact spelled
  | succ k ih =>
      rw [Function.iterate_succ_apply]
      exact ih (spelled.remap other)

theorem spelled_remap (map : IdMap) (run : List Char) : Spelled map (remapToken map run) := by
  cases known : map.get (lowerCase run) with
  | none =>
      rw [remapToken_of_unknown fun _ => known]
      intro _ is
      rw [known] at is
      exact absurd is Bool.false_ne_true
  | some mapped =>
      by_cases token : isToken run = true
      · rw [remapToken_of_known token known]
        exact spelled_hex map mapped
      · rw [remapToken_of_unknown fun is => absurd is token]
        exact fun is => absurd is token

variable {map : IdMap} (injective : map.Injective)
include injective

theorem remapToken_invert {run : List Char} {mapped : ObjectId} (token : isToken run = true)
    (known : map.get (lowerCase run) = some mapped) (lower : lowerCase run = run) :
    remapToken (invertIdMap map) (remapToken map run) = run := by
  obtain ⟨key, mem, hex⟩ := IdMap.get_eq_some.mp known
  have back : (invertIdMap map).get (lowerCase mapped.hex) = some key := by
    rw [lowerCase_hex]
    exact (get_invertIdMap injective).mpr ⟨mapped, mem, rfl⟩
  rw [remapToken_of_known token known, remapToken_of_known (isToken_hex mapped) back, hex, lower]

theorem remapToken_of_unused {run : List Char} (unused : Unused map run) :
    remapToken (invertIdMap map) run = run := by
  refine remapToken_of_unknown fun token => ?_
  cases found : (invertIdMap map).get (lowerCase run) with
  | none => rfl
  | some old =>
      obtain ⟨new, mem, hex⟩ := (get_invertIdMap injective).mp found
      exact absurd hex (unused token new (List.mem_map_of_mem mem))

/-- As many passes back as there were passes restore a token: a pass that found the token in the map
is taken back, and one that did not changed nothing. -/
theorem iterate_remapToken {run : List Char} (unused : Unused map run) (spelled : Spelled map run)
    (k : ℕ) : (remapToken (invertIdMap map))^[k] ((remapToken map)^[k] run) = run := by
  induction k with
  | zero => rfl
  | succ k ih =>
      have passed := spelled.iterate map k
      rw [Function.iterate_succ_apply' (remapToken map)]
      by_cases known : isToken ((remapToken map)^[k] run) = true ∧
          (map.get (lowerCase ((remapToken map)^[k] run))).isSome = true
      · obtain ⟨mapped, found⟩ := Option.isSome_iff_exists.mp known.2
        rw [Function.iterate_succ_apply,
          remapToken_invert injective known.1 found (passed known.1 known.2), ih]
      · rw [remapToken_of_unknown fun token => ?_]
        · rw [Function.iterate_succ_apply', ih, remapToken_of_unused injective unused]
        · simpa using fun is => known ⟨token, is⟩

omit injective in
theorem spelled_iterate (run : List Char) {k : ℕ} (some : 0 < k) :
    Spelled map ((remapToken (invertIdMap map))^[k] ((remapToken map)^[k] run)) := by
  obtain ⟨k, rfl⟩ := Nat.exists_eq_succ_of_ne_zero some.ne'
  refine Spelled.iterate _ _ ?_
  rw [Function.iterate_succ_apply]
  exact (spelled_remap map run).iterate map k

omit injective

/-! ## Runs -/

def KeepsTokens (f : List Char → List Char) : Prop :=
  ∀ run, f run = run ∨ (isToken run = true ∧ isToken (f run) = true)

theorem isHexDigit_of_token {run : List Char} (token : isToken run = true) :
    ∀ c ∈ run, isHexDigit c = true := by
  simp only [isToken, Bool.and_eq_true, List.all_eq_true] at token
  exact token.2

theorem ne_nil_of_token {run : List Char} (token : isToken run = true) : run ≠ [] := by
  rintro rfl
  exact absurd token (by decide)

theorem length_of_token {run : List Char} (token : isToken run = true) : run.length = 24 := by
  simp only [isToken, Bool.and_eq_true, beq_iff_eq] at token
  exact token.1

theorem hexRuns_flatten {f : List Char → List Char} (keeps : KeepsTokens f) (s : List Char) :
    hexRuns ((hexRuns s).map f).flatten = (hexRuns s).map f := by
  refine List.splitBy_flatten ?_ ?_ ?_
  · rw [List.mem_map]
    rintro ⟨run, mem, empty⟩
    rcases keeps run with same | ⟨-, token⟩
    · exact List.ne_nil_of_mem_splitBy mem (same.symm.trans empty)
    · exact ne_nil_of_token token empty
  · intro new mem
    obtain ⟨run, old, rfl⟩ := List.mem_map.mp mem
    rcases keeps run with same | ⟨-, token⟩
    · rw [same]
      exact List.isChain_of_mem_splitBy old
    · have digits := isHexDigit_of_token token
      refine List.Pairwise.isChain (List.pairwise_of_forall_mem_list fun a ha b hb => ?_)
      rw [digits a ha, digits b hb]
      rfl
  · rw [List.isChain_map]
    refine (List.isChain_getLast_head_splitBy _ s).imp fun a b ⟨ha, hb, apart⟩ => ?_
    -- A token on one side of a cut leaves no digit on the other side.
    rcases keeps a with sameA | ⟨tokenA, newA⟩
    · rcases keeps b with sameB | ⟨tokenB, newB⟩
      · rw [sameA, sameB]
        exact ⟨ha, hb, apart⟩
      · rw [sameA]
        refine ⟨ha, ne_nil_of_token newB, ?_⟩
        rw [isHexDigit_of_token tokenB _ (List.head_mem hb), Bool.and_true] at apart
        rw [apart, Bool.false_and]
    · rw [isHexDigit_of_token tokenA _ (List.getLast_mem ha), Bool.true_and] at apart
      rcases keeps b with sameB | ⟨tokenB, newB⟩
      · rw [sameB]
        refine ⟨ne_nil_of_token newA, hb, ?_⟩
        rw [apart, Bool.and_false]
      · rw [isHexDigit_of_token tokenB _ (List.head_mem hb)] at apart
        exact absurd apart (by decide)

theorem toList_remapString (map : IdMap) (s : String) :
    (remapString map s).toList = ((hexRuns s.toList).map (remapToken map)).flatten := by
  unfold remapString
  split
  next short =>
    have same : (hexRuns s.toList).map (remapToken map) = hexRuns s.toList := by
      refine (List.map_congr_left fun run mem => ?_).trans (List.map_id _)
      refine remapToken_of_unknown fun token => ?_
      have sub := (List.sublist_flatten_of_mem mem).length_le
      rw [hexRuns, List.flatten_splitBy, length_of_token token] at sub
      have := length_le_jsLength s
      omega
    rw [same, hexRuns, List.flatten_splitBy]
  next => rw [String.toList_ofList, List.flatMap_def]

theorem hexRuns_remapString (map : IdMap) (s : String) :
    hexRuns (remapString map s).toList = (hexRuns s.toList).map (remapToken map) := by
  rw [toList_remapString, hexRuns_flatten (remapToken_shape map)]

theorem hexRuns_iterate (map : IdMap) (k : ℕ) (s : String) :
    hexRuns ((remapString map)^[k] s).toList = (hexRuns s.toList).map (remapToken map)^[k] := by
  induction k with
  | zero => exact (List.map_id _).symm
  | succ k ih =>
      rw [Function.iterate_succ_apply', hexRuns_remapString, ih, List.map_map,
        Function.iterate_succ']

theorem eq_of_hexRuns {s t : String} (same : hexRuns s.toList = hexRuns t.toList) : s = t := by
  have flat := congrArg List.flatten same
  rw [hexRuns, List.flatten_splitBy, hexRuns, List.flatten_splitBy] at flat
  exact String.toList_inj.mp flat

/-- Every id of a text that the map knows is written in lower case. -/
def SpelledText (map : IdMap) (s : String) : Prop := ∀ run ∈ hexRuns s.toList, Spelled map run

def UnusedText (map : IdMap) (s : String) : Prop := ∀ run ∈ hexRuns s.toList, Unused map run

include injective in
theorem iterate_remapString {s : String} (unused : UnusedText map s) (spelled : SpelledText map s)
    (k : ℕ) : (remapString (invertIdMap map))^[k] ((remapString map)^[k] s) = s := by
  refine eq_of_hexRuns ?_
  rw [hexRuns_iterate, hexRuns_iterate, List.map_map]
  refine (List.map_congr_left fun run mem => ?_).trans (List.map_id _)
  exact iterate_remapToken injective (unused run mem) (spelled run mem) k

theorem spelledText_iterate (s : String) {k : ℕ} (some : 0 < k) :
    SpelledText map ((remapString (invertIdMap map))^[k] ((remapString map)^[k] s)) := by
  intro run mem
  rw [hexRuns_iterate, hexRuns_iterate, List.map_map] at mem
  obtain ⟨old, -, rfl⟩ := List.mem_map.mp mem
  exact spelled_iterate old some

theorem remapString_eq_or_long (map : IdMap) (s : String) :
    remapString map s = s ∨ (24 ≤ s.toList.length ∧ 24 ≤ (remapString map s).toList.length) := by
  by_cases same : (hexRuns s.toList).map (remapToken map) = hexRuns s.toList
  · exact .inl (eq_of_hexRuns ((hexRuns_remapString map s).trans same))
  · right
    obtain ⟨run, mem, changed⟩ : ∃ run ∈ hexRuns s.toList, remapToken map run ≠ run := by
      by_contra none
      push Not at none
      exact same ((List.map_congr_left none).trans (List.map_id _))
    obtain ⟨token, new⟩ := (remapToken_shape map run).resolve_left changed
    have before := (List.sublist_flatten_of_mem mem).length_le
    have after := (List.sublist_flatten_of_mem (List.mem_map_of_mem (f := remapToken map) mem)).length_le
    rw [hexRuns, List.flatten_splitBy, length_of_token token] at before
    rw [← toList_remapString, length_of_token new] at after
    exact ⟨before, after⟩

end AnalyticsBackend.Archive
