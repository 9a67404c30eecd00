import AnalyticsBackend.Audit.Chain

/-!
# Tamper evidence of a keyed chain

Rows sealed with a key, and rows that somebody without the key has put in their place. A row
that is checked with the key has the content of a sealed row, so a report without errors says of
such rows that they are sealed rows in their order. `hashAlg` decides how a row is checked, and
is the row's own word.
-/

namespace AnalyticsBackend.Audit
open Lib Lib.Mongo

/-- Rows sealed one after the other. -/
def sealAll (rt : Runtime) (key : Option SigningKey) : ChainHead → List Doc → Option (List Doc)
  | _, [] => some []
  | head, target :: rest => do
      let (row, head') ← sealRow rt target head key
      return row :: (← sealAll rt key head' rest)

/-- Two rows have the same value in every field that the hash covers. -/
def SameFields (s r : Doc) : Prop := ∀ name ∈ chainFields, Doc.get s name = Doc.get r name

/-- The stored rows are a contiguous run of the chain, in whatever order they are stored. -/
def IsRun (chain rows : List Doc) : Prop :=
  ∃ pre mid post, chain = pre ++ mid ++ post ∧
    ∃ walked, walked.Perm rows ∧ List.Forall₂ SameFields mid walked

/-- The row is checked with a key: it is walked, and says so. -/
def checkedWithKey (row : Doc) : Bool :=
  chained row && isText "hmac-sha256" (Doc.get row "hashAlg")

def contents (rt : Runtime) (rows : List Doc) : List Json := rows.filterMap (chainContent rt)

/-- What the key is good for: its HMAC tells the contents that occur apart, and whoever does not
have it can store the HMAC of one of them only where a sealed row has it too. -/
structure Unforgeable (rt : Runtime) (key : String) (chain rows : List Doc) : Prop where
  injective : ∀ c ∈ contents rt (chain ++ rows), ∀ c' ∈ contents rt (chain ++ rows),
    rt.hmacSha256 key c = rt.hmacSha256 key c' → c = c'
  copied : ∀ r ∈ rows, ∀ c ∈ contents rt (chain ++ rows),
    Doc.get r "hash" = some (.str (rt.hmacSha256 key c)) →
      ∃ s ∈ chain, Doc.get s "hash" = Doc.get r "hash"

section Tamper

variable {rt : Runtime} {key : String} {head : ChainHead} {targets chain rows : List Doc}

theorem sealAll_getElem {signing : Option SigningKey}
    (sealed : sealAll rt signing head targets = some chain) {i : Nat} {s : Doc}
    (stored : chain[i]? = some s) :
    ∃ target before after, IsSealed rt target before signing s after ∧
      after.seq = head.seq + i + 1 := by
  induction targets generalizing head chain i with
  | nil =>
      obtain rfl : [] = chain := Option.some.inj sealed
      simp at stored
  | cons target rest ih =>
      simp only [sealAll, Option.bind_eq_bind, Option.bind_eq_some_iff, Option.pure_def,
        Option.some.injEq] at sealed
      obtain ⟨⟨row, head'⟩, first, tail, others, rfl⟩ := sealed
      have isSealed := isSealed_of_sealRow first
      cases i with
      | zero =>
          obtain rfl : row = s := Option.some.inj stored
          exact ⟨target, head, head', isSealed, by simp [isSealed.next]⟩
      | succ i =>
          obtain ⟨target', before, after, found, seq⟩ := ih others (by simpa using stored)
          refine ⟨target', before, after, found, ?_⟩
          rw [seq, isSealed.next]
          push_cast
          omega

theorem sealAll_seq {signing : Option SigningKey}
    (sealed : sealAll rt signing head targets = some chain) {i : Nat} {s : Doc}
    (stored : chain[i]? = some s) :
    asNumber (Doc.get s "seq") = some (.finite ((head.seq + i + 1 : Int) : ℚ)) := by
  obtain ⟨_, _, _, found, seq⟩ := sealAll_getElem sealed stored
  rw [found.seq, asNumber_storedInteger, seq]

theorem keysById_single {id k : String} (found : keysById rt key [] id = some k) : k = key := by
  unfold keysById at found
  simp only [List.foldl_cons, List.foldl_nil] at found
  split at found
  · exact nomatch found
  · by_cases same : id = keyIdFor rt key
    · subst same
      simpa [eq_comm] using found
    · simp [Function.update_of_ne same] at found

theorem content_sealed (sealed : sealAll rt (signingKey rt key) head targets = some chain)
    (named : key ≠ "") (unforgeable : Unforgeable rt key chain rows) {r : Doc} (mem : r ∈ rows)
    (keyed : isText "hmac-sha256" (Doc.get r "hashAlg") = true)
    (checked : checkRow rt r (keysById rt key []) = some .ok) :
    ∃ s ∈ chain, chainContent rt s = chainContent rt r := by
  -- the hash of the row is the HMAC of its content
  have hashed : ∃ content, chainContent rt r = some content ∧
      Doc.get r "hash" = some (.str (rt.hmacSha256 key content)) := by
    rw [checkRow, if_pos keyed] at checked
    cases found : keyOf (keysById rt key []) r with
    | none =>
        rw [found] at checked
        cases checked
    | some k =>
        obtain rfl : k = key := by
          unfold keyOf at found
          split at found
          · exact keysById_single found
          · cases found
        rw [found] at checked
        simp only [compareHash, Option.bind_eq_bind, Option.bind_eq_some_iff, Option.pure_def,
          Option.some.injEq] at checked
        obtain ⟨content, computed, same⟩ := checked
        refine ⟨content, computed, ?_⟩
        split at same
        · rename_i text
          unfold isText at text
          split at text
          · rename_i t stored
            rw [stored, of_decide_eq_true text]
            rfl
          · cases text
        · cases same
  obtain ⟨content, computed, hash⟩ := hashed
  have occurs : content ∈ contents rt (chain ++ rows) :=
    List.mem_filterMap.mpr ⟨r, List.mem_append_right _ mem, computed⟩
  -- so a sealed row has the same hash, and the key tells contents apart
  obtain ⟨s, stored, same⟩ := unforgeable.copied r mem content occurs hash
  obtain ⟨i, _, at_⟩ := List.getElem_of_mem stored
  obtain ⟨target, before, after, isSealed, -⟩ :=
    sealAll_getElem sealed (show chain[i]? = some s by simp [← at_])
  obtain ⟨content', computed', hash'⟩ := isSealed.content
  have key' : (signingKey rt key).map SigningKey.key = some key := by simp [signingKey, named]
  rw [isSealed.hash, hash, hash', key', Option.some.injEq, Value.str.injEq] at same
  have occurs' : content' ∈ contents rt (chain ++ rows) :=
    List.mem_filterMap.mpr ⟨s, List.mem_append_left _ stored, computed'⟩
  obtain rfl := unforgeable.injective content' occurs' content occurs same
  exact ⟨s, stored, computed'.trans computed.symm⟩

theorem run_of_linked {signing : Option SigningKey} {judged : Doc → Prop}
    (sealed : sealAll rt signing head targets = some chain) {walked : List Doc}
    {previous : Option Doc} (linked : Linked judged previous walked)
    (all : ∀ r ∈ walked, ∃ s ∈ chain, SameFields s r) :
    ∃ k, List.Forall₂ SameFields ((chain.drop k).take walked.length) walked ∧
      ∀ r rest, walked = r :: rest → ∃ s, chain[k]? = some s ∧ SameFields s r := by
  induction walked generalizing previous with
  | nil => exact ⟨0, by simp, fun r rest same => nomatch same⟩
  | cons r rest ih =>
      obtain ⟨s, mem, same⟩ := all r (List.mem_cons_self ..)
      obtain ⟨i, bound, at_⟩ := List.getElem_of_mem mem
      have stored : chain[i]? = some s := by simp [← at_]
      have split : (chain.drop i).take (rest.length + 1) =
          s :: (chain.drop (i + 1)).take rest.length := by
        rw [List.drop_eq_getElem_cons bound, List.take_succ_cons, at_]
      obtain ⟨k, tail, next⟩ := ih linked.2.2 fun r' mem' => all r' (List.mem_cons_of_mem _ mem')
      refine ⟨i, ?_, fun r' rest' eq => ?_⟩
      · rw [List.length_cons, split]
        refine .cons same ?_
        cases rest with
        | nil => simp
        | cons r' rest' =>
            -- the next row has the next seq, so it is the next row of the chain
            obtain ⟨s', stored', same'⟩ := next r' rest' rfl
            have follows := linked.2.2.1.1
            rw [followsSeq, ← same "seq" (by decide), ← same' "seq" (by decide),
              sealAll_seq sealed stored, sealAll_seq sealed stored'] at follows
            have step : head.seq + k + 1 = head.seq + i + 1 + 1 := by
              have cast := of_decide_eq_true follows
              exact_mod_cast cast
            obtain rfl : k = i + 1 := by omega
            exact tail
      · obtain ⟨rfl, rfl⟩ := List.cons.inj eq
        exact ⟨s, stored, same⟩

/-- Where an honest chain can be rewritten without the key, and the verifier with that key still
reports it sound, the rows are a run of the sealed rows exactly when every row that is not checked
with the key, or that has the canonical content of a sealed row, has the values of a sealed row. -/
theorem keyed_chain_tamper_evident (rt : Runtime) (key : String) (head : ChainHead)
    (targets chain rows : List Doc) (expectHead : Option ChainHead) (report : ChainReport)
    (named : key ≠ "") (started : 0 ≤ head.seq)
    (sealed : sealAll rt (signingKey rt key) head targets = some chain)
    (unforgeable : Unforgeable rt key chain rows)
    (verified : verifyAuditChain rt rows (keysById rt key []) expectHead = some report)
    (ok : report.ok = true) (all : report.unverifiable = 0) :
    IsRun chain rows ↔
      ∀ r ∈ rows, (checkedWithKey r = false ∨
        ∃ s ∈ chain, chainContent rt s = chainContent rt r) → ∃ s ∈ chain, SameFields s r := by
  constructor
  · rintro ⟨pre, mid, post, rfl, walked, perm, same⟩ r mem _
    obtain ⟨i, bound, at_⟩ := List.getElem_of_mem (perm.mem_iff.mpr mem)
    have bound' : i < mid.length := same.length_eq ▸ bound
    refine ⟨mid[i], by simp, ?_⟩
    rw [← at_]
    exact same.get bound' bound
  · intro known
    have linked := verifyAuditChain_sound verified ok all
    have walkedRow {r : Doc} (mem : r ∈ rows) (walked : chained r = true) :
        r ∈ streamChain rows := by
      rw [streamChain, List.mem_insertionSort]
      exact List.mem_filter.mpr ⟨mem, walked⟩
    have judged {r : Doc} (mem : r ∈ streamChain rows) :
        checkRow rt r (keysById rt key []) = some .ok := linked.judged mem
    have fields : ∀ r ∈ rows, ∃ s ∈ chain, SameFields s r := by
      intro r mem
      by_cases keyed : checkedWithKey r = true
      · have both := keyed
        rw [checkedWithKey, Bool.and_eq_true] at both
        exact known r mem (.inr (content_sealed sealed named unforgeable mem both.2
          (judged (walkedRow mem both.1))))
      · exact known r mem (.inl (Bool.not_eq_true _ ▸ keyed))
    have walkedAll : ∀ r ∈ rows, chained r = true := by
      intro r mem
      obtain ⟨s, stored, same⟩ := fields r mem
      obtain ⟨i, _, at_⟩ := List.getElem_of_mem stored
      obtain ⟨_, before, after, isSealed, seq⟩ :=
        sealAll_getElem sealed (show chain[i]? = some s by simp [← at_])
      have walked := isSealed.chained (by have := isSealed.next; omega)
      rw [chained, ← same "seq" (by decide)]
      exact walked
    have perm : (streamChain rows).Perm rows := by
      rw [streamChain, List.filter_eq_self.mpr walkedAll]
      exact List.perm_insertionSort ..
    obtain ⟨k, run, -⟩ := run_of_linked sealed linked fun r mem =>
      fields r (perm.mem_iff.mp mem)
    refine ⟨chain.take k, (chain.drop k).take (streamChain rows).length,
      (chain.drop k).drop (streamChain rows).length, ?_, streamChain rows, perm, run⟩
    rw [List.append_assoc, List.take_append_drop, List.take_append_drop]

end Tamper

namespace ForgedRow

def fieldText (name : String) : Json → String
  | .obj fields =>
      match fields.lookup name with
      | some (.str s) => s
      | _ => ""
  | _ => ""

/-- Digests that tell contents with different actions apart. -/
def runtime : Runtime where
  sha256 := fun c => "sha " ++ fieldText "action" c
  hmacSha256 := fun key c => "hmac " ++ key ++ " " ++ fieldText "action" c
  sha256Escaped := fun c _ => "sha \\u " ++ fieldText "action" c
  hmacSha256Escaped := fun key c _ => "hmac \\u " ++ key ++ " " ++ fieldText "action" c
  sha256Text := id
  decimalText := fun _ => ""
  text := fun _ => ""
  castDate := fun _ => none

/-- An event that is sealed with the key `k1`. -/
def event : Doc :=
  [("_id", .oid ⟨1⟩), ("occurredAt", .date 0), ("module", .str "iam.users"),
    ("action", .str "user.deleted")]

def honest : Option (List Doc) := sealAll runtime (signingKey runtime "k1") .genesis [event]

def nextEvent : Doc :=
  [("_id", .oid ⟨2⟩), ("occurredAt", .date 1), ("module", .str "iam.users"),
    ("action", .str "user.created")]

def honestPair : List Doc :=
  (sealAll runtime (signingKey runtime "k1") .genesis [event, nextEvent]).getD []

/-- A row in its place that says it was sealed without a key. -/
def forged : Doc :=
  [("_id", .oid ⟨1⟩), ("occurredAt", .date 0), ("module", .str "iam.users"),
    ("action", .str "user.viewed"), ("seq", storedInteger 1), ("prevHash", .str genesisHash),
    ("hashAlg", .str "sha256"), ("hash", .str "sha user.viewed")]

theorem honest_sealed : ∃ row, honest = some [row] ∧
    ∃ head, IsSealed runtime event .genesis (signingKey runtime "k1") row head ∧
      head.hash = "hmac k1 user.deleted" := by
  have hashed : (sealRow runtime event .genesis (signingKey runtime "k1")).map (fun x => x.2.hash) =
      some "hmac k1 user.deleted" := by decide +kernel
  obtain ⟨⟨row, head⟩, sealed, hash⟩ := Option.map_eq_some_iff.mp hashed
  refine ⟨row, ?_, head, isSealed_of_sealRow sealed, hash⟩
  rw [honest, sealAll, sealed]
  rfl

end ForgedRow

/-- A chain of two rows as it was sealed, the later row stored first. -/
theorem keyed_chain_tamper_evident_sealed : IsRun ForgedRow.honestPair ForgedRow.honestPair.reverse := by
  have sealed : sealAll ForgedRow.runtime (signingKey ForgedRow.runtime "k1") .genesis
      [ForgedRow.event, ForgedRow.nextEvent] = some ForgedRow.honestPair := by
    obtain ⟨rows, is⟩ := Option.isSome_iff_exists.mp
      (show (sealAll ForgedRow.runtime (signingKey ForgedRow.runtime "k1") .genesis
        [ForgedRow.event, ForgedRow.nextEvent]).isSome = true by decide +kernel)
    rw [ForgedRow.honestPair, is]
    rfl
  have verified : (verifyAuditChain ForgedRow.runtime ForgedRow.honestPair.reverse
      (keysById ForgedRow.runtime "k1" []) none).any
        (fun report => report.ok && report.unverifiable = 0) = true := by decide +kernel
  obtain ⟨report, verified, sound⟩ := (Option.any_eq_true ..).mp verified
  rw [Bool.and_eq_true] at sound
  have hashes : (contents ForgedRow.runtime ForgedRow.honestPair).map (ForgedRow.runtime.hmacSha256 "k1") =
      ["hmac k1 user.deleted", "hmac k1 user.created"] := by decide +kernel
  obtain ⟨a, rest, both, deleted, last⟩ := List.map_eq_cons_iff.mp hashes
  obtain ⟨b, none, rfl, created, empty⟩ := List.map_eq_cons_iff.mp last
  obtain rfl := List.map_eq_nil_iff.mp empty
  have occurs {c : Json} (mem : c ∈ contents ForgedRow.runtime
      (ForgedRow.honestPair ++ ForgedRow.honestPair.reverse)) : c = a ∨ c = b := by
    rw [contents, List.filterMap_append, List.filterMap_reverse, ← contents, both, List.mem_append,
      List.mem_reverse, or_self] at mem
    simpa using mem
  refine (keyed_chain_tamper_evident ForgedRow.runtime "k1" .genesis [ForgedRow.event, ForgedRow.nextEvent]
    ForgedRow.honestPair ForgedRow.honestPair.reverse none report (by decide) (by decide) sealed ⟨?_, ?_⟩
    verified sound.1 (of_decide_eq_true sound.2)).mpr fun r mem _ =>
      ⟨r, List.mem_reverse.mp mem, fun _ _ => rfl⟩
  · intro c mem c' mem' same
    rcases occurs mem with rfl | rfl <;> rcases occurs mem' with rfl | rfl
    · rfl
    · rw [deleted, created] at same
      exact absurd same (by decide)
    · rw [deleted, created] at same
      exact absurd same (by decide)
    · rfl
  · exact fun r mem _ _ _ => ⟨r, List.mem_reverse.mp mem, rfl⟩

/-- A row that says it was sealed without a key is checked without the key, so anybody can
compute its hash. -/
theorem unkeyed_row_passes :
    ¬ ∀ (rt : Runtime) (key : String) (head : ChainHead) (targets chain rows : List Doc)
        (expectHead : Option ChainHead) (report : ChainReport), key ≠ "" → 0 ≤ head.seq →
      sealAll rt (signingKey rt key) head targets = some chain →
      Unforgeable rt key chain rows →
      verifyAuditChain rt rows (keysById rt key []) expectHead = some report →
      report.ok = true → report.unverifiable = 0 → IsRun chain rows := by
  intro all
  obtain ⟨row, sealed, head, isSealed, hash⟩ := ForgedRow.honest_sealed
  obtain ⟨content, computed, hashed⟩ := isSealed.content
  have forgedHash : (chainContent ForgedRow.runtime ForgedRow.forged).map
      (ForgedRow.runtime.hmacSha256 "k1") = some "hmac k1 user.viewed" := by decide +kernel
  obtain ⟨content', computed', hashed'⟩ := Option.map_eq_some_iff.mp forgedHash
  have keyed : ForgedRow.runtime.hmacSha256 "k1" content = "hmac k1 user.deleted" :=
    hashed.symm.trans hash
  have either {c : Json} (mem : c ∈ contents ForgedRow.runtime ([row] ++ [ForgedRow.forged])) :
      c = content ∨ c = content' := by
    obtain ⟨r, stored, found⟩ := List.mem_filterMap.mp mem
    rcases List.mem_append.mp stored with first | first <;> rw [List.mem_singleton] at first <;>
      subst first
    · exact .inl (Option.some.inj (found.symm.trans computed))
    · exact .inr (Option.some.inj (found.symm.trans computed'))
  have verified : (verifyAuditChain ForgedRow.runtime [ForgedRow.forged]
      (keysById ForgedRow.runtime "k1" []) none).any
        (fun report => report.ok && report.unverifiable = 0) = true := by decide +kernel
  obtain ⟨report, verified, sound⟩ := (Option.any_eq_true ..).mp verified
  rw [Bool.and_eq_true] at sound
  have run := all ForgedRow.runtime "k1" .genesis [ForgedRow.event] [row] [ForgedRow.forged] none
    report (by decide) (by decide) sealed ⟨?_, ?_⟩ verified sound.1 (of_decide_eq_true sound.2)
  · obtain ⟨pre, mid, post, chain, walked, perm, same⟩ := run
    obtain rfl := List.perm_singleton.mp perm
    obtain ⟨s, l, fields, rest, rfl⟩ := List.forall₂_cons_right_iff.mp same
    obtain rfl : s = row := by
      have mem : s ∈ [row] := by rw [chain]; simp
      exact List.mem_singleton.mp mem
    have action := fields "action" (by decide)
    rw [isSealed.other "action" (by decide)] at action
    simp [ForgedRow.event, ForgedRow.forged, Doc.get, List.lookup_cons] at action
  · intro c mem c' mem' same
    rcases either mem with rfl | rfl <;> rcases either mem' with rfl | rfl
    · rfl
    · rw [keyed, hashed'] at same
      exact absurd same (by decide)
    · rw [keyed, hashed'] at same
      exact absurd same (by decide)
    · rfl
  · intro r mem c occurs stored
    obtain rfl := List.mem_singleton.mp mem
    have text : Doc.get ForgedRow.forged "hash" = some (.str "sha user.viewed") := rfl
    rw [text, Option.some.injEq, Value.str.injEq] at stored
    rcases either occurs with rfl | rfl
    · rw [keyed] at stored
      exact absurd stored (by decide)
    · rw [hashed'] at stored
      exact absurd stored (by decide)

end AnalyticsBackend.Audit
