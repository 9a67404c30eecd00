import AnalyticsBackend.Connectors.Webhook
import Std.Data.String.ToNat

/-!
# A delivery is accepted at most once

An accepted request has claimed the key of its signature. As long as the entry of that key is in
force nobody else can claim it, and it outlives the window of the timestamp that the signature
covers. A body-only signature covers no timestamp, so a connector that accepts these is safe only
where nothing the sender has signed can be presented as a body.
-/

namespace AnalyticsBackend.Connectors
open Lib System

/-- The scheme of a signature can be told from what it signs: a connector that accepts body-only
signatures has no signed text that is a valid body, and a signed text that reads as a timestamp
and a valid body is one of these for a delivery of the sender. -/
structure SchemesApart (rt : WebhookRuntime) (c : WebhookConnector) (genuine : Set Delivery) :
    Prop where
  legacy : c.acceptsLegacy = true → ∀ text, Signed genuine text → rt.parseJson text = none
  timestamped : ∀ timestamp body, Signed genuine (signedPayload timestamp body) →
    (rt.parseJson body).isSome = true →
      ∃ d ∈ genuine, d.timestamp = timestamp ∧ d.body = body

/-- The replay keys of the texts that the sender has signed are distinct: neither the HMAC nor the
hash of the key has a collision on them. -/
def DistinctKeys (rt : WebhookRuntime) (c : WebhookConnector) (genuine : Set Delivery) : Prop :=
  ∀ text text', Signed genuine text → Signed genuine text' →
    rt.keyFor c.id (rt.hmacHex c.signingSecret text) =
      rt.keyFor c.id (rt.hmacHex c.signingSecret text') → text = text'

/-- A request reaches the replay store within 59 seconds of the check of its timestamp. -/
def Prompt : WebhookLabel → WebhookDb → WebhookDb → Prop
  | .claim _ _ attempt, db, _ => db.clock < attempt.checkedAt + 59000
  | _, _, _ => True

/-! ## What the checks establish -/

section Checks

variable {rt : WebhookRuntime} {c : WebhookConnector} {genuine : Set Delivery}
  {request : WebhookRequest} {precheck : Precheck} {signature : String} {now : Int}

theorem digit_byte {c : Char} (digit : c.isDigit = true) :
    (UInt8.ofNat c.toNat).toNat = c.toNat ∧ UInt8.ofNat c.toNat ≠ 46 := by
  simp only [Char.isDigit, Bool.and_eq_true, decide_eq_true_eq, ge_iff_le] at digit
  obtain ⟨low, high⟩ := digit
  have low : 48 ≤ c.toNat := low
  have high : c.toNat ≤ 57 := high
  have value : (UInt8.ofNat c.toNat).toNat = c.toNat := by
    rw [UInt8.toNat_ofNat']
    exact Nat.mod_eq_of_lt (by omega)
  refine ⟨value, fun dot => ?_⟩
  rw [dot] at value
  have : (46 : UInt8).toNat = 46 := rfl
  omega

/-- The timestamp is the part before the first dot. -/
theorem signedPayload_injective {t t' : Nat} {body body' : Bytes}
    (same : signedPayload t body = signedPayload t' body') : t = t' ∧ body = body' := by
  have digit {n : Nat} {c : Char} (mem : c ∈ (Nat.repr n).toList) : c.isDigit = true := by
    rw [Nat.toList_repr] at mem
    exact Nat.isDigit_of_mem_toDigits (by decide) (by decide) mem
  have prefix_ (n : Nat) (body : Bytes) : (signedPayload n body).takeWhile (· ≠ 46) =
      (Nat.repr n).toList.map fun c => UInt8.ofNat c.toNat := by
    rw [signedPayload, List.takeWhile_append_of_pos]
    · simp
    · intro b mem
      obtain ⟨c, digits, rfl⟩ := List.mem_map.mp mem
      exact decide_eq_true (digit_byte (digit digits)).2
  have texts := congrArg (List.takeWhile (· ≠ 46)) same
  rw [prefix_, prefix_] at texts
  have chars : (Nat.repr t).toList = (Nat.repr t').toList := by
    have values := congrArg (List.map UInt8.toNat) texts
    rw [List.map_map, List.map_map] at values
    have nats (n : Nat) : (Nat.repr n).toList.map (UInt8.toNat ∘ fun c => UInt8.ofNat c.toNat) =
        (Nat.repr n).toList.map Char.toNat :=
      List.map_congr_left fun c mem => (digit_byte (digit mem)).1
    rw [nats, nats] at values
    exact List.map_injective_iff.mpr (fun a b h => Char.toNat_inj.mp h) values
  obtain rfl := Nat.repr_injective (String.toList_inj.mp chars)
  rw [signedPayload, signedPayload, List.append_cancel_left_eq, List.cons.injEq] at same
  exact ⟨rfl, same.2⟩

def WebhookRequest.Presents (request : WebhookRequest) (timestamp : Nat) : Prop :=
  ∃ parsed, parseSignatureHeader request.signature = .ok parsed ∧
    candidatesOf .timestamped parsed ≠ [] ∧
    parseTimestampHeader request.timestamp true = .ok (some timestamp)

/-- What a request has shown when it gets to its claim. -/
structure Verified (rt : WebhookRuntime) (c : WebhookConnector) (genuine : Set Delivery)
    (attempt : ClaimAttempt) (signature : String) : Prop where
  signed : Signed genuine (attempt.precheck.payload attempt.request.rawBody)
  signature : signature =
    rt.hmacHex c.signingSecret (attempt.precheck.payload attempt.request.rawBody)
  legacy : attempt.precheck.version = .legacy → c.acceptsLegacy = true
  timestamped : attempt.precheck.version = .timestamped → ∃ timestamp,
    attempt.precheck.timestamp = some timestamp ∧ attempt.request.Presents timestamp ∧
      (ageSeconds timestamp attempt.checkedAt : ℚ) ≤ c.effectiveTolerance ∧
      -maxFutureSkewSeconds ≤ ageSeconds timestamp attempt.checkedAt

theorem assertTimestampInWindow_ok {timestamp : Nat} {tolerance : ℚ}
    (passed : assertTimestampInWindow rt timestamp tolerance now = .ok ()) :
    (ageSeconds timestamp now : ℚ) ≤ tolerance ∧
      -maxFutureSkewSeconds ≤ ageSeconds timestamp now := by
  unfold assertTimestampInWindow at passed
  split at passed
  · exact nomatch passed
  · rename_i inside
    rw [not_or] at inside
    exact ⟨not_lt.mp inside.1, not_lt.mp inside.2⟩

/-- What the checks before the secret let through. -/
theorem precheck_ok (passed : precheckWebhookHeaders rt c request now = .ok precheck) :
    ∃ parsed, parseSignatureHeader request.signature = .ok parsed ∧
      (precheck.version = .timestamped ∧ precheck.candidates = candidatesOf .timestamped parsed ∧
        (∃ timestamp, precheck.timestamp = some timestamp ∧ request.Presents timestamp) ∨
      precheck.version = .legacy ∧ precheck.candidates = candidatesOf .legacy parsed ∧
        c.acceptsLegacy = true) := by
  unfold precheckWebhookHeaders at passed
  cases header : parseSignatureHeader request.signature with
  | error e => rw [header] at passed; exact nomatch passed
  | ok parsed =>
      rw [header] at passed
      dsimp only [bind, Except.bind] at passed
      refine ⟨parsed, rfl, ?_⟩
      split at passed
      · rename_i v2
        cases timestamp : parseTimestampHeader request.timestamp true with
        | error e => rw [timestamp] at passed; exact nomatch passed
        | ok found =>
            rw [timestamp] at passed
            cases found with
            | none => exact nomatch passed
            | some t =>
                dsimp only at passed
                split at passed
                · exact nomatch passed
                · obtain rfl := Except.ok.inj passed
                  exact .inl ⟨rfl, rfl, t, rfl, parsed, header, v2, timestamp⟩
      · split at passed
        · exact nomatch passed
        · rename_i accepts
          have accepts : c.acceptsLegacy = true := by simpa using accepts
          cases timestamp : parseTimestampHeader request.timestamp false with
          | error e => rw [timestamp] at passed; exact nomatch passed
          | ok found =>
              rw [timestamp] at passed
              cases found with
              | none =>
                  obtain rfl := Except.ok.inj passed
                  exact .inr ⟨rfl, rfl, accepts⟩
              | some t =>
                  dsimp only at passed
                  split at passed
                  · exact nomatch passed
                  · obtain rfl := Except.ok.inj passed
                    exact .inr ⟨rfl, rfl, accepts⟩

theorem verifyWithConfig_ok (passed : verifyWithConfig rt c request precheck now = .ok signature) :
    signature ∈ precheck.candidates ∧
      signature = rt.hmacHex c.signingSecret (precheck.payload request.rawBody) ∧
      ∀ timestamp, precheck.timestamp = some timestamp →
        (ageSeconds timestamp now : ℚ) ≤ c.effectiveTolerance ∧
          -maxFutureSkewSeconds ≤ ageSeconds timestamp now := by
  have found {secret : String}
      (passed : verifyPrechecked rt precheck request.rawBody secret = .ok signature) :
      signature ∈ precheck.candidates ∧
        signature = rt.hmacHex secret (precheck.payload request.rawBody) := by
    unfold verifyPrechecked at passed
    split at passed
    · exact nomatch passed
    · split at passed
      · rename_i matched
        obtain rfl := Except.ok.inj passed
        have same := List.find?_some matched
        rw [decide_eq_true_eq] at same
        exact ⟨List.mem_of_find?_eq_some matched, same.symm⟩
      · exact nomatch passed
  unfold verifyWithConfig at passed
  split at passed
  · exact nomatch passed
  · cases stamped : precheck.timestamp with
    | none =>
        rw [stamped] at passed
        obtain ⟨mem, same⟩ := found passed
        exact ⟨mem, same, fun _ none => nomatch none⟩
    | some timestamp =>
        rw [stamped] at passed
        dsimp only [bind, Except.bind] at passed
        cases inside : assertTimestampInWindow rt timestamp c.effectiveTolerance now with
        | error e => rw [inside] at passed; exact nomatch passed
        | ok u =>
            rw [inside] at passed
            obtain ⟨mem, same⟩ := found passed
            refine ⟨mem, same, fun t equal => ?_⟩
            obtain rfl := Option.some.inj equal
            exact assertTimestampInWindow_ok inside

theorem verified_of_checks (unforged : Unforged rt c genuine request) {now later : Int}
    (prechecked : precheckWebhookHeaders rt c request now = .ok precheck)
    (checked : verifyWithConfig rt c request precheck later = .ok signature) :
    Verified rt c genuine { request, precheck, checkedAt := later } signature := by
  obtain ⟨parsed, header, scheme⟩ := precheck_ok prechecked
  obtain ⟨mem, same, window⟩ := verifyWithConfig_ok checked
  have candidate {version : SignatureVersion}
      (mem : signature ∈ candidatesOf version parsed) : ∃ cand ∈ parsed, cand.hex = signature := by
    obtain ⟨cand, among, hex⟩ := List.mem_map.mp mem
    exact ⟨cand, (List.mem_filter.mp among).1, hex⟩
  rcases scheme with ⟨version, among, t, stamped, presents⟩ | ⟨version, among, accepts⟩
  · have payload : precheck.payload request.rawBody = signedPayload t request.rawBody := by
      rw [Precheck.payload, version, stamped]
    have text : signedPayload t request.rawBody ∈ request.texts := by
      obtain ⟨-, -, -, timestamp⟩ := presents
      rw [WebhookRequest.texts, timestamp]
      simp
    obtain ⟨cand, here, hex⟩ := candidate (among ▸ mem)
    refine ⟨?_, same, fun legacy => ?_, fun _ => ⟨t, stamped, presents, window t stamped⟩⟩
    · show Signed genuine (precheck.payload request.rawBody)
      rw [payload] at same ⊢
      exact unforged parsed header cand here _ text (same.symm.trans hex.symm)
    · exact absurd (version.symm.trans legacy) (by decide)
  · have payload : precheck.payload request.rawBody = request.rawBody := by
      rw [Precheck.payload, version]
    obtain ⟨cand, here, hex⟩ := candidate (among ▸ mem)
    refine ⟨?_, same, fun _ => accepts, fun timestamped => ?_⟩
    · show Signed genuine (precheck.payload request.rawBody)
      rw [payload] at same ⊢
      exact unforged parsed header cand here _ (List.mem_cons_self ..) (same.symm.trans hex.symm)
    · exact absurd (version.symm.trans timestamped) (by decide)

end Checks

/-! ## The invariant -/

abbrev WebhookWorld := World Nat WebhookLabel WebhookDb

abbrev WebhookEvent := Event Nat WebhookLabel WebhookDb

/-- The first claim of a key by a v2 signature, and the end of its entry. -/
def FirstClaim (e : WebhookEvent) (key : String) (expiresAt : Int) (attempt : ClaimAttempt) : Prop :=
  ∃ ttl, e.label = .claim key ttl attempt ∧ attempt.precheck.version = .timestamped ∧
    e.before.unclaimed key = true ∧ expiresAt = e.before.clock + 1000 * ttl

def Keeps (steps : List WebhookEvent) (key : String) (expiresAt : Int) : Prop :=
  (∃ e ∈ steps, ∃ attempt, FirstClaim e key expiresAt attempt) ∧
    ∀ e ∈ steps, e.label ≠ .release key

/-- A request has claimed a key and not released it. -/
def Holds (w : WebhookWorld) (i : Nat) (key : String) (expiresAt : Int) : Prop :=
  Keeps (w.own i) key expiresAt

/-- A claim comes from a request that has passed its checks within the last 59 seconds, and its
entry outlives the window. -/
def ClaimSound (rt : WebhookRuntime) (c : WebhookConnector) (genuine : Set Delivery)
    (e : WebhookEvent) : Prop :=
  ∀ key ttl attempt, e.label = .claim key ttl attempt →
    (∃ signature, Verified rt c genuine attempt signature ∧ key = rt.keyFor c.id signature) ∧
      c.effectiveTolerance + 120 ≤ ttl ∧ attempt.checkedAt ≤ e.before.clock ∧
      e.before.clock < attempt.checkedAt + 59000

/-- Behind every claim that was not released stands its entry until its end, and a key has one
such claim. -/
structure OnceInv (rt : WebhookRuntime) (c : WebhookConnector) (genuine : Set Delivery)
    (w : WebhookWorld) : Prop where
  sound : ∀ e ∈ w.trace, ClaimSound rt c genuine e
  covered : ∀ i key expiresAt, Holds w i key expiresAt →
    w.store.entries key = some expiresAt ∨ expiresAt ≤ w.store.clock
  once : ∀ i j key expiresAt expiresAt', Holds w i key expiresAt → Holds w j key expiresAt' → i = j

section Invariant

variable {rt : WebhookRuntime} {c : WebhookConnector} {genuine : Set Delivery} {w : WebhookWorld}
  {e : WebhookEvent} {i j : Nat} {key : String} {expiresAt : Int}

theorem Holds.of_push (holds : Holds (w.push e) i key expiresAt) :
    Holds w i key expiresAt ∨ e.tid = i ∧ ∃ attempt, FirstClaim e key expiresAt attempt := by
  obtain ⟨⟨first, mem, claim⟩, kept⟩ := holds
  rw [World.own_push] at mem kept
  by_cases own : e.tid = i
  · rw [if_pos own] at mem kept
    rcases List.mem_cons.mp mem with rfl | earlier
    · exact .inr ⟨own, claim⟩
    · exact .inl ⟨⟨first, earlier, claim⟩, fun e' mem' => kept e' (List.mem_cons_of_mem _ mem')⟩
  · rw [if_neg own] at mem kept
    exact .inl ⟨⟨first, mem, claim⟩, kept⟩

theorem Holds.push (holds : Holds w i key expiresAt) (other : e.label ≠ .release key) :
    Holds (w.push e) i key expiresAt := by
  obtain ⟨⟨first, mem, claim⟩, kept⟩ := holds
  unfold Holds
  rw [World.own_push]
  split
  · refine ⟨⟨first, List.mem_cons_of_mem _ mem, claim⟩, fun e' mem' => ?_⟩
    rcases List.mem_cons.mp mem' with rfl | earlier
    · exact other
    · exact kept e' earlier
  · exact ⟨⟨first, mem, claim⟩, kept⟩

theorem Holds.mem (holds : Holds w i key expiresAt) :
    ∃ first ∈ w.trace, ∃ attempt, FirstClaim first key expiresAt attempt := by
  obtain ⟨⟨first, mem, claim⟩, -⟩ := holds
  exact ⟨first, (List.mem_filter.mp mem).1, claim⟩

theorem entry_outlives (distinct : DistinctKeys rt c genuine) {e' : WebhookEvent}
    {attempt attempt' : ClaimAttempt} {expiresAt' : Int}
    (sound : ClaimSound rt c genuine e) (claim : FirstClaim e key expiresAt attempt)
    (sound' : ClaimSound rt c genuine e') (claim' : FirstClaim e' key expiresAt' attempt') :
    e'.before.clock < expiresAt := by
  obtain ⟨ttl, label, v2, -, rfl⟩ := claim
  obtain ⟨ttl', label', v2', -, -⟩ := claim'
  obtain ⟨⟨signature, verified, named⟩, long, checked, -⟩ := sound _ _ _ label
  obtain ⟨⟨signature', verified', named'⟩, -, -, prompt⟩ := sound' _ _ _ label'
  obtain ⟨t, stamped, -, -, low⟩ := verified.timestamped v2
  obtain ⟨t', stamped', -, high, -⟩ := verified'.timestamped v2'
  have text : attempt.precheck.payload attempt.request.rawBody =
      attempt'.precheck.payload attempt'.request.rawBody := by
    refine distinct _ _ verified.signed verified'.signed ?_
    rw [← verified.signature, ← verified'.signature, ← named, ← named']
  simp only [Precheck.payload, v2, v2', stamped, stamped'] at text
  obtain ⟨rfl, -⟩ := signedPayload_injective text
  unfold ageSeconds at high low
  have early : 1000 * ((t : Int) - 60) ≤ e.before.clock := by
    unfold maxFutureSkewSeconds at low
    omega
  have late : e'.before.clock < 1000 * (attempt'.checkedAt / 1000) + 60000 := by omega
  have window : ((attempt'.checkedAt / 1000 : Int) : ℚ) ≤ c.effectiveTolerance + t := by
    push_cast at high
    linarith
  have lateQ : (e'.before.clock : ℚ) < 1000 * ((attempt'.checkedAt / 1000 : Int) : ℚ) + 60000 := by
    exact_mod_cast late
  have earlyQ : 1000 * ((t : ℚ) - 60) ≤ (e.before.clock : ℚ) := by exact_mod_cast early
  have result : (e'.before.clock : ℚ) < ((e.before.clock + 1000 * ttl : Int) : ℚ) := by
    push_cast
    linarith
  exact_mod_cast result

/-- A step that makes no first claim keeps the invariant when the entries of the claims that are
held after it are as they were, or have ended. -/
theorem OnceInv.push (inv : OnceInv rt c genuine w) (sound : ClaimSound rt c genuine e)
    (clock : e.after.clock = w.store.clock)
    (none : ∀ key expiresAt attempt, ¬ FirstClaim e key expiresAt attempt)
    (entries : ∀ i key expiresAt, Holds (w.push e) i key expiresAt →
      e.after.entries key = w.store.entries key ∨ expiresAt ≤ w.store.clock) :
    OnceInv rt c genuine (w.push e) := by
  have before {i : Nat} {key : String} {expiresAt : Int}
      (holds : Holds (w.push e) i key expiresAt) : Holds w i key expiresAt := by
    rcases holds.of_push with held | ⟨-, attempt, claim⟩
    · exact held
    · exact absurd claim (none key expiresAt attempt)
  refine ⟨fun e' mem => ?_, fun i key expiresAt holds => ?_,
    fun i j key expiresAt expiresAt' holds holds' =>
      inv.once i j key expiresAt expiresAt' (before holds) (before holds')⟩
  · rcases List.mem_cons.mp mem with rfl | earlier
    · exact sound
    · exact inv.sound e' earlier
  · rw [World.push_store, clock]
    rcases entries i key expiresAt holds with same | ended
    · rw [same]
      exact inv.covered i key expiresAt (before holds)
    · exact .inr ended

theorem OnceInv.ended (inv : OnceInv rt c genuine w) (holds : Holds w i key expiresAt)
    (unclaimed : w.store.unclaimed key = true) : expiresAt ≤ w.store.clock := by
  rcases inv.covered i key expiresAt holds with entry | ended
  · rw [WebhookDb.unclaimed, entry] at unclaimed
    simpa using unclaimed
  · exact ended

/-- A claim keeps the invariant, and is held when it is the first of a v2 signature. -/
theorem OnceInv.claim (distinct : DistinctKeys rt c genuine) (inv : OnceInv rt c genuine w)
    {ttl : Int} {attempt : ClaimAttempt}
    (sound : ClaimSound rt c genuine
      ⟨i, .claim key ttl attempt, w.store, w.store.setIfAbsent key ttl⟩) :
    OnceInv rt c genuine
      (w.push ⟨i, .claim key ttl attempt, w.store, w.store.setIfAbsent key ttl⟩) := by
  by_cases unclaimed : w.store.unclaimed key = true
  · have after : w.store.setIfAbsent key ttl =
        { w.store with
          entries := Function.update w.store.entries key (some (w.store.clock + 1000 * ttl)) } := by
      rw [WebhookDb.setIfAbsent, if_pos unclaimed]
    by_cases v2 : attempt.precheck.version = .timestamped
    · -- nobody held the key: its entry would still be in force
      have claim : FirstClaim ⟨i, .claim key ttl attempt, w.store, w.store.setIfAbsent key ttl⟩ key
          (w.store.clock + 1000 * ttl) attempt := ⟨ttl, rfl, v2, unclaimed, rfl⟩
      have free : ∀ j expiresAt, ¬ Holds w j key expiresAt := by
        intro j expiresAt holds
        obtain ⟨first, mem, attempt', claim'⟩ := holds.mem
        have later := entry_outlives distinct (inv.sound first mem) claim' sound claim
        exact absurd (inv.ended holds unclaimed) (not_le.mpr later)
      have fresh {j : Nat} {expiresAt : Int} (holds : Holds
          (w.push ⟨i, .claim key ttl attempt, w.store, w.store.setIfAbsent key ttl⟩) j key
            expiresAt) : i = j ∧ expiresAt = w.store.clock + 1000 * ttl := by
        rcases holds.of_push with held | ⟨own, attempt', ttl', label, -, -, ends⟩
        · exact absurd held (free j expiresAt)
        · obtain ⟨-, rfl, -⟩ := WebhookLabel.claim.inj label
          exact ⟨own, ends⟩
      have other {j : Nat} {key' : String} {expiresAt : Int} (apart : key' ≠ key) (holds : Holds
          (w.push ⟨i, .claim key ttl attempt, w.store, w.store.setIfAbsent key ttl⟩) j key'
            expiresAt) : Holds w j key' expiresAt := by
        rcases holds.of_push with held | ⟨-, attempt', ttl', label, -, -, -⟩
        · exact held
        · exact absurd (WebhookLabel.claim.inj label).1.symm apart
      refine ⟨fun e' mem => ?_, fun j key' expiresAt holds => ?_,
        fun j j' key' expiresAt expiresAt' holds holds' => ?_⟩
      · rcases List.mem_cons.mp mem with rfl | earlier
        · exact sound
        · exact inv.sound e' earlier
      · have entries : (w.store.setIfAbsent key ttl).entries key' =
            if key' = key then some (w.store.clock + 1000 * ttl) else w.store.entries key' := by
          rw [after]
          exact Function.update_apply ..
        have clock : (w.store.setIfAbsent key ttl).clock = w.store.clock := by rw [after]
        rw [World.push_store, entries, clock]
        by_cases same : key' = key
        · subst same
          obtain ⟨-, ends⟩ := fresh holds
          exact .inl (by rw [ends, if_pos rfl])
        · rw [if_neg same]
          exact inv.covered j key' expiresAt (other same holds)
      · by_cases same : key' = key
        · subst same
          exact (fresh holds).1.symm.trans (fresh holds').1
        · exact inv.once j j' key' expiresAt expiresAt' (other same holds) (other same holds')
    · refine inv.push sound (by rw [after]) ?_ fun j key' expiresAt holds => ?_
      · rintro key' expiresAt attempt' ⟨ttl', label, v2', -⟩
        obtain ⟨-, -, rfl⟩ := WebhookLabel.claim.inj label
        exact v2 v2'
      · by_cases same : key' = key
        · subst same
          rcases holds.of_push with held | ⟨-, attempt', ttl', label, v2', -⟩
          · exact .inr (inv.ended held unclaimed)
          · obtain ⟨-, -, rfl⟩ := WebhookLabel.claim.inj label
            exact absurd v2' v2
        · rw [after]
          exact .inl (Function.update_of_ne same ..)
  · have after : w.store.setIfAbsent key ttl = w.store := by
      rw [WebhookDb.setIfAbsent, if_neg unclaimed]
    refine inv.push sound (by rw [after]) ?_ fun _ _ _ _ => .inl (by rw [after])
    rintro key' expiresAt attempt' ⟨ttl', label, -, free, -⟩
    obtain ⟨rfl, -, -⟩ := WebhookLabel.claim.inj label
    exact unclaimed free

theorem OnceInv.release (inv : OnceInv rt c genuine w) (holds : Holds w i key expiresAt) :
    OnceInv rt c genuine (w.push ⟨i, .release key, w.store, w.store.del key⟩) := by
  refine inv.push (fun _ _ _ label => nomatch label) rfl (fun _ _ _ claim => ?_)
    fun j key' expiresAt' held => .inl ?_
  · obtain ⟨ttl, label, -⟩ := claim
    exact nomatch label
  · by_cases same : key' = key
    · subst same
      have before : Holds w j key' expiresAt' := by
        rcases held.of_push with before | ⟨-, attempt, ttl, label, -⟩
        · exact before
        · exact nomatch label
      obtain rfl := inv.once i j key' _ _ holds before
      have released := held.2 ⟨i, .release key', w.store, w.store.del key'⟩
        (by rw [World.own_push, if_pos rfl]; exact List.mem_cons_self ..)
      exact absurd rfl released
    · exact Function.update_of_ne same ..

end Invariant

/-! ## The steps of a request -/

section Steps

variable {rt : WebhookRuntime} {c : WebhookConnector} {genuine : Set Delivery} {i : Nat}
  {request : WebhookRequest} {precheck : Precheck}

/-- No step turns the clock back. -/
def KeepsClock (e : WebhookEvent) : Prop := e.after.clock = e.before.clock

abbrev SafeHook {A : Type} (rt : WebhookRuntime) (c : WebhookConnector) (genuine : Set Delivery)
    (i : Nat) (Q : A → WebhookWorld → Prop) (p : WebhookProg A) (P : WebhookWorld → Prop) : Prop :=
  Safe (webhookSystem rt c genuine Prompt).env Prompt (OnceInv rt c genuine) KeepsClock i Q p P

abbrev StableHook (rt : WebhookRuntime) (c : WebhookConnector) (genuine : Set Delivery) (i : Nat)
    (P : WebhookWorld → Prop) : Prop :=
  Stable (webhookSystem rt c genuine Prompt).env (OnceInv rt c genuine) KeepsClock i P

/-- The request has only looked so far. -/
def OnlyLooked (w : WebhookWorld) (i : Nat) : Prop := ∀ e ∈ w.own i, e.label = .look

/-- What holds of an accepted request: it is about a delivery of the sender, whose key it has
claimed. -/
def AcceptedFor (rt : WebhookRuntime) (c : WebhookConnector) (genuine : Set Delivery) (i : Nat)
    (answer : WebhookRequest × WebhookResult) (w : WebhookWorld) : Prop :=
  ∀ accepted, answer.2 = .ok accepted → ∃ timestamp, answer.1.Presents timestamp ∧
    (∃ d ∈ genuine, d.timestamp = timestamp ∧ d.body = answer.1.rawBody) ∧
    ∃ expiresAt, Holds w i
      (rt.keyFor c.id (rt.hmacHex c.signingSecret (signedPayload timestamp answer.1.rawBody)))
      expiresAt

theorem stable_fact (φ : Prop) : StableHook rt c genuine i fun _ => φ :=
  ⟨fun _ _ _ h _ _ _ _ => h, fun _ _ _ h _ => h⟩

theorem stable_onlyLooked : StableHook rt c genuine i fun w => OnlyLooked w i :=
  Stable.own i fun own => ∀ e ∈ own, e.label = WebhookLabel.look

theorem stable_holds (key : String) : StableHook rt c genuine i
    fun w => ∃ expiresAt, Holds w i key expiresAt :=
  Stable.own i fun own => ∃ expiresAt, Keeps own key expiresAt

theorem stable_clock (t : Int) : StableHook rt c genuine i fun w => t ≤ w.store.clock :=
  Stable.le (f := WebhookDb.clock) (fun _ _ may => may.2) (fun _ same => same.ge) i t

theorem OnlyLooked.push {w : WebhookWorld} (quiet : OnlyLooked w i) (db : WebhookDb) :
    OnlyLooked (w.push ⟨i, .look, w.store, db⟩) i := by
  intro e mem
  rw [World.own_push, if_pos rfl] at mem
  rcases List.mem_cons.mp mem with rfl | earlier
  · rfl
  · exact quiet e earlier

theorem OnceInv.look {w : WebhookWorld} (inv : OnceInv rt c genuine w) :
    OnceInv rt c genuine (w.push ⟨i, .look, w.store, w.store⟩) :=
  inv.push (fun _ _ _ label => nomatch label) rfl (fun _ _ _ ⟨_, label, _⟩ => nomatch label)
    fun _ _ _ _ => .inl rfl

theorem safe_look {A : Type} {f : WebhookDb → A} :
    SafeHook rt c genuine i (fun _ w => OnlyLooked w i) (look f) fun w => OnlyLooked w i :=
  Safe.update (fun _ => stable_onlyLooked) fun _ inv quiet _ => ⟨inv.look, rfl, quiet.push _⟩

theorem safe_refused {P : WebhookWorld → Prop} (error : ConnectorError) :
    SafeHook rt c genuine i (fun result => AcceptedFor rt c genuine i (request, result))
      (pure (.error error)) P :=
  fun _ _ _ _ accepted => nomatch accepted

theorem safe_refuseRetryable {key : String} (error : ConnectorError) :
    SafeHook rt c genuine i (fun result => AcceptedFor rt c genuine i (request, result))
      (refuseRetryable key error) fun w => ∃ expiresAt, Holds w i key expiresAt := by
  have release : SafeHook rt c genuine i (fun _ _ => True) (releaseDelivery key)
      fun w => ∃ expiresAt, Holds w i key expiresAt := by
    refine Safe.update (fun _ => stable_fact True) fun w inv holds _ => ?_
    obtain ⟨expiresAt, holds⟩ := holds
    exact ⟨inv.release holds, rfl, trivial⟩
  exact release.bind fun _ => safe_refused error

theorem safe_deliver {timestamp : Nat} {key : String} (presents : request.Presents timestamp)
    (signed : Signed genuine (signedPayload timestamp request.rawBody))
    (named : key =
      rt.keyFor c.id (rt.hmacHex c.signingSecret (signedPayload timestamp request.rawBody)))
    (apart : SchemesApart rt c genuine) (version : SignatureVersion) :
    SafeHook rt c genuine i (fun result => AcceptedFor rt c genuine i (request, result))
      (deliver rt c request version key) fun w => ∃ expiresAt, Holds w i key expiresAt := by
  have accepted (result : Accepted) (w : WebhookWorld) (holds : ∃ expiresAt, Holds w i key expiresAt)
      (genuinely : ∃ d ∈ genuine, d.timestamp = timestamp ∧ d.body = request.rawBody) :
      AcceptedFor rt c genuine i (request, .ok result) w := by
    intro _ _
    rw [named] at holds
    exact ⟨timestamp, presents, genuinely, holds⟩
  unfold deliver
  cases parsed : rt.parseJson request.rawBody with
  | none => exact safe_refused _
  | some payload =>
      have genuinely := apart.timestamped timestamp request.rawBody signed (by rw [parsed]; rfl)
      dsimp only
      split
      · exact safe_refused _
      · split
        · exact fun w _ holds => accepted _ w holds genuinely
        · refine Safe.bind (R := fun _ w => ∃ expiresAt, Holds w i key expiresAt)
            (Safe.update (fun _ => stable_holds key) fun w inv holds _ => ?_) fun admitted => ?_
          · obtain ⟨expiresAt, holds⟩ := holds
            exact ⟨inv.look, rfl, expiresAt, holds.push (fun label => nomatch label)⟩
          · split
            · refine Safe.bind (R := fun _ w => ∃ expiresAt, Holds w i key expiresAt)
                (Safe.update (fun _ => stable_holds key) fun w inv holds _ => ?_) fun queued => ?_
              · obtain ⟨expiresAt, holds⟩ := holds
                have entries : ∀ db : WebhookDb,
                    (if db.queueAccepts then { db with jobs := ingest payload :: db.jobs }
                      else db).entries = db.entries ∧
                    (if db.queueAccepts then { db with jobs := ingest payload :: db.jobs }
                      else db).clock = db.clock := fun db => by
                  split <;> exact ⟨rfl, rfl⟩
                refine ⟨inv.push (fun _ _ _ label => nomatch label) (entries _).2
                  (fun _ _ _ ⟨_, label, _⟩ => nomatch label)
                  fun _ _ _ _ => .inl (by rw [(entries _).1]), (entries _).2, expiresAt,
                  holds.push (fun label => nomatch label)⟩
              · split
                · exact fun w _ holds => accepted _ w holds genuinely
                · exact safe_refuseRetryable _
            · exact safe_refuseRetryable _

theorem safe_claimAndDeliver {signature : String} {checkedAt : Int}
    (distinct : DistinctKeys rt c genuine) (apart : SchemesApart rt c genuine)
    (verified : Verified rt c genuine { request, precheck, checkedAt } signature) :
    SafeHook rt c genuine i (fun result => AcceptedFor rt c genuine i (request, result))
      (claimAndDeliver rt c request precheck signature checkedAt)
      fun w => OnlyLooked w i ∧ checkedAt ≤ w.store.clock := by
  have claim : SafeHook rt c genuine i
      (fun fresh w => fresh = true → precheck.version = .timestamped →
        ∃ expiresAt, Holds w i (rt.keyFor c.id signature) expiresAt)
      (claimDelivery (rt.keyFor c.id signature)
        (c.effectiveTolerance + maxFutureSkewSeconds + 60) { request, precheck, checkedAt })
      fun w => OnlyLooked w i ∧ checkedAt ≤ w.store.clock := by
    refine Safe.update (fun fresh => Stable.imp fun _ => Stable.imp fun _ => stable_holds _) ?_
    intro w inv entry prompt
    obtain ⟨quiet, checked⟩ := entry
    refine ⟨inv.claim distinct ?_, ?_, fun fresh v2 => ?_⟩
    · intro key ttl attempt label
      obtain ⟨rfl, rfl, rfl⟩ := WebhookLabel.claim.inj label
      refine ⟨⟨signature, verified, rfl⟩, ?_, checked, prompt⟩
      have ceil := Int.le_ceil (c.effectiveTolerance + maxFutureSkewSeconds + 60)
      have more : (⌈c.effectiveTolerance + maxFutureSkewSeconds + 60⌉ : ℚ) ≤
          ((max 1 ⌈c.effectiveTolerance + maxFutureSkewSeconds + 60⌉ : Int) : ℚ) := by
        exact_mod_cast le_max_right ..
      have skew : (maxFutureSkewSeconds : ℚ) = 60 := by
        unfold maxFutureSkewSeconds
        norm_num
      rw [skew] at ceil more ⊢
      linarith
    · show (w.store.setIfAbsent _ _).clock = w.store.clock
      unfold WebhookDb.setIfAbsent
      split <;> rfl
    · unfold Holds
      rw [World.own_push, if_pos rfl]
      refine ⟨_, ⟨_, List.mem_cons_self .., _, _, rfl, v2, fresh, rfl⟩, fun e mem => ?_⟩
      rcases List.mem_cons.mp mem with rfl | earlier
      · exact fun label => nomatch label
      · rw [quiet e earlier]
        exact fun label => nomatch label
  refine claim.bind fun fresh => ?_
  split
  · rename_i first
    cases version : precheck.version with
    | legacy =>
        -- what the sender has signed is no body for a connector that accepts body-only signatures
        have signed := verified.signed
        simp only [Precheck.payload, version] at signed
        have unparsed := apart.legacy (verified.legacy version) _ signed
        unfold deliver
        rw [unparsed]
        exact safe_refused _
    | timestamped =>
        obtain ⟨timestamp, stamped, presents, -⟩ := verified.timestamped version
        have signed := verified.signed
        have named := verified.signature
        dsimp only at stamped
        simp only [Precheck.payload, version, stamped] at signed named
        refine (safe_deliver presents signed (by rw [named]) apart _).weaken fun w _ holds => ?_
        exact holds first rfl
  · exact safe_refused _

theorem safe_handleWebhook (distinct : DistinctKeys rt c genuine)
    (apart : SchemesApart rt c genuine) (unforged : Unforged rt c genuine request) :
    SafeHook rt c genuine i (fun result => AcceptedFor rt c genuine i (request, result))
      (handleWebhook rt c request) fun w => OnlyLooked w i := by
  unfold handleWebhook
  split
  · exact safe_refused _
  · refine safe_look.bind fun status => ?_
    dsimp only
    split
    · exact safe_refused _
    · refine safe_look.bind fun now => ?_
      split
      · exact safe_refused _
      · rename_i precheck prechecked
        have later : SafeHook rt c genuine i
            (fun checkedAt w => OnlyLooked w i ∧ checkedAt ≤ w.store.clock)
            (look WebhookDb.clock) fun w => OnlyLooked w i :=
          Safe.update (fun t => stable_onlyLooked.and (stable_clock t)) fun w inv quiet _ =>
            ⟨inv.look, rfl, quiet.push _, le_refl _⟩
        refine later.bind fun checkedAt => ?_
        split
        · exact safe_refused _
        · rename_i signature checked
          exact safe_claimAndDeliver distinct apart
            (verified_of_checks unforged prechecked checked)

theorem webhook_discipline (distinct : DistinctKeys rt c genuine)
    (apart : SchemesApart rt c genuine) (s₀ : WebhookDb) :
    Discipline (webhookSystem rt c genuine Prompt) (OnceInv rt c genuine) KeepsClock
      (AcceptedFor rt c genuine) s₀ where
  init :=
    ⟨fun _ mem => (nomatch mem), fun _ _ _ holds => (nomatch holds.mem.choose_spec.1),
      fun _ _ _ _ _ holds => (nomatch holds.mem.choose_spec.1)⟩
  env := by
    rintro w db' inv ⟨entries, clock⟩
    refine ⟨inv.sound, fun i key expiresAt holds => ?_, inv.once⟩
    rcases inv.covered i key expiresAt holds with entry | ended
    · exact .inl (by rw [entries]; exact entry)
    · exact .inr (ended.trans clock)
  start := by
    rintro i p ⟨request, unforged, rfl⟩
    refine ⟨fun w => OnlyLooked w i, stable_onlyLooked, fun w _ unused e mem => ?_,
      (safe_handleWebhook distinct apart unforged).bind fun result => fun _ _ holds => holds⟩
    obtain ⟨among, own⟩ := List.mem_filter.mp mem
    exact absurd (of_decide_eq_true own) (unused e among)

end Steps

/-- A delivery of the sender is accepted at most once, and nothing else is accepted. -/
theorem delivery_accepted_once (rt : WebhookRuntime) (c : WebhookConnector)
    (genuine : Set Delivery) (distinct : DistinctKeys rt c genuine)
    (apart : SchemesApart rt c genuine) (s₀ : WebhookDb)
    {conf : Config Nat WebhookLabel WebhookDb (WebhookRequest × WebhookResult)}
    (reach : (webhookSystem rt c genuine Prompt).Reach s₀ conf) :
    (∀ i request accepted, conf.pool i = some (.done (request, .ok accepted)) →
      ∃ d ∈ genuine, request.carries d) ∧
    ∀ d ∈ genuine, ∀ i j request request' accepted accepted',
      conf.pool i = some (.done (request, .ok accepted)) →
      conf.pool j = some (.done (request', .ok accepted')) →
      request.carries d → request'.carries d → i = j := by
  have rule := webhook_discipline distinct apart s₀
  constructor
  · intro i request accepted returned
    obtain ⟨timestamp, ⟨parsed, header, v2, stamp⟩, ⟨d, mem, rfl, body⟩, -⟩ :=
      reach.result rule returned accepted rfl
    exact ⟨d, mem, body.symm, fun _ _ _ => stamp⟩
  · intro d _ i j request request' accepted accepted' returned returned' carries carries'
    have key {i : Nat} {request : WebhookRequest} {accepted : Accepted}
        (returned : conf.pool i = some (.done (request, .ok accepted)))
        (carries : request.carries d) : ∃ expiresAt, Holds conf.world i
          (rt.keyFor c.id (rt.hmacHex c.signingSecret (signedPayload d.timestamp d.body)))
          expiresAt := by
      obtain ⟨timestamp, ⟨parsed, header, v2, stamp⟩, -, holds⟩ :=
        reach.result rule returned accepted rfl
      obtain ⟨body, stamped⟩ := carries
      have same := stamp.symm.trans (stamped parsed header v2)
      obtain rfl := Option.some.inj (Except.ok.inj same)
      dsimp only at holds
      rwa [body] at holds
    obtain ⟨expiresAt, holds⟩ := key returned carries
    obtain ⟨expiresAt', holds'⟩ := key returned' carries'
    exact (reach.sound rule).inv.once i j _ expiresAt expiresAt' holds holds'

instance Prompt.decidable (label : WebhookLabel) (db db' : WebhookDb) :
    Decidable (Prompt label db db') :=
  match label with
  | .claim _ _ attempt => inferInstanceAs (Decidable (db.clock < attempt.checkedAt + 59000))
  | .look => isTrue trivial
  | .release _ => isTrue trivial
  | .enqueue _ => isTrue trivial

instance (rt : WebhookRuntime) (c : WebhookConnector) (genuine : Set Delivery)
    (label : WebhookLabel) (db db' : WebhookDb) :
    Decidable ((webhookSystem rt c genuine Prompt).ok label db db') :=
  Prompt.decidable label db db'

/-! ## Headers as a sender writes them -/

def SignatureVersion.tag : SignatureVersion → List Char
  | .timestamped => ['v', '2']
  | .legacy => ['s', 'h', 'a', '2', '5', '6']

/-- The characters of a candidate in a signature header. -/
def Candidate.chars (candidate : Candidate) : List Char :=
  candidate.version.tag ++ '=' :: candidate.hex.toList

def Candidate.isDigest (candidate : Candidate) : Bool :=
  isHex64 candidate.hex.toList && candidate.hex.toList.map Char.toLower = candidate.hex.toList

theorem toNat_of_isHexDigit {c : Char} (digit : isHexDigit c = true) :
    48 ≤ c.toNat ∧ c.toNat ≤ 57 ∨ 97 ≤ c.toNat ∧ c.toNat ≤ 102 ∨ 65 ≤ c.toNat ∧ c.toNat ≤ 70 := by
  simp only [isHexDigit, Bool.or_eq_true, Bool.and_eq_true, decide_eq_true_eq] at digit
  rcases digit with (⟨low, high⟩ | ⟨low, high⟩) | ⟨low, high⟩
  · exact .inl ⟨low, high⟩
  · exact .inr (.inl ⟨low, high⟩)
  · exact .inr (.inr ⟨low, high⟩)

theorem SignatureVersion.plain_tag (version : SignatureVersion) :
    ∀ c ∈ version.tag, c ≠ '=' ∧ c ≠ ',' ∧ isJsSpace c = false := by
  cases version <;> simp [SignatureVersion.tag, isJsSpace]

theorem Candidate.plain_hex {candidate : Candidate} (digest : candidate.isDigest = true) {c : Char}
    (mem : c ∈ candidate.hex.toList) : c ≠ '=' ∧ c ≠ ',' ∧ isJsSpace c = false := by
  have digits := (Bool.and_eq_true_iff.mp (Bool.and_eq_true_iff.mp digest).1).2
  have bounds := toNat_of_isHexDigit (List.all_eq_true.mp digits c mem)
  refine ⟨?_, ?_, ?_⟩
  · rintro rfl
    exact absurd bounds (by decide)
  · rintro rfl
    exact absurd bounds (by decide)
  · simp [isJsSpace]
    omega

/-- Neither the blanks that are trimmed nor the commas between candidates are in one. -/
theorem Candidate.plain_chars {candidate : Candidate} (digest : candidate.isDigest = true)
    {c : Char} (mem : c ∈ candidate.chars) : c ≠ ',' ∧ isJsSpace c = false := by
  rcases List.mem_append.mp mem with tag | rest
  · exact (candidate.version.plain_tag c tag).2
  · rcases List.mem_cons.mp rest with rfl | hex
    · decide
    · exact (plain_hex digest hex).2

theorem parseCandidate_chars {candidate : Candidate} (digest : candidate.isDigest = true) :
    parseCandidate candidate.chars = .ok candidate := by
  obtain ⟨digits, lower⟩ := Bool.and_eq_true_iff.mp digest
  have noSpace : ∀ c ∈ (String.ofList candidate.chars).toList, isJsSpace c = false := by
    rw [String.toList_ofList]
    exact fun c mem => (candidate.plain_chars digest mem).2
  have parts : splitChars '=' candidate.chars = [candidate.version.tag, candidate.hex.toList] := by
    rw [Candidate.chars, splitChars_append fun mem => (candidate.version.plain_tag _ mem).1 rfl,
      splitChars_of_notMem fun mem => (candidate.plain_hex digest mem).1 rfl]
  unfold parseCandidate
  rw [trim_of_no_space noSpace, String.toList_ofList, parts]
  simp only [digits, Bool.not_true, Bool.false_eq_true, if_false, of_decide_eq_true lower,
    String.ofList_toList]
  obtain ⟨version, hex⟩ := candidate
  cases version <;> rfl

theorem mapM_parseCandidate {candidates : List Candidate}
    (digests : ∀ candidate ∈ candidates, candidate.isDigest = true) :
    (candidates.map Candidate.chars).mapM parseCandidate = .ok candidates := by
  induction candidates with
  | nil => rfl
  | cons first rest ih =>
      obtain ⟨digest, others⟩ := List.forall_mem_cons.mp digests
      rw [List.map_cons, List.mapM_cons, parseCandidate_chars digest, ih others]
      rfl

theorem parseSignatureHeader_chars {s : String} {candidates : List Candidate}
    (filled : candidates ≠ []) (digests : ∀ candidate ∈ candidates, candidate.isDigest = true)
    (text : s.toList = [','].intercalate (candidates.map Candidate.chars))
    (short : jsLength s ≤ 1024) : parseSignatureHeader (some s) = .ok candidates := by
  have plain (part : List Char) (mem : part ∈ candidates.map Candidate.chars) (c : Char)
      (inside : c ∈ part) : c ≠ ',' ∧ isJsSpace c = false := by
    obtain ⟨candidate, among, rfl⟩ := List.mem_map.mp mem
    exact candidate.plain_chars (digests candidate among) inside
  have parts : splitChars ',' s.toList = candidates.map Candidate.chars := by
    rw [text]
    exact splitChars_intercalate (by simpa using filled) fun part mem inside =>
      (plain part mem _ inside).1 rfl
  have noSpace (c : Char) (mem : c ∈ s.toList) : isJsSpace c = false := by
    by_cases comma : c = ','
    · rw [comma]
      decide
    · obtain ⟨part, among, inside⟩ := mem_splitChars mem comma
      exact (plain part (parts ▸ among) c inside).2
  have sent : s.isEmpty = false := by
    rw [String.isEmpty_eq_false_iff]
    rintro rfl
    obtain ⟨first, rest, rfl⟩ := List.exists_cons_of_ne_nil filled
    have empty : [] = first.chars := (List.cons.inj parts).1
    exact absurd empty (by simp [Candidate.chars])
  unfold parseSignatureHeader
  simp only [trim_of_no_space noSpace, sent, Bool.false_eq_true, if_false, Nat.not_lt.mpr short,
    parts]
  exact mapM_parseCandidate digests

theorem length_digest {candidate : Candidate} (digest : candidate.isDigest = true) :
    candidate.hex.toList.length = 64 :=
  of_decide_eq_true (Bool.and_eq_true_iff.mp (Bool.and_eq_true_iff.mp digest).1).1

theorem jsLength_le (s : String) : jsLength s ≤ 2 * s.toList.length := by
  unfold jsLength utf16
  induction s.toList with
  | nil => exact le_rfl
  | cons c rest ih =>
      rw [List.flatMap_cons, List.length_append, List.length_cons]
      split
      all_goals simp only [List.length_cons, List.length_nil]
      all_goals omega

namespace CapturedDelivery

/-- `{"id":1}`. -/
def body : Bytes := [123, 34, 105, 100, 34, 58, 49, 125]

def timestamp : Nat := 1700000000

/-- The signatures of the delivery under the secret of the connector, with the timestamp and
without. -/
def stamped : String := "bfc699b767244ac16d526d40174a301e6e7f65bcb65c37207d3a5d2bbeda2c9e"

def plain : String := "4386f142eedddf8d1b0f1fa0dd0c37baa71b7c18fbeb9005495994d8034fd397"

def runtime : WebhookRuntime where
  hmacHex := fun _ text =>
    if text = signedPayload timestamp body then stamped else if text = body then plain else ""
  keyFor := fun connectorId signature => connectorId ++ ":" ++ signature
  parseJson := fun text =>
    if text = body then some (.obj [("id", .num (.finite 1))]) else none
  numberText := fun _ => "300"

def connector (version : SignatureVersion) : WebhookConnector where
  id := "c1"
  webhookToken := "hook_0123456789abcdef"
  webhookSignatureVersion := version
  webhookToleranceSeconds := some 300
  signingSecret := "whsec_5f2c8d1e9a7b4c30"
  toleranceSeconds := none
  requireTimestamp := false
  legacySignaturesEnabled := true
  defaultToleranceSeconds := 300
  maxBodyBytes := 1048576
  maxRecords := 1000

/-- The delivery, which carries both signatures. -/
def delivery : Delivery := { timestamp, body, plain := true }

def request (signature : String) (timestamp : Option String) : WebhookRequest where
  webhookToken := "hook_0123456789abcdef"
  rawBody := body
  contentType := some "application/json"
  signature := some signature
  timestamp := timestamp

/-- As the sender sends it. -/
def original : WebhookRequest := request ("v2=" ++ stamped ++ ",sha256=" ++ plain) (some "1700000000")

/-- With the body-only signature alone. -/
def downgraded : WebhookRequest := request ("sha256=" ++ plain) none

def store : WebhookDb where
  clock := 1700000005000
  entries := fun _ => none
  paused := false
  tenantActive := true
  quotaAdmits := true
  queueAccepts := true
  jobs := []

abbrev Conf := Config Nat WebhookLabel WebhookDb (WebhookRequest × WebhookResult)

def moves (version : SignatureVersion) (second : WebhookRequest) :
    List (Move Nat WebhookLabel WebhookDb (WebhookRequest × WebhookResult)) :=
  (.start 0 (handleWebhook runtime (connector version) original >>= fun r => pure (original, r)) ::
      List.replicate 6 (.act 0)) ++
    (.start 1 (handleWebhook runtime (connector version) second >>= fun r => pure (second, r)) ::
      List.replicate 6 (.act 1))

def after (version : SignatureVersion) (second : WebhookRequest) : Conf :=
  (moves version second).foldl Config.move (.idle store)

def acceptance (conf : Conf) (i : Nat) : Option (WebhookRequest × Accepted) :=
  match conf.pool i with
  | some (.done (request, .ok accepted)) => some (request, accepted)
  | _ => none

theorem pool_of_acceptance (conf : Conf) (i : Nat) (request : WebhookRequest) (accepted : Accepted)
    (found : acceptance conf i = some (request, accepted)) :
    conf.pool i = some (.done (request, .ok accepted)) := by
  unfold acceptance at found
  split at found
  · rename_i running
    obtain ⟨rfl, rfl⟩ := Prod.mk.inj (Option.some.inj found)
    exact running
  · exact nomatch found

theorem signed_iff (text : Bytes) :
    Signed {delivery} text ↔ text = signedPayload timestamp body ∨ text = body := by
  constructor
  · rintro ⟨d, rfl, stampedText | ⟨-, plainText⟩⟩
    · exact .inl stampedText
    · exact .inr plainText
  · rintro (stampedText | plainText)
    · exact ⟨delivery, rfl, .inl stampedText⟩
    · exact ⟨delivery, rfl, .inr ⟨rfl, plainText⟩⟩

theorem digests :
    ∀ candidate ∈ ([⟨.timestamped, stamped⟩, ⟨.legacy, plain⟩] : List Candidate),
      candidate.isDigest = true := by
  decide +kernel

theorem parse_original : parseSignatureHeader original.signature =
    .ok [⟨.timestamped, stamped⟩, ⟨.legacy, plain⟩] := by
  have text : ("v2=" ++ stamped ++ ",sha256=" ++ plain).toList =
      [','].intercalate
        (([⟨.timestamped, stamped⟩, ⟨.legacy, plain⟩] : List Candidate).map Candidate.chars) := by
    generalize stamped = a, plain = b
    simp [String.toList_append, Candidate.chars, SignatureVersion.tag, List.intercalate]
  refine parseSignatureHeader_chars (List.cons_ne_nil _ _) digests text ((jsLength_le _).trans ?_)
  have first := length_digest (digests ⟨.timestamped, stamped⟩ (List.mem_cons_self ..))
  have second := length_digest (digests ⟨.legacy, plain⟩ (by simp))
  rw [text]
  simp [List.intercalate, Candidate.chars, SignatureVersion.tag, first, second]

theorem parse_downgraded : parseSignatureHeader downgraded.signature = .ok [⟨.legacy, plain⟩] := by
  have text : ("sha256=" ++ plain).toList =
      [','].intercalate (([⟨.legacy, plain⟩] : List Candidate).map Candidate.chars) := by
    generalize plain = b
    simp [String.toList_append, Candidate.chars, SignatureVersion.tag, List.intercalate]
  refine parseSignatureHeader_chars (List.cons_ne_nil _ _)
    (fun candidate mem => digests candidate (List.mem_cons_of_mem _ mem)) text
    ((jsLength_le _).trans ?_)
  have length := length_digest (digests ⟨.legacy, plain⟩ (by simp))
  rw [text]
  simp [List.intercalate, Candidate.chars, SignatureVersion.tag, length]

theorem parse_timestamps :
    parseTimestampHeader original.timestamp true = .ok (some timestamp) ∧
      parseTimestampHeader downgraded.timestamp false = .ok none := by
  decide +kernel

theorem precheck_original (version : SignatureVersion) (now : Int) :
    precheckWebhookHeaders runtime (connector version) original now = do
      assertTimestampInWindow runtime timestamp (connector version).precheckTolerance now
      return { version := .timestamped, candidates := [stamped], timestamp := some timestamp } := by
  rw [precheckWebhookHeaders, parse_original, parse_timestamps.1]
  rfl

theorem precheck_downgraded (now : Int) :
    precheckWebhookHeaders runtime (connector .legacy) downgraded now =
      .ok { version := .legacy, candidates := [plain], timestamp := none } := by
  rw [precheckWebhookHeaders, parse_downgraded, parse_timestamps.2]
  rfl

theorem unforged (version : SignatureVersion) {request : WebhookRequest}
    (parsed : List Candidate) (header : parseSignatureHeader request.signature = .ok parsed)
    (digests : ∀ candidate ∈ parsed, candidate.isDigest = true) :
    Unforged runtime (connector version) {delivery} request := by
  intro parsed' header' candidate mem text _ same
  obtain rfl := Except.ok.inj (header.symm.trans header')
  rw [signed_iff]
  by_cases stampedText : text = signedPayload timestamp body
  · exact .inl stampedText
  · by_cases plainText : text = body
    · exact .inr plainText
    · simp only [runtime, if_neg stampedText, if_neg plainText] at same
      have length := length_digest (digests candidate mem)
      rw [← same] at length
      exact absurd length (by decide)

theorem distinct (version : SignatureVersion) :
    DistinctKeys runtime (connector version) {delivery} := by
  intro text text' signed signed' same
  have apart : runtime.keyFor "c1" (runtime.hmacHex "" (signedPayload timestamp body)) ≠
      runtime.keyFor "c1" (runtime.hmacHex "" body) := by decide
  rw [signed_iff] at signed signed'
  rcases signed with rfl | rfl <;> rcases signed' with rfl | rfl
  · rfl
  · exact absurd same apart
  · exact absurd same.symm apart
  · rfl

theorem unforged_original (version : SignatureVersion) :
    Unforged runtime (connector version) {delivery} original :=
  unforged version _ parse_original digests

theorem unforged_downgraded (version : SignatureVersion) :
    Unforged runtime (connector version) {delivery} downgraded :=
  unforged version _ parse_downgraded fun candidate mem =>
    digests candidate (List.mem_cons_of_mem _ mem)

theorem carries_original : original.carries delivery :=
  ⟨rfl, fun _ _ _ => parse_timestamps.1⟩

theorem carries_downgraded : downgraded.carries delivery := by
  refine ⟨rfl, fun parsed header v2 => ?_⟩
  obtain rfl := Except.ok.inj (parse_downgraded.symm.trans header)
  exact absurd rfl v2

theorem schemes_apart : SchemesApart runtime (connector .timestamped) {delivery} := by
  refine ⟨fun accepts => absurd accepts (by decide), fun t b signed _ => ?_⟩
  rw [signed_iff] at signed
  rcases signed with same | same
  · obtain ⟨rfl, rfl⟩ := signedPayload_injective same
    exact ⟨delivery, rfl, rfl, rfl⟩
  · have dot : (46 : UInt8) ∈ signedPayload t b := by simp [signedPayload]
    rw [same] at dot
    exact absurd dot (by decide)

end CapturedDelivery

open CapturedDelivery in
/-- A replay of the delivery is refused by a connector of version 2. -/
theorem delivery_accepted_once_replayed :
    (after .timestamped original).pool 0 = some (.done (original, .ok ⟨1, .timestamped⟩)) ∧
    ∀ j request accepted,
      (after .timestamped original).pool j = some (.done (request, .ok accepted)) →
        request.carries delivery → j = 0 := by
  have reach : (webhookSystem runtime (connector .timestamped) {delivery} Prompt).Reach store
      (after .timestamped original) := by
    refine Reach.moves .init (LegalRun.append
      ⟨⟨rfl, original, unforged_original _, rfl⟩, ?_⟩
      ⟨⟨?_, original, unforged_original _, rfl⟩, ?_⟩)
    all_goals
      simp only [handleWebhook, precheck_original]
      decide +kernel
  have first := pool_of_acceptance (after .timestamped original) 0 original ⟨1, .timestamped⟩ (by
    simp only [after, moves, handleWebhook, precheck_original]
    decide +kernel)
  refine ⟨first, fun j request accepted returned carries => ?_⟩
  exact ((delivery_accepted_once runtime (connector .timestamped) {delivery} (distinct _)
    schemes_apart store reach).2 delivery rfl 0 j _ _ _ _ first returned carries_original
    carries).symm

open CapturedDelivery in
/-- A connector that accepts body-only signatures accepts a delivery once more when the v2 part is
taken out of its header. -/
theorem downgraded_delivery_accepted :
    ¬ ∀ (rt : WebhookRuntime) (c : WebhookConnector) (genuine : Set Delivery),
        DistinctKeys rt c genuine →
      ∀ (s₀ : WebhookDb) (conf : Config Nat WebhookLabel WebhookDb (WebhookRequest × WebhookResult)),
        (webhookSystem rt c genuine fun _ _ _ => True).Reach s₀ conf →
      (∀ i request accepted, conf.pool i = some (.done (request, .ok accepted)) →
        ∃ d ∈ genuine, request.carries d) ∧
      ∀ d ∈ genuine, ∀ i j request request' accepted accepted',
        conf.pool i = some (.done (request, .ok accepted)) →
        conf.pool j = some (.done (request', .ok accepted')) →
        request.carries d → request'.carries d → i = j := by
  intro all
  have reach : (webhookSystem runtime (connector .legacy) {delivery} fun _ _ _ => True).Reach store
      (after .legacy downgraded) :=
    Reach.moves .init (LegalRun.append
      ⟨⟨rfl, original, unforged_original _, rfl⟩, .acts (fun _ _ _ => trivial) ..⟩
      ⟨⟨by simp only [handleWebhook, precheck_original]; decide +kernel, downgraded,
          unforged_downgraded _, rfl⟩,
        .acts (fun _ _ _ => trivial) ..⟩)
  have first := pool_of_acceptance (after .legacy downgraded) 0 original ⟨1, .timestamped⟩ (by
    simp only [after, moves, handleWebhook, precheck_original, precheck_downgraded]
    decide +kernel)
  have second := pool_of_acceptance (after .legacy downgraded) 1 downgraded ⟨1, .legacy⟩ (by
    simp only [after, moves, handleWebhook, precheck_original, precheck_downgraded]
    decide +kernel)
  have same := (all runtime (connector .legacy) {delivery} (distinct _) store _ reach).2 delivery
    rfl 0 1 _ _ _ _ first second carries_original carries_downgraded
  exact nomatch same

end AnalyticsBackend.Connectors
