import AnalyticsBackend.Lib.Interleaving

/-!
# The idempotency middleware

`middleware/idempotency.middleware.js` for the requests of one scoped key, on any number of
instances over one cache. The cache holds two entries of the key, the stored outcome and the lock;
each instance has a map of the keys in flight in its process. Every call of the cache, and every
synchronous part between two awaits that the others can see, is an atomic step.

A request that waits for the one in flight looks again at any time: the schedules in which it
looks only after that one has finished are those of the source.
-/

namespace AnalyticsBackend.Idempotency
open Lib

/-- What the handler sends: the status, the headers that `pickHeaders` keeps and the body as
`serialiseBody` reads it (`none` when nothing was sent, or a Buffer). -/
structure Response where
  statusCode : Nat
  headers : List (String × String)
  body : Option String
  deriving DecidableEq, Repr

structure Outcome where
  statusCode : Nat
  headers : List (String × String)
  body : String
  deriving DecidableEq, Repr

def maxStoredBytes : Nat := 64 * 1024

/-- `captureOutcome`, for a response that was finished. -/
def Response.outcome (r : Response) : Option Outcome :=
  if 200 ≤ r.statusCode ∧ r.statusCode < 300 then
    (r.body.filter fun body => body.utf8ByteSize ≤ maxStoredBytes).map fun body =>
      { statusCode := r.statusCode, headers := r.headers, body }
  else none

/-- The entry of the outcome key. -/
structure StoredOutcome where
  statusCode : Nat
  headers : List (String × String)
  body : String
  encrypted : Bool
  fingerprint : String
  deriving DecidableEq, Repr

/-- `utils/encryption.js` under the context of the key: a body that was encrypted with any
initialisation vector decrypts to itself. -/
structure Cipher where
  encrypt : Nat → String → String
  decrypt : String → Option String
  decrypt_encrypt : ∀ iv body, decrypt (encrypt iv body) = some body

/-- What is stored of an outcome; empty bodies have nothing to protect. -/
def Outcome.sealed (cipher : Cipher) (iv : Nat) (fingerprint : String) (o : Outcome) :
    StoredOutcome where
  statusCode := o.statusCode
  headers := o.headers
  body := if o.body = "" then "" else cipher.encrypt iv o.body
  encrypted := o.body ≠ ""
  fingerprint

/-- The outcome that an entry stands for; one that cannot be decrypted is treated as absent. -/
def StoredOutcome.opened (cipher : Cipher) (s : StoredOutcome) : Option Outcome :=
  if s.encrypted then
    (cipher.decrypt s.body).map fun body =>
      { statusCode := s.statusCode, headers := s.headers, body }
  else some { statusCode := s.statusCode, headers := s.headers, body := s.body }

/-- The entry of the lock key: the counter, and when the cache drops it. -/
structure LockEntry where
  value : Nat
  expiresAt : Option Int
  deriving DecidableEq, Repr

/-- The cache entries of the key and the `inflight` maps of the instances. `run` is not stored
anywhere: it is the request that took the lock and has not removed it, with the end of the lock's
time to live, which the run of its handler stays below. -/
structure CacheDb where
  clock : Int
  outcome : Option StoredOutcome
  lock : Option LockEntry
  inflight : Nat → Option Nat
  run : Option (Nat × Int)

/-- Nothing is known of the key yet. -/
def CacheDb.fresh (clock : Int) : CacheDb where
  clock
  outcome := none
  lock := none
  inflight _ := none
  run := none

/-- The options of the middleware; `hasTtl` is whether the cache facade can be asked for a time to
live. -/
structure Options where
  lockTtlSec : Nat
  positive : 0 < lockTtlSec
  hasTtl : Bool

/-- The time to live of the lock in milliseconds. -/
def Options.lockTtl (opts : Options) : Int := 1000 * opts.lockTtlSec

/-- How a request of the key is answered without its handler. -/
inductive Answer where
  | replay (outcome : Outcome)
  | reused
  | inProgress
  deriving DecidableEq, Repr

/-- The atomic steps; `token` is the promise of the request in the map of its instance. -/
inductive IdemLabel where
  | claim (inst token : Nat)
  | settle (inst token : Nat)
  | get
  | increment (token : Nat) (lockTtl : Int)
  | ttl
  | bound (lockTtl : Int)
  | start
  | finish (response : Response)
  | close
  | endUnsent (response : Response)
  | store (entry : StoredOutcome)
  | del (token : Nat)
  | answer (answer : Answer)
  deriving DecidableEq, Repr

/-- The counter that `increment` finds. -/
def CacheDb.holders (db : CacheDb) : Nat := (db.lock.map LockEntry.value).getD 0

/-- What a step does to the store. -/
def IdemLabel.act : IdemLabel → CacheDb → CacheDb
  | .claim inst token => fun db =>
      if (db.inflight inst).isSome then db
      else { db with inflight := Function.update db.inflight inst (some token) }
  | .settle inst token => fun db =>
      if db.inflight inst = some token then
        { db with inflight := Function.update db.inflight inst none }
      else db
  | .increment token lockTtl => fun db =>
      { db with
        lock := some { value := db.holders + 1, expiresAt := db.lock.bind LockEntry.expiresAt }
        run := if db.holders = 0 then some (token, db.clock + lockTtl) else db.run }
  | .bound lockTtl => fun db =>
      { db with lock := some { value := 1, expiresAt := some (db.clock + lockTtl) } }
  | .store entry => fun db => { db with outcome := some entry }
  | .del token => fun db =>
      { db with
        lock := none
        run := if db.run.any (fun r => r.1 = token) then none else db.run }
  | .get | .ttl | .start | .finish _ | .close | .endUnsent _ | .answer _ => id

abbrev IdemProg := Prog IdemLabel CacheDb

/-- A step, and what it reports of the store it found. -/
def step {A : Type} (label : IdemLabel) (report : CacheDb → A) : IdemProg A :=
  Prog.update label label.act report

/-- How the handler run of a request ends: its response is sent, or the connection closes first
and the handler ends after that many of the two steps that `finish` then takes. -/
inductive Ending where
  | sent
  | closed (cleaned : Nat)
  deriving DecidableEq, Repr

/-- A request of the key, with what its handler will do. -/
structure Request where
  inst : Nat
  token : Nat
  fingerprint : String
  iv : Nat
  response : Response
  ending : Ending
  deriving DecidableEq, Repr

section Middleware

variable (opts : Options) (cipher : Cipher) (req : Request)

/-- `finish` of the in-process map. -/
def settle : IdemProg Unit := step (.settle req.inst req.token) fun _ => ()

/-- Load and decrypt a stored outcome, with its fingerprint. -/
def readOutcome : IdemProg (Option (Outcome × String)) :=
  step .get fun db =>
    db.outcome.bind fun s => (s.opened cipher).map fun o => (o, s.fingerprint)

/-- Replay a stored outcome, unless the key is being reused for another payload. -/
def replayOrRefuse (stored : Outcome × String) : IdemProg Unit :=
  if stored.2 ≠ "" ∧ stored.2 ≠ req.fingerprint then step (.answer .reused) fun _ => ()
  else step (.answer (.replay stored.1)) fun _ => ()

/-- Give a lock that has no expiry its time to live. -/
def boundOrphanedLock : IdemProg Unit :=
  if opts.hasTtl then do
    let unbounded ← step .ttl fun db => db.lock.any fun lock => lock.expiresAt.isNone
    if unbounded then step (.bound opts.lockTtl) fun _ => ()
    else pure ()
  else pure ()

def storeOutcome (outcome : Option Outcome) : IdemProg Unit :=
  match outcome with
  | some o => step (.store (o.sealed cipher req.iv req.fingerprint)) fun _ => ()
  | none => pure ()

def removeLock : IdemProg Unit := step (.del req.token) fun _ => ()

/-- The handler, and the callback of `captureOutcome`: on `finish` with what was sent, on an
earlier `close` with nothing. -/
def runHandler : IdemProg Unit := do
  step .start fun _ => ()
  match req.ending with
  | .sent =>
      step (.finish req.response) fun _ => ()
      storeOutcome cipher req req.response.outcome
      removeLock req
      settle req
  | .closed 0 =>
      step .close fun _ => ()
      step (.endUnsent req.response) fun _ => ()
      removeLock req
      settle req
  | .closed 1 =>
      step .close fun _ => ()
      removeLock req
      step (.endUnsent req.response) fun _ => ()
      settle req
  | .closed _ =>
      step .close fun _ => ()
      removeLock req
      settle req
      step (.endUnsent req.response) fun _ => ()

/-- A request that found the counter above one. -/
def refuseContended : IdemProg Unit := do
  match ← readOutcome cipher with
  | some stored =>
      settle req
      replayOrRefuse req stored
  | none =>
      boundOrphanedLock opts
      settle req
      step (.answer .inProgress) fun _ => ()

/-- `handle`, once the key is claimed in this process. -/
def attempt : IdemProg Unit := do
  match ← readOutcome cipher with
  | some stored =>
      settle req
      replayOrRefuse req stored
  | none =>
      let holders ← step (.increment req.token opts.lockTtl) fun db => db.holders + 1
      if 1 < holders then refuseContended opts cipher req
      else
        step (.bound opts.lockTtl) fun _ => ()
        runHandler cipher req

/-- `handle`; `looks` bounds how often the request looks for the one in flight. -/
def handle : Nat → IdemProg Unit
  | 0 => pure ()
  | looks + 1 => do
      let claimed ← step (.claim req.inst req.token) fun db => (db.inflight req.inst).isNone
      if claimed then attempt opts cipher req else handle looks

end Middleware

/-- Any number of requests with the same key and payload. From outside the clock moves on, though
not past the end of the lock's time to live while a run that took the lock lasts, and the cache
drops the lock once it has expired. -/
def idempotencySystem (opts : Options) (cipher : Cipher) (fingerprint : String)
    (ok : IdemLabel → CacheDb → CacheDb → Prop) : System Nat IdemLabel CacheDb Unit where
  start i p := ∃ req looks, req.token = i ∧ req.fingerprint = fingerprint ∧
    p = handle opts cipher req looks
  env db db' := db.clock ≤ db'.clock ∧ (∀ r, db.run = some r → db'.clock < r.2) ∧
    db'.outcome = db.outcome ∧ db'.inflight = db.inflight ∧ db'.run = db.run ∧
    (db'.lock = db.lock ∨ db'.lock = none ∧
      ∃ lock t, db.lock = some lock ∧ lock.expiresAt = some t ∧ t ≤ db'.clock)
  ok

abbrev IdemEvent := Event Nat IdemLabel CacheDb
abbrev IdemWorld := World Nat IdemLabel CacheDb

end AnalyticsBackend.Idempotency
