import AnalyticsBackend.Lib.Interleaving

/-!
# The lease lock of the scheduled jobs

`repositories/jobLock.repository.js` under `jobs/lock.js`: one document per lock name, three
conditional writes, each compared against the time its caller captured before it was sent.
`acquire` is a conditional upsert, so it is two atomic steps: the update of a lapsed document,
and an insert that the unique `_id` refuses when there is one.
-/

namespace AnalyticsBackend.Jobs
open Lib System

def dayMs : Int := 24 * 60 * 60 * 1000

/-- A lock document (`models/JobLock.js`). -/
structure JobLock where
  owner : Option String
  token : Option String
  lockedUntil : Int
  acquiredAt : Int
  expiresAt : Int
  updatedAt : Int
  deriving DecidableEq, Repr

/-- The clock all instances share and the document of one lock. -/
structure LockDb where
  clock : Int
  lock : Option JobLock
  deriving DecidableEq, Repr

/-- The conditional writes, with the times their callers captured. -/
inductive LockWrite where
  | take (owner : Option String) (token : String) (leaseMs now updatedAt : Int)
  | insert (owner : Option String) (token : String) (leaseMs now updatedAt : Int)
  | renew (token : String) (leaseMs now updatedAt : Int)
  | release (token : String) (holdUntil : Option Int) (now updatedAt : Int)
  deriving DecidableEq, Repr

/-- The `now` a write compares against. -/
def LockWrite.now : LockWrite → Int
  | .take _ _ _ now _ => now
  | .insert _ _ _ now _ => now
  | .renew _ _ now _ => now
  | .release _ _ now _ => now

/-- The token a write is made with. -/
def LockWrite.token : LockWrite → String
  | .take _ token _ _ _ => token
  | .insert _ token _ _ _ => token
  | .renew token _ _ _ => token
  | .release token _ _ _ => token

def LockWrite.hits : LockWrite → Option JobLock → Bool
  | .take _ _ _ now _, some doc => doc.lockedUntil ≤ now
  | .insert _ _ _ _ _, none => true
  | .renew token _ now _, some doc => doc.token = some token && now < doc.lockedUntil
  | .release token _ _ _, some doc => doc.token = some token
  | _, _ => false

/-- `holdUntil && holdUntil > now ? holdUntil : now`. -/
def releasedUntil (holdUntil : Option Int) (now : Int) : Int :=
  match holdUntil with
  | some hold => if now < hold then hold else now
  | none => now

/-- `holdUntil && holdUntil > now ? token : null`. -/
def keptToken (holdUntil : Option Int) (now : Int) (token : String) : Option String :=
  match holdUntil with
  | some hold => if now < hold then some token else none
  | none => none

/-- The document `acquire` writes. -/
def leased (owner : Option String) (token : String) (leaseMs now updatedAt : Int) : JobLock where
  owner
  token := some token
  lockedUntil := now + leaseMs
  acquiredAt := now
  expiresAt := now + leaseMs + dayMs
  updatedAt

/-- The document after a write whose filter matched. -/
def LockWrite.set : LockWrite → Option JobLock → Option JobLock
  | .take owner token leaseMs now updatedAt, _ => some (leased owner token leaseMs now updatedAt)
  | .insert owner token leaseMs now updatedAt, _ => some (leased owner token leaseMs now updatedAt)
  | .renew _ leaseMs now updatedAt, lock => lock.map fun doc =>
      { doc with lockedUntil := now + leaseMs, expiresAt := now + leaseMs + dayMs, updatedAt }
  | .release token holdUntil now updatedAt, lock => lock.map fun doc =>
      { doc with
        lockedUntil := releasedUntil holdUntil now, token := keptToken holdUntil now token
        updatedAt }

/-- A conditional write of the document. -/
def LockWrite.apply (write : LockWrite) (db : LockDb) : LockDb :=
  if write.hits db.lock then { db with lock := write.set db.lock } else db

/-- `modifiedCount === 1`: the filter matched and something changed. -/
def LockWrite.modified (write : LockWrite) (db : LockDb) : Bool :=
  write.hits db.lock && (write.apply db).lock != db.lock

/-- The atomic steps: a reading of the clock, or a write. -/
inductive LockLabel where
  | clock
  | write (write : LockWrite)
  deriving DecidableEq, Repr

/-- What a step does to the store. -/
def LockLabel.act : LockLabel → LockDb → LockDb
  | .clock => id
  | .write w => w.apply

abbrev LockProg := Prog LockLabel LockDb

def readClock : LockProg Int := Prog.read .clock LockDb.clock

/-- Try to take the lock. -/
def acquire (owner : Option String) (token : String) (leaseMs : Int) : LockProg Bool := do
  let now ← readClock
  let updatedAt ← readClock
  let take := LockWrite.take owner token leaseMs now updatedAt
  let insert := LockWrite.insert owner token leaseMs now updatedAt
  let taken ← Prog.update (.write take) take.apply (fun db => take.hits db.lock)
  if taken then return true
  -- A document that is still held makes the insert collide on `_id` (code 11000).
  Prog.update (.write insert) insert.apply (fun db => insert.hits db.lock)

/-- Extend the lease when `token` still owns the lock. -/
def renew (token : String) (leaseMs : Int) : LockProg Bool := do
  let now ← readClock
  let updatedAt ← readClock
  let write := LockWrite.renew token leaseMs now updatedAt
  Prog.update (.write write) write.apply write.modified

/-- Release the lock owned by `token`, or keep it taken until `holdUntil`. -/
def release (token : String) (holdUntil : Option Int) : LockProg Bool := do
  let now ← readClock
  let updatedAt ← readClock
  let write := LockWrite.release token holdUntil now updatedAt
  Prog.update (.write write) write.apply write.modified

def tickFenceMs : Int := 30 * 1000

/-- The `holdUntil` of a scheduled run (`jobs/scheduler.js`, `execute`). -/
def tickFence (tickAt : Option Int) (leaseMs : Int) : Option Int :=
  tickAt.map fun tick => tick + min tickFenceMs leaseMs

/-- Any number of calls on one lock. From outside the clock moves on, and the TTL index may
remove a document past its `expiresAt`. -/
def lockSystem : System Nat LockLabel LockDb Bool where
  start _ p :=
    (∃ owner token leaseMs, p = acquire owner token leaseMs) ∨
      (∃ token leaseMs, p = renew token leaseMs) ∨
      ∃ token holdUntil, p = release token holdUntil
  env db db' := db.clock ≤ db'.clock ∧
    (db'.lock = db.lock ∨
      db'.lock = none ∧ ∃ doc, db.lock = some doc ∧ doc.expiresAt ≤ db'.clock)
  ok _ _ _ := True

abbrev LockWorld := World Nat LockLabel LockDb
abbrev LockEvent := Event Nat LockLabel LockDb

end AnalyticsBackend.Jobs
