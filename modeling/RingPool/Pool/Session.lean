import RingPool.Pool.Basic

/-!
# Sessions on a pool

A session is a list of steps on one pool, run one after the other.  It holds
the objects that it has taken out, in the order in which it took them; steps
return objects from either end of that list.  With every answer go the fill
of the pool and, over a scripted source, an account of what the source was
asked in the step.  A worker that panics breaks the session off.
-/

set_option autoImplicit false

namespace RingPool

inductive SessionSource where
  | blank (source : BlankSource)
  | scripted (source : ScriptedSource)

namespace SessionSource

def alloc : SessionSource → Option UInt64 × SessionSource
  | .blank source =>
      let (object, source) := ObjectSource.alloc source
      (object, .blank source)
  | .scripted source =>
      let (object, source) := ObjectSource.alloc source
      (object, .scripted source)

def free : SessionSource → UInt64 → SessionSource
  | .blank source, object => .blank (ObjectSource.free source object)
  | .scripted source, object => .scripted (ObjectSource.free source object)

instance : ObjectSource SessionSource UInt64 := ⟨alloc, free⟩

end SessionSource

/-- What a scripted source was asked since the last report, and how many of its
objects are outstanding. -/
structure SourceReport where
  account : SourceAccount
  outstanding : Int

/-- Reports on the source and starts a new account; a blank source keeps none. -/
def SessionSource.report : SessionSource → Option SourceReport × SessionSource
  | .blank source => (none, .blank source)
  | .scripted source =>
      (some ⟨source.account, source.outstanding⟩, .scripted { source with account := .empty })

inductive WorkerCommand where
  | alloc (times : Nat)
  | free (count : Nat) (newest : Bool)
  /-- Returns objects that the session never took out. -/
  | freeNew (objects : List UInt64)
  | flush
  | describe
  | malformed (field : String)

inductive PoolStep where
  /-- Takes objects directly from the source. -/
  | sourceAlloc (times : Nat)
  | setLimit (limit : Option Nat)
  | info
  | claim (id : UInt64)
  | release (id : UInt64)
  | query (id : UInt64)
  | command (id : UInt64) (command : WorkerCommand)
  | malformed (field : String)

inductive PoolReply where
  | done
  | objects (objects : List UInt64)
  | allocated (objects : List UInt64) (failures : Nat)
  | info (workers : Nat) (refillBurst : UInt32) (description : String)
  | claimed (id : UInt64)
  | refused (refusal : PoolError)
  | released (wasClaimed : Bool)
  | query (stats : Option WorkerStats)
  | notClaimed
  | described (description : String)
  | malformed (field : String)

structure WorkerPanic where
  id : UInt64
  panic : Panic
  deriving DecidableEq, Repr

def WorkerPanic.message (panic : WorkerPanic) : String :=
  let worker := panic.id
  match panic.panic with
  | .cacheStillFull => s!"worker {worker} cache still full after spilling a bulk"
  | .cacheOverflow => s!"worker {worker} cache has no room for the rest of a bulk"
  | .miscount => s!"worker {worker} miscounted a burst"
  | .endless => s!"worker {worker} does not come to an end"

structure WorkerGauge where
  stats : WorkerStats
  count : UInt32

structure PoolAnswer where
  reply : PoolReply
  worker : Option WorkerGauge
  shared : UInt32
  caches : List UInt32
  report : Option SourceReport

structure PoolSession where
  pool : Pool SessionSource UInt64
  held : Array UInt64

namespace PoolSession

def withPool (session : PoolSession) (pool : Pool SessionSource UInt64) : PoolSession :=
  { session with pool }

def hold (session : PoolSession) (objects : List UInt64) : PoolSession :=
  { session with held := session.held ++ objects }

/-- Takes objects that are held, the oldest or the newest first; the second
component lists them in the order in which they are taken. -/
def takeHeld (session : PoolSession) (count : Nat) (newest : Bool) :
    PoolSession × List UInt64 :=
  if newest then
    ({ session with held := session.held.extract 0 (session.held.size - count) },
      session.held.toList.reverse.take count)
  else
    ({ session with held := session.held.extract count session.held.size },
      session.held.toList.take count)

/-- Takes objects from the source, as often as asked, whether or not it fails on
the way. -/
def sourceAlloc (source : SessionSource) : Nat → Array UInt64 → SessionSource × Array UInt64
  | 0, obtained => (source, obtained)
  | times + 1, obtained =>
      match source.alloc with
      | (some object, source) => sourceAlloc source times (obtained.push object)
      | (none, source) => sourceAlloc source times obtained

def allocate (pool : Pool SessionSource UInt64) (id : UInt64) :
    Nat → Array UInt64 → Nat → Except Panic (Pool SessionSource UInt64 × List UInt64 × Nat)
  | 0, obtained, failures => .ok (pool, obtained.toList, failures)
  | times + 1, obtained, failures =>
      match pool.alloc id with
      | (_, .panicked panic) => .error panic
      | (pool, .served (some object)) =>
          allocate pool id times (obtained.push object) failures
      | (pool, _) => allocate pool id times obtained (failures + 1)

def giveBack (pool : Pool SessionSource UInt64) (id : UInt64) :
    List UInt64 → Except Panic (Pool SessionSource UInt64)
  | [] => .ok pool
  | object :: rest =>
      match pool.free id object with
      | (_, .panicked panic) => .error panic
      | (pool, _) => giveBack pool id rest

def command (session : PoolSession) (id : UInt64) :
    WorkerCommand → Except Panic (PoolSession × PoolReply)
  | .alloc times => do
      let (pool, objects, failures) ← allocate session.pool id times #[] 0
      pure ((session.withPool pool).hold objects, .allocated objects failures)
  | .free count newest => do
      let (session, objects) := session.takeHeld count newest
      let pool ← giveBack session.pool id objects
      pure (session.withPool pool, .objects objects)
  | .freeNew objects => do
      let pool ← giveBack session.pool id objects
      pure (session.withPool pool, .done)
  | .flush =>
      match session.pool.flush id with
      | (_, .panicked panic) => .error panic
      | (pool, _) => .ok (session.withPool pool, .done)
  | .describe => .ok (session, .described (session.pool.describeWorker id))
  | .malformed field => .ok (session, .malformed field)

def run (session : PoolSession) : PoolStep → Except WorkerPanic (PoolSession × PoolReply)
  | .sourceAlloc times =>
      let (source, objects) := sourceAlloc session.pool.source times #[]
      let objects := objects.toList
      .ok ((session.withPool { session.pool with source }).hold objects, .objects objects)
  | .setLimit limit =>
      match session.pool.source with
      | .blank _ => .ok (session, .malformed "do")
      | .scripted source =>
          let source := SessionSource.scripted { source with limit }
          .ok (session.withPool { session.pool with source }, .done)
  | .info =>
      .ok (session, .info session.pool.slots.size session.pool.config.refillBurst
        session.pool.describe)
  | .claim id =>
      match session.pool.claim id with
      | .ok pool => .ok (session.withPool pool, .claimed id)
      | .error refusal => .ok (session, .refused refusal)
  | .release id =>
      .ok (session.withPool (session.pool.release id), .released (session.pool.isClaimed id))
  | .query id => .ok (session, .query (session.pool.stats? id))
  | .command id command =>
      if session.pool.isClaimed id then
        (session.command id command).mapError fun panic => ⟨id, panic⟩
      else .ok (session, .notClaimed)
  | .malformed field => .ok (session, .malformed field)

/-- The worker that a step was a command to, as far as the command was carried
out. -/
def workerGauge (session : PoolSession) (step : PoolStep) (reply : PoolReply) :
    Option WorkerGauge :=
  match step, reply with
  | .command _ _, .notClaimed => none
  | .command _ _, .malformed _ => none
  | .command id _, _ => do
      let stats ← session.pool.stats? id
      let count ← session.pool.localCount? id
      pure ⟨stats, count⟩
  | _, _ => none

def report (session : PoolSession) : PoolSession × Option SourceReport :=
  let (report, source) := session.pool.source.report
  (session.withPool { session.pool with source }, report)

def answer (session : PoolSession) (step : PoolStep) :
    Except WorkerPanic (PoolSession × PoolAnswer) := do
  let (session, reply) ← session.run step
  let (session, report) := session.report
  pure (session, ⟨reply, session.workerGauge step reply, session.pool.sharedCount,
    session.pool.slots.toList.map (fun slot => slot.cache.count), report⟩)

def answerAll (session : PoolSession) :
    List PoolStep → Except WorkerPanic (PoolSession × List PoolAnswer)
  | [] => .ok (session, [])
  | step :: steps => do
      let (session, answer) ← session.answer step
      let (session, answers) ← session.answerAll steps
      pure (session, answer :: answers)

/-- Builds a pool for a session.  The error of a pool that is not built comes
with an account of its source. -/
def create (config : PoolConfig) (source : SessionSource) :
    Except (PoolError × Option SourceReport) PoolSession :=
  match Pool.create config source with
  | .error (refusal, source) => .error (refusal, source.report.1)
  | .ok pool => .ok ⟨pool, #[]⟩

end PoolSession

/-- A session that has ended: the fill and the account of the new pool, the
answers, and of the end the number of objects still held, the number that went
back to the source, and a last account. -/
structure PoolTranscript where
  shared : UInt32
  opening : Option SourceReport
  answers : List PoolAnswer
  held : Nat
  released : Nat
  closing : Option SourceReport

def PoolSession.transcript (session : PoolSession) (steps : List PoolStep) :
    Except WorkerPanic PoolTranscript := do
  let (session, opening) := session.report
  let shared := session.pool.sharedCount
  let (session, answers) ← session.answerAll steps
  let (source, released) := session.pool.destroy
  pure ⟨shared, opening, answers, session.held.size, released, source.report.1⟩

end RingPool
