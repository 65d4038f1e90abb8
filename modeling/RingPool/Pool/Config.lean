import RingPool.Ring.Capacity

/-!
# The sizing of a pool

A `PoolConfig` says how many workers a pool has, how large their caches and the
shared ring are, and in which batches objects move.  `PoolConfig.check` accepts
a sizing or names its first fault.
-/

set_option autoImplicit false

namespace RingPool

/-- How many objects move between a worker's cache and the shared ring at once,
unless the sizing says otherwise. -/
def defaultBulkSize : UInt32 := 16

/-- How many bulks are asked of the source when the shared ring is empty,
unless the sizing says otherwise. -/
def defaultRefillMultiplier : UInt32 := 2

structure PoolConfig where
  workers : UInt64
  localCapacity : UInt32
  sharedCapacity : UInt32
  prealloc : UInt32
  bulkSize : UInt32
  refillMultiplier : UInt32
  deriving DecidableEq, Repr

def PoolConfig.standard (workers : UInt64) : PoolConfig :=
  ⟨workers, 64, 1024, 0, defaultBulkSize, defaultRefillMultiplier⟩

inductive ConfigError where
  | noWorkers
  | zeroBulkSize
  | zeroRefillMultiplier
  | localRing (refusal : RingError)
  | sharedRing (refusal : RingError)
  | localTooSmall (localCapacity bulkSize : UInt32)
  | sharedTooSmall (sharedCapacity required : UInt32)
  | preallocTooLarge (prealloc sharedCapacity : UInt32)
  deriving DecidableEq, Repr

namespace ConfigError

def message : ConfigError → String
  | .noWorkers => "pool needs at least one worker"
  | .zeroBulkSize => "bulk size must be at least 1"
  | .zeroRefillMultiplier => "refill multiplier must be at least 1"
  | .localRing refusal => "local cache: " ++ refusal.message
  | .sharedRing refusal => "shared pool: " ++ refusal.message
  | .localTooSmall localCapacity bulkSize =>
      s!"local capacity {localCapacity} is smaller than the bulk size {bulkSize}"
  | .sharedTooSmall sharedCapacity required =>
      s!"shared capacity {sharedCapacity} cannot hold a refill burst of {required}"
  | .preallocTooLarge prealloc sharedCapacity =>
      s!"prealloc {prealloc} exceeds the shared capacity {sharedCapacity}"

def causes : ConfigError → List String
  | .localRing refusal => [refusal.message]
  | .sharedRing refusal => [refusal.message]
  | _ => []

end ConfigError

namespace PoolConfig

/-- The number of objects that an empty shared ring is refilled with, as far as
a word can say it. -/
def refillBurst (config : PoolConfig) : UInt32 :=
  UInt32.ofNat (min (config.bulkSize.toNat * config.refillMultiplier.toNat) (UInt32.size - 1))

/-- The capacities of the worker caches and of the shared ring of a sizing that
has no fault; otherwise its first fault. -/
def check (config : PoolConfig) : Except ConfigError (Capacity × Capacity) :=
  if config.workers = 0 then .error .noWorkers
  else if config.bulkSize = 0 then .error .zeroBulkSize
  else if config.refillMultiplier = 0 then .error .zeroRefillMultiplier
  else
    match checkCapacity config.localCapacity, checkCapacity config.sharedCapacity with
    | .error refusal, _ => .error (.localRing refusal)
    | .ok _, .error refusal => .error (.sharedRing refusal)
    | .ok localCapacity, .ok sharedCapacity =>
        if config.localCapacity < config.bulkSize then
          .error (.localTooSmall config.localCapacity config.bulkSize)
        else if config.sharedCapacity < config.refillBurst then
          .error (.sharedTooSmall config.sharedCapacity config.refillBurst)
        else if config.sharedCapacity < config.prealloc then
          .error (.preallocTooLarge config.prealloc config.sharedCapacity)
        else .ok (localCapacity, sharedCapacity)

def describe (config : PoolConfig) : String :=
  let workers := config.workers
  let localCapacity := config.localCapacity
  let sharedCapacity := config.sharedCapacity
  let prealloc := config.prealloc
  let bulkSize := config.bulkSize
  let refillMultiplier := config.refillMultiplier
  s!"PoolConfig \x7b workers: {workers}, local_capacity: {localCapacity}, " ++
    s!"shared_capacity: {sharedCapacity}, prealloc: {prealloc}, bulk_size: {bulkSize}, " ++
    s!"refill_multiplier: {refillMultiplier} \x7d"

end PoolConfig

end RingPool
