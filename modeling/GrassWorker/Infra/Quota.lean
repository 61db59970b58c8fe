import GrassWorker.Entity

/-! The cache as the handlers use it: the build-slot counter of each team, the
marker that makes a deployment's slot be released once, and its cancel flag.
Keys do not expire. -/
namespace GrassWorker

inductive CacheKey
  | slot (team : Uuid)
  | slotReleased (deployment : Uuid)
  | cancelFlag (deployment : Uuid)
deriving DecidableEq, Repr

abbrev Cache := CacheKey → Option Int

namespace Cache
variable (cache : Cache)

def empty : Cache := fun _ => none

def set (key : CacheKey) (value : Option Int) : Cache := fun other => if other = key then value else cache other

@[simp] theorem set_same (key : CacheKey) (value : Option Int) : cache.set key value key = value := if_pos rfl

theorem set_other {key other : CacheKey} (value : Option Int) (different : other ≠ key) :
    cache.set key value other = cache other := if_neg different

def counter (team : Uuid) : Int := (cache (.slot team)).getD 0

def updateIfPresent (key : CacheKey) (value : Int) : Cache :=
  if (cache key).isSome then cache.set key (some value) else cache

/-- Whether `acquire_slot` grants a slot; a negative limit is no limit. -/
def mayAcquire (team : Uuid) (max : Int) : Bool := ¬(0 ≤ max ∧ max < cache.counter team + 1)

def acquireSlot (team : Uuid) : Cache := cache.set (.slot team) (some (cache.counter team + 1))

def releaseSlot (team : Uuid) : Cache := cache.set (.slot team) (some (max (cache.counter team - 1) 0))

/-- `set_if_absent` on the release marker succeeds. -/
def ownsRelease (deployment : Uuid) : Bool := (cache (.slotReleased deployment)).isNone

def markReleased (deployment : Uuid) : Cache := cache.set (.slotReleased deployment) (some 1)

section Counters
variable (team other : Uuid)

@[simp] theorem counter_acquireSlot :
    (cache.acquireSlot team).counter other = cache.counter other + if other = team then 1 else 0 := by
  by_cases same : other = team <;> simp [counter,acquireSlot,set,same]

@[simp] theorem counter_releaseSlot : (cache.releaseSlot team).counter other =
    if other = team then max (cache.counter other - 1) 0 else cache.counter other := by
  by_cases same : other = team <;> simp [counter,releaseSlot,set,same]

@[simp] theorem counter_markReleased (deployment : Uuid) :
    (cache.markReleased deployment).counter other = cache.counter other := by
  simp [counter,markReleased,set]

@[simp] theorem counter_set_cancelFlag (deployment : Uuid) (value : Option Int) :
    (cache.set (.cancelFlag deployment) value).counter other = cache.counter other := by
  simp [counter,set]

end Counters
end Cache

structure World where
  db : Database := {}
  cache : Cache := Cache.empty

end GrassWorker
