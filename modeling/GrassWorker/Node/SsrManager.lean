import GrassWorker.Entity
import GrassWorker.Foundations.Mutexes
import Mathlib.Data.List.AList

/-! The SSR services of a node. A service is started under the start lock of its
deployment, which the first request creates and a reconciliation of routes forgets.
Every acquisition of a mutex is a step of its own. -/
namespace GrassWorker.Ssr
open Interleaving Runs

abbrev LockId := Nat

abbrev Clone := Uuid × LockId

structure SsrManager where
  /-- The upstream of each running service. -/
  services : AList fun _ : Uuid => String := ∅
  startLocks : AList fun _ : Uuid => LockId := ∅
  locked : Multiset LockId := 0
  created : Nat := 0

inductive Request
  | upstreamFor (deployment : Uuid)
  | invalidate (deployment : Uuid)
  | reconcileRoutes (routedHere : List Uuid)
deriving DecidableEq

inductive Task
  | arrived (request : Request)
  | finding (deployment : Uuid)
  | waiting (deployment : Uuid) (lock : LockId)
  | checking (deployment : Uuid) (lock : LockId)
  | starting (deployment : Uuid) (lock : LockId)
  | registering (deployment : Uuid) (lock : LockId) (upstream : String)
  | guarding (routedHere : List Uuid) (taken remaining : List Clone)
  | evicting (routedHere : List Uuid) (clones : List Clone)
  | stopping (clones : List Clone)
  | forgetting (clones : List Clone)
  | dropping (clones : List Clone)
deriving DecidableEq

structure Input where
  /-- The future is dropped, its guards with it. -/
  dropped : Bool := false
  /-- The order in which a map is gone through. -/
  order : List Clone := []
  /-- The upstream of a container that was started and is ready. -/
  started : Option String := none
  stopFails : Bool := false
deriving DecidableEq

def Task.held : Task → List Clone
  | .checking deployment lock | .starting deployment lock | .registering deployment lock _ => [(deployment,lock)]
  | .guarding _ taken _ => taken
  | .evicting _ clones | .stopping clones | .forgetting clones | .dropping clones => clones
  | .arrived _ | .finding _ | .waiting .. => []

def Task.guards (task : Task) : Multiset LockId := task.held.map Prod.snd

def release (manager : SsrManager) (task : Task) : SsrManager :=
  { manager with locked := manager.locked - task.guards }

section Actions
variable (input : Input) (manager : SsrManager)

/-- The clones a reconciliation takes of the locks of deployments that are not routed here. -/
def staleStartLocks (routedHere : List Uuid) : List Clone :=
  let stale := (manager.startLocks.entries.filter fun entry => entry.1 ∉ routedHere).map fun entry => (entry.1,entry.2)
  if input.order.Perm stale then input.order else stale

def arrive (runtime : Bool) : Request → SsrManager × Option Task
  | .upstreamFor deployment =>
    (manager,if (manager.services.lookup deployment).isSome then none else some (.finding deployment))
  | .invalidate deployment => ({ manager with services := manager.services.erase deployment },none)
  | .reconcileRoutes routedHere =>
    (manager,if runtime then some (.guarding routedHere [] (staleStartLocks input manager routedHere)) else none)

/-- `or_insert_with`: the lock of the deployment, a new one if there is none. -/
def startLock (deployment : Uuid) : SsrManager × Option Task :=
  match manager.startLocks.lookup deployment with
  | some lock => (manager,some (.waiting deployment lock))
  | none =>
    ({ manager with startLocks := manager.startLocks.insert deployment manager.created, created := manager.created + 1 },
      some (.waiting deployment manager.created))

def acquire (lock : LockId) (waiting next : Task) : SsrManager × Option Task :=
  if lock ∈ manager.locked then (manager,some waiting)
  else ({ manager with locked := lock ::ₘ manager.locked },some next)

def evict (routedHere : List Uuid) : SsrManager :=
  let ids := manager.services.keys.filter fun deployment => deployment ∉ routedHere
  { manager with services := ids.foldl (fun services deployment => services.erase deployment) manager.services }

def forget (startLocks : AList fun _ : Uuid => LockId) (clone : Clone) : AList fun _ : Uuid => LockId :=
  if startLocks.lookup clone.1 = some clone.2 then startLocks.erase clone.1 else startLocks

def proceed (runtime : Bool) (task : Task) : SsrManager × Option Task :=
  match task with
  | .arrived request => arrive input manager runtime request
  | .finding deployment => startLock manager deployment
  | .waiting deployment lock => acquire manager lock task (.checking deployment lock)
  | .checking deployment lock =>
    if (manager.services.lookup deployment).isSome then (release manager task,none)
    else (manager,some (.starting deployment lock))
  | .starting deployment lock =>
    match if runtime then input.started else none with
    | some upstream => (manager,some (.registering deployment lock upstream))
    | none => (release manager task,none)
  | .registering deployment _ upstream =>
    ({ release manager task with services := manager.services.insert deployment upstream },none)
  | .guarding routedHere taken [] => (manager,some (.evicting routedHere taken))
  | .guarding routedHere taken (clone :: remaining) =>
    acquire manager clone.2 task (.guarding routedHere (taken ++ [clone]) remaining)
  | .evicting routedHere clones => (evict manager routedHere,some (.stopping clones))
  | .stopping clones => if input.stopFails then (release manager task,none) else (manager,some (.forgetting clones))
  | .forgetting clones =>
    ({ manager with startLocks := clones.foldl forget manager.startLocks },some (.dropping clones))
  | .dropping _ => (release manager task,none)

def advance (runtime : Bool) (task : Task) : SsrManager × Option Task :=
  if input.dropped then (release manager task,none) else proceed input manager runtime task

end Actions

/-- `runtime` is whether the node has a container runtime. -/
def machine (runtime : Bool) : Machine SsrManager Task Request Input :=
  ⟨Task.arrived,fun input manager task => advance input manager runtime task⟩

/-! What an action does to the locks. -/

section Locks
variable (input : Input) (manager : SsrManager) (runtime : Bool) (task : Task)

theorem acquire_balanced (lock : LockId) (waiting next : Task) (gains : next.guards = lock ::ₘ waiting.guards) :
    (acquire manager lock waiting next).1.locked + waiting.guards =
      manager.locked + rest Task.guards (acquire manager lock waiting next).2 := by
  unfold acquire
  split
  · rfl
  · rw [rest_some,gains,Multiset.cons_add,Multiset.add_cons]

theorem release_balanced (held : task.guards ≤ manager.locked) :
    (release manager task).locked + task.guards = manager.locked + rest Task.guards none := by
  rw [rest_none,add_zero]
  exact Multiset.sub_add_cancel held

theorem advance_balanced (held : task.guards ≤ manager.locked) :
    (advance input manager runtime task).1.locked + task.guards =
      manager.locked + rest Task.guards (advance input manager runtime task).2 := by
  unfold advance
  split
  · exact release_balanced manager task held
  · cases task with
    | arrived request =>
      cases request with
      | upstreamFor deployment =>
        simp only [proceed,arrive]
        split <;> rfl
      | invalidate deployment => rfl
      | reconcileRoutes routedHere =>
        simp only [proceed,arrive]
        split <;> rfl
    | finding deployment =>
      simp only [proceed,startLock]
      split <;> rfl
    | waiting deployment lock => exact acquire_balanced manager lock _ _ rfl
    | checking deployment lock =>
      simp only [proceed]
      split
      · exact release_balanced manager _ held
      · rfl
    | starting deployment lock =>
      simp only [proceed]
      split
      · rfl
      · exact release_balanced manager _ held
    | registering deployment lock upstream => exact release_balanced manager (.registering deployment lock upstream) held
    | guarding routedHere taken remaining =>
      cases remaining with
      | nil => rfl
      | cons clone remaining =>
        refine acquire_balanced manager clone.2 _ _ ?_
        simp [Task.guards,Task.held]
    | evicting routedHere clones => rfl
    | stopping clones =>
      simp only [proceed]
      split
      · exact release_balanced manager _ held
      · rfl
    | forgetting clones => rfl
    | dropping clones => exact release_balanced manager _ held

theorem advance_free (free : manager.locked.Nodup) : (advance input manager runtime task).1.locked.Nodup := by
  have released : ∀ task, (release manager task).locked.Nodup := fun task =>
    Multiset.nodup_of_le (Multiset.sub_le_self _ _) free
  have acquired : ∀ lock waiting next, (acquire manager lock waiting next).1.locked.Nodup := by
    intro lock waiting next
    unfold acquire
    split
    · exact free
    · rename_i unlocked
      exact Multiset.nodup_cons.mpr ⟨unlocked,free⟩
  unfold advance
  split
  · exact released task
  · cases task with
    | arrived request =>
      cases request <;> exact free
    | finding deployment =>
      simp only [proceed,startLock]
      split <;> exact free
    | waiting deployment lock => exact acquired lock _ _
    | checking deployment lock =>
      simp only [proceed]
      split
      · exact released _
      · exact free
    | starting deployment lock =>
      simp only [proceed]
      split
      · exact free
      · exact released _
    | registering deployment lock upstream => exact released (.registering deployment lock upstream)
    | guarding routedHere taken remaining =>
      cases remaining with
      | nil => exact free
      | cons clone remaining => exact acquired clone.2 _ _
    | evicting routedHere clones => exact free
    | stopping clones =>
      simp only [proceed]
      split
      · exact released _
      · exact free
    | forgetting clones => exact free
    | dropping clones => exact released _

end Locks

end GrassWorker.Ssr
