import GrassWorker.Entity
import GrassWorker.Foundations.Mutexes
import GrassWorker.Foundations.Obligations

/-! The registry of SSR services against what runs, for one deployment: its entry in the registry, its start lock, the
container of its name, and the leases this node holds for it. Every lock that is taken, every call of the container
runtime and every call of the control plane is an action of its own. -/
namespace GrassWorker.SsrRegistry
open Interleaving Runs

abbrev LockId := Nat

abbrev LeaseId := Nat

structure ServiceEntry where
  upstream : String
  leaseId : Option LeaseId
deriving DecidableEq

structure Shared where
  entry : Option ServiceEntry := none
  startLock : Option LockId := none
  locked : Multiset LockId := 0
  created : Nat := 0
  /-- Whether the container of the deployment's name runs. -/
  running : Bool := false
  /-- The leases acquired and not released. -/
  unreleased : List LeaseId := []
  expired : List LeaseId := []
  acquired : Nat := 0
deriving DecidableEq

inductive Request
  | upstreamFor
  | invalidate
  | reap
  | reconcileRoutes (routedHere : Bool)
  /-- The control plane expires a lease. -/
  | expire (lease : LeaseId)
deriving DecidableEq

/-- A task with `pass` belongs to a pass of the reaper, which goes on to stop what is idle. -/
inductive Task
  | arrived (request : Request)
  | finding
  | waiting (lock : LockId)
  | checking (lock : LockId)
  | acquiring (lock : LockId)
  | locating (lock : LockId) (lease : Option LeaseId)
  | pulling (lock : LockId) (lease : Option LeaseId)
  | starting (lock : LockId) (lease : Option LeaseId)
  | readying (lock : LockId) (lease : Option LeaseId) (upstream : String)
  | registering (lock : LockId) (lease : Option LeaseId) (upstream : String)
  | stoppingStart (lock : LockId) (lease : Option LeaseId)
  | refunding (lock : LockId) (lease : LeaseId)
  | invalidating (pass : Bool)
  | stopping (lease : Option LeaseId) (pass : Bool)
  | releasing (lease : LeaseId) (pass : Bool)
  | readingLease
  | renewing (lease : LeaseId)
  | idling
  | guarding (routedHere : Bool) (clone : Option LockId)
  | evicting (routedHere : Bool) (clone : Option LockId)
  | releasingEvicted (clone : Option LockId) (lease : LeaseId)
  | listing (routedHere : Bool) (clone : Option LockId)
  | stoppingStale (clone : Option LockId)
  | forgetting (clone : Option LockId)
deriving DecidableEq

/-- Whether the node has a container runtime, and a client of the control plane. -/
structure Setup where
  runtime : Bool := true
  client : Bool := true

structure Input where
  /-- The future is dropped, its guards with it. -/
  dropped : Bool := false
  /-- The call fails, the artifact is not complete, or the service does not get ready. -/
  fails : Bool := false
  /-- The service has not been used for as long as it may be idle. -/
  idle : Bool := false
  upstream : String := ""
deriving DecidableEq

def Task.guards : Task → Multiset LockId
  | .checking lock | .acquiring lock | .locating lock _ | .pulling lock _ | .starting lock _ | .readying lock _ _
  | .registering lock _ _ | .stoppingStart lock _ | .refunding lock _ => {lock}
  | .evicting _ clone | .releasingEvicted clone _ | .listing _ clone | .stoppingStale clone | .forgetting clone =>
    clone.toList
  | _ => 0

def Shared.leave (s : Shared) (task : Task) : Shared := { s with locked := s.locked - task.guards }

def acquire (s : Shared) (lock : LockId) (waiting next : Task) : Shared × Option Task :=
  if lock ∈ s.locked then (s,some waiting) else ({ s with locked := lock ::ₘ s.locked },some next)

/-- A call of `release_ssr_lease`, whose outcome is ignored. -/
def releaseLease (input : Input) (s : Shared) (lease : LeaseId) : Shared :=
  if input.fails then s else { s with unreleased := s.unreleased.filter (· ≠ lease) }

def afterInvalidate (pass : Bool) : Option Task := if pass then some .idling else none

def toRelease (lease : Option LeaseId) (pass : Bool) : Option Task :=
  match lease with
  | some lease => some (.releasing lease pass)
  | none => afterInvalidate pass

/-- A start that fails gives back its lease, if it has one, before its guard is dropped. -/
def refund (s : Shared) (task : Task) (lock : LockId) (lease : Option LeaseId) : Shared × Option Task :=
  match lease with
  | some lease => (s,some (.refunding lock lease))
  | none => (s.leave task,none)

def expire (s : Shared) (lease : LeaseId) : Shared :=
  { s with
    unreleased := s.unreleased.filter (· ≠ lease)
    expired := s.expired ++ if lease ∈ s.unreleased then [lease] else [] }

def arrive (setup : Setup) (s : Shared) : Request → Shared × Option Task
  | .upstreamFor => (s,if s.entry.isSome then none else some .finding)
  | .invalidate => (s,some (.invalidating false))
  | .reap => (s,some (if s.entry.isSome then .readingLease else .idling))
  | .reconcileRoutes routedHere =>
    (s,if setup.runtime then some (.guarding routedHere (if routedHere then none else s.startLock)) else none)
  | .expire lease => (expire s lease,none)

def proceed (setup : Setup) (input : Input) (s : Shared) (task : Task) : Shared × Option Task :=
  match task with
  | .arrived request => arrive setup s request
  | .finding =>
    match s.startLock with
    | some lock => (s,some (.waiting lock))
    | none => ({ s with startLock := some s.created, created := s.created + 1 },some (.waiting s.created))
  | .waiting lock => acquire s lock task (.checking lock)
  | .checking lock => if s.entry.isSome ∨ setup.runtime = false then (s.leave task,none) else (s,some (.acquiring lock))
  | .acquiring lock =>
    if setup.client = false then (s,some (.locating lock none))
    else if input.fails then (s.leave task,none)
    else
      ({ s with unreleased := s.unreleased ++ [s.acquired], acquired := s.acquired + 1 },
        some (.locating lock (some s.acquired)))
  | .locating lock lease => if input.fails then refund s task lock lease else (s,some (.pulling lock lease))
  | .pulling lock lease =>
    -- here the lease is given back by a task of its own
    if input.fails then (s.leave task,toRelease lease false) else (s,some (.starting lock lease))
  | .starting lock lease => ({ s with running := true },some (.readying lock lease input.upstream))
  | .readying lock lease upstream =>
    (s,some (if input.fails then .stoppingStart lock lease else .registering lock lease upstream))
  | .registering _ lease upstream => ({ s.leave task with entry := some ⟨upstream,lease⟩ },none)
  | .stoppingStart lock lease => refund { s with running := false } task lock lease
  | .refunding _ lease => ((releaseLease input s lease).leave task,none)
  | .invalidating pass =>
    match s.entry with
    | some entry =>
      ({ s with entry := none },if setup.runtime then some (.stopping entry.leaseId pass) else toRelease entry.leaseId pass)
    | none => (s,afterInvalidate pass)
  | .stopping lease pass => ({ s with running := false },toRelease lease pass)
  | .releasing lease pass => (releaseLease input s lease,afterInvalidate pass)
  | .readingLease =>
    match s.entry.bind ServiceEntry.leaseId with
    | some lease => (s,some (if setup.client then .renewing lease else .idling))
    | none => (s,some .idling)
  | .renewing _ => (s,some (if input.fails then .invalidating true else .idling))
  | .idling =>
    match s.entry with
    | some entry =>
      if input.idle then
        ({ s with entry := none },if setup.runtime then some (.stopping entry.leaseId false) else none)
      else (s,none)
    | none => (s,none)
  | .guarding routedHere (some lock) => acquire s lock task (.evicting routedHere (some lock))
  | .guarding routedHere none => (s,some (.evicting routedHere none))
  | .evicting routedHere clone =>
    match if routedHere then none else s.entry with
    | some entry =>
      ({ s with entry := none },some (match entry.leaseId with
        | some lease => .releasingEvicted clone lease
        | none => .listing routedHere clone))
    | none => (s,some (.listing routedHere clone))
  | .releasingEvicted clone lease => (releaseLease input s lease,some (.listing false clone))
  | .listing routedHere clone =>
    (s,some (if s.running ∧ routedHere = false then .stoppingStale clone else .forgetting clone))
  | .stoppingStale clone => ({ s with running := false },some (.forgetting clone))
  | .forgetting clone =>
    ({ s.leave task with startLock := if clone.isSome ∧ s.startLock = clone then none else s.startLock },none)

def advance (setup : Setup) (input : Input) (s : Shared) (task : Task) : Shared × Option Task :=
  if input.dropped then (s.leave task,none) else proceed setup input s task

def machine (setup : Setup) : Machine Shared Task Request Input := ⟨Task.arrived,advance setup⟩

def idle : Config Shared Task := ⟨{},[]⟩

def Task.lease : Task → Option LeaseId
  | .locating _ lease | .pulling _ lease | .starting _ lease | .readying _ lease _ | .registering _ lease _
  | .stoppingStart _ lease | .stopping lease _ => lease
  | .refunding _ lease | .releasing lease _ | .releasingEvicted _ lease => some lease
  | _ => none

def Task.started : Task → Bool
  | .readying .. | .registering .. | .stoppingStart .. => true
  | _ => false

def Task.settles : Task → Bool
  | .stopping .. | .releasingEvicted .. | .listing false _ | .stoppingStale _ => true
  | task => task.started

def Task.stops : Task → Bool
  | .stoppingStart .. | .stopping .. | .stoppingStale _ => true
  | _ => false

def Task.registers : Task → Bool
  | .registering .. => true
  | _ => false

def Task.releases : Task → Bool
  | .refunding .. | .releasing .. | .releasingEvicted .. => true
  | _ => false

/-- The action is not in the way of another: nothing is dropped that must be given back, a release gets through, and
a container is stopped or registered only while no service is registered. -/
structure Calm (input : Input) (s : Shared) (task : Task) : Prop where
  dropped : input.dropped = true → task.lease = none ∧ task.settles = false
  releases : input.fails = true → task.releases = false
  vacant : task.stops = true ∨ task.registers = true → s.entry = none

instance (input : Input) (s : Shared) (task : Task) : Decidable (Calm input s task) :=
  decidable_of_iff ((input.dropped = true → task.lease = none ∧ task.settles = false) ∧
      (input.fails = true → task.releases = false) ∧ (task.stops = true ∨ task.registers = true → s.entry = none))
    ⟨fun ⟨one,two,three⟩ => ⟨one,two,three⟩,fun calm => ⟨calm.dropped,calm.releases,calm.vacant⟩⟩

/-- Every action is calm, and no container is stopped that another call has just started. -/
def Undisturbed (config : Config Shared Task) (event : Event Request Input) : Prop :=
  ActingApart Calm (fun _ _ task other => task.stops = true → other.started = false) config event

instance (config : Config Shared Task) (event : Event Request Input) : Decidable (Undisturbed config event) :=
  inferInstanceAs (Decidable (ActingApart _ _ config event))

/-- Once no call is in flight, a service is registered if and only if its container runs, and it holds the one lease
that is not released, unless the control plane has expired that. -/
structure Matches (s : Shared) : Prop where
  runs : s.entry.isSome ↔ s.running = true
  leased : ∀ entry ∈ s.entry, ∀ lease ∈ entry.leaseId, lease ∈ s.unreleased ∨ lease ∈ s.expired
  held : ∀ lease ∈ s.unreleased, ∃ entry ∈ s.entry, entry.leaseId = some lease

def Quiet (config : Config Shared Task) : Prop := config.inflight = [] → Matches config.shared

def Task.leases (task : Task) : Multiset LeaseId := task.lease.toList

def Task.launches : Task → Bool
  | .acquiring _ | .locating .. | .pulling .. | .starting .. | .readying .. | .registering .. => true
  | _ => false

structure Unchanged (s s' : Shared) : Prop where
  entry : s'.entry = s.entry
  running : s'.running = s.running
  unreleased : s'.unreleased = s.unreleased
  expired : s'.expired = s.expired
  acquired : s'.acquired = s.acquired

theorem Unchanged.refl (s : Shared) : Unchanged s s := ⟨rfl,rfl,rfl,rfl,rfl⟩

/-- What a task leaves to the rest of it: its leases, and that it is to settle the container. -/
structure Passes (setup : Setup) (s : Shared) (task : Task) (rest : Option Task) : Prop where
  leases : Interleaving.rest Task.leases rest = task.leases
  started : ∀ next, rest = some next → next.started = true → task.started = true
  launches : ∀ next, rest = some next → next.launches = true → task.launches = true ∨ setup.runtime = true
  settles : task.settles = true → (∃ next, rest = some next ∧ next.settles = true) ∨ s.running = false

inductive Acts (setup : Setup) (input : Input) (s : Shared) : Task → Shared → Option Task → Prop
  | quiet (task : Task) (s' : Shared) (rest : Option Task) (same : Unchanged s s') (passes : Passes setup s task rest) :
      Acts setup input s task s' rest
  | acquired (lock : LockId) : Acts setup input s (.acquiring lock)
      { s with unreleased := s.unreleased ++ [s.acquired], acquired := s.acquired + 1 }
        (some (.locating lock (some s.acquired)))
  | started (lock : LockId) (lease : Option LeaseId) : Acts setup input s (.starting lock lease) { s with running := true }
      (some (.readying lock lease input.upstream))
  | registered (lock : LockId) (lease : Option LeaseId) (upstream : String) :
      Acts setup input s (.registering lock lease upstream)
        { s.leave (.registering lock lease upstream) with entry := some ⟨upstream,lease⟩ } none
  | stopped (task : Task) (stops : task.stops = true) (s' : Shared) (same : Unchanged { s with running := false } s')
      (rest : Option Task) (leases : Interleaving.rest Task.leases rest = task.leases)
      (idle : ∀ next, rest = some next → next.started = false ∧ next.launches = false) : Acts setup input s task s' rest
  | released (task : Task) (lease : LeaseId) (holds : task.lease = some lease) (s' : Shared)
      (same : Unchanged { s with unreleased := s.unreleased.filter (· ≠ lease) } s') (rest : Option Task)
      (leases : Interleaving.rest Task.leases rest = 0)
      (idle : ∀ next, rest = some next → next.started = false ∧ next.launches = false)
      (settles : task.settles = true → ∃ next, rest = some next ∧ next.settles = true) : Acts setup input s task s' rest
  | removed (task : Task) (plain : task.lease = none ∧ task.settles = false) (entry : ServiceEntry) (found : s.entry = some entry)
      (rest : Option Task) (takes : setup.runtime = true →
        Interleaving.rest Task.leases rest = entry.leaseId.toList ∧ ∃ next, rest = some next ∧ next.settles = true)
      (idle : ∀ next, rest = some next → next.started = false ∧ next.launches = false) :
      Acts setup input s task { s with entry := none } rest
  | expired (lease : LeaseId) : Acts setup input s (.arrived (.expire lease)) (expire s lease) none

section Acts
attribute [local simp] proceed

variable {setup : Setup} {input : Input} {s s' : Shared}

theorem acts_ends (task : Task) (plain : task.lease = none ∧ task.settles = false) (same : Unchanged s s') :
    Acts setup input s task s' none := by
  refine .quiet task s' none same ⟨?_,nofun,nofun,fun settles => ?_⟩
  · unfold Task.leases
    rw [plain.1]
    rfl
  · rw [plain.2] at settles
    cases settles

theorem acts_goes (task next : Task) (plain : task.lease = none ∧ task.settles = false)
    (also : next.lease = none ∧ next.started = false ∧ next.launches = false) (same : Unchanged s s') :
    Acts setup input s task s' (some next) := by
  refine .quiet task s' _ same ⟨?_,?_,?_,fun settles => ?_⟩
  · rw [rest_some]
    unfold Task.leases
    rw [plain.1,also.1]
  · rintro _ ⟨⟩ started
    rw [also.2.1] at started
    cases started
  · rintro _ ⟨⟩ launches
    rw [also.2.2] at launches
    cases launches
  · rw [plain.2] at settles
    cases settles

theorem acquire_acts (lock : LockId) (task next : Task) (plain : task.lease = none ∧ task.settles = false)
    (idle : task.started = false ∧ task.launches = false)
    (also : next.lease = none ∧ next.started = false ∧ next.launches = false) :
    Acts setup input s task (acquire s lock task next).1 (acquire s lock task next).2 := by
  unfold acquire
  split
  · exact acts_goes task task plain ⟨plain.1,idle⟩ (.refl s)
  · exact acts_goes task next plain also ⟨rfl,rfl,rfl,rfl,rfl⟩

theorem refund_acts (task : Task) (lock : LockId) (lease : Option LeaseId) (holds : task.lease = lease)
    (settles : task.settles = false) : Acts setup input s task (refund s task lock lease).1 (refund s task lock lease).2 := by
  cases lease with
  | none => exact acts_ends task ⟨holds,settles⟩ ⟨rfl,rfl,rfl,rfl,rfl⟩
  | some lease =>
    refine .quiet task s _ (.refl s) ⟨?_,?_,?_,fun also => ?_⟩
    · rw [Task.leases,holds]
      rfl
    · rintro _ ⟨⟩ started
      cases started
    · rintro _ ⟨⟩ launches
      cases launches
    · rw [settles] at also
      cases also

theorem toRelease_spec (lease : Option LeaseId) (pass : Bool) :
    rest Task.leases (toRelease lease pass) = lease.toList ∧
      ∀ next, toRelease lease pass = some next → next.started = false ∧ next.launches = false := by
  cases lease with
  | some lease =>
    refine ⟨rfl,?_⟩
    rintro _ ⟨⟩
    exact ⟨rfl,rfl⟩
  | none =>
    cases pass with
    | false => exact ⟨rfl,nofun⟩
    | true =>
      refine ⟨rfl,?_⟩
      rintro _ ⟨⟩
      exact ⟨rfl,rfl⟩

theorem refund_stopped (lock : LockId) (lease : Option LeaseId) :
    Acts setup input s (.stoppingStart lock lease) (refund { s with running := false } (.stoppingStart lock lease) lock lease).1
      (refund { s with running := false } (.stoppingStart lock lease) lock lease).2 := by
  cases lease with
  | none =>
    have same : Unchanged { s with running := false } (Shared.leave { s with running := false } (.stoppingStart lock none)) :=
      ⟨rfl,rfl,rfl,rfl,rfl⟩
    exact .stopped _ rfl _ same none rfl nofun
  | some lease =>
    refine .stopped _ rfl _ (.refl { s with running := false }) _ rfl ?_
    rintro _ ⟨⟩
    exact ⟨rfl,rfl⟩

theorem releaseLease_acts (task : Task) (lease : LeaseId) (holds : task.lease = some lease) (calm : Calm input s task)
    (releases : task.releases = true) (rest : Option Task)
    (leases : Interleaving.rest Task.leases rest = 0)
    (idle : ∀ next, rest = some next → next.started = false ∧ next.launches = false)
    (settles : task.settles = true → ∃ next, rest = some next ∧ next.settles = true)
    (same : Unchanged (releaseLease input s lease) s') : Acts setup input s task s' rest := by
  have works : input.fails = false := by
    cases fails : input.fails with
    | false => rfl
    | true =>
      have refused := calm.releases fails
      rw [releases] at refused
      cases refused
  unfold releaseLease at same
  rw [works] at same
  exact .released task lease holds s' same rest leases idle settles

theorem afterInvalidate_spec (pass : Bool) : rest Task.leases (afterInvalidate pass) = 0 ∧
    ∀ next, afterInvalidate pass = some next → next.started = false ∧ next.launches = false := toRelease_spec none pass

theorem arrive_acts (request : Request) :
    Acts setup input s (.arrived request) (arrive setup s request).1 (arrive setup s request).2 := by
  have plain : (Task.arrived request).lease = none ∧ (Task.arrived request).settles = false := ⟨rfl,rfl⟩
  cases request with
  | upstreamFor =>
    simp only [arrive]
    split
    · exact acts_ends _ plain (.refl s)
    · exact acts_goes _ _ plain ⟨rfl,rfl,rfl⟩ (.refl s)
  | invalidate => exact acts_goes _ _ plain ⟨rfl,rfl,rfl⟩ (.refl s)
  | reap =>
    simp only [arrive]
    split
    · exact acts_goes _ _ plain ⟨rfl,rfl,rfl⟩ (.refl s)
    · exact acts_goes _ _ plain ⟨rfl,rfl,rfl⟩ (.refl s)
  | reconcileRoutes routedHere =>
    simp only [arrive]
    split
    · exact acts_goes _ _ plain ⟨rfl,rfl,rfl⟩ (.refl s)
    · exact acts_ends _ plain (.refl s)
  | expire lease => exact .expired lease

theorem acts_launches (task next : Task) (lease : task.lease = next.lease) (settles : task.settles = false)
    (started : next.started = false) (launches : task.launches = true) : Acts setup input s task s (some next) := by
  refine .quiet task s _ (.refl s) ⟨?_,?_,fun _ _ _ => .inl launches,fun also => ?_⟩
  · rw [rest_some]
    unfold Task.leases
    rw [lease]
  · rintro _ ⟨⟩ also
    rw [started] at also
    cases also
  · rw [settles] at also
    cases also

theorem start_acts (lock : LockId) (lease : Option LeaseId) :
    Acts setup input s (.locating lock lease) (proceed setup input s (.locating lock lease)).1
        (proceed setup input s (.locating lock lease)).2 ∧
      Acts setup input s (.pulling lock lease) (proceed setup input s (.pulling lock lease)).1
        (proceed setup input s (.pulling lock lease)).2 := by
  constructor
  · simp only [proceed]
    split
    · exact refund_acts _ lock lease rfl rfl
    · exact acts_launches _ _ rfl rfl rfl rfl
  · simp only [proceed]
    split
    · obtain ⟨leases,idle⟩ := toRelease_spec lease false
      refine .quiet _ _ _ ⟨rfl,rfl,rfl,rfl,rfl⟩ ⟨leases,fun next goes started => ?_,fun next goes launches => ?_,nofun⟩
      · rw [(idle next goes).1] at started
        cases started
      · rw [(idle next goes).2] at launches
        cases launches
    · exact acts_launches _ _ rfl rfl rfl rfl

theorem readying_acts (lock : LockId) (lease : Option LeaseId) (upstream : String) :
    Acts setup input s (.readying lock lease upstream) (proceed setup input s (.readying lock lease upstream)).1
      (proceed setup input s (.readying lock lease upstream)).2 := by
  simp only [proceed]
  refine .quiet _ s _ (.refl s) ⟨?_,fun _ _ _ => rfl,fun _ _ _ => .inl rfl,fun _ => .inl ⟨_,rfl,?_⟩⟩
  · split <;> rfl
  · split <;> rfl

theorem invalidating_acts (pass : Bool) :
    Acts setup input s (.invalidating pass) (proceed setup input s (.invalidating pass)).1
      (proceed setup input s (.invalidating pass)).2 := by
  simp only [proceed]
  split
  · rename_i entry found
    refine .removed _ ⟨rfl,rfl⟩ entry found _ (fun runtime => ?_) ?_
    · rw [if_pos runtime]
      exact ⟨rfl,_,rfl,rfl⟩
    · split
      · rintro _ ⟨⟩
        exact ⟨rfl,rfl⟩
      · exact (toRelease_spec entry.leaseId pass).2
  · cases pass with
    | false => exact acts_ends _ ⟨rfl,rfl⟩ (.refl s)
    | true => exact acts_goes _ _ ⟨rfl,rfl⟩ ⟨rfl,rfl,rfl⟩ (.refl s)

theorem idling_acts :
    Acts setup input s .idling (proceed setup input s .idling).1 (proceed setup input s .idling).2 := by
  simp only [proceed]
  split
  · rename_i entry found
    split
    · refine .removed _ ⟨rfl,rfl⟩ entry found _ (fun runtime => ?_) ?_
      · rw [if_pos runtime]
        exact ⟨rfl,_,rfl,rfl⟩
      · split
        · rintro _ ⟨⟩
          exact ⟨rfl,rfl⟩
        · exact nofun
    · exact acts_ends _ ⟨rfl,rfl⟩ (.refl s)
  · exact acts_ends _ ⟨rfl,rfl⟩ (.refl s)

theorem evicting_acts (routedHere : Bool) (clone : Option LockId) :
    Acts setup input s (.evicting routedHere clone) (proceed setup input s (.evicting routedHere clone)).1
      (proceed setup input s (.evicting routedHere clone)).2 := by
  cases routedHere with
  | true => exact acts_goes _ _ ⟨rfl,rfl⟩ ⟨rfl,rfl,rfl⟩ (.refl s)
  | false =>
    cases found : s.entry with
    | none =>
      simp only [proceed,found,Bool.false_eq_true,if_false]
      exact acts_goes _ _ ⟨rfl,rfl⟩ ⟨rfl,rfl,rfl⟩ (.refl s)
    | some entry =>
      obtain ⟨upstream,lease⟩ := entry
      simp only [proceed,found,Bool.false_eq_true,if_false]
      cases lease with
      | none =>
        refine .removed _ ⟨rfl,rfl⟩ _ found _ (fun _ => ⟨rfl,_,rfl,rfl⟩) ?_
        rintro _ ⟨⟩
        exact ⟨rfl,rfl⟩
      | some lease =>
        refine .removed _ ⟨rfl,rfl⟩ _ found _ (fun _ => ⟨rfl,_,rfl,rfl⟩) ?_
        rintro _ ⟨⟩
        exact ⟨rfl,rfl⟩

theorem listing_acts (routedHere : Bool) (clone : Option LockId) :
    Acts setup input s (.listing routedHere clone) (proceed setup input s (.listing routedHere clone)).1
      (proceed setup input s (.listing routedHere clone)).2 := by
  simp only [proceed]
  split
  · refine .quiet _ s _ (.refl s) ⟨rfl,?_,?_,fun _ => .inl ⟨_,rfl,rfl⟩⟩
    · rintro _ ⟨⟩ started
      cases started
    · rintro _ ⟨⟩ launches
      cases launches
  · rename_i spared
    refine .quiet _ s _ (.refl s) ⟨rfl,?_,?_,fun settles => .inr ?_⟩
    · rintro _ ⟨⟩ started
      cases started
    · rintro _ ⟨⟩ launches
      cases launches
    · cases routedHere with
      | true => cases settles
      | false => simpa using spared

theorem acquiring_acts (lock : LockId) :
    Acts setup input s (.acquiring lock) (proceed setup input s (.acquiring lock)).1
      (proceed setup input s (.acquiring lock)).2 := by
  simp only [proceed]
  split
  · exact acts_launches _ _ rfl rfl rfl rfl
  · split
    · exact acts_ends _ ⟨rfl,rfl⟩ ⟨rfl,rfl,rfl,rfl,rfl⟩
    · exact .acquired lock

theorem checking_acts (lock : LockId) :
    Acts setup input s (.checking lock) (proceed setup input s (.checking lock)).1
      (proceed setup input s (.checking lock)).2 := by
  simp only [proceed]
  split
  · exact acts_ends _ ⟨rfl,rfl⟩ ⟨rfl,rfl,rfl,rfl,rfl⟩
  · rename_i runs
    have runtime : setup.runtime = true := by simpa using (not_or.mp runs).2
    refine .quiet _ s _ (.refl s) ⟨rfl,?_,fun _ _ _ => .inr runtime,nofun⟩
    rintro _ ⟨⟩ started
    cases started

theorem proceed_acts (task : Task) (calm : Calm input s task) :
    Acts setup input s task (proceed setup input s task).1 (proceed setup input s task).2 := by
  cases task with
  | arrived request => exact arrive_acts request
  | finding =>
    simp only [proceed]
    split
    · exact acts_goes _ _ ⟨rfl,rfl⟩ ⟨rfl,rfl,rfl⟩ (.refl s)
    · exact acts_goes _ _ ⟨rfl,rfl⟩ ⟨rfl,rfl,rfl⟩ ⟨rfl,rfl,rfl,rfl,rfl⟩
  | waiting lock => exact acquire_acts lock _ _ ⟨rfl,rfl⟩ ⟨rfl,rfl⟩ ⟨rfl,rfl,rfl⟩
  | checking lock => exact checking_acts lock
  | acquiring lock => exact acquiring_acts lock
  | locating lock lease => exact (start_acts lock lease).1
  | pulling lock lease => exact (start_acts lock lease).2
  | starting lock lease => exact .started lock lease
  | readying lock lease upstream => exact readying_acts lock lease upstream
  | registering lock lease upstream => exact .registered lock lease upstream
  | stoppingStart lock lease => exact refund_stopped lock lease
  | refunding lock lease => exact releaseLease_acts _ lease rfl calm rfl none rfl nofun nofun ⟨rfl,rfl,rfl,rfl,rfl⟩
  | invalidating pass => exact invalidating_acts pass
  | stopping lease pass =>
    obtain ⟨leases,idle⟩ := toRelease_spec lease pass
    exact .stopped _ rfl _ (.refl _) _ leases idle
  | releasing lease pass =>
    obtain ⟨leases,idle⟩ := afterInvalidate_spec pass
    exact releaseLease_acts _ lease rfl calm rfl _ leases idle nofun (.refl _)
  | readingLease =>
    simp only [proceed]
    split
    · split
      · exact acts_goes _ _ ⟨rfl,rfl⟩ ⟨rfl,rfl,rfl⟩ (.refl s)
      · exact acts_goes _ _ ⟨rfl,rfl⟩ ⟨rfl,rfl,rfl⟩ (.refl s)
    · exact acts_goes _ _ ⟨rfl,rfl⟩ ⟨rfl,rfl,rfl⟩ (.refl s)
  | renewing lease =>
    simp only [proceed]
    split
    · exact acts_goes _ _ ⟨rfl,rfl⟩ ⟨rfl,rfl,rfl⟩ (.refl s)
    · exact acts_goes _ _ ⟨rfl,rfl⟩ ⟨rfl,rfl,rfl⟩ (.refl s)
  | idling => exact idling_acts
  | guarding routedHere clone =>
    cases clone with
    | none => exact acts_goes _ _ ⟨rfl,rfl⟩ ⟨rfl,rfl,rfl⟩ (.refl s)
    | some lock => exact acquire_acts lock _ _ ⟨rfl,rfl⟩ ⟨rfl,rfl⟩ ⟨rfl,rfl,rfl⟩
  | evicting routedHere clone => exact evicting_acts routedHere clone
  | releasingEvicted clone lease =>
    refine releaseLease_acts _ lease rfl calm rfl _ rfl ?_ (fun _ => ⟨_,rfl,rfl⟩) (.refl _)
    rintro _ ⟨⟩
    exact ⟨rfl,rfl⟩
  | listing routedHere clone => exact listing_acts routedHere clone
  | stoppingStale clone =>
    refine .stopped _ rfl _ (.refl _) _ rfl ?_
    rintro _ ⟨⟩
    exact ⟨rfl,rfl⟩
  | forgetting clone => exact acts_ends _ ⟨rfl,rfl⟩ ⟨rfl,rfl,rfl,rfl,rfl⟩

theorem advance_acts (task : Task) (calm : Calm input s task) :
    Acts setup input s task (advance setup input s task).1 (advance setup input s task).2 := by
  unfold advance
  split
  · rename_i dropped
    exact acts_ends task (calm.dropped dropped) ⟨rfl,rfl,rfl,rfl,rfl⟩
  · exact proceed_acts task calm

end Acts

structure Sound (setup : Setup) (s : Shared) : Prop where
  runs : ∀ entry ∈ s.entry, s.running = true ∧ setup.runtime = true
  leased : ∀ entry ∈ s.entry, ∀ lease ∈ entry.leaseId, lease < s.acquired ∧ (lease ∈ s.unreleased ∨ lease ∈ s.expired)

/-- What a task relies on: the container it has started runs, and its leases are its own. -/
structure Relies (setup : Setup) (s : Shared) (task : Task) : Prop where
  started : task.started = true → s.running = true
  launches : task.launches = true → setup.runtime = true
  leases : ∀ lease ∈ task.leases, lease < s.acquired ∧ (lease ∈ s.unreleased ∨ lease ∈ s.expired) ∧
    ∀ entry ∈ s.entry, entry.leaseId ≠ some lease

section Step
variable {setup : Setup} {input : Input} {s s' : Shared} {task other : Task} {rest : Option Task}

theorem Unchanged.sound (same : Unchanged s s') (sound : Sound setup s) : Sound setup s' := by
  refine ⟨?_,?_⟩
  · rw [same.entry,same.running]
    exact sound.runs
  · rw [same.entry,same.acquired,same.unreleased,same.expired]
    exact sound.leased

theorem Unchanged.relies (same : Unchanged s s') (relies : Relies setup s task) : Relies setup s' task := by
  refine ⟨?_,relies.launches,?_⟩
  · rw [same.running]
    exact relies.started
  · rw [same.acquired,same.unreleased,same.expired,same.entry]
    exact relies.leases

theorem leases_of_lease {lease : LeaseId} (holds : task.lease = some lease) : task.leases = {lease} := by
  rw [Task.leases,holds]
  rfl

theorem kept_filter {lease other : LeaseId} (different : other ≠ lease) (there : other ∈ s.unreleased ∨ other ∈ s.expired) :
    other ∈ s.unreleased.filter (· ≠ lease) ∨ other ∈ s.expired := by
  rcases there with open' | gone
  · exact .inl (List.mem_filter.mpr ⟨open',by simpa using different⟩)
  · exact .inr gone

theorem kept_expire {lease other : LeaseId} (there : other ∈ s.unreleased ∨ other ∈ s.expired) :
    other ∈ (expire s lease).unreleased ∨ other ∈ (expire s lease).expired := by
  by_cases same : other = lease
  · subst same
    rcases there with open' | gone
    · exact .inr (List.mem_append_right _ (by rw [if_pos open']; exact List.mem_singleton_self _))
    · exact .inr (List.mem_append_left _ gone)
  · rcases kept_filter same there with open' | gone
    · exact .inl open'
    · exact .inr (List.mem_append_left _ gone)

theorem acts_sound (acts : Acts setup input s task s' rest) (calm : Calm input s task) (sound : Sound setup s)
    (relies : Relies setup s task) : Sound setup s' := by
  cases acts with
  | quiet _ _ _ same passes => exact same.sound sound
  | acquired lock =>
    refine ⟨sound.runs,fun entry found lease holds => ?_⟩
    obtain ⟨bound,there⟩ := sound.leased entry found lease holds
    exact ⟨bound.trans (Nat.lt_succ_self _),there.imp_left (List.mem_append_left _)⟩
  | started lock lease => exact ⟨fun entry found => ⟨rfl,(sound.runs entry found).2⟩,sound.leased⟩
  | registered lock lease upstream =>
    refine ⟨?_,?_⟩
    · rintro _ ⟨⟩
      exact ⟨relies.started rfl,relies.launches rfl⟩
    · rintro _ ⟨⟩ held holds
      cases holds
      have known := relies.leases held (Multiset.mem_singleton_self _)
      exact ⟨known.1,known.2.1⟩
  | stopped _ stops _ same _ leases idle =>
    have vacant := calm.vacant (.inl stops)
    refine same.sound ⟨fun entry found => ?_,sound.leased⟩
    change entry ∈ s.entry at found
    rw [vacant] at found
    cases found
  | released _ lease holds _ same _ leases idle settles =>
    refine same.sound ⟨sound.runs,fun entry found other held => ?_⟩
    obtain ⟨bound,there⟩ := sound.leased entry found other held
    refine ⟨bound,kept_filter ?_ there⟩
    rintro rfl
    have mine : other ∈ task.leases := by
      rw [leases_of_lease holds]
      exact Multiset.mem_singleton_self _
    exact (relies.leases other mine).2.2 entry found held
  | removed => exact ⟨nofun,nofun⟩
  | expired lease => exact ⟨sound.runs,fun entry found other held =>
      ⟨(sound.leased entry found other held).1,kept_expire (sound.leased entry found other held).2⟩⟩

theorem Relies.apart (acts : Acts setup input s task s' rest) (stops : task.stops = true → other.started = false)
    (disjoint : Disjoint task.leases other.leases) (relied : Relies setup s other) : Relies setup s' other := by
  cases acts with
  | quiet _ _ _ same passes => exact same.relies relied
  | acquired lock =>
    refine ⟨relied.started,relied.launches,fun lease member => ?_⟩
    obtain ⟨bound,there,apart⟩ := relied.leases lease member
    exact ⟨bound.trans (Nat.lt_succ_self _),there.imp_left (List.mem_append_left _),apart⟩
  | started lock lease => exact ⟨fun _ => rfl,relied.launches,relied.leases⟩
  | registered lock lease upstream =>
    refine ⟨relied.started,relied.launches,fun held member => ?_⟩
    obtain ⟨bound,there,_⟩ := relied.leases held member
    refine ⟨bound,there,?_⟩
    rintro _ ⟨⟩ same
    have holds : (Task.registering lock lease upstream).lease = some held := same
    have mine : held ∈ (Task.registering lock lease upstream).leases := by
      rw [leases_of_lease holds]
      exact Multiset.mem_singleton_self _
    exact Multiset.disjoint_left.mp disjoint mine member
  | stopped _ stops' _ same _ leases idle =>
    refine same.relies ⟨fun started => ?_,relied.launches,relied.leases⟩
    rw [stops stops'] at started
    cases started
  | released _ lease holds _ same _ leases idle settles =>
    refine same.relies ⟨relied.started,relied.launches,fun held member => ?_⟩
    obtain ⟨bound,there,apart⟩ := relied.leases held member
    refine ⟨bound,kept_filter ?_ there,apart⟩
    rintro rfl
    have mine : held ∈ task.leases := by
      rw [leases_of_lease holds]
      exact Multiset.mem_singleton_self _
    exact Multiset.disjoint_left.mp disjoint mine member
  | removed =>
    exact ⟨relied.started,relied.launches,fun held member =>
      ⟨(relied.leases held member).1,(relied.leases held member).2.1,nofun⟩⟩
  | expired lease =>
    exact ⟨relied.started,relied.launches,fun held member =>
      ⟨(relied.leases held member).1,kept_expire (relied.leases held member).2.1,(relied.leases held member).2.2⟩⟩

theorem relies_next (acts : Acts setup input s task s' rest) (sound : Sound setup s) (relies : Relies setup s task) :
    ∀ next, rest = some next → Relies setup s' next := by
  rintro next rfl
  have none' : ∀ {s' : Shared}, next.started = false ∧ next.launches = false → next.leases = 0 → Relies setup s' next := by
    intro s' idle leases
    refine ⟨fun started => ?_,fun launches => ?_,fun lease member => ?_⟩
    · rw [idle.1] at started
      cases started
    · rw [idle.2] at launches
      cases launches
    · rw [leases] at member
      cases member
  cases acts with
  | quiet _ _ _ same passes =>
    refine same.relies ⟨fun started => relies.started (passes.started next rfl started),fun launches => ?_,?_⟩
    · rcases passes.launches next rfl launches with mine | runtime
      · exact relies.launches mine
      · exact runtime
    · rw [← rest_some Task.leases,passes.leases]
      exact relies.leases
  | acquired lock =>
    refine ⟨nofun,fun _ => relies.launches rfl,fun lease member => ?_⟩
    rw [Multiset.mem_singleton.mp member]
    refine ⟨Nat.lt_succ_self _,.inl (List.mem_append_right _ (List.mem_singleton_self _)),fun entry found holds => ?_⟩
    exact absurd (sound.leased entry found _ holds).1 (lt_irrefl _)
  | started lock lease => exact ⟨fun _ => rfl,fun _ => relies.launches rfl,relies.leases⟩
  | stopped _ stops _ same _ leases idle =>
    refine same.relies ⟨fun started => ?_,fun launches => ?_,?_⟩
    · rw [(idle next rfl).1] at started
      cases started
    · rw [(idle next rfl).2] at launches
      cases launches
    · rw [← rest_some Task.leases,leases]
      exact relies.leases
  | released _ lease holds _ same _ leases idle settles => exact none' (idle next rfl) leases
  | removed _ plain entry found _ takes idle =>
    have runtime := (sound.runs entry found).2
    refine ⟨fun started => ?_,fun launches => ?_,fun lease member => ?_⟩
    · rw [(idle next rfl).1] at started
      cases started
    · rw [(idle next rfl).2] at launches
      cases launches
    · rw [← rest_some Task.leases,(takes runtime).1] at member
      have holds : lease ∈ entry.leaseId := Option.mem_toList.mp member
      exact ⟨(sound.leased entry found lease holds).1,(sound.leased entry found lease holds).2,nofun⟩

end Step

def Unsettled (s : Shared) (_ : Unit) : Prop := s.running = true ∧ s.entry = none

/-- A lease that no service holds is to be given back, or goes with a service that is to be registered. -/
def Outstanding (s : Shared) (lease : LeaseId) : Prop := lease ∈ s.unreleased ∧ ∀ entry ∈ s.entry, entry.leaseId ≠ some lease

def Task.work (task : Task) : Multiset Unit := if task.settles then {()} else 0

theorem Unchanged.unsettled {s s' : Shared} (same : Unchanged s s') (open' : Unsettled s' ()) : Unsettled s () := by
  unfold Unsettled at open'
  rw [same.running,same.entry] at open'
  exact open'

theorem Unchanged.outstanding {s s' : Shared} (same : Unchanged s s') {lease : LeaseId} (open' : Outstanding s' lease) :
    Outstanding s lease := by
  unfold Outstanding at open'
  rw [same.unreleased,same.entry] at open'
  exact open'

theorem work_of_settles {task : Task} (settles : task.settles = true) : () ∈ task.work := by
  rw [Task.work,if_pos settles]
  exact Multiset.mem_singleton_self _

theorem unsettled_of_idle {task : Task} (settles : task.settles = false) : () ∉ task.work := by
  unfold Task.work
  rw [settles]
  exact Multiset.notMem_zero _

section Duties
variable {setup : Setup} {input : Input} {s s' : Shared} {task : Task} {rest : Option Task}

theorem goes_unsettled (settles : task.settles = true → ∃ next, rest = some next ∧ next.settles = true)
    (before : Unsettled s ()) : () ∈ Interleaving.rest Task.work rest ∨ (Unsettled s () ∧ () ∉ task.work) := by
  cases mine : task.settles with
  | true =>
    obtain ⟨next,rfl,also⟩ := settles mine
    exact .inl (work_of_settles also)
  | false => exact .inr ⟨before,unsettled_of_idle mine⟩

theorem acts_unsettled (acts : Acts setup input s task s' rest) (sound : Sound setup s) (open' : Unsettled s' ()) :
    () ∈ Interleaving.rest Task.work rest ∨ (Unsettled s () ∧ () ∉ task.work) := by
  cases acts with
  | quiet _ _ _ same passes =>
    have before := same.unsettled open'
    refine goes_unsettled (fun settles => ?_) before
    rcases passes.settles settles with goes | stopped
    · exact goes
    · rw [before.1] at stopped
      cases stopped
  | acquired lock => exact .inr ⟨open',unsettled_of_idle rfl⟩
  | started lock lease => exact .inl (Multiset.mem_singleton_self _)
  | registered lock lease upstream => exact nomatch open'.2
  | stopped _ stops _ same _ leases idle => exact nomatch (same.unsettled open').1
  | released _ lease holds _ same _ leases idle settles => exact goes_unsettled settles (same.unsettled open')
  | removed _ plain entry found _ takes idle =>
    obtain ⟨_,next,rfl,settles⟩ := takes (sound.runs entry found).2
    exact .inl (work_of_settles settles)
  | expired lease => exact .inr ⟨open',unsettled_of_idle rfl⟩

theorem goes_outstanding {lease : LeaseId} (leases : Interleaving.rest Task.leases rest = task.leases)
    (before : Outstanding s lease) : lease ∈ Interleaving.rest Task.leases rest ∨ (Outstanding s lease ∧ lease ∉ task.leases) := by
  by_cases mine : lease ∈ task.leases
  · left
    rw [leases]
    exact mine
  · exact .inr ⟨before,mine⟩

theorem acts_outstanding (acts : Acts setup input s task s' rest) (calm : Calm input s task) (sound : Sound setup s)
    {lease : LeaseId} (open' : Outstanding s' lease) :
    lease ∈ Interleaving.rest Task.leases rest ∨ (Outstanding s lease ∧ lease ∉ task.leases) := by
  cases acts with
  | quiet _ _ _ same passes => exact goes_outstanding passes.leases (same.outstanding open')
  | acquired lock =>
    rcases List.mem_append.mp open'.1 with old | new
    · exact .inr ⟨⟨old,open'.2⟩,Multiset.notMem_zero _⟩
    · rw [List.mem_singleton.mp new]
      exact .inl (Multiset.mem_singleton_self _)
  | started lock held => exact goes_outstanding rfl open'
  | registered lock held upstream =>
    have vacant := calm.vacant (.inr rfl)
    refine .inr ⟨⟨open'.1,fun entry found => ?_⟩,fun mine => ?_⟩
    · rw [vacant] at found
      cases found
    · exact open'.2 _ rfl (Option.mem_toList.mp mine)
  | stopped _ stops _ same _ leases idle => exact goes_outstanding leases (same.outstanding open')
  | released _ held holds _ same _ leases idle settles =>
    obtain ⟨there,apart⟩ := same.outstanding open'
    obtain ⟨old,different⟩ := List.mem_filter.mp there
    refine .inr ⟨⟨old,apart⟩,fun mine => ?_⟩
    rw [leases_of_lease holds,Multiset.mem_singleton] at mine
    simp [mine] at different
  | removed _ plain entry found _ takes idle =>
    by_cases its : entry.leaseId = some lease
    · left
      rw [(takes (sound.runs entry found).2).1,its]
      exact Multiset.mem_singleton_self _
    · refine .inr ⟨⟨open'.1,?_⟩,?_⟩
      · rw [found]
        rintro _ ⟨⟩
        exact its
      · unfold Task.leases
        rw [plain.1]
        exact Multiset.notMem_zero _
  | expired held => exact .inr ⟨⟨List.mem_of_mem_filter open'.1,open'.2⟩,Multiset.notMem_zero _⟩

/-- A task gets a lease that no other has: one that is new, or that of the service it has removed. -/
theorem acts_leases (acts : Acts setup input s task s' rest) (sound : Sound setup s) :
    Interleaving.rest Task.leases rest ≤ task.leases ∨ Interleaving.rest Task.leases rest ≤ {s.acquired} ∨
      ∃ entry ∈ s.entry, ∃ lease ∈ entry.leaseId, Interleaving.rest Task.leases rest ≤ {lease} := by
  cases acts with
  | quiet _ _ _ same passes => exact .inl passes.leases.le
  | acquired lock => exact .inr (.inl le_rfl)
  | started lock lease => exact .inl le_rfl
  | stopped _ stops _ same _ leases idle => exact .inl leases.le
  | released _ lease holds _ same _ leases idle settles => exact .inl (leases.le.trans (Multiset.zero_le _))
  | removed _ plain entry found _ takes idle =>
    have leases := (takes (sound.runs entry found).2).1
    cases held : entry.leaseId with
    | none =>
      rw [held] at leases
      exact .inl (leases.le.trans (Multiset.zero_le _))
    | some lease =>
      rw [held] at leases
      exact .inr (.inr ⟨entry,found,lease,held,leases.le⟩)
  | _ => exact .inl (Multiset.zero_le _)

end Duties

structure Kept (setup : Setup) (config : Config Shared Task) : Prop where
  holds : Holds (Sound setup) (Relies setup) config
  once : (owed Task.leases config).Nodup
  settled : Covered Unsettled Task.work config
  leased : Covered Outstanding Task.leases config

section Run
variable {setup : Setup} {config : Config Shared Task}

theorem Kept.fresh (kept : Kept setup config) : config.shared.acquired ∉ owed Task.leases config := by
  intro member
  obtain ⟨task,inside,mine⟩ := (mem_owed _ _ _).mp member
  exact absurd ((kept.holds.handlers task inside).leases _ mine).1 (lt_irrefl _)

theorem Kept.unshared (kept : Kept setup config) {entry : ServiceEntry} (found : entry ∈ config.shared.entry) {lease : LeaseId}
    (holds : lease ∈ entry.leaseId) : lease ∉ owed Task.leases config := by
  intro member
  obtain ⟨task,inside,mine⟩ := (mem_owed _ _ _).mp member
  exact ((kept.holds.handlers task inside).leases _ mine).2.2 entry found holds

theorem Kept.arrive (kept : Kept setup config) (request : Request) :
    Kept setup ((machine setup).step config (.arrive request)) := by
  refine ⟨?_,?_,covered_arrive _ request kept.settled,covered_arrive _ request kept.leased⟩
  · refine ⟨kept.holds.state,fun task member => ?_⟩
    rcases List.mem_append.mp member with old | new
    · exact kept.holds.handlers task old
    · rw [List.mem_singleton.mp new]
      exact ⟨nofun,nofun,nofun⟩
  · rw [owed_arrive]
    change (owed Task.leases config + (0 : Multiset LeaseId)).Nodup
    rw [add_zero]
    exact kept.once

theorem Kept.resume (kept : Kept setup config) (index : Nat) (input : Input) (undisturbed : Undisturbed config (.resume index input)) :
    Kept setup ((machine setup).step config (.resume index input)) := by
  cases found : config.inflight[index]? with
  | none => simpa only [Machine.step,found] using kept
  | some task =>
    have calm := (undisturbed task found).1
    have acts : Acts setup input config.shared task _ _ := advance_acts task calm
    have sound := kept.holds.state
    refine ⟨?_,?_,?_,?_⟩
    · have apart : ActingApart Calm (fun _ _ task other => (task.stops = true → other.started = false) ∧
          Disjoint task.leases other.leases) config (.resume index input : Event Request Input) := by
        intro task found
        obtain ⟨calm,apart⟩ := undisturbed task found
        exact ⟨calm,fun other member => ⟨apart other member,distinct_apart kept.once found member⟩⟩
      refine Holds.step_apart (fun s request _ => (by constructor <;> intros <;> contradiction)) ?_ ?_ config _ kept.holds apart
      · intro input s task calm sound relies
        have acts : Acts setup input s task _ _ := advance_acts task calm
        exact ⟨acts_sound acts calm sound relies,relies_next acts sound relies⟩
      · exact fun input s task other calm apart _ _ relied => Relies.apart (advance_acts task calm) apart.1 apart.2 relied
    · refine distinct_resume kept.once index input fun other same => ?_
      obtain rfl : task = other := Option.some.inj (found.symm.trans same)
      rcases acts_leases acts sound with less | new | ⟨entry,registered,lease,holds,its⟩
      · exact .inl less
      · exact .inr ⟨_,kept.fresh,new⟩
      · exact .inr ⟨lease,kept.unshared registered holds,its⟩
    · refine covered_resume _ input found kept.settled fun _ open' => ?_
      rcases acts_unsettled acts sound open' with goes | before
      · exact .inl goes
      · exact .inr (.inr before)
    · refine covered_resume _ input found kept.leased fun lease open' => ?_
      rcases acts_outstanding acts calm sound open' with goes | before
      · exact .inl goes
      · exact .inr (.inr before)

theorem Kept.step (kept : Kept setup config) (event : Event Request Input) (undisturbed : Undisturbed config event) :
    Kept setup ((machine setup).step config event) := by
  cases event with
  | arrive request => exact kept.arrive request
  | resume index input => exact kept.resume index input undisturbed

theorem Kept.quiet (kept : Kept setup config) : Quiet config := by
  intro empty
  obtain ⟨s,inflight⟩ := config
  cases empty
  have sound := kept.holds.state
  refine ⟨⟨fun registered => ?_,fun runs => ?_⟩,fun entry found lease holds => (sound.leased entry found lease holds).2,
    fun lease open' => ?_⟩
  · obtain ⟨entry,found⟩ := Option.isSome_iff_exists.mp registered
    exact (sound.runs entry found).1
  · cases registered : s.entry with
    | some entry => rfl
    | none => exact absurd (kept.settled () ⟨runs,registered⟩) (Multiset.notMem_zero _)
  · by_contra unheld
    refine absurd (kept.leased lease ⟨open',fun entry found holds => ?_⟩) (Multiset.notMem_zero _)
    exact unheld ⟨entry,found,holds⟩

theorem kept_idle (setup : Setup) : Kept setup idle := by
  refine ⟨⟨⟨nofun,nofun⟩,fun _ member => ?_⟩,Multiset.nodup_zero,fun _ open' => ?_,fun _ open' => ?_⟩
  · cases member
  · exact nomatch open'.1
  · exact nomatch open'.1

end Run

def actions (index count : Nat) : List (Event Request Input) := List.replicate count (.resume index {})

def reapedService : List (Event Request Input) :=
  .arrive .upstreamFor :: actions 0 10 ++ .arrive .reap :: actions 0 3 ++ .resume 0 { idle := true } :: actions 0 2

/-- The container that an invalidation is about to stop is taken over by a new start, and is stopped before that
registers its service. -/
def stoppedStart : List (Event Request Input) :=
  .arrive .upstreamFor :: actions 0 10 ++ .arrive .invalidate :: actions 0 2 ++ .arrive .upstreamFor :: actions 1 9 ++
    actions 0 2 ++ actions 0 1

end GrassWorker.SsrRegistry
