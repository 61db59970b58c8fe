import GrassWorker.Node.SsrManager

/-! One start at a time: the tasks that start a service of one deployment exclude each
other as long as they wait for the same lock. -/
namespace GrassWorker.Ssr
open Interleaving Runs

def Task.clones : Task → List Clone
  | .waiting deployment lock => [(deployment,lock)]
  | .guarding _ taken remaining => taken ++ remaining
  | task => task.held

def Task.reconciles : Task → Bool
  | .guarding .. | .evicting .. | .stopping _ | .forgetting _ | .dropping _ => true
  | _ => false

/-- The tasks that are meant: the calls of `upstream_for`, or the reconciliations as well. -/
def Task.counts (everyone : Bool) (task : Task) : Bool := everyone || !task.reconciles

def Task.holds (deployment : Uuid) (task : Task) : Bool := task.held.any fun clone => clone.1 = deployment

def Exclusive (everyone : Bool) (config : Config SsrManager Task) : Prop :=
  ∀ deployment, (config.inflight.filter fun task => task.counts everyone && task.holds deployment).length ≤ 1

/-- A new start lock is created for a deployment only if no task has a clone of an older one. -/
def renewed (everyone : Bool) (config : Config SsrManager Task) : Event Request Input → Bool
  | .arrive _ => true
  | .resume index input =>
    match config.inflight[index]? with
    | some (.finding deployment) =>
      input.dropped || (config.shared.startLocks.lookup deployment).isSome ||
        config.inflight.all fun task => !task.counts everyone || task.clones.all fun clone => clone.1 ≠ deployment
    | _ => true

/-- The start locks and the clones of them that a task has next are old ones. -/
structure Follows (manager : SsrManager) (task : Task) (result : SsrManager × Option Task) : Prop where
  startLocks : ∀ deployment lock, result.1.startLocks.lookup deployment = some lock →
    manager.startLocks.lookup deployment = some lock
  clones : ∀ next, result.2 = some next → ∀ clone ∈ next.clones,
    manager.startLocks.lookup clone.1 = some clone.2 ∨ clone ∈ task.clones ∧ next.reconciles = task.reconciles

section Follows
variable {manager after : SsrManager} {task next : Task}

theorem Follows.ends (same : after.startLocks = manager.startLocks) : Follows manager task (after,none) where
  startLocks deployment lock found := by rwa [same] at found
  clones next impossible := by cases impossible

theorem Follows.goes (startLocks : ∀ deployment lock, after.startLocks.lookup deployment = some lock →
      manager.startLocks.lookup deployment = some lock)
    (clones : next.clones ⊆ task.clones) (same : next.reconciles = task.reconciles) :
    Follows manager task (after,some next) where
  startLocks := startLocks
  clones found into clone member := by
    cases into
    exact .inr ⟨clones member,same⟩

theorem Follows.acquire {lock : LockId} (clones : next.clones ⊆ task.clones) (same : next.reconciles = task.reconciles) :
    Follows manager task (acquire manager lock task next) := by
  unfold Ssr.acquire
  split
  · exact .goes (fun _ _ found => found) (List.Subset.refl _) rfl
  · exact .goes (fun _ _ found => found) clones same

theorem lookup_forget {startLocks : AList fun _ : Uuid => LockId} {clones : List Clone} {deployment : Uuid} {lock : LockId}
    (found : (clones.foldl forget startLocks).lookup deployment = some lock) : startLocks.lookup deployment = some lock := by
  induction clones generalizing startLocks with
  | nil => exact found
  | cons clone others ih =>
    have earlier := ih found
    unfold forget at earlier
    split at earlier
    · by_cases same : deployment = clone.1
      · rw [same,AList.lookup_erase] at earlier
        cases earlier
      · rwa [AList.lookup_erase_ne same] at earlier
    · exact earlier

theorem mem_staleStartLocks {input : Input} {routedHere : List Uuid} {clone : Clone}
    (member : clone ∈ staleStartLocks input manager routedHere) :
    manager.startLocks.lookup clone.1 = some clone.2 := by
  have listed : clone ∈ (manager.startLocks.entries.filter fun entry => entry.1 ∉ routedHere).map
      fun entry => (entry.1,entry.2) := by
    unfold staleStartLocks at member
    dsimp only at member
    split at member
    · rename_i arranged
      exact arranged.mem_iff.mp member
    · exact member
  obtain ⟨entry,inside,rfl⟩ := List.mem_map.mp listed
  exact AList.mem_lookup_iff.mpr (List.mem_of_mem_filter inside)

def Creates (input : Input) (manager : SsrManager) (task : Task) (deployment : Uuid) : Prop :=
  task = .finding deployment ∧ input.dropped = false ∧ manager.startLocks.lookup deployment = none

theorem advance_follows (input : Input) (runtime : Bool) (old : ¬∃ deployment, Creates input manager task deployment) :
    Follows manager task (advance input manager runtime task) := by
  have keeps : ∀ deployment lock, manager.startLocks.lookup deployment = some lock →
      manager.startLocks.lookup deployment = some lock := fun _ _ found => found
  unfold advance
  split
  · exact .ends rfl
  · rename_i kept
    cases task with
    | arrived request =>
      cases request with
      | upstreamFor deployment =>
        simp only [proceed,arrive]
        split
        · exact .ends rfl
        · exact .goes keeps (List.Subset.refl _) rfl
      | invalidate deployment => exact .ends rfl
      | reconcileRoutes routedHere =>
        simp only [proceed,arrive]
        split
        · refine ⟨keeps,?_⟩
          rintro next into clone member
          cases into
          exact .inl (mem_staleStartLocks member)
        · exact .ends rfl
    | finding deployment =>
      obtain ⟨lock,found⟩ : ∃ lock, manager.startLocks.lookup deployment = some lock := by
        by_contra missing
        exact old ⟨deployment,rfl,by simpa using kept,Option.eq_none_iff_forall_ne_some.mpr (not_exists.mp missing)⟩
      simp only [proceed,startLock,found]
      refine ⟨keeps,?_⟩
      rintro next into clone member
      cases into
      obtain rfl := List.mem_singleton.mp member
      exact .inl found
    | waiting deployment lock => exact .acquire (List.Subset.refl _) rfl
    | checking deployment lock =>
      simp only [proceed]
      split
      · exact .ends rfl
      · exact .goes keeps (List.Subset.refl _) rfl
    | starting deployment lock =>
      simp only [proceed]
      split
      · exact .goes keeps (List.Subset.refl _) rfl
      · exact .ends rfl
    | registering deployment lock upstream => exact .ends rfl
    | guarding routedHere taken remaining =>
      cases remaining with
      | nil => exact .goes keeps (List.subset_append_left _ _) rfl
      | cons clone remaining =>
        refine .acquire ?_ rfl
        simp [Task.clones]
    | evicting routedHere clones => exact .goes keeps (List.Subset.refl _) rfl
    | stopping clones =>
      simp only [proceed]
      split
      · exact .ends rfl
      · exact .goes keeps (List.Subset.refl _) rfl
    | forgetting clones => exact .goes (fun _ _ found => lookup_forget found) (List.Subset.refl _) rfl
    | dropping clones => exact .ends rfl

end Follows

/-- One lock is the start lock of each deployment, for the map and for every clone. -/
structure Agrees (everyone : Bool) (current : Uuid → LockId) (config : Config SsrManager Task) : Prop where
  startLocks : ∀ deployment lock, config.shared.startLocks.lookup deployment = some lock → current deployment = lock
  clones : ∀ task ∈ config.inflight, task.counts everyone → ∀ clone ∈ task.clones, current clone.1 = clone.2

section Run
variable {everyone runtime : Bool} {current : Uuid → LockId} {config : Config SsrManager Task}

theorem Agrees.follow {index : Nat} {input : Input} {task : Task} (agrees : Agrees everyone current config)
    (found : config.inflight[index]? = some task)
    (follows : Follows config.shared task (advance input config.shared runtime task)) :
    Agrees everyone current ((machine runtime).step config (.resume index input)) := by
  simp only [Machine.step,found]
  refine ⟨fun deployment lock present => agrees.startLocks deployment lock (follows.startLocks deployment lock present),?_⟩
  intro other member counted clone held
  rcases mem_settle member with old | into
  · exact agrees.clones other old counted clone held
  · rcases follows.clones other into clone held with present | ⟨earlier,same⟩
    · exact agrees.startLocks _ _ present
    · refine agrees.clones task (List.mem_of_getElem? found) ?_ clone earlier
      rwa [Task.counts,same] at counted

theorem Agrees.create {index : Nat} {input : Input} {deployment : Uuid} (agrees : Agrees everyone current config)
    (found : config.inflight[index]? = some (.finding deployment)) (kept : input.dropped = false)
    (missing : config.shared.startLocks.lookup deployment = none)
    (unused : ∀ task ∈ config.inflight, task.counts everyone → ∀ clone ∈ task.clones, clone.1 ≠ deployment) :
    Agrees everyone (Function.update current deployment config.shared.created)
      ((machine runtime).step config (.resume index input)) := by
  have created : (machine runtime).advance input config.shared (.finding deployment) =
      ({ config.shared with
          startLocks := config.shared.startLocks.insert deployment config.shared.created
          created := config.shared.created + 1 },some (.waiting deployment config.shared.created)) := by
    simp [machine,advance,kept,proceed,startLock,missing]
  simp only [Machine.step,found,created]
  refine ⟨?_,?_⟩
  · intro other lock present
    by_cases same : other = deployment
    · subst same
      rw [AList.lookup_insert] at present
      rw [Function.update_self]
      exact Option.some.inj present
    · rw [AList.lookup_insert_ne same] at present
      rw [Function.update_of_ne same]
      exact agrees.startLocks other lock present
  · intro task member counted clone held
    have member : task ∈ settle config.inflight index (some (.waiting deployment config.shared.created)) := member
    rcases mem_settle member with old | into
    · rw [Function.update_of_ne (unused task old counted clone held)]
      exact agrees.clones task old counted clone held
    · cases into
      obtain rfl := List.mem_singleton.mp held
      exact Function.update_self deployment config.shared.created current

theorem Agrees.step {event : Event Request Input} (agrees : Agrees everyone current config)
    (fresh : renewed everyone config event) : ∃ next, Agrees everyone next ((machine runtime).step config event) := by
  cases event with
  | arrive request =>
    refine ⟨current,agrees.startLocks,?_⟩
    intro task member
    rcases List.mem_append.mp member with old | new
    · exact agrees.clones task old
    · rw [List.mem_singleton.mp new]
      intro _ clone held
      cases held
  | resume index input =>
    cases found : config.inflight[index]? with
    | none => exact ⟨current,by simpa only [Machine.step,found] using agrees⟩
    | some task =>
      by_cases creates : ∃ deployment, Creates input config.shared task deployment
      · obtain ⟨deployment,rfl,kept,missing⟩ := creates
        refine ⟨_,agrees.create found kept missing ?_⟩
        intro other member counted clone held
        simp only [renewed,found,kept,missing,Option.isSome_none,Bool.false_or,List.all_eq_true] at fresh
        have unused := fresh other member
        simp only [counted,Bool.not_true,Bool.false_or,List.all_eq_true,decide_eq_true_eq] at unused
        exact unused clone held
      · exact ⟨current,agrees.follow found (advance_follows input runtime creates)⟩

theorem Task.mem_guards {task : Task} {clone : Clone} (held : clone ∈ task.held) : clone.2 ∈ task.guards :=
  Multiset.mem_coe.mpr (List.mem_map_of_mem held)

theorem Task.mem_clones {task : Task} {clone : Clone} (held : clone ∈ task.held) : clone ∈ task.clones := by
  cases task with
  | guarding routedHere taken remaining => exact List.mem_append_left _ held
  | waiting deployment lock => cases held
  | _ => exact held

theorem Agrees.exclusive (agrees : Agrees everyone current config)
    (guarded : Guarded Task.guards SsrManager.locked config) : Exclusive everyone config := by
  intro deployment
  refine guarded.alone (current deployment) _ ?_
  intro task member selected
  obtain ⟨counted,holds⟩ := Bool.and_eq_true_iff.mp selected
  obtain ⟨clone,held,same⟩ := List.any_eq_true.mp holds
  obtain rfl := of_decide_eq_true same
  rw [agrees.clones task member counted clone (Task.mem_clones held)]
  exact Task.mem_guards held

structure Serialized (everyone : Bool) (config : Config SsrManager Task) : Prop where
  guarded : Guarded Task.guards SsrManager.locked config
  agrees : ∃ current, Agrees everyone current config

theorem Serialized.step {event : Event Request Input} (serialized : Serialized everyone config)
    (fresh : renewed everyone config event) : Serialized everyone ((machine runtime).step config event) := by
  obtain ⟨guarded,current,agrees⟩ := serialized
  refine ⟨guarded.step (fun _ => rfl) ?_ ?_ event,agrees.step fresh⟩
  · exact fun input manager task held => advance_balanced input manager runtime task held
  · exact fun input manager task _ free => advance_free input manager runtime task free

theorem Serialized.exclusive (serialized : Serialized everyone config) : Exclusive everyone config := by
  obtain ⟨guarded,current,agrees⟩ := serialized
  exact agrees.exclusive guarded

theorem serialized_new (everyone : Bool) : Serialized everyone ⟨{},[]⟩ := by
  refine ⟨⟨rfl,Multiset.nodup_zero⟩,fun _ => 0,?_,?_⟩
  · intro deployment lock found
    cases found
  · intro task member
    cases member

theorem exclusive_run (everyone runtime : Bool) (events : List (Event Request Input))
    (meets : Along (machine runtime).step (fun config event => renewed everyone config event) ⟨{},[]⟩ events) :
    Throughout (machine runtime).step (Exclusive everyone) ⟨{},[]⟩ events :=
  throughout_of_invariant (fun _ _ serialized fresh => Serialized.step serialized fresh)
    (fun _ serialized => Serialized.exclusive serialized) _ events (serialized_new everyone) meets

/-- If a start lock is only created when no call waits for or holds an older one of its
deployment, one call at a time starts it; if no reconciliation has a clone of one either,
at most one of all tasks is between taking and releasing a start lock of the deployment. -/
theorem single_start (runtime : Bool) (events : List (Event Request Input)) :
    (Along (machine runtime).step (fun config event => renewed false config event) ⟨{},[]⟩ events →
      Throughout (machine runtime).step (Exclusive false) ⟨{},[]⟩ events) ∧
    (Along (machine runtime).step (fun config event => renewed true config event) ⟨{},[]⟩ events →
      Throughout (machine runtime).step (Exclusive true) ⟨{},[]⟩ events) :=
  ⟨exclusive_run false runtime events,exclusive_run true runtime events⟩

end Run

def resumeTwice (index : Nat) : List (Event Request Input) := [.resume index {},.resume index {}]

/-- Two requests for one deployment; the second waits until the service runs. -/
def twoRequests : List (Event Request Input) :=
  .arrive (.upstreamFor 7) :: .arrive (.upstreamFor 7) :: (resumeTwice 0 ++ resumeTwice 1 ++ resumeTwice 0 ++
    resumeTwice 1 ++ [.resume 0 { started := some "http://upstream" },.resume 0 {}] ++ resumeTwice 0 ++
    [.arrive (.reconcileRoutes []),.resume 0 {}] ++ resumeTwice 0 ++ resumeTwice 0 ++ resumeTwice 0)

theorem single_start_of_two_requests :
    ((run (machine true).step ⟨{},[]⟩ twoRequests).shared.created = 1 ∧
      (run (machine true).step ⟨{},[]⟩ twoRequests).inflight = []) ∧
    Throughout (machine true).step (Exclusive false) ⟨{},[]⟩ twoRequests ∧
      Throughout (machine true).step (Exclusive true) ⟨{},[]⟩ twoRequests :=
  ⟨by decide,(single_start true twoRequests).1 (by decide),
    (single_start true twoRequests).2 (by decide +kernel)⟩

/-- A request waits for the lock a reconciliation holds; the reconciliation forgets that
lock before it releases it, and a second request takes a new one. -/
def forgottenLock : List (Event Request Input) :=
  .arrive (.upstreamFor 7) :: (resumeTwice 0 ++ [.arrive (.reconcileRoutes [])] ++ resumeTwice 1 ++ resumeTwice 1 ++
    resumeTwice 1 ++ [.resume 1 {},.arrive (.upstreamFor 7)] ++ resumeTwice 1 ++ resumeTwice 1 ++ resumeTwice 0)

theorem two_starts : ¬∀ (runtime : Bool) (events : List (Event Request Input)),
    Throughout (machine runtime).step (Exclusive false) ⟨{},[]⟩ events := by
  intro claimed
  have alone := (claimed true forgottenLock).last 7
  have starts : (run (machine true).step ⟨{},[]⟩ forgottenLock).inflight = [.starting 7 0,.starting 7 1] := by
    decide +kernel
  rw [starts] at alone
  revert alone
  decide

end GrassWorker.Ssr
