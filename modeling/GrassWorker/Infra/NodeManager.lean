import GrassWorker.Entity
import GrassWorker.Foundations.Mutexes
import GrassWorker.Foundations.Obligations

/-! Supervision of the local node process. A request or a wake-up of a monitor is an action under the manager's
lock, and every child that was spawned is followed by a monitor of the generation it was spawned in. -/
namespace GrassWorker.NodeManager
open Interleaving Runs

def second : Int := 1000000

def rapidExitWindow : Int := 10 * second

def rapidExitLimit : Nat := 5

def maxBackoff : Int := 30 * second

inductive ProcessState
  | stopped | running | backoff | failed
deriving DecidableEq, Repr

structure ProcessStatus where
  state : ProcessState
  pid : Option Nat
  startedAt : Option Timestamp
  restartCount : Nat
  lastExitCode : Option Int
  lastExitAt : Option Timestamp
  message : Option String
deriving DecidableEq

structure ManagerInner where
  binary : String
  restartOnExit : Bool
  baseBackoff : Int
  child : Option Nat := none
  desiredRunning : Bool := false
  generation : Nat := 0
  state : ProcessState := .stopped
  pid : Option Nat := none
  startedAt : Option Timestamp := none
  restartCount : Nat := 0
  rapidExits : Nat := 0
  backoff : Int
  lastExitCode : Option Int := none
  lastExitAt : Option Timestamp := none
  message : Option String := none
deriving DecidableEq

inductive Life
  | running
  | exited (code : Option Int)
  | killed
deriving DecidableEq

def Life.tryWait : Life → Option (Option Int)
  | .running => none
  | .exited code => some code
  | .killed => some none

structure Shared where
  inner : ManagerInner
  processes : List Life := []
deriving DecidableEq

inductive Request
  | start | stop | restart | shutdown
  /-- A child exits by itself. -/
  | exits (pid : Nat) (code : Option Int)

inductive Handler
  | start | stop | restart | shutdown
  | exits (pid : Nat) (code : Option Int)
  | monitor (generation : Nat)
  | respawn (generation : Nat)
deriving DecidableEq

structure Input where
  now : Timestamp
  configExists : Bool := true
  spawnFails : Bool := false

def statusSnapshot (inner : ManagerInner) : ProcessStatus where
  state := inner.state
  pid := inner.pid
  startedAt := inner.startedAt
  restartCount := inner.restartCount
  lastExitCode := inner.lastExitCode
  lastExitAt := inner.lastExitAt
  message := inner.message

def debugCode : Option Int → String
  | none => "None"
  | some code => "Some(" ++ toString code ++ ")"

def spawnChild (s : Shared) (now : Timestamp) : Shared × Handler :=
  let pid := s.processes.length
  (⟨{ s.inner with child := some pid, pid := some pid, state := .running, startedAt := some now },s.processes ++ [.running]⟩,
    .monitor s.inner.generation)

def start (s : Shared) (input : Input) : Shared × Option Handler :=
  if s.inner.state = .running ∧ s.inner.child.isSome then (s,none)
  else if input.configExists = false then (s,none)
  else
    let renewed : Shared := { s with inner := { s.inner with
      desiredRunning := true
      generation := s.inner.generation + 1
      rapidExits := 0
      restartCount := 0
      backoff := s.inner.baseBackoff
      message := none } }
    if input.spawnFails then (renewed,none)
    else ((spawnChild renewed input.now).1,some (spawnChild renewed input.now).2)

/-- The child that is taken out of the manager is killed, if it has not exited. -/
def release (s : Shared) : List Life :=
  match s.inner.child with
  | some pid => s.processes.modify pid fun life => if life = .running then .killed else life
  | none => s.processes

def stop (s : Shared) : Shared where
  inner := { s.inner with
    desiredRunning := false
    generation := s.inner.generation + 1
    child := none
    state := .stopped
    pid := none
    message := some "stopped by administrator" }
  processes := release s

def shutdown (s : Shared) : Shared where
  inner := { s.inner with
    desiredRunning := false
    generation := s.inner.generation + 1
    child := none
    state := .stopped
    pid := none }
  processes := release s

def rapidExit (inner : ManagerInner) (now : Timestamp) : Bool := ∃ started ∈ inner.startedAt, now - started < rapidExitWindow

def reaped (inner : ManagerInner) (code : Option Int) (now : Timestamp) : ManagerInner :=
  { inner with
    child := none
    pid := none
    lastExitCode := code
    lastExitAt := some now
    rapidExits := if rapidExit inner now then inner.rapidExits + 1 else 0 }

def exited (s : Shared) (generation : Nat) (code : Option Int) (now : Timestamp) : Shared × Option Handler :=
  let inner := reaped s.inner code now
  if ¬(inner.desiredRunning ∧ inner.restartOnExit) then
    ({ s with inner := { inner with
      state := .stopped
      message := some ("process exited with code " ++ debugCode code) } },none)
  else if rapidExitLimit ≤ inner.rapidExits then
    ({ s with inner := { inner with
      state := .failed
      desiredRunning := false
      message := some "local node process keeps exiting immediately; check its configuration" } },none)
  else
    let delay := if rapidExit s.inner now then inner.backoff else inner.baseBackoff
    ({ s with inner := { inner with
      backoff := min (delay * 2) maxBackoff
      state := .backoff
      restartCount := inner.restartCount + 1
      message := some ("restarting after exit with code " ++ debugCode code) } },some (.respawn generation))

def advance (input : Input) (s : Shared) (handler : Handler) : Shared × Option Handler :=
  match handler with
  | .start => start s input
  | .stop => (stop s,none)
  | .restart => (stop s,some .start)
  | .shutdown => (shutdown s,none)
  | .exits pid code =>
    ({ s with processes := s.processes.modify pid fun life => if life = .running then .exited code else life },none)
  | .monitor generation =>
    if s.inner.generation ≠ generation then (s,none)
    else
      match s.inner.child with
      | none => (s,none)
      | some pid =>
        match (s.processes[pid]?).bind Life.tryWait with
        | none => (s,some handler)
        | some code => exited s generation code input.now
  | .respawn generation =>
    if s.inner.generation ≠ generation ∨ s.inner.desiredRunning = false then (s,none)
    else if input.spawnFails then
      ({ s with inner := { s.inner with
        state := .failed
        desiredRunning := false
        message := some ("failed to respawn local node: failed to spawn local node binary " ++ s.inner.binary) } },none)
    else ((spawnChild s input.now).1,some (spawnChild s input.now).2)

def enter : Request → Handler
  | .start => .start
  | .stop => .stop
  | .restart => .restart
  | .shutdown => .shutdown
  | .exits pid code => .exits pid code

def machine : Machine Shared Handler Request Input := ⟨enter,advance⟩

def initial (binary : String) (restartOnExit : Bool) (baseBackoff : Int) : Config Shared Handler :=
  ⟨⟨{ binary, restartOnExit, baseBackoff, backoff := baseBackoff },[]⟩,[]⟩

def Handler.generations : Handler → Multiset Nat
  | .monitor generation | .respawn generation => {generation}
  | _ => 0

def Handler.respawns : Handler → Multiset Nat
  | .respawn generation => {generation}
  | _ => 0

def Recovers (s : Shared) (handler : Handler) : Prop :=
  s.inner.generation ∈ handler.generations ∧
    ∀ input, (advance input s handler).1.inner.child.isSome ∨ (advance input s handler).1.inner.state ≠ .backoff

/-- No child that runs has been let go of, and what the status says is so: there is a child, or there will be one. -/
structure Supervised (config : Config Shared Handler) : Prop where
  released : ∀ pid, config.shared.processes[pid]? = some .running → config.shared.inner.child = some pid
  running : (statusSnapshot config.shared.inner).state = .running ↔ config.shared.inner.child.isSome
  recovers : (statusSnapshot config.shared.inner).state = .backoff → ∃ handler ∈ config.inflight, Recovers config.shared handler

def StartSpawns (input : Input) (s : Shared) (handler : Handler) : Prop :=
  handler = .start → s.inner.state = .backoff → input.configExists = true → input.spawnFails = false

instance (input : Input) (s : Shared) (handler : Handler) : Decidable (StartSpawns input s handler) :=
  inferInstanceAs (Decidable (_ → _ → _ → _))

inductive Acts (input : Input) (s : Shared) : Handler → Shared → Option Handler → Prop
  | ends (handler : Handler)
      (idle : ∀ generation ∈ handler.respawns, s.inner.generation ≠ generation ∨ s.inner.desiredRunning = false) :
      Acts input s handler s none
  | waits (generation : Nat) : Acts input s (.monitor generation) s (some (.monitor generation))
  | started (inner : ManagerInner) (free : ¬(s.inner.state = .running ∧ s.inner.child.isSome))
      (generation : inner.generation = s.inner.generation + 1) :
      Acts input s .start (spawnChild { s with inner } input.now).1 (some (.monitor inner.generation))
  | unspawned (inner : ManagerInner) (child : inner.child = s.inner.child) (state : inner.state = s.inner.state)
      (generation : inner.generation = s.inner.generation + 1) (desired : inner.desiredRunning = true)
      (fails : input.spawnFails = true) (there : input.configExists = true) : Acts input s .start { s with inner } none
  | stopped (handler : Handler) (inner : ManagerInner) (rest : Option Handler) (child : inner.child = none)
      (state : inner.state = .stopped) (generation : inner.generation = s.inner.generation + 1)
      (goes : rest = none ∨ rest = some .start) : Acts input s handler ⟨inner,release s⟩ rest
  | exits (pid : Nat) (code : Option Int) : Acts input s (.exits pid code)
      { s with processes := s.processes.modify pid fun life => if life = .running then .exited code else life } none
  | gone (inner : ManagerInner) (released : ∀ pid, s.processes[pid]? = some .running → s.inner.child ≠ some pid)
      (child : inner.child = none) (state : inner.state = .stopped ∨ inner.state = .failed)
      (generation : inner.generation = s.inner.generation) :
      Acts input s (.monitor s.inner.generation) { s with inner } none
  | waiting (inner : ManagerInner) (released : ∀ pid, s.processes[pid]? = some .running → s.inner.child ≠ some pid)
      (child : inner.child = none) (state : inner.state = .backoff) (desired : inner.desiredRunning = true)
      (generation : inner.generation = s.inner.generation) :
      Acts input s (.monitor s.inner.generation) { s with inner } (some (.respawn s.inner.generation))
  | respawned : Acts input s (.respawn s.inner.generation) (spawnChild s input.now).1 (some (.monitor s.inner.generation))
  | failed (inner : ManagerInner) (child : inner.child = s.inner.child) (state : inner.state = .failed)
      (generation : inner.generation = s.inner.generation) :
      Acts input s (.respawn s.inner.generation) { s with inner } none

section Acts
variable (input : Input) (s : Shared)

theorem exited_acts {pid : Nat} {code : Option Int} (held : s.inner.child = some pid)
    (ended : (s.processes[pid]?).bind Life.tryWait = some code) :
    Acts input s (.monitor s.inner.generation) (exited s s.inner.generation code input.now).1
      (exited s s.inner.generation code input.now).2 := by
  have released : ∀ other, s.processes[other]? = some .running → s.inner.child ≠ some other := by
    intro other runs same
    rw [held] at same
    cases same
    rw [runs] at ended
    cases ended
  unfold exited
  dsimp only
  split
  · exact .gone _ released rfl (.inl rfl) rfl
  · rename_i goes
    split
    · exact .gone _ released rfl (.inr rfl) rfl
    · exact .waiting _ released rfl rfl (not_not.mp goes).1 rfl

theorem advance_acts (handler : Handler) : Acts input s handler (advance input s handler).1 (advance input s handler).2 := by
  cases handler with
  | start =>
    simp only [advance,start]
    split
    · exact .ends _ nofun
    · rename_i free
      split
      · exact .ends _ nofun
      · rename_i there
        split
        · rename_i fails
          exact .unspawned _ rfl rfl rfl rfl fails (by simpa using there)
        · exact .started _ free rfl
  | stop => exact .stopped _ _ _ rfl rfl rfl (.inl rfl)
  | restart => exact .stopped _ _ _ rfl rfl rfl (.inr rfl)
  | shutdown => exact .stopped _ _ _ rfl rfl rfl (.inl rfl)
  | exits pid code => exact .exits pid code
  | monitor generation =>
    simp only [advance]
    split
    · exact .ends _ nofun
    · rename_i current
      obtain rfl := not_not.mp current
      split
      · exact .ends _ nofun
      · rename_i pid held
        split
        · exact .waits _
        · rename_i code ended
          exact exited_acts input s held ended
  | respawn generation =>
    simp only [advance]
    split
    · rename_i idle
      refine .ends _ fun other member => ?_
      rw [Multiset.mem_singleton.mp member]
      exact idle
    · rename_i goes
      obtain ⟨current,_⟩ := not_or.mp goes
      obtain rfl := not_not.mp current
      split
      · exact .failed _ rfl rfl rfl
      · exact .respawned

end Acts

structure Sound (s : Shared) : Prop where
  released : ∀ pid, s.processes[pid]? = some .running → s.inner.child = some pid
  running : s.inner.state = .running ↔ s.inner.child.isSome
  desired : s.inner.state = .backoff → s.inner.desiredRunning = true

def Bounded (s : Shared) (handler : Handler) : Prop := ∀ generation ∈ handler.generations, generation ≤ s.inner.generation

/-- A monitor that waits to spawn a child again waits as long as its generation is that of the manager. -/
def Waits (s : Shared) (handler : Handler) : Prop := s.inner.generation ∈ handler.respawns → s.inner.state = .backoff

section Step
variable {input : Input} {s s' : Shared} {handler other : Handler} {rest : Option Handler}

theorem acts_generation (acts : Acts input s handler s' rest) : s.inner.generation ≤ s'.inner.generation := by
  cases acts with
  | started _ _ generation | unspawned _ _ _ generation | stopped _ _ _ _ _ generation =>
    exact (Nat.le_succ _).trans_eq generation.symm
  | gone _ _ _ _ generation | waiting _ _ _ _ _ generation | failed _ _ _ generation => exact generation.symm.le
  | _ => exact le_rfl

theorem bounded_next (acts : Acts input s handler s' rest) (bounded : Bounded s handler) :
    ∀ next, rest = some next → Bounded s' next := by
  rintro next rfl
  cases acts with
  | waits => exact bounded
  | stopped _ _ _ _ _ _ goes =>
    obtain rfl : next = .start := by simpa using goes
    exact nofun
  | started inner free generation =>
    intro other member
    exact (Multiset.mem_singleton.mp member).le
  | waiting inner released child state desired generation =>
    intro other member
    rw [Multiset.mem_singleton.mp member]
    exact generation.symm.le
  | respawned =>
    intro other member
    exact (Multiset.mem_singleton.mp member).le

theorem acts_generations (acts : Acts input s handler s' rest) :
    Interleaving.rest Handler.generations rest ≤ handler.generations ∨
      Interleaving.rest Handler.generations rest ≤ {s.inner.generation + 1} := by
  cases acts with
  | stopped _ _ _ _ _ _ goes =>
    rcases goes with rfl | rfl
    · exact .inl (Multiset.zero_le _)
    · exact .inl (Multiset.zero_le _)
  | started inner free generation =>
    right
    rw [← generation]
    rfl
  | waits | waiting | respawned => exact .inl le_rfl
  | _ => exact .inl (Multiset.zero_le _)

theorem childless (sound : Sound s) (state : s.inner.state ≠ .running) : s.inner.child = none := by
  cases child : s.inner.child with
  | none => rfl
  | some pid =>
    have held : s.inner.child.isSome := by
      rw [child]
      rfl
    exact absurd (sound.running.mpr held) state

theorem sound_spawned (released : ∀ pid, s.processes[pid]? = some .running → s.inner.child = some pid)
    (child : s.inner.child = none) (inner : ManagerInner) (now : Timestamp) :
    Sound (spawnChild { s with inner } now).1 := by
  refine ⟨fun pid runs => ?_,?_,nofun⟩
  · change (s.processes ++ [Life.running])[pid]? = some .running at runs
    rw [List.getElem?_append] at runs
    split at runs
    · have old := released pid runs
      rw [child] at old
      cases old
    · rename_i beyond
      obtain ⟨inside,_⟩ := List.getElem?_eq_some_iff.mp runs
      have last : pid = s.processes.length := by
        rw [List.length_singleton] at inside
        omega
      rw [last]
      rfl
  · exact ⟨fun _ => rfl,fun _ => rfl⟩

theorem released_release (released : ∀ pid, s.processes[pid]? = some .running → s.inner.child = some pid) (pid : Nat) :
    (release s)[pid]? ≠ some .running := by
  intro runs
  unfold release at runs
  cases child : s.inner.child with
  | none =>
    rw [child] at runs
    have held := released pid runs
    rw [child] at held
    cases held
  | some held =>
    rw [child] at runs
    simp only [List.getElem?_modify] at runs
    obtain ⟨life,there,same⟩ := Option.map_eq_some_iff.mp runs
    split at same
    · split at same
      · cases same
      · rename_i ended
        exact ended same
    · rename_i different
      rw [same] at there
      have held := released pid there
      rw [child] at held
      exact different (Option.some.inj held)

theorem acts_sound (acts : Acts input s handler s' rest) (sound : Sound s) (waits : Waits s handler) : Sound s' := by
  cases acts with
  | ends | waits => exact sound
  | started inner free generation =>
    have idle : s.inner.state ≠ .running := fun running => free ⟨running,sound.running.mp running⟩
    exact sound_spawned sound.released (childless sound idle) inner input.now
  | unspawned inner child state generation desired fails there =>
    refine ⟨?_,?_,fun _ => desired⟩
    · rw [child]
      exact sound.released
    · rw [child,state]
      exact sound.running
  | stopped _ inner _ child state generation goes =>
    refine ⟨fun pid runs => absurd runs (released_release sound.released pid),?_,?_⟩
    · rw [child,state]
      exact ⟨nofun,nofun⟩
    · rw [state]
      exact nofun
  | exits pid code =>
    refine ⟨fun other runs => ?_,sound.running,sound.desired⟩
    simp only [List.getElem?_modify] at runs
    obtain ⟨life,there,same⟩ := Option.map_eq_some_iff.mp runs
    split at same
    · split at same
      · cases same
      · rename_i ended
        exact absurd same ended
    · rw [same] at there
      exact sound.released other there
  | gone inner released child state generation =>
    refine ⟨fun pid runs => absurd (sound.released pid runs) (released pid runs),?_,?_⟩
    · rw [child]
      rcases state with state | state <;>
      · rw [state]
        exact ⟨nofun,nofun⟩
    · rcases state with state | state <;>
      · rw [state]
        exact nofun
  | waiting inner released child state desired generation =>
    refine ⟨fun pid runs => absurd (sound.released pid runs) (released pid runs),?_,fun _ => desired⟩
    rw [child,state]
    exact ⟨nofun,nofun⟩
  | respawned =>
    have state : s.inner.state = .backoff := waits (Multiset.mem_singleton_self _)
    exact sound_spawned sound.released (childless sound (by rw [state]; exact nofun)) s.inner input.now
  | failed inner child state generation =>
    have before : s.inner.state = .backoff := waits (Multiset.mem_singleton_self _)
    have none' := childless sound (by rw [before]; exact nofun)
    refine ⟨?_,?_,?_⟩
    · rw [child]
      exact sound.released
    · rw [child,none',state]
      exact ⟨nofun,nofun⟩
    · rw [state]
      exact nofun

theorem waits_next (acts : Acts input s handler s' rest) (waits : Waits s handler) :
    ∀ next, rest = some next → Waits s' next := by
  rintro next rfl
  cases acts with
  | waits => exact waits
  | stopped _ _ _ _ _ _ goes =>
    obtain rfl : next = .start := by simpa using goes
    exact nofun
  | waiting inner released child state desired generation => exact fun _ => state
  | started | respawned => exact nofun

theorem Waits.apart (acts : Acts input s handler s' rest)
    (apart : Disjoint handler.generations other.generations) (bounded : Bounded s other) (waits : Waits s other) : Waits s' other := by
  have subset : ∀ generation ∈ other.respawns, generation ∈ other.generations := by
    intro generation member
    cases other with
    | respawn => exact member
    | _ => cases member
  intro member
  have newer : s'.inner.generation ≠ s.inner.generation + 1 := by
    intro next
    have old := bounded _ (subset _ member)
    rw [next] at old
    exact absurd old (Nat.not_succ_le_self _)
  have mine : s'.inner.generation = s.inner.generation → s.inner.generation ∈ handler.generations → False := by
    intro same held
    rw [same] at member
    exact Multiset.disjoint_left.mp apart held (subset _ member)
  cases acts with
  | ends | waits | exits => exact waits member
  | started _ _ generation | unspawned _ _ _ generation | stopped _ _ _ _ _ generation => exact absurd generation newer
  | gone _ _ _ _ generation | waiting _ _ _ _ _ generation => exact (mine generation (Multiset.mem_singleton_self _)).elim
  | respawned => exact (mine rfl (Multiset.mem_singleton_self _)).elim
  | failed _ _ _ generation => exact (mine generation (Multiset.mem_singleton_self _)).elim

end Step

structure Kept (config : Config Shared Handler) : Prop where
  holds : Holds Sound (fun s handler => Bounded s handler ∧ Waits s handler) config
  once : (owed Handler.generations config).Nodup

section Run
variable {config : Config Shared Handler}

theorem Kept.fresh (kept : Kept config) : config.shared.inner.generation + 1 ∉ owed Handler.generations config := by
  intro member
  obtain ⟨handler,inside,mine⟩ := (mem_owed _ _ _).mp member
  exact absurd ((kept.holds.handlers handler inside).1 _ mine) (Nat.not_succ_le_self _)

theorem Kept.step (kept : Kept config) (event : Event Request Input) : Kept (machine.step config event) := by
  refine ⟨?_,?_⟩
  · have apart : ActingApart (fun _ _ _ => True)
        (fun _ _ handler other => Disjoint handler.generations other.generations) config event := by
      cases event with
      | arrive request => trivial
      | resume index input => exact fun handler found => ⟨trivial,fun other member => distinct_apart kept.once found member⟩
    refine Holds.step_apart ?_ ?_ ?_ config event kept.holds apart
    · intro s request _
      cases request <;> exact ⟨nofun,nofun⟩
    · intro input s handler _ sound asserted
      have acts := advance_acts input s handler
      exact ⟨acts_sound acts sound asserted.2,
        fun next goes => ⟨bounded_next acts asserted.1 next goes,waits_next acts asserted.2 next goes⟩⟩
    · intro input s handler other _ apart sound _ asserted
      have acts := advance_acts input s handler
      exact ⟨fun generation member => (asserted.1 generation member).trans (acts_generation acts),
        Waits.apart acts apart asserted.1 asserted.2⟩
  · cases event with
    | arrive request =>
      rw [owed_arrive]
      have none' : (machine.enter request).generations = 0 := by
        cases request <;> rfl
      rw [none',add_zero]
      exact kept.once
    | resume index input =>
      refine distinct_resume kept.once index input fun handler member => ?_
      rcases acts_generations (advance_acts input config.shared handler) with less | new
      · exact .inl less
      · exact .inr ⟨_,kept.fresh,new⟩

/-- In a backoff there is a child to be spawned, in the generation of the manager. -/
def Due (s : Shared) (generation : Nat) : Prop := s.inner.state = .backoff ∧ generation = s.inner.generation

theorem due_acts {input : Input} {s s' : Shared} {handler : Handler} {rest : Option Handler}
    (acts : Acts input s handler s' rest) (sound : Sound s) (spawns : StartSpawns input s handler) (generation : Nat)
    (due : Due s' generation) :
    generation ∈ Interleaving.rest Handler.respawns rest ∨ (Due s generation ∧ generation ∉ handler.respawns) := by
  obtain ⟨backoff,rfl⟩ := due
  cases acts with
  | ends _ idle =>
    refine .inr ⟨⟨backoff,rfl⟩,fun mine => ?_⟩
    rcases idle _ mine with other | undesired
    · exact other rfl
    · rw [sound.desired backoff] at undesired
      cases undesired
  | waits | exits => exact .inr ⟨⟨backoff,rfl⟩,Multiset.notMem_zero _⟩
  | started => cases backoff
  | unspawned inner child state newer desired fails there =>
    rw [state] at backoff
    rw [spawns rfl backoff there] at fails
    cases fails
  | stopped _ inner _ child state =>
    rw [state] at backoff
    cases backoff
  | gone inner released child state =>
    rcases state with state | state <;>
    · rw [state] at backoff
      cases backoff
  | waiting inner released child state desired same =>
    left
    change inner.generation ∈ _
    rw [same]
    exact Multiset.mem_singleton_self _
  | respawned => cases backoff
  | failed inner child state =>
    rw [state] at backoff
    cases backoff

theorem covered_step (kept : Kept config) (covered : Covered Due Handler.respawns config) (event : Event Request Input)
    (spawns : Acting StartSpawns config event) : Covered Due Handler.respawns (machine.step config event) := by
  cases event with
  | arrive request => exact covered_arrive machine request covered
  | resume index input =>
    cases found : config.inflight[index]? with
    | none => simpa only [Machine.step,found] using covered
    | some handler =>
      refine covered_resume machine input found covered fun generation due => ?_
      rcases due_acts (advance_acts input config.shared handler) kept.holds.state (spawns handler found) generation due with
        goes | before
      · exact .inl goes
      · exact .inr (.inr before)

theorem recovers_of_respawns {s : Shared} {handler : Handler} (sound : Sound s) (backoff : s.inner.state = .backoff)
    (mine : s.inner.generation ∈ handler.respawns) : Recovers s handler := by
  cases handler with
  | respawn generation =>
    obtain rfl := Multiset.mem_singleton.mp mine
    refine ⟨Multiset.mem_singleton_self _,fun input => ?_⟩
    have goes : ¬(s.inner.generation ≠ s.inner.generation ∨ s.inner.desiredRunning = false) := by
      rw [sound.desired backoff]
      simp
    simp only [advance,if_neg goes]
    split
    · exact .inr nofun
    · exact .inl rfl
  | _ => cases mine

theorem Kept.supervised (kept : Kept config) (covered : Covered Due Handler.respawns config) : Supervised config := by
  refine ⟨kept.holds.state.released,kept.holds.state.running,fun backoff => ?_⟩
  obtain ⟨handler,inside,mine⟩ := (mem_owed _ _ _).mp (covered _ ⟨backoff,rfl⟩)
  exact ⟨handler,inside,recovers_of_respawns kept.holds.state backoff mine⟩

theorem Kept.spawns (kept : Kept config) (event : Event Request Input) (supervised : Supervised (machine.step config event)) :
    Acting StartSpawns config event := by
  cases event with
  | arrive request => trivial
  | resume index input =>
    rintro handler found rfl backoff there
    by_contra fails
    have free : ¬(config.shared.inner.state = .running ∧ config.shared.inner.child.isSome) := by
      rw [backoff]
      exact fun both => nomatch both.1
    have recovers := supervised.recovers
    simp only [Machine.step,found,machine,advance,start,if_neg free,there] at recovers
    rw [if_neg (by simp),if_pos (by simpa using fails)] at recovers
    obtain ⟨other,member,newer,_⟩ := recovers backoff
    have old := (kept.holds.handlers other (List.mem_of_mem_eraseIdx member)).1 _ newer
    exact absurd old (Nat.not_succ_le_self _)

theorem kept_initial (binary : String) (restartOnExit : Bool) (baseBackoff : Int) :
    Kept (initial binary restartOnExit baseBackoff) := by
  refine ⟨⟨⟨fun pid runs => ?_,⟨nofun,nofun⟩,nofun⟩,fun _ member => ?_⟩,Multiset.nodup_zero⟩
  · cases runs
  · cases member

end Run

/-- In every run at most one process of the manager runs, and the status says running exactly if it holds a child. -/
theorem one_child_runs (binary : String) (restartOnExit : Bool) (baseBackoff : Int) (events : List (Event Request Input)) :
    Throughout machine.step (fun config : Config Shared Handler => (∀ first second : Nat, config.shared.processes[first]? = some .running →
        config.shared.processes[second]? = some .running → first = second) ∧
      (config.shared.inner.state = .running ↔ config.shared.inner.child.isSome))
      (initial binary restartOnExit baseBackoff) events := by
  have kept : ∀ config event, Kept config → True → Kept (machine.step config event) := fun config event kept _ => kept.step event
  refine throughout_of_invariant kept (fun config kept => ?_) _ events (kept_initial binary restartOnExit baseBackoff)
    (along_true _ events)
  refine ⟨fun first second one two => ?_,kept.holds.state.running⟩
  exact Option.some.inj ((kept.holds.state.released first one).symm.trans (kept.holds.state.released second two))

/-- A manager supervises its child throughout a run if and only if no start fails to spawn during a backoff. -/
theorem supervised_iff_starts_spawn (binary : String) (restartOnExit : Bool) (baseBackoff : Int)
    (events : List (Event Request Input)) :
    Throughout machine.step Supervised (initial binary restartOnExit baseBackoff) events ↔
      Along machine.step (Acting StartSpawns) (initial binary restartOnExit baseBackoff) events := by
  have start := kept_initial binary restartOnExit baseBackoff
  constructor
  · intro throughout
    exact along_of_invariant (fun config event kept _ => kept.step event) (fun config event kept => kept.spawns event)
      _ events start throughout.2
  · intro spawns
    have kept : ∀ config event, (Kept config ∧ Covered Due Handler.respawns config) → Acting StartSpawns config event →
        Kept (machine.step config event) ∧ Covered Due Handler.respawns (machine.step config event) :=
      fun config event both spawns => ⟨both.1.step event,covered_step both.1 both.2 event spawns⟩
    exact throughout_of_invariant kept (fun config both => both.1.supervised both.2) _ events
      ⟨start,fun _ due => nomatch due.1⟩ spawns

/-- The child exits, the monitor waits to spawn it again, and a start finds that the binary is gone. -/
def failedStart : List (Event Request Input) :=
  [.arrive .start,.resume 0 { now := 0 },.arrive (.exits 0 (some 1)),.resume 1 { now := 1 },.resume 0 { now := 2 },
    .arrive .start,.resume 1 { now := 3, spawnFails := true },.resume 0 { now := 4 }]

theorem failed_start_strands_backoff :
    ¬Throughout machine.step Supervised (initial "grass-node" true second) failedStart := by
  intro throughout
  have final := throughout.last
  have stranded : (run machine.step (initial "grass-node" true second) failedStart).inflight = [] ∧
      (run machine.step (initial "grass-node" true second) failedStart).shared.inner.state = .backoff := by
    decide
  obtain ⟨handler,member,_⟩ := final.recovers stranded.2
  rw [stranded.1] at member
  cases member

end GrassWorker.NodeManager
