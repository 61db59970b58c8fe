import GrassWorker.ControlPlane.Calls

/-! The build queue: what a claim returns when nothing else is going on. The loop
over the oldest deployments stops at the first one whose team is deleted or has a
free build slot. -/
namespace GrassWorker.ControlPlane
open Interleaving Runs Transaction Deployments Handling

structure Runnable (world : World) (row : Deployment) : Prop where
  stored : row ∈ world.db.deployments.rows
  claimable : Claim.claimable row
  live : (Projects.teamById world.db row.teamId).isSome
  free : world.cache.mayAcquire row.teamId (Claim.slotLimit world.db row.teamId)

def stops (world : World) (row : Deployment) : Bool :=
  (Projects.teamById world.db row.teamId).isNone ||
    world.cache.mayAcquire row.teamId (Claim.slotLimit world.db row.teamId)

def Ended (world : World) (node : Uuid) (result : World × Option Answer) : Option Deployment → Prop
  | none => result = (world,some (.ok (.claim none)))
  | some row =>
    if (Projects.teamById world.db row.teamId).isNone then
      result = (world,some (.error (.notFound "team not found")))
    else ∃ after, result = (after,some (.ok (.claim (some row)))) ∧
      (after.db.deployments.find row.id).map (fun row => (row.buildStatus,row.buildNodeId)) = some (.claimed,some node)

section Loop
variable {world : World} {node : Uuid} {current : Node} {inputs : List Input}

theorem claim_succeeds (instant : Instant) {db : Database} {row : Deployment}
    (active : Claim.currentNode db node = some current) (member : row ∈ db.deployments.rows)
    (waiting : row.buildStatus = .pending) :
    Succeeds (Claim.claim instant node row) db fun outcome after => outcome = .claimed ∧
      (after.deployments.find row.id).map (fun row => (row.buildStatus,row.buildNodeId)) = some (.claimed,some node) := by
  have found : db.deployments.find row.id = some row := Table.find_of_mem member
  unfold Claim.claim
  simp only [succeeds_bind,succeeds_get]
  rw [active,found]
  simp only [Option.isNone_some,Bool.false_eq_true,if_false,Option.filter,waiting,decide_true,if_true]
  simp only [succeeds_bind,ofDb,succeeds_mapError,succeeds_appendEvent,succeeds_pure]
  refine (updateDeployment_succeeds found (List.Sublist.refl _)).mono ?_
  intro updated after wrote
  obtain ⟨_,present,same,stored⟩ := wrote.row
  refine ⟨trivial,?_⟩
  rw [stored,← same]
  rfl

theorem claimTimeout_finishes (world : World) {row : Deployment} (others : List Deployment)
    (up : ∀ input ∈ inputs, input.Up) (active : Claim.currentNode world.db node = some current)
    (member : row ∈ world.db.deployments.rows) (waiting : row.buildStatus = .pending)
    (enough : 2 ≤ inputs.length) :
    ∃ after, finish inputs world (.resume (.claimTimeout node row others)) = (after,some (.ok (.claim (some row)))) ∧
      (after.db.deployments.find row.id).map (fun row => (row.buildStatus,row.buildNodeId)) = some (.claimed,some node) := by
  match inputs, enough with
  | first :: second :: inputs, _ =>
  have database := (up first (by simp)).database
  have database' := (up second (by simp)).database
  obtain ⟨outcome,after,committed,rfl,claimed⟩ :=
    claim_succeeds second.instant active member waiting
  have result : transact second (.claim node row) world.db = .ok (.claim .claimed,after) := by
    unfold transact
    rw [if_neg (by rw [database']; decide)]
    change (Claim.claim second.instant node row >>= fun outcome => pure (Reply.claim outcome)) world.db = _
    rw [bind_apply,committed]
    rfl
  refine ⟨{ world with db := after },?_,claimed⟩
  simp [advance,database,result,commitProgress,afterCommit,ControlPlane.committed]

theorem claimNext_finishes (up : ∀ input ∈ inputs, input.Up) (active : Claim.currentNode world.db node = some current)
    {candidates : List Deployment}
    (waiting : ∀ row ∈ candidates, row ∈ world.db.deployments.rows ∧ row.buildStatus = .pending)
    (enough : 3 * candidates.length + 3 ≤ inputs.length) :
    Ended world node (finish inputs world (.resume (.claimNext node candidates))) (candidates.find? (stops world)) := by
  induction candidates generalizing inputs with
  | nil =>
    obtain ⟨first,inputs,rfl⟩ := List.exists_cons_of_length_pos (l := inputs) (by omega)
    have database := (up first (List.mem_cons_self ..)).database
    simp [Ended,advance,read,claimNext,database]
  | cons row rest ih =>
    obtain ⟨first,inputs,rfl⟩ := List.exists_cons_of_length_pos (l := inputs) (by omega)
    obtain ⟨second,inputs,rfl⟩ := List.exists_cons_of_length_pos (l := inputs) (by simp only [List.length_cons] at enough; omega)
    obtain ⟨third,inputs,rfl⟩ := List.exists_cons_of_length_pos (l := inputs) (by simp only [List.length_cons] at enough; omega)
    have database := (up first (by simp)).database
    have database' := (up second (by simp)).database
    have cache := (up third (by simp)).cache
    have later : ∀ input ∈ inputs, input.Up := fun input member => up input (by simp [member])
    simp only [List.length_cons] at enough
    rw [List.find?_cons]
    cases team : Projects.teamById world.db row.teamId with
    | none =>
      simp [stops,team,Ended,advance,read,claimNext,database,Claim.teamFor,ofAnswer,failed]
    | some owner =>
      have limit : finish (first :: second :: third :: inputs) world (.resume (.claimNext node (row :: rest))) =
          finish (third :: inputs) world
            (.resume (.claimAcquire node row rest (Claim.slotLimit world.db row.teamId))) := by
        simp [advance,read,claimNext,database,database',Claim.teamFor,team,ofAnswer]
      rw [limit,finish_resume]
      cases free : world.cache.mayAcquire row.teamId (Claim.slotLimit world.db row.teamId) with
      | false =>
        have next := ih later (fun row member => waiting row (List.mem_cons_of_mem _ member)) (by omega)
        simpa [stops,team,free,advance,cache] using next
      | true =>
        obtain ⟨member,pending⟩ := waiting row (List.mem_cons_self ..)
        have taken := claimTimeout_finishes { world with cache := world.cache.acquireSlot row.teamId } rest later active member pending (by omega)
        simpa [stops,team,free,advance,cache,Ended] using taken

theorem claim_finishes (up : ∀ input ∈ inputs, input.Up) (found : world.db.nodes.find node = some current)
    (live : current.deletedAt = none) (active : current.status = .active) (builds : current.buildEnabled)
    {capacity : Nat} (some' : 0 < capacity) (enough : 35 ≤ inputs.length) :
    Ended world node (call inputs world (.node node (.claim capacity))) ((Claim.candidates world.db).find? (stops world)) := by
  match inputs, enough with
  | first :: second :: inputs, enough =>
  have database := (up second (by simp)).database
  have key : current.id = node := Table.find_key found
  have now : Claim.currentNode world.db node = some current := by
    simp [Claim.currentNode,found,live,active,builds]
  have known : authenticate world.db node = .ok current := authenticate_ok found live (by rw [active]; decide)
  have loop : call (first :: second :: inputs) world (.node node (.claim capacity)) =
      finish inputs world (.resume (.claimNext node (Claim.candidates world.db))) := by
    rw [call_node (up first (by simp)) known]
    simp [callNode,advance,read,database,claimRead,builds,active,Claim.canClaimNewBuild,key,Nat.ne_of_gt some']
  rw [loop]
  refine claimNext_finishes (fun input member => up input (by simp [member])) now ?_ ?_
  · intro row member
    obtain ⟨stored,claimable⟩ := candidates_mem member
    exact ⟨stored,(of_decide_eq_true claimable).1⟩
  · have short : (Claim.candidates world.db).length ≤ 10 := List.length_take_le ..
    simp only [List.length_cons] at enough
    omega

end Loop

/-! The queue serves the oldest deployment that may run. -/

/-- The claim succeeds and takes the oldest deployment that may run, if there is one. -/
def ServesOldest (inputs : List Input) (world : World) (node : Uuid) (capacity : Nat) : Prop :=
  ∃ after claimed, call inputs world (.node node (.claim capacity)) = (after,some (.ok (.claim claimed))) ∧
    ∀ row, Runnable world row → ∃ oldest, claimed = some oldest ∧ Runnable world oldest ∧
      (∀ other, Runnable world other → oldest.createdAt ≤ other.createdAt) ∧
      (after.db.deployments.find oldest.id).map (fun row => (row.buildStatus,row.buildNodeId)) = some (.claimed,some node)

/-- Among the ten oldest claimable deployments, the first whose team is deleted or has a free
slot is of a live team; if there is no such one, no deployment at all may run. -/
def Unobstructed (world : World) : Prop :=
  match (Claim.candidates world.db).find? (stops world) with
  | some row => (Projects.teamById world.db row.teamId).isSome
  | none => ∀ row, ¬Runnable world row

theorem Runnable.stops {world : World} {row : Deployment} (runnable : Runnable world row) : stops world row := by
  unfold ControlPlane.stops
  rw [runnable.free,Bool.or_true]

theorem oldest_of_candidates {world : World} {row other : Deployment}
    (found : (Claim.candidates world.db).find? (stops world) = some row) (runnable : Runnable world other) :
    row.createdAt ≤ other.createdAt := by
  let queue := (world.db.deployments.rows.filter Claim.claimable).insertionSort fun first second =>
    first.createdAt ≤ second.createdAt
  have sorted : queue.Pairwise fun first second => first.createdAt ≤ second.createdAt :=
    List.pairwise_insertionSort (fun first second : Deployment => first.createdAt ≤ second.createdAt) _
  have split : queue = Claim.candidates world.db ++ queue.drop 10 := (List.take_append_drop 10 queue).symm
  obtain ⟨_,earlier,later,candidates,passed⟩ := List.find?_eq_some_iff_append.mp found
  have queued : other ∈ queue := (List.mem_insertionSort _).mpr (List.mem_filter.mpr ⟨runnable.stored,runnable.claimable⟩)
  rw [split,candidates,List.append_assoc] at queued sorted
  rcases List.mem_append.mp queued with before | after
  · have skipped := passed other before
    rw [runnable.stops] at skipped
    cases skipped
  · have tail := (List.pairwise_append.mp sorted).2.1
    rcases List.mem_cons.mp after with rfl | behind
    · exact le_refl _
    · exact (List.pairwise_cons.mp tail).1 other behind

theorem serves_oldest_iff (inputs : List Input) (world : World) (node : Uuid) (current : Node) (capacity : Nat)
    (up : ∀ input ∈ inputs, input.Up) (enough : 35 ≤ inputs.length)
    (found : world.db.nodes.find node = some current) (live : current.deletedAt = none)
    (active : current.status = .active) (builds : current.buildEnabled) (some' : 0 < capacity) :
    ServesOldest inputs world node capacity ↔ Unobstructed world := by
  have ended := claim_finishes up found live active builds some' enough
  unfold Unobstructed
  cases stopped : (Claim.candidates world.db).find? (stops world) with
  | none =>
    rw [stopped] at ended
    have result : call inputs world (.node node (.claim capacity)) = (world,some (.ok (.claim none))) := ended
    constructor
    · rintro ⟨after,claimed,answered,serves⟩ row runnable
      rw [result] at answered
      cases answered
      obtain ⟨oldest,impossible,_⟩ := serves row runnable
      cases impossible
    · intro idle
      exact ⟨world,none,result,fun row runnable => absurd runnable (idle row)⟩
  | some row =>
    rw [stopped] at ended
    simp only [Ended] at ended
    split at ended
    · rename_i deleted
      constructor
      · rintro ⟨after,claimed,answered,_⟩
        rw [ended] at answered
        cases answered
      · intro team
        have team : (Projects.teamById world.db row.teamId).isSome := team
        rw [Option.isNone_iff_eq_none.mp deleted] at team
        cases team
    · rename_i team
      have team : (Projects.teamById world.db row.teamId).isSome := by simpa [Option.isSome_iff_ne_none] using team
      refine ⟨fun _ => team,fun _ => ?_⟩
      obtain ⟨after,result,claimed⟩ := ended
      refine ⟨after,some row,result,fun _ _ => ⟨row,rfl,?_,?_,claimed⟩⟩
      · obtain ⟨stored,claimable⟩ := candidates_mem (List.mem_of_find?_eq_some stopped)
        have stop := List.find?_some stopped
        refine ⟨stored,claimable,team,?_⟩
        unfold stops at stop
        simpa [Option.isSome_iff_ne_none.mp team] using stop
      · exact fun other runnable => oldest_of_candidates stopped runnable

section Examples
open Sample

def backlog : World where
  db := { database with
    teams := ⟨[{ id := 2 },{ id := 5 }],by decide,by decide⟩
    projects := ⟨[project,{ project with id := 6, teamId := 5 }],by decide,by decide⟩
    deployments := ⟨[deployment,{ deployment with id := 8, projectId := 6, teamId := 5, createdAt := 1 }],
      by decide,by decide⟩ }

def teamRemoved : List Happening :=
  .arrive (.project 3 (.delete 9)) :: steps 0 2 ++ .arrive (.direct ⟨.removeTeam 2 9,rfl⟩) :: steps 0 2

def healthy : List Input := List.replicate 35 {}

theorem healthy_up : ∀ input ∈ healthy, input.Up := by
  intro input member
  rw [List.eq_of_mem_replicate member]
  exact ⟨rfl,rfl,rfl⟩

theorem removed_team_blocks_queue : ¬ServesOldest healthy (run machine.step (idle backlog) teamRemoved).shared 7 1 := by
  rintro ⟨after,claimed,answered,_⟩
  have refused : (call healthy (run machine.step (idle backlog) teamRemoved).shared (.node 7 (.claim 1))).2 =
      some (.error (.notFound "team not found")) := by decide
  rw [answered] at refused
  cases refused

theorem serves_oldest_backlog : ServesOldest healthy backlog 7 1 := by
  have first : (Claim.candidates backlog.db).find? (stops backlog) = some deployment := by decide
  refine (serves_oldest_iff healthy backlog 7 Sample.node 1 healthy_up (by decide) (by decide) (by decide) (by decide)
    (by decide) (by decide)).mpr ?_
  unfold Unobstructed
  rw [first]
  decide

end Examples

end GrassWorker.ControlPlane
