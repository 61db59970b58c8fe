import GrassWorker.ControlPlane.Calls

/-! The build job of a node: its pipeline, the reports it sends on the way and the
terminal report at its end. A report that fails does not stop the build. -/
namespace GrassWorker.BuildJob
open ControlPlane Stage Transaction Deployments

structure BuildFailure where
  code : String
  message : String
deriving DecidableEq, Repr

/-- What becomes of a call: it fails before its transaction, or it is handled, in
which case the answer may still be lost. -/
inductive Delivery
  | lost
  | handled (instant : Instant) (answered : Bool)
deriving DecidableEq

def Delivery.isHandled : Delivery → Bool
  | .lost => false
  | .handled _ _ => true

/-- What a node does to its control plane: the calls it makes, and whether it was told to stop. -/
structure Link where
  world : World
  canceled : Bool := false

inductive PipelineStep
  | report (status : Option ReportedStatus) (stage : String) (delivery : Delivery)
  | poll (delivery : Delivery)
  | work (result : Option BuildFailure)
  /-- The container run, which heeds a cancellation. -/
  | container (result : Option BuildFailure)
deriving DecidableEq

def runtimeValue : ProjectRuntime → String
  | .static => "static"
  | .ssr => "ssr"
  | .hybrid => "hybrid"
  | .serverless => "serverless"
  | .edge => "edge"

/-- One job: the deployment it was given, what becomes of its calls and what its work comes to. -/
structure Job where
  node : Uuid
  deployment : Uuid
  runtimeKind : ProjectRuntime
  queued : Delivery
  building : Delivery
  checkedOut : Option BuildFailure
  buildStage : Delivery
  built : Option BuildFailure
  outputStage : Delivery
  generated : Option BuildFailure
  archiveStage : Delivery
  packed : Option BuildFailure
  uploadStage : Delivery
  uploaded : Option BuildFailure
  /-- The cancel polls before each step of the pipeline. -/
  polls : Nat → List Delivery

/-- `report_stage`: what the call leaves behind and the answer the node gets. -/
def Job.reportStage (job : Job) (world : World) (request : StageRequest) : Delivery → World × Option Answer
  | .lost => (world,none)
  | .handled instant answered =>
    let (after,answer) := call (List.replicate 8 { instant }) world (.node job.node (.stage job.deployment request))
    (after,if answered then answer else none)

def cancelRequested : Option Answer → Bool
  | some (.ok (.stage requested)) => requested
  | _ => false

def canceled : BuildFailure := ⟨"canceled","build canceled by user"⟩

def Job.runtimeFailure (job : Job) : Option BuildFailure :=
  if job.runtimeKind ≠ .static ∧ job.runtimeKind ≠ .ssr then
    some ⟨"runtime_not_implemented",runtimeValue job.runtimeKind ++ " runtime is not implemented yet"⟩
  else none

/-- `run_pipeline` up to the report of the checkout. -/
def Job.opening (job : Job) : List PipelineStep :=
  [.work job.runtimeFailure,.report (some .queued) "queued" job.queued,.report (some .building) "checkout" job.building]

/-- The rest of `run_pipeline`, of which the reports name the stage only. -/
def Job.closing (job : Job) : List PipelineStep :=
  [.work job.checkedOut,.report none "build" job.buildStage,.container job.built,.report none "output" job.outputStage,
    .work job.generated,.report none "archive" job.archiveStage,.work job.packed,.report none "upload" job.uploadStage,
    .work job.uploaded]

def withPolls (polls : Nat → List Delivery) : Nat → List PipelineStep → List PipelineStep
  | _,[] => []
  | i,step :: rest => (polls i).map .poll ++ step :: withPolls polls (i + 1) rest

def Job.runPipeline (job : Job) : List PipelineStep → Link → Option BuildFailure × Link
  | [],link => (none,link)
  | .report status stage delivery :: rest,link =>
    let (world,answer) := job.reportStage link.world { status, stage := some stage } delivery
    if cancelRequested answer then (some canceled,{ link with world })
    else job.runPipeline rest { link with world }
  | .poll delivery :: rest,link =>
    let (world,answer) := job.reportStage link.world { status := none } delivery
    job.runPipeline rest ⟨world,link.canceled || cancelRequested answer⟩
  | .work result :: rest,link =>
    match result with
    | some failure => (some failure,link)
    | none => job.runPipeline rest link
  | .container result :: rest,link =>
    match if link.canceled then some canceled else result with
    | some failure => (some failure,link)
    | none => job.runPipeline rest link

def outcome : Option BuildFailure → ReportedStatus
  | none => .ready
  | some failure => if failure.code = "canceled" then .canceled else .failed

def terminalReport (failure : Option BuildFailure) : StageRequest where
  status := some (outcome failure)
  failureCode := failure.map BuildFailure.code
  failureMessage := failure.map BuildFailure.message

/-- `run_build_job`, with a terminal report that reaches the control plane. -/
def Job.runBuildJob (job : Job) (world : World) (instant : Instant) : World × Option Answer :=
  let (failure,link) := job.runPipeline (withPolls job.polls 0 (job.opening ++ job.closing)) { world }
  job.reportStage link.world (terminalReport failure) (.handled instant true)

def PipelineStep.failure : PipelineStep → Option BuildFailure
  | .work result | .container result => result
  | .report _ _ _ | .poll _ => none

def Job.failure (job : Job) : Option BuildFailure := (job.opening ++ job.closing).findSome? PipelineStep.failure

/-! A job that nobody cancels. -/

def OnlyBuilds (db after : Database) : Prop :=
  after = { db with deployments := after.deployments, events := after.events, audit := after.audit }

def early (status : BuildStatus) : Prop := status = .claimed ∨ status = .queued

structure Following (job : Job) (start : Database) (reached : BuildStatus → Prop) (world : World) : Prop where
  row : ∃ row, getByIdForUpdate world.db job.deployment = some row ∧ row.buildNodeId = some job.node ∧
    reached row.buildStatus ∧ (reviewPolicyForTeam start row.teamId).isSome
  only : OnlyBuilds start world.db
  unflagged : world.cache (.cancelFlag job.deployment) = none

theorem OnlyBuilds.trans {db middle after : Database} (first : OnlyBuilds db middle) (second : OnlyBuilds middle after) :
    OnlyBuilds db after := by
  unfold OnlyBuilds at *
  rw [second,first]

theorem OnlyBuilds.of_quiet {db middle after : Database} (first : OnlyDeployments db middle) (second : Quiet middle after) :
    OnlyBuilds db after := by
  have first : middle = _ := first
  have second := second.same
  unfold OnlyBuilds
  rw [second,first]

section Reports
variable {instant : Instant} {db after : Database} {owned : OwnedDeployment} {body : StageRequest}

def underway (body : StageRequest) : Prop :=
  body.status = none ∨ body.status = some .queued ∨ body.status = some .building

theorem stageAction_only (goes : underway body) :
    Ensures ((stageAction owned body).run instant) db fun _ after => OnlyBuilds db after := by
  obtain ⟨status,stage,code,message⟩ := body
  have started (status : ReportedStatus) (early : status = .queued ∨ status = .building) (body : StageRequest) :
      Ensures (Stage.report instant owned.node owned.row status body) db fun _ after => OnlyBuilds db after := by
    unfold Stage.report
    simp only [ensures_bind,ensures_pure]
    have applied : Ensures (applyReport instant owned.row
        { target := status.target, stage := body.stage, failureCode := body.failureCode
          failureMessage := body.failureMessage, buildNodeId := some owned.node }) db
        fun _ middle => OnlyDeployments db middle := by
      unfold applyReport
      rcases early with rfl | rfl <;>
        simp only [ReportedStatus.target,ensures_bind,Handling.ensures_ofState,ensures_pure] <;>
        exact transitionBuild_ensures.mono fun _ _ both => both.2.rest
    refine applied.mono fun _ middle only => ?_
    refine (auditWhen_quiet (by decide)).mono fun _ first one => ?_
    refine (auditWhen_quiet (by decide)).mono fun _ second two => ?_
    exact (auditWhen_quiet (by decide)).mono fun _ third three => .of_quiet only ((one.trans two).trans three)
  rcases goes with rfl | rfl | rfl
  · simp only [stageAction,Action.run,ensures_acknowledge]
    cases stage with
    | none =>
      rw [Stage.progress,ensures_pure]
      exact .of_quiet (OnlyDeployments.refl db) (Quiet.refl db)
    | some stage =>
      simp only [Stage.progress,ensures_bind,Handling.ensures_ofDb,ensures_pure]
      exact updateStage_ensures.mono fun _ after wrote => .of_quiet wrote.rest (Quiet.refl after)
  · simp only [stageAction,Action.run,ensures_bind,ensures_pure]
    exact started .queued (.inl rfl) _
  · simp only [stageAction,Action.run,ensures_bind,ensures_pure]
    exact started .building (.inr rfl) _

theorem stageAction_target : (stageAction owned body).target = some owned.row.id := by
  unfold stageAction
  cases body.status <;> rfl

theorem stageAction_build {mode : Option ReviewMode} {lifecycle next : Lifecycle} {reply : Reply}
    (step : Step mode lifecycle (stageAction owned body) reply next) :
    next.builder = lifecycle.builder ∧
      next.build = match body.status with
        | none => lifecycle.build
        | some status => status.target := by
  unfold stageAction at step
  cases sent : body.status with
  | none =>
    rw [sent] at step
    cases step
    exact ⟨rfl,rfl⟩
  | some status =>
    rw [sent] at step
    cases step <;> exact ⟨rfl,rfl⟩

theorem stageAction_row {reply : Reply} (found : db.deployments.find owned.row.id = some owned.row)
    (result : (stageAction owned body).run instant db = .ok (reply,after)) :
    ∃ next, after.deployments.find owned.row.id = some next ∧ next.identity = owned.row.identity ∧
      next.buildNodeId = owned.row.buildNodeId ∧ next.buildStatus = match body.status with
        | none => owned.row.buildStatus
        | some status => status.target := by
  obtain ⟨demoted,effect⟩ := commits instant _ db reply after result
  obtain ⟨next,mid,reached,identity,step,settles⟩ := effect.target_row found stageAction_target
  obtain ⟨builder,build⟩ := stageAction_build step
  refine ⟨next,reached,identity,?_,?_⟩
  · have same : next.lifecycle.builder = mid.builder := by rcases settles with same | ⟨_,_,same⟩ <;> rw [same]
    exact same.trans builder
  · have same : next.lifecycle.build = mid.build := by rcases settles with same | ⟨_,_,same⟩ <;> rw [same]
    exact same.trans build

end Reports

section Calls
variable {job : Job} {node : Node} {start : Database} {reached : BuildStatus → Prop} {world : World}
  {instant : Instant} {answered : Bool} {body : StageRequest}

/-- A handled report of the job: its transaction decides what is left behind and what is answered. -/
theorem Following.handled (following : Following job start reached world) (instant : Instant) (answered : Bool)
    (body : StageRequest)
    (known : authenticate start job.node = .ok node) (uncanceled : ¬reached .canceled) :
    ∃ owned after, getByIdForUpdate world.db job.deployment = some owned.row ∧ owned.row.buildNodeId = some job.node ∧
      reached owned.row.buildStatus ∧ (reviewPolicyForTeam start owned.row.teamId).isSome ∧
      owned.row.id = job.deployment ∧
      job.reportStage world body (.handled instant answered) =
        (after,if answered then some (stageAnswer ((stageAction owned body).run instant world.db)) else none) ∧
      after.db = committed world.db ((stageAction owned body).run instant world.db) ∧
      after.cache (.cancelFlag job.deployment) = none := by
  obtain ⟨row,current,builder,status,governed⟩ := following.row
  have key : row.id = job.deployment := Delivery.locked_id current
  have known : authenticate world.db job.node = .ok node := by
    rw [following.only]
    exact known
  have named : node.id = job.node := by
    unfold authenticate at known
    split at known
    · cases known
    · rename_i found
      split at known
      · cases known
      · cases known
        exact Table.find_key (Option.filter_eq_some_iff.mp found).1
  let owned : OwnedDeployment := ⟨job.node,row,builder⟩
  have owns : buildOwnedDeployment world.db node.id job.deployment = .ok owned := by
    have current : getById world.db job.deployment = some row := current
    unfold buildOwnedDeployment
    rw [current,named]
    exact dif_pos builder
  have up : ({ instant } : Input).Up := ⟨rfl,rfl,rfl⟩
  obtain ⟨after,ends,only⟩ := stage_finishes owned body up known owns
    (fun canceled => uncanceled (canceled ▸ status)) (by rw [show owned.row.id = job.deployment from key]; exact following.unflagged)
  refine ⟨owned,after,current,builder,status,governed,key,?_,only.database,?_⟩
  · unfold Job.reportStage
    simp only [ends]
    rfl
  · rw [only.flags]
    exact following.unflagged

theorem Following.mono {reached' : BuildStatus → Prop} (following : Following job start reached world)
    (weaker : ∀ status, reached status → reached' status) : Following job start reached' world := by
  obtain ⟨⟨row,current,builder,status,governed⟩,only,unflagged⟩ := following
  exact ⟨⟨row,current,builder,weaker _ status,governed⟩,only,unflagged⟩

theorem Following.committed {owned : OwnedDeployment} {reply : Reply} {db : Database} {after : World}
    (following : Following job start reached world) (current : getByIdForUpdate world.db job.deployment = some owned.row)
    (builder : owned.row.buildNodeId = some job.node) (governed : (reviewPolicyForTeam start owned.row.teamId).isSome)
    (goes : underway body)
    (result : (stageAction owned body).run instant world.db = .ok (reply,db)) (database : after.db = db)
    (unflagged : after.cache (.cancelFlag job.deployment) = none) :
    Following job start (fun status => status = match body.status with
      | none => owned.row.buildStatus
      | some sent => sent.target) after := by
  have key : owned.row.id = job.deployment := Delivery.locked_id current
  obtain ⟨found,live⟩ := getByIdForUpdate_eq_some.mp current
  rw [← key] at found
  obtain ⟨next,stored,identity,same,status⟩ := stageAction_row found result
  have team : next.teamId = owned.row.teamId := congrArg Identity.team identity
  refine ⟨⟨next,?_,same.trans builder,status,by rw [team]; exact governed⟩,?_,unflagged⟩
  · rw [database,← key]
    exact getByIdForUpdate_eq_some.mpr ⟨stored,(congrArg Identity.deletedAt identity).trans live⟩
  · rw [database]
    exact following.only.trans (stageAction_only goes _ _ result)

theorem uncanceled_answer {result : Except AppError (Reply × Database)} :
    cancelRequested (if answered then some (stageAnswer result) else none) = false := by
  cases answered <;> cases result <;> rfl

theorem Following.report (following : Following job start reached world) (body : StageRequest)
    (known : authenticate start job.node = .ok node) (uncanceled : ¬reached .canceled) (goes : underway body)
    (moves : ∀ sent, body.status = some sent → reached sent.target) (delivery : Delivery) :
    Following job start reached (job.reportStage world body delivery).1 ∧
      cancelRequested (job.reportStage world body delivery).2 = false := by
  cases delivery with
  | lost => exact ⟨following,rfl⟩
  | handled instant answered =>
    obtain ⟨owned,after,current,builder,status,governed,_,ends,database,unflagged⟩ :=
      following.handled instant answered body known uncanceled
    rw [ends]
    refine ⟨?_,uncanceled_answer⟩
    cases result : (stageAction owned body).run instant world.db with
    | error error =>
      rw [result] at database
      obtain ⟨row,only,_⟩ := following
      exact ⟨by rw [database]; exact row,by rw [database]; exact only,unflagged⟩
    | ok outcome =>
      rw [result] at database
      refine (following.committed current builder governed goes result database unflagged).mono ?_
      rintro _ rfl
      cases sent : body.status with
      | none => exact status
      | some sent' => exact moves sent' sent

theorem Following.building (following : Following job start early world) (instant : Instant) (answered : Bool)
    (stage : Option String) (known : authenticate start job.node = .ok node) :
    Following job start (fun status => status = .building)
        (job.reportStage world { status := some .building, stage } (.handled instant answered)).1 ∧
      cancelRequested (job.reportStage world { status := some .building, stage } (.handled instant answered)).2 = false := by
  obtain ⟨owned,after,current,builder,status,governed,key,ends,database,unflagged⟩ :=
    following.handled instant answered { status := some .building, stage } known
      (by rintro (impossible | impossible) <;> cases impossible)
  rw [ends]
  have found : world.db.deployments.find owned.row.id = some owned.row := by
    rw [key]
    exact (getByIdForUpdate_eq_some.mp current).1
  have edge : canTransitionBuild owned.row.buildStatus .building := by
    rcases status with same | same <;> rw [same] <;> rfl
  have starts : Succeeds (Stage.report instant owned.node owned.row .building { status := some .building, stage }) world.db
      fun _ _ => True := report_started_succeeds (.inr rfl) found edge
  obtain ⟨ended,db,accepted,_⟩ := starts
  have result : (stageAction owned { status := some .building, stage }).run instant world.db =
      .ok (.buildEnded ended,db) := by
    change (Stage.report instant owned.node owned.row .building _ >>= fun ended => pure (Reply.buildEnded ended)) world.db = _
    rw [bind_apply,accepted]
    rfl
  rw [result] at database
  exact ⟨following.committed current builder governed (.inr (.inr rfl)) result database unflagged,uncanceled_answer⟩

end Calls

section Pipelines
variable {job : Job} {node : Node} {start : Database} {reached : BuildStatus → Prop} {world : World}

def PipelineStep.quiet : PipelineStep → Bool
  | .report status _ _ => status.isNone
  | _ => true

/-- Steps that report no status fail with the first failure of their work and leave the build where it is. -/
theorem runPipeline_quiet (known : authenticate start job.node = .ok node) (uncanceled : ¬reached .canceled)
    {steps : List PipelineStep} (quiet : ∀ step ∈ steps, step.quiet) (following : Following job start reached world) :
    ∃ after, job.runPipeline steps { world } = (steps.findSome? PipelineStep.failure,{ world := after }) ∧
      Following job start reached after := by
  induction steps generalizing world with
  | nil => exact ⟨world,rfl,following⟩
  | cons step rest ih =>
    have quietRest : ∀ step ∈ rest, step.quiet := fun step member => quiet step (List.mem_cons_of_mem _ member)
    cases step with
    | report status stage delivery =>
      obtain rfl : status = none := by simpa [PipelineStep.quiet] using quiet _ (List.mem_cons_self ..)
      obtain ⟨follows,answers⟩ := following.report { status := none, stage := some stage } known uncanceled
        (.inl rfl) (fun _ impossible => by cases impossible) delivery
      obtain ⟨after,ends,last⟩ := ih quietRest follows
      refine ⟨after,?_,last⟩
      rw [Job.runPipeline]
      simp only [answers,Bool.false_eq_true,if_false]
      exact ends
    | poll delivery =>
      obtain ⟨follows,answers⟩ := following.report { status := none } known uncanceled (.inl rfl)
        (fun _ impossible => by cases impossible) delivery
      obtain ⟨after,ends,last⟩ := ih quietRest follows
      refine ⟨after,?_,last⟩
      rw [Job.runPipeline]
      simp only [answers,Bool.or_self]
      exact ends
    | work result | container result =>
      cases result with
      | some failure => exact ⟨world,rfl,following⟩
      | none => exact ih quietRest following

theorem runPipeline_append (first second : List PipelineStep) (link : Link) :
    job.runPipeline (first ++ second) link = match job.runPipeline first link with
      | (some failure,link) => (some failure,link)
      | (none,link) => job.runPipeline second link := by
  induction first generalizing link with
  | nil => rfl
  | cons step rest ih =>
    cases step with
    | report status stage delivery =>
      simp only [List.cons_append,Job.runPipeline]
      split
      · rfl
      · exact ih _
    | poll delivery => exact ih _
    | work result =>
      cases result with
      | some failure => rfl
      | none => exact ih link
    | container result =>
      simp only [List.cons_append,Job.runPipeline]
      split
      · rfl
      · exact ih link

theorem polls_quiet (polls : List Delivery) : ∀ step ∈ polls.map PipelineStep.poll, step.quiet := by
  intro step member
  obtain ⟨delivery,_,rfl⟩ := List.mem_map.mp member
  rfl

theorem polls_failure (polls : List Delivery) : (polls.map PipelineStep.poll).findSome? PipelineStep.failure = none := by
  rw [List.findSome?_eq_none_iff]
  intro step member
  obtain ⟨delivery,_,rfl⟩ := List.mem_map.mp member
  rfl

theorem withPolls_quiet {polls : Nat → List Delivery} {steps : List PipelineStep} (quiet : ∀ step ∈ steps, step.quiet)
    (i : Nat) : ∀ step ∈ withPolls polls i steps, step.quiet := by
  induction steps generalizing i with
  | nil => intro step member; cases member
  | cons first rest ih =>
    intro step member
    rcases List.mem_append.mp member with polled | later
    · exact polls_quiet (polls i) step polled
    · rcases List.mem_cons.mp later with rfl | inside
      · exact quiet step (List.mem_cons_self ..)
      · exact ih (fun step member => quiet step (List.mem_cons_of_mem _ member)) (i + 1) step inside

theorem withPolls_failure {polls : Nat → List Delivery} {steps : List PipelineStep} (i : Nat) :
    (withPolls polls i steps).findSome? PipelineStep.failure = steps.findSome? PipelineStep.failure := by
  induction steps generalizing i with
  | nil => rfl
  | cons first rest ih =>
    simp only [withPolls,List.findSome?_append,polls_failure,Option.none_or,List.findSome?_cons,ih]

theorem early_uncanceled : ¬early .canceled := by
  rintro (impossible | impossible) <;> cases impossible

theorem closing_quiet : ∀ step ∈ job.closing, step.quiet := by
  simp [Job.closing,PipelineStep.quiet]

private theorem closing_ends (known : authenticate start job.node = .ok node) (uncanceled : ¬reached .canceled)
    (following : Following job start reached world) :
    ∃ after, job.runPipeline (withPolls job.polls 3 job.closing) { world } =
      (job.closing.findSome? PipelineStep.failure,{ world := after }) ∧ Following job start reached after := by
  obtain ⟨after,ends,last⟩ := runPipeline_quiet known uncanceled (withPolls_quiet closing_quiet 3) following
  rw [withPolls_failure] at ends
  exact ⟨after,ends,last⟩

/-- The pipeline fails with the failure of its work; the build is Building exactly if a
Building report was handled on the way. -/
theorem runPipeline_ends (known : authenticate start job.node = .ok node)
    (following : Following job start early world) :
    ∃ after, job.runPipeline (withPolls job.polls 0 (job.opening ++ job.closing)) { world } =
        (job.failure,{ world := after }) ∧
      (Following job start early after ∧ (job.failure = none → job.building.isHandled = false) ∨
        Following job start (fun status => status = .building) after ∧ job.building.isHandled) := by
  have steps : withPolls job.polls 0 (job.opening ++ job.closing) =
      (job.polls 0).map .poll ++ .work job.runtimeFailure :: ((job.polls 1).map .poll ++
        .report (some .queued) "queued" job.queued :: ((job.polls 2).map .poll ++
          .report (some .building) "checkout" job.building :: withPolls job.polls 3 job.closing)) := rfl
  have failure : job.failure = job.runtimeFailure.or (job.closing.findSome? PipelineStep.failure) := by
    cases guard : job.runtimeFailure <;> simp only [Job.failure,Job.opening,guard] <;> rfl
  obtain ⟨first,polled,following⟩ := runPipeline_quiet known early_uncanceled (polls_quiet (job.polls 0)) following
  rw [polls_failure] at polled
  rw [steps,runPipeline_append,polled,failure]
  simp only [Job.runPipeline]
  cases guard : job.runtimeFailure with
  | some refused => exact ⟨first,rfl,.inl ⟨following,fun impossible => by cases impossible⟩⟩
  | none =>
    obtain ⟨second,polled,following⟩ := runPipeline_quiet known early_uncanceled (polls_quiet (job.polls 1)) following
    rw [polls_failure] at polled
    simp only [runPipeline_append,polled,Job.runPipeline,Option.none_or]
    obtain ⟨following,answers⟩ := following.report { status := some .queued, stage := some "queued" } known
      early_uncanceled (.inr (.inl rfl)) (fun sent same => by cases same; exact .inr rfl) job.queued
    simp only [answers,Bool.false_eq_true,if_false]
    obtain ⟨third,polled,following⟩ := runPipeline_quiet known early_uncanceled (polls_quiet (job.polls 2)) following
    rw [polls_failure] at polled
    simp only [polled]
    cases building : job.building with
    | lost =>
      obtain ⟨after,ends,last⟩ := closing_ends known early_uncanceled following
      exact ⟨after,ends,.inl ⟨last,fun _ => rfl⟩⟩
    | handled instant answered =>
      obtain ⟨following,answers⟩ := following.building instant answered (some "checkout") known
      simp only [answers,Bool.false_eq_true,if_false]
      obtain ⟨after,ends,last⟩ := closing_ends known (fun impossible => by cases impossible) following
      exact ⟨after,ends,.inr ⟨last,rfl⟩⟩

end Pipelines

section Terminal
variable {job : Job} {node : Node} {start : Database} {reached : BuildStatus → Prop} {world : World} {instant : Instant}

/-- The terminal report is accepted and the deployment ends with the status it carries. -/
def Job.Accepted (job : Job) (world : World) (instant : Instant) (failure : Option BuildFailure) : Prop :=
  (job.reportStage world (terminalReport failure) (.handled instant true)).2 = some (.ok (.stage false)) ∧
    ((job.reportStage world (terminalReport failure) (.handled instant true)).1.db.deployments.find job.deployment).map
      (·.buildStatus) = some (outcome failure).target

theorem accepted_iff (instant : Instant) (following : Following job start reached world) (known : authenticate start job.node = .ok node)
    (uncanceled : ¬reached .canceled) (failure : Option BuildFailure) :
    ∃ owned : OwnedDeployment, getByIdForUpdate world.db job.deployment = some owned.row ∧ reached owned.row.buildStatus ∧
      (reviewPolicyForTeam start owned.row.teamId).isSome ∧ owned.row.id = job.deployment ∧
      (job.Accepted world instant failure ↔
        Succeeds (Stage.report instant owned.node owned.row (outcome failure) (terminalReport failure)) world.db
          fun _ _ => True) := by
  obtain ⟨owned,after,current,builder,status,governed,key,ends,database,unflagged⟩ :=
    following.handled instant true (terminalReport failure) known uncanceled
  refine ⟨owned,current,status,governed,key,?_⟩
  have found : world.db.deployments.find owned.row.id = some owned.row := by
    rw [key]
    exact (getByIdForUpdate_eq_some.mp current).1
  have runs : (stageAction owned (terminalReport failure)).run instant world.db =
      (Stage.report instant owned.node owned.row (outcome failure) (terminalReport failure) >>=
        fun ended => pure (Reply.buildEnded ended)) world.db := rfl
  rw [bind_apply] at runs
  unfold Job.Accepted
  rw [ends]
  cases result : Stage.report instant owned.node owned.row (outcome failure) (terminalReport failure) world.db with
  | error error =>
    rw [result] at runs
    have refused : (stageAction owned (terminalReport failure)).run instant world.db = .error error := runs
    rw [refused]
    constructor
    · rintro ⟨impossible,_⟩
      cases impossible
    · rintro ⟨_,_,impossible,_⟩
      rw [result] at impossible
      cases impossible
  | ok outcome' =>
    obtain ⟨ended,db⟩ := outcome'
    rw [result] at runs
    have committed : (stageAction owned (terminalReport failure)).run instant world.db = .ok (.buildEnded ended,db) := runs
    rw [committed] at database ⊢
    obtain ⟨next,stored,_,_,reported⟩ := stageAction_row found committed
    refine ⟨fun _ => ⟨ended,db,result,trivial⟩,fun _ => ⟨rfl,?_⟩⟩
    change (after.db.deployments.find job.deployment).map _ = _
    rw [database,← key]
    change (db.deployments.find owned.row.id).map _ = _
    rw [stored]
    exact congrArg some reported

theorem accepted_of_failure (following : Following job start reached world)
    (known : authenticate start job.node = .ok node) (running : ∀ status, reached status → early status ∨ status = .building)
    (failure : BuildFailure) : job.Accepted world instant (some failure) := by
  have uncanceled : ¬reached .canceled := by
    intro canceled
    rcases running _ canceled with impossible | impossible
    · exact early_uncanceled impossible
    · cases impossible
  obtain ⟨owned,current,status,_,key,accepted⟩ :=
    accepted_iff instant following known uncanceled (some failure)
  apply accepted.mpr
  have current : getByIdForUpdate world.db owned.row.id = some owned.row := by rwa [key]
  have ended : outcome (some failure) = .failed ∨ outcome (some failure) = .canceled := by
    by_cases code : failure.code = "canceled"
    · exact .inr (if_pos code)
    · exact .inl (if_neg code)
  refine report_ended_succeeds ended current ?_
  rcases running _ status with (same | same) | same <;> rw [same] <;> rcases ended with ends | ends <;> rw [ends] <;> rfl

theorem accepted_of_building (following : Following job start (fun status => status = .building) world)
    (known : authenticate start job.node = .ok node) (fresh : start.reviews.find instant.uuid = none) :
    job.Accepted world instant none := by
  obtain ⟨owned,current,status,governed,key,accepted⟩ :=
    accepted_iff instant following known (fun impossible => by cases impossible) none
  apply accepted.mpr
  have current : getByIdForUpdate world.db owned.row.id = some owned.row := by rwa [key]
  refine report_ready_succeeds current status ?_ ?_
  · rw [following.only]
    exact governed
  · rw [following.only]
    exact fresh

theorem refused_of_early (following : Following job start early world) (known : authenticate start job.node = .ok node) :
    ¬job.Accepted world instant none := by
  obtain ⟨owned,current,status,_,key,accepted⟩ := accepted_iff instant following known early_uncanceled none
  rw [accepted]
  rintro ⟨ended,db,result,_⟩
  have committed : (stageAction owned (terminalReport none)).run instant world.db = .ok (Reply.buildEnded ended,db) := by
    change (Stage.report instant owned.node owned.row .ready _ >>= fun ended => pure (Reply.buildEnded ended)) world.db = _
    exact (bind_eq_ok _ _ _ _ _).mpr ⟨ended,db,result,rfl⟩
  obtain ⟨demoted,effect⟩ := commits instant _ world.db _ db committed
  have found : world.db.deployments.find owned.row.id = some owned.row := by
    rw [key]
    exact (getByIdForUpdate_eq_some.mp current).1
  obtain ⟨next,mid,_,_,step,_⟩ := effect.target_row found stageAction_target
  have step : Step (modeOf world.db owned.row.identity) owned.row.lifecycle (.report owned .ready (terminalReport none)) _ _ := step
  generalize sent : ReportedStatus.ready = reported at step
  cases step with
  | advanced queued => rcases queued with rfl | rfl <;> cases sent
  | ended terminal => rcases terminal with rfl | rfl <;> cases sent
  | finished edge =>
    have edge : owned.row.buildStatus ≠ .ready → canTransitionBuild owned.row.buildStatus .ready := edge
    rcases status with same | same <;> rw [same] at edge <;> cases edge (by decide)

/-- The job ends: the control plane accepts the terminal report and the deployment gets its status. -/
def Job.Ends (job : Job) (world : World) (instant : Instant) : Prop :=
  (job.runBuildJob world instant).2 = some (.ok (.stage false)) ∧
    ((job.runBuildJob world instant).1.db.deployments.find job.deployment).map (·.buildStatus) =
      some (outcome job.failure).target

theorem job_ends_iff (job : Job) (world : World) (instant : Instant) (node : Node) (row : Deployment)
    (known : authenticate world.db job.node = .ok node)
    (current : getByIdForUpdate world.db job.deployment = some row) (builder : row.buildNodeId = some job.node)
    (claimed : row.buildStatus = .claimed) (uncanceled : world.cache (.cancelFlag job.deployment) = none)
    (team : (world.db.teams.find row.teamId).isSome) (fresh : world.db.reviews.find instant.uuid = none) :
    job.Ends world instant ↔ job.failure.isSome ∨ job.building.isHandled := by
  have governed : (reviewPolicyForTeam world.db row.teamId).isSome := by
    unfold reviewPolicyForTeam
    rw [Option.isSome_map]
    exact team
  have following : Following job world.db early world := ⟨⟨row,current,builder,.inl claimed,governed⟩,rfl,uncanceled⟩
  obtain ⟨after,ends,follows⟩ := runPipeline_ends known following
  have reported : job.Ends world instant ↔ job.Accepted after instant job.failure := by
    unfold Job.Ends Job.Accepted Job.runBuildJob
    rw [ends]
  rw [reported]
  cases failed : job.failure with
  | some failure =>
    refine iff_of_true ?_ (.inl rfl)
    rcases follows with ⟨follows,_⟩ | ⟨follows,_⟩
    · exact accepted_of_failure follows known (fun _ => .inl) failure
    · exact accepted_of_failure follows known (fun _ => .inr) failure
  | none =>
    rcases follows with ⟨follows,lost⟩ | ⟨follows,handled⟩
    · refine iff_of_false (refused_of_early follows known) ?_
      rintro (impossible | handled)
      · cases impossible
      · rw [lost failed] at handled
        cases handled
    · exact iff_of_true (accepted_of_building follows known fresh) (.inr handled)

end Terminal

section Examples
open Sample

theorem claimed_entries : ({ deployment with buildStatus := .claimed } : Deployment).entries.Nodup := by decide

def building : World := holding { deployment with buildStatus := .claimed } claimed_entries

def instant : Instant := { now := 0, uuid := 90 }

def interrupted : Job where
  node := 7
  deployment := 1
  runtimeKind := .static
  queued := .handled instant true
  building := .lost
  checkedOut := none
  buildStage := .handled instant true
  built := none
  outputStage := .handled instant true
  generated := none
  archiveStage := .handled instant true
  packed := none
  uploadStage := .handled instant true
  uploaded := none
  polls := fun _ => []

def recovered : Job := { interrupted with queued := .lost, building := .handled instant false }

theorem lost_building_report_refuses_ready : ¬interrupted.Ends building instant := by
  rintro ⟨answered,_⟩
  have refused : (interrupted.runBuildJob building instant).2 ≠ some (.ok (.stage false)) := by decide
  exact refused answered

theorem job_ends_recovered : recovered.Ends building instant := by
  refine (job_ends_iff recovered building instant Sample.node { deployment with buildStatus := .claimed }
    (by decide) (by decide) (by decide) (by decide) (by decide) (by decide) (by decide)).mpr (.inr (by decide))

end Examples

end GrassWorker.BuildJob
