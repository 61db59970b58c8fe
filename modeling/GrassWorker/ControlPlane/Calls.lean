import GrassWorker.ControlPlane.Runs

/-! One request on its own: its handler takes step after step and no other handler does. -/
namespace GrassWorker.ControlPlane
open Interleaving Runs

/-- A request that is given one input for each of its steps: what it leaves behind,
and its answer if the inputs suffice for one. -/
def finish : List Input → World → Progress → World × Option Answer
  | _,world,.respond answer => (world,some answer)
  | [],world,.resume _ => (world,none)
  | input :: inputs,world,.resume handler =>
    finish inputs (advance input world handler).1 (advance input world handler).2

def call (inputs : List Input) (world : World) (request : Request) : World × Option Answer :=
  finish inputs world (.resume (.arrived request))

structure Input.Up (input : Input) : Prop where
  database : input.databaseFails = false
  cache : input.cacheFails = false
  allowed : input.refusal = none

section Calls
variable {inputs : List Input} {world after : World} {answer : Answer}

@[simp] theorem finish_respond : finish inputs world (.respond answer) = (world,some answer) := by
  cases inputs <;> rfl

@[simp] theorem finish_resume {input : Input} {handler : Handler} :
    finish (input :: inputs) world (.resume handler) =
      finish inputs (advance input world handler).1 (advance input world handler).2 := rfl

theorem authenticate_ok {db : Database} {id : Uuid} {node : Node} (found : db.nodes.find id = some node)
    (live : node.deletedAt = none) (enabled : node.status ≠ .disabled) : authenticate db id = .ok node := by
  unfold authenticate
  simp [found,Option.filter,live,enabled]

theorem call_node {first : Input} {id : Uuid} {node : Node} (up : first.Up) (known : authenticate world.db id = .ok node)
    (request : NodeCall) : call (first :: inputs) world (.node id request) = finish inputs world (callNode node request) := by
  simp [call,advance,read,permitted,begin,known,ofAnswer,up.database,up.allowed]

end Calls

/-! A stage report on its own. -/

structure SlotsOnly (db : Database) (world after : World) : Prop where
  database : after.db = db
  flags : ∀ deployment, after.cache (.cancelFlag deployment) = world.cache (.cancelFlag deployment)

section Reports
variable {input : Input}

theorem releaseMark_finishes (up : input.Up) (world : World) (inputs : List Input) (team deployment : Uuid)
    (answer : Answer) :
    ∃ after, finish (input :: input :: inputs) world (.resume (.releaseMark team deployment answer)) =
      (after,some answer) ∧ SlotsOnly world.db world after := by
  rw [finish_resume]
  by_cases owns : world.cache.ownsRelease deployment
  · simp only [advance,up.cache,owns,Bool.false_eq_true,not_true_eq_false,or_self,if_false,finish_resume,finish_respond]
    refine ⟨_,rfl,rfl,fun other => ?_⟩
    simp [Cache.releaseSlot,Cache.markReleased,Cache.set]
  · simp only [advance,owns,Bool.false_eq_true,not_false_eq_true,or_true,if_true,finish_respond]
    exact ⟨world,rfl,rfl,fun _ => rfl⟩

def stageAnswer : Except AppError (Reply × Database) → Answer
  | .ok _ => .ok (.stage false)
  | .error error => .error error

variable (owned : Stage.OwnedDeployment) (body : Stage.StageRequest)

theorem stageCommit_finishes (up : input.Up) (world : World) (inputs : List Input) :
    ∃ after, finish (input :: input :: input :: inputs) world (.resume (.commit (stageAction owned body) [])) =
      (after,some (stageAnswer (transact input (stageAction owned body) world.db))) ∧
        SlotsOnly (committed world.db (transact input (stageAction owned body) world.db)) world after := by
  rw [finish_resume]
  cases result : transact input (stageAction owned body) world.db with
  | error error =>
    refine ⟨world,?_,rfl,fun _ => rfl⟩
    have refused : commitProgress (stageAction owned body) [] (.error error) = failed error := by
      unfold stageAction
      cases body.status <;> rfl
    simp [advance,result,committed,refused,failed,stageAnswer]
  | ok outcome =>
    obtain ⟨reply,after⟩ := outcome
    simp only [advance,result,committed,stageAnswer]
    have ends : commitProgress (stageAction owned body) [] (.ok (reply,after)) = .respond (.ok (.stage false)) ∨
        commitProgress (stageAction owned body) [] (.ok (reply,after)) =
          .resume (.releaseMark owned.row.teamId owned.row.id (.ok (.stage false))) := by
      unfold stageAction
      cases body.status with
      | none => exact .inl rfl
      | some status =>
        cases reply with
        | buildEnded ended => cases ended <;> first | exact .inl rfl | exact .inr rfl
        | _ => exact .inl rfl
    rcases ends with same | same
    · exact ⟨{ world with db := after },by rw [same,finish_respond],rfl,fun _ => rfl⟩
    · obtain ⟨last,released,only⟩ := releaseMark_finishes up { world with db := after } inputs
        owned.row.teamId owned.row.id (.ok (.stage false))
      exact ⟨last,by rw [same,released],only.database,only.flags⟩

theorem stage_finishes (up : input.Up) {world : World} {id deployment : Uuid} {node : Node} (known : authenticate world.db id = .ok node)
    (owns : Stage.buildOwnedDeployment world.db node.id deployment = .ok owned)
    (runs : owned.row.buildStatus ≠ .canceled) (unflagged : world.cache (.cancelFlag owned.row.id) = none) :
    ∃ after, call (List.replicate 8 input) world (.node id (.stage deployment body)) =
      (after,some (stageAnswer (transact input (stageAction owned body) world.db))) ∧
        SlotsOnly (committed world.db (transact input (stageAction owned body) world.db)) world after := by
  have start : call (List.replicate 8 input) world (.node id (.stage deployment body)) =
      finish (List.replicate 5 input) world (.resume (.stageSlot owned body)) := by
    rw [List.replicate_succ,call_node up known]
    simp [List.replicate,callNode,advance,read,up.database,stageRead,owns,ofAnswer,stageFlag,up.cache,unflagged,
      Stage.cancellationWasRequested,runs]
  rw [start]
  cases counter : world.cache (.slot owned.row.teamId) with
  | none =>
    obtain ⟨after,ends,only⟩ := stageCommit_finishes owned body up world [input]
    refine ⟨after,?_,only⟩
    rw [← ends]
    simp [List.replicate,advance,stageSlot,up.cache,counter,proceed]
  | some value =>
    have refreshed : world.cache.updateIfPresent (.slot owned.row.teamId) value = world.cache := by
      funext key
      by_cases same : key = .slot owned.row.teamId <;> simp [Cache.updateIfPresent,Cache.set,counter,same]
    obtain ⟨after,ends,only⟩ := stageCommit_finishes owned body up world []
    refine ⟨after,?_,only⟩
    rw [← ends]
    simp [List.replicate,advance,stageSlot,up.cache,counter,proceed,refreshed]

end Reports

end GrassWorker.ControlPlane
