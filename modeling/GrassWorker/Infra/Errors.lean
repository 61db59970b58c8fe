import GrassWorker.Domain.Delivery

/-! The errors of the HTTP surface and how domain errors become them. An
infrastructure error hides its source from the caller, so it carries none. -/
namespace GrassWorker
open Deployments Scheduler Delivery

inductive AppError
  | validation (message : String)
  | unauthorized (message : String)
  | forbidden (message : String)
  | notFound (message : String)
  | conflict (message : String)
  | quotaExceeded (message : String)
  | tooManyRequests (message : String)
  | infrastructure
  | internal (message : String)
deriving DecidableEq, Repr

namespace AppError

def mapDbErr (_ : DbErr) : AppError := .infrastructure

def mapStateError : StateError → AppError
  | .database _ => .infrastructure
  | error => .conflict error.message

def mapScheduleError : ScheduleError → AppError
  | .database _ | .invalidData => .infrastructure
  | error => .conflict error.message

def mapDeliveryError : DeliveryError → AppError
  | .releaseAlreadyPending => .conflict DeliveryError.releaseAlreadyPending.message
  | .state error => mapStateError error
  | .schedule error => mapScheduleError error
  | .database _ | .invalidResources | .invalidUnsuccessfulBuildTransition | .other _ => .infrastructure

end AppError

abbrev Handling (α : Type) := Transaction Database AppError α

namespace Handling
open Transaction

section Lift
variable {α : Type}

def ofDb (transaction : Transaction Database DbErr α) : Handling α := mapError AppError.mapDbErr transaction

def ofState (transaction : Transaction Database StateError α) : Handling α :=
  mapError AppError.mapStateError transaction

def ofDelivery (transaction : Transaction Database DeliveryError α) : Handling α :=
  mapError AppError.mapDeliveryError transaction

/-- `reconcile_environment` where any failure is reported as an infrastructure error. -/
def ofReconcile (transaction : Transaction Database DeliveryError α) : Handling α :=
  mapError (fun _ => .infrastructure) transaction

variable {db : Database} {post : α → Database → Prop}

@[simp] theorem ensures_ofDb (transaction : Transaction Database DbErr α) :
    Ensures (ofDb transaction) db post ↔ Ensures transaction db post := ensures_mapError db post _ _

@[simp] theorem ensures_ofState (transaction : Transaction Database StateError α) :
    Ensures (ofState transaction) db post ↔ Ensures transaction db post := ensures_mapError db post _ _

@[simp] theorem ensures_ofDelivery (transaction : Transaction Database DeliveryError α) :
    Ensures (ofDelivery transaction) db post ↔ Ensures transaction db post := ensures_mapError db post _ _

@[simp] theorem ensures_ofReconcile (transaction : Transaction Database DeliveryError α) :
    Ensures (ofReconcile transaction) db post ↔ Ensures transaction db post := ensures_mapError db post _ _

@[simp] theorem succeeds_ofState (transaction : Transaction Database StateError α) :
    Succeeds (ofState transaction) db post ↔ Succeeds transaction db post := succeeds_mapError db post _ _

@[simp] theorem succeeds_ofDelivery (transaction : Transaction Database DeliveryError α) :
    Succeeds (ofDelivery transaction) db post ↔ Succeeds transaction db post := succeeds_mapError db post _ _

@[simp] theorem succeeds_ofReconcile (transaction : Transaction Database DeliveryError α) :
    Succeeds (ofReconcile transaction) db post ↔ Succeeds transaction db post := succeeds_mapError db post _ _

end Lift

/-- `create_audit_event`: an event of a team is visible to the team, any other to the platform. -/
def createAuditEvent (actorUserId teamId : Option Uuid) (action : String) (targetId : Uuid)
    (reason : Option String) : Handling Unit :=
  modify fun db => { db with audit := db.audit ++
    [⟨actorUserId,teamId,action,some targetId,reason,if teamId.isSome then .team else .platform⟩] }

def createPlatformAuditEvent (actorUserId teamId : Option Uuid) (action : String) (targetId : Uuid)
    (reason : Option String) : Handling Unit :=
  modify fun db => { db with audit := db.audit ++ [⟨actorUserId,teamId,action,some targetId,reason,.platform⟩] }

/-- `get_by_id_for_update` in a handler. -/
def lockedDeployment (deploymentId : Uuid) : Handling Deployment := do
  orElse (← query (getByIdForUpdate · deploymentId)) (.notFound "deployment not found")

@[simp] theorem ensures_lockedDeployment (id : Uuid) (db : Database) (post : Deployment → Database → Prop) :
    Ensures (lockedDeployment id) db post ↔ ∀ row, getByIdForUpdate db id = some row → post row db := by
  simp only [lockedDeployment,ensures_bind,ensures_query,ensures_orElse]

@[simp] theorem succeeds_lockedDeployment (id : Uuid) (db : Database) (post : Deployment → Database → Prop) :
    Succeeds (lockedDeployment id) db post ↔ ∃ row, getByIdForUpdate db id = some row ∧ post row db := by
  simp only [lockedDeployment,succeeds_bind,succeeds_query,succeeds_orElse]

/-- The review mode that governs a deployment; an unresolved team is an infrastructure error. -/
def reviewModeOf (deployment : Deployment) : Handling ReviewMode := do
  let policy ← orElse (← query (reviewPolicyForTeam · deployment.teamId)) .infrastructure
  return policy.modeFor deployment.environment

@[simp] theorem ensures_reviewModeOf (deployment : Deployment) (db : Database)
    (post : ReviewMode → Database → Prop) :
    Ensures (reviewModeOf deployment) db post ↔ ∀ policy, reviewPolicyForTeam db deployment.teamId = some policy →
      post (policy.modeFor deployment.environment) db := by
  simp only [reviewModeOf,ensures_bind,ensures_query,ensures_orElse,ensures_pure]

@[simp] theorem succeeds_reviewModeOf (deployment : Deployment) (db : Database)
    (post : ReviewMode → Database → Prop) :
    Succeeds (reviewModeOf deployment) db post ↔ ∃ policy, reviewPolicyForTeam db deployment.teamId = some policy ∧
      post (policy.modeFor deployment.environment) db := by
  simp only [reviewModeOf,succeeds_bind,succeeds_query,succeeds_orElse,succeeds_pure]

end Handling
end GrassWorker
