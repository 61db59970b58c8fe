import GrassWorker.Infra.Errors
import GrassWorker.Validator

/-! Host sources, the hosts that are composed from them, and the bindings of
hosts to projects. DNS providers and DNS checks answer from outside. -/
namespace GrassWorker.Hosts
open Transaction Handling Validator

def listSources (db : Database) : List HostSource :=
  (db.sources.rows.filter fun source => source.deletedAt.isNone).insertionSort
    fun first second => first.createdAt ≤ second.createdAt

def getSourceById (db : Database) (sourceId : Uuid) : Option HostSource :=
  (db.sources.find sourceId).filter fun source => source.deletedAt.isNone

inductive AutoAssignSelection
  | source (source : HostSource)
  | noSource
  | noDefault
deriving DecidableEq

def selectAutoAssignSource (sources : List HostSource) : AutoAssignSelection :=
  match sources.filter fun source => source.enabled && source.allowsAutoAssign with
  | [] => .noSource
  | [source] => .source source
  | candidates =>
    match candidates.filter (·.isDefault) with
    | [source] => .source source
    | _ => .noDefault

def base36Digit (value : Nat) : Char :=
  if value % 36 < 10 then Char.ofNat (48 + value % 36) else Char.ofNat (87 + value % 36)

def hexDigit (value : Nat) : Char :=
  if value % 16 < 10 then Char.ofNat (48 + value % 16) else Char.ofNat (87 + value % 16)

def randomSuffix (choice : Nat) : List Char := [0,1,2,3].map fun i => base36Digit (choice / 36 ^ i)

def shortId (id : Uuid) : List Char := [7,6,5,4,3,2,1,0].map fun i => hexDigit (id / 16 ^ i)

def platformLabel (projectSlug : List Char) (attempt choice : Nat) : List Char :=
  let slug := trimEnd '-' (projectSlug.take 53)
  if attempt = 0 then slug else slug ++ '-' :: randomSuffix choice

def platformHostCandidate (projectSlug baseDomain : String) (attempt choice : Nat) : String :=
  String.ofList (platformLabel projectSlug.toList attempt choice ++ '.' :: baseDomain.toList)

def previewLabel (projectSlug : List Char) (id : Uuid) : List Char :=
  trimEnd '-' (projectSlug.take 54) ++ '-' :: shortId id

def previewHostFor (projectSlug : String) (id : Uuid) (baseDomain : String) : String :=
  String.ofList (previewLabel projectSlug.toList id ++ '.' :: baseDomain.toList)

/-- `preview_host_for_project`, with a fresh identifier of its own. -/
def previewHostForProject (db : Database) (project : Project) (fresh : Uuid) : Option String :=
  match selectAutoAssignSource (listSources db) with
  | .source source => some (previewHostFor project.slug fresh source.baseDomain)
  | _ => none

def findBindingByHost (db : Database) (host : String) : Option HostBinding :=
  db.bindings.rows.find? fun binding => binding.host = host ∧ binding.deletedAt.isNone

def getBindingById (db : Database) (bindingId : Uuid) : Option HostBinding :=
  (db.bindings.find bindingId).filter fun binding => binding.deletedAt.isNone

def listBindingsForProject (db : Database) (projectId : Uuid) : List HostBinding :=
  db.bindings.rows.filter fun binding => binding.projectId = projectId ∧ binding.deletedAt.isNone

/-- `certificates::binding_eligible`. -/
def bindingEligible (binding : HostBinding) : Bool :=
  binding.deletedAt.isNone ∧ binding.kind = .custom ∧ binding.status = .active ∧
    binding.ownershipStatus = .verified ∧
    (binding.reviewStatus = .approved ∨ binding.reviewStatus = .notRequired)

def customBindingStatus : HostReviewStatus → OwnershipStatus → HostBindingStatus
  | .approved, .verified => .active
  | .rejected, _ => .disabled
  | _, _ => .pending

structure CreateHostSourceParams where
  kind : HostSourceKind
  baseDomain : String
  region : String
  enabled : Bool
  allowsAutoAssign : Bool
  isDefault : Bool
deriving DecidableEq

structure BindHostRequest where
  project : Project
  team : Team
  source : Option HostSource
  host : String
  region : String
  kind : HostBindingKind
  environment : HostBindingEnvironment
  isPrimary : Bool
  reviewStatus : HostReviewStatus
deriving DecidableEq

def BindHostRequest.conflict (host : String) : AppError := .conflict ("host " ++ host ++ " is already bound")

inductive DnsVerification
  | verified | missing | mismatch
deriving DecidableEq, Repr

inductive DomainDecision
  | apply (reviewStatus : HostReviewStatus) (bindingStatus : HostBindingStatus)
  | conflict
deriving DecidableEq, Repr

def domainDecision (current : HostReviewStatus) (approved : Bool) : DomainDecision :=
  if (current = .approved ∧ approved) ∨ (current = .rejected ∧ ¬approved) then .conflict
  else if approved then .apply .approved .active
  else .apply .rejected .disabled

section Transactions
variable (instant : Instant)

/-- `create_source`; the base domain is the normalized one. -/
def createSource (params : CreateHostSourceParams) : Handling Unit := do
  let existing := (← get).sources.rows.filter fun source =>
    source.isDefault ∧ source.enabled ∧ source.deletedAt.isNone
  require (¬(params.isDefault ∧ params.enabled ∧ existing ≠ []))
    (.conflict "only one enabled default host source is allowed")
  write (fun db => do
    let sources ← db.sources.insert
      { id := instant.uuid, kind := params.kind, baseDomain := params.baseDomain, region := params.region
        enabled := params.enabled, allowsAutoAssign := params.allowsAutoAssign
        isDefault := params.isDefault, createdAt := instant.now }
    return ((),{ db with sources })) AppError.infrastructure

def newBinding (request : BindHostRequest) : HostBinding where
  id := instant.uuid
  projectId := request.project.id
  teamId := request.team.id
  hostSourceId := request.source.map HostSource.id
  host := request.host
  region := request.region
  kind := request.kind
  environment := request.environment
  status := .pending
  isPrimary := request.isPrimary
  reviewStatus := request.reviewStatus
  ownershipStatus := if request.source.isSome then .notRequired else .pending

/-- `create_binding`: any unique violation is reported as the host being bound already. -/
def createBinding (request : BindHostRequest) : Handling HostBinding :=
  write (fun db => do
    let bindings ← db.bindings.insert (newBinding instant request)
    return (newBinding instant request,{ db with bindings })) (BindHostRequest.conflict request.host)

def updateBinding (id : Uuid) (change : HostBinding → HostBinding) (keeps : ∀ row, (change row).id = row.id) :
    Handling Unit :=
  write (fun db => do
    let bindings ← db.bindings.update id change keeps
    return ((),{ db with bindings })) AppError.infrastructure

def updateBindingStatus (id : Uuid) (status : HostBindingStatus) (failureReason : Option String) : Handling Unit :=
  updateBinding id (fun row => { row with status, failureReason }) fun _ => rfl

/-- `apply_ownership`, with whether the connection is ready. -/
def applyOwnership (ready : Bool) (ownership : DnsVerification) (binding : HostBinding) : HostBinding :=
  match ownership with
  | .verified => { binding with
      ownershipStatus := .verified
      status := if ready ∧ (binding.reviewStatus = .approved ∨ binding.reviewStatus = .notRequired) ∧
        binding.status ≠ .disabled then .active else binding.status }
  | .missing | .mismatch => { binding with
      ownershipStatus := .failed
      status := if binding.status ≠ .disabled then .pending else binding.status }

theorem applyOwnership_id (ready : Bool) (ownership : DnsVerification) (binding : HostBinding) :
    (applyOwnership ready ownership binding).id = binding.id := by
  cases ownership <;> rfl

def runCheck (id : Uuid) (ready : Bool) (ownership : DnsVerification) : Handling Unit := do
  match (← query (getBindingById · id)) with
  | none => return ()
  | some binding =>
    if binding.kind ≠ .custom ∨ binding.status = .disabled then return ()
    else updateBinding id (applyOwnership ready ownership) fun row => applyOwnership_id ready ownership row

def decideDomain (id : Uuid) (approved : Bool) (actorUserId : Uuid) (reason : Option String) : Handling Unit := do
  let binding ← orElse (← query (getBindingById · id)) (.notFound "domain binding not found")
  require (binding.kind = .custom ∧ binding.reviewStatus ≠ .notRequired)
    (.conflict "platform domains do not support review decisions")
  match domainDecision binding.reviewStatus approved with
  | .conflict => throw (.conflict "domain review has already been decided")
  | .apply reviewStatus bindingStatus =>
    let status := if approved ∧ binding.ownershipStatus ≠ .verified then .pending else bindingStatus
    let status := if binding.status = .disabled then .disabled else status
    updateBinding id (fun row => { row with reviewStatus, status }) fun _ => rfl
    createPlatformAuditEvent (some actorUserId) (some binding.teamId)
      (if approved then "domain.approved" else "domain.rejected") id reason
    let _ ← orElse (← query (·.projects.find binding.projectId)) (.notFound "project not found")
    return ()

/-- `delete_host` within a project; repeating it changes nothing. -/
def deleteHost (projectId bindingId : Uuid) : Handling Unit := do
  let binding ← orElse ((← query (·.bindings.find bindingId)).filter fun binding => binding.projectId = projectId)
    (.notFound "host binding not found")
  if binding.deletedAt.isSome then return ()
  else updateBinding bindingId (fun row => { row with deletedAt := some instant.now, isPrimary := false }) fun _ => rfl

structure CreateProjectParams where
  teamId : Uuid
  slug : String
  runtime : ProjectRuntime
deriving DecidableEq

def createProject (params : CreateProjectParams) (actorUserId : Uuid) : Handling Project := do
  let project ← write (fun db => do
    let project : Project := { id := instant.uuid, teamId := params.teamId, slug := params.slug, runtime := params.runtime }
    let projects ← db.projects.insert project
    return (project,{ db with projects })) (AppError.conflict "project slug is already in use in this team")
  createAuditEvent (some actorUserId) (some params.teamId) "project.created" project.id none
  return project

end Transactions

end GrassWorker.Hosts
