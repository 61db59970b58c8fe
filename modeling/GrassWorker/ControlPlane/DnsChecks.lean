import GrassWorker.Domain.DomainOnboarding
import GrassWorker.Foundations.Mutexes

/-! Connection checks under leases, while domains are bound, disabled, decided on and deleted. Each statement of a
transaction is an action of its own. -/
namespace GrassWorker.DomainOnboarding
open Interleaving Hosts Ingress ManagedCertificates

inductive Lock
  | binding (id : Uuid)
  | check (id : Uuid)
deriving DecidableEq

inductive Happening
  | leased (bindingId : Uuid) (lease : Timestamp)
  | applied (bindingId : Uuid) (lease : Timestamp) (ownership : DnsVerification)
deriving DecidableEq

structure Shared where
  db : IngressDatabase
  locks : Multiset Lock := 0
  clock : Timestamp
  drawn : Nat
  log : List Happening := []

inductive Request
  | bindHost (request : BindHostRequest) (contactEmail : String)
  | runCheck (bindingId : Uuid) (force : Bool)
  | updateHost (projectId bindingId : Uuid) (environment : Option HostBindingEnvironment) (disable : Option Bool)
  | decide (bindingId : Uuid) (approved : Bool)
  | deleteHost (projectId : Option Uuid) (bindingId : Uuid)
  | deleteProject (projectId : Uuid)
  /-- Entries and certificates are managed elsewhere. -/
  | changeEntries (ingresses : Table RegionalIngress (·.id) RegionalIngress.entries)
  | changeCertificates (certificates : Table ManagedCertificate (·.id) unindexed)

inductive Handler
  | bindHost (request : BindHostRequest) (contactEmail : String)
  | settleBinding (binding : HostBinding)
  | claimCheck (bindingId : Uuid) (force : Bool)
  | readBinding (bindingId : Uuid) (lease : Timestamp)
  | readEntry (binding : HostBinding) (lease : Timestamp)
  | resolve (binding : HostBinding) (lease : Timestamp) (entry : RegionalIngress)
  | compareEntry (bindingId : Uuid) (lease : Timestamp) (entry : Option RegionalIngress) (result : CheckResult)
  | lockBinding (bindingId : Uuid) (lease : Timestamp) (unchanged : Bool) (result : CheckResult)
  | lockCheck (current : HostBinding) (lease : Timestamp) (unchanged : Bool) (result : CheckResult)
  | writeCheck (current : HostBinding) (lease : Timestamp) (unchanged : Bool) (result : CheckResult)
  | readHost (projectId bindingId : Uuid) (environment : Option HostBindingEnvironment) (disable : Option Bool)
  | writeHost (bindingId : Uuid) (environment : Option HostBindingEnvironment) (disable : Option Bool)
  | lockDomain (bindingId : Uuid) (approved : Bool)
  | writeDecision (binding : HostBinding) (approved : Bool)
  | lockHost (projectId : Option Uuid) (bindingId : Uuid)
  | writeDeletion (binding : HostBinding)
  | listHosts (projectId : Uuid)
  | deleteHosts (bindingIds : List Uuid)
  | changeEntries (ingresses : Table RegionalIngress (·.id) RegionalIngress.entries)
  | changeCertificates (certificates : Table ManagedCertificate (·.id) unindexed)

def Handler.guards : Handler → Multiset Lock
  | .lockCheck current _ _ _ => {.binding current.id}
  | .writeCheck current _ _ _ => {.check current.id,.binding current.id}
  | .writeDecision binding _ | .writeDeletion binding => {.binding binding.id}
  | _ => 0

/-- The handlers of `run_check`. -/
def Handler.checking : Handler → Bool
  | .claimCheck .. | .readBinding .. | .readEntry .. | .resolve .. | .compareEntry .. | .lockBinding .. | .lockCheck .. |
    .writeCheck .. => true
  | _ => false

/-- The time that has passed, whether the call fails, and what the resolver answers in time. -/
structure Input where
  elapsed : Nat
  fails : Bool := false
  answer : Option (ConnectionState × DnsVerification) := none

def Shared.leave (s : Shared) (handler : Handler) : Shared := { s with locks := s.locks - handler.guards }

def Shared.withBindings (s : Shared) (bindings : Table HostBinding (·.id) HostBinding.entries) : Shared :=
  { s with db := { s.db with bindings } }

def locking (s : Shared) (lock : Lock) (waiting next : Handler) : Shared × Option Handler :=
  if lock ∈ s.locks then (s,some waiting) else ({ s with locks := lock ::ₘ s.locks },some next)

def reading {α : Type} (s : Shared) (handler : Handler) (found : Option α) (next : α → Handler) : Shared × Option Handler :=
  match found with
  | some value => (s,some (next value))
  | none => (s.leave handler,none)

def updating (s : Shared) (handler : Handler) (id : Uuid) (change : HostBinding → HostBinding)
    (keeps : ∀ row, (change row).id = row.id) : Shared × Option Handler :=
  if .binding id ∈ s.locks then (s,some handler)
  else
    match s.db.bindings.update id change keeps with
    | some bindings => (s.withBindings bindings,none)
    | none => (s.leave handler,none)

def committing (s : Shared) (handler : Handler) (id : Uuid) (change : HostBinding → HostBinding)
    (keeps : ∀ row, (change row).id = row.id) : Shared × Option Handler :=
  match s.db.bindings.update id change keeps with
  | some bindings => ((s.leave handler).withBindings bindings,none)
  | none => (s.leave handler,none)

/-- The transaction of a binding: the row, and its first check, which is due at once. -/
def insertBinding (s : Shared) (binding : HostBinding) (contactEmail : String) : Option IngressDatabase := do
  let bindings ← s.db.bindings.insert binding
  let onboarding ← s.db.onboarding.insert { bindingId := binding.id, contactEmail, nextCheckAt := s.clock }
  return { s.db with bindings, onboarding }

def decided (approved : Bool) (binding : HostBinding) : Option (HostReviewStatus × HostBindingStatus) :=
  if binding.kind ≠ .custom ∨ binding.reviewStatus = .notRequired then none
  else
    match domainDecision binding.reviewStatus approved with
    | .conflict => none
    | .apply reviewStatus bindingStatus =>
      let status := if approved ∧ binding.ownershipStatus ≠ .verified then .pending else bindingStatus
      some (reviewStatus,if binding.status = .disabled then .disabled else status)

/-- The update of the binding a check was about, from the row it had locked. -/
def writeApplied (s : Shared) (current : HostBinding) : Option HostBinding → Option (Table HostBinding (·.id) HostBinding.entries)
  | some after => s.db.bindings.update current.id
    (fun row => { row with ownershipStatus := after.ownershipStatus, status := after.status }) fun _ => rfl
  | none => some s.db.bindings

/-- The writes that end a check: the binding if the answers are applied, and the check. -/
def writeCheck (s : Shared) (current : HostBinding) (lease : Timestamp) (unchanged : Bool) (result : CheckResult) :
    Option IngressDatabase := do
  let bindings ← writeApplied s current (applied current unchanged result)
  let onboarding ← s.db.onboarding.updateWhere (fun check => check.bindingId = current.id ∧ check.leaseUntil = some lease)
    (checked s.clock (statusAndError current unchanged result)) fun _ => rfl
  return { s.db with bindings, onboarding }

def application (current : HostBinding) (lease : Timestamp) (unchanged : Bool) (result : CheckResult) : List Happening :=
  match applied current unchanged result,result with
  | some _,.answered _ ownership => [.applied current.id lease ownership]
  | _,_ => []

def advance (input : Input) (s : Shared) (handler : Handler) : Shared × Option Handler :=
  match handler with
  | .bindHost request contactEmail =>
    let binding := newBinding { now := s.clock, uuid := s.drawn } { request with source := none, kind := .custom }
    match getEnabledByRegion s.db request.region with
    | none => (s.leave handler,none)
    | some _ =>
      match insertBinding s binding contactEmail with
      | some db => ({ s with db, drawn := s.drawn + 1 },some (.settleBinding binding))
      | none => (s.leave handler,none)
  | .settleBinding binding =>
    let status := customBindingStatus binding.reviewStatus binding.ownershipStatus
    updating s handler binding.id (fun row => { row with status, failureReason := none }) fun _ => rfl
  | .claimCheck bindingId force =>
    if .check bindingId ∈ s.locks then (s,some handler)
    else
      match (s.db.onboarding.find bindingId).filter fun check => claimable check force s.clock with
      | none => (s.leave handler,none)
      | some _ =>
        match s.db.onboarding.update bindingId (fun row => { row with leaseUntil := some (s.clock + checkLease) }) fun _ => rfl with
        | some onboarding =>
          ({ s with
            db := { s.db with onboarding }
            log := s.log ++ [.leased bindingId (s.clock + checkLease)] },some (.readBinding bindingId (s.clock + checkLease)))
        | none => (s.leave handler,none)
  | .readBinding bindingId lease =>
    reading s handler ((getBindingById s.db.toDatabase bindingId).filter fun binding =>
      binding.kind = .custom ∧ binding.status ≠ .disabled) fun binding => .readEntry binding lease
  | .readEntry binding lease =>
    match getEnabledByRegion s.db binding.region with
    | some entry => (s,some (.resolve binding lease entry))
    | none => (s,some (.compareEntry binding.id lease none .noEntry))
  | .resolve binding lease entry =>
    match input.answer with
    | some (state,ownership) => (s,some (.compareEntry binding.id lease (some entry) (.answered state ownership)))
    | none => (s,some (.compareEntry binding.id lease (some entry) .failed))
  | .compareEntry bindingId lease entry result =>
    let current := entry.bind fun entry => s.db.ingresses.find entry.id
    (s,some (.lockBinding bindingId lease (entryUnchanged current entry) result))
  | .lockBinding bindingId lease unchanged result =>
    match getBindingById s.db.toDatabase bindingId with
    | some current => locking s (.binding current.id) handler (.lockCheck current lease unchanged result)
    | none => (s.leave handler,none)
  | .lockCheck current lease unchanged result =>
    match (s.db.onboarding.find current.id).filter fun check => check.leaseUntil = some lease with
    | some _ => locking s (.check current.id) handler (.writeCheck current lease unchanged result)
    | none => (s.leave handler,none)
  | .writeCheck current lease unchanged result =>
    match writeCheck s current lease unchanged result with
    | some db => ({ s.leave handler with db, log := s.log ++ application current lease unchanged result },none)
    | none => (s.leave handler,none)
  | .readHost projectId bindingId environment disable =>
    reading s handler ((getBindingById s.db.toDatabase bindingId).filter fun binding => binding.projectId = projectId)
      fun binding => .writeHost binding.id environment disable
  | .writeHost bindingId environment disable =>
    updating s handler bindingId (fun row => { row with
      environment := environment.getD row.environment
      status := match disable with
        | some true => .disabled
        | some false => .pending
        | none => row.status }) fun _ => rfl
  | .lockDomain bindingId approved =>
    match getBindingById s.db.toDatabase bindingId with
    | some binding => locking s (.binding binding.id) handler (.writeDecision binding approved)
    | none => (s.leave handler,none)
  | .writeDecision binding approved =>
    match decided approved binding with
    | some (reviewStatus,status) =>
      committing s handler binding.id (fun row => { row with reviewStatus, status }) fun _ => rfl
    | none => (s.leave handler,none)
  | .lockHost projectId bindingId =>
    match (s.db.bindings.find bindingId).filter fun binding => projectId.all fun id => binding.projectId = id with
    | some binding => locking s (.binding binding.id) handler (.writeDeletion binding)
    | none => (s.leave handler,none)
  | .writeDeletion binding =>
    if binding.deletedAt.isSome then (s.leave handler,none)
    else committing s handler binding.id (fun row => { row with deletedAt := some s.clock, isPrimary := false }) fun _ => rfl
  | .listHosts projectId =>
    (s,some (.deleteHosts ((listBindingsForProject s.db.toDatabase projectId).map HostBinding.id)))
  | .deleteHosts bindingIds =>
    if ∃ id ∈ bindingIds, Lock.binding id ∈ s.locks then (s,some handler)
    else
      match s.db.bindings.updateWhere (fun row => row.id ∈ bindingIds ∧ row.deletedAt.isNone)
        (fun row => { row with deletedAt := some s.clock, isPrimary := false }) fun _ => rfl with
      | some bindings => (s.withBindings bindings,none)
      | none => (s.leave handler,none)
  | .changeEntries ingresses => ({ s with db := { s.db with ingresses } },none)
  | .changeCertificates certificates => ({ s with db := { s.db with certificates } },none)

def Shared.later (s : Shared) (elapsed : Nat) : Shared := { s with clock := s.clock + elapsed }

def act (input : Input) (s : Shared) (handler : Handler) : Shared × Option Handler :=
  if input.fails then ((s.later input.elapsed).leave handler,none) else advance input (s.later input.elapsed) handler

def enter : Request → Handler
  | .bindHost request contactEmail => .bindHost request contactEmail
  | .runCheck bindingId force => .claimCheck bindingId force
  | .updateHost projectId bindingId environment disable => .readHost projectId bindingId environment disable
  | .decide bindingId approved => .lockDomain bindingId approved
  | .deleteHost projectId bindingId => .lockHost projectId bindingId
  | .deleteProject projectId => .listHosts projectId
  | .changeEntries ingresses => .changeEntries ingresses
  | .changeCertificates certificates => .changeCertificates certificates

def machine : Machine Shared Handler Request Input := ⟨enter,act⟩

def idle (db : IngressDatabase) (clock : Timestamp) (drawn : Nat) : Config Shared Handler :=
  ⟨{ db := { db with bindings := ∅, onboarding := ∅ }, clock, drawn },[]⟩

/-- What an action does, and how its handler goes on. Whoever is no check leaves the ownership of bindings as it is. -/
inductive Acts (s : Shared) : Handler → Shared → Option Handler → Prop
  | waits (handler : Handler) : Acts s handler s (some handler)
  | ends (handler : Handler) : Acts s handler (s.leave handler) none
  | continues (handler next : Handler) (free : next.guards = handler.guards) (none' : handler.guards = 0) :
      Acts s handler s (some next)
  | bound (request : BindHostRequest) (contactEmail : String) (binding : HostBinding)
      (pending : binding.ownershipStatus = .pending)
      (bindings : Table HostBinding (·.id) HostBinding.entries) (inserted : s.db.bindings.insert binding = some bindings)
      (onboarding : Table DomainOnboarding (·.bindingId) unindexed)
      (due : s.db.onboarding.insert { bindingId := binding.id, contactEmail, nextCheckAt := s.clock } = some onboarding) :
      Acts s (.bindHost request contactEmail)
        { s with db := { s.db with bindings, onboarding }, drawn := s.drawn + 1 } (some (.settleBinding binding))
  | claimed (bindingId : Uuid) (force : Bool) (free : .check bindingId ∉ s.locks)
      (onboarding : Table DomainOnboarding (·.bindingId) unindexed)
      (updated : s.db.onboarding.update bindingId
        (fun row => { row with leaseUntil := some (s.clock + checkLease) }) (fun _ => rfl) = some onboarding) :
      Acts s (.claimCheck bindingId force)
        { s with db := { s.db with onboarding }, log := s.log ++ [.leased bindingId (s.clock + checkLease)] }
        (some (.readBinding bindingId (s.clock + checkLease)))
  | lockedBinding (bindingId : Uuid) (lease : Timestamp) (unchanged : Bool) (result : CheckResult) (current : HostBinding)
      (found : s.db.bindings.find current.id = some current) (live : current.deletedAt = none)
      (free : .binding current.id ∉ s.locks) :
      Acts s (.lockBinding bindingId lease unchanged result) { s with locks := .binding current.id ::ₘ s.locks }
        (some (.lockCheck current lease unchanged result))
  | lockedCheck (current : HostBinding) (lease : Timestamp) (unchanged : Bool) (result : CheckResult)
      (check : DomainOnboarding) (found : s.db.onboarding.find current.id = some check) (leased : check.leaseUntil = some lease)
      (free : .check current.id ∉ s.locks) :
      Acts s (.lockCheck current lease unchanged result) { s with locks := .check current.id ::ₘ s.locks }
        (some (.writeCheck current lease unchanged result))
  | unapplied (current : HostBinding) (lease : Timestamp) (unchanged : Bool) (result : CheckResult)
      (onboarding : Table DomainOnboarding (·.bindingId) unindexed)
      (ended : s.db.onboarding.updateWhere (fun check => check.bindingId = current.id ∧ check.leaseUntil = some lease)
        (checked s.clock (statusAndError current unchanged result)) (fun _ => rfl) = some onboarding) :
      Acts s (.writeCheck current lease unchanged result)
        { s.leave (.writeCheck current lease unchanged result) with db := { s.db with onboarding } } none
  | applies (current : HostBinding) (lease : Timestamp) (unchanged : Bool) (state : ConnectionState) (ownership : DnsVerification)
      (after : HostBinding) (verdict : applied current unchanged (.answered state ownership) = some after)
      (bindings : Table HostBinding (·.id) HostBinding.entries)
      (updated : s.db.bindings.update current.id
        (fun row => { row with ownershipStatus := after.ownershipStatus, status := after.status }) (fun _ => rfl) = some bindings)
      (onboarding : Table DomainOnboarding (·.bindingId) unindexed)
      (ended : s.db.onboarding.updateWhere (fun check => check.bindingId = current.id ∧ check.leaseUntil = some lease)
        (checked s.clock (statusAndError current unchanged (.answered state ownership))) (fun _ => rfl) = some onboarding) :
      Acts s (.writeCheck current lease unchanged (.answered state ownership))
        { s.leave (.writeCheck current lease unchanged (.answered state ownership)) with
          db := { s.db with bindings, onboarding }, log := s.log ++ [.applied current.id lease ownership] } none
  | locked (handler next : Handler) (id : Uuid) (none' : handler.guards = 0) (mine : next.guards = {.binding id})
      (other : handler.checking = false ∧ next.checking = false) (free : .binding id ∉ s.locks) :
      Acts s handler { s with locks := .binding id ::ₘ s.locks } (some next)
  | rewritten (handler : Handler) (other : handler.checking = false) (selected : HostBinding → Prop) [DecidablePred selected]
      (change : HostBinding → HostBinding) (keeps : ∀ row, (change row).id = row.id)
      (kept : ∀ row, (change row).ownershipStatus = row.ownershipStatus)
      (free : ∀ row, selected row → .binding row.id ∉ s.locks ∨ .binding row.id ∈ handler.guards)
      (bindings : Table HostBinding (·.id) HostBinding.entries)
      (updated : s.db.bindings.updateWhere selected change keeps = some bindings) :
      Acts s handler ((s.leave handler).withBindings bindings) none
  | entries (ingresses : Table RegionalIngress (·.id) RegionalIngress.entries) :
      Acts s (.changeEntries ingresses) { s with db := { s.db with ingresses } } none
  | certificates (certificates : Table ManagedCertificate (·.id) unindexed) :
      Acts s (.changeCertificates certificates) { s with db := { s.db with certificates } } none

section Acts
variable (input : Input) (s : Shared)

theorem leave_free {handler : Handler} (free : handler.guards = 0) : s.leave handler = s := by
  rw [Shared.leave,free,tsub_zero]

theorem locking_acts (lock : Lock) (handler next : Handler)
    (goes : lock ∉ s.locks → Acts s handler { s with locks := lock ::ₘ s.locks } (some next)) :
    Acts s handler (locking s lock handler next).1 (locking s lock handler next).2 := by
  unfold locking
  split
  · exact .waits handler
  · rename_i free
    exact goes free

theorem reading_acts {α : Type} (handler : Handler) (found : Option α) (next : α → Handler)
    (free : ∀ value, (next value).guards = handler.guards) (none' : handler.guards = 0) :
    Acts s handler (reading s handler found next).1 (reading s handler found next).2 := by
  cases found with
  | some value => exact .continues handler (next value) (free value) none'
  | none => exact .ends handler

theorem updating_acts (handler : Handler) (other : handler.checking = false) (none' : handler.guards = 0) (id : Uuid)
    (change : HostBinding → HostBinding) (keeps : ∀ row, (change row).id = row.id)
    (kept : ∀ row, (change row).ownershipStatus = row.ownershipStatus) :
    Acts s handler (updating s handler id change keeps).1 (updating s handler id change keeps).2 := by
  unfold updating
  split
  · exact .waits handler
  · rename_i free
    split
    · rename_i bindings updated
      have acts := Acts.rewritten (s := s) handler other (fun row => row.id = id) change keeps kept
        (fun row same => .inl (same ▸ free)) bindings updated
      rw [leave_free s none'] at acts
      exact acts
    · exact .ends handler

theorem committing_acts (handler : Handler) (other : handler.checking = false) (id : Uuid) (mine : .binding id ∈ handler.guards)
    (change : HostBinding → HostBinding) (keeps : ∀ row, (change row).id = row.id)
    (kept : ∀ row, (change row).ownershipStatus = row.ownershipStatus) :
    Acts s handler (committing s handler id change keeps).1 (committing s handler id change keeps).2 := by
  unfold committing
  split
  · rename_i bindings updated
    exact .rewritten handler other (fun row => row.id = id) change keeps kept (fun row same => .inr (same ▸ mine)) bindings updated
  · exact .ends handler

theorem getBindingById_some {db : Database} {id : Uuid} {binding : HostBinding} (found : getBindingById db id = some binding) :
    db.bindings.find binding.id = some binding ∧ binding.deletedAt = none := by
  obtain ⟨found,live⟩ := Option.filter_eq_some_iff.mp found
  exact ⟨Table.find_of_mem (Table.find_mem found),by simpa using live⟩

theorem writeCheck_acts (current : HostBinding) (lease : Timestamp) (unchanged : Bool) (result : CheckResult)
    {db : IngressDatabase} (written : writeCheck s current lease unchanged result = some db) :
    Acts s (.writeCheck current lease unchanged result)
      { s.leave (.writeCheck current lease unchanged result) with
        db, log := s.log ++ application current lease unchanged result } none := by
  obtain ⟨bindings,updated,written⟩ := Option.bind_eq_some_iff.mp written
  obtain ⟨onboarding,ended,written⟩ := Option.bind_eq_some_iff.mp written
  cases written
  cases verdict : applied current unchanged result with
  | none =>
    rw [verdict] at updated
    cases updated
    have nothing : application current lease unchanged result = [] := by
      simp [application,verdict]
    rw [nothing,List.append_nil]
    exact .unapplied current lease unchanged result onboarding ended
  | some after =>
    rw [verdict] at updated
    obtain ⟨_,_,state,ownership,rfl,_⟩ := applied_some verdict
    have logged : application current lease unchanged (.answered state ownership) = [.applied current.id lease ownership] := by
      simp [application,verdict]
    rw [logged]
    exact .applies current lease unchanged state ownership after verdict bindings updated onboarding ended

theorem advance_acts (handler : Handler) : Acts s handler (advance input s handler).1 (advance input s handler).2 := by
  cases handler with
  | bindHost request contactEmail =>
    simp only [advance]
    split
    · exact .ends _
    · split
      · rename_i db inserted
        obtain ⟨bindings,row,inserted⟩ := Option.bind_eq_some_iff.mp inserted
        obtain ⟨onboarding,due,inserted⟩ := Option.bind_eq_some_iff.mp inserted
        cases inserted
        exact .bound request contactEmail _ rfl bindings row onboarding due
      · exact .ends _
  | settleBinding binding => exact updating_acts s _ rfl rfl _ _ _ fun _ => rfl
  | claimCheck bindingId force =>
    simp only [advance]
    split
    · exact .waits _
    · rename_i free
      split
      · exact .ends _
      · split
        · rename_i onboarding updated
          exact .claimed bindingId force free onboarding updated
        · exact .ends _
  | readBinding bindingId lease => exact reading_acts s _ _ _ (fun _ => rfl) rfl
  | readEntry binding lease =>
    simp only [advance]
    split
    · exact .continues _ _ rfl rfl
    · exact .continues _ _ rfl rfl
  | resolve binding lease entry =>
    simp only [advance]
    split
    · exact .continues _ _ rfl rfl
    · exact .continues _ _ rfl rfl
  | compareEntry bindingId lease entry result => exact .continues _ _ rfl rfl
  | lockBinding bindingId lease unchanged result =>
    simp only [advance]
    split
    · rename_i current found
      obtain ⟨found,live⟩ := getBindingById_some found
      exact locking_acts s _ _ _ fun free => .lockedBinding bindingId lease unchanged result current found live free
    · exact .ends _
  | lockCheck current lease unchanged result =>
    simp only [advance]
    split
    · rename_i check found
      obtain ⟨found,leased⟩ := Option.filter_eq_some_iff.mp found
      exact locking_acts s _ _ _ fun free =>
        .lockedCheck current lease unchanged result check found (of_decide_eq_true leased) free
    · exact .ends _
  | writeCheck current lease unchanged result =>
    simp only [advance]
    split
    · rename_i db written
      exact writeCheck_acts s current lease unchanged result written
    · exact .ends _
  | readHost projectId bindingId environment disable => exact reading_acts s _ _ _ (fun _ => rfl) rfl
  | writeHost bindingId environment disable => exact updating_acts s _ rfl rfl _ _ _ fun _ => rfl
  | lockDomain bindingId approved =>
    simp only [advance]
    split
    · exact locking_acts s _ _ _ fun free => .locked _ _ _ rfl rfl ⟨rfl,rfl⟩ free
    · exact .ends _
  | writeDecision binding approved =>
    simp only [advance]
    split
    · exact committing_acts s _ rfl _ (Multiset.mem_singleton_self _) _ _ fun _ => rfl
    · exact .ends _
  | lockHost projectId bindingId =>
    simp only [advance]
    split
    · exact locking_acts s _ _ _ fun free => .locked _ _ _ rfl rfl ⟨rfl,rfl⟩ free
    · exact .ends _
  | writeDeletion binding =>
    simp only [advance]
    split
    · exact .ends _
    · exact committing_acts s _ rfl _ (Multiset.mem_singleton_self _) _ _ fun _ => rfl
  | listHosts projectId => exact .continues _ _ rfl rfl
  | deleteHosts bindingIds =>
    simp only [advance]
    split
    · exact .waits _
    · rename_i free
      split
      · rename_i bindings updated
        have acts := Acts.rewritten (s := s) (.deleteHosts bindingIds) rfl (fun row => row.id ∈ bindingIds ∧ row.deletedAt.isNone)
          (fun row => { row with deletedAt := some s.clock, isPrimary := false }) (fun _ => rfl) (fun _ => rfl)
          (fun row chosen => .inl fun taken => free ⟨row.id,chosen.1,taken⟩) bindings updated
        rw [leave_free s rfl] at acts
        exact acts
      · exact .ends _
  | changeEntries ingresses => exact .entries ingresses
  | changeCertificates certificates => exact .certificates certificates

theorem act_acts (handler : Handler) :
    Acts (s.later input.elapsed) handler (act input s handler).1 (act input s handler).2 := by
  unfold act
  split
  · exact .ends handler
  · exact advance_acts input _ handler

end Acts

end GrassWorker.DomainOnboarding
