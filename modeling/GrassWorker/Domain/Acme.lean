import GrassWorker.Domain.ManagedCertificates

/-! Automatic issuance: when a record is due, the conditional writes of an attempt, and its
first and last transactions. -/
namespace GrassWorker.Acme
open Transaction ManagedCertificates Ingress Certificates

def leaseSeconds : Int := 600
def challengeSeconds : Int := 600
def renewDays : Int := 30

def retryDelay (failures : Int) : Int := micros (min (300 * 2 ^ (max 0 (min failures 8)).toNat) 86400)

def due (item : ManagedCertificate) (now : Timestamp) : Bool :=
  item.issuer ≠ .manual ∧ ¬leased item now ∧ ¬delayed item now ∧
    ((item.status = .pending ∨ item.status = .issuing ∨ item.status = .failed) ∨ item.bundle.isNone ∨
      item.autoRenew ∧ item.expiresAt.all fun until' => until' - now ≤ micros (renewDays * 86400))

def readyForIssuance (check : DomainOnboarding) (now : Timestamp) : Bool :=
  check.dnsStatus = .ready ∧ Validator.trim check.contactEmail.toList ≠ [] ∧
    check.checkedAt.any fun at' => now - at' ≤ micros 300

def current (db : IngressDatabase) (item : ManagedCertificate) : Option ManagedCertificate :=
  (db.certificates.find item.id).filter fun row => row.generation = item.generation

def saveCurrent (item : ManagedCertificate) (change : ManagedCertificate → ManagedCertificate)
    (keeps : ∀ row, (change row).id = row.id) : Transaction IngressDatabase String ManagedCertificate := do
  let _ ← orElse (← query (current · item)) "None of the records are updated"
  updateCertificate item.id change keeps

theorem saveCurrent_spec (db : IngressDatabase) (item : ManagedCertificate) (change : ManagedCertificate → ManagedCertificate)
    (keeps : ∀ row, (change row).id = row.id) :
    Ensures (saveCurrent item change keeps) db fun _ after => ∃ certificates row, db.certificates.find item.id = some row ∧
      row.generation = item.generation ∧ db.certificates.update item.id change keeps = some certificates ∧
      after = { db with certificates } := by
  simp only [saveCurrent,ensures_bind,ensures_query,ensures_orElse]
  intro row read
  obtain ⟨found,same⟩ := Option.filter_eq_some_iff.mp read
  rw [ensures_updateCertificate]
  intro certificates _ _ updated
  exact ⟨certificates,row,found,of_decide_eq_true same,updated,rfl⟩

structure Offer where
  token : String
  value : String
deriving DecidableEq

section Columns
variable (now : Timestamp)

def accountColumns (credentials : Envelope) (row : ManagedCertificate) : ManagedCertificate :=
  { row with acmeAccount := some credentials }

def challengeColumns (offer : Offer) (row : ManagedCertificate) : ManagedCertificate :=
  { row with
    challengeToken := some offer.token
    challengeValue := some offer.value
    challengeExpiresAt := some (now + micros challengeSeconds) }

def leaseColumns (generation : Uuid) (contactEmail : String) (issuer : CertificateIssuer) (row : ManagedCertificate) :
    ManagedCertificate :=
  { row with
    leaseUntil := some (now + micros leaseSeconds)
    status := .issuing
    generation
    contactEmail
    issuer
    acmeAccount := if row.contactEmail = contactEmail ∧ row.issuer = issuer then row.acmeAccount else none }

def storedColumns (bundle : Envelope) (validity : CertificateValidity) (cleaned : Bool) (row : ManagedCertificate) :
    ManagedCertificate :=
  { row with
    leaseUntil := none
    bundle := some bundle
    revision := validity.revision
    issuedAt := some validity.issuedAt
    expiresAt := some validity.expiresAt
    status := .active
    error := if cleaned then none else some "HTTP challenge cleanup is pending; it will be retried"
    retryAt := none
    failureCount := 0 }

def failedColumns (item row : ManagedCertificate) : ManagedCertificate :=
  { row with
    leaseUntil := none
    status := .failed
    error := some ("Certificate issuance failed; check public HTTP access on port 80, entry acknowledgements and " ++
      "certificate authority settings. Automatic retry is scheduled.")
    retryAt := some (now + retryDelay item.failureCount)
    failureCount := item.failureCount + 1 }

theorem clearChallenge_id (row : ManagedCertificate) : (clearChallenge row).id = row.id := rfl
theorem accountColumns_id (credentials : Envelope) (row : ManagedCertificate) : (accountColumns credentials row).id = row.id := rfl
theorem challengeColumns_id (offer : Offer) (row : ManagedCertificate) : (challengeColumns now offer row).id = row.id := rfl
theorem leaseColumns_id (generation : Uuid) (contactEmail : String) (issuer : CertificateIssuer) (row : ManagedCertificate) :
    (leaseColumns now generation contactEmail issuer row).id = row.id := rfl
theorem storedColumns_id (bundle : Envelope) (validity : CertificateValidity) (cleaned : Bool) (row : ManagedCertificate) :
    (storedColumns bundle validity cleaned row).id = row.id := rfl
theorem failedColumns_id (item row : ManagedCertificate) : (failedColumns now item row).id = row.id := rfl

end Columns

/-- What an attempt works with: its record and its ingress as the first transaction left them. -/
structure Attempt where
  item : ManagedCertificate
  ingress : RegionalIngress
deriving DecidableEq

def startable (db : IngressDatabase) (item fresh : ManagedCertificate) (ingress : RegionalIngress)
    (connection : DomainOnboarding) (now : Timestamp) : Bool :=
  fresh.generation = item.generation ∧ due fresh now ∧ eligible db fresh ingress.id ∧
    fresh.hostBindingId = some connection.bindingId ∧ readyForIssuance connection now ∧
    healthyServeNodes db ingress.region now ≠ []

/-- The first transaction of `reconcile_record`; `none` when there is nothing to do. A change of
the issuer draws a second identifier. -/
def start (now : Timestamp) (fresh : Uuid) (item : ManagedCertificate) (ingressId : Uuid) :
    Transaction IngressDatabase String (Option Attempt) := do
  let ingress ← orElse (← query (·.ingresses.find ingressId)) "regional ingress no longer exists"
  let row ← orElse (← query (·.certificates.find item.id)) "Certificate no longer exists"
  match row.hostBindingId.bind (← get).onboarding.find with
  | none => return none
  | some connection =>
    if startable (← get) item row ingress connection now then
      let issuer ← query (·.authority)
      let generation := if row.issuer = issuer then fresh else fresh + 1
      let locked ← updateCertificate item.id (leaseColumns now generation connection.contactEmail issuer)
        (leaseColumns_id now generation connection.contactEmail issuer)
      return some ⟨locked,ingress⟩
    else return none

def clear (item : ManagedCertificate) : Transaction IngressDatabase String Unit := do
  let _ ← saveCurrent item clearChallenge clearChallenge_id

section Rewriting
variable (db : IngressDatabase)

theorem start_rewrites (now : Timestamp) (fresh : Uuid) (item : ManagedCertificate) (ingressId : Uuid) :
    Ensures (start now fresh item ingressId) db fun _ => Rewrites db := by
  simp only [start,ensures_bind,ensures_query,ensures_orElse]
  intro found _ row _
  rw [ensures_get]
  cases row.hostBindingId.bind db.onboarding.find with
  | none =>
    rw [ensures_pure]
    exact .nothing
  | some connection =>
    simp only [ensures_get,ensures_ite,ensures_pure,ensures_bind,ensures_query]
    exact ⟨fun _ => updateCertificate_rewrites db _ _ _ fun _ => rfl,fun _ => .nothing⟩

theorem saveCurrent_rewrites (item : ManagedCertificate) (change : ManagedCertificate → ManagedCertificate)
    (keeps : ∀ row, (change row).id = row.id) (bound : ∀ row, (change row).hostBindingId = row.hostBindingId) :
    Ensures (saveCurrent item change keeps) db fun _ => Rewrites db := by
  simp only [saveCurrent,ensures_bind,ensures_query,ensures_orElse]
  intro _ _
  exact updateCertificate_rewrites db _ _ _ bound

theorem clear_rewrites (item : ManagedCertificate) : Ensures (clear item) db fun _ => Rewrites db := by
  simp only [clear,ensures_bind,ensures_pure]
  exact saveCurrent_rewrites db item _ _ fun _ => rfl

end Rewriting

end GrassWorker.Acme
