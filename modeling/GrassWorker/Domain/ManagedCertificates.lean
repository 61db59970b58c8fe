import GrassWorker.Domain.Ingress
import GrassWorker.Foundations.Checks
import Mathlib.Data.List.Lex

/-! Certificate records and the snapshot of a region: what is eligible, and what replaces
the generation that fences an issuance. Certificates, keys and encryption are parameters. -/
namespace GrassWorker.ManagedCertificates
open Transaction Checks Validator Hosts Ingress Certificates

abbrev Der := String

structure PemBundle where
  certificatePem : String
  privateKeyPem : String
deriving DecidableEq

/-- What the PEM and X.509 crates answer, with the seconds of a certificate's validity,
the digest of a text, and the encryption of secrets. -/
structure Crypto where
  digest : String → String
  certs : String → Except String (List Der)
  validity : Der → Option (Timestamp × Timestamp)
  verifyServerName : Der → String → Except String Unit
  privateKey : String → Except String (Option String)
  keysMatch : List Der → String → Except String Unit
  encrypt : Uuid → PemBundle → Envelope
  decrypt : Uuid → Envelope → Except String PemBundle
  challengeRevision : List HttpChallenge → String

structure CertificateValidity where
  issuedAt : Timestamp
  expiresAt : Timestamp
  revision : String
deriving DecidableEq

def micros (seconds : Int) : Timestamp := seconds * 1000000

def unixTimestamp (at' : Timestamp) : Int := at'.fdiv 1000000

def fromUnixTimestamp (seconds : Int) : Except String Timestamp :=
  if -377705116800 ≤ seconds ∧ seconds ≤ 253402300799 then .ok (micros seconds) else .error "timestamp is out of range"

section Pem
variable (crypto : Crypto) (now : Timestamp)

def parsedValidity (entry : Der) (error : String) : Except String (Timestamp × Timestamp) :=
  match crypto.validity entry with
  | none => .error error
  | some (notBefore,notAfter) => do
    let starts ← fromUnixTimestamp notBefore
    let ends ← fromUnixTimestamp notAfter
    return (starts,ends)

def chainValidity : Timestamp → Timestamp → List Der → Except String (Timestamp × Timestamp)
  | issuedAt,expiresAt,[] => .ok (issuedAt,expiresAt)
  | issuedAt,expiresAt,entry :: rest => do
    let (starts,ends) ← parsedValidity crypto entry "invalid certificate chain entry"
    refuse (¬(starts ≤ now ∧ now < ends)) "certificate chain is not currently valid"
    chainValidity (max issuedAt starts) (min expiresAt ends) rest

def validatePem (hostname : String) (bundle : PemBundle) : Except String CertificateValidity := do
  refuse (¬(byteLength bundle.certificatePem.toList ≤ 65536 ∧ byteLength bundle.privateKeyPem.toList ≤ 16384))
    "certificate material exceeds size limit"
  match ← crypto.certs bundle.certificatePem with
  | [] => throw "certificate chain is empty"
  | leaf :: others =>
    let (issuedAt,expiresAt) ← parsedValidity crypto leaf "invalid X.509 certificate"
    refuse (¬(issuedAt ≤ now ∧ now < expiresAt)) "certificate is not currently valid"
    let (issuedAt,expiresAt) ← chainValidity crypto now issuedAt expiresAt others
    crypto.verifyServerName leaf hostname
    match ← crypto.privateKey bundle.privateKeyPem with
    | none => throw "private key is missing"
    | some key =>
      crypto.keysMatch (leaf :: others) key
      return ⟨issuedAt,expiresAt,crypto.digest bundle.certificatePem⟩

end Pem

/-! Eligibility. -/

/-- The first read of `eligible`. -/
def ingressEligible (ingress : Option RegionalIngress) (item : ManagedCertificate) : Bool :=
  ingress.any fun ingress => ingress.enabled ∧ ingress.deletedAt.isNone ∧ item.ingressId = ingress.id

def hostEligible (binding : Option HostBinding) (item : ManagedCertificate) (region : String) : Bool :=
  binding.any fun binding => bindingEligible binding ∧ binding.host = item.hostname ∧ binding.region = region

def eligible (db : IngressDatabase) (item : ManagedCertificate) (ingressId : Uuid) : Bool :=
  match db.ingresses.find ingressId with
  | none => false
  | some ingress =>
    ingressEligible (some ingress) item && hostEligible (item.hostBindingId.bind db.bindings.find) item ingress.region

def leased (item : ManagedCertificate) (now : Timestamp) : Bool := item.leaseUntil.any fun until' => now < until'

def delayed (item : ManagedCertificate) (now : Timestamp) : Bool := item.retryAt.any fun until' => now < until'

def databaseError : String := "database error"

def updateCertificate (id : Uuid) (change : ManagedCertificate → ManagedCertificate)
    (keeps : ∀ row, (change row).id = row.id) : Transaction IngressDatabase String ManagedCertificate :=
  write (fun db => do
    let certificates ← db.certificates.update id change keeps
    let row ← certificates.find id
    return (row,{ db with certificates })) databaseError

def insertCertificate (row : ManagedCertificate) : Transaction IngressDatabase String ManagedCertificate :=
  write (fun db => do
    let certificates ← db.certificates.insert row
    return (row,{ db with certificates })) databaseError

section Writes
variable {db : IngressDatabase} {id : Uuid} {change : ManagedCertificate → ManagedCertificate}
  {keeps : ∀ row, (change row).id = row.id}

theorem ensures_updateCertificate (post : ManagedCertificate → IngressDatabase → Prop) :
    Ensures (updateCertificate id change keeps) db post ↔
      ∀ certificates row, db.certificates.find id = some row → db.certificates.update id change keeps = some certificates →
        post (change row) { db with certificates } := by
  have after : ∀ certificates, db.certificates.update id change keeps = some certificates →
      certificates.find id = (db.certificates.find id).map change := by
    intro certificates updated
    rw [Table.find_update updated,if_pos rfl]
  rw [updateCertificate,ensures_write]
  constructor
  · intro whole certificates row found updated
    refine whole (change row) _ ?_
    simp [updated,after certificates updated,found]
  · intro parts row last written
    obtain ⟨certificates,updated,written⟩ := Option.bind_eq_some_iff.mp written
    obtain ⟨present,found,written⟩ := Option.bind_eq_some_iff.mp written
    cases written
    rw [after certificates updated] at found
    obtain ⟨old,present,rfl⟩ := Option.map_eq_some_iff.mp found
    exact parts certificates old present updated

theorem update_certificates (id : Uuid) (keeps : ∀ row, (change row).id = row.id) (certificates : Table ManagedCertificate (·.id) unindexed) :
    ∃ after, certificates.update id change keeps = some after := by
  refine Table.update_of_free ?_ ?_
  · intro row _ _
    exact List.nodup_nil
  · intro row _ _ other _ _
    exact List.disjoint_nil_left _

theorem succeeds_updateCertificate (post : ManagedCertificate → IngressDatabase → Prop) :
    Succeeds (updateCertificate id change keeps) db post ↔
      ∃ certificates row, db.certificates.find id = some row ∧ db.certificates.update id change keeps = some certificates ∧
        post (change row) { db with certificates } := by
  have after : ∀ certificates, db.certificates.update id change keeps = some certificates →
      certificates.find id = (db.certificates.find id).map change := by
    intro certificates updated
    rw [Table.find_update updated,if_pos rfl]
  rw [updateCertificate,succeeds_write]
  constructor
  · rintro ⟨row,last,written,holds⟩
    obtain ⟨certificates,updated,written⟩ := Option.bind_eq_some_iff.mp written
    obtain ⟨present,found,written⟩ := Option.bind_eq_some_iff.mp written
    cases written
    rw [after certificates updated] at found
    obtain ⟨old,present,rfl⟩ := Option.map_eq_some_iff.mp found
    exact ⟨certificates,old,present,updated,holds⟩
  · rintro ⟨certificates,row,found,updated,holds⟩
    refine ⟨change row,_,?_,holds⟩
    simp [updated,after certificates updated,found]

theorem ensures_insertCertificate (row : ManagedCertificate) (post : ManagedCertificate → IngressDatabase → Prop) :
    Ensures (insertCertificate row) db post ↔
      ∀ certificates, db.certificates.insert row = some certificates → post row { db with certificates } := by
  rw [insertCertificate,ensures_write]
  constructor
  · intro whole certificates inserted
    exact whole row _ (by simp [inserted])
  · intro parts last after written
    obtain ⟨certificates,inserted,written⟩ := Option.bind_eq_some_iff.mp written
    cases written
    exact parts certificates inserted

end Writes

def clearChallenge (row : ManagedCertificate) : ManagedCertificate :=
  { row with challengeToken := none, challengeValue := none, challengeExpiresAt := none }

section Records
variable (now : Timestamp) (fresh : Uuid)

/-- Another hostname or ingress: the issuance starts over, and a certificate for another name is dropped. -/
def moved (hostname : String) (ingressId : Uuid) (row : ManagedCertificate) : ManagedCertificate :=
  let restarted := { clearChallenge row with
    hostname, ingressId, acmeAccount := none, status := .pending, error := none, retryAt := none
    failureCount := 0, leaseUntil := none, generation := fresh }
  if row.hostname = hostname then restarted
  else { restarted with bundle := none, revision := "", expiresAt := none, issuedAt := none }

theorem moved_id (hostname : String) (ingressId : Uuid) (row : ManagedCertificate) :
    (moved fresh hostname ingressId row).id = row.id := by
  unfold moved
  dsimp only
  split <;> rfl

def newCertificate (ingressId : Uuid) (binding : HostBinding) (issuer : CertificateIssuer) (contactEmail : String) :
    ManagedCertificate where
  id := binding.id
  ingressId
  hostBindingId := some binding.id
  hostname := binding.host
  issuer
  contactEmail
  generation := fresh

def ensureRecord (ingressId : Uuid) (binding : HostBinding) : Transaction IngressDatabase String ManagedCertificate := do
  let ingress ← orElse (← query (·.ingresses.find ingressId)) "regional ingress no longer exists"
  match ← query (·.certificates.find binding.id) with
  | some item =>
    if item.hostname = binding.host ∧ item.ingressId = ingress.id then return item
    else
      require (leased item now = false) "Certificate issuance is in progress"
      updateCertificate item.id (moved fresh binding.host ingress.id) (moved_id fresh binding.host ingress.id)
  | none =>
    let issuer ← query (·.authority)
    let connection ← orElse (← query (·.onboarding.find binding.id))
      "Domain contact is missing. Re-add this domain with a user account."
    insertCertificate (newCertificate fresh ingress.id binding issuer connection.contactEmail)

def queueColumns (row : ManagedCertificate) : ManagedCertificate :=
  { row with status := .pending, retryAt := none, error := none, generation := fresh }

/-- The checks of `queue`. -/
def queueable (item : ManagedCertificate) : Bool := item.issuer ≠ .manual ∧ ¬leased item now ∧ ¬delayed item now

def queue (id : Uuid) : Transaction IngressDatabase String ManagedCertificate := do
  let item ← orElse (← query (·.certificates.find id)) "certificate no longer exists"
  require (item.issuer ≠ .manual) "manual certificates must be imported"
  require (leased item now = false) "certificate issuance is already in progress"
  require (delayed item now = false) "certificate retry is temporarily delayed after failure"
  updateCertificate id (queueColumns fresh) fun _ => rfl

def importColumns (bundle : Envelope) (validity : CertificateValidity) (row : ManagedCertificate) : ManagedCertificate :=
  { clearChallenge row with
    issuer := .manual, autoRenew := false, status := .active, error := none, bundle := some bundle
    issuedAt := some validity.issuedAt, expiresAt := some validity.expiresAt, revision := validity.revision
    generation := fresh, leaseUntil := none, retryAt := none, failureCount := 0 }

def importBundle (crypto : Crypto) (id : Uuid) (bundle : PemBundle) : Transaction IngressDatabase String ManagedCertificate := do
  let item ← orElse (← query (·.certificates.find id)) "certificate no longer exists"
  require (leased item now = false) "wait for the in-progress certificate attempt before importing"
  let validity ← ofExcept (validatePem crypto now item.hostname bundle)
  updateCertificate id (importColumns fresh (crypto.encrypt item.id bundle) validity) fun _ => rfl

/-- `UpdateRequest` of the certificate settings. -/
structure SettingsRequest where
  challengeMethod : Option String := none
  certificateAutoRenew : Option Bool := none
  certificateIssuer : Option CertificateIssuer := none

def SettingsRequest.restarts (body : SettingsRequest) (item : ManagedCertificate) : Bool :=
  body.challengeMethod.any (fun method => method ≠ item.challengeMethod) ∨
    body.certificateIssuer.any (fun issuer => issuer ≠ item.issuer)

def settingsColumns (body : SettingsRequest) (item row : ManagedCertificate) : ManagedCertificate :=
  let row := { row with
    challengeMethod := body.challengeMethod.getD row.challengeMethod
    autoRenew := body.certificateAutoRenew.getD row.autoRenew
    issuer := body.certificateIssuer.getD row.issuer
    acmeAccount := if body.certificateIssuer.isSome then none else row.acmeAccount
    generation := fresh }
  if body.restarts item then { row with status := .pending, retryAt := none, failureCount := 0 } else row

theorem settingsColumns_id (body : SettingsRequest) (item row : ManagedCertificate) :
    (settingsColumns fresh body item row).id = row.id := by
  unfold settingsColumns
  dsimp only
  split <;> rfl

/-- The checks of `updateSettings`. -/
def updatable (authority : CertificateIssuer) (item : ManagedCertificate) (body : SettingsRequest) (row : ManagedCertificate) :
    Bool :=
  (body.challengeMethod.all fun method => decide (method = "http01")) ∧
    (body.certificateIssuer.all fun issuer => decide (issuer = .manual ∨ issuer = authority)) ∧
    (body.restarts item = false ∨ leased item now = false) ∧ row.generation = item.generation ∧ leased row now = false

/-- The conditional write: the generation is the one that was read and nothing holds the lease. -/
def updateSettings (item : ManagedCertificate) (body : SettingsRequest) : Transaction IngressDatabase String ManagedCertificate := do
  require (body.challengeMethod.all fun method => decide (method = "http01"))
    "Custom domains use HTTP validation (http01)"
  let authority ← query (·.authority)
  require (body.certificateIssuer.all fun issuer => decide (issuer = .manual ∨ issuer = authority))
    "automatic issuer must match the platform certificate authority"
  require (body.restarts item = false ∨ leased item now = false)
    "wait for the in-progress certificate attempt before changing its method"
  let row ← orElse (← query (·.certificates.find item.id))
    "Certificate changed or issuance is in progress. Refresh and try again."
  require (row.generation = item.generation ∧ leased row now = false)
    "Certificate changed or issuance is in progress. Refresh and try again."
  updateCertificate item.id (settingsColumns fresh body item) (settingsColumns_id fresh body item)

end Records

/-! What a transaction on records can write. -/

inductive Rewrites (db : IngressDatabase) : IngressDatabase → Prop
  | nothing : Rewrites db db
  | updated {id : Uuid} {change : ManagedCertificate → ManagedCertificate} {keeps : ∀ row, (change row).id = row.id}
      {certificates : Table ManagedCertificate (·.id) unindexed}
      (bound : ∀ row, (change row).hostBindingId = row.hostBindingId)
      (written : db.certificates.update id change keeps = some certificates) : Rewrites db { db with certificates }
  | inserted {fresh ingressId : Uuid} {binding : HostBinding} {issuer : CertificateIssuer} {contactEmail : String}
      {certificates : Table ManagedCertificate (·.id) unindexed}
      (written : db.certificates.insert (newCertificate fresh ingressId binding issuer contactEmail) = some certificates) :
      Rewrites db { db with certificates }

theorem Rewrites.ingressStatus {db after : IngressDatabase} (rewrites : Rewrites db after) :
    after.ingressStatus = db.ingressStatus := by
  cases rewrites <;> rfl

section Rewriting
variable (db : IngressDatabase) (now : Timestamp) (fresh : Uuid)

theorem updateCertificate_rewrites (id : Uuid) (change : ManagedCertificate → ManagedCertificate)
    (keeps : ∀ row, (change row).id = row.id) (bound : ∀ row, (change row).hostBindingId = row.hostBindingId) :
    Ensures (updateCertificate id change keeps) db fun _ => Rewrites db := by
  rw [ensures_updateCertificate]
  intro certificates row _ updated
  exact .updated bound updated

theorem ensureRecord_rewrites (ingress : Uuid) (binding : HostBinding) :
    Ensures (ensureRecord now fresh ingress binding) db fun _ => Rewrites db := by
  simp only [ensureRecord,ensures_bind,ensures_query,ensures_orElse]
  intro found _
  cases db.certificates.find binding.id with
  | none =>
    simp only [ensures_bind,ensures_query,ensures_orElse,ensures_insertCertificate]
    intro connection _ certificates inserted
    exact .inserted inserted
  | some item =>
    simp only [ensures_ite,ensures_pure,ensures_bind,ensures_require]
    refine ⟨fun _ => .nothing,fun _ _ => updateCertificate_rewrites db _ _ _ fun row => ?_⟩
    unfold moved
    dsimp only
    split <;> rfl

theorem queue_rewrites (id : Uuid) : Ensures (queue now fresh id) db fun _ => Rewrites db := by
  simp only [queue,ensures_bind,ensures_query,ensures_orElse,ensures_require]
  intro _ _ _ _ _
  exact updateCertificate_rewrites db _ _ _ fun _ => rfl

theorem importBundle_rewrites (crypto : Crypto) (id : Uuid) (bundle : PemBundle) :
    Ensures (importBundle now fresh crypto id bundle) db fun _ => Rewrites db := by
  simp only [importBundle,ensures_bind,ensures_query,ensures_orElse,ensures_require,ensures_ofExcept]
  intro _ _ _ _ _
  exact updateCertificate_rewrites db _ _ _ fun _ => rfl

theorem updateSettings_rewrites (item : ManagedCertificate) (body : SettingsRequest) :
    Ensures (updateSettings now fresh item body) db fun _ => Rewrites db := by
  simp only [updateSettings,ensures_bind,ensures_query,ensures_orElse,ensures_require]
  intro _ _ _ _ _ _
  refine updateCertificate_rewrites db _ _ _ fun row => ?_
  unfold settingsColumns
  dsimp only
  split <;> rfl

end Rewriting

/-! The snapshot of a region. -/

section Snapshot
variable (crypto : Crypto) (now : Timestamp)

def challengeOf (item : ManagedCertificate) : Option HttpChallenge :=
  match item.challengeToken,item.challengeValue,item.challengeExpiresAt with
  | some token,some value,some expires =>
    if now < expires then some ⟨item.hostname,token,value,unixTimestamp expires⟩ else none
  | _,_,_ => none

/-- A stored bundle that cannot be read any more, or is not valid now, is left out. -/
def bundleOf (item : ManagedCertificate) : Option CertificateBundle :=
  match item.bundle with
  | none => none
  | some value =>
    if item.expiresAt.any fun expiry => now < expiry then
      match crypto.decrypt item.id value with
      | .error _ => none
      | .ok pem =>
        match validatePem crypto now item.hostname pem with
        | .error _ => none
        | .ok validity => some {
            ingressId := item.id
            hostname := item.hostname
            certificatePem := pem.certificatePem
            privateKeyPem := pem.privateKeyPem
            issuedAtUnix := some (unixTimestamp validity.issuedAt)
            revision := validity.revision
            expiresAtUnix := some (unixTimestamp validity.expiresAt) }
    else none

def itemsOf (db : IngressDatabase) (ingress : RegionalIngress) : List ManagedCertificate :=
  db.certificates.rows.filter fun item => item.ingressId = ingress.id

def challengesOf (items : List ManagedCertificate) : List HttpChallenge :=
  (items.filterMap (challengeOf now)).insertionSort fun first second =>
    first.hostname.toList < second.hostname.toList ∨
      first.hostname.toList = second.hostname.toList ∧ first.token.toList ≤ second.token.toList

def bundlesOf (items : List ManagedCertificate) : List CertificateBundle :=
  (items.filterMap (bundleOf crypto now)).insertionSort fun first second => first.hostname.toList ≤ second.hostname.toList

def assemble (items : List ManagedCertificate) : CertificateBundlesResponse where
  bundles := bundlesOf crypto now items
  challenges := challengesOf now items
  challengeRevision := crypto.challengeRevision (challengesOf now items)

def snapshot (db : IngressDatabase) (region : String) : CertificateBundlesResponse :=
  match getEnabledByRegion db region with
  | none => assemble crypto now []
  | some ingress => assemble crypto now ((itemsOf db ingress).filter fun item => eligible db item ingress.id)

end Snapshot

end GrassWorker.ManagedCertificates
