import GrassWorker.Entity
import GrassWorker.Foundations.Checks
import GrassWorker.Validator
import Mathlib.Data.List.AList

/-! The certificates a node holds for the hosts of its snapshots, and the file it keeps
them in. What a PEM text contains and the digest of a text are parameters. -/
namespace GrassWorker.Certificates
open Checks Validator

/-- `chain` reads the certificates and the key, checks that the leaf covers the host,
and gives the seconds between which the whole chain is valid. -/
structure Pki where
  digest : String → String
  chain : String → String → String → Except String (Timestamp × Timestamp)
  keysMatch : String → String → Except String Unit

structure LoadedCertificate where
  bundle : CertificateBundle
  notBefore : Timestamp
  notAfter : Timestamp
deriving DecidableEq

def LoadedCertificate.validAt (certificate : LoadedCertificate) (now : Timestamp) : Bool :=
  certificate.notBefore ≤ now ∧ now < certificate.notAfter

def maxEntries : Nat := 4096
def maxCertificateBytes : Nat := 1024 * 1024
def maxPrivateKeyBytes : Nat := 64 * 1024

def safeHostname (hostname : String) : Except String String :=
  match normalizeHost hostname with
  | .error _ => .error "invalid ingress hostname"
  | .ok normalized =>
    if 253 < byteLength normalized.toList ∨ ¬normalized.toList.all fun c => isAsciiAlphanumeric c || c = '.' || c = '-' then
      .error "ingress hostname contains unsafe characters"
    else .ok normalized

def safeToken (token : String) : Bool :=
  token ≠ "" ∧ byteLength token.toList ≤ 256 ∧ token.toList.all fun c => isAsciiAlphanumeric c || c = '-' || c = '_'

def validateBundle (pki : Pki) (bundle : CertificateBundle) (now : Timestamp) : Except String LoadedCertificate := do
  let hostname ← safeHostname bundle.hostname
  refuse (maxCertificateBytes < byteLength bundle.certificatePem.toList ∨
    maxPrivateKeyBytes < byteLength bundle.privateKeyPem.toList) "certificate bundle exceeds the size limit"
  let revision := pki.digest bundle.certificatePem
  refuse (bundle.revision ≠ "" ∧ bundle.revision ≠ revision) "certificate revision does not match certificate contents"
  let (notBefore,notAfter) ← pki.chain hostname bundle.certificatePem bundle.privateKeyPem
  refuse (now < notBefore ∨ notAfter ≤ now) "certificate chain is not currently valid"
  pki.keysMatch bundle.certificatePem bundle.privateKeyPem
  return {
    bundle := { bundle with hostname, revision, issuedAtUnix := some notBefore, expiresAtUnix := some notAfter }
    notBefore
    notAfter }

abbrev ChallengeMap := AList fun _ : String × String => HttpChallenge

def validateChallenge (challenge : HttpChallenge) (now : Timestamp) : Except String HttpChallenge := do
  let hostname ← safeHostname challenge.hostname
  let thumbprint := (challenge.token ++ ".").toList.isPrefixOf? challenge.keyAuthorization.toList
  refuse (¬safeToken challenge.token ∨
    ¬thumbprint.any (fun value => byteLength value = 43 && safeToken (String.ofList value)) ∨
    challenge.expiresAtUnix ≤ now ∨ now + 86400 < challenge.expiresAtUnix) "invalid or expired HTTP challenge"
  return { challenge with hostname }

def collectChallenges (now : Timestamp) : ChallengeMap → List HttpChallenge → Except String ChallengeMap
  | accepted,[] => .ok accepted
  | accepted,challenge :: rest => do
    let challenge ← validateChallenge challenge now
    let key := (challenge.hostname,challenge.token)
    refuse (accepted.lookup key).isSome "duplicate HTTP challenge"
    collectChallenges now (accepted.insert key challenge) rest

def validateChallenges (challenges : List HttpChallenge) (revision : String) (now : Timestamp) :
    Except String (ChallengeMap × String) := do
  refuse (128 < byteLength revision.toList ∨
    ¬(revision.toList.all fun c => isAsciiAlphanumeric c || c = '-' || c = '_' || c = '.') ∨
    (challenges ≠ [] ∧ revision = "")) "invalid HTTP challenge revision"
  let accepted ← collectChallenges now ∅ challenges
  return (accepted,revision)

abbrev CertificateMap := AList fun _ : String => LoadedCertificate

structure Snapshot where
  certificates : CertificateMap := ∅
  challenges : ChallengeMap := ∅
  challengeRevision : String := ""

/-- The node's registered identity, under which its cache file may be read back. -/
structure Identity where
  nodeId : Uuid
  region : String
deriving DecidableEq

structure CachedCertificates where
  owner : Identity
  bundles : List CertificateBundle
deriving DecidableEq

structure IngressState where
  snapshot : Snapshot := {}
  cacheDirty : Bool := true

/-- Whether a write of the cache file succeeds, and the removal after a write that did not.
A write that fails leaves the old file in place. -/
structure Disk where
  write : Bool
  remove : Bool

section Apply
variable (pki : Pki) (owner : Identity)

def checkBundles : List String → List Uuid → List CertificateBundle → Except String Unit
  | _,_,[] => .ok ()
  | hosts,identifiers,bundle :: rest => do
    let host ← safeHostname bundle.hostname
    refuse (host ∈ hosts ∨ bundle.ingressId ∈ identifiers) "ingress snapshot contains duplicate certificates"
    checkBundles (host :: hosts) (bundle.ingressId :: identifiers) rest

def unchanged (bundle : CertificateBundle) (now : Timestamp) (certificate : LoadedCertificate) : Bool :=
  certificate.validAt now ∧ certificate.bundle.ingressId = bundle.ingressId ∧
    certificate.bundle.certificatePem = bundle.certificatePem ∧ certificate.bundle.privateKeyPem = bundle.privateKeyPem ∧
    (bundle.revision = "" ∨ certificate.bundle.revision = bundle.revision)

def renew (previous : CertificateMap) (now : Timestamp) (host : String) (bundle : CertificateBundle) : Option LoadedCertificate :=
  match (previous.lookup host).filter (unchanged bundle now) with
  | some certificate => some certificate
  | none =>
    match validateBundle pki bundle now with
    | .ok certificate => some certificate
    | .error _ =>
      (previous.lookup host).filter fun certificate =>
        certificate.bundle.ingressId = bundle.ingressId && certificate.validAt now

def renewAll (previous : CertificateMap) (now : Timestamp) : CertificateMap → List CertificateBundle → Except String CertificateMap
  | certificates,[] => .ok certificates
  | certificates,bundle :: rest => do
    let host ← safeHostname bundle.hostname
    match renew pki previous now host bundle with
    | some certificate => renewAll previous now (certificates.insert host certificate) rest
    | none => renewAll previous now certificates rest

def changed (previous certificates : CertificateMap) : Bool :=
  certificates.entries.length ≠ previous.entries.length ||
    certificates.entries.any fun entry => (previous.lookup entry.1).all fun old =>
      old.bundle.ingressId ≠ entry.2.bundle.ingressId || old.bundle.revision ≠ entry.2.bundle.revision

/-- The end of `apply_at`: memory and file with the new certificates, and whether the file was persisted. -/
def install (state : IngressState) (file : Option CachedCertificates) (response : CertificateBundlesResponse)
    (now : Timestamp) (disk : Disk) (certificates : CertificateMap) : (IngressState × Option CachedCertificates) × Bool :=
  let (challenges,challengeRevision) :=
    match validateChallenges response.challenges response.challengeRevision now with
    | .ok accepted => accepted
    | .error _ => (∅,"")
  let cached := { owner, bundles := certificates.entries.map fun entry => entry.2.bundle }
  let written := changed state.snapshot.certificates certificates || state.cacheDirty
  let persisted := !written || disk.write
  let file :=
    if !persisted then (if disk.remove then none else file)
    else if written then some cached else file
  (({ snapshot := { certificates, challenges, challengeRevision }, cacheDirty := !persisted },file),persisted)

def applyAt (state : IngressState) (file : Option CachedCertificates) (response : CertificateBundlesResponse)
    (now : Timestamp) (disk : Disk) : Except String ((IngressState × Option CachedCertificates) × Bool) := do
  refuse (maxEntries < response.bundles.length ∨ maxEntries < response.challenges.length)
    "ingress snapshot exceeds the entry limit"
  checkBundles [] [] response.bundles
  let certificates ← renewAll pki state.snapshot.certificates now ∅ response.bundles
  return install owner state file response now disk certificates

end Apply

def restoreBundle (pki : Pki) (now : Timestamp) (certificates : CertificateMap) (bundle : CertificateBundle) : CertificateMap :=
  match validateBundle pki bundle now with
  | .ok certificate => certificates.insert certificate.bundle.hostname certificate
  | .error _ => certificates

/-- `restore`: a file of another node or region, or one that is too long, is not used. -/
def restore (pki : Pki) (owner : Identity) (file : Option CachedCertificates) (now : Timestamp) : CertificateMap :=
  match file with
  | none => ∅
  | some cached =>
    if cached.owner ≠ owner ∨ maxEntries < cached.bundles.length then ∅
    else cached.bundles.foldl (restoreBundle pki now) ∅

/-! What a validated bundle is. -/

section Validation
variable {pki : Pki} {bundle : CertificateBundle} {certificate : LoadedCertificate} {now : Timestamp}

theorem normal_of_safeHostname {hostname host : String} (ok : safeHostname hostname = .ok host) : normalizeHost host = .ok host := by
  unfold safeHostname at ok
  cases normal : normalizeHost hostname with
  | error problem =>
    rw [normal] at ok
    cases ok
  | ok normalized =>
    rw [normal] at ok
    simp only at ok
    split at ok
    · cases ok
    · cases ok
      exact normalizeHost_eq_self.mpr (host_of_normalizeHost normal)

theorem safeHostname_safe {hostname host : String} (ok : safeHostname hostname = .ok host) : safeHostname host = .ok host := by
  have normal := normal_of_safeHostname ok
  unfold safeHostname at ok ⊢
  rw [normal]
  cases named : normalizeHost hostname with
  | error problem =>
    rw [named] at ok
    cases ok
  | ok normalized =>
    rw [named] at ok
    simp only at ok ⊢
    split at ok
    · cases ok
    · rename_i clean
      cases ok
      rw [if_neg clean]

def CertificateBundle.Fits (bundle : CertificateBundle) : Prop :=
  byteLength bundle.certificatePem.toList ≤ maxCertificateBytes ∧ byteLength bundle.privateKeyPem.toList ≤ maxPrivateKeyBytes

def CertificateBundle.loaded (bundle : CertificateBundle) (pki : Pki) (hostname : String) (notBefore notAfter : Timestamp) :
    LoadedCertificate where
  bundle := { bundle with
    hostname
    revision := pki.digest bundle.certificatePem
    issuedAtUnix := some notBefore
    expiresAtUnix := some notAfter }
  notBefore
  notAfter

theorem validateBundle_ok_iff : validateBundle pki bundle now = .ok certificate ↔
    ∃ host notBefore notAfter, safeHostname bundle.hostname = .ok host ∧ bundle.Fits ∧
      (bundle.revision = "" ∨ bundle.revision = pki.digest bundle.certificatePem) ∧
      pki.chain host bundle.certificatePem bundle.privateKeyPem = .ok (notBefore,notAfter) ∧
      (notBefore ≤ now ∧ now < notAfter) ∧ pki.keysMatch bundle.certificatePem bundle.privateKeyPem = .ok () ∧
      certificate = bundle.loaded pki host notBefore notAfter := by
  constructor
  · intro ok
    obtain ⟨host,named,ok⟩ := bind_eq_ok.mp ok
    obtain ⟨fits,ok⟩ := refuse_bind_eq_ok.mp ok
    obtain ⟨revision,ok⟩ := refuse_bind_eq_ok.mp ok
    obtain ⟨⟨notBefore,notAfter⟩,chain,ok⟩ := bind_eq_ok.mp ok
    obtain ⟨valid,ok⟩ := refuse_bind_eq_ok.mp ok
    obtain ⟨⟨⟩,keys,ok⟩ := bind_eq_ok.mp ok
    have within : bundle.Fits := by
      unfold CertificateBundle.Fits
      omega
    have agrees : bundle.revision = "" ∨ bundle.revision = pki.digest bundle.certificatePem := by
      rwa [not_and_or,not_not,not_not] at revision
    have current : notBefore ≤ now ∧ now < notAfter := by rwa [not_or,Int.not_lt,Int.not_le] at valid
    exact ⟨host,notBefore,notAfter,named,within,agrees,chain,current,keys,(pure_eq_ok.mp ok).symm⟩
  · rintro ⟨host,notBefore,notAfter,named,within,agrees,chain,current,keys,rfl⟩
    unfold CertificateBundle.Fits at within
    refine bind_eq_ok.mpr ⟨host,named,refuse_bind_eq_ok.mpr ⟨by omega,refuse_bind_eq_ok.mpr ⟨?_,?_⟩⟩⟩
    · rwa [not_and_or,not_not,not_not]
    · refine bind_eq_ok.mpr ⟨_,chain,refuse_bind_eq_ok.mpr ⟨?_,bind_eq_ok.mpr ⟨⟨⟩,keys,rfl⟩⟩⟩
      rwa [not_or,Int.not_lt,Int.not_le]

def Loaded (pki : Pki) (certificate : LoadedCertificate) : Prop :=
  ∃ bundle now, validateBundle pki bundle now = .ok certificate

/-- The bundle has the content of a certificate and does not contradict its revision. -/
structure CertificateBundle.Agrees (bundle : CertificateBundle) (certificate : LoadedCertificate) : Prop where
  hostname : safeHostname bundle.hostname = .ok certificate.bundle.hostname
  ingressId : bundle.ingressId = certificate.bundle.ingressId
  certificatePem : bundle.certificatePem = certificate.bundle.certificatePem
  privateKeyPem : bundle.privateKeyPem = certificate.bundle.privateKeyPem
  revision : bundle.revision = "" ∨ bundle.revision = certificate.bundle.revision

/-- A bundle that agrees with a loaded certificate loads as that certificate, as long as it is valid. -/
theorem Loaded.agreeing (loaded : Loaded pki certificate) (agrees : bundle.Agrees certificate)
    (now : Timestamp) (other : LoadedCertificate) :
    validateBundle pki bundle now = .ok other ↔ certificate.validAt now = true ∧ other = certificate := by
  obtain ⟨source,earlier,ok⟩ := loaded
  obtain ⟨host,notBefore,notAfter,named,fits,_,chain,_,keys,rfl⟩ := validateBundle_ok_iff.mp ok
  obtain ⟨hostname,ingressId,certificatePem,privateKeyPem,revision⟩ := agrees
  obtain ⟨bundleIngress,bundleHost,bundlePem,bundleKey,issued,bundleRevision,expires⟩ := bundle
  simp only [CertificateBundle.loaded] at ingressId certificatePem privateKeyPem hostname revision
  subst ingressId certificatePem privateKeyPem
  rw [validateBundle_ok_iff]
  unfold LoadedCertificate.validAt
  rw [decide_eq_true_iff]
  constructor
  · rintro ⟨host',notBefore',notAfter',named',_,_,chain',current,_,rfl⟩
    simp only at named' chain' current
    rw [hostname] at named'
    cases named'
    rw [chain] at chain'
    cases chain'
    exact ⟨current,rfl⟩
  · rintro ⟨current,rfl⟩
    exact ⟨host,notBefore,notAfter,hostname,fits,revision,chain,current,keys,rfl⟩

theorem Loaded.hostname (loaded : Loaded pki certificate) :
    safeHostname certificate.bundle.hostname = .ok certificate.bundle.hostname := by
  obtain ⟨source,earlier,ok⟩ := loaded
  obtain ⟨host,notBefore,notAfter,named,_,_,_,_,_,rfl⟩ := validateBundle_ok_iff.mp ok
  exact safeHostname_safe named

theorem Loaded.revision (loaded : Loaded pki certificate) :
    certificate.bundle.revision = pki.digest certificate.bundle.certificatePem := by
  obtain ⟨source,earlier,ok⟩ := loaded
  obtain ⟨host,notBefore,notAfter,_,_,_,_,_,_,rfl⟩ := validateBundle_ok_iff.mp ok
  rfl

theorem Loaded.restored (loaded : Loaded pki certificate) (now : Timestamp) (other : LoadedCertificate) :
    validateBundle pki certificate.bundle now = .ok other ↔ certificate.validAt now = true ∧ other = certificate :=
  loaded.agreeing ⟨loaded.hostname,rfl,rfl,rfl,.inr rfl⟩ now other

theorem validateBundle_content (ok : validateBundle pki bundle now = .ok certificate) :
    bundle.Agrees certificate ∧ certificate.validAt now = true := by
  obtain ⟨host,notBefore,notAfter,named,_,revision,_,current,_,rfl⟩ := validateBundle_ok_iff.mp ok
  exact ⟨⟨named,rfl,rfl,rfl,revision⟩,decide_eq_true current⟩

end Validation

end GrassWorker.Certificates
