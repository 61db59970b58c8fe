import GrassWorker.Domain.Hosts
import GrassWorker.Domain.Nodes
import Mathlib.Data.List.Lex

/-! Regional ingresses: the rows of certificate management, and the Serve nodes that are
healthy entries of a region. -/
namespace GrassWorker

inductive CertificateIssuer
  | letsencrypt | zerossl | manual
deriving DecidableEq, Repr

inductive CertificateStatus
  | pending | issuing | active | failed | disabled
deriving DecidableEq, Repr

inductive IngressHealthStatus
  | unknown | healthy | unhealthy
deriving DecidableEq, Repr

inductive CheckStatus
  | pending | ready | unresolved | mismatch | entryUnavailable | error
deriving DecidableEq, Repr

abbrev Envelope := String

structure RegionalIngress where
  id : Uuid
  region : String
  hostname : String
  enabled : Bool
  healthCheckIntervalSeconds : Int := 30
  deletedAt : Option Timestamp := none
deriving DecidableEq

structure ManagedCertificate where
  id : Uuid
  ingressId : Uuid
  hostBindingId : Option Uuid
  hostname : String
  issuer : CertificateIssuer
  contactEmail : String := ""
  challengeMethod : String := "http01"
  autoRenew : Bool := true
  status : CertificateStatus := .pending
  error : Option String := none
  bundle : Option Envelope := none
  acmeAccount : Option Envelope := none
  revision : String := ""
  issuedAt : Option Timestamp := none
  expiresAt : Option Timestamp := none
  retryAt : Option Timestamp := none
  failureCount : Int := 0
  leaseUntil : Option Timestamp := none
  generation : Uuid
  challengeToken : Option String := none
  challengeValue : Option String := none
  challengeExpiresAt : Option Timestamp := none
deriving DecidableEq

structure DomainOnboarding where
  bindingId : Uuid
  contactEmail : String
  dnsStatus : CheckStatus := .pending
  dnsError : Option String := none
  checkedAt : Option Timestamp := none
  nextCheckAt : Timestamp := 0
  leaseUntil : Option Timestamp := none
deriving DecidableEq

structure NodeIngressStatus where
  nodeId : Uuid
  challengeRevision : String := ""
  tlsReady : Bool := false
  checkedAt : Timestamp
deriving DecidableEq

structure RegionalIngressHealth where
  ingressId : Uuid
  nodeId : Uuid
  status : IngressHealthStatus
  checkedAt : Option Timestamp
deriving DecidableEq

inductive RegionalIngressEntry
  | region (region : String)
  | hostname (hostname : String)
deriving DecidableEq

/-- `ux_regional_ingresses_region_active` and `ux_regional_ingresses_hostname_active`. -/
def RegionalIngress.entries (row : RegionalIngress) : List RegionalIngressEntry :=
  if row.deletedAt.isNone then [.region row.region,.hostname row.hostname] else []

structure IngressDatabase extends Database where
  certificates : Table ManagedCertificate (·.id) unindexed := ∅
  ingresses : Table RegionalIngress (·.id) RegionalIngress.entries := ∅
  onboarding : Table DomainOnboarding (·.bindingId) unindexed := ∅
  ingressStatus : Table NodeIngressStatus (·.nodeId) unindexed := ∅
  health : List RegionalIngressHealth := []
  /-- The certificate authority in `domain_https`. -/
  authority : CertificateIssuer := .letsencrypt

namespace Ingress
open Nodes

def listed (db : IngressDatabase) : List RegionalIngress :=
  (db.ingresses.rows.filter fun ingress => ingress.deletedAt.isNone).insertionSort
    fun first second => first.region.toList ≤ second.region.toList

def getEnabledByRegion (db : IngressDatabase) (region : String) : Option RegionalIngress :=
  db.ingresses.rows.find? fun ingress => ingress.region = region ∧ ingress.enabled ∧ ingress.deletedAt.isNone

structure IngressCandidateInput where
  nodeId : Uuid
  region : String
  baseUrl : String
  healthy : Bool
  priority : Int
deriving DecidableEq

structure IngressCandidate where
  nodeId : Uuid
  baseUrl : String
  priority : Int
deriving DecidableEq

def healthyCandidates (candidates : List IngressCandidateInput) (region : String) : List IngressCandidate :=
  let selected := (candidates.filter fun candidate => candidate.region = region ∧ candidate.healthy).map
    fun candidate => (⟨candidate.nodeId,candidate.baseUrl,candidate.priority⟩ : IngressCandidate)
  selected.insertionSort fun left right =>
    left.priority < right.priority ∨ left.priority = right.priority ∧ left.nodeId ≤ right.nodeId

/-- `saturating_mul(3).max(60)`. -/
def healthCheckFreshnessSeconds (interval : Int) : Int := max (min (interval * 3) i32Max) 60

def wholeSeconds (duration : Int) : Int := duration.tdiv 1000000

/-! The four reads of `healthy_serve_nodes`. -/

def healthOf (db : IngressDatabase) (ingress : RegionalIngress) : List RegionalIngressHealth :=
  db.health.filter fun item => item.ingressId = ingress.id

def serveNodes (db : IngressDatabase) (region : String) : List Node :=
  (db.nodes.rows.filter fun node => node.region = region ∧ node.serveEnabled ∧ node.baseUrl.isSome ∧
    node.deletedAt.isNone).insertionSort fun first second => first.id ≤ second.id

def statusOf (db : IngressDatabase) (nodes : List Node) : List NodeIngressStatus :=
  db.ingressStatus.rows.filter fun status => status.nodeId ∈ nodes.map (·.id)

section Healthy
variable (region : String) (now : Timestamp) (ingress : Option RegionalIngress) (health : List RegionalIngressHealth)
  (tlsStatus : List NodeIngressStatus)

def healthyEntry (node : Node) : Bool :=
  let healthFreshness := (ingress.map fun item => healthCheckFreshnessSeconds item.healthCheckIntervalSeconds).getD 120
  node.status = .active ∧
    (ingress.isNone ∨ (tlsStatus.find? fun status => status.nodeId = node.id).any
      (fun status => status.tlsReady ∧ wholeSeconds (now - status.checkedAt) ≤ 30)) ∧
    node.lastHeartbeatAt.any (fun heartbeat => wholeSeconds (now - heartbeat) ≤ heartbeatStaleSeconds) ∧
    (health.find? fun item => item.nodeId = node.id).any fun item =>
      item.status = .healthy ∧ item.checkedAt.any fun checked => wholeSeconds (now - checked) ≤ healthFreshness

def candidateInput (node : Node) : Option IngressCandidateInput :=
  node.baseUrl.map fun baseUrl => ⟨node.id,node.region,baseUrl,healthyEntry now ingress health tlsStatus node,0⟩

def healthyAmong (nodes : List Node) : List IngressCandidate :=
  healthyCandidates (nodes.filterMap (candidateInput now ingress health tlsStatus)) region

end Healthy

def healthyServeNodes (db : IngressDatabase) (region : String) (now : Timestamp) : List IngressCandidate :=
  let ingress := getEnabledByRegion db region
  let health := (ingress.map (healthOf db)).getD []
  let nodes := serveNodes db region
  healthyAmong region now ingress health (statusOf db nodes) nodes

end Ingress

end GrassWorker
