import Mathlib.Data.List.Basic

/-! The Control API ↔ Node protocol: the node configuration that is safe to synchronize
(tokens are not in it) and the certificate snapshot of a region. -/
namespace GrassWorker

abbrev Uuid := Nat

inductive GatewayAuthenticationMode
  | token | none
deriving DecidableEq, Repr

structure NodeCapabilities where
  build : Bool
  serve : Bool
deriving DecidableEq

structure NodeResources where
  cpuMillicores : Nat
  memoryMb : Nat
  diskMb : Nat
  maxDeployments : Nat
deriving DecidableEq

structure NodeIdentityConfiguration where
  id : String
  controlApi : String
  workRoot : String
  region : String
  capabilities : NodeCapabilities
deriving DecidableEq

structure NodeBuildConfiguration where
  concurrency : Nat
  commandTimeoutSeconds : Nat
  retainWorkspaceOnFailure : Bool
deriving DecidableEq

structure NodeTlsConfiguration where
  enabled : Bool := false
  port : Nat := 8443
deriving DecidableEq

structure NodeServeCapacityConfiguration where
  cpuMillicores : Nat
  memoryMb : Nat
  diskMb : Nat
  maxDeployments : Nat
deriving DecidableEq

structure NodeSsrConfiguration where
  idleStopSeconds : Nat
  startupTimeoutSeconds : Nat
deriving DecidableEq

structure NodeServeConfiguration where
  host : String
  port : Nat
  publicBaseUrl : String
  metadataCacheTtlSeconds : Nat
  artifactCacheRoot : String
  capacity : NodeServeCapacityConfiguration
  ssr : NodeSsrConfiguration
  tls : NodeTlsConfiguration := {}
deriving DecidableEq

structure NodeRuntimeResourcesConfiguration where
  cpuLimit : Nat
  memoryMb : Nat
deriving DecidableEq

structure NodeRuntimeConfiguration where
  backend : String
  socket : String
  defaultBuildImage : String
  defaultServeImage : String
  network : String
  resources : NodeRuntimeResourcesConfiguration
deriving DecidableEq

structure NodePrivateRepositoryTargetConfiguration where
  host : String
  ip : String
  port : Nat
deriving DecidableEq

structure NodeSecurityConfiguration where
  gatewayAuthentication : GatewayAuthenticationMode := .token
  privateRepositoryTargets : List NodePrivateRepositoryTargetConfiguration
deriving DecidableEq

structure NodeDevelopmentConfiguration where
  verboseBuildLog : Bool
deriving DecidableEq

inductive NodeLogFormat
  | pretty | json
deriving DecidableEq

structure NodeLogConfiguration where
  level : String
  format : NodeLogFormat
deriving DecidableEq

structure NodeConfiguration where
  node : NodeIdentityConfiguration
  build : NodeBuildConfiguration
  serve : NodeServeConfiguration
  runtime : NodeRuntimeConfiguration
  security : NodeSecurityConfiguration
  development : NodeDevelopmentConfiguration
  log : NodeLogConfiguration
deriving DecidableEq

namespace Certificates

abbrev Timestamp := Int

structure CertificateBundle where
  ingressId : Uuid
  hostname : String
  certificatePem : String
  privateKeyPem : String
  issuedAtUnix : Option Timestamp := none
  revision : String := ""
  expiresAtUnix : Option Timestamp := none
deriving DecidableEq

structure HttpChallenge where
  hostname : String
  token : String
  keyAuthorization : String
  expiresAtUnix : Timestamp
deriving DecidableEq

structure CertificateBundlesResponse where
  bundles : List CertificateBundle := []
  challenges : List HttpChallenge := []
  challengeRevision : String := ""

end Certificates

end GrassWorker
