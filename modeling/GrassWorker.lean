import GrassWorker.Foundations.Runs
import GrassWorker.Foundations.Interleaving
import GrassWorker.Foundations.Table
import GrassWorker.Foundations.Transaction
import GrassWorker.Foundations.UnixPath
import GrassWorker.Entity
import GrassWorker.Domain.Deployments
import GrassWorker.Domain.Scheduler
import GrassWorker.Domain.Delivery
import GrassWorker.Infra.Errors
import GrassWorker.Infra.Quota
import GrassWorker.Domain.Activation
import GrassWorker.Features.Stage
import GrassWorker.Features.Governance
import GrassWorker.Features.ServeReports
import GrassWorker.Domain.Projects
import GrassWorker.Features.Claim
import GrassWorker.ControlPlane.Actions
import GrassWorker.ControlPlane.Effects
import GrassWorker.ControlPlane.Commits
import GrassWorker.ControlPlane.Handlers
import GrassWorker.ControlPlane.Runs
import GrassWorker.ControlPlane.BuildStatus
import GrassWorker.ControlPlane.BuildSlots
import GrassWorker.ControlPlane.Releases
import GrassWorker.ControlPlane.PendingReleases
import GrassWorker.ControlPlane.ReviewGate
import GrassWorker.ControlPlane.Calls
import GrassWorker.ControlPlane.Queue
import GrassWorker.Node.BuildJob
import GrassWorker.Node.Paths
import GrassWorker.Cache.Moka
import GrassWorker.Cache.Redis
import GrassWorker.Cache.Contents
import GrassWorker.Infra.SlotRefresh
import GrassWorker.Cache.Agreement
import GrassWorker.Domain.QuotaEvents
import GrassWorker.Domain.SsrLeases
import GrassWorker.Domain.SsrHours
import GrassWorker.Domain.SsrReaping
import GrassWorker.Domain.SsrProcesses
import GrassWorker.Infra.QuotaService
import GrassWorker.Infra.ColdCache
import GrassWorker.Infra.StructuralQuota
import GrassWorker.Domain.DesiredDelivery
import GrassWorker.ControlPlane.Locality
import GrassWorker.Domain.ForwardDelivery
import GrassWorker.ControlPlane.AutoActivation
import GrassWorker.Features.Routes
import GrassWorker.Features.HostResolution
import GrassWorker.Features.RouteAgreement
import GrassWorker.Node.RouteTable
import GrassWorker.Domain.HostNames
import GrassWorker.ControlPlane.RouteHosts
import GrassWorker.Features.Assignments
import GrassWorker.ControlPlane.DeletedProjects
import GrassWorker.Node.RouteRefresh
import GrassWorker.Node.ServedTargets
import GrassWorker.Node.Certificates
import GrassWorker.Node.CertificateSnapshots
import GrassWorker.Node.CertificateCache
import GrassWorker.Cache.Sessions
import GrassWorker.Domain.NodeDeletions
import GrassWorker.Foundations.Frames
import GrassWorker.Domain.DeletionEffects
import GrassWorker.ControlPlane.NodeDrain
import GrassWorker.Foundations.Mutexes
import GrassWorker.Node.SsrManager
import GrassWorker.Node.SingleStart
import GrassWorker.Node.Gateway
import GrassWorker.Node.ForwardedMetadata
import GrassWorker.Foundations.FileSystem
import GrassWorker.Foundations.PathLookup
import GrassWorker.Foundations.FileOperations
import GrassWorker.Archive
import GrassWorker.Node.BuildOutput
import GrassWorker.Node.BuildConfinement
import GrassWorker.Features.NodeSettings
import GrassWorker.ControlPlane.NodeConfigurations
import GrassWorker.ControlPlane.ConfigSync
import GrassWorker.Domain.Ingress
import GrassWorker.Domain.ManagedCertificates
import GrassWorker.Domain.Acme
import GrassWorker.ControlPlane.Issuance
import GrassWorker.ControlPlane.IssuanceFencing
import GrassWorker.ControlPlane.ChallengeBarrier
import GrassWorker.ControlPlane.RegionalSnapshots
import GrassWorker.ControlPlane.Logins
import GrassWorker.ControlPlane.LoginSteps
import GrassWorker.ControlPlane.RevokedLogins
import GrassWorker.ControlPlane.LastAdministrator
import GrassWorker.ControlPlane.OneTimeCodes
import GrassWorker.ControlPlane.SecondFactor
import GrassWorker.ControlPlane.EnforcedFactors
import GrassWorker.Domain.Teams
import GrassWorker.ControlPlane.Invitations
import GrassWorker.ControlPlane.AcceptedOnce
import GrassWorker.Domain.SourceCredentials
import GrassWorker.ControlPlane.CredentialLeases
import GrassWorker.ControlPlane.LeasesRedeemedOnce
import GrassWorker.Domain.DomainOnboarding
import GrassWorker.ControlPlane.DnsChecks
import GrassWorker.ControlPlane.ProvenDomains
import GrassWorker.Domain.PreviewAccess
import GrassWorker.Foundations.Observations
import GrassWorker.ControlPlane.PreviewEntitlement
import GrassWorker.ControlPlane.CapturedAccounts
import GrassWorker.ControlPlane.Registrations
import GrassWorker.ControlPlane.AdmitsOnce
import GrassWorker.Infra.NodeManager
import GrassWorker.Node.SsrRegistry
import GrassWorker.ControlPlane.ArtifactCalls
import GrassWorker.ControlPlane.ClaimTransactions
import GrassWorker.Domain.SsrMonths
import GrassWorker.ControlPlane.StoredArtifacts
import GrassWorker.ControlPlane.StorageQuota
import GrassWorker.Foundations.IpAddr
import GrassWorker.Foundations.Serde
import GrassWorker.Node.Config
import GrassWorker.ControlPlane.AppliedConfigurations
import GrassWorker.Domain.PlacementChoice
import GrassWorker.Domain.RolloutSafety
import GrassWorker.Node.PreviewCookies
import GrassWorker.Node.StaticFiles
import GrassWorker.Unpacking
import GrassWorker.Foundations.Utf8
import GrassWorker.Node.ForwardLogs
import GrassWorker.ControlPlane.PlanChanges
import GrassWorker.ControlPlane.BoundCredentials
import GrassWorker.ControlPlane.BuildMinutes
import GrassWorker.Domain.PlatformSettings
import GrassWorker.ControlPlane.SettingsUpdates
import GrassWorker.CanonicalHosts
import GrassWorker.Domain.ComposedHosts
import GrassWorker.ControlPlane.PersonalTeams
import GrassWorker.Domain.NetworkPolicy
import GrassWorker.Foundations.CharBoundaries
import GrassWorker.Foundations.Fairness
import GrassWorker.Infra.BuildLogs
import GrassWorker.Node.LogCollector
import GrassWorker.Cache.RateLimits
import GrassWorker.Foundations.Toml
import GrassWorker.Node.Checksums
import GrassWorker.Domain.Retention
import GrassWorker.Foundations.Contracts
import GrassWorker.Infra.Redaction
import GrassWorker.Node.TransferBudget
import GrassWorker.Foundations.AtomicSteps
import GrassWorker.Foundations.Crashes
import GrassWorker.Node.StagedArtifacts
import GrassWorker.Node.BuildDirectory
import GrassWorker.Foundations.WhatwgUrl
import GrassWorker.Node.PeerRequests
import GrassWorker.ControlPlane.AuditCleanup
import GrassWorker.Foundations.Saturation
import GrassWorker.Domain.DomainDns
import GrassWorker.Infra.Route53
