import GrassWorker.Domain.Authentication
import GrassWorker.Foundations.IpAddr
import GrassWorker.Foundations.Overlays
import GrassWorker.Validator
import Mathlib.Data.Fintype.Defs

/-! The settings of the platform that administrators edit: those of the configuration file, which the process has in memory
as well, and those of the database. What `PATCH /settings` makes of a configuration, and its checks. -/
namespace GrassWorker.PlatformSettings
open Overlays Checks Validator Authentication

abbrev Text := List Char

inductive CacheBackend
  | moka | redis
deriving DecidableEq

inductive MailMode
  | none | local' | smtp
deriving DecidableEq

inductive SmtpSecurity
  | none | startTls | tls
deriving DecidableEq

inductive LogFormat
  | pretty | json
deriving DecidableEq

inductive ConfigField
  | serverHost | serverPort | redisBackend
  | sessionCookieSecure | sessionIdleTtlSeconds | sessionTtlSeconds | auditRetentionDays
  | mailMode | mailFromAddress | mailFromName | mailSendmailCommand | mailSmtpHost | mailSmtpPort | mailSmtpSecurity
  | mailSmtpUsername | mailSmtpPassword
  | nodeManagerAutoStartLocalNode | nodeManagerLocalNodeBinary | nodeManagerLocalNodeConfig | nodeManagerRestartOnExit
  | migrationAutoMigrate | logLevel | logFormat
deriving DecidableEq

namespace ConfigField

def all : List ConfigField :=
  [serverHost,serverPort,redisBackend,sessionCookieSecure,sessionIdleTtlSeconds,sessionTtlSeconds,auditRetentionDays,mailMode,
    mailFromAddress,mailFromName,mailSendmailCommand,mailSmtpHost,mailSmtpPort,mailSmtpSecurity,mailSmtpUsername,mailSmtpPassword,
    nodeManagerAutoStartLocalNode,nodeManagerLocalNodeBinary,nodeManagerLocalNodeConfig,nodeManagerRestartOnExit,
    migrationAutoMigrate,logLevel,logFormat]

instance : Fintype ConfigField := ⟨⟨all,by decide⟩,by intro field; cases field <;> decide⟩

abbrev Value : ConfigField → Type
  | serverHost => IpAddr
  | redisBackend => CacheBackend
  | mailMode => MailMode
  | mailSmtpSecurity => SmtpSecurity
  | logFormat => LogFormat
  | serverPort | sessionIdleTtlSeconds | sessionTtlSeconds | auditRetentionDays | mailSmtpPort => Nat
  | sessionCookieSecure | nodeManagerAutoStartLocalNode | nodeManagerRestartOnExit | migrationAutoMigrate => Bool
  | mailFromAddress | mailFromName | mailSendmailCommand | mailSmtpHost | mailSmtpUsername | mailSmtpPassword
  | nodeManagerLocalNodeBinary | nodeManagerLocalNodeConfig | logLevel => Text

instance : ∀ field : ConfigField, DecidableEq field.Value
  | serverHost => inferInstanceAs (DecidableEq IpAddr)
  | redisBackend => inferInstanceAs (DecidableEq CacheBackend)
  | mailMode => inferInstanceAs (DecidableEq MailMode)
  | mailSmtpSecurity => inferInstanceAs (DecidableEq SmtpSecurity)
  | logFormat => inferInstanceAs (DecidableEq LogFormat)
  | serverPort | sessionIdleTtlSeconds | sessionTtlSeconds | auditRetentionDays | mailSmtpPort => inferInstanceAs (DecidableEq Nat)
  | sessionCookieSecure | nodeManagerAutoStartLocalNode | nodeManagerRestartOnExit | migrationAutoMigrate =>
    inferInstanceAs (DecidableEq Bool)
  | mailFromAddress | mailFromName | mailSendmailCommand | mailSmtpHost | mailSmtpUsername | mailSmtpPassword
  | nodeManagerLocalNodeBinary | nodeManagerLocalNodeConfig | logLevel => inferInstanceAs (DecidableEq Text)

def isMail : ConfigField → Bool
  | mailMode | mailFromAddress | mailFromName | mailSendmailCommand | mailSmtpHost | mailSmtpPort | mailSmtpSecurity
  | mailSmtpUsername | mailSmtpPassword => true
  | _ => false

end ConfigField

inductive SettingKey
  | passwordPolicy | registrationVerification | mfaPolicy
  | siteName | siteLogoUrl | siteUrl | publicBaseUrl | signupPolicy | reviewPolicy | domainReviewPolicy
  | logRetentionDays | previewRetentionDays | failedRetentionDays | productionKeep
deriving DecidableEq

def SettingKey.asStr : SettingKey → String
  | passwordPolicy => "auth.password_policy"
  | registrationVerification => "auth.registration_email_verification"
  | mfaPolicy => "auth.mfa_policy"
  | siteName => "site.name"
  | siteLogoUrl => "site.logo_url"
  | siteUrl => "site.url"
  | publicBaseUrl => "site.public_base_url"
  | signupPolicy => "signup.policy"
  | reviewPolicy => "release_review_policy.default"
  | domainReviewPolicy => "domain_review_policy.default"
  | logRetentionDays => "artifact_retention.log_days"
  | previewRetentionDays => "artifact_retention.preview_days"
  | failedRetentionDays => "artifact_retention.failed_days"
  | productionKeep => "artifact_retention.production_keep"

def SettingKey.all : List SettingKey :=
  [.passwordPolicy,.registrationVerification,.mfaPolicy,.siteName,.siteLogoUrl,.siteUrl,.publicBaseUrl,.signupPolicy,.reviewPolicy,
    .domainReviewPolicy,.logRetentionDays,.previewRetentionDays,.failedRetentionDays,.productionKeep]

structure PasswordPolicy where
  minLength : Nat := 8
  maxLength : Nat := 1024
  requireLowercase : Bool := false
  requireUppercase : Bool := false
  requireNumber : Bool := false
  requireSymbol : Bool := false
  historyCount : Nat := 0
deriving DecidableEq

/-- What the database has of the settings. Two of them are parts of one row. -/
inductive SettingField
  | passwordPolicy | registrationEmailVerification | mfaPolicy
  | siteName | siteLogoUrl | siteUrl | publicBaseUrl | signupPolicy | reviewProduction | reviewPreview | domainReviewDefault
  | logRetentionDays | previewRetentionDays | failedRetentionDays | productionKeep
deriving DecidableEq

namespace SettingField

def all : List SettingField :=
  [passwordPolicy,registrationEmailVerification,mfaPolicy,siteName,siteLogoUrl,siteUrl,publicBaseUrl,signupPolicy,reviewProduction,
    reviewPreview,domainReviewDefault,logRetentionDays,previewRetentionDays,failedRetentionDays,productionKeep]

instance : Fintype SettingField := ⟨⟨all,by decide⟩,by intro field; cases field <;> decide⟩

def key : SettingField → SettingKey
  | passwordPolicy => .passwordPolicy
  | registrationEmailVerification => .registrationVerification
  | mfaPolicy => .mfaPolicy
  | siteName => .siteName
  | siteLogoUrl => .siteLogoUrl
  | siteUrl => .siteUrl
  | publicBaseUrl => .publicBaseUrl
  | signupPolicy => .signupPolicy
  | reviewProduction | reviewPreview => .reviewPolicy
  | domainReviewDefault => .domainReviewPolicy
  | logRetentionDays => .logRetentionDays
  | previewRetentionDays => .previewRetentionDays
  | failedRetentionDays => .failedRetentionDays
  | productionKeep => .productionKeep

abbrev Value : SettingField → Type
  | passwordPolicy => PasswordPolicy
  | registrationEmailVerification => Bool
  | mfaPolicy => MfaPolicy
  | siteName | siteLogoUrl | siteUrl | publicBaseUrl => Option Text
  | signupPolicy | reviewProduction | reviewPreview | domainReviewDefault => String
  | logRetentionDays | previewRetentionDays | failedRetentionDays | productionKeep => Nat

instance : ∀ field : SettingField, DecidableEq field.Value
  | passwordPolicy => inferInstanceAs (DecidableEq PasswordPolicy)
  | registrationEmailVerification => inferInstanceAs (DecidableEq Bool)
  | mfaPolicy => inferInstanceAs (DecidableEq MfaPolicy)
  | siteName | siteLogoUrl | siteUrl | publicBaseUrl => inferInstanceAs (DecidableEq (Option Text))
  | signupPolicy | reviewProduction | reviewPreview | domainReviewDefault => inferInstanceAs (DecidableEq String)
  | logRetentionDays | previewRetentionDays | failedRetentionDays | productionKeep => inferInstanceAs (DecidableEq Nat)

def default : (field : SettingField) → field.Value
  | passwordPolicy => ({} : PasswordPolicy)
  | registrationEmailVerification => false
  | mfaPolicy => ({} : MfaPolicy)
  | siteName | siteLogoUrl | siteUrl | publicBaseUrl => (none : Option Text)
  | signupPolicy => "open"
  | reviewProduction => "manual"
  | reviewPreview | domainReviewDefault => "auto"
  | logRetentionDays => (90 : Nat)
  | previewRetentionDays => (7 : Nat)
  | failedRetentionDays => (30 : Nat)
  | productionKeep => (10 : Nat)

end SettingField

abbrev Settings := Whole SettingField.Value

structure ControlApiConfig where
  secretKey : Text
  fields : Whole ConfigField.Value

instance : DecidableEq ControlApiConfig := fun first second =>
  decidable_of_iff (first.secretKey = second.secretKey ∧ ∀ field, first.fields field = second.fields field) (by
    cases first
    cases second
    simp [funext_iff])

structure Library where
  validAddress : Text → Bool

namespace ControlApiConfig

def mailEnabled (config : ControlApiConfig) : Bool := config.fields .mailMode ≠ MailMode.none

/-- `MailConfig::validate`. -/
def validateMail (library : Library) (config : ControlApiConfig) : Except String Unit := do
  refuse (trim (config.fields .mailFromAddress) = []) "mail sender address is required"
  refuse (library.validAddress (config.fields .mailFromAddress) = false) "mail sender address is invalid"
  match config.fields .mailMode with
  | MailMode.none => return ()
  | MailMode.local' =>
    refuse ((trim (config.fields .mailSendmailCommand)).head? ≠ some '/') "local mail command must be an absolute path"
  | MailMode.smtp =>
    refuse (trim (config.fields .mailSmtpHost) = []) "SMTP host is required"
    refuse (config.fields .mailSmtpPort = (0 : Nat)) "SMTP port must be greater than zero"
    refuse (((config.fields .mailSmtpUsername : Text) = []) ≠ ((config.fields .mailSmtpPassword : Text) = []))
      "SMTP username and password must be configured together"

def secretKeyIsStrong (value : Text) : Bool :=
  trim value ≠ [] ∧ trim value ≠ "change-me".toList ∧ 32 ≤ byteLength (trim value)

def ensureSecretKey (generated : Text) (config : ControlApiConfig) : ControlApiConfig :=
  if secretKeyIsStrong config.secretKey then config else { config with secretKey := generated }

def SessionBounded (config : ControlApiConfig) : Prop :=
  (config.fields .sessionIdleTtlSeconds : Nat) ≤ (config.fields .sessionTtlSeconds : Nat)

instance (config : ControlApiConfig) : Decidable config.SessionBounded :=
  inferInstanceAs (Decidable ((config.fields .sessionIdleTtlSeconds : Nat) ≤ (config.fields .sessionTtlSeconds : Nat)))

end ControlApiConfig

/-- What a request sets, once `prepare_settings_update` has accepted it. -/
structure PreparedSettingsUpdate where
  config : Part ConfigField.Value := fun _ => none
  settings : Part SettingField.Value := fun _ => none

namespace PreparedSettingsUpdate

def hasConfigUpdate (update : PreparedSettingsUpdate) : Bool := ∃ field, (update.config field).isSome

def mailConfigurationChanged (update : PreparedSettingsUpdate) : Bool := ∃ field, field.isMail ∧ (update.config field).isSome

def overlaid (update : PreparedSettingsUpdate) (config : ControlApiConfig) : ControlApiConfig :=
  { config with fields := overlay update.config config.fields }

def applyToConfig (library : Library) (update : PreparedSettingsUpdate) (config : ControlApiConfig) : Except String ControlApiConfig := do
  let config := update.overlaid config
  refuse ((config.fields .sessionTtlSeconds : Nat) < (config.fields .sessionIdleTtlSeconds : Nat))
    "session idle TTL cannot exceed the absolute session TTL"
  config.validateMail library
  return config

def sets (update : PreparedSettingsUpdate) (key : SettingKey) : Bool := ∃ field, SettingField.key field = key ∧ (update.settings field).isSome

def keys (update : PreparedSettingsUpdate) : List SettingKey := SettingKey.all.filter update.sets

/-- What is written if these are the settings when the review policy is read: both modes of it, or none. -/
def merged (update : PreparedSettingsUpdate) (current : Settings) : Part SettingField.Value :=
  if update.sets .reviewPolicy then
    fun field => if field.key = .reviewPolicy then some (overlay update.settings current field) else update.settings field
  else update.settings

theorem applyToConfig_eq_ok {library : Library} {update : PreparedSettingsUpdate} {config result : ControlApiConfig}
    (applied : update.applyToConfig library config = .ok result) : result = update.overlaid config ∧ result.SessionBounded := by
  obtain ⟨bounded,rest⟩ := refuse_bind_eq_ok.mp applied
  obtain ⟨_,_,done⟩ := bind_eq_ok.mp rest
  obtain rfl := pure_eq_ok.mp done
  exact ⟨rfl,Nat.le_of_not_lt bounded⟩

theorem merged_of_set {update : PreparedSettingsUpdate} {current : Settings} {field : SettingField} {value : field.Value}
    (set' : update.settings field = some value) : update.merged current field = some value := by
  unfold merged
  split
  · change (if field.key = .reviewPolicy then some (overlay update.settings current field) else update.settings field) = some value
    split
    · rw [overlay_of_some set']
    · exact set'
  · exact set'

end PreparedSettingsUpdate

def needsMail (policy : MfaPolicy) : Bool := "email" ∈ policy.allowedFactors ∨ "email" ∈ policy.requiredFactors

structure MailReady (settings : Settings) (runtime : ControlApiConfig) : Prop where
  registration : settings .registrationEmailVerification = true → runtime.mailEnabled = true
  mfa : needsMail (settings .mfaPolicy) = true → runtime.mailEnabled = true

theorem mailEnabled_of_validate {policy : MfaPolicy} {mailEnabled : Bool} (valid : policy.validate mailEnabled = .ok ())
    (needs : needsMail policy) : mailEnabled = true := by
  unfold MfaPolicy.validate at valid
  obtain ⟨_,valid⟩ := refuse_bind_eq_ok.mp valid
  obtain ⟨_,valid⟩ := refuse_bind_eq_ok.mp valid
  obtain ⟨_,valid⟩ := refuse_bind_eq_ok.mp valid
  obtain ⟨_,valid⟩ := refuse_bind_eq_ok.mp valid
  obtain ⟨_,valid⟩ := refuse_bind_eq_ok.mp valid
  obtain ⟨mail,valid⟩ := refuse_bind_eq_ok.mp valid
  obtain ⟨_,valid⟩ := refuse_bind_eq_ok.mp valid
  obtain ⟨_,valid⟩ := refuse_bind_eq_ok.mp valid
  obtain ⟨required,_⟩ := refuse_bind_eq_ok.mp valid
  push Not at mail required
  refine Bool.eq_true_of_not_eq_false (mail ?_)
  rcases of_decide_eq_true needs with allowed | demanded
  · exact allowed
  · exact (required "email" demanded).2

end GrassWorker.PlatformSettings
