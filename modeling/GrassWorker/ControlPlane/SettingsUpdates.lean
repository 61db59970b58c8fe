import GrassWorker.Domain.PlatformSettings
import GrassWorker.Foundations.Interleaving

/-! Administrators update the settings. An update spans the configuration file, the transaction of the database and the
configuration in memory: each is copied whole, checked on the copy and written back, one action after the other. -/
namespace GrassWorker.PlatformSettings
open Overlays Authentication Interleaving Runs PreparedSettingsUpdate

/-- `committed` are the updates of the committed transactions, the first one first, as their audit events tell them. -/
structure Shared where
  file : ControlApiConfig
  runtime : ControlApiConfig
  settings : Settings
  locks : Multiset SettingKey := 0
  committed : List PreparedSettingsUpdate := []

structure PreparedConfigUpdate where
  original : ControlApiConfig
  persisted : ControlApiConfig
  runtime : ControlApiConfig
deriving DecidableEq

structure Tx where
  update : PreparedSettingsUpdate
  config : Option PreparedConfigUpdate
  written : Part SettingField.Value
  locked : Multiset SettingKey := 0

inductive Handler
  | loadFile (update : PreparedSettingsUpdate)
  | copyRuntime (update : PreparedSettingsUpdate) (original persisted : ControlApiConfig)
  | readMail (update : PreparedSettingsUpdate)
  | readRegistration (update : PreparedSettingsUpdate) (config : Option PreparedConfigUpdate) (mailEnabled : Bool)
  | readMfa (update : PreparedSettingsUpdate) (config : Option PreparedConfigUpdate) (mailEnabled : Bool)
  | readReview (tx : Tx) (rest : List SettingKey)
  | writeRow (tx : Tx) (key : SettingKey) (rest : List SettingKey)
  | saveFile (tx : Tx) (config : PreparedConfigUpdate)
  | commit (tx : Tx)
  | restore (config : PreparedConfigUpdate)
  | replaceRuntime (runtime : ControlApiConfig)

def Handler.guards : Handler → Multiset SettingKey
  | .readReview tx _ | .writeRow tx _ _ | .saveFile tx _ | .commit tx => tx.locked
  | _ => 0

/-- `generated` is the secret key that is drawn if the one of the file is weak. -/
structure Input where
  fails : Bool := false
  generated : Text := []

def Shared.leave (s : Shared) (handler : Handler) : Shared := { s with locks := s.locks - handler.guards }

def nextRow (tx : Tx) : List SettingKey → Handler
  | .reviewPolicy :: rest => .readReview tx rest
  | key :: rest => .writeRow tx key rest
  | [] =>
    match tx.config with
    | some config => .saveFile tx config
    | none => .commit tx

/-- The policy that is checked, if one is: the request's, or that of the database if the mail settings change. -/
def effectiveMfaPolicy (update : PreparedSettingsUpdate) (settings : Settings) : Option MfaPolicy :=
  match update.settings .mfaPolicy with
  | some policy => some policy
  | none => if update.mailConfigurationChanged then some (settings .mfaPolicy) else none

def registrationEmailVerification (update : PreparedSettingsUpdate) (settings : Settings) : Bool :=
  match update.settings .registrationEmailVerification with
  | some required => required
  | none => update.mailConfigurationChanged && settings .registrationEmailVerification

def advance (library : Library) (input : Input) (s : Shared) (handler : Handler) : Shared × Option Handler :=
  match handler with
  | .loadFile update =>
    if input.fails then (s,none)
    else
      match update.applyToConfig library (s.file.ensureSecretKey input.generated) with
      | .error _ => (s,none)
      | .ok persisted => (s,some (.copyRuntime update s.file persisted))
  | .copyRuntime update original persisted =>
    if input.fails then (s,none)
    else
      match update.applyToConfig library s.runtime with
      | .error _ => (s,none)
      | .ok runtime => (s,some (.readRegistration update (some ⟨original,persisted,runtime⟩) runtime.mailEnabled))
  | .readMail update => if input.fails then (s,none) else (s,some (.readRegistration update none s.runtime.mailEnabled))
  | .readRegistration update config mailEnabled =>
    if input.fails then (s,none)
    else if registrationEmailVerification update s.settings ∧ mailEnabled = false then (s,none)
    else (s,some (.readMfa update config mailEnabled))
  | .readMfa update config mailEnabled =>
    if input.fails then (s,none)
    else
      match (effectiveMfaPolicy update s.settings).elim (.ok ()) fun policy => policy.validate mailEnabled with
      | .error _ => (s,none)
      | .ok _ => (s,some (nextRow { update, config, written := update.settings } update.keys))
  | .readReview tx rest =>
    if input.fails then (s.leave handler,none)
    else (s,some (.writeRow { tx with written := tx.update.merged s.settings } .reviewPolicy rest))
  | .writeRow tx key rest =>
    if input.fails then (s.leave handler,none)
    else if key ∈ s.locks then (s,some handler)
    else ({ s with locks := key ::ₘ s.locks },some (nextRow { tx with locked := key ::ₘ tx.locked } rest))
  | .saveFile tx config =>
    if input.fails then (s.leave handler,none) else ({ s with file := config.persisted },some (.commit tx))
  | .commit tx =>
    if input.fails then (s.leave handler,tx.config.map .restore)
    else
      ({ s.leave handler with settings := overlay tx.written s.settings, committed := s.committed ++ [tx.update] },
        tx.config.map fun config => .replaceRuntime config.runtime)
  | .restore config => ({ s with file := config.original },none)
  | .replaceRuntime runtime => ({ s with runtime },none)

def machine (library : Library) : Machine Shared Handler PreparedSettingsUpdate Input where
  enter update := if update.hasConfigUpdate then .loadFile update else .readMail update
  advance := advance library

def idle (file runtime : ControlApiConfig) (settings : Settings) : Config Shared Handler := ⟨{ file, runtime, settings },[]⟩

def Handler.saved : Handler → Multiset PreparedConfigUpdate
  | .commit tx => tx.config.elim 0 fun config => {config}
  | .restore config => {config}
  | _ => 0

def Handler.replacing : Handler → Multiset ControlApiConfig
  | .replaceRuntime runtime => {runtime}
  | _ => 0

/-- The checks of the mail settings, on these settings and this configuration. -/
def MailChecked (settings : Settings) (runtime : ControlApiConfig) : Prop :=
  (settings .registrationEmailVerification = true → runtime.mailEnabled = true) ∧
    (settings .mfaPolicy : MfaPolicy).validate runtime.mailEnabled = .ok ()

instance (settings : Settings) (runtime : ControlApiConfig) : Decidable (MailChecked settings runtime) :=
  inferInstanceAs (Decidable ((settings .registrationEmailVerification = true → runtime.mailEnabled = true) ∧
    (settings .mfaPolicy : MfaPolicy).validate runtime.mailEnabled = .ok ()))

def concernsMail (update : PreparedSettingsUpdate) : Bool :=
  update.mailConfigurationChanged || (update.settings .registrationEmailVerification).isSome || (update.settings .mfaPolicy).isSome

/-- What is written back was copied from what is there: the file is as it was loaded, the configuration in memory differs
from the copy in the fields of the request only, and so does the review policy. The mail checks would pass again. -/
def Fresh (input : Input) (s : Shared) : Handler → Prop
  | .saveFile _ config => input.fails = false → s.file = config.original
  | .commit tx => input.fails = false →
    (∀ config ∈ tx.config, config.runtime = tx.update.overlaid s.runtime) ∧
      (∀ field, tx.update.settings field = none → ∀ value ∈ tx.written field, value = s.settings field) ∧
      (concernsMail tx.update → MailChecked (overlay tx.written s.settings) (tx.config.elim s.runtime PreparedConfigUpdate.runtime))
  | _ => True

/-- No other request has a file saved that it may have to take back, or a configuration to put into memory that would
undo this one or has not been checked with it. -/
def Alone (input : Input) (s : Shared) (handler other : Handler) : Prop :=
  match handler with
  | .saveFile _ _ => input.fails = false → other.saved = 0
  | .commit tx => input.fails = false → ∀ runtime ∈ other.replacing,
    tx.config = none ∧ (concernsMail tx.update → MailChecked (overlay tx.written s.settings) runtime)
  | _ => True

instance (input : Input) (s : Shared) : ∀ handler, Decidable (Fresh input s handler)
  | .saveFile _ config => inferInstanceAs (Decidable (input.fails = false → s.file = config.original))
  | .commit tx => inferInstanceAs (Decidable (input.fails = false →
    (∀ config ∈ tx.config, config.runtime = tx.update.overlaid s.runtime) ∧
      (∀ field, tx.update.settings field = none → ∀ value ∈ tx.written field, value = s.settings field) ∧
      (concernsMail tx.update → MailChecked (overlay tx.written s.settings) (tx.config.elim s.runtime PreparedConfigUpdate.runtime))))
  | .loadFile _ | .copyRuntime _ _ _ | .readMail _ | .readRegistration _ _ _ | .readMfa _ _ _ | .readReview _ _ | .writeRow _ _ _
  | .restore _ | .replaceRuntime _ => isTrue trivial

instance (input : Input) (s : Shared) : ∀ handler other, Decidable (Alone input s handler other)
  | .saveFile _ _,other => inferInstanceAs (Decidable (input.fails = false → other.saved = 0))
  | .commit tx,other => inferInstanceAs (Decidable (input.fails = false → ∀ runtime ∈ other.replacing,
    tx.config = none ∧ (concernsMail tx.update → MailChecked (overlay tx.written s.settings) runtime)))
  | .loadFile _,_ | .copyRuntime _ _ _,_ | .readMail _,_ | .readRegistration _ _ _,_ | .readMfa _ _ _,_ | .readReview _ _,_
  | .writeRow _ _ _,_ | .restore _,_ | .replaceRuntime _,_ => isTrue trivial

def after (config : ControlApiConfig) (committed : List PreparedSettingsUpdate) : ControlApiConfig :=
  { config with fields := replay config.fields (committed.map PreparedSettingsUpdate.config) }

/-- The file has what has been committed; its secret key is drawn anew by an update at most. -/
structure Kept (file : ControlApiConfig) (committed : List PreparedSettingsUpdate) (now : ControlApiConfig) : Prop where
  fields : now.fields = (after file committed).fields
  secretKey : (∀ update ∈ committed, update.hasConfigUpdate = false) → now.secretKey = file.secretKey

/-- Every field has the value of the last committed update that sets it, or its first one. -/
structure Settled (firstFile firstRuntime : ControlApiConfig) (first : Settings) (s : Shared) : Prop where
  file : ∀ field, s.file.fields field = ((latest (s.committed.map PreparedSettingsUpdate.config)) field).getD (firstFile.fields field)
  secretKey : ((∀ update ∈ s.committed, update.hasConfigUpdate = false) → s.file.secretKey = firstFile.secretKey) ∧
    s.runtime.secretKey = firstRuntime.secretKey
  runtime : ∀ field, s.runtime.fields field = ((latest (s.committed.map PreparedSettingsUpdate.config)) field).getD (firstRuntime.fields field)
  settings : ∀ field, s.settings field = ((latest (s.committed.map PreparedSettingsUpdate.settings)) field).getD (first field)
  session : s.file.SessionBounded ∧ s.runtime.SessionBounded
  mail : MailReady s.settings s.runtime

/-! What one action does. -/

def ConfigFor (update : PreparedSettingsUpdate) : Option PreparedConfigUpdate → Prop
  | none => update.hasConfigUpdate = false
  | some config => update.hasConfigUpdate = true ∧ config.persisted.fields = overlay update.config config.original.fields ∧
    config.persisted.SessionBounded ∧ config.runtime.SessionBounded

structure TxFor (tx : Tx) : Prop where
  config : ConfigFor tx.update tx.config
  written : ∀ field, ∀ value ∈ tx.update.settings field, tx.written field = some value

def Prepared : Handler → Prop
  | .loadFile update => update.hasConfigUpdate = true
  | .copyRuntime update original persisted =>
    update.hasConfigUpdate = true ∧ persisted.fields = overlay update.config original.fields ∧ persisted.SessionBounded
  | .readMail update => update.hasConfigUpdate = false
  | .readRegistration update config _ | .readMfa update config _ => ConfigFor update config
  | .readReview tx _ | .writeRow tx _ _ | .commit tx => TxFor tx
  | .saveFile tx config => TxFor tx ∧ tx.config = some config
  | .restore _ | .replaceRuntime _ => True

section Actions
variable {library : Library} {input : Input} {s : Shared} {handler : Handler} {tx : Tx}

theorem nextRow_saved (tx : Tx) (keys : List SettingKey) : (nextRow tx keys).saved = 0 := by
  cases keys with
  | cons key rest => cases key <;> rfl
  | nil =>
    unfold nextRow
    cases has : tx.config with
    | some config => rfl
    | none =>
      simp only [Handler.saved]
      rw [has]
      rfl

theorem nextRow_replacing (tx : Tx) (keys : List SettingKey) : (nextRow tx keys).replacing = 0 := by
  cases keys with
  | cons key rest => cases key <;> rfl
  | nil =>
    unfold nextRow
    cases tx.config <;> rfl

theorem nextRow_prepared (made : TxFor tx) (keys : List SettingKey) : Prepared (nextRow tx keys) := by
  cases keys with
  | cons key rest => cases key <;> exact made
  | nil =>
    unfold nextRow
    cases has : tx.config with
    | some config => exact ⟨made,has⟩
    | none => exact made

inductive Acts (input : Input) (s : Shared) : Handler → Shared × Option Handler → Prop
  | quiet {handler : Handler} {step : Shared × Option Handler} : step.1.file = s.file → step.1.runtime = s.runtime →
    step.1.settings = s.settings → step.1.committed = s.committed → rest Handler.saved step.2 = handler.saved →
    rest Handler.replacing step.2 = handler.replacing → Acts input s handler step
  | saves (tx : Tx) (config : PreparedConfigUpdate) : input.fails = false →
    Acts input s (.saveFile tx config) ({ s with file := config.persisted },some (.commit tx))
  | commits (tx : Tx) : input.fails = false → Acts input s (.commit tx)
    ({ s.leave (.commit tx) with settings := overlay tx.written s.settings, committed := s.committed ++ [tx.update] },
      tx.config.map fun config => .replaceRuntime config.runtime)
  | restores (config : PreparedConfigUpdate) : Acts input s (.restore config) ({ s with file := config.original },none)
  | replaces (runtime : ControlApiConfig) : Acts input s (.replaceRuntime runtime) ({ s with runtime },none)

theorem advance_acts (library : Library) (input : Input) (s : Shared) (handler : Handler) :
    Acts input s handler (advance library input s handler) := by
  cases handler with
  | restore config => exact .restores config
  | replaceRuntime runtime => exact .replaces runtime
  | commit tx =>
    unfold advance
    simp only
    split
    · apply Acts.quiet <;> try rfl
      · cases has : tx.config with
        | none => simp [Handler.saved,has]
        | some config => simp [Handler.saved,has]
      · cases tx.config <;> rfl
    · rename_i succeeds
      exact .commits tx (Bool.not_eq_true _ ▸ succeeds)
  | saveFile tx config =>
    unfold advance
    simp only
    split
    · exact .quiet rfl rfl rfl rfl rfl rfl
    · rename_i succeeds
      exact .saves tx config (Bool.not_eq_true _ ▸ succeeds)
  | loadFile update =>
    unfold advance
    simp only
    split
    · exact .quiet rfl rfl rfl rfl rfl rfl
    · split <;> exact .quiet rfl rfl rfl rfl rfl rfl
  | copyRuntime update original persisted =>
    unfold advance
    simp only
    split
    · exact .quiet rfl rfl rfl rfl rfl rfl
    · split <;> exact .quiet rfl rfl rfl rfl rfl rfl
  | readMail update =>
    unfold advance
    simp only
    split <;> exact .quiet rfl rfl rfl rfl rfl rfl
  | readRegistration update config mailEnabled =>
    unfold advance
    simp only
    split
    · exact .quiet rfl rfl rfl rfl rfl rfl
    · split <;> exact .quiet rfl rfl rfl rfl rfl rfl
  | readMfa update config mailEnabled =>
    unfold advance
    simp only
    split
    · exact .quiet rfl rfl rfl rfl rfl rfl
    · split
      · exact .quiet rfl rfl rfl rfl rfl rfl
      · exact .quiet rfl rfl rfl rfl (nextRow_saved _ _) (nextRow_replacing _ _)
  | readReview tx remaining =>
    unfold advance
    simp only
    split <;> exact .quiet rfl rfl rfl rfl rfl rfl
  | writeRow tx key remaining =>
    unfold advance
    simp only
    split
    · exact .quiet rfl rfl rfl rfl rfl rfl
    · split
      · exact .quiet rfl rfl rfl rfl rfl rfl
      · exact .quiet rfl rfl rfl rfl (nextRow_saved _ _) (nextRow_replacing _ _)

theorem ensureSecretKey_fields (generated : Text) (config : ControlApiConfig) : (config.ensureSecretKey generated).fields = config.fields := by
  unfold ControlApiConfig.ensureSecretKey
  split <;> rfl

theorem advance_prepared {next : Handler} (prepared : Prepared handler) (goes : (advance library input s handler).2 = some next) :
    Prepared next := by
  cases handler with
  | restore config => cases goes
  | replaceRuntime runtime => cases goes
  | commit tx =>
    unfold advance at goes
    simp only at goes
    split at goes <;> obtain ⟨_,_,rfl⟩ := Option.map_eq_some_iff.mp goes <;> trivial
  | saveFile tx config =>
    unfold advance at goes
    simp only at goes
    split at goes <;> cases goes
    exact prepared.1
  | loadFile update =>
    unfold advance at goes
    simp only at goes
    split at goes
    · cases goes
    · split at goes
      · cases goes
      · rename_i applied
        cases goes
        obtain ⟨rfl,bounded⟩ := applyToConfig_eq_ok applied
        refine ⟨prepared,?_,bounded⟩
        unfold overlaid
        rw [ensureSecretKey_fields]
  | copyRuntime update original persisted =>
    unfold advance at goes
    simp only at goes
    split at goes
    · cases goes
    · split at goes
      · cases goes
      · rename_i applied
        cases goes
        exact ⟨prepared.1,prepared.2.1,prepared.2.2,(applyToConfig_eq_ok applied).2⟩
  | readMail update =>
    unfold advance at goes
    simp only at goes
    split at goes <;> cases goes
    exact prepared
  | readRegistration update config mailEnabled =>
    unfold advance at goes
    simp only at goes
    split at goes
    · cases goes
    · split at goes <;> cases goes
      exact prepared
  | readMfa update config mailEnabled =>
    unfold advance at goes
    simp only at goes
    split at goes
    · cases goes
    · split at goes
      · cases goes
      · cases goes
        have made : TxFor { update, config, written := update.settings } := ⟨prepared,fun _ _ has => has⟩
        exact nextRow_prepared made _
  | readReview tx remaining =>
    unfold advance at goes
    simp only at goes
    split at goes <;> cases goes
    exact ⟨prepared.config,fun _ _ has => merged_of_set has⟩
  | writeRow tx key remaining =>
    unfold advance at goes
    simp only at goes
    split at goes
    · cases goes
    · split at goes
      · cases goes
        exact prepared
      · cases goes
        have made : TxFor { tx with locked := key ::ₘ tx.locked } := ⟨prepared.config,prepared.written⟩
        exact nextRow_prepared made _

end Actions

/-! What the handlers in flight and the three places have of the committed updates. -/

section Invariant
variable {library : Library} {file runtime now : ControlApiConfig} {settings : Settings} {committed : List PreparedSettingsUpdate}
  {update : PreparedSettingsUpdate}

theorem after_append (config : ControlApiConfig) : after config (committed ++ [update]) = update.overlaid (after config committed) := by
  unfold after overlaid
  rw [List.map_append,replay_append]
  rfl

theorem config_none (unchanged : update.hasConfigUpdate = false) (field : ConfigField) : update.config field = none := by
  rw [hasConfigUpdate,decide_eq_false_iff_not,not_exists] at unchanged
  exact Option.not_isSome_iff_eq_none.mp (unchanged field)

theorem overlaid_of_unchanged (unchanged : update.hasConfigUpdate = false) (config : ControlApiConfig) : update.overlaid config = config := by
  unfold overlaid
  rw [funext fun field => overlay_of_none (config_none unchanged field) config.fields]

theorem mailEnabled_overlaid (unchanged : update.mailConfigurationChanged = false) (config : ControlApiConfig) :
    (update.overlaid config).mailEnabled = config.mailEnabled := by
  rw [mailConfigurationChanged,decide_eq_false_iff_not,not_exists] at unchanged
  have absent : update.config .mailMode = none :=
    Option.not_isSome_iff_eq_none.mp fun present => unchanged .mailMode ⟨rfl,present⟩
  have same : (update.overlaid config).fields .mailMode = config.fields .mailMode := overlay_of_none absent config.fields
  unfold ControlApiConfig.mailEnabled
  rw [same]

theorem bounded_of_fields {first second : ControlApiConfig} (same : first.fields = second.fields) (bounded : first.SessionBounded) :
    second.SessionBounded := by
  unfold ControlApiConfig.SessionBounded at bounded ⊢
  rw [← same]
  exact bounded

theorem MailChecked.ready (checked : MailChecked settings runtime) : MailReady settings runtime :=
  ⟨checked.1,mailEnabled_of_validate checked.2⟩

theorem Kept.append (kept : Kept file committed now) (unchanged : update.hasConfigUpdate = false) :
    Kept file (committed ++ [update]) now := by
  constructor
  · rw [after_append,overlaid_of_unchanged unchanged]
    exact kept.fields
  · exact fun none' => kept.secretKey fun other member => none' other (List.mem_append_left _ member)

theorem Kept.commit {config : PreparedConfigUpdate} (kept : Kept file committed config.original) (made : ConfigFor update (some config)) :
    Kept file (committed ++ [update]) config.persisted := by
  constructor
  · rw [after_append,made.2.1,kept.fields]
    rfl
  · intro none'
    have changed := made.1
    rw [none' update (List.mem_append_right _ List.mem_cons_self)] at changed
    cases changed

theorem MailReady.keep (ready : MailReady settings runtime) (quiet : concernsMail update = false) :
    MailReady (overlay update.settings settings) (update.overlaid runtime) := by
  unfold concernsMail at quiet
  rw [Bool.or_eq_false_iff,Bool.or_eq_false_iff] at quiet
  obtain ⟨⟨mail,registration⟩,mfa⟩ := quiet
  constructor
  · rw [overlay_of_none (Option.isNone_iff_eq_none.mp (Option.isSome_eq_false_iff.mp registration)),mailEnabled_overlaid mail]
    exact ready.registration
  · rw [overlay_of_none (Option.isNone_iff_eq_none.mp (Option.isSome_eq_false_iff.mp mfa)),mailEnabled_overlaid mail]
    exact ready.mfa

/-- At most one file is saved that is not committed, and at most one configuration not in memory yet that is. -/
structure Consistent (firstFile firstRuntime : ControlApiConfig) (first : Settings) (config : Config Shared Handler) : Prop where
  settings : config.shared.settings = replay first (config.shared.committed.map PreparedSettingsUpdate.settings)
  file : (owed Handler.saved config = 0 ∧ Kept firstFile config.shared.committed config.shared.file) ∨
    ∃ pending, owed Handler.saved config = {pending} ∧ Kept firstFile config.shared.committed pending.original ∧
      config.shared.file = pending.persisted
  runtime : (owed Handler.replacing config = 0 ∧ config.shared.runtime = after firstRuntime config.shared.committed) ∨
    owed Handler.replacing config = {after firstRuntime config.shared.committed}
  session : (after firstFile config.shared.committed).SessionBounded ∧ (after firstRuntime config.shared.committed).SessionBounded
  mail : MailReady config.shared.settings (after firstRuntime config.shared.committed)
  handlers : ∀ handler ∈ config.inflight, Prepared handler

theorem Consistent.settled {config : Config Shared Handler} (consistent : Consistent file runtime settings config)
    (returned : config.inflight = []) : Settled file runtime settings config.shared := by
  have nothing : ∀ {α : Type} (held : Handler → Multiset α), owed held config = 0 := by
    intro α held
    unfold owed
    rw [returned]
    rfl
  have kept : Kept file config.shared.committed config.shared.file := by
    rcases consistent.file with ⟨_,kept⟩ | ⟨pending,saved,_⟩
    · exact kept
    · rw [nothing] at saved
      cases (Multiset.singleton_ne_zero pending) saved.symm
  have memory : config.shared.runtime = after runtime config.shared.committed := by
    rcases consistent.runtime with ⟨_,memory⟩ | replacing
    · exact memory
    · rw [nothing] at replacing
      cases (Multiset.singleton_ne_zero _) replacing.symm
  constructor
  · intro field
    rw [kept.fields]
    exact congrFun (replay_eq_overlay_latest file.fields _) field
  · refine ⟨kept.secretKey,?_⟩
    rw [memory]
    rfl
  · intro field
    rw [memory]
    exact congrFun (replay_eq_overlay_latest runtime.fields _) field
  · intro field
    rw [consistent.settings]
    exact congrFun (replay_eq_overlay_latest settings _) field
  · refine ⟨bounded_of_fields kept.fields.symm consistent.session.1,?_⟩
    rw [memory]
    exact consistent.session.2
  · rw [memory]
    exact consistent.mail

theorem Consistent.commit {config next : Config Shared Handler} {index : Nat} {input : Input} {tx : Tx}
    (consistent : Consistent file runtime settings config) (found : config.inflight[index]? = some (.commit tx))
    (succeeds : input.fails = false) (fresh : Fresh input config.shared (.commit tx))
    (alone : ∀ other ∈ config.inflight.eraseIdx index, Alone input config.shared (.commit tx) other)
    (goes : next.shared = { config.shared.leave (.commit tx) with
      settings := overlay tx.written config.shared.settings, committed := config.shared.committed ++ [tx.update] })
    (saved : owed Handler.saved next + Handler.saved (.commit tx) = owed Handler.saved config)
    (replacing : owed Handler.replacing next = owed Handler.replacing config + tx.config.elim 0 fun config => {config.runtime})
    (handlers : ∀ handler ∈ next.inflight, Prepared handler) : Consistent file runtime settings next := by
  obtain ⟨made,holds⟩ := consistent.handlers _ (List.mem_of_getElem? found)
  obtain ⟨copied,additions,checked⟩ := fresh succeeds
  have written : overlay tx.written config.shared.settings = overlay tx.update.settings config.shared.settings :=
    overlay_congr holds additions
  have committed : next.shared.committed = config.shared.committed ++ [tx.update] := by rw [goes]
  have now : next.shared.settings = overlay tx.update.settings config.shared.settings := by rw [goes,← written]
  have settings' : next.shared.settings = replay settings (next.shared.committed.map PreparedSettingsUpdate.settings) := by
    rw [now,committed,List.map_append,replay_append,← consistent.settings]
    rfl
  have grown : ∀ first, after first next.shared.committed = tx.update.overlaid (after first config.shared.committed) := by
    intro first
    rw [committed,after_append]
  cases has : tx.config with
  | none =>
    rw [has] at made copied checked replacing
    simp only [Handler.saved,has,Option.elim_none,add_zero] at saved replacing
    have same : ∀ first, after first next.shared.committed = after first config.shared.committed := by
      intro first
      rw [grown,overlaid_of_unchanged made]
    refine ⟨settings',?_,?_,?_,?_,handlers⟩
    · rw [saved,committed]
      rcases consistent.file with ⟨nothing,kept⟩ | ⟨pending,one,kept,file⟩
      · refine .inl ⟨nothing,?_⟩
        rw [goes]
        exact kept.append made
      · refine .inr ⟨pending,one,kept.append made,?_⟩
        rw [goes]
        exact file
    · rw [replacing,same,goes]
      exact consistent.runtime
    · rw [same,same]
      exact consistent.session
    · cases concerns : concernsMail tx.update with
      | false =>
        rw [now,grown]
        exact consistent.mail.keep concerns
      | true =>
        rw [now,same,← written]
        rcases consistent.runtime with ⟨_,memory⟩ | one
        · rw [← memory]
          exact (checked concerns).ready
        · have owing : after runtime config.shared.committed ∈ owed Handler.replacing config := by
            rw [one]
            exact Multiset.mem_singleton_self _
          obtain ⟨other,member,holding⟩ := (mem_owed _ _ _).mp owing
          obtain ⟨position,there⟩ := List.mem_iff_getElem?.mp member
          have distinct : position ≠ index := by
            rintro rfl
            obtain rfl : .commit tx = other := Option.some.inj (found.symm.trans there)
            cases holding
          have apart : other ∈ config.inflight.eraseIdx index := List.mem_eraseIdx_iff_getElem?.mpr ⟨position,distinct,there⟩
          exact ((alone other apart succeeds _ holding).2 concerns).ready
  | some mine =>
    rw [has] at made copied checked replacing
    simp only [Handler.saved,has,Option.elim_some] at saved
    have quiet : owed Handler.replacing config = 0 := by
      refine owed_alone Handler.replacing config index _ found ?_
      intro other member
      refine Multiset.eq_zero_of_forall_notMem ?_
      intro value holding
      have absent := (alone other member succeeds value holding).1
      rw [has] at absent
      cases absent
    have memory : config.shared.runtime = after runtime config.shared.committed := by
      rcases consistent.runtime with ⟨_,memory⟩ | one
      · exact memory
      · rw [quiet] at one
        cases (Multiset.singleton_ne_zero _) one.symm
    have next' : mine.runtime = after runtime next.shared.committed := by
      rw [copied mine rfl,memory,grown]
    have pending : owed Handler.saved config = {mine} ∧ Kept file config.shared.committed mine.original ∧
        config.shared.file = mine.persisted := by
      have owing : mine ∈ owed Handler.saved config := by
        rw [← saved]
        exact Multiset.mem_add.mpr (.inr (Multiset.mem_singleton_self mine))
      rcases consistent.file with ⟨nothing,_⟩ | ⟨other,one,kept,file⟩
      · rw [nothing] at owing
        cases Multiset.notMem_zero mine owing
      · rw [one] at owing
        obtain rfl := Multiset.mem_singleton.mp owing
        exact ⟨one,kept,file⟩
    obtain ⟨one,kept,file'⟩ := pending
    have persisted := kept.commit made
    rw [← committed] at persisted
    refine ⟨settings',.inl ⟨?_,?_⟩,.inr ?_,?_,?_,handlers⟩
    · rw [one] at saved
      exact add_eq_right.mp saved
    · rw [goes,← committed]
      exact file' ▸ persisted
    · rw [replacing,quiet,zero_add,← next']
      rfl
    · refine ⟨bounded_of_fields persisted.fields made.2.2.1,?_⟩
      rw [← next']
      exact made.2.2.2
    · cases concerns : concernsMail tx.update with
      | false =>
        rw [now,grown]
        exact consistent.mail.keep concerns
      | true =>
        rw [now,← written,← next']
        exact (checked concerns).ready

theorem Consistent.quiet {config next : Config Shared Handler} (consistent : Consistent file runtime settings config)
    (sameFile : next.shared.file = config.shared.file) (sameRuntime : next.shared.runtime = config.shared.runtime)
    (sameSettings : next.shared.settings = config.shared.settings) (sameCommitted : next.shared.committed = config.shared.committed)
    (saved : owed Handler.saved next = owed Handler.saved config)
    (replacing : owed Handler.replacing next = owed Handler.replacing config)
    (handlers : ∀ handler ∈ next.inflight, Prepared handler) : Consistent file runtime settings next := by
  constructor
  · rw [sameSettings,sameCommitted]
    exact consistent.settings
  · rw [saved,sameFile,sameCommitted]
    exact consistent.file
  · rw [replacing,sameRuntime,sameCommitted]
    exact consistent.runtime
  · rw [sameCommitted]
    exact consistent.session
  · rw [sameSettings,sameCommitted]
    exact consistent.mail
  · exact handlers

theorem Consistent.arrive {config : Config Shared Handler} (consistent : Consistent file runtime settings config)
    (request : PreparedSettingsUpdate) : Consistent file runtime settings ((machine library).step config (.arrive request)) := by
  have saved : owed Handler.saved ((machine library).step config (.arrive request)) =
      owed Handler.saved config + ((machine library).enter request).saved := owed_arrive Handler.saved config request
  have replacing : owed Handler.replacing ((machine library).step config (.arrive request)) =
      owed Handler.replacing config + ((machine library).enter request).replacing := owed_arrive Handler.replacing config request
  have entered : Handler.saved ((machine library).enter request) = 0 ∧ Handler.replacing ((machine library).enter request) = 0 ∧
      Prepared ((machine library).enter request) := by
    change (if request.hasConfigUpdate then Handler.loadFile request else .readMail request).saved = 0 ∧
      (if request.hasConfigUpdate then Handler.loadFile request else .readMail request).replacing = 0 ∧
      Prepared (if request.hasConfigUpdate then Handler.loadFile request else .readMail request)
    split
    · rename_i has
      exact ⟨rfl,rfl,has⟩
    · rename_i has
      exact ⟨rfl,rfl,Bool.eq_false_of_not_eq_true has⟩
  rw [entered.1,add_zero] at saved
  rw [entered.2.1,add_zero] at replacing
  refine consistent.quiet rfl rfl rfl rfl saved replacing ?_
  intro handler member
  rcases List.mem_append.mp member with old | new
  · exact consistent.handlers handler old
  · rw [List.mem_singleton.mp new]
    exact entered.2.2

theorem rest_of_commit (config : Option PreparedConfigUpdate) :
    rest Handler.saved (config.map fun config => .replaceRuntime config.runtime) = 0 ∧
      rest Handler.replacing (config.map fun config => .replaceRuntime config.runtime) = config.elim 0 fun config => {config.runtime} := by
  cases config with
  | none => exact ⟨rfl,rfl⟩
  | some config => exact ⟨rfl,rfl⟩

theorem Consistent.resume {config : Config Shared Handler} {index : Nat} {input : Input}
    (consistent : Consistent file runtime settings config)
    (meets : ActingApart Fresh Alone config (.resume index input : Event PreparedSettingsUpdate Input)) :
    Consistent file runtime settings ((machine library).step config (.resume index input)) := by
  cases found : config.inflight[index]? with
  | none => simpa only [Machine.step,found] using consistent
  | some handler =>
    obtain ⟨fresh,alone⟩ := meets handler found
    have saved := owed_resume (machine library) Handler.saved config index input handler found
    have replacing := owed_resume (machine library) Handler.replacing config index input handler found
    have prepared := consistent.handlers handler (List.mem_of_getElem? found)
    have handlers : ∀ other ∈ ((machine library).step config (.resume index input)).inflight, Prepared other := by
      intro other member
      simp only [Machine.step,found] at member
      rcases mem_settle member with old | next
      · exact consistent.handlers other old
      · exact advance_prepared prepared next
    have shared : ((machine library).step config (.resume index input)).shared = (advance library input config.shared handler).1 := by
      simp only [Machine.step,found]
      rfl
    have acts := advance_acts library input config.shared handler
    change owed Handler.saved ((machine library).step config (.resume index input)) + handler.saved =
      owed Handler.saved config + rest Handler.saved (advance library input config.shared handler).2 at saved
    change owed Handler.replacing ((machine library).step config (.resume index input)) + handler.replacing =
      owed Handler.replacing config + rest Handler.replacing (advance library input config.shared handler).2 at replacing
    generalize (machine library).step config (.resume index input) = next at saved replacing handlers shared ⊢
    generalize advance library input config.shared handler = outcome at saved replacing shared acts
    cases acts with
    | quiet sameFile sameRuntime sameSettings sameCommitted sameSaved sameReplacing =>
      rw [sameSaved] at saved
      rw [sameReplacing] at replacing
      rw [← shared] at sameFile sameRuntime sameSettings sameCommitted
      exact consistent.quiet sameFile sameRuntime sameSettings sameCommitted (add_right_cancel saved) (add_right_cancel replacing)
        handlers
    | commits tx succeeds =>
      obtain ⟨unsaved,goes⟩ := rest_of_commit tx.config
      refine consistent.commit found succeeds fresh alone shared ?_ ?_ handlers
      · rw [unsaved,add_zero] at saved
        exact saved
      · rw [goes] at replacing
        simpa [Handler.replacing] using replacing
    | saves tx config' succeeds =>
      obtain ⟨made,has⟩ := prepared
      have nothing : owed Handler.saved config = 0 :=
        owed_alone Handler.saved config index _ found fun other member => alone other member succeeds
      have kept : Kept file config.shared.committed config'.original := by
        rcases consistent.file with ⟨_,kept⟩ | ⟨pending,one,_⟩
        · rw [← fresh succeeds]
          exact kept
        · rw [nothing] at one
          cases (Multiset.singleton_ne_zero pending) one.symm
      have holds : owed Handler.saved next = {config'} := by
        rw [nothing,zero_add,rest_some] at saved
        simpa [Handler.saved,has] using saved
      have sameReplacing : owed Handler.replacing next = owed Handler.replacing config := by
        simpa [Handler.replacing] using replacing
      constructor
      · rw [shared]
        exact consistent.settings
      · refine .inr ⟨config',holds,?_,?_⟩
        · rw [shared]
          exact kept
        · rw [shared]
      · rw [sameReplacing,shared]
        exact consistent.runtime
      · rw [shared]
        exact consistent.session
      · rw [shared]
        exact consistent.mail
      · exact handlers
    | restores config' =>
      have owing : config' ∈ owed Handler.saved config :=
        (mem_owed _ _ _).mpr ⟨_,List.mem_of_getElem? found,Multiset.mem_singleton_self config'⟩
      have one : owed Handler.saved config = {config'} ∧ Kept file config.shared.committed config'.original := by
        rcases consistent.file with ⟨nothing,_⟩ | ⟨pending,one,kept,_⟩
        · rw [nothing] at owing
          cases Multiset.notMem_zero config' owing
        · rw [one] at owing
          obtain rfl := Multiset.mem_singleton.mp owing
          exact ⟨one,kept⟩
      have nothing : owed Handler.saved next = 0 := by
        rw [one.1,rest_none,add_zero] at saved
        exact add_eq_right.mp saved
      have sameReplacing : owed Handler.replacing next = owed Handler.replacing config := by
        simpa [Handler.replacing] using replacing
      constructor
      · rw [shared]
        exact consistent.settings
      · refine .inl ⟨nothing,?_⟩
        rw [shared]
        exact one.2
      · rw [sameReplacing,shared]
        exact consistent.runtime
      · rw [shared]
        exact consistent.session
      · rw [shared]
        exact consistent.mail
      · exact handlers
    | replaces runtime' =>
      have owing : runtime' ∈ owed Handler.replacing config :=
        (mem_owed _ _ _).mpr ⟨_,List.mem_of_getElem? found,Multiset.mem_singleton_self runtime'⟩
      have one : owed Handler.replacing config = {runtime'} ∧ runtime' = after runtime config.shared.committed := by
        rcases consistent.runtime with ⟨nothing,_⟩ | one
        · rw [nothing] at owing
          cases Multiset.notMem_zero runtime' owing
        · rw [one] at owing
          obtain rfl := Multiset.mem_singleton.mp owing
          exact ⟨one,rfl⟩
      have nothing : owed Handler.replacing next = 0 := by
        rw [one.1,rest_none,add_zero] at replacing
        exact add_eq_right.mp replacing
      have sameSaved : owed Handler.saved next = owed Handler.saved config := by
        simpa [Handler.saved] using saved
      constructor
      · rw [shared]
        exact consistent.settings
      · rw [sameSaved,shared]
        exact consistent.file
      · refine .inl ⟨nothing,?_⟩
        rw [shared]
        exact one.2
      · rw [shared]
        exact consistent.session
      · rw [shared]
        exact consistent.mail
      · exact handlers

end Invariant

/-- In every run in which each update is written back over what it was copied from, with no other pending, once no request is
in flight every field is as the last committed update that sets it leaves it, and the checks of sessions and mail hold. -/
theorem settings_updates_not_lost (library : Library) (file runtime : ControlApiConfig) (settings : Settings)
    (events : List (Event PreparedSettingsUpdate Input)) (bounded : file.SessionBounded ∧ runtime.SessionBounded)
    (mail : MailReady settings runtime)
    (fresh : Along (machine library).step (ActingApart Fresh Alone) (idle file runtime settings) events) :
    Throughout (machine library).step (fun config => config.inflight = [] → Settled file runtime settings config.shared)
      (idle file runtime settings) events := by
  have first : Consistent file runtime settings (idle file runtime settings) := by
    refine ⟨rfl,.inl ⟨rfl,rfl,fun _ => rfl⟩,.inl ⟨rfl,rfl⟩,bounded,mail,?_⟩
    intro _ member
    cases member
  refine throughout_of_invariant ?_ (fun config consistent => consistent.settled) (idle file runtime settings) events first fresh
  intro config event consistent meets
  cases event with
  | arrive request => exact consistent.arrive request
  | resume index input => exact consistent.resume meets

def plainLibrary : Library := ⟨fun _ => true⟩

def localMail : ControlApiConfig where
  secretKey := List.replicate 32 'k'
  fields
    | .serverHost => (.v4 ⟨(127,0,0,1)⟩ : IpAddr)
    | .serverPort => (3000 : Nat)
    | .redisBackend => CacheBackend.moka
    | .sessionCookieSecure | .migrationAutoMigrate | .nodeManagerAutoStartLocalNode | .nodeManagerRestartOnExit => true
    | .sessionIdleTtlSeconds => (900 : Nat)
    | .sessionTtlSeconds => (2592000 : Nat)
    | .auditRetentionDays => (90 : Nat)
    | .mailMode => MailMode.local'
    | .mailFromAddress => "noreply@localhost".toList
    | .mailFromName => "Grass Worker".toList
    | .mailSendmailCommand => "/usr/sbin/sendmail".toList
    | .mailSmtpHost | .mailSmtpUsername | .mailSmtpPassword => ([] : Text)
    | .mailSmtpPort => (587 : Nat)
    | .mailSmtpSecurity => SmtpSecurity.startTls
    | .nodeManagerLocalNodeBinary => "grass-node".toList
    | .nodeManagerLocalNodeConfig => "node.toml".toList
    | .logLevel => "info".toList
    | .logFormat => LogFormat.pretty

def setLogLevel (level : Text) : PreparedSettingsUpdate where
  config
    | .logLevel => some level
    | _ => none

def setAuditRetention (days : Nat) : PreparedSettingsUpdate where
  config
    | .auditRetentionDays => some days
    | _ => none

def disableMail : PreparedSettingsUpdate where
  config
    | .mailMode => some MailMode.none
    | _ => none

def requireEmail : PreparedSettingsUpdate where
  settings
    | .mfaPolicy => some { allowedFactors := ["email"], enforcement := .allUsers, minimumFactors := 1 }
    | _ => none

def reviewPreviews : PreparedSettingsUpdate where
  settings
    | .reviewPreview => some "manual"
    | _ => none

def reviewNothing : PreparedSettingsUpdate where
  settings
    | .reviewProduction => some "auto"
    | _ => none

def resumed (indices : List Nat) : List (Event PreparedSettingsUpdate Input) := indices.map fun index => .resume index {}

def crossedSaves : List (Event PreparedSettingsUpdate Input) :=
  [.arrive (setLogLevel "debug".toList),.arrive (setAuditRetention 5)] ++ resumed [0,0,0,0,1,1,1,1,0,0,0,0,0,0]

def takenBack : List (Event PreparedSettingsUpdate Input) :=
  [.arrive (setLogLevel "debug".toList),.arrive (setAuditRetention 5)] ++ resumed [0,0,0,0,1,1,1,1,1,1,1,0] ++
    [.resume 0 { fails := true }] ++ resumed [0]

def mailDisabled : List (Event PreparedSettingsUpdate Input) :=
  [.arrive requireEmail,.arrive disableMail] ++ resumed [0,0,0,1,1,1,1,0,0,0,0,0]

def crossedReviews : List (Event PreparedSettingsUpdate Input) :=
  [.arrive reviewPreviews,.arrive reviewNothing] ++ resumed [0,0,0,0,1,1,1,1,0,0,0,0]

/-- Updates are lost of the file, the memory and the database, and mail is disabled that a policy needs. -/
theorem crossing_updates_are_lost :
    (localMail.SessionBounded ∧ MailReady SettingField.default localMail) ∧
      ∀ events ∈ [crossedSaves,takenBack,mailDisabled,crossedReviews], ¬Throughout (machine plainLibrary).step
        (fun config => config.inflight = [] → Settled localMail localMail SettingField.default config.shared)
        (idle localMail localMail SettingField.default) events := by
  refine ⟨⟨by decide +kernel,by decide +kernel,by decide +kernel⟩,?_⟩
  simp only [List.forall_mem_cons,List.not_mem_nil,false_imp_iff,implies_true,and_true]
  refine ⟨?_,?_,?_,?_⟩
  · intro throughout
    have file := (throughout.last (by decide)).file .logLevel
    have broken : (run (machine plainLibrary).step (idle localMail localMail SettingField.default) crossedSaves).shared.file.fields .logLevel ≠
        (latest ((run (machine plainLibrary).step (idle localMail localMail SettingField.default) crossedSaves).shared.committed.map
          PreparedSettingsUpdate.config) .logLevel).getD (localMail.fields .logLevel) := by
      decide
    exact broken file
  · intro throughout
    have file := (throughout.last (by decide)).file .auditRetentionDays
    have broken : (run (machine plainLibrary).step (idle localMail localMail SettingField.default) takenBack).shared.file.fields
          .auditRetentionDays ≠
        (latest ((run (machine plainLibrary).step (idle localMail localMail SettingField.default) takenBack).shared.committed.map
          PreparedSettingsUpdate.config) .auditRetentionDays).getD (localMail.fields .auditRetentionDays) := by
      decide
    exact broken file
  · intro throughout
    have mail := (throughout.last (by decide)).mail.mfa
    have broken : ¬(needsMail ((run (machine plainLibrary).step (idle localMail localMail SettingField.default) mailDisabled).shared.settings
          .mfaPolicy) = true →
        (run (machine plainLibrary).step (idle localMail localMail SettingField.default) mailDisabled).shared.runtime.mailEnabled = true) := by
      decide
    exact broken mail
  · intro throughout
    have settings := (throughout.last (by decide)).settings .reviewPreview
    have broken : (run (machine plainLibrary).step (idle localMail localMail SettingField.default) crossedReviews).shared.settings
          .reviewPreview ≠
        (latest ((run (machine plainLibrary).step (idle localMail localMail SettingField.default) crossedReviews).shared.committed.map
          PreparedSettingsUpdate.settings) .reviewPreview).getD (SettingField.default .reviewPreview) := by
      decide
    exact broken settings

/-- One update fails at its commit and takes back what it saved, and two others that cross it change other places. -/
def keptApart : List (Event PreparedSettingsUpdate Input) :=
  [.arrive (setLogLevel "debug".toList),.arrive reviewPreviews] ++ resumed [0,0,1,1,0,1,0,0,1] ++ [.resume 0 { fails := true }] ++
    resumed [1,0,0] ++ [.arrive (setAuditRetention 5)] ++ resumed [0,0,0,0,0,0,0]

theorem updates_kept_apart :
    Throughout (machine plainLibrary).step
      (fun config => config.inflight = [] → Settled localMail localMail SettingField.default config.shared)
      (idle localMail localMail SettingField.default) keptApart ∧
    (run (machine plainLibrary).step (idle localMail localMail SettingField.default) keptApart).inflight.length = 0 ∧
    (run (machine plainLibrary).step (idle localMail localMail SettingField.default) keptApart).shared.committed.length = 2 :=
  ⟨settings_updates_not_lost plainLibrary localMail localMail SettingField.default keptApart (by decide)
    ⟨by decide,by decide⟩ (by decide),by decide,by decide⟩

end GrassWorker.PlatformSettings
