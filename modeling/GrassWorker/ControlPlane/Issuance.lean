import GrassWorker.Domain.Acme
import GrassWorker.Foundations.Interleaving

/-! Issuance of certificates: attempts with each of their database reads and writes as a
step of its own, next to whatever else changes records, ingresses and hosts. -/
namespace GrassWorker.Issuance
open Interleaving Transaction ManagedCertificates Acme Ingress Certificates

/-- The store, the next identifier to be drawn, and what is told of the past: which generation
wrote the challenge of a record, the reports of nodes, and the generations that stored a bundle. -/
structure Shared where
  db : IngressDatabase
  nextUuid : Uuid
  writers : List (Uuid × Uuid) := []
  reports : List NodeIngressStatus := []
  stored : List Uuid := []

def Shared.writer (s : Shared) (certificate : Uuid) : Option Uuid := s.writers.lookup certificate

inductive Request
  /-- One task of a sweep. -/
  | sweep (certificate ingress : Uuid)
  | ensureRecord (ingress : Uuid) (binding : HostBinding)
  | renew (ingress : Uuid) (binding : HostBinding)
  | importBundle (ingress : Uuid) (binding : HostBinding) (bundle : PemBundle)
  | update (ingress : Uuid) (binding : HostBinding) (body : SettingsRequest)
  | report (node : Uuid) (challengeRevision : String) (tlsReady : Bool)
  /-- A transaction on other tables: hosts, ingresses, nodes, probes, settings. -/
  | elsewhere (after : IngressDatabase)

structure Own extends Offer where
  expiresAt : Timestamp
deriving DecidableEq

def Own.carriedBy (own : Own) (item row : ManagedCertificate) : Bool :=
  row.id = item.id ∧ row.hostname = item.hostname ∧ row.challengeToken = some own.token ∧
    row.challengeValue = some own.value ∧ row.challengeExpiresAt = some own.expiresAt

def Own.challenge (own : Own) (item : ManagedCertificate) : HttpChallenge :=
  ⟨item.hostname,own.token,own.value,unixTimestamp own.expiresAt⟩

/-- A snapshot as the attempt takes it: its time and the records kept. `sighted` is whether its
reads found the record of the attempt under the ingress that serves the region, with the challenge of the
attempt, and eligible. -/
structure Sift where
  at' : Timestamp
  kept : List ManagedCertificate
  sighted : Bool

def Sift.challenges (sift : Sift) : List HttpChallenge := challengesOf sift.at' sift.kept

/-- The check of a region: its time, its healthy nodes, and what is still to be read of them. -/
structure Check where
  sift : Sift
  now : Timestamp
  counted : List IngressCandidate

/-- The reads of a round of `wait_http_ack`. -/
inductive Wait
  | current
  | entry (row : ManagedCertificate)
  | host (row : ManagedCertificate) (region : String)
  | region
  | items (ingress : RegionalIngress)
  | siftEntry (ingress : RegionalIngress) (sift : Sift) (rest : List ManagedCertificate)
  | siftHost (ingress : RegionalIngress) (sift : Sift) (region : String) (head : ManagedCertificate)
      (rest : List ManagedCertificate)
  | healthEntry (sift : Sift)
  | health (sift : Sift) (now : Timestamp) (ingress : Option RegionalIngress)
  | nodes (sift : Sift) (now : Timestamp) (ingress : Option RegionalIngress) (health : List RegionalIngressHealth)
  | tlsStatus (sift : Sift) (now : Timestamp) (ingress : Option RegionalIngress) (health : List RegionalIngressHealth)
      (nodes : List Node)
  | status (check : Check) (rest : List IngressCandidate)

/-- The reads between the acknowledgement and `set_ready`. -/
inductive Confirm
  | current
  | entry (row : ManagedCertificate)
  | host (row : ManagedCertificate) (region : String)

inductive Position
  | account
  | savingAccount
  | authorizing (rest : List (Option Offer))
  | publishing (offer : Offer) (rest : List (Option Offer))
  | waiting (own : Own) (rest : List (Option Offer)) (wait : Wait)
  | confirming (own : Own) (rest : List (Option Offer)) (check : Check) (confirm : Confirm)
  | telling (own : Own) (rest : List (Option Offer)) (check : Check)
  | finalizing
  | clearing (result : Option PemBundle)
  | savingClear (result : Option PemBundle)
  | judging (result : Option PemBundle) (cleaned : Bool)
  | storingEntry (row : ManagedCertificate) (bundle : PemBundle) (validity : CertificateValidity) (cleaned : Bool)
  | storingHost (row : ManagedCertificate) (region : String) (bundle : PemBundle) (validity : CertificateValidity)
      (cleaned : Bool)
  | storing (bundle : PemBundle) (validity : CertificateValidity) (cleaned : Bool)
  | failing

inductive Handler
  | arrived (request : Request)
  | renewing (certificate : Uuid)
  | importing (certificate : Uuid) (bundle : PemBundle)
  | updating (item : ManagedCertificate) (body : SettingsRequest)
  | sweeping (item : ManagedCertificate) (ingress : Uuid)
  | sweepClearing (item : ManagedCertificate) (ingress : Uuid)
  | starting (item : ManagedCertificate) (ingress : Uuid)
  | attempting (attempt : Attempt) (position : Position)

/-- What an action gets from outside: the clock, whether it fails or is the one that times out, whether
its process ends, and the answers of the certificate authority. -/
structure Input where
  now : Timestamp
  fails : Bool := false
  crashes : Bool := false
  credentials : Envelope := ""
  authorizations : List (Option Offer) := []
  bundle : Option PemBundle := none

section Machine
variable (crypto : Crypto) (input : Input)

def ran {α : Type} (s : Shared) (transaction : Transaction IngressDatabase String α) : Option (α × IngressDatabase) :=
  if input.fails then none else (transaction s.db).toOption

/-- A transaction that draws identifiers, and where the handler is after it. -/
def drawing {α : Type} (s : Shared) (transaction : Transaction IngressDatabase String α) (next : α → Option Handler) :
    Shared × Option Handler :=
  match ran input s transaction with
  | some (value,db) => ({ s with db, nextUuid := s.nextUuid + 2 },next value)
  | none => (s,none)

def arrive (s : Shared) : Request → Shared × Option Handler
  | .sweep certificate ingress =>
    (s,(s.db.certificates.find certificate).map fun item => .sweeping item ingress)
  | .ensureRecord ingress binding =>
    drawing input s (ensureRecord input.now s.nextUuid ingress binding) fun _ => none
  | .renew ingress binding =>
    drawing input s (ensureRecord input.now s.nextUuid ingress binding) fun item => some (.renewing item.id)
  | .importBundle ingress binding bundle =>
    drawing input s (ensureRecord input.now s.nextUuid ingress binding) fun item => some (.importing item.id bundle)
  | .update ingress binding body =>
    drawing input s (ensureRecord input.now s.nextUuid ingress binding) fun item => some (.updating item body)
  | .report node challengeRevision tlsReady =>
    let status : NodeIngressStatus := ⟨node,challengeRevision,tlsReady,input.now⟩
    match (s.db.ingressStatus.deleteWhere fun row => row.nodeId = node).insert status with
    | some ingressStatus => ({ s with db := { s.db with ingressStatus }, reports := s.reports ++ [status] },none)
    | none => (s,none)
  | .elsewhere after =>
    ({ s with db := { after with certificates := s.db.certificates, ingressStatus := s.db.ingressStatus } },none)

section Attempt
variable (s : Shared) (attempt : Attempt)

/-- The round of a snapshot over its records, once the head has been judged. -/
def siftNext (ingress : RegionalIngress) (sift : Sift) (head : ManagedCertificate) (rest : List ManagedCertificate)
    (eligible : Bool) : Wait :=
  .siftEntry ingress { sift with
    kept := if eligible then sift.kept ++ [head] else sift.kept
    sighted := sift.sighted && (head.id ≠ attempt.item.id || eligible) } rest

/-- One read of a round; `none` when the attempt gives up, and a check that every node has passed.
A node that has not acknowledged starts the next round. -/
def waitStep (own : Own) : Wait → Option (Wait ⊕ Check)
  | .current => (current s.db attempt.item).map fun row => .inl (.entry row)
  | .entry row =>
    (s.db.ingresses.find attempt.ingress.id).bind fun ingress =>
      if ingressEligible (some ingress) row then some (.inl (.host row ingress.region)) else none
  | .host row region =>
    if hostEligible (row.hostBindingId.bind s.db.bindings.find) row region then some (.inl .region) else none
  | .region =>
    match getEnabledByRegion s.db attempt.ingress.region with
    | none => some (.inl (.healthEntry ⟨input.now,[],false⟩))
    | some ingress => some (.inl (.items ingress))
  | .items ingress =>
    let items := itemsOf s.db ingress
    let sighted := items.any (own.carriedBy attempt.item) && decide (input.now < own.expiresAt)
    some (.inl (.siftEntry ingress ⟨input.now,[],sighted⟩ items))
  | .siftEntry _ sift [] => some (.inl (.healthEntry sift))
  | .siftEntry ingress sift (head :: rest) =>
    match s.db.ingresses.find ingress.id with
    | some found =>
      if ingressEligible (some found) head then some (.inl (.siftHost ingress sift found.region head rest))
      else some (.inl (siftNext attempt ingress sift head rest false))
    | none => some (.inl (siftNext attempt ingress sift head rest false))
  | .siftHost ingress sift region head rest =>
    some (.inl (siftNext attempt ingress sift head rest
      (hostEligible (head.hostBindingId.bind s.db.bindings.find) head region)))
  | .healthEntry sift => some (.inl (.health sift input.now (getEnabledByRegion s.db attempt.ingress.region)))
  | .health sift now ingress => some (.inl (.nodes sift now ingress ((ingress.map (healthOf s.db)).getD [])))
  | .nodes sift now ingress health => some (.inl (.tlsStatus sift now ingress health (serveNodes s.db attempt.ingress.region)))
  | .tlsStatus sift now ingress health nodes =>
    match healthyAmong attempt.ingress.region now ingress health (statusOf s.db nodes) nodes with
    | [] => some (.inl .current)
    | counted => some (.inl (.status ⟨sift,now,counted⟩ counted))
  | .status check [] => some (.inr check)
  | .status check (node :: rest) =>
    if (s.db.ingressStatus.find node.nodeId).any fun status =>
        status.challengeRevision = crypto.challengeRevision check.sift.challenges ∧
          check.now - status.checkedAt < micros 30 then
      some (.inl (.status check rest))
    else some (.inl .current)

def confirmStep : Confirm → Option (Option Confirm)
  | .current => (current s.db attempt.item).map fun row => some (.entry row)
  | .entry row =>
    (s.db.ingresses.find attempt.ingress.id).bind fun ingress =>
      if ingressEligible (some ingress) row then some (some (.host row ingress.region)) else none
  | .host row region =>
    if hostEligible (row.hostBindingId.bind s.db.bindings.find) row region then some none else none

def saving (change : ManagedCertificate → ManagedCertificate) (keeps : ∀ row, (change row).id = row.id) : Option Shared :=
  (ran input s (saveCurrent attempt.item change keeps)).map fun (_,db) => { s with db }

/-- What an attempt does within `issue`; a failure and the time limit end in the cleanup. -/
def issueStep : Position → Option (Shared × Position)
  | .account =>
    if attempt.item.acmeAccount.isSome then some (s,.authorizing input.authorizations)
    else (current s.db attempt.item).map fun _ => (s,.savingAccount)
  | .savingAccount =>
    (saving input s attempt (accountColumns input.credentials) (accountColumns_id input.credentials)).map fun s =>
      (s,.authorizing input.authorizations)
  | .authorizing [] => some (s,.finalizing)
  | .authorizing (none :: rest) => some (s,.authorizing rest)
  | .authorizing (some offer :: rest) => (current s.db attempt.item).map fun _ => (s,.publishing offer rest)
  | .publishing offer rest =>
    (saving input s attempt (challengeColumns input.now offer) (challengeColumns_id input.now offer)).map fun s =>
      ({ s with writers := (attempt.item.id,attempt.item.generation) :: s.writers },
        .waiting ⟨offer,input.now + micros challengeSeconds⟩ rest .current)
  | .waiting own rest wait =>
    (waitStep crypto input s attempt own wait).map fun
      | .inl wait => (s,.waiting own rest wait)
      | .inr check => (s,.confirming own rest check .current)
  | .confirming own rest check confirm =>
    (confirmStep s attempt confirm).map fun
      | some confirm => (s,.confirming own rest check confirm)
      | none => (s,.telling own rest check)
  | .telling _ rest _ => some (s,.authorizing rest)
  | _ => none

/-- The end of `reconcile_record`. -/
def finishStep : Position → Shared × Option Position
  | .clearing result =>
    if input.fails then (s,some (.judging result false))
    else match current s.db attempt.item with
      | some _ => (s,some (.savingClear result))
      | none => (s,some (.judging result false))
  | .savingClear result =>
    match saving input s attempt clearChallenge clearChallenge_id with
    | some s => (s,some (.judging result true))
    | none => (s,some (.judging result false))
  | .judging result cleaned =>
    match if input.fails then none else current s.db attempt.item with
    | none => (s,none)
    | some row =>
      match result with
      | none => (s,some .failing)
      | some bundle =>
        match validatePem crypto input.now attempt.item.hostname bundle with
        | .ok validity => (s,some (.storingEntry row bundle validity cleaned))
        | .error _ => (s,some .failing)
  | .storingEntry row bundle validity cleaned =>
    match if input.fails then none else s.db.ingresses.find attempt.ingress.id with
    | none => (s,none)
    | some ingress =>
      (s,if ingressEligible (some ingress) row then some (.storingHost row ingress.region bundle validity cleaned) else none)
  | .storingHost row region bundle validity cleaned =>
    (s,if input.fails = false ∧ hostEligible (row.hostBindingId.bind s.db.bindings.find) row region then
      some (.storing bundle validity cleaned) else none)
  | .storing bundle validity cleaned =>
    let envelope := crypto.encrypt attempt.item.id bundle
    match saving input s attempt (storedColumns envelope validity cleaned) (storedColumns_id envelope validity cleaned) with
    | some s => ({ s with stored := s.stored ++ [attempt.item.generation] },none)
    | none => (s,none)
  | .failing =>
    ((saving input s attempt (failedColumns input.now attempt.item) (failedColumns_id input.now attempt.item)).getD s,none)
  | _ => (s,none)

/-- The positions within `issue`. -/
def Position.issuing : Position → Bool
  | .account | .savingAccount | .authorizing _ | .publishing .. | .waiting .. | .confirming .. | .telling .. => true
  | _ => false

def attemptStep (position : Position) : Shared × Option Position :=
  match position with
  | .finalizing => (s,some (.clearing (if input.fails then none else input.bundle)))
  | position =>
    if position.issuing then
      match if input.fails then none else issueStep crypto input s attempt position with
      | some (s,position) => (s,some position)
      | none => (s,some (.clearing none))
    else finishStep crypto input s attempt position

end Attempt

def advance (s : Shared) (handler : Handler) : Shared × Option Handler :=
  if input.crashes then (s,none)
  else match handler with
  | .arrived request => arrive input s request
  | .renewing certificate => drawing input s (queue input.now s.nextUuid certificate) fun _ => none
  | .importing certificate bundle =>
    drawing input s (importBundle input.now s.nextUuid crypto certificate bundle) fun _ => none
  | .updating item body => drawing input s (updateSettings input.now s.nextUuid item body) fun _ => none
  | .sweeping item ingress =>
    if leased item input.now = false ∧ item.challengeToken.isSome then
      (s,if input.fails then none else (current s.db item).map fun _ => .sweepClearing item ingress)
    else (s,some (.starting item ingress))
  | .sweepClearing item ingress =>
    match ran input s (clear item) with
    | some (_,db) => ({ s with db },some (.starting item ingress))
    | none => (s,none)
  | .starting item ingress =>
    drawing input s (start input.now s.nextUuid item ingress) fun attempt => attempt.map (.attempting · .account)
  | .attempting attempt position =>
    let (s,rest) := attemptStep crypto input s attempt position
    (s,rest.map (.attempting attempt))

end Machine

def machine (crypto : Crypto) : Machine Shared Handler Request Input := ⟨Handler.arrived,fun input => advance crypto input⟩

/-! What an action of an attempt can write. -/

section Writes
variable (crypto : Crypto) (input : Input) (s : Shared) (attempt : Attempt)

inductive Writes : Position → Shared → Prop
  | nothing (position : Position) : Writes position s
  | account {after : Shared}
      (saved : saving input s attempt (accountColumns input.credentials) (accountColumns_id input.credentials) = some after) :
      Writes .savingAccount after
  | challenge (offer : Offer) (rest : List (Option Offer)) {between : Shared}
      (saved : saving input s attempt (challengeColumns input.now offer) (challengeColumns_id input.now offer) = some between) :
      Writes (.publishing offer rest)
        { between with writers := (attempt.item.id,attempt.item.generation) :: between.writers }
  | cleared (result : Option PemBundle) {after : Shared}
      (saved : saving input s attempt clearChallenge clearChallenge_id = some after) : Writes (.savingClear result) after
  | stored (bundle : PemBundle) (validity : CertificateValidity) (cleaned : Bool) {between : Shared}
      (saved : saving input s attempt (storedColumns (crypto.encrypt attempt.item.id bundle) validity cleaned)
        (storedColumns_id (crypto.encrypt attempt.item.id bundle) validity cleaned) = some between) :
      Writes (.storing bundle validity cleaned) { between with stored := between.stored ++ [attempt.item.generation] }
  | failed {after : Shared}
      (saved : saving input s attempt (failedColumns input.now attempt.item) (failedColumns_id input.now attempt.item) =
        some after) : Writes .failing after

variable {input s attempt}

theorem issueStep_writes {position next : Position} {after : Shared}
    (stepped : issueStep crypto input s attempt position = some (after,next)) :
    Writes crypto input s attempt position after := by
  cases position with
  | account =>
    simp only [issueStep] at stepped
    split at stepped
    · cases stepped
      exact .nothing _
    · obtain ⟨_,_,moved⟩ := Option.map_eq_some_iff.mp stepped
      cases moved
      exact .nothing _
  | savingAccount =>
    obtain ⟨between,saved,moved⟩ := Option.map_eq_some_iff.mp stepped
    cases moved
    exact .account saved
  | authorizing rest =>
    match rest with
    | [] | none :: _ =>
      cases stepped
      exact .nothing _
    | some offer :: rest =>
      obtain ⟨_,_,moved⟩ := Option.map_eq_some_iff.mp stepped
      cases moved
      exact .nothing _
  | publishing offer rest =>
    obtain ⟨between,saved,moved⟩ := Option.map_eq_some_iff.mp stepped
    cases moved
    exact .challenge offer rest saved
  | waiting own rest wait =>
    obtain ⟨outcome,_,moved⟩ := Option.map_eq_some_iff.mp stepped
    cases outcome <;> cases moved <;> exact .nothing _
  | confirming own rest check confirm =>
    obtain ⟨outcome,_,moved⟩ := Option.map_eq_some_iff.mp stepped
    cases outcome <;> cases moved <;> exact .nothing _
  | telling own rest check =>
    cases stepped
    exact .nothing _
  | finalizing | clearing | savingClear | judging | storingEntry | storingHost | storing | failing => cases stepped

theorem finishStep_writes (position : Position) :
    Writes crypto input s attempt position (finishStep crypto input s attempt position).1 := by
  cases position with
  | clearing result =>
    simp only [finishStep]
    split
    · exact .nothing _
    · split <;> exact .nothing _
  | savingClear result =>
    simp only [finishStep]
    split
    · next saved => exact .cleared result saved
    · exact .nothing _
  | judging result cleaned =>
    simp only [finishStep]
    split
    · exact .nothing _
    · cases result with
      | none => exact .nothing _
      | some bundle =>
        dsimp only
        split <;> exact .nothing _
  | storingEntry row bundle validity cleaned =>
    simp only [finishStep]
    split <;> exact .nothing _
  | storing bundle validity cleaned =>
    simp only [finishStep]
    split
    · next saved => exact .stored bundle validity cleaned saved
    · exact .nothing _
  | failing =>
    simp only [finishStep]
    cases saved : saving input s attempt (failedColumns input.now attempt.item)
      (failedColumns_id input.now attempt.item) with
    | none => exact .nothing _
    | some after => exact .failed saved
  | account | savingAccount | authorizing | publishing | waiting | confirming | telling | finalizing | storingHost =>
    exact .nothing _

variable (input s attempt)

theorem attemptStep_writes (position : Position) :
    Writes crypto input s attempt position (attemptStep crypto input s attempt position).1 := by
  unfold attemptStep
  split
  · exact .nothing _
  · split
    · split
      · next stepped =>
        split at stepped
        · cases stepped
        · exact issueStep_writes crypto stepped
      · exact .nothing _
    · exact finishStep_writes crypto _

theorem attemptStep_storing (bundle : PemBundle) (validity : CertificateValidity) (cleaned : Bool) :
    (attemptStep crypto input s attempt (.storing bundle validity cleaned)).2 = none := by
  simp only [attemptStep,Position.issuing,Bool.false_eq_true,if_false,finishStep]
  split <;> rfl

end Writes

/-! What an action can write at all. -/

inductive Does (s after : Shared) : Prop
  | records (rewrites : Rewrites s.db after.db) (reports : after.reports = s.reports)
  | reported (status : NodeIngressStatus) {ingressStatus : Table NodeIngressStatus (·.nodeId) unindexed}
      (inserted : (s.db.ingressStatus.deleteWhere fun row => row.nodeId = status.nodeId).insert status = some ingressStatus)
      (db : after.db = { s.db with ingressStatus }) (reports : after.reports = s.reports ++ [status])
  | elsewhere (other : IngressDatabase)
      (db : after.db = { other with certificates := s.db.certificates, ingressStatus := s.db.ingressStatus })
      (reports : after.reports = s.reports)

section Does
variable (crypto : Crypto) (input : Input) (s : Shared)

theorem ran_ensures {α : Type} {transaction : Transaction IngressDatabase String α} {value : α} {db : IngressDatabase}
    {post : α → IngressDatabase → Prop} (ran : ran input s transaction = some (value,db))
    (ensured : input.fails = false → Ensures transaction s.db post) : input.fails = false ∧ post value db := by
  unfold Issuance.ran at ran
  split at ran
  · cases ran
  · next working =>
    have working : input.fails = false := by simpa using working
    cases outcome : transaction s.db with
    | error error =>
      rw [outcome] at ran
      cases ran
    | ok result =>
      rw [outcome] at ran
      cases ran
      exact ⟨working,ensured working _ _ outcome⟩

theorem drawing_does {α : Type} {transaction : Transaction IngressDatabase String α} (next : α → Option Handler)
    (rewrites : Ensures transaction s.db fun _ => Rewrites s.db) : Does s (drawing input s transaction next).1 := by
  unfold drawing
  split
  · next ran => exact .records (ran_ensures input s ran fun _ => rewrites).2 rfl
  · exact .records .nothing rfl

theorem saving_does {attempt : Attempt} {change : ManagedCertificate → ManagedCertificate}
    {keeps : ∀ row, (change row).id = row.id} {after : Shared} (saved : saving input s attempt change keeps = some after)
    (bound : ∀ row, (change row).hostBindingId = row.hostBindingId) : Rewrites s.db after.db ∧ after.reports = s.reports := by
  obtain ⟨⟨value,db⟩,ran,rfl⟩ := Option.map_eq_some_iff.mp saved
  exact ⟨(ran_ensures input s ran fun _ => saveCurrent_rewrites _ _ _ _ bound).2,rfl⟩

theorem arrive_does (request : Request) : Does s (arrive input s request).1 := by
  cases request with
  | sweep => exact .records .nothing rfl
  | ensureRecord ingress binding | renew ingress binding | importBundle ingress binding | update ingress binding =>
    exact drawing_does input s _ (ensureRecord_rewrites _ _ _ _ _)
  | report node challengeRevision tlsReady =>
    simp only [arrive]
    split
    · next inserted => exact .reported _ inserted rfl rfl
    · exact .records .nothing rfl
  | elsewhere after => exact .elsewhere after rfl rfl

theorem attemptStep_does (attempt : Attempt) (position : Position) :
    Does s (attemptStep crypto input s attempt position).1 := by
  have writes := attemptStep_writes crypto input s attempt position
  generalize (attemptStep crypto input s attempt position).1 = after at writes
  cases writes with
  | nothing => exact .records .nothing rfl
  | account saved | cleared _ saved | failed saved =>
    obtain ⟨rewrites,reports⟩ := saving_does input s saved fun _ => rfl
    exact .records rewrites reports
  | challenge offer rest saved =>
    obtain ⟨rewrites,reports⟩ := saving_does input s saved fun _ => rfl
    exact .records rewrites reports
  | stored bundle validity cleaned saved =>
    obtain ⟨rewrites,reports⟩ := saving_does input s saved fun _ => rfl
    exact .records rewrites reports

theorem advance_does (handler : Handler) : Does s (advance crypto input s handler).1 := by
  by_cases crashes : input.crashes
  · simp only [advance,crashes,if_true]
    exact .records .nothing rfl
  · simp only [advance,crashes,if_false,Bool.false_eq_true]
    cases handler with
    | arrived request => exact arrive_does input s request
    | renewing certificate => exact drawing_does input s _ (queue_rewrites _ _ _ _)
    | importing certificate bundle => exact drawing_does input s _ (importBundle_rewrites _ _ _ _ _ _)
    | updating item body => exact drawing_does input s _ (updateSettings_rewrites _ _ _ _ _)
    | sweeping item ingress =>
      dsimp only
      split <;> exact .records .nothing rfl
    | sweepClearing item ingress =>
      dsimp only
      split
      · next cleared => exact .records (ran_ensures input s cleared fun _ => clear_rewrites _ _).2 rfl
      · exact .records .nothing rfl
    | starting item ingress => exact drawing_does input s _ (start_rewrites _ _ _ _ _)
    | attempting attempt position => exact attemptStep_does crypto input s attempt position

end Does

end GrassWorker.Issuance
