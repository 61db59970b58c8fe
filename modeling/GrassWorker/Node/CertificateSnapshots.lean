import GrassWorker.Node.Certificates
import GrassWorker.Foundations.Runs
import Mathlib.Data.List.Forall2

/-! What is live after a snapshot: for each host it names the certificate it brings,
or else the one that was live for the same ingress, and nothing for any other host. -/
namespace GrassWorker.Certificates
open Checks Runs Validator

def offered (bundles : List CertificateBundle) (host : String) : Option CertificateBundle :=
  bundles.find? fun bundle => (safeHostname bundle.hostname).toOption = some host

/-- The bundle itself if it is good now, else the live certificate of the same ingress if that still is. -/
def settle (pki : Pki) (previous : CertificateMap) (now : Timestamp) (host : String) (bundle : CertificateBundle) :
    Option LoadedCertificate :=
  match validateBundle pki bundle now with
  | .ok certificate => some certificate
  | .error _ =>
    (previous.lookup host).filter fun certificate =>
      certificate.bundle.ingressId = bundle.ingressId && certificate.validAt now

def inForce (pki : Pki) (bundles : List CertificateBundle) (previous : CertificateMap) (now : Timestamp) (host : String) :
    Option LoadedCertificate :=
  (offered bundles host).bind (settle pki previous now host)

def Held (pki : Pki) (certificates : CertificateMap) : Prop :=
  ∀ host certificate, certificates.lookup host = some certificate → Loaded pki certificate ∧ certificate.bundle.hostname = host

def Named (bundles : List CertificateBundle) (hosts : List String) : Prop :=
  List.Forall₂ (fun bundle host => safeHostname bundle.hostname = .ok host) bundles hosts

structure Acceptable (response : CertificateBundlesResponse) : Prop where
  bundles : response.bundles.length ≤ maxEntries
  challenges : response.challenges.length ≤ maxEntries
  hosts : ∃ hosts, Named response.bundles hosts ∧ hosts.Nodup
  identifiers : (response.bundles.map CertificateBundle.ingressId).Nodup

section Snapshot
variable {pki : Pki} {owner : Identity} {previous : CertificateMap} {bundles : List CertificateBundle}
  {hosts : List String} {now : Timestamp}

theorem offered_cons (bundle : CertificateBundle) {name : String} (named : safeHostname bundle.hostname = .ok name) (host : String) :
    offered (bundle :: bundles) host = if name = host then some bundle else offered bundles host := by
  unfold offered
  rw [List.find?_cons,named]
  by_cases same : name = host
  · simp [Except.toOption,same]
  · simp [Except.toOption,same]

theorem offered_eq_none (named : Named bundles hosts) {host : String} (absent : host ∉ hosts) : offered bundles host = none := by
  induction named with
  | nil => rfl
  | cons first _ ih =>
    rw [List.mem_cons,not_or] at absent
    rw [offered_cons _ first,if_neg (Ne.symm absent.1),ih absent.2]

theorem offered_iff (named : Named bundles hosts) (distinct : hosts.Nodup) {host : String} {bundle : CertificateBundle} :
    offered bundles host = some bundle ↔ bundle ∈ bundles ∧ safeHostname bundle.hostname = .ok host := by
  induction named with
  | nil => simp [offered]
  | @cons first name rest names head others ih =>
    obtain ⟨missing,distinct⟩ := List.nodup_cons.mp distinct
    rw [offered_cons first head,List.mem_cons]
    by_cases same : name = host
    · subst same
      rw [if_pos rfl,Option.some.injEq]
      have apart := offered_eq_none others missing
      constructor
      · rintro rfl
        exact ⟨.inl rfl,head⟩
      · rintro ⟨rfl | later,normal⟩
        · rfl
        · rw [(ih distinct).mpr ⟨later,normal⟩] at apart
          cases apart
    · rw [if_neg same,ih distinct]
      constructor
      · rintro ⟨later,normal⟩
        exact ⟨.inr later,normal⟩
      · rintro ⟨rfl | later,normal⟩
        · rw [head] at normal
          cases normal
          exact absurd rfl same
        · exact ⟨later,normal⟩

theorem mem_of_offered {host : String} {bundle : CertificateBundle} (found : offered bundles host = some bundle) :
    bundle ∈ bundles ∧ safeHostname bundle.hostname = .ok host := by
  refine ⟨List.mem_of_find?_eq_some found,?_⟩
  have named := List.find?_some found
  cases outcome : safeHostname bundle.hostname with
  | error problem => simp [outcome,Except.toOption] at named
  | ok name =>
    simp only [outcome,Except.toOption,decide_eq_true_eq,Option.some.injEq] at named
    rw [named]

theorem renew_eq (held : Held pki previous) {host : String} {bundle : CertificateBundle}
    (named : safeHostname bundle.hostname = .ok host) :
    renew pki previous now host bundle = settle pki previous now host bundle := by
  unfold renew
  cases kept : (previous.lookup host).filter (unchanged bundle now) with
  | none => rfl
  | some certificate =>
    obtain ⟨live,same⟩ := Option.filter_eq_some_iff.mp kept
    obtain ⟨valid,ingress,certificatePem,privateKeyPem,revision⟩ := of_decide_eq_true same
    obtain ⟨loaded,rfl⟩ := held host certificate live
    have agrees : bundle.Agrees certificate :=
      ⟨named,ingress.symm,certificatePem.symm,privateKeyPem.symm,revision.imp_right Eq.symm⟩
    have ok := (loaded.agreeing agrees now certificate).mpr ⟨valid,rfl⟩
    simp [settle,ok]

theorem checkBundles_ok_iff {known : List String} {identifiers : List Uuid} {outcome : Unit} :
    checkBundles known identifiers bundles = .ok outcome ↔
      (∃ hosts, Named bundles hosts ∧ hosts.Nodup ∧ ∀ host ∈ hosts, host ∉ known) ∧
        (bundles.map CertificateBundle.ingressId).Nodup ∧ ∀ bundle ∈ bundles, bundle.ingressId ∉ identifiers := by
  induction bundles generalizing known identifiers with
  | nil => simp [checkBundles,Named]
  | cons bundle rest ih =>
    unfold checkBundles
    simp only [bind_eq_ok]
    constructor
    · rintro ⟨host,named,⟨⟩,fresh,ok⟩
      obtain ⟨unknown,unused⟩ := not_or.mp (refuse_eq_ok.mp fresh)
      obtain ⟨⟨hosts,others,distinct,apart⟩,identities,free⟩ := ih.mp ok
      have missing : host ∉ hosts := fun inside => apart host inside List.mem_cons_self
      refine ⟨⟨host :: hosts,.cons named others,List.nodup_cons.mpr ⟨missing,distinct⟩,?_⟩,?_,?_⟩
      · intro other inside
        rcases List.mem_cons.mp inside with rfl | later
        · exact unknown
        · exact fun old => apart other later (List.mem_cons_of_mem _ old)
      · refine List.nodup_cons.mpr ⟨fun inside => ?_,identities⟩
        obtain ⟨other,member,same⟩ := List.mem_map.mp inside
        exact free other member (same ▸ List.mem_cons_self)
      · intro other inside
        rcases List.mem_cons.mp inside with rfl | later
        · exact unused
        · exact fun old => free other later (List.mem_cons_of_mem _ old)
    · rintro ⟨⟨hosts,named,distinct,apart⟩,identities,free⟩
      cases named with
      | @cons _ host _ hosts first others =>
        obtain ⟨missing,distinct⟩ := List.nodup_cons.mp distinct
        obtain ⟨single,identities⟩ := List.nodup_cons.mp identities
        refine ⟨host,first,⟨⟩,refuse_eq_ok.mpr (not_or.mpr ⟨apart host List.mem_cons_self,free bundle List.mem_cons_self⟩),?_⟩
        refine ih.mpr ⟨⟨hosts,others,distinct,?_⟩,identities,?_⟩
        · intro other inside known
          rcases List.mem_cons.mp known with rfl | old
          · exact missing inside
          · exact apart other (List.mem_cons_of_mem _ inside) old
        · intro other inside used
          rcases List.mem_cons.mp used with same | old
          · exact single (same ▸ List.mem_map_of_mem inside)
          · exact free other (List.mem_cons_of_mem _ inside) old

variable (pki previous now) in
theorem renewAll_spec (named : Named bundles hosts) (distinct : hosts.Nodup) (certificates : CertificateMap)
    (apart : ∀ host ∈ hosts, host ∉ certificates) :
    ∃ after, renewAll pki previous now certificates bundles = .ok after ∧
      ∀ host, after.lookup host = match offered bundles host with
        | some bundle => renew pki previous now host bundle
        | none => certificates.lookup host := by
  induction named generalizing certificates with
  | nil => exact ⟨certificates,rfl,fun _ => rfl⟩
  | @cons bundle name rest names first others ih =>
    obtain ⟨missing,distinct⟩ := List.nodup_cons.mp distinct
    have unset : certificates.lookup name = none := AList.lookup_eq_none.mpr (apart name List.mem_cons_self)
    have unnamed := offered_eq_none others missing
    unfold renewAll
    simp only [first,bind,Except.bind]
    cases found : renew pki previous now name bundle with
    | none =>
      obtain ⟨after,ok,content⟩ := ih distinct certificates fun host inside => apart host (List.mem_cons_of_mem _ inside)
      refine ⟨after,ok,fun host => ?_⟩
      rw [offered_cons bundle first,content host]
      by_cases same : name = host
      · subst same
        rw [if_pos rfl,unnamed,unset]
        exact found.symm
      · rw [if_neg same]
    | some certificate =>
      have free : ∀ host ∈ names, host ∉ certificates.insert name certificate := by
        intro host inside held
        rcases (AList.mem_insert certificates).mp held with rfl | old
        · exact missing inside
        · exact apart host (List.mem_cons_of_mem _ inside) old
      obtain ⟨after,ok,content⟩ := ih distinct _ free
      refine ⟨after,ok,fun host => ?_⟩
      rw [offered_cons bundle first,content host]
      by_cases same : name = host
      · subst same
        rw [if_pos rfl,unnamed,AList.lookup_insert]
        exact found.symm
      · rw [if_neg same]
        cases offered rest host with
        | some other => rfl
        | none => exact AList.lookup_insert_ne (Ne.symm same)

/-- A snapshot is taken exactly if it is acceptable, whatever is live and whatever the disk does. -/
theorem applyAt_eq_ok {state : IngressState} {file : Option CachedCertificates} {response : CertificateBundlesResponse}
    {disk : Disk} {after : (IngressState × Option CachedCertificates) × Bool} :
    applyAt pki owner state file response now disk = .ok after ↔ Acceptable response ∧
      ∃ certificates, renewAll pki state.snapshot.certificates now ∅ response.bundles = .ok certificates ∧
        install owner state file response now disk certificates = after := by
  constructor
  · intro ok
    obtain ⟨short,ok⟩ := refuse_bind_eq_ok.mp ok
    obtain ⟨⟨⟩,checked,ok⟩ := bind_eq_ok.mp ok
    obtain ⟨certificates,renewed,ok⟩ := bind_eq_ok.mp ok
    obtain ⟨⟨hosts,named,distinct,_⟩,identities,_⟩ := checkBundles_ok_iff.mp checked
    obtain ⟨bundles,challenges⟩ := not_or.mp short
    exact ⟨⟨Nat.not_lt.mp bundles,Nat.not_lt.mp challenges,⟨hosts,named,distinct⟩,identities⟩,certificates,renewed,
      pure_eq_ok.mp ok⟩
  · rintro ⟨⟨bundles,challenges,⟨hosts,named,distinct⟩,identities⟩,certificates,renewed,rfl⟩
    have checked : checkBundles [] [] response.bundles = .ok () :=
      checkBundles_ok_iff.mpr ⟨⟨hosts,named,distinct,fun _ _ => List.not_mem_nil⟩,identities,fun _ _ => List.not_mem_nil⟩
    refine refuse_bind_eq_ok.mpr ⟨not_or.mpr ⟨Nat.not_lt.mpr bundles,Nat.not_lt.mpr challenges⟩,?_⟩
    exact bind_eq_ok.mpr ⟨⟨⟩,checked,bind_eq_ok.mpr ⟨certificates,renewed,rfl⟩⟩

theorem applyAt_ok_iff {state : IngressState} {file : Option CachedCertificates} {response : CertificateBundlesResponse}
    {disk : Disk} : (∃ after, applyAt pki owner state file response now disk = .ok after) ↔ Acceptable response := by
  constructor
  · rintro ⟨after,ok⟩
    exact (applyAt_eq_ok.mp ok).1
  · intro acceptable
    obtain ⟨hosts,named,distinct⟩ := acceptable.hosts
    obtain ⟨certificates,renewed,_⟩ := renewAll_spec pki state.snapshot.certificates now named distinct ∅
      fun host _ => AList.notMem_empty host
    exact ⟨_,applyAt_eq_ok.mpr ⟨acceptable,certificates,renewed,rfl⟩⟩

theorem lookup_renewed (held : Held pki previous) {certificates : CertificateMap} (named : Named bundles hosts)
    (distinct : hosts.Nodup) (ok : renewAll pki previous now ∅ bundles = .ok certificates) (host : String) :
    certificates.lookup host = inForce pki bundles previous now host := by
  obtain ⟨after,renewed,content⟩ := renewAll_spec pki previous now named distinct ∅
    fun host _ => AList.notMem_empty host
  rw [renewed] at ok
  cases ok
  rw [content host]
  unfold inForce
  cases found : offered bundles host with
  | none => rfl
  | some bundle => exact renew_eq held (mem_of_offered found).2

theorem settle_some (held : Held pki previous) {host : String} {bundle : CertificateBundle} {certificate : LoadedCertificate}
    (named : safeHostname bundle.hostname = .ok host) (found : settle pki previous now host bundle = some certificate) :
    Loaded pki certificate ∧ certificate.bundle.hostname = host ∧ certificate.bundle.ingressId = bundle.ingressId ∧
      certificate.validAt now = true := by
  unfold settle at found
  cases outcome : validateBundle pki bundle now with
  | ok loaded =>
    rw [outcome] at found
    cases found
    obtain ⟨agrees,valid⟩ := validateBundle_content outcome
    have same := agrees.hostname
    rw [named] at same
    cases same
    exact ⟨⟨bundle,now,outcome⟩,rfl,agrees.ingressId.symm,valid⟩
  | error problem =>
    rw [outcome] at found
    obtain ⟨live,kept⟩ := Option.filter_eq_some_iff.mp found
    simp only [Bool.and_eq_true,decide_eq_true_eq] at kept
    obtain ⟨loaded,hostname⟩ := held host certificate live
    exact ⟨loaded,hostname,kept.1,kept.2⟩

end Snapshot

/-! A node over time: snapshots that arrive, and restarts. -/

structure Node where
  state : IngressState := {}
  file : Option CachedCertificates := none
  clock : Timestamp := 0

inductive Action
  | apply (response : CertificateBundlesResponse) (disk : Disk)
  | restart

structure Event where
  now : Timestamp
  action : Action

def step (pki : Pki) (owner : Identity) (node : Node) (event : Event) : Node :=
  match event.action with
  | .apply response disk =>
    match applyAt pki owner node.state node.file response event.now disk with
    | .ok ((state,file),_) => { state, file, clock := event.now }
    | .error _ => { node with clock := event.now }
  | .restart => {
    state := { snapshot := { certificates := restore pki owner node.file event.now } }
    file := node.file
    clock := event.now }

def Node.live (node : Node) (host : String) : Option LoadedCertificate := node.state.snapshot.certificates.lookup host

section Run
variable {pki : Pki} {owner : Identity}

theorem held_insert {certificates : CertificateMap} (held : Held pki certificates) {certificate : LoadedCertificate}
    (loaded : Loaded pki certificate) : Held pki (certificates.insert certificate.bundle.hostname certificate) := by
  intro host other found
  by_cases same : host = certificate.bundle.hostname
  · subst same
    rw [AList.lookup_insert] at found
    cases found
    exact ⟨loaded,rfl⟩
  · rw [AList.lookup_insert_ne same] at found
    exact held host other found

theorem held_restore (file : Option CachedCertificates) (now : Timestamp) : Held pki (restore pki owner file now) := by
  have empty : Held pki ∅ := fun host certificate found => by cases found
  unfold restore
  split
  · exact empty
  · split
    · exact empty
    · rename_i cached _
      generalize (∅ : CertificateMap) = certificates at empty
      induction cached.bundles generalizing certificates with
      | nil => exact empty
      | cons bundle rest ih =>
        rw [List.foldl_cons]
        apply ih
        unfold restoreBundle
        split
        · rename_i certificate ok
          exact held_insert empty ⟨bundle,now,ok⟩
        · exact empty

theorem held_step (node : Node) (event : Event) (held : Held pki node.state.snapshot.certificates) :
    Held pki (step pki owner node event).state.snapshot.certificates := by
  obtain ⟨now,action⟩ := event
  cases action with
  | restart => exact held_restore node.file now
  | apply response disk =>
    simp only [step]
    split
    · rename_i state file persisted ok
      obtain ⟨acceptable,certificates,renewed,installed⟩ := applyAt_eq_ok.mp ok
      obtain ⟨hosts,named,distinct⟩ := acceptable.hosts
      cases installed
      intro host certificate found
      rw [lookup_renewed held named distinct renewed] at found
      obtain ⟨bundle,offers,settled⟩ := Option.bind_eq_some_iff.mp found
      have facts := settle_some held (mem_of_offered offers).2 settled
      exact ⟨facts.1,facts.2.1⟩
    · exact held

theorem held_run (node : Node) (held : Held pki node.state.snapshot.certificates) (events : List Event) :
    Held pki (run (step pki owner) node events).state.snapshot.certificates :=
  invariant_run_always held_step node events held

variable (pki owner) in
structure Follows (node : Node) (response : CertificateBundlesResponse) (now : Timestamp) (disk : Disk) : Prop where
  accepted : (∃ after, applyAt pki owner node.state node.file response now disk = .ok after) ↔ Acceptable response
  offered : Acceptable response → ∀ host bundle, offered response.bundles host = some bundle ↔
    bundle ∈ response.bundles ∧ safeHostname bundle.hostname = .ok host
  live : Acceptable response → ∀ host,
    (step pki owner node ⟨now,.apply response disk⟩).live host =
      inForce pki response.bundles node.state.snapshot.certificates now host
  identity : Acceptable response → ∀ host certificate,
    (step pki owner node ⟨now,.apply response disk⟩).live host = some certificate →
      ∃ bundle ∈ response.bundles, safeHostname bundle.hostname = .ok host ∧
        certificate.bundle.ingressId = bundle.ingressId ∧ certificate.validAt now = true
  refused : ¬Acceptable response → step pki owner node ⟨now,.apply response disk⟩ = { node with clock := now }

theorem step_accepted {node : Node} {response : CertificateBundlesResponse} (acceptable : Acceptable response)
    (now : Timestamp) (disk : Disk) :
    ∃ certificates, renewAll pki node.state.snapshot.certificates now ∅ response.bundles = .ok certificates ∧
      step pki owner node ⟨now,.apply response disk⟩ =
        { state := (install owner node.state node.file response now disk certificates).1.1
          file := (install owner node.state node.file response now disk certificates).1.2
          clock := now } := by
  obtain ⟨after,ok⟩ := (@applyAt_ok_iff pki owner now node.state node.file response disk).mpr acceptable
  obtain ⟨_,certificates,renewed,installed⟩ := applyAt_eq_ok.mp ok
  refine ⟨certificates,renewed,?_⟩
  simp only [step]
  rw [ok,← installed]

theorem step_refused {node : Node} {response : CertificateBundlesResponse} (refused : ¬Acceptable response)
    (now : Timestamp) (disk : Disk) : step pki owner node ⟨now,.apply response disk⟩ = { node with clock := now } := by
  simp only [step]
  cases outcome : applyAt pki owner node.state node.file response now disk with
  | ok after => exact absurd (applyAt_ok_iff.mp ⟨after,outcome⟩) refused
  | error problem => rfl

/-- The live map after a snapshot, in every state a node can reach. -/
theorem follows_snapshot (pki : Pki) (owner : Identity) (file : Option CachedCertificates) (clock : Timestamp)
    (events : List Event) (response : CertificateBundlesResponse) (now : Timestamp) (disk : Disk) :
    Follows pki owner (run (step pki owner) { file, clock } events) response now disk := by
  have empty : Held pki ∅ := fun host certificate found => by cases found
  have held := @held_run pki owner { file, clock } empty events
  generalize run (step pki owner) { file, clock } events = node at held
  have live : Acceptable response → ∀ host, (step pki owner node ⟨now,.apply response disk⟩).live host =
      inForce pki response.bundles node.state.snapshot.certificates now host := by
    intro acceptable host
    obtain ⟨hosts,named,distinct⟩ := acceptable.hosts
    obtain ⟨certificates,renewed,after⟩ := @step_accepted pki owner node response acceptable now disk
    rw [after]
    exact lookup_renewed held named distinct renewed host
  refine ⟨applyAt_ok_iff,?_,live,?_,fun refused => step_refused refused now disk⟩
  · intro acceptable host bundle
    obtain ⟨hosts,named,distinct⟩ := acceptable.hosts
    exact offered_iff named distinct
  · intro acceptable host certificate found
    rw [live acceptable host] at found
    obtain ⟨bundle,offers,settled⟩ := Option.bind_eq_some_iff.mp found
    obtain ⟨member,named⟩ := mem_of_offered offers
    obtain ⟨_,_,ingress,valid⟩ := settle_some held named settled
    exact ⟨bundle,member,named,ingress,valid⟩

end Run

end GrassWorker.Certificates
