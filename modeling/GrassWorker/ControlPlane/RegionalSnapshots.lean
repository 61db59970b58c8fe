import GrassWorker.ControlPlane.Commits
import GrassWorker.ControlPlane.IssuanceFencing
import GrassWorker.Node.CertificateSnapshots

/-! The certificate snapshots of a region and the nodes that take them: material is
checked by rules of their own on both sides. -/
namespace GrassWorker.RegionalSnapshots
open Checks Transaction Validator Hosts Ingress ManagedCertificates Certificates Issuance Runs
open Interleaving (Config)

/-! The node's rules over the same parsers. -/

section Node
variable (crypto : Crypto)

def i64Min : Int := -9223372036854775808
def i64Max : Int := 9223372036854775807

def chainSeconds : Timestamp → Timestamp → List Der → Except String (Timestamp × Timestamp)
  | notBefore,notAfter,[] => .ok (notBefore,notAfter)
  | notBefore,notAfter,entry :: rest =>
    match crypto.validity entry with
    | none => .error "invalid certificate DER"
    | some (starts,ends) => chainSeconds (max notBefore starts) (min notAfter ends) rest

def nodeCerts (certificatePem : String) : Except String (List Der) :=
  (crypto.certs certificatePem).mapError fun _ => "invalid certificate PEM"

def nodeKey (privateKeyPem : String) : Except String String :=
  match crypto.privateKey privateKeyPem with
  | .error _ => .error "invalid private key PEM"
  | .ok none => .error "certificate private key is missing"
  | .ok (some key) => .ok key

def maxChain : Nat := 16

/-- The reading of a bundle in `validate_bundle`. -/
def nodePki : Pki where
  digest := crypto.digest
  chain := fun hostname certificatePem privateKeyPem => do
    let certificates ← nodeCerts crypto certificatePem
    refuse (certificates = [] ∨ maxChain < certificates.length) "invalid certificate chain length"
    let _ ← nodeKey crypto privateKeyPem
    match certificates with
    | [] => throw "invalid leaf certificate"
    | leaf :: _ =>
      crypto.verifyServerName leaf hostname
      chainSeconds crypto i64Min i64Max certificates
  keysMatch := fun certificatePem privateKeyPem => do
    let certificates ← nodeCerts crypto certificatePem
    let key ← nodeKey crypto privateKeyPem
    crypto.keysMatch certificates key

end Node

/-! Material that the control plane has checked. -/

def Covers (crypto : Crypto) (now : Timestamp) (entry : Der) : Prop :=
  ∃ notBefore notAfter, crypto.validity entry = some (notBefore,notAfter) ∧ micros notBefore ≤ now ∧
    now < micros notAfter ∧ i64Min ≤ notBefore ∧ notAfter ≤ i64Max

/-- What `validate_pem` has seen of a bundle. -/
structure Checked (crypto : Crypto) (now : Timestamp) (hostname : String) (bundle : PemBundle) (leaf : Der) (others : List Der)
    (key : String) : Prop where
  sizes : byteLength bundle.certificatePem.toList ≤ 65536 ∧ byteLength bundle.privateKeyPem.toList ≤ 16384
  certs : crypto.certs bundle.certificatePem = .ok (leaf :: others)
  covers : ∀ entry ∈ leaf :: others, Covers crypto now entry
  name : crypto.verifyServerName leaf hostname = .ok ()
  privateKey : crypto.privateKey bundle.privateKeyPem = .ok (some key)
  keysMatch : crypto.keysMatch (leaf :: others) key = .ok ()

section Material
variable {crypto : Crypto} {now : Timestamp}

theorem parsedValidity_ok {entry : Der} {error : String} {starts ends : Timestamp}
    (parsed : parsedValidity crypto entry error = .ok (starts,ends)) :
    ∃ notBefore notAfter, crypto.validity entry = some (notBefore,notAfter) ∧ starts = micros notBefore ∧
      ends = micros notAfter ∧ i64Min ≤ notBefore ∧ notAfter ≤ i64Max := by
  unfold parsedValidity at parsed
  cases read : crypto.validity entry with
  | none =>
    rw [read] at parsed
    cases parsed
  | some seconds =>
    obtain ⟨notBefore,notAfter⟩ := seconds
    rw [read] at parsed
    obtain ⟨first,one,parsed⟩ := bind_eq_ok.mp parsed
    obtain ⟨second,two,parsed⟩ := bind_eq_ok.mp parsed
    cases parsed
    unfold fromUnixTimestamp at one two
    split at one
    · next lower =>
      split at two
      · next upper =>
        cases one
        cases two
        refine ⟨notBefore,notAfter,rfl,rfl,rfl,?_,?_⟩
        · exact le_trans (by decide) lower.1
        · exact le_trans upper.2 (by decide)
      · cases two
    · cases one

theorem chainValidity_ok {issuedAt expiresAt : Timestamp} {entries : List Der} {outcome : Timestamp × Timestamp}
    (valid : chainValidity crypto now issuedAt expiresAt entries = .ok outcome) :
    ∀ entry ∈ entries, Covers crypto now entry := by
  induction entries generalizing issuedAt expiresAt with
  | nil => intro entry member; cases member
  | cons entry rest ih =>
    obtain ⟨⟨starts,ends⟩,parsed,valid⟩ := bind_eq_ok.mp valid
    obtain ⟨current,valid⟩ := refuse_bind_eq_ok.mp valid
    rw [not_not] at current
    obtain ⟨notBefore,notAfter,read,rfl,rfl,lower,upper⟩ := parsedValidity_ok parsed
    intro other member
    rcases List.mem_cons.mp member with rfl | later
    · exact ⟨notBefore,notAfter,read,current.1,current.2,lower,upper⟩
    · exact ih valid other later

theorem validatePem_checked {hostname : String} {bundle : PemBundle} {validity : CertificateValidity}
    (valid : validatePem crypto now hostname bundle = .ok validity) :
    validity.revision = crypto.digest bundle.certificatePem ∧
      ∃ leaf others key, Checked crypto now hostname bundle leaf others key := by
  obtain ⟨sizes,valid⟩ := refuse_bind_eq_ok.mp valid
  rw [not_not] at sizes
  obtain ⟨chain,certs,valid⟩ := bind_eq_ok.mp valid
  cases chain with
  | nil => cases valid
  | cons leaf others =>
    obtain ⟨⟨issuedAt,expiresAt⟩,parsed,valid⟩ := bind_eq_ok.mp valid
    obtain ⟨current,valid⟩ := refuse_bind_eq_ok.mp valid
    rw [not_not] at current
    obtain ⟨⟨issued,expires⟩,chain,valid⟩ := bind_eq_ok.mp valid
    obtain ⟨⟨⟩,name,valid⟩ := bind_eq_ok.mp valid
    obtain ⟨found,privateKey,valid⟩ := bind_eq_ok.mp valid
    cases found with
    | none => cases valid
    | some key =>
      obtain ⟨⟨⟩,keysMatch,valid⟩ := bind_eq_ok.mp valid
      cases valid
      obtain ⟨notBefore,notAfter,read,rfl,rfl,lower,upper⟩ := parsedValidity_ok parsed
      refine ⟨rfl,leaf,others,key,sizes,certs,?_,name,privateKey,keysMatch⟩
      intro entry member
      rcases List.mem_cons.mp member with rfl | later
      · exact ⟨notBefore,notAfter,read,current.1,current.2,lower,upper⟩
      · exact chainValidity_ok chain entry later

theorem micros_le_iff (seconds now : Int) : micros seconds ≤ now ↔ seconds ≤ unixTimestamp now := by
  change seconds * 1000000 ≤ now ↔ seconds ≤ now.fdiv 1000000
  rw [Int.fdiv_eq_ediv_of_nonneg now (by decide)]
  omega

theorem lt_micros_iff (now seconds : Int) : now < micros seconds ↔ unixTimestamp now < seconds := by
  change now < seconds * 1000000 ↔ now.fdiv 1000000 < seconds
  rw [Int.fdiv_eq_ediv_of_nonneg now (by decide)]
  omega

theorem Covers.seconds {entry : Der} (covers : Covers crypto now entry) :
    ∃ notBefore notAfter, crypto.validity entry = some (notBefore,notAfter) ∧ notBefore ≤ unixTimestamp now ∧
      unixTimestamp now < notAfter ∧ i64Min ≤ notBefore ∧ notAfter ≤ i64Max := by
  obtain ⟨notBefore,notAfter,read,starts,ends,lower,upper⟩ := covers
  exact ⟨notBefore,notAfter,read,(micros_le_iff notBefore now).mp starts,(lt_micros_iff now notAfter).mp ends,lower,upper⟩

theorem chainSeconds_ok {entries : List Der} (covers : ∀ entry ∈ entries, Covers crypto now entry)
    {notBefore notAfter : Timestamp} (starts : notBefore ≤ unixTimestamp now) (ends : unixTimestamp now < notAfter) :
    ∃ first last, chainSeconds crypto notBefore notAfter entries = .ok (first,last) ∧ first ≤ unixTimestamp now ∧
      unixTimestamp now < last := by
  induction entries generalizing notBefore notAfter with
  | nil => exact ⟨notBefore,notAfter,rfl,starts,ends⟩
  | cons entry rest ih =>
    obtain ⟨first,last,read,begun,unfinished,_,_⟩ := (covers entry List.mem_cons_self).seconds
    have tail := ih (fun other member => covers other (List.mem_cons_of_mem _ member))
      (Int.max_le.mpr ⟨starts,begun⟩) (Int.lt_min.mpr ⟨ends,unfinished⟩)
    simpa only [chainSeconds,read] using tail

end Material

/-! One bundle on both sides. -/

def ChainFits (crypto : Crypto) (bundle : CertificateBundle) : Prop :=
  ∀ certificates, crypto.certs bundle.certificatePem = .ok certificates → certificates.length ≤ maxChain

section Bundle
variable {crypto : Crypto} {now : Timestamp}

section Checked
variable {hostname : String} {bundle : PemBundle} {leaf : Der} {others : List Der} {key : String}
  (checked : Checked crypto now hostname bundle leaf others key)
include checked

theorem Checked.nodeCerts : nodeCerts crypto bundle.certificatePem = .ok (leaf :: others) := by
  rw [RegionalSnapshots.nodeCerts,checked.certs]
  rfl

theorem Checked.nodeKey : nodeKey crypto bundle.privateKeyPem = .ok key := by
  rw [RegionalSnapshots.nodeKey,checked.privateKey]

theorem Checked.nodeMatch : (nodePki crypto).keysMatch bundle.certificatePem bundle.privateKeyPem = .ok () :=
  bind_eq_ok.mpr ⟨_,checked.nodeCerts,bind_eq_ok.mpr ⟨_,checked.nodeKey,checked.keysMatch⟩⟩

theorem Checked.nodeChain (short : (leaf :: others).length ≤ maxChain) :
    ∃ first last, (nodePki crypto).chain hostname bundle.certificatePem bundle.privateKeyPem = .ok (first,last) ∧
      first ≤ unixTimestamp now ∧ unixTimestamp now < last := by
  obtain ⟨notBefore,notAfter,_,starts,ends,lower,upper⟩ := (checked.covers leaf List.mem_cons_self).seconds
  obtain ⟨first,last,seconds,bounds⟩ := chainSeconds_ok checked.covers (le_trans lower starts) (lt_of_lt_of_le ends upper)
  refine ⟨first,last,bind_eq_ok.mpr ⟨_,checked.nodeCerts,refuse_bind_eq_ok.mpr ⟨?_,?_⟩⟩,bounds⟩
  · rw [not_or]
    exact ⟨List.cons_ne_nil _ _,Nat.not_lt.mpr short⟩
  · exact bind_eq_ok.mpr ⟨key,checked.nodeKey,bind_eq_ok.mpr ⟨⟨⟩,checked.name,seconds⟩⟩

end Checked

theorem bundleOf_checked {item : ManagedCertificate} {bundle : CertificateBundle} (shows : bundleOf crypto now item = some bundle) :
    bundle.ingressId = item.id ∧ bundle.hostname = item.hostname ∧ bundle.revision = crypto.digest bundle.certificatePem ∧
      ∃ leaf others key, Checked crypto now item.hostname ⟨bundle.certificatePem,bundle.privateKeyPem⟩ leaf others key := by
  unfold bundleOf at shows
  split at shows
  · cases shows
  · split at shows
    · split at shows
      · cases shows
      · next pem _ =>
        split at shows
        · cases shows
        · next validity valid =>
          cases shows
          obtain ⟨revision,checked⟩ := validatePem_checked valid
          exact ⟨rfl,rfl,revision,checked⟩
    · cases shows

theorem validateBundle_iff {item : ManagedCertificate} {bundle : CertificateBundle} (shows : bundleOf crypto now item = some bundle)
    (safe : safeHostname item.hostname = .ok item.hostname) :
    (∃ certificate, validateBundle (nodePki crypto) bundle (unixTimestamp now) = .ok certificate) ↔ ChainFits crypto bundle := by
  obtain ⟨_,hostname,revision,leaf,others,key,checked⟩ := bundleOf_checked shows
  constructor
  · rintro ⟨certificate,ok⟩ certificates read
    obtain ⟨host,first,last,_,_,_,chain,_⟩ := validateBundle_ok_iff.mp ok
    obtain ⟨found,certs,chain⟩ := bind_eq_ok.mp chain
    obtain ⟨length,_⟩ := refuse_bind_eq_ok.mp chain
    rw [checked.nodeCerts] at certs
    cases certs
    rw [checked.certs] at read
    cases read
    exact Nat.not_lt.mp (not_or.mp length).2
  · intro fits
    obtain ⟨first,last,chain,current⟩ := checked.nodeChain (fits _ checked.certs)
    refine ⟨_,validateBundle_ok_iff.mpr ⟨item.hostname,first,last,?_,?_,.inr revision,chain,current,checked.nodeMatch,rfl⟩⟩
    · rw [hostname]
      exact safe
    · exact ⟨checked.sizes.1.trans (by decide),checked.sizes.2.trans (by decide)⟩

end Bundle

/-! A whole snapshot. -/

def shown (db : IngressDatabase) (region : String) : List ManagedCertificate :=
  match getEnabledByRegion db region with
  | none => []
  | some ingress => (itemsOf db ingress).filter fun item => eligible db item ingress.id

theorem snapshot_eq (crypto : Crypto) (now : Timestamp) (db : IngressDatabase) (region : String) :
    snapshot crypto now db region = assemble crypto now (shown db region) := by
  unfold snapshot shown
  cases getEnabledByRegion db region <;> rfl

section Property
variable (crypto : Crypto) (db : IngressDatabase) (region : String) (now : Timestamp)

/-- Every node takes the snapshot, in whatever state it is, and loads each of its bundles. -/
structure Accepted : Prop where
  whole : ∀ owner state file at' disk, ∃ after,
    applyAt (nodePki crypto) owner state file (snapshot crypto now db region) at' disk = .ok after
  bundles : ∀ bundle ∈ (snapshot crypto now db region).bundles, ∃ certificate,
    validateBundle (nodePki crypto) bundle (unixTimestamp now) = .ok certificate

/-- No more good bundles and no more live challenges than a node has room for, and no longer chains. -/
structure Bounded : Prop where
  bundles : ((shown db region).filter fun item => (bundleOf crypto now item).isSome).length ≤ maxEntries
  challenges : ((shown db region).filter fun item => (challengeOf now item).isSome).length ≤ maxEntries
  chains : ∀ item ∈ shown db region, ∀ bundle ∈ bundleOf crypto now item, ChainFits crypto bundle

end Property

/-- A record carries the identifier of its binding, and hosts of custom bindings are well formed. -/
structure Sound (db : IngressDatabase) : Prop where
  bound : ∀ row ∈ db.certificates.rows, row.hostBindingId = some row.id
  hosts : ∀ binding ∈ db.bindings.rows, binding.kind = .custom → Host binding.host.toList

theorem safeHostname_of_host {hostname : String} (host : Host hostname.toList) : safeHostname hostname = .ok hostname := by
  have ascii : ∀ c ∈ hostname.toList, c.toNat ≤ 127 := by
    intro c member
    have range := host.character c member
    omega
  have short : byteLength hostname.toList ≤ 253 := by
    rw [byteLength_of_ascii ascii]
    exact host.short
  have allowed : hostname.toList.all (fun c => isAsciiAlphanumeric c || c = '.' || c = '-') = true := by
    rw [List.all_eq_true]
    intro c member
    rcases host.allowed c member with (lower | dash) | dot
    · simp [isAsciiAlphanumeric,lower]
    · simp [dash]
    · simp [dot]
  unfold safeHostname
  rw [normalizeHost_eq_self.mpr host]
  dsimp only
  rw [if_neg]
  rw [not_or,not_not]
  exact ⟨Nat.not_lt.mpr short,allowed⟩

section Snapshots
variable {crypto : Crypto} {db : IngressDatabase} {region : String} {now : Timestamp}

theorem shown_eligible {item : ManagedCertificate} (member : item ∈ shown db region) :
    item ∈ db.certificates.rows ∧ ∃ binding, item.hostBindingId.bind db.bindings.find = some binding ∧
      binding.host = item.hostname ∧ bindingEligible binding := by
  unfold shown at member
  split at member
  · cases member
  · obtain ⟨listed,chosen⟩ := List.mem_filter.mp member
    refine ⟨(List.mem_filter.mp listed).1,?_⟩
    unfold eligible at chosen
    split at chosen
    · cases chosen
    · obtain ⟨binding,found,good⟩ := (Option.any_eq_true _ _).mp (Bool.and_eq_true_iff.mp chosen).2
      obtain ⟨live,host,_⟩ := of_decide_eq_true good
      exact ⟨binding,found,host,live⟩

theorem shown_binding {item : ManagedCertificate} (member : item ∈ shown db region) :
    item ∈ db.certificates.rows ∧ ∃ binding, item.hostBindingId.bind db.bindings.find = some binding ∧
      binding.host = item.hostname ∧ binding.kind = .custom ∧ binding.deletedAt = none := by
  obtain ⟨inside,binding,found,host,live⟩ := shown_eligible member
  obtain ⟨deleted,custom,_⟩ := of_decide_eq_true live
  exact ⟨inside,binding,found,host,custom,Option.isNone_iff_eq_none.mp deleted⟩

theorem shown_distinct (sound : Sound db) {first second : ManagedCertificate} (one : first ∈ shown db region)
    (two : second ∈ shown db region) (same : first.hostname = second.hostname) : first = second := by
  obtain ⟨inside,binding,found,host,_,live⟩ := shown_binding one
  obtain ⟨inside',binding',found',host',_,live'⟩ := shown_binding two
  rw [sound.bound first inside] at found
  rw [sound.bound second inside'] at found'
  have held : HostBindingEntry.host binding.host ∈ binding.entries := by simp [HostBinding.entries,live]
  have held' : HostBindingEntry.host binding.host ∈ binding'.entries := by
    rw [host,same,← host']
    simp [HostBinding.entries,live']
  obtain rfl := db.bindings.same_of_entry (Table.find_mem found) (Table.find_mem found') held held'
  refine db.certificates.same_of_key inside inside' ?_
  exact (Table.find_key found).symm.trans (Table.find_key found')

theorem nodup_shown (sound : Sound db) : ((shown db region).map ManagedCertificate.hostname).Nodup := by
  refine List.Nodup.map_on (fun first one second two same => shown_distinct sound one two same) ?_
  unfold shown
  split
  · exact List.nodup_nil
  · exact (db.certificates.nodup_rows.filter _).filter _

theorem shown_safe (sound : Sound db) {item : ManagedCertificate} (member : item ∈ shown db region) :
    safeHostname item.hostname = .ok item.hostname := by
  obtain ⟨_,binding,found,host,custom,_⟩ := shown_binding member
  obtain ⟨id,_,found⟩ := Option.bind_eq_some_iff.mp found
  rw [← host]
  exact safeHostname_of_host (sound.hosts binding (Table.find_mem found) custom)

end Snapshots

section Agreement
variable {crypto : Crypto} {db : IngressDatabase} {region : String} {now : Timestamp}

theorem filterMap_names {α β γ : Type} (pick : α → Option β) (name : α → γ) (named : β → γ)
    (same : ∀ item picked, pick item = some picked → named picked = name item) (items : List α) :
    ((items.filterMap pick).map named).Sublist (items.map name) := by
  induction items with
  | nil => exact List.Sublist.refl _
  | cons item rest ih =>
    cases picked : pick item with
    | none =>
      rw [List.filterMap_cons_none picked]
      exact ih.cons _
    | some value =>
      rw [List.filterMap_cons_some picked,List.map_cons,List.map_cons,same item value picked]
      exact ih.cons_cons _

theorem filterMap_length {α β : Type} (pick : α → Option β) (items : List α) :
    (items.filterMap pick).length = (items.filter fun item => (pick item).isSome).length := by
  induction items with
  | nil => rfl
  | cons item rest ih =>
    cases picked : pick item with
    | none => simp [picked,ih]
    | some value => simp [picked,ih]

theorem mem_bundles {bundle : CertificateBundle} : bundle ∈ (snapshot crypto now db region).bundles ↔
    ∃ item ∈ shown db region, bundleOf crypto now item = some bundle := by
  rw [snapshot_eq]
  exact (List.mem_insertionSort _).trans List.mem_filterMap

theorem challengeOf_named {item : ManagedCertificate} {challenge : HttpChallenge} (shows : challengeOf now item = some challenge) :
    challenge.hostname = item.hostname := by
  unfold challengeOf at shows
  split at shows
  · split at shows
    · cases shows
      rfl
    · cases shows
  · cases shows

theorem bundles_perm : (snapshot crypto now db region).bundles.Perm ((shown db region).filterMap (bundleOf crypto now)) := by
  rw [snapshot_eq]
  exact List.perm_insertionSort _ _

theorem challenges_perm : (snapshot crypto now db region).challenges.Perm ((shown db region).filterMap (challengeOf now)) := by
  rw [snapshot_eq]
  exact List.perm_insertionSort _ _

theorem named_of_safe {bundles : List CertificateBundle}
    (safe : ∀ bundle ∈ bundles, safeHostname bundle.hostname = .ok bundle.hostname) :
    Named bundles (bundles.map CertificateBundle.hostname) := by
  induction bundles with
  | nil => exact .nil
  | cons bundle rest ih =>
    exact .cons (safe bundle List.mem_cons_self) (ih fun other member => safe other (List.mem_cons_of_mem _ member))

theorem acceptable_iff (sound : Sound db) : Acceptable (snapshot crypto now db region) ↔
    ((shown db region).filter fun item => (bundleOf crypto now item).isSome).length ≤ maxEntries ∧
      ((shown db region).filter fun item => (challengeOf now item).isSome).length ≤ maxEntries := by
  rw [← filterMap_length,← filterMap_length,← bundles_perm.length_eq,← challenges_perm.length_eq]
  constructor
  · intro acceptable
    exact ⟨acceptable.bundles,acceptable.challenges⟩
  · rintro ⟨bundles,challenges⟩
    refine ⟨bundles,challenges,⟨_,named_of_safe fun bundle member => ?_,?_⟩,?_⟩
    · obtain ⟨item,listed,shows⟩ := mem_bundles.mp member
      rw [(bundleOf_checked shows).2.1]
      exact shown_safe sound listed
    · refine (bundles_perm.map _).nodup_iff.mpr ((nodup_shown sound).sublist (filterMap_names _ _ _ ?_ _))
      intro item bundle shows
      exact (bundleOf_checked shows).2.1
    · have identifiers : ((shown db region).map ManagedCertificate.id).Nodup := by
        refine List.Nodup.map_on ?_ (nodup_shown sound).of_map
        intro first one second two same
        exact db.certificates.same_of_key (shown_binding one).1 (shown_binding two).1 same
      refine (bundles_perm.map _).nodup_iff.mpr (identifiers.sublist (filterMap_names _ _ _ ?_ _))
      intro item bundle shows
      exact (bundleOf_checked shows).1

theorem accepted_of_sound (sound : Sound db) : Accepted crypto db region now ↔ Bounded crypto db region now := by
  have whole : (∀ owner state file at' disk, ∃ after,
      applyAt (nodePki crypto) owner state file (snapshot crypto now db region) at' disk = .ok after) ↔
      Acceptable (snapshot crypto now db region) :=
    ⟨fun all => applyAt_ok_iff.mp (all ⟨0,""⟩ {} none 0 ⟨true,true⟩),fun good _ _ _ _ _ => applyAt_ok_iff.mpr good⟩
  have each : (∀ bundle ∈ (snapshot crypto now db region).bundles, ∃ certificate,
      validateBundle (nodePki crypto) bundle (unixTimestamp now) = .ok certificate) ↔
      ∀ item ∈ shown db region, ∀ bundle ∈ bundleOf crypto now item, ChainFits crypto bundle := by
    constructor
    · intro all item member bundle shows
      exact (validateBundle_iff shows (shown_safe sound member)).mp (all bundle (mem_bundles.mpr ⟨item,member,shows⟩))
    · intro fits bundle member
      obtain ⟨item,listed,shows⟩ := mem_bundles.mp member
      exact (validateBundle_iff shows (shown_safe sound listed)).mpr (fits item listed bundle shows)
  constructor
  · rintro ⟨first,second⟩
    obtain ⟨bundles,challenges⟩ := (acceptable_iff sound).mp (whole.mp first)
    exact ⟨bundles,challenges,each.mp second⟩
  · rintro ⟨bundles,challenges,chains⟩
    exact ⟨whole.mpr ((acceptable_iff sound).mpr ⟨bundles,challenges⟩),each.mpr chains⟩

end Agreement

/-! Runs of custom domains and of their certificates. -/

inductive HostChange
  | bind (rawHost : String) (request : BindHostRequest)
  | updateStatus (binding : Uuid) (status : HostBindingStatus) (failureReason : Option String)
  | runCheck (binding : Uuid) (ready : Bool) (ownership : DnsVerification)
  | decideDomain (binding : Uuid) (approved : Bool) (actor : Uuid) (reason : Option String)
  | delete (project binding : Uuid)
  | deleteProject (project actor : Uuid)

def HostChange.run (instant : Instant) : HostChange → Handling Unit
  | .bind rawHost request => do
    let host ← ofExcept ((normalizeHost rawHost).mapError fun error => AppError.validation error.message)
    let _ ← createBinding instant { request with host, source := none, kind := .custom }
  | .updateStatus binding status failureReason => updateBindingStatus binding status failureReason
  | .runCheck binding ready ownership => Hosts.runCheck binding ready ownership
  | .decideDomain binding approved actor reason => Hosts.decideDomain binding approved actor reason
  | .delete project binding => deleteHost instant project binding
  | .deleteProject project actor => do
    let _ ← Projects.softDeleteProjectRecords instant project actor

inductive Event
  | hosts (instant : Instant) (change : HostChange)
  | issuance (event : Interleaving.Event Request Input)

abbrev State := Config Shared Handler

def withBindings (bindings : Table HostBinding (·.id) HostBinding.entries) (state : State) : State :=
  { state with shared := { state.shared with db := { state.shared.db with bindings } } }

def step (crypto : Crypto) (state : State) : Event → State
  | .hosts instant change => { state with shared := { state.shared with
      db := { state.shared.db with toDatabase := commit (change.run instant) state.shared.db.toDatabase } } }
  | .issuance event => withBindings state.shared.db.bindings ((machine crypto).step state event)

section Hosted

def Hosted (db : Database) : Prop := ∀ binding ∈ db.bindings.rows, binding.kind = .custom → Host binding.host.toList

variable {db : Database} (hosted : Hosted db)
include hosted

theorem updateBinding_hosted {id : Uuid} {change : HostBinding → HostBinding} {keeps : ∀ row, (change row).id = row.id}
    (same : ∀ row, (change row).host = row.host ∧ (change row).kind = row.kind) :
    Ensures (updateBinding id change keeps) db fun _ => Hosted := by
  simp only [updateBinding,ensures_write]
  intro _ after written
  obtain ⟨bindings,updated,written⟩ := Option.bind_eq_some_iff.mp written
  cases written
  intro binding member custom
  rw [Table.rows_update updated] at member
  obtain ⟨row,inside,rfl⟩ := List.mem_map.mp member
  by_cases chosen : row.id = id
  · rw [if_pos chosen] at custom ⊢
    rw [(same row).1]
    exact hosted row inside ((same row).2 ▸ custom)
  · rw [if_neg chosen] at custom ⊢
    exact hosted row inside custom

theorem run_hosted (instant : Instant) (change : HostChange) : Ensures (change.run instant) db fun _ => Hosted := by
  cases change with
  | bind rawHost request =>
    simp only [HostChange.run,ensures_bind,ensures_ofExcept,createBinding,ensures_write,ensures_pure]
    intro host normal binding after written
    obtain ⟨bindings,inserted,written⟩ := Option.bind_eq_some_iff.mp written
    cases written
    intro other member custom
    rw [Table.rows_insert inserted,List.mem_append,List.mem_singleton] at member
    rcases member with old | rfl
    · exact hosted other old custom
    · cases outcome : normalizeHost rawHost with
      | error error =>
        rw [outcome] at normal
        cases normal
      | ok name =>
        rw [outcome] at normal
        cases normal
        exact host_of_normalizeHost outcome
  | updateStatus binding status failureReason => exact updateBinding_hosted hosted fun _ => ⟨rfl,rfl⟩
  | runCheck binding ready ownership =>
    simp only [HostChange.run,Hosts.runCheck,ensures_bind,ensures_query]
    cases getBindingById db binding with
    | none => simpa using hosted
    | some found =>
      simp only [ensures_ite,ensures_pure]
      refine ⟨fun _ => hosted,fun _ => updateBinding_hosted hosted fun row => ?_⟩
      cases ownership <;> exact ⟨rfl,rfl⟩
  | decideDomain binding approved actor reason =>
    simp only [HostChange.run,Hosts.decideDomain,ensures_bind,ensures_query,ensures_orElse,ensures_require]
    intro found _ _
    cases domainDecision found.reviewStatus approved with
    | conflict => exact ensures_throw _ _ _
    | apply reviewStatus bindingStatus =>
      simp only [ensures_bind,ControlPlane.ensures_createPlatformAuditEvent,ensures_query,ensures_orElse,ensures_pure]
      refine (updateBinding_hosted hosted ?_).mono ?_
      · exact fun _ => ⟨rfl,rfl⟩
      · intro _ after kept _ _
        exact kept
  | delete project binding =>
    simp only [HostChange.run,deleteHost,ensures_bind,ensures_query,ensures_orElse,ensures_ite,ensures_pure]
    intro found _
    exact ⟨fun _ => hosted,fun _ => updateBinding_hosted hosted fun _ => ⟨rfl,rfl⟩⟩
  | deleteProject project actor =>
    simp only [HostChange.run,Projects.softDeleteProjectRecords,ensures_bind,ensures_query,ensures_orElse,ensures_ite,
      ensures_pure,ensures_write,Projects.updateProject,ControlPlane.ensures_createAuditEvent]
    intro found _
    refine ⟨fun _ => hosted,fun _ _ middle written _ after last => ?_⟩
    obtain ⟨bindings,updated,written⟩ := Option.bind_eq_some_iff.mp written
    cases written
    obtain ⟨projects,_,last⟩ := Option.bind_eq_some_iff.mp last
    cases last
    intro binding member custom
    rw [Table.rows_updateWhere updated] at member
    obtain ⟨row,inside,rfl⟩ := List.mem_map.mp member
    have same : row.kind = .custom → Host row.host.toList := hosted row inside
    split at custom
    · next chosen =>
      rw [if_pos chosen]
      exact same custom
    · next other =>
      rw [if_neg other]
      exact same custom

end Hosted

section Runs
variable (crypto : Crypto)

theorem advance_bound (input : Input) {s : Shared} (handler : Handler)
    (bound : ∀ row ∈ s.db.certificates.rows, row.hostBindingId = some row.id) :
    ∀ row ∈ (advance crypto input s handler).1.db.certificates.rows, row.hostBindingId = some row.id := by
  cases advance_does crypto input s handler with
  | records rewrites _ =>
    generalize (advance crypto input s handler).1.db = db at rewrites
    cases rewrites with
    | nothing => exact bound
    | @updated id change keeps _ same written =>
      intro row member
      rw [Table.rows_update written] at member
      obtain ⟨old,inside,rfl⟩ := List.mem_map.mp member
      by_cases chosen : old.id = id
      · rw [if_pos chosen,same old,keeps old]
        exact bound old inside
      · rw [if_neg chosen]
        exact bound old inside
    | inserted written =>
      intro row member
      rw [Table.rows_insert written,List.mem_append,List.mem_singleton] at member
      rcases member with old | rfl
      · exact bound row old
      · rfl
  | reported status inserted db _ =>
    rw [db]
    exact bound
  | elsewhere other db _ =>
    rw [db]
    exact bound

theorem step_sound (state : State) (event : Event) (sound : Sound state.shared.db) :
    Sound (step crypto state event).shared.db := by
  cases event with
  | hosts instant change =>
    refine ⟨sound.bound,?_⟩
    rcases commit_ensures (run_hosted sound.hosts instant change) with same | ⟨_,hosted⟩
    · simp only [step]
      rw [same]
      exact sound.hosts
    · exact hosted
  | issuance event =>
    refine ⟨?_,sound.hosts⟩
    cases event with
    | arrive request => exact sound.bound
    | resume index input =>
      simp only [step,withBindings,Interleaving.Machine.step]
      split
      · exact sound.bound
      · exact advance_bound crypto input _ sound.bound

/-- In every state that custom domains and their certificates reach, the nodes of a region take its snapshot
if and only if it is within their limits. -/
theorem accepted_iff_bounded (db : IngressDatabase) (nextUuid : Uuid) (events : List Event)
    (empty : db.certificates.rows = []) (hosted : Hosted db.toDatabase) (region : String) (now : Timestamp) :
    Accepted crypto (run (step crypto) ⟨{ db, nextUuid },[]⟩ events).shared.db region now ↔
      Bounded crypto (run (step crypto) ⟨{ db, nextUuid },[]⟩ events).shared.db region now := by
  have start : Sound db := ⟨by simp [empty],hosted⟩
  exact accepted_of_sound (invariant_run_always (step_sound crypto) ⟨{ db, nextUuid },[]⟩ events start)

end Runs

open IssuanceFencing (sampleCrypto oneDomain acting customDomain)

private def unbound : IngressDatabase := { oneDomain with bindings := ∅ }

private def request : BindHostRequest where
  project := { id := 3, teamId := 4, slug := "site" }
  team := { id := 4 }
  source := none
  host := ""
  region := "default"
  kind := .custom
  environment := .production
  isPrimary := false
  reviewStatus := .notRequired

private def imports : List Event :=
  [.hosts { now := 0, uuid := 2 } (.bind "Site.Example.org." request),.hosts { now := 0 } (.runCheck 2 true .verified),
    .issuance (.arrive (.importBundle 5 customDomain ⟨"chain","key"⟩)),.issuance (.resume 0 (acting 1)),
    .issuance (.resume 0 (acting 1))]

theorem accepted_after_import : Accepted sampleCrypto (run (step sampleCrypto) ⟨{ db := unbound, nextUuid := 10 },[]⟩ imports).shared.db
    "default" 2 := by
  refine (accepted_iff_bounded sampleCrypto unbound 10 imports rfl ?_ "default" 2).mpr ⟨by decide,by decide +kernel,?_⟩
  · intro binding member
    cases member
  · intro item _ bundle _ certificates read
    cases read
    exact Nat.succ_le_succ (Nat.zero_le _)

private def longChain : Crypto := { sampleCrypto with certs := fun pem => .ok (List.replicate 17 pem) }

/-- The same certificate with a chain of 17 passes on one side only. -/
theorem long_chain_not_accepted : ¬∀ (crypto : Crypto) (db : IngressDatabase) (nextUuid : Uuid) (events : List Event),
    db.certificates.rows = [] → Hosted db.toDatabase → ∀ region now,
      Accepted crypto (run (step crypto) ⟨{ db, nextUuid },[]⟩ events).shared.db region now := by
  intro claimed
  have hosted : Hosted unbound.toDatabase := by
    intro binding member
    cases member
  have accepted := (claimed longChain unbound 10 imports rfl hosted "default" 2).bundles
  have refused : (snapshot longChain 2 (run (step longChain) ⟨{ db := unbound, nextUuid := 10 },[]⟩ imports).shared.db
      "default").bundles.map (fun bundle => (validateBundle (nodePki longChain) bundle (unixTimestamp 2)).isOk) = [false] := by
    decide
  generalize (snapshot longChain 2 (run (step longChain) ⟨{ db := unbound, nextUuid := 10 },[]⟩ imports).shared.db
    "default").bundles = bundles at accepted refused
  cases bundles with
  | nil => cases refused
  | cons bundle rest =>
    obtain ⟨certificate,ok⟩ := accepted bundle List.mem_cons_self
    rw [List.map_cons,ok] at refused
    cases refused

end GrassWorker.RegionalSnapshots
