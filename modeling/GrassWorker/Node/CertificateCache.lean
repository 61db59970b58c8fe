import GrassWorker.Node.CertificateSnapshots

/-! What a node that starts again finds in the file: the certificates that were live,
unless the file was left as it was while a text in it had been replaced. -/
namespace GrassWorker.Certificates
open Checks Runs Validator

/-- What `apply_at` compares to see whether the file is out of date. -/
def LoadedCertificate.identity (certificate : LoadedCertificate) : Uuid × String :=
  (certificate.bundle.ingressId,certificate.bundle.revision)

def LoadedCertificate.texts (certificate : LoadedCertificate) : String × String :=
  (certificate.bundle.certificatePem,certificate.bundle.privateKeyPem)

section Texts
variable {pki : Pki}

theorem Loaded.ext {first second : LoadedCertificate} (one : Loaded pki first) (two : Loaded pki second)
    (host : first.bundle.hostname = second.bundle.hostname) (ingress : first.bundle.ingressId = second.bundle.ingressId)
    (texts : first.texts = second.texts) : first = second := by
  obtain ⟨certificatePem,privateKeyPem⟩ := Prod.mk.inj texts
  have revision : first.bundle.revision = second.bundle.revision := by rw [one.revision,two.revision,certificatePem]
  have agrees : first.bundle.Agrees second :=
    ⟨host ▸ one.hostname,ingress,certificatePem,privateKeyPem,.inr revision⟩
  obtain ⟨bundle,now,ok⟩ := one
  have valid := (validateBundle_content ok).2
  have itself := (Loaded.restored ⟨bundle,now,ok⟩ now first).mpr ⟨valid,rfl⟩
  exact ((two.agreeing agrees now first).mp itself).2

end Texts

section Changed
variable {previous certificates : CertificateMap}

theorem length_keys (certificates : CertificateMap) : certificates.keys.length = certificates.entries.length := by
  simp [AList.keys,List.keys]

theorem identities_of_unchanged (same : changed previous certificates = false) (host : String) :
    (certificates.lookup host).map LoadedCertificate.identity = (previous.lookup host).map LoadedCertificate.identity := by
  unfold changed at same
  rw [Bool.or_eq_false_iff,List.any_eq_false] at same
  obtain ⟨length,each⟩ := same
  have same : certificates.entries.length = previous.entries.length := by simpa using length
  have matched : ∀ host certificate, certificates.lookup host = some certificate →
      ∃ old, previous.lookup host = some old ∧ old.identity = certificate.identity := by
    intro host certificate found
    have entry := each ⟨host,certificate⟩ (AList.mem_lookup_iff.mp found)
    cases earlier : previous.lookup host with
    | none => simp [earlier] at entry
    | some old =>
      simp only [earlier,Option.all_some,Bool.or_eq_true,decide_eq_true_eq,not_or,not_not] at entry
      exact ⟨old,rfl,Prod.ext entry.1 entry.2⟩
  have inside : certificates.keys ⊆ previous.keys := by
    intro host member
    obtain ⟨certificate,found⟩ := Option.isSome_iff_exists.mp (AList.lookup_isSome.mpr (AList.mem_keys.mpr member))
    obtain ⟨old,earlier,_⟩ := matched host certificate found
    exact AList.mem_keys.mp (AList.lookup_isSome.mp (by rw [earlier]; rfl))
  have onto : certificates.keys.Perm previous.keys := by
    apply (List.subperm_of_subset certificates.keys_nodup inside).perm_of_length_le
    rw [length_keys,length_keys,same]
  cases found : certificates.lookup host with
  | some certificate =>
    obtain ⟨old,earlier,same⟩ := matched host certificate found
    rw [earlier]
    exact congrArg some same.symm
  | none =>
    have absent : host ∉ previous.keys := fun member =>
      AList.lookup_eq_none.mp found (AList.mem_keys.mpr (onto.mem_iff.mpr member))
    rw [AList.lookup_eq_none.mpr fun member => absent (AList.mem_keys.mp member)]

end Changed

section Restore
variable {pki : Pki} {owner : Identity} {stored : CertificateMap} {file : Option CachedCertificates}

def Backed (owner : Identity) (file : Option CachedCertificates) (stored : CertificateMap) : Prop :=
  (file = none ∧ stored = ∅) ∨ file = some ⟨owner,stored.entries.map fun entry => entry.2.bundle⟩

private theorem lookup_restored (now : Timestamp) (entries : List (Sigma fun _ : String => LoadedCertificate)) (keys : entries.NodupKeys)
    (held : ∀ entry ∈ entries, Loaded pki entry.2 ∧ entry.2.bundle.hostname = entry.1) (certificates : CertificateMap)
    (apart : ∀ entry ∈ entries, entry.1 ∉ certificates) (host : String) (certificate : LoadedCertificate) :
    ((entries.map fun entry => entry.2.bundle).foldl (restoreBundle pki now) certificates).lookup host = some certificate ↔
      certificates.lookup host = some certificate ∨ ⟨host,certificate⟩ ∈ entries ∧ certificate.validAt now = true := by
  induction entries generalizing certificates with
  | nil => simp
  | cons entry rest ih =>
    obtain ⟨name,first⟩ := entry
    obtain ⟨missing,keys⟩ := List.nodupKeys_cons.mp keys
    obtain ⟨loaded,hostname⟩ := held ⟨name,first⟩ List.mem_cons_self
    have others := fun entry member => held entry (List.mem_cons_of_mem _ member)
    have restored := loaded.restored now
    simp only [List.map_cons,List.foldl_cons]
    by_cases valid : first.validAt now = true
    · have step : restoreBundle pki now certificates first.bundle = certificates.insert first.bundle.hostname first := by
        unfold restoreBundle
        rw [(restored first).mpr ⟨valid,rfl⟩]
      have unset := AList.lookup_eq_none.mpr (apart ⟨name,first⟩ List.mem_cons_self)
      have free : ∀ entry ∈ rest, entry.1 ∉ certificates.insert first.bundle.hostname first := by
        intro entry member inside
        rcases (AList.mem_insert certificates).mp inside with same | old
        · apply missing
          rw [← hostname,← same]
          exact List.mem_map_of_mem member
        · exact apart entry (List.mem_cons_of_mem _ member) old
      rw [step,ih keys others _ free,hostname]
      by_cases same : host = name
      · subst same
        have absent : ∀ other, ⟨host,other⟩ ∉ rest := by
          intro other member
          exact missing (List.mem_map.mpr ⟨⟨host,other⟩,member,rfl⟩)
        rw [AList.lookup_insert,unset]
        simp only [Option.some.injEq,reduceCtorEq,false_or,List.mem_cons,Sigma.mk.injEq,heq_eq_eq,true_and,absent,or_false,
          false_and]
        constructor
        · rintro rfl
          exact ⟨rfl,valid⟩
        · exact fun found => found.1.symm
      · rw [AList.lookup_insert_ne same]
        simp [same]
    · have failed : ∃ problem, validateBundle pki first.bundle now = .error problem := by
        cases outcome : validateBundle pki first.bundle now with
        | error problem => exact ⟨problem,rfl⟩
        | ok other => exact absurd ((restored other).mp outcome).1 valid
      have step : restoreBundle pki now certificates first.bundle = certificates := by
        unfold restoreBundle
        obtain ⟨problem,failed⟩ := failed
        rw [failed]
      rw [step,ih keys others certificates fun entry member => apart entry (List.mem_cons_of_mem _ member)]
      apply or_congr_right
      rw [List.mem_cons]
      constructor
      · exact fun found => ⟨.inr found.1,found.2⟩
      · rintro ⟨same | later,current⟩
        · cases same
          exact absurd current valid
        · exact ⟨later,current⟩

theorem lookup_restore (backed : Backed owner file stored) (short : stored.entries.length ≤ maxEntries) (held : Held pki stored)
    (now : Timestamp) (host : String) (certificate : LoadedCertificate) :
    (restore pki owner file now).lookup host = some certificate ↔
      stored.lookup host = some certificate ∧ certificate.validAt now = true := by
  rcases backed with ⟨rfl,rfl⟩ | rfl
  · simp [restore]
  · have kept : ∀ entry ∈ stored.entries, Loaded pki entry.2 ∧ entry.2.bundle.hostname = entry.1 :=
      fun entry member => held entry.1 entry.2 (AList.mem_lookup_iff.mpr member)
    unfold restore
    simp only [ne_eq,not_true_eq_false,false_or,List.length_map]
    rw [if_neg (Nat.not_lt.mpr short),
      lookup_restored now stored.entries stored.nodupKeys kept ∅ (fun entry _ => AList.notMem_empty entry.1) host certificate]
    rw [AList.lookup_empty,← AList.mem_lookup_iff]
    simp

end Restore

/-- A renewal that neither an ingress nor a revision shows: the file would not be written,
although a text has changed. The snapshot must bring none while the file is up to date. -/
def Noticed (pki : Pki) (node : Node) (response : CertificateBundlesResponse) (now : Timestamp) : Prop :=
  node.state.cacheDirty = false →
    (∀ host, (inForce pki response.bundles node.state.snapshot.certificates now host).map LoadedCertificate.identity =
      (node.live host).map LoadedCertificate.identity) →
    ∀ host, (inForce pki response.bundles node.state.snapshot.certificates now host).map LoadedCertificate.texts =
      (node.live host).map LoadedCertificate.texts

/-- The clock does not go back, and a removal that follows a failed write succeeds. -/
def Regular (node : Node) (event : Event) : Prop :=
  node.clock ≤ event.now ∧ match event.action with
    | .apply _ disk => disk.write = false → disk.remove = true
    | .restart => True

def Permitted (pki : Pki) (node : Node) (event : Event) : Prop :=
  Regular node event ∧ match event.action with
    | .apply response _ => Acceptable response → Noticed pki node response event.now
    | .restart => True

def Event.writes (event : Event) : Prop :=
  match event.action with
  | .apply _ disk => disk.write = true
  | .restart => True

/-- `stored` is what the file keeps: live certificates, and ones that have expired. -/
structure Mirrors (pki : Pki) (owner : Identity) (node : Node) (stored : CertificateMap) : Prop where
  backed : Backed owner node.file stored
  short : stored.entries.length ≤ maxEntries
  held : Held pki stored
  live : Held pki node.state.snapshot.certificates
  begun : ∀ host certificate, stored.lookup host = some certificate → certificate.notBefore ≤ node.clock
  kept : ∀ host certificate, stored.lookup host = some certificate → node.clock < certificate.notAfter →
    node.live host = some certificate
  clean : node.state.cacheDirty = false → ∀ host, stored.lookup host = node.live host

def Complete (node : Node) (stored : CertificateMap) : Prop :=
  ∀ host certificate, node.live host = some certificate → stored.lookup host = some certificate

section Steps
variable {pki : Pki} {owner : Identity} {node : Node} {stored : CertificateMap}

theorem mirrors_start (clock : Timestamp) : Mirrors pki owner { clock } ∅ where
  backed := .inl ⟨rfl,rfl⟩
  short := Nat.zero_le _
  held _ _ found := by cases found
  live _ _ found := by cases found
  begun _ _ found := by cases found
  kept _ _ found := by cases found
  clean dirty := by cases dirty

theorem Mirrors.restored (mirrors : Mirrors pki owner node stored) {now : Timestamp} (later : node.clock ≤ now)
    {host : String} {certificate : LoadedCertificate}
    (found : (restore pki owner node.file now).lookup host = some certificate) :
    node.live host = some certificate ∧ certificate.validAt now = true := by
  obtain ⟨entry,valid⟩ := (lookup_restore mirrors.backed mirrors.short mirrors.held now host certificate).mp found
  exact ⟨mirrors.kept host certificate entry (Int.lt_of_le_of_lt later (of_decide_eq_true valid).2),valid⟩

theorem Mirrors.later (mirrors : Mirrors pki owner node stored) {now : Timestamp} (later : node.clock ≤ now) :
    Mirrors pki owner { node with clock := now } stored where
  backed := mirrors.backed
  short := mirrors.short
  held := mirrors.held
  live := mirrors.live
  begun host certificate found := Int.le_trans (mirrors.begun host certificate found) later
  kept host certificate found valid := mirrors.kept host certificate found (Int.lt_of_le_of_lt later valid)
  clean := mirrors.clean

theorem Mirrors.restart (mirrors : Mirrors pki owner node stored) {now : Timestamp} (later : node.clock ≤ now) :
    Mirrors pki owner (step pki owner node ⟨now,.restart⟩) stored where
  backed := mirrors.backed
  short := mirrors.short
  held := mirrors.held
  live := held_restore node.file now
  begun host certificate found := Int.le_trans (mirrors.begun host certificate found) later
  kept host certificate found valid := by
    apply (lookup_restore mirrors.backed mirrors.short mirrors.held now host certificate).mpr
    exact ⟨found,decide_eq_true ⟨Int.le_trans (mirrors.begun host certificate found) later,valid⟩⟩
  clean dirty := by cases dirty

theorem length_insert (certificates : CertificateMap) (host : String) (certificate : LoadedCertificate) :
    (certificates.insert host certificate).entries.length ≤ certificates.entries.length + 1 := by
  rw [← length_keys,← length_keys,AList.keys_insert,List.length_cons]
  have shorter := @List.length_erase_le _ _ host certificates.keys
  omega

theorem length_renewed {previous certificates after : CertificateMap} {bundles : List CertificateBundle} {now : Timestamp}
    (ok : renewAll pki previous now certificates bundles = .ok after) :
    after.entries.length ≤ certificates.entries.length + bundles.length := by
  induction bundles generalizing certificates with
  | nil =>
    cases ok
    exact Nat.le_refl _
  | cons bundle rest ih =>
    obtain ⟨host,_,ok⟩ := bind_eq_ok.mp ok
    rw [List.length_cons]
    split at ok
    · rename_i certificate _
      have bound := ih ok
      have inserted := length_insert certificates host certificate
      omega
    · have bound := ih ok
      omega

theorem renewed_valid (held : Held pki node.state.snapshot.certificates) {response : CertificateBundlesResponse}
    (acceptable : Acceptable response) {now : Timestamp} {certificates : CertificateMap}
    (renewed : renewAll pki node.state.snapshot.certificates now ∅ response.bundles = .ok certificates)
    {host : String} {certificate : LoadedCertificate} (found : certificates.lookup host = some certificate) :
    Loaded pki certificate ∧ certificate.bundle.hostname = host ∧ certificate.validAt now = true := by
  obtain ⟨hosts,named,distinct⟩ := acceptable.hosts
  rw [lookup_renewed held named distinct renewed] at found
  obtain ⟨bundle,offers,settled⟩ := Option.bind_eq_some_iff.mp found
  obtain ⟨loaded,hostname,_,valid⟩ := settle_some held (mem_of_offered offers).2 settled
  exact ⟨loaded,hostname,valid⟩

theorem live_of_noticed (live : Held pki node.state.snapshot.certificates) {response : CertificateBundlesResponse}
    (acceptable : Acceptable response) {now : Timestamp} {certificates : CertificateMap}
    (renewed : renewAll pki node.state.snapshot.certificates now ∅ response.bundles = .ok certificates)
    (noticed : Noticed pki node response now) (clean : node.state.cacheDirty = false)
    (same : changed node.state.snapshot.certificates certificates = false) (host : String) :
    certificates.lookup host = node.live host := by
  obtain ⟨hosts,named,distinct⟩ := acceptable.hosts
  have content := lookup_renewed live named distinct renewed
  have identities : ∀ host, (inForce pki response.bundles node.state.snapshot.certificates now host).map LoadedCertificate.identity =
      (node.live host).map LoadedCertificate.identity := by
    intro host
    rw [← content host]
    exact identities_of_unchanged same host
  have identity := identities host
  have texts := noticed clean identities host
  rw [← content host] at identity texts
  cases found : certificates.lookup host with
  | none =>
    rw [found] at identity
    exact (Option.map_eq_none_iff.mp identity.symm).symm
  | some certificate =>
    rw [found] at identity texts
    obtain ⟨old,held,same⟩ := Option.map_eq_some_iff.mp identity.symm
    rw [held,Option.map_some,Option.map_some,Option.some.injEq] at texts
    obtain ⟨loaded,hostname,_⟩ := renewed_valid live acceptable renewed found
    obtain ⟨earlier,former⟩ := live host old held
    rw [held,loaded.ext earlier (hostname.trans former.symm) (congrArg Prod.fst same).symm texts]

theorem mirrors_written (live : Held pki node.state.snapshot.certificates) {response : CertificateBundlesResponse}
    (acceptable : Acceptable response) {now : Timestamp} {certificates : CertificateMap}
    (renewed : renewAll pki node.state.snapshot.certificates now ∅ response.bundles = .ok certificates)
    {after : Node} (memory : after.state.snapshot.certificates = certificates) (clock : after.clock = now)
    (file : after.file = some ⟨owner,certificates.entries.map fun entry => entry.2.bundle⟩) :
    Mirrors pki owner after certificates := by
  have valid := fun host certificate => @renewed_valid pki node live response acceptable now certificates renewed host certificate
  have held : Held pki certificates := fun host certificate found =>
    ⟨(valid host certificate found).1,(valid host certificate found).2.1⟩
  refine ⟨.inr file,?_,held,memory ▸ held,?_,?_,?_⟩
  · have bound := length_renewed renewed
    have short := acceptable.bundles
    have empty : (∅ : CertificateMap).entries.length = 0 := rfl
    omega
  · intro host certificate found
    rw [clock]
    exact (of_decide_eq_true (valid host certificate found).2.2).1
  · intro host certificate found _
    unfold Node.live
    rwa [memory]
  · intro _ host
    unfold Node.live
    rw [memory]

theorem mirrors_removed (live : Held pki node.state.snapshot.certificates) (file : node.file = none)
    (dirty : node.state.cacheDirty = true) : Mirrors pki owner node ∅ where
  backed := .inl ⟨file,rfl⟩
  short := Nat.zero_le _
  held _ _ found := by cases found
  live := live
  begun _ _ found := by cases found
  kept _ _ found := by cases found
  clean clean := by
    rw [dirty] at clean
    cases clean

theorem Mirrors.apply (mirrors : Mirrors pki owner node stored) {response : CertificateBundlesResponse}
    (acceptable : Acceptable response) {now : Timestamp} {disk : Disk} (later : node.clock ≤ now)
    (removal : disk.write = false → disk.remove = true) (noticed : Noticed pki node response now) :
    ∃ after, Mirrors pki owner (step pki owner node ⟨now,.apply response disk⟩) after ∧
      (disk.write = true → Complete node stored → Complete (step pki owner node ⟨now,.apply response disk⟩) after) := by
  obtain ⟨certificates,renewed,outcome⟩ := @step_accepted pki owner node response acceptable now disk
  rw [outcome]
  have held : Held pki certificates := fun host certificate found =>
    ⟨(renewed_valid mirrors.live acceptable renewed found).1,(renewed_valid mirrors.live acceptable renewed found).2.1⟩
  cases written : changed node.state.snapshot.certificates certificates || node.state.cacheDirty with
  | true =>
    cases success : disk.write with
    | true =>
      refine ⟨certificates,mirrors_written mirrors.live acceptable renewed rfl rfl ?_,fun _ _ _ _ found => found⟩
      simp [install,written,success]
    | false =>
      refine ⟨∅,mirrors_removed held ?_ ?_,fun impossible => by cases impossible⟩
      · simp [install,written,success,removal success]
      · simp [install,written,success]
  | false =>
    -- the file stays as it is, and by the condition so does the live map
    obtain ⟨same,clean⟩ := Bool.or_eq_false_iff.mp written
    have unmoved := live_of_noticed mirrors.live acceptable renewed noticed clean same
    have file : (install owner node.state node.file response now disk certificates).1.2 = node.file := by
      simp [install,written]
    have mirrored : ∀ host, stored.lookup host = certificates.lookup host :=
      fun host => (mirrors.clean clean host).trans (unmoved host).symm
    refine ⟨stored,⟨?_,mirrors.short,mirrors.held,held,?_,?_,?_⟩,?_⟩
    · rw [file]
      exact mirrors.backed
    · exact fun host certificate found => Int.le_trans (mirrors.begun host certificate found) later
    · exact fun host certificate found _ => (mirrored host).symm.trans found
    · exact fun _ host => mirrored host
    · exact fun _ _ host certificate found => (mirrored host).trans found

end Steps

section Run
variable {pki : Pki} {owner : Identity}

theorem mirrors_step {node : Node} {stored : CertificateMap} (mirrors : Mirrors pki owner node stored) (event : Event)
    (permitted : Permitted pki node event) :
    ∃ after, Mirrors pki owner (step pki owner node event) after ∧
      (event.writes → Complete node stored → Complete (step pki owner node event) after) := by
  obtain ⟨now,action⟩ := event
  obtain ⟨⟨later,removal⟩,noticed⟩ := permitted
  cases action with
  | restart =>
    refine ⟨stored,mirrors.restart later,fun _ _ host certificate found => ?_⟩
    exact ((lookup_restore mirrors.backed mirrors.short mirrors.held now host certificate).mp found).1
  | apply response disk =>
    by_cases acceptable : Acceptable response
    · exact mirrors.apply acceptable later removal (noticed acceptable)
    · rw [step_refused acceptable]
      exact ⟨stored,mirrors.later later,fun _ complete => complete⟩

theorem mirrors_run {node : Node} {stored : CertificateMap} (mirrors : Mirrors pki owner node stored) (events : List Event)
    (permitted : Along (step pki owner) (Permitted pki) node events) :
    ∃ after, Mirrors pki owner (run (step pki owner) node events) after ∧
      ((∀ event ∈ events, event.writes) → Complete node stored → Complete (run (step pki owner) node events) after) := by
  induction events generalizing node stored with
  | nil => exact ⟨stored,mirrors,fun _ complete => complete⟩
  | cons event rest ih =>
    obtain ⟨here,later⟩ := permitted
    obtain ⟨middle,mirrors,first⟩ := mirrors_step mirrors event here
    obtain ⟨after,mirrors,second⟩ := ih mirrors later
    refine ⟨after,mirrors,fun writes complete => ?_⟩
    obtain ⟨written,others⟩ := List.forall_mem_cons.mp writes
    exact second others (first written complete)

/-- What a node of the same identity restores at any later time: live certificates that are
still valid, and all of them if no write has failed. -/
structure Restores (pki : Pki) (owner : Identity) (node : Node) (allWritten : Prop) : Prop where
  live : ∀ now, node.clock ≤ now → ∀ host certificate, (restore pki owner node.file now).lookup host = some certificate →
    certificate.validAt now = true ∧ ∃ old, node.live host = some old ∧
      old.bundle.ingressId = certificate.bundle.ingressId ∧ old.texts = certificate.texts
  all : allWritten → ∀ now, node.clock ≤ now → ∀ host,
    (restore pki owner node.file now).lookup host = (node.live host).filter fun certificate => certificate.validAt now

theorem restart_resurrects_nothing (pki : Pki) (owner : Identity) (clock : Timestamp) (events : List Event)
    (permitted : Along (step pki owner) (Permitted pki) { clock } events) :
    Restores pki owner (run (step pki owner) { clock } events) (∀ event ∈ events, event.writes) := by
  obtain ⟨stored,mirrors,complete⟩ := mirrors_run (mirrors_start clock) events permitted
  refine ⟨fun now later host certificate found => ?_,fun writes now later host => ?_⟩
  · obtain ⟨live,valid⟩ := mirrors.restored later found
    exact ⟨valid,certificate,live,rfl,rfl⟩
  · have kept := complete writes fun host certificate found => by cases found
    apply Option.ext
    intro certificate
    rw [Option.filter_eq_some_iff]
    constructor
    · exact mirrors.restored later
    · rintro ⟨live,valid⟩
      exact (lookup_restore mirrors.backed mirrors.short mirrors.held now host certificate).mpr ⟨kept host certificate live,valid⟩

end Run

/-! One host whose private key is written out in another way. -/

def plainPki : Pki where
  digest pem := "sha256 of " ++ pem
  chain _ _ _ := .ok (0,100)
  keysMatch _ privateKeyPem := if privateKeyPem.startsWith "key" then .ok () else .error "certificate private key does not match"

def edge : Identity := { nodeId := 1, region := "eu" }

def edgeBundle (privateKeyPem : String) : CertificateBundle where
  ingressId := 7
  hostname := "edge.example.test"
  certificatePem := "certificate"
  privateKeyPem

def arrival (now : Timestamp) (privateKeyPem : String) : Event :=
  ⟨now,.apply { bundles := [edgeBundle privateKeyPem] } ⟨true,true⟩⟩

theorem restart_after_one_snapshot :
    Restores plainPki edge (run (step plainPki edge) { clock := 0 } [arrival 10 "key",⟨20,.restart⟩])
      (∀ event ∈ [arrival 10 "key",⟨20,.restart⟩], event.writes) :=
  restart_resurrects_nothing plainPki edge 0 [arrival 10 "key",⟨20,.restart⟩]
    ⟨⟨⟨by decide,fun failed => by cases failed⟩,fun _ clean => by cases clean⟩,⟨⟨by decide +kernel,trivial⟩,trivial⟩,trivial⟩

theorem rewritten_key_is_not_restored :
    Along (step plainPki edge) Regular { clock := 0 } [arrival 10 "key",arrival 20 "key, encoded again"] ∧
      (∀ event ∈ [arrival 10 "key",arrival 20 "key, encoded again"], event.writes) ∧
      ((run (step plainPki edge) { clock := 0 } [arrival 10 "key",arrival 20 "key, encoded again"]).live
        "edge.example.test").map LoadedCertificate.texts = some ("certificate","key, encoded again") ∧
      ((restore plainPki edge (run (step plainPki edge) { clock := 0 }
        [arrival 10 "key",arrival 20 "key, encoded again"]).file 20).lookup "edge.example.test").map
          LoadedCertificate.texts = some ("certificate","key") := by
  refine ⟨⟨⟨by decide,fun failed => by cases failed⟩,⟨by decide +kernel,fun failed => by cases failed⟩,trivial⟩,?_,?_,?_⟩
  · intro event member
    rcases List.mem_cons.mp member with rfl | later
    · rfl
    · rw [List.mem_singleton.mp later]
      rfl
  · decide +kernel
  · decide +kernel

end GrassWorker.Certificates
