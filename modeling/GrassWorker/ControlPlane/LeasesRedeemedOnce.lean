import GrassWorker.ControlPlane.CredentialLeases

/-! Which leases are redeemed. The row of a lease stays locked from when it is checked until it is consumed. The
version and its credential are read after that check, and what has been revoked stays revoked. -/
namespace GrassWorker.SourceCredentials
open Interleaving Runs

def SourceCredentialLease.toClaim (lease : SourceCredentialLease) : Claim :=
  ⟨lease.id,lease.tokenHash,lease.nodeId,lease.deploymentId,lease.credentialVersionId,lease.expiresAt⟩

/-- The version as it was read is that of the table, apart from its revocation. -/
def Stored (versions : Versions) (version : SourceCredentialVersion) : Prop :=
  ∃ revokedAt, versions.find version.id = some { version with revokedAt }

/-- A secret was given out for a claim, to its node and before the lease expired. It is that of the version the
deployment was claimed with, and nothing it depends on had been revoked when the redemption began. -/
structure Redemption.Rightful (library : Library) (s : Shared) (redemption : Redemption) : Prop where
  issued : ∃ claim ∈ s.claims, claim.lease = redemption.lease ∧ claim.token = redemption.token ∧
    claim.nodeId = redemption.nodeId ∧ claim.deploymentId = redemption.deploymentId ∧
    claim.versionId = redemption.version.id ∧ redemption.checkedAt < claim.expiresAt
  stored : Stored s.versions redemption.version
  credential : redemption.credential.id = redemption.version.credentialId
  secret : redeemedPayload library redemption.credential redemption.version = .ok redemption.secret
  version : redemption.version.id ∉ redemption.began.versions
  unrevoked : redemption.credential.id ∉ redemption.began.credentials

structure RedeemedOnce (library : Library) (s : Shared) : Prop where
  claims : (s.claims.map Claim.lease).Nodup
  once : (s.redeemed.map Redemption.lease).Nodup
  rightful : ∀ redemption ∈ s.redeemed, redemption.Rightful library s

structure Sound (library : Library) (s : Shared) : Prop extends RedeemedOnce library s where
  leased : ∀ row ∈ s.leases.rows, row.toClaim ∈ s.claims
  drawn : ∀ claim ∈ s.claims, claim.lease < s.drawn
  spent : ∀ redemption ∈ s.redeemed, ∃ row, s.leases.find redemption.lease = some row ∧ row.consumedAt.isSome

structure Follows (s s' : Shared) : Prop where
  versions : Table.Evolves (fun row next => ∃ revokedAt, next = { row with revokedAt } ∧ (row.revokedAt.isSome → revokedAt.isSome))
    (fun _ => True) s.versions s'.versions
  credentials : Table.Evolves (fun row next => row.revokedAt.isSome → next.revokedAt.isSome) (fun _ => True)
    s.credentials s'.credentials
  deployments : Table.Evolves (fun row next => next.sourceCredentialVersionId = row.sourceCredentialVersionId) (fun _ => True)
    s.deployments s'.deployments
  claims : s.claims ⊆ s'.claims

structure Past (s : Shared) (began : Revoked) : Prop where
  versions : ∀ id ∈ began.versions, ∃ row, s.versions.find id = some row ∧ row.revokedAt.isSome
  credentials : ∀ id ∈ began.credentials, ∃ row, s.credentials.find id = some row ∧ row.revokedAt.isSome

structure Checked (s : Shared) (redeeming : Redeeming) (lease : SourceCredentialLease) (version : SourceCredentialVersion)
    (now : Timestamp) : Prop where
  open' : leaseCanBeRedeemed lease redeeming.nodeId redeeming.deploymentId now = true
  claimed : version.id = lease.credentialVersionId
  stored : Stored s.versions version
  unrevoked : version.revokedAt = none → version.id ∉ redeeming.began.versions

def Known (library : Library) (s : Shared) : Handler → Prop
  | .lockLease redeeming | .readVersion redeeming _ => Past s redeeming.began
  | .readCredential redeeming lease version now => Past s redeeming.began ∧ Checked s redeeming lease version now
  | .consume redeeming lease version credential secret now => Checked s redeeming lease version now ∧
    credential.id = version.credentialId ∧ redeemedPayload library credential version = .ok secret ∧
    credential.id ∉ redeeming.began.credentials
  | .claim _ candidate =>
    ∃ row, s.deployments.find candidate.id = some row ∧ row.sourceCredentialVersionId = candidate.sourceCredentialVersionId
  | _ => True

def Handler.held : Handler → Option (Token × SourceCredentialLease)
  | .readVersion redeeming lease | .readCredential redeeming lease _ _ | .consume redeeming lease _ _ _ _ =>
    some (redeeming.token,lease)
  | _ => none

def Relies (library : Library) (s : Shared) (handler : Handler) : Prop :=
  Known library s handler ∧ ∀ held ∈ handler.held, s.leases.find held.2.id = some held.2 ∧ held.2.tokenHash = held.1

theorem Handler.held_guard {handler : Handler} {held : Token × SourceCredentialLease} (holds : held ∈ handler.held) :
    Lock.lease held.2.id ∈ handler.guards := by
  cases handler with
  | readVersion | readCredential | consume =>
    cases holds
    exact Multiset.mem_singleton_self _
  | _ => cases holds

theorem leaseByToken_some {leases : Leases} {token : Token} {lease : SourceCredentialLease}
    (found : leaseByToken leases token = some lease) : leases.find lease.id = some lease ∧ lease.tokenHash = token :=
  ⟨Table.find_of_mem (List.mem_of_find?_eq_some found),by simpa using List.find?_some found⟩

section Follows
variable {library : Library} {input : Input} {s s' : Shared} {handler : Handler} {rest : Option Handler}

theorem acts_follows (acts : Acts library input s handler s' rest) : Follows s s' := by
  have still : Follows s s := ⟨Table.evolves_refl (fun row => ⟨row.revokedAt,rfl,id⟩) _,Table.evolves_refl (fun _ => id) _,
    Table.evolves_refl (fun row => Eq.refl row.sourceCredentialVersionId) _,List.Subset.refl _⟩
  cases acts with
  | rotated credential number keyId envelope username versions credentials inserted updated =>
    refine ⟨(Table.evolves_insert inserted).mono ?_ fun _ _ => trivial,
      (Table.evolves_update updated).mono ?_ fun _ => False.elim,still.deployments,still.claims⟩
    · rintro row next _ rfl
      exact ⟨next.revokedAt,rfl,id⟩
    · rintro row next _ rfl revoked
      split
      · exact revoked
      · exact revoked
  | revoked credential versionIds now versions credentials marked updated =>
    refine ⟨(Table.evolves_updateWhere marked).mono ?_ fun _ => False.elim,
      (Table.evolves_update updated).mono ?_ fun _ => False.elim,still.deployments,still.claims⟩
    · rintro row next _ rfl
      split
      · exact ⟨some now,rfl,fun _ => rfl⟩
      · exact ⟨row.revokedAt,rfl,id⟩
    · rintro row next _ rfl revoked
      split
      · rfl
      · exact revoked
  | claimed nodeId candidate deployments leases updated issued =>
    refine ⟨still.versions,still.credentials,(Table.evolves_update updated).mono ?_ fun _ => False.elim,
      List.subset_append_left _ _⟩
    rintro row next _ rfl
    split <;> rfl
  | built deploymentId status deployments updated =>
    refine ⟨still.versions,still.credentials,(Table.evolves_update updated).mono ?_ fun _ => False.elim,
      still.claims⟩
    rintro row next _ rfl
    split <;> rfl
  | _ => exact ⟨still.versions,still.credentials,still.deployments,still.claims⟩

theorem Stored.later {version : SourceCredentialVersion} (stored : Stored s.versions version) (follows : Follows s s') :
    Stored s'.versions version := by
  obtain ⟨_,found⟩ := stored
  obtain ⟨_,reached,revokedAt,rfl,_⟩ := follows.versions.kept _ _ found
  exact ⟨revokedAt,reached⟩

theorem Past.later {began : Revoked} (past : Past s began) (follows : Follows s s') : Past s' began := by
  refine ⟨fun id member => ?_,fun id member => ?_⟩
  · obtain ⟨row,found,revoked⟩ := past.versions id member
    obtain ⟨_,reached,_,rfl,marks⟩ := follows.versions.kept id row found
    exact ⟨_,reached,marks revoked⟩
  · obtain ⟨row,found,revoked⟩ := past.credentials id member
    obtain ⟨next,reached,marks⟩ := follows.credentials.kept id row found
    exact ⟨next,reached,marks revoked⟩

theorem past_revoked (s : Shared) : Past s s.revoked := by
  refine ⟨fun id member => ?_,fun id member => ?_⟩
  · obtain ⟨row,inside,rfl⟩ := List.mem_map.mp member
    obtain ⟨inside,revoked⟩ := List.mem_filter.mp inside
    exact ⟨row,Table.find_of_mem inside,revoked⟩
  · obtain ⟨row,inside,rfl⟩ := List.mem_map.mp member
    obtain ⟨inside,revoked⟩ := List.mem_filter.mp inside
    exact ⟨row,Table.find_of_mem inside,revoked⟩

theorem Past.version {began : Revoked} (past : Past s began) {id : Uuid} {version : SourceCredentialVersion}
    (found : s.versions.find id = some version) (active : version.revokedAt = none) : version.id ∉ began.versions := by
  intro member
  obtain ⟨row,there,revoked⟩ := past.versions version.id member
  rw [Table.find_key found,found] at there
  cases there
  rw [active] at revoked
  cases revoked

theorem Past.credential {began : Revoked} (past : Past s began) {id : Uuid} {credential : SourceCredential}
    (found : s.credentials.find id = some credential) (active : credential.revokedAt = none) :
    credential.id ∉ began.credentials := by
  intro member
  obtain ⟨row,there,revoked⟩ := past.credentials credential.id member
  rw [Table.find_key found,found] at there
  cases there
  rw [active] at revoked
  cases revoked

theorem Checked.later {redeeming : Redeeming} {lease : SourceCredentialLease} {version : SourceCredentialVersion} {now : Timestamp}
    (checked : Checked s redeeming lease version now) (follows : Follows s s') : Checked s' redeeming lease version now :=
  ⟨checked.open',checked.claimed,checked.stored.later follows,checked.unrevoked⟩

theorem Known.later (known : Known library s handler) (follows : Follows s s') : Known library s' handler := by
  cases handler with
  | lockLease | readVersion => exact Past.later known follows
  | readCredential => exact ⟨known.1.later follows,known.2.later follows⟩
  | consume => exact ⟨known.1.later follows,known.2⟩
  | claim nodeId candidate =>
    obtain ⟨row,found,same⟩ := known
    obtain ⟨next,reached,kept⟩ := follows.deployments.kept _ row found
    exact ⟨next,reached,kept.trans same⟩
  | _ => trivial

theorem Redemption.Rightful.later {redemption : Redemption} (rightful : redemption.Rightful library s) (follows : Follows s s') :
    redemption.Rightful library s' := by
  obtain ⟨claim,member,issued⟩ := rightful.issued
  exact ⟨⟨claim,follows.claims member,issued⟩,rightful.stored.later follows,rightful.credential,rightful.secret,
    rightful.version,rightful.unrevoked⟩

end Follows

section Step
variable {library : Library} {input : Input} {s s' : Shared} {handler other : Handler} {rest : Option Handler}

theorem acts_lease (acts : Acts library input s handler s' rest) (apart : Apart Handler.guards Shared.locks s handler other)
    {id : Uuid} (mine : Lock.lease id ∈ other.guards) {row : SourceCredentialLease} (found : s.leases.find id = some row) :
    s'.leases.find id = some row := by
  cases acts with
  | consumed redeeming lease version credential secret now leases written redemptions given =>
    have different : id ≠ lease.id := by
      rintro rfl
      exact Multiset.disjoint_left.mp apart.2 (Multiset.mem_singleton_self _) mine
    rw [Table.find_update written,if_neg different]
    exact found
  | claimed nodeId candidate deployments leases updated issued =>
    unfold issueLease at issued
    split at issued
    · rw [Table.find_insert issued,if_neg]
      · exact found
      · rintro rfl
        rw [Table.find_before_insert issued] at found
        cases found
    · cases issued
      exact found
  | _ => exact found

theorem Relies.apart (acts : Acts library input s handler s' rest) (apart : Apart Handler.guards Shared.locks s handler other)
    (relied : Relies library s other) : Relies library s' other := by
  obtain ⟨known,held⟩ := relied
  refine ⟨known.later (acts_follows acts),fun pair holds => ?_⟩
  obtain ⟨found,token⟩ := held pair holds
  exact ⟨acts_lease acts apart (Handler.held_guard holds) found,token⟩

theorem relies_next (acts : Acts library input s handler s' rest) (relies : Relies library s handler) :
    ∀ next, rest = some next → Relies library s' next := by
  obtain ⟨known,held⟩ := relies
  intro next continues
  cases acts with
  | waits => cases continues; exact ⟨known,held⟩
  | started =>
    cases continues
    exact ⟨past_revoked s,nofun⟩
  | lockedLease redeeming lease found free =>
    cases continues
    refine ⟨⟨known.versions,known.credentials⟩,?_⟩
    rintro _ ⟨⟩
    exact leaseByToken_some found
  | versionRead redeeming lease version open' found =>
    cases continues
    have checked : Checked s redeeming lease version input.now :=
      ⟨open',Table.find_key found,⟨version.revokedAt,Table.find_of_mem (Table.find_mem found)⟩,known.version found⟩
    exact ⟨⟨known,checked⟩,held⟩
  | credentialRead redeeming lease version now credential secret found payload =>
    cases continues
    have active := (redeemedPayload_active payload).1
    exact ⟨⟨known.2,Table.find_key found,payload,known.1.credential found active⟩,held⟩
  | candidate nodeId candidate deploymentId found =>
    cases continues
    exact ⟨⟨candidate,Table.find_of_mem (Table.find_mem found),rfl⟩,nofun⟩
  | owned | lockedCredential | encrypted | toRevoke | listed =>
    cases continues
    exact ⟨trivial,nofun⟩
  | _ => cases continues

theorem sound_consumed (sound : Sound library s) {redeeming : Redeeming} {lease : SourceCredentialLease}
    {version : SourceCredentialVersion} {credential : SourceCredential} {secret : StoredCredentialPayload} {now : Timestamp}
    (relies : Relies library s (.consume redeeming lease version credential secret now)) {leases : Leases}
    (written : s.leases.update lease.id (fun row => { row with consumedAt := some now }) (fun _ => rfl) = some leases)
    {redemptions : List Redemption} (given : redemptions = [] ∨ redemptions =
      [⟨lease.id,redeeming.token,redeeming.nodeId,redeeming.deploymentId,credential,version,secret,now,redeeming.began⟩]) :
    Sound library { s.leave (.consume redeeming lease version credential secret now) with
      leases, redeemed := s.redeemed ++ redemptions } := by
  obtain ⟨⟨checked,belongs,payload,unrevoked⟩,held⟩ := relies
  obtain ⟨found,token⟩ := held (redeeming.token,lease) rfl
  have open' := checked.open'
  simp only [leaseCanBeRedeemed,decide_eq_true_eq] at open'
  obtain ⟨node,deployment,fresh,inTime⟩ := open'
  have new : ∀ redemption ∈ s.redeemed, redemption.lease ≠ lease.id := by
    intro redemption member same
    obtain ⟨row,there,spent⟩ := sound.spent redemption member
    rw [same,found] at there
    cases there
    rw [fresh] at spent
    cases spent
  have consumed : leases.find lease.id = some { lease with consumedAt := some now } := by
    rw [Table.find_update written,if_pos rfl,found]
    rfl
  refine ⟨⟨sound.claims,?_,?_⟩,?_,sound.drawn,?_⟩
  · rw [List.map_append]
    refine List.nodup_append.mpr ⟨sound.once,?_,?_⟩
    · rcases given with rfl | rfl <;> simp
    · intro one old two added
      obtain ⟨redemption,member,rfl⟩ := List.mem_map.mp old
      rcases given with rfl | rfl
      · cases added
      · rw [List.mem_singleton.mp added]
        exact new redemption member
  · intro redemption member
    rcases List.mem_append.mp member with old | added
    · exact ⟨(sound.rightful redemption old).issued,(sound.rightful redemption old).stored,
        (sound.rightful redemption old).credential,(sound.rightful redemption old).secret,
        (sound.rightful redemption old).version,(sound.rightful redemption old).unrevoked⟩
    · rcases given with rfl | rfl
      · cases added
      · cases List.mem_singleton.mp added
        refine ⟨⟨lease.toClaim,sound.leased lease (Table.find_mem found),rfl,token,node,deployment,checked.claimed.symm,inTime⟩,
          checked.stored,belongs,payload,checked.unrevoked (redeemedPayload_active payload).2,unrevoked⟩
  · intro row inside
    have member := inside
    rw [Table.rows_update written] at member
    obtain ⟨old,there,rfl⟩ := List.mem_map.mp member
    have kept := sound.leased old there
    split
    · exact kept
    · exact kept
  · intro redemption member
    rcases List.mem_append.mp member with old | added
    · obtain ⟨row,there,spent⟩ := sound.spent redemption old
      refine ⟨row,?_,spent⟩
      rw [Table.find_update written,if_neg (new redemption old)]
      exact there
    · rcases given with rfl | rfl
      · cases added
      · cases List.mem_singleton.mp added
        exact ⟨_,consumed,rfl⟩

theorem sound_claimed (sound : Sound library s) {nodeId : Uuid} {candidate : Deployment}
    (relies : Relies library s (.claim nodeId candidate)) {deployments : Deployments} {leases : Leases} {now : Timestamp}
    (follows : Follows s { s with
      deployments, leases, drawn := s.drawn + 1, claims := s.claims ++ claimed s nodeId candidate.id now })
    (issued : issueLease s nodeId candidate now = some leases) :
    Sound library { s with
      deployments, leases, drawn := s.drawn + 1, claims := s.claims ++ claimed s nodeId candidate.id now } := by
  obtain ⟨row,found,same⟩ := relies.1
  have claims : claimed s nodeId candidate.id now = (candidate.sourceCredentialVersionId.map fun versionId =>
      (⟨s.drawn,s.drawn,nodeId,candidate.id,versionId,now + leaseTtl⟩ : Claim)).toList := by
    simp [claimed,found,same]
  have fresh : ∀ claim ∈ claimed s nodeId candidate.id now, claim.lease = s.drawn := by
    intro claim member
    rw [claims] at member
    obtain ⟨_,_,rfl⟩ := Option.map_eq_some_iff.mp (Option.mem_toList.mp member)
    rfl
  have single : ((claimed s nodeId candidate.id now).map Claim.lease).Nodup := by
    rw [claims]
    cases candidate.sourceCredentialVersionId <;> simp
  refine ⟨⟨?_,sound.once,fun redemption member => (sound.rightful redemption member).later follows⟩,?_,?_,?_⟩
  · rw [List.map_append]
    refine List.nodup_append.mpr ⟨sound.claims,single,?_⟩
    intro one old two added
    obtain ⟨before,earlier,rfl⟩ := List.mem_map.mp old
    obtain ⟨after,later,rfl⟩ := List.mem_map.mp added
    rw [fresh after later]
    exact (sound.drawn before earlier).ne
  · intro lease inside
    unfold issueLease at issued
    split at issued
    · rename_i versionId has
      have member := inside
      rw [Table.rows_insert issued] at member
      rcases List.mem_append.mp member with old | added
      · exact List.mem_append_left _ (sound.leased lease old)
      · rw [List.mem_singleton.mp added,claims,has]
        exact List.mem_append_right _ (List.mem_singleton_self _)
    · cases issued
      exact List.mem_append_left _ (sound.leased lease inside)
  · intro claim member
    rcases List.mem_append.mp member with old | added
    · exact (sound.drawn claim old).trans (Nat.lt_succ_self _)
    · rw [fresh claim added]
      exact Nat.lt_succ_self _
  · intro redemption member
    obtain ⟨lease,there,spent⟩ := sound.spent redemption member
    unfold issueLease at issued
    split at issued
    · obtain ⟨next,reached,rfl⟩ := (Table.evolves_insert issued).kept _ lease there
      exact ⟨next,reached,spent⟩
    · cases issued
      exact ⟨lease,there,spent⟩

theorem acts_sound (acts : Acts library input s handler s' rest) (sound : Sound library s) (relies : Relies library s handler) :
    Sound library s' := by
  have follows := acts_follows acts
  have rightful : ∀ redemption ∈ s.redeemed, redemption.Rightful library s' :=
    fun redemption member => (sound.rightful redemption member).later follows
  cases acts with
  | consumed redeeming lease version credential secret now leases written redemptions given =>
    exact sound_consumed sound relies written given
  | claimed nodeId candidate deployments leases updated issued => exact sound_claimed sound relies follows issued
  | rotated =>
    exact ⟨⟨sound.claims,sound.once,rightful⟩,sound.leased,
      fun claim member => (sound.drawn claim member).trans (Nat.lt_succ_self _),sound.spent⟩
  | _ => exact ⟨⟨sound.claims,sound.once,rightful⟩,sound.leased,sound.drawn,sound.spent⟩

theorem act_locking (held : handler.guards ≤ s.locks) (acts : Acts library input s handler s' rest) :
    Locking s.locks handler.guards s'.locks (Interleaving.rest Handler.guards rest) := by
  cases acts with
  | lockedLease redeeming lease found free => exact .take _ free
  | lockedCredential teamId credentialId secret credential free => exact .take _ free
  | ends | consumed | rotated => exact .leave _ (Multiset.sub_add_cancel held)
  | _ => exact .keep

end Step

/-- What every step keeps: what is sound, what each handler relies on, and the locks. -/
def Kept (library : Library) (config : Config Shared Handler) : Prop :=
  Holds (Sound library) (Relies library) config ∧ Guarded Handler.guards Shared.locks config

theorem Kept.step {library : Library} {config : Config Shared Handler} (kept : Kept library config)
    (event : Event Request Input) : Kept library ((machine library).step config event) := by
  obtain ⟨holds,guarded⟩ := kept
  refine ⟨?_,?_⟩
  · refine Holds.step_apart ?_ ?_ ?_ config event holds (guarded.acting_apart event (acting_true config event))
    · intro s request _
      cases request <;> exact ⟨trivial,nofun⟩
    · intro input s handler _ sound relies
      have acts := act_acts library input s handler
      exact ⟨acts_sound acts sound relies,relies_next acts relies⟩
    · exact fun input s handler other _ apart _ _ relied => Relies.apart (act_acts library input s handler) apart relied
  · refine guarded.step_locking ?_ ?_ event
    · intro request
      cases request <;> rfl
    · exact fun input s handler held => act_locking held (act_acts library input s handler)

/-- In every run a lease gives its secret to one redemption at most, of the node and the deployment it was issued
for, in time, of the version that was claimed, and not to one that began after a revocation. -/
theorem leases_redeemed_once (library : Library) (credentials : Credentials) (versions : Versions) (deployments : Deployments)
    (drawn : Nat) (events : List (Event Request Input)) :
    Throughout (machine library).step (fun config => RedeemedOnce library config.shared)
      (idle credentials versions deployments drawn) events := by
  have start : Kept library (idle credentials versions deployments drawn) := by
    refine ⟨⟨⟨⟨List.nodup_nil,List.nodup_nil,?_⟩,?_,?_,?_⟩,?_⟩,rfl,Multiset.nodup_zero⟩ <;>
    · intro _ member
      cases member
  have kept : ∀ config event, Kept library config → True → Kept library ((machine library).step config event) :=
    fun config event kept _ => kept.step event
  exact throughout_of_invariant kept (fun config kept => kept.1.state.toRedeemedOnce) _ events start (along_true _ events)

def plain : Library where
  key _ := some []
  activeKey := some ([],[])
  encryptSecret _ _ _ _ := some ⟨[],[]⟩
  decryptSecret _ _ _ := some (.https ['u'] ['s'])

def actions (count : Nat) : List (Event Request Input) := List.replicate count (.resume 0 { now := 1000000 })

/-- A deployment is claimed, and its node redeems the lease twice. -/
example : (run (machine plain).step (idle ⟨[⟨1,1,.https,[],443,none,some 2,none⟩],by decide,by decide⟩
    ⟨[⟨2,1,1,[],some ⟨[],[]⟩,none⟩],by decide,by decide⟩ ⟨[⟨3,.pending,none,none,some 2⟩],by decide,by decide⟩ 10)
      (.arrive (.claim 7 3) :: actions 2 ++ .arrive (.redeem 7 3 10) :: actions 6 ++ .arrive (.redeem 7 3 10) :: actions 6)
    ).shared.redeemed.map Redemption.secret = [.https ['u'] ['s']] := by
  decide

end GrassWorker.SourceCredentials
