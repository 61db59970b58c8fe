import GrassWorker.ControlPlane.Registrations
import GrassWorker.Foundations.Runs

/-! A code or an allowed email admits one user. Its row stays locked from the check until the commit that spends it,
and what revokes it or takes it off the list has to lock it too. -/
namespace GrassWorker.Registrations
open Authentication Codes Interleaving Runs Teams
open Logins (Users)

/-- A registration was committed with its user, and rests on what could still be used when it was authorised. -/
structure Admission.Rightful (s : Shared) (admission : Admission) : Prop where
  committed : (s.users.find admission.userId).isSome
  invited : admission.authorization.policy = .inviteOnly → admission.credential ≠ none
  code : ∀ code, admission.authorization.grant = .code code → ∃ row, s.codes.find code.id = some row ∧ row.usedAt.isSome ∧
    row.usedByUserId = some admission.userId ∧ code.id ∉ admission.authorization.began.codes ∧
      ∀ expiresAt ∈ row.expiresAt, admission.authorization.checkedAt < expiresAt
  email : ∀ entry, admission.authorization.grant = .email entry →
    entry.id ∈ s.allowed ∧ entry.id ∉ s.removed ∧ entry.id ∉ admission.authorization.began.entries

structure Spent (s : Shared) : Prop where
  once : s.consumed.Nodup
  users : (s.admissions.map Admission.userId).Nodup
  rightful : ∀ admission ∈ s.admissions, admission.Rightful s
  apart : ∀ code ∈ s.codes.rows, ¬(code.usedAt.isSome ∧ code.revokedAt.isSome)
  used : ∀ code ∈ s.codes.rows, code.usedAt.isSome → .code code.id ∈ s.consumed
  allowed : ∀ id ∈ s.allowed, (s.allowlist.find id).isSome ∨ id ∈ s.removed ∨ .email id ∈ s.consumed
  unspent : ∀ entry ∈ s.allowlist.rows, entry.id ∉ s.removed ∧ .email entry.id ∉ s.consumed

/-- Every credential admits one user, and the listings show the codes as they are classified, each in one of them. -/
structure AdmitsOnce (s : Shared) : Prop extends Spent s where
  partition : ∀ scope now, (CodeStatus.all.flatMap fun status => queryCodes scope (some status) now s.codes.rows).Perm
    (queryCodes scope none now s.codes.rows)
  classified : ∀ scope now status code, code ∈ queryCodes scope (some status) now s.codes.rows ↔
    code ∈ queryCodes scope none now s.codes.rows ∧ code.status now = status

structure Sound (s : Shared) : Prop extends Spent s where
  listed : ∀ entry ∈ s.allowlist.rows, entry.id ∈ s.allowed
  drawn : ∀ id ∈ s.allowed, id < s.drawn
  removed : ∀ id ∈ s.removed, id ∈ s.allowed
  emails : ∀ id, .email id ∈ s.consumed → id ∈ s.allowed

theorem Sound.admitsOnce {s : Shared} (sound : Sound s) : AdmitsOnce s :=
  ⟨sound.toSpent,fun scope now => queryCodes_partition scope now sound.apart,
    fun scope now _ _ => mem_listing scope now sound.apart⟩

def Held (s : Shared) (began : Withdrawn) (checkedAt : Timestamp) : RegistrationGrant → Prop
  | .open => True
  | .code row => s.codes.find row.id = some row ∧ row.status checkedAt = .available ∧ row.id ∉ began.codes
  | .email entry => s.allowlist.find entry.id = some entry ∧ entry.id ∉ began.entries

structure Authorized (s : Shared) (authorization : Authorization) : Prop where
  invited : authorization.policy = .inviteOnly → authorization.grant.credential ≠ none
  held : Held s authorization.began authorization.checkedAt authorization.grant

def Relies (s : Shared) : Handler → Prop
  | .checkCode _ code began => s.codes.find code.id = some code ∧ (code.revokedAt = none → code.id ∉ began.codes)
  | .checkRevoked code => s.codes.find code.id = some code
  | .writeRevoked code => s.codes.find code.id = some code ∧ code.usedAt = none
  | .findEmail _ authorization | .createUser _ authorization | .consume _ authorization _ | .commit _ authorization _ _ =>
    Authorized s authorization
  | _ => True

theorem Plain.relies {handler : Handler} (plain : Plain handler) (s : Shared) : Relies s handler := by
  cases plain <;> trivial

theorem Carries.relies {handler : Handler} {authorization : Authorization} (carries : Carries handler authorization)
    (s : Shared) : Relies s handler ↔ Authorized s authorization := by
  cases carries <;> rfl

def Handler.spends : Handler → Option Credential
  | .commit _ authorization _ _ => authorization.grant.credential
  | .writeRevoked code => some (.code code.id)
  | _ => none

theorem Handler.guards_code {handler : Handler} {id : Uuid} (spends : handler.spends = some (.code id)) :
    Lock.code id ∈ handler.guards := by
  cases handler with
  | commit registering authorization user usedAt =>
    obtain ⟨grant,policy,began,checkedAt⟩ := authorization
    cases grant with
    | code row =>
      cases spends
      exact Multiset.mem_singleton_self _
    | «open» | email => cases spends
  | writeRevoked code =>
    cases spends
    exact Multiset.mem_singleton_self _
  | _ => cases spends

theorem Handler.guards_entry {handler : Handler} {id : Uuid} (spends : handler.spends = some (.email id)) :
    Lock.entry id ∈ handler.guards := by
  cases handler with
  | commit registering authorization user usedAt =>
    obtain ⟨grant,policy,began,checkedAt⟩ := authorization
    cases grant with
    | email entry =>
      cases spends
      exact Multiset.mem_singleton_self _
    | «open» | code => cases spends
  | _ => cases spends

section Effects
variable {input : Input} {s s' : Shared} {handler other : Handler} {rest : Option Handler}

theorem acts_code (acts : Acts input s handler s' rest) {id : Uuid} (kept : handler.spends ≠ some (.code id)) {row : Code}
    (found : s.codes.find id = some row) : s'.codes.find id = some row := by
  cases acts with
  | committed registering authorization user usedAt users identities written inserted consumed =>
    obtain ⟨grant,policy,began,checkedAt⟩ := authorization
    cases grant with
    | «open» =>
      cases consumed
      exact found
    | code code =>
      obtain ⟨held,there,consumed⟩ := Option.bind_eq_some_iff.mp consumed
      obtain ⟨codes,updated,consumed⟩ := Option.bind_eq_some_iff.mp consumed
      cases consumed
      have different : id ≠ held.id := by
        rintro rfl
        rw [Table.find_key there] at kept
        exact kept rfl
      change codes.find id = some row
      rw [Table.find_update updated,if_neg different]
      exact found
    | email entry =>
      cases consumed
      exact found
  | generated request userId codes fresh count rows unused =>
    have member : row ∈ codes.rows := by
      rw [rows]
      exact List.mem_append_left _ (Table.find_mem found)
    exact (codes.find_eq_some_iff id row).mpr ⟨member,Table.find_key found⟩
  | revoked code codes updated =>
    have different : id ≠ code.id := by
      rintro rfl
      exact kept rfl
    change codes.find id = some row
    rw [Table.find_update updated,if_neg different]
    exact found
  | _ => exact found

theorem acts_entry (acts : Acts input s handler s' rest) {id : Uuid} (kept : handler.spends ≠ some (.email id))
    (locked : .entry id ∈ s.locks) {row : AllowlistEntry} (found : s.allowlist.find id = some row) :
    s'.allowlist.find id = some row := by
  have stays : ∀ entry : AllowlistEntry, entry.id ≠ id →
      (s.allowlist.deleteWhere fun row => row.id = entry.id).find id = some row := by
    intro entry different
    refine (Table.find_deleteWhere _ _).mpr ⟨found,?_⟩
    rw [Table.find_key found]
    exact different.symm
  cases acts with
  | committed registering authorization user usedAt users identities written inserted consumed =>
    obtain ⟨grant,policy,began,checkedAt⟩ := authorization
    cases grant with
    | «open» =>
      cases consumed
      exact found
    | code code =>
      obtain ⟨held,there,consumed⟩ := Option.bind_eq_some_iff.mp consumed
      obtain ⟨codes,updated,consumed⟩ := Option.bind_eq_some_iff.mp consumed
      cases consumed
      exact found
    | email entry =>
      cases consumed
      refine stays entry ?_
      rintro rfl
      exact kept rfl
  | added raw userId entry allowlist fresh inserted =>
    obtain ⟨next,reached,rfl⟩ := (Table.evolves_insert inserted).kept id row found
    exact reached
  | removed entry free =>
    refine stays entry ?_
    rintro rfl
    exact free locked
  | _ => exact found

theorem Relies.apart (acts : Acts input s handler s' rest) (apart : Apart Handler.guards Shared.locks s handler other)
    (relied : Relies s other) : Relies s' other := by
  have codes : ∀ id row, .code id ∈ other.guards → s.codes.find id = some row → s'.codes.find id = some row := by
    intro id row mine found
    refine acts_code acts (fun held => ?_) found
    exact Multiset.disjoint_left.mp apart.2 (Handler.guards_code held) mine
  have carried : ∀ authorization, Carries other authorization → Authorized s authorization → Authorized s' authorization := by
    intro authorization carries authorized
    have guards := carries.guards
    obtain ⟨invited,held⟩ := authorized
    refine ⟨invited,?_⟩
    cases grant : authorization.grant with
    | «open» => trivial
    | code code =>
      rw [grant] at held guards
      obtain ⟨found,rest⟩ := held
      refine ⟨codes code.id code ?_ found,rest⟩
      rw [guards]
      exact Multiset.mem_singleton_self _
    | email entry =>
      rw [grant] at held guards
      obtain ⟨found,before⟩ := held
      have mine : Lock.entry entry.id ∈ other.guards := by
        rw [guards]
        exact Multiset.mem_singleton_self _
      refine ⟨acts_entry acts (fun held => ?_) (Multiset.mem_of_le apart.1 mine) found,before⟩
      exact Multiset.disjoint_left.mp apart.2 (Handler.guards_entry held) mine
  cases other with
  | checkCode registering code began => exact ⟨codes code.id code (Multiset.mem_singleton_self _) relied.1,relied.2⟩
  | checkRevoked code => exact codes code.id code (Multiset.mem_singleton_self _) relied
  | writeRevoked code => exact ⟨codes code.id code (Multiset.mem_singleton_self _) relied.1,relied.2⟩
  | findEmail registering authorization => exact carried authorization (.findEmail registering authorization) relied
  | createUser registering authorization => exact carried authorization (.createUser registering authorization) relied
  | consume registering authorization user => exact carried authorization (.consume registering authorization user) relied
  | commit registering authorization user usedAt =>
    exact carried authorization (.commit registering authorization user usedAt) relied
  | _ => trivial

theorem not_mem_withdrawn {code : Code} (found : s.codes.find code.id = some code) (kept : code.revokedAt = none) :
    code.id ∉ s.withdrawn.codes := by
  intro member
  obtain ⟨row,inside,same⟩ := List.mem_map.mp member
  obtain ⟨there,revoked⟩ := List.mem_filter.mp inside
  rw [s.codes.same_of_key there (Table.find_mem found) same,kept] at revoked
  cases revoked

theorem relies_next (acts : Acts input s handler s' rest) (sound : Sound s) (relies : Relies s handler) :
    ∀ next, rest = some next → Relies s' next := by
  rintro next rfl
  cases acts with
  | waits => exact relies
  | plain _ _ free plain => exact plain.relies s
  | opened registering _ carries =>
    rw [carries.relies]
    exact ⟨nofun,trivial⟩
  | lockedCode registering code free found => exact ⟨found,not_mem_withdrawn found⟩
  | lockedEntry registering entry _ free found carries =>
    rw [carries.relies]
    exact ⟨fun _ => Option.some_ne_none _,found,(sound.unspent entry (Table.find_mem found)).1⟩
  | checked registering code began _ open' carries =>
    obtain ⟨found,before⟩ := relies
    rw [carries.relies]
    exact ⟨fun _ => Option.some_ne_none _,found,open',before (status_available open').2.1⟩
  | carried carries goes drawn later =>
    rw [carries.relies] at relies
    rw [goes.relies]
    exact ⟨relies.invited,relies.held⟩
  | lockedRevoked codeId code free found => exact found
  | toRevoke code unused => exact ⟨relies,unused⟩

theorem act_locking (held : handler.guards ≤ s.locks) (acts : Acts input s handler s' rest) :
    Locking s.locks handler.guards s'.locks (Interleaving.rest Handler.guards rest) := by
  cases acts with
  | plain _ next free plain =>
    have none' : next.guards = 0 := by
      cases plain <;> rfl
    rw [rest_some,none',free]
    exact .keep
  | opened registering next carries =>
    rw [rest_some,carries.guards]
    exact .keep
  | lockedCode registering code free found => exact .take _ free
  | lockedEntry registering entry next free found carries =>
    rw [rest_some,carries.guards]
    exact .take _ free
  | checked registering code began next open' carries =>
    rw [rest_some,carries.guards]
    exact .keep
  | carried carries goes drawn later =>
    rw [rest_some,goes.guards,carries.guards]
    exact .keep
  | lockedRevoked codeId code free found => exact .take _ free
  | ends | committed | revoked => exact .leave _ (Multiset.sub_add_cancel held)
  | _ => exact .keep

end Effects

section Sound
variable {input : Input} {s s' : Shared} {handler : Handler} {rest : Option Handler}

structure Follows (s s' : Shared) : Prop where
  users : ∀ id, (s.users.find id).isSome → (s'.users.find id).isSome
  codes : ∀ id row, s.codes.find id = some row → row.usedAt.isSome → s'.codes.find id = some row
  allowed : s.allowed ⊆ s'.allowed
  removed : ∀ id ∈ s'.removed, id ∈ s.removed ∨ .email id ∉ s.consumed

theorem mem_consumed {admission : Admission} {credential : Credential} (member : admission ∈ s.admissions)
    (spends : admission.credential = some credential) : credential ∈ s.consumed :=
  List.mem_filterMap.mpr ⟨admission,member,spends⟩

theorem Admission.Rightful.later {admission : Admission} (rightful : admission.Rightful s) (member : admission ∈ s.admissions)
    (follows : Follows s s') : admission.Rightful s' := by
  refine ⟨follows.users _ rightful.committed,rightful.invited,fun code grant => ?_,fun entry grant => ?_⟩
  · obtain ⟨row,found,used,facts⟩ := rightful.code code grant
    exact ⟨row,follows.codes _ row found used,used,facts⟩
  · obtain ⟨allowed,kept,before⟩ := rightful.email entry grant
    refine ⟨follows.allowed allowed,fun gone => ?_,before⟩
    have spends : admission.credential = some (.email entry.id) := by
      rw [Admission.credential,grant]
      rfl
    rcases follows.removed _ gone with earlier | unspent
    · exact kept earlier
    · exact unspent (mem_consumed member spends)

theorem Relies.unused (relies : Relies s handler) {id : Uuid} (spends : handler.spends = some (.code id)) :
    ∃ row, s.codes.find id = some row ∧ row.usedAt = none := by
  cases handler with
  | commit registering authorization user usedAt =>
    obtain ⟨grant,policy,began,checkedAt⟩ := authorization
    cases grant with
    | code row =>
      cases spends
      exact ⟨row,relies.held.1,(status_available relies.held.2.1).1⟩
    | «open» | email => cases spends
  | writeRevoked code =>
    cases spends
    exact ⟨code,relies⟩
  | _ => cases spends

theorem acts_used (acts : Acts input s handler s' rest) (relies : Relies s handler) {id : Uuid} {row : Code}
    (found : s.codes.find id = some row) (used : row.usedAt.isSome) : s'.codes.find id = some row := by
  refine acts_code acts (fun spends => ?_) found
  obtain ⟨held,there,unused⟩ := relies.unused spends
  rw [found] at there
  cases there
  rw [unused] at used
  cases used

theorem acts_follows (acts : Acts input s handler s' rest) (sound : Sound s) (relies : Relies s handler) : Follows s s' := by
  refine ⟨?_,fun id row => acts_used acts relies,?_,?_⟩
  · intro id there
    cases acts with
    | committed registering authorization user usedAt users identities written inserted consumed =>
      change (users.find id).isSome
      rw [Table.find_insert inserted]
      split
      · rfl
      · exact there
    | linked registering user users identities kept => exact kept id there
    | _ => exact there
  · cases acts with
    | added => exact List.subset_append_left _ _
    | _ => exact List.Subset.refl _
  · intro id gone
    cases acts with
    | removed entry free =>
      rcases List.mem_append.mp gone with old | new
      · exact .inl old
      · split at new
        · rename_i there
          rw [List.mem_singleton.mp new]
          obtain ⟨row,found⟩ := Option.isSome_iff_exists.mp there
          rw [← Table.find_key found]
          exact .inr (sound.unspent row (Table.find_mem found)).2
        · cases new
    | _ => exact .inl gone

/-- What the commit of a registration does to the credentials: it spends that of its grant, which was unspent. -/
structure Spends (s : Shared) (written : CodeRows × Allowlist) (userId : Uuid) (authorization : Authorization) : Prop where
  code : ∀ code, authorization.grant = .code code → ∃ row, written.1.find code.id = some row ∧ row.usedAt.isSome ∧
    row.usedByUserId = some userId ∧ code.id ∉ authorization.began.codes ∧
      ∀ expiresAt ∈ row.expiresAt, authorization.checkedAt < expiresAt
  email : ∀ entry, authorization.grant = .email entry →
    entry.id ∈ s.allowed ∧ entry.id ∉ s.removed ∧ entry.id ∉ authorization.began.entries
  fresh : ∀ credential, authorization.grant.credential = some credential → credential ∉ s.consumed
  rows : ∀ row ∈ written.1.rows, row ∈ s.codes.rows ∨
    (row.revokedAt = none ∧ authorization.grant.credential = some (.code row.id))
  entries : ∀ id, (s.allowlist.find id).isSome → (written.2.find id).isSome ∨ authorization.grant.credential = some (.email id)
  kept : ∀ entry ∈ written.2.rows, entry ∈ s.allowlist.rows ∧ authorization.grant.credential ≠ some (.email entry.id)

theorem credential_email {grant : RegistrationGrant} {id : Uuid} (credential : grant.credential = some (.email id)) :
    ∃ entry, grant = .email entry ∧ entry.id = id := by
  cases grant with
  | email entry =>
    cases credential
    exact ⟨entry,rfl,rfl⟩
  | «open» | code => cases credential

theorem unspent_code (sound : Sound s) {row : Code} (found : s.codes.find row.id = some row) (unused : row.usedAt = none) :
    .code row.id ∉ s.consumed := by
  intro spent
  obtain ⟨admission,member,spends⟩ := List.mem_filterMap.mp spent
  obtain ⟨userId,grant,policy,began,checkedAt⟩ := admission
  cases grant with
  | code code =>
    obtain ⟨other,there,used,_⟩ := (sound.rightful _ member).code code rfl
    simp only [Admission.credential,RegistrationGrant.credential,Option.some.injEq,Credential.code.injEq] at spends
    rw [spends,found] at there
    cases there
    rw [unused] at used
    cases used
  | «open» | email => cases spends

theorem consumeGrant_spends (sound : Sound s) {authorization : Authorization} (authorized : Authorized s authorization)
    {userId : Uuid} {usedAt : Timestamp} {written : CodeRows × Allowlist}
    (consumed : consumeGrant s authorization.grant userId usedAt = some written) : Spends s written userId authorization := by
  obtain ⟨grant,policy,began,checkedAt⟩ := authorization
  obtain ⟨invited,held⟩ := authorized
  cases grant with
  | «open» =>
    cases consumed
    exact ⟨nofun,nofun,nofun,fun row member => .inl member,fun id there => .inl there,fun entry member => ⟨member,nofun⟩⟩
  | code code =>
    obtain ⟨found,open',before⟩ := held
    obtain ⟨unused,kept,inTime⟩ := status_available open'
    obtain ⟨row,there,consumed⟩ := Option.bind_eq_some_iff.mp consumed
    obtain ⟨codes,updated,consumed⟩ := Option.bind_eq_some_iff.mp consumed
    cases consumed
    rw [found] at there
    cases there
    have marked : codes.find code.id = some { code with usedAt := some usedAt, usedByUserId := some userId } := by
      rw [Table.find_update updated,if_pos rfl,found]
      rfl
    refine ⟨?_,nofun,?_,fun row member => ?_,fun id there => .inl there,fun entry member => ⟨member,nofun⟩⟩
    · rintro _ ⟨⟩
      exact ⟨_,marked,rfl,rfl,before,inTime⟩
    · rintro _ ⟨⟩
      exact unspent_code sound found unused
    · rw [Table.rows_update updated] at member
      obtain ⟨old,inside,rfl⟩ := List.mem_map.mp member
      split
      · rename_i same
        rw [s.codes.same_of_key inside (Table.find_mem found) same]
        exact .inr ⟨kept,rfl⟩
      · exact .inl inside
  | email entry =>
    obtain ⟨found,before⟩ := held
    cases consumed
    have unspent := sound.unspent entry (Table.find_mem found)
    refine ⟨nofun,?_,?_,fun row member => .inl member,fun id there => ?_,fun row member => ?_⟩
    · rintro _ ⟨⟩
      exact ⟨sound.listed entry (Table.find_mem found),unspent.1,before⟩
    · rintro _ ⟨⟩
      exact unspent.2
    · obtain ⟨row,there⟩ := Option.isSome_iff_exists.mp there
      by_cases same : row.id = entry.id
      · rw [← Table.find_key there,same]
        exact .inr rfl
      · exact .inl (Option.isSome_iff_exists.mpr ⟨row,(Table.find_deleteWhere _ _).mpr ⟨there,same⟩⟩)
    · obtain ⟨inside,different⟩ := List.mem_filter.mp member
      refine ⟨inside,fun same => ?_⟩
      simp only [RegistrationGrant.credential,Option.some.injEq,Credential.email.injEq] at same
      simp [same] at different

theorem sound_committed (sound : Sound s) {authorization : Authorization} (authorized : Authorized s authorization)
    {user : User} {users : Users} (inserted : s.users.insert user = some users) {written : CodeRows × Allowlist}
    (spends : Spends s written user.id authorization)
    (states : s'.users = users ∧ s'.codes = written.1 ∧ s'.allowlist = written.2 ∧
      s'.admissions = s.admissions ++ [⟨user.id,authorization⟩] ∧ s'.allowed = s.allowed ∧ s'.removed = s.removed ∧
        s'.drawn = s.drawn)
    (follows : Follows s s') : Sound s' := by
  obtain ⟨usersAfter,codes,allowlist,admissions,allowed,removed,drawn⟩ := states
  have consumed : s'.consumed = s.consumed ++ authorization.grant.credential.toList := by
    unfold Shared.consumed
    rw [admissions,List.filterMap_append]
    cases credential : authorization.grant.credential <;> simp [Admission.credential,credential]
  have spent : ∀ credential, credential ∈ s.consumed ∨ authorization.grant.credential = some credential →
      credential ∈ s'.consumed := by
    rintro credential (old | new)
    · rw [consumed]
      exact List.mem_append_left _ old
    · rw [consumed,new]
      exact List.mem_append_right _ (List.mem_singleton_self _)
  refine ⟨⟨?_,?_,?_,?_,?_,?_,?_⟩,?_,?_,?_,?_⟩
  · rw [consumed]
    cases credential : authorization.grant.credential with
    | none => simpa using sound.once
    | some credential' =>
      refine List.nodup_append.mpr ⟨sound.once,List.nodup_singleton _,?_⟩
      rintro old member new added rfl
      rw [List.mem_singleton.mp added] at member
      exact spends.fresh _ credential member
  · rw [admissions,List.map_append]
    refine List.nodup_append.mpr ⟨sound.users,List.nodup_singleton _,?_⟩
    rintro old member new added rfl
    obtain ⟨admission,inside,same⟩ := List.mem_map.mp member
    have there := (sound.rightful admission inside).committed
    rw [same,List.mem_singleton.mp added,Table.find_before_insert inserted] at there
    cases there
  · intro admission member
    rw [admissions] at member
    rcases List.mem_append.mp member with old | added
    · exact (sound.rightful admission old).later old follows
    · rw [List.mem_singleton.mp added]
      refine ⟨?_,authorized.invited,?_,?_⟩
      · rw [usersAfter,Table.find_insert inserted,if_pos rfl]
        rfl
      · rw [codes]
        exact spends.code
      · rw [allowed,removed]
        exact spends.email
  · intro row member
    rw [codes] at member
    rcases spends.rows row member with old | ⟨kept,_⟩
    · exact sound.apart row old
    · rw [kept]
      exact fun both => nomatch both.2
  · intro row member used
    rw [codes] at member
    rcases spends.rows row member with old | ⟨_,new⟩
    · exact spent _ (.inl (sound.used row old used))
    · exact spent _ (.inr new)
  · intro id listed
    rw [allowed] at listed
    rw [allowlist,removed]
    rcases sound.allowed id listed with there | gone | old
    · rcases spends.entries id there with still | new
      · exact .inl still
      · exact .inr (.inr (spent _ (.inr new)))
    · exact .inr (.inl gone)
    · exact .inr (.inr (spent _ (.inl old)))
  · intro entry member
    rw [allowlist] at member
    rw [removed,consumed]
    obtain ⟨inside,different⟩ := spends.kept entry member
    refine ⟨(sound.unspent entry inside).1,fun spent => ?_⟩
    rcases List.mem_append.mp spent with old | new
    · exact (sound.unspent entry inside).2 old
    · exact different (Option.mem_toList.mp new)
  · intro entry member
    rw [allowlist] at member
    rw [allowed]
    exact sound.listed entry (spends.kept entry member).1
  · rw [allowed,drawn]
    exact sound.drawn
  · rw [allowed,removed]
    exact sound.removed
  · intro id spent'
    rw [allowed]
    rw [consumed] at spent'
    rcases List.mem_append.mp spent' with old | new
    · exact sound.emails id old
    · obtain ⟨entry,grant,same⟩ := credential_email (Option.mem_toList.mp new)
      rw [← same]
      exact (spends.email entry grant).1

theorem sound_revoked (sound : Sound s) {code : Code} (unused : code.usedAt = none) (found : s.codes.find code.id = some code)
    {codes : CodeRows} {now : Timestamp}
    (updated : s.codes.update code.id (fun row => { row with revokedAt := some now }) (fun _ => rfl) = some codes)
    {locks : Multiset Lock} (follows : Follows s { s with codes, locks }) : Sound { s with codes, locks } := by
  have rows : ∀ row ∈ codes.rows, row ∈ s.codes.rows ∨ row.usedAt = none := by
    intro row member
    rw [Table.rows_update updated] at member
    obtain ⟨old,inside,rfl⟩ := List.mem_map.mp member
    split
    · rename_i same
      rw [s.codes.same_of_key inside (Table.find_mem found) same]
      exact .inr unused
    · exact .inl inside
  refine ⟨⟨sound.once,sound.users,fun admission member => (sound.rightful admission member).later member follows,?_,?_,
    sound.allowed,sound.unspent⟩,sound.listed,sound.drawn,sound.removed,sound.emails⟩
  · intro row member
    rcases rows row member with old | unused
    · exact sound.apart row old
    · rw [unused]
      exact fun both => nomatch both.1
  · intro row member used
    rcases rows row member with old | unused
    · exact sound.used row old used
    · rw [unused] at used
      cases used

theorem sound_generated (sound : Sound s) {codes : CodeRows} {fresh : List Code} {count : Nat}
    (rows : codes.rows = s.codes.rows ++ fresh) (unused : ∀ code ∈ fresh, code.usedAt = none)
    (follows : Follows s { s with codes, drawn := s.drawn + count }) : Sound { s with codes, drawn := s.drawn + count } := by
  refine ⟨⟨sound.once,sound.users,fun admission member => (sound.rightful admission member).later member follows,?_,?_,
    sound.allowed,sound.unspent⟩,sound.listed,fun id member => (sound.drawn id member).trans_le (Nat.le_add_right _ _),
    sound.removed,sound.emails⟩
  · intro row member
    rw [rows] at member
    rcases List.mem_append.mp member with old | new
    · exact sound.apart row old
    · rw [unused row new]
      exact fun both => nomatch both.1
  · intro row member used
    rw [rows] at member
    rcases List.mem_append.mp member with old | new
    · exact sound.used row old used
    · rw [unused row new] at used
      cases used

theorem sound_added (sound : Sound s) {entry : AllowlistEntry} {allowlist : Allowlist} (fresh : entry.id = s.drawn)
    (inserted : s.allowlist.insert entry = some allowlist)
    (follows : Follows s { s with allowlist, drawn := s.drawn + 1, allowed := s.allowed ++ [s.drawn] }) :
    Sound { s with allowlist, drawn := s.drawn + 1, allowed := s.allowed ++ [s.drawn] } := by
  have rows := Table.rows_insert inserted
  have unlisted : s.drawn ∉ s.allowed := fun member => (sound.drawn _ member).ne rfl
  refine ⟨⟨sound.once,sound.users,fun admission member => (sound.rightful admission member).later member follows,sound.apart,
    sound.used,?_,?_⟩,?_,?_,fun id gone => List.mem_append_left _ (sound.removed id gone),
    fun id spent => List.mem_append_left _ (sound.emails id spent)⟩
  · intro id member
    change (allowlist.find id).isSome ∨ id ∈ s.removed ∨ .email id ∈ s.consumed
    rw [Table.find_insert inserted]
    rcases List.mem_append.mp member with old | new
    · split
      · exact .inl rfl
      · exact sound.allowed id old
    · rw [List.mem_singleton.mp new,fresh,if_pos rfl]
      exact .inl rfl
  · intro row member
    have inside : row ∈ s.allowlist.rows ++ [entry] := rows ▸ member
    rcases List.mem_append.mp inside with old | new
    · exact sound.unspent row old
    · rw [List.mem_singleton.mp new,fresh]
      exact ⟨fun gone => unlisted (sound.removed _ gone),fun spent => unlisted (sound.emails _ spent)⟩
  · intro row member
    have inside : row ∈ s.allowlist.rows ++ [entry] := rows ▸ member
    rcases List.mem_append.mp inside with old | new
    · exact List.mem_append_left _ (sound.listed row old)
    · rw [List.mem_singleton.mp new,fresh]
      exact List.mem_append_right _ (List.mem_singleton_self _)
  · intro id member
    rcases List.mem_append.mp member with old | new
    · exact (sound.drawn id old).trans (Nat.lt_succ_self _)
    · rw [List.mem_singleton.mp new]
      exact Nat.lt_succ_self _

theorem sound_removed (sound : Sound s) (entry : AllowlistEntry)
    (follows : Follows s { s with
      allowlist := s.allowlist.deleteWhere fun row => row.id = entry.id
      removed := s.removed ++ if (s.allowlist.find entry.id).isSome then [entry.id] else [] }) :
    Sound { s with
      allowlist := s.allowlist.deleteWhere fun row => row.id = entry.id
      removed := s.removed ++ if (s.allowlist.find entry.id).isSome then [entry.id] else [] } := by
  have rows : ∀ row ∈ (s.allowlist.deleteWhere fun row => row.id = entry.id).rows, row ∈ s.allowlist.rows ∧ row.id ≠ entry.id := by
    intro row member
    obtain ⟨inside,different⟩ := List.mem_filter.mp member
    exact ⟨inside,by simpa using different⟩
  have gone : ∀ id, (s.removed ++ if (s.allowlist.find entry.id).isSome then [entry.id] else []).elem id = true →
      id ∈ s.removed ∨ (id = entry.id ∧ (s.allowlist.find id).isSome) := by
    intro id member
    rcases List.mem_append.mp (List.elem_iff.mp member) with old | new
    · exact .inl old
    · split at new
      · rename_i there
        rw [List.mem_singleton.mp new]
        exact .inr ⟨rfl,there⟩
      · cases new
  refine ⟨⟨sound.once,sound.users,fun admission member => (sound.rightful admission member).later member follows,sound.apart,
    sound.used,?_,?_⟩,fun row member => sound.listed row (rows row member).1,sound.drawn,?_,sound.emails⟩
  · intro id listed
    rcases sound.allowed id listed with there | old | spent
    · obtain ⟨row,found⟩ := Option.isSome_iff_exists.mp there
      by_cases same : row.id = entry.id
      · have here : id = entry.id := (Table.find_key found).symm.trans same
        rw [here] at there ⊢
        refine .inr (.inl (List.mem_append_right _ ?_))
        rw [if_pos there]
        exact List.mem_singleton_self _
      · exact .inl (Option.isSome_iff_exists.mpr ⟨row,(Table.find_deleteWhere _ _).mpr ⟨found,same⟩⟩)
    · exact .inr (.inl (List.mem_append_left _ old))
    · exact .inr (.inr spent)
  · intro row member
    obtain ⟨inside,different⟩ := rows row member
    obtain ⟨kept,unspent⟩ := sound.unspent row inside
    refine ⟨fun taken => ?_,unspent⟩
    rcases gone row.id (List.elem_iff.mpr taken) with old | new
    · exact kept old
    · exact different new.1
  · intro id taken
    rcases gone id (List.elem_iff.mpr taken) with old | new
    · exact sound.removed id old
    · obtain ⟨row,found⟩ := Option.isSome_iff_exists.mp new.2
      rw [← Table.find_key found]
      exact sound.listed row (Table.find_mem found)

theorem acts_sound (acts : Acts input s handler s' rest) (sound : Sound s) (relies : Relies s handler) : Sound s' := by
  have follows := acts_follows acts sound relies
  have rightful : ∀ admission ∈ s.admissions, admission.Rightful s' :=
    fun admission member => (sound.rightful admission member).later member follows
  cases acts with
  | committed registering authorization user usedAt users identities written inserted consumed =>
    exact sound_committed sound relies inserted (consumeGrant_spends sound relies consumed) ⟨rfl,rfl,rfl,rfl,rfl,rfl,rfl⟩ follows
  | revoked code codes updated => exact sound_revoked sound relies.2 relies.1 updated follows
  | generated request userId codes fresh count rows unused => exact sound_generated sound rows unused follows
  | added raw userId entry allowlist fresh inserted => exact sound_added sound fresh inserted follows
  | removed entry free => exact sound_removed sound entry follows
  | carried carries goes drawn later =>
    exact ⟨⟨sound.once,sound.users,rightful,sound.apart,sound.used,sound.allowed,sound.unspent⟩,sound.listed,
      fun id member => (sound.drawn id member).trans_le later,sound.removed,sound.emails⟩
  | _ =>
    exact ⟨⟨sound.once,sound.users,rightful,sound.apart,sound.used,sound.allowed,sound.unspent⟩,sound.listed,sound.drawn,
      sound.removed,sound.emails⟩

end Sound

/-- What every step keeps: what is sound, what each handler relies on, and the locks. -/
def Kept (config : Config Shared Handler) : Prop := Holds Sound Relies config ∧ Guarded Handler.guards Shared.locks config

theorem Kept.step {hashToken : Text → Text} {config : Config Shared Handler} (kept : Kept config)
    (event : Event Request Input) : Kept ((machine hashToken).step config event) := by
  obtain ⟨holds,guarded⟩ := kept
  refine ⟨?_,?_⟩
  · refine Holds.step_apart ?_ ?_ ?_ config event holds (guarded.acting_apart event (acting_true config event))
    · intro s request _
      cases request <;> trivial
    · intro input s handler _ sound relies
      have acts := act_acts hashToken input s handler
      exact ⟨acts_sound acts sound relies,relies_next acts sound relies⟩
    · exact fun input s handler other _ apart _ _ relied => Relies.apart (act_acts hashToken input s handler) apart relied
  · refine guarded.step_locking ?_ ?_ event
    · intro request
      cases request <;> rfl
    · exact fun input s handler held => act_locking held (act_acts hashToken input s handler)

def code : Text := ['c','o','d','e']

def invited : Input where
  now := 0
  policy := some "invite_only"
  values := [code]

/-- Two registrations with one code. The second waits for its row, and finds it used. -/
example :
    let register (email : Text) : Event Request Input := .arrive (.register email (some code))
    let first : Event Request Input := .resume 0 invited
    let second : Event Request Input := .resume 1 invited
    let final := run (machine id).step (idle ⟨[],by decide,by decide⟩ ⟨[],by decide,by decide⟩ 10)
      ([.arrive (.generate ⟨"registration",1,none,true⟩ 1),first,register ['a','@','b'],register ['c','@','d'],
        first,first,first,second,second,second] ++ List.replicate 8 first)
    final.shared.admissions.map Admission.credential = [some (.code 10)] ∧ final.inflight = [] ∧
      final.shared.codes.rows.map (fun row => row.status 0) = [.used] := by
  decide

end GrassWorker.Registrations
