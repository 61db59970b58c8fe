import GrassWorker.ControlPlane.DnsChecks
import GrassWorker.ControlPlane.RegionalSnapshots

/-! What connection checks grant. A check writes while it holds the rows of the binding and of its lease, and the
lease it holds then is the newest one. -/
namespace GrassWorker.DomainOnboarding
open Interleaving Runs Hosts ManagedCertificates Certificates

def Happening.answer (id : Uuid) : Happening → Option DnsVerification
  | .applied bindingId _ ownership => if bindingId = id then some ownership else none
  | .leased .. => none

def latestAnswer (log : List Happening) (id : Uuid) : Option DnsVerification := (log.filterMap (Happening.answer id)).getLast?

/-- A domain that the latest answer verified, and that its review lets through. -/
def Granted (s : Shared) (binding : HostBinding) : Prop :=
  latestAnswer s.log binding.id = some .verified ∧ (binding.reviewStatus = .approved ∨ binding.reviewStatus = .notRequired)

/-- A lease taken earlier is not newer than one under which an answer is applied. -/
def Newest (earlier later : Happening) : Prop :=
  ∀ bindingId lease ownership older, later = .applied bindingId lease ownership → earlier = .leased bindingId older → older ≤ lease

structure Proven (s : Shared) : Prop where
  eligible : ∀ binding ∈ s.db.bindings.rows, bindingEligible binding → Granted s binding
  listed : ∀ crypto now region hostname,
    (hostname ∈ (snapshot crypto now s.db region).bundles.map CertificateBundle.hostname ∨
      hostname ∈ (snapshot crypto now s.db region).challenges.map HttpChallenge.hostname) →
    ∃ binding ∈ s.db.bindings.rows, binding.host = hostname ∧ bindingEligible binding ∧ Granted s binding
  newest : s.log.Pairwise Newest

def Spares (input : Input) (s : Shared) (handler : Handler) : Prop :=
  handler.checking → ∀ row ∈ s.db.bindings.rows, row.status = .disabled ∨ row.deletedAt.isSome →
    (act input s handler).1.db.bindings.find row.id = some row

structure Sound (s : Shared) : Prop where
  verified : ∀ binding ∈ s.db.bindings.rows, binding.ownershipStatus = .verified → latestAnswer s.log binding.id = some .verified
  held : ∀ check ∈ s.db.onboarding.rows, ∀ lease ∈ check.leaseUntil, ∀ older,
    .leased check.bindingId older ∈ s.log → older ≤ lease
  past : ∀ bindingId older, .leased bindingId older ∈ s.log → older ≤ s.clock + checkLease
  newest : s.log.Pairwise Newest

def Relies (s : Shared) : Handler → Prop
  | .lockCheck current _ _ _ => s.db.bindings.find current.id = some current ∧ current.deletedAt = none
  | .writeCheck current lease _ _ => s.db.bindings.find current.id = some current ∧ current.deletedAt = none ∧
    ∃ check, s.db.onboarding.find current.id = some check ∧ check.leaseUntil = some lease
  | _ => True

theorem latestAnswer_leased (log : List Happening) (id bindingId : Uuid) (lease : Timestamp) :
    latestAnswer (log ++ [.leased bindingId lease]) id = latestAnswer log id := by
  simp [latestAnswer,Happening.answer]

theorem latestAnswer_applied (log : List Happening) (id bindingId : Uuid) (lease : Timestamp) (ownership : DnsVerification) :
    latestAnswer (log ++ [.applied bindingId lease ownership]) id =
      if bindingId = id then some ownership else latestAnswer log id := by
  by_cases same : bindingId = id
  · simp [latestAnswer,Happening.answer,same]
  · simp [latestAnswer,Happening.answer,same]

theorem relies_of_free {s : Shared} {handler : Handler} (free : handler.guards = 0) : Relies s handler := by
  cases handler with
  | lockCheck | writeCheck => exact absurd (congrArg Multiset.card free) (by simp [Handler.guards])
  | _ => trivial

section Step
variable {s s' : Shared} {handler other : Handler} {rest : Option Handler}

theorem acts_binding (acts : Acts s handler s' rest) (apart : Apart Handler.guards Shared.locks s handler other) {id : Uuid}
    (mine : Lock.binding id ∈ other.guards) {row : HostBinding} (found : s.db.bindings.find id = some row) :
    s'.db.bindings.find id = some row := by
  obtain ⟨taken,disjoint⟩ := apart
  cases acts with
  | bound request contactEmail binding pending bindings inserted onboarding due =>
    obtain ⟨_,reached,rfl⟩ := (Table.evolves_insert inserted).kept id row found
    exact reached
  | applies current lease unchanged state ownership after verdict bindings updated onboarding ended =>
    have different : id ≠ current.id := by
      rintro rfl
      exact Multiset.disjoint_left.mp disjoint (by simp [Handler.guards]) mine
    change bindings.find id = some row
    rw [Table.find_update updated,if_neg different]
    exact found
  | rewritten handler other selected change keeps kept free bindings updated =>
    have spared : ¬selected row := by
      intro chosen
      rcases free row chosen with free | own
      · exact free (Multiset.mem_of_le taken (Table.find_key found ▸ mine))
      · exact Multiset.disjoint_left.mp disjoint own (Table.find_key found ▸ mine)
    have reached := Table.find_updateWhere updated found
    rw [if_neg spared] at reached
    exact reached
  | _ => exact found

theorem acts_check (acts : Acts s handler s' rest) (apart : Apart Handler.guards Shared.locks s handler other) {id : Uuid}
    (mine : Lock.check id ∈ other.guards) {check : DomainOnboarding} (found : s.db.onboarding.find id = some check) :
    s'.db.onboarding.find id = some check := by
  obtain ⟨taken,disjoint⟩ := apart
  have ended {current : HostBinding} {lease : Timestamp} {unchanged : Bool} {result : CheckResult}
      {onboarding : Table DomainOnboarding (·.bindingId) unindexed}
      (own : handler = .writeCheck current lease unchanged result)
      (ended : s.db.onboarding.updateWhere (fun check => check.bindingId = current.id ∧ check.leaseUntil = some lease)
        (checked s.clock (statusAndError current unchanged result)) (fun _ => rfl) = some onboarding) :
      onboarding.find id = some check := by
    have different : check.bindingId ≠ current.id := by
      intro same
      subst own
      have held : Lock.check id ∈ (Handler.writeCheck current lease unchanged result).guards := by
        rw [← Table.find_key found,same]
        simp [Handler.guards]
      exact Multiset.disjoint_left.mp disjoint held mine
    have reached := Table.find_updateWhere ended found
    rw [if_neg fun chosen => different chosen.1] at reached
    exact reached
  cases acts with
  | bound request contactEmail binding pending bindings inserted onboarding due =>
    obtain ⟨_,reached,rfl⟩ := (Table.evolves_insert due).kept id check found
    exact reached
  | claimed bindingId force free onboarding updated =>
    have different : id ≠ bindingId := by
      rintro rfl
      exact free (Multiset.mem_of_le taken mine)
    change onboarding.find id = some check
    rw [Table.find_update updated,if_neg different]
    exact found
  | unapplied current lease unchanged result onboarding finished => exact ended rfl finished
  | applies current lease unchanged state ownership after verdict bindings updated onboarding finished => exact ended rfl finished
  | _ => exact found

theorem Relies.apart (acts : Acts s handler s' rest) (apart : Apart Handler.guards Shared.locks s handler other)
    (relied : Relies s other) : Relies s' other := by
  cases other with
  | lockCheck current lease unchanged result =>
    exact ⟨acts_binding acts apart (Multiset.mem_singleton_self _) relied.1,relied.2⟩
  | writeCheck current lease unchanged result =>
    obtain ⟨found,live,check,there,leased⟩ := relied
    have mine : Lock.binding current.id ∈ (Handler.writeCheck current lease unchanged result).guards := by simp [Handler.guards]
    have also : Lock.check current.id ∈ (Handler.writeCheck current lease unchanged result).guards := by simp [Handler.guards]
    exact ⟨acts_binding acts apart mine found,live,check,acts_check acts apart also there,leased⟩
  | _ => trivial

theorem relies_next (acts : Acts s handler s' rest) (relies : Relies s handler) : ∀ next, rest = some next → Relies s' next := by
  intro next continues
  cases acts with
  | waits =>
    cases continues
    exact relies
  | continues handler next free none' =>
    cases continues
    exact relies_of_free (free.trans none')
  | lockedBinding bindingId lease unchanged result current found live free =>
    cases continues
    exact ⟨found,live⟩
  | lockedCheck current lease unchanged result check found leased free =>
    cases continues
    exact ⟨relies.1,relies.2,check,found,leased⟩
  | bound | claimed =>
    cases continues
    trivial
  | locked handler next id none' mine other free =>
    cases continues
    cases next with
    | lockCheck | writeCheck => cases other.2
    | _ => trivial
  | _ => cases continues

theorem sound_claimed (sound : Sound s) {bindingId : Uuid} {onboarding : Table DomainOnboarding (·.bindingId) unindexed}
    (updated : s.db.onboarding.update bindingId
      (fun row => { row with leaseUntil := some (s.clock + checkLease) }) (fun _ => rfl) = some onboarding) :
    Sound { s with db := { s.db with onboarding }, log := s.log ++ [.leased bindingId (s.clock + checkLease)] } := by
  have bound : ∀ id older, Happening.leased id older ∈ s.log ++ [.leased bindingId (s.clock + checkLease)] →
      older ≤ s.clock + checkLease := by
    intro id older member
    rcases List.mem_append.mp member with earlier | new
    · exact sound.past id older earlier
    · cases List.mem_singleton.mp new
      exact le_refl _
  refine ⟨?_,?_,bound,?_⟩
  · intro binding member verified
    dsimp only
    rw [latestAnswer_leased]
    exact sound.verified binding member verified
  · intro check member lease has older logged
    dsimp only at member
    rw [Table.rows_update updated] at member
    obtain ⟨old,inside,rfl⟩ := List.mem_map.mp member
    by_cases mine : old.bindingId = bindingId
    · rw [if_pos mine] at has logged
      cases has
      exact bound _ older logged
    · rw [if_neg mine] at has logged
      rcases List.mem_append.mp logged with earlier | new
      · exact sound.held old inside lease has older earlier
      · cases List.mem_singleton.mp new
        exact absurd rfl mine
  · refine List.pairwise_append.mpr ⟨sound.newest,List.pairwise_singleton _ _,?_⟩
    intro earlier _ later new id lease ownership older applies
    rw [List.mem_singleton.mp new] at applies
    cases applies

theorem held_ended (sound : Sound s) {current : HostBinding} {lease : Timestamp} {status : CheckStatus × Option String}
    {onboarding : Table DomainOnboarding (·.bindingId) unindexed}
    (ended : s.db.onboarding.updateWhere (fun check => check.bindingId = current.id ∧ check.leaseUntil = some lease)
      (checked s.clock status) (fun _ => rfl) = some onboarding) :
    ∀ check ∈ onboarding.rows, ∀ until' ∈ check.leaseUntil, ∀ older, .leased check.bindingId older ∈ s.log → older ≤ until' := by
  intro check member until' has older logged
  rw [Table.rows_updateWhere ended] at member
  obtain ⟨old,inside,rfl⟩ := List.mem_map.mp member
  split at has
  · cases has
  · rename_i other
    rw [if_neg other] at logged
    exact sound.held old inside until' has older logged

theorem sound_applied (sound : Sound s) {current after : HostBinding} {lease : Timestamp} {unchanged : Bool}
    {state : ConnectionState} {ownership : DnsVerification}
    (relies : Relies s (.writeCheck current lease unchanged (.answered state ownership)))
    (verdict : applied current unchanged (.answered state ownership) = some after)
    {bindings : Table HostBinding (·.id) HostBinding.entries}
    (updated : s.db.bindings.update current.id
      (fun row => { row with ownershipStatus := after.ownershipStatus, status := after.status }) (fun _ => rfl) = some bindings)
    {onboarding : Table DomainOnboarding (·.bindingId) unindexed}
    (ended : s.db.onboarding.updateWhere (fun check => check.bindingId = current.id ∧ check.leaseUntil = some lease)
      (checked s.clock (statusAndError current unchanged (.answered state ownership))) (fun _ => rfl) = some onboarding) :
    Sound { s.leave (.writeCheck current lease unchanged (.answered state ownership)) with
      db := { s.db with bindings, onboarding }, log := s.log ++ [.applied current.id lease ownership] } := by
  obtain ⟨_,_,check,there,leased⟩ := relies
  obtain ⟨_,_,_,_,same,finds⟩ := applied_some verdict
  cases same
  have logs {id : Uuid} {older : Timestamp}
      (logged : Happening.leased id older ∈ s.log ++ [.applied current.id lease ownership]) : .leased id older ∈ s.log := by
    rcases List.mem_append.mp logged with earlier | new
    · exact earlier
    · cases List.mem_singleton.mp new
  refine ⟨?_,?_,fun id older logged => sound.past id older (logs logged),?_⟩
  · intro binding member verified
    dsimp only at member ⊢
    rw [latestAnswer_applied]
    rw [Table.rows_update updated] at member
    obtain ⟨old,inside,rfl⟩ := List.mem_map.mp member
    by_cases mine : old.id = current.id
    · rw [if_pos mine] at verified ⊢
      rw [if_pos mine.symm,finds verified]
    · rw [if_neg mine] at verified ⊢
      rw [if_neg (Ne.symm mine)]
      exact sound.verified old inside verified
  · intro check member until' has older logged
    exact held_ended sound ended check member until' has older (logs logged)
  · refine List.pairwise_append.mpr ⟨sound.newest,List.pairwise_singleton _ _,?_⟩
    rintro earlier logged later new id newest found older applies rfl
    rw [List.mem_singleton.mp new] at applies
    cases applies
    have key := Table.find_key there
    exact sound.held check (Table.find_mem there) lease leased older (key.symm ▸ logged)

theorem acts_sound (acts : Acts s handler s' rest) (sound : Sound s) (relies : Relies s handler) : Sound s' := by
  cases acts with
  | bound request contactEmail binding pending bindings inserted onboarding due =>
    refine ⟨?_,?_,sound.past,sound.newest⟩
    · intro row member verified
      dsimp only at member
      rw [Table.rows_insert inserted] at member
      rcases List.mem_append.mp member with old | new
      · exact sound.verified row old verified
      · rw [List.mem_singleton.mp new,pending] at verified
        cases verified
    · intro check member lease has
      dsimp only at member
      rw [Table.rows_insert due] at member
      rcases List.mem_append.mp member with old | new
      · exact sound.held check old lease has
      · rw [List.mem_singleton.mp new] at has
        cases has
  | claimed bindingId force free onboarding updated => exact sound_claimed sound updated
  | unapplied current lease unchanged result onboarding ended =>
    exact ⟨sound.verified,held_ended sound ended,sound.past,sound.newest⟩
  | applies current lease unchanged state ownership after verdict bindings updated onboarding ended =>
    exact sound_applied sound relies verdict updated ended
  | rewritten handler other selected change keeps kept free bindings updated =>
    refine ⟨?_,sound.held,sound.past,sound.newest⟩
    intro row member verified
    change row ∈ bindings.rows at member
    rw [Table.rows_updateWhere updated] at member
    obtain ⟨old,inside,rfl⟩ := List.mem_map.mp member
    by_cases chosen : selected old
    · rw [if_pos chosen] at verified ⊢
      rw [keeps]
      exact sound.verified old inside ((kept old).symm.trans verified)
    · rw [if_neg chosen] at verified ⊢
      exact sound.verified old inside verified
  | _ => exact ⟨sound.verified,sound.held,sound.past,sound.newest⟩

theorem act_locking (held : handler.guards ≤ s.locks) (acts : Acts s handler s' rest) :
    Locking s.locks handler.guards s'.locks (Interleaving.rest Handler.guards rest) := by
  cases acts with
  | ends | unapplied | applies | rewritten => exact .leave _ (Multiset.sub_add_cancel held)
  | continues handler next free none' =>
    rw [rest_some,free]
    exact .keep
  | lockedBinding bindingId lease unchanged result current found live free => exact .take _ free
  | lockedCheck current lease unchanged result check found leased free => exact .take _ free
  | locked handler next id none' mine other free =>
    rw [rest_some,mine,none']
    exact .take _ free
  | _ => exact .keep

/-- The only binding a check writes is the one it has locked, and that one is neither disabled nor deleted. -/
theorem acts_spares (acts : Acts s handler s' rest) (relies : Relies s handler) (checks : handler.checking = true)
    {row : HostBinding} (found : s.db.bindings.find row.id = some row) (off : row.status = .disabled ∨ row.deletedAt.isSome) :
    s'.db.bindings.find row.id = some row := by
  cases acts with
  | applies current lease unchanged state ownership after verdict bindings updated onboarding ended =>
    obtain ⟨mine,live,_⟩ := relies
    have different : row.id ≠ current.id := by
      intro same
      rw [same,mine] at found
      cases found
      rcases off with disabled | deleted
      · exact (applied_some verdict).1 disabled
      · rw [live] at deleted
        cases deleted
    change bindings.find row.id = some row
    rw [Table.find_update updated,if_neg different]
    exact found
  | bound | entries | certificates => cases checks
  | rewritten handler other =>
    rw [other] at checks
    cases checks
  | _ => exact found

end Step

theorem Sound.later {s : Shared} (sound : Sound s) (elapsed : Nat) : Sound (s.later elapsed) := by
  refine ⟨sound.verified,sound.held,?_,sound.newest⟩
  intro id older logged
  have bound : older ≤ s.clock + checkLease := sound.past id older logged
  have later : s.clock ≤ s.clock + elapsed := Int.le_add_of_nonneg_right (Int.natCast_nonneg elapsed)
  exact bound.trans (Int.add_le_add_right later checkLease)

theorem Sound.proven {s : Shared} (sound : Sound s) : Proven s := by
  have eligible : ∀ binding ∈ s.db.bindings.rows, bindingEligible binding → Granted s binding := by
    intro binding member eligible
    obtain ⟨_,_,_,verified,reviewed⟩ := of_decide_eq_true eligible
    exact ⟨sound.verified binding member verified,reviewed⟩
  refine ⟨eligible,?_,sound.newest⟩
  intro crypto now region hostname listed
  have shown : ∃ item ∈ RegionalSnapshots.shown s.db region, item.hostname = hostname := by
    rcases listed with bundled | challenged
    · obtain ⟨bundle,member,rfl⟩ := List.mem_map.mp bundled
      obtain ⟨item,shown,shows⟩ := RegionalSnapshots.mem_bundles.mp member
      exact ⟨item,shown,(RegionalSnapshots.bundleOf_checked shows).2.1.symm⟩
    · obtain ⟨challenge,member,rfl⟩ := List.mem_map.mp challenged
      obtain ⟨item,shown,shows⟩ := List.mem_filterMap.mp (RegionalSnapshots.challenges_perm.mem_iff.mp member)
      exact ⟨item,shown,(RegionalSnapshots.challengeOf_named shows).symm⟩
  obtain ⟨item,member,rfl⟩ := shown
  obtain ⟨_,binding,found,same,eligible'⟩ := RegionalSnapshots.shown_eligible member
  obtain ⟨id,_,found⟩ := Option.bind_eq_some_iff.mp found
  exact ⟨binding,Table.find_mem found,same,eligible',eligible binding (Table.find_mem found) eligible'⟩

/-- What every step keeps: what is sound, what each handler relies on, and the locks. -/
def Kept (config : Config Shared Handler) : Prop :=
  Holds Sound Relies config ∧ Guarded Handler.guards Shared.locks config

theorem Relies.later {s : Shared} {handler : Handler} (relies : Relies s handler) (elapsed : Nat) :
    Relies (s.later elapsed) handler := by
  cases handler <;> exact relies

theorem Kept.step {config : Config Shared Handler} (kept : Kept config) (event : Event Request Input) :
    Kept (machine.step config event) := by
  obtain ⟨holds,guarded⟩ := kept
  refine ⟨?_,?_⟩
  · refine Holds.step_apart ?_ ?_ ?_ config event holds (guarded.acting_apart event (acting_true config event))
    · intro s request _
      cases request <;> trivial
    · intro input s handler _ sound relies
      have acts := act_acts input s handler
      exact ⟨acts_sound acts (sound.later _) (relies.later _),relies_next acts (relies.later _)⟩
    · exact fun input s handler other _ apart _ _ relied => Relies.apart (act_acts input s handler) apart (relied.later _)
  · refine guarded.step_locking ?_ ?_ event
    · intro request
      cases request <;> rfl
    · exact fun input s handler held => act_locking (s := s.later input.elapsed) held (act_acts input s handler)

/-- In every run what is listed has been verified by the latest answer and reviewed, no answer is applied under a
lease that is not the newest, and checks leave what is disabled or deleted as it is. -/
theorem checks_grant_what_they_prove (db : IngressDatabase) (clock : Timestamp) (drawn : Nat)
    (events : List (Event Request Input)) :
    Throughout machine.step (fun config => Proven config.shared) (idle db clock drawn) events ∧
    Along machine.step (Acting Spares) (idle db clock drawn) events := by
  have start : Kept (idle db clock drawn) := by
    refine ⟨⟨⟨?_,?_,?_,List.Pairwise.nil⟩,?_⟩,rfl,Multiset.nodup_zero⟩
    · intro _ member
      cases member
    · intro _ member
      cases member
    · intro _ _ member
      cases member
    · intro _ member
      cases member
  have kept : ∀ config event, Kept config → True → Kept (machine.step config event) :=
    fun config event kept _ => kept.step event
  refine ⟨throughout_of_invariant kept (fun config kept => kept.1.state.proven) _ events start (along_true _ events),
    along_of_invariant kept ?_ _ events start (along_true _ events)⟩
  intro config event kept _
  cases event with
  | arrive request => trivial
  | resume index input =>
    intro handler found checks row member off
    have relies := kept.1.handlers handler (List.mem_of_getElem? found)
    exact acts_spares (act_acts input config.shared handler) (relies.later _) checks (Table.find_of_mem member) off

def actions (count : Nat) : List (Event Request Input) :=
  List.replicate count (.resume 0 { elapsed := 1, answer := some (.ready,.verified) })

/-- A domain is bound, found and approved, and then it is active. -/
example : (run machine.step
    (idle { ingresses := ⟨[{ id := 1, region := "eu", hostname := "eu.example.org", enabled := true }],by decide,by decide⟩ } 0 10)
    (.arrive (.bindHost ⟨{ id := 2, teamId := 3, slug := "site", runtime := .static },{ id := 3 },none,"site.example.org","eu",
        .custom,.all,false,.pending⟩ "owner@example.org") :: actions 2 ++
      .arrive (.runCheck 10 false) :: actions 8 ++ .arrive (.decide 10 true) :: actions 2)).shared.db.bindings.rows.map
        HostBinding.status = [.active] := by
  decide

end GrassWorker.DomainOnboarding
