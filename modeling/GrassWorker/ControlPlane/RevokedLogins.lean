import GrassWorker.ControlPlane.LoginSteps

/-! A new password, and the disabling of an account, end the logins that came before. Every
record of a login carries the version of the user it was read with, and the version is raised
at least as often as the password is set and the account disabled. -/
namespace GrassWorker.Logins
open Authentication Interleaving Transaction Runs

def Basis.le (first second : Basis) : Prop := first.passwords ≤ second.passwords ∧ first.disables ≤ second.disables

instance (first second : Basis) : Decidable (first.le second) := inferInstanceAs (Decidable (_ ∧ _))

/-- Since a password check the version was raised at least once for each new password and each disabling. -/
def Backs (s : Shared) (userId : Uuid) (version : Int) (basis : Basis) : Prop :=
  ∃ user, s.db.users.find userId = some user ∧ basis.le (s.basis userId) ∧
    version + ((s.basis userId).passwords - basis.passwords) + ((s.basis userId).disables - basis.disables) ≤ user.authVersion

def BacksAll (s : Shared) (userId : Uuid) (version : Int) (basis : Option Basis) : Prop :=
  ∀ rests ∈ basis, Backs s userId version rests

def BacksHandler (s : Shared) : Handler → Prop
  | .readCredential login _ | .readPolicy login | .readFactors login _ | .readUserPolicy login _ _
  | .createChallenge login _ | .updateLastLogin login | .createSession login =>
    BacksAll s login.user.id login.user.authVersion login.basis
  | .readChallengeUser _ opened _ => BacksAll s opened.challenge.userId opened.challenge.authVersion opened.basis
  | .readFactor pending _ _ | .readVerifyPolicy pending _ _ | .readEnrolled pending _ | .readEnrolledPolicy pending _ _
  | .takeChallenge pending => BacksAll s pending.user.id pending.user.authVersion pending.opened.basis
  | .checkCode verification | .deleteCode verification _ | .writeUse verification _ =>
    ∀ pending ∈ verification.pending, BacksAll s pending.1.user.id pending.1.user.authVersion pending.1.opened.basis
  | .refresh _ session started _ | .readSessionUser _ session started =>
    BacksAll s session.data.userId session.data.authVersion session.basis ∧
      started.le (s.basis session.data.userId)
  | _ => True

/-- A request that was let in rests on a check that saw every password and disabling from before it started. -/
def Current (admission : Admission) : Prop := ∀ basis ∈ admission.session.basis, admission.started.le basis

structure BacksCache (s : Shared) : Prop where
  challenges : ∀ entry ∈ s.challenges,
    BacksAll s entry.value.challenge.userId entry.value.challenge.authVersion entry.value.basis
  sessions : ∀ entry ∈ s.sessions, BacksAll s entry.value.data.userId entry.value.data.authVersion entry.value.basis
  admitted : ∀ admission ∈ s.admitted, Current admission

structure Grows (s s' : Shared) : Prop where
  counts : ∀ userId, (s.basis userId).le (s'.basis userId)
  users : ∀ userId user, s.db.users.find userId = some user → ∃ next, s'.db.users.find userId = some next ∧
    user.authVersion + ((s'.basis userId).passwords - (s.basis userId).passwords) +
      ((s'.basis userId).disables - (s.basis userId).disables) ≤ next.authVersion

section Growth
variable {s s' : Shared}

theorem grows_of_same (users : s'.db.users = s.db.users) (passwords : s'.passwordsSet = s.passwordsSet)
    (disabled : s'.disabled = s.disabled) : Grows s s' := by
  have same : ∀ userId, s'.basis userId = s.basis userId := by
    intro userId
    rw [Shared.basis,passwords,disabled]
    rfl
  refine ⟨fun userId => ?_,fun userId user found => ⟨user,users ▸ found,?_⟩⟩
  · rw [same]
    exact ⟨le_refl _,le_refl _⟩
  · rw [same]
    omega

theorem usersWrite_find {before after : Users} {drawn : Nat} (write : UsersWrite drawn before after) {userId : Uuid}
    {user : User} (found : before.find userId = some user) : ∃ next, after.find userId = some next ∧ Unchanged user next := by
  cases write with
  | same => exact ⟨user,found,rfl,rfl,rfl,rfl,id⟩
  | rewritten target change keeps unchanged updated =>
    have after := Table.find_update updated userId
    rw [found] at after
    split at after
    · exact ⟨change user,after,unchanged user⟩
    · exact ⟨user,after,rfl,rfl,rfl,rfl,id⟩
  | created now email verified inserted =>
    have after := Table.find_insert inserted userId
    split at after
    · rename_i same
      rw [same,Table.find_before_insert inserted] at found
      cases found
    · exact ⟨user,after.trans found,rfl,rfl,rfl,rfl,id⟩

theorem does_grows {library : Library} {input : Input} {handler : Handler} (does : Does library input s handler s') :
    Grows s s' := by
  cases does with
  | users _ db write =>
    obtain ⟨users,credentials,identities,write,_,rfl⟩ := write
    refine ⟨fun _ => ⟨le_refl _,le_refl _⟩,?_⟩
    intro userId user found
    obtain ⟨next,after,unchanged⟩ := usersWrite_find write found
    refine ⟨next,after,?_⟩
    rw [unchanged.version]
    simp [Shared.basis]
  | updated update target counted users updated =>
    refine ⟨fun userId => ⟨le_refl _,?_⟩,?_⟩
    · by_cases disables : update.disables <;> simp [Shared.basis,disables]
    · intro userId user found
      have after := Table.find_update updated userId
      rw [found] at after
      by_cases same : userId = target.id
      · rw [if_pos same] at after
        refine ⟨update.apply user,after,?_⟩
        by_cases disables : update.disables <;> simp [Shared.basis,UserUpdate.apply,disables,same]
      · rw [if_neg same] at after
        refine ⟨user,after,?_⟩
        by_cases disables : update.disables <;> simp [Shared.basis,disables,Ne.symm same]
  | password target passwordHash credentials users updated others =>
    refine ⟨fun userId => ⟨?_,le_refl _⟩,?_⟩
    · simp [Shared.basis]
    · intro userId user found
      have after := Table.find_update updated userId
      rw [found] at after
      by_cases same : userId = target
      · rw [if_pos same] at after
        refine ⟨_,after,?_⟩
        simp [Shared.basis,same]
      · rw [if_neg same] at after
        refine ⟨user,after,?_⟩
        simp [Shared.basis,Ne.symm same]
  | _ => exact grows_of_same rfl rfl rfl

theorem Backs.grow (grows : Grows s s') {userId : Uuid} {version : Int} {basis : Basis} (backs : Backs s userId version basis) :
    Backs s' userId version basis := by
  obtain ⟨user,found,⟨passwords,disables⟩,raised⟩ := backs
  obtain ⟨next,after,later⟩ := grows.users userId user found
  obtain ⟨more,others⟩ := grows.counts userId
  exact ⟨next,after,⟨passwords.trans more,disables.trans others⟩,by omega⟩

theorem BacksAll.grow (grows : Grows s s') {userId : Uuid} {version : Int} {basis : Option Basis}
    (backs : BacksAll s userId version basis) : BacksAll s' userId version basis :=
  fun rests member => (backs rests member).grow grows

theorem backsAll_none (s : Shared) (userId : Uuid) (version : Int) : BacksAll s userId version none :=
  fun _ member => by cases member

theorem Basis.le_trans {first second third : Basis} (one : first.le second) (two : second.le third) : first.le third :=
  ⟨one.1.trans two.1,one.2.trans two.2⟩

theorem BacksHandler.grow (grows : Grows s s') {handler : Handler} (backs : BacksHandler s handler) :
    BacksHandler s' handler := by
  cases handler
  case readCredential | readPolicy | readFactors | readUserPolicy | createChallenge | updateLastLogin | createSession
    | readChallengeUser | readFactor | readVerifyPolicy | readEnrolled | readEnrolledPolicy | takeChallenge =>
    exact BacksAll.grow grows backs
  case checkCode | deleteCode | writeUse => exact fun pending member => (backs pending member).grow grows
  case refresh | readSessionUser => exact ⟨backs.1.grow grows,Basis.le_trans backs.2 (grows.counts _)⟩
  all_goals trivial

end Growth

section Own
variable {library : Library} {input : Input} {s : Shared}

theorem backs_read {user : User} (found : s.db.users.find user.id = some user) :
    BacksAll s user.id user.authVersion (some (s.basis user.id)) := by
  intro rests member
  cases member
  exact ⟨user,found,⟨le_refl _,le_refl _⟩,by omega⟩

theorem getUserByEmail_find {db : Accounts} {email : Text} {user : User} (found : getUserByEmail db email = some user) :
    db.users.find user.id = some user :=
  Table.find_of_mem (List.mem_of_find?_eq_some found)

theorem leads_backs {handler rest : Handler} (leads : Leads library input s handler rest) (cache : BacksCache s)
    (backs : BacksHandler s handler) : BacksHandler s rest := by
  cases leads with
  | password email email' password returnTo user found => exact backs_read (getUserByEmail_find found)
  | checked login password valid =>
    intro rests member
    obtain ⟨basis,carried,rfl⟩ := Option.map_eq_some_iff.mp member
    obtain ⟨user,found,⟨passwords,disables⟩,raised⟩ := backs basis carried
    exact ⟨user,found,⟨le_refl _,disables⟩,by dsimp only; omega⟩
  | policy | factors | challenge | unchallenged | lastLogin | factor | totp | mail | deleted | enrolled | met | taken
  | refreshed =>
    exact backs
  | linkedUser | identityUser | registered | emailVerified => exact backsAll_none s _ _
  | loaded token purpose opened found permitted =>
    obtain ⟨entry,member,_,rfl⟩ := Expiring.get_eq_some found
    exact cache.challenges entry member
  | challengeVerify token opened factorId code user found current =>
    obtain ⟨found,_⟩ := Option.filter_eq_some_iff.mp found
    change BacksAll s user.id user.authVersion opened.basis
    rw [← current,Table.find_key found]
    exact backs
  | usable pending factor code allowed enrolled =>
    intro carried member
    cases member
    exact backs
  | ownFactor userId factorId code factor found =>
    intro carried member
    cases member
  | enrolling verification checked pending policy carried mode | verifying verification checked pending policy carried mode =>
    exact backs (pending,policy) carried
  | valid token session found remaining =>
    obtain ⟨entry,member,_,rfl⟩ := Expiring.get_eq_some found
    exact ⟨cache.sessions entry member,le_refl _,le_refl _⟩
  | _ => trivial

theorem does_cache {s' : Shared} {handler : Handler} (does : Does library input s handler s') (cache : BacksCache s)
    (backs : BacksHandler s handler) : BacksCache s' := by
  have grows := does_grows does
  have challenges : ∀ entry ∈ s.challenges,
      BacksAll s' entry.value.challenge.userId entry.value.challenge.authVersion entry.value.basis :=
    fun entry member => (cache.challenges entry member).grow grows
  have sessions : ∀ entry ∈ s.sessions,
      BacksAll s' entry.value.data.userId entry.value.data.authVersion entry.value.basis :=
    fun entry member => (cache.sessions entry member).grow grows
  cases does with
  | challenged login mode =>
    refine ⟨?_,sessions,cache.admitted⟩
    intro entry member
    rcases Expiring.mem_put.mp member with rfl | old
    · exact BacksAll.grow grows backs
    · exact challenges entry old.1
  | taken pending present =>
    exact ⟨fun entry member => challenges entry (Expiring.mem_remove.mp member).1,sessions,cache.admitted⟩
  | issued login =>
    refine ⟨challenges,?_,cache.admitted⟩
    intro entry member
    rcases Expiring.mem_put.mp member with rfl | old
    · exact BacksAll.grow grows backs
    · exact sessions entry old.1
  | refreshed token session started remaining =>
    refine ⟨challenges,?_,cache.admitted⟩
    intro entry member
    rcases Expiring.mem_putIfPresent member with ⟨rfl,_⟩ | old
    · exact backs.1.grow grows
    · exact sessions entry old
  | ended _ token =>
    exact ⟨challenges,fun entry member => sessions entry (Expiring.mem_remove.mp member).1,cache.admitted⟩
  | admitted token session started user found active current =>
    refine ⟨challenges,sessions,?_⟩
    intro admission member
    rcases List.mem_append.mp member with old | new
    · exact cache.admitted admission old
    · rw [List.mem_singleton.mp new]
      intro basis carried
      -- the version is the user's own, so nothing has raised it since the check
      obtain ⟨row,known,⟨passwords,disables⟩,raised⟩ := backs.1 basis carried
      obtain ⟨found,_⟩ := Option.filter_eq_some_iff.mp found
      rw [found] at known
      cases known
      obtain ⟨before,since⟩ := backs.2
      exact ⟨by dsimp only; omega,by dsimp only; omega⟩
  | _ => exact ⟨challenges,sessions,cache.admitted⟩

theorem wait_cache (now : Timestamp) (cache : BacksCache s) : BacksCache (s.wait now) :=
  ⟨fun entry member => cache.challenges entry (Expiring.mem_wait member),
    fun entry member => cache.sessions entry (Expiring.mem_wait member),cache.admitted⟩

end Own

/-- A request that was let in started after no new password and no disabling that the password check
its session goes back to did not know of. -/
theorem admitted_current (library : Library) (db : Accounts) (drawn : Nat) (events : List (Event Request Input)) :
    ∀ admission ∈ (run (machine library).step (idle db drawn) events).shared.admitted, Current admission := by
  have start : Holds BacksCache BacksHandler (idle db drawn) := by
    refine ⟨⟨?_,?_,?_⟩,?_⟩ <;>
    · intro _ member
      cases member
  have kept : ∀ config event, Holds BacksCache BacksHandler config →
      Holds BacksCache BacksHandler ((machine library).step config event) := by
    intro config event holds
    refine Holds.step ?_ ?_ ?_ config event holds (acting_true config event)
    · intro s request _
      cases request <;> trivial
    · intro input s handler _ cache backs
      have does := act_does library input handler (s := s)
      refine ⟨does_cache does (wait_cache input.now cache) backs,?_⟩
      intro rest next
      exact BacksHandler.grow (does_grows does) (leads_backs (act_leads next) (wait_cache input.now cache) backs)
    · intro input s handler other _ _ _ asserted
      exact BacksHandler.grow (does_grows (act_does library input handler)) asserted
  exact (invariant_run_always kept (idle db drawn) events start).state.admitted

/-- A user who has proved his factor makes a request with the session, and is let in. -/
theorem admitted_current_proved :
    let after := (run (machine plainLibrary).step (idle (singleUser ⟨2,1,.totp,some [7],some 0,none,0⟩
      { allowedFactors := ["totp"] }) 3)
      (passwordLogin 3000 ++ alone (.challenge 3 (.verify 2 (plainLibrary.generate [7] 100))) 9 (secondsLater 3000) ++
        alone (.validate 5) 3 (secondsLater 3001))).shared
    ∃ admission ∈ after.admitted, admission.session.data.userId = 1 ∧ Current admission := by
  intro after
  have once : after.admitted.map (fun admission => admission.session.data.userId) = [1] := by decide
  obtain ⟨admission,member,user⟩ := List.mem_map.mp (once ▸ List.mem_singleton.mpr rfl)
  exact ⟨admission,member,user,admitted_current plainLibrary _ 3 _ admission member⟩

end GrassWorker.Logins
