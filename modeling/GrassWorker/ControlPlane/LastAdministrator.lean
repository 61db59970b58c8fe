import GrassWorker.ControlPlane.LoginSteps

/-! Administrators change users, each change a transaction that reads the row, counts the active
administrators if the change takes one away, and writes the row. -/
namespace GrassWorker.Logins
open Authentication Interleaving Transaction Runs

def activeAdmin (user : User) : Bool := user.deletedAt = none ∧ user.status = .active ∧ user.platformRole = .admin

/-- A row about to be written, as it was read, and the administrators counted for it. -/
def Handler.userWrite : Handler → Option (User × Option Nat)
  | .writeUser _ target counted => some (target,counted)
  | _ => none

/-- When the row is written it has the status and the role it was read with, and there are as many active
administrators as were counted. -/
def Unraced (_ : Input) (s : Shared) (handler : Handler) : Prop :=
  ∀ write ∈ handler.userWrite,
    (∀ row ∈ s.db.users.find write.1.id, row.status = write.1.status ∧ row.platformRole = write.1.platformRole) ∧
      ∀ admins ∈ write.2, countActiveAdmins s.db = admins

instance (input : Input) (s : Shared) (handler : Handler) : Decidable (Unraced input s handler) :=
  inferInstanceAs (Decidable (∀ write ∈ handler.userWrite,
    (∀ row ∈ s.db.users.find write.1.id, row.status = write.1.status ∧ row.platformRole = write.1.platformRole) ∧
      ∀ admins ∈ write.2, countActiveAdmins s.db = admins))

/-- A change that takes an active administrator away was counted, and there was another one. -/
def Counted (_ : Shared) : Handler → Prop
  | .writeUser update target counted =>
    (∀ admins ∈ counted, 1 < admins) ∧
      (counted = none → target.platformRole = .admin → target.status = .active → ¬(update.demotes target ∨ update.disables))
  | _ => True

section Counts
variable {before after : Users}

theorem usersWrite_admins {drawn : Nat} (write : UsersWrite drawn before after) :
    before.rows.countP activeAdmin ≤ after.rows.countP activeAdmin := by
  cases write with
  | same => exact le_refl _
  | rewritten userId change keeps unchanged updated =>
    apply Table.countP_update_mono updated
    intro row _ _ held
    obtain ⟨status,_,role,deleted⟩ := unchanged row
    simpa [activeAdmin,status,role,deleted] using held
  | created now email verified inserted =>
    rw [Table.rows_insert inserted,List.countP_append]
    omega

theorem update_admins {update : UserUpdate} {target : User}
    (updated : before.update target.id update.apply (fun _ => rfl) = some after)
    (read : ∀ row ∈ before.find target.id, row.status = target.status ∧ row.platformRole = target.platformRole)
    (harmless : target.platformRole = .admin → target.status = .active → ¬(update.demotes target ∨ update.disables)) :
    before.rows.countP activeAdmin ≤ after.rows.countP activeAdmin := by
  apply Table.countP_update_mono updated
  intro row member selected held
  obtain ⟨status,role⟩ := read row (selected ▸ Table.find_of_mem member)
  simp only [activeAdmin,decide_eq_true_eq] at held ⊢
  obtain ⟨deleted,active,admin⟩ := held
  have kept := harmless (role.symm.trans admin) (status.symm.trans active)
  simp only [UserUpdate.demotes,UserUpdate.disables,decide_eq_true_eq,not_or,not_and] at kept
  refine ⟨deleted,?_,?_⟩
  · cases given : update.status with
    | none => simpa [UserUpdate.apply,given] using active
    | some next =>
      cases next with
      | active => simp [UserUpdate.apply,given]
      | disabled => exact absurd given kept.2
  · cases given : update.platformRole with
    | none => simpa [UserUpdate.apply,given] using admin
    | some next =>
      cases next with
      | admin => simp [UserUpdate.apply,given]
      | user => exact absurd given (kept.1 (role.symm.trans admin))

end Counts

section Step
variable {library : Library} {input : Input} {s s' : Shared} {handler : Handler}

theorem does_admins (does : Does library input s handler s') (unraced : Unraced input s handler) (counted : Counted s handler)
    (some' : 0 < countActiveAdmins s.db) : 0 < countActiveAdmins s'.db := by
  cases does with
  | users _ db write =>
    obtain ⟨users,credentials,identities,write,_,rfl⟩ := write
    exact some'.trans_le (usersWrite_admins write)
  | updated update target counted' users updated =>
    obtain ⟨read,same⟩ := unraced (target,counted') rfl
    cases counted' with
    | none => exact some'.trans_le (update_admins updated read (counted.2 rfl))
    | some admins =>
      have another := counted.1 admins rfl
      rw [← same admins rfl] at another
      have lost := Table.countP_update_le updated activeAdmin
      change 1 < s.db.users.rows.countP activeAdmin at another
      change 0 < users.rows.countP activeAdmin
      omega
  | password userId passwordHash credentials users updated others =>
    refine some'.trans_le (Table.countP_update_mono updated activeAdmin ?_)
    intro row _ _ held
    exact held
  | _ => exact some'

theorem leads_counted {rest : Handler} (leads : Leads library input s handler rest) : Counted s' rest := by
  cases leads with
  | uncounted update userId target harmless =>
    refine ⟨?_,fun _ => harmless⟩
    intro admins member
    cases member
  | counted update target several =>
    refine ⟨?_,?_⟩
    · intro admins member
      cases member
      exact several
    · intro absent
      cases absent
  | _ => trivial

end Step

/-- As long as no user is written whose row, or whose counted administrators, have changed since they were
read, every committed state has an active administrator. -/
theorem keeps_administrator (library : Library) (db : Accounts) (drawn : Nat) (events : List (Event Request Input))
    (start : 0 < countActiveAdmins db)
    (unraced : Along (machine library).step (Acting fun input s => Unraced input (s.wait input.now)) (idle db drawn) events) :
    Throughout (machine library).step (fun config => 0 < countActiveAdmins config.shared.db) (idle db drawn) events := by
  have first : Holds (fun s => 0 < countActiveAdmins s.db) Counted (idle db drawn) := by
    refine ⟨start,?_⟩
    intro _ member
    cases member
  refine throughout_of_invariant ?_ (fun config holds => holds.state) (idle db drawn) events first unraced
  intro config event holds meets
  refine Holds.step ?_ ?_ ?_ config event holds meets
  · intro s request _
    cases request <;> trivial
  · intro input s handler unraced some' counted
    have does := act_does library input handler (s := s)
    exact ⟨does_admins does unraced counted some',fun rest next => leads_counted (act_leads next)⟩
  · intro input s handler other _ _ _ counted
    cases other <;> exact counted

def twoAdmins : Accounts where
  users := ⟨[1,2].map fun id => ⟨id,[Char.ofNat (96 + id)],.active,1,.admin,none,none,none⟩,by decide,by decide⟩
  credentials := ∅
  factors := ∅
  userPolicies := ∅
  authTokens := ∅
  identities := ∅

def demoting (actor userId : Uuid) : Event Request Input :=
  .arrive (.updateUsers { actor, status := none, platformRole := some .user } userId)

/-- Each of two administrators takes the other one's role, and both count before either writes. -/
def crossing : List (Event Request Input) :=
  [demoting 1 2,demoting 2 1] ++ [0,1,0,1,0,0].map fun index => .resume index { now := 1000000 }

/-- Two administrators who demote each other leave none. -/
theorem administrators_demote_each_other :
    0 < countActiveAdmins twoAdmins ∧
      countActiveAdmins (run (machine plainLibrary).step (idle twoAdmins 3) crossing).shared.db = 0 := by
  decide

/-- One after the other, the second one is refused. -/
theorem keeps_administrator_in_turn :
    0 < countActiveAdmins twoAdmins ∧
    Throughout (machine plainLibrary).step (fun config => 0 < countActiveAdmins config.shared.db) (idle twoAdmins 3)
      ([demoting 1 2] ++ [0,0,0].map (fun index => .resume index { now := 1000000 }) ++
        [demoting 2 1] ++ [0,0].map (fun index => .resume index { now := 1000000 })) :=
  ⟨by decide,keeps_administrator plainLibrary twoAdmins 3 _ (by decide) (by decide)⟩

end GrassWorker.Logins
