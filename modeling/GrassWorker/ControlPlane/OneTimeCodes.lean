import GrassWorker.ControlPlane.LoginSteps
import Mathlib.Data.Multiset.OrderedMonoid

/-! Which codes are accepted. A one-time password is compared with the time of the last use before the
factor is written; a mailed code is looked up in one call of the cache and deleted in another. -/
namespace GrassWorker.Logins
open Authentication Interleaving Runs

/-- A one-time password about to be marked as used, and the steps it is the value of. -/
def Handler.totpUse : Handler → Option (Verification × List Int)
  | .writeUse verification (.totp steps) => some (verification,steps)
  | _ => none

def Handler.mailUse : Handler → Option (Verification × Nat)
  | .deleteCode verification number => some (verification,number)
  | _ => none

/-- A one-time password is for a later step than those of its secret used before, and the code that is
deleted is the one that was compared. -/
def Unreplayed (input : Input) (s : Shared) (handler : Handler) : Prop :=
  input.fails = false →
    (∀ use ∈ handler.totpUse, ∀ step ∈ use.2, ∀ code ∈ s.usedCodes,
      code.factorId = use.1.factor.id → code.secret = use.1.factor.secretEnvelope → code.step < step) ∧
    ∀ use ∈ handler.mailUse, (Expiring.get s.codes (use.1.scope,use.1.factor.id)).map SentCode.mail = some use.2

instance (input : Input) (s : Shared) (handler : Handler) : Decidable (Unreplayed input s handler) :=
  inferInstanceAs (Decidable (input.fails = false →
    (∀ use ∈ handler.totpUse, ∀ step ∈ use.2, ∀ code ∈ s.usedCodes,
      code.factorId = use.1.factor.id → code.secret = use.1.factor.secretEnvelope → code.step < step) ∧
    ∀ use ∈ handler.mailUse, (Expiring.get s.codes (use.1.scope,use.1.factor.id)).map SentCode.mail = some use.2))

section Passwords
variable {library : Library} {input : Input} {s s' : Shared} {handler : Handler}

def Distinct (_ : Shared) (handler : Handler) : Prop := ∀ use ∈ handler.totpUse, use.2.Nodup

theorem nodup_matchingSteps (secret : Secret) (code : Text) : (matchingSteps library input secret code).Nodup := by
  apply List.Nodup.filter
  simp only [List.nodup_cons,List.mem_cons,List.not_mem_nil,or_false,not_or,not_false_eq_true,List.nodup_nil,and_true]
  omega

theorem leads_distinct {rest : Handler} (leads : Leads library input s handler rest) : Distinct s' rest := by
  cases leads with
  | totp verification steps correct =>
    intro use member
    cases member
    unfold checkTotp at correct
    split at correct
    · cases correct
    · obtain ⟨secret,_,correct⟩ := Option.bind_eq_some_iff.mp correct
      split at correct
      · cases correct
      · cases correct
        exact nodup_matchingSteps secret verification.code
  | _ =>
    intro use member
    cases member

theorem does_usedCodes (does : Does library input s handler s')
    (later : ∀ use ∈ handler.totpUse, ∀ step ∈ use.2, ∀ code ∈ s.usedCodes,
      code.factorId = use.1.factor.id → code.secret = use.1.factor.secretEnvelope → code.step < step)
    (distinct : Distinct s handler) (once : s.usedCodes.Nodup) : s'.usedCodes.Nodup := by
  cases does with
  | users _ db write =>
    exact once
  | used verification checked factors updated present =>
    cases checked with
    | mail number => simpa [Verification.used] using once
    | totp steps =>
      simp only [Verification.used,List.nodup_append]
      refine ⟨once,?_,?_⟩
      · apply List.Nodup.map
        · intro first second same
          exact congrArg TotpCode.step same
        · exact distinct (verification,steps) rfl
      · intro code old other new same
        obtain ⟨step,member,rfl⟩ := List.mem_map.mp new
        subst same
        exact absurd (later (verification,steps) rfl step member _ old rfl rfl) (lt_irrefl step)
  | _ => exact once

end Passwords

section Mails
variable {library : Library} {input : Input} {s s' : Shared} {handler : Handler}

def Shared.unredeemed (s : Shared) : Multiset Nat := (s.codes.map fun entry => entry.value.mail : List Nat)

def Handler.redeeming : Handler → Multiset Nat
  | .writeUse _ (.mail number) => {number}
  | _ => 0

def mailed (s : Shared) : Multiset Nat := s.unredeemed + s.usedMails

theorem unredeemed_remove (key : Scope × Uuid) :
    ({ s with codes := Expiring.remove s.codes key } : Shared).unredeemed ≤ s.unredeemed :=
  (List.filter_sublist.map _).subperm

theorem unredeemed_wait (now : Timestamp) : (s.wait now).unredeemed ≤ s.unredeemed :=
  (List.filter_sublist.map _).subperm

theorem unredeemed_found {key : Scope × Uuid} {number : Nat}
    (found : (Expiring.get s.codes key).map SentCode.mail = some number) :
    ({ s with codes := Expiring.remove s.codes key } : Shared).unredeemed + {number} ≤ s.unredeemed := by
  obtain ⟨sent,present,rfl⟩ := Option.map_eq_some_iff.mp found
  obtain ⟨entry,member,same,rfl⟩ := Expiring.get_eq_some present
  have split : (Multiset.ofList (Expiring.remove s.codes key)) + {entry} ≤ Multiset.ofList s.codes := by
    rw [← Multiset.filter_add_not (fun entry => entry.key ≠ key) (Multiset.ofList s.codes)]
    refine add_le_add (le_refl _) (Multiset.singleton_le.mpr ?_)
    simpa using ⟨member,same⟩
  have mails := Multiset.map_le_map (f := fun entry : Lasting (Scope × Uuid) SentCode => entry.value.mail) split
  rw [Multiset.map_add,Multiset.map_singleton] at mails
  exact mails

theorem unredeemed_put (key : Scope × Uuid) (sent : SentCode) (deadline : Timestamp) :
    ({ s with codes := Expiring.put s.codes key sent deadline } : Shared).unredeemed ≤ s.unredeemed + {sent.mail} := by
  have kept := unredeemed_remove (s := s) key
  simp only [Shared.unredeemed,Expiring.put,List.map_cons,← Multiset.cons_coe] at kept ⊢
  rw [add_comm,Multiset.singleton_add]
  exact Multiset.cons_le_cons _ kept

theorem leads_redeeming {rest : Handler} (leads : Leads library input s handler rest) :
    rest.redeeming = 0 ∨ ∃ verification number, handler = .deleteCode verification number := by
  cases leads with
  | deleted verification number => exact .inr ⟨verification,number,rfl⟩
  | _ => exact .inl rfl

theorem does_mailed (does : Does library input s handler s') :
    (mailed s' ≤ mailed s + handler.redeeming ∧ s'.mails = s.mails) ∨
      (mailed s' ≤ mailed s + {s.mails} ∧ s'.mails = s.mails + 1) := by
  cases does with
  | used verification checked factors updated present =>
    refine .inl ⟨le_of_eq ?_,rfl⟩
    cases checked with
    | totp steps => simp [mailed,Handler.redeeming,Checked.mails,Shared.unredeemed]
    | mail number =>
      simp only [mailed,Handler.redeeming,Checked.mails,Shared.unredeemed,← Multiset.coe_add,Multiset.coe_singleton,add_assoc]
  | sent scope factorId =>
    refine .inr ⟨?_,rfl⟩
    have put := unredeemed_put (s := s) (scope,factorId) ⟨input.code,s.mails⟩ (input.now + codeTtl)
    calc _ ≤ s.unredeemed + {s.mails} + (s.usedMails : Multiset Nat) := add_le_add put (le_refl _)
      _ = _ := by rw [mailed,add_right_comm]
  | redeemed verification number =>
    exact .inl ⟨(add_le_add (unredeemed_remove _) (le_refl _)).trans (Multiset.le_add_right _ _),rfl⟩
  | _ => exact .inl ⟨Multiset.le_add_right _ _,rfl⟩

variable (library) in
theorem act_mailed (unreplayed : Unreplayed input (s.wait input.now) handler) :
    let after := act library input s handler
    let left := mailed s + handler.redeeming
    (mailed after.1 + rest Handler.redeeming after.2 ≤ left ∧ after.1.mails = s.mails) ∨
      (mailed after.1 + rest Handler.redeeming after.2 ≤ left + {s.mails} ∧ after.1.mails = s.mails + 1) := by
  dsimp only
  have waited : mailed (s.wait input.now) ≤ mailed s := add_le_add (unredeemed_wait input.now) (le_refl _)
  have does := does_mailed (act_does library input handler (s := s))
  have leads : rest Handler.redeeming (act library input s handler).2 = 0 ∨
      ∃ verification number, handler = .deleteCode verification number := by
    cases next : (act library input s handler).2 with
    | none => exact .inl rfl
    | some rest => exact leads_redeeming (act_leads next)
  rcases leads with nothing | ⟨verification,number,rfl⟩
  · rw [nothing,add_zero]
    rcases does with ⟨kept,same⟩ | ⟨kept,more⟩
    · exact .inl ⟨kept.trans (add_le_add waited (le_refl _)),same⟩
    · refine .inr ⟨kept.trans ?_,more⟩
      exact add_le_add (waited.trans (Multiset.le_add_right _ _)) (le_refl _)
  · by_cases fails : input.fails
    · simp only [act,fails,if_true,abandon,rest_none,add_zero]
      exact .inl ⟨waited.trans (Multiset.le_add_right _ _),rfl⟩
    · have found := (unreplayed (by simpa using fails)).2 (verification,number) rfl
      have kept : mailed { s.wait input.now with
          codes := Expiring.remove (s.wait input.now).codes (verification.scope,verification.factor.id) } + {number} ≤
            mailed (s.wait input.now) := by
        unfold mailed
        rw [add_right_comm]
        exact add_le_add (unredeemed_found found) (le_refl _)
      simp only [act,if_neg fails,advance,rest_some,Handler.redeeming,add_zero]
      exact .inl ⟨kept.trans waited,rfl⟩

/-- The mails whose codes are in the cache, deleted or used: each is there once and has been sent. -/
def Single (config : Config Shared Handler) : Prop :=
  (mailed config.shared + owed Handler.redeeming config).Nodup ∧
    ∀ number ∈ mailed config.shared + owed Handler.redeeming config, number < config.shared.mails

theorem single_step (config : Config Shared Handler) (event : Event Request Input) (single : Single config)
    (unreplayed : Acting (fun input s => Unreplayed input (s.wait input.now)) config event) :
    Single ((machine library).step config event) := by
  cases event with
  | arrive request =>
    have nothing : (enter request).redeeming = 0 := by cases request <;> rfl
    unfold Single
    rw [owed_arrive]
    change (_ + (_ + (enter request).redeeming)).Nodup ∧ ∀ number ∈ _ + (_ + (enter request).redeeming),_
    rw [nothing,add_zero]
    exact single
  | resume index input =>
    cases found : config.inflight[index]? with
    | none => simpa only [Machine.step,found] using single
    | some handler =>
      have shared : ((machine library).step config (.resume index input)).shared =
          (act library input config.shared handler).1 := by
        simp only [Machine.step,found]
        rfl
      obtain ⟨once,sent⟩ := single
      unfold Single
      rcases act_mailed library (unreplayed handler found) with ⟨kept,same⟩ | ⟨kept,more⟩
      · have whole := account_resume (machine library) Handler.redeeming mailed config index input handler 0 found
          (by rw [add_zero]; exact kept)
        rw [add_zero] at whole
        rw [shared,same] at *
        exact ⟨Multiset.nodup_of_le whole once,fun number member => sent number (Multiset.mem_of_le whole member)⟩
      · have whole := account_resume (machine library) Handler.redeeming mailed config index input handler
          {config.shared.mails} found kept
        have new : config.shared.mails ∉ mailed config.shared + owed Handler.redeeming config :=
          fun member => lt_irrefl _ (sent _ member)
        rw [add_comm _ ({config.shared.mails} : Multiset Nat),Multiset.singleton_add] at whole
        rw [shared,more] at *
        refine ⟨Multiset.nodup_of_le whole (Multiset.nodup_cons.mpr ⟨new,once⟩),fun number member => ?_⟩
        rcases Multiset.mem_cons.mp (Multiset.mem_of_le whole member) with rfl | old
        · exact Nat.lt_succ_self _
        · exact (sent number old).trans (Nat.lt_succ_self _)

end Mails

theorem passwords_step {library : Library} (config : Config Shared Handler) (event : Event Request Input)
    (holds : Holds (fun s => s.usedCodes.Nodup) Distinct config)
    (unreplayed : Acting (fun input s => Unreplayed input (s.wait input.now)) config event) :
    Holds (fun s => s.usedCodes.Nodup) Distinct ((machine library).step config event) := by
  refine Holds.step ?_ ?_ ?_ config event holds unreplayed
  · intro s request _ use member
    cases request <;> cases member
  · intro input s handler unreplayed once distinct
    refine ⟨?_,fun rest next => leads_distinct (act_leads next)⟩
    by_cases fails : input.fails
    · change (act library input s handler).1.usedCodes.Nodup
      rw [act,if_pos fails]
      exact once
    · exact does_usedCodes (act_does library input handler) (unreplayed (by simpa using fails)).1 distinct once
  · exact fun _ _ _ _ _ _ _ distinct => distinct

/-- No code has been used twice, and none that is about to be used has been used. -/
def Unspent (config : Config Shared Handler) : Prop :=
  Holds (fun s => s.usedCodes.Nodup) Distinct config ∧ Single config

theorem Unspent.once {config : Config Shared Handler} (unspent : Unspent config) :
    config.shared.usedCodes.Nodup ∧ config.shared.usedMails.Nodup := by
  refine ⟨unspent.1.state,?_⟩
  have used : (config.shared.usedMails : Multiset Nat) ≤ mailed config.shared + owed Handler.redeeming config :=
    (Multiset.le_add_left _ _).trans (Multiset.le_add_right _ _)
  exact Multiset.coe_nodup.mp (Multiset.nodup_of_le used unspent.2.1)

def enrolledUser : Accounts := singleUser ⟨2,1,.totp,some [7],some 0,none,0⟩ { allowedFactors := ["totp"] }

def twoLogins (first second : Int) : List (Event Request Input) :=
  passwordLogin 3000 ++
    alone (.challenge 3 (.verify 2 (plainLibrary.generate [7] first))) 9 (secondsLater 3000) ++
    passwordLogin 3030 ++
    alone (.challenge 6 (.verify 2 (plainLibrary.generate [7] second))) 9 (secondsLater 3030)

end GrassWorker.Logins
