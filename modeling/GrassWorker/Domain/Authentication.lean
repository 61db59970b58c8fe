import GrassWorker.Entity
import GrassWorker.Foundations.Checks
import Mathlib.Data.Finset.Card
import Mathlib.Data.List.Sort

/-! Second factors: the policies that ask for them, and what it means that the factors a
user has meet them. -/
namespace GrassWorker.Authentication
open Checks

inductive UserStatus
  | active | disabled
deriving DecidableEq, Repr

inductive PlatformRole
  | user | admin
deriving DecidableEq, Repr

inductive MfaFactorKind
  | totp | email
deriving DecidableEq, Repr

namespace MfaFactorKind

def asStr : MfaFactorKind → String
  | .totp => "totp"
  | .email => "email"

def parse (value : String) : Option MfaFactorKind :=
  if value = "totp" then some .totp else if value = "email" then some .email else none

end MfaFactorKind

abbrev Secret := List UInt8

structure UserMfaFactor where
  id : Uuid
  userId : Uuid
  kind : MfaFactorKind
  secretEnvelope : Option Secret
  verifiedAt : Option Timestamp
  lastUsedAt : Option Timestamp
  createdAt : Timestamp
deriving DecidableEq

structure User where
  id : Uuid
  email : List Char
  status : UserStatus
  authVersion : Int
  platformRole : PlatformRole
  emailVerifiedAt : Option Timestamp
  lastLoginAt : Option Timestamp
  deletedAt : Option Timestamp
deriving DecidableEq

structure PasswordCredential where
  id : Uuid
  userId : Uuid
  passwordHash : List Char
deriving DecidableEq

inductive MfaEnforcement
  | none | platformAdmins | allUsers
deriving DecidableEq, Repr

structure MfaPolicy where
  allowedFactors : List String := []
  enforcement : MfaEnforcement := .none
  minimumFactors : Nat := 0
  requiredFactors : List String := []
deriving DecidableEq

structure UserMfaPolicy where
  inheritPlatform : Bool := true
  minimumFactors : Nat := 0
  requiredFactors : List String := []
deriving DecidableEq

def UserMfaPolicy.validate (policy : UserMfaPolicy) (platform : MfaPolicy) : Except String Unit :=
  if policy.inheritPlatform then
    refuse (policy.minimumFactors ≠ 0 ∨ policy.requiredFactors ≠ [])
      "inherited user MFA policy cannot define custom requirements"
  else do
    refuse (platform.allowedFactors.length < policy.minimumFactors)
      "user minimum MFA factors cannot exceed the enabled methods"
    refuse (platform.allowedFactors.length < policy.requiredFactors.length)
      "user required MFA factors cannot exceed the enabled methods"
    refuse (∃ factor ∈ policy.requiredFactors, MfaFactorKind.parse factor = none ∨ factor ∉ platform.allowedFactors)
      "user required MFA factors must be enabled methods"
    refuse (policy.requiredFactors.dedup.length ≠ policy.requiredFactors.length)
      "user required MFA factors must not contain duplicates"

structure UserMfaPolicyRow where
  userId : Uuid
  inheritPlatform : Bool
  minimumFactors : Int
  requiredFactors : List String
deriving DecidableEq

def userMfaPolicyFromRecord (row : UserMfaPolicyRow) : UserMfaPolicy where
  inheritPlatform := row.inheritPlatform
  minimumFactors := row.minimumFactors.toNat
  requiredFactors := row.requiredFactors

def userMfaPolicyRow (userId : Uuid) (policy : UserMfaPolicy) : UserMfaPolicyRow where
  userId := userId
  inheritPlatform := policy.inheritPlatform
  minimumFactors := (policy.minimumFactors : Int).bmod 65536
  requiredFactors := policy.requiredFactors

structure MfaRequirements where
  minimumFactors : Nat
  requiredFactors : List MfaFactorKind
deriving DecidableEq

namespace MfaRequirements

def isEnforced (requirements : MfaRequirements) : Bool :=
  0 < requirements.minimumFactors ∨ requirements.requiredFactors ≠ []

def kinds (factors : List UserMfaFactor) : List MfaFactorKind :=
  (factors.filter fun factor => factor.verifiedAt.isSome).foldl
    (fun kinds factor => if factor.kind ∈ kinds then kinds else kinds ++ [factor.kind]) []

def metBy (requirements : MfaRequirements) (factors : List UserMfaFactor) : Bool :=
  (∀ required ∈ requirements.requiredFactors, required ∈ kinds factors) ∧
    requirements.minimumFactors ≤ (kinds factors).length

end MfaRequirements

namespace MfaPolicy

def validate (policy : MfaPolicy) (mailEnabled : Bool) : Except String Unit := do
  refuse (2 < policy.allowedFactors.length) "allowed MFA factors must not contain duplicates"
  refuse (policy.allowedFactors = [] ∧ policy.enforcement ≠ .none) "enforced MFA requires at least one allowed factor"
  refuse (policy.enforcement ≠ .none ∧ policy.minimumFactors = 0 ∧ policy.requiredFactors = [])
    "enforced MFA requires a minimum or required method"
  refuse (∃ factor ∈ policy.allowedFactors, MfaFactorKind.parse factor = none)
    "allowed MFA factors must be totp or email"
  refuse (policy.allowedFactors.dedup.length ≠ policy.allowedFactors.length)
    "allowed MFA factors must not contain duplicates"
  refuse ("email" ∈ policy.allowedFactors ∧ mailEnabled = false) "email MFA requires an enabled mail transport"
  refuse (policy.allowedFactors.length < policy.minimumFactors) "minimum MFA factors cannot exceed the enabled methods"
  refuse (policy.allowedFactors.length < policy.requiredFactors.length)
    "required MFA factors cannot exceed the enabled methods"
  refuse (∃ factor ∈ policy.requiredFactors, MfaFactorKind.parse factor = none ∨ factor ∉ policy.allowedFactors)
    "required MFA factors must be enabled methods"
  refuse (policy.requiredFactors.dedup.length ≠ policy.requiredFactors.length)
    "required MFA factors must not contain duplicates"

def allows (policy : MfaPolicy) (kind : MfaFactorKind) : Bool := kind.asStr ∈ policy.allowedFactors

def platformApplies (policy : MfaPolicy) (role : PlatformRole) : Bool :=
  match policy.enforcement with
  | .none => false
  | .platformAdmins => role = .admin
  | .allUsers => true

def requiring (required : List MfaFactorKind) (factors : List String) : List MfaFactorKind :=
  factors.foldl (fun required factor =>
    match MfaFactorKind.parse factor with
    | some kind => if kind ∈ required then required else required ++ [kind]
    | none => required) required

def requirementsFor (policy : MfaPolicy) (userPolicy : UserMfaPolicy) (role : PlatformRole) : MfaRequirements :=
  let minimumFactors := if policy.platformApplies role then policy.minimumFactors else 0
  let platformRequiredFactors := if policy.platformApplies role then policy.requiredFactors else []
  let requiredFactors := platformRequiredFactors.filterMap MfaFactorKind.parse
  let minimumFactors := if userPolicy.inheritPlatform then minimumFactors else max minimumFactors userPolicy.minimumFactors
  let requiredFactors := if userPolicy.inheritPlatform then requiredFactors
    else requiring requiredFactors userPolicy.requiredFactors
  { minimumFactors := max minimumFactors requiredFactors.length, requiredFactors }

end MfaPolicy

section Met
open MfaRequirements

def heldKinds (factors : List UserMfaFactor) : Finset MfaFactorKind :=
  ((factors.filter fun factor => factor.verifiedAt.isSome).map UserMfaFactor.kind).toFinset

theorem mem_heldKinds {factors : List UserMfaFactor} {kind : MfaFactorKind} :
    kind ∈ heldKinds factors ↔ ∃ factor ∈ factors, factor.verifiedAt.isSome ∧ factor.kind = kind := by
  simp [heldKinds,and_assoc]

private theorem collected (factors : List UserMfaFactor) (start : List MfaFactorKind) (once : start.Nodup) :
    let kinds := factors.foldl (fun kinds factor => if factor.kind ∈ kinds then kinds else kinds ++ [factor.kind]) start
    kinds.Nodup ∧ kinds.toFinset = start.toFinset ∪ (factors.map UserMfaFactor.kind).toFinset := by
  induction factors generalizing start with
  | nil => simpa using once
  | cons factor factors ih =>
    simp only [List.foldl_cons,List.map_cons,List.toFinset_cons]
    by_cases known : factor.kind ∈ start
    · rw [if_pos known]
      obtain ⟨distinct,same⟩ := ih start once
      refine ⟨distinct,same.trans ?_⟩
      rw [Finset.union_insert,Finset.insert_eq_of_mem]
      exact Finset.mem_union_left _ (List.mem_toFinset.mpr known)
    · rw [if_neg known]
      have extended : (start ++ [factor.kind]).Nodup := by
        rw [List.nodup_append]
        exact ⟨once,List.nodup_singleton _,by
          intro kind member other last same
          rw [List.mem_singleton.mp last] at same
          exact known (same ▸ member)⟩
      obtain ⟨distinct,same⟩ := ih (start ++ [factor.kind]) extended
      refine ⟨distinct,same.trans ?_⟩
      ext kind
      simp only [List.toFinset_append,Finset.mem_union,Finset.mem_insert,List.mem_toFinset,List.mem_singleton]
      tauto

/-- The factors meet the requirements when every required kind and as many kinds as the
minimum can be proved. -/
theorem metBy_iff (requirements : MfaRequirements) (factors : List UserMfaFactor) :
    requirements.metBy factors ↔
      (∀ required ∈ requirements.requiredFactors, required ∈ heldKinds factors) ∧
        requirements.minimumFactors ≤ (heldKinds factors).card := by
  obtain ⟨distinct,same⟩ := collected (factors.filter fun factor => factor.verifiedAt.isSome) [] List.nodup_nil
  have held : (kinds factors).toFinset = heldKinds factors := by
    rw [kinds,same]
    simp [heldKinds]
  have length : (kinds factors).length = (heldKinds factors).card := by
    rw [← held]
    exact (List.toFinset_card_of_nodup distinct).symm
  simp only [metBy,decide_eq_true_eq,length,← held,List.mem_toFinset]

theorem metBy_congr (requirements : MfaRequirements) {factors others : List UserMfaFactor}
    (same : heldKinds factors = heldKinds others) : requirements.metBy factors = requirements.metBy others := by
  rw [Bool.eq_iff_iff,metBy_iff,metBy_iff,same]

def Satisfied (requirements : MfaRequirements) (factors : List UserMfaFactor) : Prop :=
  requirements.isEnforced → requirements.metBy factors

instance (requirements : MfaRequirements) (factors : List UserMfaFactor) : Decidable (Satisfied requirements factors) :=
  inferInstanceAs (Decidable (_ → _))

end Met
end GrassWorker.Authentication
