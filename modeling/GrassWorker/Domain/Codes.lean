import GrassWorker.Domain.Teams
import Mathlib.Data.List.Sort

/-! Codes that are good for one use, and the listings of those that are available, used, expired or revoked. -/
namespace GrassWorker.Codes
open Checks Teams Validator

abbrev codeLength : Nat := 40

abbrev codePrefixLength : Nat := 6

abbrev codeSuffixLength : Nat := 4

inductive CodeScope
  | registration
deriving DecidableEq, Repr

namespace CodeScope

def parse (value : String) : Option CodeScope := if value = "registration" then some .registration else none

def asStr : CodeScope → String
  | .registration => "registration"

end CodeScope

inductive CodeStatus
  | available | used | expired | revoked
deriving DecidableEq, Repr

namespace CodeStatus

def parse (value : String) : Option CodeStatus :=
  if value = "available" then some .available
  else if value = "used" then some .used
  else if value = "expired" then some .expired
  else if value = "revoked" then some .revoked
  else none

def asStr : CodeStatus → String
  | .available => "available"
  | .used => "used"
  | .expired => "expired"
  | .revoked => "revoked"

def all : List CodeStatus := [.available,.used,.expired,.revoked]

theorem mem_all (status : CodeStatus) : status ∈ all := by
  cases status <;> decide

end CodeStatus

structure Code where
  id : Uuid
  scope : String
  tokenHash : Text
  tokenPrefix : Text
  tokenSuffix : Text
  expiresAt : Option Timestamp
  usedAt : Option Timestamp
  usedByUserId : Option Uuid
  revokedAt : Option Timestamp
  createdByUserId : Option Uuid
  createdAt : Timestamp
deriving DecidableEq

abbrev CodeRows := Table Code Code.id fun code => [code.tokenHash]

def codePrefix (value : Text) : Text := value.take codePrefixLength

def codeSuffix (value : Text) : Text := value.drop (value.length - codeSuffixLength)

def lifecycleStatus (usedAt revokedAt expiresAt : Option Timestamp) (now : Timestamp) : CodeStatus :=
  if usedAt.isSome then .used
  else if revokedAt.isSome then .revoked
  else if ∃ instant ∈ expiresAt, instant ≤ now then .expired
  else .available

def Code.status (code : Code) (now : Timestamp) : CodeStatus := lifecycleStatus code.usedAt code.revokedAt code.expiresAt now

def prepareCode (hashToken : Text → Text) (value : Text) (id : Uuid) (scope : CodeScope) (expiresAt : Option Timestamp)
    (createdByUserId : Option Uuid) (now : Timestamp) : Code where
  id := id
  scope := scope.asStr
  tokenHash := hashToken value
  tokenPrefix := codePrefix value
  tokenSuffix := codeSuffix value
  expiresAt := expiresAt
  usedAt := none
  usedByUserId := none
  revokedAt := none
  createdByUserId := createdByUserId
  createdAt := now

inductive CodeUseError
  | notFound | wrongScope | used | expired | revoked
deriving DecidableEq, Repr

def CodeUseError.message : CodeUseError → String
  | .notFound => "code was not found"
  | .wrongScope => "code belongs to a different scope"
  | .used => "code has already been used"
  | .expired => "code has expired"
  | .revoked => "code has been revoked"

def validateRedemption (code : Code) (expectedScope : CodeScope) (now : Timestamp) : Except CodeUseError Unit := do
  refuse (code.scope ≠ expectedScope.asStr) .wrongScope
  match code.status now with
  | .available => .ok ()
  | .used => .error .used
  | .expired => .error .expired
  | .revoked => .error .revoked

def ListedBefore (first second : Code) : Prop :=
  second.createdAt < first.createdAt ∨ (first.createdAt = second.createdAt ∧ second.id ≤ first.id)

instance : DecidableRel ListedBefore := fun first second =>
  inferInstanceAs (Decidable (second.createdAt < first.createdAt ∨ (first.createdAt = second.createdAt ∧ second.id ≤ first.id)))

def ofScope (scope : Option CodeScope) (code : Code) : Bool := ∀ wanted ∈ scope, code.scope = wanted.asStr

/-- The filter of a listing, as `query_codes` writes it. A comparison with no date selects nothing. -/
def selects (status : Option CodeStatus) (now : Timestamp) (code : Code) : Bool :=
  match status with
  | some .available => code.usedAt = none ∧ code.revokedAt = none ∧
      (code.expiresAt = none ∨ ∃ instant ∈ code.expiresAt, now < instant)
  | some .used => code.usedAt.isSome
  | some .expired => code.usedAt = none ∧ code.revokedAt = none ∧ ∃ instant ∈ code.expiresAt, instant ≤ now
  | some .revoked => code.revokedAt.isSome
  | none => true

def queryCodes (scope : Option CodeScope) (status : Option CodeStatus) (now : Timestamp) (rows : List Code) : List Code :=
  (rows.filter fun code => ofScope scope code && selects status now code).insertionSort ListedBefore

structure GenerateCodesRequest where
  scope : String
  count : Nat
  expiresInDays : Option Int
  neverExpires : Bool
deriving DecidableEq

structure GenerationInput where
  scope : CodeScope
  count : Nat
  expiresAt : Option Timestamp
deriving DecidableEq

def day : Int := 86400 * 1000000

def validateGeneration (request : GenerateCodesRequest) (now : Timestamp) : Except String GenerationInput := do
  let scope ← match CodeScope.parse (String.ofList (trim request.scope.toList)) with
    | some scope => .ok scope
    | none => .error "code scope is not registered"
  refuse (¬(1 ≤ request.count ∧ request.count ≤ 500)) "code count must be between 1 and 500"
  if request.neverExpires then return ⟨scope,request.count,none⟩
  else
    let days := request.expiresInDays.getD 30
    refuse (¬(1 ≤ days ∧ days ≤ 3650)) "expiration must be between 1 and 3650 days"
    return ⟨scope,request.count,some (now + days * day)⟩

section Status
variable {code : Code} {scope : CodeScope} {now : Timestamp}

theorem status_available (open' : code.status now = .available) :
    code.usedAt = none ∧ code.revokedAt = none ∧ ∀ instant ∈ code.expiresAt, now < instant := by
  unfold Code.status lifecycleStatus at open'
  split at open'
  · cases open'
  · rename_i unused
    split at open'
    · cases open'
    · rename_i kept
      split at open'
      · cases open'
      · rename_i fresh
        refine ⟨by simpa using unused,by simpa using kept,fun instant member => ?_⟩
        by_contra late
        exact fresh ⟨instant,member,not_lt.mp late⟩

theorem validateRedemption_ok (valid : validateRedemption code scope now = .ok ()) : code.status now = .available := by
  have checked := (refuse_bind_eq_ok.mp valid).2
  cases status : code.status now with
  | available => rfl
  | used | expired | revoked =>
    rw [status] at checked
    cases checked

theorem selects_eq_status (apart : ¬(code.usedAt.isSome ∧ code.revokedAt.isSome)) (status : CodeStatus) (now : Timestamp) :
    selects (some status) now code = decide (code.status now = status) := by
  obtain ⟨id,codeScope,tokenHash,tokenPrefix,tokenSuffix,expiresAt,usedAt,usedByUserId,revokedAt,createdBy,createdAt⟩ := code
  cases usedAt with
  | some usedAt =>
    cases revokedAt with
    | some revokedAt => exact absurd ⟨rfl,rfl⟩ apart
    | none => cases status <;> simp [selects,Code.status,lifecycleStatus]
  | none =>
    cases revokedAt with
    | some revokedAt => cases status <;> simp [selects,Code.status,lifecycleStatus]
    | none =>
      cases expiresAt with
      | none => cases status <;> simp [selects,Code.status,lifecycleStatus]
      | some expiresAt =>
        by_cases late : expiresAt ≤ now
        · cases status <;> simp [selects,Code.status,lifecycleStatus,late]
        · cases status <;> simp [selects,Code.status,lifecycleStatus,late,lt_of_not_ge late]

end Status

section Listing
variable {rows : List Code} (scope : Option CodeScope) (now : Timestamp)

theorem mem_queryCodes {status : Option CodeStatus} {code : Code} :
    code ∈ queryCodes scope status now rows ↔ code ∈ rows ∧ ofScope scope code = true ∧ selects status now code = true := by
  unfold queryCodes
  rw [List.mem_insertionSort,List.mem_filter,Bool.and_eq_true]

theorem perm_classes {α β : Type} [DecidableEq β] (classes : List β) (once : classes.Nodup) (classOf : α → β)
    (complete : ∀ value, classOf value ∈ classes) (items : List α) :
    (classes.flatMap fun part => items.filter fun item => classOf item = part).Perm items := by
  induction items with
  | nil => simp
  | cons item items ih =>
    obtain ⟨front,back,split⟩ := List.append_of_mem (complete item)
    rw [split] at once ih ⊢
    obtain ⟨absent,_⟩ := List.nodup_cons.mp (List.nodup_middle.mp once)
    have others : ∀ part ∈ front ++ back, (item :: items).filter (fun other => classOf other = part) =
        items.filter fun other => classOf other = part := by
      intro part member
      refine List.filter_cons_of_neg ?_
      simp only [decide_eq_true_eq]
      rintro rfl
      exact absent member
    have left := List.flatMap_congr fun part inside => others part (List.mem_append_left back inside)
    have right := List.flatMap_congr fun part inside => others part (List.mem_append_right front inside)
    rw [List.flatMap_append,List.flatMap_cons] at ih ⊢
    rw [left,right,List.filter_cons_of_pos (by simp),List.cons_append]
    exact List.perm_middle.trans (ih.cons item)

theorem queryCodes_partition (apart : ∀ code ∈ rows, ¬(code.usedAt.isSome ∧ code.revokedAt.isSome)) :
    (CodeStatus.all.flatMap fun status => queryCodes scope (some status) now rows).Perm (queryCodes scope none now rows) := by
  have each : ∀ status ∈ CodeStatus.all, (queryCodes scope (some status) now rows).Perm
      ((rows.filter (ofScope scope)).filter fun code => code.status now = status) := by
    intro status _
    refine (List.perm_insertionSort _ _).trans (List.Perm.of_eq ?_)
    rw [List.filter_filter]
    refine List.filter_congr fun code member => ?_
    rw [selects_eq_status (apart code member),Bool.and_comm]
  have classes := perm_classes CodeStatus.all (by decide) (fun code : Code => code.status now)
    (fun code => CodeStatus.mem_all _) (rows.filter (ofScope scope))
  have whole : (queryCodes scope none now rows).Perm (rows.filter (ofScope scope)) := by
    refine (List.perm_insertionSort _ _).trans (List.Perm.of_eq ?_)
    exact List.filter_congr fun code _ => Bool.and_true _
  exact (List.Perm.flatMap_left _ each).trans (classes.trans whole.symm)

theorem mem_listing {status : CodeStatus} {code : Code} (apart : ∀ code ∈ rows, ¬(code.usedAt.isSome ∧ code.revokedAt.isSome)) :
    code ∈ queryCodes scope (some status) now rows ↔ code ∈ queryCodes scope none now rows ∧ code.status now = status := by
  rw [mem_queryCodes,mem_queryCodes,and_assoc]
  refine and_congr_right fun member => ?_
  rw [selects_eq_status (apart code member),decide_eq_true_eq]
  simp [selects]

end Listing
end GrassWorker.Codes
