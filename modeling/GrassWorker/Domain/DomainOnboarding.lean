import GrassWorker.Domain.ManagedCertificates

/-! The connection checks of custom domains: what a check finds in the DNS, and what it makes of a binding. -/
namespace GrassWorker.DomainOnboarding
open Hosts ManagedCertificates

inductive ConnectionState
  | ready | unresolved | mismatch | entryUnavailable
deriving DecidableEq, Repr

def ConnectionState.message : ConnectionState → Option String
  | ready => none
  | unresolved => some "No public DNS address was found. Add the displayed CNAME record and wait for DNS propagation."
  | mismatch =>
    some "This domain does not point to the selected regional entry. Correct its CNAME or flattened DNS records."
  | entryUnavailable =>
    some "The platform's regional entry has no public DNS address. An administrator must configure its DNS records."

def ConnectionState.checkStatus : ConnectionState → CheckStatus
  | ready => .ready
  | unresolved => .unresolved
  | mismatch => .mismatch
  | entryUnavailable => .entryUnavailable

inductive CheckResult
  | answered (state : ConnectionState) (ownership : DnsVerification)
  | noEntry
  | failed
deriving DecidableEq, Repr

def checkLease : Int := 45000000

def nextDelay (id : Uuid) (now : Timestamp) : Int :=
  (60 + (((id % 2 ^ 64) ^^^ (unixTimestamp now % 2 ^ 64).toNat) % 61 : Nat)) * 1000000

/-- The lease is free, and without `force` the check is due. -/
def claimable (check : DomainOnboarding) (force : Bool) (now : Timestamp) : Bool :=
  (check.leaseUntil.all fun until' => until' ≤ now) ∧ (force ∨ check.nextCheckAt ≤ now)

def entryUnchanged (current original : Option RegionalIngress) : Bool :=
  match current,original with
  | some current,some original => current.enabled ∧ current.deletedAt.isNone ∧ current.hostname = original.hostname
  | _,_ => false

def applied (current : HostBinding) (unchanged : Bool) : CheckResult → Option HostBinding
  | .answered state ownership =>
    if current.status = .disabled ∨ unchanged = false then none
    else some (applyOwnership (state = .ready) ownership current)
  | _ => none

def statusAndError (current : HostBinding) (unchanged : Bool) (result : CheckResult) : CheckStatus × Option String :=
  if current.status = .disabled then (.pending,none)
  else if unchanged = false then
    (.entryUnavailable,some "This region has no enabled entry. Contact a platform administrator.")
  else
    match result with
    | .answered state _ => (state.checkStatus,state.message)
    | .noEntry => (.entryUnavailable,some "This region has no enabled entry.")
    | .failed => (.error,some "Public DNS could not be checked. The server will retry automatically.")

def checked (now : Timestamp) (status : CheckStatus × Option String) (check : DomainOnboarding) : DomainOnboarding :=
  { check with
    dnsStatus := status.1, dnsError := status.2, checkedAt := some now
    nextCheckAt := now + nextDelay check.bindingId now, leaseUntil := none }

/-- An applied answer leaves a binding as verified as it found the ownership, and is not applied to a disabled one. -/
theorem applied_some {current after : HostBinding} {unchanged : Bool} {result : CheckResult}
    (applies : applied current unchanged result = some after) : current.status ≠ .disabled ∧ after.id = current.id ∧
      ∃ state ownership, result = .answered state ownership ∧ (after.ownershipStatus = .verified → ownership = .verified) := by
  cases result with
  | answered state ownership =>
    simp only [applied] at applies
    split at applies
    · cases applies
    · rename_i live
      cases applies
      refine ⟨fun disabled => live (.inl disabled),applyOwnership_id _ _ _,state,ownership,rfl,?_⟩
      cases ownership with
      | verified => exact fun _ => rfl
      | missing | mismatch => exact nofun
  | noEntry | failed => cases applies

end GrassWorker.DomainOnboarding
