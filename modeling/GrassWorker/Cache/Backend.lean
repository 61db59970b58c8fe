import GrassWorker.Foundations.Decimal

/-! The calls of the cache trait and what they return. Times and lifetimes are in
whole seconds. -/
namespace GrassWorker.CacheBackend

abbrev Key := String
abbrev Text := List Char
abbrev Seconds := Int

structure QuotaCounterCheck where
  key : Key
  amount : Int
  /-- A negative maximum is no limit. -/
  max : Int
  ttl : Option Seconds
deriving DecidableEq

inductive QuotaCheckOutcome
  | allowed
  | denied (key : Key)
deriving DecidableEq, Repr

inductive Call
  | get (key : Key)
  | take (key : Key)
  | set (key : Key) (value : Text) (ttl : Seconds)
  | updateIfPresent (key : Key) (value : Text) (ttl : Seconds)
  | delete (key : Key)
  | incr (key : Key)
  | decr (key : Key)
  | setIfAbsent (key : Key) (value : Text) (ttl : Seconds)
  | checkAndConsume (checks : List QuotaCounterCheck)
  | adjustCounter (key : Key) (amount : Int)
  | acquireSlot (key : Key) (max : Int) (ttl : Seconds)
  | releaseSlot (key : Key)
deriving DecidableEq

/-- `failed` is an error of the backend. -/
inductive Result
  | done
  | flag (value : Bool)
  | number (value : Int)
  | value (value : Option Text)
  | outcome (outcome : QuotaCheckOutcome)
  | failed
deriving DecidableEq

/-- Whether one more `amount` stays under the maximum. -/
def QuotaCounterCheck.fits (check : QuotaCounterCheck) (current : Int) : Bool :=
  ¬(0 ≤ check.max ∧ check.max < current + check.amount)

end GrassWorker.CacheBackend
