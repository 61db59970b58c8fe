import GrassWorker.Cache.Backend
import Mathlib.Logic.Function.Basic

/-! What a cache is for: the texts its keys hold until their deadlines, and what each
call of the trait does to them. Nothing in here is a backend's own. -/
namespace GrassWorker.CacheContents
open CacheBackend Decimal

structure Held where
  text : Text
  deadline : Option Seconds
deriving DecidableEq

abbrev Contents := Key → Option Held

def empty : Contents := fun _ => none

section Operations
variable (contents : Contents) (key : Key)

def put (held : Option Held) : Contents := Function.update contents key held

def number : Int := ((contents key).bind fun held => parse held.text).getD 0

def deadline : Option Seconds := (contents key).bind Held.deadline

def wait (now : Seconds) : Contents := fun key => (contents key).filter fun held => held.deadline.all (now < ·)

def step (amount : Int) : Contents × Result :=
  (put contents key (some ⟨print (number contents key + amount),deadline contents key⟩),
    .number (number contents key + amount))

def consume (now : Seconds) (check : QuotaCounterCheck) : Contents :=
  put contents check.key (some ⟨print (number contents check.key + check.amount),
    (deadline contents check.key).or (check.ttl.map (now + ·))⟩)

def adjust (amount : Int) : Contents × Int :=
  let next := max (number contents key + amount) 0
  (put contents key (some ⟨print next,deadline contents key⟩),next)

end Operations

def call (now : Seconds) (contents : Contents) : Call → Contents × Result
  | .get key => (contents,.value ((contents key).map Held.text))
  | .take key => (put contents key none,.value ((contents key).map Held.text))
  | .set key value ttl => (put contents key (some ⟨value,some (now + ttl)⟩),.done)
  | .updateIfPresent key value ttl =>
    if (contents key).isNone then (contents,.flag false)
    else (put contents key (some ⟨value,some (now + ttl)⟩),.flag true)
  | .delete key => (put contents key none,.done)
  | .incr key => step contents key 1
  | .decr key => step contents key (-1)
  | .setIfAbsent key value ttl =>
    if (contents key).isSome then (contents,.flag false)
    else (put contents key (some ⟨value,some (now + ttl)⟩),.flag true)
  | .checkAndConsume checks =>
    match checks.find? fun check => !check.fits (number contents check.key) with
    | some check => (contents,.outcome (.denied check.key))
    | none => (checks.foldl (fun contents check => consume contents now check) contents,.outcome .allowed)
  | .adjustCounter key amount => ((adjust contents key amount).1,.number (adjust contents key amount).2)
  | .acquireSlot key limit ttl =>
    if 0 ≤ limit ∧ limit < number contents key + 1 then (contents,.flag false)
    else (put contents key (some ⟨print (number contents key + 1),some (now + ttl)⟩),.flag true)
  | .releaseSlot key => ((adjust contents key (-1)).1,.done)

/-! Which calls the contents promise something about. -/

inductive Kind
  | counter | text
deriving DecidableEq, Repr

/-- A counter key is changed as a number and set to numbers; other keys are not changed as numbers. -/
def Consistent (kind : Key → Kind) : Call → Prop
  | .get _ | .take _ | .delete _ => True
  | .set key value _ | .updateIfPresent key value _ | .setIfAbsent key value _ =>
    kind key = .counter → ∃ n, value = print n
  | .incr key | .decr key | .adjustCounter key _ | .acquireSlot key _ _ | .releaseSlot key => kind key = .counter
  | .checkAndConsume checks => ∀ check ∈ checks, kind check.key = .counter

def Lifetimes : Call → Prop
  | .set _ _ ttl | .updateIfPresent _ _ ttl | .setIfAbsent _ _ ttl | .acquireSlot _ _ ttl => 1 ≤ ttl
  | .checkAndConsume checks => ∀ check ∈ checks, ∀ ttl ∈ check.ttl, 1 ≤ ttl
  | _ => True

section Lemmas
variable {contents : Contents} {key other : Key} {now : Seconds}

theorem put_same (held : Option Held) : put contents key held key = held := by
  unfold put
  rw [Function.update_self]

theorem put_other (different : other ≠ key) (held : Option Held) : put contents key held other = contents other := by
  unfold put
  rw [Function.update_of_ne different]

theorem put_put (first second : Option Held) : put (put contents key first) key second = put contents key second := by
  unfold put
  rw [Function.update_idem]

theorem put_self (held : Option Held) (found : contents key = held) : put contents key held = contents := by
  unfold put
  rw [← found,Function.update_eq_self]

def Ahead (now : Seconds) (contents : Contents) : Prop :=
  ∀ key held, contents key = some held → ∀ expiry, held.deadline = some expiry → now < expiry

theorem ahead_wait : Ahead now (wait contents now) := by
  intro key held found expiry same
  have lasts := (Option.filter_eq_some_iff.mp found).2
  rw [same] at lasts
  exact of_decide_eq_true lasts

theorem Ahead.put (ahead : Ahead now contents) {held : Option Held}
    (lasts : ∀ kept, held = some kept → ∀ expiry, kept.deadline = some expiry → now < expiry) :
    Ahead now (put contents key held) := by
  intro other kept found
  by_cases same : other = key
  · rw [same,put_same] at found
    exact lasts kept found
  · rw [put_other same] at found
    exact ahead other kept found

theorem Ahead.deadline (ahead : Ahead now contents) {expiry : Seconds} (found : deadline contents key = some expiry) :
    now < expiry := by
  obtain ⟨held,present,same⟩ := Option.bind_eq_some_iff.mp found
  exact ahead key held present expiry same

end Lemmas

end GrassWorker.CacheContents
