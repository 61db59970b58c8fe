import GrassWorker.Cache.Backend

/-! The in-memory backend. An entry is one text that starts with the second it
expires at, or a bare number that never expires; the cache drops the entry when its
deadline is reached. Each method runs under one lock or touches the cache once. -/
namespace GrassWorker.MokaBackend
open CacheBackend Decimal

structure Entry where
  raw : Text
  deadline : Option Seconds
deriving DecidableEq

abbrev MokaCache := Key → Option Entry

def splitOnce (raw : Text) : Option (Text × Text) :=
  if ':' ∈ raw then some (raw.takeWhile (· ≠ ':'),(raw.dropWhile (· ≠ ':')).tail) else none

def extractValue (raw : Text) : Option (Seconds × Text) := do
  let (stamp,value) ← splitOnce raw
  return (← parse stamp,value)

/-- What `get` returns of a stored text. -/
def stored (raw : Text) : Text := ((extractValue raw).map Prod.snd).getD raw

def format (expiry : Seconds) (value : Text) : Text := print expiry ++ ':' :: value

section Methods
variable (now : Seconds) (cache : MokaCache) (key : Key)

/-- `MokaExpiry`: how long a text is kept when it is inserted. -/
def expiryForValue (raw : Text) : Option Seconds :=
  (extractValue raw).map fun parts => now + max (parts.1 - now) 0

def Entry.alive (entry : Entry) : Bool := entry.deadline.all (now < ·)

def peek : Option Text := ((cache key).filter (Entry.alive now)).map Entry.raw

def insert (raw : Text) : MokaCache :=
  fun other => if other = key then some ⟨raw,expiryForValue now raw⟩ else cache other

def invalidate : MokaCache := fun other => if other = key then none else cache other

def readCounterEntry : Int × Option Seconds :=
  match peek now cache key with
  | some raw =>
    match extractValue raw with
    | some (expiry,value) => ((parse value).getD 0,some expiry)
    | none => ((parse raw).getD 0,none)
  | none => (0,none)

def readCounter : Int := (readCounterEntry now cache key).1

def writeCounter (value : Int) (expiry : Option Seconds) : MokaCache :=
  insert now cache key (match expiry with
    | some expiry => format expiry (print value)
    | none => print value)

def get : Option Text := (peek now cache key).map stored

def set (value : Text) (ttl : Seconds) : MokaCache := insert now cache key (format (now + ttl) value)

def updateIfPresent (value : Text) (ttl : Seconds) : MokaCache × Bool :=
  if (peek now cache key).isNone then (cache,false) else (set now cache key value ttl,true)

def setIfAbsent (value : Text) (ttl : Seconds) : MokaCache × Bool :=
  if (peek now cache key).isSome then (cache,false) else (set now cache key value ttl,true)

/-- `incr` and `decr`, which write the number without an expiry. -/
def step (amount : Int) : MokaCache × Int :=
  let next := (((peek now cache key).bind fun raw => parse (stored raw)).getD 0) + amount
  (insert now cache key (print next),next)

def consume (check : QuotaCounterCheck) : MokaCache :=
  let (current,existing) := readCounterEntry now cache check.key
  writeCounter now cache check.key (current + check.amount) ((check.ttl.map (now + ·)).or existing)

def checkAndConsume (checks : List QuotaCounterCheck) : MokaCache × QuotaCheckOutcome :=
  match checks.find? fun check => !check.fits (readCounter now cache check.key) with
  | some check => (cache,.denied check.key)
  | none => (checks.foldl (consume now) cache,.allowed)

def adjustCounter (amount : Int) : MokaCache × Int :=
  let (current,expiry) := readCounterEntry now cache key
  let next := max (current + amount) 0
  (writeCounter now cache key next expiry,next)

def acquireSlot (limit : Int) (ttl : Seconds) : MokaCache × Bool :=
  let current := readCounter now cache key
  if 0 ≤ limit ∧ limit < current + 1 then (cache,false)
  else (writeCounter now cache key (current + 1) (some (now + ttl)),true)

def releaseSlot : MokaCache :=
  let (current,expiry) := readCounterEntry now cache key
  writeCounter now cache key (max (current - 1) 0) expiry

end Methods

def call (now : Seconds) (cache : MokaCache) : Call → MokaCache × Result
  | .get key => (cache,.value (get now cache key))
  | .take key => (invalidate cache key,.value (get now cache key))
  | .set key value ttl => (set now cache key value ttl,.done)
  | .updateIfPresent key value ttl => (updateIfPresent now cache key value ttl).map id .flag
  | .delete key => (invalidate cache key,.done)
  | .incr key => (step now cache key 1).map id .number
  | .decr key => (step now cache key (-1)).map id .number
  | .setIfAbsent key value ttl => (setIfAbsent now cache key value ttl).map id .flag
  | .checkAndConsume checks => (checkAndConsume now cache checks).map id .outcome
  | .adjustCounter key amount => (adjustCounter now cache key amount).map id .number
  | .acquireSlot key limit ttl => (acquireSlot now cache key limit ttl).map id .flag
  | .releaseSlot key => (releaseSlot now cache key,.done)

/-! What a stored text means. -/

theorem colon_free (n : Int) : ':' ∉ print n := by
  intro member
  rcases print_characters member with sign | digit
  · cases sign
  · cases digit

theorem extractValue_print (n : Int) : extractValue (print n) = none := by
  unfold extractValue splitOnce
  rw [if_neg (colon_free n)]
  rfl

theorem extractValue_format (expiry : Seconds) (value : Text) : extractValue (format expiry value) = some (expiry,value) := by
  have clean : ∀ c ∈ print expiry, (decide (c ≠ ':')) = true := by
    intro c member
    exact decide_eq_true fun same => colon_free expiry (same ▸ member)
  have before : (format expiry value).takeWhile (· ≠ ':') = print expiry := by
    unfold format
    rw [List.takeWhile_append_of_pos clean]
    simp
  have after : (format expiry value).dropWhile (· ≠ ':') = ':' :: value := by
    unfold format
    rw [List.dropWhile_append_of_pos clean]
    simp
  have colon : ':' ∈ format expiry value := by simp [format]
  unfold extractValue splitOnce
  rw [if_pos colon,before,after]
  simp [parse_print]

theorem stored_format (expiry : Seconds) (value : Text) : stored (format expiry value) = value := by
  unfold stored
  rw [extractValue_format]
  rfl

theorem stored_print (n : Int) : stored (print n) = print n := by
  unfold stored
  rw [extractValue_print]
  rfl

section Reading
variable {now : Seconds} {cache : MokaCache} {key : Key}

theorem insert_same (raw : Text) : insert now cache key raw key = some ⟨raw,expiryForValue now raw⟩ := if_pos rfl

theorem insert_other {other : Key} (different : other ≠ key) (raw : Text) :
    insert now cache key raw other = cache other := if_neg different

theorem readCounterEntry_fst :
    (readCounterEntry now cache key).1 = (((peek now cache key).bind fun raw => parse (stored raw)).getD 0) := by
  unfold readCounterEntry
  cases peek now cache key with
  | none => rfl
  | some raw =>
    simp only [Option.bind_some]
    unfold stored
    cases extractValue raw with
    | none => rfl
    | some parts => rfl

end Reading

end GrassWorker.MokaBackend
