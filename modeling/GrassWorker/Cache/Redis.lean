import GrassWorker.Cache.Backend

/-! The Redis backend: the commands it sends and the scripts it runs, over a store
whose keys hold a text and a deadline in milliseconds. How Lua computes with numbers
is a parameter; a script that fails keeps what it has written. -/
namespace GrassWorker.RedisBackend
open CacheBackend Decimal

abbrev Milliseconds := Int

structure Entry where
  value : Text
  deadline : Option Milliseconds
deriving DecidableEq

abbrev Store := Key → Option Entry

/-- The numbers of a script: doubles, read from texts and written into commands. -/
structure LuaNumbers where
  Number : Type
  ofInteger : Int → Number
  tonumber : Text → Option Number
  add : Number → Number → Number
  lt : Number → Number → Bool
  /-- A number as an argument of `redis.call`. -/
  write : Number → Text
  /-- A number as the reply of a script. -/
  reply : Number → Int

def Small (n : Int) : Prop := -9007199254740992 ≤ n ∧ n ≤ 9007199254740992

instance (n : Int) : Decidable (Small n) := inferInstanceAs (Decidable (_ ∧ _))

structure LuaNumbers.Exact (lua : LuaNumbers) : Prop where
  tonumber : ∀ n, Small n → lua.tonumber (print n) = some (lua.ofInteger n)
  add : ∀ m n, Small m → Small n → Small (m + n) → lua.add (lua.ofInteger m) (lua.ofInteger n) = lua.ofInteger (m + n)
  lt : ∀ m n, Small m → Small n → lua.lt (lua.ofInteger m) (lua.ofInteger n) = decide (m < n)
  write : ∀ n, Small n → lua.write (lua.ofInteger n) = print n
  reply : ∀ n, Small n → lua.reply (lua.ofInteger n) = n

section Commands
variable (now : Milliseconds) (store : Store) (key : Key)

def Entry.alive (entry : Entry) : Bool := entry.deadline.all (now < ·)

def live : Option Entry := (store key).filter (Entry.alive now)

def assign (entry : Option Entry) : Store := fun other => if other = key then entry else store other

def get : Option Text := (live now store key).map Entry.value

/-- Only the text `to_string` would write is an integer to Redis. -/
def parseStrict (text : Text) : Option Int := (parse text).filter fun n => print n = text

/-- `INCRBY`: the lifetime of the key stays as it is. -/
def incrBy (amount : Int) : Option (Store × Int) :=
  match live now store key with
  | none => some (assign store key (some ⟨print amount,none⟩),amount)
  | some entry =>
    (parseStrict entry.value).map fun current =>
      (assign store key (some { entry with value := print (current + amount) }),current + amount)

/-- `PTTL`: -2 without the key, -1 without a lifetime. -/
def pttl : Milliseconds :=
  match live now store key with
  | none => -2
  | some entry =>
    match entry.deadline with
    | none => -1
    | some deadline => deadline - now

def pexpire (milliseconds : Text) : Option Store :=
  (parseStrict milliseconds).map fun lifetime =>
    assign store key ((live now store key).map fun entry => { entry with deadline := some (now + lifetime) })

/-- `SET … PX`. -/
def setPx (value : Text) (lifetime : Milliseconds) : Store := assign store key (some ⟨value,some (now + lifetime)⟩)

end Commands

def milliseconds (seconds : Int) : Int := 1000 * seconds

section Methods
variable (lua : LuaNumbers) (now : Milliseconds) (store : Store) (key : Key)

/-- `tonumber(redis.call('GET', key) or '0')` -/
def currentNumber : Option lua.Number := lua.tonumber ((get now store key).getD (print 0))

def setEx (value : Text) (ttl : Seconds) : Store × Result :=
  if ttl ≤ 0 then (store,.failed) else (setPx now store key value (milliseconds ttl),.done)

def updateIfPresent (value : Text) (ttl : Seconds) : Store × Result :=
  if (live now store key).isNone then (store,.flag false)
  else (setPx now store key value (max (milliseconds ttl) 1),.flag true)

def setIfAbsent (value : Text) (ttl : Seconds) : Store × Result :=
  if (live now store key).isSome then (store,.flag false)
  else (setPx now store key value (max (milliseconds ttl) 1),.flag true)

def step (amount : Int) : Store × Result :=
  match incrBy now store key amount with
  | none => (store,.failed)
  | some (after,value) => (after,.number value)

def admits (check : QuotaCounterCheck) : Option Bool := do
  let amount ← lua.tonumber (print check.amount)
  let max ← lua.tonumber (print check.max)
  let current ← currentNumber lua now store check.key
  return lua.lt max (lua.ofInteger 0) || !lua.lt max (lua.add current amount)

def firstRefused : List QuotaCounterCheck → Option (Option Key)
  | [] => some none
  | check :: rest => do
    if ← admits lua now store check then firstRefused rest else return some check.key

/-- Gives the key a lifetime if it has none; `false` when the command fails. -/
def startLifetime (lifetime : lua.Number) : Store × Bool :=
  if lua.lt (lua.ofInteger 0) lifetime && lua.lt (lua.ofInteger (pttl now store key)) (lua.ofInteger 0) then
    match pexpire now store key (lua.write lifetime) with
    | none => (store,false)
    | some after => (after,true)
  else (store,true)

def consume (check : QuotaCounterCheck) : Store × Bool :=
  match lua.tonumber (print check.amount),lua.tonumber (print ((check.ttl.map milliseconds).getD 0)) with
  | some amount,some lifetime =>
    match (parseStrict (lua.write amount)).bind (incrBy now store check.key) with
    | none => (store,false)
    | some (after,_) => startLifetime lua now after check.key lifetime
  | _,_ => (store,false)

def consumeAll : Store → List QuotaCounterCheck → Store × Bool
  | store,[] => (store,true)
  | store,check :: rest =>
    match consume lua now store check with
    | (after,true) => consumeAll after rest
    | (after,false) => (after,false)

def checkAndConsume (checks : List QuotaCounterCheck) : Store × Result :=
  if checks.isEmpty then (store,.outcome .allowed)
  else match firstRefused lua now store checks with
    | none => (store,.failed)
    | some (some key) => (store,.outcome (.denied key))
    | some none =>
      match consumeAll lua now store checks with
      | (after,true) => (after,.outcome .allowed)
      | (after,false) => (after,.failed)

def adjustCounter (amount : Int) : Store × Result :=
  match currentNumber lua now store key,lua.tonumber (print amount) with
  | some current,some change =>
    let sum := lua.add current change
    let next := if lua.lt sum (lua.ofInteger 0) then lua.ofInteger 0 else sum
    let lifetime := lua.ofInteger (pttl now store key)
    let written := assign store key (some ⟨lua.write next,none⟩)
    if lua.lt (lua.ofInteger 0) lifetime then
      match pexpire now written key (lua.write lifetime) with
      | none => (written,.failed)
      | some after => (after,.number (lua.reply next))
    else (written,.number (lua.reply next))
  | _,_ => (store,.failed)

def acquireSlot (limit : Int) (ttl : Seconds) : Store × Result :=
  match lua.tonumber (print limit),currentNumber lua now store key,lua.tonumber (print (max (milliseconds ttl) 1)) with
  | some limit,some current,some lifetime =>
    if !lua.lt limit (lua.ofInteger 0) && lua.lt limit (lua.add current (lua.ofInteger 1)) then (store,.flag false)
    else match incrBy now store key 1 with
      | none => (store,.failed)
      | some (after,_) =>
        match pexpire now after key (lua.write lifetime) with
        | none => (after,.failed)
        | some after => (after,.flag true)
  | _,_,_ => (store,.failed)

def releaseSlot : Store × Result :=
  match adjustCounter lua now store key (-1) with
  | (after,.failed) => (after,.failed)
  | (after,_) => (after,.done)

end Methods

def call (lua : LuaNumbers) (seconds : Seconds) (store : Store) (call : Call) : Store × Result :=
  let now := milliseconds seconds
  match call with
  | .get key => (store,.value (get now store key))
  | .take key => (assign store key none,.value (get now store key))
  | .set key value ttl => setEx now store key value ttl
  | .updateIfPresent key value ttl => updateIfPresent now store key value ttl
  | .delete key => (assign store key none,.done)
  | .incr key => step now store key 1
  | .decr key => step now store key (-1)
  | .setIfAbsent key value ttl => setIfAbsent now store key value ttl
  | .checkAndConsume checks => checkAndConsume lua now store checks
  | .adjustCounter key amount => adjustCounter lua now store key amount
  | .acquireSlot key limit ttl => acquireSlot lua now store key limit ttl
  | .releaseSlot key => releaseSlot lua now store key

theorem parseStrict_print (n : Int) : parseStrict (print n) = some n := by
  unfold parseStrict
  rw [parse_print,Option.filter_some,if_pos (decide_eq_true rfl)]

end GrassWorker.RedisBackend
