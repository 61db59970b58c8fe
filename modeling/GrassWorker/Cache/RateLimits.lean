import GrassWorker.Foundations.TokenBucket
import Mathlib.Algebra.Order.Floor.Ring
import Mathlib.Algebra.Order.Ring.Rat
import Mathlib.Data.Rat.Floor

/-! Rate limits: the bucket of one key in each backend, with exact tokens and times. An entry that expires has been
refilled long before, so both backends admit what a bucket admits that is never dropped. -/
namespace GrassWorker.RateLimits
open TokenBucket

def refused : String := "rate limit capacity and refill period must be positive"

/-- The readings of the clock of one call in milliseconds: at its start, for the expiry, and on insertion. -/
structure MokaCall where
  now : ℚ
  stamped : ℚ
  inserted : ℚ

/-- `{expiry}:{now_ms}|{tokens}`, and when the cache drops it. -/
structure MokaEntry where
  expiry : Int
  lastMs : ℚ
  tokens : ℚ
  deadline : ℚ

def unixTimestamp (milliseconds : ℚ) : Int := ⌊milliseconds / 1000⌋

def MokaCall.stored (call : MokaCall) (capacity : Nat) (entry : Option MokaEntry) : ℚ × ℚ :=
  match entry.filter fun entry => call.now < entry.deadline with
  | some entry => (entry.lastMs,entry.tokens)
  | none => (call.now,capacity)

def MokaCall.tokens (call : MokaCall) (capacity refillPeriod : Nat) (entry : Option MokaEntry) : ℚ :=
  let (lastMs,storedTokens) := call.stored capacity entry
  let refillRate : ℚ := capacity / (refillPeriod * 1000)
  min (storedTokens + max (call.now - lastMs) 0 * refillRate) capacity

/-- `consume_rate_limit` of the in-memory backend. -/
def MokaCall.consumeRateLimit (call : MokaCall) (capacity refillPeriod : Nat) (entry : Option MokaEntry) :
    Except String (MokaEntry × Bool) :=
  if capacity = 0 ∨ refillPeriod = 0 then .error refused
  else
    let tokens := call.tokens capacity refillPeriod entry
    let allowed : Bool := 1 ≤ tokens
    let expiry := unixTimestamp call.stamped + 2 * refillPeriod
    let remaining : Int := max (expiry - unixTimestamp call.inserted) 0
    .ok (⟨expiry,call.now,if allowed then tokens - 1 else tokens,call.inserted + remaining * 1000⟩,allowed)

def mokaOutcomes (capacity refillPeriod : Nat) : Option MokaEntry → List MokaCall → List (ℚ × Bool)
  | _,[] => []
  | entry,call :: rest =>
    match call.consumeRateLimit capacity refillPeriod entry with
    | .error _ => (call.now,false) :: mokaOutcomes capacity refillPeriod entry rest
    | .ok (written,allowed) => (call.now,allowed) :: mokaOutcomes capacity refillPeriod (some written) rest

structure InTurn (calls : List MokaCall) : Prop where
  readings : ∀ call ∈ calls, call.now ≤ call.stamped ∧ call.stamped ≤ call.inserted
  turns : calls.Pairwise fun earlier later => earlier.inserted ≤ later.now

structure RedisHash where
  tokens : ℚ
  updatedAt : ℚ
  deadline : ℚ

/-- `TIME`, in microseconds, as the script rounds it. -/
def nowMs (micros : Nat) : Nat := micros / 1000000 * 1000 + micros % 1000000 / 1000

def scriptTokens (now : ℚ) (capacity refillPeriod : Nat) (hash : Option RedisHash) : ℚ :=
  let bucket := hash.filter fun hash => now < hash.deadline
  let tokens := (bucket.map RedisHash.tokens).getD capacity
  let updatedAt := (bucket.map RedisHash.updatedAt).getD now
  let refillRate : ℚ := capacity / (max (refillPeriod * 1000) 1 : Nat)
  min (capacity : ℚ) (tokens + max 0 (now - updatedAt) * refillRate)

/-- `consume_rate_limit` of the Redis backend: its script. -/
def consumeScript (micros capacity refillPeriod : Nat) (hash : Option RedisHash) : Except String (RedisHash × Bool) :=
  if capacity = 0 ∨ refillPeriod = 0 then .error refused
  else
    let tokens := scriptTokens (nowMs micros) capacity refillPeriod hash
    let allowed : Bool := 1 ≤ tokens
    .ok (⟨if allowed then tokens - 1 else tokens,nowMs micros,nowMs micros + (max (refillPeriod * 1000) 1 : Nat) * 2⟩,allowed)

def redisOutcomes (capacity refillPeriod : Nat) : Option RedisHash → List Nat → List (ℚ × Bool)
  | _,[] => []
  | hash,micros :: rest =>
    match consumeScript micros capacity refillPeriod hash with
    | .error _ => ((nowMs micros : ℚ),false) :: redisOutcomes capacity refillPeriod hash rest
    | .ok (written,allowed) => ((nowMs micros : ℚ),allowed) :: redisOutcomes capacity refillPeriod (some written) rest

section Refinement
variable {capacity refillPeriod : Nat} (positive : 1 ≤ capacity) (whole : 1 ≤ refillPeriod)

def periodOf (refillPeriod : Nat) : ℚ := refillPeriod * 1000

include whole in
theorem periodOf_pos : 0 < periodOf refillPeriod := by
  have seconds : (0 : ℚ) < refillPeriod := Nat.cast_pos.mpr whole
  exact mul_pos seconds (by norm_num)

include positive whole in
theorem level_dropped {bucket : Bucket ℚ} {now deadline : ℚ} (holds : 0 ≤ bucket.tokens)
    (lasts : bucket.last + periodOf refillPeriod ≤ deadline) :
    level (capacity : ℚ) (periodOf refillPeriod) now ((some bucket).filter fun _ => now < deadline) =
      level (capacity : ℚ) (periodOf refillPeriod) now (some bucket) := by
  by_cases alive : now < deadline
  · rw [Option.filter_some,if_pos (decide_eq_true alive)]
  · have rested : ∀ used ∈ some bucket, 0 ≤ used.tokens ∧ used.last + periodOf refillPeriod ≤ now := by
      rintro used ⟨⟩
      exact ⟨holds,lasts.trans (not_lt.mp alive)⟩
    rw [Option.filter_some,if_neg (by simpa using alive),
      level_full (Nat.cast_pos.mpr positive) (periodOf_pos whole) rested]
    rfl

def MokaEntry.bucket (entry : MokaEntry) : Bucket ℚ := ⟨entry.lastMs,entry.tokens⟩

def RedisHash.bucket (hash : RedisHash) : Bucket ℚ := ⟨hash.updatedAt,hash.tokens⟩

def Lasting (period : ℚ) (bucket : Bucket ℚ) (deadline : ℚ) : Prop := 0 ≤ bucket.tokens ∧ bucket.last + period ≤ deadline

theorem unixTimestamp_bounds (milliseconds : ℚ) :
    (unixTimestamp milliseconds : ℚ) * 1000 ≤ milliseconds ∧ milliseconds < (unixTimestamp milliseconds : ℚ) * 1000 + 1000 := by
  have below := Int.floor_le (milliseconds / 1000)
  have above := Int.lt_floor_add_one (milliseconds / 1000)
  unfold unixTimestamp
  constructor
  · linarith
  · linarith

/-- The stamp is cut to a second, and the entry may be inserted in a later one; two periods make up for it. -/
theorem deadline_lasts {now stamped : ℚ} (inserted : ℚ) (first : now ≤ stamped) (whole : 1 ≤ refillPeriod) :
    now + periodOf refillPeriod ≤
      inserted + ((max (unixTimestamp stamped + 2 * refillPeriod - unixTimestamp inserted) 0 : Int) : ℚ) * 1000 := by
  have least : ((unixTimestamp stamped + 2 * refillPeriod - unixTimestamp inserted : Int) : ℚ) ≤
      ((max (unixTimestamp stamped + 2 * refillPeriod - unixTimestamp inserted) 0 : Int) : ℚ) := Int.cast_le.mpr (le_max_left _ _)
  push_cast at least ⊢
  have cut := (unixTimestamp_bounds stamped).2
  have late := (unixTimestamp_bounds inserted).1
  have seconds : (1 : ℚ) ≤ refillPeriod := by exact_mod_cast whole
  unfold periodOf
  linarith

include positive whole in
theorem tokens_eq (call : MokaCall) {entry : Option MokaEntry}
    (lasts : ∀ stored ∈ entry, Lasting (periodOf refillPeriod) stored.bucket stored.deadline) :
    call.tokens capacity refillPeriod entry =
      level (capacity : ℚ) (periodOf refillPeriod) call.now (entry.map MokaEntry.bucket) := by
  have fresh : min ((capacity : ℚ) + max (call.now - call.now) 0 * ((capacity : ℚ) / (refillPeriod * 1000))) capacity = capacity := by
    rw [sub_self,max_self,zero_mul,add_zero,min_self]
  cases entry with
  | none => exact fresh
  | some entry =>
    obtain ⟨holds,long⟩ := lasts entry rfl
    rw [Option.map_some,← level_dropped positive whole holds long]
    by_cases alive : call.now < entry.deadline
    · have kept : call.stored capacity (some entry) = (entry.lastMs,entry.tokens) := by
        simp only [MokaCall.stored,Option.filter_some,decide_eq_true alive,if_true]
      rw [MokaCall.tokens,kept,Option.filter_some,if_pos (decide_eq_true alive)]
      rfl
    · have gone : call.stored capacity (some entry) = (call.now,(capacity : ℚ)) := by
        simp only [MokaCall.stored,Option.filter_some,decide_eq_false alive,Bool.false_eq_true,if_false]
      rw [MokaCall.tokens,gone,Option.filter_some,if_neg (by simpa using alive)]
      exact fresh

include positive whole in
theorem scriptTokens_eq (now : ℚ) {hash : Option RedisHash}
    (lasts : ∀ stored ∈ hash, Lasting (periodOf refillPeriod) stored.bucket stored.deadline) :
    scriptTokens now capacity refillPeriod hash =
      level (capacity : ℚ) (periodOf refillPeriod) now (hash.map RedisHash.bucket) := by
  have period : ((max (refillPeriod * 1000) 1 : Nat) : ℚ) = periodOf refillPeriod := by
    rw [max_eq_left (by omega)]
    push_cast
    rfl
  have fresh : min (capacity : ℚ) (capacity + max 0 (now - now) * ((capacity : ℚ) / periodOf refillPeriod)) = capacity := by
    rw [sub_self,max_self,zero_mul,add_zero,min_self]
  unfold scriptTokens
  rw [period]
  cases hash with
  | none => exact fresh
  | some hash =>
    obtain ⟨holds,long⟩ := lasts hash rfl
    rw [Option.map_some,← level_dropped positive whole holds long]
    by_cases alive : now < hash.deadline
    · rw [Option.filter_some,if_pos (decide_eq_true alive),Option.filter_some,if_pos (decide_eq_true alive)]
      rw [level,min_comm,max_comm 0]
      rfl
    · rw [Option.filter_some,if_neg (by simpa using alive),Option.filter_some,if_neg (by simpa using alive)]
      exact fresh

theorem bucket_eq (capacity refillPeriod : Nat) (now held : ℚ) (bucket : Option (Bucket ℚ)) (same : held = level (capacity : ℚ) (periodOf refillPeriod) now bucket) :
    ((⟨now,if (decide (1 ≤ held)) = true then held - 1 else held⟩ : Bucket ℚ),decide (1 ≤ held)) =
      consume (capacity : ℚ) (periodOf refillPeriod) bucket now := by
  subst same
  unfold consume taken
  by_cases full : 1 ≤ level (capacity : ℚ) (periodOf refillPeriod) now bucket
  · simp only [full,decide_true,if_true]
  · simp only [full,decide_false,Bool.false_eq_true,if_false,sub_zero]

include positive whole in
theorem mokaOutcomes_eq {entry : Option MokaEntry} {calls : List MokaCall}
    (lasts : ∀ stored ∈ entry, Lasting (periodOf refillPeriod) stored.bucket stored.deadline)
    (used : ∀ stored ∈ entry, ∀ call ∈ calls, stored.lastMs ≤ call.now) (inTurn : InTurn calls) :
    mokaOutcomes capacity refillPeriod entry calls =
      outcomes (capacity : ℚ) (periodOf refillPeriod) (entry.map MokaEntry.bucket) (calls.map MokaCall.now) := by
  induction calls generalizing entry with
  | nil => rfl
  | cons call rest ih =>
    obtain ⟨first,second⟩ := inTurn.readings call List.mem_cons_self
    obtain ⟨ahead,turns⟩ := List.pairwise_cons.mp inTurn.turns
    have accepted : ¬(capacity = 0 ∨ refillPeriod = 0) := by omega
    have step := bucket_eq capacity refillPeriod call.now _ _ (tokens_eq positive whole call lasts)
    have sound : Sound (entry.map MokaEntry.bucket) call.now := by
      intro bucket member
      obtain ⟨stored,found,rfl⟩ := Option.mem_map.mp member
      exact ⟨(lasts stored found).1,used stored found call List.mem_cons_self⟩
    have left := (consume_sound (Nat.cast_pos (α := ℚ).mpr positive) (periodOf_pos whole) sound _ rfl).1
    rw [List.map_cons,outcomes,mokaOutcomes,MokaCall.consumeRateLimit,if_neg accepted]
    dsimp only
    rw [← step] at left ⊢
    rw [ih]
    · rfl
    · rintro stored ⟨⟩
      exact ⟨left,deadline_lasts call.inserted first whole⟩
    · rintro stored ⟨⟩ later member
      exact first.trans (second.trans (ahead later member))
    · exact ⟨fun other member => inTurn.readings other (List.mem_cons_of_mem _ member),turns⟩

theorem nowMs_mono {earlier later : Nat} (order : earlier ≤ later) : (nowMs earlier : ℚ) ≤ nowMs later := by
  apply Nat.cast_le.mpr
  unfold nowMs
  omega

include positive whole in
theorem redisOutcomes_eq {hash : Option RedisHash} {times : List Nat}
    (lasts : ∀ stored ∈ hash, Lasting (periodOf refillPeriod) stored.bucket stored.deadline)
    (used : ∀ stored ∈ hash, ∀ micros ∈ times, stored.updatedAt ≤ nowMs micros) (sorted : times.Pairwise (· ≤ ·)) :
    redisOutcomes capacity refillPeriod hash times =
      outcomes (capacity : ℚ) (periodOf refillPeriod) (hash.map RedisHash.bucket) (times.map fun micros => (nowMs micros : ℚ)) := by
  induction times generalizing hash with
  | nil => rfl
  | cons micros rest ih =>
    obtain ⟨ahead,sortedRest⟩ := List.pairwise_cons.mp sorted
    have accepted : ¬(capacity = 0 ∨ refillPeriod = 0) := by omega
    have step := bucket_eq capacity refillPeriod (nowMs micros) _ _
      (scriptTokens_eq positive whole (nowMs micros) lasts)
    have sound : Sound (hash.map RedisHash.bucket) (nowMs micros) := by
      intro bucket member
      obtain ⟨stored,found,rfl⟩ := Option.mem_map.mp member
      exact ⟨(lasts stored found).1,used stored found micros List.mem_cons_self⟩
    have left := (consume_sound (Nat.cast_pos (α := ℚ).mpr positive) (periodOf_pos whole) sound _ rfl).1
    have periods : periodOf refillPeriod ≤ ((max (refillPeriod * 1000) 1 : Nat) : ℚ) * 2 := by
      have exact' : ((max (refillPeriod * 1000) 1 : Nat) : ℚ) = periodOf refillPeriod := by
        rw [max_eq_left (by omega)]
        push_cast
        rfl
      rw [exact']
      linarith [periodOf_pos whole]
    rw [List.map_cons,outcomes,redisOutcomes,consumeScript,if_neg accepted]
    dsimp only
    rw [← step] at left ⊢
    rw [ih]
    · rfl
    · rintro stored ⟨⟩
      exact ⟨left,add_le_add_right periods _⟩
    · rintro stored ⟨⟩ later member
      exact nowMs_mono (ahead later member)
    · exact sortedRest

end Refinement

end GrassWorker.RateLimits
