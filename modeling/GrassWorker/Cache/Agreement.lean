import GrassWorker.Cache.Moka
import GrassWorker.Cache.Redis
import GrassWorker.Cache.Contents
import GrassWorker.Foundations.Runs

/-! Both backends against the contents of a cache. Each keeps the contents in its own
form, and each call of either returns what the contents say, as long as the call does
not touch the two points on which the backends differ: which lifetime a counter has
after it is changed, and how exactly Lua computes. -/
namespace GrassWorker.CacheAgreement
open CacheBackend CacheContents Decimal

open RedisBackend (milliseconds)

/-- The checks give no counter another lifetime than it has, and stay within what Lua computes exactly. -/
def ConsumeFits (now : Seconds) : Contents → List QuotaCounterCheck → Prop
  | _,[] => True
  | contents,check :: rest =>
    RedisBackend.Small (number contents check.key + check.amount) ∧
      (∀ ttl ∈ check.ttl, ∀ expiry ∈ deadline contents check.key, expiry = now + ttl) ∧
      ConsumeFits now (consume contents now check) rest

/-- The call leaves the lifetime of counters alone where the backends differ, and its
numbers are ones that Lua computes with exactly. -/
def Fits (kind : Key → Kind) (now : Seconds) (contents : Contents) : Call → Prop
  | .get _ | .take _ | .delete _ => True
  | .set key value ttl | .updateIfPresent key value ttl | .setIfAbsent key value ttl =>
    RedisBackend.Small (milliseconds ttl) ∧ (kind key = .counter → ∀ n ∈ parse value, RedisBackend.Small n)
  | .incr key => deadline contents key = none ∧ RedisBackend.Small (number contents key + 1)
  | .decr key => deadline contents key = none ∧ RedisBackend.Small (number contents key + -1)
  | .checkAndConsume checks =>
    (∀ check ∈ checks, RedisBackend.Small check.max ∧ RedisBackend.Small check.amount ∧
      RedisBackend.Small (number contents check.key + check.amount) ∧
      ∀ ttl ∈ check.ttl, RedisBackend.Small (milliseconds ttl)) ∧
    ((checks.find? fun check => !check.fits (number contents check.key)) = none → ConsumeFits now contents checks)
  | .adjustCounter key amount => RedisBackend.Small amount ∧ RedisBackend.Small (number contents key + amount)
  | .acquireSlot key limit ttl =>
    RedisBackend.Small limit ∧ RedisBackend.Small (number contents key + 1) ∧ RedisBackend.Small (milliseconds ttl)
  | .releaseSlot key => RedisBackend.Small (number contents key + -1)

section Moka
open MokaBackend
variable {now : Seconds} {contents : Contents} {cache : MokaCache} {key : Key}

def viewEntry (entry : MokaBackend.Entry) : Held := ⟨stored entry.raw,entry.deadline⟩

def view (now : Seconds) (cache : MokaCache) : Contents :=
  fun key => ((cache key).filter (MokaBackend.Entry.alive now)).map viewEntry

def Stamped (now : Seconds) (cache : MokaCache) : Prop :=
  ∀ key entry, (cache key).filter (MokaBackend.Entry.alive now) = some entry →
    (extractValue entry.raw).map Prod.fst = entry.deadline

theorem view_get : MokaBackend.get now cache key = (view now cache key).map Held.text := by
  unfold MokaBackend.get peek view
  rw [Option.map_map,Option.map_map]
  rfl

theorem view_ahead : Ahead now (view now cache) := by
  intro key held found expiry same
  obtain ⟨entry,kept,rfl⟩ := Option.map_eq_some_iff.mp found
  have lasts := (Option.filter_eq_some_iff.mp kept).2
  unfold MokaBackend.Entry.alive at lasts
  rw [show entry.deadline = some expiry from same] at lasts
  exact of_decide_eq_true lasts

theorem readCounterEntry_eq (stamped : Stamped now cache) :
    readCounterEntry now cache key = (number (view now cache) key,deadline (view now cache) key) := by
  unfold readCounterEntry number deadline view peek
  cases found : (cache key).filter (MokaBackend.Entry.alive now) with
  | none => rfl
  | some entry =>
    have stamp := stamped key entry found
    simp only [Option.map_some,Option.bind_some,viewEntry]
    unfold stored
    cases parts : extractValue entry.raw with
    | none =>
      rw [parts] at stamp
      rw [← stamp]
      rfl
    | some pair =>
      rw [parts] at stamp
      rw [← stamp]
      rfl

theorem readCounter_eq (stamped : Stamped now cache) : readCounter now cache key = number (view now cache) key := by
  unfold readCounter
  rw [readCounterEntry_eq stamped]

theorem view_insert {raw : Text} (lasts : ∀ expiry, expiryForValue now raw = some expiry → now < expiry) :
    view now (insert now cache key raw) = put (view now cache) key (some ⟨stored raw,expiryForValue now raw⟩) := by
  funext other
  by_cases same : other = key
  · subst same
    have alive : MokaBackend.Entry.alive now ⟨raw,expiryForValue now raw⟩ := by
      unfold MokaBackend.Entry.alive
      cases chosen : expiryForValue now raw with
      | none => rfl
      | some expiry => exact decide_eq_true (lasts expiry chosen)
    unfold view
    rw [put_same,insert_same,Option.filter_some,if_pos alive]
    rfl
  · unfold view
    rw [put_other same,insert_other same]

theorem stamped_insert (stamped : Stamped now cache) {raw : Text}
    (stamp : (extractValue raw).map Prod.fst = expiryForValue now raw) : Stamped now (insert now cache key raw) := by
  intro other entry found
  by_cases same : other = key
  · subst same
    rw [insert_same] at found
    obtain rfl := Option.some.inj (Option.filter_eq_some_iff.mp found).1
    exact stamp
  · rw [insert_other same] at found
    exact stamped other entry found

private theorem remaining {now expiry : Int} (ahead : now < expiry) : now + max (expiry - now) 0 = expiry := by omega

theorem expiryForValue_format {expiry : Seconds} (ahead : now < expiry) (value : Text) :
    expiryForValue now (format expiry value) = some expiry := by
  unfold expiryForValue
  rw [extractValue_format,Option.map_some]
  exact congrArg some (remaining ahead)

theorem expiryForValue_print (n : Int) : expiryForValue now (print n) = none := by
  unfold expiryForValue
  rw [extractValue_print]
  rfl

theorem insert_format (stamped : Stamped now cache) {expiry : Seconds} (ahead : now < expiry) (value : Text) :
    view now (insert now cache key (format expiry value)) = put (view now cache) key (some ⟨value,some expiry⟩) ∧
      Stamped now (insert now cache key (format expiry value)) := by
  have kept := expiryForValue_format ahead value
  constructor
  · rw [view_insert (by rw [kept]; rintro _ ⟨⟩; exact ahead),kept,stored_format]
  · apply stamped_insert stamped
    rw [kept,extractValue_format]
    rfl

theorem insert_print (stamped : Stamped now cache) (key : Key) (n : Int) :
    view now (insert now cache key (print n)) = put (view now cache) key (some ⟨print n,none⟩) ∧
      Stamped now (insert now cache key (print n)) := by
  have kept : expiryForValue now (print n) = none := expiryForValue_print n
  constructor
  · rw [view_insert (by rw [kept]; rintro _ ⟨⟩),kept,stored_print]
  · apply stamped_insert stamped
    rw [kept,extractValue_print]
    rfl

theorem writeCounter_eq (stamped : Stamped now cache) (key : Key) (n : Int) {expiry : Option Seconds}
    (ahead : ∀ deadline, expiry = some deadline → now < deadline) :
    view now (writeCounter now cache key n expiry) = put (view now cache) key (some ⟨print n,expiry⟩) ∧
      Stamped now (writeCounter now cache key n expiry) := by
  unfold writeCounter
  cases expiry with
  | none => exact insert_print stamped key n
  | some deadline => exact insert_format stamped (ahead deadline rfl) (print n)

def MokaFollows (now : Seconds) (outcome : MokaCache × Result) (expected : Contents × Result) : Prop :=
  outcome.2 = expected.2 ∧ view now outcome.1 = expected.1 ∧ Stamped now outcome.1

theorem stamped_invalidate (stamped : Stamped now cache) : Stamped now (invalidate cache key) := by
  intro other entry found
  unfold invalidate at found
  split at found
  · cases found
  · exact stamped other entry found

theorem view_invalidate : view now (invalidate cache key) = put (view now cache) key none := by
  funext other
  by_cases same : other = key
  · subst same
    rw [put_same]
    unfold view invalidate
    rw [if_pos rfl]
    rfl
  · rw [put_other same]
    unfold view invalidate
    rw [if_neg same]

theorem peek_isNone : (peek now cache key).isNone = (view now cache key).isNone := by
  unfold peek view
  rw [Option.isNone_map,Option.isNone_map]

theorem peek_isSome : (peek now cache key).isSome = (view now cache key).isSome := by
  unfold peek view
  rw [Option.isSome_map,Option.isSome_map]

private theorem ahead_of_ttl {now ttl : Int} (lifetime : 1 ≤ ttl) : now < now + ttl := by omega

theorem moka_set (stamped : Stamped now cache) {ttl : Seconds} (lifetime : 1 ≤ ttl) (value : Text) :
    view now (MokaBackend.set now cache key value ttl) = put (view now cache) key (some ⟨value,some (now + ttl)⟩) ∧
      Stamped now (MokaBackend.set now cache key value ttl) :=
  insert_format stamped (ahead_of_ttl lifetime) value

theorem moka_step (stamped : Stamped now cache) (persistent : deadline (view now cache) key = none) (amount : Int) :
    MokaFollows now ((MokaBackend.step now cache key amount).map id .number) (step (view now cache) key amount) := by
  have current : (((peek now cache key).bind fun raw => parse (stored raw)).getD 0) = number (view now cache) key := by
    rw [← readCounterEntry_fst]
    exact readCounter_eq stamped
  obtain ⟨held,kept⟩ := insert_print stamped key (number (view now cache) key + amount)
  unfold MokaBackend.step CacheContents.step
  rw [current,persistent]
  exact ⟨rfl,held,kept⟩

theorem moka_consume (stamped : Stamped now cache) (check : QuotaCounterCheck) (lifetimes : ∀ ttl ∈ check.ttl, 1 ≤ ttl)
    (keeps : ∀ ttl ∈ check.ttl, ∀ expiry ∈ deadline (view now cache) check.key, expiry = now + ttl) :
    view now (MokaBackend.consume now cache check) = consume (view now cache) now check ∧
      Stamped now (MokaBackend.consume now cache check) := by
  have expiry : (check.ttl.map (now + ·)).or (deadline (view now cache) check.key) =
      (deadline (view now cache) check.key).or (check.ttl.map (now + ·)) := by
    cases chosen : check.ttl with
    | none => simp
    | some ttl =>
      cases held : deadline (view now cache) check.key with
      | none => rfl
      | some expiry =>
        have same := keeps ttl chosen expiry held
        rw [same]
        rfl
  have ahead : ∀ expiry, (deadline (view now cache) check.key).or (check.ttl.map (now + ·)) = some expiry → now < expiry := by
    intro expiry chosen
    rcases Option.or_eq_some_iff.mp chosen with held | ⟨_,fresh⟩
    · exact view_ahead.deadline held
    · obtain ⟨ttl,given,rfl⟩ := Option.map_eq_some_iff.mp fresh
      exact ahead_of_ttl (lifetimes ttl given)
  unfold MokaBackend.consume CacheContents.consume
  rw [readCounterEntry_eq stamped]
  simp only
  rw [expiry]
  exact writeCounter_eq stamped _ _ ahead

theorem moka_consumeAll {checks : List QuotaCounterCheck} (stamped : Stamped now cache)
    (lifetimes : ∀ check ∈ checks, ∀ ttl ∈ check.ttl, 1 ≤ ttl) (fits : ConsumeFits now (view now cache) checks) :
    view now (checks.foldl (MokaBackend.consume now) cache) =
        checks.foldl (fun contents check => consume contents now check) (view now cache) ∧
      Stamped now (checks.foldl (MokaBackend.consume now) cache) := by
  induction checks generalizing cache with
  | nil => exact ⟨rfl,stamped⟩
  | cons check rest ih =>
    obtain ⟨_,keeps,later⟩ := fits
    obtain ⟨held,kept⟩ := moka_consume stamped check (lifetimes check (List.mem_cons_self ..)) keeps
    rw [← held] at later
    rw [List.foldl_cons,List.foldl_cons,← held]
    exact ih kept (fun other member => lifetimes other (List.mem_cons_of_mem _ member)) later

theorem moka_adjust (stamped : Stamped now cache) (amount : Int) :
    view now (writeCounter now cache key (max (number (view now cache) key + amount) 0) (deadline (view now cache) key)) =
        (adjust (view now cache) key amount).1 ∧
      Stamped now (writeCounter now cache key (max (number (view now cache) key + amount) 0) (deadline (view now cache) key)) :=
  writeCounter_eq stamped _ _ fun _ held => view_ahead.deadline held

theorem moka_call (stamped : Stamped now cache) {kind : Key → Kind} {call : Call} (lifetimes : Lifetimes call)
    (fits : Fits kind now (view now cache) call) :
    MokaFollows now (MokaBackend.call now cache call) (CacheContents.call now (view now cache) call) := by
  cases call with
  | get key => exact ⟨congrArg Result.value view_get,rfl,stamped⟩
  | take key => exact ⟨congrArg Result.value view_get,view_invalidate,stamped_invalidate stamped⟩
  | set key value ttl => exact ⟨rfl,moka_set stamped lifetimes value⟩
  | updateIfPresent key value ttl =>
    simp only [MokaBackend.call,MokaBackend.updateIfPresent,CacheContents.call,peek_isNone]
    split
    · exact ⟨rfl,rfl,stamped⟩
    · exact ⟨rfl,moka_set stamped lifetimes value⟩
  | delete key => exact ⟨rfl,view_invalidate,stamped_invalidate stamped⟩
  | incr key => exact moka_step stamped fits.1 1
  | decr key => exact moka_step stamped fits.1 (-1)
  | setIfAbsent key value ttl =>
    simp only [MokaBackend.call,MokaBackend.setIfAbsent,CacheContents.call,peek_isSome]
    split
    · exact ⟨rfl,rfl,stamped⟩
    · exact ⟨rfl,moka_set stamped lifetimes value⟩
  | checkAndConsume checks =>
    simp only [MokaBackend.call,MokaBackend.checkAndConsume,CacheContents.call,readCounter_eq stamped]
    cases refused : checks.find? fun check => !check.fits (number (view now cache) check.key) with
    | some check => exact ⟨rfl,rfl,stamped⟩
    | none => exact ⟨rfl,moka_consumeAll stamped lifetimes (fits.2 refused)⟩
  | adjustCounter key amount =>
    simp only [MokaBackend.call,MokaBackend.adjustCounter,CacheContents.call,readCounterEntry_eq stamped]
    exact ⟨rfl,moka_adjust stamped amount⟩
  | acquireSlot key limit ttl =>
    simp only [MokaBackend.call,MokaBackend.acquireSlot,CacheContents.call,readCounter_eq stamped]
    split
    · exact ⟨rfl,rfl,stamped⟩
    · have ahead : ∀ expiry, some (now + ttl) = some expiry → now < expiry := by
        rintro _ ⟨⟩
        exact ahead_of_ttl lifetimes
      obtain ⟨held,kept⟩ := writeCounter_eq stamped key (number (view now cache) key + 1) ahead
      exact ⟨rfl,held,kept⟩
  | releaseSlot key =>
    simp only [MokaBackend.call,MokaBackend.releaseSlot,CacheContents.call,readCounterEntry_eq stamped]
    exact ⟨rfl,moka_adjust stamped (-1)⟩

end Moka

section Soundness
variable {kind : Key → Kind} {now : Seconds} {contents : Contents} {key : Key}

structure Sound (kind : Key → Kind) (now : Seconds) (contents : Contents) : Prop where
  ahead : Ahead now contents
  counters : ∀ key held, contents key = some held → kind key = .counter → ∃ n, held.text = print n ∧ RedisBackend.Small n
  lifetimes : ∀ key held, contents key = some held → ∀ expiry, held.deadline = some expiry →
    RedisBackend.Small (milliseconds (expiry - now))

structure Fit (kind : Key → Kind) (now : Seconds) (key : Key) (held : Held) : Prop where
  ahead : ∀ expiry, held.deadline = some expiry → now < expiry
  counters : kind key = .counter → ∃ n, held.text = print n ∧ RedisBackend.Small n
  lifetimes : ∀ expiry, held.deadline = some expiry → RedisBackend.Small (milliseconds (expiry - now))

theorem Sound.put (sound : Sound kind now contents) {held : Option Held} (fit : ∀ kept, held = some kept → Fit kind now key kept) :
    Sound kind now (put contents key held) := by
  constructor
  · exact sound.ahead.put fun kept same => (fit kept same).ahead
  · intro other kept found
    by_cases same : other = key
    · subst same
      rw [put_same] at found
      exact (fit kept found).counters
    · rw [put_other same] at found
      exact sound.counters other kept found
  · intro other kept found
    by_cases same : other = key
    · subst same
      rw [put_same] at found
      exact (fit kept found).lifetimes
    · rw [put_other same] at found
      exact sound.lifetimes other kept found

theorem Sound.some (sound : Sound kind now contents) {held : Held} (fit : Fit kind now key held) :
    Sound kind now (CacheContents.put contents key (some held)) :=
  sound.put fun _ same => Option.some.inj same ▸ fit

theorem Sound.none (sound : Sound kind now contents) : Sound kind now (CacheContents.put contents key none) :=
  sound.put fun _ impossible => by cases impossible

theorem Sound.small (sound : Sound kind now contents) (counter : kind key = .counter) : RedisBackend.Small (number contents key) := by
  unfold number
  cases found : contents key with
  | none => decide
  | some held =>
    obtain ⟨n,text,small⟩ := sound.counters key held found counter
    rw [Option.bind_some,text,parse_print]
    exact small

private theorem remaining_lifetime (now ttl : Int) : now + ttl - now = ttl := by omega

theorem fit_fresh {value : Text} {ttl : Seconds} (lifetime : 1 ≤ ttl) (short : RedisBackend.Small (milliseconds ttl))
    (counters : kind key = .counter → ∃ n, value = print n ∧ RedisBackend.Small n) : Fit kind now key ⟨value,some (now + ttl)⟩ := by
  constructor
  · rintro _ ⟨⟩
    exact ahead_of_ttl lifetime
  · exact counters
  · rintro _ ⟨⟩
    rw [remaining_lifetime now ttl]
    exact short

theorem Sound.fit_kept (sound : Sound kind now contents) (key : Key) {n : Int} (small : RedisBackend.Small n) :
    Fit kind now key ⟨print n,deadline contents key⟩ := by
  constructor
  · exact fun _ held => sound.ahead.deadline held
  · exact fun _ => ⟨n,rfl,small⟩
  · intro expiry same
    obtain ⟨held,found,kept⟩ := Option.bind_eq_some_iff.mp same
    exact sound.lifetimes key held found expiry kept

theorem Sound.consume (sound : Sound kind now contents) {check : QuotaCounterCheck} (lifetimes : ∀ ttl ∈ check.ttl, 1 ≤ ttl)
    (short : ∀ ttl ∈ check.ttl, RedisBackend.Small (milliseconds ttl))
    (small : RedisBackend.Small (number contents check.key + check.amount)) :
    Sound kind now (consume contents now check) := by
  unfold CacheContents.consume
  apply sound.some
  cases held : deadline contents check.key with
  | some expiry =>
    have kept := sound.fit_kept check.key small
    rwa [held] at kept
  | none =>
    cases given : check.ttl with
    | none =>
      have kept := sound.fit_kept check.key small
      rwa [held] at kept
    | some ttl => exact fit_fresh (lifetimes ttl given) (short ttl given) fun _ => ⟨_,rfl,small⟩

theorem Sound.consumeAll {checks : List QuotaCounterCheck} (sound : Sound kind now contents)
    (lifetimes : ∀ check ∈ checks, ∀ ttl ∈ check.ttl, 1 ≤ ttl)
    (short : ∀ check ∈ checks, ∀ ttl ∈ check.ttl, RedisBackend.Small (milliseconds ttl)) (fits : ConsumeFits now contents checks) :
    Sound kind now (checks.foldl (fun contents check => CacheContents.consume contents now check) contents) := by
  induction checks generalizing contents with
  | nil => exact sound
  | cons check rest ih =>
    obtain ⟨small,_,later⟩ := fits
    have next := sound.consume (lifetimes check (List.mem_cons_self ..)) (short check (List.mem_cons_self ..)) small
    apply ih next _ _ later
    · exact fun other member => lifetimes other (List.mem_cons_of_mem _ member)
    · exact fun other member => short other (List.mem_cons_of_mem _ member)

private theorem small_max {n : Int} (small : RedisBackend.Small n) : RedisBackend.Small (max n 0) := by
  unfold RedisBackend.Small at *
  omega

theorem Sound.adjust (sound : Sound kind now contents) {amount : Int} (small : RedisBackend.Small (number contents key + amount)) :
    Sound kind now (adjust contents key amount).1 := by
  exact sound.some (sound.fit_kept key (small_max small))

theorem small_of_value {value : Text} (consistent : kind key = .counter → ∃ n, value = print n)
    (small : kind key = .counter → ∀ n ∈ parse value, RedisBackend.Small n) (counter : kind key = .counter) :
    ∃ n, value = print n ∧ RedisBackend.Small n := by
  obtain ⟨n,rfl⟩ := consistent counter
  exact ⟨n,rfl,small counter n (parse_print n)⟩

theorem Sound.call (sound : Sound kind now contents) {call : Call} (consistent : Consistent kind call)
    (lifetimes : Lifetimes call) (fits : Fits kind now contents call) :
    Sound kind now (CacheContents.call now contents call).1 := by
  cases call with
  | get key => exact sound
  | take key | delete key => exact sound.none
  | set key value ttl => exact sound.some (fit_fresh lifetimes fits.1 (small_of_value consistent fits.2))
  | updateIfPresent key value ttl =>
    simp only [CacheContents.call]
    split
    · exact sound
    · exact sound.some (fit_fresh lifetimes fits.1 (small_of_value consistent fits.2))
  | setIfAbsent key value ttl =>
    simp only [CacheContents.call]
    split
    · exact sound
    · exact sound.some (fit_fresh lifetimes fits.1 (small_of_value consistent fits.2))
  | incr key => exact sound.some (sound.fit_kept key fits.2)
  | decr key => exact sound.some (sound.fit_kept key fits.2)
  | checkAndConsume checks =>
    obtain ⟨bounds,consumes⟩ := fits
    simp only [CacheContents.call]
    cases refused : checks.find? fun check => !check.fits (number contents check.key) with
    | some check => exact sound
    | none =>
      exact sound.consumeAll lifetimes (fun check member => (bounds check member).2.2.2) (consumes refused)
  | adjustCounter key amount => exact sound.adjust fits.2
  | acquireSlot key limit ttl =>
    simp only [CacheContents.call]
    split
    · exact sound
    · exact sound.some (fit_fresh lifetimes fits.2.2 fun _ => ⟨_,rfl,fits.2.1⟩)
  | releaseSlot key => exact sound.adjust fits

end Soundness

section Redis
open RedisBackend
variable {lua : LuaNumbers} {kind : Key → Kind} {now : Seconds} {contents : Contents} {store : Store} {key : Key}

def toEntry (held : Held) : RedisBackend.Entry := ⟨held.text,held.deadline.map milliseconds⟩

def RedisHolds (now : Seconds) (contents : Contents) (store : Store) : Prop :=
  ∀ key, live (milliseconds now) store key = (contents key).map toEntry

def RedisFollows (now : Seconds) (outcome : Store × Result) (expected : Contents × Result) : Prop :=
  outcome.2 = expected.2 ∧ RedisHolds now expected.1 outcome.1

private theorem milliseconds_lt {now expiry : Int} : milliseconds now < milliseconds expiry ↔ now < expiry := by
  unfold milliseconds
  omega

theorem alive_toEntry {held : Held} (ahead : ∀ expiry, held.deadline = some expiry → now < expiry) :
    RedisBackend.Entry.alive (milliseconds now) (toEntry held) := by
  unfold RedisBackend.Entry.alive toEntry
  cases chosen : held.deadline with
  | none => rfl
  | some expiry => exact decide_eq_true (milliseconds_lt.mpr (ahead expiry chosen))

theorem RedisHolds.assign (holds : RedisHolds now contents store) {held : Option Held}
    (ahead : ∀ kept, held = some kept → ∀ expiry, kept.deadline = some expiry → now < expiry) :
    RedisHolds now (put contents key held) (assign store key (held.map toEntry)) := by
  intro other
  unfold live RedisBackend.assign
  by_cases same : other = key
  · subst same
    rw [if_pos rfl,put_same]
    cases held with
    | none => rfl
    | some kept => rw [Option.map_some,Option.filter_some,if_pos (alive_toEntry (ahead kept rfl))]
  · rw [if_neg same,put_other same]
    exact holds other

theorem RedisHolds.fit (holds : RedisHolds now contents store) {held : Held} (fit : Fit kind now key held) :
    RedisHolds now (put contents key (some held)) (RedisBackend.assign store key (some (toEntry held))) :=
  holds.assign fun _ same => Option.some.inj same ▸ fit.ahead

theorem RedisHolds.none (holds : RedisHolds now contents store) :
    RedisHolds now (put contents key none) (RedisBackend.assign store key none) :=
  holds.assign fun _ impossible => by cases impossible

theorem redis_get (holds : RedisHolds now contents store) :
    RedisBackend.get (milliseconds now) store key = (contents key).map Held.text := by
  unfold RedisBackend.get
  rw [holds key,Option.map_map]
  rfl

theorem currentNumber_eq (exact : lua.Exact) (sound : Sound kind now contents) (holds : RedisHolds now contents store)
    (counter : kind key = .counter) :
    currentNumber lua (milliseconds now) store key = some (lua.ofInteger (number contents key)) := by
  have small := sound.small counter
  unfold currentNumber
  rw [redis_get holds]
  unfold number at small ⊢
  cases found : contents key with
  | none => exact exact.tonumber 0 (by decide)
  | some held =>
    obtain ⟨n,text,bounded⟩ := sound.counters key held found counter
    rw [Option.bind_some,text,parse_print,Option.map_some,text]
    exact exact.tonumber n bounded

theorem incrBy_eq (sound : Sound kind now contents) (holds : RedisHolds now contents store) (counter : kind key = .counter)
    (amount : Int) : incrBy (milliseconds now) store key amount =
      some (RedisBackend.assign store key (some (toEntry ⟨print (number contents key + amount),deadline contents key⟩)),
        number contents key + amount) := by
  unfold incrBy number deadline
  rw [holds key]
  cases found : contents key with
  | none =>
    simp only [Option.map_none,Option.bind_none,Option.getD_none,Int.zero_add]
    rfl
  | some held =>
    obtain ⟨n,text,_⟩ := sound.counters key held found counter
    simp only [Option.map_some,Option.bind_some,toEntry,text,parse_print,parseStrict_print,Option.getD_some]

private theorem milliseconds_add (now ttl : Int) : milliseconds now + milliseconds ttl = milliseconds (now + ttl) := by
  unfold milliseconds
  omega

theorem pexpire_eq (holds : RedisHolds now contents store) {held : Held} (found : contents key = some held) (ttl : Seconds) :
    pexpire (milliseconds now) store key (print (milliseconds ttl)) =
      some (RedisBackend.assign store key (some (toEntry ⟨held.text,some (now + ttl)⟩))) := by
  unfold pexpire
  rw [parseStrict_print,Option.map_some,holds key,found,milliseconds_add now ttl]
  rfl

theorem pttl_eq (holds : RedisHolds now contents store) {held : Held} (found : contents key = some held) :
    pttl (milliseconds now) store key = match held.deadline with
      | none => -1
      | some expiry => milliseconds (expiry - now) := by
  have difference (expiry : Int) : milliseconds expiry - milliseconds now = milliseconds (expiry - now) := by
    unfold milliseconds
    omega
  unfold pttl
  rw [holds key,found,Option.map_some]
  simp only [toEntry]
  cases held.deadline with
  | none => rfl
  | some expiry => exact difference expiry

theorem small_zero : RedisBackend.Small 0 := by decide

theorem admits_eq (exact : lua.Exact) (sound : Sound kind now contents) (holds : RedisHolds now contents store)
    {check : QuotaCounterCheck} (counter : kind check.key = .counter) (limit : RedisBackend.Small check.max)
    (amount : RedisBackend.Small check.amount)
    (sum : RedisBackend.Small (number contents check.key + check.amount)) :
    admits lua (milliseconds now) store check = some (check.fits (number contents check.key)) := by
  unfold admits
  rw [exact.tonumber _ amount,exact.tonumber _ limit,currentNumber_eq exact sound holds counter]
  simp only [Option.pure_def,Option.bind_eq_bind,Option.bind_some]
  rw [exact.add _ _ (sound.small counter) amount sum,exact.lt _ _ limit small_zero,exact.lt _ _ limit sum]
  unfold QuotaCounterCheck.fits
  congr 1
  by_cases negative : check.max < 0
  · have unlimited : ¬(0 ≤ check.max ∧ check.max < number contents check.key + check.amount) := by omega
    simp [negative,unlimited]
  · have limited : 0 ≤ check.max := by omega
    by_cases exceeds : check.max < number contents check.key + check.amount
    · simp [limited,exceeds,Int.not_lt.mpr limited]
    · simp [limited,Int.not_lt.mpr limited,Int.not_lt.mp exceeds]

theorem firstRefused_eq (exact : lua.Exact) (sound : Sound kind now contents) (holds : RedisHolds now contents store)
    {checks : List QuotaCounterCheck} (counters : ∀ check ∈ checks, kind check.key = .counter)
    (bounds : ∀ check ∈ checks, RedisBackend.Small check.max ∧ RedisBackend.Small check.amount ∧
      RedisBackend.Small (number contents check.key + check.amount)) :
    firstRefused lua (milliseconds now) store checks =
      some ((checks.find? fun check => !check.fits (number contents check.key)).map QuotaCounterCheck.key) := by
  induction checks with
  | nil => rfl
  | cons check rest ih =>
    obtain ⟨limit,amount,sum⟩ := bounds check (List.mem_cons_self ..)
    have later := ih (fun other member => counters other (List.mem_cons_of_mem _ member))
      (fun other member => bounds other (List.mem_cons_of_mem _ member))
    unfold firstRefused
    rw [admits_eq exact sound holds (counters check (List.mem_cons_self ..)) limit amount sum,List.find?_cons]
    cases check.fits (number contents check.key) with
    | true => exact later
    | false => rfl

private theorem positive_milliseconds {ttl : Int} (lifetime : 1 ≤ ttl) : 0 < milliseconds ttl := by
  unfold milliseconds
  omega

private theorem at_least_one {ttl : Int} (lifetime : 1 ≤ ttl) : max (milliseconds ttl) 1 = milliseconds ttl := by
  unfold milliseconds
  omega

theorem small_pttl (sound : Sound kind now contents) (holds : RedisHolds now contents store) {held : Held}
    (found : contents key = some held) : RedisBackend.Small (pttl (milliseconds now) store key) := by
  rw [pttl_eq holds found]
  cases chosen : held.deadline with
  | none => exact (by decide : RedisBackend.Small (-1))
  | some expiry => exact sound.lifetimes key held found expiry chosen

private theorem left_positive {now expiry : Int} (ahead : now < expiry) : 0 < milliseconds (expiry - now) := by
  unfold milliseconds
  omega

theorem startLifetime_eq (exact : lua.Exact) (sound : Sound kind now contents) (holds : RedisHolds now contents store)
    {held : Held} (found : contents key = some held) {ttl : Option Seconds} (lifetimes : ∀ lifetime ∈ ttl, 1 ≤ lifetime)
    (short : ∀ lifetime ∈ ttl, RedisBackend.Small (milliseconds lifetime)) :
    ∃ after, startLifetime lua (milliseconds now) store key (lua.ofInteger ((ttl.map milliseconds).getD 0)) = (after,true) ∧
      RedisHolds now (put contents key (some ⟨held.text,held.deadline.or (ttl.map (now + ·))⟩)) after := by
  have remaining := pttl_eq holds found
  have bounded := small_pttl sound holds found
  unfold startLifetime
  rw [exact.lt _ _ bounded small_zero]
  cases ttl with
  | none =>
    refine ⟨store,?_,?_⟩
    · rw [Option.map_none,Option.getD_none,exact.lt _ _ small_zero small_zero]
      rfl
    · rw [Option.map_none,Option.or_none,put_self _ found]
      exact holds
  | some ttl =>
    have lifetime := lifetimes ttl rfl
    have bound := short ttl rfl
    rw [Option.map_some,Option.getD_some,exact.lt _ _ small_zero bound,exact.write _ bound,
      decide_eq_true (positive_milliseconds lifetime),Bool.true_and]
    cases chosen : held.deadline with
    | none =>
      have persistent : pttl (milliseconds now) store key < 0 := by
        rw [remaining,chosen]
        exact (by decide : (-1 : Int) < 0)
      rw [decide_eq_true persistent,if_pos rfl,pexpire_eq holds found]
      refine ⟨_,rfl,?_⟩
      apply holds.assign
      rintro _ ⟨⟩ _ ⟨⟩
      exact ahead_of_ttl lifetime
    | some expiry =>
      have lasts : ¬pttl (milliseconds now) store key < 0 := by
        rw [remaining,chosen]
        have ahead := left_positive (sound.ahead key held found expiry chosen)
        exact Int.not_lt.mpr (Int.le_of_lt ahead)
      rw [decide_eq_false lasts]
      have same : (⟨held.text,(some expiry).or (some (now + ttl))⟩ : Held) = held := by
        rw [Option.some_or,← chosen]
      refine ⟨store,rfl,?_⟩
      rw [Option.map_some,same,put_self _ found]
      exact holds

theorem redis_consume (exact : lua.Exact) (sound : Sound kind now contents) (holds : RedisHolds now contents store)
    {check : QuotaCounterCheck} (counter : kind check.key = .counter) (amount : RedisBackend.Small check.amount)
    (lifetimes : ∀ ttl ∈ check.ttl, 1 ≤ ttl) (short : ∀ ttl ∈ check.ttl, RedisBackend.Small (milliseconds ttl))
    (sum : RedisBackend.Small (number contents check.key + check.amount)) :
    ∃ after, RedisBackend.consume lua (milliseconds now) store check = (after,true) ∧
      RedisHolds now (consume contents now check) after := by
  have lifetime : RedisBackend.Small ((check.ttl.map milliseconds).getD 0) := by
    cases given : check.ttl with
    | none => exact small_zero
    | some ttl => exact short ttl given
  have fit : Fit kind now check.key ⟨print (number contents check.key + check.amount),deadline contents check.key⟩ :=
    sound.fit_kept check.key sum
  obtain ⟨after,started,follows⟩ := startLifetime_eq exact (sound.some fit) (holds.fit fit) (put_same _) lifetimes short
  rw [put_put] at follows
  refine ⟨after,?_,follows⟩
  unfold RedisBackend.consume
  rw [exact.tonumber _ amount,exact.tonumber _ lifetime]
  simp only
  rw [exact.write _ amount,parseStrict_print,Option.bind_some,incrBy_eq sound holds counter]
  exact started

theorem redis_consumeAll (exact : lua.Exact) {checks : List QuotaCounterCheck} (sound : Sound kind now contents)
    (holds : RedisHolds now contents store) (counters : ∀ check ∈ checks, kind check.key = .counter)
    (amounts : ∀ check ∈ checks, RedisBackend.Small check.amount) (lifetimes : ∀ check ∈ checks, ∀ ttl ∈ check.ttl, 1 ≤ ttl)
    (short : ∀ check ∈ checks, ∀ ttl ∈ check.ttl, RedisBackend.Small (milliseconds ttl)) (fits : ConsumeFits now contents checks) :
    ∃ after, consumeAll lua (milliseconds now) store checks = (after,true) ∧
      RedisHolds now (checks.foldl (fun contents check => consume contents now check) contents) after := by
  induction checks generalizing contents store with
  | nil => exact ⟨store,rfl,holds⟩
  | cons check rest ih =>
    obtain ⟨small,_,later⟩ := fits
    have first : check ∈ check :: rest := List.mem_cons_self ..
    obtain ⟨after,consumed,follows⟩ := redis_consume exact sound holds (counters check first) (amounts check first)
      (lifetimes check first) (short check first) small
    have next := sound.consume (lifetimes check first) (short check first) small
    have inside {other : QuotaCounterCheck} (member : other ∈ rest) : other ∈ check :: rest := List.mem_cons_of_mem _ member
    obtain ⟨last,all,ends⟩ := ih next follows (fun _ member => counters _ (inside member))
      (fun _ member => amounts _ (inside member)) (fun _ member => lifetimes _ (inside member))
      (fun _ member => short _ (inside member)) later
    refine ⟨last,?_,ends⟩
    unfold consumeAll
    rw [consumed]
    exact all

private theorem until_expiry (now expiry : Int) : now + (expiry - now) = expiry := by omega

theorem redis_adjust (exact : lua.Exact) (sound : Sound kind now contents) (holds : RedisHolds now contents store)
    (counter : kind key = .counter) {amount : Int} (small : RedisBackend.Small amount) (sum : RedisBackend.Small (number contents key + amount)) :
    ∃ after, RedisBackend.adjustCounter lua (milliseconds now) store key amount = (after,.number (adjust contents key amount).2) ∧
      RedisHolds now (adjust contents key amount).1 after := by
  have bounded : RedisBackend.Small (max (number contents key + amount) 0) := small_max sum
  have next : (if lua.lt (lua.ofInteger (number contents key + amount)) (lua.ofInteger 0) then lua.ofInteger 0
      else lua.ofInteger (number contents key + amount)) = lua.ofInteger (max (number contents key + amount) 0) := by
    rw [exact.lt _ _ sum small_zero]
    by_cases negative : number contents key + amount < 0
    · rw [decide_eq_true negative,if_pos rfl,Int.max_eq_right (Int.le_of_lt negative)]
    · rw [decide_eq_false negative,if_neg Bool.false_ne_true,Int.max_eq_left (Int.not_lt.mp negative)]
  have written : RedisHolds now (put contents key (some ⟨print (max (number contents key + amount) 0),none⟩))
      (RedisBackend.assign store key (some ⟨print (max (number contents key + amount) 0),none⟩)) :=
    holds.assign fun _ same _ impossible => by cases same; cases impossible
  unfold RedisBackend.adjustCounter CacheContents.adjust
  rw [currentNumber_eq exact sound holds counter,exact.tonumber _ small]
  simp only
  rw [exact.add _ _ (sound.small counter) small sum,next,exact.write _ bounded,exact.reply _ bounded]
  cases found : contents key with
  | none =>
    have absent : pttl (milliseconds now) store key = -2 := by
      unfold pttl
      rw [holds key,found]
      rfl
    have unlimited : deadline contents key = none := by
      unfold deadline
      rw [found]
      rfl
    rw [absent,exact.lt _ _ small_zero (by decide),unlimited]
    exact ⟨_,rfl,written⟩
  | some held =>
    have remaining := pttl_eq holds found
    have short := small_pttl sound holds found
    have kept : deadline contents key = held.deadline := by
      unfold deadline
      rw [found]
      rfl
    rw [exact.lt _ _ small_zero short,exact.write _ short,kept]
    cases chosen : held.deadline with
    | none =>
      rw [remaining,chosen]
      exact ⟨_,rfl,written⟩
    | some expiry =>
      rw [remaining,chosen]
      have ahead := sound.ahead key held found expiry chosen
      simp only
      rw [decide_eq_true (left_positive ahead),if_pos rfl,pexpire_eq written (put_same _)]
      refine ⟨_,rfl,?_⟩
      rw [until_expiry now expiry,← put_put (some ⟨print (max (number contents key + amount) 0),none⟩)]
      apply written.assign
      rintro _ ⟨⟩ _ ⟨⟩
      exact ahead

theorem redis_acquire (exact : lua.Exact) (sound : Sound kind now contents) (holds : RedisHolds now contents store)
    (counter : kind key = .counter) {limit : Int} {ttl : Seconds} (bounded : RedisBackend.Small limit)
    (sum : RedisBackend.Small (number contents key + 1)) (lifetime : 1 ≤ ttl) (short : RedisBackend.Small (milliseconds ttl)) :
    RedisFollows now (RedisBackend.acquireSlot lua (milliseconds now) store key limit ttl)
      (CacheContents.call now contents (.acquireSlot key limit ttl)) := by
  have granted : (!lua.lt (lua.ofInteger limit) (lua.ofInteger 0) &&
      lua.lt (lua.ofInteger limit) (lua.add (lua.ofInteger (number contents key)) (lua.ofInteger 1))) =
        decide (0 ≤ limit ∧ limit < number contents key + 1) := by
    rw [exact.add _ _ (sound.small counter) (by decide) sum,exact.lt _ _ bounded small_zero,exact.lt _ _ bounded sum]
    rw [Bool.decide_and]
    congr 1
    by_cases negative : limit < 0
    · simp [negative,Int.not_le.mpr negative]
    · simp [negative,Int.not_lt.mp negative]
  simp only [RedisBackend.acquireSlot,CacheContents.call]
  rw [at_least_one lifetime,exact.tonumber _ bounded,currentNumber_eq exact sound holds counter,
    exact.tonumber _ short]
  simp only
  rw [granted]
  by_cases refused : 0 ≤ limit ∧ limit < number contents key + 1
  · rw [decide_eq_true refused,if_pos rfl,if_pos refused]
    exact ⟨rfl,holds⟩
  · have fit : Fit kind now key ⟨print (number contents key + 1),deadline contents key⟩ := sound.fit_kept key sum
    have counted := holds.fit fit
    rw [decide_eq_false refused,if_neg Bool.false_ne_true,if_neg refused,incrBy_eq sound holds counter]
    simp only
    rw [exact.write _ short,pexpire_eq counted (put_same _)]
    refine ⟨rfl,?_⟩
    rw [← put_put (some ⟨print (number contents key + 1),deadline contents key⟩)]
    apply counted.assign
    rintro _ ⟨⟩ _ ⟨⟩
    exact ahead_of_ttl lifetime

theorem redis_setPx (holds : RedisHolds now contents store) {value : Text} {ttl : Seconds} (lifetime : 1 ≤ ttl) :
    RedisHolds now (put contents key (some ⟨value,some (now + ttl)⟩))
      (setPx (milliseconds now) store key value (milliseconds ttl)) := by
  unfold setPx
  rw [milliseconds_add now ttl]
  apply holds.assign
  rintro _ ⟨⟩ _ ⟨⟩
  exact ahead_of_ttl lifetime

theorem redis_step (sound : Sound kind now contents) (holds : RedisHolds now contents store) (counter : kind key = .counter)
    {amount : Int} (small : RedisBackend.Small (number contents key + amount)) :
    RedisFollows now (RedisBackend.step (milliseconds now) store key amount) (CacheContents.step contents key amount) := by
  unfold RedisBackend.step
  rw [incrBy_eq sound holds counter]
  have fit : Fit kind now key ⟨print (number contents key + amount),deadline contents key⟩ := sound.fit_kept key small
  exact ⟨rfl,holds.fit fit⟩

theorem redis_checkAndConsume (exact : lua.Exact) (sound : Sound kind now contents) (holds : RedisHolds now contents store)
    {checks : List QuotaCounterCheck} (consistent : Consistent kind (.checkAndConsume checks))
    (lifetimes : Lifetimes (.checkAndConsume checks)) (fits : Fits kind now contents (.checkAndConsume checks)) :
    RedisFollows now (RedisBackend.checkAndConsume lua (milliseconds now) store checks)
      (CacheContents.call now contents (.checkAndConsume checks)) := by
  obtain ⟨bounds,consumes⟩ := fits
  have first := firstRefused_eq exact sound holds consistent fun check member =>
    ⟨(bounds check member).1,(bounds check member).2.1,(bounds check member).2.2.1⟩
  unfold RedisBackend.checkAndConsume
  cases checks with
  | nil => exact ⟨rfl,holds⟩
  | cons check rest =>
    simp only [List.isEmpty_cons,Bool.false_eq_true,if_false]
    rw [first]
    simp only [CacheContents.call]
    cases refused : (check :: rest).find? fun check => !check.fits (number contents check.key) with
    | some other => exact ⟨rfl,holds⟩
    | none =>
      obtain ⟨after,consumed,follows⟩ := redis_consumeAll exact sound holds consistent
        (fun check member => (bounds check member).2.1) lifetimes (fun check member => (bounds check member).2.2.2)
        (consumes refused)
      simp only [Option.map_none]
      rw [consumed]
      exact ⟨rfl,follows⟩

theorem redis_call (exact : lua.Exact) (sound : Sound kind now contents) (holds : RedisHolds now contents store)
    {call : Call} (consistent : Consistent kind call) (lifetimes : Lifetimes call) (fits : Fits kind now contents call) :
    RedisFollows now (RedisBackend.call lua now store call) (CacheContents.call now contents call) := by
  cases call with
  | get key => exact ⟨congrArg Result.value (redis_get holds),holds⟩
  | take key => exact ⟨congrArg Result.value (redis_get holds),holds.none⟩
  | delete key => exact ⟨rfl,holds.none⟩
  | set key value ttl =>
    have lifetime : 1 ≤ ttl := lifetimes
    simp only [RedisBackend.call,RedisBackend.setEx,CacheContents.call]
    rw [if_neg (Int.not_le.mpr lifetime)]
    exact ⟨rfl,redis_setPx holds lifetime⟩
  | updateIfPresent key value ttl =>
    have lifetime : 1 ≤ ttl := lifetimes
    have present : (live (milliseconds now) store key).isNone = (contents key).isNone := by rw [holds key,Option.isNone_map]
    simp only [RedisBackend.call,RedisBackend.updateIfPresent,CacheContents.call,present]
    split
    · exact ⟨rfl,holds⟩
    · rw [at_least_one lifetime]
      exact ⟨rfl,redis_setPx holds lifetime⟩
  | setIfAbsent key value ttl =>
    have lifetime : 1 ≤ ttl := lifetimes
    have present : (live (milliseconds now) store key).isSome = (contents key).isSome := by rw [holds key,Option.isSome_map]
    simp only [RedisBackend.call,RedisBackend.setIfAbsent,CacheContents.call,present]
    split
    · exact ⟨rfl,holds⟩
    · rw [at_least_one lifetime]
      exact ⟨rfl,redis_setPx holds lifetime⟩
  | incr key => exact redis_step sound holds consistent fits.2
  | decr key => exact redis_step sound holds consistent fits.2
  | checkAndConsume checks => exact redis_checkAndConsume exact sound holds consistent lifetimes fits
  | adjustCounter key amount =>
    obtain ⟨after,adjusted,follows⟩ := redis_adjust exact sound holds consistent fits.1 fits.2
    simp only [RedisBackend.call,adjusted]
    exact ⟨rfl,follows⟩
  | acquireSlot key limit ttl => exact redis_acquire exact sound holds consistent fits.1 fits.2.1 lifetimes fits.2.2
  | releaseSlot key =>
    obtain ⟨after,adjusted,follows⟩ := redis_adjust exact sound holds consistent (by decide) fits
    simp only [RedisBackend.call,RedisBackend.releaseSlot,adjusted]
    exact ⟨rfl,follows⟩

end Redis

section Waiting
variable {kind : Key → Kind} {now later : Seconds} {contents : Contents}

private theorem all_of_le {now later : Int} (order : now ≤ later) {deadline : Option Int}
    (lasts : deadline.all (later < ·)) : deadline.all (now < ·) := by
  cases deadline with
  | none => rfl
  | some expiry =>
    have ahead : later < expiry := of_decide_eq_true lasts
    have sooner : now < expiry := by omega
    exact decide_eq_true sooner

private theorem filter_later {α : Type} {first second : α → Bool} (fewer : ∀ value, second value → first value) (value : Option α) :
    value.filter second = (value.filter first).filter second := by
  cases value with
  | none => rfl
  | some value =>
    rw [Option.filter_some (p := first)]
    by_cases found : first value
    · rw [if_pos found]
    · rw [if_neg found]
      exact Option.filter_some_neg (Bool.eq_false_iff.mpr fun kept => found (fewer value kept))

theorem view_wait (order : now ≤ later) (cache : MokaBackend.MokaCache) : view later cache = wait (view now cache) later := by
  funext key
  have kept : (cache key).filter (MokaBackend.Entry.alive later) =
      ((cache key).filter (MokaBackend.Entry.alive now)).filter (MokaBackend.Entry.alive later) :=
    filter_later (fun entry => all_of_le order) (cache key)
  unfold view wait
  rw [Option.filter_map]
  exact congrArg (Option.map viewEntry) kept

theorem Stamped.wait {cache : MokaBackend.MokaCache} (stamped : Stamped now cache) (order : now ≤ later) : Stamped later cache := by
  intro key entry found
  obtain ⟨present,lasts⟩ := Option.filter_eq_some_iff.mp found
  exact stamped key entry (Option.filter_eq_some_iff.mpr ⟨present,all_of_le order lasts⟩)

private theorem milliseconds_le {now later : Int} (order : now ≤ later) : milliseconds now ≤ milliseconds later := by
  unfold milliseconds
  omega

theorem alive_toEntry_iff (held : Held) :
    RedisBackend.Entry.alive (milliseconds later) (toEntry held) = held.deadline.all (later < ·) := by
  unfold RedisBackend.Entry.alive toEntry
  cases held.deadline with
  | none => rfl
  | some expiry => exact decide_eq_decide.mpr milliseconds_lt

theorem RedisHolds.wait {store : RedisBackend.Store} (holds : RedisHolds now contents store) (order : now ≤ later) :
    RedisHolds later (wait contents later) store := by
  intro key
  have held : (store key).filter (RedisBackend.Entry.alive (milliseconds now)) = (contents key).map toEntry := holds key
  calc
    (store key).filter (RedisBackend.Entry.alive (milliseconds later)) =
        ((store key).filter (RedisBackend.Entry.alive (milliseconds now))).filter (RedisBackend.Entry.alive (milliseconds later)) :=
      filter_later (fun entry => all_of_le (milliseconds_le order)) (store key)
    _ = ((contents key).filter fun held => RedisBackend.Entry.alive (milliseconds later) (toEntry held)).map toEntry := by
      rw [held,Option.filter_map]
      rfl
    _ = (CacheContents.wait contents later key).map toEntry := by
      unfold CacheContents.wait
      simp only [alive_toEntry_iff]

private theorem small_between {now later expiry : Int} (order : now ≤ later) (ahead : later < expiry)
    (small : RedisBackend.Small (milliseconds (expiry - now))) : RedisBackend.Small (milliseconds (expiry - later)) := by
  unfold RedisBackend.Small milliseconds at *
  omega

theorem Sound.wait (sound : Sound kind now contents) (order : now ≤ later) : Sound kind later (wait contents later) := by
  constructor
  · exact ahead_wait
  · intro key held found
    exact sound.counters key held (Option.filter_eq_some_iff.mp found).1
  · intro key held found expiry same
    exact small_between order (ahead_wait key held found expiry same)
      (sound.lifetimes key held (Option.filter_eq_some_iff.mp found).1 expiry same)

end Waiting

def results {σ : Type} (call : Seconds → σ → Call → σ × Result) : σ → List (Seconds × Call) → List Result
  | _,[] => []
  | s,(now,request) :: rest => (call now s request).2 :: results call (call now s request).1 rest

def mokaStep (cache : MokaBackend.MokaCache) (timed : Seconds × Call) : MokaBackend.MokaCache :=
  (MokaBackend.call timed.1 cache timed.2).1

abbrev AllFit (kind : Key → Kind) : MokaBackend.MokaCache → List (Seconds × Call) → Prop :=
  Runs.Along mokaStep fun cache timed => Fits kind timed.1 (view timed.1 cache) timed.2

structure Together (kind : Key → Kind) (now : Seconds) (cache : MokaBackend.MokaCache) (store : RedisBackend.Store) : Prop where
  stamped : Stamped now cache
  sound : Sound kind now (view now cache)
  holds : RedisHolds now (view now cache) store

theorem Together.wait {kind : Key → Kind} {now later : Seconds} {cache : MokaBackend.MokaCache} {store : RedisBackend.Store}
    (together : Together kind now cache store) (order : now ≤ later) : Together kind later cache store := by
  have same := view_wait order cache
  refine ⟨together.stamped.wait order,?_,?_⟩
  · rw [same]
    exact together.sound.wait order
  · rw [same]
    exact together.holds.wait order

theorem Together.call {lua : RedisBackend.LuaNumbers} (exact : lua.Exact) {kind : Key → Kind} {now : Seconds}
    {cache : MokaBackend.MokaCache} {store : RedisBackend.Store} (together : Together kind now cache store) {call : Call}
    (consistent : Consistent kind call) (lifetimes : Lifetimes call) (fits : Fits kind now (view now cache) call) :
    (MokaBackend.call now cache call).2 = (RedisBackend.call lua now store call).2 ∧
      Together kind now (MokaBackend.call now cache call).1 (RedisBackend.call lua now store call).1 := by
  obtain ⟨mokaResult,mokaView,stamped⟩ := moka_call together.stamped lifetimes fits
  obtain ⟨redisResult,holds⟩ := redis_call exact together.sound together.holds consistent lifetimes fits
  refine ⟨mokaResult.trans redisResult.symm,stamped,?_,?_⟩
  · rw [mokaView]
    exact together.sound.call consistent lifetimes fits
  · rw [mokaView]
    exact holds

private theorem results_eq {lua : RedisBackend.LuaNumbers} (exact : lua.Exact) {kind : Key → Kind}
    {calls : List (Seconds × Call)} {now : Seconds} {cache : MokaBackend.MokaCache} {store : RedisBackend.Store}
    (together : Together kind now cache store) (later : ∀ timed ∈ calls, now ≤ timed.1)
    (ordered : calls.Pairwise fun first second => first.1 ≤ second.1)
    (consistent : ∀ timed ∈ calls, Consistent kind timed.2) (lifetimes : ∀ timed ∈ calls, Lifetimes timed.2)
    (fits : AllFit kind cache calls) :
    results MokaBackend.call cache calls = results (RedisBackend.call lua) store calls := by
  induction calls generalizing now cache store with
  | nil => rfl
  | cons timed rest ih =>
    obtain ⟨time,request⟩ := timed
    obtain ⟨fit,others⟩ := fits
    obtain ⟨first,ordered⟩ := List.pairwise_cons.mp ordered
    have here : (time,request) ∈ (time,request) :: rest := List.mem_cons_self ..
    obtain ⟨same,together⟩ := (together.wait (later _ here)).call exact (consistent _ here) (lifetimes _ here) fit
    unfold results
    rw [same]
    congr 1
    apply ih together first ordered _ _ others
    · exact fun other member => consistent other (List.mem_cons_of_mem _ member)
    · exact fun other member => lifetimes other (List.mem_cons_of_mem _ member)

theorem backends_agree_of_fitting (lua : RedisBackend.LuaNumbers) (exact : lua.Exact) (kind : Key → Kind)
    (calls : List (Seconds × Call)) (ordered : calls.Pairwise fun first second => first.1 ≤ second.1)
    (consistent : ∀ timed ∈ calls, Consistent kind timed.2) (lifetimes : ∀ timed ∈ calls, Lifetimes timed.2)
    (fits : AllFit kind (fun _ => none) calls) :
    results MokaBackend.call (fun _ => none) calls = results (RedisBackend.call lua) (fun _ => none) calls := by
  cases calls with
  | nil => rfl
  | cons timed rest =>
    have together : Together kind timed.1 (fun _ => none) fun _ => none := by
      refine ⟨?_,⟨?_,?_,?_⟩,?_⟩
      · intro key entry impossible
        cases impossible
      · intro key held impossible
        cases impossible
      · intro key held impossible
        cases impossible
      · intro key held impossible
        cases impossible
      · intro key
        rfl
    apply results_eq exact together _ ordered consistent lifetimes fits
    intro other member
    rcases List.mem_cons.mp member with rfl | inside
    · exact Int.le_refl _
    · exact (List.pairwise_cons.mp ordered).1 other inside

section Examples
open RedisBackend

def integers : LuaNumbers where
  Number := Int
  ofInteger := id
  tonumber := parse
  add := (· + ·)
  lt m n := decide (m < n)
  write := print
  reply := id

theorem integers_exact : integers.Exact where
  tonumber n _ := parse_print n
  add _ _ _ _ _ := rfl
  lt _ _ _ _ := rfl
  write _ _ := rfl
  reply _ _ := rfl

def attempts : Key := "attempts"

/-- A counter that is to live ten seconds is incremented, and read after twenty. -/
def incremented : List (Seconds × Call) := [(0,.set attempts (print 1) 10),(0,.incr attempts),(20,.get attempts)]

theorem increment_keeps_counter_alive :
    (incremented.Pairwise fun first second => first.1 ≤ second.1) ∧
      (∀ timed ∈ incremented, Consistent (fun _ => .counter) timed.2) ∧ (∀ timed ∈ incremented, Lifetimes timed.2) ∧
      results MokaBackend.call (fun _ => none) incremented ≠ results (RedisBackend.call integers) (fun _ => none) incremented := by
  refine ⟨by decide,?_,?_,by decide⟩
  · intro timed member
    simp only [incremented,List.mem_cons,List.not_mem_nil,or_false] at member
    rcases member with rfl | rfl | rfl
    · exact fun _ => ⟨1,rfl⟩
    · rfl
    · trivial
  · intro timed member
    simp only [incremented,List.mem_cons,List.not_mem_nil,or_false] at member
    rcases member with rfl | rfl | rfl
    · exact (by decide : (1 : Int) ≤ 10)
    · trivial
    · trivial

def charged : List (Seconds × Call) :=
  [(0,.setIfAbsent "projects" (print 2) 60),(5,.adjustCounter "projects" (-1)),(9,.acquireSlot "slots" 1 30),(70,.get "projects")]

theorem backends_agree_charged :
    results MokaBackend.call (fun _ => none) charged = results (RedisBackend.call integers) (fun _ => none) charged := by
  apply backends_agree_of_fitting integers integers_exact (fun _ => .counter) charged (by decide)
  · intro timed member
    simp only [charged,List.mem_cons,List.not_mem_nil,or_false] at member
    rcases member with rfl | rfl | rfl | rfl
    · exact fun _ => ⟨2,rfl⟩
    · rfl
    · rfl
    · trivial
  · intro timed member
    simp only [charged,List.mem_cons,List.not_mem_nil,or_false] at member
    rcases member with rfl | rfl | rfl | rfl
    · exact (by decide : (1 : Int) ≤ 60)
    · trivial
    · exact (by decide : (1 : Int) ≤ 30)
    · trivial
  · exact ⟨⟨by decide,fun _ => by decide⟩,⟨by decide,by decide⟩,⟨by decide,by decide,by decide⟩,trivial,trivial⟩

end Examples

end GrassWorker.CacheAgreement
