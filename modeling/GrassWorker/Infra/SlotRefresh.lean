import GrassWorker.Cache.Moka
import GrassWorker.Foundations.Interleaving

/-! The build-slot counter of one team under handlers that acquire a slot, release
one or refresh the counter. Refreshing is two calls: the value is read, and what was
read is written back with a new expiry. -/
namespace GrassWorker.SlotRefresh
open CacheBackend MokaBackend Decimal Interleaving Runs

def buildSlotTtl : Seconds := 60 * 30

inductive Request
  | acquire (limit : Int)
  | release
  | refresh

inductive Handler
  | acquire (limit : Int)
  | release
  | refresh
  /-- `refresh_build_slot` between its two calls. -/
  | update (value : Text)
deriving DecidableEq

/-- The cache, and the initial counter plus the slots acquired minus those released. -/
structure Shared where
  cache : MokaCache
  tally : Int

def enter : Request → Handler
  | .acquire limit => .acquire limit
  | .release => .release
  | .refresh => .refresh

section Machine
variable (key : Key)

def advance (now : Seconds) (shared : Shared) : Handler → Shared × Option Handler
  | .acquire limit =>
    let (cache,acquired) := acquireSlot now shared.cache key limit buildSlotTtl
    (⟨cache,if acquired then shared.tally + 1 else shared.tally⟩,none)
  | .release => (⟨releaseSlot now shared.cache key,max (shared.tally - 1) 0⟩,none)
  | .refresh => (shared,(get now shared.cache key).map .update)
  | .update value => (⟨(updateIfPresent now shared.cache key value buildSlotTtl).1,shared.tally⟩,none)

def machine : Machine Shared Handler Request Seconds where
  enter := enter
  advance now shared handler := advance key now shared handler

def Lasting (now : Seconds) (cache : MokaCache) : Prop := ∀ entry, cache key = some entry → entry.alive now

instance (now : Seconds) (cache : MokaCache) : Decidable (Lasting key now cache) :=
  decidable_of_iff (∀ entry ∈ cache key, entry.alive now) Iff.rfl

def Current (now : Seconds) (cache : MokaCache) : Handler → Prop
  | .update value => (peek now cache key).isSome → readCounter now cache key = (parse value).getD 0
  | _ => True

def Balanced (shared : Shared) : Prop :=
  ∀ now, Lasting key now shared.cache → readCounter now shared.cache key = shared.tally

def number (cache : MokaCache) : Int := (((cache key).bind fun entry => parse (stored entry.raw)).getD 0)

end Machine

section Steps
variable {key : Key} {now : Seconds} {cache : MokaCache} {shared : Shared}

theorem peek_of_lasting (lasting : Lasting key now cache) : peek now cache key = (cache key).map Entry.raw := by
  unfold peek
  cases found : cache key with
  | none => rfl
  | some entry => rw [Option.filter_some,if_pos (lasting entry found)]

theorem readCounter_of_lasting (lasting : Lasting key now cache) : readCounter now cache key = number key cache := by
  unfold readCounter number
  rw [readCounterEntry_fst,peek_of_lasting lasting]
  cases cache key <;> rfl

theorem number_insert (raw : Text) : number key (insert now cache key raw) = (parse (stored raw)).getD 0 := by
  unfold number
  rw [insert_same]
  rfl

theorem number_writeCounter (value : Int) (expiry : Option Seconds) :
    number key (writeCounter now cache key value expiry) = value := by
  unfold writeCounter
  rw [number_insert]
  cases expiry with
  | none =>
    rw [stored_print,parse_print]
    rfl
  | some expiry =>
    rw [stored_format,parse_print]
    rfl

theorem number_acquireSlot (limit : Int) (lasting : Lasting key now cache) :
    number key (acquireSlot now cache key limit buildSlotTtl).1 =
      if (acquireSlot now cache key limit buildSlotTtl).2 then number key cache + 1 else number key cache := by
  unfold acquireSlot
  simp only
  split
  · rfl
  · rw [number_writeCounter,readCounter_of_lasting lasting]
    rfl

theorem number_releaseSlot (lasting : Lasting key now cache) :
    number key (releaseSlot now cache key) = max (number key cache - 1) 0 := by
  have read : (readCounterEntry now cache key).1 = number key cache := readCounter_of_lasting lasting
  unfold releaseSlot
  rw [number_writeCounter,read]

theorem number_updateIfPresent (lasting : Lasting key now cache) {value : Text} (current : Current key now cache (.update value)) :
    number key (updateIfPresent now cache key value buildSlotTtl).1 = number key cache := by
  unfold updateIfPresent
  split
  · rfl
  · rename_i present
    have held : (peek now cache key).isSome := by simpa [Option.isNone_iff_eq_none,Option.isSome_iff_ne_none] using present
    have same := current held
    rw [readCounter_of_lasting lasting] at same
    unfold MokaBackend.set
    rw [number_insert,stored_format,same]

theorem advance_balanced (handler : Handler) (lasting : Lasting key now shared.cache)
    (current : Current key now shared.cache handler) (balanced : number key shared.cache = shared.tally) :
    number key (advance key now shared handler).1.cache = (advance key now shared handler).1.tally := by
  cases handler with
  | acquire limit =>
    change number key (acquireSlot now shared.cache key limit buildSlotTtl).1 = _
    rw [number_acquireSlot limit lasting,balanced]
    rfl
  | release =>
    change number key (releaseSlot now shared.cache key) = max (shared.tally - 1) 0
    rw [number_releaseSlot lasting,balanced]
  | refresh => exact balanced
  | update value =>
    change number key (updateIfPresent now shared.cache key value buildSlotTtl).1 = shared.tally
    rw [number_updateIfPresent lasting current,balanced]

end Steps

def idle (key : Key) (cache : MokaCache) : Config Shared Handler := ⟨⟨cache,number key cache⟩,[]⟩

theorem refresh_only_extends_of_current (key : Key) (cache : MokaCache) (events : List (Event Request Seconds))
    (lasting : Along (machine key).step (Acting fun now shared _ => Lasting key now shared.cache) (idle key cache) events)
    (current : Along (machine key).step (Acting fun now shared handler => Current key now shared.cache handler)
      (idle key cache) events) :
    Throughout (machine key).step (fun config => Balanced key config.shared) (idle key cache) events := by
  have kept : ∀ config event, number key config.shared.cache = config.shared.tally →
      Acting (fun now shared _ => Lasting key now shared.cache) config event ∧
        Acting (fun now shared handler => Current key now shared.cache handler) config event →
      number key ((machine key).step config event).shared.cache = ((machine key).step config event).shared.tally := by
    rintro config event balanced ⟨lasts,fresh⟩
    cases event with
    | arrive request => exact balanced
    | resume index now =>
      simp only [Machine.step]
      cases found : config.inflight[index]? with
      | none => exact balanced
      | some handler => exact advance_balanced handler (lasts handler found) (fresh handler found) balanced
  have implied : ∀ config : Config Shared Handler, number key config.shared.cache = config.shared.tally →
      Balanced key config.shared := by
    intro config balanced now lasts
    rw [readCounter_of_lasting lasts]
    exact balanced
  exact throughout_of_invariant kept implied (idle key cache) events rfl (along_and lasting current)

section Examples

def teamSlots : Key := "quota:team:2:concurrent_builds"

def oneRunning : MokaCache := writeCounter 0 (fun _ => none) teamSlots 1 (some 1800)

/-- A second build starts while the first one's refresh is between its two calls. -/
def refreshedAcross : List (Event Request Seconds) :=
  [.arrive .refresh,.resume 0 10,.arrive (.acquire 4),.resume 1 10,.resume 0 10]

theorem refresh_drops_acquired_slot :
    Along (machine teamSlots).step (Acting fun now shared _ => Lasting teamSlots now shared.cache)
        (idle teamSlots oneRunning) refreshedAcross ∧
      ¬Throughout (machine teamSlots).step (fun config => Balanced teamSlots config.shared) (idle teamSlots oneRunning)
        refreshedAcross := by
  refine ⟨by decide,fun balanced => ?_⟩
  have last := balanced.last 10 (by decide)
  revert last
  decide

theorem refresh_only_extends_alone : Throughout (machine teamSlots).step (fun config => Balanced teamSlots config.shared)
    (idle teamSlots oneRunning) [.arrive .refresh,.arrive (.acquire 4),.resume 0 10,.resume 0 20,.resume 0 30] := by
  apply refresh_only_extends_of_current teamSlots oneRunning
  · decide
  · refine ⟨trivial,trivial,?_,?_,?_,trivial⟩ <;> intro handler found <;> cases found
    · trivial
    · exact fun _ => by decide
    · trivial

end Examples

end GrassWorker.SlotRefresh
