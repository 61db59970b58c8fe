import GrassWorker.Infra.QuotaService
import GrassWorker.Foundations.Interleaving
import Mathlib.Data.List.Count

/-! Requests that reserve one unit of a dimension that counts rows, insert the row and
commit, among requests that delete a row and rebuild the counter from the rows. Every
statement and every call of the cache is one action. -/
namespace GrassWorker.StructuralQuota
open CacheBackend MokaBackend Decimal Quotas QuotaService Interleaving Runs
open SlotRefresh (number)

inductive Request
  | create (kind : RowKind)
  | delete (place : Nat)
  /-- `release_once` of a deleted row is called again. -/
  | retry (place : Nat) (generation : Timestamp)
deriving DecidableEq

inductive Handler
  | seed (kind : RowKind)
  | effectiveUsage (kind : RowKind)
  | fill (kind : RowKind) (usage : Int)
  | consume (kind : RowKind)
  | deny
  /-- One unit is reserved, and its row is not inserted yet. -/
  | insert (kind : RowKind)
  | rollback
  | commit
  | delete (place : Nat)
  | recordRelease (place : Nat) (generation : Timestamp)
  | count
  | overwrite (usage : Int)
deriving DecidableEq

structure Input where
  now : Timestamp
  /-- The statement fails. -/
  fails : Bool := false
deriving DecidableEq

def enter : Request → Handler
  | .create kind => .seed kind
  | .delete place => .delete place
  | .retry place generation => .recordRelease place generation

def weight : Handler → Nat
  | .insert _ | .rollback => 1
  | _ => 0

def Handler.settled : Handler → Bool
  | .fill _ _ | .consume _ => false
  | _ => true

def Handler.overwriting : Handler → Option Int
  | .overwrite usage => some usage
  | _ => none

section Machine
variable (text : KeyText) (calendar : Calendar) (limits : Limits) (teamId : Uuid) (dimension : QuotaDimension)

def reservation (now : Timestamp) : QuotaReservation := ⟨teamId,[(dimension,1,counterKey text calendar teamId dimension now)]⟩

def releaseKey (place : Nat) (generation : Timestamp) : QuotaDimension → IdempotencyKey :=
  fun dimension => .release dimension.asStr place dimension (some generation)

def advance (input : Input) (store : Store) : Handler → Store × Option Handler
  | .seed kind =>
    if (MokaBackend.get (unixTimestamp input.now) store.cache (counterKey text calendar teamId dimension input.now)).isSome then
      (store,some (.consume kind))
    else (store,some (.effectiveUsage kind))
  | .effectiveUsage kind => (store,some (.fill kind (effectiveUsage calendar store teamId dimension input.now)))
  | .fill kind usage =>
    let key := counterKey text calendar teamId dimension input.now
    ({ store with cache := (setIfAbsent (unixTimestamp input.now) store.cache key (print usage) (counterTtl dimension)).1 },
      some (.consume kind))
  | .consume kind =>
    let key := counterKey text calendar teamId dimension input.now
    match checkAndConsume (unixTimestamp input.now) store.cache [check limits (.one dimension) key] with
    | (cache,.allowed) => ({ store with cache := cache },some (.insert kind))
    | (_,.denied _) => (store,some .deny)
  | .deny => (recordDenial calendar teamId dimension input.now store,none)
  | .insert kind =>
    if input.fails then (store,some .rollback)
    else ({ store with rows := store.rows ++ [⟨kind,teamId,none⟩] },some .commit)
  | .rollback => (rollback (reservation text calendar teamId dimension input.now) input.now store,none)
  | .commit =>
    ((commit calendar (reservation text calendar teamId dimension input.now) dimension.asStr none input.now store).1,none)
  | .delete place =>
    match store.rows[place]? with
    | none => (store,none)
    | some row =>
      if row.counts teamId dimension then
        ({ store with rows := store.rows.set place { row with deletedAt := some input.now } },
          some (.recordRelease place input.now))
      else (store,none)
  | .recordRelease place generation =>
    if input.fails then (store,none)
    else match store.ledger.recordEventOnce calendar (releaseKey place generation dimension)
        (releaseParams teamId (.one dimension) dimension.asStr place) input.now with
      | none => (store,none)
      | some (_,ledger) => ({ store with ledger := ledger },some .count)
  | .count => (store,some (.overwrite (effectiveUsage calendar store teamId dimension input.now)))
  | .overwrite usage => (rebuild text calendar teamId dimension usage input.now store,none)

def machine : Machine Store Handler Request Input := ⟨enter,advance text calendar limits teamId dimension⟩

def claimed (config : Config Store Handler) : Nat := liveRows config.shared.rows teamId dimension + owed weight config

/-- A rebuilt counter covers the live rows and the reservations on their way. -/
def Covers (config : Config Store Handler) : Event Request Input → Prop
  | .arrive _ => True
  | .resume index _ => ∀ usage ∈ (config.inflight[index]?).bind Handler.overwriting, claimed teamId dimension config ≤ usage

instance (config : Config Store Handler) : DecidablePred (Covers teamId dimension config)
  | .arrive _ => isTrue trivial
  | .resume index _ => inferInstanceAs (Decidable (∀ usage ∈ (config.inflight[index]?).bind Handler.overwriting, _))

def Kept (input : Input) (store : Store) (_ : Handler) : Prop :=
  SlotRefresh.Lasting (counterKey text calendar teamId dimension input.now) (unixTimestamp input.now) store.cache

instance (input : Input) (store : Store) (handler : Handler) : Decidable (Kept text calendar teamId dimension input store handler) :=
  inferInstanceAs (Decidable (SlotRefresh.Lasting _ _ _))

variable (limit : Int)

/-- The counter covers what is claimed, also while it is being seeded, and the limit does too. -/
structure Counted (config : Config Store Handler) : Prop where
  bound : claimed teamId dimension config ≤ limit
  counter : config.shared.cache (counterKey text calendar teamId dimension 0) ≠ none →
    claimed teamId dimension config ≤ number (counterKey text calendar teamId dimension 0) config.shared.cache
  cold : config.shared.cache (counterKey text calendar teamId dimension 0) = none → owed weight config = 0
  fills : config.shared.cache (counterKey text calendar teamId dimension 0) = none →
    ∀ kind, ∀ usage : Int, .fill kind usage ∈ config.inflight → liveRows config.shared.rows teamId dimension ≤ usage
  consumes : ∀ kind, .consume kind ∈ config.inflight →
    config.shared.cache (counterKey text calendar teamId dimension 0) ≠ none

end Machine

section Rows
variable {rows : List Row} {teamId : Uuid} {dimension : QuotaDimension}

theorem liveRows_insert (row : Row) :
    liveRows (rows ++ [row]) teamId dimension ≤ liveRows rows teamId dimension + 1 := by
  unfold liveRows
  rw [List.countP_append]
  exact Nat.add_le_add_left List.countP_le_length _

theorem liveRows_delete {place : Nat} {row : Row} (found : rows[place]? = some row) (now : Timestamp) :
    liveRows (rows.set place { row with deletedAt := some now }) teamId dimension ≤ liveRows rows teamId dimension := by
  obtain ⟨inside,_⟩ := List.getElem?_eq_some_iff.mp found
  have gone : Row.counts { row with deletedAt := some now } teamId dimension = false := by
    unfold Row.counts
    simp
  unfold liveRows
  rw [List.countP_set inside,gone,if_neg Bool.false_ne_true]
  omega

end Rows

section Steps
attribute [local simp] advance

variable {text : KeyText} {calendar : Calendar} {limits : Limits} {teamId : Uuid} {dimension : QuotaDimension} {limit : Int}
  {config : Config Store Handler} {index : Nat} {input : Input} {handler : Handler} {after : Store} {next : Option Handler}

theorem counterKey_structural (rows : structural dimension) (now : Timestamp) :
    counterKey text calendar teamId dimension now = counterKey text calendar teamId dimension 0 := by
  have static : dimension.period = .none := by revert rows; cases dimension <;> decide
  unfold counterKey
  rw [static]

theorem owed_settle (after : Store) (next : Option Handler) (found : config.inflight[index]? = some handler) :
    owed weight (⟨after,settle config.inflight index next⟩ : Config Store Handler) + weight handler =
      owed weight config + rest weight next := by
  have moved := owed_resume ⟨enter,fun (_ : Input) _ _ => (after,next)⟩ weight config index ⟨0,false⟩ handler found
  simpa only [Machine.step,found] using moved

theorem weight_le_owed (found : config.inflight[index]? = some handler) : weight handler ≤ owed weight config := by
  have moved := owed_settle config.shared none found
  rw [rest_none] at moved
  omega

theorem Counted.calm (counted : Counted text calendar teamId dimension limit config)
    (found : config.inflight[index]? = some handler)
    (same : after.cache (counterKey text calendar teamId dimension 0) =
      config.shared.cache (counterKey text calendar teamId dimension 0))
    (lighter : rest weight next ≤ weight handler)
    (fewer : liveRows after.rows teamId dimension + rest weight next ≤
      liveRows config.shared.rows teamId dimension + weight handler)
    (fill : ∀ kind, ∀ usage : Int, next = some (.fill kind usage) → liveRows after.rows teamId dimension ≤ usage)
    (consume : ∀ kind, next = some (.consume kind) → config.shared.cache (counterKey text calendar teamId dimension 0) ≠ none) :
    Counted text calendar teamId dimension limit ⟨after,settle config.inflight index next⟩ := by
  have moved := owed_settle after next found
  have less : claimed teamId dimension ⟨after,settle config.inflight index next⟩ ≤ claimed teamId dimension config := by
    unfold claimed
    simp only
    omega
  have number' : number (counterKey text calendar teamId dimension 0) after.cache =
      number (counterKey text calendar teamId dimension 0) config.shared.cache := by
    unfold number
    rw [same]
  refine ⟨?_,fun present => ?_,fun absent => ?_,fun absent kind usage member => ?_,fun kind member => ?_⟩
  · have bound := counted.bound
    omega
  · rw [same] at present
    have covered := counted.counter present
    rw [number']
    omega
  · rw [same] at absent
    have idle := counted.cold absent
    omega
  · rw [same] at absent
    have idle := counted.cold absent
    have light := weight_le_owed found
    rcases mem_settle member with old | new
    · have covered := counted.fills absent kind usage old
      change (liveRows after.rows teamId dimension : Int) ≤ usage
      omega
    · exact fill kind usage new
  · rw [same]
    rcases mem_settle member with old | new
    · exact counted.consumes kind old
    · exact consume kind new

theorem Counted.written (found : config.inflight[index]? = some handler)
    (present : after.cache (counterKey text calendar teamId dimension 0) ≠ none)
    (enough : (liveRows after.rows teamId dimension + owed weight config + rest weight next : Int) ≤
      number (counterKey text calendar teamId dimension 0) after.cache + weight handler)
    (bound : (liveRows after.rows teamId dimension + owed weight config + rest weight next : Int) ≤ limit + weight handler) :
    Counted text calendar teamId dimension limit ⟨after,settle config.inflight index next⟩ := by
  have moved := owed_settle after next found
  refine ⟨?_,fun _ => ?_,fun absent => absurd absent present,fun absent => absurd absent present,fun _ _ => present⟩
  · unfold claimed
    simp only
    omega
  · unfold claimed
    simp only
    omega

theorem Counted.still (counted : Counted text calendar teamId dimension limit config)
    (found : config.inflight[index]? = some handler) (cache : after.cache = config.shared.cache)
    (lighter : rest weight next ≤ weight handler)
    (fewer : liveRows after.rows teamId dimension + rest weight next ≤
      liveRows config.shared.rows teamId dimension + weight handler)
    (settled : next.all Handler.settled) : Counted text calendar teamId dimension limit ⟨after,settle config.inflight index next⟩ := by
  refine counted.calm found (congrFun cache _) lighter fewer ?_ ?_
  · intro kind usage same
    rw [same] at settled
    cases settled
  · intro kind same
    rw [same] at settled
    cases settled

theorem effectiveUsage_structural (rows : structural dimension) (store : Store) (now : Timestamp) :
    effectiveUsage calendar store teamId dimension now = liveRows store.rows teamId dimension := by
  unfold effectiveUsage
  rw [if_pos rows]

/-- `set_if_absent` on a key that has not expired. -/
theorem Counted.fill {kind : RowKind} {usage : Int} (counted : Counted text calendar teamId dimension limit config)
    (found : config.inflight[index]? = some (.fill kind usage)) {now : Seconds}
    (kept : SlotRefresh.Lasting (counterKey text calendar teamId dimension 0) now config.shared.cache) (ttl : Seconds)
    (filled : after = { config.shared with cache := (setIfAbsent now config.shared.cache
      (counterKey text calendar teamId dimension 0) (print usage) ttl).1 }) :
    Counted text calendar teamId dimension limit ⟨after,settle config.inflight index (some (.consume kind))⟩ := by
  by_cases there : (peek now config.shared.cache (counterKey text calendar teamId dimension 0)).isSome
  · unfold setIfAbsent at filled
    rw [if_pos there] at filled
    rw [filled]
    refine counted.calm found rfl (Nat.le_refl 0) (Nat.le_refl _) ?_ ?_
    · intro kind usage same
      cases same
    · intro kind same
      exact present_of_peek there
  · unfold setIfAbsent at filled
    rw [if_neg there] at filled
    have absent : config.shared.cache (counterKey text calendar teamId dimension 0) = none := by
      rw [SlotRefresh.peek_of_lasting kept,Option.isSome_map] at there
      simpa using there
    have idle := counted.cold absent
    have covered := counted.fills absent kind usage (List.mem_of_getElem? found)
    have bound := counted.bound
    unfold claimed at bound
    rw [filled]
    refine Counted.written found ?_ ?_ ?_
    · exact insert_present _
    · rw [number_set,idle]
      simpa [weight] using covered
    · rw [idle]
      simp only [weight,rest_some]
      omega

theorem Counted.consume {kind : RowKind} (counted : Counted text calendar teamId dimension limit config)
    (found : config.inflight[index]? = some (.consume kind)) {now : Seconds}
    (kept : SlotRefresh.Lasting (counterKey text calendar teamId dimension 0) now config.shared.cache)
    (limited : limitFor limits dimension = some limit)
    (fits : (check limits (.one dimension) (counterKey text calendar teamId dimension 0)).fits
      (readCounter now config.shared.cache (counterKey text calendar teamId dimension 0)))
    (consumed : after = { config.shared with cache := (MokaBackend.consume now config.shared.cache
      (check limits (.one dimension) (counterKey text calendar teamId dimension 0))) }) :
    Counted text calendar teamId dimension limit ⟨after,settle config.inflight index (some (.insert kind))⟩ := by
  have present := counted.consumes kind (List.mem_of_getElem? found)
  have covered := counted.counter present
  have read := SlotRefresh.readCounter_of_lasting kept
  have one : (QuotaCharge.one dimension).amount = 1 := rfl
  rw [fits_check,read] at fits
  change (limitFor limits dimension).all _ = true at fits
  rw [limited] at fits
  have room := of_decide_eq_true fits
  have total : number (counterKey text calendar teamId dimension 0) (MokaBackend.consume now config.shared.cache
      (check limits (.one dimension) (counterKey text calendar teamId dimension 0))) =
        readCounter now config.shared.cache (counterKey text calendar teamId dimension 0) + 1 := number_consume _
  rw [read] at total
  unfold claimed at covered
  rw [one] at room
  rw [consumed]
  refine Counted.written found ?_ ?_ ?_
  · exact insert_present _
  · rw [total]
    simp only [weight,rest_some]
    omega
  · simp only [weight,rest_some]
    omega

variable {config : Config Store Handler} {index : Nat} {handler : Handler} (input : Input)

theorem record_cache (params : RecordEventParams) (now : Timestamp) (store : Store) :
    (record calendar params now store).1.rows = store.rows ∧ (record calendar params now store).1.cache = store.cache := by
  unfold record
  split <;> exact ⟨rfl,rfl⟩

/-- Every action on a counter that has not expired keeps it above what is claimed, if a rebuild covers that. -/
theorem Counted.advance (rows : structural dimension) (limited : limitFor limits dimension = some limit)
    (counted : Counted text calendar teamId dimension limit config) (found : config.inflight[index]? = some handler)
    (kept : Kept text calendar teamId dimension input config.shared handler)
    (covers : ∀ usage ∈ handler.overwriting, claimed teamId dimension config ≤ usage) :
    Counted text calendar teamId dimension limit
      ⟨(advance text calendar limits teamId dimension input config.shared handler).1,
        settle config.inflight index (advance text calendar limits teamId dimension input config.shared handler).2⟩ := by
  have lasting : SlotRefresh.Lasting (counterKey text calendar teamId dimension 0) (unixTimestamp input.now) config.shared.cache := by
    unfold Kept at kept
    rwa [counterKey_structural rows] at kept
  have bound := counted.bound
  have light := weight_le_owed found
  cases handler with
  | seed kind =>
    simp only [StructuralQuota.advance,counterKey_structural rows input.now]
    split
    · rename_i there
      refine counted.calm found rfl (Nat.le_refl 0) (Nat.le_refl _) (fun kind usage same => by cases same) fun kind same => ?_
      unfold MokaBackend.get at there
      rw [Option.isSome_map] at there
      exact present_of_peek there
    · exact counted.still found rfl (Nat.le_refl 0) (Nat.le_refl _) rfl
  | effectiveUsage kind =>
    refine counted.calm found rfl (Nat.le_refl 0) (Nat.le_refl _) (fun kind usage same => ?_) fun kind same => by cases same
    cases same
    rw [effectiveUsage_structural rows]
    exact Int.le_refl _
  | fill kind usage =>
    simp only [StructuralQuota.advance,counterKey_structural rows input.now]
    exact counted.fill found lasting _ rfl
  | consume kind =>
    have target : (check limits (.one dimension) (counterKey text calendar teamId dimension 0)).key =
        counterKey text calendar teamId dimension 0 := rfl
    simp only [StructuralQuota.advance,counterKey_structural rows input.now,checkAndConsume_one,target]
    by_cases fits : (check limits (.one dimension) (counterKey text calendar teamId dimension 0)).fits
        (readCounter (unixTimestamp input.now) config.shared.cache (counterKey text calendar teamId dimension 0))
    · simp only [if_pos fits]
      exact counted.consume found lasting limited fits rfl
    · simp only [if_neg fits]
      exact counted.still found rfl (Nat.le_refl 0) (Nat.le_refl _) rfl
  | deny => exact counted.still found rfl (Nat.le_refl 0) (Nat.le_refl _) rfl
  | insert kind =>
    simp only [StructuralQuota.advance]
    split
    · exact counted.still found rfl (Nat.le_refl 1) (Nat.le_refl _) rfl
    · exact counted.still found rfl (Nat.zero_le 1) (liveRows_insert _) rfl
  | rollback =>
    have present : config.shared.cache (counterKey text calendar teamId dimension 0) ≠ none := by
      intro absent
      have idle := counted.cold absent
      rw [idle] at light
      exact absurd light (by decide)
    have covered := counted.counter present
    simp only [StructuralQuota.advance,QuotaService.rollback,reservation,List.foldl_cons,List.foldl_nil,
      counterKey_structural rows input.now]
    have given : number (counterKey text calendar teamId dimension 0)
        (adjust (counterKey text calendar teamId dimension 0) (-1) input.now config.shared).cache =
          max (number (counterKey text calendar teamId dimension 0) config.shared.cache + -1) 0 := by
      rw [← SlotRefresh.readCounter_of_lasting lasting]
      exact number_adjustCounter _
    unfold claimed at covered bound
    refine Counted.written found (insert_present _) ?_ ?_
    · rw [given]
      simp only [weight,rest_none,adjust]
      omega
    · simp only [weight,rest_none,adjust]
      omega
  | commit =>
    obtain ⟨same,cache⟩ := @record_cache calendar ⟨teamId,dimension,.consume,1,some dimension.asStr,none⟩ input.now config.shared
    simp only [StructuralQuota.advance,QuotaService.commit,reservation,forEach_one]
    refine counted.still found cache (Nat.le_refl 0) ?_ rfl
    rw [same]
    exact Nat.le_refl _
  | delete place =>
    simp only [StructuralQuota.advance]
    split
    · exact counted.still found rfl (Nat.le_refl 0) (Nat.le_refl _) rfl
    · rename_i row present
      split
      · exact counted.still found rfl (Nat.le_refl 0) (liveRows_delete present _) rfl
      · exact counted.still found rfl (Nat.le_refl 0) (Nat.le_refl _) rfl
  | recordRelease place generation =>
    simp only [StructuralQuota.advance]
    split
    · exact counted.still found rfl (Nat.le_refl 0) (Nat.le_refl _) rfl
    · split <;> exact counted.still found rfl (Nat.le_refl 0) (Nat.le_refl _) rfl
  | count => exact counted.still found rfl (Nat.le_refl 0) (Nat.le_refl _) rfl
  | overwrite usage =>
    have covered := covers usage rfl
    unfold claimed at covered bound
    simp only [StructuralQuota.advance,rebuild,counterKey_structural rows input.now]
    refine Counted.written found (insert_present _) ?_ ?_
    · rw [number_set]
      simp only [weight,rest_none]
      omega
    · simp only [weight,rest_none]
      omega

theorem enter_settled (request : Request) : (enter request).settled ∧ weight (enter request) = 0 := by
  cases request <;> exact ⟨rfl,rfl⟩

theorem Counted.arrive (counted : Counted text calendar teamId dimension limit config) (request : Request) :
    Counted text calendar teamId dimension limit ⟨config.shared,config.inflight ++ [enter request]⟩ := by
  obtain ⟨settled,light⟩ := enter_settled request
  have owed' : owed weight (⟨config.shared,config.inflight ++ [enter request]⟩ : Config Store Handler) = owed weight config := by
    unfold owed
    rw [List.map_append,List.sum_append,List.map_singleton,List.sum_singleton,light,Nat.add_zero]
  have same : claimed teamId dimension ⟨config.shared,config.inflight ++ [enter request]⟩ = claimed teamId dimension config := by
    unfold claimed
    rw [owed']
  have earlier : ∀ handler ∈ config.inflight ++ [enter request], handler.settled = false → handler ∈ config.inflight := by
    intro handler member unsettled
    rcases List.mem_append.mp member with old | new
    · exact old
    · rw [List.mem_singleton.mp new,settled] at unsettled
      cases unsettled
  refine ⟨?_,fun present => ?_,fun absent => ?_,fun absent kind usage member => ?_,fun kind member => ?_⟩
  · rw [same]
    exact counted.bound
  · rw [same]
    exact counted.counter present
  · rw [owed']
    exact counted.cold absent
  · exact counted.fills absent kind usage (earlier _ member rfl)
  · exact counted.consumes kind (earlier _ member rfl)

end Steps

section Alone
variable {text : KeyText} {calendar : Calendar} {limits : Limits} {teamId : Uuid} {dimension : QuotaDimension} {store after : Store}
  {now : Timestamp}

/-- The actions of `reserve`: a missing key is read from the database and filled. -/
def reserving (text : KeyText) (calendar : Calendar) (teamId : Uuid) (dimension : QuotaDimension) (store : Store)
    (now : Timestamp) : List (Event Request Input) :=
  if (MokaBackend.get (unixTimestamp now) store.cache (counterKey text calendar teamId dimension now)).isSome then
    [.resume 0 ⟨now,false⟩,.resume 0 ⟨now,false⟩]
  else [.resume 0 ⟨now,false⟩,.resume 0 ⟨now,false⟩,.resume 0 ⟨now,false⟩,.resume 0 ⟨now,false⟩]

end Alone

section Runs
variable {text : KeyText} {calendar : Calendar} {limits : Limits} {teamId : Uuid} {dimension : QuotaDimension} {limit : Int}

/-- From at most as many rows as the limit on, requests that find the counter alive never exceed it, if every rebuild
of the counter covers the live rows and the reservations on their way. -/
theorem live_rows_bounded (rows : structural dimension) (limited : limitFor limits dimension = some limit) (store : Store)
    (start : liveRows store.rows teamId dimension ≤ limit)
    (truthful : store.cache (counterKey text calendar teamId dimension 0) ≠ none →
      liveRows store.rows teamId dimension ≤ number (counterKey text calendar teamId dimension 0) store.cache)
    (events : List (Event Request Input))
    (kept : Along (machine text calendar limits teamId dimension).step (Acting (Kept text calendar teamId dimension)) ⟨store,[]⟩
      events)
    (covers : Along (machine text calendar limits teamId dimension).step (Covers teamId dimension) ⟨store,[]⟩ events) :
    Throughout (machine text calendar limits teamId dimension).step
      (fun config => liveRows config.shared.rows teamId dimension ≤ limit) ⟨store,[]⟩ events := by
  have permitted := along_and kept covers
  have initial : Counted text calendar teamId dimension limit ⟨store,[]⟩ :=
    ⟨start,truthful,fun _ => rfl,fun _ _ _ member => absurd member List.not_mem_nil,fun _ member => absurd member List.not_mem_nil⟩
  have step : ∀ config event, Counted text calendar teamId dimension limit config →
      Acting (Kept text calendar teamId dimension) config event ∧ Covers teamId dimension config event →
      Counted text calendar teamId dimension limit ((machine text calendar limits teamId dimension).step config event) := by
    intro config event counted allowed
    cases event with
    | arrive request => exact counted.arrive request
    | resume index input =>
      cases found : config.inflight[index]? with
      | none => simpa only [Machine.step,found] using counted
      | some handler =>
        have covered := allowed.2
        simp only [Covers,found] at covered
        simp only [Machine.step,found]
        exact counted.advance input rows limited found (allowed.1 handler found) covered
  have implied : ∀ config : Config Store Handler, Counted text calendar teamId dimension limit config →
      liveRows config.shared.rows teamId dimension ≤ limit := by
    intro config counted
    have bound := counted.bound
    unfold claimed at bound
    omega
  exact throughout_of_invariant step implied ⟨store,[]⟩ events initial permitted

end Runs

namespace Examples

def keyText : KeyText := ⟨fun _ => "team",fun _ => "202607"⟩

def july : Calendar := fun _ => (0,1000000)

def two : Limits := fun _ => some 2

def oneHost : Store := { rows := [⟨.projectHostBinding,7,none⟩] }

def seconds (n : Nat) : Event Request Input := .resume n ⟨1000000,false⟩

/-- One binding is added and one is deleted, whose rebuilt counter is written before the other is reserved. -/
def inTurn : List (Event Request Input) :=
  [.arrive (.delete 0),seconds 0,seconds 0,seconds 0,seconds 0,
    .arrive (.create .projectHostBinding),seconds 0,seconds 0,seconds 0,seconds 0]

/-- A deletion counts the rows while a reserved one is not inserted yet, and two more are reserved then. -/
def rebuiltAcross : List (Event Request Input) :=
  [.arrive (.create .projectHostBinding),seconds 0,seconds 0,seconds 0,seconds 0,
    .arrive (.delete 0),seconds 1,seconds 1,seconds 1,seconds 1,
    .arrive (.create .projectHostBinding),seconds 1,seconds 1,
    .arrive (.create .projectHostBinding),seconds 2,seconds 2,
    seconds 0,seconds 1,seconds 2]

end Examples

open Examples

theorem live_rows_bounded_in_turn : Throughout (machine keyText july two 7 .hosts).step
    (fun config => liveRows config.shared.rows 7 .hosts ≤ (2 : Int)) ⟨oneHost,[]⟩ inTurn :=
  live_rows_bounded rfl rfl oneHost (by decide) (fun present => absurd rfl present) inTurn (by decide) (by decide)

/-- The counter is alive throughout, and three rows are live under a limit of two. -/
theorem rebuilt_counter_forgets_reservation :
    Along (machine keyText july two 7 .hosts).step (Acting (Kept keyText july 7 .hosts)) ⟨oneHost,[]⟩ rebuiltAcross ∧
      limitFor two .hosts = some 2 ∧ liveRows oneHost.rows 7 .hosts = 1 ∧
      liveRows (run (machine keyText july two 7 .hosts).step ⟨oneHost,[]⟩ rebuiltAcross).shared.rows 7 .hosts = 3 := by
  decide

end GrassWorker.StructuralQuota
