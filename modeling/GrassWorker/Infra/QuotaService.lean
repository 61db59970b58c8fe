import GrassWorker.Cache.Moka
import GrassWorker.Domain.Quotas
import GrassWorker.Infra.Errors
import GrassWorker.Infra.SlotRefresh

/-! `QuotaService`: counters in the cache, checked and consumed in one call and seeded
from the database when they are missing, and the events that record what was consumed.
The tables whose live rows are counted are one list of rows. -/
namespace GrassWorker.QuotaService
open CacheBackend MokaBackend Decimal Quotas

def staticCounterTtl : Seconds := 60 * 60 * 24 * 30

def monthlyCounterTtl : Seconds := 60 * 60 * 24 * 40

structure QuotaCharge where
  dimension : QuotaDimension
  amount : Int
deriving DecidableEq

def QuotaCharge.one (dimension : QuotaDimension) : QuotaCharge := ⟨dimension,1⟩

structure QuotaReservation where
  teamId : Uuid
  entries : List (QuotaDimension × Int × Key)
deriving DecidableEq

inductive RowKind
  | project (runtime : ProjectRuntime)
  | teamMember
  | projectHostBinding
deriving DecidableEq

structure Row where
  kind : RowKind
  teamId : Uuid
  deletedAt : Option Timestamp := none
deriving DecidableEq

/-- Whether rows of a kind are counted for a dimension; `none` for dimensions that count no rows. -/
def counted (kind : RowKind) : QuotaDimension → Option Bool
  | .projects => some (match kind with | .project _ => true | _ => false)
  | .projectsStatic => some (kind = .project .static)
  | .projectsSsr => some (kind = .project .ssr)
  | .members => some (kind = .teamMember)
  | .hosts => some (kind = .projectHostBinding)
  | _ => none

def structural (dimension : QuotaDimension) : Bool := (counted .teamMember dimension).isSome

def Row.counts (row : Row) (teamId : Uuid) (dimension : QuotaDimension) : Bool :=
  row.teamId = teamId && row.deletedAt.isNone && counted row.kind dimension = some true

structure Store where
  rows : List Row := []
  ledger : Ledger := {}
  cache : MokaCache := fun _ => none

def liveRows (rows : List Row) (teamId : Uuid) (dimension : QuotaDimension) : Nat :=
  rows.countP fun row => row.counts teamId dimension

structure KeyText where
  uuid : Uuid → String
  month : Timestamp → String

def unixTimestamp (now : Timestamp) : Seconds := now / 1000000

def counterTtl (dimension : QuotaDimension) : Seconds :=
  match dimension.period with
  | .monthly => monthlyCounterTtl
  | .none => staticCounterTtl

def quotaExceededError (dimension : QuotaDimension) : AppError :=
  .quotaExceeded ("quota exceeded: " ++ dimension.asStr ++ " limit reached")

section Service
variable (text : KeyText) (calendar : Calendar)

def counterKey (teamId : Uuid) (dimension : QuotaDimension) (now : Timestamp) : Key :=
  match dimension.period with
  | .monthly => "quota:team:" ++ text.uuid teamId ++ ":" ++ dimension.asStr ++ ":" ++ text.month (calendar now).1
  | .none => "quota:team:" ++ text.uuid teamId ++ ":" ++ dimension.asStr

def effectiveUsage (store : Store) (teamId : Uuid) (dimension : QuotaDimension) (now : Timestamp) : Int :=
  if structural dimension then liveRows store.rows teamId dimension
  else store.ledger.durableUsage calendar teamId dimension now

def seedCounter (teamId : Uuid) (dimension : QuotaDimension) (key : Key) (now : Timestamp) (store : Store) : Store :=
  if !dimension.isCounted then store
  else if (get (unixTimestamp now) store.cache key).isSome then store
  else
    let usage := effectiveUsage calendar store teamId dimension now
    { store with cache := (setIfAbsent (unixTimestamp now) store.cache key (print usage) (counterTtl dimension)).1 }

def check (limits : Limits) (charge : QuotaCharge) (key : Key) : QuotaCounterCheck where
  key := key
  amount := charge.amount
  max := (limitFor limits charge.dimension).getD (-1)
  ttl := some (counterTtl charge.dimension)

def recordDenial (teamId : Uuid) (dimension : QuotaDimension) (now : Timestamp) (store : Store) : Store :=
  { store with ledger := (store.ledger.recordEvent calendar ⟨teamId,dimension,.deny,0,none,none⟩ now).getD store.ledger }

def reserve (limits : Limits) (teamId : Uuid) (charges : List QuotaCharge) (now : Timestamp) (store : Store) :
    Store × Except AppError QuotaReservation :=
  let entries := charges.map fun charge =>
    (charge.dimension,charge.amount,counterKey text calendar teamId charge.dimension now)
  let checks := charges.map fun charge => check limits charge (counterKey text calendar teamId charge.dimension now)
  let seeded := charges.foldl (fun store charge =>
    seedCounter calendar teamId charge.dimension (counterKey text calendar teamId charge.dimension now) now store) store
  let (cache,outcome) := checkAndConsume (unixTimestamp now) seeded.cache checks
  match outcome with
  | .allowed => ({ seeded with cache := cache },.ok ⟨teamId,entries⟩)
  | .denied key =>
    let denied := ((entries.find? fun entry => entry.2.2 = key).map Prod.fst).getD .projects
    (recordDenial calendar teamId denied now { seeded with cache := cache },.error (quotaExceededError denied))

def record (params : RecordEventParams) (now : Timestamp) (store : Store) : Store × Except AppError Unit :=
  match store.ledger.recordEvent calendar params now with
  | none => (store,.error .infrastructure)
  | some ledger => ({ store with ledger := ledger },.ok ())

def forEach {α : Type} (act : α → Store → Store × Except AppError Unit) : List α → Store → Store × Except AppError Unit
  | [],store => (store,.ok ())
  | first :: others,store =>
    match act first store with
    | (after,.ok ()) => forEach act others after
    | (after,.error error) => (after,.error error)

def adjust (key : Key) (amount : Int) (now : Timestamp) (store : Store) : Store :=
  { store with cache := (adjustCounter (unixTimestamp now) store.cache key amount).1 }

def commit (reservation : QuotaReservation) (resourceType : String) (resourceId : Option Uuid) (now : Timestamp) :
    Store → Store × Except AppError Unit :=
  forEach (fun entry =>
    record calendar ⟨reservation.teamId,entry.1,.consume,entry.2.1,some resourceType,resourceId⟩ now) reservation.entries

def rollback (reservation : QuotaReservation) (now : Timestamp) (store : Store) : Store :=
  reservation.entries.foldl (fun store entry => adjust entry.2.2 (-entry.2.1) now store) store

def chargeUnchecked (teamId : Uuid) (charges : List QuotaCharge) (resourceType : String) (resourceId : Option Uuid)
    (now : Timestamp) : Store → Store × Except AppError Unit :=
  forEach (fun charge store =>
    record calendar ⟨teamId,charge.dimension,.consume,charge.amount,some resourceType,resourceId⟩ now
      (adjust (counterKey text calendar teamId charge.dimension now) charge.amount now store)) charges

def release (teamId : Uuid) (charges : List QuotaCharge) (resourceType : String) (resourceId : Option Uuid)
    (now : Timestamp) : Store → Store × Except AppError Unit :=
  forEach (fun charge store =>
    record calendar ⟨teamId,charge.dimension,.release,-charge.amount,some resourceType,resourceId⟩ now
      (adjust (counterKey text calendar teamId charge.dimension now) (-charge.amount) now store)) charges

/-- What `release_once` records of a charge. -/
def releaseParams (teamId : Uuid) (charge : QuotaCharge) (resourceType : String) (resourceId : Uuid) : RecordEventParams :=
  ⟨teamId,charge.dimension,.release,-charge.amount,some resourceType,some resourceId⟩

def rebuild (teamId : Uuid) (dimension : QuotaDimension) (usage : Int) (now : Timestamp) (store : Store) : Store :=
  let key := counterKey text calendar teamId dimension now
  { store with cache := set (unixTimestamp now) store.cache key (print usage) (counterTtl dimension) }

def releaseOnceWithKey (teamId : Uuid) (charges : List QuotaCharge) (resourceType : String) (resourceId : Uuid)
    (keyForDimension : QuotaDimension → IdempotencyKey) (now : Timestamp) : Store → Store × Except AppError Unit :=
  forEach (fun charge store =>
    match store.ledger.recordEventOnce calendar (keyForDimension charge.dimension)
        (releaseParams teamId charge resourceType resourceId) now with
    | none => (store,.error .infrastructure)
    | some (_,ledger) =>
      let recorded := { store with ledger := ledger }
      (rebuild text calendar teamId charge.dimension (effectiveUsage calendar recorded teamId charge.dimension now) now recorded,
        .ok ())) charges

def releaseOnce (teamId : Uuid) (charges : List QuotaCharge) (resourceType : String) (resourceId : Uuid) (now : Timestamp) :
    Store → Store × Except AppError Unit :=
  releaseOnceWithKey text calendar teamId charges resourceType resourceId
    (fun dimension => .release resourceType resourceId dimension none) now

def releaseOnceForGeneration (teamId : Uuid) (charges : List QuotaCharge) (resourceType : String) (resourceId : Uuid)
    (generation now : Timestamp) : Store → Store × Except AppError Unit :=
  releaseOnceWithKey text calendar teamId charges resourceType resourceId
    (fun dimension => .release resourceType resourceId dimension (some generation)) now

end Service

/-! What the calls of the service do to a counter. -/

section Counters
open SlotRefresh (number number_insert number_writeCounter peek_of_lasting readCounter_of_lasting)
variable {now : Seconds} {cache : MokaCache} {key : Key}

theorem lasting_of_peek (there : (peek now cache key).isSome) : SlotRefresh.Lasting key now cache := by
  intro entry present
  obtain ⟨raw,read⟩ := Option.isSome_iff_exists.mp there
  obtain ⟨kept,filtered,_⟩ := Option.map_eq_some_iff.mp read
  obtain ⟨found,alive⟩ := Option.filter_eq_some_iff.mp filtered
  obtain rfl := Option.some.inj (present.symm.trans found)
  exact alive

theorem present_of_peek (there : (peek now cache key).isSome) : cache key ≠ none := by
  intro absent
  unfold peek at there
  rw [absent] at there
  cases there

theorem readCounter_of_peek (there : (peek now cache key).isSome) : readCounter now cache key = number key cache :=
  readCounter_of_lasting (lasting_of_peek there)

theorem readCounter_missing (missing : (peek now cache key).isNone) : readCounter now cache key = 0 := by
  unfold readCounter
  rw [readCounterEntry_fst,Option.isNone_iff_eq_none.mp missing]
  rfl

theorem number_adjustCounter (amount : Int) :
    number key (adjustCounter now cache key amount).1 = max (readCounter now cache key + amount) 0 :=
  number_writeCounter _ _

theorem number_consume (check : QuotaCounterCheck) :
    number check.key (consume now cache check) = readCounter now cache check.key + check.amount :=
  number_writeCounter _ _

theorem number_set (value : Int) (ttl : Seconds) : number key (set now cache key (print value) ttl) = value := by
  unfold MokaBackend.set
  rw [number_insert,stored_format,parse_print]
  rfl

theorem insert_present (raw : Text) : insert now cache key raw key ≠ none := by
  rw [insert_same]
  exact Option.some_ne_none _

private theorem before_deadline {now ttl : Int} (lifetime : 0 < ttl) : now < now + max (now + ttl - now) 0 := by omega

theorem readCounter_set {ttl : Seconds} (lifetime : 0 < ttl) (value : Int) :
    readCounter now (set now cache key (print value) ttl) key = value := by
  have lasting : SlotRefresh.Lasting key now (set now cache key (print value) ttl) := by
    intro entry present
    unfold MokaBackend.set at present
    rw [insert_same] at present
    obtain rfl := Option.some.inj present
    unfold expiryForValue
    rw [extractValue_format]
    exact decide_eq_true (before_deadline lifetime)
  rw [readCounter_of_lasting lasting,number_set]

theorem checkAndConsume_one (check : QuotaCounterCheck) : checkAndConsume now cache [check] =
    if check.fits (readCounter now cache check.key) then (consume now cache check,.allowed) else (cache,.denied check.key) := by
  unfold checkAndConsume
  by_cases fits : check.fits (readCounter now cache check.key)
  · have none' : [check].find? (fun check => !check.fits (readCounter now cache check.key)) = none := by
      rw [List.find?_cons_of_neg (by simp [fits]),List.find?_nil]
    rw [none',if_pos fits]
    rfl
  · have refused : [check].find? (fun check => !check.fits (readCounter now cache check.key)) = some check :=
      List.find?_cons_of_pos (by simp [fits])
    rw [refused,if_neg fits]

end Counters

section Specs
variable {text : KeyText} {calendar : Calendar} {limits : Limits} {teamId : Uuid} {now : Timestamp} {store : Store}

theorem counterTtl_pos (dimension : QuotaDimension) : 0 < counterTtl dimension := by
  cases dimension <;> decide

theorem fits_check (charge : QuotaCharge) (key : Key) (current : Int) :
    (check limits charge key).fits current = (limitFor limits charge.dimension).all fun limit => current + charge.amount ≤ limit := by
  unfold QuotaCounterCheck.fits check
  cases found : limitFor limits charge.dimension with
  | none => simp
  | some limit =>
    have nonneg : 0 ≤ limit := by
      have passed := (Option.filter_eq_some_iff.mp found).2
      exact (of_decide_eq_true passed).1
    simp [nonneg]

theorem seedCounter_kept {dimension : QuotaDimension} {key : Key} (there : (peek (unixTimestamp now) store.cache key).isSome) :
    seedCounter calendar teamId dimension key now store = store := by
  have read : (MokaBackend.get (unixTimestamp now) store.cache key).isSome := by
    unfold MokaBackend.get
    rwa [Option.isSome_map]
  unfold seedCounter
  rw [if_pos read,ite_self]

theorem seedCounter_filled {dimension : QuotaDimension} {key : Key} (isCounted : dimension.isCounted)
    (missing : (peek (unixTimestamp now) store.cache key).isNone) :
    seedCounter calendar teamId dimension key now store =
      let usage := effectiveUsage calendar store teamId dimension now
      { store with cache := (MokaBackend.set (unixTimestamp now) store.cache key (print usage) (counterTtl dimension)) } := by
  have absent : peek (unixTimestamp now) store.cache key = none := Option.isNone_iff_eq_none.mp missing
  unfold seedCounter MokaBackend.get setIfAbsent
  rw [isCounted,absent]
  rfl

theorem recordDenial_eq (dimension : QuotaDimension) : recordDenial calendar teamId dimension now store =
    { store with ledger := store.ledger.insertEvent (RecordEventParams.event ⟨teamId,dimension,.deny,0,none,none⟩ none now) } := rfl

private theorem entry_found (entry : QuotaDimension × Int × Key) :
    [entry].find? (fun other => other.2.2 = entry.2.2) = some entry := List.find?_cons_of_pos (decide_eq_true rfl)

/-- `reserve` of one charge. -/
theorem reserve_one (charge : QuotaCharge) :
    reserve text calendar limits teamId [charge] now store =
      let key := counterKey text calendar teamId charge.dimension now
      let seeded := seedCounter calendar teamId charge.dimension key now store
      if (check limits charge key).fits (readCounter (unixTimestamp now) seeded.cache key) then
        ({ seeded with cache := consume (unixTimestamp now) seeded.cache (check limits charge key) },
          .ok ⟨teamId,[(charge.dimension,charge.amount,key)]⟩)
      else (recordDenial calendar teamId charge.dimension now seeded,.error (quotaExceededError charge.dimension)) := by
  simp only [reserve,List.map_cons,List.map_nil,List.foldl_cons,List.foldl_nil,checkAndConsume_one]
  have target : (check limits charge (counterKey text calendar teamId charge.dimension now)).key =
      counterKey text calendar teamId charge.dimension now := rfl
  rw [target]
  by_cases fits : (check limits charge (counterKey text calendar teamId charge.dimension now)).fits
      (readCounter (unixTimestamp now) (seedCounter calendar teamId charge.dimension
        (counterKey text calendar teamId charge.dimension now) now store).cache
        (counterKey text calendar teamId charge.dimension now))
  · simp only [if_pos fits]
  · have denied := entry_found (charge.dimension,charge.amount,counterKey text calendar teamId charge.dimension now)
    simp only at denied
    simp only [if_neg fits,denied]
    rfl

theorem forEach_one {α : Type} (act : α → Store → Store × Except AppError Unit) (first : α) :
    forEach act [first] store = act first store := by
  rcases result : act first store with ⟨after,_ | _⟩
  · simp only [forEach,result]
  · simp only [forEach,result]

theorem record_used {params : RecordEventParams} (counts : params.kind.counts) :
    ∃ ledger, record calendar params now store = ({ store with ledger := ledger },.ok ()) ∧
      ledger.used (windowAt calendar params.teamId params.dimension now) =
        max (store.ledger.used (windowAt calendar params.teamId params.dimension now) + params.deltaValue) 0 := by
  obtain ⟨ledger,recorded,used⟩ := @recordEvent_used store.ledger calendar params now counts
  refine ⟨ledger,?_,used⟩
  unfold record
  rw [recorded]

end Specs

end GrassWorker.QuotaService
