import GrassWorker.Infra.QuotaService
import GrassWorker.Infra.SlotRefresh

/-! One durable counter and its cache key over the calls of a month. Only `reserve` seeds
a missing key; `charge_unchecked` and `release` adjust it as if it had been zero. -/
namespace GrassWorker.ColdCache
open CacheBackend MokaBackend Decimal Quotas QuotaService Runs
open SlotRefresh (Lasting number number_insert number_writeCounter peek_of_lasting readCounter_of_lasting)

inductive Operation
  | reserve (limits : Limits) (amount : Int) (vanishes : Bool) (committedAt : Timestamp)
  | chargeUnchecked (amount : Int)
  | release (amount : Int)
  | vanish

structure Call where
  now : Timestamp
  operation : Operation
  resourceType : String := "deployment"
  resourceId : Option Uuid := none

section History
variable (text : KeyText) (calendar : Calendar) (teamId : Uuid) (dimension : QuotaDimension)

def vanish (now : Timestamp) (store : Store) : Store :=
  { store with cache := invalidate store.cache (counterKey text calendar teamId dimension now) }

def step (store : Store) (call : Call) : Store :=
  match call.operation with
  | .reserve limits amount vanishes committedAt =>
    match reserve text calendar limits teamId [⟨dimension,amount⟩] call.now store with
    | (reserved,.ok reservation) =>
      let kept := if vanishes then vanish text calendar teamId dimension call.now reserved else reserved
      (commit calendar reservation call.resourceType call.resourceId committedAt kept).1
    | (denied,.error _) => denied
  | .chargeUnchecked amount =>
    (chargeUnchecked text calendar teamId [⟨dimension,amount⟩] call.resourceType call.resourceId call.now store).1
  | .release amount =>
    (release text calendar teamId [⟨dimension,amount⟩] call.resourceType call.resourceId call.now store).1
  | .vanish => vanish text calendar teamId dimension call.now store

def Call.times (call : Call) : List Timestamp :=
  match call.operation with
  | .reserve _ _ _ committedAt => [call.now,committedAt]
  | _ => [call.now]

def InMonth (first : Timestamp) (call : Call) : Prop := ∀ time ∈ call.times, (calendar time).1 = (calendar first).1

def Decides (store : Store) (call : Call) : Prop :=
  match call.operation with
  | .reserve limits amount _ _ =>
    (reserve text calendar limits teamId [⟨dimension,amount⟩] call.now store).2.isOk =
      (limitFor limits dimension).all fun limit => store.ledger.durableUsage calendar teamId dimension call.now + amount ≤ limit
  | _ => True

def Meets (store : Store) (now : Timestamp) (delta : Int) : Prop :=
  (peek (unixTimestamp now) store.cache (counterKey text calendar teamId dimension now)).isNone →
    max delta 0 = max (store.ledger.durableUsage calendar teamId dimension now + delta) 0

/-- Nothing is reserved below zero, and no missing key is adjusted apart from the durable counter. -/
def Sure (store : Store) (call : Call) : Prop :=
  match call.operation with
  | .reserve _ amount _ _ => 0 ≤ store.ledger.durableUsage calendar teamId dimension call.now + amount
  | .chargeUnchecked amount => Meets text calendar teamId dimension store call.now amount
  | .release amount => Meets text calendar teamId dimension store call.now (-amount)
  | .vanish => True

def Agrees (first : Timestamp) (store : Store) : Prop :=
  store.cache (counterKey text calendar teamId dimension first) ≠ none →
    number (counterKey text calendar teamId dimension first) store.cache =
      store.ledger.used (windowAt calendar teamId dimension first)

instance (first : Timestamp) : DecidablePred (InMonth calendar first) :=
  fun call => inferInstanceAs (Decidable (∀ time ∈ call.times, (calendar time).1 = (calendar first).1))

instance (store : Store) : DecidablePred (Decides text calendar teamId dimension store)
  | ⟨_,.reserve _ _ _ _,_,_⟩ => inferInstanceAs (Decidable (_ = _))
  | ⟨_,.chargeUnchecked _,_,_⟩ => isTrue trivial
  | ⟨_,.release _,_,_⟩ => isTrue trivial
  | ⟨_,.vanish,_,_⟩ => isTrue trivial

instance (store : Store) (now : Timestamp) (delta : Int) : Decidable (Meets text calendar teamId dimension store now delta) :=
  inferInstanceAs (Decidable (_ → _))

instance (store : Store) : DecidablePred (Sure text calendar teamId dimension store)
  | ⟨_,.reserve _ _ _ _,_,_⟩ => inferInstanceAs (Decidable (_ ≤ _))
  | ⟨now,.chargeUnchecked amount,_,_⟩ => inferInstanceAs (Decidable (Meets text calendar teamId dimension store now amount))
  | ⟨now,.release amount,_,_⟩ => inferInstanceAs (Decidable (Meets text calendar teamId dimension store now (-amount)))
  | ⟨_,.vanish,_,_⟩ => isTrue trivial

end History

section Steps
variable {text : KeyText} {calendar : Calendar} {teamId : Uuid} {dimension : QuotaDimension} {first now : Timestamp}
  {store : Store}

theorem counterKey_month (month : (calendar now).1 = (calendar first).1) :
    counterKey text calendar teamId dimension now = counterKey text calendar teamId dimension first := by
  unfold counterKey
  rw [month]

theorem windowAt_month (month : (calendar now).1 = (calendar first).1) :
    windowAt calendar teamId dimension now = windowAt calendar teamId dimension first := by
  unfold windowAt periodStart
  rw [month]

theorem agrees_month (month : (calendar now).1 = (calendar first).1) :
    Agrees text calendar teamId dimension now store ↔ Agrees text calendar teamId dimension first store := by
  unfold Agrees
  rw [counterKey_month month,windowAt_month month]

/-- A missing key is seeded with the durable usage, and a key that agrees with it is left alone. -/
theorem seedCounter_reads (isCounted : dimension.isCounted) (durable : structural dimension = false)
    (agrees : Agrees text calendar teamId dimension now store) :
    let key := counterKey text calendar teamId dimension now
    let seeded := seedCounter calendar teamId dimension key now store
    seeded.ledger = store.ledger ∧ Agrees text calendar teamId dimension now seeded ∧
      readCounter (unixTimestamp now) seeded.cache key = store.ledger.durableUsage calendar teamId dimension now := by
  intro key seeded
  have usage : effectiveUsage calendar store teamId dimension now = store.ledger.durableUsage calendar teamId dimension now := by
    unfold effectiveUsage
    rw [durable,if_neg Bool.false_ne_true]
  by_cases there : (peek (unixTimestamp now) store.cache key).isSome
  · have kept : seeded = store := seedCounter_kept there
    rw [kept]
    exact ⟨rfl,agrees,(readCounter_of_peek there).trans (agrees (present_of_peek there))⟩
  · have missing : (peek (unixTimestamp now) store.cache key).isNone := by simpa using there
    have filled : seeded = _ := seedCounter_filled isCounted missing
    rw [filled,usage]
    exact ⟨rfl,fun _ => number_set _ _,readCounter_set (counterTtl_pos dimension) _⟩

theorem number_adjust (agrees : Agrees text calendar teamId dimension now store) {delta : Int}
    (meets : Meets text calendar teamId dimension store now delta) :
    number (counterKey text calendar teamId dimension now)
        (adjust (counterKey text calendar teamId dimension now) delta now store).cache =
      max (store.ledger.durableUsage calendar teamId dimension now + delta) 0 := by
  unfold adjust
  rw [number_adjustCounter]
  by_cases there : (peek (unixTimestamp now) store.cache (counterKey text calendar teamId dimension now)).isSome
  · rw [readCounter_of_peek there,agrees (present_of_peek there)]
    rfl
  · have missing : (peek (unixTimestamp now) store.cache (counterKey text calendar teamId dimension now)).isNone := by
      simpa using there
    rw [readCounter_missing missing,Int.zero_add,meets missing]

theorem agrees_record {params : RecordEventParams} (same : params.teamId = teamId) (same' : params.dimension = dimension)
    (counts : params.kind.counts)
    (moved : store.cache (counterKey text calendar teamId dimension now) ≠ none →
      number (counterKey text calendar teamId dimension now) store.cache =
        max (store.ledger.durableUsage calendar teamId dimension now + params.deltaValue) 0) :
    Agrees text calendar teamId dimension now (record calendar params now store).1 := by
  obtain ⟨ledger,recorded,used⟩ := @record_used calendar now store params counts
  rw [same,same'] at used
  rw [recorded]
  intro present
  exact (moved present).trans used.symm

theorem agrees_adjust {kind : QuotaEventKind} {resourceType : Option String} {resourceId : Option Uuid} (counts : kind.counts)
    (agrees : Agrees text calendar teamId dimension now store) {delta : Int}
    (meets : Meets text calendar teamId dimension store now delta) :
    Agrees text calendar teamId dimension now (record calendar ⟨teamId,dimension,kind,delta,resourceType,resourceId⟩ now
      (adjust (counterKey text calendar teamId dimension now) delta now store)).1 :=
  agrees_record rfl rfl counts fun _ => number_adjust agrees meets

theorem agrees_vanish : Agrees text calendar teamId dimension now (vanish text calendar teamId dimension now store) := by
  intro present
  exact absurd (if_pos rfl) present

variable {limits : Limits} {amount : Int}

theorem reserve_decides (isCounted : dimension.isCounted) (durable : structural dimension = false)
    (agrees : Agrees text calendar teamId dimension now store) :
    (reserve text calendar limits teamId [⟨dimension,amount⟩] now store).2.isOk =
      (limitFor limits dimension).all fun limit => store.ledger.durableUsage calendar teamId dimension now + amount ≤ limit := by
  obtain ⟨_,_,read⟩ := seedCounter_reads isCounted durable agrees
  rw [reserve_one]
  simp only [fits_check,read]
  split
  · rename_i fits
    rw [fits]
    rfl
  · rename_i refused
    rw [Bool.not_eq_true] at refused
    rw [refused]
    rfl

variable {after : Store}

theorem reserve_allowed (isCounted : dimension.isCounted) (durable : structural dimension = false)
    (agrees : Agrees text calendar teamId dimension now store) {reservation : QuotaReservation}
    (allowed : reserve text calendar limits teamId [⟨dimension,amount⟩] now store = (after,.ok reservation)) :
    after.ledger = store.ledger ∧
      reservation = ⟨teamId,[(dimension,amount,counterKey text calendar teamId dimension now)]⟩ ∧
      number (counterKey text calendar teamId dimension now) after.cache =
        store.ledger.durableUsage calendar teamId dimension now + amount := by
  obtain ⟨ledger,_,read⟩ := seedCounter_reads isCounted durable agrees
  rw [reserve_one] at allowed
  simp only at allowed
  split at allowed
  · obtain ⟨rfl,reserved⟩ := Prod.mk.inj allowed
    obtain rfl := Except.ok.inj reserved
    have consumed := @number_consume (unixTimestamp now) (seedCounter calendar teamId dimension
      (counterKey text calendar teamId dimension now) now store).cache
      (check limits ⟨dimension,amount⟩ (counterKey text calendar teamId dimension now))
    exact ⟨ledger,rfl,consumed.trans (congrArg (· + amount) read)⟩
  · cases (Prod.mk.inj allowed).2

theorem reserve_denied (isCounted : dimension.isCounted) (durable : structural dimension = false)
    (agrees : Agrees text calendar teamId dimension now store) {error : AppError}
    (denied : reserve text calendar limits teamId [⟨dimension,amount⟩] now store = (after,.error error)) :
    Agrees text calendar teamId dimension now after := by
  obtain ⟨_,seeded,_⟩ := seedCounter_reads isCounted durable agrees
  rw [reserve_one] at denied
  simp only at denied
  split at denied
  · cases (Prod.mk.inj denied).2
  · rw [← (Prod.mk.inj denied).1,recordDenial_eq]
    exact seeded

/-- Every call that does not adjust a missing key apart from the durable counter keeps them equal. -/
theorem step_agrees (isCounted : dimension.isCounted) (durable : structural dimension = false) (store : Store) (call : Call)
    (agrees : Agrees text calendar teamId dimension first store)
    (permitted : InMonth calendar first call ∧ Sure text calendar teamId dimension store call) :
    Agrees text calendar teamId dimension first (step text calendar teamId dimension store call) := by
  obtain ⟨now,operation,resourceType,resourceId⟩ := call
  obtain ⟨inMonth,sure⟩ := permitted
  have month : (calendar now).1 = (calendar first).1 := inMonth now (by unfold Call.times; split <;> exact List.mem_cons_self)
  rw [← agrees_month month] at agrees
  cases operation with
  | vanish =>
    rw [← agrees_month month]
    exact agrees_vanish
  | chargeUnchecked amount =>
    rw [← agrees_month month]
    simp only [step,chargeUnchecked,forEach_one]
    exact agrees_adjust rfl agrees sure
  | release amount =>
    rw [← agrees_month month]
    simp only [step,release,forEach_one]
    exact agrees_adjust rfl agrees sure
  | reserve limits amount vanishes committedAt =>
    simp only [step]
    split
    · rename_i reserved reservation allowed
      obtain ⟨ledger,rfl,consumed⟩ := reserve_allowed isCounted durable agrees allowed
      have committed : (calendar committedAt).1 = (calendar first).1 := inMonth committedAt (by simp [Call.times])
      have same : (calendar committedAt).1 = (calendar now).1 := committed.trans month.symm
      rw [← agrees_month committed]
      simp only [commit,forEach_one]
      have recorded := @agrees_record text calendar teamId dimension committedAt
      refine recorded rfl rfl rfl fun present => ?_
      unfold Ledger.durableUsage
      rw [counterKey_month same] at present ⊢
      rw [windowAt_month same]
      cases vanishes with
      | true => exact absurd (if_pos rfl) present
      | false =>
        have kept := Int.max_eq_left sure
        unfold Ledger.durableUsage at consumed kept
        exact consumed.trans (ledger ▸ kept.symm)
    · rename_i denied error refused
      rw [← agrees_month month]
      exact reserve_denied isCounted durable agrees refused

/-- From a missing key on, every reserve of a month decides by the durable usage, if no missing key
is adjusted while the durable counter moves otherwise. -/
theorem reserves_compare_durable_usage (counter : dimension = .storageMb ∨ dimension = .buildMinutesMonthly)
    (cold : store.cache (counterKey text calendar teamId dimension first) = none) (history : List Call)
    (within : ∀ call ∈ history, InMonth calendar first call)
    (sure : Along (step text calendar teamId dimension) (Sure text calendar teamId dimension) store history) :
    Along (step text calendar teamId dimension) (Decides text calendar teamId dimension) store history := by
  have isCounted : dimension.isCounted := by rcases counter with rfl | rfl <;> rfl
  have durable : structural dimension = false := by rcases counter with rfl | rfl <;> rfl
  have start : Agrees text calendar teamId dimension first store := fun present => absurd cold present
  have permitted := along_and (along_of_mem store history within) sure
  refine along_of_invariant (step_agrees isCounted durable) ?_ store history start permitted
  intro store call agrees allowed
  obtain ⟨now,operation,resourceType,resourceId⟩ := call
  cases operation with
  | vanish | chargeUnchecked _ | release _ => trivial
  | reserve limits amount vanishes committedAt =>
    have month : (calendar now).1 = (calendar first).1 := allowed.1 now List.mem_cons_self
    exact reserve_decides isCounted durable ((agrees_month month).mpr agrees)

end Steps

namespace Examples

def keyText : KeyText := ⟨fun _ => "team",fun _ => "202607"⟩

def july : Calendar := fun _ => (0,1000000)

def ten : Limits := fun _ => some 10

def reserving (amount : Int) : Call := ⟨1,.reserve ten amount false 2,"artifact",none⟩

/-- Storage that is reserved, a restart in between, and one reservation too many. -/
def restarted : List Call := [reserving 4,⟨3,.vanish,"",none⟩,reserving 5,⟨4,.release 2,"artifact",none⟩,reserving 5]

def charged : List Call := [reserving 8,⟨3,.vanish,"",none⟩,⟨4,.chargeUnchecked 1,"deployment",none⟩,reserving 5]

end Examples

open Examples

theorem restarted_reserves_compare_durable_usage :
    Along (step keyText july 7 .storageMb) (Decides keyText july 7 .storageMb) {} restarted :=
  @reserves_compare_durable_usage _ _ _ _ 0 _ (.inl rfl) rfl restarted (by decide) (by decide +kernel)

/-- The minutes that were counted before the key vanished are forgotten, and the reserve passes the limit. -/
theorem charged_reserve_forgets_usage : (∀ call ∈ charged, InMonth july 0 call) ∧
    ¬Along (step keyText july 7 .buildMinutesMonthly) (Decides keyText july 7 .buildMinutesMonthly) {} charged := by
  decide

end GrassWorker.ColdCache
