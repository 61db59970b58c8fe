import GrassWorker.Entity
import Mathlib.Data.List.Nodup

/-! Quota dimensions, events and durable counters. The statements of `record_event`
and `record_event_once` are apart, so that they can run one after the other or
between the statements of other calls. -/
namespace GrassWorker.Quotas

inductive QuotaDimension
  | projects | projectsStatic | projectsSsr | members | hosts | deploymentsMonthly | buildMinutesMonthly
  | buildTimeoutSeconds | storageMb | artifactMaxMb | concurrentBuilds | ssrProcesses | ssrHoursMonthly
deriving DecidableEq, Repr

inductive QuotaPeriod
  | none | monthly
deriving DecidableEq, Repr

namespace QuotaDimension

def asStr : QuotaDimension → String
  | projects => "projects"
  | projectsStatic => "projects.static"
  | projectsSsr => "projects.ssr"
  | members => "members"
  | hosts => "hosts"
  | deploymentsMonthly => "deployments.monthly"
  | buildMinutesMonthly => "build_minutes.monthly"
  | buildTimeoutSeconds => "build_timeout_seconds"
  | storageMb => "storage_mb"
  | artifactMaxMb => "artifact_max_mb"
  | concurrentBuilds => "concurrent_builds"
  | ssrProcesses => "ssr_processes"
  | ssrHoursMonthly => "ssr_hours.monthly"

def period : QuotaDimension → QuotaPeriod
  | deploymentsMonthly | buildMinutesMonthly | ssrHoursMonthly => .monthly
  | _ => .none

def isCounted : QuotaDimension → Bool
  | buildTimeoutSeconds | artifactMaxMb | concurrentBuilds => false
  | _ => true

end QuotaDimension

abbrev Limits := QuotaDimension → Option Int

/-- No limit row and a negative value mean unlimited, and so does zero for the SSR dimensions. -/
def limitFor (limits : Limits) (dimension : QuotaDimension) : Option Int :=
  (limits dimension).filter fun limit =>
    0 ≤ limit ∧ (¬(dimension = .ssrProcesses ∨ dimension = .ssrHoursMonthly) ∨ 0 < limit)

inductive QuotaEventKind
  | consume | release | deny | adjust
deriving DecidableEq, Repr

inductive IdempotencyKey
  | ssrHour (lease : Uuid) (block : Int)
  | ssrHourRelease (lease : Uuid) (block : Int)
  | ssrProcess (lease : Uuid)
  | ssrProcessRelease (lease : Uuid)
  | release (resourceType : String) (resource : Uuid) (dimension : QuotaDimension) (generation : Option Int)
deriving DecidableEq

structure RecordEventParams where
  teamId : Uuid
  dimension : QuotaDimension
  kind : QuotaEventKind
  deltaValue : Int
  resourceType : Option String
  resourceId : Option Uuid
deriving DecidableEq

structure QuotaEvent extends RecordEventParams where
  idempotencyKey : Option IdempotencyKey
  createdAt : Timestamp
deriving DecidableEq

structure QuotaUsageCounter where
  teamId : Uuid
  dimension : QuotaDimension
  usedValue : Int
  periodStart : Option Timestamp
  periodEnd : Option Timestamp
deriving DecidableEq

structure Window where
  teamId : Uuid
  dimension : QuotaDimension
  periodStart : Option Timestamp
deriving DecidableEq

def QuotaUsageCounter.window (counter : QuotaUsageCounter) : Window :=
  ⟨counter.teamId,counter.dimension,counter.periodStart⟩

/-- `current_period_window`: where the month of a time starts and ends. -/
abbrev Calendar := Timestamp → Timestamp × Timestamp

section Periods
variable (calendar : Calendar)

def periodStart (dimension : QuotaDimension) (now : Timestamp) : Option Timestamp :=
  match dimension.period with
  | .monthly => some (calendar now).1
  | .none => none

def periodEnd (dimension : QuotaDimension) (now : Timestamp) : Option Timestamp :=
  match dimension.period with
  | .monthly => some (calendar now).2
  | .none => none

def windowAt (teamId : Uuid) (dimension : QuotaDimension) (now : Timestamp) : Window :=
  ⟨teamId,dimension,periodStart calendar dimension now⟩

def QuotaEvent.window (event : QuotaEvent) : Window := windowAt calendar event.teamId event.dimension event.createdAt

end Periods

structure Ledger where
  events : List QuotaEvent := []
  counters : List QuotaUsageCounter := []
deriving DecidableEq

def RecordEventParams.event (params : RecordEventParams) (key : Option IdempotencyKey) (now : Timestamp) : QuotaEvent :=
  { params with idempotencyKey := key, createdAt := now }

def QuotaEventKind.counts : QuotaEventKind → Bool
  | .consume | .release | .adjust => true
  | .deny => false

def newCounter (calendar : Calendar) (event : QuotaEvent) : QuotaUsageCounter where
  teamId := event.teamId
  dimension := event.dimension
  usedValue := max event.deltaValue 0
  periodStart := periodStart calendar event.dimension event.createdAt
  periodEnd := periodEnd calendar event.dimension event.createdAt

namespace Ledger
variable (ledger : Ledger)

def recorded (key : IdempotencyKey) : Bool := ledger.events.any fun event => event.idempotencyKey = some key

def insertEvent (event : QuotaEvent) : Ledger := { ledger with events := ledger.events ++ [event] }

def findCounter (window : Window) : Option (Nat × QuotaUsageCounter) := do
  let place ← ledger.counters.findIdx? fun counter => counter.window = window
  let counter ← ledger.counters[place]?
  return (place,counter)

/-- The unique index has the period of the counter already; rows without a period are not in it. -/
def taken (counter : QuotaUsageCounter) : Bool :=
  counter.periodStart.isSome && ledger.counters.any fun other =>
    other.window = counter.window ∧ other.periodEnd = counter.periodEnd

def writeCounter (calendar : Calendar) (event : QuotaEvent) (found : Option (Nat × QuotaUsageCounter)) : Option Ledger :=
  match found with
  | some (place,counter) =>
    let next := { counter with usedValue := max (counter.usedValue + event.deltaValue) 0 }
    some { ledger with counters := ledger.counters.set place next }
  | none =>
    let counter := newCounter calendar event
    if ledger.taken counter then none
    else some { ledger with counters := ledger.counters ++ [counter] }

def applyCounterDelta (calendar : Calendar) (event : QuotaEvent) : Option Ledger :=
  ledger.writeCounter calendar event (ledger.findCounter (event.window calendar))

/-- Without an error: the ledger after `record_event`. -/
def recordEvent (calendar : Calendar) (params : RecordEventParams) (now : Timestamp) : Option Ledger :=
  let event := params.event none now
  if params.kind.counts then (ledger.insertEvent event).applyCounterDelta calendar event
  else some (ledger.insertEvent event)

/-- Whether the event was recorded, and the ledger after `record_event_once`. -/
def recordEventOnce (calendar : Calendar) (key : IdempotencyKey) (params : RecordEventParams) (now : Timestamp) :
    Option (Bool × Ledger) :=
  if ledger.recorded key then some (false,ledger)
  else
    let event := params.event (some key) now
    if params.kind.counts then ((ledger.insertEvent event).applyCounterDelta calendar event).map fun after => (true,after)
    else some (true,ledger.insertEvent event)

def used (window : Window) : Int := ((ledger.findCounter window).map fun found => found.2.usedValue).getD 0

def durableUsage (calendar : Calendar) (teamId : Uuid) (dimension : QuotaDimension) (now : Timestamp) : Int :=
  ledger.used (windowAt calendar teamId dimension now)

def total (calendar : Calendar) (window : Window) : Int :=
  ((ledger.events.filter fun event => event.kind.counts ∧ event.window calendar = window).map
    fun event => event.deltaValue).sum

def Single : Prop := (ledger.counters.map QuotaUsageCounter.window).Nodup

instance : Decidable ledger.Single := inferInstanceAs (Decidable (List.Nodup _))

end Ledger

/-! What each statement does to the counters and to what they should hold. -/

section Statements
variable {ledger after : Ledger} {calendar : Calendar} {event : QuotaEvent} {window : Window}

private theorem findIdx_set {α : Type} {test : α → Bool} {list : List α} {place : Nat} {old value : α}
    (found : list[place]? = some old) (same : test value = test old) : (list.set place value).findIdx? test = list.findIdx? test := by
  induction list generalizing place with
  | nil => rfl
  | cons first rest ih =>
    cases place with
    | zero =>
      obtain rfl : first = old := by simpa using found
      rw [List.set_cons_zero,List.findIdx?_cons,List.findIdx?_cons,same]
    | succ place =>
      rw [List.set_cons_succ,List.findIdx?_cons,List.findIdx?_cons,ih (by simpa using found)]

theorem findCounter_some {place : Nat} {counter : QuotaUsageCounter} (found : ledger.findCounter window = some (place,counter)) :
    ledger.counters.findIdx? (fun counter => counter.window = window) = some place ∧
      ledger.counters[place]? = some counter ∧ counter.window = window := by
  unfold Ledger.findCounter at found
  obtain ⟨index,chosen,found⟩ := Option.bind_eq_some_iff.mp found
  obtain ⟨row,present,found⟩ := Option.bind_eq_some_iff.mp found
  obtain ⟨rfl,rfl⟩ : index = place ∧ row = counter := by simpa using found
  refine ⟨chosen,present,?_⟩
  obtain ⟨inside,holds,_⟩ := List.findIdx?_eq_some_iff_getElem.mp chosen
  obtain ⟨_,same⟩ := List.getElem?_eq_some_iff.mp present
  rw [← same]
  exact of_decide_eq_true holds

theorem findCounter_none (missing : ledger.findCounter window = none) : ∀ counter ∈ ledger.counters, counter.window ≠ window := by
  intro counter member same
  obtain ⟨place,chosen⟩ : ∃ place, ledger.counters.findIdx? (fun counter => counter.window = window) = some place := by
    apply Option.isSome_iff_exists.mp
    rw [List.findIdx?_isSome,List.any_eq_true]
    exact ⟨counter,member,decide_eq_true same⟩
  obtain ⟨inside,_⟩ := List.findIdx?_eq_some_iff_getElem.mp chosen
  unfold Ledger.findCounter at missing
  rw [chosen,Option.bind_eq_bind,Option.bind_some,List.getElem?_eq_getElem inside] at missing
  cases missing

theorem findCounter_set {place : Nat} {counter : QuotaUsageCounter} (found : ledger.findCounter window = some (place,counter))
    (value : Int) (other : Window) :
    { ledger with counters := ledger.counters.set place { counter with usedValue := value } }.used other =
      if other = window then value else ledger.used other := by
  obtain ⟨chosen,present,same⟩ := findCounter_some found
  obtain ⟨inside,_⟩ := List.getElem?_eq_some_iff.mp present
  have kept : ∀ other : Window, (ledger.counters.set place { counter with usedValue := value }).findIdx?
      (fun counter => counter.window = other) = ledger.counters.findIdx? fun counter => counter.window = other :=
    fun other => findIdx_set present rfl
  unfold Ledger.used Ledger.findCounter
  simp only [kept]
  by_cases here : other = window
  · rw [if_pos here,here,chosen]
    simp [List.getElem?_set_self inside]
  · rw [if_neg here]
    cases elsewhere : ledger.counters.findIdx? fun counter => counter.window = other with
    | none => rfl
    | some index =>
      have different : place ≠ index := by
        intro same'
        obtain ⟨bound,holds,_⟩ := List.findIdx?_eq_some_iff_getElem.mp elsewhere
        subst same'
        obtain ⟨_,row⟩ := List.getElem?_eq_some_iff.mp present
        have window' : counter.window = other := by
          rw [← row]
          exact of_decide_eq_true holds
        exact here (window'.symm.trans same)
      simp only [Option.bind_eq_bind,Option.bind_some,List.getElem?_set_ne different]

theorem used_eq (other : Window) :
    ledger.used other = ((ledger.counters.find? fun counter => counter.window = other).map QuotaUsageCounter.usedValue).getD 0 := by
  unfold Ledger.used Ledger.findCounter
  rw [List.find?_eq_bind_findIdx?_getElem?]
  cases ledger.counters.findIdx? fun counter => counter.window = other with
  | none => rfl
  | some place =>
    simp only [Option.bind_eq_bind,Option.bind_some]
    cases ledger.counters[place]? <;> rfl

/-- What a statement leaves of the events, and adds to the counter of one window. -/
structure Writes (before after : Ledger) (window : Window) (delta : Int) : Prop where
  events : after.events = before.events
  used : ∀ other, after.used other = before.used other + if other = window then delta else 0
  single : before.Single → after.Single

def foundValue (found : Option (Nat × QuotaUsageCounter)) : Int := (found.map fun found => found.2.usedValue).getD 0

theorem used_of_findCounter : ledger.used window = foundValue (ledger.findCounter window) := rfl

private theorem updated_writes {place : Nat} {counter : QuotaUsageCounter}
    (found : ledger.findCounter window = some (place,counter)) {delta : Int} (enough : 0 ≤ counter.usedValue + delta) :
    Writes ledger { ledger with counters := ledger.counters.set place { counter with usedValue := max (counter.usedValue + delta) 0 } }
      window delta := by
  have value : ledger.used window = counter.usedValue := by rw [used_of_findCounter,found]; rfl
  obtain ⟨_,present,same⟩ := findCounter_some found
  refine ⟨rfl,?_,?_⟩
  · intro other
    rw [findCounter_set found,Int.max_eq_left enough]
    by_cases here : other = window
    · rw [if_pos here,if_pos here,here,value]
    · rw [if_neg here,if_neg here,Int.add_zero]
  · intro single
    have windows : (ledger.counters.set place { counter with usedValue := max (counter.usedValue + delta) 0 }).map
        QuotaUsageCounter.window = ledger.counters.map QuotaUsageCounter.window := by
      obtain ⟨inside,row⟩ := List.getElem?_eq_some_iff.mp present
      have inside' : place < (ledger.counters.map QuotaUsageCounter.window).length := by rwa [List.length_map]
      have here : (ledger.counters.map QuotaUsageCounter.window)[place] = counter.window := by rw [List.getElem_map,row]
      rw [List.map_set]
      change (ledger.counters.map QuotaUsageCounter.window).set place counter.window = _
      rw [← here,List.set_getElem_self]
    unfold Ledger.Single
    rw [windows]
    exact single

private theorem inserted_writes (missing : ledger.findCounter window = none) {counter : QuotaUsageCounter}
    (same : counter.window = window) :
    Writes ledger { ledger with counters := ledger.counters ++ [counter] } window counter.usedValue := by
  have absent := findCounter_none missing
  have value : ledger.used window = 0 := by rw [used_of_findCounter,missing]; rfl
  refine ⟨rfl,?_,?_⟩
  · intro other
    rw [used_eq,used_eq,List.find?_append]
    by_cases here : other = window
    · rw [if_pos here,here]
      have none' : ledger.counters.find? (fun counter => counter.window = window) = none := by
        rw [List.find?_eq_none]
        intro other member
        simpa using absent other member
      have found : [counter].find? (fun counter => counter.window = window) = some counter :=
        List.find?_cons_of_pos (decide_eq_true same)
      rw [none',Option.none_or,found]
      exact (Int.zero_add _).symm
    · have different : ¬counter.window = other := fun same' => here (same'.symm.trans same)
      rw [if_neg here,Int.add_zero,List.find?_cons_of_neg (by simpa using different),List.find?_nil,Option.or_none]
  · intro single
    unfold Ledger.Single
    rw [List.map_append,List.map_singleton,List.nodup_append]
    refine ⟨single,List.nodup_singleton _,?_⟩
    intro first member second last
    obtain ⟨other,present,rfl⟩ := List.mem_map.mp member
    rw [List.mem_singleton.mp last,same]
    exact absent other present

/-- A counter is written as it should be when what was found is still there and the delta does not take it below zero. -/
theorem writeCounter_writes {found : Option (Nat × QuotaUsageCounter)} (fresh : ledger.findCounter (event.window calendar) = found)
    (enough : 0 ≤ foundValue found + event.deltaValue) (written : ledger.writeCounter calendar event found = some after) :
    Writes ledger after (event.window calendar) event.deltaValue := by
  cases found with
  | some pair =>
    obtain ⟨place,counter⟩ := pair
    obtain rfl := Option.some.inj written
    exact updated_writes fresh enough
  | none =>
    have enough : 0 ≤ event.deltaValue := by simpa [foundValue] using enough
    simp only [Ledger.writeCounter] at written
    split at written
    · cases written
    · obtain rfl := Option.some.inj written
      have same : (newCounter calendar event).window = event.window calendar := rfl
      have value : (newCounter calendar event).usedValue = event.deltaValue := Int.max_eq_left enough
      rw [← value]
      exact inserted_writes fresh same

theorem total_insertEvent (event : QuotaEvent) : (ledger.insertEvent event).total calendar window =
    ledger.total calendar window + if event.kind.counts ∧ window = event.window calendar then event.deltaValue else 0 := by
  unfold Ledger.total Ledger.insertEvent
  rw [List.filter_append,List.map_append,List.sum_append]
  congr 1
  by_cases counted : event.kind.counts ∧ window = event.window calendar
  · rw [if_pos counted,List.filter_cons_of_pos (by simp [counted])]
    simp
  · have passed : ¬(event.kind.counts ∧ event.window calendar = window) := fun both => counted ⟨both.1,both.2.symm⟩
    rw [if_neg counted,List.filter_cons_of_neg (by simpa using passed)]
    rfl

theorem total_of_events (same : after.events = ledger.events) : after.total calendar window = ledger.total calendar window := by
  unfold Ledger.total
  rw [same]

theorem used_insertEvent (event : QuotaEvent) : (ledger.insertEvent event).used window = ledger.used window := rfl

theorem applyCounterDelta_some : ∃ after, ledger.applyCounterDelta calendar event = some after := by
  unfold Ledger.applyCounterDelta
  cases found : ledger.findCounter (event.window calendar) with
  | some pair => exact ⟨_,rfl⟩
  | none =>
    have free : ledger.taken (newCounter calendar event) = false := by
      unfold Ledger.taken
      rw [Bool.and_eq_false_iff,List.any_eq_false]
      right
      intro other member same
      exact findCounter_none found other member (of_decide_eq_true same).1
    simp only [Ledger.writeCounter,free]
    exact ⟨_,rfl⟩

theorem applyCounterDelta_events (applied : ledger.applyCounterDelta calendar event = some after) : after.events = ledger.events := by
  unfold Ledger.applyCounterDelta at applied
  cases found : ledger.findCounter (event.window calendar) with
  | some pair =>
    rw [found] at applied
    rw [← Option.some.inj applied]
  | none =>
    simp only [found,Ledger.writeCounter] at applied
    split at applied
    · cases applied
    · rw [← Option.some.inj applied]

theorem applyCounterDelta_other (applied : ledger.applyCounterDelta calendar event = some after)
    (different : window ≠ event.window calendar) : after.used window = ledger.used window := by
  unfold Ledger.applyCounterDelta at applied
  cases found : ledger.findCounter (event.window calendar) with
  | some pair =>
    obtain ⟨place,counter⟩ := pair
    rw [found] at applied
    rw [← Option.some.inj applied,findCounter_set found,if_neg different]
  | none =>
    simp only [found,Ledger.writeCounter] at applied
    split at applied
    · cases applied
    · have same : (newCounter calendar event).window = event.window calendar := rfl
      rw [← Option.some.inj applied,(inserted_writes found same).used,if_neg different,Int.add_zero]

theorem applyCounterDelta_used (applied : ledger.applyCounterDelta calendar event = some after) :
    after.used (event.window calendar) = max (ledger.used (event.window calendar) + event.deltaValue) 0 := by
  unfold Ledger.applyCounterDelta at applied
  cases found : ledger.findCounter (event.window calendar) with
  | some pair =>
    obtain ⟨place,counter⟩ := pair
    have value : ledger.used (event.window calendar) = counter.usedValue := by rw [used_of_findCounter,found]; rfl
    rw [found] at applied
    rw [← Option.some.inj applied,findCounter_set found,if_pos rfl,value]
  | none =>
    have value : ledger.used (event.window calendar) = 0 := by rw [used_of_findCounter,found]; rfl
    simp only [found,Ledger.writeCounter] at applied
    split at applied
    · cases applied
    · have same : (newCounter calendar event).window = event.window calendar := rfl
      rw [← Option.some.inj applied,(inserted_writes found same).used,if_pos rfl,value,Int.zero_add,Int.zero_add]
      rfl

/-- `record_event` of something that counts, when its calls follow one another. -/
theorem recordEvent_used {params : RecordEventParams} {now : Timestamp} (counts : params.kind.counts) :
    ∃ after, ledger.recordEvent calendar params now = some after ∧
      after.used (windowAt calendar params.teamId params.dimension now) =
        max (ledger.used (windowAt calendar params.teamId params.dimension now) + params.deltaValue) 0 := by
  obtain ⟨after,applied⟩ := @applyCounterDelta_some (ledger.insertEvent (params.event none now)) calendar (params.event none now)
  refine ⟨after,?_,applyCounterDelta_used applied⟩
  unfold Ledger.recordEvent
  rw [if_pos counts]
  exact applied

theorem recordEvent_events {params : RecordEventParams} {now : Timestamp}
    (recorded : ledger.recordEvent calendar params now = some after) : after.events = ledger.events ++ [params.event none now] := by
  unfold Ledger.recordEvent at recorded
  by_cases counts : params.kind.counts
  · rw [if_pos counts] at recorded
    exact applyCounterDelta_events recorded
  · rw [if_neg counts] at recorded
    rw [← Option.some.inj recorded]
    rfl

section Once
variable {key : IdempotencyKey} {params : RecordEventParams} {now : Timestamp}

/-- `record_event_once` when its calls follow one another: it does not fail. -/
theorem recordEventOnce_some : ∃ fresh after, ledger.recordEventOnce calendar key params now = some (fresh,after) := by
  unfold Ledger.recordEventOnce
  by_cases known : ledger.recorded key
  · rw [if_pos known]
    exact ⟨_,_,rfl⟩
  · rw [if_neg known]
    by_cases counts : params.kind.counts
    · simp only [if_pos counts]
      obtain ⟨after,applied⟩ := @applyCounterDelta_some
        (ledger.insertEvent (params.event (some key) now)) calendar (params.event (some key) now)
      rw [applied]
      exact ⟨_,_,rfl⟩
    · simp only [if_neg counts]
      exact ⟨_,_,rfl⟩

theorem recordEventOnce_known (known : ledger.recorded key) : ledger.recordEventOnce calendar key params now = some (false,ledger) := by
  unfold Ledger.recordEventOnce
  rw [if_pos known]

variable {fresh : Bool}

theorem recordEventOnce_events (unknown : ¬ledger.recorded key)
    (recorded : ledger.recordEventOnce calendar key params now = some (fresh,after)) :
    after.events = ledger.events ++ [params.event (some key) now] := by
  unfold Ledger.recordEventOnce at recorded
  rw [if_neg unknown] at recorded
  by_cases counts : params.kind.counts
  · simp only [if_pos counts] at recorded
    obtain ⟨_,applied,pair⟩ := Option.map_eq_some_iff.mp recorded
    obtain ⟨_,rfl⟩ := Prod.mk.inj pair
    exact applyCounterDelta_events applied
  · simp only [if_neg counts] at recorded
    obtain ⟨_,rfl⟩ := Prod.mk.inj (Option.some.inj recorded)
    rfl

theorem recordEventOnce_other (recorded : ledger.recordEventOnce calendar key params now = some (fresh,after))
    (different : window ≠ windowAt calendar params.teamId params.dimension now) : after.used window = ledger.used window := by
  unfold Ledger.recordEventOnce at recorded
  by_cases known : ledger.recorded key
  · rw [if_pos known] at recorded
    rw [← (Prod.mk.inj (Option.some.inj recorded)).2]
  · rw [if_neg known] at recorded
    by_cases counts : params.kind.counts
    · simp only [if_pos counts] at recorded
      obtain ⟨_,applied,pair⟩ := Option.map_eq_some_iff.mp recorded
      rw [← (Prod.mk.inj pair).2,applyCounterDelta_other applied different]
      rfl
    · simp only [if_neg counts] at recorded
      rw [← (Prod.mk.inj (Option.some.inj recorded)).2]
      rfl

end Once

end Statements

end GrassWorker.Quotas
