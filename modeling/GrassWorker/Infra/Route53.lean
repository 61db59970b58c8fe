import GrassWorker.Domain.DomainDns
import GrassWorker.Foundations.Interleaving

/-! The records of hosts in a hosted zone of Route 53. A call lists the record set of its name and type, and sends the
change of it as one batch; the zone may be edited from outside at any time. The signed requests are left out: a
request ends with its answer, fails, or has its effect and loses the answer. -/
namespace GrassWorker.Route53
open Validator DomainDns Interleaving Runs

inductive RecordType
  | a | aaaa | cname
deriving DecidableEq, Repr

def RecordType.asStr : RecordType → Text
  | a => ['A']
  | aaaa => ['A','A','A','A']
  | cname => ['C','N','A','M','E']

structure Route53Config where
  recordType : RecordType
  recordValue : Text
  ttl : Nat
deriving DecidableEq

def sameDnsName (left right : Text) : Bool := canonical left = canonical right

def sameRecordValue (recordType : RecordType) (left right : Text) : Bool :=
  if recordType = .cname then sameDnsName left right else left = right

structure ListedRecord where
  name : Text
  recordType : Text
  ttl : Option Nat
  values : Option (List Text)
  setIdentifier : Option Text := none
  healthCheckId : Option Text := none
  multiValueAnswer : Bool := false
deriving DecidableEq

structure RecordSet where
  name : Text
  recordType : Text
  ttl : Nat
  values : List Text
deriving DecidableEq

def RecordSet.listed (record : RecordSet) : ListedRecord :=
  { name := record.name, recordType := record.recordType, ttl := some record.ttl, values := some record.values }

def ListedRecord.same (record : ListedRecord) (name recordType : Text) : Bool :=
  sameDnsName record.name name ∧ record.recordType = recordType

def recordName (host : Text) : Text := canonical (trim host) ++ ['.']

/-- The type of what it accepts is the configured one, which is in upper case already. -/
def parseRecordSet (first : Option ListedRecord) (name recordType : Text) : Except String (Option RecordSet) :=
  match first.filter fun record => record.same name recordType with
  | none => .ok none
  | some record =>
    if record.setIdentifier.isSome ∨ record.healthCheckId.isSome ∨ record.multiValueAnswer then
      .error "route53 record uses a routing policy that cannot be managed as a simple record"
    else
      match record.ttl,record.values with
      | none,_ => .error "route53 alias records cannot be managed as simple records"
      | some _,none => .error "route53 returned a record set without values"
      | some ttl,some values => .ok (some ⟨record.name,record.recordType,ttl,values⟩)

abbrev Zone := List ListedRecord

/-- The first record set from a name and type on; `later` is one behind them. -/
def firstFrom (zone : Zone) (later : Option ListedRecord) (name recordType : Text) : Option ListedRecord :=
  (zone.find? fun record => record.same name recordType).or (later.filter fun record => !record.same name recordType)

def deleteRecord (zone : Zone) (record : RecordSet) : Option Zone :=
  if record.listed ∈ zone then some (zone.filter fun other => other ≠ record.listed) else none

def createRecord (zone : Zone) (record : RecordSet) : Option Zone :=
  if zone.any fun other => other.same record.name record.recordType then none else some (zone ++ [record.listed])

def changeRecordSet (zone : Zone) (original desired : Option RecordSet) : Option Zone := do
  let zone ← original.elim (some zone) (deleteRecord zone)
  desired.elim (some zone) (createRecord zone)

inductive Action
  | ensure | remove
deriving DecidableEq, Repr

structure Call where
  action : Action
  config : Route53Config
  host : Text
deriving DecidableEq

def Call.name (call : Call) : Text := recordName call.host

def Call.recordType (call : Call) : Text := call.config.recordType.asStr

/-- What `ensure_record` and `remove_record` make of the record set they find: nothing, or a batch. -/
def Call.plan (call : Call) (existing : Option RecordSet) : Option (Option RecordSet × Option RecordSet) :=
  let config := call.config
  match call.action with
  | .ensure =>
    let record := existing.getD ⟨call.name,call.recordType,config.ttl,[]⟩
    let containsValue := record.values.any fun value => sameRecordValue config.recordType value config.recordValue
    if containsValue ∧ record.ttl = config.ttl ∧ (config.recordType ≠ .cname ∨ record.values.length = 1) then none
    else
      let values :=
        if config.recordType = .cname then [config.recordValue]
        else if containsValue then record.values
        else record.values ++ [config.recordValue]
      some (existing,some { record with values, ttl := config.ttl })
  | .remove =>
    match existing with
    | none => none
    | some original =>
      let values := original.values.filter fun value => !sameRecordValue config.recordType value config.recordValue
      if values.length = original.values.length then none
      else some (original,if values = [] then none else some { original with values })

/-- A call that has succeeded, or a batch that was applied: the zone right before and right after it. -/
structure Outcome where
  call : Call
  before : Zone
  after : Zone

structure Shared where
  zone : Zone
  written : List Outcome := []
  ended : List Outcome := []

inductive Handler
  | edit (zone : Zone)
  | list (call : Call) (attempt : Nat)
  | change (call : Call) (attempt : Nat) (original desired : Option RecordSet)

inductive Answer
  | given
  | failed
  | lost
  /-- The answer was a server error after the change; the request is repeated and refused. -/
  | repeated
deriving DecidableEq, Repr

structure Input where
  answer : Answer := .given
  later : Option ListedRecord := none

def retry (call : Call) (attempt : Nat) : Option Handler := if attempt < 2 then some (.list call (attempt + 1)) else none

def advance (input : Input) (s : Shared) : Handler → Shared × Option Handler
  | .edit zone => ({ s with zone },none)
  | .list call attempt =>
    if input.answer ≠ .given then (s,none)
    else
      match parseRecordSet (firstFrom s.zone input.later call.name call.recordType) call.name call.recordType with
      | .error _ => (s,none)
      | .ok existing =>
        match call.plan existing with
        | none => ({ s with ended := ⟨call,s.zone,s.zone⟩ :: s.ended },none)
        | some (original,desired) => (s,some (.change call attempt original desired))
  | .change call attempt original desired =>
    if input.answer = .failed then (s,none)
    else
      match changeRecordSet s.zone original desired with
      | none => (s,retry call attempt)
      | some zone =>
        let written := { s with zone, written := ⟨call,s.zone,zone⟩ :: s.written }
        match input.answer with
        | .given => ({ written with ended := ⟨call,s.zone,zone⟩ :: s.ended },none)
        | .repeated => (written,retry call attempt)
        | _ => (written,none)

def machine : Machine Shared Handler (Call ⊕ Zone) Input :=
  ⟨fun request => request.elim (fun call => .list call 0) .edit,advance⟩

def idle (zone : Zone) : Config Shared Handler := ⟨{ zone },[]⟩

def Call.concerns (call : Call) (record : ListedRecord) : Prop := record.same call.name call.recordType

def ListedRecord.Plain (record : ListedRecord) : Prop := ∃ plain : RecordSet, record = plain.listed

/-- No record set of another name or type, no alias and none of a routing policy is changed. -/
def Own (outcome : Outcome) : Prop := ∀ record, ¬(outcome.call.concerns record ∧ record.Plain) →
  (record ∈ outcome.after ↔ record ∈ outcome.before)

def KeepsValues (outcome : Outcome) : Prop :=
  ∀ old ∈ outcome.before, outcome.call.concerns old → ∀ value ∈ old.values.getD [],
    sameRecordValue outcome.call.config.recordType value outcome.call.config.recordValue = false →
    ∃ new ∈ outcome.after, outcome.call.concerns new ∧ value ∈ new.values.getD []

/-- The record set is there, with the TTL and the value, alone for a CNAME, and the same call would find nothing to do. -/
def Ensured (outcome : Outcome) : Prop :=
  ∃ record : RecordSet, record.listed ∈ outcome.after ∧ outcome.call.concerns record.listed ∧
    record.ttl = outcome.call.config.ttl ∧
    (∃ value ∈ record.values, sameRecordValue outcome.call.config.recordType value outcome.call.config.recordValue) ∧
    (outcome.call.config.recordType = .cname → record.values.length = 1) ∧
    ∀ later, parseRecordSet (firstFrom outcome.after later outcome.call.name outcome.call.recordType) outcome.call.name
      outcome.call.recordType = .ok (some record) ∧ outcome.call.plan (some record) = none

/-- A call that succeeds keeps the values of others, except that a CNAME has only one. -/
def Rightful (outcome : Outcome) : Prop :=
  (outcome.call.action = .ensure → Ensured outcome) ∧
    (outcome.call.action = .ensure → outcome.call.config.recordType ≠ .cname → KeepsValues outcome) ∧
    (outcome.call.action = .remove → KeepsValues outcome)

section Records
variable {zone after : Zone} {name recordType : Text} {original desired : Option RecordSet} {record : RecordSet}

theorem same_congr {one other : ListedRecord} (same : one.same name recordType) :
    other.same one.name one.recordType = other.same name recordType := by
  simp only [ListedRecord.same,sameDnsName,decide_eq_true_eq] at same ⊢
  rw [same.1,same.2]

theorem parse_listed (same : record.listed.same name recordType) :
    parseRecordSet (some record.listed) name recordType = .ok (some record) := by
  unfold parseRecordSet
  rw [Option.filter_some,if_pos same]
  rfl

theorem parse_eq_some {first : Option ListedRecord} (parsed : parseRecordSet first name recordType = .ok (some record)) :
    first = some record.listed ∧ record.listed.same name recordType := by
  unfold parseRecordSet at parsed
  split at parsed
  · cases parsed
  · rename_i entry filtered
    obtain ⟨found,same⟩ := Option.filter_eq_some_iff.mp filtered
    obtain ⟨name',type',ttl,values,identifier,health,multi⟩ := entry
    split at parsed
    · cases parsed
    · rename_i plain
      simp only [not_or,Bool.not_eq_true,Option.isSome_eq_false_iff,Option.isNone_iff_eq_none] at plain
      obtain ⟨rfl,rfl,rfl⟩ := plain
      split at parsed
      · cases parsed
      · cases parsed
      · rename_i ttl' values' own values_
        obtain ⟨rfl,rfl⟩ : ttl = some ttl' ∧ values = some values' := ⟨own,values_⟩
        cases parsed
        exact ⟨found,same⟩

/-- A record set that is read from the zone is the first of its name and type there, and is read again. -/
theorem found_of_parse {later : Option ListedRecord}
    (parsed : parseRecordSet (firstFrom zone later name recordType) name recordType = .ok (some record)) :
    record.listed ∈ zone ∧ record.listed.same name recordType ∧
      ∀ later, parseRecordSet (firstFrom zone later name recordType) name recordType = .ok (some record) := by
  obtain ⟨first,same⟩ := parse_eq_some parsed
  unfold firstFrom at first ⊢
  cases found : zone.find? fun other => other.same name recordType with
  | none =>
    rw [found,Option.none_or] at first
    have apart := (Option.filter_eq_some_iff.mp first).2
    rw [same] at apart
    cases apart
  | some entry =>
    rw [found,Option.some_or] at first
    rw [← Option.some.inj first] at same ⊢
    refine ⟨List.mem_of_find?_eq_some found,same,fun _ => ?_⟩
    rw [Option.some_or,Option.some.inj first]
    exact parse_listed (Option.some.inj first ▸ same)

theorem mem_deleteRecord {zone' : Zone} (deleted : original.elim (some zone) (deleteRecord zone) = some zone') {entry : ListedRecord} :
    entry ∈ zone' ↔ entry ∈ zone ∧ ∀ old ∈ original, entry ≠ old.listed := by
  cases original with
  | none =>
    cases deleted
    simp
  | some old =>
    simp only [Option.elim_some,deleteRecord] at deleted
    split at deleted
    · cases deleted
      simp
    · cases deleted

/-- What a batch that is applied does: it takes the record set it names out of the zone and adds the desired one,
the only one of its name and type. -/
theorem change_mem (changed : changeRecordSet zone original desired = some after) :
    (∀ entry, entry ∈ after ↔ (entry ∈ zone ∧ ∀ old ∈ original, entry ≠ old.listed) ∨ ∃ new ∈ desired, entry = new.listed) ∧
    ∀ new ∈ desired, (∀ entry ∈ zone, entry.same new.name new.recordType → ∃ old ∈ original, entry = old.listed) ∧
      after.find? (fun other => other.same new.name new.recordType) = some new.listed := by
  unfold changeRecordSet at changed
  obtain ⟨zone',deleted,created⟩ := Option.bind_eq_some_iff.mp changed
  have left := fun entry => @mem_deleteRecord zone original zone' deleted entry
  cases desired with
  | none =>
    cases created
    exact ⟨fun entry => by simp [left entry],fun new member => by cases member⟩
  | some new =>
    simp only [Option.elim_some,createRecord] at created
    split at created
    · cases created
    · rename_i free
      cases created
      simp only [Bool.not_eq_true,List.any_eq_false] at free
      refine ⟨fun entry => ?_,?_⟩
      · rw [List.mem_append,List.mem_singleton,left]
        simp
      · rintro new' ⟨⟩
        refine ⟨fun entry member same => ?_,?_⟩
        · by_contra other
          push Not at other
          exact Bool.false_ne_true ((free entry ((left entry).mpr ⟨member,other⟩)).symm.trans same)
        · have none' : zone'.find? (fun other => other.same new.name new.recordType) = none :=
            List.find?_eq_none.mpr fun entry member => Bool.eq_false_iff.mp (free entry member)
          have own : new.listed.same new.name new.recordType := by
            simp [ListedRecord.same,sameDnsName,RecordSet.listed]
          rw [List.find?_append,none',Option.none_or]
          exact List.find?_cons_of_pos own

end Records

section Plans
variable {call : Call} {existing original desired : Option RecordSet}

theorem sameRecordValue_self (recordType : RecordType) (value : Text) : sameRecordValue recordType value value := by
  unfold sameRecordValue sameDnsName
  split <;> simp

/-- A batch replaces the record set that was found by one of the same name and type. -/
theorem plan_concerns (planned : call.plan existing = some (original,desired)) (own : ∀ record ∈ existing, call.concerns record.listed) :
    original = existing ∧ ∀ record ∈ desired, call.concerns record.listed := by
  unfold Call.plan at planned
  dsimp only at planned
  split at planned
  · split at planned
    · cases planned
    · cases planned
      refine ⟨rfl,?_⟩
      rintro record ⟨⟩
      cases existing with
      | none => simp [Call.concerns,RecordSet.listed,ListedRecord.same,sameDnsName]
      | some old => exact own old rfl
  · split at planned
    · cases planned
    · rename_i old
      split at planned
      · cases planned
      · cases planned
        refine ⟨rfl,fun record member => ?_⟩
        split at member
        · cases member
        · cases member
          exact own old rfl

theorem plan_ensure (ensure : call.action = .ensure) (planned : call.plan existing = some (original,desired)) :
    ∃ record, desired = some record ∧ record.ttl = call.config.ttl ∧
      (∃ value ∈ record.values, sameRecordValue call.config.recordType value call.config.recordValue) ∧
      (call.config.recordType = .cname → record.values.length = 1) ∧ call.plan (some record) = none ∧
      (call.config.recordType ≠ .cname → ∀ old ∈ existing, ∀ value ∈ old.values, value ∈ record.values) := by
  unfold Call.plan at planned
  simp only [ensure] at planned
  split at planned
  · cases planned
  · cases planned
    have self := sameRecordValue_self call.config.recordType call.config.recordValue
    refine ⟨_,rfl,rfl,?_,?_,?_,?_⟩
    · dsimp only
      split
      · exact ⟨_,List.mem_singleton_self _,self⟩
      · split
        · exact List.any_eq_true.mp ‹_›
        · exact ⟨_,List.mem_append_right _ (List.mem_singleton_self _),self⟩
    · intro cname
      simp [cname]
    · unfold Call.plan
      simp only [ensure]
      refine if_pos ⟨?_,rfl,?_⟩
      · split
        · simp [self]
        · split
          · assumption
          · simp [self]
      · by_cases cname : call.config.recordType = .cname
        · simp [cname]
        · exact .inl cname
    · intro several old member value inside
      cases member
      dsimp only [Option.getD_some]
      rw [if_neg several]
      split
      · exact inside
      · exact List.mem_append_left _ inside

theorem plan_remove (remove : call.action = .remove) (planned : call.plan existing = some (original,desired)) :
    ∀ old ∈ existing, ∀ value ∈ old.values, sameRecordValue call.config.recordType value call.config.recordValue = false →
      ∃ record ∈ desired, value ∈ record.values := by
  rintro old ⟨⟩ value inside other
  unfold Call.plan at planned
  simp only [remove] at planned
  split at planned
  · cases planned
  · cases planned
    have kept : value ∈ old.values.filter fun value => !sameRecordValue call.config.recordType value call.config.recordValue :=
      List.mem_filter.mpr ⟨inside,by simp [other]⟩
    rw [if_neg (List.ne_nil_of_mem kept)]
    exact ⟨_,rfl,kept⟩

end Plans

section Outcomes
variable {call : Call} {zone after : Zone} {existing original desired : Option RecordSet}

/-- What is known of a batch on its way: it is what the call makes of a record set it found. -/
def Planned (call : Call) (original desired : Option RecordSet) : Prop :=
  (∀ record ∈ original, call.concerns record.listed) ∧ call.plan original = some (original,desired)

theorem own_changed (planned : Planned call original desired) (changed : changeRecordSet zone original desired = some after) :
    Own ⟨call,zone,after⟩ := by
  intro record apart
  obtain ⟨_,concerns⟩ := plan_concerns planned.2 planned.1
  have other : ∀ plain : RecordSet, call.concerns plain.listed → record ≠ plain.listed :=
    fun plain own same => apart ⟨same ▸ own,plain,same⟩
  rw [(change_mem changed).1]
  constructor
  · rintro (⟨member,_⟩ | ⟨new,member,same⟩)
    · exact member
    · exact absurd same (other new (concerns new member))
  · exact fun member => .inl ⟨member,fun old inside => other old (planned.1 old inside)⟩

/-- Where the values of the original are in the desired record set, the batch loses none. -/
theorem keeps_changed (planned : Planned call original desired) (changed : changeRecordSet zone original desired = some after)
    (kept : ∀ old ∈ original, ∀ value ∈ old.values,
      sameRecordValue call.config.recordType value call.config.recordValue = false → ∃ record ∈ desired, value ∈ record.values) :
    KeepsValues ⟨call,zone,after⟩ := by
  intro old member concerns value inside other
  obtain ⟨mem,_⟩ := change_mem changed
  by_cases taken : ∃ record ∈ original, old = record.listed
  · obtain ⟨record,first,rfl⟩ := taken
    obtain ⟨new,wanted,has⟩ := kept record first value inside other
    exact ⟨new.listed,(mem _).mpr (.inr ⟨new,wanted,rfl⟩),(plan_concerns planned.2 planned.1).2 new wanted,has⟩
  · push Not at taken
    exact ⟨old,(mem _).mpr (.inl ⟨member,taken⟩),concerns,inside⟩

theorem rightful_changed (planned : Planned call original desired) (changed : changeRecordSet zone original desired = some after) :
    Rightful ⟨call,zone,after⟩ := by
  refine ⟨fun ensure => ?_,fun ensure several => ?_,fun remove => keeps_changed planned changed (plan_remove remove planned.2)⟩
  · obtain ⟨record,rfl,ttl,value,alone,settled,_⟩ := plan_ensure ensure planned.2
    have concerns := (plan_concerns planned.2 planned.1).2 record rfl
    obtain ⟨mem,only⟩ := change_mem changed
    refine ⟨record,(mem _).mpr (.inr ⟨record,rfl,rfl⟩),concerns,ttl,value,alone,fun later => ⟨?_,settled⟩⟩
    have first := (only record rfl).2
    have names : (fun other : ListedRecord => other.same record.name record.recordType) = fun other => other.same call.name call.recordType :=
      funext fun other => @same_congr call.name call.recordType record.listed other concerns
    rw [names] at first
    rw [firstFrom,first,Option.some_or]
    exact parse_listed concerns
  · obtain ⟨record,rfl,_,_,_,_,kept⟩ := plan_ensure ensure planned.2
    exact keeps_changed planned changed fun old member value inside _ => ⟨record,rfl,kept several old member value inside⟩

theorem rightful_unchanged {later : Option ListedRecord}
    (parsed : parseRecordSet (firstFrom zone later call.name call.recordType) call.name call.recordType = .ok existing)
    (nothing : call.plan existing = none) : Rightful ⟨call,zone,zone⟩ := by
  have keeps : KeepsValues ⟨call,zone,zone⟩ := fun old member concerns value inside _ => ⟨old,member,concerns,inside⟩
  refine ⟨fun ensure => ?_,fun _ _ => keeps,fun _ => keeps⟩
  have ensure : call.action = .ensure := ensure
  have plan := nothing
  unfold Call.plan at nothing
  simp only [ensure] at nothing
  split at nothing
  · rename_i fits
    cases existing with
    | none => simp at fits
    | some record =>
      obtain ⟨member,concerns,again⟩ := found_of_parse parsed
      refine ⟨record,member,concerns,fits.2.1,List.any_eq_true.mp fits.1,fun cname => ?_,fun later => ⟨again later,plan⟩⟩
      exact fits.2.2.resolve_left fun several => several cname
  · cases nothing

end Outcomes

def Sound (s : Shared) : Prop := (∀ outcome ∈ s.written, Own outcome) ∧ ∀ outcome ∈ s.ended, Rightful outcome

def Relies (_ : Shared) : Handler → Prop
  | .change call _ original desired => Planned call original desired
  | _ => True

theorem relies_retry (s : Shared) (call : Call) (attempt : Nat) : ∀ rest, retry call attempt = some rest → Relies s rest := by
  intro rest next
  unfold retry at next
  split at next
  · cases next
    trivial
  · cases next

theorem advance_sound (input : Input) (s : Shared) (handler : Handler) (sound : Sound s) (relies : Relies s handler) :
    Sound (advance input s handler).1 ∧
      ∀ rest, (advance input s handler).2 = some rest → Relies (advance input s handler).1 rest := by
  cases handler with
  | edit zone => exact ⟨sound,fun rest next => by cases next⟩
  | list call attempt =>
    unfold advance
    dsimp only
    split
    · exact ⟨sound,fun rest next => by cases next⟩
    · split
      · exact ⟨sound,fun rest next => by cases next⟩
      · rename_i existing parsed
        split
        · rename_i nothing
          exact ⟨⟨sound.1,List.forall_mem_cons.mpr ⟨rightful_unchanged parsed nothing,sound.2⟩⟩,fun rest next => by cases next⟩
        · rename_i original desired planned
          have own : ∀ record ∈ existing, call.concerns record.listed := by
            rintro record ⟨⟩
            exact (found_of_parse parsed).2.1
          obtain ⟨rfl,_⟩ := plan_concerns planned own
          refine ⟨sound,?_⟩
          rintro rest ⟨⟩
          exact ⟨own,planned⟩
  | change call attempt original desired =>
    unfold advance
    dsimp only
    split
    · exact ⟨sound,fun rest next => by cases next⟩
    · split
      · exact ⟨sound,relies_retry s call attempt⟩
      · rename_i zone changed
        have written := List.forall_mem_cons.mpr ⟨own_changed relies changed,sound.1⟩
        split
        · exact ⟨⟨written,List.forall_mem_cons.mpr ⟨rightful_changed relies changed,sound.2⟩⟩,fun rest next => by cases next⟩
        · exact ⟨⟨written,sound.2⟩,relies_retry _ call attempt⟩
        · exact ⟨⟨written,sound.2⟩,fun rest next => by cases next⟩

/-- In every run of calls and edits from outside, each batch changes plain record sets of its own name and type only,
and each call that succeeds leaves its value there, or the values of others. -/
theorem records_reconciled (zone : Zone) (events : List (Event (Call ⊕ Zone) Input)) :
    Throughout machine.step (fun config => Sound config.shared) (idle zone) events := by
  have start : Holds Sound Relies (idle zone) := by
    refine ⟨⟨?_,?_⟩,?_⟩ <;>
    · intro _ member
      cases member
  have kept : ∀ config event, Holds Sound Relies config → True → Holds Sound Relies (machine.step config event) := by
    intro config event holds _
    refine Holds.step ?_ ?_ ?_ config event holds (acting_true config event)
    · intro s request _
      cases request <;> trivial
    · exact fun input s handler _ sound relies => advance_sound input s handler sound relies
    · intro input s handler other _ _ _ relied
      cases other <;> exact relied
  exact throughout_of_invariant kept (fun _ holds => holds.state) _ events start (along_true _ events)

end GrassWorker.Route53
