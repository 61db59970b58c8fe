import GrassWorker.Foundations.Checks
import GrassWorker.Validator
import Mathlib.Data.List.Infix

/-! Audit events are written, counted by the preview of a cleanup, and deleted by the cleanup with the snapshot of that
preview. A moment is its nanoseconds. -/
namespace GrassWorker.AuditCleanup
open Validator Checks

abbrev Text := List Char

inductive AuditActorType
  | anonymous | user | system | node
deriving DecidableEq

inductive AuditEventResult
  | success | failure | denied
deriving DecidableEq

inductive AuditEventVisibility
  | platform | team
deriving DecidableEq

structure AuditEvent where
  id : Nat
  actorUserId : Option Nat
  teamId : Option Nat
  actorType : AuditActorType
  visibility : AuditEventVisibility
  action : Text
  targetType : Text
  targetId : Option Nat
  result : AuditEventResult
  createdAt : Int
deriving DecidableEq

structure AuditQuery where
  action : Option Text := none
  actorUserId : Option Nat := none
  actorType : Option Text := none
  targetType : Option Text := none
  targetId : Option Nat := none
  teamId : Option Nat := none
  result : Option Text := none
  createdFromMs : Option Int := none
  createdToMs : Option Int := none
  snapshotBefore : Option Int := none

structure AuditEventFilter where
  action : Option Text
  actorUserId : Option Nat
  actorType : Option AuditActorType
  targetType : Option Text
  targetId : Option Nat
  teamId : Option Nat
  result : Option AuditEventResult
  createdFrom : Option Int
  createdTo : Option Int
  visibility : Option AuditEventVisibility
  teamVisibleOnly : Bool
deriving DecidableEq

/-- `AppError::Validation`, with its message. -/
abbrev Valid := Except String

def AuditActorType.asStr : AuditActorType → Text
  | .anonymous => "anonymous".toList
  | .user => "user".toList
  | .system => "system".toList
  | .node => "node".toList

def AuditEventResult.asStr : AuditEventResult → Text
  | .success => "success".toList
  | .failure => "failure".toList
  | .denied => "denied".toList

def parseName {α : Type} (asStr : α → Text) (values : List α) (message : String) : Option Text → Valid (Option α)
  | none => .ok none
  | some name => match values.find? (asStr · = name) with
    | some value => .ok (some value)
    | none => .error message

def parseActorType : Option Text → Valid (Option AuditActorType) :=
  parseName AuditActorType.asStr [.anonymous,.user,.system,.node] "actor_type must be anonymous, user, system, or node"

def parseResult : Option Text → Valid (Option AuditEventResult) :=
  parseName AuditEventResult.asStr [.success,.failure,.denied] "result must be success, failure, or denied"

/-- The range of `OffsetDateTime`, the years -9999 to 9999. -/
def minTimestamp : Int := -377705116800 * 1000000000
def maxTimestamp : Int := 253402300799 * 1000000000 + 999999999

def timestampFromMillis (field : String) : Option Int → Valid (Option Int)
  | none => .ok none
  | some value =>
    if minTimestamp ≤ value * 1000000 ∧ value * 1000000 ≤ maxTimestamp then .ok (some (value * 1000000))
    else .error (field ++ " is outside the supported timestamp range")

def eventFilter (query : AuditQuery) (teamId : Option Nat) (visibility : Option AuditEventVisibility) (teamVisibleOnly : Bool) :
    Valid AuditEventFilter := do
  let createdFrom ← timestampFromMillis "from" query.createdFromMs
  let createdTo ← timestampFromMillis "to" query.createdToMs
  if createdFrom.any fun start => createdTo.any (· < start) then .error "from must not be later than to"
  else
    return { action := query.action.filter fun value => trim value ≠ [], actorUserId := query.actorUserId,
             actorType := ← parseActorType query.actorType, targetType := query.targetType.filter fun value => trim value ≠ [],
             targetId := query.targetId, teamId := teamId.or query.teamId, result := ← parseResult query.result,
             createdFrom, createdTo, visibility, teamVisibleOnly }

def cleanupEventFilter (query : AuditQuery) (generatedSnapshotMs : Option Int) (now : Int) : Valid (AuditEventFilter × Int) := do
  match query.snapshotBefore.or generatedSnapshotMs with
  | none => .error "snapshot_before from a cleanup preview is required"
  | some snapshotMs =>
    let _ ← timestampFromMillis "snapshot_before" (some snapshotMs)
    let snapshot := snapshotMs * 1000000
    if now < snapshot then .error "snapshot_before must not be in the future"
    else
      let filter ← eventFilter query none none false
      let filter := { filter with createdTo := some (filter.createdTo.elim snapshot (min · snapshot)) }
      if filter.createdFrom.any (snapshot < ·) then .error "from must not be later than snapshot_before"
      else return (filter,snapshotMs)

/-- `LIKE`, with the backslash as its escape. -/
def like : Text → Text → Bool
  | [],text => text = []
  | '%' :: pattern,text => text.tails.any (like pattern)
  | '_' :: pattern,text => text ≠ [] && like pattern text.tail
  | ['\\'],_ => false
  | '\\' :: c :: pattern,text => text.head? = some c && like pattern text.tail
  | c :: pattern,text => text.head? = some c && like pattern text.tail

/-- `starts_with` of a column. -/
def startsWith (start text : Text) : Bool := like (start ++ ['%']) text

def teamVisible (event : AuditEvent) : Bool :=
  ["deployment.".toList,"host.".toList,"project.".toList,"quota.".toList,"team.member.".toList,"team.invitation.".toList].any
    (startsWith · event.action) || event.action = "artifact.uploaded".toList

def auditEventCondition (filter : AuditEventFilter) (event : AuditEvent) : Bool :=
  filter.action.all (startsWith · event.action) && filter.actorUserId.all (event.actorUserId = some ·) &&
  filter.actorType.all (event.actorType = ·) && filter.targetType.all (event.targetType = ·) &&
  filter.targetId.all (event.targetId = some ·) && filter.teamId.all (event.teamId = some ·) &&
  filter.visibility.all (event.visibility = ·) && filter.result.all (event.result = ·) &&
  filter.createdFrom.all (· ≤ event.createdAt) && filter.createdTo.all (event.createdAt ≤ ·) &&
  (!filter.teamVisibleOnly || teamVisible event)

/-- The events that were built and not committed yet, and those everybody sees. -/
structure State where
  now : Int
  inFlight : List AuditEvent
  table : List AuditEvent

inductive Action
  | passes (nanoseconds : Nat)
  | builds (event : AuditEvent)
  | commits (index : Nat)
  | rollsBack (index : Nat)
  /-- Another cleanup, or the retention of audit events. -/
  | cleans (keeps : AuditEvent → Bool)

def stored (now : Int) : Int := now / 1000 * 1000

def step (s : State) : Action → State
  | .passes nanoseconds => { s with now := s.now + nanoseconds }
  | .builds event => { s with inFlight := s.inFlight ++ [{ event with createdAt := stored s.now }] }
  | .commits index => { s with inFlight := s.inFlight.eraseIdx index, table := s.table ++ s.inFlight[index]?.toList }
  | .rollsBack index => { s with inFlight := s.inFlight.eraseIdx index }
  | .cleans keeps => { s with table := s.table.filter keeps }

def run (s : State) (actions : List Action) : State := actions.foldl step s

def committed (s : State) : List Action → List AuditEvent
  | [] => []
  | action :: rest => (match action with
      | .commits index => s.inFlight[index]?.toList
      | _ => []) ++ committed (step s action) rest

def matching (filter : AuditEventFilter) (s : State) : List AuditEvent := s.table.filter (auditEventCondition filter)

def deleteEvents (filter : AuditEventFilter) (s : State) : State :=
  { s with table := s.table.filter fun event => !auditEventCondition filter event }

def snapshotMs (now : Int) : Int := now.tdiv 1000000

structure SatisfiesLiterally (query : AuditQuery) (snapshot : Int) (event : AuditEvent) : Prop where
  action : ∀ start, query.action = some start → start <+: event.action
  actorUserId : ∀ id, query.actorUserId = some id → event.actorUserId = some id
  actorType : ∀ name, query.actorType = some name → event.actorType.asStr = name
  targetType : ∀ name, query.targetType = some name → event.targetType = name
  targetId : ∀ id, query.targetId = some id → event.targetId = some id
  teamId : ∀ id, query.teamId = some id → event.teamId = some id
  result : ∀ name, query.result = some name → event.result.asStr = name
  start : ∀ ms, query.createdFromMs = some ms → ms * 1000000 ≤ event.createdAt
  stop : ∀ ms, query.createdToMs = some ms → event.createdAt ≤ ms * 1000000
  snapshot : event.createdAt ≤ snapshot * 1000000

structure Plain (query : AuditQuery) : Prop where
  action : ∀ start, query.action = some start → trim start ≠ [] ∧ ∀ c ∈ start, c ∉ ['%','_','\\']
  targetType : ∀ name, query.targetType = some name → trim name ≠ []

structure DeletesCounted (query : AuditQuery) (snapshot : Int) (counted deleted : List AuditEvent) (after : State) : Prop where
  only : ∀ event ∈ deleted, event ∈ counted
  gone : ∀ event ∈ counted, event ∉ after.table
  literal : ∀ event ∈ deleted, SatisfiesLiterally query snapshot event

section Filters
variable {query : AuditQuery} {filter base : AuditEventFilter} {snapshot now : Int} {generated : Option Int} {event : AuditEvent}

theorem startsWith_plain {start : Text} (plain : ∀ c ∈ start, c ∉ ['%','_','\\']) (text : Text) :
    startsWith start text = true ↔ start <+: text := by
  unfold startsWith
  induction start generalizing text with
  | nil =>
    have rest : [] ∈ text.tails := (List.mem_tails ..).mpr List.nil_suffix
    exact iff_of_true (List.any_eq_true.mpr ⟨[],rest,rfl⟩) List.nil_prefix
  | cons c start ih =>
    have own := plain c List.mem_cons_self
    simp only [List.mem_cons,List.not_mem_nil,or_false,not_or] at own
    have same := ih fun d member => plain d (List.mem_cons_of_mem _ member)
    have next : like (c :: (start ++ ['%'])) text = (text.head? = some c && like (start ++ ['%']) text.tail) := by
      rw [like.eq_def]
      split <;> simp_all
    rw [List.cons_append,next]
    cases text with
    | nil => simp
    | cons d text =>
      rw [List.cons_prefix_cons,← same,eq_comm (a := c)]
      simp

theorem parseName_ok {α : Type} {asStr : α → Text} {values : List α} {message : String} {name : Option Text} {value : Option α}
    (parsed : parseName asStr values message name = .ok value) : ∀ text, name = some text → ∃ found, value = some found ∧ asStr found = text := by
  rintro text rfl
  unfold parseName at parsed
  split at parsed
  · rename_i absent
    cases absent
  · rename_i given
    cases given
    split at parsed
    · rename_i found known
      cases parsed
      have same := List.find?_some known
      exact ⟨found,rfl,of_decide_eq_true same⟩
    · cases parsed

theorem timestampFromMillis_ok {field : String} {value moment : Option Int} (made : timestampFromMillis field value = .ok moment) :
    moment = value.map (· * 1000000) := by
  unfold timestampFromMillis at made
  split at made
  · cases made
    rfl
  · split at made
    · cases made
      rfl
    · cases made

theorem eventFilter_ok (made : eventFilter query none none false = .ok base) :
    ∃ actorType result, parseActorType query.actorType = .ok actorType ∧ parseResult query.result = .ok result ∧
      base = { action := query.action.filter fun value => trim value ≠ [], actorUserId := query.actorUserId, actorType,
               targetType := query.targetType.filter fun value => trim value ≠ [], targetId := query.targetId, teamId := query.teamId,
               result, createdFrom := query.createdFromMs.map (· * 1000000), createdTo := query.createdToMs.map (· * 1000000),
               visibility := none, teamVisibleOnly := false } := by
  unfold eventFilter at made
  obtain ⟨createdFrom,first,made⟩ := bind_eq_ok.mp made
  obtain ⟨createdTo,second,made⟩ := bind_eq_ok.mp made
  split at made
  · cases made
  · obtain ⟨actorType,third,made⟩ := bind_eq_ok.mp made
    obtain ⟨result,fourth,made⟩ := bind_eq_ok.mp made
    refine ⟨actorType,result,third,fourth,?_⟩
    rw [timestampFromMillis_ok first,timestampFromMillis_ok second] at made
    exact (Except.ok.inj made).symm

theorem cleanupEventFilter_ok (made : cleanupEventFilter query generated now = .ok (filter,snapshot)) :
    query.snapshotBefore.or generated = some snapshot ∧ ∃ base, eventFilter query none none false = .ok base ∧
      filter = { base with createdTo := some (base.createdTo.elim (snapshot * 1000000) (min · (snapshot * 1000000))) } := by
  unfold cleanupEventFilter at made
  split at made
  · cases made
  · rename_i given found
    obtain ⟨_,_,made⟩ := bind_eq_ok.mp made
    dsimp only at made
    split at made
    · cases made
    · obtain ⟨base,filtered,made⟩ := bind_eq_ok.mp made
      split at made
      · cases made
      · cases made
        exact ⟨found,base,filtered,rfl⟩

/-- The query with the snapshot of its preview gives the filter of the preview. -/
theorem cleanupEventFilter_again {later : Int} {other : AuditEventFilter} {again : Int}
    (previewed : cleanupEventFilter query generated now = .ok (filter,snapshot))
    (confirmed : cleanupEventFilter { query with snapshotBefore := some snapshot } none later = .ok (other,again)) : other = filter := by
  obtain ⟨_,base,first,rfl⟩ := cleanupEventFilter_ok previewed
  obtain ⟨same,base',second,rfl⟩ := cleanupEventFilter_ok confirmed
  have equal : eventFilter { query with snapshotBefore := some snapshot } none none false = eventFilter query none none false := rfl
  rw [equal,first] at second
  cases same
  cases second
  rfl

theorem satisfies_of_condition (plain : Plain query) (made : cleanupEventFilter query generated now = .ok (filter,snapshot))
    (selected : auditEventCondition filter event) : SatisfiesLiterally query snapshot event := by
  obtain ⟨_,base,filtered,rfl⟩ := cleanupEventFilter_ok made
  obtain ⟨actorType,result,actor,outcome,rfl⟩ := eventFilter_ok filtered
  simp only [auditEventCondition,Bool.and_eq_true,Bool.or_eq_true,Option.all_eq_true,decide_eq_true_eq] at selected
  obtain ⟨⟨⟨⟨⟨⟨⟨⟨⟨⟨action,user⟩,kind⟩,target⟩,targetId⟩,team⟩,_⟩,ended⟩,start⟩,stop⟩,_⟩ := selected
  have upper : event.createdAt ≤ snapshot * 1000000 ∧ ∀ ms, query.createdToMs = some ms → event.createdAt ≤ ms * 1000000 := by
    have bound := stop _ rfl
    cases until' : query.createdToMs with
    | none =>
      rw [until'] at bound
      exact ⟨bound,nofun⟩
    | some ms =>
      rw [until'] at bound
      have bound : event.createdAt ≤ min (ms * 1000000) (snapshot * 1000000) := bound
      refine ⟨by omega,?_⟩
      rintro _ ⟨⟩
      omega
  refine ⟨?_,user,?_,?_,targetId,team,?_,?_,upper.2,upper.1⟩
  · intro start given
    obtain ⟨shown,free⟩ := plain.action start given
    exact (startsWith_plain free event.action).mp (action start (by rw [given,Option.filter_some,decide_eq_true shown,if_pos rfl]))
  · intro name given
    obtain ⟨found,rfl,same⟩ := parseName_ok actor name given
    rw [kind found rfl,same]
  · intro name given
    exact target name (by rw [given,Option.filter_some,decide_eq_true (plain.targetType name given),if_pos rfl])
  · intro name given
    obtain ⟨found,rfl,same⟩ := parseName_ok outcome name given
    rw [ended found rfl,same]
  · intro ms given
    exact start _ (by rw [given]; rfl)

end Filters

theorem mem_run (actions : List Action) (s : State) {event : AuditEvent} (member : event ∈ (run s actions).table) :
    event ∈ s.table ∨ event ∈ committed s actions := by
  induction actions generalizing s with
  | nil => exact .inl member
  | cons action rest ih =>
    rcases ih (step s action) member with there | later
    · cases action with
      | commits index =>
        rcases List.mem_append.mp there with before | now
        · exact .inl before
        · exact .inr (List.mem_append_left _ now)
      | cleans keeps => exact .inl (List.mem_filter.mp there).1
      | _ => exact .inl there
    · exact .inr (List.mem_append_right _ later)

section Members

def memberLeft : AuditEvent :=
  { id := 1, actorUserId := none, teamId := none, actorType := .system, visibility := .platform, action := "team.left".toList,
    targetType := "user".toList, targetId := none, result := .success, createdAt := 0 }

def prefixFilter (start : Text) : AuditEventFilter :=
  { action := some start, actorUserId := none, actorType := none, targetType := none, targetId := none, teamId := none, result := none,
    createdFrom := none, createdTo := some 5000000, visibility := none, teamVisibleOnly := false }

def visible : State := { now := 5000000, inFlight := [], table := [memberLeft] }

def late : State := { now := 5000000, inFlight := [memberLeft], table := [] }

theorem filter_of_team : cleanupEventFilter { action := some "team.".toList } (some 5) 5000000 = .ok (prefixFilter "team.".toList,5) := rfl

end Members

end GrassWorker.AuditCleanup
