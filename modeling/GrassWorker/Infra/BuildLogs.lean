import GrassWorker.Foundations.Mutexes
import GrassWorker.Foundations.Obligations
import Mathlib.Data.Multiset.AddSub
import Mathlib.Logic.Function.Basic

/-! Build logs: appends that read an object, extend it and write it again, each under the lock of its deployment. The
locks are held alive by the appends alone; the map keeps weak references, which every lookup purges. -/
namespace GrassWorker.BuildLogs
open Interleaving Runs

abbrev Bytes := List UInt8

/-- `{project_id}:{deployment_id}`, and the path `deployments/{project_id}/{deployment_id}/build.log`. -/
structure LogKey where
  projectId : Nat
  deploymentId : Nat
deriving DecidableEq

inductive BackendError
  | stream (text : String)
  | unsafePath (path : String)
  | invalidConfig (text : String)
  | backend (text : String)
  | io (text : String)
deriving DecidableEq

inductive StorageError
  | limitExceeded (maxBytes : Nat)
  | unsupportedSize
  | maintenance
  | of (error : BackendError)
deriving DecidableEq

def maxBuildLogBytes : Nat := 16 * 1024 * 1024

/-- One past the largest `u64`. -/
def sizeRange : Nat := 2 ^ 64

structure OpenedObject where
  stream : List (Except BackendError Bytes)
  sizeBytes : Nat

/-- The loop of `read_object_limited`; `size_bytes` is the number of bytes read so far. -/
def readChunks (maxBytes : Nat) (bytes : Bytes) : List (Except BackendError Bytes) → Except StorageError Bytes
  | [] => .ok bytes
  | .error error :: _ => .error (.of error)
  | .ok chunk :: rest =>
    if sizeRange ≤ bytes.length + chunk.length then .error .unsupportedSize
    else if maxBytes < bytes.length + chunk.length then .error (.limitExceeded maxBytes)
    else readChunks maxBytes (bytes ++ chunk) rest

def readObjectLimited (object : OpenedObject) (maxBytes : Nat) : Except StorageError Bytes :=
  if maxBytes < object.sizeBytes then .error (.limitExceeded maxBytes)
  else if sizeRange ≤ object.sizeBytes then .error .unsupportedSize
  else readChunks maxBytes [] object.stream

def currentLog (content : Bytes) : Option OpenedObject → Except StorageError Bytes
  | some object =>
    if maxBuildLogBytes - content.length < object.sizeBytes then .error (.limitExceeded maxBuildLogBytes)
    else readObjectLimited object (maxBuildLogBytes - content.length)
  | none => .ok []

def concatenate (content current : Bytes) : Except StorageError Bytes :=
  if sizeRange ≤ current.length + content.length ∨ maxBuildLogBytes < current.length + content.length then
    .error (.limitExceeded maxBuildLogBytes)
  else .ok (current ++ content)

def extend (opened : Option OpenedObject) (content : Bytes) : Except StorageError Bytes :=
  currentLog content opened >>= concatenate content

/-- The chunks in which a backend delivers an object, and the error that ends the stream early, if one does. -/
structure Delivery where
  chunks : Bytes → List Bytes := fun bytes => [bytes]
  complete : ∀ bytes, (chunks bytes).flatten = bytes := by simp
  breaks : Option (Nat × BackendError) := none

def Delivery.object (delivery : Delivery) (bytes : Bytes) : OpenedObject where
  stream := match delivery.breaks with
    | none => (delivery.chunks bytes).map .ok
    | some (count,error) => ((delivery.chunks bytes).take count).map .ok ++ [.error error]
  sizeBytes := bytes.length

section Reading
variable (maxBytes : Nat)

private theorem readChunks_chunks (bytes : Bytes) (chunks : List Bytes) (rest : List (Except BackendError Bytes))
    (fits : bytes.length + chunks.flatten.length ≤ maxBytes) (range : maxBytes < sizeRange) :
    readChunks maxBytes bytes (chunks.map .ok ++ rest) = readChunks maxBytes (bytes ++ chunks.flatten) rest := by
  induction chunks generalizing bytes with
  | nil => simp
  | cons chunk others ih =>
    rw [List.flatten_cons,List.length_append] at fits
    rw [List.map_cons,List.cons_append,readChunks,if_neg (by omega),if_neg (by omega),
      ih (bytes ++ chunk) (by rw [List.length_append]; omega),List.flatten_cons,List.append_assoc]

theorem readObjectLimited_object (delivery : Delivery) (bytes : Bytes) (fits : bytes.length ≤ maxBytes)
    (range : maxBytes < sizeRange) :
    readObjectLimited (delivery.object bytes) maxBytes = .ok bytes ∨
      ∃ error, readObjectLimited (delivery.object bytes) maxBytes = .error (.of error) := by
  have size : (delivery.object bytes).sizeBytes = bytes.length := rfl
  rw [readObjectLimited,size,if_neg (by omega),if_neg (by omega)]
  cases broken : delivery.breaks with
  | none =>
    left
    have whole : (delivery.object bytes).stream = (delivery.chunks bytes).map .ok ++ [] := by
      rw [Delivery.object,broken,List.append_nil]
    rw [whole,readChunks_chunks maxBytes [] _ [] (by rw [delivery.complete]; simpa using fits) range,delivery.complete]
    rfl
  | some broken' =>
    obtain ⟨count,error⟩ := broken'
    right
    have cut : (delivery.object bytes).stream = ((delivery.chunks bytes).take count).map .ok ++ [.error error] := by
      rw [Delivery.object,broken]
    have shorter : ((delivery.chunks bytes).take count).flatten.length ≤ maxBytes := by
      have parts := congrArg List.length (delivery.complete bytes)
      rw [← List.take_append_drop count (delivery.chunks bytes),List.flatten_append,List.length_append] at parts
      omega
    refine ⟨error,?_⟩
    rw [cut,readChunks_chunks maxBytes [] _ _ (by simpa using shorter) range]
    rfl

end Reading

def bytesOf (object : Option Bytes) : Bytes := object.getD []

/-- What an append finds out before it writes: the bytes it writes are those of the log and its own, and it runs into
the limit only if they are too many. -/
def Extends (current content : Bytes) : Except StorageError Bytes → Prop
  | .ok bytes => bytes = current ++ content ∧ bytes.length ≤ maxBuildLogBytes
  | .error (.limitExceeded _) => maxBuildLogBytes < current.length + content.length
  | .error _ => True

theorem concatenate_extends (content current : Bytes) : Extends current content (concatenate content current) := by
  unfold concatenate
  split
  · rename_i large
    have range : maxBuildLogBytes < sizeRange := by decide
    rcases large with large | large
    · exact range.trans_le large
    · exact large
  · rename_i fits
    refine ⟨rfl,?_⟩
    rw [List.length_append]
    exact Nat.le_of_not_lt (not_or.mp fits).2

theorem extend_object (delivery : Delivery) (stored : Option Bytes) (content : Bytes) :
    Extends (bytesOf stored) content (extend (stored.map delivery.object) content) := by
  cases stored with
  | none => exact concatenate_extends content []
  | some bytes =>
    have size : (delivery.object bytes).sizeBytes = bytes.length := rfl
    rw [extend,Option.map_some,currentLog,size,bytesOf,Option.getD_some]
    by_cases large : maxBuildLogBytes - content.length < bytes.length
    · rw [if_pos large]
      change maxBuildLogBytes < bytes.length + content.length
      omega
    · rw [if_neg large]
      have range : maxBuildLogBytes - content.length < sizeRange := (Nat.sub_le _ _).trans_lt (by decide)
      rcases readObjectLimited_object _ delivery bytes (Nat.le_of_not_lt large) range with read | ⟨error,read⟩
      · rw [read]
        exact concatenate_extends content bytes
      · rw [read]
        trivial

/-- A call of `append_build_log`. -/
structure Append where
  key : LogKey
  content : Bytes
deriving DecidableEq

abbrev LockId := Nat

/-- `strong` has a lock as often as it is referred to, `held` the locks that are taken. `finished` are the appends
that have come to their result, in that order. -/
structure Shared where
  locks : LogKey → Option LockId := fun _ => none
  strong : Multiset LockId := 0
  held : Multiset LockId := 0
  nextLock : LockId := 0
  maintenance : Bool := false
  objects : LogKey → Option Bytes := fun _ => none
  finished : List (Append × Except StorageError Unit) := []

inductive Handler
  | lookup (call : Append)
  | acquire (call : Append) (lock : LockId)
  | allow (call : Append) (lock : LockId)
  | read (call : Append) (lock : LockId)
  | write (call : Append) (lock : LockId) (bytes : Bytes)
  | unlock (lock : LockId)
  | drop (lock : LockId)

/-- How an action goes: its call may be dropped first, the backend may fail. -/
structure Input where
  cancelled : Bool := false
  fails : Option BackendError := none
  delivery : Delivery := {}

/-- `retain(strong_count > 0)`. -/
def retained (s : Shared) (key : LogKey) : Option LockId := (s.locks key).filter fun lock => 0 < s.strong.count lock

/-- A lock that loses its last reference between the purge and the upgrade might as well have lost it before. -/
def logAppendLock (key : LogKey) (s : Shared) : Shared × LockId :=
  match retained s key with
  | some lock => ({ s with locks := retained s, strong := lock ::ₘ s.strong },lock)
  | none => ({ s with locks := Function.update (retained s) key (some s.nextLock), strong := s.nextLock ::ₘ s.strong,
                      nextLock := s.nextLock + 1 },s.nextLock)

/-- An append has its result; what is left to it is to drop its guard and its lock. -/
def Shared.finish (s : Shared) (call : Append) (lock : LockId) (result : Except StorageError Unit) : Shared × Option Handler :=
  ({ s with finished := s.finished ++ [(call,result)] },some (.unlock lock))

def advance (input : Input) (s : Shared) : Handler → Shared × Option Handler
  | .lookup call =>
    if input.cancelled then (s,none)
    else ((logAppendLock call.key s).1,some (.acquire call (logAppendLock call.key s).2))
  | .acquire call lock =>
    if input.cancelled then (s,some (.drop lock))
    else if lock ∈ s.held then (s,some (.acquire call lock))
    else ({ s with held := lock ::ₘ s.held },some (.allow call lock))
  | .allow call lock =>
    if input.cancelled then (s,some (.unlock lock))
    else if s.maintenance then s.finish call lock (.error .maintenance)
    else if sizeRange ≤ call.content.length then s.finish call lock (.error .unsupportedSize)
    else if maxBuildLogBytes < call.content.length then s.finish call lock (.error (.limitExceeded maxBuildLogBytes))
    else (s,some (.read call lock))
  | .read call lock =>
    if input.cancelled then (s,some (.unlock lock))
    else match input.fails with
      | some error => s.finish call lock (.error (.of error))
      | none =>
        match extend ((s.objects call.key).map input.delivery.object) call.content with
        | .error error => s.finish call lock (.error error)
        | .ok bytes => (s,some (.write call lock bytes))
  | .write call lock bytes =>
    if input.cancelled then (s,some (.unlock lock))
    else match input.fails with
      | some error => s.finish call lock (.error (.of error))
      | none => { s with objects := Function.update s.objects call.key (some bytes) }.finish call lock (.ok ())
  | .unlock lock => ({ s with held := s.held.erase lock },some (.drop lock))
  | .drop lock => ({ s with strong := s.strong.erase lock },none)

def machine : Machine Shared Handler Append Input where
  enter := .lookup
  advance := advance

def Handler.guards : Handler → Multiset LockId
  | .lookup _ | .acquire _ _ | .drop _ => 0
  | .allow _ lock | .read _ lock | .write _ lock _ | .unlock lock => {lock}

def Handler.refers : Handler → Multiset LockId
  | .lookup _ => 0
  | .acquire _ lock | .allow _ lock | .read _ lock | .write _ lock _ | .unlock lock | .drop lock => {lock}

/-- What a handler relies on: its lock is the one the map has for its key, and what it is going to write is the log
and its own content. -/
def Relies (s : Shared) : Handler → Prop
  | .lookup _ | .unlock _ | .drop _ => True
  | .acquire call lock | .allow call lock | .read call lock => s.locks call.key = some lock
  | .write call lock bytes => s.locks call.key = some lock ∧
      bytes = bytesOf (s.objects call.key) ++ call.content ∧ bytes.length ≤ maxBuildLogBytes

/-- What an action does to the logs, the locks and the calls that have finished. -/
inductive Acts (s : Shared) : Handler → Shared → Option Handler → Prop
  | idle (handler : Handler) : Acts s handler s (some handler)
  | never (call : Append) : Acts s (.lookup call) s none
  | lookup (call : Append) : Acts s (.lookup call) (logAppendLock call.key s).1 (some (.acquire call (logAppendLock call.key s).2))
  | leave (call : Append) (lock : LockId) : Acts s (.acquire call lock) s (some (.drop lock))
  | take (call : Append) (lock : LockId) (free : lock ∉ s.held) :
      Acts s (.acquire call lock) { s with held := lock ::ₘ s.held } (some (.allow call lock))
  | allow (call : Append) (lock : LockId) : Acts s (.allow call lock) s (some (.read call lock))
  | read (call : Append) (lock : LockId) (bytes : Bytes) (extends' : Extends (bytesOf (s.objects call.key)) call.content (.ok bytes)) :
      Acts s (.read call lock) s (some (.write call lock bytes))
  | abandon (handler : Handler) (lock : LockId) (guarded : handler.guards = {lock}) (refers : handler.refers = {lock}) :
      Acts s handler s (some (.unlock lock))
  | fail (handler : Handler) (call : Append) (lock : LockId) (error : StorageError) (guarded : handler.guards = {lock})
      (refers : handler.refers = {lock}) (honest : Extends (bytesOf (s.objects call.key)) call.content (.error error)) :
      Acts s handler { s with finished := s.finished ++ [(call,.error error)] } (some (.unlock lock))
  | write (call : Append) (lock : LockId) (bytes : Bytes) :
      Acts s (.write call lock bytes)
        { s with objects := Function.update s.objects call.key (some bytes), finished := s.finished ++ [(call,.ok ())] }
        (some (.unlock lock))
  | unlock (lock : LockId) : Acts s (.unlock lock) { s with held := s.held.erase lock } (some (.drop lock))
  | drop (lock : LockId) : Acts s (.drop lock) { s with strong := s.strong.erase lock } none

theorem advance_acts (input : Input) (s : Shared) (handler : Handler) :
    Acts s handler (advance input s handler).1 (advance input s handler).2 := by
  cases handler with
  | lookup call =>
    rw [advance]
    split
    · exact .never call
    · exact .lookup call
  | acquire call lock =>
    rw [advance]
    split
    · exact .leave call lock
    · split
      · exact .idle _
      · rename_i free
        exact .take call lock free
  | allow call lock =>
    rw [advance]
    split
    · exact .abandon _ lock rfl rfl
    · split
      · exact .fail _ call lock _ rfl rfl trivial
      · split
        · exact .fail _ call lock _ rfl rfl trivial
        · split
          · rename_i large
            exact .fail _ call lock _ rfl rfl (large.trans_le (Nat.le_add_left _ _))
          · exact .allow call lock
  | read call lock =>
    rw [advance]
    split
    · exact .abandon _ lock rfl rfl
    · split
      · exact .fail _ call lock _ rfl rfl trivial
      · have extends' := extend_object input.delivery (s.objects call.key) call.content
        split
        · rename_i error found
          rw [found] at extends'
          exact .fail _ call lock error rfl rfl extends'
        · rename_i bytes found
          rw [found] at extends'
          exact .read call lock bytes extends'
  | write call lock bytes =>
    rw [advance]
    split
    · exact .abandon _ lock rfl rfl
    · split
      · exact .fail _ call lock _ rfl rfl trivial
      · exact .write call lock bytes
  | unlock lock => exact .unlock lock
  | drop lock => exact .drop lock

section Step
variable {s after : Shared} {handler : Handler} {next : Option Handler}

theorem acts_locking (acts : Acts s handler after next) (owned : handler.guards ≤ s.held) :
    Locking s.held handler.guards after.held (rest Handler.guards next) := by
  cases acts with
  | take call lock free => exact .take lock free
  | unlock lock =>
    refine .leave _ ?_
    have member : lock ∈ s.held := Multiset.singleton_le.mp owned
    change s.held.erase lock + {lock} = s.held
    rw [add_comm,Multiset.singleton_add,Multiset.cons_erase member]
  | lookup call =>
    have same : (logAppendLock call.key s).1.held = s.held := by
      unfold logAppendLock
      split <;> rfl
    rw [same]
    exact .keep
  | abandon handler lock guarded refers =>
    rw [guarded]
    exact .keep
  | fail handler call lock error guarded refers honest =>
    rw [guarded]
    exact .keep
  | _ => exact .keep

theorem acts_strong (acts : Acts s handler after next) (counted : handler.refers ≤ s.strong) :
    after.strong + handler.refers = s.strong + rest Handler.refers next := by
  cases acts with
  | lookup call =>
    have new : (logAppendLock call.key s).1.strong = (logAppendLock call.key s).2 ::ₘ s.strong := by
      unfold logAppendLock
      split <;> rfl
    rw [new,← Multiset.singleton_add,add_comm _ s.strong]
    exact add_zero _
  | drop lock =>
    have member : lock ∈ s.strong := Multiset.singleton_le.mp counted
    change s.strong.erase lock + {lock} = s.strong + 0
    rw [add_comm,Multiset.singleton_add,Multiset.cons_erase member,add_zero]
  | abandon handler lock guarded refers =>
    rw [refers]
    rfl
  | fail handler call lock error guarded refers honest =>
    rw [refers]
    rfl
  | _ => rfl

theorem retained_of_referred {key : LogKey} {lock : LockId} (found : s.locks key = some lock) (alive : lock ∈ s.strong) :
    retained s key = some lock := by
  rw [retained,found]
  exact Option.filter_eq_some_iff.mpr ⟨rfl,decide_eq_true (Multiset.count_pos.mpr alive)⟩

theorem logAppendLock_keeps (looked : LogKey) {key : LogKey} {lock : LockId} (found : s.locks key = some lock)
    (alive : lock ∈ s.strong) : (logAppendLock looked s).1.locks key = some lock := by
  have kept := retained_of_referred found alive
  unfold logAppendLock
  split
  · exact kept
  · rename_i none'
    have other : key ≠ looked := by
      rintro rfl
      rw [kept] at none'
      cases none'
    exact (Function.update_of_ne other _ _).trans kept

theorem logAppendLock_finds (key : LogKey) : (logAppendLock key s).1.locks key = some (logAppendLock key s).2 := by
  unfold logAppendLock
  split
  · assumption
  · exact Function.update_self _ _ _

theorem logAppendLock_objects (key : LogKey) :
    (logAppendLock key s).1.objects = s.objects ∧ (logAppendLock key s).1.finished = s.finished := by
  unfold logAppendLock
  split
  · exact ⟨rfl,rfl⟩
  · exact ⟨rfl,rfl⟩

theorem relies_next (acts : Acts s handler after next) (relies : Relies s handler) :
    ∀ handler', next = some handler' → Relies after handler' := by
  intro handler' goes
  cases acts with
  | idle handler =>
    cases goes
    exact relies
  | never call => cases goes
  | lookup call =>
    cases goes
    exact logAppendLock_finds call.key
  | read call lock bytes extends' =>
    cases goes
    exact ⟨relies,extends'⟩
  | take call lock free =>
    cases goes
    exact relies
  | allow call lock =>
    cases goes
    exact relies
  | drop lock => cases goes
  | _ =>
    cases goes
    trivial

theorem Relies.apart {other : Handler} (acts : Acts s handler after next) (relies : Relies s handler)
    (distinct : Disjoint handler.guards other.guards) (counted : other.refers ≤ s.strong) (relied : Relies s other) :
    Relies after other := by
  cases acts with
  | lookup call =>
    have keeps (key : LogKey) (lock : LockId) (alive : {lock} ≤ s.strong) (found : s.locks key = some lock) :
        (logAppendLock call.key s).1.locks key = some lock :=
      logAppendLock_keeps call.key found (Multiset.singleton_le.mp alive)
    cases other with
    | lookup _ => trivial
    | unlock _ => trivial
    | drop _ => trivial
    | write call' lock bytes =>
      obtain ⟨found,writes⟩ := relied
      refine ⟨keeps _ _ counted found,?_⟩
      rw [(logAppendLock_objects call.key).1]
      exact writes
    | _ => exact keeps _ _ counted relied
  | write call lock bytes =>
    cases other with
    | write call' lock' bytes' =>
      have different : call'.key ≠ call.key := by
        intro same
        have shared : lock' = lock := by
          have found := relied.1
          rw [same,relies.1] at found
          exact (Option.some.inj found).symm
        subst shared
        exact Multiset.disjoint_left.mp distinct (Multiset.mem_singleton_self _) (Multiset.mem_singleton_self _)
      have untouched : Function.update s.objects call.key (some bytes) call'.key = s.objects call'.key :=
        Function.update_of_ne different _ _
      refine ⟨relied.1,?_⟩
      dsimp only
      rw [untouched]
      exact relied.2
    | _ => exact relied
  | _ => cases other <;> exact relied

end Step

def successful : Except StorageError Unit → Bool
  | .ok _ => true
  | .error _ => false

/-- What the successful appends to a log have added, in the order in which they came to their result. -/
def appended (key : LogKey) (finished : List (Append × Except StorageError Unit)) : Bytes :=
  finished.flatMap fun (call,result) => if call.key = key ∧ successful result then call.content else []

/-- Every log is what it was at first and what the successful appends have added, and within the limit. -/
def Whole (objects : LogKey → Option Bytes) (s : Shared) : Prop :=
  ∀ key, bytesOf (s.objects key) = bytesOf (objects key) ++ appended key s.finished ∧
    (bytesOf (s.objects key)).length ≤ maxBuildLogBytes

/-- A step on which at most one append comes to its result. The logs change with a success alone, by its content at the
end of its own log, and an append is turned away for the limit only if its log would exceed it. -/
inductive Lossless (before after : Shared) : Prop
  | quiet (objects : after.objects = before.objects) (finished : after.finished = before.finished)
  | appends (call : Append) (finished : after.finished = before.finished ++ [(call,.ok ())])
      (log : bytesOf (after.objects call.key) = bytesOf (before.objects call.key) ++ call.content)
      (others : ∀ key, key ≠ call.key → after.objects key = before.objects key)
  | fails (call : Append) (error : StorageError) (finished : after.finished = before.finished ++ [(call,.error error)])
      (objects : after.objects = before.objects)
      (limit : ∀ maxBytes, error = .limitExceeded maxBytes →
        maxBuildLogBytes < (bytesOf (before.objects call.key)).length + call.content.length)

section Step
variable {s after : Shared} {handler : Handler} {next : Option Handler}

theorem acts_lossless (acts : Acts s handler after next) (relies : Relies s handler) : Lossless s after := by
  cases acts with
  | lookup call => exact .quiet (logAppendLock_objects call.key).1 (logAppendLock_objects call.key).2
  | write call lock bytes =>
    refine .appends call rfl ?_ fun key other => Function.update_of_ne other _ _
    change bytesOf (Function.update s.objects call.key (some bytes) call.key) = _
    rw [Function.update_self]
    exact relies.2.1
  | fail handler call lock error guarded refers honest =>
    refine .fails call error rfl rfl ?_
    rintro maxBytes rfl
    exact honest
  | _ => exact .quiet rfl rfl

theorem appended_append (key : LogKey) (finished : List (Append × Except StorageError Unit)) (call : Append)
    (result : Except StorageError Unit) :
    appended key (finished ++ [(call,result)]) =
      appended key finished ++ if call.key = key ∧ successful result then call.content else [] := by
  rw [appended,List.flatMap_append,List.flatMap_singleton]
  rfl

theorem acts_whole {objects : LogKey → Option Bytes} (acts : Acts s handler after next) (relies : Relies s handler)
    (whole : Whole objects s) : Whole objects after := by
  intro key
  obtain ⟨log,fits⟩ := whole key
  cases acts with
  | lookup call =>
    rw [(logAppendLock_objects call.key).1,(logAppendLock_objects call.key).2]
    exact ⟨log,fits⟩
  | fail handler call lock error guarded refers honest =>
    refine ⟨?_,fits⟩
    rw [appended_append,if_neg (by simp [successful]),List.append_nil]
    exact log
  | write call lock bytes =>
    by_cases same : call.key = key
    · subst same
      obtain ⟨_,written,within⟩ := relies
      change bytesOf (Function.update s.objects call.key (some bytes) call.key) = _ ∧
        (bytesOf (Function.update s.objects call.key (some bytes) call.key)).length ≤ _
      rw [Function.update_self,appended_append,if_pos ⟨rfl,rfl⟩,← List.append_assoc,← log]
      exact ⟨written,within⟩
    · change bytesOf (Function.update s.objects call.key (some bytes) key) = _ ∧
        (bytesOf (Function.update s.objects call.key (some bytes) key)).length ≤ _
      rw [Function.update_of_ne (Ne.symm same),appended_append,if_neg (fun both => same both.1),List.append_nil]
      exact ⟨log,fits⟩
  | _ => exact ⟨log,fits⟩

end Step

structure Kept (objects : LogKey → Option Bytes) (config : Config Shared Handler) : Prop where
  holds : Holds (Whole objects) Relies config
  guarded : Guarded Handler.guards Shared.held config
  counted : owed Handler.refers config = config.shared.strong

theorem Kept.refers_le {objects : LogKey → Option Bytes} {config : Config Shared Handler} (kept : Kept objects config)
    {handler : Handler} (member : handler ∈ config.inflight) : handler.refers ≤ config.shared.strong := by
  rw [← kept.counted]
  exact List.le_sum_of_mem (List.mem_map_of_mem member)

theorem Kept.step {objects : LogKey → Option Bytes} {config : Config Shared Handler} (kept : Kept objects config)
    (event : Event Append Input) : Kept objects (machine.step config event) := by
  refine ⟨?_,?_,?_⟩
  · have apart : ActingApart (fun (_ : Input) _ _ => True)
        (fun _ s handler other => Disjoint handler.guards other.guards ∧ other.refers ≤ s.strong) config event := by
      have distinct := kept.guarded.acting_apart event (acting_true config event)
      cases event with
      | arrive request => trivial
      | resume index input =>
        intro handler found
        exact ⟨trivial,fun other member =>
          ⟨((distinct handler found).2 other member).2,kept.refers_le (List.mem_of_mem_eraseIdx member)⟩⟩
    refine Holds.step_apart ?_ ?_ ?_ config event kept.holds apart
    · exact fun _ _ _ => trivial
    · intro input s handler _ whole relies
      have acts := advance_acts input s handler
      exact ⟨acts_whole acts relies whole,relies_next acts relies⟩
    · intro input s handler other _ distinct _ relies relied
      exact Relies.apart (advance_acts input s handler) relies distinct.1 distinct.2 relied
  · refine kept.guarded.step_locking (fun _ => rfl) ?_ event
    exact fun input s handler owned => acts_locking (advance_acts input s handler) owned
  · cases event with
    | arrive request =>
      rw [owed_arrive]
      exact (add_zero _).trans kept.counted
    | resume index input =>
      cases found : config.inflight[index]? with
      | none => simpa only [Machine.step,found] using kept.counted
      | some handler =>
        exact balanced_resume machine Handler.refers Shared.strong input found kept.counted
          (acts_strong (advance_acts input config.shared handler) (kept.refers_le (List.mem_of_getElem? found)))

def idle (objects : LogKey → Option Bytes) : Config Shared Handler := ⟨{ objects },[]⟩

def together : List (Event Append Input) :=
  [.arrive ⟨⟨1,2⟩,[65]⟩,.arrive ⟨⟨1,2⟩,[66]⟩,.resume 0 {},.resume 0 {},.resume 1 {},.resume 1 {},.resume 0 {},.resume 0 {},
    .resume 0 {},.resume 0 {},.resume 1 {},.resume 0 {},.resume 0 {},.resume 0 {},.resume 0 {},.resume 0 {},.resume 0 {}]

example : bytesOf ((run machine.step (idle fun _ => none) together).shared.objects ⟨1,2⟩) = [65,66] := by decide

end GrassWorker.BuildLogs
