import GrassWorker.Foundations.CharBoundaries
import GrassWorker.Foundations.Fairness
import GrassWorker.Foundations.Mutexes
import Mathlib.Algebra.GroupWithZero.Nat

/-! The log collector of a build: concurrent calls that cut their lines into pieces, charge them to one budget, wait for
room in the queue and number what they send. -/
namespace GrassWorker.LogCollector
open Interleaving Runs Utf8

abbrev Bytes := List UInt8

def maxLineBytes : Nat := 16 * 1024

inductive LogError
  | budget
  | consumer
deriving DecidableEq

structure BuildLogLine where
  seq : Nat
  stage : List Char
  line : Bytes
  timestampMs : Int
deriving DecidableEq

/-- A call of `log`. -/
structure Call where
  stage : List Char
  line : List Char
deriving DecidableEq

structure Logged where
  call : Call
  lines : List BuildLogLine := []
  result : Option (Except LogError Unit) := none

/-- The state of the collector, and everything that was sent to the queue. The mutex is taken by `holder`; the calls
that have let go of it are in `calls`, in the order in which they had it. -/
structure Shared where
  seq : Nat := 0
  remaining : Nat
  queue : List BuildLogLine := []
  holder : Option Logged := none
  calls : List Logged := []

inductive Handler
  | locking (call : Call)
  /-- It has room for `remaining` bytes after this chunk, and waits for the queue. -/
  | reserving (call : Call) (chunk rest : Bytes) (remaining : Nat)
deriving DecidableEq

/-- What `timeout(IO_TIMEOUT, sender.reserve())` has come to. -/
inductive Reservation
  | pending
  | permit
  | closed
  | elapsed
deriving DecidableEq

structure Input where
  reservation : Reservation
  now : Int := 0
deriving DecidableEq

def Shared.finish (s : Shared) (result : Except LogError Unit) : Shared :=
  { s with holder := none, calls := s.calls ++ (s.holder.map fun logged => { logged with result := some result }).toList }

def chunkLength (text : Bytes) : Nat := floorBoundary text (min text.length maxLineBytes)

def cost (chunk : Bytes) (stage : List Char) : Nat := chunk.length + (encode stage).length + 64

def charge (s : Shared) (call : Call) (text : Bytes) : Shared × Option Handler :=
  if s.remaining < cost (text.take (chunkLength text)) call.stage then (s.finish (.error .budget),none)
  else (s,some (.reserving call (text.take (chunkLength text)) (text.drop (chunkLength text))
    (s.remaining - cost (text.take (chunkLength text)) call.stage)))

def Shared.send (s : Shared) (call : Call) (chunk : Bytes) (remaining : Nat) (now : Int) : Shared :=
  let entry : BuildLogLine := ⟨s.seq + 1,call.stage,chunk,now⟩
  { s with
    seq := s.seq + 1
    remaining := remaining
    queue := s.queue ++ [entry]
    holder := s.holder.map fun logged => { logged with lines := logged.lines ++ [entry] } }

def advance (input : Input) (s : Shared) : Handler → Shared × Option Handler
  | .locking call =>
    if s.holder.isSome then (s,some (.locking call))
    else charge { s with holder := some { call } } call (encode call.line)
  | .reserving call chunk rest remaining =>
    match input.reservation with
    | .pending => (s,some (.reserving call chunk rest remaining))
    | .closed | .elapsed => (s.finish (.error .consumer),none)
    | .permit =>
      if rest = [] then ((s.send call chunk remaining input.now).finish (.ok ()),none)
      else charge (s.send call chunk remaining input.now) call rest

def machine : Machine Shared Handler Call Input where
  enter := .locking
  advance := advance

/-- What a call has sent are pieces of its line, in order, and all of it if the call succeeded. -/
structure Logged.Sound (logged : Logged) : Prop where
  stage : ∀ line ∈ logged.lines, line.stage = logged.call.stage
  short : ∀ line ∈ logged.lines, line.line.length ≤ maxLineBytes
  pieces : ∃ (pieces : List (List Char)) (rest : List Char), logged.lines.map BuildLogLine.line = pieces.map encode ∧
    pieces.flatten ++ rest = logged.call.line ∧ (logged.result = some (.ok ()) → rest = [])

/-- The lines in the queue are those of one call after the other, numbered from 1, and each was taken from the budget. -/
structure Collected (budget : Nat) (s : Shared) : Prop where
  contiguous : s.queue = s.calls.flatMap Logged.lines ++ s.holder.elim [] Logged.lines
  counted : s.seq = s.queue.length
  numbered : s.queue.map BuildLogLine.seq = List.range' 1 s.queue.length
  charged : (s.queue.map fun line => cost line.line line.stage).sum + s.remaining = budget
  sound : ∀ logged ∈ s.calls ++ s.holder.toList, logged.Sound

structure Logged.Left (logged : Logged) (text : List Char) : Prop where
  running : logged.result = none
  pieces : ∃ pieces : List (List Char), logged.lines.map BuildLogLine.line = pieces.map encode ∧
    pieces.flatten ++ text = logged.call.line

def Working (s : Shared) (call : Call) (text : Bytes) : Prop :=
  ∃ logged left, s.holder = some logged ∧ logged.call = call ∧ logged.Left left ∧ text = encode left

def Relies (s : Shared) : Handler → Prop
  | .locking _ => True
  | .reserving call chunk rest remaining => chunk.length ≤ maxLineBytes ∧ remaining + cost chunk call.stage = s.remaining ∧
      ∃ logged front back, s.holder = some logged ∧ logged.call = call ∧ logged.Left (front ++ back) ∧
        chunk = encode front ∧ rest = encode back

section Charge
variable {s : Shared} {call : Call} {text : Bytes}

theorem chunkLength_le (text : Bytes) : chunkLength text ≤ maxLineBytes :=
  (floorBoundary_le text _).trans (Nat.min_le_right _ _)

theorem chunkLength_pos {left : List Char} (some' : left ≠ []) : 0 < chunkLength (encode left) := by
  obtain ⟨c,rest,rfl⟩ := List.exists_cons_of_ne_nil some'
  have width := length_utf8EncodeChar_le (c := c)
  have size := length_encode_cons c rest
  have within : (String.utf8EncodeChar c).length ≤ min (encode (c :: rest)).length maxLineBytes := by
    refine Nat.le_min.mpr ⟨?_,width.trans (by decide)⟩
    omega
  exact length_utf8EncodeChar_pos.trans_le (le_floorBoundary _ (isCharBoundary_first c rest) within)

inductive Charges (s : Shared) (call : Call) (text : Bytes) : Shared × Option Handler → Prop
  | exceeded : Charges s call text (s.finish (.error .budget),none)
  | reserves (chunk rest : Bytes) (remaining : Nat) (relies : Relies s (.reserving call chunk rest remaining))
      (shorter : rest.length ≤ text.length) (strictly : text ≠ [] → rest.length < text.length) :
      Charges s call text (s,some (.reserving call chunk rest remaining))

theorem charge_charges (working : Working s call text) : Charges s call text (charge s call text) := by
  obtain ⟨logged,left,holds,same,unsent,rfl⟩ := working
  unfold charge
  split
  · exact .exceeded
  · rename_i affordable
    obtain ⟨front,back,whole,taken,dropped⟩ := encode_cut (floorBoundary_boundary (encode left) _)
    change encode front = (encode left).take (chunkLength (encode left)) at taken
    change encode back = (encode left).drop (chunkLength (encode left)) at dropped
    refine .reserves _ _ _ ⟨?_,?_,logged,front,back,holds,same,?_,taken.symm,dropped.symm⟩ ?_ ?_
    · rw [List.length_take]
      exact (Nat.min_le_left _ _).trans (chunkLength_le _)
    · exact Nat.sub_add_cancel (Nat.le_of_not_lt affordable)
    · rw [whole]
      exact unsent
    · rw [List.length_drop]
      exact Nat.sub_le _ _
    · intro nonempty
      have some' : left ≠ [] := by
        rintro rfl
        exact nonempty rfl
      have positive := chunkLength_pos some'
      have size : 0 < (encode left).length := List.length_pos_of_ne_nil nonempty
      rw [List.length_drop]
      omega

end Charge

section Shared
variable {s : Shared} {call : Call} {budget : Nat}

theorem Collected.send {chunk rest : Bytes} {remaining : Nat} (collected : Collected budget s)
    (relies : Relies s (.reserving call chunk rest remaining)) (now : Int) :
    Collected budget (s.send call chunk remaining now) ∧ Working (s.send call chunk remaining now) call rest := by
  obtain ⟨short,charges,logged,front,back,holds,rfl,⟨running,pieces,sent,whole⟩,rfl,rfl⟩ := relies
  have line := collected.sound logged (by rw [holds]; exact List.mem_append_right _ List.mem_cons_self)
  let entry : BuildLogLine := ⟨s.seq + 1,logged.call.stage,encode front,now⟩
  let after : Logged := { logged with lines := logged.lines ++ [entry] }
  have holdsNow : (s.send logged.call (encode front) remaining now).holder = some after := by
    rw [Shared.send,holds]
    rfl
  have sentNow : after.lines.map BuildLogLine.line = (pieces ++ [front]).map encode := by
    rw [List.map_append,List.map_append,sent]
    rfl
  have wholeNow : (pieces ++ [front]).flatten ++ back = logged.call.line := by
    rw [List.flatten_append,List.flatten_singleton,List.append_assoc]
    exact whole
  refine ⟨⟨?_,?_,?_,?_,?_⟩,after,back,holdsNow,rfl,⟨running,_,sentNow,wholeNow⟩,rfl⟩
  · have before := collected.contiguous
    rw [holds] at before
    rw [holdsNow]
    change s.queue ++ [entry] = s.calls.flatMap Logged.lines ++ (logged.lines ++ [entry])
    rw [before]
    exact List.append_assoc _ _ _
  · change s.seq + 1 = (s.queue ++ [entry]).length
    rw [List.length_append,collected.counted]
    rfl
  · change (s.queue ++ [entry]).map BuildLogLine.seq = List.range' 1 (s.queue ++ [entry]).length
    rw [List.map_append,collected.numbered,List.length_append,List.length_singleton,List.range'_concat,Nat.one_mul,Nat.add_comm 1,
      ← collected.counted]
    rfl
  · change ((s.queue ++ [entry]).map fun line => cost line.line line.stage).sum + remaining = budget
    rw [List.map_append,List.sum_append,List.map_singleton,List.sum_singleton,Nat.add_assoc,Nat.add_comm _ remaining,charges]
    exact collected.charged
  · intro other member
    rw [holdsNow] at member
    rcases List.mem_append.mp member with earlier | now'
    · exact collected.sound other (List.mem_append_left _ earlier)
    · obtain rfl := List.mem_singleton.mp now'
      refine ⟨?_,?_,pieces ++ [front],back,sentNow,wholeNow,?_⟩
      · intro entry added
        rcases List.mem_append.mp added with old | new
        · exact line.stage entry old
        · rw [List.mem_singleton.mp new]
      · intro entry added
        rcases List.mem_append.mp added with old | new
        · exact line.short entry old
        · rw [List.mem_singleton.mp new]
          exact short
      · intro succeeded
        rw [running] at succeeded
        cases succeeded

theorem Collected.finish {text : Bytes} (collected : Collected budget s) (working : Working s call text)
    (result : Except LogError Unit) (complete : result = .ok () → text = []) : Collected budget (s.finish result) := by
  obtain ⟨logged,left,holds,rfl,⟨_,pieces,sent,whole⟩,rfl⟩ := working
  have line := collected.sound logged (by rw [holds]; exact List.mem_append_right _ List.mem_cons_self)
  refine ⟨?_,collected.counted,collected.numbered,collected.charged,?_⟩
  · have before := collected.contiguous
    rw [holds] at before
    rw [Shared.finish,holds]
    change s.queue = (s.calls ++ [_]).flatMap _ ++ []
    rw [List.flatMap_append,List.flatMap_singleton,List.append_nil]
    exact before
  · intro other member
    rw [Shared.finish,holds] at member
    change other ∈ (s.calls ++ [_]) ++ [] at member
    rw [List.append_nil] at member
    rcases List.mem_append.mp member with earlier | now
    · exact collected.sound other (List.mem_append_left _ earlier)
    · obtain rfl := List.mem_singleton.mp now
      refine ⟨line.stage,line.short,pieces,left,sent,whole,?_⟩
      intro succeeded
      have nothing := complete (Option.some.inj succeeded)
      by_contra some'
      have positive := chunkLength_pos some'
      rw [nothing] at positive
      exact Nat.lt_irrefl 0 positive

theorem Collected.take (collected : Collected budget s) (call : Call) (free : s.holder = none) :
    Collected budget { s with holder := some { call } } ∧ Working { s with holder := some { call } } call (encode call.line) := by
  refine ⟨⟨?_,collected.counted,collected.numbered,collected.charged,?_⟩,
    ⟨_,call.line,rfl,rfl,⟨rfl,[],rfl,List.nil_append _⟩,rfl⟩⟩
  · have before := collected.contiguous
    rw [free] at before
    exact before
  · intro other member
    rcases List.mem_append.mp member with earlier | now
    · exact collected.sound other (List.mem_append_left _ earlier)
    · obtain rfl := List.mem_singleton.mp now
      refine ⟨?_,?_,[],call.line,rfl,List.nil_append _,?_⟩
      · intro _ sent
        cases sent
      · intro _ sent
        cases sent
      · intro succeeded
        cases succeeded

end Shared

def Handler.guards : Handler → Multiset Unit
  | .locking _ => 0
  | .reserving _ _ _ _ => {()}

def Shared.held (s : Shared) : Multiset Unit := s.holder.elim 0 fun _ => {()}

def Handler.effort : Handler → Nat
  | .locking call => (encode call.line).length + 2
  | .reserving _ _ rest _ => rest.length + 1

/-- What an action does. It waits for the mutex or the queue, or it goes on with the mutex, or it returns. -/
inductive Acts (budget : Nat) (input : Input) (s : Shared) (handler : Handler) : Shared → Option Handler → Prop
  | waits (blocked : handler.guards = 0 ∧ s.holder.isSome ∨ input.reservation = .pending) :
      Acts budget input s handler s (some handler)
  | goes (after : Shared) (next : Handler) (exclusive : s.holder = none ∨ handler.guards = {()}) (collected : Collected budget after)
      (relies : Relies after next) (guarded : next.guards = {()}) (held : after.holder.isSome)
      (less : next.effort < handler.effort) : Acts budget input s handler after (some next)
  | returns (after : Shared) (exclusive : s.holder = none ∨ handler.guards = {()}) (collected : Collected budget after)
      (free : after.holder = none) : Acts budget input s handler after none

section Step
variable {budget : Nat} {input : Input} {s after : Shared} {handler : Handler} {next : Option Handler}

theorem charge_acts {call : Call} {text : Bytes} {before : Shared} (exclusive : before.holder = none ∨ handler.guards = {()})
    (collected : Collected budget s) (working : Working s call text)
    (enough : ∀ rest : Bytes, rest.length ≤ text.length → (text ≠ [] → rest.length < text.length) → rest.length + 1 < handler.effort) :
    Acts budget input before handler (charge s call text).1 (charge s call text).2 := by
  have charges := charge_charges working
  generalize charge s call text = charged at charges
  cases charges with
  | exceeded =>
    have failed : Collected budget (s.finish (.error .budget)) := by
      apply collected.finish working
      rintro ⟨⟩
    exact .returns _ exclusive failed rfl
  | reserves chunk rest remaining relies shorter strictly =>
    have held : s.holder.isSome := by
      obtain ⟨_,_,logged,_,_,holds,_⟩ := relies
      rw [holds]
      rfl
    exact .goes _ _ exclusive collected relies rfl held (enough rest shorter strictly)

theorem advance_acts (input : Input) (collected : Collected budget s) (relies : Relies s handler) :
    Acts budget input s handler (advance input s handler).1 (advance input s handler).2 := by
  cases handler with
  | locking call =>
    rw [advance]
    split
    · rename_i taken
      exact .waits (.inl ⟨rfl,taken⟩)
    · rename_i free
      have free := Option.not_isSome_iff_eq_none.mp free
      obtain ⟨collects,working⟩ := collected.take call free
      refine charge_acts (.inl free) collects working fun rest shorter _ => ?_
      exact Nat.succ_lt_succ (Nat.lt_succ_of_le shorter)
  | reserving call chunk rest remaining =>
    have sending : ∃ text, Working s call text := by
      obtain ⟨_,_,logged,front,back,holds,same,left,_⟩ := relies
      exact ⟨_,logged,_,holds,same,left,rfl⟩
    obtain ⟨text,working⟩ := sending
    have failed : Collected budget (s.finish (.error .consumer)) := by
      apply collected.finish working
      rintro ⟨⟩
    obtain ⟨collects,working⟩ := collected.send relies input.now
    rw [advance]
    split
    · rename_i pending
      exact .waits (.inr pending)
    · exact .returns _ (.inr rfl) failed rfl
    · exact .returns _ (.inr rfl) failed rfl
    · split
      · rename_i sent
        exact .returns _ (.inr rfl) (collects.finish working (.ok ()) fun _ => sent) rfl
      · rename_i more
        refine charge_acts (.inr rfl) collects working fun rest' _ strictly => ?_
        exact Nat.succ_lt_succ (strictly more)

theorem held_of_isSome (taken : s.holder.isSome) : s.held = {()} := by
  obtain ⟨logged,holds⟩ := Option.isSome_iff_exists.mp taken
  rw [Shared.held,holds]
  rfl

theorem held_of_none (free : s.holder = none) : s.held = 0 := by
  rw [Shared.held,free]
  rfl

theorem acts_locking (acts : Acts budget input s handler after next) (owned : handler.guards ≤ s.held) :
    Locking s.held handler.guards after.held (rest Handler.guards next) := by
  have cases' (exclusive : s.holder = none ∨ handler.guards = {()}) :
      s.held = 0 ∧ handler.guards = 0 ∨ s.held = {()} ∧ handler.guards = {()} := by
    rcases exclusive with free | guarded
    · left
      have nothing := held_of_none free
      rw [nothing] at owned
      exact ⟨nothing,Multiset.le_zero.mp owned⟩
    · right
      refine ⟨?_,guarded⟩
      cases holds : s.holder with
      | none =>
        rw [guarded,held_of_none holds] at owned
        exact absurd (Multiset.le_zero.mp owned) (Multiset.singleton_ne_zero ())
      | some logged => exact held_of_isSome (by rw [holds]; rfl)
  cases acts with
  | waits blocked => exact .keep
  | goes after next exclusive collected relies guarded held less =>
    rw [rest_some,guarded,held_of_isSome held]
    rcases cases' exclusive with ⟨nothing,none'⟩ | ⟨taken,mine⟩
    · rw [nothing,none']
      exact .take () (Multiset.notMem_zero ())
    · rw [taken,mine]
      exact .keep
  | returns after exclusive collected free =>
    rw [rest_none,held_of_none free]
    rcases cases' exclusive with ⟨nothing,none'⟩ | ⟨taken,mine⟩
    · rw [nothing,none']
      exact .keep
    · rw [taken,mine]
      exact .leave 0 (zero_add _)

theorem Relies.apart {other : Handler} (acts : Acts budget input s handler after next)
    (distinct : Disjoint handler.guards other.guards) (relied : Relies s other) : Relies after other := by
  cases other with
  | locking call => trivial
  | reserving call chunk rest remaining =>
    have idle : ¬(s.holder = none ∨ handler.guards = {()}) := by
      rintro (free | guarded)
      · obtain ⟨_,_,logged,_,_,holds,_⟩ := relied
        rw [free] at holds
        cases holds
      · rw [guarded] at distinct
        exact Multiset.disjoint_left.mp distinct (Multiset.mem_singleton_self ()) (Multiset.mem_singleton_self ())
    cases acts with
    | waits blocked => exact relied
    | goes after next exclusive => exact absurd exclusive idle
    | returns after exclusive => exact absurd exclusive idle

end Step

structure Kept (budget : Nat) (config : Config Shared Handler) : Prop where
  holds : Holds (Collected budget) Relies config
  guarded : Guarded Handler.guards Shared.held config

section Kept
variable {budget : Nat} {config : Config Shared Handler}

theorem Kept.acts (kept : Kept budget config) {index : Nat} {handler : Handler}
    (found : config.inflight[index]? = some handler) (input : Input) :
    Acts budget input config.shared handler (advance input config.shared handler).1 (advance input config.shared handler).2 :=
  advance_acts input kept.holds.state (kept.holds.handlers handler (List.mem_of_getElem? found))

theorem Kept.step (kept : Kept budget config) (event : Event Call Input) : Kept budget (machine.step config event) := by
  refine ⟨?_,?_⟩
  · refine Holds.step_apart ?_ ?_ ?_ config event kept.holds (kept.guarded.acting_apart event (acting_true config event))
    · exact fun _ _ _ => trivial
    · intro input s handler _ collected relies
      have acts := advance_acts input collected relies
      change Collected budget (advance input s handler).1 ∧
        ∀ rest, (advance input s handler).2 = some rest → Relies (advance input s handler).1 rest
      generalize (advance input s handler).1 = after at acts ⊢
      generalize (advance input s handler).2 = next at acts ⊢
      cases acts with
      | waits blocked =>
        refine ⟨collected,fun rest same => ?_⟩
        cases same
        exact relies
      | goes after next exclusive collects reliesNext =>
        refine ⟨collects,fun rest same => ?_⟩
        cases same
        exact reliesNext
      | returns after exclusive collects =>
        refine ⟨collects,fun rest same => ?_⟩
        cases same
    · intro input s handler other _ apart collected relies relied
      exact Relies.apart (advance_acts input collected relies) apart.2 relied
  · cases event with
    | arrive call => exact kept.guarded.arrive rfl
    | resume index input =>
      cases found : config.inflight[index]? with
      | none => simpa only [Machine.step,found] using kept.guarded
      | some handler =>
        have action := acts_locking (kept.acts found input) (kept.guarded.le_locked (List.mem_of_getElem? found))
        exact kept.guarded.resume input found action.balanced (action.nodup kept.guarded.once)

theorem Kept.spends (kept : Kept budget config) : Spends machine Handler.effort config := by
  intro index input handler found
  have acts := kept.acts found input
  change advance input config.shared handler = _ ∨ rest Handler.effort (advance input config.shared handler).2 < _
  generalize advance input config.shared handler = result at acts ⊢
  obtain ⟨after,next⟩ := result
  cases acts with
  | waits blocked => exact .inl rfl
  | goes after next exclusive collected relies guarded held less => exact .inr less
  | returns after exclusive collected free =>
    right
    cases handler <;> exact Nat.succ_pos _

def Settled (input : Input) : Prop := input.reservation ≠ .pending

theorem Kept.goes (kept : Kept budget config) : Goes machine Handler.effort Settled config := by
  intro calls
  have free : ∃ (index : Nat) (handler : Handler), config.inflight[index]? = some handler ∧
      ¬(handler.guards = 0 ∧ config.shared.holder.isSome) := by
    cases holds : config.shared.holder with
    | none =>
      obtain ⟨handler,others,flight⟩ := List.exists_cons_of_ne_nil calls
      refine ⟨0,handler,by rw [flight]; rfl,?_⟩
      rintro ⟨_,⟨⟩⟩
    | some logged =>
      have member : () ∈ owed Handler.guards config := by
        rw [kept.guarded.held,held_of_isSome (by rw [holds]; rfl)]
        exact Multiset.mem_singleton_self ()
      obtain ⟨handler,inflight,guards⟩ := (mem_owed Handler.guards config ()).mp member
      obtain ⟨index,found⟩ := List.mem_iff_getElem?.mp inflight
      refine ⟨index,handler,found,?_⟩
      rintro ⟨nothing,_⟩
      rw [nothing] at guards
      exact Multiset.notMem_zero () guards
  obtain ⟨index,handler,found,unblocked⟩ := free
  refine ⟨index,handler,found,fun input settled => ?_⟩
  have acts := kept.acts found input
  change rest Handler.effort (advance input config.shared handler).2 < _
  generalize advance input config.shared handler = result at acts ⊢
  obtain ⟨after,next⟩ := result
  cases acts with
  | waits blocked => exact absurd blocked (not_or.mpr ⟨unblocked,settled⟩)
  | goes after next exclusive collected relies guarded held less => exact less
  | returns after exclusive collected free => cases handler <;> exact Nat.succ_pos _

end Kept

def idle (budget : Nat) : Config Shared Handler := ⟨{ remaining := budget },[]⟩

theorem kept_idle (budget : Nat) : Kept budget (idle budget) := by
  refine ⟨⟨⟨rfl,rfl,rfl,Nat.zero_add _,?_⟩,?_⟩,rfl,Multiset.nodup_zero⟩
  · intro _ member
    cases member
  · intro _ member
    cases member

end GrassWorker.LogCollector
