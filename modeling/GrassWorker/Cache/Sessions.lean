import GrassWorker.Cache.Moka
import GrassWorker.Entity
import GrassWorker.Foundations.Interleaving

/-! Sessions in the cache. To validate one is three actions that others may come
between: the read, the decision at some time, and the conditional write or deletion. -/
namespace GrassWorker.Sessions
open CacheBackend MokaBackend Interleaving Runs

abbrev Nanoseconds := Int

def nanosecondsPerSecond : Int := 1000000000

def wholeSeconds (duration : Nanoseconds) : Seconds := duration.tdiv nanosecondsPerSecond

def unixTimestamp (now : Nanoseconds) : Seconds := now / nanosecondsPerSecond

structure SessionData where
  userId : Uuid
  authVersion : Int := 0
  createdAt : Nanoseconds
  lastAccessedAt : Nanoseconds
deriving DecidableEq

structure Codec where
  serialize : SessionData → Text
  parse : Text → Option SessionData

def Codec.Faithful (codec : Codec) : Prop := ∀ data, codec.parse (codec.serialize data) = some data

abbrev SessionId := String

def sessionKey (sessionId : SessionId) : Key := "session:" ++ sessionId

inductive Request
  | create (userId : Uuid) (authVersion : Int) (absoluteTtl : Nanoseconds)
  | validate (sessionId : SessionId) (idleTtl absoluteTtl : Nanoseconds)
  | revoke (sessionId : SessionId)

/-- A validation after its read: the text it got, and whether a revocation was complete by then. -/
structure Reading where
  sessionId : SessionId
  idleTtl : Nanoseconds
  absoluteTtl : Nanoseconds
  raw : Text
  revoked : Bool
deriving DecidableEq

inductive Handler
  | create (userId : Uuid) (authVersion : Int) (absoluteTtl : Nanoseconds)
  | store (sessionId : SessionId) (data : SessionData) (absoluteTtl : Nanoseconds)
  | validate (sessionId : SessionId) (idleTtl absoluteTtl : Nanoseconds)
  | decide (reading : Reading)
  /-- It has expired and is deleted. -/
  | expire (reading : Reading)
  | refresh (reading : Reading) (stored data : SessionData) (remaining : Seconds)
  | revoke (sessionId : SessionId)
deriving DecidableEq

/-- A validation that has returned: with the session and what it had read of it, or with nothing. -/
structure Outcome where
  sessionId : SessionId
  idleTtl : Nanoseconds
  absoluteTtl : Nanoseconds
  /-- A revocation was complete before the read. -/
  revoked : Bool
  result : Option (SessionData × SessionData)
deriving DecidableEq

/-- The cache, and what has happened: the sessions created, those revoked, and what
validations have returned. -/
structure Shared where
  cache : MokaCache
  created : List (SessionId × Nanoseconds) := []
  revoked : List SessionId := []
  outcomes : List Outcome := []

/-- The time of an action, and the token `generate_token` would give. -/
structure Input where
  now : Nanoseconds
  token : SessionId := ""

def enter : Request → Handler
  | .create userId authVersion absoluteTtl => .create userId authVersion absoluteTtl
  | .validate sessionId idleTtl absoluteTtl => .validate sessionId idleTtl absoluteTtl
  | .revoke sessionId => .revoke sessionId

def Reading.outcome (reading : Reading) (result : Option (SessionData × SessionData)) : Outcome :=
  ⟨reading.sessionId,reading.idleTtl,reading.absoluteTtl,reading.revoked,result⟩

def Shared.returns (shared : Shared) (outcome : Outcome) : Shared :=
  { shared with outcomes := shared.outcomes ++ [outcome] }

section Machine
variable (codec : Codec)

/-- `validate_session` once it has the text: an error ends it, else it goes on to one of its writes. -/
def decideReading (now : Nanoseconds) (reading : Reading) : Option Handler :=
  match codec.parse reading.raw with
  | none => none
  | some data =>
    if wholeSeconds reading.idleTtl < wholeSeconds (now - data.lastAccessedAt) then some (.expire reading)
    else
      let remaining := wholeSeconds reading.absoluteTtl - wholeSeconds (now - data.createdAt)
      if remaining ≤ 0 then some (.expire reading)
      else some (.refresh reading data { data with lastAccessedAt := now } remaining)

def advance (input : Input) (shared : Shared) : Handler → Shared × Option Handler
  | .create userId authVersion absoluteTtl =>
    (shared,some (.store input.token { userId, authVersion, createdAt := input.now, lastAccessedAt := input.now } absoluteTtl))
  | .store sessionId data absoluteTtl =>
    ({ shared with
      cache := set (unixTimestamp input.now) shared.cache (sessionKey sessionId) (codec.serialize data) (wholeSeconds absoluteTtl)
      created := shared.created ++ [(sessionId,data.createdAt)] },none)
  | .validate sessionId idleTtl absoluteTtl =>
    let revoked := decide (sessionId ∈ shared.revoked)
    match get (unixTimestamp input.now) shared.cache (sessionKey sessionId) with
    | none => (shared.returns ⟨sessionId,idleTtl,absoluteTtl,revoked,none⟩,none)
    | some raw => (shared,some (.decide ⟨sessionId,idleTtl,absoluteTtl,raw,revoked⟩))
  | .decide reading => (shared,decideReading codec input.now reading)
  | .expire reading =>
    ({ shared with cache := invalidate shared.cache (sessionKey reading.sessionId) }.returns (reading.outcome none),none)
  | .refresh reading stored data remaining =>
    let (cache,refreshed) := updateIfPresent (unixTimestamp input.now) shared.cache (sessionKey reading.sessionId)
      (codec.serialize data) remaining
    ({ shared with cache }.returns (reading.outcome (if refreshed then some (stored,data) else none)),none)
  | .revoke sessionId =>
    ({ shared with
      cache := invalidate shared.cache (sessionKey sessionId)
      revoked := sessionId :: shared.revoked },none)

def machine : Machine Shared Handler Request Input where
  enter := enter
  advance := advance codec

end Machine

/-- A new token is one that no session has had and no completed revocation has named. -/
def Fresh (shared : Shared) : Handler → Prop
  | .store sessionId _ _ => sessionId ∉ shared.created.map Prod.fst ∧ sessionId ∉ shared.revoked
  | _ => True

instance (shared : Shared) : ∀ handler, Decidable (Fresh shared handler)
  | .store _ _ _ => inferInstanceAs (Decidable (_ ∧ _))
  | .create .. | .validate .. | .decide .. | .expire .. | .refresh .. | .revoke .. => isTrue trivial

/-- What a validation may say: nothing after a revocation, and otherwise a session of
its creation time that is neither too old nor idle for too long, in whole seconds. -/
structure Sound (created : List (SessionId × Nanoseconds)) (outcome : Outcome) : Prop where
  revoked : outcome.revoked = true → outcome.result = none
  session : ∀ stored data, outcome.result = some (stored,data) →
    data = { stored with lastAccessedAt := data.lastAccessedAt } ∧
    (outcome.sessionId,data.createdAt) ∈ created ∧
    data.lastAccessedAt - data.createdAt < outcome.absoluteTtl ∧
    wholeSeconds (data.lastAccessedAt - stored.lastAccessedAt) ≤ wholeSeconds outcome.idleTtl

section Invariant
variable (codec : Codec)

structure Kept (shared : Shared) : Prop where
  revoked : ∀ sessionId ∈ shared.revoked, shared.cache (sessionKey sessionId) = none
  stored : ∀ sessionId entry, shared.cache (sessionKey sessionId) = some entry →
    ∃ expiry data, entry.raw = format expiry (codec.serialize data) ∧ (sessionId,data.createdAt) ∈ shared.created
  distinct : (shared.created.map Prod.fst).Nodup
  outcomes : ∀ outcome ∈ shared.outcomes, Sound shared.created outcome

def Assured (shared : Shared) : Handler → Prop
  | .decide reading => reading.revoked = false ∧
    ∃ data, reading.raw = codec.serialize data ∧ (reading.sessionId,data.createdAt) ∈ shared.created
  | .refresh reading stored data _ => Sound shared.created (reading.outcome (some (stored,data)))
  | _ => True

end Invariant

section Steps
variable {codec : Codec} {shared : Shared} {input : Input}

theorem sessionKey_injective {first second : SessionId} (same : sessionKey first = sessionKey second) : first = second := by
  have lists := congrArg String.toList same
  simp only [sessionKey,String.toList_append] at lists
  exact String.toList_inj.mp (List.append_cancel_left lists)

theorem wholeSeconds_mono {short long : Nanoseconds} (ordered : short ≤ long) : wholeSeconds short ≤ wholeSeconds long :=
  Int.tdiv_le_tdiv (by decide) ordered

theorem Sound.mono {created more : List (SessionId × Nanoseconds)} {outcome : Outcome} (sound : Sound created outcome)
    (grows : ∀ session ∈ created, session ∈ more) : Sound more outcome where
  revoked := sound.revoked
  session stored data found := by
    obtain ⟨same,known,lifetime,idle⟩ := sound.session stored data found
    exact ⟨same,grows _ known,lifetime,idle⟩

theorem sound_none (created : List (SessionId × Nanoseconds)) (sessionId : SessionId) (idleTtl absoluteTtl : Nanoseconds)
    (revoked : Bool) : Sound created ⟨sessionId,idleTtl,absoluteTtl,revoked,none⟩ where
  revoked _ := rfl
  session _ _ found := by cases found

theorem Kept.returns (kept : Kept codec shared) {outcome : Outcome} (sound : Sound shared.created outcome) :
    Kept codec (shared.returns outcome) where
  revoked := kept.revoked
  stored := kept.stored
  distinct := kept.distinct
  outcomes other member := by
    rcases List.mem_append.mp member with old | new
    · exact kept.outcomes other old
    · rw [List.mem_singleton.mp new]
      exact sound

theorem Kept.invalidated (kept : Kept codec shared) (sessionId : SessionId) :
    Kept codec { shared with cache := invalidate shared.cache (sessionKey sessionId) } where
  revoked other member := by
    simp only [invalidate]
    split
    · rfl
    · exact kept.revoked other member
  stored other entry found := by
    simp only [invalidate] at found
    split at found
    · cases found
    · exact kept.stored other entry found
  distinct := kept.distinct
  outcomes := kept.outcomes

theorem Kept.written (kept : Kept codec shared) {sessionId : SessionId} {data : SessionData}
    (known : (sessionId,data.createdAt) ∈ shared.created) (live : sessionId ∉ shared.revoked) (now ttl : Seconds) :
    Kept codec { shared with cache := set now shared.cache (sessionKey sessionId) (codec.serialize data) ttl } where
  revoked other member := by
    have different : sessionKey other ≠ sessionKey sessionId := fun same => live (sessionKey_injective same ▸ member)
    exact (insert_other different _).trans (kept.revoked other member)
  stored other entry found := by
    by_cases same : other = sessionId
    · subst same
      have written : some ⟨_,_⟩ = some entry := (insert_same _).symm.trans found
      cases written
      exact ⟨_,data,rfl,known⟩
    · have different : sessionKey other ≠ sessionKey sessionId := fun equal => same (sessionKey_injective equal)
      exact kept.stored other entry ((insert_other different _).symm.trans found)
  distinct := kept.distinct
  outcomes := kept.outcomes

theorem Kept.created (kept : Kept codec shared) {sessionId : SessionId} (unused : sessionId ∉ shared.created.map Prod.fst)
    (time : Nanoseconds) : Kept codec { shared with created := shared.created ++ [(sessionId,time)] } where
  revoked := kept.revoked
  stored other entry found := by
    obtain ⟨expiry,data,raw,known⟩ := kept.stored other entry found
    exact ⟨expiry,data,raw,List.mem_append_left _ known⟩
  distinct := by
    rw [List.map_append,List.nodup_append]
    refine ⟨kept.distinct,List.nodup_singleton _,fun first one second two same => ?_⟩
    rw [List.map_singleton,List.mem_singleton] at two
    subst two same
    exact unused one
  outcomes outcome member := (kept.outcomes outcome member).mono fun session => List.mem_append_left _

theorem assured_decideReading (faithful : codec.Faithful) {reading : Reading} (assured : Assured codec shared (.decide reading))
    {rest : Handler} (decides : decideReading codec input.now reading = some rest) : Assured codec shared rest := by
  obtain ⟨unrevoked,data,raw,known⟩ := assured
  unfold decideReading at decides
  rw [raw,faithful data] at decides
  simp only at decides
  split at decides
  · cases decides
    trivial
  · rename_i idle
    split at decides
    · cases decides
      trivial
    · rename_i remaining
      cases decides
      refine ⟨fun revoked => ?_,fun stored refreshed found => ?_⟩
      · rw [Reading.outcome,unrevoked] at revoked
        cases revoked
      · cases found
        refine ⟨rfl,known,?_,Int.not_lt.mp idle⟩
        by_contra old
        exact remaining (Int.sub_nonpos_of_le (wholeSeconds_mono (Int.not_lt.mp old)))

theorem get_eq_some {now : Seconds} {cache : MokaCache} {key : Key} {text : Text} (found : get now cache key = some text) :
    ∃ entry, cache key = some entry ∧ stored entry.raw = text := by
  obtain ⟨raw,peeked,rfl⟩ := Option.map_eq_some_iff.mp found
  obtain ⟨entry,alive,rfl⟩ := Option.map_eq_some_iff.mp peeked
  exact ⟨entry,(Option.filter_eq_some_iff.mp alive).1,rfl⟩

theorem advance_kept (faithful : codec.Faithful) {handler : Handler} (fresh : Fresh shared handler) (kept : Kept codec shared)
    (assured : Assured codec shared handler) :
    Kept codec (advance codec input shared handler).1 ∧
      ∀ rest, (advance codec input shared handler).2 = some rest → Assured codec (advance codec input shared handler).1 rest := by
  cases handler with
  | create userId authVersion absoluteTtl =>
    refine ⟨kept,fun rest next => ?_⟩
    cases next
    trivial
  | store sessionId data absoluteTtl =>
    obtain ⟨unused,live⟩ := fresh
    refine ⟨?_,fun rest next => by cases next⟩
    exact (kept.created unused data.createdAt).written (List.mem_append_right _ (List.mem_singleton_self _)) live _ _
  | validate sessionId idleTtl absoluteTtl =>
    simp only [advance]
    cases found : get (unixTimestamp input.now) shared.cache (sessionKey sessionId) with
    | none => exact ⟨kept.returns (sound_none _ _ _ _ _),fun rest next => by cases next⟩
    | some raw =>
      refine ⟨kept,fun rest next => ?_⟩
      cases next
      obtain ⟨entry,present,text⟩ := get_eq_some found
      have live : sessionId ∉ shared.revoked := by
        intro revoked
        rw [kept.revoked sessionId revoked] at present
        cases present
      obtain ⟨expiry,data,written,known⟩ := kept.stored sessionId entry present
      rw [written,stored_format] at text
      exact ⟨decide_eq_false live,data,text.symm,known⟩
  | decide reading =>
    exact ⟨kept,fun rest next => assured_decideReading faithful assured next⟩
  | expire reading =>
    refine ⟨?_,fun rest next => by cases next⟩
    exact (kept.invalidated reading.sessionId).returns (sound_none _ _ _ _ _)
  | refresh reading before data remaining =>
    refine ⟨?_,fun rest next => by cases next⟩
    have sound : Sound shared.created (reading.outcome (some (before,data))) := assured
    simp only [advance,updateIfPresent]
    split
    · exact kept.returns (sound_none _ _ _ _ _)
    · rename_i present
      have live : reading.sessionId ∉ shared.revoked := by
        intro revoked
        apply present
        unfold peek
        rw [kept.revoked _ revoked]
        rfl
      obtain ⟨_,known,_⟩ := sound.session before data rfl
      exact (kept.written known live _ _).returns sound
  | revoke sessionId =>
    refine ⟨?_,fun rest next => by cases next⟩
    have dropped := kept.invalidated sessionId
    refine ⟨fun other member => ?_,dropped.stored,dropped.distinct,dropped.outcomes⟩
    rcases List.mem_cons.mp member with rfl | earlier
    · exact if_pos rfl
    · exact dropped.revoked other earlier

theorem created_grows (handler : Handler) : ∀ session ∈ shared.created, session ∈ (advance codec input shared handler).1.created := by
  intro session member
  cases handler with
  | store sessionId data absoluteTtl => exact List.mem_append_left _ member
  | validate sessionId idleTtl absoluteTtl =>
    simp only [advance]
    cases get (unixTimestamp input.now) shared.cache (sessionKey sessionId) <;> exact member
  | create | decide | expire | refresh | revoke => exact member

theorem Assured.mono {before after : Shared} {handler : Handler} (assured : Assured codec before handler)
    (grows : ∀ session ∈ before.created, session ∈ after.created) : Assured codec after handler := by
  cases handler with
  | decide reading =>
    obtain ⟨unrevoked,data,raw,known⟩ := assured
    exact ⟨unrevoked,data,raw,grows _ known⟩
  | refresh reading stored data remaining => exact Sound.mono assured grows
  | create | store | validate | expire | revoke => trivial

end Steps

def idle (cache : MokaCache) : Config Shared Handler := ⟨{ cache },[]⟩

theorem kept_run {codec : Codec} (faithful : codec.Faithful) {cache : MokaCache}
    (absent : ∀ sessionId, cache (sessionKey sessionId) = none) (events : List (Event Request Input))
    (fresh : Along (machine codec).step (Acting fun _ shared handler => Fresh shared handler) (idle cache) events) :
    Kept codec (run (machine codec).step (idle cache) events).shared := by
  have start : Holds (Kept codec) (Assured codec) (idle cache) := by
    refine ⟨⟨fun _ member => absurd member List.not_mem_nil,fun sessionId entry found => ?_,List.nodup_nil,
      fun _ member => absurd member List.not_mem_nil⟩,fun _ member => absurd member List.not_mem_nil⟩
    rw [show (idle cache).shared.cache = cache from rfl,absent sessionId] at found
    cases found
  have kept : ∀ config event, Holds (Kept codec) (Assured codec) config →
      Acting (fun _ shared handler => Fresh shared handler) config event →
      Holds (Kept codec) (Assured codec) ((machine codec).step config event) := by
    intro config event holds permitted
    apply Holds.step _ _ _ config event holds permitted
    · intro shared request _
      cases request <;> trivial
    · exact fun input shared handler fresh kept assured => advance_kept faithful fresh kept assured
    · exact fun input shared handler other _ _ _ assured => assured.mono (created_grows handler)
  exact (invariant_run kept (idle cache) events start fresh).state

/-- After any interleaving: a revoked session is gone, and whatever a validation has
returned it was right to return. -/
theorem sessions_expire {codec : Codec} (faithful : codec.Faithful) {cache : MokaCache}
    (absent : ∀ sessionId, cache (sessionKey sessionId) = none) (events : List (Event Request Input))
    (fresh : Along (machine codec).step (Acting fun _ shared handler => Fresh shared handler) (idle cache) events) :
    let after := (run (machine codec).step (idle cache) events).shared
    (∀ sessionId ∈ after.revoked, after.cache (sessionKey sessionId) = none) ∧
      (after.created.map Prod.fst).Nodup ∧ ∀ outcome ∈ after.outcomes, Sound after.created outcome := by
  have kept := kept_run faithful absent events fresh
  exact ⟨kept.revoked,kept.distinct,kept.outcomes⟩

def plainCodec : Codec where
  serialize data := format data.userId (format data.authVersion (format data.createdAt (Decimal.print data.lastAccessedAt)))
  parse text := do
    let (userId,rest) ← extractValue text
    let (authVersion,rest) ← extractValue rest
    let (createdAt,rest) ← extractValue rest
    let lastAccessedAt ← Decimal.parse rest
    return { userId := userId.toNat, authVersion, createdAt, lastAccessedAt }

theorem plainCodec_faithful : plainCodec.Faithful := by
  intro data
  simp [plainCodec,extractValue_format,Decimal.parse_print]

/-- A session is created and used again after so many nanoseconds; it may idle for thirty seconds. -/
def visit (later : Nanoseconds) : List (Event Request Input) :=
  [.arrive (.create 1 1 3600000000000),.resume 0 ⟨0,"token"⟩,.resume 0 ⟨0,""⟩,
    .arrive (.validate "token" 30000000000 3600000000000),.resume 0 ⟨later,""⟩,.resume 0 ⟨later,""⟩,.resume 0 ⟨later,""⟩]

theorem sessions_expire_after_revocation :
    let after := (run (machine plainCodec).step (idle fun _ => none)
      (visit 1000000000 ++ [.arrive (.revoke "token"),.resume 0 ⟨2000000000,""⟩])).shared
    (∀ sessionId ∈ after.revoked, after.cache (sessionKey sessionId) = none) ∧
      (after.created.map Prod.fst).Nodup ∧ ∀ outcome ∈ after.outcomes, Sound after.created outcome :=
  sessions_expire plainCodec_faithful (fun _ => rfl) _ (by decide)

/-- Half a second more than the thirty are let through. -/
theorem idle_session_is_accepted :
    Along (machine plainCodec).step (Acting fun _ shared handler => Fresh shared handler) (idle fun _ => none) (visit 30500000000) ∧
      (run (machine plainCodec).step (idle fun _ => none) (visit 30500000000)).shared.outcomes =
        [{ sessionId := "token", idleTtl := 30000000000, absoluteTtl := 3600000000000, revoked := false,
           result := some (⟨1,1,0,0⟩,⟨1,1,0,30500000000⟩) }] := by
  decide

end GrassWorker.Sessions
