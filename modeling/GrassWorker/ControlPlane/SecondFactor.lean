import GrassWorker.ControlPlane.LoginSteps

/-! What a challenge asks for when its user can already prove a factor. Its mode is chosen when it is created;
an enrolment takes a code for any factor, and is over when the factors that are enrolled meet the policies. -/
namespace GrassWorker.Logins
open Authentication Interleaving Runs

/-- Its user could prove a factor when the challenge was created, and no code for one of those was given in it. -/
def Outstanding (s : Shared) (token : Token) (opened : Opened) : Prop :=
  opened.held ≠ [] ∧ ∀ factorId ∈ opened.held, (token,factorId) ∉ s.presented

instance (s : Shared) (token : Token) (opened : Opened) : Decidable (Outstanding s token opened) :=
  inferInstanceAs (Decidable (_ ∧ _))

def Handler.verifying : Handler → Option Uuid
  | .writeUse verification _ => if verification.verifies then some verification.factor.id else none
  | _ => none

def Handler.newPolicy : Handler → Option MfaPolicy
  | .writeSettings policy _ => policy
  | _ => none

/-- While a challenge is outstanding, no factor of its user is verified for the first time, and no kind of his
verified factors becomes allowed. -/
def Undisturbed (input : Input) (s : Shared) (handler : Handler) : Prop :=
  input.fails = false → ∀ entry ∈ s.challenges, Outstanding s entry.key entry.value →
    (∀ factorId ∈ handler.verifying, ∀ row ∈ s.db.factors.find factorId,
      row.userId = entry.value.challenge.userId → row.verifiedAt.isSome) ∧
    ∀ policy ∈ handler.newPolicy, ∀ row ∈ s.db.factors.rows, row.userId = entry.value.challenge.userId →
      row.verifiedAt.isSome → policy.allows row.kind → (mfaPolicy s.db).allows row.kind

instance (input : Input) (s : Shared) (handler : Handler) : Decidable (Undisturbed input s handler) :=
  inferInstanceAs (Decidable (_ → ∀ entry ∈ s.challenges, _ → _ ∧ _))

structure Same (old next : UserMfaFactor) : Prop where
  id : next.id = old.id
  owner : next.userId = old.userId
  kind : next.kind = old.kind
  verified : old.verifiedAt.isSome → next.verifiedAt.isSome

theorem Same.refl (factor : UserMfaFactor) : Same factor factor := ⟨rfl,rfl,rfl,fun verified => verified⟩

theorem Same.trans {first second third : UserMfaFactor} (one : Same first second) (two : Same second third) :
    Same first third :=
  ⟨two.id.trans one.id,two.owner.trans one.owner,two.kind.trans one.kind,two.verified ∘ one.verified⟩

section Step
variable {library : Library} {input : Input} {s s' : Shared} {handler : Handler}

/-- A factor is new and unverified, or one that was there; it is verified only by its own code. -/
theorem does_factors (does : Does library input s handler s') :
    ∀ next ∈ s'.db.factors.rows, (next.id = s.drawn ∧ next.verifiedAt = none ∧ s.drawn < s'.drawn) ∨
      ∃ old ∈ s.db.factors.rows, Same old next ∧
        (next.verifiedAt.isSome → old.verifiedAt.isSome ∨ handler.verifying = some old.id) := by
  have kept : ∀ next ∈ s.db.factors.rows, (next.id = s.drawn ∧ next.verifiedAt = none ∧ s.drawn < s'.drawn) ∨
      ∃ old ∈ s.db.factors.rows, Same old next ∧
        (next.verifiedAt.isSome → old.verifiedAt.isSome ∨ handler.verifying = some old.id) :=
    fun next member => .inr ⟨next,member,Same.refl next,.inl⟩
  intro next member
  cases does with
  | users _ db write =>
    obtain ⟨users,credentials,identities,write,_,rfl⟩ := write
    exact kept next member
  | started start existing factors write =>
    cases write with
    | replaced factorId secret updated =>
      dsimp only at member
      rw [Table.rows_update updated] at member
      obtain ⟨old,inside,rfl⟩ := List.mem_map.mp member
      refine .inr ⟨old,inside,?_,?_⟩
      · split <;> exact ⟨rfl,rfl,rfl,id⟩
      · split <;> exact .inl
    | inserted now start secret inserted =>
      dsimp only at member
      rw [Table.rows_insert inserted] at member
      rcases List.mem_append.mp member with old | new
      · exact kept next old
      · rw [List.mem_singleton.mp new]
        exact .inl ⟨rfl,rfl,Nat.lt_succ_self _⟩
  | used verification checked factors updated present =>
    dsimp only at member
    rw [Table.rows_update updated] at member
    obtain ⟨old,inside,rfl⟩ := List.mem_map.mp member
    refine .inr ⟨old,inside,?_,?_⟩
    · split
      · refine ⟨rfl,rfl,rfl,fun verified => ?_⟩
        dsimp only
        split
        · rfl
        · exact verified
      · exact Same.refl old
    · split
      · rename_i same
        cases verifies : verification.verifies with
        | true => exact fun _ => .inr (by rw [Handler.verifying,if_pos verifies,same])
        | false => exact .inl
      · exact .inl
  | deleted userId factorId => exact kept next (List.mem_of_mem_filter member)
  | _ => exact kept next member

theorem does_drawn (does : Does library input s handler s') : s.drawn ≤ s'.drawn := by
  cases does with
  | users | tokens | started | userPolicy | settings | password | challenged | issued => exact Nat.le_succ _
  | _ => exact le_refl _

theorem does_presented (does : Does library input s handler s') : s.presented ⊆ s'.presented := by
  cases does with
  | used => exact List.subset_append_left _ _
  | _ => exact List.Subset.refl _

theorem does_challenges (does : Does library input s handler s') :
    ∀ entry ∈ s'.challenges, entry ∈ s.challenges ∨ (entry.key = s.drawn ∧ s.drawn < s'.drawn) := by
  intro entry member
  cases does with
  | challenged login mode =>
    rcases Expiring.mem_put.mp member with rfl | old
    · exact .inr ⟨rfl,Nat.lt_succ_self _⟩
    · exact .inl old.1
  | taken pending present => exact .inl (Expiring.mem_remove.mp member).1
  | _ => exact .inl member

end Step

structure Tracked (s : Shared) : Prop where
  ids : ∀ row ∈ s.db.factors.rows, row.id < s.drawn
  tokens : ∀ entry ∈ s.challenges, entry.key < s.drawn
  distinct : Expiring.Distinct s.challenges
  /-- The factors the user of an outstanding challenge can prove are those he could prove when it was created. -/
  held : ∀ entry ∈ s.challenges, Outstanding s entry.key entry.value → ∀ row ∈ s.db.factors.rows,
    row.userId = entry.value.challenge.userId → row.verifiedAt.isSome → (mfaPolicy s.db).allows row.kind →
      row.id ∈ entry.value.held
  issued : ∀ issuance ∈ s.issued, ∀ origin ∈ issuance.origin, ¬Outstanding s origin.1 origin.2

/-- A challenge as a handler has read it: if it is still there, it is the same. -/
def Knows (s : Shared) (token : Token) (opened : Opened) : Prop :=
  token < s.drawn ∧ ∀ entry ∈ s.challenges, entry.key = token → entry.value = opened

def Holding (s : Shared) (pending : Pending) : Prop :=
  Knows s pending.token pending.opened ∧ pending.user.id = pending.opened.challenge.userId

def Read (s : Shared) (factor : UserMfaFactor) : Prop :=
  factor.id < s.drawn ∧ ∀ row ∈ s.db.factors.rows, row.id = factor.id → Same factor row

/-- As long as the challenge is there and outstanding, the factor can be proved only if it is one of those held. -/
def Proving (s : Shared) (pending : Pending) (factorId : Uuid) : Prop :=
  Outstanding s pending.token pending.opened → (∃ entry ∈ s.challenges, entry.key = pending.token) →
    ∀ row ∈ s.db.factors.rows, row.id = factorId → row.verifiedAt.isSome → factorId ∈ pending.opened.held

def Answered (s : Shared) (pending : Pending) : Prop :=
  (∃ entry ∈ s.challenges, entry.key = pending.token) → ¬Outstanding s pending.token pending.opened

def Tracks (s : Shared) : Handler → Prop
  | .readCredential login _ | .readPolicy login | .readFactors login _ | .readUserPolicy login _ _ | .createChallenge login _
  | .updateLastLogin login | .createSession login =>
    ∀ origin ∈ login.origin, ¬Outstanding s origin.1 origin.2
  | .readChallengeUser token opened _ => Knows s token opened
  | .readFactor pending _ _ => Holding s pending
  | .readVerifyPolicy pending factor _ => Holding s pending ∧ Read s factor ∧ factor.userId = pending.user.id
  | .checkCode verification | .deleteCode verification _ | .writeUse verification _ =>
    ∀ carried ∈ verification.pending, Holding s carried.1 ∧ Read s verification.factor ∧
      verification.factor.userId = carried.1.user.id ∧ Proving s carried.1 verification.factor.id
  | .readEnrolled pending _ | .readEnrolledPolicy pending _ _ | .takeChallenge pending =>
    Holding s pending ∧ Answered s pending
  | _ => True

structure Later (s s' : Shared) : Prop where
  drawn : s.drawn ≤ s'.drawn
  presented : s.presented ⊆ s'.presented
  challenges : ∀ entry ∈ s'.challenges, entry ∈ s.challenges ∨ (entry.key = s.drawn ∧ s.drawn < s'.drawn)
  factors : ∀ next ∈ s'.db.factors.rows, (next.id = s.drawn ∧ next.verifiedAt = none ∧ s.drawn < s'.drawn) ∨
    ∃ old ∈ s.db.factors.rows, Same old next ∧ (next.verifiedAt.isSome → ∀ entry ∈ s.challenges,
      Outstanding s entry.key entry.value → old.userId = entry.value.challenge.userId → old.verifiedAt.isSome)

section Later
variable {library : Library} {input : Input} {s s' : Shared} {handler : Handler} {token : Token} {opened : Opened}
  {pending : Pending} {factor : UserMfaFactor}

theorem Outstanding.before (outstanding : Outstanding s' token opened) (presented : s.presented ⊆ s'.presented) :
    Outstanding s token opened :=
  ⟨outstanding.1,fun factorId member before => outstanding.2 factorId member (presented before)⟩

theorem Knows.later (knows : Knows s token opened) (later : Later s s') : Knows s' token opened := by
  refine ⟨knows.1.trans_le later.drawn,fun entry member same => ?_⟩
  rcases later.challenges entry member with old | new
  · exact knows.2 entry old same
  · exact absurd (new.1.symm.trans same) (Nat.ne_of_gt knows.1)

theorem Later.present (later : Later s s') (known : token < s.drawn)
    (present : ∃ entry ∈ s'.challenges, entry.key = token) : ∃ entry ∈ s.challenges, entry.key = token := by
  obtain ⟨entry,member,same⟩ := present
  rcases later.challenges entry member with old | new
  · exact ⟨entry,old,same⟩
  · exact absurd (new.1.symm.trans same) (Nat.ne_of_gt known)

theorem Holding.later (holding : Holding s pending) (later : Later s s') : Holding s' pending :=
  ⟨holding.1.later later,holding.2⟩

theorem Read.later (read : Read s factor) (later : Later s s') : Read s' factor := by
  refine ⟨read.1.trans_le later.drawn,fun next member same => ?_⟩
  rcases later.factors next member with ⟨new,_,_⟩ | ⟨old,inside,kept,_⟩
  · exact absurd (new.symm.trans same) (Nat.ne_of_gt read.1)
  · exact (read.2 old inside (kept.id.symm.trans same)).trans kept

theorem Answered.later (answered : Answered s pending) (holding : Holding s pending) (later : Later s s') :
    Answered s' pending :=
  fun present outstanding => answered (later.present holding.1.1 present) (outstanding.before later.presented)

theorem Proving.later (proving : Proving s pending factor.id) (holding : Holding s pending) (read : Read s factor)
    (owner : factor.userId = pending.user.id) (later : Later s s') : Proving s' pending factor.id := by
  intro outstanding present next member same verified
  have before := outstanding.before later.presented
  obtain ⟨entry,here,key⟩ := later.present holding.1.1 present
  rcases later.factors next member with ⟨new,_,_⟩ | ⟨old,inside,kept,newly⟩
  · exact absurd (new.symm.trans same) (Nat.ne_of_gt read.1)
  · have value := holding.1.2 entry here key
    have mine : old.userId = entry.value.challenge.userId := by
      rw [value,← holding.2,← owner]
      exact (read.2 old inside (kept.id.symm.trans same)).owner
    have open' : Outstanding s entry.key entry.value := by
      rw [key,value]
      exact before
    exact proving before ⟨entry,here,key⟩ old inside (kept.id.symm.trans same) (newly verified entry here open' mine)

theorem Tracks.later (tracks : Tracks s handler) (later : Later s s') : Tracks s' handler := by
  cases handler with
  | readCredential | readPolicy | readFactors | readUserPolicy | createChallenge | updateLastLogin | createSession =>
    exact fun origin member outstanding => tracks origin member (outstanding.before later.presented)
  | readChallengeUser => exact Knows.later tracks later
  | readFactor => exact Holding.later tracks later
  | readVerifyPolicy => exact ⟨tracks.1.later later,tracks.2.1.later later,tracks.2.2⟩
  | checkCode | deleteCode | writeUse =>
    intro carried member
    obtain ⟨holding,read,owner,proving⟩ := tracks carried member
    exact ⟨holding.later later,read.later later,owner,proving.later holding read owner later⟩
  | readEnrolled | readEnrolledPolicy | takeChallenge => exact ⟨tracks.1.later later,tracks.2.later tracks.1 later⟩
  | _ => trivial

theorem does_later (does : Does library input s handler s') (live : input.fails = false)
    (undisturbed : Undisturbed input s handler) : Later s s' := by
  refine ⟨does_drawn does,does_presented does,does_challenges does,?_⟩
  intro next member
  rcases does_factors does next member with new | ⟨old,inside,kept,newly⟩
  · exact .inl new
  · refine .inr ⟨old,inside,kept,fun verified entry here outstanding owner => ?_⟩
    rcases newly verified with before | marks
    · exact before
    · exact (undisturbed live entry here outstanding).1 old.id marks old (Table.find_of_mem inside) owner

theorem wait_later (now : Timestamp) : Later s (s.wait now) :=
  ⟨le_refl _,List.Subset.refl _,fun _ member => .inl (Expiring.mem_wait member),
    fun next member => .inr ⟨next,member,Same.refl next,fun verified _ _ _ _ => verified⟩⟩

theorem act_later (undisturbed : Undisturbed input (s.wait input.now) handler) :
    Later (s.wait input.now) (act library input s handler).1 := by
  by_cases fails : input.fails
  · rw [act,if_pos fails]
    exact ⟨le_refl _,List.Subset.refl _,fun _ => .inl,
      fun next member => .inr ⟨next,member,Same.refl next,fun verified _ _ _ _ => verified⟩⟩
  · exact does_later (act_does library input handler) (by simpa using fails) undisturbed

theorem act_policy (undisturbed : Undisturbed input (s.wait input.now) handler) :
    ∀ entry ∈ (s.wait input.now).challenges, Outstanding s entry.key entry.value → ∀ row ∈ s.db.factors.rows,
      row.userId = entry.value.challenge.userId → row.verifiedAt.isSome →
        (mfaPolicy (act library input s handler).1.db).allows row.kind → (mfaPolicy s.db).allows row.kind := by
  intro entry here outstanding row member owner verified allowed
  by_cases fails : input.fails
  · rw [act,if_pos fails] at allowed
    exact allowed
  · have settled := (undisturbed (by simpa using fails) entry here outstanding).2
    have does := act_does library input handler (s := s)
    generalize (act library input s handler).1 = s' at does allowed
    cases does with
    | users _ db write =>
      obtain ⟨users,credentials,identities,write,_,rfl⟩ := write
      exact allowed
    | settings policy registrationVerification =>
      cases policy with
      | none => exact allowed
      | some policy => exact settled policy rfl row member owner verified allowed
    | _ => exact allowed

theorem wait_tracked (now : Timestamp) (tracked : Tracked s) : Tracked (s.wait now) where
  ids := tracked.ids
  tokens entry member := tracked.tokens entry (Expiring.mem_wait member)
  distinct := Expiring.distinct_wait now tracked.distinct
  held entry member := tracked.held entry (Expiring.mem_wait member)
  issued := tracked.issued

theorem mem_held {db : Accounts} {userId : Uuid} {row : UserMfaFactor} (member : row ∈ db.factors.rows)
    (owner : row.userId = userId) (verified : row.verifiedAt.isSome) (allowed : (mfaPolicy db).allows row.kind) :
    row.id ∈ (usableFactors db (mfaPolicy db) userId).map UserMfaFactor.id := by
  refine List.mem_map_of_mem ?_
  simp only [usableFactors,verifiedMfaFactors,List.mem_filter,List.mem_insertionSort]
  exact ⟨⟨member,by simpa using ⟨owner,verified⟩⟩,allowed⟩

theorem does_distinct (does : Does library input s handler s') (distinct : Expiring.Distinct s.challenges) :
    Expiring.Distinct s'.challenges := by
  cases does with
  | challenged login mode => exact Expiring.distinct_put _ _ _ distinct
  | taken pending present => exact Expiring.distinct_remove _ distinct
  | _ => exact distinct

theorem does_held (does : Does library input s handler s') :
    ∀ entry ∈ s'.challenges, entry ∈ s.challenges ∨ ∀ row ∈ s'.db.factors.rows,
      row.userId = entry.value.challenge.userId → row.verifiedAt.isSome → (mfaPolicy s'.db).allows row.kind →
        row.id ∈ entry.value.held := by
  intro entry member
  cases does with
  | challenged login mode =>
    rcases Expiring.mem_put.mp member with rfl | old
    · exact .inr fun row inside owner verified allowed => mem_held inside owner verified allowed
    · exact .inl old.1
  | taken pending present => exact .inl (Expiring.mem_remove.mp member).1
  | _ => exact .inl member

theorem does_issued (does : Does library input s handler s') (tracks : Tracks s handler) (tracked : Tracked s) :
    ∀ issuance ∈ s'.issued, ∀ origin ∈ issuance.origin, ¬Outstanding s origin.1 origin.2 := by
  intro issuance member
  cases does with
  | issued login =>
    rcases List.mem_append.mp member with old | new
    · exact tracked.issued issuance old
    · rw [List.mem_singleton.mp new]
      exact tracks
  | _ => exact tracked.issued issuance member

theorem act_tracked (undisturbed : Undisturbed input (s.wait input.now) handler) (tracked : Tracked s)
    (tracks : Tracks (s.wait input.now) handler) : Tracked (act library input s handler).1 := by
  have does := act_does library input handler (s := s)
  have later : Later (s.wait input.now) (act library input s handler).1 := act_later undisturbed
  have before := wait_tracked input.now tracked
  refine ⟨?_,?_,does_distinct does before.distinct,?_,?_⟩
  · intro next member
    rcases later.factors next member with ⟨new,_,drawn⟩ | ⟨old,inside,kept,_⟩
    · rw [new]
      exact drawn
    · rw [kept.id]
      exact (before.ids old inside).trans_le later.drawn
  · intro entry member
    rcases later.challenges entry member with old | ⟨new,drawn⟩
    · exact (before.tokens entry old).trans_le later.drawn
    · rw [new]
      exact drawn
  · intro entry member outstanding next inside owner verified allowed
    rcases does_held does entry member with old | held
    · have earlier := outstanding.before later.presented
      rcases later.factors next inside with ⟨_,unverified,_⟩ | ⟨row,there,kept,newly⟩
      · rw [unverified] at verified
        cases verified
      · have mine : row.userId = entry.value.challenge.userId := kept.owner.symm.trans owner
        have proved := newly verified entry old earlier mine
        rw [kept.kind] at allowed
        rw [kept.id]
        exact before.held entry old earlier row there mine proved
          (act_policy undisturbed entry old earlier row there mine proved allowed)
    · exact held next inside owner verified allowed
  · intro issuance member origin carried outstanding
    exact does_issued does tracks before issuance member origin carried (outstanding.before later.presented)

theorem not_outstanding_none : ∀ origin ∈ (none : Option (Token × Opened)), ¬Outstanding s origin.1 origin.2 := by
  intro origin member
  cases member

theorem mem_of_find {userId factorId : Uuid} {factor : UserMfaFactor} (found : mfaFactor s.db userId factorId = some factor) :
    factor ∈ s.db.factors.rows ∧ factor.userId = userId := by
  obtain ⟨found,owner⟩ := Option.filter_eq_some_iff.mp found
  exact ⟨Table.find_mem found,of_decide_eq_true owner⟩

theorem leads_tracks {rest : Handler} (leads : Leads library input s handler rest) (tracked : Tracked s)
    (tracks : Tracks s handler) (reads : ∀ verification checked, handler ≠ .writeUse verification checked) :
    Tracks s rest := by
  cases leads with
  | password | linkedUser | identityUser | registered | emailVerified => exact not_outstanding_none
  | checked | policy | factors | challenge | unchallenged | lastLogin | totp | mail | deleted | enrolled => exact tracks
  | loaded token purpose opened found permitted =>
    obtain ⟨entry,member,rfl,rfl⟩ := Expiring.get_eq_some found
    exact ⟨tracked.tokens entry member,fun other inside same =>
      congrArg Lasting.value (tracked.distinct.same inside member same)⟩
  | challengeVerify token opened factorId code user found current =>
    obtain ⟨found,_⟩ := Option.filter_eq_some_iff.mp found
    exact ⟨tracks,Table.find_key found⟩
  | factor pending factorId code factor found =>
    obtain ⟨member,owner⟩ := mem_of_find found
    refine ⟨tracks,⟨tracked.ids factor member,fun row inside same => ?_⟩,owner⟩
    rw [s.db.factors.same_of_key inside member same]
    exact Same.refl factor
  | usable pending factor code allowed enrolled =>
    obtain ⟨holding,read,owner⟩ := tracks
    intro carried member
    cases member
    refine ⟨holding,read,owner,?_⟩
    rintro outstanding ⟨entry,here,key⟩ row inside same verified
    -- the kind is allowed as the policy is read, so a verified row is one of those held
    have value := holding.1.2 entry here key
    have kept := read.2 row inside same
    rw [← key,← value] at outstanding
    rw [← same,← value]
    refine tracked.held entry here outstanding row inside ?_ verified (by rw [kept.kind]; exact allowed)
    rw [value,← holding.2,← owner]
    exact kept.owner
  | ownFactor userId factorId code factor found =>
    intro carried member
    cases member
  | enrolling verification checked | verifying verification checked => exact absurd rfl (reads verification checked)
  | met pending policy factors met => exact tracks
  | taken pending present =>
    intro origin member
    cases member
    obtain ⟨opened,found⟩ := Option.isSome_iff_exists.mp present
    obtain ⟨entry,here,key,_⟩ := Expiring.get_eq_some found
    exact tracks.2 ⟨entry,here,key⟩
  | _ => trivial

theorem writeUse_next {verification : Verification} {checked : Checked} {rest : Handler}
    (next : (act library input s (.writeUse verification checked)).2 = some rest) :
    input.fails = false ∧ ∃ pending policy row, verification.pending = some (pending,policy) ∧
      s.db.factors.find verification.factor.id = some row ∧
      (pending.token,verification.factor.id) ∈ (act library input s (.writeUse verification checked)).1.presented ∧
      ∀ after, Tracks after rest ↔ Holding after pending ∧ Answered after pending := by
  unfold act at next ⊢
  split at next
  · cases next
  · rename_i live
    refine ⟨by simpa using live,?_⟩
    rw [if_neg live]
    simp only [advance] at next ⊢
    split at next
    · rename_i value db outcome
      obtain ⟨factors,_,present,rfl⟩ := ran_ensures outcome useFactor_spec
      obtain ⟨row,found⟩ := Option.isSome_iff_exists.mp present
      obtain ⟨⟨pending,policy⟩,carried,goes⟩ := Option.bind_eq_some_iff.mp next
      refine ⟨pending,policy,row,carried,found,?_,?_⟩
      · simp [carried]
      · split at goes <;>
        · cases goes
          exact fun _ => Iff.rfl
    · cases next

theorem writeUse_tracks {verification : Verification} {checked : Checked} {rest : Handler}
    (undisturbed : Undisturbed input (s.wait input.now) (.writeUse verification checked))
    (tracks : Tracks (s.wait input.now) (.writeUse verification checked))
    (next : (act library input s (.writeUse verification checked)).2 = some rest) :
    Tracks (act library input s (.writeUse verification checked)).1 rest := by
  obtain ⟨live,pending,policy,row,carried,found,given,goal⟩ := writeUse_next next
  obtain ⟨holding,read,owner,proving⟩ := tracks (pending,policy) carried
  have later : Later (s.wait input.now) (act library input s (.writeUse verification checked)).1 := act_later undisturbed
  rw [goal]
  refine ⟨holding.later later,fun present outstanding => ?_⟩
  have before := outstanding.before later.presented
  obtain ⟨entry,here,key⟩ := later.present holding.1.1 present
  have value := holding.1.2 entry here key
  have kept := read.2 row (Table.find_mem found) (Table.find_key found)
  have verified : row.verifiedAt.isSome := by
    -- what was read as verified still is, and anything else is about to be verified for the first time
    cases known : verification.factor.verifiedAt with
    | some verifiedAt => exact kept.verified (by rw [known]; rfl)
    | none =>
      refine (undisturbed live entry here ?_).1 verification.factor.id ?_ row found ?_
      · rw [key,value]
        exact before
      · simp [Handler.verifying,Verification.verifies,known]
      · rw [kept.owner,owner,holding.2,value]
  have held := proving before ⟨entry,here,key⟩ row (Table.find_mem found) (Table.find_key found) verified
  exact outstanding.2 verification.factor.id held given

end Later

/-- A user with a mailed second factor, under a policy that asks everyone for a one-time password. -/
def mailUser : Accounts :=
  singleUser ⟨2,1,.email,none,some 0,none,0⟩
    { allowedFactors := ["totp","email"], enforcement := .allUsers, minimumFactors := 1, requiredFactors := ["totp"] }

/-- Who knows the password alone starts a one-time password of his own in the challenge and gives its code. -/
def takeover : List (Event Request Input) :=
  passwordLogin 3000 ++ alone (.challenge 3 .totpStart) 5 { secondsLater 3000 with secret := [9] } ++
    alone (.challenge 3 (.verify 4 (plainLibrary.generate [9] 100))) 11 (secondsLater 3000)

end GrassWorker.Logins
