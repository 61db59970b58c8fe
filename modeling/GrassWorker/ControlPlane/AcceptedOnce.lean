import GrassWorker.ControlPlane.Invitations

/-! Which invitations are accepted, and what becomes of an acceptance. A token is spent when it is accepted or
replaced; whoever renews an invitation writes its row without having locked it before he checked the membership. -/
namespace GrassWorker.Teams
open Interleaving Runs

def Happening.spent : Happening → Token
  | .replaced token => token
  | .accepted token _ => token

def Happening.acceptedToken : Happening → Option Token
  | .accepted token _ => some token
  | _ => none

def Happening.acceptedId : Happening → Option Uuid
  | .accepted _ invitationId => some invitationId
  | _ => none

def SpentOnce (log : List Happening) : Prop :=
  log.Pairwise fun earlier later => ∀ token ∈ later.acceptedToken, earlier.spent ≠ token

def owners (members : Members) : List TeamMember := members.rows.filter fun member => member.role = .owner

/-- An invitation about to be renewed, and what there was when the membership was checked. -/
def Handler.renewal : Handler → Option (Look × TeamInvitation)
  | .writeInvitation _ look (some row) _ => some (look,row)
  | _ => none

/-- `holds` of the row a renewal is about to write, if the row says that the invitation was accepted. -/
def Renewing (holds : Shared → Look → TeamInvitation → Prop) (input : Input) (s : Shared) (handler : Handler) : Prop :=
  input.fails = false → ∀ renewal ∈ handler.renewal, Lock.invitation renewal.2.id ∉ s.locks →
    ∀ current ∈ s.invitations.find renewal.2.id, current.status = .accepted → holds s renewal.1 current

instance (holds : Shared → Look → TeamInvitation → Prop) [∀ s look current, Decidable (holds s look current)] (input : Input)
    (s : Shared) (handler : Handler) : Decidable (Renewing holds input s handler) :=
  inferInstanceAs (Decidable (_ → ∀ renewal ∈ handler.renewal, _ → ∀ current ∈ s.invitations.find renewal.2.id, _ → _))

def AcceptedBefore (s : Shared) (look : Look) (current : TeamInvitation) : Prop :=
  ∀ happening ∈ s.log.drop look.happened, happening.acceptedId ≠ some current.id

instance (s : Shared) (look : Look) (current : TeamInvitation) : Decidable (AcceptedBefore s look current) :=
  inferInstanceAs (Decidable (∀ happening ∈ s.log.drop look.happened, _))

def AsLookedAt (_ : Shared) (look : Look) (current : TeamInvitation) : Prop := look.row = some current

instance (s : Shared) (look : Look) (current : TeamInvitation) : Decidable (AsLookedAt s look current) :=
  inferInstanceAs (Decidable (look.row = some current))

structure Sound (s : Shared) : Prop where
  tokens : ∀ row ∈ s.invitations.rows, ∀ token ∈ row.tokenHash, token < s.drawn
  logged : ∀ happening ∈ s.log, happening.spent < s.drawn
  pending : ∀ row ∈ s.invitations.rows, row.status = .pending → ∀ token ∈ row.tokenHash,
    ∀ happening ∈ s.log, happening.spent ≠ token
  accepted : ∀ row ∈ s.invitations.rows, row.status = .accepted →
    ∃ token, row.tokenHash = some token ∧ Happening.accepted token row.id ∈ s.log
  roles : ∀ row ∈ s.invitations.rows, row.role ≠ .owner
  once : SpentOnce s.log

/-- If the invitation had been accepted when it was looked at, and was accepted since, it has another token. -/
def Looked (s : Shared) (look : Look) : Prop :=
  look.happened ≤ s.log.length ∧ ∀ row ∈ look.row, row.status = .accepted →
    ∃ token, row.tokenHash = some token ∧ Happening.accepted token row.id ∈ s.log ∧
      ∀ happening ∈ s.log.drop look.happened, happening.acceptedId = some row.id →
        ∀ current ∈ s.invitations.find row.id, current.tokenHash ≠ some token

def Relies (s : Shared) : Handler → Prop
  | .checkMembership params _ => params.role ≠ .owner
  | .findInvitation params look | .writeInvitation params look _ _ => params.role ≠ .owner ∧ Looked s look
  | .readAccepting invitation _ => s.invitations.find invitation.id = some invitation ∧ invitation.tokenHash.isSome
  | .checkAccepting invitation _ | .insertMember invitation _ =>
    s.invitations.find invitation.id = some invitation ∧ invitation.tokenHash.isSome ∧ invitation.status = .pending
  | .changeMember member _ => s.members.find member.id = some member
  | _ => True

section Step
variable {input : Input} {s s' : Shared} {handler other : Handler} {rest : Option Handler}

theorem same_of_token {invitations : Invitations} {first second : TeamInvitation} {token : Token}
    (left : first ∈ invitations.rows) (right : second ∈ invitations.rows) (one : first.tokenHash = some token)
    (two : second.tokenHash = some token) : first = second := by
  have indexed : ∀ row : TeamInvitation, row.tokenHash = some token →
      (Sum.inr token : (Uuid × Text) ⊕ Token) ∈
        Sum.inl (row.teamId,row.email) :: (row.tokenHash.map Sum.inr).toList := by
    intro row has
    simp [has]
  exact invitations.same_of_entry left right (indexed first one) (indexed second two)

theorem acts_invitation (acts : Acts input s handler s' rest) (apart : Apart Handler.guards Shared.locks s handler other)
    {id : Uuid} (mine : Lock.invitation id ∈ other.guards) {row : TeamInvitation} (found : s.invitations.find id = some row) :
    s'.invitations.find id = some row := by
  obtain ⟨taken,disjoint⟩ := apart
  cases acts with
  | renewed params look old current now invitations free there updated =>
    have different : id ≠ old.id := by
      rintro rfl
      exact free (Multiset.mem_of_le taken mine)
    rw [Table.find_update updated,if_neg different]
    exact found
  | created params look now invitations inserted =>
    have different : id ≠ (newInvitation s.drawn params s.drawn now).id := by
      rintro rfl
      rw [Table.find_before_insert inserted] at found
      cases found
    rw [Table.find_insert inserted,if_neg different]
    exact found
  | accepted invitation userId members invitations inserted updated =>
    have different : id ≠ invitation.id := by
      rintro rfl
      exact Multiset.disjoint_left.mp disjoint (Multiset.mem_singleton_self _) mine
    rw [Table.find_update updated,if_neg different]
    exact found
  | _ => exact found

theorem acts_member (acts : Acts input s handler s' rest) (apart : Apart Handler.guards Shared.locks s handler other)
    {id : Uuid} (mine : Lock.member id ∈ other.guards) {row : TeamMember} (found : s.members.find id = some row) :
    s'.members.find id = some row := by
  cases acts with
  | accepted invitation userId members invitations inserted updated =>
    have different : id ≠ (invitation.acceptedBy s.drawn userId input.now).id := by
      rintro rfl
      rw [Table.find_before_insert inserted] at found
      cases found
    rw [Table.find_insert inserted,if_neg different]
    exact found
  | changed member role members kept managed updated =>
    have different : id ≠ member.id := by
      rintro rfl
      exact Multiset.disjoint_left.mp apart.2 (Multiset.mem_singleton_self _) mine
    rw [Table.find_update updated,if_neg different]
    exact found
  | _ => exact found

theorem Looked.later (acts : Acts input s handler s' rest) (sound : Sound s) (relies : Relies s handler) {look : Look}
    (looked : Looked s look) : Looked s' look := by
  obtain ⟨past,known⟩ := looked
  cases acts with
  | renewed params looks old current now invitations free there updated =>
    refine ⟨by dsimp only; rw [List.length_append]; omega,fun row seen accepted => ?_⟩
    obtain ⟨token,has,logged,since⟩ := known row seen accepted
    refine ⟨token,has,List.mem_append_left _ logged,?_⟩
    dsimp only
    rw [List.drop_append_of_le_length past]
    intro happening member same next found
    have reached : happening ∈ s.log.drop look.happened := by
      rcases List.mem_append.mp member with earlier | replaced
      · exact earlier
      · obtain ⟨_,_,rfl⟩ := by simpa using replaced
        cases same
    rw [Option.mem_def,Table.find_update updated] at found
    split at found
    · obtain ⟨before,_,rfl⟩ := Option.map_eq_some_iff.mp found
      have fresh := sound.logged _ logged
      intro again
      cases again
      exact absurd fresh (lt_irrefl _)
    · exact since happening reached same next found
  | created params looks now invitations inserted =>
    refine ⟨past,fun row seen accepted => ?_⟩
    obtain ⟨token,has,logged,since⟩ := known row seen accepted
    refine ⟨token,has,logged,fun happening member same next found => ?_⟩
    rw [Option.mem_def,Table.find_insert inserted] at found
    split at found
    · cases found
      have fresh := sound.logged _ logged
      intro again
      cases again
      exact absurd fresh (lt_irrefl _)
    · exact since happening member same next found
  | accepted invitation userId members invitations inserted updated =>
    obtain ⟨mine,hashed,pending⟩ := relies
    obtain ⟨token',hash⟩ := Option.isSome_iff_exists.mp hashed
    refine ⟨by dsimp only; rw [List.length_append]; omega,fun row seen accepted => ?_⟩
    obtain ⟨token,has,logged,since⟩ := known row seen accepted
    have differs : token' ≠ token := by
      rintro rfl
      exact sound.pending invitation (Table.find_mem mine) pending token' hash _ logged rfl
    refine ⟨token,has,List.mem_append_left _ logged,?_⟩
    dsimp only
    rw [List.drop_append_of_le_length past]
    intro happening member same next found
    rw [Option.mem_def,Table.find_update updated] at found
    split at found
    · rename_i this
      rw [this,mine] at found
      cases found
      dsimp only
      rw [hash]
      exact fun again => differs (Option.some.inj again)
    · rename_i other
      rcases List.mem_append.mp member with earlier | new
      · exact since happening earlier same next found
      · rw [hash] at new
        rw [List.mem_singleton.mp new] at same
        exact absurd (Option.some.inj same).symm other
  | _ => exact ⟨past,known⟩

theorem Relies.apart (acts : Acts input s handler s' rest) (sound : Sound s) (relies : Relies s handler)
    (apart : Apart Handler.guards Shared.locks s handler other) (relied : Relies s other) : Relies s' other := by
  cases other with
  | checkMembership => exact relied
  | findInvitation | writeInvitation => exact ⟨relied.1,relied.2.later acts sound relies⟩
  | readAccepting | checkAccepting | insertMember =>
    exact ⟨acts_invitation acts apart (Multiset.mem_singleton_self _) relied.1,relied.2⟩
  | changeMember => exact acts_member acts apart (Multiset.mem_singleton_self _) relied
  | _ => trivial

theorem looked_now (sound : Sound s) (teamId : Uuid) (email : Text) :
    Looked s ⟨s.log.length,invitationByEmail s.invitations teamId email⟩ := by
  refine ⟨le_refl _,fun row seen accepted => ?_⟩
  obtain ⟨token,has,logged⟩ := sound.accepted row (List.mem_of_find?_eq_some seen) accepted
  refine ⟨token,has,logged,?_⟩
  dsimp only
  rw [List.drop_length]
  intro happening member
  cases member

theorem relies_next (acts : Acts input s handler s' rest) (sound : Sound s) (relies : Relies s handler) :
    ∀ next, rest = some next → Relies s' next := by
  rintro next rfl
  cases acts with
  | waits => exact relies
  | invites params invited managed => exact managed
  | looks params invited => exact ⟨relies,looked_now sound params.teamId params.email⟩
  | reads params look => exact relies
  | locked token userId row found free =>
    obtain ⟨member,hash⟩ := invitationByTokenHash_some found
    exact ⟨Table.find_of_mem member,by rw [hash]; rfl⟩
  | validated invitation userId pending => exact ⟨relies.1,relies.2,pending⟩
  | stranger invitation userId => exact relies
  | lockedMember teamId userId role member found free => exact Table.find_of_mem (List.mem_of_find?_eq_some found)

theorem mem_replaced {row : TeamInvitation} {happening : Happening}
    (member : happening ∈ (row.tokenHash.map Happening.replaced).toList) :
    ∃ token, row.tokenHash = some token ∧ happening = .replaced token := by
  obtain ⟨token,has,rfl⟩ := Option.map_eq_some_iff.mp (Option.mem_toList.mp member)
  exact ⟨token,has,rfl⟩

theorem acts_sound (acts : Acts input s handler s' rest) (sound : Sound s) (relies : Relies s handler) : Sound s' := by
  cases acts with
  | renewed params look old current now invitations free there updated =>
    have rows : ∀ row ∈ invitations.rows, row ∈ s.invitations.rows ∧ row.id ≠ old.id ∨ row = current.renewed params s.drawn now := by
      intro row member
      have found := Table.find_update updated row.id
      rw [Table.find_of_mem member] at found
      split at found
      · rename_i same
        rw [same,there] at found
        exact .inr (Option.some.inj found)
      · rename_i different
        exact .inl ⟨Table.find_mem found.symm,different⟩
    have member := Table.find_mem there
    refine ⟨?_,?_,?_,?_,?_,?_⟩
    · intro row inside token has
      rcases rows row inside with ⟨kept,_⟩ | rfl
      · exact (sound.tokens row kept token has).trans (Nat.lt_succ_self _)
      · cases has
        exact Nat.lt_succ_self _
    · intro happening logged
      rcases List.mem_append.mp logged with earlier | new
      · exact (sound.logged happening earlier).trans (Nat.lt_succ_self _)
      · obtain ⟨token,has,rfl⟩ := mem_replaced new
        exact (sound.tokens current member token has).trans (Nat.lt_succ_self _)
    · intro row inside pending token has happening logged same
      rcases rows row inside with ⟨kept,different⟩ | rfl
      · rcases List.mem_append.mp logged with earlier | new
        · exact sound.pending row kept pending token has happening earlier same
        · obtain ⟨replaced,had,rfl⟩ := mem_replaced new
          cases same
          exact different ((same_of_token kept member has had) ▸ Table.find_key there)
      · cases has
        rcases List.mem_append.mp logged with earlier | new
        · exact absurd (same ▸ sound.logged happening earlier) (lt_irrefl _)
        · obtain ⟨replaced,had,rfl⟩ := mem_replaced new
          exact absurd (same ▸ sound.tokens current member replaced had) (lt_irrefl _)
    · intro row inside accepted
      rcases rows row inside with ⟨kept,_⟩ | rfl
      · obtain ⟨token,has,logged⟩ := sound.accepted row kept accepted
        exact ⟨token,has,List.mem_append_left _ logged⟩
      · cases accepted
    · intro row inside
      rcases rows row inside with ⟨kept,_⟩ | rfl
      · exact sound.roles row kept
      · exact relies.1
    · refine List.pairwise_append.mpr ⟨sound.once,?_,?_⟩
      · cases current.tokenHash <;> simp
      · intro earlier _ later new token accepted
        obtain ⟨replaced,_,rfl⟩ := mem_replaced new
        cases accepted
  | created params look now invitations inserted =>
    have rows : ∀ row ∈ invitations.rows, row ∈ s.invitations.rows ∨ row = newInvitation s.drawn params s.drawn now := by
      intro row member
      rw [Table.rows_insert inserted] at member
      exact (List.mem_append.mp member).imp_right List.mem_singleton.mp
    refine ⟨?_,fun happening logged => (sound.logged happening logged).trans (Nat.lt_succ_self _),?_,?_,?_,sound.once⟩
    · intro row inside token has
      rcases rows row inside with kept | rfl
      · exact (sound.tokens row kept token has).trans (Nat.lt_succ_self _)
      · cases has
        exact Nat.lt_succ_self _
    · intro row inside pending token has happening logged same
      rcases rows row inside with kept | rfl
      · exact sound.pending row kept pending token has happening logged same
      · cases has
        exact absurd (same ▸ sound.logged happening logged) (lt_irrefl _)
    · intro row inside accepted
      rcases rows row inside with kept | rfl
      · exact sound.accepted row kept accepted
      · cases accepted
    · intro row inside
      rcases rows row inside with kept | rfl
      · exact sound.roles row kept
      · exact relies.1
  | accepted invitation userId members invitations inserted updated =>
    obtain ⟨mine,hashed,pending⟩ := relies
    obtain ⟨token,hash⟩ := Option.isSome_iff_exists.mp hashed
    have member := Table.find_mem mine
    have rows : ∀ row ∈ invitations.rows, row ∈ s.invitations.rows ∧ row.id ≠ invitation.id ∨
        row = { invitation with status := .accepted, acceptedAt := some input.now } := by
      intro row inside
      have found := Table.find_update updated row.id
      rw [Table.find_of_mem inside] at found
      split at found
      · rename_i same
        rw [same,mine] at found
        exact .inr (Option.some.inj found)
      · rename_i different
        exact .inl ⟨Table.find_mem found.symm,different⟩
    rw [hash]
    refine ⟨?_,?_,?_,?_,?_,?_⟩
    · intro row inside token has
      rcases rows row inside with ⟨kept,_⟩ | rfl
      · exact (sound.tokens row kept token has).trans (Nat.lt_succ_self _)
      · exact (sound.tokens invitation member token has).trans (Nat.lt_succ_self _)
    · intro happening logged
      rcases List.mem_append.mp logged with earlier | new
      · exact (sound.logged happening earlier).trans (Nat.lt_succ_self _)
      · rw [List.mem_singleton.mp new]
        exact (sound.tokens invitation member token hash).trans (Nat.lt_succ_self _)
    · intro row inside open' other has happening logged same
      rcases rows row inside with ⟨kept,different⟩ | rfl
      · rcases List.mem_append.mp logged with earlier | new
        · exact sound.pending row kept open' other has happening earlier same
        · rw [List.mem_singleton.mp new] at same
          cases same
          exact different (congrArg TeamInvitation.id (same_of_token kept member has hash))
      · cases open'
    · intro row inside accepted
      rcases rows row inside with ⟨kept,_⟩ | rfl
      · obtain ⟨other,has,logged⟩ := sound.accepted row kept accepted
        exact ⟨other,has,List.mem_append_left _ logged⟩
      · exact ⟨token,hash,List.mem_append_right _ (List.mem_singleton_self _)⟩
    · intro row inside
      rcases rows row inside with ⟨kept,_⟩ | rfl
      · exact sound.roles row kept
      · exact sound.roles invitation member
    · refine List.pairwise_append.mpr ⟨sound.once,List.pairwise_singleton _ _,?_⟩
      intro earlier logged later new other accepted
      rw [List.mem_singleton.mp new] at accepted
      cases accepted
      exact sound.pending invitation member pending token hash earlier logged
  | _ => exact ⟨sound.tokens,sound.logged,sound.pending,sound.accepted,sound.roles,sound.once⟩

theorem acts_owners (acts : Acts input s handler s' rest) (sound : Sound s) (relies : Relies s handler) :
    owners s'.members = owners s.members := by
  cases acts with
  | accepted invitation userId members invitations inserted updated =>
    have role := sound.roles invitation (Table.find_mem relies.1)
    simp only [owners]
    rw [Table.rows_insert inserted,List.filter_append]
    simp [TeamInvitation.acceptedBy,role]
  | changed member role members kept managed updated =>
    have spared : ∀ row ∈ s.members.rows, row.id = member.id →
        row.role ≠ .owner ∧ (row.changed role input.now).role ≠ .owner := by
      intro row inside same
      have this : row = member := s.members.same_of_key inside (Table.find_mem relies) same
      subst this
      refine ⟨kept,?_⟩
      cases role with
      | none => exact kept
      | some role => exact fun owner => managed (congrArg some owner)
    simp only [owners]
    rw [Table.rows_update updated,List.filter_map]
    calc _ = (s.members.rows.filter fun row => row.role = .owner).map
          (fun row => if row.id = member.id then row.changed role input.now else row) := by
          congr 1
          refine List.filter_congr fun row inside => ?_
          by_cases same : row.id = member.id
          · simp [same,spared row inside same]
          · simp [same]
      _ = s.members.rows.filter fun row => row.role = .owner := by
          refine (List.map_congr_left fun row inside => ?_).trans (List.map_id _)
          obtain ⟨inside,owner⟩ := List.mem_filter.mp inside
          refine if_neg fun same => (spared row inside same).1 ?_
          simpa using owner
  | _ => rfl

theorem act_locking (held : handler.guards ≤ s.locks) (acts : Acts input s handler s' rest) :
    Locking s.locks handler.guards s'.locks (Interleaving.rest Handler.guards rest) := by
  cases acts with
  | waits => exact .keep
  | ends => exact .leave _ (Multiset.sub_add_cancel held)
  | invites | looks | reads | validated | stranger | renewed | created | users => exact .keep
  | locked token userId row found free => exact .take _ free
  | lockedMember teamId userId role member found free => exact .take _ free
  | accepted | changed => exact .leave _ (Multiset.sub_add_cancel held)

end Step

theorem accepted_before {s : Shared} {look : Look} {id : Uuid} {current : TeamInvitation} (looked : Looked s look)
    (same : AsLookedAt s look current) (found : s.invitations.find id = some current) (accepted : current.status = .accepted) :
    AcceptedBefore s look current := by
  obtain ⟨token,has,_,since⟩ := looked.2 current same accepted
  intro happening member this
  have here : s.invitations.find current.id = some current := (Table.find_key found).symm ▸ found
  exact since happening member this current here has

/-- What every step keeps: what is sound, what each handler relies on, and the locks. -/
def Kept (members : Members) (config : Config Shared Handler) : Prop :=
  Holds (fun s => Sound s ∧ owners s.members = owners members) Relies config ∧ Guarded Handler.guards Shared.locks config

theorem Kept.step {members : Members} {config : Config Shared Handler} (kept : Kept members config)
    (event : Event Request Input) : Kept members (machine.step config event) := by
  obtain ⟨holds,guarded⟩ := kept
  refine ⟨?_,?_⟩
  · refine Holds.step_apart ?_ ?_ ?_ config event holds (guarded.acting_apart event (acting_true config event))
    · intro s request _
      cases request <;> trivial
    · intro input s handler _ state relies
      have acts := act_acts input s handler
      exact ⟨⟨acts_sound acts state.1 relies,(acts_owners acts state.1 relies).trans state.2⟩,
        relies_next acts state.1 relies⟩
    · intro input s handler other _ apart state relies relied
      exact Relies.apart (act_acts input s handler) state.1 relies apart relied
  · refine guarded.step_locking ?_ ?_ event
    · intro request
      cases request <;> rfl
    · exact fun input s handler held => act_locking held (act_acts input s handler)

/-- In every run, also where renewals are not as they were looked at, nobody becomes an owner by an invitation, none
offers to make him one, and an invitation is accepted only by a token that was spent on it. -/
theorem invitations_spare_owners (users : List Authentication.User) (members : Members) (drawn : Nat)
    (events : List (Event Request Input)) :
    Throughout machine.step (fun config => owners config.shared.members = owners members ∧
      ∀ row ∈ config.shared.invitations.rows, row.role ≠ .owner ∧
        (row.status = .accepted → ∃ token, row.tokenHash = some token ∧ Happening.accepted token row.id ∈ config.shared.log))
      (idle users members drawn) events := by
  have start : Kept members (idle users members drawn) := by
    refine ⟨⟨⟨⟨?_,?_,?_,?_,?_,List.Pairwise.nil⟩,rfl⟩,?_⟩,rfl,Multiset.nodup_zero⟩ <;>
    · intro _ member
      cases member
  refine throughout_of_invariant (fun config event kept _ => kept.step event) (fun config kept => ?_) _ events start (along_true _ events)
  obtain ⟨sound,same⟩ := kept.1.state
  exact ⟨same,fun row member => ⟨sound.roles row member,sound.accepted row member⟩⟩

/-- In every run no token is accepted after it was accepted or replaced, and the owners stay who they are; and
an acceptance is not undone as long as no renewal finds an invitation accepted that was not so, in every column,
when it checked the membership. -/
theorem invitations_accepted_once (users : List Authentication.User) (members : Members) (drawn : Nat)
    (events : List (Event Request Input))
    (unchanged : Along machine.step (Acting (Renewing AsLookedAt)) (idle users members drawn) events) :
    Throughout machine.step (fun config => SpentOnce config.shared.log ∧ owners config.shared.members = owners members)
      (idle users members drawn) events ∧
    Along machine.step (Acting (Renewing AcceptedBefore)) (idle users members drawn) events := by
  have start : Kept members (idle users members drawn) := by
    refine ⟨⟨⟨⟨?_,?_,?_,?_,?_,List.Pairwise.nil⟩,rfl⟩,?_⟩,rfl,Multiset.nodup_zero⟩ <;>
    · intro _ member
      cases member
  have kept : ∀ config event, Kept members config → Acting (Renewing AsLookedAt) config event →
      Kept members (machine.step config event) := fun config event kept _ => kept.step event
  refine ⟨throughout_of_invariant kept (fun config kept => ⟨kept.1.state.1.once,kept.1.state.2⟩) _ _ start unchanged,
    along_of_invariant kept ?_ _ _ start unchanged⟩
  intro config event kept meets
  cases event with
  | arrive request => trivial
  | resume index input =>
    intro handler found live renewal member free current there accepted
    have relies := kept.1.handlers handler (List.mem_of_getElem? found)
    cases handler with
    | writeInvitation params look existing now =>
      cases existing with
      | none => cases member
      | some row =>
        cases member
        have same := meets _ found live (look,row) rfl free current there accepted
        exact accepted_before relies.2 same there accepted
    | _ => cases member

def guest : List Authentication.User := [⟨2,['g','@','b','.','c'],.active,1,.user,some 0,none,none⟩]

def founded : Members := ⟨[⟨1,1,1,.owner,none,0,none⟩],by decide,by decide⟩

def inviting : Event Request Input := .arrive (.createInvitation ⟨1,['g','@','b','.','c'],.member,1,.open⟩)

def actions (index count : Nat) : List (Event Request Input) := List.replicate count (.resume index { now := 1000000 })

/-- A renewal checks the membership, the invitation is accepted, and then the renewal writes it. -/
def crossed : List (Event Request Input) :=
  inviting :: actions 0 4 ++ inviting :: actions 0 3 ++ .arrive (.acceptInvitation 10 2) :: actions 1 4 ++ actions 0 1

/-- The acceptance is undone, and there is a member whose invitation is pending. -/
theorem renewal_undoes_acceptance :
    ¬Along machine.step (Acting (Renewing AcceptedBefore)) (idle guest founded 10) crossed ∧
      ((run machine.step (idle guest founded 10) crossed).shared.invitations.rows.map TeamInvitation.status = [.pending] ∧
        (run machine.step (idle guest founded 10) crossed).shared.members.rows.length = 2) := by
  decide

/-- An invitation is renewed once the member it was accepted by has been removed. -/
theorem invitations_accepted_once_renewed :
    Throughout machine.step (fun config => SpentOnce config.shared.log ∧ owners config.shared.members = owners founded)
      (idle guest founded 10)
      (inviting :: actions 0 4 ++ .arrive (.acceptInvitation 10 2) :: actions 0 4 ++
        .arrive (.removeMember 1 2) :: actions 0 2 ++ inviting :: actions 0 4) ∧
    Along machine.step (Acting (Renewing AcceptedBefore)) (idle guest founded 10)
      (inviting :: actions 0 4 ++ .arrive (.acceptInvitation 10 2) :: actions 0 4 ++
        .arrive (.removeMember 1 2) :: actions 0 2 ++ inviting :: actions 0 4) :=
  invitations_accepted_once guest founded 10 _ (by decide)

end GrassWorker.Teams
