import GrassWorker.ControlPlane.Issuance

/-! Fencing of issuances by the generation of a record: which attempt may store a bundle,
and whose challenge a record holds. -/
namespace GrassWorker.IssuanceFencing
open Interleaving Runs Transaction ManagedCertificates Acme Ingress Issuance

structure Owned (item row : ManagedCertificate) : Prop where
  hostname : row.hostname = item.hostname
  ingressId : row.ingressId = item.ingressId
  issuer : row.issuer = item.issuer
  bundle : row.bundle = item.bundle

theorem Owned.refl (row : ManagedCertificate) : Owned row row := ⟨rfl,rfl,rfl,rfl⟩

theorem Owned.trans {first second third : ManagedCertificate} (one : Owned first second) (two : Owned second third) :
    Owned first third :=
  ⟨two.hostname.trans one.hostname,two.ingressId.trans one.ingressId,two.issuer.trans one.issuer,
    two.bundle.trans one.bundle⟩

def Challenged (row : ManagedCertificate) : Prop :=
  row.challengeToken.isSome ∨ row.challengeValue.isSome ∨ row.challengeExpiresAt.isSome

instance (row : ManagedCertificate) : Decidable (Challenged row) :=
  inferInstanceAs (Decidable (row.challengeToken.isSome ∨ row.challengeValue.isSome ∨ row.challengeExpiresAt.isSome))

/-- Every challenge that is set was written by the attempt of the current generation. -/
def Attributed (s : Shared) : Prop :=
  ∀ row ∈ s.db.certificates.rows, Challenged row → s.writer row.id = some row.generation

instance (s : Shared) : Decidable (Attributed s) :=
  inferInstanceAs (Decidable (∀ row ∈ s.db.certificates.rows, Challenged row → s.writer row.id = some row.generation))

def storing (config : Config Shared Handler) : Event Request Input → Option Attempt
  | .arrive _ => none
  | .resume index input =>
    match config.inflight[index]? with
    | some (.attempting attempt (.storing _ _ _)) =>
      if input.crashes ∨ input.fails ∨ current config.shared.db attempt.item = none then none else some attempt
    | _ => none

def StoresOwn (config : Config Shared Handler) (event : Event Request Input) : Prop :=
  ∀ attempt ∈ storing config event, ∃ row, config.shared.db.certificates.find attempt.item.id = some row ∧
    row.generation = attempt.item.generation ∧ Owned attempt.item row

def settled (input : Input) (s : Shared) : Handler → Prop
  | .renewing certificate => input.crashes ∨ input.fails ∨ ∀ row ∈ s.db.certificates.find certificate,
      queueable input.now row → ¬Challenged row
  | .updating item body => input.crashes ∨ input.fails ∨ ∀ row ∈ s.db.certificates.find item.id,
      updatable input.now s.db.authority item body row → ¬Challenged row
  | .starting item ingress => input.crashes ∨ input.fails ∨ ∀ row ∈ s.db.certificates.find item.id,
      ∀ found ∈ s.db.ingresses.find ingress, ∀ connection ∈ row.hostBindingId.bind s.db.onboarding.find,
        startable s.db item row found connection input.now → ¬Challenged row
  | _ => True

instance : ∀ input s handler, Decidable (settled input s handler)
  | input, s, .renewing certificate =>
    inferInstanceAs (Decidable (input.crashes ∨ input.fails ∨ ∀ row ∈ s.db.certificates.find certificate,
      queueable input.now row → ¬Challenged row))
  | input, s, .updating item body =>
    inferInstanceAs (Decidable (input.crashes ∨ input.fails ∨ ∀ row ∈ s.db.certificates.find item.id,
      updatable input.now s.db.authority item body row → ¬Challenged row))
  | input, s, .starting item ingress =>
    inferInstanceAs (Decidable (input.crashes ∨ input.fails ∨ ∀ row ∈ s.db.certificates.find item.id,
      ∀ found ∈ s.db.ingresses.find ingress, ∀ connection ∈ row.hostBindingId.bind s.db.onboarding.find,
        startable s.db item row found connection input.now → ¬Challenged row))
  | _, _, .arrived _ | _, _, .importing _ _ | _, _, .sweeping _ _ | _, _, .sweepClearing _ _ | _, _, .attempting _ _ =>
    isTrue trivial

def Drawn (s after : Shared) (generation : Uuid) : Prop := s.nextUuid ≤ generation ∧ generation < after.nextUuid

/-- What an action may make of a row: it keeps the generation and overwrites nothing but a bundle that
the generation is then known to have stored, or it gives the row a new generation. -/
inductive Becomes (settled : Prop) (s after : Shared) (row next : ManagedCertificate) : Prop
  | kept (generation : next.generation = row.generation) (owned : Owned row next ∨ row.generation ∈ after.stored)
      (challenge : Challenged next → after.writer next.id = some next.generation ∨
        Challenged row ∧ after.writer next.id = s.writer row.id)
  | renewed (drawn : Drawn s after next.generation) (unset : settled → ¬Challenged next)

def Born (s after : Shared) (next : ManagedCertificate) : Prop := Drawn s after next.generation ∧ ¬Challenged next

abbrev Evolved (settled : Prop) (s after : Shared) : Prop :=
  Table.Evolves (Becomes settled s after) (Born s after) s.db.certificates after.db.certificates

section Rows
variable {settled : Prop} {s after : Shared}

theorem Evolved.of_same (certificates : after.db.certificates = s.db.certificates) (writers : after.writers = s.writers) :
    Evolved settled s after := by
  unfold Evolved
  rw [certificates]
  refine Table.evolves_refl ?_ _
  intro row
  refine .kept rfl (.inl (Owned.refl row)) fun challenged => .inr ⟨challenged,?_⟩
  rw [Shared.writer,Shared.writer,writers]

theorem Evolved.of_update {id : Uuid} {change : ManagedCertificate → ManagedCertificate}
    {keeps : ∀ row, (change row).id = row.id}
    (updated : s.db.certificates.update id change keeps = some after.db.certificates)
    (writers : ∀ other, other ≠ id → after.writer other = s.writer other)
    (here : ∀ row, s.db.certificates.find id = some row → Becomes settled s after row (change row)) :
    Evolved settled s after := by
  refine (Table.evolves_update updated).mono ?_ fun _ impossible => False.elim impossible
  rintro row next member rfl
  by_cases chosen : row.id = id
  · rw [if_pos chosen]
    apply here
    rw [← chosen]
    exact Table.find_of_mem member
  · rw [if_neg chosen]
    exact .kept rfl (.inl (Owned.refl row)) fun challenged => .inr ⟨challenged,writers row.id chosen⟩

end Rows

section Transactions
variable {settled : Prop} (input : Input) (s : Shared) {α : Type}

theorem drawing_evolved {transaction : Transaction IngressDatabase String α} {next : α → Option Handler}
    (ensured : input.fails = false → Ensures transaction s.db fun _ db =>
      Evolved settled s { s with db, nextUuid := s.nextUuid + 2 }) :
    Evolved settled s (drawing input s transaction next).1 := by
  unfold drawing
  cases outcome : ran input s transaction with
  | none => exact .of_same rfl rfl
  | some result => exact (ran_ensures input s outcome ensured).2

theorem drawn_first (db : IngressDatabase) : Drawn s { s with db, nextUuid := s.nextUuid + 2 } s.nextUuid :=
  ⟨Nat.le_refl _,Nat.lt_add_of_pos_right (by decide)⟩

theorem drawn_second (db : IngressDatabase) : Drawn s { s with db, nextUuid := s.nextUuid + 2 } (s.nextUuid + 1) :=
  ⟨Nat.le_succ _,Nat.lt_succ_self _⟩

theorem updateCertificate_evolved {id : Uuid} {change : ManagedCertificate → ManagedCertificate}
    {keeps : ∀ row, (change row).id = row.id}
    (drawn : ∀ db row, Drawn s { s with db, nextUuid := s.nextUuid + 2 } (change row).generation)
    (unset : settled → ∀ row ∈ s.db.certificates.find id, ¬Challenged (change row)) :
    Ensures (updateCertificate id change keeps) s.db fun _ db =>
      Evolved settled s { s with db, nextUuid := s.nextUuid + 2 } := by
  rw [ensures_updateCertificate]
  intro certificates row found updated
  refine .of_update updated (fun _ _ => rfl) fun row found => .renewed (drawn _ row) fun holds => ?_
  exact unset holds row found

variable (now : Timestamp)

theorem moved_renewed (hostname : String) (ingressId fresh : Uuid) (row : ManagedCertificate) :
    (moved fresh hostname ingressId row).generation = fresh ∧ ¬Challenged (moved fresh hostname ingressId row) := by
  unfold moved
  dsimp only
  split <;> exact ⟨rfl,by simp [Challenged,clearChallenge]⟩

theorem settingsColumns_renewed (fresh : Uuid) (body : SettingsRequest) (item row : ManagedCertificate) :
    (settingsColumns fresh body item row).generation = fresh ∧
      (Challenged (settingsColumns fresh body item row) ↔ Challenged row) := by
  unfold settingsColumns
  dsimp only
  split <;> exact ⟨rfl,Iff.rfl⟩

theorem ensureRecord_evolved (ingress : Uuid) (binding : HostBinding) :
    Ensures (ensureRecord now s.nextUuid ingress binding) s.db fun _ db =>
      Evolved settled s { s with db, nextUuid := s.nextUuid + 2 } := by
  simp only [ensureRecord,ensures_bind,ensures_query,ensures_orElse]
  intro found _
  cases present : s.db.certificates.find binding.id with
  | none =>
    simp only [ensures_bind,ensures_query,ensures_orElse]
    intro connection _
    rw [ensures_insertCertificate]
    intro certificates inserted
    refine (Table.evolves_insert inserted).mono ?_ ?_
    · rintro _ row _ rfl
      exact .kept rfl (.inl (Owned.refl row)) fun challenged => .inr ⟨challenged,rfl⟩
    · rintro _ rfl
      exact ⟨drawn_first s _,by simp [Challenged,newCertificate]⟩
  | some item =>
    simp only [ensures_ite,ensures_pure,ensures_bind,ensures_require]
    refine ⟨fun _ => .of_same rfl rfl,fun _ _ => ?_⟩
    apply updateCertificate_evolved
    · intro db row
      rw [(moved_renewed _ _ _ row).1]
      exact drawn_first s db
    · intro _ row _
      exact (moved_renewed _ _ _ row).2

theorem queue_evolved (id : Uuid)
    (unset : settled → ∀ row ∈ s.db.certificates.find id, queueable now row → ¬Challenged row) :
    Ensures (queue now s.nextUuid id) s.db fun _ db => Evolved settled s { s with db, nextUuid := s.nextUuid + 2 } := by
  simp only [queue,ensures_bind,ensures_query,ensures_orElse,ensures_require]
  intro item found issuer free ready
  apply updateCertificate_evolved
  · intro db _
    exact drawn_first s db
  · intro holds row member
    have chosen : queueable now row := by
      rw [found] at member
      cases member
      simp [queueable,issuer,free,ready]
    exact unset holds row member chosen

theorem importBundle_evolved (crypto : Crypto) (id : Uuid) (bundle : PemBundle) :
    Ensures (importBundle now s.nextUuid crypto id bundle) s.db fun _ db =>
      Evolved settled s { s with db, nextUuid := s.nextUuid + 2 } := by
  simp only [importBundle,ensures_bind,ensures_query,ensures_orElse,ensures_require,ensures_ofExcept]
  intro item _ _ validity _
  apply updateCertificate_evolved
  · intro db _
    exact drawn_first s db
  · intro _ row _
    simp [Challenged,importColumns,clearChallenge]

theorem updateSettings_evolved (item : ManagedCertificate) (body : SettingsRequest)
    (unset : settled → ∀ row ∈ s.db.certificates.find item.id,
      updatable now s.db.authority item body row → ¬Challenged row) :
    Ensures (updateSettings now s.nextUuid item body) s.db fun _ db =>
      Evolved settled s { s with db, nextUuid := s.nextUuid + 2 } := by
  simp only [updateSettings,ensures_bind,ensures_query,ensures_orElse,ensures_require]
  intro method issuer free row found same
  apply updateCertificate_evolved
  · intro db row
    rw [(settingsColumns_renewed _ body item row).1]
    exact drawn_first s db
  · intro holds row member
    rw [(settingsColumns_renewed _ body item row).2]
    have chosen : updatable now s.db.authority item body row := by
      rw [found] at member
      cases member
      simp only [updatable,decide_eq_true_eq]
      exact ⟨method,issuer,free,same⟩
    exact unset holds row member chosen

theorem start_evolved (item : ManagedCertificate) (ingressId : Uuid)
    (unset : settled → ∀ row ∈ s.db.certificates.find item.id, ∀ found ∈ s.db.ingresses.find ingressId,
      ∀ connection ∈ row.hostBindingId.bind s.db.onboarding.find,
        startable s.db item row found connection now → ¬Challenged row) :
    Ensures (start now s.nextUuid item ingressId) s.db fun _ db =>
      Evolved settled s { s with db, nextUuid := s.nextUuid + 2 } := by
  simp only [start,ensures_bind,ensures_query,ensures_orElse]
  intro found present row read
  rw [ensures_get]
  cases connected : row.hostBindingId.bind s.db.onboarding.find with
  | none =>
    rw [ensures_pure]
    exact .of_same rfl rfl
  | some connection =>
    simp only [ensures_get,ensures_ite,ensures_pure,ensures_bind,ensures_query]
    refine ⟨fun startable => ?_,fun _ => .of_same rfl rfl⟩
    apply updateCertificate_evolved
    · intro db _
      change Drawn _ _ (if _ then _ else _)
      split
      · exact drawn_first s db
      · exact drawn_second s db
    · intro holds other member
      rw [read] at member
      cases member
      exact unset holds row read found present connection connected startable

end Transactions

section Attempts
variable {settled : Prop} {input : Input} {s : Shared} {attempt : Attempt}

theorem saving_spec {change : ManagedCertificate → ManagedCertificate} {keeps : ∀ row, (change row).id = row.id}
    {between : Shared} (saved : saving input s attempt change keeps = some between) :
    ∃ certificates row, s.db.certificates.find attempt.item.id = some row ∧ row.generation = attempt.item.generation ∧
      s.db.certificates.update attempt.item.id change keeps = some certificates ∧
      between = { s with db := { s.db with certificates } } := by
  obtain ⟨⟨value,db⟩,ran,rfl⟩ := Option.map_eq_some_iff.mp saved
  obtain ⟨_,certificates,row,found,fenced,updated,rfl⟩ := ran_ensures input s ran fun _ => saveCurrent_spec _ _ _ _
  exact ⟨certificates,row,found,fenced,updated,rfl⟩

theorem saving_frame {change : ManagedCertificate → ManagedCertificate} {keeps : ∀ row, (change row).id = row.id}
    {between : Shared} (saved : saving input s attempt change keeps = some between) :
    between.writers = s.writers ∧ between.nextUuid = s.nextUuid ∧ between.stored = s.stored := by
  obtain ⟨_,_,_,_,_,rfl⟩ := saving_spec saved
  exact ⟨rfl,rfl,rfl⟩

theorem saving_evolved {change : ManagedCertificate → ManagedCertificate} {keeps : ∀ row, (change row).id = row.id}
    {between after : Shared} (saved : saving input s attempt change keeps = some between) (same : after.db = between.db)
    (writers : ∀ other, other ≠ attempt.item.id → after.writer other = s.writer other)
    (here : ∀ row, row.id = attempt.item.id → row.generation = attempt.item.generation →
      Becomes settled s after row (change row)) : Evolved settled s after := by
  obtain ⟨certificates,row,found,fenced,updated,rfl⟩ := saving_spec saved
  have written : s.db.certificates.update attempt.item.id change keeps = some after.db.certificates := by
    rw [same]
    exact updated
  refine .of_update written writers fun other read => ?_
  rw [found] at read
  cases read
  exact here row (Table.find_key found) fenced

structure Advanced (settled : Prop) (s after : Shared) (attempt : Attempt) (returned : Prop) : Prop where
  evolved : Evolved settled s after
  counter : after.nextUuid = s.nextUuid
  writers : ∀ entry ∈ after.writers, entry ∈ s.writers ∨ entry.2 = attempt.item.generation
  stored : after.stored = s.stored ∨ returned ∧ after.stored = s.stored ++ [attempt.item.generation]

theorem Advanced.refl (returned : Prop) : Advanced settled s s attempt returned :=
  ⟨.of_same rfl rfl,rfl,fun _ => .inl,.inl rfl⟩

theorem Advanced.mono {after : Shared} {returned wider : Prop} (advanced : Advanced settled s after attempt returned)
    (weaker : returned → wider) : Advanced settled s after attempt wider :=
  ⟨advanced.evolved,advanced.counter,advanced.writers,advanced.stored.imp_right fun stored => ⟨weaker stored.1,stored.2⟩⟩

theorem saving_advanced {change : ManagedCertificate → ManagedCertificate} {keeps : ∀ row, (change row).id = row.id}
    {after : Shared} (saved : saving input s attempt change keeps = some after) (returned : Prop)
    (generation : ∀ row, (change row).generation = row.generation) (owned : ∀ row, Owned row (change row))
    (challenge : ∀ row, Challenged (change row) → Challenged row) : Advanced settled s after attempt returned := by
  have same := saving_frame saved
  have writer : ∀ other, after.writer other = s.writer other := by
    intro other
    rw [Shared.writer,same.1]
    rfl
  refine ⟨saving_evolved saved rfl (fun other _ => writer other) fun row _ _ => ?_,same.2.1,?_,.inl same.2.2⟩
  · refine .kept (generation row) (.inl (owned row)) fun challenged => .inr ⟨challenge row challenged,?_⟩
    rw [keeps row]
    exact writer row.id
  · intro entry member
    rw [same.1] at member
    exact .inl member

theorem Advanced.of_writes {crypto : Crypto} {position : Position} {after : Shared}
    (writes : Writes crypto input s attempt position after) :
    Advanced settled s after attempt (∃ bundle validity cleaned, position = .storing bundle validity cleaned) := by
  cases writes with
  | nothing => exact .refl _
  | account saved => exact saving_advanced saved _ (fun _ => rfl) (fun _ => ⟨rfl,rfl,rfl,rfl⟩) fun _ challenged => challenged
  | challenge offer rest saved =>
    have same := saving_frame saved
    refine ⟨saving_evolved saved rfl ?_ ?_,same.2.1,?_,.inl same.2.2⟩
    · intro other different
      simp [Shared.writer,List.lookup_cons,beq_false_of_ne different,same.1]
    · intro row chosen fenced
      refine .kept rfl (.inl ⟨rfl,rfl,rfl,rfl⟩) fun _ => .inl ?_
      simp [Shared.writer,challengeColumns,chosen,fenced]
    · intro entry member
      rcases List.mem_cons.mp member with rfl | old
      · exact .inr rfl
      · rw [same.1] at old
        exact .inl old
  | cleared result saved =>
    refine saving_advanced saved _ (fun _ => rfl) (fun _ => ⟨rfl,rfl,rfl,rfl⟩) fun row challenged => ?_
    exact absurd challenged (by simp [Challenged,clearChallenge])
  | stored bundle validity cleaned saved =>
    next between =>
    have same := saving_frame saved
    have writer : ∀ other, Shared.writer { between with stored := between.stored ++ [attempt.item.generation] } other =
        s.writer other := by
      intro other
      simp [Shared.writer,same.1]
    refine ⟨saving_evolved saved rfl (fun other _ => writer other) ?_,same.2.1,?_,.inr ⟨⟨bundle,validity,cleaned,rfl⟩,?_⟩⟩
    · intro row _ fenced
      refine .kept rfl (.inr ?_) fun challenged => .inr ⟨challenged,writer row.id⟩
      simp [fenced]
    · intro entry member
      rw [same.1] at member
      exact .inl member
    · simp [same.2.2]
  | failed saved => exact saving_advanced saved _ (fun _ => rfl) (fun _ => ⟨rfl,rfl,rfl,rfl⟩) fun _ challenged => challenged

theorem attemptStep_advanced (crypto : Crypto) (position : Position) :
    Advanced settled s (attemptStep crypto input s attempt position).1 attempt
      ((attemptStep crypto input s attempt position).2 = none) := by
  refine (Advanced.of_writes (attemptStep_writes crypto input s attempt position)).mono ?_
  rintro ⟨bundle,validity,cleaned,rfl⟩
  exact attemptStep_storing crypto input s attempt bundle validity cleaned

end Attempts

def attemptOf : Handler → Option Attempt
  | .attempting attempt _ => some attempt
  | _ => none

section Actions
variable (crypto : Crypto) (input : Input) (s : Shared)

theorem arrive_evolved {settled : Prop} (request : Request) : Evolved settled s (arrive input s request).1 := by
  cases request with
  | sweep => exact .of_same rfl rfl
  | ensureRecord ingress binding | renew ingress binding | importBundle ingress binding | update ingress binding =>
    exact drawing_evolved input s fun _ => ensureRecord_evolved s input.now ingress binding
  | report node challengeRevision tlsReady =>
    simp only [arrive]
    split <;> exact .of_same rfl rfl
  | elsewhere after => exact .of_same rfl rfl

theorem advance_evolved (handler : Handler) :
    Evolved (settled input s handler) s (advance crypto input s handler).1 := by
  by_cases crashes : input.crashes
  · simp only [advance,crashes,if_true]
    exact .of_same rfl rfl
  · have left : ∀ {holds : Prop}, (input.crashes ∨ input.fails ∨ holds) → input.fails = false → holds := by
      intro holds one working
      rcases one with impossible | impossible | holds
      · exact absurd impossible crashes
      · rw [working] at impossible
        cases impossible
      · exact holds
    simp only [advance,crashes,if_false,Bool.false_eq_true]
    cases handler with
    | arrived request => exact arrive_evolved input s request
    | renewing certificate =>
      exact drawing_evolved input s fun working => queue_evolved s input.now certificate (left · working)
    | importing certificate bundle =>
      exact drawing_evolved input s fun _ => importBundle_evolved s input.now crypto certificate bundle
    | updating item body =>
      exact drawing_evolved input s fun working => updateSettings_evolved s input.now item body (left · working)
    | sweeping item ingress =>
      dsimp only
      split <;> exact .of_same rfl rfl
    | sweepClearing item ingress =>
      dsimp only
      split
      · next cleared =>
        have ensured : Ensures (clear item) s.db fun _ db => ∃ certificates row, s.db.certificates.find item.id = some row ∧
            row.generation = item.generation ∧
            s.db.certificates.update item.id clearChallenge clearChallenge_id = some certificates ∧
            db = { s.db with certificates } := by
          simp only [clear,ensures_bind,ensures_pure]
          exact saveCurrent_spec _ _ _ _
        obtain ⟨_,certificates,_,_,_,updated,rfl⟩ := ran_ensures input s cleared fun _ => ensured
        refine .of_update updated (fun _ _ => rfl) fun row _ => .kept rfl (.inl ⟨rfl,rfl,rfl,rfl⟩) fun challenged => ?_
        exact absurd challenged (by simp [Challenged,clearChallenge])
      · exact .of_same rfl rfl
    | starting item ingress =>
      exact drawing_evolved input s fun working => start_evolved s input.now item ingress (left · working)
    | attempting attempt position => exact (attemptStep_advanced crypto position).evolved

theorem drawing_frame {α : Type} (transaction : Transaction IngressDatabase String α) (next : α → Option Handler) :
    (drawing input s transaction next).1.stored = s.stored ∧ (drawing input s transaction next).1.writers = s.writers ∧
      s.nextUuid ≤ (drawing input s transaction next).1.nextUuid ∧
      ∀ rest, (drawing input s transaction next).2 = some rest → ∃ value db, ran input s transaction = some (value,db) ∧
        next value = some rest ∧ (drawing input s transaction next).1 = { s with db, nextUuid := s.nextUuid + 2 } := by
  unfold drawing
  split
  · next value db ran =>
    refine ⟨rfl,rfl,Nat.le_add_right _ _,fun rest reached => ?_⟩
    exact ⟨value,db,ran,reached,rfl⟩
  · exact ⟨rfl,rfl,Nat.le_refl _,fun rest reached => by cases reached⟩

/-- An attempt begins with its record under a generation that was just drawn. -/
def Begun (s after : Shared) (attempt : Attempt) : Prop :=
  Drawn s after attempt.item.generation ∧ after.db.certificates.find attempt.item.id = some attempt.item

theorem start_begun (now : Timestamp) (item : ManagedCertificate) (ingressId : Uuid) :
    Ensures (start now s.nextUuid item ingressId) s.db fun begun db =>
      ∀ attempt ∈ begun, Begun s { s with db, nextUuid := s.nextUuid + 2 } attempt := by
  simp only [start,ensures_bind,ensures_query,ensures_orElse]
  intro found _ row read
  rw [ensures_get]
  cases connected : row.hostBindingId.bind s.db.onboarding.find with
  | none => simp
  | some connection =>
    simp only [ensures_get,ensures_ite,ensures_pure,ensures_bind,ensures_query]
    refine ⟨fun _ => ?_,fun _ => by simp⟩
    rw [ensures_updateCertificate]
    rintro certificates old present updated attempt ⟨⟩
    constructor
    · change Drawn _ _ (if _ then _ else _)
      split
      · exact drawn_first s _
      · exact drawn_second s _
    · have same : old.id = item.id := Table.find_key present
      change certificates.find old.id = _
      rw [Table.find_update updated,if_pos same,same,present]
      rfl

structure Frame (s : Shared) (outcome : Shared × Option Handler) : Prop where
  stored : outcome.1.stored = s.stored
  writers : outcome.1.writers = s.writers
  counter : s.nextUuid ≤ outcome.1.nextUuid
  begun : ∀ rest, outcome.2 = some rest → ∀ attempt ∈ attemptOf rest,
    rest = .attempting attempt .account ∧ Begun s outcome.1 attempt

theorem Frame.of_idle {after : Shared} {next : Option Handler} (stored : after.stored = s.stored)
    (writers : after.writers = s.writers) (counter : s.nextUuid ≤ after.nextUuid)
    (idle : ∀ rest, next = some rest → attemptOf rest = none) : Frame s (after,next) := by
  refine ⟨stored,writers,counter,fun rest reached attempt member => ?_⟩
  rw [idle rest reached] at member
  cases member

theorem drawing_idle {α : Type} (transaction : Transaction IngressDatabase String α) (next : α → Option Handler)
    (idle : ∀ value rest, next value = some rest → attemptOf rest = none) : Frame s (drawing input s transaction next) := by
  obtain ⟨stored,writers,counter,reaches⟩ := drawing_frame input s transaction next
  refine .of_idle s stored writers counter fun rest reached => ?_
  obtain ⟨value,_,_,same,_⟩ := reaches rest reached
  exact idle value rest same

theorem arrive_frame (request : Request) : Frame s (arrive input s request) := by
  cases request with
  | sweep certificate ingress =>
    refine .of_idle s rfl rfl (Nat.le_refl _) fun rest reached => ?_
    obtain ⟨_,_,rfl⟩ := Option.map_eq_some_iff.mp reached
    rfl
  | ensureRecord ingress binding => exact drawing_idle input s _ _ fun _ _ reached => by cases reached
  | renew ingress binding | importBundle ingress binding bundle | update ingress binding body =>
    refine drawing_idle input s _ _ fun _ _ reached => ?_
    cases reached
    rfl
  | report node challengeRevision tlsReady =>
    simp only [arrive]
    split <;> exact .of_idle s rfl rfl (Nat.le_refl _) fun _ reached => by cases reached
  | elsewhere after => exact .of_idle s rfl rfl (Nat.le_refl _) fun _ reached => by cases reached

theorem advance_frame (handler : Handler) (idle : attemptOf handler = none) : Frame s (advance crypto input s handler) := by
  by_cases crashes : input.crashes
  · simp only [advance,crashes,if_true]
    exact .of_idle s rfl rfl (Nat.le_refl _) fun _ reached => by cases reached
  · simp only [advance,crashes,if_false,Bool.false_eq_true]
    cases handler with
    | arrived request => exact arrive_frame input s request
    | renewing certificate | importing certificate bundle | updating item body =>
      exact drawing_idle input s _ _ fun _ _ reached => by cases reached
    | sweeping item ingress =>
      dsimp only
      split
      · refine .of_idle s rfl rfl (Nat.le_refl _) fun rest reached => ?_
        split at reached
        · cases reached
        · obtain ⟨_,_,rfl⟩ := Option.map_eq_some_iff.mp reached
          rfl
      · refine .of_idle s rfl rfl (Nat.le_refl _) fun rest reached => ?_
        cases reached
        rfl
    | sweepClearing item ingress =>
      dsimp only
      split
      · refine .of_idle s rfl rfl (Nat.le_refl _) fun rest reached => ?_
        cases reached
        rfl
      · exact .of_idle s rfl rfl (Nat.le_refl _) fun _ reached => by cases reached
    | starting item ingress =>
      obtain ⟨stored,writers,counter,reaches⟩ := drawing_frame input s (start input.now s.nextUuid item ingress)
        fun attempt => attempt.map (.attempting · .account)
      refine ⟨stored,writers,counter,fun rest reached attempt member => ?_⟩
      obtain ⟨begun,db,ran,same,after⟩ := reaches rest reached
      obtain ⟨chosen,rfl,rfl⟩ := Option.map_eq_some_iff.mp same
      cases member
      rw [after]
      refine ⟨rfl,?_⟩
      exact (ran_ensures input s ran fun _ => start_begun s input.now item ingress).2 attempt rfl
    | attempting attempt position => cases idle

theorem advance_attempting (attempt : Attempt) (position : Position) :
    Advanced (settled input s (.attempting attempt position)) s (advance crypto input s (.attempting attempt position)).1 attempt
        ((advance crypto input s (.attempting attempt position)).2 = none) ∧
      ∀ rest, (advance crypto input s (.attempting attempt position)).2 = some rest → attemptOf rest = some attempt := by
  by_cases crashes : input.crashes
  · simp only [advance,crashes,if_true]
    exact ⟨.refl _,fun _ reached => by cases reached⟩
  · simp only [advance,crashes,if_false,Bool.false_eq_true]
    constructor
    · refine (attemptStep_advanced crypto position).mono fun returned => ?_
      simpa using returned
    · intro rest reached
      obtain ⟨_,_,rfl⟩ := Option.map_eq_some_iff.mp reached
      rfl

end Actions

section Invariants
variable (crypto : Crypto) (input : Input) {s : Shared}

structure Ahead (s : Shared) : Prop where
  writers : ∀ entry ∈ s.writers, entry.2 < s.nextUuid
  stored : ∀ generation ∈ s.stored, generation < s.nextUuid

/-- A record under the generation of an attempt is as the attempt took it, until the attempt has stored. -/
def Fenced (s : Shared) (handler : Handler) : Prop :=
  ∀ attempt ∈ attemptOf handler, attempt.item.generation < s.nextUuid ∧
    ∀ row ∈ s.db.certificates.find attempt.item.id, row.generation = attempt.item.generation →
      Owned attempt.item row ∨ row.generation ∈ s.stored

theorem advance_counter (handler : Handler) :
    s.nextUuid ≤ (advance crypto input s handler).1.nextUuid ∧
      ∀ generation ∈ s.stored, generation ∈ (advance crypto input s handler).1.stored := by
  cases under : attemptOf handler with
  | none =>
    have frame := advance_frame crypto input s handler under
    refine ⟨frame.counter,fun generation member => ?_⟩
    rw [frame.stored]
    exact member
  | some attempt =>
    cases handler with
    | attempting attempt position =>
      have advanced := (advance_attempting crypto input s attempt position).1
      refine ⟨Nat.le_of_eq advanced.counter.symm,fun generation member => ?_⟩
      rcases advanced.stored with same | ⟨_,same⟩
      · rw [same]
        exact member
      · rw [same]
        exact List.mem_append_left _ member
    | _ => cases under

theorem advance_fenced (handler other : Handler) (fenced : Fenced s other) :
    Fenced (advance crypto input s handler).1 other := by
  intro attempt under
  obtain ⟨below,owns⟩ := fenced attempt under
  obtain ⟨counter,stored⟩ := advance_counter crypto input handler
  refine ⟨Nat.lt_of_lt_of_le below counter,fun next reached same => ?_⟩
  have old : ¬Drawn s (advance crypto input s handler).1 next.generation := by
    intro drawn
    rw [same] at drawn
    exact absurd drawn.1 (Nat.not_le.mpr below)
  rcases (advance_evolved crypto input s handler).origin reached with ⟨row,found,becomes⟩ | ⟨_,born⟩
  · cases becomes with
    | kept generation owned _ =>
      rcases owns row found (generation.symm.trans same) with before | before
      · rcases owned with kept | kept
        · exact .inl (before.trans kept)
        · rw [← generation] at kept
          exact .inr kept
      · rw [← generation] at before
        exact .inr (stored _ before)
    | renewed drawn _ => exact absurd drawn old
  · exact absurd born.1 old

theorem advance_ahead (handler : Handler) (ahead : Ahead s) (fenced : Fenced s handler) :
    Ahead (advance crypto input s handler).1 := by
  have counter := (advance_counter crypto input (s := s) handler).1
  cases under : attemptOf handler with
  | none =>
    have frame := advance_frame crypto input s handler under
    constructor
    · intro entry member
      rw [frame.writers] at member
      exact Nat.lt_of_lt_of_le (ahead.writers entry member) counter
    · intro generation member
      rw [frame.stored] at member
      exact Nat.lt_of_lt_of_le (ahead.stored generation member) counter
  | some attempt =>
    have below := Nat.lt_of_lt_of_le (fenced attempt under).1 counter
    cases handler with
    | attempting attempt position =>
      cases under
      have advanced := (advance_attempting crypto input s attempt position).1
      constructor
      · intro entry member
        rcases advanced.writers entry member with old | new
        · exact Nat.lt_of_lt_of_le (ahead.writers entry old) counter
        · rw [new]
          exact below
      · intro generation member
        have listed : generation ∈ s.stored ∨ generation = attempt.item.generation := by
          rcases advanced.stored with same | ⟨_,same⟩
          · rw [same] at member
            exact .inl member
          · simpa [same] using member
        rcases listed with old | rfl
        · exact Nat.lt_of_lt_of_le (ahead.stored generation old) counter
        · exact below
    | _ => cases under

theorem begun_fenced {after : Shared} {handler : Handler} (begun : ∀ attempt ∈ attemptOf handler, Begun s after attempt) :
    Fenced after handler := by
  intro attempt under
  obtain ⟨drawn,found⟩ := begun attempt under
  refine ⟨drawn.2,fun row read _ => ?_⟩
  rw [found] at read
  cases read
  exact .inl (Owned.refl _)

theorem step_holds (config : Config Shared Handler) (event : Event Request Input) (holds : Holds Ahead Fenced config) :
    Holds Ahead Fenced ((machine crypto).step config event) := by
  refine Holds.step ?_ ?_ ?_ config event holds (acting_true config event)
  · intro s request _ attempt under
    cases under
  · intro input s handler _ ahead fenced
    refine ⟨advance_ahead crypto input handler ahead fenced,fun rest reached => ?_⟩
    cases under : attemptOf handler with
    | none =>
      have begun : ∀ attempt ∈ attemptOf rest, Begun s (advance crypto input s handler).1 attempt :=
        fun attempt member => ((advance_frame crypto input s handler under).begun rest reached attempt member).2
      exact begun_fenced begun
    | some attempt =>
      cases handler with
      | attempting attempt position =>
        have same := (advance_attempting crypto input s attempt position).2 rest reached
        have kept := advance_fenced crypto input (.attempting attempt position) _ fenced
        intro other member
        rw [same] at member
        exact kept other member
      | _ => cases under
  · intro input s handler other _ _ _ fenced
    exact advance_fenced crypto input handler other fenced

def held (handler : Handler) : Multiset Uuid := ((attemptOf handler).map fun attempt => attempt.item.generation).elim 0 ({·})

def generations (config : Config Shared Handler) : Multiset Uuid := owed held config + config.shared.stored

theorem mem_generations (config : Config Shared Handler) (holds : Holds Ahead Fenced config) (generation : Uuid)
    (member : generation ∈ generations config) : generation < config.shared.nextUuid := by
  rcases Multiset.mem_add.mp member with issuing | stored
  · obtain ⟨handler,inflight,mine⟩ := (mem_owed held config generation).mp issuing
    cases under : attemptOf handler with
    | none => simp [held,under] at mine
    | some attempt =>
      have same : generation = attempt.item.generation := by simpa [held,under] using mine
      rw [same]
      exact (holds.handlers handler inflight attempt under).1
  · exact holds.state.stored generation (by simpa using stored)

theorem advance_generations (handler : Handler) (ahead : Fenced s handler) :
    rest held (advance crypto input s handler).2 + ((advance crypto input s handler).1.stored : Multiset Uuid) ≤
        held handler + (s.stored : Multiset Uuid) ∨
      ∃ generation, s.nextUuid ≤ generation ∧
        rest held (advance crypto input s handler).2 + ((advance crypto input s handler).1.stored : Multiset Uuid) ≤
          generation ::ₘ (held handler + (s.stored : Multiset Uuid)) := by
  cases under : attemptOf handler with
  | none =>
    have frame := advance_frame crypto input s handler under
    have nothing : held handler = 0 := by simp [held,under]
    rw [frame.stored,nothing,Multiset.zero_add]
    cases reached : (advance crypto input s handler).2 with
    | none => exact .inl (by simp)
    | some next =>
      cases begins : attemptOf next with
      | none => exact .inl (by simp [held,begins])
      | some attempt =>
        refine .inr ⟨attempt.item.generation,(frame.begun next reached attempt begins).2.1.1,?_⟩
        simp [held,begins]
  | some attempt =>
    cases handler with
    | attempting attempt position =>
      left
      obtain ⟨advanced,same⟩ := advance_attempting crypto input s attempt position
      have mine : held (.attempting attempt position) = {attempt.item.generation} := rfl
      rcases advanced.stored with stored | ⟨returned,stored⟩
      · rw [stored,mine]
        refine Multiset.add_le_add_right ?_
        cases reached : (advance crypto input s (.attempting attempt position)).2 with
        | none => simp
        | some next => simp [held,same next reached]
      · rw [stored,returned,mine,← Multiset.coe_add,rest_none,Multiset.zero_add,Multiset.add_comm]
        exact le_refl _
    | _ => cases under

theorem step_generations (config : Config Shared Handler) (event : Event Request Input) (holds : Holds Ahead Fenced config)
    (distinct : (generations config).Nodup) : (generations ((machine crypto).step config event)).Nodup := by
  cases event with
  | arrive request =>
    have same : generations ((machine crypto).step config (.arrive request)) = generations config := by
      unfold generations
      rw [owed_arrive]
      simp [held,machine,attemptOf,Machine.step]
    rw [same]
    exact distinct
  | resume index input =>
    cases found : config.inflight[index]? with
    | none =>
      have same : (machine crypto).step config (.resume index input) = config := by simp only [Machine.step,found]
      rw [same]
      exact distinct
    | some handler =>
      have ledger := owed_resume (machine crypto) held config index input handler found
      have shared : ((machine crypto).step config (.resume index input)).shared = (advance crypto input config.shared handler).1 := by
        simp only [Machine.step,found]
        rfl
      have balance : generations ((machine crypto).step config (.resume index input)) + held handler =
          owed held config + (rest held (advance crypto input config.shared handler).2 +
            ((advance crypto input config.shared handler).1.stored : Multiset Uuid)) := by
        unfold generations
        rw [shared,add_right_comm,ledger,add_assoc]
        rfl
      have bound : ∀ brought : Multiset Uuid, rest held (advance crypto input config.shared handler).2 +
          ((advance crypto input config.shared handler).1.stored : Multiset Uuid) ≤
            brought + (held handler + (config.shared.stored : Multiset Uuid)) →
          generations ((machine crypto).step config (.resume index input)) ≤ brought + generations config := by
        intro brought limit
        have weighed : generations ((machine crypto).step config (.resume index input)) + held handler ≤
            brought + generations config + held handler := by
          rw [balance]
          refine (Multiset.add_le_add_left limit).trans (le_of_eq ?_)
          unfold generations
          abel
        exact le_of_add_le_add_right weighed
      have asserted := holds.handlers handler (List.mem_of_getElem? found)
      rcases advance_generations crypto input handler asserted with less | ⟨generation,drawn,less⟩
      · refine Multiset.nodup_of_le ?_ distinct
        simpa using bound 0 (by simpa using less)
      · refine Multiset.nodup_of_le (bound {generation} less) ?_
        refine Multiset.nodup_cons.mpr ⟨fun member => ?_,distinct⟩
        exact absurd drawn (Nat.not_le.mpr (mem_generations config holds generation member))

end Invariants

structure Fencing (config : Config Shared Handler) : Prop where
  holds : Holds Ahead Fenced config
  distinct : (generations config).Nodup

section Runs
variable (crypto : Crypto)

theorem step_fencing (config : Config Shared Handler) (event : Event Request Input) (fencing : Fencing config) :
    Fencing ((machine crypto).step config event) :=
  ⟨step_holds crypto config event fencing.holds,step_generations crypto config event fencing.holds fencing.distinct⟩

theorem Fencing.start (db : IngressDatabase) (nextUuid : Uuid) : Fencing ⟨{ db, nextUuid },[]⟩ := by
  refine ⟨⟨⟨?_,?_⟩,?_⟩,?_⟩
  · intro entry member
    cases member
  · intro generation member
    cases member
  · intro handler member
    cases member
  · exact Multiset.nodup_zero

theorem Fencing.once {config : Config Shared Handler} (fencing : Fencing config) : config.shared.stored.Nodup := by
  have part : (config.shared.stored : Multiset Uuid) ≤ generations config := Multiset.le_add_left _ _
  exact Multiset.coe_nodup.mp (Multiset.nodup_of_le part fencing.distinct)

theorem Fencing.unstored {config : Config Shared Handler} (fencing : Fencing config) {handler : Handler} {attempt : Attempt}
    (inflight : handler ∈ config.inflight) (under : attemptOf handler = some attempt) :
    attempt.item.generation ∉ config.shared.stored := by
  intro stored
  have issuing : attempt.item.generation ∈ owed held config :=
    (mem_owed held config _).mpr ⟨handler,inflight,by simp [held,under]⟩
  have apart := (Multiset.nodup_add.mp fencing.distinct).2.2
  exact Multiset.disjoint_left.mp apart issuing (by simpa using stored)

theorem Fencing.storesOwn {config : Config Shared Handler} (fencing : Fencing config) (event : Event Request Input) :
    StoresOwn config event := by
  intro attempt stores
  cases event with
  | arrive request => cases stores
  | resume index input =>
    simp only [storing] at stores
    split at stores
    · next chosen _ _ _ found =>
      split at stores
      · cases stores
      · next proceeds =>
        cases stores
        have inflight := List.mem_of_getElem? found
        have read : ∃ row, current config.shared.db attempt.item = some row :=
          Option.ne_none_iff_exists'.mp fun missing => proceeds (.inr (.inr missing))
        obtain ⟨row,read⟩ := read
        obtain ⟨present,same⟩ := Option.filter_eq_some_iff.mp read
        have same : row.generation = attempt.item.generation := of_decide_eq_true same
        refine ⟨row,present,same,?_⟩
        refine ((fencing.holds.handlers _ inflight attempt rfl).2 row present same).resolve_right fun stored => ?_
        rw [same] at stored
        exact fencing.unstored inflight rfl stored
    · cases stores

theorem advance_attributed {input : Input} {s : Shared} {handler : Handler} (meets : settled input s handler)
    (attributed : Attributed s) : Attributed (advance crypto input s handler).1 := by
  intro next member challenged
  rcases (advance_evolved crypto input s handler).origin (Table.find_of_mem member) with ⟨row,found,becomes⟩ | ⟨_,born⟩
  · cases becomes with
    | kept generation _ challenge =>
      rcases challenge challenged with writer | ⟨before,writer⟩
      · exact writer
      · rw [writer,generation]
        exact attributed row (Table.find_mem found) before
    | renewed _ unset => exact absurd challenged (unset meets)
  · exact absurd challenged born.2

/-! A generation that is replaced under a challenge leaves the challenge to no attempt. -/

/-- Some record has a challenge under a generation from `bound` on. -/
def Orphaned (bound : Uuid) (db : IngressDatabase) : Prop :=
  ∃ row ∈ db.certificates.rows, Challenged row ∧ bound ≤ row.generation

section Orphans
variable {now : Timestamp} {s : Shared}

theorem updateCertificate_orphans {db : IngressDatabase} {id bound : Uuid} {change : ManagedCertificate → ManagedCertificate}
    {keeps : ∀ row, (change row).id = row.id} {row : ManagedCertificate} (found : db.certificates.find id = some row)
    (challenged : Challenged (change row)) (drawn : bound ≤ (change row).generation) :
    Succeeds (updateCertificate id change keeps) db fun _ => Orphaned bound := by
  obtain ⟨certificates,updated⟩ := update_certificates id keeps db.certificates
  rw [succeeds_updateCertificate]
  refine ⟨certificates,row,found,updated,change row,?_,challenged,drawn⟩
  rw [Table.rows_update updated]
  refine List.mem_map.mpr ⟨row,Table.find_mem found,?_⟩
  rw [if_pos (Table.find_key found)]

theorem queue_orphans {id : Uuid} {row : ManagedCertificate} (found : s.db.certificates.find id = some row)
    (chosen : queueable now row) (challenged : Challenged row) :
    Succeeds (queue now s.nextUuid id) s.db fun _ => Orphaned s.nextUuid := by
  simp only [queueable,decide_eq_true_eq] at chosen
  simp only [queue,succeeds_bind,succeeds_query,succeeds_orElse,succeeds_require]
  refine ⟨row,found,chosen.1,by simpa using chosen.2.1,by simpa using chosen.2.2,?_⟩
  exact updateCertificate_orphans found challenged (Nat.le_refl _)

theorem updateSettings_orphans {item row : ManagedCertificate} {body : SettingsRequest}
    (found : s.db.certificates.find item.id = some row) (chosen : updatable now s.db.authority item body row)
    (challenged : Challenged row) :
    Succeeds (updateSettings now s.nextUuid item body) s.db fun _ => Orphaned s.nextUuid := by
  simp only [updatable,decide_eq_true_eq] at chosen
  obtain ⟨method,issuer,free,same⟩ := chosen
  simp only [updateSettings,succeeds_bind,succeeds_query,succeeds_orElse,succeeds_require]
  refine ⟨method,issuer,free,row,found,same,?_⟩
  obtain ⟨generation,kept⟩ := settingsColumns_renewed s.nextUuid body item row
  refine updateCertificate_orphans found (kept.mpr challenged) ?_
  rw [generation]

theorem start_orphans {item row : ManagedCertificate} {ingressId : Uuid} {ingress : RegionalIngress}
    {connection : DomainOnboarding} (found : s.db.certificates.find item.id = some row)
    (present : s.db.ingresses.find ingressId = some ingress)
    (connected : row.hostBindingId.bind s.db.onboarding.find = some connection)
    (chosen : startable s.db item row ingress connection now) (challenged : Challenged row) :
    Succeeds (start now s.nextUuid item ingressId) s.db fun _ => Orphaned s.nextUuid := by
  simp only [start,succeeds_bind,succeeds_query,succeeds_orElse]
  refine ⟨ingress,present,row,found,?_⟩
  rw [succeeds_get,connected]
  dsimp only
  simp only [succeeds_bind,succeeds_get,if_pos chosen,succeeds_query,succeeds_pure]
  refine updateCertificate_orphans found challenged ?_
  change _ ≤ if _ then _ else _
  split
  · exact Nat.le_refl _
  · exact Nat.le_succ _

variable {input : Input} {α : Type}

theorem drawing_orphans {transaction : Transaction IngressDatabase String α} {next : α → Option Handler}
    (working : input.fails = false) (succeeds : Succeeds transaction s.db fun _ => Orphaned s.nextUuid) :
    Orphaned s.nextUuid (drawing input s transaction next).1.db := by
  obtain ⟨value,db,ran,orphaned⟩ := succeeds
  simpa [drawing,Issuance.ran,working,ran,Except.toOption] using orphaned

theorem advance_orphans {handler : Handler} (broken : ¬settled input s handler) :
    Orphaned s.nextUuid (advance crypto input s handler).1.db := by
  cases handler with
  | renewing certificate =>
    simp only [settled,not_or,not_forall,not_not,exists_prop] at broken
    obtain ⟨running,working,row,found,chosen,challenged⟩ := broken
    simp only [advance,running]
    exact drawing_orphans (by simpa using working) (queue_orphans found chosen challenged)
  | updating item body =>
    simp only [settled,not_or,not_forall,not_not,exists_prop] at broken
    obtain ⟨running,working,row,found,chosen,challenged⟩ := broken
    simp only [advance,running]
    exact drawing_orphans (by simpa using working) (updateSettings_orphans found chosen challenged)
  | starting item ingress =>
    simp only [settled,not_or,not_forall,not_not,exists_prop] at broken
    obtain ⟨running,working,row,found,ingress,present,connection,connected,chosen,challenged⟩ := broken
    simp only [advance,running]
    exact drawing_orphans (by simpa using working) (start_orphans found present connected chosen challenged)
  | arrived | importing | sweeping | sweepClearing | attempting => exact absurd trivial broken

end Orphans

theorem settled_of_attributed {input : Input} {s : Shared} {handler : Handler} (ahead : Ahead s)
    (attributed : Attributed (advance crypto input s handler).1) : settled input s handler := by
  by_contra broken
  have idle : attemptOf handler = none := by
    cases handler with
    | attempting => exact absurd trivial broken
    | _ => rfl
  obtain ⟨row,member,challenged,drawn⟩ := advance_orphans crypto broken
  have written := attributed row member challenged
  rw [Shared.writer,(advance_frame crypto input s handler idle).writers] at written
  obtain ⟨before,behind,same,_⟩ := List.lookup_eq_some_iff.mp written
  have listed : (row.id,row.generation) ∈ s.writers := by simp [same]
  exact absurd drawn (Nat.not_le.mpr (ahead.writers _ listed))

theorem acting_of_attributed {config : Config Shared Handler} {event : Event Request Input} (fencing : Fencing config)
    (attributed : Attributed ((machine crypto).step config event).shared) : Acting settled config event := by
  cases event with
  | arrive request => trivial
  | resume index input =>
    intro handler found
    simp only [Machine.step,found] at attributed
    exact settled_of_attributed crypto fencing.holds.state attributed

theorem step_attributed {config : Config Shared Handler} {event : Event Request Input} (meets : Acting settled config event)
    (attributed : Attributed config.shared) : Attributed ((machine crypto).step config event).shared := by
  cases event with
  | arrive request => exact attributed
  | resume index input =>
    simp only [Machine.step]
    split
    · exact attributed
    · next handler found => exact advance_attributed crypto (meets handler found) attributed

/-- Bundles are stored for their own generation, by one attempt each, and every challenge
that is set is of the current generation. -/
def Fences (start : Config Shared Handler) (events : List (Event Request Input)) : Prop :=
  Along (machine crypto).step StoresOwn start events ∧
    Throughout (machine crypto).step (fun config => config.shared.stored.Nodup) start events ∧
    Throughout (machine crypto).step (fun config => Attributed config.shared) start events

theorem stores_own_once (start : Config Shared Handler) (fencing : Fencing start) (events : List (Event Request Input)) :
    Along (machine crypto).step StoresOwn start events ∧
      Throughout (machine crypto).step (fun config => config.shared.stored.Nodup) start events := by
  have kept : ∀ config event, Fencing config → True → Fencing ((machine crypto).step config event) :=
    fun config event fencing _ => step_fencing crypto config event fencing
  have always : Along (machine crypto).step (fun _ _ => True) start events := along_true start events
  exact ⟨along_of_invariant kept (fun _ event fencing _ => fencing.storesOwn event) start events fencing always,
    throughout_of_invariant kept (fun _ => Fencing.once) start events fencing always⟩

/-- A run keeps issuance fenced if and only if no generation is replaced under a challenge by a
renewal, a change of settings or the start of an attempt. -/
theorem fences_iff_settled (db : IngressDatabase) (nextUuid : Uuid) (events : List (Event Request Input))
    (unset : ∀ row ∈ db.certificates.rows, ¬Challenged row) :
    Fences crypto ⟨{ db, nextUuid },[]⟩ events ↔
      Along (machine crypto).step (Acting settled) ⟨{ db, nextUuid },[]⟩ events := by
  have attributed : Attributed { db, nextUuid } := fun row member challenged => absurd challenged (unset row member)
  have fencing := Fencing.start db nextUuid
  constructor
  · intro fences
    refine along_of_invariant ?_ ?_ _ events fencing fences.2.2.2
    · intro config event fencing _
      exact step_fencing crypto config event fencing
    · intro config event fencing after
      exact acting_of_attributed crypto fencing after
  · intro meets
    obtain ⟨own,once⟩ := stores_own_once crypto _ fencing events
    refine ⟨own,once,throughout_of_invariant ?_ (fun _ holds => holds) _ events attributed meets⟩
    intro config event attributed permitted
    exact step_attributed crypto permitted attributed

end Runs

/-! A region with one Serve node, one ingress and one custom domain. -/

def entryNode : Node where
  id := 1
  region := "default"
  status := .active
  buildEnabled := false
  serveEnabled := true
  baseUrl := some "http://entry"
  capacityCpuMillicores := 1000
  capacityMemoryMb := 1000
  capacityDiskMb := 1000
  maxDeployments := 10
  lastHeartbeatAt := some 0

def customDomain : HostBinding where
  id := 2
  projectId := 3
  teamId := 4
  hostSourceId := none
  host := "site.example.org"
  region := "default"
  kind := .custom
  environment := .production
  status := .active
  isPrimary := false
  reviewStatus := .notRequired
  ownershipStatus := .verified

def oneDomain : IngressDatabase where
  nodes := ⟨[entryNode],by decide,by decide⟩
  bindings := ⟨[customDomain],by decide,by decide⟩
  ingresses := ⟨[{ id := 5, region := "default", hostname := "default.example.net", enabled := true }],by decide,by decide⟩
  onboarding := ⟨[{ bindingId := 2, contactEmail := "owner@example.org", dnsStatus := .ready, checkedAt := some 0 }],
    by decide,by decide⟩
  ingressStatus := ⟨[{ nodeId := 1, tlsReady := true, checkedAt := 0 }],by decide,by decide⟩
  health := [⟨5,1,.healthy,some 0⟩]

def sampleCrypto : Crypto where
  digest := id
  certs := fun pem => .ok [pem]
  validity := fun _ => some (0,1000000)
  verifyServerName := fun _ _ => .ok ()
  privateKey := fun pem => .ok (some pem)
  keysMatch := fun _ _ => .ok ()
  encrypt := fun _ bundle => bundle.certificatePem
  decrypt := fun _ envelope => .ok ⟨envelope,""⟩
  challengeRevision := fun challenges => String.join (challenges.map (·.token))

def acting (now : Timestamp) : Input := { now, authorizations := [some ⟨"token","value"⟩] }

def publishing : List (Event Request Input) :=
  [.arrive (.ensureRecord 5 customDomain),.resume 0 (acting 1),.arrive (.sweep 2 5)] ++
    List.replicate 7 (.resume 0 (acting 2))

/-- The node reports it, and the attempt stores the bundle it gets. -/
theorem fences_whole_issuance :
    Fences sampleCrypto ⟨{ db := oneDomain, nextUuid := 10 },[]⟩
      (publishing ++ [.arrive (.report 1 "token" true),.resume 1 (acting 2)] ++
        List.replicate 27 (.resume 0 { acting 3 with bundle := some ⟨"chain","key"⟩ })) :=
  (fences_iff_settled sampleCrypto oneDomain 10 _ (by decide)).mpr (by decide)

/-- The process of the attempt ends, and after the lease the owner asks for a renewal. -/
private def renewed : List (Event Request Input) :=
  publishing ++ [.resume 0 { acting 3 with crashes := true },.arrive (.renew 5 customDomain),
    .resume 0 (acting (micros 700)),.resume 0 (acting (micros 700))]

/-- The renewal takes over the challenge of the attempt before it. -/
theorem renewal_orphans_challenge : ¬∀ (crypto : Crypto) (db : IngressDatabase) (nextUuid : Uuid)
    (events : List (Event Request Input)), (∀ row ∈ db.certificates.rows, ¬Challenged row) →
      Fences crypto ⟨{ db, nextUuid },[]⟩ events := by
  intro claimed
  have attributed := (claimed sampleCrypto oneDomain 10 renewed (by decide)).2.2.last
  have orphaned : ¬Attributed (run (machine sampleCrypto).step ⟨{ db := oneDomain, nextUuid := 10 },[]⟩ renewed).shared := by
    decide
  exact orphaned attributed

end GrassWorker.IssuanceFencing
