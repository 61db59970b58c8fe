import GrassWorker.ControlPlane.IssuanceFencing
import GrassWorker.Foundations.Decimal

/-! Publication of HTTP challenges: what the nodes of a region have reported when an
attempt tells the certificate authority that its challenge is ready. -/
namespace GrassWorker.ChallengeBarrier
open Interleaving Runs Transaction ManagedCertificates Acme Ingress Certificates Issuance

structure Told where
  attempt : Attempt
  own : Own
  check : Check

def Told.challenge (told : Told) : HttpChallenge := told.own.challenge told.attempt.item

def telling (config : Config Shared Handler) : Event Request Input → Option Told
  | .arrive _ => none
  | .resume index _ =>
    match config.inflight[index]? with
    | some (.attempting attempt (.telling own _ check)) => some ⟨attempt,own,check⟩
    | _ => none

section Property
variable (crypto : Crypto)

/-- Less than 30 seconds before the check the node reported the revision of these challenges. -/
def Reported (s : Shared) (now : Timestamp) (challenges : List HttpChallenge) (node : IngressCandidate) : Prop :=
  ∃ report ∈ s.reports, report.nodeId = node.nodeId ∧ report.challengeRevision = crypto.challengeRevision challenges ∧
    now - report.checkedAt < micros 30

def Acknowledged (s : Shared) (told : Told) : Prop :=
  ∃ challenges, told.challenge ∈ challenges ∧ ∀ node ∈ told.check.counted, Reported crypto s told.check.now challenges node

def Barrier (config : Config Shared Handler) (event : Event Request Input) : Prop :=
  ∀ told ∈ telling config event, Acknowledged crypto config.shared told

end Property

/-- The snapshot that the nodes were compared with was read with the challenge in it. -/
def Sighted (config : Config Shared Handler) (event : Event Request Input) : Prop :=
  ∀ told ∈ telling config event, told.check.sift.sighted

instance (config : Config Shared Handler) (event : Event Request Input) : Decidable (Sighted config event) :=
  inferInstanceAs (Decidable (∀ told ∈ telling config event, told.check.sift.sighted))

/-- Among the records that a snapshot still has to judge or has kept is the one with the challenge. -/
def Pending (attempt : Attempt) (own : Own) (sift : Sift) (rest : List ManagedCertificate) : Prop :=
  sift.sighted → sift.at' < own.expiresAt ∧ ∃ row, own.carriedBy attempt.item row ∧ (row ∈ sift.kept ∨ row ∈ rest)

def Included (attempt : Attempt) (own : Own) (sift : Sift) : Prop :=
  sift.sighted → own.challenge attempt.item ∈ sift.challenges

section Rounds
variable (crypto : Crypto) (s : Shared) (attempt : Attempt) (own : Own)

def Round : Wait → Prop
  | .siftEntry _ sift rest => Pending attempt own sift rest
  | .siftHost _ sift _ head rest => Pending attempt own sift (head :: rest)
  | .healthEntry sift | .health sift _ _ | .nodes sift _ _ _ | .tlsStatus sift _ _ _ _ => Included attempt own sift
  | .status check rest => Included attempt own check.sift ∧ ∃ passed, check.counted = passed ++ rest ∧
      ∀ node ∈ passed, Reported crypto s check.now check.sift.challenges node
  | .current | .entry _ | .host _ _ | .region | .items _ => True

def Passed (check : Check) : Prop :=
  Included attempt own check.sift ∧ ∀ node ∈ check.counted, Reported crypto s check.now check.sift.challenges node

def Knows : Handler → Prop
  | .attempting attempt (.waiting own _ wait) => Round crypto s attempt own wait
  | .attempting attempt (.confirming own _ check _) | .attempting attempt (.telling own _ check) =>
    Passed crypto s attempt own check
  | _ => True

end Rounds

def Recorded (s : Shared) : Prop := ∀ status ∈ s.db.ingressStatus.rows, status ∈ s.reports

structure Reports (s after : Shared) : Prop where
  kept : ∀ report ∈ s.reports, report ∈ after.reports
  recorded : Recorded s → Recorded after

theorem Reports.of_same {s after : Shared} (reports : after.reports = s.reports)
    (status : after.db.ingressStatus = s.db.ingressStatus) : Reports s after := by
  constructor
  · intro report member
    rw [reports]
    exact member
  · intro recorded row member
    rw [status] at member
    rw [reports]
    exact recorded row member

theorem advance_reports (crypto : Crypto) (input : Input) {s : Shared} (handler : Handler) :
    Reports s (advance crypto input s handler).1 := by
  cases advance_does crypto input s handler with
  | records rewrites reports => exact .of_same reports rewrites.ingressStatus
  | elsewhere other db reports =>
    refine .of_same reports ?_
    rw [db]
  | reported status inserted db reports =>
    constructor
    · intro report member
      rw [reports]
      exact List.mem_append_left _ member
    · intro recorded row member
      rw [db,Table.rows_insert inserted,List.mem_append,List.mem_singleton] at member
      rw [reports]
      rcases member with old | rfl
      · exact List.mem_append_left _ (recorded row (List.mem_of_mem_filter old))
      · exact List.mem_append_right _ List.mem_cons_self

section Knowledge
variable (crypto : Crypto) (input : Input) {s : Shared} {attempt : Attempt} {own : Own}

theorem Reported.mono {after : Shared} {now : Timestamp} {challenges : List HttpChallenge} {node : IngressCandidate}
    (reports : Reports s after) (reported : Reported crypto s now challenges node) :
    Reported crypto after now challenges node := by
  obtain ⟨report,member,facts⟩ := reported
  exact ⟨report,reports.kept report member,facts⟩

theorem Knows.mono {after : Shared} (reports : Reports s after) (handler : Handler) (knows : Knows crypto s handler) :
    Knows crypto after handler := by
  cases handler with
  | attempting attempt position =>
    cases position with
    | waiting own rest wait =>
      cases wait with
      | status check rest =>
        obtain ⟨included,passed,split,each⟩ := knows
        exact ⟨included,passed,split,fun node member => (each node member).mono crypto reports⟩
      | _ => exact knows
    | confirming own rest check confirm => exact ⟨knows.1,fun node member => (knows.2 node member).mono crypto reports⟩
    | telling own rest check => exact ⟨knows.1,fun node member => (knows.2 node member).mono crypto reports⟩
    | _ => trivial
  | _ => trivial

theorem mem_challenges {sift : Sift} {row : ManagedCertificate} (member : row ∈ sift.kept)
    (carried : own.carriedBy attempt.item row) (valid : sift.at' < own.expiresAt) :
    own.challenge attempt.item ∈ sift.challenges := by
  simp only [Own.carriedBy,decide_eq_true_eq] at carried
  obtain ⟨_,hostname,token,value,expires⟩ := carried
  refine (List.mem_insertionSort _).mpr (List.mem_filterMap.mpr ⟨row,member,?_⟩)
  simp [challengeOf,token,value,expires,valid,Own.challenge,hostname]

/-- The record with the challenge stays in the round, unless the round has seen it to be ineligible. -/
theorem siftNext_round {ingress : RegionalIngress} {sift : Sift} {head : ManagedCertificate}
    {rest : List ManagedCertificate} (pending : Pending attempt own sift (head :: rest)) (eligible : Bool) :
    Round crypto s attempt own (siftNext attempt ingress sift head rest eligible) := by
  intro sighted
  obtain ⟨before,judged⟩ := Bool.and_eq_true_iff.mp sighted
  obtain ⟨valid,row,carried,place⟩ := pending before
  refine ⟨valid,row,carried,?_⟩
  dsimp only
  rcases place with kept | waiting
  · left
    split
    · exact List.mem_append_left _ kept
    · exact kept
  · rcases List.mem_cons.mp waiting with rfl | later
    · left
      have same : row.id = attempt.item.id := by
        simp only [Own.carriedBy,decide_eq_true_eq] at carried
        exact carried.1
      have accepted : eligible = true := by simpa [same] using judged
      rw [if_pos accepted]
      exact List.mem_append_right _ List.mem_cons_self
    · exact .inr later

theorem Included.of_pending {sift : Sift} (pending : Pending attempt own sift []) : Included attempt own sift := by
  intro sighted
  obtain ⟨valid,row,carried,place⟩ := pending sighted
  exact mem_challenges (place.resolve_right List.not_mem_nil) carried valid

theorem waitStep_knows {wait : Wait} {outcome : Wait ⊕ Check} (recorded : Recorded s) (round : Round crypto s attempt own wait)
    (stepped : waitStep crypto input s attempt own wait = some outcome) :
    match outcome with
    | .inl next => Round crypto s attempt own next
    | .inr check => Passed crypto s attempt own check := by
  cases wait with
  | current =>
    obtain ⟨_,_,rfl⟩ := Option.map_eq_some_iff.mp stepped
    trivial
  | entry row =>
    obtain ⟨ingress,_,stepped⟩ := Option.bind_eq_some_iff.mp stepped
    split at stepped
    · cases stepped
      trivial
    · cases stepped
  | host row region =>
    simp only [waitStep] at stepped
    split at stepped
    · cases stepped
      trivial
    · cases stepped
  | region =>
    simp only [waitStep] at stepped
    split at stepped
    · cases stepped
      exact fun impossible => by cases impossible
    · cases stepped
      trivial
  | items ingress =>
    cases stepped
    intro sighted
    obtain ⟨carried,valid⟩ := Bool.and_eq_true_iff.mp sighted
    obtain ⟨row,member,carried⟩ := List.any_eq_true.mp carried
    exact ⟨of_decide_eq_true valid,row,carried,.inr member⟩
  | siftEntry ingress sift rest =>
    cases rest with
    | nil =>
      cases stepped
      exact Included.of_pending round
    | cons head rest =>
      simp only [waitStep] at stepped
      split at stepped
      · split at stepped
        · cases stepped
          exact round
        · cases stepped
          exact siftNext_round crypto round false
      · cases stepped
        exact siftNext_round crypto round false
  | siftHost ingress sift region head rest =>
    cases stepped
    exact siftNext_round crypto round _
  | healthEntry | health | nodes =>
    cases stepped
    exact round
  | tlsStatus sift now ingress health nodes =>
    simp only [waitStep] at stepped
    split at stepped
    · cases stepped
      trivial
    · cases stepped
      exact ⟨round,[],rfl,fun node member => by cases member⟩
  | status check rest =>
    obtain ⟨included,passed,split,each⟩ := round
    cases rest with
    | nil =>
      cases stepped
      rw [List.append_nil] at split
      rw [← split] at each
      exact ⟨included,each⟩
    | cons node rest =>
      simp only [waitStep] at stepped
      split at stepped
      · next acknowledged =>
        cases stepped
        refine ⟨included,passed ++ [node],by simp [split],fun other member => ?_⟩
        rcases List.mem_append.mp member with old | new
        · exact each other old
        · rw [List.mem_singleton.mp new]
          obtain ⟨status,found,fresh⟩ := (Option.any_eq_true _ _).mp acknowledged
          obtain ⟨revision,recent⟩ := of_decide_eq_true fresh
          exact ⟨status,recorded status (Table.find_mem found),Table.find_key found,revision,recent⟩
      · cases stepped
        trivial

/-- Where `issue` goes on, it knows what it did. -/
theorem issueStep_knows {position next : Position} {after : Shared} (recorded : Recorded s)
    (knows : Knows crypto s (.attempting attempt position))
    (stepped : issueStep crypto input s attempt position = some (after,next)) : Knows crypto s (.attempting attempt next) := by
  cases position with
  | account =>
    simp only [issueStep] at stepped
    split at stepped
    · cases stepped
      trivial
    · obtain ⟨_,_,moved⟩ := Option.map_eq_some_iff.mp stepped
      cases moved
      trivial
  | savingAccount | publishing offer rest =>
    obtain ⟨_,_,moved⟩ := Option.map_eq_some_iff.mp stepped
    cases moved
    trivial
  | authorizing rest =>
    rcases rest with _ | ⟨_ | offer,rest⟩
    · cases stepped
      trivial
    · cases stepped
      trivial
    · obtain ⟨_,_,moved⟩ := Option.map_eq_some_iff.mp stepped
      cases moved
      trivial
  | waiting own rest wait =>
    obtain ⟨outcome,waited,moved⟩ := Option.map_eq_some_iff.mp stepped
    have round := waitStep_knows crypto input recorded knows waited
    cases outcome with
    | inl wait =>
      cases moved
      exact round
    | inr check =>
      cases moved
      exact round
  | confirming own rest check confirm =>
    obtain ⟨outcome,_,moved⟩ := Option.map_eq_some_iff.mp stepped
    cases outcome with
    | none =>
      cases moved
      exact knows
    | some confirm =>
      cases moved
      exact knows
  | telling own rest check =>
    cases stepped
    trivial
  | finalizing | clearing | savingClear | judging | storingEntry | storingHost | storing | failing => cases stepped

theorem finishStep_knows {position next : Position} (stepped : (finishStep crypto input s attempt position).2 = some next) :
    Knows crypto s (.attempting attempt next) := by
  cases position with
  | clearing result =>
    simp only [finishStep] at stepped
    split at stepped
    · cases stepped
      trivial
    · split at stepped <;> cases stepped <;> trivial
  | savingClear result =>
    simp only [finishStep] at stepped
    split at stepped <;> cases stepped <;> trivial
  | judging result cleaned =>
    simp only [finishStep] at stepped
    split at stepped
    · cases stepped
    · cases result with
      | none =>
        cases stepped
        trivial
      | some bundle =>
        dsimp only at stepped
        split at stepped <;> cases stepped <;> trivial
  | storingEntry row bundle validity cleaned =>
    simp only [finishStep] at stepped
    split at stepped
    · cases stepped
    · split at stepped <;> cases stepped
      trivial
  | storingHost row region bundle validity cleaned =>
    simp only [finishStep] at stepped
    split at stepped <;> cases stepped
    trivial
  | storing bundle validity cleaned =>
    simp only [finishStep] at stepped
    split at stepped <;> cases stepped
  | account | savingAccount | authorizing | publishing | waiting | confirming | telling | finalizing | failing => cases stepped

theorem attemptStep_knows {position next : Position} (recorded : Recorded s)
    (knows : Knows crypto s (.attempting attempt position))
    (stepped : (attemptStep crypto input s attempt position).2 = some next) : Knows crypto s (.attempting attempt next) := by
  unfold attemptStep at stepped
  split at stepped
  · cases stepped
    trivial
  · split at stepped
    · split at stepped
      · next issued =>
        cases stepped
        split at issued
        · cases issued
        · exact issueStep_knows crypto input recorded knows issued
      · cases stepped
        trivial
    · exact finishStep_knows crypto input stepped

theorem advance_knows (handler : Handler) (recorded : Recorded s) (knows : Knows crypto s handler) :
    ∀ rest, (advance crypto input s handler).2 = some rest → Knows crypto (advance crypto input s handler).1 rest := by
  intro rest reached
  have fresh : IssuanceFencing.attemptOf handler = none → Knows crypto (advance crypto input s handler).1 rest := by
    intro idle
    cases begins : IssuanceFencing.attemptOf rest with
    | none =>
      cases rest with
      | attempting => cases begins
      | _ => trivial
    | some attempt =>
      rw [((IssuanceFencing.advance_frame crypto input s handler idle).begun rest reached attempt begins).1]
      trivial
  cases handler with
  | attempting attempt position =>
    by_cases crashes : input.crashes
    · simp only [advance,crashes,if_true] at reached
      cases reached
    · refine Knows.mono crypto (advance_reports crypto input (.attempting attempt position)) rest ?_
      simp only [advance,crashes,if_false,Bool.false_eq_true] at reached
      obtain ⟨next,stepped,rfl⟩ := Option.map_eq_some_iff.mp reached
      exact attemptStep_knows crypto input recorded knows stepped
  | _ => exact fresh rfl

end Knowledge

section Runs
variable (crypto : Crypto)

theorem step_knows (config : Config Shared Handler) (event : Event Request Input)
    (holds : Holds Recorded (Knows crypto) config) : Holds Recorded (Knows crypto) ((machine crypto).step config event) := by
  refine Holds.step ?_ ?_ ?_ config event holds (acting_true config event)
  · intro s request _
    trivial
  · intro input s handler _ recorded knows
    exact ⟨(advance_reports crypto input handler).recorded recorded,advance_knows crypto input handler recorded knows⟩
  · intro input s handler other _ _ _ knows
    exact knows.mono crypto (advance_reports crypto input handler)

theorem barrier_of_sighted {config : Config Shared Handler} {event : Event Request Input}
    (holds : Holds Recorded (Knows crypto) config) (sighted : Sighted config event) : Barrier crypto config event := by
  intro told tells
  have seen := sighted told tells
  cases event with
  | arrive request => cases tells
  | resume index input =>
    simp only [telling] at tells
    split at tells
    · next found =>
      cases tells
      obtain ⟨included,each⟩ := holds.handlers _ (List.mem_of_getElem? found)
      exact ⟨_,included seen,each⟩
    · cases tells

end Runs

/-! A text for lists of challenges that tells any two of them apart. -/

def quote : List Char → List Char
  | [] => ['!']
  | c :: rest => '.' :: c :: quote rest

theorem quote_append {first second rest rest' : List Char} (same : quote first ++ rest = quote second ++ rest') :
    first = second ∧ rest = rest' := by
  induction first generalizing second with
  | nil =>
    cases second with
    | nil => exact ⟨rfl,(List.cons.inj same).2⟩
    | cons c second => exact absurd (List.cons.inj same).1 (by decide)
  | cons c first ih =>
    cases second with
    | nil => exact absurd (List.cons.inj same).1 (by decide)
    | cons c' second =>
      obtain ⟨rfl,tail⟩ := List.cons.inj (List.cons.inj same).2
      obtain ⟨equal,ends⟩ := ih tail
      exact ⟨by rw [equal],ends⟩

def quoted (challenge : HttpChallenge) : List Char :=
  quote challenge.hostname.toList ++ (quote challenge.token.toList ++ (quote challenge.keyAuthorization.toList ++
    quote (Decimal.print challenge.expiresAtUnix)))

theorem quoted_append {first second : HttpChallenge} {rest rest' : List Char}
    (same : quoted first ++ rest = quoted second ++ rest') : first = second ∧ rest = rest' := by
  simp only [quoted,List.append_assoc] at same
  obtain ⟨hostname,same⟩ := quote_append same
  obtain ⟨token,same⟩ := quote_append same
  obtain ⟨value,same⟩ := quote_append same
  obtain ⟨expires,same⟩ := quote_append same
  refine ⟨?_,same⟩
  cases first
  cases second
  simp only [HttpChallenge.mk.injEq]
  exact ⟨String.ext hostname,String.ext token,String.ext value,Decimal.print_injective expires⟩

def listed (challenges : List HttpChallenge) : List Char := challenges.flatMap fun challenge => '+' :: quoted challenge

theorem listed_injective : Function.Injective listed := by
  intro first second same
  induction first generalizing second with
  | nil =>
    cases second with
    | nil => rfl
    | cons challenge second => cases same
  | cons challenge first ih =>
    cases second with
    | nil => cases same
    | cons challenge' second =>
      obtain ⟨rfl,tail⟩ := quoted_append (List.cons.inj same).2
      rw [ih tail]

def digestOf (challenges : List HttpChallenge) : String := String.ofList (listed challenges)

theorem digestOf_injective : Function.Injective digestOf := by
  intro first second same
  exact listed_injective (String.ofList_injective same)

/-! The domain of one region again. -/

open IssuanceFencing (sampleCrypto oneDomain publishing acting)

private def began : Config Shared Handler := ⟨{ db := oneDomain, nextUuid := 10, reports := oneDomain.ingressStatus.rows },[]⟩

private def steps (count : Nat) : List (Event Request Input) := List.replicate count (.resume 0 (acting 3))

private def digesting : Crypto := { sampleCrypto with challengeRevision := digestOf }

/-- The domain is suspended while the attempt reads its snapshot, and back before it reads on. -/
private def suspended : List (Event Request Input) :=
  publishing ++ steps 6 ++ [.arrive (.elsewhere { oneDomain with bindings := ∅ }),.resume 1 (acting 3)] ++ steps 8 ++
    [.arrive (.elsewhere oneDomain),.resume 1 (acting 3)] ++ steps 3

end GrassWorker.ChallengeBarrier
