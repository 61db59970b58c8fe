import GrassWorker.Domain.Scheduler
import GrassWorker.Foundations.TiedMinimum
import Mathlib.Algebra.Order.Field.Basic
import Mathlib.Algebra.Order.Field.Rat
import Mathlib.Order.WithBot

/-! The choice of a node with its score. Sizes have the widths of the source; ratios are exact, where the source has
floating point. -/
namespace GrassWorker.PlacementChoice
open Scheduler TiedMinimum

structure NodeResources where
  cpuMillicores : UInt64
  memoryMb : UInt64
  diskMb : UInt64
  maxDeployments : UInt32
deriving DecidableEq

structure ServeResources where
  cpuMillicores : UInt64
  memoryMb : UInt64
  diskMb : UInt64
deriving DecidableEq

structure NodeUsage where
  cpuMillicores : UInt64
  memoryMb : UInt64
  diskMb : UInt64
  deployments : UInt64
deriving DecidableEq

structure Candidate where
  nodeId : Uuid
  region : String
  capacity : NodeResources
  usage : NodeUsage
deriving DecidableEq

inductive PlacementMode
  | automatic | manual
deriving DecidableEq, Repr

structure Placement where
  nodeId : Uuid
  region : String
  overcommitted : Bool
  mode : PlacementMode
deriving DecidableEq

def largest : Nat := 2 ^ 64 - 1

def saturatingAdd (a b : UInt64) : UInt64 := if a.toNat + b.toNat < 2 ^ 64 then a + b else .ofNat largest

def ratio (used capacity : UInt64) : WithTop ℚ :=
  if capacity = 0 then ⊤ else (((used.toNat : ℚ) / (capacity.toNat : ℚ) : ℚ) : WithTop ℚ)

structure ProjectedUsage where
  cpuRatio : WithTop ℚ
  memoryRatio : WithTop ℚ
  diskRatio : WithTop ℚ
  deploymentRatio : WithTop ℚ
  diskMb : UInt64
  deployments : UInt64

def ProjectedUsage.allAtMostOne (projected : ProjectedUsage) : Bool :=
  projected.cpuRatio ≤ 1 ∧ projected.memoryRatio ≤ 1 ∧ projected.diskRatio ≤ 1 ∧ projected.deploymentRatio ≤ 1

def ProjectedUsage.dominantRatio (projected : ProjectedUsage) : WithTop ℚ :=
  max (max (max projected.cpuRatio projected.memoryRatio) projected.diskRatio) projected.deploymentRatio

namespace Candidate
variable (candidate : Candidate) (requested : ServeResources)

def hasPositiveCapacity : Bool :=
  0 < candidate.capacity.cpuMillicores ∧ 0 < candidate.capacity.memoryMb ∧ 0 < candidate.capacity.diskMb ∧
    0 < candidate.capacity.maxDeployments

def projected : ProjectedUsage :=
  let cpu := saturatingAdd candidate.usage.cpuMillicores requested.cpuMillicores
  let memory := saturatingAdd candidate.usage.memoryMb requested.memoryMb
  let disk := saturatingAdd candidate.usage.diskMb requested.diskMb
  let deployments := saturatingAdd candidate.usage.deployments 1
  { cpuRatio := ratio cpu candidate.capacity.cpuMillicores
    memoryRatio := ratio memory candidate.capacity.memoryMb
    diskRatio := ratio disk candidate.capacity.diskMb
    deploymentRatio := ratio deployments candidate.capacity.maxDeployments.toUInt64
    diskMb := disk, deployments }

def canOverflow : Bool :=
  let projected := candidate.projected requested
  projected.diskMb ≤ candidate.capacity.diskMb ∧
    projected.deployments ≤ saturatingAdd candidate.capacity.maxDeployments.toUInt64 2

def place (overcommitted : Bool) (mode : PlacementMode) : Placement :=
  ⟨candidate.nodeId,candidate.region,overcommitted,mode⟩

end Candidate

section Choice
variable (candidates : List Candidate) (requested : ServeResources) (rng : Nat → Nat)

def chooseLowestRandom : Option Candidate :=
  let tied := lowest (fun candidate => (candidate.projected requested).dominantRatio) candidates
  tied[rng tied.length % tied.length]?

def chooseCandidateWithRng (selectedNodeId : Option Uuid) : Except ScheduleError Placement :=
  match selectedNodeId with
  | some selected =>
    match candidates.find? fun candidate => candidate.nodeId = selected ∧ candidate.hasPositiveCapacity with
    | none => .error .selectedNodeUnavailable
    | some candidate =>
      if candidate.canOverflow requested then
        .ok (candidate.place (!(candidate.projected requested).allAtMostOne) .manual)
      else .error .selectedNodeCapacity
  | none =>
    let eligible := candidates.filter Candidate.hasPositiveCapacity
    match chooseLowestRandom (eligible.filter fun candidate => (candidate.projected requested).allAtMostOne) requested rng with
    | some candidate => .ok (candidate.place false .automatic)
    | none =>
      match chooseLowestRandom (eligible.filter fun candidate => candidate.canOverflow requested) requested rng with
      | some candidate => .ok (candidate.place true .automatic)
      | none => .error .noCapacity

def chooseCandidateInRegion (region : Option String) (selectedNodeId : Option Uuid) : Except ScheduleError Placement :=
  match region with
  | none => chooseCandidateWithRng candidates requested rng selectedNodeId
  | some region =>
    let filtered := candidates.filter fun candidate => candidate.region = region
    if filtered = [] then .error (.noCapacityInRegion region)
    else chooseCandidateWithRng filtered requested rng selectedNodeId

end Choice

/-! What the choice is for, in whole numbers. -/

structure Load where
  cpuMillicores : Nat
  memoryMb : Nat
  diskMb : Nat
  deployments : Nat
deriving DecidableEq

def Candidate.exact (candidate : Candidate) (requested : ServeResources) : Load where
  cpuMillicores := candidate.usage.cpuMillicores.toNat + requested.cpuMillicores.toNat
  memoryMb := candidate.usage.memoryMb.toNat + requested.memoryMb.toNat
  diskMb := candidate.usage.diskMb.toNat + requested.diskMb.toNat
  deployments := candidate.usage.deployments.toNat + 1

def Candidate.saturated (candidate : Candidate) (requested : ServeResources) : Load where
  cpuMillicores := min (candidate.exact requested).cpuMillicores largest
  memoryMb := min (candidate.exact requested).memoryMb largest
  diskMb := min (candidate.exact requested).diskMb largest
  deployments := min (candidate.exact requested).deployments largest

namespace Load
variable (load : Load) (capacity : NodeResources)

def Fits : Prop :=
  load.cpuMillicores ≤ capacity.cpuMillicores.toNat ∧ load.memoryMb ≤ capacity.memoryMb.toNat ∧
    load.diskMb ≤ capacity.diskMb.toNat ∧ load.deployments ≤ capacity.maxDeployments.toNat

def Overflows : Prop := load.diskMb ≤ capacity.diskMb.toNat ∧ load.deployments ≤ capacity.maxDeployments.toNat + 2

def dominant : ℚ :=
  max (max (max (load.cpuMillicores / capacity.cpuMillicores.toNat : ℚ) (load.memoryMb / capacity.memoryMb.toNat : ℚ))
    (load.diskMb / capacity.diskMb.toNat : ℚ)) (load.deployments / capacity.maxDeployments.toNat : ℚ)

instance : Decidable (load.Fits capacity) := inferInstanceAs (Decidable (_ ∧ _))

instance : Decidable (load.Overflows capacity) := inferInstanceAs (Decidable (_ ∧ _))

end Load

section Sizes
variable {a b used capacity : UInt64}

@[simp] theorem toNat_saturatingAdd : (saturatingAdd a b).toNat = min (a.toNat + b.toNat) largest := by
  unfold saturatingAdd largest
  split
  · rename_i fits
    rw [UInt64.toNat_add,Nat.mod_eq_of_lt fits]
    omega
  · rename_i beyond
    have last : (UInt64.ofNat (2 ^ 64 - 1)).toNat = 2 ^ 64 - 1 := rfl
    rw [last]
    omega

theorem ratio_of_pos (positive : 0 < capacity.toNat) : ratio used capacity = ((used.toNat / capacity.toNat : ℚ) : WithTop ℚ) := by
  refine if_neg ?_
  rintro rfl
  exact absurd positive (Nat.lt_irrefl 0)

theorem ratio_le_one (positive : 0 < capacity.toNat) : ratio used capacity ≤ 1 ↔ used.toNat ≤ capacity.toNat := by
  have above : (0 : ℚ) < capacity.toNat := Nat.cast_pos.mpr positive
  rw [ratio_of_pos positive,← WithTop.coe_one,WithTop.coe_le_coe,div_le_one above,Nat.cast_le]

end Sizes

section Projection
variable {candidate : Candidate} {requested : ServeResources}

theorem hasPositiveCapacity_iff : candidate.hasPositiveCapacity ↔
    0 < candidate.capacity.cpuMillicores.toNat ∧ 0 < candidate.capacity.memoryMb.toNat ∧
      0 < candidate.capacity.diskMb.toNat ∧ 0 < candidate.capacity.maxDeployments.toNat := by
  unfold Candidate.hasPositiveCapacity
  rw [decide_eq_true_iff]
  rfl

theorem allAtMostOne_iff (positive : candidate.hasPositiveCapacity) :
    (candidate.projected requested).allAtMostOne ↔ (candidate.saturated requested).Fits candidate.capacity := by
  obtain ⟨cpu,memory,disk,deployments⟩ := hasPositiveCapacity_iff.mp positive
  have most : 0 < candidate.capacity.maxDeployments.toUInt64.toNat := by rwa [UInt32.toNat_toUInt64]
  unfold ProjectedUsage.allAtMostOne Load.Fits
  rw [decide_eq_true_iff]
  simp only [Candidate.projected,ratio_le_one cpu,ratio_le_one memory,ratio_le_one disk,ratio_le_one most,toNat_saturatingAdd,
    UInt32.toNat_toUInt64]
  rfl

theorem canOverflow_iff : candidate.canOverflow requested ↔ (candidate.saturated requested).Overflows candidate.capacity := by
  have small := candidate.capacity.maxDeployments.toNat_lt
  unfold Candidate.canOverflow Load.Overflows
  simp only [decide_eq_true_iff,Candidate.projected,UInt64.le_iff_toNat_le,toNat_saturatingAdd,UInt32.toNat_toUInt64]
  have two : min (candidate.capacity.maxDeployments.toNat + (2 : UInt64).toNat) largest =
      candidate.capacity.maxDeployments.toNat + 2 := by
    have value : (2 : UInt64).toNat = 2 := rfl
    unfold largest
    omega
  rw [two]
  rfl

theorem dominantRatio_eq (positive : candidate.hasPositiveCapacity) :
    (candidate.projected requested).dominantRatio = ((candidate.saturated requested).dominant candidate.capacity : ℚ) := by
  obtain ⟨cpu,memory,disk,deployments⟩ := hasPositiveCapacity_iff.mp positive
  have most : 0 < candidate.capacity.maxDeployments.toUInt64.toNat := by rwa [UInt32.toNat_toUInt64]
  unfold ProjectedUsage.dominantRatio Load.dominant
  simp only [Candidate.projected,ratio_of_pos cpu,ratio_of_pos memory,ratio_of_pos disk,ratio_of_pos most,
    toNat_saturatingAdd,UInt32.toNat_toUInt64,WithTop.coe_max]
  rfl

end Projection

/-- Among the candidates that are admitted, none has a lower dominant ratio. -/
structure LowestOf (candidates : List Candidate) (load : Candidate → Load) (admits : Candidate → Prop) (chosen : Candidate) :
    Prop where
  listed : chosen ∈ candidates
  positive : chosen.hasPositiveCapacity
  admitted : admits chosen
  lowest : ∀ other ∈ candidates, other.hasPositiveCapacity → admits other →
    (load chosen).dominant chosen.capacity ≤ (load other).dominant other.capacity

/-- The choice between some candidates, where `load` is what each would carry and `selects` what a selected id stands for. -/
structure Chooses (load : Candidate → ServeResources → Load) (selects : List Candidate → Uuid → Candidate → Prop)
    (candidates : List Candidate) (requested : ServeResources) (rng : Nat → Nat) : Prop where
  fitting : (∃ candidate ∈ candidates, candidate.hasPositiveCapacity ∧ (load candidate requested).Fits candidate.capacity) →
    ∃ chosen, LowestOf candidates (load · requested) (fun candidate => (load candidate requested).Fits candidate.capacity) chosen ∧
      chooseCandidateWithRng candidates requested rng none = .ok (chosen.place false .automatic)
  overflowing :
    (¬∃ candidate ∈ candidates, candidate.hasPositiveCapacity ∧ (load candidate requested).Fits candidate.capacity) →
    (∃ candidate ∈ candidates, candidate.hasPositiveCapacity ∧ (load candidate requested).Overflows candidate.capacity) →
    ∃ chosen, LowestOf candidates (load · requested) (fun candidate => (load candidate requested).Overflows candidate.capacity) chosen ∧
      chooseCandidateWithRng candidates requested rng none = .ok (chosen.place true .automatic)
  full :
    (¬∃ candidate ∈ candidates, candidate.hasPositiveCapacity ∧ (load candidate requested).Fits candidate.capacity) →
    (¬∃ candidate ∈ candidates, candidate.hasPositiveCapacity ∧ (load candidate requested).Overflows candidate.capacity) →
    chooseCandidateWithRng candidates requested rng none = .error .noCapacity
  manual : ∀ selected placement, chooseCandidateWithRng candidates requested rng (some selected) = .ok placement ↔
    ∃ candidate, selects candidates selected candidate ∧ (load candidate requested).Overflows candidate.capacity ∧
      placement = candidate.place (¬(load candidate requested).Fits candidate.capacity) .manual
  inRegion : ∀ region selected placement, chooseCandidateInRegion candidates requested rng (some region) selected = .ok placement →
    placement.region = region ∧ ∃ candidate ∈ candidates, candidate.nodeId = placement.nodeId ∧ candidate.region = region

def Present (candidates : List Candidate) (selected : Uuid) (candidate : Candidate) : Prop :=
  candidate ∈ candidates ∧ candidate.nodeId = selected ∧ candidate.hasPositiveCapacity

def FirstPresent (candidates : List Candidate) (selected : Uuid) (candidate : Candidate) : Prop :=
  (candidates.find? fun candidate => candidate.nodeId = selected ∧ candidate.hasPositiveCapacity) = some candidate

section Choosing
variable {candidates : List Candidate} {requested : ServeResources} {rng : Nat → Nat} {chosen : Candidate}

theorem chooseLowestRandom_some (found : chooseLowestRandom candidates requested rng = some chosen) :
    chosen ∈ candidates ∧ ∀ other ∈ candidates,
      (chosen.projected requested).dominantRatio ≤ (other.projected requested).dominantRatio :=
  mem_lowest.mp (List.mem_of_getElem? found)

theorem chooseLowestRandom_none : chooseLowestRandom candidates requested rng = none ↔ candidates = [] := by
  unfold chooseLowestRandom
  have nothing : lowest (fun candidate => (candidate.projected requested).dominantRatio) candidates = [] ↔ candidates = [] := lowest_eq_nil
  rw [List.getElem?_eq_none_iff,← nothing]
  constructor
  · intro beyond
    by_contra some
    exact absurd (Nat.mod_lt _ (List.length_pos_iff.mpr some)) (Nat.not_lt.mpr beyond)
  · intro nothing
    rw [nothing]
    exact Nat.zero_le _

theorem chooseLowestRandom_lowest {admits : Candidate → Bool} {Admits : Candidate → Prop}
    (same : ∀ candidate : Candidate, candidate.hasPositiveCapacity → (admits candidate ↔ Admits candidate))
    (found : chooseLowestRandom ((candidates.filter Candidate.hasPositiveCapacity).filter admits) requested rng = some chosen) :
    LowestOf candidates (·.saturated requested) Admits chosen := by
  obtain ⟨member,least⟩ := chooseLowestRandom_some found
  obtain ⟨eligible,admitted⟩ := List.mem_filter.mp member
  obtain ⟨listed,positive⟩ := List.mem_filter.mp eligible
  refine ⟨listed,positive,(same chosen positive).mp admitted,?_⟩
  intro other inside capacities admitted'
  have below := least other
    (List.mem_filter.mpr ⟨List.mem_filter.mpr ⟨inside,capacities⟩,(same other capacities).mpr admitted'⟩)
  rw [dominantRatio_eq positive,dominantRatio_eq capacities] at below
  exact WithTop.coe_le_coe.mp below

theorem chooseLowestRandom_empty {admits : Candidate → Bool} {Admits : Candidate → Prop}
    (same : ∀ candidate : Candidate, candidate.hasPositiveCapacity → (admits candidate ↔ Admits candidate)) :
    chooseLowestRandom ((candidates.filter Candidate.hasPositiveCapacity).filter admits) requested rng = none ↔
      ¬∃ candidate ∈ candidates, candidate.hasPositiveCapacity ∧ Admits candidate := by
  rw [chooseLowestRandom_none,List.filter_eq_nil_iff]
  constructor
  · rintro nothing ⟨candidate,listed,positive,admitted⟩
    exact nothing candidate (List.mem_filter.mpr ⟨listed,positive⟩) ((same candidate positive).mpr admitted)
  · intro nothing candidate eligible admitted
    obtain ⟨listed,positive⟩ := List.mem_filter.mp eligible
    exact nothing ⟨candidate,listed,positive,(same candidate positive).mp admitted⟩

private theorem manual_iff (selected : Uuid) (placement : Placement) :
    chooseCandidateWithRng candidates requested rng (some selected) = .ok placement ↔
      ∃ candidate, FirstPresent candidates selected candidate ∧ (candidate.saturated requested).Overflows candidate.capacity ∧
        placement = candidate.place (¬(candidate.saturated requested).Fits candidate.capacity) .manual := by
  unfold chooseCandidateWithRng FirstPresent
  simp only
  cases found : candidates.find? fun candidate => candidate.nodeId = selected ∧ candidate.hasPositiveCapacity with
  | none =>
    constructor
    · intro impossible
      cases impossible
    · rintro ⟨candidate,impossible,_⟩
      cases impossible
  | some candidate =>
    have there := List.find?_some found
    have positive := (of_decide_eq_true there).2
    have exceeds : (!(candidate.projected requested).allAtMostOne) = decide ¬(candidate.saturated requested).Fits candidate.capacity := by
      rw [Bool.eq_iff_iff,Bool.not_eq_true',decide_eq_true_iff,← allAtMostOne_iff positive,Bool.not_eq_true]
    simp only [canOverflow_iff,exceeds]
    constructor
    · intro chosen
      split at chosen
      · rename_i room
        cases chosen
        exact ⟨candidate,rfl,room,rfl⟩
      · cases chosen
    · rintro ⟨_,same,room,rfl⟩
      cases same
      exact if_pos room

theorem chooseCandidateWithRng_mem {selectedNodeId : Option Uuid} {placement : Placement}
    (chosen : chooseCandidateWithRng candidates requested rng selectedNodeId = .ok placement) :
    ∃ candidate ∈ candidates, candidate.nodeId = placement.nodeId ∧ candidate.region = placement.region := by
  cases selectedNodeId with
  | some selected =>
    obtain ⟨candidate,first,_,rfl⟩ := (manual_iff selected placement).mp chosen
    exact ⟨candidate,List.mem_of_find?_eq_some first,rfl,rfl⟩
  | none =>
    simp only [chooseCandidateWithRng] at chosen
    split at chosen
    · rename_i candidate drawn
      cases chosen
      have member := List.mem_of_mem_filter (chooseLowestRandom_some drawn).1
      exact ⟨candidate,List.mem_of_mem_filter member,rfl,rfl⟩
    · split at chosen
      · rename_i candidate drawn
        cases chosen
        have member := List.mem_of_mem_filter (chooseLowestRandom_some drawn).1
        exact ⟨candidate,List.mem_of_mem_filter member,rfl,rfl⟩
      · cases chosen

end Choosing

/-- The choice, for loads as far as 64 bits hold them and the first candidate with a selected id. -/
theorem placement_chooses_lowest (candidates : List Candidate) (requested : ServeResources) (rng : Nat → Nat) :
    Chooses Candidate.saturated FirstPresent candidates requested rng := by
  have fits := fun (candidate : Candidate) (positive : candidate.hasPositiveCapacity) =>
    @allAtMostOne_iff candidate requested positive
  have room := fun (candidate : Candidate) (_ : candidate.hasPositiveCapacity) => @canOverflow_iff candidate requested
  have none_fits := @chooseLowestRandom_empty candidates requested rng _ _ fits
  have none_overflows := @chooseLowestRandom_empty candidates requested rng _ _ room
  refine ⟨?_,?_,?_,manual_iff,?_⟩
  · intro some_fits
    simp only [chooseCandidateWithRng]
    split
    · rename_i chosen drawn
      exact ⟨chosen,chooseLowestRandom_lowest fits drawn,rfl⟩
    · rename_i nothing
      exact absurd some_fits (none_fits.mp nothing)
  · intro nothing_fits some_overflows
    simp only [chooseCandidateWithRng,none_fits.mpr nothing_fits]
    split
    · rename_i chosen drawn
      exact ⟨chosen,chooseLowestRandom_lowest room drawn,rfl⟩
    · rename_i nothing
      exact absurd some_overflows (none_overflows.mp nothing)
  · intro nothing_fits nothing_overflows
    simp only [chooseCandidateWithRng,none_fits.mpr nothing_fits,none_overflows.mpr nothing_overflows]
  · intro region selected placement chosen
    simp only [chooseCandidateInRegion] at chosen
    split at chosen
    · cases chosen
    · obtain ⟨candidate,member,node,same⟩ := chooseCandidateWithRng_mem chosen
      obtain ⟨listed,inside⟩ := List.mem_filter.mp member
      have there := of_decide_eq_true inside
      exact ⟨same.symm.trans there,candidate,listed,node,there⟩

/-! The choice without scores is one among the same candidates. -/

def Candidate.plain (candidate : Candidate) : Scheduler.Candidate where
  nodeId := candidate.nodeId
  region := candidate.region
  capacity := ⟨candidate.capacity.cpuMillicores.toNat,candidate.capacity.memoryMb.toNat,candidate.capacity.diskMb.toNat,
    candidate.capacity.maxDeployments.toNat⟩
  usage := ⟨candidate.usage.cpuMillicores.toNat,candidate.usage.memoryMb.toNat,candidate.usage.diskMb.toNat,
    candidate.usage.deployments.toNat⟩

def ServeResources.plain (requested : ServeResources) : Deployments.ServeResources :=
  ⟨requested.cpuMillicores.toNat,requested.memoryMb.toNat,requested.diskMb.toNat⟩

def Placement.plain (placement : Placement) : Scheduler.Placement :=
  ⟨placement.nodeId,placement.region,placement.overcommitted⟩

section Plain
variable {candidates : List Candidate} {requested : ServeResources} {rng : Nat → Nat}

theorem plain_hasPositiveCapacity (candidate : Candidate) :
    candidate.plain.hasPositiveCapacity = candidate.hasPositiveCapacity := by
  rw [Bool.eq_iff_iff,hasPositiveCapacity_iff]
  unfold Scheduler.Candidate.hasPositiveCapacity Candidate.plain
  rw [decide_eq_true_iff]
  simp only [Int.natCast_pos]

theorem plain_allAtMostOne {candidate : Candidate} (positive : candidate.hasPositiveCapacity)
    (held : candidate.saturated requested = candidate.exact requested) :
    candidate.plain.allAtMostOne requested.plain = (candidate.projected requested).allAtMostOne := by
  rw [Bool.eq_iff_iff,allAtMostOne_iff positive,held]
  unfold Scheduler.Candidate.allAtMostOne Load.Fits Candidate.plain ServeResources.plain Candidate.exact
  rw [decide_eq_true_iff]
  simp only
  norm_cast

theorem plain_canOverflow {candidate : Candidate} (held : candidate.saturated requested = candidate.exact requested) :
    candidate.plain.canOverflow requested.plain = candidate.canOverflow requested := by
  rw [Bool.eq_iff_iff,canOverflow_iff,held]
  unfold Scheduler.Candidate.canOverflow Load.Overflows Candidate.plain ServeResources.plain Candidate.exact
  rw [decide_eq_true_iff]
  simp only
  norm_cast

theorem plain_chooseLowestRandom (candidates : List Candidate) : ∃ choice,
    Scheduler.chooseLowestRandom choice (candidates.map Candidate.plain) =
      (chooseLowestRandom candidates requested rng).map Candidate.plain := by
  cases drawn : chooseLowestRandom candidates requested rng with
  | none =>
    rw [chooseLowestRandom_none.mp drawn]
    exact ⟨0,rfl⟩
  | some chosen =>
    obtain ⟨index,found⟩ := List.mem_iff_getElem?.mp (chooseLowestRandom_some drawn).1
    obtain ⟨inside,_⟩ := List.getElem?_eq_some_iff.mp found
    refine ⟨index,?_⟩
    unfold Scheduler.chooseLowestRandom
    rw [List.length_map,Nat.mod_eq_of_lt inside,List.getElem?_map,found]

private theorem plain_filter {admits : Candidate → Bool} {admits' : Scheduler.Candidate → Bool} (candidates : List Candidate)
    (same : ∀ candidate ∈ candidates, admits' candidate.plain = admits candidate) :
    (candidates.map Candidate.plain).filter admits' = (candidates.filter admits).map Candidate.plain := by
  rw [List.filter_map]
  exact congrArg _ (List.filter_congr same)

end Plain

def fullNode : Candidate where
  nodeId := 1
  region := "eu"
  capacity := ⟨.ofNat largest,1024,1024,4⟩
  usage := ⟨.ofNat largest,0,0,0⟩

def listedTwice : List Candidate :=
  [⟨1,"eu",⟨4,4,4,4⟩,⟨0,0,4,0⟩⟩,⟨1,"eu",⟨4,4,4,4⟩,⟨0,0,0,0⟩⟩]

/-- A full node seems to fit where the projection saturates, and only the first candidate with an id is selected. -/
theorem saturated_node_seems_to_fit : ¬Chooses Candidate.exact Present [fullNode] ⟨1,1,1⟩ id ∧
    ¬Chooses Candidate.exact Present listedTwice ⟨1,1,1⟩ id := by
  constructor
  · intro chooses
    obtain ⟨chosen,_,exceeds⟩ := chooses.overflowing (by decide) (by decide)
    have placed : chooseCandidateWithRng [fullNode] ⟨1,1,1⟩ id none = .ok (fullNode.place false .automatic) := by decide +kernel
    rw [placed] at exceeds
    have same : false = true := congrArg Placement.overcommitted (Except.ok.inj exceeds)
    cases same
  · intro chooses
    have refused : chooseCandidateWithRng listedTwice ⟨1,1,1⟩ id (some 1) = .error .selectedNodeCapacity := by decide
    have second : Present listedTwice 1 ⟨1,"eu",⟨4,4,4,4⟩,⟨0,0,0,0⟩⟩ := ⟨by decide,rfl,by decide⟩
    have chosen := (chooses.manual 1 _).mpr ⟨_,second,by decide,rfl⟩
    rw [refused] at chosen
    cases chosen

end GrassWorker.PlacementChoice
