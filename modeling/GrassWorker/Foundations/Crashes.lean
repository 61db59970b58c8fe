import GrassWorker.Foundations.AtomicSteps
import GrassWorker.Foundations.Contracts

/-! Programs that change a file tree by atomic steps. A step may fail, or be one that the program does not live to
take, and every tree that was there on the way is kept. -/
namespace GrassWorker.Crashes
open Files Contracts

inductive Outcome
  | proceeds | fails | crashes
deriving DecidableEq

/-- What becomes of the next call, and which of the entries it comes to first. -/
structure Fate where
  outcome : Outcome := .proceeds
  pick : Nat := 0

inductive Halt
  | error (message : String)
  | crash
deriving DecidableEq

structure World where
  tree : FileSystem
  /-- The steps that were taken, the latest first, each with the tree it was taken on. -/
  log : List (FileSystem × Step) := []
  fates : List Fate := []

def World.trees (world : World) : List FileSystem := world.tree :: world.log.map Prod.fst

abbrev Script := EStateM Halt World

def fate : Script Fate := fun world => .ok (world.fates.headD {}) { world with fates := world.fates.tail }

def check : Script Unit := do
  match (← fate).outcome with
  | .proceeds => return
  | .fails => throw (.error "call failed")
  | .crashes => throw .crash

def change (step : Step) : Script Unit := do
  check
  let world ← get
  match world.tree.step step with
  | some after => set { world with tree := after, log := (world.tree,step) :: world.log }
  | none => throw (.error "step failed")

def attempt {α : Type} (script : Script α) : Script (Except String α) := fun world =>
  match script world with
  | .ok value after => .ok (.ok value) after
  | .error (.error message) after => .ok (.error message) after
  | .error .crash after => .error .crash after

def leaves (tree : FileSystem) (loc : Loc) : List Loc :=
  (loc :: (tree.below loc).map fun entry => loc ++ entry.1).filter fun place => tree.below place = []

def nextLeaf (world : World) (loc : Loc) : Loc :=
  let places := leaves world.tree loc
  (places[(world.fates.headD {}).pick % places.length]?).getD loc

/-- A directory is deleted entry by entry, in any order in which the entries of a directory are deleted before it. -/
def removeAllIn : Nat → Loc → Script Unit
  | 0,_ => throw (.error "directory not empty")
  | rounds + 1,loc => do
    let world ← get
    match (nextLeaf world loc).getLast? with
    | none => throw (.error "invalid argument")
    | some name => do
      change (.delete (nextLeaf world loc).dropLast name)
      if nextLeaf world loc = loc then return else removeAllIn rounds loc

def removeAll (loc : Loc) : Script Unit := do
  check
  let world ← get
  if world.tree.node loc ≠ some .dir then throw (.error "not a directory")
  else removeAllIn ((world.tree.below loc).length + 1) loc

/-! What holds of the trees on the way, as long as every step that is taken is one that may be. -/

section Held
-- The steps that may be taken on a tree, and what is to hold of every tree.
variable (may : FileSystem → Step → Prop) (invariant : FileSystem → Prop)

def Held (property : FileSystem → Prop) (world : World) : Prop :=
  (∀ entry ∈ world.log, may entry.1 entry.2) → property world.tree ∧ ∀ entry ∈ world.log, invariant entry.1

/-- From trees with a property a script leads to others, also where it fails. A crash leaves the invariant. -/
def Carries (before : FileSystem → Prop) {α : Type} (script : Script α) (done : α → FileSystem → Prop) (failed : FileSystem → Prop) : Prop :=
  ∀ world, Held may invariant before world →
    Ends (script world) (fun value after => Held may invariant (done value) after) fun halt after =>
      match halt with
      | .error _ => Held may invariant failed after
      | .crash => Held may invariant invariant after

variable {may invariant} {α β : Type} {before : FileSystem → Prop} {done : α → FileSystem → Prop} {failed : FileSystem → Prop}

theorem Held.mono {property weaker : FileSystem → Prop} {world : World} (held : Held may invariant property world)
    (implies : ∀ tree, property tree → weaker tree) : Held may invariant weaker world :=
  fun allowed => ⟨implies _ (held allowed).1,(held allowed).2⟩

namespace Carries

theorem mono {script : Script α} {before' : FileSystem → Prop} {done' : α → FileSystem → Prop} {failed' : FileSystem → Prop}
    (carries : Carries may invariant before script done failed) (stronger : ∀ tree, before' tree → before tree)
    (weaker : ∀ value tree, done value tree → done' value tree) (weaker' : ∀ tree, failed tree → failed' tree) :
    Carries may invariant before' script done' failed' := by
  intro world held
  refine (carries world (held.mono stronger)).mono (fun value after own => own.mono (weaker value)) fun halt after own => ?_
  cases halt with
  | error message => exact own.mono weaker'
  | crash => exact own

theorem pure {value : α} (implies : ∀ tree, before tree → done value tree) :
    Carries may invariant before (Pure.pure value) done failed := fun _ held => held.mono implies

theorem throw {message : String} (implies : ∀ tree, before tree → failed tree) :
    Carries may invariant before (MonadExcept.throw (Halt.error message) : Script α) done failed := fun _ held => held.mono implies

theorem bind {first : Script α} {next : α → Script β} {M : α → FileSystem → Prop} {done : β → FileSystem → Prop}
    (starts : Carries may invariant before first M failed)
    (continues : ∀ value, Carries may invariant (M value) (next value) done failed) :
    Carries may invariant before (first >>= next) done failed :=
  fun world held => (starts world held).bind fun value after held' => continues value after held'

theorem ite {condition : Prop} [Decidable condition] {first second : Script α}
    (yes : condition → Carries may invariant before first done failed) (no : ¬condition → Carries may invariant before second done failed) :
    Carries may invariant before (if condition then first else second) done failed := by
  split
  · exact yes ‹_›
  · exact no ‹_›

theorem fate : Carries may invariant before fate (fun _ tree => before tree) failed := fun _ held => held

theorem look {next : World → Script α} (continues : ∀ world, Carries may invariant (fun tree => before tree ∧ tree = world.tree) (next world) done failed) :
    Carries may invariant before (get >>= next) done failed :=
  fun world held => continues world world fun allowed => ⟨⟨(held allowed).1,rfl⟩,(held allowed).2⟩

theorem check (implies : ∀ tree, before tree → failed tree) (safe : ∀ tree, before tree → invariant tree) :
    Carries may invariant before check (fun _ tree => before tree) failed := by
  refine fate.bind fun next => ?_
  cases next.outcome with
  | proceeds => exact pure fun _ held => held
  | fails => exact throw implies
  | crashes => exact fun _ held => held.mono safe

theorem change {step : Step} {after : FileSystem → Prop} (implies : ∀ tree, before tree → failed tree)
    (safe : ∀ tree, before tree → invariant tree)
    (stepped : ∀ tree next, before tree → may tree step → tree.step step = some next → after next) :
    Carries may invariant before (change step) (fun _ => after) failed := by
  refine (check implies safe).bind fun _ => ?_
  intro world held
  change Ends ((match world.tree.step step with
    | some after => set { world with tree := after, log := (world.tree,step) :: world.log }
    | none => MonadExcept.throw (Halt.error "step failed") : Script Unit) world) _ _
  cases outcome : world.tree.step step with
  | none => exact held.mono implies
  | some next =>
    intro allowed
    obtain ⟨own,earlier⟩ := List.forall_mem_cons.mp allowed
    have before' := held earlier
    exact ⟨stepped _ _ before'.1 own outcome,List.forall_mem_cons.mpr ⟨safe _ before'.1,before'.2⟩⟩

theorem attempt {script : Script α} (carries : Carries may invariant before script done failed) :
    Carries may invariant before (attempt script) (fun result tree => match result with
      | .ok value => done value tree
      | .error _ => failed tree) failed := by
  intro world held
  have own := carries world held
  unfold Crashes.attempt
  cases outcome : script world with
  | ok value after =>
    rw [outcome] at own
    exact own
  | error halt after =>
    rw [outcome] at own
    cases halt with
    | error message => exact own
    | crash => exact own

theorem foldlM {item : Type} {round : β → item → Script β} (holds : List item → β → FileSystem → Prop)
    (kept : ∀ seen value next, Carries may invariant (holds seen value) (round value next) (holds (seen ++ [next])) failed)
    (seen items : List item) (value : β) :
    Carries may invariant (holds seen value) (items.foldlM round value) (holds (seen ++ items)) failed := by
  induction items generalizing seen value with
  | nil =>
    rw [List.append_nil]
    exact pure fun _ held => held
  | cons next items ih =>
    rw [List.foldlM_cons]
    refine (kept seen value next).bind fun value' => ?_
    have rest := ih (seen ++ [next]) value'
    rwa [List.append_assoc,List.singleton_append] at rest

end Carries

theorem prefix_nextLeaf (world : World) (loc : Loc) : loc <+: nextLeaf world loc := by
  simp only [nextLeaf]
  cases found : (leaves world.tree loc)[(world.fates.headD {}).pick % (leaves world.tree loc).length]? with
  | none => exact List.prefix_refl _
  | some place =>
    have member := (List.mem_filter.mp (List.mem_of_getElem? found)).1
    obtain rfl | lower := List.mem_cons.mp member
    · exact List.prefix_refl _
    · obtain ⟨entry,_,rfl⟩ := List.mem_map.mp lower
      exact List.prefix_append ..

theorem removeAllIn_carries {loc : Loc} {property : FileSystem → Prop} (safe : ∀ tree, property tree → invariant tree)
    (kept : ∀ tree next above name, loc <+: above ++ [name] → property tree → may tree (.delete above name) →
      tree.step (.delete above name) = some next → property next) (rounds : Nat) :
    Carries may invariant property (removeAllIn rounds loc) (fun _ => property) property := by
  induction rounds with
  | zero => exact .throw fun _ held => held
  | succ rounds ih =>
    unfold removeAllIn
    refine .look fun world => ?_
    cases ends : (nextLeaf world loc).getLast? with
    | none => exact .throw fun _ held => held.1
    | some name =>
      have whole := List.dropLast_append_getLast? _ ends
      have stepped : Carries may invariant (fun tree => property tree ∧ tree = world.tree) (change (.delete (nextLeaf world loc).dropLast name))
          (fun _ => property) property := by
        refine .change (fun _ held => held.1) (fun _ held => safe _ held.1) fun tree next held allowed done => ?_
        exact kept tree next _ _ (whole.symm ▸ prefix_nextLeaf world loc) held.1 allowed done
      refine stepped.bind fun _ => ?_
      · exact .ite (fun _ => .pure fun _ held => held) fun _ => ih

theorem removeAll_carries {loc : Loc} {property : FileSystem → Prop} (safe : ∀ tree, property tree → invariant tree)
    (kept : ∀ tree next above name, loc <+: above ++ [name] → property tree → may tree (.delete above name) →
      tree.step (.delete above name) = some next → property next) :
    Carries may invariant property (removeAll loc) (fun _ => property) property := by
  refine (Carries.check (fun _ held => held) safe).bind fun _ => .look fun world => .ite ?_ ?_
  · exact fun _ => .throw fun _ held => held.1
  · exact fun _ => (removeAllIn_carries safe kept _).mono (fun _ held => held.1) (fun _ _ held => held) fun _ held => held

end Held

end GrassWorker.Crashes
