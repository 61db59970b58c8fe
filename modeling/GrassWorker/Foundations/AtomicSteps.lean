import GrassWorker.Foundations.FileSystem
import Mathlib.Data.List.Nodup

/-! The atomic steps by which a file tree changes, and what each of them leaves as it is. -/
namespace GrassWorker.Files

namespace FileSystem
variable {fs : FileSystem} {source above loc other : Loc} {name : Name} {names : List Name}

def moved (source target loc : Loc) : Loc := if source <+: loc then target ++ loc.drop source.length else loc

section Moved
variable {target : Loc}

theorem moved_append : moved source target (source ++ names) = target ++ names := by
  rw [moved,if_pos (List.prefix_append ..),List.drop_left]

theorem moved_outside (outside : ¬source <+: loc) : moved source target loc = loc := if_neg outside

end Moved

theorem node_below_vacant (names : List Name) (vacant : fs.node loc = none) : fs.node (loc ++ names) = none := by
  by_cases own : names = []
  · rwa [own,List.append_nil]
  · cases found : fs.node (loc ++ names) with
    | none => rfl
    | some node =>
      rw [dir_above found own] at vacant
      cases vacant

private theorem keys_vacant (vacant : fs.node loc = none) {entry : Loc × Node} (member : entry ∈ fs.nodes) : ¬loc <+: entry.1 := by
  rintro ⟨rest,same⟩
  have deeper : entry.1 ≠ [] := by
    intro root
    obtain ⟨parent,last,made,_⟩ := fs.placed entry member
    rw [root] at made
    simp at made
  have there := (mem_nodes deeper).mp member
  rw [← same,node_below_vacant _ vacant] at there
  cases there

private theorem lookup_of_mem {nodes : List (Loc × Node)} (distinct : (nodes.map Prod.fst).Nodup) {loc : Loc} {node : Node}
    (member : (loc,node) ∈ nodes) : nodes.lookup loc = some node := (lookup_eq_some_iff distinct).mpr member

private theorem moved_injective (vacant : fs.node (above ++ [name]) = none) {first second : Loc × Node} (member : first ∈ fs.nodes)
    (member' : second ∈ fs.nodes) (same : moved source (above ++ [name]) first.1 = moved source (above ++ [name]) second.1) :
    first.1 = second.1 := by
  by_cases within : source <+: first.1
  · obtain ⟨rest,found⟩ := within
    by_cases within' : source <+: second.1
    · obtain ⟨rest',found'⟩ := within'
      rw [← found,← found',moved_append,moved_append,List.append_cancel_left_eq] at same
      rw [← found,← found',same]
    · rw [← found,moved_append,moved_outside within'] at same
      exact absurd ⟨rest,same⟩ (keys_vacant vacant member')
  · by_cases within' : source <+: second.1
    · obtain ⟨rest',found'⟩ := within'
      rw [← found',moved_append,moved_outside within] at same
      exact absurd ⟨rest',same.symm⟩ (keys_vacant vacant member)
    · rwa [moved_outside within,moved_outside within'] at same

private theorem moved_distinct (vacant : fs.node (above ++ [name]) = none) :
    ((fs.nodes.map fun entry => (moved source (above ++ [name]) entry.1,entry.2)).map Prod.fst).Nodup := by
  have entries : fs.nodes.Nodup := List.Nodup.of_map _ fs.distinct
  rw [List.map_map,List.nodup_map_iff_inj_on entries]
  intro first member second member' same
  have keys : first.1 = second.1 := moved_injective vacant member member' same
  exact List.inj_on_of_nodup_map fs.distinct member member' keys

private theorem lookup_moved (source : Loc) (vacant : fs.node (above ++ [name]) = none) {entry : Loc × Node} (member : entry ∈ fs.nodes) :
    (fs.nodes.map fun entry => (moved source (above ++ [name]) entry.1,entry.2)).lookup (moved source (above ++ [name]) entry.1) =
      some entry.2 :=
  lookup_of_mem (moved_distinct vacant) (List.mem_map.mpr ⟨entry,member,rfl⟩)

def move (source above : Loc) (name : Name) (deeper : source ≠ []) (inside : fs.node above = some .dir) (valid : ValidName name)
    (vacant : fs.node (above ++ [name]) = none) (outside : ¬source <+: above) : FileSystem where
  nodes := fs.nodes.map fun entry => (moved source (above ++ [name]) entry.1,entry.2)
  distinct := moved_distinct vacant
  placed := by
    have kept : ∀ dir, ¬source <+: dir → fs.node dir = some .dir →
        nodeIn (fs.nodes.map fun entry => (moved source (above ++ [name]) entry.1,entry.2)) dir = some .dir := by
      intro dir away there
      rw [nodeIn]
      split
      · rfl
      · rename_i root
        have found := lookup_moved source vacant ((mem_nodes root).mpr there)
        rwa [moved_outside away] at found
    intro entry member
    obtain ⟨old,listed,rfl⟩ := List.mem_map.mp member
    obtain ⟨parent,last,same,right,dir⟩ := fs.placed old listed
    by_cases within : source <+: old.1
    · obtain ⟨rest,found⟩ := within
      cases rest using List.reverseRecOn with
      | nil =>
        refine ⟨above,name,?_,valid,kept above outside inside⟩
        change moved source (above ++ [name]) old.1 = _
        rw [← found,moved_append,List.append_nil]
      | append_singleton rest final =>
        rw [← found,← List.append_assoc] at same
        obtain ⟨rfl,rfl⟩ := List.append_singleton_inj.mp same
        refine ⟨above ++ [name] ++ rest,final,?_,right,?_⟩
        · change moved source (above ++ [name]) old.1 = _
          rw [← found,moved_append,List.append_assoc (above ++ [name])]
        · have place := lookup_moved source vacant ((mem_nodes (by simp [deeper])).mpr dir)
          rw [moved_append] at place
          rw [nodeIn,if_neg (by simp)]
          exact place
    · have away : ¬source <+: parent := by
        intro inner
        exact within (same ▸ inner.trans (List.prefix_append ..))
      refine ⟨parent,last,?_,right,kept parent away dir⟩
      change moved source (above ++ [name]) old.1 = _
      rw [moved_outside within,same]

section Move
variable {deeper : source ≠ []} {inside : fs.node above = some .dir} {valid : ValidName name}
  {vacant : fs.node (above ++ [name]) = none} {outside : ¬source <+: above} {node : Node}

theorem node_move_iff (nonempty : loc ≠ []) :
    (fs.move source above name deeper inside valid vacant outside).node loc = some node ↔
      ∃ old, old ≠ [] ∧ fs.node old = some node ∧ moved source (above ++ [name]) old = loc := by
  rw [← mem_nodes nonempty]
  change (loc,node) ∈ fs.nodes.map _ ↔ _
  rw [List.mem_map]
  constructor
  · rintro ⟨⟨old,own⟩,member,same⟩
    obtain ⟨rfl,rfl⟩ := Prod.mk.inj same
    have root : old ≠ [] := by
      rintro rfl
      exact nil_not_mem member
    exact ⟨old,root,(mem_nodes root).mp member,rfl⟩
  · rintro ⟨old,root,found,rfl⟩
    exact ⟨(old,node),(mem_nodes root).mpr found,rfl⟩

theorem node_move_below : (fs.move source above name deeper inside valid vacant outside).node (above ++ [name] ++ names) =
    fs.node (source ++ names) := by
  refine Option.ext fun node => ?_
  rw [node_move_iff (by simp)]
  constructor
  · rintro ⟨old,root,found,same⟩
    by_cases within : source <+: old
    · obtain ⟨rest,rfl⟩ := within
      rw [moved_append,List.append_cancel_left_eq] at same
      rwa [← same]
    · rw [moved_outside within] at same
      rw [same,node_below_vacant _ vacant] at found
      cases found
  · intro found
    exact ⟨source ++ names,by simp [deeper],found,moved_append⟩

theorem node_move_outside (away : ¬source <+: loc) (away' : ¬above ++ [name] <+: loc) :
    (fs.move source above name deeper inside valid vacant outside).node loc = fs.node loc := by
  by_cases root : loc = []
  · subst root
    rfl
  refine Option.ext fun node => ?_
  rw [node_move_iff root]
  constructor
  · rintro ⟨old,_,found,same⟩
    by_cases within : source <+: old
    · obtain ⟨rest,rfl⟩ := within
      rw [moved_append] at same
      exact absurd ⟨rest,same⟩ away'
    · rw [moved_outside within] at same
      rwa [← same]
  · exact fun found => ⟨loc,root,found,moved_outside away⟩

end Move

end FileSystem

/-! The steps. -/

inductive Step
  | createDir (above : Loc) (name : Name)
  | write (above : Loc) (name : Name) (content : Content)
  /-- Of a file, a link or an empty directory. -/
  | delete (above : Loc) (name : Name)
  /-- Of a directory, to a place where there is nothing or an empty directory. -/
  | rename (source above : Loc) (name : Name)
deriving DecidableEq

namespace FileSystem
variable (fs : FileSystem)

def isEmptyDir (loc : Loc) : Bool := fs.node loc = some .dir ∧ fs.below loc = []

def cleared (loc : Loc) : FileSystem := if loc ≠ [] ∧ fs.isEmptyDir loc then fs.remove loc else fs

def step : Step → Option FileSystem
  | .createDir above name =>
    if free : fs.node above = some .dir ∧ ValidName name ∧ fs.node (above ++ [name]) = none then
      some (fs.put above name .dir free.1 free.2.1 (by simp [free.2.2]))
    else none
  | .write above name content =>
    if free : fs.node above = some .dir ∧ ValidName name ∧ fs.node (above ++ [name]) ≠ some .dir then
      some (fs.put above name (.file content) free.1 free.2.1 free.2.2)
    else none
  | .delete above name =>
    if fs.node (above ++ [name]) ≠ none ∧ fs.below (above ++ [name]) = [] then some (fs.remove (above ++ [name])) else none
  | .rename source above name =>
    let cleared := fs.cleared (above ++ [name])
    if free : source ≠ [] ∧ cleared.node source = some .dir ∧ cleared.node above = some .dir ∧ ValidName name ∧
        cleared.node (above ++ [name]) = none ∧ ¬source <+: above then
      some (cleared.move source above name free.1 free.2.2.1 free.2.2.2.1 free.2.2.2.2.1 free.2.2.2.2.2)
    else none

end FileSystem

def Step.Away (loc : Loc) : Step → Prop
  | .createDir above name => loc ≠ above ++ [name]
  | .write above name _ => loc ≠ above ++ [name]
  | .delete above name => loc ≠ above ++ [name]
  | .rename source above name => ¬source <+: loc ∧ ¬above ++ [name] <+: loc

section Steps
variable {fs after : FileSystem} {above loc source : Loc} {name : Name} {names : List Name} {content : Content}

theorem node_cleared (away : ¬loc <+: names) : (fs.cleared loc).node names = fs.node names := by
  unfold FileSystem.cleared
  split
  · rw [FileSystem.node_remove,if_neg fun within => away within.2]
  · rfl

theorem step_createDir (done : fs.step (.createDir above name) = some after) :
    (fs.node above = some .dir ∧ ValidName name ∧ fs.node (above ++ [name]) = none) ∧
      ∀ loc, after.node loc = if loc = above ++ [name] then some .dir else fs.node loc := by
  simp only [FileSystem.step] at done
  split at done
  · rename_i free
    cases done
    exact ⟨free,fun loc => FileSystem.node_put ..⟩
  · cases done

theorem step_write (done : fs.step (.write above name content) = some after) :
    (fs.node above = some .dir ∧ ValidName name ∧ fs.node (above ++ [name]) ≠ some .dir) ∧
      ∀ loc, after.node loc = if loc = above ++ [name] then some (.file content) else fs.node loc := by
  simp only [FileSystem.step] at done
  split at done
  · rename_i free
    cases done
    exact ⟨free,fun loc => FileSystem.node_put ..⟩
  · cases done

theorem step_delete (done : fs.step (.delete above name) = some after) (loc : Loc) :
    after.node loc = if loc = above ++ [name] then none else fs.node loc := by
  simp only [FileSystem.step] at done
  split at done
  · rename_i free
    cases done
    rw [FileSystem.node_remove]
    by_cases own : loc = above ++ [name]
    · rw [if_pos own,if_pos ⟨by simp [own],own ▸ List.prefix_refl _⟩]
    · rw [if_neg own]
      split
      · rename_i within
        obtain ⟨rest,rfl⟩ := within.2
        have deeper : rest ≠ [] := fun none => own (by rw [none,List.append_nil])
        cases found : fs.node (above ++ [name] ++ rest) with
        | none => rfl
        | some node =>
          have member := mem_below.mpr ⟨deeper,found⟩
          rw [free.2] at member
          cases member
      · rfl
  · cases done

theorem step_rename (names : List Name) (done : fs.step (.rename source above name) = some after) (away : ¬above ++ [name] <+: source ++ names) :
    after.node (above ++ [name] ++ names) = fs.node (source ++ names) := by
  simp only [FileSystem.step] at done
  split at done
  · cases done
    rw [FileSystem.node_move_below,node_cleared away]
  · cases done

theorem step_frame {step : Step} (done : fs.step step = some after) (away : step.Away loc) : after.node loc = fs.node loc := by
  cases step with
  | createDir above name => rw [(step_createDir done).2,if_neg away]
  | write above name content => rw [(step_write done).2,if_neg away]
  | delete above name => rw [step_delete done,if_neg away]
  | rename source above name =>
    obtain ⟨first,second⟩ := away
    simp only [FileSystem.step] at done
    split at done
    · cases done
      rw [FileSystem.node_move_outside first second,node_cleared second]
    · cases done

end Steps

end GrassWorker.Files
