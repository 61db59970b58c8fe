import GrassWorker.Foundations.UnixPath
import Mathlib.Data.List.Induction

/-! A file system of directories, regular files and symbolic links, and how the system
finds what a path names in it. -/
namespace GrassWorker.Files
open UnixPath

abbrev Name := List Char

abbrev Loc := List Name

abbrev Content := List UInt8

inductive Node
  | dir
  | file (content : Content)
  | link (target : Path)
deriving DecidableEq

def ValidName (name : Name) : Prop := name ≠ [] ∧ '/' ∉ name ∧ name ≠ ['.'] ∧ name ≠ ['.','.']

instance (name : Name) : Decidable (ValidName name) := inferInstanceAs (Decidable (_ ∧ _))

section Names
variable {name path : List Char} {c : Char}

theorem mem_intercalate {pieces : List (List Char)} (piece : name ∈ pieces) (member : c ∈ name) :
    c ∈ ['/'].intercalate pieces := by
  induction pieces with
  | nil => cases piece
  | cons first rest ih =>
    cases rest with
    | nil =>
      rw [List.mem_singleton.mp piece] at member
      simpa using member
    | cons second rest =>
      rw [List.intercalate_cons_cons,List.mem_append,List.mem_append]
      obtain rfl | later := List.mem_cons.mp piece
      · exact .inl (.inl member)
      · exact .inr (ih later)

theorem valid_of_mem_components (named : .normal name ∈ components path) :
    ValidName name ∧ ∀ c ∈ name, c ∈ path := by
  rw [components,List.mem_append] at named
  obtain start | later := named
  · exfalso
    unfold anchor at start
    split at start
    · simp at start
    · split at start <;> simp at start
  · obtain ⟨piece,member,made⟩ := List.mem_filterMap.mp later
    have same : piece = name ∧ name ≠ [] ∧ name ≠ ['.'] ∧ name ≠ ['.','.'] := by
      unfold component at made
      split at made <;> simp_all
    obtain ⟨rfl,nonempty,dot,dots⟩ := same
    refine ⟨⟨nonempty,free_of_mem_splitOn member,dot,dots⟩,?_⟩
    intro c inside
    have whole := mem_intercalate member inside
    rwa [List.intercalate_splitOn] at whole

theorem component_of_valid (valid : ValidName name) : component name = some (.normal name) := by
  obtain ⟨nonempty,_,dot,dots⟩ := valid
  unfold component
  split <;> simp_all

end Names

def nodeIn (nodes : List (Loc × Node)) (loc : Loc) : Option Node := if loc = [] then some .dir else nodes.lookup loc

/-- The order of the nodes stands for the order in which a directory lists its entries. -/
structure FileSystem where
  nodes : List (Loc × Node)
  distinct : (nodes.map Prod.fst).Nodup
  placed : ∀ entry ∈ nodes, ∃ above name, entry.1 = above ++ [name] ∧ ValidName name ∧ nodeIn nodes above = some .dir

def wellPlaced (nodes : List (Loc × Node)) (entry : Loc × Node) : Bool :=
  match entry.1.getLast? with
  | none => false
  | some name => ValidName name ∧ nodeIn nodes entry.1.dropLast = some .dir

theorem placed_of_wellPlaced {nodes : List (Loc × Node)} (checked : nodes.all (wellPlaced nodes)) :
    ∀ entry ∈ nodes, ∃ above name, entry.1 = above ++ [name] ∧ ValidName name ∧ nodeIn nodes above = some .dir := by
  intro entry member
  have own := List.all_eq_true.mp checked entry member
  simp only [wellPlaced] at own
  split at own
  · cases own
  · rename_i name ends
    obtain ⟨valid,dir⟩ := of_decide_eq_true own
    exact ⟨_,name,(List.dropLast_append_getLast? _ ends).symm,valid,dir⟩

namespace FileSystem
variable (fs : FileSystem)

def node (loc : Loc) : Option Node := nodeIn fs.nodes loc

def below (loc : Loc) : List (Loc × Node) := fs.nodes.filterMap fun entry =>
  if loc <+: entry.1 ∧ loc ≠ entry.1 then some (entry.1.drop loc.length,entry.2) else none

def children (loc : Loc) : List (Name × Node) := fs.nodes.filterMap fun entry =>
  match entry.1.getLast? with
  | some name => if entry.1.dropLast = loc then some (name,entry.2) else none
  | none => none

end FileSystem

section Nodes
variable {fs : FileSystem} {loc above : Loc} {name : Name} {names : List Name} {node : Node}

theorem lookup_filter (keep : Loc → Bool) (nodes : List (Loc × Node)) (loc : Loc) :
    (nodes.filter fun entry => keep entry.1).lookup loc = if keep loc then nodes.lookup loc else none := by
  induction nodes with
  | nil => simp
  | cons entry rest ih =>
    obtain ⟨key,value⟩ := entry
    by_cases same : loc = key
    · subst same
      by_cases kept : keep loc <;> simp [kept,ih]
    · have other : (loc == key) = false := beq_false_of_ne same
      by_cases kept : keep key <;> simp [List.lookup_cons,kept,other,ih]

theorem lookup_eq_some_iff {nodes : List (Loc × Node)} (distinct : (nodes.map Prod.fst).Nodup) :
    nodes.lookup loc = some node ↔ (loc,node) ∈ nodes := by
  induction nodes with
  | nil => simp
  | cons entry rest ih =>
    obtain ⟨key,value⟩ := entry
    rw [List.map_cons,List.nodup_cons] at distinct
    by_cases same : loc = key
    · subst same
      have absent : (loc,node) ∉ rest := fun member => distinct.1 (List.mem_map.mpr ⟨_,member,rfl⟩)
      simp [absent,eq_comm]
    · have other : (loc == key) = false := beq_false_of_ne same
      simp [List.lookup_cons,other,ih distinct.2,same]

@[simp] theorem node_nil : fs.node [] = some .dir := rfl

theorem node_eq_lookup (deeper : loc ≠ []) : fs.node loc = fs.nodes.lookup loc := if_neg deeper

theorem nil_not_mem : ([],node) ∉ fs.nodes := by
  intro member
  obtain ⟨above,name,same,_⟩ := fs.placed _ member
  simp at same

theorem mem_nodes (deeper : loc ≠ []) : (loc,node) ∈ fs.nodes ↔ fs.node loc = some node := by
  rw [node_eq_lookup deeper,lookup_eq_some_iff fs.distinct]

theorem dir_of_node (found : fs.node (above ++ [name]) = some node) : ValidName name ∧ fs.node above = some .dir := by
  obtain ⟨parent,last,same,valid,dir⟩ := fs.placed _ ((mem_nodes (by simp)).mpr found)
  obtain ⟨rfl,rfl⟩ := List.append_singleton_inj.mp same
  exact ⟨valid,dir⟩

theorem dir_above (found : fs.node (loc ++ names) = some node) (deeper : names ≠ []) : fs.node loc = some .dir := by
  induction names using List.reverseRecOn generalizing node with
  | nil => exact absurd rfl deeper
  | append_singleton names name ih =>
    rw [← List.append_assoc] at found
    have dir := (dir_of_node found).2
    cases names with
    | nil => simpa using dir
    | cons first rest => exact ih dir (by simp)

theorem valid_of_node (found : fs.node (loc ++ names) = some node) (member : name ∈ names) : ValidName name := by
  induction names using List.reverseRecOn generalizing node with
  | nil => cases member
  | append_singleton names last ih =>
    rw [← List.append_assoc] at found
    obtain ⟨valid,dir⟩ := dir_of_node found
    obtain earlier | same := List.mem_append.mp member
    · exact ih dir earlier
    · rwa [List.mem_singleton.mp same]

theorem mem_below : (names,node) ∈ fs.below loc ↔ names ≠ [] ∧ fs.node (loc ++ names) = some node := by
  simp only [FileSystem.below,List.mem_filterMap,Option.ite_none_right_eq_some,Option.some.injEq,Prod.mk.injEq]
  constructor
  · rintro ⟨⟨key,value⟩,member,⟨⟨rest,rfl⟩,other⟩,rfl,rfl⟩
    have deeper : rest ≠ [] := by
      rintro rfl
      exact other (by simp)
    simp only [List.drop_left]
    exact ⟨deeper,(mem_nodes (by simp [deeper])).mp member⟩
  · rintro ⟨deeper,found⟩
    exact ⟨(loc ++ names,node),(mem_nodes (by simp [deeper])).mpr found,⟨⟨names,rfl⟩,by simpa using Ne.symm deeper⟩,
      by simp,rfl⟩

theorem mem_children : (name,node) ∈ fs.children loc ↔ fs.node (loc ++ [name]) = some node := by
  simp only [FileSystem.children,List.mem_filterMap]
  constructor
  · rintro ⟨⟨key,value⟩,member,chosen⟩
    split at chosen
    · rename_i last ends
      rw [Option.ite_none_right_eq_some,Option.some.injEq,Prod.mk.injEq] at chosen
      obtain ⟨rfl,rfl,rfl⟩ := chosen
      have whole := List.dropLast_append_getLast? _ ends
      rw [whole]
      refine (mem_nodes ?_).mp member
      rintro rfl
      cases ends
    · cases chosen
  · intro found
    exact ⟨(loc ++ [name],node),(mem_nodes (by simp)).mpr found,by simp⟩

theorem dir_of_isPrefix {other : Loc} (found : fs.node other = some node) (before : loc <+: other) (different : loc ≠ other) :
    fs.node loc = some .dir := by
  obtain ⟨names,rfl⟩ := before
  exact dir_above found fun same => different (by simp [same])

end Nodes

/-! What changes a file system. -/
namespace FileSystem
variable (fs : FileSystem)

def place (loc : Loc) (node : Node) : List (Loc × Node) := (loc,node) :: fs.nodes.filter fun entry => entry.1 ≠ loc

private theorem nodeIn_place {loc other : Loc} {node : Node} (deeper : loc ≠ []) :
    nodeIn (fs.place loc node) other = if other = loc then some node else fs.node other := by
  by_cases root : other = []
  · subst root
    rw [if_neg (Ne.symm deeper)]
    rfl
  · rw [nodeIn,if_neg root,place]
    by_cases same : other = loc
    · subst same
      simp
    · have unequal : (other == loc) = false := beq_false_of_ne same
      have kept := lookup_filter (fun key => decide (key ≠ loc)) fs.nodes other
      rw [List.lookup_cons,unequal,if_neg same,node_eq_lookup root,kept,if_pos (by simpa using same)]

def put (above : Loc) (name : Name) (node : Node) (inside : fs.node above = some .dir) (valid : ValidName name)
    (vacant : fs.node (above ++ [name]) ≠ some .dir) : FileSystem where
  nodes := fs.place (above ++ [name]) node
  distinct := by
    rw [place,List.map_cons,List.nodup_cons]
    refine ⟨by simp,?_⟩
    exact fs.distinct.sublist (List.Sublist.map _ (List.filter_sublist ..))
  placed := by
    have kept : ∀ dir, fs.node dir = some .dir → nodeIn (fs.place (above ++ [name]) node) dir = some .dir := by
      intro dir there
      rw [nodeIn_place fs (by simp)]
      by_cases same : dir = above ++ [name]
      · subst same
        exact absurd there vacant
      · rw [if_neg same,there]
    intro entry member
    rw [place,List.mem_cons,List.mem_filter] at member
    obtain rfl | old := member
    · exact ⟨above,name,rfl,valid,kept above inside⟩
    · obtain ⟨parent,last,same,right,dir⟩ := fs.placed entry old.1
      exact ⟨parent,last,same,right,kept parent dir⟩

def remove (loc : Loc) : FileSystem where
  nodes := fs.nodes.filter fun entry => ¬loc <+: entry.1
  distinct := fs.distinct.sublist (List.Sublist.map _ (List.filter_sublist ..))
  placed := by
    intro entry member
    rw [List.mem_filter] at member
    obtain ⟨above,name,same,valid,dir⟩ := fs.placed entry member.1
    refine ⟨above,name,same,valid,?_⟩
    by_cases root : above = []
    · subst root
      rfl
    · have outside : ¬loc <+: above := by
        intro within
        have gone := of_decide_eq_true member.2
        rw [same] at gone
        exact gone (within.trans (List.prefix_append ..))
      rw [nodeIn,if_neg root] at dir ⊢
      rw [lookup_filter fun key => decide ¬loc <+: key,if_pos (by simpa using outside)]
      exact dir

variable {fs}

@[simp] theorem node_put {above other : Loc} {name : Name} {node : Node} (inside : fs.node above = some .dir)
    (valid : ValidName name) (vacant : fs.node (above ++ [name]) ≠ some .dir) :
    (fs.put above name node inside valid vacant).node other =
      if other = above ++ [name] then some node else fs.node other :=
  nodeIn_place fs (by simp)

@[simp] theorem node_remove {loc other : Loc} :
    (fs.remove loc).node other = if other ≠ [] ∧ loc <+: other then none else fs.node other := by
  by_cases root : other = []
  · subst root
    simp
  · have filtered := lookup_filter (fun key => decide ¬loc <+: key) fs.nodes other
    rw [node_eq_lookup root,node_eq_lookup root]
    simp only [remove]
    rw [filtered]
    by_cases within : loc <+: other <;> simp [within,root]

end FileSystem

end GrassWorker.Files
