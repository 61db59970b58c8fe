import Mathlib.Data.List.Basic

/-! Paths of a Unix system as their text: how a path is extended, which components
it has, and when it lies below another one as far as its text tells. -/
namespace GrassWorker.UnixPath

abbrev Path := List Char

inductive Component
  | rootDir | curDir | parentDir
  | normal (name : List Char)
deriving DecidableEq, Repr

def component : List Char → Option Component
  | [] => none
  | ['.'] => none
  | ['.','.'] => some .parentDir
  | name => some (.normal name)

def anchor (path : Path) : List Component :=
  if path.head? = some '/' then [.rootDir]
  else if (path.splitOn '/').head? = some ['.'] then [.curDir]
  else []

def components (path : Path) : List Component := anchor path ++ (path.splitOn '/').filterMap component

def push (path segment : Path) : Path :=
  if segment.head? = some '/' then segment
  else if path = [] ∨ path.getLast? = some '/' then path ++ segment
  else path ++ '/' :: segment

/-- The path starts with the components of `root` and never leaves it again. -/
def Inside (root path : Path) : Prop := ∃ below, components path = components root ++ below ∧ .parentDir ∉ below

variable {path root segment : Path}

theorem anchor_append (nonempty : path ≠ []) (segment : Path) : anchor (path ++ '/' :: segment) = anchor path := by
  unfold anchor
  rw [List.head?_append_of_ne_nil _ nonempty,List.splitOn_append_cons_self,
    List.head?_append_of_ne_nil _ (List.splitOn_ne_nil '/' path)]

theorem components_slash (nonempty : path ≠ []) : components (path ++ ['/']) = components path := by
  unfold components
  rw [anchor_append nonempty,List.splitOn_append_cons_self]
  simp [component]

theorem components_append (nonempty : path ≠ []) (segment : Path) :
    components (path ++ '/' :: segment) = components path ++ (segment.splitOn '/').filterMap component := by
  unfold components
  rw [anchor_append nonempty,List.splitOn_append_cons_self,List.filterMap_append,List.append_assoc]

theorem push_ne_nil (nonempty : path ≠ []) (relative : segment.head? ≠ some '/') : push path segment ≠ [] := by
  unfold push
  rw [if_neg relative]
  split <;> simp [nonempty]

theorem components_push (nonempty : path ≠ []) (relative : segment.head? ≠ some '/') :
    components (push path segment) = components path ++ (segment.splitOn '/').filterMap component := by
  unfold push
  rw [if_neg relative]
  split
  · rename_i slash
    have ends : path.getLast? = some '/' := slash.resolve_left nonempty
    obtain ⟨start,rfl⟩ : ∃ start, path = start ++ ['/'] := ⟨path.dropLast,(List.dropLast_append_getLast? '/' ends).symm⟩
    cases start with
    | nil =>
      have split : ('/' :: segment).splitOn '/' = [] :: segment.splitOn '/' := List.splitOn_append_cons_self [] segment
      simp [components,anchor,split,component]
      rfl
    | cons first rest =>
      have started : first :: rest ≠ [] := List.cons_ne_nil _ _
      rw [components_slash started,List.append_assoc]
      exact components_append started segment
  · exact components_append nonempty segment

theorem components_push_name (nonempty : path ≠ []) (free : '/' ∉ segment) :
    components (push path segment) = components path ++ (component segment).toList := by
  have relative : segment.head? ≠ some '/' := fun slash => free (List.mem_of_mem_head? slash)
  rw [components_push nonempty relative,List.splitOn_eq_singleton free]
  cases named : component segment <;> simp [named]

theorem push_name_ne_nil (nonempty : path ≠ []) (free : '/' ∉ segment) : push path segment ≠ [] :=
  push_ne_nil nonempty fun slash => free (List.mem_of_mem_head? slash)

theorem components_pushAll (nonempty : path ≠ []) {names : List Path} (free : ∀ name ∈ names, '/' ∉ name) :
    components (names.foldl push path) = components path ++ names.filterMap component := by
  induction names generalizing path with
  | nil => simp
  | cons name rest ih =>
    have first := free name (List.mem_cons_self ..)
    have later : ∀ other ∈ rest, '/' ∉ other := fun other member => free other (List.mem_cons_of_mem _ member)
    rw [List.foldl_cons,ih (push_name_ne_nil nonempty first) later,components_push_name nonempty first,List.append_assoc]
    congr 1
    cases found : component name <;> simp [found]

theorem component_parentDir {name : Path} : component name = some .parentDir ↔ name = ['.','.'] := by
  unfold component
  split <;> simp_all

theorem parentDir_mem {names : List Path} : .parentDir ∈ names.filterMap component ↔ ['.','.'] ∈ names := by
  simp only [List.mem_filterMap,component_parentDir]
  constructor
  · rintro ⟨name,member,rfl⟩
    exact member
  · exact fun member => ⟨_,member,rfl⟩

/-- A path made of a root and names below it lies inside the root exactly if no name is `..`. -/
theorem inside_pushAll (nonempty : root ≠ []) {names : List Path} (free : ∀ name ∈ names, '/' ∉ name) :
    Inside root (names.foldl push root) ↔ ['.','.'] ∉ names := by
  unfold Inside
  rw [components_pushAll nonempty free,← parentDir_mem]
  constructor
  · rintro ⟨below,same,stays⟩
    rwa [List.append_cancel_left same]
  · exact fun stays => ⟨_,rfl,stays⟩

theorem free_of_mem_splitOn {name : Path} (member : name ∈ path.splitOn '/') : '/' ∉ name := by
  induction path generalizing name with
  | nil =>
    rw [List.splitOn_nil,List.mem_singleton] at member
    simp [member]
  | cons first rest ih =>
    rw [List.splitOn_cons_eq_if_modifyHead] at member
    obtain ⟨head,tail,split⟩ := List.exists_cons_of_ne_nil (List.splitOn_ne_nil '/' rest)
    split at member
    · rcases List.mem_cons.mp member with rfl | later
      · simp
      · exact ih later
    · rename_i other
      rw [split,List.modifyHead_cons] at member
      rcases List.mem_cons.mp member with rfl | later
      · have clean : '/' ∉ head := ih (by rw [split]; exact List.mem_cons_self ..)
        simp only [List.mem_cons,not_or]
        exact ⟨fun same => other (by simp [← same]),clean⟩
      · exact ih (by rw [split]; exact List.mem_cons_of_mem _ later)

end GrassWorker.UnixPath
