import GrassWorker.Foundations.PathLookup

/-! The calls of a program: what they do to the file system, and what they do below a
directory under which there are no symbolic links. -/
namespace GrassWorker.Files
open UnixPath

abbrev Io := EStateM IoError FileSystem

namespace FileSystem
variable (fs : FileSystem) (path : List Component)

def entry : Except IoError (Loc × Name) :=
  match path.getLast? with
  | some (.normal name) => do
    let above ← fs.locate path.dropLast
    if fs.node above = some .dir then .ok (above,name) else .error .notADirectory
  | _ => .error .invalidInput

def stat : Except IoError Node := do
  let loc ← fs.locate path
  (fs.node loc).elim (.error .notFound) .ok

def isDir : Bool := fs.stat path = .ok .dir

def isFile : Bool :=
  match fs.stat path with
  | .ok (.file _) => true
  | _ => false

def exists' : Bool := (fs.stat path).isOk

/-- `stat` of what the last name itself is, also when it is a link. -/
def lstat : Except IoError Node :=
  match fs.entry path with
  | .ok (above,name) => (fs.node (above ++ [name])).elim (.error .notFound) .ok
  | .error .invalidInput => fs.stat path
  | .error error => .error error

def mkdir : Except IoError FileSystem :=
  match fs.entry path with
  | .error .invalidInput =>
    match fs.locate path with
    | .ok _ => .error .alreadyExists
    | .error error => .error error
  | .error error => .error error
  | .ok (above,name) =>
    if taken : fs.node (above ++ [name]) ≠ none then .error .alreadyExists
    else if free : fs.node above = some .dir ∧ ValidName name then
      .ok (fs.put above name .dir free.1 free.2 (by simp [not_not.mp taken]))
    else .error .invalidInput

def creation : Nat → List Component → Except IoError (Loc × Name)
  | 0,path =>
    match fs.entry path with
    | .error error => .error error
    | .ok (above,name) =>
      match fs.node (above ++ [name]) with
      | some (.link _) => .error .tooManyLinks
      | some .dir => .error .isADirectory
      | _ => .ok (above,name)
  | links + 1,path =>
    match fs.entry path with
    | .error error => .error error
    | .ok (above,name) =>
      match fs.node (above ++ [name]) with
      | some (.link target) => creation links (.rootDir :: above.map .normal ++ components target)
      | some .dir => .error .isADirectory
      | _ => .ok (above,name)

/-- `File::create`, and all that is written to the file. -/
def write (content : Content) : Except IoError FileSystem := do
  let found ← fs.creation maxLinks path
  if free : fs.node found.1 = some .dir ∧ ValidName found.2 ∧ fs.node (found.1 ++ [found.2]) ≠ some .dir then
    .ok (fs.put found.1 found.2 (.file content) free.1 free.2.1 free.2.2)
  else .error .invalidInput

def read : Except IoError Content := do
  match ← fs.stat path with
  | .file content => .ok content
  | .dir => .error .isADirectory
  | .link _ => .error .tooManyLinks

def readDir : Except IoError (List (Name × Node)) := do
  let loc ← fs.locate path
  if fs.node loc = some .dir then .ok (fs.children loc) else .error .notADirectory

def removeDirAll : Except IoError FileSystem := do
  let (above,name) ← fs.entry path
  match fs.node (above ++ [name]) with
  | none => .error .notFound
  | some (.file _) => .error .notADirectory
  | some _ => .ok (fs.remove (above ++ [name]))

/-- The regular files below a path, in the order in which the directories list them. -/
def filesUnder : List (Loc × Content) :=
  match fs.locate path with
  | .error _ => []
  | .ok loc => (fs.below loc).filterMap fun entry =>
    match entry.2 with
    | .file content => some (entry.1,content)
    | _ => none

end FileSystem

def call (change : FileSystem → Except IoError FileSystem) : Io Unit := fun fs =>
  match change fs with
  | .ok after => .ok () after
  | .error error => .error error fs

def query {α : Type} (ask : FileSystem → Except IoError α) : Io α := fun fs =>
  match ask fs with
  | .ok answer => .ok answer fs
  | .error error => .error error fs

theorem io_bind_eq_ok {α β : Type} {first : Io α} {next : α → Io β} {fs after : FileSystem} {result : β}
    (ok : (first >>= next) fs = .ok result after) : ∃ value mid, first fs = .ok value mid ∧ next value mid = .ok result after := by
  simp only [bind,EStateM.bind] at ok
  split at ok
  · rename_i value mid done
    exact ⟨value,mid,done,ok⟩
  · cases ok

theorem call_eq_ok {change : FileSystem → Except IoError FileSystem} {fs after : FileSystem} {result : Unit} :
    call change fs = .ok result after ↔ change fs = .ok after := by
  simp only [call]
  cases change fs <;> simp

section Under
variable {fs : FileSystem} {path : List Component} {loc : Loc} {names : List Name} {content : Content}

theorem mem_filesUnder (located : fs.locate path = .ok loc) :
    (names,content) ∈ fs.filesUnder path ↔ names ≠ [] ∧ fs.node (loc ++ names) = some (.file content) := by
  simp only [FileSystem.filesUnder,located,List.mem_filterMap]
  constructor
  · rintro ⟨⟨inner,node⟩,member,chosen⟩
    cases node with
    | file found =>
      cases chosen
      exact mem_below.mp member
    | dir => cases chosen
    | link target => cases chosen
  · exact fun found => ⟨(names,.file content),mem_below.mpr found,rfl⟩

def Apart (first second : Loc) : Prop := ¬first <+: second ∧ ¬second <+: first

theorem filesUnder_apart (located : fs.locate path = .ok loc) :
    (fs.filesUnder path).Pairwise fun first second => Apart first.1 second.1 := by
  have different : (fs.filesUnder path).Pairwise fun first second => first.1 ≠ second.1 := by
    simp only [FileSystem.filesUnder,located,FileSystem.below,List.filterMap_filterMap]
    refine List.Pairwise.filterMap _ ?_ (List.pairwise_map.mp fs.distinct)
    intro first second other file chosen file' chosen'
    simp only [Option.bind_eq_some_iff,Option.ite_none_right_eq_some,Option.some.injEq] at chosen chosen'
    obtain ⟨entry,⟨⟨⟨names,same⟩,_⟩,rfl⟩,kept⟩ := chosen
    obtain ⟨entry',⟨⟨⟨names',same'⟩,_⟩,rfl⟩,kept'⟩ := chosen'
    intro equal
    have own : file.1 = names := by
      rw [← same] at kept
      split at kept <;> cases kept
      simp
    have own' : file'.1 = names' := by
      rw [← same'] at kept'
      split at kept' <;> cases kept'
      simp
    exact other (by rw [← same,← same',← own,← own',equal])
  refine different.imp_of_mem ?_
  intro first second member member' other
  obtain ⟨_,found⟩ := (mem_filesUnder located).mp member
  obtain ⟨_,found'⟩ := (mem_filesUnder located).mp member'
  have blocks : ∀ {names names' : Loc} {content content' : Content}, fs.node (loc ++ names) = some (.file content) →
      fs.node (loc ++ names') = some (.file content') → names ≠ names' → ¬names <+: names' := by
    intro names names' content content' found found' other within
    have dir := dir_of_isPrefix found' ((List.prefix_append_right_inj loc).mpr within) (by simpa using other)
    rw [found] at dir
    cases dir
  exact ⟨blocks found found' other,blocks found' found (Ne.symm other)⟩

end Under

def createDirAllFrom : List Component → Io Unit
  | [] => pure ()
  | last :: above => fun fs =>
    let path := above.reverse ++ [last]
    match fs.mkdir path with
    | .ok after => .ok () after
    | .error .notFound =>
      match createDirAllFrom above fs with
      | .error error after => .error error after
      | .ok () after =>
        match after.mkdir path with
        | .ok made => .ok () made
        | .error error => if after.isDir path then .ok () after else .error error after
    | .error error => if fs.isDir path then .ok () fs else .error error fs

def createDirAll (path : List Component) : Io Unit := createDirAllFrom path.reverse

structure Leads (fs : FileSystem) (path : List Component) (root : Loc) : Prop where
  located : fs.locate path = .ok root
  dir : fs.node root = some .dir

structure Settled (fs : FileSystem) (path : List Component) (root : Loc) : Prop extends Leads fs path root where
  linkFree : ∀ names target, fs.node (root ++ names) ≠ some (.link target)

def Clear (fs : FileSystem) (root : Loc) (names : List Name) : Prop :=
  ∀ before node, before <+: names → fs.node (root ++ before) = some node → node = .dir

section Scan
variable {fs : FileSystem} {loc : Loc} {names : List Name} {node : Node}

theorem scan_names (found : fs.node (loc ++ names) = some node) (noLink : ∀ target, node ≠ .link target) :
    fs.scan loc (names.map .normal) = .arrived (loc ++ names) := by
  induction names generalizing loc with
  | nil => simp [FileSystem.scan]
  | cons name names ih =>
    have dir : fs.node loc = some .dir := dir_above found (by simp)
    have below : loc ++ name :: names = loc ++ [name] ++ names := by simp
    rw [below] at found
    have next := ih found
    simp only [List.map_cons,FileSystem.scan,dir,ne_eq,not_true,if_false]
    rw [below]
    cases names with
    | nil =>
      rw [List.append_nil] at found next
      rw [found]
      cases node with
      | link target => exact absurd rfl (noLink target)
      | dir => simpa using next
      | file content => simpa using next
    | cons second rest =>
      rw [dir_above found (by simp)]
      exact next

theorem scan_missing (absent : fs.node (loc ++ names) = none) (clear : Clear fs loc names) (dir : fs.node loc = some .dir) :
    fs.scan loc (names.map .normal) = .failed .notFound := by
  induction names generalizing loc with
  | nil => simp [dir] at absent
  | cons name names ih =>
    have below : ∀ names, loc ++ name :: names = loc ++ [name] ++ names := by simp
    simp only [List.map_cons,FileSystem.scan,dir,ne_eq,not_true,if_false]
    cases first : fs.node (loc ++ [name]) with
    | none => rfl
    | some node =>
      cases clear [name] node (by simp) first
      refine ih (by rwa [below] at absent) ?_ first
      intro before node within there
      rw [← below] at there
      exact clear _ node (by simpa using within) there

theorem scan_blocked {content : Content} {before : List Name} (blocked : fs.node (loc ++ before) = some (.file content))
    (within : before <+: names) (different : before ≠ names) :
    fs.scan loc (names.map .normal) = .failed .notADirectory := by
  obtain ⟨rest,rfl⟩ := within
  have straight := scan_names blocked (by simp)
  rw [List.map_append,scan_append,straight]
  cases rest with
  | nil => simp at different
  | cons name rest => simp [FileSystem.scan,blocked]

end Scan

section Clear
variable {fs : FileSystem} {path : List Component} {root : Loc} {names before : List Name}

theorem Clear.of_prefix (clear : Clear fs root names) (within : before <+: names) : Clear fs root before :=
  fun other node inside => clear other node (inside.trans within)

theorem Clear.refl (dir : fs.node (root ++ names) = some .dir) : Clear fs root names := by
  intro before node within found
  by_cases same : before = names
  · subst same
    rw [dir] at found
    cases found
    rfl
  · rw [dir_of_isPrefix dir ((List.prefix_append_right_inj root).mpr within) (by simpa using same)] at found
    cases found
    rfl

theorem Clear.of_absent {first : Name} {rest : List Name} (dir : fs.node root = some .dir)
    (absent : fs.node (root ++ [first]) = none) : Clear fs root (first :: rest) := by
  intro before node within found
  cases before with
  | nil =>
    rw [List.append_nil,dir] at found
    cases found
    rfl
  | cons other before =>
    obtain ⟨rfl,_⟩ := List.cons_prefix_cons.mp within
    exfalso
    have below : root ++ other :: before = root ++ [other] ++ before := by simp
    rw [below] at found
    cases before with
    | nil => simp [absent] at found
    | cons second before => simp [dir_above found (by simp)] at absent

theorem Settled.clear_or_blocked (settled : Settled fs path root) (names : List Name) :
    Clear fs root names ∨ ∃ before content, before <+: names ∧ fs.node (root ++ before) = some (.file content) := by
  by_cases blocked : ∃ before content, before <+: names ∧ fs.node (root ++ before) = some (.file content)
  · exact .inr blocked
  · refine .inl ?_
    intro before node within found
    cases node with
    | dir => rfl
    | file content => exact absurd ⟨before,content,within,found⟩ blocked
    | link target => exact absurd found (settled.linkFree before target)

end Clear

namespace Leads
variable {fs after : FileSystem} {path : List Component} {root : Loc} {names : List Name} {name : Name}

theorem locateFrom (leads : Leads fs path root) : ∃ links, fs.locateFrom FileSystem.maxLinks [] path = .ok (links,root) := by
  have located := leads.located
  simp only [FileSystem.locate] at located
  cases found : fs.locateFrom FileSystem.maxLinks [] path with
  | error problem =>
    rw [found] at located
    cases located
  | ok pair =>
    rw [found] at located
    cases located
    exact ⟨pair.1,rfl⟩

theorem locate_append (leads : Leads fs path root) (names : List Name) : fs.locate (path ++ names.map .normal) =
    match fs.scan root (names.map .normal) with
    | .arrived loc => .ok loc
    | .link _ _ => fs.locate (path ++ names.map .normal)
    | .failed error => .error error := by
  obtain ⟨links,found⟩ := leads.locateFrom
  cases led : fs.scan root (names.map .normal) with
  | link base rest => rfl
  | arrived loc =>
    rw [FileSystem.locate,locateFrom_append,found]
    cases links <;> simp [Except.bind,FileSystem.locateFrom,led,Except.map]
  | failed error =>
    rw [FileSystem.locate,locateFrom_append,found]
    cases links <;> simp [Except.bind,FileSystem.locateFrom,led,Except.map]

theorem locate (leads : Leads fs path root) {node : Node} (found : fs.node (root ++ names) = some node)
    (noLink : ∀ target, node ≠ .link target) : fs.locate (path ++ names.map .normal) = .ok (root ++ names) := by
  rw [leads.locate_append,scan_names found noLink]

theorem stat (leads : Leads fs path root) {node : Node} (found : fs.node (root ++ names) = some node)
    (noLink : ∀ target, node ≠ .link target) : fs.stat (path ++ names.map .normal) = .ok node := by
  simp [FileSystem.stat,leads.locate found noLink,bind,Except.bind,found]

theorem down (leads : Leads fs path root) (dir : fs.node (root ++ names) = some .dir) :
    Leads fs (path ++ names.map .normal) (root ++ names) := ⟨leads.locate dir (by simp),dir⟩

theorem entry (leads : Leads fs path root) (dir : fs.node (root ++ names) = some .dir) :
    fs.entry (path ++ (names ++ [name]).map .normal) = .ok (root ++ names,name) := by
  have located := (leads.down dir).located
  simp [FileSystem.entry,List.map_append,← List.append_assoc,located,bind,Except.bind,dir]

theorem entry_missing (leads : Leads fs path root) (absent : fs.node (root ++ names) = none) (clear : Clear fs root names) :
    fs.entry (path ++ (names ++ [name]).map .normal) = .error .notFound := by
  have located := leads.locate_append names
  rw [scan_missing absent clear leads.dir] at located
  simp [FileSystem.entry,List.map_append,← List.append_assoc,located,bind,Except.bind]

theorem entry_blocked (leads : Leads fs path root) {content : Content} {before : List Name}
    (blocked : fs.node (root ++ before) = some (.file content)) (within : before <+: names) :
    fs.entry (path ++ (names ++ [name]).map .normal) = .error .notADirectory := by
  by_cases same : before = names
  · subst same
    have located := leads.locate blocked (by simp)
    simp [FileSystem.entry,List.map_append,← List.append_assoc,located,bind,Except.bind,blocked]
  · have located := leads.locate_append names
    rw [scan_blocked blocked within same] at located
    simp [FileSystem.entry,List.map_append,← List.append_assoc,located,bind,Except.bind]

theorem extends_ (leads : Leads fs path root) (extended : Extends fs after) : Leads after path root :=
  ⟨extended.locate leads.located,extended.dir leads.dir⟩

end Leads

theorem Settled.extends_ {fs after : FileSystem} {path : List Component} {root : Loc} (settled : Settled fs path root)
    (extended : Extends fs after)
    (added : ∀ loc target, after.node loc = some (.link target) → fs.node loc = some (.link target)) :
    Settled after path root where
  toLeads := settled.toLeads.extends_ extended
  linkFree := fun names target linked => settled.linkFree names target (added _ target linked)

section Located
variable {fs : FileSystem} {path : List Component} {loc : Loc} {name : Name}

theorem entry_of_locate (located : fs.locate (path ++ [.normal name]) = .ok loc) :
    ∃ above, fs.entry (path ++ [.normal name]) = .ok (above,name) ∧ fs.node (above ++ [name]) ≠ none := by
  rw [FileSystem.locate,locateFrom_append] at located
  cases found : fs.locateFrom FileSystem.maxLinks [] path with
  | error problem =>
    rw [found] at located
    cases located
  | ok pair =>
    obtain ⟨links,above⟩ := pair
    have led : fs.node above = some .dir ∧ fs.node (above ++ [name]) ≠ none := by
      simp only [found,Except.bind] at located
      cases links <;>
      · simp only [FileSystem.locateFrom,FileSystem.scan] at located
        by_cases dir : fs.node above = some .dir
        · refine ⟨dir,?_⟩
          intro absent
          simp [dir,absent,Except.map] at located
        · simp [dir,Except.map] at located
    refine ⟨above,?_,led.2⟩
    have reached : fs.locate path = .ok above := by
      rw [FileSystem.locate,found]
      rfl
    simp [FileSystem.entry,reached,bind,Except.bind,led.1]

theorem locate_of_entry {other : Name} {above : Loc} (found : fs.entry (path ++ [.normal name]) = .ok (above,other)) :
    Leads fs path above ∧ other = name := by
  simp only [FileSystem.entry,List.getLast?_append,List.getLast?_singleton,Option.some_or,List.dropLast_concat] at found
  cases located : fs.locate path with
  | error problem =>
    rw [located] at found
    cases found
  | ok loc =>
    rw [located] at found
    simp only [bind,Except.bind] at found
    split at found
    · rename_i dir
      cases found
      exact ⟨⟨located,dir⟩,rfl⟩
    · cases found

theorem mkdir_of_locate (located : fs.locate path = .ok loc) : ∃ error, fs.mkdir path = .error error ∧ error ≠ .notFound := by
  have invalid : fs.entry path = .error .invalidInput → ∃ error, fs.mkdir path = .error error ∧ error ≠ .notFound := by
    intro unnamed
    simp only [FileSystem.mkdir,unnamed,located]
    exact ⟨_,rfl,by decide⟩
  induction path using List.reverseRecOn with
  | nil => exact invalid rfl
  | append_singleton path last _ =>
    cases last with
    | normal name =>
      obtain ⟨above,named,there⟩ := entry_of_locate located
      refine ⟨.alreadyExists,?_,by decide⟩
      simp only [FileSystem.mkdir,named]
      rw [dif_pos there]
    | rootDir => exact invalid (by simp [FileSystem.entry])
    | curDir => exact invalid (by simp [FileSystem.entry])
    | parentDir => exact invalid (by simp [FileSystem.entry])

end Located

section Create
variable {fs : FileSystem} {path : List Component} {root : Loc} {names : List Name} {name : Name}

theorem createDirAll_append (last : Component) : createDirAll (path ++ [last]) = createDirAllFrom (last :: path.reverse) := by
  simp [createDirAll]

private theorem isDir_leads (leads : Leads fs path root) (dir : fs.node (root ++ names) = some .dir) :
    fs.isDir (path ++ names.map .normal) = true := by
  simp [FileSystem.isDir,leads.stat dir (by simp)]

theorem createDirAll_located (leads : Leads fs path root) : createDirAll path fs = .ok () fs := by
  have there : fs.isDir path = true := by
    simp [FileSystem.isDir,FileSystem.stat,leads.located,bind,Except.bind,leads.dir]
  obtain ⟨error,refused,other⟩ := mkdir_of_locate leads.located
  induction path using List.reverseRecOn with
  | nil => rfl
  | append_singleton path last _ =>
    rw [createDirAll_append]
    simp only [createDirAllFrom,List.reverse_reverse,refused]
    cases error with
    | notFound => exact absurd rfl other
    | _ => simp [there]

/-- The directories that are there after the call: those on the way, and those before it. -/
def WithDirs (fs after : FileSystem) (root : Loc) (names : List Name) : Prop :=
  ∀ loc, after.node loc = if root <+: loc ∧ loc <+: root ++ names then some .dir else fs.node loc

theorem WithDirs.extends_ {after : FileSystem} (made : WithDirs fs after root names) (clear : Clear fs root names) :
    Extends fs after := by
  intro loc node found
  rw [made loc]
  by_cases way : root <+: loc ∧ loc <+: root ++ names
  · rw [if_pos way]
    obtain ⟨⟨before,rfl⟩,within⟩ := way
    cases clear before node ((List.prefix_append_right_inj root).mp within) found
    rfl
  · rw [if_neg way,found]
    rfl

theorem WithDirs.settled {after : FileSystem} (made : WithDirs fs after root names) (settled : Settled fs path root)
    (clear : Clear fs root names) : Settled after path root := by
  refine settled.extends_ (made.extends_ clear) ?_
  intro loc target linked
  rw [made loc] at linked
  split at linked
  · cases linked
  · exact linked

theorem WithDirs.refl (dir : fs.node (root ++ names) = some .dir) : WithDirs fs fs root names := by
  intro loc
  split
  · rename_i way
    by_cases same : loc = root ++ names
    · rw [same,dir]
    · exact dir_of_isPrefix dir way.2 same
  · rfl

theorem WithDirs.snoc {mid after : FileSystem} (made : WithDirs fs mid root names)
    (added : ∀ loc, after.node loc = if loc = root ++ (names ++ [name]) then some .dir else mid.node loc) :
    WithDirs fs after root (names ++ [name]) := by
  intro loc
  rw [added loc,made loc]
  have longer : loc <+: root ++ (names ++ [name]) ↔ loc = root ++ (names ++ [name]) ∨ loc <+: root ++ names := by
    rw [← List.append_assoc,List.prefix_concat_iff]
  by_cases same : loc = root ++ (names ++ [name])
  · subst same
    simp
  · simp only [longer,same,false_or,if_false]

/-- `mkdir` of a name below a directory. -/
theorem mkdir_leads (leads : Leads fs path root) (dir : fs.node (root ++ names) = some .dir)
    (absent : fs.node (root ++ (names ++ [name])) = none) (valid : ValidName name) :
    ∃ after, fs.mkdir (path ++ (names ++ [name]).map .normal) = .ok after ∧
      ∀ loc, after.node loc = if loc = root ++ (names ++ [name]) then some .dir else fs.node loc := by
  simp only [FileSystem.mkdir,leads.entry dir]
  rw [dif_neg (by simpa using absent),dif_pos ⟨dir,valid⟩]
  refine ⟨_,rfl,?_⟩
  intro loc
  rw [FileSystem.node_put,List.append_assoc]

private theorem mkdir_taken (leads : Leads fs path root) (dir : fs.node (root ++ names) = some .dir)
    (there : fs.node (root ++ (names ++ [name])) ≠ none) :
    fs.mkdir (path ++ (names ++ [name]).map .normal) = .error .alreadyExists := by
  simp only [FileSystem.mkdir,leads.entry dir]
  rw [dif_pos]
  rwa [List.append_assoc]

private theorem createDirAll_concat (names : List Name) (name : Name) :
    createDirAll (path ++ (names ++ [name]).map .normal) =
      createDirAllFrom (.normal name :: (path ++ names.map Component.normal).reverse) := by
  rw [← createDirAll_append]
  simp

private theorem whole (names : List Name) (name : Name) :
    (path ++ names.map Component.normal).reverse.reverse ++ [Component.normal name] =
      path ++ (names ++ [name]).map Component.normal := by simp

/-- `create_dir_all` makes the directories that are missing where the way is clear. -/
theorem createDirAll_clear (leads : Leads fs path root) (valid : ∀ name ∈ names, ValidName name) (clear : Clear fs root names) :
    ∃ after, createDirAll (path ++ names.map .normal) fs = .ok () after ∧ WithDirs fs after root names := by
  induction names using List.reverseRecOn with
  | nil => exact ⟨fs,by simpa using createDirAll_located leads,.refl (by simpa using leads.dir)⟩
  | append_singleton names name ih =>
    have shorter : Clear fs root names := clear.of_prefix (List.prefix_append ..)
    have last : ValidName name := valid name (by simp)
    rw [createDirAll_concat]
    simp only [createDirAllFrom,whole]
    cases above : fs.node (root ++ names) with
    | none =>
      have absent : fs.node (root ++ (names ++ [name])) = none := by
        by_contra there
        obtain ⟨node,found⟩ := Option.ne_none_iff_exists'.mp there
        rw [← List.append_assoc] at found
        simp [(dir_of_node found).2] at above
      have refused : fs.mkdir (path ++ (names ++ [name]).map Component.normal) = .error .notFound := by
        simp only [FileSystem.mkdir,leads.entry_missing above shorter]
      obtain ⟨mid,made,dirs⟩ := ih (fun name member => valid name (by simp [member])) shorter
      have inside : mid.node (root ++ names) = some .dir := by
        rw [dirs]
        simp
      have missing : mid.node (root ++ (names ++ [name])) = none := by
        rw [dirs,if_neg,absent]
        rintro ⟨_,within⟩
        have long := within.length_le
        simp only [List.length_append,List.length_singleton] at long
        omega
      obtain ⟨after,done,added⟩ := mkdir_leads (leads.extends_ (dirs.extends_ shorter)) inside missing last
      refine ⟨after,?_,dirs.snoc added⟩
      rw [createDirAll] at made
      simp only [refused,made,done]
    | some node =>
      cases clear names node (List.prefix_append ..) above
      cases there : fs.node (root ++ (names ++ [name])) with
      | none =>
        obtain ⟨after,done,added⟩ := mkdir_leads leads above there last
        refine ⟨after,?_,(WithDirs.refl above).snoc added⟩
        simp only [done]
      | some node =>
        cases clear _ node (List.prefix_refl _) there
        have taken := mkdir_taken leads above (show fs.node (root ++ (names ++ [name])) ≠ none by simp [there])
        refine ⟨fs,?_,.refl there⟩
        simp only [taken,isDir_leads leads there,if_true]

/-- A file on the way stops `create_dir_all` before it makes anything. -/
theorem createDirAll_blocked (leads : Leads fs path root) {content : Content} {before : List Name}
    (blocked : fs.node (root ++ before) = some (.file content)) (within : before <+: names) :
    ∃ error, createDirAll (path ++ names.map .normal) fs = .error error fs := by
  induction names using List.reverseRecOn with
  | nil =>
    rw [List.prefix_nil.mp within,List.append_nil,leads.dir] at blocked
    cases blocked
  | append_singleton names name _ =>
    rw [createDirAll_concat]
    simp only [createDirAllFrom,whole]
    rw [List.prefix_concat_iff] at within
    obtain rfl | shorter := within
    · have above : fs.node (root ++ names) = some .dir := (dir_of_node (by rwa [← List.append_assoc] at blocked)).2
      have taken := mkdir_taken leads above (show fs.node (root ++ (names ++ [name])) ≠ none by simp [blocked])
      have noDir : fs.isDir (path ++ (names ++ [name]).map Component.normal) = false := by
        have found := leads.stat blocked (by simp)
        rw [FileSystem.isDir,found]
        rfl
      exact ⟨.alreadyExists,by simp only [taken,noDir]; rfl⟩
    · have refused : fs.mkdir (path ++ (names ++ [name]).map Component.normal) = .error .notADirectory := by
        simp only [FileSystem.mkdir,leads.entry_blocked blocked shorter]
      have different : before ≠ names ++ [name] := by
        rintro rfl
        have long := shorter.length_le
        simp only [List.length_append,List.length_singleton] at long
        omega
      have noDir : fs.isDir (path ++ (names ++ [name]).map Component.normal) = false := by
        have located := leads.locate_append (names ++ [name])
        rw [scan_blocked blocked (shorter.trans (List.prefix_append ..)) different] at located
        rw [FileSystem.isDir,FileSystem.stat,located]
        rfl
      exact ⟨.notADirectory,by simp only [refused,noDir]; rfl⟩

theorem createDirAll_settled (settled : Settled fs path root) (valid : ∀ name ∈ names, ValidName name) :
    (Clear fs root names ∧ ∃ after, createDirAll (path ++ names.map .normal) fs = .ok () after ∧ WithDirs fs after root names) ∨
    ∃ error, createDirAll (path ++ names.map .normal) fs = .error error fs := by
  obtain clear | ⟨before,content,within,blocked⟩ := settled.clear_or_blocked names
  · exact .inl ⟨clear,createDirAll_clear settled.toLeads valid clear⟩
  · exact .inr (createDirAll_blocked settled.toLeads blocked within)

theorem entry_settled (settled : Settled fs path root) {found : Loc × Name}
    (ok : fs.entry (path ++ (names ++ [name]).map .normal) = .ok found) :
    found = (root ++ names,name) ∧ fs.node (root ++ names) = some .dir := by
  obtain clear | ⟨before,content,within,blocked⟩ := settled.clear_or_blocked names
  · cases there : fs.node (root ++ names) with
    | none =>
      rw [settled.entry_missing there clear] at ok
      cases ok
    | some node =>
      cases clear names node (List.prefix_refl _) there
      rw [settled.entry there] at ok
      cases ok
      exact ⟨rfl,rfl⟩
  · rw [settled.entry_blocked blocked within] at ok
    cases ok

private theorem creation_settled (settled : Settled fs path root) (dir : fs.node (root ++ names) = some .dir) (links : Nat) :
    fs.creation links (path ++ (names ++ [name]).map .normal) =
      if fs.node (root ++ (names ++ [name])) = some .dir then .error .isADirectory else .ok (root ++ names,name) := by
  cases links <;>
  · simp only [FileSystem.creation,settled.entry dir]
    rw [List.append_assoc]
    cases there : fs.node (root ++ (names ++ [name])) with
    | none => rfl
    | some node =>
      cases node with
      | dir => rfl
      | file content => rfl
      | link target => exact absurd there (settled.linkFree _ target)

def WithFile (fs after : FileSystem) (loc : Loc) (content : Content) : Prop :=
  ∀ other, after.node other = if other = loc then some (.file content) else fs.node other

theorem write_settled (settled : Settled fs path root) (dir : fs.node (root ++ names) = some .dir) (valid : ValidName name)
    (vacant : fs.node (root ++ (names ++ [name])) ≠ some .dir) (content : Content) :
    ∃ after, fs.write (path ++ (names ++ [name]).map .normal) content = .ok after ∧
      WithFile fs after (root ++ (names ++ [name])) content := by
  simp only [FileSystem.write,creation_settled settled dir,if_neg vacant,bind,Except.bind]
  rw [dif_pos ⟨dir,valid,by rwa [List.append_assoc]⟩]
  refine ⟨_,rfl,?_⟩
  intro other
  rw [FileSystem.node_put,List.append_assoc]

theorem write_settled_ok (settled : Settled fs path root) {content : Content} {after : FileSystem}
    (ok : fs.write (path ++ (names ++ [name]).map .normal) content = .ok after) :
    fs.node (root ++ names) = some .dir ∧ fs.node (root ++ (names ++ [name])) ≠ some .dir ∧
      WithFile fs after (root ++ (names ++ [name])) content := by
  have dir : fs.node (root ++ names) = some .dir := by
    cases named : fs.entry (path ++ (names ++ [name]).map .normal) with
    | error problem =>
      simp only [FileSystem.write,FileSystem.maxLinks,FileSystem.creation,named] at ok
      cases ok
    | ok found => exact (entry_settled settled named).2
  simp only [FileSystem.write,creation_settled settled dir,bind,Except.bind] at ok
  split at ok
  · cases ok
  · rename_i found created
    split at created
    · cases created
    · rename_i vacant
      cases created
      split at ok
      · cases ok
        refine ⟨dir,vacant,?_⟩
        intro other
        rw [FileSystem.node_put,List.append_assoc]
      · cases ok

theorem WithFile.extends_ {after : FileSystem} {loc : Loc} {content : Content} (written : WithFile fs after loc content)
    (vacant : fs.node loc ≠ some .dir) (noLink : ∀ target, fs.node loc ≠ some (.link target)) : Extends fs after := by
  intro other node found
  rw [written other]
  by_cases same : other = loc
  · subst same
    rw [if_pos rfl]
    cases node with
    | dir => exact absurd found vacant
    | file old => rfl
    | link target => exact absurd found (noLink target)
  · rw [if_neg same,found]
    rfl

theorem WithFile.settled {after : FileSystem} {loc : Loc} {content : Content} (written : WithFile fs after loc content)
    (settled : Settled fs path root) (vacant : fs.node loc ≠ some .dir)
    (noLink : ∀ target, fs.node loc ≠ some (.link target)) : Settled after path root := by
  refine settled.extends_ (written.extends_ vacant noLink) ?_
  intro other target linked
  rw [written other] at linked
  split at linked
  · cases linked
  · exact linked

end Create

/-! How a call ends. -/

/-- A result is one of a success, or a failure that leaves a file system behind. -/
def Ends {α : Type} (result : EStateM.Result IoError FileSystem α) (done : α → FileSystem → Prop)
    (failed : FileSystem → Prop) : Prop :=
  match result with
  | .ok value after => done value after
  | .error _ after => failed after

namespace Ends
variable {α β : Type} {fs : FileSystem} {failed : FileSystem → Prop}

theorem bind {first : Io α} {next : α → Io β} {mid : α → FileSystem → Prop} {done : β → FileSystem → Prop}
    (starts : Ends (first fs) mid failed) (continues : ∀ value after, mid value after → Ends (next value after) done failed) :
    Ends ((first >>= next) fs) done failed := by
  show Ends (EStateM.bind first next fs) done failed
  simp only [EStateM.bind]
  cases result : first fs with
  | ok value after =>
    rw [result] at starts
    exact continues value after starts
  | error problem after =>
    rw [result] at starts
    exact starts

theorem mono {result : EStateM.Result IoError FileSystem α} {done other : α → FileSystem → Prop} {failed' : FileSystem → Prop}
    (ends_ : Ends result done failed) (weaker : ∀ value after, done value after → other value after)
    (weaker' : ∀ after, failed after → failed' after) : Ends result other failed' := by
  cases result with
  | ok value after => exact weaker value after ends_
  | error problem after => exact weaker' after ends_

theorem call {change : FileSystem → Except IoError FileSystem} {done : Unit → FileSystem → Prop}
    (changes : ∀ after, change fs = .ok after → done () after) (kept : failed fs) : Ends (call change fs) done failed := by
  simp only [Files.call]
  cases result : change fs with
  | ok after => exact changes after result
  | error problem => exact kept

theorem query {ask : FileSystem → Except IoError α} {done : α → FileSystem → Prop}
    (answers : ∀ answer, ask fs = .ok answer → done answer fs) (kept : failed fs) : Ends (query ask fs) done failed := by
  simp only [Files.query]
  cases result : ask fs with
  | ok answer => exact answers answer result
  | error problem => exact kept

end Ends

/-! What a path leads to is there. -/
section There
variable {fs : FileSystem} {loc : Loc} {path : List Component}

private theorem scan_there (there : fs.node loc ≠ none) :
    (∀ arrived, fs.scan loc path = .arrived arrived → fs.node arrived ≠ none) ∧
    ∀ base rest, fs.scan loc path = .link base rest → fs.node base ≠ none := by
  induction path generalizing loc with
  | nil =>
    refine ⟨?_,by simp [FileSystem.scan]⟩
    intro arrived same
    cases same
    exact there
  | cons component path ih =>
    cases component with
    | rootDir => exact ih (by simp)
    | curDir => exact ih there
    | parentDir =>
      simp only [FileSystem.scan]
      split
      · rename_i dir
        refine ih ?_
        by_cases root : loc = []
        · simp [root]
        · rw [← List.dropLast_append_getLast root] at dir
          rw [(dir_of_node dir).2]
          simp
      · simp
    | normal name =>
      simp only [FileSystem.scan]
      split
      · simp
      · split
        · simp
        · refine ⟨by simp,?_⟩
          intro base rest same
          cases same
          exact there
        · rename_i node found
          exact ih (by simp [found])

private theorem locateFrom_there {links : Nat} {found : Nat × Loc} (there : fs.node loc ≠ none)
    (located : fs.locateFrom links loc path = .ok found) : fs.node found.2 ≠ none := by
  induction links generalizing loc path with
  | zero =>
    simp only [FileSystem.locateFrom] at located
    split at located
    · rename_i arrived reached
      cases located
      exact (scan_there there).1 _ reached
    · cases located
    · cases located
  | succ links ih =>
    simp only [FileSystem.locateFrom] at located
    split at located
    · rename_i arrived reached
      cases located
      exact (scan_there there).1 _ reached
    · rename_i base rest linked
      exact ih ((scan_there there).2 _ _ linked) located
    · cases located

theorem node_of_locate (located : fs.locate path = .ok loc) : fs.node loc ≠ none := by
  rw [FileSystem.locate] at located
  cases found : fs.locateFrom FileSystem.maxLinks [] path with
  | error problem =>
    rw [found] at located
    cases located
  | ok pair =>
    rw [found] at located
    cases located
    exact locateFrom_there (by simp) found

private theorem scan_straight (start : ∀ target, fs.node loc ≠ some (.link target)) :
    (∀ arrived, fs.scan loc path = .arrived arrived → ∀ target, fs.node arrived ≠ some (.link target)) ∧
    ∀ base rest, fs.scan loc path = .link base rest → ∀ target, fs.node base ≠ some (.link target) := by
  induction path generalizing loc with
  | nil =>
    refine ⟨?_,by simp [FileSystem.scan]⟩
    intro arrived same
    cases same
    exact start
  | cons component path ih =>
    cases component with
    | rootDir => exact ih (by simp)
    | curDir => exact ih start
    | parentDir =>
      simp only [FileSystem.scan]
      split
      · rename_i dir
        refine ih ?_
        by_cases root : loc = []
        · simp [root]
        · rw [← List.dropLast_append_getLast root] at dir
          rw [(dir_of_node dir).2]
          simp
      · simp
    | normal name =>
      simp only [FileSystem.scan]
      split
      · simp
      · split
        · simp
        · refine ⟨by simp,?_⟩
          intro base rest same
          cases same
          exact start
        · rename_i node other found
          refine ih fun target linked => ?_
          rw [found] at linked
          cases linked
          exact other target rfl

private theorem locateFrom_straight {links : Nat} {found : Nat × Loc} (start : ∀ target, fs.node loc ≠ some (.link target))
    (located : fs.locateFrom links loc path = .ok found) (target : Path) : fs.node found.2 ≠ some (.link target) := by
  induction links generalizing loc path with
  | zero =>
    simp only [FileSystem.locateFrom] at located
    split at located
    · rename_i arrived reached
      cases located
      exact (scan_straight start).1 _ reached target
    · cases located
    · cases located
  | succ links ih =>
    simp only [FileSystem.locateFrom] at located
    split at located
    · rename_i arrived reached
      cases located
      exact (scan_straight start).1 _ reached target
    · rename_i base rest linked
      exact ih ((scan_straight start).2 _ _ linked) located
    · cases located

theorem straight_of_locate (located : fs.locate path = .ok loc) (target : Path) : fs.node loc ≠ some (.link target) := by
  rw [FileSystem.locate] at located
  cases found : fs.locateFrom FileSystem.maxLinks [] path with
  | error problem =>
    rw [found] at located
    cases located
  | ok pair =>
    rw [found] at located
    cases located
    exact locateFrom_straight (by simp) found target

theorem leads_of_isDir (dir : fs.isDir path = true) : ∃ loc, Leads fs path loc := by
  rw [FileSystem.isDir,decide_eq_true_eq,FileSystem.stat] at dir
  cases located : fs.locate path with
  | error problem =>
    rw [located] at dir
    cases dir
  | ok loc =>
    rw [located] at dir
    refine ⟨loc,located,?_⟩
    simp only [bind,Except.bind] at dir
    cases found : fs.node loc with
    | none =>
      rw [found] at dir
      cases dir
    | some node =>
      rw [found] at dir
      cases dir
      rfl

theorem Leads.isDir (leads : Leads fs path loc) : fs.isDir path = true := by
  simp [FileSystem.isDir,FileSystem.stat,leads.located,bind,Except.bind,leads.dir]

end There

/-! Something else in the place of a directory. -/
section Stuck
variable {fs : FileSystem} {path : List Component} {above : Loc} {name : Name}

theorem isDir_append (noDir : fs.isDir path = false) (names : List Name) : fs.isDir (path ++ names.map .normal) = false := by
  by_contra dir
  obtain ⟨loc,leads⟩ := leads_of_isDir (by simpa using dir)
  cases names with
  | nil =>
    rw [List.map_nil,List.append_nil] at leads
    simp [leads.isDir] at noDir
  | cons name names =>
    have located := leads.located
    rw [FileSystem.locate,locateFrom_append] at located
    cases found : fs.locateFrom FileSystem.maxLinks [] path with
    | error problem =>
      rw [found] at located
      cases located
    | ok pair =>
      obtain ⟨links,base⟩ := pair
      have other : fs.node base ≠ some .dir := by
        intro dir
        have reached : Leads fs path base := ⟨by rw [FileSystem.locate,found]; rfl,dir⟩
        simp [reached.isDir] at noDir
      simp only [found,Except.bind] at located
      cases links <;> simp [FileSystem.locateFrom,FileSystem.scan,other,Except.map] at located

theorem createDirAll_stuck (named : fs.entry path = .ok (above,name)) (there : fs.node (above ++ [name]) ≠ none)
    (noDir : fs.isDir path = false) (names : List Name) :
    ∃ error, createDirAll (path ++ names.map .normal) fs = .error error fs := by
  induction names using List.reverseRecOn with
  | nil =>
    rw [List.map_nil,List.append_nil]
    induction path using List.reverseRecOn with
    | nil => cases named
    | append_singleton path last _ =>
      rw [createDirAll_append]
      have taken : fs.mkdir (path ++ [last]) = .error .alreadyExists := by
        simp only [FileSystem.mkdir,named]
        rw [dif_pos there]
      refine ⟨.alreadyExists,?_⟩
      simp only [createDirAllFrom,List.reverse_reverse,taken,noDir]
      rfl
  | append_singleton names last ih =>
    rw [createDirAll_concat]
    simp only [createDirAllFrom,whole]
    have still := isDir_append noDir (names ++ [last])
    have refused : ∃ error, fs.mkdir (path ++ (names ++ [last]).map .normal) = .error error := by
      cases found : fs.entry (path ++ (names ++ [last]).map .normal) with
      | error problem =>
        simp only [FileSystem.mkdir,found]
        split
        · split <;> exact ⟨_,rfl⟩
        · exact ⟨_,rfl⟩
        · contradiction
      | ok place =>
        exfalso
        have inner := isDir_append noDir names
        simp only [FileSystem.entry,List.map_append,List.map_cons,List.map_nil,← List.append_assoc,List.getLast?_append,
          List.getLast?_singleton,Option.some_or,List.dropLast_concat] at found
        cases located : fs.locate (path ++ names.map .normal) with
        | error problem =>
          rw [located] at found
          cases found
        | ok loc =>
          rw [located] at found
          simp only [bind,Except.bind] at found
          split at found
          · rename_i dir
            simp [(Leads.mk located dir).isDir] at inner
          · cases found
    obtain ⟨error,refused⟩ := refused
    obtain ⟨problem,failed⟩ := ih
    rw [createDirAll] at failed
    simp only [refused]
    cases error with
    | notFound =>
      simp only [failed]
      exact ⟨_,rfl⟩
    | _ =>
      simp only [still]
      exact ⟨_,rfl⟩

end Stuck

end GrassWorker.Files
