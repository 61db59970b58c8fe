import GrassWorker.Node.BuildOutput

/-! The output of a build stays in its project, if what is copied from and where the output
goes to lie there: which conditions that takes, and what then holds after every step. -/
namespace GrassWorker.BuildOutput
open UnixPath Files Manifest Detect

/-- `.grass` is no way out of the project. -/
def grassInside (fs : FileSystem) (project : Loc) (projectRoot : Path) : Bool :=
  match fs.locate (components (join projectRoot ".grass")) with
  | .ok loc => fs.node loc ≠ some .dir ∨ project <+: loc
  | .error _ => true

/-- A directory with files lies in the project and is not the one it is copied to. No directory is copied to a place with `..`. -/
def copyInside (fs : FileSystem) (project : Loc) (outputRoot : Path) (copy : Copy) : Bool :=
  match fs.locate (components copy.source) with
  | .ok loc => fs.node loc ≠ some .dir ∨ .parentDir ∉ components copy.destination ∧
      (fs.filesUnder (components copy.source) = [] ∨
        project <+: loc ∧ fs.locate (components (push outputRoot copy.destination)) ≠ .ok loc)
  | .error _ => true

def copiesInside (env : Environment) (project : Loc) (outputRoot : Path) : FileSystem → List Copy → Bool
  | _,[] => true
  | fs,copy :: rest => copyInside fs project outputRoot copy &&
      match copyInto env outputRoot copy fs with
      | .ok _ after => copiesInside env project outputRoot after rest
      | .error _ _ => true

def outputInside (env : Environment) (fs : FileSystem) (project : Loc) (projectRoot : Path)
    (configured : Option (List Char)) : Bool :=
  match outputPlan env fs projectRoot configured with
  | .error _ => true
  | .ok plan => grassInside fs project projectRoot &&
      match prepareOutput (outputRootOf projectRoot) plan.target fs with
      | .ok _ prepared => copiesInside env project (outputRootOf projectRoot) prepared plan.copies
      | .error _ _ => true

def Framed (project : Loc) (fs after : FileSystem) : Prop := ∀ loc, ¬project <+: loc → after.node loc = fs.node loc

def Native (project : Loc) (fs : FileSystem) (content : Content) : Prop :=
  ∃ names, fs.node (project ++ names) = some (.file content)

/-- The output root is a directory of the project with nothing but directories and copies of its files. -/
structure Confined (start : FileSystem) (project : Loc) (out : List Component) (root : Loc) (fs : FileSystem) : Prop where
  settled : Settled fs out root
  inside : project <+: root
  framed : Framed project start fs
  native : ∀ names content, fs.node (project ++ names) = some (.file content) → Native project start content

structure Grown (fs after : FileSystem) : Prop where
  extends_ : Extends fs after
  files : ∀ loc content, after.node loc = some (.file content) → fs.node loc = some (.file content)

def leftBehind {ε α : Type} : EStateM.Result ε FileSystem α → FileSystem
  | .ok _ after => after
  | .error _ after => after

/-- What is published, apart from the manifest and the digests, are regular files of the project. -/
def Published (project : Loc) (fs : FileSystem) (out : List Component) (after : FileSystem) : Prop :=
  ∀ names content, (names,content) ∈ after.filesUnder out →
    names = ["output.toml".toList] ∨ names = ["metadata".toList,"checksums.toml".toList] ∨ Native project fs content

def StaysInside (env : Environment) (fs : FileSystem) (project : Loc) (projectRoot : Path)
    (configured buildCommand : Option (List Char)) : Prop :=
  let result := generateGrassOutput env projectRoot configured buildCommand fs
  Framed project fs (leftBehind result) ∧
    ∀ generated after, result = .ok generated after → Published project fs (components (outputRootOf projectRoot)) after

section Steps
variable {start fs after : FileSystem} {project root : Loc} {out : List Component} {names : List Name} {content : Content}

private theorem framed_of_dirs (made : WithDirs fs after root names) (inside : project <+: root) : Framed project fs after := by
  intro loc outside
  rw [made,if_neg]
  exact fun way => outside (inside.trans way.1)

private theorem framed_of_file {loc : Loc} (written : WithFile fs after loc content) (inside : project <+: loc) :
    Framed project fs after := by
  intro other outside
  rw [written,if_neg]
  rintro rfl
  exact outside inside

private theorem Framed.trans {last : FileSystem} (first : Framed project fs after) (second : Framed project after last) :
    Framed project fs last := fun loc outside => (second loc outside).trans (first loc outside)

private theorem Confined.withDirs (confined : Confined start project out root fs) (made : WithDirs fs after root names)
    (clear : Clear fs root names) : Confined start project out root after where
  settled := made.settled confined.settled clear
  inside := confined.inside
  framed := confined.framed.trans (framed_of_dirs made confined.inside)
  native := by
    intro path content found
    rw [made] at found
    split at found
    · cases found
    · exact confined.native path content found

private theorem Confined.withFile (confined : Confined start project out root fs)
    (written : WithFile fs after (root ++ names) content) (vacant : fs.node (root ++ names) ≠ some .dir)
    (native : Native project start content) : Confined start project out root after where
  settled := written.settled confined.settled vacant (confined.settled.linkFree names)
  inside := confined.inside
  framed := confined.framed.trans (framed_of_file written (confined.inside.trans (List.prefix_append ..)))
  native := by
    intro path content found
    rw [written] at found
    split at found
    · cases found
      exact native
    · exact confined.native path content found

/-- `create_dir_all` below the output root. -/
private theorem createDirAll_confined (confined : Confined start project out root fs) (valid : ∀ name ∈ names, ValidName name) :
    Ends (createDirAll (out ++ names.map .normal) fs)
      (fun _ after => Confined start project out root after ∧ Grown fs after) (Framed project start) := by
  obtain ⟨clear,made,done,dirs⟩ | ⟨error,failed⟩ := createDirAll_settled confined.settled valid
  · rw [done]
    refine ⟨confined.withDirs dirs clear,dirs.extends_ clear,?_⟩
    intro loc content found
    rw [dirs] at found
    split at found
    · cases found
    · exact found
  · rw [failed]
    exact confined.framed

end Steps

def NoFiles (fs : FileSystem) (base : Loc) : Prop := ∀ names content, fs.node (base ++ names) ≠ some (.file content)

theorem NoFiles.grown {fs after : FileSystem} {base : Loc} (noFiles : NoFiles fs base) (grown : Grown fs after) : NoFiles after base :=
  fun names content found => noFiles names content (grown.files _ content found)

/-- A copy to below the output root, from another directory of the project or of no files at all. -/
structure Copying (start : FileSystem) (project : Loc) (out : List Component) (root : Loc) (source : List Component)
    (base below : Loc) (fs : FileSystem) : Prop where
  confined : Confined start project out root fs
  leads : Leads fs source base
  other : NoFiles fs base ∨ project <+: base ∧ base ≠ root ++ below
  valid : ∀ name ∈ below, ValidName name

def Listed (fs : FileSystem) (base : Loc) (entry : Entry) : Prop :=
  (fs.node (base ++ entry.1)).map Files.Node.shape = some entry.2.shape

section Copy
variable {start fs after : FileSystem} {project root base below : Loc} {out source : List Component} {names : Loc}
  {stop : Option Stop} {remaining : Nat} {entry : Entry}

private theorem Listed.extends_ (listed : Listed fs base entry) (extended : Extends fs after) : Listed after base entry := by
  obtain ⟨node,found,same⟩ := Option.map_eq_some_iff.mp listed
  rw [Listed,← same]
  exact extended _ _ found

private theorem Listed.valid (listed : Listed fs base entry) {name : Name} (member : name ∈ entry.1) : ValidName name := by
  obtain ⟨node,found,_⟩ := Option.map_eq_some_iff.mp listed
  exact valid_of_node found member

private theorem Listed.dir (listed : Listed fs base entry) (dir : entry.2 = .dir) : fs.node (base ++ entry.1) = some .dir := by
  obtain ⟨node,found,same⟩ := Option.map_eq_some_iff.mp listed
  rw [dir] at same
  cases node with
  | dir => exact found
  | file content => cases same
  | link target => cases same

private theorem Listed.file (listed : Listed fs base entry) {content : Content} (file : entry.2 = .file content) :
    ∃ now, fs.node (base ++ entry.1) = some (.file now) := by
  obtain ⟨node,found,same⟩ := Option.map_eq_some_iff.mp listed
  rw [file] at same
  cases node with
  | dir => cases same
  | file now => exact ⟨now,found⟩
  | link target => cases same

private theorem Copying.read (copying : Copying start project out root source base below fs) {content : Content}
    (found : fs.node (base ++ names) = some (.file content)) : fs.read (source ++ names.map .normal) = .ok content := by
  simp [FileSystem.read,copying.leads.stat found (by simp),bind,Except.bind]

private theorem Copying.apart (copying : Copying start project out root source base below fs) {content : Content}
    (found : fs.node (base ++ names) = some (.file content)) : project <+: base ∧ base ≠ root ++ below := by
  obtain noFiles | other := copying.other
  · exact absurd found (noFiles names content)
  · exact other

private theorem Copying.native (copying : Copying start project out root source base below fs) {content : Content}
    (found : fs.node (base ++ names) = some (.file content)) : Native project start content := by
  obtain ⟨rest,rfl⟩ := (copying.apart found).1
  rw [List.append_assoc] at found
  exact copying.confined.native _ content found

private theorem Copying.grown (copying : Copying start project out root source base below fs) (grown : Grown fs after)
    (confined : Confined start project out root after) : Copying start project out root source base below after :=
  { copying with
    confined
    leads := copying.leads.extends_ grown.extends_
    other := copying.other.imp_left (·.grown grown) }

private theorem Copying.later (copying : Copying start project out root source base below fs) {content : Content}
    (found : fs.node (base ++ names) = some (.file content)) (extended : Extends fs after)
    (confined : Confined start project out root after) : Copying start project out root source base below after :=
  { copying with confined, leads := copying.leads.extends_ extended, other := .inr (copying.apart found) }

private theorem copyContent_ends (copying : Copying start project out root source base below fs) {content : Content}
    (found : fs.node (base ++ names) = some (.file content)) {init : List Name} {last : Name} (named : names = init ++ [last])
    {mid : FileSystem} (created : WithFile fs mid (root ++ (below ++ names)) [])
    (vacant : fs.node (root ++ (below ++ names)) ≠ some .dir) :
    Ends (copyContent source (out ++ below.map .normal) names stop mid)
      (fun _ after => Copying start project out root source base below after ∧ Extends fs after) (Framed project start) := by
  have noLink : ∀ target, fs.node (root ++ (below ++ names)) ≠ some (.link target) := copying.confined.settled.linkFree _
  have settled := created.settled copying.confined.settled vacant noLink
  have extended := created.extends_ vacant noLink
  have within : project <+: root ++ (below ++ names) := copying.confined.inside.trans (List.prefix_append ..)
  have framed := copying.confined.framed.trans (framed_of_file created within)
  have other : base ++ names ≠ root ++ (below ++ names) := by
    rw [← List.append_assoc]
    exact fun same => (copying.apart found).2 (List.append_cancel_right same)
  have kept : mid.node (base ++ names) = some (.file content) := by
    rw [created,if_neg other,found]
  have text : mid.read (source ++ names.map .normal) = .ok content := by
    simp [FileSystem.read,(copying.leads.extends_ extended).stat kept (by simp),bind,Except.bind]
  have target : out ++ below.map .normal ++ names.map .normal = out ++ (below ++ init ++ [last]).map Component.normal := by
    simp [named]
  have place : below ++ names = below ++ init ++ [last] := by simp [named]
  have wrote : ∀ written after, mid.write (out ++ below.map .normal ++ names.map .normal) written = .ok after →
      WithFile fs after (root ++ (below ++ names)) written := by
    intro written after ok
    rw [target] at ok
    obtain ⟨_,_,only⟩ := write_settled_ok settled ok
    intro loc
    rw [only,created,place]
    split <;> rfl
  have first : Ends (query (·.read (source ++ names.map .normal)) mid) (fun value after => value = content ∧ after = mid)
      (Framed project start) := by
    refine Ends.query ?_ framed
    intro value read
    rw [text] at read
    cases read
    exact ⟨rfl,rfl⟩
  have finishes : Ends ((do
      call (·.write (out ++ below.map .normal ++ names.map .normal) content)
      return content.length : Io Nat) mid)
      (fun _ after => Copying start project out root source base below after ∧ Extends fs after) (Framed project start) := by
    have copied : Ends (call (·.write (out ++ below.map .normal ++ names.map .normal) content) mid)
        (fun _ after => Copying start project out root source base below after ∧ Extends fs after) (Framed project start) := by
      refine Ends.call ?_ framed
      intro after ok
      have written := wrote content after ok
      have longer := written.extends_ vacant noLink
      exact ⟨copying.later found longer (copying.confined.withFile written vacant (copying.native found)),longer⟩
    refine copied.bind ?_
    intro _ after holds
    exact holds
  refine first.bind ?_
  rintro value state ⟨same,kept⟩
  rw [same,kept]
  cases stop with
  | none => exact finishes
  | some stop =>
    cases stop with
    | before => exact finishes
    | within count =>
      have partly : Ends (call (·.write (out ++ below.map .normal ++ names.map .normal) (content.take count)) mid)
          (fun _ after => Framed project start after) (Framed project start) := by
        refine Ends.call ?_ framed
        intro after ok
        exact copying.confined.framed.trans (framed_of_file (wrote _ after ok) within)
      refine partly.bind ?_
      intro _ after holds
      exact holds

private theorem copyFile_ends (copying : Copying start project out root source base below fs) {content : Content}
    (found : fs.node (base ++ names) = some (.file content)) (deeper : names ≠ []) (valid : ∀ name ∈ names, ValidName name) :
    Ends (copyFile source (out ++ below.map .normal) names stop remaining fs)
      (fun _ after => Copying start project out root source base below after ∧ Extends fs after) (Framed project start) := by
  obtain ⟨init,last,named⟩ : ∃ init last, names = init ++ [last] :=
    ⟨names.dropLast,names.getLast deeper,(List.dropLast_append_getLast deeper).symm⟩
  have framed := copying.confined.framed
  have measured : Ends (query (fun fs => (fs.lstat (source ++ names.map .normal)).map fileLength) fs)
      (fun _ after => fs = after) (Framed project start) := Ends.query (fun _ _ => rfl) framed
  refine measured.bind ?_
  rintro length _ rfl
  split
  · exact framed
  · have parent : Ends (createDirAll (out ++ below.map .normal ++ names.dropLast.map .normal) fs)
        (fun _ after => Confined start project out root after ∧ Grown fs after) (Framed project start) := by
      have whole : out ++ below.map .normal ++ names.dropLast.map .normal = out ++ (below ++ names.dropLast).map Component.normal := by
        simp
      rw [whole]
      refine createDirAll_confined copying.confined ?_
      intro name member
      obtain above | inner := List.mem_append.mp member
      · exact copying.valid name above
      · exact valid name (List.dropLast_subset _ inner)
    refine parent.bind ?_
    rintro _ mid ⟨confined,grown⟩
    have extended := grown.extends_
    have later := copying.grown grown confined
    obtain ⟨now,still⟩ := extended.file found
    refine Ends.bind (Ends.query (fun _ _ => rfl) confined.framed : Ends (query (·.read (source ++ names.map .normal)) mid)
      (fun _ after => mid = after) (Framed project start)) ?_
    rintro _ _ rfl
    have created : Ends (call (·.write (out ++ below.map .normal ++ names.map .normal) []) mid)
        (fun _ after => mid.node (root ++ (below ++ names)) ≠ some .dir ∧ WithFile mid after (root ++ (below ++ names)) [])
        (Framed project start) := by
      refine Ends.call ?_ confined.framed
      intro after ok
      have target : out ++ below.map .normal ++ names.map .normal = out ++ (below ++ init ++ [last]).map Component.normal := by
        simp [named]
      rw [target] at ok
      obtain ⟨_,vacant,only⟩ := write_settled_ok confined.settled ok
      have place : below ++ names = below ++ init ++ [last] := by simp [named]
      rw [place]
      exact ⟨vacant,only⟩
    refine created.bind ?_
    rintro _ after ⟨vacant,only⟩
    refine (copyContent_ends later still named only vacant).bind ?_
    rintro copied done ⟨last,longer⟩
    exact ⟨last,extended.trans longer⟩

private theorem copyEntry_ends (copying : Copying start project out root source base below fs) (listed : Listed fs base entry) :
    Ends (copyEntry source (out ++ below.map .normal) entry stop remaining fs)
      (fun _ after => Copying start project out root source base below after ∧ Extends fs after) (Framed project start) := by
  unfold copyEntry
  split
  · exact ⟨copying,.refl⟩
  · rename_i deeper
    obtain ⟨names,node⟩ := entry
    cases node with
    | dir =>
      have whole : out ++ below.map .normal ++ names.map .normal = out ++ (below ++ names).map Component.normal := by simp
      have made : Ends (createDirAll (out ++ below.map .normal ++ names.map .normal) fs)
          (fun _ after => Confined start project out root after ∧ Grown fs after) (Framed project start) := by
        rw [whole]
        refine createDirAll_confined copying.confined ?_
        intro name member
        obtain above | inner := List.mem_append.mp member
        · exact copying.valid name above
        · exact listed.valid inner
      refine made.bind ?_
      rintro _ after ⟨confined,grown⟩
      exact ⟨copying.grown grown confined,grown.extends_⟩
    | file content =>
      obtain ⟨now,found⟩ := listed.file rfl
      exact copyFile_ends copying found deeper fun name member => listed.valid member
    | link target => exact ⟨copying,.refl⟩

private theorem walkDir_ends (copying : Copying start project out root source base below fs) (listed : Listed fs base entry) :
    Ends (walkDir source (out ++ below.map .normal) entry fs)
      (fun found after => fs = after ∧ ∀ child ∈ found, Listed fs base child) (Framed project start) := by
  unfold walkDir
  split
  · rename_i isDir
    have dir := listed.dir isDir
    refine Ends.query ?_ copying.confined.framed
    intro found ok
    refine ⟨rfl,?_⟩
    have opened : fs.readDir (source ++ entry.1.map .normal) = .ok (fs.children (base ++ entry.1)) := by
      simp [FileSystem.readDir,(copying.leads.down dir).located,bind,Except.bind,dir]
    rw [opened] at ok
    cases ok
    intro child member
    obtain ⟨member,_⟩ := List.mem_filter.mp member
    obtain ⟨⟨name,node⟩,inner,rfl⟩ := List.mem_map.mp member
    have there := mem_children.mp inner
    rw [List.append_assoc] at there
    rw [Listed,there]
    rfl
  · exact ⟨rfl,by simp⟩

private theorem copyLoop_ends {stops : Nat → Option Stop} {left : Nat} {pending : List Entry}
    (copying : Copying start project out root source base below fs) (listed : ∀ entry ∈ pending, Listed fs base entry) :
    Ends (copyLoop stops source (out ++ below.map .normal) left pending remaining fs)
      (fun _ after => Copying start project out root source base below after ∧ Extends fs after) (Framed project start) := by
  induction left generalizing pending remaining fs with
  | zero =>
    cases pending with
    | nil => exact ⟨copying,.refl⟩
    | cons entry rest => exact copying.confined.framed
  | succ left ih =>
    cases pending with
    | nil => exact ⟨copying,.refl⟩
    | cons entry rest =>
      have goes : ∀ stop, Ends ((do
          let remaining ← copyEntry source (out ++ below.map .normal) entry stop remaining
          let found ← walkDir source (out ++ below.map .normal) entry
          copyLoop stops source (out ++ below.map .normal) left (found ++ rest) remaining : Io Unit) fs)
          (fun _ after => Copying start project out root source base below after ∧ Extends fs after) (Framed project start) := by
        intro stop
        refine (copyEntry_ends copying (listed entry (by simp))).bind ?_
        rintro remaining mid ⟨later,extended⟩
        refine (walkDir_ends later ((listed entry (by simp)).extends_ extended)).bind ?_
        rintro found _ ⟨rfl,children⟩
        have pending : ∀ child ∈ found ++ rest, Listed mid base child := by
          intro child member
          obtain new | old := List.mem_append.mp member
          · exact children child new
          · exact (listed child (List.mem_cons_of_mem _ old)).extends_ extended
        refine (ih later pending).mono ?_ fun _ holds => holds
        rintro _ after ⟨last,longer⟩
        exact ⟨last,extended.trans longer⟩
      unfold copyLoop
      cases stops left with
      | none => exact goes none
      | some stop =>
        cases stop with
        | before => exact copying.confined.framed
        | within count => exact goes (some (.within count))

end Copy

section Copies
variable {start fs : FileSystem} {project root : Loc} {outputRoot : Path} {env : Environment} {copy : Copy} {copies : List Copy}

/-- The directories a destination without `..` adds to the output root. -/
private theorem destination_names {destination : Path} (rooted : outputRoot ≠ []) (relative : destination.head? ≠ some '/')
    (stays : .parentDir ∉ components destination) : ∃ below : List Name, (∀ name ∈ below, ValidName name) ∧
      components (push outputRoot destination) = components outputRoot ++ below.map .normal := by
  rw [components_push rooted relative]
  have parts : ∀ part ∈ (destination.splitOn '/').filterMap component, ∃ name, part = .normal name ∧ ValidName name := by
    intro part member
    have inside : part ∈ components destination := List.mem_append_right _ member
    cases part with
    | normal name => exact ⟨name,rfl,(valid_of_mem_components inside).1⟩
    | parentDir => exact absurd inside stays
    | rootDir =>
      obtain ⟨piece,_,made⟩ := List.mem_filterMap.mp member
      unfold component at made
      split at made <;> cases made
    | curDir =>
      obtain ⟨piece,_,made⟩ := List.mem_filterMap.mp member
      unfold component at made
      split at made <;> cases made
  generalize (destination.splitOn '/').filterMap component = list at parts
  induction list with
  | nil => exact ⟨[],by simp,by simp⟩
  | cons part list ih =>
    obtain ⟨below,valid,same⟩ := ih fun other member => parts other (List.mem_cons_of_mem _ member)
    obtain ⟨name,rfl,own⟩ := parts part (by simp)
    refine ⟨name :: below,?_,by simpa using same⟩
    intro other member
    obtain rfl | later := List.mem_cons.mp member
    · exact own
    · exact valid other later

private theorem copyDir_ends {stops : Nat → Option Stop} {source : List Component} {base below : Loc} {out : List Component}
    (copying : Copying start project out root source base below fs) :
    Ends (copyDir stops source (out ++ below.map .normal) fs)
      (fun _ after => Confined start project out root after) (Framed project start) := by
  unfold copyDir
  split
  · exact copying.confined
  · have found : fs.stat source = .ok .dir := by
      simp [FileSystem.stat,copying.leads.located,bind,Except.bind,copying.leads.dir]
    simp only [found]
    have listed : ∀ entry ∈ [(([] : Loc),Files.Node.dir)], Listed fs base entry := by
      intro entry member
      rw [List.mem_singleton.mp member,Listed,List.append_nil,copying.leads.dir]
      rfl
    exact (copyLoop_ends copying listed).mono (fun _ _ holds => holds.1.confined) fun _ holds => holds

private theorem copyDir_other {stops : Nat → Option Stop} {source target : List Component} (noDir : fs.isDir source = false)
    (framed : Framed project start fs) {done : FileSystem → Prop} (kept : done fs) :
    Ends (copyDir stops source target fs) (fun _ after => done after) (Framed project start) := by
  unfold copyDir
  split
  · exact kept
  · cases found : fs.stat source with
    | error problem => exact framed
    | ok node =>
      have other : node ≠ .dir := by
        rintro rfl
        simp [FileSystem.isDir,found] at noDir
      have goes : ∀ left stop remaining, Ends ((do
          let remaining ← copyEntry source target (([] : Loc),node) stop remaining
          let found ← walkDir source target (([] : Loc),node)
          copyLoop stops source target left (found ++ []) remaining : Io Unit) fs)
          (fun _ after => done after) (Framed project start) := by
        intro left stop remaining
        refine Ends.bind (show Ends (copyEntry source target (([] : Loc),node) stop remaining fs)
          (fun _ after => fs = after) (Framed project start) from rfl) ?_
        rintro rest _ rfl
        have leaf : walkDir source target (([] : Loc),node) fs = .ok [] fs := if_neg other
        refine Ends.bind (show Ends (walkDir source target (([] : Loc),node) fs)
          (fun found after => found = [] ∧ fs = after) (Framed project start) by rw [leaf]; exact ⟨rfl,rfl⟩) ?_
        rintro _ _ ⟨rfl,rfl⟩
        cases left <;> exact kept
      have loop : ∀ left remaining, Ends (copyLoop stops source target (left + 1) [([],node)] remaining fs)
          (fun _ after => done after) (Framed project start) := by
        intro left remaining
        unfold copyLoop
        cases stops left with
        | none => exact goes left none remaining
        | some stop =>
          cases stop with
          | before => exact framed
          | within count => exact goes left (some (.within count)) remaining
      exact loop 49999 _

private theorem copyInto_ends (confined : Confined start project (components outputRoot) root fs) (rooted : outputRoot ≠ [])
    (relative : copy.destination.head? ≠ some '/') (inside : copyInside fs project outputRoot copy) :
    Ends (copyInto env outputRoot copy fs) (fun _ after => Confined start project (components outputRoot) root after)
      (Framed project start) := by
  unfold copyInto
  cases there : fs.isDir (components copy.source) with
  | false =>
    by_cases overlay : copy.overlay
    · rw [if_pos overlay,copyOverlay,there]
      exact confined
    · rw [if_neg overlay]
      exact copyDir_other there confined.framed confined
  | true =>
    obtain ⟨base,leads⟩ := leads_of_isDir there
    simp only [copyInside,leads.located,leads.dir,ne_eq,not_true,false_or,decide_eq_true_eq] at inside
    obtain ⟨stays,chosen⟩ := inside
    obtain ⟨below,valid,target⟩ := destination_names rooted relative stays
    have other : NoFiles fs base ∨ project <+: base ∧ base ≠ root ++ below := by
      refine chosen.imp ?_ fun ⟨within,other⟩ => ⟨within,?_⟩
      · intro noFiles names content found
        have deeper : names ≠ [] := by
          rintro rfl
          rw [List.append_nil,leads.dir] at found
          cases found
        have member := (mem_filesUnder leads.located).mpr ⟨deeper,found⟩
        simp [noFiles] at member
      · rintro rfl
        rw [target] at other
        exact other (confined.settled.down leads.dir).located
    have copying : Copying start project (components outputRoot) root (components copy.source) base below fs :=
      ⟨confined,leads,other,valid⟩
    rw [target]
    by_cases overlay : copy.overlay
    · rw [if_pos overlay,copyOverlay,there]
      refine (createDirAll_confined confined valid).bind ?_
      rintro _ after ⟨confined,grown⟩
      exact copyDir_ends (copying.grown grown confined)
    · rw [if_neg overlay]
      exact copyDir_ends copying

private theorem copyAll_ends (confined : Confined start project (components outputRoot) root fs) (rooted : outputRoot ≠ [])
    (relative : ∀ copy ∈ copies, copy.destination.head? ≠ some '/') (inside : copiesInside env project outputRoot fs copies) :
    Ends (copyAll env outputRoot copies fs) (fun _ after => Confined start project (components outputRoot) root after)
      (Framed project start) := by
  induction copies generalizing fs with
  | nil => exact confined
  | cons copy rest ih =>
    simp only [copiesInside,Bool.and_eq_true] at inside
    obtain ⟨first,others⟩ := inside
    have step : Ends (copyInto env outputRoot copy fs)
        (fun _ after => copiesInside env project outputRoot after rest ∧ Confined start project (components outputRoot) root after)
        (Framed project start) := by
      have ends_ := @copyInto_ends _ _ _ _ _ env _ confined rooted (relative copy (by simp)) first
      cases result : copyInto env outputRoot copy fs with
      | ok value after =>
        rw [result] at ends_ others
        exact ⟨others,ends_⟩
      | error problem after =>
        rw [result] at ends_
        exact ends_
    refine step.bind ?_
    rintro _ after ⟨inside,confined⟩
    exact ih confined (fun copy member => relative copy (List.mem_cons_of_mem _ member)) inside

end Copies

/-! The directory of the output. -/
section Prepare
variable {fs : FileSystem} {project : Loc} {projectRoot : Path}

structure Emptied (fs : FileSystem) (project : Loc) (out : List Component) (after : FileSystem) : Prop where
  framed : Framed project fs after
  older : ∀ loc node, after.node loc = some node → fs.node loc = some node
  dir : after.node project = some .dir
  gone : ∀ loc, after.locate out ≠ .ok loc

private theorem Emptied.extends_ {after : FileSystem} {out : List Component} (emptied : Emptied fs project out after) :
    Extends after fs := by
  intro loc node found
  rw [emptied.older loc node found]
  rfl

private theorem grassInside_leads {above : Loc} (inside : grassInside fs project projectRoot)
    (leads : Leads fs (components (join projectRoot ".grass")) above) : project <+: above := by
  simp only [grassInside,leads.located,leads.dir,ne_eq,not_true,false_or,decide_eq_true_eq] at inside
  exact inside

private theorem emptyOutput_ends (rooted : projectRoot ≠ []) (dir : fs.node project = some .dir)
    (inside : grassInside fs project projectRoot) :
    Ends (emptyOutput (outputRootOf projectRoot) fs)
      (fun _ after => Emptied fs project (components (outputRootOf projectRoot)) after) (Framed project fs) := by
  have same : components (outputRootOf projectRoot) =
      components (join projectRoot ".grass") ++ [.normal "output".toList] := by
    rw [outputRootOf,join,join,components_push rooted (by decide),components_push rooted (by decide),List.append_assoc]
    rfl
  have still : Framed project fs fs := fun _ _ => rfl
  unfold emptyOutput
  split
  · refine Ends.call ?_ still
    intro after removed
    simp only [FileSystem.removeDirAll] at removed
    cases named : fs.entry (components (outputRootOf projectRoot)) with
    | error problem =>
      rw [named] at removed
      cases removed
    | ok place =>
      obtain ⟨above,name⟩ := place
      rw [named] at removed
      rw [same] at named
      obtain ⟨leads,rfl⟩ := locate_of_entry named
      have within := grassInside_leads inside leads
      have outcome : after = fs.remove (above ++ ["output".toList]) := by
        simp only [bind,Except.bind] at removed
        split at removed <;> cases removed
        rfl
      subst outcome
      have older : ∀ loc node, (fs.remove (above ++ ["output".toList])).node loc = some node → fs.node loc = some node := by
        intro loc node found
        rw [FileSystem.node_remove] at found
        split at found
        · cases found
        · exact found
      refine ⟨?_,older,?_,?_⟩
      · intro loc outside
        rw [FileSystem.node_remove,if_neg]
        exact fun way => outside (within.trans ((List.prefix_append ..).trans way.2))
      · rw [FileSystem.node_remove,if_neg,dir]
        rintro ⟨_,longer⟩
        have long := longer.length_le
        have short := within.length_le
        simp only [List.length_append,List.length_singleton] at long
        omega
      · intro loc located
        rw [same] at located
        obtain ⟨other,found,there⟩ := entry_of_locate located
        obtain ⟨again,_⟩ := locate_of_entry found
        have extended : Extends (fs.remove (above ++ ["output".toList])) fs := by
          intro loc node found
          rw [older loc node found]
          rfl
        have equal : other = above := by
          have reached := (again.extends_ extended).located
          rw [leads.located] at reached
          exact (Except.ok.inj reached).symm
        subst equal
        rw [FileSystem.node_remove] at there
        simp at there
  · rename_i missing
    refine ⟨still,fun _ _ found => found,dir,?_⟩
    intro loc located
    refine missing ?_
    obtain ⟨node,found⟩ := Option.ne_none_iff_exists'.mp (node_of_locate located)
    simp [FileSystem.exists',FileSystem.stat,located,bind,Except.bind,found,Except.isOk,Except.toBool]

private theorem confined_of_made {mid after : FileSystem} {path : List Component} {base : Loc} (names : List Name) {name : Name}
    (framed : Framed project fs mid) (older : ∀ loc node, mid.node loc = some node → fs.node loc = some node)
    (leads : Leads mid path base) (within : project <+: base) (absent : mid.node (base ++ names) = none)
    (clear : Clear mid base (names ++ [name])) (made : WithDirs mid after base (names ++ [name])) :
    Confined fs project (path ++ names.map .normal) (base ++ names) after where
  settled := by
    have there : after.node (base ++ names) = some .dir := by
      rw [made,if_pos]
      exact ⟨List.prefix_append ..,by rw [← List.append_assoc]; exact List.prefix_append ..⟩
    refine ⟨(leads.extends_ (made.extends_ clear)).down there,?_⟩
    intro more target linked
    rw [made] at linked
    split at linked
    · cases linked
    · rename_i off
      by_cases none_ : more = []
      · subst none_
        rw [List.append_nil,absent] at linked
        cases linked
      · rw [dir_above linked none_] at absent
        cases absent
  inside := within.trans (List.prefix_append ..)
  framed := framed.trans (framed_of_dirs made within)
  native := by
    intro more content found
    rw [made] at found
    split at found
    · cases found
    · exact ⟨more,older _ _ found⟩

private theorem prepare_ends {target : Name} (valid : ValidName target) (atRoot : components projectRoot = .rootDir :: project.map .normal)
    (dir : fs.node project = some .dir) (inside : grassInside fs project projectRoot) :
    Ends (prepareOutput (outputRootOf projectRoot) target fs)
      (fun _ after => ∃ root, Confined fs project (components (outputRootOf projectRoot)) root after) (Framed project fs) := by
  have rooted : projectRoot ≠ [] := by
    rintro rfl
    cases project <;> cases atRoot
  have grass : components (join projectRoot ".grass") = components projectRoot ++ [.normal ".grass".toList] := by
    rw [join,components_push rooted (by decide)]
    rfl
  have output : components (outputRootOf projectRoot) = components (join projectRoot ".grass") ++ [.normal "output".toList] := by
    rw [outputRootOf,join,grass,components_push rooted (by decide),List.append_assoc]
    rfl
  have whole : components (push (outputRootOf projectRoot) target) = components (outputRootOf projectRoot) ++ [.normal target] := by
    have nonempty : push projectRoot ".grass/output".toList ≠ [] := push_ne_nil rooted (by decide)
    have nonempty : outputRootOf projectRoot ≠ [] := nonempty
    rw [components_push_name nonempty valid.2.1,component_of_valid valid]
    rfl
  refine (emptyOutput_ends rooted dir inside).bind ?_
  rintro _ mid emptied
  rw [whole]
  have leads : Leads mid (components projectRoot) project := by
    have top : Leads mid [.rootDir] [] := ⟨rfl,by simp⟩
    rw [atRoot]
    exact top.down emptied.dir
  have outputValid : ValidName "output".toList := by decide
  have grassValid : ValidName ".grass".toList := by decide
  have noOutput : mid.isDir (components (outputRootOf projectRoot)) = false := by
    by_contra there
    obtain ⟨loc,led⟩ := leads_of_isDir (by simpa using there)
    exact emptied.gone loc led.located
  cases led : mid.isDir (components (join projectRoot ".grass")) with
  | true =>
    obtain ⟨above,reached⟩ := leads_of_isDir led
    have within := grassInside_leads inside (reached.extends_ emptied.extends_)
    cases found : mid.node (above ++ ["output".toList]) with
    | none =>
      have clear : Clear mid above ["output".toList,target] := Clear.of_absent reached.dir found
      obtain ⟨after,done,made⟩ := createDirAll_clear reached (List.forall_mem_cons.mpr ⟨outputValid,List.forall_mem_singleton.mpr valid⟩) clear
      rw [output,List.append_assoc]
      show Ends (createDirAll (components (join projectRoot ".grass") ++ ["output".toList,target].map Component.normal) mid) _ _
      rw [done]
      exact ⟨above ++ ["output".toList],confined_of_made ["output".toList] emptied.framed emptied.older reached within found
        clear made⟩
    | some node =>
      have named := @Leads.entry mid _ above [] "output".toList reached (by simpa using reached.dir)
      rw [List.append_nil,List.nil_append] at named
      obtain ⟨error,failed⟩ := createDirAll_stuck (by rw [output]; exact named) (by rw [found]; exact Option.some_ne_none _) noOutput [target]
      show Ends (createDirAll (components (outputRootOf projectRoot) ++ [target].map Component.normal) mid) _ _
      rw [failed]
      exact emptied.framed
  | false =>
    cases found : mid.node (project ++ [".grass".toList]) with
    | none =>
      have clear : Clear mid project [".grass".toList,"output".toList,target] := Clear.of_absent leads.dir found
      obtain ⟨after,done,made⟩ := createDirAll_clear leads
        (List.forall_mem_cons.mpr ⟨grassValid,List.forall_mem_cons.mpr ⟨outputValid,List.forall_mem_singleton.mpr valid⟩⟩) clear
      have absent : mid.node (project ++ [".grass".toList,"output".toList]) = none := by
        by_contra there
        obtain ⟨node,deeper⟩ := Option.ne_none_iff_exists'.mp there
        have split : project ++ [".grass".toList,"output".toList] = project ++ [".grass".toList] ++ ["output".toList] := by simp
        rw [split] at deeper
        rw [(dir_of_node deeper).2] at found
        cases found
      have shape : components (outputRootOf projectRoot) =
          components projectRoot ++ [".grass".toList,"output".toList].map Component.normal := by
        rw [output,grass,List.append_assoc]
        rfl
      rw [shape,List.append_assoc]
      show Ends (createDirAll (components projectRoot ++ [".grass".toList,"output".toList,target].map Component.normal) mid) _ _
      rw [done]
      exact ⟨_,confined_of_made [".grass".toList,"output".toList] emptied.framed emptied.older leads
        (List.prefix_refl _) absent clear made⟩
    | some node =>
      have named := @Leads.entry mid _ project [] ".grass".toList leads (by simpa using leads.dir)
      rw [List.append_nil,List.nil_append] at named
      obtain ⟨error,failed⟩ := createDirAll_stuck (by rw [grass]; exact named) (by rw [found]; exact Option.some_ne_none _) led ["output".toList,target]
      rw [output,List.append_assoc]
      show Ends (createDirAll (components (join projectRoot ".grass") ++ ["output".toList,target].map Component.normal) mid) _ _
      rw [failed]
      exact emptied.framed

end Prepare

/-! What was decided about a build, and the whole of it. -/
section Whole
variable {start fs after : FileSystem} {project root : Loc} {projectRoot outputRoot : Path} {out : List Component}
  {configured : Option (List Char)} {env : Environment} {detection : Detection} {plan : OutputPlan} {names : List Name}
  {content : Content}

private theorem ssrLayout_relative {layout : SsrLayout} (laid : ssrLayout fs projectRoot detection = .ok layout)
    {overlay : Path × Path} (member : overlay ∈ layout.overlays) : overlay.2.head? ≠ some '/' := by
  have bare : layout.overlays = [] → overlay.2.head? ≠ some '/' := by
    intro none_
    simp [none_] at member
  have browser : remixLayout (fileTree fs) projectRoot = .ok layout → overlay.2.head? ≠ some '/' := by
    intro made
    have inside : overlay.2 = "public".toList ∨ overlay.2 = "build/client".toList := by
      simp only [remixLayout] at made
      have known : overlay ∈ ["public","build/client"].filterMap (fun path =>
          if (fileTree fs).isDir (join projectRoot path) then some (join projectRoot path,path.toList) else none) := by
        split at made
        · cases made
          exact member
        · split at made
          · cases made
            exact member
          · cases made
      obtain ⟨path,listed,chosen⟩ := List.mem_filterMap.mp known
      obtain ⟨_,same⟩ := Option.ite_none_right_eq_some.mp chosen
      cases same
      simp only [List.mem_cons,List.not_mem_nil,or_false] at listed
      exact listed.imp (congrArg String.toList) (congrArg String.toList)
    obtain same | same := inside <;> rw [same] <;> decide
  cases framework : detection.framework with
  | next =>
    simp only [ssrLayout,framework,nextLayout] at laid
    split at laid
    · split at laid
      · cases laid
      · cases laid
        simp only [List.mem_cons,List.not_mem_nil,or_false] at member
        obtain rfl | rfl := member <;> split <;> simp
    · cases laid
  | astro =>
    simp only [ssrLayout,framework] at laid
    split at laid
    · cases laid
      rw [List.mem_singleton.mp member]
      show "node_modules".toList.head? ≠ some '/'
      decide
    · cases laid
  | nuxt =>
    simp only [ssrLayout,framework] at laid
    split at laid
    · cases laid
      exact bare rfl
    · cases laid
  | svelteKit =>
    simp only [ssrLayout,framework] at laid
    split at laid
    · cases laid
      exact bare rfl
    · cases laid
  | remix =>
    simp only [ssrLayout,framework] at laid
    exact browser laid
  | reactRouter =>
    simp only [ssrLayout,framework] at laid
    exact browser laid
  | vite =>
    simp only [ssrLayout,framework] at laid
    cases laid
  | unknown =>
    simp only [ssrLayout,framework] at laid
    cases laid

private theorem outputPlan_copies (planned : outputPlan env fs projectRoot configured = .ok plan) :
    ValidName plan.target ∧ ∀ copy ∈ plan.copies, copy.destination.head? ≠ some '/' := by
  have static : ValidName "static".toList := by decide
  have server : ValidName "server".toList := by decide
  simp only [outputPlan] at planned
  split at planned
  · cases planned
  · split at planned
    · simp only [staticPlan] at planned
      split at planned
      · cases planned
        refine ⟨static,?_⟩
        intro copy member
        rw [List.mem_singleton.mp member]
        show "static".toList.head? ≠ some '/'
        decide
      · cases planned
    · simp only [ssrPlan] at planned
      split at planned
      · cases planned
      · rename_i layout laid
        cases planned
        refine ⟨server,?_⟩
        intro copy member
        obtain rfl | overlay := List.mem_cons.mp member
        · show "server".toList.head? ≠ some '/'
          decide
        · obtain ⟨overlay,inside,rfl⟩ := List.mem_map.mp overlay
          exact ssrLayout_relative laid inside
    · cases planned
    · cases planned

structure Finished (start : FileSystem) (project : Loc) (out : List Component) (root : Loc) (fs : FileSystem) : Prop where
  settled : Settled fs out root
  inside : project <+: root
  framed : Framed project start fs
  native : ∀ names content, fs.node (root ++ names) = some (.file content) →
    names = ["output.toml".toList] ∨ names = ["metadata".toList,"checksums.toml".toList] ∨ Native project start content

private theorem Confined.finished (confined : Confined start project out root fs) : Finished start project out root fs where
  settled := confined.settled
  inside := confined.inside
  framed := confined.framed
  native := by
    intro names content found
    obtain ⟨rest,rfl⟩ := confined.inside
    rw [List.append_assoc] at found
    exact .inr (.inr (confined.native _ content found))

private theorem Finished.write (finished : Finished start project out root fs) (init : List Name) (last : Name)
    (own : init ++ [last] = ["output.toml".toList] ∨ init ++ [last] = ["metadata".toList,"checksums.toml".toList])
    (change : FileSystem → Content) : Ends (call (fun fs => fs.write (out ++ (init ++ [last]).map .normal) (change fs)) fs)
      (fun _ after => Finished start project out root after) (Framed project start) := by
  refine Ends.call ?_ finished.framed
  intro after ok
  obtain ⟨_,vacant,only⟩ := write_settled_ok finished.settled ok
  refine ⟨only.settled finished.settled vacant (finished.settled.linkFree _),finished.inside,?_,?_⟩
  · exact finished.framed.trans (framed_of_file only (finished.inside.trans (List.prefix_append ..)))
  · intro names content found
    rw [only] at found
    split at found
    · rename_i same
      rw [List.append_cancel_left same]
      exact own.imp_right .inl
    · exact finished.native names content found

private theorem Finished.dirs (finished : Finished start project out root fs) (valid : ∀ name ∈ names, ValidName name) :
    Ends (createDirAll (out ++ names.map .normal) fs) (fun _ after => Finished start project out root after)
      (Framed project start) := by
  obtain ⟨clear,made,done,dirs⟩ | ⟨error,failed⟩ := createDirAll_settled finished.settled valid
  · rw [done]
    refine ⟨dirs.settled finished.settled clear,finished.inside,finished.framed.trans (framed_of_dirs dirs finished.inside),?_⟩
    intro names content found
    rw [dirs] at found
    split at found
    · cases found
    · exact finished.native names content found
  · rw [failed]
    exact finished.framed

private theorem writeManifest_ends (finished : Finished start project (components outputRoot) root fs) (rooted : outputRoot ≠ []) :
    Ends (writeManifest env outputRoot plan content fs)
      (fun _ after => Finished start project (components outputRoot) root after) (Framed project start) := by
  have manifest : components (join outputRoot "output.toml") = components outputRoot ++ ["output.toml".toList].map .normal := by
    rw [join,components_push rooted (by decide)]
    rfl
  have metadata : components (join outputRoot "metadata") = components outputRoot ++ ["metadata".toList].map .normal := by
    rw [join,components_push rooted (by decide)]
    rfl
  have checksums : components (join (join outputRoot "metadata") "checksums.toml") =
      components outputRoot ++ ["metadata".toList,"checksums.toml".toList].map .normal := by
    have nonempty : join outputRoot "metadata" ≠ [] := push_ne_nil rooted (by decide)
    rw [join,components_push nonempty (by decide),metadata,List.append_assoc]
    rfl
  have written : Ends (call (·.write (components (join outputRoot "output.toml")) content) fs)
      (fun _ after => Finished start project (components outputRoot) root after) (Framed project start) := by
    rw [manifest]
    exact finished.write [] _ (.inl rfl) fun _ => content
  refine written.bind ?_
  intro _ mid finished
  split
  · have made : Ends (createDirAll (components (join outputRoot "metadata")) mid)
        (fun _ after => Finished start project (components outputRoot) root after) (Framed project start) := by
      rw [metadata]
      exact finished.dirs (List.forall_mem_singleton.mpr (by decide))
    refine made.bind ?_
    intro _ last finished
    unfold writeChecksums
    rw [checksums]
    exact finished.write ["metadata".toList] _ (.inr rfl) _
  · exact finished

/-- A build changes nothing outside its project, and publishes the contents of regular files
of the project that are not behind a symbolic link. -/
theorem generate_stays_inside (env : Environment) (fs : FileSystem) (project : Loc) (projectRoot : Path)
    (configured buildCommand : Option (List Char)) (atRoot : components projectRoot = .rootDir :: project.map .normal)
    (dir : fs.node project = some .dir) (inside : outputInside env fs project projectRoot configured) :
    StaysInside env fs project projectRoot configured buildCommand := by
  simp only [StaysInside,generateGrassOutput]
  cases planned : outputPlan env fs projectRoot configured with
  | error problem => exact ⟨fun _ _ => rfl,fun _ _ failed => by cases failed⟩
  | ok plan =>
    simp only [outputInside,planned,Bool.and_eq_true] at inside
    obtain ⟨grass,copies⟩ := inside
    obtain ⟨valid,relative⟩ := outputPlan_copies planned
    have rooted : projectRoot ≠ [] := by
      rintro rfl
      cases project <;> cases atRoot
    have nonempty : push projectRoot ".grass/output".toList ≠ [] := push_ne_nil rooted (by decide)
    have nonempty : outputRootOf projectRoot ≠ [] := nonempty
    have prepared : Ends (prepareOutput (outputRootOf projectRoot) plan.target fs)
        (fun _ after => copiesInside env project (outputRootOf projectRoot) after plan.copies ∧
          ∃ root, Confined fs project (components (outputRootOf projectRoot)) root after) (Framed project fs) := by
      have ends_ := prepare_ends valid atRoot dir grass
      cases result : prepareOutput (outputRootOf projectRoot) plan.target fs with
      | ok value after =>
        rw [result] at ends_ copies
        exact ⟨copies,ends_⟩
      | error problem after =>
        rw [result] at ends_
        exact ends_
    have whole : ∀ manifest, Ends (writeOutput env (outputRootOf projectRoot) plan manifest fs)
        (fun _ after => ∃ root, Finished fs project (components (outputRootOf projectRoot)) root after) (Framed project fs) := by
      intro manifest
      refine prepared.bind ?_
      rintro _ mid ⟨copies,root,confined⟩
      refine (copyAll_ends confined nonempty relative copies).bind ?_
      intro _ after confined
      cases manifest with
      | none => exact confined.framed
      | some manifest => exact (writeManifest_ends confined.finished nonempty).mono (fun _ _ holds => ⟨root,holds⟩) fun _ holds => holds
    have outcome := whole (env.toToml plan.manifest (frameworkSection plan.detection) buildCommand configured)
    cases result : writeOutput env (outputRootOf projectRoot) plan
        (env.toToml plan.manifest (frameworkSection plan.detection) buildCommand configured) fs with
    | error problem after =>
      rw [result] at outcome
      simp only [result]
      exact ⟨outcome,fun _ _ failed => by cases failed⟩
    | ok value after =>
      rw [result] at outcome
      obtain ⟨root,finished⟩ := outcome
      simp only [result]
      cases validateManifest (fileTree after) (outputRootOf projectRoot) plan.manifest with
      | error problem => exact ⟨finished.framed,fun _ _ failed => by cases failed⟩
      | ok value =>
        refine ⟨finished.framed,?_⟩
        intro generated last done names content member
        cases done
        exact finished.native names content ((mem_filesUnder finished.settled.located).mp member).2

end Whole

private def at_ (path : String) : Loc := (path.toList.splitOn '/').drop 1

private def example_ : Environment where
  fromStr := fun _ => none
  toToml := fun _ _ _ _ => some (bytes "version = 1\n\n[runtime]\nkind = \"static\"\n\n[static]\ndirectory = \"static\"\n".toList)
  sha256 := fun _ => "33f2799467177287a29260780a107ac98ea63dd6165f67fcc0d74767d0a82090".toList
  stops := fun _ _ => none

private def site (others : List (Loc × Files.Node)) : List (Loc × Files.Node) :=
  [(at_ "/p",.dir),(at_ "/p/dist",.dir),(at_ "/p/dist/index.html",.file ([60,112,62])),
    (at_ "/p/dist/new",.link "/h".toList),(at_ "/h",.dir),(at_ "/h/output",.dir),
    (at_ "/h/output/key",.file ([107])),(at_ "/h/index.html",.file ([104,111,115,116]))] ++ others

private def succeeded {ε α : Type} : EStateM.Result ε FileSystem α → Bool
  | .ok _ _ => true
  | .error _ _ => false

private def plain : FileSystem :=
  ⟨site [],by decide,placed_of_wellPlaced (by decide +kernel)⟩

private def linked : FileSystem :=
  ⟨site [(at_ "/p/.grass",.link "/h".toList)],by decide,placed_of_wellPlaced (by decide)⟩

theorem site_stays_inside : StaysInside example_ plain (at_ "/p") "/p".toList none none :=
  generate_stays_inside example_ plain (at_ "/p") "/p".toList none none (by decide +kernel) (by decide) (by decide +kernel)

/-- A link in the repository lets the build delete a directory of the node, and the configured
directory lets it publish one. -/
theorem linked_grass_deletes_host_files : ¬StaysInside example_ linked (at_ "/p") "/p".toList none none ∧
    ¬StaysInside example_ plain (at_ "/p") "/p".toList (some "/h".toList) none := by
  constructor
  · intro holds
    have kept := holds.1 (at_ "/h/output/key") (by decide)
    have gone : (leftBehind (generateGrassOutput example_ "/p".toList none none linked)).node (at_ "/h/output/key") ≠
        linked.node (at_ "/h/output/key") := by decide +kernel
    exact gone kept
  · intro holds
    have check : succeeded (generateGrassOutput example_ "/p".toList (some "/h".toList) none plain) ∧
        (["static".toList,"index.html".toList],[104,111,115,116]) ∈
          (leftBehind (generateGrassOutput example_ "/p".toList (some "/h".toList) none plain)).filesUnder
            (components (outputRootOf "/p".toList)) := by decide +kernel
    cases done : generateGrassOutput example_ "/p".toList (some "/h".toList) none plain with
    | error problem after =>
      rw [done] at check
      cases check.1
    | ok generated after =>
      rw [done] at check
      obtain manifest | digests | ⟨names,found⟩ := holds.2 generated after done _ _ check.2
      · exact absurd manifest (by decide)
      · exact absurd digests (by decide)
      · have other : ∀ entry ∈ plain.nodes, entry.2 = .file [104,111,115,116] → ¬at_ "/p" <+: entry.1 := by decide
        exact other _ ((mem_nodes (List.append_ne_nil_of_left_ne_nil (by decide) names)).mpr found) rfl (List.prefix_append ..)

end GrassWorker.BuildOutput
