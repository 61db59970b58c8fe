import GrassWorker.Foundations.Crashes
import GrassWorker.Node.Manifest

/-! The artifacts that a node keeps for serving: how an archive is staged in the directory of its deployment, step by
step, and which directory is served. -/
namespace GrassWorker.ServeSync
open Files Crashes UnixPath Manifest Contracts

abbrev Text := List Char

def markerFile : Name := ".artifact.json".toList

structure ArtifactMarker where
  deploymentId : Text
  artifactId : Text
  checksumSha256 : Text
  packedSizeBytes : Nat
  unpackedSizeBytes : Nat
deriving DecidableEq

inductive ServeAssignmentStatus
  | pending | syncing | ready | failed
deriving DecidableEq

structure ServeArtifact where
  artifactId : Text
  checksumSha256 : Text
  packedSizeBytes : Nat
  unpackedSizeBytes : Nat

structure ServeAssignment where
  deploymentId : Text
  runtimeKind : String
  status : ServeAssignmentStatus
  artifact : ServeArtifact

def ArtifactMarker.fromAssignment (assignment : ServeAssignment) : ArtifactMarker where
  deploymentId := assignment.deploymentId
  artifactId := assignment.artifact.artifactId
  checksumSha256 := assignment.artifact.checksumSha256
  packedSizeBytes := assignment.artifact.packedSizeBytes
  unpackedSizeBytes := assignment.artifact.unpackedSizeBytes

/-- What unpacking an archive creates, below the directory it is unpacked to. -/
inductive Effect
  | directory (above : Loc) (name : Name)
  | file (above : Loc) (name : Name) (content : Content)

def Effect.step (loc : Loc) : Effect → Step
  | .directory above name => .createDir (loc ++ above) name
  | .file above name content => .write (loc ++ above) name content

/-- The libraries for JSON, TOML and digests, and the unpacking of an archive: what it creates, and the size it reports
in the end. -/
structure Library where
  toJson : ArtifactMarker → Content
  fromJson : Content → Option ArtifactMarker
  sha256 : Content → List UInt8
  parseManifest : Content → Except String OutputManifest
  unpackZip : Content → List Effect × Except String Nat

def hexEncode (bytes : List UInt8) : Text :=
  bytes.flatMap fun byte => [Nat.digitChar (byte.toNat / 16),Nat.digitChar (byte.toNat % 16)]

abbrev View := Loc → Option Files.Node

def View.names (path : Path) : Loc := (components path).filterMap fun component =>
  match component with
  | .normal name => some name
  | _ => none

def View.fileTree (view : View) : FileTree where
  isDir path := view (View.names path) = some .dir
  isFile path := (view (View.names path)).any fun node => match node with
    | .file _ => true
    | _ => false

section Stage
variable (library : Library)

def accepts (assignment : ServeAssignment) (size : Nat) (view : View) : Except String Unit :=
  if assignment.artifact.unpackedSizeBytes ≠ 0 ∧ size ≠ assignment.artifact.unpackedSizeBytes then
    .error ("artifact unpacked size mismatch: expected " ++ toString assignment.artifact.unpackedSizeBytes ++ ", found " ++
      toString size)
  else
    match view ["output.toml".toList] with
    | some (.file content) =>
      match library.parseManifest content with
      | .error error => .error ("invalid output manifest: " ++ error)
      | .ok output =>
        match validateManifest view.fileTree "/".toList output with
        | .error error => .error ("invalid output manifest: " ++ error.message)
        | .ok () =>
          if output.runtime.kind ≠ assignment.runtimeKind then
            .error ("artifact runtime mismatch: expected " ++ assignment.runtimeKind ++ ", found " ++ output.runtime.kind)
          else .ok ()
    | _ => .error "No such file or directory"

def ofExcept {α : Type} : Except String α → Script α
  | .ok value => pure value
  | .error message => throw (.error message)

def verifyArchiveFile (assignment : ServeAssignment) (archive : Content) : Except String Unit :=
  if archive.length ≠ assignment.artifact.packedSizeBytes then
    .error ("artifact packed size mismatch: expected " ++ toString assignment.artifact.packedSizeBytes ++ ", found " ++
      toString archive.length)
  else if hexEncode (library.sha256 archive) ≠ assignment.artifact.checksumSha256 then
    .error ("artifact checksum mismatch: expected " ++ String.ofList assignment.artifact.checksumSha256 ++ ", found " ++
      String.ofList (hexEncode (library.sha256 archive)))
  else .ok ()

/-- The directory of a deployment below the cache root, which is the root of the tree. -/
def deploymentRoot (assignment : ServeAssignment) : Loc := [assignment.deploymentId]

def finalPath (assignment : ServeAssignment) : Loc := deploymentRoot assignment ++ [assignment.artifact.checksumSha256]

/-- A checksum that leads elsewhere than to an entry of the directory is in no marker. -/
def markerAt (tree : FileSystem) (loc : Loc) : Option ArtifactMarker :=
  match tree.node (loc ++ [markerFile]) with
  | some (.file content) => library.fromJson content
  | _ => none

def markerMatches (loc : Loc) (expected : ArtifactMarker) : Script Bool := do
  match ← attempt check with
  | .error _ => return false
  | .ok () => return markerAt library (← get).tree loc = some expected

def ensureDir (above : Loc) (name : Name) : Script Unit := do
  if (← get).tree.node (above ++ [name]) = some .dir then check else change (.createDir above name)

def stagingName (id : Text) : Name := ".staging-".toList ++ id

def downloadName (id : Text) : Name := ".download-".toList ++ id ++ ".zip".toList

def unpackInto (loc : Loc) (archive : Content) : Script Nat := do
  check
  (library.unpackZip archive).1.foldlM (fun _ effect => change (effect.step loc)) ()
  ofExcept (library.unpackZip archive).2

/-- `final_path.exists()`. -/
def exists_ (loc : Loc) : Script Bool := do
  match ← attempt check with
  | .error _ => return false
  | .ok () => return (← get).tree.node loc ≠ none

def inspect (assignment : ServeAssignment) (size : Nat) (staging : Loc) : Script Unit := do
  check
  let world ← get
  ofExcept (accepts library assignment size fun names => world.tree.node (staging ++ names))

def clearFinal (loc : Loc) : Script Unit := do
  if ← exists_ loc then removeAll loc

def stageInto (assignment : ServeAssignment) (archive : Content) (staging : Name) : Script Loc := do
  check
  ofExcept (verifyArchiveFile library assignment archive)
  let size ← unpackInto library (deploymentRoot assignment ++ [staging]) archive
  inspect library assignment size (deploymentRoot assignment ++ [staging])
  change (.write (deploymentRoot assignment ++ [staging]) markerFile (library.toJson (.fromAssignment assignment)))
  clearFinal (finalPath assignment)
  change (.rename (deploymentRoot assignment ++ [staging]) (deploymentRoot assignment) assignment.artifact.checksumSha256)
  return finalPath assignment

def stageArchive (assignment : ServeAssignment) (archive : Content) (id : Text) : Script Loc := do
  if ← markerMatches library (finalPath assignment) (.fromAssignment assignment) then return finalPath assignment
  else
    ensureDir [] assignment.deploymentId
    change (.createDir (deploymentRoot assignment) (stagingName id))
    match ← attempt (stageInto library assignment archive (stagingName id)) with
    | .ok loc => return loc
    | .error message =>
      let _ ← attempt (removeAll (deploymentRoot assignment ++ [stagingName id]))
      throw (.error message)

def cleanupEntry (deployment : Text) (entry : Name × Files.Node) : Script Unit := do
  match entry.2 with
  | .file _ => if ".download-".toList <+: entry.1 then change (.delete [deployment] entry.1)
  | .dir => if ".staging-".toList <+: entry.1 then removeAll [deployment,entry.1]
  | .link _ => return

def cleanupEphemeral (deployment : Text) : Script Unit := do
  check
  let entries := (← get).tree.children [deployment]
  entries.foldlM (fun _ entry => cleanupEntry deployment entry) ()

/-- The parts in which an archive is received, and whether they are all that is received. -/
structure Download where
  parts : List Content
  complete : Bool

def receive (loc : Loc) (name : Name) (content part : Content) : Script Content := do
  change (.write loc name (content ++ part))
  return content ++ part

def receiveAll (assignment : ServeAssignment) (download : Download) (name : Name) : Script Unit := do
  let content ← download.parts.foldlM (receive (deploymentRoot assignment) name) []
  if ¬download.complete then throw (.error "artifact response body failed")
  else ofExcept (verifyArchiveFile library assignment content)

/-- A file is created, which must not exist, and removed again where it does not become the archive. -/
def downloadArtifactTo (assignment : ServeAssignment) (download : Download) (name : Name) : Script Unit := do
  check
  if (← get).tree.node (deploymentRoot assignment ++ [name]) ≠ none then throw (.error "File exists")
  else
    change (.write (deploymentRoot assignment) name [])
    match ← attempt (receiveAll library assignment download name) with
    | .ok () => return
    | .error message =>
      let _ ← attempt (change (.delete (deploymentRoot assignment) name))
      throw (.error message)

def stageDownload (assignment : ServeAssignment) (download : Download) (name : Name) (id : Text) : Script Loc := do
  downloadArtifactTo library assignment download name
  match (← get).tree.node (deploymentRoot assignment ++ [name]) with
  | some (.file archive) => stageArchive library assignment archive id
  | _ => throw (.error "No such file or directory")

def reportStatus : Script Unit := check

def reportWhen (due : Prop) [Decidable due] : Script Unit := if due then reportStatus else pure ()

def reportResult : Except String Loc → Script Unit
  | .ok _ => reportStatus
  | .error message => do
    let _ ← attempt reportStatus
    throw (.error message)

def syncAssignment (assignment : ServeAssignment) (download : Download) (id : Text) : Script Unit := do
  ensureDir [] assignment.deploymentId
  cleanupEphemeral assignment.deploymentId
  if ← markerMatches library (finalPath assignment) (.fromAssignment assignment) then
    reportWhen (assignment.status = .pending ∨ assignment.status = .failed)
    reportWhen (assignment.status ≠ .ready)
  else
    reportWhen (assignment.status ≠ .syncing)
    let result ← attempt (stageDownload library assignment download (downloadName id) id)
    let _ ← attempt (change (.delete (deploymentRoot assignment) (downloadName id)))
    reportResult result

end Stage

/-! What is served. -/

/-- An entry of the directory of a deployment, and whether its marker can be read. -/
structure Listed where
  name : Name
  node : Files.Node
  readable : Bool := true

section Served
variable (library : Library) (tree : FileSystem) (deployment : Text)

def marked (listed : Listed) : Bool :=
  listed.readable && ((markerAt library tree [deployment,listed.name]).any fun marker => marker.deploymentId = deployment)

def stagedArtifactPath : List (Except String Listed) → Except String Loc
  | [] => .error "artifact is not staged locally"
  | .error error :: _ => .error error
  | .ok listed :: rest =>
    if listed.node ≠ .dir ∨ listed.name.head? = some '.' then stagedArtifactPath rest
    else if marked library tree deployment listed then .ok [deployment,listed.name]
    else stagedArtifactPath rest

/-- A directory may list its entries in any order, and fail to at any point. -/
def Lists (listing : List (Except String Listed)) : Prop :=
  ∀ listed, .ok listed ∈ listing → tree.node [deployment,listed.name] = some listed.node

end Served

/-! The runs for one deployment. -/

inductive Job
  | sync (assignment : ServeAssignment) (download : Download) (id : Text)
  | stage (assignment : ServeAssignment) (archive : Content) (id : Text)
  | cleanup (deployment : Text)

def Job.assignment? : Job → Option ServeAssignment
  | .sync assignment _ _ => some assignment
  | .stage assignment _ _ => some assignment
  | .cleanup _ => none

def Job.deployment : Job → Text
  | .sync assignment _ _ => assignment.deploymentId
  | .stage assignment _ _ => assignment.deploymentId
  | .cleanup deployment => deployment

section Jobs
variable (library : Library)

def Job.script : Job → Script Unit
  | .sync assignment download id => syncAssignment library assignment download id
  | .stage assignment archive id => do
    let _ ← stageArchive library assignment archive id
  | .cleanup deployment => cleanupEphemeral deployment

def leftBy (world : Crashes.World) (job : Job) : Crashes.World :=
  match job.script library world with
  | .ok _ after => after
  | .error _ after => after

end Jobs

/-! What a directory holds whose staging has come to its end. -/

def emptyTree : FileSystem where
  nodes := []
  distinct := List.nodup_nil
  placed := fun _ member => by cases member

def unpacked (effects : List Effect) : Option FileSystem := effects.foldlM (fun tree effect => tree.step (effect.step [])) emptyTree

/-- The content of a verified archive that was unpacked to its end, with the marker. -/
def Complete (library : Library) (assignment : ServeAssignment) (view : View) : Prop :=
  ∃ archive size tree, verifyArchiveFile library assignment archive = .ok () ∧ (library.unpackZip archive).2 = .ok size ∧
    unpacked (library.unpackZip archive).1 = some tree ∧ accepts library assignment size tree.node = .ok () ∧
    ∀ names, view names = if names = [markerFile] then some (.file (library.toJson (.fromAssignment assignment))) else tree.node names

def Visible (name : Name) : Prop := name.head? ≠ some '.'

instance (name : Name) : Decidable (Visible name) := inferInstanceAs (Decidable (_ ≠ _))

section Runs
variable (library : Library) (deployment : Text) (assignments : List ServeAssignment)

def entryView (tree : FileSystem) (name : Name) : View := fun names => tree.node (deployment :: name :: names)

def Marked (view : View) : Prop :=
  view [] = some .dir ∧ ∃ content marker, view [markerFile] = some (.file content) ∧ library.fromJson content = some marker ∧
    marker.deploymentId = deployment

def Whole (tree : FileSystem) : Prop :=
  ∀ name, Visible name → Marked library deployment (entryView deployment tree name) →
    ∃ assignment ∈ assignments, Complete library assignment (entryView deployment tree name)

/-- Of a directory that is taken for a staged artifact nothing is deleted before its marker. -/
def MarkerFirst (tree : FileSystem) : Step → Prop
  | .delete above name => ∀ entry names, Visible entry → above ++ [name] = deployment :: entry :: names →
      Marked library deployment (entryView deployment tree entry) → names = [markerFile]
  | _ => True

variable {library deployment assignments} {tree next : FileSystem} {above : Loc} {name entry staging : Name} {names : List Name}

theorem whole_of_same (same : ∀ entry names, Visible entry → next.node (deployment :: entry :: names) = tree.node (deployment :: entry :: names))
    (whole : Whole library deployment assignments tree) : Whole library deployment assignments next := by
  intro entry visible
  have unchanged : entryView deployment next entry = entryView deployment tree entry := funext fun names => same entry names visible
  rw [unchanged]
  exact whole entry visible

def Hidden (deployment : Text) (step : Step) : Prop := ∀ entry names, Visible entry → step.Away (deployment :: entry :: names)

theorem whole_of_hidden {step : Step} (hidden : Hidden deployment step) (done : tree.step step = some next)
    (whole : Whole library deployment assignments tree) : Whole library deployment assignments next :=
  whole_of_same (fun entry names visible => step_frame done (hidden entry names visible)) whole

theorem entry_ne (hidden : ¬Visible staging) (visible : Visible entry) : entry ≠ staging := fun same => hidden (same ▸ visible)

theorem place_ne (hidden : ¬Visible staging) (below : [deployment,staging] <+: above ++ [name]) (visible : Visible entry) :
    deployment :: entry :: names ≠ above ++ [name] := by
  obtain ⟨rest,same⟩ := below
  rw [← same]
  intro equal
  have second := (List.cons.inj (List.cons.inj equal).2).1
  exact entry_ne hidden visible second

theorem not_visible_of_start {start : Name} (dotted : start.head? = some '.') (named : start <+: name) : ¬Visible name := by
  obtain ⟨rest,rfl⟩ := named
  cases start with
  | nil => cases dotted
  | cons first start => exact fun visible => visible dotted

theorem whole_of_delete (below : [deployment,entry] <+: above ++ [name]) (first : MarkerFirst library deployment tree (.delete above name))
    (done : tree.step (.delete above name) = some next) (whole : Whole library deployment assignments tree) :
    Whole library deployment assignments next := by
  obtain ⟨rest,place⟩ := below
  have changed := step_delete done
  rw [← place] at changed
  intro other visible isMarked
  by_cases same : other = entry
  · subst same
    obtain ⟨isDir,content,marker,there,read,own⟩ := isMarked
    have kept : ∀ names node, next.node (deployment :: other :: names) = some node →
        tree.node (deployment :: other :: names) = some node := by
      intro names node found
      rw [changed] at found
      split at found
      · cases found
      · exact found
    have before : Marked library deployment (entryView deployment tree other) :=
      ⟨kept _ _ isDir,content,marker,kept _ _ there,read,own⟩
    have marker_gone := first other rest visible place.symm before
    subst marker_gone
    have gone : next.node [deployment,other,markerFile] = none := (changed _).trans (if_pos rfl)
    rw [entryView,gone] at there
    cases there
  · have unchanged : entryView deployment next other = entryView deployment tree other := by
      funext names
      rw [entryView,changed,if_neg]
      · rfl
      · intro equal
        exact same (List.cons.inj (List.cons.inj equal).2).1
    rw [unchanged] at isMarked ⊢
    exact whole other visible isMarked

/-! What each script keeps. -/

def Keeps (library : Library) (deployment : Text) (assignments : List ServeAssignment) {α : Type} (script : Script α) : Prop :=
  Carries (MarkerFirst library deployment) (Whole library deployment assignments) (Whole library deployment assignments) script
    (fun _ => Whole library deployment assignments) (Whole library deployment assignments)

section Keeps
variable {α β : Type}

theorem Keeps.bind {first : Script α} {following : α → Script β} (starts : Keeps library deployment assignments first)
    (continues : ∀ value, Keeps library deployment assignments (following value)) :
    Keeps library deployment assignments (first >>= following) := Carries.bind starts continues

theorem Keeps.pure (value : α) : Keeps library deployment assignments (Pure.pure value) := Carries.pure fun _ held => held

theorem Keeps.throw (message : String) : Keeps library deployment assignments (MonadExcept.throw (Halt.error message) : Script α) :=
  Carries.throw fun _ held => held

theorem Keeps.look {following : Crashes.World → Script α} (continues : ∀ world, Keeps library deployment assignments (following world)) :
    Keeps library deployment assignments (get >>= following) :=
  Carries.look fun world => (continues world).mono (fun _ held => held.1) (fun _ _ held => held) fun _ held => held

theorem Keeps.ite {condition : Prop} [Decidable condition] {first second : Script α} (yes : Keeps library deployment assignments first)
    (no : Keeps library deployment assignments second) :
    Keeps library deployment assignments (if condition then first else second) := Carries.ite (fun _ => yes) fun _ => no

theorem keeps_check : Keeps library deployment assignments check := Carries.check (fun _ held => held) fun _ held => held

theorem Keeps.attempt {script : Script α} (keeps : Keeps library deployment assignments script) :
    Keeps library deployment assignments (Crashes.attempt script) :=
  (Carries.attempt keeps).mono (fun _ held => held) (fun result _ held => by cases result <;> exact held) fun _ held => held

theorem keeps_change {step : Step} (hidden : Hidden deployment step) : Keeps library deployment assignments (change step) :=
  Carries.change (fun _ held => held) (fun _ held => held) fun _ _ held _ done => whole_of_hidden hidden done held

theorem Keeps.foldlM {item : Type} {round : β → item → Script β} (kept : ∀ value following, Keeps library deployment assignments (round value following))
    (value : β) (items : List item) : Keeps library deployment assignments (items.foldlM round value) :=
  Carries.foldlM (fun _ _ => Whole library deployment assignments) (fun _ value following => kept value following) [] items value

theorem keeps_ofExcept (result : Except String α) : Keeps library deployment assignments (ofExcept result) := by
  cases result with
  | ok value => exact .pure value
  | error message => exact .throw message

theorem keeps_removeAll (loc : Loc) (rooted : ∃ entry, [deployment,entry] <+: loc) :
    Keeps library deployment assignments (removeAll loc) := by
  obtain ⟨entry,rooted⟩ := rooted
  exact removeAll_carries (fun _ held => held) fun tree next above name within held first done =>
    whole_of_delete (rooted.trans within) first done held

theorem keeps_markerMatches (loc : Loc) (expected : ArtifactMarker) : Keeps library deployment assignments (markerMatches library loc expected) := by
  refine keeps_check.attempt.bind fun result => ?_
  cases result with
  | error message => exact .pure _
  | ok value => exact .look fun world => .pure _

theorem keeps_ensureDir : Keeps library deployment assignments (ensureDir [] deployment) := by
  refine .look fun world => .ite keeps_check (keeps_change ?_)
  intro entry names visible same
  have second := (List.cons.inj same).2
  cases second

theorem keeps_cleanupEntry (entry : Name × Files.Node) : Keeps library deployment assignments (cleanupEntry deployment entry) := by
  obtain ⟨name,node⟩ := entry
  cases node with
  | file content =>
    simp only [cleanupEntry]
    split
    · rename_i named
      refine keeps_change fun entry names visible => ?_
      exact place_ne (not_visible_of_start rfl named) (List.prefix_refl _) visible
    · exact .pure ()
  | dir => exact .ite (keeps_removeAll _ ⟨name,List.prefix_refl _⟩) (.pure ())
  | link target => exact .pure ()

theorem keeps_cleanupEphemeral : Keeps library deployment assignments (cleanupEphemeral deployment) :=
  keeps_check.bind fun _ => .look fun _ => .foldlM (fun _ entry => keeps_cleanupEntry entry) () _

/-! The staging of one archive. -/

section Staging
variable {assignment : ServeAssignment} {view : View}

def Staged (library : Library) (deployment : Text) (assignments : List ServeAssignment) (staging : Name) (view : View)
    (tree : FileSystem) : Prop := Whole library deployment assignments tree ∧ entryView deployment tree staging = view

theorem step_unpacked {effect : Effect} {small : FileSystem} (seen : entryView deployment tree staging = small.node)
    (done : tree.step (effect.step [deployment,staging]) = some next) :
    ∃ after, small.step (effect.step []) = some after ∧ entryView deployment next staging = after.node := by
  have agree : ∀ names, small.node names = tree.node ([deployment,staging] ++ names) := fun names => by rw [← seen]; rfl
  have apart : ∀ (above : Loc) (name : Name) (names : Loc),
      [deployment,staging] ++ names = [deployment,staging] ++ above ++ [name] ↔ names = above ++ [name] := by
    intro above name names
    rw [List.append_assoc,List.append_cancel_left_eq]
  cases effect with
  | directory above name =>
    obtain ⟨⟨inside,valid,vacant⟩,changed⟩ := step_createDir done
    rw [List.append_assoc,← agree] at vacant
    rw [← agree] at inside
    refine ⟨small.put above name .dir inside valid (by simp [vacant]),dif_pos ⟨inside,valid,vacant⟩,?_⟩
    funext names
    rw [FileSystem.node_put,agree]
    refine (changed ([deployment,staging] ++ names)).trans ?_
    simp only [apart]
  | file above name content =>
    obtain ⟨⟨inside,valid,vacant⟩,changed⟩ := step_write done
    rw [List.append_assoc,← agree] at vacant
    rw [← agree] at inside
    refine ⟨small.put above name (.file content) inside valid vacant,dif_pos ⟨inside,valid,vacant⟩,?_⟩
    funext names
    rw [FileSystem.node_put,agree]
    refine (changed ([deployment,staging] ++ names)).trans ?_
    simp only [apart]

theorem hidden_effect (hidden : ¬Visible staging) (effect : Effect) : Hidden deployment (effect.step [deployment,staging]) := by
  intro entry names visible
  cases effect with
  | directory above name => exact place_ne hidden (List.prefix_append ..) visible
  | file above name content => exact place_ne hidden (List.prefix_append ..) visible

theorem unpacked_snoc (seen : List Effect) (effect : Effect) :
    unpacked (seen ++ [effect]) = (unpacked seen).bind fun tree => tree.step (effect.step []) := by
  rw [unpacked,List.foldlM_append]
  simp [unpacked]

theorem unpackInto_carries (hidden : ¬Visible staging) (archive : Content) :
    Carries (MarkerFirst library deployment) (Whole library deployment assignments)
      (Staged library deployment assignments staging emptyTree.node) (unpackInto library [deployment,staging] archive)
      (fun size tree => (library.unpackZip archive).2 = .ok size ∧ ∃ small, unpacked (library.unpackZip archive).1 = some small ∧
        Staged library deployment assignments staging small.node tree) (Whole library deployment assignments) := by
  let holds : List Effect → Unit → FileSystem → Prop := fun seen _ tree =>
    ∃ small, unpacked seen = some small ∧ Staged library deployment assignments staging small.node tree
  have round : ∀ seen value effect, Carries (MarkerFirst library deployment) (Whole library deployment assignments)
      (holds seen value) (change (effect.step [deployment,staging])) (holds (seen ++ [effect])) (Whole library deployment assignments) := by
    intro seen value effect
    have weaker : ∀ tree, holds seen value tree → Whole library deployment assignments tree := fun tree held => by
      obtain ⟨small,_,whole,_⟩ := held
      exact whole
    refine .change weaker weaker fun tree next held _ done => ?_
    obtain ⟨small,made,whole,same⟩ := held
    obtain ⟨after,stepped,same'⟩ := step_unpacked same done
    refine ⟨after,?_,whole_of_hidden (hidden_effect hidden effect) done whole,same'⟩
    rw [unpacked_snoc,made]
    exact stepped
  refine (Carries.check (fun _ held => held.1) fun _ held => held.1).bind fun _ => ?_
  refine Carries.bind (M := holds ([] ++ (library.unpackZip archive).1)) ?_ fun value => ?_
  · exact (Carries.foldlM holds round [] _ ()).mono (fun tree held => ⟨emptyTree,rfl,held⟩) (fun _ _ held => held) fun _ held => held
  · cases (library.unpackZip archive).2 with
    | ok size => exact .pure fun tree held => ⟨rfl,held⟩
    | error message =>
      refine .throw fun tree held => ?_
      obtain ⟨small,_,whole,_⟩ := held
      exact whole

theorem visible_hexEncode (bytes : List UInt8) : Visible (hexEncode bytes) := by
  cases bytes with
  | nil => simp [Visible,hexEncode]
  | cons byte bytes =>
    have digits : ∀ n < 16, Nat.digitChar n ≠ '.' := by decide
    have small : byte.toNat / 16 < 16 := by
      have bound := byte.toNat_lt
      omega
    simp [Visible,hexEncode,digits _ small]

theorem visible_of_verified {archive : Content} (verified : verifyArchiveFile library assignment archive = .ok ()) :
    Visible assignment.artifact.checksumSha256 := by
  unfold verifyArchiveFile at verified
  split at verified
  · cases verified
  · split at verified
    · cases verified
    · rename_i same
      rw [← not_not.mp same]
      exact visible_hexEncode _

theorem staged_marker {content : Content} (hidden : ¬Visible staging) (staged : Staged library deployment assignments staging view tree)
    (done : tree.step (.write [deployment,staging] markerFile content) = some next) :
    Staged library deployment assignments staging (fun names => if names = [markerFile] then some (.file content) else view names) next := by
  obtain ⟨whole,same⟩ := staged
  have away : Hidden deployment (.write [deployment,staging] markerFile content) := fun entry names visible =>
    place_ne hidden (List.prefix_append ..) visible
  refine ⟨whole_of_hidden away done whole,?_⟩
  funext names
  refine ((step_write done).2 ([deployment,staging] ++ names)).trans ?_
  simp only [List.append_cancel_left_eq]
  split
  · rfl
  · rw [← same]
    rfl

theorem staged_delete {entry : Name} (hidden : ¬Visible staging) (visible : Visible entry)
    (within : [deployment,entry] <+: above ++ [name]) (first : MarkerFirst library deployment tree (.delete above name))
    (done : tree.step (.delete above name) = some next) (staged : Staged library deployment assignments staging view tree) :
    Staged library deployment assignments staging view next := by
  refine ⟨whole_of_delete within first done staged.1,?_⟩
  rw [← staged.2]
  funext names
  refine step_frame done fun same => ?_
  obtain ⟨rest,place⟩ := within
  rw [← place] at same
  exact entry_ne hidden visible (List.cons.inj (List.cons.inj same).2).1.symm

theorem whole_of_rename {entry : Name} (hidden : ¬Visible staging) (member : assignment ∈ assignments)
    (complete : Complete library assignment view) (staged : Staged library deployment assignments staging view tree)
    (visible : Visible entry) (done : tree.step (.rename [deployment,staging] [deployment] entry) = some next) :
    Whole library deployment assignments next := by
  obtain ⟨whole,same⟩ := staged
  intro other shown isMarked
  by_cases own : other = entry
  · subst own
    refine ⟨assignment,member,?_⟩
    have moved : entryView deployment next other = view := by
      rw [← same]
      funext names
      refine step_rename names done ?_
      rintro ⟨rest,place⟩
      exact entry_ne hidden visible (List.cons.inj (List.cons.inj place).2).1
    rw [moved]
    exact complete
  · have unchanged : entryView deployment next other = entryView deployment tree other := by
      funext names
      refine step_frame done ⟨?_,?_⟩
      · rintro ⟨rest,place⟩
        exact entry_ne hidden shown (List.cons.inj (List.cons.inj place).2).1.symm
      · rintro ⟨rest,place⟩
        exact own (List.cons.inj (List.cons.inj place).2).1.symm
    rw [unchanged] at isMarked ⊢
    exact whole other shown isMarked

def Ready (library : Library) (assignments : List ServeAssignment) (assignment : ServeAssignment) (staging : Name) (tree : FileSystem) : Prop :=
  ∃ view, Complete library assignment view ∧ Staged library assignment.deploymentId assignments staging view tree

theorem ready_whole (ready : Ready library assignments assignment staging tree) :
    Whole library assignment.deploymentId assignments tree := by
  obtain ⟨_,_,staged⟩ := ready
  exact staged.1

theorem ready_exists (loc : Loc) :
    Carries (MarkerFirst library assignment.deploymentId) (Whole library assignment.deploymentId assignments)
      (Ready library assignments assignment staging) (exists_ loc) (fun _ => Ready library assignments assignment staging)
      (Whole library assignment.deploymentId assignments) := by
  have attempted : Carries (MarkerFirst library assignment.deploymentId) (Whole library assignment.deploymentId assignments)
      (Ready library assignments assignment staging) (attempt check) (fun _ => Ready library assignments assignment staging)
      (Whole library assignment.deploymentId assignments) :=
    (Carries.attempt (Carries.check (fun _ held => held) fun _ => ready_whole)).mono (fun _ held => held)
      (fun result _ held => by cases result <;> exact held) fun _ => ready_whole
  refine attempted.bind fun result => ?_
  cases result with
  | error message => exact .pure fun _ held => held
  | ok value => exact .look fun world => .pure fun _ held => held.1

theorem ready_clearFinal {entry : Name} (hidden : ¬Visible staging) (visible : Visible entry) :
    Carries (MarkerFirst library assignment.deploymentId) (Whole library assignment.deploymentId assignments)
      (Ready library assignments assignment staging) (clearFinal [assignment.deploymentId,entry])
      (fun _ => Ready library assignments assignment staging) (Whole library assignment.deploymentId assignments) := by
  refine (ready_exists _).bind fun found => ?_
  cases found with
  | false => exact .pure fun _ held => held
  | true =>
    refine (removeAll_carries (fun _ => ready_whole) fun tree next above name within held first done => ?_).mono
      (fun _ held => held) (fun _ _ held => held) fun _ => ready_whole
    obtain ⟨view,complete,staged⟩ := held
    exact ⟨view,complete,staged_delete hidden visible within first done staged⟩

def Unpacked (library : Library) (assignments : List ServeAssignment) (assignment : ServeAssignment) (archive : Content) (size : Nat)
    (staging : Name) (tree : FileSystem) : Prop :=
  (library.unpackZip archive).2 = .ok size ∧ ∃ small, unpacked (library.unpackZip archive).1 = some small ∧
    Staged library assignment.deploymentId assignments staging small.node tree

def Inspected (library : Library) (assignments : List ServeAssignment) (assignment : ServeAssignment) (archive : Content) (size : Nat)
    (staging : Name) (tree : FileSystem) : Prop :=
  (library.unpackZip archive).2 = .ok size ∧ ∃ small, unpacked (library.unpackZip archive).1 = some small ∧
    accepts library assignment size small.node = .ok () ∧
    Staged library assignment.deploymentId assignments staging small.node tree

theorem unpacked_whole {archive : Content} {size : Nat} (held : Unpacked library assignments assignment archive size staging tree) :
    Whole library assignment.deploymentId assignments tree := by
  obtain ⟨_,_,_,staged⟩ := held
  exact staged.1

theorem inspected_whole {archive : Content} {size : Nat} (held : Inspected library assignments assignment archive size staging tree) :
    Whole library assignment.deploymentId assignments tree := by
  obtain ⟨_,_,_,_,staged⟩ := held
  exact staged.1

theorem inspect_carries (archive : Content) {size : Nat} :
    Carries (MarkerFirst library assignment.deploymentId) (Whole library assignment.deploymentId assignments)
      (Unpacked library assignments assignment archive size staging)
      (inspect library assignment size [assignment.deploymentId,staging])
      (fun _ => Inspected library assignments assignment archive size staging) (Whole library assignment.deploymentId assignments) := by
  refine (Carries.check (fun _ => unpacked_whole) fun _ => unpacked_whole).bind fun _ => .look fun world => ?_
  cases accepted : accepts library assignment size (fun names => world.tree.node ([assignment.deploymentId,staging] ++ names)) with
  | error message => exact .throw fun _ held => unpacked_whole held.1
  | ok value =>
    refine .pure ?_
    rintro tree ⟨⟨reported,small,made,staged⟩,rfl⟩
    have same : (fun names => world.tree.node ([assignment.deploymentId,staging] ++ names)) = small.node := staged.2
    rw [same] at accepted
    exact ⟨reported,small,made,accepted,staged⟩

theorem stageInto_carries (hidden : ¬Visible staging) (member : assignment ∈ assignments) (archive : Content) :
    Carries (MarkerFirst library assignment.deploymentId) (Whole library assignment.deploymentId assignments)
      (Staged library assignment.deploymentId assignments staging emptyTree.node) (stageInto library assignment archive staging)
      (fun _ => Whole library assignment.deploymentId assignments) (Whole library assignment.deploymentId assignments) := by
  refine (Carries.check (fun _ held => held.1) fun _ held => held.1).bind fun _ => ?_
  cases verified : verifyArchiveFile library assignment archive with
  | error message => exact .throw fun _ held => held.1
  | ok value =>
    have visible : Visible assignment.artifact.checksumSha256 := visible_of_verified verified
    refine (unpackInto_carries hidden archive).bind fun size => (inspect_carries archive).bind fun _ => ?_
    refine Carries.bind (M := fun _ => Ready library assignments assignment staging) ?_ fun _ => ?_
    · refine .change (fun _ => inspected_whole) (fun _ => inspected_whole) fun tree next held _ done => ?_
      obtain ⟨reported,small,made,accepted,staged⟩ := held
      exact ⟨_,⟨archive,size,small,verified,reported,made,accepted,fun _ => rfl⟩,staged_marker hidden staged done⟩
    refine (ready_clearFinal hidden visible).bind fun _ => ?_
    refine Carries.bind (M := fun _ => Whole library assignment.deploymentId assignments) ?_ fun _ => .pure fun _ held => held
    refine .change (fun _ => ready_whole) (fun _ => ready_whole) fun tree next held _ done => ?_
    obtain ⟨view,complete,staged⟩ := held
    exact whole_of_rename hidden member complete staged visible done

theorem staged_created (hidden : ¬Visible staging) (done : tree.step (.createDir [deployment] staging) = some next)
    (whole : Whole library deployment assignments tree) : Staged library deployment assignments staging emptyTree.node next := by
  have away : Hidden deployment (.createDir [deployment] staging) := fun entry names visible =>
    place_ne hidden (List.prefix_refl _) visible
  obtain ⟨⟨_,_,vacant⟩,changed⟩ := step_createDir done
  refine ⟨whole_of_hidden away done whole,?_⟩
  funext names
  rw [entryView,changed]
  cases names with
  | nil => exact if_pos rfl
  | cons first rest =>
    rw [if_neg (by simp)]
    exact FileSystem.node_below_vacant (first :: rest) vacant

end Staging

theorem hidden_stagingName (id : Text) : ¬Visible (stagingName id) := fun visible => visible rfl

theorem hidden_downloadName (id : Text) : ¬Visible (downloadName id) := fun visible => visible rfl

section Jobs
variable {assignment : ServeAssignment}

theorem keeps_stageArchive (member : assignment ∈ assignments) (archive : Content) (id : Text) :
    Keeps library assignment.deploymentId assignments (stageArchive library assignment archive id) := by
  refine (keeps_markerMatches _ _).bind fun found => .ite (.pure _) (keeps_ensureDir.bind fun _ => ?_)
  have created : Carries (MarkerFirst library assignment.deploymentId) (Whole library assignment.deploymentId assignments)
      (Whole library assignment.deploymentId assignments) (change (.createDir [assignment.deploymentId] (stagingName id)))
      (fun _ => Staged library assignment.deploymentId assignments (stagingName id) emptyTree.node)
      (Whole library assignment.deploymentId assignments) :=
    .change (fun _ held => held) (fun _ held => held) fun tree next held _ done => staged_created (hidden_stagingName id) done held
  refine created.bind fun _ => (Carries.attempt (stageInto_carries (hidden_stagingName id) member archive)).bind fun result => ?_
  cases result with
  | ok loc => exact Keeps.pure loc
  | error message =>
    exact (keeps_removeAll [assignment.deploymentId,stagingName id] ⟨_,List.prefix_refl _⟩).attempt.bind fun _ => .throw message

theorem keeps_download {content : Content} (id : Text) :
    Keeps library assignment.deploymentId assignments (change (.write [assignment.deploymentId] (downloadName id) content)) :=
  keeps_change fun _ _ visible => place_ne (hidden_downloadName id) (List.prefix_refl _) visible

theorem keeps_delete_download (id : Text) :
    Keeps library assignment.deploymentId assignments (change (.delete [assignment.deploymentId] (downloadName id))) :=
  keeps_change fun _ _ visible => place_ne (hidden_downloadName id) (List.prefix_refl _) visible

theorem keeps_downloadArtifactTo (download : Download) (id : Text) :
    Keeps library assignment.deploymentId assignments (downloadArtifactTo library assignment download (downloadName id)) := by
  refine keeps_check.bind fun _ => .look fun world => .ite (.throw _) ((keeps_download id).bind fun _ => ?_)
  have received : Keeps library assignment.deploymentId assignments (receiveAll library assignment download (downloadName id)) := by
    refine (Keeps.foldlM (fun content part => (keeps_download id).bind fun _ => .pure _) _ _).bind fun content => ?_
    exact .ite (.throw _) (keeps_ofExcept _)
  refine received.attempt.bind fun result => ?_
  cases result with
  | ok value => exact .pure ()
  | error message => exact (keeps_delete_download id).attempt.bind fun _ => .throw message

theorem keeps_stageDownload (member : assignment ∈ assignments) (download : Download) (id : Text) :
    Keeps library assignment.deploymentId assignments (stageDownload library assignment download (downloadName id) id) := by
  refine (keeps_downloadArtifactTo download id).bind fun _ => .look fun world => ?_
  split
  · exact keeps_stageArchive member _ id
  · exact .throw _

theorem keeps_reportWhen (due : Prop) [Decidable due] : Keeps library deployment assignments (reportWhen due) :=
  .ite keeps_check (.pure ())

theorem keeps_reportResult (result : Except String Loc) : Keeps library deployment assignments (reportResult result) := by
  cases result with
  | ok loc => exact keeps_check
  | error message => exact keeps_check.attempt.bind fun _ => .throw message

theorem keeps_syncAssignment (member : assignment ∈ assignments) (download : Download) (id : Text) :
    Keeps library assignment.deploymentId assignments (syncAssignment library assignment download id) := by
  refine keeps_ensureDir.bind fun _ => keeps_cleanupEphemeral.bind fun _ => (keeps_markerMatches _ _).bind fun found => .ite ?_ ?_
  · exact (keeps_reportWhen _).bind fun _ => keeps_reportWhen _
  · refine (keeps_reportWhen _).bind fun _ => (keeps_stageDownload member download id).attempt.bind fun result => ?_
    exact (keeps_delete_download id).attempt.bind fun _ => keeps_reportResult result

theorem keeps_job (job : Job) (own : job.deployment = deployment) (members : ∀ assignment, job.assignment? = some assignment → assignment ∈ assignments) :
    Keeps library deployment assignments (job.script library) := by
  subst own
  cases job with
  | sync assignment download id => exact keeps_syncAssignment (members assignment rfl) download id
  | stage assignment archive id => exact (keeps_stageArchive (members assignment rfl) archive id).bind fun _ => .pure ()
  | cleanup deployment => exact keeps_cleanupEphemeral

end Jobs

end Keeps

/-! The reader. -/

theorem marked_of_listed {listed : Listed} (there : tree.node [deployment,listed.name] = some .dir)
    (found : marked library tree deployment listed) : Marked library deployment (entryView deployment tree listed.name) := by
  simp only [marked,Bool.and_eq_true,Option.any_eq_true] at found
  obtain ⟨_,marker,at_,own⟩ := found
  refine ⟨there,?_⟩
  unfold markerAt at at_
  split at at_
  · rename_i content held
    exact ⟨content,marker,held,at_,of_decide_eq_true own⟩
  · cases at_

theorem marked_of_staged {listing : List (Except String Listed)} {path : Loc} (lists : Lists tree deployment listing)
    (found : stagedArtifactPath library tree deployment listing = .ok path) :
    ∃ name, path = [deployment,name] ∧ Visible name ∧ Marked library deployment (entryView deployment tree name) := by
  induction listing with
  | nil => cases found
  | cons first rest ih =>
    have later : Lists tree deployment rest := fun listed member => lists listed (List.mem_cons_of_mem _ member)
    cases first with
    | error error => cases found
    | ok listed =>
      simp only [stagedArtifactPath] at found
      split at found
      · exact ih later found
      · rename_i shown
        rw [not_or,not_not] at shown
        split at found
        · rename_i isMarked
          cases found
          have there := lists listed (List.mem_cons_self ..)
          rw [shown.1] at there
          exact ⟨listed.name,rfl,shown.2,marked_of_listed there isMarked⟩
        · exact ih later found

end Runs

def run (library : Library) (start : FileSystem) (jobs : List Job) (fates : List Fate) : Crashes.World :=
  jobs.foldl (leftBy library) { tree := start, fates }

section Run
variable {library : Library} {deployment : Text} {assignments : List ServeAssignment}

theorem leftBy_held {world : Crashes.World} {job : Job} (own : job.deployment = deployment)
    (members : ∀ assignment, job.assignment? = some assignment → assignment ∈ assignments)
    (held : Held (MarkerFirst library deployment) (Whole library deployment assignments) (Whole library deployment assignments) world) :
    Held (MarkerFirst library deployment) (Whole library deployment assignments) (Whole library deployment assignments)
      (leftBy library world job) := by
  have kept := keeps_job job own members world held
  unfold leftBy
  cases outcome : job.script library world with
  | ok value after =>
    rw [outcome] at kept
    exact kept
  | error halt after =>
    rw [outcome] at kept
    cases halt with
    | error message => exact kept
    | crash => exact kept

theorem run_held {world : Crashes.World} (jobs : List Job) (own : ∀ job ∈ jobs, job.deployment = deployment)
    (members : ∀ job ∈ jobs, ∀ assignment, job.assignment? = some assignment → assignment ∈ assignments)
    (held : Held (MarkerFirst library deployment) (Whole library deployment assignments) (Whole library deployment assignments) world) :
    Held (MarkerFirst library deployment) (Whole library deployment assignments) (Whole library deployment assignments)
      (jobs.foldl (leftBy library) world) := by
  induction jobs generalizing world with
  | nil => exact held
  | cons job jobs ih =>
    obtain ⟨own_job,own_rest⟩ := List.forall_mem_cons.mp own
    obtain ⟨member,rest⟩ := List.forall_mem_cons.mp members
    exact ih own_rest rest (leftBy_held own_job member held)

end Run

/-- As long as nothing is deleted of a staged artifact before its marker, whatever is served is complete. -/
theorem staged_artifacts_complete (library : Library) (deployment : Text) (start : FileSystem) (absent : start.node [deployment] = none)
    (jobs : List Job) (own : ∀ job ∈ jobs, job.deployment = deployment) (fates : List Fate)
    (markerFirst : ∀ entry ∈ (run library start jobs fates).log, MarkerFirst library deployment entry.1 entry.2) :
    ∀ tree ∈ (run library start jobs fates).trees, ∀ listing path, Lists tree deployment listing →
      stagedArtifactPath library tree deployment listing = .ok path →
      ∃ assignment ∈ jobs.filterMap Job.assignment?, Complete library assignment fun names => tree.node (path ++ names) := by
  have starts : Held (MarkerFirst library deployment) (Whole library deployment (jobs.filterMap Job.assignment?))
      (Whole library deployment (jobs.filterMap Job.assignment?)) { tree := start, fates } := by
    refine fun _ => ⟨?_,by simp⟩
    intro name _ isMarked
    have nothing := FileSystem.node_below_vacant [name] absent
    have isDir := isMarked.1
    change start.node [deployment,name] = none at nothing
    rw [entryView,nothing] at isDir
    cases isDir
  have members : ∀ job ∈ jobs, ∀ assignment, job.assignment? = some assignment → assignment ∈ jobs.filterMap Job.assignment? :=
    fun job member assignment assigned => List.mem_filterMap.mpr ⟨job,member,assigned⟩
  obtain ⟨last,earlier⟩ := run_held jobs own members starts markerFirst
  intro tree member listing path lists found
  have whole : Whole library deployment (jobs.filterMap Job.assignment?) tree := by
    obtain rfl | older := List.mem_cons.mp member
    · exact last
    · obtain ⟨entry,logged,rfl⟩ := List.mem_map.mp older
      exact earlier entry logged
  obtain ⟨name,rfl,visible,isMarked⟩ := marked_of_staged lists found
  exact whole name visible isMarked

/-! A site with one page, staged twice. -/

def ascii (text : Text) : Content := text.map fun c => UInt8.ofNat c.toNat

def siteManifest : Content := ascii "version=1\nruntime.kind=\"static\"\nstatic.directory=\"s\"\n".toList

def siteArchive : Content :=
  [80,75,3,4,20,0,0,0,0,0,0,0,33,0,133,211,235,55,53,0,0,0,53,0,0,0,11,0,0,0,111,117,116,112,117,116,46,116,111,109,108,118,
    101,114,115,105,111,110,61,49,10,114,117,110,116,105,109,101,46,107,105,110,100,61,34,115,116,97,116,105,99,34,10,115,
    116,97,116,105,99,46,100,105,114,101,99,116,111,114,121,61,34,115,34,10,80,75,3,4,20,0,0,0,0,0,0,0,33,0,131,22,220,140,
    1,0,0,0,1,0,0,0,12,0,0,0,115,47,105,110,100,101,120,46,104,116,109,108,120,80,75,1,2,20,3,20,0,0,0,0,0,0,0,33,0,133,211,
    235,55,53,0,0,0,53,0,0,0,11,0,0,0,0,0,0,0,0,0,0,0,164,129,0,0,0,0,111,117,116,112,117,116,46,116,111,109,108,80,75,1,2,
    20,3,20,0,0,0,0,0,0,0,33,0,131,22,220,140,1,0,0,0,1,0,0,0,12,0,0,0,0,0,0,0,0,0,0,0,164,129,94,0,0,0,115,47,105,110,100,
    101,120,46,104,116,109,108,80,75,5,6,0,0,0,0,2,0,2,0,115,0,0,0,137,0,0,0,0,0]

def siteDigest : List UInt8 :=
  [5,115,115,161,228,198,188,74,6,52,124,196,76,196,156,185,215,127,63,80,97,1,76,214,74,19,196,87,28,192,251,33]

def siteAssignment (artifact : String) : ServeAssignment where
  deploymentId := "d".toList
  runtimeKind := "static"
  status := .pending
  artifact := {
    artifactId := artifact.toList
    checksumSha256 := hexEncode siteDigest
    packedSizeBytes := 274
    unpackedSizeBytes := 54 }

def markerJson (marker : ArtifactMarker) : Content := ascii
  ("\x7b\"deployment_id\":\"".toList ++ marker.deploymentId ++ "\",\"artifact_id\":\"".toList ++ marker.artifactId ++
    "\",\"checksum_sha256\":\"".toList ++ marker.checksumSha256 ++ "\",\"packed_size_bytes\":".toList ++
    Nat.toDigits 10 marker.packedSizeBytes ++ ",\"unpacked_size_bytes\":".toList ++ Nat.toDigits 10 marker.unpackedSizeBytes ++
    "\x7d".toList)

def siteLibrary : Library where
  toJson := markerJson
  fromJson content := ["a","b"].map (fun artifact => ArtifactMarker.fromAssignment (siteAssignment artifact)) |>.find? fun marker =>
    markerJson marker = content
  sha256 content := if content = siteArchive then siteDigest else []
  parseManifest content :=
    if content = siteManifest then .ok { version := 1, runtime := ⟨"static"⟩, staticSite := some { directory := "s" } }
    else .error "TOML parse error"
  unpackZip content :=
    if content = siteArchive then
      ([.file [] "output.toml".toList siteManifest,.directory [] "s".toList,.file ["s".toList] "index.html".toList [120]],.ok 54)
    else ([],.error "invalid Zip archive")


def replaced : List Job := [.stage (siteAssignment "a") siteArchive "1".toList,.stage (siteAssignment "b") siteArchive "2".toList]

def replacing : List Fate := List.replicate 24 ⟨.proceeds,0⟩ ++ [{ pick := 1 },{ outcome := .crashes }]

def sitePath : Loc := ["d".toList,hexEncode siteDigest]

theorem verified_site {assignment : ServeAssignment} {archive : Content} (own : assignment.artifact.checksumSha256 = hexEncode siteDigest)
    (verified : verifyArchiveFile siteLibrary assignment archive = .ok ()) : archive = siteArchive := by
  by_contra other
  have digest : siteLibrary.sha256 archive = [] := if_neg other
  unfold verifyArchiveFile at verified
  split at verified
  · cases verified
  · rw [digest,own] at verified
    cases verified

theorem served_site_is_whole :
    ∃ assignment ∈ [siteAssignment "a"], Complete siteLibrary assignment fun names =>
      (run siteLibrary emptyTree [.stage (siteAssignment "a") siteArchive "1".toList] []).tree.node (sitePath ++ names) := by
  have undeleted : (run siteLibrary emptyTree [.stage (siteAssignment "a") siteArchive "1".toList] []).log.all (fun entry =>
      match entry.2 with
      | .delete _ _ => false
      | _ => true) := by decide +kernel
  have found : stagedArtifactPath siteLibrary (run siteLibrary emptyTree [.stage (siteAssignment "a") siteArchive "1".toList] []).tree
      "d".toList [.ok ⟨hexEncode siteDigest,.dir,true⟩] = .ok sitePath := by decide +kernel
  have there : (run siteLibrary emptyTree [.stage (siteAssignment "a") siteArchive "1".toList] []).tree.node sitePath = some .dir := by
    decide +kernel
  refine staged_artifacts_complete siteLibrary "d".toList emptyTree rfl [.stage (siteAssignment "a") siteArchive "1".toList] (by decide) []
    ?_ _ (List.mem_cons_self ..) _ _ ?_ found
  · intro entry member
    have kind := List.all_eq_true.mp undeleted entry member
    obtain ⟨tree,step⟩ := entry
    cases step with
    | delete above name => cases kind
    | createDir above name => exact trivial
    | write above name content => exact trivial
    | rename source above name => exact trivial
  · intro listed member
    cases List.mem_singleton.mp member
    exact there
/-- Where the second staging deletes the page first and crashes, a site without its page is served. -/
theorem half_deleted_site_is_served :
    ¬∀ tree ∈ (run siteLibrary emptyTree replaced replacing).trees, ∀ listing path, Lists tree "d".toList listing →
      stagedArtifactPath siteLibrary tree "d".toList listing = .ok path →
      ∃ assignment ∈ replaced.filterMap Job.assignment?, Complete siteLibrary assignment fun names => tree.node (path ++ names) := by
  intro always
  let tree := (run siteLibrary emptyTree replaced replacing).tree
  have left : tree.node sitePath = some .dir ∧
      stagedArtifactPath siteLibrary tree "d".toList [.ok ⟨hexEncode siteDigest,.dir,true⟩] = .ok sitePath ∧
      tree.node (sitePath ++ ["s".toList,"index.html".toList]) = none := by decide +kernel
  have lists : Lists tree "d".toList [.ok ⟨hexEncode siteDigest,.dir,true⟩] := by
    intro listed member
    cases List.mem_singleton.mp member
    exact left.1
  obtain ⟨assignment,member,archive,size,small,verified,_,made,_,same⟩ := always tree (List.mem_cons_self ..) _ _ lists left.2.1
  have page : (unpacked (siteLibrary.unpackZip siteArchive).1).bind (fun tree => tree.node ["s".toList,"index.html".toList]) =
      some (.file [120]) := by decide +kernel
  have checksums : ∀ assignment ∈ replaced.filterMap Job.assignment?, assignment.artifact.checksumSha256 = hexEncode siteDigest := by
    decide
  have own : archive = siteArchive := verified_site (checksums assignment member) verified
  rw [own] at made
  rw [made] at page
  have gone : tree.node (sitePath ++ ["s".toList,"index.html".toList]) = small.node ["s".toList,"index.html".toList] :=
    (same ["s".toList,"index.html".toList]).trans (if_neg (by decide))
  rw [left.2.2] at gone
  rw [Option.bind_some,← gone] at page
  cases page

end GrassWorker.ServeSync
