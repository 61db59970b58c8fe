import GrassWorker.Archive
import GrassWorker.Foundations.Utf8

/-! The directory in which a build runs, as the checkout, the container and the export name it. A path is its bytes, each
as the character of its code; a text is its characters. -/
namespace GrassWorker.BuildDirectory
open UnixPath Files Validator Archive Utf8

abbrev Text := List Char

def osStr (text : Text) : Path := (encode text).map fun byte => Char.ofNat byte.toNat

def bytesOf (path : Path) : List UInt8 := path.map fun c => UInt8.ofNat c.toNat

def replacementCharacter : Char := Char.ofNat 0xfffd

def lossyText : Nat → List UInt8 → Text
  | 0,_ => []
  | _,[] => []
  | rounds + 1,bytes =>
    match scan bytes with
    | .character width => (bytes.toByteArray.utf8DecodeChar? 0).getD replacementCharacter :: lossyText rounds (bytes.drop width)
    | .incomplete => [replacementCharacter]
    | .invalid length => replacementCharacter :: lossyText rounds (bytes.drop length)

def toStringLossy (path : Path) : Text := lossyText (bytesOf path).length (bytesOf path)

inductive CheckoutError
  | invalidRootDirectory (root : Text)
  | io (error : IoError)
deriving DecidableEq

structure CheckoutResult where
  sourceDir : Path
  projectRoot : Path
deriving DecidableEq

def absolute (loc : Loc) : Path := '/' :: entryName loc

def canonicalize (fs : FileSystem) (path : Path) : Except IoError Path := (fs.locate (components path)).map absolute

def sourceDir (workRoot id : Path) : Path := push (push (push workRoot "builds".toList) id) "source".toList

/-- The end of `checkout`: the root directory must stay inside the checkout. -/
def checkoutRoot (fs : FileSystem) (sourceDir : Path) (rootDirectory : Option Text) : Except CheckoutError CheckoutResult :=
  match (rootDirectory.map trim).filter fun root => root ≠ [] ∧ root ≠ ['.'] with
  | none => .ok { sourceDir, projectRoot := sourceDir }
  | some root =>
    match canonicalize fs sourceDir with
    | .error error => .error (.io error)
    | .ok canonicalSource =>
      match canonicalize fs (push sourceDir (osStr root)) with
      | .error _ => .error (.invalidRootDirectory root)
      | .ok canonicalRoot =>
        if ¬components canonicalSource <+: components canonicalRoot ∨ ¬fs.isDir (components canonicalRoot) then
          .error (.invalidRootDirectory root)
        else .ok { sourceDir, projectRoot := canonicalRoot }

def normalNames (path : List Component) : Loc := path.filterMap fun component =>
  match component with
  | .normal name => some name
  | _ => none

/-- `strip_prefix`, as the text of the components that are left. -/
def stripPrefix (path base : Path) : Option Path :=
  if components base <+: components path then some (entryName (normalNames ((components path).drop (components base).length)))
  else none

def containerWorkingDir (sourceDir projectRoot : Path) : Text := ((stripPrefix projectRoot sourceDir).map toStringLossy).getD []

def trimMatches (c : Char) (text : Text) : Text := (text.dropWhile (· = c)).rdropWhile (· = c)

def isWorkspace (workingDir : Text) : Bool := trim workingDir = [] ∨ workingDir = ['.']

/-- `working_dir` of `run_build`. -/
def containerPath (workingDir : Text) : Text :=
  if isWorkspace workingDir then "/workspace".toList else "/workspace/".toList ++ trimMatches '/' workingDir

/-- `local_working_dir`, into which the exports are installed. -/
def localWorkingDir (workspace : Path) (workingDir : Text) : Path :=
  if isWorkspace workingDir then workspace else push workspace (osStr (trimMatches '/' workingDir))

/-- The archive of the source is unpacked below the workspace of the container. -/
def PackedCopy (fs : FileSystem) (source : Loc) (container : FileSystem) : Prop :=
  ∀ names, container.node ("workspace".toList :: names) = fs.node (source ++ names)

/-- The container starts in the copy of the project root, and the exports are installed in the project root. -/
structure OneDirectory (fs container : FileSystem) (source rel : Loc) (checkout : CheckoutResult) : Prop where
  runs : container.locate (components (osStr (containerPath (containerWorkingDir checkout.sourceDir checkout.projectRoot)))) =
    .ok ("workspace".toList :: rel)
  installs : fs.locate (components (localWorkingDir checkout.sourceDir
    (containerWorkingDir checkout.sourceDir checkout.projectRoot))) = .ok (source ++ rel)

section Paths
variable {fs : FileSystem} {loc source rel : Loc} {path : Path} {text : Text}

theorem bytesOf_osStr (text : Text) : bytesOf (osStr text) = encode text := by
  rw [bytesOf,osStr,List.map_map]
  have same : ∀ byte ∈ encode text, ((fun c : Char => UInt8.ofNat c.toNat) ∘ fun byte : UInt8 => Char.ofNat byte.toNat) byte = id byte := by
    intro byte _
    have small : byte.toNat < 256 := byte.toNat_lt
    have valid : (byte.toNat).isValidChar := .inl (by omega)
    have code : (Char.ofNat byte.toNat).toNat = byte.toNat := by
      rw [Char.ofNat,dif_pos valid]
      rfl
    rw [Function.comp,code,id,UInt8.ofNat_toNat]
  rw [List.map_congr_left same,List.map_id]

theorem lossyText_encode (text : Text) (rounds : Nat) (enough : (encode text).length ≤ rounds) :
    lossyText rounds (encode text) = text := by
  induction text generalizing rounds with
  | nil => cases rounds <;> rfl
  | cons c text ih =>
    have sizes := length_utf8EncodeChar c
    rw [encode_cons,List.length_append] at enough
    obtain ⟨rounds,rfl⟩ : ∃ fewer, rounds = fewer + 1 := ⟨rounds - 1,by omega⟩
    have found := scan_utf8EncodeChar c (encode text)
    have later := ih rounds (by omega)
    have decoded : ((String.utf8EncodeChar c ++ encode text).toByteArray.utf8DecodeChar? 0) = some c := by
      rw [List.toByteArray_append]
      exact ByteArray.utf8DecodeChar?_utf8EncodeChar_append
    rw [encode_cons]
    cases whole : String.utf8EncodeChar c ++ encode text with
    | nil => simp at whole
    | cons first rest =>
      unfold lossyText
      rw [whole] at found
      simp only [found]
      rw [← whole,List.drop_left,later,decoded]
      rfl

theorem toStringLossy_osStr (text : Text) : toStringLossy (osStr text) = text := by
  rw [toStringLossy,bytesOf_osStr]
  exact lossyText_encode text _ (Nat.le_refl _)

theorem components_absolute (valid : ∀ name ∈ loc, ValidName name) : components (absolute loc) = .rootDir :: loc.map .normal := by
  cases loc with
  | nil => decide
  | cons name names =>
    have pieces : (entryName (name :: names)).splitOn '/' = name :: names :=
      List.splitOn_intercalate '/' (fun name member => (valid name member).2.1) (by simp)
    have split : ('/' :: entryName (name :: names)).splitOn '/' = [] :: (entryName (name :: names)).splitOn '/' :=
      List.splitOn_append_cons_self [] _
    rw [absolute,components,split,pieces,List.filterMap_cons_none rfl,filterMap_component valid]
    rfl

theorem normalNames_map (names : Loc) : normalNames (names.map .normal) = names := by
  rw [normalNames,List.filterMap_map]
  exact List.filterMap_some

theorem prefix_normal {first second : Loc} :
    Component.rootDir :: first.map .normal <+: .rootDir :: second.map .normal ↔ first <+: second := by
  have injective : Function.Injective Component.normal := fun _ _ same => Component.normal.inj same
  rw [List.cons_prefix_cons,List.prefix_map_iff_of_injective injective]
  exact and_iff_right rfl

theorem leads_absolute (dir : fs.node loc = some .dir) : Leads fs (.rootDir :: loc.map .normal) loc := by
  have top : Leads fs [.rootDir] [] := ⟨rfl,rfl⟩
  have dir : fs.node ([] ++ loc) = some .dir := dir
  exact top.down dir

theorem valid_of_found (found : fs.node loc = some node) : ∀ name ∈ loc, ValidName name := by
  have found : fs.node ([] ++ loc) = some node := found
  exact fun _ member => valid_of_node found member

end Paths

/-! Where the working directory leads. -/

section Working
variable {fs container : FileSystem} {source rel : Loc} {path : Path} {workingDir text : Text}

theorem leads_workspace (cloned : fs.node source = some .dir) (packed : PackedCopy fs source container) :
    Leads container (components "/workspace".toList) ["workspace".toList] := by
  have dir : container.node ["workspace".toList] = some .dir := by
    have copied := packed []
    rwa [List.append_nil,cloned] at copied
  have named : components "/workspace".toList = [.rootDir,.normal "workspace".toList] := by decide
  rw [named]
  exact leads_absolute dir

theorem osStr_workspace : osStr "/workspace".toList = "/workspace".toList := by decide

theorem oneDirectory_workspace (cloned : Leads fs (components path) source) (packed : PackedCopy fs source container)
    (whole : isWorkspace workingDir) :
    (container.locate (components (osStr (containerPath workingDir))) = .ok ("workspace".toList :: rel) ∧
      fs.locate (components (localWorkingDir path workingDir)) = .ok (source ++ rel)) ↔ rel = [] := by
  have runs := (leads_workspace cloned.dir packed).located
  rw [containerPath,localWorkingDir,if_pos whole,if_pos whole,osStr_workspace,runs,cloned.located]
  simp [eq_comm]

theorem trimMatches_of_ends {c : Char} (first : text.head? ≠ some c) (last : text.getLast? ≠ some c) : trimMatches c text = text := by
  have kept : text.dropWhile (· = c) = text := by
    cases text with
    | nil => rfl
    | cons head tail =>
      refine List.dropWhile_cons_of_neg ?_
      simpa using first
  rw [trimMatches,kept]
  cases text using List.reverseRecOn with
  | nil => rfl
  | append_singleton init final =>
    refine List.rdropWhile_concat_neg _ _ _ ?_
    simpa using last

theorem head?_osStr (text : Text) : text.head? = some '/' → (osStr text).head? = some '/' := by
  intro slash
  cases text with
  | nil => cases slash
  | cons c rest =>
    cases slash
    rfl

theorem getLast?_osStr (text : Text) : text.getLast? = some '/' → (osStr text).getLast? = some '/' := by
  intro slash
  obtain ⟨init,rfl⟩ := List.getLast?_eq_some_iff.mp slash
  rw [osStr,encode_append,List.map_append]
  exact List.getLast?_concat

theorem osStr_append (first second : Text) : osStr (first ++ second) = osStr first ++ osStr second := by
  rw [osStr,encode_append,List.map_append]
  rfl

theorem oneDirectory_text (cloned : Leads fs (components path) source) (nonempty : path ≠ []) (packed : PackedCopy fs source container)
    (deeper : rel ≠ []) (project : fs.node (source ++ rel) = some .dir) (named : osStr text = entryName rel)
    (below : isWorkspace text = false) :
    container.locate (components (osStr (containerPath text))) = .ok ("workspace".toList :: rel) ∧
      fs.locate (components (localWorkingDir path text)) = .ok (source ++ rel) := by
  have valid : ∀ name ∈ rel, ValidName name := fun name member => valid_of_node project member
  have pieces : (entryName rel).splitOn '/' = rel := List.splitOn_intercalate '/' (fun name member => (valid name member).2.1) deeper
  have start : (entryName rel).head? ≠ some '/' := by
    intro slash
    have parts := components_entryName deeper valid
    rw [components,anchor,if_pos slash] at parts
    obtain ⟨name,rest,rfl⟩ := List.exists_cons_of_ne_nil deeper
    cases (List.cons.inj parts).1
  have ends : (entryName rel).getLast? ≠ some '/' := by
    intro slash
    obtain ⟨init,same⟩ := List.getLast?_eq_some_iff.mp slash
    have last : (init ++ ['/']).splitOn '/' = init.splitOn '/' ++ [[]] := List.splitOn_append_cons_self init []
    rw [← same,pieces] at last
    have empty : [] ∈ rel := by
      rw [last]
      simp
    exact (valid [] empty).1 rfl
  have trimmed : trimMatches '/' text = text :=
    trimMatches_of_ends (fun slash => start (named ▸ head?_osStr text slash)) fun slash => ends (named ▸ getLast?_osStr text slash)
  constructor
  · have inner : osStr ("/workspace/".toList ++ text) = "/workspace".toList ++ '/' :: entryName rel := by
      rw [osStr_append,named]
      rfl
    have dir : container.node (["workspace".toList] ++ rel) = some .dir := (packed rel).trans project
    rw [containerPath,below,trimmed,if_neg (by decide),inner,components_append (by decide),pieces,filterMap_component valid]
    exact ((leads_workspace cloned.dir packed).down dir).located
  · rw [localWorkingDir,below,trimmed,named,if_neg (by decide),components_push nonempty start,pieces,filterMap_component valid]
    exact (cloned.down project).located

end Working

/-! What the checkout and the prefix test come to. -/

section Checkout
variable {fs container : FileSystem} {source rel : Loc} {path : Path} {rootDirectory : Option Text} {result : CheckoutResult}

/-- The project root is the source directory as it was given, or the canonical path of a directory in it. -/
theorem checkoutRoot_cases (cloned : Leads fs (components path) source) (accepted : checkoutRoot fs path rootDirectory = .ok result) :
    result = { sourceDir := path, projectRoot := path } ∨
      ∃ rel, result = { sourceDir := path, projectRoot := absolute (source ++ rel) } ∧ fs.node (source ++ rel) = some .dir := by
  unfold checkoutRoot at accepted
  split at accepted
  · cases accepted
    exact .inl rfl
  · rename_i root _
    have canonicalSource : canonicalize fs path = .ok (absolute source) := by
      rw [canonicalize,cloned.located]
      rfl
    simp only [canonicalSource] at accepted
    cases located : fs.locate (components (push path (osStr root))) with
    | error error =>
      rw [canonicalize,located] at accepted
      cases accepted
    | ok place =>
      have canonicalRoot : canonicalize fs (push path (osStr root)) = .ok (absolute place) := by
        rw [canonicalize,located]
        rfl
      simp only [canonicalRoot] at accepted
      split at accepted
      · cases accepted
      · rename_i inside
        rw [not_or,not_not,not_not] at inside
        have valid : ∀ name ∈ place, ValidName name := by
          cases found : fs.node place with
          | none => exact absurd found (node_of_locate located)
          | some node => exact valid_of_found found
        rw [components_absolute (valid_of_found cloned.dir),components_absolute valid,prefix_normal] at inside
        obtain ⟨⟨rel,rfl⟩,dir⟩ := inside
        obtain ⟨other,leads⟩ := leads_of_isDir dir
        cases accepted
        refine .inr ⟨rel,rfl,?_⟩
        have straight := straight_of_locate located
        cases found : fs.node (source ++ rel) with
        | none => exact absurd found (node_of_locate located)
        | some node =>
          have top : Leads fs [.rootDir] [] := ⟨rfl,rfl⟩
          have there := top.locate (show fs.node ([] ++ (source ++ rel)) = some node from found) fun target same => straight target (same ▸ found)
          have place : other = source ++ rel := Except.ok.inj (leads.located.symm.trans there)
          rw [← found,← place,leads.dir]

def Canonical (path : Path) (source : Loc) : Prop := components path = .rootDir :: source.map .normal

instance (path : Path) (source : Loc) : Decidable (Canonical path source) := inferInstanceAs (Decidable (_ = _))

theorem containerWorkingDir_absolute (cloned : Leads fs (components path) source) (rooted : path.head? = some '/')
    (project : fs.node (source ++ rel) = some .dir) :
    containerWorkingDir path (absolute (source ++ rel)) = if Canonical path source then toStringLossy (entryName rel) else [] := by
  have named := components_absolute (valid_of_found project)
  rw [containerWorkingDir,stripPrefix,named]
  by_cases canonical : Canonical path source
  · have parts : .rootDir :: (source ++ rel).map .normal = components path ++ rel.map .normal := by
      rw [canonical,List.map_append]
      rfl
    rw [if_pos canonical,parts,if_pos (List.prefix_append ..),List.drop_left,normalNames_map]
    rfl
  · rw [if_neg canonical,if_neg]
    · rfl
    · intro before
      obtain ⟨names,parts⟩ : ∃ names, components path = .rootDir :: names := by
        rw [components,anchor,if_pos rooted]
        exact ⟨_,rfl⟩
      rw [parts,List.cons_prefix_cons] at before
      obtain ⟨place,within,rfl⟩ := List.prefix_map_iff.mp before.2
      have dir : fs.node place = some .dir := by
        by_cases same : place = source ++ rel
        · rwa [same]
        · exact dir_of_isPrefix project within same
      have there := (leads_absolute dir).located
      rw [← parts,cloned.located] at there
      cases there
      exact canonical parts

/-- The relative path is a text, or what is left of it as one leads to the same directory. -/
def ReadsBack (fs container : FileSystem) (source rel : Loc) (path : Path) : Prop :=
  (∃ text, osStr text = entryName rel) ∨
    (container.locate (components (osStr (containerPath (toStringLossy (entryName rel))))) = .ok ("workspace".toList :: rel) ∧
      fs.locate (components (localWorkingDir path (toStringLossy (entryName rel)))) = .ok (source ++ rel))

theorem entryName_ne_dot (deeper : rel ≠ []) (valid : ∀ name ∈ rel, ValidName name) : entryName rel ≠ ['.'] := by
  intro dot
  have pieces : (entryName rel).splitOn '/' = rel := List.splitOn_intercalate '/' (fun name member => (valid name member).2.1) deeper
  rw [dot] at pieces
  have member : ['.'] ∈ rel := by
    rw [← pieces]
    decide
  exact (valid ['.'] member).2.2.1 rfl

theorem oneDirectory_below (cloned : Leads fs (components path) source) (nonempty : path ≠ []) (packed : PackedCopy fs source container)
    (deeper : rel ≠ []) (project : fs.node (source ++ rel) = some .dir) :
    (container.locate (components (osStr (containerPath (toStringLossy (entryName rel))))) = .ok ("workspace".toList :: rel) ∧
      fs.locate (components (localWorkingDir path (toStringLossy (entryName rel)))) = .ok (source ++ rel)) ↔
      trim (toStringLossy (entryName rel)) ≠ [] ∧ ReadsBack fs container source rel path := by
  constructor
  · intro one
    refine ⟨fun blank => ?_,.inr one⟩
    have whole : isWorkspace (toStringLossy (entryName rel)) := by simp [isWorkspace,blank]
    exact deeper ((oneDirectory_workspace cloned packed whole).mp one)
  · rintro ⟨shown,⟨text,named⟩ | one⟩
    · have same : toStringLossy (entryName rel) = text := by rw [← named,toStringLossy_osStr]
      have valid : ∀ name ∈ rel, ValidName name := fun name member => valid_of_node project member
      have undotted : text ≠ ['.'] := by
        rintro rfl
        exact entryName_ne_dot deeper valid named.symm
      rw [same] at shown ⊢
      exact oneDirectory_text cloned nonempty packed deeper project named (by simp [isWorkspace,shown,undotted])
    · exact one

end Checkout

theorem rooted_push {path segment : Path} (rooted : path.head? = some '/') : (push path segment).head? = some '/' := by
  have nonempty : path ≠ [] := by
    rintro rfl
    cases rooted
  unfold push
  split
  · assumption
  · split
    · rw [List.head?_append_of_ne_nil _ nonempty,rooted]
    · rw [List.head?_append_of_ne_nil _ nonempty,rooted]

/-- A build runs in the copy of its project root, and its exports are installed in the project root, exactly where the
root is the repository itself, or where the source directory was given as its canonical path and the path below it is
neither blank nor changed by being read as a text. -/
theorem one_directory_iff (fs container : FileSystem) (workRoot id : Path) (rooted : workRoot.head? = some '/')
    (rootDirectory : Option Text) (result : CheckoutResult) (source : Loc)
    (cloned : Leads fs (components (sourceDir workRoot id)) source)
    (accepted : checkoutRoot fs (sourceDir workRoot id) rootDirectory = .ok result) (packed : PackedCopy fs source container) :
    ∃ rel, Leads fs (components result.projectRoot) (source ++ rel) ∧
      (OneDirectory fs container source rel result ↔
        rel = [] ∨ Canonical (sourceDir workRoot id) source ∧ trim (toStringLossy (entryName rel)) ≠ [] ∧
          ReadsBack fs container source rel (sourceDir workRoot id)) := by
  have start : (sourceDir workRoot id).head? = some '/' := rooted_push (rooted_push (rooted_push rooted))
  have nonempty : sourceDir workRoot id ≠ [] := by
    intro empty
    rw [empty] at start
    cases start
  generalize sourceDir workRoot id = path at *
  have unfolded : ∀ rel, OneDirectory fs container source rel result ↔
      container.locate (components (osStr (containerPath (containerWorkingDir result.sourceDir result.projectRoot)))) =
          .ok ("workspace".toList :: rel) ∧
        fs.locate (components (localWorkingDir result.sourceDir (containerWorkingDir result.sourceDir result.projectRoot))) =
          .ok (source ++ rel) :=
    fun rel => ⟨fun one => ⟨one.runs,one.installs⟩,fun one => ⟨one.1,one.2⟩⟩
  obtain rfl | ⟨rel,rfl,project⟩ := checkoutRoot_cases cloned accepted
  · refine ⟨[],?_,?_⟩
    · rw [List.append_nil]
      exact cloned
    · have whole : containerWorkingDir path path = [] := by
        rw [containerWorkingDir,stripPrefix,if_pos (List.prefix_refl _),List.drop_length]
        rfl
      rw [unfolded,whole,oneDirectory_workspace cloned packed (by decide)]
      simp
  · refine ⟨rel,?_,?_⟩
    · rw [components_absolute (valid_of_found project)]
      exact leads_absolute project
    · rw [unfolded,containerWorkingDir_absolute cloned start project]
      by_cases root : rel = []
      · have whole : isWorkspace (if Canonical path source then toStringLossy (entryName rel) else []) := by
          rw [root]
          split <;> decide
        rw [oneDirectory_workspace cloned packed whole]
        simp [root]
      · by_cases canonical : Canonical path source
        · rw [if_pos canonical,oneDirectory_below cloned nonempty packed root project]
          simp [root,canonical]
        · rw [if_neg canonical,oneDirectory_workspace cloned packed (by decide)]
          simp [root,canonical]

section Sites

def checkedOut : Loc := [['d'],"builds".toList,['1'],"source".toList]

def linkedTree : FileSystem where
  nodes := [([['l']],.link "/d".toList),([['d']],.dir),([['d'],"builds".toList],.dir),([['d'],"builds".toList,['1']],.dir),
    (checkedOut,.dir),(checkedOut ++ [['a']],.dir)]
  distinct := by decide
  placed := placed_of_wellPlaced (by decide)

def packedTree : FileSystem where
  nodes := [(["workspace".toList],.dir),(["workspace".toList,['a']],.dir)]
  distinct := by decide
  placed := placed_of_wellPlaced (by decide)

theorem packed_packedTree : PackedCopy linkedTree checkedOut packedTree := by
  intro names
  simp [FileSystem.node,nodeIn,linkedTree,packedTree,checkedOut,List.lookup_cons]

theorem linked_work_root_runs_elsewhere :
    checkoutRoot linkedTree (sourceDir "/l".toList ['1']) (some ['a']) =
        .ok ⟨"/l/builds/1/source".toList,"/d/builds/1/source/a".toList⟩ ∧
      PackedCopy linkedTree checkedOut packedTree ∧
      ∀ rel, Leads linkedTree (components "/d/builds/1/source/a".toList) (checkedOut ++ rel) →
        ¬OneDirectory linkedTree packedTree checkedOut rel ⟨"/l/builds/1/source".toList,"/d/builds/1/source/a".toList⟩ := by
  refine ⟨by decide +kernel,packed_packedTree,fun rel leads one => ?_⟩
  have runs := one.runs
  have located := leads.located
  rw [show linkedTree.locate (components "/d/builds/1/source/a".toList) = .ok (checkedOut ++ [['a']]) by decide +kernel] at located
  cases List.append_cancel_left (Except.ok.inj located)
  revert runs
  decide +kernel

theorem straight_work_root_runs_inside :
    OneDirectory linkedTree packedTree checkedOut [['a']] ⟨"/d/builds/1/source".toList,"/d/builds/1/source/a".toList⟩ := by
  have cloned : Leads linkedTree (components (sourceDir "/d".toList ['1'])) checkedOut := ⟨by decide +kernel,by decide⟩
  obtain ⟨rel,leads,iff⟩ := one_directory_iff linkedTree packedTree "/d".toList ['1'] rfl (some ['a'])
    ⟨"/d/builds/1/source".toList,"/d/builds/1/source/a".toList⟩ checkedOut cloned (by decide +kernel) packed_packedTree
  have located := leads.located
  rw [show linkedTree.locate (components "/d/builds/1/source/a".toList) = .ok (checkedOut ++ [['a']]) by decide +kernel] at located
  cases List.append_cancel_left (Except.ok.inj located)
  exact iff.mpr (.inr ⟨by decide,by decide +kernel,.inl ⟨['a'],by decide⟩⟩)

end Sites

end GrassWorker.BuildDirectory
