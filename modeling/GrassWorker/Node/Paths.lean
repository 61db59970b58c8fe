import GrassWorker.Node.Manifest

/-! The file a node serves for a request to a static deployment: the public path
becomes segments, the segments a file of the static directory, and a request that
finds none gets the page the manifest names for it. -/
namespace GrassWorker.Paths
open UnixPath Manifest

def hexDigit (byte : UInt8) : Option Nat :=
  let code := byte.toNat
  if 48 ≤ code ∧ code ≤ 57 then some (code - 48)
  else if 97 ≤ code ∧ code ≤ 102 then some (code - 87)
  else if 65 ≤ code ∧ code ≤ 70 then some (code - 55)
  else none

def decodeBytes : List UInt8 → Option (List UInt8)
  | [] => some []
  | byte :: rest =>
    if byte = 37 then
      match rest with
      | high :: low :: rest => do
        let value := (← hexDigit high) * 16 + (← hexDigit low)
        return UInt8.ofNat value :: (← decodeBytes rest)
      | _ => none
    else do return byte :: (← decodeBytes rest)

def percentDecode (input : String) : Option (List Char) := do
  let bytes ← decodeBytes input.toUTF8.toList
  return (← (ByteArray.mk bytes.toArray).utf8Decode?).toList

def forbidden (text : List Char) : Bool := text.any fun c => c = '\x00' || c = '\\'

def safeSegments : List Path → Option (List Path)
  | [] => some []
  | segment :: rest =>
    if segment = [] ∨ segment = ['.'] then safeSegments rest
    else if segment = ['.','.'] then none
    else do return segment :: (← safeSegments rest)

def normalizePublicPath (path : String) : Option (List Path) := do
  if forbidden path.toList then none
  else
    let decoded ← percentDecode path
    if forbidden decoded then none else safeSegments (decoded.splitOn '/')

section Resolution
variable (tree : FileTree) (staticDir : Path)

def existing (path : Path) : Option Path := if tree.isFile path then some path else none

def staticCandidate (segments : List Path) : Path :=
  if tree.isDir (segments.foldl push staticDir) then push (segments.foldl push staticDir) "index.html".toList
  else segments.foldl push staticDir

/-- `/about` is served from `/about.html` when that is there. -/
def prettyUrl (segments : List Path) : Option Path := do
  let last ← segments.getLast?
  if last.contains '.' then none
  else existing tree (push (segments.dropLast.foldl push staticDir) (last ++ ".html".toList))

def resolveStaticFile (segments : List Path) (spaFallback : Bool) : Option Path :=
  (existing tree (staticCandidate tree staticDir segments)).or
    ((prettyUrl tree staticDir segments).or
      (if spaFallback then existing tree (push staticDir "index.html".toList) else none))

def notFoundNames (configured : Path) : List Path := (configured.dropWhile (· = '/')).splitOn '/'

def notFoundCandidate (configured : Path) : Path := (notFoundNames configured).foldl push staticDir

def resolveNotFoundFile (configured : Option Path) : Option Path :=
  (configured.bind fun configured => existing tree (notFoundCandidate staticDir configured)).or
    (existing tree (push staticDir "404.html".toList))

def ServesInside (spaFallback : Bool) (notFound : Option Path) : Prop :=
  (∀ request segments file, normalizePublicPath request = some segments →
    resolveStaticFile tree staticDir segments spaFallback = some file → Inside staticDir file) ∧
  ∀ file, resolveNotFoundFile tree staticDir notFound = some file → Inside staticDir file

end Resolution

structure SafeName (name : Path) : Prop where
  free : '/' ∉ name
  stays : name ≠ ['.','.']

theorem safeSegments_safe {names segments : List Path} (free : ∀ name ∈ names, '/' ∉ name)
    (ok : safeSegments names = some segments) : ∀ segment ∈ segments, SafeName segment := by
  induction names generalizing segments with
  | nil =>
    cases ok
    intro segment member
    cases member
  | cons name rest ih =>
    have later : ∀ other ∈ rest, '/' ∉ other := fun other member => free other (List.mem_cons_of_mem _ member)
    unfold safeSegments at ok
    split at ok
    · exact ih later ok
    · split at ok
      · cases ok
      · rename_i stays
        obtain ⟨tail,found,same⟩ := Option.bind_eq_some_iff.mp ok
        obtain rfl : name :: tail = segments := Option.some.inj same
        intro segment member
        rcases List.mem_cons.mp member with rfl | inside
        · exact ⟨free _ (List.mem_cons_self ..),stays⟩
        · exact ih later found segment inside

theorem normalizePublicPath_safe {path : String} {segments : List Path}
    (ok : normalizePublicPath path = some segments) : ∀ segment ∈ segments, SafeName segment := by
  unfold normalizePublicPath at ok
  split at ok
  · cases ok
  · obtain ⟨decoded,_,split⟩ := Option.bind_eq_some_iff.mp ok
    split at split
    · cases split
    · exact safeSegments_safe (fun name member => free_of_mem_splitOn member) split

section Safety
variable {tree : FileTree} {staticDir : Path} {segments : List Path}

theorem inside_of_safe (nonempty : staticDir ≠ []) (safe : ∀ segment ∈ segments, SafeName segment) :
    Inside staticDir (segments.foldl push staticDir) := by
  apply (inside_pushAll nonempty fun name member => (safe name member).free).mpr
  intro dotdot
  exact (safe _ dotdot).stays rfl

theorem inside_name (nonempty : staticDir ≠ []) {name : Path} (safe : SafeName name) : Inside staticDir (push staticDir name) := by
  have single : ∀ segment ∈ [name], SafeName segment := by
    intro segment member
    rwa [List.mem_singleton.mp member]
  exact inside_of_safe nonempty single

theorem safe_append (safe : ∀ segment ∈ segments, SafeName segment) {name : Path} (last : SafeName name) :
    ∀ segment ∈ segments ++ [name], SafeName segment := by
  intro segment member
  rcases List.mem_append.mp member with inside | final
  · exact safe segment inside
  · rwa [List.mem_singleton.mp final]

theorem indexHtml_safe : SafeName "index.html".toList := ⟨by decide,by decide⟩

theorem notFoundHtml_safe : SafeName "404.html".toList := ⟨by decide,by decide⟩

theorem safe_extension {name : Path} (safe : SafeName name) : SafeName (name ++ ".html".toList) := by
  constructor
  · intro slash
    rcases List.mem_append.mp slash with inside | extension
    · exact safe.free inside
    · revert extension
      decide
  · intro dotdot
    have length := congrArg List.length dotdot
    simp at length

theorem existing_eq_some {path file : Path} (found : existing tree path = some file) : tree.isFile path ∧ path = file := by
  unfold existing at found
  split at found
  · rename_i present
    exact ⟨present,Option.some.inj found⟩
  · cases found

theorem staticCandidate_inside (nonempty : staticDir ≠ []) (safe : ∀ segment ∈ segments, SafeName segment) :
    Inside staticDir (staticCandidate tree staticDir segments) := by
  unfold staticCandidate
  split
  · have inside := inside_of_safe nonempty (safe_append safe indexHtml_safe)
    rwa [List.foldl_append] at inside
  · exact inside_of_safe nonempty safe

theorem prettyUrl_inside (nonempty : staticDir ≠ []) (safe : ∀ segment ∈ segments, SafeName segment) {file : Path}
    (found : prettyUrl tree staticDir segments = some file) : Inside staticDir file := by
  obtain ⟨last,final,chosen⟩ := Option.bind_eq_some_iff.mp found
  split at chosen
  · cases chosen
  · obtain ⟨_,rfl⟩ := existing_eq_some chosen
    have before : ∀ segment ∈ segments.dropLast, SafeName segment :=
      fun segment member => safe segment ((List.dropLast_sublist segments).mem member)
    have whole := safe_append before (safe_extension (safe last (List.mem_of_mem_getLast? final)))
    have inside := inside_of_safe nonempty whole
    rwa [List.foldl_append] at inside

theorem resolveStaticFile_inside (nonempty : staticDir ≠ []) (safe : ∀ segment ∈ segments, SafeName segment)
    {spaFallback : Bool} {file : Path} (found : resolveStaticFile tree staticDir segments spaFallback = some file) :
    Inside staticDir file := by
  rcases Option.or_eq_some_iff.mp found with direct | ⟨_,others⟩
  · obtain ⟨_,rfl⟩ := existing_eq_some direct
    exact staticCandidate_inside nonempty safe
  · rcases Option.or_eq_some_iff.mp others with pretty | ⟨_,index⟩
    · exact prettyUrl_inside nonempty safe pretty
    · split at index
      · obtain ⟨_,rfl⟩ := existing_eq_some index
        exact inside_name nonempty indexHtml_safe
      · cases index

theorem notFoundCandidate_inside (nonempty : staticDir ≠ []) (configured : Path) :
    Inside staticDir (notFoundCandidate staticDir configured) ↔ ['.','.'] ∉ notFoundNames configured :=
  inside_pushAll nonempty fun _ member => free_of_mem_splitOn member

/-- The page for a missing path stays inside unless the manifest leads to a file through `..`. -/
theorem resolveNotFoundFile_inside (nonempty : staticDir ≠ []) (notFound : Option Path) :
    (∀ file, resolveNotFoundFile tree staticDir notFound = some file → Inside staticDir file) ↔
      ∀ configured, notFound = some configured → tree.isFile (notFoundCandidate staticDir configured) →
        ['.','.'] ∉ notFoundNames configured := by
  constructor
  · rintro inside configured rfl present
    rw [← notFoundCandidate_inside nonempty]
    apply inside
    unfold resolveNotFoundFile existing
    rw [Option.bind_some,if_pos present,Option.some_or]
  · intro clean file found
    rcases Option.or_eq_some_iff.mp found with named | ⟨_,root404⟩
    · obtain ⟨configured,same,chosen⟩ := Option.bind_eq_some_iff.mp named
      obtain ⟨present,rfl⟩ := existing_eq_some chosen
      exact (notFoundCandidate_inside nonempty configured).mpr (clean configured same present)
    · obtain ⟨_,rfl⟩ := existing_eq_some root404
      exact inside_name nonempty notFoundHtml_safe

end Safety

theorem serves_inside_iff {tree : FileTree} {deploymentDir staticDir : Path} {manifest : OutputManifest}
    {spaFallback : Bool} {notFound : Option Path}
    (accepted : ensureArtifact tree deploymentDir manifest = .ok (.static staticDir spaFallback notFound)) :
    ServesInside tree staticDir spaFallback notFound ↔
      ∀ configured, notFound = some configured → tree.isFile (notFoundCandidate staticDir configured) →
        ['.','.'] ∉ notFoundNames configured := by
  have nonempty := static_nonempty accepted
  rw [← resolveNotFoundFile_inside nonempty]
  constructor
  · exact And.right
  · intro inside
    refine ⟨fun request segments file normal found => ?_,inside⟩
    exact resolveStaticFile_inside nonempty (normalizePublicPath_safe normal) found

section Examples

def place (path : Path) : List Path :=
  (components path).foldl (fun names component =>
    match component with
    | .rootDir => []
    | .curDir => names
    | .parentDir => names.dropLast
    | .normal name => names ++ [name]) []

def holding (files : List String) : FileTree where
  isFile path := files.any fun file => place file.toList = place path
  isDir path := files.any fun file => place path <+: place file.toList && place file.toList ≠ place path

def shop : FileTree := holding ["/srv/shop/output.toml","/srv/shop/static/index.html","/srv/shop/static/errors/404.html"]

def manifest (notFound : String) : OutputManifest where
  version := 1
  runtime := { kind := "static" }
  staticSite := some { directory := "static", notFound }

theorem not_found_page_leaves_directory : ∃ staticDir spaFallback notFound,
    ensureArtifact shop "/srv/shop".toList (manifest "../output.toml") = .ok (.static staticDir spaFallback notFound) ∧
      ¬ServesInside shop staticDir spaFallback notFound := by
  refine ⟨"/srv/shop/static".toList,false,some "../output.toml".toList,by decide,?_⟩
  rintro ⟨_,inside⟩
  obtain ⟨below,same,stays⟩ := inside (notFoundCandidate "/srv/shop/static".toList "../output.toml".toList) (by decide)
  have composed : components (notFoundCandidate "/srv/shop/static".toList "../output.toml".toList) =
      components "/srv/shop/static".toList ++ [.parentDir,.normal "output.toml".toList] := by decide
  rw [composed] at same
  rw [← List.append_cancel_left same] at stays
  exact stays (List.mem_cons_self ..)

theorem serves_inside_errors_page : ServesInside shop "/srv/shop/static".toList false (some "errors/404.html".toList) := by
  have accepted : ensureArtifact shop "/srv/shop".toList (manifest "errors/404.html") =
      .ok (.static "/srv/shop/static".toList false (some "errors/404.html".toList)) := by decide
  apply (serves_inside_iff accepted).mpr
  intro configured same _
  rw [← Option.some.inj same]
  decide

end Examples

end GrassWorker.Paths
