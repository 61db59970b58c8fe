import GrassWorker.Node.Manifest

/-! What a node serves of a manifest it has validated. The validation trims the names
it reads; serving takes them as they are written. -/
namespace GrassWorker.Manifest
open UnixPath Validator

/-- The file `upstream_for` looks for before it starts a server. -/
def serverEntry (appDir : Path) (server : ServerSection) : Path := push appDir server.entry.toList

/-- The target names the very objects the validation has looked at, and they exist. -/
def Refers (tree : FileTree) (deploymentDir : Path) (manifest : OutputManifest) : ResolvedTarget → Prop
  | .static staticDir _ _ =>
    (∃ staticSite ∈ manifest.staticSite, staticDir = push deploymentDir (trim staticSite.directory.toList)) ∧
      tree.isDir staticDir = true ∧ tree.isFile (push staticDir "index.html".toList) = true
  | .ssr appDir server =>
    (∃ declared ∈ manifest.server, serverEntry appDir server = push deploymentDir (trim declared.entry.toList)) ∧
      tree.isFile (serverEntry appDir server) = true

/-- The name a target is served by: the static directory or the server entry. -/
def OutputManifest.servedName (manifest : OutputManifest) : Option (List Char) :=
  if manifest.runtime.kind = "ssr" then manifest.server.map fun server => server.entry.toList
  else manifest.staticSite.map fun staticSite => staticSite.directory.toList

section Served
variable {tree : FileTree} {deploymentDir : Path} {manifest : OutputManifest}

theorem push_injective {path first second : Path} (one : first.head? ≠ some '/') (two : second.head? ≠ some '/') :
    push path first = push path second ↔ first = second := by
  unfold push
  rw [if_neg one,if_neg two]
  split <;> simp

theorem relative_of_safe {name : Path} (safe : hasUnsafeComponents (trim name) = false) :
    name.head? ≠ some '/' ∧ (trim name).head? ≠ some '/' := by
  have trimmed : (trim name).head? ≠ some '/' := by
    intro absolute
    have rooted : hasUnsafeComponents (trim name) = true := by
      simp [hasUnsafeComponents,components,anchor,absolute]
    rw [rooted] at safe
    cases safe
  refine ⟨fun absolute => trimmed ?_,trimmed⟩
  cases name with
  | nil => cases absolute
  | cons first rest =>
    cases absolute
    have visible : isWhitespace '/' = false := by decide
    have kept : ('/' :: rest).dropWhile isWhitespace = '/' :: rest := by simp [List.dropWhile,visible]
    unfold trim
    rw [kept]
    have started : ('/' :: rest).rdropWhile isWhitespace ≠ [] := by
      intro blank
      have all := List.rdropWhile_eq_nil_iff.mp blank
      rw [all '/' List.mem_cons_self] at visible
      cases visible
    have front := List.rdropWhile_prefix isWhitespace (l := '/' :: rest)
    obtain ⟨tail,whole⟩ := front
    cases dropped : ('/' :: rest).rdropWhile isWhitespace with
    | nil => exact absurd dropped started
    | cons head others =>
      rw [dropped] at whole
      cases whole
      rfl

theorem safe_of_validateServer {server : ServerSection} (ok : validateServer tree deploymentDir server = .ok ()) :
    hasUnsafeComponents (trim server.entry.toList) = false ∧
      tree.isFile (push deploymentDir (trim server.entry.toList)) = true := by
  unfold validateServer at ok
  by_cases risky : hasUnsafeComponents (trim server.entry.toList) = true
  · simp only [risky,if_true] at ok
    cases ok
  · by_cases present : tree.isFile (push deploymentDir (trim server.entry.toList)) = true
    · exact ⟨Bool.not_eq_true _ ▸ risky,present⟩
    · simp only [risky,present] at ok
      cases ok

theorem exists_of_validateStatic {staticSite : StaticSection} (ok : validateStatic tree deploymentDir staticSite = .ok ()) :
    tree.isDir (push deploymentDir (trim staticSite.directory.toList)) = true ∧
      tree.isFile (push (push deploymentDir (trim staticSite.directory.toList)) "index.html".toList) = true := by
  have safe := safe_of_validateStatic ok
  unfold validateStatic at ok
  simp only [safe] at ok
  by_cases directory : tree.isDir (push deploymentDir (trim staticSite.directory.toList)) = true
  · by_cases index : tree.isFile (push (push deploymentDir (trim staticSite.directory.toList)) "index.html".toList) = true
    · exact ⟨directory,index⟩
    · simp only [directory,index] at ok
      cases ok
  · simp only [directory] at ok
    cases ok

theorem validateManifest_ssr (ok : validateManifest tree deploymentDir manifest = .ok ()) (ssr : manifest.runtime.kind = "ssr") :
    ∃ server, manifest.server = some server ∧ validateServer tree deploymentDir server = .ok () := by
  unfold validateManifest at ok
  split at ok
  · cases ok
  · rw [ssr] at ok
    cases found : manifest.server with
    | none =>
      rw [found] at ok
      cases ok
    | some server =>
      rw [found] at ok
      exact ⟨server,rfl,ok⟩

/-- A server's entry is served from where it was validated exactly if its name needs no trimming. -/
theorem refers_ssr_iff {server : ServerSection} (found : manifest.server = some server)
    (ok : validateServer tree deploymentDir server = .ok ()) :
    Refers tree deploymentDir manifest (.ssr deploymentDir server) ↔ trim server.entry.toList = server.entry.toList := by
  obtain ⟨safe,present⟩ := safe_of_validateServer ok
  obtain ⟨relative,trimmed⟩ := relative_of_safe safe
  simp only [Refers,found,serverEntry,Option.mem_def,Option.some.injEq]
  constructor
  · rintro ⟨⟨_,rfl,same⟩,_⟩
    exact ((push_injective relative trimmed).mp same).symm
  · intro same
    rw [same] at present
    exact ⟨⟨server,rfl,by rw [same]⟩,present⟩

theorem refers_static_iff {staticSite : StaticSection} (found : manifest.staticSite = some staticSite)
    (ok : validateStatic tree deploymentDir staticSite = .ok ()) (spaFallback : Bool) (notFound : Option (List Char)) :
    Refers tree deploymentDir manifest
      (.static (push deploymentDir staticSite.directory.toList) spaFallback notFound) ↔
        trim staticSite.directory.toList = staticSite.directory.toList := by
  have present := exists_of_validateStatic ok
  obtain ⟨relative,trimmed⟩ := relative_of_safe (safe_of_validateStatic ok)
  simp only [Refers,found,Option.mem_def,Option.some.injEq]
  constructor
  · rintro ⟨⟨_,rfl,same⟩,_⟩
    exact ((push_injective relative trimmed).mp same).symm
  · intro same
    rw [same] at present
    exact ⟨⟨staticSite,rfl,by rw [same]⟩,present⟩

/-- Whatever is validated has a target, and the target names the validated objects
exactly if the name in the manifest has no space around it. -/
theorem serves_validated_iff (ok : validateManifest tree deploymentDir manifest = .ok ()) :
    ∃ target, ensureArtifact tree deploymentDir manifest = .ok target ∧
      (Refers tree deploymentDir manifest target ↔ ∀ name ∈ manifest.servedName, trim name = name) := by
  unfold ensureArtifact OutputManifest.servedName
  rw [ok]
  by_cases ssr : manifest.runtime.kind = "ssr"
  · obtain ⟨server,found,valid⟩ := validateManifest_ssr ok ssr
    simp only [ssr,if_true,found]
    refine ⟨_,rfl,?_⟩
    rw [refers_ssr_iff found valid]
    simp
  · obtain ⟨staticSite,found,valid⟩ := validateManifest_static ok ssr
    simp only [ssr,if_false,found]
    refine ⟨_,rfl,?_⟩
    rw [refers_static_iff found valid]
    simp

end Served

def unpacked : FileTree where
  isDir path := path = "/out".toList || path = "/out/static".toList
  isFile path := path = "/out/static/index.html".toList

def spaced : OutputManifest where
  version := 1
  runtime := ⟨"static"⟩
  staticSite := some { directory := " static" }

theorem serves_validated_unspaced : ∃ target,
    ensureArtifact unpacked "/out".toList { spaced with staticSite := some { directory := "static" } } = .ok target ∧
      (Refers unpacked "/out".toList { spaced with staticSite := some { directory := "static" } } target ↔
        ∀ name ∈ ({ spaced with staticSite := some { directory := "static" } } : OutputManifest).servedName, trim name = name) :=
  serves_validated_iff (by decide)

theorem spaced_directory_is_not_served :
    validateManifest unpacked "/out".toList spaced = .ok () ∧
      ensureArtifact unpacked "/out".toList spaced = .ok (.static "/out/ static".toList false none) ∧
      unpacked.isDir "/out/ static".toList = false := by
  decide

end GrassWorker.Manifest
