import GrassWorker.Foundations.UnixPath
import GrassWorker.Validator

/-! The manifest of a build's output (`output.toml`), its validation against the
unpacked output, and the serve target a node takes from it. Parsing the TOML text
is not modelled: a manifest is any value of its type. -/
namespace GrassWorker.Manifest
open UnixPath Validator

def outputApiVersion : Nat := 1

structure RuntimeSection where
  kind : String
deriving DecidableEq

structure ServerSection where
  entry : String
deriving DecidableEq

structure StaticSection where
  directory : String
  spaFallback : Bool := false
  notFound : String := ""
deriving DecidableEq

structure OutputManifest where
  version : Nat
  runtime : RuntimeSection
  staticSite : Option StaticSection := none
  server : Option ServerSection := none
deriving DecidableEq

inductive ManifestError
  | unsupportedVersion (version : Nat)
  | runtimeNotImplemented (kind : String)
  | unsupportedRuntime (kind : String)
  | missingStaticSection
  | unsafeStaticDirectory (directory : String)
  | missingStaticDirectory (directory : String)
  | missingIndexHtml (directory : String)
  | missingServerSection
  | unsafeServerEntry (entry : String)
  | missingServerEntry (entry : String)
deriving DecidableEq

def ManifestError.message : ManifestError → String
  | .unsupportedVersion version =>
    "unsupported output api version " ++ toString version ++ "; this node supports version 1"
  | .runtimeNotImplemented kind => "runtime kind " ++ kind ++ " is not implemented yet"
  | .unsupportedRuntime kind => "runtime kind " ++ kind ++ " is not supported"
  | .missingStaticSection => "static manifest is missing the [static] section"
  | .unsafeStaticDirectory directory => "static directory " ++ directory ++ " contains unsafe path segments"
  | .missingStaticDirectory directory => "static directory " ++ directory ++ " does not exist in the output"
  | .missingIndexHtml directory => "static directory " ++ directory ++ " does not contain index.html"
  | .missingServerSection => "ssr manifest is missing the [server] section"
  | .unsafeServerEntry entry => "server entry " ++ entry ++ " contains unsafe path segments"
  | .missingServerEntry entry => "server entry " ++ entry ++ " does not exist in the output"

structure FileTree where
  isDir : Path → Bool
  isFile : Path → Bool

def hasUnsafeComponents (value : Path) : Bool :=
  value.isEmpty || (components value).any fun component => component = .parentDir || component = .rootDir

section Validation
variable (tree : FileTree) (outputRoot : Path)

def validateServer (server : ServerSection) : Except ManifestError Unit := do
  let entry := trim server.entry.toList
  if hasUnsafeComponents entry then throw (.unsafeServerEntry (String.ofList entry))
  if !tree.isFile (push outputRoot entry) then throw (.missingServerEntry (String.ofList entry))

def validateStatic (staticSite : StaticSection) : Except ManifestError Unit := do
  let directory := trim staticSite.directory.toList
  if hasUnsafeComponents directory then throw (.unsafeStaticDirectory (String.ofList directory))
  let staticDir := push outputRoot directory
  if !tree.isDir staticDir then throw (.missingStaticDirectory (String.ofList directory))
  if !tree.isFile (push staticDir "index.html".toList) then throw (.missingIndexHtml (String.ofList directory))

def validateManifest (manifest : OutputManifest) : Except ManifestError Unit :=
  if manifest.version ≠ outputApiVersion then throw (.unsupportedVersion manifest.version)
  else match manifest.runtime.kind with
    | "static" =>
      match manifest.staticSite with
      | none => throw .missingStaticSection
      | some staticSite => validateStatic tree outputRoot staticSite
    | "ssr" =>
      match manifest.server with
      | none => throw .missingServerSection
      | some server => validateServer tree outputRoot server
    | "hybrid" | "serverless" | "edge" => throw (.runtimeNotImplemented manifest.runtime.kind)
    | other => throw (.unsupportedRuntime other)

end Validation

inductive ResolvedTarget
  | static (staticDir : Path) (spaFallback : Bool) (notFound : Option (List Char))
  | ssr (deploymentDir : Path) (server : ServerSection)
deriving DecidableEq

/-- `ensure_artifact` on the manifest it parsed. The directory is joined as it is
written, although its trimmed text was the one validated. -/
def ensureArtifact (tree : FileTree) (deploymentDir : Path) (manifest : OutputManifest) : Except String ResolvedTarget :=
  match validateManifest tree deploymentDir manifest with
  | .error error => .error ("invalid output manifest: " ++ error.message)
  | .ok () =>
    if manifest.runtime.kind = "ssr" then
      match manifest.server with
      | none => .error "ssr manifest has no server section"
      | some server => .ok (.ssr deploymentDir server)
    else
      match manifest.staticSite with
      | none => .error "manifest has no static section"
      | some staticSite =>
        let notFound := trim staticSite.notFound.toList
        .ok (.static (push deploymentDir staticSite.directory.toList) staticSite.spaFallback
          (if notFound.isEmpty then none else some notFound))

theorem safe_of_validateStatic {tree : FileTree} {outputRoot : Path} {staticSite : StaticSection}
    (ok : validateStatic tree outputRoot staticSite = .ok ()) :
    hasUnsafeComponents (trim staticSite.directory.toList) = false := by
  unfold validateStatic at ok
  by_contra found
  rw [Bool.not_eq_false] at found
  simp only [found,if_true] at ok
  cases ok

theorem validateManifest_static {tree : FileTree} {outputRoot : Path} {manifest : OutputManifest}
    (ok : validateManifest tree outputRoot manifest = .ok ()) (static : manifest.runtime.kind ≠ "ssr") :
    ∃ staticSite, manifest.staticSite = some staticSite ∧ validateStatic tree outputRoot staticSite = .ok () := by
  unfold validateManifest at ok
  split at ok
  · cases ok
  · split at ok
    · cases site : manifest.staticSite with
      | none => rw [site] at ok; cases ok
      | some staticSite => rw [site] at ok; exact ⟨staticSite,rfl,ok⟩
    · rename_i kind
      exact absurd kind static
    all_goals cases ok

/-- A static target is a directory named in the manifest, joined to the deployment's directory. -/
theorem ensureArtifact_static {tree : FileTree} {deploymentDir staticDir : Path} {manifest : OutputManifest}
    {spaFallback : Bool} {notFound : Option (List Char)}
    (ok : ensureArtifact tree deploymentDir manifest = .ok (.static staticDir spaFallback notFound)) :
    ∃ staticSite, manifest.staticSite = some staticSite ∧ validateStatic tree deploymentDir staticSite = .ok () ∧
      staticDir = push deploymentDir staticSite.directory.toList := by
  unfold ensureArtifact at ok
  split at ok
  · cases ok
  · rename_i valid
    split at ok
    · cases server : manifest.server with
      | none => rw [server] at ok; cases ok
      | some server' => rw [server] at ok; cases ok
    · rename_i static
      obtain ⟨staticSite,found,validated⟩ := validateManifest_static valid static
      rw [found] at ok
      cases ok
      exact ⟨staticSite,found,validated,rfl⟩

theorem static_nonempty {tree : FileTree} {deploymentDir staticDir : Path} {manifest : OutputManifest}
    {spaFallback : Bool} {notFound : Option (List Char)}
    (ok : ensureArtifact tree deploymentDir manifest = .ok (.static staticDir spaFallback notFound)) : staticDir ≠ [] := by
  obtain ⟨staticSite,_,validated,rfl⟩ := ensureArtifact_static ok
  have safe := safe_of_validateStatic validated
  have named : staticSite.directory.toList ≠ [] := by
    intro blank
    rw [blank] at safe
    cases safe
  unfold push
  split
  · exact named
  · split <;> simp [named]

end GrassWorker.Manifest
