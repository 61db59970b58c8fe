import GrassWorker.Node.Detect
import GrassWorker.Node.Manifest
import Mathlib.Data.List.Lex
import Mathlib.Data.List.Sort

/-! The output of a build: which directories of the project are published, and how they are
copied to `.grass/output`. Everything is decided before the first directory is changed. -/
namespace GrassWorker.BuildOutput
open UnixPath Files Manifest Detect Validator

inductive OutputError
  | customOutputUnsupported
  | runtimeNotImplemented (name : String)
  | unrecognized (message : String)
  | missingIndexHtml (directory : List Char)
  | io (error : IoError)
  | other (message : String)

inductive InspectedRuntime
  | static (directory : Path)
  | ssr | serverless | unknown
deriving DecidableEq

/-- When a copy runs out of time: before an entry, or after some bytes of it. -/
inductive Stop
  | before
  | within (bytes : Nat)

structure Environment where
  fromStr : List Char → Option PackageJson
  toToml : OutputManifest → Option (String × List Char) → Option (List Char) → Option (List Char) → Option Content
  sha256 : Content → List Char
  stops : List Component → Nat → Option Stop

def bytes (text : List Char) : Content := (String.ofList text).toUTF8.toList

def fileTree (fs : FileSystem) : FileTree where
  isDir := fun path => fs.isDir (components path)
  isFile := fun path => fs.isFile (components path)

/-- `path.join(name)`. -/
def join (path : Path) (name : String) : Path := push path name.toList

section Inspect
variable (tree : FileTree) (projectRoot : Path) (configured : Option (List Char)) (detection : Detection)

def serverBuilt : Bool :=
  tree.isDir (join projectRoot ".next/server") || tree.isDir (join projectRoot ".output/server") ||
    tree.isFile (join projectRoot "dist/server/entry.mjs") ||
    detection.framework = .svelteKit && detection.staticSignal = some false ||
    (detection.framework = .remix || detection.framework = .reactRouter) &&
      (tree.isFile (join projectRoot "build/server/index.js") || tree.isFile (join projectRoot "build/index.js"))

def staticCandidates : Framework → List String
  | .next => ["out"]
  | .nuxt => [".output/public","dist"]
  | .svelteKit => ["build"]
  | .remix | .reactRouter => ["build"]
  | .astro => ["dist"]
  | .vite => ["dist"]
  | .unknown => ["dist","build","out","public","_site"]

def candidates : List Path :=
  ((configured.map trim).filter (· ≠ [])).toList ++ (staticCandidates detection.framework).map String.toList

def staticDirectory : Option Path :=
  (candidates configured detection).findSome? fun candidate =>
    let path := push projectRoot candidate
    if tree.isDir path && tree.isFile (join path "index.html") then some path else none

def inspectBuildOutput : InspectedRuntime :=
  if tree.isDir (join projectRoot ".vercel/output/functions") then .serverless
  else match staticDirectory tree projectRoot configured detection with
    | some directory =>
      if serverBuilt tree projectRoot detection && detection.staticSignal ≠ some true then .ssr else .static directory
    | none => if serverBuilt tree projectRoot detection then .ssr else .unknown

end Inspect

structure SsrLayout where
  serverRoot : Path
  /-- A source, and its destination below the output root. -/
  overlays : List (Path × Path) := []
  entry : List Char

/-- The first file of a name in the order of the walk, which takes siblings by name. -/
def findFile (fs : FileSystem) (root : Path) (name : String) (maxDepth : Nat) : Option Loc :=
  (((fs.filesUnder (components root)).map Prod.fst).filter fun names =>
    names.length ≤ maxDepth && names.getLast? = some name.toList).insertionSort (· ≤ ·) |>.head?

def beforeLastSlash (text : List Char) : Option (List Char) :=
  if '/' ∈ text then some (text.rdropWhile (· ≠ '/')).dropLast else none

def nextLayout (fs : FileSystem) (projectRoot : Path) : Except OutputError SsrLayout :=
  let standalone := join projectRoot ".next/standalone"
  if fs.isDir (components standalone) then
    match findFile fs standalone "server.js" 4 with
    | none => .error (.unrecognized ".next/standalone does not contain server.js")
    | some names =>
      let relative := (['/'].intercalate names).map fun c => if c = '\\' then '/' else c
      let appPrefix := match beforeLastSlash relative with
        | some before => "server/".toList ++ before
        | none => "server".toList
      .ok { serverRoot := standalone
            overlays := [(join projectRoot ".next/static",appPrefix ++ "/.next/static".toList),
              (join projectRoot "public",appPrefix ++ "/public".toList)]
            entry := "server/".toList ++ relative }
  else .error (.unrecognized
    "Next.js produced a server build without .next/standalone; set output: 'standalone' in next.config.js (or remove a conflicting output setting) and redeploy")

def remixLayout (tree : FileTree) (projectRoot : Path) : Except OutputError SsrLayout :=
  let overlays := ["public","build/client"].filterMap fun path =>
    if tree.isDir (join projectRoot path) then some (join projectRoot path,path.toList) else none
  if tree.isFile (join projectRoot "build/server/index.js") then
    .ok { serverRoot := join projectRoot "build", overlays, entry := "server/server/index.js".toList }
  else if tree.isFile (join projectRoot "build/index.js") then
    .ok { serverRoot := join projectRoot "build", overlays, entry := "server/index.js".toList }
  else .error (.unrecognized "SSR framework output is missing build/server/index.js or build/index.js")

def ssrLayout (fs : FileSystem) (projectRoot : Path) (detection : Detection) : Except OutputError SsrLayout :=
  let tree := fileTree fs
  match detection.framework with
  | .next => nextLayout fs projectRoot
  | .astro =>
    if tree.isFile (join projectRoot "dist/server/entry.mjs") then
      .ok { serverRoot := join projectRoot "dist"
            overlays := [(join projectRoot "node_modules","node_modules".toList)]
            entry := "server/server/entry.mjs".toList }
    else .error (.unrecognized
      "Astro produced a server build without dist/server/entry.mjs; use the @astrojs/node adapter in standalone mode")
  | .nuxt =>
    if tree.isFile (join projectRoot ".output/server/index.mjs") then
      .ok { serverRoot := join projectRoot ".output", entry := "server/server/index.mjs".toList }
    else .error (.unrecognized "Nuxt produced a server build without .output/server/index.mjs")
  | .svelteKit =>
    if tree.isFile (join projectRoot "build/index.js") then
      .ok { serverRoot := join projectRoot "build", entry := "server/index.js".toList }
    else .error (.unrecognized "SvelteKit adapter-node output is missing build/index.js")
  | .remix | .reactRouter => remixLayout tree projectRoot
  | .vite | .unknown => .error (.runtimeNotImplemented "This framework's SSR")

/-! Copying. -/
section Copy
variable (stops : Nat → Option Stop) (source target : List Component)

/-- An entry of a walk: its path below the source, and what the directory lists it as. -/
abbrev Entry := Loc × Files.Node

def copyBudget : IoError := .other "output copy exceeds its resource budget"

def fileLength : Files.Node → Nat
  | .file content => content.length
  | _ => 0

def copyContent (names : Loc) (stop : Option Stop) : Io Nat := do
  let content ← query (·.read (source ++ names.map .normal))
  match stop with
  | some (.within count) =>
    call (·.write (target ++ names.map .normal) (content.take count))
    throw copyBudget
  | _ =>
    call (·.write (target ++ names.map .normal) content)
    return content.length

def copyFile (names : Loc) (stop : Option Stop) (remaining : Nat) : Io Nat := do
  let length ← query fun fs => (fs.lstat (source ++ names.map .normal)).map fileLength
  if 2 * 1024 * 1024 * 1024 < length ∨ remaining < length then throw (.other "output file exceeds its resource budget")
  else
    createDirAll (target ++ names.dropLast.map .normal)
    let _opened ← query (·.read (source ++ names.map .normal))
    call (·.write (target ++ names.map .normal) [])
    let copied ← copyContent source target names stop
    return remaining - copied

def copyEntry (entry : Entry) (stop : Option Stop) (remaining : Nat) : Io Nat :=
  if entry.1 = [] then return remaining
  else match entry.2 with
    | .dir => do
      createDirAll (target ++ entry.1.map .normal)
      return remaining
    | .file _ => copyFile source target entry.1 stop remaining
    | .link _ => return remaining

def walkDir (entry : Entry) : Io (List Entry) := fun fs =>
  if entry.2 = .dir then
    query (fun fs => (fs.readDir (source ++ entry.1.map .normal)).map fun listed =>
      (listed.map fun child => (entry.1 ++ [child.1],child.2)).filter fun child =>
        ¬target <+: source ++ child.1.map .normal) fs
  else .ok [] fs

/-- `left` entries may still be copied. -/
def copyLoop : Nat → List Entry → Nat → Io Unit
  | _,[],_ => pure ()
  | 0,_ :: _,_ => throw copyBudget
  | left + 1,entry :: rest,remaining =>
    match stops left with
    | some .before => throw copyBudget
    | stop => do
      let remaining ← copyEntry source target entry stop remaining
      let listed ← walkDir source target entry
      copyLoop left (listed ++ rest) remaining

def copyDir : Io Unit := fun fs =>
  if target <+: source then .ok () fs
  else match fs.stat source with
    | .error error => .error error fs
    | .ok node => copyLoop stops source target 50000 [([],node)] (4 * 1024 * 1024 * 1024) fs

def overlayDir : Io Unit := do
  createDirAll target
  copyDir stops source target

def copyOverlay : Io Unit := fun fs => if fs.isDir source then overlayDir stops source target fs else .ok () fs

end Copy

/-- A directory that is published, and where below the output root. An overlay is left out if it is not there. -/
structure Copy where
  source : Path
  destination : Path
  overlay : Bool := false

structure OutputPlan where
  detection : Detection
  target : Path
  copies : List Copy
  runtimeKind : String
  spaFallback : Bool := false
  manifest : OutputManifest

section Plan
variable (env : Environment) (fs : FileSystem) (projectRoot : Path) (configured : Option (List Char))

def staticPlan (detection : Detection) (directory : Path) : Except OutputError OutputPlan :=
  if fs.isFile (components (join directory "index.html")) then
    let spaFallback := match detection.framework with
      | .nuxt => detection.staticSignal = some true
      | _ => fs.isFile (components (join directory "200.html"))
    .ok { detection, target := "static".toList, copies := [{ source := directory, destination := "static".toList }]
          runtimeKind := "static", spaFallback
          manifest := { version := outputApiVersion, runtime := ⟨"static"⟩
                        staticSite := some { directory := "static", spaFallback } } }
  else .error (.missingIndexHtml directory)

def ssrPlan (detection : Detection) : Except OutputError OutputPlan :=
  match ssrLayout fs projectRoot detection with
  | .error error => .error error
  | .ok layout =>
    .ok { detection, target := "server".toList, runtimeKind := "ssr"
          copies := { source := layout.serverRoot, destination := "server".toList } ::
            layout.overlays.map fun (source,destination) => { source, destination, overlay := true }
          manifest := { version := outputApiVersion, runtime := ⟨"ssr"⟩, server := some ⟨String.ofList layout.entry⟩ } }

def outputPlan : Except OutputError OutputPlan :=
  if fs.isFile (components (join projectRoot ".grass/output/output.toml")) then .error .customOutputUnsupported
  else
    let detection := detect env.fromStr fs projectRoot
    match inspectBuildOutput (fileTree fs) projectRoot configured detection with
    | .static directory => staticPlan fs detection directory
    | .ssr => ssrPlan fs projectRoot detection
    | .serverless => .error (.runtimeNotImplemented "Serverless")
    | .unknown => .error (.unrecognized "no static output directory with index.html was found")

end Plan

section Generate
variable (env : Environment) (outputRoot : Path)

def emptyOutput : Io Unit := fun fs =>
  if fs.exists' (components outputRoot) then call (·.removeDirAll (components outputRoot)) fs else .ok () fs

def copyInto (copy : Copy) : Io Unit :=
  let source := components copy.source
  let target := components (push outputRoot copy.destination)
  if copy.overlay then copyOverlay (env.stops source) source target else copyDir (env.stops source) source target

def copyAll : List Copy → Io Unit
  | [] => pure ()
  | copy :: rest => do
    copyInto env outputRoot copy
    copyAll rest

def checksumLines (fs : FileSystem) (staticDir : List Component) : List (List Char) :=
  "[files]".toList :: ((fs.filesUnder staticDir).insertionSort fun first second => first.1 ≤ second.1).map fun file =>
    '"' :: (['/'].intercalate file.1).map (fun c => if c = '\\' then '/' else c) ++ "\" = \"".toList ++
      env.sha256 file.2 ++ ['"']

def writeChecksums (staticDir destination : List Component) : Io Unit := call fun fs =>
  fs.write destination (bytes (['\n'].intercalate (checksumLines env fs staticDir) ++ ['\n']))

/-- The output root, without what was there, and the directory of the first copy. -/
def prepareOutput (target : Path) : Io Unit := do
  emptyOutput outputRoot
  createDirAll (components (push outputRoot target))

def writeMetadata : Io Unit := do
  createDirAll (components (join outputRoot "metadata"))
  writeChecksums env (components (join outputRoot "static")) (components (join (join outputRoot "metadata") "checksums.toml"))

def writeManifest (plan : OutputPlan) (manifest : Content) : Io Unit := do
  call (·.write (components (join outputRoot "output.toml")) manifest)
  if plan.runtimeKind = "static" then writeMetadata env outputRoot else pure ()

def writeOutput (plan : OutputPlan) (manifest : Option Content) : Io Unit := do
  prepareOutput outputRoot plan.target
  copyAll env outputRoot plan.copies
  match manifest with
  | none => throw (.other "manifest cannot be written as TOML")
  | some manifest => writeManifest env outputRoot plan manifest

end Generate

structure GeneratedOutput where
  outputRoot : Path
  frameworkName : String
  frameworkVersion : List Char
  spaFallback : Bool
  runtimeKind : String
deriving DecidableEq

def outputRootOf (projectRoot : Path) : Path := join projectRoot ".grass/output"

def frameworkSection (detection : Detection) : Option (String × List Char) :=
  if detection.framework = .unknown then none else some (detection.framework.name,detection.frameworkVersion)

def generateGrassOutput (env : Environment) (projectRoot : Path) (configured buildCommand : Option (List Char)) :
    EStateM OutputError FileSystem GeneratedOutput := fun fs =>
  match outputPlan env fs projectRoot configured with
  | .error error => .error error fs
  | .ok plan =>
    let outputRoot := outputRootOf projectRoot
    match writeOutput env outputRoot plan (env.toToml plan.manifest (frameworkSection plan.detection) buildCommand configured) fs with
    | .error error after => .error (.io error) after
    | .ok () after =>
      match validateManifest (fileTree after) outputRoot plan.manifest with
      | .error error => .error (.other error.message) after
      | .ok () => .ok
        { outputRoot, frameworkName := plan.detection.framework.name, frameworkVersion := plan.detection.frameworkVersion
          spaFallback := plan.spaFallback, runtimeKind := plan.runtimeKind } after

end GrassWorker.BuildOutput
