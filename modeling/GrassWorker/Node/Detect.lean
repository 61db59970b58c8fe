import GrassWorker.Foundations.FileOperations
import GrassWorker.Validator
import Mathlib.Data.List.Infix

/-! Which framework a project uses, from its dependencies and its configuration files. -/
namespace GrassWorker.Detect
open UnixPath Files

inductive Framework
  | vite | next | nuxt | svelteKit | remix | reactRouter | astro | unknown
deriving DecidableEq, Repr

def Framework.name : Framework → String
  | .vite => "vite"
  | .next => "next"
  | .nuxt => "nuxt"
  | .svelteKit => "sveltekit"
  | .remix => "remix"
  | .reactRouter => "react-router"
  | .astro => "astro"
  | .unknown => "unknown"

structure Detection where
  framework : Framework
  frameworkVersion : List Char := []
  staticSignal : Option Bool := none
deriving DecidableEq

structure PackageJson where
  dependencies : List (String × List Char) := []
  devDependencies : List (String × List Char) := []

def PackageJson.versionOf (package : PackageJson) (name : String) : Option (List Char) :=
  match package.dependencies.lookup name with
  | some version => some version
  | none => package.devDependencies.lookup name

def maxConfigBytes : Nat := 1024 * 1024

def readConfig (fs : FileSystem) (path : Path) : Option (List Char) :=
  match fs.read (components path) with
  | .error _ => none
  | .ok content =>
    if maxConfigBytes < content.length then none
    else (ByteArray.mk content.toArray).utf8Decode?.map Array.toList

def readConfigContaining (fs : FileSystem) (root : Path) (names : List String) : List Char :=
  names.flatMap fun name =>
    match readConfig fs (push root name.toList) with
    | some content => content ++ ['\n']
    | none => []

def contains (config : List Char) (needle : String) : Bool := needle.toList <:+: config

section Detect
variable (fromStr : List Char → Option PackageJson) (fs : FileSystem) (root : Path)

def nextSignal (config : List Char) : Option Bool :=
  if contains config "export" && contains config "output" then
    some (contains config "\"export\"" || contains config "'export'")
  else none

def nuxtSignal (config : List Char) : Option Bool :=
  if contains config "ssr" then some (contains config "ssr: false" || contains config "ssr:false") else none

def svelteSignal (package : PackageJson) (config : List Char) : Option Bool :=
  if (package.versionOf "@sveltejs/adapter-static").isSome || contains config "adapter-static" then some true
  else if (package.versionOf "@sveltejs/adapter-node").isSome || contains config "adapter-node" then some false
  else none

def astroSignal (config : List Char) : Option Bool :=
  if contains config "output" then some (contains config "\"static\"" || contains config "'static'") else some true

/-- Meta-frameworks come before the bundlers they use. `fromStr` is the JSON library. -/
def detect : Detection :=
  let package := ((readConfig fs (push root "package.json".toList)).bind fromStr).getD {}
  match package.versionOf "next" with
  | some version =>
    let config := readConfigContaining fs root ["next.config.js","next.config.mjs","next.config.ts"]
    { framework := .next, frameworkVersion := version, staticSignal := nextSignal config }
  | none =>
  match package.versionOf "nuxt" with
  | some version =>
    let config := readConfigContaining fs root ["nuxt.config.js","nuxt.config.ts"]
    { framework := .nuxt, frameworkVersion := version, staticSignal := nuxtSignal config }
  | none =>
  match package.versionOf "@sveltejs/kit" with
  | some version =>
    let config := readConfigContaining fs root ["svelte.config.js","svelte.config.ts"]
    { framework := .svelteKit, frameworkVersion := version, staticSignal := svelteSignal package config }
  | none =>
  match (package.versionOf "@remix-run/node").or (package.versionOf "@remix-run/dev") with
  | some version => { framework := .remix, frameworkVersion := version }
  | none =>
  match (package.versionOf "@react-router/node").or (package.versionOf "@react-router/dev") with
  | some version => { framework := .reactRouter, frameworkVersion := version }
  | none =>
  match package.versionOf "astro" with
  | some version =>
    let config := readConfigContaining fs root ["astro.config.mjs","astro.config.ts"]
    { framework := .astro, frameworkVersion := version, staticSignal := astroSignal config }
  | none =>
  match package.versionOf "vite" with
  | some version => { framework := .vite, frameworkVersion := version, staticSignal := some true }
  | none => { framework := .unknown }

end Detect

end GrassWorker.Detect
