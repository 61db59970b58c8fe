import GrassWorker.Foundations.FileSystem
import Mathlib.Logic.Basic

/-! How the system follows a path: component after component, through symbolic links until
too many were followed. What is added later does not change where a path leads. -/
namespace GrassWorker.Files
open UnixPath

inductive IoError
  | notFound | notADirectory | isADirectory | alreadyExists | tooManyLinks | invalidInput
  | other (message : String)
deriving DecidableEq

inductive Arrival
  | arrived (loc : Loc)
  | link (base : Loc) (rest : List Component)
  | failed (error : IoError)

namespace FileSystem
variable (fs : FileSystem)

def scan : Loc → List Component → Arrival
  | loc,[] => .arrived loc
  | _,.rootDir :: rest => scan [] rest
  | loc,.curDir :: rest => scan loc rest
  | loc,.parentDir :: rest => if fs.node loc = some .dir then scan loc.dropLast rest else .failed .notADirectory
  | loc,.normal name :: rest =>
    if fs.node loc ≠ some .dir then .failed .notADirectory
    else match fs.node (loc ++ [name]) with
      | none => .failed .notFound
      | some (.link target) => .link loc (components target ++ rest)
      | some _ => scan (loc ++ [name]) rest

def locateFrom : Nat → Loc → List Component → Except IoError (Nat × Loc)
  | 0,loc,path =>
    match fs.scan loc path with
    | .arrived loc => .ok (0,loc)
    | .link _ _ => .error .tooManyLinks
    | .failed error => .error error
  | links + 1,loc,path =>
    match fs.scan loc path with
    | .arrived loc => .ok (links + 1,loc)
    | .link base rest => locateFrom links base rest
    | .failed error => .error error

def maxLinks : Nat := 40

def locate (path : List Component) : Except IoError Loc := (fs.locateFrom maxLinks [] path).map Prod.snd

end FileSystem

section Append
variable {fs : FileSystem} {loc : Loc} {path rest : List Component} {links : Nat}

theorem scan_append : fs.scan loc (path ++ rest) =
    match fs.scan loc path with
    | .arrived loc => fs.scan loc rest
    | .link base left => .link base (left ++ rest)
    | .failed error => .failed error := by
  induction path generalizing loc with
  | nil => rfl
  | cons component path ih =>
    cases component with
    | rootDir => exact ih
    | curDir => exact ih
    | parentDir =>
      simp only [List.cons_append,FileSystem.scan]
      split
      · exact ih
      · rfl
    | normal name =>
      simp only [List.cons_append,FileSystem.scan]
      split
      · rfl
      · split
        · rfl
        · simp
        · exact ih

theorem locateFrom_append : fs.locateFrom links loc (path ++ rest) =
    (fs.locateFrom links loc path).bind fun found => fs.locateFrom found.1 found.2 rest := by
  induction links generalizing loc path with
  | zero =>
    simp only [FileSystem.locateFrom,scan_append]
    cases fs.scan loc path <;> rfl
  | succ links ih =>
    simp only [FileSystem.locateFrom,scan_append]
    cases fs.scan loc path with
    | arrived loc => rfl
    | link base left => exact ih
    | failed error => rfl

end Append

def Node.shape : Node → Node
  | .dir => .dir
  | .file _ => .file []
  | .link target => .link target

def Extends (fs after : FileSystem) : Prop :=
  ∀ loc node, fs.node loc = some node → (after.node loc).map Node.shape = some node.shape

namespace Extends
variable {fs after last : FileSystem} {loc : Loc} {path : List Component} {links : Nat}

theorem refl : Extends fs fs := by
  intro loc node found
  rw [found]
  rfl

theorem trans (first : Extends fs after) (second : Extends after last) : Extends fs last := by
  intro loc node found
  obtain ⟨kept,there,same⟩ := Option.map_eq_some_iff.mp (first loc node found)
  rw [← same]
  exact second loc kept there

theorem dir (extended : Extends fs after) (found : fs.node loc = some .dir) : after.node loc = some .dir := by
  obtain ⟨node,there,same⟩ := Option.map_eq_some_iff.mp (extended loc .dir found)
  cases node with
  | dir => exact there
  | file content => cases same
  | link target => cases same

theorem link {target : Path} (extended : Extends fs after) (found : fs.node loc = some (.link target)) :
    after.node loc = some (.link target) := by
  obtain ⟨node,there,same⟩ := Option.map_eq_some_iff.mp (extended loc (.link target) found)
  cases node with
  | dir => cases same
  | file content => cases same
  | link other =>
    cases same
    exact there

theorem file {content : Content} (extended : Extends fs after) (found : fs.node loc = some (.file content)) :
    ∃ now, after.node loc = some (.file now) := by
  obtain ⟨node,there,same⟩ := Option.map_eq_some_iff.mp (extended loc (.file content) found)
  cases node with
  | dir => cases same
  | file now => exact ⟨now,there⟩
  | link target => cases same

theorem scan (extended : Extends fs after) (led : ∀ error, fs.scan loc path ≠ .failed error) :
    after.scan loc path = fs.scan loc path := by
  induction path generalizing loc with
  | nil => rfl
  | cons component path ih =>
    cases component with
    | rootDir => exact ih led
    | curDir => exact ih led
    | parentDir =>
      simp only [FileSystem.scan] at led ⊢
      split at led
      · rename_i dir
        rw [if_pos dir,if_pos (extended.dir dir)]
        exact ih led
      · exact absurd rfl (led _)
    | normal name =>
      simp only [FileSystem.scan] at led ⊢
      split at led
      · exact absurd rfl (led _)
      · rename_i dir
        rw [if_neg dir,if_neg (by simpa using extended.dir (not_not.mp dir))]
        cases found : fs.node (loc ++ [name]) with
        | none =>
          simp only [found] at led
          exact absurd rfl (led _)
        | some node =>
          simp only [found] at led
          cases node with
          | dir =>
            rw [extended.dir found]
            exact ih led
          | file content =>
            obtain ⟨now,there⟩ := extended.file found
            rw [there]
            exact ih led
          | link target => rw [extended.link found]

theorem locateFrom (extended : Extends fs after) {found : Nat × Loc} (led : fs.locateFrom links loc path = .ok found) :
    after.locateFrom links loc path = .ok found := by
  induction links generalizing loc path with
  | zero =>
    simp only [FileSystem.locateFrom] at led ⊢
    cases first : fs.scan loc path with
    | arrived place => rwa [extended.scan (by simp [first]),first,← first]
    | link base rest =>
      simp only [first] at led
      cases led
    | failed error =>
      simp only [first] at led
      cases led
  | succ links ih =>
    simp only [FileSystem.locateFrom] at led ⊢
    cases first : fs.scan loc path with
    | arrived place =>
      rw [extended.scan (by simp [first]),first]
      rwa [first] at led
    | link base rest =>
      rw [extended.scan (by simp [first]),first]
      rw [first] at led
      exact ih led
    | failed error =>
      simp only [first] at led
      cases led

theorem locate (extended : Extends fs after) (led : fs.locate path = .ok loc) : after.locate path = .ok loc := by
  simp only [FileSystem.locate] at led ⊢
  cases found : fs.locateFrom FileSystem.maxLinks [] path with
  | error problem =>
    rw [found] at led
    cases led
  | ok pair =>
    rw [extended.locateFrom found]
    rwa [found] at led

end Extends

end GrassWorker.Files
