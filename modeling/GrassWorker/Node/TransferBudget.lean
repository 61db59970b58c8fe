import GrassWorker.Foundations.Contracts
import GrassWorker.Foundations.Decimal
import GrassWorker.Foundations.UnixPath
import Mathlib.Algebra.GroupWithZero.Nat
import Mathlib.Data.List.DropRight

/-! What the archives that a build container gives back may take up, over all the paths that are exported of one build.
The tar library is a parameter. -/
namespace GrassWorker.ContainerArchive
open UnixPath Contracts

structure Limits where
  entries : UInt64
  entryBytes : UInt64
  contentBytes : UInt64
  wireBytes : UInt64
deriving DecidableEq

def limits : Limits where
  entries := 50000
  entryBytes := 2 * 1024 * 1024 * 1024
  contentBytes := 4 * 1024 * 1024 * 1024
  wireBytes := 4 * 1024 * 1024 * 1024 + 64 * 1024 * 1024

def maxMetadataBytes : UInt64 := 64 * 1024

def maxNameBytes : UInt64 := 16 * 1024 * 1024

structure Budget where
  limits : Limits
  entries : UInt64 := 0
  content : UInt64 := 0
  wire : UInt64 := 0
  names : UInt64 := 0
deriving DecidableEq

inductive Failure
  | io (message : String)
  | runtime (context message : String)
  | canceled
  | timeout (seconds : Nat)
deriving DecidableEq

/-- How a computation ends early: it fails, or an addition does not fit its type. -/
inductive Stop
  | failure (failure : Failure)
  | overflow
deriving DecidableEq

def exceeded : Failure := .io "container archive exceeds its resource budget"

/-- What the library holds in memory: no slice is longer than `isize::MAX`. -/
abbrev Bytes := { bytes : List UInt8 // bytes.length < 2 ^ 63 }

def Bytes.size (bytes : Bytes) : UInt64 := UInt64.ofNat bytes.val.length

def saturatingSub (a b : UInt64) : UInt64 := if b ≤ a then a - b else 0

abbrev Spending := EStateM Stop Budget

def fail {σ α : Type} (failure : Failure) : EStateM Stop σ α := throw (.failure failure)

def add (a b : UInt64) : Spending UInt64 :=
  if a.toNat + b.toNat < UInt64.size then pure (a + b) else throw .overflow

namespace Budget

def entry (bytes : UInt64) : Spending Unit := do
  let budget ← get
  if budget.limits.entries ≤ budget.entries ∨ budget.limits.entryBytes < bytes ∨
      saturatingSub budget.limits.contentBytes budget.content < bytes then fail exceeded
  else
    let entries ← add budget.entries 1
    let content ← add budget.content bytes
    set { budget with entries, content }

def addNames (bytes : UInt64) : Spending Unit := do
  let budget ← get
  if saturatingSub maxNameBytes budget.names < bytes then fail exceeded
  else
    let names ← add budget.names bytes
    set { budget with names }

def addWire (bytes : UInt64) : Spending Unit := do
  let budget ← get
  if saturatingSub budget.limits.wireBytes budget.wire < bytes then fail exceeded
  else
    let wire ← add budget.wire bytes
    set { budget with wire }

end Budget

/-! The archive as it is received, and its headers before the library reads them. -/

inductive Chunk
  | bytes (chunk : Bytes)
  | serverError (statusCode : Nat)
  | failed (failure : Failure)

/-- The bytes that were received so far, or nothing once the path is known not to exist. -/
def takeChunk : Option (List UInt8) → Chunk → Spending (Option (List UInt8))
  | none,_ => pure none
  | some received,.bytes chunk => do
    Budget.addWire chunk.size
    return some (received ++ chunk.val)
  | some received,.serverError code =>
    if code = 404 ∧ received = [] then pure none else fail (.runtime "archive" ("docker error " ++ toString code))
  | some _,.failed failure => fail failure

def download (stream : List Chunk) : Spending (Option (List UInt8)) := do
  match ← stream.foldlM takeChunk (some []) with
  | none => return none
  | some received => if received = [] then fail (.runtime "archive" "empty export response") else return some received

inductive EntryType
  | regular | directory | symlink | hardLink
  | gnuLongName | gnuLongLink | paxLocalExtensions
  | other
deriving DecidableEq

structure PaxField where
  key : Option (List Char)
  value : Option (List Char)

structure RawEntry where
  kind : EntryType
  size : UInt64
  pathBytes : Bytes
  linkNameBytes : Option Bytes := none
  paxExtensions : Except Failure (Option (List (Except Failure PaxField))) := .ok none

def parseU64 (text : List Char) : Option UInt64 :=
  let digits := if text.head? = some '+' then text.tail else text
  (Decimal.parseDigits digits).bind fun n => if n < UInt64.size then some (UInt64.ofNat n) else none

def ofExcept {α : Type} : Except Failure α → Spending α
  | .ok value => pure value
  | .error failure => fail failure

def textOf : Option (List Char) → Spending (List Char)
  | some text => pure text
  | none => fail (.io "stream did not contain valid UTF-8")

def readField (paxSize : Option UInt64) (field : Except Failure PaxField) : Spending (Option UInt64) := do
  let field ← ofExcept field
  let key ← textOf field.key
  if "GNU.sparse".toList.isPrefixOf key then fail (.io "sparse export metadata is unsupported")
  else if key = "size".toList then
    match parseU64 (← textOf field.value) with
    | some size => return some size
    | none => fail (.io "invalid digit found in string")
  else return paxSize

def EntryType.isExtension (kind : EntryType) : Bool := kind = .gnuLongName || kind = .gnuLongLink || kind = .paxLocalExtensions

def preflightEntry (paxSize : Option UInt64) (entry : Except Failure RawEntry) : Spending (Option UInt64) := do
  let entry ← ofExcept entry
  if entry.kind.isExtension then
    if maxMetadataBytes < entry.size then fail exceeded
    else
      Budget.entry 0
      Budget.addNames entry.size
      if entry.kind = .paxLocalExtensions then
        match ← ofExcept entry.paxExtensions with
        | some fields => fields.foldlM readField paxSize
        | none => return paxSize
      else return paxSize
  else if entry.kind = .other then fail (.io "unsupported export entry type")
  else if paxSize.any (· ≠ entry.size) then fail (.io "inconsistent PAX entry size")
  else
    let length ← add entry.pathBytes.size ((entry.linkNameBytes.map Bytes.size).getD 0)
    Budget.addNames length
    Budget.entry entry.size
    return none

/-! What unpacking leaves on the disk. -/

inductive Inode
  | directory | symlink
  | file (number : Nat)
deriving DecidableEq

/-- The entries below a directory, each with its path from there. A file with several names has several entries. -/
structure Disk where
  entries : List (List Component × Inode) := []
  length : Nat → UInt64 := fun _ => 0

def Disk.find (disk : Disk) (path : List Component) : Option Inode := disk.entries.lookup path

def Disk.bytes (disk : Disk) : Inode → Nat
  | .file number => (disk.length number).toNat
  | _ => 0

/-- The logical length of the regular files, each as often as it has a name. -/
def Disk.total (disk : Disk) : Nat := (disk.entries.map fun entry => disk.bytes entry.2).sum

/-- The archive the received bytes are, as the two passes see it. What interrupts a pass is an entry of its own. -/
structure Archive where
  raw : List (Except Failure RawEntry)
  rewound : Except Failure Unit := .ok ()
  paths : List (Except Failure Path)

structure TarLibrary where
  read : List UInt8 → Archive
  /-- What becomes of the disk with an entry of the second pass; nothing where the entry leads out of the destination. -/
  unpackIn : Archive → Nat → Disk → Except Failure (Option Disk)

def preflight (archive : Archive) : Spending Unit := do
  let paxSize ← archive.raw.foldlM preflightEntry none
  if paxSize.isSome then fail (.io "orphaned PAX metadata") else ofExcept archive.rewound

section Unpack
variable (library : TarLibrary)

def unpackEntry (archive : Archive) (root : Path) (disk : Disk) (indexed : Except Failure Path × Nat) : Except Failure Disk := do
  let path ← indexed.1
  if ¬components root <+: components path then throw (.io "export entry is outside requested output")
  else
    match ← library.unpackIn archive indexed.2 disk with
    | none => throw (.io "export entry escapes destination")
    | some after => return after

/-- One entry that the walk of the destination comes to, unless something interrupts it. -/
def countFile (disk : Disk) (budget : Budget) (entry : (List Component × Inode) × Option Failure) : Spending Budget := do
  if let some failure := entry.2 then fail failure
  match entry.1.2 with
  | .file number =>
    let bytes := disk.length number
    if budget.limits.entryBytes < bytes ∨ saturatingSub budget.limits.contentBytes budget.content < bytes then fail exceeded
    else
      let content ← add budget.content bytes
      return { budget with content }
  | _ => return budget

def walked (disk : Disk) (interrupted : Nat → Option Failure) : List ((List Component × Inode) × Option Failure) :=
  disk.entries.zipIdx.map fun entry => (entry.1,interrupted entry.2)

def unpack (archive : Archive) (destination : Disk) (root : Path) (interrupted : Nat → Option Failure) :
    Spending (Budget × Disk) := do
  let contentBefore := (← get).content
  preflight archive
  let disk ← ofExcept (archive.paths.zipIdx.foldlM (unpackEntry library archive root) destination)
  match disk.find (components root) with
  | none => fail (.io "No such file or directory")
  | some .symlink => fail (.io "export root must not be a symbolic link")
  | some _ =>
    let budget ← (walked disk interrupted).foldlM (countFile disk) { (← get) with content := contentBefore }
    return (budget,disk)

/-! The budget over the paths that are exported of a build. -/

structure Session where
  budget : Budget
  exported : List Disk := []

abbrev Exporting := EStateM Stop Session

def spend {α : Type} (spending : Spending α) : Exporting α := fun session =>
  match spending session.budget with
  | .ok value budget => .ok value { session with budget }
  | .error stop budget => .error stop { session with budget }

inductive Step
  | download (stream : List Chunk)
  | preflight (archive : Archive)
  | unpack (archive : Archive) (destination : Disk) (root : Path) (interrupted : Nat → Option Failure)

def step : Step → Exporting Unit
  | .download stream => do
    let _ ← spend (download stream)
  | .preflight archive => spend (preflight archive)
  | .unpack archive destination root interrupted => fun session =>
    match unpack library archive destination root interrupted session.budget with
    | .ok (budget,disk) _ => .ok () { budget, exported := disk :: session.exported }
    | .error stop _ => .error stop session

def leftBy (session : Session) (next : Step) : Session :=
  match step library next session with
  | .ok _ after => after
  | .error _ after => after

structure Given where
  stream : List Chunk
  staging : Except Failure Unit := .ok ()
  interrupted : Nat → Option Failure := fun _ => none
  installed : Except Failure Unit := .ok ()

def trimMatches (c : Char) (text : List Char) : List Char := (text.dropWhile (· = c)).rdropWhile (· = c)

def fileName (path : Path) : Option (List Char) :=
  match (components path).getLast? with
  | some (.normal name) => some name
  | _ => none

local instance lawfulPath : LawfulBEq (List Char) := inferInstance

def exportPath (request : Path × Given) : Exporting Unit := do
  let relative := trimMatches '/' request.1
  if relative = [] ∨ ['.','.'] ∈ relative.splitOn '/' ∨ ['.'] ∈ relative.splitOn '/' then
    fail (.runtime "export path" "unsafe output path")
  else
    match ← spend (download request.2.stream) with
    | none => return
    | some received =>
      match fileName relative with
      | none => fail (.runtime "export path" "invalid output name")
      | some root =>
        spend (ofExcept request.2.staging)
        step library (.unpack (library.read received) {} root request.2.interrupted)
        spend (ofExcept request.2.installed)

def exportAll (requests : List (Path × Given)) : Exporting Unit :=
  requests.foldlM (fun _ request => exportPath library request) ()

end Unpack

/-! No counter passes its limit. -/

structure Budget.Within (budget : Budget) : Prop where
  entries : budget.entries ≤ budget.limits.entries
  content : budget.content ≤ budget.limits.contentBytes
  wire : budget.wire ≤ budget.limits.wireBytes
  names : budget.names ≤ maxNameBytes

/-- Within its limits, which are the given ones, with at least so much content. -/
structure Sound (limits : Limits) (floor : Nat) (budget : Budget) : Prop extends budget.Within where
  same : budget.limits = limits
  least : floor ≤ budget.content.toNat

def Regular (stop : Stop) : Prop := stop ≠ .overflow

section Sound
variable {limits : Limits} {floor : Nat} {budget : Budget}

theorem le_of_saturatingSub {a b c : UInt64} (within : b ≤ a) (small : ¬saturatingSub a b < c) : b.toNat + c.toNat ≤ a.toNat := by
  rw [saturatingSub,if_pos within,UInt64.lt_iff_toNat_lt,UInt64.toNat_sub_of_le _ _ within] at small
  rw [UInt64.le_iff_toNat_le] at within
  omega

theorem fits_of_le {a b c : UInt64} (small : a.toNat + b.toNat ≤ c.toNat) : a.toNat + b.toNat < UInt64.size :=
  lt_of_le_of_lt small c.toNat_lt

theorem add_fits {a b : UInt64} (fits : a.toNat + b.toNat < UInt64.size) : add a b = pure (a + b) := if_pos fits

theorem toNat_add_of_fits {a b : UInt64} (fits : a.toNat + b.toNat < UInt64.size) : (a + b).toNat = a.toNat + b.toNat := by
  rw [UInt64.toNat_add]
  exact Nat.mod_eq_of_lt fits

theorem add_le {a b c : UInt64} (small : a.toNat + b.toNat ≤ c.toNat) : a + b ≤ c := by
  rw [UInt64.le_iff_toNat_le,toNat_add_of_fits (fits_of_le small)]
  exact small

theorem get_bind {α : Type} (next : Budget → Spending α) : (get >>= next) budget = next budget budget := rfl

theorem add_bind {α : Type} {a b c : UInt64} (small : a.toNat + b.toNat ≤ c.toNat) (next : UInt64 → Spending α) :
    (add a b >>= next) budget = next (a + b) budget := by
  rw [add_fits (fits_of_le small)]
  rfl

theorem entry_sound (bytes : UInt64) : Upholds (Sound limits floor) Regular (Budget.entry bytes) := by
  intro budget sound
  rw [Budget.entry,get_bind]
  split
  · exact ⟨sound,by simp [Regular,exceeded]⟩
  · rename_i small
    simp only [not_or,UInt64.not_le] at small
    obtain ⟨room,_,enough⟩ := small
    have counted : budget.entries.toNat + (1 : UInt64).toNat ≤ budget.limits.entries.toNat := by
      rw [UInt64.lt_iff_toNat_lt] at room
      exact room
    have held := le_of_saturatingSub sound.content enough
    rw [add_bind counted,add_bind held]
    refine ⟨⟨add_le counted,add_le held,sound.wire,sound.names⟩,sound.same,?_⟩
    change floor ≤ (budget.content + bytes).toNat
    rw [toNat_add_of_fits (fits_of_le held)]
    exact sound.least.trans (Nat.le_add_right ..)

theorem addNames_sound (bytes : UInt64) : Upholds (Sound limits floor) Regular (Budget.addNames bytes) := by
  intro budget sound
  rw [Budget.addNames,get_bind]
  split
  · exact ⟨sound,by simp [Regular,exceeded]⟩
  · rename_i enough
    have held := le_of_saturatingSub sound.names enough
    rw [add_bind held]
    exact ⟨⟨sound.entries,sound.content,sound.wire,add_le held⟩,sound.same,sound.least⟩

theorem addWire_sound (bytes : UInt64) : Upholds (Sound limits floor) Regular (Budget.addWire bytes) := by
  intro budget sound
  rw [Budget.addWire,get_bind]
  split
  · exact ⟨sound,by simp [Regular,exceeded]⟩
  · rename_i enough
    have held := le_of_saturatingSub sound.wire enough
    rw [add_bind held]
    exact ⟨⟨sound.entries,sound.content,add_le held,sound.names⟩,sound.same,sound.least⟩

theorem add_upholds {a b : UInt64} (fits : a.toNat + b.toNat < UInt64.size) : Upholds (Sound limits floor) Regular (add a b) := by
  rw [add_fits fits]
  exact .pure _

theorem fail_upholds {α : Type} (failure : Failure) : Upholds (Sound limits floor) Regular (fail failure : Spending α) :=
  .throw (by simp [Regular])

theorem ofExcept_upholds {α : Type} (result : Except Failure α) : Upholds (Sound limits floor) Regular (ofExcept result) := by
  cases result with
  | ok value => exact .pure value
  | error failure => exact fail_upholds failure

theorem takeChunk_sound (received : Option (List UInt8)) (chunk : Chunk) :
    Upholds (Sound limits floor) Regular (takeChunk received chunk) := by
  cases received with
  | none => exact .pure none
  | some received =>
    cases chunk with
    | bytes chunk => exact (addWire_sound chunk.size).bind fun _ => .pure _
    | serverError code => exact .ite (.pure none) (fail_upholds _)
    | failed failure => exact fail_upholds failure

theorem download_sound (stream : List Chunk) : Upholds (Sound limits floor) Regular (download stream) := by
  refine (Upholds.foldlM takeChunk_sound _ stream).bind fun result => ?_
  cases result with
  | none => exact .pure none
  | some received => exact .ite (fail_upholds _) (.pure _)

theorem textOf_upholds (text : Option (List Char)) : Upholds (Sound limits floor) Regular (textOf text) := by
  cases text with
  | none => exact fail_upholds _
  | some text => exact .pure text

theorem readField_sound (paxSize : Option UInt64) (field : Except Failure PaxField) :
    Upholds (Sound limits floor) Regular (readField paxSize field) := by
  refine (ofExcept_upholds field).bind fun field => (textOf_upholds field.key).bind fun key => .ite (fail_upholds _) (.ite ?_ (.pure _))
  refine (textOf_upholds field.value).bind fun value => ?_
  split
  · exact .pure _
  · exact fail_upholds _

theorem toNat_size (bytes : Bytes) : bytes.size.toNat = bytes.val.length :=
  UInt64.toNat_ofNat_of_lt' (bytes.property.trans (by decide))

theorem lengths_fit (path : Bytes) (link : Option Bytes) :
    path.size.toNat + ((link.map Bytes.size).getD 0).toNat < UInt64.size := by
  have half : UInt64.size = 2 ^ 63 + 2 ^ 63 := rfl
  have first := path.property
  cases link with
  | none =>
    change path.size.toNat + 0 < _
    rw [toNat_size]
    omega
  | some link =>
    have second := link.property
    change path.size.toNat + link.size.toNat < _
    rw [toNat_size,toNat_size]
    omega

theorem preflightEntry_sound (paxSize : Option UInt64) (entry : Except Failure RawEntry) :
    Upholds (Sound limits floor) Regular (preflightEntry paxSize entry) := by
  refine (ofExcept_upholds entry).bind fun entry => .ite ?_ (.ite (fail_upholds _) (.ite (fail_upholds _) ?_))
  · refine .ite (fail_upholds _) ?_
    refine (entry_sound 0).bind fun _ => (addNames_sound entry.size).bind fun _ => .ite ?_ (.pure _)
    refine (ofExcept_upholds entry.paxExtensions).bind fun fields => ?_
    cases fields with
    | none => exact .pure _
    | some fields => exact .foldlM readField_sound paxSize fields
  · refine (add_upholds (lengths_fit entry.pathBytes entry.linkNameBytes)).bind fun length => ?_
    exact (addNames_sound length).bind fun _ => (entry_sound entry.size).bind fun _ => .pure _

theorem preflight_sound (archive : Archive) : Upholds (Sound limits floor) Regular (preflight archive) := by
  refine (Upholds.foldlM preflightEntry_sound none archive.raw).bind fun paxSize => ?_
  exact .ite (fail_upholds _) (ofExcept_upholds _)

structure Counted (limits : Limits) (disk : Disk) (before : Nat) (seen : List ((List Component × Inode) × Option Failure))
    (budget : Budget) : Prop extends budget.Within where
  same : budget.limits = limits
  exact : budget.content.toNat = before + (seen.map fun entry => disk.bytes entry.1.2).sum

theorem countFile_counted {disk : Disk} {before : Nat} {seen : List ((List Component × Inode) × Option Failure)} {value : Budget}
    (next : (List Component × Inode) × Option Failure) (counted : Counted limits disk before seen value) (state : Budget) :
    Ends (countFile disk value next state) (fun after _ => Counted limits disk before (seen ++ [next]) after)
      fun stop _ => Regular stop := by
  obtain ⟨⟨path,inode⟩,interruption⟩ := next
  cases interruption with
  | some failure => exact fun same => by cases same
  | none =>
    have none_more : disk.bytes inode = 0 → Counted limits disk before (seen ++ [((path,inode),none)]) value := fun nothing =>
      ⟨counted.toWithin,counted.same,by simp [counted.exact,nothing]⟩
    cases inode with
    | directory => exact none_more rfl
    | symlink => exact none_more rfl
    | file number =>
      change Ends ((if value.limits.entryBytes < disk.length number ∨
        saturatingSub value.limits.contentBytes value.content < disk.length number then fail exceeded
        else add value.content (disk.length number) >>= fun content => pure { value with content } : Spending Budget) state) _ _
      split
      · exact fun same => by cases same
      · rename_i small
        have held := le_of_saturatingSub counted.content fun less => small (.inr less)
        rw [add_bind held]
        refine ⟨⟨counted.entries,add_le held,counted.wire,counted.names⟩,counted.same,?_⟩
        change (value.content + disk.length number).toNat = _
        rw [toNat_add_of_fits (fits_of_le held),counted.exact]
        simp [Disk.bytes,Nat.add_assoc]

theorem total_walked (disk : Disk) (interrupted : Nat → Option Failure) :
    ((walked disk interrupted).map fun entry => disk.bytes entry.1.2).sum = disk.total := by
  rw [walked,List.map_map,Disk.total]
  congr 1
  calc (disk.entries.zipIdx.map ((fun entry => disk.bytes entry.1.2) ∘ fun entry => (entry.1,interrupted entry.2)))
      = (disk.entries.zipIdx.map Prod.fst).map fun entry => disk.bytes entry.2 := by
        rw [List.map_map]
        rfl
    _ = _ := by rw [List.zipIdx_map_fst]

theorem unpack_counts (library : TarLibrary) (archive : Archive) (destination : Disk) (root : Path)
    (interrupted : Nat → Option Failure) (sound : Sound limits floor budget) :
    Ends (unpack library archive destination root interrupted budget)
      (fun result _ => result.1.Within ∧ result.1.limits = limits ∧
        result.1.content.toNat = budget.content.toNat + result.2.total)
      fun stop _ => Regular stop := by
  rw [unpack,get_bind]
  refine Ends.bind (M := fun _ after => Sound limits floor after) ?_ ?_
  · exact (preflight_sound archive budget sound).mono (fun _ _ held => held) fun _ _ held => held.2
  intro _ _ sound'
  refine Ends.bind (M := fun _ after => Sound limits floor after) ?_ ?_
  · cases archive.paths.zipIdx.foldlM (unpackEntry library archive root) destination with
    | ok disk => exact sound'
    | error failure => exact fun same => by cases same
  intro disk checked sound'
  have counted : Ends (((walked disk interrupted).foldlM (countFile disk) { checked with content := budget.content } >>= fun after =>
      pure (after,disk) : Spending (Budget × Disk)) checked)
      (fun result _ => result.1.Within ∧ result.1.limits = limits ∧ result.1.content.toNat = budget.content.toNat + result.2.total)
      fun stop _ => Regular stop := by
    have least : budget.content ≤ checked.limits.contentBytes := by
      rw [sound'.same,← sound.same]
      exact sound.content
    have start : Counted limits disk budget.content.toNat [] { checked with content := budget.content } :=
      ⟨⟨sound'.entries,least,sound'.wire,sound'.names⟩,sound'.same,by simp⟩
    refine Ends.bind (Ends.foldlM (fun seen value _ => Counted limits disk budget.content.toNat seen value)
      (fun seen value next state held => countFile_counted next held state) [] start) ?_
    intro after _ held
    refine ⟨held.toWithin,held.same,?_⟩
    rw [← total_walked disk interrupted]
    exact held.exact
  cases disk.find (components root) with
  | none => exact fun same => by cases same
  | some inode =>
    cases inode with
    | symlink => exact fun same => by cases same
    | directory => exact counted
    | file number => exact counted

/-! What holds between the steps. -/

def Session.total (session : Session) : Nat := (session.exported.map Disk.total).sum

def Session.Kept (limits : Limits) (session : Session) : Prop := Sound limits session.total session.budget

def Session.new (limits : Limits) : Session := { budget := { limits } }

theorem Session.new_kept (limits : Limits) : (Session.new limits).Kept limits where
  entries := UInt64.zero_le
  content := UInt64.zero_le
  wire := UInt64.zero_le
  names := UInt64.zero_le
  same := rfl
  least := Nat.le_refl 0

theorem Session.Kept.total_le {session : Session} (kept : session.Kept limits) : session.total ≤ limits.contentBytes.toNat := by
  have counted := kept.content
  rw [UInt64.le_iff_toNat_le,kept.same] at counted
  exact kept.least.trans counted

theorem spend_kept {α : Type} {spending : Spending α} (sound : ∀ floor, Upholds (Sound limits floor) Regular spending) :
    Upholds (Session.Kept limits) Regular (spend spending) := by
  intro session kept
  have own := sound session.total session.budget kept
  unfold spend
  cases outcome : spending session.budget with
  | ok value after =>
    rw [outcome] at own
    exact own
  | error stop after =>
    rw [outcome] at own
    exact own

theorem step_kept (library : TarLibrary) (next : Step) : Upholds (Session.Kept limits) Regular (step library next) := by
  cases next with
  | download stream => exact (spend_kept fun _ => download_sound stream).bind fun _ => .pure ()
  | preflight archive => exact spend_kept fun _ => preflight_sound archive
  | unpack archive destination root interrupted =>
    intro session kept
    have own := unpack_counts library archive destination root interrupted kept
    simp only [step]
    cases outcome : unpack library archive destination root interrupted session.budget with
    | ok result after =>
      rw [outcome] at own
      obtain ⟨within,same,counted⟩ := own
      refine ⟨within,same,?_⟩
      have least := kept.least
      change result.2.total + session.total ≤ result.1.content.toNat
      omega
    | error stop after =>
      rw [outcome] at own
      exact ⟨kept,own⟩

theorem exportPath_kept (library : TarLibrary) (request : Path × Given) :
    Upholds (Session.Kept limits) Regular (exportPath library request) := by
  have failing : ∀ failure, Upholds (Session.Kept limits) Regular (fail failure : Exporting Unit) := fun failure =>
    .throw (by simp [Regular])
  refine .ite (failing _) ?_
  refine (spend_kept fun _ => download_sound request.2.stream).bind fun received => ?_
  cases received with
  | none => exact .pure ()
  | some received =>
    simp only
    cases fileName (trimMatches '/' request.1) with
    | none => exact failing _
    | some root =>
      refine (spend_kept fun _ => ofExcept_upholds _).bind fun _ => ?_
      refine (step_kept library _).bind fun _ => ?_
      exact spend_kept fun _ => ofExcept_upholds _

theorem exportAll_kept (library : TarLibrary) (requests : List (Path × Given)) :
    Upholds (Session.Kept limits) Regular (exportAll library requests) :=
  .foldlM (fun _ request => exportPath_kept library request) () requests

theorem leftBy_kept (library : TarLibrary) {session : Session} (next : Step) (kept : session.Kept limits) :
    (leftBy library session next).Kept limits := by
  have own := step_kept library next session kept
  unfold leftBy
  cases outcome : step library next session with
  | ok value after =>
    rw [outcome] at own
    exact own
  | error stop after =>
    rw [outcome] at own
    exact own.1

theorem run_kept (library : TarLibrary) (steps : List Step) {session : Session} (kept : session.Kept limits) :
    (steps.foldl (leftBy library) session).Kept limits := by
  induction steps generalizing session with
  | nil => exact kept
  | cons next steps ih => exact ih (leftBy_kept library next kept)

end Sound

/-- What a session has taken of its limits, and what all the files that it has unpacked come to. -/
structure Session.InBudget (limits : Limits) (session : Session) : Prop where
  entries : session.budget.entries ≤ limits.entries
  content : session.budget.content ≤ limits.contentBytes
  wire : session.budget.wire ≤ limits.wireBytes
  names : session.budget.names ≤ maxNameBytes
  exported : session.total ≤ limits.contentBytes.toNat

theorem Session.Kept.inBudget {limits : Limits} {session : Session} (kept : session.Kept limits) : session.InBudget limits where
  entries := kept.same ▸ kept.entries
  content := kept.same ▸ kept.content
  wire := kept.same ▸ kept.wire
  names := kept.names
  exported := kept.total_le

/-- Any steps on one budget, also after steps that failed, and any export of a build. -/
theorem transfers_in_budget (library : TarLibrary) (limits : Limits) :
    (∀ (steps : List Step) (next : Step),
      ((steps.foldl (leftBy library) (Session.new limits)).InBudget limits) ∧
      Ends (step library next (steps.foldl (leftBy library) (Session.new limits)))
        (fun _ after => after.InBudget limits) fun stop _ => stop ≠ .overflow) ∧
    ∀ requests : List (Path × Given),
      Ends (exportAll library requests (Session.new limits)) (fun _ after => after.InBudget limits)
        fun stop after => after.InBudget limits ∧ stop ≠ .overflow := by
  refine ⟨fun steps next => ?_,fun requests => ?_⟩
  · have kept := run_kept library steps (Session.new_kept limits)
    refine ⟨kept.inBudget,?_⟩
    exact (step_kept library next _ kept).mono (fun _ _ held => held.inBudget) fun _ _ held => held.2
  · exact (exportAll_kept library requests _ (Session.new_kept limits)).mono (fun _ _ held => held.inBudget)
      fun _ _ held => ⟨held.1.inBudget,held.2⟩

/-- All that a build exports comes to four GiB at most. -/
example (library : TarLibrary) (requests : List (Path × Given)) :
    Ends (exportAll library requests (Session.new limits)) (fun _ after => after.total ≤ 4 * 1024 ^ 3)
      fun _ after => after.total ≤ 4 * 1024 ^ 3 :=
  (exportAll_kept library requests _ (Session.new_kept limits)).mono (fun _ _ held => held.total_le) fun _ _ held => held.1.total_le

end GrassWorker.ContainerArchive
