import GrassWorker.Archive

/-! What unpacking does to the disk, effect by effect. The size an entry claims need not be that of its content, and
what the container takes for a directory is up to it. -/
namespace GrassWorker.Unpacking
open UnixPath Files Validator Archive

structure Entry where
  name : List Char
  size : Nat
  content : Content
  directory : Bool
deriving DecidableEq

/-- One directory or file that is created, or one byte that is written for an entry. -/
inductive Effect
  | directory (path : List Component)
  | file (entry : Nat) (path : List Component)
  | byte (entry : Nat)
deriving DecidableEq

structure Disk where
  fs : FileSystem
  effects : List Effect := []

abbrev Traced := EStateM IoError Disk

/-- `create_dir_all`, the components from the last one to the first. -/
def createDirAllFrom : List Component → Traced Unit
  | [] => pure ()
  | last :: above => fun disk =>
    let path := above.reverse ++ [last]
    match disk.fs.mkdir path with
    | .ok after => .ok () ⟨after,disk.effects ++ [.directory path]⟩
    | .error .notFound =>
      match createDirAllFrom above disk with
      | .error error after => .error error after
      | .ok () after =>
        match after.fs.mkdir path with
        | .ok made => .ok () ⟨made,after.effects ++ [.directory path]⟩
        | .error error => if after.fs.isDir path then .ok () after else .error error after
    | .error error => if disk.fs.isDir path then .ok () disk else .error error disk

def createDirAll (path : List Component) : Traced Unit := createDirAllFrom path.reverse

/-- `File::create`, and the copy into the file. -/
def writeFile (index : Nat) (path : List Component) (content : Content) : Traced Unit := fun disk =>
  match disk.fs.write path content with
  | .ok after => .ok () ⟨after,disk.effects ++ .file index path :: List.replicate content.length (.byte index)⟩
  | .error error => .error error disk

section Unpack
variable (destination : List Component) (limits : UnpackLimits)

def unpackFile (index : Nat) (name : List Char) (content : Content) (safe : List Name) (done : UnpackedArchive) :
    Traced UnpackedArchive := do
  createDirAll (destination ++ safe.dropLast.map .normal)
  let remainingTotal := limits.totalBytes - done.unpackedSizeBytes
  let entryCap := min limits.entryBytes remainingTotal
  let written := content.take ((entryCap + 1) % UInt64.size)
  writeFile index (destination ++ safe.map .normal) written
  if limits.entryBytes < written.length then
    throw (.other ("archive entry " ++ String.ofList name ++ " exceeds the per-entry unpack size limit"))
  else if remainingTotal < written.length then throw (.other "archive exceeds the total unpack size limit")
  else return { fileCount := done.fileCount + 1, unpackedSizeBytes := done.unpackedSizeBytes + written.length }

def unpackEntry (done : UnpackedArchive) (indexed : Entry × Nat) : Traced UnpackedArchive :=
  let (entry,index) := indexed
  if entry.directory then
    match sanitizeEntryName (trimEnd '/' entry.name) with
    | .error error => throw error
    | .ok safe => do
      createDirAll (destination ++ safe.map .normal)
      return done
  else if limits.entryBytes < entry.size then
    throw (.other ("archive entry " ++ String.ofList entry.name ++ " exceeds the per-entry unpack size limit"))
  else if limits.totalBytes - done.unpackedSizeBytes < entry.size then
    throw (.other "archive exceeds the total unpack size limit")
  else
    match sanitizeEntryName entry.name with
    | .error error => throw error
    | .ok safe => unpackFile destination limits index entry.name entry.content safe done

def unpackZipReaderWithLimits (entries : List Entry) : Traced UnpackedArchive :=
  if limits.entries < entries.length then
    throw (.other ("archive has " ++ toString entries.length ++ " entries, exceeding the " ++ toString limits.entries ++
      " entry limit"))
  else do
    createDirAll destination
    entries.zipIdx.foldlM (unpackEntry destination limits) {}

end Unpack

/-! Counting effects. -/

def Effect.isByte : Effect → Bool
  | .byte _ => true
  | _ => false

def Effect.isFile : Effect → Bool
  | .file _ _ => true
  | _ => false

def bytes (effects : List Effect) : Nat := effects.countP Effect.isByte

def bytesOf (entry : Nat) (effects : List Effect) : Nat := effects.countP (· = .byte entry)

def filesIn (effects : List Effect) : Nat := effects.countP Effect.isFile

/-- A path of the destination and names below it, without a parent component. -/
def Under (destination path : List Component) : Prop :=
  ∃ names : List Name, (∀ name ∈ names, ValidName name) ∧ path = destination ++ names.map .normal

/-- What is created is under the destination, or is a directory on the way to it. -/
def Confined (destination : List Component) : Effect → Prop
  | .directory path => Under destination path ∨ path <+: destination
  | .file _ path => Under destination path
  | .byte _ => True

/-- Whatever becomes of a computation, it leaves the effects it found and then its own. -/
def Leaves {α : Type} (computation : Traced α) (disk : Disk) (post : Option α → List Effect → Prop) : Prop :=
  match computation disk with
  | .ok result after => ∃ own, after.effects = disk.effects ++ own ∧ post (some result) own
  | .error _ after => ∃ own, after.effects = disk.effects ++ own ∧ post none own

section Leaves
variable {α β : Type} {disk : Disk} {computation : Traced α} {next : α → Traced β}

theorem Leaves.mono {post post' : Option α → List Effect → Prop} (leaves : Leaves computation disk post)
    (weaker : ∀ result own, post result own → post' result own) : Leaves computation disk post' := by
  unfold Leaves at leaves ⊢
  cases outcome : computation disk with
  | ok result after =>
    rw [outcome] at leaves
    obtain ⟨own,same,held⟩ := leaves
    exact ⟨own,same,weaker _ _ held⟩
  | error error after =>
    rw [outcome] at leaves
    obtain ⟨own,same,held⟩ := leaves
    exact ⟨own,same,weaker _ _ held⟩

theorem leaves_pure {post : Option α → List Effect → Prop} {result : α} (held : post (some result) []) :
    Leaves (pure result) disk post := ⟨[],by simp,held⟩

theorem leaves_throw {post : Option α → List Effect → Prop} {error : IoError} (held : post none []) :
    Leaves (throw error) disk post := ⟨[],by simp,held⟩

theorem leaves_bind {post : Option β → List Effect → Prop} {middle : Option α → List Effect → Prop}
    (first : Leaves computation disk middle) (failed : ∀ own, middle none own → post none own)
    (goes : ∀ result own, middle (some result) own → ∀ disk', Leaves (next result) disk' fun result' own' => post result' (own ++ own')) :
    Leaves (computation >>= next) disk post := by
  unfold Leaves at first ⊢
  simp only [bind,EStateM.bind]
  cases outcome : computation disk with
  | error error after =>
    rw [outcome] at first
    obtain ⟨own,same,held⟩ := first
    exact ⟨own,same,failed own held⟩
  | ok result after =>
    rw [outcome] at first
    obtain ⟨own,same,held⟩ := first
    have later := goes result own held after
    unfold Leaves at later
    simp only
    cases rest : next result after with
    | ok result' last =>
      rw [rest] at later
      obtain ⟨own',same',held'⟩ := later
      exact ⟨own ++ own',by rw [same',same,List.append_assoc],held'⟩
    | error error last =>
      rw [rest] at later
      obtain ⟨own',same',held'⟩ := later
      exact ⟨own ++ own',by rw [same',same,List.append_assoc],held'⟩

end Leaves

theorem leaves_createDirAllFrom (reversed : List Component) (disk : Disk) :
    Leaves (createDirAllFrom reversed) disk fun _ own => ∀ effect ∈ own, ∃ path, effect = .directory path ∧ path <+: reversed.reverse := by
  induction reversed generalizing disk with
  | nil => exact leaves_pure fun _ impossible => absurd impossible List.not_mem_nil
  | cons last above ih =>
    have whole : above.reverse ++ [last] <+: (last :: above).reverse := by
      exact List.reverse_cons ▸ List.prefix_rfl
    have shorter : above.reverse <+: (last :: above).reverse := by
      rw [List.reverse_cons]
      exact List.prefix_append _ _
    have one : ∀ effect ∈ [Effect.directory (above.reverse ++ [last])], ∃ path, effect = .directory path ∧ path <+: (last :: above).reverse := by
      intro effect member
      exact ⟨_,List.mem_singleton.mp member,whole⟩
    have nothing : ∀ effect ∈ ([] : List Effect), ∃ path, effect = .directory path ∧ path <+: (last :: above).reverse :=
      fun _ impossible => absurd impossible List.not_mem_nil
    have before := ih disk
    unfold Leaves at before ⊢
    simp only [createDirAllFrom]
    cases disk.fs.mkdir (above.reverse ++ [last]) with
    | ok after => exact ⟨_,rfl,one⟩
    | error error =>
      cases error with
      | notFound =>
        simp only
        cases outcome : createDirAllFrom above disk with
        | error error after =>
          rw [outcome] at before
          obtain ⟨own,same,held⟩ := before
          refine ⟨own,same,fun effect member => ?_⟩
          obtain ⟨path,created,within⟩ := held effect member
          exact ⟨path,created,within.trans shorter⟩
        | ok _ after =>
          rw [outcome] at before
          obtain ⟨own,same,held⟩ := before
          have held' : ∀ effect ∈ own, ∃ path, effect = .directory path ∧ path <+: (last :: above).reverse := by
            intro effect member
            obtain ⟨path,created,within⟩ := held effect member
            exact ⟨path,created,within.trans shorter⟩
          simp only
          cases after.fs.mkdir (above.reverse ++ [last]) with
          | ok made =>
            refine ⟨own ++ [.directory (above.reverse ++ [last])],by simp only [same,List.append_assoc],fun effect member => ?_⟩
            exact (List.mem_append.mp member).elim (held' effect) (one effect)
          | error error =>
            simp only
            by_cases there : after.fs.isDir (above.reverse ++ [last])
            · rw [if_pos there]
              exact ⟨own,same,held'⟩
            · rw [if_neg there]
              exact ⟨own,same,held'⟩
      | _ =>
        simp only
        by_cases there : disk.fs.isDir (above.reverse ++ [last])
        · rw [if_pos there]
          exact ⟨[],by simp,nothing⟩
        · rw [if_neg there]
          exact ⟨[],by simp,nothing⟩

@[simp] theorem bytes_nil : bytes [] = 0 := rfl

@[simp] theorem bytes_append (first second : List Effect) : bytes (first ++ second) = bytes first + bytes second :=
  List.countP_append

@[simp] theorem bytesOf_append (entry : Nat) (first second : List Effect) :
    bytesOf entry (first ++ second) = bytesOf entry first + bytesOf entry second := List.countP_append

@[simp] theorem filesIn_append (first second : List Effect) : filesIn (first ++ second) = filesIn first + filesIn second :=
  List.countP_append

theorem counts_directories {own : List Effect} (directories : ∀ effect ∈ own, ∃ path, effect = .directory path) :
    bytes own = 0 ∧ filesIn own = 0 ∧ ∀ entry, bytesOf entry own = 0 := by
  refine ⟨List.countP_eq_zero.mpr ?_,List.countP_eq_zero.mpr ?_,fun entry => List.countP_eq_zero.mpr ?_⟩
  all_goals
    intro effect member
    obtain ⟨path,rfl⟩ := directories effect member
    simp [Effect.isByte,Effect.isFile]

theorem counts_file (index size : Nat) (path : List Component) :
    bytes (.file index path :: List.replicate size (.byte index)) = size ∧
      filesIn (.file index path :: List.replicate size (.byte index)) = 1 ∧
      ∀ entry, bytesOf entry (.file index path :: List.replicate size (.byte index)) = if index = entry then size else 0 := by
  refine ⟨?_,?_,fun entry => ?_⟩
  · simp [bytes,Effect.isByte,List.countP_replicate]
  · simp [filesIn,Effect.isFile,List.countP_cons,List.countP_replicate]
  · unfold bytesOf
    rw [List.countP_cons,List.countP_replicate]
    simp

theorem confined_below {destination path : List Component} {names : List Name} (valid : ∀ name ∈ names, ValidName name)
    (within : path <+: destination ++ names.map .normal) : Confined destination (.directory path) := by
  rcases List.prefix_or_prefix_of_prefix within (List.prefix_append destination _) with above | ⟨below,rfl⟩
  · exact .inr above
  · left
    obtain ⟨others,split⟩ := (List.prefix_append_right_inj destination).mp within
    have taken : below = (names.take below.length).map .normal := by
      rw [List.map_take,← split,List.take_left]
    refine ⟨names.take below.length,fun name member => valid name (List.mem_of_mem_take member),?_⟩
    rw [← taken]

theorem leaves_createDirAll (destination : List Component) {names : List Name} (valid : ∀ name ∈ names, ValidName name) (disk : Disk) :
    Leaves (createDirAll (destination ++ names.map .normal)) disk fun _ own =>
      (∀ effect ∈ own, Confined destination effect) ∧ bytes own = 0 ∧ filesIn own = 0 ∧ ∀ entry, bytesOf entry own = 0 := by
  refine (leaves_createDirAllFrom _ disk).mono fun _ own created => ⟨?_,counts_directories fun effect member => ?_⟩
  · intro effect member
    obtain ⟨path,rfl,within⟩ := created effect member
    rw [List.reverse_reverse] at within
    exact confined_below valid within
  · obtain ⟨path,same,_⟩ := created effect member
    exact ⟨path,same⟩

def Unwrapped (limits : UnpackLimits) : Prop := limits.entryBytes + 1 < UInt64.size ∨ limits.totalBytes + 1 < UInt64.size

def Entry.extracted (entry : Entry) : Nat := if entry.directory then 0 else entry.content.length

def Entry.files (entry : Entry) : Nat := if entry.directory then 0 else 1

section Rounds
variable (destination : List Component) (limits : UnpackLimits)

structure Round (indexed : Entry × Nat) (done : UnpackedArchive) (result : Option UnpackedArchive) (own : List Effect) : Prop where
  confined : ∀ effect ∈ own, Confined destination effect
  other : ∀ entry, entry ≠ indexed.2 → bytesOf entry own = 0
  whole : bytesOf indexed.2 own = bytes own
  each : bytes own ≤ limits.entryBytes + 1
  total : bytes own ≤ limits.totalBytes - done.unpackedSizeBytes + 1
  finished : ∀ after, result = some after → after.fileCount = done.fileCount + filesIn own ∧ filesIn own = indexed.1.files ∧
    after.unpackedSizeBytes = done.unpackedSizeBytes + bytes own ∧ bytes own ≤ limits.entryBytes ∧
    bytes own ≤ limits.totalBytes - done.unpackedSizeBytes ∧ (Unwrapped limits → bytes own = indexed.1.extracted)

variable {destination limits} {indexed : Entry × Nat} {done : UnpackedArchive}

theorem Round.still {result : Option UnpackedArchive} {own : List Effect} (confined : ∀ effect ∈ own, Confined destination effect)
    (none : bytes own = 0 ∧ filesIn own = 0 ∧ ∀ entry, bytesOf entry own = 0)
    (finished : ∀ after, result = some after → after = done ∧ indexed.1.directory) : Round destination limits indexed done result own where
  confined := confined
  other entry _ := none.2.2 entry
  whole := by rw [none.2.2,none.1]
  each := by omega
  total := by omega
  finished after same := by
    obtain ⟨rfl,directory⟩ := finished after same
    have size : indexed.1.extracted = 0 := if_pos directory
    have count : indexed.1.files = 0 := if_pos directory
    rw [none.1,none.2.1,size,count]
    exact ⟨rfl,rfl,rfl,Nat.zero_le _,Nat.zero_le _,fun _ => rfl⟩

theorem Round.nothing (indexed : Entry × Nat) (done : UnpackedArchive) : Round destination limits indexed done none [] :=
  .still (fun _ impossible => absurd impossible List.not_mem_nil) ⟨rfl,rfl,fun _ => rfl⟩ nofun

private theorem leaves_unpackFile {entry : Entry} {index : Nat} {safe : List Name} (plain : entry.directory = false)
    (valid : ∀ name ∈ safe, ValidName name) (disk : Disk) :
    Leaves (unpackFile destination limits index entry.name entry.content safe done) disk (Round destination limits (entry,index) done) := by
  unfold unpackFile
  have parents : ∀ name ∈ safe.dropLast, ValidName name := fun name member => valid name (List.dropLast_subset _ member)
  refine leaves_bind (leaves_createDirAll destination parents disk) (fun own made => .still made.1 made.2 nofun) ?_
  intro _ above made disk'
  simp only
  generalize cut : entry.content.take ((min limits.entryBytes (limits.totalBytes - done.unpackedSizeBytes) + 1) % UInt64.size) = written
  have most : written.length ≤ min limits.entryBytes (limits.totalBytes - done.unpackedSizeBytes) + 1 := by
    rw [← cut]
    exact (List.length_take_le _ _).trans (Nat.mod_le _ _)
  have entire : Unwrapped limits → written.length ≤ min limits.entryBytes (limits.totalBytes - done.unpackedSizeBytes) →
      written.length = entry.content.length := by
    intro unwrapped small
    have fits : min limits.entryBytes (limits.totalBytes - done.unpackedSizeBytes) + 1 < UInt64.size := by
      unfold Unwrapped at unwrapped
      omega
    rw [Nat.mod_eq_of_lt fits] at cut
    rw [← cut,List.length_take] at small ⊢
    omega
  have opened : Leaves (writeFile index (destination ++ safe.map .normal) written) disk' fun result own =>
      (result = none → own = []) ∧ (result.isSome → own = .file index (destination ++ safe.map .normal) :: List.replicate written.length (.byte index)) := by
    unfold Leaves writeFile
    cases disk'.fs.write (destination ++ safe.map .normal) written with
    | ok after => exact ⟨_,rfl,nofun,fun _ => rfl⟩
    | error error => exact ⟨[],by simp,fun _ => rfl,nofun⟩
  have counted := counts_file index written.length (destination ++ safe.map .normal)
  have round {result : Option UnpackedArchive} (finished : ∀ after, result = some after →
      after = { fileCount := done.fileCount + 1, unpackedSizeBytes := done.unpackedSizeBytes + written.length } ∧
        written.length ≤ limits.entryBytes ∧ written.length ≤ limits.totalBytes - done.unpackedSizeBytes) :
      Round destination limits (entry,index) done result
        (above ++ .file index (destination ++ safe.map .normal) :: List.replicate written.length (.byte index)) := by
    refine ⟨?_,?_,?_,?_,?_,?_⟩
    · intro effect member
      rcases List.mem_append.mp member with before | later
      · exact made.1 effect before
      · rcases List.mem_cons.mp later with rfl | byte
        · exact ⟨safe,valid,rfl⟩
        · rw [List.eq_of_mem_replicate byte]
          trivial
    · intro other apart
      rw [bytesOf_append,made.2.2.2,counted.2.2,if_neg (Ne.symm apart)]
    · rw [bytesOf_append,bytes_append,made.2.2.2,counted.2.2,if_pos rfl,made.2.1,counted.1]
    · rw [bytes_append,made.2.1,counted.1]
      omega
    · rw [bytes_append,made.2.1,counted.1]
      omega
    · intro after same
      obtain ⟨rfl,small,room⟩ := finished after same
      have size : entry.extracted = entry.content.length := if_neg (by simp [plain])
      have count : entry.files = 1 := if_neg (by simp [plain])
      rw [bytes_append,filesIn_append,made.2.1,made.2.2.1,counted.1,counted.2.1,Nat.zero_add,Nat.zero_add]
      refine ⟨rfl,count.symm,rfl,small,room,fun unwrapped => ?_⟩
      rw [size]
      exact entire unwrapped (Nat.le_min.mpr ⟨small,room⟩)
  refine leaves_bind opened (fun own failed => ?_) ?_
  · rw [failed.1 rfl,List.append_nil]
    exact .still made.1 made.2 nofun
  · intro _ own written' disk''
    rw [written'.2 rfl]
    split
    · exact leaves_throw (by rw [List.append_nil]; exact round nofun)
    · split
      · exact leaves_throw (by rw [List.append_nil]; exact round nofun)
      · rename_i small room
        refine leaves_pure ?_
        rw [List.append_nil]
        refine round ?_
        intro after same
        cases same
        exact ⟨rfl,Nat.not_lt.mp small,Nat.not_lt.mp room⟩

theorem leaves_unpackEntry (done : UnpackedArchive) (indexed : Entry × Nat) (disk : Disk) :
    Leaves (unpackEntry destination limits done indexed) disk (Round destination limits indexed done) := by
  obtain ⟨entry,index⟩ := indexed
  unfold unpackEntry
  simp only
  split
  · rename_i directory
    cases found : sanitizeEntryName (trimEnd '/' entry.name) with
    | error error => exact leaves_throw (.nothing _ _)
    | ok safe =>
      have valid := fun name member => ((sanitizeEntryName_ok found).2 name member).1
      refine leaves_bind (leaves_createDirAll destination valid disk) (fun own made => .still made.1 made.2 nofun) ?_
      intro _ own made disk'
      refine leaves_pure ?_
      rw [List.append_nil]
      refine .still made.1 made.2 ?_
      intro after same
      cases same
      exact ⟨rfl,directory⟩
  · rename_i plain
    split
    · exact leaves_throw (.nothing _ _)
    · split
      · exact leaves_throw (.nothing _ _)
      · cases found : sanitizeEntryName entry.name with
        | error error => exact leaves_throw (.nothing _ _)
        | ok safe =>
          exact leaves_unpackFile (by simpa using plain) (fun name member => ((sanitizeEntryName_ok found).2 name member).1) disk

structure Loop (destination : List Component) (limits : UnpackLimits) (indexed : List (Entry × Nat)) (done : UnpackedArchive)
    (result : Option UnpackedArchive) (own : List Effect) : Prop where
  confined : ∀ effect ∈ own, Confined destination effect
  outside : ∀ entry ∉ indexed.map Prod.snd, bytesOf entry own = 0
  each : ∀ entry, bytesOf entry own ≤ limits.entryBytes + 1
  total : bytes own ≤ limits.totalBytes - done.unpackedSizeBytes + 1
  finished : ∀ after, result = some after → after.fileCount = done.fileCount + filesIn own ∧
    filesIn own = (indexed.map fun entry => entry.1.files).sum ∧ after.unpackedSizeBytes = done.unpackedSizeBytes + bytes own ∧
    (∀ entry, bytesOf entry own ≤ limits.entryBytes) ∧ bytes own ≤ limits.totalBytes - done.unpackedSizeBytes ∧
    (Unwrapped limits → bytes own = (indexed.map fun entry => entry.1.extracted).sum)

theorem Round.loop {rest : List (Entry × Nat)} {own : List Effect} (round : Round destination limits indexed done none own) :
    Loop destination limits (indexed :: rest) done none own where
  confined := round.confined
  outside entry absent := round.other entry fun same => absent (by rw [same]; exact List.mem_cons_self)
  each entry := by
    by_cases same : entry = indexed.2
    · rw [same,round.whole]
      exact round.each
    · rw [round.other entry same]
      exact Nat.zero_le _
  total := round.total
  finished := nofun

theorem Round.step {rest : List (Entry × Nat)} {middle : UnpackedArchive} {result : Option UnpackedArchive} {own later : List Effect}
    (apart : indexed.2 ∉ rest.map Prod.snd) (round : Round destination limits indexed done (some middle) own)
    (goes : Loop destination limits rest middle result later) : Loop destination limits (indexed :: rest) done result (own ++ later) := by
  obtain ⟨count,files,size,small,room,entire⟩ := round.finished middle rfl
  refine ⟨?_,?_,?_,?_,?_⟩
  · intro effect member
    exact (List.mem_append.mp member).elim (round.confined effect) (goes.confined effect)
  · intro entry absent
    rw [List.map_cons,List.mem_cons,not_or] at absent
    rw [bytesOf_append,round.other entry absent.1,goes.outside entry absent.2]
  · intro entry
    rw [bytesOf_append]
    by_cases same : entry = indexed.2
    · rw [same,goes.outside _ apart,round.whole]
      exact round.each
    · rw [round.other entry same,Nat.zero_add]
      exact goes.each entry
  · have after := goes.total
    rw [bytes_append]
    omega
  · intro after same
    obtain ⟨count',files',size',small',room',entire'⟩ := goes.finished after same
    rw [filesIn_append,bytes_append,List.map_cons,List.map_cons,List.sum_cons,List.sum_cons]
    refine ⟨by omega,by omega,by omega,?_,by omega,fun unwrapped => ?_⟩
    · intro entry
      rw [bytesOf_append]
      by_cases own' : entry = indexed.2
      · rw [own',goes.outside _ apart,round.whole]
        exact small
      · rw [round.other entry own',Nat.zero_add]
        exact small' entry
    · rw [entire unwrapped,entire' unwrapped]

theorem leaves_unpackEntries (indexed : List (Entry × Nat)) (distinct : (indexed.map Prod.snd).Nodup) (done : UnpackedArchive)
    (disk : Disk) : Leaves (indexed.foldlM (unpackEntry destination limits) done) disk (Loop destination limits indexed done) := by
  induction indexed generalizing done disk with
  | nil =>
    refine leaves_pure ⟨fun _ impossible => absurd impossible List.not_mem_nil,fun _ _ => rfl,fun _ => Nat.zero_le _,
      Nat.zero_le _,?_⟩
    intro after same
    cases same
    exact ⟨rfl,rfl,rfl,fun _ => Nat.zero_le _,Nat.zero_le _,fun _ => rfl⟩
  | cons first rest ih =>
    obtain ⟨apart,distinct⟩ := List.nodup_cons.mp distinct
    rw [List.foldlM_cons]
    refine leaves_bind (leaves_unpackEntry done first disk) (fun own round => round.loop) ?_
    intro middle own round disk'
    exact (ih distinct middle disk').mono fun result later goes => round.step apart goes

end Rounds

def reported {α : Type} : EStateM.Result IoError Disk α → Option α
  | .ok result _ => some result
  | .error _ _ => none

def leftBehind {α : Type} : EStateM.Result IoError Disk α → Disk
  | .ok _ after | .error _ after => after

/-- Unpacking keeps to its place and its limits, at any time, and reports what it has done. -/
structure Bounded (confined : Effect → Prop) (exact' : Disk → UnpackedArchive → Prop) (limits : UnpackLimits) (entries : List Entry)
    (outcome : EStateM.Result IoError Disk UnpackedArchive) : Prop where
  confined : ∀ effect ∈ (leftBehind outcome).effects, confined effect
  total : ∀ sofar, sofar <+: (leftBehind outcome).effects → bytes sofar ≤ limits.totalBytes + 1
  each : ∀ sofar, sofar <+: (leftBehind outcome).effects → ∀ entry, bytesOf entry sofar ≤ limits.entryBytes + 1
  success : ∀ report, reported outcome = some report → exact' (leftBehind outcome) report ∧
    (∀ entry, bytesOf entry (leftBehind outcome).effects ≤ limits.entryBytes) ∧
    bytes (leftBehind outcome).effects ≤ limits.totalBytes ∧ entries.length ≤ limits.entries

/-- The file entries are counted, and the bytes that were written for them: all they have, where the bound does not wrap. -/
def CountsEntries (limits : UnpackLimits) (entries : List Entry) (after : Disk) (report : UnpackedArchive) : Prop :=
  report.fileCount = filesIn after.effects ∧ report.fileCount = (entries.map Entry.files).sum ∧
    report.unpackedSizeBytes = bytes after.effects ∧
    (Unwrapped limits → report.unpackedSizeBytes = (entries.map Entry.extracted).sum)

def CountsFiles (destination : List Component) (after : Disk) (report : UnpackedArchive) : Prop :=
  report.fileCount = (after.fs.filesUnder destination).length ∧
    report.unpackedSizeBytes = ((after.fs.filesUnder destination).map fun file => file.2.length).sum

def StrictlyConfined (destination : List Component) : Effect → Prop
  | .directory path | .file _ path => Under destination path
  | .byte _ => True

/-- Whatever the entries claim and hold, and whatever is on the disk. -/
theorem unpacking_is_bounded (destination : List Component) (limits : UnpackLimits) (entries : List Entry) (fs : FileSystem) :
    Bounded (Confined destination) (CountsEntries limits entries) limits entries
      (unpackZipReaderWithLimits destination limits entries ⟨fs,[]⟩) := by
  have indices : (entries.zipIdx.map Prod.snd).Nodup := by
    rw [List.zipIdx_map_snd]
    exact List.nodup_range'
  have leaves : Leaves (unpackZipReaderWithLimits destination limits entries) ⟨fs,[]⟩ fun result own =>
      Loop destination limits entries.zipIdx {} result own ∧ (result.isSome → entries.length ≤ limits.entries) := by
    unfold unpackZipReaderWithLimits
    have still {own : List Effect} (confined : ∀ effect ∈ own, Confined destination effect)
        (zero : bytes own = 0 ∧ filesIn own = 0 ∧ ∀ entry, bytesOf entry own = 0) : Loop destination limits entries.zipIdx {} none own :=
      ⟨confined,fun entry _ => zero.2.2 entry,fun entry => by rw [zero.2.2]; exact Nat.zero_le _,by rw [zero.1]; exact Nat.zero_le _,nofun⟩
    split
    · exact leaves_throw ⟨still (fun _ impossible => absurd impossible List.not_mem_nil) ⟨rfl,rfl,fun _ => rfl⟩,nofun⟩
    · rename_i few
      have made := leaves_createDirAll destination (fun (_ : Name) impossible => absurd impossible List.not_mem_nil) ⟨fs,[]⟩
      rw [List.map_nil,List.append_nil] at made
      refine leaves_bind made (fun own made => ⟨still made.1 made.2,nofun⟩) ?_
      intro _ above made disk
      refine (leaves_unpackEntries entries.zipIdx indices {} disk).mono ?_
      intro result own loop
      refine ⟨⟨?_,?_,?_,?_,?_⟩,fun _ => Nat.not_lt.mp few⟩
      · intro effect member
        exact (List.mem_append.mp member).elim (made.1 effect) (loop.confined effect)
      · intro entry absent
        rw [bytesOf_append,made.2.2.2,loop.outside entry absent]
      · intro entry
        rw [bytesOf_append,made.2.2.2,Nat.zero_add]
        exact loop.each entry
      · rw [bytes_append,made.2.1,Nat.zero_add]
        exact loop.total
      · intro after same
        have own' := loop.finished after same
        simp only [bytes_append,filesIn_append,bytesOf_append,made.2.1,made.2.2.1,made.2.2.2,Nat.zero_add] at own' ⊢
        exact own'
  have sums (f : Entry → Nat) : (entries.zipIdx.map fun entry => f entry.1).sum = (entries.map f).sum := by
    have unindexed : entries.zipIdx.map (f ∘ Prod.fst) = entries.map f := by
      rw [← List.map_map,List.zipIdx_map_fst]
    exact congrArg List.sum unindexed
  have parts : ∃ own, (leftBehind (unpackZipReaderWithLimits destination limits entries ⟨fs,[]⟩)).effects = own ∧
      Loop destination limits entries.zipIdx {} (reported (unpackZipReaderWithLimits destination limits entries ⟨fs,[]⟩)) own ∧
      ((reported (unpackZipReaderWithLimits destination limits entries ⟨fs,[]⟩)).isSome → entries.length ≤ limits.entries) := by
    unfold Leaves at leaves
    cases outcome : unpackZipReaderWithLimits destination limits entries ⟨fs,[]⟩ with
    | ok report after =>
      rw [outcome] at leaves
      obtain ⟨own,same,held⟩ := leaves
      exact ⟨own,same,held⟩
    | error error after =>
      rw [outcome] at leaves
      obtain ⟨own,same,held⟩ := leaves
      exact ⟨own,same,held⟩
  obtain ⟨own,same,loop,few⟩ := parts
  refine ⟨?_,?_,?_,?_⟩
  · rw [same]
    exact loop.confined
  · intro sofar before
    rw [same] at before
    exact (before.sublist.countP_le).trans loop.total
  · intro sofar before entry
    rw [same] at before
    exact (before.sublist.countP_le).trans (loop.each entry)
  · intro report done
    obtain ⟨count,files,size,small,room,entire⟩ := loop.finished report done
    rw [done] at few
    unfold CountsEntries
    rw [same]
    simp only [Nat.zero_add] at count size
    refine ⟨⟨count,?_,size,fun unwrapped => ?_⟩,small,room,few rfl⟩
    · rw [count,files]
      exact sums Entry.files
    · rw [size,entire unwrapped]
      exact sums Entry.extracted

/-! Without the effects, and of entries that tell their size, it is the unpacking of the archive model. -/

def forget {α : Type} : EStateM.Result IoError Disk α → EStateM.Result IoError FileSystem α
  | .ok result after => .ok result after.fs
  | .error error after => .error error after.fs

def Plays {α : Type} (traced : Traced α) (plain : Io α) : Prop := ∀ disk, forget (traced disk) = plain disk.fs

section Plays
variable {α β : Type}

theorem plays_pure (result : α) : Plays (pure result) (pure result) := fun _ => rfl

theorem plays_throw (error : IoError) : Plays (throw error : Traced α) (throw error) := fun _ => rfl

theorem plays_bind {traced : Traced α} {plain : Io α} {next : α → Traced β} {next' : α → Io β} (first : Plays traced plain)
    (later : ∀ result, Plays (next result) (next' result)) : Plays (traced >>= next) (plain >>= next') := by
  intro disk
  have same := first disk
  simp only [bind,EStateM.bind]
  rw [← same]
  cases traced disk with
  | ok result after => exact later result after
  | error error after => rfl

theorem plays_createDirAllFrom (reversed : List Component) : Plays (createDirAllFrom reversed) (Files.createDirAllFrom reversed) := by
  induction reversed with
  | nil => exact plays_pure ()
  | cons last above ih =>
    intro disk
    simp only [createDirAllFrom,Files.createDirAllFrom]
    cases disk.fs.mkdir (above.reverse ++ [last]) with
    | ok after => rfl
    | error error =>
      cases error with
      | notFound =>
        have same := ih disk
        simp only
        rw [← same]
        cases createDirAllFrom above disk with
        | error error after => rfl
        | ok _ after =>
          simp only [forget]
          cases after.fs.mkdir (above.reverse ++ [last]) with
          | ok made => rfl
          | error error =>
            simp only
            by_cases there : after.fs.isDir (above.reverse ++ [last])
            · rw [if_pos there,if_pos there]
            · rw [if_neg there,if_neg there]
      | _ =>
        simp only
        by_cases there : disk.fs.isDir (above.reverse ++ [last])
        · rw [if_pos there,if_pos there,forget]
        · rw [if_neg there,if_neg there,forget]

theorem plays_writeFile (index : Nat) (path : List Component) (content : Content) :
    Plays (writeFile index path content) (call (·.write path content)) := by
  intro disk
  simp only [writeFile,call]
  cases disk.fs.write path content with
  | ok after => rfl
  | error error => rfl

end Plays

section Honest
variable (isDir : List Char → Bool) (destination : List Component) {limits : UnpackLimits}

def honest (entry : ZipEntry) : Entry := ⟨entry.1,entry.2.length,entry.2,isDir entry.1⟩

theorem plays_unpackFile (unwrapped : Unwrapped limits) (index : Nat) (name : List Char) (content : Content) (safe : List Name)
    (done : UnpackedArchive) : Plays (unpackFile destination limits index name content safe done)
      (Archive.unpackFile destination limits name content safe done) := by
  have fits : min limits.entryBytes (limits.totalBytes - done.unpackedSizeBytes) + 1 < UInt64.size := by
    unfold Unwrapped at unwrapped
    omega
  unfold unpackFile Archive.unpackFile
  simp only
  rw [Nat.mod_eq_of_lt fits]
  refine plays_bind (plays_createDirAllFrom _) fun _ => plays_bind (plays_writeFile _ _ _) fun _ => ?_
  split
  · exact plays_throw _
  · split
    · exact plays_throw _
    · exact plays_pure _

theorem plays_unpackEntry (unwrapped : Unwrapped limits) (done : UnpackedArchive) (entry : ZipEntry) (index : Nat) :
    Plays (unpackEntry destination limits done (honest isDir entry,index)) (Archive.unpackEntry isDir destination limits done entry) := by
  unfold unpackEntry Archive.unpackEntry honest
  simp only
  split
  · cases sanitizeEntryName (trimEnd '/' entry.1) with
    | error error => exact plays_throw _
    | ok safe => exact plays_bind (plays_createDirAllFrom _) fun _ => plays_pure _
  · split
    · exact plays_throw _
    · split
      · exact plays_throw _
      · cases sanitizeEntryName entry.1 with
        | error error => exact plays_throw _
        | ok safe => exact plays_unpackFile destination unwrapped index entry.1 entry.2 safe done

theorem plays_unpackZip (unwrapped : Unwrapped limits) (archive : List ZipEntry) :
    Plays (unpackZipReaderWithLimits destination limits (archive.map (honest isDir))) (unpackZipWithLimits isDir destination limits archive) := by
  have rounds (start : Nat) (done : UnpackedArchive) :
      Plays (((archive.map (honest isDir)).zipIdx start).foldlM (unpackEntry destination limits) done)
        (archive.foldlM (Archive.unpackEntry isDir destination limits) done) := by
    induction archive generalizing start done with
    | nil => exact plays_pure done
    | cons entry rest ih =>
      rw [List.map_cons,List.zipIdx_cons,List.foldlM_cons,List.foldlM_cons]
      exact plays_bind (plays_unpackEntry isDir destination unwrapped done entry start) fun after => ih (start + 1) after
  unfold unpackZipReaderWithLimits unpackZipWithLimits
  rw [List.length_map]
  split
  · exact plays_throw _
  · exact plays_bind (plays_createDirAllFrom _) fun _ => rounds 0 {}

end Honest

/-- Within the limits of `unpack_zip`, an archive whose entries have the sizes they claim is unpacked effect by effect as
it is at once: to the same file system, with the same result or error. -/
theorem effects_play_unpackZip (isDir : List Char → Bool) (destination : List Component) (archive : List ZipEntry) :
    Plays (unpackZipReaderWithLimits destination defaultUnpackLimits (archive.map (honest isDir))) (unpackZip isDir destination archive) :=
  plays_unpackZip isDir destination (.inl (by decide)) archive

theorem nothing_placed : ∀ entry ∈ ([] : List (Loc × Files.Node)),
    ∃ above name, entry.1 = above ++ [name] ∧ ValidName name ∧ nodeIn [] above = some .dir :=
  placed_of_wellPlaced (by decide)

def emptyTree : FileSystem where
  nodes := []
  distinct := List.nodup_nil
  placed := nothing_placed

def siteDirectory : FileSystem where
  nodes := [([['d']],.dir)]
  distinct := by decide
  placed := placed_of_wellPlaced (by decide)

def indexPage (content : Content) : Entry := ⟨"a".toList,1,content,false⟩

/-- The directory above the destination is created as well, and a file that replaces an earlier one is counted again. -/
theorem unpacking_makes_ancestors_and_recounts :
    ¬Bounded (StrictlyConfined (components "/d/e".toList)) (CountsFiles (components "/d/e".toList)) defaultUnpackLimits []
      (unpackZipReaderWithLimits (components "/d/e".toList) defaultUnpackLimits [] ⟨emptyTree,[]⟩) ∧
    ¬Bounded (StrictlyConfined (components "/d".toList)) (CountsFiles (components "/d".toList)) defaultUnpackLimits
      [indexPage [60],indexPage [62]]
      (unpackZipReaderWithLimits (components "/d".toList) defaultUnpackLimits [indexPage [60],indexPage [62]] ⟨siteDirectory,[]⟩) := by
  constructor
  · intro bounded
    have made : Effect.directory (components "/d".toList) ∈
        (leftBehind (unpackZipReaderWithLimits (components "/d/e".toList) defaultUnpackLimits [] ⟨emptyTree,[]⟩)).effects := by
      decide +kernel
    obtain ⟨names,_,same⟩ := bounded.confined _ made
    have lengths := congrArg List.length same
    rw [List.length_append] at lengths
    have above : (components "/d".toList).length = 2 := by decide
    have below : (components "/d/e".toList).length = 3 := by decide
    omega
  · intro bounded
    have done : reported (unpackZipReaderWithLimits (components "/d".toList) defaultUnpackLimits [indexPage [60],indexPage [62]]
        ⟨siteDirectory,[]⟩) = some { fileCount := 2, unpackedSizeBytes := 2 } := by
      decide +kernel
    have files : ((leftBehind (unpackZipReaderWithLimits (components "/d".toList) defaultUnpackLimits
        [indexPage [60],indexPage [62]] ⟨siteDirectory,[]⟩)).fs.filesUnder (components "/d".toList)).length = 1 := by
      decide +kernel
    have counted := (bounded.success _ done).1.1
    rw [files] at counted
    exact absurd counted (by decide)

end GrassWorker.Unpacking
