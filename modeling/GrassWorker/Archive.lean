import GrassWorker.Foundations.FileOperations
import GrassWorker.Validator
import Mathlib.Data.List.Lex
import Mathlib.Data.List.Sort

/-! Artifacts as zip archives: packing the regular files of a directory, and unpacking with
names that are checked. The container keeps names and contents as they are written; its
bytes, their size and their digest are not modelled. -/
namespace GrassWorker.Archive
open UnixPath Files Validator

abbrev ZipEntry := List Char × Content

structure PackedArchive where
  unpackedSizeBytes : Nat := 0
  fileCount : Nat := 0
deriving DecidableEq

structure UnpackedArchive where
  fileCount : Nat := 0
  unpackedSizeBytes : Nat := 0
deriving DecidableEq

def maxEntries : Nat := 50000
def maxTotalUnpackedBytes : Nat := 4 * 1024 * 1024 * 1024
def maxEntryUnpackedBytes : Nat := 2 * 1024 * 1024 * 1024

/-! Packing. -/

structure Walked where
  entries : List (Loc × Content) := []
  sourceBytes : Nat := 0
  nameBytes : Nat := 0

def walk (sourceDir : Path) : List (Loc × Content) → Walked → Except IoError Walked
  | [],walked => .ok walked
  | (names,content) :: rest,walked =>
    let nameBytes := walked.nameBytes + byteLength (names.foldl push sourceDir)
    if maxEntries ≤ walked.entries.length ∨ maxEntryUnpackedBytes < content.length ∨
        maxTotalUnpackedBytes - walked.sourceBytes < content.length ∨ 16 * 1024 * 1024 < nameBytes then
      .error (.other "archive source exceeds packing limits")
    else walk sourceDir rest
      { entries := walked.entries ++ [(names,content)], sourceBytes := walked.sourceBytes + content.length, nameBytes }

def entryName (names : Loc) : List Char := ['/'].intercalate names

def writeEntries : List (Loc × Content) → PackedArchive → List ZipEntry → Except IoError (List ZipEntry × PackedArchive)
  | [],packed,archive => .ok (archive,packed)
  | (names,content) :: rest,packed,archive =>
    let remaining := min maxEntryUnpackedBytes (maxTotalUnpackedBytes - packed.unpackedSizeBytes)
    let copied := content.take (remaining + 1)
    if remaining < copied.length then .error (.other "archive source grew beyond packing limits")
    else writeEntries rest
      { unpackedSizeBytes := packed.unpackedSizeBytes + copied.length, fileCount := packed.fileCount + 1 }
      (archive ++ [(entryName names,copied)])

def packDir (fs : FileSystem) (sourceDir : Path) : Except IoError (List ZipEntry × PackedArchive) :=
  if fs.isDir (components sourceDir) then
    match walk sourceDir (fs.filesUnder (components sourceDir)) {} with
    | .error error => .error error
    | .ok walked => writeEntries (walked.entries.insertionSort fun first second => first.1 ≤ second.1) {} []
  else .error (.other ("archive source " ++ String.ofList sourceDir ++ " is not a directory"))

/-! Unpacking. -/

def safeSegments (name : List Char) : List Component → Except IoError (List Name)
  | [] => .ok []
  | .normal segment :: rest => (safeSegments name rest).map (segment :: ·)
  | .curDir :: rest => safeSegments name rest
  | .parentDir :: _ | .rootDir :: _ => .error (.other ("unsafe archive entry name: " ++ String.ofList name))

def normalized (name : List Char) : List Char := name.map fun c => if c = '\\' then '/' else c

def sanitizeEntryName (name : List Char) : Except IoError (List Name) :=
  match safeSegments name (components (normalized name)) with
  | .error error => .error error
  | .ok [] => .error (.other "empty archive entry name")
  | .ok safe => .ok safe

structure UnpackLimits where
  entries : Nat
  entryBytes : Nat
  totalBytes : Nat

def defaultUnpackLimits : UnpackLimits :=
  { entries := maxEntries, entryBytes := maxEntryUnpackedBytes, totalBytes := maxTotalUnpackedBytes }

section Unpack
variable (isDir : List Char → Bool) (destination : List Component) (limits : UnpackLimits)

def unpackFile (name : List Char) (content : Content) (safe : List Name) (done : UnpackedArchive) : Io UnpackedArchive := do
  createDirAll (destination ++ safe.dropLast.map .normal)
  let remainingTotal := limits.totalBytes - done.unpackedSizeBytes
  let written := content.take (min limits.entryBytes remainingTotal + 1)
  call (·.write (destination ++ safe.map .normal) written)
  if limits.entryBytes < written.length then
    throw (.other ("archive entry " ++ String.ofList name ++ " exceeds the per-entry unpack size limit"))
  else if remainingTotal < written.length then throw (.other "archive exceeds the total unpack size limit")
  else return { fileCount := done.fileCount + 1, unpackedSizeBytes := done.unpackedSizeBytes + written.length }

/-- One round of the loop. What the container takes for a directory is `isDir`. -/
def unpackEntry (done : UnpackedArchive) (entry : ZipEntry) : Io UnpackedArchive :=
  if isDir entry.1 then
    match sanitizeEntryName (trimEnd '/' entry.1) with
    | .error error => throw error
    | .ok safe => do
      createDirAll (destination ++ safe.map .normal)
      return done
  else if limits.entryBytes < entry.2.length then
    throw (.other ("archive entry " ++ String.ofList entry.1 ++ " exceeds the per-entry unpack size limit"))
  else if limits.totalBytes - done.unpackedSizeBytes < entry.2.length then
    throw (.other "archive exceeds the total unpack size limit")
  else
    match sanitizeEntryName entry.1 with
    | .error error => throw error
    | .ok safe => unpackFile destination limits entry.1 entry.2 safe done

def unpackZipWithLimits (archive : List ZipEntry) : Io UnpackedArchive :=
  if limits.entries < archive.length then
    throw (.other ("archive has " ++ toString archive.length ++ " entries, exceeding the " ++ toString limits.entries ++
      " entry limit"))
  else do
    createDirAll destination
    archive.foldlM (unpackEntry isDir destination limits) {}

def unpackZip (archive : List ZipEntry) : Io UnpackedArchive := unpackZipWithLimits isDir destination defaultUnpackLimits archive

end Unpack

/-! Names. -/
section Names
variable {names safe : List Name} {name path : List Char} {c : Char}

private theorem of_mem_intercalate {pieces : List (List Char)} (member : c ∈ ['/'].intercalate pieces) :
    c = '/' ∨ ∃ name ∈ pieces, c ∈ name := by
  induction pieces with
  | nil => cases member
  | cons first rest ih =>
    cases rest with
    | nil => exact .inr ⟨first,by simp,by simpa using member⟩
    | cons second rest =>
      rw [List.intercalate_cons_cons,List.mem_append,List.mem_append] at member
      obtain (inside | slash) | later := member
      · exact .inr ⟨first,by simp,inside⟩
      · exact .inl (List.mem_singleton.mp slash)
      · obtain same | ⟨name,piece,inside⟩ := ih later
        · exact .inl same
        · exact .inr ⟨name,List.mem_cons_of_mem _ piece,inside⟩

private theorem getLast?_intercalate {pieces : List (List Char)} (deeper : pieces ≠ []) (nonempty : ∀ name ∈ pieces, name ≠ []) :
    ∃ name ∈ pieces, (['/'].intercalate pieces).getLast? = name.getLast? := by
  induction pieces with
  | nil => exact absurd rfl deeper
  | cons first rest ih =>
    cases rest with
    | nil => exact ⟨first,by simp,by simp⟩
    | cons second rest =>
      obtain ⟨name,piece,same⟩ := ih (by simp) fun name member => nonempty name (List.mem_cons_of_mem _ member)
      refine ⟨name,List.mem_cons_of_mem _ piece,?_⟩
      have ends := List.getLast?_eq_some_getLast (nonempty name (List.mem_cons_of_mem _ piece))
      rw [List.intercalate_cons_cons,List.getLast?_append,same,ends]
      rfl

theorem filterMap_component (valid : ∀ name ∈ names, ValidName name) :
    names.filterMap component = names.map .normal := by
  induction names with
  | nil => rfl
  | cons name names ih =>
    rw [List.filterMap_cons_some (component_of_valid (valid name (by simp))),List.map_cons]
    rw [ih fun name member => valid name (by simp [member])]

theorem components_entryName (deeper : names ≠ []) (valid : ∀ name ∈ names, ValidName name) :
    components (entryName names) = names.map .normal := by
  have pieces : (entryName names).splitOn '/' = names :=
    List.splitOn_intercalate '/' (fun name member => (valid name member).2.1) deeper
  obtain ⟨first,rest,rfl⟩ := List.exists_cons_of_ne_nil deeper
  have own := valid first (by simp)
  have start : (entryName (first :: rest)).head? = first.head? := by
    obtain ⟨c,others,rfl⟩ := List.exists_cons_of_ne_nil own.1
    cases rest with
    | nil => simp [entryName]
    | cons second rest => simp [entryName,List.intercalate_cons_cons]
  have relative : anchor (entryName (first :: rest)) = [] := by
    unfold anchor
    rw [start,pieces,if_neg,if_neg]
    · simpa using own.2.2.1
    · intro slash
      exact own.2.1 (List.mem_of_mem_head? slash)
  rw [components,relative,pieces,List.nil_append]
  exact filterMap_component valid

theorem safeSegments_names : safeSegments path (names.map .normal) = .ok names := by
  induction names with
  | nil => rfl
  | cons name names ih =>
    rw [List.map_cons,safeSegments,ih]
    rfl

theorem mem_safeSegments {parts : List Component} (ok : safeSegments path parts = .ok safe) (member : name ∈ safe) :
    .normal name ∈ parts := by
  induction parts generalizing safe with
  | nil =>
    cases ok
    cases member
  | cons part parts ih =>
    cases part with
    | rootDir => cases ok
    | parentDir => cases ok
    | curDir => exact List.mem_cons_of_mem _ (ih ok member)
    | normal segment =>
      simp only [safeSegments] at ok
      cases rest : safeSegments path parts with
      | error problem =>
        rw [rest] at ok
        cases ok
      | ok others =>
        rw [rest] at ok
        cases ok
        obtain rfl | later := List.mem_cons.mp member
        · exact List.mem_cons_self ..
        · exact List.mem_cons_of_mem _ (ih rest later)

private theorem normalized_free : '\\' ∉ normalized path := by
  intro member
  obtain ⟨c,_,same⟩ := List.mem_map.mp member
  split at same
  · exact absurd same (by decide)
  · contradiction

theorem sanitizeEntryName_ok (ok : sanitizeEntryName path = .ok safe) :
    safe ≠ [] ∧ ∀ name ∈ safe, ValidName name ∧ '\\' ∉ name := by
  simp only [sanitizeEntryName] at ok
  split at ok
  · cases ok
  · cases ok
  · rename_i segments nonempty found
    cases ok
    refine ⟨fun empty => nonempty empty,?_⟩
    intro name member
    have named := valid_of_mem_components (mem_safeSegments found member)
    exact ⟨named.1,fun slash => normalized_free (named.2 _ slash)⟩

theorem sanitizeEntryName_entryName (deeper : names ≠ []) (valid : ∀ name ∈ names, ValidName name)
    (plain : ∀ name ∈ names, '\\' ∉ name) : sanitizeEntryName (entryName names) = .ok names := by
  have same : normalized (entryName names) = entryName names := by
    have unchanged : ∀ c ∈ entryName names, (if c = '\\' then '/' else c) = id c := by
      intro c member
      refine if_neg ?_
      rintro rfl
      obtain slash | ⟨name,piece,inside⟩ := of_mem_intercalate member
      · cases slash
      · exact plain name piece inside
    rw [normalized,List.map_congr_left unchanged,List.map_id]
  simp only [sanitizeEntryName,same,components_entryName deeper valid,safeSegments_names]

theorem getLast?_entryName (deeper : names ≠ []) (valid : ∀ name ∈ names, ValidName name)
    (plain : ∀ name ∈ names, '\\' ∉ name) :
    (entryName names).getLast? ≠ some '/' ∧ (entryName names).getLast? ≠ some '\\' := by
  obtain ⟨name,piece,same⟩ := getLast?_intercalate deeper fun name member => (valid name member).1
  rw [entryName,same]
  exact ⟨fun ends => (valid name piece).2.1 (List.mem_of_getLast? ends),fun ends => plain name piece (List.mem_of_getLast? ends)⟩

end Names

/-! What packing puts into an archive. -/
section Pack
variable {fs : FileSystem} {sourceDir : Path} {files entries : List (Loc × Content)} {archive start : List ZipEntry}

def totalBytes (files : List (Loc × Content)) : Nat := (files.map fun file => file.2.length).sum

private theorem walk_ok {walked done : Walked} (ok : walk sourceDir files walked = .ok done)
    (few : walked.entries.length ≤ maxEntries) :
    done.entries = walked.entries ++ files ∧ done.entries.length ≤ maxEntries := by
  induction files generalizing walked with
  | nil =>
    cases ok
    exact ⟨by simp,few⟩
  | cons file rest ih =>
    obtain ⟨names,content⟩ := file
    simp only [walk] at ok
    split at ok
    · cases ok
    · rename_i within
      obtain ⟨same,bound⟩ := ih ok (by simp only [List.length_append,List.length_singleton]; omega)
      exact ⟨by rw [same]; simp,bound⟩

private theorem writeEntries_ok {packed report : PackedArchive} (ok : writeEntries entries packed start = .ok (archive,report))
    (small : packed.unpackedSizeBytes ≤ maxTotalUnpackedBytes) :
    archive = start ++ entries.map (fun file => (entryName file.1,file.2)) ∧
    report = { unpackedSizeBytes := packed.unpackedSizeBytes + totalBytes entries, fileCount := packed.fileCount + entries.length } ∧
    report.unpackedSizeBytes ≤ maxTotalUnpackedBytes ∧ ∀ file ∈ entries, file.2.length ≤ maxEntryUnpackedBytes := by
  induction entries generalizing packed start with
  | nil =>
    cases ok
    exact ⟨by simp,by simp [totalBytes],small,by simp⟩
  | cons file rest ih =>
    obtain ⟨names,content⟩ := file
    simp only [writeEntries] at ok
    split at ok
    · cases ok
    · rename_i fits
      rw [List.length_take] at fits
      have whole : content.length ≤ min maxEntryUnpackedBytes (maxTotalUnpackedBytes - packed.unpackedSizeBytes) := by omega
      rw [List.take_of_length_le (by omega)] at ok
      obtain ⟨same,counted,total,others⟩ := ih ok (by simp only; omega)
      refine ⟨?_,?_,total,?_⟩
      · rw [same]
        simp
      · rw [counted]
        simp only [totalBytes,List.map_cons,List.sum_cons,List.length_cons,PackedArchive.mk.injEq]
        omega
      · intro file member
        obtain rfl | later := List.mem_cons.mp member
        · simp only
          omega
        · exact others file later

theorem packDir_located {report : PackedArchive} (ok : packDir fs sourceDir = .ok (archive,report)) :
    ∃ loc, fs.locate (components sourceDir) = .ok loc := by
  simp only [packDir] at ok
  split at ok
  · rename_i dir
    cases located : fs.locate (components sourceDir) with
    | ok loc => exact ⟨loc,rfl⟩
    | error problem => simp [FileSystem.isDir,FileSystem.stat,located,bind,Except.bind] at dir
  · cases ok

theorem packDir_ok {report : PackedArchive} (ok : packDir fs sourceDir = .ok (archive,report)) :
    ∃ entries, entries.Perm (fs.filesUnder (components sourceDir)) ∧
      archive = entries.map (fun file => (entryName file.1,file.2)) ∧
      report = { unpackedSizeBytes := totalBytes entries, fileCount := entries.length } ∧
      entries.length ≤ maxEntries ∧ totalBytes entries ≤ maxTotalUnpackedBytes ∧
      ∀ file ∈ entries, file.2.length ≤ maxEntryUnpackedBytes := by
  simp only [packDir] at ok
  split at ok
  · split at ok
    · cases ok
    · rename_i walked found
      obtain ⟨same,few⟩ := walk_ok found (by simp)
      obtain ⟨written,counted,total,each⟩ := writeEntries_ok ok (by simp)
      refine ⟨_,?_,by simpa using written,by simpa using counted,?_,?_,each⟩
      · refine (List.perm_insertionSort _ _).trans ?_
        rw [same]
        simp
      · rw [(List.perm_insertionSort _ _).length_eq]
        exact few
      · rw [counted] at total
        simpa using total
  · cases ok

end Pack

/-! Unpacking. -/

/-- Below the destination are the files that were unpacked, and the directories they need. -/
structure Restored (destination : List Component) (loc : Loc) (done : List (Loc × Content)) (fs : FileSystem) : Prop where
  settled : Settled fs destination loc
  files : ∀ names content, fs.node (loc ++ names) = some (.file content) ↔ (names,content) ∈ done
  dirs : ∀ names, fs.node (loc ++ names) = some .dir → names = [] ∨ ∃ file ∈ done, names <+: file.1

section Step
variable {fs : FileSystem} {destination : List Component} {loc : Loc} {done : List (Loc × Content)} {names : Loc} {name : Name}
  {content : Content}

theorem Restored.add (content : Content) (restored : Restored destination loc done fs) (valid : ∀ part ∈ names ++ [name], ValidName part)
    (apart : ∀ file ∈ done, Apart file.1 (names ++ [name])) :
    ∃ mid after, createDirAll (destination ++ names.map .normal) fs = .ok () mid ∧
      mid.write (destination ++ (names ++ [name]).map .normal) content = .ok after ∧
      Restored destination loc (done ++ [(names ++ [name],content)]) after := by
  have clear : Clear fs loc names := by
    intro before node within there
    cases node with
    | dir => rfl
    | file content =>
      exact absurd (within.trans (List.prefix_append ..)) (apart _ ((restored.files before content).mp there)).1
    | link target => exact absurd there (restored.settled.linkFree before target)
  obtain ⟨mid,made,dirs⟩ := createDirAll_clear restored.settled.toLeads (fun part member => valid part (by simp [member])) clear
  have settled := dirs.settled restored.settled clear
  have inside : mid.node (loc ++ names) = some .dir := by
    rw [dirs]
    simp
  have beyond : ¬loc ++ (names ++ [name]) <+: loc ++ names := by
    intro within
    have long := within.length_le
    simp only [List.length_append,List.length_singleton] at long
    omega
  have own : mid.node (loc ++ (names ++ [name])) = fs.node (loc ++ (names ++ [name])) := by
    rw [dirs,if_neg fun way => beyond way.2]
  have vacant : mid.node (loc ++ (names ++ [name])) ≠ some .dir := by
    rw [own]
    intro there
    obtain empty | ⟨file,member,within⟩ := restored.dirs _ there
    · simp at empty
    · exact (apart file member).2 within
  obtain ⟨after,written,only⟩ := write_settled settled inside (valid name (by simp)) vacant content
  have noLink : ∀ target, mid.node (loc ++ (names ++ [name])) ≠ some (.link target) := settled.linkFree _
  have node : ∀ path, after.node (loc ++ path) = if path = names ++ [name] then some (.file content)
      else if path <+: names then some .dir else fs.node (loc ++ path) := by
    intro path
    rw [only,dirs]
    simp only [List.append_cancel_left_eq,List.prefix_append_right_inj,List.prefix_append,true_and]
  refine ⟨mid,after,made,written,only.settled settled vacant noLink,?_,?_⟩
  · intro path other
    rw [node,List.mem_append,List.mem_singleton,Prod.mk.injEq]
    by_cases same : path = names ++ [name]
    · subst same
      have absent : (names ++ [name],other) ∉ done := fun member => (apart _ member).1 (List.prefix_refl _)
      simp [absent,eq_comm]
    · rw [if_neg same]
      by_cases within : path <+: names
      · have absent : (path,other) ∉ done :=
          fun member => (apart _ member).1 (within.trans (List.prefix_append ..))
        simp [within,absent,same]
      · rw [if_neg within,restored.files]
        simp [same]
  · intro path there
    rw [node] at there
    split at there
    · cases there
    · split at there
      · rename_i within
        exact .inr ⟨_,List.mem_append_right _ (List.mem_singleton_self _),within.trans (List.prefix_append ..)⟩
      · obtain empty | ⟨file,member,within⟩ := restored.dirs path there
        · exact .inl empty
        · exact .inr ⟨file,List.mem_append_left _ member,within⟩

end Step

section Run
variable {isDir : List Char → Bool} {destination : List Component} {limits : UnpackLimits} {fs : FileSystem} {loc : Loc}
  {done rest : List (Loc × Content)} {names : Loc} {content : Content}

/-- What the container is relied on for: only a name that ends in a slash or a backslash is a directory. -/
def Ordinary (isDir : List Char → Bool) : Prop :=
  ∀ name : List Char, name.getLast? ≠ some '/' → name.getLast? ≠ some '\\' → isDir name = false

theorem unpackEntry_packed (report : UnpackedArchive) (ordinary : Ordinary isDir) (restored : Restored destination loc done fs) (deeper : names ≠ [])
    (valid : ∀ part ∈ names, ValidName part) (plain : ∀ part ∈ names, '\\' ∉ part)
    (apart : ∀ file ∈ done, Apart file.1 names) (small : content.length ≤ limits.entryBytes)
    (total : report.unpackedSizeBytes + content.length ≤ limits.totalBytes) :
    ∃ after, unpackEntry isDir destination limits report (entryName names,content) fs =
        .ok { fileCount := report.fileCount + 1, unpackedSizeBytes := report.unpackedSizeBytes + content.length } after ∧
      Restored destination loc (done ++ [(names,content)]) after := by
  obtain ⟨init,last,rfl⟩ : ∃ init last, names = init ++ [last] :=
    ⟨names.dropLast,names.getLast deeper,(List.dropLast_append_getLast deeper).symm⟩
  obtain ⟨noSlash,noBackslash⟩ := getLast?_entryName deeper valid plain
  obtain ⟨mid,after,made,written,restored⟩ := restored.add content valid apart
  have file : isDir (entryName (init ++ [last])) = false := ordinary _ noSlash noBackslash
  have whole : content.take (min limits.entryBytes (limits.totalBytes - report.unpackedSizeBytes) + 1) = content :=
    List.take_of_length_le (by omega)
  refine ⟨after,?_,restored⟩
  simp only [unpackEntry,file,sanitizeEntryName_entryName deeper valid plain]
  rw [if_neg (by simp),if_neg (by omega),if_neg (by omega)]
  simp only [unpackFile,List.dropLast_concat,whole,bind,EStateM.bind,made,call,written]
  rw [if_neg (by omega),if_neg (by omega)]
  rfl

theorem unpack_packed (limits : UnpackLimits) (report : UnpackedArchive) (ordinary : Ordinary isDir) (restored : Restored destination loc done fs)
    (valid : ∀ file ∈ rest, file.1 ≠ [] ∧ ∀ part ∈ file.1, ValidName part ∧ '\\' ∉ part)
    (apart : (done ++ rest).Pairwise fun first second => Apart first.1 second.1)
    (small : ∀ file ∈ rest, file.2.length ≤ limits.entryBytes)
    (total : report.unpackedSizeBytes + totalBytes rest ≤ limits.totalBytes) :
    ∃ after, (rest.map fun file => (entryName file.1,file.2)).foldlM (unpackEntry isDir destination limits) report fs =
        .ok { fileCount := report.fileCount + rest.length, unpackedSizeBytes := report.unpackedSizeBytes + totalBytes rest } after ∧
      Restored destination loc (done ++ rest) after := by
  induction rest generalizing done report fs with
  | nil => exact ⟨fs,by simp [totalBytes,pure,EStateM.pure],by simpa using restored⟩
  | cons file rest ih =>
    obtain ⟨names,content⟩ := file
    simp only [totalBytes,List.map_cons,List.sum_cons] at total
    obtain ⟨deeper,own⟩ := valid (names,content) (by simp)
    have before : ∀ file ∈ done, Apart file.1 names := by
      intro file member
      exact (List.pairwise_append.mp apart).2.2 file member (names,content) (by simp)
    obtain ⟨mid,first,restored⟩ := unpackEntry_packed report ordinary restored deeper (fun part member => (own part member).1)
      (fun part member => (own part member).2) before (small (names,content) (by simp)) (by simp only; omega)
    have apart' : (done ++ [(names,content)] ++ rest).Pairwise fun first second => Apart first.1 second.1 := by
      simpa using apart
    obtain ⟨after,others,restored⟩ := ih
      { fileCount := report.fileCount + 1, unpackedSizeBytes := report.unpackedSizeBytes + content.length } restored
      (fun file member => valid file (List.mem_cons_of_mem _ member)) apart'
      (fun file member => small file (List.mem_cons_of_mem _ member)) (by simp only [totalBytes]; omega)
    refine ⟨after,?_,by simpa using restored⟩
    simp only [List.map_cons,List.foldlM_cons,bind,EStateM.bind,first,others]
    simp only [totalBytes,List.map_cons,List.sum_cons,List.length_cons,EStateM.Result.ok.injEq,UnpackedArchive.mk.injEq,
      and_true]
    omega

def EmptyDir (fs : FileSystem) (path : List Component) (loc : Loc) : Prop :=
  fs.locate path = .ok loc ∧ fs.node loc = some .dir ∧ ∀ names, names ≠ [] → fs.node (loc ++ names) = none

theorem EmptyDir.settled (empty : EmptyDir fs destination loc) : Settled fs destination loc where
  located := empty.1
  dir := empty.2.1
  linkFree := by
    intro names target linked
    by_cases root : names = []
    · simp [root,empty.2.1] at linked
    · simp [empty.2.2 names root] at linked

theorem EmptyDir.restored (empty : EmptyDir fs destination loc) : Restored destination loc [] fs where
  settled := empty.settled
  files := by
    intro names content
    by_cases root : names = []
    · simp [root,empty.2.1]
    · simp [empty.2.2 names root]
  dirs := by
    intro names there
    by_cases root : names = []
    · exact .inl root
    · simp [empty.2.2 names root] at there

def Plain (loc : Loc) (fs : FileSystem) : Prop :=
  ∀ names, fs.node (loc ++ names) ≠ none → ∀ part ∈ names, '\\' ∉ part

private theorem createDirAll_plain {destination : List Component} {fs after : FileSystem} {loc : Loc} {names : List Name}
    (settled : Settled fs destination loc) (plain : Plain loc fs)
    (safe : ∀ part ∈ names, ValidName part ∧ '\\' ∉ part)
    (ok : createDirAll (destination ++ names.map .normal) fs = .ok () after) :
    Settled after destination loc ∧ Plain loc after := by
  obtain ⟨clear,made,done,dirs⟩ | ⟨error,failed⟩ := createDirAll_settled settled fun part member => (safe part member).1
  · rw [done] at ok
    cases ok
    refine ⟨dirs.settled settled clear,?_⟩
    intro path there part member
    rw [dirs] at there
    split at there
    · rename_i way
      exact (safe part (((List.prefix_append_right_inj loc).mp way.2).subset member)).2
    · exact plain path there part member
  · rw [failed] at ok
    cases ok

private theorem unpackFile_plain {report done : UnpackedArchive} {name : List Char} {after : FileSystem} {names : Loc}
    (settled : Settled fs destination loc) (plain : Plain loc fs) (deeper : names ≠ [])
    (safe : ∀ part ∈ names, ValidName part ∧ '\\' ∉ part)
    (ok : unpackFile destination limits name content names report fs = .ok done after) :
    Settled after destination loc ∧ Plain loc after := by
  obtain ⟨init,last,rfl⟩ : ∃ init last, names = init ++ [last] :=
    ⟨names.dropLast,names.getLast deeper,(List.dropLast_append_getLast deeper).symm⟩
  obtain ⟨_,mid,made,ok⟩ := io_bind_eq_ok ok
  rw [List.dropLast_concat] at made
  obtain ⟨settled,plain⟩ := createDirAll_plain settled plain (fun part member => safe part (by simp [member])) made
  obtain ⟨_,last',written,ok⟩ := io_bind_eq_ok ok
  obtain ⟨_,vacant,only⟩ := write_settled_ok settled (call_eq_ok.mp written)
  have same : after = last' := by
    split at ok
    · cases ok
    · split at ok
      · cases ok
      · cases ok
        rfl
  subst same
  refine ⟨only.settled settled vacant (settled.linkFree _),?_⟩
  intro path there part member
  rw [only] at there
  split at there
  · rename_i own
    rw [List.append_cancel_left own] at member
    exact (safe part member).2
  · exact plain path there part member

private theorem unpackEntry_plain {report done : UnpackedArchive} {entry : ZipEntry} {after : FileSystem}
    (settled : Settled fs destination loc) (plain : Plain loc fs)
    (ok : unpackEntry isDir destination limits report entry fs = .ok done after) :
    Settled after destination loc ∧ Plain loc after := by
  simp only [unpackEntry] at ok
  split at ok
  · cases found : sanitizeEntryName (trimEnd '/' entry.1) with
    | error problem =>
      rw [found] at ok
      cases ok
    | ok safe =>
      rw [found] at ok
      obtain ⟨_,mid,made,ok⟩ := io_bind_eq_ok ok
      cases ok
      exact createDirAll_plain settled plain (sanitizeEntryName_ok found).2 made
  · split at ok
    · cases ok
    · split at ok
      · cases ok
      · cases found : sanitizeEntryName entry.1 with
        | error problem =>
          rw [found] at ok
          cases ok
        | ok safe =>
          rw [found] at ok
          exact unpackFile_plain settled plain (sanitizeEntryName_ok found).1 (sanitizeEntryName_ok found).2 ok

theorem unpack_plain {archive : List ZipEntry} {report done : UnpackedArchive} {after : FileSystem}
    (settled : Settled fs destination loc) (plain : Plain loc fs)
    (ok : archive.foldlM (unpackEntry isDir destination limits) report fs = .ok done after) :
    Settled after destination loc ∧ Plain loc after := by
  induction archive generalizing report fs with
  | nil =>
    cases ok
    exact ⟨settled,plain⟩
  | cons entry rest ih =>
    rw [List.foldlM_cons] at ok
    obtain ⟨_,mid,first,ok⟩ := io_bind_eq_ok ok
    obtain ⟨settled,plain⟩ := unpackEntry_plain settled plain first
    exact ih settled plain ok

end Run

/-- The files below a directory are those of the source, and the counts agree. -/
def Reproduces (fs after : FileSystem) (sourceDir destination : Path) (packed : PackedArchive) (unpacked : UnpackedArchive) : Prop :=
  (∀ file, file ∈ after.filesUnder (components destination) ↔ file ∈ fs.filesUnder (components sourceDir)) ∧
    unpacked.fileCount = packed.fileCount ∧ unpacked.unpackedSizeBytes = packed.unpackedSizeBytes

/-- Unpacking undoes packing exactly if no name in the source has a backslash. -/
theorem unpack_zip_undoes_pack_dir (isDir : List Char → Bool) (ordinary : Ordinary isDir) (fs target : FileSystem)
    (sourceDir destination : Path) (archive : List ZipEntry) (packed : PackedArchive) (loc : Loc)
    (accepted : packDir fs sourceDir = .ok (archive,packed)) (empty : EmptyDir target (components destination) loc) :
    (∃ unpacked after, unpackZip isDir (components destination) archive target = .ok unpacked after ∧
      Reproduces fs after sourceDir destination packed unpacked) ↔
    ∀ file ∈ fs.filesUnder (components sourceDir), ∀ part ∈ file.1, '\\' ∉ part := by
  have start : createDirAll (components destination) target = .ok () target := createDirAll_located empty.settled.toLeads
  obtain ⟨entries,perm,rfl,rfl,few,total,small⟩ := packDir_ok accepted
  have within : ¬defaultUnpackLimits.entries < (entries.map fun file => (entryName file.1,file.2)).length := by
    rw [List.length_map]
    exact Nat.not_lt.mpr few
  rw [unpackZip,unpackZipWithLimits,if_neg within]
  constructor
  · rintro ⟨unpacked,after,ok,reproduced,_,_⟩ file member part inside
    obtain ⟨_,mid,made,ok⟩ := io_bind_eq_ok ok
    rw [start] at made
    cases made
    have bare : Plain loc target := by
      intro names there
      have root : names = [] := by
        by_contra deeper
        exact there (empty.2.2 names deeper)
      simp [root]
    obtain ⟨settled,plain⟩ := unpack_plain empty.settled bare ok
    have found := (mem_filesUnder settled.located).mp ((reproduced file).mpr member)
    exact plain file.1 (by simp [found.2]) part inside
  · intro clean
    obtain ⟨source,located⟩ := packDir_located accepted
    have valid : ∀ file ∈ entries, file.1 ≠ [] ∧ ∀ part ∈ file.1, ValidName part ∧ '\\' ∉ part := by
      intro file member
      have under := perm.mem_iff.mp member
      obtain ⟨deeper,found⟩ := (mem_filesUnder located).mp under
      exact ⟨deeper,fun part inside => ⟨valid_of_node found inside,clean file under part inside⟩⟩
    have apart : entries.Pairwise fun first second => Apart first.1 second.1 :=
      (perm.pairwise_iff And.symm).mpr (filesUnder_apart located)
    obtain ⟨after,done,restored⟩ := unpack_packed defaultUnpackLimits {} ordinary empty.restored valid
      (by simpa using apart) small (by simpa [defaultUnpackLimits] using total)
    refine ⟨{ fileCount := 0 + entries.length, unpackedSizeBytes := 0 + totalBytes entries },after,?_,?_,
      Nat.zero_add _,Nat.zero_add _⟩
    · simp only [bind,EStateM.bind,start]
      exact done
    · intro file
      obtain ⟨names,content⟩ := file
      rw [mem_filesUnder restored.settled.located,restored.files,List.nil_append,perm.mem_iff]
      exact ⟨And.right,fun member => ⟨((mem_filesUnder located).mp member).1,member⟩⟩

def endsInSeparator (name : List Char) : Bool := name.getLast? = some '/' ∨ name.getLast? = some '\\'

def siteTree : FileSystem where
  nodes := [([['s']],.dir),([['s'],['i']],.file [60,62]),([['s'],['j']],.dir),([['s'],['j'],['k']],.file []),([['d']],.dir)]
  distinct := by decide
  placed := placed_of_wellPlaced (by decide)

def backslashTree : FileSystem where
  nodes := [([['s']],.dir),([['s'],['a','\\','b']],.file [7]),([['d']],.dir)]
  distinct := by decide
  placed := placed_of_wellPlaced (by decide)

private theorem ordinary_endsInSeparator : Ordinary endsInSeparator := by
  intro name slash backslash
  simp [endsInSeparator,slash,backslash]

private theorem emptyDir_of_nodes {fs : FileSystem} {path : List Component} {loc : Loc} (located : fs.locate path = .ok loc)
    (dir : fs.node loc = some .dir) (bare : fs.below loc = []) : EmptyDir fs path loc := by
  refine ⟨located,dir,?_⟩
  intro names deeper
  cases found : fs.node (loc ++ names) with
  | none => rfl
  | some node =>
    have listed := mem_below.mpr ⟨deeper,found⟩
    rw [bare] at listed
    cases listed

theorem unpack_zip_restores_site :
    ∃ unpacked after, unpackZip endsInSeparator (components "/d".toList) [("i".toList,[60,62]),("j/k".toList,[])] siteTree =
      .ok unpacked after ∧
      Reproduces siteTree after "/s".toList "/d".toList { unpackedSizeBytes := 2, fileCount := 2 } unpacked :=
  (unpack_zip_undoes_pack_dir endsInSeparator ordinary_endsInSeparator siteTree siteTree "/s".toList "/d".toList _ _ [['d']]
    (by decide) (emptyDir_of_nodes (by decide) (by decide) (by decide))).mpr (by decide)

/-- A file name with a backslash is legal, and packed as it is; unpacked it is a file in a directory. -/
theorem backslash_becomes_directory :
    packDir backslashTree "/s".toList = .ok ([("a\\b".toList,[7])],{ unpackedSizeBytes := 1, fileCount := 1 }) ∧
    EmptyDir backslashTree (components "/d".toList) [['d']] ∧
    ¬∃ unpacked after, unpackZip endsInSeparator (components "/d".toList) [("a\\b".toList,[7])] backslashTree =
      .ok unpacked after ∧
      Reproduces backslashTree after "/s".toList "/d".toList { unpackedSizeBytes := 1, fileCount := 1 } unpacked := by
  refine ⟨by decide,emptyDir_of_nodes (by decide) (by decide) (by decide),?_⟩
  rintro ⟨unpacked,after,done,same,_⟩
  have result : (match unpackZip endsInSeparator (components "/d".toList) [("a\\b".toList,[7])] backslashTree with
      | .ok _ after => decide (after.filesUnder (components "/d".toList) = [([['a'],['b']],[7])])
      | .error _ _ => false) = true := by decide
  rw [done] at result
  have rewritten := (same ([['a'],['b']],[7])).mp (by rw [of_decide_eq_true result]; simp)
  exact absurd rewritten (by decide +kernel)

end GrassWorker.Archive
