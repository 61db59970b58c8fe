import GrassWorker.Foundations.Checks
import GrassWorker.Foundations.Toml
import GrassWorker.Node.BuildOutput
import Mathlib.Order.Preorder.Finite

/-! The list of checksums of a static site: which names of files survive being pasted between the quotes of a key. -/
namespace GrassWorker.BuildOutput
open UnixPath Files Toml Checks

/-- The text that `write_checksums` writes. -/
def checksumsText (env : Environment) (fs : FileSystem) (staticDir : List Component) : List Char :=
  ['\n'].intercalate (checksumLines env fs staticDir) ++ ['\n']

def relativePath (names : Loc) : List Char := ['/'].intercalate names

/-- The text is read as one table that has the digest of every file under its path, and nothing else. -/
def ReadsBack (reader : Reader) (env : Environment) (fs : FileSystem) (staticDir : List Component) : Prop :=
  ∃ table, reader.parse (checksumsText env fs staticDir) = some [("files".toList,.table table)] ∧
    table.Perm ((fs.filesUnder staticDir).map fun file => (relativePath file.1,.string (env.sha256 file.2)))

def PlainNames (fs : FileSystem) (staticDir : List Component) : Prop :=
  ∀ file ∈ fs.filesUnder staticDir, ∀ name ∈ file.1, ∀ c ∈ name, isBasic c

instance (fs : FileSystem) (staticDir : List Component) : Decidable (PlainNames fs staticDir) :=
  decidable_of_iff ((fs.filesUnder staticDir).all fun file => file.1.all (·.all isBasic)) (by simp only [PlainNames,List.all_eq_true])

def isHexadecimal (c : Char) : Bool := '0' ≤ c && c ≤ '9' || 'a' ≤ c && c ≤ 'f'

def rewritten (text : List Char) : List Char := text.map fun c => if c = '\\' then '/' else c

section Names
variable {fs : FileSystem} {staticDir : List Component} {names : Loc} {c : Char}

theorem rewritten_of_free {text : List Char} (free : '\\' ∉ text) : rewritten text = text := by
  unfold rewritten
  conv_rhs => rw [← List.map_id text]
  apply List.map_congr_left
  intro c member
  have different : c ≠ '\\' := fun same => free (same ▸ member)
  exact if_neg different

theorem backslash_not_mem_rewritten (text : List Char) : '\\' ∉ rewritten text := by
  intro member
  obtain ⟨c,_,same⟩ := List.mem_map.mp member
  split at same
  · cases same
  · rename_i different
    exact different same

theorem mem_relativePath : c ∈ relativePath names ↔ (∃ name ∈ names, c ∈ name) ∨ c = '/' ∧ 2 ≤ names.length := by
  induction names with
  | nil => simp [relativePath,List.intercalate]
  | cons first rest ih =>
    cases rest with
    | nil => simp [relativePath,List.intercalate]
    | cons second others =>
      have split : relativePath (first :: second :: others) = first ++ ['/'] ++ relativePath (second :: others) :=
        List.intercalate_cons_cons
      have separator : c ∈ ['/'] ↔ c = '/' := List.mem_singleton
      rw [split,List.mem_append,List.mem_append,separator,ih]
      simp only [List.mem_cons,List.length_cons,exists_eq_or_imp]
      constructor
      · rintro ((own | slash) | (named | ⟨slash,_⟩))
        · exact .inl (.inl own)
        · exact .inr ⟨slash,by omega⟩
        · exact .inl (.inr named)
        · exact .inr ⟨slash,by omega⟩
      · rintro ((own | named) | ⟨slash,_⟩)
        · exact .inl (.inl own)
        · exact .inr (.inl named)
        · exact .inl (.inr slash)

theorem relativePath_injective {first second : Loc} (some' : first ≠ []) (someOther : second ≠ [])
    (free : ∀ name ∈ first, '/' ∉ name) (freeOther : ∀ name ∈ second, '/' ∉ name)
    (same : relativePath first = relativePath second) : first = second := by
  have split := congrArg (List.splitOn '/') same
  unfold relativePath at split
  rwa [List.splitOn_intercalate '/' free some',List.splitOn_intercalate '/' freeOther someOther] at split

theorem named_of_mem {file : Loc × Content} (member : file ∈ fs.filesUnder staticDir) :
    file.1 ≠ [] ∧ ∀ name ∈ file.1, '/' ∉ name := by
  cases located : fs.locate staticDir with
  | error problem =>
    simp only [FileSystem.filesUnder,located] at member
    cases member
  | ok loc =>
    obtain ⟨some',found⟩ := (mem_filesUnder located).mp member
    exact ⟨some',fun name inside => (valid_of_node found inside).2.1⟩

theorem distinct_filesUnder : (fs.filesUnder staticDir).Pairwise fun first second => first.1 ≠ second.1 := by
  cases located : fs.locate staticDir with
  | error problem =>
    simp only [FileSystem.filesUnder,located]
    exact List.Pairwise.nil
  | ok loc =>
    refine (filesUnder_apart located).imp ?_
    intro first second apart same
    rw [same] at apart
    exact apart.1 (List.prefix_refl _)

end Names

section Entries
variable {env : Environment} {fs : FileSystem} {staticDir : List Component}

def listed (fs : FileSystem) (staticDir : List Component) : List (Loc × Content) :=
  (fs.filesUnder staticDir).insertionSort fun first second => first.1 ≤ second.1

theorem listed_perm : (listed fs staticDir).Perm (fs.filesUnder staticDir) := List.perm_insertionSort _ _

def entries (env : Environment) (fs : FileSystem) (staticDir : List Component) : List (List Char × List Char) :=
  (listed fs staticDir).map fun file => (rewritten (relativePath file.1),env.sha256 file.2)

theorem checksumsText_eq : checksumsText env fs staticDir = document "files".toList (entries env fs staticDir) := by
  unfold checksumsText document entries
  rw [List.map_map]
  rfl

theorem isBasic_of_isHexadecimal {c : Char} (hexadecimal : isHexadecimal c) : isBasic c := by
  have range : 48 ≤ c.toNat ∧ c.toNat ≤ 57 ∨ 97 ≤ c.toNat ∧ c.toNat ≤ 102 := by
    unfold isHexadecimal at hexadecimal
    simp only [Bool.or_eq_true,Bool.and_eq_true,decide_eq_true_eq] at hexadecimal
    exact hexadecimal
  have quote : c ≠ '"' := by
    rintro rfl
    exact absurd range (by decide)
  have backslash : c ≠ '\\' := by
    rintro rfl
    exact absurd range (by decide)
  have control : ¬isControl c := by
    unfold isControl
    simp only [Bool.or_eq_true,Bool.and_eq_true,decide_eq_true_eq]
    omega
  simp [isBasic,quote,backslash,control]

theorem isBasic_relativePath (plain : PlainNames fs staticDir) {file : Loc × Content} (member : file ∈ fs.filesUnder staticDir) :
    ∀ c ∈ relativePath file.1, isBasic c := by
  intro c inside
  rcases mem_relativePath.mp inside with ⟨name,named,own⟩ | ⟨rfl,_⟩
  · exact plain file member name named c own
  · decide

theorem backslash_not_mem_relativePath (plain : PlainNames fs staticDir) {file : Loc × Content}
    (member : file ∈ fs.filesUnder staticDir) : '\\' ∉ relativePath file.1 := by
  intro inside
  exact absurd (isBasic_relativePath plain member _ inside) (by decide)

theorem readsBack_of_plain (reader : Reader) (hexadecimal : ∀ content, ∀ c ∈ env.sha256 content, isHexadecimal c)
    (plain : PlainNames fs staticDir) : ReadsBack reader env fs staticDir := by
  have kept : entries env fs staticDir = (listed fs staticDir).map fun file => (relativePath file.1,env.sha256 file.2) := by
    apply List.map_congr_left
    intro file member
    rw [rewritten_of_free (backslash_not_mem_relativePath plain (listed_perm.mem_iff.mp member))]
  have basic : ∀ entry ∈ entries env fs staticDir, (∀ c ∈ entry.1, isBasic c) ∧ ∀ c ∈ entry.2, isBasic c := by
    intro entry member
    rw [kept] at member
    obtain ⟨file,inside,rfl⟩ := List.mem_map.mp member
    exact ⟨isBasic_relativePath plain (listed_perm.mem_iff.mp inside),
      fun c digit => isBasic_of_isHexadecimal (hexadecimal _ c digit)⟩
  have distinct : ((entries env fs staticDir).map Prod.fst).Nodup := by
    rw [kept,List.map_map]
    have apart : (listed fs staticDir).Pairwise fun first second => first.1 ≠ second.1 :=
      (listed_perm.pairwise_iff fun different => Ne.symm different).mpr distinct_filesUnder
    apply List.pairwise_map.mpr
    refine apart.imp_of_mem ?_
    intro first second member member' different same
    obtain ⟨some',free⟩ := named_of_mem (listed_perm.mem_iff.mp member)
    obtain ⟨someOther,freeOther⟩ := named_of_mem (listed_perm.mem_iff.mp member')
    exact different (relativePath_injective some' someOther free freeOther same)
  obtain ⟨table,parsed,perm⟩ := reader.reads "files".toList (entries env fs staticDir) (by decide +kernel)
    (forall_mem_of_all (by decide)) basic distinct
  refine ⟨table,?_,perm.trans ?_⟩
  · rw [checksumsText_eq]
    exact parsed
  · rw [kept,List.map_map]
    exact listed_perm.map _

theorem backslash_not_mem_checksumsText (hexadecimal : ∀ content, ∀ c ∈ env.sha256 content, isHexadecimal c) :
    '\\' ∉ checksumsText env fs staticDir := by
  have digest (content : Content) : '\\' ∉ env.sha256 content := fun inside =>
    absurd (isBasic_of_isHexadecimal (hexadecimal content _ inside)) (by decide)
  intro inside
  rw [checksumsText_eq,document] at inside
  rcases List.mem_append.mp inside with lines | last
  · have line : ∀ line ∈ header "files".toList :: (entries env fs staticDir).map assignment, '\\' ∉ line := by
      intro line member
      rcases List.mem_cons.mp member with rfl | later
      · decide
      · obtain ⟨entry,entered,rfl⟩ := List.mem_map.mp later
        obtain ⟨file,_,rfl⟩ := List.mem_map.mp entered
        simp [assignment,digest,backslash_not_mem_rewritten]
    obtain ⟨at_,found⟩ := List.mem_iff_append.mp lines
    obtain ⟨after,whole⟩ := found
    have part : ['\\'] <:+: ['\n'].intercalate (header "files".toList :: (entries env fs staticDir).map assignment) ++ ['\n'] :=
      ⟨at_,after ++ ['\n'],by rw [whole]; simp⟩
    obtain ⟨found,member,within⟩ := infix_of_lines (by decide) (List.cons_ne_nil _ _) part
    exact line found member (within.subset List.mem_cons_self)
  · exact absurd last (by decide)

theorem infix_key_of_literal (hexadecimal : ∀ content, ∀ c ∈ env.sha256 content, isHexadecimal c) {key : List Char}
    (plain : ∀ c ∈ key, isLiteral c) (within : apostrophe :: key ++ [apostrophe] <:+: checksumsText env fs staticDir) :
    ∃ file ∈ fs.filesUnder staticDir, apostrophe :: key ++ [apostrophe] <:+: rewritten (relativePath file.1) := by
  have line : '\n' ∉ apostrophe :: key ++ [apostrophe] := by
    have inner : '\n' ∉ key := fun member => absurd (plain _ member) (by decide)
    have quote : '\n' ≠ apostrophe := by decide
    simp [inner,quote]
  rw [checksumsText_eq,document] at within
  obtain ⟨found,member,inside⟩ := infix_of_lines line (List.cons_ne_nil _ _) within
  rcases List.mem_cons.mp member with rfl | assigned
  · exact absurd (inside.subset List.mem_cons_self) (by decide)
  · obtain ⟨entry,entered,rfl⟩ := List.mem_map.mp assigned
    obtain ⟨file,there,rfl⟩ := List.mem_map.mp entered
    refine ⟨file,listed_perm.mem_iff.mp there,?_⟩
    have digest : apostrophe ∉ "\" = \"".toList ++ env.sha256 file.2 ++ ['"'] := by
      have hex : apostrophe ∉ env.sha256 file.2 := fun digit => absurd (hexadecimal _ _ digit) (by decide)
      have first : apostrophe ∉ "\" = \"".toList := by decide
      have last : apostrophe ∉ ['"'] := by decide
      intro inside
      rcases List.mem_append.mp inside with front | back
      · rcases List.mem_append.mp front with quoted | digit
        · exact first quoted
        · exact hex digit
      · exact last back
    have key' : apostrophe :: key ++ [apostrophe] <:+: '"' :: rewritten (relativePath file.1) := by
      apply infix_of_last digest
      rw [assignment] at inside
      simpa only [List.append_assoc] using inside
    rcases List.infix_cons_iff.mp key' with starts | later
    · rw [List.cons_append] at starts
      obtain ⟨same,_⟩ := List.cons_prefix_cons.mp starts
      exact absurd same (by decide)
    · exact later

theorem plain_of_readsBack (reader : Reader) (hexadecimal : ∀ content, ∀ c ∈ env.sha256 content, isHexadecimal c)
    (back : ReadsBack reader env fs staticDir) : PlainNames fs staticDir := by
  obtain ⟨table,parsed,perm⟩ := back
  have unescaped : '\\' ∉ checksumsText env fs staticDir := backslash_not_mem_checksumsText hexadecimal
  have stands : ∀ file ∈ fs.filesUnder staticDir, ∃ form, Written (relativePath file.1) form ∧
      form <:+: checksumsText env fs staticDir := by
    intro file member
    have entered := perm.mem_iff.mpr (List.mem_map_of_mem (f := fun file => (relativePath file.1,Value.string (env.sha256 file.2))) member)
    exact reader.written _ _ unescaped parsed _ _ List.mem_cons_self _ _ entered
  have backslash : ∀ file ∈ fs.filesUnder staticDir, '\\' ∉ relativePath file.1 := by
    intro file member inside
    obtain ⟨form,written,within⟩ := stands file member
    exact unescaped ((written.isInfix.trans within).subset inside)
  -- The longest name with a quote would stand in a longer one.
  have quote : ∀ file ∈ fs.filesUnder staticDir, '"' ∉ relativePath file.1 := by
    have ends : ∀ room, ∀ file ∈ fs.filesUnder staticDir, (checksumsText env fs staticDir).length - (relativePath file.1).length = room →
        '"' ∉ relativePath file.1 := by
      intro room
      induction room using Nat.strong_induction_on with
      | _ room ih =>
        rintro file member rfl quoted
        obtain ⟨form,written,within⟩ := stands file member
        have long := within.length_le
        cases written with
        | bare plain => exact absurd (plain _ quoted) (by decide)
        | basic plain => exact absurd (plain _ quoted) (by decide)
        | literal plain =>
          obtain ⟨other,there,inside⟩ := infix_key_of_literal hexadecimal plain within
          rw [rewritten_of_free (backslash other there)] at inside
          have longer := inside.length_le
          have quotedToo : '"' ∈ relativePath other.1 := inside.subset (by simp [quoted])
          rw [List.length_append,List.length_cons,List.length_singleton] at long longer
          exact ih _ (by omega) other there rfl quotedToo
    exact fun file member => ends _ file member rfl
  intro file member name named c own
  have inside : c ∈ relativePath file.1 := mem_relativePath.mpr (.inl ⟨name,named,own⟩)
  obtain ⟨form,written,_⟩ := stands file member
  have control := written.not_isControl inside
  have plainQuote : c ≠ '"' := fun same => quote file member (same ▸ inside)
  have plainBackslash : c ≠ '\\' := fun same => backslash file member (same ▸ inside)
  simp [isBasic,plainQuote,plainBackslash,control]

end Entries

/-- The list of checksums can be read back exactly if no name of a file needs an escape. -/
theorem checksums_read_back_iff (reader : Reader) (env : Environment) (fs : FileSystem) (staticDir : List Component)
    (hexadecimal : ∀ content, ∀ c ∈ env.sha256 content, isHexadecimal c) :
    ReadsBack reader env fs staticDir ↔ PlainNames fs staticDir :=
  ⟨plain_of_readsBack reader hexadecimal,readsBack_of_plain reader hexadecimal⟩

def emptyFiles : Environment where
  fromStr := fun _ => none
  toToml := fun _ _ _ _ => none
  sha256 := fun _ => "e3b0c44298fc1c149afbf4c8996fb92427ae41e4649b934ca495991b7852b855".toList
  stops := fun _ _ => none

private theorem emptyFiles_hexadecimal (content : Content) : ∀ c ∈ emptyFiles.sha256 content, isHexadecimal c := by
  change ∀ c ∈ "e3b0c44298fc1c149afbf4c8996fb92427ae41e4649b934ca495991b7852b855".toList, isHexadecimal c
  exact forall_mem_of_all (by decide +kernel)

def oneFile (name : Name) (valid : ValidName name) : FileSystem where
  nodes := [(["static".toList],.dir),(["static".toList,name],.file [])]
  distinct := by simp
  placed := by
    intro entry member
    rcases List.mem_cons.mp member with rfl | later
    · exact ⟨[],"static".toList,rfl,by decide,rfl⟩
    · rw [List.mem_singleton.mp later]
      exact ⟨["static".toList],name,rfl,valid,by simp [nodeIn]⟩

theorem index_reads_back :
    ReadsBack lineReader emptyFiles (oneFile "index.html".toList (by decide)) (components "/static".toList) ↔
      PlainNames (oneFile "index.html".toList (by decide)) (components "/static".toList) :=
  checksums_read_back_iff lineReader emptyFiles _ _ emptyFiles_hexadecimal

/-- A quote in a name ends the key. -/
theorem quoted_name_is_lost :
    ¬ReadsBack lineReader emptyFiles (oneFile "a\"b.txt".toList (by decide)) (components "/static".toList) := by
  intro back
  exact absurd (plain_of_readsBack lineReader emptyFiles_hexadecimal back) (by decide +kernel)

end GrassWorker.BuildOutput
