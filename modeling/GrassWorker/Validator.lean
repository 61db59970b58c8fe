import Mathlib.Algebra.GroupWithZero.Nat
import Mathlib.Data.Char
import Mathlib.Data.List.DropRight

/-! Normalization of slugs, email addresses and host names, on the characters of the value. -/
namespace GrassWorker.Validator

/-- Unicode `White_Space`, which `trim` removes. -/
def isWhitespace (c : Char) : Bool :=
  (9 ≤ c.toNat ∧ c.toNat ≤ 13) ∨ c.toNat = 0x20 ∨ c.toNat = 0x85 ∨ c.toNat = 0xA0 ∨ c.toNat = 0x1680 ∨
    (0x2000 ≤ c.toNat ∧ c.toNat ≤ 0x200A) ∨ c.toNat = 0x2028 ∨ c.toNat = 0x2029 ∨ c.toNat = 0x202F ∨
    c.toNat = 0x205F ∨ c.toNat = 0x3000

def isAsciiWhitespace (c : Char) : Bool :=
  c.toNat = 9 ∨ c.toNat = 10 ∨ c.toNat = 12 ∨ c.toNat = 13 ∨ c.toNat = 32

def isLowerAlphanumeric (c : Char) : Bool :=
  (97 ≤ c.toNat ∧ c.toNat ≤ 122) ∨ (48 ≤ c.toNat ∧ c.toNat ≤ 57)

def isAsciiAlphanumeric (c : Char) : Bool := isLowerAlphanumeric c ∨ (65 ≤ c.toNat ∧ c.toNat ≤ 90)

def toAsciiLowercase (c : Char) : Char :=
  if 65 ≤ c.toNat ∧ c.toNat ≤ 90 then Char.ofNat (c.toNat + 32) else c

def trim (text : List Char) : List Char := (text.dropWhile isWhitespace).rdropWhile isWhitespace

def trimEnd (c : Char) (text : List Char) : List Char := text.rdropWhile (· = c)

def byteLength (text : List Char) : Nat := (text.map Char.utf8Size).sum

inductive EmailError
  | invalid | tooLong
deriving DecidableEq, Repr

def EmailError.message : EmailError → String
  | .invalid => "invalid email address"
  | .tooLong => "email address must not exceed 320 characters"

def isAscii (c : Char) : Bool := c.toNat < 128

def isAsciiControl (c : Char) : Bool := c.toNat < 32 ∨ c.toNat = 127

def normalizeEmail (value : List Char) : Except EmailError (List Char) :=
  let value := trim value
  if 320 < byteLength value then .error .tooLong
  else
    match value.span (· ≠ '@') with
    | (_,[]) => .error .invalid
    | (localPart,_ :: domain) =>
      if localPart = [] ∨ domain = [] ∨ '@' ∈ domain ∨
          value.any fun c => !isAscii c || isAsciiWhitespace c || isAsciiControl c then .error .invalid
      else .ok (value.map toAsciiLowercase)

inductive SlugError
  | empty | invalidCharacter | tooLong
deriving DecidableEq, Repr

def SlugError.message : SlugError → String
  | .empty => "slug is required"
  | .invalidCharacter => "slug may contain only ASCII letters, numbers, and separators"
  | .tooLong => "slug must not exceed 120 characters"

structure SlugScan where
  normalized : List Char := []
  separatorPending : Bool := false
deriving DecidableEq

def SlugScan.push (scan : SlugScan) (c : Char) : SlugScan where
  normalized := scan.normalized ++
    (if scan.separatorPending ∧ scan.normalized ≠ [] then ['-'] else []) ++ [toAsciiLowercase c]
  separatorPending := false

def slugStep (scan : SlugScan) (c : Char) : Except SlugError SlugScan := do
  let next ← if isAsciiAlphanumeric c then pure (scan.push c)
    else if c = '-' ∨ c = '_' ∨ isAsciiWhitespace c then
      pure { scan with separatorPending := scan.normalized ≠ [] }
    else throw .invalidCharacter
  if 120 < byteLength next.normalized then throw .tooLong else return next

def normalizeSlug (value : String) : Except SlugError String := do
  let scan ← (trim value.toList).foldlM slugStep {}
  if scan.normalized = [] then throw .empty else return String.ofList scan.normalized

def splitWhitespace (text : List Char) : List (List Char) := (text.splitOnP isWhitespace).filter (· ≠ [])

def normalizeRegion (value : String) : Except SlugError String :=
  let normalized := (['-'].intercalate (splitWhitespace value.toList)).map toAsciiLowercase
  if normalized = [] then .error .empty
  else if ¬normalized.all fun c => isAsciiAlphanumeric c ∨ c = '-' ∨ c = '_' then .error .invalidCharacter
  else if 64 < byteLength normalized then .error .tooLong
  else .ok (String.ofList normalized)

inductive HostError
  | empty | invalidCharacter | invalidLabel | tooLong
deriving DecidableEq, Repr

def HostError.message : HostError → String
  | .empty => "host is required"
  | .invalidCharacter => "host may contain only ASCII letters, numbers, dots, and dashes"
  | .invalidLabel => "host labels must be 1-63 characters and cannot start or end with a dash"
  | .tooLong => "host must not exceed 253 characters"

def checkLabel (label : List Char) : Except HostError Unit :=
  if label = [] ∨ 63 < byteLength label then .error .invalidLabel
  else if label.head? = some '-' ∨ label.getLast? = some '-' then .error .invalidLabel
  else if label.all fun c => isAsciiAlphanumeric c || c = '-' then .ok ()
  else .error .invalidCharacter

def checkLabels : List (List Char) → Except HostError Unit
  | [] => .ok ()
  | label :: rest => do
    checkLabel label
    checkLabels rest

def normalizeHost (value : String) : Except HostError String :=
  let trimmed := trimEnd '.' (trim value.toList)
  if trimmed = [] then .error .empty
  else if 253 < byteLength trimmed then .error .tooLong
  else do
    let normalized := trimmed.map toAsciiLowercase
    checkLabels (normalized.splitOn '.')
    return String.ofList normalized

/-! Well-formed text. -/

def labelCharacter (c : Char) : Prop := isLowerAlphanumeric c ∨ c = '-'

instance : DecidablePred labelCharacter := fun _ => inferInstanceAs (Decidable (_ ∨ _))

structure Label (label : List Char) : Prop where
  nonempty : label ≠ []
  short : label.length ≤ 63
  start : label.head? ≠ some '-'
  stop : label.getLast? ≠ some '-'
  characters : ∀ c ∈ label, labelCharacter c

structure Host (text : List Char) : Prop where
  short : text.length ≤ 253
  labels : ∀ label ∈ text.splitOn '.', Label label

structure Slug (text : List Char) : Prop where
  start : ∃ c rest, text = c :: rest ∧ isLowerAlphanumeric c
  characters : ∀ c ∈ text, labelCharacter c

section Characters
variable {c : Char}

theorem toNat_lt_of_lower (lower : isLowerAlphanumeric c) : 48 ≤ c.toNat ∧ c.toNat ≤ 122 := by
  simp only [isLowerAlphanumeric,decide_eq_true_eq] at lower
  omega

theorem labelCharacter_range (label : labelCharacter c) : 45 ≤ c.toNat ∧ c.toNat ≤ 122 ∧ c ≠ '.' := by
  rcases label with lower | rfl
  · have range := toNat_lt_of_lower lower
    refine ⟨by omega,range.2,?_⟩
    intro dot
    subst dot
    revert range
    decide
  · decide

theorem toNat_ofNat_of_ascii {n : Nat} (ascii : n < 128) : (Char.ofNat n).toNat = n := by
  have valid : n.isValidChar := by left; omega
  rw [Char.ofNat,dif_pos valid]
  rfl

theorem lower_alphanumeric (alphanumeric : isAsciiAlphanumeric c) : isLowerAlphanumeric (toAsciiLowercase c) := by
  simp only [isAsciiAlphanumeric,Bool.decide_or,Bool.decide_eq_true,Bool.or_eq_true,decide_eq_true_eq] at alphanumeric
  unfold toAsciiLowercase
  split
  · rename_i upper
    have code := toNat_ofNat_of_ascii (show c.toNat + 32 < 128 by omega)
    simp only [isLowerAlphanumeric,code,decide_eq_true_eq]
    omega
  · rename_i other
    exact alphanumeric.resolve_right other

theorem lowercase_idem (label : labelCharacter c) : toAsciiLowercase c = c := by
  unfold toAsciiLowercase
  refine if_neg ?_
  rcases label with lower | rfl
  · simp only [isLowerAlphanumeric,decide_eq_true_eq] at lower
    omega
  · decide

theorem isWhitespace_eq_false (low : 33 ≤ c.toNat) (high : c.toNat ≤ 122) : isWhitespace c = false := by
  simp only [isWhitespace,decide_eq_false_iff_not]
  omega

theorem utf8Size_of_ascii (ascii : c.toNat ≤ 127) : c.utf8Size = 1 := by
  unfold Char.utf8Size
  refine if_pos ?_
  exact UInt32.le_iff_toNat_le.mpr ascii

theorem labelCharacter_of_alphanumeric (alphanumeric : isAsciiAlphanumeric (toAsciiLowercase c)) :
    labelCharacter (toAsciiLowercase c) := by
  have lower := lower_alphanumeric alphanumeric
  have twice : toAsciiLowercase (toAsciiLowercase c) = toAsciiLowercase c := by
    refine if_neg ?_
    by_cases upper : 65 ≤ c.toNat ∧ c.toNat ≤ 90
    · rw [toAsciiLowercase,if_pos upper,toNat_ofNat_of_ascii (by omega)]
      omega
    · rwa [toAsciiLowercase,if_neg upper]
  rw [twice] at lower
  exact .inl lower

end Characters

section Text
variable {text label : List Char}

theorem byteLength_of_ascii (ascii : ∀ c ∈ text, c.toNat ≤ 127) : byteLength text = text.length := by
  induction text with
  | nil => rfl
  | cons c rest ih =>
    have tail := ih fun other member => ascii other (List.mem_cons_of_mem _ member)
    simp only [byteLength,List.map_cons,List.sum_cons,List.length_cons] at tail ⊢
    rw [tail,utf8Size_of_ascii (ascii c List.mem_cons_self),Nat.add_comm]

theorem length_le_byteLength (text : List Char) : text.length ≤ byteLength text := by
  induction text with
  | nil => exact Nat.le_refl _
  | cons c rest ih =>
    have positive : 0 < c.utf8Size := Char.utf8Size_pos c
    simp only [byteLength,List.map_cons,List.sum_cons,List.length_cons] at ih ⊢
    omega

theorem byteLength_toList (text : String) : byteLength text.toList = text.utf8ByteSize := by
  have built : ∀ list : List Char, byteLength list = (String.ofList list).utf8ByteSize := by
    intro list
    induction list using List.reverseRecOn with
    | nil => rfl
    | append_singleton before c ih =>
      have pushed : String.ofList (before ++ [c]) = (String.ofList before).push c := by simp
      rw [pushed,String.utf8ByteSize_push,← ih]
      simp [byteLength]
  simpa using built text.toList

theorem Label.ascii (ok : Label label) : ∀ c ∈ label, c.toNat ≤ 127 := by
  intro c member
  have range := labelCharacter_range (ok.characters c member)
  omega

theorem checkLabel_of_label (ok : Label label) : checkLabel label = .ok () := by
  have bytes : byteLength label = label.length := byteLength_of_ascii ok.ascii
  have plain : (label.all fun c => isAsciiAlphanumeric c || c = '-') = true := by
    rw [List.all_eq_true]
    intro c member
    rcases ok.characters c member with lower | rfl
    · simp [isAsciiAlphanumeric,lower]
    · rfl
  unfold checkLabel
  rw [bytes,if_neg (by simp [ok.nonempty,ok.short]),if_neg (by simp [ok.start,ok.stop]),if_pos plain]

theorem checkLabels_of_labels {labels : List (List Char)} (ok : ∀ label ∈ labels, Label label) :
    checkLabels labels = .ok () := by
  induction labels with
  | nil => rfl
  | cons label rest ih =>
    simp only [checkLabels,checkLabel_of_label (ok label List.mem_cons_self)]
    exact ih fun other member => ok other (List.mem_cons_of_mem _ member)

private theorem mem_splitOn (separator : Char) {c : Char} (member : c ∈ text) :
    c = separator ∨ ∃ label ∈ text.splitOn separator, c ∈ label := by
  induction text with
  | nil => cases member
  | cons first rest ih =>
    rw [List.splitOn_cons_eq_if_modifyHead]
    by_cases separates : first = separator
    · simp only [separates,beq_self_eq_true,if_true]
      rcases List.mem_cons.mp member with rfl | later
      · exact .inl separates
      · obtain same | ⟨label,inside,found⟩ := ih later
        · exact .inl same
        · exact .inr ⟨label,List.mem_cons_of_mem _ inside,found⟩
    · simp only [beq_eq_false_iff_ne.mpr separates,Bool.false_eq_true,if_false]
      obtain ⟨label,labels,split⟩ := List.exists_cons_of_ne_nil (List.splitOn_ne_nil separator rest)
      rw [split] at ih ⊢
      simp only [List.modifyHead_cons]
      rcases List.mem_cons.mp member with rfl | later
      · exact .inr ⟨_,List.mem_cons_self,List.mem_cons_self⟩
      · obtain same | ⟨other,inside,found⟩ := ih later
        · exact .inl same
        · rcases List.mem_cons.mp inside with rfl | inside
          · exact .inr ⟨_,List.mem_cons_self,List.mem_cons_of_mem _ found⟩
          · exact .inr ⟨other,List.mem_cons_of_mem _ inside,found⟩

theorem Host.character (host : Host text) : ∀ c ∈ text, 45 ≤ c.toNat ∧ c.toNat ≤ 122 ∧ toAsciiLowercase c = c := by
  intro c member
  rcases mem_splitOn '.' member with rfl | ⟨label,inside,found⟩
  · decide
  · have ok := (host.labels label inside).characters c found
    have range := labelCharacter_range ok
    exact ⟨range.1,range.2.1,lowercase_idem ok⟩

theorem Host.allowed (host : Host text) : ∀ c ∈ text, labelCharacter c ∨ c = '.' := by
  intro c member
  rcases mem_splitOn '.' member with dot | ⟨label,inside,found⟩
  · exact .inr dot
  · exact .inl ((host.labels label inside).characters c found)

theorem Host.nonempty (host : Host text) : text ≠ [] := by
  intro empty
  subst empty
  exact (host.labels [] (by simp)).nonempty rfl

theorem Host.last (host : Host text) (nonempty : text ≠ []) : text.getLast nonempty ≠ '.' := by
  intro dot
  have tail : text = text.dropLast ++ ['.'] := by rw [← dot,List.dropLast_append_getLast]
  have split : text.splitOn '.' = text.dropLast.splitOn '.' ++ [[]] := by
    conv_lhs => rw [tail]
    rw [List.splitOn_append_cons_self,List.splitOn_nil]
  have empty : [] ∈ text.splitOn '.' := by rw [split]; simp
  exact (host.labels [] empty).nonempty rfl

theorem trim_of_visible (visible : ∀ c ∈ text, isWhitespace c = false) : trim text = text := by
  unfold trim
  have left : text.dropWhile isWhitespace = text := by
    cases text with
    | nil => rfl
    | cons c rest => rw [List.dropWhile_cons_of_neg (by simp [visible c List.mem_cons_self])]
  rw [left,List.rdropWhile_eq_self_iff]
  intro nonempty
  simp [visible _ (List.getLast_mem nonempty)]

theorem normalizeHost_of_host (host : Host text) : normalizeHost (String.ofList text) = .ok (String.ofList text) := by
  have visible : ∀ c ∈ text, isWhitespace c = false := by
    intro c member
    have range := host.character c member
    exact isWhitespace_eq_false (by omega) range.2.1
  have trimmed : trimEnd '.' (trim text) = text := by
    rw [trim_of_visible visible,trimEnd,List.rdropWhile_eq_self_iff]
    intro nonempty
    simpa using host.last nonempty
  have bytes : byteLength text = text.length := by
    apply byteLength_of_ascii
    intro c member
    have range := host.character c member
    omega
  have lowered : text.map toAsciiLowercase = text := by
    have same : text.map toAsciiLowercase = text.map id :=
      List.map_congr_left fun c member => (host.character c member).2.2
    rw [same,List.map_id]
  have long : ¬253 < byteLength text := by
    have short := host.short
    omega
  unfold normalizeHost
  simp only [String.toList_ofList,trimmed,host.nonempty,long,if_false,lowered,
    checkLabels_of_labels host.labels]
  rfl

private theorem label_of_checkLabel (lowered : ∀ c ∈ label, ∃ origin, c = toAsciiLowercase origin)
    (ok : checkLabel label = .ok ()) : Label label := by
  unfold checkLabel at ok
  split at ok
  · cases ok
  rename_i size
  split at ok
  · cases ok
  rename_i dashes
  split at ok
  · rename_i plain
    obtain ⟨nonempty,short⟩ := not_or.mp size
    obtain ⟨start,stop⟩ := not_or.mp dashes
    have bytes := length_le_byteLength label
    refine ⟨nonempty,by omega,start,stop,?_⟩
    intro c member
    obtain ⟨origin,rfl⟩ := lowered c member
    have allowed := List.all_eq_true.mp plain _ member
    rcases Bool.or_eq_true_iff.mp allowed with alphanumeric | dash
    · exact labelCharacter_of_alphanumeric alphanumeric
    · exact .inr (of_decide_eq_true dash)
  · cases ok

private theorem checkLabels_eq_ok {labels : List (List Char)} (ok : checkLabels labels = .ok ()) :
    ∀ label ∈ labels, checkLabel label = .ok () := by
  induction labels with
  | nil => intro label impossible; cases impossible
  | cons first rest ih =>
    simp only [checkLabels] at ok
    cases checked : checkLabel first with
    | error error => rw [checked] at ok; cases ok
    | ok checkedAll =>
      rw [checked] at ok
      intro label member
      rcases List.mem_cons.mp member with rfl | later
      · exact checked
      · exact ih ok label later

private theorem mem_of_mem_splitOn {separator c : Char} (inside : label ∈ text.splitOn separator)
    (member : c ∈ label) : c ∈ text := by
  induction text generalizing label with
  | nil =>
    rw [List.splitOn_nil,List.mem_singleton] at inside
    subst inside
    cases member
  | cons first rest ih =>
    rw [List.splitOn_cons_eq_if_modifyHead] at inside
    split at inside
    · rcases List.mem_cons.mp inside with rfl | later
      · cases member
      · exact List.mem_cons_of_mem _ (ih later member)
    · obtain ⟨head,labels,split⟩ := List.exists_cons_of_ne_nil (List.splitOn_ne_nil separator rest)
      rw [split,List.modifyHead_cons] at inside
      rcases List.mem_cons.mp inside with rfl | later
      · rcases List.mem_cons.mp member with rfl | found
        · exact List.mem_cons_self
        · exact List.mem_cons_of_mem _ (ih (by rw [split]; exact List.mem_cons_self) found)
      · exact List.mem_cons_of_mem _ (ih (by rw [split]; exact List.mem_cons_of_mem _ later) member)

/-- What `normalize_host` returns is a host name. -/
theorem host_of_normalizeHost {value host : String} (ok : normalizeHost value = .ok host) : Host host.toList := by
  unfold normalizeHost at ok
  simp only at ok
  split at ok
  · cases ok
  split at ok
  · cases ok
  rename_i short
  cases checked : checkLabels ((List.map toAsciiLowercase (trimEnd '.' (trim value.toList))).splitOn '.') with
  | error error => rw [checked] at ok; cases ok
  | ok checkedAll =>
    rw [checked] at ok
    obtain rfl := Except.ok.inj ok
    have bytes := length_le_byteLength (trimEnd '.' (trim value.toList))
    rw [String.toList_ofList]
    refine ⟨by rw [List.length_map]; omega,?_⟩
    intro label inside
    refine label_of_checkLabel ?_ (checkLabels_eq_ok checked label inside)
    intro c member
    obtain ⟨origin,_,same⟩ := List.mem_map.mp (mem_of_mem_splitOn inside member)
    exact ⟨origin,same.symm⟩

/-- The fixed points of `normalize_host` are the host names. -/
theorem normalizeHost_eq_self {host : String} : normalizeHost host = .ok host ↔ Host host.toList := by
  constructor
  · exact host_of_normalizeHost
  · intro ok
    have normal := normalizeHost_of_host ok
    rwa [String.ofList_toList] at normal

theorem Host.cons (ok : Label label) (host : Host text) (short : label.length + text.length < 253) :
    Host (label ++ '.' :: text) where
  short := by
    rw [List.length_append,List.length_cons]
    omega
  labels := by
    have free : '.' ∉ label := fun dot => (labelCharacter_range (ok.characters _ dot)).2.2 rfl
    rw [List.splitOn_append_cons_self,List.splitOn_eq_singleton free]
    intro other inside
    rcases List.mem_append.mp inside with first | later
    · rw [List.mem_singleton.mp first]
      exact ok
    · exact host.labels other later

end Text

/-! Slugs. -/

section Slugs

private theorem SlugScan.push_slug {scan : SlugScan} {c : Char} (alphanumeric : isAsciiAlphanumeric c)
    (so : scan.normalized = [] ∨ Slug scan.normalized) : Slug (scan.push c).normalized := by
  have lower := lower_alphanumeric alphanumeric
  rcases so with empty | ⟨⟨first,rest,same,start⟩,characters⟩
  · refine ⟨⟨toAsciiLowercase c,[],by simp [SlugScan.push,empty],lower⟩,?_⟩
    intro other member
    simp only [SlugScan.push,empty,ne_eq,not_true_eq_false,and_false,if_false,List.append_nil,List.nil_append,
      List.mem_singleton] at member
    rw [member]
    exact .inl lower
  · refine ⟨⟨first,_,by simp only [SlugScan.push,same,List.cons_append]; rfl,start⟩,?_⟩
    intro other member
    simp only [SlugScan.push,List.mem_append,List.mem_singleton] at member
    rcases member with (old | dash) | rfl
    · exact characters other old
    · split at dash
      · rw [List.mem_singleton.mp dash]
        exact .inr rfl
      · cases dash
    · exact .inl lower

private theorem slugStep_slug {scan next : SlugScan} {c : Char} (ok : slugStep scan c = .ok next)
    (so : scan.normalized = [] ∨ Slug scan.normalized) : next.normalized = [] ∨ Slug next.normalized := by
  unfold slugStep at ok
  split at ok
  · rename_i alphanumeric
    simp only [pure_bind] at ok
    split at ok
    · cases ok
    · obtain rfl := Except.ok.inj ok
      exact .inr (SlugScan.push_slug alphanumeric so)
  · split at ok
    · simp only [pure_bind] at ok
      split at ok
      · cases ok
      · obtain rfl := Except.ok.inj ok
        exact so
    · cases ok

/-- What `normalize_slug` returns is a slug. -/
theorem slug_of_normalizeSlug {value slug : String} (ok : normalizeSlug value = .ok slug) : Slug slug.toList := by
  have scanned : ∀ (rest : List Char) (scan last : SlugScan), rest.foldlM slugStep scan = .ok last →
      (scan.normalized = [] ∨ Slug scan.normalized) → last.normalized = [] ∨ Slug last.normalized := by
    intro rest
    induction rest with
    | nil =>
      intro scan last done so
      obtain rfl := Except.ok.inj done
      exact so
    | cons c rest ih =>
      intro scan last done so
      rw [List.foldlM_cons] at done
      cases stepped : slugStep scan c with
      | error error => rw [stepped] at done; cases done
      | ok next =>
        rw [stepped] at done
        exact ih next last done (slugStep_slug stepped so)
  unfold normalizeSlug at ok
  cases done : (trim value.toList).foldlM slugStep {} with
  | error error => rw [done] at ok; cases ok
  | ok last =>
    rw [done] at ok
    simp only [Except.bind,bind] at ok
    split at ok
    · cases ok
    · rename_i nonempty
      obtain rfl := Except.ok.inj ok
      rw [String.toList_ofList]
      exact (scanned _ {} last done (.inl rfl)).resolve_left nonempty

end Slugs

end GrassWorker.Validator
