import GrassWorker.Validator

/-! The normal form of a host name. It is the name in lower case, without the whitespace around
it and the dot behind it, as long as no second dot is there. -/
namespace GrassWorker.Validator

structure NameLabel (label : List Char) : Prop where
  nonempty : label ≠ []
  short : label.length ≤ 63
  start : label.head? ≠ some '-'
  stop : label.getLast? ≠ some '-'
  characters : ∀ c ∈ label, isAsciiAlphanumeric c ∨ c = '-'

structure HostName (text : List Char) : Prop where
  short : text.length ≤ 253
  labels : ∀ label ∈ text.splitOn '.', NameLabel label

def withoutDot (text : List Char) : List Char := if text.getLast? = some '.' then text.dropLast else text

/-- What a value names: the text without the whitespace around it and one dot behind it. -/
def named (value : String) : List Char := withoutDot (trim value.toList)

def ExtraDots (value : String) : Prop :=
  ['.','.'] <:+ trim value.toList ∧ HostName (trimEnd '.' (trim value.toList))

section Lowercase
variable {c : Char} {text label : List Char}

theorem lowercase_eq_iff {other : Char} (small : other.toNat < 65) : toAsciiLowercase c = other ↔ c = other := by
  constructor
  · intro same
    unfold toAsciiLowercase at same
    split at same
    · rename_i upper
      have code := toNat_ofNat_of_ascii (show c.toNat + 32 < 128 by omega)
      rw [same] at code
      omega
    · exact same
  · rintro rfl
    exact if_neg (by omega)

theorem labelCharacter_lowercase : labelCharacter (toAsciiLowercase c) ↔ isAsciiAlphanumeric c ∨ c = '-' := by
  constructor
  · rintro (lower | dash)
    · left
      unfold toAsciiLowercase at lower
      split at lower
      · rename_i upper
        simp [isAsciiAlphanumeric,upper]
      · simp [isAsciiAlphanumeric,lower]
    · exact .inr ((lowercase_eq_iff (by decide)).mp dash)
  · rintro (alphanumeric | rfl)
    · exact .inl (lower_alphanumeric alphanumeric)
    · exact .inr rfl

theorem splitOn_lowercase : (text.map toAsciiLowercase).splitOn '.' = (text.splitOn '.').map (List.map toAsciiLowercase) := by
  induction text with
  | nil => rfl
  | cons first rest ih =>
    rw [List.map_cons,List.splitOn_cons_eq_if_modifyHead,List.splitOn_cons_eq_if_modifyHead,ih]
    by_cases dot : first = '.'
    · have lowered := (lowercase_eq_iff (show '.'.toNat < 65 by decide)).mpr dot
      rw [if_pos (beq_iff_eq.mpr lowered),if_pos (beq_iff_eq.mpr dot)]
      rfl
    · have lowered : toAsciiLowercase first ≠ '.' := fun same => dot ((lowercase_eq_iff (by decide)).mp same)
      rw [if_neg (by simpa using lowered),if_neg (by simpa using dot)]
      cases rest.splitOn '.' with
      | nil => rfl
      | cons head labels => rfl

theorem label_lowercase : Label (label.map toAsciiLowercase) ↔ NameLabel label := by
  have dash {last : Option Char} : last.map toAsciiLowercase = some '-' ↔ last = some '-' := by
    cases last with
    | none => simp
    | some c => simpa using lowercase_eq_iff (show '-'.toNat < 65 by decide)
  constructor
  · intro ok
    refine ⟨fun empty => ok.nonempty (by rw [empty]; rfl),by simpa using ok.short,?_,?_,?_⟩
    · exact fun first => ok.start (by rw [List.head?_map,dash]; exact first)
    · exact fun last => ok.stop (by rw [List.getLast?_map,dash]; exact last)
    · exact fun c member => labelCharacter_lowercase.mp (ok.characters _ (List.mem_map_of_mem member))
  · intro ok
    refine ⟨by simpa using ok.nonempty,by simpa using ok.short,?_,?_,?_⟩
    · rw [List.head?_map,ne_eq,dash]
      exact ok.start
    · rw [List.getLast?_map,ne_eq,dash]
      exact ok.stop
    · intro c member
      obtain ⟨origin,inside,rfl⟩ := List.mem_map.mp member
      exact labelCharacter_lowercase.mpr (ok.characters origin inside)

theorem host_lowercase : Host (text.map toAsciiLowercase) ↔ HostName text := by
  constructor
  · intro ok
    refine ⟨by simpa using ok.short,fun label inside => label_lowercase.mp (ok.labels _ ?_)⟩
    rw [splitOn_lowercase]
    exact List.mem_map_of_mem inside
  · intro ok
    refine ⟨by simpa using ok.short,fun label inside => ?_⟩
    rw [splitOn_lowercase] at inside
    obtain ⟨origin,member,rfl⟩ := List.mem_map.mp inside
    exact label_lowercase.mpr (ok.labels origin member)

theorem HostName.ascii (name : HostName text) : ∀ c ∈ text, c.toNat ≤ 127 := by
  intro c member
  have range := (host_lowercase.mpr name).character _ (List.mem_map_of_mem member)
  have code := range.2.1
  unfold toAsciiLowercase at code
  split at code
  · omega
  · omega

end Lowercase

section NormalForm
variable {value host : String} {text : List Char}

theorem normalizeHost_eq_ok : normalizeHost value = .ok host ↔
    HostName (trimEnd '.' (trim value.toList)) ∧ host = String.ofList ((trimEnd '.' (trim value.toList)).map toAsciiLowercase) := by
  constructor
  · intro ok
    have same : host = String.ofList ((trimEnd '.' (trim value.toList)).map toAsciiLowercase) := by
      unfold normalizeHost at ok
      simp only at ok
      split at ok
      · cases ok
      split at ok
      · cases ok
      cases checked : checkLabels ((List.map toAsciiLowercase (trimEnd '.' (trim value.toList))).splitOn '.') with
      | error problem => rw [checked] at ok; cases ok
      | ok all =>
        rw [checked] at ok
        exact (Except.ok.inj ok).symm
    have name := host_of_normalizeHost ok
    rw [same,String.toList_ofList] at name
    exact ⟨host_lowercase.mp name,same⟩
  · rintro ⟨name,rfl⟩
    have lower := host_lowercase.mpr name
    have bytes := byteLength_of_ascii name.ascii
    have short := name.short
    have nonempty : trimEnd '.' (trim value.toList) ≠ [] := fun empty => lower.nonempty (by rw [empty]; rfl)
    unfold normalizeHost
    simp only
    rw [if_neg nonempty,if_neg (by omega),checkLabels_of_labels lower.labels]
    rfl

theorem not_hostName_of_dot : ¬HostName (text ++ ['.']) := by
  intro name
  have empty : [] ∈ (text ++ ['.']).splitOn '.' := by
    rw [List.splitOn_append_cons_self,List.splitOn_nil]
    exact List.mem_append_right _ (List.mem_singleton_self _)
  exact (name.labels [] empty).nonempty rfl

theorem trimEnd_eq_withoutDot (single : ¬['.','.'] <:+ text) : trimEnd '.' text = withoutDot text := by
  induction text using List.reverseRecOn with
  | nil => rfl
  | append_singleton before last _ =>
    unfold withoutDot trimEnd
    rw [List.getLast?_concat]
    by_cases dot : last = '.'
    · subst dot
      rw [if_pos rfl,List.dropLast_concat,List.rdropWhile_concat_pos _ _ _ (by simp),List.rdropWhile_eq_self_iff]
      intro nonempty second
      apply single
      refine ⟨before.dropLast,?_⟩
      have tail : before.getLast nonempty = '.' := by simpa using second
      calc before.dropLast ++ ['.','.'] = (before.dropLast ++ [before.getLast nonempty]) ++ ['.'] := by rw [tail]; simp
        _ = before ++ ['.'] := by rw [List.dropLast_append_getLast]
    · rw [if_neg (by simpa using dot),List.rdropWhile_concat_neg _ _ _ (by simpa using dot)]

theorem not_hostName_withoutDot (double : ['.','.'] <:+ text) : ¬HostName (withoutDot text) := by
  obtain ⟨before,rfl⟩ := double
  have cut : withoutDot (before ++ ['.','.']) = before ++ ['.'] := by
    have split : before ++ ['.','.'] = (before ++ ['.']) ++ ['.'] := by simp
    unfold withoutDot
    rw [split,List.getLast?_concat,if_pos rfl,List.dropLast_concat]
  rw [cut]
  exact not_hostName_of_dot

def NormalForm (value : String) : Prop := ∀ host,
  normalizeHost value = .ok host ↔ HostName (named value) ∧ host = String.ofList ((named value).map toAsciiLowercase)

theorem normalForm_iff : NormalForm value ↔ ¬ExtraDots value := by
  constructor
  · rintro normal ⟨double,name⟩
    have accepted := (normal _).mp (normalizeHost_eq_ok.mpr ⟨name,rfl⟩)
    exact not_hostName_withoutDot double accepted.1
  · intro plain host
    rw [normalizeHost_eq_ok]
    by_cases double : ['.','.'] <:+ trim value.toList
    · constructor
      · exact fun ok => absurd ⟨double,ok.1⟩ plain
      · exact fun ok => absurd ok.1 (not_hostName_withoutDot double)
    · rw [trimEnd_eq_withoutDot double]
      rfl

theorem normalizeHost_idem (ok : normalizeHost value = .ok host) : normalizeHost host = .ok host :=
  normalizeHost_eq_self.mpr (host_of_normalizeHost ok)

theorem ofList_inj {left right : List Char} : String.ofList left = String.ofList right ↔ left = right := by
  constructor
  · intro same
    simpa using congrArg String.toList same
  · exact congrArg String.ofList

/-- What a route key is to be: the normal form of the name, a fixed point, and the same for two names that differ in case only. -/
structure CanonicalKeys (value other : String) : Prop where
  left : NormalForm value
  right : NormalForm other
  fixed : ∀ host, normalizeHost value = .ok host → normalizeHost host = .ok host
  same : ∀ host key, normalizeHost value = .ok host → normalizeHost other = .ok key →
    (host = key ↔ (named value).map toAsciiLowercase = (named other).map toAsciiLowercase)

theorem canonicalKeys_iff (value other : String) : CanonicalKeys value other ↔ ¬ExtraDots value ∧ ¬ExtraDots other := by
  constructor
  · exact fun keys => ⟨normalForm_iff.mp keys.left,normalForm_iff.mp keys.right⟩
  · rintro ⟨first,second⟩
    have left := normalForm_iff.mpr first
    have right := normalForm_iff.mpr second
    refine ⟨left,right,fun host => normalizeHost_idem,fun host key ok accepted => ?_⟩
    rw [((left host).mp ok).2,((right key).mp accepted).2]
    exact ofList_inj

/-- Two dots are cut off. -/
theorem second_dot_is_cut_off : normalizeHost "example.com.." = .ok "example.com" ∧ ¬CanonicalKeys "example.com.." "example.com" := by
  have accepted : normalizeHost "example.com.." = .ok "example.com" := by decide
  have double : ['.','.'] <:+ trim "example.com..".toList := ⟨"example.com".toList,by decide⟩
  refine ⟨accepted,fun keys => ((canonicalKeys_iff _ _).mp keys).1 ⟨double,?_⟩⟩
  exact (normalizeHost_eq_ok.mp accepted).1

end NormalForm

end GrassWorker.Validator
