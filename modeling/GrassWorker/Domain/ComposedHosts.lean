import GrassWorker.Domain.HostNames

/-! What becomes of a slug: it is groups of letters and digits joined by dashes, and the hosts
composed of it are one label in front of the base domain, as long as they are not too long. -/
namespace GrassWorker.Hosts
open Validator

/-- Groups joined by single dashes, as `normalize_slug` builds them. -/
inductive Groups : List Char → Prop
  | first {c : Char} (lower : isLowerAlphanumeric c) : Groups [c]
  | more {text : List Char} {c : Char} (before : Groups text) (lower : isLowerAlphanumeric c) : Groups (text ++ [c])
  | next {text : List Char} {c : Char} (before : Groups text) (lower : isLowerAlphanumeric c) : Groups (text ++ ['-',c])

section Groups
variable {text : List Char} {c : Char}

theorem Groups.nonempty (groups : Groups text) : text ≠ [] := by
  cases groups with
  | first lower => simp
  | more before lower => simp
  | next before lower => simp

theorem Groups.slug (groups : Groups text) : Slug text := by
  induction groups with
  | @first c lower =>
    refine ⟨⟨c,[],rfl,lower⟩,fun other member => ?_⟩
    rw [List.mem_singleton.mp member]
    exact .inl lower
  | @more text c before lower ih =>
    obtain ⟨first,rest,same,start⟩ := ih.start
    refine ⟨⟨first,rest ++ [c],by rw [same]; rfl,start⟩,fun other member => ?_⟩
    rcases List.mem_append.mp member with old | new
    · exact ih.characters other old
    · rw [List.mem_singleton.mp new]
      exact .inl lower
  | @next text c before lower ih =>
    obtain ⟨first,rest,same,start⟩ := ih.start
    refine ⟨⟨first,rest ++ ['-',c],by rw [same]; rfl,start⟩,fun other member => ?_⟩
    rcases List.mem_append.mp member with old | new
    · exact ih.characters other old
    · rcases List.mem_cons.mp new with rfl | new
      · exact .inr rfl
      · rw [List.mem_singleton.mp new]
        exact .inl lower

def Group (group : List Char) : Prop := group ≠ [] ∧ ∀ c ∈ group, isLowerAlphanumeric c

theorem intercalate_snoc (before : List (List Char)) (last group : List Char) :
    ['-'].intercalate (before ++ [last] ++ [group]) = ['-'].intercalate (before ++ [last]) ++ '-' :: group := by
  induction before with
  | nil => simp
  | cons first rest ih =>
    have left : rest ++ [last] ++ [group] ≠ [] := by simp
    have right : rest ++ [last] ≠ [] := by simp
    rw [List.cons_append,List.cons_append,List.intercalate_cons_of_ne_nil left,List.intercalate_cons_of_ne_nil right,ih]
    simp

theorem intercalate_extend (before : List (List Char)) (last suffix : List Char) :
    ['-'].intercalate (before ++ [last ++ suffix]) = ['-'].intercalate (before ++ [last]) ++ suffix := by
  induction before with
  | nil => simp
  | cons first rest ih =>
    have left : rest ++ [last ++ suffix] ≠ [] := by simp
    have right : rest ++ [last] ≠ [] := by simp
    rw [List.cons_append,List.intercalate_cons_of_ne_nil left,List.cons_append,List.intercalate_cons_of_ne_nil right,ih]
    simp

theorem Groups.intercalate (groups : Groups text) : ∃ before last,
    (∀ group ∈ before ++ [last], Group group) ∧ text = ['-'].intercalate (before ++ [last]) := by
  induction groups with
  | @first c lower => exact ⟨[],[c],by simpa [Group] using lower,by simp⟩
  | @more text c _ lower ih =>
    obtain ⟨before,last,ok,rfl⟩ := ih
    refine ⟨before,last ++ [c],fun group member => ?_,(intercalate_extend before last [c]).symm⟩
    rcases List.mem_append.mp member with old | new
    · exact ok group (List.mem_append_left _ old)
    · rw [List.mem_singleton.mp new]
      have tail := ok last (by simp)
      refine ⟨by simp,fun other inside => ?_⟩
      rcases List.mem_append.mp inside with old | new
      · exact tail.2 other old
      · rw [List.mem_singleton.mp new]
        exact lower
  | @next text c _ lower ih =>
    obtain ⟨before,last,ok,rfl⟩ := ih
    refine ⟨before ++ [last],[c],fun group member => ?_,(intercalate_snoc before last [c]).symm⟩
    rcases List.mem_append.mp member with old | new
    · exact ok group old
    · rw [List.mem_singleton.mp new]
      exact ⟨by simp,by simpa using lower⟩

theorem Groups.ascii (groups : Groups text) : byteLength text = text.length := by
  apply byteLength_of_ascii
  intro c member
  have range := labelCharacter_range (groups.slug.characters c member)
  omega

end Groups

section Scan
variable {scan next : SlugScan} {text : List Char} {c : Char} {value slug : String}

def Collected (scan : SlugScan) : Prop := scan.normalized = [] ∨ Groups scan.normalized ∧ scan.normalized.length ≤ 120

theorem groups_push (alphanumeric : isAsciiAlphanumeric c) (collected : Collected scan) : Groups (scan.push c).normalized := by
  have lower := lower_alphanumeric alphanumeric
  rcases collected with empty | ⟨groups,_⟩
  · have alone : (scan.push c).normalized = [toAsciiLowercase c] := by simp [SlugScan.push,empty]
    rw [alone]
    exact .first lower
  · cases pending : scan.separatorPending with
    | false =>
      have pushed : (scan.push c).normalized = scan.normalized ++ [toAsciiLowercase c] := by simp [SlugScan.push,pending]
      rw [pushed]
      exact groups.more lower
    | true =>
      have pushed : (scan.push c).normalized = scan.normalized ++ ['-',toAsciiLowercase c] := by
        simp [SlugScan.push,pending,groups.nonempty]
      rw [pushed]
      exact groups.next lower

theorem slugStep_collected (collected : Collected scan) (ok : slugStep scan c = .ok next) : Collected next := by
  unfold slugStep at ok
  split at ok
  · rename_i alphanumeric
    simp only [pure_bind] at ok
    split at ok
    · cases ok
    · rename_i short
      obtain rfl := Except.ok.inj ok
      have groups := groups_push alphanumeric collected
      rw [groups.ascii] at short
      exact .inr ⟨groups,by omega⟩
  · split at ok
    · simp only [pure_bind] at ok
      split at ok
      · cases ok
      · obtain rfl := Except.ok.inj ok
        exact collected
    · cases ok

theorem foldlM_collected (collected : Collected scan) (ok : text.foldlM slugStep scan = .ok next) : Collected next := by
  induction text generalizing scan with
  | nil =>
    obtain rfl := Except.ok.inj ok
    exact collected
  | cons c rest ih =>
    rw [List.foldlM_cons] at ok
    cases step : slugStep scan c with
    | error problem => rw [step] at ok; cases ok
    | ok middle =>
      rw [step] at ok
      exact ih (slugStep_collected collected step) ok

theorem groups_of_normalizeSlug (ok : normalizeSlug value = .ok slug) : Groups slug.toList ∧ slug.toList.length ≤ 120 := by
  unfold normalizeSlug at ok
  cases scanned : (trim value.toList).foldlM slugStep {} with
  | error problem => rw [scanned] at ok; cases ok
  | ok scan =>
    rw [scanned] at ok
    have collected := foldlM_collected (.inl rfl) scanned
    change (if scan.normalized = [] then throw SlugError.empty else return String.ofList scan.normalized) = _ at ok
    split at ok
    · cases ok
    · rename_i filled
      obtain rfl := Except.ok.inj ok
      rw [String.toList_ofList]
      exact collected.resolve_left filled

theorem isAsciiAlphanumeric_of_lower (lower : isLowerAlphanumeric c) : isAsciiAlphanumeric c := by
  simp [isAsciiAlphanumeric,lower]

theorem slugStep_lower (lower : isLowerAlphanumeric c) (groups : Groups (scan.push c).normalized)
    (short : (scan.push c).normalized.length ≤ 120) : slugStep scan c = .ok (scan.push c) := by
  unfold slugStep
  rw [if_pos (isAsciiAlphanumeric_of_lower lower)]
  change (if 120 < byteLength (scan.push c).normalized then throw SlugError.tooLong else return scan.push c) = _
  rw [groups.ascii,if_neg (by omega)]
  rfl

theorem slugStep_dash (groups : Groups text) (short : text.length ≤ 120) : slugStep ⟨text,false⟩ '-' = .ok ⟨text,true⟩ := by
  have long : ¬120 < byteLength text := by
    rw [groups.ascii]
    omega
  have kept : slugStep ⟨text,false⟩ '-' =
      if 120 < byteLength text then throw SlugError.tooLong else return ⟨text,decide (text ≠ [])⟩ := rfl
  rw [kept,if_neg long]
  simp only [groups.nonempty,ne_eq,not_false_eq_true,decide_true]
  rfl

theorem foldlM_groups (groups : Groups text) (short : text.length ≤ 120) : text.foldlM slugStep {} = .ok ⟨text,false⟩ := by
  have same {c : Char} (lower : isLowerAlphanumeric c) : toAsciiLowercase c = c := lowercase_idem (.inl lower)
  induction groups with
  | @first c lower =>
    have pushed : SlugScan.push {} c = ⟨[c],false⟩ := by simp [SlugScan.push,same lower]
    rw [List.foldlM_cons,slugStep_lower lower (by rw [pushed]; exact .first lower) (by rw [pushed]; simp),pushed]
    rfl
  | @more text c before lower ih =>
    rw [List.length_append,List.length_singleton] at short
    have pushed : SlugScan.push ⟨text,false⟩ c = ⟨text ++ [c],false⟩ := by simp [SlugScan.push,same lower]
    have step := @slugStep_lower ⟨text,false⟩ c lower (by rw [pushed]; exact before.more lower) (by rw [pushed]; simpa using short)
    rw [List.foldlM_append,ih (by omega)]
    simp only [bind,Except.bind,List.foldlM_cons,List.foldlM_nil,step,pushed]
    rfl
  | @next text c before lower ih =>
    rw [List.length_append,List.length_cons,List.length_singleton] at short
    have pushed : SlugScan.push ⟨text,true⟩ c = ⟨text ++ ['-',c],false⟩ := by simp [SlugScan.push,same lower,before.nonempty]
    have step := @slugStep_lower ⟨text,true⟩ c lower (by rw [pushed]; exact before.next lower) (by rw [pushed]; simpa using short)
    rw [List.foldlM_append,ih (by omega)]
    simp only [bind,Except.bind,List.foldlM_cons,List.foldlM_nil,slugStep_dash before (show text.length ≤ 120 by omega),step,pushed]
    rfl

theorem trim_groups (groups : Groups text) : trim text = text := by
  apply trim_of_visible
  intro c member
  have range := labelCharacter_range (groups.slug.characters c member)
  exact isWhitespace_eq_false (by omega) range.2.1

theorem normalizeSlug_groups (groups : Groups slug.toList) (short : slug.toList.length ≤ 120) : normalizeSlug slug = .ok slug := by
  unfold normalizeSlug
  rw [trim_groups groups,foldlM_groups groups short]
  change (if slug.toList = [] then throw SlugError.empty else return String.ofList slug.toList) = _
  rw [if_neg groups.nonempty,String.ofList_toList]
  rfl

end Scan

/-- A slug as it is to be: groups joined by single dashes, not too long, and its own normal form. -/
structure CanonicalSlug (slug : String) : Prop where
  groups : ∃ groups, groups ≠ [] ∧ (∀ group ∈ groups, Group group) ∧ slug.toList = ['-'].intercalate groups
  short : slug.toList.length ≤ 120
  fixed : normalizeSlug slug = .ok slug

theorem canonicalSlug_of_normalizeSlug {value slug : String} (ok : normalizeSlug value = .ok slug) : CanonicalSlug slug := by
  obtain ⟨groups,short⟩ := groups_of_normalizeSlug ok
  obtain ⟨before,last,each,joined⟩ := groups.intercalate
  exact ⟨⟨before ++ [last],by simp,each,joined⟩,short,normalizeSlug_groups groups short⟩

/-- A host that is accepted unchanged, and is one label in front of the base domain. -/
def ComposedHost (host baseDomain : String) : Prop :=
  normalizeHost host = .ok host ∧ ∃ label, Label label ∧ '.' ∉ label ∧ host.toList = label ++ '.' :: baseDomain.toList

section Hosts
variable {slug baseDomain : String}

theorem composedHost_iff {label : List Char} (ok : Label label) (base : Host baseDomain.toList) :
    ComposedHost (String.ofList (label ++ '.' :: baseDomain.toList)) baseDomain ↔
      label.length + 1 + baseDomain.toList.length ≤ 253 := by
  have free : '.' ∉ label := fun dot => (labelCharacter_range (ok.characters _ dot)).2.2 rfl
  unfold ComposedHost
  rw [normalizeHost_eq_self,String.toList_ofList]
  constructor
  · rintro ⟨host,_⟩
    have short := host.short
    rw [List.length_append,List.length_cons] at short
    omega
  · exact fun short => ⟨Host.cons ok base (by omega),label,ok,free,rfl⟩

def platformLength (slug : String) (attempt : Nat) : Nat :=
  (trimEnd '-' (slug.toList.take 53)).length + if attempt = 0 then 0 else 5

def previewLength (slug : String) : Nat := (trimEnd '-' (slug.toList.take 54)).length + 9

theorem length_platformLabel (attempt choice : Nat) : (platformLabel slug.toList attempt choice).length = platformLength slug attempt := by
  unfold platformLabel platformLength
  split
  · rfl
  · simp [randomSuffix]

theorem length_previewLabel (id : Uuid) : (previewLabel slug.toList id).length = previewLength slug := by
  simp [previewLabel,previewLength,shortId]

def wideDomain : List Char := ['.'].intercalate (List.replicate 4 (List.replicate 61 'a'))

theorem host_wideDomain : Host wideDomain := by
  have short : wideDomain.length ≤ 253 := by decide +kernel
  have labels : wideDomain.splitOn '.' = List.replicate 4 (List.replicate 61 'a') := by decide +kernel
  refine ⟨short,fun label member => ?_⟩
  rw [labels] at member
  obtain rfl := List.eq_of_mem_replicate member
  refine ⟨by simp,by simp,by simp,by simp,fun c inside => ?_⟩
  obtain rfl := List.eq_of_mem_replicate inside
  decide

structure ComposesHosts (slug baseDomain platform preview : String) : Prop where
  canonical : CanonicalSlug slug
  platform : ComposedHost platform baseDomain
  preview : ComposedHost preview baseDomain

theorem composes_hosts_iff {value : String} (accepted : normalizeSlug value = .ok slug)
    (base : normalizeHost baseDomain = .ok baseDomain) (attempt choice : Nat) (id : Uuid) :
    ComposesHosts slug baseDomain (platformHostCandidate slug baseDomain attempt choice) (previewHostFor slug id baseDomain) ↔
      platformLength slug attempt + 1 + baseDomain.toList.length ≤ 253 ∧ previewLength slug + 1 + baseDomain.toList.length ≤ 253 := by
  have ok := slug_of_normalizeSlug accepted
  have domain := host_of_normalizeHost base
  have platform := composedHost_iff (label_platformLabel ok attempt choice) domain
  have preview := composedHost_iff (label_previewLabel ok id) domain
  rw [length_platformLabel] at platform
  rw [length_previewLabel] at preview
  constructor
  · exact fun composes => ⟨platform.mp composes.platform,preview.mp composes.preview⟩
  · exact fun short => ⟨canonicalSlug_of_normalizeSlug accepted,platform.mpr short.1,preview.mpr short.2⟩

theorem composes_shop : ComposesHosts "my-shop" "example.com" (platformHostCandidate "my-shop" "example.com" 1 7)
    (previewHostFor "my-shop" 1 "example.com") :=
  (composes_hosts_iff (show normalizeSlug " My_Shop" = .ok "my-shop" by decide) (by decide) 1 7 1).mpr (by decide)

/-- A preview host of 261 characters. -/
theorem preview_host_too_long : normalizeSlug "shop" = .ok "shop" ∧
    normalizeHost (String.ofList wideDomain) = .ok (String.ofList wideDomain) ∧
    ¬ComposedHost (previewHostFor "shop" 1 (String.ofList wideDomain)) (String.ofList wideDomain) := by
  have slug : normalizeSlug "shop" = .ok "shop" := by decide
  have domain : Host (String.ofList wideDomain).toList := by
    rw [String.toList_ofList]
    exact host_wideDomain
  refine ⟨slug,normalizeHost_eq_self.mpr domain,fun composed => ?_⟩
  have short := (composedHost_iff (label_previewLabel (slug_of_normalizeSlug slug) 1) domain).mp composed
  rw [length_previewLabel,String.toList_ofList] at short
  have long : previewLength "shop" = 13 ∧ wideDomain.length = 247 := by decide +kernel
  omega

end Hosts

end GrassWorker.Hosts
