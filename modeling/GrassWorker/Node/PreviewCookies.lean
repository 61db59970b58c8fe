import GrassWorker.Node.Gateway

/-! What is left of the cookies of a request when the preview grant has been taken out. Cookie pairs are read off the
bytes of a line, so that a line which is not visible ASCII has its pairs too. -/
namespace GrassWorker.Gateway
open Headers Validator

def isBlank (byte : UInt8) : Bool := byte = 9 ∨ byte = 32

def trimBlanks (value : HeaderValue) : HeaderValue := (value.dropWhile isBlank).rdropWhile isBlank

/-- The cookie pairs of a line: what is between semicolons and has an equals sign. -/
def cookies (value : HeaderValue) : List HeaderValue := ((value.splitOn 59).map trimBlanks).filter fun pair => 61 ∈ pair

def cookieName (pair : HeaderValue) : HeaderValue := pair.takeWhile (· ≠ 61)

def isGrant (pair : HeaderValue) : Bool :=
  cookieName pair = utf8 securePreviewCookie ∨ cookieName pair = utf8 insecurePreviewCookie

def others (value : HeaderValue) : List HeaderValue := (cookies value).filter fun pair => !isGrant pair

def cookiesOf (headers : HeaderMap) : List HeaderValue := (headers.getAll "cookie").flatMap cookies

def StripsGrant (headers : HeaderMap) : Prop :=
  (∀ pair ∈ cookiesOf (stripPreviewCookieHeader headers), isGrant pair = false) ∧
    (cookiesOf (stripPreviewCookieHeader headers)).filter (fun pair => !isGrant pair) =
      (cookiesOf headers).filter fun pair => !isGrant pair

/-- Other cookies come in the first line only, and only if it is visible ASCII. -/
def OthersFirst (headers : HeaderMap) : Prop :=
  (∀ first ∈ (headers.getAll "cookie").head?, (toStr first).isSome ∨ others first = []) ∧
    ∀ value ∈ (headers.getAll "cookie").tail, others value = []

instance (headers : HeaderMap) : Decidable (OthersFirst headers) := inferInstanceAs (Decidable (_ ∧ _))

/-! Visible bytes and their characters. -/

def isVisible (byte : UInt8) : Bool := byte = 9 ∨ 32 ≤ byte ∧ byte < 127

def character (byte : UInt8) : Char := Char.ofNat byte.toNat

section Characters
variable {value text : HeaderValue} {byte : UInt8}

theorem toNat_character (byte : UInt8) : (character byte).toNat = byte.toNat := by
  have small := byte.toNat_lt
  have valid : byte.toNat.isValidChar := .inl (by omega)
  unfold character Char.ofNat
  rw [dif_pos valid]
  rfl

theorem character_injective : Function.Injective character := by
  intro one two same
  have equal := congrArg Char.toNat same
  rw [toNat_character,toNat_character] at equal
  exact UInt8.toNat_inj.mp equal

theorem toStr_eq (visible : value.all isVisible) : toStr value = some (value.map character) := if_pos visible

theorem toStr_isSome : (toStr value).isSome ↔ value.all isVisible := by
  unfold toStr
  change (if value.all isVisible then _ else _ : Option (List Char)).isSome = true ↔ _
  split
  · rename_i visible
    simp [visible]
  · rename_i hidden
    simp [hidden]

theorem isWhitespace_character (visible : isVisible byte) : isWhitespace (character byte) = isBlank byte := by
  have known : ∀ code : Fin 256, isVisible (.ofNat code.val) → isWhitespace (character (.ofNat code.val)) = isBlank (.ofNat code.val) := by
    decide +kernel
  have same : UInt8.ofNat byte.toNat = byte := UInt8.ofNat_toNat
  have held := known ⟨byte.toNat,byte.toNat_lt⟩
  rw [same] at held
  exact held visible

theorem utf8EncodeChar_character (visible : isVisible byte) : String.utf8EncodeChar (character byte) = [byte] := by
  have known : ∀ code : Fin 256, isVisible (.ofNat code.val) → String.utf8EncodeChar (character (.ofNat code.val)) = [.ofNat code.val] := by
    decide +kernel
  have same : UInt8.ofNat byte.toNat = byte := UInt8.ofNat_toNat
  have held := known ⟨byte.toNat,byte.toNat_lt⟩
  rw [same] at held
  exact held visible

theorem utf8_map_character (visible : value.all isVisible) : utf8 (value.map character) = value := by
  induction value with
  | nil => rfl
  | cons byte rest ih =>
    rw [List.all_cons,Bool.and_eq_true] at visible
    unfold utf8 at ih ⊢
    rw [List.map_cons,List.flatMap_cons,utf8EncodeChar_character visible.1,ih visible.2]
    rfl

theorem fromStr_map_character (visible : value.all isVisible) : fromStr (value.map character) = some value := by
  unfold fromStr
  rw [utf8_map_character visible]
  refine if_pos (List.all_eq_true.mpr ?_)
  intro byte member
  have known := List.all_eq_true.mp visible byte member
  unfold isVisible at known
  rw [decide_eq_true_iff] at known ⊢
  refine known.imp_right fun between => ⟨between.1,?_⟩
  rintro rfl
  exact absurd between.2 (by decide)

theorem splitOn_map_character (separator : UInt8) (value : HeaderValue) :
    (value.map character).splitOn (character separator) = (value.splitOn separator).map (List.map character) := by
  induction value with
  | nil => rfl
  | cons byte rest ih =>
    rw [List.map_cons,List.splitOn_cons_eq_if_modifyHead,List.splitOn_cons_eq_if_modifyHead,ih]
    by_cases same : byte = separator
    · subst same
      simp
    · have apart : character byte ≠ character separator := fun equal => same (character_injective equal)
      rw [if_neg (by simpa using apart),if_neg (by simpa using same)]
      cases rest.splitOn separator with
      | nil => rfl
      | cons first others => rfl

theorem dropWhile_map_character (visible : value.all isVisible) :
    (value.map character).dropWhile isWhitespace = (value.dropWhile isBlank).map character := by
  induction value with
  | nil => rfl
  | cons byte rest ih =>
    rw [List.all_cons,Bool.and_eq_true] at visible
    rw [List.map_cons,List.dropWhile_cons,List.dropWhile_cons,isWhitespace_character visible.1,ih visible.2]
    split <;> rfl

theorem all_of_sublist (fewer : text.Sublist value) (visible : value.all isVisible) : text.all isVisible :=
  List.all_eq_true.mpr fun byte member => List.all_eq_true.mp visible byte (fewer.subset member)

theorem trim_map_character (visible : value.all isVisible) : trim (value.map character) = (trimBlanks value).map character := by
  have inner := all_of_sublist (List.dropWhile_sublist isBlank) visible
  have reversed : (value.dropWhile isBlank).reverse.all isVisible := by rwa [List.all_reverse]
  unfold trim trimBlanks List.rdropWhile
  rw [dropWhile_map_character visible,← List.map_reverse,dropWhile_map_character reversed,List.map_reverse]

theorem all_splitOn {separator : UInt8} (visible : value.all isVisible) : ∀ piece ∈ value.splitOn separator, piece.all isVisible := by
  induction value with
  | nil =>
    intro piece member
    rw [List.splitOn_nil,List.mem_singleton] at member
    rw [member]
    rfl
  | cons byte rest ih =>
    rw [List.all_cons,Bool.and_eq_true] at visible
    rw [List.splitOn_cons_eq_if_modifyHead]
    intro piece member
    split at member
    · rcases List.mem_cons.mp member with rfl | later
      · rfl
      · exact ih visible.2 piece later
    · cases pieces : rest.splitOn separator with
      | nil =>
        rw [pieces] at member
        cases member
      | cons first others =>
        rw [pieces,List.modifyHead_cons] at member
        rcases List.mem_cons.mp member with rfl | later
        · rw [List.all_cons,visible.1,ih visible.2 first (by rw [pieces]; exact List.mem_cons_self)]
          rfl
        · exact ih visible.2 piece (by rw [pieces]; exact List.mem_cons_of_mem _ later)

theorem not_mem_splitOn {separator : UInt8} (value : HeaderValue) : ∀ piece ∈ value.splitOn separator, separator ∉ piece := by
  induction value with
  | nil =>
    intro piece member
    rw [List.splitOn_nil,List.mem_singleton] at member
    rw [member]
    exact List.not_mem_nil
  | cons byte rest ih =>
    rw [List.splitOn_cons_eq_if_modifyHead]
    intro piece member
    split at member
    · rcases List.mem_cons.mp member with rfl | later
      · exact List.not_mem_nil
      · exact ih piece later
    · rename_i other
      cases pieces : rest.splitOn separator with
      | nil =>
        rw [pieces] at member
        cases member
      | cons first others =>
        rw [pieces,List.modifyHead_cons] at member
        rcases List.mem_cons.mp member with rfl | later
        · rw [List.mem_cons,not_or]
          exact ⟨fun same => other (beq_iff_eq.mpr same.symm),ih first (by rw [pieces]; exact List.mem_cons_self)⟩
        · exact ih piece (by rw [pieces]; exact List.mem_cons_of_mem _ later)

theorem trimBlanks_sublist (value : HeaderValue) : (trimBlanks value).Sublist value :=
  (List.rdropWhile_prefix isBlank _).sublist.trans (List.dropWhile_sublist isBlank)

theorem trimBlanks_idem (value : HeaderValue) : trimBlanks (trimBlanks value) = trimBlanks value := by
  have first : (trimBlanks value).dropWhile isBlank = trimBlanks value := by
    rw [List.dropWhile_eq_self_iff]
    intro positive
    obtain ⟨rest,whole⟩ : trimBlanks value <+: value.dropWhile isBlank := List.rdropWhile_prefix isBlank _
    have there : 0 < (value.dropWhile isBlank).length := by
      rw [← whole,List.length_append]
      omega
    have same : (trimBlanks value)[0] = (value.dropWhile isBlank)[0] := by
      simp only [← whole,List.getElem_append_left positive]
    rw [same]
    exact List.dropWhile_eq_self_iff.mp (List.dropWhile_idempotent isBlank value) there
  change ((trimBlanks value).dropWhile isBlank).rdropWhile isBlank = trimBlanks value
  rw [first]
  exact List.rdropWhile_idempotent isBlank _

theorem trimBlanks_blank (value : HeaderValue) : trimBlanks (32 :: value) = trimBlanks value := by
  unfold trimBlanks
  rw [List.dropWhile_cons_of_pos (by decide)]

end Characters

/-! The pairs of a line, as the code reads and writes them. -/
section Pairs
variable {value pair : HeaderValue} {headers : HeaderMap}

theorem kept_map_character (pair : HeaderValue) :
    ((splitOnce '=' (pair.map character)).any fun (name,_) => name ≠ securePreviewCookie ∧ name ≠ insecurePreviewCookie) =
      (decide (61 ∈ pair) && !isGrant pair) := by
  have equals : '=' = character 61 := by decide
  have name : (pair.map character).takeWhile (fun c => decide (c ≠ '=')) = (cookieName pair).map character := by
    unfold cookieName
    rw [equals,List.takeWhile_map]
    congr 1
    refine congrArg (fun wanted => List.takeWhile wanted pair) ?_
    funext byte
    simp only [Function.comp_apply,ne_eq,character_injective.eq_iff]
  have injective := List.map_injective_iff.mpr character_injective
  have named {expected : List Char} (ascii : expected = (utf8 expected).map character) :
      (cookieName pair).map character = expected ↔ cookieName pair = utf8 expected :=
    ⟨fun same => injective (same.trans ascii),fun same => by rw [same,← ascii]⟩
  have secure := @named securePreviewCookie (by decide +kernel)
  have insecure := @named insecurePreviewCookie (by decide +kernel)
  unfold splitOnce
  rw [name]
  by_cases inside : 61 ∈ pair
  · have there : '=' ∈ pair.map character := by
      rw [equals]
      exact List.mem_map_of_mem inside
    rw [if_pos there,Option.any_some,decide_eq_true inside,Bool.true_and]
    simp only [isGrant,ne_eq,secure,insecure]
    rw [Bool.eq_iff_iff,Bool.not_eq_true',decide_eq_true_iff,decide_eq_false_iff_not,not_or]
  · have absent : '=' ∉ pair.map character := by
      rw [equals,List.mem_map_of_injective character_injective]
      exact inside
    rw [if_neg absent,decide_eq_false inside]
    rfl

theorem others_eq (value : HeaderValue) :
    others value = ((value.splitOn 59).map trimBlanks).filter fun pair => decide (61 ∈ pair) && !isGrant pair := by
  unfold others cookies
  rw [List.filter_filter]
  congr 1
  funext pair
  exact Bool.and_comm _ _

theorem map_intercalate_character (pairs : List HeaderValue) :
    ("; ".toList).intercalate (pairs.map (List.map character)) = (([59,32] : HeaderValue).intercalate pairs).map character := by
  induction pairs with
  | nil => rfl
  | cons first rest ih =>
    cases rest with
    | nil => simp
    | cons second rest =>
      simp only [List.map_cons] at ih ⊢
      rw [List.intercalate_cons_cons,List.intercalate_cons_cons,ih,List.map_append,List.map_append]
      rfl

theorem stripPreviewCookie_map (visible : value.all isVisible) :
    stripPreviewCookie (value.map character) =
      if others value = [] then none else some ((([59,32] : HeaderValue).intercalate (others value)).map character) := by
  have semicolon : ';' = character 59 := by decide
  have pairs : cookiePairs (value.map character) = ((value.splitOn 59).map trimBlanks).map (List.map character) := by
    unfold cookiePairs
    rw [semicolon,splitOn_map_character,List.map_map,List.map_map]
    refine List.map_congr_left ?_
    intro piece member
    exact trim_map_character (all_splitOn visible piece member)
  have kept : (cookiePairs (value.map character)).filter (fun pair => (splitOnce '=' pair).any fun (name,_) =>
      name ≠ securePreviewCookie ∧ name ≠ insecurePreviewCookie) = (others value).map (List.map character) := by
    rw [pairs,List.filter_map,others_eq]
    refine congrArg (List.map (List.map character)) (List.filter_congr ?_)
    intro pair _
    exact kept_map_character pair
  unfold stripPreviewCookie
  simp only [kept,List.map_eq_nil_iff,map_intercalate_character]

theorem others_mem (member : pair ∈ others value) :
    trimBlanks pair = pair ∧ 59 ∉ pair ∧ 61 ∈ pair ∧ isGrant pair = false ∧
      (value.all isVisible → pair.all isVisible) := by
  rw [others_eq] at member
  obtain ⟨inside,chosen⟩ := List.mem_filter.mp member
  obtain ⟨piece,split,rfl⟩ := List.mem_map.mp inside
  rw [Bool.and_eq_true,Bool.not_eq_true',decide_eq_true_iff] at chosen
  have fewer := trimBlanks_sublist piece
  exact ⟨trimBlanks_idem piece,fun semicolon => not_mem_splitOn value piece split (fewer.subset semicolon),chosen.1,chosen.2,
    fun visible => all_of_sublist fewer (all_splitOn visible piece split)⟩

theorem splitOn_join {pairs : List HeaderValue} (some' : pairs ≠ []) (plain : ∀ pair ∈ pairs, trimBlanks pair = pair ∧ 59 ∉ pair) :
    ((([59,32] : HeaderValue).intercalate pairs).splitOn 59).map trimBlanks = pairs := by
  induction pairs with
  | nil => exact absurd rfl some'
  | cons first rest ih =>
    obtain ⟨trimmed,whole⟩ := plain first List.mem_cons_self
    cases rest with
    | nil => rw [List.intercalate_singleton,List.splitOn_eq_singleton whole,List.map_singleton,trimmed]
    | cons second rest =>
      have later := ih (List.cons_ne_nil _ _) fun pair member => plain pair (List.mem_cons_of_mem _ member)
      rw [List.intercalate_cons_cons,List.append_assoc,List.cons_append,List.cons_append,List.nil_append,
        List.splitOn_append_cons_self_of_not_mem whole,List.map_cons,trimmed]
      refine congrArg (List.cons first) ?_
      generalize ([59,32] : HeaderValue).intercalate (second :: rest) = text at later
      rw [← later,List.splitOn_cons_eq_if_modifyHead,if_neg (by decide)]
      cases pieces : text.splitOn 59 with
      | nil => rfl
      | cons head tail => rw [List.modifyHead_cons,List.map_cons,List.map_cons,trimBlanks_blank]

theorem visible_join {pairs : List HeaderValue} (visible : ∀ pair ∈ pairs, pair.all isVisible) :
    (([59,32] : HeaderValue).intercalate pairs).all isVisible := by
  induction pairs with
  | nil => rfl
  | cons first rest ih =>
    have front := visible first List.mem_cons_self
    cases rest with
    | nil => rwa [List.intercalate_singleton]
    | cons second rest =>
      have later := ih fun pair member => visible pair (List.mem_cons_of_mem _ member)
      rw [List.intercalate_cons_cons,List.all_append,List.all_append,front,later]
      rfl

theorem cookiesOf_stripped : cookiesOf (stripPreviewCookieHeader headers) =
    match (headers.getAll "cookie").head? with
    | some first => if first.all isVisible then others first else []
    | none => [] := by
  unfold stripPreviewCookieHeader cookiesOf HeaderMap.get
  cases (headers.getAll "cookie").head? with
  | none => simp
  | some first =>
    by_cases visible : first.all isVisible
    · simp only [Option.bind_some,toStr_eq visible,stripPreviewCookie_map visible,if_pos visible]
      by_cases bare : others first = []
      · simp [bare]
      · have joined := visible_join fun pair member => (others_mem member).2.2.2.2 visible
        simp only [if_neg bare,Option.bind_some,fromStr_map_character joined,HeaderMap.getAll_insert_self,List.flatMap_singleton]
        unfold cookies
        rw [splitOn_join bare fun pair member => ⟨(others_mem member).1,(others_mem member).2.1⟩,List.filter_eq_self]
        exact fun pair member => decide_eq_true (others_mem member).2.2.1
    · have unread : toStr first = none := if_neg visible
      simp [unread,visible]

end Pairs

/-- Stripping takes out the grant and nothing else exactly if other cookies come in a readable first line. -/
theorem strip_preview_cookie_header_iff (headers : HeaderMap) : StripsGrant headers ↔ OthersFirst headers := by
  have free : ∀ value, (others value).filter (fun pair => !isGrant pair) = others value := by
    intro value
    rw [List.filter_eq_self]
    intro pair member
    rw [(others_mem member).2.2.2.1]
    rfl
  have whole : (cookiesOf headers).filter (fun pair => !isGrant pair) = (headers.getAll "cookie").flatMap others := by
    unfold cookiesOf
    rw [List.filter_flatMap]
    rfl
  unfold StripsGrant OthersFirst
  rw [whole,cookiesOf_stripped]
  cases headers.getAll "cookie" with
  | nil => simp
  | cons first rest =>
    rw [List.head?_cons,List.tail_cons,List.flatMap_cons]
    simp only [Option.mem_some_iff,forall_eq',toStr_isSome]
    by_cases visible : first.all isVisible
    · rw [if_pos visible,free,List.self_eq_append_right,List.flatMap_eq_nil_iff]
      constructor
      · exact fun both => ⟨.inl visible,both.2⟩
      · exact fun both => ⟨fun pair member => (others_mem member).2.2.2.1,both.2⟩
    · rw [if_neg visible,List.filter_nil,eq_comm,List.append_eq_nil_iff,List.flatMap_eq_nil_iff]
      constructor
      · exact fun both => ⟨.inr both.2.1,both.2.2⟩
      · exact fun both => ⟨fun pair impossible => absurd impossible List.not_mem_nil,both.1.resolve_left visible,both.2⟩

def twoCookieLines : HeaderMap := HeaderMap.parse
  [("cookie",utf8 "gw_preview_access=grant".toList),("cookie",utf8 "session=abc".toList)]

theorem second_cookie_line_is_lost : ¬StripsGrant twoCookieLines := by
  intro strips
  have gone : cookiesOf (stripPreviewCookieHeader twoCookieLines) = [] := by decide +kernel
  have there : (cookiesOf twoCookieLines).filter (fun pair => !isGrant pair) = [utf8 "session=abc".toList] := by decide +kernel
  have kept := strips.2
  rw [gone,there] at kept
  cases kept

end GrassWorker.Gateway
