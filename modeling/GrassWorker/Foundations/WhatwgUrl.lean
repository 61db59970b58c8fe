import GrassWorker.Foundations.Utf8
import GrassWorker.Foundations.UnixPath

/-! What the URL standard does with a path and a query that are set: percent-encoding, which changes no byte that
percent-decoding gives, and the path state, which resolves dot segments. -/
namespace GrassWorker.WhatwgUrl

abbrev Text := List Char

def hexValue (c : Char) : Option Nat :=
  let code := c.toNat
  if 48 ≤ code ∧ code ≤ 57 then some (code - 48)
  else if 97 ≤ code ∧ code ≤ 102 then some (code - 87)
  else if 65 ≤ code ∧ code ≤ 70 then some (code - 55)
  else none

/-- The bytes a text percent-decodes to; nothing stands for a percent sign that begins no escape. -/
def units : Text → List (Option UInt8)
  | [] => []
  | c :: rest =>
    if c = '%' then
      match rest with
      | high :: low :: later =>
        match hexValue high,hexValue low with
        | some h,some l => some (UInt8.ofNat (h * 16 + l)) :: units later
        | _,_ => none :: units (high :: low :: later)
      | [other] => none :: units [other]
      | [] => [none]
    else (String.utf8EncodeChar c).map some ++ units rest

def percentDecode (text : Text) : List UInt8 := (units text).map (·.getD 37)

/-- What stays itself in every set: letters, digits, the percent sign, the underscore, dots and separators. -/
def spared (c : Char) : Bool :=
  48 ≤ c.toNat ∧ c.toNat ≤ 57 ∨ 65 ≤ c.toNat ∧ c.toNat ≤ 90 ∨ 97 ≤ c.toNat ∧ c.toNat ≤ 122 ∨ c.toNat ∈ [0x25,0x2e,0x2f,0x5c,0x5f]

structure PercentEncodeSet where
  encodes : Char → Bool
  spares : ∀ c, spared c → encodes c = false

def hexUpper (n : Nat) : Char := Char.ofNat (if n < 10 then 48 + n else 55 + n)

def escape (byte : UInt8) : Text := ['%',hexUpper (byte.toNat / 16),hexUpper (byte.toNat % 16)]

def PercentEncodeSet.encode (set : PercentEncodeSet) (text : Text) : Text :=
  text.flatMap fun c => if set.encodes c then (String.utf8EncodeChar c).flatMap escape else [c]

def dots : List Text := [".".toList,"%2e".toList,"%2E".toList]

def isSingleDot (segment : Text) : Bool := segment ∈ dots

def isDoubleDot (segment : Text) : Bool := segment ∈ dots.flatMap fun first => dots.map (first ++ ·)

def pathState : List Text → List Text → List Text
  | path,[] => path
  | path,[last] =>
    if isDoubleDot last then path.dropLast ++ [[]] else if isSingleDot last then path ++ [[]] else path ++ [last]
  | path,segment :: next :: rest =>
    pathState (if isDoubleDot segment then path.dropLast else if isSingleDot segment then path else path ++ [segment]) (next :: rest)

/-- A path of segments, or the path of a URL that is no base, which does not start with a slash. -/
inductive UrlPath
  | segments (path : List Text)
  | text (path : Text) (rootless : path.head? ≠ some '/')

def UrlPath.serialized : UrlPath → Text
  | .segments path => path.flatMap ('/' :: ·)
  | .text path _ => path

structure Url where
  scheme : Text
  host : Option Text
  port : Option Nat
  path : UrlPath
  query : Option Text
  fragment : Option Text

def isSpecial (scheme : Text) : Bool := String.ofList scheme ∈ ["ftp","file","http","https","ws","wss"]

def withoutNewlines (text : Text) : Text := text.filter fun c => c ∉ ['\t','\n','\r']

/-- The segments of a path that is set. The rule for drive letters is about a first segment of two characters, and is
left out. -/
def pathSegments (set : PercentEncodeSet) (special : Bool) (text : Text) : List Text :=
  let input := set.encode (withoutNewlines text)
  let input := if special then input.map fun c => if c = '\\' then '/' else c else input
  pathState [] ((if input.head? = some '/' then input.tail else input).splitOn '/')

def Url.setPath (set : PercentEncodeSet) (url : Url) (text : Text) : Url :=
  match url.path with
  | .text _ _ => url
  | .segments _ => { url with path := .segments (pathSegments set (isSpecial url.scheme) text) }

def Url.setQuery (set : PercentEncodeSet) (url : Url) (query : Option Text) : Url :=
  { url with query := query.map fun text => set.encode (withoutNewlines text) }

def pathSet : PercentEncodeSet where
  encodes c := c.toNat ≤ 0x20 ∨ 0x7f ≤ c.toNat ∨ c.toNat ∈ [0x22,0x23,0x3c,0x3e,0x3f,0x5e,0x60,0x7b,0x7d]
  spares := by
    intro c plain
    simp [spared] at plain ⊢
    omega

def querySet (special : Bool) : PercentEncodeSet where
  encodes c := c.toNat ≤ 0x20 ∨ 0x7f ≤ c.toNat ∨ c.toNat ∈ [0x22,0x23,0x3c,0x3e] ∨ special ∧ c.toNat = 0x27
  spares := by
    intro c plain
    simp [spared] at plain ⊢
    omega

section Encoding
variable (set : PercentEncodeSet) {c : Char} {text : Text}

@[simp] theorem encode_nil : set.encode [] = [] := rfl

@[simp] theorem encode_append (first second : Text) : set.encode (first ++ second) = set.encode first ++ set.encode second :=
  List.flatMap_append

theorem encode_cons (c : Char) (text : Text) :
    set.encode (c :: text) = (if set.encodes c then (String.utf8EncodeChar c).flatMap escape else [c]) ++ set.encode text :=
  List.flatMap_cons

theorem encode_spared (plain : spared c) (text : Text) : set.encode (c :: text) = c :: set.encode text := by
  rw [encode_cons,set.spares c plain]
  rfl

theorem encode_of_spared (plain : ∀ c ∈ text, spared c) : set.encode text = text := by
  induction text with
  | nil => rfl
  | cons c rest ih =>
    rw [encode_spared set (plain c List.mem_cons_self),ih fun d member => plain d (List.mem_cons_of_mem _ member)]

theorem spared_of_hexValue {value : Nat} (digit : hexValue c = some value) : spared c := by
  unfold hexValue at digit
  simp [spared]
  grind

theorem hexValue_hexUpper {n : Nat} (small : n < 16) : hexValue (hexUpper n) = some n := by
  have all : ∀ n : Fin 16, hexValue (hexUpper n) = some n.val := by decide
  exact all ⟨n,small⟩

end Encoding

section Units
variable {c : Char} {text : Text}

theorem units_plain (other : c ≠ '%') (text : Text) : units (c :: text) = (String.utf8EncodeChar c).map some ++ units text := by
  rw [units.eq_def]
  simp only [if_neg other]

def Stray (text : Text) : Prop :=
  ∀ high low later h l, text = high :: low :: later → hexValue high = some h → hexValue low = some l → False

theorem units_stray (stray : Stray text) : units ('%' :: text) = none :: units text := by
  rw [units.eq_def]
  simp only [if_pos]
  split
  · rename_i high low later
    split
    · rename_i h l first second
      exact (stray high low later h l rfl first second).elim
    · rfl
  · rfl
  · rfl

theorem encode_digit {set : PercentEncodeSet} {later : Text} {value : Nat} (starts : set.encode text = c :: later)
    (digit : hexValue c = some value) : ∃ rest, text = c :: rest ∧ set.encode rest = later := by
  cases text with
  | nil => cases starts
  | cons d rest =>
    rw [encode_cons] at starts
    by_cases encoded : set.encodes d
    · obtain ⟨byte,bytes,nonempty⟩ := List.exists_cons_of_length_pos (Utf8.length_utf8EncodeChar d).1
      rw [if_pos encoded,nonempty,List.flatMap_cons] at starts
      cases (List.cons.inj starts).1
      cases digit
    · rw [if_neg encoded] at starts
      cases starts
      exact ⟨rest,rfl,rfl⟩

theorem stray_encode (set : PercentEncodeSet) (stray : Stray text) : Stray (set.encode text) := by
  intro high low later h l starts first second
  obtain ⟨_,rfl,next⟩ := encode_digit starts first
  obtain ⟨rest,rfl,_⟩ := encode_digit next second
  exact stray high low rest h l rfl first second

theorem units_escape (byte : UInt8) (text : Text) : units (escape byte ++ text) = some byte :: units text := by
  have small : byte.toNat < 256 := byte.toNat_lt
  have high := hexValue_hexUpper (n := byte.toNat / 16) (by omega)
  have low := hexValue_hexUpper (n := byte.toNat % 16) (by omega)
  have whole : byte.toNat / 16 * 16 + byte.toNat % 16 = byte.toNat := by omega
  change units ('%' :: hexUpper (byte.toNat / 16) :: hexUpper (byte.toNat % 16) :: text) = _
  rw [units.eq_def]
  simp only [if_pos,high,low,whole,UInt8.ofNat_toNat]

theorem units_escapes (bytes : List UInt8) (text : Text) : units (bytes.flatMap escape ++ text) = bytes.map some ++ units text := by
  induction bytes with
  | nil => rfl
  | cons byte rest ih =>
    rw [List.flatMap_cons,List.append_assoc,units_escape,ih]
    rfl

theorem units_encode (set : PercentEncodeSet) (text : Text) : units (set.encode text) = units text := by
  have strays {text : Text} (stray : Stray text) (ih : units (set.encode text) = units text) :
      units (set.encode ('%' :: text)) = units ('%' :: text) := by
    rw [encode_spared set (by decide),units_stray stray,units_stray (stray_encode set stray),ih]
  induction text using units.induct with
  | case1 => rfl
  | case2 high low later h l second first ih =>
    rw [encode_spared set (by decide),encode_spared set (spared_of_hexValue first),encode_spared set (spared_of_hexValue second)]
    rw [units.eq_def,units.eq_def ('%' :: _)]
    simp only [if_pos,first,second,ih]
  | case3 high low later apart ih =>
    refine strays ?_ ih
    rintro _ _ _ h l ⟨⟩ first second
    exact apart h l first second
  | case4 other ih =>
    refine strays ?_ ih
    rintro _ _ _ _ _ ⟨⟩
  | case5 =>
    refine strays ?_ rfl
    rintro _ _ _ _ _ ⟨⟩
  | case6 c rest other ih =>
    rw [encode_cons,units_plain other]
    split
    · rw [units_escapes,ih]
    · rw [List.singleton_append,units_plain other,ih]

theorem units_slash (path rest : Text) : units (path ++ '/' :: rest) = units path ++ some 47 :: units rest := by
  induction path using units.induct with
  | case1 =>
    rw [List.nil_append,units_plain (by decide)]
    rfl
  | case2 high low later h l second first ih =>
    simp only [List.cons_append] at ih ⊢
    rw [units.eq_def,units.eq_def ('%' :: _)]
    simp only [if_pos,first,second,ih,List.cons_append]
  | case3 high low later apart ih =>
    have stray (text : Text) : Stray (high :: low :: text) := by
      rintro _ _ _ h l ⟨⟩ first second
      exact apart h l first second
    rw [units_stray (stray later),List.cons_append,List.cons_append,List.cons_append,units_stray (stray _)]
    exact congrArg _ ih
  | case4 other ih =>
    have stray : Stray (other :: '/' :: rest) := by
      rintro _ _ _ _ _ ⟨⟩ _ ⟨⟩
    rw [units_stray (by rintro _ _ _ _ _ ⟨⟩)]
    exact (units_stray stray).trans (congrArg _ ih)
  | case5 =>
    have stray : Stray ('/' :: rest) := by
      rintro _ _ _ _ _ ⟨⟩ ⟨⟩
    refine (units_stray stray).trans ?_
    rw [units_plain (by decide)]
    rfl
  | case6 c path other ih => rw [List.cons_append,units_plain other,units_plain other,ih,List.append_assoc]

end Units

def escapeChars : Text := "%0123456789ABCDEF".toList

theorem mem_encode {set : PercentEncodeSet} {text : Text} {c : Char} (member : c ∈ set.encode text) : c ∈ text ∨ c ∈ escapeChars := by
  obtain ⟨d,inside,member⟩ := List.mem_flatMap.mp member
  split at member
  · right
    obtain ⟨byte,_,member⟩ := List.mem_flatMap.mp member
    have digits : ∀ n : Fin 16, hexUpper n ∈ escapeChars := by decide
    have small : byte.toNat < 256 := byte.toNat_lt
    rcases List.mem_cons.mp member with rfl | member
    · decide
    · rcases List.mem_cons.mp member with rfl | member
      · exact digits ⟨byte.toNat / 16,by omega⟩
      · rw [List.mem_singleton.mp member]
        exact digits ⟨byte.toNat % 16,by omega⟩
  · rw [List.mem_singleton.mp member]
    exact .inl inside

section Segments
variable {path segments : List Text}

def kept : List Text → List Text
  | [] => []
  | [last] => [if isSingleDot last then [] else last]
  | segment :: next :: rest => if isSingleDot segment then kept (next :: rest) else segment :: kept (next :: rest)

theorem pathState_kept (level : ∀ segment ∈ segments, isDoubleDot segment = false) : pathState path segments = path ++ kept segments := by
  induction segments generalizing path with
  | nil => rw [pathState,kept,List.append_nil]
  | cons segment rest ih =>
    have first := level segment List.mem_cons_self
    have later := fun path => @ih path fun other member => level other (List.mem_cons_of_mem _ member)
    cases rest with
    | nil =>
      rw [pathState,kept,first,if_neg Bool.false_ne_true]
      split <;> rfl
    | cons next rest =>
      rw [pathState,kept,first,if_neg Bool.false_ne_true,later]
      split
      · rfl
      · rw [List.append_assoc,List.singleton_append]

theorem kept_ne_nil (nonempty : segments ≠ []) : kept segments ≠ [] := by
  induction segments with
  | nil => exact absurd rfl nonempty
  | cons segment rest ih =>
    cases rest with
    | nil => simp [kept]
    | cons next rest =>
      rw [kept]
      split
      · exact ih (by simp)
      · simp

theorem mem_kept {segment : Text} (member : segment ∈ kept segments) : segment ∈ segments ∨ segment = [] := by
  induction segments with
  | nil => cases member
  | cons first rest ih =>
    cases rest with
    | nil =>
      rw [kept,List.mem_singleton] at member
      split at member
      · exact .inr member
      · exact .inl (member ▸ List.mem_cons_self)
    | cons next rest =>
      rw [kept] at member
      split at member
      · exact (ih member).imp_left (List.mem_cons_of_mem _)
      · rcases List.mem_cons.mp member with rfl | member
        · exact .inl List.mem_cons_self
        · exact (ih member).imp_left (List.mem_cons_of_mem _)

end Segments

end GrassWorker.WhatwgUrl
