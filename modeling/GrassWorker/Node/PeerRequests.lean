import GrassWorker.Foundations.Checks
import GrassWorker.Foundations.FileSystem
import GrassWorker.Foundations.WhatwgUrl
import GrassWorker.Node.ForwardedMetadata

/-! A request that a node proxies to the peer its route names, and what the peer makes of it. -/
namespace GrassWorker.Gateway
open Headers Validator Routes RouteTable WhatwgUrl Checks

/-- The URL library: how it reads a base URL, and what it percent-encodes in a path and in a query. -/
structure UrlLibrary where
  parse : String → Option Url
  pathSet : PercentEncodeSet
  querySet : Bool → PercentEncodeSet

namespace UrlLibrary
variable (library : UrlLibrary)

/-- The URL that `forward_to_gateway` makes of the target's. -/
def peerUrl (url : Url) (path : List Char) (query : Option (List Char)) : Url :=
  { (url.setPath library.pathSet path).setQuery (library.querySet (isSpecial url.scheme)) query with fragment := none }

def peerUri (targetBaseUrl : String) (path : List Char) (query : Option (List Char)) : Option Uri :=
  (library.parse targetBaseUrl).bind fun url =>
    let built := library.peerUrl url path query
    Uri.parse (Uri.pathAndQuery ⟨built.path.serialized,built.query⟩)

end UrlLibrary

section Decoding
variable {path text : List Char}

theorem toList_data (bytes : ByteArray) : bytes.toList = bytes.data.toList := by
  have loop (index : Nat) (read : List UInt8) :
      ByteArray.toList.loop bytes index read = read.reverse ++ bytes.data.toList.drop index := by
    induction index,read using ByteArray.toList.loop.induct bytes with
    | case1 index read more ih =>
      have small : index < bytes.data.toList.length := more
      have found : bytes.get! index = bytes.data.toList[index] := getElem!_pos bytes.data index more
      rw [ByteArray.toList.loop,if_pos more,ih,List.drop_eq_getElem_cons small,found]
      simp
    | case2 index read done => rw [ByteArray.toList.loop,if_neg done,List.drop_of_length_le (Nat.le_of_not_lt done),List.append_nil]
  exact loop 0 []

def Reads (path text : List Char) : Prop := units path = (Utf8.encode text).map some

theorem hexDigit_of_hexValue {c : Char} {value : Nat} (digit : hexValue c = some value) :
    String.utf8EncodeChar c = [UInt8.ofNat c.toNat] ∧ Paths.hexDigit (UInt8.ofNat c.toNat) = some value := by
  have small : c.toNat < 128 := by
    unfold hexValue at digit
    grind
  have code : (UInt8.ofNat c.toNat).toNat = c.toNat := UInt8.toNat_ofNat_of_lt' (small.trans (by decide))
  refine ⟨?_,?_⟩
  · have ascii : c.val.toNat ≤ 127 := Nat.le_of_lt_succ small
    simp only [String.utf8EncodeChar,if_pos ascii]
    rfl
  · rw [Paths.hexDigit,code]
    exact digit

theorem hexDigit_none {c : Char} {byte : UInt8} {bytes : List UInt8} (same : String.utf8EncodeChar c = byte :: bytes)
    (other : hexValue c = none) : Paths.hexDigit byte = none := by
  rcases Utf8.of_mem_utf8EncodeChar (c := c) (same ▸ List.mem_cons_self) with ⟨code,_⟩ | ⟨large,_⟩
  · rw [Paths.hexDigit,code]
    exact other
  · have large : 0x80 ≤ byte.toNat := large
    unfold Paths.hexDigit
    grind

theorem decodeBytes_stray (stray : Stray path) : Paths.decodeBytes (37 :: Utf8.encode path) = none := by
  have high {byte : UInt8} {bytes : List UInt8} (bad : Paths.hexDigit byte = none) : Paths.decodeBytes (37 :: byte :: bytes) = none := by
    cases bytes <;> simp [Paths.decodeBytes,bad]
  cases path with
  | nil => rfl
  | cons c rest =>
    obtain ⟨byte,bytes,same⟩ := List.exists_cons_of_length_pos (Utf8.length_utf8EncodeChar c).1
    cases first : hexValue c with
    | none =>
      rw [Utf8.encode_cons,same]
      exact high (hexDigit_none same first)
    | some h =>
      rw [Utf8.encode_cons,(hexDigit_of_hexValue first).1]
      cases rest with
      | nil => rfl
      | cons d later =>
        cases second : hexValue d with
        | none =>
          obtain ⟨byte,bytes,same⟩ := List.exists_cons_of_length_pos (Utf8.length_utf8EncodeChar d).1
          rw [Utf8.encode_cons,same]
          simp [Paths.decodeBytes,hexDigit_none same second]
        | some l => exact (stray c d later h l rfl first second).elim

theorem decodeBytes_plain {bytes rest : List UInt8} (plain : ∀ byte ∈ bytes, byte ≠ 37) :
    Paths.decodeBytes (bytes ++ rest) = (Paths.decodeBytes rest).map (bytes ++ ·) := by
  induction bytes with
  | nil => simp
  | cons byte bytes ih =>
    have other : byte ≠ 37 := plain byte List.mem_cons_self
    rw [List.cons_append,Paths.decodeBytes.eq_def]
    simp only [if_neg other,ih fun byte member => plain byte (List.mem_cons_of_mem _ member)]
    cases Paths.decodeBytes rest <;> rfl

theorem decodeBytes_eq_some (path : List Char) (bytes : List UInt8) :
    Paths.decodeBytes (Utf8.encode path) = some bytes ↔ units path = bytes.map some := by
  have strays {path : List Char} (stray : Stray path) (bytes : List UInt8) :
      Paths.decodeBytes (Utf8.encode ('%' :: path)) = some bytes ↔ units ('%' :: path) = bytes.map some := by
    have refused : Paths.decodeBytes (Utf8.encode ('%' :: path)) = none := decodeBytes_stray stray
    rw [refused,units_stray stray]
    cases bytes <;> simp
  induction path using units.induct generalizing bytes with
  | case1 =>
    cases bytes <;> simp [units,Paths.decodeBytes]
  | case2 high low later h l second first ih =>
    obtain ⟨highByte,highDigit⟩ := hexDigit_of_hexValue first
    obtain ⟨lowByte,lowDigit⟩ := hexDigit_of_hexValue second
    have decoded : units ('%' :: high :: low :: later) = some (UInt8.ofNat (h * 16 + l)) :: units later := by
      rw [units.eq_def]
      simp only [if_pos,first,second]
    rw [decoded,Utf8.encode_cons,Utf8.encode_cons,Utf8.encode_cons,highByte,lowByte]
    change Paths.decodeBytes (37 :: UInt8.ofNat high.toNat :: UInt8.ofNat low.toNat :: Utf8.encode later) = _ ↔ _
    simp only [Paths.decodeBytes,if_pos,highDigit,lowDigit]
    cases bytes with
    | nil => cases Paths.decodeBytes (Utf8.encode later) <;> simp
    | cons byte bytes =>
      have same := ih bytes
      cases found : Paths.decodeBytes (Utf8.encode later) <;> simp_all
  | case3 high low later apart ih =>
    refine strays ?_ bytes
    rintro _ _ _ h l ⟨⟩ first second
    exact apart h l first second
  | case4 other ih =>
    refine strays ?_ bytes
    rintro _ _ _ _ _ ⟨⟩
  | case5 =>
    refine strays ?_ bytes
    rintro _ _ _ _ _ ⟨⟩
  | case6 c rest other ih =>
    have plain : ∀ byte ∈ String.utf8EncodeChar c, byte ≠ 37 := by
      rintro byte member rfl
      rcases Utf8.of_mem_utf8EncodeChar member with ⟨code,_⟩ | ⟨large,_⟩
      · exact other (Char.toNat_inj.mp code.symm)
      · exact absurd large (by decide)
    rw [units_plain other,Utf8.encode_cons,decodeBytes_plain plain]
    constructor
    · intro decoded
      obtain ⟨tail,found,rfl⟩ := Option.map_eq_some_iff.mp decoded
      rw [(ih tail).mp found,List.map_append]
    · intro same
      obtain ⟨front,tail,rfl,first,second⟩ := List.map_eq_append_iff.mp same.symm
      have equal : front = String.utf8EncodeChar c := List.map_injective_iff.mpr (Option.some_injective _) first
      rw [(ih tail).mpr second.symm,equal]
      rfl

theorem normalizePublicPath_eq_some {segments : List UnixPath.Path} :
    Paths.normalizePublicPath (String.ofList path) = some segments ↔
      Paths.forbidden path = false ∧ ∃ text, Reads path text ∧ Paths.forbidden text = false ∧
        Paths.safeSegments (text.splitOn '/') = some segments := by
  have bytes : (String.ofList path).toUTF8.toList = Utf8.encode path := by
    rw [toList_data]
    change (String.ofList path).toByteArray.data.toList = _
    rw [String.toByteArray_ofList,List.utf8Encode,List.toList_data_toByteArray]
    rfl
  have decoded (text : List Char) : Paths.percentDecode (String.ofList path) = some text ↔ Reads path text := by
    have packed : ByteArray.mk (Utf8.encode text).toArray = text.utf8Encode := ByteArray.ext List.data_toByteArray.symm
    rw [Paths.percentDecode,bytes,Reads,← decodeBytes_eq_some]
    constructor
    · intro read
      obtain ⟨bytes,found,read⟩ := Option.bind_eq_some_iff.mp read
      obtain ⟨chars,valid,same⟩ := Option.bind_eq_some_iff.mp read
      obtain rfl : chars.toList = text := Option.some.inj same
      have whole := @ByteArray.utf8Encode_get_utf8Decode? (ByteArray.mk bytes.toArray) (by rw [valid]; rfl)
      simp only [valid,Option.get_some,← packed] at whole
      rw [found,List.toArray_inj (congrArg ByteArray.data whole)]
    · intro found
      rw [found]
      change ((ByteArray.mk (Utf8.encode text).toArray).utf8Decode?.bind fun chars => some chars.toList) = some text
      rw [packed,List.utf8Decode?_utf8Encode]
      rfl
  rw [Paths.normalizePublicPath,String.toList_ofList]
  constructor
  · intro normal
    split at normal
    · cases normal
    · rename_i free
      obtain ⟨text,read,normal⟩ := Option.bind_eq_some_iff.mp normal
      split at normal
      · cases normal
      · rename_i free'
        exact ⟨Bool.eq_false_iff.mpr free,text,(decoded text).mp read,Bool.eq_false_iff.mpr free',normal⟩
  · rintro ⟨free,text,read,free',safe⟩
    rw [free,if_neg Bool.false_ne_true,(decoded text).mpr read]
    change (if Paths.forbidden text then none else _) = _
    rw [free',if_neg Bool.false_ne_true,safe]

end Decoding

section Segments
variable {segments texts : List (List Char)} {names more : List UnixPath.Path}

theorem encode_slash {text : List Char} {first second : List UInt8} (same : Utf8.encode text = first ++ 47 :: second) :
    ∃ front back, text = front ++ '/' :: back ∧ first = Utf8.encode front ∧ second = Utf8.encode back := by
  induction text generalizing first with
  | nil => cases first <;> cases same
  | cons c rest ih =>
    rw [Utf8.encode_cons] at same
    have slash : 47 ∈ String.utf8EncodeChar c → c = '/' ∧ String.utf8EncodeChar c = [47] := by
      intro member
      rcases Utf8.of_mem_utf8EncodeChar member with ⟨code,alone⟩ | ⟨large,_⟩
      · exact ⟨Char.toNat_inj.mp code.symm,alone⟩
      · exact absurd large (by decide)
    rcases List.append_eq_append_iff.mp same with ⟨later,rfl,split⟩ | ⟨later,inside,split⟩
    · obtain ⟨front,back,rfl,rfl,rfl⟩ := ih split
      exact ⟨c :: front,back,rfl,rfl,rfl⟩
    · cases later with
      | nil =>
        rw [List.append_nil] at inside
        obtain ⟨front,back,rfl,empty,rfl⟩ := @ih [] split.symm
        cases front with
        | nil => exact ⟨[c],back,rfl,by rw [← inside]; simp [Utf8.encode],rfl⟩
        | cons d front =>
          have long := (Utf8.length_utf8EncodeChar d).1
          rw [Utf8.encode_cons] at empty
          rw [(List.append_eq_nil_iff.mp empty.symm).1] at long
          cases long
      | cons byte later =>
        cases (List.cons.inj split).1
        obtain ⟨rfl,alone⟩ := slash (by rw [inside]; simp)
        rw [alone] at inside
        cases first with
        | nil =>
          cases inside
          exact ⟨[],rest,rfl,rfl,(List.cons.inj split).2⟩
        | cons _ first => cases first <;> cases inside

theorem reads_slash {path rest text : List Char} :
    Reads (path ++ '/' :: rest) text ↔ ∃ front back, text = front ++ '/' :: back ∧ Reads path front ∧ Reads rest back := by
  unfold Reads
  rw [units_slash]
  constructor
  · intro same
    obtain ⟨first,later,whole,front,later'⟩ := List.map_eq_append_iff.mp same.symm
    obtain ⟨byte,second,rfl,slash,back⟩ := List.map_eq_cons_iff.mp later'
    cases slash
    obtain ⟨front',back',rfl,rfl,rfl⟩ := encode_slash whole
    exact ⟨front',back',rfl,front.symm,back.symm⟩
  · rintro ⟨front,back,rfl,first,second⟩
    rw [first,second,Utf8.encode_append,List.map_append]
    rfl

theorem reads_intercalate (nonempty : segments ≠ []) {text : List Char} :
    Reads (['/'].intercalate segments) text ↔ ∃ texts, List.Forall₂ Reads segments texts ∧ text = ['/'].intercalate texts := by
  induction segments generalizing text with
  | nil => exact absurd rfl nonempty
  | cons segment rest ih =>
    cases rest with
    | nil =>
      rw [List.intercalate_singleton]
      constructor
      · exact fun reads => ⟨[text],.cons reads .nil,(List.intercalate_singleton ..).symm⟩
      · rintro ⟨texts,reads,rfl⟩
        obtain ⟨own,_,reads,none',rfl⟩ := List.forall₂_cons_left_iff.mp reads
        cases none'
        rwa [List.intercalate_singleton]
    | cons next rest =>
      rw [List.intercalate_cons_cons,List.append_assoc,List.singleton_append,reads_slash]
      constructor
      · rintro ⟨front,back,rfl,first,second⟩
        obtain ⟨texts,reads,rfl⟩ := (ih (by simp)).mp second
        obtain ⟨text,texts,_,_,rfl⟩ := List.forall₂_cons_left_iff.mp reads
        exact ⟨front :: text :: texts,.cons first reads,by rw [List.intercalate_cons_cons,List.append_assoc,List.singleton_append]⟩
      · rintro ⟨texts,reads,rfl⟩
        obtain ⟨front,others,first,second,rfl⟩ := List.forall₂_cons_left_iff.mp reads
        obtain ⟨text,texts,own,later,rfl⟩ := List.forall₂_cons_left_iff.mp second
        rw [List.intercalate_cons_cons,List.append_assoc,List.singleton_append]
        exact ⟨front,_,rfl,first,(ih (by simp)).mpr ⟨_,second,rfl⟩⟩

theorem splitOn_texts (nonempty : texts ≠ []) : (['/'].intercalate texts).splitOn '/' = texts.flatMap (·.splitOn '/') := by
  induction texts with
  | nil => exact absurd rfl nonempty
  | cons text rest ih =>
    cases rest with
    | nil => rw [List.intercalate_singleton,List.flatMap_singleton]
    | cons next rest =>
      rw [List.intercalate_cons_cons,List.append_assoc,List.singleton_append,List.splitOn_append_cons_self,ih (by simp)]
      rfl

theorem safeSegments_append (first second : List UnixPath.Path) :
    Paths.safeSegments (first ++ second) =
      (Paths.safeSegments first).bind fun names => (Paths.safeSegments second).map (names ++ ·) := by
  induction first with
  | nil => simp [Paths.safeSegments]
  | cons name rest ih =>
    rw [List.cons_append,Paths.safeSegments,Paths.safeSegments,ih]
    split
    · rfl
    · split
      · rfl
      · cases Paths.safeSegments rest <;> cases Paths.safeSegments second <;> rfl

abbrev safeTexts (texts : List (List Char)) : Option (List UnixPath.Path) := Paths.safeSegments (texts.flatMap (·.splitOn '/'))

theorem safeTexts_cons (text : List Char) (texts : List (List Char)) :
    safeTexts (text :: texts) = (safeTexts [text]).bind fun names => (safeTexts texts).map (names ++ ·) := by
  rw [safeTexts,List.flatMap_cons,safeSegments_append,safeTexts,List.flatMap_singleton]

theorem eq_of_reads {path text other : List Char} (reads : Reads path text) (same : units path = (Utf8.encode other).map some) :
    text = other := by
  have bytes : Utf8.encode text = Utf8.encode other := List.map_injective_iff.mpr (Option.some_injective _) (reads.symm.trans same)
  have chars : text.utf8Encode = other.utf8Encode := congrArg List.toByteArray bytes
  have decoded := congrArg ByteArray.utf8Decode? chars
  rw [List.utf8Decode?_utf8Encode,List.utf8Decode?_utf8Encode] at decoded
  exact List.toArray_inj (Option.some.inj decoded)

theorem reads_dot {segment text : List Char} (dot : isSingleDot segment) (reads : Reads segment text) : text = ['.'] := by
  have all : ∀ dot ∈ dots, units dot = (Utf8.encode ['.']).map some := by decide
  exact eq_of_reads reads (all segment (of_decide_eq_true dot))

theorem not_isDoubleDot {segment text : List Char} (reads : Reads segment text) (safe : safeTexts [text] = some names) :
    isDoubleDot segment = false := by
  have all : ∀ up ∈ dots.flatMap fun first => dots.map (first ++ ·), units up = (Utf8.encode ['.','.']).map some := by decide
  refine Bool.eq_false_iff.mpr fun up => ?_
  rw [eq_of_reads reads (all segment (of_decide_eq_true up))] at safe
  cases safe

theorem level_of_safe (reads : List.Forall₂ Reads segments texts) (safe : safeTexts texts = some names) :
    ∀ segment ∈ segments, isDoubleDot segment = false := by
  induction reads generalizing names with
  | nil => simp
  | cons first _ ih =>
    rw [safeTexts_cons] at safe
    obtain ⟨own,safe,later⟩ := Option.bind_eq_some_iff.mp safe
    obtain ⟨rest,safe',_⟩ := Option.map_eq_some_iff.mp later
    exact List.forall_mem_cons.mpr ⟨not_isDoubleDot first safe,ih safe'⟩

theorem reads_kept (reads : List.Forall₂ Reads segments texts) (safe : safeTexts texts = some names) :
    ∃ after, List.Forall₂ Reads (kept segments) after ∧ safeTexts after = some names ∧ ∀ text ∈ after, text ∈ texts ∨ text = [] := by
  induction reads generalizing names with
  | nil => exact ⟨[],.nil,safe,by simp⟩
  | @cons segment text segments texts first later ih =>
    cases later with
    | nil =>
      by_cases dot : isSingleDot segment
      · refine ⟨[[]],?_,?_,by simp⟩
        · rw [kept,if_pos dot]
          exact .cons rfl .nil
        · rwa [reads_dot dot first] at safe
      · refine ⟨[text],?_,safe,by simp⟩
        rw [kept,if_neg dot]
        exact .cons first .nil
    | @cons next other segments texts second later =>
      rw [safeTexts_cons] at safe
      obtain ⟨own,mine,found⟩ := Option.bind_eq_some_iff.mp safe
      obtain ⟨rest,safe',rfl⟩ := Option.map_eq_some_iff.mp found
      obtain ⟨after,reads,same,among⟩ := ih safe'
      by_cases dot : isSingleDot segment
      · rw [reads_dot dot first] at mine
        cases mine
        refine ⟨after,?_,same,fun text member => ?_⟩
        · rwa [kept,if_pos dot]
        · exact (among text member).imp_left (List.mem_cons_of_mem _)
      · refine ⟨text :: after,?_,?_,?_⟩
        · rw [kept,if_neg dot]
          exact .cons first reads
        · rw [safeTexts_cons,mine,same]
          rfl
        · intro shown member
          rcases List.mem_cons.mp member with rfl | member
          · exact .inl List.mem_cons_self
          · exact (among shown member).imp_left (List.mem_cons_of_mem _)

theorem flatMap_slash (nonempty : segments ≠ []) : segments.flatMap ('/' :: ·) = '/' :: ['/'].intercalate segments := by
  induction segments with
  | nil => exact absurd rfl nonempty
  | cons segment rest ih =>
    cases rest with
    | nil => rw [List.intercalate_singleton,List.flatMap_singleton]
    | cons next rest =>
      rw [List.intercalate_cons_cons,List.flatMap_cons,ih (by simp),List.append_assoc]
      rfl

end Segments

section Peer
variable {set : PercentEncodeSet} {special : Bool} {path : List Char} {names : List UnixPath.Path}

theorem isPathChar_of_mem_encode (set : PercentEncodeSet) (valid : ∀ c ∈ path, isPathChar c) : ∀ c ∈ set.encode path, isPathChar c := by
  have digits : ∀ c ∈ escapeChars, isPathChar c := forall_mem_of_all (by decide)
  exact fun c member => (mem_encode member).elim (valid c) (digits c)

theorem withoutNewlines_of_printed {text : List Char} (printed : ∀ c ∈ text, 0x21 ≤ c.toNat) : withoutNewlines text = text := by
  refine List.filter_eq_self.mpr fun c member => ?_
  have large := printed c member
  simp only [decide_eq_true_eq,List.mem_cons,List.not_mem_nil,or_false]
  rintro (rfl | rfl | rfl) <;> exact absurd large (by decide)

theorem forbidden_eq_false {text : List Char} : Paths.forbidden text = false ↔ '\\' ∉ text ∧ '\x00' ∉ text := by
  rw [Paths.forbidden,List.any_eq_false]
  constructor
  · exact fun free => ⟨fun inside => free _ inside (by decide),fun inside => free _ inside (by decide)⟩
  · rintro ⟨backslash,zero⟩ c member found
    rcases Bool.or_eq_true_iff.mp found with same | same
    · exact zero (of_decide_eq_true same ▸ member)
    · exact backslash (of_decide_eq_true same ▸ member)

theorem forbidden_slashed {back : List (List Char)} (free : ∀ text ∈ back, Paths.forbidden text = false) :
    Paths.forbidden (back.flatMap ('/' :: ·)) = false := by
  refine forbidden_eq_false.mpr ⟨fun inside => ?_,fun inside => ?_⟩
  all_goals
    obtain ⟨text,member,inside⟩ := List.mem_flatMap.mp inside
    rcases List.mem_cons.mp inside with same | inside
    · cases same
  · exact (forbidden_eq_false.mp (free text member)).1 inside
  · exact (forbidden_eq_false.mp (free text member)).2 inside

/-- The path the peer is asked for has the endpoint before it, and the names of the path that was asked for. -/
theorem pathSegments_peer (valid : ∀ c ∈ '/' :: path, isPathChar c)
    (normal : Paths.normalizePublicPath (String.ofList ('/' :: path)) = some names) :
    ∃ after, after ≠ [] ∧
      pathSegments set special (peerProxyPrefix ++ '/' :: path) = ["_grass".toList,"internal".toList,"proxy".toList] ++ after ∧
      (∀ c ∈ after.flatMap ('/' :: ·), isPathChar c) ∧
      Paths.normalizePublicPath (String.ofList (after.flatMap ('/' :: ·))) = some names := by
  obtain ⟨free,text,reads,freeText,safe⟩ := normalizePublicPath_eq_some.mp normal
  have encoded : set.encode ('/' :: path) = '/' :: set.encode path := encode_spared set (by decide) path
  have valid' := isPathChar_of_mem_encode set fun c member => valid c (List.mem_cons_of_mem _ member)
  have backslash : '\\' ∉ set.encode path := fun inside => (mem_encode inside).elim
    (fun inside => (forbidden_eq_false.mp free).1 (List.mem_cons_of_mem _ inside)) (by decide)
  have zero : '\x00' ∉ set.encode path := fun inside => absurd (valid' _ inside) (by decide)
  have split : ['/'].intercalate ((set.encode path).splitOn '/') = set.encode path := List.intercalate_splitOn '/'
  have some' : (set.encode path).splitOn '/' ≠ [] := List.splitOn_ne_nil '/' _
  have whole : Reads ([] ++ '/' :: set.encode path) text := by
    change units (['/'] ++ set.encode path) = _
    rw [← reads,← units_encode set ('/' :: path),encoded]
    rfl
  obtain ⟨front,back,rfl,first,second⟩ := reads_slash.mp whole
  obtain rfl : front = [] := eq_of_reads first rfl
  have resolved : pathSegments set special (peerProxyPrefix ++ '/' :: path) =
      pathState [] (["_grass".toList,"internal".toList,"proxy".toList] ++ (set.encode path).splitOn '/') := by
    have printed : ∀ c ∈ peerProxyPrefix ++ '/' :: path, 0x21 ≤ c.toNat := by
      intro c member
      rcases List.mem_append.mp member with member | member
      · have all : ∀ c ∈ peerProxyPrefix, 0x21 ≤ c.toNat := forall_mem_of_all (by decide)
        exact all c member
      · exact (of_decide_eq_true (valid c member)).1
    have plain : ∀ c ∈ peerProxyPrefix ++ '/' :: set.encode path, (if c = '\\' then '/' else c) = c := by
      intro c member
      refine if_neg ?_
      rintro rfl
      rcases List.mem_append.mp member with member | member
      · exact absurd member (by decide)
      · rcases List.mem_cons.mp member with same | member
        · cases same
        · exact backslash member
    have mapped := List.map_congr_left (g := id) plain
    rw [List.map_id] at mapped
    unfold pathSegments
    rw [withoutNewlines_of_printed printed,encode_append,encode_of_spared set (forall_mem_of_all (by decide)),encoded]
    dsimp only
    rw [mapped,ite_self]
    exact congrArg (pathState []) (List.splitOn_append_cons_self "_grass/internal/proxy".toList (set.encode path))
  rw [resolved]
  generalize (set.encode path).splitOn '/' = segments at split some'
  rw [← split] at second backslash zero valid'
  obtain ⟨texts,parts,rfl⟩ := (reads_intercalate some').mp second
  have texts' : texts ≠ [] := by
    rintro rfl
    cases parts
    exact some' rfl
  have safe' : safeTexts texts = some names := by
    rw [List.splitOn_append_cons_self,splitOn_texts texts'] at safe
    exact safe
  obtain ⟨after,reads',same,among⟩ := reads_kept parts safe'
  have level := level_of_safe parts safe'
  refine ⟨kept segments,kept_ne_nil some',?_,?_,?_⟩
  · rw [pathState_kept]
    · obtain ⟨first,rest,rfl⟩ := List.exists_cons_of_ne_nil some'
      have grass : isSingleDot "_grass".toList = false := by decide
      have internal : isSingleDot "internal".toList = false := by decide
      have proxy : isSingleDot "proxy".toList = false := by decide
      simp only [List.cons_append,List.nil_append,kept,grass,internal,proxy,if_neg Bool.false_ne_true]
    · intro segment member
      rcases List.mem_append.mp member with member | member
      · have all : ∀ segment ∈ ["_grass".toList,"internal".toList,"proxy".toList], isDoubleDot segment = false := by decide
        exact all segment member
      · exact level segment member
  · intro c member
    obtain ⟨segment,inside,member⟩ := List.mem_flatMap.mp member
    rcases List.mem_cons.mp member with rfl | member
    · decide
    · rcases mem_kept inside with inside | rfl
      · exact valid' c (Files.mem_intercalate inside member)
      · cases member
  · have after' : after ≠ [] := by
      rintro rfl
      cases h : kept segments with
      | nil => exact kept_ne_nil some' h
      | cons first rest =>
        rw [h] at reads'
        cases reads'
    have freeTexts : ∀ text ∈ texts, Paths.forbidden text = false := by
      intro text member
      obtain ⟨first,second⟩ := forbidden_eq_false.mp freeText
      exact forbidden_eq_false.mpr
        ⟨fun inside => first (List.mem_cons_of_mem _ (Files.mem_intercalate member inside)),
          fun inside => second (List.mem_cons_of_mem _ (Files.mem_intercalate member inside))⟩
    refine normalizePublicPath_eq_some.mpr ⟨?_,after.flatMap ('/' :: ·),?_,?_,?_⟩
    · refine forbidden_slashed fun segment member => forbidden_eq_false.mpr ?_
      rcases mem_kept member with member | rfl
      · exact ⟨fun inside => backslash (Files.mem_intercalate member inside),
          fun inside => zero (Files.mem_intercalate member inside)⟩
      · simp
    · rw [flatMap_slash (kept_ne_nil some'),flatMap_slash after']
      have top : Reads [] [] := rfl
      have whole : Reads ([] ++ '/' :: _) ([] ++ '/' :: _) :=
        reads_slash.mpr ⟨[],_,rfl,top,(reads_intercalate (kept_ne_nil some')).mpr ⟨after,reads',rfl⟩⟩
      exact whole
    · refine forbidden_slashed fun text member => ?_
      rcases among text member with member | rfl
      · exact freeTexts text member
      · rfl
    · rw [flatMap_slash after',← same]
      change Paths.safeSegments (([] ++ '/' :: _).splitOn '/') = _
      rw [List.splitOn_append_cons_self,splitOn_texts after']
      rfl

theorem pathSegments_other (bare : path = [] ∨ path = ['*']) :
    ∃ last ∈ ["proxy".toList,"proxy*".toList,"proxy%2A".toList],
      pathSegments set special (peerProxyPrefix ++ path) = ["_grass".toList,"internal".toList,last] := by
  have ends : set.encode path ∈ [[],['*'],"%2A".toList] := by
    rcases bare with rfl | rfl
    · exact List.mem_cons_self
    · rw [encode_cons,encode_nil]
      split <;> decide
  have printed : withoutNewlines (peerProxyPrefix ++ path) = peerProxyPrefix ++ path := by
    rcases bare with rfl | rfl <;> decide
  unfold pathSegments
  rw [printed,encode_append,encode_of_spared set (forall_mem_of_all (by decide))]
  simp only [List.mem_cons,List.not_mem_nil,or_false] at ends
  rcases ends with same | same | same <;> rw [same] <;> cases special <;> decide

theorem split_pathAndQuery {uri : Uri} (free : '?' ∉ uri.path) : Uri.split uri.pathAndQuery = uri := by
  have all : ∀ c ∈ uri.path, (c ≠ '?' : Bool) := by
    intro c member
    refine decide_eq_true ?_
    rintro rfl
    exact free member
  cases uri with
  | mk path query =>
    cases query with
    | none =>
      have before : path.takeWhile (· ≠ '?') = path := List.takeWhile_eq_self_iff.mpr all
      simp only [Uri.pathAndQuery,Uri.split,before]
      rw [if_neg free]
    | some query =>
      have before : (path ++ '?' :: query).takeWhile (· ≠ '?') = path := by
        rw [List.takeWhile_append_of_pos all]
        simp
      simp only [Uri.pathAndQuery,Uri.split,before]
      simp

theorem parse_eq_some {text : List Char} {uri : Uri} : Uri.parse text = some uri ↔
    uri = Uri.split text ∧ (utf8 text).length ≤ maxUriLength ∧ uri.path.all isPathChar ∧ uri.query.all (·.all isQueryChar) := by
  unfold Uri.parse
  dsimp only
  constructor
  · intro parsed
    split at parsed
    · rename_i accepted
      cases parsed
      exact ⟨rfl,accepted⟩
    · cases parsed
  · rintro ⟨rfl,accepted⟩
    rw [if_pos accepted]

theorem head_of_split {text : List Char} {query : Option (List Char)}
    (start : (Uri.split (Uri.pathAndQuery ⟨text,query⟩)).path.head? = some '/') : text.head? = some '/' := by
  cases text with
  | nil => cases query <;> cases start
  | cons c text =>
    have whole : Uri.pathAndQuery ⟨c :: text,query⟩ = c :: Uri.pathAndQuery ⟨text,query⟩ := by cases query <;> rfl
    rw [whole,Uri.split] at start
    dsimp only at start
    rw [List.takeWhile_cons] at start
    split at start
    · exact start
    · cases start

/-- The peer's endpoint is reached with a path from the root only. -/
theorem slash_of_inside {library : UrlLibrary} {target : Url} {request : Uri} {query : Option (List Char)} (valid : request.Valid)
    (inside : peerProxyPrefix ++ ['/'] <+: (Uri.split (Uri.pathAndQuery
      ⟨(library.peerUrl target (peerProxyPrefix ++ request.path) request.query).path.serialized,query⟩)).path) :
    ∃ segments path, target.path = .segments segments ∧ request.path = '/' :: path := by
  cases based : target.path with
  | text text rootless =>
    have serialized : (library.peerUrl target (peerProxyPrefix ++ request.path) request.query).path.serialized = text := by
      rw [UrlLibrary.peerUrl,Url.setQuery,Url.setPath,based]
      exact congrArg UrlPath.serialized based
    rw [serialized] at inside
    obtain ⟨rest,same⟩ := inside
    exact (rootless (head_of_split (by rw [← same]; rfl))).elim
  | segments segments =>
    have other (bare : request.path = [] ∨ request.path = ['*']) : False := by
      obtain ⟨last,among,resolved⟩ := @pathSegments_other library.pathSet (isSpecial target.scheme) request.path bare
      have serialized : (library.peerUrl target (peerProxyPrefix ++ request.path) request.query).path.serialized =
          ["_grass".toList,"internal".toList,last].flatMap ('/' :: ·) := by
        rw [UrlLibrary.peerUrl,Url.setQuery,Url.setPath,based]
        dsimp only [UrlPath.serialized]
        rw [resolved]
      have unmarked : ∀ last ∈ ["proxy".toList,"proxy*".toList,"proxy%2A".toList],
          '?' ∉ ["_grass".toList,"internal".toList,last].flatMap ('/' :: ·) := by decide
      have outside : ∀ last ∈ ["proxy".toList,"proxy*".toList,"proxy%2A".toList],
          ¬peerProxyPrefix ++ ['/'] <+: ["_grass".toList,"internal".toList,last].flatMap ('/' :: ·) := by decide
      rw [serialized,split_pathAndQuery (unmarked last among)] at inside
      exact outside last among inside
    rcases valid.start with bare | bare | rooted
    · exact (other (.inl bare)).elim
    · exact (other (.inr bare)).elim
    · obtain ⟨path,same⟩ := List.head?_eq_some_iff.mp rooted
      exact ⟨segments,path,rfl,same⟩

end Peer

section Proxied
variable {peerUri : String → List Char → Option (List Char) → Option Uri} {state : ServeState} {client : Connection}
  {request : Request} {base : String} {uri : Uri} {headers : HeaderMap}

theorem routePublicRequest_gateway (proxied : routePublicRequest peerUri state client request = .gateway base uri headers) :
    ∃ host route, hostFromHeaders request.headers = some host ∧
      gatewayOrigin request.headers state.token state.gatewayAuthentication = .ok .external ∧
      (Paths.normalizePublicPath (String.ofList request.uri.path)).isSome ∧
      forwardToGateway client request peerUri base state.token (ServeRoute.gatewayAuthentication route) = .ok (uri,headers) := by
  unfold routePublicRequest at proxied
  split at proxied
  · cases proxied
  · rename_i origin known
    split at proxied
    · cases proxied
    · rename_i host named
      split at proxied
      · cases proxied
      · rename_i route _
        split at proxied
        · cases proxied
        · rename_i normal
          split at proxied
          · cases proxied
          · exact absurd proxied serveLocal_not_gateway
          · rename_i action
            have external : origin = .external := by
              cases origin with
              | external => rfl
              | authenticated =>
                unfold routeAction at action
                split at action <;> cases action
            subst external
            split at proxied
            · cases proxied
            · rename_i sent
              cases proxied
              exact ⟨host,route,named,known,Option.isSome_iff_ne_none.mpr (by simpa using normal),sent⟩

theorem forwardToGateway_uri {token : List Char} {authentication : GatewayAuthenticationMode}
    (sent : forwardToGateway client request peerUri base token authentication = .ok (uri,headers)) :
    peerUri base (peerProxyPrefix ++ request.uri.path) request.uri.query = some uri ∧ peerProxyPrefix ++ ['/'] <+: uri.path := by
  simp only [forwardToGateway] at sent
  split at sent
  · cases sent
  · split at sent
    · cases sent
    · split at sent
      · cases sent
      · rename_i made
        split at sent
        · cases sent
        · rename_i inside
          rw [not_not] at inside
          cases authentication with
          | none =>
            cases sent
            exact ⟨made,inside⟩
          | token =>
            cases written : fromStr token with
            | none =>
              rw [written] at sent
              cases sent
            | some value =>
              rw [written] at sent
              cases sent
              exact ⟨made,inside⟩

theorem strip_peer {after : List (List Char)} {query : Option (List Char)} (sent : Request)
    (arrived : sent.uri = ⟨peerProxyPrefix ++ after.flatMap ('/' :: ·),query⟩) (nonempty : after ≠ [])
    (plain : ∀ c ∈ after.flatMap ('/' :: ·), isPathChar c) (coded : query.all (·.all isQueryChar))
    (short : (utf8 (Uri.pathAndQuery ⟨peerProxyPrefix ++ after.flatMap ('/' :: ·),query⟩)).length ≤ maxUriLength) :
    stripPeerProxyPrefix sent = .ok { sent with uri := ⟨after.flatMap ('/' :: ·),query⟩ } := by
  have whole : Uri.pathAndQuery ⟨peerProxyPrefix ++ after.flatMap ('/' :: ·),query⟩ =
      peerProxyPrefix ++ Uri.pathAndQuery ⟨after.flatMap ('/' :: ·),query⟩ := by
    cases query with
    | none => rfl
    | some query => exact List.append_assoc ..
  have unmarked : '?' ∉ after.flatMap ('/' :: ·) := fun member => absurd (plain _ member) (by decide)
  have parsed : Uri.parse (Uri.pathAndQuery ⟨after.flatMap ('/' :: ·),query⟩) = some ⟨after.flatMap ('/' :: ·),query⟩ := by
    refine parse_eq_some.mpr ⟨(split_pathAndQuery unmarked).symm,?_,?_,?_⟩
    · rw [whole,utf8,List.flatMap_append,List.length_append] at short
      exact (Nat.le_add_left ..).trans short
    · exact List.all_eq_true.mpr plain
    · exact coded
  obtain ⟨rest,slash⟩ : ∃ rest, Uri.pathAndQuery ⟨after.flatMap ('/' :: ·),query⟩ = '/' :: rest := by
    rw [flatMap_slash nonempty]
    cases query <;> exact ⟨_,rfl⟩
  unfold stripPeerProxyPrefix
  rw [arrived,whole,if_neg (not_not.mpr (List.prefix_append ..)),List.drop_left]
  simp only [slash]
  rw [← slash,Request.restored,parsed]

theorem handlePeerProxy_restored {restored : Request} (stripped : stripPeerProxyPrefix request = .ok restored) :
    (∃ code message, handlePeerProxy state client request = .errorPage code message) ∨
      ∃ route, handlePeerProxy state client request = serveLocal state client route .authenticated restored := by
  simp only [handlePeerProxy,stripped]
  repeat' split
  all_goals first
    | exact .inl ⟨_,_,rfl⟩
    | exact .inr ⟨_,rfl⟩

/-- Only a request without a hop leaves for a peer, and it leaves with one. -/
theorem serve_gateway (proxied : serve peerUri state client request = .gateway base uri headers) :
    request.headers.getAll gatewayHopHeader = [] ∧ headers.getAll gatewayHopHeader ≠ [] := by
  unfold serve at proxied
  split at proxied
  · rename_i outcome refused
    have stays := ingressRequest_stays refused
    rw [proxied] at stays
    cases stays
  · rename_i after entered
    split at proxied
    · cases proxied
    · split at proxied
      · unfold handlePeerProxy at proxied
        repeat' split at proxied
        all_goals first
          | cases proxied
          | exact absurd proxied serveLocal_not_gateway
      · obtain ⟨host,route,named,known,_,sent⟩ := routePublicRequest_gateway proxied
        refine ⟨?_,(forwardToGateway_carries named sent).2⟩
        rw [← ingressRequest_keeps entered (internal_ne_host (by decide : isGatewayInternal gatewayHopHeader))]
        by_contra marked
        cases gatewayOrigin_marked marked known

end Proxied

def Forwards (peerUri : String → List Char → Option (List Char) → Option Uri) (request next : Request) : Prop :=
  ∃ state client base headers, serve peerUri state client request = .gateway base next.uri headers ∧
    ∀ name, isGatewayInternal name → next.headers.getAll name = headers.getAll name

theorem forwards_once {peerUri : String → List Char → Option (List Char) → Option Uri} {requests : List Request}
    (chain : requests.IsChain (Forwards peerUri)) : requests.length ≤ 2 := by
  match requests,chain with
  | [],_ | [_],_ | [_,_],_ => simp
  | first :: second :: third :: rest,chain =>
    obtain ⟨_,_,_,headers,sent,same⟩ := (List.isChain_cons_cons.mp chain).1
    obtain ⟨_,_,_,_,again,_⟩ := (List.isChain_cons_cons.mp (List.isChain_cons_cons.mp chain).2).1
    have marked := (serve_gateway sent).2
    rw [← same gatewayHopHeader (by decide)] at marked
    exact absurd (serve_gateway again).1 marked

/-- A request that is proxied arrives at the application of the peer as it was, and is proxied once. -/
theorem proxied_request_same (library : UrlLibrary) :
    (∀ state client request, request.uri.Valid → ∀ base uri headers,
      routePublicRequest library.peerUri state client request = .gateway base uri headers →
      ∃ target built restored, library.parse base = some target ∧
        built = library.peerUrl target (peerProxyPrefix ++ request.uri.path) request.uri.query ∧
        uri = ⟨built.path.serialized,built.query⟩ ∧
        (built.scheme,built.host,built.port) = (target.scheme,target.host,target.port) ∧
        peerProxyPrefix ++ ['/'] <+: built.path.serialized ∧
        (∀ sent : Request, sent.uri = uri → stripPeerProxyPrefix sent = .ok { sent with uri := restored } ∧
          ∀ peer connection, (∃ code message, handlePeerProxy peer connection sent = .errorPage code message) ∨
            ∃ route, handlePeerProxy peer connection sent =
              serveLocal peer connection route .authenticated { sent with uri := restored }) ∧
        Paths.normalizePublicPath (String.ofList restored.path) = Paths.normalizePublicPath (String.ofList request.uri.path) ∧
        restored.query.map percentDecode = request.uri.query.map percentDecode) ∧
    ∀ requests : List Request, requests.IsChain (Forwards library.peerUri) → requests.length ≤ 2 := by
  refine ⟨?_,fun _ chain => forwards_once chain⟩
  intro state client request valid base uri headers proxied
  obtain ⟨_,_,_,_,normal,sent⟩ := routePublicRequest_gateway proxied
  obtain ⟨made,inside⟩ := forwardToGateway_uri sent
  obtain ⟨target,parsed,made⟩ := Option.bind_eq_some_iff.mp made
  obtain ⟨rfl,short,_,_⟩ := parse_eq_some.mp made
  obtain ⟨segments,path,based,rooted⟩ := slash_of_inside valid inside
  obtain ⟨names,normal⟩ := Option.isSome_iff_exists.mp normal
  have valid' := valid.path
  rw [rooted] at normal valid'
  obtain ⟨after,nonempty,resolved,plain,same⟩ := @pathSegments_peer library.pathSet (isSpecial target.scheme) path names valid' normal
  have serialized : (library.peerUrl target (peerProxyPrefix ++ request.uri.path) request.uri.query).path.serialized =
      peerProxyPrefix ++ after.flatMap ('/' :: ·) := by
    rw [rooted,UrlLibrary.peerUrl,Url.setQuery,Url.setPath,based]
    dsimp only [UrlPath.serialized]
    rw [resolved]
    rfl
  have queried : (library.peerUrl target (peerProxyPrefix ++ request.uri.path) request.uri.query).query =
      request.uri.query.map (library.querySet (isSpecial target.scheme)).encode := by
    change request.uri.query.map (fun text => (library.querySet (isSpecial target.scheme)).encode (withoutNewlines text)) = _
    refine Option.map_congr fun text member => ?_
    rw [withoutNewlines_of_printed fun c inside => (of_decide_eq_true (valid.query text member c inside)).1]
  rw [serialized,queried] at short inside ⊢
  have coded : (request.uri.query.map (library.querySet (isSpecial target.scheme)).encode).all (·.all isQueryChar) := by
    rw [Option.all_map]
    cases queryOf : request.uri.query with
    | none => rfl
    | some text =>
      refine List.all_eq_true.mpr fun c member => ?_
      have digits : ∀ c ∈ escapeChars, isQueryChar c := forall_mem_of_all (by decide)
      exact (mem_encode member).elim (valid.query text queryOf c) (digits c)
  have unmarked : '?' ∉ peerProxyPrefix ++ after.flatMap ('/' :: ·) := by
    intro member
    rcases List.mem_append.mp member with member | member
    · exact absurd member (by decide)
    · exact absurd (plain _ member) (by decide)
  rw [split_pathAndQuery unmarked] at inside ⊢
  refine ⟨target,_,⟨after.flatMap ('/' :: ·),request.uri.query.map (library.querySet (isSpecial target.scheme)).encode⟩,parsed,rfl,
    ?_,?_,?_,fun sent arrived => ?_,?_,?_⟩
  · rw [serialized,queried]
  · rw [UrlLibrary.peerUrl,Url.setQuery,Url.setPath,based]
  · rw [serialized]
    exact inside
  · have stripped := strip_peer sent arrived nonempty plain coded short
    exact ⟨stripped,fun _ _ => handlePeerProxy_restored stripped⟩
  · rw [same,rooted,normal]
  · rw [Option.map_map]
    refine Option.map_congr fun text _ => ?_
    rw [Function.comp,percentDecode,units_encode,percentDecode]

section Braces

def peerTarget : Url :=
  { scheme := "http".toList, host := some "peer.example".toList, port := none, path := .segments [[]], query := none, fragment := none }

def standardLibrary : UrlLibrary := { parse := fun _ => some peerTarget, pathSet, querySet }

def bracesUri : Uri := ⟨"/a/./{b}%2fc".toList,some "q='%7".toList⟩

def bracesRequest : Request := { uri := bracesUri, headers := .parse plainLines }

def Outcome.proxied : Outcome → Bool
  | .gateway _ _ _ => true
  | _ => false

theorem braces_arrive : ∃ restored : Uri,
    Paths.normalizePublicPath (String.ofList restored.path) = Paths.normalizePublicPath (String.ofList bracesUri.path) ∧
      restored.query.map percentDecode = some (percentDecode "q='%7".toList) := by
  have valid : bracesUri.Valid := ⟨by decide,forall_mem_of_all (by decide),by rintro _ ⟨⟩; exact forall_mem_of_all (by decide)⟩
  have leaves : (routePublicRequest standardLibrary.peerUri (servingNode 1) { ip := "203.0.113.9".toList } bracesRequest).proxied := by
    decide +kernel
  obtain ⟨base,uri,headers,proxied⟩ : ∃ base uri headers,
      routePublicRequest standardLibrary.peerUri (servingNode 1) { ip := "203.0.113.9".toList } bracesRequest =
        .gateway base uri headers := by
    generalize routePublicRequest standardLibrary.peerUri _ _ bracesRequest = outcome at leaves ⊢
    cases outcome with
    | gateway base uri headers => exact ⟨base,uri,headers,rfl⟩
    | _ => cases leaves
  obtain ⟨_,_,restored,_,_,_,_,_,_,segments,query⟩ :=
    (proxied_request_same standardLibrary).1 _ _ bracesRequest valid base uri headers proxied
  exact ⟨restored,segments,query⟩

end Braces

end GrassWorker.Gateway
