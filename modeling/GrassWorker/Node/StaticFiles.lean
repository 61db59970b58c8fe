import GrassWorker.Foundations.Decimal
import GrassWorker.Node.Gateway

/-! Delivery of one file, or of the part of it that a `Range` header selects. -/
namespace GrassWorker.StaticFiles
open Headers Gateway

def stripPrefix (pattern text : List Char) : Option (List Char) :=
  if pattern <+: text then some (text.drop pattern.length) else none

/-- `str::parse::<u64>`: digits that fit, also after a plus sign. -/
def parseU64 (text : List Char) : Option UInt64 :=
  let digits := match text with
    | '+' :: digits => digits
    | digits => digits
  (Decimal.parseDigits digits).bind fun n => if fits : n < UInt64.size then some (.ofNatLT n fits) else none

def rangePrefix : List Char := "bytes=".toList

def parseOffsets (length : UInt64) (start last : List Char) : Option (UInt64 × UInt64) :=
  match decide (start = []),decide (last = []) with
  | true,true => none
  | true,false => do
    let suffix ← parseU64 last
    if suffix = 0 then none
    else
      let selected := min suffix length
      some (length - selected,length - 1)
  | false,true => do
    let start ← parseU64 start
    if length ≤ start then none else some (start,length - 1)
  | false,false => do
    let start ← parseU64 start
    let last ← parseU64 last
    if last < start ∨ length ≤ start then none else some (start,min last (length - 1))

def parseRange (value : List Char) (length : UInt64) : Option (UInt64 × UInt64) :=
  if length = 0 then none
  else do
    let range ← stripPrefix rangePrefix value
    if range = [] ∨ ',' ∈ range then none
    else
      let (start,last) ← splitOnce '-' range
      parseOffsets length start last

inductive Method
  | get | head | other
deriving DecidableEq

structure Response where
  status : Nat
  headers : List (HeaderName × String)
  body : List UInt8 := []
deriving DecidableEq

/-- A file whose length is a `u64`. -/
structure File where
  content : List UInt8
  small : content.length < UInt64.size

def File.length (file : File) : UInt64 := .ofNatLT file.content.length file.small

def decimal (n : UInt64) : String := toString n.toNat

/-- `mime` is what the path stands for, `cacheControl` what goes with it. -/
def serveFile (file : File) (mime cacheControl : String) (method : Method) (range : Option HeaderValue) (status : Nat) : Response :=
  if method = .other then { status := 405, headers := [("allow","GET, HEAD")] }
  else
    let length := file.length
    let selected := if status = 200 then range.map fun value => (toStr value).bind (parseRange · length) else none
    let respond := fun (responseStatus : Nat) (start last : UInt64) =>
      let contentLength := if length = 0 then 0 else last - start + 1
      { status := responseStatus
        headers := [("content-type",mime),("cache-control",cacheControl),("accept-ranges","bytes"),
          ("content-length",decimal contentLength)] ++
          if responseStatus = 206 then
            [("content-range","bytes " ++ decimal start ++ "-" ++ decimal last ++ "/" ++ decimal length)]
          else []
        body := if method = .head then [] else (file.content.drop start.toNat).take contentLength.toNat : Response }
    match selected with
    | some (some (start,last)) => respond 206 start last
    | some none =>
      { status := 416, headers := [("accept-ranges","bytes"),("content-range","bytes */" ++ decimal length)] }
    | none => respond status 0 (if length = 0 then 0 else length - 1)

/-! The grammar of a single byte range. -/

inductive ByteRange
  | bounded (first last : Nat)
  | open' (first : Nat)
  | suffix (length : Nat)
deriving DecidableEq

def ByteRange.select (length : Nat) : ByteRange → Option (Nat × Nat)
  | .bounded first last => if first ≤ last ∧ first < length then some (first,min last (length - 1)) else none
  | .open' first => if first < length then some (first,length - 1) else none
  | .suffix count => if 0 < count ∧ 0 < length then some (length - min count length,length - 1) else none

def ByteRange.numbers : ByteRange → List Nat
  | .bounded first last => [first,last]
  | .open' first => [first]
  | .suffix count => [count]

/-- What stands before and after the dash; how numbers are spelled makes a grammar. -/
inductive Parts (number : List Char → Nat → Prop) : List Char → List Char → ByteRange → Prop
  | bounded {start last : List Char} {first end' : Nat} (read : number start first) (read' : number last end') :
      Parts number start last (.bounded first end')
  | open' {start : List Char} {first : Nat} (read : number start first) : Parts number start [] (.open' first)
  | suffix {last : List Char} {count : Nat} (read : number last count) : Parts number [] last (.suffix count)

def Spells (number : List Char → Nat → Prop) (value : List Char) (range : ByteRange) : Prop :=
  ∃ start last, value = rangePrefix ++ (start ++ '-' :: last) ∧ Parts number start last range

def Digits (text : List Char) (n : Nat) : Prop := Decimal.parseDigits text = some n

def SignedDigits (text : List Char) (n : Nat) : Prop := Digits text n ∨ ∃ digits, text = '+' :: digits ∧ Digits digits n

section Numbers
variable {text : List Char} {n m : Nat}

theorem digits_iff : Digits text n ↔ text ≠ [] ∧ text.all Char.isDigit ∧ Nat.ofDigitChars 10 text 0 = n := by
  unfold Digits Decimal.parseDigits
  split
  · rename_i spelled
    simp [spelled]
  · rename_i other
    constructor
    · intro impossible
      cases impossible
    · rintro ⟨some,all,_⟩
      exact absurd ⟨some,all⟩ other

theorem Digits.plain (digits : Digits text n) {c : Char} (member : c ∈ text) : c.isDigit :=
  List.all_eq_true.mp (digits_iff.mp digits).2.1 c member

theorem SignedDigits.plain (signed : SignedDigits text n) {c : Char} (member : c ∈ text) : c = '+' ∨ c.isDigit := by
  rcases signed with digits | ⟨digits,rfl,read⟩
  · exact .inr (digits.plain member)
  · rcases List.mem_cons.mp member with sign | inside
    · exact .inl sign
    · exact .inr (read.plain inside)

theorem SignedDigits.ne_nil (signed : SignedDigits text n) : text ≠ [] := by
  rcases signed with digits | ⟨digits,rfl,_⟩
  · exact (digits_iff.mp digits).1
  · exact List.cons_ne_nil _ _

theorem SignedDigits.undashed (signed : SignedDigits text n) : '-' ∉ text := by
  intro member
  rcases signed.plain member with same | digit
  · cases same
  · cases digit

theorem SignedDigits.unique (one : SignedDigits text n) (two : SignedDigits text m) : n = m := by
  rcases one with digits | ⟨digits,rfl,read⟩
  · rcases two with digits' | ⟨_,rfl,_⟩
    · exact Option.some.inj (digits.symm.trans digits')
    · have sign := digits.plain List.mem_cons_self
      cases sign
  · rcases two with digits' | ⟨_,same,read'⟩
    · have sign := digits'.plain List.mem_cons_self
      cases sign
    · obtain rfl := (List.cons.inj same).2
      exact Option.some.inj (read.symm.trans read')

theorem SignedDigits.unsigned (signed : SignedDigits text n) (sign : '+' ∉ text) : Digits text n := by
  rcases signed with digits | ⟨_,rfl,_⟩
  · exact digits
  · exact absurd List.mem_cons_self sign

theorem parseU64_iff {value : UInt64} : parseU64 text = some value ↔ SignedDigits text value.toNat := by
  have fitted (digits : List Char) : ((Decimal.parseDigits digits).bind fun n =>
      if fits : n < UInt64.size then some (UInt64.ofNatLT n fits) else none) = some value ↔ Digits digits value.toNat := by
    rw [Option.bind_eq_some_iff]
    constructor
    · rintro ⟨n,read,fit⟩
      split at fit
      · obtain rfl := Option.some.inj fit
        rwa [UInt64.toNat_ofNatLT]
      · cases fit
    · intro read
      refine ⟨value.toNat,read,?_⟩
      rw [dif_pos value.toNat_lt]
      exact congrArg some (UInt64.toNat_inj.mp (UInt64.toNat_ofNatLT ..))
  unfold parseU64 SignedDigits
  split
  · rename_i digits
    rw [fitted]
    constructor
    · exact fun read => .inr ⟨digits,rfl,read⟩
    · rintro (read | ⟨_,same,read⟩)
      · have sign := read.plain List.mem_cons_self
        cases sign
      · rwa [(List.cons.inj same).2]
  · rename_i unsigned
    rw [fitted]
    constructor
    · exact .inl
    · rintro (read | ⟨digits,same,_⟩)
      · exact read
      · exact absurd same (unsigned digits)

end Numbers

section Ranges
variable {value start last : List Char} {range : ByteRange}

theorem splitOnce_dash (undashed : '-' ∉ start) : splitOnce '-' (start ++ '-' :: last) = some (start,last) := by
  have keeps : ∀ c ∈ start, decide (c ≠ '-') = true := by
    intro c member
    rw [decide_eq_true_iff]
    rintro rfl
    exact undashed member
  unfold splitOnce
  rw [if_pos (by simp),List.takeWhile_append_of_pos keeps,List.dropWhile_append_of_pos keeps]
  simp

theorem of_splitOnce {text : List Char} (split : splitOnce '-' text = some (start,last)) :
    text = start ++ '-' :: last ∧ '-' ∉ start := by
  unfold splitOnce at split
  split at split
  · rename_i member
    have parts := Prod.mk.inj (Option.some.inj split)
    obtain ⟨rfl,rfl⟩ := parts
    have dash : text.dropWhile (fun c => decide (c ≠ '-')) = '-' :: (text.dropWhile fun c => decide (c ≠ '-')).tail := by
      have some : text.dropWhile (fun c => decide (c ≠ '-')) ≠ [] := by
        intro none
        have all := List.dropWhile_eq_nil_iff.mp none '-' member
        simp at all
      have first := List.head_dropWhile_not (fun c => decide (c ≠ '-')) some
      rw [decide_eq_false_iff_not,not_not] at first
      conv_lhs => rw [← List.cons_head_tail some,first]
    refine ⟨?_,?_⟩
    · conv_lhs => rw [← List.takeWhile_append_dropWhile (p := fun c => decide (c ≠ '-')) (l := text),dash]
    · intro inside
      have other := List.mem_takeWhile_imp inside
      simp at other
  · cases split

theorem stripPrefix_append (text : List Char) : stripPrefix rangePrefix (rangePrefix ++ text) = some text := by
  unfold stripPrefix
  rw [if_pos (List.prefix_append _ _),List.drop_left]

theorem of_stripPrefix {text rest : List Char} (stripped : stripPrefix rangePrefix text = some rest) : text = rangePrefix ++ rest := by
  unfold stripPrefix at stripped
  split at stripped
  · rename_i begins
    obtain rfl := Option.some.inj stripped
    obtain ⟨rest,rfl⟩ := begins
    rw [List.drop_left]
  · cases stripped

section Parts
variable {range other : ByteRange}

theorem Parts.undashed (parts : Parts SignedDigits start last range) : '-' ∉ start ∧ '-' ∉ last := by
  cases parts with
  | bounded read read' => exact ⟨read.undashed,read'.undashed⟩
  | open' read => exact ⟨read.undashed,List.not_mem_nil⟩
  | suffix read => exact ⟨List.not_mem_nil,read.undashed⟩

theorem Parts.plain (parts : Parts SignedDigits start last range) {c : Char} (member : c ∈ start ++ '-' :: last) :
    c = '-' ∨ c = '+' ∨ c.isDigit := by
  rw [List.mem_append,List.mem_cons] at member
  have number {text : List Char} {n : Nat} (read : SignedDigits text n) (inside : c ∈ text) : c = '-' ∨ c = '+' ∨ c.isDigit :=
    .inr (read.plain inside)
  cases parts with
  | bounded read read' => exact member.elim (number read) fun later => later.elim .inl (number read')
  | open' read => exact member.elim (number read) fun later => later.elim .inl fun none => absurd none List.not_mem_nil
  | suffix read => exact member.elim (fun none => absurd none List.not_mem_nil) fun later => later.elim .inl (number read)

theorem Parts.unique (one : Parts SignedDigits start last range) (two : Parts SignedDigits start last other) : range = other := by
  cases one with
  | bounded read read' =>
    cases two with
    | bounded again again' => rw [read.unique again,read'.unique again']
    | open' again => exact absurd rfl read'.ne_nil
    | suffix again => exact absurd rfl read.ne_nil
  | open' read =>
    cases two with
    | bounded again again' => exact absurd rfl again'.ne_nil
    | open' again => rw [read.unique again]
    | suffix again => exact absurd rfl read.ne_nil
  | suffix read =>
    cases two with
    | bounded again again' => exact absurd rfl again.ne_nil
    | open' again => exact absurd rfl read.ne_nil
    | suffix again => rw [read.unique again]

theorem Spells.unique (one : Spells SignedDigits value range) (two : Spells SignedDigits value other) : range = other := by
  obtain ⟨start,last,rfl,parts⟩ := one
  obtain ⟨start',last',same,parts'⟩ := two
  have split : splitOnce '-' (start ++ '-' :: last) = some (start,last) := splitOnce_dash parts.undashed.1
  rw [List.append_cancel_left same,splitOnce_dash parts'.undashed.1] at split
  obtain ⟨rfl,rfl⟩ := Prod.mk.inj (Option.some.inj split)
  exact parts.unique parts'

theorem spells_digits_iff : Spells Digits value range ↔ Spells SignedDigits value range ∧ '+' ∉ value := by
  constructor
  · rintro ⟨start,last,rfl,parts⟩
    have unsigned {text : List Char} {n : Nat} (read : Digits text n) : '+' ∉ text := by
      intro member
      have digit := read.plain member
      cases digit
    have before : '+' ∉ rangePrefix := by decide
    cases parts with
    | bounded read read' =>
      refine ⟨⟨_,_,rfl,.bounded (.inl read) (.inl read')⟩,?_⟩
      simp [before,unsigned read,unsigned read']
    | open' read =>
      refine ⟨⟨_,_,rfl,.open' (.inl read)⟩,?_⟩
      simp [before,unsigned read]
    | suffix read =>
      refine ⟨⟨_,_,rfl,.suffix (.inl read)⟩,?_⟩
      simp [before,unsigned read]
  · rintro ⟨⟨start,last,rfl,parts⟩,unsigned⟩
    rw [List.mem_append,List.mem_append,List.mem_cons] at unsigned
    push Not at unsigned
    obtain ⟨_,first,_,second⟩ := unsigned
    refine ⟨start,last,rfl,?_⟩
    cases parts with
    | bounded read read' => exact .bounded (read.unsigned first) (read'.unsigned second)
    | open' read => exact .open' (read.unsigned first)
    | suffix read => exact .suffix (read.unsigned second)

end Parts

section Offsets
variable {length s e : UInt64} {range : ByteRange}

private theorem toNat_pred (positive : 0 < length.toNat) : (length - 1).toNat = length.toNat - 1 :=
  UInt64.toNat_sub_of_le _ _ (UInt64.le_iff_toNat_le.mpr positive)

private theorem toNat_min (a b : UInt64) : (min a b).toNat = min a.toNat b.toNat := by
  change (if a ≤ b then a else b).toNat = _
  rw [Nat.min_def]
  simp only [UInt64.le_iff_toNat_le]
  split <;> rfl

private theorem min_le_length (a : UInt64) : min a length ≤ length := by
  rw [UInt64.le_iff_toNat_le,toNat_min]
  exact Nat.min_le_right _ _

private theorem pair_iff {a b : UInt64} : some (a,b) = some (s,e) ↔ some (a.toNat,b.toNat) = some (s.toNat,e.toNat) := by
  simp only [Option.some.injEq,Prod.mk.injEq,UInt64.toNat_inj]

theorem parseOffsets_iff (positive : 0 < length.toNat) : parseOffsets length start last = some (s,e) ↔
    ∃ range, Parts SignedDigits start last range ∧ (∀ n ∈ range.numbers, n < UInt64.size) ∧
      range.select length.toNat = some (s.toNat,e.toNat) := by
  constructor
  · intro parsed
    unfold parseOffsets at parsed
    split at parsed
    · cases parsed
    · rename_i noStart _
      obtain ⟨suffix,read,chosen⟩ := Option.bind_eq_some_iff.mp parsed
      have signed := parseU64_iff.mp read
      rw [of_decide_eq_true noStart]
      refine ⟨_,.suffix signed,by simpa [ByteRange.numbers] using suffix.toNat_lt,?_⟩
      split at chosen
      · cases chosen
      · rename_i some'
        have above : 0 < suffix.toNat := Nat.pos_of_ne_zero fun zero => some' (UInt64.toNat_inj.mp zero)
        rw [pair_iff,UInt64.toNat_sub_of_le _ _ (min_le_length suffix),toNat_min,toNat_pred positive] at chosen
        rw [← chosen]
        exact if_pos ⟨above,positive⟩
    · rename_i _ noLast
      obtain ⟨first,read,chosen⟩ := Option.bind_eq_some_iff.mp parsed
      have signed := parseU64_iff.mp read
      rw [of_decide_eq_true noLast]
      refine ⟨_,.open' signed,by simpa [ByteRange.numbers] using first.toNat_lt,?_⟩
      split at chosen
      · cases chosen
      · rename_i inside
        rw [UInt64.le_iff_toNat_le,Nat.not_le] at inside
        rw [pair_iff,toNat_pred positive] at chosen
        rw [← chosen]
        exact if_pos inside
    · obtain ⟨first,read,chosen⟩ := Option.bind_eq_some_iff.mp parsed
      obtain ⟨last',read',chosen⟩ := Option.bind_eq_some_iff.mp chosen
      refine ⟨_,.bounded (parseU64_iff.mp read) (parseU64_iff.mp read'),?_,?_⟩
      · simpa [ByteRange.numbers] using ⟨first.toNat_lt,last'.toNat_lt⟩
      · split at chosen
        · cases chosen
        · rename_i inside
          rw [UInt64.lt_iff_toNat_lt,UInt64.le_iff_toNat_le] at inside
          push Not at inside
          rw [pair_iff,toNat_min,toNat_pred positive] at chosen
          rw [← chosen]
          exact if_pos inside
  · rintro ⟨range,parts,fits,selected⟩
    have parses {text : List Char} {n : Nat} (read : SignedDigits text n) (fit : n < UInt64.size) :
        parseU64 text = some (.ofNatLT n fit) := by
      rw [parseU64_iff,UInt64.toNat_ofNatLT]
      exact read
    cases parts with
    | bounded read read' =>
      rename_i first end'
      have small := fits first (by simp [ByteRange.numbers])
      have small' := fits end' (by simp [ByteRange.numbers])
      unfold parseOffsets
      simp only [decide_eq_false read.ne_nil,decide_eq_false read'.ne_nil,parses read small,parses read' small',bind,
        Option.bind_some]
      simp only [ByteRange.select] at selected
      split at selected
      · rename_i inside
        rw [if_neg]
        · rw [pair_iff,toNat_min,toNat_pred positive,UInt64.toNat_ofNatLT,UInt64.toNat_ofNatLT]
          exact selected
        · rw [UInt64.lt_iff_toNat_lt,UInt64.le_iff_toNat_le,UInt64.toNat_ofNatLT,UInt64.toNat_ofNatLT]
          omega
      · cases selected
    | open' read =>
      rename_i first
      have small := fits first (by simp [ByteRange.numbers])
      unfold parseOffsets
      simp only [decide_eq_false read.ne_nil,decide_true,parses read small,bind,Option.bind_some]
      simp only [ByteRange.select] at selected
      split at selected
      · rename_i inside
        rw [if_neg]
        · rw [pair_iff,toNat_pred positive,UInt64.toNat_ofNatLT]
          exact selected
        · rw [UInt64.le_iff_toNat_le,UInt64.toNat_ofNatLT]
          omega
      · cases selected
    | suffix read =>
      rename_i count
      have small := fits count (by simp [ByteRange.numbers])
      unfold parseOffsets
      simp only [decide_eq_false read.ne_nil,decide_true,parses read small,bind,Option.bind_some]
      simp only [ByteRange.select] at selected
      split at selected
      · rename_i inside
        rw [if_neg]
        · rw [pair_iff,UInt64.toNat_sub_of_le _ _ (min_le_length _),toNat_min,toNat_pred positive,UInt64.toNat_ofNatLT]
          exact selected
        · intro zero
          have none := congrArg UInt64.toNat zero
          rw [UInt64.toNat_ofNatLT] at none
          exact absurd inside.1 (by rw [none]; exact Nat.lt_irrefl 0)
      · cases selected

theorem parseRange_iff : parseRange value length = some (s,e) ↔ 0 < length.toNat ∧
    ∃ range, Spells SignedDigits value range ∧ (∀ n ∈ range.numbers, n < UInt64.size) ∧
      range.select length.toNat = some (s.toNat,e.toNat) := by
  unfold parseRange
  by_cases empty : length = 0
  · subst empty
    simp
  have positive : 0 < length.toNat := Nat.pos_of_ne_zero fun zero => empty (UInt64.toNat_inj.mp zero)
  rw [if_neg empty]
  constructor
  · intro parsed
    obtain ⟨text,stripped,parsed⟩ := Option.bind_eq_some_iff.mp parsed
    split at parsed
    · cases parsed
    · obtain ⟨⟨start,last⟩,split,parsed⟩ := Option.bind_eq_some_iff.mp parsed
      obtain ⟨range,parts,fits,selected⟩ := (parseOffsets_iff positive).mp parsed
      obtain ⟨rfl,_⟩ := of_splitOnce split
      exact ⟨positive,range,⟨start,last,of_stripPrefix stripped,parts⟩,fits,selected⟩
  · rintro ⟨_,range,⟨start,last,rfl,parts⟩,fits,selected⟩
    have nonempty : start ++ '-' :: last ≠ [] := by simp
    have single : ',' ∉ start ++ '-' :: last := by
      intro member
      rcases parts.plain member with same | same | digit
      · cases same
      · cases same
      · cases digit
    simp only [stripPrefix_append,bind,Option.bind_some,splitOnce_dash parts.undashed.1]
    rw [if_neg (by simp [nonempty,single])]
    exact (parseOffsets_iff positive).mpr ⟨range,parts,fits,selected⟩

end Offsets

end Ranges

/-- Exactly the ranges of the grammar are accepted, and the offsets are those they select. -/
def ReadsGrammar (value : List Char) (length : UInt64) : Prop :=
  ∀ s e, (parseRange value length).map (fun offsets => (offsets.1.toNat,offsets.2.toNat)) = some (s,e) ↔
    0 < length.toNat ∧ ∃ range, Spells Digits value range ∧ range.select length.toNat = some (s,e)

/-- A range that can be satisfied has a plus sign exactly if one of its numbers is beyond 64 bits. -/
def SignsBeyond (value : List Char) (length : UInt64) : Prop :=
  ∀ range, Spells SignedDigits value range → (range.select length.toNat).isSome →
    ('+' ∈ value ↔ ∃ n ∈ range.numbers, UInt64.size ≤ n)

theorem ByteRange.select_bounds {range : ByteRange} {length s e : Nat} (selected : range.select length = some (s,e)) :
    s ≤ e ∧ e < length := by
  cases range with
  | bounded first last =>
    simp only [select] at selected
    split at selected
    · cases selected
      omega
    · cases selected
  | open' first =>
    simp only [select] at selected
    split at selected
    · cases selected
      omega
    · cases selected
  | suffix count =>
    simp only [select] at selected
    split at selected
    · cases selected
      omega
    · cases selected

theorem parseRange_bounds {value : List Char} {length s e : UInt64} (parsed : parseRange value length = some (s,e)) :
    s ≤ e ∧ e < length ∧ (e - s + 1).toNat = e.toNat - s.toNat + 1 := by
  obtain ⟨_,range,_,_,selected⟩ := parseRange_iff.mp parsed
  obtain ⟨ordered,inside⟩ := ByteRange.select_bounds selected
  have below : s ≤ e := UInt64.le_iff_toNat_le.mpr ordered
  have bound := length.toNat_lt
  refine ⟨below,UInt64.lt_iff_toNat_lt.mpr inside,?_⟩
  rw [UInt64.toNat_add,UInt64.toNat_sub_of_le _ _ below]
  exact Nat.mod_eq_of_lt (by change _ + 1 < 2 ^ 64; omega)

/-- What `GET` answers to the text of a `Range` header: the bytes of a range it spells, or a refusal. -/
def AnswersRange (file : File) (value : List Char) (response : Response) : Prop :=
  (∀ range s e, Spells SignedDigits value range → (∀ n ∈ range.numbers, n < UInt64.size) →
    range.select file.content.length = some (s,e) → response.status = 206 ∧ response.body = (file.content.drop s).take (e - s + 1) ∧
      ("content-range","bytes " ++ toString s ++ "-" ++ toString e ++ "/" ++ toString file.content.length) ∈ response.headers) ∧
  ((∀ range, Spells SignedDigits value range → (∀ n ∈ range.numbers, n < UInt64.size) → range.select file.content.length = none) →
    response.status = 416 ∧ response.body = [])

def LengthGiven (response : Response) : Prop := ("content-length",toString response.body.length) ∈ response.headers

section Answers
variable (file : File) (mime cacheControl : String)

theorem File.length_toNat : file.length.toNat = file.content.length := UInt64.toNat_ofNatLT ..

theorem File.content_of_length (empty : file.length = 0) : file.content = [] :=
  List.eq_nil_of_length_eq_zero (file.length_toNat.symm.trans (congrArg UInt64.toNat empty))

/-- A partial answer has the bytes that were selected, and says how many and which they are. -/
theorem serveFile_selected {range : HeaderValue} {value : List Char} {s e : UInt64} (readable : toStr range = some value)
    (parsed : parseRange value file.length = some (s,e)) :
    let response := serveFile file mime cacheControl .get (some range) 200
    response.status = 206 ∧ response.body = (file.content.drop s.toNat).take (e.toNat - s.toNat + 1) ∧ LengthGiven response ∧
      ("content-range","bytes " ++ decimal s ++ "-" ++ decimal e ++ "/" ++ decimal file.length) ∈ response.headers := by
  obtain ⟨ordered,inside,size⟩ := parseRange_bounds parsed
  have some' : file.length ≠ 0 := by
    rintro empty
    rw [empty] at inside
    exact Nat.not_lt_zero _ (UInt64.lt_iff_toNat_lt.mp inside)
  rw [UInt64.lt_iff_toNat_lt,file.length_toNat] at inside
  rw [UInt64.le_iff_toNat_le] at ordered
  have taken : ((file.content.drop s.toNat).take (e.toNat - s.toNat + 1)).length = e.toNat - s.toNat + 1 := by
    rw [List.length_take,List.length_drop]
    omega
  unfold LengthGiven serveFile
  simp only [reduceCtorEq,if_false,if_true,Option.map_some,readable,Option.bind_some,parsed,if_neg some',size,taken]
  refine ⟨trivial,trivial,?_,?_⟩
  · simp [decimal,size]
  · simp

theorem serveFile_refused {range : HeaderValue} (unread : (toStr range).bind (parseRange · file.length) = none) :
    let response := serveFile file mime cacheControl .get (some range) 200
    response.status = 416 ∧ response.body = [] := by
  unfold serveFile
  simp only [reduceCtorEq,if_false,if_true,Option.map_some,unread]
  exact ⟨trivial,trivial⟩

theorem serveFile_whole {range : Option HeaderValue} {status : Nat} (ranged : status ≠ 200 ∨ range = none) :
    let response := serveFile file mime cacheControl .get range status
    response.status = status ∧ response.body = file.content ∧ LengthGiven response := by
  have selected : (if status = 200 then range.map fun value => (toStr value).bind (parseRange · file.length) else none) = none := by
    rcases ranged with other | rfl
    · exact if_neg other
    · exact ite_self _
  have count : (if file.length = 0 then (0 : UInt64) else (if file.length = 0 then 0 else file.length - 1) - 0 + 1).toNat =
      file.content.length := by
    split
    · rw [file.content_of_length ‹_›]
      rfl
    · rw [UInt64.sub_zero,UInt64.sub_add_cancel,file.length_toNat]
  unfold LengthGiven serveFile
  simp only [reduceCtorEq,if_false,selected]
  refine ⟨trivial,?_,?_⟩
  · rw [count]
    exact List.take_length
  · simp only [decimal,count,List.drop_zero,List.take_length,UInt64.toNat_zero]
    simp

end Answers

/-- The parser reads the grammar of a single range exactly where a sign and a number beyond 64 bits do not come alone. -/
theorem parse_range_reads_grammar_iff (value : List Char) (length : UInt64) :
    (ReadsGrammar value length ↔ SignsBeyond value length) ∧
      ∀ s e, parseRange value length = some (s,e) → s ≤ e ∧ e < length ∧ (e - s + 1).toNat = e.toNat - s.toNat + 1 := by
  refine ⟨⟨?_,?_⟩,fun s e parsed => parseRange_bounds parsed⟩
  · intro reads range spelled satisfied
    obtain ⟨⟨s,e⟩,selected⟩ := Option.isSome_iff_exists.mp satisfied
    obtain ⟨ordered,inside⟩ := ByteRange.select_bounds selected
    constructor
    · intro sign
      by_contra small
      push Not at small
      have bound := length.toNat_lt
      have fits : e < UInt64.size := inside.trans bound
      have parsed : parseRange value length = some (.ofNatLT s (by omega),.ofNatLT e fits) := by
        refine parseRange_iff.mpr ⟨by omega,range,spelled,small,?_⟩
        rw [UInt64.toNat_ofNatLT,UInt64.toNat_ofNatLT]
        exact selected
      have mapped : (parseRange value length).map (fun offsets => (offsets.1.toNat,offsets.2.toNat)) = some (s,e) := by
        rw [parsed,Option.map_some,UInt64.toNat_ofNatLT,UInt64.toNat_ofNatLT]
      obtain ⟨_,other,plain,_⟩ := (reads s e).mp mapped
      exact (spells_digits_iff.mp plain).2 sign
    · rintro ⟨n,member,large⟩
      by_contra unsigned
      have mapped := (reads s e).mpr ⟨by omega,range,spells_digits_iff.mpr ⟨spelled,unsigned⟩,selected⟩
      obtain ⟨⟨s',e'⟩,parsed,_⟩ := Option.map_eq_some_iff.mp mapped
      obtain ⟨_,other,again,fits,_⟩ := parseRange_iff.mp parsed
      rw [spelled.unique again] at member
      exact absurd (fits n member) (Nat.not_lt.mpr large)
  · intro beyond s e
    constructor
    · intro mapped
      obtain ⟨⟨s',e'⟩,parsed,same⟩ := Option.map_eq_some_iff.mp mapped
      obtain ⟨rfl,rfl⟩ := Prod.mk.inj same
      obtain ⟨positive,range,spelled,fits,selected⟩ := parseRange_iff.mp parsed
      refine ⟨positive,range,spells_digits_iff.mpr ⟨spelled,?_⟩,selected⟩
      intro sign
      obtain ⟨n,member,large⟩ := (beyond range spelled (by rw [selected]; rfl)).mp sign
      exact absurd (fits n member) (Nat.not_lt.mpr large)
    · rintro ⟨positive,range,plain,selected⟩
      obtain ⟨spelled,unsigned⟩ := spells_digits_iff.mp plain
      obtain ⟨ordered,inside⟩ := ByteRange.select_bounds selected
      have small : ∀ n ∈ range.numbers, n < UInt64.size := by
        intro n member
        by_contra large
        exact unsigned ((beyond range spelled (by rw [selected]; rfl)).mpr ⟨n,member,Nat.not_lt.mp large⟩)
      have fits : e < UInt64.size := inside.trans length.toNat_lt
      have parsed : parseRange value length = some (.ofNatLT s (by omega),.ofNatLT e fits) := by
        refine parseRange_iff.mpr ⟨positive,range,spelled,small,?_⟩
        rw [UInt64.toNat_ofNatLT,UInt64.toNat_ofNatLT]
        exact selected
      rw [parsed,Option.map_some,UInt64.toNat_ofNatLT,UInt64.toNat_ofNatLT]

/-- A last position of 2⁶⁴ is refused where the end of the file is meant, and a signed one is accepted. -/
theorem beyond_and_signed_ranges : ¬ReadsGrammar "bytes=0-18446744073709551616".toList 10 ∧ ¬ReadsGrammar "bytes=+2-5".toList 10 := by
  constructor
  · intro reads
    have refused : parseRange "bytes=0-18446744073709551616".toList 10 = none := by decide +kernel
    have accepted := (reads 0 9).mpr ⟨by decide,.bounded 0 18446744073709551616,
      ⟨"0".toList,"18446744073709551616".toList,by decide +kernel,.bounded (by unfold Digits; decide +kernel) (by unfold Digits; decide +kernel)⟩,
      by decide +kernel⟩
    rw [refused] at accepted
    cases accepted
  · intro reads
    have accepted : (parseRange "bytes=+2-5".toList 10).map (fun offsets => (offsets.1.toNat,offsets.2.toNat)) = some (2,5) := by
      decide +kernel
    obtain ⟨_,range,spelled,_⟩ := (reads 2 5).mp accepted
    exact (spells_digits_iff.mp spelled).2 (by decide +kernel)

end GrassWorker.StaticFiles
