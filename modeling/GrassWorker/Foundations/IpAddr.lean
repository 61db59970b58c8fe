import Mathlib.Data.List.Basic
import Mathlib.Tactic.IntervalCases

/-! Internet addresses as text: what `IpAddr` of the Rust standard library reads and prints. What is
printed is read back; an address may be read from more texts than the printed one. -/
namespace GrassWorker

/-- `to_digit`. -/
def toDigit (radix : Nat) (c : Char) : Option Nat :=
  let value :=
    if '0' ≤ c ∧ c ≤ '9' then some (c.toNat - 48)
    else if 'a' ≤ c ∧ c ≤ 'z' then some (c.toNat - 87)
    else if 'A' ≤ c ∧ c ≤ 'Z' then some (c.toNat - 55)
    else none
  value.filter fun digit => digit < radix

structure Ipv4Addr where
  octets : Fin 256 × Fin 256 × Fin 256 × Fin 256
deriving DecidableEq

structure Ipv6Addr where
  segments : List Nat
  eight : segments.length = 8
  bounded : ∀ segment ∈ segments, segment < 65536
deriving DecidableEq

inductive IpAddr
  | v4 (address : Ipv4Addr)
  | v6 (address : Ipv6Addr)
deriving DecidableEq

namespace IpAddr

/-! Reading. A reader gives back what it has not read. -/

def readNumber (radix maxDigits limit : Nat) (allowZeroPrefix : Bool) (text : List Char) : Option (Nat × List Char) :=
  let digits := text.takeWhile fun c => (toDigit radix c).isSome
  let value := digits.foldl (fun value c => radix * value + (toDigit radix c).getD 0) 0
  if digits = [] ∨ maxDigits < digits.length ∨ (allowZeroPrefix = false ∧ digits.head? = some '0' ∧ 1 < digits.length) ∨ limit ≤ value then none
  else some (value,text.dropWhile fun c => (toDigit radix c).isSome)

def readChar (expected : Char) : List Char → Option (List Char)
  | [] => none
  | c :: rest => if c = expected then some rest else none

def readSeparator (separator : Char) (index : Nat) (text : List Char) : Option (List Char) :=
  if index = 0 then some text else readChar separator text

instance neZero : NeZero 256 := ⟨by decide⟩

def readOctet (index : Nat) (text : List Char) : Option (Fin 256 × List Char) := do
  let rest ← readSeparator '.' index text
  let (octet,rest) ← readNumber 10 3 256 false rest
  return (Fin.ofNat 256 octet,rest)

def readIpv4Addr (text : List Char) : Option (Ipv4Addr × List Char) := do
  let (a,rest) ← readOctet 0 text
  let (b,rest) ← readOctet 1 rest
  let (c,rest) ← readOctet 2 rest
  let (d,rest) ← readOctet 3 rest
  return (⟨a,b,c,d⟩,rest)

def Ipv4Addr.segments (address : Ipv4Addr) : List Nat :=
  let (a,b,c,d) := address.octets
  [256 * a + b,256 * c + d]

structure Groups where
  groups : List Nat
  endsInIpv4 : Bool
  rest : List Char
deriving DecidableEq

def readEmbedded (index room : Nat) (text : List Char) : Option (Ipv4Addr × List Char) :=
  if room = 0 then none else (readSeparator ':' index text).bind readIpv4Addr

def readGroup (index : Nat) (text : List Char) : Option (Nat × List Char) :=
  (readSeparator ':' index text).bind (readNumber 16 4 65536 true)

/-- At most `limit` groups, the first of which is the one at `index`. An address in the other notation may end them. -/
def readGroups (index : Nat) (text : List Char) : (limit : Nat) → Groups
  | 0 => ⟨[],false,text⟩
  | room + 1 =>
    match readEmbedded index room text with
    | some (address,rest) => ⟨Ipv4Addr.segments address,true,rest⟩
    | none =>
      match readGroup index text with
      | some (group,rest) =>
        let others := readGroups (index + 1) rest room
        ⟨group :: others.groups,others.endsInIpv4,others.rest⟩
      | none => ⟨[],false,text⟩

def ofSegments (segments : List Nat) : Option Ipv6Addr :=
  if valid : segments.length = 8 ∧ ∀ segment ∈ segments, segment < 65536 then some ⟨segments,valid.1,valid.2⟩ else none

def readIpv6Addr (text : List Char) : Option (Ipv6Addr × List Char) :=
  let head := readGroups 0 text 8
  if head.groups.length = 8 then (ofSegments head.groups).map fun address => (address,head.rest)
  else if head.endsInIpv4 then none
  else do
    let rest ← readChar ':' head.rest
    let rest ← readChar ':' rest
    let tail := readGroups 0 rest (8 - (head.groups.length + 1))
    let zeros := List.replicate (8 - head.groups.length - tail.groups.length) 0
    let address ← ofSegments (head.groups ++ zeros ++ tail.groups)
    return (address,tail.rest)

def parse (text : List Char) : Option IpAddr := do
  let (address,rest) ← match readIpv4Addr text with
    | some (address,rest) => some (IpAddr.v4 address,rest)
    | none => (readIpv6Addr text).map fun (address,rest) => (IpAddr.v6 address,rest)
  if rest = [] then some address else none

/-! Printing. -/

def printIpv4 (address : Ipv4Addr) : List Char :=
  let (a,b,c,d) := address.octets
  Nat.toDigits 10 a ++ '.' :: Nat.toDigits 10 b ++ '.' :: Nat.toDigits 10 c ++ '.' :: Nat.toDigits 10 d

structure Span where
  start : Nat := 0
  len : Nat := 0
deriving DecidableEq

def scan (state : Span × Span) (index segment : Nat) : Span × Span :=
  let (current,longest) := state
  if segment = 0 then
    let current : Span := ⟨if current.len = 0 then index else current.start,current.len + 1⟩
    (current,if longest.len < current.len then current else longest)
  else ({},longest)

def scanFrom (index : Nat) (state : Span × Span) : List Nat → Span × Span
  | [] => state
  | segment :: segments => scanFrom (index + 1) (scan state index segment) segments

def zeroes (segments : List Nat) : Span := (scanFrom 0 ({},{}) segments).2

def printSegments (segments : List Nat) : List Char := [':'].intercalate (segments.map (Nat.toDigits 16))

def mapped : List Nat → Option Ipv4Addr
  | [0,0,0,0,0,0xffff,first,second] =>
    some ⟨Fin.ofNat 256 (first / 256),Fin.ofNat 256 first,Fin.ofNat 256 (second / 256),Fin.ofNat 256 second⟩
  | _ => none

def printIpv6 (segments : List Nat) : List Char :=
  match mapped segments with
  | some address => "::ffff:".toList ++ printIpv4 address
  | none =>
    let run := zeroes segments
    if 1 < run.len then printSegments (segments.take run.start) ++ ':' :: ':' :: printSegments (segments.drop (run.start + run.len))
    else printSegments segments

def print : IpAddr → List Char
  | .v4 address => printIpv4 address
  | .v6 address => printIpv6 address.segments

/-! Numbers. -/

section Numbers
variable {radix : Nat}

theorem toDigit_digitChar {digit : Nat} (small : digit < radix) (bounded : radix ≤ 16) : toDigit radix digit.digitChar = some digit := by
  have value : toDigit 16 digit.digitChar = some digit := by
    have hex : digit < 16 := by omega
    interval_cases digit <;> rfl
  unfold toDigit at value ⊢
  rw [Option.filter_eq_some_iff] at value ⊢
  exact ⟨value.1,decide_eq_true small⟩

theorem digits_toDigits (base : 1 < radix) (bounded : radix ≤ 16) (n : Nat) {c : Char} (member : c ∈ Nat.toDigits radix n) :
    ∃ digit < radix, c = digit.digitChar := by
  induction n using Nat.strongRecOn generalizing c with
  | ind n ih =>
    rw [Nat.toDigits_eq_if base] at member
    split at member
    · rename_i small
      exact ⟨n,small,List.mem_singleton.mp member⟩
    · rename_i large
      rcases List.mem_append.mp member with front | last
      · exact ih (n / radix) (Nat.div_lt_self (by omega) base) front
      · exact ⟨n % radix,Nat.mod_lt n (by omega),List.mem_singleton.mp last⟩

theorem isSome_toDigits (base : 1 < radix) (bounded : radix ≤ 16) (n : Nat) {c : Char} (member : c ∈ Nat.toDigits radix n) :
    (toDigit radix c).isSome = true := by
  obtain ⟨digit,small,rfl⟩ := digits_toDigits base bounded n member
  rw [toDigit_digitChar small bounded]
  rfl

theorem value_toDigits (base : 1 < radix) (bounded : radix ≤ 16) (n : Nat) :
    (Nat.toDigits radix n).foldl (fun value c => radix * value + (toDigit radix c).getD 0) 0 = n := by
  induction n using Nat.strongRecOn with
  | ind n ih =>
    rw [Nat.toDigits_eq_if base]
    split
    · rename_i small
      simp [toDigit_digitChar small bounded]
    · rename_i large
      have smaller := ih (n / radix) (Nat.div_lt_self (by omega) base)
      rw [List.foldl_append,smaller,List.foldl_cons,List.foldl_nil,toDigit_digitChar (Nat.mod_lt n (by omega)) bounded]
      exact Nat.div_add_mod n radix

theorem head_toDigits (base : 1 < radix) (bounded : radix ≤ 16) (n : Nat) (zero : (Nat.toDigits radix n).head? = some '0') :
    (Nat.toDigits radix n).length = 1 := by
  induction n using Nat.strongRecOn with
  | ind n ih =>
    rw [Nat.toDigits_eq_if base] at zero ⊢
    split
    · rfl
    · rename_i large
      exfalso
      rw [if_neg large,List.head?_append_of_ne_nil _ Nat.toDigits_ne_nil] at zero
      have alone := ih (n / radix) (Nat.div_lt_self (by omega) base) zero
      have value := value_toDigits base bounded (n / radix)
      obtain ⟨c,single⟩ := List.length_eq_one_iff.mp alone
      rw [single] at zero value
      obtain rfl := Option.some.inj zero
      have nothing : toDigit radix '0' = some 0 := @toDigit_digitChar radix 0 (by omega) bounded
      simp only [List.foldl_cons,List.foldl_nil,nothing,Nat.mul_zero,Option.getD_some,Nat.add_zero] at value
      have positive := Nat.div_pos (Nat.not_lt.mp large) (by omega : 0 < radix)
      omega

def Stops (radix : Nat) (rest : List Char) : Prop := ∀ c ∈ rest.head?, toDigit radix c = none

theorem readNumber_print (base : 1 < radix) (bounded : radix ≤ 16) {n maxDigits limit : Nat} (allow : Bool) (short : n < radix ^ maxDigits)
    (some' : 0 < maxDigits) (small : n < limit) {rest : List Char} (stops : Stops radix rest) :
    readNumber radix maxDigits limit allow (Nat.toDigits radix n ++ rest) = some (n,rest) := by
  have digits : ∀ c ∈ Nat.toDigits radix n, (toDigit radix c).isSome = true := fun c member => isSome_toDigits base bounded n member
  have taken : rest.takeWhile (fun c => (toDigit radix c).isSome) = [] ∧ rest.dropWhile (fun c => (toDigit radix c).isSome) = rest := by
    cases rest with
    | nil => exact ⟨rfl,rfl⟩
    | cons c rest =>
      have stop := stops c rfl
      simp [stop]
  have length : (Nat.toDigits radix n).length ≤ maxDigits := (Nat.length_toDigits_le_iff base some').mpr short
  unfold readNumber
  dsimp only
  rw [List.takeWhile_append_of_pos digits,List.dropWhile_append_of_pos digits,taken.1,taken.2,List.append_nil,value_toDigits base bounded,
    if_neg]
  rintro (none' | long | ⟨_,zero,several⟩ | large)
  · exact Nat.toDigits_ne_nil none'
  · omega
  · rw [head_toDigits base bounded n zero] at several
    omega
  · omega

theorem readNumber_stops {maxDigits limit : Nat} {allow : Bool} {text : List Char} (stops : Stops radix text) :
    readNumber radix maxDigits limit allow text = none := by
  have taken : text.takeWhile (fun c => (toDigit radix c).isSome) = [] := by
    cases text with
    | nil => rfl
    | cons c rest =>
      have stop := stops c rfl
      simp [stop]
  unfold readNumber
  dsimp only
  rw [taken,if_pos (.inl rfl)]

end Numbers

/-! The dotted notation. -/

section Dotted

theorem stops_char {radix : Nat} {c : Char} {rest : List Char} (stop : toDigit radix c = none) : Stops radix (c :: rest) := by
  rintro _ ⟨⟩
  exact stop

theorem stops_nil (radix : Nat) : Stops radix [] := nofun

theorem readNumber_octet (octet : Fin 256) {rest : List Char} (stops : Stops 10 rest) :
    readNumber 10 3 256 false (Nat.toDigits 10 octet ++ rest) = some (octet.val,rest) :=
  readNumber_print (by decide) (by decide) false (by omega) (by decide) octet.isLt stops

theorem readIpv4Addr_stops {text : List Char} (stops : Stops 10 text) : readIpv4Addr text = none := by
  have nothing : readOctet 0 text = none := by
    unfold readOctet readSeparator
    rw [if_pos rfl]
    simp [readNumber_stops stops]
  unfold readIpv4Addr
  rw [nothing]
  rfl

theorem readOctet_first (octet : Fin 256) {rest : List Char} (stops : Stops 10 rest) :
    readOctet 0 (Nat.toDigits 10 octet ++ rest) = some (octet,rest) := by
  unfold readOctet readSeparator
  rw [if_pos rfl]
  simp [readNumber_octet octet stops]

theorem readOctet_next (index : Nat) (octet : Fin 256) {rest : List Char} (stops : Stops 10 rest) :
    readOctet (index + 1) ('.' :: Nat.toDigits 10 octet ++ rest) = some (octet,rest) := by
  unfold readOctet readSeparator
  rw [if_neg (Nat.succ_ne_zero index)]
  simp [readChar,readNumber_octet octet stops]

theorem readIpv4Addr_print (address : Ipv4Addr) {rest : List Char} (stops : Stops 10 rest) :
    readIpv4Addr (printIpv4 address ++ rest) = some (address,rest) := by
  obtain ⟨a,b,c,d⟩ := address
  have dot : ∀ digits more, Stops 10 ('.' :: digits ++ more) := fun digits more => stops_char rfl
  have text : printIpv4 ⟨a,b,c,d⟩ ++ rest = Nat.toDigits 10 a ++ ('.' :: Nat.toDigits 10 b ++ ('.' :: Nat.toDigits 10 c ++
      ('.' :: Nat.toDigits 10 d ++ rest))) := by
    simp [printIpv4]
  rw [text]
  unfold readIpv4Addr
  rw [readOctet_first a (dot _ _),Option.bind_eq_bind,Option.bind_some]
  dsimp only
  rw [readOctet_next 0 b (dot _ _),Option.bind_some]
  dsimp only
  rw [readOctet_next 1 c (dot _ _),Option.bind_some]
  dsimp only
  rw [readOctet_next 2 d stops]
  rfl

theorem readChar_some {expected : Char} {text rest : List Char} (read : readChar expected text = some rest) : text = expected :: rest := by
  cases text with
  | nil => cases read
  | cons c text =>
    simp only [readChar,Option.ite_none_right_eq_some] at read
    obtain ⟨rfl,same⟩ := read
    rw [Option.some.inj same]

theorem readOctet_dot {index : Nat} {text rest : List Char} {octet : Fin 256} (read : readOctet (index + 1) text = some (octet,rest)) :
    '.' ∈ text := by
  obtain ⟨more,separator,_⟩ := Option.bind_eq_some_iff.mp read
  unfold readSeparator at separator
  rw [if_neg (Nat.succ_ne_zero index)] at separator
  rw [readChar_some separator]
  exact List.mem_cons_self

theorem readNumber_suffix {radix maxDigits limit : Nat} {allow : Bool} {text rest : List Char} {n : Nat}
    (read : readNumber radix maxDigits limit allow text = some (n,rest)) : rest <:+ text := by
  unfold readNumber at read
  dsimp only at read
  split at read
  · cases read
  · obtain ⟨_,rfl⟩ := Prod.mk.inj (Option.some.inj read)
    exact List.dropWhile_suffix _

theorem readOctet_suffix {text rest : List Char} {octet : Fin 256} (read : readOctet 0 text = some (octet,rest)) : rest <:+ text := by
  unfold readOctet at read
  obtain ⟨more,whole,read⟩ := Option.bind_eq_some_iff.mp read
  obtain ⟨⟨n,last⟩,number,read⟩ := Option.bind_eq_some_iff.mp read
  obtain ⟨_,rfl⟩ := Prod.mk.inj (Option.some.inj read)
  obtain rfl : text = more := Option.some.inj whole
  exact readNumber_suffix number

theorem readIpv4Addr_dot {text rest : List Char} {address : Ipv4Addr} (read : readIpv4Addr text = some (address,rest)) : '.' ∈ text := by
  obtain ⟨⟨a,after⟩,first,read⟩ := Option.bind_eq_some_iff.mp read
  obtain ⟨⟨b,_⟩,second,_⟩ := Option.bind_eq_some_iff.mp read
  exact (readOctet_suffix first).subset (readOctet_dot second)

theorem readIpv4Addr_undotted {text : List Char} (undotted : '.' ∉ text) : readIpv4Addr text = none := by
  cases read : readIpv4Addr text with
  | none => rfl
  | some found => exact absurd (readIpv4Addr_dot read) undotted

end Dotted

/-! The notation with colons. -/

section Colons

def Ends (rest : List Char) : Prop := rest = [] ∨ ∃ more, rest = ':' :: ':' :: more

def following (segments : List Nat) : List Char := segments.flatMap fun segment => ':' :: Nat.toDigits 16 segment

theorem printSegments_cons (segment : Nat) (segments : List Nat) :
    printSegments (segment :: segments) = Nat.toDigits 16 segment ++ following segments := by
  induction segments generalizing segment with
  | nil => simp [printSegments,following,List.intercalate]
  | cons next segments ih =>
    have rest := ih next
    unfold printSegments at rest ⊢
    rw [List.map_cons,List.map_cons,List.intercalate_cons_cons,← List.map_cons,rest]
    simp [following]

theorem undotted_toDigits (n : Nat) : '.' ∉ Nat.toDigits 16 n := by
  intro member
  have digit := isSome_toDigits (by decide) (by decide) n member
  cases digit

theorem undotted_following (segments : List Nat) : '.' ∉ following segments := by
  intro member
  obtain ⟨segment,_,inside⟩ := List.mem_flatMap.mp member
  rcases List.mem_cons.mp inside with colon | digit
  · cases colon
  · exact undotted_toDigits segment digit

theorem undotted_printSegments (segments : List Nat) : '.' ∉ printSegments segments := by
  cases segments with
  | nil => exact List.not_mem_nil
  | cons segment segments =>
    rw [printSegments_cons]
    intro member
    rcases List.mem_append.mp member with first | others
    · exact undotted_toDigits segment first
    · exact undotted_following segments others

theorem readSeparator_suffix {separator : Char} {index : Nat} {text rest : List Char} (read : readSeparator separator index text = some rest) :
    rest <:+ text := by
  unfold readSeparator at read
  split at read
  · obtain rfl := Option.some.inj read
    exact List.suffix_refl _
  · rw [readChar_some read]
    exact List.suffix_cons separator rest

theorem readEmbedded_undotted (index room : Nat) {text : List Char} (undotted : '.' ∉ text) : readEmbedded index room text = none := by
  unfold readEmbedded
  split
  · rfl
  · cases separated : readSeparator ':' index text with
    | none => rfl
    | some rest => exact readIpv4Addr_undotted fun member => undotted ((readSeparator_suffix separated).subset member)

theorem readEmbedded_stops (room : Nat) {text : List Char} (stops : Stops 10 text) : readEmbedded 0 room text = none := by
  unfold readEmbedded readSeparator
  rw [if_pos rfl,Option.bind_some,readIpv4Addr_stops stops]
  exact ite_self none

theorem readGroup_ends (index : Nat) {rest : List Char} (ends : Ends rest) : readGroup index rest = none := by
  have colon : ∀ more, readNumber 16 4 65536 true (':' :: more) = none := fun more => readNumber_stops (stops_char rfl)
  rcases ends with rfl | ⟨more,rfl⟩
  · unfold readGroup readSeparator
    split
    · exact @readNumber_stops 16 4 65536 true [] (stops_nil 16)
    · rfl
  · unfold readGroup readSeparator
    split
    · exact colon (':' :: more)
    · exact colon more

theorem readGroups_ends (index room : Nat) {rest : List Char} (undotted : '.' ∉ rest) (ends : Ends rest) :
    readGroups index rest room = ⟨[],false,rest⟩ := by
  cases room with
  | zero => rfl
  | succ room =>
    unfold readGroups
    rw [readEmbedded_undotted index room undotted,readGroup_ends index ends]

theorem stops_following (segments : List Nat) {rest : List Char} (ends : Ends rest) : Stops 16 (following segments ++ rest) := by
  cases segments with
  | nil =>
    rcases ends with rfl | ⟨more,rfl⟩
    · exact stops_nil 16
    · exact stops_char rfl
  | cons segment segments => exact stops_char rfl

theorem readNumber_group {segment : Nat} (bounded : segment < 65536) {rest : List Char} (stops : Stops 16 rest) :
    readNumber 16 4 65536 true (Nat.toDigits 16 segment ++ rest) = some (segment,rest) :=
  readNumber_print (by decide) (by decide) true bounded (by decide) bounded stops

theorem readGroup_first {segment : Nat} (bounded : segment < 65536) {rest : List Char} (stops : Stops 16 rest) :
    readGroup 0 (Nat.toDigits 16 segment ++ rest) = some (segment,rest) := readNumber_group bounded stops

theorem readGroups_following (segments : List Nat) (index room : Nat) (bounded : ∀ segment ∈ segments, segment < 65536)
    (fits : segments.length ≤ room) {rest : List Char} (undotted : '.' ∉ rest) (ends : Ends rest) :
    readGroups (index + 1) (following segments ++ rest) room = ⟨segments,false,rest⟩ := by
  induction segments generalizing index room with
  | nil => exact readGroups_ends (index + 1) room undotted ends
  | cons segment segments ih =>
    obtain ⟨room,rfl⟩ := Nat.exists_eq_add_of_lt (Nat.lt_of_lt_of_le (Nat.succ_pos _) fits)
    have free : '.' ∉ following (segment :: segments) ++ rest := by
      intro member
      rcases List.mem_append.mp member with front | back
      · exact undotted_following _ front
      · exact undotted back
    have group : readGroup (index + 1) (following (segment :: segments) ++ rest) = some (segment,following segments ++ rest) := by
      have text : following (segment :: segments) ++ rest = ':' :: (Nat.toDigits 16 segment ++ (following segments ++ rest)) := by
        simp [following]
      rw [text]
      unfold readGroup readSeparator
      rw [if_neg (Nat.succ_ne_zero index)]
      exact readNumber_group (bounded segment List.mem_cons_self) (stops_following segments ends)
    have others := ih (index + 1) (0 + room) (fun other inside => bounded other (List.mem_cons_of_mem _ inside)) (by simpa using fits)
    rw [readGroups,readEmbedded_undotted _ _ free,group]
    dsimp only
    rw [others]

theorem readGroups_print (segments : List Nat) (room : Nat) (bounded : ∀ segment ∈ segments, segment < 65536)
    (fits : segments.length ≤ room) {rest : List Char} (undotted : '.' ∉ rest) (ends : Ends rest) :
    readGroups 0 (printSegments segments ++ rest) room = ⟨segments,false,rest⟩ := by
  cases segments with
  | nil => exact readGroups_ends 0 room undotted ends
  | cons segment segments =>
    obtain ⟨room,rfl⟩ := Nat.exists_eq_add_of_lt (Nat.lt_of_lt_of_le (Nat.succ_pos _) fits)
    have free : '.' ∉ printSegments (segment :: segments) ++ rest := by
      intro member
      rcases List.mem_append.mp member with front | back
      · exact undotted_printSegments _ front
      · exact undotted back
    have group : readGroup 0 (printSegments (segment :: segments) ++ rest) = some (segment,following segments ++ rest) := by
      rw [printSegments_cons,List.append_assoc]
      exact readGroup_first (bounded segment List.mem_cons_self) (stops_following segments ends)
    have others := readGroups_following segments 0 (0 + room) (fun other inside => bounded other (List.mem_cons_of_mem _ inside))
      (by simpa using fits) undotted ends
    rw [readGroups,readEmbedded_undotted _ _ free,group]
    dsimp only
    rw [others]

end Colons

/-! The run of zeros that is left out. -/

section Zeros

structure Zeros (segments : List Nat) (span : Span) : Prop where
  within : span.start + span.len ≤ segments.length
  zero : ∀ place, span.start ≤ place → place < span.start + span.len → segments[place]? = some 0

structure Scanned (segments : List Nat) (state : Span × Span) : Prop where
  current : Zeros segments state.1
  adjacent : state.1.len = 0 ∨ state.1.start + state.1.len = segments.length
  longest : Zeros segments state.2

theorem zeros_empty (segments : List Nat) : Zeros segments {} :=
  ⟨Nat.zero_le _,fun place _ before => absurd before (Nat.not_lt_zero place)⟩

theorem Zeros.append {segments : List Nat} {span : Span} (zeros : Zeros segments span) (segment : Nat) : Zeros (segments ++ [segment]) span := by
  have within := zeros.within
  refine ⟨by rw [List.length_append]; omega,fun place after before => ?_⟩
  rw [List.getElem?_append_left (by omega)]
  exact zeros.zero place after before

theorem scan_scanned {segments : List Nat} {state : Span × Span} (scanned : Scanned segments state) (segment : Nat) :
    Scanned (segments ++ [segment]) (scan state segments.length segment) := by
  obtain ⟨current,longest⟩ := state
  unfold scan
  dsimp only
  by_cases nothing : segment = 0
  · rw [if_pos nothing]
    have start : (if current.len = 0 then segments.length else current.start) + current.len = segments.length := by
      have adjacent : current.len = 0 ∨ current.start + current.len = segments.length := scanned.adjacent
      split
      · omega
      · omega
    have run : Zeros (segments ++ [segment]) ⟨if current.len = 0 then segments.length else current.start,current.len + 1⟩ := by
      refine ⟨by rw [List.length_append,← Nat.add_assoc,start]; rfl,fun place after before => ?_⟩
      dsimp only at after before
      rw [← Nat.add_assoc,start] at before
      by_cases last : place = segments.length
      · rw [last,nothing]
        simp
      · rw [List.getElem?_append_left (by omega)]
        by_cases fresh : current.len = 0
        · rw [if_pos fresh] at after
          omega
        · rw [if_neg fresh] at after start
          have before : place < current.start + current.len := by omega
          exact scanned.current.zero place after before
    refine ⟨run,.inr ?_,?_⟩
    · rw [List.length_append]
      exact congrArg Nat.succ start
    · dsimp only
      split
      · exact run
      · exact scanned.longest.append segment
  · rw [if_neg nothing]
    exact ⟨zeros_empty _,.inl rfl,scanned.longest.append segment⟩

theorem scanFrom_scanned (before segments : List Nat) {state : Span × Span} (scanned : Scanned before state) :
    Scanned (before ++ segments) (scanFrom before.length state segments) := by
  induction segments generalizing before state with
  | nil =>
    rw [List.append_nil]
    exact scanned
  | cons segment segments ih =>
    have next := ih (before ++ [segment]) (scan_scanned scanned segment)
    rw [List.append_assoc,List.length_append] at next
    exact next

theorem zeroes_zeros (segments : List Nat) : Zeros segments (zeroes segments) :=
  (scanFrom_scanned [] segments ⟨zeros_empty _,.inl rfl,zeros_empty _⟩).longest

theorem Zeros.split {segments : List Nat} {span : Span} (zeros : Zeros segments span) :
    segments.take span.start ++ List.replicate span.len 0 ++ segments.drop (span.start + span.len) = segments := by
  have within := zeros.within
  apply List.ext_getElem?
  intro place
  by_cases front : place < span.start
  · rw [List.append_assoc,List.getElem?_append_left (by rw [List.length_take]; omega),List.getElem?_take_of_lt front]
  · by_cases inside : place < span.start + span.len
    · rw [List.getElem?_append_left (by simp; omega),List.getElem?_append_right (by rw [List.length_take]; omega),
        zeros.zero place (Nat.not_lt.mp front) inside,List.getElem?_replicate_of_lt]
      rw [List.length_take]
      omega
    · rw [List.getElem?_append_right (by simp; omega),List.getElem?_drop]
      congr 1
      rw [List.length_append,List.length_take,List.length_replicate]
      omega

end Zeros

/-! What is printed is read back. -/

section RoundTrip

theorem ofSegments_segments (address : Ipv6Addr) : ofSegments address.segments = some address :=
  dif_pos ⟨address.eight,address.bounded⟩

theorem mapped_segments {segments : List Nat} {address : Ipv4Addr} (bounded : ∀ segment ∈ segments, segment < 65536)
    (embedded : mapped segments = some address) : segments = [0,0,0,0,0,0xffff] ++ Ipv4Addr.segments address := by
  unfold mapped at embedded
  split at embedded
  · rename_i first second
    have small := bounded first (by simp)
    have small' := bounded second (by simp)
    rw [← Option.some.inj embedded]
    simp only [Ipv4Addr.segments,Fin.val_ofNat,List.cons_append,List.nil_append,List.cons.injEq,true_and,and_true]
    omega
  · cases embedded

theorem undotted_shortened (front back : List Nat) : '.' ∉ printSegments front ++ ':' :: ':' :: printSegments back := by
  intro member
  rcases List.mem_append.mp member with first | last
  · exact undotted_printSegments front first
  · rcases List.mem_cons.mp last with colon | last
    · cases colon
    · rcases List.mem_cons.mp last with colon | last
      · cases colon
      · exact undotted_printSegments back last

theorem readIpv6Addr_shortened (address : Ipv6Addr) {span : Span} (zeros : Zeros address.segments span) (several : 1 < span.len) :
    readIpv6Addr (printSegments (address.segments.take span.start) ++ ':' :: ':' :: printSegments (address.segments.drop (span.start + span.len))) =
      some (address,[]) := by
  have within := zeros.within
  have eight := address.eight
  have front : ∀ segment ∈ address.segments.take span.start, segment < 65536 :=
    fun segment member => address.bounded segment (List.mem_of_mem_take member)
  have back : ∀ segment ∈ address.segments.drop (span.start + span.len), segment < 65536 :=
    fun segment member => address.bounded segment (List.mem_of_mem_drop member)
  have length : (address.segments.take span.start).length = span.start := by
    rw [List.length_take]
    omega
  have lengthBack : (address.segments.drop (span.start + span.len)).length = 8 - (span.start + span.len) := by
    rw [List.length_drop,eight]
  have undotted : '.' ∉ ':' :: ':' :: printSegments (address.segments.drop (span.start + span.len)) := by
    intro member
    exact undotted_shortened [] _ member
  have head := readGroups_print _ 8 front (by omega) undotted (.inr ⟨_,rfl⟩)
  have tail := @readGroups_print _ (8 - (span.start + 1)) back (by omega) [] List.not_mem_nil (.inl rfl)
  rw [List.append_nil] at tail
  unfold readIpv6Addr
  dsimp only
  rw [head]
  dsimp only
  rw [length,if_neg (by omega),if_neg Bool.false_ne_true]
  simp only [readChar,if_true,Option.bind_eq_bind,Option.bind_some]
  rw [tail]
  dsimp only
  rw [lengthBack]
  have missing : 8 - span.start - (8 - (span.start + span.len)) = span.len := by omega
  rw [missing,zeros.split,ofSegments_segments]
  rfl

theorem readIpv6Addr_whole (address : Ipv6Addr) : readIpv6Addr (printSegments address.segments) = some (address,[]) := by
  have head := @readGroups_print address.segments 8 address.bounded (by rw [address.eight]) [] List.not_mem_nil (.inl rfl)
  rw [List.append_nil] at head
  unfold readIpv6Addr
  dsimp only
  rw [head]
  dsimp only
  rw [if_pos address.eight,ofSegments_segments]
  rfl

theorem readGroups_mapped (embedded : Ipv4Addr) :
    readGroups 0 (Nat.toDigits 16 0xffff ++ ':' :: printIpv4 embedded) 7 = ⟨0xffff :: Ipv4Addr.segments embedded,true,[]⟩ := by
  have dotted := readIpv4Addr_print embedded (stops_nil 10)
  rw [List.append_nil] at dotted
  have hex : Nat.toDigits 16 0xffff = ['f','f','f','f'] := by decide
  have none' : readEmbedded 0 6 (Nat.toDigits 16 0xffff ++ ':' :: printIpv4 embedded) = none := by
    rw [hex]
    exact readEmbedded_stops 6 (stops_char rfl)
  have group : readGroup 0 (Nat.toDigits 16 0xffff ++ ':' :: printIpv4 embedded) = some (0xffff,':' :: printIpv4 embedded) :=
    readGroup_first (by decide) (stops_char rfl)
  have whole : readEmbedded 1 5 (':' :: printIpv4 embedded) = some (embedded,[]) := by
    unfold readEmbedded readSeparator
    rw [if_neg (by decide),if_neg (by decide)]
    exact dotted
  have last : readGroups 1 (':' :: printIpv4 embedded) 6 = ⟨Ipv4Addr.segments embedded,true,[]⟩ := by
    rw [readGroups,whole]
  rw [readGroups,none',group]
  dsimp only
  rw [last]

theorem readIpv6Addr_mapped (address : Ipv6Addr) {embedded : Ipv4Addr} (same : mapped address.segments = some embedded) :
    readIpv6Addr ("::ffff:".toList ++ printIpv4 embedded) = some (address,[]) := by
  have segments := mapped_segments address.bounded same
  have whole : [] ++ List.replicate 5 0 ++ 0xffff :: Ipv4Addr.segments embedded = address.segments := segments.symm
  have head : readGroups 0 (':' :: ':' :: (Nat.toDigits 16 0xffff ++ ':' :: printIpv4 embedded)) 8 =
      ⟨[],false,':' :: ':' :: (Nat.toDigits 16 0xffff ++ ':' :: printIpv4 embedded)⟩ := by
    have free : readEmbedded 0 7 (':' :: ':' :: (Nat.toDigits 16 0xffff ++ ':' :: printIpv4 embedded)) = none :=
      readEmbedded_stops 7 (stops_char rfl)
    rw [readGroups,free,readGroup_ends 0 (.inr ⟨_,rfl⟩)]
  change readIpv6Addr (':' :: ':' :: (Nat.toDigits 16 0xffff ++ ':' :: printIpv4 embedded)) = _
  unfold readIpv6Addr
  dsimp only
  rw [head]
  dsimp only
  rw [if_neg (by decide),if_neg Bool.false_ne_true]
  simp only [readChar,if_true,Option.bind_eq_bind,Option.bind_some,List.length_nil,Nat.zero_add]
  rw [readGroups_mapped]
  change (ofSegments ([] ++ List.replicate 5 0 ++ 0xffff :: Ipv4Addr.segments embedded)).bind _ = _
  rw [whole,ofSegments_segments]
  rfl

theorem parse_print (address : IpAddr) : parse (print address) = some address := by
  cases address with
  | v4 address =>
    have read := readIpv4Addr_print address (stops_nil 10)
    rw [List.append_nil] at read
    unfold parse print
    rw [read]
    rfl
  | v6 address =>
    have read : readIpv4Addr (printIpv6 address.segments) = none ∧ readIpv6Addr (printIpv6 address.segments) = some (address,[]) := by
      unfold printIpv6
      cases same : mapped address.segments with
      | some embedded => exact ⟨readIpv4Addr_stops (stops_char rfl),readIpv6Addr_mapped address same⟩
      | none =>
        dsimp only
        split
        · rename_i several
          exact ⟨readIpv4Addr_undotted (undotted_shortened _ _),readIpv6Addr_shortened address (zeroes_zeros address.segments) several⟩
        · exact ⟨readIpv4Addr_undotted (undotted_printSegments _),readIpv6Addr_whole address⟩
    unfold parse print
    rw [read.1,read.2]
    rfl

theorem print_injective {first second : IpAddr} (same : print first = print second) : first = second := by
  have read := parse_print first
  rw [same,parse_print] at read
  exact (Option.some.inj read).symm

end RoundTrip

end IpAddr
end GrassWorker
