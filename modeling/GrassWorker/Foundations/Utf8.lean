import Mathlib.Data.List.Basic

/-! The validation of UTF-8, which tells a sequence that is cut off from one that is wrong, and the text of bytes that
need not be valid. -/
namespace GrassWorker.Utf8

inductive Scan
  | character (width : Nat)
  | incomplete
  | invalid (length : Nat)
deriving DecidableEq

def isContinuation (byte : UInt8) : Bool := 0x80 ≤ byte.toNat ∧ byte.toNat < 0xc0

/-- How many bytes the character of a first byte has, and the bounds of its second byte. -/
def lead (first : UInt8) : Option (Nat × Nat × Nat) :=
  if first.toNat < 0x80 then some (1,0,0)
  else if first.toNat < 0xc2 then none
  else if first.toNat < 0xe0 then some (2,0x80,0xc0)
  else if first.toNat = 0xe0 then some (3,0xa0,0xc0)
  else if first.toNat = 0xed then some (3,0x80,0xa0)
  else if first.toNat < 0xf0 then some (3,0x80,0xc0)
  else if first.toNat = 0xf0 then some (4,0x90,0xc0)
  else if first.toNat < 0xf4 then some (4,0x80,0xc0)
  else if first.toNat = 0xf4 then some (4,0x80,0x90)
  else none

def scanRest (width seen : Nat) : Nat → List UInt8 → Scan
  | 0,_ => .character width
  | _ + 1,[] => .incomplete
  | more + 1,byte :: rest => if isContinuation byte then scanRest width (seen + 1) more rest else .invalid seen

def scan : List UInt8 → Scan
  | [] => .incomplete
  | first :: rest =>
    match lead first with
    | none => .invalid 1
    | some (1,_,_) => .character 1
    | some (width,low,high) =>
      match rest with
      | [] => .incomplete
      | second :: rest => if low ≤ second.toNat ∧ second.toNat < high then scanRest width 2 (width - 2) rest else .invalid 1

structure Utf8Error where
  validUpTo : Nat
  errorLen : Option Nat
deriving DecidableEq

def validate : Nat → Nat → List UInt8 → Option Utf8Error
  | 0,_,_ => none
  | _,_,[] => none
  | rounds + 1,position,bytes =>
    match scan bytes with
    | .character width => validate rounds (position + width) (bytes.drop width)
    | .incomplete => some ⟨position,none⟩
    | .invalid length => some ⟨position,some length⟩

/-- The error of `str::from_utf8`. -/
def fromUtf8 (bytes : List UInt8) : Option Utf8Error := validate bytes.length 0 bytes

def replacement : List UInt8 := [0xef,0xbf,0xbd]

def lossy : Nat → List UInt8 → List UInt8
  | 0,_ => []
  | _,[] => []
  | rounds + 1,bytes =>
    match scan bytes with
    | .character width => bytes.take width ++ lossy rounds (bytes.drop width)
    | .incomplete => replacement
    | .invalid length => replacement ++ lossy rounds (bytes.drop length)

def fromUtf8Lossy (bytes : List UInt8) : List UInt8 := lossy bytes.length bytes

def encode (text : List Char) : List UInt8 := text.flatMap String.utf8EncodeChar

@[simp] theorem encode_nil : encode [] = [] := rfl

@[simp] theorem encode_append (first second : List Char) : encode (first ++ second) = encode first ++ encode second :=
  List.flatMap_append

@[simp] theorem encode_cons (c : Char) (rest : List Char) : encode (c :: rest) = String.utf8EncodeChar c ++ encode rest :=
  List.flatMap_cons

section Characters
variable {c : Char} {first second : UInt8}

theorem isContinuation_ofNat (n : Nat) : isContinuation (UInt8.ofNat (n % 0x40 + 0x80)) := by
  unfold isContinuation
  rw [UInt8.toNat_ofNat']
  exact decide_eq_true (by omega)

def Opens (width : Nat) (first second : UInt8) : Prop :=
  ∃ low high, lead first = some (width,low,high) ∧ low ≤ second.toNat ∧ second.toNat < high

theorem opens_two (from_ : 0xc2 ≤ first.toNat) (to_ : first.toNat < 0xe0) (continued : isContinuation second) : Opens 2 first second := by
  refine ⟨0x80,0xc0,?_,of_decide_eq_true continued⟩
  unfold lead
  rw [if_neg (by omega),if_neg (by omega),if_pos (by omega)]

theorem opens_three (from_ : 0xe0 ≤ first.toNat) (to_ : first.toNat < 0xf0) (continued : isContinuation second)
    (shortest : first.toNat = 0xe0 → 0xa0 ≤ second.toNat) (plain : first.toNat = 0xed → second.toNat < 0xa0) :
    Opens 3 first second := by
  have bounds := of_decide_eq_true continued
  by_cases least : first.toNat = 0xe0
  · refine ⟨0xa0,0xc0,?_,shortest least,bounds.2⟩
    unfold lead
    rw [if_neg (by omega),if_neg (by omega),if_neg (by omega),if_pos least]
  · by_cases surrogate : first.toNat = 0xed
    · refine ⟨0x80,0xa0,?_,bounds.1,plain surrogate⟩
      unfold lead
      rw [if_neg (by omega),if_neg (by omega),if_neg (by omega),if_neg least,if_pos surrogate]
    · refine ⟨0x80,0xc0,?_,bounds⟩
      unfold lead
      rw [if_neg (by omega),if_neg (by omega),if_neg (by omega),if_neg least,if_neg surrogate,if_pos to_]

theorem opens_four (from_ : 0xf0 ≤ first.toNat) (to_ : first.toNat ≤ 0xf4) (continued : isContinuation second)
    (shortest : first.toNat = 0xf0 → 0x90 ≤ second.toNat) (highest : first.toNat = 0xf4 → second.toNat < 0x90) :
    Opens 4 first second := by
  have bounds := of_decide_eq_true continued
  by_cases least : first.toNat = 0xf0
  · refine ⟨0x90,0xc0,?_,shortest least,bounds.2⟩
    unfold lead
    rw [if_neg (by omega),if_neg (by omega),if_neg (by omega),if_neg (by omega),if_neg (by omega),if_neg (by omega),if_pos least]
  · by_cases most : first.toNat = 0xf4
    · refine ⟨0x80,0x90,?_,bounds.1,highest most⟩
      unfold lead
      rw [if_neg (by omega),if_neg (by omega),if_neg (by omega),if_neg (by omega),if_neg (by omega),if_neg (by omega),if_neg least,
        if_neg (by omega),if_pos most]
    · refine ⟨0x80,0xc0,?_,bounds⟩
      unfold lead
      rw [if_neg (by omega),if_neg (by omega),if_neg (by omega),if_neg (by omega),if_neg (by omega),if_neg (by omega),if_neg least,
        if_pos (by omega)]

inductive Shape (c : Char) : List UInt8 → Prop
  | one (first : UInt8) : first.toNat < 0x80 → first.toNat = c.toNat → Shape c [first]
  | two (first second : UInt8) : 0x80 ≤ c.toNat → Opens 2 first second → isContinuation second → Shape c [first,second]
  | three (first second third : UInt8) : 0x80 ≤ c.toNat → Opens 3 first second → isContinuation second → isContinuation third →
    Shape c [first,second,third]
  | four (first second third fourth : UInt8) : 0x80 ≤ c.toNat → Opens 4 first second → isContinuation second →
    isContinuation third → isContinuation fourth → Shape c [first,second,third,fourth]

theorem shape_utf8EncodeChar (c : Char) : Shape c (String.utf8EncodeChar c) := by
  have valid : c.toNat < 0xd800 ∨ 0xdfff < c.toNat ∧ c.toNat < 0x110000 := c.valid
  have same : c.val.toNat = c.toNat := rfl
  unfold String.utf8EncodeChar
  simp only [same]
  split
  · refine .one _ ?_ ?_
    all_goals
      rw [UInt8.toNat_ofNat']
      omega
  · split
    · refine .two _ _ (by omega) ?_ (isContinuation_ofNat _)
      refine opens_two ?_ ?_ (isContinuation_ofNat _)
      all_goals
        rw [UInt8.toNat_ofNat']
        omega
    · split
      · refine .three _ _ _ (by omega) ?_ (isContinuation_ofNat _) (isContinuation_ofNat _)
        refine opens_three ?_ ?_ (isContinuation_ofNat _) ?_ ?_
        all_goals
          simp only [UInt8.toNat_ofNat']
          omega
      · refine .four _ _ _ _ (by omega) ?_ (isContinuation_ofNat _) (isContinuation_ofNat _) (isContinuation_ofNat _)
        refine opens_four ?_ ?_ (isContinuation_ofNat _) ?_ ?_
        all_goals
          simp only [UInt8.toNat_ofNat']
          omega

theorem scan_opens {width : Nat} {rest : List UInt8} (opens : Opens (width + 2) first second) :
    scan (first :: second :: rest) = scanRest (width + 2) 2 width rest := by
  obtain ⟨low,high,led,within⟩ := opens
  unfold scan
  simp only [led]
  rw [if_pos within]
  rfl

theorem scan_opens_alone {width : Nat} (opens : Opens (width + 2) first second) : scan [first] = .incomplete := by
  obtain ⟨low,high,led,_⟩ := opens
  unfold scan
  simp only [led]

theorem scan_utf8EncodeChar (c : Char) (rest : List UInt8) :
    scan (String.utf8EncodeChar c ++ rest) = .character (String.utf8EncodeChar c).length := by
  have shape := shape_utf8EncodeChar c
  generalize String.utf8EncodeChar c = bytes at shape ⊢
  cases shape with
  | one first small _ =>
    have led : lead first = some (1,0,0) := if_pos small
    unfold scan
    simp only [List.singleton_append,led,List.length_singleton]
  | two first second _ opens _ => exact scan_opens opens
  | three first second third _ opens _ third' =>
    refine (scan_opens opens).trans ?_
    simp [scanRest,third']
  | four first second third fourth _ opens _ third' fourth' =>
    refine (scan_opens opens).trans ?_
    simp [scanRest,third',fourth']

theorem scan_take_utf8EncodeChar (c : Char) {seen : Nat} (part : seen < (String.utf8EncodeChar c).length) :
    scan ((String.utf8EncodeChar c).take seen) = .incomplete := by
  have shape := shape_utf8EncodeChar c
  generalize String.utf8EncodeChar c = bytes at part shape ⊢
  cases shape with
  | one first small _ =>
    obtain rfl : seen = 0 := by simpa using part
    rfl
  | two first second _ opens _ =>
    match seen, part with
    | 0,_ => rfl
    | 1,_ => exact scan_opens_alone opens
  | three first second third _ opens _ third' =>
    match seen, part with
    | 0,_ => rfl
    | 1,_ => exact scan_opens_alone opens
    | 2,_ => exact scan_opens opens
  | four first second third fourth _ opens _ third' fourth' =>
    match seen, part with
    | 0,_ => rfl
    | 1,_ => exact scan_opens_alone opens
    | 2,_ => exact scan_opens opens
    | 3,_ =>
      refine (scan_opens opens).trans ?_
      simp [scanRest,third']

theorem length_utf8EncodeChar (c : Char) : 0 < (String.utf8EncodeChar c).length ∧ (String.utf8EncodeChar c).length ≤ 4 := by
  have shape := shape_utf8EncodeChar c
  generalize String.utf8EncodeChar c = bytes at shape ⊢
  cases shape <;> simp

theorem Opens.high {width : Nat} (opens : Opens (width + 2) first second) : 0x80 ≤ first.toNat := by
  obtain ⟨low,high,led,_⟩ := opens
  by_contra small
  have single : lead first = some (1,0,0) := if_pos (by omega)
  rw [single] at led
  simp at led

theorem of_mem_utf8EncodeChar {byte : UInt8} (member : byte ∈ String.utf8EncodeChar c) :
    byte.toNat = c.toNat ∧ String.utf8EncodeChar c = [byte] ∨ 0x80 ≤ byte.toNat ∧ 0x80 ≤ c.toNat := by
  have continued {byte : UInt8} (continuation : isContinuation byte) : 0x80 ≤ byte.toNat := (of_decide_eq_true continuation).1
  have shape := shape_utf8EncodeChar c
  generalize String.utf8EncodeChar c = bytes at member shape ⊢
  cases shape with
  | one first _ same =>
    rw [List.mem_singleton] at member
    subst member
    exact .inl ⟨same,rfl⟩
  | two first second large opens second' =>
    right
    simp only [List.mem_cons,List.not_mem_nil,or_false] at member
    rcases member with rfl | rfl
    · exact ⟨opens.high,large⟩
    · exact ⟨continued second',large⟩
  | three first second third large opens second' third' =>
    right
    simp only [List.mem_cons,List.not_mem_nil,or_false] at member
    rcases member with rfl | rfl | rfl
    · exact ⟨opens.high,large⟩
    · exact ⟨continued second',large⟩
    · exact ⟨continued third',large⟩
  | four first second third fourth large opens second' third' fourth' =>
    right
    simp only [List.mem_cons,List.not_mem_nil,or_false] at member
    rcases member with rfl | rfl | rfl | rfl
    · exact ⟨opens.high,large⟩
    · exact ⟨continued second',large⟩
    · exact ⟨continued third',large⟩
    · exact ⟨continued fourth',large⟩

end Characters

section Texts
variable {text : List Char} {c : Char}

theorem validate_encode (text : List Char) {bytes : List UInt8} (position rounds : Nat) (cut : bytes = [] ∨ scan bytes = .incomplete)
    (enough : (encode text).length + bytes.length ≤ rounds) :
    validate rounds position (encode text ++ bytes) =
      if bytes = [] then none else some ⟨position + (encode text).length,none⟩ := by
  induction text generalizing position rounds with
  | nil =>
    rw [encode_nil,List.nil_append]
    cases bytes with
    | nil => cases rounds <;> rfl
    | cons first rest =>
      have incomplete : scan (first :: rest) = .incomplete := cut.resolve_left (List.cons_ne_nil _ _)
      obtain ⟨rounds,rfl⟩ : ∃ fewer, rounds = fewer + 1 := ⟨rounds - 1,by simp at enough; omega⟩
      unfold validate
      simp only [incomplete]
      rfl
  | cons c text ih =>
    have sizes := length_utf8EncodeChar c
    rw [encode_cons,List.length_append] at enough
    obtain ⟨rounds,rfl⟩ : ∃ fewer, rounds = fewer + 1 := ⟨rounds - 1,by omega⟩
    have found := scan_utf8EncodeChar c (encode text ++ bytes)
    have later := ih (position + (String.utf8EncodeChar c).length) rounds (by omega)
    rw [encode_cons,List.append_assoc,List.length_append]
    cases whole : String.utf8EncodeChar c ++ (encode text ++ bytes) with
    | nil => simp at whole
    | cons first rest =>
      unfold validate
      rw [whole] at found
      simp only [found]
      rw [← whole,List.drop_left,later,Nat.add_assoc]

theorem fromUtf8_encode (text : List Char) : fromUtf8 (encode text) = none := by
  have valid := validate_encode text 0 (encode text).length (.inl rfl : ([] : List UInt8) = [] ∨ _) (by simp)
  rwa [List.append_nil,if_pos rfl] at valid

theorem fromUtf8_cut (text : List Char) {seen : Nat} (some' : 0 < seen) (part : seen < (String.utf8EncodeChar c).length) :
    fromUtf8 (encode text ++ (String.utf8EncodeChar c).take seen) = some ⟨(encode text).length,none⟩ := by
  have nonempty : (String.utf8EncodeChar c).take seen ≠ [] := by
    intro empty
    have length := congrArg List.length empty
    rw [List.length_take,List.length_nil] at length
    omega
  have cut := validate_encode text 0 (encode text ++ (String.utf8EncodeChar c).take seen).length
    (.inr (scan_take_utf8EncodeChar c part)) (Nat.le_of_eq List.length_append.symm)
  rwa [if_neg nonempty,Nat.zero_add] at cut

theorem lossy_encode (text : List Char) (rounds : Nat) (enough : (encode text).length ≤ rounds) :
    lossy rounds (encode text) = encode text := by
  induction text generalizing rounds with
  | nil => cases rounds <;> rfl
  | cons c text ih =>
    have sizes := length_utf8EncodeChar c
    rw [encode_cons,List.length_append] at enough
    obtain ⟨rounds,rfl⟩ : ∃ fewer, rounds = fewer + 1 := ⟨rounds - 1,by omega⟩
    have found := scan_utf8EncodeChar c (encode text)
    have later := ih rounds (by omega)
    rw [encode_cons]
    cases whole : String.utf8EncodeChar c ++ encode text with
    | nil => simp at whole
    | cons first rest =>
      unfold lossy
      rw [whole] at found
      simp only [found]
      rw [← whole,List.drop_left,List.take_left,later]

theorem fromUtf8Lossy_encode (text : List Char) : fromUtf8Lossy (encode text) = encode text :=
  lossy_encode text _ (Nat.le_refl _)

end Texts

end GrassWorker.Utf8
