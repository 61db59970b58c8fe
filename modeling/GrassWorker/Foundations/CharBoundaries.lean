import GrassWorker.Foundations.Utf8

/-! Cutting the bytes of a text between two of its characters. -/
namespace GrassWorker.Utf8

/-- `str::is_char_boundary`, on the bytes of the text. -/
def isCharBoundary (bytes : List UInt8) (index : Nat) : Bool :=
  if index = 0 then true
  else match bytes[index]? with
    | none => index = bytes.length
    | some byte => ¬isContinuation byte

def floorBoundary (bytes : List UInt8) : Nat → Nat
  | 0 => 0
  | index + 1 => if isCharBoundary bytes (index + 1) then index + 1 else floorBoundary bytes index

section Floor
variable (bytes : List UInt8)

theorem floorBoundary_le (index : Nat) : floorBoundary bytes index ≤ index := by
  induction index with
  | zero => exact Nat.le_refl 0
  | succ index ih =>
    unfold floorBoundary
    split
    · exact Nat.le_refl _
    · exact Nat.le_trans ih (Nat.le_succ index)

theorem floorBoundary_boundary (index : Nat) : isCharBoundary bytes (floorBoundary bytes index) := by
  induction index with
  | zero => rfl
  | succ index ih =>
    unfold floorBoundary
    split
    · assumption
    · exact ih

theorem le_floorBoundary {boundary index : Nat} (cuts : isCharBoundary bytes boundary) (within : boundary ≤ index) :
    boundary ≤ floorBoundary bytes index := by
  induction index with
  | zero => exact within
  | succ index ih =>
    unfold floorBoundary
    split
    · exact within
    · rename_i inside
      have different : boundary ≠ index + 1 := by
        rintro rfl
        exact inside cuts
      exact ih (by omega)

end Floor

section Characters
variable {c : Char}

theorem length_utf8EncodeChar_pos : 0 < (String.utf8EncodeChar c).length := by
  have shape := shape_utf8EncodeChar c
  generalize String.utf8EncodeChar c = bytes at shape ⊢
  cases shape <;> exact Nat.succ_pos _

theorem length_utf8EncodeChar_le : (String.utf8EncodeChar c).length ≤ 4 := by
  have shape := shape_utf8EncodeChar c
  generalize String.utf8EncodeChar c = bytes at shape ⊢
  cases shape with
  | one => exact Nat.le_of_ble_eq_true rfl
  | two => exact Nat.le_of_ble_eq_true rfl
  | three => exact Nat.le_of_ble_eq_true rfl
  | four => exact Nat.le_refl 4

private theorem opens_leads {width : Nat} {first second : UInt8} (opens : Opens width first second) :
    ¬isContinuation first := by
  obtain ⟨low,high,led,_⟩ := opens
  intro continued
  have bounds := of_decide_eq_true continued
  unfold lead at led
  rw [if_neg (by omega),if_pos (by omega)] at led
  cases led

theorem isContinuation_utf8EncodeChar {index : Nat} {byte : UInt8} (found : (String.utf8EncodeChar c)[index]? = some byte) :
    isContinuation byte ↔ 0 < index := by
  have shape := shape_utf8EncodeChar c
  generalize String.utf8EncodeChar c = bytes at shape found
  cases shape with
  | one first small _ =>
    have plain : ¬isContinuation first := fun continued => absurd (of_decide_eq_true continued).1 (Nat.not_le.mpr small)
    match index,found with
    | 0,found =>
      cases found
      exact ⟨fun continued => (plain continued).elim,fun inside => (Nat.lt_irrefl 0 inside).elim⟩
  | two first second _ opens second' =>
    have leads := opens_leads opens
    match index,found with
    | 0,found =>
      cases found
      exact ⟨fun continued => (leads continued).elim,fun inside => (Nat.lt_irrefl 0 inside).elim⟩
    | 1,found =>
      cases found
      exact ⟨fun _ => Nat.one_pos,fun _ => second'⟩
  | three first second third _ opens second' third' =>
    have leads := opens_leads opens
    match index,found with
    | 0,found =>
      cases found
      exact ⟨fun continued => (leads continued).elim,fun inside => (Nat.lt_irrefl 0 inside).elim⟩
    | 1,found =>
      cases found
      exact ⟨fun _ => Nat.one_pos,fun _ => second'⟩
    | 2,found =>
      cases found
      exact ⟨fun _ => Nat.two_pos,fun _ => third'⟩
  | four first second third fourth _ opens second' third' fourth' =>
    have leads := opens_leads opens
    match index,found with
    | 0,found =>
      cases found
      exact ⟨fun continued => (leads continued).elim,fun inside => (Nat.lt_irrefl 0 inside).elim⟩
    | 1,found =>
      cases found
      exact ⟨fun _ => Nat.one_pos,fun _ => second'⟩
    | 2,found =>
      cases found
      exact ⟨fun _ => Nat.two_pos,fun _ => third'⟩
    | 3,found =>
      cases found
      exact ⟨fun _ => Nat.succ_pos 2,fun _ => fourth'⟩

end Characters

theorem length_encode_cons (c : Char) (rest : List Char) :
    (encode (c :: rest)).length = (String.utf8EncodeChar c).length + (encode rest).length := by
  rw [encode_cons,List.length_append]

theorem isCharBoundary_cons (c : Char) (rest : List Char) (index : Nat) :
    isCharBoundary (encode (c :: rest)) ((String.utf8EncodeChar c).length + index) = isCharBoundary (encode rest) index := by
  have positive := length_utf8EncodeChar_pos (c := c)
  have later : (encode (c :: rest))[(String.utf8EncodeChar c).length + index]? = (encode rest)[index]? := by
    rw [encode_cons,List.getElem?_append_right (Nat.le_add_right _ _),Nat.add_sub_cancel_left]
  have size := length_encode_cons c rest
  unfold isCharBoundary
  rw [later,if_neg (by omega),size]
  by_cases start : index = 0
  · subst start
    rw [if_pos rfl]
    cases rest with
    | nil => exact decide_eq_true (by rw [encode_nil,List.length_nil])
    | cons next others =>
      have width := length_utf8EncodeChar_pos (c := next)
      obtain ⟨first,found⟩ : ∃ first, (String.utf8EncodeChar next)[0]? = some first :=
        ⟨_,List.getElem?_eq_getElem width⟩
      have leads : (encode (next :: others))[0]? = some first := by
        rw [encode_cons,List.getElem?_append_left width,found]
      rw [leads]
      have plain : ¬isContinuation first := fun continued =>
        Nat.lt_irrefl 0 ((isContinuation_utf8EncodeChar found).mp continued)
      exact decide_eq_true plain
  · rw [if_neg start]
    cases (encode rest)[index]? with
    | none => exact decide_eq_decide.mpr (Nat.add_left_cancel_iff)
    | some byte => rfl

theorem isCharBoundary_first (c : Char) (rest : List Char) :
    isCharBoundary (encode (c :: rest)) (String.utf8EncodeChar c).length :=
  isCharBoundary_cons c rest 0

theorem not_isCharBoundary_inside {c : Char} {rest : List Char} {index : Nat} (positive : 0 < index)
    (inside : index < (String.utf8EncodeChar c).length) : ¬isCharBoundary (encode (c :: rest)) index := by
  obtain ⟨byte,found⟩ : ∃ byte, (String.utf8EncodeChar c)[index]? = some byte := ⟨_,List.getElem?_eq_getElem inside⟩
  have there : (encode (c :: rest))[index]? = some byte := by
    rw [encode_cons,List.getElem?_append_left inside,found]
  unfold isCharBoundary
  rw [if_neg (Nat.ne_of_gt positive),there]
  intro cuts
  exact of_decide_eq_true cuts ((isContinuation_utf8EncodeChar found).mpr positive)

theorem encode_cut {text : List Char} {index : Nat} (cuts : isCharBoundary (encode text) index) :
    ∃ front back, front ++ back = text ∧ encode front = (encode text).take index ∧ encode back = (encode text).drop index := by
  induction text generalizing index with
  | nil => exact ⟨[],[],rfl,List.take_nil.symm,List.drop_nil.symm⟩
  | cons c rest ih =>
    by_cases start : index = 0
    · subst start
      exact ⟨[],c :: rest,rfl,List.take_zero.symm,List.drop_zero.symm⟩
    · have outside : (String.utf8EncodeChar c).length ≤ index := by
        apply Nat.le_of_not_lt
        exact fun inside => not_isCharBoundary_inside (Nat.pos_of_ne_zero start) inside cuts
      obtain ⟨more,rfl⟩ := Nat.exists_eq_add_of_le outside
      rw [isCharBoundary_cons] at cuts
      obtain ⟨front,back,whole,taken,dropped⟩ := ih cuts
      refine ⟨c :: front,back,by rw [List.cons_append,whole],?_,?_⟩
      · rw [encode_cons,encode_cons,List.take_length_add_append,taken]
      · rw [encode_cons,List.drop_length_add_append,dropped]

end GrassWorker.Utf8
