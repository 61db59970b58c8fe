import Mathlib.Data.List.Basic

/-! Decimal text of integers, as `to_string` writes it and `parse` reads it. The
integers are unbounded. -/
namespace GrassWorker.Decimal

def print : Int → List Char
  | .ofNat n => Nat.toDigits 10 n
  | .negSucc n => '-' :: Nat.toDigits 10 (n + 1)

def parseDigits (digits : List Char) : Option Nat :=
  if digits ≠ [] ∧ digits.all Char.isDigit then some (Nat.ofDigitChars 10 digits 0) else none

def parse : List Char → Option Int
  | '-' :: digits => (parseDigits digits).map fun n => -Int.ofNat n
  | '+' :: digits => (parseDigits digits).map Int.ofNat
  | digits => (parseDigits digits).map Int.ofNat

theorem isDigit_of_mem {c : Char} {n : Nat} (member : c ∈ Nat.toDigits 10 n) : c.isDigit :=
  Nat.isDigit_of_mem_toDigits (by decide) (by decide) member

theorem parseDigits_toDigits (n : Nat) : parseDigits (Nat.toDigits 10 n) = some n := by
  have digits : (Nat.toDigits 10 n).all Char.isDigit := List.all_eq_true.mpr fun _ member => isDigit_of_mem member
  unfold parseDigits
  rw [if_pos ⟨Nat.toDigits_ne_nil,digits⟩,Nat.ofDigitChars_ten_toDigits]

theorem parse_print (n : Int) : parse (print n) = some n := by
  cases n with
  | ofNat n =>
    obtain ⟨first,rest,digits⟩ := List.exists_cons_of_ne_nil (Nat.toDigits_ne_nil (n := n) (b := 10))
    have digit : first.isDigit := isDigit_of_mem (n := n) (by rw [digits]; exact List.mem_cons_self ..)
    have read := parseDigits_toDigits n
    change parse (Nat.toDigits 10 n) = _
    rw [digits] at read ⊢
    unfold parse
    split
    · rename_i same
      obtain ⟨rfl,_⟩ := List.cons.inj same
      cases digit
    · rename_i same
      obtain ⟨rfl,_⟩ := List.cons.inj same
      cases digit
    · rw [read]
      rfl
  | negSucc n =>
    change (parseDigits (Nat.toDigits 10 (n + 1))).map _ = _
    rw [parseDigits_toDigits]
    rfl

theorem print_characters {c : Char} {n : Int} (member : c ∈ print n) : c = '-' ∨ c.isDigit := by
  cases n with
  | ofNat n => exact .inr (isDigit_of_mem member)
  | negSucc n =>
    rcases List.mem_cons.mp member with sign | digit
    · exact .inl sign
    · exact .inr (isDigit_of_mem digit)

theorem print_injective {m n : Int} (same : print m = print n) : m = n := by
  have read := parse_print m
  rw [same,parse_print] at read
  exact (Option.some.inj read).symm

end GrassWorker.Decimal
