import Mathlib.Data.List.Basic

/-! Data as it is handed to a format and read back: trees of strings, integers, truth values, arrays and
tables. JSON holds any of them; the integers of TOML have 64 bits and a sign. -/
namespace GrassWorker.Serde

inductive Value
  | string (value : String)
  | integer (value : Int)
  | boolean (value : Bool)
  | array (values : List Value)
  | table (entries : List (String × Value))

def tomlMax : Int := 9223372036854775807

mutual

def Value.inToml : Value → Bool
  | .integer value => -tomlMax - 1 ≤ value ∧ value ≤ tomlMax
  | .array values => allInToml values
  | .table entries => entriesInToml entries
  | _ => true

def allInToml : List Value → Bool
  | [] => true
  | value :: values => value.inToml && allInToml values

def entriesInToml : List (String × Value) → Bool
  | [] => true
  | entry :: entries => entry.2.inToml && entriesInToml entries

end

/-- `toml::to_string`, as a tree. -/
def toToml (value : Value) : Option Value := if value.inToml then some value else none

/-! Readers. -/

section Readers
universe u
variable {α : Type u}

def asString : Value → Option String
  | .string value => some value
  | _ => none

def asBool : Value → Option Bool
  | .boolean value => some value
  | _ => none

def asNat (limit : Nat) : Value → Option Nat
  | .integer value => if 0 ≤ value ∧ value ≤ limit then some value.toNat else none
  | _ => none

def asArray (read : Value → Option α) : Value → Option (List α)
  | .array values => values.mapM read
  | _ => none

def field (table : Value) (key : String) (read : Value → Option α) (missing : Option α) : Option α :=
  match table with
  | .table entries =>
    match entries.lookup key with
    | some value => read value
    | none => missing
  | _ => none

@[simp] theorem asString_string (value : String) : asString (.string value) = some value := rfl

@[simp] theorem asBool_boolean (value : Bool) : asBool (.boolean value) = some value := rfl

theorem asNat_integer {limit value : Nat} (small : value ≤ limit) : asNat limit (.integer value) = some value := by
  have fits : 0 ≤ (value : Int) ∧ (value : Int) ≤ limit := by omega
  unfold asNat
  dsimp only
  rw [if_pos fits,Int.toNat_natCast]

theorem asArray_map {write : α → Value} {read : Value → Option α} (values : List α)
    (reads : ∀ value ∈ values, read (write value) = some value) : asArray read (.array (values.map write)) = some values := by
  change (values.map write).mapM read = some values
  induction values with
  | nil => rfl
  | cons value values ih =>
    have others := ih fun other inside => reads other (List.mem_cons_of_mem _ inside)
    rw [List.map_cons,List.mapM_cons,reads value List.mem_cons_self,others]
    rfl

@[simp] theorem field_nil (key : String) (read : Value → Option α) (missing : Option α) : field (.table []) key read missing = missing := rfl

theorem field_cons (key other : String) (value : Value) (entries : List (String × Value)) (read : Value → Option α) (missing : Option α) :
    field (.table ((other,value) :: entries)) key read missing =
      if key == other then read value else field (.table entries) key read missing := by
  unfold field
  dsimp only
  rw [List.lookup_cons]
  cases key == other <;> rfl

theorem asNat_le {limit number : Nat} {value : Value} (read : asNat limit value = some number) : number ≤ limit := by
  unfold asNat at read
  split at read
  · split at read
    · rename_i small
      cases read
      omega
    · cases read
  · cases read

theorem mem_asArray {read : Value → Option α} {array : Value} {values : List α} (done : asArray read array = some values) :
    ∀ value ∈ values, ∃ source, read source = some value := by
  unfold asArray at done
  split at done
  · rename_i sources
    induction sources generalizing values with
    | nil =>
      cases done
      intro value member
      cases member
    | cons source sources ih =>
      rw [List.mapM_cons] at done
      obtain ⟨first,own,done⟩ := Option.bind_eq_some_iff.mp done
      obtain ⟨others,rest,done⟩ := Option.bind_eq_some_iff.mp done
      cases done
      exact List.forall_mem_cons.mpr ⟨⟨source,own⟩,ih rest⟩
  · cases done

/-- A field has what its reader promises where the default has it. -/
@[elab_as_elim] theorem field_invariant {table : Value} {key : String} {read : Value → Option α} {missing : Option α} {P : α → Prop} {value : α}
    (done : field table key read missing = some value) (default : ∀ value ∈ missing, P value)
    (reads : ∀ source value, read source = some value → P value) : P value := by
  unfold field at done
  split at done
  · split at done
    · exact reads _ _ done
    · exact default _ done
  · cases done

end Readers

@[simp] theorem inToml_string (value : String) : (Value.string value).inToml = true := rfl

@[simp] theorem inToml_boolean (value : Bool) : (Value.boolean value).inToml = true := rfl

@[simp] theorem inToml_array (values : List Value) : (Value.array values).inToml = allInToml values := rfl

@[simp] theorem inToml_table (entries : List (String × Value)) : (Value.table entries).inToml = entriesInToml entries := rfl

@[simp] theorem entriesInToml_nil : entriesInToml [] = true := rfl

@[simp] theorem entriesInToml_cons (entry : String × Value) (entries : List (String × Value)) :
    entriesInToml (entry :: entries) = (entry.2.inToml && entriesInToml entries) := rfl

@[simp] theorem entriesInToml_append (front back : List (String × Value)) :
    entriesInToml (front ++ back) = (entriesInToml front && entriesInToml back) := by
  induction front with
  | nil => rfl
  | cons entry front ih => rw [List.cons_append,entriesInToml_cons,entriesInToml_cons,ih,Bool.and_assoc]

theorem allInToml_map {α : Type*} (write : α → Value) (values : List α) :
    allInToml (values.map write) = true ↔ ∀ value ∈ values, (write value).inToml = true := by
  induction values with
  | nil => simp [allInToml]
  | cons value values ih => simp [allInToml,ih]

end GrassWorker.Serde
