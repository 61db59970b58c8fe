import GrassWorker.Validator

/-! Header maps: for each name its values in the order of their lines. The order of lines
with different names is not kept, and a name is lower case whatever its line says. -/
namespace GrassWorker.Headers
open Validator

abbrev HeaderName := String
abbrev HeaderValue := List UInt8
abbrev HeaderLine := String × HeaderValue

@[ext] structure HeaderMap where
  getAll : HeaderName → List HeaderValue

instance : EmptyCollection HeaderMap := ⟨⟨fun _ => []⟩⟩

def utf8 (text : List Char) : HeaderValue := text.flatMap String.utf8EncodeChar

/-- `HeaderValue::to_str`: the text of a value of visible ASCII characters. -/
def toStr (value : HeaderValue) : Option (List Char) :=
  if value.all fun byte => byte = 9 ∨ 32 ≤ byte ∧ byte < 127 then some (value.map fun byte => Char.ofNat byte.toNat)
  else none

/-- `HeaderValue::from_str`: a text without control characters. -/
def fromStr (text : List Char) : Option HeaderValue :=
  if (utf8 text).all fun byte => byte = 9 ∨ 32 ≤ byte ∧ byte ≠ 127 then some (utf8 text) else none

def headerName (raw : String) : HeaderName := String.ofList (raw.toList.map toAsciiLowercase)

namespace HeaderMap
variable (headers : HeaderMap) (name : HeaderName) (value : HeaderValue)

def get : Option HeaderValue := (headers.getAll name).head?

def append : HeaderMap := ⟨Function.update headers.getAll name (headers.getAll name ++ [value])⟩

def insert : HeaderMap := ⟨Function.update headers.getAll name [value]⟩

def remove : HeaderMap := ⟨Function.update headers.getAll name []⟩

def without (skipped : HeaderName → Bool) : HeaderMap := ⟨fun name => if skipped name then [] else headers.getAll name⟩

def parse (lines : List HeaderLine) : HeaderMap :=
  lines.foldl (fun headers line => headers.append (headerName line.1) line.2) ∅

variable {headers name value}

@[simp] theorem getAll_append_self : (headers.append name value).getAll name = headers.getAll name ++ [value] :=
  Function.update_self _ _ _

@[simp] theorem getAll_append_of_ne {other : HeaderName} (different : other ≠ name) :
    (headers.append name value).getAll other = headers.getAll other := Function.update_of_ne different _ _

@[simp] theorem getAll_insert_of_ne {other : HeaderName} (different : other ≠ name) :
    (headers.insert name value).getAll other = headers.getAll other := Function.update_of_ne different _ _

@[simp] theorem getAll_insert_self : (headers.insert name value).getAll name = [value] := Function.update_self _ _ _

@[simp] theorem getAll_remove_self : (headers.remove name).getAll name = [] := Function.update_self _ _ _

@[simp] theorem getAll_remove_of_ne {other : HeaderName} (different : other ≠ name) :
    (headers.remove name).getAll other = headers.getAll other := Function.update_of_ne different _ _

theorem getAll_without (skipped : HeaderName → Bool) :
    (headers.without skipped).getAll name = if skipped name then [] else headers.getAll name := rfl

private theorem getAll_foldl (start : HeaderMap) (lines : List HeaderLine) :
    (lines.foldl (fun headers line => headers.append (headerName line.1) line.2) start).getAll name =
      start.getAll name ++ (lines.filter fun line => headerName line.1 = name).map Prod.snd := by
  induction lines generalizing start with
  | nil => simp
  | cons line lines ih =>
    rw [List.foldl_cons,ih]
    by_cases same : headerName line.1 = name
    · subst same
      simp
    · simp [same,Ne.symm same]

theorem getAll_parse (lines : List HeaderLine) :
    (parse lines).getAll name = (lines.filter fun line => headerName line.1 = name).map Prod.snd := by
  rw [parse,getAll_foldl]
  rfl

theorem getAll_parse_congr {skipped : HeaderName → Bool} {first second : List HeaderLine}
    (same : (first.filter fun line => !skipped (headerName line.1)) =
      second.filter fun line => !skipped (headerName line.1)) (kept : skipped name = false) :
    (parse first).getAll name = (parse second).getAll name := by
  have among : ∀ lines : List HeaderLine, (lines.filter fun line => headerName line.1 = name) =
      (lines.filter fun line => !skipped (headerName line.1)).filter fun line => headerName line.1 = name := by
    intro lines
    rw [List.filter_filter]
    refine List.filter_congr ?_
    intro line _
    by_cases chosen : headerName line.1 = name
    · simp [chosen,kept]
    · simp [chosen]
  rw [getAll_parse,getAll_parse,among first,among second,same]

end HeaderMap
end GrassWorker.Headers
