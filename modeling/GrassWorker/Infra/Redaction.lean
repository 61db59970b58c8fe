import GrassWorker.Validator
import Mathlib.Data.List.Infix

/-! The redaction of audit events: JSON is redacted by its keys and its strings, free text by the words it is made of.
What a URL is made of is a parameter. -/
namespace GrassWorker.Redaction
open Validator

abbrev Text := List Char

def redacted : Text := "[REDACTED]".toList

/-- A parsed URL, and what `query_pairs` gives of it. -/
structure Url where
  scheme : Text
  username : Text
  password : Option Text
  queryPairs : List (Text × Text) := []
deriving DecidableEq

/-- The URL library. A text that is parsed without a base starts with its scheme. -/
structure UrlLibrary where
  parse : Text → Option Url
  absolute : ∀ rest, parse ('[' :: rest) = none

inductive Json
  | null
  | bool (value : Bool)
  | number (value : Text)
  | string (value : Text)
  | array (values : List Json)
  | object (entries : List (Text × Json))

def toAsciiUppercase (c : Char) : Char := if 97 ≤ c.toNat ∧ c.toNat ≤ 122 then Char.ofNat (c.toNat - 32) else c

def contains (text pattern : Text) : Bool := decide (pattern <:+: text)

def sensitiveKey (key : Text) : Bool :=
  let normalized := (key.map toAsciiLowercase).map fun c => if c = '-' then '_' else c
  (["authorization","cookie","set_cookie","password","password_hash","passphrase","secret","secret_key","secret_ref","api_key",
    "access_key","client_secret","signing_key","token","token_hash","access_token","refresh_token","csrf_token","session_id",
    "private_key","master_key","credential","credentials","git_credentials","database_url","redis_url",
    "connection_string"].map String.toList).contains normalized ||
  (["_password","_passphrase","_secret","_api_key","_access_key","_signing_key","_token","_cookie","_private_key","_credential",
    "_credentials","_connection_string"].map String.toList).any fun ending => ending.isSuffixOf normalized

local instance lawfulText : LawfulBEq (List Char) := inferInstance

section Library
variable (library : UrlLibrary)

/-- The last part of `sensitive_string`. -/
def credentialUrl (value : Text) : Bool :=
  match library.parse value with
  | none => false
  | some url =>
    url.queryPairs.any (fun pair => sensitiveKey pair.1) ||
      if url.scheme = "http".toList ∨ url.scheme = "https".toList then url.username ≠ [] || url.password.isSome
      else if url.scheme ∈ ["postgres","postgresql","redis","rediss","mysql"].map String.toList then true
      else url.password.isSome

def isBearer (value : Text) : Bool := (value.take 7).map toAsciiLowercase = "bearer ".toList

def isPrivateKey (value : Text) : Bool :=
  contains (value.map toAsciiUppercase) "-----BEGIN ".toList && contains (value.map toAsciiUppercase) "PRIVATE KEY-----".toList

def sensitiveString (value : Text) : Bool := isBearer value || isPrivateKey value || credentialUrl library value

mutual

def redactJson : Json → Json
  | .object entries => .object (redactEntries entries)
  | .array values => .array (redactAll values)
  | .string value => if sensitiveString library value then .string redacted else .string value
  | .null => .null
  | .bool value => .bool value
  | .number value => .number value

def redactAll : List Json → List Json
  | [] => []
  | value :: values => redactJson value :: redactAll values

def redactEntries : List (Text × Json) → List (Text × Json)
  | [] => []
  | (key,value) :: entries =>
    (key,if sensitiveKey key then .string redacted else redactJson value) :: redactEntries entries

end

def markers : List Text :=
  ["bearer ","password=","password:","secret=","token=","cookie:","-----begin "].map String.toList

/-- `embedded_secret`. -/
def marked (value : Text) : Bool := markers.any (contains (value.map toAsciiLowercase))

def isPunctuation (c : Char) : Bool := ['"',Char.ofNat 0x27,'(',')',',',';'].contains c

def words (value : Text) : List Text :=
  ((value.splitOnP isWhitespace).filter (· ≠ [])).map fun word => (word.dropWhile isPunctuation).rdropWhile isPunctuation

def redactText (value : Text) : Text :=
  if marked value || (words value).any (sensitiveString library) then redacted else value

end Library

/-! What redacted JSON is. -/

section Shape
variable (library : UrlLibrary)

mutual

def SameShape : Json → Json → Prop
  | .null,.null => True
  | .bool value,.bool other => value = other
  | .number value,.number other => value = other
  | .string value,.string other => other = value ∨ other = redacted
  | .array values,.array others => SameShapes values others
  | .object entries,.object others => SameEntries entries others
  | _,_ => False

def SameShapes : List Json → List Json → Prop
  | [],[] => True
  | value :: values,other :: others => SameShape value other ∧ SameShapes values others
  | _,_ => False

def SameEntries : List (Text × Json) → List (Text × Json) → Prop
  | [],[] => True
  | (key,value) :: entries,(key',other) :: others =>
    key = key' ∧ (sensitiveKey key ∨ SameShape value other) ∧ SameEntries entries others
  | _,_ => False

end

mutual

def Clean : Json → Prop
  | .string value => sensitiveString library value = false
  | .array values => CleanAll values
  | .object entries => CleanEntries entries
  | .null => True
  | .bool _ => True
  | .number _ => True

def CleanAll : List Json → Prop
  | [] => True
  | value :: values => Clean value ∧ CleanAll values

def CleanEntries : List (Text × Json) → Prop
  | [] => True
  | (key,value) :: entries => (sensitiveKey key → value = .string redacted) ∧ Clean value ∧ CleanEntries entries

end

theorem sensitiveString_redacted : sensitiveString library redacted = false := by
  have unparsed : credentialUrl library redacted = false := by
    have none' : library.parse redacted = none := library.absolute _
    rw [credentialUrl,none']
  rw [sensitiveString,unparsed]
  decide

mutual

theorem sameShape_redactJson : ∀ value, SameShape value (redactJson library value)
  | .null => by rw [redactJson,SameShape]; trivial
  | .bool value => by rw [redactJson,SameShape]
  | .number value => by rw [redactJson,SameShape]
  | .string value => by
    rw [redactJson]
    split
    · exact .inr rfl
    · exact .inl rfl
  | .array values => by
    rw [redactJson,SameShape]
    exact sameShapes_redactAll values
  | .object entries => by
    rw [redactJson,SameShape]
    exact sameEntries_redactEntries entries

theorem sameShapes_redactAll : ∀ values, SameShapes values (redactAll library values)
  | [] => by rw [redactAll,SameShapes]; trivial
  | value :: values => by
    rw [redactAll,SameShapes]
    exact ⟨sameShape_redactJson value,sameShapes_redactAll values⟩

theorem sameEntries_redactEntries : ∀ entries, SameEntries entries (redactEntries library entries)
  | [] => by rw [redactEntries,SameEntries]; trivial
  | (key,value) :: entries => by
    rw [redactEntries,SameEntries]
    refine ⟨rfl,?_,sameEntries_redactEntries entries⟩
    split
    · exact .inl ‹_›
    · exact .inr (sameShape_redactJson value)

end

mutual

theorem clean_redactJson : ∀ value, Clean library (redactJson library value)
  | .null => by rw [redactJson,Clean]; trivial
  | .bool value => by rw [redactJson,Clean]; trivial
  | .number value => by rw [redactJson,Clean]; trivial
  | .string value => by
    rw [redactJson]
    split
    · exact sensitiveString_redacted library
    · rename_i harmless
      exact Bool.eq_false_iff.mpr harmless
  | .array values => by
    rw [redactJson,Clean]
    exact clean_redactAll values
  | .object entries => by
    rw [redactJson,Clean]
    exact clean_redactEntries entries

theorem clean_redactAll : ∀ values, CleanAll library (redactAll library values)
  | [] => by rw [redactAll,CleanAll]; trivial
  | value :: values => by
    rw [redactAll,CleanAll]
    exact ⟨clean_redactJson value,clean_redactAll values⟩

theorem clean_redactEntries : ∀ entries, CleanEntries library (redactEntries library entries)
  | [] => by rw [redactEntries,CleanEntries]; trivial
  | (key,value) :: entries => by
    rw [redactEntries,CleanEntries]
    by_cases sensitive : sensitiveKey key
    · rw [if_pos sensitive]
      exact ⟨fun _ => rfl,sensitiveString_redacted library,clean_redactEntries entries⟩
    · rw [if_neg sensitive]
      exact ⟨fun holds => absurd holds sensitive,clean_redactJson value,clean_redactEntries entries⟩

end

mutual

theorem redactJson_redactJson : ∀ value, redactJson library (redactJson library value) = redactJson library value
  | .null => by rw [redactJson,redactJson]
  | .bool value => by rw [redactJson,redactJson]
  | .number value => by rw [redactJson,redactJson]
  | .string value => by
    rw [redactJson]
    split
    · rw [redactJson,sensitiveString_redacted]
      rfl
    · rename_i harmless
      rw [redactJson,if_neg harmless]
  | .array values => by rw [redactJson,redactJson,redactAll_redactAll values]
  | .object entries => by rw [redactJson,redactJson,redactEntries_redactEntries entries]

theorem redactAll_redactAll : ∀ values, redactAll library (redactAll library values) = redactAll library values
  | [] => by rw [redactAll,redactAll]
  | value :: values => by rw [redactAll,redactAll,redactJson_redactJson value,redactAll_redactAll values]

theorem redactEntries_redactEntries : ∀ entries,
    redactEntries library (redactEntries library entries) = redactEntries library entries
  | [] => by rw [redactEntries,redactEntries]
  | (key,value) :: entries => by
    rw [redactEntries,redactEntries,redactEntries_redactEntries entries]
    by_cases sensitive : sensitiveKey key
    · rw [if_pos sensitive,if_pos sensitive]
    · rw [if_neg sensitive,if_neg sensitive,redactJson_redactJson value]

end

/-- What is redacted has the shape it had, shows nothing sensitive, and is left as it is by another redaction. -/
theorem redaction_settled (value : Json) : SameShape value (redactJson library value) ∧ Clean library (redactJson library value) ∧
    redactJson library (redactJson library value) = redactJson library value :=
  ⟨sameShape_redactJson library value,clean_redactJson library value,redactJson_redactJson library value⟩

end Shape

/-! Free text. -/

theorem toAsciiLowercase_toAsciiUppercase (c : Char) : toAsciiLowercase (toAsciiUppercase c) = toAsciiLowercase c := by
  by_cases small : 97 ≤ c.toNat ∧ c.toNat ≤ 122
  · have letters : ∀ n < 123, 97 ≤ n → toAsciiLowercase (toAsciiUppercase (Char.ofNat n)) = toAsciiLowercase (Char.ofNat n) := by
      decide
    have letter := letters c.toNat (by omega) small.1
    rwa [Char.ofNat_toNat] at letter
  · rw [toAsciiUppercase,if_neg small]

section Detectors
variable {value : Text}

theorem marked_of_marker (marker : Text) (listed : marker ∈ markers) (within : marker <:+: value.map toAsciiLowercase) :
    marked value :=
  List.any_eq_true.mpr ⟨marker,listed,decide_eq_true within⟩

theorem marked_of_isBearer (bearer : isBearer value) : marked value := by
  apply marked_of_marker "bearer ".toList (by decide)
  have starts : (value.take 7).map toAsciiLowercase = "bearer ".toList := of_decide_eq_true bearer
  rw [← starts]
  exact ((List.take_prefix 7 value).map _).isInfix

theorem marked_of_isPrivateKey (key : isPrivateKey value) : marked value := by
  apply marked_of_marker "-----begin ".toList (by decide)
  have within : "-----BEGIN ".toList <:+: value.map toAsciiUppercase := of_decide_eq_true (Bool.and_eq_true_iff.mp key).1
  have lowered := within.map toAsciiLowercase
  have same : (value.map toAsciiUppercase).map toAsciiLowercase = value.map toAsciiLowercase := by
    rw [List.map_map]
    apply List.map_congr_left
    exact fun c _ => toAsciiLowercase_toAsciiUppercase c
  have marker : "-----BEGIN ".toList.map toAsciiLowercase = "-----begin ".toList := by decide
  rwa [same,marker] at lowered

end Detectors

def authorityUrl (scheme rest : Text) : Option Url :=
  match rest with
  | '/' :: '/' :: rest =>
    let authority := rest.takeWhile fun c => !(['/','?','#'].contains c)
    let query := ((rest.dropWhile (· ≠ '?')).drop 1).takeWhile (· ≠ '#')
    let address := authority.rtakeWhile (· ≠ '@')
    let userinfo := (authority.rdropWhile (· ≠ '@')).dropLast
    let host := address.takeWhile (· ≠ ':')
    let port := (address.dropWhile (· ≠ ':')).drop 1
    if host = [] ∨ host.any isWhitespace ∨ ¬port.all Char.isDigit then none
    else some {
      scheme
      username := userinfo.takeWhile (· ≠ ':')
      password := if ':' ∈ userinfo then some ((userinfo.dropWhile (· ≠ ':')).drop 1) else none
      queryPairs := (query.splitOn '&').map fun pair => (pair.takeWhile (· ≠ '='),(pair.dropWhile (· ≠ '=')).drop 1) }
  | _ => none

def plainUrls : UrlLibrary where
  parse value := match value with
    | [] => none
    | first :: _ =>
      if first.isAlpha then
        authorityUrl ((value.takeWhile (· ≠ ':')).map toAsciiLowercase) ((value.dropWhile (· ≠ ':')).drop 1)
      else none
  absolute _ := if_neg (by decide)

end GrassWorker.Redaction
