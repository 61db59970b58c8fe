import GrassWorker.Foundations.Utf8
import Mathlib.Data.List.Induction

/-! How the output of a build container is cut into the strings that its collector is sent. A string is its bytes. -/
namespace GrassWorker.SocketRuntime
open Utf8

def maxLineBytes : Nat := 16 * 1024

abbrev Line := List UInt8

structure Forwarding where
  remaining : Nat
  pending : List UInt8 := []
  sent : List Line := []
deriving DecidableEq

/-- `runtime_error`, with its context. -/
structure RuntimeError where
  context : String
  error : String
deriving DecidableEq

section Forward
-- Whether the consumer still takes a string, after those it was sent.
variable (accepts : List Line → Bool)

def send (line : Line) (forwarding : Forwarding) : Except RuntimeError Forwarding :=
  if accepts forwarding.sent then .ok { forwarding with sent := forwarding.sent ++ [line] }
  else .error ⟨"build logs","consumer closed"⟩

def takeByte (forwarding : Forwarding) (byte : UInt8) : Except RuntimeError Forwarding :=
  if byte = 0x0a then do
    let pending := if forwarding.pending.getLast? = some 0x0d then forwarding.pending.dropLast else forwarding.pending
    let after ← send accepts (fromUtf8Lossy pending) forwarding
    return { after with pending := [] }
  else
    let pending := forwarding.pending ++ [byte]
    if maxLineBytes / 3 ≤ pending.length then do
      let length := match fromUtf8 pending with
        | some ⟨validUpTo,none⟩ => validUpTo
        | _ => pending.length
      let after ← send accepts (fromUtf8Lossy (pending.take length)) forwarding
      return { after with pending := pending.drop length }
    else .ok { forwarding with pending }

def takeChunk (forwarding : Forwarding) : Except String (List UInt8) → Except RuntimeError Forwarding
  | .error error => .error ⟨"build log stream",error⟩
  | .ok chunk =>
    if forwarding.remaining < chunk.length then .error ⟨"build logs","byte budget exceeded"⟩
    else chunk.foldlM (takeByte accepts) { forwarding with remaining := forwarding.remaining - chunk.length }

def forwardLogs (stream : List (Except String (List UInt8))) (maxBytes : Nat) : Except RuntimeError (List Line) := do
  let last ← stream.foldlM (takeChunk accepts) { remaining := maxBytes }
  if last.pending = [] then return last.sent
  else
    let after ← send accepts (fromUtf8Lossy last.pending) last
    return after.sent

end Forward

/-! The lines of a text. -/

def withoutTerminators : List Char → List Char
  | [] => []
  | '\n' :: rest => withoutTerminators rest
  | '\r' :: '\n' :: rest => withoutTerminators rest
  | c :: rest => c :: withoutTerminators rest

/-- Each line is cut into pieces, of whole characters and as long as they fit. How much of a piece there is so far. -/
def fill (filled : Nat) (c : Char) : Nat :=
  if c = '\n' then 0
  else if filled + (String.utf8EncodeChar c).length < maxLineBytes / 3 then filled + (String.utf8EncodeChar c).length
  else if filled + (String.utf8EncodeChar c).length = maxLineBytes / 3 then 0
  else (String.utf8EncodeChar c).length

/-- A line terminator of which the carriage return is the last byte of a full piece. -/
def TerminatorSplit (text : List Char) : Prop :=
  ∃ before after, text = before ++ '\r' :: '\n' :: after ∧ before.foldl fill 0 + 1 = maxLineBytes / 3

/-- The same is sent however a text comes in, in short strings, and it is the text without its line terminators. -/
def LosesNothing (text : List Char) (maxBytes : Nat) : Prop :=
  ∃ sent, (∀ chunks : List (List UInt8), chunks.flatten = encode text →
      forwardLogs (fun _ => true) (chunks.map .ok) maxBytes = .ok sent) ∧
    (∀ line ∈ sent, line.length ≤ maxLineBytes) ∧ sent.flatten = encode (withoutTerminators text)

/-! The cutting of characters, which that of bytes comes to. -/

structure Cutting where
  held : List Char := []
  sent : List (List Char) := []

def cutLine (held : List Char) : List Char := if held.getLast? = some '\r' then held.dropLast else held

def takeCharacter (cutting : Cutting) (c : Char) : Cutting :=
  if c = '\n' then ⟨[],cutting.sent ++ [cutLine cutting.held]⟩
  else if (encode (cutting.held ++ [c])).length < maxLineBytes / 3 then ⟨cutting.held ++ [c],cutting.sent⟩
  else if (encode (cutting.held ++ [c])).length = maxLineBytes / 3 then ⟨[],cutting.sent ++ [cutting.held ++ [c]]⟩
  else ⟨[c],cutting.sent ++ [cutting.held]⟩

def Cutting.bytes (cutting : Cutting) (remaining : Nat) : Forwarding :=
  { remaining, pending := encode cutting.held, sent := cutting.sent.map encode }

section Bytes
variable {forwarding : Forwarding} {cutting : Cutting} {held : List Char} {c : Char}

abbrev takes : List Line → Bool := fun _ => true

theorem takeByte_push {byte : UInt8} (plain : byte ≠ 0x0a) (small : forwarding.pending.length + 1 < maxLineBytes / 3) :
    takeByte takes forwarding byte = .ok { forwarding with pending := forwarding.pending ++ [byte] } := by
  unfold takeByte
  rw [if_neg plain]
  simp only [List.length_append,List.length_singleton]
  rw [if_neg (by omega)]

theorem takeBytes_push {bytes : List UInt8} (plain : 0x0a ∉ bytes) (small : forwarding.pending.length + bytes.length < maxLineBytes / 3) :
    bytes.foldlM (takeByte takes) forwarding = .ok { forwarding with pending := forwarding.pending ++ bytes } := by
  induction bytes generalizing forwarding with
  | nil => simp [pure,Except.pure]
  | cons byte rest ih =>
    rw [List.mem_cons,not_or] at plain
    rw [List.length_cons] at small
    rw [List.foldlM_cons,takeByte_push (Ne.symm plain.1) (by omega)]
    have later := @ih { forwarding with pending := forwarding.pending ++ [byte] } plain.2
      (by simp only [List.length_append,List.length_singleton]; omega)
    simp only [bind,Except.bind,later,List.append_assoc,List.singleton_append]

theorem takeByte_flush {byte : UInt8} {line rest : List UInt8} (plain : byte ≠ 0x0a)
    (full : maxLineBytes / 3 ≤ forwarding.pending.length + 1) (cut : forwarding.pending ++ [byte] = line ++ rest)
    (read : fromUtf8 (line ++ rest) = if rest = [] then none else some ⟨line.length,none⟩) :
    takeByte takes forwarding byte =
      .ok { forwarding with pending := rest, sent := forwarding.sent ++ [fromUtf8Lossy line] } := by
  unfold takeByte
  rw [if_neg plain]
  simp only [cut]
  rw [if_pos (by rw [← cut]; simpa using full),read]
  by_cases whole : rest = []
  · subst whole
    rw [if_pos rfl]
    simp [send,takes,bind,Except.bind,pure,Except.pure]
  · rw [if_neg whole]
    simp [send,takes,bind,Except.bind,pure,Except.pure]

theorem eq_of_toNat {d : Char} (same : c.toNat = d.toNat) : c = d := Char.ext (UInt32.toNat_inj.mp same)

theorem newline_not_mem (plain : c ≠ '\n') : (0x0a : UInt8) ∉ String.utf8EncodeChar c := by
  intro member
  rcases of_mem_utf8EncodeChar member with ⟨same,_⟩ | ⟨large,_⟩
  · exact plain (eq_of_toNat same.symm)
  · exact absurd large (by decide)

theorem encode_cutLine (held : List Char) :
    (if (encode held).getLast? = some 0x0d then (encode held).dropLast else encode held) = encode (cutLine held) := by
  induction held using List.reverseRecOn with
  | nil => rfl
  | append_singleton before last _ =>
    have ends : (encode (before ++ [last])).getLast? = (String.utf8EncodeChar last).getLast? := by
      rw [encode_append,encode_cons,encode_nil,List.append_nil]
      exact List.getLast?_append_of_ne_nil _ (List.ne_nil_of_length_pos (length_utf8EncodeChar last).1)
    unfold cutLine
    rw [ends,List.getLast?_concat]
    by_cases carriage : last = '\r'
    · subst carriage
      have single : String.utf8EncodeChar '\r' = [0x0d] := by decide
      simp [single]
    · rw [if_neg,if_neg (by simpa using carriage)]
      intro byte
      rcases of_mem_utf8EncodeChar (List.mem_of_getLast? byte) with ⟨same,_⟩ | ⟨large,_⟩
      · exact carriage (eq_of_toNat same.symm)
      · exact absurd large (by decide)

theorem takeByte_newline (cutting : Cutting) (remaining : Nat) :
    takeByte takes (cutting.bytes remaining) 0x0a = .ok ((takeCharacter cutting '\n').bytes remaining) := by
  unfold takeByte takeCharacter Cutting.bytes
  rw [if_pos rfl,if_pos rfl]
  simp only [encode_cutLine]
  simp [send,takes,bind,Except.bind,pure,Except.pure,fromUtf8Lossy_encode]

theorem takeCharacter_bytes (cutting : Cutting) (c : Char) (remaining : Nat) (small : (encode cutting.held).length < maxLineBytes / 3) :
    (String.utf8EncodeChar c).foldlM (takeByte takes) (cutting.bytes remaining) = .ok ((takeCharacter cutting c).bytes remaining) := by
  by_cases newline : c = '\n'
  · subst newline
    have single : String.utf8EncodeChar '\n' = [0x0a] := by decide
    rw [single,List.foldlM_cons,takeByte_newline]
    rfl
  have plain := newline_not_mem newline
  have sizes := length_utf8EncodeChar c
  have longer : (encode (cutting.held ++ [c])).length = (encode cutting.held).length + (String.utf8EncodeChar c).length := by simp
  unfold takeCharacter
  rw [if_neg newline]
  by_cases fits : (encode (cutting.held ++ [c])).length < maxLineBytes / 3
  · rw [if_pos fits,takeBytes_push plain (by rw [longer] at fits; exact fits)]
    simp [Cutting.bytes]
  -- The byte that fills the piece up, those of the character before it and those after it.
  rw [if_neg fits]
  obtain ⟨seen,reaches⟩ : ∃ seen, (encode cutting.held).length + (seen + 1) = maxLineBytes / 3 :=
    ⟨maxLineBytes / 3 - (encode cutting.held).length - 1,by omega⟩
  have inside : seen < (String.utf8EncodeChar c).length := by omega
  have parts : String.utf8EncodeChar c = (String.utf8EncodeChar c).take seen ++ (String.utf8EncodeChar c)[seen] :: (String.utf8EncodeChar c).drop (seen + 1) := by
    rw [← List.drop_eq_getElem_cons inside,List.take_append_drop]
  have first := @takeBytes_push (cutting.bytes remaining) ((String.utf8EncodeChar c).take seen)
    (fun member => plain (List.mem_of_mem_take member)) (by simp only [Cutting.bytes,List.length_take]; omega)
  have joined : (encode cutting.held ++ (String.utf8EncodeChar c).take seen) ++ [(String.utf8EncodeChar c)[seen]] =
      encode cutting.held ++ (String.utf8EncodeChar c).take (seen + 1) := by
    rw [List.append_assoc,List.take_append_getElem inside]
  have other : (String.utf8EncodeChar c)[seen] ≠ 0x0a := fun same => plain (same ▸ List.getElem_mem inside)
  conv => lhs; rw [parts]
  rw [List.foldlM_append,first]
  simp only [bind,Except.bind]
  rw [List.foldlM_cons]
  by_cases whole : (encode (cutting.held ++ [c])).length = maxLineBytes / 3
  · rw [if_pos whole]
    have all : seen + 1 = (String.utf8EncodeChar c).length := by omega
    have cut : (encode cutting.held ++ (String.utf8EncodeChar c).take seen) ++ [(String.utf8EncodeChar c)[seen]] =
        encode (cutting.held ++ [c]) ++ [] := by
      rw [joined,all,List.take_length,List.append_nil]
      simp
    have flushed := @takeByte_flush { cutting.bytes remaining with
      pending := encode cutting.held ++ (String.utf8EncodeChar c).take seen } _ _ _ other
      (by simp only [List.length_append,List.length_take]; omega) cut (by rw [if_pos rfl,List.append_nil]; exact fromUtf8_encode _)
    have nothing : (String.utf8EncodeChar c).drop (seen + 1) = [] := List.drop_eq_nil_of_le (by omega)
    simp only [Cutting.bytes] at flushed ⊢
    rw [flushed,nothing,fromUtf8Lossy_encode]
    simp [pure,Except.pure,bind,Except.bind]
  · rw [if_neg whole]
    have part : seen + 1 < (String.utf8EncodeChar c).length := by omega
    have nonempty : (String.utf8EncodeChar c).take (seen + 1) ≠ [] := by
      refine List.ne_nil_of_length_pos ?_
      rw [List.length_take]
      omega
    have flushed := @takeByte_flush { cutting.bytes remaining with
      pending := encode cutting.held ++ (String.utf8EncodeChar c).take seen } _ _ _ other
      (by simp only [List.length_append,List.length_take]; omega) joined
      (by rw [if_neg nonempty]; exact fromUtf8_cut _ (Nat.succ_pos _) part)
    have rest := @takeBytes_push { cutting.bytes remaining with
      pending := (String.utf8EncodeChar c).take (seen + 1), sent := cutting.sent.map encode ++ [encode cutting.held] }
      ((String.utf8EncodeChar c).drop (seen + 1)) (fun member => plain (List.mem_of_mem_drop member))
      (by simp only [List.length_take,List.length_drop]; unfold maxLineBytes; omega)
    simp only [Cutting.bytes] at flushed rest ⊢
    rw [flushed,fromUtf8Lossy_encode]
    simp only [bind,Except.bind]
    rw [rest,List.take_append_drop]
    simp

def Cutting.Small (cutting : Cutting) : Prop := (encode cutting.held).length < maxLineBytes / 3

theorem takeCharacter_small (cutting : Cutting) (c : Char) : (takeCharacter cutting c).Small := by
  have sizes := length_utf8EncodeChar c
  have room : 0 < maxLineBytes / 3 := by decide
  unfold takeCharacter Cutting.Small
  split
  · exact room
  · split
    · assumption
    · split
      · exact room
      · rw [encode_cons,encode_nil,List.append_nil]
        unfold maxLineBytes
        omega

theorem takeText_bytes (text : List Char) (remaining : Nat) (small : cutting.Small) :
    (encode text).foldlM (takeByte takes) (cutting.bytes remaining) = .ok ((text.foldl takeCharacter cutting).bytes remaining) := by
  induction text generalizing cutting with
  | nil => rfl
  | cons c rest ih =>
    rw [encode_cons,List.foldlM_append,takeCharacter_bytes cutting c remaining small]
    exact ih (takeCharacter_small cutting c)

/-! Chunks do not matter, within the budget. -/

theorem takeByte_remaining (byte : UInt8) (remaining : Nat) :
    takeByte takes { forwarding with remaining } byte =
      (takeByte takes forwarding byte).map fun after => { after with remaining } := by
  unfold takeByte
  split
  · simp [send,takes,bind,Except.bind,pure,Except.pure,Except.map]
  · simp only
    split
    · simp [send,takes,bind,Except.bind,pure,Except.pure,Except.map]
    · rfl

theorem takeBytes_remaining (bytes : List UInt8) (remaining : Nat) :
    bytes.foldlM (takeByte takes) { forwarding with remaining } =
      (bytes.foldlM (takeByte takes) forwarding).map fun after => { after with remaining } := by
  induction bytes generalizing forwarding with
  | nil => rfl
  | cons byte rest ih =>
    rw [List.foldlM_cons,List.foldlM_cons,takeByte_remaining]
    cases takeByte takes forwarding byte with
    | error error => rfl
    | ok after => exact ih

theorem takeChunks_flatten (chunks : List (List UInt8)) (budget : chunks.flatten.length ≤ forwarding.remaining) :
    (chunks.map .ok).foldlM (takeChunk takes) forwarding =
      (chunks.flatten.foldlM (takeByte takes) forwarding).map fun after =>
        { after with remaining := forwarding.remaining - chunks.flatten.length } := by
  induction chunks generalizing forwarding with
  | nil => rfl
  | cons chunk rest ih =>
    rw [List.flatten_cons,List.length_append] at budget
    rw [List.map_cons,List.foldlM_cons,List.flatten_cons,List.foldlM_append]
    simp only [takeChunk]
    rw [if_neg (by omega),takeBytes_remaining]
    cases chunk.foldlM (takeByte takes) forwarding with
    | error error => rfl
    | ok after =>
      have later := @ih { after with remaining := forwarding.remaining - chunk.length } (by simp only; omega)
      simp only [bind,Except.bind,Except.map] at later ⊢
      rw [later,takeBytes_remaining]
      cases rest.flatten.foldlM (takeByte takes) after with
      | error error => rfl
      | ok last => simp only [Except.map,List.length_append,Nat.sub_sub]

def Cutting.lines (cutting : Cutting) : List (List Char) := if cutting.held = [] then cutting.sent else cutting.sent ++ [cutting.held]

theorem forwardLogs_text {text : List Char} {chunks : List (List UInt8)} {maxBytes : Nat} (whole : chunks.flatten = encode text)
    (budget : (encode text).length ≤ maxBytes) :
    forwardLogs takes (chunks.map .ok) maxBytes = .ok ((text.foldl takeCharacter {}).lines.map encode) := by
  have start : ({} : Cutting).Small := show 0 < maxLineBytes / 3 by decide
  unfold forwardLogs
  rw [takeChunks_flatten chunks (by rw [whole]; exact budget),whole]
  have read := takeText_bytes text maxBytes start
  have begin' : ({} : Cutting).bytes maxBytes = { remaining := maxBytes } := rfl
  rw [← begin',read]
  simp only [bind,Except.bind,Except.map,Cutting.lines,Cutting.bytes]
  by_cases done : (text.foldl takeCharacter {}).held = []
  · rw [done,if_pos rfl,encode_nil,if_pos rfl]
    rfl
  · have held : encode (text.foldl takeCharacter {}).held ≠ [] := by
      cases same : (text.foldl takeCharacter {}).held with
      | nil => exact absurd same done
      | cons c rest =>
        rw [encode_cons]
        exact List.append_ne_nil_of_left_ne_nil (List.ne_nil_of_length_pos (length_utf8EncodeChar c).1) _
    rw [if_neg done,if_neg held,fromUtf8Lossy_encode]
    simp [send,takes,pure,Except.pure]

end Bytes

/-! The text of the lines. -/

def splits (filled : Nat) : List Char → Nat
  | [] => 0
  | c :: rest => (if c = '\r' ∧ rest.head? = some '\n' ∧ filled + 1 = maxLineBytes / 3 then 1 else 0) + splits (fill filled c) rest

section Texts
variable {held rest text : List Char} {c : Char} {filled : Nat} {cutting : Cutting}

theorem splits_eq_zero_iff : splits filled text = 0 ↔
    ¬∃ before after, text = before ++ '\r' :: '\n' :: after ∧ before.foldl fill filled + 1 = maxLineBytes / 3 := by
  induction text generalizing filled with
  | nil => simp [splits]
  | cons c rest ih =>
    unfold splits
    rw [Nat.add_eq_zero_iff,ih]
    constructor
    · rintro ⟨here,later⟩ ⟨before,after,same,full⟩
      cases before with
      | nil =>
        obtain ⟨rfl,rfl⟩ := List.cons.inj same
        rw [if_pos ⟨rfl,rfl,full⟩] at here
        cases here
      | cons first before =>
        obtain ⟨rfl,rfl⟩ := List.cons.inj same
        exact later ⟨before,after,rfl,full⟩
    · intro absent
      constructor
      · rw [if_neg]
        rintro ⟨rfl,newline,full⟩
        obtain ⟨after,rfl⟩ : ∃ after, rest = '\n' :: after := List.head?_eq_some_iff.mp newline
        exact absent ⟨[],after,rfl,full⟩
      · rintro ⟨before,after,rfl,full⟩
        exact absent ⟨c :: before,after,rfl,full⟩

theorem withoutTerminators_cons (plain : c ≠ '\n') (kept : ¬(c = '\r' ∧ rest.head? = some '\n')) :
    withoutTerminators (c :: rest) = c :: withoutTerminators rest := by
  cases rest with
  | nil =>
    unfold withoutTerminators
    split <;> simp_all [withoutTerminators]
  | cons next rest =>
    rw [withoutTerminators]
    · exact plain
    · rintro after rfl same
      obtain ⟨rfl,_⟩ := List.cons.inj same
      exact kept ⟨rfl,rfl⟩

theorem withoutTerminators_append (plain : '\n' ∉ held) (kept : ¬(held.getLast? = some '\r' ∧ rest.head? = some '\n')) :
    withoutTerminators (held ++ rest) = held ++ withoutTerminators rest := by
  induction held with
  | nil => rfl
  | cons first held ih =>
    rw [List.mem_cons,not_or] at plain
    rw [List.cons_append,withoutTerminators_cons (Ne.symm plain.1)]
    · rw [ih plain.2]
      · rfl
      · rintro ⟨ends,newline⟩
        refine kept ⟨?_,newline⟩
        rw [List.getLast?_cons,ends]
        rfl
    · rintro ⟨rfl,newline⟩
      cases held with
      | nil => exact kept ⟨rfl,newline⟩
      | cons second held =>
        obtain rfl : second = '\n' := Option.some.inj newline
        exact plain.2 List.mem_cons_self

theorem withoutTerminators_line (plain : '\n' ∉ held) :
    withoutTerminators (held ++ '\n' :: rest) = cutLine held ++ withoutTerminators rest := by
  unfold cutLine
  by_cases carriage : held.getLast? = some '\r'
  · rw [if_pos carriage]
    obtain ⟨before,rfl⟩ := List.getLast?_eq_some_iff.mp carriage
    rw [List.dropLast_concat,List.append_assoc,withoutTerminators_append]
    · rfl
    · exact fun member => plain (List.mem_append_left _ member)
    · rintro ⟨_,newline⟩
      cases newline
  · rw [if_neg carriage,withoutTerminators_append plain fun both => carriage both.1]
    rfl

theorem encode_snoc_length : (encode (held ++ [c])).length = (encode held).length + (String.utf8EncodeChar c).length := by simp

/-- What is held, and a text after it, are sent: all of it but the line terminators, and the carriage returns of those that are split. -/
structure Sends (cutting : Cutting) (text : List Char) (sent : List Char) : Prop where
  size : (encode sent).length = (encode (cutting.sent.flatten ++ withoutTerminators (cutting.held ++ text))).length +
    splits (encode cutting.held).length text
  same : splits (encode cutting.held).length text = 0 → sent = cutting.sent.flatten ++ withoutTerminators (cutting.held ++ text)

theorem Sends.step {sent : List Char} (later : Sends (takeCharacter cutting c) rest sent)
    (filled : fill (encode cutting.held).length c = (encode (takeCharacter cutting c).held).length)
    (whole : ¬(c = '\r' ∧ rest.head? = some '\n' ∧ (encode cutting.held).length + 1 = maxLineBytes / 3))
    (text : (takeCharacter cutting c).sent.flatten ++ withoutTerminators ((takeCharacter cutting c).held ++ rest) =
      cutting.sent.flatten ++ withoutTerminators (cutting.held ++ c :: rest)) : Sends cutting (c :: rest) sent := by
  have count : splits (encode cutting.held).length (c :: rest) = splits (encode (takeCharacter cutting c).held).length rest := by
    rw [splits,if_neg whole,Nat.zero_add,filled]
  constructor
  · rw [count,← text]
    exact later.size
  · intro none
    rw [← text]
    exact later.same (count ▸ none)

theorem fill_takeCharacter (cutting : Cutting) (c : Char) :
    fill (encode cutting.held).length c = (encode (takeCharacter cutting c).held).length := by
  unfold fill takeCharacter
  rw [encode_snoc_length]
  split
  · rfl
  · split
    · exact encode_snoc_length.symm
    · split
      · rfl
      · simp

theorem lines_flatten (cutting : Cutting) : cutting.lines.flatten = cutting.sent.flatten ++ cutting.held := by
  unfold Cutting.lines
  split
  · rename_i done
    rw [done,List.append_nil]
  · simp

theorem sends_text (text : List Char) (small : cutting.Small) (plain : '\n' ∉ cutting.held) :
    Sends cutting text (text.foldl takeCharacter cutting).lines.flatten := by
  induction text generalizing cutting with
  | nil =>
    have all : withoutTerminators (cutting.held ++ []) = cutting.held := by
      rw [withoutTerminators_append plain (by simp)]
      exact List.append_nil _
    rw [List.foldl_nil]
    exact ⟨by rw [lines_flatten,all]; rfl,fun _ => by rw [lines_flatten,all]⟩
  | cons c rest ih =>
    have filled := fill_takeCharacter cutting c
    have next := takeCharacter_small cutting c
    have single : String.utf8EncodeChar '\r' = [0x0d] := by decide
    rw [List.foldl_cons]
    by_cases newline : c = '\n'
    · subst newline
      have cut : takeCharacter cutting '\n' = ⟨[],cutting.sent ++ [cutLine cutting.held]⟩ := if_pos rfl
      refine (ih next (by rw [cut]; exact List.not_mem_nil)).step filled (fun split => absurd split.1 (by decide)) ?_
      rw [cut,withoutTerminators_line plain]
      simp
    by_cases fits : (encode (cutting.held ++ [c])).length < maxLineBytes / 3
    · have cut : takeCharacter cutting c = ⟨cutting.held ++ [c],cutting.sent⟩ := by
        unfold takeCharacter
        rw [if_neg newline,if_pos fits]
      refine (ih next ?_).step filled ?_ ?_
      · rw [cut]
        simp [plain,Ne.symm newline]
      · rintro ⟨rfl,_,full⟩
        rw [encode_snoc_length,single] at fits
        exact absurd full (Nat.ne_of_lt fits)
      · rw [cut,List.append_assoc]
        rfl
    by_cases whole : (encode (cutting.held ++ [c])).length = maxLineBytes / 3
    · have cut : takeCharacter cutting c = ⟨[],cutting.sent ++ [cutting.held ++ [c]]⟩ := by
        unfold takeCharacter
        rw [if_neg newline,if_neg fits,if_pos whole]
      have plain' : '\n' ∉ cutting.held ++ [c] := by simp [plain,Ne.symm newline]
      by_cases terminator : c = '\r' ∧ rest.head? = some '\n'
      · -- The carriage return has been sent when its line feed comes.
        obtain ⟨rfl,feed⟩ := terminator
        obtain ⟨after,rfl⟩ : ∃ after, rest = '\n' :: after := List.head?_eq_some_iff.mp feed
        have full : (encode cutting.held).length + 1 = maxLineBytes / 3 := by
          rw [encode_snoc_length,single] at whole
          exact whole
        have later := ih next (by rw [cut]; exact List.not_mem_nil)
        have count : splits (encode cutting.held).length ('\r' :: '\n' :: after) = 1 + splits 0 ('\n' :: after) := by
          rw [splits,if_pos ⟨rfl,rfl,full⟩,filled,cut]
          rfl
        have text : withoutTerminators (cutting.held ++ '\r' :: '\n' :: after) = cutting.held ++ withoutTerminators ('\n' :: after) := by
          rw [withoutTerminators_append plain fun both => absurd both.2 (by simp)]
          rfl
        constructor
        · rw [later.size,cut,count,text]
          simp only [encode_nil,List.length_nil,List.nil_append,List.flatten_append,List.flatten_singleton,encode_append,
            List.length_append,encode_cons,single,List.length_singleton]
          omega
        · intro none
          rw [count] at none
          omega
      · refine (ih next (by rw [cut]; exact List.not_mem_nil)).step filled (fun split => terminator ⟨split.1,split.2.1⟩) ?_
        have both : withoutTerminators ((cutting.held ++ [c]) ++ rest) = (cutting.held ++ [c]) ++ withoutTerminators rest :=
          withoutTerminators_append plain' (by simpa using terminator)
        rw [cut]
        simp only [List.append_assoc,List.singleton_append] at both
        rw [both]
        simp
    · have cut : takeCharacter cutting c = ⟨[c],cutting.sent ++ [cutting.held]⟩ := by
        unfold takeCharacter
        rw [if_neg newline,if_neg fits,if_neg whole]
      refine (ih next ?_).step filled ?_ ?_
      · rw [cut]
        simp [Ne.symm newline]
      · rintro ⟨rfl,_,full⟩
        rw [encode_snoc_length,single] at whole
        exact whole full
      · have both : withoutTerminators (cutting.held ++ c :: rest) = cutting.held ++ withoutTerminators (c :: rest) :=
          withoutTerminators_append plain fun split => newline (Option.some.inj split.2)
        rw [cut,both]
        simp

theorem length_cutLine (held : List Char) : (encode (cutLine held)).length ≤ (encode held).length := by
  rw [← encode_cutLine]
  split
  · rw [List.length_dropLast]
    exact Nat.sub_le _ _
  · exact Nat.le_refl _

theorem takeCharacter_bounded (small : cutting.Small) (bounded : ∀ line ∈ cutting.sent, (encode line).length ≤ maxLineBytes / 3) :
    ∀ line ∈ (takeCharacter cutting c).sent, (encode line).length ≤ maxLineBytes / 3 := by
  have snoc {last : List Char} (short : (encode last).length ≤ maxLineBytes / 3) :
      ∀ line ∈ cutting.sent ++ [last], (encode line).length ≤ maxLineBytes / 3 := by
    intro line member
    rcases List.mem_append.mp member with before | here
    · exact bounded line before
    · rw [List.mem_singleton.mp here]
      exact short
  unfold Cutting.Small at small
  unfold takeCharacter
  split
  · exact snoc (Nat.le_trans (length_cutLine _) (Nat.le_of_lt small))
  · split
    · exact bounded
    · split
      · rename_i whole
        exact snoc (Nat.le_of_eq whole)
      · exact snoc (Nat.le_of_lt small)

theorem lines_bounded (text : List Char) (small : cutting.Small) (bounded : ∀ line ∈ cutting.sent, (encode line).length ≤ maxLineBytes / 3) :
    ∀ line ∈ (text.foldl takeCharacter cutting).lines, (encode line).length ≤ maxLineBytes / 3 := by
  induction text generalizing cutting with
  | nil =>
    intro line member
    rw [List.foldl_nil] at member
    unfold Cutting.lines at member
    by_cases done : cutting.held = []
    · rw [if_pos done] at member
      exact bounded line member
    · rw [if_neg done] at member
      rcases List.mem_append.mp member with before | last
      · exact bounded line before
      · rw [List.mem_singleton.mp last]
        exact Nat.le_of_lt small
  | cons c rest ih => exact ih (takeCharacter_small cutting c) (takeCharacter_bounded small bounded)

theorem flatten_encode (lines : List (List Char)) : (lines.map encode).flatten = encode lines.flatten := by
  induction lines with
  | nil => rfl
  | cons line rest ih => rw [List.map_cons,List.flatten_cons,ih,List.flatten_cons,encode_append]

theorem losesNothing_iff {maxBytes : Nat} (budget : (encode text).length ≤ maxBytes) : LosesNothing text maxBytes ↔ splits 0 text = 0 := by
  have start : ({} : Cutting).Small := show 0 < maxLineBytes / 3 by decide
  have sends := sends_text text start List.not_mem_nil
  have empty : (encode ({} : Cutting).held).length = 0 := rfl
  constructor
  · rintro ⟨sent,always,_,text'⟩
    have once := always [encode text] (List.flatten_singleton)
    rw [forwardLogs_text (List.flatten_singleton) budget] at once
    have same := Except.ok.inj once
    rw [← same,flatten_encode] at text'
    have size := sends.size
    rw [text',empty] at size
    simp only [List.flatten_nil,List.nil_append] at size
    omega
  · intro none
    refine ⟨(text.foldl takeCharacter {}).lines.map encode,fun chunks whole => forwardLogs_text whole budget,?_,?_⟩
    · intro line member
      obtain ⟨characters,held,rfl⟩ := List.mem_map.mp member
      have short := lines_bounded text start (fun _ impossible => absurd impossible List.not_mem_nil) characters held
      exact Nat.le_trans short (Nat.div_le_self _ _)
    · rw [flatten_encode,sends.same (by rw [empty]; exact none)]
      rfl

end Texts

/-- For every text within the budget: nothing is lost, however it comes in, if and only if no line terminator is split. -/
theorem forward_logs_loses_nothing_iff (text : List Char) (maxBytes : Nat) (budget : (encode text).length ≤ maxBytes) :
    LosesNothing text maxBytes ↔ ¬TerminatorSplit text := by
  rw [losesNothing_iff budget]
  exact splits_eq_zero_iff

theorem short_log_loses_nothing : (encode "a\r\nb".toList).length ≤ 4 ∧ LosesNothing "a\r\nb".toList 4 :=
  ⟨by decide,(forward_logs_loses_nothing_iff "a\r\nb".toList 4 (by decide)).mpr (splits_eq_zero_iff.mp (by decide))⟩

theorem fill_replicate (count filled : Nat) (room : filled + count < maxLineBytes / 3) :
    (List.replicate count 'a').foldl fill filled = filled + count := by
  have single : String.utf8EncodeChar 'a' = [0x61] := by decide
  induction count generalizing filled with
  | zero => rfl
  | succ count ih =>
    have one : fill filled 'a' = filled + 1 := by
      unfold fill
      rw [if_neg (by decide),single,List.length_singleton,if_pos (by omega)]
    rw [List.replicate_succ,List.foldl_cons,one,ih (filled + 1) (by omega)]
    omega

theorem length_encode_replicate (count : Nat) : (encode (List.replicate count 'a')).length = count := by
  have single : String.utf8EncodeChar 'a' = [0x61] := by decide
  induction count with
  | zero => rfl
  | succ count ih =>
    rw [List.replicate_succ,encode_cons,List.length_append,single,ih,List.length_singleton]
    omega

/-- A line of 5460 letters: its carriage return fills the piece up and is sent. -/
theorem carriage_return_is_sent :
    (encode (List.replicate 5460 'a' ++ ['\r','\n'])).length ≤ 5462 ∧ ¬LosesNothing (List.replicate 5460 'a' ++ ['\r','\n']) 5462 := by
  have budget : (encode (List.replicate 5460 'a' ++ ['\r','\n'])).length ≤ 5462 := by
    have ends : (encode ['\r','\n']).length = 2 := by decide
    have whole : (encode (List.replicate 5460 'a' ++ ['\r','\n'])).length = 5460 + 2 := by
      rw [encode_append,List.length_append,length_encode_replicate,ends]
    exact Nat.le_of_eq whole
  refine ⟨budget,fun whole => ?_⟩
  have filled := fill_replicate 5460 0 (by decide)
  have full : 0 + 5460 + 1 = maxLineBytes / 3 := by decide
  exact splits_eq_zero_iff.mp ((losesNothing_iff budget).mp whole)
    ⟨List.replicate 5460 'a',[],rfl,(congrArg (· + 1) filled).trans full⟩

end GrassWorker.SocketRuntime
