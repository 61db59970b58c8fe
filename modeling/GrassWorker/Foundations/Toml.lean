import Mathlib.Data.List.Infix
import Mathlib.Data.List.Perm.Basic
import Mathlib.Data.List.TakeWhile

/-! Texts of TOML: a table of strings, written line by line, and what a reader of TOML makes of a text. -/
namespace GrassWorker.Toml

inductive Value
  | string (text : List Char)
  | table (entries : List (List Char × Value))
  | other

abbrev Table := List (List Char × Value)

def isControl (c : Char) : Bool := c.toNat ≤ 0x08 || 0x0a ≤ c.toNat && c.toNat ≤ 0x1f || c.toNat = 0x7f

def isBasic (c : Char) : Bool := c ≠ '"' && c ≠ '\\' && !isControl c

def apostrophe : Char := Char.ofNat 0x27

def isLiteral (c : Char) : Bool := c ≠ apostrophe && !isControl c

def isBare (c : Char) : Bool :=
  0x30 ≤ c.toNat && c.toNat ≤ 0x39 || 0x41 ≤ c.toNat && c.toNat ≤ 0x5a || 0x61 ≤ c.toNat && c.toNat ≤ 0x7a ||
    c.toNat = 0x5f || c.toNat = 0x2d

inductive Written (key : List Char) : List Char → Prop
  | bare (plain : ∀ c ∈ key, isBare c) : Written key key
  | basic (plain : ∀ c ∈ key, isBasic c) : Written key ('"' :: key ++ ['"'])
  | literal (plain : ∀ c ∈ key, isLiteral c) : Written key (apostrophe :: key ++ [apostrophe])

def header (name : List Char) : List Char := '[' :: name ++ [']']

def assignment (entry : List Char × List Char) : List Char := '"' :: entry.1 ++ "\" = \"".toList ++ entry.2 ++ ['"']

def document (name : List Char) (entries : List (List Char × List Char)) : List Char :=
  ['\n'].intercalate (header name :: entries.map assignment) ++ ['\n']

/-- A reader of TOML: it reads a table of plain strings, and what it has as a key of a table stands in the text, unless
an escape has written it. -/
structure Reader where
  parse : List Char → Option Table
  reads : ∀ (name : List Char) (entries : List (List Char × List Char)), name ≠ [] → (∀ c ∈ name, isBare c) →
    (∀ entry ∈ entries, (∀ c ∈ entry.1, isBasic c) ∧ ∀ c ∈ entry.2, isBasic c) → (entries.map Prod.fst).Nodup →
    ∃ table, parse (document name entries) = some [(name,.table table)] ∧
      table.Perm (entries.map fun entry => (entry.1,.string entry.2))
  written : ∀ text root, '\\' ∉ text → parse text = some root → ∀ name table, (name,.table table) ∈ root →
    ∀ key value, (key,value) ∈ table → ∃ form, Written key form ∧ form <:+: text

section Characters
variable {c : Char} {key form : List Char}

theorem not_isControl_of_isBare (bare : isBare c) : ¬isControl c := by
  intro control
  unfold isControl at control
  unfold isBare at bare
  simp only [Bool.or_eq_true,Bool.and_eq_true,decide_eq_true_eq] at control bare
  omega

theorem Written.not_isControl (written : Written key form) (member : c ∈ key) : ¬isControl c := by
  cases written with
  | bare plain => exact not_isControl_of_isBare (plain c member)
  | basic plain =>
    have allowed := plain c member
    unfold isBasic at allowed
    intro control
    rw [control] at allowed
    simp at allowed
  | literal plain =>
    have allowed := plain c member
    unfold isLiteral at allowed
    intro control
    rw [control] at allowed
    simp at allowed

theorem Written.isInfix (written : Written key form) : key <:+: form := by
  cases written with
  | bare plain => exact List.infix_refl key
  | basic plain => exact ⟨['"'],['"'],rfl⟩
  | literal plain => exact ⟨[apostrophe],[apostrophe],rfl⟩

end Characters

section Lines
variable {part first second : List Char} {c : Char}

private theorem isPrefix_of_separated (free : c ∉ part) (starts : part <+: first ++ c :: second) : part <+: first := by
  induction part generalizing first with
  | nil => exact List.nil_prefix
  | cons p rest ih =>
    cases first with
    | nil =>
      obtain ⟨rfl,_⟩ := List.cons_prefix_cons.mp starts
      exact absurd List.mem_cons_self free
    | cons d others =>
      obtain ⟨rfl,later⟩ := List.cons_prefix_cons.mp starts
      exact List.cons_prefix_cons.mpr ⟨rfl,ih (fun member => free (List.mem_cons_of_mem _ member)) later⟩

theorem infix_of_separated (free : c ∉ part) (within : part <:+: first ++ c :: second) : part <:+: first ∨ part <:+: second := by
  induction first with
  | nil =>
    rcases List.infix_cons_iff.mp within with starts | later
    · left
      have starts : part <+: [] ++ c :: second := starts
      exact (isPrefix_of_separated free starts).isInfix
    · exact .inr later
  | cons d others ih =>
    rcases List.infix_cons_iff.mp within with starts | later
    · exact .inl (isPrefix_of_separated free starts).isInfix
    · rcases ih later with inside | after
      · exact .inl (List.infix_cons inside)
      · exact .inr after

theorem infix_of_last (absent : c ∉ second) (within : part ++ [c] <:+: first ++ second) : part ++ [c] <:+: first := by
  induction second using List.reverseRecOn with
  | nil => rwa [List.append_nil] at within
  | append_singleton others d ih =>
    rw [← List.append_assoc] at within
    rcases List.infix_concat_iff.mp within with ends | earlier
    · obtain ⟨before,whole⟩ := ends
      rw [← List.append_assoc] at whole
      have same : c = d := (List.append_inj' whole rfl).2 |> List.cons.inj |>.1
      exact absurd (List.mem_append_right _ (List.mem_singleton.mpr same)) absent
    · exact ih (fun member => absent (List.mem_append_left _ member)) earlier

theorem infix_of_lines {lines : List (List Char)} (free : '\n' ∉ part) (some' : part ≠ [])
    (within : part <:+: ['\n'].intercalate lines ++ ['\n']) : ∃ line ∈ lines, part <:+: line := by
  induction lines with
  | nil =>
    have within : part <:+: [] ++ '\n' :: [] := within
    rcases infix_of_separated free within with none' | none'
    · exact absurd (List.eq_nil_of_infix_nil none') some'
    · exact absurd (List.eq_nil_of_infix_nil none') some'
  | cons line rest ih =>
    cases rest with
    | nil =>
      have alone : ['\n'].intercalate [line] = line := by simp [List.intercalate]
      rw [alone] at within
      rcases infix_of_separated free within with here | none'
      · exact ⟨line,List.mem_cons_self,here⟩
      · exact absurd (List.eq_nil_of_infix_nil none') some'
    | cons next others =>
      rw [List.intercalate_cons_cons,List.append_assoc,List.append_assoc,List.singleton_append] at within
      rcases infix_of_separated free within with here | later
      · exact ⟨line,List.mem_cons_self,here⟩
      · obtain ⟨found,member,there⟩ := ih later
        exact ⟨found,List.mem_cons_of_mem _ member,there⟩

theorem infix_intercalate {pieces : List (List Char)} {piece separator : List Char} (member : piece ∈ pieces) :
    piece <:+: separator.intercalate pieces := by
  induction pieces with
  | nil => cases member
  | cons first rest ih =>
    cases rest with
    | nil =>
      rw [List.mem_singleton.mp member,List.intercalate_singleton]
    | cons second others =>
      rw [List.intercalate_cons_cons,List.append_assoc]
      rcases List.mem_cons.mp member with rfl | later
      · exact (List.prefix_append _ _).isInfix
      · exact ((ih later).trans (List.suffix_append _ _).isInfix).trans (List.suffix_append _ _).isInfix

end Lines

/-! A reader of nothing but such tables. -/

def readHeader : List Char → Option (List Char)
  | '[' :: rest => if rest.dropWhile isBare = [']'] then some (rest.takeWhile isBare) else none
  | _ => none

def readAssignment : List Char → Option (List Char × List Char)
  | '"' :: rest =>
    match rest.dropWhile isBasic with
    | '"' :: ' ' :: '=' :: ' ' :: '"' :: value =>
      if value.dropWhile isBasic = ['"'] then some (rest.takeWhile isBasic,value.takeWhile isBasic) else none
    | _ => none
  | _ => none

def readTable (text : List Char) : Option Table :=
  match text.splitOn '\n' with
  | first :: rest =>
    if rest.getLast? = some [] ∧ (∀ line ∈ rest.dropLast, (readAssignment line).isSome) ∧
        ((rest.dropLast.filterMap readAssignment).map Prod.fst).Nodup then
      (readHeader first).map fun name =>
        [(name,.table ((rest.dropLast.filterMap readAssignment).map fun entry => (entry.1,.string entry.2)))]
    else none
  | [] => none

section Reading
variable {entry : List Char × List Char} {line : List Char}

private theorem dropWhile_append_quote {text : List Char} (plain : ∀ c ∈ text, isBasic c) (rest : List Char) :
    (text ++ '"' :: rest).dropWhile isBasic = '"' :: rest ∧ (text ++ '"' :: rest).takeWhile isBasic = text := by
  rw [List.dropWhile_append_of_pos plain,List.takeWhile_append_of_pos plain]
  exact ⟨List.dropWhile_cons_of_neg (by decide),by rw [List.takeWhile_cons_of_neg (by decide),List.append_nil]⟩

theorem readAssignment_assignment (plain : (∀ c ∈ entry.1, isBasic c) ∧ ∀ c ∈ entry.2, isBasic c) :
    readAssignment (assignment entry) = some entry := by
  obtain ⟨first,second⟩ := dropWhile_append_quote plain.1 (" = \"".toList ++ entry.2 ++ ['"'])
  obtain ⟨third,fourth⟩ := dropWhile_append_quote plain.2 []
  have line : assignment entry = '"' :: (entry.1 ++ '"' :: (" = \"".toList ++ entry.2 ++ ['"'])) := by
    unfold assignment
    simp
  rw [line,readAssignment,first,second]
  change (if (entry.2 ++ ['"']).dropWhile isBasic = ['"'] then
    some (entry.1,(entry.2 ++ ['"']).takeWhile isBasic) else none) = some entry
  rw [third,fourth,if_pos rfl]

theorem written_of_readAssignment (found : readAssignment line = some entry) :
    ∃ form, Written entry.1 form ∧ form <:+: line := by
  unfold readAssignment at found
  split at found
  · rename_i rest
    split at found
    · rename_i value same
      split at found
      · cases found
        refine ⟨_,.basic fun c member => List.mem_takeWhile_imp member,[],' ' :: '=' :: ' ' :: '"' :: value,?_⟩
        have whole := List.takeWhile_append_dropWhile (p := isBasic) (l := rest)
        rw [same] at whole
        simpa using whole
      · cases found
    · cases found
  · cases found

theorem newline_not_mem_assignment (plain : (∀ c ∈ entry.1, isBasic c) ∧ ∀ c ∈ entry.2, isBasic c) : '\n' ∉ assignment entry := by
  have break' : ¬isBasic '\n' := by decide
  have key : '\n' ∉ entry.1 := fun member => break' (plain.1 _ member)
  have value : '\n' ∉ entry.2 := fun member => break' (plain.2 _ member)
  simp [assignment,key,value]

def lineReader : Reader where
  parse := readTable
  reads := by
    intro name entries _ bare plain distinct
    have headed : readHeader (header name) = some name := by
      have dropped : (name ++ [']']).dropWhile isBare = [']'] := by
        rw [List.dropWhile_append_of_pos bare]
        exact List.dropWhile_cons_of_neg (by decide)
      have taken : (name ++ [']']).takeWhile isBare = name := by
        rw [List.takeWhile_append_of_pos bare,List.takeWhile_cons_of_neg (by decide),List.append_nil]
      change (if (name ++ [']']).dropWhile isBare = [']'] then some ((name ++ [']']).takeWhile isBare) else none) = some name
      rw [dropped,taken,if_pos rfl]
    have lines : (document name entries).splitOn '\n' = header name :: (entries.map assignment ++ [[]]) := by
      have joined : document name entries = ['\n'].intercalate (header name :: (entries.map assignment ++ [[]])) := by
        unfold document
        generalize header name = first
        induction entries.map assignment generalizing first with
        | nil => simp [List.intercalate]
        | cons second others ih =>
          rw [List.intercalate_cons_cons,List.cons_append,List.intercalate_cons_cons,← ih,List.append_assoc]
      rw [joined]
      apply List.splitOn_intercalate
      · intro line member
        rcases List.mem_cons.mp member with rfl | later
        · have free : '\n' ∉ name := fun inside => absurd (bare _ inside) (by decide)
          simp [header,free]
        · rcases List.mem_append.mp later with assigned | last
          · obtain ⟨entry,inside,rfl⟩ := List.mem_map.mp assigned
            exact newline_not_mem_assignment (plain entry inside)
          · rw [List.mem_singleton.mp last]
            exact List.not_mem_nil
      · exact List.cons_ne_nil _ _
    have read : (entries.map assignment).filterMap readAssignment = entries := by
      rw [List.filterMap_map]
      refine (List.filterMap_congr fun entry member => ?_).trans List.filterMap_some
      exact readAssignment_assignment (plain entry member)
    refine ⟨_,?_,List.Perm.refl _⟩
    rw [readTable,lines]
    dsimp only
    rw [List.dropLast_concat,read,headed,if_pos]
    · rfl
    · refine ⟨List.getLast?_concat,?_,distinct⟩
      intro line member
      obtain ⟨entry,inside,rfl⟩ := List.mem_map.mp member
      rw [readAssignment_assignment (plain entry inside)]
      rfl
  written := by
    intro text root _ parsed name table member key value entered
    unfold readTable at parsed
    split at parsed
    · rename_i first rest lines
      split at parsed
      · obtain ⟨name',_,rfl⟩ := Option.map_eq_some_iff.mp parsed
        obtain ⟨rfl,same⟩ := Prod.mk.inj (List.mem_singleton.mp member)
        cases same
        obtain ⟨entry,inside,same⟩ := List.mem_map.mp entered
        obtain ⟨rfl,_⟩ := Prod.mk.inj same
        obtain ⟨line,there,found⟩ := List.mem_filterMap.mp inside
        obtain ⟨form,written,within⟩ := written_of_readAssignment found
        refine ⟨form,written,within.trans ?_⟩
        have line' : line ∈ text.splitOn '\n' := by
          rw [lines]
          exact List.mem_cons_of_mem _ (List.mem_of_mem_dropLast there)
        have part : line <:+: ['\n'].intercalate (text.splitOn '\n') := infix_intercalate line'
        rwa [List.intercalate_splitOn] at part
      · cases parsed
    · cases parsed

end Reading

end GrassWorker.Toml
