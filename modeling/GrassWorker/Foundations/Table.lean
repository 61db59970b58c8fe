import Mathlib.Algebra.BigOperators.Group.List.Basic
import Mathlib.Data.List.Flatten
import Mathlib.Data.List.Nodup
import Mathlib.Data.List.Pairwise
import Mathlib.Data.List.Perm.Basic
import Mathlib.Tactic.Abel

/-! Tables with a primary key and unique indexes. A row occupies index entries;
a table is its rows together with the proof that no key and no entry is taken
twice, so every write is one that the constraints allow. -/
namespace GrassWorker

universe u v w

structure Table (ρ : Type u) {κ : Type v} {ι : Type w} (key : ρ → κ) (entries : ρ → List ι) where
  rows : List ρ
  distinct : (rows.map key).Nodup
  indexed : (rows.flatMap entries).Nodup

namespace Table
variable {ρ : Type u} {κ : Type v} {ι : Type w} {key : ρ → κ} {entries : ρ → List ι}

instance : EmptyCollection (Table ρ key entries) := ⟨⟨[],List.nodup_nil,List.nodup_nil⟩⟩

def single (row : ρ) (indexed : (entries row).Nodup) : Table ρ key entries :=
  ⟨[row],List.nodup_singleton _,by simpa using indexed⟩

@[simp] theorem rows_empty : (∅ : Table ρ key entries).rows = [] := rfl

@[ext] theorem ext {first second : Table ρ key entries} (same : first.rows = second.rows) :
    first = second := by
  cases first; cases second; cases same; rfl

theorem same_of_key (table : Table ρ key entries) {first second : ρ} (left : first ∈ table.rows)
    (right : second ∈ table.rows) (same : key first = key second) : first = second :=
  List.inj_on_of_nodup_map table.distinct left right same

theorem nodup_rows (table : Table ρ key entries) : table.rows.Nodup := table.distinct.of_map

theorem same_of_entry (table : Table ρ key entries) {first second : ρ} {entry : ι}
    (left : first ∈ table.rows) (right : second ∈ table.rows)
    (held : entry ∈ entries first) (shared : entry ∈ entries second) : first = second := by
  by_contra different
  have disjoint := (List.nodup_flatMap.mp table.indexed).2
  have : Std.Symm (Function.onFun List.Disjoint entries) := ⟨fun _ _ => List.disjoint_symm⟩
  exact disjoint.forall left right different held shared

theorem search_eq_some (table : Table ρ key entries) {wanted : ρ → Bool} {entry : ι}
    (indexed : ∀ row, wanted row → entry ∈ entries row) {row : ρ} :
    table.rows.find? wanted = some row ↔ row ∈ table.rows ∧ wanted row := by
  constructor
  · intro found
    exact ⟨List.mem_of_find?_eq_some found,List.find?_some found⟩
  · intro facts
    obtain ⟨member,selected⟩ := facts
    cases found : table.rows.find? wanted with
    | none => exact absurd selected (List.find?_eq_none.mp found row member)
    | some other =>
      rw [table.same_of_entry (List.mem_of_find?_eq_some found) member
        (indexed other (List.find?_some found)) (indexed row selected)]

section Find
variable [DecidableEq κ]

def find (table : Table ρ key entries) (k : κ) : Option ρ :=
  table.rows.find? (fun row => key row = k)

theorem find_eq_some_iff (table : Table ρ key entries) (k : κ) (row : ρ) :
    table.find k = some row ↔ row ∈ table.rows ∧ key row = k := by
  constructor
  · intro found
    exact ⟨List.mem_of_find?_eq_some found,by simpa using List.find?_some found⟩
  · rintro ⟨member,rfl⟩
    cases found : table.find (key row) with
    | none =>
      have different : key row ≠ key row := by simpa using List.find?_eq_none.mp found row member
      exact absurd rfl different
    | some other =>
      have selected : key other = key row := by simpa using List.find?_some found
      rw [table.same_of_key (List.mem_of_find?_eq_some found) member selected]

theorem find_eq_none_iff (table : Table ρ key entries) (k : κ) :
    table.find k = none ↔ ∀ row ∈ table.rows, key row ≠ k := by
  simp [find,List.find?_eq_none]

theorem find_mem {table : Table ρ key entries} {k : κ} {row : ρ} (found : table.find k = some row) :
    row ∈ table.rows := ((table.find_eq_some_iff k row).mp found).1

theorem find_key {table : Table ρ key entries} {k : κ} {row : ρ} (found : table.find k = some row) :
    key row = k := ((table.find_eq_some_iff k row).mp found).2

theorem find_of_mem {table : Table ρ key entries} {row : ρ} (member : row ∈ table.rows) :
    table.find (key row) = some row := (table.find_eq_some_iff _ _).mpr ⟨member,rfl⟩

end Find

section Update
variable [DecidableEq ι] (table : Table ρ key entries) (selected : ρ → Prop) [DecidablePred selected]
  (change : ρ → ρ) (keeps : ∀ row, key (change row) = key row)

/-- Rewrites the selected rows; `none` when a unique index refuses the result. -/
def updateWhere : Option (Table ρ key entries) :=
  if indexed : ((table.rows.map fun row => if selected row then change row else row).flatMap entries).Nodup then
    some ⟨table.rows.map fun row => if selected row then change row else row,by
      have same : (key ∘ fun row => if selected row then change row else row) = key := by
        funext row
        by_cases chosen : selected row <;> simp [chosen,keeps]
      rw [List.map_map,same]
      exact table.distinct,indexed⟩
  else none

variable {table selected change keeps}

theorem rows_updateWhere {after : Table ρ key entries}
    (updated : table.updateWhere selected change keeps = some after) :
    after.rows = table.rows.map fun row => if selected row then change row else row := by
  unfold updateWhere at updated
  split at updated
  · rw [← Option.some.inj updated]
  · cases updated

theorem updateWhere_of_sublist (fewer : ∀ row ∈ table.rows, selected row →
    (entries (change row)).Sublist (entries row)) :
    ∃ after, table.updateWhere selected change keeps = some after := by
  have sublist : ∀ rows : List ρ, (∀ row ∈ rows, selected row → (entries (change row)).Sublist (entries row)) →
      ((rows.map fun row => if selected row then change row else row).flatMap entries).Sublist
        (rows.flatMap entries) := by
    intro rows each
    induction rows with
    | nil => simp
    | cons row rows ih =>
      rw [List.map_cons,List.flatMap_cons,List.flatMap_cons]
      refine List.Sublist.append ?_ (ih fun other member => each other (List.mem_cons_of_mem _ member))
      by_cases chosen : selected row
      · simpa [chosen] using each row List.mem_cons_self chosen
      · simp [chosen]
  exact ⟨_,dif_pos ((sublist table.rows fewer).nodup table.indexed)⟩

end Update

section Single
variable [DecidableEq κ] [DecidableEq ι] (table : Table ρ key entries) (k : κ) (change : ρ → ρ)
  (keeps : ∀ row, key (change row) = key row)

/-- Rewrites the row with key `k`, if there is one. -/
def update : Option (Table ρ key entries) := table.updateWhere (fun row => key row = k) change keeps

variable {table k change keeps}

theorem rows_update {after : Table ρ key entries} (updated : table.update k change keeps = some after) :
    after.rows = table.rows.map fun row => if key row = k then change row else row :=
  rows_updateWhere updated

theorem find_update {after : Table ρ key entries} (updated : table.update k change keeps = some after)
    (other : κ) :
    after.find other = if other = k then (table.find other).map change else table.find other := by
  have same : ((fun row => decide (key row = other)) ∘ fun row => if key row = k then change row else row) =
      fun row => decide (key row = other) := by
    funext row
    by_cases selected : key row = k <;> simp [selected,keeps]
  rw [find,rows_update updated,List.find?_map,same]
  change (table.find other).map _ = _
  cases found : table.find other with
  | none => simp
  | some row =>
    have chosen := find_key found
    by_cases selected : other = k <;> simp [selected,chosen]

theorem countP_update_mono {after : Table ρ key entries} (updated : table.update k change keeps = some after)
    (holds : ρ → Bool) (kept : ∀ row ∈ table.rows, key row = k → holds row → holds (change row)) :
    table.rows.countP holds ≤ after.rows.countP holds := by
  rw [rows_update updated,List.countP_map]
  apply List.countP_mono_left
  intro row member held
  by_cases selected : key row = k
  · simpa [selected] using kept row member selected held
  · simpa [selected] using held

theorem countP_update_le {after : Table ρ key entries} (updated : table.update k change keeps = some after)
    (holds : ρ → Bool) : table.rows.countP holds ≤ after.rows.countP holds + 1 := by
  have spread : ∀ rows : List ρ, rows.countP holds ≤
      (rows.map fun row => if key row = k then change row else row).countP holds + (rows.map key).count k := by
    intro rows
    induction rows with
    | nil => simp
    | cons row rows ih =>
      simp only [List.map_cons,List.countP_cons,List.count_cons,beq_iff_eq]
      by_cases selected : key row = k
      · simp only [selected,if_true]
        split <;> split <;> omega
      · simp only [selected,if_false]
        omega
  have once := List.nodup_iff_count_le_one.mp table.distinct k
  have all := spread table.rows
  rw [rows_update updated]
  omega

theorem update_of_free (once : ∀ row ∈ table.rows, key row = k → (entries (change row)).Nodup)
    (free : ∀ row ∈ table.rows, key row = k → ∀ other ∈ table.rows, key other ≠ k →
      List.Disjoint (entries (change row)) (entries other)) :
    ∃ after, table.update k change keeps = some after := by
  refine ⟨_,dif_pos (List.nodup_flatMap.mpr ⟨?_,?_⟩)⟩
  · intro row member
    obtain ⟨old,inside,rfl⟩ := List.mem_map.mp member
    by_cases selected : key old = k
    · simpa [selected] using once old inside selected
    · simpa [selected] using (List.nodup_flatMap.mp table.indexed).1 old inside
  · rw [List.pairwise_map]
    have apart := (List.nodup_flatMap.mp table.indexed).2
    have different := List.pairwise_map.mp table.distinct
    refine (apart.and different).imp_of_mem ?_
    rintro first second left right ⟨disjoint,keys⟩
    simp only [Function.onFun] at disjoint ⊢
    by_cases one : key first = k <;> by_cases two : key second = k
    · exact absurd (one.trans two.symm) keys
    · simpa [one,two] using free first left one second right two
    · simpa [one,two] using List.disjoint_symm (free second right two first left one)
    · simpa [one,two] using disjoint

end Single

section Insert
variable [DecidableEq κ] [DecidableEq ι]

/-- Adds a row at the end; `none` when its key or one of its entries is taken. -/
def insert (table : Table ρ key entries) (row : ρ) : Option (Table ρ key entries) :=
  if fresh : ((table.rows ++ [row]).map key).Nodup ∧ ((table.rows ++ [row]).flatMap entries).Nodup then
    some ⟨table.rows ++ [row],fresh.1,fresh.2⟩
  else none

theorem rows_insert {table after : Table ρ key entries} {row : ρ}
    (inserted : table.insert row = some after) : after.rows = table.rows ++ [row] := by
  unfold insert at inserted
  split at inserted
  · rw [← Option.some.inj inserted]
  · cases inserted

theorem find_before_insert {table after : Table ρ key entries} {row : ρ}
    (inserted : table.insert row = some after) : table.find (key row) = none := by
  have distinct := after.distinct
  rw [rows_insert inserted,List.map_append] at distinct
  rw [find_eq_none_iff]
  intro other member same
  exact List.disjoint_of_nodup_append distinct (List.mem_map_of_mem member) (by simp [same])

theorem insert_of_fresh (table : Table ρ key entries) (row : ρ) (fresh : table.find (key row) = none)
    (unindexed : entries row = []) : ∃ after, table.insert row = some after := by
  refine ⟨_,dif_pos ⟨?_,?_⟩⟩
  · rw [List.map_append,List.nodup_append]
    refine ⟨table.distinct,List.nodup_singleton _,?_⟩
    intro k member k' last same
    obtain ⟨other,inside,rfl⟩ := List.mem_map.mp member
    rw [List.mem_singleton.mp last] at same
    exact (find_eq_none_iff table (key row)).mp fresh other inside same
  · simpa [unindexed] using table.indexed

theorem find_insert {table after : Table ρ key entries} {row : ρ}
    (inserted : table.insert row = some after) (k : κ) :
    after.find k = if k = key row then some row else table.find k := by
  have rows := rows_insert inserted
  by_cases same : k = key row
  · subst same
    rw [if_pos rfl]
    exact find_of_mem (by simp [rows])
  · rw [if_neg same,find,rows,List.find?_append]
    change (table.find k).or _ = _
    simp [Ne.symm same]

end Insert

section Several

/-- Adds rows one after the other; `none` when one of them is refused. -/
def insertMany [DecidableEq κ] [DecidableEq ι] (table : Table ρ key entries) (added : List ρ) :
    Option (Table ρ key entries) := added.foldlM insert table

def deleteWhere (table : Table ρ key entries) (selected : ρ → Prop) [DecidablePred selected] : Table ρ key entries where
  rows := table.rows.filter fun row => ¬selected row
  distinct := table.distinct.sublist (List.filter_sublist.map key)
  indexed := table.indexed.sublist (List.filter_sublist.flatMap entries)

theorem rows_insertMany [DecidableEq κ] [DecidableEq ι] {table after : Table ρ key entries} {added : List ρ}
    (inserted : table.insertMany added = some after) : after.rows = table.rows ++ added := by
  unfold insertMany at inserted
  induction added generalizing table with
  | nil =>
    cases inserted
    rw [List.append_nil]
  | cons row added ih =>
    rw [List.foldlM_cons] at inserted
    obtain ⟨first,one,rest⟩ := Option.bind_eq_some_iff.mp inserted
    rw [ih rest,rows_insert one,List.append_assoc]
    rfl

theorem find_deleteWhere [DecidableEq κ] (table : Table ρ key entries) (selected : ρ → Prop) [DecidablePred selected] {k : κ}
    {row : ρ} : (table.deleteWhere selected).find k = some row ↔ table.find k = some row ∧ ¬selected row := by
  rw [find_eq_some_iff,find_eq_some_iff]
  simp only [deleteWhere,List.mem_filter,decide_eq_true_eq]
  tauto

end Several

section Evolves
variable [DecidableEq κ]

/-- How a table may change: no row is lost, a row is followed by one that `becomes`
allows, and a new row satisfies `born`. -/
structure Evolves (becomes : ρ → ρ → Prop) (born : ρ → Prop) (before after : Table ρ key entries) : Prop where
  kept : ∀ k row, before.find k = some row → ∃ next, after.find k = some next ∧ becomes row next
  added : ∀ k next, before.find k = none → after.find k = some next → born next

variable {becomes later : ρ → ρ → Prop} {born : ρ → Prop} {before middle after : Table ρ key entries}

theorem evolves_refl (reflexive : ∀ row, becomes row row) (table : Table ρ key entries) :
    Evolves becomes born table table where
  kept _ row found := ⟨row,found,reflexive row⟩
  added _ _ missing found := by rw [missing] at found; cases found

theorem Evolves.comp (first : Evolves becomes born before middle)
    (second : Evolves later (fun _ => False) middle after) :
    Evolves (fun row last => ∃ next, becomes row next ∧ later next last)
      (fun last => ∃ next, born next ∧ later next last) before after where
  kept k row found := by
    obtain ⟨next,reached,one⟩ := first.kept k row found
    obtain ⟨last,final,two⟩ := second.kept k next reached
    exact ⟨last,final,next,one,two⟩
  added k last missing found := by
    cases reached : middle.find k with
    | none => exact (second.added k last reached found).elim
    | some next =>
      obtain ⟨same,final,two⟩ := second.kept k next reached
      obtain rfl : same = last := Option.some.inj (final.symm.trans found)
      exact ⟨next,first.added k next missing reached,two⟩

theorem Evolves.mono {becomes' : ρ → ρ → Prop} {born' : ρ → Prop}
    (evolves : Evolves becomes born before after)
    (weaker : ∀ row next, row ∈ before.rows → becomes row next → becomes' row next)
    (wider : ∀ row, born row → born' row) : Evolves becomes' born' before after where
  kept k row found := by
    obtain ⟨next,reached,step⟩ := evolves.kept k row found
    exact ⟨next,reached,weaker row next (find_mem found) step⟩
  added k next missing found := wider next (evolves.added k next missing found)

theorem Evolves.origin (evolves : Evolves becomes born before after) {k : κ} {next : ρ}
    (found : after.find k = some next) :
    (∃ row, before.find k = some row ∧ becomes row next) ∨ (before.find k = none ∧ born next) := by
  cases earlier : before.find k with
  | none => exact .inr ⟨rfl,evolves.added k next earlier found⟩
  | some row =>
    obtain ⟨same,reached,step⟩ := evolves.kept k row earlier
    obtain rfl : same = next := Option.some.inj (reached.symm.trans found)
    exact .inl ⟨row,rfl,step⟩

/-! Sums over the rows of a table. -/

section Total
variable {M : Type*} [AddCommMonoid M] {f : ρ → M}

def total (f : ρ → M) (table : Table ρ key entries) : M := (table.rows.map f).sum

theorem Evolves.perm (evolves : Evolves becomes born before after) :
    ∃ (next : ρ → ρ) (fresh : List ρ), after.rows.Perm (before.rows.map next ++ fresh) ∧
      (∀ row ∈ before.rows, after.find (key row) = some (next row) ∧ becomes row (next row)) ∧
      ∀ row ∈ fresh, born row := by
  let next := fun row => (after.find (key row)).getD row
  have follows : ∀ row ∈ before.rows, after.find (key row) = some (next row) ∧ becomes row (next row) := by
    intro row member
    obtain ⟨last,reached,step⟩ := evolves.kept (key row) row (find_of_mem member)
    have same : next row = last := by simp [next,reached]
    rw [same]
    exact ⟨reached,step⟩
  refine ⟨next,after.rows.filter fun row => (before.find (key row)).isNone,?_,follows,?_⟩
  · have keys : ∀ row ∈ before.rows, key (next row) = key row := fun row member => find_key (follows row member).1
    have once : (before.rows.map next).Nodup := by
      refine before.nodup_rows.map_on ?_
      intro first left second right same
      refine before.same_of_key left right ?_
      rw [← keys first left,← keys second right,same]
    have apart : List.Disjoint (before.rows.map next)
        (after.rows.filter fun row => (before.find (key row)).isNone) := by
      intro row old new
      obtain ⟨earlier,member,rfl⟩ := List.mem_map.mp old
      have missing := (List.mem_filter.mp new).2
      rw [keys earlier member,find_of_mem member] at missing
      cases missing
    refine (List.perm_ext_iff_of_nodup after.nodup_rows (once.append (after.nodup_rows.filter _) apart)).mpr ?_
    intro row
    rw [List.mem_append,List.mem_map,List.mem_filter]
    constructor
    · intro member
      cases earlier : before.find (key row) with
      | none => exact .inr ⟨member,rfl⟩
      | some old =>
        have reached := (follows old (find_mem earlier)).1
        rw [find_key earlier,find_of_mem member] at reached
        exact .inl ⟨old,find_mem earlier,(Option.some.inj reached).symm⟩
    · intro origin
      rcases origin with ⟨old,member,rfl⟩ | ⟨member,_⟩
      · exact find_mem (follows old member).1
      · exact member
  · intro row member
    obtain ⟨inside,missing⟩ := List.mem_filter.mp member
    exact evolves.added (key row) row (by simpa using missing) (find_of_mem inside)

theorem sum_map_one [DecidableEq ρ] {g : ρ → M} {rows : List ρ} {row : ρ} (once : rows.Nodup)
    (member : row ∈ rows) (same : ∀ other ∈ rows, other ≠ row → g other = f other) :
    (rows.map g).sum + f row = (rows.map f).sum + g row := by
  obtain ⟨front,back,rfl⟩ := List.append_of_mem member
  have alone := List.nodup_middle.mp once
  have others : ∀ other ∈ front ++ back, g other = f other := by
    intro other inside
    refine same other ?_ ?_
    · rcases List.mem_append.mp inside with left | right
      · exact List.mem_append_left _ left
      · exact List.mem_append_right _ (List.mem_cons_of_mem _ right)
    · rintro rfl
      exact (List.nodup_cons.mp alone).1 inside
  have left := List.map_congr_left fun other inside => others other (List.mem_append_left back inside)
  have right := List.map_congr_left fun other inside => others other (List.mem_append_right front inside)
  simp only [List.map_append,List.map_cons,List.sum_append,List.sum_cons,left,right]
  abel

/-- Only the row with key `k` changes what it contributes, and new rows contribute nothing. -/
theorem Evolves.total_one (evolves : Evolves becomes born before after) {k : κ} {row next : ρ}
    (found : before.find k = some row) (reached : after.find k = some next)
    (same : ∀ old ∈ before.rows, ∀ new, key old ≠ k → becomes old new → f new = f old)
    (nothing : ∀ new, born new → f new = 0) : after.total f + f row = before.total f + f next := by
  classical
  obtain ⟨follow,fresh,perm,follows,new⟩ := evolves.perm
  have last : follow row = next := by
    have final := (follows row (find_mem found)).1
    rw [find_key found,reached] at final
    exact (Option.some.inj final).symm
  have zero : (fresh.map f).sum = 0 := by
    refine List.sum_eq_zero ?_
    intro value member
    obtain ⟨one,inside,rfl⟩ := List.mem_map.mp member
    exact nothing one (new one inside)
  have moved := sum_map_one (f := f) (g := f ∘ follow) before.nodup_rows (find_mem found) (by
    intro other member different
    refine same other member _ ?_ (follows other member).2
    intro equal
    exact different (before.same_of_key member (find_mem found) (equal.trans (find_key found).symm)))
  unfold total
  rw [(perm.map f).sum_eq,List.map_append,List.sum_append,zero,add_zero,List.map_map]
  rw [Function.comp_apply,last] at moved
  exact moved

theorem Evolves.total_eq (evolves : Evolves becomes born before after)
    (same : ∀ old ∈ before.rows, ∀ new, becomes old new → f new = f old)
    (nothing : ∀ new, born new → f new = 0) : after.total f = before.total f := by
  obtain ⟨follow,fresh,perm,follows,new⟩ := evolves.perm
  have zero : (fresh.map f).sum = 0 := by
    refine List.sum_eq_zero ?_
    intro value member
    obtain ⟨one,inside,rfl⟩ := List.mem_map.mp member
    exact nothing one (new one inside)
  have kept : before.rows.map (f ∘ follow) = before.rows.map f :=
    List.map_congr_left fun row member => same row member _ (follows row member).2
  unfold total
  rw [(perm.map f).sum_eq,List.map_append,List.sum_append,zero,add_zero,List.map_map,kept]

omit [DecidableEq κ] in
theorem total_congr {g : ρ → M} (table : Table ρ key entries) (same : ∀ row ∈ table.rows, g row = f row) : table.total g = table.total f := by
  unfold total
  rw [List.map_congr_left same]

omit [DecidableEq κ] in
theorem total_deleteWhere (table : Table ρ key entries) {selected : ρ → Prop} [DecidablePred selected]
    (nothing : ∀ row ∈ table.rows, selected row → f row = 0) : (table.deleteWhere selected).total f = table.total f := by
  unfold total deleteWhere
  dsimp only
  generalize table.rows = rows at nothing
  induction rows with
  | nil => rfl
  | cons row rows ih =>
    have rest := ih fun other inside => nothing other (List.mem_cons_of_mem _ inside)
    by_cases chosen : selected row
    · rw [List.filter_cons_of_neg (by simpa using chosen),rest,List.map_cons,List.sum_cons,nothing row List.mem_cons_self chosen,zero_add]
    · rw [List.filter_cons_of_pos (by simpa using chosen),List.map_cons,List.sum_cons,rest,List.map_cons,List.sum_cons]

theorem total_insert [DecidableEq ι] {table after : Table ρ key entries} {row : ρ} (inserted : table.insert row = some after) :
    after.total f = table.total f + f row := by
  unfold total
  rw [rows_insert inserted,List.map_append,List.sum_append]
  simp

end Total

variable [DecidableEq ι] {change : ρ → ρ} {keeps : ∀ row, key (change row) = key row}

theorem evolves_updateWhere {table : Table ρ key entries} {selected : ρ → Prop} [DecidablePred selected]
    (updated : table.updateWhere selected change keeps = some after) :
    Evolves (fun row next => next = if selected row then change row else row) born table after where
  kept k row found := by
    refine ⟨if selected row then change row else row,?_,rfl⟩
    refine (after.find_eq_some_iff k _).mpr ⟨?_,?_⟩
    · rw [rows_updateWhere updated]
      exact List.mem_map_of_mem (find_mem found)
    · by_cases chosen : selected row <;> simp [chosen,keeps,find_key found]
  added k next missing found := by
    have member := find_mem found
    rw [rows_updateWhere updated] at member
    obtain ⟨row,inside,rfl⟩ := List.mem_map.mp member
    have same : key row = k := by
      have last := find_key found
      by_cases chosen : selected row <;> simpa [chosen,keeps] using last
    exact absurd same ((table.find_eq_none_iff k).mp missing row inside)

theorem evolves_update {table : Table ρ key entries} {k : κ}
    (updated : table.update k change keeps = some after) :
    Evolves (fun row next => next = if key row = k then change row else row) born table after :=
  evolves_updateWhere updated

theorem find_updateWhere {table : Table ρ key entries} {selected : ρ → Prop} [DecidablePred selected]
    {change : ρ → ρ} {keeps : ∀ row, key (change row) = key row}
    (updated : table.updateWhere selected change keeps = some after) {k : κ} {row : ρ} (found : table.find k = some row) :
    after.find k = some (if selected row then change row else row) := by
  have evolves : Evolves (fun row next => next = if selected row then change row else row) (fun _ => True) table after :=
    evolves_updateWhere updated
  obtain ⟨_,reached,rfl⟩ := evolves.kept k row found
  exact reached

theorem evolves_insert {table : Table ρ key entries} {row : ρ} (inserted : table.insert row = some after) :
    Evolves (fun old next => next = old) (fun next => next = row) table after where
  kept k old found := by
    refine ⟨old,(after.find_eq_some_iff k old).mpr ⟨?_,find_key found⟩,rfl⟩
    rw [rows_insert inserted]
    exact List.mem_append_left _ (find_mem found)
  added k next missing found := by
    rw [find_insert inserted] at found
    split at found
    · exact (Option.some.inj found).symm
    · rw [missing] at found
      cases found

end Evolves

end Table
end GrassWorker
