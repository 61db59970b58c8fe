import Mathlib.Data.List.Nodup

/-! Values under keys that are gone after a deadline. A store is the list of what was put
last under each key; what has expired is dropped when time is looked at. -/
namespace GrassWorker

structure Lasting (κ α : Type) where
  key : κ
  value : α
  deadline : Int
deriving DecidableEq

abbrev Expiring (κ α : Type) := List (Lasting κ α)

namespace Expiring
variable {κ α : Type}

def wait (now : Int) (store : Expiring κ α) : Expiring κ α := store.filter fun entry => now < entry.deadline

theorem mem_wait {now : Int} {store : Expiring κ α} {entry : Lasting κ α} (member : entry ∈ wait now store) :
    entry ∈ store := List.mem_of_mem_filter member

def Distinct (store : Expiring κ α) : Prop := (store.map Lasting.key).Nodup

theorem distinct_wait (now : Int) {store : Expiring κ α} (distinct : Distinct store) : Distinct (wait now store) :=
  distinct.sublist (List.filter_sublist.map _)

theorem Distinct.same {store : Expiring κ α} {entry other : Lasting κ α} (distinct : Distinct store) (first : entry ∈ store) (second : other ∈ store)
    (same : entry.key = other.key) : entry = other := List.inj_on_of_nodup_map distinct first second same

variable [DecidableEq κ]

def get (store : Expiring κ α) (key : κ) : Option α := (store.find? fun entry => entry.key = key).map Lasting.value

def remove (store : Expiring κ α) (key : κ) : Expiring κ α := store.filter fun entry => entry.key ≠ key

def put (store : Expiring κ α) (key : κ) (value : α) (deadline : Int) : Expiring κ α :=
  ⟨key,value,deadline⟩ :: remove store key

def putIfPresent (store : Expiring κ α) (key : κ) (value : α) (deadline : Int) : Expiring κ α :=
  if (get store key).isSome then put store key value deadline else store

variable {store : Expiring κ α} {key : κ} {value : α} {deadline : Int} {entry : Lasting κ α}

theorem get_eq_some (found : get store key = some value) : ∃ entry ∈ store, entry.key = key ∧ entry.value = value := by
  obtain ⟨entry,first,rfl⟩ := Option.map_eq_some_iff.mp found
  exact ⟨entry,List.mem_of_find?_eq_some first,by simpa using List.find?_some first,rfl⟩

theorem mem_remove : entry ∈ remove store key ↔ entry ∈ store ∧ entry.key ≠ key := by
  simp [remove]

theorem mem_put : entry ∈ put store key value deadline ↔ entry = ⟨key,value,deadline⟩ ∨ entry ∈ store ∧ entry.key ≠ key := by
  rw [put,List.mem_cons,mem_remove]

theorem mem_putIfPresent (member : entry ∈ putIfPresent store key value deadline) :
    entry = ⟨key,value,deadline⟩ ∧ (get store key).isSome ∨ entry ∈ store := by
  unfold putIfPresent at member
  split at member
  · rename_i present
    rcases mem_put.mp member with rfl | old
    · exact .inl ⟨rfl,present⟩
    · exact .inr old.1
  · exact .inr member

theorem distinct_remove (key : κ) (distinct : Distinct store) : Distinct (remove store key) :=
  distinct.sublist (List.filter_sublist.map _)

theorem distinct_put (key : κ) (value : α) (deadline : Int) (distinct : Distinct store) :
    Distinct (put store key value deadline) := by
  refine List.nodup_cons.mpr ⟨?_,distinct_remove key distinct⟩
  intro member
  obtain ⟨entry,inside,same⟩ := List.mem_map.mp member
  exact (mem_remove.mp inside).2 same

end Expiring
end GrassWorker
