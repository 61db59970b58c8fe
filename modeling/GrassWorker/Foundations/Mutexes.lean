import GrassWorker.Foundations.Interleaving
import Mathlib.Algebra.Order.BigOperators.Group.List
import Mathlib.Data.Multiset.OrderedMonoid

/-! Mutexes: the locks that are taken are the guards the handlers in flight hold, each
of them once, so two handlers never hold guards of one lock. -/
namespace GrassWorker.Interleaving

universe u v w x y
variable {σ : Type u} {θ : Type v} {ρ : Type w} {ι : Type x} {κ : Type y}

section Distinct
variable {guards : θ → Multiset κ} {config : Config σ θ} {machine : Machine σ θ ρ ι}

theorem distinct_apart (once : (owed guards config).Nodup) {index : Nat} {handler : θ}
    (found : config.inflight[index]? = some handler) {other : θ} (member : other ∈ config.inflight.eraseIdx index) :
    Disjoint (guards handler) (guards other) := by
  have split : guards handler + ((config.inflight.eraseIdx index).map guards).sum = owed guards config := by
    obtain ⟨inside,rfl⟩ := List.getElem?_eq_some_iff.mp found
    rw [owed,← (List.Perm.map guards (List.getElem_cons_eraseIdx_perm inside)).sum_eq,List.map_cons,List.sum_cons]
  have part : guards other ≤ ((config.inflight.eraseIdx index).map guards).sum :=
    List.le_sum_of_mem (List.mem_map_of_mem member)
  rw [← split,Multiset.nodup_add] at once
  exact once.2.2.mono_right part

/-- An action that goes on with some of what its handler held, or with one new thing, leaves nothing held twice. -/
theorem distinct_resume (once : (owed guards config).Nodup) (index : Nat) (input : ι)
    (goes : ∀ handler, config.inflight[index]? = some handler →
      rest guards (machine.advance input config.shared handler).2 ≤ guards handler ∨
      ∃ fresh ∉ owed guards config, rest guards (machine.advance input config.shared handler).2 ≤ {fresh}) :
    (owed guards (machine.step config (.resume index input))).Nodup := by
  cases found : config.inflight[index]? with
  | none => simpa only [Machine.step,found] using once
  | some handler =>
    have ledger := owed_resume machine guards config index input handler found
    rcases goes handler found with less | ⟨fresh,new,one⟩
    · refine Multiset.nodup_of_le ?_ once
      rw [← add_le_add_iff_right (guards handler),ledger]
      exact add_le_add_right less _
    · have bound : owed guards (machine.step config (.resume index input)) ≤ fresh ::ₘ owed guards config := by
        refine le_trans (Multiset.le_add_right _ (guards handler)) ?_
        rw [ledger,← Multiset.singleton_add,add_comm]
        exact add_le_add_left one _
      exact Multiset.nodup_of_le bound (Multiset.nodup_cons.mpr ⟨new,once⟩)

end Distinct

structure Guarded (guards : θ → Multiset κ) (locked : σ → Multiset κ) (config : Config σ θ) : Prop where
  held : owed guards config = locked config.shared
  once : (locked config.shared).Nodup

section Guarded
variable {guards : θ → Multiset κ} {locked : σ → Multiset κ} {config : Config σ θ}

theorem Guarded.le_locked (guarded : Guarded guards locked config) {handler : θ} (member : handler ∈ config.inflight) :
    guards handler ≤ locked config.shared := by
  rw [← guarded.held]
  exact List.le_sum_of_mem (List.mem_map_of_mem member)

private theorem length_filter_le_count [DecidableEq κ] {lock : κ} {selected : θ → Bool} {handlers : List θ}
    (holds : ∀ handler ∈ handlers, selected handler → lock ∈ guards handler) :
    (handlers.filter selected).length ≤ (handlers.map guards).sum.count lock := by
  induction handlers with
  | nil => simp
  | cons handler others ih =>
    have tail := ih fun other member => holds other (List.mem_cons_of_mem _ member)
    rw [List.map_cons,List.sum_cons,Multiset.count_add]
    by_cases chosen : selected handler
    · have here := Multiset.one_le_count_iff_mem.mpr (holds handler List.mem_cons_self chosen)
      rw [List.filter_cons_of_pos chosen,List.length_cons]
      omega
    · rw [List.filter_cons_of_neg chosen]
      omega

theorem Guarded.alone [DecidableEq κ] (guarded : Guarded guards locked config) (lock : κ) (selected : θ → Bool)
    (holds : ∀ handler ∈ config.inflight, selected handler → lock ∈ guards handler) :
    (config.inflight.filter selected).length ≤ 1 := by
  have bound := length_filter_le_count holds
  have once := Multiset.nodup_iff_count_le_one.mp guarded.once lock
  rw [← guarded.held] at once
  exact bound.trans once

variable {machine : Machine σ θ ρ ι}

theorem Guarded.resume (guarded : Guarded guards locked config) {index : Nat} (input : ι) {handler : θ}
    (found : config.inflight[index]? = some handler)
    (balanced : locked (machine.advance input config.shared handler).1 + guards handler =
      locked config.shared + rest guards (machine.advance input config.shared handler).2)
    (free : (locked (machine.advance input config.shared handler).1).Nodup) :
    Guarded guards locked (machine.step config (.resume index input)) := by
  have ledger := owed_resume machine guards config index input handler found
  rw [guarded.held,← balanced] at ledger
  refine ⟨?_,?_⟩
  · rw [add_right_cancel ledger]
    simp only [Machine.step,found]
  · simp only [Machine.step,found]
    exact free

theorem Guarded.arrive (guarded : Guarded guards locked config) {request : ρ} (enters : guards (machine.enter request) = 0) :
    Guarded guards locked (machine.step config (.arrive request)) := by
  refine ⟨?_,guarded.once⟩
  rw [owed_arrive,enters,add_zero]
  exact guarded.held

theorem Guarded.step
    (enters : ∀ request, guards (machine.enter request) = 0)
    (balanced : ∀ input s handler, guards handler ≤ locked s →
      locked (machine.advance input s handler).1 + guards handler =
        locked s + rest guards (machine.advance input s handler).2)
    (free : ∀ input s handler, guards handler ≤ locked s → (locked s).Nodup →
      (locked (machine.advance input s handler).1).Nodup)
    (event : Event ρ ι) (guarded : Guarded guards locked config) : Guarded guards locked (machine.step config event) := by
  cases event with
  | arrive request => exact guarded.arrive (enters request)
  | resume index input =>
    cases found : config.inflight[index]? with
    | none => simpa only [Machine.step,found] using guarded
    | some handler =>
      have held := guarded.le_locked (List.mem_of_getElem? found)
      exact guarded.resume input found (balanced input config.shared handler held)
        (free input config.shared handler held guarded.once)

/-- What an action does to the locks that are taken and to those of its handler: nothing, or it takes a free one,
or it gives all of them back. -/
inductive Locking (locks mine : Multiset κ) : Multiset κ → Multiset κ → Prop
  | keep : Locking locks mine locks mine
  | take (lock : κ) (free : lock ∉ locks) : Locking locks mine (lock ::ₘ locks) (lock ::ₘ mine)
  | leave (after : Multiset κ) (left : after + mine = locks) : Locking locks mine after 0

theorem Locking.balanced {locks mine after left : Multiset κ} (action : Locking locks mine after left) :
    after + mine = locks + left := by
  cases action with
  | keep => rfl
  | take lock free => rw [Multiset.cons_add,Multiset.add_cons]
  | leave after left => rw [left,add_zero]

theorem Locking.nodup {locks mine after left : Multiset κ} (action : Locking locks mine after left) (once : locks.Nodup) :
    after.Nodup := by
  cases action with
  | keep => exact once
  | take lock free => exact Multiset.nodup_cons.mpr ⟨free,once⟩
  | leave after left =>
    rw [← left] at once
    exact Multiset.nodup_of_le (Multiset.le_add_right _ _) once

theorem Guarded.step_locking
    (enters : ∀ request, guards (machine.enter request) = 0)
    (locking : ∀ input s handler, guards handler ≤ locked s →
      Locking (locked s) (guards handler) (locked (machine.advance input s handler).1)
        (rest guards (machine.advance input s handler).2))
    (event : Event ρ ι) (guarded : Guarded guards locked config) : Guarded guards locked (machine.step config event) := by
  refine Guarded.step enters ?_ ?_ event guarded
  · exact fun input s handler held => (locking input s handler held).balanced
  · exact fun input s handler held => (locking input s handler held).nodup

/-- The guards of another handler are taken, and none of them is the acting handler's. -/
def Apart (guards : θ → Multiset κ) (locked : σ → Multiset κ) (s : σ) (handler other : θ) : Prop :=
  guards other ≤ locked s ∧ Disjoint (guards handler) (guards other)

theorem Guarded.acting_apart {condition : ι → σ → θ → Prop} (guarded : Guarded guards locked config)
    (event : Event ρ ι) (meets : Acting condition config event) :
    ActingApart condition (fun _ => Apart guards locked) config event := by
  cases event with
  | arrive request => trivial
  | resume index input =>
    intro handler found
    have once : (owed guards config).Nodup := by
      rw [guarded.held]
      exact guarded.once
    exact ⟨meets handler found,fun other member =>
      ⟨guarded.le_locked (List.mem_of_mem_eraseIdx member),distinct_apart once found member⟩⟩

/-- The same for actions that are apart in another way as well: they know that they hold their locks. -/
theorem Guarded.acting_held {condition : ι → σ → θ → Prop} {apart : ι → σ → θ → θ → Prop} (guarded : Guarded guards locked config)
    (event : Event ρ ι) (meets : ActingApart condition apart config event) :
    ActingApart (fun input s handler => condition input s handler ∧ guards handler ≤ locked s)
      (fun input s handler other => apart input s handler other ∧ Apart guards locked s handler other) config event := by
  cases event with
  | arrive request => trivial
  | resume index input =>
    intro handler found
    obtain ⟨permitted,distant⟩ := meets handler found
    have once : (owed guards config).Nodup := by
      rw [guarded.held]
      exact guarded.once
    refine ⟨⟨permitted,guarded.le_locked (List.mem_of_getElem? found)⟩,fun other member => ⟨distant other member,?_⟩⟩
    exact ⟨guarded.le_locked (List.mem_of_mem_eraseIdx member),distinct_apart once found member⟩

end Guarded

end GrassWorker.Interleaving
