import GrassWorker.Features.Routes
import Mathlib.Data.List.Forall2

/-! The route table of a node, which takes a snapshot whole or not at all. -/
namespace GrassWorker.RouteTable
open Routes Validator

structure RouteSnapshot where
  revision : Option String := none
  routes : List (String × ServeRoute) := []

def collect : List (String × ServeRoute) → List ServeRoute → Except String (List (String × ServeRoute))
  | table,[] => .ok table
  | table,route :: rest =>
    match normalizeHost route.host with
    | .error error => .error ("invalid route host " ++ route.host ++ ": " ++ error.message)
    | .ok host =>
      if (table.lookup host).isSome then .error ("route snapshot contains duplicate host " ++ host)
      else collect ((host,{ route with host }) :: table) rest

def apply (current : RouteSnapshot) (revision : String) (routes : List ServeRoute) :
    Except String (RouteSnapshot × Bool) :=
  if current.revision = some revision then .ok (current,false)
  else do
    let routes ← collect [] routes
    return ({ revision := some revision, routes },true)

def Distinct (routes : List ServeRoute) : Prop :=
  ∃ hosts, List.Forall₂ (fun route host => normalizeHost route.host = .ok host) routes hosts ∧ hosts.Nodup

section Apply
variable {table : List (String × ServeRoute)} {routes : List ServeRoute}

theorem collect_ok_iff : (∃ after, collect table routes = .ok after) ↔
    ∃ hosts, List.Forall₂ (fun route host => normalizeHost route.host = .ok host) routes hosts ∧ hosts.Nodup ∧
      ∀ host ∈ hosts, table.lookup host = none := by
  induction routes generalizing table with
  | nil => simp [collect]
  | cons route rest ih =>
    unfold collect
    cases normal : normalizeHost route.host with
    | error problem =>
      simp only [reduceCtorEq,exists_false,false_iff]
      intro found
      obtain ⟨hosts,same,_⟩ := found
      cases same with
      | cons first _ =>
        rw [normal] at first
        cases first
    | ok host =>
      simp only
      by_cases held : (table.lookup host).isSome
      · simp only [held,if_true,reduceCtorEq,exists_false,false_iff]
        intro found
        obtain ⟨hosts,same,_,free⟩ := found
        cases same with
        | cons first _ =>
          rw [normal] at first
          cases first
          rw [free host List.mem_cons_self] at held
          cases held
      · rw [if_neg held,ih]
        have absent : table.lookup host = none := Option.not_isSome_iff_eq_none.mp held
        constructor
        · intro found
          obtain ⟨hosts,same,distinct,free⟩ := found
          have fresh : host ∉ hosts := by
            intro inside
            have impossible := free host inside
            rw [List.lookup_cons_self] at impossible
            cases impossible
          refine ⟨host :: hosts,.cons normal same,List.nodup_cons.mpr ⟨fresh,distinct⟩,?_⟩
          intro other inside
          rcases List.mem_cons.mp inside with rfl | later
          · exact absent
          · have different : other ≠ host := fun equal => fresh (equal ▸ later)
            have free := free other later
            rwa [List.lookup_cons,beq_eq_false_iff_ne.mpr different] at free
        · intro found
          obtain ⟨hosts,same,distinct,free⟩ := found
          cases same with
          | cons first same =>
            rw [normal] at first
            cases first
            obtain ⟨fresh,distinct⟩ := List.nodup_cons.mp distinct
            refine ⟨_,same,distinct,?_⟩
            intro other inside
            have different : other ≠ host := fun equal => fresh (equal ▸ inside)
            rw [List.lookup_cons,beq_eq_false_iff_ne.mpr different]
            exact free other (List.mem_cons_of_mem _ inside)

/-- A snapshot with a new revision is taken exactly when its hosts are well formed and distinct. -/
theorem apply_ok_iff {current : RouteSnapshot} {revision : String} (fresh : current.revision ≠ some revision) :
    (∃ outcome, apply current revision routes = .ok outcome) ↔ Distinct routes := by
  have collected : (∃ after, collect [] routes = .ok after) ↔ Distinct routes := by
    rw [collect_ok_iff]
    simp [Distinct]
  rw [← collected]
  unfold apply
  rw [if_neg fresh]
  cases collect [] routes <;> simp [bind,Except.bind,pure,Except.pure]

theorem distinct_of_normal (normal : ∀ route ∈ routes, normalizeHost route.host = .ok route.host)
    (distinct : (routes.map ServeRoute.host).Nodup) : Distinct routes :=
  ⟨routes.map ServeRoute.host,List.forall₂_map_right_iff.mpr (List.forall₂_same.mpr normal),distinct⟩

end Apply

end GrassWorker.RouteTable
