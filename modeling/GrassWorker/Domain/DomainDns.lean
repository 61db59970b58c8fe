import GrassWorker.Domain.DomainOnboarding
import GrassWorker.Foundations.IpAddr
import GrassWorker.Foundations.Saturation
import Mathlib.Data.Finset.Lattice.Basic
import Mathlib.Logic.Relation

/-! Whether a customer's domain points to the regional entry it was given: the addresses of a name and
the walk along its CNAME records. The public resolver is a parameter, with the errors it can give. -/
namespace GrassWorker.DomainDns
open Validator DomainOnboarding Saturation Relation

abbrev Text := List Char

inductive RecordType
  | a | aaaa | cname
deriving DecidableEq, Repr

structure Answer where
  name : Text
  kind : Nat
  data : Text
deriving DecidableEq

abbrev Resolver := Text → RecordType → Except String (List Answer)

def canonical (name : Text) : Text := (trimEnd '.' name).map toAsciiLowercase

def insertLink (names : Finset Text) (answer : Answer) : Finset Text :=
  if answer.kind = 5 ∧ canonical answer.name ∈ names then insert (canonical answer.data) names else names

def insertLinks (answers : List Answer) (names : Finset Text) : Finset Text := answers.foldl insertLink names

def names (answers : List Answer) (name : Text) : Finset Text := saturate (insertLinks answers) 16 {canonical name}

def found (answers : List Answer) (names : Finset Text) : Finset IpAddr :=
  ((answers.filter fun answer => (answer.kind = 1 ∨ answer.kind = 28) ∧ canonical answer.name ∈ names).filterMap
    fun answer => IpAddr.parse answer.data).toFinset

section Resolver
variable (resolver : Resolver)

def addresses (name : Text) : Except String (Finset IpAddr) := do
  let v4 ← resolver name .a
  let v6 ← resolver name .aaaa
  return found (v4 ++ v6) (names (v4 ++ v6) name)

def link (cursor : Text) : Except String (Option Text) := do
  let answers ← resolver cursor .cname
  return (answers.find? fun answer => answer.kind = 5 ∧ canonical answer.name = cursor).map fun answer => canonical answer.data

def compare (expected actual : Finset IpAddr) : ConnectionState :=
  if actual = ∅ then .unresolved else if actual ⊆ expected then .ready else .mismatch

section Walk
variable (host target : Text) (expected : Finset IpAddr)

/-- The loop of `connection`: the names whose CNAME it asks for, and what it returns. -/
def walk : Nat → Finset Text → Text → Bool → List Text × Except String ConnectionState
  | 0,_,_,_ => ([],.error "DNS CNAME chain exceeds 16 links")
  | rounds + 1,seen,cursor,hadCname =>
    if cursor ∈ seen then ([],.error "DNS CNAME chain contains a loop")
    else
      match link resolver cursor with
      | .error error => ([cursor],.error error)
      | .ok none => ([cursor],if hadCname then .ok .mismatch else (addresses resolver host).map (compare expected))
      | .ok (some next) =>
        if next = target then ([cursor],(addresses resolver host).map (compare expected))
        else
          let rest := walk rounds (insert cursor seen) next true
          (cursor :: rest.1,rest.2)

end Walk

def connection (host target : Text) : List Text × Except String ConnectionState :=
  match addresses resolver target with
  | .error error => ([],.error error)
  | .ok expected =>
    if expected = ∅ then ([],.ok .entryUnavailable)
    else walk resolver host (canonical target) expected 16 ∅ (canonical host) false

end Resolver

section Names

def Link (answers : List Answer) (owner target : Text) : Prop :=
  ∃ answer ∈ answers, answer.kind = 5 ∧ canonical answer.name = owner ∧ canonical answer.data = target

def targets (answers : List Answer) : Finset Text :=
  ((answers.filter fun answer => answer.kind = 5).map fun answer => canonical answer.data).toFinset

variable {answers : List Answer} {names' : Finset Text}

theorem subset_insertLink (answer : Answer) : names' ⊆ insertLink names' answer := by
  unfold insertLink
  split
  · exact Finset.subset_insert _ _
  · exact Finset.Subset.refl _

theorem subset_insertLinks : names' ⊆ insertLinks answers names' := by
  induction answers generalizing names' with
  | nil => exact Finset.Subset.refl _
  | cons answer answers ih => exact (subset_insertLink answer).trans ih

theorem mem_insertLinks_of_link {owner target : Text} (linked : Link answers owner target) (member : owner ∈ names') :
    target ∈ insertLinks answers names' := by
  obtain ⟨answer,inside,cname,rfl,rfl⟩ := linked
  induction answers generalizing names' with
  | nil => cases inside
  | cons head answers ih =>
    rcases List.mem_cons.mp inside with rfl | later
    · have added : canonical answer.data ∈ insertLink names' answer := by
        rw [insertLink,if_pos ⟨cname,member⟩]
        exact Finset.mem_insert_self _ _
      exact (subset_insertLinks : insertLink names' answer ⊆ insertLinks answers (insertLink names' answer)) added
    · exact ih later (subset_insertLink head member)

/-- A set that contains the names and is closed under the links contains what a round makes of them. -/
theorem insertLinks_subset {closed : Finset Text} (links : ∀ owner target, Link answers owner target → owner ∈ closed → target ∈ closed)
    (inside : names' ⊆ closed) : insertLinks answers names' ⊆ closed := by
  induction answers generalizing names' with
  | nil => exact inside
  | cons answer answers ih =>
    refine ih (fun owner target linked => links owner target ?_) ?_
    · obtain ⟨answer,member,rest⟩ := linked
      exact ⟨answer,List.mem_cons_of_mem _ member,rest⟩
    · unfold insertLink
      split
      · rename_i holds
        exact Finset.insert_subset (links _ _ ⟨answer,List.mem_cons_self,holds.1,rfl,rfl⟩ (inside holds.2)) inside
      · exact inside

theorem reaches_of_mem_insertLinks {start : Text} (reached : ∀ name ∈ names', ReflTransGen (Link answers) start name) :
    ∀ name ∈ insertLinks answers names', ReflTransGen (Link answers) start name := by
  have rounds : ∀ rest, (∀ answer ∈ rest, answer ∈ answers) → ∀ names', (∀ name ∈ names', ReflTransGen (Link answers) start name) →
      ∀ name ∈ insertLinks rest names', ReflTransGen (Link answers) start name := by
    intro rest
    induction rest with
    | nil => exact fun _ _ reached => reached
    | cons answer rest ih =>
      intro within names' reached
      refine ih (fun other member => within other (List.mem_cons_of_mem _ member)) _ ?_
      unfold insertLink
      split
      · rename_i holds
        intro name member
        rcases Finset.mem_insert.mp member with rfl | old
        · exact (reached _ holds.2).tail ⟨answer,within answer List.mem_cons_self,holds.1,rfl,rfl⟩
        · exact reached name old
      · exact reached
  exact rounds answers (fun _ member => member) names' reached

theorem reaches_of_mem_names {name reached : Text} (member : reached ∈ names answers name) :
    ReflTransGen (Link answers) (canonical name) reached := by
  refine saturate_invariant (fun names' => ∀ other ∈ names', ReflTransGen (Link answers) (canonical name) other)
    (fun _ => reaches_of_mem_insertLinks) 16 ?_ reached member
  intro other start
  rw [Finset.mem_singleton.mp start]

/-- With at most 16 CNAME answers the rounds find every name that is reached. -/
theorem mem_names_of_reaches (few : answers.countP (fun answer => answer.kind = 5) ≤ 16) {name reached : Text}
    (reaches : ReflTransGen (Link answers) (canonical name) reached) : reached ∈ names answers name := by
  have fixed : insertLinks answers (names answers name) = names answers name := by
    refine grow_saturate (insert (canonical name) (targets answers)) (fun _ => subset_insertLinks) ?_ 16 ?_ ?_
    · refine fun names' inside => insertLinks_subset (fun owner target linked _ => ?_) inside
      obtain ⟨answer,member,cname,_,rfl⟩ := linked
      refine Finset.mem_insert_of_mem (List.mem_toFinset.mpr (List.mem_map.mpr ⟨answer,?_,rfl⟩))
      exact List.mem_filter.mpr ⟨member,decide_eq_true cname⟩
    · exact Finset.singleton_subset_iff.mpr (Finset.mem_insert_self _ _)
    · have bounded : (targets answers).card ≤ answers.countP fun answer => answer.kind = 5 := by
        refine (List.toFinset_card_le _).trans ?_
        rw [List.length_map,List.countP_eq_length_filter]
      have one := Finset.card_insert_le (canonical name) (targets answers)
      rw [Finset.card_singleton]
      omega
  induction reaches with
  | refl =>
    refine saturate_invariant (fun names' => canonical name ∈ names') ?_ 16 (Finset.mem_singleton_self _)
    exact fun _ member => subset_insertLinks member
  | tail _ linked ih =>
    rw [← fixed]
    exact mem_insertLinks_of_link linked ih

end Names

theorem mem_found {answers : List Answer} {names' : Finset Text} {ip : IpAddr} :
    ip ∈ found answers names' ↔ ∃ answer ∈ answers, (answer.kind = 1 ∨ answer.kind = 28) ∧ canonical answer.name ∈ names' ∧
      IpAddr.parse answer.data = some ip := by
  simp only [found,List.mem_toFinset,List.mem_filterMap,List.mem_filter,decide_eq_true_eq,and_assoc]

/-- The addresses of a name are those of its answers whose owner is reached from it; with at most 16 CNAME answers,
all of these. -/
theorem mem_addresses {resolver : Resolver} {name : Text} {v4 v6 : List Answer} {ips : Finset IpAddr}
    (first : resolver name .a = .ok v4) (second : resolver name .aaaa = .ok v6) (done : addresses resolver name = .ok ips) {ip : IpAddr} :
    let Owned := ∃ answer ∈ v4 ++ v6, (answer.kind = 1 ∨ answer.kind = 28) ∧ IpAddr.parse answer.data = some ip ∧
      ReflTransGen (Link (v4 ++ v6)) (canonical name) (canonical answer.name)
    (ip ∈ ips → Owned) ∧ ((v4 ++ v6).countP (fun answer => answer.kind = 5) ≤ 16 → Owned → ip ∈ ips) := by
  have result : found (v4 ++ v6) (names (v4 ++ v6) name) = ips := by
    simpa only [addresses,first,second,bind,Except.bind,pure,Except.pure,Except.ok.injEq] using done
  subst result
  simp only [mem_found]
  refine ⟨?_,?_⟩
  · rintro ⟨answer,member,kind,owner,parsed⟩
    exact ⟨answer,member,kind,parsed,reaches_of_mem_names owner⟩
  · rintro few ⟨answer,member,kind,parsed,reaches⟩
    exact ⟨answer,member,kind,mem_names_of_reaches few reaches,parsed⟩

/-- A CNAME in other letters and with a final dot leads on to the address behind it. -/
theorem addresses_behind_cname :
    let answers : List Answer := [⟨"www.shop".toList,5,"Entry.".toList⟩,⟨"entry".toList,1,"192.0.2.7".toList⟩]
    let resolver : Resolver := fun _ recordType => .ok (if recordType = .a then answers else [])
    ∃ ips, addresses resolver "WWW.shop".toList = .ok ips ∧ IpAddr.v4 ⟨192,0,2,7⟩ ∈ ips := by
  intro answers resolver
  have few : (answers ++ []).countP (fun answer : Answer => answer.kind = 5) ≤ 16 := by decide
  have linked : Link (answers ++ []) (canonical "WWW.shop".toList) (canonical "entry".toList) :=
    ⟨⟨"www.shop".toList,5,"Entry.".toList⟩,List.mem_cons_self,rfl,by decide,by decide⟩
  have address : (⟨"entry".toList,1,"192.0.2.7".toList⟩ : Answer) ∈ answers ++ [] := List.mem_cons_of_mem _ List.mem_cons_self
  have first : resolver "WWW.shop".toList .a = .ok answers := rfl
  have second : resolver "WWW.shop".toList .aaaa = .ok [] := rfl
  exact ⟨_,rfl,(mem_addresses first second rfl).2 few ⟨_,address,.inl rfl,by decide,.single linked⟩⟩

/-- The CNAME records lead from the first name over the listed ones to the last. -/
inductive Chain (resolver : Resolver) : Text → List Text → Text → Prop
  | nil (name : Text) : Chain resolver name [] name
  | cons {name next last : Text} {names : List Text} (linked : link resolver name = .ok (some next))
      (rest : Chain resolver next names last) : Chain resolver name (name :: names) last

section Walk
variable {resolver : Resolver} {host target cursor : Text} {expected : Finset IpAddr} {rounds : Nat} {seen : Finset Text}
  {hadCname : Bool}

/-- A chain of at most so many links, none from a name seen before or twice, ends at the target. -/
def Leads (resolver : Resolver) (target : Text) (rounds : Nat) (seen : Finset Text) (cursor : Text) : Prop :=
  ∃ names, Chain resolver cursor names target ∧ names ≠ [] ∧ names.length ≤ rounds ∧ names.Nodup ∧ ∀ name ∈ names, name ∉ seen

theorem leads_succ {next : Text} (linked : link resolver cursor = .ok (some next)) (fresh : cursor ∉ seen) :
    Leads resolver target (rounds + 1) seen cursor ↔ next = target ∨ Leads resolver target rounds (insert cursor seen) next := by
  constructor
  · rintro ⟨names,chain,some',short,distinct,apart⟩
    cases chain with
    | nil => exact absurd rfl some'
    | cons linked' rest =>
      rw [linked] at linked'
      cases linked'
      obtain ⟨once,distinct⟩ := List.nodup_cons.mp distinct
      cases rest with
      | nil => exact .inl rfl
      | cons linked' rest =>
        refine .inr ⟨_,.cons linked' rest,List.cons_ne_nil _ _,Nat.le_of_succ_le_succ short,distinct,?_⟩
        intro name member inside
        rcases Finset.mem_insert.mp inside with rfl | old
        · exact once member
        · exact apart name (List.mem_cons_of_mem _ member) old
  · rintro (rfl | ⟨names,chain,_,short,distinct,apart⟩)
    · refine ⟨[cursor],.cons linked (.nil _),List.cons_ne_nil _ _,Nat.succ_le_succ (Nat.zero_le _),List.nodup_singleton _,?_⟩
      intro name member
      rwa [List.mem_singleton.mp member]
    · have once : cursor ∉ names := fun member => apart cursor member (Finset.mem_insert_self _ _)
      refine ⟨cursor :: names,.cons linked chain,List.cons_ne_nil _ _,Nat.succ_le_succ short,List.nodup_cons.mpr ⟨once,distinct⟩,?_⟩
      intro name member inside
      rcases List.mem_cons.mp member with rfl | later
      · exact fresh inside
      · exact apart name later (Finset.mem_insert_of_mem inside)

/-- The records lead to the target, or the first name of the walk has no CNAME at all. -/
def Points (resolver : Resolver) (target : Text) (rounds : Nat) (seen : Finset Text) (cursor : Text) (hadCname : Bool) : Prop :=
  Leads resolver target rounds seen cursor ∨
    hadCname = false ∧ 0 < rounds ∧ cursor ∉ seen ∧ link resolver cursor = .ok none

theorem not_leads_of_link (unlinked : ∀ next, link resolver cursor ≠ .ok (some next)) :
    ¬Leads resolver target rounds seen cursor := by
  rintro ⟨names,chain,some',_⟩
  cases chain with
  | nil => exact some' rfl
  | cons linked _ => exact unlinked _ linked

/-- Where the records point to the target the addresses decide; elsewhere the walk ends in a mismatch or an error. -/
theorem walk_decides : (Points resolver target rounds seen cursor hadCname →
      (walk resolver host target expected rounds seen cursor hadCname).2 = (addresses resolver host).map (compare expected)) ∧
    (¬Points resolver target rounds seen cursor hadCname →
      (walk resolver host target expected rounds seen cursor hadCname).2 = .ok .mismatch ∨
        ∃ error, (walk resolver host target expected rounds seen cursor hadCname).2 = .error error) := by
  induction rounds generalizing seen cursor hadCname with
  | zero =>
    refine ⟨?_,fun _ => .inr ⟨_,rfl⟩⟩
    rintro (⟨names,_,some',short,_⟩ | ⟨_,positive,_⟩)
    · exact absurd (List.eq_nil_of_length_eq_zero (Nat.le_zero.mp short)) some'
    · omega
  | succ rounds ih =>
    rw [walk]
    by_cases before : cursor ∈ seen
    · rw [if_pos before]
      refine ⟨?_,fun _ => .inr ⟨_,rfl⟩⟩
      rintro (⟨names,chain,some',_,_,apart⟩ | ⟨_,_,fresh,_⟩)
      · cases chain with
        | nil => exact absurd rfl some'
        | cons _ _ => exact absurd before (apart cursor List.mem_cons_self)
      · exact absurd before fresh
    · rw [if_neg before]
      cases linked : link resolver cursor with
      | error error =>
        refine ⟨?_,fun _ => .inr ⟨_,rfl⟩⟩
        rintro (leads | ⟨_,_,_,none'⟩)
        · exact absurd leads (not_leads_of_link (by simp [linked]))
        · rw [linked] at none'
          cases none'
      | ok next =>
        cases next with
        | none =>
          have unlinked : ¬Leads resolver target (rounds + 1) seen cursor := not_leads_of_link (by simp [linked])
          cases hadCname with
          | false => exact ⟨fun _ => rfl,fun points => absurd (.inr ⟨rfl,Nat.succ_pos _,before,linked⟩) points⟩
          | true =>
            refine ⟨?_,fun _ => .inl rfl⟩
            rintro (leads | ⟨first,_⟩)
            · exact absurd leads unlinked
            · cases first
        | some next =>
          have points : Points resolver target (rounds + 1) seen cursor hadCname ↔
              next = target ∨ Points resolver target rounds (insert cursor seen) next true := by
            simp only [Points,leads_succ linked before,linked,reduceCtorEq,Except.ok.injEq,and_false,false_and,or_false]
          dsimp only
          by_cases there : next = target
          · rw [if_pos there]
            exact ⟨fun _ => rfl,fun away => absurd (points.mpr (.inl there)) away⟩
          · rw [if_neg there,points]
            refine ⟨fun reached => ih.1 (reached.resolve_left there),fun away => ih.2 fun later => away (.inr later)⟩

/-- Each name is asked for once, and none that was seen before. -/
theorem walk_asks : (walk resolver host target expected rounds seen cursor hadCname).1.length ≤ rounds ∧
    (walk resolver host target expected rounds seen cursor hadCname).1.Nodup ∧
    ∀ name ∈ (walk resolver host target expected rounds seen cursor hadCname).1, name ∉ seen := by
  induction rounds generalizing seen cursor hadCname with
  | zero => simp [walk]
  | succ rounds ih =>
    rw [walk]
    by_cases before : cursor ∈ seen
    · simp [before]
    · rw [if_neg before]
      cases linked : link resolver cursor with
      | error error => simpa using before
      | ok next =>
        cases next with
        | none => simpa using before
        | some next =>
          dsimp only
          split
          · simpa using before
          · obtain ⟨short,distinct,apart⟩ := @ih next (insert cursor seen) true
            refine ⟨Nat.succ_le_succ short,List.nodup_cons.mpr ⟨fun again => apart cursor again (Finset.mem_insert_self _ _),distinct⟩,?_⟩
            intro name member inside
            rcases List.mem_cons.mp member with rfl | later
            · exact before inside
            · exact apart name later (Finset.mem_insert_of_mem inside)

end Walk

/-- What a domain has to do to be connected: its records lead to the entry in at most 16 links without a name
repeated, or it has no CNAME. -/
def Connected (resolver : Resolver) (host target : Text) : Prop :=
  Points resolver (canonical target) 16 ∅ (canonical host) false

/-- A domain is ready exactly if its records point to the entry and its addresses are some of the entry's, and at most
16 names are asked for. -/
theorem connection_decides (resolver : Resolver) (host target : Text) :
    (connection resolver host target).1.length ≤ 16 ∧ (connection resolver host target).1.Nodup ∧
    ((connection resolver host target).2 = .ok .ready ↔ Connected resolver host target ∧ ∃ expected actual,
      addresses resolver target = .ok expected ∧ addresses resolver host = .ok actual ∧ actual ≠ ∅ ∧ actual ⊆ expected) ∧
    ((connection resolver host target).2 = .ok .unresolved ↔ Connected resolver host target ∧
      (∃ expected, addresses resolver target = .ok expected ∧ expected ≠ ∅) ∧ addresses resolver host = .ok ∅) ∧
    ((connection resolver host target).2 = .ok .entryUnavailable ↔ addresses resolver target = .ok ∅) := by
  unfold connection
  cases asked : addresses resolver target with
  | error error => simp
  | ok expected =>
    by_cases none' : expected = ∅
    · subst none'
      simp +contextual [Finset.subset_empty]
    · have walked := @walk_decides resolver host (canonical target) (canonical host) expected 16 ∅ false
      obtain ⟨short,distinct,_⟩ := @walk_asks resolver host (canonical target) (canonical host) expected 16 ∅ false
      dsimp only
      rw [if_neg none']
      refine ⟨short,distinct,?_⟩
      by_cases points : Connected resolver host target
      · rw [walked.1 points]
        cases own : addresses resolver host with
        | error error => simp [Except.map,none']
        | ok actual =>
          by_cases empty : actual = ∅
          · simp [Except.map,compare,empty,none',points]
          · by_cases inside : actual ⊆ expected <;> simp [Except.map,compare,empty,none',points,inside]
      · rcases walked.2 points with outcome | ⟨error,outcome⟩ <;> simp [outcome,points,none']

end GrassWorker.DomainDns
