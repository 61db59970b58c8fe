import Mathlib.Data.List.Basic

/-! Database transactions: a computation over a state that either commits the
state it ends in or fails and leaves no trace. `Ensures` is its partial and
`Succeeds` its total postcondition; both are computed through the monad's operations. -/
namespace GrassWorker

abbrev Transaction (σ ε α : Type) := StateT σ (Except ε) α

namespace Transaction
variable {σ ε ε' α β : Type}

/-- Fails with `error` unless the condition holds. -/
def require (condition : Prop) [Decidable condition] (error : ε) : Transaction σ ε Unit :=
  if condition then pure () else throw error

/-- `ok_or`: the value of an option, or the error. -/
def orElse (value : Option α) (error : ε) : Transaction σ ε α :=
  match value with
  | some value => pure value
  | none => throw error

def query (read : σ → α) : Transaction σ ε α := fun s => .ok (read s,s)

def write (change : σ → Option (α × σ)) (error : ε) : Transaction σ ε α := fun s =>
  match change s with
  | some (value,after) => .ok (value,after)
  | none => .error error

def mapError (translate : ε → ε') (transaction : Transaction σ ε α) : Transaction σ ε' α :=
  fun s => (transaction s).mapError translate

/-- The state after the transaction: the one it committed, or the old one when it failed. -/
def commit (transaction : Transaction σ ε α) (s : σ) : σ :=
  match transaction s with
  | .ok (_,after) => after
  | .error _ => s

def Ensures (transaction : Transaction σ ε α) (s : σ) (post : α → σ → Prop) : Prop :=
  ∀ value after, transaction s = .ok (value,after) → post value after

def Succeeds (transaction : Transaction σ ε α) (s : σ) (post : α → σ → Prop) : Prop :=
  ∃ value after, transaction s = .ok (value,after) ∧ post value after

theorem bind_apply (transaction : Transaction σ ε α) (next : α → Transaction σ ε β) (s : σ) :
    (transaction >>= next) s =
      match transaction s with
      | .ok (value,after) => next value after
      | .error error => .error error := by
  change (transaction s >>= fun p => next p.1 p.2) = _
  cases transaction s <;> rfl

theorem pure_apply (value : α) (s : σ) : (pure value : Transaction σ ε α) s = .ok (value,s) := rfl

theorem bind_eq_ok (transaction : Transaction σ ε α) (next : α → Transaction σ ε β) (s : σ)
    (value : β) (after : σ) :
    (transaction >>= next) s = .ok (value,after) ↔
      ∃ between middle, transaction s = .ok (between,middle) ∧ next between middle = .ok (value,after) := by
  rw [bind_apply]
  cases outcome : transaction s with
  | error error => simp
  | ok pair => obtain ⟨between,middle⟩ := pair; simp

section Success
variable {s after : σ} {value : α}

theorem pure_eq_ok (result : α) : (pure result : Transaction σ ε α) s = .ok (value,after) ↔ value = result ∧ after = s := by
  change Except.ok (result,s) = .ok (value,after) ↔ _
  simp [eq_comm]

theorem query_eq_ok (read : σ → α) : (query read : Transaction σ ε α) s = .ok (value,after) ↔ value = read s ∧ after = s := by
  simp [query,eq_comm]

theorem orElse_eq_ok (found : Option α) (error : ε) :
    (orElse found error : Transaction σ ε α) s = .ok (value,after) ↔ found = some value ∧ after = s := by
  cases found with
  | some found =>
    change Except.ok (found,s) = .ok (value,after) ↔ _
    simp [eq_comm]
  | none => simp [orElse,throw,throwThe,MonadExceptOf.throw,StateT.lift,bind,Except.bind]

theorem require_eq_ok (condition : Prop) [Decidable condition] (error : ε) {result : Unit} :
    (require condition error : Transaction σ ε Unit) s = .ok (result,after) ↔ condition ∧ after = s := by
  by_cases holds : condition
  · rw [require,if_pos holds,pure_eq_ok]
    simp [holds]
  · simp [require,holds,throw,throwThe,MonadExceptOf.throw,StateT.lift,bind,Except.bind]

theorem write_eq_ok (change : σ → Option (α × σ)) (error : ε) :
    (write change error : Transaction σ ε α) s = .ok (value,after) ↔ change s = some (value,after) := by
  unfold write
  cases change s <;> simp [Prod.ext_iff]

end Success

section Partial
variable (s : σ) (post : α → σ → Prop)

theorem ensures_of_holds {holds : Prop} (proof : holds) : Ensures transaction s fun _ _ => holds :=
  fun _ _ _ => proof

@[simp] theorem ensures_pure (value : α) :
    Ensures (pure value : Transaction σ ε α) s post ↔ post value s := by
  simp [Ensures,pure_eq_ok]

@[simp] theorem ensures_throw (error : ε) : Ensures (throw error : Transaction σ ε α) s post := by
  intro value after impossible
  cases impossible

@[simp] theorem ensures_bind (transaction : Transaction σ ε β) (next : β → Transaction σ ε α) :
    Ensures (transaction >>= next) s post ↔
      Ensures transaction s fun value after => Ensures (next value) after post := by
  simp only [Ensures,bind_eq_ok]
  constructor
  · intro whole between middle first value after second
    exact whole value after ⟨between,middle,first,second⟩
  · rintro parts value after ⟨between,middle,first,second⟩
    exact parts between middle first value after second

@[simp] theorem ensures_get (post : σ → σ → Prop) :
    Ensures (get : Transaction σ ε σ) s post ↔ post s s := by
  simp [Ensures,get,getThe,MonadStateOf.get,StateT.get,pure,Except.pure]

@[simp] theorem ensures_set (target : σ) (post : PUnit → σ → Prop) :
    Ensures (set target : Transaction σ ε PUnit) s post ↔ post ⟨⟩ target := by
  exact ⟨fun holds => holds _ _ rfl,fun holds value after ok => by cases ok; exact holds⟩

@[simp] theorem ensures_modify (change : σ → σ) (post : PUnit → σ → Prop) :
    Ensures (modify change : Transaction σ ε PUnit) s post ↔ post ⟨⟩ (change s) := by
  simp only [Ensures,modify,modifyGet,MonadStateOf.modifyGet,StateT.modifyGet,pure,Except.pure]
  exact ⟨fun holds => holds _ _ rfl,fun holds value after ok => by cases ok; exact holds⟩

@[simp] theorem ensures_query (read : σ → α) :
    Ensures (query read : Transaction σ ε α) s post ↔ post (read s) s := by
  constructor
  · intro holds
    exact holds _ _ rfl
  · intro holds value after ok
    cases ok
    exact holds

@[simp] theorem ensures_write (change : σ → Option (α × σ)) (error : ε) :
    Ensures (write change error : Transaction σ ε α) s post ↔
      ∀ value after, change s = some (value,after) → post value after := by
  unfold Ensures write
  cases outcome : change s with
  | none => simp
  | some pair => obtain ⟨value,after⟩ := pair; simp

@[simp] theorem ensures_require (condition : Prop) [Decidable condition] (error : ε)
    (post : Unit → σ → Prop) :
    Ensures (require condition error : Transaction σ ε Unit) s post ↔ (condition → post () s) := by
  by_cases holds : condition <;> simp [require,holds]

@[simp] theorem ensures_orElse (value : Option α) (error : ε) :
    Ensures (orElse value error : Transaction σ ε α) s post ↔ ∀ found, value = some found → post found s := by
  cases value <;> simp [orElse]

@[simp] theorem ensures_ofExcept (outcome : Except ε α) :
    Ensures (ofExcept outcome : Transaction σ ε α) s post ↔ ∀ value, outcome = .ok value → post value s := by
  cases outcome with
  | error error => simp [ofExcept]
  | ok value => simp [ofExcept]

@[simp] theorem ensures_mapError (translate : ε → ε') (transaction : Transaction σ ε α) :
    Ensures (mapError translate transaction) s post ↔ Ensures transaction s post := by
  simp only [Ensures,mapError]
  cases transaction s <;> simp [Except.mapError]

theorem ensures_ite {condition : Prop} [Decidable condition] {first second : Transaction σ ε α} :
    Ensures (if condition then first else second) s post ↔
      (condition → Ensures first s post) ∧ (¬condition → Ensures second s post) := by
  by_cases holds : condition <;> simp [holds]

end Partial

theorem Ensures.mono {transaction : Transaction σ ε α} {s : σ} {first second : α → σ → Prop}
    (ensured : Ensures transaction s first)
    (weaker : ∀ value after, first value after → second value after) : Ensures transaction s second :=
  fun value after ok => weaker value after (ensured value after ok)

theorem ensures_forM {items : List β} {body : β → Transaction σ ε PUnit} {s : σ}
    (invariant : σ → Prop) (start : invariant s)
    (kept : ∀ item ∈ items, ∀ state, invariant state → Ensures (body item) state fun _ => invariant) :
    Ensures (forM items body) s fun _ => invariant := by
  induction items generalizing s with
  | nil => simpa [List.forM_nil] using start
  | cons item items ih =>
    rw [List.forM_cons,ensures_bind]
    exact (kept item List.mem_cons_self s start).mono fun _ after holds =>
      ih holds fun other member => kept other (List.mem_cons_of_mem _ member)

theorem commit_ensures {transaction : Transaction σ ε α} {s : σ} {post : α → σ → Prop}
    (ensured : Ensures transaction s post) :
    commit transaction s = s ∨ ∃ value, post value (commit transaction s) := by
  unfold commit
  cases outcome : transaction s with
  | error error => exact .inl rfl
  | ok pair => exact .inr ⟨pair.1,ensured pair.1 pair.2 outcome⟩

section Total
variable (s : σ) (post : α → σ → Prop)

@[simp] theorem succeeds_pure (value : α) :
    Succeeds (pure value : Transaction σ ε α) s post ↔ post value s := by
  constructor
  · rintro ⟨_,_,ok,holds⟩
    cases ok
    exact holds
  · exact fun holds => ⟨value,s,rfl,holds⟩

@[simp] theorem succeeds_bind (transaction : Transaction σ ε β) (next : β → Transaction σ ε α) :
    Succeeds (transaction >>= next) s post ↔
      Succeeds transaction s fun value after => Succeeds (next value) after post := by
  simp only [Succeeds,bind_eq_ok]
  constructor
  · rintro ⟨value,after,⟨between,middle,first,second⟩,holds⟩
    exact ⟨between,middle,first,value,after,second,holds⟩
  · rintro ⟨between,middle,first,value,after,second,holds⟩
    exact ⟨value,after,⟨between,middle,first,second⟩,holds⟩

@[simp] theorem succeeds_get (post : σ → σ → Prop) :
    Succeeds (get : Transaction σ ε σ) s post ↔ post s s := by
  simp [Succeeds,get,getThe,MonadStateOf.get,StateT.get,pure,Except.pure]

@[simp] theorem succeeds_modify (change : σ → σ) (post : PUnit → σ → Prop) :
    Succeeds (modify change : Transaction σ ε PUnit) s post ↔ post ⟨⟩ (change s) := by
  simp only [Succeeds,modify,modifyGet,MonadStateOf.modifyGet,StateT.modifyGet,pure,Except.pure]
  exact ⟨fun ⟨_,_,ok,holds⟩ => by cases ok; exact holds,fun holds => ⟨_,_,rfl,holds⟩⟩

@[simp] theorem succeeds_query (read : σ → α) :
    Succeeds (query read : Transaction σ ε α) s post ↔ post (read s) s := by
  simp [Succeeds,query]

@[simp] theorem succeeds_write (change : σ → Option (α × σ)) (error : ε) :
    Succeeds (write change error : Transaction σ ε α) s post ↔
      ∃ value after, change s = some (value,after) ∧ post value after := by
  unfold Succeeds write
  cases outcome : change s with
  | none => simp
  | some pair => obtain ⟨value,after⟩ := pair; simp

@[simp] theorem succeeds_require (condition : Prop) [Decidable condition] (error : ε)
    (post : Unit → σ → Prop) :
    Succeeds (require condition error : Transaction σ ε Unit) s post ↔ condition ∧ post () s := by
  by_cases holds : condition
  · simp [require,holds]
  · simp [require,holds,Succeeds,throw,throwThe,MonadExceptOf.throw,StateT.lift,bind,Except.bind]

@[simp] theorem succeeds_orElse (value : Option α) (error : ε) :
    Succeeds (orElse value error : Transaction σ ε α) s post ↔ ∃ found, value = some found ∧ post found s := by
  cases value with
  | some found => simp [orElse]
  | none => simp [orElse,Succeeds,throw,throwThe,MonadExceptOf.throw,StateT.lift,bind,Except.bind]

@[simp] theorem succeeds_ofExcept (outcome : Except ε α) :
    Succeeds (ofExcept outcome : Transaction σ ε α) s post ↔ ∃ value, outcome = .ok value ∧ post value s := by
  cases outcome with
  | error error => simp [ofExcept,Succeeds,throw,throwThe,MonadExceptOf.throw,StateT.lift,bind,Except.bind]
  | ok value => simp [ofExcept]

@[simp] theorem succeeds_mapError (translate : ε → ε') (transaction : Transaction σ ε α) :
    Succeeds (mapError translate transaction) s post ↔ Succeeds transaction s post := by
  simp only [Succeeds,mapError]
  cases transaction s <;> simp [Except.mapError]

end Total

theorem Succeeds.mono {transaction : Transaction σ ε α} {s : σ} {first second : α → σ → Prop}
    (succeeded : Succeeds transaction s first)
    (weaker : ∀ value after, first value after → second value after) : Succeeds transaction s second := by
  obtain ⟨value,after,ok,holds⟩ := succeeded
  exact ⟨value,after,ok,weaker value after holds⟩

theorem Succeeds.and_ensures {transaction : Transaction σ ε α} {s : σ} {first second : α → σ → Prop}
    (succeeded : Succeeds transaction s first) (ensured : Ensures transaction s second) :
    Succeeds transaction s fun value after => first value after ∧ second value after := by
  obtain ⟨value,after,ok,holds⟩ := succeeded
  exact ⟨value,after,ok,holds,ensured value after ok⟩

end Transaction
end GrassWorker
