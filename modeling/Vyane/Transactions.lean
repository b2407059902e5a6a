import Mathlib

/-!
Transactions: computations that read and change a state and may abort, which leaves the state as it was. What a
transaction guarantees is the weakest precondition `Ensures`; the rules follow the ways transactions are put together.
-/
namespace Vyane.Transactions
/-- A composition of fallible results succeeds when both parts do. -/
theorem bind_eq_ok {ε α β : Type} {x : Except ε α} {f : α → Except ε β} {value : β} :
    (x >>= f) = .ok value ↔ ∃ first, x = .ok first ∧ f first = .ok value := by
  cases x <;> simp [bind,Except.bind]
/-- A check before the rest has to pass. -/
theorem then_eq_ok {ε β : Type} {x : Except ε Unit} {f : Unit → Except ε β} {value : β} :
    (x >>= f) = .ok value ↔ x = .ok () ∧ f () = .ok value := by
  cases x <;> simp [bind,Except.bind]
theorem check_mapError_eq_ok {ε ε' α : Type} {f : ε → ε'} {checked : Except ε α} {value : α} :
    checked.mapError f = .ok value ↔ checked = .ok value := by
  cases checked <;> simp [Except.mapError]

/-- A successful `mapM` returns something for each of its items. -/
theorem mapM_eq_ok_of_mem {ε α β : Type} {f : α → Except ε β} {items : List α} {results : List β}
    (mapped : items.mapM f = .ok results) {item : α} (member : item ∈ items) :
    ∃ result ∈ results, f item = .ok result := by
  induction items generalizing results with
  | nil => cases member
  | cons head rest ih =>
    rw [List.mapM_cons] at mapped
    obtain ⟨first,image,mapped⟩ := bind_eq_ok.mp mapped
    obtain ⟨others,there,mapped⟩ := bind_eq_ok.mp mapped
    cases mapped
    rcases List.mem_cons.mp member with rfl | later
    · exact ⟨first,List.mem_cons_self,image⟩
    · obtain ⟨result,listed,made⟩ := ih there later
      exact ⟨result,List.mem_cons_of_mem _ listed,made⟩

/-- What each step of a loop that may fail keeps, the whole loop keeps. -/
theorem foldlM_invariant {ε α σ : Type} {f : σ → α → Except ε σ} {items : List α} (invariant : List α → σ → Prop)
    (step : ∀ done item state next, item ∈ items → invariant done state → f state item = .ok next →
      invariant (done ++ [item]) next) :
    ∀ {state next : σ}, invariant [] state → items.foldlM f state = .ok next → invariant items next := by
  induction items using List.reverseRecOn with
  | nil =>
    intro state next holds ran
    cases ran
    exact holds
  | append_singleton items item ih =>
    intro state next holds ran
    rw [List.foldlM_append] at ran
    obtain ⟨between,before,last⟩ := bind_eq_ok.mp ran
    obtain ⟨after,last,same⟩ := bind_eq_ok.mp last
    cases same
    have held := ih (fun done item state next member =>
      step done item state next (List.mem_append_left _ member)) holds before
    exact step items item between next (by simp) held last

/-- A computation inside a transaction. -/
abbrev Tx (ε σ α : Type) : Type := StateT σ (Except ε) α

namespace Tx
variable {ε σ α β : Type}

/-- Goes on only under a condition. -/
def require (condition : Bool) (error : ε) : Tx ε σ Unit := if condition then pure () else throw error
/-- The value of an option that has to have one. -/
def required (error : ε) : Option α → Tx ε σ α
  | some value => pure value
  | none => throw error
/-- A result that does not depend on the state. -/
def check : Except ε α → Tx ε σ α
  | .ok value => pure value
  | .error error => throw error

/-- What holds when `x` runs from `s`: `post` of its value and its final state if
    it returns, `fail` of its error if it aborts. -/
def Ensures (x : Tx ε σ α) (s : σ) (post : α → σ → Prop) (fail : ε → Prop) : Prop :=
  match x s with
  | .ok (value,after) => post value after
  | .error error => fail error

section rules
variable {x : Tx ε σ α} {s : σ} {post : α → σ → Prop} {fail : ε → Prop} {f : α → Tx ε σ β} {post' : α → σ → Prop}

@[simp] theorem ensures_pure (value : α) : Ensures (pure value : Tx ε σ α) s post fail ↔ post value s := Iff.rfl
@[simp] theorem ensures_throw (error : ε) : Ensures (throw error : Tx ε σ α) s post fail ↔ fail error := Iff.rfl
@[simp] theorem ensures_get {post : σ → σ → Prop} : Ensures (get : Tx ε σ σ) s post fail ↔ post s s := Iff.rfl
@[simp] theorem ensures_set {post : PUnit → σ → Prop} (after : σ) :
    Ensures (set after : Tx ε σ PUnit) s post fail ↔ post ⟨⟩ after := Iff.rfl

theorem ensures_bind {post : β → σ → Prop} :
    Ensures (x >>= f) s post fail ↔ Ensures x s (fun value after => Ensures (f value) after post fail) fail := by
  simp only [Ensures,bind,StateT.bind,Except.bind]
  cases x s <;> rfl

theorem ensures_map {f : α → β} {post : β → σ → Prop} :
    Ensures (f <$> x) s post fail ↔ Ensures x s (fun value after => post (f value) after) fail := by
  rw [map_eq_pure_bind,ensures_bind]
  rfl

@[simp] theorem ensures_require (condition : Bool) (error : ε) {post : Unit → σ → Prop} :
    Ensures (require condition error : Tx ε σ Unit) s post fail ↔
      (condition = true → post () s) ∧ (condition = false → fail error) := by
  cases condition <;> simp [require]

@[simp] theorem ensures_required_some (error : ε) (value : α) :
    Ensures (required error (some value) : Tx ε σ α) s post fail ↔ post value s := Iff.rfl
@[simp] theorem ensures_required_none (error : ε) :
    Ensures (required error none : Tx ε σ α) s post fail ↔ fail error := Iff.rfl
theorem ensures_required (error : ε) (value : Option α) :
    Ensures (required error value : Tx ε σ α) s post fail ↔
      (∀ found, value = some found → post found s) ∧ (value = none → fail error) := by
  cases value <;> simp

theorem ensures_check (result : Except ε α) :
    Ensures (check result : Tx ε σ α) s post fail ↔
      (∀ value, result = .ok value → post value s) ∧ (∀ error, result = .error error → fail error) := by
  cases result <;> simp [check]

theorem ensures_ite {condition : Prop} [Decidable condition] {y : Tx ε σ α} :
    Ensures (if condition then x else y) s post fail ↔
      (condition → Ensures x s post fail) ∧ (¬ condition → Ensures y s post fail) := by
  split <;> simp_all

theorem Ensures.mono {fail' : ε → Prop} (holds : Ensures x s post fail)
    (weaker : ∀ value after, post value after → post' value after) (tolerated : ∀ error, fail error → fail' error) :
    Ensures x s post' fail' := by
  unfold Ensures at holds ⊢
  cases ran : x s with
  | error error => rw [ran] at holds; exact tolerated error holds
  | ok outcome => rw [ran] at holds; exact weaker _ _ holds

/-- Consequence that leaves the errors as they are. -/
theorem Ensures.imp (holds : Ensures x s post fail)
    (weaker : ∀ value after, post value after → post' value after) : Ensures x s post' fail :=
  holds.mono weaker fun _ => id

/-- Consequence in the middle of a composition. -/
theorem Ensures.bind {middle : α → σ → Prop} {post : β → σ → Prop}
    (first : Ensures x s middle fail) (rest : ∀ value after, middle value after → Ensures (f value) after post fail) :
    Ensures (x >>= f) s post fail :=
  ensures_bind.mpr (first.imp rest)

theorem Ensures.of_ok (holds : Ensures x s post fail) {value : α} {after : σ} (ran : x s = .ok (value,after)) :
    post value after := by
  simpa [Ensures,ran] using holds
theorem Ensures.of_error (holds : Ensures x s post fail) {error : ε} (aborted : x s = .error error) : fail error := by
  simpa [Ensures,aborted] using holds

end rules

/-- Commits what a transaction did, or rolls it back. -/
def commit (x : Tx ε σ α) (s : σ) : Except ε α × σ :=
  match x s with
  | .ok (value,after) => (.ok value,after)
  | .error error => (.error error,s)

/-- What commits is what the transaction ensures; what is rolled back changes nothing. -/
theorem commit_cases {x : Tx ε σ α} {s : σ} {post : α → σ → Prop} {fail : ε → Prop} (holds : Ensures x s post fail) :
    (∃ value after, commit x s = (.ok value,after) ∧ post value after) ∨
      (∃ error, commit x s = (.error error,s) ∧ fail error) := by
  unfold commit
  cases ran : x s with
  | error error => exact .inr ⟨error,rfl,holds.of_error ran⟩
  | ok outcome => exact .inl ⟨outcome.1,outcome.2,rfl,holds.of_ok ran⟩

end Tx
end Vyane.Transactions
