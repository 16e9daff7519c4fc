import Mathlib.Logic.Basic
import Mathlib.Tactic.Common

/-!
# Stateful computations that can stop

A computation reads and writes a state and ends with a value or with a fault.
A fault keeps the state reached so far, so a caller that ignores it sees the
writes made before it; `transactional` is the wrapper that undoes them.

`Ends` is the rule of pre- and postconditions used throughout: it says what
holds of the value and the state on success, and what holds on a fault.
-/

namespace Foundation

/-- A computation over the state `σ` that ends with an `α` or a fault `φ`. -/
def Exec (σ φ α : Type) := σ → Except φ α × σ

namespace Exec

variable {σ τ φ α β : Type}

/-- Run the first computation and, when it ends with a value, continue. -/
def bind (first : Exec σ φ α) (next : α → Exec σ φ β) : Exec σ φ β := fun state =>
  match first state with
  | (.ok value, after) => next value after
  | (.error fault, after) => (.error fault, after)

instance : Monad (Exec σ φ) where
  pure value := fun state => (.ok value, state)
  bind := bind

/-- The current state. -/
def read : Exec σ φ σ := fun state => (.ok state, state)

/-- Update the state. -/
def write (update : σ → σ) : Exec σ φ Unit := fun state => (.ok (), update state)

/-- Stop with a fault. -/
def fail (fault : φ) : Exec σ φ α := fun state => (.error fault, state)

/-- Stop with a fault unless a condition holds. -/
def ensure (condition : Prop) [Decidable condition] (fault : φ) : Exec σ φ Unit :=
  if condition then pure () else fail fault

/-- The value of an option; stop with a fault when there is none. -/
def require (option : Option α) (fault : φ) : Exec σ φ α :=
  match option with
  | some value => pure value
  | none => fail fault

/-- The value of a computation that does not look at the state. -/
def ofExcept (result : Except φ α) : Exec σ φ α := fun state => (result, state)

/-- Continue from the state reached when the body ends with a fault. -/
def handle (body : Exec σ φ α) (handler : φ → Exec σ φ α) : Exec σ φ α := fun state =>
  match body state with
  | (.ok value, after) => (.ok value, after)
  | (.error fault, after) => handler fault after

/-- Undo every write of a computation that ends with a fault. -/
def transactional (body : Exec σ φ α) : Exec σ φ α := fun state =>
  match body state with
  | (.ok value, after) => (.ok value, after)
  | (.error fault, _) => (.error fault, state)

/-- Run a computation on a part of the state. -/
def zoom (part : σ → τ) (put : σ → τ → σ) (body : Exec τ φ α) : Exec σ φ α := fun state =>
  match body (part state) with
  | (result, after) => (result, put state after)

section Apply

variable {state after : σ} {first : Exec σ φ α} {next : α → Exec σ φ β}

theorem bind_of_ok {value : α} (ended : first state = (.ok value, after)) :
    (first >>= next) state = next value after := by
  change Exec.bind first next state = _
  rw [Exec.bind, ended]

theorem bind_of_error {fault : φ} (ended : first state = (.error fault, after)) :
    (first >>= next) state = (.error fault, after) := by
  change Exec.bind first next state = _
  rw [Exec.bind, ended]

theorem ensure_of {condition : Prop} [Decidable condition] (holds : condition) (fault : φ) :
    (ensure condition fault : Exec σ φ Unit) state = (.ok (), state) := by
  rw [ensure, if_pos holds]
  rfl

theorem ensure_of_not {condition : Prop} [Decidable condition] (fails : ¬condition) (fault : φ) :
    (ensure condition fault : Exec σ φ Unit) state = (.error fault, state) := by
  rw [ensure, if_neg fails]
  rfl

end Apply

/-- From `state`, `body` ends with a value and a state that satisfy `post`, or
with a fault and a state that satisfy `excuse`. -/
def Ends (body : Exec σ φ α) (state : σ) (post : α → σ → Prop) (excuse : φ → σ → Prop) :
    Prop :=
  match body state with
  | (.ok value, after) => post value after
  | (.error fault, after) => excuse fault after

section Rules

variable {state : σ} {post : α → σ → Prop} {excuse : φ → σ → Prop}

@[simp] theorem ends_pure (value : α) :
    (pure value : Exec σ φ α).Ends state post excuse ↔ post value state := Iff.rfl

@[simp] theorem ends_bind {first : Exec σ φ α} {next : α → Exec σ φ β}
    {post : β → σ → Prop} :
    (first >>= next).Ends state post excuse ↔
      first.Ends state (fun value after => (next value).Ends after post excuse) excuse := by
  change (Exec.bind first next).Ends state post excuse ↔ _
  simp only [Ends, Exec.bind]
  rcases first state with ⟨_ | value, after⟩ <;> rfl

@[simp] theorem ends_read {post : σ → σ → Prop} :
    (read : Exec σ φ σ).Ends state post excuse ↔ post state state := Iff.rfl

@[simp] theorem ends_write {post : Unit → σ → Prop} (update : σ → σ) :
    (write update : Exec σ φ Unit).Ends state post excuse ↔ post () (update state) := Iff.rfl

@[simp] theorem ends_fail (fault : φ) :
    (fail fault : Exec σ φ α).Ends state post excuse ↔ excuse fault state := Iff.rfl

@[simp] theorem ends_ensure {post : Unit → σ → Prop} (condition : Prop) [Decidable condition]
    (fault : φ) :
    (ensure condition fault : Exec σ φ Unit).Ends state post excuse ↔
      (condition → post () state) ∧ (¬condition → excuse fault state) := by
  unfold ensure
  split <;> simp_all

@[simp] theorem ends_require (option : Option α) (fault : φ) :
    (require option fault : Exec σ φ α).Ends state post excuse ↔
      (∀ value, option = some value → post value state) ∧
        (option = none → excuse fault state) := by
  cases option <;> simp [require]

@[simp] theorem ends_ofExcept (result : Except φ α) :
    (ofExcept result : Exec σ φ α).Ends state post excuse ↔
      (∀ value, result = .ok value → post value state) ∧
        ∀ fault, result = .error fault → excuse fault state := by
  cases result <;> simp [ofExcept, Ends]

theorem ends_ite {condition : Prop} [Decidable condition] {left right : Exec σ φ α} :
    (if condition then left else right).Ends state post excuse ↔
      (condition → left.Ends state post excuse) ∧
        (¬condition → right.Ends state post excuse) := by
  split <;> simp_all

@[simp] theorem ends_handle {body : Exec σ φ α} {handler : φ → Exec σ φ α} :
    (handle body handler).Ends state post excuse ↔
      body.Ends state post fun fault after => (handler fault).Ends after post excuse := by
  simp only [Ends, handle]
  rcases body state with ⟨_ | value, after⟩ <;> rfl

@[simp] theorem ends_transactional {body : Exec σ φ α} :
    (transactional body).Ends state post excuse ↔
      body.Ends state post fun fault _ => excuse fault state := by
  simp only [Ends, transactional]
  rcases body state with ⟨_ | value, after⟩ <;> rfl

@[simp] theorem ends_zoom {part : σ → τ} {put : σ → τ → σ} {body : Exec τ φ α} :
    (zoom part put body).Ends state post excuse ↔
      body.Ends (part state) (fun value after => post value (put state after))
        fun fault after => excuse fault (put state after) := by
  simp only [Ends, zoom]
  rcases body (part state) with ⟨_ | value, after⟩ <;> rfl

theorem Ends.of_forall {body : Exec σ φ α} (always : ∀ value after, post value after)
    (excused : ∀ fault after, excuse fault after) : body.Ends state post excuse := by
  unfold Ends
  split
  · exact always _ _
  · exact excused _ _

theorem Ends.mono {body : Exec σ φ α} {weaker : α → σ → Prop} {more : φ → σ → Prop}
    (ends : body.Ends state post excuse)
    (weaken : ∀ value after, post value after → weaker value after)
    (allow : ∀ fault after, excuse fault after → more fault after) :
    body.Ends state weaker more := by
  simp only [Ends] at *
  rcases equation : body state with ⟨_ | value, after⟩
  · rw [equation] at ends
    exact allow _ _ ends
  · rw [equation] at ends
    exact weaken _ _ ends

theorem Ends.imp {body : Exec σ φ α} {weaker : α → σ → Prop}
    (ends : body.Ends state post excuse)
    (weaken : ∀ value after, post value after → weaker value after) :
    body.Ends state weaker excuse :=
  ends.mono weaken fun _ _ => id

theorem Ends.and {body : Exec σ φ α} {other : α → σ → Prop} {excuse' : φ → σ → Prop}
    (left : body.Ends state post excuse) (right : body.Ends state other excuse') :
    body.Ends state (fun value after => post value after ∧ other value after)
      fun fault after => excuse fault after ∧ excuse' fault after := by
  simp only [Ends] at *
  rcases equation : body state with ⟨_ | value, after⟩ <;> simp_all

/-- A transactional run ends in a state with the postcondition, or where it began. -/
theorem Ends.transactional {body : Exec σ φ α} {post : σ → Prop} {excuse : Prop}
    (ends : body.Ends state (fun _ after => post after) fun _ _ => excuse) :
    post (transactional body state).2 ∨ (transactional body state).2 = state ∧ excuse := by
  simp only [Ends, Exec.transactional] at *
  rcases equation : body state with ⟨_ | value, after⟩
  · rw [equation] at ends
    exact .inr ⟨rfl, ends⟩
  · rw [equation] at ends
    exact .inl ends

theorem Ends.computed {body : Exec σ φ α} (ends : body.Ends state post excuse) :
    body.Ends state (fun value after => post value after ∧ after = (body state).2)
      fun fault after => excuse fault after ∧ after = (body state).2 := by
  simp only [Ends] at *
  rcases equation : body state with ⟨_ | value, after⟩ <;> simp_all

theorem Ends.last {body : Exec σ φ α} {holds : σ → Prop}
    (ends : body.Ends state (fun _ => holds) fun _ => holds) : holds (body state).2 := by
  simp only [Ends] at ends
  rcases equation : body state with ⟨_ | value, after⟩ <;> simpa [equation] using ends

theorem Ends.of_ok {body : Exec σ φ α} (ends : body.Ends state post excuse)
    {value : α} {after : σ} (run : body state = (.ok value, after)) : post value after := by
  simpa [Ends, run] using ends

theorem Ends.of_error {body : Exec σ φ α} (ends : body.Ends state post excuse)
    {fault : φ} {after : σ} (run : body state = (.error fault, after)) :
    excuse fault after := by
  simpa [Ends, run] using ends

theorem Ends.exists_ok {body : Exec σ φ α}
    (ends : body.Ends state post fun _ _ => False) :
    ∃ value after, body state = (.ok value, after) ∧ post value after := by
  simp only [Ends] at ends
  rcases equation : body state with ⟨_ | value, after⟩
  · simp [equation] at ends
  · exact ⟨value, after, rfl, by simpa [equation] using ends⟩

end Rules

end Exec

end Foundation
