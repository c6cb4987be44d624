/-
Programs that ask questions.  A program ends with a value or a fault, or it
asks and goes on with the answer.  A run takes its answers from a sequence, which
stands for any way to answer: what it holds may depend on the questions.
-/
import Mathlib

/-- A program that asks `query`s and gets `response`s. -/
inductive Dialogue (query response ε α : Type) where
  | done (value : α)
  | throw (fault : ε)
  | ask (question : query) (next : response → Dialogue query response ε α)

namespace Dialogue

variable {query response ε α β : Type}

def bind (act : Dialogue query response ε α) (next : α → Dialogue query response ε β) :
    Dialogue query response ε β :=
  match act with
  | done value => next value
  | throw fault => throw fault
  | ask question rest => ask question fun answer => (rest answer).bind next

instance : Monad (Dialogue query response ε) where
  pure := done
  bind := bind

/-- Go on with a handler where the program ends with a fault. -/
def handle (act : Dialogue query response ε α) (handler : ε → Dialogue query response ε α) :
    Dialogue query response ε α :=
  match act with
  | done value => done value
  | throw fault => handler fault
  | ask question rest => ask question fun answer => (rest answer).handle handler

def ofExcept : Except ε α → Dialogue query response ε α
  | .ok value => done value
  | .error fault => throw fault

/-- How a program ends whose first question is answered by answer `k`. -/
def result (answers : Nat → response) : Nat → Dialogue query response ε α → Except ε α
  | _, done value => .ok value
  | _, throw fault => .error fault
  | k, ask _ rest => result answers (k + 1) (rest (answers k))

/-- What it asks on the way. -/
def asked (answers : Nat → response) : Nat → Dialogue query response ε α → List query
  | _, done _ => []
  | _, throw _ => []
  | k, ask question rest => question :: asked answers (k + 1) (rest (answers k))

section Rules

variable {answers : Nat → response} {k : Nat} {act : Dialogue query response ε α}
  {next : α → Dialogue query response ε β} {handler : ε → Dialogue query response ε α}
  {value : α} {fault : ε}

@[simp] theorem result_pure (answers : Nat → response) (k : Nat) (value : α) :
    (pure value : Dialogue query response ε α).result answers k = .ok value := rfl

@[simp] theorem asked_pure (answers : Nat → response) (k : Nat) (value : α) :
    (pure value : Dialogue query response ε α).asked answers k = [] := rfl

@[simp] theorem result_ofExcept (answers : Nat → response) (k : Nat) (outcome : Except ε α) :
    (ofExcept outcome : Dialogue query response ε α).result answers k = outcome := by
  cases outcome <;> rfl

@[simp] theorem asked_ofExcept (answers : Nat → response) (k : Nat) (outcome : Except ε α) :
    (ofExcept outcome : Dialogue query response ε α).asked answers k = [] := by
  cases outcome <;> rfl

/-- A part that ends with a value is followed by the rest, which goes on with
the answers that were not used. -/
theorem result_bind_ok (hact : act.result answers k = .ok value) :
    (act >>= next).result answers k =
      (next value).result answers (k + (act.asked answers k).length) := by
  induction act generalizing k with
  | done =>
      cases hact
      rfl
  | throw => cases hact
  | ask question rest ih =>
      refine (ih _ hact).trans ?_
      rw [asked, List.length_cons, Nat.add_assoc, Nat.add_comm 1]

theorem result_bind_error (hact : act.result answers k = .error fault) :
    (act >>= next).result answers k = .error fault := by
  induction act generalizing k with
  | done => cases hact
  | throw =>
      cases hact
      rfl
  | ask question rest ih => exact ih _ hact

/-- A fault that no part ends with is not the end of the whole. -/
theorem result_bind_ne_error (hact : act.result answers k ≠ .error fault)
    (hnext : ∀ value, act.result answers k = .ok value →
      (next value).result answers (k + (act.asked answers k).length) ≠ .error fault) :
    (act >>= next).result answers k ≠ .error fault := by
  cases hresult : act.result answers k with
  | ok value =>
      rw [result_bind_ok hresult]
      exact hnext value hresult
  | error other =>
      rw [hresult] at hact
      rw [result_bind_error hresult]
      simpa using hact

theorem asked_bind_ok (hact : act.result answers k = .ok value) :
    (act >>= next).asked answers k =
      act.asked answers k ++ (next value).asked answers (k + (act.asked answers k).length) := by
  induction act generalizing k with
  | done =>
      cases hact
      rfl
  | throw => cases hact
  | ask question rest ih =>
      refine (congrArg (question :: ·) (ih _ hact)).trans ?_
      rw [asked, List.length_cons, Nat.add_assoc, Nat.add_comm 1, List.cons_append]

theorem asked_bind_error (hact : act.result answers k = .error fault) :
    (act >>= next).asked answers k = act.asked answers k := by
  induction act generalizing k with
  | done => cases hact
  | throw => rfl
  | ask question rest ih => exact congrArg (question :: ·) (ih _ hact)

theorem result_handle_ok (hact : act.result answers k = .ok value) :
    (act.handle handler).result answers k = .ok value := by
  induction act generalizing k with
  | done => exact hact
  | throw => cases hact
  | ask question rest ih => exact ih _ hact

theorem result_handle_error (hact : act.result answers k = .error fault) :
    (act.handle handler).result answers k =
      (handler fault).result answers (k + (act.asked answers k).length) := by
  induction act generalizing k with
  | done => cases hact
  | throw =>
      cases hact
      rfl
  | ask question rest ih =>
      refine (ih _ hact).trans ?_
      rw [asked, List.length_cons, Nat.add_assoc, Nat.add_comm 1]

/-- A handler that asks nothing adds no question. -/
theorem asked_handle (hhandler : ∀ fault k, (handler fault).asked answers k = []) :
    (act.handle handler).asked answers k = act.asked answers k := by
  induction act generalizing k with
  | done => rfl
  | throw fault => exact hhandler fault k
  | ask question rest ih => exact congrArg (question :: ·) (ih _)

end Rules

end Dialogue
