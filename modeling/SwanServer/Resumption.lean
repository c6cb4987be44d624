/-
Programs on a store that others use as well.  A program is finished, or it
makes one access to the store and goes on with what it read there; between two
accesses the store may become any other.
-/
import Mathlib

universe u v w

/-- A program with result `α` and faults `ε`.  An access changes the store by
`update` and goes on with the store that it met. -/
inductive Resumption (σ : Type u) (ε : Type v) (α : Type w) where
  | done (result : Except ε α)
  | access (update : σ → σ) (next : σ → Resumption σ ε α)

namespace Resumption

variable {σ : Type u} {ε : Type v} {α β : Type w}

/-- Run a program that nobody disturbs. -/
def exec : Resumption σ ε α → σ → Except ε α × σ
  | done result, store => (result, store)
  | access update next, store => (next store).exec (update store)

/-- A result that the program can have while the others keep the store in `P`. -/
inductive Yields (P : σ → Prop) : Resumption σ ε α → Except ε α → Prop where
  | done (result : Except ε α) : Yields P (done result) result
  | access {update : σ → σ} {next : σ → Resumption σ ε α} {result : Except ε α} {store : σ}
      (hstore : P store) (hnext : Yields P (next store) result) :
      Yields P (access update next) result

/-- The program keeps the store in `P` itself, as long as the others do. -/
inductive Keeps (P : σ → Prop) : Resumption σ ε α → Prop where
  | done (result : Except ε α) : Keeps P (done result)
  | access {update : σ → σ} {next : σ → Resumption σ ε α}
      (hupdate : ∀ store, P store → P (update store))
      (hnext : ∀ store, P store → Keeps P (next store)) : Keeps P (access update next)

/-- The same program with another reading of its result. -/
def map (f : α → β) : Resumption σ ε α → Resumption σ ε β
  | done result => done (result.map f)
  | access update next => access update fun store => (next store).map f

/-- The program that makes all its accesses at once. -/
def atomically (f : σ → Except ε α × σ) : Resumption σ ε α :=
  access (fun store => (f store).2) fun store => done (f store).1

/-- One program after the other; a fault ends both. -/
def bind : Resumption σ ε α → (α → Resumption σ ε β) → Resumption σ ε β
  | done (.ok value), next => next value
  | done (.error fault), _ => done (.error fault)
  | access update rest, next => access update fun store => (rest store).bind next

instance : Monad (Resumption σ ε) where
  pure value := done (.ok value)
  bind := bind

/-- A program on a part of the store. -/
def zoom {ρ : Type u} (get : σ → ρ) (set : σ → ρ → σ) : Resumption ρ ε α → Resumption σ ε α
  | done result => done result
  | access update next =>
      access (fun store => set store (update (get store))) fun store =>
        (next (get store)).zoom get set

@[simp] theorem exec_done (result : Except ε α) (store : σ) :
    (done result).exec store = (result, store) := rfl

@[simp] theorem exec_access (update : σ → σ) (next : σ → Resumption σ ε α) (store : σ) :
    (access update next).exec store = (next store).exec (update store) := rfl

@[simp] theorem exec_atomically (f : σ → Except ε α × σ) (store : σ) :
    (atomically f).exec store = f store := rfl

theorem exec_map (f : α → β) (program : Resumption σ ε α) (store : σ) :
    (program.map f).exec store =
      ((program.exec store).1.map f, (program.exec store).2) := by
  induction program generalizing store with
  | done => rfl
  | access update next ih => exact ih store (update store)

theorem exec_bind (program : Resumption σ ε α) (next : α → Resumption σ ε β) (store : σ) :
    (program >>= next).exec store =
      match program.exec store with
      | (.ok value, later) => (next value).exec later
      | (.error fault, later) => (.error fault, later) := by
  change (program.bind next).exec store = _
  induction program generalizing store with
  | done result => cases result <;> rfl
  | access update rest ih => exact ih store (update store)

theorem exec_zoom {ρ : Type u} {get : σ → ρ} {set : σ → ρ → σ}
    (hget : ∀ store part, get (set store part) = part)
    (hself : ∀ store, set store (get store) = store)
    (hset : ∀ store first second, set (set store first) second = set store second)
    (program : Resumption ρ ε α) (store : σ) :
    (program.zoom get set).exec store =
      ((program.exec (get store)).1, set store (program.exec (get store)).2) := by
  induction program generalizing store with
  | done result => rw [zoom, exec_done, exec_done, hself]
  | access update next ih => rw [zoom, exec_access, ih, hget, hset, exec_access]

section Interference

variable {P : σ → Prop} {program : Resumption σ ε α}

theorem yields_done_iff {result other : Except ε α} :
    (done result : Resumption σ ε α).Yields P other ↔ other = result := by
  constructor
  · intro hyields
    cases hyields
    rfl
  · rintro rfl
    exact .done other

theorem yields_access_iff {update : σ → σ} {next : σ → Resumption σ ε α}
    {result : Except ε α} :
    (access update next).Yields P result ↔ ∃ store, P store ∧ (next store).Yields P result := by
  constructor
  · intro hyields
    cases hyields with
    | access hstore hnext => exact ⟨_, hstore, hnext⟩
  · rintro ⟨store, hstore, hnext⟩
    exact .access hstore hnext

theorem yields_map_iff {f : α → β} {result : Except ε β} :
    (program.map f).Yields P result ↔
      ∃ other, program.Yields P other ∧ result = other.map f := by
  induction program with
  | done value => simp [map, yields_done_iff]
  | access update next ih =>
      simp only [map, yields_access_iff, ih]
      constructor
      · rintro ⟨store, hstore, other, hother, rfl⟩
        exact ⟨other, ⟨store, hstore, hother⟩, rfl⟩
      · rintro ⟨other, ⟨store, hstore, hother⟩, rfl⟩
        exact ⟨store, hstore, other, hother, rfl⟩

theorem keeps_access_iff {update : σ → σ} {next : σ → Resumption σ ε α} :
    (access update next).Keeps P ↔
      (∀ store, P store → P (update store)) ∧ ∀ store, P store → (next store).Keeps P := by
  constructor
  · intro hkeeps
    cases hkeeps with
    | access hupdate hnext => exact ⟨hupdate, hnext⟩
  · rintro ⟨hupdate, hnext⟩
    exact .access hupdate hnext

theorem keeps_true (program : Resumption σ ε α) : program.Keeps fun _ => True := by
  induction program with
  | done result => exact .done result
  | access update next ih => exact .access (fun _ _ => trivial) fun store _ => ih store

theorem Keeps.map (hkeeps : program.Keeps P) (f : α → β) : (program.map f).Keeps P := by
  induction hkeeps with
  | done result => exact .done _
  | access hupdate hnext ih => exact .access hupdate ih

/-- Undisturbed, a program has one of its results and leaves the store in `P`. -/
theorem Keeps.exec (hkeeps : program.Keeps P) {store : σ} (hstore : P store) :
    program.Yields P (program.exec store).1 ∧ P (program.exec store).2 := by
  induction hkeeps generalizing store with
  | done result => exact ⟨.done result, hstore⟩
  | access hupdate hnext ih =>
      obtain ⟨hyields, hlater⟩ := ih store hstore (hupdate store hstore)
      exact ⟨.access hstore hyields, hlater⟩

/-- Where nobody changes the store, a program has the result that it has undisturbed. -/
theorem Keeps.eq_of_yields {store : σ} (hkeeps : program.Keeps (· = store))
    {result : Except ε α} (hyields : program.Yields (· = store) result) :
    result = (program.exec store).1 := by
  induction hkeeps with
  | done value => exact yields_done_iff.mp hyields
  | access hupdate hnext ih =>
      obtain ⟨_, rfl, hrest⟩ := yields_access_iff.mp hyields
      rw [ih _ rfl hrest, exec_access, hupdate _ rfl]

end Interference

end Resumption
