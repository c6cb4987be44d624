/-
Loops without a bound of their own: a pass goes on in a new state or ends with an
outcome, and a measure of the state, which every pass that goes on makes smaller,
says how many passes there can be.
-/
import Mathlib

universe u v

/-- A loop with the measure that makes it end. -/
structure Loop (σ : Type u) (α : Type v) where
  pass : σ → σ ⊕ α
  measure : σ → Nat
  shrinks : ∀ {state next}, pass state = .inl next → measure next < measure state

namespace Loop

variable {σ : Type u} {α : Type v}

/-- The outcome of the loop. -/
def run (L : Loop σ α) (state : σ) : α :=
  match hpass : L.pass state with
  | .inl next =>
      have := L.shrinks hpass
      L.run next
  | .inr outcome => outcome
termination_by L.measure state

/-- The outcome of the loop, if so many passes are enough for it. -/
def runWithin (pass : σ → σ ⊕ α) : Nat → σ → Option α
  | 0, _ => none
  | passes + 1, state => (pass state).elim (runWithin pass passes) some

variable {L : Loop σ α} {state next : σ} {outcome : α}

theorem run_eq (L : Loop σ α) (state : σ) : L.run state = (L.pass state).elim L.run id := by
  rw [run]
  split
  · next hpass => simp only [hpass, Sum.elim_inl]
  · next hpass => simp only [hpass, Sum.elim_inr, id]

theorem run_of_inl (hpass : L.pass state = .inl next) : L.run state = L.run next := by
  rw [run_eq, hpass, Sum.elim_inl]

theorem run_of_inr (hpass : L.pass state = .inr outcome) : L.run state = outcome := by
  rw [run_eq, hpass, Sum.elim_inr, id]

/-- A loop is gone through pass by pass. -/
@[elab_as_elim]
theorem run_induction {motive : σ → Prop} (L : Loop σ α)
    (goesOn : ∀ state next, L.pass state = .inl next → motive next → motive state)
    (ends : ∀ state outcome, L.pass state = .inr outcome → motive state) (state : σ) :
    motive state := by
  induction hmeasure : L.measure state using Nat.strong_induction_on generalizing state with
  | h bound ih =>
      cases hpass : L.pass state with
      | inl next =>
          have hnext : L.measure next < bound := hmeasure ▸ L.shrinks hpass
          exact goesOn state next hpass (ih _ hnext next rfl)
      | inr outcome => exact ends state outcome hpass

/-- As many passes as the measure says, and one more, are enough. -/
theorem runWithin_eq_some (L : Loop σ α) {passes : Nat} (hpasses : L.measure state < passes) :
    runWithin L.pass passes state = some (L.run state) := by
  induction passes generalizing state with
  | zero => exact absurd hpasses (Nat.not_lt_zero _)
  | succ passes ih =>
      cases hpass : L.pass state with
      | inl next =>
          have hnext := L.shrinks hpass
          rw [runWithin, hpass, Sum.elim_inl, run_of_inl hpass]
          exact ih (by omega)
      | inr outcome => rw [runWithin, hpass, Sum.elim_inr, run_of_inr hpass]

/-- Where every pass keeps an invariant, or ends with an outcome as it should be, the
outcome of the loop is as it should be. -/
theorem run_invariant {Inv : σ → Prop} {Post : α → Prop}
    (hpass : ∀ state, Inv state → (L.pass state).elim Inv Post) (hstate : Inv state) :
    Post (L.run state) := by
  induction state using L.run_induction with
  | goesOn state next hnext ih =>
      have hkept := hpass state hstate
      rw [hnext, Sum.elim_inl] at hkept
      rw [run_of_inl hnext]
      exact ih hkept
  | ends state outcome houtcome =>
      have hpost := hpass state hstate
      rw [houtcome, Sum.elim_inr] at hpost
      rwa [run_of_inr houtcome]

end Loop
