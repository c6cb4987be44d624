/-
Executions that go on forever.  Whoever comes closer to the end of some work with each
turn, and is given a turn again and again, gets done.
-/
import SwanServer.Interleaving

universe u v w

/-- An infinite execution from a state. -/
structure Execution {σ : Type u} {ε : Type v} (S : Interleaving σ ε) (start : σ) where
  state : ℕ → σ
  event : ℕ → ε
  zero : state 0 = start
  step : ∀ n, S.step (state n) (event n) = some (state (n + 1))

namespace Execution

variable {σ : Type u} {ε : Type v} {S : Interleaving σ ε} {start : σ}
  (execution : Execution S start)

/-- Every state is reached by a run. -/
theorem exists_run (n : ℕ) : ∃ events, S.run start events = some (execution.state n) := by
  induction n with
  | zero => exact ⟨[], congrArg some execution.zero.symm⟩
  | succ n ih =>
      obtain ⟨events, hrun⟩ := ih
      refine ⟨events ++ [execution.event n], ?_⟩
      rw [Interleaving.run_append, hrun, Option.bind_some, Interleaving.run_cons,
        execution.step n]
      rfl

/-- What every step extends is extended in the long run. -/
theorem prefix_of_le {α : Type w} {history : σ → List α}
    (hstep : ∀ n, history (execution.state n) <+: history (execution.state (n + 1)))
    {n k : ℕ} (hle : n ≤ k) : history (execution.state n) <+: history (execution.state k) := by
  induction hle with
  | refl => exact List.prefix_rfl
  | step _ ih => exact ih.trans (hstep _)

/-- Take the event that is chosen, if it can happen. -/
def advance (S : Interleaving σ ε) (choose : σ → ε) (state : σ) : σ :=
  (S.step state (choose state)).getD state

variable {choose : σ → ε} {Inv : σ → Prop}

theorem advance_of_inv
    (hstep : ∀ state, Inv state → ∃ next, S.step state (choose state) = some next ∧ Inv next)
    {state : σ} (hstate : Inv state) :
    S.step state (choose state) = some (advance S choose state) ∧
      Inv (advance S choose state) := by
  obtain ⟨next, hnext, hinv⟩ := hstep state hstate
  rw [advance, hnext]
  exact ⟨rfl, hinv⟩

/-- Where the chosen event can always happen, it happens forever. -/
def ofChoice
    (hstep : ∀ state, Inv state → ∃ next, S.step state (choose state) = some next ∧ Inv next)
    (hstart : Inv start) : Execution S start where
  state n := (advance S choose)^[n] start
  event n := choose ((advance S choose)^[n] start)
  zero := rfl
  step n := by
    have hinv : Inv ((advance S choose)^[n] start) :=
      Function.Iterate.rec Inv hstart (fun _ hstate => (advance_of_inv hstep hstate).2) n
    rw [Function.iterate_succ_apply']
    exact (advance_of_inv hstep hinv).1

variable {A : Type w} {r : A → A → Prop} (Busy : σ → Prop) {Done : σ → Prop} (Turn : ε → Prop)
  (measure : σ → A)

/-- A turn comes, and until then nothing happens to the work unless it gets done. -/
theorem eventually_turn
    (hother : ∀ n, Busy (execution.state n) → ¬ Turn (execution.event n) →
      Done (execution.state (n + 1)) ∨ Busy (execution.state (n + 1)) ∧
        measure (execution.state (n + 1)) = measure (execution.state n))
    {n k : ℕ} (hle : n ≤ k) (hturn : Turn (execution.event k))
    (hbusy : Busy (execution.state n)) :
    (∃ m ≥ n, Done (execution.state m)) ∨ ∃ m ≥ n, Turn (execution.event m) ∧
      Busy (execution.state m) ∧ measure (execution.state m) = measure (execution.state n) := by
  induction hle using Nat.decreasingInduction with
  | self => exact .inr ⟨k, le_rfl, hturn, hbusy, rfl⟩
  | of_succ n _ ih =>
      by_cases hnow : Turn (execution.event n)
      · exact .inr ⟨n, le_rfl, hnow, hbusy, rfl⟩
      · rcases hother n hbusy hnow with hdone | ⟨hlater, hmeasure⟩
        · exact .inl ⟨n + 1, Nat.le_succ n, hdone⟩
        · rcases ih hlater with ⟨m, hm, hdone⟩ | ⟨m, hm, hturn, hbusy, hsame⟩
          · exact .inl ⟨m, (Nat.le_succ n).trans hm, hdone⟩
          · exact .inr ⟨m, (Nat.le_succ n).trans hm, hturn, hbusy, hsame.trans hmeasure⟩

/-- Work that gets less with each turn gets done. -/
theorem eventually_done (hwf : WellFounded r)
    (hother : ∀ n, Busy (execution.state n) → ¬ Turn (execution.event n) →
      Done (execution.state (n + 1)) ∨ Busy (execution.state (n + 1)) ∧
        measure (execution.state (n + 1)) = measure (execution.state n))
    (hturn : ∀ n, Busy (execution.state n) → Turn (execution.event n) →
      Done (execution.state (n + 1)) ∨ Busy (execution.state (n + 1)) ∧
        r (measure (execution.state (n + 1))) (measure (execution.state n)))
    (hfair : ∀ n, Busy (execution.state n) → ∃ k ≥ n, Turn (execution.event k))
    {n : ℕ} (hbusy : Busy (execution.state n)) : ∃ k ≥ n, Done (execution.state k) := by
  generalize hmeasure : measure (execution.state n) = a
  induction a using hwf.induction generalizing n with
  | _ a ih =>
      obtain ⟨k, hk, hnext⟩ := hfair n hbusy
      rcases execution.eventually_turn Busy Turn measure hother hk hnext hbusy with
        hdone | ⟨m, hm, hnow, hlater, hsame⟩
      · exact hdone
      · rcases hturn m hlater hnow with hdone | ⟨hlast, hless⟩
        · exact ⟨m + 1, hm.trans (Nat.le_succ m), hdone⟩
        · rw [hsame, hmeasure] at hless
          obtain ⟨last, hle, hdone⟩ := ih _ hless hlast rfl
          exact ⟨last, (hm.trans (Nat.le_succ m)).trans hle, hdone⟩

end Execution
