/-
Concurrent systems as partial step functions: an event names the party that
moves and what it does, and an interleaving is any list of events that the
system can take one after the other.
-/
import Mathlib

universe u v w x

/-- `step state event` is the next state, `none` where the event cannot
happen. -/
structure Interleaving (σ : Type u) (ε : Type v) where
  step : σ → ε → Option σ

namespace Interleaving

variable {σ : Type u} {ε : Type v}

/-- The state after a list of events, `none` if one of them cannot happen. -/
def run (S : Interleaving σ ε) : σ → List ε → Option σ
  | state, [] => some state
  | state, event :: rest => (S.step state event).bind fun next => S.run next rest

@[simp] theorem run_nil (S : Interleaving σ ε) (state : σ) :
    S.run state [] = some state := rfl

@[simp] theorem run_cons (S : Interleaving σ ε) (state : σ) (event : ε)
    (rest : List ε) :
    S.run state (event :: rest) =
      (S.step state event).bind fun next => S.run next rest := rfl

theorem run_append (S : Interleaving σ ε) (state : σ) (first second : List ε) :
    S.run state (first ++ second) =
      (S.run state first).bind fun next => S.run next second := by
  induction first generalizing state with
  | nil => rfl
  | cons event rest ih => simp [ih, Option.bind_assoc]

/-- Every event of the run meets `G` in the state in which it happens. -/
def Guarded (S : Interleaving σ ε) (G : σ → ε → Prop) : σ → List ε → Prop
  | _, [] => True
  | state, event :: rest =>
      G state event ∧ ∀ next, S.step state event = some next → S.Guarded G next rest

/-- What is observed at the steps of a run. -/
def observed {α : Type w} (S : Interleaving σ ε) (observe : σ → ε → Option α) :
    σ → List ε → List α
  | _, [] => []
  | state, event :: rest =>
      match S.step state event with
      | none => []
      | some next => (observe state event).toList ++ S.observed observe next rest

theorem observed_cons_of_step {α : Type w} {S : Interleaving σ ε}
    {observe : σ → ε → Option α} {state next : σ} {event : ε}
    (hstep : S.step state event = some next) (rest : List ε) :
    S.observed observe state (event :: rest) =
      (observe state event).toList ++ S.observed observe next rest := by
  rw [observed, hstep]

theorem guarded_cons_of_step {S : Interleaving σ ε} {G : σ → ε → Prop}
    {state next : σ} {event : ε} (hstep : S.step state event = some next)
    (rest : List ε) :
    S.Guarded G state (event :: rest) ↔ G state event ∧ S.Guarded G next rest := by
  simp [Guarded, hstep]

theorem guarded_cons_of_stuck {S : Interleaving σ ε} {G : σ → ε → Prop}
    {state : σ} {event : ε} (hstep : S.step state event = none) (rest : List ε) :
    S.Guarded G state (event :: rest) ↔ G state event := by
  simp [Guarded, hstep]

theorem guarded_true (S : Interleaving σ ε) (state : σ) (events : List ε) :
    S.Guarded (fun _ _ => True) state events := by
  induction events generalizing state with
  | nil => trivial
  | cons event rest ih => exact ⟨trivial, fun next _ => ih next⟩

/-- A guard that can be tested at one step can be tested along a run. -/
instance decidableGuarded (S : Interleaving σ ε) (G : σ → ε → Prop)
    [∀ state event, Decidable (G state event)] :
    ∀ state events, Decidable (S.Guarded G state events)
  | _, [] => isTrue trivial
  | state, event :: rest =>
      match hstep : S.step state event with
      | none => decidable_of_iff' _ (guarded_cons_of_stuck hstep rest)
      | some next =>
          have := decidableGuarded S G next rest
          decidable_of_iff' _ (guarded_cons_of_step hstep rest)

/-- What every step that meets the guard preserves holds after every run
whose steps all meet it. -/
theorem invariant_of_guarded (S : Interleaving σ ε) {G : σ → ε → Prop}
    {Inv : σ → Prop}
    (hstep : ∀ {state event next}, Inv state → G state event →
      S.step state event = some next → Inv next)
    (events : List ε) {state final : σ} (hstate : Inv state)
    (hguard : S.Guarded G state events)
    (hrun : S.run state events = some final) : Inv final := by
  induction events generalizing state with
  | nil =>
      rw [run_nil, Option.some.injEq] at hrun
      exact hrun ▸ hstate
  | cons event rest ih =>
      rw [run_cons, Option.bind_eq_some_iff] at hrun
      obtain ⟨next, hnext, hrest⟩ := hrun
      exact ih (hstep hstate hguard.1 hnext) (hguard.2 next hnext) hrest

/-- What every step preserves holds after every run. -/
theorem invariant_of_run (S : Interleaving σ ε) {Inv : σ → Prop}
    (hstep : ∀ {state event next}, Inv state → S.step state event = some next → Inv next)
    (events : List ε) {state final : σ} (hstate : Inv state)
    (hrun : S.run state events = some final) : Inv final := by
  induction events generalizing state with
  | nil =>
      rw [run_nil, Option.some.injEq] at hrun
      exact hrun ▸ hstate
  | cons event rest ih =>
      rw [run_cons, Option.bind_eq_some_iff] at hrun
      obtain ⟨next, hnext, hrest⟩ := hrun
      exact ih (hstep hstate hnext) hrest

/-- The same of an invariant that speaks of what has been observed so far. -/
theorem invariant_of_observed {α : Type w} (S : Interleaving σ ε) {G : σ → ε → Prop}
    {observe : σ → ε → Option α} {Inv : List α → σ → Prop}
    (hstep : ∀ {seen state event next}, Inv seen state → G state event →
      S.step state event = some next → Inv (seen ++ (observe state event).toList) next)
    (events : List ε) {seen : List α} {state final : σ} (hstate : Inv seen state)
    (hguard : S.Guarded G state events) (hrun : S.run state events = some final) :
    Inv (seen ++ S.observed observe state events) final := by
  induction events generalizing seen state with
  | nil =>
      rw [run_nil, Option.some.injEq] at hrun
      rw [observed, List.append_nil]
      exact hrun ▸ hstate
  | cons event rest ih =>
      rw [run_cons, Option.bind_eq_some_iff] at hrun
      obtain ⟨next, hnext, hrest⟩ := hrun
      rw [observed_cons_of_step hnext, ← List.append_assoc]
      exact ih (hstep hstate hguard.1 hnext) (hguard.2 next hnext) hrest

/-- A system follows another one whose steps are those that `translate` finds in the steps
of the first, if each step of the first is one of these or is none of its. -/
theorem exists_run_of_observed {τ : Type w} {δ : Type x} (S : Interleaving σ ε)
    (T : Interleaving τ δ) {translate : σ → ε → Option δ} {R : σ → τ → Prop}
    (hnone : ∀ {state next event shadow}, R state shadow → S.step state event = some next →
      translate state event = none → R next shadow)
    (hsome : ∀ {state next event shadow image}, R state shadow →
      S.step state event = some next → translate state event = some image →
        ∃ later, T.step shadow image = some later ∧ R next later)
    (events : List ε) {state final : σ} {shadow : τ} (hrel : R state shadow)
    (hrun : S.run state events = some final) :
    ∃ later, T.run shadow (S.observed translate state events) = some later ∧ R final later := by
  induction events generalizing state shadow with
  | nil =>
      rw [run_nil, Option.some.injEq] at hrun
      exact ⟨shadow, rfl, hrun ▸ hrel⟩
  | cons event rest ih =>
      rw [run_cons, Option.bind_eq_some_iff] at hrun
      obtain ⟨next, hnext, hrest⟩ := hrun
      rw [observed_cons_of_step hnext]
      cases himage : translate state event with
      | none => exact ih (hnone hrel hnext himage) hrest
      | some image =>
          obtain ⟨middle, hmiddle, hlater⟩ := hsome hrel hnext himage
          rw [Option.toList_some, List.singleton_append, run_cons, hmiddle]
          exact ih hlater hrest

/-- Where a step within `H` meets the guard exactly if it leads to a good state, and
nothing happens in a bad one, a run within `H` ends in a good state exactly if all its steps
meet the guard. -/
theorem guarded_iff_of_run (S : Interleaving σ ε) {G H : σ → ε → Prop} {Inv Good : σ → Prop}
    (hinv : ∀ {state event next}, Inv state → S.step state event = some next → Inv next)
    (hgood : ∀ {state event next}, Inv state → H state event →
      S.step state event = some next → (G state event ↔ Good next))
    (hstuck : ∀ {state} event, ¬ Good state → S.step state event = none)
    (events : List ε) {state final : σ} (hstate : Inv state) (hstart : Good state)
    (hwithin : S.Guarded H state events)
    (hrun : S.run state events = some final) : S.Guarded G state events ↔ Good final := by
  induction events generalizing state with
  | nil =>
      rw [run_nil, Option.some.injEq] at hrun
      exact iff_of_true trivial (hrun ▸ hstart)
  | cons event rest ih =>
      rw [run_cons, Option.bind_eq_some_iff] at hrun
      obtain ⟨next, hnext, hrest⟩ := hrun
      rw [guarded_cons_of_step hnext] at hwithin ⊢
      rw [hgood hstate hwithin.1 hnext]
      by_cases hgoodNext : Good next
      · rw [ih (hinv hstate hnext) hgoodNext hwithin.2 hrest, and_iff_right hgoodNext]
      · cases rest with
        | nil =>
            rw [run_nil, Option.some.injEq] at hrest
            rw [← hrest]
            exact and_iff_left trivial
        | cons later more =>
            rw [run_cons, hstuck later hgoodNext] at hrest
            contradiction

theorem Guarded.append_left {S : Interleaving σ ε} {G : σ → ε → Prop}
    {first second : List ε} {state : σ}
    (hguard : S.Guarded G state (first ++ second)) : S.Guarded G state first := by
  induction first generalizing state with
  | nil => trivial
  | cons event rest ih =>
      exact ⟨hguard.1, fun next hnext => ih (hguard.2 next hnext)⟩

theorem Guarded.append_right {S : Interleaving σ ε} {G : σ → ε → Prop}
    {first second : List ε} {state middle : σ}
    (hguard : S.Guarded G state (first ++ second))
    (hrun : S.run state first = some middle) : S.Guarded G middle second := by
  induction first generalizing state with
  | nil =>
      rw [run_nil, Option.some.injEq] at hrun
      exact hrun ▸ hguard
  | cons event rest ih =>
      rw [run_cons, Option.bind_eq_some_iff] at hrun
      obtain ⟨next, hnext, hrest⟩ := hrun
      exact ih (hguard.2 next hnext) hrest

theorem Guarded.and {S : Interleaving σ ε} {G H : σ → ε → Prop}
    {events : List ε} {state : σ} (hG : S.Guarded G state events)
    (hH : S.Guarded H state events) :
    S.Guarded (fun state event => G state event ∧ H state event) state events := by
  induction events generalizing state with
  | nil => trivial
  | cons event rest ih =>
      exact ⟨⟨hG.1, hH.1⟩, fun next hnext => ih (hG.2 next hnext) (hH.2 next hnext)⟩

end Interleaving
