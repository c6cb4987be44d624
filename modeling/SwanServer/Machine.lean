/-
Deterministic machines that answer one input at a time, and the two induction
rules used about their runs: an invariant that holds wherever a guard held,
and a forward simulation of one machine by another.
-/
import Mathlib

universe u v w x y z

/-- A machine reads an input in a state, answers, and moves to the next state. -/
structure Machine (σ : Type u) (ι : Type v) (ο : Type w) where
  step : σ → ι → ο × σ

namespace Machine

variable {σ : Type u} {ι : Type v} {ο : Type w} {τ : Type x} {ω : Type y}

/-- Every answer of a run together with the state it left behind. -/
def trace (M : Machine σ ι ο) : σ → List ι → List (ο × σ)
  | _, [] => []
  | state, input :: rest =>
      M.step state input :: M.trace (M.step state input).2 rest

/-- The state after a whole run. -/
def final (M : Machine σ ι ο) (state : σ) (inputs : List ι) : σ :=
  inputs.foldl (fun state input => (M.step state input).2) state

@[simp] theorem trace_nil (M : Machine σ ι ο) (state : σ) :
    M.trace state [] = [] := rfl

@[simp] theorem trace_cons (M : Machine σ ι ο) (state : σ) (input : ι)
    (rest : List ι) :
    M.trace state (input :: rest) =
      M.step state input :: M.trace (M.step state input).2 rest := rfl

@[simp] theorem final_nil (M : Machine σ ι ο) (state : σ) :
    M.final state [] = state := rfl

@[simp] theorem final_cons (M : Machine σ ι ο) (state : σ) (input : ι)
    (rest : List ι) :
    M.final state (input :: rest) = M.final (M.step state input).2 rest := rfl

theorem trace_concat (M : Machine σ ι ο) (state : σ) (inputs : List ι) (input : ι) :
    M.trace state (inputs ++ [input]) =
      M.trace state inputs ++ [M.step (M.final state inputs) input] := by
  induction inputs generalizing state with
  | nil => rfl
  | cons head tail ih => exact congrArg (M.step state head :: ·) (ih _)

theorem final_concat (M : Machine σ ι ο) (state : σ) (inputs : List ι) (input : ι) :
    M.final state (inputs ++ [input]) = (M.step (M.final state inputs) input).2 := by
  rw [final, List.foldl_append]
  rfl

/-- Every input of the run meets `G` in the state in which it is read. -/
def Guarded (M : Machine σ ι ο) (G : σ → ι → Prop) : σ → List ι → Prop
  | _, [] => True
  | state, input :: rest =>
      G state input ∧ M.Guarded G (M.step state input).2 rest

@[simp] theorem guarded_nil (M : Machine σ ι ο) (G : σ → ι → Prop)
    (state : σ) : M.Guarded G state [] := trivial

@[simp] theorem guarded_cons (M : Machine σ ι ο) (G : σ → ι → Prop)
    (state : σ) (input : ι) (rest : List ι) :
    M.Guarded G state (input :: rest) ↔
      G state input ∧ M.Guarded G (M.step state input).2 rest := Iff.rfl

theorem guarded_concat (M : Machine σ ι ο) (G : σ → ι → Prop) (state : σ) (inputs : List ι)
    (input : ι) :
    M.Guarded G state (inputs ++ [input]) ↔
      M.Guarded G state inputs ∧ G (M.final state inputs) input := by
  induction inputs generalizing state with
  | nil => simp
  | cons head tail ih =>
      rw [List.cons_append, guarded_cons, guarded_cons, ih, final_cons, and_assoc]

/-- A guard that decides, under an invariant it preserves, whether the next
answer is good decides it for whole runs. -/
theorem guarded_iff_forall_trace (M : Machine σ ι ο) {G : σ → ι → Prop}
    {Inv : σ → Prop} {Good : ο → Prop}
    (hgood : ∀ state input, Inv state →
      (G state input ↔ Good (M.step state input).1))
    (hinv : ∀ state input, Inv state → G state input →
      Inv (M.step state input).2)
    (inputs : List ι) {state : σ} (hstate : Inv state) :
    M.Guarded G state inputs ↔
      ∀ answer ∈ M.trace state inputs, Good answer.1 := by
  induction inputs generalizing state with
  | nil => simp
  | cons input rest ih =>
      rw [guarded_cons, trace_cons, List.forall_mem_cons,
        ← hgood state input hstate]
      constructor
      · rintro ⟨hnow, hlater⟩
        exact ⟨hnow, (ih (hinv state input hstate hnow)).mp hlater⟩
      · rintro ⟨hnow, hlater⟩
        exact ⟨hnow, (ih (hinv state input hstate hnow)).mpr hlater⟩

/-- What every admitted step preserves holds after a run of such steps. -/
theorem final_invariant (M : Machine σ ι ο) {Inv : σ → Prop} {G : ι → Prop}
    (hstep : ∀ state input, Inv state → G input → Inv (M.step state input).2)
    {inputs : List ι} (hinputs : ∀ input ∈ inputs, G input) {state : σ}
    (hstate : Inv state) : Inv (M.final state inputs) := by
  induction inputs generalizing state with
  | nil => exact hstate
  | cons input rest ih =>
      rw [List.forall_mem_cons] at hinputs
      exact ih hinputs.2 (hstep state input hstate hinputs.1)

/-- The same machine reading its inputs through `view`. -/
def comap {κ : Type v} (view : κ → ι) (M : Machine σ ι ο) : Machine σ κ ο where
  step state input := M.step state (view input)

@[simp] theorem comap_step {κ : Type v} (view : κ → ι) (M : Machine σ ι ο)
    (state : σ) (input : κ) :
    (M.comap view).step state input = M.step state (view input) := rfl

theorem trace_comap {κ : Type v} (view : κ → ι) (M : Machine σ ι ο) (state : σ)
    (inputs : List κ) : (M.comap view).trace state inputs = M.trace state (inputs.map view) := by
  induction inputs generalizing state with
  | nil => rfl
  | cons input rest ih => exact congrArg (M.step state (view input) :: ·) (ih _)

theorem final_comap {κ : Type v} (view : κ → ι) (M : Machine σ ι ο) (state : σ)
    (inputs : List κ) : (M.comap view).final state inputs = M.final state (inputs.map view) := by
  induction inputs generalizing state with
  | nil => rfl
  | cons input rest ih => exact ih _

theorem guarded_comap {κ : Type v} (view : κ → ι) (M : Machine σ ι ο) (G : σ → ι → Prop)
    (state : σ) (inputs : List κ) :
    (M.comap view).Guarded (fun state input => G state (view input)) state inputs ↔
      M.Guarded G state (inputs.map view) := by
  induction inputs generalizing state with
  | nil => exact Iff.rfl
  | cons input rest ih => exact and_congr Iff.rfl (ih _)

/-- `M` is simulated by `N` along `R` on the inputs that `G` admits: related
states give related answers and related next states. -/
structure Simulates (M : Machine σ ι ο) (N : Machine τ ι ω)
    (G : τ → ι → Prop) (R : σ → τ → Prop) (Out : ο → ω → Prop) : Prop where
  answer : ∀ {state spec input}, R state spec → G spec input →
    Out (M.step state input).1 (N.step spec input).1
  next : ∀ {state spec input}, R state spec → G spec input →
    R (M.step state input).2 (N.step spec input).2

/-- A simulation of steps is a simulation of runs, answer by answer and state
by state. -/
theorem Simulates.trace {M : Machine σ ι ο} {N : Machine τ ι ω}
    {G : τ → ι → Prop} {R : σ → τ → Prop} {Out : ο → ω → Prop}
    (hsim : Simulates M N G R Out) (inputs : List ι) {state : σ} {spec : τ}
    (hrel : R state spec) (hguard : N.Guarded G spec inputs) :
    List.Forall₂ (fun real ideal => Out real.1 ideal.1 ∧ R real.2 ideal.2)
      (M.trace state inputs) (N.trace spec inputs) := by
  induction inputs generalizing state spec with
  | nil => exact List.Forall₂.nil
  | cons input rest ih =>
      obtain ⟨hnow, hlater⟩ := (guarded_cons N G spec input rest).mp hguard
      have hanswer := hsim.answer hrel hnow
      have hnext := hsim.next hrel hnow
      exact List.Forall₂.cons ⟨hanswer, hnext⟩ (ih hnext hlater)

theorem Simulates.final {M : Machine σ ι ο} {N : Machine τ ι ω}
    {G : τ → ι → Prop} {R : σ → τ → Prop} {Out : ο → ω → Prop}
    (hsim : Simulates M N G R Out) (inputs : List ι) {state : σ} {spec : τ}
    (hrel : R state spec) (hguard : N.Guarded G spec inputs) :
    R (M.final state inputs) (N.final spec inputs) := by
  induction inputs generalizing state spec with
  | nil => exact hrel
  | cons input rest ih => exact ih (hsim.next hrel hguard.1) hguard.2

/-- Two machines beside a third that says when they differ: if related states answer
with one observation exactly where `G` holds and stay related in any case, two whole
runs are observed alike exactly if `G` holds throughout. -/
theorem map_trace_eq_iff_guarded {κ : Type y} {α : Type u} {π : Type v}
    {M : Machine σ ι ο} {N : Machine τ ι ω} {L : Machine κ ι α}
    {R : σ → τ → κ → Prop} {A G : κ → ι → Prop} {f : ο → π} {g : ω → π}
    (hanswer : ∀ {first second spec input}, R first second spec → A spec input →
      (f (M.step first input).1 = g (N.step second input).1 ↔ G spec input))
    (hnext : ∀ {first second spec input}, R first second spec → A spec input →
      R (M.step first input).2 (N.step second input).2 (L.step spec input).2)
    (inputs : List ι) {first : σ} {second : τ} {spec : κ} (hrel : R first second spec)
    (hadmits : L.Guarded A spec inputs) :
    (M.trace first inputs).map (fun answer => f answer.1) =
        (N.trace second inputs).map (fun answer => g answer.1) ↔
      L.Guarded G spec inputs := by
  induction inputs generalizing first second spec with
  | nil => simp
  | cons input rest ih =>
      obtain ⟨hnow, hlater⟩ := (guarded_cons L A spec input rest).mp hadmits
      rw [trace_cons, trace_cons, List.map_cons, List.map_cons, List.cons.injEq,
        hanswer hrel hnow, guarded_cons, ih (hnext hrel hnow) hlater]

section Family

variable {κ : Type z} [DecidableEq κ]

/-- A machine for each key, where an input goes to one of them or to none. -/
def family (M : Machine σ ι ο) : Machine (κ → σ) (Option (κ × ι)) (Option ο) where
  step states
    | none => (none, states)
    | some (key, input) =>
        (some (M.step (states key) input).1,
          Function.update states key (M.step (states key) input).2)

/-- The input that goes to the machine of a key. -/
def inputFor (key : κ) : Option (κ × ι) → Option ι
  | none => none
  | some (other, input) => if other = key then some input else none

theorem inputFor_self (key : κ) (input : ι) : inputFor key (some (key, input)) = some input :=
  if_pos rfl

/-- The answers to the inputs of one key. -/
def answersFor {α : Type w} (key : κ) (inputs : List (Option (κ × ι))) (answers : List α) :
    List α :=
  (inputs.zip answers).filterMap fun pair =>
    if (inputFor key pair.1).isSome then some pair.2 else none

theorem forall₂_answersFor {α β : Type w} {R : α → β → Prop} (key : κ)
    (inputs : List (Option (κ × ι))) {first : List α} {second : List β}
    (hanswers : List.Forall₂ R first second) :
    List.Forall₂ R (answersFor key inputs first) (answersFor key inputs second) := by
  induction hanswers generalizing inputs with
  | nil =>
      rw [answersFor, answersFor, List.zip_nil_right, List.zip_nil_right]
      exact .nil
  | cons hhead htail ih =>
      cases inputs with
      | nil => exact .nil
      | cons input rest =>
          rw [answersFor, answersFor, List.zip_cons_cons, List.zip_cons_cons,
            List.filterMap_cons, List.filterMap_cons]
          cases (inputFor key input).isSome
          · exact ih rest
          · exact .cons hhead (ih rest)

theorem answersFor_mono {α : Type w} (key : κ) (inputs : List (Option (κ × ι)))
    {first second : List α} (hstarts : first <+: second) :
    answersFor key inputs first <+: answersFor key inputs second := by
  obtain ⟨rest, rfl⟩ := hstarts
  refine List.IsPrefix.filterMap _ ?_
  induction inputs generalizing first with
  | nil => exact List.nil_prefix
  | cons input others ih =>
      cases first with
      | nil => exact List.nil_prefix
      | cons head tail => exact List.cons_prefix_cons.mpr ⟨rfl, ih⟩

variable (M : Machine σ ι ο) (states : κ → σ) (inputs : List (Option (κ × ι))) (key : κ)

/-- An input is a step of the machine that it goes to, and no step of the others. -/
theorem family_step_apply (input : Option (κ × ι)) :
    (M.family.step states input).2 key =
      match inputFor key input with
      | none => states key
      | some own => (M.step (states key) own).2 := by
  rcases input with _ | ⟨other, input⟩
  · rfl
  · rw [family, inputFor]
    rcases eq_or_ne other key with rfl | hne
    · simp
    · simp [hne, hne.symm]

/-- The machine of a key runs on the inputs that go to it. -/
theorem family_final_apply :
    M.family.final states inputs key = M.final (states key) (inputs.filterMap (inputFor key)) := by
  induction inputs generalizing states with
  | nil => rfl
  | cons input rest ih =>
      rw [final_cons, ih, family_step_apply, List.filterMap_cons]
      cases inputFor key input <;> rfl

theorem answersFor_trace_family :
    answersFor key inputs ((M.family.trace states inputs).map Prod.fst) =
      (M.trace (states key) (inputs.filterMap (inputFor key))).map fun answer =>
        some answer.1 := by
  induction inputs generalizing states with
  | nil => rfl
  | cons input rest ih =>
      have hrest := ih (M.family.step states input).2
      rw [family_step_apply] at hrest
      rw [trace_cons, List.map_cons, answersFor, List.zip_cons_cons, List.filterMap_cons,
        List.filterMap_cons]
      rcases input with _ | ⟨other, input⟩
      · exact hrest
      · rcases eq_or_ne other key with rfl | hne
        · simp only [inputFor, if_pos] at hrest ⊢
          exact congrArg (_ :: ·) hrest
        · simp only [inputFor, if_neg hne] at hrest ⊢
          exact hrest

/-- Outcomes that show the answers of the family show those of each machine to its inputs. -/
theorem forall₂_answersFor_trace {α : Type w} {R : α → ο → Prop} {outcomes : List α}
    (hshown : List.Forall₂ (fun outcome ideal => ∀ answer, ideal.1 = some answer →
      R outcome answer) outcomes (M.family.trace states inputs)) :
    List.Forall₂ (fun outcome ideal => R outcome ideal.1) (answersFor key inputs outcomes)
      (M.trace (states key) (inputs.filterMap (inputFor key))) := by
  have hanswers : List.Forall₂ (fun outcome ideal => ∀ answer, ideal = some answer →
      R outcome answer) outcomes ((M.family.trace states inputs).map Prod.fst) := by
    rwa [List.forall₂_map_right_iff]
  have hown := forall₂_answersFor key inputs hanswers
  rw [answersFor_trace_family, List.forall₂_map_right_iff] at hown
  exact hown.imp fun _ ideal hentry => hentry ideal.1 rfl

/-- What is asked of each machine on its own is asked of the family. -/
theorem family_guarded {G : σ → ι → Prop}
    (hguarded : ∀ key, M.Guarded G (states key) (inputs.filterMap (inputFor key))) :
    M.family.Guarded
      (fun states input => ∀ key own, inputFor key input = some own → G (states key) own)
      states inputs := by
  induction inputs generalizing states with
  | nil => trivial
  | cons input rest ih =>
      refine ⟨?_, ih _ ?_⟩
      · intro key own hown
        have hfirst := hguarded key
        rw [List.filterMap_cons, hown] at hfirst
        exact hfirst.1
      · intro key
        have hfirst := hguarded key
        rw [List.filterMap_cons] at hfirst
        rw [family_step_apply]
        cases hown : inputFor key input with
        | none =>
            rw [hown] at hfirst
            exact hfirst
        | some own =>
            rw [hown] at hfirst
            exact hfirst.2

end Family

end Machine
