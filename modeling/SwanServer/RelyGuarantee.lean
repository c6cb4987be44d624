/-
Programs beside others on one store.  What a program does is said of the part of the
store that it sees: between two of its accesses the others may change everything else.
-/
import SwanServer.Resumption

universe u v w x

namespace Resumption

variable {σ : Type u} {ε : Type v} {α β : Type w} {τ : Type x} {ρ : Type u}

/-- From a store that shows `now`, the program ends in `Q`.  While the others keep the store
in `P` and do not change what it shows, the program keeps it in `P` and each of its accesses
is related to the store before it by `F`. -/
inductive Works (view : σ → τ) (P : σ → Prop) (F : σ → σ → Prop)
    (Q : Except ε α → τ → Prop) : Resumption σ ε α → τ → Prop where
  | done {result : Except ε α} {now : τ} (hresult : Q result now) :
      Works view P F Q (done result) now
  | access {update : σ → σ} {next : σ → Resumption σ ε α} {now : τ}
      (hkeeps : ∀ store, P store → view store = now →
        P (update store) ∧ F store (update store))
      (hnext : ∀ store, P store → view store = now →
        Works view P F Q (next store) (view (update store))) :
      Works view P F Q (access update next) now

/-- The program works on what `view` leaves of the store as it works on the store, and its
values are in `R`. -/
inductive Local (view : σ → σ) (P : σ → Prop) (F : σ → σ → Prop) (R : α → Prop) :
    Resumption σ ε α → Prop where
  | done {result : Except ε α} (hresult : ∀ value, result = .ok value → R value) :
      Local view P F R (done result)
  | access {update : σ → σ} {next : σ → Resumption σ ε α}
      (hkeeps : ∀ store, P store → P (update store) ∧ F store (update store))
      (hupdate : ∀ store, P store → view (update store) = update (view store))
      (hsame : ∀ store, P store → next (view store) = next store)
      (hnext : ∀ store, P store → Local view P F R (next store)) :
      Local view P F R (access update next)

/-- Each access of the program is related to the store before it by `F`. -/
inductive Guarantees (F : σ → σ → Prop) : Resumption σ ε α → Prop where
  | done (result : Except ε α) : Guarantees F (done result)
  | access {update : σ → σ} {next : σ → Resumption σ ε α}
      (hupdate : ∀ store, F store (update store)) (hnext : ∀ store, Guarantees F (next store)) :
      Guarantees F (access update next)

section Rules

variable {view : σ → τ} {P : σ → Prop} {F : σ → σ → Prop} {Q : Except ε α → τ → Prop}
  {program : Resumption σ ε α} {now : τ}

theorem works_done_iff {result : Except ε α} :
    (done result : Resumption σ ε α).Works view P F Q now ↔ Q result now := by
  constructor
  · intro hworks
    cases hworks with
    | done hresult => exact hresult
  · exact .done

theorem works_access_iff {update : σ → σ} {next : σ → Resumption σ ε α} :
    (access update next).Works view P F Q now ↔
      ∀ store, P store → view store = now →
        P (update store) ∧ F store (update store) ∧
          (next store).Works view P F Q (view (update store)) := by
  constructor
  · intro hworks store hstore hview
    cases hworks with
    | access hkeeps hnext =>
        obtain ⟨hlater, hframe⟩ := hkeeps store hstore hview
        exact ⟨hlater, hframe, hnext store hstore hview⟩
  · intro hall
    refine .access (fun store hstore hview => ?_) fun store hstore hview => ?_
    · exact ⟨(hall store hstore hview).1, (hall store hstore hview).2.1⟩
    · exact (hall store hstore hview).2.2

theorem Works.map {f : α → β} {R : Except ε β → τ → Prop} (hworks : program.Works view P F Q now)
    (hR : ∀ result now, Q result now → R (result.map f) now) :
    (program.map f).Works view P F R now := by
  induction hworks with
  | done hresult => exact .done (hR _ _ hresult)
  | access hkeeps hnext ih => exact .access hkeeps ih

theorem Works.mono {G : σ → σ → Prop} (hworks : program.Works view P F Q now)
    (hG : ∀ store later, F store later → G store later) : program.Works view P G Q now := by
  induction hworks with
  | done hresult => exact .done hresult
  | access hkeeps hnext ih =>
      refine .access (fun store hstore hview => ?_) ih
      obtain ⟨hlater, hframe⟩ := hkeeps store hstore hview
      exact ⟨hlater, hG _ _ hframe⟩

/-- Another view may show as much. -/
theorem Works.comp {view : σ → ρ} {now : ρ} {Q : Except ε α → ρ → Prop} {f : ρ → τ}
    {R : Except ε α → τ → Prop} (hworks : program.Works view P F Q now)
    (hf : Function.Injective f) (hR : ∀ result now, Q result now → R result (f now)) :
    program.Works (fun store => f (view store)) P F R (f now) := by
  induction hworks with
  | done hresult => exact .done (hR _ _ hresult)
  | access hkeeps hnext ih =>
      refine .access (fun store hstore hview => ?_) fun store hstore hview => ?_
      · exact hkeeps store hstore (hf hview)
      · exact ih store hstore (hf hview)

/-- What a program says of its part of the store, it says of the whole. -/
theorem Works.zoom {program : Resumption ρ ε α} {view : ρ → τ} {P : ρ → Prop}
    {F : ρ → ρ → Prop} {get : σ → ρ} {set : σ → ρ → σ}
    (hget : ∀ store part, get (set store part) = part)
    (hworks : program.Works view P F Q now) :
    (program.zoom get set).Works (fun store => view (get store)) (fun store => P (get store))
      (fun store later => F (get store) (get later)) Q now := by
  induction hworks with
  | done hresult => exact .done hresult
  | access hkeeps hnext ih =>
      refine .access (fun store hstore hview => ?_) fun store hstore hview => ?_
      · rw [hget]
        exact hkeeps (get store) hstore hview
      · rw [hget]
        exact ih (get store) hstore hview

/-- A program that sees nothing works wherever it keeps to `F`. -/
theorem Guarantees.works {G : σ → σ → Prop} (hprogram : program.Guarantees G)
    (hkeeps : ∀ store later, P store → G store later → P later ∧ F store later)
    (hview : ∀ store, view store = now) (hQ : ∀ result, Q result now) :
    program.Works view P F Q now := by
  induction hprogram with
  | done result => exact .done (hQ result)
  | access hupdate hnext ih =>
      refine .access (fun store hstore _ => hkeeps store _ hstore (hupdate store)) ?_
      intro store _ _
      rw [hview]
      exact ih store

theorem Guarantees.bind {program : Resumption σ ε α} {next : α → Resumption σ ε β}
    (hprogram : program.Guarantees F) (hnext : ∀ value, (next value).Guarantees F) :
    (program >>= next).Guarantees F := by
  induction hprogram with
  | done result =>
      cases result with
      | error fault => exact .done _
      | ok value => exact hnext value
  | access hupdate _ ih => exact .access hupdate ih

theorem Guarantees.map (hprogram : program.Guarantees F) (f : α → β) :
    (program.map f).Guarantees F := by
  induction hprogram with
  | done result => exact .done _
  | access hupdate _ ih => exact .access hupdate ih

theorem Guarantees.mono {G : σ → σ → Prop} (hprogram : program.Guarantees F)
    (hG : ∀ store later, F store later → G store later) : program.Guarantees G := by
  induction hprogram with
  | done result => exact .done result
  | access hupdate _ ih => exact .access (fun store => hG _ _ (hupdate store)) ih

theorem guarantees_of_forall (program : Resumption σ ε α) (hF : ∀ store later, F store later) :
    program.Guarantees F := by
  induction program with
  | done result => exact .done result
  | access update next ih => exact .access (fun store => hF store _) ih

theorem guarantees_pure (value : α) : (pure value : Resumption σ ε α).Guarantees F := .done _

theorem guarantees_atomically {f : σ → Except ε α × σ} (hf : ∀ store, F store (f store).2) :
    (atomically f).Guarantees F :=
  .access hf fun store => .done (f store).1

end Rules

section Locality

variable {view : σ → σ} {P : σ → Prop} {F : σ → σ → Prop} {R : α → Prop} {S : β → Prop}
  {program : Resumption σ ε α}

theorem local_pure {value : α} (hvalue : R value) :
    Local view P F R (pure value : Resumption σ ε α) := by
  refine .done ?_
  rintro _ ⟨⟩
  exact hvalue

theorem local_atomically {f : σ → Except ε α × σ}
    (hkeeps : ∀ store, P store → P (f store).2 ∧ F store (f store).2)
    (hview : ∀ store, P store → f (view store) = ((f store).1, view (f store).2))
    (hR : ∀ store, P store → ∀ value, (f store).1 = .ok value → R value) :
    Local view P F R (atomically f) := by
  refine .access hkeeps ?_ ?_ fun store hstore => .done (hR store hstore)
  · intro store hstore
    rw [hview store hstore]
  · intro store hstore
    rw [hview store hstore]

theorem Local.bind {next : α → Resumption σ ε β} (hprogram : Local view P F R program)
    (hnext : ∀ value, R value → Local view P F S (next value)) :
    Local view P F S (program >>= next) := by
  induction hprogram with
  | @done result hresult =>
      cases result with
      | error fault => exact .done fun value heq => by cases heq
      | ok value => exact hnext value (hresult value rfl)
  | access hkeeps hupdate hsame _ ih =>
      refine .access hkeeps hupdate (fun store hstore => ?_) ih
      rw [hsame store hstore]

theorem Local.and_guarantees (hprogram : Local view P F R program) {G : σ → σ → Prop}
    (hguarantees : program.Guarantees G) :
    Local view P (fun store later => F store later ∧ G store later) R program := by
  induction hprogram with
  | done hresult => exact .done hresult
  | access hkeeps hupdate hsame _ ih =>
      cases hguarantees with
      | access hchange hlater =>
          refine .access (fun store hstore => ?_) hupdate hsame fun store hstore => ?_
          · exact ⟨(hkeeps store hstore).1, (hkeeps store hstore).2, hchange store⟩
          · exact ih store hstore (hlater store)

/-- A local program ends as it does alone on what it sees. -/
theorem Local.works (hprogram : Local view P F R program) {Q : Except ε α → σ → Prop} {now : σ}
    (hQ : Q (program.exec now).1 (program.exec now).2) : program.Works view P F Q now := by
  induction hprogram generalizing now with
  | done => exact .done hQ
  | access hkeeps hupdate hsame _ ih =>
      refine .access (fun store hstore _ => hkeeps store hstore) ?_
      rintro store hstore rfl
      rw [exec_access, hsame store hstore, ← hupdate store hstore] at hQ
      exact ih store hstore hQ

end Locality

end Resumption
