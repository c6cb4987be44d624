/-
Workers on one store.  Each takes up jobs, one after the other, makes the accesses that
the program of its job asks for, and ends with a result.  The workers go on in any order.
-/
import SwanServer.Interleaving
import SwanServer.Resumption

namespace WorkPool

universe u v w x y

/-- A worker begins a job, makes its next access to the store, or ends its job. -/
inductive Event (ι : Type u) (γ : Type v) where
  | begins (worker : ι) (job : γ)
  | accesses (worker : ι)
  | ends (worker : ι)

/-- What is noted of a run: the jobs that begin, and their results. -/
inductive Mark (ι : Type u) (γ : Type v) (ε : Type w) (α : Type x) where
  | begins (worker : ι) (job : γ)
  | ends (worker : ι) (result : Except ε α)

/-- The store, and what each worker has still to do. -/
structure State (ι : Type u) (σ : Type v) (ε : Type w) (α : Type x) where
  store : σ
  work : ι → Option (Resumption σ ε α)

section System

variable {ι : Type u} {γ : Type v} {ε : Type w} {α : Type x} {σ : Type y} [DecidableEq ι]
  (program : γ → Resumption σ ε α)

def State.withWork (state : State ι σ ε α) (worker : ι) (rest : Option (Resumption σ ε α)) :
    State ι σ ε α :=
  { state with work := Function.update state.work worker rest }

/-- Everybody is idle. -/
def initial (store : σ) : State ι σ ε α := ⟨store, fun _ => none⟩

def step (state : State ι σ ε α) : Event ι γ → Option (State ι σ ε α)
  | .begins worker job =>
      match state.work worker with
      | none => some (state.withWork worker (some (program job)))
      | some _ => none
  | .accesses worker =>
      match state.work worker with
      | some (.access update next) =>
          some ({ state with store := update state.store }.withWork worker
            (some (next state.store)))
      | _ => none
  | .ends worker =>
      match state.work worker with
      | some (.done _) => some (state.withWork worker none)
      | _ => none

def system : Interleaving (State ι σ ε α) (Event ι γ) := ⟨step program⟩

/-- The mark that an event leaves. -/
def mark (state : State ι σ ε α) : Event ι γ → Option (Mark ι γ ε α)
  | .begins worker job => some (.begins worker job)
  | .accesses _ => none
  | .ends worker =>
      match state.work worker with
      | some (.done result) => some (.ends worker result)
      | _ => none

/-- The marks of a run. -/
def history (store : σ) (events : List (Event ι γ)) : List (Mark ι γ ε α) :=
  (system program).observed mark (initial store) events

/-- What a step can be. -/
inductive Move (state : State ι σ ε α) : Event ι γ → State ι σ ε α → Prop where
  | begins {worker : ι} (job : γ) (hidle : state.work worker = none) :
      Move state (.begins worker job) (state.withWork worker (some (program job)))
  | accesses {worker : ι} {update : σ → σ} {next : σ → Resumption σ ε α}
      (hwork : state.work worker = some (.access update next)) :
      Move state (.accesses worker)
        ({ state with store := update state.store }.withWork worker (some (next state.store)))
  | ends {worker : ι} {result : Except ε α} (hwork : state.work worker = some (.done result)) :
      Move state (.ends worker) (state.withWork worker none)

variable {program} {state next : State ι σ ε α} {event : Event ι γ}

theorem step_eq_some_iff :
    (system program).step state event = some next ↔ Move program state event next := by
  constructor
  · intro hstep
    cases event with
    | begins worker job =>
        cases hidle : state.work worker with
        | some rest => simp [system, step, hidle] at hstep
        | none =>
            simp only [system, step, hidle, Option.some.injEq] at hstep
            exact hstep ▸ .begins job hidle
    | accesses worker =>
        rcases hwork : state.work worker with _ | ⟨result | ⟨update, later⟩⟩
        · simp [system, step, hwork] at hstep
        · simp [system, step, hwork] at hstep
        · simp only [system, step, hwork, Option.some.injEq] at hstep
          exact hstep ▸ .accesses hwork
    | ends worker =>
        rcases hwork : state.work worker with _ | ⟨result | ⟨update, later⟩⟩
        · simp [system, step, hwork] at hstep
        · simp only [system, step, hwork, Option.some.injEq] at hstep
          exact hstep ▸ .ends hwork
        · simp [system, step, hwork] at hstep
  · intro hmove
    cases hmove with
    | begins job hidle => simp [system, step, hidle]
    | accesses hwork => simp [system, step, hwork]
    | ends hwork => simp [system, step, hwork]

theorem work_withWork (worker : ι) (rest : Option (Resumption σ ε α)) :
    (state.withWork worker rest).work worker = rest := by
  simp [State.withWork]

theorem work_withWork_of_ne {worker other : ι} (hne : other ≠ worker)
    (rest : Option (Resumption σ ε α)) :
    (state.withWork worker rest).work other = state.work other := by
  simp [State.withWork, hne]

end System

/-- A job, its worker, and its result as soon as it has one. -/
structure Entry (ι : Type u) (γ : Type v) (ε : Type w) (α : Type x) where
  worker : ι
  job : γ
  result : Option (Except ε α)

namespace Entry

variable {ι : Type u} {γ : Type v} {ε : Type w} {α : Type x} [DecidableEq ι]
  (entry : Entry ι γ ε α)

def Open : Prop := entry.result = none

/-- The entry once a worker has ended its job. -/
def close (worker : ι) (result : Except ε α) : Entry ι γ ε α :=
  if entry.worker = worker ∧ entry.result.isNone then { entry with result := some result }
  else entry

variable {entry} {worker : ι} {result : Except ε α}

theorem close_of_ne (hne : entry.worker ≠ worker) : entry.close worker result = entry := by
  rw [close, if_neg fun hboth => hne hboth.1]

theorem close_of_not_open (hclosed : ¬ entry.Open) : entry.close worker result = entry := by
  rw [close, if_neg fun hboth => hclosed (Option.isNone_iff_eq_none.mp hboth.2)]

theorem close_of_open (hopen : entry.Open) (hworker : entry.worker = worker) :
    entry.close worker result = { entry with result := some result } := by
  rw [close, if_pos ⟨hworker, Option.isNone_iff_eq_none.mpr hopen⟩]

theorem job_close : (entry.close worker result).job = entry.job := by
  rw [close]
  split <;> rfl

theorem open_close_iff :
    (entry.close worker result).Open ↔ entry.Open ∧ entry.worker ≠ worker := by
  by_cases hopen : entry.Open
  · by_cases hworker : entry.worker = worker
    · rw [close_of_open hopen hworker]
      exact iff_of_false (Option.some_ne_none _) fun hboth => hboth.2 hworker
    · rw [close_of_ne hworker]
      exact iff_of_true hopen ⟨hopen, hworker⟩
  · rw [close_of_not_open hopen]
    exact iff_of_false hopen fun hboth => hopen hboth.1

end Entry

section Journal

variable {ι : Type u} {γ : Type v} {ε : Type w} {α : Type x} [DecidableEq ι]

def note (entries : List (Entry ι γ ε α)) : Mark ι γ ε α → List (Entry ι γ ε α)
  | .begins worker job => entries ++ [⟨worker, job, none⟩]
  | .ends worker result => entries.map (Entry.close · worker result)

/-- The jobs of a run in the order in which they began. -/
def journal (marks : List (Mark ι γ ε α)) : List (Entry ι γ ε α) := marks.foldl note []

def jobs (marks : List (Mark ι γ ε α)) : List γ := (journal marks).map Entry.job

/-- No job begins while one that it conflicts with is at work. -/
def Orderly (conflict : γ → γ → Prop) (marks : List (Mark ι γ ε α)) : Prop :=
  ∀ earlier worker job later, marks = earlier ++ .begins worker job :: later →
    ∀ entry ∈ journal earlier, entry.Open → ¬ conflict entry.job job

variable {marks : List (Mark ι γ ε α)} {worker : ι}

theorem journal_begins (job : γ) :
    journal (marks ++ [.begins worker job]) = journal marks ++ [⟨worker, job, none⟩] := by
  simp [journal, note]

theorem journal_ends (result : Except ε α) :
    journal (marks ++ [.ends worker result]) =
      (journal marks).map (Entry.close · worker result) := by
  simp [journal, note]

theorem jobs_begins (job : γ) : jobs (marks ++ [.begins worker job]) = jobs marks ++ [job] := by
  rw [jobs, journal_begins, List.map_append]
  rfl

theorem jobs_ends (result : Except ε α) :
    jobs (marks ++ [.ends worker result]) = jobs marks := by
  rw [jobs, journal_ends, List.map_map]
  exact List.map_congr_left fun entry _ => Entry.job_close

theorem Orderly.of_append {conflict : γ → γ → Prop} {more : List (Mark ι γ ε α)}
    (horderly : Orderly conflict (marks ++ more)) : Orderly conflict marks := by
  rintro earlier worker job later rfl
  exact horderly earlier worker job (later ++ more) (by simp)

theorem jobs_starts_append (more : List (Mark ι γ ε α)) :
    jobs marks <+: jobs (marks ++ more) := by
  induction more using List.reverseRecOn with
  | nil => rw [List.append_nil]
  | append_singleton more last ih =>
      rw [← List.append_assoc]
      cases last with
      | begins worker job =>
          rw [jobs_begins]
          exact ih.trans (List.prefix_append _ _)
      | ends worker result => rwa [jobs_ends]

/-- Jobs that never conflict may overlap at will. -/
theorem orderly_of_pairwise {conflict : γ → γ → Prop}
    (hjobs : (jobs marks).Pairwise fun first second => ¬ conflict first second) :
    Orderly conflict marks := by
  rintro earlier worker job later rfl entry hmem -
  have hstarts := @jobs_starts_append _ _ _ _ _ (earlier ++ [.begins worker job]) later
  rw [jobs_begins, List.append_assoc, List.singleton_append] at hstarts
  have hpair := hjobs.sublist hstarts.sublist
  exact (List.pairwise_append.mp hpair).2.2 _ (List.mem_map_of_mem hmem) _
    (List.mem_singleton_self _)

end Journal

end WorkPool
