/-
Workers whose jobs do not conflict.  Each job is an input for one of several machines, or
for none, and two jobs conflict if they are for one machine and one of them changes its
state.  However the workers go on, the results are those of the machines that read the
inputs one after the other, in the order in which the jobs began.
-/
import SwanServer.Machine
import SwanServer.RelyGuarantee
import SwanServer.WorkPool

namespace WorkPool

universe u v w x y z

/-- What jobs are for: the machines, the part of the store that holds the state of each of
them, and how results show answers. -/
structure Service (γ κ δ : Type u) (σ τ : Type v) (S : Type w) (ω : Type x) (ε : Type y)
    (α : Type z) where
  machine : Machine S δ ω
  request : γ → Option (κ × δ)
  reads : δ → Prop
  step_of_reads : ∀ {state input}, reads input → (machine.step state input).2 = state
  admits : S → δ → Prop
  inv : σ → Prop
  part : κ → σ → τ
  rel : κ → τ → S → Prop
  shows : Except ε α → ω → Prop

namespace Service

variable {ι γ κ δ : Type u} {σ τ : Type v} {S : Type w} {ω : Type x} {ε : Type y} {α : Type z}
  (service : Service γ κ δ σ τ S ω ε α)

def Uses (job : γ) (key : κ) : Prop := ∃ input, service.request job = some (key, input)

def Writes (job : γ) (key : κ) : Prop :=
  ∃ input, service.request job = some (key, input) ∧ ¬ service.reads input

def Conflict (first second : γ) : Prop :=
  ∃ key, service.Uses first key ∧ service.Uses second key ∧
    (service.Writes first key ∨ service.Writes second key)

/-- What a job sees of the store. -/
def view (job : γ) (store : σ) : Option τ :=
  (service.request job).map fun request => service.part request.1 store

/-- A change of the parts only that the job writes. -/
def Spares (job : γ) (store later : σ) : Prop :=
  ∀ key, ¬ service.Writes job key → service.part key later = service.part key store

/-- The job has done what its machine does. -/
def Meets (job : γ) (ideal : Option ω × (κ → S)) (result : Except ε α) (now : Option τ) :
    Prop :=
  (∀ key part, service.Uses job key → now = some part → service.rel key part (ideal.2 key)) ∧
    ∀ answer, ideal.1 = some answer → service.shows result answer

variable [DecidableEq κ]

def Admits (states : κ → S) (job : γ) : Prop :=
  ∀ key input, Machine.inputFor key (service.request job) = some input →
    service.admits (states key) input

/-- The machines together. -/
def family : Machine (κ → S) γ (Option ω) := service.machine.family.comap service.request

/-- The programs do what the machines do. -/
def Performed (program : γ → Resumption σ ε α) : Prop :=
  ∀ states job store, service.inv store → service.Admits states job →
    (∀ key, service.Uses job key → service.rel key (service.part key store) (states key)) →
    (program job).Works (service.view job) service.inv (service.Spares job)
      (service.Meets job (service.family.step states job)) (service.view job store)

/-- An entry beside the step of the machines that it stands for. -/
structure Fits (state : State ι σ ε α) (states : κ → S) (entry : Entry ι γ ε α)
    (ideal : Option ω × (κ → S)) : Prop where
  shown : ∀ result, entry.result = some result → ∀ answer, ideal.1 = some answer →
    service.shows result answer
  works : entry.Open → ∃ rest, state.work entry.worker = some rest ∧
    rest.Works (service.view entry.job) service.inv (service.Spares entry.job)
      (service.Meets entry.job ideal) (service.view entry.job state.store)
  current : entry.Open → ∀ key, service.Uses entry.job key → ideal.2 key = states key

variable [DecidableEq ι]

/-- The workers beside the machines. -/
structure Serial (start : κ → S) (marks : List (Mark ι γ ε α)) (state : State ι σ ε α) :
    Prop where
  inv : service.inv state.store
  rel : ∀ key, (∀ entry ∈ journal marks, entry.Open → ¬ service.Writes entry.job key) →
    service.rel key (service.part key state.store)
      (service.family.final start (jobs marks) key)
  fits : List.Forall₂ (service.Fits state (service.family.final start (jobs marks)))
    (journal marks) (service.family.trace start (jobs marks))
  apart : ∀ first ∈ journal marks, ∀ second ∈ journal marks, first.Open → second.Open →
    first.worker ≠ second.worker → ¬ service.Conflict first.job second.job
  busy : ∀ worker rest, state.work worker = some rest →
    ∃ entry ∈ journal marks, entry.Open ∧ entry.worker = worker

section Rules

variable {service} {start states : κ → S} {marks : List (Mark ι γ ε α)}
  {state next : State ι σ ε α} {job other : γ} {key : κ} {worker : ι}

omit [DecidableEq κ] in
theorem Writes.uses (hwrites : service.Writes job key) : service.Uses job key := by
  obtain ⟨input, hrequest, -⟩ := hwrites
  exact ⟨input, hrequest⟩

omit [DecidableEq κ] in
theorem not_writes_of_not_conflict (hconflict : ¬ service.Conflict job other)
    (huses : service.Uses other key) : ¬ service.Writes job key :=
  fun hwrites => hconflict ⟨key, hwrites.uses, huses, .inl hwrites⟩

omit [DecidableEq κ] in
theorem not_conflict_symm (hconflict : ¬ service.Conflict job other) :
    ¬ service.Conflict other job := by
  rintro ⟨key, hother, hjob, hwrites⟩
  exact hconflict ⟨key, hjob, hother, hwrites.symm⟩

omit [DecidableEq κ] in
theorem view_eq {store later : σ}
    (hpart : ∀ key, service.Uses job key → service.part key later = service.part key store) :
    service.view job later = service.view job store := by
  rw [view, view]
  cases hrequest : service.request job with
  | none => rfl
  | some request => exact congrArg some (hpart request.1 ⟨request.2, hrequest⟩)

theorem family_step_of_not_writes (hwrites : ¬ service.Writes job key) :
    (service.family.step states job).2 key = states key := by
  rw [family, Machine.comap_step, Machine.family_step_apply]
  rcases hrequest : service.request job with _ | ⟨own, input⟩
  · rfl
  · rw [Machine.inputFor]
    rcases eq_or_ne own key with rfl | hne
    · have hreads : service.reads input := by
        by_contra hnot
        exact hwrites ⟨input, hrequest, hnot⟩
      rw [if_pos rfl]
      exact service.step_of_reads hreads
    · rw [if_neg hne]

/-- A job is done by doing what its machine does with its input. -/
theorem works_of_request {program : Resumption σ ε α} {input : δ} {store : σ}
    (hrequest : service.request job = some (key, input))
    (hworks : program.Works (service.part key) service.inv (service.Spares job)
      (fun result part => service.rel key part (service.machine.step (states key) input).2 ∧
        service.shows result (service.machine.step (states key) input).1)
      (service.part key store)) :
    program.Works (service.view job) service.inv (service.Spares job)
      (service.Meets job (service.family.step states job)) (service.view job store) := by
  have hview : service.view job = fun store => some (service.part key store) := by
    funext store
    rw [view, hrequest]
    rfl
  have hideal : service.family.step states job =
      (some (service.machine.step (states key) input).1,
        Function.update states key (service.machine.step (states key) input).2) :=
    congrArg (service.machine.family.step states) hrequest
  rw [hview, hideal]
  refine hworks.comp (Option.some_injective _) ?_
  rintro result part ⟨hrel, hshown⟩
  refine ⟨?_, ?_⟩
  · rintro other _ ⟨own, huses⟩ ⟨⟩
    cases hrequest.symm.trans huses
    dsimp only
    rwa [Function.update_self]
  · rintro _ ⟨⟩
    exact hshown

/-- A job for none of the machines leaves them all alone. -/
theorem works_of_none {program : Resumption σ ε α} {G : σ → σ → Prop} {store : σ}
    (hrequest : service.request job = none) (hprogram : program.Guarantees G)
    (hkeeps : ∀ store later, service.inv store → G store later →
      service.inv later ∧ ∀ key, service.part key later = service.part key store) :
    program.Works (service.view job) service.inv (service.Spares job)
      (service.Meets job (service.family.step states job)) (service.view job store) := by
  have hview : ∀ other, service.view job other = service.view job store := by
    intro other
    rw [view, view, hrequest]
    rfl
  have hideal : service.family.step states job = (none, states) :=
    congrArg (service.machine.family.step states) hrequest
  refine hprogram.works (fun before later hinv hG => ?_) hview fun result => ⟨?_, ?_⟩
  · obtain ⟨hlater, hpart⟩ := hkeeps before later hinv hG
    exact ⟨hlater, fun key _ => hpart key⟩
  · rintro other part ⟨input, huses⟩
    cases hrequest.symm.trans huses
  · intro answer hanswer
    rw [hideal] at hanswer
    cases hanswer

omit [DecidableEq κ] [DecidableEq ι] in
theorem exists_of_forall₂ {A : Type u} {B : Type v} {R : A → B → Prop} {first : List A}
    {second : List B} (hall : List.Forall₂ R first second) {a : A} (ha : a ∈ first) :
    ∃ b, R a b := by
  induction hall with
  | nil => cases ha
  | cons hhead _ ih =>
      rcases List.mem_cons.mp ha with rfl | htail
      · exact ⟨_, hhead⟩
      · exact ih htail

namespace Serial

variable (hserial : service.Serial start marks state)

include hserial

theorem forall₂_mem : List.Forall₂ (fun entry ideal => entry ∈ journal marks ∧
    service.Fits state (service.family.final start (jobs marks)) entry ideal)
    (journal marks) (service.family.trace start (jobs marks)) :=
  (List.forall₂_and_left _ _).mpr ⟨fun _ hmem => hmem, hserial.fits⟩

theorem exists_fits {entry : Entry ι γ ε α} (hmem : entry ∈ journal marks) :
    ∃ ideal, service.Fits state (service.family.final start (jobs marks)) entry ideal :=
  exists_of_forall₂ hserial.fits hmem

/-- Whoever has a job open is at work. -/
theorem worker_ne (hidle : state.work worker = none) {entry : Entry ι γ ε α}
    (hmem : entry ∈ journal marks) (hopen : entry.Open) : entry.worker ≠ worker := by
  rintro rfl
  obtain ⟨ideal, hfits⟩ := hserial.exists_fits hmem
  obtain ⟨rest, hrest, -⟩ := hfits.works hopen
  rw [hidle] at hrest
  cases hrest

/-- A job begins that conflicts with none at work. -/
theorem begins {program : γ → Resumption σ ε α} (hperformed : service.Performed program)
    (hidle : state.work worker = none)
    (hconflict : ∀ entry ∈ journal marks, entry.Open → ¬ service.Conflict entry.job job)
    (hadmits : service.Admits (service.family.final start (jobs marks)) job) :
    service.Serial start (marks ++ [.begins worker job])
      (state.withWork worker (some (program job))) := by
  have hcurrent : ∀ entry ∈ journal marks, entry.Open → ∀ key, service.Uses entry.job key →
      (service.family.step (service.family.final start (jobs marks)) job).2 key =
        service.family.final start (jobs marks) key := by
    intro entry hmem hopen key huses
    exact family_step_of_not_writes
      (not_writes_of_not_conflict (not_conflict_symm (hconflict entry hmem hopen)) huses)
  have hrel : ∀ key, service.Uses job key → service.rel key (service.part key state.store)
      (service.family.final start (jobs marks) key) :=
    fun key huses => hserial.rel key fun entry hmem hopen =>
      not_writes_of_not_conflict (hconflict entry hmem hopen) huses
  refine ⟨hserial.inv, ?_, ?_, ?_, ?_⟩
  · intro key hfree
    rw [journal_begins] at hfree
    have hnew := hfree _ (List.mem_append_right _ (List.mem_singleton_self _)) rfl
    rw [jobs_begins, Machine.final_concat, family_step_of_not_writes hnew]
    exact hserial.rel key fun entry hmem => hfree entry (List.mem_append_left _ hmem)
  · rw [journal_begins, jobs_begins, Machine.trace_concat, Machine.final_concat]
    refine List.rel_append ?_ (.cons ⟨?_, ?_, ?_⟩ .nil)
    · refine hserial.forall₂_mem.imp ?_
      rintro entry ideal ⟨hmem, hfits⟩
      refine ⟨hfits.shown, fun hopen => ?_, fun hopen key huses => ?_⟩
      · rw [work_withWork_of_ne (hserial.worker_ne hidle hmem hopen)]
        exact hfits.works hopen
      · exact (hfits.current hopen key huses).trans (hcurrent entry hmem hopen key huses).symm
    · rintro result ⟨⟩
    · intro _
      exact ⟨_, work_withWork _ _, hperformed _ job state.store hserial.inv hadmits hrel⟩
    · exact fun _ _ _ => rfl
  · rw [journal_begins]
    intro first hfirst second hsecond hopen hopen' hne
    rcases List.mem_append.mp hfirst with hfirst | hfirst <;>
      rcases List.mem_append.mp hsecond with hsecond | hsecond
    · exact hserial.apart first hfirst second hsecond hopen hopen' hne
    · cases List.mem_singleton.mp hsecond
      exact hconflict first hfirst hopen
    · cases List.mem_singleton.mp hfirst
      exact not_conflict_symm (hconflict second hsecond hopen')
    · cases List.mem_singleton.mp hfirst
      cases List.mem_singleton.mp hsecond
      exact absurd rfl hne
  · rw [journal_begins]
    intro other rest hrest
    rcases eq_or_ne other worker with rfl | hne
    · exact ⟨_, List.mem_append_right _ (List.mem_singleton_self _), rfl, rfl⟩
    · rw [work_withWork_of_ne hne] at hrest
      obtain ⟨entry, hmem, hopen⟩ := hserial.busy other rest hrest
      exact ⟨entry, List.mem_append_left _ hmem, hopen⟩

/-- An access is one of an open job, and the other jobs do not see it. -/
theorem accesses {update : σ → σ} {later : σ → Resumption σ ε α}
    (hwork : state.work worker = some (.access update later)) :
    service.Serial start marks ({ state with store := update state.store }.withWork worker
      (some (later state.store))) := by
  have haccess : ∀ {entry ideal}, entry.Open → entry.worker = worker →
      service.Fits state (service.family.final start (jobs marks)) entry ideal →
      service.inv (update state.store) ∧
        service.Spares entry.job state.store (update state.store) ∧
        (later state.store).Works (service.view entry.job) service.inv
          (service.Spares entry.job) (service.Meets entry.job ideal)
          (service.view entry.job (update state.store)) := by
    rintro entry ideal hopen rfl hfits
    obtain ⟨rest, hrest, hworks⟩ := hfits.works hopen
    cases Option.some.inj (hwork.symm.trans hrest)
    exact Resumption.works_access_iff.mp hworks state.store hserial.inv rfl
  obtain ⟨own, hown, hopen, hworker⟩ := hserial.busy worker _ hwork
  obtain ⟨ideal, hfits⟩ := hserial.exists_fits hown
  obtain ⟨hinv, hspares, -⟩ := haccess hopen hworker hfits
  refine ⟨hinv, fun key hfree => ?_, ?_, hserial.apart, ?_⟩
  · change service.rel key (service.part key (update state.store)) _
    rw [hspares key (hfree own hown hopen)]
    exact hserial.rel key hfree
  · refine hserial.forall₂_mem.imp ?_
    rintro entry ideal ⟨hmem, hfits⟩
    refine ⟨hfits.shown, fun hentry => ?_, hfits.current⟩
    by_cases hsame : entry.worker = worker
    · rw [hsame, work_withWork]
      exact ⟨_, rfl, (haccess hentry hsame hfits).2.2⟩
    · have hview : service.view entry.job (update state.store) =
          service.view entry.job state.store := by
        refine view_eq fun key huses => hspares key (not_writes_of_not_conflict ?_ huses)
        exact hserial.apart own hown entry hmem hopen hentry (hworker.trans_ne (Ne.symm hsame))
      rw [work_withWork_of_ne hsame]
      obtain ⟨rest, hrest, hworks⟩ := hfits.works hentry
      exact ⟨rest, hrest, hview.symm ▸ hworks⟩
  · intro other rest hrest
    rcases eq_or_ne other worker with rfl | hne
    · exact ⟨own, hown, hopen, hworker⟩
    · rw [work_withWork_of_ne hne] at hrest
      exact hserial.busy other rest hrest

/-- A job ends with the answer of its machine, and leaves its state. -/
theorem ends {result : Except ε α} (hwork : state.work worker = some (.done result)) :
    service.Serial start (marks ++ [.ends worker result]) (state.withWork worker none) := by
  have hmeets : ∀ {entry ideal}, entry.Open → entry.worker = worker →
      service.Fits state (service.family.final start (jobs marks)) entry ideal →
      service.Meets entry.job ideal result (service.view entry.job state.store) := by
    rintro entry ideal hopen rfl hfits
    obtain ⟨rest, hrest, hworks⟩ := hfits.works hopen
    cases Option.some.inj (hwork.symm.trans hrest)
    exact Resumption.works_done_iff.mp hworks
  refine ⟨hserial.inv, ?_, ?_, ?_, ?_⟩
  · intro key hfree
    rw [journal_ends, List.forall_mem_map] at hfree
    rw [jobs_ends]
    by_cases hwritten : ∃ entry ∈ journal marks, entry.Open ∧ service.Writes entry.job key
    · obtain ⟨entry, hmem, hopen, hwrites⟩ := hwritten
      have hworker : entry.worker = worker := by
        by_contra hne
        refine hfree entry hmem (Entry.open_close_iff.mpr ⟨hopen, hne⟩) ?_
        rwa [Entry.job_close]
      obtain ⟨ideal, hfits⟩ := hserial.exists_fits hmem
      obtain ⟨input, hrequest⟩ := hwrites.uses
      rw [← hfits.current hopen key hwrites.uses]
      refine (hmeets hopen hworker hfits).1 key _ hwrites.uses ?_
      rw [view, hrequest]
      rfl
    · exact hserial.rel key fun entry hmem hopen hwrites =>
        hwritten ⟨entry, hmem, hopen, hwrites⟩
  · rw [journal_ends, jobs_ends, List.forall₂_map_left_iff]
    refine hserial.fits.imp fun entry ideal hfits => ?_
    by_cases hopen : entry.Open
    · by_cases hworker : entry.worker = worker
      · rw [Entry.close_of_open hopen hworker]
        refine ⟨?_, fun habsurd => ?_, fun habsurd => ?_⟩
        · rintro _ ⟨⟩
          exact (hmeets hopen hworker hfits).2
        · exact absurd habsurd (Option.some_ne_none _)
        · exact absurd habsurd (Option.some_ne_none _)
      · rw [Entry.close_of_ne hworker]
        refine ⟨hfits.shown, fun hentry => ?_, hfits.current⟩
        rw [work_withWork_of_ne hworker]
        exact hfits.works hentry
    · rw [Entry.close_of_not_open hopen]
      exact ⟨hfits.shown, fun habsurd => absurd habsurd hopen, hfits.current⟩
  · rw [journal_ends, List.forall_mem_map]
    intro first hfirst
    rw [List.forall_mem_map]
    intro second hsecond hopen hopen' hne
    obtain ⟨hbefore, hworker⟩ := Entry.open_close_iff.mp hopen
    obtain ⟨hbefore', hworker'⟩ := Entry.open_close_iff.mp hopen'
    rw [Entry.close_of_ne hworker, Entry.close_of_ne hworker'] at hne ⊢
    exact hserial.apart first hfirst second hsecond hbefore hbefore' hne
  · intro other rest hrest
    rcases eq_or_ne other worker with rfl | hne
    · rw [work_withWork] at hrest
      cases hrest
    · rw [work_withWork_of_ne hne] at hrest
      obtain ⟨entry, hmem, hopen, hworker⟩ := hserial.busy other rest hrest
      rw [journal_ends]
      refine ⟨entry, List.mem_map.mpr ⟨entry, hmem, ?_⟩, hopen, hworker⟩
      exact Entry.close_of_ne (hworker.trans_ne hne)

end Serial

/-- As long as no job begins while one that it conflicts with is at work, the workers keep
beside the machines. -/
theorem serial_of_run {program : γ → Resumption σ ε α} (hperformed : service.Performed program)
    {store : σ} (hinv : service.inv store)
    (hrel : ∀ key, service.rel key (service.part key store) (start key))
    {events : List (Event ι γ)}
    (hrun : (system program).run (initial store) events = some next)
    (horderly : Orderly service.Conflict (history program store events))
    (hadmits : service.family.Guarded service.Admits start
      (jobs (history program store events))) :
    service.Serial start (history program store events) next := by
  let Inv : List (Mark ι γ ε α) → State ι σ ε α → Prop := fun marks state =>
    Orderly service.Conflict marks →
      service.family.Guarded service.Admits start (jobs marks) → service.Serial start marks state
  have hinitial : Inv [] (initial store) := by
    intro _ _
    refine ⟨hinv, fun key _ => hrel key, .nil, ?_, ?_⟩
    · intro first hfirst
      cases hfirst
    · rintro worker rest ⟨⟩
  have hstep : ∀ {marks : List (Mark ι γ ε α)} {state later : State ι σ ε α}
      {event : Event ι γ}, Inv marks state → (system program).step state event = some later →
      Inv (marks ++ (mark state event).toList) later := by
    intro marks state later event hbefore hnext horderly hadmits
    have hserial := hbefore horderly.of_append
    cases step_eq_some_iff.mp hnext with
    | @begins worker job hidle =>
        change service.family.Guarded _ _ (jobs (marks ++ [.begins worker job])) at hadmits
        rw [jobs_begins, Machine.guarded_concat] at hadmits
        exact (hserial hadmits.1).begins hperformed hidle
          (horderly marks worker job [] rfl) hadmits.2
    | accesses hwork =>
        rw [mark, Option.toList_none, List.append_nil] at hadmits ⊢
        exact (hserial hadmits).accesses hwork
    | @ends worker result hwork =>
        have hmark : mark state (.ends worker : Event ι γ) = some (.ends worker result) := by
          rw [mark, hwork]
        rw [hmark, Option.toList_some] at hadmits ⊢
        rw [jobs_ends] at hadmits
        exact (hserial hadmits).ends hwork
  exact @Interleaving.invariant_of_observed _ _ _ (system program) (fun _ _ => True) mark Inv
    (fun hbefore _ hnext => hstep hbefore hnext) events [] _ next hinitial
    (Interleaving.guarded_true _ _ _) hrun horderly hadmits

end Rules

end Service

end WorkPool
