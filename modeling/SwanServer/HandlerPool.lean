/-
The handlers of the server as workers on what they share.  Of a whole run of the server
only three kinds of steps matter to them: a thread begins with a request text, makes an
access, or has the response.
-/
import SwanServer.LaunchedRuns
import SwanServer.WorkPool

namespace SwanServer

namespace Server

section Pool

variable {ι φ σ : Type}

/-- What a thread has still to do of `processRequest`. -/
def Task.work : Task φ σ → Option (Resumption σ Fault (Response × FactoryRoutes φ))
  | .processRequest _ rest => some rest
  | _ => none

/-- The step of the handlers that an event is, if it is one. -/
def poolEvent (state : State ι φ σ) : Event ι → Option (WorkPool.Event ι Str)
  | .goesOn thread connected _ =>
      match state.task thread with
      | .handleRead session false =>
          if connected then
            ((state.heap session).bind fun connection =>
              connection.data.requestString).map (.begins thread)
          else none
      | .processRequest _ (.access _ _) => some (.accesses thread)
      | .processRequest _ (.done _) => some (.ends thread)
      | _ => none
  | _ => none

/-- The handlers beside the server. -/
structure Pooled [Fintype ι] (parseRequest : Str → Option Request)
    (program : φ → Request → Response → Resumption σ Fault (Bool × Response))
    (routes : FactoryRoutes φ) (state : State ι φ σ)
    (pool : WorkPool.State ι σ Fault (Response × FactoryRoutes φ)) : Prop where
  custody : InCustody state
  routed : Routed parseRequest program routes state
  store : pool.store = state.store
  work : state.ended = none → ∀ thread, pool.work thread = (state.task thread).work

variable [DecidableEq ι] [Fintype ι] {parseRequest : Str → Option Request}
  {program : φ → Request → Response → Resumption σ Fault (Bool × Response)}
  {routes : FactoryRoutes φ} {state next : State ι φ σ} {event : Event ι}
  {pool : WorkPool.State ι σ Fault (Response × FactoryRoutes φ)}

omit [Fintype ι] in
theorem work_task_withTask {thread : ι} {task : Task φ σ}
    (hwork : task.work = (state.task thread).work) (other : ι) :
    ((state.withTask thread task).task other).work = (state.task other).work := by
  rcases eq_or_ne other thread with rfl | hne
  · rw [State.task_withTask, hwork]
  · rw [State.task_withTask_of_ne _ hne]

/-- The handlers follow the server. -/
theorem Pooled.step (hroute : ∀ requestString, ∃ factory,
      routes.find? (matchedLocationPath parseRequest routes requestString) = some (some factory))
    (hpooled : Pooled parseRequest program routes state pool) (hended : state.ended = none)
    (hmove : Move parseRequest program routes state event next) :
    (poolEvent state event = none → Pooled parseRequest program routes next pool) ∧
      ∀ image, poolEvent state event = some image →
        ∃ later, WorkPool.Move
          (fun requestString => processProgram parseRequest program routes requestString .empty)
          pool image later ∧ Pooled parseRequest program routes next later := by
  have hcustody := hpooled.custody.step hmove
  have hrouted := hpooled.routed.step hroute hpooled.custody hended hmove
  have hsame : poolEvent state event = none → next.store = state.store →
      (∀ other, (next.task other).work = (state.task other).work) →
      (poolEvent state event = none → Pooled parseRequest program routes next pool) ∧
        ∀ image, poolEvent state event = some image →
          ∃ later, WorkPool.Move
            (fun requestString => processProgram parseRequest program routes requestString .empty)
            pool image later ∧ Pooled parseRequest program routes next later := by
    intro hevent hstore htasks
    refine ⟨fun _ => ⟨hcustody, hrouted, hpooled.store.trans hstore.symm, ?_⟩, ?_⟩
    · intro _ thread
      rw [htasks, hpooled.work hended]
    · intro image himage
      rw [hevent] at himage
      cases himage
  cases hmove with
  | accepted error htask | received chunk htask | readFailed htask | sent htask
  | writeFailed htask =>
      exact hsame rfl rfl (work_task_withTask (congrArg Task.work htask).symm)
  | dropAccepted htask | deleteReader htask | deleteWriter htask | startSession htask
  | asyncAccept htask | asyncWrite htask | readAgain htask | construct memory htask =>
      exact hsame (by rw [poolEvent, htask]) rfl
        (work_task_withTask (congrArg Task.work htask).symm)
  | notConnected htask =>
      exact hsame (by rw [poolEvent, htask]; rfl) rfl fun _ => rfl
  | unterminated htask hlive hstring =>
      refine hsame ?_ rfl fun _ => rfl
      rw [poolEvent, htask]
      simp [hlive, hstring]
  | dangling hdead hheld => exact absurd hdead (hpooled.custody.heap_ne_none hheld)
  | @process thread memory session connection requestString htask hlive hstring =>
      have hevent : poolEvent state (.goesOn thread true memory) =
          some (.begins thread requestString) := by
        rw [poolEvent, htask]
        simp [hlive, hstring]
      rw [hevent]
      refine ⟨fun habsurd => absurd habsurd (Option.some_ne_none _), ?_⟩
      rintro _ ⟨⟩
      refine ⟨_, .begins requestString ?_, hcustody, hrouted, hpooled.store, fun _ other => ?_⟩
      · rw [hpooled.work hended, htask]
        rfl
      · rcases eq_or_ne other thread with rfl | hne
        · rw [WorkPool.work_withWork, State.task_withTask,
            hpooled.routed.tables session connection hlive]
          rfl
        · rw [WorkPool.work_withWork_of_ne hne, State.task_withTask_of_ne _ hne]
          exact hpooled.work hended other
  | @access thread connected memory session update later htask =>
      have hevent : poolEvent state (.goesOn thread connected memory) =
          some (.accesses thread) := by
        rw [poolEvent, htask]
      rw [hevent]
      refine ⟨fun habsurd => absurd habsurd (Option.some_ne_none _), ?_⟩
      rintro _ ⟨⟩
      have hwork : pool.work thread = some (.access update later) := by
        rw [hpooled.work hended, htask]
        rfl
      refine ⟨_, .accesses hwork, hcustody, hrouted, congrArg update hpooled.store,
        fun _ other => ?_⟩
      rcases eq_or_ne other thread with rfl | hne
      · rw [WorkPool.work_withWork, State.task_withTask, hpooled.store]
        rfl
      · rw [WorkPool.work_withWork_of_ne hne, State.task_withTask_of_ne _ hne]
        exact hpooled.work hended other
  | @uncaught thread connected memory session fault htask =>
      have hevent : poolEvent state (.goesOn thread connected memory) = some (.ends thread) := by
        rw [poolEvent, htask]
      rw [hevent]
      refine ⟨fun habsurd => absurd habsurd (Option.some_ne_none _), ?_⟩
      rintro _ ⟨⟩
      have hwork : pool.work thread = some (.done (.error fault)) := by
        rw [hpooled.work hended, htask]
        rfl
      exact ⟨_, .ends hwork, hcustody, hrouted, hpooled.store,
        fun habsurd => absurd habsurd (Option.some_ne_none _)⟩
  | @respond thread connected memory session connection answer htask hlive =>
      have hevent : poolEvent state (.goesOn thread connected memory) = some (.ends thread) := by
        rw [poolEvent, htask]
      rw [hevent]
      refine ⟨fun habsurd => absurd habsurd (Option.some_ne_none _), ?_⟩
      rintro _ ⟨⟩
      have hwork : pool.work thread = some (.done (.ok answer)) := by
        rw [hpooled.work hended, htask]
        rfl
      refine ⟨_, .ends hwork, hcustody, hrouted, hpooled.store, fun _ other => ?_⟩
      rcases eq_or_ne other thread with rfl | hne
      · rw [WorkPool.work_withWork, State.task_withTask]
        rfl
      · rw [WorkPool.work_withWork_of_ne hne, State.task_withTask_of_ne _ hne]
        exact hpooled.work hended other

/-- Every run of the server is one of its handlers. -/
theorem exists_pool_of_run (hroute : ∀ requestString, ∃ factory,
      routes.find? (matchedLocationPath parseRequest routes requestString) = some (some factory))
    {memory : Buffer} {store : σ} {events : List (Event ι)}
    (hrun : (system parseRequest program routes).run (initial routes memory store) events =
      some next) :
    ∃ pool, (WorkPool.system fun requestString =>
        processProgram parseRequest program routes requestString .empty).run
        (WorkPool.initial store)
        ((system parseRequest program routes).observed poolEvent (initial routes memory store)
          events) = some pool ∧
      Pooled parseRequest program routes next pool := by
  have hstart : Pooled parseRequest program routes (initial routes memory store : State ι φ σ)
      (WorkPool.initial store) :=
    ⟨inCustody_initial routes memory store, routed_initial memory store, rfl, fun _ _ => rfl⟩
  refine Interleaving.exists_run_of_observed _ _ ?_ ?_ events hstart hrun
  · intro state next event pool hpooled hstep hevent
    exact (hpooled.step hroute (ended_of_step hstep) (move_of_step hstep)).1 hevent
  · intro state next event pool image hpooled hstep hevent
    obtain ⟨later, hmove, hlater⟩ :=
      (hpooled.step hroute (ended_of_step hstep) (move_of_step hstep)).2 image hevent
    exact ⟨later, WorkPool.step_eq_some_iff.mpr hmove, hlater⟩

/-- What is noted of the handlers in a run of the server. -/
def poolHistory (parseRequest : Str → Option Request)
    (program : φ → Request → Response → Resumption σ Fault (Bool × Response))
    (routes : FactoryRoutes φ) (memory : Buffer) (store : σ) (events : List (Event ι)) :
    List (WorkPool.Mark ι Str Fault (Response × FactoryRoutes φ)) :=
  WorkPool.history
    (fun requestString => processProgram parseRequest program routes requestString .empty) store
    ((system parseRequest program routes).observed poolEvent (initial routes memory store) events)

end Pool

end Server

end SwanServer
