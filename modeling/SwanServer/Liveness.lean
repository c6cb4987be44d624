/-
What the server gets done.  As long as threads that have work are given their turns, every
read of every session is answered, and the server accepts again.
-/
import SwanServer.Conversations
import SwanServer.Dispatch
import SwanServer.Fairness

namespace SwanServer

namespace Server

section Tasks

variable {φ σ : Type}

/-- What a thread has left to do after a turn, beside what it had before. -/
inductive Task.Follows : Task φ σ → Task φ σ → Prop where
  | startAccept (session : Nat) (error : Bool) :
      Follows .startAccept (.handleAccept session error)
  | asyncAccept (session : Nat) : Follows (.asyncAccept session) .startAccept
  | accepts (session : Nat) : Follows .idle (.asyncAccept session)
  | processRequest (session : Nat) (rest : Resumption σ Fault (Response × FactoryRoutes φ)) :
      Follows (.processRequest session rest) (.handleRead session false)
  | deletes (session : Nat) : Follows .idle (.handleRead session true)
  | access (session : Nat) (update : σ → σ)
      (next : σ → Resumption σ Fault (Response × FactoryRoutes φ)) (store : σ) :
      Follows (.processRequest session (next store)) (.processRequest session (.access update next))
  | asyncWrite (session : Nat) (result : Except Fault (Response × FactoryRoutes φ)) :
      Follows (.asyncWrite session) (.processRequest session (.done result))
  | writes (session : Nat) : Follows .idle (.asyncWrite session)
  | reads (session : Nat) (error : Bool) : Follows .idle (.handleWrite session error)

namespace Task

theorem acc_idle : Acc Follows (.idle : Task φ σ) := by
  refine .intro _ fun later hlater => ?_
  cases hlater

theorem acc_asyncWrite (session : Nat) : Acc Follows (.asyncWrite session : Task φ σ) := by
  refine .intro _ fun later hlater => ?_
  cases hlater
  exact acc_idle

theorem acc_processRequest (session : Nat)
    (rest : Resumption σ Fault (Response × FactoryRoutes φ)) :
    Acc Follows (.processRequest session rest : Task φ σ) := by
  induction rest with
  | done result =>
      refine .intro _ fun later hlater => ?_
      cases hlater
      exact acc_asyncWrite session
  | access update next ih =>
      refine .intro _ fun later hlater => ?_
      cases hlater
      exact ih _

theorem acc_asyncAccept (session : Nat) : Acc Follows (.asyncAccept session : Task φ σ) := by
  refine .intro _ fun later hlater => ?_
  cases hlater
  exact acc_idle

theorem acc_startAccept : Acc Follows (.startAccept : Task φ σ) := by
  refine .intro _ fun later hlater => ?_
  cases hlater
  exact acc_asyncAccept _

/-- Nobody works forever: programs are finite, however many accesses they make. -/
theorem wellFounded_follows : WellFounded (Follows : Task φ σ → Task φ σ → Prop) := by
  refine ⟨fun task => ?_⟩
  cases task with
  | idle => exact acc_idle
  | startAccept => exact acc_startAccept
  | asyncAccept session => exact acc_asyncAccept session
  | processRequest session rest => exact acc_processRequest session rest
  | asyncWrite session => exact acc_asyncWrite session
  | handleAccept session error =>
      refine .intro _ fun later hlater => ?_
      cases hlater
      exact acc_startAccept
  | handleRead session error =>
      refine .intro _ fun later hlater => ?_
      cases hlater with
      | processRequest session rest => exact acc_processRequest session rest
      | deletes => exact acc_idle
  | handleWrite session error =>
      refine .intro _ fun later hlater => ?_
      cases hlater
      exact acc_idle

end Task

end Tasks

section Turns

variable {ι φ σ : Type} [DecidableEq ι] {parseRequest : Str → Option Request}
  {program : φ → Request → Response → Resumption σ Fault (Bool × Response)}
  {routes : FactoryRoutes φ} {state next : State ι φ σ} {event : Event ι} {thread : ι}
  {connected : Bool} {memory : Buffer} {session : Nat}

/-- A turn of a thread. -/
def Event.Turn (thread : ι) (event : Event ι) : Prop :=
  ∃ connected memory, event = .goesOn thread connected memory

/-- Work waits for its thread. -/
theorem task_of_move (hmove : Move parseRequest program routes state event next)
    (hbusy : state.task thread ≠ .idle) (hturn : ¬ event.Turn thread) :
    next.task thread = state.task thread := by
  have htakes : ∀ {other : ι} {task : Task φ σ}, state.task other = .idle →
      (state.withTask other task).task thread = state.task thread := by
    intro other task hidle
    refine State.task_withTask_of_ne state ?_ task
    rintro rfl
    exact hbusy hidle
  have hgoes : ∀ {other : ι} {connected : Bool} {memory : Buffer} {task : Task φ σ},
      event = .goesOn other connected memory →
        (state.withTask other task).task thread = state.task thread := by
    intro other connected memory task hevent
    refine State.task_withTask_of_ne state ?_ task
    rintro rfl
    exact hturn ⟨connected, memory, hevent⟩
  cases hmove with
  | accepted error htask | received chunk htask | readFailed htask | sent htask
  | writeFailed htask => exact htakes htask
  | dropAccepted | startSession | construct | asyncAccept | deleteReader | process | access
  | respond | asyncWrite | deleteWriter | readAgain => exact hgoes rfl
  | notConnected | unterminated | uncaught | dangling => rfl

/-- A turn brings the session of the thread forward, unless the process ends. -/
theorem session_of_turn
    (hmove : Move parseRequest program routes state (.goesOn thread connected memory) next)
    (hsession : (state.task thread).session = some session) (hended : next.ended = none) :
    (next.heap session = none ∨ ∃ operation, ⟨operation, session⟩ ∈ next.pending) ∨
      (next.task thread).session = some session ∧
        (next.task thread).Follows (state.task thread) := by
  cases hmove with
  | dropAccepted htask | deleteReader htask | deleteWriter htask =>
      rw [htask] at hsession
      cases hsession
      exact .inl (.inl (Function.update_self _ _ _))
  | startSession htask | asyncAccept htask | asyncWrite htask | readAgain htask =>
      rw [htask] at hsession
      cases hsession
      exact .inl (.inr ⟨_, List.mem_cons_self⟩)
  | construct memory htask =>
      rw [htask] at hsession
      cases hsession
  | process htask =>
      rw [htask] at hsession ⊢
      cases hsession
      rw [State.task_withTask]
      exact .inr ⟨rfl, .processRequest _ _⟩
  | access htask =>
      rw [htask] at hsession ⊢
      cases hsession
      rw [State.task_withTask]
      exact .inr ⟨rfl, .access _ _ _ _⟩
  | respond htask =>
      rw [htask] at hsession ⊢
      cases hsession
      rw [State.task_withTask]
      exact .inr ⟨rfl, .asyncWrite _ _⟩
  | notConnected | unterminated | uncaught | dangling => cases hended

/-- A turn brings the next accept operation closer, unless the process ends. -/
theorem accepting_of_turn
    (hmove : Move parseRequest program routes state (.goesOn thread connected memory) next)
    (haccepting : (state.task thread).accepting = some ()) (hended : next.ended = none) :
    (∃ session, ⟨.accept, session⟩ ∈ next.pending) ∨
      (next.task thread).accepting = some () ∧
        (next.task thread).Follows (state.task thread) := by
  cases hmove with
  | dropAccepted htask | startSession htask =>
      rw [State.task_withTask, htask]
      exact .inr ⟨rfl, .startAccept _ _⟩
  | construct memory htask =>
      rw [State.task_withTask, htask]
      exact .inr ⟨rfl, .asyncAccept _⟩
  | asyncAccept htask => exact .inl ⟨_, List.mem_cons_self⟩
  | deleteReader htask | deleteWriter htask | process htask | access htask | respond htask
  | asyncWrite htask | readAgain htask =>
      rw [htask] at haccepting
      cases haccepting
  | notConnected | unterminated | uncaught | dangling => cases hended

/-- What a peer has delivered stays so. -/
theorem received_of_move (hmove : Move parseRequest program routes state event next)
    (session : Nat) : state.received session <+: next.received session := by
  cases hmove with
  | @received thread other connection chunk htask hpending hlive =>
      change _ <+: Function.update state.received other _ session
      rcases eq_or_ne session other with rfl | hne
      · rw [Function.update_self]
        exact List.prefix_append _ _
      · rw [Function.update_of_ne hne]
  | _ => exact List.prefix_rfl

end Turns

section Answers

variable {ι φ σ : Type} [Fintype ι] {parseRequest : Str → Option Request}
  {program : φ → Request → Response → Resumption σ Fault (Bool × Response)} {P : σ → Prop}
  {routes : FactoryRoutes φ} {state : State ι φ σ} {session : Nat}

/-- A session that no thread works on has answered its reads. -/
theorem Conversing.answered (hstate : Conversing parseRequest program P routes state)
    (hdone : state.heap session = none ∨ ∃ operation, ⟨operation, session⟩ ∈ state.pending) :
    Answered parseRequest program P (state.memory session) routes (state.received session)
      (state.sent session) := by
  cases hstate.stands session with
  | task htask hlive =>
      rcases hdone with hnone | ⟨operation, hpending⟩
      · cases hlive.symm.trans hnone
      · exact absurd (Task.session_of_phase htask)
          (hstate.custody.exclusive.apart _ hpending _)
  | @pending operation connection hpending hlive htalks =>
      refine htalks.answered ?_
      cases operation <;> trivial
  | unborn hfresh hreceived hsent =>
      rw [hreceived, hsent]
      exact answered_nil
  | gone hborn hheap hanswered => exact hanswered

end Answers

section Executions

variable {ι φ σ : Type} [DecidableEq ι] {parseRequest : Str → Option Request}
  {program : φ → Request → Response → Resumption σ Fault (Bool × Response)} {P : σ → Prop}
  {routes : FactoryRoutes φ} {memory : Buffer} {store : σ}

/-- Threads that have work are given their turns. -/
def TakesTurns {start : State ι φ σ}
    (execution : Execution (system parseRequest program routes) start) : Prop :=
  ∀ n thread, (execution.state n).task thread ≠ .idle →
    ∃ k ≥ n, (execution.event k).Turn thread

variable (execution : Execution (system parseRequest program routes)
    (initial routes memory store : State ι φ σ))

theorem move_of_execution (n : ℕ) : Move parseRequest program routes (execution.state n)
    (execution.event n) (execution.state (n + 1)) :=
  move_of_step (execution.step n)

theorem ended_of_execution (n : ℕ) : (execution.state n).ended = none :=
  ended_of_step (execution.step n)

variable {execution} (hturns : TakesTurns execution)

include hturns

/-- Work of a thread that its turns bring forward gets done. -/
theorem eventually_done_of_turns {Work : Task φ σ → Prop} {Done : State ι φ σ → Prop}
    {thread : ι} (hidle : ¬ Work .idle)
    (hturn : ∀ {n connected memory}, execution.event n = .goesOn thread connected memory →
      Work ((execution.state n).task thread) → Done (execution.state (n + 1)) ∨
        Work ((execution.state (n + 1)).task thread) ∧
          ((execution.state (n + 1)).task thread).Follows ((execution.state n).task thread))
    {n : ℕ} (hwork : Work ((execution.state n).task thread)) :
    ∃ k ≥ n, Done (execution.state k) := by
  have hbusy : ∀ {n}, Work ((execution.state n).task thread) →
      (execution.state n).task thread ≠ .idle := by
    intro n hnow heq
    exact hidle (heq ▸ hnow)
  refine execution.eventually_done (fun state => Work (state.task thread)) (Event.Turn thread)
    (fun state => state.task thread) Task.wellFounded_follows ?_ ?_
    (fun n hnow => hturns n thread (hbusy hnow)) hwork
  · intro n hnow hother
    have hsame := task_of_move (move_of_execution execution n) (hbusy hnow) hother
    exact .inr ⟨hsame.symm ▸ hnow, hsame⟩
  · rintro n hnow ⟨connected, memory, hevent⟩
    exact hturn hevent hnow

variable [Fintype ι]

/-- The session that a thread works on is handed over or deleted. -/
theorem eventually_handed_over (n session : Nat) :
    ∃ k ≥ n, (execution.state k).heap session = none ∨
      ∃ operation, ⟨operation, session⟩ ∈ (execution.state k).pending := by
  obtain ⟨events, hrun⟩ := execution.exists_run n
  by_cases hlive : (execution.state n).heap session = none
  · exact ⟨n, le_rfl, .inl hlive⟩
  rcases (inCustody_of_run hrun).exclusive.reachable session hlive with
    ⟨pending, hpending, rfl⟩ | ⟨thread, hsession⟩
  · exact ⟨n, le_rfl, .inr ⟨pending.operation, hpending⟩⟩
  · refine @eventually_done_of_turns _ _ _ _ _ _ _ _ _ _ hturns
      (fun task => task.session = some session)
      (fun state => state.heap session = none ∨
        ∃ operation, ⟨operation, session⟩ ∈ state.pending) thread ?_ ?_ n hsession
    · rintro ⟨⟩
    · intro n connected memory hevent hnow
      exact session_of_turn (hevent ▸ move_of_execution execution n) hnow
        (ended_of_execution execution (n + 1))

theorem eventually_accepts (n : Nat) :
    ∃ k ≥ n, ∃ session, ⟨.accept, session⟩ ∈ (execution.state k).pending := by
  obtain ⟨events, hrun⟩ := execution.exists_run n
  rcases (inCustody_of_run hrun).accepts with ⟨⟨session, hpending⟩, -⟩ | ⟨-, thread, haccepting, -⟩
  · have hmem := List.mem_singleton_self (⟨.accept, session⟩ : Pending)
    rw [← hpending] at hmem
    exact ⟨n, le_rfl, session, List.mem_of_mem_filter hmem⟩
  · refine @eventually_done_of_turns _ _ _ _ _ _ _ _ _ _ hturns
      (fun task => task.accepting = some ())
      (fun state => ∃ session, ⟨.accept, session⟩ ∈ state.pending) thread ?_ ?_ n haccepting
    · rintro ⟨⟩
    · intro n connected memory hevent hnow
      exact accepting_of_turn (hevent ▸ move_of_execution execution n) hnow
        (ended_of_execution execution (n + 1))

/-- In every execution that goes on forever, with whatever handlers, and in which threads
that have work are given their turns: whatever has been delivered on a session is answered
in the end, read by read, and then the session is closed or waits for its peer; and again
and again there is an accept operation in flight. -/
theorem answered_of_execution
    (hprogram : ∀ factory httpRequest httpResponse,
      (program factory httpRequest httpResponse).Keeps P) (hstore : P store) :
    (∀ n session, ∃ k ≥ n,
      (execution.state n).received session <+: (execution.state k).received session ∧
        Answered parseRequest program P ((execution.state k).memory session) routes
          ((execution.state k).received session) ((execution.state k).sent session) ∧
        ((execution.state k).heap session = none ∨
          ∃ operation, ⟨operation, session⟩ ∈ (execution.state k).pending)) ∧
      ∀ n, ∃ k ≥ n, ∃ session, ⟨.accept, session⟩ ∈ (execution.state k).pending := by
  refine ⟨fun n session => ?_, eventually_accepts hturns⟩
  obtain ⟨k, hk, hdone⟩ := eventually_handed_over hturns n session
  obtain ⟨events, hrun⟩ := execution.exists_run k
  refine ⟨k, hk, ?_, (conversing_of_run hprogram hstore hrun).answered hdone, hdone⟩
  exact @Execution.prefix_of_le _ _ _ _ execution _ (fun state => state.received session)
    (fun m => received_of_move (move_of_execution execution m) session) n k hk

end Executions

namespace LivenessWitness

open SegmentationWitness ServerRunsWitness

/-- Handlers with a single answer. -/
def reply (_factory : RequestHandlerFactory) (_httpRequest : Request) (httpResponse : Response) :
    Resumption Unit Fault (Bool × Response) :=
  .done (.ok (true, httpResponse))

theorem processProgram_reply (requestString : Str) :
    processProgram parseGet reply routes requestString .empty = .done (.ok (.empty, routes)) := by
  obtain ⟨factory, hfactory⟩ :=
    exists_find?_matchedLocationPath FilesystemMap.normalised_empty parseGet requestString
  exact processProgram_of_find? reply hfactory .empty

/-- What the array holds once the request has come. -/
def filled : Buffer := SessionWitness.zeroed.asyncReadSome wholeRead

theorem asyncReadSome_filled : filled.asyncReadSome wholeRead = filled := by
  have hcells : (filled.asyncReadSome wholeRead).cells = filled.cells := by decide +kernel
  exact (Buffer.mk.injEq _ _ _ _).mpr hcells

theorem isSome_requestString_filled : filled.requestString.isSome = true := by decide +kernel

abbrev Process : Type := State Unit RequestHandlerFactory Unit

/-- A single thread serves the first session again and again. -/
def nextEvent (state : Process) : Event Unit :=
  match state.task () with
  | .idle =>
      if ⟨.accept, 0⟩ ∈ state.pending then .accepted () 0 false
      else if ⟨.read, 0⟩ ∈ state.pending then .received () 0 (some wholeRead)
      else .sent () 0 false
  | _ => .goesOn () true SessionWitness.zeroed

/-- Where the thread is with the first session. -/
inductive Stage (state : Process) (connection : Connection RequestHandlerFactory) :
    Task RequestHandlerFactory Unit → Prop where
  | idle (operation : AsyncOperation) (hpending : ⟨operation, 0⟩ ∈ state.pending) :
      Stage state connection .idle
  | handleAccept : Stage state connection (.handleAccept 0 false)
  | startAccept (hpending : ⟨.read, 0⟩ ∈ state.pending) : Stage state connection .startAccept
  | asyncAccept {session : Nat} (hpending : ⟨.read, 0⟩ ∈ state.pending)
      (hlive : (state.heap session).isSome = true) :
      Stage state connection (.asyncAccept session)
  | handleRead (hdata : connection.data = filled) : Stage state connection (.handleRead 0 false)
  | respond : Stage state connection (.processRequest 0 (.done (.ok (.empty, routes))))
  | asyncWrite : Stage state connection (.asyncWrite 0)
  | handleWrite : Stage state connection (.handleWrite 0 false)

structure Serving (state : Process) (connection : Connection RequestHandlerFactory) : Prop where
  ended : state.ended = none
  fresh : 0 < state.fresh
  live : state.heap 0 = some connection
  table : connection.factoryRoutes = routes
  data : connection.data.asyncReadSome wholeRead = filled
  stage : Stage state connection (state.task ())

theorem heap_put (state : Process) (connection : Connection RequestHandlerFactory)
    (task : Task RequestHandlerFactory Unit) :
    ((state.put 0 connection).withTask () task).heap 0 = some connection := by
  simp [State.put, State.withTask]

theorem exists_next {state : Process} (hserving : ∃ connection, Serving state connection) :
    ∃ next, (system parseGet reply routes).step state (nextEvent state) = some next ∧
      ∃ connection, Serving next connection := by
  obtain ⟨connection, hended, hfresh, hlive, htable, hdata, hstage⟩ := hserving
  generalize htask : state.task () = task at hstage
  cases hstage with
  | idle operation hpending =>
      by_cases haccept : ⟨.accept, 0⟩ ∈ state.pending
      · refine ⟨(state.complete .accept 0).withTask () (.handleAccept 0 false), ?_, connection,
          hended, hfresh, hlive, htable, hdata, .handleAccept⟩
        simp [system, step, takeUp, nextEvent, hended, htask, State.use, hlive, haccept]
      by_cases hread : ⟨.read, 0⟩ ∈ state.pending
      · refine ⟨((state.complete .read 0).deliver 0 connection wholeRead).withTask ()
          (.handleRead 0 false), ?_,
          { connection with data := connection.data.asyncReadSome wholeRead }, hended, hfresh,
          ?_, htable, ?_, .handleRead hdata⟩
        · simp [system, step, takeUp, nextEvent, hended, htask, State.use, hlive, haccept, hread]
        · exact heap_put state _ .idle
        · exact hdata.symm ▸ asyncReadSome_filled
      · have hwrite : ⟨.write, 0⟩ ∈ state.pending := by
          cases operation with
          | accept => exact absurd hpending haccept
          | read => exact absurd hpending hread
          | write => exact hpending
        refine ⟨((state.complete .write 0).transmit 0 connection).withTask ()
          (.handleWrite 0 false), ?_, connection, hended, hfresh, hlive, htable, hdata,
          .handleWrite⟩
        simp [system, step, takeUp, nextEvent, hended, htask, State.use, hlive, haccept, hread,
          hwrite]
  | handleAccept =>
      refine ⟨(state.start .read 0).withTask () .startAccept, ?_,
        connection, hended, hfresh, hlive, htable, hdata, .startAccept List.mem_cons_self⟩
      simp [system, step, goOn, nextEvent, hended, htask, State.use, hlive]
  | startAccept hpending =>
      refine ⟨(state.construct ⟨SessionWitness.zeroed, .empty, routes⟩).withTask ()
        (.asyncAccept state.fresh), ?_, connection, hended, Nat.succ_pos _, ?_, htable, hdata,
        .asyncAccept hpending ?_⟩
      · simp [system, step, goOn, nextEvent, hended, htask]
      · exact (Function.update_of_ne hfresh.ne _ _).trans hlive
      · change (Function.update state.heap state.fresh _ state.fresh).isSome = true
        rw [Function.update_self]
        rfl
  | @asyncAccept session hpending hother =>
      obtain ⟨other, hheap⟩ := Option.isSome_iff_exists.mp hother
      refine ⟨(state.start .accept session).withTask () .idle, ?_, connection, hended, hfresh,
        hlive, htable, hdata, .idle .read (List.mem_cons_of_mem _ hpending)⟩
      simp [system, step, goOn, nextEvent, hended, htask, State.use, hheap]
  | handleRead hfilled =>
      obtain ⟨requestString, hstring⟩ :=
        Option.isSome_iff_exists.mp isSome_requestString_filled
      refine ⟨(state.put 0 { connection with httpResponse := .empty }).withTask ()
        (.processRequest 0 (.done (.ok (.empty, routes)))), ?_,
        { connection with httpResponse := .empty }, hended, hfresh, ?_, htable, hdata, .respond⟩
      · simp [system, step, goOn, nextEvent, hended, htask, State.use, hlive, hfilled, hstring,
          htable, processProgram_reply]
      · exact heap_put _ _ _
  | respond =>
      refine ⟨(state.put 0 { connection with
          httpResponse := .empty, factoryRoutes := routes }).withTask () (.asyncWrite 0), ?_,
        { connection with httpResponse := .empty, factoryRoutes := routes }, hended, hfresh,
        ?_, rfl, hdata, .asyncWrite⟩
      · simp [system, step, goOn, nextEvent, hended, htask, State.use, hlive]
      · exact heap_put _ _ _
  | asyncWrite =>
      refine ⟨(state.start .write 0).withTask () .idle, ?_, connection, hended, hfresh, hlive,
        htable, hdata, .idle .write List.mem_cons_self⟩
      simp [system, step, goOn, nextEvent, hended, htask, State.use, hlive]
  | handleWrite =>
      refine ⟨(state.start .read 0).withTask () .idle, ?_, connection, hended, hfresh, hlive,
        htable, hdata, .idle .read List.mem_cons_self⟩
      simp [system, step, goOn, nextEvent, hended, htask, State.use, hlive]

theorem serving_initial : Serving (initial routes SessionWitness.zeroed () : Process)
    ⟨SessionWitness.zeroed, .empty, routes⟩ where
  ended := rfl
  fresh := Nat.one_pos
  live := by simp [initial]
  table := rfl
  data := rfl
  stage := .idle .accept List.mem_cons_self

/-- A peer that sends its request forever. -/
def execution : Execution (system parseGet reply routes)
    (initial routes SessionWitness.zeroed () : Process) :=
  .ofChoice (fun _ => exists_next) ⟨_, serving_initial⟩

theorem takesTurns_execution : TakesTurns execution := by
  intro n thread hbusy
  refine ⟨n, le_rfl, true, SessionWitness.zeroed, ?_⟩
  change nextEvent (execution.state n) = _
  rw [nextEvent]
  split
  · next hidle => exact absurd hidle hbusy
  · rfl

theorem answered_execution :
    (∀ n session, ∃ k ≥ n,
      (execution.state n).received session <+: (execution.state k).received session ∧
        Answered parseGet reply (· = ()) ((execution.state k).memory session) routes
          ((execution.state k).received session) ((execution.state k).sent session) ∧
        ((execution.state k).heap session = none ∨
          ∃ operation, ⟨operation, session⟩ ∈ (execution.state k).pending)) ∧
      ∀ n, ∃ k ≥ n, ∃ session, ⟨.accept, session⟩ ∈ (execution.state k).pending :=
  answered_of_execution takesTurns_execution (fun _ _ _ => .done _) rfl

end LivenessWitness

end Server

end SwanServer
