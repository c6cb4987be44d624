/-
What is said on a connection.  Whatever the other threads do, the responses that a
peer gets answer its reads one by one and in order, each from the reads of its own
connection.
-/
import SwanServer.ServerRuns

namespace SwanServer

namespace Server

section Conversation

variable {φ σ : Type} (parseRequest : Str → Option Request)
  (program : φ → Request → Response → Resumption σ Fault (Bool × Response)) (P : σ → Prop)

/-- Reads of one connection with the responses that answer them, from the array and the
table that the session started with to those that it has now.  Meanwhile others may
have changed the store within `P`. -/
inductive Conversation (data : Buffer) (routes : FactoryRoutes φ) :
    List Chunk → List Response → Buffer → FactoryRoutes φ → Prop where
  | start : Conversation data routes [] [] data routes
  | answer {chunks : List Chunk} {responses : List Response} {buffer : Buffer}
      {table later : FactoryRoutes φ} {chunk : Chunk} {requestString : Str}
      {httpResponse : Response}
      (hearlier : Conversation data routes chunks responses buffer table)
      (hstring : (buffer.asyncReadSome chunk).requestString = some requestString)
      (hyields : (processProgram parseRequest program table requestString .empty).Yields P
        (.ok (httpResponse, later))) :
      Conversation data routes (chunks ++ [chunk]) (responses ++ [httpResponse])
        (buffer.asyncReadSome chunk) later

/-- The reads and the responses of a connection so far: all reads are answered, or the
last response is not there yet, or the last read has no response. -/
def Told (data : Buffer) (routes : FactoryRoutes φ) (received : List Chunk)
    (sent : List Response) : Prop :=
  ∃ chunks responses buffer table,
    Conversation parseRequest program P data routes chunks responses buffer table ∧
      (chunks = received ∧ (responses = sent ∨ ∃ last, responses = sent ++ [last]) ∨
        responses = sent ∧ ∃ last, received = chunks ++ [last])

/-- All reads of a connection are answered, and all responses but perhaps the last are there. -/
def Answered (data : Buffer) (routes : FactoryRoutes φ) (received : List Chunk)
    (sent : List Response) : Prop :=
  ∃ responses buffer table,
    Conversation parseRequest program P data routes received responses buffer table ∧
      (responses = sent ∨ ∃ last, responses = sent ++ [last])

section Answers

variable {parseRequest program P} {Q : Response → Prop}
  (hprogram : ∀ factory httpRequest answer,
    (program factory httpRequest .empty).Yields P (.ok answer) → Q answer.2)

include hprogram

theorem response_of_processProgram {table later : FactoryRoutes φ} {requestString : Str}
    {httpResponse : Response}
    (hyields : (processProgram parseRequest program table requestString .empty).Yields P
      (.ok (httpResponse, later))) : Q httpResponse := by
  rw [processProgram] at hyields
  cases hlookup : table.getOrInsert (matchedLocationPath parseRequest table requestString)
    none with
  | mk factory known =>
      rw [hlookup] at hyields
      cases factory with
      | none => cases Resumption.yields_done_iff.mp hyields
      | some factory =>
          obtain ⟨outcome, houtcome, heq⟩ := Resumption.yields_map_iff.mp hyields
          cases outcome with
          | error fault => cases heq
          | ok answer =>
              cases heq
              exact hprogram factory _ answer houtcome

theorem Conversation.forall_response {data buffer : Buffer} {routes table : FactoryRoutes φ}
    {chunks : List Chunk} {responses : List Response}
    (hconversation : Conversation parseRequest program P data routes chunks responses buffer
      table) : ∀ httpResponse ∈ responses, Q httpResponse := by
  induction hconversation with
  | start => simp
  | answer hearlier hstring hyields ih =>
      rw [List.forall_mem_append, List.forall_mem_singleton]
      exact ⟨ih, response_of_processProgram hprogram hyields⟩

theorem Told.forall_sent {data : Buffer} {routes : FactoryRoutes φ} {received : List Chunk}
    {sent : List Response} (htold : Told parseRequest program P data routes received sent) :
    ∀ httpResponse ∈ sent, Q httpResponse := by
  obtain ⟨chunks, responses, buffer, table, hconversation, hsent⟩ := htold
  have hall := hconversation.forall_response hprogram
  rcases hsent with ⟨-, rfl | ⟨last, rfl⟩⟩ | ⟨rfl, -⟩
  · exact hall
  · exact fun httpResponse hmem => hall httpResponse (List.mem_append_left _ hmem)
  · exact hall

end Answers

/-- How far a session is. -/
inductive Phase (φ σ : Type) where
  | connecting
  | listening
  | reading
  | computing (rest : Resumption σ Fault (Response × FactoryRoutes φ))
  | answering

def AsyncOperation.phase : AsyncOperation → Phase φ σ
  | .accept => .connecting
  | .read => .listening
  | .write => .answering

/-- How far the session is that a thread works on. -/
def Task.phase : Task φ σ → Option (Nat × Phase φ σ)
  | .idle | .startAccept => none
  | .handleAccept session _ | .asyncAccept session => some (session, .connecting)
  | .handleRead session true | .handleWrite session false => some (session, .listening)
  | .handleRead session false => some (session, .reading)
  | .processRequest session rest => some (session, .computing rest)
  | .asyncWrite session | .handleWrite session true => some (session, .answering)

theorem Task.session_of_phase {task : Task φ σ} {session : Nat} {phase : Phase φ σ}
    (hphase : task.phase = some (session, phase)) : task.session = some session := by
  cases task with
  | idle | startAccept => cases hphase
  | handleRead other error | handleWrite other error =>
      cases error <;>
        · cases hphase
          rfl
  | _ =>
      cases hphase
      rfl

variable (data : Buffer) (routes : FactoryRoutes φ)

/-- The last read of a connection has not been answered. -/
def Unanswered (connection : Connection φ) (received : List Chunk) (sent : List Response) :
    Prop :=
  ∃ chunks chunk buffer, received = chunks ++ [chunk] ∧
    Conversation parseRequest program P data routes chunks sent buffer connection.factoryRoutes ∧
    connection.data = buffer.asyncReadSome chunk

/-- What holds of a session that is so far. -/
def Talks (connection : Connection φ) (received : List Chunk) (sent : List Response) :
    Phase φ σ → Prop
  | .connecting => received = [] ∧ sent = [] ∧ connection.data = data ∧
      connection.factoryRoutes = routes
  | .listening => Conversation parseRequest program P data routes received sent
      connection.data connection.factoryRoutes
  | .reading => Unanswered parseRequest program P data routes connection received sent
  | .computing rest => Unanswered parseRequest program P data routes connection received sent ∧
      rest.Keeps P ∧ ∃ requestString, connection.data.requestString = some requestString ∧
        ∀ result, rest.Yields P result →
          (processProgram parseRequest program connection.factoryRoutes requestString
            .empty).Yields P result
  | .answering => Conversation parseRequest program P data routes received
      (sent ++ [connection.httpResponse]) connection.data connection.factoryRoutes

variable {parseRequest program P data routes} {connection : Connection φ}
  {received : List Chunk} {sent : List Response}

theorem Answered.told (h : Answered parseRequest program P data routes received sent) :
    Told parseRequest program P data routes received sent := by
  obtain ⟨responses, buffer, table, hconversation, hsent⟩ := h
  exact ⟨received, responses, buffer, table, hconversation, .inl ⟨rfl, hsent⟩⟩

theorem answered_nil : Answered parseRequest program P data routes [] [] :=
  ⟨[], _, _, .start, .inl rfl⟩

theorem Unanswered.told
    (h : Unanswered parseRequest program P data routes connection received sent) :
    Told parseRequest program P data routes received sent := by
  obtain ⟨chunks, chunk, buffer, rfl, hconversation, -⟩ := h
  exact ⟨chunks, sent, buffer, _, hconversation, .inr ⟨rfl, chunk, rfl⟩⟩

/-- A session that handles no read has answered all of them. -/
def Phase.Ready : Phase φ σ → Prop
  | .reading | .computing _ => False
  | .connecting | .listening | .answering => True

theorem Talks.answered {phase : Phase φ σ}
    (htalks : Talks parseRequest program P data routes connection received sent phase)
    (hready : phase.Ready) :
    Answered parseRequest program P data routes received sent := by
  cases phase with
  | connecting =>
      obtain ⟨rfl, rfl, -⟩ := htalks
      exact answered_nil
  | listening => exact ⟨_, _, _, htalks, .inl rfl⟩
  | answering => exact ⟨_, _, _, htalks, .inr ⟨_, rfl⟩⟩
  | reading | computing rest => exact hready.elim

theorem Talks.told {phase : Phase φ σ}
    (htalks : Talks parseRequest program P data routes connection received sent phase) :
    Told parseRequest program P data routes received sent := by
  cases phase with
  | reading => exact Unanswered.told htalks
  | computing rest => exact Unanswered.told htalks.1
  | connecting | listening | answering => exact (htalks.answered trivial).told

/-- An operation that fails leaves its session where it is. -/
theorem Talks.listening_of_connecting
    (htalks : Talks parseRequest program P data routes connection received sent .connecting) :
    Talks parseRequest program P data routes connection received sent .listening := by
  obtain ⟨rfl, rfl, rfl, rfl⟩ := htalks
  exact .start

end Conversation

section Progress

variable {ι φ σ : Type} (parseRequest : Str → Option Request)
  (program : φ → Request → Response → Resumption σ Fault (Bool × Response)) (P : σ → Prop)
  (routes : FactoryRoutes φ)

/-- Where a session is: in the hands of a thread or of an operation in flight, not yet
constructed, or deleted. -/
inductive Stands (state : State ι φ σ) (session : Nat) : Prop where
  | task {thread : ι} {phase : Phase φ σ} {connection : Connection φ}
      (htask : (state.task thread).phase = some (session, phase))
      (hlive : state.heap session = some connection)
      (htalks : Talks parseRequest program P (state.memory session) routes connection
        (state.received session) (state.sent session) phase)
  | pending {operation : AsyncOperation} {connection : Connection φ}
      (hpending : ⟨operation, session⟩ ∈ state.pending)
      (hlive : state.heap session = some connection)
      (htalks : Talks parseRequest program P (state.memory session) routes connection
        (state.received session) (state.sent session) operation.phase)
  | unborn (hfresh : state.fresh ≤ session) (hreceived : state.received session = [])
      (hsent : state.sent session = [])
  | gone (hborn : session < state.fresh) (hheap : state.heap session = none)
      (hanswered : Answered parseRequest program P (state.memory session) routes
        (state.received session) (state.sent session))

variable {parseRequest program P routes} {state next : State ι φ σ} {session : Nat}

theorem Stands.told (hstands : Stands parseRequest program P routes state session) :
    Told parseRequest program P (state.memory session) routes (state.received session)
      (state.sent session) := by
  cases hstands with
  | task htask hlive htalks => exact htalks.told
  | pending hpending hlive htalks => exact htalks.told
  | unborn hfresh hreceived hsent =>
      rw [hreceived, hsent]
      exact answered_nil.told
  | gone hborn hheap hanswered => exact hanswered.told

/-- What a step on one session leaves alone. -/
structure Apart (state next : State ι φ σ) (acting : ι) (session : Nat) : Prop where
  task : ∀ thread, thread ≠ acting → next.task thread = state.task thread
  actor : ∀ other, (state.task acting).session = some other → other = session
  pending : ∀ pending ∈ state.pending, pending.session ≠ session → pending ∈ next.pending
  heap : ∀ other, other ≠ session → next.heap other = state.heap other
  memory : ∀ other, other ≠ session → next.memory other = state.memory other
  received : ∀ other, other ≠ session → next.received other = state.received other
  sent : ∀ other, other ≠ session → next.sent other = state.sent other
  fresh : state.fresh ≤ next.fresh
  unborn : ∀ other, other ≠ session → state.fresh ≤ other → next.fresh ≤ other

/-- Other sessions stand where they stood. -/
theorem Stands.frame {acting : ι} (hapart : Apart state next acting session) {other : Nat}
    (hne : other ≠ session) (hstands : Stands parseRequest program P routes state other) :
    Stands parseRequest program P routes next other := by
  have hheap := hapart.heap other hne
  have hmemory := hapart.memory other hne
  have hreceived := hapart.received other hne
  have hsent := hapart.sent other hne
  cases hstands with
  | @task thread phase connection htask hlive htalks =>
      have hthread : thread ≠ acting := by
        rintro rfl
        exact hne (hapart.actor other (Task.session_of_phase htask))
      have htaskNext : (next.task thread).phase = some (other, phase) := by
        rw [hapart.task thread hthread]
        exact htask
      refine .task htaskNext (hheap.trans hlive) ?_
      rwa [hmemory, hreceived, hsent]
  | pending hpending hlive htalks =>
      refine .pending (hapart.pending _ hpending hne) (hheap.trans hlive) ?_
      rwa [hmemory, hreceived, hsent]
  | unborn hfresh hreceivedBefore hsentBefore =>
      exact .unborn (hapart.unborn other hne hfresh) (hreceived.trans hreceivedBefore)
        (hsent.trans hsentBefore)
  | gone hborn hheapBefore hanswered =>
      refine .gone (hborn.trans_le hapart.fresh) (hheap.trans hheapBefore) ?_
      rwa [hmemory, hreceived, hsent]

variable {acting : ι}

theorem Apart.put (hapart : Apart state next acting session) (connection : Connection φ) :
    Apart state (next.put session connection) acting session :=
  { hapart with
    heap := fun other hne => (Function.update_of_ne hne _ _).trans (hapart.heap other hne) }

theorem Apart.deliver (hapart : Apart state next acting session) (connection : Connection φ)
    (chunk : Chunk) : Apart state (next.deliver session connection chunk) acting session :=
  { hapart.put _ with
    received := fun other hne =>
      (Function.update_of_ne hne _ _).trans (hapart.received other hne) }

theorem Apart.transmit (hapart : Apart state next acting session)
    (connection : Connection φ) :
    Apart state (next.transmit session connection) acting session :=
  { hapart with
    sent := fun other hne => (Function.update_of_ne hne _ _).trans (hapart.sent other hne) }

/-- A thread that takes up or goes on with a session has it where its task is. -/
theorem Stands.of_task {thread : ι} {task : Task φ σ} {connection : Connection φ}
    {phase : Phase φ σ} (hphase : task.phase = some (session, phase))
    (htask : next.task thread = task) (hlive : next.heap session = some connection)
    (htalks : Talks parseRequest program P (next.memory session) routes connection
      (next.received session) (next.sent session) phase) :
    Stands parseRequest program P routes next session :=
  .task (htask ▸ hphase) hlive htalks

variable [Fintype ι] {connection : Connection φ}

/-- The session that a thread works on stands where the thread is. -/
theorem Stands.talks_of_task (hstands : Stands parseRequest program P routes state session)
    (hstate : InCustody state) {thread : ι} {phase : Phase φ σ}
    (htask : (state.task thread).phase = some (session, phase))
    (hlive : state.heap session = some connection) :
    Talks parseRequest program P (state.memory session) routes connection
      (state.received session) (state.sent session) phase := by
  have hsession := Task.session_of_phase htask
  cases hstands with
  | task hother hheap htalks =>
      have hthread := hstate.exclusive.task_unique _ _ _ hsession (Task.session_of_phase hother)
      rw [← hthread, htask] at hother
      cases hother
      cases hlive.symm.trans hheap
      exact htalks
  | pending hpending hheap htalks =>
      exact absurd hsession (hstate.exclusive.apart _ hpending thread)
  | unborn hfresh hreceived hsent =>
      rw [hstate.unborn session hfresh] at hlive
      contradiction
  | gone hborn hheap htold =>
      rw [hheap] at hlive
      contradiction

/-- The session that an operation works on stands where the operation is. -/
theorem Stands.talks_of_pending (hstands : Stands parseRequest program P routes state session)
    (hstate : InCustody state) {operation : AsyncOperation}
    (hpending : ⟨operation, session⟩ ∈ state.pending)
    (hlive : state.heap session = some connection) :
    Talks parseRequest program P (state.memory session) routes connection
      (state.received session) (state.sent session) operation.phase := by
  cases hstands with
  | task hother hheap htalks =>
      exact absurd (Task.session_of_phase hother) (hstate.exclusive.apart _ hpending _)
  | pending hother hheap htalks =>
      have hsame := List.inj_on_of_nodup_map hstate.exclusive.pending_nodup hpending hother rfl
      cases hsame
      cases hlive.symm.trans hheap
      exact htalks
  | unborn hfresh hreceived hsent =>
      rw [hstate.unborn session hfresh] at hlive
      contradiction
  | gone hborn hheap htold =>
      rw [hheap] at hlive
      contradiction

/-- The process with each session where its holder is. -/
structure Conversing (parseRequest : Str → Option Request)
    (program : φ → Request → Response → Resumption σ Fault (Bool × Response))
    (P : σ → Prop) (routes : FactoryRoutes φ) (state : State ι φ σ) : Prop where
  custody : InCustody state
  store : P state.store
  stands : ∀ session, Stands parseRequest program P routes state session

namespace Conversing

variable {thread : ι} {operation : AsyncOperation}

/-- It is enough to look at the session of the step. -/
theorem of_apart (hstate : Conversing parseRequest program P routes state)
    (hcustody : InCustody next) (hstore : P next.store)
    (hapart : Apart state next thread session)
    (hstands : Stands parseRequest program P routes next session) :
    Conversing parseRequest program P routes next := by
  refine ⟨hcustody, hstore, ?_⟩
  intro other
  rcases eq_or_ne other session with rfl | hne
  · exact hstands
  · exact (hstate.stands other).frame hapart hne

theorem finish (hstate : Conversing parseRequest program P routes state) (ending : Ending)
    (hcustody : InCustody (state.finish ending)) :
    Conversing parseRequest program P routes (state.finish ending) := by
  refine ⟨hcustody, hstate.store, ?_⟩
  intro session
  cases hstate.stands session with
  | task htask hlive htalks => exact .task htask hlive htalks
  | pending hpending hlive htalks => exact .pending hpending hlive htalks
  | unborn hfresh hreceived hsent => exact .unborn hfresh hreceived hsent
  | gone hborn hheap htold => exact .gone hborn hheap htold

theorem talks_of_task (hstate : Conversing parseRequest program P routes state)
    {phase : Phase φ σ} (htask : (state.task thread).phase = some (session, phase))
    (hlive : state.heap session = some connection) :
    Talks parseRequest program P (state.memory session) routes connection
      (state.received session) (state.sent session) phase :=
  (hstate.stands session).talks_of_task hstate.custody htask hlive

theorem talks_of_pending (hstate : Conversing parseRequest program P routes state)
    (hpending : ⟨operation, session⟩ ∈ state.pending)
    (hlive : state.heap session = some connection) :
    Talks parseRequest program P (state.memory session) routes connection
      (state.received session) (state.sent session) operation.phase :=
  (hstate.stands session).talks_of_pending hstate.custody hpending hlive

end Conversing

end Progress

section Steps

variable {ι φ σ : Type} [DecidableEq ι] {parseRequest : Str → Option Request}
  {program : φ → Request → Response → Resumption σ Fault (Bool × Response)} {P : σ → Prop}
  {routes : FactoryRoutes φ} {state next : State ι φ σ} {session : Nat}
  {connection : Connection φ} {thread : ι} {task : Task φ σ} {operation : AsyncOperation}

theorem apart_takeUp (htask : state.task thread = .idle) :
    Apart state ((state.complete operation session).withTask thread task) thread session where
  task _ hne := Function.update_of_ne hne _ _
  actor _ hother := by
    rw [htask] at hother
    cases hother
  pending pending hpending hne := by
    refine (List.mem_erase_of_ne ?_).mpr hpending
    rintro rfl
    exact hne rfl
  heap _ _ := rfl
  memory _ _ := rfl
  received _ _ := rfl
  sent _ _ := rfl
  fresh := Nat.le_refl _
  unborn _ _ hother := hother

theorem apart_goOn (hsession : (state.task thread).session = some session) :
    Apart state (state.withTask thread task) thread session where
  task _ hne := Function.update_of_ne hne _ _
  actor _ hother := Option.some.inj (hother.symm.trans hsession)
  pending _ hpending _ := hpending
  heap _ _ := rfl
  memory _ _ := rfl
  received _ _ := rfl
  sent _ _ := rfl
  fresh := Nat.le_refl _
  unborn _ _ hother := hother

theorem apart_handOver (hsession : (state.task thread).session = some session) :
    Apart state ((state.start operation session).withTask thread task) thread session :=
  { apart_goOn hsession with pending := fun _ hpending _ => List.mem_cons_of_mem _ hpending }

theorem apart_delete (hsession : (state.task thread).session = some session) :
    Apart state ((state.delete session).withTask thread task) thread session :=
  { apart_goOn hsession with heap := fun _ hne => Function.update_of_ne hne _ _ }

theorem apart_construct (hsession : (state.task thread).session = none) :
    Apart state ((state.construct connection).withTask thread task) thread state.fresh where
  task _ hne := Function.update_of_ne hne _ _
  actor _ hother := by
    rw [hsession] at hother
    cases hother
  pending _ hpending _ := hpending
  heap _ hne := Function.update_of_ne hne _ _
  memory _ hne := Function.update_of_ne hne _ _
  received _ _ := rfl
  sent _ _ := rfl
  fresh := Nat.le_succ _
  unborn _ hne hother := Nat.lt_of_le_of_ne hother (Ne.symm hne)

variable [Fintype ι]

namespace Conversing

/-- No read is left without an answer when a session is deleted. -/
theorem stands_delete (hstate : Conversing parseRequest program P routes state)
    (phase : Phase φ σ) (htask : (state.task thread).phase = some (session, phase))
    (hready : phase.Ready) (hlive : state.heap session = some connection) :
    Stands parseRequest program P routes ((state.delete session).withTask thread task)
      session := by
  have hanswered := (hstate.talks_of_task htask hlive).answered hready
  refine .gone ?_ (Function.update_self _ _ _) hanswered
  rw [← Nat.not_le]
  intro hfresh
  rw [hstate.custody.unborn session hfresh] at hlive
  contradiction

end Conversing

/-- Every step keeps each session where its holder is. -/
theorem Conversing.step {event : Event ι} (hstate : Conversing parseRequest program P routes state)
    (hprogram : ∀ factory httpRequest httpResponse,
      (program factory httpRequest httpResponse).Keeps P)
    (hmove : Move parseRequest program routes state event next) :
    Conversing parseRequest program P routes next := by
  have hcustody := hstate.custody.step hmove
  cases hmove with
  | accepted error htask hpending hlive =>
      have htalks := hstate.talks_of_pending hpending hlive
      exact hstate.of_apart hcustody hstate.store (apart_takeUp htask)
        (.of_task rfl (State.task_withTask _ _ _) hlive htalks)
  | @received thread session connection chunk htask hpending hlive =>
      have hconversation := hstate.talks_of_pending hpending hlive
      refine hstate.of_apart hcustody hstate.store ((apart_takeUp htask).deliver connection chunk)
        (.of_task rfl (State.task_withTask _ _ _) (Function.update_self _ _ _) ?_)
      exact ⟨state.received session, chunk, connection.data,
        Function.update_self _ _ _, hconversation, rfl⟩
  | readFailed htask hpending hlive =>
      have htalks := hstate.talks_of_pending hpending hlive
      exact hstate.of_apart hcustody hstate.store (apart_takeUp htask)
        (.of_task rfl (State.task_withTask _ _ _) hlive htalks)
  | @sent thread session connection htask hpending hlive =>
      have hconversation := hstate.talks_of_pending hpending hlive
      refine hstate.of_apart hcustody hstate.store ((apart_takeUp htask).transmit connection)
        (.of_task rfl (State.task_withTask _ _ _) hlive ?_)
      have hsent : ((state.complete .write session).transmit session connection).sent session =
          state.sent session ++ [connection.httpResponse] := Function.update_self _ _ _
      exact hsent ▸ hconversation
  | writeFailed htask hpending hlive =>
      have htalks := hstate.talks_of_pending hpending hlive
      exact hstate.of_apart hcustody hstate.store (apart_takeUp htask)
        (.of_task rfl (State.task_withTask _ _ _) hlive htalks)
  | dropAccepted htask hlive =>
      exact hstate.of_apart hcustody hstate.store (apart_delete (by rw [htask]; rfl))
        (hstate.stands_delete .connecting (by rw [htask]; rfl) trivial hlive)
  | deleteReader htask hlive =>
      exact hstate.of_apart hcustody hstate.store (apart_delete (by rw [htask]; rfl))
        (hstate.stands_delete .listening (by rw [htask]; rfl) trivial hlive)
  | deleteWriter htask hlive =>
      exact hstate.of_apart hcustody hstate.store (apart_delete (by rw [htask]; rfl))
        (hstate.stands_delete .answering (by rw [htask]; rfl) trivial hlive)
  | startSession htask hlive =>
      have htalks := hstate.talks_of_task (by rw [htask]; rfl) hlive
      exact hstate.of_apart hcustody hstate.store (apart_handOver (by rw [htask]; rfl))
        (.pending List.mem_cons_self hlive htalks.listening_of_connecting)
  | construct memory htask =>
      refine hstate.of_apart hcustody hstate.store (apart_construct (by rw [htask]; rfl))
        (.of_task rfl (State.task_withTask _ _ _) (Function.update_self _ _ _) ?_)
      have hnone := hstate.custody.unborn state.fresh (Nat.le_refl _)
      cases hstate.stands state.fresh with
      | task hother hlive | pending hother hlive =>
          rw [hnone] at hlive
          contradiction
      | unborn hfresh hreceived hsent =>
          have hmemory : Function.update state.memory state.fresh memory state.fresh = memory :=
            Function.update_self _ _ _
          exact ⟨hreceived, hsent, hmemory.symm, rfl⟩
      | gone hborn => exact absurd hborn (Nat.lt_irrefl _)
  | asyncAccept htask hlive =>
      have htalks := hstate.talks_of_task (by rw [htask]; rfl) hlive
      exact hstate.of_apart hcustody hstate.store (apart_handOver (by rw [htask]; rfl))
        (.pending List.mem_cons_self hlive htalks)
  | notConnected | unterminated | uncaught | dangling => exact hstate.finish _ hcustody
  | @process thread _ session connection requestString htask hlive hstring =>
      have htalks := hstate.talks_of_task (by rw [htask]; rfl) hlive
      refine hstate.of_apart hcustody hstate.store ((apart_goOn (by rw [htask]; rfl)).put _)
        (.of_task rfl (State.task_withTask _ _ _) (Function.update_self _ _ _) ?_)
      exact ⟨htalks, keeps_processProgram hprogram _ _ _, requestString, hstring,
        fun _ hyields => hyields⟩
  | @access thread _ _ session update later htask =>
      have hsession : (state.task thread).session = some session := by
        rw [htask]
        rfl
      obtain ⟨connection, hlive⟩ :=
        hstate.custody.exists_heap_of_pos (custody_pos_of_task hsession)
      obtain ⟨hunanswered, hkeeps, requestString, hstring, hyields⟩ :=
        hstate.talks_of_task (by rw [htask]; rfl) hlive
      obtain ⟨hupdate, hlater⟩ := Resumption.keeps_access_iff.mp hkeeps
      have hapart : Apart state ({ state with store := update state.store }.withTask thread
          (.processRequest session (later state.store))) thread session :=
        { apart_goOn hsession with }
      refine hstate.of_apart hcustody (hupdate _ hstate.store) hapart
        (.of_task rfl (State.task_withTask _ _ _) hlive ?_)
      exact ⟨hunanswered, hlater _ hstate.store, requestString, hstring,
        fun result hresult => hyields result (.access hstate.store hresult)⟩
  | @respond thread _ _ session connection answer htask hlive =>
      obtain ⟨⟨chunks, chunk, buffer, hreceived, hconversation, hdata⟩, -,
        requestString, hstring, hyields⟩ := hstate.talks_of_task (by rw [htask]; rfl) hlive
      refine hstate.of_apart hcustody hstate.store ((apart_goOn (by rw [htask]; rfl)).put _)
        (.of_task rfl (State.task_withTask _ _ _) (Function.update_self _ _ _) ?_)
      have hanswer := hconversation.answer (hdata ▸ hstring) (hyields _ (.done _))
      rw [← hdata, ← hreceived] at hanswer
      exact hanswer
  | asyncWrite htask hlive =>
      have htalks := hstate.talks_of_task (by rw [htask]; rfl) hlive
      exact hstate.of_apart hcustody hstate.store (apart_handOver (by rw [htask]; rfl))
        (.pending List.mem_cons_self hlive htalks)
  | readAgain htask hlive =>
      have htalks := hstate.talks_of_task (by rw [htask]; rfl) hlive
      exact hstate.of_apart hcustody hstate.store (apart_handOver (by rw [htask]; rfl))
        (.pending List.mem_cons_self hlive htalks)

omit [DecidableEq ι] in
theorem conversing_initial (memory : Buffer) {store : σ} (hstore : P store) :
    Conversing parseRequest program P routes
      (initial routes memory store : State ι φ σ) := by
  refine ⟨inCustody_initial routes memory store, hstore, ?_⟩
  intro session
  rcases eq_or_ne session 0 with rfl | hne
  · have hlive : (initial routes memory store : State ι φ σ).heap 0 =
        some ⟨memory, .empty, routes⟩ := by
      simp [initial]
    exact .pending List.mem_cons_self hlive ⟨rfl, rfl, rfl, rfl⟩
  · exact .unborn (Nat.one_le_iff_ne_zero.mpr hne) rfl rfl

theorem conversing_of_run {memory : Buffer} {store : σ} {events : List (Event ι)}
    {final : State ι φ σ} (hprogram : ∀ factory httpRequest httpResponse,
      (program factory httpRequest httpResponse).Keeps P) (hstore : P store)
    (hrun : (system parseRequest program routes).run (initial routes memory store) events =
      some final) : Conversing parseRequest program P routes final :=
  Interleaving.invariant_of_run _
    (fun hstate hstep => hstate.step hprogram (move_of_step hstep)) events
    (conversing_initial memory hstore) hrun

/-- In a server whose handlers all keep the store in `P`, every response that a peer
gets answers the read of the same number on its own connection, with a result that the
handler can have while others keep the store in `P`; at most the last read is not
answered, or the last response not sent. -/
theorem told_of_run {memory : Buffer} {store : σ} {events : List (Event ι)}
    {final : State ι φ σ} (hprogram : ∀ factory httpRequest httpResponse,
      (program factory httpRequest httpResponse).Keeps P) (hstore : P store)
    (hrun : (system parseRequest program routes).run (initial routes memory store) events =
      some final) :
    P final.store ∧ ∀ session,
      Told parseRequest program P (final.memory session) routes (final.received session)
        (final.sent session) := by
  have hconversing := conversing_of_run hprogram hstore hrun
  exact ⟨hconversing.store, fun session => (hconversing.stands session).told⟩

/-- What all answers of the handlers are like, all responses that peers get are like. -/
theorem forall_sent_of_run {Q : Response → Prop} {memory : Buffer} {store : σ}
    {events : List (Event ι)} {final : State ι φ σ}
    (hprogram : ∀ factory httpRequest answer,
      (program factory httpRequest .empty).Yields (fun _ => True) (.ok answer) → Q answer.2)
    (hrun : (system parseRequest program routes).run (initial routes memory store) events =
      some final) (session : Nat) :
    ∀ httpResponse ∈ final.sent session, Q httpResponse := by
  have hkeeps : ∀ factory httpRequest httpResponse,
      (program factory httpRequest httpResponse).Keeps fun _ => True :=
    fun factory httpRequest httpResponse => Resumption.keeps_true _
  have hconversing := conversing_of_run hkeeps trivial hrun
  exact (hconversing.stands session).told.forall_sent hprogram

end Steps

namespace ConversationsWitness

open SegmentationWitness ServerRunsWitness

theorem keeps_counting {P : Nat → Prop} {update : Nat → Nat}
    (hupdate : ∀ count, P count → P (update count)) (factory : RequestHandlerFactory)
    (httpRequest : Request) (httpResponse : Response) :
    (counting update factory httpRequest httpResponse).Keeps P :=
  .access hupdate fun _ _ => .done _

def outcome : Option (State Bool RequestHandlerFactory Nat) :=
  (system parseGet (counting Nat.succ) routes).run (initial routes SessionWitness.zeroed 1)
    overlapping

theorem isSome_outcome : outcome.isSome = true := by decide +kernel

/-- The counter stays positive, and requests are answered with positive numbers. -/
theorem told_events :
    let final := outcome.get isSome_outcome
    0 < final.store ∧ ∀ session, Told parseGet (counting Nat.succ) (0 < ·)
      (final.memory session) routes (final.received session) (final.sent session) :=
  told_of_run (keeps_counting fun count _ => Nat.succ_pos count) Nat.one_pos
    (Option.some_get isSome_outcome).symm

end ConversationsWitness

end Server

end SwanServer
