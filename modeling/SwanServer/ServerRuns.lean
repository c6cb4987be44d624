/-
What holds of the process in every state that it reaches, whatever the order in
which operations complete and threads go on.
-/
import SwanServer.Segmentation
import SwanServer.SessionCustody

namespace SwanServer

namespace Server

open Custody

section Safety

variable {ι φ σ : Type}

/-- No session is in two hands: those that operations and threads work on are there,
and no two of these work on the same one.  None is left behind either. -/
structure Exclusive (state : State ι φ σ) : Prop where
  pending_live : ∀ pending ∈ state.pending, state.heap pending.session ≠ none
  task_live : ∀ thread session, (state.task thread).session = some session →
    state.heap session ≠ none
  pending_nodup : (state.pending.map Pending.session).Nodup
  task_unique : ∀ first second session, (state.task first).session = some session →
    (state.task second).session = some session → first = second
  apart : ∀ pending ∈ state.pending, ∀ thread,
    (state.task thread).session ≠ some pending.session
  reachable : ∀ session, state.heap session ≠ none →
    (∃ pending ∈ state.pending, pending.session = session) ∨
      ∃ thread, (state.task thread).session = some session

/-- The next connection will be accepted: one operation is in flight for it and no
thread, or one thread will start it and none is in flight. -/
def Accepts (state : State ι φ σ) : Prop :=
  ((∃ session, state.pending.filter (fun pending => pending.operation = .accept) =
      [⟨.accept, session⟩]) ∧ ∀ thread, (state.task thread).accepting = none) ∨
    ((∀ pending ∈ state.pending, pending.operation ≠ .accept) ∧
      ∃! thread, (state.task thread).accepting = some ())

variable [Fintype ι] {state : State ι φ σ} {session : Nat}

theorem custody_eq (state : State ι φ σ) (session : Nat) :
    state.custody session = (state.pending.map Pending.session).count session +
      holders (fun thread => (state.task thread).session) session := by
  have hcount := sum_share (state.pending.map fun pending => some pending.session) session
  have hinjective : (state.pending.map fun pending => some pending.session).count
      (some session) = (state.pending.map Pending.session).count session := by
    have hmap := List.count_map_of_injective (state.pending.map Pending.session) some
      (Option.some_injective Nat) session
    rwa [List.map_map] at hmap
  rw [List.map_map, hinjective] at hcount
  rw [State.custody, State.held, ← hcount]
  rfl

theorem InCustody.exclusive (hstate : InCustody state) : Exclusive state := by
  have hle : ∀ session, (state.pending.map Pending.session).count session +
      holders (fun thread => (state.task thread).session) session ≤ 1 := by
    intro session
    rw [← custody_eq]
    exact hstate.custody_le_one session
  refine ⟨?_, ?_, ?_, ?_, ?_, ?_⟩
  · intro pending hpending
    exact hstate.heap_ne_none (.inr ⟨pending.operation, hpending⟩)
  · intro thread session htask
    exact hstate.heap_ne_none (.inl ⟨thread, htask⟩)
  · rw [List.nodup_iff_count_le_one]
    exact fun session => (Nat.le_add_right _ _).trans (hle session)
  · intro first second session hfirst hsecond
    exact eq_of_holders_le_one ((Nat.le_add_left _ _).trans (hle session)) hfirst hsecond
  · intro pending hpending thread htask
    have hcount : 0 < (state.pending.map Pending.session).count pending.session :=
      List.count_pos_iff.mpr (List.mem_map_of_mem hpending)
    have hholders : 0 < holders (fun thread => (state.task thread).session) pending.session :=
      holders_pos htask
    have hboth := hle pending.session
    omega
  · intro session hheap
    have hcustody := hstate.session session
    rw [if_pos (Option.isSome_iff_ne_none.mpr hheap), custody_eq] at hcustody
    rcases Nat.eq_zero_or_pos ((state.pending.map Pending.session).count session) with
      hzero | hpos
    · right
      apply holders_pos_iff.mp
      omega
    · left
      exact List.mem_map.mp (List.count_pos_iff.mp hpos)

theorem acceptors_eq (state : State ι φ σ) :
    state.acceptors =
      (state.pending.filter fun pending => pending.operation = .accept).length +
        holders (fun thread => (state.task thread).accepting) () := by
  have hcount := sum_share (state.pending.map Pending.accepting) ()
  have hfilter : (state.pending.map Pending.accepting).count (some ()) =
      (state.pending.filter fun pending => pending.operation = .accept).length := by
    rw [List.count, List.countP_map, ← List.countP_eq_length_filter]
    apply List.countP_congr
    intro pending _
    rw [Function.comp_apply, Pending.accepting]
    split <;> simp_all
  rw [State.acceptors, State.held, ← hfilter, ← hcount, List.map_map]
  rfl

theorem InCustody.accepts (hstate : InCustody state) : Accepts state := by
  have hone := hstate.acceptor
  rw [acceptors_eq] at hone
  rcases Nat.eq_zero_or_pos (holders (fun thread => (state.task thread).accepting) ()) with
    hzero | hpos
  · left
    rw [hzero, Nat.add_zero, List.length_eq_one_iff] at hone
    obtain ⟨⟨operation, session⟩, hpending⟩ := hone
    have hmem : (⟨operation, session⟩ : Pending) ∈
        state.pending.filter fun pending => pending.operation = .accept := by
      rw [hpending]
      exact List.mem_singleton_self _
    have haccept : operation = .accept := by simpa using (List.mem_filter.mp hmem).2
    refine ⟨⟨session, haccept ▸ hpending⟩, ?_⟩
    intro thread
    rw [Option.eq_none_iff_forall_ne_some]
    intro token hthread
    have hpos : 0 < holders (fun thread => (state.task thread).accepting) () :=
      holders_pos hthread
    omega
  · right
    have hnil : (state.pending.filter fun pending => pending.operation = .accept) = [] :=
      List.eq_nil_iff_length_eq_zero.mpr (by omega)
    obtain ⟨thread, hthread⟩ := holders_pos_iff.mp hpos
    refine ⟨?_, thread, hthread, ?_⟩
    · intro pending hpending
      simpa using List.filter_eq_nil_iff.mp hnil pending hpending
    · intro other hother
      have hle : holders (fun thread => (state.task thread).accepting) () ≤ 1 := by omega
      exact eq_of_holders_le_one hle hother hthread

end Safety

section Runs

variable {ι φ σ : Type} [DecidableEq ι] {parseRequest : Str → Option Request}
  {program : φ → Request → Response → Resumption σ Fault (Bool × Response)}
  {routes : FactoryRoutes φ} {state final : State ι φ σ} {memory : Buffer} {store : σ}
  {events : List (Event ι)}

theorem exists_goOn {thread : ι} (htask : state.task thread ≠ .idle) (connected : Bool)
    (memory : Buffer) :
    ∃ next, goOn parseRequest program routes thread connected memory state = some next := by
  rw [goOn]
  cases hcase : state.task thread with
  | idle => exact absurd hcase htask
  | processRequest session rest =>
      rcases rest with ⟨fault | answer⟩ | ⟨update, next⟩ <;> exact ⟨_, rfl⟩
  | _ => exact ⟨_, rfl⟩

theorem step_of_running (hended : state.ended = none) {thread : ι} {connected : Bool} :
    step parseRequest program routes state (.goesOn thread connected memory) =
      goOn parseRequest program routes thread connected memory state := by
  unfold step
  rw [hended, Option.isSome_none, if_neg Bool.false_ne_true]

variable [Fintype ι]

/-- Unless the process has ended, something can happen: no thread waits for another. -/
theorem exists_step_of_inCustody (hstate : InCustody state) (hended : state.ended = none)
    (memory : Buffer) (thread : ι) :
    ∃ event next, step parseRequest program routes state event = some next := by
  by_cases hbusy : ∃ other, state.task other ≠ .idle
  · obtain ⟨other, hother⟩ := hbusy
    obtain ⟨next, hnext⟩ := exists_goOn hother true memory
    exact ⟨_, next, (step_of_running hended).trans hnext⟩
  · have hidle : ∀ other, state.task other = .idle := fun other =>
      not_not.mp (not_exists.mp hbusy other)
    rcases hstate.accepts with ⟨⟨session, hpending⟩, -⟩ | ⟨-, other, hother, -⟩
    · have hmem : ⟨.accept, session⟩ ∈ state.pending := by
        apply List.mem_of_mem_filter
        rw [hpending]
        exact List.mem_singleton_self _
      refine ⟨.accepted thread session false, Option.isSome_iff_exists.mp ?_⟩
      unfold step
      simp [hended, takeUp, hidle thread, hmem]
    · simp only [hidle other] at hother
      contradiction

theorem inCustody_of_run
    (hrun : (system parseRequest program routes).run (initial routes memory store) events =
      some final) : InCustody final :=
  Interleaving.invariant_of_run _ (fun hstate hstep => hstate.step (move_of_step hstep)) events
    (inCustody_initial routes memory store) hrun

theorem ended_ne_dangling_of_run
    (hrun : (system parseRequest program routes).run (initial routes memory store) events =
      some final) : final.ended ≠ some .dangling := by
  have hstep : ∀ {state next : State ι φ σ} {event : Event ι},
      InCustody state ∧ state.ended ≠ some .dangling →
      (system parseRequest program routes).step state event = some next →
        InCustody next ∧ next.ended ≠ some .dangling := by
    intro state next event hstate hnext
    have hmove := move_of_step hnext
    exact ⟨hstate.1.step hmove, hstate.1.ended_ne_dangling hstate.2 hmove⟩
  exact (Interleaving.invariant_of_run _ (fun hstate hnext => hstep hstate hnext) events
    ⟨inCustody_initial routes memory store, (Option.some_ne_none _).symm⟩ hrun).2

/-- Whatever operations complete in whatever order and however the threads take turns,
no session is used after its deletion, deleted twice, lost, or used by two threads or
operations at once. -/
theorem exclusive_of_run
    (hrun : (system parseRequest program routes).run (initial routes memory store) events =
      some final) : Exclusive final ∧ final.ended ≠ some .dangling :=
  ⟨(inCustody_of_run hrun).exclusive, ended_ne_dangling_of_run hrun⟩

/-- The server never stops accepting while the process runs, and so `io_service::run`
never is without work; and a thread of the pool can always go on. -/
theorem accepts_of_run (thread : ι)
    (hrun : (system parseRequest program routes).run (initial routes memory store) events =
      some final) :
    Accepts final ∧ (final.ended = none →
      ∃ event next, (system parseRequest program routes).step final event = some next) :=
  ⟨(inCustody_of_run hrun).accepts,
    fun hended => exists_step_of_inCustody (inCustody_of_run hrun) hended memory thread⟩

/-- What can go wrong in a step: the peer of a read is gone, a handler throws, or the
behaviour is undefined, because a read left no NUL in the array or because of what a
handler did. -/
inductive Mishap where
  | notConnected
  | exception (fault : Fault)
  | undefined
deriving DecidableEq

def mishap (state : State ι φ σ) : Event ι → Option Mishap
  | .goesOn thread connected _ =>
      match state.task thread with
      | .handleRead session false =>
          if connected = false then some .notConnected
          else if ((state.heap session).bind fun connection =>
            connection.data.requestString).isNone then some .undefined
          else none
      | .processRequest _ (.done (.error .undefinedBehaviour)) => some .undefined
      | .processRequest _ (.done (.error fault)) => some (.exception fault)
      | _ => none
  | _ => none

/-- The language says what the step does.  Of other steps nothing is known, not even whether
the process survives them. -/
def Defined (state : State ι φ σ) (event : Event ι) : Prop :=
  mishap state event ≠ some .undefined

instance (state : State ι φ σ) (event : Event ι) : Decidable (Defined state event) :=
  inferInstanceAs (Decidable (_ ≠ _))

/-- Nothing goes wrong in the step. -/
def Survives (state : State ι φ σ) (event : Event ι) : Prop := mishap state event = none

omit [Fintype ι] in
theorem ended_of_step {next : State ι φ σ} {event : Event ι}
    (hstep : step parseRequest program routes state event = some next) :
    state.ended = none := by
  unfold step at hstep
  split at hstep
  · contradiction
  · next hended => simpa using hended

/-- A defined step leaves the process running exactly if nothing goes wrong in it. -/
theorem survives_iff {next : State ι φ σ} {event : Event ι} (hstate : InCustody state)
    (hended : state.ended = none) (hdefined : Defined state event)
    (hmove : Move parseRequest program routes state event next) :
    Survives state event ↔ next.ended = none := by
  cases hmove with
  | accepted | received | readFailed | sent | writeFailed => exact iff_of_true rfl hended
  | dropAccepted htask | startSession htask | construct _ htask | asyncAccept htask
  | deleteReader htask | access htask | respond htask | asyncWrite htask
  | deleteWriter htask | readAgain htask =>
      rw [Survives, mishap, htask]
      exact iff_of_true rfl hended
  | process htask hlive hstring =>
      rw [Survives, mishap, htask]
      exact iff_of_true (by simp [hlive, hstring]) hended
  | notConnected htask =>
      rw [Survives, mishap, htask]
      exact iff_of_false (Option.some_ne_none _) (Option.some_ne_none _)
  | unterminated htask hlive hstring =>
      rw [Defined, mishap, htask] at hdefined
      simp [hlive, hstring] at hdefined
  | uncaught htask =>
      rw [Survives, mishap, htask]
      refine iff_of_false ?_ (Option.some_ne_none _)
      split <;> simp_all
  | dangling hdead hheld => exact absurd hdead (hstate.heap_ne_none hheld)

/-- After a run whose steps are all defined the process is still there exactly if no read
was handled whose peer was gone, and no handler threw. -/
theorem ended_eq_none_iff
    (hrun : (system parseRequest program routes).run (initial routes memory store) events =
      some final)
    (hdefined : (system parseRequest program routes).Guarded Defined
      (initial routes memory store) events) :
    final.ended = none ↔ (system parseRequest program routes).Guarded Survives
      (initial routes memory store) events := by
  have hinv : ∀ {state next : State ι φ σ} {event : Event ι}, InCustody state →
      (system parseRequest program routes).step state event = some next → InCustody next :=
    fun hstate hstep => hstate.step (move_of_step hstep)
  have hgood : ∀ {state next : State ι φ σ} {event : Event ι}, InCustody state →
      Defined state event → (system parseRequest program routes).step state event = some next →
        (Survives state event ↔ next.ended = none) :=
    fun hstate hdefined hstep =>
      survives_iff hstate (ended_of_step hstep) hdefined (move_of_step hstep)
  have hstuck : ∀ {state : State ι φ σ} (event : Event ι), state.ended ≠ none →
      (system parseRequest program routes).step state event = none := by
    intro state event hended
    rw [Option.eq_none_iff_forall_ne_some]
    exact fun next hnext => hended (ended_of_step hnext)
  exact (Interleaving.guarded_iff_of_run _ (fun hstate => hinv hstate)
    (fun hstate => hgood hstate) (fun event => hstuck event) events
    (inCustody_initial routes memory store) rfl hdefined hrun).symm

end Runs

namespace ServerRunsWitness

open SegmentationWitness

/-- Handlers that leave the store alone. -/
def program (factory : RequestHandlerFactory) (httpRequest : Request) (httpResponse : Response) :
    Resumption Unit Fault (Bool × Response) :=
  .done ((create factory httpRequest httpResponse).exec ()).1

def routes : FactoryRoutes RequestHandlerFactory := createFactoryMap OrderedMap.empty

/-- Two threads serve a first connection and accept for a second one. -/
def events : List (Event Bool) :=
  [.accepted false 0 false, .goesOn false true SessionWitness.zeroed,
    .received true 0 (some wholeRead), .goesOn false true SessionWitness.zeroed,
    .goesOn true true SessionWitness.zeroed, .goesOn false true SessionWitness.zeroed,
    .goesOn true true SessionWitness.zeroed, .goesOn true true SessionWitness.zeroed,
    .sent false 0 false, .goesOn false true SessionWitness.zeroed, .received true 0 none,
    .goesOn true true SessionWitness.zeroed]

def outcome : Option (State Bool RequestHandlerFactory Unit) :=
  (system parseGet program routes).run (initial routes SessionWitness.zeroed ()) events

theorem isSome_outcome : outcome.isSome = true := by decide +kernel

theorem run_events : (system parseGet program routes).run
    (initial routes SessionWitness.zeroed ()) events = some (outcome.get isSome_outcome) :=
  (Option.some_get isSome_outcome).symm

theorem exclusive_events : Exclusive (outcome.get isSome_outcome) ∧
    (outcome.get isSome_outcome).ended ≠ some .dangling :=
  exclusive_of_run run_events

theorem accepts_events : Accepts (outcome.get isSome_outcome) ∧
    ((outcome.get isSome_outcome).ended = none → ∃ event next,
      (system parseGet program routes).step (outcome.get isSome_outcome) event = some next) :=
  accepts_of_run false run_events

theorem defined_events : (system parseGet program routes).Guarded Defined
    (initial routes SessionWitness.zeroed ()) events := by
  decide +kernel

theorem ended_events : (outcome.get isSome_outcome).ended = none ↔
    (system parseGet program routes).Guarded Survives
      (initial routes SessionWitness.zeroed ()) events :=
  ended_eq_none_iff run_events defined_events

def countResponse (httpRequest : Request) (httpResponse : Response) (count : Nat) : Response :=
  setResponse .ok "text/plain".toList (httpRequest.target ++ toStringInt count) httpResponse

/-- Handlers that share a counter and answer with what they find there. -/
def counting (update : Nat → Nat) (_factory : RequestHandlerFactory) (httpRequest : Request)
    (httpResponse : Response) : Resumption Nat Fault (Bool × Response) :=
  .access update fun count => .done (.ok (true, countResponse httpRequest httpResponse count))

def countingHandler (update : Nat → Nat) (_factory : RequestHandlerFactory) : HandleRequest Nat :=
  fun httpRequest httpResponse => Act.attempt fun count =>
    (.ok (true, countResponse httpRequest httpResponse count), update count)

/-- Memory that another session has left. -/
def stale : Buffer := SessionWitness.zeroed.asyncReadSome SessionWitness.longRead

def turn (thread : Bool) : Event Bool := .goesOn thread true stale

/-- Each thread takes a connection and then a request of it, so that their handlers overlap.
In the end the first one is at work on another request. -/
def overlapping : List (Event Bool) :=
  [.accepted false 0 false, turn false, turn false, turn false,
    .accepted true 1 false, turn true, turn true, turn true,
    .received false 0 (some wholeRead), turn false, .received true 1 (some wholeRead), turn true,
    turn true, turn false, turn false, turn true, turn false, turn true,
    .sent true 0 false, turn true, .sent false 1 false, turn false,
    .received false 1 (some wholeRead), turn false, turn false, turn false]

end ServerRunsWitness

end Server

end SwanServer
