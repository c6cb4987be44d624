/-
Whose turn it is.  Each session is in one pair of hands from its construction to
its deletion: an operation in flight works on it, or one thread.  So no session is
used after it was deleted, nor by two threads at once, and the server always
accepts the next connection.
-/
import SwanServer.Custody
import SwanServer.EventLoop

namespace SwanServer

namespace Server

open Custody

/-- Whether the operation accepts the next connection. -/
def Pending.accepting (pending : Pending) : Option Unit :=
  if pending.operation = .accept then some () else none

section Held

variable {ι φ σ ρ : Type} [Fintype ι] [DecidableEq ρ]
  (ofPending : Pending → Option ρ) (ofTask : Task φ σ → Option ρ)

/-- How many operations and threads hold a resource. -/
def State.held (state : State ι φ σ) (resource : ρ) : Nat :=
  (state.pending.map fun pending => share (ofPending pending) resource).sum +
    holders (fun thread => ofTask (state.task thread)) resource

variable {state : State ι φ σ} {operation : AsyncOperation} {session : Nat}

theorem held_start (operation : AsyncOperation) (session : Nat) (state : State ι φ σ)
    (resource : ρ) :
    (state.start operation session).held ofPending ofTask resource =
      state.held ofPending ofTask resource +
        share (ofPending ⟨operation, session⟩) resource := by
  simp only [State.held, State.start, List.map_cons, List.sum_cons]
  omega

theorem held_complete (hpending : ⟨operation, session⟩ ∈ state.pending) (resource : ρ) :
    (state.complete operation session).held ofPending ofTask resource +
        share (ofPending ⟨operation, session⟩) resource =
      state.held ofPending ofTask resource := by
  have hperm := ((List.perm_cons_erase hpending).map fun pending =>
    share (ofPending pending) resource).sum_eq
  rw [List.map_cons, List.sum_cons] at hperm
  simp only [State.held, State.complete, hperm]
  omega

variable [DecidableEq ι] {thread : ι} {task : Task φ σ}

theorem held_withTask (thread : ι) (task : Task φ σ) (state : State ι φ σ) (resource : ρ) :
    (state.withTask thread task).held ofPending ofTask resource +
        share (ofTask (state.task thread)) resource =
      state.held ofPending ofTask resource + share (ofTask task) resource := by
  have hupdate : (fun other => ofTask ((state.withTask thread task).task other)) =
      Function.update (fun other => ofTask (state.task other)) thread (ofTask task) :=
    Function.comp_update ofTask state.task thread task
  have hholders := holders_update (fun other => ofTask (state.task other)) thread
    (ofTask task) resource
  have hpending : (state.withTask thread task).pending = state.pending := rfl
  rw [State.held, State.held, hupdate, hpending]
  omega

/-- What an operation held is held by the thread that takes it up. -/
theorem held_takeUp (htask : ofTask (state.task thread) = none)
    (hpending : ⟨operation, session⟩ ∈ state.pending)
    (hsame : ofTask task = ofPending ⟨operation, session⟩) (resource : ρ) :
    ((state.complete operation session).withTask thread task).held ofPending ofTask resource =
      state.held ofPending ofTask resource := by
  have hcomplete := held_complete ofPending ofTask hpending resource
  have hwithTask := held_withTask ofPending ofTask thread task
    (state.complete operation session) resource
  have hidle : ofTask ((state.complete operation session).task thread) = none := htask
  rw [hidle, hsame, share_none] at hwithTask
  omega

/-- What a thread held is held by the operation that it starts and by itself. -/
theorem held_handOver (thread : ι) (task : Task φ σ) (operation : AsyncOperation)
    (session : Nat) (state : State ι φ σ) (resource : ρ) :
    ((state.start operation session).withTask thread task).held ofPending ofTask resource +
        share (ofTask (state.task thread)) resource =
      state.held ofPending ofTask resource + share (ofTask task) resource +
        share (ofPending ⟨operation, session⟩) resource := by
  have hstart := held_start ofPending ofTask operation session state resource
  have hwithTask := held_withTask ofPending ofTask thread task
    (state.start operation session) resource
  have hsame : (state.start operation session).task thread = state.task thread := rfl
  rw [hsame] at hwithTask
  omega

end Held

section Custody

variable {ι φ σ : Type} [Fintype ι]

/-- How many operations and threads work on a session. -/
def State.custody (state : State ι φ σ) (session : Nat) : Nat :=
  state.held (fun pending => some pending.session) Task.session session

/-- How many operations and threads will accept the next connection. -/
def State.acceptors (state : State ι φ σ) : Nat :=
  state.held Pending.accepting Task.accepting ()

/-- Every session that is there is in one pair of hands, and no other; one operation
or thread accepts the next connection. -/
structure InCustody (state : State ι φ σ) : Prop where
  session : ∀ session, state.custody session = if (state.heap session).isSome then 1 else 0
  acceptor : state.acceptors = 1
  unborn : ∀ session, state.fresh ≤ session → state.heap session = none

variable {state next : State ι φ σ} {session : Nat}

theorem custody_pos_of_pending {operation : AsyncOperation}
    (hpending : ⟨operation, session⟩ ∈ state.pending) : 0 < state.custody session := by
  have hshare : share (some session) session ∈
      state.pending.map fun pending => share (some pending.session) session :=
    List.mem_map_of_mem hpending
  have hle := List.single_le_sum (fun _ _ => Nat.zero_le _) _ hshare
  rw [share_some, if_pos rfl] at hle
  rw [State.custody, State.held]
  omega

theorem custody_pos_of_task {thread : ι} (htask : (state.task thread).session = some session) :
    0 < state.custody session := by
  have hholders : 0 < holders (fun thread => (state.task thread).session) session :=
    holders_pos htask
  rw [State.custody, State.held]
  omega

namespace InCustody

theorem exists_heap_of_pos (hstate : InCustody state) (hpos : 0 < state.custody session) :
    ∃ connection, state.heap session = some connection := by
  have hcustody := hstate.session session
  split at hcustody
  · next hlive => exact Option.isSome_iff_exists.mp hlive
  · omega

/-- What an operation or a thread works on is there. -/
theorem heap_ne_none (hstate : InCustody state)
    (hheld : (∃ thread, (state.task thread).session = some session) ∨
      ∃ operation, ⟨operation, session⟩ ∈ state.pending) : state.heap session ≠ none := by
  have hpos : 0 < state.custody session := by
    rcases hheld with ⟨thread, htask⟩ | ⟨operation, hpending⟩
    · exact custody_pos_of_task htask
    · exact custody_pos_of_pending hpending
  obtain ⟨connection, hconnection⟩ := hstate.exists_heap_of_pos hpos
  rw [hconnection]
  exact Option.some_ne_none connection

theorem custody_le_one (hstate : InCustody state) (session : Nat) :
    state.custody session ≤ 1 := by
  rw [hstate.session]
  split <;> omega

/-- What moves nothing between hands and neither makes nor deletes a session. -/
theorem keep (hstate : InCustody state)
    (hcustody : ∀ session, next.custody session = state.custody session)
    (hacceptors : next.acceptors = state.acceptors) (hfresh : next.fresh = state.fresh)
    (hheap : ∀ session, (next.heap session).isSome = (state.heap session).isSome) :
    InCustody next := by
  refine ⟨?_, hacceptors.trans hstate.acceptor, ?_⟩
  · intro session
    rw [hcustody, hheap, hstate.session]
  · intro session hsession
    have hnone := hheap session
    rwa [hstate.unborn session (hfresh ▸ hsession), Option.isSome_none,
      Option.isSome_eq_false_iff, Option.isNone_iff_eq_none] at hnone

theorem isSome_update {heap : Nat → Option (Connection φ)} {connection : Connection φ}
    (hlive : heap session = some connection) (later : Connection φ) (other : Nat) :
    (Function.update heap session (some later) other).isSome = (heap other).isSome := by
  by_cases hother : other = session
  · rw [hother, Function.update_self, hlive]
    rfl
  · rw [Function.update_of_ne hother]

variable [DecidableEq ι] {thread : ι} {task : Task φ σ} {operation : AsyncOperation}

/-- A thread takes up a completed operation. -/
theorem takeUp (hstate : InCustody state) (htask : state.task thread = .idle)
    (hpending : ⟨operation, session⟩ ∈ state.pending) (hsession : task.session = some session)
    (haccepting : task.accepting = Pending.accepting ⟨operation, session⟩) :
    InCustody ((state.complete operation session).withTask thread task) := by
  refine hstate.keep ?_ ?_ rfl fun _ => rfl
  · exact held_takeUp _ _ (by rw [htask]; rfl) hpending hsession
  · exact held_takeUp _ _ (by rw [htask]; rfl) hpending haccepting ()

/-- A thread goes on with the same session in hand. -/
theorem goOn (hstate : InCustody state) (hsession : task.session = (state.task thread).session)
    (haccepting : task.accepting = (state.task thread).accepting) :
    InCustody (state.withTask thread task) := by
  refine hstate.keep ?_ ?_ rfl fun _ => rfl
  · intro other
    have hheld := held_withTask (fun pending => some pending.session) Task.session thread task
      state other
    rw [hsession] at hheld
    exact Nat.add_right_cancel hheld
  · have hheld := held_withTask Pending.accepting Task.accepting thread task state ()
    rw [haccepting] at hheld
    exact Nat.add_right_cancel hheld

/-- A thread hands its session over to an operation that it starts. -/
theorem handOver (hstate : InCustody state)
    (htask : (state.task thread).session = some session) (hsession : task.session = none)
    (haccepting : share (state.task thread).accepting () =
      share task.accepting () + share (Pending.accepting ⟨operation, session⟩) ()) :
    InCustody ((state.start operation session).withTask thread task) := by
  refine hstate.keep ?_ ?_ rfl fun _ => rfl
  · intro other
    have hheld := held_handOver (fun pending => some pending.session) Task.session thread task
      operation session state other
    rw [htask, hsession, share_none, Nat.add_zero] at hheld
    exact Nat.add_right_cancel hheld
  · have hheld := held_handOver Pending.accepting Task.accepting thread task operation session
      state ()
    rw [haccepting, Nat.add_assoc] at hheld
    exact Nat.add_right_cancel hheld

/-- A thread deletes the session that it works on. -/
theorem delete (hstate : InCustody state)
    (htask : (state.task thread).session = some session) (hsession : task.session = none)
    (haccepting : task.accepting = (state.task thread).accepting) :
    InCustody ((state.delete session).withTask thread task) := by
  have hheld := fun other => held_withTask (fun pending => some pending.session) Task.session
    thread task (state.delete session) other
  have hsame : (state.delete session).task thread = state.task thread := rfl
  refine ⟨?_, ?_, ?_⟩
  · intro other
    have hother := hheld other
    have hbefore := hstate.session other
    rw [hsame, htask, hsession, share_none, Nat.add_zero, share_some] at hother
    change ((state.delete session).withTask thread task).custody other + _ =
      state.custody other at hother
    have hheap : ((state.delete session).withTask thread task).heap other =
        Function.update state.heap session none other := rfl
    rcases eq_or_ne session other with rfl | hne
    · have hle := hstate.custody_le_one session
      rw [if_pos rfl] at hother
      rw [hheap, Function.update_self, Option.isSome_none, if_neg Bool.false_ne_true]
      omega
    · rw [if_neg hne] at hother
      rw [hheap, Function.update_of_ne (Ne.symm hne), ← hbefore]
      exact hother
  · have haccept := held_withTask Pending.accepting Task.accepting thread task
      (state.delete session) ()
    rw [haccepting, hsame] at haccept
    exact (Nat.add_right_cancel haccept).trans hstate.acceptor
  · intro other hother
    change Function.update state.heap session none other = none
    by_cases hne : other = session
    · rw [hne, Function.update_self]
    · rw [Function.update_of_ne hne, hstate.unborn other hother]

/-- A thread makes a new session. -/
theorem construct (hstate : InCustody state) (connection : Connection φ)
    (htask : (state.task thread).session = none) (hsession : task.session = some state.fresh)
    (haccepting : task.accepting = (state.task thread).accepting) :
    InCustody ((state.construct connection).withTask thread task) := by
  have hsame : (state.construct connection).task thread = state.task thread := rfl
  have hnone : state.heap state.fresh = none := hstate.unborn _ (Nat.le_refl _)
  refine ⟨?_, ?_, ?_⟩
  · intro other
    have hother := held_withTask (fun pending => some pending.session) Task.session thread task
      (state.construct connection) other
    have hbefore := hstate.session other
    rw [hsame, htask, hsession, share_none, Nat.add_zero, share_some] at hother
    change ((state.construct connection).withTask thread task).custody other =
      state.custody other + _ at hother
    have hheap : ((state.construct connection).withTask thread task).heap other =
        Function.update state.heap state.fresh (some connection) other := rfl
    by_cases hne : state.fresh = other
    · rw [hother, hheap, ← hne, Function.update_self, hstate.session, hnone, if_pos rfl]
      rfl
    · rw [hother, hheap, Function.update_of_ne (Ne.symm hne), if_neg hne, hbefore]
      rfl
  · have haccept := held_withTask Pending.accepting Task.accepting thread task
      (state.construct connection) ()
    rw [haccepting, hsame] at haccept
    exact (Nat.add_right_cancel haccept).trans hstate.acceptor
  · intro other hother
    have hlt : state.fresh < other := hother
    change Function.update state.heap state.fresh (some connection) other = none
    rw [Function.update_of_ne hlt.ne', hstate.unborn other hlt.le]

end InCustody

end Custody

section Runs

variable {ι φ σ : Type} [Fintype ι] [DecidableEq ι] {parseRequest : Str → Option Request}
  {program : φ → Request → Response → Resumption σ Fault (Bool × Response)}
  {routes : FactoryRoutes φ} {state next : State ι φ σ} {event : Event ι}

/-- Every step leaves each session in one pair of hands. -/
theorem InCustody.step (hstate : InCustody state)
    (hmove : Move parseRequest program routes state event next) : InCustody next := by
  have hsame : ∀ ending, InCustody (state.finish ending) :=
    fun ending => hstate.keep (fun _ => rfl) rfl rfl fun _ => rfl
  cases hmove with
  | accepted error htask hpending hlive => exact hstate.takeUp htask hpending rfl rfl
  | received chunk htask hpending hlive =>
      exact (hstate.takeUp htask hpending rfl rfl).keep (fun _ => rfl) rfl rfl
        (isSome_update hlive _)
  | readFailed htask hpending hlive => exact hstate.takeUp htask hpending rfl rfl
  | sent htask hpending hlive =>
      exact (hstate.takeUp htask hpending rfl rfl).keep (fun _ => rfl) rfl rfl fun _ => rfl
  | writeFailed htask hpending hlive => exact hstate.takeUp htask hpending rfl rfl
  | dropAccepted htask hlive =>
      exact hstate.delete (by rw [htask]; rfl) rfl (by rw [htask]; rfl)
  | startSession htask hlive =>
      exact hstate.handOver (by rw [htask]; rfl) rfl (by rw [htask]; rfl)
  | construct memory htask =>
      exact hstate.construct _ (by rw [htask]; rfl) rfl (by rw [htask]; rfl)
  | asyncAccept htask hlive =>
      exact hstate.handOver (by rw [htask]; rfl) rfl (by rw [htask]; rfl)
  | deleteReader htask hlive =>
      exact hstate.delete (by rw [htask]; rfl) rfl (by rw [htask]; rfl)
  | notConnected htask => exact hsame _
  | unterminated htask hlive hstring => exact hsame _
  | process htask hlive hstring =>
      exact (hstate.goOn (by rw [htask]; rfl) (by rw [htask]; rfl)).keep (fun _ => rfl) rfl rfl
        (isSome_update hlive _)
  | access htask =>
      exact (hstate.goOn (by rw [htask]; rfl) (by rw [htask]; rfl)).keep (fun _ => rfl) rfl rfl
        fun _ => rfl
  | uncaught htask => exact hsame _
  | respond htask hlive =>
      exact (hstate.goOn (by rw [htask]; rfl) (by rw [htask]; rfl)).keep (fun _ => rfl) rfl rfl
        (isSome_update hlive _)
  | asyncWrite htask hlive =>
      exact hstate.handOver (by rw [htask]; rfl) rfl (by rw [htask]; rfl)
  | deleteWriter htask hlive =>
      exact hstate.delete (by rw [htask]; rfl) rfl (by rw [htask]; rfl)
  | readAgain htask hlive =>
      exact hstate.handOver (by rw [htask]; rfl) rfl (by rw [htask]; rfl)
  | dangling hdead hheld => exact hsame _

/-- No step uses a session that was deleted. -/
theorem InCustody.ended_ne_dangling (hstate : InCustody state)
    (hended : state.ended ≠ some .dangling)
    (hmove : Move parseRequest program routes state event next) : next.ended ≠ some .dangling := by
  cases hmove with
  | notConnected | unterminated | uncaught =>
      intro hdangling
      cases hdangling
  | dangling hdead hheld => exact absurd hdead (hstate.heap_ne_none hheld)
  | _ => exact hended

omit [Fintype ι] [DecidableEq ι] in
theorem heap_initial_of_ne (routes : FactoryRoutes φ) (memory : Buffer) (store : σ)
    {session : Nat} (hne : session ≠ 0) :
    (initial routes memory store : State ι φ σ).heap session = none := by
  simp [initial, hne]

omit [DecidableEq ι] in
theorem inCustody_initial (routes : FactoryRoutes φ) (memory : Buffer) (store : σ) :
    InCustody (initial routes memory store : State ι φ σ) := by
  have hidle : ∀ {ρ : Type} [DecidableEq ρ] (resource : ρ),
      holders (fun _ : ι => (none : Option ρ)) resource = 0 := by
    intro ρ _ resource
    rw [holders_eq_sum]
    exact Finset.sum_eq_zero fun _ _ => share_none resource
  refine ⟨?_, ?_, ?_⟩
  · intro session
    have hcustody : (initial routes memory store : State ι φ σ).custody session =
        share (some 0) session := by
      rw [State.custody, State.held]
      exact congrArg₂ (· + ·) (Nat.add_zero _) (hidle session)
    rw [hcustody, share_some]
    rcases eq_or_ne session 0 with rfl | hne
    · rfl
    · rw [if_neg (Ne.symm hne)]
      rw [heap_initial_of_ne routes memory store hne]
      rfl
  · rw [State.acceptors, State.held]
    exact congrArg₂ (· + ·) (Nat.add_zero 1) (hidle ())
  · intro session hsession
    exact heap_initial_of_ne routes memory store (Nat.one_le_iff_ne_zero.mp hsession)

end Runs

end Server

end SwanServer
