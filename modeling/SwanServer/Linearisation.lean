/-
Handlers that do not overlap.  As long as none starts while another is at work, the
whole server answers as one sequential machine that reads the requests in the order
in which their handlers start.
-/
import SwanServer.Dispatch
import SwanServer.ServerRuns

namespace SwanServer

namespace Server

/-- A handler starts on a request text, or it ends with a response or a fault. -/
inductive Mark where
  | begins (requestString : Str)
  | ends (result : Except Fault Response)

/-- The request texts that handlers were started on. -/
def requests (marks : List Mark) : List Str :=
  marks.filterMap fun
    | .begins requestString => some requestString
    | .ends _ => none

/-- What handlers ended with. -/
def answers (marks : List Mark) : List (Except Fault Response) :=
  marks.filterMap fun
    | .begins _ => none
    | .ends result => some result

theorem requests_begins (marks : List Mark) (requestString : Str) :
    requests (marks ++ [.begins requestString]) = requests marks ++ [requestString] := by
  simp [requests]

theorem answers_begins (marks : List Mark) (requestString : Str) :
    answers (marks ++ [.begins requestString]) = answers marks := by
  simp [answers]

theorem requests_ends (marks : List Mark) (result : Except Fault Response) :
    requests (marks ++ [.ends result]) = requests marks := by
  simp [requests]

theorem answers_ends (marks : List Mark) (result : Except Fault Response) :
    answers (marks ++ [.ends result]) = answers marks ++ [result] := by
  simp [answers]

section Marks

variable {ι φ σ : Type}

/-- The mark that an event leaves. -/
def mark (state : State ι φ σ) : Event ι → Option Mark
  | .goesOn thread connected _ =>
      match state.task thread with
      | .handleRead session false =>
          if connected then
            ((state.heap session).bind fun connection =>
              connection.data.requestString).map .begins
          else none
      | .processRequest _ (.done result) => some (.ends (result.map Prod.fst))
      | _ => none
  | _ => none

/-- Whether a thread is in a handler. -/
def Task.Processes (task : Task φ σ) : Prop := ∃ session rest, task = .processRequest session rest

instance (task : Task φ σ) : Decidable task.Processes :=
  match task with
  | .processRequest session rest => isTrue ⟨session, rest, rfl⟩
  | .idle | .handleAccept _ _ | .startAccept | .asyncAccept _ | .handleRead _ _ | .asyncWrite _
  | .handleWrite _ _ => isFalse fun ⟨_, _, heq⟩ => by cases heq

/-- No handler is at work. -/
def Quiet (state : State ι φ σ) : Prop :=
  ∀ thread session rest, state.task thread ≠ .processRequest session rest

instance [Fintype ι] (state : State ι φ σ) : Decidable (Quiet state) :=
  decidable_of_iff (∀ thread, ¬ (state.task thread).Processes)
    ⟨fun hnone thread session rest heq => hnone thread ⟨session, rest, heq⟩,
      fun hquiet thread ⟨session, rest, heq⟩ => hquiet thread session rest heq⟩

/-- A handler that starts is alone. -/
def Alone (state : State ι φ σ) (event : Event ι) : Prop :=
  ∀ requestString, mark state event = some (.begins requestString) → Quiet state

instance decidableAlone [Fintype ι] (state : State ι φ σ) (event : Event ι) :
    Decidable (Alone state event) :=
  match hmark : mark state event with
  | some (.begins _) =>
      decidable_of_iff (Quiet state) ⟨fun hquiet _ _ => hquiet, fun halone => halone _ hmark⟩
  | some (.ends _) => isTrue fun _ hbegins => by cases hmark.symm.trans hbegins
  | none => isTrue fun _ hbegins => by cases hmark.symm.trans hbegins

end Marks

section Serial

variable {ι φ σ : Type} (parseRequest : Str → Option Request)
  (program : φ → Request → Response → Resumption σ Fault (Bool × Response))
  (routes : FactoryRoutes φ) (M : Machine σ Str (Except Fault Response)) (start : σ)

/-- How far the sequential machine is that the server stands for: between two requests, in
the middle of one, or behind one whose fault ended the process. -/
inductive Serial (marks : List Mark) (state : State ι φ σ) : Prop where
  | between (hquiet : Quiet state)
      (hanswers : answers marks = (M.trace start (requests marks)).map Prod.fst)
      (hstore : state.store = M.final start (requests marks))
  | during {thread : ι} {session : Nat}
      {rest : Resumption σ Fault (Response × FactoryRoutes φ)} {earlier : List Str}
      {requestString : Str} (htask : state.task thread = .processRequest session rest)
      (honly : ∀ other session rest, state.task other = .processRequest session rest →
        other = thread)
      (hrequests : requests marks = earlier ++ [requestString])
      (hanswers : answers marks = (M.trace start earlier).map Prod.fst)
      (hrest : rest.exec state.store =
        (processProgram parseRequest program routes requestString .empty).exec
          (M.final start earlier))
  | ended (hended : state.ended ≠ none)
      (hanswers : answers marks = (M.trace start (requests marks)).map Prod.fst)

/-- The sequential machine, and the table that all sessions have. -/
structure Serialised [Fintype ι] (marks : List Mark) (state : State ι φ σ) : Prop where
  custody : InCustody state
  tables : ∀ session connection, state.heap session = some connection →
    connection.factoryRoutes = routes
  serial : Serial parseRequest program routes M start marks state

end Serial

section Steps

variable {ι φ σ : Type} {parseRequest : Str → Option Request}
  {program : φ → Request → Response → Resumption σ Fault (Bool × Response)}
  {create : φ → HandleRequest σ} {routes : FactoryRoutes φ} {factoryOf : Str → φ}
  {M : Machine σ Str (Except Fault Response)} {start : σ}
  {marks : List Mark} {state next : State ι φ σ} {event : Event ι}

/-- The programs of all handlers do what the handlers do, and the table has a factory for
every request text. -/
structure Implements (parseRequest : Str → Option Request)
    (program : φ → Request → Response → Resumption σ Fault (Bool × Response))
    (create : φ → HandleRequest σ) (routes : FactoryRoutes φ) (factoryOf : Str → φ) :
    Prop where
  exec : ∀ factory httpRequest httpResponse store,
    (program factory httpRequest httpResponse).exec store =
      (create factory httpRequest httpResponse).exec store
  route : ∀ requestString, routes.find?
    (matchedLocationPath parseRequest routes requestString) =
      some (some (factoryOf requestString))

/-- The sequential machine has given all answers there are, and when no handler is at work
it has given no others. -/
theorem Serial.answers_sequential
    (hserial : Serial parseRequest program routes M start marks state) :
    answers marks <+: (M.trace start (requests marks)).map Prod.fst ∧
      (Quiet state → answers marks = (M.trace start (requests marks)).map Prod.fst ∧
        (state.ended = none → state.store = M.final start (requests marks))) := by
  cases hserial with
  | between hquiet hanswers hstore =>
      exact ⟨hanswers ▸ List.prefix_refl _, fun _ => ⟨hanswers, fun _ => hstore⟩⟩
  | during htask honly hrequests hanswers hrest =>
      refine ⟨?_, fun hquiet => absurd htask (hquiet _ _ _)⟩
      rw [hanswers, hrequests, Machine.trace_concat, List.map_append]
      exact List.prefix_append _ _
  | ended hended hanswers =>
      exact ⟨hanswers ▸ List.prefix_refl _,
        fun _ => ⟨hanswers, fun hrunning => absurd hrunning hended⟩⟩

/-- Undisturbed, a request is a step of the sequential machine and leaves the table. -/
theorem Implements.exec_processProgram
    (himplements : Implements parseRequest program create routes factoryOf)
    (requestString : Str) (store : σ) :
    (processProgram parseRequest program routes requestString .empty).exec store =
      let result := (handlerMachine parseRequest create factoryOf).step store requestString
      (result.1.map fun httpResponse => (httpResponse, routes), result.2) := by
  have hlookup := OrderedMap.getOrInsert_of_find? (himplements.route requestString) none
  rw [processProgram, hlookup]
  simp only [Resumption.exec_map, himplements.exec, handlerMachine]
  rcases (create (factoryOf requestString) (parsedRequest parseRequest requestString)
    .empty).exec store with ⟨fault | answer, later⟩ <;> rfl

/-- Steps that no handler takes part in leave the sequential machine alone. -/
theorem Serial.same (hserial : Serial parseRequest program routes M start marks state)
    (hstore : next.store = state.store)
    (htasks : ∀ other session rest, next.task other = .processRequest session rest ↔
      state.task other = .processRequest session rest)
    (hended : state.ended ≠ none → next.ended ≠ none) :
    Serial parseRequest program routes M start marks next := by
  cases hserial with
  | between hquiet hanswers hfinal =>
      refine .between ?_ hanswers (hstore.trans hfinal)
      exact fun thread session rest => (htasks thread session rest).not.mpr
        (hquiet thread session rest)
  | during htask honly hrequests hanswers hrest =>
      refine .during ((htasks _ _ _).mpr htask) ?_ hrequests hanswers (hstore ▸ hrest)
      exact fun other session rest hother => honly other session rest
        ((htasks other session rest).mp hother)
  | ended hbefore hanswers => exact .ended (hended hbefore) hanswers

theorem tables_update {heap : Nat → Option (Connection φ)}
    (htables : ∀ session connection, heap session = some connection →
      connection.factoryRoutes = routes) (session : Nat) {now : Option (Connection φ)}
    (hnow : ∀ connection, now = some connection → connection.factoryRoutes = routes) :
    ∀ other connection, Function.update heap session now other = some connection →
      connection.factoryRoutes = routes := by
  intro other connection hother
  rcases eq_or_ne other session with rfl | hne
  · rw [Function.update_self] at hother
    exact hnow connection hother
  · rw [Function.update_of_ne hne] at hother
    exact htables other connection hother

variable [DecidableEq ι] {thread : ι} {task : Task φ σ}

theorem tasks_withTask (hbefore : ¬ (state.task thread).Processes) (hnow : ¬ task.Processes)
    (other : ι) (session : Nat) (rest : Resumption σ Fault (Response × FactoryRoutes φ)) :
    (state.withTask thread task).task other = .processRequest session rest ↔
      state.task other = .processRequest session rest := by
  rcases eq_or_ne other thread with rfl | hne
  · rw [State.task_withTask]
    exact iff_of_false (fun heq => hnow ⟨session, rest, heq⟩)
      fun heq => hbefore ⟨session, rest, heq⟩
  · rw [State.task_withTask_of_ne _ hne]

theorem not_processes {task other : Task φ σ} (htask : task = other)
    (hother : ∀ session rest, other ≠ .processRequest session rest) : ¬ task.Processes := by
  rintro ⟨session, rest, rfl⟩
  exact hother session rest htask.symm

variable [Fintype ι]

omit [DecidableEq ι] in
theorem Serialised.same (hstate : Serialised parseRequest program routes M start marks state)
    (hcustody : InCustody next) (hmark : mark state event = none)
    (htables : ∀ session connection, next.heap session = some connection →
      connection.factoryRoutes = routes) (hstore : next.store = state.store)
    (htasks : ∀ other session rest, next.task other = .processRequest session rest ↔
      state.task other = .processRequest session rest)
    (hended : state.ended ≠ none → next.ended ≠ none) :
    Serialised parseRequest program routes M start (marks ++ (mark state event).toList)
      next := by
  rw [hmark, Option.toList_none, List.append_nil]
  exact ⟨hcustody, htables, hstate.serial.same hstore htasks hended⟩

omit [DecidableEq ι] [Fintype ι] in
/-- The handler at work ends: the sequential machine has answered. -/
theorem Serial.ends (himplements : Implements parseRequest program create routes factoryOf)
    (hserial : Serial parseRequest program routes (handlerMachine parseRequest create factoryOf)
      start marks state) (hended : state.ended = none) {session : Nat}
    {result : Except Fault (Response × FactoryRoutes φ)}
    (htask : state.task thread = .processRequest session (.done result)) :
    (∀ other session rest, state.task other = .processRequest session rest → other = thread) ∧
      (∀ answer, result = .ok answer → answer.2 = routes) ∧
      answers marks ++ [result.map Prod.fst] =
        ((handlerMachine parseRequest create factoryOf).trace start (requests marks)).map
          Prod.fst ∧
      state.store =
        (handlerMachine parseRequest create factoryOf).final start (requests marks) := by
  cases hserial with
  | between hquiet => exact absurd htask (hquiet thread session _)
  | ended hbefore => exact absurd hended hbefore
  | during hother honly hrequests hanswers hrest =>
      have hthread := honly thread session _ htask
      subst hthread
      cases htask.symm.trans hother
      rw [Resumption.exec_done, himplements.exec_processProgram, Prod.mk.injEq] at hrest
      obtain ⟨hresult, hstore⟩ := hrest
      refine ⟨honly, ?_, ?_, ?_⟩
      · rintro answer rfl
        rcases hmachine : ((handlerMachine parseRequest create factoryOf).step _ _).1 with
          fault | httpResponse <;> rw [hmachine] at hresult <;> cases hresult
        rfl
      · have hfirst : ∀ outcome : Except Fault Response,
            (outcome.map fun httpResponse => (httpResponse, routes)).map Prod.fst = outcome := by
          rintro (fault | httpResponse) <;> rfl
        rw [hanswers, hrequests, Machine.trace_concat, List.map_append, hresult, hfirst]
        rfl
      · rw [hrequests, Machine.final_concat, hstore]

/-- Every step keeps the server and the sequential machine together. -/
theorem Serialised.step (himplements : Implements parseRequest program create routes factoryOf)
    (hstate : Serialised parseRequest program routes
      (handlerMachine parseRequest create factoryOf) start marks state)
    (hended : state.ended = none) (halone : Alone state event)
    (hmove : Move parseRequest program routes state event next) :
    Serialised parseRequest program routes (handlerMachine parseRequest create factoryOf) start
      (marks ++ (mark state event).toList) next := by
  have hcustody := hstate.custody.step hmove
  have htables := hstate.tables
  have hnone : ∀ connection : Connection φ, none = some connection →
      connection.factoryRoutes = routes := by
    rintro _ ⟨⟩
  have hfinish : ∀ ending, mark state event = none → next = state.finish ending →
      Serialised parseRequest program routes (handlerMachine parseRequest create factoryOf)
        start (marks ++ (mark state event).toList) next := by
    rintro ending hmark rfl
    exact hstate.same hcustody hmark htables rfl (fun _ _ _ => Iff.rfl)
      fun _ => Option.some_ne_none _
  cases hmove with
  | accepted error htask | readFailed htask | sent htask | writeFailed htask =>
      exact hstate.same hcustody rfl htables rfl
        (tasks_withTask (not_processes htask (by simp)) (not_processes rfl (by simp))) id
  | @received _ session connection chunk htask hpending hlive =>
      refine hstate.same hcustody rfl (tables_update htables _ ?_) rfl
        (tasks_withTask (not_processes htask (by simp)) (not_processes rfl (by simp))) id
      rintro _ ⟨⟩
      exact htables session connection hlive
  | dropAccepted htask | deleteReader htask | deleteWriter htask =>
      exact hstate.same hcustody (by rw [mark, htask]) (tables_update htables _ hnone) rfl
        (tasks_withTask (not_processes htask (by simp)) (not_processes rfl (by simp))) id
  | startSession htask | asyncAccept htask | asyncWrite htask | readAgain htask =>
      exact hstate.same hcustody (by rw [mark, htask]) htables rfl
        (tasks_withTask (not_processes htask (by simp)) (not_processes rfl (by simp))) id
  | construct memory htask =>
      refine hstate.same hcustody (by rw [mark, htask]) (tables_update htables _ ?_) rfl
        (tasks_withTask (not_processes htask (by simp)) (not_processes rfl (by simp))) id
      rintro _ ⟨⟩
      rfl
  | notConnected htask => exact hfinish _ (by rw [mark, htask]; rfl) rfl
  | unterminated htask hlive hstring =>
      refine hfinish _ ?_ rfl
      rw [mark, htask]
      simp [hlive, hstring]
  | dangling hdead hheld => exact absurd hdead (hstate.custody.heap_ne_none hheld)
  | @process thread memory session connection requestString htask hlive hstring =>
      have hmark : mark state (.goesOn thread true memory) = some (.begins requestString) := by
        rw [mark, htask]
        simp [hlive, hstring]
      have hquiet := halone requestString hmark
      rw [hmark]
      refine ⟨hcustody, tables_update htables _ ?_, ?_⟩
      · rintro _ ⟨⟩
        exact htables session connection hlive
      · cases hstate.serial with
        | ended hbefore => exact absurd hended hbefore
        | during hother => exact absurd hother (hquiet _ _ _)
        | between _ hanswers hstore =>
            refine .during (State.task_withTask _ _ _) ?_ (requests_begins _ _)
              ((answers_begins _ _).trans hanswers) ?_
            · intro other session rest hother
              by_contra hne
              rw [State.task_withTask_of_ne _ hne] at hother
              exact hquiet other session rest hother
            · rw [htables session connection hlive, ← hstore]
              rfl
  | @access thread _ _ session update later htask =>
      refine ⟨hcustody, htables, ?_⟩
      rw [mark, htask, Option.toList_none, List.append_nil]
      cases hstate.serial with
      | ended hbefore => exact absurd hended hbefore
      | between hquiet => exact absurd htask (hquiet _ _ _)
      | during hother honly hrequests hanswers hrest =>
          have hthread := honly thread session _ htask
          subst hthread
          cases htask.symm.trans hother
          refine .during (State.task_withTask _ _ _) ?_ hrequests hanswers hrest
          intro other session rest hprocesses
          by_contra hne
          rw [State.task_withTask_of_ne _ hne] at hprocesses
          exact hne (honly other session rest hprocesses)
  | uncaught htask =>
      obtain ⟨-, -, hanswers, -⟩ := hstate.serial.ends himplements hended htask
      refine ⟨hcustody, htables, .ended (Option.some_ne_none _) ?_⟩
      rw [mark, htask, Option.toList_some, answers_ends, requests_ends]
      exact hanswers
  | @respond thread _ _ session connection answer htask hlive =>
      obtain ⟨honly, hroutes, hanswers, hstore⟩ := hstate.serial.ends himplements hended htask
      refine ⟨hcustody, tables_update htables _ ?_, .between ?_ ?_ ?_⟩
      · rintro _ ⟨⟩
        exact hroutes answer rfl
      · intro other session rest hprocesses
        rcases eq_or_ne other thread with rfl | hne
        · rw [State.task_withTask] at hprocesses
          contradiction
        · rw [State.task_withTask_of_ne _ hne] at hprocesses
          exact hne (honly other session rest hprocesses)
      · rw [mark, htask, Option.toList_some, answers_ends, requests_ends]
        exact hanswers
      · rw [mark, htask, Option.toList_some, requests_ends]
        exact hstore

theorem serialised_of_run
    (himplements : Implements parseRequest program create routes factoryOf) {memory : Buffer}
    {events : List (Event ι)}
    (hrun : (system parseRequest program routes).run (initial routes memory start) events =
      some next)
    (halone : (system parseRequest program routes).Guarded Alone (initial routes memory start)
      events) :
    Serialised parseRequest program routes (handlerMachine parseRequest create factoryOf) start
      ((system parseRequest program routes).observed mark (initial routes memory start) events)
      next := by
  have hstart : Serialised parseRequest program routes
      (handlerMachine parseRequest create factoryOf) start []
      (initial routes memory start : State ι φ σ) := by
    refine ⟨inCustody_initial routes memory start, ?_, .between ?_ rfl rfl⟩
    · refine tables_update (fun _ _ hnone => by cases hnone) 0 ?_
      rintro _ ⟨⟩
      rfl
    · intro thread session rest hprocesses
      cases hprocesses
  have hstep : ∀ {marks : List Mark} {state next : State ι φ σ} {event : Event ι},
      Serialised parseRequest program routes (handlerMachine parseRequest create factoryOf)
        start marks state → Alone state event →
      (system parseRequest program routes).step state event = some next →
      Serialised parseRequest program routes (handlerMachine parseRequest create factoryOf)
        start (marks ++ (mark state event).toList) next :=
    fun hstate halone hstep =>
      hstate.step himplements (ended_of_step hstep) halone (move_of_step hstep)
  exact @Interleaving.invariant_of_observed _ _ _ (system parseRequest program routes) Alone mark
    (Serialised parseRequest program routes (handlerMachine parseRequest create factoryOf) start)
    hstep events [] _ next hstart halone hrun

/-- As long as no handler starts while another is at work, the handlers end as the steps of
the sequential machine on the same request texts in the same order: all of them, or all
but the one at work.  When none is at work in a running process, the store is that of the
machine. -/
theorem answers_of_run
    (himplements : Implements parseRequest program create routes factoryOf) {memory : Buffer}
    {events : List (Event ι)}
    (hrun : (system parseRequest program routes).run (initial routes memory start) events =
      some next)
    (halone : (system parseRequest program routes).Guarded Alone (initial routes memory start)
      events) :
    let marks :=
      (system parseRequest program routes).observed mark (initial routes memory start) events
    let M := handlerMachine parseRequest create factoryOf
    answers marks <+: (M.trace start (requests marks)).map Prod.fst ∧
      (Quiet next → answers marks = (M.trace start (requests marks)).map Prod.fst ∧
        (next.ended = none → next.store = M.final start (requests marks))) :=
  (serialised_of_run himplements hrun halone).serial.answers_sequential

end Steps

namespace LinearisationWitness

open SegmentationWitness ServerRunsWitness

theorem exists_route (requestString : Str) : ∃ factory, routes.find?
    (matchedLocationPath parseGet routes requestString) = some (some factory) :=
  exists_find?_matchedLocationPath FilesystemMap.normalised_empty parseGet requestString

noncomputable def factoryOf (requestString : Str) : RequestHandlerFactory :=
  (exists_route requestString).choose

theorem implements_counting :
    Implements parseGet (counting Nat.succ) (countingHandler Nat.succ) routes factoryOf where
  exec _ _ _ _ := rfl
  route requestString := (exists_route requestString).choose_spec

/-- Each thread takes a connection, and a request after the other one is done with its own. -/
def oneByOne : List (Event Bool) :=
  [.accepted false 0 false, turn false, turn false, turn false,
    .accepted true 1 false, turn true, turn true, turn true,
    .received true 1 (some wholeRead), .received false 0 (some wholeRead), turn false, turn false,
    turn false, turn true, turn true, turn false, turn true, .sent false 0 false, turn true,
    turn false, .received false 0 (some wholeRead), turn false, turn false]

def outcome : Option (State Bool RequestHandlerFactory Nat) :=
  (system parseGet (counting Nat.succ) routes).run (initial routes SessionWitness.zeroed 1)
    oneByOne

theorem isSome_outcome : outcome.isSome = true := by decide +kernel

theorem alone_oneByOne : (system parseGet (counting Nat.succ) routes).Guarded Alone
    (initial routes SessionWitness.zeroed 1) oneByOne := by
  decide +kernel

/-- Three requests of two connections; the last one is still at work. -/
theorem answers_events :
    let next := outcome.get isSome_outcome
    let marks := (system parseGet (counting Nat.succ) routes).observed mark
      (initial routes SessionWitness.zeroed 1) oneByOne
    let M := handlerMachine parseGet (countingHandler Nat.succ) factoryOf
    answers marks <+: (M.trace 1 (requests marks)).map Prod.fst ∧
      (Quiet next → answers marks = (M.trace 1 (requests marks)).map Prod.fst ∧
        (next.ended = none → next.store = M.final 1 (requests marks))) :=
  answers_of_run implements_counting (Option.some_get isSome_outcome).symm alone_oneByOne

end LinearisationWitness

end Server

end SwanServer
