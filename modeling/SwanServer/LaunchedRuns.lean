/-
A server that `main` has started.  Its route table never changes, it never meets a
null factory, and only three things end it.
-/
import SwanServer.Linearisation
import SwanServer.ServerMain

namespace SwanServer

namespace Server

section Causes

variable {ι φ σ : Type} (parseRequest : Str → Option Request)
  (program : φ → Request → Response → Resumption σ Fault (Bool × Response))
  (routes : FactoryRoutes φ)

/-- Why a process has ended: a thread was handling a read whose peer was gone or whose
array held no NUL, or it was in the handler of a location, which threw. -/
inductive Cause (state : State ι φ σ) : Ending → Prop where
  | notConnected {thread : ι} {session : Nat}
      (htask : state.task thread = .handleRead session false) : Cause state .notConnected
  | unterminated {thread : ι} {session : Nat} {connection : Connection φ}
      (htask : state.task thread = .handleRead session false)
      (hlive : state.heap session = some connection)
      (hstring : connection.data.requestString = none) :
      Cause state (.uncaught .undefinedBehaviour)
  | handler {thread : ι} {session : Nat} {location : Str} {factory : φ} {httpRequest : Request}
      {fault : Fault} (htask : state.task thread = .processRequest session (.done (.error fault)))
      (hroute : routes.find? location = some (some factory))
      (hyields : (program factory httpRequest .empty).Yields (fun _ => True) (.error fault)) :
      Cause state (.uncaught fault)

/-- All sessions have the table of the server, handlers work from it, and the end has a
cause. -/
structure Routed (state : State ι φ σ) : Prop where
  tables : ∀ session connection, state.heap session = some connection →
    connection.factoryRoutes = routes
  tasks : ∀ thread session rest, state.task thread = .processRequest session rest →
    ∃ requestString, ∀ result, rest.Yields (fun _ => True) result →
      (processProgram parseRequest program routes requestString .empty).Yields (fun _ => True)
        result
  cause : ∀ ending, state.ended = some ending → Cause program routes state ending

end Causes

section Steps

variable {ι φ σ : Type} {parseRequest : Str → Option Request}
  {program : φ → Request → Response → Resumption σ Fault (Bool × Response)}
  {routes : FactoryRoutes φ} {state next : State ι φ σ} {event : Event ι}
  (hroute : ∀ requestString, ∃ factory,
    routes.find? (matchedLocationPath parseRequest routes requestString) = some (some factory))

include hroute

/-- What comes of a request text comes of a handler of the table. -/
theorem yields_processProgram {P : σ → Prop} {requestString : Str}
    {result : Except Fault (Response × FactoryRoutes φ)}
    (hyields : (processProgram parseRequest program routes requestString .empty).Yields P
      result) :
    ∃ location factory httpRequest outcome, routes.find? location = some (some factory) ∧
      (program factory httpRequest .empty).Yields P outcome ∧
      result = outcome.map fun answer => (answer.2, routes) := by
  obtain ⟨factory, hfactory⟩ := hroute requestString
  rw [processProgram, OrderedMap.getOrInsert_of_find? hfactory none] at hyields
  obtain ⟨outcome, houtcome, heq⟩ := Resumption.yields_map_iff.mp hyields
  exact ⟨_, factory, _, outcome, hfactory, houtcome, heq⟩

omit hroute in
theorem cause_of_running (hended : next.ended = none) (ending : Ending)
    (hending : next.ended = some ending) : Cause program routes next ending := by
  rw [hended] at hending
  cases hending

omit hroute in
theorem routed_initial (memory : Buffer) (store : σ) :
    Routed parseRequest program routes (initial routes memory store : State ι φ σ) := by
  refine ⟨?_, ?_, cause_of_running rfl⟩
  · refine tables_update (fun _ _ hnone => by cases hnone) 0 ?_
    rintro _ ⟨⟩
    rfl
  · rintro thread session rest ⟨⟩

omit hroute in
theorem Routed.same (hstate : Routed parseRequest program routes state)
    (htables : ∀ session connection, next.heap session = some connection →
      connection.factoryRoutes = routes)
    (htasks : ∀ other session rest, next.task other = .processRequest session rest ↔
      state.task other = .processRequest session rest)
    (hended : next.ended = none) : Routed parseRequest program routes next := by
  refine ⟨htables, fun thread session rest htask => ?_, cause_of_running hended⟩
  exact hstate.tasks thread session rest ((htasks thread session rest).mp htask)

omit hroute in
/-- The step that ends the process has a cause. -/
theorem Routed.finish (hstate : Routed parseRequest program routes state) {ending : Ending}
    (hcause : Cause program routes (state.finish ending) ending) :
    Routed parseRequest program routes (state.finish ending) := by
  refine ⟨hstate.tables, hstate.tasks, ?_⟩
  rintro _ ⟨⟩
  exact hcause

theorem Routed.step [DecidableEq ι] [Fintype ι] (hcustody : InCustody state)
    (hstate : Routed parseRequest program routes state) (hended : state.ended = none)
    (hmove : Move parseRequest program routes state event next) :
    Routed parseRequest program routes next := by
  have htables := hstate.tables
  have hnone : ∀ connection : Connection φ, none = some connection →
      connection.factoryRoutes = routes := by
    rintro _ ⟨⟩
  cases hmove with
  | accepted error htask | readFailed htask | sent htask | writeFailed htask
  | startSession htask | asyncAccept htask | asyncWrite htask | readAgain htask =>
      exact hstate.same htables
        (tasks_withTask (not_processes htask (by simp)) (not_processes rfl (by simp))) hended
  | @received _ session connection chunk htask hpending hlive =>
      refine hstate.same (tables_update htables _ ?_)
        (tasks_withTask (not_processes htask (by simp)) (not_processes rfl (by simp))) hended
      rintro _ ⟨⟩
      exact htables session connection hlive
  | dropAccepted htask | deleteReader htask | deleteWriter htask =>
      exact hstate.same (tables_update htables _ hnone)
        (tasks_withTask (not_processes htask (by simp)) (not_processes rfl (by simp))) hended
  | construct memory htask =>
      refine hstate.same (tables_update htables _ ?_)
        (tasks_withTask (not_processes htask (by simp)) (not_processes rfl (by simp))) hended
      rintro _ ⟨⟩
      rfl
  | notConnected htask => exact hstate.finish (.notConnected htask)
  | unterminated htask hlive hstring => exact hstate.finish (.unterminated htask hlive hstring)
  | dangling hdead hheld => exact absurd hdead (hcustody.heap_ne_none hheld)
  | @process thread memory session connection requestString htask hlive hstring =>
      refine ⟨tables_update htables _ ?_, ?_, cause_of_running hended⟩
      · rintro _ ⟨⟩
        exact htables session connection hlive
      · intro other number rest hother
        rcases eq_or_ne other thread with rfl | hne
        · rw [State.task_withTask] at hother
          cases hother
          refine ⟨requestString, fun result hyields => ?_⟩
          rwa [htables session connection hlive] at hyields
        · rw [State.task_withTask_of_ne _ hne] at hother
          exact hstate.tasks other number rest hother
  | @access thread _ _ session update later htask =>
      obtain ⟨requestString, hbefore⟩ := hstate.tasks thread session _ htask
      refine ⟨htables, ?_, cause_of_running hended⟩
      intro other number rest hother
      rcases eq_or_ne other thread with rfl | hne
      · rw [State.task_withTask] at hother
        cases hother
        exact ⟨requestString, fun result hyields => hbefore result (.access trivial hyields)⟩
      · rw [State.task_withTask_of_ne _ hne] at hother
        exact hstate.tasks other number rest hother
  | @uncaught thread _ _ session fault htask =>
      obtain ⟨requestString, hbefore⟩ := hstate.tasks thread session _ htask
      obtain ⟨location, factory, httpRequest, outcome, hfactory, hyields, heq⟩ :=
        yields_processProgram hroute (hbefore _ (.done _))
      rcases outcome with other | answer
      · cases heq
        exact hstate.finish (.handler htask hfactory hyields)
      · cases heq
  | @respond thread _ _ session connection answer htask hlive =>
      obtain ⟨requestString, hbefore⟩ := hstate.tasks thread session _ htask
      obtain ⟨location, factory, httpRequest, outcome, hfactory, hyields, heq⟩ :=
        yields_processProgram hroute (hbefore _ (.done _))
      have hroutes : answer.2 = routes := by
        rcases outcome with other | reply <;> cases heq
        rfl
      refine ⟨tables_update htables _ ?_, ?_, cause_of_running hended⟩
      · rintro _ ⟨⟩
        exact hroutes
      · intro other number rest hother
        rcases eq_or_ne other thread with rfl | hne
        · rw [State.task_withTask] at hother
          cases hother
        · rw [State.task_withTask_of_ne _ hne] at hother
          exact hstate.tasks other number rest hother

end Steps

section Runs

variable {ι σ : Type} [DecidableEq ι] [Fintype ι] {parseRequest : Str → Option Request}
  {program : RequestHandlerFactory → Request → Response → Resumption σ Fault (Bool × Response)}
  {surroundings : Surroundings} {argv : List Str} {port : Nat}
  {routes : FactoryRoutes RequestHandlerFactory}

/-- A server that `main` has started has on each session the table that it started with,
where every request text finds a factory, and the process ends only because a peer was
gone, an array held no NUL, or a handler of the table threw. -/
theorem cause_of_main (hmain : surroundings.main argv = .listens port routes)
    {memory : Buffer} {store : σ} {events : List (Event ι)}
    {final : State ι RequestHandlerFactory σ}
    (hrun : (system parseRequest program routes).run (initial routes memory store) events =
      some final) :
    (∀ session connection, final.heap session = some connection →
      connection.factoryRoutes = routes) ∧
      (∀ requestString, ∃ factory, routes.find?
        (matchedLocationPath parseRequest routes requestString) = some (some factory)) ∧
      ∀ ending, final.ended = some ending → Cause program routes final ending := by
  obtain ⟨text, config, filesystemMap, -, -, hextract, rfl⟩ :=
    Surroundings.exists_of_main_eq_listens hmain
  have hnormalised : filesystemMap.Normalised :=
    NginxConfig.normalised_extractFilesystemMap FilesystemMap.normalised_empty hextract
  have hroute := exists_find?_matchedLocationPath hnormalised parseRequest
  have hstep : ∀ {state next : State ι RequestHandlerFactory σ} {event : Event ι},
      InCustody state ∧ Routed parseRequest program (createFactoryMap filesystemMap) state →
      (system parseRequest program (createFactoryMap filesystemMap)).step state event =
        some next →
      InCustody next ∧ Routed parseRequest program (createFactoryMap filesystemMap) next := by
    intro state next event hstate hnext
    have hmove := move_of_step hnext
    exact ⟨hstate.1.step hmove,
      hstate.2.step hroute hstate.1 (ended_of_step hnext) hmove⟩
  have hfinal := (Interleaving.invariant_of_run _ (fun hstate hnext => hstep hstate hnext) events
    ⟨inCustody_initial (createFactoryMap filesystemMap) memory store,
      routed_initial memory store⟩ hrun).2
  exact ⟨hfinal.tables, hroute, hfinal.cause⟩

end Runs

namespace LaunchedRunsWitness

open SegmentationWitness ServerRunsWitness

def text : Str := "listen 80;".toList

def config : NginxConfig := [.mk ["listen".toList, "80".toList] none]

theorem parse_text : parse [] text = .ok (true, config) := by
  have htokens : parseTokens text = ["listen".toList, "80".toList].map word ++
      [⟨.statementEnd, ";".toList⟩, ⟨.eof, []⟩] := by
    decide +kernel
  rw [parse, htokens]
  rfl

def surroundings : Surroundings where
  isRelative := ConsumerSafetyWitness.isRelative
  text _ := some text
  binds port := port = 80

theorem main_listen :
    surroundings.main ["server".toList, "config".toList] = .listens 80 routes := by
  have hparse : parseFile surroundings.isRelative text = .ok (true, config) := by
    rw [parseFile, parse_text]
    rfl
  have hlaunch : surroundings.launch config = .listens 80 routes := rfl
  have htext : surroundings.text "config".toList = some text := rfl
  simp only [Surroundings.main, htext, hparse, hlaunch]

theorem cause_events :
    (∀ session connection, (outcome.get isSome_outcome).heap session = some connection →
      connection.factoryRoutes = routes) ∧
      (∀ requestString, ∃ factory, routes.find?
        (matchedLocationPath parseGet routes requestString) = some (some factory)) ∧
      ∀ ending, (outcome.get isSome_outcome).ended = some ending →
        Cause program routes (outcome.get isSome_outcome) ending :=
  cause_of_main main_listen run_events

end LaunchedRunsWitness

end Server

end SwanServer
