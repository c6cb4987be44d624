/-
The server at work: threads that run the handlers of completed operations, and
sessions that start the next operation from their handlers.  Every call of a
handler that others can notice is a step, so that any other thread may step
between two of them.
-/
import SwanServer.Interleaving
import SwanServer.Resumption
import SwanServer.Session

namespace SwanServer

/-- `RequestHandlerDelegate::processRequest` as a program: a handler takes its
steps on the store one by one. -/
def processProgram {φ σ : Type} (parseRequest : Str → Option Request)
    (program : φ → Request → Response → Resumption σ Fault (Bool × Response))
    (factoryRoutes : FactoryRoutes φ) (requestString : Str) (httpResponse : Response) :
    Resumption σ Fault (Response × FactoryRoutes φ) :=
  let matched := matchedLocationPath parseRequest factoryRoutes requestString
  let (factory, factoryRoutes) := factoryRoutes.getOrInsert matched none
  match factory with
  | none => .done (.error .undefinedBehaviour)
  | some factory =>
      (program factory (parsedRequest parseRequest requestString) httpResponse).map
        fun answer => (answer.2, factoryRoutes)

theorem processProgram_of_find? {φ σ : Type} {parseRequest : Str → Option Request}
    (program : φ → Request → Response → Resumption σ Fault (Bool × Response))
    {factoryRoutes : FactoryRoutes φ} {requestString : Str} {factory : φ}
    (hfactory : factoryRoutes.find?
      (matchedLocationPath parseRequest factoryRoutes requestString) = some (some factory))
    (httpResponse : Response) :
    processProgram parseRequest program factoryRoutes requestString httpResponse =
      (program factory (parsedRequest parseRequest requestString) httpResponse).map
        fun answer => (answer.2, factoryRoutes) := by
  rw [processProgram, OrderedMap.getOrInsert_of_find? hfactory none]

/-- Undisturbed programs that do what the handlers do make `processRequest`. -/
theorem exec_processProgram {φ σ : Type} {parseRequest : Str → Option Request}
    {program : φ → Request → Response → Resumption σ Fault (Bool × Response)}
    {create : φ → HandleRequest σ} {store : σ}
    (hprogram : ∀ factory httpRequest httpResponse,
      (program factory httpRequest httpResponse).exec store =
        (create factory httpRequest httpResponse).exec store)
    (factoryRoutes : FactoryRoutes φ) (requestString : Str) (httpResponse : Response) :
    (processProgram parseRequest program factoryRoutes requestString httpResponse).exec store =
      (processRequest parseRequest create factoryRoutes requestString httpResponse).exec
        store := by
  rw [processProgram, processRequest]
  cases factoryRoutes.getOrInsert (matchedLocationPath parseRequest factoryRoutes
    requestString) none with
  | mk factory later =>
      cases factory with
      | none => rfl
      | some factory =>
          simp only [Resumption.exec_map, hprogram, Act.exec_bind]
          rcases (create factory (parsedRequest parseRequest requestString)
            httpResponse).exec store with ⟨fault | answer, after⟩ <;> rfl

theorem keeps_processProgram {φ σ : Type} {parseRequest : Str → Option Request}
    {program : φ → Request → Response → Resumption σ Fault (Bool × Response)} {P : σ → Prop}
    (hprogram : ∀ factory httpRequest httpResponse,
      (program factory httpRequest httpResponse).Keeps P)
    (factoryRoutes : FactoryRoutes φ) (requestString : Str) (httpResponse : Response) :
    (processProgram parseRequest program factoryRoutes requestString httpResponse).Keeps P := by
  rw [processProgram]
  cases factoryRoutes.getOrInsert (matchedLocationPath parseRequest factoryRoutes
    requestString) none with
  | mk factory later =>
      cases factory with
      | none => exact .done _
      | some factory => exact (hprogram factory _ _).map _

namespace Server

/-- The asynchronous operations that sessions and the acceptor start. -/
inductive AsyncOperation where
  | accept
  | read
  | write
deriving DecidableEq

/-- An operation in flight, and the session whose members it works on. -/
structure Pending where
  operation : AsyncOperation
  session : Nat
deriving DecidableEq

/-- The members of a `Session` that change. -/
structure Connection (φ : Type) where
  data : Buffer
  httpResponse : Response
  factoryRoutes : FactoryRoutes φ

/-- What a thread of the pool does next: it waits in `io_service::run`, or it is in
the handler of an operation that has completed. -/
inductive Task (φ σ : Type) where
  | idle
  | handleAccept (session : Nat) (error : Bool)
  | startAccept
  | asyncAccept (session : Nat)
  | handleRead (session : Nat) (error : Bool)
  | processRequest (session : Nat) (rest : Resumption σ Fault (Response × FactoryRoutes φ))
  | asyncWrite (session : Nat)
  | handleWrite (session : Nat) (error : Bool)

/-- How the process ends: an exception leaves a thread, `remote_endpoint` throws one
because the peer is gone, or a session is used that was deleted.  Undefined behaviour ends
it too: the model has nothing to say about what comes after. -/
inductive Ending where
  | uncaught (fault : Fault)
  | notConnected
  | dangling
deriving DecidableEq

/-- The process: its sessions by the order of their construction (`none` for those that
are not there yet or no more), the operations in flight, the threads, and what the
handlers share; and what each peer has delivered and has got so far. -/
structure State (ι φ σ : Type) where
  heap : Nat → Option (Connection φ)
  fresh : Nat
  pending : List Pending
  task : ι → Task φ σ
  store : σ
  memory : Nat → Buffer
  received : Nat → List Chunk
  sent : Nat → List Response
  ended : Option Ending

/-- What happens: an idle thread takes up an operation that has completed, or a busy
thread goes on.  The environment says whether the operation failed, what was read,
whether the peer is still there, and what a new array holds. -/
inductive Event (ι : Type) where
  | accepted (thread : ι) (session : Nat) (error : Bool)
  | received (thread : ι) (session : Nat) (result : Option Chunk)
  | sent (thread : ι) (session : Nat) (error : Bool)
  | goesOn (thread : ι) (connected : Bool) (memory : Buffer)

namespace State

variable {ι φ σ : Type} [DecidableEq ι] (state : State ι φ σ)

def withTask (thread : ι) (task : Task φ σ) : State ι φ σ :=
  { state with task := Function.update state.task thread task }

theorem task_withTask (thread : ι) (task : Task φ σ) :
    (state.withTask thread task).task thread = task := by
  simp [withTask]

theorem task_withTask_of_ne {thread other : ι} (hne : other ≠ thread) (task : Task φ σ) :
    (state.withTask thread task).task other = state.task other := by
  simp [withTask, hne]

/-- Start an asynchronous operation. -/
def start (operation : AsyncOperation) (session : Nat) : State ι φ σ :=
  { state with pending := ⟨operation, session⟩ :: state.pending }

/-- An operation has completed. -/
def complete (operation : AsyncOperation) (session : Nat) : State ι φ σ :=
  { state with pending := state.pending.erase ⟨operation, session⟩ }

def put (session : Nat) (connection : Connection φ) : State ι φ σ :=
  { state with heap := Function.update state.heap session (some connection) }

/-- `delete this`. -/
def delete (session : Nat) : State ι φ σ :=
  { state with heap := Function.update state.heap session none }

/-- `new Session(io_service_, routes)`. -/
def construct (connection : Connection φ) : State ι φ σ :=
  { state with
    heap := Function.update state.heap state.fresh (some connection)
    fresh := state.fresh + 1
    memory := Function.update state.memory state.fresh connection.data }

def finish (ending : Ending) : State ι φ σ := { state with ended := some ending }

/-- Work on a session through a pointer to it. -/
def use (session : Nat) (act : Connection φ → State ι φ σ) : State ι φ σ :=
  match state.heap session with
  | none => state.finish .dangling
  | some connection => act connection

/-- The peer has delivered a chunk into `data_`. -/
def deliver (session : Nat) (connection : Connection φ) (chunk : Chunk) : State ι φ σ :=
  { state.put session { connection with data := connection.data.asyncReadSome chunk } with
    received := Function.update state.received session (state.received session ++ [chunk]) }

/-- The peer has got `httpResponse_`. -/
def transmit (session : Nat) (connection : Connection φ) : State ι φ σ :=
  { state with
    sent := Function.update state.sent session
      (state.sent session ++ [connection.httpResponse]) }

end State

section System

variable {ι φ σ : Type} [DecidableEq ι] (parseRequest : Str → Option Request)
  (program : φ → Request → Response → Resumption σ Fault (Bool × Response))
  (routes : FactoryRoutes φ)

/-- The next step of a thread that is in a handler. -/
def goOn (thread : ι) (connected : Bool) (memory : Buffer) (state : State ι φ σ) :
    Option (State ι φ σ) :=
  match state.task thread with
  | .idle => none
  -- `Server::handle_accept`
  | .handleAccept session error => some <| state.use session fun _ =>
      if error then (state.delete session).withTask thread .startAccept
      else (state.start .read session).withTask thread .startAccept
  | .startAccept =>
      some ((state.construct ⟨memory, .empty, routes⟩).withTask thread (.asyncAccept state.fresh))
  | .asyncAccept session => some <| state.use session fun _ =>
      (state.start .accept session).withTask thread .idle
  -- `Session::handle_read`
  | .handleRead session error => some <| state.use session fun connection =>
      if error then (state.delete session).withTask thread .idle
      else if connected = false then state.finish .notConnected
      else
        match connection.data.requestString with
        -- the code reads on behind the array, and nobody can say what it does
        | none => state.finish (.uncaught .undefinedBehaviour)
        | some requestString =>
            (state.put session { connection with httpResponse := .empty }).withTask thread
              (.processRequest session
                (processProgram parseRequest program connection.factoryRoutes requestString
                  .empty))
  | .processRequest session (.access update next) =>
      some ({ state with store := update state.store }.withTask thread
        (.processRequest session (next state.store)))
  | .processRequest _ (.done (.error fault)) => some (state.finish (.uncaught fault))
  | .processRequest session (.done (.ok answer)) => some <| state.use session fun connection =>
      (state.put session
        { connection with httpResponse := answer.1, factoryRoutes := answer.2 }).withTask
          thread (.asyncWrite session)
  | .asyncWrite session => some <| state.use session fun _ =>
      (state.start .write session).withTask thread .idle
  -- `Session::handle_write`
  | .handleWrite session error => some <| state.use session fun _ =>
      if error then (state.delete session).withTask thread .idle
      else (state.start .read session).withTask thread .idle

/-- An idle thread takes up a completed operation on a session. -/
def takeUp (thread : ι) (operation : AsyncOperation) (session : Nat) (state : State ι φ σ)
    (act : Connection φ → State ι φ σ) : Option (State ι φ σ) :=
  match state.task thread with
  | .idle =>
      if ⟨operation, session⟩ ∈ state.pending then some (state.use session act) else none
  | _ => none

/-- What one event does to the process. -/
def step (state : State ι φ σ) (event : Event ι) : Option (State ι φ σ) :=
  if state.ended.isSome then none
  else
    match event with
    | .accepted thread session error =>
        takeUp thread .accept session state fun _ =>
          (state.complete .accept session).withTask thread (.handleAccept session error)
    | .received thread session (some chunk) =>
        takeUp thread .read session state fun connection =>
          ((state.complete .read session).deliver session connection chunk).withTask thread
            (.handleRead session false)
    | .received thread session none =>
        takeUp thread .read session state fun _ =>
          (state.complete .read session).withTask thread (.handleRead session true)
    | .sent thread session false =>
        takeUp thread .write session state fun connection =>
          ((state.complete .write session).transmit session connection).withTask thread
            (.handleWrite session false)
    | .sent thread session true =>
        takeUp thread .write session state fun _ =>
          (state.complete .write session).withTask thread (.handleWrite session true)
    | .goesOn thread connected memory =>
        goOn parseRequest program routes thread connected memory state

/-- The process with the threads `ι`. -/
def system : Interleaving (State ι φ σ) (Event ι) := ⟨step parseRequest program routes⟩

/-- The process when `Server::run` starts its threads: the constructor has made a
first session and accepts for it. -/
def initial (memory : Buffer) (store : σ) : State ι φ σ where
  heap := Function.update (fun _ => none) 0 (some ⟨memory, .empty, routes⟩)
  fresh := 1
  pending := [⟨.accept, 0⟩]
  task _ := .idle
  store := store
  memory _ := memory
  received _ := []
  sent _ := []
  ended := none

end System

namespace Task

variable {φ σ : Type}

/-- The session that the rest of a handler works on. -/
def session : Task φ σ → Option Nat
  | .handleAccept session _ | .asyncAccept session | .handleRead session _
  | .processRequest session _ | .asyncWrite session | .handleWrite session _ => some session
  | .idle | .startAccept => none

/-- Whether the thread will accept the next connection. -/
def accepting : Task φ σ → Option Unit
  | .handleAccept _ _ | .startAccept | .asyncAccept _ => some ()
  | _ => none

end Task

section Moves

variable {ι φ σ : Type} [DecidableEq ι] (parseRequest : Str → Option Request)
  (program : φ → Request → Response → Resumption σ Fault (Bool × Response))
  (routes : FactoryRoutes φ)

/-- What a step can be. -/
inductive Move (state : State ι φ σ) : Event ι → State ι φ σ → Prop where
  | accepted {thread : ι} {session : Nat} {connection : Connection φ} (error : Bool)
      (htask : state.task thread = .idle) (hpending : ⟨.accept, session⟩ ∈ state.pending)
      (hlive : state.heap session = some connection) :
      Move state (.accepted thread session error)
        ((state.complete .accept session).withTask thread (.handleAccept session error))
  | received {thread : ι} {session : Nat} {connection : Connection φ} (chunk : Chunk)
      (htask : state.task thread = .idle) (hpending : ⟨.read, session⟩ ∈ state.pending)
      (hlive : state.heap session = some connection) :
      Move state (.received thread session (some chunk))
        (((state.complete .read session).deliver session connection chunk).withTask thread
          (.handleRead session false))
  | readFailed {thread : ι} {session : Nat} {connection : Connection φ}
      (htask : state.task thread = .idle) (hpending : ⟨.read, session⟩ ∈ state.pending)
      (hlive : state.heap session = some connection) :
      Move state (.received thread session none)
        ((state.complete .read session).withTask thread (.handleRead session true))
  | sent {thread : ι} {session : Nat} {connection : Connection φ}
      (htask : state.task thread = .idle) (hpending : ⟨.write, session⟩ ∈ state.pending)
      (hlive : state.heap session = some connection) :
      Move state (.sent thread session false)
        (((state.complete .write session).transmit session connection).withTask thread
          (.handleWrite session false))
  | writeFailed {thread : ι} {session : Nat} {connection : Connection φ}
      (htask : state.task thread = .idle) (hpending : ⟨.write, session⟩ ∈ state.pending)
      (hlive : state.heap session = some connection) :
      Move state (.sent thread session true)
        ((state.complete .write session).withTask thread (.handleWrite session true))
  | dropAccepted {thread : ι} {connected : Bool} {memory : Buffer} {session : Nat}
      {connection : Connection φ}
      (htask : state.task thread = .handleAccept session true)
      (hlive : state.heap session = some connection) :
      Move state (.goesOn thread connected memory)
        ((state.delete session).withTask thread .startAccept)
  | startSession {thread : ι} {connected : Bool} {memory : Buffer} {session : Nat}
      {connection : Connection φ}
      (htask : state.task thread = .handleAccept session false)
      (hlive : state.heap session = some connection) :
      Move state (.goesOn thread connected memory)
        ((state.start .read session).withTask thread .startAccept)
  | construct {thread : ι} {connected : Bool} (memory : Buffer)
      (htask : state.task thread = .startAccept) :
      Move state (.goesOn thread connected memory)
        ((state.construct ⟨memory, .empty, routes⟩).withTask thread
        (.asyncAccept state.fresh))
  | asyncAccept {thread : ι} {connected : Bool} {memory : Buffer} {session : Nat}
      {connection : Connection φ}
      (htask : state.task thread = .asyncAccept session)
      (hlive : state.heap session = some connection) :
      Move state (.goesOn thread connected memory)
        ((state.start .accept session).withTask thread .idle)
  | deleteReader {thread : ι} {connected : Bool} {memory : Buffer} {session : Nat}
      {connection : Connection φ}
      (htask : state.task thread = .handleRead session true)
      (hlive : state.heap session = some connection) :
      Move state (.goesOn thread connected memory)
        ((state.delete session).withTask thread .idle)
  | notConnected {thread : ι} {memory : Buffer} {session : Nat}
      (htask : state.task thread = .handleRead session false) :
      Move state (.goesOn thread false memory)
        (state.finish .notConnected)
  | unterminated {thread : ι} {memory : Buffer} {session : Nat} {connection : Connection φ}
      (htask : state.task thread = .handleRead session false)
      (hlive : state.heap session = some connection)
      (hstring : connection.data.requestString = none) :
      Move state (.goesOn thread true memory)
        (state.finish (.uncaught .undefinedBehaviour))
  | process {thread : ι} {memory : Buffer} {session : Nat}
      {connection : Connection φ} {requestString : Str}
      (htask : state.task thread = .handleRead session false)
      (hlive : state.heap session = some connection)
      (hstring : connection.data.requestString = some requestString) :
      Move state (.goesOn thread true memory)
        ((state.put session { connection with httpResponse := .empty }).withTask thread
        (.processRequest session (processProgram parseRequest program
          connection.factoryRoutes requestString .empty)))
  | access {thread : ι} {connected : Bool} {memory : Buffer} {session : Nat} {update : σ → σ}
      {next : σ → Resumption σ Fault (Response × FactoryRoutes φ)}
      (htask : state.task thread = .processRequest session (.access update next)) :
      Move state (.goesOn thread connected memory)
        ({ state with store := update state.store }.withTask thread
        (.processRequest session (next state.store)))
  | uncaught {thread : ι} {connected : Bool} {memory : Buffer} {session : Nat} {fault : Fault}
      (htask : state.task thread = .processRequest session (.done (.error fault))) :
      Move state (.goesOn thread connected memory)
        (state.finish (.uncaught fault))
  | respond {thread : ι} {connected : Bool} {memory : Buffer} {session : Nat}
      {connection : Connection φ}
      {answer : Response × FactoryRoutes φ}
      (htask : state.task thread = .processRequest session (.done (.ok answer)))
      (hlive : state.heap session = some connection) :
      Move state (.goesOn thread connected memory)
        ((state.put session
        { connection with httpResponse := answer.1, factoryRoutes := answer.2 }).withTask
          thread (.asyncWrite session))
  | asyncWrite {thread : ι} {connected : Bool} {memory : Buffer} {session : Nat}
      {connection : Connection φ}
      (htask : state.task thread = .asyncWrite session)
      (hlive : state.heap session = some connection) :
      Move state (.goesOn thread connected memory)
        ((state.start .write session).withTask thread .idle)
  | deleteWriter {thread : ι} {connected : Bool} {memory : Buffer} {session : Nat}
      {connection : Connection φ}
      (htask : state.task thread = .handleWrite session true)
      (hlive : state.heap session = some connection) :
      Move state (.goesOn thread connected memory)
        ((state.delete session).withTask thread .idle)
  | readAgain {thread : ι} {connected : Bool} {memory : Buffer} {session : Nat}
      {connection : Connection φ}
      (htask : state.task thread = .handleWrite session false)
      (hlive : state.heap session = some connection) :
      Move state (.goesOn thread connected memory)
        ((state.start .read session).withTask thread .idle)
  | dangling {event : Event ι} {session : Nat} (hdead : state.heap session = none)
      (hheld : (∃ thread, (state.task thread).session = some session) ∨
        ∃ operation, ⟨operation, session⟩ ∈ state.pending) :
      Move state event (state.finish .dangling)

variable {parseRequest program routes} {state next : State ι φ σ} {event : Event ι}

omit [DecidableEq ι] in
/-- Work on a session is work on a live one, or it is the end. -/
theorem State.use_cases {P : State ι φ σ → Prop} {session : Nat}
    {act : Connection φ → State ι φ σ}
    (hlive : ∀ connection, state.heap session = some connection → P (act connection))
    (hdead : state.heap session = none → P (state.finish .dangling)) :
    P (state.use session act) := by
  rw [State.use]
  cases hheap : state.heap session with
  | none => exact hdead hheap
  | some connection => exact hlive connection hheap

theorem move_of_goOn {thread : ι} {connected : Bool} {memory : Buffer}
    (hstep : goOn parseRequest program routes thread connected memory state = some next) :
    Move parseRequest program routes state (.goesOn thread connected memory) next := by
  have hheld : ∀ {session}, (state.task thread).session = some session →
      state.heap session = none → Move parseRequest program routes state
        (.goesOn thread connected memory) (state.finish .dangling) :=
    fun hsession hdead => .dangling hdead (.inl ⟨thread, hsession⟩)
  cases htask : state.task thread with
  | idle => simp [goOn, htask] at hstep
  | handleAccept session error =>
      simp only [goOn, htask, Option.some.injEq] at hstep
      rw [← hstep]
      refine State.use_cases (fun connection hlive => ?_) (hheld (by rw [htask]; rfl))
      cases error with
      | false => exact .startSession htask hlive
      | true => exact .dropAccepted htask hlive
  | startAccept =>
      simp only [goOn, htask, Option.some.injEq] at hstep
      rw [← hstep]
      exact .construct memory htask
  | asyncAccept session =>
      simp only [goOn, htask, Option.some.injEq] at hstep
      rw [← hstep]
      exact State.use_cases (fun connection hlive => .asyncAccept htask hlive)
        (hheld (by rw [htask]; rfl))
  | handleRead session error =>
      simp only [goOn, htask, Option.some.injEq] at hstep
      rw [← hstep]
      refine State.use_cases (fun connection hlive => ?_) (hheld (by rw [htask]; rfl))
      cases error with
      | true => exact .deleteReader htask hlive
      | false =>
          cases connected with
          | false => exact .notConnected htask
          | true =>
              cases hstring : connection.data.requestString with
              | none => simpa [hstring] using .unterminated htask hlive hstring
              | some requestString => simpa [hstring] using .process htask hlive hstring
  | processRequest session rest =>
      cases rest with
      | access update later =>
          simp only [goOn, htask, Option.some.injEq] at hstep
          rw [← hstep]
          exact .access htask
      | done result =>
          cases result with
          | error fault =>
              simp only [goOn, htask, Option.some.injEq] at hstep
              rw [← hstep]
              exact .uncaught htask
          | ok answer =>
              simp only [goOn, htask, Option.some.injEq] at hstep
              rw [← hstep]
              exact State.use_cases (fun connection hlive => .respond htask hlive)
                (hheld (by rw [htask]; rfl))
  | asyncWrite session =>
      simp only [goOn, htask, Option.some.injEq] at hstep
      rw [← hstep]
      exact State.use_cases (fun connection hlive => .asyncWrite htask hlive)
        (hheld (by rw [htask]; rfl))
  | handleWrite session error =>
      simp only [goOn, htask, Option.some.injEq] at hstep
      rw [← hstep]
      refine State.use_cases (fun connection hlive => ?_) (hheld (by rw [htask]; rfl))
      cases error with
      | false => exact .readAgain htask hlive
      | true => exact .deleteWriter htask hlive

/-- A completed operation is taken up from those in flight by an idle thread. -/
theorem move_of_takeUp {thread : ι} {operation : AsyncOperation} {session : Nat}
    {act : Connection φ → State ι φ σ}
    (hact : ∀ connection, state.task thread = .idle → ⟨operation, session⟩ ∈ state.pending →
      state.heap session = some connection →
        Move parseRequest program routes state event (act connection))
    (hstep : takeUp thread operation session state act = some next) :
    Move parseRequest program routes state event next := by
  rw [takeUp] at hstep
  split at hstep
  · next htask =>
      split at hstep
      · next hpending =>
          rw [← Option.some.inj hstep]
          exact State.use_cases (fun connection hlive => hact connection htask hpending hlive)
            fun hdead => .dangling hdead (.inr ⟨operation, hpending⟩)
      · contradiction
  · contradiction

theorem move_of_step (hstep : step parseRequest program routes state event = some next) :
    Move parseRequest program routes state event next := by
  unfold step at hstep
  split at hstep
  · contradiction
  · split at hstep
    · exact move_of_takeUp (fun _ htask hpending hlive => .accepted _ htask hpending hlive) hstep
    · exact move_of_takeUp (fun _ htask hpending hlive => .received _ htask hpending hlive) hstep
    · exact move_of_takeUp (fun _ htask hpending hlive => .readFailed htask hpending hlive) hstep
    · exact move_of_takeUp (fun _ htask hpending hlive => .sent htask hpending hlive) hstep
    · exact move_of_takeUp (fun _ htask hpending hlive => .writeFailed htask hpending hlive) hstep
    · exact move_of_goOn hstep

end Moves

end Server

end SwanServer
