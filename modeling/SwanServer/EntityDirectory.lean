/-
Requests that run at the same time on one entity directory.  Each file-system
call and each mutex operation is one step, so that any other request may step
between two of them.
-/
import SwanServer.FileSystem
import SwanServer.Interleaving

namespace SwanServer

open Overlay

namespace EntityDirectory

/-- The file-system call that a thread is in: `gen_id_and_write_file`,
`write_file` or, after `is_regular_file`, `remove`. -/
inductive Call where
  | post (body : Str)
  | put (name body : Str)
  | delete (name : Str)
deriving DecidableEq

/-- What a call ends with: the file it wrote, its removal, or a failure. -/
inductive Answer where
  | ok (name : Str)
  | deleted
  | error
deriving DecidableEq

/-- The next step of a thread.  A `file` is the inode behind its `FILE*`, whose
offset is private and 0 until the body is flushed. -/
inductive Stage where
  | begin
  | mkdir
  | acquire
  | scan
  | fopen (name : Str)
  | opened (name : Str) (file : Nat)
  | failed
  | writing (name : Str) (file : Nat)
  | closing (name : Str)
  | returning (answer : Answer)
  | unlink
  | testEmpty (success : Bool)
  | removeAll (success : Bool)
  | answered (answer : Answer)
  | threw (fault : Fault)
deriving DecidableEq

/-- The file that a thread has opened and not answered for yet. -/
def Stage.pending : Stage → Option Str
  | .opened name _ | .writing name _ | .closing name | .returning (.ok name) =>
      some name
  | _ => none

/-- The file that a thread has created, from `fopen` to its answer. -/
def Stage.created : Stage → Option Str
  | .answered (.ok name) => some name
  | stage => stage.pending

theorem Stage.created_of_pending {stage : Stage} {name : Str}
    (hname : stage.pending = some name) : stage.created = some name := by
  cases stage <;> first | exact hname | contradiction

/-- What the threads share: the names in the directory with their inodes
(`none` while there is no directory), the contents of the inodes, the next
unused inode, and the holder of `file_creation_mutex_`. -/
structure Shared (ι : Type) where
  dir : Option (List (Str × Nat))
  data : Nat → Str
  fresh : Nat
  mutex : Option ι

variable {ι : Type}

namespace Shared

/-- The entries of the directory, if there is one. -/
def entries (shared : Shared ι) : List (Str × Nat) := shared.dir.getD []

/-- The file names in the directory. -/
def names (shared : Shared ι) : List Str := shared.entries.map Prod.fst

/-- `create_directory`; an existing directory stays. -/
def mkdir (shared : Shared ι) : Shared ι := { shared with dir := some shared.entries }

/-- Whoever holds the mutex, `unlock` releases it. -/
def unlock (shared : Shared ι) : Shared ι := { shared with mutex := none }

def lock (shared : Shared ι) (thread : ι) : Shared ι :=
  { shared with mutex := some thread }

/-- `fopen(.., "w")` on a file that exists: it is cut to length 0. -/
def truncate (shared : Shared ι) (file : Nat) : Shared ι :=
  { shared with data := Function.update shared.data file [] }

/-- `fopen(.., "w")` on a new name: an empty file under an unused inode. -/
def create (shared : Shared ι) (name : Str) : Shared ι :=
  { shared with
    dir := some ((name, shared.fresh) :: shared.entries)
    data := Function.update shared.data shared.fresh []
    fresh := shared.fresh + 1 }

/-- The flush of a body at offset 0 of an open file. -/
def write (shared : Shared ι) (file : Nat) (body : Str) : Shared ι :=
  { shared with
    data := Function.update shared.data file
      (overlay (cStr body) (shared.data file)) }

/-- `remove` of one file. -/
def unlink (shared : Shared ι) (name : Str) : Shared ι :=
  { shared with dir := shared.dir.map (List.filter (fun entry => entry.1 ≠ name)) }

/-- `remove_all` of the directory, whatever it holds by now. -/
def removeAll (shared : Shared ι) : Shared ι := { shared with dir := none }

section Names

variable (shared : Shared ι)

@[simp] theorem names_mkdir : shared.mkdir.names = shared.names := rfl

@[simp] theorem names_lock (thread : ι) :
    (shared.lock thread).names = shared.names := rfl

@[simp] theorem names_unlock : shared.unlock.names = shared.names := rfl

@[simp] theorem names_truncate (file : Nat) :
    (shared.truncate file).names = shared.names := rfl

@[simp] theorem names_create (name : Str) :
    (shared.create name).names = name :: shared.names := rfl

@[simp] theorem names_removeAll : shared.removeAll.names = [] := rfl

@[simp] theorem names_write (file : Nat) (body : Str) :
    (shared.write file body).names = shared.names := rfl

variable {shared}

@[simp] theorem mem_names_unlink {name other : Str} :
    other ∈ (shared.unlink name).names ↔ other ≠ name ∧ other ∈ shared.names := by
  cases hdir : shared.dir <;> simp [names, entries, unlink, hdir, and_comm]

theorem mem_names_iff {name : Str} :
    name ∈ shared.names ↔ ∃ file, shared.entries.lookup name = some file := by
  rw [← Option.isSome_iff_exists, List.lookup_isSome_iff, names, List.mem_map]
  constructor
  · rintro ⟨entry, hentry, rfl⟩
    exact ⟨entry, hentry, beq_self_eq_true _⟩
  · rintro ⟨entry, hentry, heq⟩
    exact ⟨entry, hentry, (beq_iff_eq.mp heq).symm⟩

end Names

end Shared

/-- The body that a call writes. -/
def Call.body : Call → Str
  | .post body => body
  | .put _ body => body
  | .delete _ => []

/-- The first step under the mutex: POST scans for an id, PUT knows its name. -/
def Call.afterAcquire : Call → Stage
  | .post _ => .scan
  | .put name _ => .fopen name
  | .delete _ => .answered .error

/-- The answer of `remove` after its cleanup. -/
def removeAnswer (success : Bool) : Answer := if success then .deleted else .error

/-- One step of a thread that creates and writes a file: the stages of
`gen_id_and_write_file` and of `write_file`.  `works` is the outcome of
`fopen`.  A thread that throws gives the mutex back while unwinding. -/
def writeStep [DecidableEq ι] (call : Call) (thread : ι) (works : Bool)
    (shared : Shared ι) : Stage → Option (Shared ι × Stage)
  | .begin =>
      some (shared, if shared.dir.isSome then .acquire else .mkdir)
  | .mkdir => some (shared.mkdir, .acquire)
  | .acquire =>
      if shared.mutex = none then some (shared.lock thread, call.afterAcquire)
      else none
  | .scan =>
      if shared.dir = none then some (shared.unlock, .threw .filesystemError)
      else
        match uniqueFileName shared.names with
        | .ok id => some (shared, .fopen (toStringInt id))
        | .error fault => some (shared.unlock, .threw fault)
  | .fopen name =>
      if works = false ∨ shared.dir = none then some (shared, .failed)
      else
        match shared.entries.lookup name with
        | some file => some (shared.truncate file, .opened name file)
        | none => some (shared.create name, .opened name shared.fresh)
  | .opened name file => some (shared.unlock, .writing name file)
  | .failed => some (shared.unlock, .returning .error)
  | .writing name file => some (shared.write file call.body, .closing name)
  | .closing name => some (shared, .returning (.ok name))
  -- the destructor of `unique_lock` unlocks once more
  | .returning answer => some (shared.unlock, .answered answer)
  | _ => none

/-- One step of a thread that handles a DELETE: `is_regular_file`, then the
stages of `RealFileSystem::remove`, which never takes the mutex. -/
def removeStep (name : Str) (shared : Shared ι) : Stage → Option (Shared ι × Stage)
  | .begin =>
      some (shared, if name ∈ shared.names then .unlink else .answered .error)
  | .unlink => some (shared.unlink name, .testEmpty (name ∈ shared.names))
  | .testEmpty success =>
      match shared.dir with
      | none => some (shared, .threw .filesystemError)
      | some [] => some (shared, .removeAll success)
      | some _ => some (shared, .answered (removeAnswer success))
  | .removeAll success => some (shared.removeAll, .answered (removeAnswer success))
  | _ => none

/-- The step of a thread, by the call it is in. -/
def threadStep [DecidableEq ι] (call : Call) (thread : ι) (works : Bool)
    (shared : Shared ι) (stage : Stage) : Option (Shared ι × Stage) :=
  match call with
  | .delete name => removeStep name shared stage
  | _ => writeStep call thread works shared stage

/-- All threads with what they share. -/
structure World (ι : Type) where
  shared : Shared ι
  stage : ι → Stage

/-- Which thread moves, and whether `fopen` works if that is its step. -/
structure Event (ι : Type) where
  thread : ι
  works : Bool

/-- The threads of `calls`, each taking its own steps in any order. -/
def system [DecidableEq ι] (calls : ι → Call) : Interleaving (World ι) (Event ι) where
  step world event :=
    (threadStep (calls event.thread) event.thread event.works world.shared
      (world.stage event.thread)).map fun result =>
        ⟨result.1, Function.update world.stage event.thread result.2⟩

/-- `count` steps of one thread, all of whose calls work. -/
def steps (thread : ι) (count : Nat) : List (Event ι) :=
  List.replicate count ⟨thread, true⟩

/-- No call has begun, and nobody holds the mutex. -/
def World.Initial (world : World ι) : Prop :=
  world.shared.mutex = none ∧ ∀ thread, world.stage thread = .begin

section Moves

variable {call : Call} {thread : ι} {shared shared' : Shared ι} {stage stage' : Stage}

/-- What a step of a writing thread can be. -/
inductive WriteMove (call : Call) (thread : ι) (shared : Shared ι) :
    Stage → Shared ι → Stage → Prop where
  | enter : WriteMove call thread shared .begin shared .acquire
  | enterMissing : WriteMove call thread shared .begin shared .mkdir
  | mkdir : WriteMove call thread shared .mkdir shared.mkdir .acquire
  | acquire (free : shared.mutex = none) :
      WriteMove call thread shared .acquire (shared.lock thread) call.afterAcquire
  | scan (id : Int) (unique : uniqueFileName shared.names = .ok id) :
      WriteMove call thread shared .scan shared (.fopen (toStringInt id))
  | scanThrows (fault : Fault) :
      WriteMove call thread shared .scan shared.unlock (.threw fault)
  | fopenFails (name : Str) :
      WriteMove call thread shared (.fopen name) shared .failed
  | truncate (name : Str) (file : Nat)
      (found : shared.entries.lookup name = some file) :
      WriteMove call thread shared (.fopen name) (shared.truncate file)
        (.opened name file)
  | create (name : Str) (absent : shared.entries.lookup name = none) :
      WriteMove call thread shared (.fopen name) (shared.create name)
        (.opened name shared.fresh)
  | unlock (name : Str) (file : Nat) :
      WriteMove call thread shared (.opened name file) shared.unlock
        (.writing name file)
  | unlockFailed :
      WriteMove call thread shared .failed shared.unlock (.returning .error)
  | write (name : Str) (file : Nat) :
      WriteMove call thread shared (.writing name file)
        (shared.write file call.body) (.closing name)
  | close (name : Str) :
      WriteMove call thread shared (.closing name) shared (.returning (.ok name))
  | destructor (answer : Answer) :
      WriteMove call thread shared (.returning answer) shared.unlock
        (.answered answer)

theorem writeMove_of_writeStep [DecidableEq ι] {works : Bool}
    (hstep : writeStep call thread works shared stage = some (shared', stage')) :
    WriteMove call thread shared stage shared' stage' := by
  cases stage <;> simp only [writeStep, reduceCtorEq] at hstep
  case begin =>
    split at hstep <;> cases hstep
    · exact .enter
    · exact .enterMissing
  case mkdir => cases hstep; exact .mkdir
  case acquire =>
    split at hstep <;> cases hstep
    exact .acquire ‹_›
  case scan =>
    split at hstep
    · cases hstep; exact .scanThrows _
    · split at hstep <;> cases hstep
      · exact .scan _ ‹_›
      · exact .scanThrows _
  case fopen name =>
    split at hstep
    · cases hstep; exact .fopenFails name
    · split at hstep <;> cases hstep
      · exact .truncate name _ ‹_›
      · exact .create name ‹_›
  case opened name file => cases hstep; exact .unlock name file
  case failed => cases hstep; exact .unlockFailed
  case writing name file => cases hstep; exact .write name file
  case closing name => cases hstep; exact .close name
  case returning answer => cases hstep; exact .destructor answer

/-- What a step of a thread in a DELETE of `name` can be. -/
inductive RemoveMove (name : Str) (shared : Shared ι) :
    Stage → Shared ι → Stage → Prop where
  | found (present : name ∈ shared.names) :
      RemoveMove name shared .begin shared .unlink
  | notFound : RemoveMove name shared .begin shared (.answered .error)
  | unlink (success : Bool) :
      RemoveMove name shared .unlink (shared.unlink name) (.testEmpty success)
  | testThrows (success : Bool) (fault : Fault) :
      RemoveMove name shared (.testEmpty success) shared (.threw fault)
  | testEmpty (success : Bool) (empty : shared.dir = some []) :
      RemoveMove name shared (.testEmpty success) shared (.removeAll success)
  | testNonempty (success : Bool) :
      RemoveMove name shared (.testEmpty success) shared
        (.answered (removeAnswer success))
  | removeAll (success : Bool) :
      RemoveMove name shared (.removeAll success) shared.removeAll
        (.answered (removeAnswer success))

theorem removeMove_of_removeStep {name : Str}
    (hstep : removeStep name shared stage = some (shared', stage')) :
    RemoveMove name shared stage shared' stage' := by
  cases stage <;> simp only [removeStep, reduceCtorEq] at hstep
  case begin =>
    split at hstep <;> cases hstep
    · exact .found ‹_›
    · exact .notFound
  case unlink => cases hstep; exact .unlink _
  case testEmpty success =>
    split at hstep <;> cases hstep
    · exact .testThrows success _
    · exact .testEmpty success ‹_›
    · exact .testNonempty success
  case removeAll success => cases hstep; exact .removeAll success

/-- A write move takes no name away, and a name that it adds is the one that it
opens. -/
theorem WriteMove.names
    (hmove : WriteMove call thread shared stage shared' stage') :
    shared'.names = shared.names ∨
      ∃ name, stage = .fopen name ∧ shared'.names = name :: shared.names := by
  cases hmove <;> simp

theorem WriteMove.mem_names
    (hmove : WriteMove call thread shared stage shared' stage') {name : Str}
    (hname : name ∈ shared.names) : name ∈ shared'.names := by
  rcases hmove.names with hkeep | ⟨opened, -, hcons⟩
  · rwa [hkeep]
  · rw [hcons]
    exact List.mem_cons_of_mem opened hname

/-- A pending file was pending before, or the step opened it. -/
theorem WriteMove.pending
    (hmove : WriteMove call thread shared stage shared' stage') {name : Str}
    (hname : stage'.pending = some name) :
    stage.pending = some name ∨ (stage = .fopen name ∧ name ∈ shared'.names) := by
  cases hmove with
  | acquire free => cases call <;> contradiction
  | truncate opened file found =>
      cases hname
      exact Or.inr ⟨rfl, Shared.mem_names_iff.mpr ⟨file, found⟩⟩
  | create opened absent =>
      cases hname
      exact Or.inr ⟨rfl, List.mem_cons_self⟩
  | destructor answer => contradiction
  | _ => exact Or.inl hname

/-- A thread has created the file that it answers with before. -/
theorem WriteMove.created (hmove : WriteMove call thread shared stage shared' stage')
    {name : Str} (hname : stage'.created = some name) :
    stage.created = some name ∨ (stage = .fopen name ∧ name ∈ shared'.names) := by
  have hpending : stage'.pending = some name →
      stage.created = some name ∨ (stage = .fopen name ∧ name ∈ shared'.names) :=
    fun h => (hmove.pending h).imp_left Stage.created_of_pending
  cases hmove with
  | acquire free => cases call <;> contradiction
  | destructor answer => cases answer <;> exact Or.inl hname
  | _ => exact hpending hname

end Moves

section Steps

variable [DecidableEq ι] {calls : ι → Call} {world next : World ι} {event : Event ι}

/-- A step of the system is a step of the thread that moves; the others stay
where they are. -/
theorem threadStep_of_step (hstep : (system calls).step world event = some next) :
    threadStep (calls event.thread) event.thread event.works world.shared
        (world.stage event.thread) = some (next.shared, next.stage event.thread) ∧
      ∀ thread, thread ≠ event.thread → next.stage thread = world.stage thread := by
  simp only [system, Option.map_eq_some_iff, Prod.exists] at hstep
  obtain ⟨shared, stage, hthread, rfl⟩ := hstep
  refine ⟨by simpa using hthread, ?_⟩
  intro thread hne
  exact Function.update_of_ne hne stage world.stage

/-- A thread moves by the rules of its call. -/
theorem move_of_step (hstep : (system calls).step world event = some next) :
    (WriteMove (calls event.thread) event.thread world.shared
        (world.stage event.thread) next.shared (next.stage event.thread) ∨
      ∃ name, calls event.thread = .delete name ∧
        RemoveMove name world.shared (world.stage event.thread) next.shared
          (next.stage event.thread)) ∧
      ∀ thread, thread ≠ event.thread → next.stage thread = world.stage thread := by
  obtain ⟨hthread, hother⟩ := threadStep_of_step hstep
  refine ⟨?_, hother⟩
  cases hcall : calls event.thread with
  | post body =>
      rw [hcall] at hthread
      exact Or.inl (writeMove_of_writeStep hthread)
  | put name body =>
      rw [hcall] at hthread
      exact Or.inl (writeMove_of_writeStep hthread)
  | delete name =>
      rw [hcall] at hthread
      exact Or.inr ⟨name, rfl, removeMove_of_removeStep hthread⟩

/-- Where no call is a DELETE every step is a write move. -/
theorem writeMove_of_step (hcalls : ∀ thread name, calls thread ≠ .delete name)
    (hstep : (system calls).step world event = some next) :
    WriteMove (calls event.thread) event.thread world.shared
        (world.stage event.thread) next.shared (next.stage event.thread) ∧
      ∀ thread, thread ≠ event.thread → next.stage thread = world.stage thread := by
  obtain ⟨hmove | ⟨name, hcall, -⟩, hother⟩ := move_of_step hstep
  · exact ⟨hmove, hother⟩
  · exact absurd hcall (hcalls event.thread name)

end Steps

end EntityDirectory

end SwanServer
