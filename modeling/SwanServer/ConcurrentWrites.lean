/-
Concurrent PUTs on one path.  `write_file` truncates the file under the mutex
and flushes its body after the mutex is released, and `flockfile` locks only its
own `FILE`; so a body can be flushed over a longer one.
-/
import SwanServer.EntityDirectory

namespace SwanServer

open Overlay

namespace EntityDirectory

variable {ι : Type}

/-- The inode that a thread has opened and not flushed to yet. -/
def Stage.handle : Stage → Option Nat
  | .opened _ file | .writing _ file => some file
  | _ => none

/-- The inode that a thread is about to flush to. -/
def Stage.flushing : Stage → Option Nat
  | .writing _ file => some file
  | _ => none

theorem Stage.handle_of_flushing {stage : Stage} {file : Nat}
    (hflush : stage.flushing = some file) : stage.handle = some file := by
  cases stage <;> first | exact hflush | contradiction

theorem Stage.created_of_handle {stage : Stage} {file : Nat}
    (hhandle : stage.handle = some file) : stage.created ≠ none := by
  cases stage <;> first | contradiction | exact Option.some_ne_none _

/-- A thread opens no file but `name`, and it never scans for an id. -/
def Stage.OpensOnly (name : Str) : Stage → Prop
  | .scan => False
  | .fopen other => other = name
  | _ => True

/-- The content of a file of the directory. -/
def Shared.content (shared : Shared ι) (name : Str) : Option Str :=
  (shared.entries.lookup name).map shared.data

section Content

variable {shared : Shared ι} {name : Str} {file : Nat}

theorem Shared.content_eq_some (hfile : shared.entries.lookup name = some file) :
    shared.content name = some (shared.data file) := by
  rw [content, hfile, Option.map_some]

theorem Shared.content_truncate (hfile : shared.entries.lookup name = some file) :
    (shared.truncate file).content name = some [] := by
  have hfile' : (shared.truncate file).entries.lookup name = some file := hfile
  rw [content_eq_some hfile']
  simp [truncate]

theorem Shared.lookup_create :
    (shared.create name).entries.lookup name = some shared.fresh :=
  List.lookup_cons_self

theorem Shared.content_create : (shared.create name).content name = some [] := by
  rw [content_eq_some lookup_create]
  simp [create]

theorem Shared.content_write (hfile : shared.entries.lookup name = some file)
    (body : Str) :
    (shared.write file body).content name =
      some (overlay (cStr body) (shared.data file)) := by
  have hfile' : (shared.write file body).entries.lookup name = some file := hfile
  rw [content_eq_some hfile']
  simp [write]

end Content

section Moves

variable {thread : ι} {shared shared' : Shared ι} {stage stage' : Stage}
  {name body : Str}

/-- A step of a PUT leaves the files alone, empties the file that it opens, or
flushes its body. -/
theorem WriteMove.put_cases
    (hmove : WriteMove (.put name body) thread shared stage shared' stage')
    (hopens : stage.OpensOnly name) :
    (shared'.entries = shared.entries ∧ shared'.data = shared.data ∧
        stage'.handle = stage.handle ∧
        (stage.created = none → stage'.created = none)) ∨
      ((shared.entries.lookup name = none ∨
          shared'.entries.lookup name = shared.entries.lookup name) ∧
        shared'.content name = some [] ∧
        ∃ file, stage'.handle = some file ∧
          shared'.entries.lookup name = some file) ∨
      ∃ file, stage.flushing = some file ∧ stage'.handle = none ∧
        shared' = shared.write file body := by
  cases hmove with
  | scan id unique => exact hopens.elim
  | truncate other file found =>
      cases hopens
      exact Or.inr (Or.inl
        ⟨Or.inr rfl, Shared.content_truncate found, file, rfl, found⟩)
  | create other absent =>
      cases hopens
      exact Or.inr (Or.inl
        ⟨Or.inl absent, Shared.content_create, shared.fresh, rfl, Shared.lookup_create⟩)
  | write other file => exact Or.inr (Or.inr ⟨file, rfl, rfl, rfl⟩)
  | destructor answer =>
      refine Or.inl ⟨rfl, rfl, rfl, ?_⟩
      cases answer <;> exact id
  | _ => exact Or.inl ⟨rfl, rfl, rfl, id⟩

theorem WriteMove.put_opensOnly
    (hmove : WriteMove (.put name body) thread shared stage shared' stage')
    (hopens : stage.OpensOnly name) : stage'.OpensOnly name := by
  cases hmove with
  | scan id unique => exact hopens.elim
  | acquire free => rfl
  | _ => trivial

end Moves

section Puts

variable {name : Str} {bodies : ι → Str} {world next final : World ι} {event : Event ι}

/-- What a flush must not meet: a file that is longer than the body and does not
begin with it. -/
def FlushesWhole (bodies : ι → Str) (world : World ι) (event : Event ι) : Prop :=
  ∀ file ∈ (world.stage event.thread).flushing,
    (world.shared.data file).length ≤ (bodies event.thread).length ∨
      bodies event.thread <+: world.shared.data file

instance (bodies : ι → Str) (world : World ι) (event : Event ι) :
    Decidable (FlushesWhole bodies world event) :=
  inferInstanceAs (Decidable (∀ file ∈ _, _ ∨ _))

/-- The file holds the complete body of one of the calls. -/
def HoldsBody (bodies : ι → Str) (name : Str) (world : World ι) : Prop :=
  ∃ thread, world.shared.content name = some (bodies thread)

/-- What concurrent PUTs on `name` preserve: all open files are that file, and
once it has been opened it holds a complete body or waits for one. -/
structure WriteInv (bodies : ι → Str) (name : Str) (world : World ι) : Prop where
  opens : ∀ thread, (world.stage thread).OpensOnly name
  handle : ∀ thread file, (world.stage thread).handle = some file →
    world.shared.entries.lookup name = some file
  content : (∀ thread, (world.stage thread).created = none) ∨
    HoldsBody bodies name world ∨
    (world.shared.content name = some [] ∧
      ∃ thread, (world.stage thread).handle ≠ none)

theorem World.Initial.writeInv (hinitial : world.Initial) :
    WriteInv bodies name world := by
  obtain ⟨-, hbegin⟩ := hinitial
  constructor
  case opens =>
    intro thread
    rw [hbegin thread]
    trivial
  case handle =>
    intro thread file hhandle
    rw [hbegin thread] at hhandle
    contradiction
  case content =>
    refine Or.inl ?_
    intro thread
    rw [hbegin thread]
    rfl

variable [DecidableEq ι]

/-- Threads that all handle a PUT on one path. -/
def puts (name : Str) (bodies : ι → Str) : Interleaving (World ι) (Event ι) :=
  system fun thread => .put name (bodies thread)

theorem puts_step (hstep : (puts name bodies).step world event = some next) :
    WriteMove (.put name (bodies event.thread)) event.thread world.shared
        (world.stage event.thread) next.shared (next.stage event.thread) ∧
      ∀ thread, thread ≠ event.thread → next.stage thread = world.stage thread :=
  writeMove_of_step (by simp) hstep

theorem WriteInv.opens_step (hinv : WriteInv bodies name world)
    (hstep : (puts name bodies).step world event = some next) (thread : ι) :
    (next.stage thread).OpensOnly name := by
  obtain ⟨hmove, hother⟩ := puts_step hstep
  by_cases hthread : thread = event.thread
  · subst hthread
    exact hmove.put_opensOnly (hinv.opens event.thread)
  · rw [hother thread hthread]
    exact hinv.opens thread

theorem WriteInv.handle_step (hinv : WriteInv bodies name world)
    (hstep : (puts name bodies).step world event = some next) (thread : ι) (file : Nat)
    (hhandle : (next.stage thread).handle = some file) :
    next.shared.entries.lookup name = some file := by
  obtain ⟨hmove, hother⟩ := puts_step hstep
  rcases hmove.put_cases (hinv.opens event.thread) with
    ⟨hentries, -, hsame, -⟩ | ⟨hlookup, -, opened, hopened, hfound⟩ |
    ⟨flushed, -, hnone, hwrite⟩
  · rw [hentries]
    by_cases hthread : thread = event.thread
    · subst hthread
      exact hinv.handle event.thread file (hsame ▸ hhandle)
    · rw [hother thread hthread] at hhandle
      exact hinv.handle thread file hhandle
  · by_cases hthread : thread = event.thread
    · subst hthread
      rw [hopened] at hhandle
      rw [hfound, hhandle]
    · rw [hother thread hthread] at hhandle
      have hbefore := hinv.handle thread file hhandle
      rcases hlookup with habsent | hkeep
      · rw [habsent] at hbefore
        contradiction
      · rw [hkeep, hbefore]
  · rw [hwrite]
    by_cases hthread : thread = event.thread
    · subst hthread
      rw [hnone] at hhandle
      contradiction
    · rw [hother thread hthread] at hhandle
      exact hinv.handle thread file hhandle

omit [DecidableEq ι] in
/-- A flush that the guard admits leaves a complete body in the file. -/
theorem WriteInv.holdsBody_of_flush (hinv : WriteInv bodies name world)
    (hnul : ∀ thread, nul ∉ bodies thread) (hguard : FlushesWhole bodies world event)
    {file : Nat} (hflush : (world.stage event.thread).flushing = some file)
    (hwrite : next.shared = world.shared.write file (bodies event.thread)) :
    HoldsBody bodies name next := by
  have hhandle := Stage.handle_of_flushing hflush
  have hfile := hinv.handle event.thread file hhandle
  have hcontent := Shared.content_write hfile (bodies event.thread)
  rw [← hwrite, cStr_eq_self (hnul event.thread)] at hcontent
  rcases hguard file hflush with hlength | hstarts
  · rw [(overlay_eq_self_iff _ _).mpr hlength] at hcontent
    exact ⟨event.thread, hcontent⟩
  · rcases hinv.content with hunopened | ⟨thread, hbody⟩ | ⟨hempty, -⟩
    · exact absurd (hunopened event.thread) (Stage.created_of_handle hhandle)
    · rw [overlay_of_starts hstarts, ← Shared.content_eq_some hfile] at hcontent
      exact ⟨thread, hcontent.trans hbody⟩
    · rw [Shared.content_eq_some hfile, Option.some.injEq] at hempty
      rw [hempty, overlay_nil] at hcontent
      exact ⟨event.thread, hcontent⟩

theorem WriteInv.content_step (hinv : WriteInv bodies name world)
    (hnul : ∀ thread, nul ∉ bodies thread) (hguard : FlushesWhole bodies world event)
    (hstep : (puts name bodies).step world event = some next) :
    (∀ thread, (next.stage thread).created = none) ∨ HoldsBody bodies name next ∨
      (next.shared.content name = some [] ∧
        ∃ thread, (next.stage thread).handle ≠ none) := by
  obtain ⟨hmove, hother⟩ := puts_step hstep
  rcases hmove.put_cases (hinv.opens event.thread) with
    ⟨hentries, hdata, hsame, hcreated⟩ | ⟨-, hempty, opened, hopened, -⟩ |
    ⟨file, hflush, -, hwrite⟩
  · have hcontent : next.shared.content name = world.shared.content name := by
      rw [Shared.content, Shared.content, hentries, hdata]
    have hhandle : ∀ thread, (next.stage thread).handle = (world.stage thread).handle := by
      intro thread
      by_cases hthread : thread = event.thread
      · rw [hthread, hsame]
      · rw [hother thread hthread]
    rcases hinv.content with hunopened | ⟨thread, hbody⟩ | ⟨hempty, thread, hopen⟩
    · refine Or.inl ?_
      intro thread
      by_cases hthread : thread = event.thread
      · rw [hthread]
        exact hcreated (hunopened event.thread)
      · rw [hother thread hthread]
        exact hunopened thread
    · exact Or.inr (Or.inl ⟨thread, hcontent.trans hbody⟩)
    · exact Or.inr (Or.inr ⟨hcontent.trans hempty, thread, (hhandle thread).symm ▸ hopen⟩)
  · exact Or.inr (Or.inr ⟨hempty, event.thread, by simp [hopened]⟩)
  · exact Or.inr (Or.inl (hinv.holdsBody_of_flush hnul hguard hflush hwrite))

theorem WriteInv.step (hnul : ∀ thread, nul ∉ bodies thread)
    (hinv : WriteInv bodies name world) (hguard : FlushesWhole bodies world event)
    (hstep : (puts name bodies).step world event = some next) :
    WriteInv bodies name next where
  opens := hinv.opens_step hstep
  handle := hinv.handle_step hstep
  content := hinv.content_step hnul hguard hstep

/-- After a run of PUTs in which no body is flushed over a longer file, once all
have returned true the file holds the complete body of one of them. -/
theorem holdsBody_of_run [Nonempty ι] (events : List (Event ι))
    (hnul : ∀ thread, nul ∉ bodies thread) (hinitial : world.Initial)
    (hguard : (puts name bodies).Guarded (FlushesWhole bodies) world events)
    (hrun : (puts name bodies).run world events = some final)
    (hanswered : ∀ thread, final.stage thread = .answered (.ok name)) :
    HoldsBody bodies name final := by
  have hinv : WriteInv bodies name final :=
    (puts name bodies).invariant_of_guarded (WriteInv.step hnul) events
      hinitial.writeInv hguard hrun
  obtain ⟨thread⟩ := ‹Nonempty ι›
  rcases hinv.content with hunopened | hbody | ⟨-, waiting, hopen⟩
  · have hnone := hunopened thread
    rw [hanswered thread] at hnone
    contradiction
  · exact hbody
  · rw [hanswered waiting] at hopen
    exact absurd rfl hopen

end Puts

namespace ConcurrentWritesWitness

/-- Two PUTs on one path with bodies of different lengths. -/
def twoBodies : Fin 2 → Str := ![ "b".toList, "aaaa".toList ]

def twoPuts : Interleaving (World (Fin 2)) (Event (Fin 2)) :=
  puts "1".toList twoBodies

def missingEntity : World (Fin 2) where
  shared := ⟨none, fun _ => [], 0, none⟩
  stage := fun _ => .begin

/-- Both threads have opened the file before either flushes. -/
def bothOpened : List (Event (Fin 2)) :=
  steps 0 5 ++ steps 1 4

/-- The longer body goes last. -/
def shorterFirst : List (Event (Fin 2)) :=
  bothOpened ++ steps 0 3 ++ steps 1 3

theorem holdsBody_shorterFirst :
    ∃ final, twoPuts.run missingEntity shorterFirst = some final ∧
      HoldsBody twoBodies "1".toList final := by
  have hguard : twoPuts.Guarded (FlushesWhole twoBodies) missingEntity shorterFirst := by
    decide
  refine ⟨_, rfl, ?_⟩
  exact holdsBody_of_run shorterFirst (by decide) ⟨rfl, fun _ => rfl⟩ hguard rfl
    (by decide)

/-- The shorter body goes last. -/
def longerFirst : List (Event (Fin 2)) :=
  bothOpened ++ steps 1 3 ++ steps 0 3

/-- Both PUTs succeed, and the file holds a mixture of their bodies. -/
theorem not_holdsBody_longerFirst :
    ∃ final, twoPuts.run missingEntity longerFirst = some final ∧
      (∀ thread, final.stage thread = .answered (.ok "1".toList)) ∧
      final.shared.content "1".toList = some "baaa".toList ∧
      ¬ HoldsBody twoBodies "1".toList final := by
  refine ⟨_, rfl, by decide, by decide, ?_⟩
  rintro ⟨thread, hcontent⟩
  revert thread
  decide

end ConcurrentWritesWitness

end EntityDirectory

end SwanServer
