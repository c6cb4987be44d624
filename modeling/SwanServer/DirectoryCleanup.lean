/-
DELETE against POST and PUT on one entity directory.  `RealFileSystem::remove`
tests whether the directory is empty and then removes it with all it holds, so
a file that appears between the two calls goes with it.
-/
import SwanServer.EntityDirectory

namespace SwanServer

namespace EntityDirectory

variable {ι : Type}

/-- A DELETE naming `name` takes effect: it unlinks the file. -/
def TakesEffect (calls : ι → Call) (name : Str) (world : World ι)
    (event : Event ι) : Prop :=
  calls event.thread = .delete name ∧ world.stage event.thread = .unlink

instance (calls : ι → Call) (name : Str) (world : World ι) (event : Event ι) :
    Decidable (TakesEffect calls name world event) :=
  inferInstanceAs (Decidable (_ ∧ _))

/-- About to call `remove_all`. -/
def Stage.isRemoveAll : Stage → Bool
  | .removeAll _ => true
  | _ => false

/-- What a step must not meet: a `remove_all` that finds files, or the removal
of a file for which the answer of its writer is still to come. -/
def SparesFiles (calls : ι → Call) (world : World ι) (event : Event ι) : Prop :=
  ((world.stage event.thread).isRemoveAll → world.shared.names = []) ∧
  ∀ thread, ∀ name ∈ (world.stage thread).pending,
    ¬ TakesEffect calls name world event

instance [Fintype ι] (calls : ι → Call) (world : World ι) (event : Event ι) :
    Decidable (SparesFiles calls world event) :=
  inferInstanceAs (Decidable (_ ∧ _))

/-- A file that is being written or about to be answered for is there. -/
def PendingPresent (world : World ι) : Prop :=
  ∀ thread name, (world.stage thread).pending = some name → name ∈ world.shared.names

section Moves

variable {name : Str} {shared shared' : Shared ι} {stage stage' : Stage}

theorem RemoveMove.mem_names
    (hmove : RemoveMove name shared stage shared' stage')
    (hempty : stage.isRemoveAll → shared.names = []) {other : Str}
    (hkept : stage = .unlink → other ≠ name) (hother : other ∈ shared.names) :
    other ∈ shared'.names := by
  cases hmove with
  | unlink success => exact Shared.mem_names_unlink.mpr ⟨hkept rfl, hother⟩
  | removeAll success =>
      rw [hempty rfl] at hother
      contradiction
  | _ => exact hother

theorem RemoveMove.pending_eq_none
    (hmove : RemoveMove name shared stage shared' stage') :
    stage'.pending = none := by
  cases hmove with
  | testNonempty success => cases success <;> rfl
  | removeAll success => cases success <;> rfl
  | _ => rfl

end Moves

section Steps

variable [DecidableEq ι] {calls : ι → Call} {world next final : World ι}
  {event : Event ι} {name : Str}

/-- Where nothing is swept away, only a DELETE naming a file removes it. -/
theorem mem_names_step (hguard : SparesFiles calls world event)
    (hkept : ¬ TakesEffect calls name world event)
    (hstep : (system calls).step world event = some next)
    (hname : name ∈ world.shared.names) : name ∈ next.shared.names := by
  obtain ⟨hmove | ⟨deleted, hcall, hmove⟩, -⟩ := move_of_step hstep
  · exact hmove.mem_names hname
  · refine hmove.mem_names hguard.1 ?_ hname
    rintro hunlink rfl
    exact hkept ⟨hcall, hunlink⟩

theorem PendingPresent.step (hinv : PendingPresent world)
    (hguard : SparesFiles calls world event)
    (hstep : (system calls).step world event = some next) : PendingPresent next := by
  intro thread name hpending
  obtain ⟨hmove, hother⟩ := move_of_step hstep
  have hstays : (world.stage thread).pending = some name → name ∈ next.shared.names :=
    fun hbefore => mem_names_step hguard (hguard.2 thread name hbefore) hstep
      (hinv thread name hbefore)
  by_cases hthread : thread = event.thread
  · subst hthread
    rcases hmove with hmove | ⟨_, -, hmove⟩
    · rcases hmove.pending hpending with hbefore | ⟨-, hname⟩
      · exact hstays hbefore
      · exact hname
    · rw [hmove.pending_eq_none] at hpending
      contradiction
  · rw [hother thread hthread] at hpending
    exact hstays hpending

omit [DecidableEq ι] in
theorem World.Initial.pendingPresent (hinitial : world.Initial) :
    PendingPresent world := by
  intro thread name hpending
  rw [hinitial.2 thread] at hpending
  contradiction

/-- A file stays along a run in which no DELETE naming it takes effect. -/
theorem mem_names_run (events : List (Event ι))
    (hguard : (system calls).Guarded (SparesFiles calls) world events)
    (hkept : (system calls).Guarded
      (fun world event => ¬ TakesEffect calls name world event) world events)
    (hrun : (system calls).run world events = some final)
    (hname : name ∈ world.shared.names) : name ∈ final.shared.names :=
  (system calls).invariant_of_guarded
    (fun hmem hstep hnext => mem_names_step hstep.1 hstep.2 hnext hmem)
    events hname (hguard.and hkept) hrun

/-- In every run whose steps spare the files, what a POST or PUT has written
is there from its answer on, until a DELETE naming it takes effect. -/
theorem mem_names_of_answer {start before : World ι} {answer : Event ι}
    (earlier later : List (Event ι)) (hinitial : start.Initial)
    (hguard : (system calls).Guarded (SparesFiles calls) start
      (earlier ++ answer :: later))
    (hbefore : (system calls).run start earlier = some before)
    (hanswer : before.stage answer.thread = .returning (.ok name))
    (hlater : (system calls).run before (answer :: later) = some final)
    (hkept : (system calls).Guarded
      (fun world event => ¬ TakesEffect calls name world event) before
      (answer :: later)) :
    name ∈ final.shared.names := by
  have hpresent : PendingPresent before :=
    (system calls).invariant_of_guarded PendingPresent.step earlier
      hinitial.pendingPresent hguard.append_left hbefore
  have hname : name ∈ before.shared.names :=
    hpresent answer.thread name (by rw [hanswer]; rfl)
  exact mem_names_run (answer :: later) (hguard.append_right hbefore) hkept hlater
    hname

end Steps

namespace DirectoryCleanupWitness

def entityOf (name : Str) : World (Fin 2) where
  shared := ⟨some [(name, 0)], fun _ => [], 1, none⟩
  stage := fun _ => .begin

/-- A POST beside the DELETE of another file. -/
def postAndDelete : Fin 2 → Call :=
  ![.post "body".toList, .delete "7".toList]

/-- The new file outlives the DELETE of the file beside it. -/
theorem mem_names_postAndDelete :
    ∃ before final,
      (system postAndDelete).run (entityOf "7".toList) (steps 0 7) = some before ∧
      (system postAndDelete).run before (⟨0, true⟩ :: steps 1 3) = some final ∧
      final.stage 1 = .answered .deleted ∧ "8".toList ∈ final.shared.names := by
  have hguard : (system postAndDelete).Guarded (SparesFiles postAndDelete)
      (entityOf "7".toList) (steps 0 7 ++ ⟨0, true⟩ :: steps 1 3) := by decide
  refine ⟨_, _, rfl, rfl, by decide, ?_⟩
  exact mem_names_of_answer (steps 0 7) (steps 1 3) ⟨rfl, fun _ => rfl⟩ hguard rfl
    rfl rfl (by decide)

/-- A PUT beside the DELETE of the only file. -/
def putAndDelete : Fin 2 → Call :=
  ![.put "2".toList "body".toList, .delete "1".toList]

/-- The DELETE of file 1 has found the directory empty; file 2 is written and
answered for, and then removed with the directory. -/
theorem not_mem_names_putAndDelete :
    ∃ before final,
      (system putAndDelete).run (entityOf "1".toList) (steps 1 3 ++ steps 0 6) =
        some before ∧
      before.stage 0 = .returning (.ok "2".toList) ∧
      (system putAndDelete).run before (⟨0, true⟩ :: steps 1 1) = some final ∧
      (system putAndDelete).Guarded
        (fun world event => ¬ TakesEffect putAndDelete "2".toList world event)
        before (⟨0, true⟩ :: steps 1 1) ∧
      "2".toList ∉ final.shared.names :=
  ⟨_, _, rfl, rfl, rfl, by decide, by decide⟩

end DirectoryCleanupWitness

end EntityDirectory

end SwanServer
