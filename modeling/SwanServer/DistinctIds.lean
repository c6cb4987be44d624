/-
The ids that concurrent POSTs on one entity return.  `gen_id_and_write_file`
unlocks the creation mutex by hand and once more in the destructor of its
`unique_lock`; the ids are distinct in every run in which that second unlock
takes the mutex from nobody and no file carries the largest `int`.
-/
import SwanServer.EntityDirectory

namespace SwanServer

namespace EntityDirectory

variable {ι : Type}

/-- Between taking the mutex and unlocking it by hand. -/
def Stage.isCritical : Stage → Bool
  | .scan | .fopen _ | .opened _ _ | .failed => true
  | _ => false

/-- About to run the destructor of `unique_lock`. -/
def Stage.isReturning : Stage → Bool
  | .returning _ => true
  | _ => false

/-- What a step must not meet: a destructor that unlocks a mutex which somebody
holds again, or a scan that finds the largest `int` taken. -/
def UnlocksNobody (world : World ι) (event : Event ι) : Prop :=
  ((world.stage event.thread).isReturning → world.shared.mutex = none) ∧
  (world.stage event.thread = .scan →
    ∀ name ∈ world.shared.names, stoi (stem name) ≠ .ok intMax)

instance (world : World ι) (event : Event ι) :
    Decidable (UnlocksNobody world event) :=
  inferInstanceAs (Decidable (_ ∧ _))

/-- Two threads never answer with one id, and the name that a thread is about
to create is not there yet. -/
structure DistinctIds (world : World ι) : Prop where
  answered : ∀ first second name, world.stage first = .answered (.ok name) →
    world.stage second = .answered (.ok name) → first = second
  unused : ∀ thread name, world.stage thread = .fopen name →
    name ∉ world.shared.names

/-- What concurrent POSTs preserve: a thread in its critical section owns the
mutex, and the names created are in the directory, each for one thread. -/
structure CreationInv (world : World ι) : Prop where
  owner : ∀ thread, (world.stage thread).isCritical → world.shared.mutex = some thread
  unused : ∀ thread name, world.stage thread = .fopen name →
    name ∉ world.shared.names
  present : ∀ thread name, (world.stage thread).created = some name →
    name ∈ world.shared.names
  distinct : ∀ first second name, (world.stage first).created = some name →
    (world.stage second).created = some name → first = second

section Moves

variable {call : Call} {thread : ι} {shared shared' : Shared ι} {stage stage' : Stage}

/-- The mutex stays, is taken while free, or is released by its owner or by a
destructor. -/
theorem WriteMove.mutex (hmove : WriteMove call thread shared stage shared' stage') :
    (shared'.mutex = shared.mutex ∧ (stage'.isCritical → stage.isCritical)) ∨
      (shared.mutex = none ∧ shared'.mutex = some thread) ∨
      (shared'.mutex = none ∧ ¬ stage'.isCritical ∧
        (stage.isCritical ∨ stage.isReturning)) := by
  cases hmove <;> simp_all [Stage.isCritical, Stage.isReturning, Shared.mkdir,
    Shared.lock, Shared.unlock, Shared.truncate, Shared.create, Shared.write]

/-- A POST opens only the name that it got from its scan. -/
theorem WriteMove.unused {body : Str}
    (hmove : WriteMove (.post body) thread shared stage shared' stage')
    (hroom : stage = .scan → ∀ name ∈ shared.names, stoi (stem name) ≠ .ok intMax)
    {name : Str} (hname : stage' = .fopen name) : name ∉ shared'.names := by
  cases hmove <;> cases hname
  next id hunique => exact toStringInt_not_mem_of_uniqueFileName hunique (hroom rfl)

end Moves

section Posts

variable [DecidableEq ι] {bodies : ι → Str} {world next : World ι} {event : Event ι}

/-- Threads that all handle a POST on the entity. -/
def posts (bodies : ι → Str) : Interleaving (World ι) (Event ι) :=
  system fun thread => .post (bodies thread)

theorem posts_step (hstep : (posts bodies).step world event = some next) :
    WriteMove (.post (bodies event.thread)) event.thread world.shared
        (world.stage event.thread) next.shared (next.stage event.thread) ∧
      ∀ thread, thread ≠ event.thread → next.stage thread = world.stage thread :=
  writeMove_of_step (by simp) hstep

theorem CreationInv.owner_step (hinv : CreationInv world)
    (hguard : UnlocksNobody world event)
    (hstep : (posts bodies).step world event = some next) (thread : ι)
    (hcritical : (next.stage thread).isCritical) :
    next.shared.mutex = some thread := by
  obtain ⟨hmove, hother⟩ := posts_step hstep
  by_cases hthread : thread = event.thread
  · subst hthread
    rcases hmove.mutex with ⟨hkeep, hcame⟩ | ⟨-, htaken⟩ | ⟨-, hleft, -⟩
    · rw [hkeep]
      exact hinv.owner event.thread (hcame hcritical)
    · exact htaken
    · exact absurd hcritical hleft
  · rw [hother thread hthread] at hcritical
    have howner := hinv.owner thread hcritical
    rcases hmove.mutex with ⟨hkeep, -⟩ | ⟨hfree, -⟩ | ⟨-, -, hunlock⟩
    · rw [hkeep, howner]
    · rw [hfree] at howner
      contradiction
    · rcases hunlock with hown | hreturning
      · rw [hinv.owner event.thread hown] at howner
        exact absurd (Option.some.inj howner).symm hthread
      · rw [hguard.1 hreturning] at howner
        contradiction

theorem CreationInv.unused_step (hinv : CreationInv world)
    (hguard : UnlocksNobody world event)
    (hstep : (posts bodies).step world event = some next) (thread : ι) (name : Str)
    (hopen : next.stage thread = .fopen name) : name ∉ next.shared.names := by
  obtain ⟨hmove, hother⟩ := posts_step hstep
  by_cases hthread : thread = event.thread
  · subst hthread
    exact hmove.unused hguard.2 hopen
  · rw [hother thread hthread] at hopen
    rcases hmove.names with hkeep | ⟨created, hcreates, -⟩
    · rw [hkeep]
      exact hinv.unused thread name hopen
    · -- the mutex keeps two threads from being at `fopen` together
      have howner := hinv.owner thread (by rw [hopen]; rfl)
      rw [hinv.owner event.thread (by rw [hcreates]; rfl)] at howner
      exact absurd (Option.some.inj howner).symm hthread

theorem CreationInv.present_step (hinv : CreationInv world)
    (hstep : (posts bodies).step world event = some next) (thread : ι) (name : Str)
    (hcreated : (next.stage thread).created = some name) :
    name ∈ next.shared.names := by
  obtain ⟨hmove, hother⟩ := posts_step hstep
  by_cases hthread : thread = event.thread
  · subst hthread
    rcases hmove.created hcreated with hbefore | ⟨-, hname⟩
    · exact hmove.mem_names (hinv.present event.thread name hbefore)
    · exact hname
  · rw [hother thread hthread] at hcreated
    exact hmove.mem_names (hinv.present thread name hcreated)

theorem CreationInv.distinct_step (hinv : CreationInv world)
    (hstep : (posts bodies).step world event = some next) (first second : ι)
    (name : Str) (hfirst : (next.stage first).created = some name)
    (hsecond : (next.stage second).created = some name) : first = second := by
  obtain ⟨hmove, hother⟩ := posts_step hstep
  have hmover : ∀ thread, (next.stage event.thread).created = some name →
      (world.stage thread).created = some name → event.thread = thread := by
    intro thread hmoved hthread
    rcases hmove.created hmoved with hbefore | ⟨hopen, -⟩
    · exact hinv.distinct event.thread thread name hbefore hthread
    · exact absurd (hinv.present thread name hthread)
        (hinv.unused event.thread name hopen)
  by_cases h₁ : first = event.thread <;> by_cases h₂ : second = event.thread
  · rw [h₁, h₂]
  · rw [hother second h₂] at hsecond
    rw [h₁] at hfirst ⊢
    exact hmover second hfirst hsecond
  · rw [hother first h₁] at hfirst
    rw [h₂] at hsecond ⊢
    exact (hmover first hsecond hfirst).symm
  · rw [hother first h₁] at hfirst
    rw [hother second h₂] at hsecond
    exact hinv.distinct first second name hfirst hsecond

theorem CreationInv.step (hinv : CreationInv world)
    (hguard : UnlocksNobody world event)
    (hstep : (posts bodies).step world event = some next) : CreationInv next where
  owner := hinv.owner_step hguard hstep
  unused := hinv.unused_step hguard hstep
  present := hinv.present_step hstep
  distinct := hinv.distinct_step hstep

omit [DecidableEq ι] in
theorem World.Initial.creationInv (hinitial : world.Initial) : CreationInv world := by
  obtain ⟨-, hbegin⟩ := hinitial
  constructor
  case owner =>
    intro thread hcritical
    rw [hbegin thread] at hcritical
    contradiction
  case unused =>
    intro thread name hopen
    rw [hbegin thread] at hopen
    contradiction
  case present =>
    intro thread name hcreated
    rw [hbegin thread] at hcreated
    contradiction
  case distinct =>
    intro first second name hcreated
    rw [hbegin first] at hcreated
    contradiction

/-- In every run of POSTs whose steps unlock nobody's mutex and find room for
another id, no two answers carry one id and every file created is new. -/
theorem distinctIds_of_run (events : List (Event ι)) (hinitial : world.Initial)
    (hguard : (posts bodies).Guarded UnlocksNobody world events)
    (hrun : (posts bodies).run world events = some next) : DistinctIds next := by
  have hinv : CreationInv next :=
    (posts bodies).invariant_of_guarded CreationInv.step events
      hinitial.creationInv hguard hrun
  refine ⟨?_, hinv.unused⟩
  intro first second name hfirst hsecond
  exact hinv.distinct first second name (by rw [hfirst]; rfl) (by rw [hsecond]; rfl)

end Posts

namespace DistinctIdsWitness

/-- Three POSTs on an entity that is there but empty. -/
def threePosts : Interleaving (World (Fin 3)) (Event (Fin 3)) :=
  posts fun _ => "body".toList

def emptyEntity : World (Fin 3) where
  shared := ⟨some [], fun _ => [], 0, none⟩
  stage := fun _ => .begin

/-- The second thread waits until the first is done. -/
def waiting : List (Event (Fin 3)) :=
  steps 1 1 ++ steps 0 8 ++ steps 1 7

theorem distinctIds_waiting :
    ∃ final, threePosts.run emptyEntity waiting = some final ∧
      final.stage 0 = .answered (.ok "1".toList) ∧
      final.stage 1 = .answered (.ok "2".toList) ∧ DistinctIds final := by
  have hguard : threePosts.Guarded UnlocksNobody emptyEntity waiting := by decide
  refine ⟨_, rfl, by decide, by decide, ?_⟩
  exact distinctIds_of_run waiting ⟨rfl, fun _ => rfl⟩ hguard rfl

/-- The destructor of the first thread unlocks the mutex that the second one
holds, and the third scans beside it. -/
def doubleUnlock : List (Event (Fin 3)) :=
  steps 0 7 ++ steps 1 2 ++ steps 0 1 ++ steps 2 2 ++ steps 1 1 ++ steps 2 1 ++
    steps 1 5 ++ steps 2 5

/-- Two POSTs answer with the id 2, the second one over the file of the first. -/
theorem not_distinctIds_doubleUnlock :
    ∃ final, threePosts.run emptyEntity doubleUnlock = some final ∧
      final.stage 1 = .answered (.ok "2".toList) ∧
      final.stage 2 = .answered (.ok "2".toList) ∧ ¬ DistinctIds final := by
  refine ⟨_, rfl, by decide, by decide, ?_⟩
  intro hdistinct
  exact absurd (hdistinct.answered 1 2 "2".toList (by decide) (by decide)) (by decide)

end DistinctIdsWitness

end EntityDirectory

end SwanServer
