/-
The API of a running server.  As long as handlers do not overlap, each data directory
answers the requests that arrive on any connection as a store on its own.
-/
import SwanServer.Linearisation
import SwanServer.ServiceRefinement

namespace SwanServer

namespace Server

section Runs

variable {ι : Type} [DecidableEq ι] [Fintype ι] {parseRequest : Str → Option Request}
  {program : RequestHandlerFactory → Request → Response →
    Resumption World Fault (Bool × Response)}
  {config : NginxConfig} {filesystemMap : FilesystemMap} {env : Environment} {start : Disk}
  {rootOf : Str → List Str} {world : World} {stores : List Str → CrudStore}

/-- A server that runs on a config, from a disk that holds stores in its data directories, with
requests to API locations of a single segment.  The answers that handlers have given so far
to the requests for a data directory are those of its store, in the order in which the
handlers were started; and when no handler is at work, all requests are answered and the
disk holds the images of the stores. -/
theorem stores_of_run
    (hextract : config.extractFilesystemMap OrderedMap.empty = .ok filesystemMap)
    (hprogram : ∀ factory httpRequest httpResponse world,
      (program factory httpRequest httpResponse).exec world =
        (factory.create env httpRequest httpResponse).exec world)
    (henv : ∀ k, (env.host k).Succeeds)
    (hstart : DataDirectories start filesystemMap.UsesPath rootOf)
    (hholds : HoldsAll start (rootOf '' {path | filesystemMap.UsesPath path}) world.disk stores)
    {memory : Buffer} {events : List (Event ι)} {next : State ι RequestHandlerFactory World}
    (hrun : (system parseRequest program (createFactoryMap filesystemMap)).run
      (initial (createFactoryMap filesystemMap) memory world) events = some next)
    (halone : (system parseRequest program (createFactoryMap filesystemMap)).Guarded Alone
      (initial (createFactoryMap filesystemMap) memory world) events)
    (hadmits : ∀ root, storeMachine.Guarded CrudStore.AdmitsAt (stores root)
      (requestsFor parseRequest (factoryFor parseRequest filesystemMap) rootOf root (requests
        ((system parseRequest program (createFactoryMap filesystemMap)).observed mark
          (initial (createFactoryMap filesystemMap) memory world) events)))) :
    let marks := (system parseRequest program (createFactoryMap filesystemMap)).observed mark
      (initial (createFactoryMap filesystemMap) memory world) events
    let factoryOf := factoryFor parseRequest filesystemMap
    let requestsOf := fun root =>
      requestsFor parseRequest factoryOf rootOf root (requests marks)
    (∀ root, ∃ ideals,
      ideals <+: storeMachine.trace (stores root) (requestsOf root) ∧
        (Quiet next → ideals = storeMachine.trace (stores root) (requestsOf root)) ∧
        List.Forall₂ (fun outcome ideal => ideal.1.ShownBy outcome)
          (outcomesFor parseRequest factoryOf rootOf root (requests marks) (answers marks))
          ideals) ∧
      (Quiet next → next.ended = none →
        HoldsAll start (rootOf '' {path | filesystemMap.UsesPath path}) next.store.disk
          fun root => storeMachine.final (stores root) (requestsOf root)) := by
  intro marks factoryOf requestsOf
  have hnormalised : filesystemMap.Normalised :=
    NginxConfig.normalised_extractFilesystemMap FilesystemMap.normalised_empty hextract
  have himplements : Implements parseRequest program (RequestHandlerFactory.create env)
      (createFactoryMap filesystemMap) factoryOf :=
    ⟨hprogram, find?_matchedLocationPath_factoryFor hnormalised parseRequest⟩
  obtain ⟨hstarts, hquiet⟩ := (serialised_of_run himplements hrun halone).serial.answers_sequential
  obtain ⟨hshown, hfinal⟩ := handlerMachine_refines_stores henv hstart
    (fun _ _ _ => usesPath_of_factoryFor hnormalised) hholds (requests marks) hadmits
  constructor
  · intro root
    have hoffered := Machine.answersFor_mono root
      ((requests marks).map (apiRequest parseRequest factoryOf rootOf)) hstarts
    have htake := List.prefix_iff_eq_take.mp hoffered
    have hgiven := List.forall₂_take (outcomesFor parseRequest factoryOf rootOf root
      (requests marks) (answers marks)).length (hshown root)
    rw [outcomesFor, outcomesFor, ← htake] at hgiven
    refine ⟨_, List.take_prefix _ _, ?_, hgiven⟩
    intro hnext
    rw [(hquiet hnext).1, ← outcomesFor, (hshown root).length_eq, List.take_length]
  · intro hnext hended
    rw [(hquiet hnext).2 hended]
    exact hfinal

end Runs

namespace ServiceRunsWitness

open HandlersWitness (env serve)
open ServerRunsWitness (turn)
open ServiceRefinementWitness

def postRead : Chunk := ⟨postText, by decide, by decide⟩

def hatsRead : Chunk := ⟨hatsText, by decide, by decide⟩

def shoesRead : Chunk := ⟨shoesText, by decide, by decide⟩

/-- Two threads serve three connections, one request after the other: a POST to each
location, and then a GET of what the first one has stored. -/
def oneByOne : List (Event Bool) :=
  [.accepted false 0 false, turn false, turn false, turn false,
    .accepted true 1 false, turn true, turn true, turn true,
    .received true 0 (some postRead), .received false 1 (some hatsRead), turn true, turn true,
    turn true, turn false, turn false, turn true, turn false, turn false, .sent true 1 false,
    .accepted false 2 false, turn true, turn false, turn false, turn false,
    .received true 2 (some shoesRead), turn true, turn true, turn true]

def outcome : Option (State Bool RequestHandlerFactory World) :=
  (system parsePost serve routes).run
    (initial routes SessionWitness.zeroed startWorld) oneByOne

theorem isSome_outcome : outcome.isSome = true := by decide +kernel

theorem alone_oneByOne : (system parsePost serve routes).Guarded Alone
    (initial routes SessionWitness.zeroed startWorld) oneByOne := by
  decide +kernel

theorem requests_oneByOne : requests ((system parsePost serve
    routes).observed mark
      (initial routes SessionWitness.zeroed startWorld) oneByOne) =
    [postText, hatsText, shoesText] := by
  decide +kernel

theorem stores_events :
    let marks := (system parsePost serve routes).observed mark
      (initial routes SessionWitness.zeroed startWorld) oneByOne
    let factoryOf := factoryFor parsePost filesystemMap
    let requestsOf := fun root => requestsFor parsePost factoryOf rootOf root (requests marks)
    let next := outcome.get isSome_outcome
    (∀ root, ∃ ideals,
      ideals <+: storeMachine.trace ∅ (requestsOf root) ∧
        (Quiet next → ideals = storeMachine.trace ∅ (requestsOf root)) ∧
        List.Forall₂ (fun outcome ideal => ideal.1.ShownBy outcome)
          (outcomesFor parsePost factoryOf rootOf root (requests marks) (answers marks))
          ideals) ∧
      (Quiet next → next.ended = none →
        HoldsAll disk (rootOf '' {path | filesystemMap.UsesPath path}) next.store.disk
          fun root => storeMachine.final ∅ (requestsOf root)) :=
  stores_of_run extractFilesystemMap_config (fun _ _ _ _ => rfl)
    (fun _ => workingHost_succeeds) dataDirectories_disk (HoldsAll.empty dataDirectories_disk)
    (Option.some_get isSome_outcome).symm alone_oneByOne
    fun root => requests_oneByOne ▸ admits_texts root

end ServiceRunsWitness

end Server

end SwanServer
