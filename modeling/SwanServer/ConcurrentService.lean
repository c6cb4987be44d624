/-
The API of a running server whose handlers overlap.  Requests for different data
directories, and reads of one, may overlap call by call.
-/
import SwanServer.ApiLocality
import SwanServer.HandlerPool
import SwanServer.Serialisability
import SwanServer.ServiceRuns

namespace SwanServer

open FileTree

/-- `create()` of an API factory, and the `handle_request` of its handler call by call. -/
def apiProgram (env : Environment) (dataPath : Str) (httpRequest : Request)
    (httpResponse : Response) : Resumption World Fault (Bool × Response) :=
  .access (fun world => { world with handled := world.handled + 1 }) fun world =>
    (ApiProgram.handleRequest dataPath (env.host world.handled) httpRequest httpResponse).zoom
      World.disk fun world disk => { world with disk := disk }

/-- Undisturbed, the calls are the handler. -/
theorem exec_apiProgram (env : Environment) (location dataPath : Str) (httpRequest : Request)
    (httpResponse : Response) (world : World) :
    (apiProgram env dataPath httpRequest httpResponse).exec world =
      ((RequestHandlerFactory.api location dataPath).create env httpRequest
        httpResponse).exec world := by
  have hzoom := @Resumption.exec_zoom World Fault (Bool × Response) Disk World.disk
    (fun world disk => { world with disk := disk }) (fun _ _ => rfl) (fun _ => rfl)
    fun _ _ _ => rfl
  rw [apiProgram, Resumption.exec_access, hzoom,
    ApiProgram.runBy_handleRequest dataPath _ location, RequestHandlerFactory.exec_create,
    RequestHandlerFactory.exec_createAt_api]

section Requests

variable {start : Disk} {dataPaths : Str → Prop} {rootOf : Str → List Str} {dataPath : Str}
  {disk : Disk} {store : CrudStore} (hstart : DataDirectories start dataPaths rootOf)
  (hdata : dataPaths dataPath) {location : Str} {httpRequest : Request}
  (hadmits : store.AdmitsAt (location, httpRequest))

include hstart hdata hadmits

theorem local_handleRequest (host : Host) (httpResponse : Response) :
    Resumption.Local (fun disk => disk.focus start (rootOf dataPath))
      (Surrounds start (rootOf '' {path | dataPaths path}))
      (fun disk later =>
        Aside start (rootOf '' {path | dataPaths path}) (rootOf dataPath) disk later ∧
          (httpRequest.method = "GET".toList → later = disk))
      (fun _ => True) (ApiProgram.handleRequest dataPath host httpRequest httpResponse) := by
  obtain ⟨entity, rest, hbehind, hname⟩ := hadmits.request.entity
  refine (confined_handleRequest hstart hdata hbehind hname httpResponse).and_guarantees ?_
  by_cases hmethod : httpRequest.method = "GET".toList
  · exact (onlyReads_handleRequest dataPath host hmethod httpResponse).mono
      fun _ _ hsame _ => hsame
  · exact Resumption.guarantees_of_forall _ fun _ _ habsurd => absurd habsurd hmethod

/-- Whatever happens to other data directories, a request is a step of its store. -/
theorem works_handleRequest (hdisk : Surrounds start (rootOf '' {path | dataPaths path}) disk)
    {host : Host} (hhost : host.Succeeds) (httpResponse : Response)
    (hbelow : ∀ place, (disk.focus start (rootOf dataPath)).tree.node?
      (rootOf dataPath ++ place) = store.image place) :
    (ApiProgram.handleRequest dataPath host httpRequest httpResponse).Works
      (fun disk => disk.focus start (rootOf dataPath))
      (Surrounds start (rootOf '' {path | dataPaths path}))
      (fun disk later =>
        Aside start (rootOf '' {path | dataPaths path}) (rootOf dataPath) disk later ∧
          (httpRequest.method = "GET".toList → later = disk))
      (fun result now =>
        (storeMachine.step store (location, httpRequest)).1.ShownBy (result.map Prod.snd) ∧
          ∀ place, now.tree.node? (rootOf dataPath ++ place) =
            (storeMachine.step store (location, httpRequest)).2.image place)
      (disk.focus start (rootOf dataPath)) := by
  refine (local_handleRequest hstart hdata hadmits host httpResponse).works ?_
  obtain ⟨⟨reply, hreply, hshows⟩, hlater⟩ := ApiHandler.performs_handleRequest hhost []
    (emptyDirectory_focus hstart hdata hdisk) (holds_focus hbelow) hadmits.request httpResponse
  rw [← Operation.ofRequestAt_of_length hadmits.location] at hshows hlater
  rw [ApiProgram.runBy_handleRequest dataPath host []]
  exact ⟨⟨reply.2, congrArg (Except.map Prod.snd) hreply, hshows⟩, hlater.below⟩

/-- The same of the handler. -/
theorem works_apiProgram {env : Environment} (henv : ∀ k, (env.host k).Succeeds)
    (httpResponse : Response) {world : World}
    (hbelow : ∀ place, (world.disk.focus start (rootOf dataPath)).tree.node?
      (rootOf dataPath ++ place) = store.image place) :
    (apiProgram env dataPath httpRequest httpResponse).Works
      (fun world => world.disk.focus start (rootOf dataPath))
      (fun world => Surrounds start (rootOf '' {path | dataPaths path}) world.disk)
      (fun world later => Aside start (rootOf '' {path | dataPaths path}) (rootOf dataPath)
          world.disk later.disk ∧
        (httpRequest.method = "GET".toList → later.disk = world.disk))
      (fun result now =>
        (storeMachine.step store (location, httpRequest)).1.ShownBy (result.map Prod.snd) ∧
          ∀ place, now.tree.node? (rootOf dataPath ++ place) =
            (storeMachine.step store (location, httpRequest)).2.image place)
      (world.disk.focus start (rootOf dataPath)) := by
  refine .access (fun other hother _ => ⟨hother, aside_refl _ _ _, fun _ => rfl⟩) ?_
  intro other hother hview
  refine Resumption.Works.zoom (fun _ _ => rfl) (works_handleRequest hstart hdata hadmits hother
    (henv other.handled) httpResponse fun place => ?_)
  rw [hview]
  exact hbelow place

end Requests

theorem storeMachine_step_of_get {store : CrudStore} {input : Str × Request}
    (hmethod : input.2.method = "GET".toList) :
    (storeMachine.step store input).2 = store := by
  have hpost : input.2.method ≠ "POST".toList := by
    rw [hmethod]
    decide
  change (CrudStore.step store (Operation.ofRequestAt input.1 input.2)).2 = store
  rw [Operation.ofRequestAt]
  rcases segmentsBehind input.1 input.2.target with _ | ⟨entity, _ | ⟨name, _ | ⟨next, rest⟩⟩⟩
  · rfl
  · rw [Operation.ofSegments, if_neg hpost, if_pos hmethod, CrudStore.step]
    split <;> rfl
  · rw [Operation.ofSegments]
    split
    · rw [CrudStore.step]
      split <;> rfl
    · rfl
  · rfl

open Classical in
/-- The stores of the data directories as the machines that handlers work for.  A GET reads
its store. -/
noncomputable def storeService (parseRequest : Str → Option Request)
    (factoryOf : Str → RequestHandlerFactory) (start : Disk) (dataPaths : Str → Prop)
    (rootOf : Str → List Str) :
    WorkPool.Service Str (List Str) (Str × Request) World Disk CrudStore Answer Fault
      (Response × FactoryRoutes RequestHandlerFactory) where
  machine := storeMachine
  request := apiRequest parseRequest factoryOf rootOf
  reads input := input.2.method = "GET".toList
  step_of_reads := storeMachine_step_of_get
  admits := CrudStore.AdmitsAt
  inv world := Surrounds start (rootOf '' {path | dataPaths path}) world.disk
  part root world :=
    if root ∈ rootOf '' {path | dataPaths path} then world.disk.focus start root else start
  rel root disk store := root ∈ rootOf '' {path | dataPaths path} →
    ∀ place, disk.tree.node? (root ++ place) = store.image place
  shows outcome answer := answer.ShownBy (outcome.map Prod.fst)

/-- Every handler call by call: that of an API location as above, and the others in any way
that leaves the disk as it is. -/
structure CallByCall (env : Environment) (program : RequestHandlerFactory → Request → Response →
    Resumption World Fault (Bool × Response)) : Prop where
  api : ∀ location dataPath, program (.api location dataPath) = apiProgram env dataPath
  others : ∀ factory, (∀ location dataPath, factory ≠ .api location dataPath) →
    ∀ httpRequest httpResponse, (program factory httpRequest httpResponse).Guarantees
      fun world later => later.disk = world.disk

/-- The handlers of the server, where those that do not change the disk make one access. -/
def RequestHandlerFactory.program (env : Environment) :
    RequestHandlerFactory → Request → Response → Resumption World Fault (Bool × Response)
  | .api _ dataPath => apiProgram env dataPath
  | factory => fun httpRequest httpResponse =>
      .atomically (factory.create env httpRequest httpResponse).exec

/-- Undisturbed, each program is its handler. -/
theorem RequestHandlerFactory.exec_program (env : Environment) (factory : RequestHandlerFactory)
    (httpRequest : Request) (httpResponse : Response) (world : World) :
    (factory.program env httpRequest httpResponse).exec world =
      (factory.create env httpRequest httpResponse).exec world := by
  cases factory with
  | api location dataPath => exact exec_apiProgram env location dataPath _ _ _
  | _ => rfl

theorem callByCall_program (env : Environment) :
    CallByCall env (RequestHandlerFactory.program env) where
  api _ _ := rfl
  others factory hfactory httpRequest httpResponse := by
    cases factory with
    | api location dataPath => exact absurd rfl (hfactory location dataPath)
    | _ => exact Resumption.guarantees_atomically fun world =>
        RequestHandlerFactory.disk_exec_create env _ httpRequest httpResponse world hfactory

section Service

variable {parseRequest : Str → Option Request} {env : Environment}
  {factoryOf : Str → RequestHandlerFactory} {start : Disk} {dataPaths : Str → Prop}
  {rootOf : Str → List Str} {world : World} {requestString location dataPath : Str}
  {program : RequestHandlerFactory → Request → Response →
    Resumption World Fault (Bool × Response)}

theorem part_of_mem {root : List Str} (hroot : root ∈ rootOf '' {path | dataPaths path}) :
    (storeService parseRequest factoryOf start dataPaths rootOf).part root world =
      world.disk.focus start root :=
  if_pos hroot

/-- What a request for a data directory may change. -/
theorem spares_of_api {later : World}
    (hfactory : factoryOf requestString = .api location dataPath)
    (haside : Aside start (rootOf '' {path | dataPaths path}) (rootOf dataPath) world.disk
      later.disk)
    (hget : (parsedRequest parseRequest requestString).method = "GET".toList →
      later.disk = world.disk) :
    (storeService parseRequest factoryOf start dataPaths rootOf).Spares requestString world
      later := by
  intro root hwrites
  by_cases hroot : root ∈ rootOf '' {path | dataPaths path}
  · rw [part_of_mem hroot, part_of_mem hroot]
    rcases eq_or_ne root (rootOf dataPath) with rfl | hne
    · rw [hget]
      by_contra hmethod
      exact hwrites ⟨_, apiRequest_of_api hfactory, hmethod⟩
    · exact haside root hroot hne
  · exact (if_neg hroot).trans (if_neg hroot).symm

/-- Handlers do what the stores do, whatever the others do to other data directories. -/
theorem performed_processProgram (henv : ∀ k, (env.host k).Succeeds)
    (hstart : DataDirectories start dataPaths rootOf) (hprogram : CallByCall env program)
    (hroutes : ∀ requestString location dataPath,
      factoryOf requestString = .api location dataPath → dataPaths dataPath)
    {routes : FactoryRoutes RequestHandlerFactory} (hroute : ∀ requestString,
      routes.find? (matchedLocationPath parseRequest routes requestString) =
        some (some (factoryOf requestString))) :
    (storeService parseRequest factoryOf start dataPaths rootOf).Performed fun requestString =>
      processProgram parseRequest program routes requestString .empty := by
  intro stores requestString world hinv hadmits hrel
  beta_reduce
  rw [processProgram_of_find? program (hroute requestString)]
  by_cases hfactory : ∃ location dataPath, factoryOf requestString = .api location dataPath
  · obtain ⟨location, dataPath, hfactory⟩ := hfactory
    have hdata := hroutes requestString location dataPath hfactory
    have hroot := Set.mem_image_of_mem rootOf hdata
    have hrequest := @apiRequest_of_api parseRequest factoryOf rootOf requestString location
      dataPath hfactory
    have hpart : (storeService parseRequest factoryOf start dataPaths rootOf).part
        (rootOf dataPath) = fun world => world.disk.focus start (rootOf dataPath) :=
      funext fun _ => part_of_mem hroot
    have hstore := hadmits (rootOf dataPath) (location, parsedRequest parseRequest requestString)
      ((congrArg _ hrequest).trans (Machine.inputFor_self _ _))
    have hbelow := hrel (rootOf dataPath) ⟨_, hrequest⟩ hroot
    refine WorkPool.Service.works_of_request hrequest ?_
    rw [hpart] at hbelow ⊢
    rw [hfactory, hprogram.api]
    refine ((works_apiProgram hstart hdata hstore henv Response.empty hbelow).mono
      fun world later hlater => spares_of_api hfactory hlater.1 hlater.2).map ?_
    rintro result now ⟨⟨httpResponse, hreply, hshows⟩, hafter⟩
    refine ⟨fun _ => hafter, httpResponse, ?_, hshows⟩
    cases result with
    | error fault => cases hreply
    | ok answer => exact hreply
  · have hother : ∀ location dataPath, factoryOf requestString ≠ .api location dataPath :=
      fun location dataPath heq => hfactory ⟨location, dataPath, heq⟩
    refine WorkPool.Service.works_of_none (apiRequest_of_not_api hother)
      ((hprogram.others _ hother (parsedRequest parseRequest requestString) .empty).map _) ?_
    intro before later hbefore hsame
    simp only [storeService, hsame]
    exact ⟨hbefore, fun _ => trivial⟩

end Service

namespace Server

section Runs

variable {ι : Type} [DecidableEq ι] [Fintype ι] {parseRequest : Str → Option Request}
  {program : RequestHandlerFactory → Request → Response →
    Resumption World Fault (Bool × Response)}
  {config : NginxConfig} {filesystemMap : FilesystemMap} {env : Environment} {start : Disk}
  {rootOf : Str → List Str} {world : World} {stores : List Str → CrudStore}

/-- A server that runs on a config, with handlers whose accesses to the disk are mixed in
any way, and with requests to API locations of a single segment.  If the requests
for one data directory overlap only where all of them read, each data directory answers its
requests as a store on its own does, in the order in which their handlers were started; it
holds the image of its store whenever no handler at work writes there; and nothing else on
the disk ever changes. -/
theorem serialised_stores_of_run
    (hextract : config.extractFilesystemMap OrderedMap.empty = .ok filesystemMap)
    (hprogram : CallByCall env program) (henv : ∀ k, (env.host k).Succeeds)
    (hstart : DataDirectories start filesystemMap.UsesPath rootOf)
    (hholds : HoldsAll start (rootOf '' {path | filesystemMap.UsesPath path}) world.disk stores)
    {memory : Buffer} {events : List (Event ι)} {next : State ι RequestHandlerFactory World}
    (hrun : (system parseRequest program (createFactoryMap filesystemMap)).run
      (initial (createFactoryMap filesystemMap) memory world) events = some next)
    (horderly : WorkPool.Orderly (storeService parseRequest
        (factoryFor parseRequest filesystemMap) start filesystemMap.UsesPath rootOf).Conflict
      (poolHistory parseRequest program (createFactoryMap filesystemMap) memory world events))
    (hadmits : ∀ root, storeMachine.Guarded CrudStore.AdmitsAt (stores root)
      (requestsFor parseRequest (factoryFor parseRequest filesystemMap) rootOf root
        (WorkPool.jobs (poolHistory parseRequest program (createFactoryMap filesystemMap) memory
          world events)))) :
    let history :=
      poolHistory parseRequest program (createFactoryMap filesystemMap) memory world events
    let factoryOf := factoryFor parseRequest filesystemMap
    let requestsOf := fun root =>
      requestsFor parseRequest factoryOf rootOf root (WorkPool.jobs history)
    (∀ root, List.Forall₂
      (fun entry ideal => ∀ result, entry.result = some result →
        ideal.1.ShownBy (result.map Prod.fst))
      (Machine.answersFor root
        ((WorkPool.jobs history).map (apiRequest parseRequest factoryOf rootOf))
        (WorkPool.journal history))
      (storeMachine.trace (stores root) (requestsOf root))) ∧
    (∀ root ∈ rootOf '' {path | filesystemMap.UsesPath path},
      (∀ entry ∈ WorkPool.journal history, entry.Open →
        ¬ (storeService parseRequest factoryOf start filesystemMap.UsesPath rootOf).Writes
          entry.job root) →
      ∀ place, next.store.disk.tree.node? (root ++ place) =
        (storeMachine.final (stores root) (requestsOf root)).image place) ∧
    Surrounds start (rootOf '' {path | filesystemMap.UsesPath path}) next.store.disk := by
  intro history factoryOf requestsOf
  have hnormalised : filesystemMap.Normalised :=
    NginxConfig.normalised_extractFilesystemMap FilesystemMap.normalised_empty hextract
  have hroute := find?_matchedLocationPath_factoryFor hnormalised parseRequest
  have hsurrounds := hholds.surrounds hstart
  have hperformed := performed_processProgram henv hstart hprogram
    (fun _ _ _ => usesPath_of_factoryFor hnormalised) hroute
  obtain ⟨pool, hpool, hpooled⟩ := exists_pool_of_run (fun text => ⟨_, hroute text⟩) hrun
  have hguarded := (Machine.guarded_comap (apiRequest parseRequest factoryOf rootOf)
    storeMachine.family _ stores (WorkPool.jobs history)).mpr
      (storeMachine.family_guarded stores _ hadmits)
  have hrel : ∀ root ∈ rootOf '' {path | filesystemMap.UsesPath path}, ∀ place,
      (world.disk.focus start root).tree.node? (root ++ place) = (stores root).image place := by
    intro root hroot place
    rw [Disk.node?_focus_append]
    exact hholds.below root hroot place
  have hstores : ∀ root, (storeService parseRequest factoryOf start filesystemMap.UsesPath
      rootOf).rel root ((storeService parseRequest factoryOf start filesystemMap.UsesPath
        rootOf).part root world) (stores root) := by
    intro root hroot
    rw [part_of_mem hroot]
    exact hrel root hroot
  have hserial := WorkPool.Service.serial_of_run hperformed hsurrounds hstores hpool horderly
    hguarded
  refine ⟨fun root => ?_, fun root hroot hfree place => ?_, ?_⟩
  · have hshown := hserial.fits.imp fun entry ideal hfits answer hanswer result hresult =>
      hfits.shown result hresult answer hanswer
    rw [WorkPool.Service.family, Machine.trace_comap] at hshown
    exact storeMachine.forall₂_answersFor_trace stores _ root hshown
  · have hplace := hserial.rel root hfree hroot place
    rw [part_of_mem hroot, Disk.node?_focus_append, hpooled.store] at hplace
    have hfinal : (storeMachine.family.comap (apiRequest parseRequest factoryOf rootOf)).final
        stores (WorkPool.jobs history) root =
          storeMachine.final (stores root) (requestsOf root) := by
      rw [Machine.final_comap]
      exact storeMachine.family_final_apply stores _ root
    exact hplace.trans (congrArg (CrudStore.image · place) hfinal)
  · exact hpooled.store ▸ hserial.inv

end Runs

namespace ConcurrentServiceWitness

open HandlersWitness (env)
open ServerRunsWitness (turn)
open ServiceRunsWitness (postRead hatsRead)
open ServiceRefinementWitness

/-- Two threads serve a connection each, and take turns. -/
def events : List (Event Bool) :=
  [.accepted false 0 false, turn false, turn false, turn false,
    .accepted true 1 false, turn true, turn true, turn true,
    .received false 0 (some postRead), turn false,
    .received true 1 (some hatsRead), turn true,
    turn false, turn true, turn false, turn true, turn false, turn true, turn false, turn true,
    turn false, turn true, turn false, turn true, turn false, turn true]

def outcome : Option (State Bool RequestHandlerFactory World) :=
  (system parsePost (RequestHandlerFactory.program env) routes).run
    (initial routes SessionWitness.zeroed startWorld) events

theorem isSome_outcome : outcome.isSome = true := by decide +kernel

theorem jobs_events : WorkPool.jobs (poolHistory parsePost (RequestHandlerFactory.program env)
    routes SessionWitness.zeroed startWorld events) = [postText, hatsText] := by
  decide +kernel

theorem orderly_events : WorkPool.Orderly
    (storeService parsePost (factoryFor parsePost filesystemMap) disk filesystemMap.UsesPath
      rootOf).Conflict
    (poolHistory parsePost (RequestHandlerFactory.program env) routes SessionWitness.zeroed
      startWorld events) := by
  refine WorkPool.orderly_of_pairwise ?_
  rw [jobs_events, List.pairwise_pair]
  rintro ⟨root, ⟨_, hfirst⟩, ⟨_, hsecond⟩, -⟩
  cases apiRequest_postText.symm.trans hfirst
  cases apiRequest_hatsText.symm.trans hsecond

theorem admits_events (root : List Str) : storeMachine.Guarded CrudStore.AdmitsAt ∅
    (requestsFor parsePost (factoryFor parsePost filesystemMap) rootOf root
      (WorkPool.jobs (poolHistory parsePost (RequestHandlerFactory.program env) routes
        SessionWitness.zeroed startWorld events))) := by
  rw [jobs_events, requestsFor, List.map_cons, List.map_singleton, apiRequest_postText,
    apiRequest_hatsText, List.filterMap_cons, List.filterMap_cons,
    List.filterMap_nil]
  rcases eq_or_ne ["mnt".toList] root with rfl | hpost
  · exact ⟨admitsAt_post, trivial⟩
  · rw [Machine.inputFor, if_neg hpost]
    rcases eq_or_ne ["srv".toList] root with rfl | hhats
    · exact ⟨admitsAt_hats, trivial⟩
    · rw [Machine.inputFor, if_neg hhats]
      trivial

theorem serialised_stores_events :
    let history := poolHistory parsePost (RequestHandlerFactory.program env) routes
      SessionWitness.zeroed startWorld events
    let factoryOf := factoryFor parsePost filesystemMap
    let requestsOf := fun root =>
      requestsFor parsePost factoryOf rootOf root (WorkPool.jobs history)
    let next := outcome.get isSome_outcome
    (∀ root, List.Forall₂
      (fun entry ideal => ∀ result, entry.result = some result →
        ideal.1.ShownBy (result.map Prod.fst))
      (Machine.answersFor root
        ((WorkPool.jobs history).map (apiRequest parsePost factoryOf rootOf))
        (WorkPool.journal history))
      (storeMachine.trace ∅ (requestsOf root))) ∧
    (∀ root ∈ rootOf '' {path | filesystemMap.UsesPath path},
      (∀ entry ∈ WorkPool.journal history, entry.Open →
        ¬ (storeService parsePost factoryOf disk filesystemMap.UsesPath rootOf).Writes
          entry.job root) →
      ∀ place, next.store.disk.tree.node? (root ++ place) =
        (storeMachine.final ∅ (requestsOf root)).image place) ∧
    Surrounds disk (rootOf '' {path | filesystemMap.UsesPath path}) next.store.disk :=
  serialised_stores_of_run extractFilesystemMap_config (callByCall_program env)
    (fun _ => workingHost_succeeds) dataDirectories_disk (HoldsAll.empty dataDirectories_disk)
    (Option.some_get isSome_outcome).symm orderly_events admits_events

end ConcurrentServiceWitness

end Server

end SwanServer
