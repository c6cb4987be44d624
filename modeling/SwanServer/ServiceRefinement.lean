/-
All API locations of a server together.  However their requests are mixed with each
other and with those of other locations, each data directory holds the image of a store
of its own, and the rest of the disk stays as it was.
-/
import SwanServer.CrudRefinement
import SwanServer.Dispatch
import SwanServer.Handlers
import SwanServer.Segmentation

namespace SwanServer

open FileTree LexicalPath

namespace Disk

/-- The disk without what lies below a directory. -/
def emptied (disk : Disk) (root : List Str) : Disk :=
  { disk with tree := disk.tree.prune fun place => place = root ∨ ¬ root <+: place }

theorem node?_emptied (disk : Disk) (root place : List Str) :
    (disk.emptied root).tree.node? place =
      if place = root ∨ ¬ root <+: place then disk.tree.node? place else none := by
  rcases eq_or_ne place [] with rfl | hplace
  · have hroot : [] = root ∨ ¬ root <+: [] := by
      rw [List.prefix_nil, eq_comm]
      exact Classical.em _
    rw [if_pos hroot, Tree.node?_nil, Tree.node?_nil]
  · rw [emptied, Tree.node?_prune _ _ hplace]
    simp

end Disk

/-- The directories that API locations work in, with the directory of each path.  At the
start nothing lies below them. -/
def DataDirectories (start : Disk) (dataPaths : Str → Prop) (rootOf : Str → List Str) : Prop :=
  ∀ dataPath, dataPaths dataPath → EmptyDirectory start dataPath (rootOf dataPath)

/-- The disk is `start` with the image of a store in each data directory. -/
structure HoldsAll (start : Disk) (roots : Set (List Str)) (disk : Disk)
    (stores : List Str → CrudStore) : Prop where
  cwd : disk.cwd = start.cwd
  below : ∀ root ∈ roots, ∀ place, disk.tree.node? (root ++ place) = (stores root).image place
  outside : ∀ place, (∀ root ∈ roots, ¬ root <+: place) →
    disk.tree.node? place = start.tree.node? place

section Directories

variable {start disk later : Disk} {dataPaths : Str → Prop} {rootOf : Str → List Str}
  {stores : List Str → CrudStore} {dataPath : Str} {root other : List Str}

/-- No data directory lies in another one. -/
theorem DataDirectories.eq_of_nested (hstart : DataDirectories start dataPaths rootOf)
    (hroot : root ∈ rootOf '' {path | dataPaths path})
    (hother : other ∈ rootOf '' {path | dataPaths path}) (hstarts : root <+: other) :
    root = other := by
  obtain ⟨first, hfirst, rfl⟩ := hroot
  obtain ⟨second, hsecond, rfl⟩ := hother
  obtain ⟨rest, hrest⟩ := hstarts
  by_contra hne
  have hnil : rest ≠ [] := by
    rintro rfl
    exact hne (by rw [← hrest, List.append_nil])
  have hdirectory := (hstart second hsecond).directory
  rw [Tree.isDirectory_iff, ← hrest, (hstart first hfirst).empty rest hnil] at hdirectory
  contradiction

theorem DataDirectories.eq_of_common_place (hstart : DataDirectories start dataPaths rootOf)
    (hroot : root ∈ rootOf '' {path | dataPaths path})
    (hother : other ∈ rootOf '' {path | dataPaths path}) {place : List Str}
    (hstarts : root <+: place) (hstarts' : other <+: place) : root = other := by
  rcases List.prefix_or_prefix_of_prefix hstarts hstarts' with h | h
  · exact hstart.eq_of_nested hroot hother h
  · exact (hstart.eq_of_nested hother hroot h).symm

theorem HoldsAll.empty (hstart : DataDirectories start dataPaths rootOf) :
    HoldsAll start (rootOf '' {path | dataPaths path}) start fun _ => ∅ := by
  refine ⟨rfl, ?_, fun _ _ => rfl⟩
  rintro _ ⟨dataPath, hdata, rfl⟩
  exact (Holds.empty (hstart dataPath hdata)).below

namespace HoldsAll

variable (hstart : DataDirectories start dataPaths rootOf)
  (hholds : HoldsAll start (rootOf '' {path | dataPaths path}) disk stores)

include hstart hholds

/-- Directories of the start are not removed. -/
theorem extends_start : Disk.Extends start disk := by
  refine ⟨hholds.cwd, ?_⟩
  intro place hplace
  rw [Tree.isDirectory_iff] at hplace ⊢
  by_cases houtside : ∀ root ∈ rootOf '' {path | dataPaths path}, ¬ root <+: place
  · rw [hholds.outside place houtside, hplace]
  · push Not at houtside
    obtain ⟨_, ⟨dataPath, hdata, rfl⟩, rest, rfl⟩ := houtside
    have hrest : rest = [] := by
      by_contra hne
      rw [(hstart dataPath hdata).empty rest hne] at hplace
      contradiction
    subst hrest
    exact hholds.below _ (Set.mem_image_of_mem rootOf hdata) []

variable (hdata : dataPaths dataPath)

include hdata

/-- One of the data directories, taken as if the rest of the disk had always been there,
by any path that leads to it. -/
theorem emptyDirectory_of_resolve {path : Str}
    (hpath : start.resolve path = some (rootOf dataPath)) :
    EmptyDirectory (disk.emptied (rootOf dataPath)) path (rootOf dataPath) := by
  have hroot : rootOf dataPath ∈ rootOf '' {path | dataPaths path} :=
    Set.mem_image_of_mem rootOf hdata
  have hextends : Disk.Extends start (disk.emptied (rootOf dataPath)) := by
    refine ⟨hholds.cwd, ?_⟩
    intro place hplace
    have hdisk := (hholds.extends_start hstart).directory hplace
    rw [Tree.isDirectory_iff] at hplace hdisk ⊢
    rw [Disk.node?_emptied, if_pos, hdisk]
    by_contra hbelow
    push Not at hbelow
    obtain ⟨hne, rest, rfl⟩ := hbelow
    rw [(hstart dataPath hdata).empty rest (by simpa using hne)] at hplace
    contradiction
  refine ⟨hextends.resolve hpath, hextends.directory (hstart dataPath hdata).directory, ?_⟩
  intro rest hrest
  rw [Disk.node?_emptied, if_neg]
  simp [hrest]

theorem emptyDirectory : EmptyDirectory (disk.emptied (rootOf dataPath)) dataPath
    (rootOf dataPath) :=
  hholds.emptyDirectory_of_resolve hstart hdata (hstart dataPath hdata).resolve

omit hstart in
theorem holds : Holds (disk.emptied (rootOf dataPath)) (rootOf dataPath) disk
    (stores (rootOf dataPath)) := by
  refine ⟨rfl, hholds.below _ (Set.mem_image_of_mem rootOf hdata), ?_⟩
  intro place hplace
  rw [Disk.node?_emptied, if_pos (.inr hplace)]

/-- A change of one store leaves the others alone. -/
theorem update {store : CrudStore}
    (hlater : Holds (disk.emptied (rootOf dataPath)) (rootOf dataPath) later store) :
    HoldsAll start (rootOf '' {path | dataPaths path}) later
      (Function.update stores (rootOf dataPath) store) := by
  have hroot : rootOf dataPath ∈ rootOf '' {path | dataPaths path} :=
    Set.mem_image_of_mem rootOf hdata
  have hsame : ∀ place, ¬ rootOf dataPath <+: place →
      later.tree.node? place = disk.tree.node? place := by
    intro place hplace
    rw [hlater.outside place hplace, Disk.node?_emptied, if_pos (.inr hplace)]
  refine ⟨hlater.cwd.trans hholds.cwd, ?_, ?_⟩
  · intro other hother place
    rcases eq_or_ne other (rootOf dataPath) with rfl | hne
    · rw [Function.update_self]
      exact hlater.below place
    · rw [Function.update_of_ne hne, hsame _ ?_]
      · exact hholds.below other hother place
      · intro hstarts
        exact hne (hstart.eq_of_common_place hother hroot (List.prefix_append other place)
          hstarts)
  · intro place hplace
    rw [hsame place (hplace _ hroot)]
    exact hholds.outside place hplace

end HoldsAll

end Directories

/-- The factory that a request text is handed to. -/
def factoryFor (parseRequest : Str → Option Request) (filesystemMap : FilesystemMap)
    (requestString : Str) : RequestHandlerFactory :=
  ((createFactoryMap filesystemMap).find?
    (matchedLocationPath parseRequest (createFactoryMap filesystemMap) requestString)).join.getD
      .error

theorem find?_matchedLocationPath_factoryFor {filesystemMap : FilesystemMap}
    (hnormalised : filesystemMap.Normalised) (parseRequest : Str → Option Request)
    (requestString : Str) :
    (createFactoryMap filesystemMap).find?
      (matchedLocationPath parseRequest (createFactoryMap filesystemMap) requestString) =
        some (some (factoryFor parseRequest filesystemMap requestString)) := by
  obtain ⟨factory, hfactory⟩ :=
    exists_find?_matchedLocationPath hnormalised parseRequest requestString
  rw [factoryFor, hfactory]
  rfl

/-- The paths that the API locations of a config work in. -/
def FilesystemMap.UsesPath (filesystemMap : FilesystemMap) (dataPath : Str) : Prop :=
  ∃ location, (filesystemMap.at LocationKind.api.handlerType).find? location = some dataPath

theorem usesPath_of_factoryFor {filesystemMap : FilesystemMap}
    (hnormalised : filesystemMap.Normalised) {parseRequest : Str → Option Request}
    {requestString location dataPath : Str}
    (hfactory : factoryFor parseRequest filesystemMap requestString = .api location dataPath) :
    filesystemMap.UsesPath dataPath := by
  have hroute := find?_matchedLocationPath_factoryFor hnormalised parseRequest requestString
  rw [hfactory, find?_createFactoryMap, Option.or_eq_some_iff, Option.or_eq_some_iff] at hroute
  rcases hroute with (hbuiltIn | ⟨-, hstatic⟩) | ⟨-, hapi⟩
  · have hmem : RequestHandlerFactory.api location dataPath ∈
        builtInRoutes.filterMap Prod.snd :=
      List.mem_filterMap.mpr ⟨_, OrderedMap.mem_of_firstValue? hbuiltIn, rfl⟩
    simp [builtInRoutes] at hmem
  · obtain ⟨root, -, heq⟩ := Option.map_eq_some_iff.mp hstatic
    cases heq
  · obtain ⟨root, hroot, heq⟩ := Option.map_eq_some_iff.mp hapi
    cases heq
    exact ⟨_, hroot⟩

/-- The directory that a request text is for, and its location and its request, where the
location is an API location. -/
def apiRequest (parseRequest : Str → Option Request) (factoryOf : Str → RequestHandlerFactory)
    (rootOf : Str → List Str) (requestString : Str) : Option (List Str × Str × Request) :=
  match factoryOf requestString with
  | .api location dataPath =>
      some (rootOf dataPath, location, parsedRequest parseRequest requestString)
  | _ => none

/-- The store of one data directory, whose requests come to any of its locations. -/
def storeMachine : Machine CrudStore (Str × Request) Answer :=
  crudMachine.comap fun input => Operation.ofRequestAt input.1 input.2

/-- The response says what the store answers. -/
def Answer.ShownBy (outcome : Except Fault Response) (answer : Answer) : Prop :=
  ∃ httpResponse, outcome = .ok httpResponse ∧ answer.Shows httpResponse

section Requests

variable {parseRequest : Str → Option Request} {env : Environment}
  {factoryOf : Str → RequestHandlerFactory} {start : Disk} {dataPaths : Str → Prop}
  {rootOf : Str → List Str} {world : World} {stores : List Str → CrudStore} {requestString : Str}

theorem apiRequest_of_api {location dataPath : Str}
    (hfactory : factoryOf requestString = .api location dataPath) :
    apiRequest parseRequest factoryOf rootOf requestString =
      some (rootOf dataPath, location, parsedRequest parseRequest requestString) := by
  rw [apiRequest, hfactory]

theorem apiRequest_of_not_api
    (hfactory : ∀ location dataPath, factoryOf requestString ≠ .api location dataPath) :
    apiRequest parseRequest factoryOf rootOf requestString = none := by
  rw [apiRequest]
  cases hcase : factoryOf requestString with
  | api location dataPath => exact absurd hcase (hfactory location dataPath)
  | _ => rfl

/-- A request to an API location is a step of its store. -/
theorem performs_step_of_api (henv : ∀ k, (env.host k).Succeeds)
    (hstart : DataDirectories start dataPaths rootOf)
    (hholds : HoldsAll start (rootOf '' {path | dataPaths path}) world.disk stores)
    {location dataPath : Str} (hfactory : factoryOf requestString = .api location dataPath)
    (hdata : dataPaths dataPath)
    (hadmits : (stores (rootOf dataPath)).AdmitsAt
      (location, parsedRequest parseRequest requestString)) :
    let real := (handlerMachine parseRequest (RequestHandlerFactory.create env) factoryOf).step
      world requestString
    let ideal := storeMachine.step (stores (rootOf dataPath))
      (location, parsedRequest parseRequest requestString)
    ideal.1.ShownBy real.1 ∧ HoldsAll start (rootOf '' {path | dataPaths path}) real.2.disk
      (Function.update stores (rootOf dataPath) ideal.2) := by
  obtain ⟨⟨reply, hreply, hshows⟩, hlater⟩ := ApiHandler.performs_handleRequest
    (henv world.handled) location (hholds.emptyDirectory hstart hdata) (hholds.holds hdata)
    hadmits.request Response.empty
  rw [← Operation.ofRequestAt_of_length hadmits.location] at hshows hlater
  simp only [handlerMachine, hfactory, RequestHandlerFactory.exec_create,
    RequestHandlerFactory.exec_createAt_api]
  exact ⟨⟨reply.2, congrArg (Except.map Prod.snd) hreply, hshows⟩,
    hholds.update hstart hdata hlater⟩

/-- The server as a whole does what the stores of its data directories do. -/
theorem simulates_stores (henv : ∀ k, (env.host k).Succeeds)
    (hstart : DataDirectories start dataPaths rootOf)
    (hroutes : ∀ requestString location dataPath,
      factoryOf requestString = .api location dataPath → dataPaths dataPath) :
    Machine.Simulates (handlerMachine parseRequest (RequestHandlerFactory.create env) factoryOf)
      (storeMachine.family.comap (apiRequest parseRequest factoryOf rootOf))
      (fun stores requestString => ∀ root input,
        Machine.inputFor root (apiRequest parseRequest factoryOf rootOf requestString) =
          some input → (stores root).AdmitsAt input)
      (fun world => HoldsAll start (rootOf '' {path | dataPaths path}) world.disk)
      (fun outcome ideal => ∀ answer, ideal = some answer → answer.ShownBy outcome) := by
  have hstep : ∀ (world : World) (stores : List Str → CrudStore) (requestString : Str),
      HoldsAll start (rootOf '' {path | dataPaths path}) world.disk stores →
      (∀ root input,
        Machine.inputFor root (apiRequest parseRequest factoryOf rootOf requestString) =
          some input → (stores root).AdmitsAt input) →
      let real := (handlerMachine parseRequest (RequestHandlerFactory.create env)
        factoryOf).step world requestString
      let ideal := (storeMachine.family.comap (apiRequest parseRequest factoryOf rootOf)).step
        stores requestString
      (∀ answer, ideal.1 = some answer → answer.ShownBy real.1) ∧
        HoldsAll start (rootOf '' {path | dataPaths path}) real.2.disk ideal.2 := by
    intro world stores requestString hholds hadmits
    by_cases hfactory : ∃ location dataPath, factoryOf requestString = .api location dataPath
    · obtain ⟨location, dataPath, heq⟩ := hfactory
      have hinput := Machine.inputFor_self (rootOf dataPath)
        (location, parsedRequest parseRequest requestString)
      rw [apiRequest_of_api heq] at hadmits
      obtain ⟨hshown, hlater⟩ := performs_step_of_api henv hstart hholds heq
        (hroutes requestString location dataPath heq) (hadmits _ _ hinput)
      simp only [Machine.comap_step, apiRequest_of_api heq]
      refine ⟨?_, hlater⟩
      rintro _ ⟨⟩
      exact hshown
    · have hother : ∀ location dataPath, factoryOf requestString ≠ .api location dataPath :=
        fun location dataPath heq => hfactory ⟨location, dataPath, heq⟩
      simp only [Machine.comap_step, apiRequest_of_not_api hother]
      refine ⟨?_, ?_⟩
      · rintro _ ⟨⟩
      · rw [handlerMachine, RequestHandlerFactory.disk_exec_create env _ _ _ _ hother]
        exact hholds
  exact ⟨fun hholds hadmits => (hstep _ _ _ hholds hadmits).1,
    fun hholds hadmits => (hstep _ _ _ hholds hadmits).2⟩

/-- The requests for one data directory among the request texts, with their locations. -/
def requestsFor (parseRequest : Str → Option Request) (factoryOf : Str → RequestHandlerFactory)
    (rootOf : Str → List Str) (root : List Str) (requestStrings : List Str) :
    List (Str × Request) :=
  (requestStrings.map (apiRequest parseRequest factoryOf rootOf)).filterMap
    (Machine.inputFor root)

/-- The answers among all that were given to the requests for one data directory. -/
def outcomesFor (parseRequest : Str → Option Request)
    (factoryOf : Str → RequestHandlerFactory) (rootOf : Str → List Str) (root : List Str)
    (requestStrings : List Str) (outcomes : List (Except Fault Response)) :
    List (Except Fault Response) :=
  Machine.answersFor root (requestStrings.map (apiRequest parseRequest factoryOf rootOf)) outcomes

/-- However requests are mixed, each data directory answers its own as a store on its own
does, in their order, and the disk holds the images of these stores and is otherwise as at
the start. -/
theorem handlerMachine_refines_stores (henv : ∀ k, (env.host k).Succeeds)
    (hstart : DataDirectories start dataPaths rootOf)
    (hroutes : ∀ requestString location dataPath,
      factoryOf requestString = .api location dataPath → dataPaths dataPath)
    (hholds : HoldsAll start (rootOf '' {path | dataPaths path}) world.disk stores)
    (requestStrings : List Str)
    (hadmits : ∀ root, storeMachine.Guarded CrudStore.AdmitsAt (stores root)
      (requestsFor parseRequest factoryOf rootOf root requestStrings)) :
    let M := handlerMachine parseRequest (RequestHandlerFactory.create env) factoryOf
    (∀ root, List.Forall₂ (fun outcome ideal => ideal.1.ShownBy outcome)
      (outcomesFor parseRequest factoryOf rootOf root requestStrings
        ((M.trace world requestStrings).map Prod.fst))
      (storeMachine.trace (stores root)
        (requestsFor parseRequest factoryOf rootOf root requestStrings))) ∧
      HoldsAll start (rootOf '' {path | dataPaths path}) (M.final world requestStrings).disk
        fun root => storeMachine.final (stores root)
          (requestsFor parseRequest factoryOf rootOf root requestStrings) := by
  have hsim := @simulates_stores parseRequest env factoryOf start dataPaths rootOf henv hstart
    hroutes
  have hguarded := (Machine.guarded_comap (apiRequest parseRequest factoryOf rootOf)
    storeMachine.family _ stores requestStrings).mpr
      (storeMachine.family_guarded stores _ hadmits)
  constructor
  · intro root
    have htrace := (hsim.trace requestStrings hholds hguarded).imp fun _ _ h => h.1
    rw [Machine.trace_comap] at htrace
    exact storeMachine.forall₂_answersFor_trace stores _ root
      (List.forall₂_map_left_iff.mpr htrace)
  · have hfinal := hsim.final requestStrings hholds hguarded
    rw [Machine.final_comap] at hfinal
    have hstores : storeMachine.family.final stores
        (requestStrings.map (apiRequest parseRequest factoryOf rootOf)) = fun root =>
          storeMachine.final (stores root)
            (requestsFor parseRequest factoryOf rootOf root requestStrings) :=
      funext fun root => storeMachine.family_final_apply stores _ root
    rwa [hstores] at hfinal

end Requests

namespace ServiceRefinementWitness

open SegmentationWitness CrudRefinementWitness

def postText : Str :=
  "POST /api/shoes HTTP/1.1\r\nContent-Length: 3\r\n\r\nred".toList

def hatsText : Str :=
  "POST /shop/hats HTTP/1.1\r\nContent-Length: 4\r\n\r\nblue".toList

def hatsRequest : Request := ⟨"POST".toList, "/shop/hats".toList, "blue".toList⟩

def shoesText : Str := getText "/api/shoes/1".toList

def shoesRequest : Request := ⟨"GET".toList, "/api/shoes/1".toList, []⟩

/-- A parser that knows these requests as well. -/
def parsePost (text : Str) : Option Request :=
  if text = postText then some postRequest
  else if text = hatsText then some hatsRequest
  else parseGet text

def shopPath : Str := "./srv/".toList

/-- Two API locations. -/
def config : NginxConfig :=
  [.mk ["server".toList] (some
    [.mk ["location".toList, "/api".toList, "ApiHandler".toList] (some
        [.mk ["root".toList, DataDirectoryWitness.dataPath] none]),
      .mk ["location".toList, "/shop".toList, "ApiHandler".toList] (some
        [.mk ["root".toList, shopPath] none])])]

def filesystemMap : FilesystemMap :=
  (FilesystemMap.insertLocation OrderedMap.empty "ApiHandler".toList "/api/".toList
    DataDirectoryWitness.dataPath).insertLocation "ApiHandler".toList "/shop/".toList shopPath

theorem extractFilesystemMap_config :
    config.extractFilesystemMap OrderedMap.empty = .ok filesystemMap := rfl

/-- An empty directory for each location. -/
def disk : Disk :=
  ⟨((⟨∅⟩ : Tree Str Str).put ["mnt".toList] .directory).put ["srv".toList] .directory, []⟩

def rootOf (dataPath : Str) : List Str :=
  if dataPath = shopPath then ["srv".toList] else ["mnt".toList]

theorem dataDirectories_disk : DataDirectories disk filesystemMap.UsesPath rootOf := by
  have hempty : ∀ name rest, rest ≠ [] → disk.tree.node? (name :: rest) = none := by
    intro name rest hrest
    rw [disk, Tree.node?_put _ (by simp), if_neg (by simp [hrest]), Tree.node?_put _ (by simp),
      if_neg (by simp [hrest])]
    rfl
  rintro dataPath ⟨location, hlocation⟩
  rw [filesystemMap, FilesystemMap.at_insertLocation, if_pos (by decide),
    OrderedMap.find?_insert] at hlocation
  split at hlocation
  · cases hlocation
    exact ⟨by decide, by decide, hempty _⟩
  · rw [FilesystemMap.at_insertLocation, if_pos (by decide), OrderedMap.find?_insert] at hlocation
    split at hlocation
    · cases hlocation
      exact ⟨by decide, by decide, hempty _⟩
    · cases hlocation

def startWorld : World := ⟨disk, 0, 0⟩

def routes : FactoryRoutes RequestHandlerFactory := createFactoryMap filesystemMap

theorem apiRequest_postText :
    apiRequest parsePost (factoryFor parsePost filesystemMap) rootOf postText =
      some (["mnt".toList], "/api/".toList, postRequest) := by
  rfl

theorem apiRequest_hatsText :
    apiRequest parsePost (factoryFor parsePost filesystemMap) rootOf hatsText =
      some (["srv".toList], "/shop/".toList, hatsRequest) := by
  rfl

theorem apiRequest_shoesText :
    apiRequest parsePost (factoryFor parsePost filesystemMap) rootOf shoesText =
      some (["mnt".toList], "/api/".toList, shoesRequest) := by
  rfl

theorem admitsAt_post : (∅ : CrudStore).AdmitsAt ("/api/".toList, postRequest) :=
  ⟨rfl, admits_post rfl⟩

theorem admitsAt_hats : (∅ : CrudStore).AdmitsAt ("/shop/".toList, hatsRequest) := by
  have hbehind : behindLocation hatsRequest.target = ["hats".toList] := rfl
  refine ⟨rfl, ⟨_, _, hbehind, by decide⟩, by decide, ?_⟩
  rintro - entity - id hid
  cases hid

theorem admitsAt_shoes (store : CrudStore) : store.AdmitsAt ("/api/".toList, shoesRequest) := by
  have hbehind : behindLocation shoesRequest.target = ["shoes".toList, "1".toList] := rfl
  exact ⟨rfl, ⟨_, _, hbehind, by decide⟩, by decide, fun h => absurd h (by decide)⟩

/-- Requests to both locations are admitted. -/
theorem admits_texts (root : List Str) : storeMachine.Guarded CrudStore.AdmitsAt ∅
    (requestsFor parsePost (factoryFor parsePost filesystemMap) rootOf root
      [postText, hatsText, shoesText]) := by
  simp only [requestsFor, List.map_cons, List.map_nil, apiRequest_postText, apiRequest_hatsText,
    apiRequest_shoesText, List.filterMap_cons, List.filterMap_nil]
  rcases eq_or_ne ["mnt".toList] root with rfl | hmnt
  · exact ⟨admitsAt_post, admitsAt_shoes _, trivial⟩
  · simp only [Machine.inputFor, if_neg hmnt]
    rcases eq_or_ne ["srv".toList] root with rfl | hsrv
    · exact ⟨admitsAt_hats, trivial⟩
    · rw [if_neg hsrv]
      trivial

end ServiceRefinementWitness

end SwanServer
