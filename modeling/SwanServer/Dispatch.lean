/-
Which factory answers a request.  Over any sequence of requests the route table
of a config stays as it is, and the lookup never meets a missing location.
-/
import SwanServer.FactoryMap
import SwanServer.LongestPrefix
import SwanServer.Machine

namespace SwanServer

/-- The factory that a request text belongs to: the one for bad requests if the
text does not parse, else the one at the longest location that is a prefix of
the target, else the one at `/`.  `view` is what counts of the target. -/
inductive BelongsTo {φ : Type} (view : Str → Str) (parseRequest : Str → Option Request)
    (factoryRoutes : FactoryRoutes φ) (requestString : Str) (factory : φ) : Prop where
  | badRequest (hparse : parseRequest requestString = none)
      (hroute : factoryRoutes.find? "bad request".toList = some (some factory))
  | longest {httpRequest : Request} {location : Str}
      (hparse : parseRequest requestString = some httpRequest)
      (hlongest : IsLongestPrefix factoryRoutes.keys (view httpRequest.target) location)
      (hroute : factoryRoutes.find? location = some (some factory))
  | default {httpRequest : Request} (hparse : parseRequest requestString = some httpRequest)
      (hnone : ∀ location ∈ factoryRoutes.keys, ¬ location <+: view httpRequest.target)
      (hroute : factoryRoutes.find? "/".toList = some (some factory))

/-- One delegate that is asked again and again.  A fault of a handler leaves the
table as the lookup left it. -/
def delegateMachine {φ σ : Type} (parseRequest : Str → Option Request)
    (create : φ → HandleRequest σ) :
    Machine (FactoryRoutes φ × σ) Str (Except Fault Response) where
  step state requestString :=
    match (processRequest parseRequest create state.1 requestString Response.empty).exec
        state.2 with
    | (.ok (httpResponse, factoryRoutes), store) => (.ok httpResponse, factoryRoutes, store)
    | (.error fault, store) =>
        (.error fault,
          (state.1.getOrInsert (matchedLocationPath parseRequest state.1 requestString)
            none).2, store)

/-- Every request is handled by the factory that is chosen for it. -/
def handlerMachine {φ σ : Type} (parseRequest : Str → Option Request)
    (create : φ → HandleRequest σ) (factoryOf : Str → φ) :
    Machine σ Str (Except Fault Response) where
  step store requestString :=
    let result := (create (factoryOf requestString)
      (parsedRequest parseRequest requestString) Response.empty).exec store
    (result.1.map Prod.snd, result.2)

section Delegate

variable {φ σ : Type} {parseRequest : Str → Option Request} {create : φ → HandleRequest σ}
  {factoryRoutes : FactoryRoutes φ} {requestString : Str} {factory : φ}

theorem longestPrefixMatching_eq (factoryRoutes : FactoryRoutes φ) (uri : Str) :
    longestPrefixMatching factoryRoutes uri =
      (factoryRoutes.keys.foldl (LongestPrefix.better uri) ("/".toList, 0)).1 := by
  rw [OrderedMap.keys, List.foldl_map]
  rfl

/-- The factory that the lookup finds is the one that the request belongs to. -/
theorem belongsTo_of_find? (hkeys : [] ∉ factoryRoutes.keys)
    (hroute : factoryRoutes.find?
      (matchedLocationPath parseRequest factoryRoutes requestString) = some (some factory)) :
    BelongsTo cStr parseRequest factoryRoutes requestString factory := by
  rw [matchedLocationPath] at hroute
  cases hparse : parseRequest requestString with
  | none =>
      rw [hparse] at hroute
      exact .badRequest hparse hroute
  | some httpRequest =>
      simp only [hparse, longestPrefixMatching_eq] at hroute
      rcases LongestPrefix.foldl_better_zero hkeys (cStr httpRequest.target) "/".toList with
        hlongest | ⟨hnone, hdefault⟩
      · exact .longest hparse hlongest hroute
      · exact .default hparse hnone (hdefault ▸ hroute)

/-- A request belongs to one factory at most. -/
theorem BelongsTo.unique {view : Str → Str} {other : φ}
    (hfactory : BelongsTo view parseRequest factoryRoutes requestString factory)
    (hother : BelongsTo view parseRequest factoryRoutes requestString other) :
    other = factory := by
  have hvalue : ∀ {location location' : Str}, location' = location →
      factoryRoutes.find? location = some (some factory) →
        factoryRoutes.find? location' = some (some other) → other = factory := by
    rintro location _ rfl hroute hroute'
    rw [hroute] at hroute'
    cases hroute'
    rfl
  cases hfactory with
  | badRequest hparse hroute =>
      cases hother with
      | badRequest hparse' hroute' => exact hvalue rfl hroute hroute'
      | longest hparse' => cases hparse.symm.trans hparse'
      | default hparse' => cases hparse.symm.trans hparse'
  | longest hparse hlongest hroute =>
      cases hother with
      | badRequest hparse' => cases hparse.symm.trans hparse'
      | longest hparse' hlongest' hroute' =>
          cases hparse.symm.trans hparse'
          exact hvalue (hlongest.unique hlongest') hroute hroute'
      | default hparse' hnone' =>
          cases hparse.symm.trans hparse'
          exact absurd hlongest.starts (hnone' _ hlongest.mem)
  | default hparse hnone hroute =>
      cases hother with
      | badRequest hparse' => cases hparse.symm.trans hparse'
      | longest hparse' hlongest' =>
          cases hparse.symm.trans hparse'
          exact absurd hlongest'.starts (hnone _ hlongest'.mem)
      | default hparse' hnone' hroute' => exact hvalue rfl hroute hroute'

/-- A request whose lookup finds a factory is handled by it, and nothing is added
to the table. -/
theorem delegateMachine_step (hroute : factoryRoutes.find?
      (matchedLocationPath parseRequest factoryRoutes requestString) = some (some factory))
    {factoryOf : Str → φ} (hfactory : factoryOf requestString = factory) (store : σ) :
    (delegateMachine parseRequest create).step (factoryRoutes, store) requestString =
      let result := (handlerMachine parseRequest create factoryOf).step store requestString
      (result.1, factoryRoutes, result.2) := by
  have hlookup := OrderedMap.getOrInsert_of_find? hroute none
  have hprocess : processRequest parseRequest create factoryRoutes requestString
      Response.empty = create factory (parsedRequest parseRequest requestString)
        Response.empty >>= fun answer => pure (answer.2, factoryRoutes) := by
    rw [processRequest, hlookup]
  simp only [delegateMachine, handlerMachine, hprocess, hlookup, hfactory, Act.exec_bind]
  cases (create factory (parsedRequest parseRequest requestString)
    Response.empty).exec store with
  | mk result later => cases result <;> rfl

/-- The same for a whole run. -/
theorem trace_delegateMachine {factoryOf : Str → φ}
    (hroute : ∀ requestString, factoryRoutes.find?
      (matchedLocationPath parseRequest factoryRoutes requestString) =
        some (some (factoryOf requestString)))
    (store : σ) (requestStrings : List Str) :
    (delegateMachine parseRequest create).trace (factoryRoutes, store) requestStrings =
      ((handlerMachine parseRequest create factoryOf).trace store requestStrings).map
        fun result => (result.1, factoryRoutes, result.2) := by
  induction requestStrings generalizing store with
  | nil => rfl
  | cons requestString rest ih =>
      rw [Machine.trace_cons, Machine.trace_cons, List.map_cons,
        delegateMachine_step (hroute requestString) rfl, ih]

end Delegate

section RouteTable

variable {filesystemMap : FilesystemMap}

/-- No factory of the table is null. -/
theorem find?_createFactoryMap_ne_none (filesystemMap : FilesystemMap) (location : Str) :
    (createFactoryMap filesystemMap).find? location ≠ some none := by
  have hroutes : ∀ route ∈ builtInRoutes, route.2 ≠ none := by decide
  rw [find?_createFactoryMap]
  cases hbuiltIn : OrderedMap.firstValue? location builtInRoutes with
  | some factory =>
      have hne := hroutes _ (OrderedMap.mem_of_firstValue? hbuiltIn)
      simpa using hne
  | none =>
      cases (filesystemMap.at LocationKind.static.handlerType).find? location with
      | some root => simp
      | none =>
          cases (filesystemMap.at LocationKind.api.handlerType).find? location <;> simp

theorem find?_createFactoryMap_builtIn (filesystemMap : FilesystemMap) {location : Str}
    {factory : RequestHandlerFactory}
    (hroute : OrderedMap.firstValue? location builtInRoutes = some (some factory)) :
    (createFactoryMap filesystemMap).find? location = some (some factory) := by
  rw [find?_createFactoryMap, hroute]
  rfl

/-- No location of the table is empty. -/
theorem nil_not_mem_keys_createFactoryMap (hnormalised : filesystemMap.Normalised) :
    [] ∉ (createFactoryMap filesystemMap).keys := by
  have hlocations : ∀ handlerType, (filesystemMap.at handlerType).find? [] = none := by
    intro handlerType
    rw [Option.eq_none_iff_forall_not_mem]
    intro root hroot
    obtain ⟨token, htoken⟩ := hnormalised handlerType [] root hroot
    have hlast := getLast?_handleTrailingSlashes token
    rw [← htoken] at hlast
    cases hlast
  rw [OrderedMap.mem_keys, find?_createFactoryMap, hlocations, hlocations]
  rintro ⟨factory, hfactory⟩
  cases hfactory

/-- Every request text has a factory in the table of a config. -/
theorem exists_find?_matchedLocationPath (hnormalised : filesystemMap.Normalised)
    (parseRequest : Str → Option Request) (requestString : Str) :
    ∃ factory, (createFactoryMap filesystemMap).find?
      (matchedLocationPath parseRequest (createFactoryMap filesystemMap) requestString) =
        some (some factory) := by
  have hnull := find?_createFactoryMap_ne_none filesystemMap
  rw [matchedLocationPath]
  cases parseRequest requestString with
  | none => exact ⟨_, find?_createFactoryMap_builtIn filesystemMap rfl⟩
  | some httpRequest =>
      simp only [longestPrefixMatching_eq]
      rcases LongestPrefix.foldl_better_zero (nil_not_mem_keys_createFactoryMap hnormalised)
        (cStr httpRequest.target) "/".toList with hlongest | ⟨-, hdefault⟩
      · obtain ⟨value, hvalue⟩ := (OrderedMap.mem_keys _ _).mp hlongest.mem
        cases value with
        | none => exact absurd hvalue (hnull _)
        | some factory => exact ⟨factory, hvalue⟩
      · rw [hdefault]
        exact ⟨_, find?_createFactoryMap_builtIn filesystemMap rfl⟩

end RouteTable

/-- Each request text belongs to one factory, and in any sequence of requests
each is handled by the factory that it belongs to, from the same table. -/
def Dispatches (view : Str → Str) (parseRequest : Str → Option Request)
    (filesystemMap : FilesystemMap) : Prop :=
  ∃ factoryOf : Str → RequestHandlerFactory,
    (∀ requestString factory,
      BelongsTo view parseRequest (createFactoryMap filesystemMap) requestString factory ↔
        factory = factoryOf requestString) ∧
    ∀ {σ : Type} (create : RequestHandlerFactory → HandleRequest σ) (store : σ)
      (requestStrings : List Str),
      (delegateMachine parseRequest create).trace
          (createFactoryMap filesystemMap, store) requestStrings =
        ((handlerMachine parseRequest create factoryOf).trace store requestStrings).map
          fun result => (result.1, createFactoryMap filesystemMap, result.2)

/-- Requests are dispatched by the longest location that is a prefix of the
target, which ends for this purpose at its first NUL. -/
theorem dispatches_cStr {config : NginxConfig} {filesystemMap : FilesystemMap}
    (hextract : config.extractFilesystemMap OrderedMap.empty = .ok filesystemMap)
    (parseRequest : Str → Option Request) :
    Dispatches cStr parseRequest filesystemMap := by
  have hnormalised : filesystemMap.Normalised :=
    NginxConfig.normalised_extractFilesystemMap FilesystemMap.normalised_empty hextract
  have hkeys := nil_not_mem_keys_createFactoryMap hnormalised
  choose factoryOf hroute using
    exists_find?_matchedLocationPath hnormalised parseRequest
  refine ⟨factoryOf, ?_, ?_⟩
  · intro requestString factory
    have hbelongs := belongsTo_of_find? hkeys (hroute requestString)
    constructor
    · exact fun hfactory => hbelongs.unique hfactory
    · rintro rfl
      exact hbelongs
  · intro σ create store requestStrings
    exact trace_delegateMachine hroute store requestStrings

namespace DispatchWitness

/-- A location with a NUL in it. -/
def location : Str := "/a\x00/".toList

def config : NginxConfig :=
  [.mk ["server".toList] (some
    [.mk ["location".toList, location, "StaticHandler".toList] (some
      [.mk ["root".toList, "b".toList] none])])]

def filesystemMap : FilesystemMap :=
  FilesystemMap.insertLocation OrderedMap.empty "StaticHandler".toList location "b".toList

theorem extractFilesystemMap_config :
    config.extractFilesystemMap OrderedMap.empty = .ok filesystemMap := rfl

/-- A parser that takes its whole input for the target. -/
def parseRequest (requestString : Str) : Option Request :=
  some ⟨"GET".toList, requestString, []⟩

theorem dispatches_config : Dispatches cStr parseRequest filesystemMap :=
  dispatches_cStr extractFilesystemMap_config parseRequest

/-- A target below that location. -/
def target : Str := location ++ "c".toList

/-- Handlers that tell by their status whether the error factory made them. -/
def create (factory : RequestHandlerFactory) : HandleRequest Unit :=
  fun _ httpResponse =>
    pure (true, setResponse (if factory = .error then .notFound else .ok) [] [] httpResponse)

theorem belongsTo_target : BelongsTo id parseRequest (createFactoryMap filesystemMap) target
    (.static location "b".toList) := by
  have hroute : (createFactoryMap filesystemMap).find? location =
      some (some (.static location "b".toList)) := by
    rw [find?_createFactoryMap]
    rfl
  refine .longest rfl ⟨?_, List.prefix_append _ _, ?_⟩ hroute
  · exact (OrderedMap.mem_keys _ _).mpr ⟨_, hroute⟩
  · decide +kernel

/-- The target belongs to the static location, and the error handler answers. -/
theorem not_dispatches_whole_target :
    config.extractFilesystemMap OrderedMap.empty = .ok filesystemMap ∧
      ¬ Dispatches id parseRequest filesystemMap := by
  refine ⟨extractFilesystemMap_config, ?_⟩
  rintro ⟨factoryOf, hbelongs, htrace⟩
  have hfactory := (hbelongs target _).mp belongsTo_target
  have hmatched : matchedLocationPath parseRequest (createFactoryMap filesystemMap) target =
      "/".toList := by
    decide +kernel
  have hroute : (createFactoryMap filesystemMap).find?
      (matchedLocationPath parseRequest (createFactoryMap filesystemMap) target) =
        some (some .error) := by
    rw [hmatched]
    exact find?_createFactoryMap_builtIn filesystemMap rfl
  have herror : (delegateMachine parseRequest create).step
      (createFactoryMap filesystemMap, ()) target =
        (((handlerMachine parseRequest create fun _ => .error).step () target).1,
          createFactoryMap filesystemMap, ()) :=
    delegateMachine_step hroute rfl ()
  have hanswer := htrace create () [target]
  rw [Machine.trace_cons, Machine.trace_cons, Machine.trace_nil, Machine.trace_nil,
    herror] at hanswer
  simp [handlerMachine, create, ← hfactory] at hanswer
  cases hanswer

end DispatchWitness

end SwanServer
