/-
The route table of the server: the built-in locations first, then the static
and last the API locations of the config.  An insertion keeps the entry that is
there, so an earlier location shuts out a later one.
-/
import SwanServer.ConfigConsumers
import SwanServer.ConfigGrammar
import SwanServer.ExceptLoops
import SwanServer.RequestHandlerDelegate

namespace SwanServer

/-- The factories that the server registers, with what they are built with. -/
inductive RequestHandlerFactory where
  | echo
  | sleep
  | health
  | palette
  | color
  | error
  | badRequest
  | static (location rootPath : Str)
  | api (location dataPath : Str)
deriving DecidableEq

/-- The locations that are there whatever the config says. -/
def builtInRoutes : List (Str × Option RequestHandlerFactory) :=
  [("/echo".toList, some .echo), ("/sleep".toList, some .sleep),
    ("/health".toList, some .health), ("/palette".toList, some .palette),
    ("/color".toList, some .color), ("/".toList, some .error),
    ("bad request".toList, some .badRequest)]

/-- `Server::create_factory_map`. -/
def createFactoryMap (filesystemMap : FilesystemMap) :
    FactoryRoutes RequestHandlerFactory :=
  let routes := OrderedMap.empty.insertAll builtInRoutes
  let staticHandlerMap := filesystemMap.at "StaticHandler".toList
  let apiHandlerMap := filesystemMap.at "ApiHandler".toList
  let routes := routes.insertAll (staticHandlerMap.entries.map fun mapping =>
    (mapping.1, some (.static mapping.1 mapping.2)))
  routes.insertAll (apiHandlerMap.entries.map fun mapping =>
    (mapping.1, some (.api mapping.1 mapping.2)))

/-- The handler types that the server has a factory for. -/
inductive LocationKind where
  | static
  | api
deriving DecidableEq

namespace LocationKind

/-- The handler type in a config. -/
def handlerType : LocationKind → Str
  | static => "StaticHandler".toList
  | api => "ApiHandler".toList

/-- The factory for a location of that kind. -/
def factory (location root : Str) : LocationKind → RequestHandlerFactory
  | static => .static location root
  | api => .api location root

end LocationKind

/-- The route table, location by location. -/
theorem find?_createFactoryMap (filesystemMap : FilesystemMap) (location : Str) :
    (createFactoryMap filesystemMap).find? location =
      ((OrderedMap.firstValue? location builtInRoutes).or
        (((filesystemMap.at LocationKind.static.handlerType).find? location).map fun root =>
          some (.static location root))).or
        (((filesystemMap.at LocationKind.api.handlerType).find? location).map fun root =>
          some (.api location root)) := by
  rw [createFactoryMap, OrderedMap.find?_insertAll, OrderedMap.find?_insertAll,
    OrderedMap.find?_insertAll, OrderedMap.find?_empty, Option.none_or,
    OrderedMap.firstValue?_map_entries _ _ fun location root =>
      some (RequestHandlerFactory.static location root),
    OrderedMap.firstValue?_map_entries _ _ fun location root =>
      some (RequestHandlerFactory.api location root)]
  rfl

/-- No config can shut out the factory for bad requests. -/
theorem find?_createFactoryMap_badRequest (filesystemMap : FilesystemMap) :
    (createFactoryMap filesystemMap).find? "bad request".toList = some (some .badRequest) := by
  have hbuiltIn : OrderedMap.firstValue? "bad request".toList builtInRoutes =
      some (some .badRequest) := rfl
  rw [find?_createFactoryMap, hbuiltIn, Option.some_or, Option.some_or]

section Locations

theorem FilesystemMap.at_eq (filesystemMap : FilesystemMap) (handlerType : Str) :
    filesystemMap.at handlerType =
      (filesystemMap.find? handlerType).getD OrderedMap.empty := by
  rw [FilesystemMap.at, OrderedMap.getOrInsert]
  cases filesystemMap.find? handlerType <;> rfl

theorem FilesystemMap.at_insertLocation (filesystemMap : FilesystemMap)
    (handlerType locationPath root other : Str) :
    (filesystemMap.insertLocation handlerType locationPath root).at other =
      if other = handlerType then (filesystemMap.at other).insert locationPath root
      else filesystemMap.at other := by
  rw [FilesystemMap.at_eq, FilesystemMap.insertLocation, OrderedMap.find?_upsert,
    FilesystemMap.at_eq]
  split
  · next heq => rw [heq, Option.getD_some]
  · rfl

/-- All locations went through `handle_trailing_slashes`. -/
def FilesystemMap.Normalised (filesystemMap : FilesystemMap) : Prop :=
  ∀ handlerType locationPath root,
    (filesystemMap.at handlerType).find? locationPath = some root →
      ∃ token, locationPath = handleTrailingSlashes token

theorem FilesystemMap.normalised_empty : FilesystemMap.Normalised OrderedMap.empty := by
  intro handlerType locationPath root hfind
  cases hfind

theorem FilesystemMap.Normalised.insertLocation {filesystemMap : FilesystemMap}
    (hmap : filesystemMap.Normalised) (handlerType token root : Str) :
    (filesystemMap.insertLocation handlerType (handleTrailingSlashes token)
      root).Normalised := by
  intro other locationPath value hfind
  rw [FilesystemMap.at_insertLocation] at hfind
  split at hfind
  · rw [OrderedMap.find?_insert] at hfind
    split at hfind
    · next heq => exact ⟨token, heq⟩
    · exact hmap other locationPath value hfind
  · exact hmap other locationPath value hfind

open ExceptLoops

theorem NginxConfigStatement.normalised_extractLines {filesystemMap later : FilesystemMap}
    {blockLine : NginxConfigStatement} (hmap : filesystemMap.Normalised)
    (hlater : blockLine.extractLines filesystemMap = .ok later) : later.Normalised := by
  rw [extractLines, bind_eq_ok_iff] at hlater
  obtain ⟨lines, -, hfold⟩ := hlater
  refine foldlM_invariant ?_ hmap hfold
  intro state locationLine _ next hstate hnext
  simp only [extractLine, bind_eq_ok_iff] at hnext
  obtain ⟨token, -, handlerType, -, root, -, hinsert⟩ := hnext
  cases hinsert
  exact hstate.insertLocation handlerType token root

/-- The locations that a config provides end in exactly one slash. -/
theorem NginxConfig.normalised_extractFilesystemMap {filesystemMap later : FilesystemMap}
    {config : NginxConfig} (hmap : filesystemMap.Normalised)
    (hlater : config.extractFilesystemMap filesystemMap = .ok later) :
    later.Normalised := by
  refine foldlM_invariant ?_ hmap hlater
  intro state statement _ next hstate hnext
  rw [bind_eq_ok_iff] at hnext
  obtain ⟨token, -, hrest⟩ := hnext
  split at hrest
  · cases hrest
    exact hstate
  · split at hrest
    · cases hrest
      exact hstate
    · next child hchild =>
        refine foldlM_invariant ?_ hstate hrest
        intro state blockLine _ next hstate hnext
        rw [bind_eq_ok_iff] at hnext
        obtain ⟨token, -, hrest⟩ := hnext
        split at hrest
        · cases hrest
          exact hstate
        · exact blockLine.normalised_extractLines hstate hrest

end Locations

theorem getLast?_handleTrailingSlashes (token : Str) :
    (handleTrailingSlashes token).getLast? = some '/' := by
  rw [handleTrailingSlashes]
  exact List.getLast?_concat

/-- The only built-in location that a config can name is the root. -/
theorem firstValue?_builtInRoutes {location : Str} (hlast : location.getLast? = some '/') :
    OrderedMap.firstValue? location builtInRoutes =
      if location = "/".toList then some (some .error) else none := by
  split
  · next heq =>
      rw [heq]
      rfl
  · next hne =>
      rw [OrderedMap.firstValue?_eq_none_iff]
      rintro route hroute rfl
      have hroutes : ∀ route ∈ builtInRoutes,
          route.1.getLast? = some '/' → route.1 = "/".toList := by decide
      exact hne (hroutes route hroute hlast)

/-- A configured location is served unless it is the root or an API location that
is a static location too. -/
theorem find?_createFactoryMap_eq_factory_iff {config : NginxConfig}
    {filesystemMap : FilesystemMap}
    (hextract : config.extractFilesystemMap OrderedMap.empty = .ok filesystemMap)
    (kind : LocationKind) {location root : Str}
    (hlocation : (filesystemMap.at kind.handlerType).find? location = some root) :
    (createFactoryMap filesystemMap).find? location = some (some (kind.factory location root)) ↔
      location ≠ "/".toList ∧
        (kind = .api →
          (filesystemMap.at LocationKind.static.handlerType).find? location = none) := by
  have hnormalised : filesystemMap.Normalised :=
    NginxConfig.normalised_extractFilesystemMap FilesystemMap.normalised_empty hextract
  obtain ⟨token, htoken⟩ := hnormalised _ _ _ hlocation
  have hlast : location.getLast? = some '/' := htoken ▸ getLast?_handleTrailingSlashes token
  rw [find?_createFactoryMap, firstValue?_builtInRoutes hlast]
  by_cases hroot : location = "/".toList
  · rw [if_pos hroot]
    cases kind <;> simp [hroot, LocationKind.factory]
  · rw [if_neg hroot, Option.none_or]
    cases kind with
    | static =>
        rw [hlocation]
        simpa [LocationKind.factory] using hroot
    | api =>
        rw [hlocation]
        cases hstatic :
            (filesystemMap.at LocationKind.static.handlerType).find? location with
        | none => simpa [LocationKind.factory] using hroot
        | some other => simp [LocationKind.factory]

namespace FactoryMapWitness

/-- Two static locations, one of them the root. -/
def configText : Str :=
  ("server \x7blocation / StaticHandler \x7broot a;\x7d" ++
    "location /b StaticHandler \x7broot b;\x7d\x7d").toList

def config : NginxConfig :=
  [.mk ["server".toList] (some
    [.mk ["location".toList, "/".toList, "StaticHandler".toList] (some
        [.mk ["root".toList, "a".toList] none]),
      .mk ["location".toList, "/b".toList, "StaticHandler".toList] (some
        [.mk ["root".toList, "b".toList] none])])]

def filesystemMap : FilesystemMap :=
  (FilesystemMap.insertLocation OrderedMap.empty "StaticHandler".toList "/".toList
    "a".toList).insertLocation "StaticHandler".toList "/b/".toList "b".toList

theorem parse_configText : parse [] configText = .ok (true, config) := by
  have htokens : parseTokens configText =
      ["server".toList].map word ++ ⟨.startBlock, "\x7b".toList⟩ ::
        (["location".toList, "/".toList, "StaticHandler".toList].map word ++
          ⟨.startBlock, "\x7b".toList⟩ :: (["root".toList, "a".toList].map word ++
            ⟨.statementEnd, ";".toList⟩ :: ⟨.endBlock, "\x7d".toList⟩ ::
              (["location".toList, "/b".toList, "StaticHandler".toList].map word ++
                ⟨.startBlock, "\x7b".toList⟩ :: (["root".toList, "b".toList].map word ++
                  [⟨.statementEnd, ";".toList⟩, ⟨.endBlock, "\x7d".toList⟩,
                    ⟨.endBlock, "\x7d".toList⟩, ⟨.eof, []⟩])))) := by
    decide +kernel
  rw [parse, htokens]
  rfl

theorem extractFilesystemMap_config :
    config.extractFilesystemMap OrderedMap.empty = .ok filesystemMap := rfl

/-- A location below the root is served. -/
theorem find?_createFactoryMap_files :
    (createFactoryMap filesystemMap).find? "/b/".toList =
      some (some (.static "/b/".toList "b".toList)) :=
  (find?_createFactoryMap_eq_factory_iff extractFilesystemMap_config .static rfl).mpr
    ⟨by decide, by decide⟩

/-- The static location at the root is shut out by the error handler. -/
theorem find?_createFactoryMap_root :
    parse [] configText = .ok (true, config) ∧
      config.extractFilesystemMap OrderedMap.empty = .ok filesystemMap ∧
      (filesystemMap.at LocationKind.static.handlerType).find? "/".toList =
        some "a".toList ∧
      (createFactoryMap filesystemMap).find? "/".toList ≠
        some (some (LocationKind.static.factory "/".toList "a".toList)) := by
  refine ⟨parse_configText, extractFilesystemMap_config, rfl, ?_⟩
  rw [find?_createFactoryMap, firstValue?_builtInRoutes (by decide), if_pos rfl]
  simp [LocationKind.factory]

end FactoryMapWitness

end SwanServer
