/-
When the API handler stays within the vectors it indexes: `split` drops the
first segment of the target, and `handleGet` reads the next one unchecked.
-/
import SwanServer.DataDirectory
import SwanServer.FactoryMap

namespace SwanServer

namespace Act

variable {σ α β : Type} {fault : Fault}

/-- The computation does not end in `fault`, whatever the store. -/
def Avoids (fault : Fault) (act : Act σ α) : Prop :=
  ∀ store, (act.exec store).1 ≠ .error fault

theorem avoids_pure (value : α) : Avoids fault (pure value : Act σ α) := by
  intro store
  simp

theorem avoids_ofExcept {result : Except Fault α} (hresult : result ≠ .error fault) :
    Avoids fault (ofExcept result : Act σ α) := fun _ => hresult

theorem avoids_bind {act : Act σ α} {next : α → Act σ β} (hact : Avoids fault act)
    (hnext : ∀ value, Avoids fault (next value)) : Avoids fault (act >>= next) := by
  intro store
  rw [exec_bind]
  cases hexec : act.exec store with
  | mk result later =>
      cases result with
      | ok value => exact hnext value later
      | error other =>
          have hother := hact store
          rw [hexec] at hother
          simpa using hother

theorem avoids_ite {p : Prop} [Decidable p] {first second : Act σ α}
    (hfirst : Avoids fault first) (hsecond : Avoids fault second) :
    Avoids fault (if p then first else second) := by
  split
  · exact hfirst
  · exact hsecond

end Act

open Act

/-- No operation of the file system ends in `fault`. -/
structure FileSystem.Avoids {σ : Type} (fault : Fault) (fs : FileSystem σ) : Prop where
  pathExists : ∀ p, Act.Avoids fault (fs.pathExists p)
  isRegularFile : ∀ p, Act.Avoids fault (fs.isRegularFile p)
  remove : ∀ p, Act.Avoids fault (fs.remove p)
  writeFile : ∀ p body, Act.Avoids fault (fs.writeFile p body)
  genIdAndWriteFile : ∀ p body, Act.Avoids fault (fs.genIdAndWriteFile p body)
  readFile : ∀ p, Act.Avoids fault (fs.readFile p)
  getFileList : ∀ p, Act.Avoids fault (fs.getFileList p)

section RealFileSystem

variable (host : Host)

theorem stoi_ne_undefinedBehaviour (s : Str) : stoi s ≠ .error .undefinedBehaviour := by
  simp only [stoi]
  split_ifs <;> simp

theorem largestFile_ne_undefinedBehaviour (start : Int) (names : List Str) :
    largestFile start names ≠ .error .undefinedBehaviour := by
  induction names generalizing start with
  | nil => simp [largestFile]
  | cons name rest ih =>
      rw [largestFile]
      split
      · next fault hfault =>
          intro heq
          cases heq
          exact stoi_ne_undefinedBehaviour _ hfault
      · apply ih

theorem uniqueFileName_ne_undefinedBehaviour (names : List Str) :
    uniqueFileName names ≠ .error .undefinedBehaviour := by
  rw [uniqueFileName]
  split
  · next fault hfault =>
      intro heq
      cases heq
      exact largestFile_ne_undefinedBehaviour 0 names hfault
  · simp

namespace Disk

theorem avoids_createDirectory (p : Str) :
    Avoids .undefinedBehaviour (createDirectory host p) := by
  intro disk
  rw [createDirectory, exec_attempt]
  split
  · simp
  · split
    · simp
    · simp
    · split <;> simp

theorem avoids_directoryIterator (p : Str) :
    Avoids .undefinedBehaviour (directoryIterator host p) := by
  intro disk
  rw [directoryIterator, exec_attempt]
  split
  · simp
  · split <;> simp

theorem avoids_fopen (p : Str) : Avoids .undefinedBehaviour (fopen host p) := by
  intro disk
  rw [fopen, exec_attempt]
  split
  · simp
  · split <;> simp

theorem avoids_fputs (fp : List Str) (text : Str) :
    Avoids .undefinedBehaviour (fputs host fp text) := by
  intro disk
  rw [fputs, exec_attempt]
  split <;> simp

theorem avoids_remove (p : Str) : Avoids .undefinedBehaviour (Disk.remove host p) := by
  intro disk
  rw [Disk.remove, exec_attempt]
  split
  · simp
  · split
    · simp
    · split <;> simp
    · split <;> simp

theorem avoids_isEmpty (p : Str) : Avoids .undefinedBehaviour (Disk.isEmpty p) := by
  intro disk
  rw [Disk.isEmpty, exec_attempt]
  split
  · simp
  · split <;> simp

theorem avoids_removeAll (p : Str) : Avoids .undefinedBehaviour (removeAll host p) := by
  intro disk
  rw [removeAll, exec_attempt]
  split
  · simp
  · split_ifs <;> simp

end Disk

namespace RealFileSystem

theorem avoids_ensureDirectory (p : Str) :
    Avoids .undefinedBehaviour (ensureDirectory host p) := by
  apply avoids_bind
  · intro disk
    simp
  · intro present
    apply avoids_ite
    · exact avoids_bind (Disk.avoids_createDirectory host p) fun _ => avoids_pure ()
    · exact avoids_pure ()

theorem avoids_remove (p : Str) :
    Avoids .undefinedBehaviour (RealFileSystem.remove host p) := by
  apply avoids_bind (Disk.avoids_remove host p)
  intro success
  apply avoids_bind (Disk.avoids_isEmpty _)
  intro empty
  apply avoids_ite
  · exact avoids_bind (Disk.avoids_removeAll host _) fun _ => avoids_pure success
  · exact avoids_pure success

theorem avoids_fopen_fputs {α : Type} (path text : Str) (opened failed : α) :
    Avoids .undefinedBehaviour (Disk.fopen host path >>= fun fp =>
      match fp with
      | some fp => do
          Disk.fputs host fp text
          return opened
      | none => pure failed : Act Disk α) := by
  apply avoids_bind (Disk.avoids_fopen host path)
  intro fp
  cases fp with
  | none => exact avoids_pure failed
  | some fp => exact avoids_bind (Disk.avoids_fputs host fp text) fun _ => avoids_pure opened

theorem avoids_genIdAndWriteFile (p body : Str) :
    Avoids .undefinedBehaviour (genIdAndWriteFile host p body) := by
  apply avoids_bind (avoids_ensureDirectory host p)
  intro _
  apply avoids_bind
  · apply avoids_bind (Disk.avoids_directoryIterator host p)
    exact fun names => avoids_ofExcept (uniqueFileName_ne_undefinedBehaviour names)
  · exact fun fileName => avoids_fopen_fputs host _ _ _ _

end RealFileSystem

/-- No operation of the real file system ends in undefined behaviour.  The operations
are those of the model, which leaves out the `funlockfile` on a stream that has been
closed. -/
theorem realFileSystem_avoids_undefinedBehaviour :
    (realFileSystem host).Avoids .undefinedBehaviour where
  pathExists p disk := by simp [realFileSystem]
  isRegularFile p disk := by simp [realFileSystem]
  remove := RealFileSystem.avoids_remove host
  writeFile p body := by
    apply avoids_bind (RealFileSystem.avoids_ensureDirectory host _)
    exact fun _ => RealFileSystem.avoids_fopen_fputs host _ _ _ _
  genIdAndWriteFile := RealFileSystem.avoids_genIdAndWriteFile host
  readFile p disk := by simp [realFileSystem, RealFileSystem.readFile]
  getFileList p := by
    apply avoids_bind (Disk.avoids_directoryIterator host p)
    exact fun names => avoids_pure _

end RealFileSystem

namespace ApiHandler

variable {σ : Type} (handler : ApiHandler σ)

variable (hfs : handler.fs.Avoids .undefinedBehaviour) (httpRequest : Request)
  (httpResponse : Response)

include hfs

theorem avoids_handlePost (uri : List Str) :
    Avoids .undefinedBehaviour (handler.handlePost uri httpRequest httpResponse) := by
  rcases uri with _ | ⟨entity, _ | ⟨next, rest⟩⟩
  · rw [handlePost_of_length_ne handler (by simp)]
    exact avoids_pure _
  · rw [handlePost_entity]
    apply avoids_bind (hfs.genIdAndWriteFile _ _)
    exact fun id => avoids_ite (avoids_pure _) (avoids_pure _)
  · rw [handlePost_of_length_ne handler (by simp)]
    exact avoids_pure _

theorem avoids_handlePut (uri : List Str) :
    Avoids .undefinedBehaviour (handler.handlePut uri httpRequest httpResponse) := by
  rcases uri with _ | ⟨entity, _ | ⟨fileName, _ | ⟨next, rest⟩⟩⟩
  · rw [handlePut_of_length_ne handler (by simp)]
    exact avoids_pure _
  · rw [handlePut_of_length_ne handler (by simp)]
    exact avoids_pure _
  · rw [handlePut_file]
    apply avoids_bind (hfs.writeFile _ _)
    exact fun success => avoids_ite (avoids_pure _) (avoids_pure _)
  · rw [handlePut_of_length_ne handler (by simp)]
    exact avoids_pure _

theorem avoids_handleDelete (uri : List Str) :
    Avoids .undefinedBehaviour (handler.handleDelete uri httpResponse) := by
  rcases uri with _ | ⟨entity, _ | ⟨fileName, _ | ⟨next, rest⟩⟩⟩
  · rw [handleDelete_of_length_ne handler (by simp)]
    exact avoids_pure _
  · rw [handleDelete_of_length_ne handler (by simp)]
    exact avoids_pure _
  · rw [handleDelete_file]
    apply avoids_bind (hfs.isRegularFile _)
    intro regular
    apply avoids_ite (avoids_pure _)
    apply avoids_bind (hfs.remove _)
    exact fun removed => avoids_ite (avoids_pure _) (avoids_pure _)
  · rw [handleDelete_of_length_ne handler (by simp)]
    exact avoids_pure _

/-- `handleGet` is the one that indexes before it looks at the arity. -/
theorem avoids_handleGet {uri : List Str} (huri : uri ≠ []) :
    Avoids .undefinedBehaviour (handler.handleGet uri httpResponse) := by
  rcases uri with _ | ⟨entity, _ | ⟨fileName, _ | ⟨next, rest⟩⟩⟩
  · contradiction
  · rw [handleGet_entity]
    apply avoids_bind (hfs.pathExists _)
    intro present
    apply avoids_ite (avoids_pure _)
    exact avoids_bind (hfs.getFileList _) fun _ => avoids_pure _
  · rw [handleGet_file]
    apply avoids_bind (hfs.pathExists _)
    intro present
    apply avoids_ite (avoids_pure _)
    apply avoids_bind (hfs.readFile _)
    intro file
    cases file <;> exact avoids_pure _
  · rw [handleGet_deep]
    apply avoids_bind (hfs.pathExists _)
    exact fun present => avoids_ite (avoids_pure _) (avoids_pure _)

theorem avoids_dispatch {uri : List Str}
    (huri : httpRequest.method = "GET".toList → uri ≠ []) :
    Avoids .undefinedBehaviour (handler.dispatch uri httpRequest httpResponse) := by
  rw [dispatch]
  split_ifs with hpost hget hput hdelete
  · exact avoids_handlePost handler hfs httpRequest httpResponse uri
  · exact avoids_handleGet handler hfs httpResponse (huri hget)
  · exact avoids_handlePut handler hfs httpRequest httpResponse uri
  · exact avoids_handleDelete handler hfs httpResponse uri
  · exact avoids_pure _

/-- The handler indexes past an end exactly for a target without a segment, and
for a GET whose target has only one. -/
theorem handleRequest_ne_undefinedBehaviour_iff (store : σ) :
    ((handler.handleRequest httpRequest httpResponse).exec store).1 ≠
        .error .undefinedBehaviour ↔
      segments (cStr httpRequest.target) ≠ [] ∧
        (httpRequest.method = "GET".toList →
          2 ≤ (segments (cStr httpRequest.target)).length) := by
  have hsplit := split_slash (cStr httpRequest.target)
  cases hsegments : segments (cStr httpRequest.target) with
  | nil =>
      rw [hsegments] at hsplit
      rw [handleRequest_of_split_error handler httpResponse hsplit]
      simp
  | cons first uri =>
      rw [hsegments] at hsplit
      by_cases huri : httpRequest.method = "GET".toList → uri ≠ []
      · have hlength : httpRequest.method = "GET".toList →
            2 ≤ (first :: uri).length := by
          intro hget
          have hpos := List.length_pos_iff.mpr (huri hget)
          rw [List.length_cons]
          omega
        have havoids : ((handler.handleRequest httpRequest httpResponse).exec store).1 ≠
            .error .undefinedBehaviour := by
          cases hnumber : isFileNumber uri with
          | false =>
              rw [handleRequest_of_not_isFileNumber handler httpResponse hsplit hnumber]
              simp
          | true =>
              rw [handleRequest_of_isFileNumber handler httpResponse hsplit hnumber]
              exact avoids_dispatch handler hfs httpRequest httpResponse huri store
        simp only [havoids, ne_eq, not_false_eq_true, reduceCtorEq, true_and, true_iff]
        exact hlength
      · obtain ⟨hget, hnil⟩ := Classical.not_imp.mp huri
        rw [not_not] at hnil
        subst hnil
        rw [handleRequest_of_isFileNumber handler httpResponse hsplit rfl,
          dispatch_get handler [] httpResponse hget, handleGet_nil]
        simp [hget]

end ApiHandler

theorem segments_ne_nil {s : Str} {c : Char} (hc : c ∈ s) (hne : c ≠ '/') :
    segments s ≠ [] := by
  induction s with
  | nil => cases hc
  | cons head tail ih =>
      by_cases hhead : head = '/'
      · rw [hhead, segments_slash_cons]
        apply ih
        rcases List.mem_cons.mp hc with rfl | htail
        · contradiction
        · exact htail
      · obtain ⟨first, rest, hsplit⟩ :=
          List.exists_cons_of_ne_nil (List.splitOn_ne_nil '/' tail)
        rw [segments, List.splitOn_cons_eq_if_modifyHead, if_neg (by simpa using hhead),
          hsplit]
        simp

/-- A location that slashes alone do not spell has a segment. -/
theorem segments_handleTrailingSlashes_ne_nil {token : Str}
    (hroot : handleTrailingSlashes token ≠ "/".toList) (rest : Str) :
    segments (handleTrailingSlashes token ++ rest) ≠ [] := by
  have hne : token.rdropWhile (· = '/') ≠ [] := by
    intro hnil
    rw [handleTrailingSlashes, hnil] at hroot
    exact hroot rfl
  have hlast := List.rdropWhile_last_not _ _ hne
  apply segments_ne_nil (List.mem_append_left rest
    (List.mem_append_left _ (List.getLast_mem hne)))
  simpa using hlast

/-- An API factory of the table is built with its location and stands at none of
the built-in ones. -/
theorem location_of_find?_createFactoryMap_api {filesystemMap : FilesystemMap}
    {location location' dataPath : Str} (hnormalised : filesystemMap.Normalised)
    (hroute : (createFactoryMap filesystemMap).find? location =
      some (some (.api location' dataPath))) :
    location' = location ∧ location ≠ "/".toList ∧
      ∃ token, location = handleTrailingSlashes token := by
  rw [find?_createFactoryMap] at hroute
  cases hbuiltIn : OrderedMap.firstValue? location builtInRoutes with
  | some factory =>
      have hmem := OrderedMap.mem_of_firstValue? hbuiltIn
      rw [hbuiltIn, Option.some_or, Option.some_or, Option.some.injEq] at hroute
      rw [hroute] at hmem
      simp [builtInRoutes] at hmem
  | none =>
      have hne : location ≠ "/".toList := by
        rintro rfl
        cases hbuiltIn
      rw [hbuiltIn, Option.none_or] at hroute
      cases hstatic : (filesystemMap.at LocationKind.static.handlerType).find? location with
      | some root => simp [hstatic] at hroute
      | none =>
          cases hapi : (filesystemMap.at LocationKind.api.handlerType).find? location with
          | none => simp [hstatic, hapi] at hroute
          | some root =>
              simp only [hstatic, hapi, Option.map_none, Option.map_some, Option.none_or,
                Option.some.injEq, RequestHandlerFactory.api.injEq] at hroute
              exact ⟨hroute.1.symm, hne, hnormalised _ _ _ hapi⟩

/-- A handler of the route table stays within its vectors on the targets below
its location, but for a GET that names no entity; a location with a NUL may also
leave no segment at all. -/
theorem handleRequest_below_location_ne_undefinedBehaviour_iff {config : NginxConfig}
    {filesystemMap : FilesystemMap}
    (hextract : config.extractFilesystemMap OrderedMap.empty = .ok filesystemMap)
    {location dataPath : Str}
    (hroute : (createFactoryMap filesystemMap).find? location =
      some (some (.api location dataPath)))
    (host : Host) {httpRequest : Request} (htarget : location <+: httpRequest.target)
    (httpResponse : Response) (disk : Disk) :
    (((ApiHandler.real location dataPath host).handleRequest httpRequest
        httpResponse).exec disk).1 ≠ .error .undefinedBehaviour ↔
      (nul ∈ location → segments (cStr httpRequest.target) ≠ []) ∧
        (httpRequest.method = "GET".toList →
          2 ≤ (segments (cStr httpRequest.target)).length) := by
  have hnormalised : filesystemMap.Normalised :=
    NginxConfig.normalised_extractFilesystemMap FilesystemMap.normalised_empty hextract
  obtain ⟨-, hroot, token, rfl⟩ :=
    location_of_find?_createFactoryMap_api hnormalised hroute
  have hsegments : nul ∉ handleTrailingSlashes token →
      segments (cStr httpRequest.target) ≠ [] := by
    intro hnul
    obtain ⟨rest, hrest⟩ := htarget
    rw [← hrest, cStr_append hnul]
    exact segments_handleTrailingSlashes_ne_nil hroot (cStr rest)
  rw [ApiHandler.handleRequest_ne_undefinedBehaviour_iff _
    (realFileSystem_avoids_undefinedBehaviour host)]
  by_cases hnul : nul ∈ handleTrailingSlashes token
  · simp [hnul]
  · simp [hnul, hsegments hnul]

namespace RequestIndexingWitness

def config : NginxConfig :=
  [.mk ["server".toList] (some
    [.mk ["location".toList, "/api".toList, "ApiHandler".toList] (some
      [.mk ["root".toList, "mnt".toList] none])])]

def filesystemMap : FilesystemMap :=
  FilesystemMap.insertLocation OrderedMap.empty "ApiHandler".toList "/api/".toList
    "mnt".toList

theorem extractFilesystemMap_config :
    config.extractFilesystemMap OrderedMap.empty = .ok filesystemMap := rfl

theorem find?_createFactoryMap_api : (createFactoryMap filesystemMap).find? "/api/".toList =
    some (some (.api "/api/".toList "mnt".toList)) := by
  rw [find?_createFactoryMap]
  rfl

/-- A GET of an entity is answered. -/
theorem get_entity_ne_undefinedBehaviour :
    (((ApiHandler.real "/api/".toList "mnt".toList workingHost).handleRequest
      ⟨"GET".toList, "/api/shoes".toList, []⟩ Response.empty).exec
        DataDirectoryWitness.disk).1 ≠ .error .undefinedBehaviour :=
  (handleRequest_below_location_ne_undefinedBehaviour_iff extractFilesystemMap_config
    find?_createFactoryMap_api workingHost (by decide) Response.empty
    DataDirectoryWitness.disk).mpr ⟨by decide, by decide +kernel⟩

/-- A GET of the location itself reads the first of no segments. -/
theorem get_location_undefinedBehaviour :
    config.extractFilesystemMap OrderedMap.empty = .ok filesystemMap ∧
      (createFactoryMap filesystemMap).find? "/api/".toList =
        some (some (.api "/api/".toList "mnt".toList)) ∧
      (((ApiHandler.real "/api/".toList "mnt".toList workingHost).handleRequest
        ⟨"GET".toList, "/api/".toList, []⟩ Response.empty).exec
          DataDirectoryWitness.disk).1 = .error .undefinedBehaviour := by
  refine ⟨extractFilesystemMap_config, find?_createFactoryMap_api, ?_⟩
  rfl

end RequestIndexingWitness

end SwanServer
