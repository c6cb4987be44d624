/-
Static locations beside the API.  What is stored through the API is what a static
location serves from a data directory, and other pages stay as they were.
-/
import SwanServer.ServiceRefinement

namespace SwanServer

open FileTree LexicalPath

namespace StaticHandler

variable (handler : StaticHandler)

/-- The response for what the path of a request leads to. -/
def page (httpRequest : Request) : Option (Node Str) → Response
  | some (.file content) =>
      setResponse .ok (extensionToType (extension (handler.targetPath httpRequest)))
        (content ++ "\n".toList) .empty
  | _ => setResponse .notFound "text/plain".toList "File not found\n".toList .empty

end StaticHandler

section Pages

variable {parseRequest : Str → Option Request} {config : NginxConfig}
  {filesystemMap : FilesystemMap} {env : Environment} {start : Disk} {rootOf : Str → List Str}
  {world : World} {stores : List Str → CrudStore}

end Pages

namespace StoredPagesWitness

open SegmentationWitness CrudRefinementWitness
open HandlersWitness (env)
open ServiceRefinementWitness (postText parsePost admitsAt_post)

/-- The server runs in a directory that holds the data directory and a page. -/
def disk : Disk :=
  ⟨(((⟨∅⟩ : Tree Str Str).put ["build".toList] .directory).put ["build".toList, "index".toList]
    (.file "swan".toList)).put ["build".toList, "mnt".toList] .directory, ["build".toList]⟩

def mnt : List Str := ["build".toList, "mnt".toList]

/-- A static location serves the directory of an API location. -/
def config : NginxConfig :=
  [.mk ["server".toList] (some
    [.mk ["location".toList, "/api".toList, "ApiHandler".toList] (some
        [.mk ["data_path".toList, DataDirectoryWitness.dataPath] none]),
      .mk ["location".toList, "/files".toList, "StaticHandler".toList] (some
        [.mk ["root".toList, "./build/mnt".toList] none])])]

def filesystemMap : FilesystemMap :=
  (FilesystemMap.insertLocation OrderedMap.empty "ApiHandler".toList "/api/".toList
    DataDirectoryWitness.dataPath).insertLocation "StaticHandler".toList "/files/".toList
      "./build/mnt".toList

theorem extractFilesystemMap_config :
    config.extractFilesystemMap OrderedMap.empty = .ok filesystemMap := rfl

def rootOf (_dataPath : Str) : List Str := mnt

theorem emptyDirectory_disk : EmptyDirectory disk DataDirectoryWitness.dataPath mnt := by
  refine ⟨by decide, by decide, ?_⟩
  intro rest hrest
  rw [disk, Tree.node?_put _ (by simp), if_neg (by simpa [mnt] using hrest),
    Tree.node?_put _ (by simp), if_neg (by simp [mnt]), Tree.node?_put _ (by simp),
    if_neg (by simp [mnt])]
  rfl

theorem eq_of_usesPath {path : Str} (hpath : filesystemMap.UsesPath path) :
    path = DataDirectoryWitness.dataPath := by
  obtain ⟨location, hlocation⟩ := hpath
  rw [filesystemMap, FilesystemMap.at_insertLocation, if_neg (by decide),
    FilesystemMap.at_insertLocation, if_pos (by decide), OrderedMap.find?_insert] at hlocation
  split at hlocation
  · exact (Option.some.inj hlocation).symm
  · cases hlocation

theorem dataDirectories_disk : DataDirectories disk filesystemMap.UsesPath rootOf :=
  fun _ hpath => eq_of_usesPath hpath ▸ emptyDirectory_disk

def world : World := ⟨disk, 0, 0⟩

def handler : StaticHandler := ⟨"/files/".toList, "./build/mnt".toList⟩

def machine : Machine World Str (Except Fault Response) :=
  handlerMachine parsePost (RequestHandlerFactory.create env) (factoryFor parsePost filesystemMap)

/-- A file that no request has made. -/
def hatsText : Str := getText "/files/hats/1".toList

theorem apiRequest_postText :
    apiRequest parsePost (factoryFor parsePost filesystemMap) rootOf postText =
      some (mnt, "/api/".toList, postRequest) := by
  rfl

/-- The store after the POST. -/
def store : CrudStore := storeMachine.final ∅
  (requestsFor parsePost (factoryFor parsePost filesystemMap) rootOf mnt [postText])

end StoredPagesWitness

end SwanServer
