/-
Static files: the location is cut off the front of the target and the rest is
put behind the root, one directory above the working directory.
-/
import SwanServer.Disk
import SwanServer.RequestHandlerDelegate

namespace SwanServer

open LexicalPath

/-- `mappings` of `mime_types.cc`. -/
def mappings : List (Str × Str) :=
  [(".gif".toList, "image/gif".toList),
    (".htm".toList, "text/html".toList),
    (".html".toList, "text/html".toList),
    (".jpg".toList, "image/jpeg".toList),
    (".png".toList, "image/png".toList),
    (".pdf".toList, "application/pdf".toList),
    (".zip".toList, "application/zip".toList),
    (".js".toList, "application/javascript".toList),
    (".json".toList, "application/json".toList),
    (".css".toList, "text/css".toList),
    (".ico".toList, "image/x-icon".toList)]

/-- `extension_to_type`. -/
def extensionToType (extension : Str) : Str :=
  (mappings.lookup extension).getD "text/plain".toList

/-- `path::extension()`: the last component from its last dot on. -/
def extension (path : Str) : Str :=
  let name := (path.reverse.takeWhile (· ≠ '/')).reverse
  if name = ".".toList ∨ name = "..".toList then [] else name.drop (stem name).length

/-- `class StaticHandler`. -/
structure StaticHandler where
  location : Str
  rootFilePath : Str

namespace StaticHandler

variable (handler : StaticHandler)

/-- The path that a target is mapped to: the location is erased by its length,
and the first character of the result is replaced by `../`. -/
def remap (target : Str) : Str :=
  let target := target.drop handler.location.length
  let target := handler.rootFilePath ++ "/".toList ++ target
  "../".toList ++ target.drop 1

/-- The path that a request makes the handler open. -/
def targetPath (httpRequest : Request) : Str := handler.remap (cStr httpRequest.target)

/-- `StaticHandler::handle_request`. -/
def handleRequest (host : Host) : HandleRequest Disk := fun httpRequest httpResponse =>
  Act.attempt fun disk =>
    let targetPath := handler.targetPath httpRequest
    let answer :=
      if disk.pathExists targetPath = false ∨ disk.isRegularFile targetPath = false then
        (false, setResponse .notFound "text/plain".toList "File not found\n".toList
          httpResponse)
      else if host.works .ifstream = false then
        (false, setResponse .notFound "text/plain".toList "Cannot open file\n".toList
          httpResponse)
      else
        (true, setResponse .ok (extensionToType (extension targetPath))
          (disk.read host targetPath ++ "\n".toList) httpResponse)
    (.ok answer, disk)

/-- The directory that the bare location is mapped to. -/
def rootDirectory : Reduced Str := lexical (handler.remap handler.location)

/-- What follows the location in a target, reduced on its own. -/
def remainder (target : Str) : Reduced Str :=
  Reduced.nil.follow (directoryComponents (target.drop handler.location.length))

/-- Everything that is opened starts with the path of the bare location. -/
theorem remap_eq_append (target : Str) :
    handler.remap target =
      handler.remap handler.location ++ target.drop handler.location.length := by
  cases hroot : handler.rootFilePath with
  | nil => simp [remap, hroot]
  | cons head tail => simp [remap, hroot]

theorem remap_location_ends :
    ∃ front, handler.remap handler.location = front ++ "/".toList := by
  cases hroot : handler.rootFilePath with
  | nil => exact ⟨"..".toList, by simp [remap, hroot]⟩
  | cons head tail => exact ⟨"../".toList ++ tail, by simp [remap, hroot]⟩

theorem rootDirectory_relative : handler.rootDirectory.absolute = false := by
  rw [rootDirectory, lexical, Reduced.absolute_follow]
  rfl

theorem lexical_remap (target : Str) :
    lexical (handler.remap target) =
      handler.rootDirectory.append (handler.remainder target) := by
  obtain ⟨front, hfront⟩ := handler.remap_location_ends
  have habsolute : isAbsolute (handler.remap target) =
      isAbsolute (handler.remap handler.location) := rfl
  rw [remainder, ← Reduced.follow_eq_append, rootDirectory,
    lexical_eq_follow_directoryComponents, lexical_eq_follow_directoryComponents,
    habsolute, ← Reduced.follow_append, remap_eq_append handler target]
  congr 1
  rw [hfront, directoryComponents, directoryComponents, directoryComponents,
    List.append_assoc]
  change (segments (front ++ '/' :: _)).map component =
    (segments (front ++ '/' :: [])).map component ++ _
  rw [segments_append_slash, segments_append_slash, segments_nil, List.append_nil,
    List.map_append]
  rfl

/-- The remainder of the target does not leave the root directory, or comes
back into it by the names of the directories it left. -/
def StaysInRoot (target : Str) : Prop :=
  (handler.remainder target).ups ≤ handler.rootDirectory.names.length ∧
    handler.rootDirectory.names.drop
        (handler.rootDirectory.names.length - (handler.remainder target).ups) <+:
      (handler.remainder target).names

/-- What a request makes the handler open lies in the mapped root directory
exactly when the remainder of its target stays there. -/
theorem targetPath_inside_iff (httpRequest : Request) :
    Reduced.Inside handler.rootDirectory (lexical (handler.targetPath httpRequest)) ↔
      handler.StaysInRoot (cStr httpRequest.target) := by
  rw [targetPath, lexical_remap, Reduced.inside_append_iff, rootDirectory_relative,
    StaysInRoot]
  simp

end StaticHandler

namespace StaticHandlerWitness

def handler : StaticHandler := ⟨"/static/".toList, "./files".toList⟩

def routes : FactoryRoutes Unit where
  entries := [("/".toList, some ()), ("/static/".toList, some ())]
  sorted := by decide

/-- A request that the routes hand to the static handler. -/
def outsideRequest : Request :=
  ⟨"GET".toList, "/static/../../etc/passwd".toList, []⟩

/-- It opens a file outside the root directory. -/
theorem outsideRequest_not_inside :
    longestPrefixMatching routes (cStr outsideRequest.target) = handler.location ∧
      ¬ Reduced.Inside handler.rootDirectory
        (lexical (handler.targetPath outsideRequest)) := by
  decide

end StaticHandlerWitness

end SwanServer
