/-
The data directory of the API: where its paths lead as long as the directories
of the start are still there.
-/
import SwanServer.ApiHandler
import SwanServer.FileSystemSpec
import SwanServer.Machine

namespace SwanServer

open FileTree LexicalPath

namespace Disk

variable {disk : Disk} {dir segment : Str} {place : List Str}

/-- The names in the directory that a path leads to. -/
def entries (disk : Disk) (path : Str) : List Str :=
  match disk.resolve path with
  | some place => disk.tree.children place
  | none => []

theorem ne_nil_of_resolve (hresolve : disk.resolve dir = some place) : dir ≠ [] := by
  rintro rfl
  contradiction

/-- A path leads to the same place whether or not it ends in slashes. -/
theorem walk_directoryComponents (hresolve : disk.resolve dir = some place) :
    disk.tree.walk (if isAbsolute dir then [] else disk.cwd) (directoryComponents dir) =
      some place := by
  rw [resolve, if_neg (ne_nil_of_resolve hresolve), components, Tree.walk_append,
    Option.bind_eq_some_iff] at hresolve
  obtain ⟨there, hthere, hlast⟩ := hresolve
  rw [directoryComponents, hthere]
  split at hlast
  · rw [Tree.walk_cons] at hlast
    split at hlast
    · exact hlast
    · contradiction
  · exact hlast

/-- One more segment is looked up in the directory before it. -/
theorem resolve_append_segment (hresolve : disk.resolve dir = some place)
    (hne : segment ≠ []) (hslash : '/' ∉ segment) :
    disk.resolve (dir ++ '/' :: segment) =
      if disk.tree.isDirectory place then some (Tree.enter place (component segment))
      else none := by
  have hdir := ne_nil_of_resolve hresolve
  rw [resolve, if_neg (by simp), components_append_segment dir hne hslash,
    isAbsolute_append hdir, Tree.walk_append, walk_directoryComponents hresolve,
    Option.bind_some, Tree.walk_cons, Tree.walk_nil]

/-- Which file `fopen(path, "w")` opens below `dir`. -/
theorem openable_append_segment (hresolve : disk.resolve dir = some place)
    (hsegment : segment ≠ [] ∧ '/' ∉ segment ∧ IsName segment) :
    disk.openable (dir ++ '/' :: segment) =
      if disk.tree.isDirectory place ∧ disk.tree.isDirectory (place ++ [segment]) = false
      then some (place ++ [segment]) else none := by
  obtain ⟨hne, hslash, hname⟩ := hsegment
  rw [openable, resolve_append_segment hresolve hne hslash, component_of_isName hname]
  cases hdirectory : disk.tree.isDirectory place with
  | false => simp
  | true =>
      cases hfile : disk.tree.isDirectory (place ++ [segment]) <;> simp [Tree.enter, hfile]

theorem eq_of_openable {file : List Str} (hresolve : disk.resolve dir = some place)
    (hsegment : segment ≠ [] ∧ '/' ∉ segment ∧ IsName segment)
    (hopen : disk.openable (dir ++ '/' :: segment) = some file) :
    file = place ++ [segment] ∧ disk.tree.isDirectory (place ++ [segment]) = false := by
  rw [openable_append_segment hresolve hsegment] at hopen
  split at hopen
  · next hfile =>
      cases hopen
      exact ⟨rfl, hfile.2⟩
  · contradiction

end Disk

/-- `dataPath` leads to the directory `root`, which exists and is empty. -/
structure EmptyDirectory (disk : Disk) (dataPath : Str) (root : List Str) : Prop where
  resolve : disk.resolve dataPath = some root
  directory : disk.tree.isDirectory root = true
  empty : ∀ rest, rest ≠ [] → disk.tree.node? (root ++ rest) = none

namespace ApiHandler

variable {start disk : Disk} {dataPath : Str} {root : List Str} {entity fileName : Str}

theorem filePath_eq_entityPath {σ : Type} (handler : ApiHandler σ)
    (entity fileName : Str) :
    handler.filePath entity fileName = handler.entityPath entity ++ '/' :: fileName := by
  rw [filePath, List.append_assoc]
  rfl

section Paths

variable (handler : ApiHandler Disk) (hstart : EmptyDirectory start handler.dataPath root)
  (hextends : Disk.Extends start disk) (hne : entity ≠ []) (hslash : '/' ∉ entity)

include hstart hextends hne hslash

theorem resolve_entityPath :
    disk.resolve (handler.entityPath entity) = some (Tree.enter root (component entity)) := by
  rw [entityPath_eq, Disk.resolve_append_segment (hextends.resolve hstart.resolve) hne
    hslash, if_pos (hextends.directory hstart.directory)]

theorem resolve_filePath {fileName : Str} (hfile : fileName ≠ [])
    (hfileSlash : '/' ∉ fileName) (hfileName : IsName fileName) :
    disk.resolve (handler.filePath entity fileName) =
      if disk.tree.isDirectory (Tree.enter root (component entity)) then
        some (Tree.enter root (component entity) ++ [fileName])
      else none := by
  have hresolve := resolve_entityPath handler hstart hextends hne hslash
  rw [filePath_eq_entityPath, Disk.resolve_append_segment hresolve hfile hfileSlash,
    component_of_isName hfileName]
  rfl

end Paths

theorem parentPath_filePath {σ : Type} (handler : ApiHandler σ) (hne : entity ≠ [])
    (hslash : '/' ∉ entity) (hfileSlash : '/' ∉ fileName) :
    parentPath (handler.filePath entity fileName) = handler.entityPath entity := by
  have hlast : (handler.entityPath entity).getLast? ≠ some '/' := by
    rw [entityPath, List.getLast?_append, List.getLast?_eq_some_getLast hne,
      Option.some_or]
    intro heq
    exact hslash (Option.some.inj heq ▸ List.getLast_mem hne)
  have hentity : handler.entityPath entity ≠ [] := by simp [entityPath]
  rw [filePath_eq_entityPath]
  exact parentPath_append_segment hentity hlast hfileSlash

theorem getLast?_components_entityPath (handler : ApiHandler Disk) (hne : entity ≠ [])
    (hslash : '/' ∉ entity) :
    (components (handler.entityPath entity)).getLast? = some (component entity) := by
  rw [entityPath_eq, components_append_segment _ hne hslash, List.getLast?_concat]

/-- The handler of a location over the real file system. -/
def real (location dataPath : Str) (host : Host) : ApiHandler Disk :=
  ⟨location, dataPath, realFileSystem host⟩

end ApiHandler

/-- A host on which everything works. -/
abbrev WorkingHost := {host : Host // host.Succeeds}

/-- One API handler that is asked again and again, the host being another each
time. -/
def apiMachine (location dataPath : Str) :
    Machine Disk (WorkingHost × Request) (Except Fault (Bool × Response)) where
  step disk input :=
    ((ApiHandler.real location dataPath input.1).handleRequest input.2
      Response.empty).exec disk

namespace DataDirectoryWitness

/-- The working directory holds an empty data directory and nothing else. -/
def disk : Disk := ⟨(⟨∅⟩ : Tree Str Str).put ["mnt".toList] .directory, []⟩

def dataPath : Str := "./mnt/".toList

theorem emptyDirectory_disk : EmptyDirectory disk dataPath ["mnt".toList] := by
  refine ⟨by decide, by decide, ?_⟩
  intro rest hrest
  rw [disk, Tree.node?_put _ (by simp), if_neg (by simpa using hrest)]
  rfl

end DataDirectoryWitness

end SwanServer
