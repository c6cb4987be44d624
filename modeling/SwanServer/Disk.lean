/-
The operating system below the server: a tree of files, the calls that
`boost::filesystem`, `fopen` and `fputs` make on it, and which of these calls
work while one request is handled.
-/
import SwanServer.FileTree
import SwanServer.Overlay
import SwanServer.Path
import SwanServer.RequestHandler

namespace SwanServer

open FileTree LexicalPath Overlay

/-- The file system as the process sees it. -/
structure Disk where
  tree : Tree Str Str
  cwd : List Str

/-- The calls that can fail although their arguments are right. -/
inductive Primitive where
  | createDirectory
  | openDirectory
  | fopen
  | ifstream
  | unlink
  | removeAll
deriving Repr, DecidableEq

/-- How the operating system behaves while a request is handled: which calls
work, how much of a text that is written reaches the file, and in which order
a directory is listed.  A status that cannot be read is not among these: a
`stat` that fails, as on a segment above 255 bytes, throws in the code. -/
structure Host where
  works : Primitive → Bool
  written : Str → Str
  written_prefix : ∀ text, written text <+: text
  listing : List Str → List Str
  listing_perm : ∀ names, (listing names).Perm names

/-- All calls work and all text reaches the file. -/
def Host.Succeeds (host : Host) : Prop :=
  (∀ primitive, host.works primitive = true) ∧ ∀ text, host.written text = text

/-- A host on which everything works. -/
def workingHost : Host where
  works _ := true
  written text := text
  written_prefix text := List.prefix_refl text
  listing names := names
  listing_perm names := List.Perm.refl names

theorem workingHost_succeeds : workingHost.Succeeds :=
  ⟨fun _ => rfl, fun _ => rfl⟩

namespace Disk

/-- Path resolution: from the root or from the working directory, through
existing directories.  The empty path does not resolve. -/
def resolve (disk : Disk) (path : Str) : Option (List Str) :=
  if path = [] then none
  else disk.tree.walk (if isAbsolute path then [] else disk.cwd) (components path)

/-- What a path leads to. -/
def status (disk : Disk) (path : Str) : Option (Node Str) :=
  (disk.resolve path).bind disk.tree.node?

/-- `boost::filesystem::exists`. -/
def pathExists (disk : Disk) (path : Str) : Bool := (disk.status path).isSome

/-- `boost::filesystem::is_regular_file`. -/
def isRegularFile (disk : Disk) (path : Str) : Bool :=
  match disk.status path with
  | some (.file _) => true
  | _ => false

/-- The contents that an `std::ifstream` on a regular file delivers: nothing
where it does not open. -/
def read (host : Host) (disk : Disk) (path : Str) : Str :=
  match disk.status path with
  | some (.file content) => if host.works .ifstream then content else []
  | _ => []

/-- Put a node at a resolved path. -/
def put (disk : Disk) (place : List Str) (node : Node Str) : Disk :=
  { disk with tree := disk.tree.put place node }

/-- Take away a single node. -/
def without (disk : Disk) (place : List Str) : Disk :=
  { disk with tree := disk.tree.prune (· ≠ place) }

/-- Take away a node with all that lies below it. -/
def withoutAll (disk : Disk) (place : List Str) : Disk :=
  { disk with tree := disk.tree.prune fun other => ¬ place <+: other }

/-- `boost::filesystem::create_directory`: a directory that exists already is
no error. -/
def createDirectory (host : Host) (path : Str) : Act Disk Bool :=
  Act.attempt fun disk =>
    match disk.resolve path with
    | none => (.error .filesystemError, disk)
    | some place =>
        match disk.tree.node? place with
        | some .directory => (.ok false, disk)
        | some (.file _) => (.error .filesystemError, disk)
        | none =>
            if host.works .createDirectory then (.ok true, disk.put place .directory)
            else (.error .filesystemError, disk)

/-- The names a `directory_iterator` visits. -/
def directoryIterator (host : Host) (path : Str) : Act Disk (List Str) :=
  Act.attempt fun disk =>
    match disk.resolve path with
    | none => (.error .filesystemError, disk)
    | some place =>
        if disk.tree.isDirectory place ∧ host.works .openDirectory then
          (.ok (host.listing (disk.tree.children place)), disk)
        else (.error .filesystemError, disk)

/-- `fopen(path, "w")`: the file, created or cut to length 0, or null. -/
def fopen (host : Host) (path : Str) : Act Disk (Option (List Str)) :=
  Act.attempt fun disk =>
    match disk.resolve path with
    | none => (.ok none, disk)
    | some place =>
        if disk.tree.isDirectory place ∨ host.works .fopen = false then
          (.ok none, disk)
        else (.ok (some place), disk.put place (.file []))

/-- `fputs(text, fp)`, `fflush` and `fclose` on a file opened at its start. -/
def fputs (host : Host) (fp : List Str) (text : Str) : Act Disk Unit :=
  Act.attempt fun disk =>
    match disk.tree.node? fp with
    | some (.file content) =>
        (.ok (), disk.put fp (.file (overlay (host.written text) content)))
    | _ => (.ok (), disk)

/-- `boost::filesystem::remove`: whether something was removed. -/
def remove (host : Host) (path : Str) : Act Disk Bool :=
  Act.attempt fun disk =>
    match disk.resolve path with
    | none => (.ok false, disk)
    | some place =>
        match disk.tree.node? place with
        | none => (.ok false, disk)
        | some (.file _) =>
            if host.works .unlink then (.ok true, disk.without place)
            else (.error .filesystemError, disk)
        | some .directory =>
            if host.works .unlink ∧ disk.tree.children place = [] ∧ place ≠ [] then
              (.ok true, disk.without place)
            else (.error .filesystemError, disk)

/-- `boost::filesystem::is_empty`. -/
def isEmpty (path : Str) : Act Disk Bool :=
  Act.attempt fun disk =>
    match disk.resolve path with
    | none => (.error .filesystemError, disk)
    | some place =>
        match disk.tree.node? place with
        | none => (.error .filesystemError, disk)
        | some (.file content) => (.ok (content = []), disk)
        | some .directory => (.ok (disk.tree.children place = []), disk)

/-- `boost::filesystem::remove_all`.  A path that ends in `.` or `..` cannot be
removed itself. -/
def removeAll (host : Host) (path : Str) : Act Disk Unit :=
  Act.attempt fun disk =>
    match disk.resolve path with
    | none => (.ok (), disk)
    | some place =>
        if host.works .removeAll = false then (.error .filesystemError, disk)
        else if (components path).getLast? = some .here ∨
            (components path).getLast? = some .up ∨ place = [] then
          (.error .filesystemError,
            { disk with
              tree := disk.tree.prune fun other => other = place ∨ ¬ place <+: other })
        else
          (.ok (), disk.withoutAll place)

end Disk

end SwanServer
