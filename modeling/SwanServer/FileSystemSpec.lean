/-
What the operations of `RealFileSystem` do to the disk for paths that resolve,
on any host and on one on which everything works.
-/
import SwanServer.FileSystem

namespace SwanServer

open FileTree Overlay

namespace Disk

variable {disk later : Disk} {path : Str} {place : List Str}

/-- `later` has the directories of `disk`, at least. -/
structure Extends (disk later : Disk) : Prop where
  cwd : later.cwd = disk.cwd
  directory : ∀ {place}, disk.tree.isDirectory place = true →
    later.tree.isDirectory place = true

theorem Extends.refl (disk : Disk) : Extends disk disk := ⟨rfl, id⟩

theorem Extends.trans {last : Disk} (hfirst : Extends disk later)
    (hsecond : Extends later last) : Extends disk last :=
  ⟨hsecond.cwd.trans hfirst.cwd, fun h => hsecond.directory (hfirst.directory h)⟩

/-- What resolves keeps resolving while directories stay. -/
theorem Extends.resolve (hextends : Extends disk later)
    (hresolve : disk.resolve path = some place) : later.resolve path = some place := by
  rw [Disk.resolve] at hresolve ⊢
  split at hresolve
  · contradiction
  · next hne =>
      rw [if_neg hne, hextends.cwd]
      exact Tree.walk_mono (fun _ => hextends.directory) _ hresolve

theorem node?_put (hplace : place ≠ []) (node : Node Str) (other : List Str) :
    (disk.put place node).tree.node? other =
      if other = place then some node else disk.tree.node? other :=
  Tree.node?_put disk.tree hplace node other

theorem extends_put (hplace : disk.tree.isDirectory place = false) (node : Node Str) :
    Extends disk (disk.put place node) := by
  refine ⟨rfl, ?_⟩
  intro other hother
  have hne : other ≠ place := by
    rintro rfl
    rw [hplace] at hother
    contradiction
  have hplace' : place ≠ [] := by
    rintro rfl
    contradiction
  rw [Tree.isDirectory_iff] at hother ⊢
  rw [node?_put hplace', if_neg hne, hother]

/-- The disk once a directory is made sure of. -/
def ensured (disk : Disk) (place : List Str) : Disk :=
  if disk.tree.node? place = none then disk.put place .directory else disk

/-- The disk once a file is opened for writing and a text is written to it. -/
def written (disk : Disk) (place : List Str) (content : Str) : Disk :=
  (disk.put place (.file [])).put place (.file content)

/-- Where `fopen(path, "w")` opens a file. -/
def openable (disk : Disk) (path : Str) : Option (List Str) :=
  match disk.resolve path with
  | some place => if disk.tree.isDirectory place then none else some place
  | none => none

/-- Where `fopen(path, "w")` opens a file on a host. -/
def opens (host : Host) (disk : Disk) (path : Str) : Option (List Str) :=
  if host.works .fopen then disk.openable path else none

theorem opens_eq_some_iff {host : Host} :
    disk.opens host path = some place ↔
      host.works .fopen = true ∧ disk.openable path = some place := by
  rw [opens]
  split <;> simp_all

theorem isDirectory_of_openable (hopen : disk.openable path = some place) :
    disk.tree.isDirectory place = false := by
  rw [openable] at hopen
  split at hopen
  · split at hopen
    · contradiction
    · next hdirectory =>
        cases hopen
        exact Bool.eq_false_of_not_eq_true hdirectory
  · contradiction

theorem ne_nil_of_isDirectory (hplace : disk.tree.isDirectory place = false) :
    place ≠ [] := by
  rintro rfl
  contradiction

theorem extends_ensured (disk : Disk) (place : List Str) :
    Extends disk (disk.ensured place) := by
  rw [ensured]
  split
  · next hnone =>
      apply extends_put
      rw [Tree.isDirectory, hnone]
  · exact Extends.refl disk

theorem extends_written (hplace : disk.tree.isDirectory place = false)
    (content : Str) : Extends disk (disk.written place content) := by
  have hput : (disk.put place (.file [])).tree.isDirectory place = false := by
    rw [Tree.isDirectory, node?_put (ne_nil_of_isDirectory hplace), if_pos rfl]
  exact (extends_put hplace _).trans (extends_put hput _)

theorem node?_written (hplace : place ≠ []) (content : Str) (other : List Str) :
    (disk.written place content).tree.node? other =
      if other = place then some (.file content) else disk.tree.node? other := by
  rw [written, node?_put hplace, node?_put hplace]
  split <;> rfl

/-- An ensured place is a directory, unless a file was there. -/
theorem node?_ensured (hplace : place ≠ []) (other : List Str) :
    (disk.ensured place).tree.node? other =
      if other = place ∧ disk.tree.node? place = none then some .directory
      else disk.tree.node? other := by
  rw [ensured]
  by_cases hnone : disk.tree.node? place = none
  · simp [hnone, node?_put hplace]
  · simp [hnone]

theorem status_of_resolve (hresolve : disk.resolve path = some place) :
    disk.status path = disk.tree.node? place := by
  rw [status, hresolve, Option.bind_some]

theorem isRegularFile_eq_true_iff (hresolve : disk.resolve path = some place) :
    disk.isRegularFile path = true ↔
      ∃ content, disk.tree.node? place = some (.file content) := by
  rw [isRegularFile, status_of_resolve hresolve]
  split <;> simp_all

/-- A directory can be made sure of unless a file is in its place. -/
theorem isDirectory_ensured_iff (hresolve : disk.resolve path = some place) :
    (disk.ensured place).tree.isDirectory place = true ↔
      disk.isRegularFile path = false := by
  rw [← Bool.not_eq_true, isRegularFile_eq_true_iff hresolve, Tree.isDirectory_iff, ensured]
  cases hnode : disk.tree.node? place with
  | none =>
      have hplace : place ≠ [] := by
        rintro rfl
        contradiction
      simp [node?_put hplace]
  | some node => cases node <;> simp [hnode]

theorem mem_children_ensured (disk : Disk) (place : List Str) (name : Str) :
    name ∈ (disk.ensured place).tree.children place ↔
      name ∈ disk.tree.children place := by
  rw [ensured]
  split
  · next hnone =>
      have hplace : place ≠ [] := by
        rintro rfl
        contradiction
      rw [Tree.mem_children, Tree.mem_children, node?_put hplace, if_neg (by simp)]
  · rfl

/-- The disk once a file is unlinked and, if that was the last entry, its
directory removed. -/
def cleaned (disk : Disk) (dir place : List Str) : Disk :=
  if (disk.without place).tree.children dir = [] then
    (disk.without place).withoutAll dir
  else disk.without place

theorem node?_without (hplace : place ≠ []) (other : List Str) :
    (disk.without place).tree.node? other =
      if other = place then none else disk.tree.node? other := by
  by_cases hother : other = []
  · rw [hother, if_neg (Ne.symm hplace)]
    rfl
  · rw [without, Tree.node?_prune _ _ hother]
    by_cases heq : other = place <;> simp [heq]

/-- Only the last file of a directory leaves it empty. -/
theorem children_without_eq_nil_iff {dir : List Str} {name : Str}
    (hname : disk.tree.node? (dir ++ [name]) ≠ none) :
    (disk.without (dir ++ [name])).tree.children dir = [] ↔
      disk.tree.children dir = [name] := by
  have hmem : ∀ other, other ∈ (disk.without (dir ++ [name])).tree.children dir ↔
      other ≠ name ∧ other ∈ disk.tree.children dir := by
    intro other
    rw [Tree.mem_children, Tree.mem_children, node?_without (by simp)]
    by_cases heq : other = name <;> simp [heq]
  rw [← List.perm_singleton, List.perm_ext_iff_of_nodup (Tree.children_nodup _ _)
    (List.nodup_singleton name), List.eq_nil_iff_forall_not_mem]
  simp only [hmem, List.mem_singleton, not_and, ← Tree.mem_children] at hname ⊢
  constructor
  · intro hothers other
    constructor
    · intro hother
      by_contra hne
      exact hothers other hne hother
    · rintro rfl
      exact hname
  · intro hall other hne hother
    exact hne ((hall other).mp hother)

/-- Unlinking a file takes no directory away. -/
theorem extends_without {content : Str}
    (hfile : disk.tree.node? place = some (.file content)) :
    Extends disk (disk.without place) := by
  have hplace : place ≠ [] := by
    rintro rfl
    cases hfile
  refine ⟨rfl, ?_⟩
  intro other hother
  rw [Tree.isDirectory_iff] at hother ⊢
  rw [node?_without hplace, if_neg, hother]
  rintro rfl
  rw [hfile] at hother
  cases hother

theorem node?_withoutAll (hplace : place ≠ []) (other : List Str) :
    (disk.withoutAll place).tree.node? other =
      if place <+: other then none else disk.tree.node? other := by
  by_cases hother : other = []
  · rw [hother, if_neg (by rwa [List.prefix_nil])]
    rfl
  · rw [withoutAll, Tree.node?_prune _ _ hother]
    by_cases hstarts : place <+: other <;> simp [hstarts]

end Disk

namespace RealFileSystem

section AnyHost

variable (host : Host) {disk : Disk} {path : Str} {dir place : List Str}

theorem exec_ensureDirectory_of_resolve_none (hresolve : disk.resolve path = none) :
    (ensureDirectory host path).exec disk = (.error .filesystemError, disk) := by
  have habsent : (Act.attempt fun disk : Disk =>
      ((.ok (disk.pathExists path) : Except Fault Bool), disk)).exec disk =
        (.ok false, disk) := by
    rw [Act.exec_attempt, Disk.pathExists, Disk.status, hresolve]
    rfl
  have hcreate : (Disk.createDirectory host path).exec disk =
      (.error .filesystemError, disk) := by
    rw [Disk.createDirectory, Act.exec_attempt, hresolve]
  rw [ensureDirectory, Act.exec_bind_ok habsent, if_pos rfl, Act.exec_bind_error hcreate]

/-- A directory is made sure of unless it is missing and cannot be created. -/
theorem ensureDirectory_spec (hresolve : disk.resolve path = some place) :
    (ensureDirectory host path).exec disk =
      if disk.tree.node? place = none ∧ host.works .createDirectory = false then
        (.error .filesystemError, disk)
      else (.ok (), disk.ensured place) := by
  have hpresent : disk.pathExists path = (disk.tree.node? place).isSome := by
    rw [Disk.pathExists, Disk.status, hresolve, Option.bind_some]
  have hexists : (Act.attempt fun disk : Disk =>
      ((.ok (disk.pathExists path) : Except Fault Bool), disk)).exec disk =
        (.ok (disk.tree.node? place).isSome, disk) := by
    rw [Act.exec_attempt, hpresent]
  rw [ensureDirectory, Act.exec_bind_ok hexists]
  cases hnode : disk.tree.node? place with
  | some node => simp [Disk.ensured, hnode]
  | none =>
      have hcreate : (Disk.createDirectory host path).exec disk =
          if host.works .createDirectory then (.ok true, disk.put place .directory)
          else (.error .filesystemError, disk) := by
        rw [Disk.createDirectory, Act.exec_attempt]
        simp only [hresolve, hnode]
      simp only [Option.isSome_none, ↓reduceIte, true_and]
      cases hworks : host.works .createDirectory with
      | false =>
          rw [hworks, if_neg (by simp)] at hcreate
          rw [Act.exec_bind_error hcreate, if_pos rfl]
      | true =>
          rw [hworks, if_pos rfl] at hcreate
          rw [Act.exec_bind_ok hcreate, Disk.ensured, if_pos hnode]
          rfl

theorem directoryIterator_spec (hresolve : disk.resolve path = some place) :
    (Disk.directoryIterator host path).exec disk =
      if disk.tree.isDirectory place ∧ host.works .openDirectory then
        (.ok (host.listing (disk.tree.children place)), disk)
      else (.error .filesystemError, disk) := by
  rw [Disk.directoryIterator, Act.exec_attempt, hresolve]

/-- Opening a file for writing and writing a text to it. -/
theorem fopen_fputs_spec {α : Type} (text : Str) (opened failed : α) :
    (Disk.fopen host path >>= fun fp =>
        match fp with
        | some fp => do
            Disk.fputs host fp text
            return opened
        | none => pure failed : Act Disk α).exec disk =
      match disk.opens host path with
      | some place => (.ok opened, disk.written place (host.written text))
      | none => (.ok failed, disk) := by
  cases hopens : disk.opens host path with
  | none =>
      have hfopen : (Disk.fopen host path).exec disk = (.ok none, disk) := by
        rw [Disk.fopen, Act.exec_attempt]
        rw [Disk.opens, Disk.openable] at hopens
        cases hresolve : disk.resolve path with
        | none => rfl
        | some place =>
            cases hdirectory : disk.tree.isDirectory place <;>
              cases hworks : host.works .fopen <;> simp_all
      rw [Act.exec_bind_ok hfopen]
      rfl
  | some place =>
      obtain ⟨hworks, hopen⟩ := Disk.opens_eq_some_iff.mp hopens
      have hdirectory := Disk.isDirectory_of_openable hopen
      have hfopen : (Disk.fopen host path).exec disk =
          (.ok (some place), disk.put place (.file [])) := by
        rw [Disk.fopen, Act.exec_attempt]
        rw [Disk.openable] at hopen
        split at hopen
        · next hresolve =>
            split at hopen
            · contradiction
            · cases hopen
              simp [hresolve, hdirectory, hworks]
        · contradiction
      have hfputs : (Disk.fputs host place text).exec (disk.put place (.file [])) =
          (.ok (), disk.written place (host.written text)) := by
        rw [Disk.fputs, Act.exec_attempt,
          Disk.node?_put (Disk.ne_nil_of_isDirectory hdirectory), if_pos rfl]
        simp only [overlay_nil, Disk.written]
      rw [Act.exec_bind_ok hfopen, Act.exec_bind_ok hfputs]
      rfl

/-- `write_file` throws where it cannot create the directory, and fails where it
cannot open the file. -/
theorem writeFile_spec (hresolve : disk.resolve (parentPath path) = some dir)
    (body : Str) :
    (writeFile host path body).exec disk =
      if disk.tree.node? dir = none ∧ host.works .createDirectory = false then
        (.error .filesystemError, disk)
      else
        match (disk.ensured dir).opens host path with
        | some place =>
            (.ok true, (disk.ensured dir).written place (host.written (cStr body)))
        | none => (.ok false, disk.ensured dir) := by
  have hensure := ensureDirectory_spec host hresolve
  rw [writeFile]
  split at hensure
  · next hfails => rw [if_pos hfails, Act.exec_bind_error hensure]
  · next hworks =>
      rw [if_neg hworks, Act.exec_bind_ok hensure]
      exact fopen_fputs_spec host (cStr body) true false

/-- `gen_id_and_write_file` throws where it cannot create or list the directory
or read a name in it as an `int`, and fails where it cannot open the file. -/
theorem genIdAndWriteFile_spec (hresolve : disk.resolve path = some dir) (body : Str) :
    (genIdAndWriteFile host path body).exec disk =
      if disk.tree.node? dir = none ∧ host.works .createDirectory = false then
        (.error .filesystemError, disk)
      else if (disk.ensured dir).tree.isDirectory dir ∧ host.works .openDirectory then
        match uniqueFileName (host.listing ((disk.ensured dir).tree.children dir)) with
        | .error fault => (.error fault, disk.ensured dir)
        | .ok id =>
            match (disk.ensured dir).opens host (path ++ '/' :: toStringInt id) with
            | some place =>
                (.ok id, (disk.ensured dir).written place (host.written (cStr body)))
            | none => (.ok (-1), disk.ensured dir)
      else (.error .filesystemError, disk.ensured dir) := by
  have hensure := ensureDirectory_spec host hresolve
  rw [genIdAndWriteFile]
  split at hensure
  · next hfails => rw [if_pos hfails, Act.exec_bind_error hensure]
  · next hworks =>
      rw [if_neg hworks, Act.exec_bind_ok hensure]
      have hnames := directoryIterator_spec host
        ((Disk.extends_ensured disk dir).resolve hresolve)
      split at hnames
      · next hlists =>
          have hid : (getUniqueFileName host path).exec (disk.ensured dir) =
              (uniqueFileName (host.listing ((disk.ensured dir).tree.children dir)),
                disk.ensured dir) := by
            rw [getUniqueFileName, Act.exec_bind_ok hnames, Act.exec_ofExcept]
          rw [if_pos hlists]
          cases hunique : uniqueFileName
              (host.listing ((disk.ensured dir).tree.children dir)) with
          | error fault =>
              rw [hunique] at hid
              rw [Act.exec_bind_error hid]
          | ok id =>
              rw [hunique] at hid
              rw [Act.exec_bind_ok hid]
              change (Disk.fopen host (path ++ "/".toList ++ toStringInt id) >>= _).exec _ = _
              rw [List.append_assoc]
              exact fopen_fputs_spec host (cStr body) id (-1)
      · next hthrows =>
          have hid : (getUniqueFileName host path).exec (disk.ensured dir) =
              (.error .filesystemError, disk.ensured dir) := by
            rw [getUniqueFileName, Act.exec_bind_error hnames]
          rw [if_neg hthrows, Act.exec_bind_error hid]

theorem exec_writeFile_of_resolve_none (hresolve : disk.resolve (parentPath path) = none)
    (body : Str) : (writeFile host path body).exec disk = (.error .filesystemError, disk) :=
  Act.exec_bind_error (exec_ensureDirectory_of_resolve_none host hresolve)

theorem exec_genIdAndWriteFile_of_resolve_none (hresolve : disk.resolve path = none)
    (body : Str) :
    (genIdAndWriteFile host path body).exec disk = (.error .filesystemError, disk) :=
  Act.exec_bind_error (exec_ensureDirectory_of_resolve_none host hresolve)

end AnyHost

section WorkingHost

variable {host : Host} (hhost : host.Succeeds) {disk : Disk} {path : Str}
  {dir place : List Str}

include hhost

theorem opens_eq_openable (disk : Disk) (path : Str) :
    disk.opens host path = disk.openable path := by
  rw [Disk.opens, if_pos (hhost.1 _)]

theorem exec_directoryIterator (hresolve : disk.resolve path = some place) :
    (Disk.directoryIterator host path).exec disk =
      if disk.tree.isDirectory place then
        (.ok (host.listing (disk.tree.children place)), disk)
      else (.error .filesystemError, disk) := by
  rw [directoryIterator_spec host hresolve]
  simp only [hhost.1, and_true]

/-- `write_file` succeeds wherever its file can be opened. -/
theorem exec_writeFile (hresolve : disk.resolve (parentPath path) = some dir)
    (body : Str) :
    (writeFile host path body).exec disk =
      match (disk.ensured dir).openable path with
      | some place => (.ok true, (disk.ensured dir).written place (cStr body))
      | none => (.ok false, disk.ensured dir) := by
  rw [writeFile_spec host hresolve body, if_neg (by simp [hhost.1]),
    opens_eq_openable hhost, hhost.2]

/-- `gen_id_and_write_file` fails only where the path leads to a file or a name
in the directory cannot be read as an `int`. -/
theorem exec_genIdAndWriteFile (hresolve : disk.resolve path = some dir)
    (body : Str) :
    (genIdAndWriteFile host path body).exec disk =
      if (disk.ensured dir).tree.isDirectory dir then
        match uniqueFileName (host.listing ((disk.ensured dir).tree.children dir)) with
        | .error fault => (.error fault, disk.ensured dir)
        | .ok id =>
            match (disk.ensured dir).openable (path ++ '/' :: toStringInt id) with
            | some place => (.ok id, (disk.ensured dir).written place (cStr body))
            | none => (.ok (-1), disk.ensured dir)
      else (.error .filesystemError, disk.ensured dir) := by
  rw [genIdAndWriteFile_spec host hresolve body, if_neg (by simp [hhost.1])]
  simp only [hhost.1, and_true, opens_eq_openable hhost, hhost.2]

theorem exec_getFileList (hresolve : disk.resolve path = some place) :
    (getFileList host path).exec disk =
      if disk.tree.isDirectory place then
        (.ok (fileList (host.listing (disk.tree.children place))), disk)
      else (.error .filesystemError, disk) := by
  have hnames := exec_directoryIterator hhost hresolve
  rw [getFileList]
  split
  · next hdirectory =>
      rw [if_pos hdirectory] at hnames
      rw [Act.exec_bind_ok hnames]
      rfl
  · next hdirectory =>
      rw [if_neg hdirectory] at hnames
      rw [Act.exec_bind_error hnames]

/-- `remove` of a regular file whose directory is `dir`. -/
theorem exec_remove {content : Str} (hresolve : disk.resolve path = some place)
    (hfile : disk.tree.node? place = some (.file content))
    (hparent : disk.resolve (parentPath path) = some dir)
    (hdirectory : disk.tree.isDirectory dir = true) :
    (remove host path).exec disk =
      if (disk.without place).tree.children dir = [] ∧
          ((components (parentPath path)).getLast? = some .here ∨
            (components (parentPath path)).getLast? = some .up ∨ dir = []) then
        (.error .filesystemError,
          { disk with
            tree := (disk.without place).tree.prune fun other =>
              other = dir ∨ ¬ dir <+: other })
      else (.ok true, disk.cleaned dir place) := by
  have hremove : (Disk.remove host path).exec disk = (.ok true, disk.without place) := by
    rw [Disk.remove, Act.exec_attempt]
    simp [hresolve, hfile, hhost.1]
  have hextends := Disk.extends_without hfile
  have hparent' := hextends.resolve hparent
  have hdirectory' := (Tree.isDirectory_iff _ _).mp (hextends.directory hdirectory)
  have hempty : (Disk.isEmpty (parentPath path)).exec (disk.without place) =
      (.ok ((disk.without place).tree.children dir = []), disk.without place) := by
    rw [Disk.isEmpty, Act.exec_attempt]
    simp [hparent', hdirectory']
  rw [remove, Act.exec_bind_ok hremove, Act.exec_bind_ok hempty]
  by_cases hchildren : (disk.without place).tree.children dir = []
  · have hremoveAll : (Disk.removeAll host (parentPath path)).exec (disk.without place) = _ :=
      Act.exec_attempt _ _
    simp only [hparent', hhost.1, Bool.true_eq_false, ↓reduceIte] at hremoveAll
    simp only [hchildren, decide_true, ↓reduceIte, true_and, Disk.cleaned]
    by_cases hstays : (components (parentPath path)).getLast? = some .here ∨
        (components (parentPath path)).getLast? = some .up ∨ dir = []
    · rw [if_pos hstays] at hremoveAll ⊢
      rw [Act.exec_bind_error hremoveAll]
      rfl
    · rw [if_neg hstays] at hremoveAll ⊢
      rw [Act.exec_bind_ok hremoveAll]
      rfl
  · simp [hchildren, Disk.cleaned]

end WorkingHost

end RealFileSystem

end SwanServer
