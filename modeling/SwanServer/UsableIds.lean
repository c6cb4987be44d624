/-
The ids that POST answers with.  Every id is one more than the largest number in
the directory; clients choose numbers too, up to the largest `int`.
-/
import SwanServer.CrudRefinement
import SwanServer.FailedRequests
import SwanServer.RequestSafety

namespace SwanServer

open FileTree LexicalPath

/-- One API handler that is asked again and again on hosts of any behaviour. -/
def hostedMachine (location dataPath : Str) :
    Machine Disk (Host × Request) (Except Fault (Bool × Response)) where
  step disk input :=
    ((ApiHandler.real location dataPath input.1).handleRequest input.2
      Response.empty).exec disk

/-- The target names an entity, by another name than `.` and `..`. -/
def NamesEntity (httpRequest : Request) : Prop :=
  ∃ entity rest, behindLocation httpRequest.target = entity :: rest ∧ IsName entity

namespace Reached

variable {start disk : Disk} {root : List Str} {place : List Str}

/-- What was no directory at the start may be removed. -/
theorem without_new (hreached : Reached start root disk)
    (hnew : start.tree.isDirectory place = false) :
    Reached start root (disk.without place) := by
  have hplace := Disk.ne_nil_of_isDirectory hnew
  apply hreached.step
  · refine ⟨hreached.extends_start.cwd, ?_⟩
    intro other hother
    have hne : other ≠ place := by
      rintro rfl
      rw [hnew] at hother
      contradiction
    rw [Tree.isDirectory_iff, Disk.node?_without hplace, if_neg hne, ← Tree.isDirectory_iff]
    exact hreached.extends_start.directory hother
  · intro entity name hnode
    rw [Disk.node?_without hplace] at hnode
    split at hnode
    · contradiction
    · exact Or.inl hnode

end Reached

namespace RealFileSystem

theorem readsOnly_isEmpty (path : Str) : (Disk.isEmpty path).ReadsOnly := by
  intro disk
  rw [Disk.isEmpty, Act.exec_attempt]
  split
  · rfl
  · split <;> rfl

/-- An id other than -1 is the next one, and its file holds what the host wrote. -/
theorem exists_of_genIdAndWriteFile_eq_ok (host : Host) {disk later : Disk} {path : Str}
    {dir : List Str} (hresolve : disk.resolve path = some dir) {body : Str} {id : Int}
    (hexec : (genIdAndWriteFile host path body).exec disk = (.ok id, later))
    (hne : id ≠ -1) :
    ∃ names, uniqueFileName names = .ok id ∧
      (∀ name, name ∈ names ↔ name ∈ disk.tree.children dir) ∧
      later.tree.isDirectory dir = true ∧
      later.tree.node? (dir ++ [toStringInt id]) =
        some (.file (host.written (cStr body))) := by
  rw [genIdAndWriteFile_spec host hresolve] at hexec
  split at hexec
  · cases hexec
  split at hexec
  · next hlists =>
      split at hexec
      · cases hexec
      · next id hunique =>
          split at hexec
          · next file hopens =>
              cases hexec
              have hsegment := toStringInt_segment id
              obtain ⟨rfl, hfile⟩ := Disk.eq_of_openable
                ((Disk.extends_ensured disk _).resolve hresolve)
                ⟨hsegment.1, hsegment.2.1, isName_of_not_mem hsegment.2.2⟩
                (Disk.opens_eq_some_iff.mp hopens).2
              refine ⟨_, hunique, ?_, ?_, ?_⟩
              · intro name
                rw [(host.listing_perm _).mem_iff, Disk.mem_children_ensured]
              · exact (Disk.extends_written hfile _).directory hlists.1
              · rw [Disk.node?_written (by simp), if_pos rfl]
          · cases hexec
            contradiction
  · cases hexec

variable (host : Host) {start : Disk} {root dir : List Str} {path fileName : Str}
  (hresolve : ∀ disk, Reached start root disk → disk.resolve path = some dir)
  (hdir : dir.length ≤ root.length + 1)

include hresolve hdir

theorem preserves_genIdAndWriteFile (body : Str) :
    (genIdAndWriteFile host path body).Preserves (Reached start root) := by
  intro disk hreached
  have hensured := hreached.ensured hdir
  rw [genIdAndWriteFile_spec host (hresolve disk hreached)]
  split
  · exact hreached
  split
  · split
    · exact hensured
    next id hunique =>
    split
    · next file hopens =>
        obtain ⟨n, rfl⟩ := exists_wrapInt_of_uniqueFileName hunique
        have hname : Numbered (toStringInt (wrapInt n)) :=
          Or.inr ⟨_, (wrapInt_mem n).1, (wrapInt_mem n).2, rfl⟩
        obtain ⟨rfl, hfile⟩ := Disk.eq_of_openable (hresolve _ hensured) hname.segment
          (Disk.opens_eq_some_iff.mp hopens).2
        exact hensured.written hfile hname _
    · exact hensured
  · exact hensured

theorem preserves_writeFile (hparent : parentPath (path ++ '/' :: fileName) = path)
    (hname : Numbered fileName) (body : Str) :
    (writeFile host (path ++ '/' :: fileName) body).Preserves (Reached start root) := by
  intro disk hreached
  have hensured := hreached.ensured hdir
  rw [writeFile_spec host (hparent.symm ▸ hresolve disk hreached)]
  split
  · exact hreached
  split
  · next file hopens =>
      obtain ⟨rfl, hfile⟩ := Disk.eq_of_openable (hresolve _ hensured) hname.segment
        (Disk.opens_eq_some_iff.mp hopens).2
      exact hensured.written hfile hname _
  · exact hensured

omit hdir in
theorem preserves_unlink (hname : fileName ≠ [] ∧ '/' ∉ fileName ∧ IsName fileName)
    (hnew : start.tree.isDirectory (dir ++ [fileName]) = false) :
    (Disk.remove host (path ++ '/' :: fileName)).Preserves (Reached start root) := by
  intro disk hreached
  have hwithout : Reached start root (disk.without (dir ++ [fileName])) :=
    hreached.without_new hnew
  rw [Disk.remove, Act.exec_attempt,
    Disk.resolve_append_segment (hresolve disk hreached) hname.1 hname.2.1,
    component_of_isName hname.2.2, Tree.enter]
  by_cases hdirectory : disk.tree.isDirectory dir = true
  · simp only [hdirectory, ↓reduceIte]
    split
    · exact hreached
    · split
      · exact hwithout
      · exact hreached
    · split
      · exact hwithout
      · exact hreached
  · simp only [hdirectory, Bool.false_eq_true, ↓reduceIte]
    exact hreached

omit hdir in
theorem preserves_removeAll (hnew : ∀ rest, start.tree.isDirectory (dir ++ rest) = false)
    (hlast : (components path).getLast? ≠ some .here ∧
      (components path).getLast? ≠ some .up) :
    (Disk.removeAll host path).Preserves (Reached start root) := by
  intro disk hreached
  have hstart : start.tree.isDirectory dir = false := by simpa using hnew []
  have hne : dir ≠ [] := Disk.ne_nil_of_isDirectory hstart
  rw [Disk.removeAll, Act.exec_attempt, hresolve disk hreached]
  simp only [hlast.1, hlast.2, hne, or_self, ↓reduceIte]
  split
  · exact hreached
  · refine hreached.withoutAll hne ?_
    rintro other ⟨rest, rfl⟩
    exact hnew rest

omit hdir in
/-- A file in a directory that was not there at the start is removed, and then the
directory. -/
theorem preserves_remove (hparent : parentPath (path ++ '/' :: fileName) = path)
    (hname : fileName ≠ [] ∧ '/' ∉ fileName ∧ IsName fileName)
    (hnew : ∀ rest, start.tree.isDirectory (dir ++ rest) = false)
    (hlast : (components path).getLast? ≠ some .here ∧
      (components path).getLast? ≠ some .up) :
    (remove host (path ++ '/' :: fileName)).Preserves (Reached start root) := by
  have hunlink := preserves_unlink host hresolve hname (hnew [fileName])
  have hall := preserves_removeAll host hresolve hnew hlast
  rw [remove, hparent]
  refine hunlink.bind fun success => ?_
  refine ((readsOnly_isEmpty path).preserves _).bind fun empty => ?_
  cases empty with
  | false => exact (Act.readsOnly_pure success).preserves _
  | true => exact hall.bind fun _ => (Act.readsOnly_pure success).preserves _

end RealFileSystem

namespace ApiHandler

section History

variable (location : Str) (host : Host) {start : Disk} {dataPath : Str} {root : List Str}
  (hstart : EmptyDirectory start dataPath root) {entity fileName : Str}
  (hentity : entity ≠ [] ∧ '/' ∉ entity ∧ IsName entity)
  (httpRequest : Request) (httpResponse : Response)

include hstart hentity

theorem resolve_of_reached (disk : Disk) (hreached : Reached start root disk) :
    disk.resolve ((real location dataPath host).entityPath entity) =
      some (root ++ [entity]) := by
  rw [resolve_entityPath (real location dataPath host) hstart hreached.extends_start
    hentity.1 hentity.2.1, component_of_isName hentity.2.2]
  rfl

theorem preserves_handlePost :
    ((real location dataPath host).handlePost [entity] httpRequest httpResponse).Preserves
      (Reached start root) := by
  rw [handlePost_entity]
  apply Act.Preserves.bind
  · exact RealFileSystem.preserves_genIdAndWriteFile host
      (resolve_of_reached location host hstart hentity) (by simp) httpRequest.body
  · intro id
    split <;> exact (Act.readsOnly_pure _).preserves _

variable (hfile : IsDigits fileName)

include hfile

theorem preserves_handlePut :
    ((real location dataPath host).handlePut [entity, fileName] httpRequest
      httpResponse).Preserves (Reached start root) := by
  have hparent := parentPath_filePath (real location dataPath host) hentity.1 hentity.2.1
    (hfile.not_mem (by decide) : '/' ∉ fileName)
  rw [filePath_eq_entityPath] at hparent
  rw [handlePut_file, filePath_eq_entityPath]
  apply Act.Preserves.bind
  · exact RealFileSystem.preserves_writeFile host
      (resolve_of_reached location host hstart hentity) (by simp) hparent (Or.inl hfile) _
  · intro success
    split <;> exact (Act.readsOnly_pure _).preserves _

theorem preserves_handleDelete :
    ((real location dataPath host).handleDelete [entity, fileName] httpResponse).Preserves
      (Reached start root) := by
  have hname := Numbered.segment (Or.inl hfile)
  have hparent := parentPath_filePath (real location dataPath host) hentity.1 hentity.2.1
    hname.2.1
  have hlast := getLast?_components_entityPath (real location dataPath host) hentity.1
    hentity.2.1
  rw [component_of_isName hentity.2.2] at hlast
  have hnew : ∀ rest, start.tree.isDirectory (root ++ [entity] ++ rest) = false := by
    intro rest
    rw [Tree.isDirectory, List.append_assoc, hstart.empty _ (by simp)]
  have hregular : ((real location dataPath host).fs.isRegularFile
      ((real location dataPath host).filePath entity fileName)).ReadsOnly := fun _ => rfl
  rw [filePath_eq_entityPath] at hparent
  rw [handleDelete_file]
  refine (hregular.preserves _).bind fun regular => ?_
  split
  · exact (Act.readsOnly_pure _).preserves _
  · rw [filePath_eq_entityPath]
    apply Act.Preserves.bind
    · exact RealFileSystem.preserves_remove host
        (resolve_of_reached location host hstart hentity) hparent hname hnew
        (by simp [hlast])
    · intro removed
      split <;> exact (Act.readsOnly_pure _).preserves _

end History

section Runs

variable (location : Str) {start : Disk} {dataPath : Str} {root : List Str}
  (hstart : EmptyDirectory start dataPath root)

include hstart

/-- Whatever the host does, a request leaves only numbers in the directories of
entities. -/
theorem preserves_handleRequest (host : Host) {httpRequest : Request}
    (hnames : NamesEntity httpRequest) (httpResponse : Response) :
    ((real location dataPath host).handleRequest httpRequest httpResponse).Preserves
      (Reached start root) := by
  obtain ⟨entity, rest, hbehind, hname⟩ := hnames
  have hmem := mem_of_split (split_of_behindLocation hbehind) List.mem_cons_self
  have hentity : entity ≠ [] ∧ '/' ∉ entity ∧ IsName entity := ⟨hmem.1, hmem.2.1, hname⟩
  have hget : ∀ uri, ((real location dataPath host).handleGet uri httpResponse).Preserves
      (Reached start root) :=
    fun uri => (readsOnly_handleGet location dataPath host httpResponse uri).preserves _
  have hhandles := handles_handleRequest (real location dataPath host) httpResponse hbehind
  generalize (real location dataPath host).handleRequest httpRequest httpResponse = act
    at hhandles ⊢
  generalize Operation.ofRequest httpRequest = operation at hhandles
  cases hhandles with
  | post => exact preserves_handlePost location host hstart hentity httpRequest httpResponse
  | list => exact hget _
  | get id => exact hget _
  | put id =>
      exact preserves_handlePut location host hstart hentity httpRequest httpResponse id.2
  | delete id => exact preserves_handleDelete location host hstart hentity httpResponse id.2
  | deep name next rest => exact hget _
  | rejected text => exact (Act.readsOnly_pure _).preserves _

/-- So does a run of requests. -/
theorem reached_final {history : List (Host × Request)}
    (hhistory : ∀ input ∈ history, NamesEntity input.2) :
    Reached start root ((hostedMachine location dataPath).final start history) := by
  apply (hostedMachine location dataPath).final_invariant _ hhistory (Reached.refl hstart)
  intro disk input hreached hnames
  exact preserves_handleRequest location hstart input.1 hnames Response.empty disk hreached

end Runs

section Post

variable {host : Host} (location : Str) {start disk later : Disk} {dataPath : Str}
  {root : List Str} (hstart : EmptyDirectory start dataPath root)
  (hreached : Reached start root disk) {entity : Str}
  (hentity : entity ≠ [] ∧ '/' ∉ entity ∧ IsName entity)

include hstart hreached hentity

/-- A POST that is answered with 200 has stored under the next id what the host
wrote of the body. -/
theorem exists_of_handlePost_eq_ok {httpRequest : Request} {httpResponse : Response}
    {reply : Bool × Response}
    (hpost : ((real location dataPath host).handlePost [entity] httpRequest
      httpResponse).exec disk = (.ok reply, later))
    (hok : reply.2.result = .ok) :
    ∃ id names, uniqueFileName names = .ok id ∧
      (∀ name, name ∈ names ↔ name ∈ disk.tree.children (root ++ [entity])) ∧
      reply.2.body = idResponse (toStringInt id) ∧ Reached start root later ∧
      later.tree.isDirectory (root ++ [entity]) = true ∧
      later.tree.node? (root ++ [entity] ++ [toStringInt id]) =
        some (.file (host.written (cStr httpRequest.body))) := by
  have hresolve := resolve_of_reached location host hstart hentity disk hreached
  have hlater := preserves_handlePost location host hstart hentity httpRequest httpResponse
    disk hreached
  rw [hpost] at hlater
  rw [handlePost_entity] at hpost
  obtain ⟨id, middle, hexec, hreply⟩ := Act.exists_of_bind_eq_ok hpost
  have hne : id ≠ -1 := by
    rintro rfl
    rw [if_pos rfl] at hreply
    cases hreply
    contradiction
  rw [if_neg hne] at hreply
  cases hreply
  obtain ⟨names, hunique, hnames, hdirectory, hfile⟩ :=
    RealFileSystem.exists_of_genIdAndWriteFile_eq_ok host hresolve hexec hne
  exact ⟨id, names, hunique, hnames, rfl, hlater, hdirectory, hfile⟩

omit hreached in
/-- What is stored is served under its name. -/
theorem exec_handleGet_of_file (hreached : Reached start root later)
    (hreads : host.works .ifstream = true) {name content : Str}
    (hname : name ≠ [] ∧ '/' ∉ name ∧ IsName name)
    (hdirectory : later.tree.isDirectory (root ++ [entity]) = true)
    (hfile : later.tree.node? (root ++ [entity] ++ [name]) = some (.file content))
    (httpResponse : Response) :
    ((real location dataPath host).handleGet [entity, name] httpResponse).exec later =
      (.ok (respond true .ok content httpResponse), later) := by
  have hresolve := resolve_of_reached location host hstart hentity later hreached
  have hstatus : later.status ((real location dataPath host).filePath entity name) =
      some (.file content) := by
    rw [filePath_eq_entityPath, Disk.status,
      Disk.resolve_append_segment hresolve hname.1 hname.2.1, if_pos hdirectory,
      component_of_isName hname.2.2]
    exact hfile
  have hexists : ((real location dataPath host).fs.pathExists
      ((real location dataPath host).entityPath entity)).exec later = (.ok true, later) := by
    change (Except.ok (later.pathExists _), later) = _
    rw [Disk.pathExists, Disk.status_of_resolve hresolve, (Tree.isDirectory_iff _ _).mp hdirectory]
    rfl
  have hread : ((real location dataPath host).fs.readFile
      ((real location dataPath host).filePath entity name)).exec later =
        (.ok (some content), later) := by
    change (_, _) = (_, _)
    simp only [Disk.isRegularFile, Disk.read, hstatus, hreads, ↓reduceIte]
  rw [handleGet_file, Act.exec_bind_ok hexists, if_neg (by simp), Act.exec_bind_ok hread]
  rfl

omit hreached in
/-- So a GET of an id that has a file is answered with its content. -/
theorem exec_get_of_file (hreached : Reached start root later)
    (hreads : host.works .ifstream = true) {n : Int} (hpos : 0 < n) {content : Str}
    (hdirectory : later.tree.isDirectory (root ++ [entity]) = true)
    (hfile : later.tree.node? (root ++ [entity] ++ [toStringInt n]) = some (.file content))
    {httpRequest : Request} (hget : httpRequest.method = "GET".toList)
    (hbehind : behindLocation httpRequest.target = [entity, toStringInt n]) :
    ((real location dataPath host).handleRequest httpRequest Response.empty).exec later =
      (.ok (respond true .ok content Response.empty), later) := by
  have hdigits := isDigits_toStringInt hpos.le
  rw [handleRequest_of_isFileNumber _ _ (split_of_behindLocation hbehind)
    ((isNumber_iff _).mpr hdigits), dispatch_get _ _ _ hget]
  exact exec_handleGet_of_file location hstart hentity hreached hreads
    (Numbered.segment (Or.inl hdigits)) hdirectory hfile Response.empty

omit host in
theorem entries_entityPath :
    disk.entries ((real location dataPath workingHost).entityPath entity) =
      disk.tree.children (root ++ [entity]) := by
  rw [Disk.entries, resolve_of_reached location workingHost hstart hentity disk hreached]

omit host in
/-- An id is free as long as no number of the entity is the largest `int`. -/
theorem forall_stoi_ne_intMax_iff {names : List Str}
    (hnames : ∀ name, name ∈ names ↔ name ∈ disk.tree.children (root ++ [entity])) :
    (∀ name ∈ names, stoi (stem name) ≠ .ok intMax) ↔
      ∀ name ∈ disk.entries ((real location dataPath workingHost).entityPath entity),
        IsDigits name → (decimal name : Int) ≠ intMax := by
  rw [entries_entityPath location hstart hreached hentity]
  simp only [hnames]
  refine forall₂_congr fun name hname => ?_
  rw [Tree.mem_children, List.append_assoc] at hname
  rw [ne_eq, (hreached.numbered entity name hname).stoi_eq_intMax_iff, not_and]

end Post

/-- An id is worth something to a client: it is positive, no file of the entity
had its name, and a GET of it that follows is answered with the body wherever
files can be read. -/
structure Usable (location dataPath : Str) (before after : Disk) (entity body : Str)
    (n : Int) : Prop where
  pos : 0 < n
  unused : toStringInt n ∉
    before.entries ((real location dataPath workingHost).entityPath entity)
  served : ∀ (host : Host) (httpRequest : Request), host.works .ifstream = true →
    httpRequest.method = "GET".toList →
      behindLocation httpRequest.target = [entity, toStringInt n] →
        ∃ verdict response,
          ((real location dataPath host).handleRequest httpRequest Response.empty).exec
            after = (.ok (verdict, response), after) ∧
          response.result = .ok ∧ response.body = body

/-- In every state that requests can lead to from an empty data directory, the id
that a POST answers with is usable exactly if no file of the entity is numbered
with the largest `int` and the host writes the whole body. -/
theorem usable_iff (location : Str) {start later : Disk} {dataPath : Str} {root : List Str}
    (hstart : EmptyDirectory start dataPath root) {history : List (Host × Request)}
    (hhistory : ∀ input ∈ history, NamesEntity input.2) (host : Host)
    {httpRequest : Request} (hmethod : httpRequest.method = "POST".toList)
    {entity : Str} (hbehind : behindLocation httpRequest.target = [entity])
    (hentity : IsName entity) (hbody : nul ∉ httpRequest.body)
    {verdict : Bool} {response : Response}
    (hpost : ((real location dataPath host).handleRequest httpRequest Response.empty).exec
      ((hostedMachine location dataPath).final start history) =
        (.ok (verdict, response), later))
    (hok : response.result = .ok) {n : Int}
    (hid : response.body = idResponse (toStringInt n)) :
    Usable location dataPath ((hostedMachine location dataPath).final start history) later
        entity httpRequest.body n ↔
      (∀ name ∈ ((hostedMachine location dataPath).final start history).entries
        ((real location dataPath workingHost).entityPath entity),
        IsDigits name → (decimal name : Int) ≠ intMax) ∧
      host.written httpRequest.body = httpRequest.body := by
  have hreached := reached_final location hstart hhistory
  generalize (hostedMachine location dataPath).final start history = disk at *
  have hsplit := split_of_behindLocation hbehind
  have hmem := mem_of_split hsplit List.mem_cons_self
  have hsegment : entity ≠ [] ∧ '/' ∉ entity ∧ IsName entity := ⟨hmem.1, hmem.2.1, hentity⟩
  rw [handleRequest_of_isFileNumber _ _ hsplit rfl, dispatch_post _ _ _ hmethod] at hpost
  obtain ⟨id, names, hunique, hnames, hresponse, hlater, hdirectory, hfile⟩ :=
    exists_of_handlePost_eq_ok location hstart hreached hsegment hpost hok
  have hn : n = id :=
    toStringInt_injective (idResponse_injective (hid.symm.trans hresponse))
  subst hn
  rw [cStr_eq_self hbody] at hfile
  rw [← forall_stoi_ne_intMax_iff location hstart hreached hsegment hnames]
  constructor
  · intro husable
    refine ⟨(uniqueFileName_pos_iff hunique).mp husable.pos, ?_⟩
    have hdigits := isDigits_toStringInt husable.pos.le
    have htarget : behindLocation (cStr httpRequest.target ++ '/' :: toStringInt n) =
        [entity, toStringInt n] :=
      behindLocation_append_segment hbehind hdigits.1 (hdigits.not_mem (by decide))
        (hdigits.not_mem (by decide))
    obtain ⟨verdict, response, hserved, -, hresponse⟩ :=
      husable.served workingHost ⟨"GET".toList, _, []⟩ rfl rfl htarget
    rw [exec_get_of_file location hstart hsegment hlater rfl husable.pos hdirectory hfile rfl
      htarget] at hserved
    cases hserved
    exact hresponse
  · rintro ⟨hsmall, hwritten⟩
    have hpos := (uniqueFileName_pos_iff hunique).mpr hsmall
    refine ⟨hpos, ?_, ?_⟩
    · rw [entries_entityPath location hstart hreached hsegment, ← hnames]
      exact toStringInt_not_mem_of_uniqueFileName hunique hsmall
    · intro reader get hreads hget htarget
      have hserved := exec_get_of_file location hstart hsegment hlater hreads hpos hdirectory
        hfile hget htarget
      exact ⟨_, _, hserved, rfl, hwritten⟩

end ApiHandler

namespace UsableIdsWitness

open DataDirectoryWitness

def location : Str := "/api/".toList

def putRequest (id : Str) : Request :=
  ⟨"PUT".toList, "/api/shoes/".toList ++ id, "red".toList⟩

def postRequest : Request := ⟨"POST".toList, "/api/shoes".toList, "blue".toList⟩

/-- The disk after one PUT. -/
def diskAfter (id : Str) : Disk :=
  (hostedMachine location dataPath).final disk [(workingHost, putRequest id)]

theorem usable_after_seven :
    ∃ verdict response later,
      ((ApiHandler.real location dataPath workingHost).handleRequest postRequest
        Response.empty).exec (diskAfter "7".toList) = (.ok (verdict, response), later) ∧
      ApiHandler.Usable location dataPath (diskAfter "7".toList) later "shoes".toList
        "blue".toList 8 := by
  refine ⟨_, _, _, rfl, ?_⟩
  have hhistory : ∀ input ∈ [(workingHost, putRequest "7".toList)], NamesEntity input.2 := by
    rw [List.forall_mem_singleton]
    exact ⟨"shoes".toList, ["7".toList], by decide +kernel, by decide⟩
  have hentries : (diskAfter "7".toList).entries
      ((ApiHandler.real location dataPath workingHost).entityPath "shoes".toList) =
        ["7".toList] := rfl
  refine (ApiHandler.usable_iff location emptyDirectory_disk hhistory workingHost
    (rfl : postRequest.method = "POST".toList) (by decide +kernel) (by decide) (by decide) rfl
    rfl (n := 8) rfl).mpr ⟨?_, rfl⟩
  change ∀ name ∈ (diskAfter "7".toList).entries _, _
  rw [hentries, List.forall_mem_singleton]
  have hseven : decimal "7".toList = 7 := rfl
  rw [hseven]
  exact fun _ => by decide

/-- The largest `int` is an id that PUT takes, and the POST after it answers with
a negative one. -/
theorem not_usable_after_intMax :
    ∃ verdict response later,
      ((ApiHandler.real location dataPath workingHost).handleRequest postRequest
        Response.empty).exec (diskAfter "2147483647".toList) =
          (.ok (verdict, response), later) ∧
      response.result = .ok ∧
      response.body = ApiHandler.idResponse (toStringInt (-2147483648)) ∧
      ¬ ApiHandler.Usable location dataPath (diskAfter "2147483647".toList) later
        "shoes".toList "blue".toList (-2147483648) := by
  refine ⟨_, _, _, rfl, rfl, rfl, ?_⟩
  intro husable
  exact absurd husable.pos (by decide)

end UsableIdsWitness

end SwanServer
