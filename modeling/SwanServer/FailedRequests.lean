/-
What a request that is not answered with 200 leaves behind.  The directory of a
new entity is made before its first file is opened, and nothing takes it away
again when the file cannot be opened.
-/
import SwanServer.DataDirectory

namespace SwanServer

open FileTree LexicalPath

namespace Disk

variable {host : Host} {disk : Disk} {path segment : Str} {place : List Str}

section NewDirectory

variable (hclosed : disk.tree.Closed) (hnone : disk.tree.node? place = none)

include hnone

theorem ne_nil_of_node?_eq_none : place ≠ [] := by
  rintro rfl
  contradiction

theorem isDirectory_eq_false_of_none : disk.tree.isDirectory place = false := by
  rw [Tree.isDirectory, hnone]

theorem isDirectory_ensured_of_none :
    (disk.ensured place).tree.isDirectory place = true := by
  rw [Tree.isDirectory_iff, node?_ensured (ne_nil_of_node?_eq_none hnone),
    if_pos ⟨rfl, hnone⟩]

include hclosed

theorem listing_ensured_of_none (host : Host) :
    host.listing ((disk.ensured place).tree.children place) = [] := by
  have hchildren : (disk.ensured place).tree.children place = [] := by
    rw [List.eq_nil_iff_forall_not_mem]
    intro name
    rw [mem_children_ensured,
      hclosed.children_eq_nil (isDirectory_eq_false_of_none hnone)]
    exact List.not_mem_nil
  have hperm := host.listing_perm ((disk.ensured place).tree.children place)
  rw [hchildren] at hperm ⊢
  exact hperm.eq_nil

/-- In a directory that has just been made every file can be opened, if files can
be opened at all. -/
theorem opens_ensured_eq_none_iff (hresolve : disk.resolve path = some place)
    (hsegment : segment ≠ [] ∧ '/' ∉ segment ∧ IsName segment) :
    (disk.ensured place).opens host (path ++ '/' :: segment) = none ↔
      host.works .fopen = false := by
  have hfile : (disk.ensured place).tree.isDirectory (place ++ [segment]) = false := by
    rw [Tree.isDirectory, node?_ensured (ne_nil_of_node?_eq_none hnone), if_neg (by simp),
      hclosed.node?_eq_none (isDirectory_eq_false_of_none hnone)]
  rw [opens, openable_append_segment ((extends_ensured disk place).resolve hresolve) hsegment,
    if_pos (And.intro (isDirectory_ensured_of_none hnone) hfile)]
  cases host.works .fopen <;> simp

end NewDirectory

end Disk

/-- Of all answers from `disk`, those other than 200 leave each node of the tree
as it was. -/
def FailsClean (disk : Disk) (act : Act Disk (Bool × Response)) : Prop :=
  ∀ verdict response later, act.exec disk = (.ok (verdict, response), later) →
    response.result ≠ .ok → ∀ place, later.tree.node? place = disk.tree.node? place

namespace FailsClean

variable {disk later : Disk} {act : Act Disk (Bool × Response)} {reply : Bool × Response}

theorem of_fault {fault : Fault} (hexec : act.exec disk = (.error fault, later)) :
    FailsClean disk act := by
  intro verdict response last hanswer
  rw [hexec] at hanswer
  cases hanswer

theorem of_ok (hexec : act.exec disk = (.ok reply, later)) (hok : reply.2.result = .ok) :
    FailsClean disk act := by
  intro verdict response last hanswer hfailed
  rw [hexec] at hanswer
  cases hanswer
  contradiction

theorem of_readsOnly (hreads : act.ReadsOnly) : FailsClean disk act := by
  intro verdict response last hanswer _ place
  have hlast := hreads disk
  rw [hanswer] at hlast
  rw [← hlast]

/-- A failure after a directory was made sure of is clean if it was there. -/
theorem iff_of_ensured {place : List Str}
    (hexec : act.exec disk = (.ok reply, disk.ensured place))
    (hfailed : reply.2.result ≠ .ok) :
    FailsClean disk act ↔ disk.tree.node? place ≠ none := by
  constructor
  · intro hclean hnone
    have hplace : place ≠ [] := by
      rintro rfl
      contradiction
    have hsame := hclean reply.1 reply.2 _ hexec hfailed place
    rw [Disk.node?_ensured hplace, if_pos ⟨rfl, hnone⟩, hnone] at hsame
    contradiction
  · intro hpresent verdict response last hanswer _ other
    rw [hexec, Disk.ensured, if_neg hpresent] at hanswer
    cases hanswer
    rfl

end FailsClean

/-- The path leads to a place where nothing is and a directory can be made. -/
def CreatesDirectory (host : Host) (disk : Disk) (path : Str) : Prop :=
  host.works .createDirectory = true ∧
    ∃ place, disk.resolve path = some place ∧ disk.tree.node? place = none

theorem createsDirectory_iff {host : Host} {disk : Disk} {path : Str} {place : List Str}
    (hresolve : disk.resolve path = some place) :
    CreatesDirectory host disk path ↔
      host.works .createDirectory = true ∧ disk.tree.node? place = none := by
  simp [CreatesDirectory, hresolve]

/-- What becomes of an operation that makes sure of a directory and then writes a
file into it; `failure` is how it reports that it could not open the file, and it
`strands` a directory if it has made one before. -/
inductive WriteOutcome {α : Type} (disk : Disk) (failure : α) (strands : Prop) :
    Except Fault α × Disk → Prop where
  | threw (fault : Fault) (later : Disk) (hclean : ¬ strands) :
      WriteOutcome disk failure strands (.error fault, later)
  | wrote (value : α) (later : Disk) (hvalue : value ≠ failure) (hclean : ¬ strands) :
      WriteOutcome disk failure strands (.ok value, later)
  | failed (place : List Str) (hstrands : strands ↔ disk.tree.node? place = none) :
      WriteOutcome disk failure strands (.ok failure, disk.ensured place)

/-- Where only the failure is not answered with 200, stranded directories are all
that a failed request leaves. -/
theorem WriteOutcome.failsClean_iff {α : Type} {disk : Disk} {failure : α}
    {strands : Prop} {act : Act Disk α} {next : α → Act Disk (Bool × Response)}
    (houtcome : WriteOutcome disk failure strands (act.exec disk))
    (hwrote : ∀ value, value ≠ failure →
      ∃ reply, next value = pure reply ∧ reply.2.result = .ok)
    (hfailed : ∃ reply, next failure = pure reply ∧ reply.2.result ≠ .ok) :
    FailsClean disk (act >>= next) ↔ ¬ strands := by
  generalize hexec : act.exec disk = result at houtcome
  cases houtcome with
  | threw fault later hclean =>
      exact iff_of_true (.of_fault (Act.exec_bind_error hexec)) hclean
  | wrote value later hvalue hclean =>
      obtain ⟨reply, hnext, hok⟩ := hwrote value hvalue
      have hbind : (act >>= next).exec disk = (.ok reply, later) := by
        rw [Act.exec_bind_ok hexec, hnext, Act.exec_pure]
      exact iff_of_true (.of_ok hbind hok) hclean
  | failed place hstrands =>
      obtain ⟨reply, hnext, hbad⟩ := hfailed
      have hbind : (act >>= next).exec disk = (.ok reply, disk.ensured place) := by
        rw [Act.exec_bind_ok hexec, hnext, Act.exec_pure]
      rw [FailsClean.iff_of_ensured hbind hbad, hstrands]

namespace RealFileSystem

variable (host : Host) {disk : Disk} (hclosed : disk.tree.Closed) {path fileName : Str}
  (body : Str)

include hclosed

theorem writeOutcome_genIdAndWriteFile :
    WriteOutcome disk (-1)
      (CreatesDirectory host disk path ∧ host.works .openDirectory = true ∧
        host.works .fopen = false)
      ((genIdAndWriteFile host path body).exec disk) := by
  cases hresolve : disk.resolve path with
  | none =>
      rw [exec_genIdAndWriteFile_of_resolve_none host hresolve]
      exact .threw _ _ (by simp [CreatesDirectory, hresolve])
  | some place =>
      rw [genIdAndWriteFile_spec host hresolve, createsDirectory_iff hresolve]
      split
      · next hfails => exact .threw _ _ (by simp [hfails])
      next hmakes =>
      split
      · next hlists =>
          split
          · next fault hunique =>
              refine .threw _ _ ?_
              rintro ⟨⟨-, hnone⟩, -⟩
              rw [Disk.listing_ensured_of_none hclosed hnone] at hunique
              contradiction
          next id hunique =>
          split
          · next file hopens =>
              exact .wrote _ _ (uniqueFileName_ne_neg_one hunique)
                (by simp [(Disk.opens_eq_some_iff.mp hopens).1])
          · next hopens =>
              refine .failed place ⟨fun hstrands => hstrands.1.2, fun hnone => ?_⟩
              obtain ⟨hne, hslash, hdot⟩ := toStringInt_segment id
              exact ⟨⟨by simpa [hnone] using hmakes, hnone⟩, hlists.2,
                (Disk.opens_ensured_eq_none_iff hclosed hnone hresolve
                  ⟨hne, hslash, isName_of_not_mem hdot⟩).mp hopens⟩
      · next hthrows =>
          refine .threw _ _ ?_
          rintro ⟨⟨-, hnone⟩, hopen, -⟩
          exact hthrows ⟨Disk.isDirectory_ensured_of_none hnone, hopen⟩

theorem writeOutcome_writeFile (hparent : parentPath (path ++ '/' :: fileName) = path)
    (hname : fileName ≠ [] ∧ '/' ∉ fileName ∧ IsName fileName) :
    WriteOutcome disk false
      (CreatesDirectory host disk path ∧ host.works .fopen = false)
      ((writeFile host (path ++ '/' :: fileName) body).exec disk) := by
  cases hresolve : disk.resolve path with
  | none =>
      rw [exec_writeFile_of_resolve_none host (hparent.symm ▸ hresolve)]
      exact .threw _ _ (by simp [CreatesDirectory, hresolve])
  | some place =>
      rw [writeFile_spec host (hparent.symm ▸ hresolve), createsDirectory_iff hresolve]
      split
      · next hfails => exact .threw _ _ (by simp [hfails])
      next hmakes =>
      split
      · next file hopens =>
          exact .wrote _ _ (by simp) (by simp [(Disk.opens_eq_some_iff.mp hopens).1])
      · next hopens =>
          refine .failed place ⟨fun hstrands => hstrands.1.2, fun hnone => ?_⟩
          exact ⟨⟨by simpa [hnone] using hmakes, hnone⟩,
            (Disk.opens_ensured_eq_none_iff hclosed hnone hresolve hname).mp hopens⟩

end RealFileSystem

namespace ApiHandler

section Methods

variable {disk : Disk} (location dataPath : Str) (host : Host) {entity fileName : Str}
  (httpRequest : Request) (httpResponse : Response)

theorem readsOnly_handleGet (uri : List Str) :
    ((real location dataPath host).handleGet uri httpResponse).ReadsOnly := by
  have hexists : ∀ path, ((real location dataPath host).fs.pathExists path).ReadsOnly :=
    fun path disk => rfl
  have hlist : ∀ path, ((real location dataPath host).fs.getFileList path).ReadsOnly := by
    intro path
    have hiterate : (Disk.directoryIterator host path).ReadsOnly := by
      intro disk
      rw [Disk.directoryIterator, Act.exec_attempt]
      split
      · rfl
      · split <;> rfl
    exact hiterate.bind fun names => Act.readsOnly_pure (fileList names)
  have hread : ∀ path, ((real location dataPath host).fs.readFile path).ReadsOnly :=
    fun path disk => rfl
  rcases uri with _ | ⟨entity, _ | ⟨fileName, _ | ⟨next, rest⟩⟩⟩
  · exact Act.readsOnly_throw _
  · rw [handleGet_entity]
    refine (hexists _).bind fun present => ?_
    split
    · exact Act.readsOnly_pure _
    · exact (hlist _).bind fun jsonList => Act.readsOnly_pure _
  · rw [handleGet_file]
    refine (hexists _).bind fun present => ?_
    split
    · exact Act.readsOnly_pure _
    · refine (hread _).bind fun file => ?_
      cases file <;> exact Act.readsOnly_pure _
  · rw [handleGet_deep]
    refine (hexists _).bind fun present => ?_
    split <;> exact Act.readsOnly_pure _

/-- The removal of a regular file works or throws. -/
theorem eq_true_of_unlink {path : Str} (hregular : disk.isRegularFile path = true)
    {removed : Bool} {later : Disk}
    (hexec : (Disk.remove host path).exec disk = (.ok removed, later)) : removed = true := by
  rw [Disk.isRegularFile, Disk.status] at hregular
  rw [Disk.remove, Act.exec_attempt] at hexec
  cases hresolve : disk.resolve path with
  | none => simp [hresolve] at hregular
  | some place =>
      rw [hresolve, Option.bind_some] at hregular
      cases hnode : disk.tree.node? place with
      | none => simp [hnode] at hregular
      | some node =>
          cases node with
          | directory => simp [hnode] at hregular
          | file content =>
              simp only [hresolve, hnode] at hexec
              split at hexec
              · cases hexec
                rfl
              · cases hexec

theorem eq_true_of_remove {path : Str} (hregular : disk.isRegularFile path = true)
    {removed : Bool} {later : Disk}
    (hexec : (RealFileSystem.remove host path).exec disk = (.ok removed, later)) :
    removed = true := by
  obtain ⟨success, middle, hunlink, hrest⟩ := Act.exists_of_bind_eq_ok hexec
  have hsuccess := eq_true_of_unlink host hregular hunlink
  obtain ⟨empty, last, -, hfinal⟩ := Act.exists_of_bind_eq_ok hrest
  cases empty with
  | false =>
      cases hfinal
      exact hsuccess
  | true =>
      obtain ⟨done, final, -, hreturn⟩ := Act.exists_of_bind_eq_ok hfinal
      cases hreturn
      exact hsuccess

/-- A DELETE that is turned away has not found a regular file. -/
theorem failsClean_handleDelete :
    FailsClean disk
      ((real location dataPath host).handleDelete [entity, fileName] httpResponse) := by
  intro verdict response last hanswer hfailed place
  rw [handleDelete_file] at hanswer
  obtain ⟨regular, middle, hregular, hrest⟩ := Act.exists_of_bind_eq_ok hanswer
  cases hregular
  split at hrest
  · cases hrest
    rfl
  · next hfile =>
      obtain ⟨removed, later, hremove, hreply⟩ := Act.exists_of_bind_eq_ok hrest
      cases eq_true_of_remove host (by simpa using hfile) hremove
      cases hreply
      contradiction

variable (hclosed : disk.tree.Closed)

include hclosed

theorem failsClean_handlePost_iff :
    FailsClean disk
        ((real location dataPath host).handlePost [entity] httpRequest httpResponse) ↔
      ¬ (CreatesDirectory host disk ((real location dataPath host).entityPath entity) ∧
        host.works .openDirectory = true ∧ host.works .fopen = false) := by
  rw [handlePost_entity]
  apply (RealFileSystem.writeOutcome_genIdAndWriteFile host hclosed _).failsClean_iff
  · intro id hid
    exact ⟨_, if_neg hid, rfl⟩
  · exact ⟨_, if_pos rfl, by simp [respond]⟩

theorem failsClean_handlePut_iff (hne : entity ≠ []) (hslash : '/' ∉ entity)
    (hfile : IsDigits fileName) :
    FailsClean disk ((real location dataPath host).handlePut [entity, fileName] httpRequest
        httpResponse) ↔
      ¬ (CreatesDirectory host disk ((real location dataPath host).entityPath entity) ∧
        host.works .fopen = false) := by
  have hfileSlash : '/' ∉ fileName := hfile.not_mem (by decide)
  have hparent := parentPath_filePath (real location dataPath host) hne hslash hfileSlash
  rw [filePath_eq_entityPath] at hparent
  rw [handlePut_file, filePath_eq_entityPath]
  apply (RealFileSystem.writeOutcome_writeFile host hclosed _ hparent
    ⟨hfile.1, hfileSlash, isName_of_isDigits hfile⟩).failsClean_iff
  · intro success hsuccess
    exact ⟨_, if_pos (by simpa using hsuccess), rfl⟩
  · exact ⟨_, if_neg (by simp), by simp [respond]⟩

end Methods

/-- The operation on these segments makes the directory of a new entity and cannot
put a file into it: a POST of an entity or a PUT of a file of an entity, on a host
that creates directories but opens no file for writing. -/
def StrandsAt (handler : ApiHandler Disk) (host : Host) (disk : Disk) (method : Str)
    (uri : List Str) : Prop :=
  ∃ entity, CreatesDirectory host disk (handler.entityPath entity) ∧
    host.works .fopen = false ∧
    (method = "POST".toList ∧ uri = [entity] ∧ host.works .openDirectory = true ∨
      method = "PUT".toList ∧ ∃ fileName, uri = [entity, fileName] ∧ IsDigits fileName)

/-- The request strands the directory of a new entity. -/
def Strands (handler : ApiHandler Disk) (host : Host) (disk : Disk)
    (httpRequest : Request) : Prop :=
  ∃ uri, split (cStr httpRequest.target) '/' = .ok uri ∧
    handler.StrandsAt host disk httpRequest.method uri

section Dispatch

variable (location dataPath : Str) (host : Host) {disk : Disk} {uri : List Str}
  (httpRequest : Request) (httpResponse : Response)

theorem not_strandsAt_of_not_isFileNumber {handler : ApiHandler Disk} {method : Str}
    (hnumber : isFileNumber uri = false) : ¬ handler.StrandsAt host disk method uri := by
  rintro ⟨entity, -, -, ⟨-, rfl, -⟩ | ⟨-, fileName, rfl, hfile⟩⟩
  · contradiction
  · rw [isFileNumber, (isNumber_iff fileName).mpr hfile] at hnumber
    contradiction

theorem not_strandsAt_of_method {handler : ApiHandler Disk}
    (hpost : httpRequest.method ≠ "POST".toList) (hput : httpRequest.method ≠ "PUT".toList) :
    ¬ handler.StrandsAt host disk httpRequest.method uri := by
  rintro ⟨entity, -, -, ⟨hmethod, -⟩ | ⟨hmethod, -⟩⟩
  · exact hpost hmethod
  · exact hput hmethod

variable (hclosed : disk.tree.Closed)

include hclosed

theorem failsClean_dispatch_post_iff (hmethod : httpRequest.method = "POST".toList) :
    FailsClean disk
        ((real location dataPath host).dispatch uri httpRequest httpResponse) ↔
      ¬ (real location dataPath host).StrandsAt host disk httpRequest.method uri := by
  rw [dispatch_post _ _ _ hmethod, hmethod]
  by_cases hshape : ∃ entity, uri = [entity]
  · obtain ⟨entity, rfl⟩ := hshape
    rw [failsClean_handlePost_iff _ _ _ _ _ hclosed, not_iff_not]
    constructor
    · rintro ⟨hcreates, hopen, hfopen⟩
      exact ⟨entity, hcreates, hfopen, Or.inl ⟨rfl, rfl, hopen⟩⟩
    · rintro ⟨other, hcreates, hfopen, ⟨-, heq, hopen⟩ | ⟨hput, -⟩⟩
      · cases heq
        exact ⟨hcreates, hopen, hfopen⟩
      · exact absurd hput (by decide)
  · have hlength : uri.length ≠ 1 := by rwa [ne_eq, List.length_eq_one_iff]
    rw [handlePost_of_length_ne _ hlength]
    refine iff_of_true (.of_readsOnly (Act.readsOnly_pure _)) ?_
    rintro ⟨entity, -, -, ⟨-, heq, -⟩ | ⟨hput, -⟩⟩
    · exact hshape ⟨entity, heq⟩
    · exact absurd hput (by decide)

theorem failsClean_dispatch_put_iff (huri : ∀ segment ∈ uri, segment ≠ [] ∧ '/' ∉ segment)
    (hnumber : isFileNumber uri = true) (hmethod : httpRequest.method = "PUT".toList) :
    FailsClean disk
        ((real location dataPath host).dispatch uri httpRequest httpResponse) ↔
      ¬ (real location dataPath host).StrandsAt host disk httpRequest.method uri := by
  rw [dispatch_put _ _ _ hmethod, hmethod]
  by_cases hshape : ∃ entity fileName, uri = [entity, fileName]
  · obtain ⟨entity, fileName, rfl⟩ := hshape
    obtain ⟨hne, hslash⟩ := huri entity List.mem_cons_self
    have hfile := isDigits_of_isFileNumber hnumber
    rw [failsClean_handlePut_iff _ _ _ _ _ hclosed hne hslash hfile, not_iff_not]
    constructor
    · rintro ⟨hcreates, hfopen⟩
      exact ⟨entity, hcreates, hfopen, Or.inr ⟨rfl, fileName, rfl, hfile⟩⟩
    · rintro ⟨other, hcreates, hfopen, ⟨hpost, -⟩ | ⟨-, otherName, heq, -⟩⟩
      · exact absurd hpost (by decide)
      · cases heq
        exact ⟨hcreates, hfopen⟩
  · have hlength : uri.length ≠ 2 := by rwa [ne_eq, List.length_eq_two]
    rw [handlePut_of_length_ne _ hlength]
    refine iff_of_true (.of_readsOnly (Act.readsOnly_pure _)) ?_
    rintro ⟨entity, -, -, ⟨hpost, -⟩ | ⟨-, fileName, heq, -⟩⟩
    · exact absurd hpost (by decide)
    · exact hshape ⟨entity, fileName, heq⟩

omit hclosed in
theorem failsClean_dispatch_delete (hmethod : httpRequest.method = "DELETE".toList) :
    FailsClean disk
      ((real location dataPath host).dispatch uri httpRequest httpResponse) := by
  rw [dispatch_delete _ _ _ hmethod]
  by_cases hshape : ∃ entity fileName, uri = [entity, fileName]
  · obtain ⟨entity, fileName, rfl⟩ := hshape
    exact failsClean_handleDelete location dataPath host httpResponse
  · have hlength : uri.length ≠ 2 := by rwa [ne_eq, List.length_eq_two]
    rw [handleDelete_of_length_ne _ hlength]
    exact .of_readsOnly (Act.readsOnly_pure _)

theorem failsClean_dispatch_iff (huri : ∀ segment ∈ uri, segment ≠ [] ∧ '/' ∉ segment)
    (hnumber : isFileNumber uri = true) :
    FailsClean disk
        ((real location dataPath host).dispatch uri httpRequest httpResponse) ↔
      ¬ (real location dataPath host).StrandsAt host disk httpRequest.method uri := by
  by_cases hpost : httpRequest.method = "POST".toList
  · exact failsClean_dispatch_post_iff _ _ _ _ _ hclosed hpost
  by_cases hput : httpRequest.method = "PUT".toList
  · exact failsClean_dispatch_put_iff _ _ _ _ _ hclosed huri hnumber hput
  have hother : ¬ (real location dataPath host).StrandsAt host disk httpRequest.method uri :=
    not_strandsAt_of_method host httpRequest hpost hput
  refine iff_of_true ?_ hother
  by_cases hget : httpRequest.method = "GET".toList
  · rw [dispatch_get _ _ _ hget]
    exact .of_readsOnly (readsOnly_handleGet location dataPath host httpResponse uri)
  by_cases hdelete : httpRequest.method = "DELETE".toList
  · exact failsClean_dispatch_delete _ _ _ _ _ hdelete
  · rw [dispatch_other _ _ _ hpost hget hput hdelete]
    exact .of_readsOnly (Act.readsOnly_pure _)

end Dispatch

/-- On every disk and host a request that is not answered with 200 leaves all
directories and files as they were, unless it strands a directory. -/
theorem failsClean_handleRequest_iff (location dataPath : Str) (host : Host) {disk : Disk}
    (hclosed : disk.tree.Closed) (httpRequest : Request) (httpResponse : Response) :
    FailsClean disk ((real location dataPath host).handleRequest httpRequest httpResponse) ↔
      ¬ (real location dataPath host).Strands host disk httpRequest := by
  cases hsplit : split (cStr httpRequest.target) '/' with
  | error fault =>
      rw [handleRequest_of_split_error _ _ hsplit]
      exact iff_of_true (.of_readsOnly (Act.readsOnly_throw _)) (by simp [Strands, hsplit])
  | ok uri =>
      have hstrands : (real location dataPath host).Strands host disk httpRequest ↔
          (real location dataPath host).StrandsAt host disk httpRequest.method uri := by
        simp [Strands, hsplit]
      rw [hstrands]
      cases hnumber : isFileNumber uri with
      | false =>
          rw [handleRequest_of_not_isFileNumber _ _ hsplit hnumber]
          exact iff_of_true (.of_readsOnly (Act.readsOnly_pure _))
            (not_strandsAt_of_not_isFileNumber host hnumber)
      | true =>
          rw [handleRequest_of_isFileNumber _ _ hsplit hnumber]
          exact failsClean_dispatch_iff _ _ _ _ _ hclosed (forall_mem_split hsplit) hnumber

end ApiHandler

namespace FailedRequestsWitness

open DataDirectoryWitness

theorem closed_disk : disk.tree.Closed := by
  intro dir name hnode
  rw [disk, Tree.node?_put _ (by simp)] at hnode
  split at hnode
  · next heq =>
      rw [List.append_eq_singleton_iff] at heq
      rcases heq with ⟨rfl, -⟩ | ⟨-, hname⟩
      · rfl
      · contradiction
  · next hne => exact absurd (Tree.node?_of_ne_nil _ (by simp)) hnode

/-- A host with no file handle left. -/
def noFiles : Host :=
  { workingHost with works := fun primitive => primitive != .fopen }

def postRequest : Request := ⟨"POST".toList, "/api/shoes".toList, "red".toList⟩

def handler (host : Host) : ApiHandler Disk := ApiHandler.real "/api/".toList dataPath host

/-- Where files can be opened a POST is clean. -/
theorem failsClean_postRequest :
    FailsClean disk ((handler workingHost).handleRequest postRequest Response.empty) := by
  apply (ApiHandler.failsClean_handleRequest_iff _ _ _ closed_disk _ _).mpr
  rintro ⟨uri, -, entity, -, hfopen, -⟩
  contradiction

/-- The POST is answered with 500, and the directory of the entity is there. -/
theorem not_failsClean_postRequest :
    ¬ FailsClean disk ((handler noFiles).handleRequest postRequest Response.empty) := by
  intro hclean
  have hexec : ((handler noFiles).handleRequest postRequest Response.empty).exec disk =
      (.ok (ApiHandler.respond false .internalServerError "Unable to generate ID.".toList
        Response.empty), disk.ensured ["mnt".toList, "shoes".toList]) := rfl
  have hsame := hclean _ _ _ hexec (by simp)
    ["mnt".toList, "shoes".toList]
  exact absurd hsame (by decide)

end FailedRequestsWitness

end SwanServer
