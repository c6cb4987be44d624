/-
A request for one data directory works on it alone, whatever requests for other
directories do in the meantime.
-/
import SwanServer.DirectoryFocus

namespace SwanServer

open FileTree LexicalPath RealFileSystem

/-- A program that works on one data directory alone, with values in `R`. -/
abbrev Confined {α : Type} (start : Disk) (roots : Set (List Str)) (root : List Str)
    (R : α → Prop) : Resumption Disk Fault α → Prop :=
  Resumption.Local (fun disk => disk.focus start root) (Surrounds start roots)
    (Aside start roots root) R

section Programs

variable {start : Disk} {dataPaths : Str → Prop} {rootOf : Str → List Str} {root : List Str}
  {path : Str} {host : Host} (hstart : DataDirectories start dataPaths rootOf)
  (hroot : root ∈ rootOf '' {path | dataPaths path})
  (hleads : Leads start (rootOf '' {path | dataPaths path}) root path)

theorem confined_of_except {α : Type} (result : Except Fault α) :
    Confined start (rootOf '' {path | dataPaths path}) root (fun value => result = .ok value)
      (.done result) :=
  .done fun _ hvalue => hvalue

include hstart hroot hleads

theorem confined_exists :
    Confined start (rootOf '' {path | dataPaths path}) root (fun _ => True)
      (existsProgram path) := by
  refine local_call hstart hroot fun disk hdisk => ⟨?_, fun _ _ => trivial⟩
  have hstatus : (disk.focus start root).pathExists path = disk.pathExists path := by
    rw [Disk.pathExists, Disk.pathExists, status_focus hleads hdisk]
  rw [Act.exec_attempt, Act.exec_attempt, hstatus]
  exact .same _

theorem confined_isRegularFile :
    Confined start (rootOf '' {path | dataPaths path}) root (fun _ => True)
      (isRegularFileProgram path) := by
  refine local_call hstart hroot fun disk hdisk => ⟨?_, fun _ _ => trivial⟩
  have hstatus : (disk.focus start root).isRegularFile path = disk.isRegularFile path := by
    rw [Disk.isRegularFile, Disk.isRegularFile, status_focus hleads hdisk]
  rw [Act.exec_attempt, Act.exec_attempt, hstatus]
  exact .same _

theorem confined_readFile :
    Confined start (rootOf '' {path | dataPaths path}) root (fun _ => True)
      (readFileProgram host path) := by
  refine (confined_isRegularFile hstart hroot hleads).bind fun regular _ => ?_
  split
  · refine Resumption.Local.bind (R := fun _ => True) ?_ fun file _ =>
      Resumption.local_pure trivial
    refine local_call hstart hroot fun disk hdisk => ⟨?_, fun _ _ => trivial⟩
    have hstatus : Disk.read host (disk.focus start root) path = Disk.read host disk path := by
      rw [Disk.read, Disk.read, status_focus hleads hdisk]
    rw [Act.exec_attempt, Act.exec_attempt, hstatus]
    exact .same _
  · exact Resumption.local_pure trivial

theorem confined_directoryIterator :
    Confined start (rootOf '' {path | dataPaths path}) root (fun _ => True)
      (Disk.directoryIterator host path).call :=
  local_call hstart hroot fun _ hdisk =>
    ⟨outcome_directoryIterator hleads hdisk, fun _ _ => trivial⟩

theorem confined_getFileList :
    Confined start (rootOf '' {path | dataPaths path}) root (fun _ => True)
      (getFileListProgram host path) :=
  (confined_directoryIterator hstart hroot hleads).bind fun _ _ => Resumption.local_pure trivial

theorem confined_ensureDirectory :
    Confined start (rootOf '' {path | dataPaths path}) root (fun _ => True)
      (ensureDirectoryProgram host path) := by
  refine (confined_exists hstart hroot hleads).bind fun present _ => ?_
  split
  · refine Resumption.Local.bind (R := fun _ => True) ?_ fun _ _ =>
      Resumption.local_pure trivial
    exact local_call hstart hroot fun disk hdisk =>
      ⟨outcome_createDirectory hleads hdisk, fun _ _ => trivial⟩
  · exact Resumption.local_pure trivial

/-- Open a file and write to it. -/
theorem confined_fopen {α : Type} {text : Str} (success failure : α) :
    Confined start (rootOf '' {path | dataPaths path}) root (fun _ => True)
      ((Disk.fopen host path).call >>= fun file =>
        match file with
        | some fp => (Disk.fputs host fp text).call >>= fun _ => pure success
        | none => pure failure) := by
  refine Resumption.Local.bind (R := fun file => ∀ fp, file = some fp → Beneath root fp) ?_ ?_
  · exact local_call hstart hroot fun disk hdisk => outcome_fopen hleads hdisk
  · intro file hfile
    cases file with
    | none => exact Resumption.local_pure trivial
    | some fp =>
        refine Resumption.Local.bind (R := fun _ => True) ?_ fun _ _ =>
          Resumption.local_pure trivial
        exact local_call hstart hroot fun disk _ =>
          ⟨outcome_fputs (hfile fp rfl) text, fun _ _ => trivial⟩

theorem confined_writeFile {body : Str}
    (hparent : Leads start (rootOf '' {path | dataPaths path}) root (parentPath path)) :
    Confined start (rootOf '' {path | dataPaths path}) root (fun _ => True)
      (writeFileProgram host path body) :=
  (confined_ensureDirectory hstart hroot hparent).bind fun _ _ =>
    confined_fopen hstart hroot hleads true false

theorem confined_genIdAndWriteFile {body : Str}
    (hfiles : ∀ id : Int, Leads start (rootOf '' {path | dataPaths path}) root
      (path ++ "/".toList ++ toStringInt id)) :
    Confined start (rootOf '' {path | dataPaths path}) root (fun _ => True)
      (genIdAndWriteFileProgram host path body) := by
  refine (confined_ensureDirectory hstart hroot hleads).bind fun _ _ => ?_
  refine (confined_directoryIterator hstart hroot hleads).bind fun names _ => ?_
  refine (confined_of_except _).bind fun fileName _ => ?_
  exact confined_fopen hstart hroot (hfiles fileName) fileName (-1)

theorem confined_remove
    (hparent : Leads start (rootOf '' {path | dataPaths path}) root (parentPath path)) :
    Confined start (rootOf '' {path | dataPaths path}) root (fun _ => True)
      (removeProgram host path) := by
  refine Resumption.Local.bind (R := fun _ => True) ?_ fun success _ => ?_
  · exact local_call hstart hroot fun disk hdisk =>
      ⟨outcome_remove hleads hdisk, fun _ _ => trivial⟩
  refine Resumption.Local.bind (R := fun _ => True) ?_ fun empty _ => ?_
  · exact local_call hstart hroot fun disk hdisk =>
      ⟨outcome_isEmpty hparent hdisk, fun _ _ => trivial⟩
  split
  · refine Resumption.Local.bind (R := fun _ => True) ?_ fun _ _ =>
      Resumption.local_pure trivial
    exact local_call hstart hroot fun disk hdisk =>
      ⟨outcome_removeAll hparent hdisk, fun _ _ => trivial⟩
  · exact Resumption.local_pure trivial

end Programs

section Requests

variable {start : Disk} {dataPaths : Str → Prop} {rootOf : Str → List Str} {dataPath : Str}
  {host : Host} {entity name : Str} {rest : List Str} {httpRequest : Request}
  (hstart : DataDirectories start dataPaths rootOf) (hdata : dataPaths dataPath)
  (hentity : entity ≠ [] ∧ '/' ∉ entity ∧ IsName entity)

include hstart hdata hentity

theorem leads_entity : Leads start (rootOf '' {path | dataPaths path}) (rootOf dataPath)
    (dataPath ++ "/".toList ++ entity) := by
  have hresolve : ∀ disk, Surrounds start (rootOf '' {path | dataPaths path}) disk →
      disk.resolve (dataPath ++ "/".toList ++ entity) = some (rootOf dataPath ++ [entity]) := by
    intro disk hdisk
    have hpath := ApiHandler.resolve_entityPath (.real [] dataPath workingHost)
      (hstart dataPath hdata) (hdisk.extends_start hstart) hentity.1 hentity.2.1
    rwa [component_of_isName hentity.2.2] at hpath
  refine ⟨fun disk hdisk => ?_, fun disk place hdisk hplace => ?_⟩
  · rw [hresolve disk hdisk, hresolve _ (hdisk.focus _)]
  · rw [hresolve disk hdisk, Option.some.injEq] at hplace
    exact ⟨[entity], List.cons_ne_nil _ _, hplace.symm⟩

theorem leads_file (hname : name ≠ [] ∧ '/' ∉ name ∧ IsName name) :
    Leads start (rootOf '' {path | dataPaths path}) (rootOf dataPath)
      (dataPath ++ "/".toList ++ entity ++ "/".toList ++ name) := by
  have hbeneath : Beneath (rootOf dataPath) (rootOf dataPath ++ [entity]) :=
    ⟨[entity], List.cons_ne_nil _ _, rfl⟩
  have hresolve : ∀ disk, Surrounds start (rootOf '' {path | dataPaths path}) disk →
      disk.resolve (dataPath ++ "/".toList ++ entity ++ "/".toList ++ name) =
        if disk.tree.isDirectory (rootOf dataPath ++ [entity]) then
          some (rootOf dataPath ++ [entity] ++ [name]) else none := by
    intro disk hdisk
    have hpath := ApiHandler.resolve_filePath (.real [] dataPath workingHost)
      (hstart dataPath hdata) (hdisk.extends_start hstart) hentity.1 hentity.2.1 hname.1
      hname.2.1 hname.2.2
    rwa [component_of_isName hentity.2.2] at hpath
  refine ⟨fun disk hdisk => ?_, fun disk place hdisk hplace => ?_⟩
  · rw [hresolve disk hdisk, hresolve _ (hdisk.focus _), isDirectory_focus hbeneath]
  · rw [hresolve disk hdisk] at hplace
    split at hplace
    · cases hplace
      exact beneath_of_starts hbeneath (List.prefix_append _ _)
    · cases hplace

omit hstart hdata in
theorem parentPath_file (dataPath : Str) (hslash : '/' ∉ name) :
    parentPath (dataPath ++ "/".toList ++ entity ++ "/".toList ++ name) =
      dataPath ++ "/".toList ++ entity :=
  ApiHandler.parentPath_filePath (.real [] dataPath workingHost) hentity.1 hentity.2.1 hslash

theorem confined_handlePost (httpResponse : Response) :
    Confined start (rootOf '' {path | dataPaths path}) (rootOf dataPath) (fun _ => True)
      (ApiProgram.handlePost dataPath host (entity :: rest) httpRequest httpResponse) := by
  rw [ApiProgram.handlePost]
  split
  · exact Resumption.local_pure trivial
  refine (confined_of_except _).bind ?_
  rintro _ ⟨⟩
  have hroot := Set.mem_image_of_mem rootOf hdata
  refine (confined_genIdAndWriteFile hstart hroot (leads_entity hstart hdata hentity)
    fun id => ?_).bind fun id _ => ?_
  · have hid := toStringInt_segment id
    refine leads_file hstart hdata hentity ⟨hid.1, hid.2.1, ?_, ?_⟩
    · intro heq
      exact hid.2.2 (heq ▸ List.mem_singleton_self _)
    · intro heq
      exact hid.2.2 (heq ▸ List.mem_cons_self)
  · split <;> exact Resumption.local_pure trivial

theorem confined_handleGet (hfile : ∀ name, rest = [name] → name ≠ [] ∧ '/' ∉ name ∧ IsName name)
    (httpResponse : Response) :
    Confined start (rootOf '' {path | dataPaths path}) (rootOf dataPath) (fun _ => True)
      (ApiProgram.handleGet dataPath host (entity :: rest) httpResponse) := by
  have hroot := Set.mem_image_of_mem rootOf hdata
  have hleads := leads_entity hstart hdata hentity
  refine (confined_of_except _).bind ?_
  rintro _ ⟨⟩
  refine (confined_exists hstart hroot hleads).bind fun present _ => ?_
  split
  · exact Resumption.local_pure trivial
  split
  · exact (confined_getFileList hstart hroot hleads).bind fun _ _ => Resumption.local_pure trivial
  split
  · next hlength =>
      obtain ⟨name, rfl⟩ := List.length_eq_one_iff.mp (Nat.succ.inj hlength)
      refine (confined_of_except _).bind ?_
      rintro _ ⟨⟩
      refine (confined_readFile hstart hroot
        (leads_file hstart hdata hentity (hfile name rfl))).bind fun file _ => ?_
      cases file <;> exact Resumption.local_pure trivial
  · exact Resumption.local_pure trivial

theorem confined_handleDelete
    (hfile : ∀ name, rest = [name] → name ≠ [] ∧ '/' ∉ name ∧ IsName name)
    (httpResponse : Response) :
    Confined start (rootOf '' {path | dataPaths path}) (rootOf dataPath) (fun _ => True)
      (ApiProgram.handleDelete dataPath host (entity :: rest) httpResponse) := by
  rw [ApiProgram.handleDelete]
  split
  · exact Resumption.local_pure trivial
  next hlength =>
  obtain ⟨name, rfl⟩ := List.length_eq_one_iff.mp (Nat.succ.inj (not_not.mp hlength))
  have hroot := Set.mem_image_of_mem rootOf hdata
  have hleads := leads_file hstart hdata hentity (hfile name rfl)
  have hparent := parentPath_file hentity dataPath (hfile name rfl).2.1
  refine (confined_of_except _).bind ?_
  rintro _ ⟨⟩
  refine (confined_of_except _).bind ?_
  rintro _ ⟨⟩
  refine (confined_isRegularFile hstart hroot hleads).bind fun regular _ => ?_
  split
  · exact Resumption.local_pure trivial
  refine (confined_remove hstart hroot hleads ?_).bind fun removed _ => ?_
  · rw [hparent]
    exact leads_entity hstart hdata hentity
  · split <;> exact Resumption.local_pure trivial

theorem confined_handlePut (hfile : ∀ name, rest = [name] → name ≠ [] ∧ '/' ∉ name ∧ IsName name)
    (httpResponse : Response) :
    Confined start (rootOf '' {path | dataPaths path}) (rootOf dataPath) (fun _ => True)
      (ApiProgram.handlePut dataPath host (entity :: rest) httpRequest httpResponse) := by
  rw [ApiProgram.handlePut]
  split
  · exact Resumption.local_pure trivial
  next hlength =>
  obtain ⟨name, rfl⟩ := List.length_eq_one_iff.mp (Nat.succ.inj (not_not.mp hlength))
  have hroot := Set.mem_image_of_mem rootOf hdata
  have hleads := leads_file hstart hdata hentity (hfile name rfl)
  have hparent := parentPath_file hentity dataPath (hfile name rfl).2.1
  refine (confined_of_except _).bind ?_
  rintro _ ⟨⟩
  refine (confined_of_except _).bind ?_
  rintro _ ⟨⟩
  refine (confined_writeFile hstart hroot hleads ?_).bind fun success _ => ?_
  · rw [hparent]
    exact leads_entity hstart hdata hentity
  · split
    · exact (confined_of_except _).bind fun _ _ => Resumption.local_pure trivial
    · exact Resumption.local_pure trivial

omit hentity in
/-- A request that names an entity works on its data directory alone. -/
theorem confined_handleRequest (hbehind : behindLocation httpRequest.target = entity :: rest)
    (hname : IsName entity) (httpResponse : Response) :
    Confined start (rootOf '' {path | dataPaths path}) (rootOf dataPath) (fun _ => True)
      (ApiProgram.handleRequest dataPath host httpRequest httpResponse) := by
  have hsplit := split_of_behindLocation hbehind
  have hsegments := forall_mem_split hsplit
  have hfirst := hsegments entity List.mem_cons_self
  have hentity : entity ≠ [] ∧ '/' ∉ entity ∧ IsName entity := ⟨hfirst.1, hfirst.2, hname⟩
  refine (confined_of_except _).bind fun uri huri => ?_
  cases Except.ok.inj (hsplit.symm.trans huri)
  split
  · exact Resumption.local_pure trivial
  next hnumber =>
  have hfile : ∀ name, rest = [name] → name ≠ [] ∧ '/' ∉ name ∧ IsName name := by
    rintro name rfl
    have hdigits := isDigits_of_isFileNumber (Bool.eq_true_of_not_eq_false hnumber)
    have hsegment := hsegments name (List.mem_cons_of_mem _ (List.mem_singleton_self _))
    exact ⟨hsegment.1, hsegment.2, isName_of_isDigits hdigits⟩
  rw [ApiProgram.dispatch]
  split
  · exact confined_handlePost hstart hdata hentity httpResponse
  split
  · exact confined_handleGet hstart hdata hentity hfile httpResponse
  split
  · exact confined_handlePut hstart hdata hentity hfile httpResponse
  split
  · exact confined_handleDelete hstart hdata hentity hfile httpResponse
  · exact Resumption.local_pure trivial

end Requests

section Reads

variable (dataPath : Str) (host : Host)

/-- A program that leaves the disk as it is. -/
abbrev OnlyReads {α : Type} : Resumption Disk Fault α → Prop :=
  Resumption.Guarantees fun disk later => later = disk

theorem onlyReads_call {α : Type} {act : Act Disk α} (hreads : act.ReadsOnly) :
    OnlyReads act.call :=
  Resumption.guarantees_atomically hreads

theorem onlyReads_directoryIterator (path : Str) :
    OnlyReads (Disk.directoryIterator host path).call := by
  refine onlyReads_call fun disk => ?_
  rw [Disk.directoryIterator, Act.exec_attempt]
  split
  · rfl
  · split <;> rfl

theorem onlyReads_getFileList (path : Str) : OnlyReads (getFileListProgram host path) :=
  (onlyReads_directoryIterator host path).bind fun _ => Resumption.guarantees_pure _

theorem onlyReads_readFile (path : Str) : OnlyReads (readFileProgram host path) := by
  refine (onlyReads_call fun _ => rfl).bind fun regular => ?_
  split
  · exact (onlyReads_call fun _ => rfl).bind fun _ => Resumption.guarantees_pure _
  · exact Resumption.guarantees_pure _

theorem onlyReads_handleGet (uri : List Str) (httpResponse : Response) :
    OnlyReads (ApiProgram.handleGet dataPath host uri httpResponse) := by
  refine Resumption.Guarantees.bind (.done _) fun entity => ?_
  refine (onlyReads_call fun _ => rfl).bind fun present => ?_
  split
  · exact Resumption.guarantees_pure _
  split
  · exact (onlyReads_getFileList host _).bind fun _ => Resumption.guarantees_pure _
  split
  · refine Resumption.Guarantees.bind (.done _) fun fileName => ?_
    refine (onlyReads_readFile host _).bind fun file => ?_
    cases file <;> exact Resumption.guarantees_pure _
  · exact Resumption.guarantees_pure _

/-- A GET leaves the disk as it is at each of its calls. -/
theorem onlyReads_handleRequest {httpRequest : Request}
    (hmethod : httpRequest.method = "GET".toList) (httpResponse : Response) :
    OnlyReads (ApiProgram.handleRequest dataPath host httpRequest httpResponse) := by
  have hpost : httpRequest.method ≠ "POST".toList := by
    rw [hmethod]
    decide
  refine Resumption.Guarantees.bind (.done _) fun uri => ?_
  split
  · exact Resumption.guarantees_pure _
  · rw [ApiProgram.dispatch, if_neg hpost, if_pos hmethod]
    exact onlyReads_handleGet dataPath host uri httpResponse

end Reads

end SwanServer
