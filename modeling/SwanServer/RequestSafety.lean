/-
Which requests leave the API handler through a fault, and so end the server.
-/
import SwanServer.DataDirectory

namespace SwanServer

open FileTree LexicalPath

/-- The request got a response. -/
def Answered {α : Type} (result : Except Fault α) : Prop := ∃ value, result = .ok value

@[simp] theorem answered_ok {α : Type} (value : α) :
    Answered (.ok value : Except Fault α) := ⟨value, rfl⟩

@[simp] theorem not_answered_error {α : Type} (fault : Fault) :
    ¬ Answered (.error fault : Except Fault α) := by
  rintro ⟨value, hvalue⟩
  contradiction

instance {α : Type} : (result : Except Fault α) → Decidable (Answered result)
  | .ok value => .isTrue (answered_ok value)
  | .error fault => .isFalse (not_answered_error fault)

/-- A name that a request can give to a file: a digit string, or what `to_string`
makes of an `int`. -/
def Numbered (name : Str) : Prop :=
  IsDigits name ∨ ∃ n, intMin ≤ n ∧ n ≤ intMax ∧ name = toStringInt n

theorem Numbered.segment {name : Str} (hname : Numbered name) :
    name ≠ [] ∧ '/' ∉ name ∧ IsName name := by
  rcases hname with hdigits | ⟨n, -, -, rfl⟩
  · exact ⟨hdigits.1, hdigits.not_mem (by decide), isName_of_isDigits hdigits⟩
  · obtain ⟨hne, hslash, hdot⟩ := toStringInt_segment n
    exact ⟨hne, hslash, isName_of_not_mem hdot⟩

/-- Of these names only large numbers do not read as an `int`. -/
theorem Numbered.exists_stoi_iff {name : Str} (hname : Numbered name) :
    (∃ number, stoi (stem name) = .ok number) ↔
      (IsDigits name → (decimal name : Int) ≤ intMax) := by
  rcases hname with hdigits | ⟨n, hmin, hmax, rfl⟩
  · rw [hdigits.stem, stoi_of_isDigits hdigits]
    by_cases hmax : (decimal name : Int) ≤ intMax <;> simp [hmax, hdigits]
  · rw [stem_toStringInt, stoi_toStringInt hmin hmax]
    refine iff_of_true ⟨n, rfl⟩ ?_
    intro hdigits
    cases n with
    | ofNat n => simpa [toStringInt] using hmax
    | negSucc n => exact absurd (hdigits.2 '-' List.mem_cons_self) (by decide)

theorem Numbered.stoi_eq_intMax_iff {name : Str} (hname : Numbered name) :
    stoi (stem name) = .ok intMax ↔ IsDigits name ∧ (decimal name : Int) = intMax := by
  have hvalue : IsDigits name →
      (stoi (stem name) = .ok intMax ↔ (decimal name : Int) = intMax) := by
    intro hdigits
    rw [hdigits.stem, stoi_of_isDigits hdigits]
    split
    · rw [Except.ok.injEq]
    · next hlarge => exact iff_of_false (by simp) (fun heq => hlarge heq.le)
  constructor
  · intro hmax
    have hdigits : IsDigits name := by
      rcases hname with hdigits | ⟨n, hmin, hle, rfl⟩
      · exact hdigits
      · rw [stem_toStringInt, stoi_toStringInt hmin hle, Except.ok.injEq] at hmax
        rw [hmax]
        exact isDigits_toStringInt (by decide)
    exact ⟨hdigits, (hvalue hdigits).mp hmax⟩
  · rintro ⟨hdigits, hmax⟩
    exact (hvalue hdigits).mpr hmax

/-- What the disk is like after requests from `start`: the directories of then
are there, and below the entity directories of `root` the names are numbers. -/
structure Reached (start : Disk) (root : List Str) (disk : Disk) : Prop where
  extends_start : Disk.Extends start disk
  numbered : ∀ entity name, disk.tree.node? (root ++ [entity, name]) ≠ none →
    Numbered name

namespace Reached

variable {start disk later : Disk} {root dir : List Str} {dataPath : Str}

theorem refl (hstart : EmptyDirectory start dataPath root) :
    Reached start root start := by
  refine ⟨Disk.Extends.refl start, ?_⟩
  intro entity name hnode
  exact absurd (hstart.empty [entity, name] (by simp)) hnode

/-- What is there later was there before or has a number for its name. -/
theorem step (hreached : Reached start root disk) (hextends : Disk.Extends start later)
    (hnodes : ∀ entity name, later.tree.node? (root ++ [entity, name]) ≠ none →
      disk.tree.node? (root ++ [entity, name]) ≠ none ∨ Numbered name) :
    Reached start root later := by
  refine ⟨hextends, ?_⟩
  intro entity name hnode
  rcases hnodes entity name hnode with hbefore | hname
  · exact hreached.numbered entity name hbefore
  · exact hname

theorem ensured (hreached : Reached start root disk)
    (hdir : dir.length ≤ root.length + 1) : Reached start root (disk.ensured dir) := by
  apply hreached.step (hreached.extends_start.trans (Disk.extends_ensured disk dir))
  intro entity name hnode
  left
  rw [Disk.ensured] at hnode
  split at hnode
  · next hnone =>
      have hne : root ++ [entity, name] ≠ dir := by
        rintro rfl
        simp at hdir
      have hplace : dir ≠ [] := by
        rintro rfl
        contradiction
      rwa [Disk.node?_put hplace, if_neg hne] at hnode
  · exact hnode

theorem written {name : Str} (hreached : Reached start root disk)
    (hfile : disk.tree.isDirectory (dir ++ [name]) = false) (hname : Numbered name)
    (content : Str) : Reached start root (disk.written (dir ++ [name]) content) := by
  apply hreached.step (hreached.extends_start.trans (Disk.extends_written hfile content))
  intro entity other hnode
  rw [Disk.node?_written (by simp)] at hnode
  split at hnode
  · next heq =>
      rw [List.append_cons, List.append_singleton_inj] at heq
      exact Or.inr (heq.2 ▸ hname)
  · exact Or.inl hnode

theorem without {place : List Str} {content : Str} (hreached : Reached start root disk)
    (hfile : disk.tree.node? place = some (.file content)) :
    Reached start root (disk.without place) := by
  have hplace : place ≠ [] := by
    rintro rfl
    cases hfile
  apply hreached.step (hreached.extends_start.trans (Disk.extends_without hfile))
  intro entity other hother
  rw [Disk.node?_without hplace] at hother
  split at hother
  · contradiction
  · exact Or.inl hother

/-- A directory that was not there at the start may go with all it holds. -/
theorem withoutAll (hreached : Reached start root disk) (hdir : dir ≠ [])
    (hnew : ∀ other, dir <+: other → start.tree.isDirectory other = false) :
    Reached start root (disk.withoutAll dir) := by
  apply hreached.step
  · refine ⟨hreached.extends_start.cwd, ?_⟩
    intro other hother
    have hnot : ¬ dir <+: other := by
      intro hstarts
      rw [hnew other hstarts] at hother
      contradiction
    rw [Tree.isDirectory_iff, Disk.node?_withoutAll hdir, if_neg hnot,
      ← Tree.isDirectory_iff]
    exact hreached.extends_start.directory hother
  · intro entity other hother
    rw [Disk.node?_withoutAll hdir] at hother
    split at hother
    · contradiction
    · exact Or.inl hother

end Reached

/-- From `disk` the computation is answered exactly if `condition` holds, and
what it leaves is `Reached` then. -/
structure AnsweredIff {α : Type} (start : Disk) (root : List Str) (disk : Disk)
    (act : Act Disk α) (condition : Prop) : Prop where
  answered : Answered (act.exec disk).1 ↔ condition
  reached : condition → Reached start root (act.exec disk).2

namespace AnsweredIff

variable {α β : Type} {start disk : Disk} {root : List Str} {act : Act Disk α}
  {condition : Prop}

theorem of_exec {value : α} {later : Disk} (hexec : act.exec disk = (.ok value, later))
    (hlater : Reached start root later) (hcondition : condition) :
    AnsweredIff start root disk act condition := by
  constructor
  · rw [hexec]
    simpa using hcondition
  · rw [hexec]
    exact fun _ => hlater

theorem of_fault {fault : Fault} {later : Disk}
    (hexec : act.exec disk = (.error fault, later)) (hcondition : ¬ condition) :
    AnsweredIff start root disk act condition := by
  constructor
  · rw [hexec]
    simpa using hcondition
  · exact fun h => absurd h hcondition

/-- What follows is always answered and leaves the disk alone. -/
theorem bind {next : α → Act Disk β} (hact : AnsweredIff start root disk act condition)
    (hnext : ∀ value, ∃ result, next value = pure result) :
    AnsweredIff start root disk (act >>= next) condition := by
  have hanswered := hact.answered
  have hreached := hact.reached
  rcases hexec : act.exec disk with ⟨fault | value, later⟩ <;> rw [hexec] at hanswered hreached
  · exact of_fault (Act.exec_bind_error hexec) (by simpa using hanswered)
  · obtain ⟨result, hresult⟩ := hnext value
    have hcondition : condition := by simpa using hanswered
    have hbind : (act >>= next).exec disk = (.ok result, later) := by
      rw [Act.exec_bind_ok hexec, hresult, Act.exec_pure]
    exact of_exec hbind (hreached hcondition) hcondition

theorem congr {act' : Act Disk α} {condition' : Prop}
    (hact : AnsweredIff start root disk act' condition')
    (hexec : act.exec disk = act'.exec disk) (hcondition : condition' ↔ condition) :
    AnsweredIff start root disk act condition := by
  constructor
  · rw [hexec, hact.answered, hcondition]
  · rw [hexec, ← hcondition]
    exact hact.reached

end AnsweredIff

namespace RealFileSystem

variable {host : Host} (hhost : host.Succeeds) {start disk : Disk} {root : List Str}
  (hreached : Reached start root disk) {path name : Str} {dir place : List Str}

include hhost hreached

theorem answeredIff_genIdAndWriteFile (hresolve : disk.resolve path = some dir)
    (hdir : dir.length ≤ root.length + 1) (body : Str) :
    AnsweredIff start root disk (genIdAndWriteFile host path body)
      (disk.isRegularFile path = false ∧
        ∀ name ∈ disk.entries path, ∃ number, stoi (stem name) = .ok number) := by
  have hensured := hreached.ensured hdir
  have hexec := exec_genIdAndWriteFile hhost hresolve body
  have hnames : (∃ id, uniqueFileName
      (host.listing ((disk.ensured dir).tree.children dir)) = .ok id) ↔
        ∀ name ∈ disk.entries path, ∃ number, stoi (stem name) = .ok number := by
    simp only [exists_uniqueFileName_iff, (host.listing_perm _).mem_iff,
      Disk.mem_children_ensured, Disk.entries, hresolve]
  rw [← hnames, ← Disk.isDirectory_ensured_iff hresolve]
  split at hexec
  · next hdirectory =>
      split at hexec
      · next hunique => exact .of_fault hexec (by simp [hunique])
      · next id hunique =>
          have hname : Numbered (toStringInt id) := by
            obtain ⟨n, rfl⟩ := exists_wrapInt_of_uniqueFileName hunique
            exact Or.inr ⟨_, (wrapInt_mem n).1, (wrapInt_mem n).2, rfl⟩
          split at hexec
          · next file hopen =>
              obtain ⟨rfl, hfile⟩ := Disk.eq_of_openable
                ((Disk.extends_ensured disk dir).resolve hresolve) hname.segment hopen
              exact .of_exec hexec (hensured.written hfile hname _) ⟨hdirectory, id, hunique⟩
          · exact .of_exec hexec hensured ⟨hdirectory, id, hunique⟩
  · next hdirectory => exact .of_fault hexec (fun h => hdirectory h.1)

theorem answeredIff_writeFile (hparent : parentPath (path ++ '/' :: name) = path)
    (hresolve : disk.resolve path = some dir) (hdir : dir.length ≤ root.length + 1)
    (hname : Numbered name) (body : Str) :
    AnsweredIff start root disk (writeFile host (path ++ '/' :: name) body) True := by
  have hensured := hreached.ensured hdir
  have hexec := exec_writeFile hhost (hparent.symm ▸ hresolve) body
  split at hexec
  · next file hopen =>
      obtain ⟨rfl, hfile⟩ := Disk.eq_of_openable
        ((Disk.extends_ensured disk dir).resolve hresolve) hname.segment hopen
      exact .of_exec hexec (hensured.written hfile hname _) trivial
  · exact .of_exec hexec hensured trivial

/-- A directory is listed, and anything else but a file is not asked for. -/
theorem answeredIff_getFileList (hresolve : disk.resolve path = some place)
    (hpresent : disk.pathExists path = true) :
    AnsweredIff start root disk (getFileList host path)
      (disk.isRegularFile path = false) := by
  have hexec := exec_getFileList hhost hresolve
  rw [Disk.pathExists, Disk.status_of_resolve hresolve, Option.isSome_iff_exists] at hpresent
  obtain ⟨node, hnode⟩ := hpresent
  have hregular := Disk.isRegularFile_eq_true_iff hresolve
  rw [hnode] at hregular
  cases node with
  | file content =>
      rw [if_neg (by simp [Tree.isDirectory_iff, hnode])] at hexec
      exact .of_fault hexec (by simp [hregular])
  | directory =>
      rw [if_pos (by simp [Tree.isDirectory_iff, hnode])] at hexec
      exact .of_exec hexec hreached (by simpa using hregular)

/-- `remove` faults only when it has to clean up a directory under `.` or `..`. -/
theorem answeredIff_remove {content : Str} (hresolve : disk.resolve path = some place)
    (hfile : disk.tree.node? place = some (.file content))
    (hparent : disk.resolve (parentPath path) = some dir)
    (hdirectory : disk.tree.isDirectory dir = true) {condition : Prop}
    (hcondition : condition ↔ ¬ ((disk.without place).tree.children dir = [] ∧
      ((components (parentPath path)).getLast? = some .here ∨
        (components (parentPath path)).getLast? = some .up ∨ dir = [])))
    (hkept : condition → (disk.without place).tree.children dir = [] →
      ∀ other, dir <+: other → start.tree.isDirectory other = false) :
    AnsweredIff start root disk (remove host path) condition := by
  have hexec := exec_remove hhost hresolve hfile hparent hdirectory
  split at hexec
  · next hstays => exact .of_fault hexec (by rwa [hcondition, not_not])
  · next hstays =>
      have hholds := hcondition.mpr hstays
      have hwithout := hreached.without hfile
      refine .of_exec hexec ?_ hholds
      rw [Disk.cleaned]
      split
      · next hempty =>
          exact hwithout.withoutAll (fun heq => hstays ⟨hempty, Or.inr (Or.inr heq)⟩)
            (hkept hholds hempty)
      · exact hwithout

end RealFileSystem

namespace ApiHandler

variable {start disk : Disk} {dataPath : Str} {root : List Str} {entity fileName : Str}

/-- What a request with these segments has to find.  A POST or GET of an entity:
no file in the place of its directory.  A POST: no number too large for an `int`
and, under `.` and `..`, where other names are, only names that read as one.  A
GET: an entity.  A DELETE that empties a directory: its proper name. -/
structure Survives (handler : ApiHandler Disk) (method : Str) (uri : List Str)
    (disk : Disk) : Prop where
  post : method = "POST".toList → ∀ entity, uri = [entity] →
    disk.isRegularFile (handler.entityPath entity) = false ∧
      ∀ name ∈ disk.entries (handler.entityPath entity),
        if IsName entity then IsDigits name → (decimal name : Int) ≤ intMax
        else ∃ number, stoi (stem name) = .ok number
  get : method = "GET".toList → uri ≠ [] ∧ ∀ entity, uri = [entity] →
    disk.isRegularFile (handler.entityPath entity) = false
  delete : method = "DELETE".toList → ∀ entity fileName, uri = [entity, fileName] →
    disk.isRegularFile (handler.filePath entity fileName) = true →
      disk.entries (handler.entityPath entity) = [fileName] → IsName entity

/-- A GET below an entity only reads. -/
theorem exec_handleGet_below (location dataPath : Str) (host : Host)
    (entity fileName : Str) (more : List Str) (httpResponse : Response) (disk : Disk) :
    ∃ reply, ((real location dataPath host).handleGet (entity :: fileName :: more)
      httpResponse).exec disk = (.ok reply, disk) := by
  have hexists : ((real location dataPath host).fs.pathExists
      ((real location dataPath host).entityPath entity)).exec disk =
        (.ok (disk.pathExists ((real location dataPath host).entityPath entity)), disk) :=
    rfl
  have hread : ((real location dataPath host).fs.readFile
      ((real location dataPath host).filePath entity fileName)).exec disk =
        (.ok _, disk) := Act.exec_attempt _ _
  rcases more with _ | ⟨next, others⟩
  · rw [handleGet_file, Act.exec_bind_ok hexists]
    split
    · exact ⟨_, rfl⟩
    · rw [Act.exec_bind_ok hread]
      split <;> exact ⟨_, rfl⟩
  · rw [handleGet_deep, Act.exec_bind_ok hexists]
    split <;> exact ⟨_, rfl⟩

/-- The directory of an entity cannot be removed under its name `.` or `..`. -/
theorem cannotRemove_iff (handler : ApiHandler Disk) (root : List Str) (hne : entity ≠ [])
    (hslash : '/' ∉ entity) :
    ((components (handler.entityPath entity)).getLast? = some .here ∨
        (components (handler.entityPath entity)).getLast? = some .up ∨
        Tree.enter root (component entity) = []) ↔ ¬ IsName entity := by
  rw [getLast?_components_entityPath handler hne hslash]
  rcases component_cases entity with ⟨hname, hcomponent⟩ | ⟨hdot, hcomponent⟩ |
      ⟨hdots, hcomponent⟩
  · simp [hcomponent, hname, Tree.enter]
  · rw [hcomponent]
    exact iff_of_true (Or.inl rfl) (fun hname => hname.1 hdot)
  · rw [hcomponent]
    exact iff_of_true (Or.inr (Or.inl rfl)) (fun hname => hname.2 hdots)

section Operations

variable {host : Host} (hhost : host.Succeeds) (location : Str)
  (hstart : EmptyDirectory start dataPath root) (hreached : Reached start root disk)
  (hne : entity ≠ []) (hslash : '/' ∉ entity)

include hhost hstart hreached hne hslash

theorem answeredIff_handlePost (httpRequest : Request) (httpResponse : Response) :
    AnsweredIff start root disk
      ((real location dataPath host).handlePost [entity] httpRequest httpResponse)
      (disk.isRegularFile ((real location dataPath host).entityPath entity) = false ∧
        ∀ name ∈ disk.entries ((real location dataPath host).entityPath entity),
          if IsName entity then IsDigits name → (decimal name : Int) ≤ intMax
          else ∃ number, stoi (stem name) = .ok number) := by
  have hresolve := resolve_entityPath (real location dataPath host) hstart
    hreached.extends_start hne hslash
  have hwrite := RealFileSystem.answeredIff_genIdAndWriteFile hhost hreached hresolve
    (Tree.length_enter_le root _) httpRequest.body
  rw [handlePost_entity]
  refine (hwrite.bind ?_).congr rfl (and_congr_right' (forall₂_congr ?_))
  · intro id
    split <;> exact ⟨_, rfl⟩
  · intro name hname
    split
    · next hentity =>
        rw [Disk.entries, hresolve, component_of_isName hentity, Tree.mem_children] at hname
        exact (hreached.numbered entity name (by simpa [Tree.enter] using hname)).exists_stoi_iff
    · rfl

omit hne hslash in
theorem answeredIff_handleGet {uri : List Str}
    (huri : ∀ segment ∈ uri, segment ≠ [] ∧ '/' ∉ segment) (httpResponse : Response) :
    AnsweredIff start root disk ((real location dataPath host).handleGet uri httpResponse)
      (uri ≠ [] ∧ ∀ entity, uri = [entity] →
        disk.isRegularFile ((real location dataPath host).entityPath entity) = false) := by
  rcases uri with _ | ⟨entity, rest⟩
  · exact .of_fault rfl (by simp)
  · obtain ⟨hne, hslash⟩ := huri entity List.mem_cons_self
    have hresolve := resolve_entityPath (real location dataPath host) hstart
      hreached.extends_start hne hslash
    have hexists : ((real location dataPath host).fs.pathExists
        ((real location dataPath host).entityPath entity)).exec disk =
          (.ok (disk.pathExists ((real location dataPath host).entityPath entity)), disk) :=
      rfl
    rcases rest with _ | ⟨fileName, more⟩
    · cases hpresent : disk.pathExists ((real location dataPath host).entityPath entity) with
      | false =>
          have hregular : disk.isRegularFile
              ((real location dataPath host).entityPath entity) = false := by
            rw [Disk.pathExists, Option.isSome_eq_false_iff, Option.isNone_iff_eq_none]
              at hpresent
            rw [Disk.isRegularFile, hpresent]
          rw [hpresent] at hexists
          exact .of_exec (by rw [handleGet_entity, Act.exec_bind_ok hexists]; rfl) hreached
            (by simpa using hregular)
      | true =>
          rw [hpresent] at hexists
          refine ((RealFileSystem.answeredIff_getFileList hhost hreached hresolve
            hpresent).bind fun _ => ⟨_, rfl⟩).congr
              (by rw [handleGet_entity, Act.exec_bind_ok hexists]; rfl) (by simp)
    · obtain ⟨reply, hreply⟩ := exec_handleGet_below location dataPath host entity fileName
        more httpResponse disk
      exact .of_exec hreply hreached (by simp)

theorem answeredIff_handlePut (hfile : IsDigits fileName)
    (httpRequest : Request) (httpResponse : Response) :
    AnsweredIff start root disk
      ((real location dataPath host).handlePut [entity, fileName] httpRequest httpResponse)
      True := by
  have hresolve := resolve_entityPath (real location dataPath host) hstart
    hreached.extends_start hne hslash
  have hparent := parentPath_filePath (real location dataPath host) hne hslash
    (hfile.not_mem (by decide) : '/' ∉ fileName)
  rw [filePath_eq_entityPath] at hparent
  rw [handlePut_file, filePath_eq_entityPath]
  refine (RealFileSystem.answeredIff_writeFile hhost hreached hparent hresolve
    (Tree.length_enter_le root _) (Or.inl hfile) _).bind ?_
  intro success
  cases success <;> exact ⟨_, rfl⟩

/-- Removing a file faults only where its directory goes with it and is not
named properly. -/
theorem answeredIff_removeFile (hfile : IsDigits fileName)
    (hregular : disk.isRegularFile
      ((real location dataPath host).filePath entity fileName) = true) :
    AnsweredIff start root disk
      (RealFileSystem.remove host ((real location dataPath host).filePath entity fileName))
      (disk.entries ((real location dataPath host).entityPath entity) = [fileName] →
        IsName entity) := by
  have hfileSlash : '/' ∉ fileName := hfile.not_mem (by decide)
  have hentity := resolve_entityPath (real location dataPath host) hstart
    hreached.extends_start hne hslash
  have hpath := resolve_filePath (real location dataPath host) hstart
    hreached.extends_start hne hslash hfile.1 hfileSlash (isName_of_isDigits hfile)
  have hparent := hentity
  rw [← parentPath_filePath _ hne hslash hfileSlash] at hparent
  have hcannot := cannotRemove_iff (real location dataPath host) root hne hslash
  split at hpath
  · next hdirectory =>
      obtain ⟨content, hcontent⟩ := (Disk.isRegularFile_eq_true_iff hpath).mp hregular
      have hchildren := Disk.children_without_eq_nil_iff (hcontent ▸ Option.some_ne_none _)
      have hentries : disk.entries ((real location dataPath host).entityPath entity) =
          disk.tree.children (Tree.enter root (component entity)) := by
        rw [Disk.entries, hentity]
      have hnew : IsName entity → ∀ other,
          Tree.enter root (component entity) <+: other →
            start.tree.isDirectory other = false := by
        rintro hname other ⟨rest, rfl⟩
        rw [component_of_isName hname, Tree.enter, List.append_assoc, Tree.isDirectory,
          hstart.empty _ (by simp)]
      rw [← parentPath_filePath _ hne hslash hfileSlash] at hcannot
      rw [hentries, ← hchildren]
      exact RealFileSystem.answeredIff_remove hhost hreached hpath hcontent hparent
        hdirectory (by rw [hcannot, not_and, not_not])
        fun hcondition hempty => hnew (hcondition hempty)
  · rw [Disk.isRegularFile, Disk.status, hpath] at hregular
    contradiction

theorem answeredIff_handleDelete (hfile : IsDigits fileName) (httpResponse : Response) :
    AnsweredIff start root disk
      ((real location dataPath host).handleDelete [entity, fileName] httpResponse)
      (disk.isRegularFile ((real location dataPath host).filePath entity fileName) = true →
        disk.entries ((real location dataPath host).entityPath entity) = [fileName] →
          IsName entity) := by
  have hexists : ((real location dataPath host).fs.isRegularFile
      ((real location dataPath host).filePath entity fileName)).exec disk =
        (.ok (disk.isRegularFile
          ((real location dataPath host).filePath entity fileName)), disk) := rfl
  cases hregular : disk.isRegularFile
      ((real location dataPath host).filePath entity fileName) with
  | false =>
      rw [hregular] at hexists
      exact .of_exec (by rw [handleDelete_file, Act.exec_bind_ok hexists]; rfl) hreached
        (by simp)
  | true =>
      rw [hregular] at hexists
      have hremove := answeredIff_removeFile hhost location hstart hreached hne hslash hfile
        hregular
      refine (hremove.bind ?_).congr
        (by rw [handleDelete_file, Act.exec_bind_ok hexists]; rfl) (by simp)
      intro removed
      cases removed <;> exact ⟨_, rfl⟩

end Operations

section Dispatch

variable {host : Host} (hhost : host.Succeeds) (location : Str)
  (hstart : EmptyDirectory start dataPath root) (hreached : Reached start root disk)
  {uri : List Str} (huri : ∀ segment ∈ uri, segment ≠ [] ∧ '/' ∉ segment)
  (hnumber : isFileNumber uri = true) (httpRequest : Request) (httpResponse : Response)

include hhost hstart hreached huri

theorem answeredIff_dispatch_post (hmethod : httpRequest.method = "POST".toList) :
    AnsweredIff start root disk
      ((real location dataPath host).dispatch uri httpRequest httpResponse)
      ((real location dataPath host).Survives httpRequest.method uri disk) := by
  rw [dispatch_post _ _ _ hmethod, hmethod]
  by_cases hshape : ∃ entity, uri = [entity]
  · obtain ⟨entity, rfl⟩ := hshape
    obtain ⟨hne, hslash⟩ := huri entity List.mem_cons_self
    refine (answeredIff_handlePost hhost location hstart hreached hne hslash httpRequest
      httpResponse).congr rfl ⟨?_, fun hsurvives => hsurvives.post rfl entity rfl⟩
    intro hpost
    refine ⟨?_, fun h => absurd h (by decide), fun h => absurd h (by decide)⟩
    rintro - other hother
    cases hother
    exact hpost
  · have hlength : uri.length ≠ 1 := by rwa [ne_eq, List.length_eq_one_iff]
    rw [handlePost_of_length_ne _ hlength]
    exact .of_exec rfl hreached ⟨fun _ entity hentity => absurd ⟨entity, hentity⟩ hshape,
      fun h => absurd h (by decide), fun h => absurd h (by decide)⟩

theorem answeredIff_dispatch_get (hmethod : httpRequest.method = "GET".toList) :
    AnsweredIff start root disk
      ((real location dataPath host).dispatch uri httpRequest httpResponse)
      ((real location dataPath host).Survives httpRequest.method uri disk) := by
  rw [dispatch_get _ _ _ hmethod, hmethod]
  exact (answeredIff_handleGet hhost location hstart hreached huri httpResponse).congr rfl
    ⟨fun hget => ⟨fun h => absurd h (by decide), fun _ => hget,
      fun h => absurd h (by decide)⟩, fun hsurvives => hsurvives.get rfl⟩

include hnumber

theorem answeredIff_dispatch_put (hmethod : httpRequest.method = "PUT".toList) :
    AnsweredIff start root disk
      ((real location dataPath host).dispatch uri httpRequest httpResponse)
      ((real location dataPath host).Survives httpRequest.method uri disk) := by
  have hsurvives : (real location dataPath host).Survives "PUT".toList uri disk :=
    ⟨fun h => absurd h (by decide), fun h => absurd h (by decide),
      fun h => absurd h (by decide)⟩
  rw [dispatch_put _ _ _ hmethod, hmethod]
  by_cases hshape : ∃ entity fileName, uri = [entity, fileName]
  · obtain ⟨entity, fileName, rfl⟩ := hshape
    obtain ⟨hne, hslash⟩ := huri entity List.mem_cons_self
    have hfile := isDigits_of_isFileNumber hnumber
    exact (answeredIff_handlePut hhost location hstart hreached hne hslash
      hfile httpRequest httpResponse).congr rfl (iff_of_true trivial hsurvives)
  · have hlength : uri.length ≠ 2 := by rwa [ne_eq, List.length_eq_two]
    rw [handlePut_of_length_ne _ hlength]
    exact .of_exec rfl hreached hsurvives

theorem answeredIff_dispatch_delete (hmethod : httpRequest.method = "DELETE".toList) :
    AnsweredIff start root disk
      ((real location dataPath host).dispatch uri httpRequest httpResponse)
      ((real location dataPath host).Survives httpRequest.method uri disk) := by
  rw [dispatch_delete _ _ _ hmethod, hmethod]
  by_cases hshape : ∃ entity fileName, uri = [entity, fileName]
  · obtain ⟨entity, fileName, rfl⟩ := hshape
    obtain ⟨hne, hslash⟩ := huri entity List.mem_cons_self
    have hfile := isDigits_of_isFileNumber hnumber
    refine (answeredIff_handleDelete hhost location hstart hreached hne hslash hfile
      httpResponse).congr rfl ⟨?_, fun hsurvives => hsurvives.delete rfl entity fileName rfl⟩
    intro hdelete
    refine ⟨fun h => absurd h (by decide), fun h => absurd h (by decide), ?_⟩
    rintro - other otherName hother
    cases hother
    exact hdelete
  · have hlength : uri.length ≠ 2 := by rwa [ne_eq, List.length_eq_two]
    rw [handleDelete_of_length_ne _ hlength]
    exact .of_exec rfl hreached ⟨fun h => absurd h (by decide),
      fun h => absurd h (by decide),
      fun _ entity fileName hentity => absurd ⟨entity, fileName, hentity⟩ hshape⟩

theorem answeredIff_dispatch :
    AnsweredIff start root disk
      ((real location dataPath host).dispatch uri httpRequest httpResponse)
      ((real location dataPath host).Survives httpRequest.method uri disk) := by
  by_cases hpost : httpRequest.method = "POST".toList
  · exact answeredIff_dispatch_post hhost location hstart hreached huri _ _ hpost
  by_cases hget : httpRequest.method = "GET".toList
  · exact answeredIff_dispatch_get hhost location hstart hreached huri _ _ hget
  by_cases hput : httpRequest.method = "PUT".toList
  · exact answeredIff_dispatch_put hhost location hstart hreached huri hnumber _ _ hput
  by_cases hdelete : httpRequest.method = "DELETE".toList
  · exact answeredIff_dispatch_delete hhost location hstart hreached huri hnumber _ _
      hdelete
  · rw [dispatch_other _ _ _ hpost hget hput hdelete]
    exact .of_exec rfl hreached ⟨fun h => absurd h hpost, fun h => absurd h hget,
      fun h => absurd h hdelete⟩

end Dispatch

/-- What a request has to meet: its target has a segment at all, and unless the
check of its file segment answers it, it `Survives` its operation. -/
def RequestSurvives (handler : ApiHandler Disk) (disk : Disk) (httpRequest : Request) :
    Prop :=
  ∃ uri, split (cStr httpRequest.target) '/' = .ok uri ∧
    (isFileNumber uri = true → handler.Survives httpRequest.method uri disk)

/-- One request is answered exactly if it meets what it has to. -/
theorem answeredIff_handleRequest {host : Host} (hhost : host.Succeeds) (location : Str)
    (hstart : EmptyDirectory start dataPath root) (hreached : Reached start root disk)
    (httpRequest : Request) (httpResponse : Response) :
    AnsweredIff start root disk
      ((real location dataPath host).handleRequest httpRequest httpResponse)
      ((real location dataPath host).RequestSurvives disk httpRequest) := by
  cases hsplit : split (cStr httpRequest.target) '/' with
  | error fault =>
      exact .of_fault (by rw [handleRequest_of_split_error _ _ hsplit]; rfl)
        (by simp [RequestSurvives, hsplit])
  | ok uri =>
      have huri : ∀ segment ∈ uri, segment ≠ [] ∧ '/' ∉ segment := forall_mem_split hsplit
      cases hnumber : isFileNumber uri with
      | false =>
          refine .of_exec (by rw [handleRequest_of_not_isFileNumber _ _ hsplit hnumber]; rfl)
            hreached ⟨uri, hsplit, ?_⟩
          rw [hnumber]
          intro hfalse
          contradiction
      | true =>
          exact (answeredIff_dispatch hhost location hstart hreached huri hnumber httpRequest
            httpResponse).congr
            (by rw [handleRequest_of_isFileNumber _ _ hsplit hnumber])
            (by simp [RequestSurvives, hsplit, hnumber])

/-- No request of a run leaves the handler through a fault exactly when each one
meets what it has to in the state in which it is handled.  On a working host every
`stat` of a path succeeds too, so segments are short enough for the file system. -/
theorem guarded_requestSurvives_iff (location : Str)
    (hstart : EmptyDirectory start dataPath root)
    (inputs : List (WorkingHost × Request)) :
    (apiMachine location dataPath).Guarded
        (fun disk input =>
          (real location dataPath input.1).RequestSurvives disk input.2) start inputs ↔
      ∀ answer ∈ (apiMachine location dataPath).trace start inputs,
        Answered answer.1 := by
  have hgood : ∀ disk (input : WorkingHost × Request), Reached start root disk →
      ((real location dataPath input.1).RequestSurvives disk input.2 ↔
        Answered ((apiMachine location dataPath).step disk input).1) := by
    intro disk input hreached
    exact (answeredIff_handleRequest input.1.2 location hstart hreached input.2
      Response.empty).answered.symm
  have hinv : ∀ disk (input : WorkingHost × Request), Reached start root disk →
      (real location dataPath input.1).RequestSurvives disk input.2 →
        Reached start root ((apiMachine location dataPath).step disk input).2 := by
    intro disk input hreached hsurvives
    exact (answeredIff_handleRequest input.1.2 location hstart hreached input.2
      Response.empty).reached hsurvives
  exact Machine.guarded_iff_forall_trace _ hgood hinv inputs (Reached.refl hstart)

end ApiHandler

namespace RequestSafetyWitness

open DataDirectoryWitness

def location : Str := "/api/".toList

def host : WorkingHost := ⟨workingHost, workingHost_succeeds⟩

def fittingRequest : Request := ⟨"PUT".toList, "/api/shoes/7".toList, "red".toList⟩

/-- The name is a number, but not one that an `int` holds. -/
def putRequest : Request := ⟨"PUT".toList, "/api/shoes/2147483648".toList, "red".toList⟩

def postRequest : Request := ⟨"POST".toList, "/api/shoes".toList, "blue".toList⟩

theorem guarded_putAndPost :
    (apiMachine location dataPath).Guarded
      (fun disk input =>
        (ApiHandler.real location dataPath input.1).RequestSurvives disk input.2)
      disk [(host, fittingRequest), (host, postRequest)] :=
  (ApiHandler.guarded_requestSurvives_iff location emptyDirectory_disk _).mpr
    (by decide +kernel)

theorem not_answered_putAndPost :
    ¬ ∀ answer ∈ (apiMachine location dataPath).trace disk
        [(host, putRequest), (host, postRequest)], Answered answer.1 := by
  decide +kernel

end RequestSafetyWitness

end SwanServer
