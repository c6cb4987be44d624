/-
Which paths the API handler hands to its file system, whatever that file system
does with them, and when they lie strictly inside the data path.
-/
import SwanServer.ApiHandler

namespace SwanServer

open LexicalPath

section Tracing

variable {σ α : Type}

/-- Note a path and then do what is asked. -/
def noting (path : Str) (act : Act σ α) : Act (σ × List Str) α :=
  Act.attempt fun store =>
    let result := act.exec store.1
    (result.1, (result.2, store.2 ++ [path]))

@[simp] theorem exec_noting (path : Str) (act : Act σ α) (store : σ × List Str) :
    (noting path act).exec store =
      ((act.exec store.1).1, ((act.exec store.1).2, store.2 ++ [path])) := rfl

/-- A file system that notes every path it is given. -/
def traced (fs : FileSystem σ) : FileSystem (σ × List Str) where
  pathExists p := noting p (fs.pathExists p)
  createDirectory p := noting p (fs.createDirectory p)
  isRegularFile p := noting p (fs.isRegularFile p)
  remove p := noting p (fs.remove p)
  writeFile p body := noting p (fs.writeFile p body)
  genIdAndWriteFile p body := noting p (fs.genIdAndWriteFile p body)
  readFile p := noting p (fs.readFile p)
  getFileList p := noting p (fs.getFileList p)

end Tracing

namespace ApiHandler

variable {σ : Type} (handler : ApiHandler σ)

/-- The same handler over the file system that notes paths. -/
def traced : ApiHandler (σ × List Str) :=
  { handler with fs := SwanServer.traced handler.fs }

/-- The paths that one request passes to the file system, in order. -/
def pathsPassed (httpRequest : Request) (httpResponse : Response) (store : σ) :
    List Str :=
  ((handler.traced.handleRequest httpRequest httpResponse).exec (store, [])).2.2

end ApiHandler

/-- `path` is reached from `dir` by one or two names. -/
def Below (dir path : Reduced Str) : Prop :=
  ∃ rest : List Str, (rest.length = 1 ∨ rest.length = 2) ∧
    path = { dir with names := dir.names ++ rest }

/-- A path that resolves to an entry of the data path or to an entry of such
an entry. -/
def StrictlyInside (dataPath path : Str) : Prop :=
  Below (lexical dataPath) (lexical path)

/-- The data path is the root directory. -/
def IsRoot (dataPath : Str) : Prop :=
  (lexical dataPath).absolute = true ∧ (lexical dataPath).names = []

/-- The segments are looked up without leaving the data path.  A file under
`.`, or under `..` of the root, is an entry of the data path itself. -/
structure Confines (dataPath method : Str) (uri : List Str) : Prop where
  post : method = "POST".toList → ∀ entity, uri = [entity] →
    dataPath ≠ [] ∧ IsName entity
  get : method = "GET".toList → ∀ entity rest, uri = entity :: rest →
    dataPath ≠ [] ∧ IsName entity
  file : method = "PUT".toList ∨ method = "DELETE".toList →
    ∀ entity fileName, uri = [entity, fileName] →
      dataPath ≠ [] ∧ (IsName entity ∨ entity = ".".toList ∨ IsRoot dataPath)

theorem below_absolute {dir path : Reduced Str} (hbelow : Below dir path) :
    path.absolute = dir.absolute := by
  obtain ⟨rest, -, rfl⟩ := hbelow
  rfl

theorem below_length {dir path : Reduced Str} (hbelow : Below dir path) :
    dir.names.length < path.names.length := by
  obtain ⟨rest, hrest, rfl⟩ := hbelow
  simp only [List.length_append]
  omega

theorem below_step_name (dir : Reduced Str) (name : Str) :
    Below dir (dir.step (.name name)) :=
  ⟨[name], Or.inl rfl, rfl⟩

theorem below_step_name_name (dir : Reduced Str) (first second : Str) :
    Below dir ((dir.step (.name first)).step (.name second)) := by
  refine ⟨[first, second], Or.inr rfl, ?_⟩
  simp [Reduced.step_name]

theorem length_names_ascend_le (dir : Reduced Str) :
    dir.ascend.names.length ≤ dir.names.length := by
  obtain ⟨absolute, ups, names⟩ := dir
  cases names <;> cases absolute <;> simp [Reduced.ascend]

/-- One level up and down again by a name is below the start only at the
root, where `..` stays. -/
theorem below_ascend_step_iff (dir : Reduced Str) (name : Str) :
    Below dir (dir.ascend.step (.name name)) ↔
      dir.absolute = true ∧ dir.names = [] := by
  constructor
  · intro hbelow
    have hlength := below_length hbelow
    obtain ⟨rest, -, heq⟩ := hbelow
    obtain ⟨absolute, ups, names⟩ := dir
    cases names with
    | cons first others => simp [Reduced.ascend, Reduced.step_name] at hlength
    | nil =>
        cases absolute with
        | true => exact ⟨rfl, rfl⟩
        | false => simp [Reduced.ascend, Reduced.step_name] at heq
  · rintro ⟨habsolute, hnames⟩
    obtain ⟨absolute, ups, names⟩ := dir
    subst habsolute hnames
    exact below_step_name ⟨true, ups, []⟩ name

/-- With an empty data path everything starts at the root. -/
theorem not_strictlyInside_nil (rest : Str) : ¬ StrictlyInside [] ('/' :: rest) := by
  intro hinside
  have habsolute := below_absolute hinside
  rw [lexical, Reduced.absolute_follow, lexical, Reduced.absolute_follow] at habsolute
  exact absurd habsolute (by simp [isAbsolute])

theorem strictlyInside_entity_iff {dataPath entity : Str} (hne : entity ≠ [])
    (hslash : '/' ∉ entity) :
    StrictlyInside dataPath (dataPath ++ '/' :: entity) ↔
      dataPath ≠ [] ∧ IsName entity := by
  by_cases hdata : dataPath = []
  · subst hdata
    simpa using not_strictlyInside_nil entity
  · rw [StrictlyInside, lexical_append_segment hdata hne hslash]
    rcases component_cases entity with ⟨hname, hcomponent⟩ | ⟨hdot, hcomponent⟩ |
        ⟨hdots, hcomponent⟩
    · simp only [hcomponent, hdata, hname, ne_eq, not_false_eq_true, and_self, iff_true]
      exact below_step_name _ _
    · rw [hcomponent, Reduced.step_here]
      constructor
      · exact fun hbelow => absurd (below_length hbelow) (lt_irrefl _)
      · exact fun h => absurd hdot h.2.1
    · rw [hcomponent]
      constructor
      · intro hbelow
        have hlength := below_length hbelow
        have hascend := length_names_ascend_le (lexical dataPath)
        exact absurd hlength (Nat.not_lt.mpr hascend)
      · exact fun h => absurd hdots h.2.2

theorem strictlyInside_file_iff {dataPath entity fileName : Str} (hne : entity ≠ [])
    (hslash : '/' ∉ entity) (hfile : IsDigits fileName) :
    StrictlyInside dataPath (dataPath ++ '/' :: entity ++ '/' :: fileName) ↔
      dataPath ≠ [] ∧
        (IsName entity ∨ entity = ".".toList ∨ IsRoot dataPath) := by
  by_cases hdata : dataPath = []
  · subst hdata
    simpa using not_strictlyInside_nil (entity ++ '/' :: fileName)
  · have hfileComponent := component_of_isName (isName_of_isDigits hfile)
    rw [StrictlyInside,
      lexical_append_segment (by simp) hfile.1 (hfile.not_mem (by decide)),
      lexical_append_segment hdata hne hslash, hfileComponent]
    rcases component_cases entity with ⟨hname, hcomponent⟩ | ⟨hdot, hcomponent⟩ |
        ⟨hdots, hcomponent⟩
    · rw [hcomponent]
      exact iff_of_true (below_step_name_name _ _ _) ⟨hdata, Or.inl hname⟩
    · rw [hcomponent, Reduced.step_here]
      exact iff_of_true (below_step_name _ _) ⟨hdata, Or.inr (Or.inl hdot)⟩
    · rw [hcomponent]
      have hnotName : ¬ IsName entity := fun h => h.2 hdots
      have hnotDot : entity ≠ ".".toList := by
        rw [hdots]
        decide
      simp only [hnotName, hnotDot, false_or, ne_eq, hdata, not_false_eq_true,
        true_and]
      exact below_ascend_step_iff _ _

namespace ApiHandler

variable {σ : Type} (handler : ApiHandler σ)

/-- The paths noted by a computation of the traced handler. -/
def noted {α : Type} (act : Act (σ × List Str) α) (store : σ) : List Str :=
  (act.exec (store, [])).2.2

theorem noted_handlePost_entity (entity : Str) (httpRequest : Request)
    (httpResponse : Response) (store : σ) :
    noted (handler.traced.handlePost [entity] httpRequest httpResponse) store =
      [handler.entityPath entity] := by
  rw [noted, handlePost_entity, Act.exec_bind]
  simp only [traced, SwanServer.traced, exec_noting]
  rcases (handler.fs.genIdAndWriteFile _ _).exec store with ⟨_ | id, later⟩
  · rfl
  · simp only [Act.exec_ite, Act.exec_pure]
    split <;> rfl

/-- A GET looks at the entity directory first, and then at most at that again
or at the one file it names. -/
theorem noted_handleGet (entity : Str) (rest : List Str) (httpResponse : Response)
    (store : σ) :
    ∃ later, noted (handler.traced.handleGet (entity :: rest) httpResponse) store =
        handler.entityPath entity :: later ∧
      ∀ path ∈ later, path = handler.entityPath entity ∨
        ∃ fileName, rest = [fileName] ∧ path = handler.filePath entity fileName := by
  cases rest with
  | nil =>
      rw [noted, handleGet_entity, Act.exec_bind]
      simp only [traced, SwanServer.traced, exec_noting]
      rcases (handler.fs.pathExists _).exec store with ⟨_ | present, middle⟩
      · exact ⟨[], rfl, by simp⟩
      · cases present with
        | false => exact ⟨[], rfl, by simp⟩
        | true =>
            simp only [Bool.true_eq_false, ↓reduceIte, Act.exec_bind, exec_noting]
            rcases (handler.fs.getFileList _).exec middle with ⟨_ | list, final⟩
            · exact ⟨[handler.entityPath entity], rfl, by simp⟩
            · exact ⟨[handler.entityPath entity], rfl, by simp⟩
  | cons fileName more =>
      cases more with
      | nil =>
          rw [noted, handleGet_file, Act.exec_bind]
          simp only [traced, SwanServer.traced, exec_noting]
          rcases (handler.fs.pathExists _).exec store with ⟨_ | present, middle⟩
          · exact ⟨[], rfl, by simp⟩
          · cases present with
            | false => exact ⟨[], rfl, by simp⟩
            | true =>
                simp only [Bool.true_eq_false, ↓reduceIte, Act.exec_bind, exec_noting]
                refine ⟨[handler.filePath entity fileName], ?_, by simp⟩
                rcases (handler.fs.readFile _).exec middle with ⟨_ | _ | file, final⟩ <;>
                  rfl
      | cons next others =>
          rw [noted, handleGet_deep, Act.exec_bind]
          simp only [traced, SwanServer.traced, exec_noting]
          refine ⟨[], ?_, by simp⟩
          rcases (handler.fs.pathExists _).exec store with ⟨_ | _ | _, middle⟩ <;> rfl

theorem noted_handlePut_file (entity fileName : Str) (httpRequest : Request)
    (httpResponse : Response) (store : σ) :
    noted (handler.traced.handlePut [entity, fileName] httpRequest httpResponse)
        store = [handler.filePath entity fileName] := by
  rw [noted, handlePut_file, Act.exec_bind]
  simp only [traced, SwanServer.traced, exec_noting]
  rcases (handler.fs.writeFile _ _).exec store with ⟨_ | _ | _, later⟩ <;> rfl

theorem noted_handleDelete_file (entity fileName : Str) (httpResponse : Response)
    (store : σ) :
    ∃ later, noted (handler.traced.handleDelete [entity, fileName] httpResponse)
        store = handler.filePath entity fileName :: later ∧
      ∀ path ∈ later, path = handler.filePath entity fileName := by
  rw [noted, handleDelete_file, Act.exec_bind]
  simp only [traced, SwanServer.traced, exec_noting]
  rcases (handler.fs.isRegularFile _).exec store with ⟨_ | regular, middle⟩
  · exact ⟨[], rfl, by simp⟩
  · cases regular with
    | false => exact ⟨[], rfl, by simp⟩
    | true =>
        simp only [Bool.true_eq_false, ↓reduceIte, Act.exec_bind, exec_noting]
        refine ⟨[handler.filePath entity fileName], ?_, by simp⟩
        rcases (handler.fs.remove _).exec middle with ⟨_ | _ | _, final⟩ <;> rfl

theorem noted_pure {α : Type} (value : α) (store : σ) :
    noted (pure value : Act (σ × List Str) α) store = [] := rfl

theorem noted_throw {α : Type} (fault : Fault) (store : σ) :
    noted (throw fault : Act (σ × List Str) α) store = [] := rfl

section Operations

variable {uri : List Str} (huri : ∀ segment ∈ uri, segment ≠ [] ∧ '/' ∉ segment)
  (httpRequest : Request) (httpResponse : Response) (store : σ)

include huri

theorem handlePost_inside_iff :
    (∀ path ∈ noted (handler.traced.handlePost uri httpRequest httpResponse) store,
        StrictlyInside handler.dataPath path) ↔
      ∀ entity, uri = [entity] → handler.dataPath ≠ [] ∧ IsName entity := by
  by_cases hshape : ∃ entity, uri = [entity]
  · obtain ⟨entity, rfl⟩ := hshape
    obtain ⟨hne, hslash⟩ := huri entity List.mem_cons_self
    simp only [noted_handlePost_entity, List.mem_singleton, forall_eq,
      entityPath_eq, strictlyInside_entity_iff hne hslash, List.cons.injEq,
      and_true, forall_eq']
  · have hlength : uri.length ≠ 1 := by
      rwa [ne_eq, List.length_eq_one_iff]
    rw [handlePost_of_length_ne _ hlength, noted_pure]
    simp only [List.not_mem_nil, false_implies, implies_true, true_iff]
    exact fun entity hentity => absurd ⟨entity, hentity⟩ hshape

theorem handleGet_inside_iff (hnumber : isFileNumber uri = true) :
    (∀ path ∈ noted (handler.traced.handleGet uri httpResponse) store,
        StrictlyInside handler.dataPath path) ↔
      ∀ entity rest, uri = entity :: rest →
        handler.dataPath ≠ [] ∧ IsName entity := by
  cases uri with
  | nil => simp [handleGet_nil, noted_throw]
  | cons entity rest =>
      obtain ⟨hne, hslash⟩ := huri entity List.mem_cons_self
      have hentity : StrictlyInside handler.dataPath _ ↔ _ :=
        strictlyInside_entity_iff hne hslash
      obtain ⟨later, hnoted, hlater⟩ :=
        handler.noted_handleGet entity rest httpResponse store
      rw [hnoted, List.forall_mem_cons, entityPath_eq, hentity]
      constructor
      · rintro ⟨hconfined, -⟩ entity' rest' heq
        cases heq
        exact hconfined
      · intro hconfined
        have hhere := hconfined entity rest rfl
        refine ⟨hhere, ?_⟩
        intro path hpath
        rcases hlater path hpath with rfl | ⟨fileName, rfl, rfl⟩
        · rw [entityPath_eq]
          exact hentity.mpr hhere
        · rw [filePath_eq]
          exact (strictlyInside_file_iff hne hslash
            (isDigits_of_isFileNumber hnumber)).mpr ⟨hhere.1, Or.inl hhere.2⟩

/-- PUT and DELETE pass the path of one file, however often, and without both
segments they pass no path. -/
theorem file_inside_iff {act : List Str → Act (σ × List Str) (Bool × Response)}
    (hfile : ∀ entity fileName, ∃ later,
      noted (act [entity, fileName]) store = handler.filePath entity fileName :: later ∧
        ∀ path ∈ later, path = handler.filePath entity fileName)
    (hother : ∀ uri, uri.length ≠ 2 → noted (act uri) store = [])
    (hnumber : isFileNumber uri = true) :
    (∀ path ∈ noted (act uri) store, StrictlyInside handler.dataPath path) ↔
      ∀ entity fileName, uri = [entity, fileName] → handler.dataPath ≠ [] ∧
        (IsName entity ∨ entity = ".".toList ∨ IsRoot handler.dataPath) := by
  by_cases hshape : ∃ entity fileName, uri = [entity, fileName]
  · obtain ⟨entity, fileName, rfl⟩ := hshape
    obtain ⟨hne, hslash⟩ := huri entity List.mem_cons_self
    have hinside : StrictlyInside handler.dataPath _ ↔ _ :=
      strictlyInside_file_iff hne hslash (isDigits_of_isFileNumber hnumber)
    obtain ⟨later, hnoted, hlater⟩ := hfile entity fileName
    have hall : (∀ path ∈ handler.filePath entity fileName :: later,
        StrictlyInside handler.dataPath path) ↔
          StrictlyInside handler.dataPath (handler.filePath entity fileName) := by
      rw [List.forall_mem_cons]
      exact ⟨And.left, fun hfirst =>
        ⟨hfirst, fun path hpath => hlater path hpath ▸ hfirst⟩⟩
    rw [hnoted, hall, filePath_eq, hinside]
    simp
  · have hlength : uri.length ≠ 2 := by
      rwa [ne_eq, List.length_eq_two]
    rw [hother uri hlength]
    simp only [List.not_mem_nil, false_implies, implies_true, true_iff]
    exact fun entity fileName hentity =>
      absurd ⟨entity, fileName, hentity⟩ hshape

theorem handlePut_inside_iff (hnumber : isFileNumber uri = true) :
    (∀ path ∈ noted (handler.traced.handlePut uri httpRequest httpResponse) store,
        StrictlyInside handler.dataPath path) ↔
      ∀ entity fileName, uri = [entity, fileName] → handler.dataPath ≠ [] ∧
        (IsName entity ∨ entity = ".".toList ∨ IsRoot handler.dataPath) := by
  apply handler.file_inside_iff huri store _ _ hnumber
  · intro entity fileName
    exact ⟨[], handler.noted_handlePut_file entity fileName httpRequest httpResponse store,
      by simp⟩
  · intro uri hlength
    rw [handlePut_of_length_ne _ hlength, noted_pure]

theorem handleDelete_inside_iff (hnumber : isFileNumber uri = true) :
    (∀ path ∈ noted (handler.traced.handleDelete uri httpResponse) store,
        StrictlyInside handler.dataPath path) ↔
      ∀ entity fileName, uri = [entity, fileName] → handler.dataPath ≠ [] ∧
        (IsName entity ∨ entity = ".".toList ∨ IsRoot handler.dataPath) := by
  apply handler.file_inside_iff huri store _ _ hnumber
  · intro entity fileName
    exact handler.noted_handleDelete_file entity fileName httpResponse store
  · intro uri hlength
    rw [handleDelete_of_length_ne _ hlength, noted_pure]

end Operations

theorem noted_dispatch_inside_iff {uri : List Str}
    (huri : ∀ segment ∈ uri, segment ≠ [] ∧ '/' ∉ segment)
    (hnumber : isFileNumber uri = true) (httpRequest : Request)
    (httpResponse : Response) (store : σ) :
    (∀ path ∈ noted (handler.traced.dispatch uri httpRequest httpResponse) store,
        StrictlyInside handler.dataPath path) ↔
      Confines handler.dataPath httpRequest.method uri := by
  by_cases hpost : httpRequest.method = "POST".toList
  · rw [dispatch_post _ _ _ hpost, handlePost_inside_iff _ huri]
    rw [hpost]
    exact ⟨fun h => ⟨fun _ => h, fun h' => absurd h' (by decide),
      fun h' => absurd h' (by decide)⟩, fun h => h.post rfl⟩
  by_cases hget : httpRequest.method = "GET".toList
  · rw [dispatch_get _ _ _ hget, handleGet_inside_iff _ huri _ _ hnumber]
    rw [hget]
    exact ⟨fun h => ⟨fun h' => absurd h' (by decide), fun _ => h,
      fun h' => absurd h' (by decide)⟩, fun h => h.get rfl⟩
  by_cases hput : httpRequest.method = "PUT".toList
  · rw [dispatch_put _ _ _ hput, handlePut_inside_iff _ huri _ _ _ hnumber]
    exact ⟨fun h => ⟨fun h' => absurd h' hpost, fun h' => absurd h' hget,
      fun _ => h⟩, fun h => h.file (Or.inl hput)⟩
  by_cases hdelete : httpRequest.method = "DELETE".toList
  · rw [dispatch_delete _ _ _ hdelete, handleDelete_inside_iff _ huri _ _ hnumber]
    exact ⟨fun h => ⟨fun h' => absurd h' hpost, fun h' => absurd h' hget,
      fun _ => h⟩, fun h => h.file (Or.inr hdelete)⟩
  · rw [dispatch_other _ _ _ hpost hget hput hdelete, noted_pure]
    refine iff_of_true (by simp) ⟨fun h => absurd h hpost, fun h => absurd h hget, ?_⟩
    rintro (h | h)
    · exact absurd h hput
    · exact absurd h hdelete

/-- Every path that a request passes to the file system lies strictly inside
the data path, or the request is one whose entity segment leads elsewhere. -/
theorem pathsPassed_inside_iff (httpRequest : Request) (httpResponse : Response)
    (store : σ) :
    (∀ path ∈ handler.pathsPassed httpRequest httpResponse store,
        StrictlyInside handler.dataPath path) ↔
      ∀ uri, split (cStr httpRequest.target) '/' = .ok uri →
        isFileNumber uri = true →
          Confines handler.dataPath httpRequest.method uri := by
  change (∀ path ∈ noted (handler.traced.handleRequest httpRequest httpResponse) store,
    StrictlyInside handler.dataPath path) ↔ _
  cases hsplit : split (cStr httpRequest.target) '/' with
  | error fault =>
      rw [handleRequest_of_split_error _ _ hsplit, noted_throw]
      simp
  | ok uri =>
      have huri : ∀ segment ∈ uri, segment ≠ [] ∧ '/' ∉ segment := forall_mem_split hsplit
      cases hnumber : isFileNumber uri with
      | false =>
          rw [handleRequest_of_not_isFileNumber _ _ hsplit hnumber, noted_pure]
          simp [hnumber]
      | true =>
          rw [handleRequest_of_isFileNumber _ _ hsplit hnumber,
            noted_dispatch_inside_iff _ huri hnumber]
          simp [hnumber]

end ApiHandler

namespace ApiConfinementWitness

/-- The working directory holds the data path and nothing else. -/
def disk : Disk := ⟨(⟨∅⟩ : FileTree.Tree Str Str).put ["mnt".toList] .directory, []⟩

/-- The API of the example configuration. -/
def handler : ApiHandler Disk :=
  ⟨"/api/".toList, "./mnt/".toList, realFileSystem workingHost⟩

def routes : FactoryRoutes Unit where
  entries := [("/".toList, some ()), ("/api/".toList, some ())]
  sorted := by decide

/-- A request that the routes hand to the API. -/
def parentRequest : Request := ⟨"GET".toList, "/api/..".toList, []⟩

/-- It asks the file system for the parent of the data path. -/
theorem parentRequest_not_inside :
    longestPrefixMatching routes parentRequest.target = handler.location ∧
      ¬ ∀ path ∈ handler.pathsPassed parentRequest Response.empty disk,
        StrictlyInside handler.dataPath path := by
  refine ⟨by decide, ?_⟩
  intro hinside
  have hsplit : split (cStr parentRequest.target) '/' = .ok ["..".toList] := rfl
  have hpassed : handler.pathsPassed parentRequest Response.empty disk =
      ApiHandler.noted (handler.traced.handleGet ["..".toList] Response.empty) disk := by
    rw [ApiHandler.pathsPassed, ApiHandler.noted,
      ApiHandler.handleRequest_of_isFileNumber _ _ hsplit rfl,
      ApiHandler.dispatch_get _ _ _ rfl]
  rw [hpassed] at hinside
  have hname := (handler.handleGet_inside_iff (by decide) Response.empty disk
    rfl).mp hinside "..".toList [] rfl
  exact hname.2.2 rfl

end ApiConfinementWitness

end SwanServer
