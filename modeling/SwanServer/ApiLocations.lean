/-
The location of an API handler.  The handler knows it and never looks at it: it
drops the first segment of the target, whatever location the target was routed
by.
-/
import SwanServer.ApiConfinement
import SwanServer.ConfigConsumers

namespace SwanServer

namespace ApiHandler

variable {σ : Type} (handler : ApiHandler σ)

/-- The request is handled for that entity and, if it names one, for that file:
these are the segments that the target is split into, and all paths that are
passed to the file system are theirs. -/
structure Locates (httpRequest : Request) (entity : Str) (fileName : Option Str) : Prop where
  uri : split (cStr httpRequest.target) '/' = .ok (entity :: fileName.toList)
  isFileNumber : isFileNumber (entity :: fileName.toList) = true
  paths : ∀ httpResponse store, ∀ path ∈ handler.pathsPassed httpRequest httpResponse store,
    path = handler.entityPath entity ∨ ∃ name ∈ fileName, path = handler.filePath entity name

/-- The path of the entity or of the file. -/
def IsPathOf (entity : Str) (fileName : Option Str) (path : Str) : Prop :=
  path = handler.entityPath entity ∨ ∃ name ∈ fileName, path = handler.filePath entity name

section Operations

variable {handler} {httpRequest : Request} {httpResponse : Response} {store : σ}
  {entity path : Str} {fileName : Option Str}

theorem isPathOf_of_noted_handlePost
    (hpath : path ∈ noted (handler.traced.handlePost (entity :: fileName.toList) httpRequest
      httpResponse) store) : handler.IsPathOf entity fileName path := by
  cases fileName with
  | none =>
      rw [Option.toList_none, noted_handlePost_entity, List.mem_singleton] at hpath
      exact Or.inl hpath
  | some name =>
      rw [handlePost_of_length_ne _ (by simp), noted_pure] at hpath
      contradiction

theorem isPathOf_of_noted_handleGet
    (hpath : path ∈ noted (handler.traced.handleGet (entity :: fileName.toList)
      httpResponse) store) : handler.IsPathOf entity fileName path := by
  obtain ⟨later, hnoted, hlater⟩ :=
    handler.noted_handleGet entity fileName.toList httpResponse store
  rw [hnoted] at hpath
  rcases List.mem_cons.mp hpath with rfl | hpath
  · exact Or.inl rfl
  · apply (hlater path hpath).imp_right
    rintro ⟨name, hname, rfl⟩
    refine ⟨name, Option.mem_toList.mp ?_, rfl⟩
    rw [hname]
    exact List.mem_singleton_self name

theorem isPathOf_of_noted_handlePut
    (hpath : path ∈ noted (handler.traced.handlePut (entity :: fileName.toList) httpRequest
      httpResponse) store) : handler.IsPathOf entity fileName path := by
  cases fileName with
  | none =>
      rw [handlePut_of_length_ne _ (by simp), noted_pure] at hpath
      contradiction
  | some name =>
      rw [Option.toList_some, noted_handlePut_file, List.mem_singleton] at hpath
      exact Or.inr ⟨name, rfl, hpath⟩

theorem isPathOf_of_noted_handleDelete
    (hpath : path ∈ noted (handler.traced.handleDelete (entity :: fileName.toList)
      httpResponse) store) : handler.IsPathOf entity fileName path := by
  cases fileName with
  | none =>
      rw [handleDelete_of_length_ne _ (by simp), noted_pure] at hpath
      contradiction
  | some name =>
      obtain ⟨later, hnoted, hlater⟩ :=
        handler.noted_handleDelete_file entity name httpResponse store
      rw [Option.toList_some, hnoted] at hpath
      rcases List.mem_cons.mp hpath with rfl | hpath
      · exact Or.inr ⟨name, rfl, rfl⟩
      · exact Or.inr ⟨name, rfl, hlater path hpath⟩

theorem isPathOf_of_noted_dispatch
    (hpath : path ∈ noted (handler.traced.dispatch (entity :: fileName.toList) httpRequest
      httpResponse) store) : handler.IsPathOf entity fileName path := by
  by_cases hpost : httpRequest.method = "POST".toList
  · rw [dispatch_post _ _ _ hpost] at hpath
    exact isPathOf_of_noted_handlePost hpath
  by_cases hget : httpRequest.method = "GET".toList
  · rw [dispatch_get _ _ _ hget] at hpath
    exact isPathOf_of_noted_handleGet hpath
  by_cases hput : httpRequest.method = "PUT".toList
  · rw [dispatch_put _ _ _ hput] at hpath
    exact isPathOf_of_noted_handlePut hpath
  by_cases hdelete : httpRequest.method = "DELETE".toList
  · rw [dispatch_delete _ _ _ hdelete] at hpath
    exact isPathOf_of_noted_handleDelete hpath
  · rw [dispatch_other _ _ _ hpost hget hput hdelete, noted_pure] at hpath
    contradiction

end Operations

theorem pathsPassed_of_split {httpRequest : Request} {uri : List Str}
    (hsplit : split (cStr httpRequest.target) '/' = .ok uri)
    (hnumber : SwanServer.isFileNumber uri = true) (httpResponse : Response) (store : σ) :
    handler.pathsPassed httpRequest httpResponse store =
      noted (handler.traced.dispatch uri httpRequest httpResponse) store := by
  rw [pathsPassed, noted, handleRequest_of_isFileNumber _ _ hsplit hnumber]

end ApiHandler

/-- What an entity and a file add to a location in a target. -/
def entityTarget (entity : Str) (fileName : Option Str) : Str :=
  entity ++ fileName.elim [] fun name => '/' :: name

theorem segments_entityTarget {entity : Str} {fileName : Option Str} (hne : entity ≠ [])
    (hslash : '/' ∉ entity) (hfile : ∀ name ∈ fileName, IsDigits name) :
    segments (entityTarget entity fileName) = entity :: fileName.toList := by
  cases fileName with
  | none => simpa [entityTarget] using segments_of_not_mem hslash hne
  | some name =>
      have hname : IsDigits name := hfile name rfl
      rw [entityTarget, Option.elim_some, segments_append_slash, segments_of_not_mem hslash hne,
        segments_of_not_mem (hname.not_mem rfl) hname.1]
      rfl

theorem segments_handleTrailingSlashes_append (token rest : Str) :
    segments (handleTrailingSlashes token ++ rest) =
      segments (handleTrailingSlashes token) ++ segments rest := by
  have hslash : "/".toList ++ rest = '/' :: rest := rfl
  have hend : "/".toList = '/' :: [] := rfl
  rw [handleTrailingSlashes, List.append_assoc, hslash, segments_append_slash, hend,
    segments_append_slash, segments_nil, List.append_nil]

/-- What is split is all but one segment. -/
theorem split_eq_ok_iff {s : Str} {front uri : List Str} (hsegments : segments s = front ++ uri)
    (hne : uri ≠ []) : split s '/' = .ok uri ↔ front.length = 1 := by
  rw [split_slash, hsegments]
  cases front with
  | nil =>
      obtain ⟨first, others, rfl⟩ := List.exists_cons_of_ne_nil hne
      simp
  | cons first others => simp

/-- What follows the location in a target is taken for entity and file exactly if
the location is one segment. -/
theorem locates_iff {σ : Type} (handler : ApiHandler σ) {token entity : Str}
    {fileName : Option Str} {httpRequest : Request} (hne : entity ≠ [])
    (hslash : '/' ∉ entity) (hfile : ∀ name ∈ fileName, IsDigits name)
    (htarget : cStr httpRequest.target =
      handleTrailingSlashes token ++ entityTarget entity fileName) :
    handler.Locates httpRequest entity fileName ↔
      (segments (handleTrailingSlashes token)).length = 1 := by
  have hsegments : segments (cStr httpRequest.target) =
      segments (handleTrailingSlashes token) ++ (entity :: fileName.toList) := by
    rw [htarget, segments_handleTrailingSlashes_append,
      segments_entityTarget hne hslash hfile]
  have huri : split (cStr httpRequest.target) '/' = .ok (entity :: fileName.toList) ↔
      (segments (handleTrailingSlashes token)).length = 1 :=
    split_eq_ok_iff hsegments (List.cons_ne_nil _ _)
  refine ⟨fun hlocates => huri.mp hlocates.uri, ?_⟩
  intro hlength
  have hsplit := huri.mpr hlength
  have hnumber : isFileNumber (entity :: fileName.toList) = true := by
    cases fileName with
    | none => rfl
    | some name => exact (isNumber_iff name).mpr (hfile name rfl)
  refine ⟨hsplit, hnumber, ?_⟩
  intro httpResponse store path hpath
  rw [handler.pathsPassed_of_split hsplit hnumber] at hpath
  exact ApiHandler.isPathOf_of_noted_dispatch hpath

namespace ApiLocationsWitness

/-- An API at a location of one segment. -/
def handler : ApiHandler Disk := ⟨"/api/".toList, "./mnt".toList, realFileSystem workingHost⟩

/-- A request for a file of an entity. -/
def request : Request := ⟨"GET".toList, "/api/Shoes/1".toList, []⟩

theorem locates_request : handler.Locates request "Shoes".toList (some "1".toList) := by
  have htarget : cStr request.target = handleTrailingSlashes "/api".toList ++
      entityTarget "Shoes".toList (some "1".toList) := by decide
  have hfile : ∀ name ∈ some "1".toList, IsDigits name := by
    rintro name ⟨⟩
    exact isDigits_toDigits 1
  exact (locates_iff handler (by decide) (by decide) hfile htarget).mpr (by decide)

/-- An API at a location of two segments. -/
def nested : ApiHandler Disk :=
  ⟨"/api/v1/".toList, "./mnt".toList, realFileSystem workingHost⟩

/-- Part of the location is taken for the entity. -/
theorem not_locates_nested :
    handleTrailingSlashes "/api/v1".toList = nested.location ∧
      split "/api/v1/Shoes".toList '/' = .ok ["v1".toList, "Shoes".toList] ∧
      ¬ nested.Locates ⟨"GET".toList, "/api/v1/Shoes".toList, []⟩ "Shoes".toList none := by
  refine ⟨by decide, rfl, ?_⟩
  intro hlocates
  have huri := hlocates.uri
  cases huri

end ApiLocationsWitness

end SwanServer
