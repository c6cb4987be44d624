/-
What the CRUD API is for: entities, each a non-empty finite map from digit
strings to bodies, and the operations on them that requests ask for.
-/
import SwanServer.FileTree
import SwanServer.Machine
import SwanServer.NestedMap
import SwanServer.Path
import SwanServer.RequestHandler

namespace SwanServer

open FileTree

/-- The id of a stored body: a digit string. -/
abbrev FileNo := {digits : Str // IsDigits digits}

/-- The id with a given number. -/
def FileNo.ofNat (n : Nat) : FileNo := ⟨Nat.toDigits 10 n, isDigits_toDigits n⟩

/-- What is stored under each entity and id. -/
abbrev CrudStore := NestedMap Str FileNo Str

/-- What a request asks of the store. -/
inductive Operation where
  | post (entity body : Str)
  | put (entity : Str) (id : FileNo) (body : Str)
  | get (entity : Str) (id : FileNo)
  | list (entity : Str)
  | delete (entity : Str) (id : FileNo)
  | other

/-- What the store answers. -/
inductive Answer where
  | stored (id : FileNo)
  | content (body : Str)
  | listing (ids : Finset FileNo)
  | deleted
  | rejected

/-- The segments of a target behind those of a location. -/
def segmentsBehind (location target : Str) : List Str :=
  (segments (cStr target)).drop (segments location).length

/-- The segments of a target behind the first one.  Where the location is a single segment,
these are the segments behind it. -/
def behindLocation (target : Str) : List Str := (segments (cStr target)).tail

theorem segmentsBehind_of_length {location : Str} (hlocation : (segments location).length = 1)
    (target : Str) : segmentsBehind location target = behindLocation target := by
  rw [segmentsBehind, hlocation, List.drop_one, behindLocation]

/-- A segment behind a target is the last one behind its location. -/
theorem behindLocation_append_segment {target first name : Str} {rest : List Str}
    (hbehind : behindLocation target = first :: rest) (hne : name ≠ []) (hslash : '/' ∉ name)
    (hnul : nul ∉ name) :
    behindLocation (cStr target ++ '/' :: name) = first :: rest ++ [name] := by
  have hcStr : cStr ('/' :: name) = '/' :: name := congrArg (List.cons '/') (cStr_eq_self hnul)
  have hsegments : segments (cStr target) ≠ [] := by
    intro hnil
    rw [behindLocation, hnil] at hbehind
    contradiction
  rw [behindLocation, cStr_append (nul_not_mem_cStr target), hcStr, segments_append_slash,
    segments_of_not_mem hslash hne, List.tail_append_of_ne_nil hsegments]
  exact congrArg (· ++ [name]) hbehind

/-- The operation that the segments behind the location ask for. -/
def Operation.ofSegments (uri : List Str) (httpRequest : Request) : Operation :=
  match uri with
  | [entity] =>
      if httpRequest.method = "POST".toList then .post entity httpRequest.body
      else if httpRequest.method = "GET".toList then .list entity
      else .other
  | [entity, name] =>
      if hname : IsDigits name then
        if httpRequest.method = "GET".toList then .get entity ⟨name, hname⟩
        else if httpRequest.method = "PUT".toList then
          .put entity ⟨name, hname⟩ httpRequest.body
        else if httpRequest.method = "DELETE".toList then .delete entity ⟨name, hname⟩
        else .other
      else .other
  | _ => .other

/-- The operation of a request whose location is a single segment. -/
def Operation.ofRequest (httpRequest : Request) : Operation :=
  .ofSegments (behindLocation httpRequest.target) httpRequest

/-- The operation of a request to a location. -/
def Operation.ofRequestAt (location : Str) (httpRequest : Request) : Operation :=
  .ofSegments (segmentsBehind location httpRequest.target) httpRequest

theorem Operation.ofRequestAt_of_length {location : Str}
    (hlocation : (segments location).length = 1) (httpRequest : Request) :
    Operation.ofRequestAt location httpRequest = Operation.ofRequest httpRequest := by
  rw [ofRequestAt, segmentsBehind_of_length hlocation, ofRequest]

namespace CrudStore

/-- The largest number among the ids of an entity. -/
def largestId (store : CrudStore) (entity : Str) : Nat :=
  (store.keys entity).sup fun id => decimal id.1

/-- The id that a POST gives. -/
def nextId (store : CrudStore) (entity : Str) : FileNo :=
  FileNo.ofNat (store.largestId entity + 1)

/-- One operation: its answer and the store after it. -/
def step (store : CrudStore) : Operation → Answer × CrudStore
  | .post entity body =>
      (.stored (store.nextId entity), store.set entity (store.nextId entity) body)
  | .put entity id body => (.stored id, store.set entity id body)
  | .get entity id =>
      match store.get? entity id with
      | some body => (.content body, store)
      | none => (.rejected, store)
  | .list entity =>
      if entity ∈ store then (.listing (store.keys entity), store)
      else (.rejected, store)
  | .delete entity id =>
      match store.get? entity id with
      | some _ => (.deleted, store.erase entity id)
      | none => (.rejected, store)
  | .other => (.rejected, store)

/-- The tree below the data directory that holds the store: a directory for each
entity, and in it a file for each id. -/
def image (store : CrudStore) : List Str → Option (Node Str)
  | [] => some .directory
  | [entity] => if entity ∈ store then some .directory else none
  | [entity, name] =>
      if hname : IsDigits name then
        (store.get? entity ⟨name, hname⟩).map .file
      else none
  | _ => none

/-- An entity has files exactly for its ids. -/
theorem image_file_ne_none_iff (store : CrudStore) (entity name : Str) :
    store.image [entity, name] ≠ none ↔ ∃ id ∈ store.keys entity, id.1 = name := by
  rw [image]
  constructor
  · intro hfile
    split at hfile
    · next hname =>
        exact ⟨⟨name, hname⟩, by simpa [NestedMap.mem_keys] using hfile, rfl⟩
    · contradiction
  · rintro ⟨id, hid, rfl⟩
    rw [dif_pos id.2]
    simpa [NestedMap.mem_keys] using hid

/-- An entity with a single id has no other file. -/
theorem image_file_eq_none {store : CrudStore} {entity name : Str} {id : FileNo}
    (hkeys : store.keys entity = {id}) (hname : name ≠ id.1) :
    store.image [entity, name] = none := by
  by_contra himage
  obtain ⟨key, hkey, rfl⟩ := (store.image_file_ne_none_iff entity name).mp himage
  rw [hkeys, Finset.mem_singleton] at hkey
  exact hname (congrArg Subtype.val hkey)

theorem image_set (store : CrudStore) (entity : Str) (id : FileNo) (body : Str)
    (place : List Str) :
    CrudStore.image (store.set entity id body) place =
      if place = [entity, id.1] then some (.file body)
      else if place = [entity] then some .directory
      else store.image place := by
  match place with
  | [] => simp [image]
  | [other] =>
      simp only [image, NestedMap.mem_set]
      by_cases hother : other = entity <;> simp [hother]
  | [other, name] =>
      simp only [image]
      by_cases hname : IsDigits name
      · rw [dif_pos hname, dif_pos hname, NestedMap.get?_set]
        by_cases hother : other = entity ∧ name = id.1
        · simp [hother]
        · simp [hother, Subtype.ext_iff]
      · have hne : name ≠ id.1 := fun heq => hname (heq ▸ id.2)
        simp [hname, hne]
  | _ :: _ :: _ :: _ => simp [image]

theorem image_erase (store : CrudStore) (entity : Str) (id : FileNo) (place : List Str) :
    CrudStore.image (store.erase entity id) place =
      if place = [entity, id.1] then none
      else if place = [entity] ∧ store.keys entity = {id} then none
      else store.image place := by
  match place with
  | [] => simp [image]
  | [other] =>
      simp only [image, NestedMap.mem_erase]
      by_cases hother : other = entity ∧ store.keys entity = {id} <;> simp [hother]
  | [other, name] =>
      simp only [image]
      by_cases hname : IsDigits name
      · rw [dif_pos hname, dif_pos hname, NestedMap.get?_erase]
        by_cases hother : other = entity ∧ name = id.1
        · simp [hother]
        · simp [hother, Subtype.ext_iff]
      · have hne : name ≠ id.1 := fun heq => hname (heq ▸ id.2)
        simp [hname, hne]
  | _ :: _ :: _ :: _ => simp [image]

end CrudStore

/-- The store as a machine that reads operations. -/
def crudMachine : Machine CrudStore Operation Answer := ⟨CrudStore.step⟩

end SwanServer
