/-
The disk that holds the image of a store in its data directory, and what
writing and removing a file of an entity does to that image.
-/
import SwanServer.CrudStore
import SwanServer.DataDirectory

namespace SwanServer

open FileTree LexicalPath

theorem FileNo.segment (id : FileNo) : id.1 ≠ [] ∧ '/' ∉ id.1 ∧ IsName id.1 :=
  ⟨id.2.1, id.2.not_mem (by decide), isName_of_isDigits id.2⟩

/-- The disk is `start` with the image of a store in its data directory. -/
structure Holds (start : Disk) (root : List Str) (disk : Disk) (store : CrudStore) :
    Prop where
  cwd : disk.cwd = start.cwd
  below : ∀ place, disk.tree.node? (root ++ place) = store.image place
  outside : ∀ place, ¬ root <+: place → disk.tree.node? place = start.tree.node? place

namespace Holds

variable {start disk : Disk} {root : List Str} {store : CrudStore} {dataPath entity : Str}

theorem empty (hstart : EmptyDirectory start dataPath root) : Holds start root start ∅ := by
  refine ⟨rfl, ?_, fun _ _ => rfl⟩
  intro place
  match place with
  | [] => simpa [CrudStore.image, ← Tree.isDirectory_iff] using hstart.directory
  | [other] => exact hstart.empty _ (by simp)
  | [other, name] =>
      rw [hstart.empty _ (by simp), CrudStore.image]
      split <;> rfl
  | _ :: _ :: _ :: _ => exact hstart.empty _ (by simp)

theorem extends_start (hstart : EmptyDirectory start dataPath root)
    (hholds : Holds start root disk store) : Disk.Extends start disk := by
  refine ⟨hholds.cwd, ?_⟩
  intro place hplace
  rw [Tree.isDirectory_iff] at hplace ⊢
  by_cases hstarts : root <+: place
  · obtain ⟨rest, rfl⟩ := hstarts
    by_cases hrest : rest = []
    · subst hrest
      rw [hholds.below]
      rfl
    · rw [hstart.empty rest hrest] at hplace
      contradiction
  · rw [hholds.outside place hstarts, hplace]

theorem node?_entity (hholds : Holds start root disk store) (entity : Str) :
    disk.tree.node? (root ++ [entity]) =
      if entity ∈ store then some .directory else none :=
  hholds.below [entity]

theorem isDirectory_entity_iff (hholds : Holds start root disk store) (entity : Str) :
    disk.tree.isDirectory (root ++ [entity]) = true ↔ entity ∈ store := by
  rw [Tree.isDirectory_iff, hholds.node?_entity]
  split <;> simp_all

theorem node?_file (hholds : Holds start root disk store) (entity : Str) (id : FileNo) :
    disk.tree.node? (root ++ [entity] ++ [id.1]) = (store.get? entity id).map .file := by
  rw [List.append_assoc, hholds.below]
  exact dif_pos id.2

theorem mem_children_iff (hholds : Holds start root disk store) {name : Str} :
    name ∈ disk.tree.children (root ++ [entity]) ↔
      ∃ id ∈ store.keys entity, id.1 = name := by
  rw [Tree.mem_children, List.append_assoc, hholds.below]
  exact store.image_file_ne_none_iff entity name

/-- A file written in the directory of its entity is the image of its body. -/
theorem set (hholds : Holds start root disk store) (entity : Str) (id : FileNo)
    (body : Str) :
    Holds start root
      ((disk.ensured (root ++ [entity])).written (root ++ [entity] ++ [id.1]) body)
      (NestedMap.set store entity id body) := by
  refine ⟨(Disk.extends_ensured disk _).cwd.trans hholds.cwd, ?_, ?_⟩
  · intro place
    rw [Disk.node?_written (by simp), Disk.node?_ensured (by simp), CrudStore.image_set,
      hholds.node?_entity, hholds.below place]
    simp only [List.append_assoc, List.append_cancel_left_eq, List.cons_append,
      List.nil_append]
    by_cases hplace : place = [entity]
    · subst hplace
      by_cases hentity : entity ∈ store <;> simp [hentity, CrudStore.image]
    · simp [hplace]
  · intro place hplace
    have hne : ∀ rest, place ≠ root ++ rest := by
      rintro rest rfl
      exact hplace (List.prefix_append root rest)
    rw [Disk.node?_written (by simp), Disk.node?_ensured (by simp), List.append_assoc,
      if_neg (hne _), if_neg (fun h => hne _ h.1), hholds.outside place hplace]

/-- The file of the only id is the only entry of the directory. -/
theorem children_eq_singleton_iff (hholds : Holds start root disk store) {id : FileNo}
    (hid : id ∈ store.keys entity) :
    disk.tree.children (root ++ [entity]) = [id.1] ↔ store.keys entity = {id} := by
  constructor
  · intro hchildren
    refine Finset.eq_singleton_iff_unique_mem.mpr ⟨hid, ?_⟩
    intro other hother
    have hmem := hholds.mem_children_iff.mpr ⟨other, hother, rfl⟩
    rw [hchildren, List.mem_singleton] at hmem
    exact Subtype.ext hmem
  · intro hkeys
    rw [← List.perm_singleton, List.perm_ext_iff_of_nodup (Tree.children_nodup _ _)
      (List.nodup_singleton _)]
    intro name
    rw [hholds.mem_children_iff, hkeys]
    simp [eq_comm]

/-- Removing a file takes it away, and if it was the only one its directory. -/
theorem node?_cleaned (hholds : Holds start root disk store) {id : FileNo}
    (hid : id ∈ store.keys entity) (place : List Str) :
    (disk.cleaned (root ++ [entity]) (root ++ [entity] ++ [id.1])).tree.node? place =
      if place = root ++ [entity] ++ [id.1] ∨
        store.keys entity = {id} ∧ root ++ [entity] <+: place then none
      else disk.tree.node? place := by
  have hfile : disk.tree.node? (root ++ [entity] ++ [id.1]) ≠ none := by
    rw [hholds.node?_file, ne_eq, Option.map_eq_none_iff]
    exact (NestedMap.mem_keys store entity id).mp hid
  rw [Disk.cleaned]
  simp only [Disk.children_without_eq_nil_iff hfile, hholds.children_eq_singleton_iff hid]
  split
  · next hkeys =>
      rw [Disk.node?_withoutAll (by simp), Disk.node?_without (by simp)]
      by_cases hstarts : root ++ [entity] <+: place <;> simp [hstarts, hkeys]
  · next hkeys => simp [Disk.node?_without, hkeys]

theorem erase (hholds : Holds start root disk store) {id : FileNo}
    (hid : id ∈ store.keys entity) :
    Holds start root
      (disk.cleaned (root ++ [entity]) (root ++ [entity] ++ [id.1]))
      (NestedMap.erase store entity id) := by
  refine ⟨?_, ?_, ?_⟩
  · rw [Disk.cleaned]
    split <;> exact hholds.cwd
  · intro place
    rw [hholds.node?_cleaned hid, CrudStore.image_erase, hholds.below]
    simp only [List.append_assoc, List.append_cancel_left_eq, List.prefix_append_right_inj,
      List.cons_append, List.nil_append]
    rcases place with _ | ⟨other, _ | ⟨name, _ | ⟨next, rest⟩⟩⟩
    · simp
    · simp [eq_comm, and_comm]
    · by_cases hentity : other = entity
      · subst hentity
        by_cases hname : name = id.1
        · simp [hname]
        · by_cases hkeys : store.keys other = {id}
          · simp [hname, hkeys, CrudStore.image_file_eq_none hkeys hname]
          · simp [hname, hkeys]
      · simp [hentity, Ne.symm hentity]
    · simp [CrudStore.image]
  · intro place hplace
    have hne : ∀ rest, ¬ root ++ rest <+: place := by
      intro rest hstarts
      exact hplace ((List.prefix_append root rest).trans hstarts)
    rw [hholds.node?_cleaned hid, hholds.outside place hplace, if_neg]
    rintro (rfl | ⟨-, hstarts⟩)
    · rw [List.append_assoc] at hplace
      exact hplace (List.prefix_append root _)
    · exact hne _ hstarts

theorem isDirectory_ensured (hholds : Holds start root disk store) (entity : Str) :
    (disk.ensured (root ++ [entity])).tree.isDirectory (root ++ [entity]) = true := by
  rw [Tree.isDirectory_iff, Disk.node?_ensured (by simp), hholds.node?_entity]
  by_cases hentity : entity ∈ store <;> simp [hentity]

/-- Once its entity has a directory, the file of an id can be opened. -/
theorem openable_ensured (hholds : Holds start root disk store) {path : Str}
    (hresolve : disk.resolve path = some (root ++ [entity])) (id : FileNo) :
    (disk.ensured (root ++ [entity])).openable (path ++ '/' :: id.1) =
      some (root ++ [entity] ++ [id.1]) := by
  have hfile : (disk.ensured (root ++ [entity])).tree.isDirectory
      (root ++ [entity] ++ [id.1]) = false := by
    rw [Bool.eq_false_iff, ne_eq, Tree.isDirectory_iff, Disk.node?_ensured (by simp),
      if_neg (by simp), hholds.node?_file]
    cases store.get? entity id <;> simp
  rw [Disk.openable_append_segment ((Disk.extends_ensured disk _).resolve hresolve)
    id.segment, if_pos ⟨hholds.isDirectory_ensured entity, hfile⟩]

end Holds

end SwanServer
