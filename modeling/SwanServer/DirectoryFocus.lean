/-
One data directory among others.  The calls that a request for it makes have the same
results on a disk on which the other data directories are empty, and they change nothing
outside of it.
-/
import SwanServer.ApiProgram
import SwanServer.ServiceRefinement

namespace SwanServer

open FileTree LexicalPath

/-- A place in a directory, at any depth. -/
def Beneath (root place : List Str) : Prop := ∃ rest, rest ≠ [] ∧ place = root ++ rest

namespace Disk

/-- What is left of a place for the requests to one data directory. -/
def kept (start : Disk) (root place : List Str) : Bool :=
  decide (root <+: place) || (start.tree.node? place).isSome

/-- The disk without what other data directories hold. -/
def focus (disk start : Disk) (root : List Str) : Disk :=
  { disk with tree := disk.tree.prune (kept start root) }

/-- The disk without some of its places. -/
def cut (disk : Disk) (keep : List Str → Bool) : Disk :=
  { disk with tree := disk.tree.prune keep }

theorem node?_cut (disk : Disk) {keep : List Str → Bool} (hroot : keep [] = true)
    (place : List Str) :
    (disk.cut keep).tree.node? place = if keep place then disk.tree.node? place else none := by
  rcases eq_or_ne place [] with rfl | hplace
  · rw [if_pos hroot, Tree.node?_nil, Tree.node?_nil]
  · exact Tree.node?_prune _ _ hplace

theorem node?_focus (disk start : Disk) (root place : List Str) :
    (disk.focus start root).tree.node? place =
      if kept start root place then disk.tree.node? place else none :=
  disk.node?_cut (by simp [kept]) place

theorem node?_focus_append (disk start : Disk) (root place : List Str) :
    (disk.focus start root).tree.node? (root ++ place) = disk.tree.node? (root ++ place) := by
  rw [node?_focus, if_pos]
  simp [kept]

end Disk

/-- Outside the data directories the disk is as at the start. -/
structure Surrounds (start : Disk) (roots : Set (List Str)) (disk : Disk) : Prop where
  cwd : disk.cwd = start.cwd
  same : ∀ place, (∀ root ∈ roots, ¬ Beneath root place) →
    disk.tree.node? place = start.tree.node? place

/-- Other data directories are as before. -/
def Aside (start : Disk) (roots : Set (List Str)) (root : List Str) (disk later : Disk) : Prop :=
  ∀ other ∈ roots, other ≠ root → later.focus start other = disk.focus start other

section Focus

variable {start disk later : Disk} {dataPaths : Str → Prop} {rootOf : Str → List Str}
  {root other place : List Str} {path : Str}

theorem aside_refl (roots : Set (List Str)) (root : List Str) (disk : Disk) :
    Aside start roots root disk disk :=
  fun _ _ _ => rfl

theorem prefix_of_beneath (hplace : Beneath root place) : root <+: place := by
  obtain ⟨rest, -, rfl⟩ := hplace
  exact List.prefix_append root rest

theorem ne_nil_of_beneath (hplace : Beneath root place) : place ≠ [] := by
  obtain ⟨rest, hrest, rfl⟩ := hplace
  simp [hrest]

theorem beneath_of_starts (hplace : Beneath root place) (hstarts : place <+: other) :
    Beneath root other := by
  obtain ⟨rest, hrest, rfl⟩ := hplace
  obtain ⟨more, rfl⟩ := hstarts
  exact ⟨rest ++ more, by simp [hrest], List.append_assoc _ _ _⟩

theorem kept_of_beneath (hplace : Beneath root place) : Disk.kept start root place = true := by
  simp [Disk.kept, prefix_of_beneath hplace]

variable (hstart : DataDirectories start dataPaths rootOf)

include hstart

theorem node?_eq_none_of_beneath (hroot : root ∈ rootOf '' {path | dataPaths path})
    (hplace : Beneath root place) : start.tree.node? place = none := by
  obtain ⟨dataPath, hdata, rfl⟩ := hroot
  obtain ⟨rest, hrest, rfl⟩ := hplace
  exact (hstart dataPath hdata).empty rest hrest

theorem kept_eq_false (hroot : root ∈ rootOf '' {path | dataPaths path})
    (hother : other ∈ rootOf '' {path | dataPaths path}) (hne : other ≠ root)
    (hplace : Beneath root place) : Disk.kept start other place = false := by
  have hnot : ¬ other <+: place := fun hstarts =>
    hne (hstart.eq_of_common_place hother hroot hstarts (prefix_of_beneath hplace))
  simp [Disk.kept, hnot, node?_eq_none_of_beneath hstart hroot hplace]

namespace Surrounds

variable (hdisk : Surrounds start (rootOf '' {path | dataPaths path}) disk)

include hdisk

theorem extends_start : Disk.Extends start disk := by
  refine ⟨hdisk.cwd, fun {place} hplace => ?_⟩
  have houtside : ∀ root ∈ rootOf '' {path | dataPaths path}, ¬ Beneath root place := by
    intro root hroot hbeneath
    rw [Tree.isDirectory_iff, node?_eq_none_of_beneath hstart hroot hbeneath] at hplace
    cases hplace
  rw [Tree.isDirectory_iff] at hplace ⊢
  rw [hdisk.same place houtside, hplace]

omit hstart in
theorem focus (root : List Str) :
    Surrounds start (rootOf '' {path | dataPaths path}) (disk.focus start root) := by
  refine ⟨hdisk.cwd, fun place hplace => ?_⟩
  rw [Disk.node?_focus]
  split
  · exact hdisk.same place hplace
  · next hkept =>
      rw [Disk.kept, Bool.or_eq_true, not_or, Option.not_isSome_iff_eq_none] at hkept
      exact hkept.2.symm

variable (hroot : root ∈ rootOf '' {path | dataPaths path})

include hroot

theorem put (hplace : Beneath root place) (node : Node Str) :
    Surrounds start (rootOf '' {path | dataPaths path}) (disk.put place node) ∧
      Aside start (rootOf '' {path | dataPaths path}) root disk (disk.put place node) ∧
      (disk.focus start root).put place node = (disk.put place node).focus start root := by
  refine ⟨⟨hdisk.cwd, fun other hother => ?_⟩, fun other hother hne => ?_, ?_⟩
  · rw [Disk.node?_put (ne_nil_of_beneath hplace), if_neg]
    · exact hdisk.same other hother
    · rintro rfl
      exact hother root hroot hplace
  · exact congrArg (Disk.mk · disk.cwd)
      (Tree.prune_put_of_not _ (kept_eq_false hstart hroot hother hne hplace) node)
  · exact congrArg (Disk.mk · disk.cwd)
      (Tree.prune_put _ (kept_of_beneath hplace) node).symm

theorem cut {keep : List Str → Bool} (hkeep : ∀ place, keep place = false → Beneath root place) :
    Surrounds start (rootOf '' {path | dataPaths path}) (disk.cut keep) ∧
      Aside start (rootOf '' {path | dataPaths path}) root disk (disk.cut keep) ∧
      (disk.focus start root).cut keep = (disk.cut keep).focus start root := by
  have hnil : keep [] = true := by
    by_contra hnot
    exact ne_nil_of_beneath (hkeep [] (Bool.eq_false_of_not_eq_true hnot)) rfl
  refine ⟨⟨hdisk.cwd, fun other hother => ?_⟩, fun other hother hne => ?_, ?_⟩
  · rw [Disk.node?_cut _ hnil, if_pos]
    · exact hdisk.same other hother
    · by_contra hnot
      exact hother root hroot (hkeep other (Bool.eq_false_of_not_eq_true hnot))
  · refine congrArg (Disk.mk · disk.cwd) (Tree.prune_prune_of_imp _ fun place hkept => ?_)
    by_contra hnot
    have hplace := hkeep place (Bool.eq_false_of_not_eq_true hnot)
    rw [kept_eq_false hstart hroot hother hne hplace] at hkept
    contradiction
  · exact congrArg (Disk.mk · disk.cwd) (Tree.prune_comm _ _ _)

end Surrounds

end Focus

section Stores

variable {start disk : Disk} {dataPaths : Str → Prop} {rootOf : Str → List Str} {dataPath : Str}
  (hstart : DataDirectories start dataPaths rootOf)

include hstart

theorem HoldsAll.surrounds {stores : List Str → CrudStore}
    (hholds : HoldsAll start (rootOf '' {path | dataPaths path}) disk stores) :
    Surrounds start (rootOf '' {path | dataPaths path}) disk := by
  refine ⟨hholds.cwd, fun place hplace => ?_⟩
  by_cases hroot : place ∈ rootOf '' {path | dataPaths path}
  · have hbelow := hholds.below place hroot []
    obtain ⟨dataPath, hdata, rfl⟩ := hroot
    rw [List.append_nil] at hbelow
    exact hbelow.trans ((Tree.isDirectory_iff _ _).mp (hstart dataPath hdata).directory).symm
  · refine hholds.outside place fun root hmem hstarts => hplace root hmem ?_
    obtain ⟨rest, rfl⟩ := hstarts
    refine ⟨rest, ?_, rfl⟩
    rintro rfl
    rw [List.append_nil] at hroot
    exact hroot hmem

variable (hdata : dataPaths dataPath)
  (hdisk : Surrounds start (rootOf '' {path | dataPaths path}) disk)

include hdata hdisk

/-- What the requests for a data directory see is as if the rest had always been there. -/
theorem emptyDirectory_focus :
    EmptyDirectory ((disk.focus start (rootOf dataPath)).emptied (rootOf dataPath)) dataPath
      (rootOf dataPath) := by
  have hroot := Set.mem_image_of_mem rootOf hdata
  have hkeep : ∀ place, decide (place = rootOf dataPath ∨ ¬ rootOf dataPath <+: place) = false →
      Beneath (rootOf dataPath) place := by
    intro place hplace
    obtain ⟨hne, hstarts⟩ := not_or.mp (of_decide_eq_false hplace)
    obtain ⟨rest, rfl⟩ := not_not.mp hstarts
    exact ⟨rest, by simpa using hne, rfl⟩
  have hextends := ((hdisk.focus (rootOf dataPath)).cut hstart hroot hkeep).1.extends_start hstart
  refine ⟨hextends.resolve (hstart dataPath hdata).resolve,
    hextends.directory (hstart dataPath hdata).directory, ?_⟩
  intro rest hrest
  rw [Disk.node?_emptied, if_neg]
  simp [hrest]

omit hstart hdata hdisk in
theorem holds_focus {root : List Str} {store : CrudStore}
    (hbelow : ∀ place, (disk.focus start root).tree.node? (root ++ place) = store.image place) :
    Holds ((disk.focus start root).emptied root) root (disk.focus start root) store := by
  refine ⟨rfl, hbelow, fun place hplace => ?_⟩
  rw [Disk.node?_emptied, if_pos (.inr hplace)]

end Stores

/-- What a call for a data directory does to a disk and to what the requests see of it. -/
inductive Outcome {α : Type} (start : Disk) (root : List Str) (disk : Disk) :
    Except Fault α × Disk → Except Fault α × Disk → Prop where
  | same (result : Except Fault α) : Outcome start root disk (result, disk)
      (result, disk.focus start root)
  | put (result : Except Fault α) {place : List Str} (hplace : Beneath root place)
      (node : Node Str) : Outcome start root disk (result, disk.put place node)
        (result, (disk.focus start root).put place node)
  | cut (result : Except Fault α) {keep : List Str → Bool}
      (hkeep : ∀ place, keep place = false → Beneath root place) :
      Outcome start root disk (result, disk.cut keep)
        (result, (disk.focus start root).cut keep)

/-- The path is one of those in a data directory. -/
structure Leads (start : Disk) (roots : Set (List Str)) (root : List Str) (path : Str) :
    Prop where
  resolve : ∀ disk, Surrounds start roots disk →
    (disk.focus start root).resolve path = disk.resolve path
  beneath : ∀ disk place, Surrounds start roots disk → disk.resolve path = some place →
    Beneath root place

section Calls

variable {α : Type} {start disk : Disk} {dataPaths : Str → Prop} {rootOf : Str → List Str}
  {root place : List Str} {path : Str} {host : Host}

theorem local_call (hstart : DataDirectories start dataPaths rootOf)
    (hroot : root ∈ rootOf '' {path | dataPaths path}) {act : Act Disk α} {R : α → Prop}
    (hact : ∀ disk, Surrounds start (rootOf '' {path | dataPaths path}) disk →
      Outcome start root disk (act.exec disk) (act.exec (disk.focus start root)) ∧
        ∀ value, (act.exec disk).1 = .ok value → R value) :
    Resumption.Local (fun disk => disk.focus start root)
      (Surrounds start (rootOf '' {path | dataPaths path}))
      (Aside start (rootOf '' {path | dataPaths path}) root) R act.call := by
  have hall : ∀ disk, Surrounds start (rootOf '' {path | dataPaths path}) disk →
      Surrounds start (rootOf '' {path | dataPaths path}) (act.exec disk).2 ∧
        Aside start (rootOf '' {path | dataPaths path}) root disk (act.exec disk).2 ∧
        act.exec (disk.focus start root) =
          ((act.exec disk).1, (act.exec disk).2.focus start root) := by
    intro disk hdisk
    have houtcome := (hact disk hdisk).1
    generalize act.exec disk = first at houtcome ⊢
    generalize act.exec (disk.focus start root) = second at houtcome ⊢
    cases houtcome with
    | same result => exact ⟨hdisk, aside_refl _ _ _, rfl⟩
    | put result hplace node =>
        obtain ⟨hlater, haside, hfocus⟩ := hdisk.put hstart hroot hplace node
        exact ⟨hlater, haside, congrArg (Prod.mk result) hfocus⟩
    | cut result hkeep =>
        obtain ⟨hlater, haside, hfocus⟩ := hdisk.cut hstart hroot hkeep
        exact ⟨hlater, haside, congrArg (Prod.mk result) hfocus⟩
  refine Resumption.local_atomically (fun disk hdisk => ?_) (fun disk hdisk => ?_)
    fun disk hdisk => (hact disk hdisk).2
  · exact ⟨(hall disk hdisk).1, (hall disk hdisk).2.1⟩
  · exact (hall disk hdisk).2.2

variable {roots : Set (List Str)} (hleads : Leads start roots root path)
  (hdisk : Surrounds start roots disk)

theorem node?_focus_of_beneath (hplace : Beneath root place) :
    (disk.focus start root).tree.node? place = disk.tree.node? place := by
  rw [Disk.node?_focus, if_pos (kept_of_beneath hplace)]

theorem isDirectory_focus (hplace : Beneath root place) :
    (disk.focus start root).tree.isDirectory place = disk.tree.isDirectory place := by
  rw [Tree.isDirectory, Tree.isDirectory, node?_focus_of_beneath hplace]

theorem children_focus (hplace : Beneath root place) :
    (disk.focus start root).tree.children place = disk.tree.children place := by
  refine Tree.children_prune _ fun name => ?_
  exact kept_of_beneath (beneath_of_starts hplace (List.prefix_append _ _))

include hleads hdisk

theorem status_focus : (disk.focus start root).status path = disk.status path := by
  rw [Disk.status, Disk.status, hleads.resolve disk hdisk]
  cases hplace : disk.resolve path with
  | none => rfl
  | some place => exact node?_focus_of_beneath (hleads.beneath disk place hdisk hplace)

theorem outcome_createDirectory :
    Outcome start root disk ((Disk.createDirectory host path).exec disk)
      ((Disk.createDirectory host path).exec (disk.focus start root)) := by
  rw [Disk.createDirectory, Act.exec_attempt, Act.exec_attempt, hleads.resolve disk hdisk]
  cases hplace : disk.resolve path with
  | none => exact .same _
  | some place =>
      have hbeneath := hleads.beneath disk place hdisk hplace
      simp only [node?_focus_of_beneath hbeneath]
      split
      · exact .same _
      · exact .same _
      · split
        · exact .put _ hbeneath _
        · exact .same _

theorem outcome_directoryIterator :
    Outcome start root disk ((Disk.directoryIterator host path).exec disk)
      ((Disk.directoryIterator host path).exec (disk.focus start root)) := by
  rw [Disk.directoryIterator, Act.exec_attempt, Act.exec_attempt, hleads.resolve disk hdisk]
  cases hplace : disk.resolve path with
  | none => exact .same _
  | some place =>
      have hbeneath := hleads.beneath disk place hdisk hplace
      simp only [isDirectory_focus hbeneath, children_focus hbeneath]
      split <;> exact .same _

theorem outcome_fopen :
    Outcome start root disk ((Disk.fopen host path).exec disk)
        ((Disk.fopen host path).exec (disk.focus start root)) ∧
      ∀ value, ((Disk.fopen host path).exec disk).1 = .ok value →
        ∀ fp, value = some fp → Beneath root fp := by
  rw [Disk.fopen, Act.exec_attempt, Act.exec_attempt, hleads.resolve disk hdisk]
  cases hplace : disk.resolve path with
  | none =>
      refine ⟨.same _, ?_⟩
      rintro _ ⟨⟩ fp ⟨⟩
  | some place =>
      have hbeneath := hleads.beneath disk place hdisk hplace
      simp only [isDirectory_focus hbeneath]
      split
      · refine ⟨.same _, ?_⟩
        rintro _ ⟨⟩ fp ⟨⟩
      · refine ⟨.put _ hbeneath _, ?_⟩
        rintro _ ⟨⟩ fp ⟨⟩
        exact hbeneath

omit hleads hdisk in
theorem outcome_fputs (hplace : Beneath root place) (text : Str) :
    Outcome start root disk ((Disk.fputs host place text).exec disk)
      ((Disk.fputs host place text).exec (disk.focus start root)) := by
  rw [Disk.fputs, Act.exec_attempt, Act.exec_attempt]
  simp only [node?_focus_of_beneath hplace]
  split
  · exact .put _ hplace _
  · exact .same _

theorem outcome_remove :
    Outcome start root disk ((Disk.remove host path).exec disk)
      ((Disk.remove host path).exec (disk.focus start root)) := by
  rw [Disk.remove, Act.exec_attempt, Act.exec_attempt, hleads.resolve disk hdisk]
  cases hplace : disk.resolve path with
  | none => exact .same _
  | some place =>
      have hbeneath := hleads.beneath disk place hdisk hplace
      have hkeep : ∀ other, decide (other ≠ place) = false → Beneath root other := by
        intro other hother
        rwa [not_not.mp (of_decide_eq_false hother)]
      simp only [node?_focus_of_beneath hbeneath, children_focus hbeneath]
      split
      · exact .same _
      · split
        · exact .cut _ hkeep
        · exact .same _
      · split
        · exact .cut _ hkeep
        · exact .same _

theorem outcome_isEmpty :
    Outcome start root disk ((Disk.isEmpty path).exec disk)
      ((Disk.isEmpty path).exec (disk.focus start root)) := by
  rw [Disk.isEmpty, Act.exec_attempt, Act.exec_attempt, hleads.resolve disk hdisk]
  cases hplace : disk.resolve path with
  | none => exact .same _
  | some place =>
      have hbeneath := hleads.beneath disk place hdisk hplace
      simp only [node?_focus_of_beneath hbeneath, children_focus hbeneath]
      split <;> exact .same _

theorem outcome_removeAll :
    Outcome start root disk ((Disk.removeAll host path).exec disk)
      ((Disk.removeAll host path).exec (disk.focus start root)) := by
  rw [Disk.removeAll, Act.exec_attempt, Act.exec_attempt, hleads.resolve disk hdisk]
  cases hplace : disk.resolve path with
  | none => exact .same _
  | some place =>
      have hbeneath := hleads.beneath disk place hdisk hplace
      dsimp only
      split
      · exact .same _
      · split
        · refine .cut _ fun other hother => beneath_of_starts hbeneath ?_
          exact (not_not.mp (not_or.mp (of_decide_eq_false hother)).2)
        · refine .cut _ fun other hother => beneath_of_starts hbeneath ?_
          exact not_not.mp (of_decide_eq_false hother)

end Calls

end SwanServer
