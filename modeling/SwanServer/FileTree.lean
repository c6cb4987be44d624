/-
A tree of named files and directories, kept flat: a finite map from the path
of names below the root to what is there.  Paths are walked one component at a
time, through directories only.
-/
import SwanServer.LexicalPath

namespace FileTree

open LexicalPath

universe u v

/-- What a path leads to. -/
inductive Node (β : Type v) where
  | file (content : β)
  | directory
deriving Repr, DecidableEq

/-- A tree with names in `α` and file contents in `β`. -/
structure Tree (α : Type u) (β : Type v) where
  nodes : AList (fun _ : List α => Node β)

namespace Tree

variable {α : Type u} {β : Type v} [DecidableEq α]

/-- The node at a path; the root is always a directory. -/
def node? (tree : Tree α β) : List α → Option (Node β)
  | [] => some .directory
  | path => tree.nodes.lookup path

/-- Create or replace one node. -/
def put (tree : Tree α β) (path : List α) (node : Node β) : Tree α β :=
  ⟨tree.nodes.insert path node⟩

/-- Remove the nodes that `keep` rejects. -/
def prune (tree : Tree α β) (keep : List α → Bool) : Tree α β where
  nodes :=
    { entries := tree.nodes.entries.filter (fun entry => keep entry.1)
      nodupKeys := tree.nodes.nodupKeys.sublist List.filter_sublist }

/-- The names in a directory. -/
def children (tree : Tree α β) (dir : List α) : List α :=
  tree.nodes.keys.filterMap fun path =>
    if path.dropLast = dir then path.getLast? else none

@[simp] theorem node?_nil (tree : Tree α β) :
    tree.node? [] = some .directory := rfl

theorem node?_of_ne_nil (tree : Tree α β) {path : List α} (hpath : path ≠ []) :
    tree.node? path = tree.nodes.lookup path := by
  cases path with
  | nil => contradiction
  | cons name rest => rfl

theorem node?_put (tree : Tree α β) {path : List α} (hpath : path ≠ [])
    (node : Node β) (other : List α) :
    (tree.put path node).node? other =
      if other = path then some node else tree.node? other := by
  by_cases hother : other = path
  · subst hother
    simp [node?_of_ne_nil _ hpath, put]
  · cases other with
    | nil => simp [Ne.symm hpath]
    | cons name rest => simp [node?, put, AList.lookup_insert_ne hother, hother]

theorem node?_prune (tree : Tree α β) (keep : List α → Bool) {path : List α}
    (hpath : path ≠ []) :
    (tree.prune keep).node? path = if keep path then tree.node? path else none := by
  rw [node?_of_ne_nil _ hpath, node?_of_ne_nil _ hpath]
  apply Option.ext
  intro node
  rw [← Option.mem_def, ← Option.mem_def]
  have hlookup := AList.mem_lookup_iff (s := (tree.prune keep).nodes) (a := path)
    (b := node)
  rw [hlookup]
  by_cases hkeep : keep path = true
  · simp [prune, hkeep, ← AList.mem_lookup_iff, Option.mem_def]
  · simp [prune, hkeep]

theorem mem_children (tree : Tree α β) (dir : List α) (name : α) :
    name ∈ tree.children dir ↔ tree.node? (dir ++ [name]) ≠ none := by
  have hne : dir ++ [name] ≠ [] := by simp
  have hkey : dir ++ [name] ∈ tree.nodes.keys ↔
      tree.node? (dir ++ [name]) ≠ none := by
    rw [node?_of_ne_nil _ hne, ← AList.mem_keys, ← AList.lookup_isSome,
      Option.isSome_iff_ne_none]
  rw [← hkey, children, List.mem_filterMap]
  constructor
  · rintro ⟨path, hpath, hname⟩
    split at hname
    · next hdir =>
        have happend := List.dropLast_append_getLast?  name hname
        rw [hdir] at happend
        rwa [happend]
    · contradiction
  · intro hmem
    exact ⟨dir ++ [name], hmem, by simp⟩

theorem children_nodup (tree : Tree α β) (dir : List α) :
    (tree.children dir).Nodup := by
  apply List.Nodup.filterMap _ tree.nodes.keys_nodup
  intro first second name hfirst hsecond
  split at hfirst
  · next hdir =>
      split at hsecond
      · next hdir' =>
          rw [← List.dropLast_append_getLast? name hfirst,
            ← List.dropLast_append_getLast? name hsecond, hdir, hdir']
      · contradiction
  · contradiction

/-- Whether a path leads to a directory. -/
def isDirectory (tree : Tree α β) (path : List α) : Bool :=
  match tree.node? path with
  | some .directory => true
  | _ => false

theorem isDirectory_iff (tree : Tree α β) (path : List α) :
    tree.isDirectory path = true ↔ tree.node? path = some .directory := by
  unfold isDirectory
  split <;> simp_all

/-- Every node lies in a directory, as in any file system. -/
def Closed (tree : Tree α β) : Prop :=
  ∀ dir name, tree.node? (dir ++ [name]) ≠ none → tree.isDirectory dir = true

theorem Closed.node?_eq_none {tree : Tree α β} (hclosed : tree.Closed) {dir : List α}
    (hdir : tree.isDirectory dir = false) (name : α) :
    tree.node? (dir ++ [name]) = none := by
  by_contra hnode
  rw [hclosed dir name hnode] at hdir
  contradiction

/-- Nothing is in a directory that is not there. -/
theorem Closed.children_eq_nil {tree : Tree α β} (hclosed : tree.Closed) {dir : List α}
    (hdir : tree.isDirectory dir = false) : tree.children dir = [] := by
  rw [List.eq_nil_iff_forall_not_mem]
  intro name hname
  exact (tree.mem_children dir name).mp hname (hclosed.node?_eq_none hdir name)

/-- Where one component leads from a directory. -/
def enter (here : List α) : Component α → List α
  | .here => here
  | .up => here.dropLast
  | .name value => here ++ [value]

omit [DecidableEq α] in
theorem length_enter_le (here : List α) (component : Component α) :
    (enter here component).length ≤ here.length + 1 := by
  cases component with
  | here => simp [enter]
  | up => simp only [enter, List.length_dropLast]; omega
  | name value => simp [enter]

/-- Walk from a directory: every component is looked up in the directory that
the components before it lead to. -/
def walk (tree : Tree α β) : List α → List (Component α) → Option (List α)
  | here, [] => some here
  | here, component :: rest =>
      if tree.isDirectory here then tree.walk (enter here component) rest else none

@[simp] theorem walk_nil (tree : Tree α β) (here : List α) :
    tree.walk here [] = some here := rfl

theorem walk_cons (tree : Tree α β) (here : List α) (component : Component α)
    (rest : List (Component α)) :
    tree.walk here (component :: rest) =
      if tree.isDirectory here then tree.walk (enter here component) rest
      else none := rfl

theorem walk_append (tree : Tree α β) (here : List α)
    (first second : List (Component α)) :
    tree.walk here (first ++ second) =
      (tree.walk here first).bind fun there => tree.walk there second := by
  induction first generalizing here with
  | nil => rfl
  | cons component rest ih =>
      rw [List.cons_append, walk_cons, walk_cons]
      split
      · exact ih (enter here component)
      · rfl

/-- A walk only needs the directories it passes through. -/
theorem walk_mono {tree later : Tree α β}
    (hdirs : ∀ path, tree.isDirectory path → later.isDirectory path)
    (components : List (Component α)) {here there : List α}
    (hwalk : tree.walk here components = some there) :
    later.walk here components = some there := by
  induction components generalizing here with
  | nil => exact hwalk
  | cons component rest ih =>
      rw [walk_cons] at hwalk ⊢
      split at hwalk
      · next hhere =>
          rw [if_pos (hdirs here hhere)]
          exact ih hwalk
      · contradiction

section Prune

variable (tree : Tree α β) {keep : List α → Bool} {path : List α}

omit [DecidableEq α] in
theorem ext_entries {first second : Tree α β}
    (hentries : first.nodes.entries = second.nodes.entries) : first = second := by
  cases first
  cases second
  exact congrArg Tree.mk (AList.ext hentries)

omit [DecidableEq α] in
theorem entries_prune (keep : List α → Bool) :
    (tree.prune keep).nodes.entries = tree.nodes.entries.filter fun entry => keep entry.1 := rfl

theorem entries_put (path : List α) (node : Node β) :
    (tree.put path node).nodes.entries = ⟨path, node⟩ :: tree.nodes.entries.kerase path :=
  AList.entries_insert

/-- What is kept can be put before or after the rest is pruned. -/
theorem prune_put (hkeep : keep path = true) (node : Node β) :
    (tree.put path node).prune keep = (tree.prune keep).put path node := by
  have herase : ∀ entries : List (Sigma fun _ : List α => Node β),
      (entries.kerase path).filter (fun entry => keep entry.1) =
        (entries.filter fun entry => keep entry.1).kerase path := by
    intro entries
    induction entries with
    | nil => rfl
    | cons entry rest ih =>
        by_cases heq : path = entry.1
        · rw [List.kerase_cons_eq heq, List.filter_cons, if_pos (heq ▸ hkeep),
            List.kerase_cons_eq heq]
        · rw [List.kerase_cons_ne heq, List.filter_cons, List.filter_cons, ih]
          split
          · rw [List.kerase_cons_ne heq]
          · rfl
  apply ext_entries
  rw [entries_prune, entries_put, entries_put, entries_prune, List.filter_cons, if_pos hkeep,
    herase]

/-- What is not kept need not be put. -/
theorem prune_put_of_not (hkeep : keep path = false) (node : Node β) :
    (tree.put path node).prune keep = tree.prune keep := by
  have herase : ∀ entries : List (Sigma fun _ : List α => Node β),
      (entries.kerase path).filter (fun entry => keep entry.1) =
        entries.filter fun entry => keep entry.1 := by
    intro entries
    induction entries with
    | nil => rfl
    | cons entry rest ih =>
        by_cases heq : path = entry.1
        · rw [List.kerase_cons_eq heq, List.filter_cons, if_neg (by simp [← heq, hkeep])]
        · rw [List.kerase_cons_ne heq, List.filter_cons, List.filter_cons, ih]
  apply ext_entries
  rw [entries_prune, entries_put, entries_prune, List.filter_cons, if_neg (by simp [hkeep]),
    herase]

omit [DecidableEq α] in
theorem prune_comm (first second : List α → Bool) :
    (tree.prune first).prune second = (tree.prune second).prune first := by
  apply ext_entries
  rw [entries_prune, entries_prune, entries_prune, entries_prune, List.filter_filter,
    List.filter_filter]
  exact List.filter_congr fun entry _ => Bool.and_comm _ _

omit [DecidableEq α] in
theorem prune_prune_of_imp {first : List α → Bool}
    (himp : ∀ path, keep path = true → first path = true) :
    (tree.prune first).prune keep = tree.prune keep := by
  apply ext_entries
  rw [entries_prune, entries_prune, entries_prune, List.filter_filter]
  refine List.filter_congr fun entry _ => ?_
  cases hkeep : keep entry.1 with
  | false => rfl
  | true => rw [himp _ hkeep, Bool.and_self]

/-- A directory whose names are all kept keeps its order. -/
theorem children_prune {dir : List α} (hkeep : ∀ name, keep (dir ++ [name]) = true) :
    (tree.prune keep).children dir = tree.children dir := by
  have hkeys : (tree.prune keep).nodes.keys = tree.nodes.keys.filter keep := by
    change (tree.nodes.entries.filter fun entry => keep entry.1).map Sigma.fst =
      (tree.nodes.entries.map Sigma.fst).filter keep
    rw [List.filter_map]
    rfl
  rw [children, children, hkeys, List.filterMap_filter]
  refine List.filterMap_congr fun path _ => ?_
  cases hpath : path.getLast? with
  | none => simp
  | some name =>
      by_cases hdir : path.dropLast = dir
      · have happend := List.dropLast_append_getLast? name hpath
        rw [if_pos (by rw [← happend, hdir]; exact hkeep name)]
      · simp [hdir]

end Prune

end Tree

end FileTree
