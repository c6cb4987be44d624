/-
Lexical elimination of `.` and `..` from paths over any type of names.  A path
reduces to some leading `..` followed by names; following one path from another
only depends on the two reduced forms.
-/
import Mathlib

namespace LexicalPath

universe u

variable {α : Type u}

/-- One component of a path. -/
inductive Component (α : Type u) where
  | here
  | up
  | name (value : α)
deriving Repr, DecidableEq

/-- A path without `.` and without a `..` behind a name: `ups` times `..` and
then names.  At the root `..` is absorbed. -/
structure Reduced (α : Type u) where
  absolute : Bool
  ups : Nat
  names : List α
deriving Repr, DecidableEq

namespace Reduced

/-- The empty relative path. -/
def nil : Reduced α := ⟨false, 0, []⟩

/-- One `..` at the end of a reduced path. -/
def ascend : Reduced α → Reduced α
  | ⟨true, ups, []⟩ => ⟨true, ups, []⟩
  | ⟨false, ups, []⟩ => ⟨false, ups + 1, []⟩
  | ⟨absolute, ups, name :: names⟩ => ⟨absolute, ups, (name :: names).dropLast⟩

/-- Extend a reduced path by one component. -/
def step (path : Reduced α) : Component α → Reduced α
  | .here => path
  | .up => path.ascend
  | .name value => { path with names := path.names ++ [value] }

/-- Extend a reduced path by a whole list of components. -/
def follow (path : Reduced α) (components : List (Component α)) : Reduced α :=
  components.foldl step path

@[simp] theorem follow_nil (path : Reduced α) : path.follow [] = path := rfl

@[simp] theorem follow_cons (path : Reduced α) (component : Component α)
    (rest : List (Component α)) :
    path.follow (component :: rest) = (path.step component).follow rest := rfl

theorem follow_append (path : Reduced α) (first second : List (Component α)) :
    path.follow (first ++ second) = (path.follow first).follow second :=
  List.foldl_append

@[simp] theorem step_here (path : Reduced α) : path.step .here = path := rfl

theorem step_name (path : Reduced α) (value : α) :
    path.step (.name value) = { path with names := path.names ++ [value] } := rfl

/-- `path` followed by a reduced relative path: its leading `..` first take
names away, and go further up where none is left. -/
def append (path tail : Reduced α) : Reduced α where
  absolute := path.absolute
  ups := if path.absolute then path.ups
    else path.ups + (tail.ups - path.names.length)
  names := path.names.take (path.names.length - tail.ups) ++ tail.names

@[simp] theorem append_nil (path : Reduced α) : path.append nil = path := by
  simp [append, nil]

theorem ascend_append (path tail : Reduced α) (htail : tail.absolute = false) :
    (path.append tail).ascend = path.append tail.ascend := by
  obtain ⟨absolute, ups, names⟩ := path
  obtain ⟨tailAbsolute, tailUps, tailNames⟩ := tail
  subst htail
  cases tailNames with
  | cons name rest =>
      cases hnames : List.take (names.length - tailUps) names ++ name :: rest with
      | nil => simp at hnames
      | cons first others =>
          simp only [append, ascend, hnames]
          rw [← hnames, List.dropLast_append_of_ne_nil (by simp)]
  | nil =>
      rcases Nat.lt_or_ge tailUps names.length with hlt | hge
      · obtain ⟨first, others, htake⟩ : ∃ first others,
            List.take (names.length - tailUps) names = first :: others := by
          apply List.exists_cons_of_ne_nil
          simp only [ne_eq, List.take_eq_nil_iff, not_or]
          exact ⟨by omega, List.ne_nil_of_length_pos (by omega)⟩
        have hdrop : List.take (names.length - (tailUps + 1)) names =
            (first :: others).dropLast := by
          rw [← htake, List.dropLast_eq_take, List.take_take, List.length_take]
          congr 1
          omega
        have hzero : tailUps - names.length = 0 := by omega
        have hzero' : tailUps + 1 - names.length = 0 := by omega
        simp only [append, ascend, htake, List.append_nil, hdrop, hzero, hzero']
      · have htake : names.length - tailUps = 0 := by omega
        have htake' : names.length - (tailUps + 1) = 0 := by omega
        cases absolute with
        | true => simp [append, ascend, htake, htake']
        | false =>
            simp only [append, ascend, htake, htake', List.take_zero,
              List.append_nil, Bool.false_eq_true, ↓reduceIte,
              Reduced.mk.injEq, true_and, and_true]
            omega

theorem absolute_step (path : Reduced α) (component : Component α) :
    (path.step component).absolute = path.absolute := by
  obtain ⟨absolute, ups, names⟩ := path
  cases component with
  | here => rfl
  | name value => rfl
  | up => cases names <;> cases absolute <;> rfl

theorem absolute_follow (path : Reduced α) (components : List (Component α)) :
    (path.follow components).absolute = path.absolute := by
  induction components generalizing path with
  | nil => rfl
  | cons component rest ih => rw [follow_cons, ih, absolute_step]

theorem step_append (path tail : Reduced α) (htail : tail.absolute = false)
    (component : Component α) :
    (path.append tail).step component = path.append (tail.step component) := by
  cases component with
  | here => rfl
  | name value => simp [step, append]
  | up => exact ascend_append path tail htail

/-- Following components from a path is following their reduced form. -/
theorem follow_eq_append (path : Reduced α) (components : List (Component α)) :
    path.follow components = path.append (nil.follow components) := by
  induction components using List.reverseRecOn with
  | nil => rw [follow_nil, follow_nil, append_nil]
  | append_singleton front component ih =>
      rw [follow_append, follow_append, ih]
      exact step_append path _ (absolute_follow nil front) component

/-- How far a relative path leads down, a `..` leading up. -/
def depth (path : Reduced α) : Int := path.names.length - path.ups

theorem depth_append {path : Reduced α} (hpath : path.absolute = false) (tail : Reduced α) :
    (path.append tail).depth = path.depth + tail.depth := by
  simp only [depth, append, hpath, Bool.false_eq_true, ↓reduceIte, List.length_append,
    List.length_take]
  omega

/-- Which name a path goes down by does not matter exactly if it is left again. -/
theorem step_name_append_eq_iff (path tail : Reduced α) (first second : α) :
    (path.step (.name first)).append tail = (path.step (.name second)).append tail ↔
      first = second ∨ 0 < tail.ups := by
  rcases Nat.eq_zero_or_pos tail.ups with hups | hups
  · simp [append, step_name, hups, List.take_of_length_le]
  · have htake : path.names.length + 1 - tail.ups ≤ path.names.length := by omega
    simp [append, step_name, hups, List.take_append_of_le_length htake]

/-- `path` lies in the directory `dir`: it is reached from there by names. -/
def Inside (dir path : Reduced α) : Prop :=
  ∃ rest : List α, path = { dir with names := dir.names ++ rest }

theorem inside_iff (dir path : Reduced α) :
    Inside dir path ↔ path.absolute = dir.absolute ∧ path.ups = dir.ups ∧
      dir.names <+: path.names := by
  constructor
  · rintro ⟨rest, rfl⟩
    exact ⟨rfl, rfl, List.prefix_append _ _⟩
  · rintro ⟨habsolute, hups, rest, hrest⟩
    refine ⟨rest, ?_⟩
    rw [← habsolute, ← hups, hrest]

instance [DecidableEq α] (dir path : Reduced α) : Decidable (Inside dir path) :=
  decidable_of_iff _ (inside_iff dir path).symm

/-- A continuation stays in the directory it starts from exactly when the names
that its leading `..` take away are the names it goes back down by. -/
theorem inside_append_iff (dir tail : Reduced α) :
    Inside dir (dir.append tail) ↔
      (dir.absolute = true ∨ tail.ups ≤ dir.names.length) ∧
        dir.names.drop (dir.names.length - tail.ups) <+: tail.names := by
  rw [inside_iff]
  have hsplit : dir.names <+: (dir.append tail).names ↔
      dir.names.drop (dir.names.length - tail.ups) <+: tail.names := by
    have htake := List.take_append_drop (dir.names.length - tail.ups) dir.names
    calc dir.names <+: (dir.append tail).names
        ↔ dir.names.take (dir.names.length - tail.ups) ++
            dir.names.drop (dir.names.length - tail.ups) <+:
          dir.names.take (dir.names.length - tail.ups) ++ tail.names := by
          rw [htake, append]
      _ ↔ dir.names.drop (dir.names.length - tail.ups) <+: tail.names :=
          List.prefix_append_right_inj _
  have hups : (dir.append tail).ups = dir.ups ↔
      (dir.absolute = true ∨ tail.ups ≤ dir.names.length) := by
    simp only [append]
    cases dir.absolute with
    | true => simp
    | false =>
        simp only [Bool.false_eq_true, ↓reduceIte, false_or]
        omega
  rw [hsplit, hups]
  exact ⟨fun h => h.2, fun h => ⟨rfl, h⟩⟩

end Reduced

end LexicalPath
