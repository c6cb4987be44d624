/-
Overwriting the front of a list and reading it back up to a terminator.  A
reused buffer and a file written from its start are both instances: what was
there before survives exactly beyond the length of the new contents.
-/
import Mathlib

namespace Overlay

universe u

variable {α : Type u}

/-- `old` after its first `new.length` cells were replaced by `new`. -/
def overlay (new old : List α) : List α :=
  new ++ old.drop new.length

@[simp] theorem length_overlay (new old : List α) :
    (overlay new old).length = max new.length old.length := by
  simp only [overlay, List.length_append, List.length_drop]
  omega

@[simp] theorem overlay_nil (new : List α) : overlay new [] = new := by
  simp [overlay]

/-- Nothing of the old contents shows exactly when they were not longer. -/
theorem overlay_eq_self_iff (new old : List α) :
    overlay new old = new ↔ old.length ≤ new.length := by
  simp [overlay]

/-- Overwriting a list by its own front changes nothing. -/
theorem overlay_of_starts {new old : List α} (hstarts : new <+: old) :
    overlay new old = old := by
  obtain ⟨rest, rfl⟩ := hstarts
  simp [overlay]

theorem getElem?_overlay_of_lt {new : List α} (old : List α) {i : Nat}
    (hi : i < new.length) : (overlay new old)[i]? = new[i]? := by
  simp [overlay, List.getElem?_append_left hi]

theorem getElem?_overlay_of_le {new : List α} (old : List α) {i : Nat}
    (hi : new.length ≤ i) : (overlay new old)[i]? = old[i]? := by
  rw [overlay, List.getElem?_append_right hi, List.getElem?_drop]
  congr 1
  omega

/-- The cells after a sequence of overwrites, the last one on top. -/
def overlays (news : List (List α)) (old : List α) : List α :=
  news.foldl (fun cells new => overlay new cells) old

@[simp] theorem overlays_nil (old : List α) : overlays [] old = old := rfl

@[simp] theorem overlays_cons (new : List α) (news : List (List α))
    (old : List α) : overlays (new :: news) old = overlays news (overlay new old) :=
  rfl

/-- A value that no overwrite carries is found at `i` only where it was before
and where nothing was written over it. -/
theorem getElem?_overlays_eq_some_iff (news : List (List α)) (old : List α)
    {stop : α} (hstop : ∀ new ∈ news, stop ∉ new) (i : Nat) :
    (overlays news old)[i]? = some stop ↔
      (∀ new ∈ news, new.length ≤ i) ∧ old[i]? = some stop := by
  induction news generalizing old with
  | nil => simp
  | cons new news ih =>
      have htail : ∀ other ∈ news, stop ∉ other :=
        fun other hother => hstop other (List.mem_cons_of_mem new hother)
      rw [overlays_cons, ih (overlay new old) htail, List.forall_mem_cons]
      by_cases hi : new.length ≤ i
      · rw [getElem?_overlay_of_le old hi]
        tauto
      · have hlt : i < new.length := Nat.lt_of_not_le hi
        rw [getElem?_overlay_of_lt old hlt]
        have hfirst : new[i]? ≠ some stop := by
          intro hsome
          exact hstop new List.mem_cons_self (List.mem_of_getElem? hsome)
        simp [hfirst, hi]

variable [DecidableEq α]

/-- The cells before the first `stop`; `none` when there is no `stop` at all,
so that a reader would run off the end. -/
def upTo (stop : α) (cells : List α) : Option (List α) :=
  if stop ∈ cells then some (cells.takeWhile (· ≠ stop)) else none

theorem takeWhile_ne_append {stop : α} {front : List α} (hfront : stop ∉ front)
    (rest : List α) :
    (front ++ rest).takeWhile (· ≠ stop) = front ++ rest.takeWhile (· ≠ stop) := by
  apply List.takeWhile_append_of_pos
  intro cell hcell
  have hne : cell ≠ stop := fun heq => hfront (heq ▸ hcell)
  simpa using hne

/-- Reading back what was written on top of old cells gives exactly that iff
the cell right after it holds the terminator. -/
theorem upTo_overlay_eq_some_iff {stop : α} {new : List α} (hnew : stop ∉ new)
    (old : List α) :
    upTo stop (overlay new old) = some new ↔ old[new.length]? = some stop := by
  rw [upTo, overlay, takeWhile_ne_append hnew]
  cases hdrop : old.drop new.length with
  | nil =>
      have hnone : old[new.length]? = none := by
        rw [List.getElem?_eq_none_iff]
        exact List.drop_eq_nil_iff.mp hdrop
      simp [hnew, hnone]
  | cons next rest =>
      have hnext : old[new.length]? = some next := by
        have hhead : (old.drop new.length)[0]? = old[new.length + 0]? :=
          List.getElem?_drop
        rw [hdrop] at hhead
        simpa using hhead.symm
      rw [hnext]
      by_cases heq : next = stop
      · subst heq
        simp
      · constructor
        · intro hread
          split at hread
          · simp [heq] at hread
          · contradiction
        · intro hsome
          exact absurd (Option.some.inj hsome) heq

/-- A terminator ends the read at the latest where it stands. -/
theorem exists_upTo_of_getElem? {stop : α} {cells : List α} {i : Nat}
    (hcell : cells[i]? = some stop) :
    ∃ text, upTo stop cells = some text ∧ text.length ≤ i := by
  refine ⟨_, if_pos (List.mem_of_getElem? hcell), ?_⟩
  induction cells generalizing i with
  | nil => simp at hcell
  | cons head tail ih =>
      by_cases hhead : head = stop
      · simp [hhead]
      · cases i with
        | zero => exact absurd (Option.some.inj hcell) hhead
        | succ i =>
            have htail := ih (i := i) (by simpa using hcell)
            simpa [hhead] using htail

end Overlay
