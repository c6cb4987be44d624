/-
Who holds what.  Finitely many parties hold one resource each at most; the
number of holders of a resource tells whether it is held, and by one party only.
-/
import Mathlib

universe u v

namespace Custody

variable {ι : Type u} {ρ : Type v} [Fintype ι] [DecidableEq ρ]

/-- The number of parties that hold a resource. -/
def holders (holds : ι → Option ρ) (resource : ρ) : Nat :=
  (Finset.univ.filter fun party => holds party = some resource).card

/-- One if the resource is the one that is held. -/
def share (held : Option ρ) (resource : ρ) : Nat := if held = some resource then 1 else 0

@[simp] theorem share_none (resource : ρ) : share none resource = 0 := rfl

@[simp] theorem share_some (held resource : ρ) :
    share (some held) resource = if held = resource then 1 else 0 := by
  simp [share]

theorem holders_eq_sum (holds : ι → Option ρ) (resource : ρ) :
    holders holds resource = ∑ party, share (holds party) resource := by
  rw [holders, Finset.card_filter]
  rfl

theorem sum_share (held : List (Option ρ)) (resource : ρ) :
    (held.map fun one => share one resource).sum = held.count (some resource) := by
  induction held with
  | nil => rfl
  | cons head tail ih =>
      rw [List.map_cons, List.sum_cons, ih, List.count_cons, Nat.add_comm, share]
      simp

/-- When one party moves, only its own share changes. -/
theorem holders_update [DecidableEq ι] (holds : ι → Option ρ) (party : ι) (held : Option ρ)
    (resource : ρ) :
    holders (Function.update holds party held) resource + share (holds party) resource =
      holders holds resource + share held resource := by
  have hrest : ∀ other ∈ Finset.univ.erase party,
      share (Function.update holds party held other) resource =
        share (holds other) resource := by
    intro other hother
    rw [Function.update_of_ne (Finset.ne_of_mem_erase hother)]
  rw [holders_eq_sum, holders_eq_sum,
    ← Finset.add_sum_erase Finset.univ _ (Finset.mem_univ party), Function.update_self,
    Finset.sum_congr rfl hrest,
    ← Finset.add_sum_erase Finset.univ (fun other => share (holds other) resource)
      (Finset.mem_univ party)]
  omega

theorem holders_pos_iff {holds : ι → Option ρ} {resource : ρ} :
    0 < holders holds resource ↔ ∃ party, holds party = some resource := by
  rw [holders, Finset.card_pos]
  constructor
  · rintro ⟨party, hparty⟩
    exact ⟨party, (Finset.mem_filter.mp hparty).2⟩
  · rintro ⟨party, hparty⟩
    exact ⟨party, Finset.mem_filter.mpr ⟨Finset.mem_univ party, hparty⟩⟩

theorem holders_pos {holds : ι → Option ρ} {party : ι} {resource : ρ}
    (hparty : holds party = some resource) : 0 < holders holds resource :=
  holders_pos_iff.mpr ⟨party, hparty⟩

/-- What is not held twice has one holder. -/
theorem eq_of_holders_le_one {holds : ι → Option ρ} {first second : ι} {resource : ρ}
    (hle : holders holds resource ≤ 1) (hfirst : holds first = some resource)
    (hsecond : holds second = some resource) : first = second := by
  rw [holders, Finset.card_le_one] at hle
  exact hle first (by simpa using hfirst) second (by simpa using hsecond)

end Custody
