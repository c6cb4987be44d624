/-
The longest of several keys that is a prefix of a text, and the scan that finds
it by keeping the best key so far.
-/
import Mathlib

universe u

/-- `key` is among the keys a longest prefix of the text. -/
structure IsLongestPrefix {α : Type u} (keys : List (List α)) (text key : List α) : Prop where
  mem : key ∈ keys
  starts : key <+: text
  longest : ∀ other ∈ keys, other <+: text → other.length ≤ key.length

namespace IsLongestPrefix

variable {α : Type u} {keys : List (List α)} {text key : List α}

/-- Prefixes of one text that are equally long are equal. -/
theorem unique {other : List α} (hkey : IsLongestPrefix keys text key)
    (hother : IsLongestPrefix keys text other) : other = key := by
  have hle := hkey.longest other hother.mem hother.starts
  have hge := hother.longest key hkey.mem hkey.starts
  have hprefix : other <+: key := List.prefix_of_prefix_length_le hother.starts hkey.starts hle
  exact hprefix.eq_of_length (le_antisymm hle hge)

end IsLongestPrefix

namespace LongestPrefix

variable {α : Type u} [DecidableEq α]

/-- The better of the best key so far, with its length, and the next key. -/
def better (text : List α) (best : List α × Nat) (key : List α) : List α × Nat :=
  if key = text.take key.length then
    if best.2 < key.length then (key, key.length) else best
  else best

theorem better_cases (text : List α) (best : List α × Nat) (key : List α) :
    (better text best key = best ∧ (key <+: text → key.length ≤ best.2)) ∨
      (better text best key = (key, key.length) ∧ key <+: text ∧ best.2 < key.length) := by
  rw [better]
  by_cases hstarts : key = text.take key.length
  · have hprefix : key <+: text := List.prefix_iff_eq_take.mpr hstarts
    rw [if_pos hstarts]
    by_cases hlonger : best.2 < key.length
    · rw [if_pos hlonger]
      exact Or.inr ⟨rfl, hprefix, hlonger⟩
    · rw [if_neg hlonger]
      exact Or.inl ⟨rfl, fun _ => Nat.not_lt.mp hlonger⟩
  · rw [if_neg hstarts]
    refine Or.inl ⟨rfl, ?_⟩
    intro hprefix
    exact absurd (List.prefix_iff_eq_take.mp hprefix) hstarts

/-- The scan ends where it began, or with a longer key that is a prefix; and no
key that is a prefix is longer than where it ends. -/
theorem foldl_better_spec (text : List α) (keys : List (List α)) (best : List α × Nat) :
    best.2 ≤ (keys.foldl (better text) best).2 ∧
      (∀ key ∈ keys, key <+: text → key.length ≤ (keys.foldl (better text) best).2) ∧
      (keys.foldl (better text) best = best ∨
        ∃ key ∈ keys, key <+: text ∧ best.2 < key.length ∧
          keys.foldl (better text) best = (key, key.length)) := by
  induction keys generalizing best with
  | nil => simp
  | cons head tail ih =>
      rw [List.foldl_cons, List.forall_mem_cons]
      obtain ⟨hmono, hbound, hend⟩ := ih (better text best head)
      rcases better_cases text best head with ⟨hkept, hhead⟩ | ⟨hnew, hstarts, hlonger⟩
      · rw [hkept] at hmono hbound hend ⊢
        refine ⟨hmono, ⟨fun hstarts => (hhead hstarts).trans hmono, hbound⟩, ?_⟩
        apply hend.imp_right
        rintro ⟨key, hkey, hrest⟩
        exact ⟨key, List.mem_cons_of_mem head hkey, hrest⟩
      · rw [hnew] at hmono hbound hend ⊢
        refine ⟨hlonger.le.trans hmono, ⟨fun _ => hmono, hbound⟩, Or.inr ?_⟩
        rcases hend with heq | ⟨key, hkey, hprefix, hlength, heq⟩
        · exact ⟨head, List.mem_cons_self, hstarts, hlonger, heq⟩
        · exact ⟨key, List.mem_cons_of_mem head hkey, hprefix, hlonger.trans hlength, heq⟩

/-- From length 0 the scan finds the longest prefix, if none of the keys is
empty. -/
theorem foldl_better_zero {keys : List (List α)} (hkeys : [] ∉ keys) (text default : List α) :
    IsLongestPrefix keys text (keys.foldl (better text) (default, 0)).1 ∨
      (∀ key ∈ keys, ¬ key <+: text) ∧
        (keys.foldl (better text) (default, 0)).1 = default := by
  obtain ⟨-, hbound, hend⟩ := foldl_better_spec text keys (default, 0)
  rcases hend with heq | ⟨key, hkey, hstarts, -, heq⟩
  · refine Or.inr ⟨?_, congrArg Prod.fst heq⟩
    intro key hkey hstarts
    have hzero : key.length ≤ 0 := by simpa only [heq] using hbound key hkey hstarts
    rw [Nat.le_zero, List.length_eq_zero_iff] at hzero
    exact hkeys (hzero ▸ hkey)
  · rw [heq] at hbound ⊢
    exact Or.inl ⟨hkey, hstarts, hbound⟩

end LongestPrefix
