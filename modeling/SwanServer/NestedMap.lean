/-
Finite maps from a group and a key to a value in which no group is empty: a
group comes into being with its first key and goes with its last one.
-/
import Mathlib

universe u v w

/-- A finite map of non-empty finite maps. -/
structure NestedMap (α : Type u) (β : Type v) (γ : Type w) [DecidableEq α] where
  groups : Finmap (fun _ : α => Finmap (fun _ : β => γ))
  nonempty : ∀ group, ∀ values ∈ groups.lookup group, values.keys.Nonempty

namespace NestedMap

variable {α : Type u} {β : Type v} {γ : Type w} [DecidableEq α]

instance : EmptyCollection (NestedMap α β γ) := ⟨∅, by simp⟩

instance : Membership α (NestedMap α β γ) := ⟨fun map group => group ∈ map.groups⟩

instance (group : α) (map : NestedMap α β γ) : Decidable (group ∈ map) :=
  inferInstanceAs (Decidable (group ∈ map.groups))

/-- The values of a group, none where there is no such group. -/
def group (map : NestedMap α β γ) (group : α) : Finmap (fun _ : β => γ) :=
  (map.groups.lookup group).getD ∅

/-- The keys of a group. -/
def keys (map : NestedMap α β γ) (group : α) : Finset β := (map.group group).keys

/-- A group is there exactly if it has a key. -/
theorem mem_iff (map : NestedMap α β γ) (group : α) :
    group ∈ map ↔ (map.keys group).Nonempty := by
  change group ∈ map.groups ↔ _
  rw [keys, NestedMap.group]
  cases hvalues : map.groups.lookup group with
  | none => simp [← Finmap.lookup_eq_none, hvalues]
  | some values =>
      exact iff_of_true (Finmap.mem_of_lookup_eq_some hvalues)
        (map.nonempty group values hvalues)

variable [DecidableEq β]

/-- The value under a key of a group. -/
def get? (map : NestedMap α β γ) (group : α) (key : β) : Option γ :=
  (map.group group).lookup key

/-- Put the values of a group in place, and leave no group without values. -/
def replace (map : NestedMap α β γ) (group : α) (values : Finmap (fun _ : β => γ)) :
    NestedMap α β γ :=
  if hvalues : values.keys.Nonempty then
    { groups := map.groups.insert group values
      nonempty := by
        intro other others hothers
        by_cases heq : other = group
        · subst heq
          rw [Finmap.lookup_insert, Option.mem_some_iff] at hothers
          exact hothers ▸ hvalues
        · rw [Finmap.lookup_insert_of_ne _ heq] at hothers
          exact map.nonempty other others hothers }
  else
    { groups := map.groups.erase group
      nonempty := by
        intro other others hothers
        by_cases heq : other = group
        · subst heq
          rw [Finmap.lookup_erase] at hothers
          contradiction
        · rw [Finmap.lookup_erase_ne heq] at hothers
          exact map.nonempty other others hothers }

/-- Store a value under a key of a group. -/
def set (map : NestedMap α β γ) (group : α) (key : β) (value : γ) : NestedMap α β γ :=
  map.replace group ((map.group group).insert key value)

/-- Remove a key of a group, and the group with its last key. -/
def erase (map : NestedMap α β γ) (group : α) (key : β) : NestedMap α β γ :=
  map.replace group ((map.group group).erase key)

@[simp] theorem get?_empty (group : α) (key : β) :
    (∅ : NestedMap α β γ).get? group key = none := rfl

omit [DecidableEq β] in
@[simp] theorem keys_empty (group : α) : (∅ : NestedMap α β γ).keys group = ∅ := rfl

omit [DecidableEq β] in
theorem not_mem_empty (group : α) : group ∉ (∅ : NestedMap α β γ) := by
  rw [mem_iff, keys_empty]
  exact Finset.not_nonempty_empty

theorem mem_keys (map : NestedMap α β γ) (group : α) (key : β) :
    key ∈ map.keys group ↔ map.get? group key ≠ none := by
  rw [keys, get?, Finmap.mem_keys, ne_eq, Finmap.lookup_eq_none, not_not]

theorem mem_of_get? {map : NestedMap α β γ} {group : α} {key : β} {value : γ}
    (hvalue : map.get? group key = some value) : group ∈ map :=
  (map.mem_iff group).mpr ⟨key, (map.mem_keys group key).mpr (by simp [hvalue])⟩

theorem group_replace (map : NestedMap α β γ) (group : α)
    (values : Finmap (fun _ : β => γ)) (other : α) :
    (map.replace group values).group other =
      if other = group then values else map.group other := by
  rw [replace]
  by_cases heq : other = group
  · subst heq
    rw [if_pos rfl]
    split
    · simp [NestedMap.group]
    · next hvalues =>
        have hempty : values = ∅ := by
          apply Finmap.ext_lookup
          intro key
          rw [Finmap.lookup_empty, Finmap.lookup_eq_none, ← Finmap.mem_keys]
          exact fun hkey => hvalues ⟨key, hkey⟩
        simp [NestedMap.group, hempty]
  · rw [if_neg heq]
    split
    · simp [NestedMap.group, Finmap.lookup_insert_of_ne _ heq]
    · simp [NestedMap.group, Finmap.lookup_erase_ne heq]

theorem get?_set (map : NestedMap α β γ) (group : α) (key : β) (value : γ)
    (other : α) (otherKey : β) :
    (map.set group key value).get? other otherKey =
      if other = group ∧ otherKey = key then some value
      else map.get? other otherKey := by
  rw [get?, set, group_replace]
  by_cases hgroup : other = group
  · subst hgroup
    rw [if_pos rfl]
    by_cases hkey : otherKey = key
    · subst hkey
      simp
    · rw [Finmap.lookup_insert_of_ne _ hkey, if_neg (fun h => hkey h.2), get?]
  · rw [if_neg hgroup, if_neg (fun h => hgroup h.1), get?]

theorem get?_erase (map : NestedMap α β γ) (group : α) (key : β) (other : α)
    (otherKey : β) :
    (map.erase group key).get? other otherKey =
      if other = group ∧ otherKey = key then none else map.get? other otherKey := by
  rw [get?, erase, group_replace]
  by_cases hgroup : other = group
  · subst hgroup
    rw [if_pos rfl]
    by_cases hkey : otherKey = key
    · subst hkey
      simp
    · rw [Finmap.lookup_erase_ne hkey, if_neg (fun h => hkey h.2), get?]
  · rw [if_neg hgroup, if_neg (fun h => hgroup h.1), get?]

theorem keys_set (map : NestedMap α β γ) (group : α) (key : β) (value : γ) (other : α) :
    (map.set group key value).keys other =
      if other = group then insert key (map.keys group) else map.keys other := by
  ext otherKey
  rw [mem_keys, get?_set]
  by_cases hgroup : other = group
  · subst hgroup
    by_cases hkey : otherKey = key <;> simp [hkey, mem_keys]
  · simp [hgroup, mem_keys]

theorem keys_erase (map : NestedMap α β γ) (group : α) (key : β) (other : α) :
    (map.erase group key).keys other =
      if other = group then (map.keys group).erase key else map.keys other := by
  ext otherKey
  rw [mem_keys, get?_erase]
  by_cases hgroup : other = group
  · subst hgroup
    by_cases hkey : otherKey = key <;> simp [hkey, mem_keys]
  · simp [hgroup, mem_keys]

theorem mem_set (map : NestedMap α β γ) (group : α) (key : β) (value : γ) (other : α) :
    other ∈ map.set group key value ↔ other = group ∨ other ∈ map := by
  rw [mem_iff, mem_iff, keys_set]
  by_cases hgroup : other = group <;> simp [hgroup]

/-- Only its last key takes a group away. -/
theorem mem_erase (map : NestedMap α β γ) (group : α) (key : β) (other : α) :
    other ∈ map.erase group key ↔
      other ∈ map ∧ ¬ (other = group ∧ map.keys group = {key}) := by
  rw [mem_iff, mem_iff, keys_erase]
  by_cases hgroup : other = group
  · subst hgroup
    rw [if_pos rfl, Finset.nonempty_iff_ne_empty, Finset.nonempty_iff_ne_empty, ne_eq,
      Finset.erase_eq_empty_iff]
    tauto
  · simp [hgroup]

end NestedMap
