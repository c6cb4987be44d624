/-
Finite maps kept as key-sorted association lists, with the updates of an
ordered container: an insertion that keeps an entry that is there, a lookup
that adds a default entry for a missing key, and a change of the entry that the
lookup refers to.
-/
import Mathlib

universe u v w

/-- A finite map whose entries are listed by strictly increasing key. -/
structure OrderedMap (κ : Type u) (β : Type v) [LinearOrder κ] where
  entries : List (κ × β)
  sorted : entries.Pairwise (fun first second => first.1 < second.1)

namespace OrderedMap

variable {κ : Type u} {β : Type v} [LinearOrder κ]

def empty : OrderedMap κ β := ⟨[], List.Pairwise.nil⟩

/-- Insertion in key order; an entry with the same key stays. -/
def insertEntry (key : κ) (value : β) : List (κ × β) → List (κ × β)
  | [] => [(key, value)]
  | head :: tail =>
      if key < head.1 then (key, value) :: head :: tail
      else if key = head.1 then head :: tail
      else head :: insertEntry key value tail

theorem fst_mem_insertEntry {key : κ} {value : β} {entries : List (κ × β)}
    {entry : κ × β} (hentry : entry ∈ insertEntry key value entries) :
    entry.1 = key ∨ entry ∈ entries := by
  induction entries with
  | nil => simp_all [insertEntry]
  | cons head tail ih =>
      simp only [insertEntry] at hentry
      split at hentry
      · rcases List.mem_cons.mp hentry with rfl | htail
        · exact Or.inl rfl
        · exact Or.inr htail
      · split at hentry
        · exact Or.inr hentry
        · rcases List.mem_cons.mp hentry with rfl | htail
          · exact Or.inr List.mem_cons_self
          · exact (ih htail).imp id (List.mem_cons_of_mem head)

theorem insertEntry_sorted (key : κ) (value : β) {entries : List (κ × β)}
    (hsorted : entries.Pairwise (fun first second => first.1 < second.1)) :
    (insertEntry key value entries).Pairwise
      (fun first second => first.1 < second.1) := by
  induction entries with
  | nil => simp [insertEntry]
  | cons head tail ih =>
      have hhead := (List.pairwise_cons.mp hsorted).1
      have htail := (List.pairwise_cons.mp hsorted).2
      simp only [insertEntry]
      split
      · next hlt =>
          refine List.pairwise_cons.mpr ⟨?_, hsorted⟩
          intro entry hentry
          rcases List.mem_cons.mp hentry with rfl | hentry
          · exact hlt
          · exact hlt.trans (hhead entry hentry)
      · split
        · exact hsorted
        · next hle hne =>
            refine List.pairwise_cons.mpr ⟨?_, ih htail⟩
            intro entry hentry
            rcases fst_mem_insertEntry hentry with heq | hentry
            · rw [heq]
              exact lt_of_le_of_ne (le_of_not_gt hle) (Ne.symm hne)
            · exact hhead entry hentry

/-- `insert`: an entry that is there already stays as it is. -/
def insert (map : OrderedMap κ β) (key : κ) (value : β) : OrderedMap κ β :=
  ⟨insertEntry key value map.entries, insertEntry_sorted key value map.sorted⟩

/-- The value stored under a key. -/
def find? (map : OrderedMap κ β) (key : κ) : Option β :=
  (map.entries.find? (fun entry => decide (entry.1 = key))).map Prod.snd

/-- `operator[]`: the stored value, or the default, which is then stored. -/
def getOrInsert (map : OrderedMap κ β) (key : κ) (default : β) :
    β × OrderedMap κ β :=
  match map.find? key with
  | some value => (value, map)
  | none => (default, map.insert key default)

/-- The entry of a key with a new value, which may depend on the old one, in key
order. -/
def upsertEntry (key : κ) (change : Option β → β) : List (κ × β) → List (κ × β)
  | [] => [(key, change none)]
  | head :: tail =>
      if key < head.1 then (key, change none) :: head :: tail
      else if key = head.1 then (key, change (some head.2)) :: tail
      else head :: upsertEntry key change tail

theorem insertEntry_eq_upsertEntry (key : κ) (value : β) (entries : List (κ × β)) :
    insertEntry key value entries = upsertEntry key (·.getD value) entries := by
  induction entries with
  | nil => rfl
  | cons head tail ih =>
      rw [insertEntry, upsertEntry, ih]
      split_ifs with hlt heq
      · rfl
      · rw [heq]
        rfl
      · rfl

theorem fst_mem_upsertEntry {key : κ} {change : Option β → β}
    {entries : List (κ × β)} {entry : κ × β}
    (hentry : entry ∈ upsertEntry key change entries) :
    entry.1 = key ∨ entry ∈ entries := by
  induction entries with
  | nil => simp_all [upsertEntry]
  | cons head tail ih =>
      rw [upsertEntry] at hentry
      split_ifs at hentry with hlt heq
      · rcases List.mem_cons.mp hentry with rfl | htail
        · exact Or.inl rfl
        · exact Or.inr htail
      · rcases List.mem_cons.mp hentry with rfl | htail
        · exact Or.inl rfl
        · exact Or.inr (List.mem_cons_of_mem head htail)
      · rcases List.mem_cons.mp hentry with rfl | htail
        · exact Or.inr List.mem_cons_self
        · exact (ih htail).imp id (List.mem_cons_of_mem head)

theorem upsertEntry_sorted (key : κ) (change : Option β → β) {entries : List (κ × β)}
    (hsorted : entries.Pairwise (fun first second => first.1 < second.1)) :
    (upsertEntry key change entries).Pairwise
      (fun first second => first.1 < second.1) := by
  induction entries with
  | nil => simp [upsertEntry]
  | cons head tail ih =>
      obtain ⟨hhead, htail⟩ := List.pairwise_cons.mp hsorted
      rw [upsertEntry]
      split_ifs with hlt heq
      · refine List.pairwise_cons.mpr ⟨?_, hsorted⟩
        intro entry hentry
        rcases List.mem_cons.mp hentry with rfl | hentry
        · exact hlt
        · exact hlt.trans (hhead entry hentry)
      · refine List.pairwise_cons.mpr ⟨?_, htail⟩
        intro entry hentry
        rw [heq]
        exact hhead entry hentry
      · refine List.pairwise_cons.mpr ⟨?_, ih htail⟩
        intro entry hentry
        rcases fst_mem_upsertEntry hentry with hkey | hentry
        · rw [hkey]
          exact lt_of_le_of_ne (le_of_not_gt hlt) (Ne.symm heq)
        · exact hhead entry hentry

/-- A change of the value that `operator[]` refers to, which it adds first if the
key is missing. -/
def upsert (map : OrderedMap κ β) (key : κ) (change : Option β → β) : OrderedMap κ β :=
  ⟨upsertEntry key change map.entries, upsertEntry_sorted key change map.sorted⟩

theorem insert_eq_upsert (map : OrderedMap κ β) (key : κ) (value : β) :
    map.insert key value = map.upsert key (·.getD value) := by
  rw [insert, upsert]
  congr 1
  exact insertEntry_eq_upsertEntry key value map.entries

@[simp] theorem find?_empty (key : κ) : (empty : OrderedMap κ β).find? key = none := rfl

theorem find?_eq_some_iff (map : OrderedMap κ β) (key : κ) (value : β) :
    map.find? key = some value ↔ (key, value) ∈ map.entries := by
  obtain ⟨entries, hsorted⟩ := map
  rw [find?]
  induction entries with
  | nil => simp
  | cons head tail ih =>
      obtain ⟨hhead, htail⟩ := List.pairwise_cons.mp hsorted
      rw [List.find?_cons, List.mem_cons]
      by_cases hkey : head.1 = key
      · have hlater : (key, value) ∉ tail := by
          intro hmem
          exact absurd (hhead _ hmem) (by simp [hkey])
        simp [hkey, hlater, Prod.ext_iff, eq_comm]
      · have hne : (key, value) ≠ head := by
          rintro rfl
          exact hkey rfl
        simpa [hkey, hne] using ih htail

def keys (map : OrderedMap κ β) : List κ := map.entries.map Prod.fst

theorem mem_keys (map : OrderedMap κ β) (key : κ) :
    key ∈ map.keys ↔ ∃ value, map.find? key = some value := by
  simp [keys, find?_eq_some_iff]

/-- An entry behind a larger key is not looked up. -/
theorem find?_cons_of_lt {key : κ} {head : κ × β} {tail : List (κ × β)}
    (hsorted : (head :: tail).Pairwise (fun first second => first.1 < second.1))
    (hlt : key < head.1) :
    (head :: tail).find? (fun entry => decide (entry.1 = key)) = none := by
  rw [List.find?_eq_none]
  intro entry hentry
  have hle : head.1 ≤ entry.1 := by
    rcases List.mem_cons.mp hentry with rfl | htail
    · exact le_refl _
    · exact ((List.pairwise_cons.mp hsorted).1 entry htail).le
  simpa using (hlt.trans_le hle).ne'

theorem find?_upsert (map : OrderedMap κ β) (key other : κ) (change : Option β → β) :
    (map.upsert key change).find? other =
      if other = key then some (change (map.find? key)) else map.find? other := by
  obtain ⟨entries, hsorted⟩ := map
  simp only [find?, upsert]
  induction entries with
  | nil =>
      by_cases heq : other = key
      · simp [upsertEntry, heq]
      · simp [upsertEntry, heq, Ne.symm heq]
  | cons head tail ih =>
      have htail := ih (List.pairwise_cons.mp hsorted).2
      rw [upsertEntry]
      by_cases hlt : key < head.1
      · have hnone := find?_cons_of_lt hsorted hlt
        rw [if_pos hlt, hnone]
        by_cases heq : other = key
        · simp [heq]
        · simp [heq, Ne.symm heq]
      · rw [if_neg hlt]
        by_cases hkey : key = head.1
        · rw [if_pos hkey]
          by_cases heq : other = key
          · simp [heq, hkey]
          · have hne : head.1 ≠ other := hkey ▸ Ne.symm heq
            simp [heq, Ne.symm heq, hne]
        · rw [if_neg hkey]
          by_cases hhead : head.1 = other
          · have heq : other ≠ key := fun heq => hkey (heq ▸ hhead.symm)
            simp [hhead, heq]
          · simpa [hhead, Ne.symm hkey] using htail

theorem find?_insert (map : OrderedMap κ β) (key other : κ) (value : β) :
    (map.insert key value).find? other =
      if other = key then some ((map.find? key).getD value) else map.find? other := by
  rw [insert_eq_upsert, find?_upsert]

theorem mem_keys_insert (map : OrderedMap κ β) (key other : κ) (value : β) :
    other ∈ (map.insert key value).keys ↔ other = key ∨ other ∈ map.keys := by
  rw [mem_keys, mem_keys, find?_insert]
  by_cases heq : other = key <;> simp [heq]

/-- `erase`: take the entry of a key away. -/
def erase (map : OrderedMap κ β) (key : κ) : OrderedMap κ β :=
  ⟨map.entries.filter (fun entry => entry.1 ≠ key), map.sorted.filter _⟩

theorem mem_keys_erase (map : OrderedMap κ β) (key other : κ) :
    other ∈ (map.erase key).keys ↔ other ≠ key ∧ other ∈ map.keys := by
  simp only [keys, erase, List.mem_map, List.mem_filter, decide_eq_true_eq]
  constructor
  · rintro ⟨entry, ⟨hentry, hne⟩, rfl⟩
    exact ⟨hne, entry, hentry, rfl⟩
  · rintro ⟨hne, entry, hentry, rfl⟩
    exact ⟨entry, ⟨hentry, hne⟩, rfl⟩

/-- `insert` for one entry after the other. -/
def insertAll (map : OrderedMap κ β) (entries : List (κ × β)) : OrderedMap κ β :=
  entries.foldl (fun map entry => map.insert entry.1 entry.2) map

/-- The value of the first entry for a key. -/
def firstValue? (key : κ) (entries : List (κ × β)) : Option β :=
  (entries.find? (fun entry => decide (entry.1 = key))).map Prod.snd

theorem firstValue?_cons (key : κ) (head : κ × β) (tail : List (κ × β)) :
    firstValue? key (head :: tail) =
      if head.1 = key then some head.2 else firstValue? key tail := by
  by_cases hkey : head.1 = key <;> simp [firstValue?, hkey]

theorem firstValue?_eq_none_iff (key : κ) (entries : List (κ × β)) :
    firstValue? key entries = none ↔ ∀ entry ∈ entries, entry.1 ≠ key := by
  simp [firstValue?]

theorem mem_of_firstValue? {key : κ} {value : β} {entries : List (κ × β)}
    (hfind : firstValue? key entries = some value) : (key, value) ∈ entries := by
  simp only [firstValue?, Option.map_eq_some_iff] at hfind
  obtain ⟨entry, hentry, rfl⟩ := hfind
  have hkey : entry.1 = key := by simpa using List.find?_some hentry
  exact hkey ▸ List.mem_of_find?_eq_some hentry

/-- The entries of a map with other values. -/
theorem firstValue?_map_entries {γ : Type w} (map : OrderedMap κ β) (key : κ)
    (f : κ → β → γ) :
    firstValue? key (map.entries.map fun entry => (entry.1, f entry.1 entry.2)) =
      (map.find? key).map (f key) := by
  rw [find?]
  induction map.entries with
  | nil => rfl
  | cons head tail ih =>
      rw [List.map_cons, firstValue?_cons, ih]
      by_cases hkey : head.1 = key <;> simp [hkey]

/-- Of several entries for one key the map keeps the earliest. -/
theorem find?_insertAll (map : OrderedMap κ β) (entries : List (κ × β)) (key : κ) :
    (map.insertAll entries).find? key = (map.find? key).or (firstValue? key entries) := by
  induction entries generalizing map with
  | nil => simp [insertAll, firstValue?]
  | cons head tail ih =>
      have hstep : (map.insertAll (head :: tail)).find? key =
          ((map.insert head.1 head.2).insertAll tail).find? key := rfl
      rw [hstep, ih, find?_insert, firstValue?_cons]
      by_cases hkey : key = head.1
      · cases hfind : map.find? head.1 <;> simp [hkey, hfind]
      · simp [hkey, Ne.symm hkey]

/-- A lookup of a key that is there adds nothing. -/
theorem getOrInsert_of_find? {map : OrderedMap κ β} {key : κ} {value : β}
    (hfind : map.find? key = some value) (default : β) :
    map.getOrInsert key default = (value, map) := by
  rw [getOrInsert, hfind]

end OrderedMap
