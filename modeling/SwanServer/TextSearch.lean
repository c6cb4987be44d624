/-
Searching a text for a needle.  Needles whose first letter does not come again
in them cannot overlap, so a search that goes on behind the last find misses
none of the places.
-/
import Mathlib

namespace TextSearch

universe u

variable {α : Type u}

/-- The needle stands in the text at that position. -/
def OccursAt (needle text : List α) (i : Nat) : Prop := needle <+: text.drop i

instance [DecidableEq α] (needle text : List α) (i : Nat) :
    Decidable (OccursAt needle text i) :=
  inferInstanceAs (Decidable (needle <+: text.drop i))

section Places

variable {needle other text : List α} {start i j : Nat}

theorem OccursAt.add_length_le (hne : needle ≠ []) (hi : OccursAt needle text i) :
    i + needle.length ≤ text.length := by
  have hlength := hi.length_le
  have hpos := List.length_pos_iff.mpr hne
  rw [List.length_drop] at hlength
  omega

theorem OccursAt.getElem? (hi : OccursAt needle text i) {k : Nat} (hk : k < needle.length) :
    text[i + k]? = needle[k]? := by
  obtain ⟨rest, hrest⟩ := hi
  rw [← List.getElem?_drop, ← hrest, List.getElem?_append_left hk]

/-- What begins behind an occurrence of a needle begins after its end, if the
needle does not have that first letter again. -/
theorem OccursAt.add_length_le_of_lt {first : α} (hother : other.head? = some first)
    (hneedle : first ∉ needle.tail) (hi : OccursAt needle text i)
    (hj : OccursAt other text j) (hlt : i < j) : i + needle.length ≤ j := by
  by_contra hinside
  have hpos : 0 < other.length := by
    refine List.length_pos_iff.mpr fun hnil => ?_
    rw [hnil] at hother
    contradiction
  have hletter : text[j]? = some first := by
    rw [← hother, List.head?_eq_getElem?]
    exact hj.getElem? hpos
  have hmiddle : text[i + (j - i)]? = needle[j - i]? := hi.getElem? (by omega)
  rw [Nat.add_sub_cancel' hlt.le, hletter] at hmiddle
  refine hneedle (List.mem_iff_getElem?.mpr ⟨j - i - 1, ?_⟩)
  rw [List.getElem?_tail, Nat.sub_add_cancel (by omega), hmiddle]

/-- The first place of the needle from `start` on. -/
def IsFirst (needle text : List α) (start i : Nat) : Prop :=
  start ≤ i ∧ OccursAt needle text i ∧ ∀ j, start ≤ j → j < i → ¬ OccursAt needle text j

theorem IsFirst.unique (hi : IsFirst needle text start i) (hj : IsFirst needle text start j) :
    i = j := by
  rcases Nat.lt_trichotomy i j with hlt | heq | hgt
  · exact absurd hi.2.1 (hj.2.2 i hi.1 hlt)
  · exact heq
  · exact absurd hj.2.1 (hi.2.2 j hj.1 hgt)

end Places

section Search

variable [DecidableEq α] {needle text : List α} {start finish i : Nat}

/-- The search for the first place from `start` on. -/
def find? (needle text : List α) (start : Nat) : Option Nat :=
  (List.range (text.length + 1)).find? fun i => start ≤ i ∧ OccursAt needle text i

theorem find?_eq_some_iff (hne : needle ≠ []) :
    find? needle text start = some i ↔ IsFirst needle text start i := by
  rw [find?, List.find?_range_eq_some, List.mem_range, Nat.lt_succ_iff]
  simp only [decide_eq_true_eq, Bool.not_eq_true', decide_eq_false_iff_not, not_and]
  constructor
  · rintro ⟨⟨hstart, hoccurs⟩, _, hbefore⟩
    exact ⟨hstart, hoccurs, fun j hj hlt => hbefore j hlt hj⟩
  · rintro ⟨hstart, hoccurs, hbefore⟩
    have hlength := hoccurs.add_length_le hne
    exact ⟨⟨hstart, hoccurs⟩, by omega, fun j hlt hj => hbefore j hj hlt⟩

theorem find?_eq_none_iff (hne : needle ≠ []) :
    find? needle text start = none ↔ ∀ i, start ≤ i → ¬ OccursAt needle text i := by
  rw [find?, List.find?_range_eq_none]
  simp only [Bool.not_eq_true', decide_eq_false_iff_not, not_and]
  constructor
  · intro hnone i hstart hoccurs
    have hlength := hoccurs.add_length_le hne
    exact hnone i (by omega) hstart hoccurs
  · intro hnone i _ hstart
    exact hnone i hstart

/-- The places of the needle from `start` up to `finish`, in order. -/
def occurrences (needle text : List α) (start finish : Nat) : List Nat :=
  (List.range finish).filter fun i => start ≤ i ∧ OccursAt needle text i

theorem mem_occurrences : i ∈ occurrences needle text start finish ↔
    start ≤ i ∧ i < finish ∧ OccursAt needle text i := by
  simp only [occurrences, List.mem_filter, List.mem_range, decide_eq_true_eq]
  tauto

theorem pairwise_occurrences (needle text : List α) (start finish : Nat) :
    (occurrences needle text start finish).Pairwise (· < ·) :=
  List.pairwise_lt_range.filter _

theorem occurrences_eq_nil (hnone : ∀ i, start ≤ i → i < finish → ¬ OccursAt needle text i) :
    occurrences needle text start finish = [] := by
  rw [List.eq_nil_iff_forall_not_mem]
  intro i hi
  obtain ⟨hstart, hfinish, hoccurs⟩ := mem_occurrences.mp hi
  exact hnone i hstart hfinish hoccurs

/-- The search may go on behind the needle that was found. -/
theorem occurrences_eq_cons {first : α} (hfirst : needle.head? = some first)
    (hneedle : first ∉ needle.tail) (hi : IsFirst needle text start i) (hfinish : i < finish) :
    occurrences needle text start finish =
      i :: occurrences needle text (i + needle.length) finish := by
  obtain ⟨hstart, hoccurs, hbefore⟩ := hi
  have hpos : 0 < needle.length := by
    refine List.length_pos_iff.mpr fun hnil => ?_
    rw [hnil] at hfirst
    contradiction
  refine (pairwise_occurrences _ _ _ _).eq_of_mem_iff (List.pairwise_cons.mpr
    ⟨fun j hj => ?_, pairwise_occurrences _ _ _ _⟩) fun j => ?_
  · have hj := (mem_occurrences.mp hj).1
    omega
  · rw [List.mem_cons, mem_occurrences, mem_occurrences]
    constructor
    · rintro ⟨hj, hjfinish, hjoccurs⟩
      rcases Nat.lt_trichotomy j i with hlt | rfl | hgt
      · exact absurd hjoccurs (hbefore j hj hlt)
      · exact .inl rfl
      · exact .inr ⟨hoccurs.add_length_le_of_lt hfirst hneedle hjoccurs hgt, hjfinish, hjoccurs⟩
    · rintro (rfl | ⟨hj, hjfinish, hjoccurs⟩)
      · exact ⟨hstart, hfinish, hoccurs⟩
      · exact ⟨by omega, hjfinish, hjoccurs⟩

end Search

end TextSearch
