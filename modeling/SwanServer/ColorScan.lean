/-
The colours that `parse_html` finds on a page: all that stand between the two
marks of the first palette, each as long as a hex value with its hash sign.
-/
import SwanServer.PaletteApi

namespace SwanServer

open TextSearch

namespace PaletteApi

/-- The hex value behind the place of a colour. -/
def colorAt (html : Str) (i : Nat) : Str := (html.drop (i + colorDiv.length)).take hexLength

theorem palette_ne_nil : palette ≠ [] := by decide +kernel

theorem endDiv_ne_nil : endDiv ≠ [] := by decide +kernel

theorem head?_colorDiv : colorDiv.head? = some '<' := by decide +kernel

theorem head?_endDiv : endDiv.head? = some '<' := by decide +kernel

theorem lt_not_mem_tail_colorDiv : '<' ∉ colorDiv.tail := by decide +kernel

section Scan

variable {html : Str} {start finish i : Nat}

/-- Before the end mark there is room for a colour's mark and its value. -/
theorem add_hexLength_le (hfinish : OccursAt endDiv html finish)
    (hi : OccursAt colorDiv html i) (hlt : i < finish) :
    i + colorDiv.length + hexLength ≤ html.length := by
  have hbefore : i + colorDiv.length ≤ finish :=
    hi.add_length_le_of_lt head?_endDiv lt_not_mem_tail_colorDiv hfinish hlt
  have hend : finish + endDiv.length ≤ html.length :=
    hfinish.add_length_le endDiv_ne_nil
  have hroom : hexLength ≤ endDiv.length := by decide +kernel
  omega

theorem substr_colorAt (hfinish : OccursAt endDiv html finish)
    (hi : OccursAt colorDiv html i) (hlt : i < finish) :
    substr html (i + colorDiv.length) hexLength = .ok (colorAt html i) := by
  have hroom := add_hexLength_le hfinish hi hlt
  rw [substr, if_pos (by omega)]
  rfl

theorem length_colorAt (hfinish : OccursAt endDiv html finish)
    (hi : OccursAt colorDiv html i) (hlt : i < finish) :
    (colorAt html i).length = hexLength := by
  have hroom := add_hexLength_le hfinish hi hlt
  rw [colorAt, List.length_take, List.length_drop]
  omega

/-- From every position on, the loop collects the colours that are left. -/
theorem findColors_eq (hfinish : OccursAt endDiv html finish) (findColor : Nat) :
    findColors html finish findColor =
      .ok ((occurrences colorDiv html findColor finish).map (colorAt html)) := by
  induction findColor using findColors.induct html finish with
  | case1 findColor found hfind _ hlt ih =>
      have hfirst := (find?_eq_some_iff colorDiv_ne_nil).mp hfind
      rw [findColors]
      split
      · next other hother =>
          cases hfind.symm.trans hother
          rw [if_pos hlt, substr_colorAt hfinish hfirst.2.1 hlt, ih,
            occurrences_eq_cons head?_colorDiv lt_not_mem_tail_colorDiv hfirst hlt]
          rfl
      · next hnone =>
          rw [hfind] at hnone
          contradiction
  | case2 findColor found hfind _ hlt =>
      obtain ⟨_, _, hbefore⟩ := (find?_eq_some_iff colorDiv_ne_nil).mp hfind
      have hnone : occurrences colorDiv html findColor finish = [] :=
        occurrences_eq_nil fun i hi hifinish => hbefore i hi (by omega)
      rw [findColors, hnone]
      split
      · next other hother =>
          cases hfind.symm.trans hother
          rw [if_neg hlt]
          rfl
      · rfl
  | case3 findColor hfind =>
      have hnone : occurrences colorDiv html findColor finish = [] :=
        occurrences_eq_nil fun i hi _ => (find?_eq_none_iff colorDiv_ne_nil).mp hfind i hi
      rw [findColors, hnone]
      split
      · next hsome =>
          rw [hfind] at hsome
          contradiction
      · rfl

theorem parseHtml_of_isFirst (hstart : IsFirst palette html 0 start)
    (hfinish : IsFirst endDiv html start finish) :
    parseHtml html = .ok ((occurrences colorDiv html start finish).map (colorAt html)) := by
  have hpalette : find? palette html 0 = some start :=
    (find?_eq_some_iff palette_ne_nil).mpr hstart
  have hend : find? endDiv html start = some finish :=
    (find?_eq_some_iff endDiv_ne_nil).mpr hfinish
  rw [parseHtml, hpalette]
  simp only [Option.bind_some, hend]
  exact findColors_eq hfinish.2.1 start

theorem parseHtml_of_absent (habsent : ∀ start, IsFirst palette html 0 start →
    ∀ i, start ≤ i → ¬ OccursAt endDiv html i) : parseHtml html = .ok [] := by
  rw [parseHtml]
  cases hpalette : find? palette html 0 with
  | none => rfl
  | some start =>
      have hstart := (find?_eq_some_iff palette_ne_nil).mp hpalette
      have hend : find? endDiv html start = none :=
        (find?_eq_none_iff endDiv_ne_nil).mpr (habsent start hstart)
      simp only [Option.bind_some, hend]

/-- Either both marks are there, or nothing is found. -/
theorem parseHtml_cases (html : Str) :
    (∃ start finish, IsFirst palette html 0 start ∧ IsFirst endDiv html start finish ∧
      parseHtml html = .ok ((occurrences colorDiv html start finish).map (colorAt html))) ∨
    (∀ start, IsFirst palette html 0 start → ∀ i, start ≤ i → ¬ OccursAt endDiv html i) ∧
      parseHtml html = .ok [] := by
  by_cases hmarks : ∃ start finish, IsFirst palette html 0 start ∧ IsFirst endDiv html start finish
  · obtain ⟨start, finish, hstart, hfinish⟩ := hmarks
    exact .inl ⟨start, finish, hstart, hfinish, parseHtml_of_isFirst hstart hfinish⟩
  · have habsent : ∀ start, IsFirst palette html 0 start →
        ∀ i, start ≤ i → ¬ OccursAt endDiv html i := by
      intro start hstart
      rw [← find?_eq_none_iff endDiv_ne_nil, Option.eq_none_iff_forall_ne_some]
      intro finish hfinish
      rw [find?_eq_some_iff endDiv_ne_nil] at hfinish
      exact hmarks ⟨start, finish, hstart, hfinish⟩
    exact .inr ⟨habsent, parseHtml_of_absent habsent⟩

theorem length_of_parseHtml {colors : List Str} (hparse : parseHtml html = .ok colors) :
    ∀ color ∈ colors, color.length = hexLength := by
  intro color hcolor
  rcases parseHtml_cases html with ⟨start, finish, _, hfinish, hfound⟩ | ⟨_, hnone⟩
  · cases hfound.symm.trans hparse
    obtain ⟨i, hi, rfl⟩ := List.mem_map.mp hcolor
    obtain ⟨_, hlt, hoccurs⟩ := mem_occurrences.mp hi
    exact length_colorAt hfinish.2.1 hoccurs hlt
  · cases hnone.symm.trans hparse
    contradiction

end Scan

/-- The hash sign of a colour can be dropped. -/
theorem substr_hash {color : Str} (hcolor : color ≠ []) :
    substr color 1 color.length = .ok color.tail := by
  have hlength : 1 ≤ color.length := List.length_pos_iff.mpr hcolor
  rw [substr, if_pos hlength, List.drop_one, List.take_of_length_le]
  simp

/-- `parse_html` returns for every page: nothing where a mark is missing, and
otherwise one entry of seven characters for each colour between the marks. -/
theorem parseHtml_spec (html : Str) :
    ∃ colors, parseHtml html = .ok colors ∧
      ((∀ start, IsFirst palette html 0 start → ∀ i, start ≤ i → ¬ OccursAt endDiv html i) →
        colors = []) ∧
      (∀ start finish, IsFirst palette html 0 start → IsFirst endDiv html start finish →
        colors = (occurrences colorDiv html start finish).map (colorAt html)) ∧
      ∀ color ∈ colors, color.length = hexLength ∧
        ∃ hex, substr color 1 color.length = .ok hex := by
  have hentries : ∀ {colors}, parseHtml html = .ok colors → ∀ color ∈ colors,
      color.length = hexLength ∧ ∃ hex, substr color 1 color.length = .ok hex := by
    intro colors hparse color hcolor
    have hlength := length_of_parseHtml hparse color hcolor
    refine ⟨hlength, _, substr_hash ?_⟩
    rintro rfl
    contradiction
  rcases parseHtml_cases html with ⟨start, finish, hstart, hfinish, hparse⟩ | ⟨habsent, hparse⟩
  · refine ⟨_, hparse, ?_, ?_, hentries hparse⟩
    · intro habsent
      exact absurd hfinish.2.1 (habsent start hstart finish hfinish.1)
    · intro other last hother hlast
      exact Except.ok.inj (hparse.symm.trans (parseHtml_of_isFirst hother hlast))
  · refine ⟨[], hparse, fun _ => rfl, ?_, hentries hparse⟩
    intro start finish hstart hfinish
    exact absurd hfinish.2.1 (habsent start hstart finish hfinish.1)

end PaletteApi

end SwanServer
