/-
Path strings: their components, their lexical form, and the parts of
`boost::filesystem::path` that the file systems ask for.
-/
import SwanServer.LexicalPath
import SwanServer.Text

namespace SwanServer

open LexicalPath

/-- A segment as a path component. -/
def component (segment : Str) : Component Str :=
  if segment = ".".toList then .here
  else if segment = "..".toList then .up
  else .name segment

/-- The components of a path; a slash at the end asks for a directory, as `.`
does. -/
def components (path : Str) : List (Component Str) :=
  (segments path).map component ++
    if path.getLast? = some '/' then [.here] else []

/-- Whether a path starts at the root. -/
def isAbsolute (path : Str) : Bool := path.head? = some '/'

/-- A path after lexical elimination of `.` and `..`. -/
def lexical (path : Str) : Reduced Str :=
  (⟨isAbsolute path, 0, []⟩ : Reduced Str).follow (components path)

/-- A segment that names an entry of a directory: neither `.` nor `..`. -/
def IsName (segment : Str) : Prop :=
  segment ≠ ".".toList ∧ segment ≠ "..".toList

instance (segment : Str) : Decidable (IsName segment) :=
  inferInstanceAs (Decidable (_ ∧ _))

theorem component_of_isName {segment : Str} (hname : IsName segment) :
    component segment = .name segment := by
  rw [component, if_neg hname.1, if_neg hname.2]

theorem component_cases (segment : Str) :
    (IsName segment ∧ component segment = .name segment) ∨
      (segment = ".".toList ∧ component segment = .here) ∨
      (segment = "..".toList ∧ component segment = .up) := by
  by_cases hhere : segment = ".".toList
  · exact Or.inr (Or.inl ⟨hhere, by rw [hhere]; rfl⟩)
  · by_cases hup : segment = "..".toList
    · exact Or.inr (Or.inr ⟨hup, by rw [hup]; rfl⟩)
    · exact Or.inl ⟨⟨hhere, hup⟩, component_of_isName ⟨hhere, hup⟩⟩

theorem isName_of_not_mem {segment : Str} (hdot : '.' ∉ segment) : IsName segment := by
  constructor
  · rintro rfl
    exact hdot (by decide)
  · rintro rfl
    exact hdot (by decide)

theorem isName_of_isDigits {s : Str} (hs : IsDigits s) : IsName s :=
  isName_of_not_mem (hs.not_mem (by decide))

/-- The components of the directory part of a path. -/
def directoryComponents (dir : Str) : List (Component Str) :=
  (segments dir).map component

theorem components_append_segment (dir : Str) {segment : Str}
    (hne : segment ≠ []) (hslash : '/' ∉ segment) :
    components (dir ++ '/' :: segment) =
      directoryComponents dir ++ [component segment] := by
  have hlast : (dir ++ '/' :: segment).getLast? ≠ some '/' := by
    rw [List.getLast?_append, List.getLast?_cons, Option.some_or]
    intro heq
    have hlast := List.getLast?_eq_some_getLast hne
    rw [hlast, Option.getD_some, Option.some.injEq] at heq
    exact hslash (heq ▸ List.getLast_mem hne)
  rw [components, if_neg hlast, segments_append_slash,
    segments_of_not_mem hslash hne, List.append_nil, List.map_append,
    directoryComponents, List.map_singleton]

theorem directoryComponents_append_segment (dir : Str) {segment : Str}
    (hne : segment ≠ []) (hslash : '/' ∉ segment) :
    directoryComponents (dir ++ '/' :: segment) =
      directoryComponents dir ++ [component segment] := by
  rw [directoryComponents, segments_append_slash,
    segments_of_not_mem hslash hne, List.map_append, directoryComponents,
    List.map_singleton]

theorem isAbsolute_append {dir : Str} (hdir : dir ≠ []) (rest : Str) :
    isAbsolute (dir ++ rest) = isAbsolute dir := by
  obtain ⟨head, tail, rfl⟩ := List.exists_cons_of_ne_nil hdir
  rfl

/-- A slash at the end does not change the lexical form. -/
theorem lexical_eq_follow_directoryComponents (path : Str) :
    lexical path =
      (⟨isAbsolute path, 0, []⟩ : Reduced Str).follow (directoryComponents path) := by
  rw [lexical, components, Reduced.follow_append, directoryComponents]
  split
  · simp
  · simp

theorem lexical_append_segment {dir : Str} (hdir : dir ≠ []) {segment : Str}
    (hne : segment ≠ []) (hslash : '/' ∉ segment) :
    lexical (dir ++ '/' :: segment) = (lexical dir).step (component segment) := by
  rw [lexical_eq_follow_directoryComponents,
    directoryComponents_append_segment dir hne hslash, isAbsolute_append hdir,
    Reduced.follow_append, ← lexical_eq_follow_directoryComponents]
  rfl

/-- `path::parent_path()`: the path without its last component and the slashes
in front of that. -/
def parentPath (path : Str) : Str :=
  let front := path.reverse.dropWhile (· ≠ '/')
  let stripped := (front.dropWhile (· = '/')).reverse
  if stripped = [] ∧ isAbsolute path then "/".toList else stripped

theorem parentPath_append_segment {dir : Str} (hdir : dir ≠ [])
    (hlast : dir.getLast? ≠ some '/') {segment : Str} (hslash : '/' ∉ segment) :
    parentPath (dir ++ '/' :: segment) = dir := by
  have hfront : (dir ++ '/' :: segment).reverse.dropWhile (· ≠ '/') =
      '/' :: dir.reverse := by
    have hsegment : ∀ c ∈ segment.reverse, decide (c ≠ '/') = true := by
      intro c hc
      have hne : c ≠ '/' := fun heq => hslash (heq ▸ List.mem_reverse.mp hc)
      simpa using hne
    rw [List.reverse_append, List.reverse_cons, List.append_assoc,
      List.dropWhile_append_of_pos hsegment]
    simp
  have hstripped : ('/' :: dir.reverse).dropWhile (· = '/') = dir.reverse := by
    obtain ⟨front, last, rfl⟩ := List.eq_nil_or_concat dir |>.resolve_left hdir
    have hne : last ≠ '/' := by simpa using hlast
    simp [hne]
  simp only [parentPath, hfront, hstripped, List.reverse_reverse, hdir,
    false_and, ↓reduceIte]

/-- `path::stem()` of a file name: the name up to its last dot. -/
def stem (name : Str) : Str :=
  if name = ".".toList ∨ name = "..".toList ∨ '.' ∉ name then name
  else (name.reverse.dropWhile (· ≠ '.')).tail.reverse

theorem stem_of_not_mem {name : Str} (hname : '.' ∉ name) : stem name = name := by
  rw [stem, if_pos (Or.inr (Or.inr hname))]

theorem IsDigits.stem {s : Str} (hs : IsDigits s) : SwanServer.stem s = s :=
  stem_of_not_mem (hs.not_mem (by decide))

/-- The text of an `int` is a file name. -/
theorem toStringInt_segment (n : Int) :
    toStringInt n ≠ [] ∧ '/' ∉ toStringInt n ∧ '.' ∉ toStringInt n := by
  cases n with
  | ofNat n =>
      have hdigits := isDigits_toDigits n
      exact ⟨hdigits.1, hdigits.not_mem (by decide), hdigits.not_mem (by decide)⟩
  | negSucc n =>
      have hdigits := isDigits_toDigits (n + 1)
      simp only [toStringInt, List.mem_cons, not_or]
      exact ⟨by simp, ⟨by decide, hdigits.not_mem (by decide)⟩, by decide,
        hdigits.not_mem (by decide)⟩

theorem stem_toStringInt (n : Int) : stem (toStringInt n) = toStringInt n :=
  stem_of_not_mem (toStringInt_segment n).2.2

end SwanServer
