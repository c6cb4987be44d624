/-
The root of a static location.  The handler replaces the first character of the
root by `../`, which is right for a root written as `./name`; of any other root it
takes a letter away.
-/
import SwanServer.StaticHandler

namespace SwanServer

open LexicalPath

/-- The text before the first slash of a path. -/
def firstSegment (path : Str) : Str := path.takeWhile (· ≠ '/')

/-- The text from the first slash of a path on. -/
def afterFirst (path : Str) : Str := path.dropWhile (· ≠ '/')

/-- The directory above the working directory. -/
def upOne : Reduced Str := ⟨false, 1, []⟩

/-- The first character of the root may go: there is no segment before its first
slash, or that is `.`, or it is a name and one without its first character, and
what follows leaves that directory again. -/
def FirstMayGo (root rest : Str) : Prop :=
  firstSegment root = [] ∨ firstSegment root = ".".toList ∨
    (IsName (firstSegment root) ∧
      (firstSegment root).tail ≠ [] ∧ IsName (firstSegment root).tail ∧
      0 < (Reduced.nil.follow (directoryComponents (afterFirst root ++ '/' :: rest))).ups)

theorem slash_not_mem_firstSegment (path : Str) : '/' ∉ firstSegment path := by
  intro hmem
  simpa using List.mem_takeWhile_imp hmem

theorem firstSegment_append_afterFirst (path : Str) :
    firstSegment path ++ afterFirst path = path :=
  List.takeWhile_append_dropWhile

/-- What follows the first segment of a root starts with a slash. -/
theorem exists_afterFirst_eq (root rest : Str) :
    ∃ more, afterFirst root ++ '/' :: rest = '/' :: more := by
  induction root with
  | nil => exact ⟨rest, rfl⟩
  | cons c tail ih =>
      by_cases hc : c = '/'
      · exact ⟨tail ++ '/' :: rest, by simp [afterFirst, hc]⟩
      · have hskip : afterFirst (c :: tail) = afterFirst tail := by simp [afterFirst, hc]
        rw [hskip]
        exact ih

theorem directoryComponents_append_slash (front back : Str) :
    directoryComponents (front ++ '/' :: back) =
      directoryComponents front ++ directoryComponents back := by
  rw [directoryComponents, segments_append_slash, List.map_append]
  rfl

theorem directoryComponents_slash (back : Str) :
    directoryComponents ('/' :: back) = directoryComponents back := by
  rw [directoryComponents, segments_slash_cons]
  rfl

theorem directoryComponents_segment {segment : Str} (hne : segment ≠ [])
    (hslash : '/' ∉ segment) : directoryComponents segment = [component segment] := by
  rw [directoryComponents, segments_of_not_mem hslash hne, List.map_singleton]

theorem lexical_up (path : Str) :
    lexical ("../".toList ++ path) = upOne.follow (directoryComponents path) := by
  have hup : "../".toList ++ path = "..".toList ++ '/' :: path := rfl
  rw [lexical_eq_follow_directoryComponents, hup, directoryComponents_append_slash,
    Reduced.follow_append]
  rfl

/-- Paths of different depth lead to different paths, whatever follows. -/
theorem append_ne_of_depth {first second : Reduced Str} (hfirst : first.absolute = false)
    (hsecond : second.absolute = false) (hdepth : first.depth ≠ second.depth)
    (tail : Reduced Str) : first.append tail ≠ second.append tail := by
  intro heq
  have hsame := congrArg Reduced.depth heq
  rw [Reduced.depth_append hfirst, Reduced.depth_append hsecond] at hsame
  omega

/-- A name that loses its first character leads to the same path exactly if it
stays a name, and what follows leaves it again. -/
theorem follow_tail_append_eq_iff_of_isName {c : Char} {rest : Str} (hname : IsName (c :: rest))
    (hrest : '/' ∉ rest) (tail : Reduced Str) :
    (upOne.follow (directoryComponents rest)).append tail =
        (upOne.step (.name (c :: rest))).append tail ↔
      rest ≠ [] ∧ IsName rest ∧ 0 < tail.ups := by
  have hdepth : (upOne.step (.name (c :: rest))).depth = 0 := rfl
  by_cases hne : rest = []
  · subst hne
    refine iff_of_false (append_ne_of_depth rfl rfl (by rw [hdepth]; decide) tail) ?_
    exact fun h => h.1 rfl
  · rw [directoryComponents_segment hne hrest, Reduced.follow_cons, Reduced.follow_nil]
    rcases component_cases rest with ⟨hrestName, hcomponent⟩ | ⟨rfl, hcomponent⟩ |
        ⟨rfl, hcomponent⟩
    · have hlonger : rest ≠ c :: rest := fun heq => by simpa using congrArg List.length heq
      rw [hcomponent, Reduced.step_name_append_eq_iff]
      simp [hne, hrestName, hlonger]
    · rw [hcomponent]
      refine iff_of_false (append_ne_of_depth rfl rfl (by rw [hdepth]; decide) tail) ?_
      exact fun h => h.2.1.1 rfl
    · rw [hcomponent]
      refine iff_of_false (append_ne_of_depth rfl rfl (by rw [hdepth]; decide) tail) ?_
      exact fun h => h.2.1.2 rfl

/-- A segment that loses its first character leads to the same path exactly if it
is empty or `.`, or a name as before, and what follows leaves it again. -/
theorem follow_tail_append_eq_iff {segment : Str} (hslash : '/' ∉ segment)
    (tail : Reduced Str) :
    (upOne.follow (directoryComponents segment.tail)).append tail =
        (upOne.follow (directoryComponents segment)).append tail ↔
      segment = [] ∨ segment = ".".toList ∨
        (IsName segment ∧ segment.tail ≠ [] ∧ IsName segment.tail ∧ 0 < tail.ups) := by
  cases segment with
  | nil => simp
  | cons c rest =>
      have hrest : '/' ∉ rest := fun hmem => hslash (List.mem_cons_of_mem c hmem)
      rw [directoryComponents_segment (List.cons_ne_nil c rest) hslash, Reduced.follow_cons,
        Reduced.follow_nil, List.tail_cons]
      rcases component_cases (c :: rest) with ⟨hname, hcomponent⟩ | ⟨hdot, hcomponent⟩ |
          ⟨hdots, hcomponent⟩
      · have hdot : c :: rest ≠ ".".toList := hname.1
        rw [hcomponent, follow_tail_append_eq_iff_of_isName hname hrest]
        simp only [List.cons_ne_nil, hdot, hname, true_and, false_or]
      · obtain ⟨rfl, rfl⟩ := List.cons.inj hdot
        exact iff_of_true rfl (Or.inr (Or.inl rfl))
      · obtain ⟨rfl, rfl⟩ := List.cons.inj hdots
        refine iff_of_false (append_ne_of_depth rfl rfl (by decide) tail) ?_
        rintro (hnil | hdot | ⟨hname, -⟩)
        · cases hnil
        · cases hdot
        · exact hname.2 rfl

namespace StaticHandler

variable (handler : StaticHandler)

/-- The path that a target stands for: what follows the location, below the root,
which is below the directory above the working directory. -/
def rootedPath (rest : Str) : Str :=
  "../".toList ++ handler.rootFilePath ++ "/".toList ++ rest

theorem lexical_rootedPath {rest more : Str}
    (hmore : afterFirst handler.rootFilePath ++ '/' :: rest = '/' :: more) :
    lexical (handler.rootedPath rest) =
      (upOne.follow (directoryComponents (firstSegment handler.rootFilePath))).append
        (Reduced.nil.follow (directoryComponents more)) := by
  have hpath : handler.rootedPath rest =
      "../".toList ++ (firstSegment handler.rootFilePath ++ '/' :: more) := by
    rw [← hmore, ← List.append_assoc, ← List.append_assoc, List.append_assoc "../".toList,
      firstSegment_append_afterFirst, rootedPath]
    simp
  rw [hpath, lexical_up, directoryComponents_append_slash, Reduced.follow_append,
    Reduced.follow_eq_append]

theorem lexical_remap_eq {target rest more : Str}
    (hrest : target.drop handler.location.length = rest)
    (hmore : afterFirst handler.rootFilePath ++ '/' :: rest = '/' :: more) :
    lexical (handler.remap target) =
      (upOne.follow (directoryComponents (firstSegment handler.rootFilePath).tail)).append
        (Reduced.nil.follow (directoryComponents more)) := by
  have hroot : handler.rootFilePath ++ "/".toList ++ rest =
      firstSegment handler.rootFilePath ++ '/' :: more := by
    rw [← hmore, ← List.append_assoc, firstSegment_append_afterFirst]
    simp
  rw [remap, hrest, hroot]
  cases hfirst : firstSegment handler.rootFilePath with
  | nil =>
      rw [List.nil_append, List.drop_one, List.tail_cons, lexical_up]
      exact Reduced.follow_eq_append _ _
  | cons c others =>
      rw [List.cons_append, List.drop_one, List.tail_cons, List.tail_cons, lexical_up,
        directoryComponents_append_slash, Reduced.follow_append, Reduced.follow_eq_append]

/-- What is opened for a target below the location is the rest of the target below
the root exactly if the first character of the root may go. -/
theorem lexical_targetPath_iff {httpRequest : Request} {rest : Str}
    (htarget : cStr httpRequest.target = handler.location ++ rest) :
    lexical (handler.targetPath httpRequest) = lexical (handler.rootedPath rest) ↔
      FirstMayGo handler.rootFilePath rest := by
  have hrest : (cStr httpRequest.target).drop handler.location.length = rest := by
    rw [htarget, List.drop_left]
  obtain ⟨more, hmore⟩ := exists_afterFirst_eq handler.rootFilePath rest
  rw [targetPath, handler.lexical_remap_eq hrest hmore, handler.lexical_rootedPath hmore,
    follow_tail_append_eq_iff (slash_not_mem_firstSegment _), FirstMayGo, hmore,
    directoryComponents_slash]

end StaticHandler

namespace StaticRootsWitness

/-- A root written as `./name`. -/
def dotted : StaticHandler := ⟨"/static/".toList, "./files".toList⟩

def request : Request := ⟨"GET".toList, "/static/a.txt".toList, []⟩

theorem lexical_targetPath_dotted :
    lexical (dotted.targetPath request) = lexical (dotted.rootedPath "a.txt".toList) :=
  (dotted.lexical_targetPath_iff (by decide)).mpr (Or.inr (Or.inl (by decide)))

/-- The same root without the dot. -/
def plain : StaticHandler := ⟨"/static/".toList, "files".toList⟩

/-- Its first letter is lost. -/
theorem lexical_targetPath_plain :
    cStr request.target = plain.location ++ "a.txt".toList ∧
      plain.targetPath request = "../iles/a.txt".toList ∧
      lexical (plain.targetPath request) ≠ lexical (plain.rootedPath "a.txt".toList) := by
  decide

end StaticRootsWitness

end SwanServer
