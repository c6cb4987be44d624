/-
The map from handler types and locations to roots, read off the locations of a
config one after the other.  An insertion keeps what is there, so for every key
the first location that provides it is the one that counts.
-/
import SwanServer.ConsumerSafety
import SwanServer.FactoryMap

namespace SwanServer

open ExceptLoops

namespace NginxConfigStatement

variable {filesystemMap later : FilesystemMap} {location : NginxConfigStatement}

/-- The first argument in the block of a location. -/
def argument? (location : NginxConfigStatement) : Option Str := do
  let lines ← location.childBlock
  let line ← lines.head?
  line.tokens[1]?

/-- The location goes under this key of the map for this handler type. -/
def HasKey (handlerType key : Str) (location : NginxConfigStatement) : Prop :=
  location.tokens[2]? = some handlerType ∧
    location.tokens[1]?.map handleTrailingSlashes = some key

instance (handlerType key : Str) (location : NginxConfigStatement) :
    Decidable (location.HasKey handlerType key) := inferInstanceAs (Decidable (_ ∧ _))

/-- What a location has for a key. -/
def provides? (handlerType key : Str) (location : NginxConfigStatement) : Option Str :=
  if location.HasKey handlerType key then location.argument? else none

/-- A line of a location inserts its second token under the key of the location. -/
theorem extractLine_eq_ok {line : NginxConfigStatement}
    (hlater : location.extractLine filesystemMap line = .ok later) :
    ∃ token handlerType root, location.tokens[1]? = some token ∧
      location.tokens[2]? = some handlerType ∧ line.tokens[1]? = some root ∧
      later = filesystemMap.insertLocation handlerType (handleTrailingSlashes token) root := by
  simp only [extractLine, bind_eq_ok_iff, tokenAt_eq_ok_iff] at hlater
  obtain ⟨token, htoken, handlerType, htype, root, hroot, hinsert⟩ := hlater
  cases hinsert
  exact ⟨token, handlerType, root, htoken, htype, hroot, rfl⟩

/-- A line adds its second token under the key of the location, unless there is
something. -/
theorem find?_extractLine {line : NginxConfigStatement}
    (hlater : location.extractLine filesystemMap line = .ok later) (handlerType key : Str) :
    (later.at handlerType).find? key =
      ((filesystemMap.at handlerType).find? key).or
        (if location.HasKey handlerType key then line.tokens[1]? else none) := by
  obtain ⟨token, otherType, root, htoken, htype, hroot, rfl⟩ := extractLine_eq_ok hlater
  have hkeys : location.HasKey handlerType key ↔
      otherType = handlerType ∧ handleTrailingSlashes token = key := by
    rw [HasKey, htoken, htype, Option.map_some, Option.some_inj, Option.some_inj]
  rw [FilesystemMap.at_insertLocation]
  by_cases hhandler : handlerType = otherType
  · rw [if_pos hhandler, OrderedMap.find?_insert]
    by_cases hkey : key = handleTrailingSlashes token
    · rw [if_pos hkey, if_pos (hkeys.mpr ⟨hhandler.symm, hkey.symm⟩), hroot, hkey]
      cases (filesystemMap.at handlerType).find? (handleTrailingSlashes token) <;> rfl
    · rw [if_neg hkey, if_neg fun hboth => hkey (hkeys.mp hboth).2.symm, Option.or_none]
  · rw [if_neg hhandler, if_neg fun hboth => hhandler (hkeys.mp hboth).1.symm, Option.or_none]

/-- A location adds what it provides, unless there is something. -/
theorem find?_extractLines (hlater : location.extractLines filesystemMap = .ok later)
    (handlerType key : Str) :
    (later.at handlerType).find? key =
      ((filesystemMap.at handlerType).find? key).or (location.provides? handlerType key) := by
  rw [extractLines, bind_eq_ok_iff] at hlater
  obtain ⟨lines, hlines, hfold⟩ := hlater
  have hchild : location.childBlock = some lines := by
    rw [childStatements] at hlines
    split at hlines
    · next child hchild => rw [hchild, Except.ok.inj hlines]
    · contradiction
  have hargument : location.argument? = lines.head?.bind fun line => line.tokens[1]? := by
    rw [argument?, hchild]
    rfl
  rw [provides?, hargument]
  clear hchild hargument hlines
  induction lines generalizing filesystemMap with
  | nil =>
      cases hfold
      simp
  | cons line rest ih =>
      rw [List.foldlM_cons, bind_eq_ok_iff] at hfold
      obtain ⟨next, hnext, hrest⟩ := hfold
      obtain ⟨token, otherType, root, -, -, hroot, -⟩ := extractLine_eq_ok hnext
      rw [ih hrest, find?_extractLine hnext, List.head?_cons, Option.bind_some, hroot,
        Option.or_assoc]
      congr 1
      by_cases hkey : location.HasKey handlerType key
      · rw [if_pos hkey, if_pos hkey, Option.some_or]
      · rw [if_neg hkey, if_neg hkey, Option.none_or]

end NginxConfigStatement

namespace NginxConfig

variable {filesystemMap later : FilesystemMap} {config : NginxConfig}

/-- What the first location that provides a key has for it. -/
def firstArgument? (config : NginxConfig) (handlerType key : Str) : Option Str :=
  config.locations.findSome? fun location => location.provides? handlerType key

theorem find?_foldlM_extractLines {locations : List NginxConfigStatement}
    (hlater : locations.foldlM NginxConfigStatement.extractLines filesystemMap = .ok later)
    (handlerType key : Str) :
    (later.at handlerType).find? key =
      ((filesystemMap.at handlerType).find? key).or
        (locations.findSome? fun location => location.provides? handlerType key) := by
  induction locations generalizing filesystemMap with
  | nil =>
      cases hlater
      simp
  | cons location rest ih =>
      rw [List.foldlM_cons, bind_eq_ok_iff] at hlater
      obtain ⟨next, hnext, hrest⟩ := hlater
      rw [ih hrest, NginxConfigStatement.find?_extractLines hnext, Option.or_assoc,
        List.findSome?_cons]
      cases location.provides? handlerType key <;> simp

/-- The map, key by key, after `extract_filesystem_map`. -/
theorem find?_extractFilesystemMap_eq_or (hconfig : config.Headed)
    (hlater : config.extractFilesystemMap filesystemMap = .ok later) (handlerType key : Str) :
    (later.at handlerType).find? key =
      ((filesystemMap.at handlerType).find? key).or (config.firstArgument? handlerType key) := by
  rw [extractFilesystemMap_eq_foldlM_locations filesystemMap hconfig] at hlater
  exact find?_foldlM_extractLines hlater handlerType key

/-- The shape of a config in the documentation: every location has a path and a
handler type, and a block of at most one line with an argument. -/
structure Documented (config : NginxConfig) : Prop extends config.Headed where
  location : ∀ location ∈ config.locations, 3 ≤ location.tokens.length ∧
    ∃ lines, location.childBlock = some lines ∧ lines.length ≤ 1 ∧
      ∀ line ∈ lines, 2 ≤ line.tokens.length

/-- `extract_filesystem_map` called a number of times on one config. -/
def extractCalls (config : NginxConfig) : Nat → FilesystemMap → Except Fault FilesystemMap
  | 0, filesystemMap => .ok filesystemMap
  | calls + 1, filesystemMap => do
      config.extractCalls calls (← config.extractFilesystemMap filesystemMap)

theorem Documented.exists_extractFilesystemMap (hconfig : config.Documented)
    (filesystemMap : FilesystemMap) :
    ∃ later, config.extractFilesystemMap filesystemMap = .ok later := by
  rw [extractFilesystemMap_eq_foldlM_locations filesystemMap hconfig.toHeaded,
    exists_foldlM_iff fun state location => location.exists_extractLines_iff state]
  intro location hlocation
  obtain ⟨hlength, lines, hlines, -, harguments⟩ := hconfig.location location hlocation
  exact ⟨lines, hlines, fun line hline => ⟨hlength, harguments line hline⟩⟩

/-- Calls after the first one change nothing. -/
theorem Documented.exists_extractCalls (hconfig : config.Documented) (calls : Nat)
    (filesystemMap : FilesystemMap) :
    ∃ later, config.extractCalls (calls + 1) filesystemMap = .ok later ∧
      ∀ handlerType key, (later.at handlerType).find? key =
        ((filesystemMap.at handlerType).find? key).or
          (config.firstArgument? handlerType key) := by
  induction calls generalizing filesystemMap with
  | zero =>
      obtain ⟨next, hnext⟩ := hconfig.exists_extractFilesystemMap filesystemMap
      refine ⟨next, ?_, find?_extractFilesystemMap_eq_or hconfig.toHeaded hnext⟩
      rw [extractCalls, hnext]
      rfl
  | succ calls ih =>
      obtain ⟨next, hnext⟩ := hconfig.exists_extractFilesystemMap filesystemMap
      obtain ⟨later, hlater, hfind⟩ := ih next
      refine ⟨later, ?_, ?_⟩
      · rw [extractCalls, hnext]
        exact hlater
      · intro handlerType key
        rw [hfind, find?_extractFilesystemMap_eq_or hconfig.toHeaded hnext, Option.or_assoc,
          Option.or_self]

/-- A location provides its key exactly if its block is not empty. -/
theorem Documented.exists_provides?_iff (hconfig : config.Documented)
    {location : NginxConfigStatement} (hlocation : location ∈ config.locations)
    (handlerType key : Str) :
    (∃ argument, location.provides? handlerType key = some argument) ↔
      location.childBlock ≠ some [] ∧ location.HasKey handlerType key := by
  obtain ⟨-, lines, hlines, -, harguments⟩ := hconfig.location location hlocation
  have hargument : (∃ argument, location.argument? = some argument) ↔
      location.childBlock ≠ some [] := by
    rw [NginxConfigStatement.argument?, hlines]
    cases lines with
    | nil => simp
    | cons line rest =>
        have hlength : 1 < line.tokens.length := harguments line List.mem_cons_self
        simpa [← Option.isSome_iff_exists] using hlength
  rw [NginxConfigStatement.provides?, ← hargument]
  by_cases hkey : location.HasKey handlerType key <;> simp [hkey]

theorem Documented.exists_firstArgument?_iff (hconfig : config.Documented)
    (handlerType key : Str) :
    (∃ argument, config.firstArgument? handlerType key = some argument) ↔
      ∃ location ∈ config.locations,
        location.childBlock ≠ some [] ∧ location.HasKey handlerType key := by
  rw [firstArgument?, ← Option.isSome_iff_exists, List.isSome_findSome?, List.any_eq_true]
  refine exists_congr fun location => and_congr_right fun hlocation => ?_
  rw [Option.isSome_iff_exists, hconfig.exists_provides?_iff hlocation]

end NginxConfig

/-- Two location paths differ in the slashes at their ends only. -/
def SameUpToSlashes (first second : Str) : Prop :=
  ∃ stem m n, first = stem ++ List.replicate m '/' ∧ second = stem ++ List.replicate n '/'

theorem exists_eq_append_replicate (token : Str) :
    ∃ n, token = token.rdropWhile (· = '/') ++ List.replicate n '/' := by
  have hend : ∀ c ∈ token.rtakeWhile (· = '/'), c = '/' := by
    intro c hc
    simpa using List.mem_rtakeWhile_imp hc
  refine ⟨(token.rtakeWhile (· = '/')).length, ?_⟩
  rw [← List.eq_replicate_of_mem hend, List.rdropWhile_append_rtakeWhile]

theorem rdropWhile_append_replicate (stem : Str) (n : Nat) :
    (stem ++ List.replicate n '/').rdropWhile (· = '/') = stem.rdropWhile (· = '/') := by
  induction n with
  | zero => simp
  | succ n ih =>
      rw [List.replicate_succ', ← List.append_assoc, List.rdropWhile_concat_pos _ _ _ (by simp),
        ih]

/-- Location paths share their key exactly if they differ in the slashes at their
ends only. -/
theorem handleTrailingSlashes_eq_iff (first second : Str) :
    handleTrailingSlashes first = handleTrailingSlashes second ↔
      SameUpToSlashes first second := by
  rw [handleTrailingSlashes, handleTrailingSlashes, List.append_left_inj]
  constructor
  · intro hsame
    obtain ⟨m, hfirst⟩ := exists_eq_append_replicate first
    obtain ⟨n, hsecond⟩ := exists_eq_append_replicate second
    rw [← hsame] at hsecond
    exact ⟨_, m, n, hfirst, hsecond⟩
  · rintro ⟨stem, m, n, rfl, rfl⟩
    rw [rdropWhile_append_replicate, rdropWhile_append_replicate]

/-- Locations of one handler type have a key in common exactly if their paths
differ in the slashes at their ends only. -/
theorem NginxConfigStatement.exists_hasKey_iff {first second : NginxConfigStatement}
    {handlerType : Str} (hfirst : first.tokens[2]? = some handlerType)
    (hsecond : second.tokens[2]? = some handlerType) :
    (∃ key, first.HasKey handlerType key ∧ second.HasKey handlerType key) ↔
      ∃ path other, first.tokens[1]? = some path ∧ second.tokens[1]? = some other ∧
        SameUpToSlashes path other := by
  simp only [HasKey, hfirst, hsecond, true_and, Option.map_eq_some_iff]
  constructor
  · rintro ⟨key, ⟨path, hpath, hkey⟩, other, hother, hsame⟩
    exact ⟨path, other, hpath, hother, (handleTrailingSlashes_eq_iff path other).mp (by
      rw [hkey, hsame])⟩
  · rintro ⟨path, other, hpath, hother, hsame⟩
    exact ⟨_, ⟨path, hpath, rfl⟩, other, hother,
      ((handleTrailingSlashes_eq_iff path other).mpr hsame).symm⟩

/-- However often it is called, `extract_filesystem_map` leaves for each handler
type the keys of its locations that hold a line, each with the argument of the
first of them. -/
theorem extractCalls_fresh {config : NginxConfig} (hconfig : config.Documented)
    (calls : Nat) :
    ∃ later, config.extractCalls (calls + 1) OrderedMap.empty = .ok later ∧
      ∀ handlerType,
        (∀ key, key ∈ (later.at handlerType).keys ↔
          ∃ location ∈ config.locations,
            location.childBlock ≠ some [] ∧ location.HasKey handlerType key) ∧
        (∀ key, (later.at handlerType).find? key =
          config.locations.findSome? fun location => location.provides? handlerType key) ∧
        ∀ first ∈ config.locations, ∀ second ∈ config.locations,
          first.tokens[2]? = some handlerType → second.tokens[2]? = some handlerType →
            ((∃ key, first.HasKey handlerType key ∧ second.HasKey handlerType key) ↔
              ∃ path other, first.tokens[1]? = some path ∧ second.tokens[1]? = some other ∧
                SameUpToSlashes path other) := by
  obtain ⟨later, hlater, hfind⟩ := hconfig.exists_extractCalls calls OrderedMap.empty
  refine ⟨later, hlater, ?_⟩
  intro handlerType
  have hfresh : ∀ key, (later.at handlerType).find? key =
      config.firstArgument? handlerType key := fun key => hfind handlerType key
  refine ⟨?_, hfresh, ?_⟩
  · intro key
    rw [OrderedMap.mem_keys, hfresh]
    exact hconfig.exists_firstArgument?_iff handlerType key
  · intro first _ second _ hfirst hsecond
    exact NginxConfigStatement.exists_hasKey_iff hfirst hsecond

section Validation

variable {isRelative : Str → Bool} {text : Str} {config : NginxConfig} {later : FilesystemMap}

/-- What is mapped stands in the place of a path. -/
theorem NginxConfig.mem_paths_of_firstArgument? {handlerType key root : Str}
    (hroot : config.firstArgument? handlerType key = some root) : some root ∈ config.paths := by
  obtain ⟨location, hlocation, hprovides⟩ := List.exists_of_findSome?_eq_some hroot
  rw [NginxConfigStatement.provides?] at hprovides
  split at hprovides
  · rw [NginxConfigStatement.argument?, Option.bind_eq_bind, Option.bind_eq_some_iff] at hprovides
    obtain ⟨lines, hlines, hline⟩ := hprovides
    rw [Option.bind_eq_bind, Option.bind_eq_some_iff] at hline
    obtain ⟨line, hhead, hargument⟩ := hline
    apply List.mem_flatMap_of_mem hlocation
    rw [NginxConfigStatement.paths, hlines]
    exact List.mem_map.mpr ⟨line, List.mem_of_mem_head? hhead, hargument⟩
  · contradiction

/-- The tree of a file that is accepted has no path that is not relative. -/
theorem isRelative_of_parseFile (hparse : parseFile isRelative text = .ok (true, config)) :
    NginxConfig.Worded config ∧ ∀ path, some path ∈ config.paths → isRelative path = true := by
  cases hresult : parse [] text with
  | error fault =>
      rw [parseFile, hresult] at hparse
      contradiction
  | ok result =>
      obtain ⟨accepted, tree⟩ := result
      obtain ⟨hvalid, -, rfl⟩ := (parseFile_eq_true_iff isRelative hresult config).mp hparse
      have hworded := worded_of_parse hresult
      refine ⟨hworded, ?_⟩
      intro path hpath
      obtain ⟨other, heq, hrelative⟩ :=
        (NginxConfig.validateRelativePaths_eq_true_iff isRelative hworded).mp hvalid _ hpath
      cases heq
      exact hrelative

/-- Every path that is mapped, and so every path that a factory is built with, was
found to be relative. -/
theorem isRelative_of_find? (hparse : parseFile isRelative text = .ok (true, config))
    (hextract : config.extractFilesystemMap OrderedMap.empty = .ok later) :
    (∀ handlerType key root,
        (later.at handlerType).find? key = some root → isRelative root = true) ∧
      ∀ (kind : LocationKind) key location root,
        (createFactoryMap later).find? key = some (some (kind.factory location root)) →
          isRelative root = true := by
  obtain ⟨hworded, hrelative⟩ := isRelative_of_parseFile hparse
  have hmapped : ∀ handlerType key root,
      (later.at handlerType).find? key = some root → isRelative root = true := by
    intro handlerType key root hroot
    rw [NginxConfig.find?_extractFilesystemMap_eq_or hworded.headed hextract] at hroot
    exact hrelative root (NginxConfig.mem_paths_of_firstArgument? hroot)
  refine ⟨hmapped, ?_⟩
  intro kind key location root hfactory
  rw [find?_createFactoryMap, Option.or_eq_some_iff, Option.or_eq_some_iff] at hfactory
  rcases hfactory with (hbuiltIn | ⟨-, hstatic⟩) | ⟨-, hapi⟩
  · have hmem := OrderedMap.mem_of_firstValue? hbuiltIn
    cases kind <;> simp [builtInRoutes, LocationKind.factory] at hmem
  · obtain ⟨path, hpath, hsame⟩ := Option.map_eq_some_iff.mp hstatic
    cases kind with
    | static =>
        cases hsame
        exact hmapped _ _ _ hpath
    | api => cases hsame
  · obtain ⟨path, hpath, hsame⟩ := Option.map_eq_some_iff.mp hapi
    cases kind with
    | static => cases hsame
    | api =>
        cases hsame
        exact hmapped _ _ _ hpath

end Validation

namespace ConfigExtractionWitness

def location (path root : Str) : NginxConfigStatement :=
  .mk ["location".toList, path, "StaticHandler".toList]
    (some [.mk ["root".toList, root] none])

/-- Two servers, the second one with a path that differs from that of the first in a
slash at its end. -/
def servers : NginxConfig :=
  [.mk ["server".toList] (some [location "/a".toList "b".toList]),
    .mk ["server".toList] (some [location "/a/".toList "c".toList])]

theorem documented_servers : servers.Documented where
  statement := by decide
  blockLine := by decide
  location := by
    have hlocations : servers.locations =
      [location "/a".toList "b".toList, location "/a/".toList "c".toList] := rfl
    rw [hlocations]
    simp only [List.forall_mem_cons, List.not_mem_nil, false_implies, implies_true, and_true]
    exact ⟨⟨by decide, _, rfl, by decide, by decide⟩, by decide, _, rfl, by decide, by decide⟩

/-- Two calls leave the root of the first server. -/
theorem extractCalls_servers :
    ∃ later, servers.extractCalls 2 OrderedMap.empty = .ok later ∧
      (later.at "StaticHandler".toList).find? "/a/".toList = some "b".toList := by
  obtain ⟨later, hlater, hmap⟩ := extractCalls_fresh documented_servers 1
  exact ⟨later, hlater, (hmap "StaticHandler".toList).2.1 "/a/".toList⟩

/-- The tree of the example of a complete server. -/
def complete : NginxConfig := [.mk ["server".toList] (some [location "/a".toList "b".toList])]

theorem parseFile_complete :
    parseFile ConsumerSafetyWitness.isRelative ConsumerSafetyWitness.complete =
      .ok (true, complete) := by
  rw [parseFile_eq _ ConsumerSafetyWitness.parse_complete]
  rfl

def mapped : FilesystemMap :=
  FilesystemMap.insertLocation OrderedMap.empty "StaticHandler".toList "/a/".toList "b".toList

theorem extract_complete :
    complete.extractFilesystemMap OrderedMap.empty = .ok mapped := rfl

theorem isRelative_complete : ConsumerSafetyWitness.isRelative "b".toList = true :=
  (isRelative_of_find? parseFile_complete extract_complete).1 "StaticHandler".toList
    "/a/".toList "b".toList (by decide +kernel)

end ConfigExtractionWitness

end SwanServer
