/-
When reading a config stays within the tokens of its statements and follows no
null pointer.  Both functions visit the locations of all servers in turn; the
parser grants them a first token and nothing else.
-/
import SwanServer.ConfigConsumers
import SwanServer.ConfigWords
import SwanServer.ExceptLoops

namespace SwanServer

open ExceptLoops

namespace NginxConfigStatement

/-- The statements of a block that start with a word. -/
def startingWith (name : Str) (config : NginxConfig) : NginxConfig :=
  config.filter fun statement => statement.tokens.head? = some name

/-- What the lines of a location hold in the place of the path, `none` being a
line that ends before, or a location without a block. -/
def paths (location : NginxConfigStatement) : List (Option Str) :=
  match location.childBlock with
  | none => [none]
  | some lines => lines.map fun line => line.tokens[1]?

/-- Reading in the place of a path. -/
def readPath (isRelative : Str → Bool) : Option Str → Except Fault Bool
  | none => .error .undefinedBehaviour
  | some path => .ok (isRelative path)

theorem validateLines_eq (isRelative : Str → Bool) (location : NginxConfigStatement) :
    location.validateLines isRelative = location.paths.allM (readPath isRelative) := by
  have hline : ∀ line : NginxConfigStatement,
      (do return isRelative (← line.tokenAt 1) : Except Fault Bool) =
        readPath isRelative line.tokens[1]? := by
    intro line
    rw [tokenAt]
    cases line.tokens[1]? <;> rfl
  rw [validateLines, paths, childStatements]
  cases location.childBlock with
  | none => rfl
  | some lines =>
      rw [allM_map]
      exact allM_congr fun line _ => hline line

theorem tokenAt_eq_ok_iff (statement : NginxConfigStatement) (i : Nat) (token : Str) :
    statement.tokenAt i = .ok token ↔ statement.tokens[i]? = some token := by
  rw [tokenAt]
  cases statement.tokens[i]? <;> simp

theorem exists_tokenAt_iff (statement : NginxConfigStatement) (i : Nat) :
    (∃ token, statement.tokenAt i = .ok token) ↔ i < statement.tokens.length := by
  simp only [tokenAt_eq_ok_iff]
  rw [← Option.isSome_iff_exists]
  simp

/-- A line can be mapped if the location has three tokens and the line two. -/
theorem exists_extractLine_iff (location : NginxConfigStatement)
    (filesystemMap : FilesystemMap) (line : NginxConfigStatement) :
    (∃ later, location.extractLine filesystemMap line = .ok later) ↔
      3 ≤ location.tokens.length ∧ 2 ≤ line.tokens.length := by
  rw [← Nat.lt_iff_add_one_le, ← Nat.lt_iff_add_one_le, ← exists_tokenAt_iff,
    ← exists_tokenAt_iff]
  simp only [extractLine, bind_eq_ok_iff]
  constructor
  · rintro ⟨later, token, -, handlerType, htype, root, hroot, -⟩
    exact ⟨⟨handlerType, htype⟩, ⟨root, hroot⟩⟩
  · rintro ⟨⟨handlerType, htype⟩, ⟨root, hroot⟩⟩
    have hlength : 2 < location.tokens.length :=
      (exists_tokenAt_iff location 2).mp ⟨handlerType, htype⟩
    obtain ⟨token, htoken⟩ := (exists_tokenAt_iff location 1).mpr (by omega)
    exact ⟨_, token, htoken, handlerType, htype, root, hroot, rfl⟩

theorem exists_extractLines_iff (location : NginxConfigStatement)
    (filesystemMap : FilesystemMap) :
    (∃ later, location.extractLines filesystemMap = .ok later) ↔
      ∃ lines, location.childBlock = some lines ∧
        ∀ line ∈ lines, 3 ≤ location.tokens.length ∧ 2 ≤ line.tokens.length := by
  simp only [extractLines, bind_eq_ok_iff, childStatements]
  cases location.childBlock with
  | none => simp
  | some lines =>
      have hfold := exists_foldlM_iff location.exists_extractLine_iff lines filesystemMap
      simpa using hfold

end NginxConfigStatement

namespace NginxConfig

/-- The locations of all servers, in the order of the config. -/
def locations (config : NginxConfig) : List NginxConfigStatement :=
  (NginxConfigStatement.startingWith "server".toList config).flatMap fun server =>
    NginxConfigStatement.startingWith "location".toList (server.childBlock.getD [])

/-- What stands in the place of a path in the locations of all servers. -/
def paths (config : NginxConfig) : List (Option Str) :=
  config.locations.flatMap NginxConfigStatement.paths

/-- Where there is a first token, it is there to be looked at. -/
theorem tokenAt_zero_bind {β : Type} {statement : NginxConfigStatement}
    (hstatement : statement.tokens ≠ []) (name : Str) (skip act : Except Fault β) :
    (statement.tokenAt 0 >>= fun token => if token ≠ name then skip else act) =
      if decide (statement.tokens.head? = some name) then act else skip := by
  obtain ⟨token, rest, htokens⟩ := List.exists_cons_of_ne_nil hstatement
  have htoken : statement.tokenAt 0 = .ok token := by
    simp [NginxConfigStatement.tokenAt, htokens]
  rw [htoken]
  change (if token ≠ name then skip else act) = _
  by_cases hname : token = name <;> simp [htokens, hname]

/-- The statements of a server's block. -/
theorem worded_childBlock {server : NginxConfigStatement} (hserver : server.Worded) :
    ∀ statement ∈ server.childBlock.getD [], statement.Worded := by
  cases hchild : server.childBlock with
  | none => simp
  | some child => exact (worded_iff child).mp (hserver.child hchild)

theorem validateRelativePaths_eq_allM_locations (isRelative : Str → Bool)
    {config : NginxConfig} (hconfig : Worded config) :
    config.validateRelativePaths isRelative =
      config.locations.allM (NginxConfigStatement.validateLines isRelative) := by
  rw [locations, allM_flatMap, NginxConfigStatement.startingWith, allM_filter,
    validateRelativePaths]
  apply allM_congr
  intro server hserver
  have hworded := (worded_iff config).mp hconfig server hserver
  have hchildren := worded_childBlock hworded
  rw [tokenAt_zero_bind hworded.tokens_ne_nil]
  congr 1
  cases hchild : server.childBlock with
  | none => rfl
  | some child =>
      rw [hchild, Option.getD_some] at hchildren
      rw [Option.getD_some, NginxConfigStatement.startingWith, allM_filter]
      apply allM_congr
      intro blockLine hblockLine
      exact tokenAt_zero_bind (hchildren blockLine hblockLine).tokens_ne_nil _ _ _

/-- The statements that the loops look at have a first token. -/
structure Headed (config : NginxConfig) : Prop where
  statement : ∀ statement ∈ config, statement.tokens ≠ []
  blockLine : ∀ server ∈ config, server.tokens.head? = some "server".toList →
    ∀ blockLine ∈ server.childBlock.getD [], blockLine.tokens ≠ []

theorem Worded.headed {config : NginxConfig} (hconfig : Worded config) : config.Headed := by
  rw [worded_iff] at hconfig
  refine ⟨fun statement hstatement => (hconfig statement hstatement).tokens_ne_nil, ?_⟩
  intro server hserver _ blockLine hblockLine
  exact (worded_childBlock (hconfig server hserver) blockLine hblockLine).tokens_ne_nil

theorem extractFilesystemMap_eq_foldlM_locations (filesystemMap : FilesystemMap)
    {config : NginxConfig} (hconfig : config.Headed) :
    config.extractFilesystemMap filesystemMap =
      config.locations.foldlM NginxConfigStatement.extractLines filesystemMap := by
  rw [locations, foldlM_flatMap, NginxConfigStatement.startingWith, List.foldlM_filter,
    extractFilesystemMap]
  apply foldlM_congr
  intro server hserver state
  rw [tokenAt_zero_bind (hconfig.statement server hserver)]
  by_cases hname : server.tokens.head? = some "server".toList
  · have hlines := hconfig.blockLine server hserver hname
    rw [if_pos (decide_eq_true hname), if_pos (decide_eq_true hname)]
    cases hchild : server.childBlock with
    | none => rfl
    | some child =>
        rw [hchild, Option.getD_some] at hlines
        rw [Option.getD_some, NginxConfigStatement.startingWith, List.foldlM_filter]
        apply foldlM_congr
        intro blockLine hblockLine state
        exact tokenAt_zero_bind (hlines blockLine hblockLine) _ _ _
  · have hother : ¬ decide (server.tokens.head? = some "server".toList) = true :=
      fun hdecide => hname (of_decide_eq_true hdecide)
    rw [if_neg hother, if_neg hother]

theorem validateRelativePaths_eq_allM_paths (isRelative : Str → Bool)
    {config : NginxConfig} (hconfig : Worded config) :
    config.validateRelativePaths isRelative =
      config.paths.allM (NginxConfigStatement.readPath isRelative) := by
  rw [validateRelativePaths_eq_allM_locations isRelative hconfig, paths, allM_flatMap]
  exact allM_congr fun location _ => location.validateLines_eq isRelative

/-- Every place of a path has one, unless an absolute path stands before it. -/
def PathsPresent (isRelative : Str → Bool) (config : NginxConfig) : Prop :=
  ∀ front rest, config.paths = front ++ none :: rest →
    ∃ path, some path ∈ front ∧ isRelative path = false

/-- Every location that holds a line has a handler type. -/
def HandlerTypesPresent (config : NginxConfig) : Prop :=
  ∀ location ∈ config.locations, location.childBlock ≠ some [] →
    3 ≤ location.tokens.length

theorem exists_validateRelativePaths_iff (isRelative : Str → Bool) {config : NginxConfig}
    (hconfig : Worded config) :
    (∃ valid, config.validateRelativePaths isRelative = .ok valid) ↔
      config.PathsPresent isRelative := by
  rw [validateRelativePaths_eq_allM_paths isRelative hconfig, exists_allM_iff, PathsPresent]
  constructor
  · intro hpresent front rest hpaths
    obtain ⟨earlier, hmem, hfalse⟩ := hpresent front none rest hpaths ⟨_, rfl⟩
    cases earlier with
    | none => cases hfalse
    | some path => exact ⟨path, hmem, by simpa [NginxConfigStatement.readPath] using hfalse⟩
  · rintro hpresent front entry rest hpaths ⟨fault, hfault⟩
    cases entry with
    | some path => cases hfault
    | none =>
        obtain ⟨path, hmem, hfalse⟩ := hpresent front rest hpaths
        exact ⟨some path, hmem, by simp [NginxConfigStatement.readPath, hfalse]⟩

theorem validateRelativePaths_eq_true_iff (isRelative : Str → Bool) {config : NginxConfig}
    (hconfig : Worded config) :
    config.validateRelativePaths isRelative = .ok true ↔
      ∀ entry ∈ config.paths, ∃ path, entry = some path ∧ isRelative path = true := by
  rw [validateRelativePaths_eq_allM_paths isRelative hconfig, allM_eq_true_iff]
  apply forall₂_congr
  intro entry _
  cases entry with
  | none => simp [NginxConfigStatement.readPath]
  | some path => simp [NginxConfigStatement.readPath]

/-- Where every place of a path has one, only a missing handler type is in the
way of the map. -/
theorem exists_extractFilesystemMap_iff {config : NginxConfig} (hconfig : Worded config)
    (hpaths : none ∉ config.paths) (filesystemMap : FilesystemMap) :
    (∃ later, config.extractFilesystemMap filesystemMap = .ok later) ↔
      config.HandlerTypesPresent := by
  rw [extractFilesystemMap_eq_foldlM_locations filesystemMap hconfig.headed,
    exists_foldlM_iff fun state location => location.exists_extractLines_iff state,
    HandlerTypesPresent]
  apply forall₂_congr
  intro location hlocation
  have hplaces : none ∉ location.paths :=
    fun hnone => hpaths (List.mem_flatMap_of_mem hlocation hnone)
  rw [NginxConfigStatement.paths] at hplaces
  cases hchild : location.childBlock with
  | none => simp [hchild] at hplaces
  | some lines =>
      have hlines : ∀ line ∈ lines, 2 ≤ line.tokens.length := by
        intro line hline
        rw [hchild] at hplaces
        by_contra hshort
        apply hplaces
        rw [List.mem_map]
        exact ⟨line, hline, List.getElem?_eq_none (by omega)⟩
      constructor
      · rintro ⟨_, ⟨⟩, hall⟩ hne
        obtain ⟨line, rest, rfl⟩ := List.exists_cons_of_ne_nil (fun hnil => hne (hnil ▸ rfl))
        exact (hall line List.mem_cons_self).1
      · intro htypes
        refine ⟨lines, rfl, ?_⟩
        intro line hline
        refine ⟨htypes ?_, hlines line hline⟩
        rintro ⟨⟩
        cases hline

/-- A config all of whose paths are relative has one at each of their places. -/
theorem none_not_mem_paths {isRelative : Str → Bool} {config : NginxConfig}
    (hall : ∀ entry ∈ config.paths, ∃ path, entry = some path ∧ isRelative path = true) :
    none ∉ config.paths := by
  intro hmem
  obtain ⟨path, hpath, -⟩ := hall none hmem
  contradiction

/-- A place without a path comes only after a path that is not relative. -/
theorem PathsPresent.forall_relative_iff {isRelative : Str → Bool} {config : NginxConfig}
    (hpresent : config.PathsPresent isRelative) :
    (∀ entry ∈ config.paths, ∃ path, entry = some path ∧ isRelative path = true) ↔
      ∀ path, some path ∈ config.paths → isRelative path = true := by
  constructor
  · intro hall path hpath
    obtain ⟨other, heq, hrelative⟩ := hall (some path) hpath
    cases heq
    exact hrelative
  · intro hrelative entry hentry
    cases entry with
    | some path => exact ⟨path, rfl, hrelative path hentry⟩
    | none =>
        obtain ⟨front, rest, hpaths⟩ := List.append_of_mem hentry
        obtain ⟨path, hmem, hfalse⟩ := hpresent front rest hpaths
        have htrue := hrelative path (hpaths ▸ List.mem_append_left _ hmem)
        rw [hfalse] at htrue
        contradiction

end NginxConfig

/-- `Parse` of the file checks its paths without a fault, and where it returns
true, the map is extracted without a fault. -/
def ConsumersSafe (isRelative : Str → Bool) (text : Str) : Prop :=
  (∃ result, parseFile isRelative text = .ok result) ∧
    ∀ config, parseFile isRelative text = .ok (true, config) →
      ∃ filesystemMap, config.extractFilesystemMap OrderedMap.empty = .ok filesystemMap

theorem parseFile_eq (isRelative : Str → Bool) {text : Str} {accepted : Bool}
    {tree : NginxConfig} (hparse : parse [] text = .ok (accepted, tree)) :
    parseFile isRelative text =
      (tree.validateRelativePaths isRelative).map fun valid => (valid && accepted, tree) := by
  rw [parseFile, hparse]
  change ((tree.validateRelativePaths isRelative) >>= fun valid => _) = _
  cases tree.validateRelativePaths isRelative with
  | error fault => rfl
  | ok valid => cases valid <;> rfl

theorem exists_parseFile_iff (isRelative : Str → Bool) {text : Str} {accepted : Bool}
    {tree : NginxConfig} (hparse : parse [] text = .ok (accepted, tree)) :
    (∃ result, parseFile isRelative text = .ok result) ↔
      ∃ valid, tree.validateRelativePaths isRelative = .ok valid := by
  rw [parseFile_eq isRelative hparse]
  cases tree.validateRelativePaths isRelative <;> simp [Except.map]

theorem parseFile_eq_true_iff (isRelative : Str → Bool) {text : Str} {accepted : Bool}
    {tree : NginxConfig} (hparse : parse [] text = .ok (accepted, tree))
    (config : NginxConfig) :
    parseFile isRelative text = .ok (true, config) ↔
      tree.validateRelativePaths isRelative = .ok true ∧ accepted = true ∧ tree = config := by
  rw [parseFile_eq isRelative hparse]
  cases tree.validateRelativePaths isRelative <;> simp [Except.map, and_assoc]

/-- Reading a config is safe exactly where all places of paths have one, up to
the first absolute path, and the locations of a config that is accepted and has
no absolute path have handler types. -/
theorem consumersSafe_iff (isRelative : Str → Bool) {text : Str} {accepted : Bool}
    {tree : NginxConfig} (hparse : parse [] text = .ok (accepted, tree)) :
    ConsumersSafe isRelative text ↔
      tree.PathsPresent isRelative ∧
        (accepted = true → (∀ path, some path ∈ tree.paths → isRelative path = true) →
          tree.HandlerTypesPresent) := by
  have hworded := worded_of_parse hparse
  have hvalid := NginxConfig.validateRelativePaths_eq_true_iff isRelative hworded
  have hextract : none ∉ tree.paths →
      ((∃ filesystemMap, tree.extractFilesystemMap OrderedMap.empty = .ok filesystemMap) ↔
        tree.HandlerTypesPresent) :=
    fun hnone => NginxConfig.exists_extractFilesystemMap_iff hworded hnone OrderedMap.empty
  rw [ConsumersSafe, exists_parseFile_iff isRelative hparse,
    NginxConfig.exists_validateRelativePaths_iff isRelative hworded]
  apply and_congr_right
  intro hpresent
  simp only [parseFile_eq_true_iff isRelative hparse]
  constructor
  · intro hsafe haccepted hrelative
    have hall := hpresent.forall_relative_iff.mpr hrelative
    exact (hextract (NginxConfig.none_not_mem_paths hall)).mp
      (hsafe tree ⟨hvalid.mpr hall, haccepted, rfl⟩)
  · rintro htypes config ⟨hvalidated, haccepted, rfl⟩
    have hall := hvalid.mp hvalidated
    exact (hextract (NginxConfig.none_not_mem_paths hall)).mpr
      (htypes haccepted (hpresent.forall_relative_iff.mp hall))

namespace ConsumerSafetyWitness

/-- `path::is_relative` for paths of one name. -/
def isRelative (path : Str) : Bool := path.head? ≠ some '/'

/-- A server with a location that has all it should have. -/
def complete : Str := "server\x7blocation /a StaticHandler\x7broot b;\x7d\x7d".toList

theorem parse_complete : parse [] complete = .ok (true,
    [.mk ["server".toList] (some [.mk ["location".toList, "/a".toList,
      "StaticHandler".toList] (some [.mk ["root".toList, "b".toList] none])])]) := by
  have htokens : parseTokens complete = ["server".toList].map word ++
      ⟨.startBlock, "\x7b".toList⟩ ::
        (["location".toList, "/a".toList, "StaticHandler".toList].map word ++
          ⟨.startBlock, "\x7b".toList⟩ :: (["root".toList, "b".toList].map word ++
            [⟨.statementEnd, ";".toList⟩, ⟨.endBlock, "\x7d".toList⟩,
              ⟨.endBlock, "\x7d".toList⟩, ⟨.eof, []⟩])) := by
    decide +kernel
  rw [parse, htokens]
  rfl

theorem consumersSafe_complete : ConsumersSafe isRelative complete := by
  refine (consumersSafe_iff isRelative parse_complete).mpr ⟨?_, fun _ _ => ?_⟩
  · intro front rest hpaths
    have hpaths : [some "b".toList] = front ++ none :: rest := hpaths
    have hmem : none ∈ [some "b".toList] := hpaths ▸ List.mem_append_cons_self
    simp at hmem
  · rintro location hlocation -
    cases List.mem_singleton.mp hlocation
    decide

/-- A location whose line ends before the path. -/
def short : Str := "server\x7blocation /a StaticHandler\x7broot;\x7d\x7d".toList

/-- The check of the paths reads past the end of that line. -/
theorem parseFile_short :
    parse [] short = .ok (true,
      [.mk ["server".toList] (some [.mk ["location".toList, "/a".toList,
        "StaticHandler".toList] (some [.mk ["root".toList] none])])]) ∧
      parseFile isRelative short = .error .undefinedBehaviour := by
  have htokens : parseTokens short = ["server".toList].map word ++
      ⟨.startBlock, "\x7b".toList⟩ ::
        (["location".toList, "/a".toList, "StaticHandler".toList].map word ++
          ⟨.startBlock, "\x7b".toList⟩ :: (["root".toList].map word ++
            [⟨.statementEnd, ";".toList⟩, ⟨.endBlock, "\x7d".toList⟩,
              ⟨.endBlock, "\x7d".toList⟩, ⟨.eof, []⟩])) := by
    decide +kernel
  have hparse : parse [] short = .ok (true,
      [.mk ["server".toList] (some [.mk ["location".toList, "/a".toList,
        "StaticHandler".toList] (some [.mk ["root".toList] none])])]) := by
    rw [parse, htokens]
    rfl
  refine ⟨hparse, ?_⟩
  rw [parseFile_eq isRelative hparse]
  rfl

end ConsumerSafetyWitness

end SwanServer
