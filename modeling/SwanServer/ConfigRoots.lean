/-
The root of a location.  `extract_filesystem_map` looks at the argument of every
line of a location and never at its name, and the first one that it inserts stays.
-/
import SwanServer.ConfigExtraction

namespace SwanServer

/-- The directive that names the root of a location of that kind. -/
def LocationKind.directive : LocationKind → Str
  | static => "root".toList
  | api => "data_path".toList

namespace NginxConfig

variable {later : FilesystemMap}

/-- Locations with other keys provide nothing. -/
theorem findSome?_provides?_of_ne {key : Str} {locations : NginxConfig}
    (hkey : ∀ other ∈ locations, other.tokens[1]?.map handleTrailingSlashes ≠ some key)
    (handlerType : Str) :
    (locations.findSome? fun other => other.provides? handlerType key) = none := by
  rw [List.findSome?_eq_none_iff]
  intro other hother
  rw [NginxConfigStatement.provides?, if_neg fun hboth => hkey other hother hboth.2]

/-- The map holds for a location that occurs once the argument of its first
line. -/
theorem find?_extractFilesystemMap {config : NginxConfig} (hconfig : Worded config)
    {front back lines : NginxConfig} {location : NginxConfigStatement} {token handlerType : Str}
    (hlocations : config.locations = front ++ location :: back)
    (htokens : location.tokens = ["location".toList, token, handlerType])
    (hlines : location.childBlock = some lines)
    (honce : ∀ other ∈ front ++ back,
      other.tokens[1]?.map handleTrailingSlashes ≠ some (handleTrailingSlashes token))
    (hextract : config.extractFilesystemMap OrderedMap.empty = .ok later) :
    (later.at handlerType).find? (handleTrailingSlashes token) =
      lines.head?.bind fun line => line.tokens[1]? := by
  have hprovides : location.provides? handlerType (handleTrailingSlashes token) =
      lines.head?.bind fun line => line.tokens[1]? := by
    have hkey : location.HasKey handlerType (handleTrailingSlashes token) := by
      rw [NginxConfigStatement.HasKey, htokens]
      exact ⟨rfl, rfl⟩
    rw [NginxConfigStatement.provides?, if_pos hkey, NginxConfigStatement.argument?, hlines]
    rfl
  have hfront := findSome?_provides?_of_ne
    (fun other hother => honce other (List.mem_append_left _ hother)) handlerType
  have hback := findSome?_provides?_of_ne
    (fun other hother => honce other (List.mem_append_right _ hother)) handlerType
  rw [find?_extractFilesystemMap_eq_or hconfig.headed hextract, firstArgument?, hlocations,
    List.findSome?_append, hfront, List.findSome?_cons, hprovides, hback]
  cases lines.head?.bind fun line => line.tokens[1]? <;> rfl

/-- A location that occurs once is mapped to the argument of its root directive
exactly if no directive with another argument stands in front of all others. -/
theorem find?_eq_root_iff {text : Str} {tree : NginxConfig}
    (hparse : parse [] text = .ok (true, tree))
    (hextract : tree.extractFilesystemMap OrderedMap.empty = .ok later) (kind : LocationKind)
    {front back before after : NginxConfig} {location root : NginxConfigStatement}
    {token argument : Str} (hlocations : tree.locations = front ++ location :: back)
    (htokens : location.tokens = ["location".toList, token, kind.handlerType])
    (honce : ∀ other ∈ front ++ back,
      other.tokens[1]?.map handleTrailingSlashes ≠ some (handleTrailingSlashes token))
    (hlines : location.childBlock = some (before ++ root :: after))
    (hroot : root.tokens = [kind.directive, argument]) :
    (later.at kind.handlerType).find? (handleTrailingSlashes token) = some argument ↔
      ∀ first ∈ before.head?, first.tokens[1]? = some argument := by
  rw [find?_extractFilesystemMap (worded_of_parse hparse) hlocations htokens hlines honce
    hextract]
  cases before with
  | nil => simp [hroot]
  | cons first others => simp

end NginxConfig

namespace ConfigRootsWitness

/-- A server with one location. -/
def server (lines : NginxConfig) : NginxConfig :=
  [.mk ["server".toList] (some
    [.mk ["location".toList, "/a".toList, "StaticHandler".toList] (some lines)])]

def root : NginxConfigStatement := .mk ["root".toList, "b".toList] none

def index : NginxConfigStatement := .mk ["index".toList, "c".toList] none

/-- The tokens of a server with one location, given those of its lines. -/
def serverTokens (lines : List Token) : List Token :=
  ["server".toList].map word ++ ⟨.startBlock, "\x7b".toList⟩ ::
    (["location".toList, "/a".toList, "StaticHandler".toList].map word ++
      ⟨.startBlock, "\x7b".toList⟩ :: (lines ++
        [⟨.endBlock, "\x7d".toList⟩, ⟨.endBlock, "\x7d".toList⟩, ⟨.eof, []⟩]))

def rootTokens : List Token :=
  ["root".toList, "b".toList].map word ++ [⟨.statementEnd, ";".toList⟩]

def indexTokens : List Token :=
  ["index".toList, "c".toList].map word ++ [⟨.statementEnd, ";".toList⟩]

/-- The root stands in front of the other directive. -/
def rootFirst : Str := "server\x7blocation /a StaticHandler\x7broot b;index c;\x7d\x7d".toList

/-- The root stands behind the other directive. -/
def rootLast : Str := "server\x7blocation /a StaticHandler\x7bindex c;root b;\x7d\x7d".toList

theorem parse_rootFirst : parse [] rootFirst = .ok (true, server [root, index]) := by
  have htokens : parseTokens rootFirst = serverTokens (rootTokens ++ indexTokens) := by
    decide +kernel
  rw [parse, htokens]
  rfl

theorem parse_rootLast : parse [] rootLast = .ok (true, server [index, root]) := by
  have htokens : parseTokens rootLast = serverTokens (indexTokens ++ rootTokens) := by
    decide +kernel
  rw [parse, htokens]
  rfl

/-- The map with one static location. -/
def mapped (path : Str) : FilesystemMap :=
  FilesystemMap.insertLocation OrderedMap.empty "StaticHandler".toList "/a/".toList path

theorem find?_rootFirst :
    ((mapped "b".toList).at LocationKind.static.handlerType).find? "/a/".toList =
      some "b".toList := by
  have hlocations : (server [root, index]).locations =
      [] ++ .mk ["location".toList, "/a".toList, "StaticHandler".toList]
        (some ([] ++ root :: [index])) :: [] := rfl
  exact (NginxConfig.find?_eq_root_iff parse_rootFirst rfl .static hlocations rfl (by simp) rfl
    rfl).mpr (by simp)

/-- The location is mapped to the argument of the directive before the root. -/
theorem find?_rootLast :
    parse [] rootLast = .ok (true, server [index, root]) ∧
      NginxConfig.extractFilesystemMap OrderedMap.empty (server [index, root]) =
        .ok (mapped "c".toList) ∧
      ((mapped "c".toList).at LocationKind.static.handlerType).find? "/a/".toList ≠
        some "b".toList :=
  ⟨parse_rootLast, rfl, by decide +kernel⟩

end ConfigRootsWitness

end SwanServer
