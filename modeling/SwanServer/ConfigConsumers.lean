/-
What the server reads off a config: whether all its paths are relative, and the
map from handler types and locations to roots.  Both functions index into the
tokens of statements and follow child blocks without looking.
-/
import SwanServer.ConfigParser
import SwanServer.OrderedMap

namespace SwanServer

/-- `handle_trailing_slashes`: one slash for all those at the end. -/
def handleTrailingSlashes (token : Str) : Str :=
  token.rdropWhile (· = '/') ++ "/".toList

/-- `filesystem_map_`: for each handler type the roots of its locations. -/
abbrev FilesystemMap := OrderedMap Str (OrderedMap Str Str)

/-- `filesystem_map_[handler_type]` of a copy of the map. -/
def FilesystemMap.at (filesystemMap : FilesystemMap) (handlerType : Str) :
    OrderedMap Str Str :=
  (filesystemMap.getOrInsert handlerType OrderedMap.empty).1

/-- `filesystem_map_[handler_type].insert({location_path, root})`. -/
def FilesystemMap.insertLocation (filesystemMap : FilesystemMap)
    (handlerType locationPath root : Str) : FilesystemMap :=
  filesystemMap.upsert handlerType fun locations =>
    (locations.getD OrderedMap.empty).insert locationPath root

namespace NginxConfigStatement

/-- `tokens_[i]`, undefined past the end. -/
def tokenAt (statement : NginxConfigStatement) (i : Nat) : Except Fault Str :=
  match statement.tokens[i]? with
  | some token => .ok token
  | none => .error .undefinedBehaviour

/-- `child_block_->statements_`, undefined for a null pointer. -/
def childStatements (statement : NginxConfigStatement) : Except Fault NginxConfig :=
  match statement.childBlock with
  | some child => .ok child
  | none => .error .undefinedBehaviour

/-- The loop of `validate_relative_paths` over the lines of a location. -/
def validateLines (isRelative : Str → Bool) (blockLine : NginxConfigStatement) :
    Except Fault Bool := do
  (← blockLine.childStatements).allM fun locationLine => do
    return isRelative (← locationLine.tokenAt 1)

/-- What `extract_filesystem_map` does with a line of a location. -/
def extractLine (blockLine : NginxConfigStatement) (filesystemMap : FilesystemMap)
    (locationLine : NginxConfigStatement) : Except Fault FilesystemMap := do
  let locationPath := handleTrailingSlashes (← blockLine.tokenAt 1)
  let handlerType ← blockLine.tokenAt 2
  return filesystemMap.insertLocation handlerType locationPath (← locationLine.tokenAt 1)

/-- The loop of `extract_filesystem_map` over the lines of a location. -/
def extractLines (filesystemMap : FilesystemMap) (blockLine : NginxConfigStatement) :
    Except Fault FilesystemMap := do
  (← blockLine.childStatements).foldlM blockLine.extractLine filesystemMap

end NginxConfigStatement

namespace NginxConfig

/-- `NginxConfig::validate_relative_paths`, with `path::is_relative` as a
parameter.  The loops end with the first path that is not relative. -/
def validateRelativePaths (isRelative : Str → Bool) (config : NginxConfig) :
    Except Fault Bool :=
  config.allM fun statement => do
    if (← statement.tokenAt 0) ≠ "server".toList then return true
    match statement.childBlock with
    | none => return true
    | some child =>
        child.allM fun blockLine => do
          if (← blockLine.tokenAt 0) ≠ "location".toList then return true
          blockLine.validateLines isRelative

/-- `NginxConfig::extract_filesystem_map`. -/
def extractFilesystemMap (filesystemMap : FilesystemMap) (config : NginxConfig) :
    Except Fault FilesystemMap :=
  config.foldlM (fun filesystemMap statement => do
    if (← statement.tokenAt 0) ≠ "server".toList then return filesystemMap
    match statement.childBlock with
    | none => return filesystemMap
    | some child =>
        child.foldlM (fun filesystemMap blockLine => do
          if (← blockLine.tokenAt 0) ≠ "location".toList then return filesystemMap
          blockLine.extractLines filesystemMap) filesystemMap) filesystemMap

end NginxConfig

/-- `NginxConfigParser::Parse` on the text of a file that opens. -/
def parseFile (isRelative : Str → Bool) (text : Str) :
    Except Fault (Bool × NginxConfig) := do
  let (returnValue, config) ← parse [] text
  if (← config.validateRelativePaths isRelative) = false then return (false, config)
  return (returnValue, config)

end SwanServer
