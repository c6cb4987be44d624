/-
The handler that answers a word with a palette.  The answer is written to a
stream whose last comma is overwritten after the loop.
-/
import SwanServer.Overlay
import SwanServer.PaletteApi
import SwanServer.RequestHandler

namespace SwanServer

open Overlay

/-- An `std::stringstream` that is written to at a position. -/
structure StringStream where
  str : Str
  put : Nat
deriving Repr, DecidableEq

namespace StringStream

def empty : StringStream := ⟨[], 0⟩

/-- `operator<<`: what stands behind the position is overwritten. -/
def write (stream : StringStream) (s : Str) : StringStream :=
  ⟨stream.str.take stream.put ++ overlay s (stream.str.drop stream.put), stream.put + s.length⟩

/-- A chain of `operator<<`. -/
def writes (stream : StringStream) (pieces : List Str) : StringStream :=
  pieces.foldl write stream

/-- `seekp(-1, cur)` behind something that was written. -/
def seekpBack (stream : StringStream) : StringStream :=
  { stream with put := stream.put - 1 }

end StringStream

namespace PaletteHandler

def whitespace : Str := [' ', '\n']

/-- `s.find_first_not_of(chars)`. -/
def findFirstNotOf (chars s : Str) : Option Nat := s.findIdx? (· ∉ chars)

/-- `s.find_last_not_of(chars)`. -/
def findLastNotOf (chars s : Str) : Option Nat :=
  (findFirstNotOf chars s.reverse).map fun i => s.length - 1 - i

/-- `trim_whitespace`. -/
def trimWhitespace (s : Str) : Str := Id.run do
  let mut sTrimmed := []
  sTrimmed := match findFirstNotOf whitespace s with
    | none => []
    | some start => s.drop start
  sTrimmed := match findLastNotOf whitespace s with
    | none => []
    | some last => s.take (last + 1)
  return sTrimmed

/-- `valid_input`. -/
def validInput (input : Str) : Bool :=
  !input.isEmpty && input.all fun c => c.isAlphanum || isSpace c

/-- One pass of the loop in `generate_json_response`. -/
def writeColor (colors colorNames : List Str) (jsonResponse : StringStream) (i : Nat) :
    Except PaletteFault StringStream :=
  match colors[i]?, colorNames[i]? with
  | some color, some colorName =>
      .ok (jsonResponse.writes ["\n".toList, "\x7b\n".toList,
        "\"hex\":".toList, "\"".toList, color, "\", ".toList,
        "\"name\":".toList, "\"".toList, colorName, "\"\n".toList, "\x7d,".toList])
  | _, _ => .error .undefinedBehaviour

/-- `generate_json_response`. -/
def generateJsonResponse (colors colorNames : List Str) : Except PaletteFault Str := do
  let jsonResponse := StringStream.empty.writes
    ["\x7b\n".toList, "\"Palette\": \x7b".toList, "\"colors\": [".toList]
  let jsonResponse ← (List.range colors.length).foldlM (writeColor colors colorNames) jsonResponse
  let jsonResponse := jsonResponse.seekpBack.writes
    ["]\n".toList, "\x7d\n".toList, "\x7d\n".toList]
  return jsonResponse.str

/-- The end of `handle_request`, once the services were asked. -/
def respond (httpResponse : Response) (colors colorNames : List Str) : Web (Bool × Response) :=
  if colors.isEmpty || colorNames.isEmpty then
    return (false, setResponse .internalServerError "text/plain".toList
      "Unable to generate palette.".toList httpResponse)
  else do
    let jsonBody ← .ofExcept (generateJsonResponse colors colorNames)
    return (true, setResponse .ok "application/json".toList jsonBody httpResponse)

/-- The answer to a body that is refused. -/
def invalidBody : Str :=
  "Request body should be non-empty and can only contain letters, numbers, and spaces\n".toList

/-- `PaletteHandler::handle_request`. -/
def handleRequest (tree : PropertyTree) (httpRequest : Request) (httpResponse : Response) :
    Web (Bool × Response) :=
  if httpRequest.method ≠ "POST".toList then
    return (false, setResponse .badRequest "text/plain".toList
      "Invalid HTTP method for target\n".toList httpResponse)
  else
    let body := trimWhitespace httpRequest.body
    if validInput body = false then
      return (false, setResponse .badRequest "text/html".toList
        invalidBody httpResponse)
    else do
      let colors ← PaletteApi.getColors body
      let colorNames ← PaletteApi.getNames tree colors
      respond httpResponse colors colorNames

end PaletteHandler

end SwanServer
