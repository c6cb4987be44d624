/-
The three services behind a palette: a colour for a word, the colours that go
with it and a name for each of them.  Reading JSON is left to a property tree,
of which only three accesses are used.
-/
import SwanServer.Dialogue
import SwanServer.Text
import SwanServer.TextSearch

namespace SwanServer

open TextSearch

/-- The exceptions of curlpp. -/
inductive CurlError where
  | runtimeError
  | logicError
deriving Repr, DecidableEq

/-- How palette code can fail to return. -/
inductive PaletteFault where
  | curl (error : CurlError)
  | outOfRange
  | propertyTreeError
  | undefinedBehaviour
deriving Repr, DecidableEq

/-- A computation that fetches pages by their addresses. -/
abbrev Web (α : Type) := Dialogue Str (Except CurlError Str) PaletteFault α

/-- `os << Url(url)`. -/
def fetch (url : Str) : Web Str :=
  .ask url fun
    | .ok page => .done page
    | .error error => .throw (.curl error)

/-- `catch (curlpp::RuntimeError &e)` and `catch (curlpp::LogicError &e)`. -/
def catchCurl {α : Type} (act : Web α) (value : α) : Web α :=
  act.handle fun
    | .curl _ => .done value
    | fault => .throw fault

/-- `s.substr(pos, count)`. -/
def substr (s : Str) (pos count : Nat) : Except PaletteFault Str :=
  if pos ≤ s.length then .ok ((s.drop pos).take count) else .error .outOfRange

/-- What `parse_json` uses of `boost::property_tree`: each access may throw. -/
structure PropertyTree where
  Tree : Type
  readJson : Str → Option Tree
  getChild : Tree → Str → Option Tree
  getString : Tree → Str → Option Str

namespace PaletteApi

def hexLength : Nat := 7

def orThrow {α : Type} (found : Option α) : Except PaletteFault α :=
  match found with
  | some value => .ok value
  | none => .error .propertyTreeError

/-- `parse_json`. -/
def parseJson (tree : PropertyTree) (json : Str) : Except PaletteFault Str := do
  let jsonTree ← orThrow (tree.readJson json)
  let name ← orThrow (tree.getChild jsonTree "name".toList)
  orThrow (tree.getString name "value".toList)

def palette : Str := "Classy Palette".toList

def colorDiv : Str := "<div class='color' style='background:".toList

def endDiv : Str := "<div class='color-palette js-sr-palette'>".toList

theorem colorDiv_ne_nil : colorDiv ≠ [] := by decide +kernel

/-- The search of the loop goes forward. -/
theorem findColors_forward {html : Str} {findColor found : Nat}
    (hfind : find? colorDiv html findColor = some found) :
    html.length + 1 - (found + colorDiv.length) < html.length + 1 - findColor := by
  obtain ⟨hstart, hoccurs, _⟩ := (find?_eq_some_iff colorDiv_ne_nil).mp hfind
  have hlength := hoccurs.add_length_le colorDiv_ne_nil
  have hpos := List.length_pos_iff.mpr colorDiv_ne_nil
  omega

/-- The loop of `parse_html` from a position on. -/
def findColors (html : Str) (findEndPalette findColor : Nat) :
    Except PaletteFault (List Str) :=
  match hfind : find? colorDiv html findColor with
  | some found =>
      have := findColors_forward hfind
      if found < findEndPalette then do
        let color ← substr html (found + colorDiv.length) hexLength
        let colors ← findColors html findEndPalette (found + colorDiv.length)
        return color :: colors
      else .ok []
  | none => .ok []
termination_by html.length + 1 - findColor

/-- `parse_html`.  A search that starts at `npos` finds nothing. -/
def parseHtml (html : Str) : Except PaletteFault (List Str) :=
  let findStartPalette := find? palette html 0
  let findEndPalette := findStartPalette.bind (find? endDiv html)
  match findStartPalette, findEndPalette with
  | some start, some finish => findColors html finish start
  | _, _ => .ok []

def paletteUrl (color : Str) : Str :=
  "https://mycolor.space/?hex=%23".toList ++ color ++ "&sub=1".toList

/-- `get_palette`. -/
def getPalette (color : Str) : Web (List Str) :=
  catchCurl (do
    let page ← fetch (paletteUrl color)
    .ofExcept (parseHtml page)) []

def hexDiv : Str := "\"selectText('.hex');\">".toList

def colorUrl (word : Str) : Str :=
  "https://alexbeals.com/projects/colorize/search.php?q=".toList ++ word

/-- The extraction of the hex value in `get_color`. -/
def extractHex (page : Str) : Except PaletteFault Str :=
  match find? hexDiv page 0 with
  | some found => substr page (found + hexDiv.length + 1) (hexLength - 1)
  | none => .ok []

/-- `std::replace(word.begin(), word.end(), ' ', '+')`. -/
def replaceSpaces (word : Str) : Str := word.map fun c => if c = ' ' then '+' else c

/-- `get_color`. -/
def getColor (word : Str) : Web Str :=
  catchCurl (do
    let page ← fetch (colorUrl (replaceSpaces word))
    .ofExcept (extractHex page)) []

/-- `PaletteAPI::get_colors`. -/
def getColors (word : Str) : Web (List Str) := do
  let color ← getColor word
  if color = [] then return [] else getPalette color

def nameUrl (hex : Str) : Str := "https://www.thecolorapi.com/id?hex=".toList ++ hex

/-- One pass of the loop in `PaletteAPI::get_names`. -/
def getName (tree : PropertyTree) (colorNames : List Str) (hexColor : Str) :
    Web (List Str) := do
  let hex ← .ofExcept (substr hexColor 1 hexColor.length)
  let page ← fetch (nameUrl hex)
  let name ← .ofExcept (parseJson tree page)
  return colorNames ++ [name]

/-- `PaletteAPI::get_names`. -/
def getNames (tree : PropertyTree) (hexColors : List Str) : Web (List Str) :=
  catchCurl (hexColors.foldlM (getName tree) []) []

end PaletteApi

end SwanServer
