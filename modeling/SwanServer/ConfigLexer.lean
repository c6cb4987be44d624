/-
`ParseToken`, the lexer of the config parser, as a function of the text that is
left, and the tokens that it delivers one after the other.
-/
import SwanServer.Text

namespace SwanServer

/-- `NginxConfigParser::TokenType`. -/
inductive TokenType where
  | start
  | normal
  | startBlock
  | endBlock
  | comment
  | statementEnd
  | eof
  | error
deriving DecidableEq

/-- `NginxConfigParser::TokenParserState`. -/
inductive TokenParserState where
  | initialWhitespace
  | singleQuote
  | doubleQuote
  | comment
  | normal
  | singleQuoteEscape
  | doubleQuoteEscape
deriving DecidableEq

/-- A token type with the `value` that `ParseToken` leaves. -/
structure Token where
  type : TokenType
  value : Str
deriving DecidableEq

/-- The characters that end a token.  The source lists the tab twice and the
carriage return not at all. -/
def isDelimiter (c : Char) : Bool :=
  c = ' ' || c = '\t' || c = '\n' || c = ';' || c = '{' || c = '}'

/-- A quoted token ends where its quote is closed, provided that a delimiter
follows; the delimiter is only looked at. -/
def closeQuote (value : Str) : Str → Token × Str
  | [] => (⟨.error, value⟩, [])
  | next :: rest =>
      if isDelimiter next then (⟨.normal, value⟩, next :: rest)
      else (⟨.error, value⟩, rest)

/-- The loop of `ParseToken` from a state and the value so far.  It returns the
token and the text that it leaves unread. -/
def parseTokenFrom : TokenParserState → Str → Str → Token × Str
  | state, value, [] =>
      (⟨if state = .singleQuote ∨ state = .doubleQuote then .error else .eof, value⟩, [])
  | .initialWhitespace, value, c :: rest =>
      if c = '{' then (⟨.startBlock, [c]⟩, rest)
      else if c = '}' then (⟨.endBlock, [c]⟩, rest)
      else if c = '#' then parseTokenFrom .comment [c] rest
      else if c = '"' then parseTokenFrom .doubleQuote [c] rest
      else if c = '\'' then parseTokenFrom .singleQuote [c] rest
      else if c = ';' then (⟨.statementEnd, [c]⟩, rest)
      else if c = ' ' ∨ c = '\t' ∨ c = '\n' ∨ c = '\r' then
        parseTokenFrom .initialWhitespace value rest
      else parseTokenFrom .normal (value ++ [c]) rest
  | .singleQuote, value, c :: rest =>
      if c = '\'' then closeQuote (value ++ [c]) rest
      else if c = '\\' then parseTokenFrom .singleQuoteEscape value rest
      else parseTokenFrom .singleQuote (value ++ [c]) rest
  | .doubleQuote, value, c :: rest =>
      if c = '"' then closeQuote (value ++ [c]) rest
      else if c = '\\' then parseTokenFrom .doubleQuoteEscape value rest
      else parseTokenFrom .doubleQuote (value ++ [c]) rest
  | .comment, value, c :: rest =>
      if c = '\n' ∨ c = '\r' then (⟨.comment, value⟩, rest)
      else parseTokenFrom .comment (value ++ [c]) rest
  | .normal, value, c :: rest =>
      if isDelimiter c then (⟨.normal, value⟩, c :: rest)
      else parseTokenFrom .normal (value ++ [c]) rest
  | .singleQuoteEscape, value, c :: rest =>
      parseTokenFrom .singleQuote (value ++ [c]) rest
  | .doubleQuoteEscape, value, c :: rest =>
      parseTokenFrom .doubleQuote (value ++ [c]) rest

/-- `NginxConfigParser::ParseToken`. -/
def parseToken (text : Str) : Token × Str := parseTokenFrom .initialWhitespace [] text

/-- Whether the parser asks for no further token. -/
def TokenType.isLast (type : TokenType) : Bool := type = .eof || type = .error

theorem TokenType.ne_eof_of_isLast_eq_false {type : TokenType} (hlast : type.isLast = false) :
    type ≠ .eof := by
  rintro rfl
  contradiction

theorem isLast_parseTokenFrom_nil (state : TokenParserState) (value : Str) :
    (parseTokenFrom state value []).1.type.isLast = true := by
  cases state <;> rfl

theorem length_closeQuote_le (value text : Str) :
    (closeQuote value text).2.length ≤ text.length := by
  cases text with
  | nil => exact Nat.le_refl 0
  | cons next rest =>
      rw [closeQuote]
      split <;> simp

theorem length_parseTokenFrom_le (state : TokenParserState) (value text : Str) :
    (parseTokenFrom state value text).2.length ≤ text.length := by
  induction text generalizing state value with
  | nil => cases state <;> simp [parseTokenFrom]
  | cons c rest ih =>
      have hquote := length_closeQuote_le (value ++ [c]) rest
      have hrest : ∀ state value,
          (parseTokenFrom state value rest).2.length ≤ (c :: rest).length :=
        fun state value => (ih state value).trans (Nat.le_succ _)
      cases state <;> simp only [parseTokenFrom] <;>
        first
        | exact hrest _ _
        | split_ifs <;>
            first | exact hrest _ _ | exact hquote.trans (Nat.le_succ _) | simp

/-- A token takes at least one character. -/
theorem length_parseToken_lt {text : Str} (htext : text ≠ []) :
    (parseToken text).2.length < text.length := by
  obtain ⟨c, rest, rfl⟩ := List.exists_cons_of_ne_nil htext
  have hrest : ∀ state value,
      (parseTokenFrom state value rest).2.length < (c :: rest).length :=
    fun state value => Nat.lt_succ_of_le (length_parseTokenFrom_le state value rest)
  simp only [parseToken, parseTokenFrom]
  split_ifs <;> first | exact hrest _ _ | simp

/-- The tokens that `ParseToken` delivers, up to the first that is last. -/
def parseTokens (text : Str) : List Token :=
  let next := parseToken text
  if next.1.type.isLast then [next.1]
  else next.1 :: parseTokens next.2
termination_by text.length
decreasing_by
  next hlast =>
    apply length_parseToken_lt
    rintro rfl
    exact hlast rfl

theorem parseTokens_of_isLast {text : Str} (hlast : (parseToken text).1.type.isLast) :
    parseTokens text = [(parseToken text).1] := by
  rw [parseTokens]
  exact if_pos hlast

theorem parseTokens_of_parseToken {text rest : Str} {token : Token}
    (htoken : parseToken text = (token, rest)) (hlast : token.type.isLast = false) :
    parseTokens text = token :: parseTokens rest := by
  rw [parseTokens, htoken]
  exact if_neg (by simp [hlast])

end SwanServer
