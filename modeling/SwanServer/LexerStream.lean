/-
`ParseToken` on an input stream.  Every pass of its loop takes a character, and the
character that ends a word is given back with `unget`.  It delivers what the lexer
on texts delivers, and leaves the same text.
-/
import SwanServer.LexerState
import SwanServer.Loop

namespace SwanServer

/-- An `std::istream`: the characters that were read, the last one first, those that
are left, and whether it is `good()`. -/
structure Istream where
  before : Str
  rest : Str
  good : Bool
deriving DecidableEq

namespace Istream

/-- A stream that nothing was read of. -/
def ofText (text : Str) : Istream := ⟨[], text, true⟩

/-- `get()`, as a `char` also where it is `EOF`. -/
def get (input : Istream) : Char × Istream :=
  match input.good, input.rest with
  | true, c :: rest => (c, ⟨c :: input.before, rest, true⟩)
  | _, _ => ('\xff', { input with good := false })

/-- `unget()`. -/
def unget (input : Istream) : Istream :=
  match input.good, input.before with
  | true, c :: before => ⟨before, c :: input.rest, true⟩
  | _, _ => { input with good := false }

/-- A quoted word is closed: the character behind it is only looked at. -/
def closeQuote (value : Str) (input : Istream) : Token × Istream :=
  let (next, input) := input.get
  if isDelimiter next then (⟨.normal, value⟩, input.unget) else (⟨.error, value⟩, input)

/-- A character that was taken makes the rest shorter. -/
theorem length_rest_get {input : Istream} (hgood : input.get.2.good = true) :
    input.get.2.rest.length < input.rest.length := by
  obtain ⟨before, rest, good⟩ := input
  cases good with
  | false => contradiction
  | true =>
      cases rest with
      | nil => contradiction
      | cons c rest => exact Nat.lt_succ_self _

end Istream

/-- The variables of `ParseToken`. -/
structure TokenScan where
  state : TokenParserState
  value : Str
  input : Istream

namespace TokenScan

/-- A character inside a quoted word; `escape` is the state behind a backslash. -/
def readQuoted (quote : Char) (escape : TokenParserState) (c : Char) (scan : TokenScan) :
    TokenScan ⊕ Token × Istream :=
  let value := scan.value ++ [c]
  if c = quote then .inr (scan.input.closeQuote value)
  else if c = '\\' then .inl { scan with state := escape, value := value.dropLast }
  else .inl { scan with value := value }

/-- The `switch` of `ParseToken` on a character. -/
def readChar (c : Char) (scan : TokenScan) : TokenScan ⊕ Token × Istream :=
  match scan.state with
  | .initialWhitespace =>
      if c = '{' then .inr (⟨.startBlock, [c]⟩, scan.input)
      else if c = '}' then .inr (⟨.endBlock, [c]⟩, scan.input)
      else if c = '#' then .inl { scan with state := .comment, value := [c] }
      else if c = '"' then .inl { scan with state := .doubleQuote, value := [c] }
      else if c = '\'' then .inl { scan with state := .singleQuote, value := [c] }
      else if c = ';' then .inr (⟨.statementEnd, [c]⟩, scan.input)
      else if c = ' ' ∨ c = '\t' ∨ c = '\n' ∨ c = '\r' then .inl scan
      else .inl { scan with state := .normal, value := scan.value ++ [c] }
  | .singleQuote => scan.readQuoted '\'' .singleQuoteEscape c
  | .doubleQuote => scan.readQuoted '"' .doubleQuoteEscape c
  | .comment =>
      if c = '\n' ∨ c = '\r' then .inr (⟨.comment, scan.value⟩, scan.input)
      else .inl { scan with value := scan.value ++ [c] }
  | .normal =>
      if isDelimiter c then .inr (⟨.normal, scan.value⟩, scan.input.unget)
      else .inl { scan with value := scan.value ++ [c] }
  | .singleQuoteEscape =>
      .inl { scan with state := .singleQuote, value := scan.value ++ [c] }
  | .doubleQuoteEscape =>
      .inl { scan with state := .doubleQuote, value := scan.value ++ [c] }

/-- What `ParseToken` returns once the stream is not good any more. -/
def atEnd (scan : TokenScan) : Token × Istream :=
  (⟨if scan.state = .singleQuote ∨ scan.state = .doubleQuote then .error else .eof, scan.value⟩,
    scan.input)

/-- A pass of the loop of `ParseToken`. -/
def pass (scan : TokenScan) : TokenScan ⊕ Token × Istream :=
  if scan.input.good then
    let (c, input) := scan.input.get
    let scan := { scan with input := input }
    if input.good then scan.readChar c else .inr scan.atEnd
  else .inr scan.atEnd

/-- While the loop goes on, nothing is given back. -/
theorem input_of_readChar {c : Char} {scan next : TokenScan}
    (hnext : scan.readChar c = .inl next) : next.input = scan.input := by
  obtain ⟨state, value, input⟩ := scan
  cases state <;> simp only [readChar, readQuoted] at hnext <;>
    first
    | cases hnext; rfl
    | split_ifs at hnext <;> cases hnext <;> rfl

/-- A scan that has left the white space has a value. -/
def Started (scan : TokenScan) : Prop := scan.state ≠ .initialWhitespace → scan.value ≠ []

/-- A token that is not the last has a value. -/
def Valued (outcome : Token × Istream) : Prop :=
  outcome.1.type.isLast = false → outcome.1.value ≠ []

/-- What is taken back from the value is the character that was just added. -/
theorem started_readChar (c : Char) {scan : TokenScan} (hscan : scan.Started) :
    (scan.readChar c).elim Started Valued := by
  obtain ⟨state, value, input⟩ := scan
  have hadd : ∀ state input, Started ⟨state, value ++ [c], input⟩ :=
    fun _ _ _ => List.append_ne_nil_of_right_ne_nil value (List.cons_ne_nil c [])
  have hone : ∀ state input, Started ⟨state, [c], input⟩ := fun _ _ _ => List.cons_ne_nil c []
  have hquoted : ∀ quote escape, Started ⟨escape, value, input⟩ →
      (readQuoted quote escape c ⟨state, value, input⟩).elim Started Valued := by
    intro quote escape hescape
    simp only [readQuoted]
    split_ifs
    · simp only [Sum.elim_inr, Istream.closeQuote]
      split_ifs
      · exact fun _ => hadd .normal input (by simp)
      · intro hlast
        contradiction
    · rw [List.dropLast_concat]
      exact hescape
    · exact hadd _ _
  cases state with
  | initialWhitespace =>
      simp only [readChar]
      split_ifs
      all_goals
        first
        | exact hadd _ _
        | exact hone _ _
        | exact hscan
        | exact fun _ => List.cons_ne_nil c []
  | singleQuote => exact hquoted _ _ fun _ => hscan (by simp)
  | doubleQuote => exact hquoted _ _ fun _ => hscan (by simp)
  | comment =>
      simp only [readChar]
      split_ifs
      · exact fun _ => hscan (by simp)
      · exact hadd _ _
  | normal =>
      simp only [readChar]
      split_ifs
      · exact fun _ => hscan (by simp)
      · exact hadd _ _
  | singleQuoteEscape => exact hadd _ _
  | doubleQuoteEscape => exact hadd _ _

theorem valued_atEnd (scan : TokenScan) : Valued scan.atEnd := by
  rw [Valued, atEnd]
  split_ifs <;>
    intro hlast <;>
    contradiction

theorem started_pass (scan : TokenScan) (hscan : scan.Started) :
    scan.pass.elim Started Valued := by
  simp only [pass]
  split_ifs
  · exact started_readChar _ hscan
  · exact valued_atEnd _
  · exact valued_atEnd _

theorem length_rest_of_pass {scan next : TokenScan} (hnext : scan.pass = .inl next) :
    next.input.rest.length < scan.input.rest.length := by
  simp only [pass] at hnext
  split_ifs at hnext with hgood hget
  rw [input_of_readChar hnext]
  exact Istream.length_rest_get hget

end TokenScan

/-- The loop of `ParseToken`. -/
def tokenLoop : Loop TokenScan (Token × Istream) where
  pass := TokenScan.pass
  measure scan := scan.input.rest.length
  shrinks := TokenScan.length_rest_of_pass

/-- `NginxConfigParser::ParseToken` with an empty value. -/
def Istream.parseToken (input : Istream) : Token × Istream :=
  tokenLoop.run ⟨.initialWhitespace, [], input⟩

/-- A token from a stream is the one from its text and leaves the same text; the
stream stays good unless the token is the last. -/
structure Agrees (outcome : Token × Istream) (expected : Token × Str) : Prop where
  token : outcome.1 = expected.1
  rest : outcome.2.rest = expected.2
  good : expected.1.type.isLast = false → outcome.2.good = true

section Agreement

variable {state : TokenParserState} {value before text : Str}

theorem agrees_closeQuote (value before text : Str) :
    Agrees (Istream.closeQuote value ⟨before, text, true⟩) (closeQuote value text) := by
  cases text with
  | nil => exact ⟨rfl, rfl, by simp [closeQuote, TokenType.isLast]⟩
  | cons next rest =>
      rw [Istream.closeQuote, closeQuote, Istream.get]
      by_cases hnext : isDelimiter next = true
      · simp only [if_pos hnext]
        exact ⟨rfl, rfl, fun _ => rfl⟩
      · simp only [if_neg hnext]
        exact ⟨rfl, rfl, fun _ => rfl⟩

section Character

variable {c : Char} {rest : Str}
  (hrest : ∀ state value, Agrees (tokenLoop.run ⟨state, value, ⟨c :: before, rest, true⟩⟩)
    (parseTokenFrom state value rest))

include hrest

theorem agrees_readQuoted (quote : Char) (escape : TokenParserState) :
    Agrees ((TokenScan.readQuoted quote escape c
        ⟨state, value, ⟨c :: before, rest, true⟩⟩).elim tokenLoop.run id)
      (if c = quote then closeQuote (value ++ [c]) rest
        else if c = '\\' then parseTokenFrom escape value rest
        else parseTokenFrom state (value ++ [c]) rest) := by
  simp only [TokenScan.readQuoted]
  split_ifs
  · exact agrees_closeQuote _ _ _
  · rw [List.dropLast_concat]
    exact hrest _ _
  · exact hrest _ _

/-- Where the text goes on alike, a character is read alike. -/
theorem agrees_readChar :
    Agrees ((TokenScan.readChar c ⟨state, value, ⟨c :: before, rest, true⟩⟩).elim tokenLoop.run id)
      (parseTokenFrom state value (c :: rest)) := by
  have hdelivers : ∀ token, Agrees (token, ⟨c :: before, rest, true⟩) (token, rest) :=
    fun _ => ⟨rfl, rfl, fun _ => rfl⟩
  cases state with
  | initialWhitespace =>
      simp only [TokenScan.readChar, parseTokenFrom]
      split_ifs
      all_goals
        first
        | exact hrest _ _
        | exact hdelivers _
  | singleQuote =>
      rw [parseTokenFrom]
      exact agrees_readQuoted hrest _ _
  | doubleQuote =>
      rw [parseTokenFrom]
      exact agrees_readQuoted hrest _ _
  | comment =>
      simp only [TokenScan.readChar, parseTokenFrom]
      split_ifs
      · exact hdelivers _
      · exact hrest _ _
  | normal =>
      simp only [TokenScan.readChar, parseTokenFrom]
      split_ifs
      · exact ⟨rfl, rfl, fun _ => rfl⟩
      · exact hrest _ _
  | singleQuoteEscape => exact hrest _ _
  | doubleQuoteEscape => exact hrest _ _

end Character

theorem agrees_run (state : TokenParserState) (value before text : Str) :
    Agrees (tokenLoop.run ⟨state, value, ⟨before, text, true⟩⟩)
      (parseTokenFrom state value text) := by
  induction text generalizing state value before with
  | nil =>
      have hlast := isLast_parseTokenFrom_nil state value
      rw [tokenLoop.run_eq]
      refine ⟨?_, ?_, ?_⟩
      · rw [parseTokenFrom]
        rfl
      · rw [parseTokenFrom]
        rfl
      · rw [hlast]
        intro hnot
        contradiction
  | cons c rest ih =>
      rw [tokenLoop.run_eq]
      exact agrees_readChar fun state value => ih state value (c :: before)

end Agreement

/-- `ParseToken` on a good stream. -/
theorem agrees_parseToken (before text : Str) :
    Agrees (Istream.parseToken ⟨before, text, true⟩) (parseToken text) :=
  agrees_run .initialWhitespace [] before text

section Progress

variable {input left : Istream} {token : Token}

theorem parseToken_of_not_good (hgood : input.good = false) :
    input.parseToken = (⟨.eof, []⟩, input) := by
  apply Loop.run_of_inr
  change TokenScan.pass _ = _
  rw [TokenScan.pass, if_neg (by simp [hgood])]
  rfl

theorem valued_parseToken (input : Istream) : TokenScan.Valued input.parseToken := by
  apply Loop.run_invariant TokenScan.started_pass
  exact fun hstate => absurd rfl hstate

/-- A token that is not the last comes from the text of the stream. -/
theorem parseToken_of_stream (htoken : input.parseToken = (token, left))
    (hlast : token.type.isLast = false) : parseToken input.rest = (token, left.rest) := by
  obtain ⟨before, text, good⟩ := input
  cases good with
  | false =>
      rw [parseToken_of_not_good rfl] at htoken
      cases htoken
      contradiction
  | true =>
      obtain ⟨hsame, hrest, -⟩ := agrees_parseToken before text
      rw [htoken] at hsame hrest
      exact Prod.ext hsame.symm hrest.symm

/-- A token that is not the last leaves less of the input, and it has a value. -/
theorem parseToken_progress (htoken : input.parseToken = (token, left))
    (hlast : token.type.isLast = false) :
    left.rest <:+ input.rest ∧ left.rest.length < input.rest.length ∧ token.value ≠ [] := by
  have htext := parseToken_of_stream htoken hlast
  refine ⟨(delivers_of_token htext hlast).suffix, ?_, ?_⟩
  · have hne : input.rest ≠ [] := by
      intro hnil
      have hend : (parseToken []).1.type.isLast = true := rfl
      rw [← hnil, htext, hlast] at hend
      contradiction
    have hlength := length_parseToken_lt hne
    rwa [htext] at hlength
  · have hvalue := valued_parseToken input
    rw [htoken] at hvalue
    exact hvalue hlast

end Progress

end SwanServer
