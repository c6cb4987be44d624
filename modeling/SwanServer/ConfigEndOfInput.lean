/-
Where the input ends.  `ParseToken` takes the end of the input inside a quote for
an error, but inside a bare word or behind a backslash for a plain end, and what
it has read of the word is dropped.
-/
import SwanServer.ConfigRoundTrip
import SwanServer.LexerState

namespace SwanServer

/-- The tokens that `Parse` acts on: the admitted ones but for the comments and
the end of the input. -/
def actedOn : TokenType → List Token → List Token
  | _, [] => []
  | last, token :: rest =>
      if token.type = .comment then actedOn last rest
      else if last.admits token.type && token.type ≠ .eof then
        token :: actedOn token.type rest
      else []

/-- The text is made of blanks, comments and the characters from which
`ParseToken` reads the given tokens.  The last comment may end with the input. -/
inductive AccountedFor : Str → List Token → Prop where
  | nil : AccountedFor [] []
  | blank {c : Char} {rest : Str} {tokens : List Token}
      (hc : c = ' ' ∨ c = '\t' ∨ c = '\n' ∨ c = '\r') (hrest : AccountedFor rest tokens) :
      AccountedFor (c :: rest) tokens
  | lastComment {body : Str} (hbody : ∀ c ∈ body, c ≠ '\n' ∧ c ≠ '\r') :
      AccountedFor ('#' :: body) []
  | comment {text rest : Str} {token : Token} {tokens : List Token}
      (htoken : parseToken text = (token, rest)) (hcomment : token.type = .comment)
      (hrest : AccountedFor rest tokens) : AccountedFor text tokens
  | token {text rest : Str} {token : Token} {tokens : List Token}
      (htoken : parseToken text = (token, rest))
      (hacted : token.type = .normal ∨ token.type = .statementEnd ∨
        token.type = .startBlock ∨ token.type = .endBlock)
      (hrest : AccountedFor rest tokens) : AccountedFor text (token :: tokens)

/-- All that is not blank and no comment went into a token that `Parse` acted
on. -/
def NothingDropped (text : Str) : Prop :=
  AccountedFor text (actedOn .start (parseTokens text))

/-- The states inside a word, bare or quoted. -/
def TokenParserState.inWord (state : TokenParserState) : Bool :=
  !(state = .initialWhitespace || state = .comment)

/-- The text ends inside a bare word or behind a backslash in a quoted one. -/
def EndsUnfinished (text : Str) : Prop :=
  lexerState .initialWhitespace text = some .normal ∨
    lexerState .initialWhitespace text = some .singleQuoteEscape ∨
    lexerState .initialWhitespace text = some .doubleQuoteEscape

section Lexer

variable {state stop : TokenParserState} {value text : Str}

theorem afterQuote_eq_some {next : Option Char} (hnext : afterQuote next = some stop) :
    stop = .initialWhitespace := by
  cases next with
  | none => contradiction
  | some c =>
      rw [afterQuote] at hnext
      by_cases hc : isDelimiter c = true
      · rw [if_pos hc] at hnext
        exact (Option.some_inj.mp hnext).symm
      · rw [if_neg hc] at hnext
        contradiction

/-- A word is left only for the initial state. -/
theorem inWord_nextState {c : Char} {next : Option Char} (hword : state.inWord = true)
    (hnext : nextState c next state = some stop) :
    stop.inWord = true ∨ stop = .initialWhitespace := by
  cases state with
  | initialWhitespace => contradiction
  | comment => contradiction
  | normal =>
      rw [nextState, Option.some_inj] at hnext
      subst hnext
      by_cases hc : isDelimiter c = true <;> simp [hc, TokenParserState.inWord]
  | singleQuoteEscape =>
      cases hnext
      exact Or.inl rfl
  | doubleQuoteEscape =>
      cases hnext
      exact Or.inl rfl
  | singleQuote =>
      rw [nextState] at hnext
      by_cases hquote : c = '\''
      · rw [if_pos hquote] at hnext
        exact Or.inr (afterQuote_eq_some hnext)
      · rw [if_neg hquote, Option.some_inj] at hnext
        subst hnext
        by_cases hslash : c = '\\' <;> simp [hslash, TokenParserState.inWord]
  | doubleQuote =>
      rw [nextState] at hnext
      by_cases hquote : c = '"'
      · rw [if_pos hquote] at hnext
        exact Or.inr (afterQuote_eq_some hnext)
      · rw [if_neg hquote, Option.some_inj] at hnext
        subst hnext
        by_cases hslash : c = '\\' <;> simp [hslash, TokenParserState.inWord]

/-- If the input ends before a word does, it ends inside the word. -/
theorem Ends.inWord (hends : Ends state value text) (hword : state.inWord = true)
    (hstop : lexerState state text = some stop) : stop.inWord = true := by
  induction hends with
  | nil =>
      rw [lexerState, Option.some_inj] at hstop
      rw [← hstop, hword]
  | goesOn hblank hstep hnext hrest ih =>
      rw [lexerState, hnext, Option.bind_some] at hstop
      rcases inWord_nextState hword (hnext none) with hword' | hinitial
      · exact ih hword' hstop
      · rw [(hblank hinitial).1] at hword
        contradiction
  | closes hquote hstep hnext herror hafter =>
      rw [lexerState, hnext, hafter] at hstop
      contradiction

/-- A comment that ends with the input has no line end. -/
theorem comment_of_isLast (hlast : (parseTokenFrom .comment value text).1.type.isLast = true) :
    ∀ c ∈ text, c ≠ '\n' ∧ c ≠ '\r' := by
  induction text generalizing value with
  | nil => simp
  | cons c text ih =>
      rw [parseTokenFrom] at hlast
      by_cases hend : c = '\n' ∨ c = '\r'
      · rw [if_pos hend] at hlast
        contradiction
      · rw [if_neg hend] at hlast
        exact List.forall_mem_cons.mpr ⟨not_or.mp hend, ih hlast⟩

/-- Outside a word the end of the input drops nothing but blanks and a comment. -/
theorem accountedFor_of_isLast (hlast : (parseToken text).1.type.isLast = true)
    (hstop : lexerState .initialWhitespace text = some stop) (hword : stop.inWord = false) :
    AccountedFor text [] := by
  induction text with
  | nil => exact .nil
  | cons c rest ih =>
      by_cases hblank : c = ' ' ∨ c = '\t' ∨ c = '\n' ∨ c = '\r'
      · have hskip : parseToken (c :: rest) = parseToken rest := by
          rcases hblank with rfl | rfl | rfl | rfl <;> rfl
        have hsame : lexerState .initialWhitespace (c :: rest) =
            lexerState .initialWhitespace rest := by
          rcases hblank with rfl | rfl | rfl | rfl <;> rfl
        exact .blank hblank (ih (hskip ▸ hlast) (hsame ▸ hstop))
      · by_cases hcomment : c = '#'
        · subst hcomment
          exact .lastComment (comment_of_isLast hlast)
        · cases ends_of_isLast hlast with
          | @goesOn _ state' _ value' _ _ hinitial hstep hnext hrest =>
              rw [lexerState, hnext, Option.bind_some] at hstop
              have hword' : state'.inWord = true := by
                have hne : state' ≠ .initialWhitespace :=
                  fun heq => hblank (hinitial heq).2.2
                have hne' : state' ≠ .comment := by
                  rintro rfl
                  have hstate := hnext none
                  rw [nextState, if_neg hcomment, Option.some_inj] at hstate
                  split_ifs at hstate
                simp [TokenParserState.inWord, hne, hne']
              rw [hrest.inWord hword' hstop] at hword
              contradiction
          | closes hquote hstep hnext herror hafter => cases hquote

theorem lexerState_comment (htext : ∀ c ∈ text, c ≠ '\n' ∧ c ≠ '\r') :
    lexerState .comment text = some .comment := by
  induction text with
  | nil => rfl
  | cons c rest ih =>
      rw [List.forall_mem_cons] at htext
      rw [lexerState, nextState, if_neg (not_or.mpr htext.1), Option.bind_some, ih htext.2]

/-- A text of which nothing is dropped does not end inside a word. -/
theorem AccountedFor.exists_lexerState {tokens : List Token}
    (haccounted : AccountedFor text tokens) :
    ∃ stop, lexerState .initialWhitespace text = some stop ∧ stop.inWord = false := by
  induction haccounted with
  | nil => exact ⟨.initialWhitespace, rfl, rfl⟩
  | @blank c rest tokens hc hrest ih =>
      obtain ⟨stop, hstop, hword⟩ := ih
      refine ⟨stop, ?_, hword⟩
      rcases hc with rfl | rfl | rfl | rfl <;> exact hstop
  | lastComment hbody => exact ⟨.comment, lexerState_comment hbody, rfl⟩
  | comment htoken hcomment hrest ih =>
      obtain ⟨stop, hstop, hword⟩ := ih
      have hdelivers := delivers_of_token htoken (by rw [hcomment]; rfl)
      exact ⟨stop, hdelivers.lexerState_eq.trans hstop, hword⟩
  | @token text rest token tokens htoken hacted hrest ih =>
      obtain ⟨stop, hstop, hword⟩ := ih
      have hlast : token.type.isLast = false := by
        rcases hacted with htype | htype | htype | htype <;> rw [htype] <;> rfl
      exact ⟨stop, (delivers_of_token htoken hlast).lexerState_eq.trans hstop, hword⟩

end Lexer

theorem actedOn_of_isLast {token : Token} (hlast : token.type.isLast = true)
    (last : TokenType) : actedOn last [token] = [] := by
  cases htype : token.type <;> simp_all [actedOn, TokenType.isLast, TokenType.admits]

/-- What an accepted text drops is what is read of a word that is not finished. -/
theorem accountedFor_of_accepted {state : ParserState} {text : Str} {tree : NginxConfig}
    (haccepted : parseLoop state (parseTokens text) = .ok (true, tree)) :
    ∃ stop, lexerState .initialWhitespace text = some stop ∧ stop.isQuote = false ∧
      (stop.inWord = false → AccountedFor text (actedOn state.last (parseTokens text))) := by
  induction text using token_induction generalizing state with
  | stop text hlast =>
      rw [parseTokens_of_isLast hlast] at haccepted ⊢
      rcases (ends_of_isLast hlast).type_cases with ⟨stop, hstop, hquote, -⟩ | ⟨-, herror⟩
      · refine ⟨stop, hstop, hquote, ?_⟩
        intro hword
        rw [actedOn_of_isLast hlast]
        exact accountedFor_of_isLast hlast hstop hword
      · change (parseToken text).1.type = .error at herror
        rw [parseLoop_of_not_admits (by simp [herror]) (by rw [herror]; rfl)] at haccepted
        cases haccepted
  | more text token rest htoken hlast ih =>
      have hdelivers : Delivers .initialWhitespace [] text token rest :=
        delivers_of_token htoken hlast
      rw [hdelivers.lexerState_eq, parseTokens_of_parseToken htoken hlast]
      rw [parseTokens_of_parseToken htoken hlast] at haccepted
      by_cases hcomment : token.type = .comment
      · rw [parseLoop, if_pos hcomment] at haccepted
        obtain ⟨stop, hstop, hquote, haccounted⟩ := ih haccepted
        rw [actedOn, if_pos hcomment]
        refine ⟨stop, hstop, hquote, ?_⟩
        exact fun hword => .comment htoken hcomment (haccounted hword)
      · have heof : token.type ≠ .eof := TokenType.ne_eof_of_isLast_eq_false hlast
        cases hadmits : state.last.admits token.type with
        | false =>
            rw [parseLoop_of_not_admits hcomment hadmits] at haccepted
            cases haccepted
        | true =>
            cases haccept : state.accept token with
            | error fault =>
                rw [parseLoop_of_fault hcomment heof hadmits haccept] at haccepted
                cases haccepted
            | ok next =>
                rw [parseLoop_of_accept hcomment heof hadmits haccept] at haccepted
                obtain ⟨stop, hstop, hquote, haccounted⟩ := ih haccepted
                have hacted : token.type = .normal ∨ token.type = .statementEnd ∨
                    token.type = .startBlock ∨ token.type = .endBlock := by
                  cases htype : token.type <;> simp_all [TokenType.admits]
                rw [actedOn, if_neg hcomment, if_pos (by simp [hadmits, heof])]
                refine ⟨stop, hstop, hquote, ?_⟩
                exact fun hword => .token htoken hacted (haccounted hword)

/-- An accepted text is accounted for exactly if it does not end inside a bare
word or behind a backslash in a quoted one. -/
theorem nothingDropped_iff {config tree : NginxConfig} {text : Str}
    (haccepted : parse config text = .ok (true, tree)) :
    NothingDropped text ↔ ¬ EndsUnfinished text := by
  obtain ⟨stop, hstop, hquote, haccounted⟩ := accountedFor_of_accepted haccepted
  rw [EndsUnfinished, hstop]
  constructor
  · intro hnothing
    obtain ⟨stop', hstop', hword⟩ := hnothing.exists_lexerState
    rw [hstop, Option.some_inj] at hstop'
    subst hstop'
    rintro (hunfinished | hunfinished | hunfinished) <;> cases hunfinished <;> contradiction
  · intro hfinished
    apply haccounted
    cases stop <;> first | rfl | contradiction

namespace ConfigEndOfInputWitness

/-- A statement and a comment that the end of the input cuts off. -/
def finished : Str := "a; # b".toList

theorem parse_finished : parse [] finished = .ok (true, [.mk ["a".toList] none]) := by
  have htokens : parseTokens finished =
      [⟨.normal, "a".toList⟩, ⟨.statementEnd, ";".toList⟩, ⟨.eof, "# b".toList⟩] := by
    decide +kernel
  rw [parse, htokens]
  rfl

theorem nothingDropped_finished : NothingDropped finished ↔ ¬ EndsUnfinished finished :=
  nothingDropped_iff parse_finished

/-- A statement and a word that the end of the input cuts off. -/
def unfinished : Str := "a; b".toList

/-- The text is accepted, and its last word is dropped. -/
theorem drops_unfinished :
    parse [] unfinished = .ok (true, [.mk ["a".toList] none]) ∧
      ¬ NothingDropped unfinished := by
  have htokens : parseTokens unfinished =
      [⟨.normal, "a".toList⟩, ⟨.statementEnd, ";".toList⟩, ⟨.eof, "b".toList⟩] := by
    decide +kernel
  constructor
  · rw [parse, htokens]
    rfl
  · intro hnothing
    obtain ⟨stop, hstop, hword⟩ := hnothing.exists_lexerState
    have hnormal : lexerState .initialWhitespace unfinished = some .normal := rfl
    rw [hnormal, Option.some_inj] at hstop
    subst hstop
    contradiction

end ConfigEndOfInputWitness

end SwanServer
