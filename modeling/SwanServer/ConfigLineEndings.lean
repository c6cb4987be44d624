/-
Line ends written as CR LF.  Blanks and comments do not mind the carriage return,
but it is none of the delimiters: right behind a bare word it becomes a part of
the word, and right behind a quoted one it is an error.
-/
import SwanServer.ConfigEndOfInput
import SwanServer.ConfigWords

namespace SwanServer

/-- Every LF replaced by CR LF. -/
def crlf (text : Str) : Str := text.flatMap fun c => if c = '\n' then ['\r', '\n'] else [c]

/-- The states between the quotes of a word. -/
def TokenParserState.inQuotes (state : TokenParserState) : Bool :=
  state.isQuote || state = .singleQuoteEscape || state = .doubleQuoteEscape

/-- No LF is read between quotes. -/
def NoQuotedNewline (state : TokenParserState) (text : Str) : Prop :=
  ∀ reading ∈ readings state text, reading.2 = '\n' → reading.1.inQuotes = false

/-- The tokens with the text that is left behind each. -/
def lexemes (text : Str) : List (Token × Str) :=
  let next := parseToken text
  if next.1.type.isLast then [next]
  else next :: lexemes next.2
termination_by text.length
decreasing_by
  next hlast =>
    apply length_parseToken_lt
    rintro rfl
    exact hlast rfl

/-- Up to the first token that is not admitted, no word has an LF right behind
it. -/
def wordsEndClear : TokenType → List (Token × Str) → Bool
  | _, [] => true
  | last, (token, rest) :: others =>
      if token.type = .comment then wordsEndClear last others
      else
        !last.admits token.type ||
          !(token.type = .normal && rest.head? = some '\n') && wordsEndClear token.type others

theorem lexemes_of_isLast {text : Str} (hlast : (parseToken text).1.type.isLast) :
    lexemes text = [parseToken text] := by
  rw [lexemes]
  exact if_pos hlast

theorem lexemes_of_parseToken {text rest : Str} {token : Token}
    (htoken : parseToken text = (token, rest)) (hlast : token.type.isLast = false) :
    lexemes text = (token, rest) :: lexemes rest := by
  rw [lexemes, htoken]
  exact if_neg (by simp [hlast])

theorem crlf_cons {c : Char} (hc : c ≠ '\n') (rest : Str) : crlf (c :: rest) = c :: crlf rest := by
  rw [crlf, List.flatMap_cons, if_neg hc]
  rfl

section Lexer

variable {state state' : TokenParserState} {value text rest : Str} {token : Token}

theorem NoQuotedNewline.tail {c : Char} (hquotes : NoQuotedNewline state (c :: rest))
    (hnext : nextState c rest.head? state = some state') : NoQuotedNewline state' rest := by
  intro reading hreading
  apply hquotes
  rw [readings, hnext]
  exact List.mem_cons_of_mem _ hreading

theorem NoQuotedNewline.of_delivers (hdelivers : Delivers state value text token rest)
    (hquotes : NoQuotedNewline state text) : NoQuotedNewline .initialWhitespace rest := by
  induction hdelivers with
  | goesOn hstate hstep hnext hrest ih => exact ih (hquotes.tail (hnext _))
  | delivers hlast hkind hstep hnext => exact hquotes.tail (hnext _)
  | @leaves value rest c hc =>
      have htail : NoQuotedNewline .initialWhitespace rest := by
        apply hquotes.tail
        rw [nextState, if_pos hc]
      intro reading hreading
      rw [readings, nextState_delimiter hc] at hreading
      rcases List.mem_cons.mp hreading with rfl | hreading
      · exact fun _ => rfl
      · exact htail reading hreading
  | closes hstate hdelimiter hstep hnext =>
      apply hquotes.tail
      rw [hnext, List.head?_cons, afterQuote, if_pos hdelimiter]

theorem NoQuotedNewline.newline (hquotes : NoQuotedNewline state ('\n' :: rest)) :
    state.inQuotes = false :=
  hquotes (state, '\n') List.mem_cons_self rfl

/-- A quote is not closed by an LF. -/
theorem NoQuotedNewline.ne_newline {c : Char} (hquotes : NoQuotedNewline state (c :: rest))
    (hquote : state.isQuote = true) : c ≠ '\n' := by
  rintro rfl
  have hunquoted := hquotes.newline
  rw [TokenParserState.inQuotes, hquote] at hunquoted
  contradiction

theorem closeQuote_crlf (value : Str) {text : Str}
    (hlast : (closeQuote value text).1.type.isLast = true) :
    (closeQuote value (crlf text)).1 = (closeQuote value text).1 := by
  cases text with
  | nil => rfl
  | cons next rest =>
      by_cases hnext : isDelimiter next = true
      · rw [closeQuote, if_pos hnext] at hlast
        contradiction
      · have hne : next ≠ '\n' := by
          rintro rfl
          exact hnext rfl
        rw [crlf_cons hne, closeQuote, closeQuote, if_neg hnext, if_neg hnext]

/-- Outside of quotes nothing is read on past an LF but blanks. -/
theorem eq_initialWhitespace_of_newline {next : Option Char} (hunquoted : state.inQuotes = false)
    (hnext : nextState '\n' next state = some state') : state' = .initialWhitespace := by
  cases state <;> first | contradiction | exact (Option.some_inj.mp hnext).symm

/-- Inside a token carriage returns are not read but as blanks before it. -/
theorem parseTokenFrom_crlf_cons {value' : Str} {c : Char}
    (hquotes : NoQuotedNewline state (c :: text))
    (hstate : state' = .initialWhitespace →
      state = .initialWhitespace ∧ value' = value ∧
        (c = ' ' ∨ c = '\t' ∨ c = '\n' ∨ c = '\r'))
    (hstep : ∀ rest, parseTokenFrom state value (c :: rest) = parseTokenFrom state' value' rest)
    (hnext : ∀ next, nextState c next state = some state') :
    parseTokenFrom state value (crlf (c :: text)) = parseTokenFrom state' value' (crlf text) := by
  by_cases hc : c = '\n'
  · subst hc
    obtain ⟨rfl, rfl, -⟩ :=
      hstate (eq_initialWhitespace_of_newline (hquotes.newline) (hnext none))
    have hreturn : parseTokenFrom .initialWhitespace value' (crlf ('\n' :: text)) =
        parseTokenFrom .initialWhitespace value' ('\n' :: crlf text) := rfl
    rw [hreturn, hstep]
  · rw [crlf_cons hc, hstep]

/-- The last token is the same with carriage returns. -/
theorem Ends.parseTokenFrom_crlf (hends : Ends state value text)
    (hquotes : NoQuotedNewline state text) :
    (parseTokenFrom state value (crlf text)).1 = (parseTokenFrom state value text).1 := by
  induction hends with
  | nil => rfl
  | goesOn hstate hstep hnext hrest ih =>
      rw [parseTokenFrom_crlf_cons hquotes hstate hstep hnext, hstep]
      exact ih (hquotes.tail (hnext _))
  | closes hstate hstep hnext herror hafter =>
      rw [crlf_cons (hquotes.ne_newline hstate), hstep, hstep]
      exact closeQuote_crlf _ (by rw [herror]; rfl)

/-- What becomes of a token with carriage returns: a comment leaves the LF behind
it, a word with an LF right behind it is another word or an error, and every other
token is the same. -/
inductive CrlfToken (token : Token) (rest : Str) (result : Token × Str) : Prop where
  | comment (htoken : token.type = .comment) (hresult : result = (token, '\n' :: crlf rest))
  | same (htoken : token.type ≠ .comment)
      (hclear : (token.type = .normal && rest.head? = some '\n') = false)
      (hresult : result = (token, crlf rest))
  | word (htoken : token.type = .normal) (hrest : rest.head? = some '\n')
      (hresult : result.1.type = .error ∨
        result.1.type = .normal ∧ result.1.value ≠ token.value)

/-- An LF delivers a comment, and a bare word it only ends. -/
theorem eq_comment_of_newline (hunquoted : state.inQuotes = false)
    (hlast : token.type.isLast = false) (htype : token.type ≠ .normal)
    (hstep : ∀ rest, parseTokenFrom state value ('\n' :: rest) = (token, rest)) :
    state = .comment ∧ token = ⟨.comment, value⟩ := by
  have hnil := hstep []
  cases state with
  | initialWhitespace =>
      obtain ⟨rfl, -⟩ := Prod.mk.inj hnil
      contradiction
  | comment =>
      obtain ⟨rfl, -⟩ := Prod.mk.inj hnil
      exact ⟨rfl, rfl⟩
  | normal =>
      obtain ⟨rfl, -⟩ := Prod.mk.inj hnil
      contradiction
  | _ => contradiction

theorem Delivers.crlfToken (hdelivers : Delivers state value text token rest)
    (hreturn : '\r' ∉ text) (hquotes : NoQuotedNewline state text) :
    CrlfToken token rest (parseTokenFrom state value (crlf text)) := by
  induction hdelivers with
  | goesOn hstate hstep hnext hrest ih =>
      rw [parseTokenFrom_crlf_cons hquotes hstate hstep hnext]
      exact ih (fun hmem => hreturn (List.mem_cons_of_mem _ hmem)) (hquotes.tail (hnext _))
  | @delivers state value rest c token hlast hkind hstep hnext =>
      by_cases hc : c = '\n'
      · subst hc
        obtain ⟨rfl, rfl⟩ := eq_comment_of_newline hquotes.newline hlast hkind.1 hstep
        exact .comment rfl rfl
      · rw [crlf_cons hc, hstep]
        refine .same ?_ (by simp [hkind.1]) rfl
        intro hcomment
        rcases hkind.2 hcomment with hnewline | rfl
        · exact hc hnewline
        · exact hreturn List.mem_cons_self
  | @leaves value rest c hdelimiter =>
      by_cases hc : c = '\n'
      · subst hc
        have hword : parseTokenFrom .normal value (crlf ('\n' :: rest)) =
            (⟨.normal, value ++ ['\r']⟩, '\n' :: crlf rest) := rfl
        rw [hword]
        exact .word rfl rfl (Or.inr ⟨rfl, by simp⟩)
      · have hword : parseTokenFrom .normal value (crlf (c :: rest)) =
            (⟨.normal, value⟩, crlf (c :: rest)) := by
          rw [crlf_cons hc, parseTokenFrom, if_pos hdelimiter]
        exact .same (by simp) (by simp [hc]) hword
  | @closes state value rest c next hstate hdelimiter hstep hnext =>
      rw [crlf_cons (hquotes.ne_newline hstate), hstep]
      by_cases hnewline : next = '\n'
      · subst hnewline
        exact .word rfl rfl (Or.inl rfl)
      · refine .same (by simp) (by simp [hnewline]) ?_
        rw [crlf_cons hnewline, closeQuote, if_pos hdelimiter]

end Lexer

section Tokens

variable {text rest : Str} {token : Token}

theorem parseTokens_crlf_of_isLast (hquotes : NoQuotedNewline .initialWhitespace text)
    (hlast : (parseToken text).1.type.isLast = true) :
    parseTokens (crlf text) = parseTokens text := by
  have hsame : (parseToken (crlf text)).1 = (parseToken text).1 :=
    (ends_of_isLast hlast).parseTokenFrom_crlf hquotes
  rw [parseTokens_of_isLast hlast, parseTokens_of_isLast (hsame ▸ hlast), hsame]

/-- What becomes of the tokens of a text with carriage returns. -/
inductive CrlfTokens (token : Token) (rest : Str) (tokens : List Token) : Prop where
  | same
      (hclear : token.type = .comment ∨
        (token.type = .normal && rest.head? = some '\n') = false)
      (htokens : tokens = token :: parseTokens (crlf rest))
  | word {other : Token} {others : List Token} (htoken : token.type = .normal)
      (hrest : rest.head? = some '\n') (htokens : tokens = other :: others)
      (hother : other.type = .error ∨
        other.type = .normal ∧ other.value ≠ token.value ∧
          ∃ more, others = parseTokens more)

theorem crlfTokens (hreturn : '\r' ∉ text) (hquotes : NoQuotedNewline .initialWhitespace text)
    (htoken : parseToken text = (token, rest)) (hlast : token.type.isLast = false) :
    CrlfTokens token rest (parseTokens (crlf text)) := by
  cases (delivers_of_token htoken hlast).crlfToken hreturn hquotes with
  | comment hcomment hresult =>
      refine .same (Or.inl hcomment) ?_
      rw [parseTokens_of_parseToken hresult hlast, parseTokens_blank (by simp)]
  | same hcomment hclear hresult =>
      exact .same (Or.inr hclear) (parseTokens_of_parseToken hresult hlast)
  | word hnormal hrest hresult =>
      rcases hresult with herror | ⟨hnormal', hvalue⟩
      · have hstop : (parseToken (crlf text)).1.type.isLast = true := by
          rw [show (parseToken (crlf text)).1.type = .error from herror]
          rfl
        exact .word hnormal hrest (parseTokens_of_isLast hstop) (Or.inl herror)
      · have hgo : (parseToken (crlf text)).1.type.isLast = false := by
          rw [show (parseToken (crlf text)).1.type = .normal from hnormal']
          rfl
        exact .word hnormal hrest (parseTokens_of_parseToken rfl hgo)
          (Or.inr ⟨hnormal', hvalue, _, rfl⟩)

theorem parseTokens_crlf_of_comment (hreturn : '\r' ∉ text)
    (hquotes : NoQuotedNewline .initialWhitespace text)
    (htoken : parseToken text = (token, rest)) (hcomment : token.type = .comment) :
    parseTokens (crlf text) = token :: parseTokens (crlf rest) := by
  cases crlfTokens hreturn hquotes htoken (by rw [hcomment]; rfl) with
  | same hsame htokens => exact htokens
  | word hnormal hnewline htokens hother =>
      rw [hcomment] at hnormal
      cases hnormal

end Tokens

/-- Where no word has an LF right behind it, carriage returns change nothing. -/
theorem parseLoop_crlf {state : ParserState} {text : Str} (hreturn : '\r' ∉ text)
    (hquotes : NoQuotedNewline .initialWhitespace text)
    (hclear : wordsEndClear state.last (lexemes text) = true) :
    parseLoop state (parseTokens (crlf text)) = parseLoop state (parseTokens text) := by
  induction text using token_induction generalizing state with
  | stop text hlast => rw [parseTokens_crlf_of_isLast hquotes hlast]
  | more text token rest htoken hlast ih =>
      have hdelivers := delivers_of_token htoken hlast
      rw [lexemes_of_parseToken htoken hlast, wordsEndClear] at hclear
      have hrest : ∀ next : ParserState, wordsEndClear next.last (lexemes rest) = true →
          parseLoop next (parseTokens (crlf rest)) = parseLoop next (parseTokens rest) :=
        fun next => ih (fun hmem => hreturn (hdelivers.suffix.subset hmem))
          (hquotes.of_delivers hdelivers)
      rw [parseTokens_of_parseToken htoken hlast]
      by_cases hcomment : token.type = .comment
      · rw [if_pos hcomment] at hclear
        rw [parseTokens_crlf_of_comment hreturn hquotes htoken hcomment, parseLoop,
          if_pos hcomment, parseLoop, if_pos hcomment]
        exact hrest state hclear
      · rw [if_neg hcomment] at hclear
        have heof : token.type ≠ .eof := TokenType.ne_eof_of_isLast_eq_false hlast
        cases hadmits : state.last.admits token.type with
        | false =>
            rw [parseLoop_of_not_admits hcomment hadmits]
            cases crlfTokens hreturn hquotes htoken hlast with
            | same hsame htokens => rw [htokens, parseLoop_of_not_admits hcomment hadmits]
            | word hnormal hnewline htokens hother =>
                rw [htokens]
                rcases hother with herror | ⟨hnormal', -⟩
                · exact parseLoop_of_not_admits (by simp [herror]) (by rw [herror]; rfl)
                · rw [hnormal, ← hnormal'] at hadmits
                  exact parseLoop_of_not_admits (by simp [hnormal']) hadmits
        | true =>
            simp only [hadmits, Bool.not_true, Bool.false_or, Bool.and_eq_true,
              Bool.not_eq_eq_eq_not] at hclear
            cases crlfTokens hreturn hquotes htoken hlast with
            | same hsame htokens =>
                rw [htokens]
                cases haccept : state.accept token with
                | error fault =>
                    rw [parseLoop_of_fault hcomment heof hadmits haccept,
                      parseLoop_of_fault hcomment heof hadmits haccept]
                | ok next =>
                    rw [parseLoop_of_accept hcomment heof hadmits haccept,
                      parseLoop_of_accept hcomment heof hadmits haccept]
                    exact hrest _ hclear.2
            | word hnormal hnewline htokens hother =>
                simp [hnormal, hnewline] at hclear

/-- With no block left to go back to, `Parse` returns before any further word. -/
theorem wordsEndClear_of_empty_stack {config : NginxConfig} {text : Str}
    {result : Bool × NginxConfig}
    (hresult : parseLoop ⟨config, [], .endBlock⟩ (parseTokens text) = .ok result) :
    wordsEndClear .endBlock (lexemes text) = true := by
  induction text using token_induction with
  | stop text hlast =>
      rw [lexemes_of_isLast hlast, wordsEndClear]
      cases htype : (parseToken text).1.type <;>
        simp_all [TokenType.isLast, TokenType.admits, wordsEndClear]
  | more text token rest htoken hlast ih =>
      rw [parseTokens_of_parseToken htoken hlast] at hresult
      rw [lexemes_of_parseToken htoken hlast, wordsEndClear]
      by_cases hcomment : token.type = .comment
      · rw [parseLoop, if_pos hcomment] at hresult
        rw [if_pos hcomment]
        exact ih hresult
      · rw [if_neg hcomment]
        have hfault : ¬ (token.type = .normal ∨ token.type = .endBlock) := by
          intro hnext
          rw [parseLoop_empty_stack_fault hnext] at hresult
          cases hresult
        cases htype : token.type <;> simp_all [TokenType.isLast, TokenType.admits]

section Loop

variable {frames : List Frame} {current : NginxConfig} {words : List Str}
  {last : TokenType} {text : Str} {result : Bool × NginxConfig}

theorem startsWith_words_of_parseLoop (hfollows : Follows last words frames)
    (hresult : parseLoop (.within frames (current ++ unfinished words) last)
      (parseTokens text) = .ok result) :
    Frame.framesWords frames ++ NginxConfig.words current ++ words <+:
      NginxConfig.words result.2 :=
  (reads_parseTokens hfollows current text).startsWith_words hresult

/-- A word and another token in its place, a different word or an error, lead to
different trees. -/
theorem parseLoop_ne_of_word (hfollows : Follows last words frames) {token other : Token}
    {rest : Str} {others : List Token} (htoken : token.type = .normal)
    (hadmits : last.admits .normal = true)
    (hresult : parseLoop (.within frames (current ++ unfinished words) last)
      (token :: parseTokens rest) = .ok result)
    (hother : other.type = .error ∨
      other.type = .normal ∧ other.value ≠ token.value ∧ ∃ more, others = parseTokens more) :
    parseLoop (.within frames (current ++ unfinished words) last) (other :: others) ≠
      .ok result := by
  intro hsame
  rw [parseLoop_word hfollows htoken hadmits] at hresult
  have hprefix := startsWith_words_of_parseLoop (.normal (by simp)) hresult
  rcases hother with herror | ⟨hnormal, hvalue, more, rfl⟩
  · rw [parseLoop_of_not_admits (by simp [herror]) (by rw [herror]; rfl)] at hsame
    cases hsame
    have hwords : NginxConfig.words (Frame.plug frames (current ++ unfinished words)) =
        Frame.framesWords frames ++ NginxConfig.words current ++ words := by
      rw [Frame.words_plug, NginxConfig.words_append, NginxConfig.words_unfinished,
        List.append_assoc]
    have hlength := hprefix.length_le
    simp only [ParserState.within, hwords, List.length_append, List.length_singleton] at hlength
    omega
  · rw [parseLoop_word hfollows hnormal hadmits] at hsame
    have hprefix' := startsWith_words_of_parseLoop (.normal (by simp)) hsame
    have heq := List.prefix_of_prefix_length_le hprefix' hprefix (by simp)
    rw [List.prefix_append_right_inj, List.prefix_append_right_inj] at heq
    exact hvalue (by simpa using heq)

/-- An admitted token leads to a further state of the loop, unless it closes what is
not open. -/
theorem exists_parseLoop_cons (hfollows : Follows last words frames) {token : Token}
    (hadmits : last.admits token.type = true) (hlast : token.type.isLast = false) :
    (token.type = .endBlock ∧
      ∀ rest, parseLoop (.within frames (current ++ unfinished words) last) (token :: rest) =
        parseLoop ⟨current, [], .endBlock⟩ rest) ∨
    ∃ frames' current' words', Follows token.type words' frames' ∧
      ∀ rest, parseLoop (.within frames (current ++ unfinished words) last) (token :: rest) =
        parseLoop (.within frames' (current' ++ unfinished words') token.type) rest := by
  cases hfollows.admitted hadmits with
  | word htype =>
      rw [htype] at hadmits ⊢
      exact Or.inr ⟨_, _, _, .normal (by simp), fun _ => parseLoop_word hfollows htype hadmits⟩
  | line hwords htype =>
      rw [htype]
      exact Or.inr ⟨_, _, _, .statementEnd, fun _ => parseLoop_line hwords htype⟩
  | block hwords htype =>
      rw [htype]
      exact Or.inr ⟨_, _, _, .startBlock, fun _ => parseLoop_block hwords htype⟩
  | brace htype =>
      rw [htype] at hadmits ⊢
      cases frames with
      | cons frame outer =>
          exact Or.inr ⟨_, _, _, .endBlock, fun _ => parseLoop_close htype hadmits⟩
      | nil => exact Or.inl ⟨rfl, fun _ => parseLoop_unmatched htype hadmits⟩
  | eof htype =>
      rw [htype] at hlast
      contradiction

/-- Where carriage returns change nothing, no word has an LF right behind it. -/
theorem wordsEndClear_of_parseLoop (hfollows : Follows last words frames)
    (hreturn : '\r' ∉ text) (hquotes : NoQuotedNewline .initialWhitespace text)
    (hresult : parseLoop (.within frames (current ++ unfinished words) last)
      (parseTokens text) = .ok result)
    (hcrlf : parseLoop (.within frames (current ++ unfinished words) last)
      (parseTokens (crlf text)) = .ok result) :
    wordsEndClear last (lexemes text) = true := by
  induction text using token_induction generalizing frames current words last with
  | stop text hlast =>
      rw [lexemes_of_isLast hlast, wordsEndClear]
      cases htype : (parseToken text).1.type <;> simp_all [TokenType.isLast, wordsEndClear]
  | more text token rest htoken hlast ih =>
      have hdelivers := delivers_of_token htoken hlast
      have hreturn' : '\r' ∉ rest := fun hmem => hreturn (hdelivers.suffix.subset hmem)
      have hquotes' := hquotes.of_delivers hdelivers
      rw [parseTokens_of_parseToken htoken hlast] at hresult
      rw [lexemes_of_parseToken htoken hlast, wordsEndClear]
      by_cases hcomment : token.type = .comment
      · rw [parseLoop, if_pos hcomment] at hresult
        rw [parseTokens_crlf_of_comment hreturn hquotes htoken hcomment, parseLoop,
          if_pos hcomment] at hcrlf
        rw [if_pos hcomment]
        exact ih hfollows hreturn' hquotes' hresult hcrlf
      · rw [if_neg hcomment]
        cases hadmits : last.admits token.type with
        | false => rfl
        | true =>
            cases crlfTokens hreturn hquotes htoken hlast with
            | word hnormal hnewline htokens hother =>
                rw [htokens] at hcrlf
                rw [hnormal] at hadmits
                exact absurd hcrlf
                  (parseLoop_ne_of_word hfollows hnormal hadmits hresult hother)
            | same hsame htokens =>
                rw [htokens] at hcrlf
                rw [(hsame.resolve_left hcomment)]
                rcases exists_parseLoop_cons hfollows hadmits hlast with
                    ⟨htype, hunmatched⟩ | ⟨frames', current', words', hfollows', hstep⟩
                · rw [hunmatched] at hresult
                  rw [htype]
                  exact wordsEndClear_of_empty_stack hresult
                · rw [hstep] at hresult hcrlf
                  exact ih hfollows' hreturn' hquotes' hresult hcrlf

end Loop

/-- `Parse` leaves the same with CR LF for LF exactly if, as far as it reads, no
word has an LF right behind it. -/
theorem parse_crlf_iff {config : NginxConfig} {text : Str} {result : Bool × NginxConfig}
    (hreturn : '\r' ∉ text) (hquotes : NoQuotedNewline .initialWhitespace text)
    (hparse : parse config text = .ok result) :
    parse config (crlf text) = .ok result ↔ wordsEndClear .start (lexemes text) = true := by
  have hwithin : (⟨config, [[]], .start⟩ : ParserState) =
      .within [] (config ++ unfinished []) .start := by
    rw [unfinished, if_pos rfl, List.append_nil]
    rfl
  constructor
  · intro hcrlf
    rw [parse, hwithin] at hparse hcrlf
    exact wordsEndClear_of_parseLoop .start hreturn hquotes hparse hcrlf
  · intro hclear
    rw [← hparse]
    exact parseLoop_crlf hreturn hquotes hclear

namespace ConfigLineEndingsWitness

/-- Lines that end with a semicolon, a blank or a comment. -/
def clear : Str := "a; # b\nc \n'd' ;\n".toList

def clearTree : NginxConfig :=
  [.mk ["a".toList] none, .mk ["c".toList, "'d'".toList] none]

theorem parse_clear : parse [] clear = .ok (true, clearTree) := by
  have htokens : parseTokens clear = [⟨.normal, "a".toList⟩, ⟨.statementEnd, ";".toList⟩,
      ⟨.comment, "# b".toList⟩, ⟨.normal, "c".toList⟩, ⟨.normal, "'d'".toList⟩,
      ⟨.statementEnd, ";".toList⟩, ⟨.eof, []⟩] := by
    decide +kernel
  rw [parse, htokens]
  rfl

theorem noQuotedNewline_clear : NoQuotedNewline .initialWhitespace clear := by
  have hall : ∀ reading ∈ readings .initialWhitespace clear,
      reading.2 = '\n' → reading.1.inQuotes = false := by decide +kernel
  exact hall

theorem parse_crlf_clear : parse [] (crlf clear) = .ok (true, clearTree) ↔
    wordsEndClear .start (lexemes clear) = true :=
  parse_crlf_iff (by decide +kernel) noQuotedNewline_clear parse_clear

/-- A statement on two lines. -/
def twoLines : Str := "a\nb;".toList

theorem noQuotedNewline_twoLines : NoQuotedNewline .initialWhitespace twoLines := by
  have hall : ∀ reading ∈ readings .initialWhitespace twoLines,
      reading.2 = '\n' → reading.1.inQuotes = false := by decide +kernel
  exact hall

/-- With CR LF the first word ends with the carriage return. -/
theorem parse_crlf_twoLines :
    '\r' ∉ twoLines ∧ NoQuotedNewline .initialWhitespace twoLines ∧
      parse [] twoLines = .ok (true, [.mk ["a".toList, "b".toList] none]) ∧
      parse [] (crlf twoLines) = .ok (true, [.mk ["a\r".toList, "b".toList] none]) ∧
      parse [] (crlf twoLines) ≠ parse [] twoLines := by
  have htokens : parseTokens twoLines = [⟨.normal, "a".toList⟩, ⟨.normal, "b".toList⟩,
      ⟨.statementEnd, ";".toList⟩, ⟨.eof, []⟩] := by
    decide +kernel
  have hcrlf : parseTokens (crlf twoLines) = [⟨.normal, "a\r".toList⟩, ⟨.normal, "b".toList⟩,
      ⟨.statementEnd, ";".toList⟩, ⟨.eof, []⟩] := by
    decide +kernel
  have hparse : parse [] twoLines = .ok (true, [.mk ["a".toList, "b".toList] none]) := by
    rw [parse, htokens]
    rfl
  have hparse' : parse [] (crlf twoLines) =
      .ok (true, [.mk ["a\r".toList, "b".toList] none]) := by
    rw [parse, hcrlf]
    rfl
  refine ⟨by decide +kernel, noQuotedNewline_twoLines, hparse, hparse', ?_⟩
  rw [hparse, hparse']
  simp

end ConfigLineEndingsWitness

end SwanServer
