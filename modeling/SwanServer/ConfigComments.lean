/-
A comment between two tokens.  The lexer gives it back as a token of its own and
`Parse` skips it before it looks at anything else.
-/
import SwanServer.ConfigRoundTrip
import SwanServer.ConfigRuns
import SwanServer.LexerState

namespace SwanServer

variable {state : TokenParserState} {value text : Str}

/-- Where the input ends before a token has begun, only blanks were read. -/
theorem Ends.append (hends : Ends state value text)
    (hstate : lexerState state text = some .initialWhitespace) :
    state = .initialWhitespace ∧
      ∀ more, parseTokenFrom state value (text ++ more) = parseTokenFrom state value more := by
  induction hends with
  | nil =>
      rw [lexerState, Option.some_inj] at hstate
      exact ⟨hstate, fun more => rfl⟩
  | goesOn hblank hstep hnext hrest ih =>
      rw [lexerState, hnext, Option.bind_some] at hstate
      obtain ⟨hinitial, happend⟩ := ih hstate
      obtain ⟨rfl, rfl, -⟩ := hblank hinitial
      refine ⟨rfl, ?_⟩
      intro more
      rw [List.cons_append, hstep, happend, hinitial]
  | closes hquote hstep hnext herror hafter =>
      rw [lexerState, hnext, hafter] at hstate
      contradiction

/-- A text that ends between two tokens is lexed without regard to what
follows. -/
theorem exists_parseTokens_append
    (htext : lexerState .initialWhitespace text = some .initialWhitespace) :
    ∃ tokens, ∀ more, parseTokens (text ++ more) = tokens ++ parseTokens more := by
  induction text using token_induction with
  | stop text hlast =>
      refine ⟨[], ?_⟩
      intro more
      exact parseTokens_congr (((ends_of_isLast hlast).append htext).2 more)
  | more text token rest htoken hlast ih =>
      have hdelivers := delivers_of_token htoken hlast
      obtain ⟨tokens, htokens⟩ := ih (hdelivers.lexerState_eq ▸ htext)
      refine ⟨token :: tokens, ?_⟩
      intro more
      rw [parseTokens_of_parseToken (hdelivers.append more) hlast, htokens, List.cons_append]

theorem parseTokenFrom_comment {body : Str} (hbody : ∀ c ∈ body, c ≠ '\n' ∧ c ≠ '\r')
    (value rest : Str) :
    parseTokenFrom .comment value (body ++ '\n' :: rest) = (⟨.comment, value ++ body⟩, rest) := by
  induction body generalizing value with
  | nil => simp [parseTokenFrom]
  | cons c body ih =>
      rw [List.forall_mem_cons] at hbody
      have hc : ¬ (c = '\n' ∨ c = '\r') := not_or.mpr hbody.1
      rw [List.cons_append, parseTokenFrom, if_neg hc, ih hbody.2]
      simp

theorem parseTokens_comment {body : Str} (hbody : ∀ c ∈ body, c ≠ '\n' ∧ c ≠ '\r')
    (rest : Str) :
    parseTokens ('#' :: (body ++ '\n' :: rest)) =
      ⟨.comment, '#' :: body⟩ :: parseTokens rest :=
  parseTokens_of_parseToken (parseTokenFrom_comment hbody ['#'] rest) rfl

/-- A comment line between two tokens changes neither the verdict nor the tree. -/
theorem parse_comment_line (config : NginxConfig) {front body : Str}
    (hfront : lexerState .initialWhitespace front = some .initialWhitespace)
    (hbody : ∀ c ∈ body, c ≠ '\n' ∧ c ≠ '\r') (back : Str) :
    parse config (front ++ '#' :: (body ++ '\n' :: back)) = parse config (front ++ back) := by
  obtain ⟨tokens, htokens⟩ := exists_parseTokens_append hfront
  have hskip : withoutComments (tokens ++ ⟨.comment, '#' :: body⟩ :: parseTokens back) =
      withoutComments (tokens ++ parseTokens back) := by
    simp [withoutComments]
  rw [parse, parse, htokens, htokens, parseTokens_comment hbody, ← parseLoop_withoutComments,
    hskip, parseLoop_withoutComments]

namespace ConfigCommentsWitness

/-- The comment stands between the words of one statement. -/
theorem parse_comment_line_inside :
    parse [] ("a ".toList ++ '#' :: (" b;\x7d".toList ++ '\n' :: "c;".toList)) =
      parse [] ("a ".toList ++ "c;".toList) :=
  parse_comment_line [] rfl (by simp) "c;".toList

end ConfigCommentsWitness

end SwanServer
