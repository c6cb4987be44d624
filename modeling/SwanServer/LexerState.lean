/-
The state of `ParseToken` from character to character.  It runs through the
tokens of a text as one automaton, since every token ends in the state in which
the next one begins.
-/
import SwanServer.ConfigLexer

namespace SwanServer

/-- After a closing quote a delimiter ends the token; anything else, also the end
of the input, is an error. -/
def afterQuote : Option Char → Option TokenParserState
  | none => none
  | some next => if isDelimiter next then some .initialWhitespace else none

/-- The state after a character, given the character that follows it, or `none`
once an error is reported.  A token that ends leaves the initial state. -/
def nextState (c : Char) (next : Option Char) :
    TokenParserState → Option TokenParserState
  | .initialWhitespace =>
      some <|
        if c = '#' then .comment
        else if c = '"' then .doubleQuote
        else if c = '\'' then .singleQuote
        else if isDelimiter c || c = '\r' then .initialWhitespace
        else .normal
  | .singleQuote =>
      if c = '\'' then afterQuote next
      else some (if c = '\\' then .singleQuoteEscape else .singleQuote)
  | .doubleQuote =>
      if c = '"' then afterQuote next
      else some (if c = '\\' then .doubleQuoteEscape else .doubleQuote)
  | .comment => some (if c = '\n' ∨ c = '\r' then .initialWhitespace else .comment)
  | .normal => some (if isDelimiter c then .initialWhitespace else .normal)
  | .singleQuoteEscape => some .singleQuote
  | .doubleQuoteEscape => some .doubleQuote

/-- The state at the end of a text. -/
def lexerState : TokenParserState → Str → Option TokenParserState
  | state, [] => some state
  | state, c :: rest => (nextState c rest.head? state).bind (lexerState · rest)

/-- The characters of a text with the states in which they are read, up to the
first error. -/
def readings : TokenParserState → Str → List (TokenParserState × Char)
  | _, [] => []
  | state, c :: rest =>
      (state, c) :: (nextState c rest.head? state).elim [] (readings · rest)

/-- The states in which the end of the input is an error. -/
def TokenParserState.isQuote (state : TokenParserState) : Bool :=
  state = .singleQuote || state = .doubleQuote

/-- What `ParseToken` does with a character, whatever follows it: it goes on, it
delivers a token, it leaves a delimiter behind a word, or it closes a quote. -/
inductive CharStep (state : TokenParserState) (value : Str) (c : Char) : Prop where
  | goesOn {state' : TokenParserState} {value' : Str}
      (hstate : state' = .initialWhitespace →
        state = .initialWhitespace ∧ value' = value ∧
          (c = ' ' ∨ c = '\t' ∨ c = '\n' ∨ c = '\r'))
      (htoken : ∀ rest,
        parseTokenFrom state value (c :: rest) = parseTokenFrom state' value' rest)
      (hnext : ∀ next, nextState c next state = some state')
  | delivers {token : Token} (hlast : token.type.isLast = false)
      (hkind : token.type ≠ .normal ∧ (token.type = .comment → c = '\n' ∨ c = '\r'))
      (htoken : ∀ rest, parseTokenFrom state value (c :: rest) = (token, rest))
      (hnext : ∀ next, nextState c next state = some .initialWhitespace)
  | leaves (hstate : state = .normal) (hc : isDelimiter c = true)
      (htoken : ∀ rest,
        parseTokenFrom state value (c :: rest) = (⟨.normal, value⟩, c :: rest))
  | closes (hstate : state.isQuote = true)
      (htoken : ∀ rest,
        parseTokenFrom state value (c :: rest) = closeQuote (value ++ [c]) rest)
      (hnext : ∀ next, nextState c next state = afterQuote next)

theorem charStep_initialWhitespace (value : Str) (c : Char) :
    CharStep .initialWhitespace value c := by
  by_cases hspecial : c = '{' ∨ c = '}' ∨ c = '#' ∨ c = '"' ∨ c = '\'' ∨ c = ';' ∨
      c = ' ' ∨ c = '\t' ∨ c = '\n' ∨ c = '\r'
  · rcases hspecial with rfl | rfl | rfl | rfl | rfl | rfl | rfl | rfl | rfl | rfl
    · exact .delivers rfl (by simp) (fun _ => rfl) (fun _ => rfl)
    · exact .delivers rfl (by simp) (fun _ => rfl) (fun _ => rfl)
    · exact .goesOn (by simp) (fun _ => rfl) (fun _ => rfl)
    · exact .goesOn (by simp) (fun _ => rfl) (fun _ => rfl)
    · exact .goesOn (by simp) (fun _ => rfl) (fun _ => rfl)
    · exact .delivers rfl (by simp) (fun _ => rfl) (fun _ => rfl)
    all_goals exact .goesOn (by simp) (fun _ => rfl) (fun _ => rfl)
  · simp only [not_or] at hspecial
    refine @CharStep.goesOn _ _ _ .normal (value ++ [c]) (by simp) ?_ ?_
    · intro rest
      simp [parseTokenFrom, hspecial]
    · intro next
      simp [nextState, isDelimiter, hspecial]

theorem charStep (state : TokenParserState) (value : Str) (c : Char) :
    CharStep state value c := by
  cases state with
  | initialWhitespace => exact charStep_initialWhitespace value c
  | singleQuote =>
      by_cases hquote : c = '\''
      · exact .closes rfl (by simp [parseTokenFrom, hquote]) (by simp [nextState, hquote])
      · by_cases hslash : c = '\\'
        · exact @CharStep.goesOn _ _ _ .singleQuoteEscape value (by simp)
            (by simp [parseTokenFrom, hslash]) (by simp [nextState, hslash])
        · exact @CharStep.goesOn _ _ _ .singleQuote (value ++ [c]) (by simp)
            (by simp [parseTokenFrom, hquote, hslash]) (by simp [nextState, hquote, hslash])
  | doubleQuote =>
      by_cases hquote : c = '"'
      · exact .closes rfl (by simp [parseTokenFrom, hquote]) (by simp [nextState, hquote])
      · by_cases hslash : c = '\\'
        · exact @CharStep.goesOn _ _ _ .doubleQuoteEscape value (by simp)
            (by simp [parseTokenFrom, hslash]) (by simp [nextState, hslash])
        · exact @CharStep.goesOn _ _ _ .doubleQuote (value ++ [c]) (by simp)
            (by simp [parseTokenFrom, hquote, hslash]) (by simp [nextState, hquote, hslash])
  | comment =>
      by_cases hend : c = '\n' ∨ c = '\r'
      · exact @CharStep.delivers _ _ _ ⟨.comment, value⟩ rfl
          (by simp [hend]) (by simp [parseTokenFrom, hend]) (by simp [nextState, hend])
      · exact @CharStep.goesOn _ _ _ .comment (value ++ [c]) (by simp)
          (by simp [parseTokenFrom, hend]) (by simp [nextState, hend])
  | normal =>
      by_cases hc : isDelimiter c = true
      · exact .leaves rfl hc (by simp [parseTokenFrom, hc])
      · exact @CharStep.goesOn _ _ _ .normal (value ++ [c]) (by simp)
          (by simp [parseTokenFrom, hc]) (by simp [nextState, hc])
  | singleQuoteEscape =>
      exact @CharStep.goesOn _ _ _ .singleQuote _ (by simp) (fun _ => rfl) (fun _ => rfl)
  | doubleQuoteEscape =>
      exact @CharStep.goesOn _ _ _ .doubleQuote _ (by simp) (fun _ => rfl) (fun _ => rfl)

theorem closeQuote_cases (value text : Str) :
    (closeQuote value text).1.type = .error ∧ afterQuote text.head? = none ∨
      closeQuote value text = (⟨.normal, value⟩, text) ∧
        afterQuote text.head? = some .initialWhitespace := by
  cases text with
  | nil => exact Or.inl ⟨rfl, rfl⟩
  | cons next rest =>
      simp only [closeQuote, List.head?_cons, afterQuote]
      by_cases hnext : isDelimiter next = true <;> simp [hnext]

theorem nextState_delimiter {c : Char} (hc : isDelimiter c = true) (next : Option Char) :
    nextState c next .initialWhitespace = some .initialWhitespace := by
  have hspecial : c ≠ '#' ∧ c ≠ '"' ∧ c ≠ '\'' := by
    refine ⟨?_, ?_, ?_⟩ <;> rintro rfl <;> contradiction
  simp [nextState, hspecial, hc]

/-- Texts are gone through token by token. -/
@[elab_as_elim]
theorem token_induction {motive : Str → Prop}
    (stop : ∀ text, (parseToken text).1.type.isLast = true → motive text)
    (more : ∀ text token rest, parseToken text = (token, rest) → token.type.isLast = false →
      motive rest → motive text) (text : Str) : motive text := by
  induction text using parseTokens.induct with
  | case1 text next hlast => exact stop text hlast
  | case2 text next hlast ih => exact more text next.1 next.2 rfl (by simpa using hlast) ih

/-- How a token that is not the last comes out of a text, character by
character. -/
inductive Delivers : TokenParserState → Str → Str → Token → Str → Prop where
  | goesOn {state state' : TokenParserState} {value value' text rest : Str} {c : Char}
      {token : Token}
      (hstate : state' = .initialWhitespace →
        state = .initialWhitespace ∧ value' = value ∧
          (c = ' ' ∨ c = '\t' ∨ c = '\n' ∨ c = '\r'))
      (hstep : ∀ rest,
        parseTokenFrom state value (c :: rest) = parseTokenFrom state' value' rest)
      (hnext : ∀ next, nextState c next state = some state')
      (hrest : Delivers state' value' text token rest) :
      Delivers state value (c :: text) token rest
  | delivers {state : TokenParserState} {value rest : Str} {c : Char} {token : Token}
      (hlast : token.type.isLast = false)
      (hkind : token.type ≠ .normal ∧ (token.type = .comment → c = '\n' ∨ c = '\r'))
      (hstep : ∀ rest, parseTokenFrom state value (c :: rest) = (token, rest))
      (hnext : ∀ next, nextState c next state = some .initialWhitespace) :
      Delivers state value (c :: rest) token rest
  | leaves {value rest : Str} {c : Char} (hc : isDelimiter c = true) :
      Delivers .normal value (c :: rest) ⟨.normal, value⟩ (c :: rest)
  | closes {state : TokenParserState} {value rest : Str} {c next : Char}
      (hstate : state.isQuote = true) (hdelimiter : isDelimiter next = true)
      (hstep : ∀ rest,
        parseTokenFrom state value (c :: rest) = closeQuote (value ++ [c]) rest)
      (hnext : ∀ next, nextState c next state = afterQuote next) :
      Delivers state value (c :: next :: rest) ⟨.normal, value ++ [c]⟩ (next :: rest)

/-- How the input ends before a token does, character by character. -/
inductive Ends : TokenParserState → Str → Str → Prop where
  | nil {state : TokenParserState} {value : Str} : Ends state value []
  | goesOn {state state' : TokenParserState} {value value' text : Str} {c : Char}
      (hstate : state' = .initialWhitespace →
        state = .initialWhitespace ∧ value' = value ∧
          (c = ' ' ∨ c = '\t' ∨ c = '\n' ∨ c = '\r'))
      (hstep : ∀ rest,
        parseTokenFrom state value (c :: rest) = parseTokenFrom state' value' rest)
      (hnext : ∀ next, nextState c next state = some state')
      (hrest : Ends state' value' text) : Ends state value (c :: text)
  | closes {state : TokenParserState} {value text : Str} {c : Char}
      (hstate : state.isQuote = true)
      (hstep : ∀ rest,
        parseTokenFrom state value (c :: rest) = closeQuote (value ++ [c]) rest)
      (hnext : ∀ next, nextState c next state = afterQuote next)
      (herror : (closeQuote (value ++ [c]) text).1.type = .error)
      (hafter : afterQuote text.head? = none) : Ends state value (c :: text)

section Token

variable {state : TokenParserState} {value text rest : Str} {token : Token}

theorem delivers_of_token (htoken : parseTokenFrom state value text = (token, rest))
    (hlast : token.type.isLast = false) : Delivers state value text token rest := by
  induction text generalizing state value with
  | nil =>
      have hnil := isLast_parseTokenFrom_nil state value
      rw [htoken, hlast] at hnil
      contradiction
  | cons c text ih =>
      cases charStep state value c with
      | goesOn hstate hstep hnext =>
          rw [hstep] at htoken
          exact .goesOn hstate hstep hnext (ih htoken)
      | delivers hdelivered hkind hstep hnext =>
          rw [hstep] at htoken
          obtain ⟨rfl, rfl⟩ := Prod.mk.inj htoken
          exact .delivers hdelivered hkind hstep hnext
      | leaves hstate hc hstep =>
          rw [hstep] at htoken
          obtain ⟨rfl, rfl⟩ := Prod.mk.inj htoken
          rw [hstate]
          exact .leaves hc
      | closes hstate hstep hnext =>
          rw [hstep] at htoken
          cases text with
          | nil =>
              obtain ⟨rfl, rfl⟩ := Prod.mk.inj htoken
              contradiction
          | cons next text =>
              rw [closeQuote] at htoken
              by_cases hdelimiter : isDelimiter next = true
              · rw [if_pos hdelimiter] at htoken
                obtain ⟨rfl, rfl⟩ := Prod.mk.inj htoken
                exact .closes hstate hdelimiter hstep hnext
              · rw [if_neg hdelimiter] at htoken
                obtain ⟨rfl, rfl⟩ := Prod.mk.inj htoken
                contradiction

/-- What follows a token does not change it. -/
theorem Delivers.append (hdelivers : Delivers state value text token rest) (more : Str) :
    parseTokenFrom state value (text ++ more) = (token, rest ++ more) := by
  induction hdelivers with
  | goesOn hstate hstep hnext hrest ih => rw [List.cons_append, hstep, ih]
  | delivers hlast hkind hstep hnext => rw [List.cons_append, hstep]
  | leaves hc => rw [List.cons_append, parseTokenFrom, if_pos hc]
  | closes hstate hdelimiter hstep hnext =>
      rw [List.cons_append, hstep, List.cons_append, closeQuote, if_pos hdelimiter]

/-- A token ends in the state in which the next one begins. -/
theorem Delivers.lexerState_eq (hdelivers : Delivers state value text token rest) :
    lexerState state text = lexerState .initialWhitespace rest := by
  induction hdelivers with
  | goesOn hstate hstep hnext hrest ih => rw [lexerState, hnext, Option.bind_some, ih]
  | delivers hlast hkind hstep hnext => rw [lexerState, hnext, Option.bind_some]
  | leaves hc =>
      rw [lexerState, lexerState, nextState_delimiter hc, nextState, if_pos hc]
  | closes hstate hdelimiter hstep hnext =>
      rw [lexerState, hnext, List.head?_cons, afterQuote, if_pos hdelimiter,
        Option.bind_some]

theorem Delivers.suffix (hdelivers : Delivers state value text token rest) : rest <:+ text := by
  induction hdelivers with
  | goesOn hstate hstep hnext hrest ih => exact ih.trans (List.suffix_cons _ _)
  | delivers hlast hkind hstep hnext => exact List.suffix_cons _ _
  | leaves hdelimiter => exact List.suffix_refl _
  | closes hstate hdelimiter hstep hnext => exact List.suffix_cons _ _

theorem ends_of_isLast (hlast : (parseTokenFrom state value text).1.type.isLast = true) :
    Ends state value text := by
  induction text generalizing state value with
  | nil => exact .nil
  | cons c text ih =>
      cases charStep state value c with
      | goesOn hstate hstep hnext =>
          rw [hstep] at hlast
          exact .goesOn hstate hstep hnext (ih hlast)
      | delivers hdelivered hkind hstep hnext =>
          rw [hstep, hdelivered] at hlast
          contradiction
      | leaves hstate hc hstep =>
          rw [hstep] at hlast
          contradiction
      | closes hstate hstep hnext =>
          rw [hstep] at hlast
          rcases closeQuote_cases (value ++ [c]) text with ⟨herror, hafter⟩ | ⟨hclose, -⟩
          · exact .closes hstate hstep hnext herror hafter
          · rw [hclose] at hlast
            contradiction

/-- The end of the input is an error inside a quote, and no error anywhere
else. -/
theorem Ends.type_cases (hends : Ends state value text) :
    (∃ stop, lexerState state text = some stop ∧ stop.isQuote = false ∧
        (parseTokenFrom state value text).1.type = .eof) ∨
      (∀ stop, lexerState state text = some stop → stop.isQuote = true) ∧
        (parseTokenFrom state value text).1.type = .error := by
  induction hends with
  | @nil state value =>
      rw [lexerState]
      by_cases hquote : state = .singleQuote ∨ state = .doubleQuote
      · exact Or.inr ⟨by simpa [TokenParserState.isQuote] using hquote,
          by simp [parseTokenFrom, hquote]⟩
      · exact Or.inl ⟨state, rfl, by simpa [TokenParserState.isQuote] using hquote,
          by simp [parseTokenFrom, hquote]⟩
  | goesOn hstate hstep hnext hrest ih =>
      rw [hstep, lexerState, hnext, Option.bind_some]
      exact ih
  | closes hstate hstep hnext herror hafter =>
      rw [hstep, lexerState, hnext, hafter]
      exact Or.inr ⟨by simp, herror⟩

end Token

end SwanServer
