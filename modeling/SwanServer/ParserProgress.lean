/-
`Parse` as the loop that it is, with a call of `ParseToken` in each pass.  What the
tokens make of the tree and the stack has no part in how often it goes on: every
pass that does leaves less of the input.
-/
import SwanServer.ConfigParser
import SwanServer.LexerStream

namespace SwanServer

/-- A pass of the loop of `Parse` after its call of `ParseToken`.  Where a token makes
it use what is not there, `undefined` says what comes of it. -/
def ParserState.takeToken (undefined : Fault → ParserState → Except Fault ParserState)
    (state : ParserState) (token : Token) : ParserState ⊕ Except Fault (Bool × NginxConfig) :=
  if token.type = .error then .inr (.ok (false, state.config))
  else if token.type = .comment then .inl state
  else if state.last.admits token.type then
    if token.type = .eof then .inr (.ok (true, state.config))
    else
      match tryCatch (state.accept token) fun fault => undefined fault state with
      | .error fault => .inr (.error fault)
      | .ok next => .inl { next with last := token.type }
  else .inr (.ok (false, state.config))

/-- A pass of the loop of `Parse`. -/
def parsePass (undefined : Fault → ParserState → Except Fault ParserState)
    (state : ParserState × Istream) :
    ParserState × Istream ⊕ Except Fault (Bool × NginxConfig) :=
  let (token, input) := state.2.parseToken
  (state.1.takeToken undefined token).map (fun next => (next, input)) id

section Passes

variable {undefined : Fault → ParserState → Except Fault ParserState}
  {state next : ParserState} {token : Token}

/-- After the last token `Parse` calls for no other. -/
theorem isLast_of_takeToken (htake : state.takeToken undefined token = .inl next) :
    token.type.isLast = false := by
  rw [ParserState.takeToken] at htake
  cases htype : token.type with
  | error => simp [htype] at htake
  | eof =>
      simp only [htype] at htake
      split_ifs at htake
  | _ => rfl

theorem length_rest_of_parsePass {state next : ParserState × Istream}
    (hnext : parsePass undefined state = .inl next) :
    next.2.rest.length < state.2.rest.length := by
  obtain ⟨parser, input⟩ := state
  rw [parsePass] at hnext
  cases htake : parser.takeToken undefined input.parseToken.1 with
  | inr outcome =>
      simp only [htake] at hnext
      contradiction
  | inl later =>
      simp only [htake] at hnext
      cases hnext
      exact (parseToken_progress rfl (isLast_of_takeToken htake)).2.1

/-- Where everything undefined goes on in some state, `Parse` ends by returning. -/
theorem returns_of_takeToken (hgoesOn : ∀ fault state, ∃ next, undefined fault state = .ok next)
    {outcome : Except Fault (Bool × NginxConfig)}
    (htake : state.takeToken undefined token = .inr outcome) : ∃ result, outcome = .ok result := by
  rw [ParserState.takeToken] at htake
  split_ifs at htake
  · cases htake
    exact ⟨_, rfl⟩
  · cases htake
    exact ⟨_, rfl⟩
  · cases haccept : state.accept token with
    | ok next =>
        rw [haccept] at htake
        contradiction
    | error fault =>
        obtain ⟨next, hnext⟩ := hgoesOn fault state
        have hcatch : (tryCatch (.error fault) fun fault => undefined fault state) = .ok next :=
          hnext
        rw [haccept, hcatch] at htake
        contradiction
  · cases htake
    exact ⟨_, rfl⟩

end Passes

/-- The loop of `Parse`. -/
def parserLoop (undefined : Fault → ParserState → Except Fault ParserState) :
    Loop (ParserState × Istream) (Except Fault (Bool × NginxConfig)) where
  pass := parsePass undefined
  measure state := state.2.rest.length
  shrinks := length_rest_of_parsePass

/-- What is undefined ends the run with its fault. -/
def undefinedEnds (fault : Fault) (_ : ParserState) : Except Fault ParserState := .error fault

theorem parseLoop_cons (state : ParserState) (token : Token) (rest : List Token) :
    parseLoop state (token :: rest) =
      (state.takeToken undefinedEnds token).elim (fun next => parseLoop next rest) id := by
  rw [parseLoop, ParserState.takeToken]
  by_cases herror : token.type = .error
  · rw [herror]
    rfl
  rw [if_neg herror]
  by_cases hcomment : token.type = .comment
  · rw [if_pos hcomment, if_pos hcomment, Sum.elim_inl]
  rw [if_neg hcomment, if_neg hcomment]
  by_cases hadmits : state.last.admits token.type = true
  · rw [if_pos hadmits, if_pos hadmits]
    by_cases heof : token.type = .eof
    · rw [if_pos heof, if_pos heof, Sum.elim_inr, id]
    · rw [if_neg heof, if_neg heof]
      cases state.accept token <;> rfl
  · rw [if_neg hadmits, if_neg hadmits, Sum.elim_inr, id]

theorem returns_run {undefined : Fault → ParserState → Except Fault ParserState}
    (hgoesOn : ∀ fault state, ∃ next, undefined fault state = .ok next)
    (state : ParserState × Istream) :
    ∃ result, (parserLoop undefined).run state = .ok result := by
  have hpass : ∀ state, True → ((parserLoop undefined).pass state).elim (fun _ => True)
      fun outcome => ∃ result, outcome = .ok result := by
    intro state _
    change (parsePass undefined state).elim _ _
    rw [parsePass, Sum.elim_map]
    cases htake : state.1.takeToken undefined state.2.parseToken.1 with
    | inl next => trivial
    | inr outcome => exact returns_of_takeToken hgoesOn htake
  exact Loop.run_invariant hpass trivial

theorem run_parserLoop (undefined : Fault → ParserState → Except Fault ParserState)
    (state : ParserState) (input : Istream) :
    (parserLoop undefined).run (state, input) =
      (state.takeToken undefined input.parseToken.1).elim
        (fun next => (parserLoop undefined).run (next, input.parseToken.2)) id := by
  rw [Loop.run_eq]
  exact Sum.elim_map

/-- On a stream `Parse` does what it does on the tokens of the text. -/
theorem run_parserLoop_eq_parseLoop (state : ParserState) (before text : Str) :
    (parserLoop undefinedEnds).run (state, ⟨before, text, true⟩) =
      parseLoop state (parseTokens text) := by
  induction text using token_induction generalizing state before with
  | stop text hlast =>
      have hsame := (agrees_parseToken before text).token
      rw [run_parserLoop, hsame, parseTokens_of_isLast hlast, parseLoop_cons]
      cases htake : state.takeToken undefinedEnds (parseToken text).1 with
      | inl next =>
          rw [isLast_of_takeToken htake] at hlast
          contradiction
      | inr outcome => rfl
  | more text token rest htoken hlast ih =>
      obtain ⟨hsame, hrest, hgood⟩ := agrees_parseToken before text
      rw [htoken] at hsame hrest hgood
      rw [run_parserLoop, hsame, parseTokens_of_parseToken htoken hlast, parseLoop_cons]
      congr 1
      funext next
      generalize (Istream.parseToken ⟨before, text, true⟩).2 = left at hrest hgood ⊢
      obtain ⟨later, rest, good⟩ := left
      cases hrest
      cases hgood hlast
      exact ih next later

/-- `ParseToken` makes progress with every token that is not the last, and so `Parse`
stops: as many calls of it as the input has characters, and one more, are enough,
whatever comes of what is undefined. -/
theorem parse_stops :
    (∀ (input left : Istream) (token : Token), input.parseToken = (token, left) →
      token.type ≠ .eof → token.type ≠ .error →
        left.rest <:+ input.rest ∧ left.rest.length < input.rest.length ∧ token.value ≠ []) ∧
    (∀ undefined config (input : Istream), ∃ outcome,
      (∀ calls, input.rest.length < calls → Loop.runWithin (parsePass undefined) calls
        (⟨config, [[]], .start⟩, input) = some outcome) ∧
      ((∀ fault state, ∃ next, undefined fault state = .ok next) →
        ∃ result, outcome = .ok result)) ∧
    ∀ config text, Loop.runWithin (parsePass undefinedEnds) (text.length + 1)
      (⟨config, [[]], .start⟩, .ofText text) = some (parse config text) := by
  refine ⟨?_, ?_, ?_⟩
  · intro input left token htoken heof herror
    apply parseToken_progress htoken
    simp [TokenType.isLast, heof, herror]
  · intro undefined config input
    refine ⟨_, fun calls hcalls => (parserLoop undefined).runWithin_eq_some hcalls, ?_⟩
    intro hgoesOn
    exact returns_run hgoesOn _
  · intro config text
    have hcalls : (parserLoop undefinedEnds).measure
        (⟨config, [[]], .start⟩, .ofText text) < text.length + 1 := Nat.lt_succ_self text.length
    rw [parse, ← run_parserLoop_eq_parseLoop]
    exact (parserLoop undefinedEnds).runWithin_eq_some hcalls

namespace ParserProgressWitness

/-- A word behind a closing brace that nothing opened. -/
def unmatched : Istream := .ofText ['a', ';', '\x7d', 'b', ';']

/-- What the first call of `ParseToken` leaves. -/
def left : Istream := ⟨['a'], [';', '\x7d', 'b', ';'], true⟩

theorem parseToken_unmatched : unmatched.parseToken = (⟨.normal, ['a']⟩, left) := by
  have hwithin : Loop.runWithin tokenLoop.pass 6 ⟨.initialWhitespace, [], unmatched⟩ =
      some (⟨.normal, ['a']⟩, left) := by decide
  rw [Loop.runWithin_eq_some tokenLoop (by decide)] at hwithin
  exact Option.some_inj.mp hwithin

/-- Six calls are enough for its five characters, should the word begin a new tree. -/
theorem parse_stops_unmatched :
    left.rest.length < unmatched.rest.length ∧
      ∃ result, Loop.runWithin (parsePass fun _ state => .ok ⟨state.config, [[]], .start⟩) 6
        (⟨[], [[]], .start⟩, unmatched) = some (.ok result) := by
  obtain ⟨hprogress, hstops, -⟩ := parse_stops
  refine ⟨(hprogress unmatched left _ parseToken_unmatched (by decide) (by decide)).2.1, ?_⟩
  obtain ⟨outcome, hcalls, hreturns⟩ :=
    hstops (fun _ state => .ok ⟨state.config, [[]], .start⟩) [] unmatched
  obtain ⟨result, rfl⟩ := hreturns fun _ _ => ⟨_, rfl⟩
  exact ⟨result, hcalls 6 (by decide)⟩

end ParserProgressWitness

end SwanServer
