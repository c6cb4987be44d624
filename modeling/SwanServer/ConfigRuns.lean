/-
The runs of `Parse`, told from inside the open blocks, and when a run stays
clear of the empty stack.
-/
import SwanServer.ConfigAcceptance

namespace SwanServer

/-- A run of the loop of `Parse` from inside the open blocks `frames`, with what
it ends in.  A closing brace outside all blocks empties the stack, and the token
after it decides what becomes of that. -/
inductive Reads : List Frame → NginxConfig → List Str → TokenType → List Token →
    Except Fault (Bool × NginxConfig) → Prop where
  | reject {frames : List Frame} {current : NginxConfig} {words : List Str}
      {last : TokenType} {token : Token} {rest : List Token}
      (hadmits : last.admits token.type = false) :
      Reads frames current words last (token :: rest)
        (.ok (false, Frame.plug frames (current ++ unfinished words)))
  | finish {frames : List Frame} {current : NginxConfig} {last : TokenType}
      {token : Token} (htoken : token.type = .eof) (hadmits : last.admits .eof = true) :
      Reads frames current [] last [token] (.ok (true, Frame.plug frames current))
  | word {frames : List Frame} {current : NginxConfig} {words : List Str}
      {last : TokenType} {token : Token} {rest : List Token}
      {outcome : Except Fault (Bool × NginxConfig)} (htoken : token.type = .normal)
      (hadmits : last.admits .normal = true)
      (hrest : Reads frames current (words ++ [token.value]) .normal rest outcome) :
      Reads frames current words last (token :: rest) outcome
  | line {frames : List Frame} {current : NginxConfig} {words : List Str}
      {token : Token} {rest : List Token} {outcome : Except Fault (Bool × NginxConfig)}
      (hwords : words ≠ []) (htoken : token.type = .statementEnd)
      (hrest : Reads frames (current ++ [.mk words none]) [] .statementEnd rest outcome) :
      Reads frames current words .normal (token :: rest) outcome
  | block {frames : List Frame} {current : NginxConfig} {words : List Str}
      {token : Token} {rest : List Token} {outcome : Except Fault (Bool × NginxConfig)}
      (hwords : words ≠ []) (htoken : token.type = .startBlock)
      (hrest : Reads (⟨current, words⟩ :: frames) [] [] .startBlock rest outcome) :
      Reads frames current words .normal (token :: rest) outcome
  | close {frame : Frame} {outer : List Frame} {current : NginxConfig}
      {last : TokenType} {token : Token} {rest : List Token}
      {outcome : Except Fault (Bool × NginxConfig)} (htoken : token.type = .endBlock)
      (hadmits : last.admits .endBlock = true)
      (hrest : Reads outer (frame.close current) [] .endBlock rest outcome) :
      Reads (frame :: outer) current [] last (token :: rest) outcome
  | unmatchedReject {current : NginxConfig} {last : TokenType} {token next : Token}
      {rest : List Token} (htoken : token.type = .endBlock)
      (hadmits : last.admits .endBlock = true)
      (hnext : TokenType.endBlock.admits next.type = false) :
      Reads [] current [] last (token :: next :: rest) (.ok (false, current))
  | unmatchedFinish {current : NginxConfig} {last : TokenType} {token next : Token}
      (htoken : token.type = .endBlock) (hadmits : last.admits .endBlock = true)
      (hnext : next.type = .eof) :
      Reads [] current [] last [token, next] (.ok (true, current))
  | unmatchedFault {current : NginxConfig} {last : TokenType} {token next : Token}
      {rest : List Token} (htoken : token.type = .endBlock)
      (hadmits : last.admits .endBlock = true)
      (hnext : next.type = .normal ∨ next.type = .endBlock) :
      Reads [] current [] last (token :: next :: rest) (.error .undefinedBehaviour)

theorem TokenType.ne_comment_of_isLast {type : TokenType} (hlast : type.isLast = true) :
    type ≠ .comment := by
  rintro rfl
  contradiction

/-- The error token is never admitted. -/
theorem TokenType.eq_eof_of_isLast {last type : TokenType} (hlast : type.isLast = true)
    (hadmits : last.admits type = true) : type = .eof := by
  cases type <;> first | rfl | contradiction

/-- What follows a closing brace that closes nothing decides the run. -/
theorem reads_unmatched {current : NginxConfig} {last : TokenType} {token : Token}
    {front : List Token} {stop : Token} (htoken : token.type = .endBlock)
    (hadmits : last.admits .endBlock = true)
    (hfront : ∀ next ∈ front, next.type ≠ .comment ∧ next.type.isLast = false)
    (hstop : stop.type.isLast = true) :
    Reads [] current [] last (token :: (front ++ [stop]))
      (parseLoop ⟨current, [], .endBlock⟩ (front ++ [stop])) := by
  cases front with
  | nil =>
      rw [List.nil_append]
      cases hnext : TokenType.endBlock.admits stop.type with
      | false =>
          rw [parseLoop_of_not_admits (TokenType.ne_comment_of_isLast hstop) hnext]
          exact .unmatchedReject htoken hadmits hnext
      | true =>
          have htype := TokenType.eq_eof_of_isLast hstop hnext
          rw [parseLoop_of_eof htype hnext]
          exact .unmatchedFinish htoken hadmits htype
  | cons next rest =>
      obtain ⟨hcomment, hlast⟩ := hfront next List.mem_cons_self
      rw [List.cons_append]
      cases hnext : TokenType.endBlock.admits next.type with
      | false =>
          rw [parseLoop_of_not_admits hcomment hnext]
          exact .unmatchedReject htoken hadmits hnext
      | true =>
          have htype : next.type = .normal ∨ next.type = .endBlock := by
            cases htype : next.type <;> rw [htype] at hnext hlast <;>
              first | contradiction | simp
          rw [parseLoop_empty_stack_fault htype]
          exact .unmatchedFault htoken hadmits htype

/-- The loop of `Parse` runs as `Reads` says, on tokens of which only the last
ends the input. -/
theorem reads_parseLoop {frames : List Frame} {current : NginxConfig} {words : List Str}
    {last : TokenType} {front : List Token} {stop : Token}
    (hfollows : Follows last words frames)
    (hfront : ∀ token ∈ front, token.type ≠ .comment ∧ token.type.isLast = false)
    (hstop : stop.type.isLast = true) :
    Reads frames current words last (front ++ [stop])
      (parseLoop (.within frames (current ++ unfinished words) last) (front ++ [stop])) := by
  induction front generalizing frames current words last with
  | nil =>
      rw [List.nil_append]
      cases hadmits : last.admits stop.type with
      | false =>
          rw [parseLoop_of_not_admits (TokenType.ne_comment_of_isLast hstop) hadmits]
          exact .reject hadmits
      | true =>
          have htype := TokenType.eq_eof_of_isLast hstop hadmits
          rw [parseLoop_of_eof htype hadmits]
          rw [htype] at hadmits
          rw [words_eq_nil_of_admits hfollows (Or.inr rfl) hadmits, unfinished, if_pos rfl,
            List.append_nil]
          exact .finish htype hadmits
  | cons token rest ih =>
      rw [List.forall_mem_cons] at hfront
      obtain ⟨⟨hcomment, hlast⟩, hrest⟩ := hfront
      rw [List.cons_append]
      cases hadmits : last.admits token.type with
      | false =>
          rw [parseLoop_of_not_admits hcomment hadmits]
          exact .reject hadmits
      | true =>
          cases hfollows.admitted hadmits with
          | word htype =>
              rw [htype] at hadmits
              rw [parseLoop_word hfollows htype hadmits]
              exact .word htype hadmits (ih (.normal (by simp)) hrest)
          | line hwords htype =>
              rw [parseLoop_line hwords htype]
              exact .line hwords htype (ih .statementEnd hrest)
          | block hwords htype =>
              rw [parseLoop_block hwords htype]
              exact .block hwords htype (ih .startBlock hrest)
          | brace htype =>
              rw [htype] at hadmits
              cases frames with
              | cons frame outer =>
                  rw [parseLoop_close htype hadmits]
                  exact .close htype hadmits (ih .endBlock hrest)
              | nil =>
                  rw [parseLoop_unmatched htype hadmits]
                  exact reads_unmatched htype hadmits hrest hstop
          | eof htype =>
              rw [htype] at hlast
              contradiction

/-- The tokens of a text end with the one that ends the input. -/
theorem exists_parseTokens_eq (text : Str) :
    ∃ front stop, parseTokens text = front ++ [stop] ∧ stop.type.isLast = true ∧
      ∀ token ∈ front, token.type.isLast = false := by
  induction text using parseTokens.induct with
  | case1 text next hlast =>
      exact ⟨[], next.1, parseTokens_of_isLast hlast, hlast, by simp⟩
  | case2 text next hlast ih =>
      obtain ⟨front, stop, htokens, hstop, hfront⟩ := ih
      have hnext : next.1.type.isLast = false := by simpa using hlast
      have hcons : parseTokens text = next.1 :: parseTokens next.2 :=
        parseTokens_of_parseToken rfl hnext
      refine ⟨next.1 :: front, stop, ?_, hstop, ?_⟩
      · rw [hcons, htokens, List.cons_append]
      · rw [List.forall_mem_cons]
        exact ⟨hnext, hfront⟩

/-- On the tokens of a text the loop of `Parse` runs as `Reads` says, but for the
comments. -/
theorem reads_parseTokens {frames : List Frame} {words : List Str} {last : TokenType}
    (hfollows : Follows last words frames) (current : NginxConfig) (text : Str) :
    Reads frames current words last (withoutComments (parseTokens text))
      (parseLoop (.within frames (current ++ unfinished words) last) (parseTokens text)) := by
  obtain ⟨front, stop, htokens, hstop, hfront⟩ := exists_parseTokens_eq text
  have hwithout : withoutComments (parseTokens text) = withoutComments front ++ [stop] := by
    rw [htokens, withoutComments, List.filter_append, List.filter_singleton]
    simp [TokenType.ne_comment_of_isLast hstop, withoutComments]
  have hclean : ∀ token ∈ withoutComments front,
      token.type ≠ .comment ∧ token.type.isLast = false := by
    intro token htoken
    obtain ⟨hmem, hcomment⟩ := List.mem_filter.mp htoken
    exact ⟨by simpa using hcomment, hfront token hmem⟩
  rw [← parseLoop_withoutComments, hwithout]
  exact reads_parseLoop hfollows hclean hstop

/-- `Parse` runs as `Reads` says, on the tokens without comments. -/
theorem reads_parse (config : NginxConfig) (text : Str) :
    Reads [] config [] .start (withoutComments (parseTokens text)) (parse config text) := by
  have hreads := reads_parseTokens .start config text
  rw [unfinished, if_pos rfl, List.append_nil] at hreads
  exact hreads

/-- Up to the first token that is not admitted, a closing brace that closes
nothing is not followed by a word or by another closing brace. -/
def keepsStack : Nat → TokenType → List TokenType → Bool
  | _, _, [] => true
  | depth, last, type :: rest =>
      !last.admits type ||
        match type, depth with
        | .startBlock, depth => keepsStack (depth + 1) .startBlock rest
        | .endBlock, 0 => rest.head?.all fun next => next ≠ .normal && next ≠ .endBlock
        | .endBlock, depth + 1 => keepsStack depth .endBlock rest
        | .eof, _ => true
        | type, depth => keepsStack depth type rest

theorem Reads.exists_ok_iff {frames : List Frame} {current : NginxConfig}
    {words : List Str} {last : TokenType} {tokens : List Token}
    {outcome : Except Fault (Bool × NginxConfig)}
    (hreads : Reads frames current words last tokens outcome) :
    (∃ result, outcome = .ok result) ↔
      keepsStack frames.length last (tokens.map Token.type) = true := by
  induction hreads with
  | reject hadmits => simp [keepsStack, hadmits]
  | finish htoken hadmits => simp [keepsStack, htoken]
  | word htoken hadmits hrest ih => simp [keepsStack, htoken, hadmits, ih]
  | line hwords htoken hrest ih => simp [keepsStack, htoken, TokenType.admits, ih]
  | block hwords htoken hrest ih => simp [keepsStack, htoken, TokenType.admits, ih]
  | close htoken hadmits hrest ih => simp [keepsStack, htoken, hadmits, ih]
  | @unmatchedReject _ _ _ next _ htoken hadmits hnext =>
      have hne : next.type ≠ .normal ∧ next.type ≠ .endBlock := by
        constructor <;> intro heq <;> rw [heq] at hnext <;> contradiction
      simp [keepsStack, htoken, hne]
  | unmatchedFinish htoken hadmits hnext => simp [keepsStack, htoken, hnext]
  | unmatchedFault htoken hadmits hnext =>
      rcases hnext with hnext | hnext <;> simp [keepsStack, htoken, hadmits, hnext]

/-- `Parse` uses the top of its stack and the last statement of the top block
only where they exist, exactly on the texts whose tokens keep the stack. -/
theorem exists_parse_eq_ok_iff (config : NginxConfig) (text : Str) :
    (∃ result, parse config text = .ok result) ↔
      keepsStack 0 .start ((withoutComments (parseTokens text)).map Token.type) = true :=
  (reads_parse config text).exists_ok_iff

namespace ConfigRunsWitness

/-- A statement after a closing brace that nothing opened. -/
def unmatched : Str := "a;\x7db;".toList

/-- `Parse` looks for the top of an empty stack. -/
theorem parse_unmatched : parse [] unmatched = .error .undefinedBehaviour := by
  have htokens : parseTokens unmatched = [⟨.normal, "a".toList⟩, ⟨.statementEnd, ";".toList⟩,
      ⟨.endBlock, "\x7d".toList⟩, ⟨.normal, "b".toList⟩, ⟨.statementEnd, ";".toList⟩,
      ⟨.eof, []⟩] := by
    decide +kernel
  rw [parse, htokens]
  rfl

end ConfigRunsWitness

end SwanServer
