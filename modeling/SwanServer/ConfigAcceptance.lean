/-
When `Parse` keeps to the grammar.  It looks only at the token before and never
at the depth of its stack, so a closing brace too many or too few goes through.
-/
import SwanServer.ConfigDerivation

namespace SwanServer

/-- The braces among the tokens up to the first that its predecessor does not
admit: every closing brace has an open block, unless the token right after it
is not admitted, and no block is open at the end. -/
def bracesMatch : Nat → TokenType → List TokenType → Bool
  | _, _, [] => true
  | depth, last, type :: rest =>
      !last.admits type ||
        match type, depth with
        | .startBlock, depth => bracesMatch (depth + 1) .startBlock rest
        | .endBlock, 0 => rest.head?.all fun next => !TokenType.endBlock.admits next
        | .endBlock, depth + 1 => bracesMatch depth .endBlock rest
        | .eof, depth => depth = 0
        | type, depth => bracesMatch depth type rest

theorem bracesMatch_words {depth : Nat} {tail : List TokenType}
    (htail : ∀ last, bracesMatch depth last tail = true) (words : List Str)
    (last : TokenType) :
    bracesMatch depth last ((words.map word).map Token.type ++ tail) = true := by
  induction words generalizing last with
  | nil => exact htail last
  | cons value values ih => simpa [bracesMatch, word] using Or.inr (ih .normal)

/-- In what can be completed the braces match. -/
theorem Completes.bracesMatch {frames : List Frame} {current tree : NginxConfig}
    {tokens : List Token} (hcompletes : Completes frames current tokens tree)
    (last : TokenType) :
    SwanServer.bracesMatch frames.length last (tokens.map Token.type) = true := by
  induction hcompletes generalizing last with
  | finish hstop => simp [SwanServer.bracesMatch, hstop]
  | close hclosing _ ih => simp [SwanServer.bracesMatch, hclosing, ih]
  | line hwords hstop _ ih =>
      rw [List.map_append]
      apply bracesMatch_words
      intro last
      simp [SwanServer.bracesMatch, hstop, ih]
  | block hwords hopening _ ih =>
      rw [List.map_append]
      apply bracesMatch_words
      intro last
      simpa [SwanServer.bracesMatch, hopening] using Or.inr (ih .startBlock)

/-- What the previous token says about the statement and the blocks that are
open. -/
inductive Follows : TokenType → List Str → List Frame → Prop where
  | start : Follows .start [] []
  | normal {words : List Str} {frames : List Frame} (hwords : words ≠ []) :
      Follows .normal words frames
  | startBlock {frame : Frame} {outer : List Frame} :
      Follows .startBlock [] (frame :: outer)
  | statementEnd {frames : List Frame} : Follows .statementEnd [] frames
  | endBlock {frames : List Frame} : Follows .endBlock [] frames

theorem Follows.words_ne_nil_iff {last : TokenType} {words : List Str}
    {frames : List Frame} (hfollows : Follows last words frames) :
    words ≠ [] ↔ last = .normal := by
  cases hfollows <;> simp_all

/-- From inside the open blocks the parser returns, and it accepts the rest of
the input exactly when that completes a derivation, and with its tree. -/
def Decides (frames : List Frame) (current : NginxConfig) (words : List Str)
    (last : TokenType) (rest : List Token) : Prop :=
  (∀ tree,
      parseLoop (.within frames (current ++ unfinished words) last) rest =
          .ok (true, tree) ↔
        Completes frames current (words.map word ++ rest) tree) ∧
    ∃ result,
      parseLoop (.within frames (current ++ unfinished words) last) rest = .ok result

section Loop

variable {state next : ParserState} {token : Token} {rest : List Token}

theorem parseLoop_of_not_admits (hcomment : token.type ≠ .comment)
    (hadmits : state.last.admits token.type = false) :
    parseLoop state (token :: rest) = .ok (false, state.config) := by
  rw [parseLoop, if_neg hcomment, hadmits]
  rfl

theorem parseLoop_of_eof (heof : token.type = .eof)
    (hadmits : state.last.admits token.type = true) :
    parseLoop state (token :: rest) = .ok (true, state.config) := by
  rw [parseLoop, if_neg (by simp [heof]), if_pos hadmits, if_pos heof]

theorem parseLoop_of_accept (hcomment : token.type ≠ .comment)
    (heof : token.type ≠ .eof) (hadmits : state.last.admits token.type = true)
    (haccept : state.accept token = .ok next) :
    parseLoop state (token :: rest) = parseLoop { next with last := token.type } rest := by
  rw [parseLoop, if_neg hcomment, if_pos hadmits, if_neg heof, haccept]

theorem parseLoop_of_fault (hcomment : token.type ≠ .comment)
    (heof : token.type ≠ .eof) (hadmits : state.last.admits token.type = true)
    {fault : Fault} (haccept : state.accept token = .error fault) :
    parseLoop state (token :: rest) = .error fault := by
  rw [parseLoop, if_neg hcomment, if_pos hadmits, if_neg heof, haccept]

end Loop

section Steps

variable {frames : List Frame} {current : NginxConfig} {words : List Str}
  {last : TokenType} {token next : Token} {rest : List Token}

theorem words_eq_nil_of_admits (hfollows : Follows last words frames) {type : TokenType}
    (htype : type = .endBlock ∨ type = .eof) (hadmits : last.admits type = true) :
    words = [] := by
  by_contra hne
  rw [hfollows.words_ne_nil_iff.mp hne] at hadmits
  rcases htype with rfl | rfl <;> contradiction

/-- What an admitted token is, and what it says about the statement before it. -/
inductive Admitted : TokenType → List Str → Token → Prop where
  | word {last : TokenType} {words : List Str} {token : Token}
      (htoken : token.type = .normal) : Admitted last words token
  | line {words : List Str} {token : Token} (hwords : words ≠ [])
      (htoken : token.type = .statementEnd) : Admitted .normal words token
  | block {words : List Str} {token : Token} (hwords : words ≠ [])
      (htoken : token.type = .startBlock) : Admitted .normal words token
  | brace {last : TokenType} {token : Token} (htoken : token.type = .endBlock) :
      Admitted last [] token
  | eof {last : TokenType} {token : Token} (htoken : token.type = .eof) :
      Admitted last [] token

theorem Follows.admitted (hfollows : Follows last words frames)
    (hadmits : last.admits token.type = true) : Admitted last words token := by
  cases htype : token.type with
  | normal => exact .word htype
  | statementEnd =>
      rw [htype] at hadmits
      cases hfollows with
      | normal hwords => exact .line hwords htype
      | _ => contradiction
  | startBlock =>
      rw [htype] at hadmits
      cases hfollows with
      | normal hwords => exact .block hwords htype
      | _ => contradiction
  | endBlock =>
      rw [htype] at hadmits
      rw [words_eq_nil_of_admits hfollows (Or.inl rfl) hadmits]
      exact .brace htype
  | eof =>
      rw [htype] at hadmits
      rw [words_eq_nil_of_admits hfollows (Or.inr rfl) hadmits]
      exact .eof htype
  | _ =>
      rw [htype] at hadmits
      contradiction

theorem parseLoop_word (hfollows : Follows last words frames)
    (htoken : token.type = .normal) (hadmits : last.admits .normal = true) :
    parseLoop (.within frames (current ++ unfinished words) last) (token :: rest) =
      parseLoop (.within frames (current ++ unfinished (words ++ [token.value])) .normal)
        rest := by
  rw [parseLoop_of_accept (by simp [htoken]) (by simp [htoken]) (htoken ▸ hadmits)
    (ParserState.accept_word frames current hfollows.words_ne_nil_iff htoken), htoken]
  rfl

theorem accept_line (htoken : token.type = .statementEnd) (state : ParserState) :
    state.accept token = .ok state := by
  simp only [ParserState.accept, htoken]

theorem parseLoop_line (hwords : words ≠ []) (htoken : token.type = .statementEnd) :
    parseLoop (.within frames (current ++ unfinished words) .normal) (token :: rest) =
      parseLoop (.within frames ((current ++ [.mk words none]) ++ unfinished [])
        .statementEnd) rest := by
  rw [parseLoop_of_accept (by simp [htoken]) (by simp [htoken]) (by rw [htoken]; rfl)
    (accept_line htoken _), htoken, unfinished, if_neg hwords, unfinished, if_pos rfl,
    List.append_nil]
  rfl

theorem accept_block (hwords : words ≠ []) (htoken : token.type = .startBlock) :
    (ParserState.within frames (current ++ unfinished words) .normal).accept token =
      .ok (.within (⟨current, words⟩ :: frames) [] .normal) := by
  simp only [ParserState.accept, htoken, unfinished, if_neg hwords]
  exact ParserState.pushBlock_within frames current .normal words

theorem parseLoop_block (hwords : words ≠ []) (htoken : token.type = .startBlock) :
    parseLoop (.within frames (current ++ unfinished words) .normal) (token :: rest) =
      parseLoop (.within (⟨current, words⟩ :: frames) ([] ++ unfinished []) .startBlock)
        rest := by
  rw [parseLoop_of_accept (by simp [htoken]) (by simp [htoken]) (by rw [htoken]; rfl)
    (accept_block hwords htoken), htoken]
  rfl

theorem accept_close {frame : Frame} {outer : List Frame} (htoken : token.type = .endBlock) :
    (ParserState.within (frame :: outer) (current ++ unfinished []) last).accept token =
      .ok (.within outer (frame.close current) last) := by
  simp only [ParserState.accept, htoken, unfinished, if_pos, List.append_nil]
  rfl

theorem parseLoop_close {frame : Frame} {outer : List Frame}
    (htoken : token.type = .endBlock) (hadmits : last.admits .endBlock = true) :
    parseLoop (.within (frame :: outer) (current ++ unfinished []) last) (token :: rest) =
      parseLoop (.within outer (frame.close current ++ unfinished []) .endBlock) rest := by
  rw [parseLoop_of_accept (by simp [htoken]) (by simp [htoken]) (htoken ▸ hadmits)
    (accept_close htoken), htoken, unfinished, if_pos rfl, List.append_nil]
  rfl

theorem parseLoop_unmatched (htoken : token.type = .endBlock)
    (hadmits : last.admits .endBlock = true) :
    parseLoop (.within [] (current ++ unfinished []) last) (token :: rest) =
      parseLoop ⟨current, [], .endBlock⟩ rest := by
  have haccept : (ParserState.within [] (current ++ unfinished []) last).accept token =
      .ok ⟨current, [], last⟩ := by
    simp only [ParserState.accept, htoken, unfinished, if_pos, List.append_nil]
    rfl
  rw [parseLoop_of_accept (by simp [htoken]) (by simp [htoken]) (htoken ▸ hadmits) haccept,
    htoken]

theorem parseLoop_empty_stack_fault {config : NginxConfig}
    (hnext : next.type = .normal ∨ next.type = .endBlock) :
    parseLoop ⟨config, [], .endBlock⟩ (next :: rest) = .error .undefinedBehaviour := by
  have hadmits : TokenType.endBlock.admits next.type = true := by
    rcases hnext with hnext | hnext <;> rw [hnext] <;> rfl
  refine parseLoop_of_fault ?_ ?_ hadmits ?_
  · rcases hnext with hnext | hnext <;> simp [hnext]
  · rcases hnext with hnext | hnext <;> simp [hnext]
  · rcases hnext with hnext | hnext
    · simp only [ParserState.accept, hnext]
      rfl
    · simp only [ParserState.accept, hnext]
      rfl

end Steps

section Decides

variable {frames : List Frame} {current : NginxConfig} {words : List Str}
  {last : TokenType} {token : Token} {rest : List Token}

/-- A token that is not admitted ends a parse that cannot be completed. -/
theorem not_completes_of_not_admits (hfollows : Follows last words frames)
    (hadmits : last.admits token.type = false)
    (tree : NginxConfig) :
    ¬ Completes frames current (words.map word ++ token :: rest) tree := by
  have htoken : token.type ≠ .normal := by
    intro hnormal
    rw [hnormal] at hadmits
    cases hfollows <;> contradiction
  cases hfollows with
  | normal hwords =>
      rw [completes_words_iff hwords htoken]
      rintro (⟨htype, -⟩ | ⟨htype, -⟩) <;> rw [htype] at hadmits <;> contradiction
  | _ =>
      rw [List.map_nil, List.nil_append, completes_cons_iff htoken]
      rintro (⟨htype, hframes, -⟩ | ⟨htype, _, _, hframes, -⟩) <;>
        rw [htype] at hadmits <;> contradiction

theorem decides_of_not_admits (hfollows : Follows last words frames)
    (hcomment : token.type ≠ .comment) (hadmits : last.admits token.type = false) :
    Decides frames current words last (token :: rest) := by
  have hloop : parseLoop (.within frames (current ++ unfinished words) last)
      (token :: rest) = .ok (false, _) :=
    parseLoop_of_not_admits hcomment hadmits
  refine ⟨?_, _, hloop⟩
  intro tree
  rw [hloop]
  have hnot : ¬ Completes frames current (words.map word ++ token :: rest) tree :=
    not_completes_of_not_admits hfollows hadmits tree
  simp [hnot]

/-- Where parser and grammar move on alike, the question moves on with them. -/
theorem decides_congr {frames' : List Frame} {current' : NginxConfig}
    {words' : List Str} {last' : TokenType} {tokens : List Token}
    (hloop : parseLoop (.within frames (current ++ unfinished words) last) tokens =
      parseLoop (.within frames' (current' ++ unfinished words') last') rest)
    (hcompletes : ∀ tree, Completes frames current (words.map word ++ tokens) tree ↔
      Completes frames' current' (words'.map word ++ rest) tree) :
    Decides frames current words last tokens ↔
      Decides frames' current' words' last' rest := by
  simp only [Decides, hloop, hcompletes]

theorem decides_word_iff (hfollows : Follows last words frames)
    (htoken : token.type = .normal) (hadmits : last.admits token.type = true) :
    Decides frames current words last (token :: rest) ↔
      Decides frames current (words ++ [token.value]) .normal rest := by
  apply decides_congr (parseLoop_word hfollows htoken (htoken ▸ hadmits))
  intro tree
  have hword : token = word token.value := by
    rw [word, ← htoken]
  rw [List.map_append, List.append_assoc, List.map_singleton, ← hword,
    List.singleton_append]

theorem decides_line_iff (hwords : words ≠ []) (htoken : token.type = .statementEnd) :
    Decides frames current words .normal (token :: rest) ↔
      Decides frames (current ++ [.mk words none]) [] .statementEnd rest := by
  apply decides_congr (parseLoop_line hwords htoken)
  intro tree
  rw [completes_words_iff hwords (by simp [htoken])]
  simp [htoken]

theorem decides_block_iff (hwords : words ≠ []) (htoken : token.type = .startBlock) :
    Decides frames current words .normal (token :: rest) ↔
      Decides (⟨current, words⟩ :: frames) [] [] .startBlock rest := by
  apply decides_congr (parseLoop_block hwords htoken)
  intro tree
  rw [completes_words_iff hwords (by simp [htoken])]
  simp [htoken]

theorem decides_close_iff {frame : Frame} {outer : List Frame}
    (htoken : token.type = .endBlock) (hadmits : last.admits token.type = true) :
    Decides (frame :: outer) current [] last (token :: rest) ↔
      Decides outer (frame.close current) [] .endBlock rest := by
  apply decides_congr (parseLoop_close htoken (htoken ▸ hadmits))
  intro tree
  rw [List.map_nil, List.nil_append, completes_cons_iff (by simp [htoken])]
  simp [htoken]

/-- After the end of the input nothing more is asked for. -/
theorem decides_eof_iff (htoken : token.type = .eof)
    (hadmits : last.admits token.type = true) :
    Decides frames current [] last (token :: rest) ↔ frames = [] := by
  have hloop : parseLoop (.within frames (current ++ unfinished []) last)
      (token :: rest) = .ok (true, Frame.plug frames current) := by
    rw [parseLoop_of_eof htoken hadmits, unfinished, if_pos rfl, List.append_nil]
    rfl
  have hcompletes : ∀ tree, Completes frames current (token :: rest) tree ↔
      frames = [] ∧ tree = current := by
    intro tree
    rw [completes_cons_iff (by simp [htoken])]
    simp [htoken]
  rw [Decides, hloop]
  simp only [List.map_nil, List.nil_append, hcompletes]
  constructor
  · rintro ⟨hiff, -⟩
    exact ((hiff _).mp rfl).1
  · rintro rfl
    refine ⟨?_, _, rfl⟩
    intro tree
    simp [Frame.plug, eq_comm]

/-- On an empty stack a token that is admitted is accepted as the end of the
input or makes the parser use the top of the stack. -/
theorem parseLoop_of_empty_stack {config : NginxConfig}
    (hadmits : TokenType.endBlock.admits token.type = true) :
    parseLoop ⟨config, [], .endBlock⟩ (token :: rest) = .ok (true, config) ∨
      parseLoop ⟨config, [], .endBlock⟩ (token :: rest) = .error .undefinedBehaviour := by
  by_cases heof : token.type = .eof
  · exact Or.inl (parseLoop_of_eof heof hadmits)
  · refine Or.inr (parseLoop_empty_stack_fault ?_)
    cases htoken : token.type with
    | normal => exact Or.inl rfl
    | endBlock => exact Or.inr rfl
    | eof => exact absurd htoken heof
    | _ =>
        rw [htoken] at hadmits
        contradiction

/-- After an unmatched closing brace only a token that is not admitted keeps the
parser from that. -/
theorem decides_unmatched_iff (htoken : token.type = .endBlock)
    (hadmits : last.admits token.type = true)
    (hcomment : ∀ next ∈ rest, next.type ≠ .comment) :
    Decides [] current [] last (token :: rest) ↔
      ∀ next ∈ rest.head?, TokenType.endBlock.admits next.type = false := by
  have hloop : parseLoop (.within [] (current ++ unfinished []) last) (token :: rest) =
      parseLoop ⟨current, [], .endBlock⟩ rest :=
    parseLoop_unmatched htoken (htoken ▸ hadmits)
  have hcompletes : ∀ tree, ¬ Completes [] current (token :: rest) tree := by
    intro tree
    rw [completes_cons_iff (by simp [htoken])]
    simp [htoken]
  simp only [Decides, hloop, List.map_nil, List.nil_append, hcompletes, iff_false]
  cases rest with
  | nil => simp [parseLoop]
  | cons next rest =>
      have hnext : next.type ≠ .comment := hcomment next List.mem_cons_self
      cases hadmitted : TokenType.endBlock.admits next.type with
      | false =>
          have hstop : parseLoop ⟨current, [], .endBlock⟩ (next :: rest) =
              .ok (false, current) := parseLoop_of_not_admits hnext hadmitted
          simp [hstop, hadmitted]
      | true =>
          have hgo : parseLoop ⟨current, [], .endBlock⟩ (next :: rest) =
              .ok (true, current) ∨ _ := parseLoop_of_empty_stack hadmitted
          rcases hgo with heq | heq <;> simp [heq, hadmitted]

/-- Parser and grammar agree on the rest of an input exactly when its braces
match. -/
theorem decides_iff_bracesMatch (hfollows : Follows last words frames)
    (hcomment : ∀ token ∈ rest, token.type ≠ .comment) :
    Decides frames current words last rest ↔
      bracesMatch frames.length last (rest.map Token.type) = true := by
  induction rest generalizing frames current words last with
  | nil =>
      have hnot : ∀ tree, ¬ Completes frames current (words.map word) tree :=
        fun tree => not_completes_words words
      simp [Decides, parseLoop, bracesMatch, hnot]
  | cons token rest ih =>
      rw [List.forall_mem_cons] at hcomment
      obtain ⟨htoken, hrest⟩ := hcomment
      cases hadmits : last.admits token.type with
      | false =>
          simp [decides_of_not_admits hfollows htoken hadmits, bracesMatch, hadmits]
      | true =>
          simp only [List.map_cons, bracesMatch, hadmits, Bool.not_true, Bool.false_or]
          cases hfollows.admitted hadmits with
          | word htype =>
              rw [decides_word_iff hfollows htype hadmits, htype]
              exact ih (.normal (by simp)) hrest
          | line hwords htype =>
              rw [decides_line_iff hwords htype, htype]
              exact ih .statementEnd hrest
          | block hwords htype =>
              rw [decides_block_iff hwords htype, htype]
              exact ih .startBlock hrest
          | brace htype =>
              cases frames with
              | nil =>
                  rw [decides_unmatched_iff htype hadmits hrest, htype]
                  cases rest <;> simp
              | cons frame outer =>
                  rw [decides_close_iff htype hadmits, htype]
                  exact ih .endBlock hrest
          | eof htype =>
              rw [decides_eof_iff htype hadmits, htype]
              simp

end Decides

/-- The parser skips comments. -/
theorem parseLoop_withoutComments (state : ParserState) (tokens : List Token) :
    parseLoop state (withoutComments tokens) = parseLoop state tokens := by
  induction tokens generalizing state with
  | nil => rfl
  | cons token rest ih =>
      by_cases hcomment : token.type = .comment
      · rw [withoutComments, List.filter_cons_of_neg (by simp [hcomment]), parseLoop,
          if_pos hcomment]
        exact ih state
      · have hkeep : withoutComments (token :: rest) = token :: withoutComments rest :=
          List.filter_cons_of_pos (by simp [hcomment])
        rw [hkeep, parseLoop, parseLoop]
        simp only [ih]

/-- `Parse` returns, and it returns true exactly when the tokens before the end
of the input, less the comments, are generated by the grammar, having built the
tree of the derivation. -/
def MeetsGrammar (text : Str) : Prop :=
  (∀ tree, parse [] text = .ok (true, tree) ↔
      Generated (withoutComments (parseTokens text)) tree) ∧
    ∃ result, parse [] text = .ok result

/-- `Parse` keeps to the grammar exactly on the texts whose braces match. -/
theorem meetsGrammar_iff_bracesMatch (text : Str) :
    MeetsGrammar text ↔
      bracesMatch 0 .start ((withoutComments (parseTokens text)).map Token.type) = true := by
  have hcomment : ∀ token ∈ withoutComments (parseTokens text), token.type ≠ .comment := by
    intro token htoken
    simpa using (List.mem_filter.mp htoken).2
  have hloop : parseLoop (.within [] ([] ++ unfinished []) .start)
      (withoutComments (parseTokens text)) = parse [] text :=
    parseLoop_withoutComments _ _
  rw [← List.length_nil, ← decides_iff_bracesMatch .start hcomment, Decides, hloop]
  simp only [List.map_nil, List.nil_append, completes_iff_generated]
  rfl

namespace ConfigAcceptanceWitness

/-- A closing brace that nothing opened. -/
def unmatched : Str := "a;\x7d".toList

/-- `Parse` accepts a text whose last brace is unmatched. -/
theorem not_meetsGrammar_unmatched : ¬ MeetsGrammar unmatched := by
  have htokens : parseTokens unmatched = ["a".toList].map word ++
      ⟨.statementEnd, ";".toList⟩ :: [⟨.endBlock, "\x7d".toList⟩, ⟨.eof, []⟩] := by
    decide +kernel
  have hcomments : withoutComments (parseTokens unmatched) = parseTokens unmatched := by
    rw [htokens]
    rfl
  have hparse : parse [] unmatched = .ok (true, [.mk ["a".toList] none]) := by
    rw [parse, htokens]
    rfl
  rintro ⟨hiff, -⟩
  have hgenerated := (hiff _).mp hparse
  rw [hcomments, htokens, ← completes_iff_generated,
    completes_words_iff (by decide) (by decide)] at hgenerated
  simp [completes_cons_iff] at hgenerated

end ConfigAcceptanceWitness

end SwanServer
