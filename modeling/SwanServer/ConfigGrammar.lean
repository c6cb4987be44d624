/-
The grammar of configs, over the tokens that the lexer delivers.
-/
import SwanServer.ConfigLexer
import SwanServer.ConfigTree

namespace SwanServer

/-- The token of a word. -/
def word (value : Str) : Token := ⟨.normal, value⟩

/-- `config ::= statement*` with `statement ::= NORMAL+ ( ';' | '{' config '}' )`,
and the tree of the derivation. -/
inductive Generates : List Token → NginxConfig → Prop where
  | nil : Generates [] []
  | line {words : List Str} {stop : Token} {rest : List Token} {config : NginxConfig}
      (hwords : words ≠ []) (hstop : stop.type = .statementEnd)
      (hrest : Generates rest config) :
      Generates (words.map word ++ stop :: rest) (.mk words none :: config)
  | block {words : List Str} {opening closing : Token} {inner rest : List Token}
      {child config : NginxConfig} (hwords : words ≠ [])
      (hopening : opening.type = .startBlock) (hinner : Generates inner child)
      (hclosing : closing.type = .endBlock) (hrest : Generates rest config) :
      Generates (words.map word ++ opening :: (inner ++ closing :: rest))
        (.mk words (some child) :: config)

/-- The tokens without those of type COMMENT. -/
def withoutComments (tokens : List Token) : List Token :=
  tokens.filter fun token => token.type ≠ .comment

/-- The tokens before the end of the input derive `tree`. -/
def Generated (tokens : List Token) (tree : NginxConfig) : Prop :=
  ∃ body stop rest, tokens = body ++ stop :: rest ∧ stop.type = .eof ∧
    Generates body tree

theorem Generates.not_comment {body : List Token} {config : NginxConfig}
    (hbody : Generates body config) : ∀ token ∈ body, token.type ≠ .comment := by
  induction hbody with
  | nil => simp
  | line _ hstop _ ih => simpa [or_imp, forall_and, word, hstop] using ih
  | block _ hopening _ hclosing _ ihInner ihRest =>
      simpa [or_imp, forall_and, word, hopening, hclosing] using ⟨ihInner, ihRest⟩

end SwanServer
