/-
`NginxConfigParser::Parse`: the stack of open blocks and the checks on the type
of the token before.
-/
import SwanServer.ConfigLexer
import SwanServer.ConfigTree

namespace SwanServer

/-- What the branches of `Parse` ask of `last_token_type`. -/
def TokenType.admits (last : TokenType) : TokenType → Bool
  | .normal =>
      last = .start || last = .statementEnd || last = .startBlock || last = .endBlock ||
        last = .normal
  | .statementEnd => last = .normal
  | .startBlock => last = .normal
  | .endBlock => last = .startBlock || last = .endBlock || last = .statementEnd
  | .eof => last = .start || last = .statementEnd || last = .endBlock
  | .start | .comment | .error => false

/-- What `Parse` keeps from token to token: the tree, `config_stack` with its top
first, and `last_token_type`. -/
structure ParserState where
  config : NginxConfig
  stack : List BlockPointer
  last : TokenType

namespace ParserState

/-- `config_stack.top()`, undefined on an empty stack. -/
def top (state : ParserState) : Except Fault BlockPointer :=
  match state.stack with
  | [] => .error .undefinedBehaviour
  | pointer :: _ => .ok pointer

/-- `config_stack.top()->statements_.back()`, as the block and the index in it;
undefined where the block has no statement. -/
def back (state : ParserState) : Except Fault (BlockPointer × Nat) := do
  let pointer ← state.top
  match state.config.block? pointer with
  | some (_ :: rest) => .ok (pointer, rest.length)
  | _ => .error .undefinedBehaviour

/-- `statements_.emplace_back(new NginxConfigStatement)` on the top block. -/
def emplaceBack (state : ParserState) : Except Fault ParserState := do
  let pointer ← state.top
  return { state with
    config := state.config.modifyBlock (· ++ [.mk [] none]) pointer }

/-- A word after anything but a word begins a statement. -/
def beginStatement (state : ParserState) : Except Fault ParserState :=
  if state.last = .normal then .ok state else state.emplaceBack

/-- `tokens_.push_back(token)` on the last statement of the top block. -/
def pushToken (token : Str) (state : ParserState) : Except Fault ParserState := do
  let (pointer, index) ← state.back
  return { state with
    config := state.config.modifyBlock
      (fun block => block.modify index (NginxConfigStatement.pushToken token)) pointer }

/-- A new block for the last statement of the top block, pushed on the stack. -/
def pushBlock (state : ParserState) : Except Fault ParserState := do
  let (pointer, index) ← state.back
  return { state with
    config := state.config.modifyBlock
      (fun block => block.modify index (NginxConfigStatement.resetChild [])) pointer
    stack := (pointer ++ [index]) :: state.stack }

/-- `config_stack.pop()`, undefined on an empty stack. -/
def pop (state : ParserState) : Except Fault ParserState :=
  match state.stack with
  | [] => .error .undefinedBehaviour
  | _ :: rest => .ok { state with stack := rest }

/-- The effect of a token that is admitted. -/
def accept (state : ParserState) (token : Token) : Except Fault ParserState :=
  match token.type with
  | .normal => do
      let state ← state.beginStatement
      state.pushToken token.value
  | .startBlock => state.pushBlock
  | .endBlock => state.pop
  | _ => .ok state

end ParserState

/-- The loop of `Parse` over the tokens that `ParseToken` delivers: its return
value and the tree that it leaves. -/
def parseLoop : ParserState → List Token → Except Fault (Bool × NginxConfig)
  | state, [] => .ok (false, state.config)
  | state, token :: rest =>
      if token.type = .comment then parseLoop state rest
      else if state.last.admits token.type then
        if token.type = .eof then .ok (true, state.config)
        else
          match state.accept token with
          | .error fault => .error fault
          | .ok next => parseLoop { next with last := token.type } rest
      else .ok (false, state.config)

/-- `NginxConfigParser::Parse` into a given tree. -/
def parse (config : NginxConfig) (text : Str) : Except Fault (Bool × NginxConfig) :=
  parseLoop ⟨config, [[]], .start⟩ (parseTokens text)

end SwanServer
