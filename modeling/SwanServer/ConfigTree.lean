/-
The tree that the config parser builds: statements with their tokens and, for a
block, the statements inside it; how it prints, and how a pointer into it is
followed.
-/
import SwanServer.Text

namespace SwanServer

/-- `class NginxConfigStatement`: its `tokens_`, and its `child_block_` unless
that is null. -/
inductive NginxConfigStatement where
  | mk (tokens : List Str) (childBlock : Option (List NginxConfigStatement))

/-- `class NginxConfig`: its `statements_`. -/
abbrev NginxConfig := List NginxConfigStatement

namespace NginxConfigStatement

def tokens : NginxConfigStatement → List Str
  | mk tokens _ => tokens

def childBlock : NginxConfigStatement → Option NginxConfig
  | mk _ childBlock => childBlock

/-- `tokens_.push_back`. -/
def pushToken (token : Str) (statement : NginxConfigStatement) : NginxConfigStatement :=
  mk (statement.tokens ++ [token]) statement.childBlock

/-- `child_block_.reset`. -/
def resetChild (child : NginxConfig) (statement : NginxConfigStatement) :
    NginxConfigStatement :=
  mk statement.tokens (some child)

end NginxConfigStatement

/-- The two blanks for each level of depth. -/
def indent (depth : Int) : Str := (List.replicate depth.toNat "  ".toList).flatten

mutual

/-- `NginxConfigStatement::ToString`. -/
def NginxConfigStatement.toString (depth : Int) : NginxConfigStatement → Str
  | .mk tokens none =>
      indent depth ++ " ".toList.intercalate tokens ++ ";".toList ++ "\n".toList
  | .mk tokens (some child) =>
      indent depth ++ " ".toList.intercalate tokens ++ " \x7b\n".toList ++
        NginxConfig.toString (wrapInt (depth + 1)) child ++ indent depth ++
        "\x7d".toList ++ "\n".toList

/-- `NginxConfig::ToString`. -/
def NginxConfig.toString (depth : Int) : NginxConfig → Str
  | [] => []
  | statement :: rest =>
      NginxConfigStatement.toString depth statement ++ NginxConfig.toString depth rest

end

/-- A pointer to a block of the tree: at each level, the index of the statement
whose block it goes into. -/
abbrev BlockPointer := List Nat

namespace NginxConfig

/-- The block behind a pointer. -/
def block? : BlockPointer → NginxConfig → Option NginxConfig
  | [], config => some config
  | index :: pointer, config => do
      let statement ← config[index]?
      block? pointer (← statement.childBlock)

/-- The tree after a change of the block behind a pointer. -/
def modifyBlock (change : NginxConfig → NginxConfig) :
    BlockPointer → NginxConfig → NginxConfig
  | [], config => change config
  | index :: pointer, config =>
      config.modify index fun statement =>
        .mk statement.tokens (statement.childBlock.map (modifyBlock change pointer))

/-- The last statement of a block is the one at the length of what is before. -/
theorem modify_last (front : NginxConfig) (statement : NginxConfigStatement)
    (change : NginxConfigStatement → NginxConfigStatement) :
    List.modify (front ++ [statement]) front.length change =
      front ++ [change statement] := by
  induction front with
  | nil => rfl
  | cons head rest ih => simp [ih]

theorem block?_append (first second : BlockPointer) (config : NginxConfig) :
    block? (first ++ second) config = (block? first config).bind (block? second) := by
  induction first generalizing config with
  | nil => rfl
  | cons index pointer ih =>
      simp only [List.cons_append, block?, Option.bind_eq_bind, Option.bind_assoc, ih]

theorem modifyBlock_append (change : NginxConfig → NginxConfig)
    (first second : BlockPointer) (config : NginxConfig) :
    modifyBlock change (first ++ second) config =
      modifyBlock (modifyBlock change second) first config := by
  induction first generalizing config with
  | nil => rfl
  | cons index pointer ih =>
      have heq : modifyBlock change (pointer ++ second) =
          modifyBlock (modifyBlock change second) pointer := funext ih
      simp only [List.cons_append, modifyBlock, heq]

end NginxConfig

end SwanServer
