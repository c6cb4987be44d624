/-
The tree inside out: a list of open blocks around the statements read so far.
The parser's tree and stack are the image of such a list, and each of its
operations changes only the innermost block.
-/
import SwanServer.ConfigParser

namespace SwanServer

/-- A block that is open: the statements before it, and its own words. -/
structure Frame where
  before : NginxConfig
  words : List Str

namespace Frame

/-- The statements of the block around, once the open block is complete. -/
def close (frame : Frame) (inner : NginxConfig) : NginxConfig :=
  frame.before ++ [.mk frame.words (some inner)]

/-- The whole tree, from the open blocks with the innermost first. -/
def plug : List Frame → NginxConfig → NginxConfig
  | [], current => current
  | frame :: outer, current => plug outer (frame.close current)

/-- Where the innermost open block is in that tree. -/
def pointer : List Frame → BlockPointer
  | [] => []
  | frame :: outer => pointer outer ++ [frame.before.length]

/-- The pointers to all open blocks, the innermost first. -/
def pointers : List Frame → List BlockPointer
  | [] => [[]]
  | frame :: outer => pointer (frame :: outer) :: pointers outer

theorem pointers_eq_cons (frames : List Frame) :
    ∃ rest, pointers frames = pointer frames :: rest := by
  cases frames with
  | nil => exact ⟨[], rfl⟩
  | cons frame outer => exact ⟨pointers outer, rfl⟩

end Frame

namespace NginxConfig

theorem block?_plug (frames : List Frame) (current : NginxConfig) :
    block? (Frame.pointer frames) (Frame.plug frames current) = some current := by
  induction frames generalizing current with
  | nil => rfl
  | cons frame outer ih =>
      rw [Frame.pointer, Frame.plug, block?_append, ih]
      simp [block?, Frame.close, NginxConfigStatement.childBlock]

theorem modifyBlock_plug (change : NginxConfig → NginxConfig) (frames : List Frame)
    (current : NginxConfig) :
    modifyBlock change (Frame.pointer frames) (Frame.plug frames current) =
      Frame.plug frames (change current) := by
  induction frames generalizing current change with
  | nil => rfl
  | cons frame outer ih =>
      rw [Frame.pointer, Frame.plug, modifyBlock_append, ih]
      simp only [modifyBlock, Frame.close, modify_last, Frame.plug]
      rfl

end NginxConfig

/-- The parser between two tokens, `frames` being open and the statements of the
innermost block being `current`. -/
def ParserState.within (frames : List Frame) (current : NginxConfig)
    (last : TokenType) : ParserState :=
  ⟨Frame.plug frames current, Frame.pointers frames, last⟩

/-- The words of the statement that is being read, if there are any yet. -/
def unfinished (words : List Str) : NginxConfig :=
  if words = [] then [] else [.mk words none]

namespace ParserState

variable (frames : List Frame) (current : NginxConfig) (last : TokenType)

theorem top_within : (within frames current last).top = .ok (Frame.pointer frames) := by
  obtain ⟨rest, hpointers⟩ := Frame.pointers_eq_cons frames
  simp [top, within, hpointers]

theorem back_within (statement : NginxConfigStatement) :
    (within frames (current ++ [statement]) last).back =
      .ok (Frame.pointer frames, current.length) := by
  have hblock : NginxConfig.block? (Frame.pointer frames)
      (within frames (current ++ [statement]) last).config =
        some (current ++ [statement]) := NginxConfig.block?_plug frames _
  rw [back, top_within]
  simp only [bind, Except.bind, hblock]
  cases current <;> simp

theorem emplaceBack_within :
    (within frames current last).emplaceBack =
      .ok (within frames (current ++ [.mk [] none]) last) := by
  rw [emplaceBack, top_within]
  simp only [bind, Except.bind, pure, Except.pure, within, NginxConfig.modifyBlock_plug]

theorem pushToken_within (words : List Str) (token : Str) :
    (within frames (current ++ [.mk words none]) last).pushToken token =
      .ok (within frames (current ++ [.mk (words ++ [token]) none]) last) := by
  rw [pushToken, back_within]
  simp only [bind, Except.bind, pure, Except.pure, within, NginxConfig.modifyBlock_plug,
    NginxConfig.modify_last]
  rfl

theorem pushBlock_within (words : List Str) :
    (within frames (current ++ [.mk words none]) last).pushBlock =
      .ok (within (⟨current, words⟩ :: frames) [] last) := by
  rw [pushBlock, back_within]
  simp only [bind, Except.bind, pure, Except.pure, within, NginxConfig.modifyBlock_plug,
    NginxConfig.modify_last]
  rfl

variable {last} {words : List Str} (hlast : words ≠ [] ↔ last = .normal)
include hlast

theorem beginStatement_within :
    (within frames (current ++ unfinished words) last).beginStatement =
      .ok (within frames (current ++ [.mk words none]) last) := by
  change (if last = .normal then _ else _) = _
  by_cases hnormal : last = .normal
  · rw [if_pos hnormal, unfinished, if_neg (hlast.mpr hnormal)]
  · have hempty : words = [] := by
      by_contra hne
      exact hnormal (hlast.mp hne)
    rw [if_neg hnormal, hempty, unfinished, if_pos rfl, List.append_nil,
      emplaceBack_within]

/-- A word starts a statement or goes on with it. -/
theorem accept_word {token : Token} (htoken : token.type = .normal) :
    (within frames (current ++ unfinished words) last).accept token =
      .ok (within frames (current ++ unfinished (words ++ [token.value])) last) := by
  have hwords : unfinished (words ++ [token.value]) =
      [.mk (words ++ [token.value]) none] := if_neg (by simp)
  simp only [accept, htoken, beginStatement_within frames current hlast, bind,
    Except.bind, hwords]
  exact pushToken_within frames current last words token.value

end ParserState

end SwanServer
