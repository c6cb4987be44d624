/-
The words of a tree.  Whatever `Parse` returns, every statement of the tree it
leaves has a word, and a tree that it accepts has the words of the text in their
order.
-/
import SwanServer.ConfigRuns

namespace SwanServer

mutual

def NginxConfigStatement.Worded : NginxConfigStatement → Prop
  | .mk tokens none => tokens ≠ []
  | .mk tokens (some child) => tokens ≠ [] ∧ NginxConfig.Worded child

/-- All statements of the tree, at any depth, have a token. -/
def NginxConfig.Worded : NginxConfig → Prop
  | [] => True
  | statement :: rest => statement.Worded ∧ NginxConfig.Worded rest

end

mutual

def NginxConfigStatement.words : NginxConfigStatement → List Str
  | .mk tokens none => tokens
  | .mk tokens (some child) => tokens ++ NginxConfig.words child

/-- The tokens of all statements, in the order in which they are printed. -/
def NginxConfig.words : NginxConfig → List Str
  | [] => []
  | statement :: rest => statement.words ++ NginxConfig.words rest

end

namespace NginxConfig

theorem worded_append (front back : NginxConfig) :
    Worded (front ++ back) ↔ Worded front ∧ Worded back := by
  induction front with
  | nil => simp [Worded]
  | cons statement rest ih => simp [Worded, ih, and_assoc]

theorem words_append (front back : NginxConfig) :
    words (front ++ back) = words front ++ words back := by
  induction front with
  | nil => rfl
  | cons statement rest ih => simp [words, ih]

theorem worded_iff (config : NginxConfig) :
    Worded config ↔ ∀ statement ∈ config, statement.Worded := by
  induction config with
  | nil => simp [Worded]
  | cons statement rest ih => simp [Worded, ih]

theorem worded_unfinished (words : List Str) : Worded (unfinished words) := by
  by_cases hwords : words = []
  · simp [unfinished, hwords, Worded]
  · simp [unfinished, hwords, Worded, NginxConfigStatement.Worded]

theorem words_unfinished (tokens : List Str) : words (unfinished tokens) = tokens := by
  by_cases htokens : tokens = []
  · rw [htokens]
    rfl
  · simp [unfinished, htokens, words, NginxConfigStatement.words]

end NginxConfig

namespace NginxConfigStatement

theorem Worded.tokens_ne_nil {statement : NginxConfigStatement}
    (hstatement : statement.Worded) : statement.tokens ≠ [] := by
  obtain ⟨tokens, _ | child⟩ := statement
  · exact hstatement
  · exact hstatement.1

theorem Worded.child {statement : NginxConfigStatement} (hstatement : statement.Worded)
    {child : NginxConfig} (hchild : statement.childBlock = some child) :
    NginxConfig.Worded child := by
  obtain ⟨tokens, _ | inner⟩ := statement
  · cases hchild
  · cases hchild
    exact hstatement.2

end NginxConfigStatement

namespace Frame

/-- The statements before the open blocks and the open blocks themselves have
words. -/
def Worded (frames : List Frame) : Prop :=
  ∀ frame ∈ frames, NginxConfig.Worded frame.before ∧ frame.words ≠ []

/-- The words before the innermost block. -/
def framesWords : List Frame → List Str
  | [] => []
  | frame :: outer => framesWords outer ++ NginxConfig.words frame.before ++ frame.words

theorem worded_close {frame : Frame} {inner : NginxConfig}
    (hframe : NginxConfig.Worded frame.before ∧ frame.words ≠ [])
    (hinner : NginxConfig.Worded inner) : NginxConfig.Worded (frame.close inner) := by
  rw [close, NginxConfig.worded_append]
  exact ⟨hframe.1, ⟨hframe.2, hinner⟩, trivial⟩

theorem words_close (frame : Frame) (inner : NginxConfig) :
    NginxConfig.words (frame.close inner) =
      NginxConfig.words frame.before ++ frame.words ++ NginxConfig.words inner := by
  simp [close, NginxConfig.words_append, NginxConfig.words, NginxConfigStatement.words]

theorem worded_plug {frames : List Frame} {current : NginxConfig} (hframes : Worded frames)
    (hcurrent : NginxConfig.Worded current) : NginxConfig.Worded (plug frames current) := by
  induction frames generalizing current with
  | nil => exact hcurrent
  | cons frame outer ih =>
      obtain ⟨hframe, houter⟩ := List.forall_mem_cons.mp hframes
      exact ih houter (worded_close hframe hcurrent)

theorem words_plug (frames : List Frame) (current : NginxConfig) :
    NginxConfig.words (plug frames current) =
      framesWords frames ++ NginxConfig.words current := by
  induction frames generalizing current with
  | nil => rfl
  | cons frame outer ih => simp [plug, ih, words_close, framesWords]

end Frame

/-- The values of the words among the tokens. -/
def normalValues (tokens : List Token) : List Str :=
  (tokens.filter fun token => token.type = .normal).map Token.value

@[simp] theorem normalValues_nil : normalValues [] = [] := rfl

theorem normalValues_cons_of_normal {token : Token} (htoken : token.type = .normal)
    (rest : List Token) : normalValues (token :: rest) = token.value :: normalValues rest := by
  simp [normalValues, htoken]

theorem normalValues_cons_of_ne {token : Token} (htoken : token.type ≠ .normal)
    (rest : List Token) : normalValues (token :: rest) = normalValues rest := by
  simp [normalValues, htoken]

theorem normalValues_append (front back : List Token) :
    normalValues (front ++ back) = normalValues front ++ normalValues back := by
  simp [normalValues]

theorem normalValues_words (words : List Str) : normalValues (words.map word) = words := by
  induction words with
  | nil => rfl
  | cons value values ih =>
      rw [List.map_cons, normalValues_cons_of_normal rfl, ih]
      rfl

theorem normalValues_withoutComments (tokens : List Token) :
    normalValues (withoutComments tokens) = normalValues tokens := by
  induction tokens with
  | nil => rfl
  | cons token rest ih =>
      by_cases hcomment : token.type = .comment
      · have hskip : withoutComments (token :: rest) = withoutComments rest :=
          List.filter_cons_of_neg (by simp [hcomment])
        rw [hskip, ih, normalValues_cons_of_ne (by simp [hcomment])]
      · have hkeep : withoutComments (token :: rest) = token :: withoutComments rest :=
          List.filter_cons_of_pos (by simp [hcomment])
        rw [hkeep]
        by_cases hnormal : token.type = .normal
        · rw [normalValues_cons_of_normal hnormal, normalValues_cons_of_normal hnormal, ih]
        · rw [normalValues_cons_of_ne hnormal, normalValues_cons_of_ne hnormal, ih]

section Runs

variable {frames : List Frame} {current : NginxConfig} {words : List Str}
  {last : TokenType} {tokens : List Token} {outcome : Except Fault (Bool × NginxConfig)}

/-- However a run ends, the tree that it leaves is worded. -/
theorem Reads.worded (hreads : Reads frames current words last tokens outcome)
    (hframes : Frame.Worded frames) (hcurrent : NginxConfig.Worded current)
    {accepted : Bool} {tree : NginxConfig} (houtcome : outcome = .ok (accepted, tree)) :
    NginxConfig.Worded tree := by
  induction hreads with
  | @reject _ current words _ _ _ hadmits =>
      cases houtcome
      have hstatements : NginxConfig.Worded (current ++ unfinished words) :=
        (NginxConfig.worded_append _ _).mpr ⟨hcurrent, NginxConfig.worded_unfinished words⟩
      exact Frame.worded_plug hframes hstatements
  | finish htoken hadmits =>
      cases houtcome
      exact Frame.worded_plug hframes hcurrent
  | word htoken hadmits hrest ih => exact ih hframes hcurrent houtcome
  | line hwords htoken hrest ih =>
      refine ih hframes ?_ houtcome
      exact (NginxConfig.worded_append _ _).mpr ⟨hcurrent, hwords, trivial⟩
  | block hwords htoken hrest ih =>
      refine ih ?_ trivial houtcome
      exact List.forall_mem_cons.mpr ⟨⟨hcurrent, hwords⟩, hframes⟩
  | close htoken hadmits hrest ih =>
      obtain ⟨hframe, houter⟩ := List.forall_mem_cons.mp hframes
      exact ih houter (Frame.worded_close hframe hcurrent) houtcome
  | unmatchedReject htoken hadmits hnext =>
      cases houtcome
      exact hcurrent
  | unmatchedFinish htoken hadmits hnext =>
      cases houtcome
      exact hcurrent
  | unmatchedFault htoken hadmits hnext => cases houtcome

/-- A tree that is accepted has the words read before and all that follow. -/
theorem Reads.words_eq (hreads : Reads frames current words last tokens outcome)
    {tree : NginxConfig} (houtcome : outcome = .ok (true, tree)) :
    NginxConfig.words tree =
      Frame.framesWords frames ++ NginxConfig.words current ++ words ++
        normalValues tokens := by
  induction hreads with
  | reject hadmits => cases houtcome
  | finish htoken hadmits =>
      cases houtcome
      rw [normalValues_cons_of_ne (by simp [htoken])]
      simp [Frame.words_plug]
  | word htoken hadmits hrest ih =>
      rw [ih houtcome, normalValues_cons_of_normal htoken]
      simp
  | line hwords htoken hrest ih =>
      rw [ih houtcome, normalValues_cons_of_ne (by simp [htoken]), NginxConfig.words_append]
      simp [NginxConfig.words, NginxConfigStatement.words]
  | block hwords htoken hrest ih =>
      rw [ih houtcome, normalValues_cons_of_ne (by simp [htoken])]
      simp [Frame.framesWords, NginxConfig.words]
  | close htoken hadmits hrest ih =>
      rw [ih houtcome, normalValues_cons_of_ne (by simp [htoken]), Frame.words_close]
      simp [Frame.framesWords]
  | unmatchedReject htoken hadmits hnext => cases houtcome
  | unmatchedFinish htoken hadmits hnext =>
      cases houtcome
      rw [normalValues_cons_of_ne (by simp [htoken]),
        normalValues_cons_of_ne (by simp [hnext])]
      simp [Frame.framesWords]
  | unmatchedFault htoken hadmits hnext => cases houtcome

/-- Whatever is read after them, the words read before stay in front. -/
theorem Reads.startsWith_words (hreads : Reads frames current words last tokens outcome)
    {accepted : Bool} {tree : NginxConfig} (houtcome : outcome = .ok (accepted, tree)) :
    Frame.framesWords frames ++ NginxConfig.words current ++ words <+:
      NginxConfig.words tree := by
  induction hreads with
  | reject hadmits =>
      cases houtcome
      simp [Frame.words_plug, NginxConfig.words_append, NginxConfig.words_unfinished]
  | finish htoken hadmits =>
      cases houtcome
      simp [Frame.words_plug]
  | word htoken hadmits hrest ih =>
      have hprefix := ih houtcome
      rw [← List.append_assoc] at hprefix
      exact (List.prefix_append _ _).trans hprefix
  | line hwords htoken hrest ih =>
      have hprefix := ih houtcome
      simp only [NginxConfig.words_append, NginxConfig.words, NginxConfigStatement.words,
        List.append_nil] at hprefix
      rw [List.append_assoc]
      exact hprefix
  | block hwords htoken hrest ih =>
      have hprefix := ih houtcome
      simp only [Frame.framesWords, NginxConfig.words, List.append_nil] at hprefix
      exact hprefix
  | close htoken hadmits hrest ih =>
      have hprefix := ih houtcome
      rw [Frame.words_close] at hprefix
      simpa [Frame.framesWords] using hprefix
  | unmatchedReject htoken hadmits hnext =>
      cases houtcome
      simp [Frame.framesWords]
  | unmatchedFinish htoken hadmits hnext =>
      cases houtcome
      simp [Frame.framesWords]
  | unmatchedFault htoken hadmits hnext => cases houtcome

end Runs

theorem worded_of_parse {text : Str} {accepted : Bool} {tree : NginxConfig}
    (hparse : parse [] text = .ok (accepted, tree)) : NginxConfig.Worded tree :=
  (reads_parse [] text).worded (List.forall_mem_nil _) trivial hparse

theorem words_of_parse {text : Str} {tree : NginxConfig}
    (hparse : parse [] text = .ok (true, tree)) :
    NginxConfig.words tree = normalValues (parseTokens text) := by
  have hwords := (reads_parse [] text).words_eq hparse
  rw [normalValues_withoutComments] at hwords
  exact hwords

end SwanServer
