/-
What completes a partial parse.  `Completes` reads the rest of the input as the
parser does, from left to right; it is the grammar, cut at the open blocks.
-/
import SwanServer.ConfigFrames
import SwanServer.ConfigGrammar

namespace SwanServer

/-- The rest of an input from inside the open blocks `frames`, where `current`
are the statements before, and the tree of the whole. -/
inductive Completes : List Frame → NginxConfig → List Token → NginxConfig → Prop where
  | finish {current : NginxConfig} {stop : Token} {rest : List Token}
      (hstop : stop.type = .eof) : Completes [] current (stop :: rest) current
  | close {frame : Frame} {outer : List Frame} {current tree : NginxConfig}
      {closing : Token} {rest : List Token} (hclosing : closing.type = .endBlock)
      (hrest : Completes outer (frame.close current) rest tree) :
      Completes (frame :: outer) current (closing :: rest) tree
  | line {frames : List Frame} {current tree : NginxConfig} {words : List Str}
      {stop : Token} {rest : List Token} (hwords : words ≠ [])
      (hstop : stop.type = .statementEnd)
      (hrest : Completes frames (current ++ [.mk words none]) rest tree) :
      Completes frames current (words.map word ++ stop :: rest) tree
  | block {frames : List Frame} {current tree : NginxConfig} {words : List Str}
      {opening : Token} {rest : List Token} (hwords : words ≠ [])
      (hopening : opening.type = .startBlock)
      (hrest : Completes (⟨current, words⟩ :: frames) [] rest tree) :
      Completes frames current (words.map word ++ opening :: rest) tree

section Completes

variable {frames : List Frame} {current tree : NginxConfig} {words : List Str}
  {token : Token} {rest : List Token}

/-- The words before the first other token are determined. -/
theorem words_append_inj {words' : List Str} {token' : Token} {rest' : List Token}
    (htoken : token.type ≠ .normal) (htoken' : token'.type ≠ .normal)
    (heq : words.map word ++ token :: rest = words'.map word ++ token' :: rest') :
    words = words' ∧ token = token' ∧ rest = rest' := by
  induction words generalizing words' with
  | nil =>
      cases words' with
      | nil => simpa using heq
      | cons value values =>
          rw [List.map_nil, List.nil_append, List.map_cons, List.cons_append,
            List.cons.injEq] at heq
          exact absurd (heq.1 ▸ rfl) htoken
  | cons value values ih =>
      cases words' with
      | nil =>
          rw [List.map_nil, List.nil_append, List.map_cons, List.cons_append,
            List.cons.injEq] at heq
          exact absurd (heq.1 ▸ rfl) htoken'
      | cons value' values' =>
          simp only [List.map_cons, List.cons_append, List.cons.injEq, word,
            Token.mk.injEq, true_and] at heq
          obtain ⟨rfl, hrest⟩ := heq
          obtain ⟨rfl, htokens⟩ := ih hrest
          exact ⟨rfl, htokens⟩

theorem words_append_ne_cons (hwords : words ≠ []) (htoken : token.type ≠ .normal)
    (tail : List Token) : words.map word ++ tail ≠ token :: rest := by
  obtain ⟨value, values, rfl⟩ := List.exists_cons_of_ne_nil hwords
  rw [List.map_cons, List.cons_append]
  intro heq
  rw [List.cons.injEq] at heq
  exact htoken (heq.1 ▸ rfl)

theorem completes_words_iff (hwords : words ≠ []) (htoken : token.type ≠ .normal) :
    Completes frames current (words.map word ++ token :: rest) tree ↔
      (token.type = .statementEnd ∧
          Completes frames (current ++ [.mk words none]) rest tree) ∨
        (token.type = .startBlock ∧
          Completes (⟨current, words⟩ :: frames) [] rest tree) := by
  constructor
  · generalize htokens : words.map word ++ token :: rest = tokens
    intro hcompletes
    cases hcompletes with
    | finish hstop =>
        exact absurd htokens (words_append_ne_cons hwords (by simp [hstop]) _)
    | close hclosing hrest =>
        exact absurd htokens (words_append_ne_cons hwords (by simp [hclosing]) _)
    | line hwords' hstop hrest =>
        obtain ⟨rfl, rfl, rfl⟩ := words_append_inj htoken (by simp [hstop]) htokens
        exact Or.inl ⟨hstop, hrest⟩
    | block hwords' hopening hrest =>
        obtain ⟨rfl, rfl, rfl⟩ := words_append_inj htoken (by simp [hopening]) htokens
        exact Or.inr ⟨hopening, hrest⟩
  · rintro (⟨hstop, hrest⟩ | ⟨hopening, hrest⟩)
    · exact .line hwords hstop hrest
    · exact .block hwords hopening hrest

theorem completes_cons_iff (htoken : token.type ≠ .normal) :
    Completes frames current (token :: rest) tree ↔
      (token.type = .eof ∧ frames = [] ∧ tree = current) ∨
        (token.type = .endBlock ∧ ∃ frame outer, frames = frame :: outer ∧
          Completes outer (frame.close current) rest tree) := by
  constructor
  · generalize htokens : token :: rest = tokens
    intro hcompletes
    cases hcompletes with
    | finish hstop =>
        cases htokens
        exact Or.inl ⟨hstop, rfl, rfl⟩
    | close hclosing hrest =>
        cases htokens
        exact Or.inr ⟨hclosing, _, _, rfl, hrest⟩
    | line hwords hstop hrest =>
        exact absurd htokens.symm (words_append_ne_cons hwords htoken _)
    | block hwords hopening hrest =>
        exact absurd htokens.symm (words_append_ne_cons hwords htoken _)
  · rintro (⟨hstop, rfl, rfl⟩ | ⟨hclosing, frame, outer, rfl, hrest⟩)
    · exact .finish hstop
    · exact .close hclosing hrest

theorem not_completes_words (words : List Str) :
    ¬ Completes frames current (words.map word) tree := by
  generalize htokens : words.map word = tokens
  intro hcompletes
  have hall : ∀ token ∈ tokens, token.type = .normal := by
    rw [← htokens]
    simp [word]
  cases hcompletes with
  | finish hstop => exact absurd (hall _ List.mem_cons_self) (by simp [hstop])
  | close hclosing hrest =>
      exact absurd (hall _ List.mem_cons_self) (by simp [hclosing])
  | line hwords hstop hrest =>
      exact absurd (hall _ List.mem_append_cons_self) (by simp [hstop])
  | block hwords hopening hrest =>
      exact absurd (hall _ List.mem_append_cons_self) (by simp [hopening])

end Completes

/-- The rest of an input cut into the rests of the open blocks. -/
def Decomposes : List Frame → NginxConfig → List Token → NginxConfig → Prop
  | [], current, tokens, tree =>
      ∃ config, Generated tokens config ∧ tree = current ++ config
  | frame :: outer, current, tokens, tree =>
      ∃ body config stop rest, tokens = body ++ stop :: rest ∧ stop.type = .endBlock ∧
        Generates body config ∧ Decomposes outer (frame.close (current ++ config)) rest tree

section Derivations

variable {frames : List Frame} {current tree : NginxConfig}

/-- A statement in front of what decomposes. -/
theorem Decomposes.cons {front tokens : List Token} {statement : NginxConfigStatement}
    (hfront : ∀ {body config}, Generates body config →
      Generates (front ++ body) (statement :: config))
    (hrest : Decomposes frames (current ++ [statement]) tokens tree) :
    Decomposes frames current (front ++ tokens) tree := by
  cases frames with
  | nil =>
      obtain ⟨config, ⟨body, stop, rest, rfl, hstop, hbody⟩, rfl⟩ := hrest
      exact ⟨statement :: config,
        ⟨front ++ body, stop, rest, by simp, hstop, hfront hbody⟩, by simp⟩
  | cons frame outer =>
      obtain ⟨body, config, stop, rest, rfl, hstop, hbody, houter⟩ := hrest
      exact ⟨front ++ body, statement :: config, stop, rest, by simp, hstop,
        hfront hbody, by simpa using houter⟩

theorem Completes.decomposes {tokens : List Token}
    (hcompletes : Completes frames current tokens tree) :
    Decomposes frames current tokens tree := by
  induction hcompletes with
  | @finish current stop rest hstop =>
      exact ⟨[], ⟨[], stop, rest, rfl, hstop, .nil⟩, by simp⟩
  | @close frame outer current tree closing rest hclosing hrest ih =>
      exact ⟨[], [], closing, rest, rfl, hclosing, .nil, by simpa using ih⟩
  | @line frames current tree words stop rest hwords hstop hrest ih =>
      rw [List.append_cons]
      refine Decomposes.cons ?_ ih
      intro body config hbody
      simpa using Generates.line hwords hstop hbody
  | @block frames current tree words opening rest hwords hopening hrest ih =>
      obtain ⟨inner, child, closing, outside, rfl, hclosing, hinner, houter⟩ := ih
      have hsplit : words.map word ++ opening :: (inner ++ closing :: outside) =
          (words.map word ++ opening :: (inner ++ [closing])) ++ outside := by simp
      rw [hsplit]
      refine Decomposes.cons ?_ houter
      intro body config hbody
      simpa using Generates.block hwords hopening hinner hclosing hbody

theorem Generates.completes {body tokens : List Token} {config : NginxConfig}
    (hbody : Generates body config)
    (hrest : Completes frames (current ++ config) tokens tree) :
    Completes frames current (body ++ tokens) tree := by
  induction hbody generalizing frames current tokens with
  | nil => simpa using hrest
  | line hwords hstop _ ih =>
      rw [List.append_assoc, List.cons_append]
      exact .line hwords hstop (ih (by simpa using hrest))
  | block hwords hopening _ hclosing _ ihInner ihRest =>
      rw [List.append_assoc, List.cons_append, List.append_assoc, List.cons_append]
      refine .block hwords hopening (ihInner (.close hclosing ?_))
      exact ihRest (by simpa [Frame.close] using hrest)

theorem completes_iff_generated {tokens : List Token} :
    Completes [] [] tokens tree ↔ Generated tokens tree := by
  constructor
  · intro hcompletes
    obtain ⟨config, hgenerated, heq⟩ := hcompletes.decomposes
    rwa [heq]
  · rintro ⟨body, stop, rest, rfl, hstop, hbody⟩
    exact hbody.completes (.finish hstop)

end Derivations

end SwanServer
