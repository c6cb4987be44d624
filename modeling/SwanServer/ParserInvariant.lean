/-
What `Parse` relies on whenever it asks for a token.  Its raw pointers are those
to the last statements of the open blocks, from the root inwards, and a statement
that goes on has a word and no block yet.
-/
import SwanServer.ConfigWords

namespace SwanServer

namespace ParserState

/-- One iteration of the loop of `Parse`: the state at the next one, unless it
ends. -/
def next? (state : ParserState) (token : Token) : Option ParserState :=
  if token.type = .comment then some state
  else if state.last.admits token.type then
    if token.type = .eof then none
    else
      match state.accept token with
      | .error _ => none
      | .ok next => some { next with last := token.type }
  else none

/-- The states at the beginnings of all iterations. -/
def iterations : ParserState → List Token → List ParserState
  | state, [] => [state]
  | state, token :: rest =>
      state :: (state.next? token).elim [] fun next => next.iterations rest

variable {state next : ParserState} {token : Token}

theorem mem_iterations (state : ParserState) (tokens : List Token) :
    state ∈ state.iterations tokens := by
  cases tokens <;> exact List.mem_cons_self

/-- An iteration skips a comment or accepts a token, or `Parse` returns the tree as
it is, or there is a fault. -/
inductive Iteration (state : ParserState) (token : Token) : Prop where
  | skips (hnext : state.next? token = some state) (hcomment : token.type = .comment)
      (hloop : ∀ rest, parseLoop state (token :: rest) = parseLoop state rest)
  | accepts {next : ParserState}
      (hnext : state.next? token = some { next with last := token.type })
      (hadmits : state.last.admits token.type = true) (heof : token.type ≠ .eof)
      (haccept : state.accept token = .ok next)
      (hloop : ∀ rest,
        parseLoop state (token :: rest) = parseLoop { next with last := token.type } rest)
  | returns {accepted : Bool} (hnext : state.next? token = none)
      (hloop : ∀ rest, parseLoop state (token :: rest) = .ok (accepted, state.config))
  | faults {fault : Fault} (hadmits : state.last.admits token.type = true)
      (heof : token.type ≠ .eof) (haccept : state.accept token = .error fault)
      (hloop : ∀ rest, parseLoop state (token :: rest) = .error fault)

theorem iteration (state : ParserState) (token : Token) : state.Iteration token := by
  by_cases hcomment : token.type = .comment
  · refine .skips (if_pos hcomment) hcomment ?_
    intro rest
    rw [parseLoop, if_pos hcomment]
  cases hadmits : state.last.admits token.type with
  | false =>
      refine .returns ?_ fun rest => parseLoop_of_not_admits hcomment hadmits
      rw [next?, if_neg hcomment, if_neg (by simp [hadmits])]
  | true =>
      by_cases heof : token.type = .eof
      · refine .returns ?_ fun rest => parseLoop_of_eof heof hadmits
        rw [next?, if_neg hcomment, if_pos hadmits, if_pos heof]
      cases haccept : state.accept token with
      | error fault =>
          exact .faults hadmits heof haccept
            fun rest => parseLoop_of_fault hcomment heof hadmits haccept
      | ok next =>
          refine .accepts ?_ hadmits heof haccept
            fun rest => parseLoop_of_accept hcomment heof hadmits haccept
          rw [next?, if_neg hcomment, if_pos hadmits, if_neg heof, haccept]

/-- What `Parse` returns is the tree of its last iteration. -/
theorem exists_iteration_of_parseLoop {tokens : List Token} {result : Bool × NginxConfig}
    (hresult : parseLoop state tokens = .ok result) :
    ∃ final ∈ state.iterations tokens, final.config = result.2 := by
  induction tokens generalizing state with
  | nil =>
      cases hresult
      exact ⟨state, List.mem_cons_self, rfl⟩
  | cons token rest ih =>
      cases state.iteration token with
      | skips hnext hcomment hloop =>
          rw [hloop] at hresult
          obtain ⟨final, hfinal, hconfig⟩ := ih hresult
          refine ⟨final, ?_, hconfig⟩
          rw [iterations, hnext]
          exact List.mem_cons_of_mem _ hfinal
      | accepts hnext hadmits heof haccept hloop =>
          rw [hloop] at hresult
          obtain ⟨final, hfinal, hconfig⟩ := ih hresult
          refine ⟨final, ?_, hconfig⟩
          rw [iterations, hnext]
          exact List.mem_cons_of_mem _ hfinal
      | returns hnext hloop =>
          rw [hloop] at hresult
          cases hresult
          exact ⟨state, mem_iterations state _, rfl⟩
      | faults hadmits heof haccept hloop =>
          rw [hloop] at hresult
          cases hresult

end ParserState

/-- The stack of `Parse`, its top first: the root, and above each block the child
block of its last statement. -/
inductive IsStack (config : NginxConfig) : List BlockPointer → Prop where
  | root : IsStack config [[]]
  | child {pointer : BlockPointer} {below : List BlockPointer} {front inner : NginxConfig}
      {tokens : List Str} (hbelow : IsStack config (pointer :: below))
      (hblock : config.block? pointer = some (front ++ [.mk tokens (some inner)])) :
      IsStack config ((pointer ++ [front.length]) :: pointer :: below)

/-- What holds at the beginning of every iteration. -/
structure ParserState.Sound (state : ParserState) : Prop where
  stack : IsStack state.config state.stack
  worded : NginxConfig.Worded state.config
  unfinished : state.last = .normal → ∃ pointer below front tokens,
    state.stack = pointer :: below ∧
      state.config.block? pointer = some (front ++ [.mk tokens none]) ∧ tokens ≠ []

/-- The state is that of open blocks, so many of them, around the statements read so
far. -/
def ParserState.Nested (depth : Nat) (state : ParserState) : Prop :=
  ∃ frames current words last, state = .within frames (current ++ unfinished words) last ∧
    frames.length = depth ∧ Follows last words frames ∧ Frame.Worded frames ∧
      NginxConfig.Worded current

theorem isStack_plug (frames : List Frame) (current : NginxConfig) :
    IsStack (Frame.plug frames current) (Frame.pointers frames) := by
  induction frames generalizing current with
  | nil => exact .root
  | cons frame outer ih =>
      obtain ⟨below, hbelow⟩ := Frame.pointers_eq_cons outer
      have hstack := ih (frame.close current)
      have hblock := NginxConfig.block?_plug outer (frame.close current)
      rw [Frame.pointers, Frame.pointer, hbelow, Frame.plug]
      rw [hbelow] at hstack
      exact .child hstack hblock

namespace ParserState

variable {state next : ParserState} {token : Token} {depth : Nat}

theorem Nested.sound (hnested : state.Nested depth) : state.Sound := by
  obtain ⟨frames, current, words, last, rfl, -, hfollows, hframes, hcurrent⟩ := hnested
  refine ⟨isStack_plug frames _, ?_, ?_⟩
  · apply Frame.worded_plug hframes
    rw [NginxConfig.worded_append]
    exact ⟨hcurrent, NginxConfig.worded_unfinished words⟩
  · intro hnormal
    have hwords := hfollows.words_ne_nil_iff.mpr hnormal
    obtain ⟨below, hbelow⟩ := Frame.pointers_eq_cons frames
    refine ⟨Frame.pointer frames, below, current, words, hbelow, ?_, hwords⟩
    rw [SwanServer.unfinished, if_neg hwords]
    exact NginxConfig.block?_plug frames _

end ParserState

/-- How many tokens of a type there are. -/
def countType (type : TokenType) (tokens : List Token) : Nat :=
  tokens.countP fun token => token.type = type

theorem countType_cons (type : TokenType) (token : Token) (rest : List Token) :
    countType type (token :: rest) =
      countType type rest + if token.type = type then 1 else 0 := by
  rw [countType, List.countP_cons]
  simp only [decide_eq_true_eq]
  rfl

namespace ParserState

variable {state next : ParserState} {token : Token} {depth : Nat}

/-- A token that is admitted is accepted, and leads to as many open blocks as its
braces say. -/
theorem Nested.accept (hnested : state.Nested depth)
    (hadmits : state.last.admits token.type = true) (heof : token.type ≠ .eof)
    (hdepth : token.type = .endBlock → 0 < depth) :
    ∃ next later, state.accept token = .ok next ∧
      ParserState.Nested later { next with last := token.type } ∧
        later + countType .endBlock [token] = depth + countType .startBlock [token] := by
  obtain ⟨frames, current, words, last, rfl, rfl, hfollows, hframes, hcurrent⟩ := hnested
  change last.admits token.type = true at hadmits
  cases hfollows.admitted hadmits with
  | word htype =>
      refine ⟨_, frames.length, accept_word frames current hfollows.words_ne_nil_iff htype,
        ⟨frames, current, words ++ [token.value], .normal, ?_, rfl, .normal (by simp), hframes,
          hcurrent⟩, ?_⟩
      · rw [htype]
        rfl
      · simp [countType, htype]
  | line hwords htype =>
      refine ⟨_, frames.length, accept_line htype _,
        ⟨frames, current ++ [.mk words none], [], .statementEnd, ?_, rfl, .statementEnd, hframes,
          ?_⟩, ?_⟩
      · rw [htype, SwanServer.unfinished, if_neg hwords, SwanServer.unfinished, if_pos rfl,
          List.append_nil]
        rfl
      · rw [NginxConfig.worded_append]
        exact ⟨hcurrent, hwords, trivial⟩
      · simp [countType, htype]
  | block hwords htype =>
      refine ⟨_, frames.length + 1, accept_block hwords htype,
        ⟨⟨current, words⟩ :: frames, [], [], .startBlock, ?_, rfl, .startBlock, ?_, trivial⟩, ?_⟩
      · rw [htype]
        rfl
      · exact List.forall_mem_cons.mpr ⟨⟨hcurrent, hwords⟩, hframes⟩
      · simp [countType, htype]
  | brace htype =>
      cases frames with
      | nil => exact absurd (hdepth htype) (Nat.lt_irrefl 0)
      | cons frame outer =>
          obtain ⟨hframe, houter⟩ := List.forall_mem_cons.mp hframes
          refine ⟨_, outer.length, accept_close htype,
            ⟨outer, frame.close current, [], .endBlock, ?_, rfl, .endBlock, houter,
              Frame.worded_close hframe hcurrent⟩, ?_⟩
          · rw [htype, SwanServer.unfinished, if_pos rfl, List.append_nil]
            rfl
          · simp [countType, htype]
  | eof htype => exact absurd htype heof

end ParserState

/-- No front of the tokens closes more blocks than it opens. -/
def BracesNested (tokens : List Token) : Prop :=
  ∀ front, front <+: tokens → countType .endBlock front ≤ countType .startBlock front

/-- No front of the tokens closes more blocks than were open and it opens. -/
def NestedFrom (depth : Nat) (tokens : List Token) : Prop :=
  ∀ front, front <+: tokens → countType .endBlock front ≤ depth + countType .startBlock front

theorem NestedFrom.pos {depth : Nat} {token : Token} {rest : List Token}
    (htokens : NestedFrom depth (token :: rest)) (htoken : token.type = .endBlock) :
    0 < depth := by
  have hfront := htokens [token] (List.prefix_append [token] rest)
  simp [countType, htoken] at hfront
  exact hfront

theorem NestedFrom.tail {depth later : Nat} {token : Token} {rest : List Token}
    (htokens : NestedFrom depth (token :: rest))
    (hlater : later + countType .endBlock [token] = depth + countType .startBlock [token]) :
    NestedFrom later rest := by
  intro front hfront
  have hcons := htokens (token :: front) ((List.prefix_cons_inj token).mpr hfront)
  rw [countType_cons, countType_cons] at hcons
  simp only [countType, List.countP_singleton, decide_eq_true_eq] at hlater
  omega

/-- From a state of open blocks `Parse` goes through such states only, and it
returns. -/
theorem ParserState.Nested.iterations {state : ParserState} {depth : Nat}
    (hnested : state.Nested depth) {tokens : List Token} (htokens : NestedFrom depth tokens) :
    (∀ later ∈ state.iterations tokens, later.Sound) ∧
      ∃ result, parseLoop state tokens = .ok result := by
  induction tokens generalizing state depth with
  | nil => exact ⟨List.forall_mem_singleton.mpr hnested.sound, _, rfl⟩
  | cons token rest ih =>
      rw [ParserState.iterations, List.forall_mem_cons]
      cases state.iteration token with
      | skips hnext hcomment hloop =>
          have hrest : NestedFrom depth rest :=
            htokens.tail (by simp [countType, hcomment])
          obtain ⟨hsound, result, hresult⟩ := ih hnested hrest
          rw [hnext, Option.elim_some, hloop]
          exact ⟨⟨hnested.sound, hsound⟩, result, hresult⟩
      | @accepts next hnext hadmits heof haccept hloop =>
          obtain ⟨other, later, hother, hlater, hdepth⟩ :=
            hnested.accept hadmits heof htokens.pos
          rw [haccept] at hother
          cases hother
          obtain ⟨hsound, result, hresult⟩ := ih hlater (htokens.tail hdepth)
          rw [hnext, Option.elim_some, hloop]
          exact ⟨⟨hnested.sound, hsound⟩, result, hresult⟩
      | returns hnext hloop =>
          rw [hnext, Option.elim_none, hloop]
          exact ⟨⟨hnested.sound, by simp⟩, _, rfl⟩
      | faults hadmits heof haccept hloop =>
          obtain ⟨other, later, hother, -, -⟩ := hnested.accept hadmits heof htokens.pos
          rw [haccept] at hother
          cases hother

/-- On tokens that never close more blocks than they open, `Parse` holds at every
iteration the pointers to the last statements of the open blocks, and goes on only
with a statement that has a word and no block. -/
theorem sound_of_mem_iterations {config : NginxConfig} (hconfig : NginxConfig.Worded config)
    {tokens : List Token} (htokens : BracesNested tokens) :
    (∀ state ∈ ParserState.iterations ⟨config, [[]], .start⟩ tokens, state.Sound) ∧
      ∃ result, parseLoop ⟨config, [[]], .start⟩ tokens = .ok result := by
  have hstart : ParserState.Nested 0 ⟨config, [[]], .start⟩ := by
    refine ⟨[], config, [], .start, ?_, rfl, .start, by simp [Frame.Worded], hconfig⟩
    rw [unfinished, if_pos rfl, List.append_nil]
    rfl
  apply hstart.iterations
  intro front hfront
  rw [Nat.zero_add]
  exact htokens front hfront

namespace ParserInvariantWitness

/-- The tokens of a block in a block, and of one more closing brace that is not
admitted after a word. -/
def tokens : List Token :=
  [⟨.normal, "a".toList⟩, ⟨.startBlock, "\x7b".toList⟩, ⟨.normal, "b".toList⟩,
    ⟨.comment, "#".toList⟩, ⟨.startBlock, "\x7b".toList⟩, ⟨.endBlock, "\x7d".toList⟩,
    ⟨.normal, "c".toList⟩, ⟨.endBlock, "\x7d".toList⟩]

theorem bracesNested_tokens : BracesNested tokens := by
  have hfronts : ∀ front ∈ tokens.inits,
      countType .endBlock front ≤ countType .startBlock front := by decide
  exact fun front hfront => hfronts front ((List.mem_inits front tokens).mpr hfront)

theorem sound_tokens :
    (∀ state ∈ ParserState.iterations ⟨[], [[]], .start⟩ tokens, state.Sound) ∧
      ∃ result, parseLoop ⟨[], [[]], .start⟩ tokens = .ok result := by
  have hfresh : NginxConfig.Worded [] := trivial
  exact sound_of_mem_iterations hfresh bracesNested_tokens

end ParserInvariantWitness

end SwanServer
