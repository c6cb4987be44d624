/-
`NginxConfig::getPort`.  At a level with a listen statement the first one decides
alone; at any other level the blocks are asked in their order.  The port is
narrowed to an `int` before its range is checked.
-/
import SwanServer.ConfigTree

namespace SwanServer

/-- `is_digits`. -/
def isDigits (s : Str) : Bool := !s.isEmpty && s.all Char.isDigit

/-- The largest and the smallest `long`. -/
def longMax : Int := 9223372036854775807

def longMin : Int := -9223372036854775808

/-- `strtol` in base ten: like `stoi`, but a number out of range is moved to the
end of the range. -/
def strtol (s : Str) : Int :=
  let (negative, text) := readSign ((cStr s).dropWhile isSpace)
  let digits := text.takeWhile Char.isDigit
  let value : Int := if negative then -decimal digits else decimal digits
  max longMin (min longMax value)

/-- `atoi`: the `long` of `strtol` cut down to an `int`. -/
def atoi (s : Str) : Int := wrapInt (strtol s)

/-- The argument of a listen statement: two tokens and no block. -/
def NginxConfigStatement.listen? : NginxConfigStatement → Option Str
  | .mk [name, value] none => if name = "listen".toList then some value else none
  | _ => none

/-- The argument of the first listen statement that a block directly holds. -/
def NginxConfig.firstListen? (config : NginxConfig) : Option Str :=
  config.findSome? NginxConfigStatement.listen?

/-- What `getPort` returns at a listen statement. -/
def listenPort (value : Str) : Int :=
  if !isDigits (cStr value) then -1
  else
    let port := atoi value
    if 0 ≤ port ∧ port ≤ 65535 then port else -1

mutual

/-- `child_block_->getPort()`, or -1 where there is no block. -/
def NginxConfigStatement.childPort : NginxConfigStatement → Int
  | .mk _ none => -1
  | .mk _ (some child) =>
      (NginxConfig.firstListen? child).elim (NginxConfig.childrenPort child) listenPort

/-- The loop of `getPort` over the statements with a block. -/
def NginxConfig.childrenPort : NginxConfig → Int
  | [] => -1
  | statement :: rest =>
      if statement.childPort ≠ -1 then statement.childPort
      else NginxConfig.childrenPort rest

end

/-- `NginxConfig::getPort`. -/
def NginxConfig.getPort (config : NginxConfig) : Int :=
  config.firstListen?.elim config.childrenPort listenPort

/-- Whether a listen argument passes the checks on digits and range. -/
def isPort (value : Str) : Bool :=
  isDigits (cStr value) && decide (0 ≤ atoi value ∧ atoi value ≤ 65535)

theorem listenPort_eq (value : Str) :
    listenPort value = if isPort value then atoi value else -1 := by
  by_cases hdigits : isDigits (cStr value) = true <;> simp [listenPort, isPort, hdigits]

theorem childPort_block (tokens : List Str) (child : NginxConfig) :
    NginxConfigStatement.childPort (.mk tokens (some child)) = NginxConfig.getPort child := by
  rw [NginxConfigStatement.childPort, NginxConfig.getPort]

mutual

/-- The blocks inside a statement, each with the blocks around it. -/
def NginxConfigStatement.innerBlocks (outer : List NginxConfig) :
    NginxConfigStatement → List (List NginxConfig × NginxConfig)
  | .mk _ none => []
  | .mk _ (some child) => (outer, child) :: NginxConfig.innerBlocks (child :: outer) child

/-- The blocks inside a block, in the order of the text. -/
def NginxConfig.innerBlocks (outer : List NginxConfig) :
    NginxConfig → List (List NginxConfig × NginxConfig)
  | [] => []
  | statement :: rest =>
      statement.innerBlocks outer ++ NginxConfig.innerBlocks outer rest

end

namespace NginxConfig

/-- All blocks of a tree, the whole tree first, each with the blocks around it. -/
def blocks (config : NginxConfig) : List (List NginxConfig × NginxConfig) :=
  ([], config) :: innerBlocks [config] config

/-- Whether a block directly holds a listen statement. -/
def isListenBlock (config : NginxConfig) : Bool :=
  config.any fun statement => statement.listen?.isSome

/-- The listen blocks with no listen block around them. -/
def outermostListens (blocks : List (List NginxConfig × NginxConfig)) : List NginxConfig :=
  (blocks.filter fun block => block.2.isListenBlock && !block.1.any isListenBlock).map Prod.snd

/-- The listen argument that is the port: of the first outermost listen block
whose first listen argument is a port. -/
def portArgument? (blocks : List (List NginxConfig × NginxConfig)) : Option Str :=
  (outermostListens blocks).findSome? fun block => block.firstListen?.filter isPort

theorem isSome_firstListen? (config : NginxConfig) :
    config.firstListen?.isSome = config.isListenBlock := by
  rw [firstListen?, List.isSome_findSome?, isListenBlock]

theorem outermostListens_append (front back : List (List NginxConfig × NginxConfig)) :
    outermostListens (front ++ back) = outermostListens front ++ outermostListens back := by
  rw [outermostListens, List.filter_append, List.map_append]
  rfl

theorem portArgument?_append (front back : List (List NginxConfig × NginxConfig)) :
    portArgument? (front ++ back) = (portArgument? front).or (portArgument? back) := by
  rw [portArgument?, outermostListens_append, List.findSome?_append]
  rfl

/-- The argument of a port is a port. -/
theorem isPort_of_portArgument? {blocks : List (List NginxConfig × NginxConfig)} {value : Str}
    (hvalue : portArgument? blocks = some value) : isPort value = true := by
  obtain ⟨block, hblock, hfilter⟩ := List.exists_of_findSome?_eq_some hvalue
  exact (Option.filter_eq_some_iff.mp hfilter).2

end NginxConfig

theorem atoi_ne_neg_one {value : Str} (hvalue : isPort value = true) : atoi value ≠ -1 := by
  rw [isPort, Bool.and_eq_true, decide_eq_true_eq] at hvalue
  omega

mutual

/-- Inside a listen block there is no outermost one. -/
theorem NginxConfigStatement.outermostListens_innerBlocks {outer : List NginxConfig}
    (houter : outer.any NginxConfig.isListenBlock = true) :
    ∀ statement : NginxConfigStatement,
      NginxConfig.outermostListens (statement.innerBlocks outer) = []
  | .mk _ none => rfl
  | .mk tokens (some child) => by
      have hinner : (child :: outer).any NginxConfig.isListenBlock = true := by
        rw [List.any_cons, houter, Bool.or_true]
      have hrest := NginxConfig.outermostListens_innerBlocks hinner child
      rw [NginxConfigStatement.innerBlocks, NginxConfig.outermostListens,
        List.filter_cons_of_neg (by simp [houter])]
      exact hrest

theorem NginxConfig.outermostListens_innerBlocks {outer : List NginxConfig}
    (houter : outer.any NginxConfig.isListenBlock = true) :
    ∀ config : NginxConfig, NginxConfig.outermostListens (NginxConfig.innerBlocks outer config) = []
  | [] => rfl
  | statement :: rest => by
      have hfirst := statement.outermostListens_innerBlocks houter
      have hrest := NginxConfig.outermostListens_innerBlocks houter rest
      rw [NginxConfig.innerBlocks, NginxConfig.outermostListens_append, hfirst, hrest,
        List.append_nil]

end

namespace NginxConfig

/-- A block asked for its port: its own first listen statement decides, else the
blocks inside. -/
theorem portArgument?_block {outer : List NginxConfig} {config : NginxConfig}
    (houter : outer.any isListenBlock = false)
    (hinner : config.isListenBlock = false →
      (portArgument? (innerBlocks (config :: outer) config)).elim (-1) atoi =
        config.childrenPort) :
    (portArgument? ((outer, config) :: innerBlocks (config :: outer) config)).elim (-1) atoi =
      config.getPort := by
  have hlisten := isSome_firstListen? config
  cases hfirst : config.firstListen? with
  | none =>
      rw [hfirst, Option.isSome_none] at hlisten
      rw [getPort, hfirst, Option.elim_none, ← hinner hlisten.symm, portArgument?,
        outermostListens, List.filter_cons_of_neg (by simp [← hlisten])]
      rfl
  | some value =>
      rw [hfirst, Option.isSome_some] at hlisten
      have hshadowed : outermostListens (innerBlocks (config :: outer) config) = [] := by
        apply NginxConfig.outermostListens_innerBlocks
        rw [List.any_cons, ← hlisten, Bool.true_or]
      have houtermost : outermostListens ((outer, config) :: innerBlocks (config :: outer)
          config) = config :: outermostListens (innerBlocks (config :: outer) config) := by
        rw [outermostListens, List.filter_cons_of_pos (by simp [← hlisten, houter])]
        rfl
      rw [getPort, hfirst, Option.elim_some, listenPort_eq, portArgument?, houtermost,
        hshadowed, List.findSome?_singleton, hfirst]
      by_cases hport : isPort value = true <;> simp [Option.filter, hport]

end NginxConfig

mutual

/-- What the blocks inside return is the port of the first outermost listen block
among them that has one. -/
theorem NginxConfigStatement.elim_portArgument? {outer : List NginxConfig}
    (houter : outer.any NginxConfig.isListenBlock = false) :
    ∀ statement : NginxConfigStatement,
      (NginxConfig.portArgument? (statement.innerBlocks outer)).elim (-1) atoi =
        statement.childPort
  | .mk _ none => rfl
  | .mk tokens (some child) => by
      rw [NginxConfigStatement.innerBlocks, childPort_block]
      apply NginxConfig.portArgument?_block houter
      intro hchild
      apply NginxConfig.elim_portArgument?
      rw [List.any_cons, hchild, houter, Bool.or_false]

theorem NginxConfig.elim_portArgument? {outer : List NginxConfig}
    (houter : outer.any NginxConfig.isListenBlock = false) :
    ∀ config : NginxConfig,
      (NginxConfig.portArgument? (NginxConfig.innerBlocks outer config)).elim (-1) atoi =
        config.childrenPort
  | [] => rfl
  | statement :: rest => by
      have hfirst := statement.elim_portArgument? houter
      have hrest := NginxConfig.elim_portArgument? houter rest
      rw [NginxConfig.innerBlocks, NginxConfig.portArgument?_append, NginxConfig.childrenPort]
      cases hargument : NginxConfig.portArgument? (statement.innerBlocks outer) with
      | none =>
          rw [hargument, Option.elim_none] at hfirst
          rw [Option.none_or, hrest, ← hfirst, if_neg (by simp)]
      | some value =>
          have hport := atoi_ne_neg_one (NginxConfig.isPort_of_portArgument? hargument)
          rw [hargument, Option.elim_some] at hfirst
          rw [Option.some_or, Option.elim_some, ← hfirst, if_pos hport]

end

namespace NginxConfig

/-- `getPort` converts the argument of the first outermost listen block whose
first listen statement passes its checks. -/
theorem getPort_eq_elim (config : NginxConfig) :
    config.getPort = (portArgument? config.blocks).elim (-1) atoi := by
  rw [blocks]
  refine (portArgument?_block rfl ?_).symm
  intro hconfig
  apply NginxConfig.elim_portArgument?
  rw [List.any_cons, hconfig, List.any_nil, Bool.or_false]

/-- Among the listen blocks that are not inside another listen block, in the order
of the text, the first whose first listen statement passes the checks gives the
port. -/
theorem getPort_eq_first_outermost (config : NginxConfig) :
    config.getPort =
      ((outermostListens config.blocks).findSome? fun block =>
        block.firstListen?.filter isPort).elim (-1) atoi :=
  getPort_eq_elim config

end NginxConfig

theorem isDigits_iff (s : Str) : isDigits s = true ↔ IsDigits s := by
  simp [isDigits, IsDigits]

theorem strtol_of_isDigits {s : Str} (hs : IsDigits s) : strtol s = min longMax (decimal s) := by
  obtain ⟨head, tail, rfl⟩ := List.exists_cons_of_ne_nil hs.1
  have hhead : head.isDigit := hs.2 head List.mem_cons_self
  have hdrop : (head :: tail).dropWhile isSpace = head :: tail := by
    simp [isSpace_of_isDigit hhead]
  have hlow : longMin ≤ min longMax (decimal (head :: tail)) := by
    simp only [longMin, longMax]
    omega
  simp only [strtol, hs.cStr, hdrop, readSign_of_isDigit hhead, hs.takeWhile]
  simpa using hlow

/-- A number below 2^32 that is not negative as an `int` is kept. -/
theorem wrapInt_of_nonneg {n : Nat} (hn : n < 4294967296) (hwrap : 0 ≤ wrapInt n) :
    wrapInt n = n := by
  rw [wrapInt, Int.bmod_def] at hwrap ⊢
  omega

/-- A port without a NUL and below 2^32 is a digit string and its own value. -/
theorem decimal_eq_of_isPort {value : Str} (hport : isPort value = true) (hnul : nul ∉ value)
    (hsmall : decimal value < 4294967296) :
    IsDigits value ∧ (decimal value : Int) = atoi value := by
  rw [isPort, cStr_eq_self hnul, Bool.and_eq_true, isDigits_iff, decide_eq_true_eq] at hport
  obtain ⟨hdigits, hlow, hhigh⟩ := hport
  have hlong : atoi value = wrapInt (decimal value) := by
    rw [atoi, strtol_of_isDigits hdigits, min_eq_right]
    simp only [longMax]
    omega
  rw [hlong] at hlow ⊢
  exact ⟨hdigits, (wrapInt_of_nonneg hsmall hlow).symm⟩

namespace NginxConfig

/-- The tree holds, in some block, a listen statement with this argument. -/
def HoldsListen (config : NginxConfig) (value : Str) : Prop :=
  ∃ block ∈ config.blocks, .mk ["listen".toList, value] none ∈ block.2

theorem listen?_eq_some {statement : NginxConfigStatement} {value : Str}
    (hlisten : statement.listen? = some value) :
    statement = .mk ["listen".toList, value] none := by
  rcases statement with ⟨_ | ⟨name, _ | ⟨argument, _ | ⟨third, others⟩⟩⟩, _ | child⟩ <;>
    try cases hlisten
  rw [NginxConfigStatement.listen?] at hlisten
  by_cases hname : name = "listen".toList
  · rw [if_pos hname, Option.some_inj] at hlisten
    rw [hname, hlisten]
  · rw [if_neg hname] at hlisten
    cases hlisten

theorem holdsListen_of_portArgument? {config : NginxConfig} {value : Str}
    (hvalue : portArgument? config.blocks = some value) : config.HoldsListen value := by
  obtain ⟨block, hblock, hfilter⟩ := List.exists_of_findSome?_eq_some hvalue
  obtain ⟨statement, hstatement, hlisten⟩ :=
    List.exists_of_findSome?_eq_some (Option.filter_eq_some_iff.mp hfilter).1
  obtain ⟨⟨outer, inner⟩, hmem, rfl⟩ := List.mem_map.mp hblock
  refine ⟨(outer, inner), (List.mem_filter.mp hmem).1, ?_⟩
  rw [← listen?_eq_some hlisten]
  exact hstatement

/-- The port is the value of the listen argument that it comes from, exactly if
that argument has no NUL and is below 2^32. -/
theorem getPort_value_iff (config : NginxConfig) :
    (∀ port, config.getPort = port → port ≠ -1 →
      ∃ value, portArgument? config.blocks = some value ∧ config.HoldsListen value ∧
        IsDigits value ∧ (decimal value : Int) = port ∧ 0 ≤ port ∧ port ≤ 65535) ↔
      ∀ value, portArgument? config.blocks = some value →
        nul ∉ value ∧ decimal value < 4294967296 := by
  constructor
  · intro hport value hvalue
    have hne := atoi_ne_neg_one (isPort_of_portArgument? hvalue)
    have hget := getPort_eq_elim config
    rw [hvalue, Option.elim_some] at hget
    obtain ⟨value', hvalue', -, hdigits, hdecimal, -, hhigh⟩ := hport _ hget hne
    rw [hvalue, Option.some_inj] at hvalue'
    subst hvalue'
    refine ⟨hdigits.not_mem rfl, ?_⟩
    omega
  · rintro hvalues port rfl hne
    rw [getPort_eq_elim] at hne ⊢
    cases hvalue : portArgument? config.blocks with
    | none =>
        rw [hvalue] at hne
        exact absurd rfl hne
    | some value =>
        have hport := isPort_of_portArgument? hvalue
        obtain ⟨hnul, hsmall⟩ := hvalues value hvalue
        obtain ⟨hdigits, hdecimal⟩ := decimal_eq_of_isPort hport hnul hsmall
        rw [isPort, Bool.and_eq_true, decide_eq_true_eq] at hport
        exact ⟨value, rfl, holdsListen_of_portArgument? hvalue, hdigits, hdecimal, hport.2⟩

end NginxConfig

namespace ConfigPortWitness

/-- A listen argument of 2^32 and 80. -/
def wrapped : NginxConfig := [.mk ["listen".toList, "4294967376".toList] none]

/-- The server listens on port 80, and no listen argument has that value. -/
theorem getPort_wrapped :
    wrapped.getPort = 80 ∧ ∀ value, wrapped.HoldsListen value → decimal value ≠ 80 := by
  refine ⟨by decide +kernel, ?_⟩
  rintro value ⟨block, hblock, hmem⟩
  rw [List.mem_singleton.mp hblock] at hmem
  cases List.mem_singleton.mp hmem
  decide +kernel

end ConfigPortWitness

end SwanServer
