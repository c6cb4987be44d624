/-
Printing a config and parsing the text again.  Every token that `ToString`
prints is followed by a delimiter, so the lexer gives it back whole.
-/
import SwanServer.ConfigAcceptance

namespace SwanServer

/-- A character that a bare word may start with. -/
def isBareStart (c : Char) : Bool :=
  !(isDelimiter c || c = '\r' || c = '#' || c = '"' || c = '\'')

/-- A word that needs no quotes. -/
def IsBareWord (token : Str) : Prop :=
  ∃ first rest, token = first :: rest ∧ isBareStart first = true ∧
    ∀ c ∈ rest, isDelimiter c = false

/-- A word between two quotes, without that quote or a backslash inside. -/
def IsQuotedWord (token : Str) : Prop :=
  ∃ quote inner, (quote = '"' ∨ quote = '\'') ∧ token = quote :: (inner ++ [quote]) ∧
    '\\' ∉ inner ∧ quote ∉ inner

/-- A statement has tokens, and all of them are words. -/
def PrintableTokens (tokens : List Str) : Prop :=
  tokens ≠ [] ∧ ∀ token ∈ tokens, IsBareWord token ∨ IsQuotedWord token

mutual

def NginxConfigStatement.Printable : NginxConfigStatement → Prop
  | .mk tokens none => PrintableTokens tokens
  | .mk tokens (some child) => PrintableTokens tokens ∧ NginxConfig.Printable child

/-- All statements of the tree, at any depth, have printable tokens. -/
def NginxConfig.Printable : NginxConfig → Prop
  | [] => True
  | statement :: rest => statement.Printable ∧ NginxConfig.Printable rest

end

mutual

/-- The tokens in the printed text of a statement. -/
def NginxConfigStatement.printedTokens : NginxConfigStatement → List Token
  | .mk tokens none => tokens.map word ++ [⟨.statementEnd, ";".toList⟩]
  | .mk tokens (some child) =>
      tokens.map word ++ ⟨.startBlock, "\x7b".toList⟩ ::
        (NginxConfig.printedTokens child ++ [⟨.endBlock, "\x7d".toList⟩])

/-- The tokens in the printed text of a tree. -/
def NginxConfig.printedTokens : NginxConfig → List Token
  | [] => []
  | statement :: rest => statement.printedTokens ++ NginxConfig.printedTokens rest

end

section Lexer

variable {rest : Str}

theorem parseTokens_congr {text text' : Str} (heq : parseToken text = parseToken text') :
    parseTokens text = parseTokens text' := by
  rw [parseTokens, heq]
  conv_rhs => rw [parseTokens]

theorem parseTokens_blank {c : Char} (hc : c = ' ' ∨ c = '\t' ∨ c = '\n' ∨ c = '\r') :
    parseTokens (c :: rest) = parseTokens rest := by
  apply parseTokens_congr
  rcases hc with rfl | rfl | rfl | rfl <;> rfl

theorem parseTokens_indent (depth : Int) :
    parseTokens (indent depth ++ rest) = parseTokens rest := by
  rw [indent]
  induction depth.toNat with
  | zero => rfl
  | succ levels ih =>
      rw [List.replicate_succ, List.flatten_cons, List.append_assoc]
      exact (parseTokens_blank (Or.inl rfl)).trans
        ((parseTokens_blank (Or.inl rfl)).trans ih)

theorem parseTokenFrom_normal (value : Str) {front : Str} {stop : Char}
    (hfront : ∀ c ∈ front, isDelimiter c = false) (hstop : isDelimiter stop = true) :
    parseTokenFrom .normal value (front ++ stop :: rest) =
      (⟨.normal, value ++ front⟩, stop :: rest) := by
  induction front generalizing value with
  | nil => simp [parseTokenFrom, hstop]
  | cons c front ih =>
      rw [List.forall_mem_cons] at hfront
      rw [List.cons_append, parseTokenFrom, hfront.1]
      simpa using ih (value ++ [c]) hfront.2

theorem parseToken_bareWord {token : Str} (htoken : IsBareWord token) {stop : Char}
    (hstop : isDelimiter stop = true) :
    parseToken (token ++ stop :: rest) = (word token, stop :: rest) := by
  obtain ⟨first, tail, rfl, hfirst, htail⟩ := htoken
  have hgo : parseTokenFrom .normal [first] (tail ++ stop :: rest) =
      (word (first :: tail), stop :: rest) := parseTokenFrom_normal [first] htail hstop
  simp only [isBareStart, isDelimiter, Bool.not_eq_eq_eq_not, Bool.not_true,
    Bool.or_eq_false_iff, decide_eq_false_iff_not] at hfirst
  simp [parseToken, parseTokenFrom, hfirst, hgo]

/-- The state of `ParseToken` after an opening quote. -/
def quoteState (quote : Char) : TokenParserState :=
  if quote = '"' then .doubleQuote else .singleQuote

theorem parseTokenFrom_quote {quote : Char} (hquote : quote = '"' ∨ quote = '\'')
    (value : Str) {inner : Str} (hslash : '\\' ∉ inner) (hinner : quote ∉ inner)
    (rest : Str) :
    parseTokenFrom (quoteState quote) value (inner ++ quote :: rest) =
      closeQuote (value ++ inner ++ [quote]) rest := by
  induction inner generalizing value with
  | nil => rcases hquote with rfl | rfl <;> simp [quoteState, parseTokenFrom]
  | cons c inner ih =>
      rw [List.mem_cons, not_or] at hslash hinner
      have hstep : parseTokenFrom (quoteState quote) value (c :: (inner ++ quote :: rest)) =
          parseTokenFrom (quoteState quote) (value ++ [c]) (inner ++ quote :: rest) := by
        rcases hquote with rfl | rfl <;>
          simp [quoteState, parseTokenFrom, Ne.symm hslash.1, Ne.symm hinner.1]
      rw [List.cons_append, hstep, ih (value ++ [c]) hslash.2 hinner.2]
      simp

theorem closeQuote_delimiter (value : Str) {stop : Char}
    (hstop : isDelimiter stop = true) :
    closeQuote value (stop :: rest) = (word value, stop :: rest) := by
  rw [closeQuote, if_pos hstop, word]

theorem parseToken_quotedWord {token : Str} (htoken : IsQuotedWord token) {stop : Char}
    (hstop : isDelimiter stop = true) :
    parseToken (token ++ stop :: rest) = (word token, stop :: rest) := by
  obtain ⟨quote, inner, hquote, rfl, hslash, hinner⟩ := htoken
  rw [List.cons_append, List.append_assoc, List.singleton_append]
  have hopen : parseToken (quote :: (inner ++ quote :: stop :: rest)) =
      parseTokenFrom (quoteState quote) [quote] (inner ++ quote :: stop :: rest) := by
    rcases hquote with rfl | rfl <;> rfl
  rw [hopen, parseTokenFrom_quote hquote [quote] hslash hinner]
  exact closeQuote_delimiter _ hstop

theorem parseTokens_word {token : Str} (htoken : IsBareWord token ∨ IsQuotedWord token)
    {stop : Char} (hstop : isDelimiter stop = true) :
    parseTokens (token ++ stop :: rest) = word token :: parseTokens (stop :: rest) := by
  rcases htoken with hbare | hquoted
  · exact parseTokens_of_parseToken (parseToken_bareWord hbare hstop) rfl
  · exact parseTokens_of_parseToken (parseToken_quotedWord hquoted hstop) rfl

/-- The words of a statement, up to the delimiter after the last. -/
theorem parseTokens_intercalate {tokens : List Str} (htokens : PrintableTokens tokens)
    {stop : Char} (hstop : isDelimiter stop = true) :
    parseTokens (" ".toList.intercalate tokens ++ stop :: rest) =
      tokens.map word ++ parseTokens (stop :: rest) := by
  obtain ⟨hne, hall⟩ := htokens
  induction tokens with
  | nil => contradiction
  | cons token tail ih =>
      rw [List.forall_mem_cons] at hall
      cases tail with
      | nil =>
          rw [List.intercalate_singleton, parseTokens_word hall.1 hstop]
          rfl
      | cons second others =>
          rw [List.intercalate_cons_cons, List.append_assoc, List.append_assoc]
          change parseTokens (token ++ ' ' ::
            (" ".toList.intercalate (second :: others) ++ stop :: rest)) = _
          rw [parseTokens_word hall.1 (by decide), parseTokens_blank (Or.inl rfl),
            ih (by simp) hall.2]
          rfl

theorem parseTokens_semicolon :
    parseTokens (';' :: rest) = ⟨.statementEnd, ";".toList⟩ :: parseTokens rest :=
  parseTokens_of_parseToken rfl rfl

theorem parseTokens_openBrace :
    parseTokens ('{' :: rest) = ⟨.startBlock, "\x7b".toList⟩ :: parseTokens rest :=
  parseTokens_of_parseToken rfl rfl

theorem parseTokens_closeBrace :
    parseTokens ('}' :: rest) = ⟨.endBlock, "\x7d".toList⟩ :: parseTokens rest :=
  parseTokens_of_parseToken rfl rfl

end Lexer

mutual

theorem NginxConfigStatement.parseTokens_toString (depth : Int) (rest : Str) :
    ∀ {statement : NginxConfigStatement}, statement.Printable →
      parseTokens (statement.toString depth ++ rest) =
        statement.printedTokens ++ parseTokens rest
  | .mk tokens none, htokens => by
      have htokens : PrintableTokens tokens := htokens
      simp only [NginxConfigStatement.toString, List.append_assoc]
      rw [parseTokens_indent]
      change parseTokens (" ".toList.intercalate tokens ++ ';' :: '\n' :: rest) = _
      rw [parseTokens_intercalate htokens (by decide), parseTokens_semicolon,
        parseTokens_blank (by simp)]
      simp [NginxConfigStatement.printedTokens]
  | .mk tokens (some child), ⟨htokens, hchild⟩ => by
      have hinner := NginxConfig.parseTokens_toString (wrapInt (depth + 1))
        (indent depth ++ '}' :: '\n' :: rest) hchild
      simp only [NginxConfigStatement.toString, List.append_assoc]
      rw [parseTokens_indent]
      change parseTokens (" ".toList.intercalate tokens ++ ' ' :: '{' :: '\n' ::
        (NginxConfig.toString (wrapInt (depth + 1)) child ++
          (indent depth ++ '}' :: '\n' :: rest))) = _
      rw [parseTokens_intercalate htokens (by decide), parseTokens_blank (by simp),
        parseTokens_openBrace, parseTokens_blank (by simp), hinner, parseTokens_indent,
        parseTokens_closeBrace, parseTokens_blank (by simp)]
      simp [NginxConfigStatement.printedTokens]

/-- The lexer reads the printed text of a tree as its tokens. -/
theorem NginxConfig.parseTokens_toString (depth : Int) (rest : Str) :
    ∀ {config : NginxConfig}, NginxConfig.Printable config →
      parseTokens (NginxConfig.toString depth config ++ rest) =
        NginxConfig.printedTokens config ++ parseTokens rest
  | [], _ => rfl
  | statement :: others, ⟨hstatement, hothers⟩ => by
      have htail := NginxConfig.parseTokens_toString depth rest hothers
      have hhead := NginxConfigStatement.parseTokens_toString depth
        (NginxConfig.toString depth others ++ rest) hstatement
      rw [NginxConfig.toString, List.append_assoc, hhead, htail,
        NginxConfig.printedTokens, List.append_assoc]

end

/-- The tokens of a printed tree derive it. -/
theorem NginxConfig.generates_printedTokens :
    ∀ {config : NginxConfig}, NginxConfig.Printable config →
      Generates (NginxConfig.printedTokens config) config
  | [], _ => .nil
  | .mk tokens none :: others, ⟨htokens, hothers⟩ => by
      have htokens : PrintableTokens tokens := htokens
      have htail := generates_printedTokens hothers
      rw [printedTokens, NginxConfigStatement.printedTokens, List.append_assoc]
      exact .line htokens.1 rfl htail
  | .mk tokens (some child) :: others, ⟨⟨htokens, hchild⟩, hothers⟩ => by
      have hinner := generates_printedTokens hchild
      have htail := generates_printedTokens hothers
      simp only [printedTokens, NginxConfigStatement.printedTokens, List.append_assoc,
        List.cons_append, List.nil_append]
      exact .block htokens.1 rfl hinner rfl htail

/-- A text whose tokens derive a tree parses to it. -/
theorem parse_of_generates {text : Str} {body : List Token} {config : NginxConfig}
    (htokens : parseTokens text = body ++ [⟨.eof, []⟩]) (hbody : Generates body config) :
    parse [] text = .ok (true, config) := by
  have hcompletes : Completes [] [] (body ++ [⟨.eof, []⟩]) config :=
    hbody.completes (.finish rfl)
  have hcomment : ∀ token ∈ body ++ [⟨.eof, []⟩], token.type ≠ .comment := by
    simpa [or_imp, forall_and] using hbody.not_comment
  have hdecides : Decides [] [] [] .start (body ++ [⟨.eof, []⟩]) :=
    (decides_iff_bracesMatch .start hcomment).mpr (hcompletes.bracesMatch .start)
  rw [parse, htokens]
  exact (hdecides.1 config).mpr hcompletes

/-- The tokens of the whole printed text. -/
theorem parseTokens_toString_eq (depth : Int) {config : NginxConfig}
    (hconfig : NginxConfig.Printable config) :
    parseTokens (NginxConfig.toString depth config) =
      NginxConfig.printedTokens config ++ [⟨.eof, []⟩] := by
  have hempty : parseTokens [] = [⟨.eof, []⟩] := parseTokens_of_isLast rfl
  rw [← hempty, ← NginxConfig.parseTokens_toString depth [] hconfig, List.append_nil]

/-- A printed tree parses, from any depth of indentation, to itself. -/
theorem parse_toString (depth : Int) {config : NginxConfig}
    (hconfig : NginxConfig.Printable config) :
    parse [] (NginxConfig.toString depth config) = .ok (true, config) :=
  parse_of_generates (parseTokens_toString_eq depth hconfig)
    (NginxConfig.generates_printedTokens hconfig)

namespace ConfigRoundTripWitness

/-- A block whose statement has a bare and a quoted word. -/
def sample : NginxConfig :=
  [.mk ["server".toList] (some [.mk ["root".toList, "\"a b;\"".toList] none])]

theorem printable_sample : NginxConfig.Printable sample := by
  have hserver : IsBareWord "server".toList :=
    ⟨'s', "erver".toList, rfl, by decide, by simp [isDelimiter]⟩
  have hroot : IsBareWord "root".toList :=
    ⟨'r', "oot".toList, rfl, by decide, by simp [isDelimiter]⟩
  have hquoted : IsQuotedWord "\"a b;\"".toList :=
    ⟨'"', "a b;".toList, Or.inl rfl, rfl, by decide, by decide⟩
  have houter : PrintableTokens ["server".toList] :=
    ⟨List.cons_ne_nil _ _, List.forall_mem_singleton.mpr (Or.inl hserver)⟩
  have hinner : PrintableTokens ["root".toList, "\"a b;\"".toList] :=
    ⟨List.cons_ne_nil _ _, List.forall_mem_cons.mpr
      ⟨Or.inl hroot, List.forall_mem_singleton.mpr (Or.inr hquoted)⟩⟩
  exact ⟨⟨houter, hinner, trivial⟩, trivial⟩

theorem parse_toString_sample :
    parse [] (NginxConfig.toString 2 sample) = .ok (true, sample) :=
  parse_toString 2 printable_sample

end ConfigRoundTripWitness

end SwanServer
