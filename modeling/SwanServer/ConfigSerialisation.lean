/-
Printing what was parsed.  The lexer takes the backslash of an escape away and
leaves the quotes, and the printer puts neither back, so that an escaped quote or
backslash is read differently the second time.
-/
import SwanServer.ConfigRoundTrip
import SwanServer.ConfigWords

namespace SwanServer

/-- How the inside of a quoted token is spelled: a character stands for itself,
and any character may stand behind a backslash. -/
inductive Spells (quote : Char) : Str → Str → Prop where
  | nil : Spells quote [] []
  | plain {c : Char} {inner body : Str} (hquote : c ≠ quote) (hslash : c ≠ '\\')
      (hrest : Spells quote inner body) : Spells quote (c :: inner) (c :: body)
  | escaped {c : Char} {inner body : Str} (hrest : Spells quote inner body) :
      Spells quote (c :: inner) ('\\' :: c :: body)

namespace Spells

variable {quote : Char} {inner body : Str}

/-- A spelling is longer than what it spells, unless it escapes nothing. -/
theorem lt_or_plain (hspells : Spells quote inner body) :
    inner.length < body.length ∨ inner = body ∧ '\\' ∉ inner ∧ quote ∉ inner := by
  induction hspells with
  | nil => simp
  | plain hquote hslash hrest ih =>
      rcases ih with hlt | ⟨rfl, hslashes, hquotes⟩
      · exact Or.inl (Nat.succ_lt_succ hlt)
      · refine Or.inr ⟨rfl, ?_, ?_⟩
        · simp [Ne.symm hslash, hslashes]
        · simp [Ne.symm hquote, hquotes]
  | escaped hrest ih =>
      refine Or.inl ?_
      rcases ih with hlt | ⟨rfl, -, -⟩
      · simp only [List.length_cons]
        omega
      · simp

/-- Reading an escape puts the spelling one backslash ahead of what it spells,
and it never falls back to a closing quote. -/
theorem not_starts (hspells : Spells quote inner body) (hquote : quote ≠ '\\')
    (ahead : Nat) : ¬ inner ++ [quote] <+: List.replicate ahead '\\' ++ body := by
  induction hspells generalizing ahead with
  | nil =>
      intro hstarts
      have hmem : quote ∈ List.replicate ahead '\\' ++ [] := hstarts.subset (by simp)
      rw [List.append_nil] at hmem
      exact hquote (List.eq_of_mem_replicate hmem)
  | @plain c inner body hne hslash hrest ih =>
      cases ahead with
      | zero =>
          intro hstarts
          exact ih 0 (List.cons_prefix_cons.mp hstarts).2
      | succ ahead =>
          intro hstarts
          rw [List.replicate_succ] at hstarts
          exact hslash (List.cons_prefix_cons.mp hstarts).1
  | @escaped c inner body hrest ih =>
      intro hstarts
      have hshift : List.replicate ahead '\\' ++ '\\' :: c :: body =
          '\\' :: (List.replicate ahead '\\' ++ c :: body) := by
        rw [List.append_cons, ← List.replicate_succ', List.replicate_succ, List.cons_append]
      rw [hshift, List.cons_append] at hstarts
      obtain ⟨rfl, hrest'⟩ := List.cons_prefix_cons.mp hstarts
      have hahead : List.replicate ahead '\\' ++ '\\' :: body =
          List.replicate (ahead + 1) '\\' ++ body := by
        rw [List.append_cons, ← List.replicate_succ']
      exact ih (ahead + 1) (hahead ▸ hrest')

/-- A text that spells itself, with the closing quote behind it, has nothing to
escape. -/
theorem plain_of_append_eq (hspells : Spells quote inner body) (hquote : quote ≠ '\\')
    {rest rest' : Str} (heq : inner ++ quote :: rest = body ++ quote :: rest') :
    '\\' ∉ inner ∧ quote ∉ inner := by
  rcases hspells.lt_or_plain with hlt | ⟨-, hplain⟩
  · have hstarts : inner ++ [quote] <+: body := by
      have hfront : inner ++ [quote] <+: body ++ quote :: rest' := by
        have hsplit : inner ++ quote :: rest = inner ++ [quote] ++ rest :=
          List.append_cons inner quote rest
        rw [← heq, hsplit]
        exact List.prefix_append _ _
      refine List.prefix_of_prefix_length_le hfront (List.prefix_append body _) ?_
      simpa using hlt
    exact absurd hstarts (hspells.not_starts hquote 0)
  · exact hplain

end Spells

theorem closeQuote_eq (value text : Str) :
    (closeQuote value text).1.type.isLast = true ∨ closeQuote value text = (word value, text) := by
  cases text with
  | nil => exact Or.inl rfl
  | cons next rest =>
      rw [closeQuote]
      split
      · exact Or.inr rfl
      · exact Or.inl rfl

section Lexer

variable {quote : Char} (hquote : quote = '"' ∨ quote = '\'')

/-- The state of `ParseToken` after a backslash in a quoted token. -/
def escapeState (quote : Char) : TokenParserState :=
  if quote = '"' then .doubleQuoteEscape else .singleQuoteEscape

include hquote

theorem parseTokenFrom_quoteState_cons (value : Str) (c : Char) (rest : Str) :
    parseTokenFrom (quoteState quote) value (c :: rest) =
      if c = quote then closeQuote (value ++ [c]) rest
      else if c = '\\' then parseTokenFrom (escapeState quote) value rest
      else parseTokenFrom (quoteState quote) (value ++ [c]) rest := by
  rcases hquote with rfl | rfl <;> rfl

theorem parseTokenFrom_escapeState_cons (value : Str) (c : Char) (rest : Str) :
    parseTokenFrom (escapeState quote) value (c :: rest) =
      parseTokenFrom (quoteState quote) (value ++ [c]) rest := by
  rcases hquote with rfl | rfl <;> rfl

/-- Inside quotes `ParseToken` comes to an end of the input, or delivers a word
whose spelling it has read up to the closing quote. -/
theorem parseTokenFrom_quoteState (value text : Str) :
    (parseTokenFrom (quoteState quote) value text).1.type.isLast = true ∨
      ∃ inner body rest, Spells quote inner body ∧ text = body ++ quote :: rest ∧
        parseTokenFrom (quoteState quote) value text =
          (word (value ++ inner ++ [quote]), rest) := by
  induction hlength : text.length using Nat.strong_induction_on generalizing text value with
  | _ length ih =>
      cases text with
      | nil => exact Or.inl (isLast_parseTokenFrom_nil _ value)
      | cons c rest =>
          rw [parseTokenFrom_quoteState_cons hquote]
          rw [List.length_cons] at hlength
          by_cases hclose : c = quote
          · subst hclose
            rw [if_pos rfl]
            apply (closeQuote_eq (value ++ [c]) rest).imp_right
            intro heq
            exact ⟨[], [], rest, .nil, rfl, by simpa using heq⟩
          · rw [if_neg hclose]
            by_cases hslash : c = '\\'
            · subst hslash
              rw [if_pos rfl]
              cases rest with
              | nil => exact Or.inl (isLast_parseTokenFrom_nil _ value)
              | cons next others =>
                  rw [parseTokenFrom_escapeState_cons hquote]
                  rw [List.length_cons] at hlength
                  apply (ih others.length (by omega) (value ++ [next]) others rfl).imp_right
                  rintro ⟨inner, body, rest, hspells, rfl, heq⟩
                  exact ⟨next :: inner, '\\' :: next :: body, rest, .escaped hspells, rfl,
                    by simpa using heq⟩
            · rw [if_neg hslash]
              apply (ih rest.length (by omega) (value ++ [c]) rest rfl).imp_right
              rintro ⟨inner, body, rest, hspells, rfl, heq⟩
              exact ⟨c :: inner, c :: body, rest, .plain hclose hslash hspells, rfl,
                by simpa using heq⟩

theorem parseToken_quote_cons (text : Str) :
    parseToken (quote :: text) = parseTokenFrom (quoteState quote) [quote] text := by
  rcases hquote with rfl | rfl <;> rfl

end Lexer

/-- A word as `ParseToken` delivers it. -/
def IsLexedWord (value : Str) : Prop :=
  IsBareWord value ∨ ∃ quote inner body, (quote = '"' ∨ quote = '\'') ∧
    value = quote :: (inner ++ [quote]) ∧ Spells quote inner body

theorem parseTokenFrom_normal_eq (value text : Str) :
    (parseTokenFrom .normal value text).1.type.isLast = true ∨
      ∃ tail rest, (∀ c ∈ tail, isDelimiter c = false) ∧
        parseTokenFrom .normal value text = (word (value ++ tail), rest) := by
  induction text generalizing value with
  | nil => exact Or.inl (isLast_parseTokenFrom_nil _ value)
  | cons c rest ih =>
      rw [parseTokenFrom]
      cases hdelimiter : isDelimiter c with
      | true => exact Or.inr ⟨[], c :: rest, by simp, by simp [word]⟩
      | false =>
          apply (ih (value ++ [c])).imp_right
          rintro ⟨tail, rest', htail, heq⟩
          refine ⟨c :: tail, rest', ?_, by simpa using heq⟩
          exact List.forall_mem_cons.mpr ⟨hdelimiter, htail⟩

theorem parseTokenFrom_comment_type (value text : Str) :
    (parseTokenFrom .comment value text).1.type ≠ .normal := by
  induction text generalizing value with
  | nil => simp [parseTokenFrom]
  | cons c rest ih =>
      rw [parseTokenFrom]
      split
      · simp
      · exact ih (value ++ [c])

theorem isLexedWord_of_quoteState {quote : Char} (hquote : quote = '"' ∨ quote = '\'')
    {text : Str}
    (htoken : (parseTokenFrom (quoteState quote) [quote] text).1.type = .normal) :
    IsLexedWord (parseTokenFrom (quoteState quote) [quote] text).1.value := by
  rcases parseTokenFrom_quoteState hquote [quote] text with
    hlast | ⟨inner, body, rest, hspells, -, heq⟩
  · rw [htoken] at hlast
    contradiction
  · rw [heq]
    exact Or.inr ⟨quote, inner, body, hquote, rfl, hspells⟩

theorem isLexedWord_of_normal {first : Char} (hfirst : isBareStart first = true) {text : Str}
    (htoken : (parseTokenFrom .normal [first] text).1.type = .normal) :
    IsLexedWord (parseTokenFrom .normal [first] text).1.value := by
  rcases parseTokenFrom_normal_eq [first] text with hlast | ⟨tail, rest, htail, heq⟩
  · rw [htoken] at hlast
    contradiction
  · rw [heq]
    exact Or.inl ⟨first, tail, rfl, hfirst, htail⟩

/-- A word that `ParseToken` delivers is bare, or quoted and spelled. -/
theorem isLexedWord_of_parseToken {text : Str}
    (htoken : (parseToken text).1.type = .normal) : IsLexedWord (parseToken text).1.value := by
  induction text with
  | nil => cases htoken
  | cons c rest ih =>
      rw [parseToken, parseTokenFrom] at htoken ⊢
      by_cases hopen : c = '{'
      · simp [hopen] at htoken
      by_cases hclose : c = '}'
      · simp [hclose] at htoken
      by_cases hcomment : c = '#'
      · simp [hcomment, parseTokenFrom_comment_type] at htoken
      by_cases hdouble : c = '"'
      · subst hdouble
        exact isLexedWord_of_quoteState (Or.inl rfl) htoken
      by_cases hsingle : c = '\''
      · subst hsingle
        exact isLexedWord_of_quoteState (Or.inr rfl) htoken
      by_cases hend : c = ';'
      · simp [hend] at htoken
      rw [if_neg hopen, if_neg hclose, if_neg hcomment, if_neg hdouble, if_neg hsingle,
        if_neg hend] at htoken ⊢
      by_cases hblank : c = ' ' ∨ c = '\t' ∨ c = '\n' ∨ c = '\r'
      · rw [if_pos hblank] at htoken ⊢
        exact ih htoken
      · rw [if_neg hblank] at htoken ⊢
        have hbare : isBareStart c = true := by
          simp only [not_or] at hblank
          simp [isBareStart, isDelimiter, hopen, hclose, hcomment, hdouble, hsingle, hend,
            hblank]
        exact isLexedWord_of_normal hbare htoken

theorem isLexedWord_of_mem_parseTokens {text : Str} {token : Token}
    (hmem : token ∈ parseTokens text) (htoken : token.type = .normal) :
    IsLexedWord token.value := by
  induction text using parseTokens.induct with
  | case1 text next hlast =>
      rw [parseTokens_of_isLast hlast, List.mem_singleton] at hmem
      subst hmem
      exact isLexedWord_of_parseToken htoken
  | case2 text next hlast ih =>
      have hcons : parseTokens text = next.1 :: parseTokens next.2 :=
        parseTokens_of_parseToken rfl (by simpa using hlast)
      rw [hcons] at hmem
      rcases List.mem_cons.mp hmem with rfl | hmem
      · exact isLexedWord_of_parseToken htoken
      · exact ih hmem

/-- A word with something to escape is not read back from its own text. -/
theorem head?_normalValues_ne {value : Str} (hlexed : IsLexedWord value)
    (hbad : ¬ (IsBareWord value ∨ IsQuotedWord value)) (stop : Char) (rest : Str) :
    (normalValues (parseTokens (value ++ stop :: rest))).head? ≠ some value := by
  rcases hlexed with hbare | ⟨quote, inner, body, hquote, rfl, hspells⟩
  · exact absurd (Or.inl hbare) hbad
  · have hslash : quote ≠ '\\' := by rcases hquote with rfl | rfl <;> decide
    have htext : quote :: (inner ++ [quote]) ++ stop :: rest =
        quote :: (inner ++ quote :: stop :: rest) := by simp
    rw [htext]
    rcases parseTokenFrom_quoteState hquote [quote] (inner ++ quote :: stop :: rest) with
      hlast | ⟨inner', body', rest', hspells', heq', htoken⟩
    · rw [← parseToken_quote_cons hquote] at hlast
      have hne : (parseToken (quote :: (inner ++ quote :: stop :: rest))).1.type ≠ .normal := by
        intro heq
        rw [heq] at hlast
        contradiction
      rw [parseTokens_of_isLast hlast, normalValues_cons_of_ne hne]
      simp
    · rw [← parseToken_quote_cons hquote] at htoken
      rw [parseTokens_of_parseToken htoken rfl, normalValues_cons_of_normal rfl,
        List.head?_cons]
      intro heq
      have hinner : inner' = inner := by
        simpa [word] using heq
      subst hinner
      obtain ⟨hslashes, hquotes⟩ := hspells'.plain_of_append_eq hslash heq'
      exact hbad (Or.inr ⟨quote, inner', hquote, rfl, hslashes, hquotes⟩)

/-- A line with such a word does not give its words back. -/
theorem not_starts_intercalate {tokens : List Str} (hne : tokens ≠ [])
    (hlexed : ∀ token ∈ tokens, IsLexedWord token) (hbad : ¬ PrintableTokens tokens)
    {stop : Char} (hstop : isDelimiter stop = true) (rest : Str) :
    ¬ tokens <+: normalValues
      (parseTokens (" ".toList.intercalate tokens ++ stop :: rest)) := by
  induction tokens with
  | nil => contradiction
  | cons token tail ih =>
      rw [List.forall_mem_cons] at hlexed
      have htext : ∃ next others, isDelimiter next = true ∧
          " ".toList.intercalate (token :: tail) ++ stop :: rest = token ++ next :: others ∧
          (tail ≠ [] → parseTokens (next :: others) =
            parseTokens (" ".toList.intercalate tail ++ stop :: rest)) := by
        cases tail with
        | nil => exact ⟨stop, rest, hstop, by rw [List.intercalate_singleton], by simp⟩
        | cons second others =>
            refine ⟨' ', " ".toList.intercalate (second :: others) ++ stop :: rest,
              by decide, ?_, fun _ => parseTokens_blank (Or.inl rfl)⟩
            rw [List.intercalate_cons_cons, List.append_assoc, List.append_assoc]
            rfl
      obtain ⟨next, others, hnext, heq, htail⟩ := htext
      rw [heq]
      by_cases htoken : IsBareWord token ∨ IsQuotedWord token
      · rw [parseTokens_word htoken hnext, normalValues_cons_of_normal rfl]
        intro hstarts
        have hrest := (List.cons_prefix_cons.mp hstarts).2
        have htailne : tail ≠ [] := by
          rintro rfl
          exact hbad ⟨by simp, List.forall_mem_singleton.mpr htoken⟩
        rw [htail htailne] at hrest
        refine ih htailne hlexed.2 ?_ hrest
        intro hprintable
        exact hbad ⟨by simp, List.forall_mem_cons.mpr ⟨htoken, hprintable.2⟩⟩
      · rintro ⟨more, hmore⟩
        have hhead := head?_normalValues_ne hlexed.1 htoken next others
        rw [← hmore] at hhead
        exact hhead rfl

mutual

theorem NginxConfigStatement.normalValues_printedTokens :
    ∀ statement : NginxConfigStatement,
      normalValues statement.printedTokens = statement.words
  | .mk tokens none => by
      rw [NginxConfigStatement.printedTokens, normalValues_append, normalValues_words,
        normalValues_cons_of_ne (by simp), normalValues_nil, List.append_nil]
      rfl
  | .mk tokens (some child) => by
      rw [NginxConfigStatement.printedTokens, normalValues_append, normalValues_words,
        normalValues_cons_of_ne (by simp), normalValues_append,
        NginxConfig.normalValues_printedTokens child, normalValues_cons_of_ne (by simp),
        normalValues_nil, List.append_nil]
      rfl

/-- The words in the printed text of a tree are its own. -/
theorem NginxConfig.normalValues_printedTokens :
    ∀ config : NginxConfig,
      normalValues (NginxConfig.printedTokens config) = NginxConfig.words config
  | [] => rfl
  | statement :: rest => by
      rw [NginxConfig.printedTokens, normalValues_append,
        statement.normalValues_printedTokens, NginxConfig.normalValues_printedTokens rest]
      rfl

end

mutual

theorem NginxConfigStatement.printable_iff :
    ∀ statement : NginxConfigStatement, statement.Printable ↔
      statement.Worded ∧ ∀ token ∈ statement.words, IsBareWord token ∨ IsQuotedWord token
  | .mk tokens none => Iff.rfl
  | .mk tokens (some child) => by
      have hchild := NginxConfig.printable_iff child
      simp only [NginxConfigStatement.Printable, NginxConfigStatement.Worded,
        NginxConfigStatement.words, PrintableTokens, hchild, List.forall_mem_append]
      tauto

/-- A tree is printable if it is worded and none of its words needs an escape. -/
theorem NginxConfig.printable_iff :
    ∀ config : NginxConfig, NginxConfig.Printable config ↔
      NginxConfig.Worded config ∧
        ∀ token ∈ NginxConfig.words config, IsBareWord token ∨ IsQuotedWord token
  | [] => by simp [NginxConfig.Printable, NginxConfig.Worded, NginxConfig.words]
  | statement :: rest => by
      have hstatement := statement.printable_iff
      have hrest := NginxConfig.printable_iff rest
      simp only [NginxConfig.Printable, NginxConfig.Worded, NginxConfig.words, hstatement,
        hrest, List.forall_mem_append]
      tauto

end

mutual

theorem NginxConfigStatement.not_starts_toString (depth : Int) (rest : Str) :
    ∀ {statement : NginxConfigStatement}, statement.Worded →
      (∀ token ∈ statement.words, IsLexedWord token) → ¬ statement.Printable →
      ¬ statement.words <+: normalValues (parseTokens (statement.toString depth ++ rest))
  | .mk tokens none, hworded, hlexed, hbad => by
      simp only [NginxConfigStatement.toString, List.append_assoc]
      rw [parseTokens_indent]
      exact not_starts_intercalate hworded hlexed hbad (by decide) ('\n' :: rest)
  | .mk tokens (some child), ⟨hne, hworded⟩, hlexed, hbad => by
      have hlexedTokens : ∀ token ∈ tokens, IsLexedWord token :=
        fun token htoken => hlexed token (List.mem_append_left _ htoken)
      have hlexedChild : ∀ token ∈ NginxConfig.words child, IsLexedWord token :=
        fun token htoken => hlexed token (List.mem_append_right _ htoken)
      simp only [NginxConfigStatement.toString, List.append_assoc]
      rw [parseTokens_indent]
      change ¬ tokens ++ NginxConfig.words child <+: normalValues (parseTokens
        (" ".toList.intercalate tokens ++ ' ' :: '{' :: '\n' ::
          (NginxConfig.toString (wrapInt (depth + 1)) child ++
            (indent depth ++ '}' :: '\n' :: rest))))
      by_cases htokens : PrintableTokens tokens
      · have hinner := NginxConfig.not_starts_toString (wrapInt (depth + 1))
          (indent depth ++ '}' :: '\n' :: rest) hworded hlexedChild
          (fun hchild => hbad ⟨htokens, hchild⟩)
        rw [parseTokens_intercalate htokens (by decide), parseTokens_blank (by simp),
          parseTokens_openBrace, parseTokens_blank (by simp), normalValues_append,
          normalValues_words, normalValues_cons_of_ne (by simp),
          List.prefix_append_right_inj]
        exact hinner
      · intro hstarts
        exact not_starts_intercalate hne hlexedTokens htokens (by decide) _
          ((List.prefix_append _ _).trans hstarts)

/-- The printed text of a tree that is not printable gives other words back. -/
theorem NginxConfig.not_starts_toString (depth : Int) (rest : Str) :
    ∀ {config : NginxConfig}, NginxConfig.Worded config →
      (∀ token ∈ NginxConfig.words config, IsLexedWord token) →
      ¬ NginxConfig.Printable config →
      ¬ NginxConfig.words config <+:
        normalValues (parseTokens (NginxConfig.toString depth config ++ rest))
  | [], _, _, hbad => absurd trivial hbad
  | statement :: others, ⟨hstatement, hothers⟩, hlexed, hbad => by
      have hlexedStatement : ∀ token ∈ statement.words, IsLexedWord token :=
        fun token htoken => hlexed token (List.mem_append_left _ htoken)
      have hlexedOthers : ∀ token ∈ NginxConfig.words others, IsLexedWord token :=
        fun token htoken => hlexed token (List.mem_append_right _ htoken)
      rw [NginxConfig.words, NginxConfig.toString, List.append_assoc]
      by_cases hprintable : statement.Printable
      · have hrest := NginxConfig.not_starts_toString depth rest hothers hlexedOthers
          (fun hothers => hbad ⟨hprintable, hothers⟩)
        rw [statement.parseTokens_toString depth _ hprintable, normalValues_append,
          statement.normalValues_printedTokens, List.prefix_append_right_inj]
        exact hrest
      · intro hstarts
        exact NginxConfigStatement.not_starts_toString depth _ hstatement hlexedStatement
          hprintable ((List.prefix_append _ _).trans hstarts)

end

theorem mem_normalValues {tokens : List Token} {value : Str} :
    value ∈ normalValues tokens ↔ ∃ token ∈ tokens, token.type = .normal ∧ token.value = value := by
  simp [normalValues, and_assoc]

/-- A tree that was parsed is parsed again from its printed text exactly if no
word of the text has an escaped backslash or an escaped quote of its own. -/
theorem parse_toString_iff_of_parse {text : Str} {tree : NginxConfig}
    (hparse : parse [] text = .ok (true, tree)) :
    parse [] (NginxConfig.toString 0 tree) = .ok (true, tree) ↔
      ∀ token ∈ parseTokens text, token.type = .normal →
        IsBareWord token.value ∨ IsQuotedWord token.value := by
  have hworded := worded_of_parse hparse
  have hwords := words_of_parse hparse
  have hprintable : NginxConfig.Printable tree ↔
      ∀ token ∈ parseTokens text, token.type = .normal →
        IsBareWord token.value ∨ IsQuotedWord token.value := by
    rw [NginxConfig.printable_iff, hwords]
    simp only [hworded, true_and, mem_normalValues]
    constructor
    · exact fun hall token hmem hnormal => hall token.value ⟨token, hmem, hnormal, rfl⟩
    · rintro hall value ⟨token, hmem, hnormal, rfl⟩
      exact hall token hmem hnormal
  rw [← hprintable]
  constructor
  · intro hagain
    by_contra hbad
    have hlexed : ∀ value ∈ NginxConfig.words tree, IsLexedWord value := by
      intro value hvalue
      rw [hwords, mem_normalValues] at hvalue
      obtain ⟨token, hmem, hnormal, rfl⟩ := hvalue
      exact isLexedWord_of_mem_parseTokens hmem hnormal
    have hstarts := NginxConfig.not_starts_toString 0 [] hworded hlexed hbad
    rw [List.append_nil, ← words_of_parse hagain] at hstarts
    exact hstarts (List.prefix_refl _)
  · intro hconfig
    exact parse_of_generates (parseTokens_toString_eq 0 hconfig)
      (NginxConfig.generates_printedTokens hconfig)

namespace ConfigSerialisationWitness

/-- A quoted word whose escape stands for another character. -/
def harmless : Str := "a \"b\\;c\";".toList

def harmlessTree : NginxConfig := [.mk ["a".toList, "\"b;c\"".toList] none]

theorem parseTokens_harmless : parseTokens harmless =
    ["a".toList, "\"b;c\"".toList].map word ++ [⟨.statementEnd, ";".toList⟩, ⟨.eof, []⟩] := by
  decide +kernel

theorem parse_harmless : parse [] harmless = .ok (true, harmlessTree) := by
  rw [parse, parseTokens_harmless]
  rfl

/-- It is read back as it was. -/
theorem parse_toString_harmless :
    parse [] (NginxConfig.toString 0 harmlessTree) = .ok (true, harmlessTree) := by
  refine (parse_toString_iff_of_parse parse_harmless).mpr ?_
  have hbare : IsBareWord "a".toList := ⟨'a', [], rfl, by decide, by simp⟩
  have hquoted : IsQuotedWord "\"b;c\"".toList :=
    ⟨'"', "b;c".toList, Or.inl rfl, rfl, by decide, by decide⟩
  intro token htoken hnormal
  rw [parseTokens_harmless, List.mem_append] at htoken
  rcases htoken with hword | hend
  · obtain ⟨value, hvalue, rfl⟩ := List.mem_map.mp hword
    rcases List.mem_cons.mp hvalue with rfl | hvalue
    · exact Or.inl hbare
    · rw [List.mem_singleton.mp hvalue]
      exact Or.inr hquoted
  · have hends : ∀ token ∈ [⟨.statementEnd, ";".toList⟩, (⟨.eof, []⟩ : Token)],
        token.type ≠ .normal := by decide
    exact absurd hnormal (hends token hend)

/-- A quoted word with an escaped quote. -/
def escapedQuote : Str := "a \"b\\\"c\";".toList

def escapedQuoteTree : NginxConfig := [.mk ["a".toList, "\"b\"c\"".toList] none]

/-- The quote inside ends the word when it is read back. -/
theorem parse_toString_escapedQuote :
    parse [] escapedQuote = .ok (true, escapedQuoteTree) ∧
      parse [] (NginxConfig.toString 0 escapedQuoteTree) ≠ .ok (true, escapedQuoteTree) := by
  have htokens : parseTokens escapedQuote = ["a".toList, "\"b\"c\"".toList].map word ++
      [⟨.statementEnd, ";".toList⟩, ⟨.eof, []⟩] := by
    decide +kernel
  have hprinted : parseTokens (NginxConfig.toString 0 escapedQuoteTree) =
      ["a".toList].map word ++ [⟨.error, "\"b\"".toList⟩] := by
    decide +kernel
  have hagain : parse [] (NginxConfig.toString 0 escapedQuoteTree) =
      .ok (false, [.mk ["a".toList] none]) := by
    rw [parse, hprinted]
    rfl
  refine ⟨?_, ?_⟩
  · rw [parse, htokens]
    rfl
  · rw [hagain]
    simp

end ConfigSerialisationWitness

end SwanServer
