/-
Quoted words with any content.  A backslash before each backslash and each quote
makes a text fit between quotes, and `ParseToken` gives back the text itself.
-/
import SwanServer.ConfigSerialisation

namespace SwanServer

variable {quote : Char}

/-- A backslash before each backslash and each quote. -/
def escape (quote : Char) (s : Str) : Str :=
  s.flatMap fun c => if c = '\\' ∨ c = quote then ['\\', c] else [c]

theorem spells_escape (quote : Char) (s : Str) : Spells quote s (escape quote s) := by
  induction s with
  | nil => exact .nil
  | cons c s ih =>
      rw [escape, List.flatMap_cons]
      by_cases hc : c = '\\' ∨ c = quote
      · rw [if_pos hc]
        exact .escaped ih
      · rw [if_neg hc]
        exact .plain (fun hquote => hc (Or.inr hquote)) (fun hslash => hc (Or.inl hslash)) ih

/-- A spelling is read as what it spells. -/
theorem Spells.parseTokenFrom_eq {inner body : Str} (hspells : Spells quote inner body)
    (hquote : quote = '"' ∨ quote = '\'') (value rest : Str) :
    parseTokenFrom (quoteState quote) value (body ++ quote :: rest) =
      closeQuote (value ++ inner ++ [quote]) rest := by
  induction hspells generalizing value with
  | nil =>
      rw [List.nil_append, parseTokenFrom_quoteState_cons hquote, if_pos rfl, List.append_nil]
  | @plain c inner body hne hslash hrest ih =>
      rw [List.cons_append, parseTokenFrom_quoteState_cons hquote, if_neg hne, if_neg hslash,
        ih]
      simp
  | @escaped c inner body hrest ih =>
      have hslash : '\\' ≠ quote := by
        rcases hquote with rfl | rfl <;> decide
      rw [List.cons_append, List.cons_append, parseTokenFrom_quoteState_cons hquote,
        if_neg hslash, if_pos rfl, parseTokenFrom_escapeState_cons hquote, ih]
      simp

/-- Between quotes any text is carried, if it is escaped: it is read as one word
with its quotes, and the delimiter behind it is left. -/
theorem parseToken_escape (hquote : quote = '"' ∨ quote = '\'') (s : Str) {stop : Char}
    (hstop : isDelimiter stop = true) (rest : Str) :
    parseToken (quote :: (escape quote s ++ quote :: stop :: rest)) =
      (⟨.normal, quote :: (s ++ [quote])⟩, stop :: rest) := by
  rw [parseToken_quote_cons hquote, (spells_escape quote s).parseTokenFrom_eq hquote,
    closeQuote_delimiter _ hstop]
  rfl

namespace ConfigQuotingWitness

/-- A backslash, both quotes and a delimiter between double quotes. -/
theorem parseToken_escape_all :
    parseToken ('"' :: (escape '"' "\\\"';".toList ++ '"' :: ';' :: "b".toList)) =
      (⟨.normal, '"' :: ("\\\"';".toList ++ ['"'])⟩, ';' :: "b".toList) :=
  parseToken_escape (Or.inl rfl) "\\\"';".toList rfl "b".toList

end ConfigQuotingWitness

end SwanServer
