/-
JSON texts.  The grammar is a family of relations between a text, what is read
at its front and the text that is left; a text denotes a value when reading the
value leaves nothing but white space.
-/
import Mathlib

namespace Json

/-- A JSON value.  The members of an object keep the order of the text, and a
name may occur more than once. -/
inductive Value where
  | null
  | bool (value : Bool)
  | number (value : ℚ)
  | string (value : List Char)
  | array (elements : List Value)
  | object (members : List (List Char × Value))

namespace Value

def elements? : Value → Option (List Value)
  | array elements => some elements
  | _ => none

def string? : Value → Option (List Char)
  | string value => some value
  | _ => none

def members : Value → List (List Char × Value)
  | object members => members
  | _ => []

/-- The value of the only member of that name.  Readers disagree on a name that
occurs twice, so such a name has no value here. -/
def member? (name : List Char) (value : Value) : Option Value :=
  match value.members.filter (·.1 = name) with
  | [(_, found)] => some found
  | _ => none

/-- Once a member of that name was read, no later one may have it. -/
theorem member?_object_cons_self {name : List Char} {first found : Value}
    {members : List (List Char × Value)}
    (hfound : (object ((name, first) :: members)).member? name = some found) :
    found = first := by
  simp only [member?, Value.members, List.filter_cons_of_pos (a := (name, first))
    (p := (·.1 = name)) (by simp)] at hfound
  cases hrest : members.filter (·.1 = name) with
  | nil =>
      rw [hrest] at hfound
      cases hfound
      rfl
  | cons head tail =>
      rw [hrest] at hfound
      contradiction

theorem member?_object_cons_of_ne {name other : List Char} (hne : other ≠ name)
    (first : Value) (members : List (List Char × Value)) :
    (object ((other, first) :: members)).member? name = (object members).member? name := by
  simp [member?, Value.members, hne]

end Value

section Leaves

def isWhitespace (c : Char) : Bool := c = ' ' || c = '\t' || c = '\n' || c = '\r'

/-- The text after its leading white space. -/
def skip (text : List Char) : List Char := text.dropWhile isWhitespace

/-- The characters that may stand in a string as they are. -/
def IsPlain (c : Char) : Prop := c ≠ '"' ∧ c ≠ '\\' ∧ 0x20 ≤ c.toNat

instance (c : Char) : Decidable (IsPlain c) := inferInstanceAs (Decidable (_ ∧ _ ∧ _))

/-- The characters with an escape of one letter. -/
def letterEscape? : Char → Option Char
  | '"' => some '"'
  | '\\' => some '\\'
  | '/' => some '/'
  | 'b' => some '\x08'
  | 'f' => some '\x0c'
  | 'n' => some '\n'
  | 'r' => some '\r'
  | 't' => some '\t'
  | _ => none

def hexDigit? (c : Char) : Option Nat :=
  if c.isDigit then some (c.toNat - '0'.toNat)
  else if 'a' ≤ c ∧ c ≤ 'f' then some (c.toNat - 'a'.toNat + 10)
  else if 'A' ≤ c ∧ c ≤ 'F' then some (c.toNat - 'A'.toNat + 10)
  else none

/-- The value of four hexadecimal digits. -/
def codeUnit? (digits : List Char) : Option Nat :=
  if digits.length = 4 ∧ ∀ c ∈ digits, (hexDigit? c).isSome then
    some (digits.foldl (fun value c => 16 * value + (hexDigit? c).getD 0) 0)
  else none

/-- What follows a backslash: the character it stands for, and the text left. -/
inductive Escape : List Char → Char → List Char → Prop
  | letter {letter c : Char} (hletter : letterEscape? letter = some c) (rest : List Char) :
      Escape (letter :: rest) c rest
  | unit {digits : List Char} {unit : Nat} (hdigits : codeUnit? digits = some unit)
      (hunit : unit < 0xd800 ∨ 0xdfff < unit) (rest : List Char) :
      Escape ('u' :: (digits ++ rest)) (Char.ofNat unit) rest
  | pair {digits further : List Char} {high low : Nat}
      (hdigits : codeUnit? digits = some high) (hfurther : codeUnit? further = some low)
      (hhigh : 0xd800 ≤ high ∧ high < 0xdc00) (hlow : 0xdc00 ≤ low ∧ low < 0xe000)
      (rest : List Char) :
      Escape ('u' :: (digits ++ '\\' :: 'u' :: (further ++ rest)))
        (Char.ofNat (0x10000 + (high - 0xd800) * 0x400 + (low - 0xdc00))) rest

/-- A string after its opening quote. -/
inductive Chars : List Char → List Char → List Char → Prop
  | close (rest : List Char) : Chars ('"' :: rest) [] rest
  | plain {c : Char} {text s rest : List Char} (hc : IsPlain c) (hs : Chars text s rest) :
      Chars (c :: text) (c :: s) rest
  | escape {c : Char} {text later s rest : List Char} (hc : Escape text c later)
      (hs : Chars later s rest) : Chars ('\\' :: text) (c :: s) rest

def Digits (digits : List Char) : Prop := digits ≠ [] ∧ ∀ c ∈ digits, c.isDigit

/-- An integer part: a zero only stands alone. -/
def Whole (digits : List Char) : Prop :=
  Digits digits ∧ (digits.head? = some '0' → digits = ['0'])

def digitsValue (digits : List Char) : ℚ := Nat.ofDigitChars 10 digits 0

inductive Fraction : List Char → ℚ → Prop
  | none : Fraction [] 0
  | digits {digits : List Char} (hdigits : Digits digits) :
      Fraction ('.' :: digits) (digitsValue digits / 10 ^ digits.length)

inductive Exponent : List Char → ℤ → Prop
  | none : Exponent [] 0
  | unsigned {e : Char} {digits : List Char} (he : e = 'e' ∨ e = 'E') (hdigits : Digits digits) :
      Exponent (e :: digits) (Nat.ofDigitChars 10 digits 0)
  | plus {e : Char} {digits : List Char} (he : e = 'e' ∨ e = 'E') (hdigits : Digits digits) :
      Exponent (e :: '+' :: digits) (Nat.ofDigitChars 10 digits 0)
  | minus {e : Char} {digits : List Char} (he : e = 'e' ∨ e = 'E') (hdigits : Digits digits) :
      Exponent (e :: '-' :: digits) (-Nat.ofDigitChars 10 digits 0)

inductive Magnitude : List Char → ℚ → Prop
  | mk {whole fraction exponent : List Char} {f : ℚ} {e : ℤ} (hwhole : Whole whole)
      (hfraction : Fraction fraction f) (hexponent : Exponent exponent e) :
      Magnitude (whole ++ fraction ++ exponent) ((digitsValue whole + f) * 10 ^ e)

inductive Number : List Char → ℚ → Prop
  | positive {lexeme : List Char} {value : ℚ} (hmagnitude : Magnitude lexeme value) :
      Number lexeme value
  | negative {lexeme : List Char} {value : ℚ} (hmagnitude : Magnitude lexeme value) :
      Number ('-' :: lexeme) (-value)

end Leaves

mutual

/-- A value at the very front of a text. -/
inductive Reads : List Char → Value → List Char → Prop
  | null (rest : List Char) : Reads ('n' :: 'u' :: 'l' :: 'l' :: rest) .null rest
  | true (rest : List Char) : Reads ('t' :: 'r' :: 'u' :: 'e' :: rest) (.bool true) rest
  | false (rest : List Char) :
      Reads ('f' :: 'a' :: 'l' :: 's' :: 'e' :: rest) (.bool false) rest
  | number {lexeme : List Char} {value : ℚ} (hlexeme : Number lexeme value)
      (rest : List Char) : Reads (lexeme ++ rest) (.number value) rest
  | string {text s rest : List Char} (hs : Chars text s rest) :
      Reads ('"' :: text) (.string s) rest
  | emptyArray {text rest : List Char} (hclose : skip text = ']' :: rest) :
      Reads ('[' :: text) (.array []) rest
  | array {text rest : List Char} {elements : List Value}
      (helements : Elements text elements rest) : Reads ('[' :: text) (.array elements) rest
  | emptyObject {text rest : List Char} (hclose : skip text = '}' :: rest) :
      Reads ('{' :: text) (.object []) rest
  | object {text rest : List Char} {members : List (List Char × Value)}
      (hmembers : Members text members rest) : Reads ('{' :: text) (.object members) rest

/-- The elements of an array up to its bracket. -/
inductive Elements : List Char → List Value → List Char → Prop
  | last {text later rest : List Char} {value : Value} (hvalue : Reads (skip text) value later)
      (hclose : skip later = ']' :: rest) : Elements text [value] rest
  | more {text later further rest : List Char} {value : Value} {values : List Value}
      (hvalue : Reads (skip text) value later) (hcomma : skip later = ',' :: further)
      (hvalues : Elements further values rest) : Elements text (value :: values) rest

/-- A name, a colon and a value. -/
inductive Member : List Char → List Char × Value → List Char → Prop
  | mk {text inside later after rest name : List Char} {value : Value}
      (hquote : skip text = '"' :: inside) (hname : Chars inside name later)
      (hcolon : skip later = ':' :: after) (hvalue : Reads (skip after) value rest) :
      Member text (name, value) rest

/-- The members of an object up to its brace. -/
inductive Members : List Char → List (List Char × Value) → List Char → Prop
  | last {text later rest : List Char} {entry : List Char × Value}
      (hentry : Member text entry later) (hclose : skip later = '}' :: rest) :
      Members text [entry] rest
  | more {text later further rest : List Char} {entry : List Char × Value}
      {entries : List (List Char × Value)} (hentry : Member text entry later)
      (hcomma : skip later = ',' :: further) (hentries : Members further entries rest) :
      Members text (entry :: entries) rest

end

/-- The text is a JSON text for the value. -/
def Denotes (text : List Char) (value : Value) : Prop :=
  ∃ rest, Reads (skip text) value rest ∧ skip rest = []

section WhiteSpace

theorem skip_cons_of_whitespace {c : Char} (hc : isWhitespace c = true) (text : List Char) :
    skip (c :: text) = skip text := by
  simp [skip, hc]

theorem skip_cons_of_not {c : Char} (hc : isWhitespace c = false) (text : List Char) :
    skip (c :: text) = c :: text := by
  simp [skip, hc]

@[simp] theorem skip_newline (text : List Char) : skip ('\n' :: text) = skip text :=
  skip_cons_of_whitespace rfl text

@[simp] theorem skip_blank (text : List Char) : skip (' ' :: text) = skip text :=
  skip_cons_of_whitespace rfl text

end WhiteSpace

section Strings

variable {text s later : List Char}

theorem chars_of_plain {s : List Char} (hplain : ∀ c ∈ s, IsPlain c) (rest : List Char) :
    Chars (s ++ '"' :: rest) s rest := by
  induction s with
  | nil => exact .close rest
  | cons head tail ih =>
      rw [List.forall_mem_cons] at hplain
      exact .plain hplain.1 (ih hplain.2)

theorem quote_not_mem_of_codeUnit? {digits : List Char} {unit : Nat}
    (hdigits : codeUnit? digits = some unit) : '"' ∉ digits := by
  rw [codeUnit?, Option.ite_none_right_eq_some] at hdigits
  intro hquote
  have hsome := hdigits.1.2 '"' hquote
  contradiction

/-- A piece without a quote ends before the next quote. -/
theorem exists_of_append_eq_quote {piece body after : List Char} (hpiece : '"' ∉ piece)
    (heq : piece ++ later = body ++ '"' :: after) :
    ∃ left, body = piece ++ left ∧ later = left ++ '"' :: after := by
  rcases List.append_eq_append_iff.mp heq with ⟨left, hbody, hlater⟩ | ⟨left, rfl, hafter⟩
  · exact ⟨left, hbody, hlater⟩
  · cases left with
    | nil => exact ⟨[], by simp, by simpa using hafter.symm⟩
    | cons head tail =>
        cases hafter
        simp at hpiece

/-- An escape before a quote ends before it, or takes the quote itself. -/
theorem Escape.before_quote {body after : List Char} {c : Char}
    (hescape : Escape (body ++ '"' :: after) c later) :
    (body = [] ∧ c = '"' ∧ later = after) ∨
      ∃ piece left, piece ≠ [] ∧ body = piece ++ left ∧ later = left ++ '"' :: after := by
  have hpieces : ∀ {piece : List Char}, piece ≠ [] → '"' ∉ piece →
      piece ++ later = body ++ '"' :: after →
        ∃ piece left, piece ≠ [] ∧ body = piece ++ left ∧ later = left ++ '"' :: after := by
    intro piece hne hpiece heq
    obtain ⟨left, hbody, hlater⟩ := exists_of_append_eq_quote hpiece heq
    exact ⟨piece, left, hne, hbody, hlater⟩
  generalize htext : body ++ '"' :: after = text at hescape
  cases hescape with
  | @letter letter _ hletter =>
      cases body with
      | nil =>
          cases htext
          cases hletter
          exact .inl ⟨rfl, rfl, rfl⟩
      | cons head tail =>
          cases htext
          exact .inr ⟨[letter], tail, by simp, rfl, rfl⟩
  | @unit digits _ hdigits =>
      have hpiece : '"' ∉ 'u' :: digits := by simp [quote_not_mem_of_codeUnit? hdigits]
      exact .inr (hpieces (by simp) hpiece htext.symm)
  | @pair digits further _ _ hdigits hfurther =>
      have hpiece : '"' ∉ 'u' :: (digits ++ '\\' :: 'u' :: further) := by
        simp [quote_not_mem_of_codeUnit? hdigits, quote_not_mem_of_codeUnit? hfurther]
      exact .inr (hpieces (by simp) hpiece (by simpa using htext.symm))

/-- How a string is read whose text was meant to end at a quote: it is that
text, it is shorter, or a backslash takes the quote into the string. -/
theorem Chars.at_quote {body after : List Char} (hchars : Chars (body ++ '"' :: after) s later) :
    (s = body ∧ (∀ c ∈ body, IsPlain c) ∧ later = after) ∨ s.length < body.length ∨
      ∃ front back, s = front ++ '"' :: back ∧ body.getLast? = some '\\' ∧
        Chars after back later := by
  generalize htext : body ++ '"' :: after = text at hchars
  induction hchars generalizing body with
  | close rest =>
      cases body with
      | nil =>
          cases htext
          simp
      | cons head tail => simp
  | @plain c _ _ _ hc hs ih =>
      cases body with
      | nil =>
          cases htext
          simp [IsPlain] at hc
      | cons head tail =>
          cases htext
          rcases ih rfl with ⟨rfl, hplain, rfl⟩ | hshort | ⟨front, back, rfl, hlast, hback⟩
          · exact .inl ⟨rfl, List.forall_mem_cons.mpr ⟨hc, hplain⟩, rfl⟩
          · exact .inr (.inl (by simpa using hshort))
          · refine .inr (.inr ⟨c :: front, back, rfl, ?_, hback⟩)
            rw [List.getLast?_cons, hlast]
            rfl
  | @escape c text between s rest hc hs ih =>
      cases body with
      | nil => cases htext
      | cons head tail =>
          cases htext
          rcases hc.before_quote with ⟨rfl, rfl, rfl⟩ | ⟨piece, left, hne, rfl, rfl⟩
          · exact .inr (.inr ⟨[], s, rfl, rfl, hs⟩)
          · have hpiece : 0 < piece.length := List.length_pos_iff.mpr hne
            rcases ih rfl with ⟨rfl, _, rfl⟩ | hshort | ⟨front, back, rfl, hlast, hback⟩
            · refine .inr (.inl ?_)
              simp only [List.length_cons, List.length_append]
              omega
            · refine .inr (.inl ?_)
              simp only [List.length_cons, List.length_append]
              omega
            · refine .inr (.inr ⟨c :: front, back, rfl, ?_, hback⟩)
              rw [List.getLast?_cons, List.getLast?_append, hlast]
              rfl

/-- A text that is read as itself is plain, where a backslash cannot take the
quote into the string. -/
theorem Chars.plain_of_self {after : List Char} (hchars : Chars (s ++ '"' :: after) s later)
    (hquote : ∀ front back, s = front ++ '"' :: back → s.getLast? = some '\\' →
      ¬ Chars after back later) :
    (∀ c ∈ s, IsPlain c) ∧ later = after := by
  rcases hchars.at_quote with ⟨_, hplain, hlater⟩ | hshort | ⟨front, back, hs, hlast, hback⟩
  · exact ⟨hplain, hlater⟩
  · exact absurd hshort (lt_irrefl _)
  · exact absurd hback (hquote front back hs hlast)

/-- A string whose text is plain up to a quote is that text. -/
theorem Chars.of_plain {body after : List Char} (hbody : ∀ c ∈ body, IsPlain c)
    (hchars : Chars (body ++ '"' :: after) s later) : s = body ∧ later = after := by
  induction body generalizing s with
  | nil =>
      cases hchars with
      | close => exact ⟨rfl, rfl⟩
      | plain hc => simp [IsPlain] at hc
  | cons head tail ih =>
      rw [List.forall_mem_cons] at hbody
      cases hchars with
      | close => simp [IsPlain] at hbody
      | plain _ hs =>
          obtain ⟨rfl, rfl⟩ := ih hbody.2 hs
          exact ⟨rfl, rfl⟩
      | escape => simp [IsPlain] at hbody

end Strings

section Numbers

/-- The characters that numbers are made of. -/
def isNumberChar (c : Char) : Bool :=
  c.isDigit || c = '-' || c = '+' || c = '.' || c = 'e' || c = 'E'

theorem Digits.isNumberChar {digits : List Char} (hdigits : Digits digits) :
    ∀ c ∈ digits, isNumberChar c = true := by
  intro c hc
  simp [Json.isNumberChar, hdigits.2 c hc]

theorem Digits.not_mem {digits : List Char} (hdigits : Digits digits) {c : Char}
    (hc : c.isDigit = false) : c ∉ digits := by
  intro hmem
  rw [hdigits.2 c hmem] at hc
  contradiction

theorem Fraction.isNumberChar {text : List Char} {f : ℚ} (hfraction : Fraction text f) :
    ∀ c ∈ text, isNumberChar c = true := by
  cases hfraction with
  | none => simp
  | digits hdigits => exact List.forall_mem_cons.mpr ⟨rfl, hdigits.isNumberChar⟩

theorem Exponent.isNumberChar {text : List Char} {e : ℤ} (hexponent : Exponent text e) :
    ∀ c ∈ text, isNumberChar c = true := by
  have hletter : ∀ {e : Char}, e = 'e' ∨ e = 'E' → Json.isNumberChar e = true := by
    rintro e (rfl | rfl) <;> rfl
  cases hexponent with
  | none => simp
  | unsigned he hdigits =>
      exact List.forall_mem_cons.mpr ⟨hletter he, hdigits.isNumberChar⟩
  | plus he hdigits =>
      exact List.forall_mem_cons.mpr
        ⟨hletter he, List.forall_mem_cons.mpr ⟨rfl, hdigits.isNumberChar⟩⟩
  | minus he hdigits =>
      exact List.forall_mem_cons.mpr
        ⟨hletter he, List.forall_mem_cons.mpr ⟨rfl, hdigits.isNumberChar⟩⟩

theorem Magnitude.isNumberChar {text : List Char} {value : ℚ}
    (hmagnitude : Magnitude text value) :
    text ≠ [] ∧ ∀ c ∈ text, isNumberChar c = true := by
  cases hmagnitude with
  | mk hwhole hfraction hexponent =>
      constructor
      · simp [hwhole.1.1]
      · intro c hc
        rcases List.mem_append.mp hc with hc | hc
        · rcases List.mem_append.mp hc with hc | hc
          · exact hwhole.1.isNumberChar c hc
          · exact hfraction.isNumberChar c hc
        · exact hexponent.isNumberChar c hc

theorem Number.isNumberChar {text : List Char} {value : ℚ} (hnumber : Number text value) :
    text ≠ [] ∧ ∀ c ∈ text, isNumberChar c = true := by
  cases hnumber with
  | positive hmagnitude => exact hmagnitude.isNumberChar
  | negative hmagnitude =>
      exact ⟨by simp, List.forall_mem_cons.mpr ⟨rfl, hmagnitude.isNumberChar.2⟩⟩

/-- Of digits alone only an integer part can be made. -/
theorem magnitude_digits_iff {digits : List Char} (hdigits : Digits digits) (value : ℚ) :
    Magnitude digits value ↔ Whole digits ∧ value = digitsValue digits := by
  constructor
  · intro hmagnitude
    cases hmagnitude with
    | mk hwhole hfraction hexponent =>
        cases hfraction with
        | digits => exact absurd (by simp) (hdigits.not_mem (c := '.') rfl)
        | none =>
            cases hexponent with
            | none => exact ⟨by simpa using hwhole, by simp⟩
            | unsigned he | plus he | minus he =>
                rcases he with rfl | rfl
                · exact absurd (by simp) (hdigits.not_mem (c := 'e') rfl)
                · exact absurd (by simp) (hdigits.not_mem (c := 'E') rfl)
  · rintro ⟨hwhole, rfl⟩
    simpa using Magnitude.mk hwhole .none .none

theorem number_digits_iff {digits : List Char} (hdigits : Digits digits) (value : ℚ) :
    Number digits value ↔ Whole digits ∧ value = digitsValue digits := by
  rw [← magnitude_digits_iff hdigits]
  constructor
  · intro hnumber
    cases hnumber with
    | positive hmagnitude => exact hmagnitude
    | negative => exact absurd (by simp) (hdigits.not_mem (c := '-') rfl)
  · exact .positive

theorem number_minus_digits_iff {digits : List Char} (hdigits : Digits digits) (value : ℚ) :
    Number ('-' :: digits) value ↔ Whole digits ∧ value = -digitsValue digits := by
  constructor
  · intro hnumber
    cases hnumber with
    | negative hmagnitude =>
        obtain ⟨hwhole, rfl⟩ := (magnitude_digits_iff hdigits _).mp hmagnitude
        exact ⟨hwhole, rfl⟩
    | positive hmagnitude =>
        generalize htext : '-' :: digits = text at hmagnitude
        cases hmagnitude with
        | @mk whole _ _ _ _ hwhole =>
            obtain ⟨head, tail, rfl⟩ := List.exists_cons_of_ne_nil hwhole.1.1
            cases htext
            exact absurd List.mem_cons_self (hwhole.1.not_mem (c := '-') rfl)
  · rintro ⟨hwhole, rfl⟩
    exact .negative ((magnitude_digits_iff hdigits _).mpr ⟨hwhole, rfl⟩)

end Numbers

section Values

variable {text rest : List Char} {value : Value}

theorem not_number_front {c : Char} (hc : isNumberChar c = false) {lexeme left : List Char}
    {number : ℚ} (hlexeme : Number lexeme number) : lexeme ++ left ≠ c :: text := by
  intro heq
  rcases List.append_eq_cons_iff.mp heq with ⟨rfl, _⟩ | ⟨tail, rfl, _⟩
  · exact hlexeme.isNumberChar.1 rfl
  · rw [hlexeme.isNumberChar.2 c List.mem_cons_self] at hc
    contradiction

theorem exists_chars_of_reads (hreads : Reads ('"' :: text) value rest) :
    ∃ s, value = .string s ∧ Chars text s rest := by
  generalize hwhole : '"' :: text = whole at hreads
  cases hreads with
  | number hlexeme => exact absurd hwhole.symm (not_number_front rfl hlexeme)
  | string hs =>
      cases hwhole
      exact ⟨_, rfl, hs⟩
  | null | true | false | emptyArray | array | emptyObject | object => cases hwhole

theorem exists_elements_of_reads (hreads : Reads ('[' :: text) value rest) :
    ∃ elements, value = .array elements ∧
      (elements = [] ∧ skip text = ']' :: rest ∨ Elements text elements rest) := by
  generalize hwhole : '[' :: text = whole at hreads
  cases hreads with
  | number hlexeme => exact absurd hwhole.symm (not_number_front rfl hlexeme)
  | emptyArray hclose =>
      cases hwhole
      exact ⟨[], rfl, .inl ⟨rfl, hclose⟩⟩
  | array helements =>
      cases hwhole
      exact ⟨_, rfl, .inr helements⟩
  | null | true | false | string | emptyObject | object => cases hwhole

theorem exists_members_of_reads (hreads : Reads ('{' :: text) value rest) :
    ∃ members, value = .object members ∧
      (members = [] ∧ skip text = '}' :: rest ∨ Members text members rest) := by
  generalize hwhole : '{' :: text = whole at hreads
  cases hreads with
  | number hlexeme => exact absurd hwhole.symm (not_number_front rfl hlexeme)
  | emptyObject hclose =>
      cases hwhole
      exact ⟨[], rfl, .inl ⟨rfl, hclose⟩⟩
  | object hmembers =>
      cases hwhole
      exact ⟨_, rfl, .inr hmembers⟩
  | null | true | false | string | emptyArray | array => cases hwhole

theorem isWhitespace_of_isNumberChar {c : Char} (hc : isNumberChar c = true) :
    isWhitespace c = false := by
  have hne : ∀ other : Char, isNumberChar other = false → c ≠ other := by
    rintro other hother rfl
    rw [hc] at hother
    contradiction
  simp [isWhitespace, hne ' ' rfl, hne '\t' rfl, hne '\n' rfl, hne '\r' rfl]

/-- Number characters up to a delimiter are read as one number. -/
theorem exists_number_of_reads {numeral after tail : List Char} {c d : Char}
    (hne : numeral ≠ []) (hnumeral : ∀ c ∈ numeral, isNumberChar c = true)
    (hc : isNumberChar c = false) (hd : isNumberChar d = false)
    (hreads : Reads (numeral ++ c :: after) value rest) (hskip : skip rest = d :: tail) :
    ∃ number, value = .number number ∧ Number numeral number ∧ rest = c :: after := by
  obtain ⟨first, others, rfl⟩ := List.exists_cons_of_ne_nil hne
  have hfirst : isNumberChar first = true := hnumeral first List.mem_cons_self
  generalize hwhole : first :: others ++ c :: after = whole at hreads
  cases hreads with
  | @number lexeme number hlexeme =>
      rcases List.append_eq_append_iff.mp hwhole with ⟨left, rfl, hleft⟩ | ⟨left, hleft, rfl⟩
      · cases left with
        | nil => exact ⟨number, rfl, by simpa using hlexeme, hleft.symm⟩
        | cons head _ =>
            cases hleft
            rw [hlexeme.isNumberChar.2 c (by simp)] at hc
            contradiction
      · cases left with
        | nil => exact ⟨number, rfl, by simpa [hleft] using hlexeme, rfl⟩
        | cons head _ =>
            have hhead : isNumberChar head = true := hnumeral head (by simp [hleft])
            rw [List.cons_append,
              skip_cons_of_not (isWhitespace_of_isNumberChar hhead)] at hskip
            cases hskip
            rw [hhead] at hd
            contradiction
  | null | true | false | string | emptyArray | array | emptyObject | object =>
      obtain rfl := List.head_eq_of_cons_eq hwhole
      contradiction

end Values

section Arrays

variable {text other rest : List Char} {values : List Value}

/-- White space before the first element does not matter. -/
theorem Elements.congr (hskip : skip text = skip other) (helements : Elements text values rest) :
    Elements other values rest := by
  cases helements with
  | last hvalue hclose => exact .last (hskip ▸ hvalue) hclose
  | more hvalue hcomma hvalues => exact .more (hskip ▸ hvalue) hcomma hvalues

/-- What the elements of an array are: a first one, and the others behind a
comma. -/
theorem elements_iff : Elements text values rest ↔ ∃ value later others,
    values = value :: others ∧ Reads (skip text) value later ∧
      (others = [] ∧ skip later = ']' :: rest ∨
        ∃ further, skip later = ',' :: further ∧ Elements further others rest) := by
  constructor
  · intro helements
    cases helements with
    | last hvalue hclose => exact ⟨_, _, [], rfl, hvalue, .inl ⟨rfl, hclose⟩⟩
    | more hvalue hcomma hvalues => exact ⟨_, _, _, rfl, hvalue, .inr ⟨_, hcomma, hvalues⟩⟩
  · rintro ⟨value, later, others, rfl, hvalue, ⟨rfl, hclose⟩ | ⟨further, hcomma, hothers⟩⟩
    · exact .last hvalue hclose
    · exact .more hvalue hcomma hothers

theorem skip_numeral {numeral : List Char} (hne : numeral ≠ [])
    (hnumeral : ∀ c ∈ numeral, isNumberChar c = true) (after : List Char) :
    skip (numeral ++ after) = numeral ++ after := by
  obtain ⟨first, others, rfl⟩ := List.exists_cons_of_ne_nil hne
  exact skip_cons_of_not (isWhitespace_of_isNumberChar (hnumeral first List.mem_cons_self)) _

/-- A numeral at the front of an array, up to what sets it apart from the rest. -/
theorem elements_numeral_iff {numeral after : List Char} {c : Char} (hne : numeral ≠ [])
    (hnumeral : ∀ c ∈ numeral, isNumberChar c = true) (hc : isNumberChar c = false)
    (hspace : isWhitespace c = false) :
    Elements (numeral ++ c :: after) values rest ↔
      ∃ number tail, values = .number number :: tail ∧ Number numeral number ∧
        (c = ']' ∧ tail = [] ∧ rest = after ∨ c = ',' ∧ Elements after tail rest) := by
  have hskip := skip_numeral hne hnumeral (c :: after)
  constructor
  · intro helements
    cases helements with
    | last hvalue hclose =>
        rw [hskip] at hvalue
        obtain ⟨number, rfl, hnumber, rfl⟩ :=
          exists_number_of_reads hne hnumeral hc rfl hvalue hclose
        rw [skip_cons_of_not hspace] at hclose
        cases hclose
        exact ⟨number, [], rfl, hnumber, .inl ⟨rfl, rfl, rfl⟩⟩
    | @more _ _ _ _ _ tail hvalue hcomma hvalues =>
        rw [hskip] at hvalue
        obtain ⟨number, rfl, hnumber, rfl⟩ :=
          exists_number_of_reads hne hnumeral hc rfl hvalue hcomma
        rw [skip_cons_of_not hspace] at hcomma
        cases hcomma
        exact ⟨number, tail, rfl, hnumber, .inr ⟨rfl, hvalues⟩⟩
  · rintro ⟨number, tail, rfl, hnumber, hrest⟩
    have hvalue : Reads (skip (numeral ++ c :: after)) (.number number) (c :: after) := by
      rw [hskip]
      exact .number hnumber _
    rcases hrest with ⟨rfl, rfl, rfl⟩ | ⟨rfl, htail⟩
    · exact .last hvalue (skip_cons_of_not hspace _)
    · exact .more hvalue (skip_cons_of_not hspace _) htail

/-- Numerals that are set apart by commas are read one by one. -/
theorem elements_numerals_iff {numerals : List (List Char)} (hnumerals : numerals ≠ [])
    (hchars : ∀ numeral ∈ numerals, numeral ≠ [] ∧ ∀ c ∈ numeral, isNumberChar c = true)
    (after : List Char) :
    Elements ([',', ' '].intercalate numerals ++ ']' :: after) values rest ↔
      rest = after ∧ List.Forall₂ (fun numeral value =>
        ∃ number, value = .number number ∧ Number numeral number) numerals values := by
  induction numerals generalizing values with
  | nil => contradiction
  | cons numeral others ih =>
      rw [List.forall_mem_cons] at hchars
      obtain ⟨⟨hne, hnumeral⟩, hothers⟩ := hchars
      cases others with
      | nil =>
          rw [List.intercalate_singleton, elements_numeral_iff hne hnumeral rfl rfl]
          constructor
          · rintro ⟨number, tail, rfl, hnumber, ⟨_, rfl, rfl⟩ | ⟨hcomma, _⟩⟩
            · exact ⟨rfl, .cons ⟨number, rfl, hnumber⟩ .nil⟩
            · contradiction
          · rintro ⟨rfl, hforall⟩
            obtain _ | ⟨⟨number, rfl, hnumber⟩, ⟨⟩⟩ := hforall
            exact ⟨number, [], rfl, hnumber, .inl ⟨rfl, rfl, rfl⟩⟩
      | cons next others =>
          have htext : [',', ' '].intercalate (numeral :: next :: others) ++ ']' :: after =
              numeral ++ ',' :: ' ' ::
                ([',', ' '].intercalate (next :: others) ++ ']' :: after) := by
            simp [List.intercalate_cons_cons]
          have hblank := skip_blank ([',', ' '].intercalate (next :: others) ++ ']' :: after)
          rw [htext, elements_numeral_iff hne hnumeral rfl rfl]
          constructor
          · rintro ⟨number, tail, rfl, hnumber, ⟨hclose, _⟩ | ⟨_, htail⟩⟩
            · contradiction
            · obtain ⟨rfl, hforall⟩ := (ih (by simp) hothers).mp (htail.congr hblank)
              exact ⟨rfl, .cons ⟨number, rfl, hnumber⟩ hforall⟩
          · rintro ⟨rfl, hforall⟩
            obtain _ | ⟨⟨number, rfl, hnumber⟩, hforall⟩ := hforall
            have htail := (ih (by simp) hothers).mpr ⟨rfl, hforall⟩
            exact ⟨number, _, rfl, hnumber, .inr ⟨rfl, htail.congr hblank.symm⟩⟩

theorem denotes_numerals_iff {numerals : List (List Char)} (hnumerals : numerals ≠ [])
    (hchars : ∀ numeral ∈ numerals, numeral ≠ [] ∧ ∀ c ∈ numeral, isNumberChar c = true)
    (value : Value) :
    Denotes ('[' :: ([',', ' '].intercalate numerals ++ [']'])) value ↔
      ∃ values, value = .array values ∧ List.Forall₂ (fun numeral value =>
        ∃ number, value = .number number ∧ Number numeral number) numerals values := by
  have hbracket : ∀ text, skip ('[' :: text) = '[' :: text := skip_cons_of_not rfl
  constructor
  · rintro ⟨rest, hreads, _⟩
    rw [hbracket] at hreads
    obtain ⟨values, rfl, ⟨_, hempty⟩ | hvalues⟩ := exists_elements_of_reads hreads
    · obtain ⟨numeral, others, rfl⟩ := List.exists_cons_of_ne_nil hnumerals
      obtain ⟨hne, hnumeral⟩ := hchars numeral List.mem_cons_self
      obtain ⟨first, digits, rfl⟩ := List.exists_cons_of_ne_nil hne
      have hfirst := hnumeral first List.mem_cons_self
      cases others with
      | nil | cons =>
          simp only [List.intercalate_singleton, List.intercalate_cons_cons,
            List.cons_append] at hempty
          rw [skip_cons_of_not (isWhitespace_of_isNumberChar hfirst)] at hempty
          cases hempty
          contradiction
    · exact ⟨values, rfl, ((elements_numerals_iff hnumerals hchars []).mp hvalues).2⟩
  · rintro ⟨values, rfl, hforall⟩
    refine ⟨[], ?_, rfl⟩
    rw [hbracket]
    exact .array ((elements_numerals_iff hnumerals hchars []).mpr ⟨rfl, hforall⟩)

end Arrays

section Objects

variable {text rest : List Char}

/-- What the members of an object are: a first one, and the others behind a
comma. -/
theorem members_iff {members : List (List Char × Value)} :
    Members text members rest ↔ ∃ entry later others, members = entry :: others ∧
      Member text entry later ∧ (others = [] ∧ skip later = '}' :: rest ∨
        ∃ further, skip later = ',' :: further ∧ Members further others rest) := by
  constructor
  · intro hmembers
    cases hmembers with
    | last hentry hclose => exact ⟨_, _, [], rfl, hentry, .inl ⟨rfl, hclose⟩⟩
    | more hentry hcomma hentries => exact ⟨_, _, _, rfl, hentry, .inr ⟨_, hcomma, hentries⟩⟩
  · rintro ⟨entry, later, others, rfl, hentry, ⟨rfl, hclose⟩ | ⟨further, hcomma, hothers⟩⟩
    · exact .last hentry hclose
    · exact .more hentry hcomma hothers

/-- A member whose name is written plainly. -/
theorem member_iff {name after : List Char} {entry : List Char × Value}
    (hname : ∀ c ∈ name, IsPlain c)
    (hskip : skip text = '"' :: (name ++ '"' :: ':' :: after)) :
    Member text entry rest ↔ ∃ value, entry = (name, value) ∧ Reads (skip after) value rest := by
  constructor
  · intro hmember
    cases hmember with
    | mk hquote hchars hcolon hvalue =>
        cases hskip.symm.trans hquote
        obtain ⟨rfl, rfl⟩ := hchars.of_plain hname
        cases hcolon.symm.trans (skip_cons_of_not rfl after)
        exact ⟨_, rfl, hvalue⟩
  · rintro ⟨value, rfl, hvalue⟩
    exact .mk hskip (chars_of_plain hname _) (skip_cons_of_not rfl after) hvalue

/-- A member whose value is a string. -/
theorem member_string_iff {name body : List Char} {entry : List Char × Value}
    (hname : ∀ c ∈ name, IsPlain c)
    (hskip : skip text = '"' :: (name ++ '"' :: ':' :: '"' :: body)) :
    Member text entry rest ↔ ∃ s, entry = (name, .string s) ∧ Chars body s rest := by
  have hquote : skip ('"' :: body) = '"' :: body := skip_cons_of_not rfl body
  rw [member_iff hname hskip, hquote]
  constructor
  · rintro ⟨value, rfl, hvalue⟩
    obtain ⟨s, rfl, hs⟩ := exists_chars_of_reads hvalue
    exact ⟨s, rfl, hs⟩
  · rintro ⟨s, rfl, hs⟩
    exact ⟨.string s, rfl, .string hs⟩

/-- An object whose first name is written plainly has that name first. -/
theorem exists_first_member {name after : List Char} {value : Value}
    (hname : ∀ c ∈ name, IsPlain c) (hskip : skip text = '"' :: (name ++ '"' :: ':' :: after))
    (hreads : Reads ('{' :: text) value rest) :
    ∃ first later others, value = .object ((name, first) :: others) ∧
      Reads (skip after) first later ∧ (others = [] ∧ skip later = '}' :: rest ∨
        ∃ further, skip later = ',' :: further ∧ Members further others rest) := by
  obtain ⟨members, rfl, ⟨_, hempty⟩ | hmembers⟩ := exists_members_of_reads hreads
  · cases hskip.symm.trans hempty
  · obtain ⟨entry, later, others, rfl, hentry, hothers⟩ := members_iff.mp hmembers
    obtain ⟨first, rfl, hfirst⟩ := (member_iff hname hskip).mp hentry
    exact ⟨first, later, others, rfl, hfirst, hothers⟩

end Objects

end Json
