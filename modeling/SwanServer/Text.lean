/-
The C and C++ text primitives that the server rests on: C strings, splitting
at a delimiter, and the conversions between decimal text and `int`.
-/
import Mathlib

namespace SwanServer

/-- A `std::string`, each byte as the character of its value.  A character above
255 stands for no byte; the code tells characters apart by ASCII constants only, so
such characters matter only where bytes are read as UTF-8. -/
abbrev Str := List Char

/-- The NUL character that ends a C string. -/
def nul : Char := '\x00'

/-- What `s.c_str()` denotes when it is read as a C string. -/
def cStr (s : Str) : Str := s.takeWhile (· ≠ nul)

theorem cStr_append {front : Str} (hfront : nul ∉ front) (rest : Str) :
    cStr (front ++ rest) = front ++ cStr rest := by
  apply List.takeWhile_append_of_pos
  intro c hc
  have hne : c ≠ nul := fun heq => hfront (heq ▸ hc)
  simpa using hne

theorem cStr_eq_self {s : Str} (hs : nul ∉ s) : cStr s = s := by
  simpa [cStr] using cStr_append hs []

theorem nul_not_mem_cStr (s : Str) : nul ∉ cStr s := by
  intro hmem
  simpa using List.mem_takeWhile_imp hmem

@[simp] theorem cStr_cStr (s : Str) : cStr (cStr s) = cStr s :=
  cStr_eq_self (nul_not_mem_cStr s)

/-- The ways a call can leave its normal path: the C++ exceptions that the
library calls throw, and undefined behaviour. -/
inductive Fault where
  | invalidArgument
  | outOfRange
  | filesystemError
  | undefinedBehaviour
deriving Repr, DecidableEq

/-- The items that repeated `std::getline(ss, item, delim)` reads from `s`: a
delimiter at the very end starts no further item. -/
def getlines (delim : Char) (s : Str) : List Str :=
  let items := s.splitOn delim
  if items.getLast? = some [] then items.dropLast else items

/-- The non-empty pieces of `s` between slashes. -/
def segments (s : Str) : List Str :=
  (s.splitOn '/').filter (· ≠ [])

theorem getlines_filter_ne_nil (s : Str) :
    (getlines '/' s).filter (· ≠ []) = segments s := by
  rw [getlines, segments]
  split
  · next hlast =>
      obtain ⟨init, hinit⟩ := List.getLast?_eq_some_iff.mp hlast
      simp [hinit]
  · rfl

@[simp] theorem segments_nil : segments [] = [] := rfl

@[simp] theorem segments_append_slash (front back : Str) :
    segments (front ++ '/' :: back) = segments front ++ segments back := by
  simp [segments, List.splitOn_append_cons_of_beq]

@[simp] theorem segments_slash_cons (back : Str) :
    segments ('/' :: back) = segments back := by
  simpa using segments_append_slash [] back

theorem segments_of_not_mem {s : Str} (hslash : '/' ∉ s) (hs : s ≠ []) :
    segments s = [s] := by
  simp [segments, List.splitOn_eq_singleton hslash, hs]

theorem mem_splitOn_slash {piece s : Str} (hpiece : piece ∈ s.splitOn '/') :
    '/' ∉ piece ∧ ∀ c ∈ piece, c ∈ s := by
  induction s generalizing piece with
  | nil =>
      rw [List.splitOn_nil, List.mem_singleton] at hpiece
      simp [hpiece]
  | cons head tail ih =>
      rw [List.splitOn_cons_eq_if_modifyHead] at hpiece
      split at hpiece
      · rcases List.mem_cons.mp hpiece with rfl | htail
        · simp
        · exact ⟨(ih htail).1,
            fun c hc => List.mem_cons_of_mem head ((ih htail).2 c hc)⟩
      · next hhead =>
          obtain ⟨first, rest, hsplit⟩ :=
            List.exists_cons_of_ne_nil (List.splitOn_ne_nil '/' tail)
          rw [hsplit, List.modifyHead_cons, List.mem_cons] at hpiece
          rw [hsplit] at ih
          rcases hpiece with rfl | hrest
          · have hfirst := ih List.mem_cons_self
            have hne : '/' ≠ head := fun heq => hhead (by simp [← heq])
            refine ⟨by simp [hne, hfirst.1], ?_⟩
            intro c hc
            rcases List.mem_cons.mp hc with rfl | hc
            · exact List.mem_cons_self
            · exact List.mem_cons_of_mem head (hfirst.2 c hc)
          · have hlater := ih (List.mem_cons_of_mem first hrest)
            exact ⟨hlater.1,
              fun c hc => List.mem_cons_of_mem head (hlater.2 c hc)⟩

/-- A segment is a file name: not empty and free of slashes. -/
theorem mem_segments {piece s : Str} (hpiece : piece ∈ segments s) :
    piece ≠ [] ∧ '/' ∉ piece ∧ ∀ c ∈ piece, c ∈ s := by
  rw [segments, List.mem_filter] at hpiece
  exact ⟨by simpa using hpiece.2, mem_splitOn_slash hpiece.1⟩

/-- The value of a string of decimal digits. -/
def decimal (digits : Str) : Nat := Nat.ofDigitChars 10 digits 0

/-- `std::to_string` on an `int`. -/
def toStringInt : Int → Str
  | .ofNat n => Nat.toDigits 10 n
  | .negSucc n => '-' :: Nat.toDigits 10 (n + 1)

/-- The largest `int`. -/
def intMax : Int := 2147483647

/-- The smallest `int`. -/
def intMin : Int := -2147483648

/-- A mathematical integer wrapped around to a 32-bit `int`. -/
def wrapInt (n : Int) : Int := Int.bmod n 4294967296

theorem wrapInt_of_mem {n : Int} (hmin : intMin ≤ n) (hmax : n ≤ intMax) :
    wrapInt n = n :=
  Int.bmod_eq_of_le (by simp only [intMin] at hmin; omega)
    (by simp only [intMax] at hmax; omega)

theorem wrapInt_mem (n : Int) : intMin ≤ wrapInt n ∧ wrapInt n ≤ intMax := by
  have hlow := Int.le_bmod (x := n) (m := 4294967296) (by decide)
  have hhigh := Int.bmod_lt (x := n) (m := 4294967296) (by decide)
  simp only [wrapInt, intMin, intMax]
  omega

/-- `isspace` in the C locale. -/
def isSpace (c : Char) : Bool :=
  c = ' ' || c = '\t' || c = '\n' || c = '\x0b' || c = '\x0c' || c = '\r'

/-- The optional sign in front of a number: whether it is a minus, and the
text after it. -/
def readSign : Str → Bool × Str
  | '-' :: rest => (true, rest)
  | '+' :: rest => (false, rest)
  | rest => (false, rest)

/-- `std::stoi`: white space, a sign, then as many digits as there are; text
after the digits is ignored. -/
def stoi (s : Str) : Except Fault Int :=
  let (negative, text) := readSign ((cStr s).dropWhile isSpace)
  let digits := text.takeWhile Char.isDigit
  let value : Int := if negative then -decimal digits else decimal digits
  if digits = [] then .error .invalidArgument
  else if value < intMin ∨ intMax < value then .error .outOfRange
  else .ok value

theorem stoi_le_intMax {s : Str} {n : Int} (hs : stoi s = .ok n) : n ≤ intMax := by
  simp only [stoi] at hs
  split_ifs at hs <;> cases hs <;> omega

/-- A non-empty string of decimal digits. -/
def IsDigits (s : Str) : Prop := s ≠ [] ∧ ∀ c ∈ s, c.isDigit

instance (s : Str) : Decidable (IsDigits s) := inferInstanceAs (Decidable (_ ∧ _))

theorem isDigits_toDigits (n : Nat) : IsDigits (Nat.toDigits 10 n) :=
  ⟨Nat.toDigits_ne_nil, fun _ hc =>
    Nat.isDigit_of_mem_toDigits (by decide) (by decide) hc⟩

@[simp] theorem decimal_toDigits (n : Nat) : decimal (Nat.toDigits 10 n) = n :=
  Nat.ofDigitChars_ten_toDigits

theorem IsDigits.not_mem {s : Str} (hs : IsDigits s) {c : Char}
    (hc : c.isDigit = false) : c ∉ s := by
  intro hmem
  rw [hs.2 c hmem] at hc
  contradiction

theorem isDigits_toStringInt {n : Int} (hn : 0 ≤ n) : IsDigits (toStringInt n) := by
  cases n with
  | ofNat n => exact isDigits_toDigits n
  | negSucc n => contradiction

theorem toStringInt_injective : Function.Injective toStringInt := by
  have hdigits : ∀ {m n : Nat}, Nat.toDigits 10 m = Nat.toDigits 10 n → m = n := by
    intro m n heq
    rw [← decimal_toDigits m, heq, decimal_toDigits]
  have hsign : ∀ n rest, Nat.toDigits 10 n ≠ '-' :: rest := by
    intro n rest heq
    refine (isDigits_toDigits n).not_mem (c := '-') rfl ?_
    rw [heq]
    exact List.mem_cons_self
  intro m n heq
  cases m with
  | ofNat m =>
      cases n with
      | ofNat n => exact congrArg Int.ofNat (hdigits heq)
      | negSucc n => exact absurd heq (hsign m _)
  | negSucc m =>
      cases n with
      | ofNat n => exact absurd heq.symm (hsign n _)
      | negSucc n =>
          have htail := hdigits (List.tail_eq_of_cons_eq heq)
          rw [Nat.succ_inj.mp htail]

theorem IsDigits.cStr {s : Str} (hs : IsDigits s) : SwanServer.cStr s = s :=
  cStr_eq_self (hs.not_mem (by decide))

theorem IsDigits.takeWhile {s : Str} (hs : IsDigits s) :
    s.takeWhile Char.isDigit = s := by
  rw [List.takeWhile_eq_self_iff]
  exact hs.2

theorem readSign_of_isDigit {head : Char} (hhead : head.isDigit) (tail : Str) :
    readSign (head :: tail) = (false, head :: tail) := by
  rw [readSign]
  · intro rest heq
    cases heq
    contradiction
  · intro rest heq
    cases heq
    contradiction

theorem isSpace_of_isDigit {c : Char} (hc : c.isDigit) : isSpace c = false := by
  have hne : ∀ other : Char, other.isDigit = false → c ≠ other := by
    rintro other hother rfl
    rw [hc] at hother
    contradiction
  simp [isSpace, hne ' ' rfl, hne '\t' rfl, hne '\n' rfl, hne '\x0b' rfl,
    hne '\x0c' rfl, hne '\r' rfl]

/-- On a digit string `stoi` fails only by exceeding the range of `int`. -/
theorem stoi_of_isDigits {s : Str} (hs : IsDigits s) :
    stoi s = if (decimal s : Int) ≤ intMax then .ok (decimal s)
      else .error .outOfRange := by
  obtain ⟨head, tail, rfl⟩ := List.exists_cons_of_ne_nil hs.1
  have hhead : head.isDigit := hs.2 head List.mem_cons_self
  have hdrop : (head :: tail).dropWhile isSpace = head :: tail := by
    simp [isSpace_of_isDigit hhead]
  have hlow : ¬ (decimal (head :: tail) : Int) < intMin := by
    simp only [intMin]
    omega
  simp only [stoi, hs.cStr, hdrop, readSign_of_isDigit hhead, hs.takeWhile]
  by_cases hmax : (decimal (head :: tail) : Int) ≤ intMax
  · simp [hmax, hlow, Int.not_lt.mpr hmax]
  · simp [hmax, Int.not_le.mp hmax]

theorem stoi_toStringInt {n : Int} (hmin : intMin ≤ n) (hmax : n ≤ intMax) :
    stoi (toStringInt n) = .ok n := by
  cases n with
  | ofNat n =>
      have hn : (n : Int) ≤ intMax := hmax
      rw [toStringInt, stoi_of_isDigits (isDigits_toDigits n), decimal_toDigits]
      simp [hn]
  | negSucc n =>
      have hdigits := isDigits_toDigits (n + 1)
      have hnul : nul ∉ '-' :: Nat.toDigits 10 (n + 1) := by
        rw [List.mem_cons, not_or]
        exact ⟨by decide, hdigits.not_mem (by decide)⟩
      have hvalue : -((n + 1 : Nat) : Int) = Int.negSucc n := rfl
      have hspace : isSpace '-' = false := rfl
      have hrange : ¬ (Int.negSucc n < intMin ∨ intMax < Int.negSucc n) := by
        omega
      simp only [toStringInt, stoi, cStr_eq_self hnul, List.dropWhile_cons,
        hspace, Bool.false_eq_true, ↓reduceIte, readSign, hdigits.takeWhile,
        hdigits.1, decimal_toDigits, hvalue, hrange]

end SwanServer
