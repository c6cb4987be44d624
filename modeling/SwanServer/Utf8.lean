/-
UTF-8 in strings of bytes.  A byte is written as the character of its value, so that
both the bytes and the text that they encode are lists of characters.
-/
import Mathlib

namespace Utf8

/-- A byte as the character of its value. -/
def byteChar (byte : UInt8) : Char := Char.ofNat byte.toNat

/-- The bytes of a character. -/
def encodeChar (c : Char) : List Char := (String.utf8EncodeChar c).map byteChar

/-- The bytes of a text. -/
def encode (text : List Char) : List Char := text.flatMap encodeChar

/-- The bytes are those of some text. -/
def Valid (bytes : List Char) : Prop := ∃ text, encode text = bytes

def IsAscii (c : Char) : Prop := c.toNat < 0x80

instance (c : Char) : Decidable (IsAscii c) := inferInstanceAs (Decidable (_ < _))

section Characters

variable {c : Char}

theorem toNat_byteChar (byte : UInt8) : (byteChar byte).toNat = byte.toNat := by
  have hvalid : byte.toNat.isValidChar := .inl (byte.toNat_lt.trans (by decide))
  rw [byteChar, Char.ofNat, dif_pos hvalid]
  rfl

theorem byteChar_injective : Function.Injective byteChar := by
  intro first second heq
  have htoNat := congrArg Char.toNat heq
  rw [toNat_byteChar, toNat_byteChar] at htoNat
  exact UInt8.toNat_inj.mp htoNat

/-- An ASCII character is its own byte. -/
theorem encodeChar_of_isAscii (hc : IsAscii c) : encodeChar c = [c] := by
  have hle : c.val.toNat ≤ 0x7f := Nat.le_of_lt_succ hc
  have hbyte : (UInt8.ofNat c.val.toNat).toNat = c.toNat := by
    rw [UInt8.toNat_ofNat']
    exact Nat.mod_eq_of_lt (hle.trans_lt (by decide))
  rw [encodeChar, String.utf8EncodeChar, if_pos hle, List.map_singleton, byteChar, hbyte,
    Char.ofNat_toNat]

/-- Any other character has bytes that are no ASCII characters. -/
theorem encodeChar_of_not_isAscii (hc : ¬ IsAscii c) :
    2 ≤ (encodeChar c).length ∧ ∀ byte ∈ encodeChar c, ¬ IsAscii byte := by
  have hlt : ¬ c.val.toNat ≤ 0x7f := fun hle => hc (Nat.lt_succ_of_le hle)
  rw [encodeChar, List.length_map, List.forall_mem_map]
  simp only [IsAscii, toNat_byteChar, Nat.not_lt]
  rw [String.utf8EncodeChar, if_neg hlt]
  split_ifs <;>
    · refine ⟨by simp, ?_⟩
      simp only [List.mem_cons, List.not_mem_nil, or_false, forall_eq_or_imp, forall_eq,
        UInt8.toNat_ofNat']
      omega

end Characters

section Texts

variable {text front back : List Char} {c : Char}

theorem encode_cons (c : Char) (text : List Char) :
    encode (c :: text) = encodeChar c ++ encode text := rfl

theorem encode_append (front back : List Char) :
    encode (front ++ back) = encode front ++ encode back := List.flatMap_append

theorem encode_cons_of_isAscii (hc : IsAscii c) (text : List Char) :
    encode (c :: text) = c :: encode text := by
  rw [encode_cons, encodeChar_of_isAscii hc, List.singleton_append]

/-- ASCII texts are their own bytes. -/
theorem encode_eq_self (htext : ∀ c ∈ text, IsAscii c) : encode text = text := by
  induction text with
  | nil => rfl
  | cons head tail ih =>
      rw [List.forall_mem_cons] at htext
      rw [encode_cons_of_isAscii htext.1, ih htext.2]

/-- The bytes determine the text. -/
theorem encode_injective : Function.Injective encode := by
  have hbytes : ∀ text : List Char,
      encode text = (text.flatMap String.utf8EncodeChar).map byteChar :=
    fun text => List.map_flatMap.symm
  intro first second heq
  rw [hbytes, hbytes] at heq
  have hsame : first.utf8Encode = second.utf8Encode :=
    congrArg List.toByteArray (byteChar_injective.list_map heq)
  have hdecoded := congrArg ByteArray.utf8Decode? hsame
  rw [List.utf8Decode?_utf8Encode, List.utf8Decode?_utf8Encode] at hdecoded
  exact Array.toList_inj.mpr (Option.some.inj hdecoded)

/-- What can be said of ASCII characters alone can be said of the bytes. -/
theorem forall_mem_encode_iff {P : Char → Prop} (hP : ∀ c, ¬ IsAscii c → P c) :
    (∀ byte ∈ encode text, P byte) ↔ ∀ c ∈ text, P c := by
  have hchar : ∀ c, (∀ byte ∈ encodeChar c, P byte) ↔ P c := by
    intro c
    by_cases hc : IsAscii c
    · rw [encodeChar_of_isAscii hc, List.forall_mem_singleton]
    · exact iff_of_true (fun byte hbyte => hP byte ((encodeChar_of_not_isAscii hc).2 byte hbyte))
        (hP c hc)
  simp only [encode, List.mem_flatMap, forall_exists_index, and_imp]
  constructor
  · exact fun h c hc => (hchar c).mp fun byte hbyte => h byte c hc hbyte
  · exact fun h byte c hc hbyte => (hchar c).mpr (h c hc) byte hbyte

/-- An ASCII byte stands for itself wherever it stands. -/
theorem exists_of_encode_eq_append_cons (hc : IsAscii c)
    (htext : encode text = front ++ c :: back) :
    ∃ before after, text = before ++ c :: after ∧ encode before = front ∧
      encode after = back := by
  induction text generalizing front with
  | nil => simp [encode] at htext
  | cons head tail ih =>
      rw [encode_cons] at htext
      rcases List.append_eq_append_iff.mp htext with ⟨more, rfl, hmore⟩ | ⟨more, hhead, hmore⟩
      · obtain ⟨before, after, rfl, rfl, rfl⟩ := ih hmore
        exact ⟨head :: before, after, rfl, encode_cons _ _, rfl⟩
      · cases more with
        | nil =>
            rw [List.append_nil] at hhead
            have htail : encode tail = [] ++ c :: back := hmore.symm
            obtain ⟨before, after, rfl, hbefore, rfl⟩ := ih htail
            refine ⟨head :: before, after, rfl, ?_, rfl⟩
            rw [encode_cons, hbefore, hhead, List.append_nil]
        | cons first others =>
            obtain ⟨rfl, rfl⟩ := List.cons.inj hmore
            have hascii : IsAscii head := by
              by_contra hnot
              refine (encodeChar_of_not_isAscii hnot).2 c ?_ hc
              simp [hhead]
            rw [encodeChar_of_isAscii hascii] at hhead
            cases front with
            | nil =>
                obtain ⟨rfl, rfl⟩ := List.cons.inj hhead
                exact ⟨[], tail, rfl, rfl, rfl⟩
            | cons byte others => simp at hhead

theorem valid_nil : Valid [] := ⟨[], rfl⟩

theorem valid_encode (text : List Char) : Valid (encode text) := ⟨text, rfl⟩

theorem Valid.append (hfront : Valid front) (hback : Valid back) : Valid (front ++ back) := by
  obtain ⟨before, rfl⟩ := hfront
  obtain ⟨after, rfl⟩ := hback
  exact ⟨before ++ after, encode_append before after⟩

/-- Bytes can be taken apart at an ASCII byte. -/
theorem valid_append_cons_iff (hc : IsAscii c) :
    Valid (front ++ c :: back) ↔ Valid front ∧ Valid back := by
  constructor
  · rintro ⟨text, htext⟩
    obtain ⟨before, after, -, rfl, rfl⟩ := exists_of_encode_eq_append_cons hc htext
    exact ⟨valid_encode before, valid_encode after⟩
  · rintro ⟨hfront, after, rfl⟩
    exact hfront.append ⟨c :: after, encode_cons_of_isAscii hc after⟩

/-- ASCII text in front makes no difference. -/
theorem valid_isAscii_append_iff (hfront : ∀ c ∈ front, IsAscii c) :
    Valid (front ++ back) ↔ Valid back := by
  induction front with
  | nil => rfl
  | cons head tail ih =>
      rw [List.forall_mem_cons] at hfront
      have hsplit : Valid ([] ++ head :: (tail ++ back)) ↔ Valid [] ∧ Valid (tail ++ back) :=
        valid_append_cons_iff hfront.1
      rw [List.cons_append, ← List.nil_append (head :: _), hsplit, ih hfront.2]
      exact and_iff_right valid_nil

/-- Bytes can be taken apart at a piece of ASCII text. -/
theorem valid_append_isAscii_append_iff {middle : List Char} (hne : middle ≠ [])
    (hmiddle : ∀ c ∈ middle, IsAscii c) :
    Valid (front ++ (middle ++ back)) ↔ Valid front ∧ Valid back := by
  obtain ⟨first, others, rfl⟩ := List.exists_cons_of_ne_nil hne
  rw [List.forall_mem_cons] at hmiddle
  rw [List.cons_append, valid_append_cons_iff hmiddle.1, valid_isAscii_append_iff hmiddle.2]

/-- ASCII text behind makes no difference. -/
theorem valid_append_isAscii_iff (hback : ∀ c ∈ back, IsAscii c) :
    Valid (front ++ back) ↔ Valid front := by
  rcases eq_or_ne back [] with rfl | hne
  · rw [List.append_nil]
  · rw [← List.append_nil back, valid_append_isAscii_append_iff hne hback]
    exact and_iff_left valid_nil

/-- Bytes between separators are those of a text if the pieces are. -/
theorem valid_intercalate_iff {separator : List Char} (hne : separator ≠ [])
    (hseparator : ∀ c ∈ separator, IsAscii c) (pieces : List (List Char)) :
    Valid (separator.intercalate pieces) ↔ ∀ piece ∈ pieces, Valid piece := by
  induction pieces with
  | nil => simpa using valid_nil
  | cons piece others ih =>
      cases others with
      | nil => simp
      | cons next others =>
          rw [List.intercalate_cons_cons, List.append_assoc,
            valid_append_isAscii_append_iff hne hseparator, ih, List.forall_mem_cons (l := _ :: _)]

theorem encode_intercalate (separator : List Char) (pieces : List (List Char)) :
    encode (separator.intercalate pieces) =
      (encode separator).intercalate (pieces.map encode) := by
  induction pieces with
  | nil => rfl
  | cons piece others ih =>
      cases others with
      | nil => simp
      | cons next others =>
          rw [List.intercalate_cons_cons, encode_append, encode_append, ih, List.map_cons,
            List.map_cons, List.map_cons, List.intercalate_cons_cons]

/-- A byte that is no ASCII character is not a text of its own. -/
theorem not_valid_singleton (hc : ¬ IsAscii c) : ¬ Valid [c] := by
  rintro ⟨text, htext⟩
  cases text with
  | nil => cases htext
  | cons head tail =>
      rw [encode_cons] at htext
      by_cases hhead : IsAscii head
      · rw [encodeChar_of_isAscii hhead] at htext
        obtain ⟨rfl, -⟩ := List.cons.inj htext
        exact hc hhead
      · have hlength := congrArg List.length htext
        rw [List.length_append, List.length_singleton] at hlength
        have htwo := (encodeChar_of_not_isAscii hhead).1
        omega

end Texts

end Utf8
