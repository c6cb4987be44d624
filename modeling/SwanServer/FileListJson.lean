/-
The list that `get_file_list` answers with, read as JSON.  The ids of a
directory are digit strings that clients chose and numbers that the server
counted up, and JSON does not take every digit string for a number.
-/
import SwanServer.ApiHandler
import SwanServer.FileSystemSpec
import SwanServer.Json

namespace SwanServer

open FileTree Json

section Numerals

/-- Digits that start with a zero that is not alone. -/
def LeadingZero (digits : Str) : Prop := digits.head? = some '0' ∧ digits ≠ ['0']

instance (digits : Str) : Decidable (LeadingZero digits) :=
  inferInstanceAs (Decidable (_ ∧ _))

theorem whole_iff {digits : Str} (hdigits : IsDigits digits) :
    Whole digits ↔ ¬ LeadingZero digits := by
  constructor
  · rintro ⟨_, halone⟩ ⟨hzero, hne⟩
    exact hne (halone hzero)
  · intro hleading
    exact ⟨hdigits, fun hzero => by_contra fun hne => hleading ⟨hzero, hne⟩⟩

theorem not_leadingZero_toDigits (n : Nat) : ¬ LeadingZero (Nat.toDigits 10 n) := by
  have hpositive : ∀ n, 0 < n → (Nat.toDigits 10 n).head? ≠ some '0' := by
    intro n
    induction n using Nat.base_induction 10 (by decide) with
    | single m hm =>
        intro hpos
        rw [Nat.toDigits_of_lt_base hm]
        interval_cases m <;> decide
    | digit m k hk hm ih =>
        intro _
        rw [← Nat.toDigits_append_toDigits (by decide) hm hk, List.head?_append_of_ne_nil]
        · exact ih hm
        · exact Nat.toDigits_ne_nil
  rintro ⟨hzero, hne⟩
  rcases Nat.eq_zero_or_pos n with rfl | hpos
  · exact hne (Nat.toDigits_zero 10)
  · exact hpositive n hpos hzero

theorem digitChar_sub {c : Char} (hc : c.isDigit) :
    c.toNat - '0'.toNat < 10 ∧ Nat.digitChar (c.toNat - '0'.toNat) = c := by
  obtain ⟨hlow, hhigh⟩ : 48 ≤ c.toNat ∧ c.toNat ≤ 57 := Char.isDigit_iff_toNat.mp hc
  have hlt : c.toNat - 48 < 10 := by omega
  refine ⟨hlt, Char.toNat_inj.mp ?_⟩
  change (c.toNat - 48).digitChar.toNat = c.toNat
  rw [Nat.toNat_digitChar_of_lt_ten hlt]
  omega

/-- Digits without a leading zero are what `std::to_string` prints of their value. -/
theorem toDigits_decimal {digits : Str} (hdigits : IsDigits digits)
    (hleading : ¬ LeadingZero digits) : Nat.toDigits 10 (decimal digits) = digits := by
  obtain ⟨hne, hall⟩ := hdigits
  induction digits using List.reverseRecOn with
  | nil => contradiction
  | append_singleton front c ih =>
      obtain ⟨hlt, hchar⟩ := digitChar_sub (hall c (by simp))
      have hvalue : decimal (front ++ [c]) = 10 * decimal front + (c.toNat - '0'.toNat) := by
        rw [decimal, Nat.ofDigitChars_append, Nat.ofDigitChars_cons, Nat.ofDigitChars_nil]
        rfl
      have hdigit : Nat.toDigits 10 (c.toNat - '0'.toNat) = [c] := by
        rw [Nat.toDigits_of_lt_base hlt, hchar]
      rcases List.eq_nil_or_concat front with rfl | ⟨_, _, hconcat⟩
      · rw [hvalue]
        simpa [decimal] using hdigit
      · have hfront : front ≠ [] := by simp [hconcat]
        have hhead : (front ++ [c]).head? = front.head? := List.head?_append_of_ne_nil _ hfront
        have hzero : front.head? ≠ some '0' := by
          intro hzero
          refine hleading ⟨hhead.trans hzero, fun heq => ?_⟩
          simpa [hfront] using congrArg List.length heq
        have hsame := ih (fun h => hzero h.1) hfront fun d hd => hall d (by simp [hd])
        have hpos : 0 < decimal front := by
          refine Nat.pos_of_ne_zero fun hvalue => hzero ?_
          rw [← hsame, hvalue]
          rfl
        rw [hvalue, ← Nat.toDigits_append_toDigits (by decide) hpos hlt, hsame, hdigit]

end Numerals

/-- The file names that PUT accepts and that POST counts up. -/
def IsId (name : Str) : Prop := isNumber name = true ∨ ∃ id : Int, name = toStringInt id

/-- The number that an id is. -/
def idValue (name : Str) : Int :=
  let (negative, digits) := readSign name
  if negative then -decimal digits else decimal digits

section Ids

variable {name : Str}

theorem idValue_of_isDigits (hname : IsDigits name) : idValue name = decimal name := by
  obtain ⟨head, tail, rfl⟩ := List.exists_cons_of_ne_nil hname.1
  rw [idValue, readSign_of_isDigit (hname.2 head List.mem_cons_self)]
  rfl

theorem idValue_minus (n : Nat) :
    idValue ('-' :: Nat.toDigits 10 (n + 1)) = Int.negSucc n := by
  simp only [idValue, readSign, ↓reduceIte, decimal_toDigits]
  rfl

/-- An id is a string of digits, or a minus and a number from the server. -/
theorem IsId.cases (hname : IsId name) :
    IsDigits name ∨ ∃ n, name = '-' :: Nat.toDigits 10 (n + 1) := by
  rcases hname with hnumber | ⟨id, rfl⟩
  · exact .inl ((isNumber_iff name).mp hnumber)
  · cases id with
    | ofNat n => exact .inl (isDigits_toDigits n)
    | negSucc n => exact .inr ⟨n, rfl⟩

theorem IsId.stem (hname : IsId name) : SwanServer.stem name = name := by
  rcases hname with hnumber | ⟨id, rfl⟩
  · exact ((isNumber_iff name).mp hnumber).stem
  · exact stem_toStringInt id

theorem IsId.isNumberChar (hname : IsId name) :
    name ≠ [] ∧ ∀ c ∈ name, isNumberChar c = true := by
  rcases hname.cases with hdigits | ⟨n, rfl⟩
  · exact ⟨hdigits.1, Digits.isNumberChar hdigits⟩
  · have hdigits : Digits (Nat.toDigits 10 (n + 1)) := isDigits_toDigits (n + 1)
    exact ⟨by simp, List.forall_mem_cons.mpr ⟨rfl, hdigits.isNumberChar⟩⟩

/-- JSON takes an id for a number unless a client gave it a leading zero. -/
theorem IsId.number_iff (hname : IsId name) (value : ℚ) :
    Number name value ↔ ¬ LeadingZero name ∧ value = idValue name := by
  rcases hname.cases with hdigits | ⟨n, rfl⟩
  · rw [number_digits_iff hdigits, whole_iff hdigits, idValue_of_isDigits hdigits]
    rfl
  · have hdigits := isDigits_toDigits (n + 1)
    have hsign : ¬ LeadingZero ('-' :: Nat.toDigits 10 (n + 1)) := by simp [LeadingZero]
    have hwhole := not_leadingZero_toDigits (n + 1)
    rw [number_minus_digits_iff hdigits, whole_iff hdigits, idValue_minus]
    simp [hsign, hwhole, digitsValue, Int.cast_negSucc]

/-- Ids without a leading zero are determined by their numbers. -/
theorem toStringInt_idValue (hname : IsId name) (hleading : ¬ LeadingZero name) :
    toStringInt (idValue name) = name := by
  rcases hname.cases with hdigits | ⟨n, rfl⟩
  · rw [idValue_of_isDigits hdigits]
    exact toDigits_decimal hdigits hleading
  · rw [idValue_minus]
    rfl

end Ids

/-- The text is a JSON array of numbers, which are those of the names, each
listed once. -/
def ListsIds (text : Str) (names : List Str) : Prop :=
  ∃ numbers : List ℚ, Denotes text (.array (numbers.map .number)) ∧ numbers.Nodup ∧
    numbers.Perm (names.map fun name => (idValue name : ℚ))

theorem ListsIds.perm {text : Str} {names others : List Str} (hperm : names.Perm others)
    (hlists : ListsIds text names) : ListsIds text others := by
  obtain ⟨numbers, hdenotes, hnodup, hnumbers⟩ := hlists
  exact ⟨numbers, hdenotes, hnodup, hnumbers.trans (hperm.map _)⟩

theorem forall₂_ids_iff {names : List Str} (hids : ∀ name ∈ names, IsId name)
    (numbers : List ℚ) :
    List.Forall₂ (fun name value => ∃ number, value = .number number ∧ Number name number)
        names (numbers.map Value.number) ↔
      (∀ name ∈ names, ¬ LeadingZero name) ∧
        numbers = names.map fun name => (idValue name : ℚ) := by
  rw [List.forall₂_map_right_iff]
  induction names generalizing numbers with
  | nil => simp
  | cons name others ih =>
      rw [List.forall_mem_cons] at hids
      cases numbers with
      | nil => simp
      | cons number numbers =>
          rw [List.forall₂_cons, ih hids.2, List.forall_mem_cons, List.map_cons, List.cons.injEq]
          simp only [Value.number.injEq, exists_eq_left', hids.1.number_iff]
          tauto

/-- The printed names are read back as their numbers exactly if JSON takes all
of them for numbers. -/
theorem listsIds_fileList_iff {names : List Str} (hids : ∀ name ∈ names, IsId name)
    (hnodup : names.Nodup) :
    ListsIds (fileList names) names ↔ ∀ name ∈ names, ¬ LeadingZero name := by
  rcases eq_or_ne names [] with rfl | hne
  · have hempty : Denotes (fileList []) (.array []) := ⟨[], .emptyArray rfl, rfl⟩
    exact ⟨by simp, fun _ => ⟨[], hempty, List.nodup_nil, List.Perm.refl []⟩⟩
  · have htext : fileList names = '[' :: ([',', ' '].intercalate names ++ [']']) :=
      fileList_eq_intercalate hne fun name hname => (hids name hname).stem
    have hchars := fun name hname => (hids name hname).isNumberChar
    have hread : ∀ numbers : List ℚ, Denotes (fileList names) (.array (numbers.map .number)) ↔
        (∀ name ∈ names, ¬ LeadingZero name) ∧
          numbers = names.map fun name => (idValue name : ℚ) := by
      intro numbers
      rw [htext, denotes_numerals_iff hne hchars, ← forall₂_ids_iff hids]
      simp
    constructor
    · rintro ⟨numbers, hdenotes, _⟩
      exact ((hread numbers).mp hdenotes).1
    · intro hleading
      refine ⟨_, (hread _).mpr ⟨hleading, rfl⟩, ?_, List.Perm.refl _⟩
      refine List.Nodup.map_on ?_ hnodup
      intro name hname other hother heq
      have hvalue : idValue name = idValue other := by exact_mod_cast heq
      rw [← toStringInt_idValue (hids name hname) (hleading name hname), hvalue,
        toStringInt_idValue (hids other hother) (hleading other hother)]

/-- What `get_file_list` returns for a directory of ids is a JSON list of their
numbers exactly if no client chose an id with a leading zero. -/
theorem RealFileSystem.getFileList_listsIds_iff (host : Host) {disk : Disk} {path : Str}
    {place : List Str} (hresolve : disk.resolve path = some place)
    (hopens : disk.tree.isDirectory place = true ∧ host.works .openDirectory = true)
    (hids : ∀ name ∈ disk.tree.children place, IsId name) :
    ∃ text, (getFileList host path).exec disk = (.ok text, disk) ∧
      (ListsIds text (disk.tree.children place) ↔
        ∀ name ∈ disk.tree.children place, ¬ LeadingZero name) := by
  have hperm : (host.listing (disk.tree.children place)).Perm (disk.tree.children place) :=
    host.listing_perm _
  have hexec : (Disk.directoryIterator host path).exec disk =
      (.ok (host.listing (disk.tree.children place)), disk) := by
    rw [directoryIterator_spec host hresolve, if_pos hopens]
  refine ⟨fileList (host.listing (disk.tree.children place)), ?_, ?_⟩
  · rw [getFileList, Act.exec_bind_ok hexec]
    rfl
  · have hlisted := listsIds_fileList_iff (fun name hname => hids name (hperm.mem_iff.mp hname))
      (hperm.nodup_iff.mpr (Tree.children_nodup disk.tree place))
    calc ListsIds (fileList (host.listing (disk.tree.children place))) (disk.tree.children place)
        ↔ ListsIds (fileList (host.listing (disk.tree.children place)))
            (host.listing (disk.tree.children place)) := ⟨.perm hperm.symm, .perm hperm⟩
      _ ↔ ∀ name ∈ host.listing (disk.tree.children place), ¬ LeadingZero name := hlisted
      _ ↔ ∀ name ∈ disk.tree.children place, ¬ LeadingZero name :=
          forall_congr' fun name => imp_congr hperm.mem_iff Iff.rfl

namespace FileListJsonWitness

/-- A directory for shoes, and the files below it. -/
def shoes (names : List Str) : Disk :=
  ⟨names.foldl (fun tree name => tree.put ["Shoes".toList, name] (.file []))
    ((⟨∅⟩ : Tree Str Str).put ["Shoes".toList] .directory), []⟩

def path : Str := "Shoes".toList

theorem children_shoes : (shoes ["7".toList, "12".toList]).tree.children ["Shoes".toList] =
    ["12".toList, "7".toList] := by
  decide +kernel

theorem getFileList_shoes :
    ∃ text, (RealFileSystem.getFileList workingHost path).exec
        (shoes ["7".toList, "12".toList]) = (.ok text, shoes ["7".toList, "12".toList]) ∧
      (ListsIds text ((shoes ["7".toList, "12".toList]).tree.children ["Shoes".toList]) ↔
        ∀ name ∈ (shoes ["7".toList, "12".toList]).tree.children ["Shoes".toList],
          ¬ LeadingZero name) := by
  refine RealFileSystem.getFileList_listsIds_iff workingHost rfl ⟨rfl, rfl⟩ ?_
  rw [children_shoes]
  intro name hname
  refine .inl ?_
  revert name
  decide +kernel

/-- Shoe 007, which PUT accepts, is not a JSON number. -/
theorem getFileList_leadingZero :
    isFileNumber ["Shoes".toList, "007".toList] = true ∧
      (RealFileSystem.getFileList workingHost path).exec (shoes ["007".toList]) =
        (.ok "[007]".toList, shoes ["007".toList]) ∧
      ∀ value, ¬ Denotes "[007]".toList value := by
  refine ⟨by decide +kernel, rfl, fun value hdenotes => ?_⟩
  have hid : IsId "007".toList := .inl (by decide +kernel)
  have htext : "[007]".toList = '[' :: ([',', ' '].intercalate ["007".toList] ++ [']']) := by
    decide +kernel
  rw [htext, denotes_numerals_iff (by simp) (by simpa using hid.isNumberChar)] at hdenotes
  obtain ⟨values, _, _ | ⟨⟨number, _, hnumber⟩, _⟩⟩ := hdenotes
  have hleading := ((hid.number_iff number).mp hnumber).1
  revert hleading
  decide +kernel

end FileListJsonWitness

end SwanServer
