/-
The JSON text of a palette, and when it is read back as the palette.  The
strings of the services are bytes, put between quotes as they are; JSON is
text in UTF-8.
-/
import SwanServer.FileSystem
import SwanServer.Json
import SwanServer.PaletteHandler
import SwanServer.Utf8

namespace SwanServer

open Json Overlay Utf8

namespace StringStream

/-- Writing goes on at the end of the text. -/
theorem write_end (str s : Str) :
    (⟨str, str.length⟩ : StringStream).write s = ⟨str ++ s, (str ++ s).length⟩ := by
  simp [write]

theorem writes_end (str : Str) (pieces : List Str) :
    (⟨str, str.length⟩ : StringStream).writes pieces =
      ⟨str ++ pieces.flatten, (str ++ pieces.flatten).length⟩ := by
  induction pieces generalizing str with
  | nil => simp [writes]
  | cons piece others ih =>
      rw [writes, List.foldl_cons, write_end, List.flatten_cons, ← List.append_assoc]
      exact ih (str ++ piece)

/-- The last character is overwritten. -/
theorem write_seekpBack (str : Str) (last : Char) {s : Str} (hs : s ≠ []) :
    (⟨str ++ [last], (str ++ [last]).length⟩ : StringStream).seekpBack.write s =
      ⟨str ++ s, (str ++ s).length⟩ := by
  have hlength : [last].length ≤ s.length := List.length_pos_iff.mpr hs
  simp only [write, seekpBack, overlay, List.length_append, List.length_singleton,
    Nat.add_sub_cancel, List.take_left, List.drop_left, List.drop_eq_nil_of_le hlength,
    List.append_nil]

end StringStream

namespace PaletteHandler

/-- The object of one colour. -/
def entryText (entry : Str × Str) : Str :=
  ["\n".toList, "\x7b\n".toList, "\"hex\":".toList, "\"".toList, entry.1, "\", ".toList,
    "\"name\":".toList, "\"".toList, entry.2, "\"\n".toList, "\x7d".toList].flatten

/-- The text of a palette. -/
def paletteText (entries : List (Str × Str)) : Str :=
  ["\x7b\n".toList, "\"Palette\": \x7b".toList, "\"colors\": [".toList].flatten ++
    ",".toList.intercalate (entries.map entryText) ++
      ["]\n".toList, "\x7d\n".toList, "\x7d\n".toList].flatten

section Text

variable {colors colorNames : List Str}

theorem writeColor_end {color colorName : Str} {i : Nat} (hcolor : colors[i]? = some color)
    (hname : colorNames[i]? = some colorName) (str : Str) :
    writeColor colors colorNames ⟨str, str.length⟩ i =
      .ok ⟨str ++ (entryText (color, colorName) ++ ",".toList),
        (str ++ (entryText (color, colorName) ++ ",".toList)).length⟩ := by
  have hbrace : "\x7d,".toList = "\x7d".toList ++ ",".toList := by decide +kernel
  rw [writeColor, hcolor, hname, hbrace]
  simp only [StringStream.writes_end, entryText, List.flatten_cons, List.flatten_nil,
    List.append_assoc, List.append_nil]

/-- After some passes of the loop the first entries stand in the stream. -/
theorem foldlM_writeColor (hlength : colors.length = colorNames.length) (str : Str) {n : Nat}
    (hn : n ≤ colors.length) :
    (List.range n).foldlM (writeColor colors colorNames) ⟨str, str.length⟩ =
      let entries := ((colors.zip colorNames).take n).flatMap fun entry =>
        entryText entry ++ ",".toList
      .ok ⟨str ++ entries, (str ++ entries).length⟩ := by
  induction n with
  | zero => simp [pure, Except.pure]
  | succ n ih =>
      have hcolor : colors[n]? = some colors[n] := List.getElem?_eq_getElem hn
      have hname : colorNames[n]? = some colorNames[n] :=
        List.getElem?_eq_getElem (hlength ▸ hn)
      have htake : (colors.zip colorNames).take (n + 1) =
          (colors.zip colorNames).take n ++ [(colors[n], colorNames[n])] := by
        have hzip : n < (colors.zip colorNames).length := by
          rw [List.length_zip, ← hlength, Nat.min_self]
          exact hn
        rw [← List.take_append_getElem hzip, List.getElem_zip]
      rw [List.range_succ, List.foldlM_append, ih (Nat.le_of_succ_le hn)]
      change [n].foldlM (writeColor colors colorNames) _ = _
      rw [List.foldlM_cons, writeColor_end hcolor hname, htake]
      simp only [List.flatMap_append, List.flatMap_singleton, List.append_assoc]
      rfl

theorem generateJsonResponse_eq (hcolors : colors ≠ [])
    (hlength : colors.length = colorNames.length) :
    generateJsonResponse colors colorNames = .ok (paletteText (colors.zip colorNames)) := by
  have hentries : (colors.zip colorNames).map entryText ≠ [] := by
    rw [Ne, List.map_eq_nil_iff, ← List.length_eq_zero_iff, List.length_zip, ← hlength,
      Nat.min_self, List.length_eq_zero_iff]
    exact hcolors
  have hempty : StringStream.empty = ⟨[], ([] : Str).length⟩ := rfl
  have htake : (colors.zip colorNames).take colors.length = colors.zip colorNames := by
    rw [List.take_of_length_le]
    simp [hlength]
  have hcommas : ((colors.zip colorNames).flatMap fun entry => entryText entry ++ ",".toList) =
      ",".toList.intercalate ((colors.zip colorNames).map entryText) ++ ",".toList := by
    rw [← flatMap_append_eq_intercalate _ hentries, List.flatMap_map]
  rw [generateJsonResponse]
  simp only [hempty, StringStream.writes_end, foldlM_writeColor hlength _ (le_refl _), htake,
    hcommas, ← List.append_assoc]
  have hcomma : ",".toList = [','] := rfl
  rw [hcomma]
  change Except.ok (((StringStream.seekpBack _).write _).writes _).str = _
  rw [StringStream.write_seekpBack _ _ (by decide +kernel), StringStream.writes_end]
  simp only [paletteText, List.flatten_cons, List.nil_append, List.append_assoc]
  rfl

end Text

section Reading

def hexKey : Str := ['h', 'e', 'x']

def nameKey : Str := ['n', 'a', 'm', 'e']

theorem isPlain_hexKey : ∀ c ∈ hexKey, IsPlain c := by simp [hexKey, IsPlain]

theorem isPlain_nameKey : ∀ c ∈ nameKey, IsPlain c := by simp [nameKey, IsPlain]

/-- The object that stands for a colour. -/
def entryValue (entry : Str × Str) : Value :=
  .object [(hexKey, .string entry.1), (nameKey, .string entry.2)]

/-- How a colour of a palette is looked up. -/
def pair? (value : Value) : Option (Str × Str) := do
  let hex ← value.member? hexKey
  let name ← value.member? nameKey
  return (← hex.string?, ← name.string?)

theorem member?_of_pair? {value : Value} {entry : Str × Str} (hentry : pair? value = some entry) :
    value.member? hexKey = some (.string entry.1) ∧
      value.member? nameKey = some (.string entry.2) := by
  have hstring : ∀ {found : Value} {s : Str}, found.string? = some s → found = .string s := by
    intro found s hfound
    cases found <;> cases hfound
    rfl
  simp only [pair?, Option.bind_eq_bind, Option.bind_eq_some_iff, Option.pure_def,
    Option.some.injEq] at hentry
  obtain ⟨hex, hhex, name, hname, hexText, hhexText, nameText, hnameText, rfl⟩ := hentry
  rw [hhex, hname, hstring hhexText, hstring hnameText]
  exact ⟨rfl, rfl⟩

/-- The strings of an entry need no escape. -/
def PlainEntry (entry : Str × Str) : Prop :=
  (∀ c ∈ entry.1, IsPlain c) ∧ ∀ c ∈ entry.2, IsPlain c

variable {entry : Str × Str} {value : Value} {rest : Str}

/-- The name of a colour, from its key on. -/
def nameText (entry : Str × Str) (after : Str) : Str :=
  '"' :: (nameKey ++ '"' :: ':' :: '"' :: (entry.2 ++ '"' :: '\n' :: '}' :: after))

theorem skip_entryText (entry : Str × Str) (after : Str) :
    skip (entryText entry ++ after) = '{' :: '\n' :: '"' :: (hexKey ++ '"' :: ':' :: '"' ::
      (entry.1 ++ '"' :: ',' :: ' ' :: nameText entry after)) := by
  have htext : entryText entry ++ after = '\n' :: '{' :: '\n' :: '"' :: (hexKey ++ '"' :: ':' ::
      '"' :: (entry.1 ++ '"' :: ',' :: ' ' :: nameText entry after)) := by
    simp only [entryText, List.flatten_cons, List.flatten_nil, List.append_assoc]
    rfl
  rw [htext, skip_newline]
  exact skip_cons_of_not rfl _

theorem reads_entryText (hplain : PlainEntry entry) (after : Str) :
    Json.Reads (skip (entryText entry ++ after)) (entryValue entry) after := by
  have hname : Member (' ' :: nameText entry after) (nameKey, .string entry.2)
      ('\n' :: '}' :: after) :=
    (member_string_iff isPlain_nameKey (skip_blank _)).mpr ⟨_, rfl, chars_of_plain hplain.2 _⟩
  have hhex : Member ('\n' :: '"' :: (hexKey ++ '"' :: ':' :: '"' :: (entry.1 ++ '"' :: ',' ::
      ' ' :: nameText entry after))) (hexKey, .string entry.1)
        (',' :: ' ' :: nameText entry after) :=
    (member_string_iff isPlain_hexKey (skip_newline _)).mpr ⟨_, rfl, chars_of_plain hplain.1 _⟩
  have hclose : skip ('\n' :: '}' :: after) = '}' :: after := by
    rw [skip_newline]
    exact skip_cons_of_not rfl after
  rw [skip_entryText]
  exact .object (.more hhex (skip_cons_of_not rfl _) (.last hname hclose))

/-- A hex value that is read back is plain: behind a quote that was taken into
it, the string would end in a blank. -/
theorem plain_of_chars_hex {s more later : Str}
    (hchars : Chars (s ++ '"' :: ',' :: ' ' :: '"' :: more) s later) :
    (∀ c ∈ s, IsPlain c) ∧ later = ',' :: ' ' :: '"' :: more := by
  apply hchars.plain_of_self
  intro front back hs hlast hback
  have hseparator : ∀ c ∈ [',', ' '], IsPlain c := by simp [IsPlain]
  have hread : Chars ([',', ' '] ++ '"' :: more) back later := hback
  obtain ⟨rfl, _⟩ := hread.of_plain hseparator
  simp [hs] at hlast

/-- A name that is read back is plain: behind a quote that was taken into it
comes the end of the line. -/
theorem plain_of_chars_name {s more later : Str}
    (hchars : Chars (s ++ '"' :: '\n' :: more) s later) :
    (∀ c ∈ s, IsPlain c) ∧ later = '\n' :: more := by
  apply hchars.plain_of_self
  intro front back hs hlast hback
  cases hback with
  | plain hnewline => exact absurd hnewline (by decide)

theorem plain_of_reads_entryText {after : Str}
    (hreads : Json.Reads (skip (entryText entry ++ after)) value rest)
    (hentry : pair? value = some entry) : PlainEntry entry ∧ rest = after := by
  rw [skip_entryText] at hreads
  obtain ⟨_, _, others, rfl, hfirst, hothers⟩ :=
    exists_first_member isPlain_hexKey (skip_newline _) hreads
  rw [skip_cons_of_not rfl] at hfirst
  obtain ⟨hex, rfl, hhex⟩ := exists_chars_of_reads hfirst
  obtain ⟨hhexFound, hnameFound⟩ := member?_of_pair? hentry
  cases Value.member?_object_cons_self hhexFound
  obtain ⟨hplainHex, rfl⟩ := plain_of_chars_hex hhex
  rw [skip_cons_of_not rfl] at hothers
  rcases hothers with ⟨_, hclose⟩ | ⟨further, hcomma, hothers⟩
  · cases hclose
  · cases hcomma
    obtain ⟨_, _, others, rfl, hsecond, hothers⟩ := members_iff.mp hothers
    obtain ⟨name, rfl, hname⟩ := (member_string_iff isPlain_nameKey (skip_blank _)).mp hsecond
    rw [Value.member?_object_cons_of_ne (by decide)] at hnameFound
    cases Value.member?_object_cons_self hnameFound
    obtain ⟨hplainName, rfl⟩ := plain_of_chars_name hname
    rw [skip_newline, skip_cons_of_not rfl] at hothers
    rcases hothers with ⟨_, hclose⟩ | ⟨further, hcomma, _⟩
    · cases hclose
      exact ⟨⟨hplainHex, hplainName⟩, rfl⟩
    · cases hcomma

/-- The elements of the array of colours. -/
theorem elements_entries {entries : List (Str × Str)} (hne : entries ≠ [])
    (hplain : ∀ entry ∈ entries, PlainEntry entry) (after : Str) :
    Elements (",".toList.intercalate (entries.map entryText) ++ ']' :: after)
      (entries.map entryValue) after := by
  induction entries with
  | nil => contradiction
  | cons entry others ih =>
      rw [List.forall_mem_cons] at hplain
      cases others with
      | nil =>
          simp only [List.map_cons, List.map_nil, List.intercalate_singleton]
          exact .last (reads_entryText hplain.1 _) (skip_cons_of_not rfl _)
      | cons next others =>
          rw [List.map_cons, List.map_cons, List.intercalate_cons_cons, List.append_assoc,
            List.append_assoc, List.map_cons]
          exact .more (reads_entryText hplain.1 _) (skip_cons_of_not rfl _)
            (ih (by simp) hplain.2)

theorem plain_of_elements_entries {entries : List (Str × Str)} (hne : entries ≠ [])
    {after : Str} {values : List Value}
    (helements : Elements (",".toList.intercalate (entries.map entryText) ++ ']' :: after)
      values rest) (hvalues : values.mapM pair? = some entries) :
    ∀ entry ∈ entries, PlainEntry entry := by
  induction entries generalizing values with
  | nil => contradiction
  | cons entry others ih =>
      obtain ⟨value, later, tail, rfl, hvalue, htail⟩ := elements_iff.mp helements
      simp only [List.mapM_cons, Option.bind_eq_bind, Option.bind_eq_some_iff, Option.pure_def,
        Option.some.injEq, List.cons.injEq] at hvalues
      obtain ⟨entry, hentry, others, hothers, rfl, rfl⟩ := hvalues
      cases others with
      | nil =>
          simp only [List.map_cons, List.map_nil, List.intercalate_singleton] at hvalue
          obtain ⟨hplain, _⟩ := plain_of_reads_entryText hvalue hentry
          simpa using hplain
      | cons next others =>
          rw [List.map_cons, List.map_cons, List.intercalate_cons_cons, List.append_assoc,
            List.append_assoc] at hvalue
          obtain ⟨hplain, rfl⟩ := plain_of_reads_entryText hvalue hentry
          have hskip : ∀ text : Str, skip (",".toList ++ text) = ',' :: text :=
            fun text => skip_cons_of_not rfl text
          rw [hskip] at htail
          rcases htail with ⟨_, hclose⟩ | ⟨further, hcomma, hmore⟩
          · cases hclose
          · cases hcomma
            exact List.forall_mem_cons.mpr ⟨hplain, ih (by simp) hmore hothers⟩

def paletteKey : Str := ['P', 'a', 'l', 'e', 't', 't', 'e']

def colorsKey : Str := ['c', 'o', 'l', 'o', 'r', 's']

theorem isPlain_paletteKey : ∀ c ∈ paletteKey, IsPlain c := by simp [paletteKey, IsPlain]

theorem isPlain_colorsKey : ∀ c ∈ colorsKey, IsPlain c := by simp [colorsKey, IsPlain]

/-- `Palette.colors`, as pairs of hex value and name. -/
def colors? (value : Value) : Option (List (Str × Str)) := do
  let palette ← value.member? paletteKey
  let colors ← palette.member? colorsKey
  (← colors.elements?).mapM pair?

/-- The text from the key of the colours on. -/
def colorsText (entries : List (Str × Str)) : Str :=
  '"' :: (colorsKey ++ '"' :: ':' :: ' ' :: '[' ::
    (",".toList.intercalate (entries.map entryText) ++ ']' :: '\n' :: '}' :: '\n' :: '}' :: ['\n']))

theorem skip_paletteText (entries : List (Str × Str)) :
    skip (paletteText entries) =
      '{' :: '\n' :: '"' :: (paletteKey ++ '"' :: ':' :: ' ' :: '{' :: colorsText entries) := by
  have htext : paletteText entries =
      '{' :: '\n' :: '"' :: (paletteKey ++ '"' :: ':' :: ' ' :: '{' :: colorsText entries) := by
    simp only [paletteText, List.flatten_cons, List.flatten_nil, List.append_assoc]
    rfl
  rw [htext]
  exact skip_cons_of_not rfl _

/-- The value that the text of a palette is meant to denote. -/
def paletteValue (entries : List (Str × Str)) : Value :=
  .object [(paletteKey, .object [(colorsKey, .array (entries.map entryValue))])]

theorem colors?_paletteValue (entries : List (Str × Str)) :
    colors? (paletteValue entries) = some entries := by
  have hentry : ∀ entry, pair? (entryValue entry) = some entry := fun _ => rfl
  have hentries : (entries.map entryValue).mapM pair? = some entries := by
    induction entries with
    | nil => rfl
    | cons entry others ih => simp [hentry, ih]
  exact hentries

theorem denotes_paletteText {entries : List (Str × Str)} (hne : entries ≠ [])
    (hplain : ∀ entry ∈ entries, PlainEntry entry) :
    Denotes (paletteText entries) (paletteValue entries) := by
  have hcolors : Member (colorsText entries) (colorsKey, .array (entries.map entryValue))
      ('\n' :: '}' :: '\n' :: '}' :: ['\n']) := by
    refine (member_iff isPlain_colorsKey (skip_cons_of_not rfl _)).mpr ⟨_, rfl, ?_⟩
    rw [skip_blank, skip_cons_of_not rfl]
    exact .array (elements_entries hne hplain _)
  have hpalette : Member
      ('\n' :: '"' :: (paletteKey ++ '"' :: ':' :: ' ' :: '{' :: colorsText entries))
      (paletteKey, .object [(colorsKey, .array (entries.map entryValue))])
      ('\n' :: '}' :: ['\n']) := by
    refine (member_iff isPlain_paletteKey (skip_newline _)).mpr ⟨_, rfl, ?_⟩
    rw [skip_blank, skip_cons_of_not rfl]
    exact .object (.last hcolors rfl)
  refine ⟨['\n'], ?_, rfl⟩
  rw [skip_paletteText]
  exact .object (.last hpalette rfl)

theorem plain_of_denotes_paletteText {entries : List (Str × Str)} (hne : entries ≠ [])
    (hdenotes : Denotes (paletteText entries) value) (hcolors : colors? value = some entries) :
    ∀ entry ∈ entries, PlainEntry entry := by
  obtain ⟨rest, hreads, _⟩ := hdenotes
  rw [skip_paletteText] at hreads
  simp only [colors?, Option.bind_eq_bind, Option.bind_eq_some_iff] at hcolors
  obtain ⟨palette, hpalette, colors, hcolors, values, hvalues, hentries⟩ := hcolors
  obtain ⟨_, _, _, rfl, hobject, _⟩ :=
    exists_first_member isPlain_paletteKey (skip_newline _) hreads
  cases Value.member?_object_cons_self hpalette
  rw [skip_blank, skip_cons_of_not rfl] at hobject
  obtain ⟨_, _, _, rfl, harray, _⟩ :=
    exists_first_member isPlain_colorsKey (skip_cons_of_not rfl _) hobject
  cases Value.member?_object_cons_self hcolors
  rw [skip_blank, skip_cons_of_not rfl] at harray
  obtain ⟨elements, rfl, helements⟩ := exists_elements_of_reads harray
  cases hvalues
  rcases helements with ⟨rfl, _⟩ | helements
  · cases hentries
    contradiction
  · exact plain_of_elements_entries hne helements hentries

end Reading

section Encoding

variable {entries : List (Str × Str)}

/-- The bytes of a colour and of its name. -/
def encodeEntry (entry : Str × Str) : Str × Str := (encode entry.1, encode entry.2)

def beforeHex : Str := ['\n', '{', '\n', '"', 'h', 'e', 'x', '"', ':', '"']

def beforeName : Str := ['"', ',', ' ', '"', 'n', 'a', 'm', 'e', '"', ':', '"']

def afterName : Str := ['"', '\n', '}']

/-- What stands around the strings of an entry is ASCII text. -/
theorem isAscii_around : (∀ c ∈ beforeHex, IsAscii c) ∧ (∀ c ∈ beforeName, IsAscii c) ∧
    ∀ c ∈ afterName, IsAscii c := by
  simp [beforeHex, beforeName, afterName, IsAscii]

theorem entryText_eq (entry : Str × Str) :
    entryText entry = beforeHex ++ (entry.1 ++ (beforeName ++ (entry.2 ++ afterName))) := by
  simp only [entryText, List.flatten_cons, List.flatten_nil]
  rfl

theorem encode_entryText (entry : Str × Str) :
    encode (entryText entry) = entryText (encodeEntry entry) := by
  simp only [entryText_eq, encode_append, encode_eq_self isAscii_around.1,
    encode_eq_self isAscii_around.2.1, encode_eq_self isAscii_around.2.2, encodeEntry]

theorem valid_entryText_iff (entry : Str × Str) :
    Valid (entryText entry) ↔ Valid entry.1 ∧ Valid entry.2 := by
  rw [entryText_eq, valid_isAscii_append_iff isAscii_around.1,
    valid_append_isAscii_append_iff (by simp [beforeName]) isAscii_around.2.1,
    valid_append_isAscii_iff isAscii_around.2.2]

/-- What stands before and behind the entries of a palette. -/
theorem isAscii_frame :
    (∀ c ∈ ["\x7b\n".toList, "\"Palette\": \x7b".toList, "\"colors\": [".toList].flatten,
      IsAscii c) ∧
    ∀ c ∈ ["]\n".toList, "\x7d\n".toList, "\x7d\n".toList].flatten, IsAscii c := by
  simp [IsAscii]

theorem isAscii_comma : ∀ c ∈ ",".toList, IsAscii c := by simp [IsAscii]

theorem encode_paletteText (entries : List (Str × Str)) :
    encode (paletteText entries) = paletteText (entries.map encodeEntry) := by
  have hentries : (entries.map entryText).map encode = (entries.map encodeEntry).map entryText := by
    rw [List.map_map, List.map_map]
    exact List.map_congr_left fun entry _ => encode_entryText entry
  rw [paletteText, encode_append, encode_append, encode_eq_self isAscii_frame.1,
    encode_eq_self isAscii_frame.2, encode_intercalate, encode_eq_self isAscii_comma, hentries,
    paletteText]

theorem valid_paletteText_iff (entries : List (Str × Str)) :
    Valid (paletteText entries) ↔ ∀ entry ∈ entries, Valid entry.1 ∧ Valid entry.2 := by
  rw [paletteText, valid_append_isAscii_iff isAscii_frame.2,
    valid_isAscii_append_iff isAscii_frame.1, valid_intercalate_iff (by simp) isAscii_comma,
    List.forall_mem_map]
  simp only [valid_entryText_iff]

end Encoding

/-- The response is a JSON text in UTF-8, and its `Palette.colors`, in UTF-8 again, are the
colours with their names, in order. -/
def RoundTrips (colors colorNames : List Str) : Prop :=
  ∃ response, generateJsonResponse colors colorNames = .ok response ∧
    ∃ text value entries, encode text = response ∧ Denotes text value ∧
      colors? value = some entries ∧ entries.map encodeEntry = colors.zip colorNames

/-- A string that JSON takes as it is: UTF-8, with nothing in it that needs an escape. -/
def Literal (s : Str) : Prop := Valid s ∧ ∀ c ∈ s, IsPlain c

/-- Only ASCII characters need an escape. -/
theorem literal_encode_iff (text : List Char) :
    Literal (encode text) ↔ ∀ c ∈ text, IsPlain c := by
  have hplain : ∀ c, ¬ IsAscii c → IsPlain c := by
    intro c hc
    refine ⟨?_, ?_, ?_⟩
    · rintro rfl
      exact hc (by simp [IsAscii])
    · rintro rfl
      exact hc (by simp [IsAscii])
    · rw [IsAscii] at hc
      omega
  rw [Literal, forall_mem_encode_iff hplain]
  exact and_iff_right (valid_encode text)

theorem Literal.exists_encode {s : Str} (hs : Literal s) :
    ∃ text, encode text = s ∧ ∀ c ∈ text, IsPlain c := by
  obtain ⟨text, rfl⟩ := hs.1
  exact ⟨text, rfl, (literal_encode_iff text).mp hs⟩

section RoundTrip

variable {colors colorNames : List Str} (hcolors : colors ≠ [])
  (hlength : colors.length = colorNames.length)

include hcolors hlength

theorem zip_ne_nil : colors.zip colorNames ≠ [] := by
  rw [Ne, ← List.length_eq_zero_iff, List.length_zip, ← hlength, Nat.min_self,
    List.length_eq_zero_iff]
  exact hcolors

theorem literal_of_roundTrips (hround : RoundTrips colors colorNames) :
    ∀ entry ∈ colors.zip colorNames, Literal entry.1 ∧ Literal entry.2 := by
  obtain ⟨response, hresponse, text, value, entries, htext, hdenotes, hvalue, hentries⟩ := hround
  cases (generateJsonResponse_eq hcolors hlength).symm.trans hresponse
  have hne : entries ≠ [] := by
    rintro rfl
    exact zip_ne_nil hcolors hlength hentries.symm
  rw [← hentries, ← encode_paletteText] at htext
  cases encode_injective htext
  have hplain := plain_of_denotes_paletteText hne hdenotes hvalue
  rw [← hentries, List.forall_mem_map]
  intro entry hentry
  exact ⟨(literal_encode_iff _).mpr (hplain entry hentry).1,
    (literal_encode_iff _).mpr (hplain entry hentry).2⟩

theorem roundTrips_of_literal
    (hliteral : ∀ entry ∈ colors.zip colorNames, Literal entry.1 ∧ Literal entry.2) :
    RoundTrips colors colorNames := by
  have hrange : ∀ entry ∈ colors.zip colorNames,
      ∃ texts, PlainEntry texts ∧ encodeEntry texts = entry := by
    intro entry hentry
    obtain ⟨hex, hhex, hplainHex⟩ := (hliteral entry hentry).1.exists_encode
    obtain ⟨name, hname, hplainName⟩ := (hliteral entry hentry).2.exists_encode
    exact ⟨(hex, name), ⟨hplainHex, hplainName⟩, Prod.ext hhex hname⟩
  choose! textsOf hplain hencode using hrange
  have hentries : ((colors.zip colorNames).map textsOf).map encodeEntry =
      colors.zip colorNames := by
    rw [List.map_map]
    exact (List.map_congr_left hencode).trans (List.map_id _)
  have hne : (colors.zip colorNames).map textsOf ≠ [] :=
    fun hnil => zip_ne_nil hcolors hlength (List.map_eq_nil_iff.mp hnil)
  refine ⟨_, generateJsonResponse_eq hcolors hlength, _, _, _, ?_,
    denotes_paletteText hne (List.forall_mem_map.mpr hplain), colors?_paletteValue _, hentries⟩
  rw [encode_paletteText, hentries]

/-- A palette comes back exactly if every colour and every name is UTF-8 without a quote,
a backslash or a control character. -/
theorem roundTrips_iff :
    RoundTrips colors colorNames ↔
      (∀ color ∈ colors, Valid color ∧ ∀ c ∈ color, IsPlain c) ∧
        ∀ name ∈ colorNames, Valid name ∧ ∀ c ∈ name, IsPlain c := by
  have hhex : (∀ color ∈ colors, Literal color) ↔
      ∀ entry ∈ colors.zip colorNames, Literal entry.1 := by
    rw [← List.forall_mem_map (f := Prod.fst) (P := Literal), List.map_fst_zip hlength.le]
  have hname : (∀ name ∈ colorNames, Literal name) ↔
      ∀ entry ∈ colors.zip colorNames, Literal entry.2 := by
    rw [← List.forall_mem_map (f := Prod.snd) (P := Literal), List.map_snd_zip hlength.ge]
  change _ ↔ (∀ color ∈ colors, Literal color) ∧ ∀ name ∈ colorNames, Literal name
  rw [hhex, hname, ← forall₂_and]
  exact ⟨literal_of_roundTrips hcolors hlength, roundTrips_of_literal hcolors hlength⟩

end RoundTrip

end PaletteHandler

namespace PaletteJsonWitness

open PaletteHandler

/-- The hex value of red. -/
def red : Str := ['#', 'f', 'f', '0', '0', '0', '0']

def coffee : Str := ['#', '6', 'f', '4', 'e', '3', '7']

/-- The bytes of a name with an accent. -/
def cafe : Str := ['C', 'a', 'f', '\xc3', '\xa9']

theorem valid_cafe : Valid cafe := ⟨['C', 'a', 'f', 'é'], by decide⟩

theorem roundTrips_red : RoundTrips [red, coffee] [['R', 'e', 'd'], cafe] := by
  have hascii : ∀ {s : Str}, (∀ c ∈ s, IsAscii c) → Valid s :=
    fun hs => ⟨_, encode_eq_self hs⟩
  have hlength : [red, coffee].length = [['R', 'e', 'd'], cafe].length := rfl
  refine (roundTrips_iff (by simp) hlength).mpr ?_
  simp only [List.forall_mem_cons]
  refine ⟨⟨⟨hascii ?_, ?_⟩, ⟨hascii ?_, ?_⟩, ?_⟩, ⟨hascii ?_, ?_⟩, ⟨valid_cafe, ?_⟩, ?_⟩
  all_goals simp [red, coffee, cafe, IsPlain, IsAscii]

/-- A name with a quote in it, which ends its JSON string. -/
def quoted : Str := ['a', '"', 'b']

/-- A colour that `parse_html` cut off behind the first byte of a character. -/
def cut : Str := ['#', 'f', 'f', '0', '0', '0', '\xc3']

theorem not_valid_cut : ¬ Valid cut := by
  intro hvalid
  have hsplit : Valid (['#', 'f', 'f', '0', '0', '0'] ++ ['\xc3']) ↔ Valid ['\xc3'] :=
    valid_isAscii_append_iff (by simp [IsAscii])
  exact not_valid_singleton (by simp [IsAscii]) (hsplit.mp hvalid)

theorem not_roundTrips_quoted :
    (generateJsonResponse [red] [quoted] = .ok (paletteText [(red, quoted)]) ∧
      ¬ RoundTrips [red] [quoted]) ∧
    generateJsonResponse [cut] [['R', 'e', 'd']] = .ok (paletteText [(cut, ['R', 'e', 'd'])]) ∧
      ¬ Valid (paletteText [(cut, ['R', 'e', 'd'])]) ∧ ¬ RoundTrips [cut] [['R', 'e', 'd']] := by
  have hne : ∀ color : Str, [color] ≠ [] := fun color => List.cons_ne_nil color []
  have hsame : ∀ color name : Str, [color].length = [name].length := fun _ _ => rfl
  refine ⟨⟨generateJsonResponse_eq (hne red) rfl, fun hround => ?_⟩,
    generateJsonResponse_eq (hne cut) rfl, fun hvalid => ?_, fun hround => ?_⟩
  · have hliteral := literal_of_roundTrips (hne red) (hsame _ _) hround _ List.mem_cons_self
    exact absurd (hliteral.2.2 '"' (by decide)) (by decide)
  · exact not_valid_cut ((valid_paletteText_iff _).mp hvalid _ List.mem_cons_self).1
  · have hliteral := literal_of_roundTrips (hne cut) (hsame _ _) hround _ List.mem_cons_self
    exact not_valid_cut hliteral.1.1

end PaletteJsonWitness

end SwanServer
