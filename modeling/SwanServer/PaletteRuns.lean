/-
Runs of the palette handler against arbitrary pages and failures.  The names of
a palette are fetched one after the other, so a run is described by the answers
up to the first one that ends it.
-/
import SwanServer.ColorScan
import SwanServer.PaletteInput
import SwanServer.PaletteJson

namespace SwanServer

open Dialogue TextSearch

namespace PaletteApi

variable {tree : PropertyTree} {answers : Nat → Except CurlError Str} {k : Nat}

section Catch

variable {α : Type}

theorem result_catchCurl (act : Web α) (value : α) :
    (catchCurl act value).result answers k =
      match act.result answers k with
      | .error (.curl _) => .ok value
      | outcome => outcome := by
  cases hact : act.result answers k with
  | ok => exact result_handle_ok hact
  | error fault =>
      refine (result_handle_error hact).trans ?_
      cases fault <;> rfl

theorem asked_catchCurl (act : Web α) (value : α) :
    (catchCurl act value).asked answers k = act.asked answers k := by
  refine asked_handle fun fault k => ?_
  cases fault <;> rfl

theorem result_fetch (answers : Nat → Except CurlError Str) (k : Nat) (url : Str) :
    (fetch url).result answers k = (answers k).mapError .curl := by
  rw [fetch, result]
  cases answers k <;> rfl

theorem asked_fetch (answers : Nat → Except CurlError Str) (k : Nat) (url : Str) :
    (fetch url).asked answers k = [url] := by
  rw [fetch, asked]
  cases answers k <;> rfl

/-- A page that is fetched and parsed: only the failures of curlpp are caught. -/
theorem result_catchCurl_page {parse : Str → Except PaletteFault α}
    (hparse : ∀ page error, parse page ≠ .error (.curl error)) (url : Str) (value : α) :
    (catchCurl (do let page ← fetch url; .ofExcept (parse page)) value).result answers k =
      match answers k with
      | .error _ => .ok value
      | .ok page => parse page := by
  have hfetch := result_fetch answers k url
  rw [result_catchCurl]
  cases hanswer : answers k with
  | error error =>
      rw [hanswer] at hfetch
      rw [result_bind_error hfetch]
  | ok page =>
      rw [hanswer] at hfetch
      rw [result_bind_ok hfetch, result_ofExcept]
      cases houtcome : parse page with
      | ok => exact houtcome.symm
      | error fault =>
          cases fault with
          | curl error => exact absurd houtcome (hparse page error)
          | outOfRange | propertyTreeError | undefinedBehaviour => exact houtcome.symm

theorem asked_catchCurl_page (parse : Str → Except PaletteFault α) (url : Str) (value : α) :
    (catchCurl (do let page ← fetch url; .ofExcept (parse page)) value).asked answers k =
      [url] := by
  have hfetch := result_fetch answers k url
  rw [asked_catchCurl]
  cases hanswer : answers k with
  | error error =>
      rw [hanswer] at hfetch
      rw [asked_bind_error hfetch, asked_fetch]
  | ok page =>
      rw [hanswer] at hfetch
      rw [asked_bind_ok hfetch, asked_ofExcept, List.append_nil, asked_fetch]

end Catch

section Colors

theorem hexDiv_ne_nil : hexDiv ≠ [] := by decide +kernel

theorem extractHex_ne_curl (page : Str) (error : CurlError) :
    extractHex page ≠ .error (.curl error) := by
  rw [extractHex]
  split
  · rw [substr]
    split <;> simp
  · simp

/-- The mark of the colour stands at the very end of the page. -/
def EndsAtMark (page : Str) : Prop :=
  ∃ found, IsFirst hexDiv page 0 found ∧ found + hexDiv.length = page.length

/-- There is something behind the mark and the character that follows it. -/
def HasHex (page : Str) : Prop :=
  ∃ found, IsFirst hexDiv page 0 found ∧ found + hexDiv.length + 1 < page.length

theorem extractHex_of_endsAtMark {page : Str} (hends : EndsAtMark page) :
    extractHex page = .error .outOfRange := by
  obtain ⟨found, hfound, hlength⟩ := hends
  rw [extractHex, (find?_eq_some_iff hexDiv_ne_nil).mpr hfound]
  exact if_neg (by omega)

theorem exists_extractHex {page : Str} (hends : ¬ EndsAtMark page) :
    ∃ color, extractHex page = .ok color ∧ (color ≠ [] ↔ HasHex page) := by
  rw [extractHex]
  cases hfind : find? hexDiv page 0 with
  | none =>
      refine ⟨[], rfl, iff_of_false (not_not_intro rfl) ?_⟩
      rintro ⟨found, hfound, _⟩
      exact (find?_eq_none_iff hexDiv_ne_nil).mp hfind found hfound.1 hfound.2.1
  | some found =>
      have hfound := (find?_eq_some_iff hexDiv_ne_nil).mp hfind
      have hlength := hfound.2.1.add_length_le hexDiv_ne_nil
      have hne : found + hexDiv.length ≠ page.length := fun h => hends ⟨found, hfound, h⟩
      have hcolor : (page.drop (found + hexDiv.length + 1)).take (hexLength - 1) ≠ [] ↔
          found + hexDiv.length + 1 < page.length := by
        simp [hexLength]
      refine ⟨_, if_pos (by omega), hcolor.trans ?_⟩
      constructor
      · intro hlt
        exact ⟨found, hfound, hlt⟩
      · rintro ⟨other, hother, hlt⟩
        rwa [hfound.unique hother]

theorem getColor_result (answers : Nat → Except CurlError Str) (k : Nat) (word : Str) :
    (getColor word).result answers k =
      match answers k with
      | .error _ => .ok []
      | .ok page => extractHex page :=
  result_catchCurl_page extractHex_ne_curl _ _

theorem getColor_asked (answers : Nat → Except CurlError Str) (k : Nat) (word : Str) :
    (getColor word).asked answers k = [colorUrl (replaceSpaces word)] :=
  asked_catchCurl_page _ _ _

theorem exists_parseHtml (html : Str) : ∃ colors, parseHtml html = .ok colors := by
  rcases parseHtml_cases html with ⟨_, _, _, _, hparse⟩ | ⟨_, hparse⟩ <;> exact ⟨_, hparse⟩

theorem getPalette_result (answers : Nat → Except CurlError Str) (k : Nat) (color : Str) :
    (getPalette color).result answers k =
      match answers k with
      | .error _ => .ok []
      | .ok page => parseHtml page := by
  refine result_catchCurl_page (fun page error hparse => ?_) _ _
  obtain ⟨colors, hcolors⟩ := exists_parseHtml page
  rw [hcolors] at hparse
  contradiction

theorem getColors_of_nil {word : Str} (hcolor : (getColor word).result answers k = .ok []) :
    (getColors word).result answers k = .ok [] := by
  rw [getColors, result_bind_ok hcolor, if_pos rfl]
  rfl

/-- A colour is followed by the question for its palette. -/
theorem getColors_of_ne_nil {word color : Str} (hne : color ≠ [])
    (hcolor : (getColor word).result answers k = .ok color) :
    (getColors word).result answers k = (getPalette color).result answers (k + 1) ∧
      ((getColors word).asked answers k).length = 2 := by
  rw [getColors, result_bind_ok hcolor, asked_bind_ok hcolor, if_neg hne, getColor_asked,
    getPalette, asked_catchCurl_page]
  exact ⟨rfl, rfl⟩

/-- What can come of the first two services. -/
theorem getColors_cases (answers : Nat → Except CurlError Str) (k : Nat) (word : Str) :
    (∃ page, answers k = .ok page ∧ EndsAtMark page ∧
      (getColors word).result answers k = .error .outOfRange) ∨
    (∀ page, answers k = .ok page → ¬ EndsAtMark page) ∧
      ((getColors word).result answers k = .ok [] ∧
          (∀ page html, answers k = .ok page → HasHex page → answers (k + 1) ≠ .ok html) ∨
        ∃ page html, answers k = .ok page ∧ HasHex page ∧ answers (k + 1) = .ok html ∧
          (getColors word).result answers k = parseHtml html ∧
          ((getColors word).asked answers k).length = 2) := by
  have hcolor := getColor_result answers k word
  cases hanswer : answers k with
  | error error =>
      rw [hanswer] at hcolor
      exact .inr ⟨fun _ hpage => (nomatch hpage),
        .inl ⟨getColors_of_nil hcolor, fun _ _ hpage => (nomatch hpage)⟩⟩
  | ok page =>
      rw [hanswer] at hcolor
      by_cases hends : EndsAtMark page
      · refine .inl ⟨page, rfl, hends, ?_⟩
        rw [getColors, result_bind_error (hcolor.trans (extractHex_of_endsAtMark hends))]
      obtain ⟨color, hextract, hhas⟩ := exists_extractHex hends
      have hresult := hcolor.trans hextract
      refine .inr ⟨fun other hother => by cases hother; exact hends, ?_⟩
      by_cases hempty : color = []
      · refine .inl ⟨getColors_of_nil (hempty ▸ hresult), fun other _ hother hhex => ?_⟩
        cases hother
        exact absurd hempty (hhas.mpr hhex)
      obtain ⟨hpalette, hasked⟩ := getColors_of_ne_nil hempty hresult
      rw [getPalette_result] at hpalette
      cases hlater : answers (k + 1) with
      | error error =>
          rw [hlater] at hpalette
          exact .inl ⟨hpalette, fun _ _ _ _ hhtml => nomatch hhtml⟩
      | ok html =>
          rw [hlater] at hpalette
          exact .inr ⟨page, html, rfl, hhas.mp hempty, rfl, hpalette, hasked⟩

theorem getColors_ne_undefinedBehaviour (answers : Nat → Except CurlError Str) (k : Nat)
    (word : Str) : (getColors word).result answers k ≠ .error .undefinedBehaviour := by
  rcases getColors_cases answers k word with
    ⟨_, _, _, hresult⟩ | ⟨_, ⟨hresult, _⟩ | ⟨_, html, _, _, _, hresult, _⟩⟩
  · simp [hresult]
  · simp [hresult]
  · obtain ⟨colors, hcolors⟩ := exists_parseHtml html
    simp [hresult, hcolors]

end Colors

section Names

theorem orThrow_cases {α : Type} (found : Option α) :
    (∃ value, orThrow found = .ok value) ∨ orThrow found = .error .propertyTreeError := by
  cases found with
  | none => exact .inr rfl
  | some value => exact .inl ⟨value, rfl⟩

/-- `parse_json` returns a name or leaves with an exception of the property tree. -/
theorem parseJson_cases (tree : PropertyTree) (page : Str) :
    (∃ name, parseJson tree page = .ok name) ∨
      parseJson tree page = .error .propertyTreeError := by
  rw [parseJson]
  rcases orThrow_cases (tree.readJson page) with ⟨jsonTree, hread⟩ | hread
  · rw [hread]
    change (∃ name, (orThrow (tree.getChild jsonTree _) >>= _) = .ok name) ∨
      (orThrow (tree.getChild jsonTree _) >>= _) = .error .propertyTreeError
    rcases orThrow_cases (tree.getChild jsonTree "name".toList) with ⟨name, hchild⟩ | hchild
    · rw [hchild]
      exact orThrow_cases (tree.getString name "value".toList)
    · rw [hchild]
      exact .inr rfl
  · rw [hread]
    exact .inr rfl

variable {color : Str}

/-- What can come of one name. -/
theorem getName_cases (tree : PropertyTree) (answers : Nat → Except CurlError Str) (k : Nat)
    (hcolor : color ≠ []) (colorNames : List Str) :
    (∃ error, answers k = .error error ∧
      (getName tree colorNames color).result answers k = .error (.curl error)) ∨
    (∃ page, answers k = .ok page ∧ parseJson tree page = .error .propertyTreeError ∧
      (getName tree colorNames color).result answers k = .error .propertyTreeError) ∨
    ∃ page name, answers k = .ok page ∧ parseJson tree page = .ok name ∧
      (getName tree colorNames color).result answers k = .ok (colorNames ++ [name]) := by
  have hfetch := result_fetch answers k (nameUrl color.tail)
  rw [getName, substr_hash hcolor, result_bind_ok rfl, asked_ofExcept, List.length_nil,
    Nat.add_zero]
  cases hanswer : answers k with
  | error error =>
      rw [hanswer] at hfetch
      exact .inl ⟨error, rfl, result_bind_error hfetch⟩
  | ok page =>
      rw [hanswer] at hfetch
      rw [result_bind_ok hfetch]
      rcases parseJson_cases tree page with ⟨name, hname⟩ | hfault
      · refine .inr (.inr ⟨page, name, rfl, hname, ?_⟩)
        rw [hname]
        exact result_bind_ok (result_ofExcept _ _ _)
      · refine .inr (.inl ⟨page, rfl, hfault, ?_⟩)
        rw [hfault]
        exact result_bind_error (result_ofExcept _ _ _)

theorem getName_asked (tree : PropertyTree) (answers : Nat → Except CurlError Str) (k : Nat)
    (hcolor : color ≠ []) (colorNames : List Str) :
    (getName tree colorNames color).asked answers k = [nameUrl color.tail] := by
  have hfetch := result_fetch answers k (nameUrl color.tail)
  rw [getName, substr_hash hcolor, asked_bind_ok rfl, asked_ofExcept, List.nil_append,
    List.length_nil, Nat.add_zero]
  cases hanswer : answers k with
  | error error =>
      rw [hanswer] at hfetch
      rw [asked_bind_error hfetch, asked_fetch]
  | ok page =>
      rw [hanswer] at hfetch
      rw [asked_bind_ok hfetch, asked_fetch]
      cases parseJson tree page with
      | error fault =>
          rw [asked_bind_error (result_ofExcept _ _ _), asked_ofExcept, List.append_nil]
      | ok name =>
          rw [asked_bind_ok (result_ofExcept _ _ _), asked_ofExcept, asked_pure, List.append_nil,
            List.append_nil]

theorem getName_of_nil (colorNames : List Str) :
    (getName tree colorNames []).result answers k = .error .outOfRange := rfl

/-- The names are those of the pages of their colours, in order. -/
structure Aligned (tree : PropertyTree) (answers : Nat → Except CurlError Str) (k : Nat)
    (colors : List Str) (asked names : List Str) : Prop where
  length : names.length = colors.length
  asked : asked = colors.map fun color => nameUrl color.tail
  name : ∀ i name, names[i]? = some name →
    ∃ page, answers (k + i) = .ok page ∧ parseJson tree page = .ok name

theorem exists_aligned_of_foldlM {colors colorNames names : List Str}
    (hnames : (colors.foldlM (getName tree) colorNames).result answers k = .ok names) :
    ∃ later, names = colorNames ++ later ∧ Aligned tree answers k colors
      ((colors.foldlM (getName tree) colorNames).asked answers k) later := by
  induction colors generalizing k colorNames with
  | nil =>
      cases hnames
      exact ⟨[], by simp, rfl, rfl, by simp⟩
  | cons color others ih =>
      rw [List.foldlM_cons] at hnames ⊢
      have hcolor : color ≠ [] := by
        rintro rfl
        rw [result_bind_error (getName_of_nil colorNames)] at hnames
        contradiction
      rcases getName_cases tree answers k hcolor colorNames with
        ⟨_, _, hresult⟩ | ⟨_, _, _, hresult⟩ | ⟨page, name, hanswer, hparse, hresult⟩
      · rw [result_bind_error hresult] at hnames
        contradiction
      · rw [result_bind_error hresult] at hnames
        contradiction
      · have hasked := getName_asked tree answers k hcolor colorNames
        rw [result_bind_ok hresult, hasked] at hnames
        obtain ⟨later, rfl, haligned⟩ := ih hnames
        rw [asked_bind_ok hresult, hasked]
        refine ⟨name :: later, by simp, ?_, ?_, ?_⟩
        · rw [List.length_cons, List.length_cons, haligned.length]
        · exact congrArg (nameUrl color.tail :: ·) haligned.asked
        · intro i found hfound
          cases i with
          | zero =>
              cases hfound
              exact ⟨page, hanswer, hparse⟩
          | succ i =>
              have hlater := haligned.name i found hfound
              rwa [List.length_singleton, Nat.add_assoc, Nat.add_comm 1] at hlater

/-- A run of name pages that is over before a page without a name comes. -/
def Readable (tree : PropertyTree) (answers : Nat → Except CurlError Str) (k n : Nat) : Prop :=
  ∀ i < n, (∀ j < i, ∃ page, answers (k + j) = .ok page) →
    ∀ page, answers (k + i) = .ok page → ∃ name, parseJson tree page = .ok name

theorem readable_succ (tree : PropertyTree) (answers : Nat → Except CurlError Str) (k n : Nat) :
    Readable tree answers k (n + 1) ↔ ∀ page, answers k = .ok page →
      (∃ name, parseJson tree page = .ok name) ∧ Readable tree answers (k + 1) n := by
  constructor
  · intro hreadable page hpage
    refine ⟨hreadable 0 (Nat.succ_pos n) (fun _ hj => absurd hj (Nat.not_lt_zero _)) page hpage, ?_⟩
    intro i hi hbefore other hother
    rw [Nat.add_assoc, Nat.add_comm 1] at hother
    refine hreadable (i + 1) (Nat.succ_lt_succ hi) (fun j hj => ?_) other hother
    cases j with
    | zero => exact ⟨page, hpage⟩
    | succ j =>
        rw [Nat.add_comm j, ← Nat.add_assoc]
        exact hbefore j (Nat.lt_of_succ_lt_succ hj)
  · intro hrest i hi hbefore other hother
    cases i with
    | zero => exact (hrest other hother).1
    | succ i =>
        obtain ⟨page, hpage⟩ := hbefore 0 (Nat.succ_pos i)
        refine (hrest page hpage).2 i (Nat.lt_of_succ_lt_succ hi) (fun j hj => ?_) other ?_
        · rw [Nat.add_assoc, Nat.add_comm 1]
          exact hbefore (j + 1) (Nat.succ_lt_succ hj)
        · rw [Nat.add_assoc, Nat.add_comm 1]
          exact hother

/-- The outcomes that the catch blocks let return. -/
def Caught {α : Type} (outcome : Except PaletteFault α) : Prop :=
  (∃ value, outcome = .ok value) ∨ ∃ error, outcome = .error (.curl error)

theorem caught_foldlM_iff {colors : List Str} (hcolors : ∀ color ∈ colors, color ≠ [])
    (colorNames : List Str) :
    Caught ((colors.foldlM (getName tree) colorNames).result answers k) ↔
      Readable tree answers k colors.length := by
  induction colors generalizing k colorNames with
  | nil => exact iff_of_true (.inl ⟨_, rfl⟩) fun i hi => absurd hi (Nat.not_lt_zero i)
  | cons color others ih =>
      rw [List.forall_mem_cons] at hcolors
      rw [List.foldlM_cons, List.length_cons, readable_succ]
      rcases getName_cases tree answers k hcolors.1 colorNames with
        ⟨error, hanswer, hresult⟩ | ⟨page, hanswer, hfault, hresult⟩ |
          ⟨page, name, hanswer, hname, hresult⟩
      · rw [result_bind_error hresult, hanswer]
        exact iff_of_true (.inr ⟨error, rfl⟩) fun page hpage => nomatch hpage
      · rw [result_bind_error hresult]
        refine iff_of_false (by simp [Caught]) fun hrest => ?_
        obtain ⟨⟨name, hname⟩, _⟩ := hrest page hanswer
        rw [hfault] at hname
        contradiction
      · rw [result_bind_ok hresult, getName_asked tree answers k hcolors.1, ih hcolors.2, hanswer]
        constructor
        · intro hrest other hother
          cases hother
          exact ⟨⟨name, hname⟩, hrest⟩
        · intro hrest
          exact (hrest page rfl).2

theorem exists_getNames_iff {colors : List Str} (hcolors : ∀ color ∈ colors, color ≠ []) :
    (∃ names, (getNames tree colors).result answers k = .ok names) ↔
      Readable tree answers k colors.length := by
  rw [← caught_foldlM_iff hcolors [], getNames, result_catchCurl]
  cases (colors.foldlM (getName tree) []).result answers k with
  | ok names => exact iff_of_true ⟨names, rfl⟩ (.inl ⟨names, rfl⟩)
  | error fault =>
      cases fault with
      | curl error => exact iff_of_true ⟨[], rfl⟩ (.inr ⟨error, rfl⟩)
      | outOfRange | propertyTreeError | undefinedBehaviour => simp [Caught]

theorem getNames_ne_undefinedBehaviour (tree : PropertyTree)
    (answers : Nat → Except CurlError Str) (k : Nat) (colors : List Str) :
    (getNames tree colors).result answers k ≠ .error .undefinedBehaviour := by
  have hstep : ∀ colorNames color k,
      (getName tree colorNames color).result answers k ≠ .error .undefinedBehaviour := by
    intro colorNames color k
    by_cases hcolor : color = []
    · rw [hcolor, getName_of_nil]
      simp
    · rcases getName_cases tree answers k hcolor colorNames with
        ⟨_, _, hresult⟩ | ⟨_, _, _, hresult⟩ | ⟨_, _, _, _, hresult⟩ <;> simp [hresult]
  have hloop : ∀ colorNames k, (colors.foldlM (getName tree) colorNames).result answers k ≠
      .error .undefinedBehaviour := by
    induction colors with
    | nil => exact fun _ _ h => nomatch h
    | cons color others ih =>
        intro colorNames k
        exact result_bind_ne_error (hstep colorNames color k) fun later _ => ih later _
  rw [getNames, result_catchCurl]
  cases hresult : (colors.foldlM (getName tree) []).result answers k with
  | ok => simp
  | error fault =>
      cases fault with
      | curl => simp
      | undefinedBehaviour => exact absurd hresult (hloop [] k)
      | outOfRange | propertyTreeError => simp

/-- What `get_names` returns is empty or aligned with the colours. -/
theorem aligned_of_getNames {colors names : List Str}
    (hnames : (getNames tree colors).result answers k = .ok names) :
    names = [] ∨
      Aligned tree answers k colors ((getNames tree colors).asked answers k) names := by
  rw [getNames, result_catchCurl] at hnames
  rw [getNames, asked_catchCurl]
  cases hloop : (colors.foldlM (getName tree) []).result answers k with
  | ok found =>
      rw [hloop] at hnames
      cases hnames
      obtain ⟨later, hlater, haligned⟩ := exists_aligned_of_foldlM hloop
      rw [List.nil_append] at hlater
      rw [hlater]
      exact .inr haligned
  | error fault =>
      rw [hloop] at hnames
      cases fault with
      | curl error =>
          cases hnames
          exact .inl rfl
      | outOfRange | propertyTreeError | undefinedBehaviour => contradiction

end Names

end PaletteApi

namespace PaletteHandler

open PaletteApi

variable {tree : PropertyTree} {answers : Nat → Except CurlError Str} {httpRequest : Request}
  {httpResponse : Response} {colors names : List Str}

/-- The handler returns, with one of the two statuses for a valid body. -/
def Returns (tree : PropertyTree) (answers : Nat → Except CurlError Str) (httpRequest : Request)
    (httpResponse : Response) : Prop :=
  ∃ handled response,
    (handleRequest tree httpRequest httpResponse).result answers 0 = .ok (handled, response) ∧
      (response.result = .ok ∨ response.result = .internalServerError)

/-- With lists that match, an answer is made. -/
theorem exists_respond (answers : Nat → Except CurlError Str) (k : Nat) (httpResponse : Response)
    (hnames : names = [] ∨ names.length = colors.length) :
    ∃ handled response, (respond httpResponse colors names).result answers k =
        .ok (handled, response) ∧
      (response.result = .ok ∨ response.result = .internalServerError) := by
  rw [respond]
  split
  · exact ⟨_, _, rfl, .inr rfl⟩
  · next hlists =>
      simp only [Bool.or_eq_true, List.isEmpty_iff, not_or] at hlists
      rw [generateJsonResponse_eq hlists.1 (hnames.resolve_left hlists.2).symm]
      exact ⟨_, _, rfl, .inl rfl⟩

theorem result_handleRequest (hmethod : httpRequest.method = "POST".toList)
    (hvalid : validInput (trimWhitespace httpRequest.body) = true) :
    (handleRequest tree httpRequest httpResponse).result answers 0 =
      (do
        let colors ← getColors (trimWhitespace httpRequest.body)
        let colorNames ← getNames tree colors
        respond httpResponse colors colorNames).result answers 0 := by
  rw [handleRequest, if_neg (not_not_intro hmethod), if_neg (by simp [hvalid])]

/-- Once the colours are there, it is up to the names whether a run returns. -/
theorem returns_iff_readable (hmethod : httpRequest.method = "POST".toList)
    (hvalid : validInput (trimWhitespace httpRequest.body) = true)
    (hcolors : (getColors (trimWhitespace httpRequest.body)).result answers 0 = .ok colors)
    (hne : ∀ color ∈ colors, color ≠ []) :
    Returns tree answers httpRequest httpResponse ↔
      Readable tree answers
        ((getColors (trimWhitespace httpRequest.body)).asked answers 0).length colors.length := by
  rw [← exists_getNames_iff hne, Returns, result_handleRequest hmethod hvalid,
    result_bind_ok hcolors, Nat.zero_add]
  cases hnames : (getNames tree colors).result answers
      ((getColors (trimWhitespace httpRequest.body)).asked answers 0).length with
  | error fault =>
      rw [result_bind_error hnames]
      simp
  | ok names =>
      rw [result_bind_ok hnames]
      exact iff_of_true
        (exists_respond _ _ _ ((aligned_of_getNames hnames).imp_right Aligned.length)) ⟨_, rfl⟩

/-- A valid body is answered exactly if the colour page does not end at its mark
and no page without a name comes before the names are over. -/
theorem returns_iff (hmethod : httpRequest.method = "POST".toList)
    (hvalid : validInput (trimWhitespace httpRequest.body) = true) :
    Returns tree answers httpRequest httpResponse ↔
      (∀ page, answers 0 = .ok page → ¬ EndsAtMark page) ∧
        ∀ page html start finish, answers 0 = .ok page → HasHex page → answers 1 = .ok html →
          IsFirst palette html 0 start → IsFirst endDiv html start finish →
            Readable tree answers 2 (occurrences colorDiv html start finish).length := by
  have hnothing : (getColors (trimWhitespace httpRequest.body)).result answers 0 = .ok [] →
      Returns tree answers httpRequest httpResponse := fun hcolors =>
    (returns_iff_readable hmethod hvalid hcolors (by simp)).mpr
      fun i hi => absurd hi (Nat.not_lt_zero i)
  rcases getColors_cases answers 0 (trimWhitespace httpRequest.body) with
    ⟨page, hpage, hends, hresult⟩ |
      ⟨hmark, ⟨hresult, hnone⟩ | ⟨page, html, hpage, hhex, hhtml, hresult, hasked⟩⟩
  · refine iff_of_false ?_ fun hmark => hmark.1 page hpage hends
    rw [Returns, result_handleRequest hmethod hvalid, result_bind_error hresult]
    simp
  · refine iff_of_true (hnothing hresult) ⟨hmark, ?_⟩
    intro page html _ _ hpage hhex hhtml
    exact absurd hhtml (hnone page html hpage hhex)
  · rcases parseHtml_cases html with ⟨start, finish, hstart, hfinish, hparse⟩ | ⟨habsent, hparse⟩
    · have hne : ∀ color ∈ (occurrences colorDiv html start finish).map (colorAt html),
          color ≠ [] := by
        intro color hcolor hnil
        have hlength := length_of_parseHtml hparse color hcolor
        rw [hnil] at hlength
        contradiction
      rw [returns_iff_readable hmethod hvalid (hresult.trans hparse) hne, hasked, List.length_map]
      constructor
      · intro hreadable
        refine ⟨hmark, ?_⟩
        intro _ other first last _ _ hother hfirst hlast
        cases hhtml.symm.trans hother
        cases hstart.unique hfirst
        cases hfinish.unique hlast
        exact hreadable
      · intro hreadable
        exact hreadable.2 page html start finish hpage hhex hhtml hstart hfinish
    · refine iff_of_true (hnothing (hresult.trans hparse)) ⟨hmark, ?_⟩
      intro _ other start finish _ _ hother hstart hfinish
      cases hhtml.symm.trans hother
      exact absurd hfinish.2.1 (habsent start hstart finish hfinish.1)

theorem handleRequest_ne_undefinedBehaviour (tree : PropertyTree)
    (answers : Nat → Except CurlError Str) (httpRequest : Request) (httpResponse : Response) :
    (handleRequest tree httpRequest httpResponse).result answers 0 ≠
      .error .undefinedBehaviour := by
  by_cases hrefused : httpRequest.method ≠ "POST".toList ∨
      validInput (trimWhitespace httpRequest.body) = false
  · obtain ⟨_, _, hanswer⟩ := handleRequest_badRequest tree httpResponse hrefused
    rw [hanswer]
    exact fun h => nomatch h
  · simp only [ne_eq, not_or, not_not, Bool.not_eq_false] at hrefused
    rw [result_handleRequest hrefused.1 hrefused.2]
    refine result_bind_ne_error (getColors_ne_undefinedBehaviour _ _ _) fun colors _ => ?_
    refine result_bind_ne_error (getNames_ne_undefinedBehaviour _ _ _ _) fun names hnames => ?_
    obtain ⟨_, _, hanswer, _⟩ := exists_respond answers _ httpResponse
      ((aligned_of_getNames hnames).imp_right Aligned.length)
    rw [hanswer]
    exact fun h => nomatch h

/-- Names are aligned with colours whenever they are returned, so that the JSON
text is made of two lists of one length. -/
theorem names_aligned (tree : PropertyTree) (answers : Nat → Except CurlError Str) :
    (∀ k colors names, (getNames tree colors).result answers k = .ok names →
      names = [] ∨ Aligned tree answers k colors ((getNames tree colors).asked answers k) names) ∧
    (∀ word colors names, (getColors word).result answers 0 = .ok colors →
      (getNames tree colors).result answers ((getColors word).asked answers 0).length =
          .ok names →
        (colors.isEmpty || names.isEmpty) = false →
          colors ≠ [] ∧ names.length = colors.length ∧ (∀ i < colors.length, ∃ name,
            names[i]? = some name) ∧ ∃ text, generateJsonResponse colors names = .ok text) ∧
    ∀ httpRequest httpResponse,
      (handleRequest tree httpRequest httpResponse).result answers 0 ≠
        .error .undefinedBehaviour := by
  refine ⟨fun _ _ _ hnames => aligned_of_getNames hnames, ?_, ?_⟩
  · intro word colors names _ hnames hlists
    simp only [Bool.or_eq_false_iff, List.isEmpty_eq_false_iff] at hlists
    have hlength := ((aligned_of_getNames hnames).resolve_left hlists.2).length
    refine ⟨hlists.1, hlength, ?_, _, generateJsonResponse_eq hlists.1 hlength.symm⟩
    intro i hi
    exact ⟨names[i], List.getElem?_eq_getElem (hlength ▸ hi)⟩
  · exact handleRequest_ne_undefinedBehaviour tree answers

end PaletteHandler

namespace PaletteRunsWitness

open PaletteApi PaletteHandler PaletteInputWitness

/-- A page of each service. -/
def colorPage : Str := hexDiv ++ "#ff0000".toList

def palettePage : Str := palette ++ colorDiv ++ "#ff0000".toList ++ endDiv

def namePage : Str := "\x7b\"name\": \x7b\"value\": \"Red\"\x7d\x7d".toList

/-- A property tree that knows that name page. -/
def redTree : PropertyTree where
  Tree := Bool
  readJson json := if json = namePage then some true else none
  getChild tree key := if tree = true ∧ key = "name".toList then some false else none
  getString tree key := if tree = false ∧ key = "value".toList then some "Red".toList else none

def answers (names : Str) : Nat → Except CurlError Str
  | 0 => .ok colorPage
  | 1 => .ok palettePage
  | _ => .ok names

def request : Request := post "red".toList

theorem validInput_request : validInput (trimWhitespace request.body) = true := by
  decide +kernel

theorem readable_request : Readable redTree (answers namePage) 2 1 := by
  have hanswer : (handleRequest redTree request Response.empty).result (answers namePage) 0 =
      .ok (true, setResponse .ok "application/json".toList
        (paletteText [("#ff0000".toList, "Red".toList)]) Response.empty) := by
    decide +kernel
  have hhex : HasHex colorPage :=
    ⟨0, (find?_eq_some_iff hexDiv_ne_nil).mp (by decide +kernel), by decide +kernel⟩
  have hstart : IsFirst palette palettePage 0 0 :=
    (find?_eq_some_iff palette_ne_nil).mp (by decide +kernel)
  have hfinish : IsFirst endDiv palettePage 0 58 :=
    (find?_eq_some_iff endDiv_ne_nil).mp (by decide +kernel)
  have hcount : (occurrences colorDiv palettePage 0 58).length = 1 := by decide +kernel
  have hreadable := ((returns_iff rfl validInput_request).mp ⟨_, _, hanswer, .inl rfl⟩).2
    colorPage palettePage 0 58 rfl hhex rfl hstart hfinish
  rwa [hcount] at hreadable

/-- A name page that is not JSON, and a colour page that ends at its mark: no
catch block of the program takes their exceptions. -/
theorem handleRequest_escapes :
    validInput (trimWhitespace request.body) = true ∧
      (handleRequest redTree request Response.empty).result (answers "<html>".toList) 0 =
        .error .propertyTreeError ∧
      (handleRequest redTree request Response.empty).result (fun _ => .ok hexDiv) 0 =
        .error .outOfRange := by
  decide +kernel

theorem aligned_red : ∃ page, answers namePage 2 = .ok page ∧
    parseJson redTree page = .ok "Red".toList := by
  have hnames : (getNames redTree ["#ff0000".toList]).result (answers namePage) 2 =
      .ok ["Red".toList] := by decide +kernel
  have haligned := (names_aligned redTree (answers namePage)).1 _ _ _ hnames
  exact (haligned.resolve_left (by simp)).name 0 _ rfl

end PaletteRunsWitness

end SwanServer
