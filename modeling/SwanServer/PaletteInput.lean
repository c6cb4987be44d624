/-
What reaches the colour service of a request body.  `trim_whitespace` computes
both ends of the trimmed body from the original one and keeps the second result
only, so that a body keeps what stands before its first letter.
-/
import SwanServer.PaletteHandler

namespace SwanServer

namespace PaletteHandler

section Trim

/-- `t` is `s` without the spaces and newlines around it. -/
def Trims (s t : Str) : Prop :=
  ∃ front back, s = front ++ t ++ back ∧ (∀ c ∈ front, c ∈ whitespace) ∧
    (∀ c ∈ back, c ∈ whitespace) ∧ (∀ c, t.head? = some c → c ∉ whitespace) ∧
    ∀ c, t.getLast? = some c → c ∉ whitespace

/-- `trim_whitespace` takes away the end only. -/
theorem trimWhitespace_eq (s : Str) : trimWhitespace s = s.rdropWhile (· ∈ whitespace) := by
  have htrim : trimWhitespace s =
      (findLastNotOf whitespace s).elim [] fun last => s.take (last + 1) := by
    rw [trimWhitespace]
    cases findLastNotOf whitespace s <;> rfl
  rw [htrim, findLastNotOf, findFirstNotOf]
  cases hfirst : s.reverse.findIdx? (· ∉ whitespace) with
  | none =>
      symm
      rw [List.findIdx?_eq_none_iff] at hfirst
      refine List.rdropWhile_eq_nil_iff.mpr fun c hc => ?_
      simpa using hfirst c (List.mem_reverse.mpr hc)
  | some i =>
      obtain ⟨hlt, hi⟩ := List.findIdx?_eq_some_iff_findIdx_eq.mp hfirst
      rw [List.length_reverse] at hlt
      have hdrop : s.reverse.dropWhile (· ∈ whitespace) = s.reverse.drop i := by
        rw [List.dropWhile_eq_drop_findIdx_not]
        simpa using congrArg s.reverse.drop hi
      have hlast : s.length - 1 - i + 1 = s.length - i := by omega
      rw [List.rdropWhile, hdrop, List.drop_reverse, List.reverse_reverse, ← hlast]
      rfl

variable {s t front back : Str}

theorem rdropWhile_append_of_padding (hback : ∀ c ∈ back, c ∈ whitespace) :
    (s ++ back).rdropWhile (· ∈ whitespace) = s.rdropWhile (· ∈ whitespace) := by
  rw [List.rdropWhile, List.reverse_append, List.dropWhile_append_of_pos, List.rdropWhile]
  intro c hc
  simpa using hback c (List.mem_reverse.mp hc)

theorem rdropWhile_of_getLast? (hlast : ∀ c, t.getLast? = some c → c ∉ whitespace) :
    t.rdropWhile (· ∈ whitespace) = t := by
  rw [List.rdropWhile_eq_self_iff]
  intro hne
  simpa using hlast _ (List.getLast?_eq_some_getLast hne)

/-- What `trim_whitespace` leaves of a body is its front and its core. -/
theorem trimWhitespace_append (hne : t ≠ []) (hback : ∀ c ∈ back, c ∈ whitespace)
    (hlast : ∀ c, t.getLast? = some c → c ∉ whitespace) :
    trimWhitespace (front ++ t ++ back) = front ++ t := by
  rw [trimWhitespace_eq, rdropWhile_append_of_padding hback, rdropWhile_of_getLast?]
  rwa [List.getLast?_append_of_ne_nil front hne]

theorem trimWhitespace_of_forall (hs : ∀ c ∈ s, c ∈ whitespace) : trimWhitespace s = [] := by
  rw [trimWhitespace_eq, List.rdropWhile_eq_nil_iff]
  simpa using hs

/-- The front of a string that `trim_whitespace` trims as it should. -/
def StartsTrimmed (s : Str) : Prop :=
  (∀ c, s.head? = some c → c ∉ whitespace) ∨ ∀ c ∈ s, c ∈ whitespace

theorem Trims.forall_mem (htrims : Trims s []) : ∀ c ∈ s, c ∈ whitespace := by
  obtain ⟨front, back, rfl, hfront, hback, _⟩ := htrims
  simpa using fun c hc => hc.elim (hfront c) (hback c)

/-- A string that is trimmed as it should be has its core left. -/
theorem Trims.eq_trimWhitespace (htrims : Trims s t) (hs : StartsTrimmed s) :
    trimWhitespace s = t := by
  rcases eq_or_ne t [] with rfl | hne
  · exact trimWhitespace_of_forall htrims.forall_mem
  · obtain ⟨front, back, rfl, hfront, hback, hhead, hlast⟩ := htrims
    rw [trimWhitespace_append hne hback hlast]
    cases front with
    | nil => rfl
    | cons c front =>
        obtain ⟨first, others, rfl⟩ := List.exists_cons_of_ne_nil hne
        have hc := hfront c List.mem_cons_self
        rcases hs with hs | hs
        · exact absurd hc (hs c rfl)
        · exact absurd (hs first (by simp)) (hhead first rfl)

theorem Trims.trimWhitespace (htrims : Trims s t) : PaletteHandler.trimWhitespace t = t := by
  obtain ⟨_, _, _, _, _, _, hlast⟩ := htrims
  rw [trimWhitespace_eq, rdropWhile_of_getLast? hlast]

theorem head?_trimWhitespace (hne : PaletteHandler.trimWhitespace s ≠ []) :
    (PaletteHandler.trimWhitespace s).head? = s.head? := by
  rw [trimWhitespace_eq] at hne ⊢
  obtain ⟨back, hback⟩ := List.rdropWhile_prefix (· ∈ whitespace) s
  conv_rhs => rw [← hback]
  rw [List.head?_append_of_ne_nil _ hne]

theorem trims_trimWhitespace_iff (s : Str) :
    Trims s (PaletteHandler.trimWhitespace s) ↔ StartsTrimmed s := by
  constructor
  · intro htrims
    rcases eq_or_ne (PaletteHandler.trimWhitespace s) [] with hnil | hne
    · exact .inr (hnil ▸ htrims).forall_mem
    · obtain ⟨_, _, _, _, _, hhead, _⟩ := htrims
      exact .inl (head?_trimWhitespace hne ▸ hhead)
  · rintro (hhead | hall)
    · refine ⟨[], s.rtakeWhile (· ∈ whitespace), ?_, by simp, ?_, ?_, ?_⟩
      · rw [trimWhitespace_eq, List.nil_append, List.rdropWhile_append_rtakeWhile]
      · intro c hc
        simpa using List.mem_rtakeWhile_imp hc
      · intro c hc
        have hne : PaletteHandler.trimWhitespace s ≠ [] := by
          intro hnil
          rw [hnil] at hc
          contradiction
        exact hhead c (head?_trimWhitespace hne ▸ hc)
      · intro c hc
        have hne : s.rdropWhile (· ∈ whitespace) ≠ [] := by
          intro hnil
          rw [trimWhitespace_eq, hnil] at hc
          contradiction
        rw [trimWhitespace_eq, List.getLast?_eq_some_getLast hne, Option.some.injEq] at hc
        rw [← hc]
        simpa using List.rdropWhile_last_not _ _ hne
    · rw [trimWhitespace_of_forall hall]
      exact ⟨[], s, by simp, by simp, hall, by simp, by simp⟩

end Trim

/-- What trimming is for: the body without its padding is left, trimming it
again changes nothing, and the padding makes no difference to the answer. -/
def TrimsRightly (s : Str) : Prop :=
  Trims s (trimWhitespace s) ∧ trimWhitespace (trimWhitespace s) = trimWhitespace s ∧
    ∀ t, Trims s t → ∀ tree method target httpResponse,
      handleRequest tree ⟨method, target, s⟩ httpResponse =
        handleRequest tree ⟨method, target, t⟩ httpResponse

/-- A string is trimmed rightly exactly if nothing has to be taken away at its
front. -/
theorem trimsRightly_iff (s : Str) :
    TrimsRightly s ↔ (∀ c, s.head? = some c → c ∉ whitespace) ∨ ∀ c ∈ s, c ∈ whitespace := by
  constructor
  · rintro ⟨htrims, _⟩
    exact (trims_trimWhitespace_iff s).mp htrims
  · intro hs
    have htrims := (trims_trimWhitespace_iff s).mpr hs
    refine ⟨htrims, htrims.trimWhitespace, ?_⟩
    intro t ht tree method target httpResponse
    rw [handleRequest, handleRequest, ht.eq_trimWhitespace hs, ht.trimWhitespace]

section Query

variable (tree : PropertyTree) {httpRequest : Request} (httpResponse : Response)

/-- A request that is answered 400 asks no service. -/
theorem handleRequest_badRequest (hinvalid : httpRequest.method ≠ "POST".toList ∨
    validInput (trimWhitespace httpRequest.body) = false) :
    ∃ body contentType, handleRequest tree httpRequest httpResponse =
      .done (false, setResponse .badRequest contentType body httpResponse) := by
  rw [handleRequest]
  by_cases hmethod : httpRequest.method = "POST".toList
  · rw [if_neg (not_not_intro hmethod), if_pos (hinvalid.resolve_left (not_not_intro hmethod))]
    exact ⟨_, _, rfl⟩
  · rw [if_pos hmethod]
    exact ⟨_, _, rfl⟩

/-- The first question of a request that is served is the one for a colour. -/
theorem exists_asked_handleRequest (hmethod : httpRequest.method = "POST".toList)
    (hvalid : validInput (trimWhitespace httpRequest.body) = true)
    (answers : Nat → Except CurlError Str) :
    ∃ others, (handleRequest tree httpRequest httpResponse).asked answers 0 =
      PaletteApi.colorUrl (PaletteApi.replaceSpaces (trimWhitespace httpRequest.body)) ::
        others := by
  rw [handleRequest, if_neg (not_not_intro hmethod), if_neg (by simp [hvalid])]
  exact ⟨_, rfl⟩

theorem validInput_iff (input : Str) : validInput input = true ↔
    input ≠ [] ∧ ∀ c ∈ input, c.isAlphanum = true ∨ isSpace c = true := by
  simp [validInput]

/-- The word of a query, and the bodies that must not lead to one. -/
def Sanitises (tree : PropertyTree) (httpRequest : Request) : Prop :=
  ∀ answers httpResponse,
    (∀ word, ((handleRequest tree httpRequest httpResponse).asked answers 0).head? =
        some (PaletteApi.colorUrl word) → ∀ c ∈ word, c.isAlphanum = true ∨ c = '+') ∧
      ∀ core, Trims httpRequest.body core →
        (∃ c ∈ core, c.isAlphanum = false ∧ c ≠ ' ') →
          ∃ response, (handleRequest tree httpRequest httpResponse).result answers 0 =
            .ok (false, response) ∧ response.result = .badRequest

theorem isAlphanum_of_isSpace {c : Char} (hc : isSpace c = true) :
    c.isAlphanum = false ∧ c ≠ '+' := by
  simp only [isSpace, Bool.or_eq_true, decide_eq_true_eq] at hc
  rcases hc with ((((rfl | rfl) | rfl) | rfl) | rfl) | rfl <;> decide

/-- A word that is fit for a query has no other white space than the spaces that
are replaced. -/
theorem forall_mem_replaceSpaces_iff {word : Str}
    (hword : ∀ c ∈ word, c.isAlphanum = true ∨ isSpace c = true) :
    (∀ c ∈ PaletteApi.replaceSpaces word, c.isAlphanum = true ∨ c = '+') ↔
      ∀ c ∈ word, isSpace c = true → c = ' ' := by
  rw [PaletteApi.replaceSpaces, List.forall_mem_map]
  refine forall₂_congr fun c hc => ?_
  by_cases hblank : c = ' '
  · simp [hblank]
  · rw [if_neg hblank]
    constructor
    · intro hfit hspace
      obtain ⟨halphanum, hplus⟩ := isAlphanum_of_isSpace hspace
      rcases hfit with hfit | hfit
      · rw [halphanum] at hfit
        contradiction
      · exact absurd hfit hplus
    · intro hspace
      exact .inl ((hword c hc).resolve_right fun h => hblank (hspace h))

theorem sanitises_of_badRequest (hinvalid : httpRequest.method ≠ "POST".toList ∨
    validInput (trimWhitespace httpRequest.body) = false) : Sanitises tree httpRequest := by
  intro answers httpResponse
  obtain ⟨body, contentType, hanswer⟩ :=
    handleRequest_badRequest tree httpResponse hinvalid
  rw [hanswer]
  refine ⟨?_, ?_⟩
  · intro word hword
    contradiction
  · intro _ _ _
    exact ⟨_, rfl, setResponse_result _ _ _ _⟩

/-- What stands in a body between its padding is left by `trim_whitespace`. -/
theorem Trims.mem_trimWhitespace {s t : Str} (htrims : Trims s t) {c : Char} (hc : c ∈ t) :
    c ∈ PaletteHandler.trimWhitespace s := by
  obtain ⟨front, back, rfl, _, hback, _, hlast⟩ := htrims
  rw [trimWhitespace_append (List.ne_nil_of_mem hc) hback hlast]
  exact List.mem_append_right front hc

theorem sanitises_iff_of_validInput (hmethod : httpRequest.method = "POST".toList)
    (hvalid : validInput (trimWhitespace httpRequest.body) = true) :
    Sanitises tree httpRequest ↔
      ∀ c ∈ trimWhitespace httpRequest.body, isSpace c = true → c = ' ' := by
  have hfit := ((validInput_iff _).mp hvalid).2
  constructor
  · intro hsanitises
    have hquery := (hsanitises (fun _ => .error .runtimeError) Response.empty).1
    obtain ⟨others, hasked⟩ := exists_asked_handleRequest tree Response.empty hmethod hvalid
      fun _ => .error .runtimeError
    rw [hasked] at hquery
    exact (forall_mem_replaceSpaces_iff hfit).mp (hquery _ rfl)
  · intro hspace answers httpResponse
    obtain ⟨others, hasked⟩ :=
      exists_asked_handleRequest tree httpResponse hmethod hvalid answers
    refine ⟨?_, ?_⟩
    · intro word hword
      rw [hasked, List.head?_cons, Option.some.injEq] at hword
      rw [← List.append_cancel_left hword]
      exact (forall_mem_replaceSpaces_iff hfit).mpr hspace
    · rintro core hcore ⟨c, hc, halphanum, hblank⟩
      have hmem := hcore.mem_trimWhitespace hc
      rcases hfit c hmem with h | h
      · rw [halphanum] at h
        contradiction
      · exact absurd (hspace c hmem h) hblank

/-- A query carries nothing but letters, digits and `+` exactly if the body,
without the spaces and newlines at its end, is refused or has no white space
but spaces. -/
theorem sanitises_iff (tree : PropertyTree) (httpRequest : Request) :
    Sanitises tree httpRequest ↔
      httpRequest.method ≠ "POST".toList ∨
        (∃ c ∈ httpRequest.body.rdropWhile (· ∈ whitespace),
          c.isAlphanum = false ∧ isSpace c = false) ∨
        ∀ c ∈ httpRequest.body.rdropWhile (· ∈ whitespace), isSpace c = true → c = ' ' := by
  rw [← trimWhitespace_eq]
  by_cases hmethod : httpRequest.method = "POST".toList
  · cases hvalid : validInput (trimWhitespace httpRequest.body) with
    | true =>
        have hfit := ((validInput_iff _).mp hvalid).2
        have hnone : ¬ ∃ c ∈ trimWhitespace httpRequest.body,
            c.isAlphanum = false ∧ isSpace c = false := by
          rintro ⟨c, hc, halphanum, hspace⟩
          simpa [halphanum, hspace] using hfit c hc
        simp only [sanitises_iff_of_validInput tree hmethod hvalid, hmethod, hnone, ne_eq,
          not_true_eq_false, false_or]
    | false =>
        have hrefused : (∃ c ∈ trimWhitespace httpRequest.body,
            c.isAlphanum = false ∧ isSpace c = false) ∨ trimWhitespace httpRequest.body = [] := by
          by_contra hnone
          have hinvalid := mt (validInput_iff (trimWhitespace httpRequest.body)).mpr
            (by simp [hvalid])
          push Not at hnone hinvalid
          obtain ⟨c, hc, halphanum, hspace⟩ := hinvalid hnone.2
          exact hnone.1 c hc (by simpa using halphanum) (by simpa using hspace)
        refine iff_of_true (sanitises_of_badRequest tree (.inr hvalid)) (.inr ?_)
        rcases hrefused with hbad | hnil
        · exact .inl hbad
        · exact .inr (by simp [hnil])
  · exact iff_of_true (sanitises_of_badRequest tree (.inl hmethod)) (.inl hmethod)

end Query

end PaletteHandler

namespace PaletteInputWitness

open PaletteHandler

/-- A property tree that reads nothing. -/
def noTree : PropertyTree := ⟨Unit, fun _ => none, fun _ _ => none, fun _ _ => none⟩

def post (body : Str) : Request := ⟨"POST".toList, "/palette".toList, body⟩

/-- No service answers. -/
def offline : Nat → Except CurlError Str := fun _ => .error .runtimeError

/-- A blank before a word stays, and its query is another one. -/
theorem trimWhitespace_leading :
    trimWhitespace " a".toList = " a".toList ∧ Trims " a".toList "a".toList ∧
      (handleRequest noTree (post " a".toList) Response.empty).asked offline 0 =
        [PaletteApi.colorUrl "+a".toList] ∧
      (handleRequest noTree (post "a".toList) Response.empty).asked offline 0 =
        [PaletteApi.colorUrl "a".toList] ∧
      ¬ Trims " a".toList (trimWhitespace " a".toList) := by
  refine ⟨by decide +kernel, ⟨[' '], [], ?_⟩, by decide +kernel, by decide +kernel, ?_⟩
  · simp [whitespace]
  · rw [trims_trimWhitespace_iff]
    simp [StartsTrimmed, whitespace]

/-- A tab inside a word is sent to the service. -/
theorem asked_tab :
    (handleRequest noTree (post "a\tb".toList) Response.empty).asked offline 0 =
        [PaletteApi.colorUrl "a\tb".toList] ∧
      ¬ Sanitises noTree (post "a\tb".toList) := by
  have hasked : (handleRequest noTree (post "a\tb".toList) Response.empty).asked offline 0 =
      [PaletteApi.colorUrl "a\tb".toList] := by decide +kernel
  refine ⟨hasked, fun hsanitises => ?_⟩
  have hquery := (hsanitises offline Response.empty).1 "a\tb".toList (by rw [hasked]; rfl)
  exact absurd (hquery '\t' (by decide +kernel)) (by decide +kernel)

end PaletteInputWitness

end SwanServer
