/-
How a connection cuts a stream of requests into reads.  Every read is taken for a
request and answered on its own, so that a stream gets as many answers as it has
reads, wherever its requests end.
-/
import SwanServer.FactoryMap
import SwanServer.Session

namespace SwanServer

open Overlay

/-- `class Session`, with the store that the handlers share. -/
structure Session (φ σ : Type) where
  data : Buffer
  factoryRoutes : FactoryRoutes φ
  store : σ

section Responses

variable {φ σ : Type} (parseRequest : Str → Option Request) (create : φ → HandleRequest σ)

/-- The responses that a session sends to a sequence of reads.  A fault ends it. -/
def responses : Session φ σ → List Chunk → List Response
  | _, [] => []
  | session, chunk :: rest =>
      match (onRead parseRequest create session.data chunk session.factoryRoutes).exec
          session.store with
      | (.ok (httpResponse, factoryRoutes), store) =>
          httpResponse ::
            responses ⟨session.data.asyncReadSome chunk, factoryRoutes, store⟩ rest
      | (.error _, _) => []

/-- The reads deliver the stream, in order and nothing else. -/
def Cuts (stream : Str) (chunks : List Chunk) : Prop :=
  (chunks.map Chunk.bytes).flatten = stream

/-- However the stream is cut into reads, the session sends the same responses,
whatever its array holds at first. -/
def SegmentationIndependent (factoryRoutes : FactoryRoutes φ) (store : σ) (stream : Str) :
    Prop :=
  ∀ (data : Buffer) (first second : List Chunk), Cuts stream first → Cuts stream second →
    responses parseRequest create ⟨data, factoryRoutes, store⟩ first =
      responses parseRequest create ⟨data, factoryRoutes, store⟩ second

end Responses

/-- The end of a header section. -/
def headerEnd : Str := "\r\n\r\n".toList

/-- What is relied on of the HTTP parser, where `Complete` says which texts are
complete requests: it reads the request at the front of its input, and nothing from
an input that does not end its header section. -/
structure ParsesFront (parseRequest : Str → Option Request)
    (Complete : Str → Request → Prop) : Prop where
  front : ∀ {text httpRequest}, Complete text httpRequest →
    ∀ rest, parseRequest (text ++ rest) = some httpRequest
  incomplete : ∀ {text}, ¬ headerEnd <:+: text → parseRequest text = none

namespace ParsesFront

variable {parseRequest : Str → Option Request} {Complete : Str → Request → Prop}
  (hparses : ParsesFront parseRequest Complete)

include hparses

theorem eq_none_of_length_lt {text : Str} (hshort : text.length < 4) :
    parseRequest text = none := by
  apply hparses.incomplete
  intro hends
  have hlength : headerEnd.length ≤ text.length := hends.length_le
  exact absurd (hlength.trans_lt hshort) (by decide)

theorem four_le_length {text : Str} {httpRequest : Request}
    (hcomplete : Complete text httpRequest) : 4 ≤ text.length := by
  by_contra hshort
  have hnone := hparses.eq_none_of_length_lt (Nat.lt_of_not_le hshort)
  have hsome := hparses.front hcomplete []
  rw [List.append_nil, hnone] at hsome
  contradiction

end ParsesFront

namespace Chunk

/-- A read of one byte. -/
def single (c : Char) : Chunk := ⟨[c], by simp, by simp [maxLength]⟩

/-- A read of two bytes. -/
def pair (c d : Char) : Chunk := ⟨[c, d], by simp, by simp [maxLength]⟩

end Chunk

theorem cuts_nil_iff {chunks : List Chunk} : Cuts [] chunks ↔ chunks = [] := by
  constructor
  · intro hcuts
    apply List.eq_nil_iff_forall_not_mem.mpr
    intro chunk hchunk
    have hempty : chunk.bytes = [] :=
      List.flatten_eq_nil_iff.mp hcuts _ (List.mem_map_of_mem hchunk)
    have hpos := chunk.pos
    rw [hempty] at hpos
    contradiction
  · rintro rfl
    rfl

theorem cuts_cons {stream : Str} {chunks : List Chunk} (chunk : Chunk)
    (hcuts : Cuts stream chunks) : Cuts (chunk.bytes ++ stream) (chunk :: chunks) := by
  rw [Cuts, List.map_cons, List.flatten_cons, hcuts]

theorem cuts_single (stream : Str) : Cuts stream (stream.map Chunk.single) := by
  induction stream with
  | nil => rfl
  | cons head tail ih => exact cuts_cons (Chunk.single head) ih

section ShortReads

variable {φ σ : Type} {parseRequest : Str → Option Request} {create : φ → HandleRequest σ}
  {Complete : Str → Request → Prop} (hparses : ParsesFront parseRequest Complete)
  {factory : φ} (hcreate : create factory = badRequestHandler)

include hparses hcreate

/-- Two bytes in front of a NUL are a bad request. -/
theorem exec_onRead_of_short {data : Buffer} (hdata : data.cells[2]? = some nul)
    {chunk : Chunk} (hshort : chunk.bytes.length ≤ 2) {factoryRoutes : FactoryRoutes φ}
    (hroute : factoryRoutes.find? "bad request".toList = some (some factory)) (store : σ) :
    (onRead parseRequest create data chunk factoryRoutes).exec store =
      (.ok (setResponse .badRequest "text/plain".toList "Bad Request\n".toList
        Response.empty, factoryRoutes), store) := by
  have hcell : (data.asyncReadSome chunk).cells[2]? = some nul :=
    (getElem?_overlay_of_le data.cells hshort).trans hdata
  obtain ⟨text, htext, hlength⟩ := exists_upTo_of_getElem? hcell
  have hparse : parseRequest text = none :=
    hparses.eq_none_of_length_lt (by omega)
  have hread : (data.asyncReadSome chunk).requestString = some text := htext
  rw [onRead, handleRead, hread]
  exact exec_processRequest_of_parse_eq_none hparse hroute hcreate Response.empty store

/-- A session whose reads stay that short sends one response a read. -/
theorem length_responses_of_short {chunks : List Chunk}
    (hshort : ∀ chunk ∈ chunks, chunk.bytes.length ≤ 2) {data : Buffer}
    (hdata : data.cells[2]? = some nul) {factoryRoutes : FactoryRoutes φ}
    (hroute : factoryRoutes.find? "bad request".toList = some (some factory)) (store : σ) :
    (responses parseRequest create ⟨data, factoryRoutes, store⟩ chunks).length =
      chunks.length := by
  induction chunks generalizing data with
  | nil => rfl
  | cons chunk rest ih =>
      obtain ⟨hchunk, hrest⟩ := List.forall_mem_cons.mp hshort
      have hresponse := exec_onRead_of_short hparses hcreate hdata hchunk hroute store
      have hcell : (data.asyncReadSome chunk).cells[2]? = some nul :=
        (getElem?_overlay_of_le data.cells hchunk).trans hdata
      have hresponses := ih hrest hcell
      rw [responses, hresponse, List.length_cons, List.length_cons, hresponses]

/-- Two bytes can come in one read or in two, and get as many responses. -/
theorem not_segmentationIndependent_of_two_le {factoryRoutes : FactoryRoutes φ}
    (hroute : factoryRoutes.find? "bad request".toList = some (some factory)) (store : σ)
    {stream : Str} (hlength : 2 ≤ stream.length) :
    ¬ SegmentationIndependent parseRequest create factoryRoutes store stream := by
  intro hindependent
  obtain ⟨c, d, rest, rfl⟩ : ∃ c d rest, stream = c :: d :: rest := by
    rcases stream with _ | ⟨c, _ | ⟨d, rest⟩⟩
    · simp at hlength
    · simp at hlength
    · exact ⟨c, d, rest, rfl⟩
  have hzeroed : SessionWitness.zeroed.cells[2]? = some nul :=
    List.getElem?_replicate_of_lt (by decide)
  have hsingles : ∀ chunk ∈ (c :: d :: rest).map Chunk.single, chunk.bytes.length ≤ 2 :=
    List.forall_mem_map.mpr fun _ _ => one_le_two
  have hpaired : ∀ chunk ∈ Chunk.pair c d :: rest.map Chunk.single,
      chunk.bytes.length ≤ 2 :=
    List.forall_mem_cons.mpr ⟨le_refl 2, List.forall_mem_map.mpr fun _ _ => one_le_two⟩
  have hresponses := congrArg List.length
    (hindependent SessionWitness.zeroed _ _ (cuts_single (c :: d :: rest))
      (cuts_cons (Chunk.pair c d) (cuts_single rest)))
  rw [length_responses_of_short hparses hcreate hsingles hzeroed hroute,
    length_responses_of_short hparses hcreate hpaired hzeroed hroute] at hresponses
  simp at hresponses

end ShortReads

/-- The server's answers never depend on the requests of a stream alone: only of the
stream without requests is there but one cutting. -/
theorem segmentationIndependent_iff {σ : Type} {parseRequest : Str → Option Request}
    {Complete : Str → Request → Prop} (hparses : ParsesFront parseRequest Complete)
    {create : RequestHandlerFactory → HandleRequest σ}
    (hcreate : create .badRequest = badRequestHandler) (filesystemMap : FilesystemMap)
    (store : σ) {requests : List (Str × Request)}
    (hrequests : ∀ request ∈ requests, Complete request.1 request.2) :
    SegmentationIndependent parseRequest create (createFactoryMap filesystemMap) store
        (requests.map Prod.fst).flatten ↔ requests = [] := by
  constructor
  · intro hindependent
    cases requests with
    | nil => rfl
    | cons request rest =>
        have hlength : 4 ≤ request.1.length :=
          hparses.four_le_length (hrequests request List.mem_cons_self)
        have hstream : 2 ≤ (((request :: rest).map Prod.fst).flatten).length := by
          rw [List.map_cons, List.flatten_cons, List.length_append]
          omega
        exact absurd hindependent (not_segmentationIndependent_of_two_le hparses hcreate
          (find?_createFactoryMap_badRequest filesystemMap) store hstream)
  · rintro rfl data first second hfirst hsecond
    rw [cuts_nil_iff.mp hfirst, cuts_nil_iff.mp hsecond]

namespace SegmentationWitness

/-- A GET request without header fields. -/
def getText (target : Str) : Str := "GET ".toList ++ target ++ " HTTP/1.1\r\n\r\n".toList

def IsGet (text : Str) (httpRequest : Request) : Prop :=
  ∃ target, ' ' ∉ target ∧ text = getText target ∧ httpRequest = ⟨"GET".toList, target, []⟩

/-- A parser for such requests only. -/
def parseGet (text : Str) : Option Request :=
  if headerEnd <:+: text ∧ "GET ".toList <+: text then
    some ⟨"GET".toList, (text.drop 4).takeWhile (fun c => c != ' '), []⟩
  else none

theorem parsesFront_parseGet : ParsesFront parseGet IsGet where
  front := by
    rintro text httpRequest ⟨target, htarget, rfl, rfl⟩ rest
    have hends : headerEnd <:+: getText target ++ rest :=
      ⟨"GET ".toList ++ target ++ " HTTP/1.1".toList, rest, by simp [getText, headerEnd]⟩
    have hstarts : "GET ".toList <+: getText target ++ rest :=
      ⟨target ++ " HTTP/1.1\r\n\r\n".toList ++ rest, by simp [getText]⟩
    have hword : ∀ c ∈ target, (c != ' ') = true := by
      intro c hc
      rw [bne_iff_ne]
      rintro rfl
      exact htarget hc
    have hdrop : (getText target ++ rest).drop 4 =
        target ++ (" HTTP/1.1\r\n\r\n".toList ++ rest) := by
      simp [getText]
    rw [parseGet, if_pos ⟨hends, hstarts⟩, hdrop, List.takeWhile_append_of_pos hword]
    simp
  incomplete := by
    intro text hends
    exact if_neg fun hboth => hends hboth.1

def create : RequestHandlerFactory → HandleRequest Unit
  | .badRequest => badRequestHandler
  | .health => healthHandler
  | _ => errorHandler

def healthText : Str := getText "/health".toList

def healthRequest : Request := ⟨"GET".toList, "/health".toList, []⟩

theorem isGet_healthText : IsGet healthText healthRequest :=
  ⟨"/health".toList, by decide, rfl, rfl⟩

/-- One request is enough to depend on its reads. -/
theorem not_segmentationIndependent_health :
    ¬ SegmentationIndependent parseGet create (createFactoryMap OrderedMap.empty) ()
      ([(healthText, healthRequest)].map Prod.fst).flatten := by
  rw [segmentationIndependent_iff parsesFront_parseGet rfl OrderedMap.empty ()
    (List.forall_mem_singleton.mpr isGet_healthText)]
  exact List.cons_ne_nil _ _

def wholeRead : Chunk := ⟨healthText, by decide, by decide⟩

def firstRead : Chunk := ⟨"GET /health ".toList, by decide, by decide⟩

def secondRead : Chunk := ⟨"HTTP/1.1\r\n\r\n".toList, by decide, by decide⟩

def session : Session RequestHandlerFactory Unit :=
  ⟨SessionWitness.zeroed, createFactoryMap OrderedMap.empty, ()⟩

/-- In one read the request is answered with 200, in two with 400 and 400. -/
theorem responses_health :
    ParsesFront parseGet IsGet ∧ IsGet healthText healthRequest ∧ nul ∉ healthText ∧
      (responses parseGet create session [wholeRead]).map Response.result = [.ok] ∧
      (responses parseGet create session [firstRead, secondRead]).map Response.result =
        [.badRequest, .badRequest] ∧
      ¬ SegmentationIndependent parseGet create (createFactoryMap OrderedMap.empty) ()
        healthText := by
  have hwhole : (responses parseGet create session [wholeRead]).map Response.result =
      [.ok] := by decide +kernel
  have hsplit : (responses parseGet create session [firstRead, secondRead]).map
      Response.result = [.badRequest, .badRequest] := by decide +kernel
  refine ⟨parsesFront_parseGet, isGet_healthText, by decide, hwhole, hsplit, ?_⟩
  intro hindependent
  have hresponses := congrArg (List.map Response.result)
    (hindependent SessionWitness.zeroed [wholeRead] [firstRead, secondRead] rfl rfl)
  have hresults := hwhole.symm.trans (hresponses.trans hsplit)
  contradiction

end SegmentationWitness

end SwanServer
