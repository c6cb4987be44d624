/-
What peers get.  Every response was put together by `set_response` from one of the
content types of the code, so that nothing of a request gets into its headers and its
length is that of its body.
-/
import SwanServer.Conversations
import SwanServer.Handlers

namespace SwanServer

/-- The content types that the code names. -/
def contentTypes : List Str :=
  ["text/plain".toList, "text/html".toList, "application/json".toList] ++ mappings.map Prod.snd

/-- A response with the headers of the server and the length of its body. -/
structure Response.WellFormed (httpResponse : Response) : Prop where
  version : httpResponse.version = 11
  contentType : httpResponse.contentType ∈ contentTypes
  origin : httpResponse.accessControlAllowOrigin = "*".toList
  contentLength : httpResponse.contentLength = some httpResponse.body.length

theorem wellFormed_setResponse (status : Status) {contentType : Str}
    (htype : contentType ∈ contentTypes) (body : Str) (httpResponse : Response) :
    (setResponse status contentType body httpResponse).WellFormed :=
  ⟨rfl, htype, rfl, rfl⟩

theorem textPlain_mem : "text/plain".toList ∈ contentTypes := List.mem_cons_self

theorem extensionToType_mem (extension : Str) : extensionToType extension ∈ contentTypes := by
  rw [extensionToType]
  cases hlookup : mappings.lookup extension with
  | none => exact textPlain_mem
  | some mimeType =>
      obtain ⟨front, back, hmappings, -⟩ := List.lookup_eq_some_iff.mp hlookup
      have hmem : (extension, mimeType) ∈ mappings := by
        rw [hmappings]
        exact List.mem_append_right front List.mem_cons_self
      exact List.mem_append_right _ (List.mem_map_of_mem hmem)

/-- Whatever a computation returns has the property. -/
def Act.Returns {σ α : Type} (Q : α → Prop) (act : Act σ α) : Prop :=
  ∀ store value later, act.exec store = (.ok value, later) → Q value

namespace Act

variable {σ α β : Type} {Q : α → Prop}

theorem returns_pure {value : α} (hvalue : Q value) : (pure value : Act σ α).Returns Q := by
  rintro store _ later ⟨⟩
  exact hvalue

theorem returns_bind {act : Act σ β} {next : β → Act σ α}
    (hnext : ∀ value, (next value).Returns Q) : (act >>= next).Returns Q := by
  intro store value later hexec
  obtain ⟨middle, between, -, hrest⟩ := exists_of_bind_eq_ok hexec
  exact hnext middle between value later hrest

theorem returns_ite {p : Prop} [Decidable p] {first second : Act σ α} (hfirst : first.Returns Q)
    (hsecond : second.Returns Q) : (if p then first else second).Returns Q := by
  split
  · exact hfirst
  · exact hsecond

end Act

/-- The response was made by `set_response` with a content type of the code. -/
def SetBy (httpResponse : Response) (answer : Bool × Response) : Prop :=
  ∃ status contentType body, contentType ∈ contentTypes ∧
    answer.2 = setResponse status contentType body httpResponse

theorem SetBy.wellFormed {httpResponse : Response} {answer : Bool × Response}
    (hset : SetBy httpResponse answer) : answer.2.WellFormed := by
  obtain ⟨status, contentType, body, htype, heq⟩ := hset
  rw [heq]
  exact wellFormed_setResponse status htype body httpResponse

theorem setBy_respond (verdict : Bool) (status : Status) (body : Str)
    (httpResponse : Response) :
    SetBy httpResponse (ApiHandler.respond verdict status body httpResponse) :=
  ⟨status, _, body, textPlain_mem, rfl⟩

namespace ApiHandler

open Act

variable {σ : Type} (handler : ApiHandler σ) (uri : List Str) (httpRequest : Request)
  (httpResponse : Response)

theorem returns_respond (verdict : Bool) (status : Status) (body : Str) :
    (pure (respond verdict status body httpResponse) : Act σ (Bool × Response)).Returns
      (SetBy httpResponse) :=
  returns_pure (setBy_respond verdict status body httpResponse)

theorem returns_handlePost :
    (handler.handlePost uri httpRequest httpResponse).Returns (SetBy httpResponse) := by
  refine returns_ite (returns_respond _ _ _ _) ?_
  refine returns_bind fun entity => returns_bind fun createdFileId => ?_
  exact returns_ite (returns_respond _ _ _ _) (returns_respond _ _ _ _)

theorem returns_handleGet :
    (handler.handleGet uri httpResponse).Returns (SetBy httpResponse) := by
  refine returns_bind fun entity => returns_bind fun present => ?_
  refine returns_ite (returns_respond _ _ _ _) (returns_ite ?_ (returns_ite ?_ ?_))
  · exact returns_bind fun jsonList => returns_respond _ _ _ _
  · refine returns_bind fun fileName => returns_bind fun fileContents => ?_
    cases fileContents <;> exact returns_respond _ _ _ _
  · exact returns_respond _ _ _ _

theorem returns_handleDelete :
    (handler.handleDelete uri httpResponse).Returns (SetBy httpResponse) := by
  refine returns_ite (returns_respond _ _ _ _) ?_
  refine returns_bind fun entity => returns_bind fun fileName => returns_bind fun regular => ?_
  refine returns_ite (returns_respond _ _ _ _) (returns_bind fun removed => ?_)
  exact returns_ite (returns_respond _ _ _ _) (returns_respond _ _ _ _)

theorem returns_handlePut :
    (handler.handlePut uri httpRequest httpResponse).Returns (SetBy httpResponse) := by
  refine returns_ite (returns_respond _ _ _ _) ?_
  refine returns_bind fun entity => returns_bind fun fileName => returns_bind fun success => ?_
  refine returns_ite (returns_bind fun id => ?_) ?_ <;> exact returns_respond _ _ _ _

/-- Whatever the file system does, an answer of the API was set in one way. -/
theorem returns_handleRequest :
    (handler.handleRequest httpRequest httpResponse).Returns (SetBy httpResponse) := by
  refine returns_bind fun uri => returns_ite (returns_respond _ _ _ _) ?_
  refine returns_ite (returns_handlePost handler uri httpRequest httpResponse) ?_
  refine returns_ite (returns_handleGet handler uri httpResponse) ?_
  refine returns_ite (returns_handlePut handler uri httpRequest httpResponse) ?_
  exact returns_ite (returns_handleDelete handler uri httpResponse) (returns_respond _ _ _ _)

end ApiHandler

namespace PaletteHandler

variable {α β : Type} {Q : α → Prop}

/-- Whatever a computation returns has the property, however it is answered. -/
def Gives (Q : α → Prop) (act : Web α) : Prop :=
  ∀ answers k value, act.result answers k = .ok value → Q value

theorem gives_pure {value : α} (hvalue : Q value) :
    PaletteHandler.Gives Q (pure value : Web α) := by
  rintro answers k _ ⟨⟩
  exact hvalue

theorem gives_bind {act : Web β} {next : β → Web α}
    (hnext : ∀ value, PaletteHandler.Gives Q (next value)) :
    PaletteHandler.Gives Q (act >>= next) := by
  intro answers k value hresult
  cases hact : act.result answers k with
  | error fault =>
      rw [Dialogue.result_bind_error hact] at hresult
      contradiction
  | ok middle =>
      rw [Dialogue.result_bind_ok hact] at hresult
      exact hnext middle answers _ value hresult

theorem gives_ite {p : Prop} [Decidable p] {first second : Web α}
    (hfirst : PaletteHandler.Gives Q first) (hsecond : PaletteHandler.Gives Q second) :
    PaletteHandler.Gives Q (if p then first else second) := by
  split
  · exact hfirst
  · exact hsecond

theorem gives_handleRequest (tree : PropertyTree) (httpRequest : Request)
    (httpResponse : Response) :
    PaletteHandler.Gives (SetBy httpResponse)
      (handleRequest tree httpRequest httpResponse) := by
  have hset : ∀ verdict status contentType body, contentType ∈ contentTypes →
      PaletteHandler.Gives (SetBy httpResponse)
        (pure (verdict, setResponse status contentType body httpResponse)) :=
    fun verdict status contentType body htype =>
      gives_pure ⟨status, contentType, body, htype, rfl⟩
  refine gives_ite (hset _ _ _ _ (by decide +kernel)) ?_
  refine gives_ite (hset _ _ _ _ (by decide +kernel)) ?_
  refine gives_bind fun colors => gives_bind fun colorNames => ?_
  refine gives_ite (hset _ _ _ _ (by decide +kernel)) (gives_bind fun jsonBody => ?_)
  exact hset _ _ _ _ (by decide +kernel)

end PaletteHandler

namespace RequestHandlerFactory

variable (env : Environment) (httpRequest : Request) (httpResponse : Response)

theorem returns_onDisk {act : Act Disk (Bool × Response)}
    (hact : act.Returns (SetBy httpResponse)) :
    (World.onDisk act).Returns (SetBy httpResponse) := by
  intro world value later hexec
  rw [World.onDisk, Act.exec_attempt, Prod.mk.injEq] at hexec
  exact hact world.disk value (act.exec world.disk).2 (Prod.ext hexec.1 rfl)

theorem returns_onWeb {act : Web (Bool × Response)}
    (hact : PaletteHandler.Gives (SetBy httpResponse) act) :
    (World.onWeb env.web act).Returns (SetBy httpResponse) := by
  intro world value later hexec
  rw [World.onWeb, Act.exec_attempt, Prod.mk.injEq] at hexec
  cases hresult : act.result env.web world.asked with
  | error fault =>
      rw [hresult] at hexec
      cases hexec.1
  | ok answer =>
      rw [hresult] at hexec
      cases hexec.1
      exact hact _ _ _ hresult

theorem setBy_file {first second : Prop} [Decidable first] [Decidable second]
    {notFound unreadable body path : Str} :
    SetBy httpResponse
      (if first then (false, setResponse .notFound "text/plain".toList notFound httpResponse)
      else if second then
        (false, setResponse .notFound "text/plain".toList unreadable httpResponse)
      else (true, setResponse .ok (extensionToType (extension path)) body httpResponse)) := by
  split
  · exact ⟨_, _, _, textPlain_mem, rfl⟩
  · split
    · exact ⟨_, _, _, textPlain_mem, rfl⟩
    · exact ⟨_, _, _, extensionToType_mem _, rfl⟩

/-- Each handler sets its responses in one way. -/
theorem returns_createAt (k : Nat) (factory : RequestHandlerFactory) :
    (factory.createAt env k httpRequest httpResponse).Returns (SetBy httpResponse) := by
  have hplain : ∀ (verdict : Bool) (status : Status) (body : Str), (pure (verdict,
      setResponse status "text/plain".toList body httpResponse) :
        Act World (Bool × Response)).Returns (SetBy httpResponse) :=
    fun verdict status body => Act.returns_pure ⟨status, _, body, textPlain_mem, rfl⟩
  cases factory with
  | echo | sleep | health | error | badRequest => exact hplain _ _ _
  | palette =>
      exact returns_onWeb env httpResponse
        (PaletteHandler.gives_handleRequest env.tree httpRequest httpResponse)
  | color =>
      refine returns_onDisk httpResponse ?_
      rintro disk _ later ⟨⟩
      exact setBy_file httpResponse
  | static location rootPath =>
      refine returns_onDisk httpResponse ?_
      rintro disk _ later ⟨⟩
      exact setBy_file httpResponse
  | api location dataPath =>
      exact returns_onDisk httpResponse
        (ApiHandler.returns_handleRequest _ httpRequest httpResponse)

theorem returns_create (factory : RequestHandlerFactory) :
    (factory.create env httpRequest httpResponse).Returns (SetBy httpResponse) := by
  intro world value later hexec
  rw [exec_create, Prod.mk.injEq] at hexec
  exact returns_createAt env httpRequest httpResponse world.handled factory world value _
    (Prod.ext hexec.1 rfl)

/-- An answer of a handler: its calls to the file system may return anything, as they do
when other threads use the files as well. -/
inductive Possible : RequestHandlerFactory → Bool × Response → Prop where
  | api {σ : Type} {location dataPath : Str} (fs : FileSystem σ) {store later : σ}
      {answer : Bool × Response}
      (hexec : ((⟨location, dataPath, fs⟩ : ApiHandler σ).handleRequest httpRequest
        httpResponse).exec store = (.ok answer, later)) :
      Possible (.api location dataPath) answer
  | create {factory : RequestHandlerFactory} (env : Environment) {world later : World}
      {answer : Bool × Response}
      (hexec : (factory.create env httpRequest httpResponse).exec world = (.ok answer, later)) :
      Possible factory answer

variable {httpRequest httpResponse} in
theorem Possible.setBy {factory : RequestHandlerFactory} {answer : Bool × Response}
    (hpossible : Possible httpRequest httpResponse factory answer) :
    SetBy httpResponse answer := by
  cases hpossible with
  | api fs hexec => exact ApiHandler.returns_handleRequest _ httpRequest httpResponse _ _ _ hexec
  | create env hexec => exact returns_create env httpRequest httpResponse factory _ _ _ hexec

end RequestHandlerFactory

namespace Server

section Runs

variable {ι σ : Type} [DecidableEq ι] [Fintype ι] {parseRequest : Str → Option Request}
  {program : RequestHandlerFactory → Request → Response → Resumption σ Fault (Bool × Response)}
  {routes : FactoryRoutes RequestHandlerFactory}

/-- In every run of the server, however its threads interleave, each response that a peer
gets has the headers of the server, a content type that the code names and the length of
its body. -/
theorem wellFormed_of_run {memory : Buffer} {store : σ} {events : List (Event ι)}
    {final : State ι RequestHandlerFactory σ}
    (hprogram : ∀ factory httpRequest answer,
      (program factory httpRequest .empty).Yields (fun _ => True) (.ok answer) →
        factory.Possible httpRequest .empty answer)
    (hrun : (system parseRequest program routes).run (initial routes memory store) events =
      some final) (session : Nat) :
    ∀ httpResponse ∈ final.sent session, httpResponse.WellFormed :=
  forall_sent_of_run (fun factory httpRequest answer hyields =>
    (hprogram factory httpRequest answer hyields).setBy.wellFormed) hrun session

end Runs

namespace ResponseHeadersWitness

open SegmentationWitness HandlersWitness

theorem possible_serve (factory : RequestHandlerFactory) (httpRequest : Request)
    (answer : Bool × Response)
    (hyields : (serve factory httpRequest .empty).Yields (fun _ => True) (.ok answer)) :
    factory.Possible httpRequest .empty answer := by
  obtain ⟨world, -, hdone⟩ := Resumption.yields_access_iff.mp hyields
  exact .create env (Prod.ext (Resumption.yields_done_iff.mp hdone).symm rfl)

def routes : FactoryRoutes RequestHandlerFactory := createFactoryMap OrderedMap.empty

/-- A connection is served by one of two threads. -/
def events : List (Event Bool) :=
  [.accepted false 0 false, .goesOn false true SessionWitness.zeroed,
    .received true 0 (some wholeRead), .goesOn true true SessionWitness.zeroed,
    .goesOn true true SessionWitness.zeroed, .goesOn true true SessionWitness.zeroed,
    .goesOn true true SessionWitness.zeroed, .sent true 0 false]

def outcome : Option (State Bool RequestHandlerFactory World) :=
  (system parseGet serve routes).run (initial routes SessionWitness.zeroed world) events

theorem isSome_outcome : outcome.isSome = true := by decide +kernel

theorem wellFormed_events :
    ((outcome.get isSome_outcome).sent 0).length = 1 ∧
      ∀ httpResponse ∈ (outcome.get isSome_outcome).sent 0, httpResponse.WellFormed :=
  ⟨by decide +kernel,
    wellFormed_of_run possible_serve (Option.some_get isSome_outcome).symm 0⟩

end ResponseHeadersWitness

end Server

end SwanServer
