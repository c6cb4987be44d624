/-
Routing of one request: the text read from the socket is parsed, the longest
registered location that is a prefix of the target selects a factory, and the
handler that the factory creates answers.
-/
import SwanServer.OrderedMap
import SwanServer.RequestHandler

namespace SwanServer

/-- What a handler does with a request: whether it reports success, and the
response it leaves. -/
abbrev HandleRequest (σ : Type) := Request → Response → Act σ (Bool × Response)

/-- A handler that answers every request alike. -/
def fixedHandler {σ : Type} (status : Status) (body : Str) : HandleRequest σ :=
  fun _ httpResponse =>
    return (true, setResponse status "text/plain".toList body httpResponse)

/-- `BadRequestHandler::handle_request`. -/
def badRequestHandler {σ : Type} : HandleRequest σ :=
  fixedHandler .badRequest "Bad Request\n".toList

/-- `ErrorHandler::handle_request`. -/
def errorHandler {σ : Type} : HandleRequest σ :=
  fixedHandler .notFound "Could not handle request\n".toList

/-- `HealthHandler::handle_request`. -/
def healthHandler {σ : Type} : HandleRequest σ := fixedHandler .ok "OK\n".toList

/-- `std::map<std::string, std::shared_ptr<RequestHandlerFactory>>`, where
`none` is the null pointer. -/
abbrev FactoryRoutes (φ : Type) := OrderedMap Str (Option φ)

/-- `longest_prefix_matching`: the loop keeps the best location so far and its
length. -/
def longestPrefixMatching {φ : Type} (factoryRoutes : FactoryRoutes φ)
    (uri : Str) : Str :=
  (factoryRoutes.entries.foldl
    (fun (best : Str × Nat) root =>
      let uriSubstr := uri.take root.1.length
      if root.1 = uriSubstr then
        if best.2 < root.1.length then (root.1, root.1.length) else best
      else best)
    ("/".toList, 0)).1

/-- The location that a request text is routed to. -/
def matchedLocationPath {φ : Type} (parseRequest : Str → Option Request)
    (factoryRoutes : FactoryRoutes φ) (requestString : Str) : Str :=
  match parseRequest requestString with
  | none => "bad request".toList
  | some httpRequest => longestPrefixMatching factoryRoutes (cStr httpRequest.target)

/-- The request that the handler gets: an empty one where parsing failed. -/
def parsedRequest (parseRequest : Str → Option Request) (requestString : Str) :
    Request :=
  (parseRequest requestString).getD ⟨[], [], []⟩

/-- `RequestHandlerDelegate::processRequest`, with the HTTP parser and the
handlers that factories create as parameters.  The lookup may add a null
factory to the table, and calling a null factory is undefined. -/
def processRequest {φ σ : Type} (parseRequest : Str → Option Request)
    (create : φ → HandleRequest σ) (factoryRoutes : FactoryRoutes φ)
    (requestString : Str) (httpResponse : Response) :
    Act σ (Response × FactoryRoutes φ) :=
  let matched := matchedLocationPath parseRequest factoryRoutes requestString
  let (factory, factoryRoutes) := factoryRoutes.getOrInsert matched none
  match factory with
  | none => throw .undefinedBehaviour
  | some factory => do
      let (_, httpResponse) ←
        create factory (parsedRequest parseRequest requestString) httpResponse
      return (httpResponse, factoryRoutes)

/-- What does not parse goes to the factory for bad requests. -/
theorem exec_processRequest_of_parse_eq_none {φ σ : Type}
    {parseRequest : Str → Option Request} {create : φ → HandleRequest σ}
    {factoryRoutes : FactoryRoutes φ} {requestString : Str} {factory : φ}
    (hparse : parseRequest requestString = none)
    (hroute : factoryRoutes.find? "bad request".toList = some (some factory))
    (hcreate : create factory = badRequestHandler) (httpResponse : Response) (store : σ) :
    (processRequest parseRequest create factoryRoutes requestString httpResponse).exec
        store =
      (.ok (setResponse .badRequest "text/plain".toList "Bad Request\n".toList httpResponse,
        factoryRoutes), store) := by
  have hmatched : matchedLocationPath parseRequest factoryRoutes requestString =
      "bad request".toList := by
    rw [matchedLocationPath, hparse]
  rw [processRequest, hmatched, OrderedMap.getOrInsert_of_find? hroute]
  simp only [hcreate]
  rfl

end SwanServer
