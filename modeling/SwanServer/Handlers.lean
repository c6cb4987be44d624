/-
All handlers together, over the disk and the web services that they work with.
-/
import SwanServer.ApiHandler
import SwanServer.DataDirectory
import SwanServer.FactoryMap
import SwanServer.PaletteHandler
import SwanServer.Resumption
import SwanServer.StaticHandler

namespace SwanServer

/-- `EchoHandler::handle_request`.  What `operator<<` writes is a parameter, since it
writes header fields that the model's requests do not hold. -/
def echoHandler {σ : Type} (serialised : Request → Str) : HandleRequest σ :=
  fun httpRequest httpResponse =>
    return (true, setResponse .ok "text/plain".toList (serialised httpRequest) httpResponse)

/-- `SLEEP_TIME`. -/
def sleepTime : Nat := 500

/-- `SleepHandler::handle_request`; only the time that it takes is left out. -/
def sleepHandler {σ : Type} : HandleRequest σ :=
  fixedHandler .ok ("Thread slept for ".toList ++ toStringInt sleepTime ++ " seconds.\n".toList)

namespace ColorHandler

/-- The page that every request gets. -/
def targetPath : Str := "../frontend/build/index.html".toList

/-- `ColorHandler::handle_request`. -/
def handleRequest (host : Host) : HandleRequest Disk := fun _ httpResponse =>
  Act.attempt fun disk =>
    let answer :=
      if disk.pathExists targetPath = false ∨ disk.isRegularFile targetPath = false then
        (false, setResponse .notFound "text/plain".toList "File not found\n".toList
          httpResponse)
      else if host.works .ifstream = false then
        (false, setResponse .notFound "text/plain".toList "Cannot open file\n".toList
          httpResponse)
      else
        (true, setResponse .ok (extensionToType (extension targetPath))
          (disk.read host targetPath ++ "\n".toList) httpResponse)
    (.ok answer, disk)

/-- The page is what a static location would serve for it. -/
theorem handleRequest_eq_static (host : Host) {location : Str} {httpRequest : Request}
    (htarget : cStr httpRequest.target = location ++ "index.html".toList)
    (httpResponse : Response) :
    handleRequest host httpRequest httpResponse =
      (⟨location, "/frontend/build".toList⟩ : StaticHandler).handleRequest host httpRequest
        httpResponse := by
  have hpath : (⟨location, "/frontend/build".toList⟩ : StaticHandler).targetPath httpRequest =
      targetPath := by
    rw [StaticHandler.targetPath, StaticHandler.remap, htarget, List.drop_left]
    rfl
  rw [StaticHandler.handleRequest, hpath]
  rfl

end ColorHandler

/-- What the handlers meet outside the server: how the operating system behaves while the
requests are handled, one after the other, what the web services answer, one question
after the other, what `operator<<` writes of a request, and the property trees. -/
structure Environment where
  host : Nat → Host
  web : Nat → Except CurlError Str
  serialised : Nat → Request → Str
  tree : PropertyTree

/-- What all handlers share: the disk, and how many requests were handled and how many
questions asked so far. -/
structure World where
  disk : Disk
  handled : Nat
  asked : Nat

namespace World

/-- A computation on the disk. -/
def onDisk {α : Type} (act : Act Disk α) : Act World α :=
  Act.attempt fun world =>
    let result := act.exec world.disk
    (result.1, { world with disk := result.2 })

/-- A fault of the palette handler among those of the handlers.  The exceptions of curl and
of the property tree, which no other handler throws, share one. -/
def fault : PaletteFault → Fault
  | .outOfRange => .outOfRange
  | .undefinedBehaviour => .undefinedBehaviour
  | .curl _ | .propertyTreeError => .invalidArgument

/-- A computation that asks web services. -/
def onWeb {α : Type} (web : Nat → Except CurlError Str) (act : Web α) : Act World α :=
  Act.attempt fun world =>
    ((act.result web world.asked).mapError fault,
      { world with asked := world.asked + (act.asked web world.asked).length })

end World

/-- `create()` of each factory, and the `handle_request` of the handler that it makes, for
request number `k`. -/
def RequestHandlerFactory.createAt (env : Environment) (k : Nat) :
    RequestHandlerFactory → HandleRequest World
  | .echo => echoHandler (env.serialised k)
  | .sleep => sleepHandler
  | .health => healthHandler
  | .palette => fun httpRequest httpResponse =>
      World.onWeb env.web (PaletteHandler.handleRequest env.tree httpRequest httpResponse)
  | .color => fun httpRequest httpResponse =>
      World.onDisk (ColorHandler.handleRequest (env.host k) httpRequest httpResponse)
  | .error => errorHandler
  | .badRequest => badRequestHandler
  | .static location rootPath => fun httpRequest httpResponse =>
      World.onDisk ((⟨location, rootPath⟩ : StaticHandler).handleRequest (env.host k)
        httpRequest httpResponse)
  | .api location dataPath => fun httpRequest httpResponse =>
      World.onDisk ((ApiHandler.real location dataPath (env.host k)).handleRequest httpRequest
        httpResponse)

/-- The handlers one request after the other. -/
def RequestHandlerFactory.create (env : Environment) (factory : RequestHandlerFactory) :
    HandleRequest World :=
  fun httpRequest httpResponse =>
    Act.attempt fun world =>
      let result := (factory.createAt env world.handled httpRequest httpResponse).exec world
      (result.1, { result.2 with handled := world.handled + 1 })

namespace RequestHandlerFactory

variable (env : Environment) (factory : RequestHandlerFactory) (httpRequest : Request)
  (httpResponse : Response) (world : World)

theorem exec_create :
    (factory.create env httpRequest httpResponse).exec world =
      let result := (factory.createAt env world.handled httpRequest httpResponse).exec world
      (result.1, { result.2 with handled := world.handled + 1 }) := rfl

theorem exec_createAt_api (k : Nat) (location dataPath : Str) :
    ((RequestHandlerFactory.api location dataPath).createAt env k httpRequest
        httpResponse).exec world =
      let result := ((ApiHandler.real location dataPath (env.host k)).handleRequest httpRequest
        httpResponse).exec world.disk
      (result.1, { world with disk := result.2 }) := rfl

/-- Only the API handlers change the disk. -/
theorem disk_exec_create (hfactory : ∀ location dataPath, factory ≠ .api location dataPath) :
    ((factory.create env httpRequest httpResponse).exec world).2.disk = world.disk := by
  cases factory with
  | api location dataPath => exact absurd rfl (hfactory location dataPath)
  | _ => rfl

end RequestHandlerFactory

namespace HandlersWitness

/-- Everything works except the web. -/
def env : Environment where
  host _ := workingHost
  web _ := .error .runtimeError
  serialised _ httpRequest := httpRequest.target
  tree := ⟨Unit, fun _ => none, fun _ _ => none, fun _ _ => none⟩

/-- Handlers that are not disturbed while they work. -/
def serve (factory : RequestHandlerFactory) (httpRequest : Request) (httpResponse : Response) :
    Resumption World Fault (Bool × Response) :=
  .atomically (factory.create env httpRequest httpResponse).exec

def world : World := ⟨DataDirectoryWitness.disk, 0, 0⟩

end HandlersWitness

end SwanServer
