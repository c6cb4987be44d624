/-
The API handler as a program.  Each call that it makes on the disk is an access of its own,
between two of which other threads may change the disk.  Single accesses are also the
listing of a directory, `fputs` together with `fflush` and `fclose`, and `remove_all`.
-/
import SwanServer.Handlers
import SwanServer.RelyGuarantee

namespace SwanServer

/-- A computation as a single access. -/
def Act.call {σ α : Type} (act : Act σ α) : Resumption σ Fault α := .atomically act.exec

/-- Undisturbed, the program is the computation. -/
def Act.RunBy {σ α : Type} (act : Act σ α) (program : Resumption σ Fault α) : Prop :=
  ∀ store, program.exec store = act.exec store

namespace Act.RunBy

variable {σ α β : Type} {act : Act σ α} {program : Resumption σ Fault α}

theorem call (act : Act σ α) : act.RunBy act.call := fun _ => rfl

theorem pure (value : α) : (pure value : Act σ α).RunBy (Pure.pure value) := fun _ => rfl

theorem ofExcept (result : Except Fault α) : (ofExcept result : Act σ α).RunBy (.done result) :=
  fun _ => rfl

theorem bind {next : α → Act σ β} {later : α → Resumption σ Fault β} (hact : act.RunBy program)
    (hnext : ∀ value, (next value).RunBy (later value)) :
    (act >>= next).RunBy (program >>= later) := by
  intro store
  rw [Resumption.exec_bind, hact store, exec_bind]
  rcases act.exec store with ⟨fault | value, after⟩
  · rfl
  · exact hnext value after

theorem ite {p : Prop} [Decidable p] {other : Act σ α} {second : Resumption σ Fault α}
    (hact : act.RunBy program) (hother : other.RunBy second) :
    (if p then act else other).RunBy (if p then program else second) := by
  split
  · exact hact
  · exact hother

end Act.RunBy

namespace RealFileSystem

variable (host : Host)

def existsProgram (p : Str) : Resumption Disk Fault Bool :=
  Act.call (Act.attempt fun disk => (.ok (disk.pathExists p), disk))

def isRegularFileProgram (p : Str) : Resumption Disk Fault Bool :=
  Act.call (Act.attempt fun disk => (.ok (disk.isRegularFile p), disk))

/-- `RealFileSystem::remove`. -/
def removeProgram (p : Str) : Resumption Disk Fault Bool := do
  let success ← (Disk.remove host p).call
  if ← (Disk.isEmpty (parentPath p)).call then
    (Disk.removeAll host (parentPath p)).call
  return success

def ensureDirectoryProgram (p : Str) : Resumption Disk Fault Unit := do
  let present ← existsProgram p
  if present = false then
    let _ ← (Disk.createDirectory host p).call

/-- `RealFileSystem::write_file`. -/
def writeFileProgram (filePath body : Str) : Resumption Disk Fault Bool := do
  ensureDirectoryProgram host (parentPath filePath)
  match ← (Disk.fopen host filePath).call with
  | some fp => do
      (Disk.fputs host fp (cStr body)).call
      return true
  | none => return false

/-- `RealFileSystem::gen_id_and_write_file`. -/
def genIdAndWriteFileProgram (dirPath body : Str) : Resumption Disk Fault Int := do
  ensureDirectoryProgram host dirPath
  let names ← (Disk.directoryIterator host dirPath).call
  let fileName ← .done (uniqueFileName names)
  let filePath := dirPath ++ "/".toList ++ toStringInt fileName
  match ← (Disk.fopen host filePath).call with
  | some fp => do
      (Disk.fputs host fp (cStr body)).call
      return fileName
  | none => return -1

/-- `RealFileSystem::read_file`. -/
def readFileProgram (p : Str) : Resumption Disk Fault (Option Str) := do
  if ← isRegularFileProgram p then
    let file ← Act.call (Act.attempt fun disk => (.ok (disk.read host p), disk))
    return some file
  else
    return none

/-- `RealFileSystem::get_file_list`. -/
def getFileListProgram (p : Str) : Resumption Disk Fault Str := do
  let names ← (Disk.directoryIterator host p).call
  return fileList names

theorem runBy_remove (p : Str) : (remove host p).RunBy (removeProgram host p) := by
  refine (Act.RunBy.call _).bind fun success => (Act.RunBy.call _).bind fun empty => ?_
  exact .ite ((Act.RunBy.call _).bind fun _ => .pure success) (.pure success)

theorem runBy_ensureDirectory (p : Str) :
    (ensureDirectory host p).RunBy (ensureDirectoryProgram host p) :=
  (Act.RunBy.call _).bind fun _ => .ite ((Act.RunBy.call _).bind fun _ => .pure ()) (.pure ())

theorem runBy_writeFile (filePath body : Str) :
    (writeFile host filePath body).RunBy (writeFileProgram host filePath body) := by
  refine (runBy_ensureDirectory host _).bind fun _ => (Act.RunBy.call _).bind fun fp => ?_
  cases fp with
  | none => exact .pure false
  | some fp => exact (Act.RunBy.call _).bind fun _ => .pure true

theorem runBy_genIdAndWriteFile (dirPath body : Str) :
    (genIdAndWriteFile host dirPath body).RunBy (genIdAndWriteFileProgram host dirPath body) := by
  refine (runBy_ensureDirectory host dirPath).bind fun _ => ?_
  rw [getUniqueFileName, bind_assoc]
  refine (Act.RunBy.call _).bind fun names => (Act.RunBy.ofExcept _).bind fun fileName => ?_
  refine (Act.RunBy.call _).bind fun fp => ?_
  cases fp with
  | none => exact .pure (-1)
  | some fp => exact (Act.RunBy.call _).bind fun _ => .pure fileName

theorem runBy_readFile (p : Str) : (readFile host p).RunBy (readFileProgram host p) := by
  intro disk
  have hcall : (isRegularFileProgram p).exec disk = (.ok (disk.isRegularFile p), disk) := rfl
  rw [readFileProgram, Resumption.exec_bind, hcall, readFile, Act.exec_attempt]
  cases disk.isRegularFile p <;> rfl

theorem runBy_getFileList (p : Str) : (getFileList host p).RunBy (getFileListProgram host p) :=
  (Act.RunBy.call _).bind fun _ => .pure _

end RealFileSystem

namespace ApiProgram

open RealFileSystem

variable (dataPath : Str) (host : Host)

/-- `ApiHandler::handlePost`. -/
def handlePost (uri : List Str) (httpRequest : Request) (httpResponse : Response) :
    Resumption Disk Fault (Bool × Response) := do
  if uri.length ≠ 1 then
    return ApiHandler.respond false .badRequest
      "Not a valid API request target for POST\n".toList httpResponse
  let dirPath := dataPath ++ "/".toList ++ (← .done (extractEntity uri))
  let postBody := httpRequest.body
  let createdFileId ← genIdAndWriteFileProgram host dirPath postBody
  if createdFileId = -1 then
    return ApiHandler.respond false .internalServerError "Unable to generate ID.".toList
      httpResponse
  else
    return ApiHandler.respond true .ok (ApiHandler.idResponse (toStringInt createdFileId))
      httpResponse

/-- `ApiHandler::handleGet`. -/
def handleGet (uri : List Str) (httpResponse : Response) :
    Resumption Disk Fault (Bool × Response) := do
  let filePath := dataPath ++ "/".toList ++ (← .done (extractEntity uri))
  if (← existsProgram filePath) = false then
    return ApiHandler.respond false .badRequest "Invalid entity requested\n".toList httpResponse
  if uri.length = 1 then
    let jsonList ← getFileListProgram host filePath
    return ApiHandler.respond true .ok jsonList httpResponse
  else if uri.length = 2 then
    let fileName := filePath ++ "/".toList ++ (← .done (extractFileName uri))
    match ← readFileProgram host fileName with
    | some fileContents => return ApiHandler.respond true .ok fileContents httpResponse
    | none =>
        return ApiHandler.respond false .badRequest "Requested ID does not exist\n".toList
          httpResponse
  else
    return ApiHandler.respond false .badRequest
      "Not a valid API request target for GET\n".toList httpResponse

/-- `ApiHandler::handleDelete`. -/
def handleDelete (uri : List Str) (httpResponse : Response) :
    Resumption Disk Fault (Bool × Response) := do
  if uri.length ≠ 2 then
    return ApiHandler.respond false .badRequest
      "Not a valid API request target for DELETE\n".toList httpResponse
  let fileName := dataPath ++ "/".toList ++ (← .done (extractEntity uri)) ++ "/".toList ++
    (← .done (extractFileName uri))
  if (← isRegularFileProgram fileName) = false then
    return ApiHandler.respond false .badRequest "Requested ID does not exist.\n".toList
      httpResponse
  else if (← removeProgram host fileName) = false then
    return ApiHandler.respond false .badRequest "Could not delete requested ID\n".toList
      httpResponse
  else
    return ApiHandler.respond true .ok "Successfully deleted ID\n".toList httpResponse

/-- `ApiHandler::handlePut`. -/
def handlePut (uri : List Str) (httpRequest : Request) (httpResponse : Response) :
    Resumption Disk Fault (Bool × Response) := do
  if uri.length ≠ 2 then
    return ApiHandler.respond false .badRequest
      "Not a valid API request target for PUT\n".toList httpResponse
  let filePath := dataPath ++ "/".toList ++ (← .done (extractEntity uri)) ++ "/".toList ++
    (← .done (extractFileName uri))
  let postBody := httpRequest.body
  if ← writeFileProgram host filePath postBody then
    return ApiHandler.respond true .ok
      (ApiHandler.idResponse (← .done (extractFileName uri))) httpResponse
  else
    return ApiHandler.respond false .internalServerError "Unable to write to ID.".toList
      httpResponse

/-- The operation that `handle_request` selects by method. -/
def dispatch (uri : List Str) (httpRequest : Request) (httpResponse : Response) :
    Resumption Disk Fault (Bool × Response) :=
  if httpRequest.method = "POST".toList then
    handlePost dataPath host uri httpRequest httpResponse
  else if httpRequest.method = "GET".toList then
    handleGet dataPath host uri httpResponse
  else if httpRequest.method = "PUT".toList then
    handlePut dataPath host uri httpRequest httpResponse
  else if httpRequest.method = "DELETE".toList then
    handleDelete dataPath host uri httpResponse
  else
    return ApiHandler.respond false .badRequest "Invalid HTTP method\n".toList httpResponse

/-- `ApiHandler::handle_request`. -/
def handleRequest (httpRequest : Request) (httpResponse : Response) :
    Resumption Disk Fault (Bool × Response) := do
  let target := cStr httpRequest.target
  let uri ← .done (split target '/')
  if isFileNumber uri = false then
    return ApiHandler.respond false .badRequest "Requested file must be a number\n".toList
      httpResponse
  dispatch dataPath host uri httpRequest httpResponse

section RunBy

variable (location : Str) (uri : List Str) (httpRequest : Request) (httpResponse : Response)

theorem runBy_handlePost :
    ((ApiHandler.real location dataPath host).handlePost uri httpRequest httpResponse).RunBy
      (handlePost dataPath host uri httpRequest httpResponse) := by
  refine .ite (.pure _) ((Act.RunBy.ofExcept _).bind fun entity => ?_)
  refine (runBy_genIdAndWriteFile host _ _).bind fun id => .ite (.pure _) (.pure _)

theorem runBy_handleGet :
    ((ApiHandler.real location dataPath host).handleGet uri httpResponse).RunBy
      (handleGet dataPath host uri httpResponse) := by
  refine (Act.RunBy.ofExcept _).bind fun entity => (Act.RunBy.call _).bind fun present => ?_
  refine .ite (.pure _) (.ite ?_ (.ite ?_ (.pure _)))
  · exact (runBy_getFileList host _).bind fun _ => .pure _
  · refine (Act.RunBy.ofExcept _).bind fun fileName => (runBy_readFile host _).bind fun file => ?_
    cases file with
    | none => exact .pure _
    | some fileContents => exact .pure _

theorem runBy_handleDelete :
    ((ApiHandler.real location dataPath host).handleDelete uri httpResponse).RunBy
      (handleDelete dataPath host uri httpResponse) := by
  refine .ite (.pure _) ((Act.RunBy.ofExcept _).bind fun entity => ?_)
  refine (Act.RunBy.ofExcept _).bind fun fileName => (Act.RunBy.call _).bind fun regular => ?_
  refine .ite (.pure _) ((runBy_remove host _).bind fun removed => ?_)
  exact .ite (.pure _) (.pure _)

theorem runBy_handlePut :
    ((ApiHandler.real location dataPath host).handlePut uri httpRequest httpResponse).RunBy
      (handlePut dataPath host uri httpRequest httpResponse) := by
  refine .ite (.pure _) ((Act.RunBy.ofExcept _).bind fun entity => ?_)
  refine (Act.RunBy.ofExcept _).bind fun fileName => ?_
  refine (runBy_writeFile host _ _).bind fun success => .ite ?_ (.pure _)
  exact (Act.RunBy.ofExcept _).bind fun fileName => .pure _

/-- Undisturbed, the program is the handler. -/
theorem runBy_handleRequest :
    ((ApiHandler.real location dataPath host).handleRequest httpRequest httpResponse).RunBy
      (handleRequest dataPath host httpRequest httpResponse) := by
  refine (Act.RunBy.ofExcept _).bind fun uri => .ite (.pure _) ?_
  exact .ite (runBy_handlePost dataPath host location uri httpRequest httpResponse)
    (.ite (runBy_handleGet dataPath host location uri httpResponse)
      (.ite (runBy_handlePut dataPath host location uri httpRequest httpResponse)
        (.ite (runBy_handleDelete dataPath host location uri httpResponse) (.pure _))))

end RunBy

end ApiProgram

end SwanServer
